import SceneWiring.Proofs.Scan.Headers

/-!
# Parts inside parts

The containers of a scanned type come from its first part, but should be the same whichever part
they are read from: for every part that this part stands in, from the outside to the inside, all
parts of that type, wherever they stand and whether or not it has candidates.  If no name has a
plus sign and no namespace stands inside a type, this is so.

Main results:

- Definition `Compilation.nestedParts`: the parts of a compilation and the parts around them.
- Theorem `Place.StandsIn.enterType`: entering a part keeps track of the parts around a place.
- Theorem `PartSite.keys_around_eq`: parts of one type stand in parts of the same types.
- Theorem `containers_of_every_part`: the containers of a type, read from any of its parts.
-/

namespace SceneWiring

/-! ## Parts with the parts around them -/

/-- A part of a type, with the parts of types that it stands in, outermost first. -/
structure NestedPart where
  outer : List PartSite
  site : PartSite

mutual

/-- The parts in a declaration that stands in the given parts. -/
def Decl.nested (outer : List PartSite) (p : Place) : Decl → List NestedPart
  | .scope head members => Decl.nestedAll outer (p.enterScope head) members
  | .type part members =>
    ⟨outer, ⟨p, part⟩⟩ :: Decl.nestedAll (outer ++ [⟨p, part⟩]) (p.enterType part) members
  | .member _ => []
  | .directive _ => []
  | .unknown => []

/-- The parts in declarations one after the other. -/
def Decl.nestedAll (outer : List PartSite) (p : Place) : List Decl → List NestedPart
  | [] => []
  | d :: ds => d.nested outer p ++ Decl.nestedAll outer p ds

end

/-- The parts of a compilation and the parts around them, in source order. -/
def Compilation.nestedParts (c : Compilation) : List NestedPart :=
  c.files.flatMap fun f => Decl.nestedAll [] (.top f) f.members

mutual

/-- These are the parts of the declaration. -/
theorem Decl.map_site_nested : ∀ (d : Decl) (outer : List PartSite) (p : Place),
    (d.nested outer p).map NestedPart.site = Site.partsIn (d.sites p)
  | .scope head members, outer, p => Decl.map_site_nestedAll members outer (p.enterScope head)
  | .type part members, outer, p => by
      rw [Decl.nested, Decl.sites, List.map_cons, Site.partsIn_cons_part,
        Decl.map_site_nestedAll members]
  | .member _, _, _ => rfl
  | .directive _, _, _ => rfl
  | .unknown, _, _ => rfl

/-- These are the parts of the declarations. -/
theorem Decl.map_site_nestedAll : ∀ (ds : List Decl) (outer : List PartSite) (p : Place),
    (Decl.nestedAll outer p ds).map NestedPart.site = Site.partsIn (Decl.sitesAll p ds)
  | [], _, _ => rfl
  | d :: ds, outer, p => by
      rw [Decl.nestedAll, Decl.sitesAll, List.map_append, Site.partsIn_append,
        Decl.map_site_nested d outer p, Decl.map_site_nestedAll ds outer p]

end

/-! ## Places inside parts -/

/-- The types around a place are those of the given parts, which are some of the given sites. -/
structure Place.StandsIn (sites : List Site) (p : Place) (outer : List PartSite) : Prop where
  keys : outer.map PartSite.key = p.around.map OuterType.key
  subset : outer ⊆ Site.partsIn sites

namespace Place.StandsIn

variable {sites : List Site} {p : Place} {outer : List PartSite}

theorem top (f : SourceFile) : (Place.top f).StandsIn sites [] where
  keys := rfl
  subset := List.nil_subset _

theorem enterScope (h : p.StandsIn sites outer) (head : ScopeHead) :
    (p.enterScope head).StandsIn sites outer where
  keys := h.keys
  subset := h.subset

/-- Inside one more part, a place stands in that part too. -/
theorem enterType (h : p.StandsIn sites outer) {part : TypePart}
    (hmem : ⟨p, part⟩ ∈ Site.partsIn sites) :
    (p.enterType part).StandsIn sites (outer ++ [⟨p, part⟩]) where
  keys := by
    rw [Place.enterType, List.map_append, List.map_append, h.keys]
    rfl
  subset := by
    rw [List.append_subset]
    exact ⟨h.subset, List.cons_subset.mpr ⟨hmem, List.nil_subset _⟩⟩

end Place.StandsIn

mutual

/-- The parts of a declaration stand in the parts around them. -/
theorem Decl.standsIn_of_mem_nested {sites : List Site} :
    ∀ (d : Decl) {outer : List PartSite} {p : Place}, p.StandsIn sites outer →
      Site.partsIn (d.sites p) ⊆ Site.partsIn sites →
        ∀ n ∈ d.nested outer p, n.site.place.StandsIn sites n.outer
  | .scope head members, _, _, h, hparts, n, hn =>
      Decl.standsIn_of_mem_nestedAll members (h.enterScope head) hparts n hn
  | .type part members, _, p, h, hparts, n, hn => by
      rw [Decl.sites, Site.partsIn_cons_part, List.cons_subset] at hparts
      rw [Decl.nested, List.mem_cons] at hn
      rcases hn with rfl | hn
      · exact h
      · exact Decl.standsIn_of_mem_nestedAll members (h.enterType hparts.1) hparts.2 n hn
  | .member _, _, _, _, _, n, hn => by simp [Decl.nested] at hn
  | .directive _, _, _, _, _, n, hn => by simp [Decl.nested] at hn
  | .unknown, _, _, _, _, n, hn => by simp [Decl.nested] at hn

/-- The parts of declarations stand in the parts around them. -/
theorem Decl.standsIn_of_mem_nestedAll {sites : List Site} :
    ∀ (ds : List Decl) {outer : List PartSite} {p : Place}, p.StandsIn sites outer →
      Site.partsIn (Decl.sitesAll p ds) ⊆ Site.partsIn sites →
        ∀ n ∈ Decl.nestedAll outer p ds, n.site.place.StandsIn sites n.outer
  | [], _, _, _, _, n, hn => by simp [Decl.nestedAll] at hn
  | d :: ds, _, _, h, hparts, n, hn => by
      rw [Decl.sitesAll, Site.partsIn_append, List.append_subset] at hparts
      rw [Decl.nestedAll, List.mem_append] at hn
      rcases hn with hn | hn
      · exact Decl.standsIn_of_mem_nested d h hparts.1 n hn
      · exact Decl.standsIn_of_mem_nestedAll ds h hparts.2 n hn

end

namespace Compilation

variable (c : Compilation)

/-- The parts with the parts around them are all parts. -/
theorem map_site_nestedParts : c.nestedParts.map NestedPart.site = Site.partsIn c.sites := by
  rw [nestedParts, List.map_flatMap, sites, Site.partsIn, List.filterMap_flatMap]
  congr 1
  funext f
  exact Decl.map_site_nestedAll f.members [] (.top f)

/-- The parts of a compilation stand in the parts around them. -/
theorem standsIn_of_mem_nestedParts :
    ∀ n ∈ c.nestedParts, n.site.place.StandsIn c.sites n.outer := by
  intro n hn
  rcases List.mem_flatMap.mp hn with ⟨f, hf, hn⟩
  apply Decl.standsIn_of_mem_nestedAll f.members (.top f) _ n hn
  have hsites : (Decl.sitesAll (.top f) f.members) ⊆ c.sites :=
    fun s hs => List.mem_flatMap.mpr ⟨f, hf, hs⟩
  exact List.filterMap_subset _ hsites

end Compilation

/-! ## Parts of one type -/

/-- Parts of one type stand in parts of the same types. -/
theorem PartSite.keys_around_eq {n : Naming} (hn : n.ExcludesPlus) {c : Compilation}
    (h : c.follows n) {key : String} {s s' : PartSite} (hs : s ∈ Site.partsUnder key c.sites)
    (hs' : s' ∈ Site.partsUnder key c.sites) :
    s'.place.around.map OuterType.key = s.place.around.map OuterType.key := by
  have hkey : s'.key = s.key := by
    rw [(Site.mem_partsUnder_iff.mp hs).2, (Site.mem_partsUnder_iff.mp hs').2]
  have hinside := (keys_eq_of_key_eq hn (Compilation.follows_of_mem_partsUnder h hs)
    (Compilation.follows_of_mem_partsUnder h hs') hkey).2.2
  rw [map_key_around_inside, map_key_around_inside] at hinside
  exact (List.append_inj' hinside rfl).1

/-- If no name has a plus sign and no namespace stands inside a type, the containers of a scanned
type can be read from any of its parts: they are the types of the parts around it, outermost
first, each with all of its parts, the one around it among them. -/
theorem containers_of_every_part {c : Compilation} (h : c.follows .withoutPlus) :
    c.nestedParts.map NestedPart.site = Site.partsIn c.sites ∧
      List.Forall₂
        (fun key t =>
          t.parts = (Site.partsUnder key c.sites).map PartSite.part ∧
          ∀ n ∈ c.nestedParts, n.site.key = key →
            t.containers = n.outer.map (fun o =>
              (Site.partsUnder o.key c.sites).map PartSite.part) ∧
            ∀ o ∈ n.outer, o ∈ Site.partsUnder o.key c.sites)
        (Site.markedKeys c.sites) c.scan := by
  refine ⟨c.map_site_nestedParts, ?_⟩
  apply (forall₂_containers_scan Naming.excludesPlus_withoutPlus h).imp
  rintro key t ⟨first, others, hgathers, hcontainers⟩
  refine ⟨hgathers.parts_eq, ?_⟩
  intro n hn hkey
  have hstands := c.standsIn_of_mem_nestedParts n hn
  have hsite : n.site ∈ Site.partsUnder key c.sites := by
    rw [Site.mem_partsUnder_iff, ← c.map_site_nestedParts]
    exact ⟨List.mem_map_of_mem hn, hkey⟩
  constructor
  · rw [hcontainers, PartSite.keys_around_eq Naming.excludesPlus_withoutPlus h hsite
      hgathers.first_mem, ← hstands.keys, List.map_map]
    rfl
  · intro o ho
    exact Site.mem_partsUnder_iff.mpr ⟨hstands.subset ho, rfl⟩

/-- A type inside another one, in two files.  In the second file, a part of the outer type comes
first that holds nothing, and a further type stands inside the inner one. -/
def spreadHouse : Compilation where
  files :=
    [⟨"Room.cs",
      [.scope ⟨"Game", .unknown⟩
        [.type ⟨"House", ["partial"], [], .unknown⟩
          [.type ⟨"Room", ["partial"], [], .unknown⟩
            [.member (.field ⟨"Door", ["door"], [], [⟨"Get", []⟩], .unknown⟩)]]]]⟩,
     ⟨"Shelf.cs",
      [.scope ⟨"Game", .unknown⟩
        [.type ⟨"House", ["public"], [], .unknown⟩ [],
         .type ⟨"House", ["partial"], [], .unknown⟩
          [.type ⟨"Room", ["partial"], [], .unknown⟩
            [.type ⟨"Shelf", ["partial"], [], .unknown⟩
              [.member (.field ⟨"Light", ["light"], [], [⟨"Get", []⟩], .unknown⟩)]]]]]⟩]

/-- Both types with candidates have all three parts of the outer type around them, and the
innermost one also both parts of the type between, from whichever part they are read. -/
theorem spreadHouse_containers :
    spreadHouse.follows .withoutPlus ∧
      spreadHouse.nestedParts.map (fun n => (n.site.key, n.outer.map PartSite.key)) =
        [("Game+House", []), ("Game+House+Room", ["Game+House"]), ("Game+House", []),
          ("Game+House", []), ("Game+House+Room", ["Game+House"]),
          ("Game+House+Room+Shelf", ["Game+House", "Game+House+Room"])] ∧
      List.Forall₂
        (fun key t => ∀ n ∈ spreadHouse.nestedParts, n.site.key = key →
          t.containers = n.outer.map fun o =>
            (Site.partsUnder o.key spreadHouse.sites).map PartSite.part)
        ["Game+House+Room", "Game+House+Room+Shelf"] spreadHouse.scan ∧
      spreadHouse.scan.map (fun t => t.containers.map List.length) = [[3], [3, 2]] := by
  have hfollows : spreadHouse.follows .withoutPlus := by decide +kernel
  have hkeys : Site.markedKeys spreadHouse.sites =
      ["Game+House+Room", "Game+House+Room+Shelf"] := by decide +kernel
  refine ⟨hfollows, by decide +kernel, ?_, by decide +kernel⟩
  rw [← hkeys]
  apply (containers_of_every_part hfollows).2.imp
  intro key t h n hn hkey
  exact (h.2 n hn hkey).1

end SceneWiring
