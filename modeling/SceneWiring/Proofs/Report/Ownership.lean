import SceneWiring.Proofs.Report.Identity
import SceneWiring.Proofs.Report.Keys
import SceneWiring.Proofs.Report.Run
import SceneWiring.Proofs.Scan.Outline

/-!
# Members and the types that are reopened

The unit of a type reopens the type and fills members, which should be members of that very type.
So the part in which such a member stands directly should have the path and the names that the
unit shows, and as many type parameters.  If names are identifiers, path and names are those of
every part of the type.  Type parameters do not tell types apart, and the unit shows those of the
first part with any.  All parts have as many exactly if they agree in their number.

Main results:

- Definition `Compilation.ownedMembers`: members and the parts around them.
- Definition `CodeUnit.Fills`: the members that a unit fills.
- Definition `Compilation.filledMembers`: these members, as the candidates that give fragments.
- Theorem `HasHeaders.declares`: what the parts of a type have in common.
- Theorem `MarkedType.agreeInArity_iff`: when parts have as many type parameters as their type.
- Theorem `forall₂_fills_units`: a unit fills them.
- Theorem `exists_members_of_gathers`: they stand in parts of its type.
- Theorem `members_filled_in_own_type`: what these parts have in common with the unit.
- Theorem `pools_filled_together`: types that differ in their type parameters only.
-/

namespace SceneWiring

/-! ## Members and their parts -/

/-- A member at its place, with the innermost part of a type around it. -/
structure OwnedMember where
  owner : Option PartSite
  site : MemberSite

mutual

/-- The members in a declaration that stands in a part. -/
def Decl.owned (owner : Option PartSite) (p : Place) : Decl → List OwnedMember
  | .scope head members => Decl.ownedAll owner (p.enterScope head) members
  | .type part members => Decl.ownedAll (some ⟨p, part⟩) (p.enterType part) members
  | .member m => [⟨owner, ⟨p, m⟩⟩]
  | .directive _ => []
  | .unknown => []

/-- The members in declarations one after the other. -/
def Decl.ownedAll (owner : Option PartSite) (p : Place) : List Decl → List OwnedMember
  | [] => []
  | d :: ds => d.owned owner p ++ Decl.ownedAll owner p ds

end

/-- The members of a compilation and the parts around them, in source order. -/
def Compilation.ownedMembers (c : Compilation) : List OwnedMember :=
  c.files.flatMap fun f => Decl.ownedAll none (.top f) f.members

mutual

/-- These are the members of the declaration. -/
theorem Decl.map_site_owned : ∀ (d : Decl) (owner : Option PartSite) (p : Place),
    (d.owned owner p).map OwnedMember.site = Site.membersIn (d.sites p)
  | .scope head members, owner, p => Decl.map_site_ownedAll members owner (p.enterScope head)
  | .type part members, _, p => Decl.map_site_ownedAll members (some ⟨p, part⟩) (p.enterType part)
  | .member _, _, _ => rfl
  | .directive _, _, _ => rfl
  | .unknown, _, _ => rfl

/-- These are the members of the declarations. -/
theorem Decl.map_site_ownedAll : ∀ (ds : List Decl) (owner : Option PartSite) (p : Place),
    (Decl.ownedAll owner p ds).map OwnedMember.site = Site.membersIn (Decl.sitesAll p ds)
  | [], _, _ => rfl
  | d :: ds, owner, p => by
      rw [Decl.ownedAll, Decl.sitesAll, List.map_append, Site.membersIn_append,
        Decl.map_site_owned d owner p, Decl.map_site_ownedAll ds owner p]

end

/-- The innermost type around a place has the key of a part, which is one of the given sites. -/
structure Place.IsOwnedBy (sites : List Site) (p : Place) (owner : Option PartSite) : Prop where
  key : owner.map PartSite.key = p.ownerKey?
  mem : ∀ s, owner = some s → s ∈ Site.partsIn sites

namespace Place.IsOwnedBy

variable {sites : List Site} {p : Place} {owner : Option PartSite}

theorem top (f : SourceFile) : (Place.top f).IsOwnedBy sites none where
  key := rfl
  mem s hs := absurd hs (by simp)

theorem enterScope (h : p.IsOwnedBy sites owner) (head : ScopeHead) :
    (p.enterScope head).IsOwnedBy sites owner where
  key := h.key
  mem := h.mem

theorem enterType {part : TypePart} (hmem : ⟨p, part⟩ ∈ Site.partsIn sites) :
    (p.enterType part).IsOwnedBy sites (some ⟨p, part⟩) where
  key := by
    rw [Place.ownerKey?, Place.enterType, List.getLast?_concat]
    rfl
  mem s hs := by
    rw [Option.some.injEq] at hs
    rwa [← hs]

end Place.IsOwnedBy

mutual

/-- The members of a declaration stand in their parts. -/
theorem Decl.isOwnedBy_of_mem_owned {sites : List Site} :
    ∀ (d : Decl) {owner : Option PartSite} {p : Place}, p.IsOwnedBy sites owner →
      Site.partsIn (d.sites p) ⊆ Site.partsIn sites →
        ∀ o ∈ d.owned owner p, o.site.place.IsOwnedBy sites o.owner
  | .scope head members, _, _, h, hparts, o, ho =>
      Decl.isOwnedBy_of_mem_ownedAll members (h.enterScope head) hparts o ho
  | .type part members, _, p, _, hparts, o, ho => by
      rw [Decl.sites, Site.partsIn_cons_part, List.cons_subset] at hparts
      exact Decl.isOwnedBy_of_mem_ownedAll members (.enterType hparts.1) hparts.2 o ho
  | .member m, _, _, h, _, o, ho => by
      rw [Decl.owned, List.mem_singleton] at ho
      rw [ho]
      exact h
  | .directive _, _, _, _, _, o, ho => by simp [Decl.owned] at ho
  | .unknown, _, _, _, _, o, ho => by simp [Decl.owned] at ho

/-- The members of declarations stand in their parts. -/
theorem Decl.isOwnedBy_of_mem_ownedAll {sites : List Site} :
    ∀ (ds : List Decl) {owner : Option PartSite} {p : Place}, p.IsOwnedBy sites owner →
      Site.partsIn (Decl.sitesAll p ds) ⊆ Site.partsIn sites →
        ∀ o ∈ Decl.ownedAll owner p ds, o.site.place.IsOwnedBy sites o.owner
  | [], _, _, _, _, o, ho => by simp [Decl.ownedAll] at ho
  | d :: ds, _, _, h, hparts, o, ho => by
      rw [Decl.sitesAll, Site.partsIn_append, List.append_subset] at hparts
      rw [Decl.ownedAll, List.mem_append] at ho
      rcases ho with ho | ho
      · exact Decl.isOwnedBy_of_mem_owned d h hparts.1 o ho
      · exact Decl.isOwnedBy_of_mem_ownedAll ds h hparts.2 o ho

end

namespace Compilation

variable (c : Compilation)

/-- The members with their parts are all members. -/
theorem map_site_ownedMembers :
    c.ownedMembers.map OwnedMember.site = Site.membersIn c.sites := by
  rw [ownedMembers, List.map_flatMap, sites, Site.membersIn, List.filterMap_flatMap]
  congr 1
  funext f
  exact Decl.map_site_ownedAll f.members none (.top f)

/-- The members of a compilation stand in their parts. -/
theorem isOwnedBy_of_mem_ownedMembers :
    ∀ o ∈ c.ownedMembers, o.site.place.IsOwnedBy c.sites o.owner := by
  intro o ho
  rcases List.mem_flatMap.mp ho with ⟨f, hf, ho⟩
  apply Decl.isOwnedBy_of_mem_ownedAll f.members (.top f) _ o ho
  have hsites : (Decl.sitesAll (.top f) f.members) ⊆ c.sites :=
    fun s hs => List.mem_flatMap.mpr ⟨f, hf, hs⟩
  exact List.filterMap_subset _ hsites

/-- A member with the key of a type stands in a part of the type. -/
theorem exists_owner_of_isCandidateUnder {key : String} {o : OwnedMember}
    (ho : o ∈ c.ownedMembers) (hkey : o.site.isCandidateUnder key) :
    ∃ s, o.owner = some s ∧ s ∈ Site.partsUnder key c.sites := by
  have howned := c.isOwnedBy_of_mem_ownedMembers o ho
  rw [MemberSite.isCandidateUnder, Bool.and_eq_true, beq_iff_eq] at hkey
  have hsome : o.owner.map PartSite.key = some key := howned.key.trans hkey.2
  rcases Option.map_eq_some_iff.mp hsome with ⟨s, hs, hown⟩
  exact ⟨s, hs, Site.mem_partsUnder_iff.mpr ⟨howned.mem s hs, hown⟩⟩

end Compilation

/-! ## What parts show -/

/-- A part of a type has the path and the names that the code of the type shows. -/
structure PartSite.Declares (s : PartSite) (t : EnclosingType) : Prop where
  path : dottedPath s.place.namespaces = t.path
  around : s.place.around.map OuterType.name = t.containers.map Header.name
  name : Text.trim s.part.name = t.name

namespace MarkedType.HasHeaders

variable {c : Compilation} {t : MarkedType} {first s : PartSite}

/-- If names are identifiers, all parts of a type tell the same headers. -/
theorem of_key_eq (h : c.follows .identifiers) (hheaders : t.HasHeaders c first)
    (hfirst : first ∈ Site.partsIn c.sites) (hs : s ∈ Site.partsIn c.sites)
    (hkey : s.key = first.key) : t.HasHeaders c s := by
  have hfollows := Compilation.follows_of_mem_sites h _ (Site.mem_partsIn_iff.mp hfirst)
  have hfollows' := Compilation.follows_of_mem_sites h _ (Site.mem_partsIn_iff.mp hs)
  rcases PartSite.path_eq_of_key_eq hfollows hfollows' hkey with ⟨hpath, hkeys⟩
  rw [PartSite.map_key_around_inside, PartSite.map_key_around_inside] at hkeys
  exact {
    own := by rw [hheaders.own, hkey]
    outer := by rw [hheaders.outer, (List.append_inj' hkeys rfl).1]
    path := by rw [hheaders.path, hpath] }

/-- A part that tells the headers of a type declares the type. -/
theorem declares (h : c.follows .identifiers) (hheaders : t.HasHeaders c s)
    (hs : s ∈ Site.partsIn c.sites) : s.Declares t.enclosing := by
  have hnames := hheaders.names_eq Naming.excludesPlus_identifiers h hs
  rw [names, PartSite.around_inside, List.map_append, List.map_singleton] at hnames
  rcases List.append_inj' hnames (by simp) with ⟨houter, hown⟩
  rw [List.cons.injEq] at hown
  exact ⟨hheaders.path.symm, houter.symm, hown.1.symm⟩

end MarkedType.HasHeaders

/-! ## Type parameters -/

/-- The parts of a type have equally many type parameters. -/
def AgreeInArity (parts : List TypePart) : Prop :=
  ∀ part ∈ parts, ∀ part' ∈ parts, part.typeParameters.length = part'.typeParameters.length

instance (parts : List TypePart) : Decidable (AgreeInArity parts) :=
  inferInstanceAs (Decidable (∀ part ∈ parts, ∀ part' ∈ parts,
    part.typeParameters.length = part'.typeParameters.length))

/-- A type has as many type parameters as any part if the parts agree in their number. -/
theorem Header.length_mergedTypeParameters {parts : List TypePart} (h : AgreeInArity parts)
    {part : TypePart} (hpart : part ∈ parts) :
    (mergedTypeParameters parts).length = part.typeParameters.length := by
  rw [mergedTypeParameters]
  cases hfind : parts.find? fun part => !part.typeParameters.isEmpty with
  | none =>
      have hnone := List.find?_eq_none.mp hfind part hpart
      have hnil : part.typeParameters = [] := by simpa using hnone
      rw [hnil]
  | some first =>
      rw [List.length_map]
      exact h first (List.mem_of_find?_eq_some hfind) part hpart

/-- The number of type parameters of a type is that of all its parts exactly if these agree. -/
theorem MarkedType.agreeInArity_iff (t : MarkedType) :
    AgreeInArity t.parts ↔
      ∀ part ∈ t.parts, part.typeParameters.length = t.enclosing.header.typeParameters.length := by
  constructor
  · intro h part hpart
    exact (Header.length_mergedTypeParameters h hpart).symm
  · intro h part hpart part' hpart'
    rw [h part hpart, h part' hpart']

/-! ## The members of a unit -/

/-- A unit reopens a type, and its statements are the fragments of the given members. -/
def CodeUnit.Fills (options : Options) (model : SemanticModel) (t : EnclosingType)
    (members : List OwnedMember) (u : CodeUnit) : Prop :=
  ∃ fragments : List Fragment,
    List.Forall₂ (fun o f => o.site.candidate.outcome options model t.name = .fragment f)
      members fragments ∧
    u.fragmentCount = fragments.length ∧
    u.text = textOfLines (layOut 0 (unitSteps t u.hook fragments))

section

variable {options : Options} {model : SemanticModel}

/-- What a partial function finds, with the elements for which it finds something. -/
theorem forall₂_filter_filterMap {α β : Type} (f : α → Option β) (xs : List α) :
    List.Forall₂ (fun x y => f x = some y) (xs.filter fun x => (f x).isSome)
      (xs.filterMap f) := by
  induction xs with
  | nil => exact .nil
  | cons x xs ih =>
      cases hx : f x with
      | none =>
          rw [List.filter_cons_of_neg (by simp [hx]), List.filterMap_cons_none hx]
          exact ih
      | some y =>
          rw [List.filter_cons_of_pos (by simp [hx]), List.filterMap_cons_some hx]
          exact .cons hx ih

/-- Only a fragment is a fragment. -/
theorem Outcome.fragment?_eq_some_iff {outcome : Outcome} {f : Fragment} :
    outcome.fragment? = some f ↔ outcome = .fragment f := by
  cases outcome <;> simp [fragment?]

/-- The units of a report are those of the types, under keys of whatever kind. -/
theorem forall₂_unitTypes_units {c : Compilation} {report : Report}
    (h : (generate options model c).result = .ok report) :
    List.Forall₂ (fun t u => ∃ key, u = (t.unit options model).withKey key)
      (c.unitTypes options model) report.units := by
  rw [units_generate h, qualifyShared_eq_map, List.map_map, List.forall₂_map_right_iff,
    List.forall₂_same]
  intro t _
  exact (t.unit options model).exists_among_eq _

/-- The text of a unit under any key. -/
theorem text_withKey_unit (t : MarkedType) (key : String) :
    ((t.unit options model).withKey key).text =
      textOfLines (layOut 0 (unitSteps t.enclosing ((t.unit options model).withKey key).hook
        (t.fragments options model))) := by
  rw [MarkedType.unit, CodeUnit.assemble, CodeUnit.withKey]

/-- The members that give the fragments of the type with a key. -/
def Compilation.filledMembers (options : Options) (model : SemanticModel) (c : Compilation)
    (key typeName : String) : List OwnedMember :=
  (c.ownedMembers.filter fun o => o.site.isCandidateUnder key).filter fun o =>
    (o.site.candidate.outcome options model typeName).fragment?.isSome

/-- They give the fragments of the type one by one. -/
theorem forall₂_filledMembers_fragments {c : Compilation} {t : MarkedType} {key : String}
    {first : PartSite} {others : List PartSite} (h : t.Gathers c.sites key first others) :
    List.Forall₂
      (fun o f => o.site.candidate.outcome options model t.enclosing.name = .fragment f)
      (c.filledMembers options model key t.enclosing.name) (t.fragments options model) := by
  let find : OwnedMember → Option Fragment := fun o =>
    (o.site.candidate.outcome options model t.enclosing.name).fragment?
  let own := c.ownedMembers.filter fun o => o.site.isCandidateUnder key
  have hfragments : t.fragments options model = own.filterMap find := by
    rw [MarkedType.fragments, h.candidates_eq, Site.candidatesUnder, ← c.map_site_ownedMembers,
      List.filter_map, List.map_map, List.map_map, List.filterMap_map]
    rfl
  rw [hfragments]
  apply (forall₂_filter_filterMap find own).imp
  intro o f hfind
  exact Outcome.fragment?_eq_some_iff.mp hfind

/-- The unit of a type is filled from these members, under any key. -/
theorem fills_filledMembers {c : Compilation} {t : MarkedType} {key : String} {first : PartSite}
    {others : List PartSite} (h : t.Gathers c.sites key first others) (unitKey : String) :
    ((t.unit options model).withKey unitKey).Fills options model t.enclosing
      (c.filledMembers options model key t.enclosing.name) :=
  ⟨t.fragments options model, forall₂_filledMembers_fragments h, rfl, text_withKey_unit t unitKey⟩

/-- The unit of a type is filled from members of a compilation that stand in parts of the type. -/
theorem exists_members_of_gathers {c : Compilation} {t : MarkedType} {key : String}
    {first : PartSite} {others : List PartSite} (h : t.Gathers c.sites key first others)
    (unitKey : String) :
    ∃ members, members.Sublist c.ownedMembers ∧
      ((t.unit options model).withKey unitKey).Fills options model t.enclosing members ∧
      ∀ o ∈ members, ∃ s, o.owner = some s ∧ s ∈ Site.partsUnder key c.sites := by
  refine ⟨c.filledMembers options model key t.enclosing.name,
    List.filter_sublist.trans List.filter_sublist, fills_filledMembers h unitKey, ?_⟩
  intro o ho
  have hown := List.mem_filter.mp (List.mem_filter.mp ho).1
  exact c.exists_owner_of_isCandidateUnder hown.1 hown.2

/-- The types with units and their keys. -/
def Compilation.unitTypesByKey (options : Options) (model : SemanticModel) (c : Compilation) :
    List (String × MarkedType) :=
  c.typesByKey.filter fun o => o.2.hasUnit options model

theorem map_snd_unitTypesByKey (c : Compilation) :
    (c.unitTypesByKey options model).map Prod.snd = c.unitTypes options model := by
  rw [Compilation.unitTypesByKey, Compilation.unitTypes, ← c.map_snd_typesByKey, List.filter_map]
  rfl

/-- All units of a report are filled from the members that give their fragments. -/
theorem forall₂_fills_units {c : Compilation} {report : Report}
    (h : (generate options model c).result = .ok report) :
    List.Forall₂
      (fun o u => (∃ key, u = (o.2.unit options model).withKey key) ∧
        u.Fills options model o.2.enclosing
          (c.filledMembers options model o.1 o.2.enclosing.name))
      (c.unitTypesByKey options model) report.units := by
  have hunits := forall₂_unitTypes_units h
  rw [← map_snd_unitTypesByKey, List.forall₂_map_left_iff] at hunits
  have hmem : ∀ o ∈ c.unitTypesByKey options model, o ∈ c.typesByKey :=
    fun o ho => List.mem_of_mem_filter ho
  apply ((List.forall₂_and_left _ _).mpr ⟨hmem, hunits⟩).imp
  rintro o u ⟨ho, unitKey, rfl⟩
  rcases c.gathers_of_mem_typesByKey ho with ⟨first, others, hgathers⟩
  exact ⟨⟨unitKey, rfl⟩, fills_filledMembers hgathers unitKey⟩

end

/-- The unit of a type fills members that stand directly in parts of the type, and these have the
path of the namespaces, the names of the types around them and the name that the unit reopens.
They all have its number of type parameters exactly if they agree in that number. -/
theorem members_filled_in_own_type (options : Options) (model : SemanticModel) {c : Compilation}
    (h : c.follows .identifiers) :
    ∃ report, (generate options model c).result = .ok report ∧
      List.Forall₂
        (fun t u => ∃ members, members.Sublist c.ownedMembers ∧
          u.Fills options model t.enclosing members ∧
          (∀ o ∈ members, ∃ s, o.owner = some s ∧ s.part ∈ t.parts ∧
            s.Declares t.enclosing) ∧
          (AgreeInArity t.parts ↔ ∀ part ∈ t.parts,
            part.typeParameters.length = t.enclosing.header.typeParameters.length))
        (c.unitTypes options model) report.units := by
  refine ⟨_, result_generate options model c, ?_⟩
  have hscan : ∀ t ∈ c.unitTypes options model, t ∈ c.scan :=
    fun t ht => List.mem_of_mem_filter ht
  have hunits := (List.forall₂_and_left _ _).mpr
    ⟨hscan, forall₂_unitTypes_units (result_generate options model c)⟩
  apply hunits.imp
  rintro t u ⟨ht, unitKey, rfl⟩
  rcases exists_headers_of_mem_scan Naming.excludesPlus_identifiers h ht with
    ⟨key, first, others, hgathers, hheaders⟩
  rcases Site.mem_partsUnder_iff.mp hgathers.first_mem with ⟨hfirst, hfirstKey⟩
  rcases exists_members_of_gathers hgathers unitKey with ⟨members, hsublist, hfills, howners⟩
  refine ⟨members, hsublist, hfills, ?_, t.agreeInArity_iff⟩
  intro o ho
  rcases howners o ho with ⟨s, howner, hs⟩
  rcases Site.mem_partsUnder_iff.mp hs with ⟨hmem, hkey⟩
  have hpart : s.part ∈ t.parts := by
    rw [hgathers.parts_eq]
    exact List.mem_map_of_mem hs
  have hown : t.HasHeaders c s :=
    hheaders.of_key_eq h hfirst hmem (hkey.trans hfirstKey.symm)
  exact ⟨s, howner, hpart, hown.declares h hmem⟩

/-- A type with a type parameter, in two parts, and a type inside it, in a namespace. -/
def nestedPools : Compilation where
  files :=
    [⟨"Pool.cs",
      [.scope ⟨"Game", .unknown⟩
        [.type ⟨"Pool", ["partial"], ["T"], .unknown⟩
          [.member (.field ⟨"Door", ["door"], [], [⟨"Get", []⟩], .unknown⟩),
           .type ⟨"Slot", ["partial"], [], .unknown⟩
            [.member (.field ⟨"Light", ["light"], [], [⟨"Get", []⟩], .unknown⟩)]],
         .type ⟨"Pool", ["partial"], ["T"], .unknown⟩
          [.member (.field ⟨"Door", ["exit"], [], [⟨"Get", []⟩], .unknown⟩)]]]⟩]

/-- The units of a type and of one inside it fill the members of their own types. -/
theorem nestedPools_filled_in_own_type :
    nestedPools.follows .identifiers ∧
      ∃ report, (generate .default .ofDeclarations nestedPools).result = .ok report ∧
        List.Forall₂
          (fun t u => ∃ members, u.Fills .default .ofDeclarations t.enclosing members ∧
            ∀ o ∈ members, ∃ s, o.owner = some s ∧ s.Declares t.enclosing ∧
              s.part.typeParameters.length = t.enclosing.header.typeParameters.length)
          (nestedPools.unitTypes .default .ofDeclarations) report.units ∧
        (nestedPools.unitTypes .default .ofDeclarations).map MarkedType.names =
          [["Pool"], ["Pool", "Slot"]] := by
  have hfollows : nestedPools.follows .identifiers := by decide +kernel
  have hagree : ∀ t ∈ nestedPools.unitTypes .default .ofDeclarations, AgreeInArity t.parts := by
    decide +kernel
  rcases members_filled_in_own_type .default .ofDeclarations hfollows with
    ⟨report, hreport, hunits⟩
  refine ⟨hfollows, report, hreport, ?_, by decide +kernel⟩
  apply ((List.forall₂_and_left _ _).mpr ⟨hagree, hunits⟩).imp
  rintro t u ⟨hparts, members, -, hfills, howners, harity⟩
  refine ⟨members, hfills, ?_⟩
  intro o ho
  rcases howners o ho with ⟨s, howner, hpart, hdeclares⟩
  exact ⟨s, howner, hdeclares, harity.mp hparts s.part hpart⟩

/-- A type and another one of the same name with a type parameter, each with a candidate. -/
def pools : Compilation where
  files :=
    [⟨"Pool.cs",
      [.type ⟨"Pool", ["partial"], [], .unknown⟩
        [.member (.field ⟨"Door", ["door"], [], [⟨"Get", []⟩], .unknown⟩)],
       .type ⟨"Pool", ["partial"], ["T"], .unknown⟩
        [.member (.field ⟨"Light", ["light"], [], [⟨"Get", []⟩], .unknown⟩)]]⟩]

/-- What the scan makes of them. -/
def pooledType : MarkedType where
  first := ⟨"Pool", ["partial"], [], .unknown⟩
  others := [⟨"Pool", ["partial"], ["T"], .unknown⟩]
  containers := []
  namespaces := []
  file := "Pool.cs"
  usings := []
  candidates :=
    [⟨.field ⟨"Door", ["door"], [], [⟨"Get", []⟩], .unknown⟩, "Pool.cs"⟩,
     ⟨.field ⟨"Light", ["light"], [], [⟨"Get", []⟩], .unknown⟩, "Pool.cs"⟩]

/-- Types that differ in their type parameters only have one unit.  It reopens the type with the
type parameter, but the first member that it fills stands in the type without one. -/
theorem pools_filled_together :
    pools.follows .identifiers ∧
      ∃ report, (generate .default .ofDeclarations pools).result = .ok report ∧
        pools.unitTypes .default .ofDeclarations = [pooledType] ∧
        ∃ u, report.units = [u] ∧
          u.Fills .default .ofDeclarations pooledType.enclosing pools.ownedMembers ∧
          pooledType.enclosing.header.typeParameters.length = 1 ∧
          pools.ownedMembers.map (fun o => o.owner.map fun s => s.part.typeParameters.length) =
            [some 0, some 1] := by
  have htypes : pools.unitTypes .default .ofDeclarations = [pooledType] := by decide +kernel
  have houtcomes : (pools.ownedMembers.map fun o =>
      o.site.candidate.outcome .default .ofDeclarations pooledType.enclosing.name) =
        (pooledType.fragments .default .ofDeclarations).map Outcome.fragment := by
    decide +kernel
  refine ⟨by decide +kernel, _, result_generate _ _ _, htypes,
    pooledType.unit .default .ofDeclarations, ?_, ⟨_, ?_, rfl, rfl⟩, by decide +kernel,
    by decide +kernel⟩
  · rw [units_generate (result_generate _ _ _), htypes, List.map_singleton,
      qualifyShared_singleton]
  · exact map_eq_map_iff_forall₂.mp houtcomes

end SceneWiring
