import SceneWiring.Proofs.Scan.Containers
import SceneWiring.Report

/-!
# Headers under keys

If no name has a plus sign and no namespace stands inside a type, all parts of a type stand
in types of the same keys.  The headers that a scanned type tells are then those of the types
around any of its parts, each joined from all parts under its key, and of the type itself.

Main results:

- Definition `Compilation.headerUnder`: the header of the type with a key.
- Theorem `PartSite.keys_eq_of_key_eq`: parts of a type stand in the same types.
- Theorem `forall₂_headers_scan`: the headers of the scanned types.
- Theorem `HasHeaders.enclosing_eq`: what two scans tell about a type.
-/

namespace SceneWiring

/-! ## Places inside parts -/

namespace PartSite

/-- The place inside a part of a type. -/
def inside (s : PartSite) : Place :=
  s.place.enterType s.part

theorem around_inside (s : PartSite) :
    s.inside.around = s.place.around ++ [⟨s.key, Text.trim s.part.name⟩] :=
  rfl

/-- The keys of the types around a part, and its own. -/
theorem map_key_around_inside (s : PartSite) :
    s.inside.around.map OuterType.key = s.place.around.map OuterType.key ++ [s.key] := by
  rw [around_inside, List.map_append, List.map_singleton]

/-- Parts of a type have the same name and stand in the same namespaces and in types of the
same keys. -/
theorem keys_eq_of_key_eq {n : Naming} (hn : n.ExcludesPlus) {s s' : PartSite}
    (hs : s.place.Follows n ∧ n.type (Text.trim s.part.name))
    (hs' : s'.place.Follows n ∧ n.type (Text.trim s'.part.name)) (hkey : s'.key = s.key) :
    Text.trim s'.part.name = Text.trim s.part.name ∧
      ".".intercalate s'.place.namespaces = ".".intercalate s.place.namespaces ∧
      s'.inside.around.map OuterType.key = s.inside.around.map OuterType.key := by
  have hinside : s.inside.Follows n := hs.1.enterType hs.2
  have hinside' : s'.inside.Follows n := hs'.1.enterType hs'.2
  have haround : s.inside.around = s.place.around ++ ⟨s.key, Text.trim s.part.name⟩ :: [] := rfl
  rcases hinside.of_keyOf_eq hn hs'.1 haround hs'.2 hkey with ⟨hname, hkeys⟩
  have hjoined : ".".intercalate s'.inside.namespaces = ".".intercalate s.inside.namespaces := by
    have hnames : ∀ s : PartSite, s.key =
        typeKey s.inside.namespaces (s.inside.around.map OuterType.name) := by
      intro s
      rw [around_inside, List.map_append]
      rfl
    rw [hnames s', hnames s] at hkey
    exact ((typeKey_eq_iff (fun m hm => hn.scope m (hinside'.namespaces m hm))
      (fun m hm => hn.scope m (hinside.namespaces m hm))
      (hinside'.not_plus_mem_names hn) (hinside.not_plus_mem_names hn)).mp hkey).1
  refine ⟨hname, hjoined, ?_⟩
  rw [map_key_around_inside, map_key_around_inside, hkeys, hkey]

end PartSite

/-- The types around a part and its own type are listed. -/
theorem Site.Grounded.key_mem_keysIn_of_mem_inside {sites : List Site} (h : Site.Grounded sites)
    {s : PartSite} (hs : s ∈ Site.partsIn sites) {o : OuterType} (ho : o ∈ s.inside.around) :
    o.key ∈ Site.keysIn sites := by
  rw [PartSite.around_inside, List.mem_append, List.mem_singleton] at ho
  rcases ho with ho | rfl
  · exact h.key_mem_keysIn _ (Site.mem_partsIn_iff.mp hs) o ho
  · exact Site.mem_keysIn_iff.mpr ⟨s, hs, rfl⟩

/-! ## Headers -/

namespace Compilation

variable {c : Compilation} {n : Naming}

/-- The header of the type with a key. -/
def headerUnder (c : Compilation) (key : String) : Header :=
  .ofParts ((Site.partsUnder key c.sites).map PartSite.part)

/-- Around a place with allowed names, the header of a type has the name of the type. -/
theorem name_headerUnder (hn : n.ExcludesPlus) (h : c.follows n) {p : Place} (hp : p.Follows n)
    {o : OuterType} (ho : o ∈ p.around) (hlisted : o.key ∈ Site.keysIn c.sites) :
    (c.headerUnder o.key).name = o.name := by
  rcases List.append_of_mem ho with ⟨outer, inner, haround⟩
  rcases Site.exists_mem_partsUnder hlisted with ⟨s, hmem⟩
  rcases List.exists_cons_of_ne_nil (List.ne_nil_of_mem hmem) with ⟨s', others, hparts⟩
  have hs : s' ∈ Site.partsUnder o.key c.sites := by
    rw [hparts]
    exact List.mem_cons_self
  rcases Compilation.follows_of_mem_partsUnder h hs with ⟨hfollows, hname⟩
  rw [headerUnder, hparts]
  exact (hp.of_keyOf_eq hn hfollows haround hname (Site.mem_partsUnder_iff.mp hs).2).1

end Compilation

/-! ## Lists that go with each other -/

section

variable {α β γ : Type} {R : α → β → Prop} {S : α → γ → Prop} {xs : List α} {ys : List β}
  {zs : List γ}

/-- Everything in the second list goes with something in the first. -/
theorem exists_of_mem_forall₂ (h : List.Forall₂ R xs ys) {y : β} (hy : y ∈ ys) :
    ∃ x ∈ xs, R x y := by
  induction h with
  | nil => exact absurd hy List.not_mem_nil
  | @cons x y' xs ys hhead hrest ih =>
      rcases List.mem_cons.mp hy with rfl | hy
      · exact ⟨x, List.mem_cons_self, hhead⟩
      · rcases ih hy with ⟨x', hx', hR⟩
        exact ⟨x', List.mem_cons_of_mem _ hx', hR⟩

/-- Two lists that go with a third one go with each other. -/
theorem forall₂_of_common (hys : List.Forall₂ R xs ys) (hzs : List.Forall₂ S xs zs) :
    List.Forall₂ (fun y z => ∃ x, R x y ∧ S x z) ys zs := by
  induction hys generalizing zs with
  | nil =>
      cases hzs
      exact .nil
  | @cons x y xs ys hy hrest ih =>
      cases hzs with
      | cons hz hrest' => exact .cons ⟨x, hy, hz⟩ (ih hrest')

end

/-! ## Scanned types -/

/-- What a scan tells about the headers of a type whose first part is the given one. -/
structure MarkedType.HasHeaders (c : Compilation) (first : PartSite) (t : MarkedType) : Prop where
  own : t.enclosing.header = c.headerUnder first.key
  outer : t.enclosing.containers =
    (first.place.around.map OuterType.key).map c.headerUnder
  path : t.enclosing.path = dottedPath first.place.namespaces

/-- A scanned type has the headers of the types around its first part and of its own key. -/
theorem forall₂_headers_scan {n : Naming} (hn : n.ExcludesPlus) {c : Compilation}
    (h : c.follows n) :
    List.Forall₂
      (fun key t => ∃ first others, t.Gathers c.sites key first others ∧ t.HasHeaders c first)
      (Site.markedKeys c.sites) c.scan := by
  apply (forall₂_containers_scan hn h).imp
  rintro key t ⟨first, others, hgathers, hcontainers⟩
  refine ⟨first, others, hgathers, ?_⟩
  have hkey : first.key = key := (Site.mem_partsUnder_iff.mp hgathers.first_mem).2
  exact {
    own := by
      rw [hkey, Compilation.headerUnder, ← hgathers.parts_eq]
      rfl
    outer := by
      rw [MarkedType.enclosing, EnclosingType.ofParts, hcontainers]
      simp only [List.map_map]
      rfl
    path := by
      rw [← hgathers.namespaces_eq]
      rfl }

/-- Every scanned type has such headers. -/
theorem exists_headers_of_mem_scan {n : Naming} (hn : n.ExcludesPlus) {c : Compilation}
    (h : c.follows n) {t : MarkedType} (ht : t ∈ c.scan) :
    ∃ key first others, t.Gathers c.sites key first others ∧ t.HasHeaders c first := by
  rcases exists_of_mem_forall₂ (forall₂_headers_scan hn h) ht with ⟨key, -, hkey⟩
  exact ⟨key, hkey⟩

/-- The headers of the types around a scanned type and its own are those under the keys of the
types around its first part and under its own. -/
theorem MarkedType.HasHeaders.headers_eq {c : Compilation} {first : PartSite} {t : MarkedType}
    (h : t.HasHeaders c first) :
    t.enclosing.containers ++ [t.enclosing.header] =
      first.inside.around.map fun o => c.headerUnder o.key := by
  rw [h.outer, h.own, PartSite.around_inside, List.map_append, List.map_singleton, List.map_map]
  rfl

/-- Two scans tell the same about a type, but for its using directives, if the headers under
all keys are the same. -/
theorem MarkedType.HasHeaders.enclosing_eq {c c' : Compilation} {first first' : PartSite}
    {t t' : MarkedType} (h : t.HasHeaders c first) (h' : t'.HasHeaders c' first')
    (hkeys : first'.inside.around.map OuterType.key = first.inside.around.map OuterType.key)
    (hpath : dottedPath first'.place.namespaces = dottedPath first.place.namespaces)
    (hheaders : ∀ o ∈ first.inside.around, c'.headerUnder o.key = c.headerUnder o.key) :
    t'.enclosing = { t.enclosing with usings := t'.enclosing.usings } := by
  rw [PartSite.map_key_around_inside, PartSite.map_key_around_inside] at hkeys
  rcases List.append_inj' hkeys rfl with ⟨houter, hown⟩
  rw [List.cons.injEq] at hown
  have hcontainers : t'.enclosing.containers = t.enclosing.containers := by
    rw [h.outer, h'.outer, houter, List.map_map, List.map_map]
    apply List.map_congr_left
    intro o ho
    exact hheaders o (List.mem_append_left _ ho)
  have hheader : t'.enclosing.header = t.enclosing.header := by
    rw [h.own, h'.own, hown.1]
    exact hheaders ⟨first.key, _⟩ (List.mem_append_right _ (List.mem_singleton_self _))
  have hpaths : t'.enclosing.path = t.enclosing.path := by rw [h.path, h'.path, hpath]
  calc
    t'.enclosing = ⟨t'.enclosing.header, t'.enclosing.containers, t'.enclosing.path,
        t'.enclosing.usings⟩ := rfl
    _ = { t.enclosing with usings := t'.enclosing.usings } := by
      rw [hcontainers, hheader, hpaths]

namespace MarkedType

variable {t t' : MarkedType}

/-- The using directives of a type are not in its name. -/
theorem name_eq_of_enclosing_eq
    (h : t'.enclosing = { t.enclosing with usings := t'.enclosing.usings }) :
    t'.enclosing.name = t.enclosing.name := by
  rw [h]
  rfl

/-- A type is not rejected for its using directives. -/
theorem isRejected_eq_of_enclosing_eq
    (h : t'.enclosing = { t.enclosing with usings := t'.enclosing.usings }) (options : Options) :
    t'.isRejected options = t.isRejected options := by
  rw [isRejected, isRejected, h]
  rfl

end MarkedType

end SceneWiring
