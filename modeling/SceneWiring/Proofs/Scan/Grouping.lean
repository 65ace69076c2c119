import Mathlib.Data.List.Forall2
import SceneWiring.Proofs.Scan.Gathering

/-!
# Scanning groups sites by their keys

The scanner lists one type for every key with candidates, in the order of the first parts.
Each holds the parts and the candidates of its key in source order, and takes its place
and its file from its first part.  So a marked member inside some type is a candidate once,
of the innermost type around it, and a member outside all types is none.

Main results:

- Theorem `forall₂_scan`: the scanned types are made of the entries with candidates.
- Theorem `forall₂_gathers_scan`: what each scanned type holds.
- Theorem `perm_flatMap_filter`: sorting by keys loses and doubles nothing.
- Theorem `scan_groups_sites`: scanning is grouping.
-/

namespace SceneWiring

/-! ## Lists with the same values -/

/-- Two functions have the same values along two lists exactly if they do so at every position. -/
theorem map_eq_map_iff_forall₂ {α β γ : Type} {f : α → γ} {g : β → γ} {xs : List α}
    {ys : List β} : xs.map f = ys.map g ↔ List.Forall₂ (fun x y => f x = g y) xs ys := by
  rw [← List.forall₂_eq_eq_eq, List.forall₂_map_left_iff, List.forall₂_map_right_iff]

/-! ## From entries to scanned types -/

/-- The entries of the walk over a compilation. -/
def Compilation.entries (c : Compilation) : List Entry :=
  (Scan.visitor.run c {}).entries

/-- The entries of a compilation gather its sites. -/
theorem gathered_entries (c : Compilation) : Gathered c.sites c.entries :=
  gathered_run c

/-- The keys of the entries of a compilation are those of its parts. -/
theorem entryKeys_entries (c : Compilation) : entryKeys c.entries = Site.keysIn c.sites :=
  (gathered_entries c).keys

/-- No two entries of a compilation have the same key. -/
theorem nodup_entryKeys (c : Compilation) : (entryKeys c.entries).Nodup := by
  rw [entryKeys_entries]
  exact Site.nodup_keysIn c.sites

/-- The type that the entry with a key is listed as. -/
def IsListedAs (c : Compilation) (key : String) (t : MarkedType) : Prop :=
  ∃ e ∈ c.entries, e.key = key ∧
    t = e.toMarked (containerChain c.entries ((entryKeys c.entries).idxOf key))

/-- Every key has a type, with or without candidates. -/
theorem forall₂_mapIdx_entries (c : Compilation) :
    List.Forall₂ (IsListedAs c) (entryKeys c.entries)
      (c.entries.mapIdx fun i e => e.toMarked (containerChain c.entries i)) := by
  rw [List.forall₂_iff_get]
  refine ⟨by simp [entryKeys], ?_⟩
  intro i hi hj
  have hentry : i < c.entries.length := by simpa [entryKeys] using hi
  have hkey : (entryKeys c.entries)[i] = c.entries[i].key := by simp [entryKeys]
  have hindex : (entryKeys c.entries).idxOf (entryKeys c.entries)[i] = i :=
    (nodup_entryKeys c).idxOf_getElem i hi
  refine ⟨c.entries[i], List.getElem_mem hentry, by simp [entryKeys], ?_⟩
  simp only [List.get_eq_getElem, List.getElem_mapIdx]
  rw [hindex]

/-- A listed type has the candidates of its key. -/
theorem IsListedAs.candidates_eq {c : Compilation} {key : String} {t : MarkedType}
    (h : IsListedAs c key t) : t.candidates = Site.candidatesUnder key c.sites := by
  rcases h with ⟨e, he, rfl, rfl⟩
  rcases (gathered_entries c).entry e he with ⟨first, others, hgathers⟩
  exact hgathers.candidates_eq

/-- The scanned types are the entries with candidates. -/
theorem forall₂_scan (c : Compilation) :
    List.Forall₂ (IsListedAs c) (Site.markedKeys c.sites) c.scan := by
  have hkeep : ∀ key t, IsListedAs c key t →
      ((!(Site.candidatesUnder key c.sites).isEmpty) = true ↔
        (!t.candidates.isEmpty) = true) := by
    intro key t h
    rw [h.candidates_eq]
  have hall := forall₂_mapIdx_entries c
  rw [entryKeys_entries] at hall
  exact List.rel_filter (fun key t h => hkeep key t h) hall

/-! ## What scanned types hold -/

/-- What a scanned type holds of sites whose parts under its key are the given ones. -/
structure MarkedType.Gathers (sites : List Site) (key : String) (first : PartSite)
    (others : List PartSite) (t : MarkedType) : Prop where
  parts : Site.partsUnder key sites = first :: others
  parts_eq : t.parts = (Site.partsUnder key sites).map PartSite.part
  first_eq : t.first = first.part
  namespaces_eq : t.namespaces = first.place.namespaces
  file_eq : t.file = first.file.path
  usings_eq : t.usings =
    (freshFiles [] ((Site.partsUnder key sites).map PartSite.file)).flatMap SourceFile.usings
  candidates_eq : t.candidates = Site.candidatesUnder key sites

theorem MarkedType.Gathers.head?_partsUnder {sites : List Site} {key : String} {first : PartSite}
    {others : List PartSite} {t : MarkedType} (h : t.Gathers sites key first others) :
    (Site.partsUnder key sites).head? = some first := by
  rw [h.parts, List.head?_cons]

theorem MarkedType.Gathers.first_mem {sites : List Site} {key : String} {first : PartSite}
    {others : List PartSite} {t : MarkedType} (h : t.Gathers sites key first others) :
    first ∈ Site.partsUnder key sites :=
  List.mem_of_head? h.head?_partsUnder

/-- A listed type holds what the sites of the compilation have under its key. -/
theorem IsListedAs.gathers {c : Compilation} {key : String} {t : MarkedType}
    (h : IsListedAs c key t) : ∃ first others, t.Gathers c.sites key first others := by
  have hcandidates := h.candidates_eq
  rcases h with ⟨e, he, rfl, rfl⟩
  rcases (gathered_entries c).entry e he with ⟨first, others, hgathers⟩
  refine ⟨first, others, ?_⟩
  exact {
    parts := hgathers.parts
    parts_eq := by
      rw [hgathers.parts, List.map_cons, ← hgathers.first_eq, ← hgathers.others_eq]
      rfl
    first_eq := hgathers.first_eq
    namespaces_eq := hgathers.namespaces_eq
    file_eq := hgathers.file_eq
    usings_eq := by
      rw [hgathers.parts, ← hgathers.usings_eq]
      rfl
    candidates_eq := hcandidates }

/-- Each scanned type holds what the sites of the compilation have under its key. -/
theorem forall₂_gathers_scan (c : Compilation) :
    List.Forall₂ (fun key t => ∃ first others, t.Gathers c.sites key first others)
      (Site.markedKeys c.sites) c.scan :=
  (forall₂_scan c).imp fun _ _ h => h.gathers

/-! ## Sorting by keys -/

/-- The elements with one of two properties that exclude each other. -/
theorem perm_filter_append_filter {α : Type} (p q : α → Bool) (xs : List α)
    (h : ∀ x ∈ xs, q x → p x = false) :
    (xs.filter p ++ xs.filter q).Perm (xs.filter fun x => p x || q x) := by
  have hleft : (xs.filter fun x => p x || q x).filter p = xs.filter p := by
    rw [List.filter_filter]
    apply List.filter_congr
    intro x hx
    cases p x <;> simp
  have hright : (xs.filter fun x => p x || q x).filter (fun x => !p x) = xs.filter q := by
    rw [List.filter_filter]
    apply List.filter_congr
    intro x hx
    cases hq : q x with
    | false => cases p x <;> simp
    | true => simp [h x hx hq]
  rw [← hleft, ← hright]
  exact List.filter_append_perm p _

/-- Sorting by distinct keys lists every element with one of the keys once. -/
theorem perm_flatMap_filter {α κ : Type} [DecidableEq κ] (key? : α → Option κ) (xs : List α)
    {keys : List κ} (hnodup : keys.Nodup) :
    (keys.flatMap fun k => xs.filter fun x => key? x == some k).Perm
      (xs.filter fun x => (key? x).any keys.contains) := by
  induction keys with
  | nil =>
      have hnone : ∀ x ∈ xs, ¬ ((key? x).any ([] : List κ).contains) := by
        intro x _
        cases key? x <;> simp
      rw [List.filter_eq_nil_iff.mpr hnone]
      exact List.Perm.nil
  | cons k keys ih =>
      rw [List.nodup_cons] at hnodup
      have hdisjoint : ∀ x ∈ xs, (key? x).any keys.contains → (key? x == some k) = false := by
        intro x hx hany
        cases hkey : key? x with
        | none => rfl
        | some k' =>
            rw [hkey] at hany
            have hmem : k' ∈ keys := by simpa using hany
            have hne : k' ≠ k := fun hsame => hnodup.1 (hsame ▸ hmem)
            simpa using hne
      have hcons : (xs.filter fun x => (key? x).any (k :: keys).contains) =
          xs.filter fun x => (key? x == some k) || (key? x).any keys.contains := by
        apply List.filter_congr
        intro x hx
        cases key? x with
        | none => rfl
        | some k' => by_cases hk : k' = k <;> simp [hk]
      rw [List.flatMap_cons, hcons]
      exact ((ih hnodup.2).append_left _).trans
        (perm_filter_append_filter _ _ xs hdisjoint)

/-! ## Every member once -/

/-- Whether a member carries a strategy and stands inside some type. -/
def MemberSite.isCandidate (s : MemberSite) : Bool :=
  s.member.isMarked && s.ownerKey?.isSome

/-- The types around a site are listed. -/
theorem Site.Grounded.key_mem_keysIn {sites : List Site} (h : Site.Grounded sites) :
    ∀ site ∈ sites, ∀ t ∈ site.place.around, t.key ∈ Site.keysIn sites := by
  induction h with
  | nil => simp
  | concat before known ih =>
      intro site hsite t ht
      apply Site.keysIn_subset_append
      rcases List.mem_append.mp hsite with hsite | hsite
      · exact ih site hsite t ht
      · rw [List.mem_singleton.mp hsite] at ht
        exact known t ht

/-- The key of the innermost type around a member is listed. -/
theorem Site.Grounded.ownerKey_mem_keysIn {sites : List Site} (h : Site.Grounded sites)
    {s : MemberSite} (hs : s ∈ Site.membersIn sites) {key : String}
    (hkey : s.ownerKey? = some key) : key ∈ Site.keysIn sites := by
  rcases Option.map_eq_some_iff.mp hkey with ⟨t, ht, rfl⟩
  exact h.key_mem_keysIn _ (Site.mem_membersIn_iff.mp hs) t (List.mem_of_getLast? ht)

/-- The candidates under all keys are the marked members inside types. -/
theorem perm_flatMap_candidatesUnder {sites : List Site} (h : Site.Grounded sites) :
    ((Site.keysIn sites).flatMap fun key => Site.candidatesUnder key sites).Perm
      (((Site.membersIn sites).filter MemberSite.isCandidate).map MemberSite.candidate) := by
  have hunder : ∀ key, Site.candidatesUnder key sites =
      (((Site.membersIn sites).filter fun s => s.member.isMarked).filter fun s =>
        s.ownerKey? == some key).map MemberSite.candidate := by
    intro key
    rw [List.filter_filter, Site.candidatesUnder]
    congr 1
    apply List.filter_congr
    intro s hs
    exact Bool.and_comm _ _
  have hinside : (((Site.membersIn sites).filter fun s => s.member.isMarked).filter fun s =>
      s.ownerKey?.any (Site.keysIn sites).contains) =
        (Site.membersIn sites).filter MemberSite.isCandidate := by
    rw [List.filter_filter]
    apply List.filter_congr
    intro s hs
    cases hkey : s.ownerKey? with
    | none => simp [MemberSite.isCandidate, hkey]
    | some key => simp [MemberSite.isCandidate, hkey, h.ownerKey_mem_keysIn hs hkey]
  simp only [hunder]
  rw [← List.map_flatMap, ← hinside]
  exact (perm_flatMap_filter MemberSite.ownerKey? _ (Site.nodup_keysIn sites)).map _

/-- Leaving out the keys without candidates leaves out no candidate. -/
theorem flatMap_markedKeys (sites : List Site) :
    ((Site.markedKeys sites).flatMap fun key => Site.candidatesUnder key sites) =
      (Site.keysIn sites).flatMap fun key => Site.candidatesUnder key sites := by
  have hfilter : ∀ keys : List String,
      ((keys.filter fun key => !(Site.candidatesUnder key sites).isEmpty).flatMap fun key =>
        Site.candidatesUnder key sites) =
          keys.flatMap fun key => Site.candidatesUnder key sites := by
    intro keys
    induction keys with
    | nil => rfl
    | cons key keys ih =>
        by_cases hempty : Site.candidatesUnder key sites = []
        · simpa [hempty] using ih
        · simpa [hempty] using ih
  exact hfilter _

/-- The candidates of types listed as keys are those under the keys. -/
theorem flatMap_candidates_eq {c : Compilation} {keys : List String} {ts : List MarkedType}
    (h : List.Forall₂ (IsListedAs c) keys ts) :
    ts.flatMap MarkedType.candidates =
      keys.flatMap fun key => Site.candidatesUnder key c.sites := by
  induction h with
  | nil => rfl
  | cons hhead _ ih => rw [List.flatMap_cons, List.flatMap_cons, hhead.candidates_eq, ih]

/-- The candidates of all scanned types are those under all keys. -/
theorem flatMap_candidates_scan (c : Compilation) :
    c.scan.flatMap MarkedType.candidates =
      (Site.keysIn c.sites).flatMap fun key => Site.candidatesUnder key c.sites := by
  rw [flatMap_candidates_eq (forall₂_scan c), flatMap_markedKeys]

/-! ## Scanning is grouping -/

/-- Scanning groups the sites of a compilation by their keys.  The types stand in the order
of their first parts, one for each key with candidates, with the parts and the candidates
of the key in source order and the place of the first part.  Every marked member inside a
type is a candidate once, and a type has another key than the types around it. -/
theorem scan_groups_sites (c : Compilation) :
    List.Forall₂
        (fun key t =>
          t.parts = (Site.partsUnder key c.sites).map PartSite.part ∧
          (∃ first, (Site.partsUnder key c.sites).head? = some first ∧
            t.first = first.part ∧ t.file = first.file.path ∧
            t.namespaces = first.place.namespaces) ∧
          t.candidates = Site.candidatesUnder key c.sites)
        (Site.markedKeys c.sites) c.scan ∧
      (Site.markedKeys c.sites).Nodup ∧
      (c.scan.flatMap MarkedType.candidates).Perm
        (((Site.membersIn c.sites).filter MemberSite.isCandidate).map
          MemberSite.candidate) ∧
      ∀ s ∈ Site.membersIn c.sites, ∀ outer owner, s.place.around = outer ++ [owner] →
        ∀ t ∈ outer, t.key ≠ owner.key := by
  refine ⟨?_, (Site.nodup_keysIn _).filter _, ?_, ?_⟩
  · apply (forall₂_gathers_scan c).imp
    rintro key t ⟨first, others, h⟩
    refine ⟨h.parts_eq, ⟨first, ?_, h.first_eq, h.file_eq, h.namespaces_eq⟩, h.candidates_eq⟩
    rw [h.parts, List.head?_cons]
  · rw [flatMap_candidates_scan]
    exact perm_flatMap_candidatesUnder c.grounded_sites
  · intro s hs outer owner haround t ht hsame
    have hgrow : s.place.around.Pairwise fun outer inner =>
        outer.key.length < inner.key.length :=
      c.pairwise_length_key_around _ (Site.mem_membersIn_iff.mp hs)
    rw [haround, List.pairwise_append] at hgrow
    have hlt := hgrow.2.2 t ht owner (List.mem_singleton_self owner)
    rw [hsame] at hlt
    exact Nat.lt_irrefl _ hlt

end SceneWiring
