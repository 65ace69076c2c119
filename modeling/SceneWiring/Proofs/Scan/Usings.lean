import SceneWiring.Proofs.Scan.Grouping

/-!
# The using directives of a type

A scanned type has the using directives of the files with parts of it, but of files that
share a path only the first counts.  So it has those of all its files exactly if a file
whose path came before has none.

Main results:

- Definition `Compilation.filesUnder`: the files with parts of a type.
- Theorem `flatMap_usings_freshFiles_eq_iff`: when equal paths do no harm.
- Theorem `scan_merges_usings`: the using directives of the scanned types.
-/

namespace SceneWiring

/-! ## Files with parts -/

/-- Whether a file has a part of the type with a key. -/
def SourceFile.hasPartUnder (key : String) (f : SourceFile) : Bool :=
  !(Site.partsUnder key f.sites).isEmpty

/-- The files with parts of the type with a key. -/
def Compilation.filesUnder (c : Compilation) (key : String) : List SourceFile :=
  c.files.filter (SourceFile.hasPartUnder key)

/-- The parts in a file stand in that file. -/
theorem SourceFile.file_of_mem_partsUnder {f : SourceFile} {key : String} {s : PartSite}
    (h : s ∈ Site.partsUnder key f.sites) : s.file = f := by
  rcases Site.mem_partsUnder_iff.mp h with ⟨hs, -⟩
  exact SourceFile.file_of_mem_sites (Site.mem_partsIn_iff.mp hs)

/-! ## Fresh files -/

/-- Files whose paths have been seen are passed over. -/
theorem freshFiles_append_of_seen {seen : List String} {files : List SourceFile}
    (h : ∀ f ∈ files, f.path ∈ seen) (rest : List SourceFile) :
    freshFiles seen (files ++ rest) = freshFiles seen rest := by
  induction files with
  | nil => rfl
  | cons f files ih =>
      rw [List.forall_mem_cons] at h
      rw [List.cons_append, freshFiles, if_pos h.1]
      exact ih h.2

/-- A file that is met several times in a row is met once. -/
theorem freshFiles_cons_append {seen : List String} {f : SourceFile} {again : List SourceFile}
    (h : ∀ g ∈ again, g = f) (rest : List SourceFile) :
    freshFiles seen (f :: again ++ rest) = freshFiles seen (f :: rest) := by
  rw [List.cons_append]
  by_cases hf : f.path ∈ seen
  · have hseen : ∀ g ∈ again, g.path ∈ seen := fun g hg => (h g hg) ▸ hf
    rw [freshFiles, freshFiles, if_pos hf, if_pos hf, freshFiles_append_of_seen hseen]
  · have hseen : ∀ g ∈ again, g.path ∈ f.path :: seen :=
      fun g hg => (h g hg) ▸ List.mem_cons_self
    rw [freshFiles, freshFiles, if_neg hf, if_neg hf, freshFiles_append_of_seen hseen]

/-- The fresh files among those of the parts are the fresh ones among the files with
parts, however many parts a file has. -/
theorem freshFiles_partsUnder (key : String) (seen : List String) (files : List SourceFile) :
    freshFiles seen ((Site.partsUnder key (files.flatMap SourceFile.sites)).map PartSite.file) =
      freshFiles seen (files.filter (SourceFile.hasPartUnder key)) := by
  induction files generalizing seen with
  | nil => rfl
  | cons f files ih =>
      rw [List.flatMap_cons, Site.partsUnder_append, List.map_append]
      have hfile : ∀ s ∈ Site.partsUnder key f.sites, s.file = f :=
        fun s hs => SourceFile.file_of_mem_partsUnder hs
      cases hparts : Site.partsUnder key f.sites with
      | nil =>
          have hnone : ¬ f.hasPartUnder key := by simp [SourceFile.hasPartUnder, hparts]
          rw [List.filter_cons_of_neg hnone, List.map_nil, List.nil_append, ih]
      | cons s others =>
          have hsome : f.hasPartUnder key := by simp [SourceFile.hasPartUnder, hparts]
          rw [hparts, List.forall_mem_cons] at hfile
          have hagain : ∀ g ∈ others.map PartSite.file, g = f := by
            intro g hg
            rcases List.mem_map.mp hg with ⟨s', hs', rfl⟩
            exact hfile.2 s' hs'
          rw [List.filter_cons_of_pos hsome, List.map_cons, hfile.1,
            freshFiles_cons_append hagain]
          simp only [freshFiles, ih]

/-! ## Equal paths -/

/-- A file whose path is among the given ones or that of an earlier file has no using
directives. -/
def RepeatsNoUsings (seen : List String) (files : List SourceFile) : Prop :=
  ∀ earlier f later, files = earlier ++ f :: later →
    f.path ∈ seen ∨ f.path ∈ earlier.map SourceFile.path → f.usings = []

/-- The first file counts with the given paths, the others with its path too. -/
theorem repeatsNoUsings_cons_iff {seen : List String} {f : SourceFile}
    {files : List SourceFile} :
    RepeatsNoUsings seen (f :: files) ↔
      (f.path ∈ seen → f.usings = []) ∧ RepeatsNoUsings (f.path :: seen) files := by
  constructor
  · intro h
    refine ⟨fun hf => h [] f files rfl (Or.inl hf), ?_⟩
    intro earlier g later hfiles hg
    apply h (f :: earlier) g later (by rw [hfiles, List.cons_append])
    rw [List.map_cons, List.mem_cons]
    rw [List.mem_cons] at hg
    tauto
  · rintro ⟨hf, hrest⟩ earlier g later hfiles hg
    cases earlier with
    | nil =>
        rw [List.nil_append, List.cons.injEq] at hfiles
        rw [← hfiles.1] at hg ⊢
        exact hf (hg.resolve_right (by simp))
    | cons f' earlier =>
        rw [List.cons_append, List.cons.injEq] at hfiles
        apply hrest earlier g later hfiles.2
        rw [List.map_cons, List.mem_cons, ← hfiles.1] at hg
        rw [List.mem_cons]
        tauto

/-- A path that has been seen twice has been seen. -/
theorem repeatsNoUsings_cons_seen {seen : List String} {path : String} (h : path ∈ seen)
    {files : List SourceFile} :
    RepeatsNoUsings (path :: seen) files ↔ RepeatsNoUsings seen files := by
  have hseen : ∀ p, p ∈ path :: seen ↔ p ∈ seen := by
    intro p
    rw [List.mem_cons]
    constructor
    · rintro (rfl | hp)
      · exact h
      · exact hp
    · exact Or.inr
  simp only [RepeatsNoUsings, hseen]

/-- Fresh files have no more using directives than all files. -/
theorem length_flatMap_usings_freshFiles_le (seen : List String) (files : List SourceFile) :
    ((freshFiles seen files).flatMap SourceFile.usings).length ≤
      (files.flatMap SourceFile.usings).length := by
  induction files generalizing seen with
  | nil => exact Nat.le_refl _
  | cons f files ih =>
      rw [freshFiles, List.flatMap_cons, List.length_append]
      split
      · exact Nat.le_trans (ih seen) (Nat.le_add_left _ _)
      · rw [List.flatMap_cons, List.length_append]
        exact Nat.add_le_add_left (ih _) _

/-- Fresh files have all using directives exactly if the others have none. -/
theorem flatMap_usings_freshFiles_eq_iff (seen : List String) (files : List SourceFile) :
    (freshFiles seen files).flatMap SourceFile.usings = files.flatMap SourceFile.usings ↔
      RepeatsNoUsings seen files := by
  induction files generalizing seen with
  | nil => simp [freshFiles, RepeatsNoUsings]
  | cons f files ih =>
      rw [freshFiles, List.flatMap_cons, repeatsNoUsings_cons_iff]
      by_cases hf : f.path ∈ seen
      · rw [if_pos hf, repeatsNoUsings_cons_seen hf, ← ih seen]
        constructor
        · intro heq
          -- A directive of `f` would make the right-hand side longer.
          have hlength := length_flatMap_usings_freshFiles_le seen files
          rw [heq, List.length_append] at hlength
          have hnone : f.usings = [] := List.eq_nil_of_length_eq_zero (by omega)
          rw [hnone, List.nil_append] at heq
          exact ⟨fun _ => hnone, heq⟩
        · rintro ⟨hnone, heq⟩
          rw [hnone hf, List.nil_append, heq]
      · rw [if_neg hf, List.flatMap_cons, List.append_cancel_left_eq, ih]
        constructor
        · intro h
          exact ⟨fun hseen => absurd hseen hf, h⟩
        · exact And.right

/-! ## Distinct paths -/

/-- Files whose paths are distinct and have not been seen are all fresh. -/
theorem freshFiles_eq_self {seen : List String} {files : List SourceFile}
    (hnew : ∀ f ∈ files, f.path ∉ seen) (hnodup : (files.map SourceFile.path).Nodup) :
    freshFiles seen files = files := by
  induction files generalizing seen with
  | nil => rfl
  | cons f files ih =>
      rw [List.forall_mem_cons] at hnew
      rw [List.map_cons, List.nodup_cons] at hnodup
      rw [freshFiles, if_neg hnew.1, ih _ hnodup.2]
      intro g hg hseen
      rcases List.mem_cons.mp hseen with hsame | hseen
      · exact hnodup.1 (hsame ▸ List.mem_map_of_mem hg)
      · exact hnew.2 g hg hseen

/-- If paths are distinct, a scanned type has the using directives of all files with parts
of it. -/
theorem MarkedType.Gathers.usings_of_nodup {c : Compilation} {key : String} {first : PartSite}
    {others : List PartSite} {t : MarkedType} (h : t.Gathers c.sites key first others)
    (hnodup : (c.files.map SourceFile.path).Nodup) :
    t.usings = (c.filesUnder key).flatMap SourceFile.usings := by
  have hfresh : freshFiles [] (c.filesUnder key) = c.filesUnder key :=
    freshFiles_eq_self (by simp) (hnodup.sublist (List.filter_sublist.map _))
  have hparts := freshFiles_partsUnder key [] c.files
  rw [h.usings_eq]
  change (freshFiles [] ((Site.partsUnder key (c.files.flatMap SourceFile.sites)).map
    PartSite.file)).flatMap SourceFile.usings = _
  rw [hparts, ← Compilation.filesUnder, hfresh]

/-! ## Scanned types -/

/-- A scanned type has the using directives of the files with parts of it, where of files
with one path the first counts.  It has those of all its files exactly if a file whose
path came before has none. -/
theorem scan_merges_usings (c : Compilation) :
    List.Forall₂
      (fun key t =>
        t.usings = (freshFiles [] (c.filesUnder key)).flatMap SourceFile.usings ∧
        (t.usings = (c.filesUnder key).flatMap SourceFile.usings ↔
          RepeatsNoUsings [] (c.filesUnder key)))
      (Site.markedKeys c.sites) c.scan := by
  apply (forall₂_gathers_scan c).imp
  rintro key t ⟨first, others, h⟩
  have husings : t.usings = (freshFiles [] (c.filesUnder key)).flatMap SourceFile.usings := by
    rw [h.usings_eq]
    exact congrArg (List.flatMap SourceFile.usings) (freshFiles_partsUnder key [] c.files)
  refine ⟨husings, ?_⟩
  rw [husings]
  exact flatMap_usings_freshFiles_eq_iff [] (c.filesUnder key)

/-- A file without a path that imports one namespace and has a part of the type `P`. -/
def unnamedFile (imported : String) (members : List Decl) : SourceFile where
  path := ""
  members :=
    [.directive ⟨imported, none, false, .unknown⟩,
     .type ⟨"P", ["partial"], [], .unknown⟩ members]

/-- Two files without a path, the first with a candidate. -/
def unnamedFiles : Compilation where
  files :=
    [unnamedFile "A" [.member (.field ⟨"Door", ["door"], [], [⟨"Get", []⟩], .unknown⟩)],
     unnamedFile "B" []]

/-- Of two files without a path, the second does not count. -/
theorem unnamedFiles_lose_usings :
    ¬ List.Forall₂ (fun key t => t.usings = (unnamedFiles.filesUnder key).flatMap
        SourceFile.usings)
      (Site.markedKeys unnamedFiles.sites) unnamedFiles.scan := by
  intro h
  have heq : unnamedFiles.scan.map MarkedType.usings =
      (Site.markedKeys unnamedFiles.sites).map fun key =>
        (unnamedFiles.filesUnder key).flatMap SourceFile.usings := by
    rw [← List.forall₂_eq_eq_eq, List.forall₂_map_left_iff, List.forall₂_map_right_iff]
    exact h.flip
  exact absurd heq (by decide +kernel)

end SceneWiring
