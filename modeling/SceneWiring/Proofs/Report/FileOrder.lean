import Mathlib.Data.List.Perm.Basic
import SceneWiring.Proofs.Header.Merging
import SceneWiring.Proofs.Report.Identity
import SceneWiring.Proofs.Report.Keys
import SceneWiring.Proofs.Report.Run
import SceneWiring.Proofs.Scan.Headers
import SceneWiring.Proofs.Scan.Usings

/-!
# The order of the files

The part that is met first gives a type its place in the report, its name and its type
parameters, and decides which types are around it.  If names are identifiers, no namespace
stands inside a type, and the parts of a type agree in their type parameters, any part would
tell the same.  Then the order of the files decides nothing but the order of what is listed:
of the units, of the using directives and the fragments in each, and of the skips.

Main results:

- Theorem `headerUnder_eq_of_perm`: the headers do not depend on the order.
- Definition `MarkedType.SameUpToOrder`: what two scans tell about one type.
- Theorem `exists_perm_scan`: the scanned types in another order.
- Definition `CodeUnit.SameUpToOrder`: units with the same code up to order.
- Theorem `report_same_up_to_order`: the reports in another order.
-/

namespace SceneWiring

/-! ## Sites in another order -/

/-- The same elements without repetitions. -/
theorem eraseDups_perm {α : Type} [DecidableEq α] {xs ys : List α} (h : xs.Perm ys) :
    xs.eraseDups.Perm ys.eraseDups := by
  rw [List.perm_ext_iff_of_nodup (Site.nodup_eraseDups xs) (Site.nodup_eraseDups ys)]
  intro x
  rw [List.mem_eraseDups, List.mem_eraseDups, h.mem_iff]

namespace Site

variable {xs ys : List Site}

theorem partsUnder_perm (h : xs.Perm ys) (key : String) :
    (partsUnder key xs).Perm (partsUnder key ys) :=
  (h.filterMap part?).filter _

theorem candidatesUnder_perm (h : xs.Perm ys) (key : String) :
    (candidatesUnder key xs).Perm (candidatesUnder key ys) :=
  ((h.filterMap member?).filter _).map _

/-- The same types are listed. -/
theorem keysIn_perm (h : xs.Perm ys) : (keysIn xs).Perm (keysIn ys) :=
  eraseDups_perm ((h.filterMap part?).map _)

/-- The same types have candidates. -/
theorem markedKeys_perm (h : xs.Perm ys) : (markedKeys xs).Perm (markedKeys ys) := by
  have hempty : ∀ key, (candidatesUnder key xs).isEmpty = (candidatesUnder key ys).isEmpty :=
    fun key => (candidatesUnder_perm h key).isEmpty_eq
  simp only [markedKeys, hempty]
  exact (keysIn_perm h).filter _

end Site

/-- In another order, the files have the same sites. -/
theorem Compilation.sites_perm {c c' : Compilation} (h : c.files.Perm c'.files) :
    c.sites.Perm c'.sites :=
  h.flatMap_right SourceFile.sites

/-! ## Headers -/

/-- The parts of each type that have type parameters have the same ones. -/
def Compilation.AgreesInTypeParameters (c : Compilation) : Prop :=
  ∀ key ∈ Site.keysIn c.sites,
    Header.AgreeInTypeParameters ((Site.partsUnder key c.sites).map PartSite.part)

instance (c : Compilation) : Decidable c.AgreesInTypeParameters :=
  inferInstanceAs (Decidable (∀ key ∈ Site.keysIn c.sites,
    Header.AgreeInTypeParameters ((Site.partsUnder key c.sites).map PartSite.part)))

/-- The headers do not depend on the order of the files. -/
theorem headerUnder_eq_of_perm {n : Naming} (hn : n.ExcludesPlus) {c c' : Compilation}
    (hfollows : c.follows n) (hagree : c.AgreesInTypeParameters)
    (hperm : c.files.Perm c'.files) {key : String} (hkey : key ∈ Site.keysIn c.sites) :
    c'.headerUnder key = c.headerUnder key := by
  have hparts := (Site.partsUnder_perm (Compilation.sites_perm hperm) key).map PartSite.part
  apply Header.ofParts_eq_of_perm hparts _ (hagree key hkey)
  intro part hpart part' hpart'
  rcases List.mem_map.mp hpart with ⟨s, hs, rfl⟩
  rcases List.mem_map.mp hpart' with ⟨s', hs', rfl⟩
  have hsame : s.key = s'.key := by
    rw [(Site.mem_partsUnder_iff.mp hs).2, (Site.mem_partsUnder_iff.mp hs').2]
  exact (PartSite.keys_eq_of_key_eq hn (Compilation.follows_of_mem_partsUnder hfollows hs')
    (Compilation.follows_of_mem_partsUnder hfollows hs) hsame).1

/-! ## Scanned types -/

/-- What two scans tell about one type if they differ in order only. -/
structure MarkedType.SameUpToOrder (t t' : MarkedType) : Prop where
  enclosing : t'.enclosing = { t.enclosing with usings := t'.enclosing.usings }
  usings : (mergeUsings t'.enclosing.usings).Perm (mergeUsings t.enclosing.usings)
  candidates : t'.candidates.Perm t.candidates

/-- Two types under one key are the same up to order. -/
theorem MarkedType.Gathers.sameUpToOrder {c c' : Compilation}
    (hfollows : c.follows .identifiers) (hagree : c.AgreesInTypeParameters)
    (hpaths : (c.files.map SourceFile.path).Nodup) (hperm : c.files.Perm c'.files)
    {key : String} {t t' : MarkedType} {first first' : PartSite} {others others' : List PartSite}
    (hgathers : t.Gathers c.sites key first others) (hheaders : t.HasHeaders c first)
    (hgathers' : t'.Gathers c'.sites key first' others') (hheaders' : t'.HasHeaders c' first') :
    t.SameUpToOrder t' := by
  have hsites := Compilation.sites_perm hperm
  -- The other scan may have met another part first, but one of the same type.
  have hmem' : first' ∈ Site.partsUnder key c.sites :=
    (Site.partsUnder_perm hsites key).mem_iff.mpr hgathers'.first_mem
  rcases Site.mem_partsUnder_iff.mp hgathers.first_mem with ⟨hmem, hkey⟩
  have hfirst := Compilation.follows_of_mem_partsUnder hfollows hgathers.first_mem
  have hfirst' := Compilation.follows_of_mem_partsUnder hfollows hmem'
  rcases PartSite.path_eq_of_key_eq hfirst hfirst'
    ((Site.mem_partsUnder_iff.mp hmem').2.trans hkey.symm) with ⟨hpath, hkeys⟩
  have hfiles : (c'.filesUnder key).Perm (c.filesUnder key) := hperm.symm.filter _
  have hpaths' : (c'.files.map SourceFile.path).Nodup := (hperm.map _).nodup_iff.mp hpaths
  have husings : t'.usings.Perm t.usings := by
    rw [hgathers'.usings_of_nodup hpaths', hgathers.usings_of_nodup hpaths]
    exact hfiles.flatMap_right _
  exact {
    enclosing := by
      apply hheaders.enclosing_eq hheaders' hkeys hpath
      intro o ho
      exact headerUnder_eq_of_perm Naming.excludesPlus_identifiers hfollows hagree hperm
        (c.grounded_sites.key_mem_keysIn_of_mem_inside hmem ho)
    usings := eraseDups_perm (((husings.map UsingDirective.render).map Text.trim).append_left _)
    candidates := by
      rw [hgathers'.candidates_eq, hgathers.candidates_eq]
      exact (Site.candidatesUnder_perm hsites key).symm }

/-- The types that are found if the files are scanned in another order are the same, up to
order. -/
theorem exists_perm_scan {c c' : Compilation} (hfollows : c.follows .identifiers)
    (hagree : c.AgreesInTypeParameters) (hpaths : (c.files.map SourceFile.path).Nodup)
    (hperm : c.files.Perm c'.files) :
    ∃ ts, ts.Perm c'.scan ∧ List.Forall₂ MarkedType.SameUpToOrder c.scan ts := by
  have hfollows' : c'.follows .identifiers := by
    rw [Compilation.follows, hperm.symm.all_eq]
    exact hfollows
  have hscan := forall₂_headers_scan Naming.excludesPlus_identifiers hfollows
  have hscan' := forall₂_headers_scan Naming.excludesPlus_identifiers hfollows'
  have hkeys := Site.markedKeys_perm (Compilation.sites_perm hperm)
  -- The types of the other scan, put into the order of the keys of this one.
  rcases List.perm_comp_forall₂ hkeys hscan' with ⟨ts, hts, hpermTypes⟩
  refine ⟨ts, hpermTypes, ?_⟩
  apply (forall₂_of_common hscan hts).imp
  rintro t t' ⟨key, ⟨first, others, hgathers, hheaders⟩, first', others', hgathers', hheaders'⟩
  exact hgathers.sameUpToOrder hfollows hagree hpaths hperm hheaders hgathers' hheaders'

/-! ## Units -/

/-- Two units for one type whose code differs in the order of using directives and fragments
only.  The fragments are as many as the units say. -/
structure CodeUnit.SameUpToOrder (u u' : CodeUnit) : Prop where
  key : u'.key = u.key
  typeName : u'.typeName = u.typeName
  qualifiedName : u'.qualifiedName = u.qualifiedName
  path : u'.path = u.path
  hook : u'.hook = u.hook
  fragmentCount : u'.fragmentCount = u.fragmentCount
  text : ∃ (t : EnclosingType) (usings : List String) (fragments fragments' : List Fragment),
    u.text = textOfLines (layOut 0 (unitSteps t u.hook fragments)) ∧
    u'.text = textOfLines (layOut 0 (unitSteps { t with usings := usings } u.hook fragments')) ∧
    (mergeUsings usings).Perm (mergeUsings t.usings) ∧ fragments'.Perm fragments ∧
    fragments.length = u.fragmentCount

section

variable {options : Options} {model : SemanticModel} {t t' : MarkedType}

namespace MarkedType.SameUpToOrder

theorem name_eq (h : t.SameUpToOrder t') : t'.enclosing.name = t.enclosing.name :=
  name_eq_of_enclosing_eq h.enclosing

/-- The same types are rejected. -/
theorem isRejected_eq (h : t.SameUpToOrder t') : t'.isRejected options = t.isRejected options :=
  isRejected_eq_of_enclosing_eq h.enclosing options

/-- The same becomes of the candidates. -/
theorem outcomes_perm (h : t.SameUpToOrder t') :
    (t'.candidates.map (Candidate.outcome options model t'.enclosing.name)).Perm
      (t.candidates.map (Candidate.outcome options model t.enclosing.name)) := by
  rw [h.name_eq]
  exact h.candidates.map _

theorem fragments_perm (h : t.SameUpToOrder t') :
    (t'.fragments options model).Perm (t.fragments options model) :=
  h.outcomes_perm.filterMap _

/-- The same types have units. -/
theorem hasUnit_eq (h : t.SameUpToOrder t') :
    t'.hasUnit options model = t.hasUnit options model := by
  rw [hasUnit, hasUnit, h.isRejected_eq, h.fragments_perm.isEmpty_eq]

/-- The units are the same up to order. -/
theorem unit (h : t.SameUpToOrder t') :
    (t.unit options model).SameUpToOrder (t'.unit options model) := by
  have hhook : (t'.unit options model).hook = (t.unit options model).hook := by
    have hwants : wantsPlayHook (t'.fragments options model) =
        wantsPlayHook (t.fragments options model) := h.fragments_perm.any_eq
    change options.hook _ = options.hook _
    rw [hwants]
  exact {
    key := by
      change simpleKey t'.enclosing.name = simpleKey t.enclosing.name
      rw [h.name_eq]
    typeName := h.name_eq
    qualifiedName := by
      change t'.enclosing.qualifiedName = t.enclosing.qualifiedName
      rw [h.enclosing]
      rfl
    path := by
      change t'.enclosing.path = t.enclosing.path
      rw [h.enclosing]
    hook := hhook
    fragmentCount := h.fragments_perm.length_eq
    text := by
      refine ⟨t.enclosing, t'.enclosing.usings, t.fragments options model,
        t'.fragments options model, rfl, ?_, h.usings, h.fragments_perm, rfl⟩
      rw [← hhook, ← h.enclosing]
      rfl }

end MarkedType.SameUpToOrder

end

/-- Qualified keys keep units the same up to order. -/
theorem CodeUnit.SameUpToOrder.qualified {u u' : CodeUnit} (h : u.SameUpToOrder u') :
    u.qualified.SameUpToOrder u'.qualified where
  key := by
    change qualifiedKey u'.qualifiedName = qualifiedKey u.qualifiedName
    rw [h.qualifiedName]
  typeName := h.typeName
  qualifiedName := h.qualifiedName
  path := h.path
  hook := h.hook
  fragmentCount := h.fragmentCount
  text := h.text

/-- Units that are the same up to order stay so when shared keys are qualified. -/
theorem forall₂_qualifyShared {us us' : List CodeUnit}
    (h : List.Forall₂ CodeUnit.SameUpToOrder us us') :
    List.Forall₂ CodeUnit.SameUpToOrder (qualifyShared us) (qualifyShared us') :=
  forall₂_qualifyShared_of_key (fun _ _ hu => hu.key) (fun _ _ hu => hu.qualified) h

/-- Shared keys are qualified in any order. -/
theorem qualifyShared_perm {us us' : List CodeUnit} (h : us.Perm us') :
    (qualifyShared us).Perm (qualifyShared us') := by
  have hshares : ∀ u, sharesKey us u = sharesKey us' u := by
    intro u
    rw [sharesKey_eq, sharesKey_eq, (h.map CodeUnit.key).count_eq]
  rw [qualifyShared, qualifyShared]
  simp only [hshares]
  exact h.map _

/-! ## Skips -/

section

variable {options : Options} {model : SemanticModel}

/-- The skip of a candidate is about a member and not about its type. -/
theorem Candidate.member_skipped {typeName : String} {candidate : Candidate} {s : Skipped}
    (h : (candidate.outcome options model typeName).skipped? = some s) :
    s.member.isSome ∧ s.reason ≠ .notPartial := by
  have hreason := candidate.member.resolve_ne_notPartial options model typeName
  rw [Candidate.outcome] at h
  cases hresolve : candidate.member.resolve options model typeName with
  | ok injection? => cases injection? <;> simp [hresolve, Outcome.skipped?] at h
  | error reason =>
      rw [hresolve] at h hreason
      obtain rfl : candidate.skip typeName reason = s := by simpa [Outcome.skipped?] using h
      exact ⟨rfl, by simpa [Candidate.skip] using hreason⟩

/-- The skips of the candidates of a type, of which there are none if it is rejected. -/
def MarkedType.memberSkips (options : Options) (model : SemanticModel) (t : MarkedType) :
    List Skipped :=
  if t.isRejected options then []
  else (t.candidates.map (Candidate.outcome options model t.enclosing.name)).filterMap
    Outcome.skipped?

/-- The types that are rejected. -/
def Compilation.rejectedTypes (options : Options) (c : Compilation) : List MarkedType :=
  c.scan.filter (MarkedType.isRejected options)

theorem MarkedType.filter_member_skipped (t : MarkedType) :
    ((t.contribution options model).skipped.filter fun s => s.member.isSome) =
      t.memberSkips options model := by
  rw [contribution, memberSkips]
  split
  · rfl
  · apply List.filter_eq_self.mpr
    intro s hs
    rcases List.mem_filterMap.mp hs with ⟨outcome, houtcome, hskipped⟩
    rcases List.mem_map.mp houtcome with ⟨candidate, -, rfl⟩
    exact (Candidate.member_skipped hskipped).1

theorem MarkedType.filter_notPartial_skipped (t : MarkedType) :
    ((t.contribution options model).skipped.filter fun s => s.reason == .notPartial) =
      if t.isRejected options then [t.rejection] else [] := by
  rw [contribution]
  split
  · rfl
  · rw [List.filter_eq_nil_iff]
    intro s hs
    rcases List.mem_filterMap.mp hs with ⟨outcome, houtcome, hskipped⟩
    rcases List.mem_map.mp houtcome with ⟨candidate, -, rfl⟩
    simpa using (Candidate.member_skipped hskipped).2

/-- The skips that are about members. -/
theorem filter_member_skipped (ts : List MarkedType) :
    (((ts.map (MarkedType.contribution options model)).flatMap Contribution.skipped).filter
      fun s => s.member.isSome) = ts.flatMap (MarkedType.memberSkips options model) := by
  induction ts with
  | nil => rfl
  | cons t ts ih =>
      rw [List.map_cons, List.flatMap_cons, List.filter_append, t.filter_member_skipped, ih,
        List.flatMap_cons]

/-- The skips that are about whole types. -/
theorem filter_notPartial_skipped (ts : List MarkedType) :
    (((ts.map (MarkedType.contribution options model)).flatMap Contribution.skipped).filter
      fun s => s.reason == .notPartial) =
        (ts.filter (MarkedType.isRejected options)).map MarkedType.rejection := by
  induction ts with
  | nil => rfl
  | cons t ts ih =>
      rw [List.map_cons, List.flatMap_cons, List.filter_append, t.filter_notPartial_skipped, ih]
      by_cases h : t.isRejected options
      · rw [if_pos h, List.filter_cons_of_pos h]
        rfl
      · rw [if_neg h, List.filter_cons_of_neg h]
        rfl

theorem MarkedType.SameUpToOrder.memberSkips_perm {t t' : MarkedType} (h : t.SameUpToOrder t') :
    (t.memberSkips options model).Perm (t'.memberSkips options model) := by
  rw [memberSkips, memberSkips, h.isRejected_eq]
  split
  · exact .refl _
  · exact (h.outcomes_perm.filterMap _).symm

/-- Of types that are the same up to order, the same ones are kept. -/
theorem forall₂_filter {p : MarkedType → Bool}
    (hp : ∀ {t t' : MarkedType}, t.SameUpToOrder t' → p t' = p t) {ts ts' : List MarkedType}
    (h : List.Forall₂ MarkedType.SameUpToOrder ts ts') :
    List.Forall₂ MarkedType.SameUpToOrder (ts.filter p) (ts'.filter p) := by
  apply List.rel_filter _ h
  intro t t' hsame
  change p t = true ↔ p t' = true
  rw [hp hsame]

/-- Lists that are joined from the same parts up to order are the same up to order. -/
theorem flatMap_perm_of_forall₂ {α β : Type} {f : α → List β} {xs ys : List α}
    (h : List.Forall₂ (fun x y => (f x).Perm (f y)) xs ys) :
    (xs.flatMap f).Perm (ys.flatMap f) := by
  induction h with
  | nil => exact .refl _
  | cons hhead _ ih => exact hhead.append ih

end

/-! ## Reports -/

/-- If names are identifiers, no namespace stands inside a type, paths are distinct and the
parts of each type agree in their type parameters, the reports of the same files in two
orders differ in order only.  Their units are for the same types and the same up to order, the
same members are skipped, and the same types are rejected. -/
theorem report_same_up_to_order {c c' : Compilation} (hperm : c.files.Perm c'.files)
    (hfollows : c.follows .identifiers) (hpaths : (c.files.map SourceFile.path).Nodup)
    (hagree : c.AgreesInTypeParameters) (options : Options) (model : SemanticModel) :
    ∃ report report', (generate options model c).result = .ok report ∧
      (generate options model c').result = .ok report' ∧
      (∃ units, units.Perm report'.units ∧
        List.Forall₂ CodeUnit.SameUpToOrder report.units units) ∧
      (report.skipped.filter fun s => s.member.isSome).Perm
        (report'.skipped.filter fun s => s.member.isSome) ∧
      (report.skipped.filter fun s => s.reason == .notPartial) =
        (c.rejectedTypes options).map MarkedType.rejection ∧
      (report'.skipped.filter fun s => s.reason == .notPartial) =
        (c'.rejectedTypes options).map MarkedType.rejection ∧
      ((c.rejectedTypes options).map fun t => (t.enclosing.path, t.enclosing.qualifiedName)).Perm
        ((c'.rejectedTypes options).map fun t =>
          (t.enclosing.path, t.enclosing.qualifiedName)) := by
  rcases exists_perm_scan hfollows hagree hpaths hperm with ⟨ts, hts, hsame⟩
  refine ⟨_, _, result_generate options model c, result_generate options model c', ?_, ?_,
    filter_notPartial_skipped _, filter_notPartial_skipped _, ?_⟩
  · rw [units_generate (result_generate options model c),
      units_generate (result_generate options model c')]
    refine ⟨qualifyShared ((ts.filter (MarkedType.hasUnit options model)).map
      (MarkedType.unit options model)), qualifyShared_perm ((hts.filter _).map _), ?_⟩
    apply forall₂_qualifyShared
    rw [List.forall₂_map_left_iff, List.forall₂_map_right_iff]
    exact (forall₂_filter (fun h => h.hasUnit_eq) hsame).imp fun _ _ h => h.unit
  · have hskips : (c.scan.flatMap (MarkedType.memberSkips options model)).Perm
        (ts.flatMap (MarkedType.memberSkips options model)) :=
      flatMap_perm_of_forall₂ (hsame.imp fun _ _ h => h.memberSkips_perm)
    simp only [Report.ofContributions, filter_member_skipped]
    exact hskips.trans (hts.flatMap_right _)
  · have hrejected : List.Forall₂ MarkedType.SameUpToOrder (c.rejectedTypes options)
        (ts.filter (MarkedType.isRejected options)) :=
      forall₂_filter (fun h => h.isRejected_eq) hsame
    have hnames : ((c.rejectedTypes options).map fun t =>
        (t.enclosing.path, t.enclosing.qualifiedName)) =
          (ts.filter (MarkedType.isRejected options)).map fun t =>
            (t.enclosing.path, t.enclosing.qualifiedName) := by
      rw [← List.forall₂_eq_eq_eq, List.forall₂_map_left_iff, List.forall₂_map_right_iff]
      apply hrejected.imp
      intro t t' h
      rw [h.enclosing]
      rfl
    rw [hnames]
    exact (hts.filter _).map _

/-- A file with a part of a type that has a candidate. -/
def frontFile : SourceFile where
  path := "Front.cs"
  members :=
    [.directive ⟨"Furniture", none, false, .unknown⟩,
     .scope ⟨"Game", .unknown⟩
      [.type ⟨"House", ["partial"], ["T"], .unknown⟩
        [.member (.field ⟨"Door", ["front"], [], [⟨"Get", []⟩], .unknown⟩)]]]

/-- A file with another part of that type, a type inside it, and a type that is not partial. -/
def gardenFile : SourceFile where
  path := "Garden.cs"
  members :=
    [.directive ⟨"Plants", none, false, .unknown⟩,
     .scope ⟨"Game", .unknown⟩
      [.type ⟨"Shed", [], [], .unknown⟩
        [.member (.field ⟨"Door", ["hatch"], [], [⟨"Get", []⟩], .unknown⟩)],
       .type ⟨"House", ["public", "partial"], [], .unknown⟩
        [.member (.field ⟨"Door", ["back"], [], [⟨"Get", []⟩], .unknown⟩),
         .type ⟨"Room", ["partial"], [], .unknown⟩
          [.member (.field ⟨"Door", ["door"], [], [⟨"Get", []⟩], .unknown⟩)]]]]

/-- Two files with parts of one type, in both orders. -/
theorem frontGarden_same_up_to_order :
    ∃ report report',
      (generate { requirePartial := true } .ofDeclarations ⟨[frontFile, gardenFile]⟩).result =
        .ok report ∧
      (generate { requirePartial := true } .ofDeclarations ⟨[gardenFile, frontFile]⟩).result =
        .ok report' ∧
      ∃ units, units.Perm report'.units ∧
        List.Forall₂ CodeUnit.SameUpToOrder report.units units := by
  have hperm : (⟨[frontFile, gardenFile]⟩ : Compilation).files.Perm
      (⟨[gardenFile, frontFile]⟩ : Compilation).files := .swap _ _ _
  rcases report_same_up_to_order hperm (by decide +kernel) (by decide +kernel)
    (by decide +kernel) { requirePartial := true } .ofDeclarations with
    ⟨report, report', hreport, hreport', hunits, -⟩
  exact ⟨report, report', hreport, hreport', hunits⟩

end SceneWiring
