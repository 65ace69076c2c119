import SceneWiring.Proofs.Report.Run
import SceneWiring.Proofs.Scan.Substitution

/-!
# Members without fragments

A member reaches the report only as a candidate of the type around it.  If it is none, or
gives no fragment, taking it out of the compilation leaves all units as they are, wherever
it stands: its type keeps its place among the others and its own fragments, and a type that
disappears together with its last candidate had no unit.  A skip of the member goes with it
and all other skips stay in their order.

Main results:

- Definition `MemberSite.outcome?`: what becomes of a member in a run.
- Theorem `member_without_fragment_isolated`: what taking out such a member changes.
-/

namespace SceneWiring

/-! ## What becomes of a member -/

/-- The scanned type with a key. -/
def Compilation.typeUnder? (c : Compilation) (key : String) : Option MarkedType :=
  c.typesByKey.lookup key

/-- What becomes of a member in a run that nobody cancels.  Nothing does unless it is marked
and the type around it is not rejected. -/
def MemberSite.outcome? (options : Options) (model : SemanticModel) (c : Compilation)
    (s : MemberSite) : Option Outcome :=
  match s.member.isMarked, s.ownerKey?.bind c.typeUnder? with
  | true, some t =>
    if t.isRejected options then none
    else some (s.candidate.outcome options model t.enclosing.name)
  | _, _ => none

/-! ## Units and skips of types -/

section

variable (options : Options) (model : SemanticModel)

/-- The units of types, before they are given keys of their own. -/
def unitsOf (types : List (String × MarkedType)) : List CodeUnit :=
  types.filterMap fun o => (o.2.contribution options model).unit

/-- What is skipped of types. -/
def skipsOf (types : List (String × MarkedType)) : List Skipped :=
  types.flatMap fun o => (o.2.contribution options model).skipped

end

section

variable {options : Options} {model : SemanticModel}

theorem unitsOf_append (xs ys : List (String × MarkedType)) :
    unitsOf options model (xs ++ ys) = unitsOf options model xs ++ unitsOf options model ys := by
  simp [unitsOf]

theorem skipsOf_append (xs ys : List (String × MarkedType)) :
    skipsOf options model (xs ++ ys) = skipsOf options model xs ++ skipsOf options model ys := by
  simp [skipsOf]

/-- The report of a run that nobody cancels, from the scanned types and their keys. -/
theorem result_generate_typesByKey (options : Options) (model : SemanticModel) (c : Compilation) :
    (generate options model c).result =
      .ok ⟨qualifyShared (unitsOf options model c.typesByKey),
        skipsOf options model c.typesByKey⟩ := by
  rw [result_generate, ← Compilation.map_snd_typesByKey, Report.ofContributions]
  simp only [unitsOf, skipsOf, List.map_map, List.filterMap_map, List.flatMap_map]
  rfl

/-! ## A type with one candidate less -/

namespace MarkedType

variable (t : MarkedType)

/-- Candidates do not matter for whether a type is rejected. -/
@[simp]
theorem isRejected_withCandidates (candidates : List Candidate) :
    (t.withCandidates candidates).isRejected options = t.isRejected options :=
  rfl

theorem fragments_withCandidates (candidates : List Candidate) :
    (t.withCandidates candidates).fragments options model =
      (candidates.map (Candidate.outcome options model t.enclosing.name)).filterMap
        Outcome.fragment? :=
  rfl

/-- The unit of a type depends on its candidates through their fragments only. -/
theorem unit_contribution_congr {cs cs' : List Candidate}
    (h : ¬ t.isRejected options →
      (t.withCandidates cs).fragments options model =
        (t.withCandidates cs').fragments options model) :
    ((t.withCandidates cs).contribution options model).unit =
      ((t.withCandidates cs').contribution options model).unit := by
  by_cases hrejected : t.isRejected options
  · simp [contribution, hrejected, Contribution.ofRejected]
  · have hunit : (t.withCandidates cs).unit options model =
        (t.withCandidates cs').unit options model := by
      rw [unit, unit, h hrejected]
      rfl
    rw [unit_contribution, unit_contribution, hasUnit, hasUnit, hunit, h hrejected]
    rfl

/-- A type without candidates has no unit, so that it makes no difference for the units
whether it is listed. -/
theorem unitsOf_listedUnder (key : String) (candidates : List Candidate) :
    unitsOf options model (t.listedUnder key candidates) =
      ((t.withCandidates candidates).contribution options model).unit.toList := by
  cases candidates with
  | nil =>
      simp [listedUnder, unitsOf, unit_contribution, hasUnit, fragments, withCandidates]
  | cons c cs =>
      cases hunit : ((t.withCandidates (c :: cs)).contribution options model).unit <;>
        simp [listedUnder, unitsOf, hunit]

/-- What is skipped of a type that is not rejected. -/
theorem skipsOf_listedUnder (key : String) (candidates : List Candidate)
    (h : ¬ t.isRejected options) :
    skipsOf options model (t.listedUnder key candidates) =
      (candidates.map (Candidate.outcome options model t.enclosing.name)).filterMap
        Outcome.skipped? := by
  cases candidates with
  | nil => rfl
  | cons c cs =>
      have hskipped : ((t.withCandidates (c :: cs)).contribution options model).skipped =
          ((c :: cs).map (Candidate.outcome options model t.enclosing.name)).filterMap
            Outcome.skipped? := by
        rw [contribution, if_neg (by simpa using h)]
        rfl
      simp [listedUnder, skipsOf, hskipped]

end MarkedType

end

/-! ## Candidates of a run -/

section

variable {options : Options} {model : SemanticModel} {c : Compilation} {s : MemberSite}

/-- Nothing becomes of a member that is no candidate. -/
theorem outcome?_of_not_isCandidate (h : s.isCandidate = false) :
    s.outcome? options model c = none := by
  rw [MemberSite.isCandidate, Bool.and_eq_false_iff] at h
  rw [MemberSite.outcome?]
  rcases h with h | h
  · rw [h]
  · have howner : s.ownerKey? = none := by simpa using h
    rw [howner, Option.bind_none]
    cases s.member.isMarked <;> rfl

/-- If something becomes of a member, it is a candidate of a type that is not rejected. -/
theorem exists_type_of_outcome? {outcome : Outcome}
    (h : s.outcome? options model c = some outcome) :
    s.member.isMarked ∧ ∃ key t, s.ownerKey? = some key ∧ (key, t) ∈ c.typesByKey ∧
      ¬ t.isRejected options ∧ s.candidate.outcome options model t.enclosing.name = outcome := by
  rw [MemberSite.outcome?] at h
  split at h
  · rename_i t hmarked htype
    rcases Option.bind_eq_some_iff.mp htype with ⟨key, howner, hlookup⟩
    have hmem : (key, t) ∈ c.typesByKey := by
      rcases List.lookup_eq_some_iff.mp hlookup with ⟨before, after, htypes, -⟩
      simp [htypes]
    split at h
    · exact absurd h (by simp)
    · rename_i haccepted
      exact ⟨hmarked, key, t, howner, hmem, haccepted, Option.some.inj h⟩
  · exact absurd h (by simp)

/-- A candidate of the innermost type around it becomes something unless that type is
rejected. -/
theorem outcome?_of_mem_typesByKey {key : String} {t : MarkedType} (hmarked : s.member.isMarked)
    (howner : s.ownerKey? = some key) (hmem : (key, t) ∈ c.typesByKey) :
    s.outcome? options model c =
      if t.isRejected options then none
      else some (s.candidate.outcome options model t.enclosing.name) := by
  have htype : c.typeUnder? key = some t := by
    rw [Compilation.typeUnder?]
    cases hlookup : c.typesByKey.lookup key with
    | none =>
        rw [List.lookup_eq_none_iff] at hlookup
        exact absurd (hlookup _ hmem) (by simp)
    | some t' =>
        rcases List.lookup_eq_some_iff.mp hlookup with ⟨before, after, htypes, -⟩
        have hmem' : (key, t') ∈ c.typesByKey := by simp [htypes]
        exact congrArg (fun o => some o.2) (c.eq_of_mem_typesByKey hmem' hmem rfl)
  rw [MemberSite.outcome?, hmarked, howner, Option.bind_some, htype]

end

/-! ## A member in a gap -/

namespace CompilationGap

variable (g : CompilationGap) (m : Member)

/-- The member that fills a gap at its place. -/
def site : MemberSite :=
  ⟨g.place [.member m], m⟩

/-- The sites around the gap have the same candidates whether or not a member fills it. -/
theorem candidatesUnder_fill_member (key : String) :
    Site.candidatesUnder key (g.fill [.member m]).sites =
      Site.candidatesUnder key (g.sitesBefore [.member m]) ++
        (if (g.site m).isCandidateUnder key then [(g.site m).candidate] else []) ++
        Site.candidatesUnder key (g.sitesAfter [.member m]) := by
  rw [candidatesUnder_fill, ← Site.candidatesUnder_member]
  rfl

theorem candidatesUnder_fill_nil (key : String) :
    Site.candidatesUnder key (g.fill []).sites =
      Site.candidatesUnder key (g.sitesBefore [.member m]) ++
        Site.candidatesUnder key (g.sitesAfter [.member m]) := by
  have hnone : Site.candidatesUnder key (Decl.sitesAll (g.place [.member m]) []) = [] := rfl
  rw [candidatesUnder_fill g [.member m] [], hnone, List.append_nil]

/-- A member that is no candidate leaves no trace in the scan. -/
theorem typesByKey_fill_nil_of_not_isCandidate (h : (g.site m).isCandidate = false) :
    (g.fill []).typesByKey = (g.fill [.member m]).typesByKey := by
  have hnone : ∀ key, (g.site m).isCandidateUnder key = false := by
    intro key
    rw [MemberSite.isCandidate, Bool.and_eq_false_iff] at h
    rcases h with h | h
    · simp [MemberSite.isCandidateUnder, h]
    · have howner : (g.site m).ownerKey? = none := by simpa using h
      simp [MemberSite.isCandidateUnder, howner]
  have houtline : (g.fill []).outline = (g.fill [.member m]).outline :=
    g.outline_fill_eq rfl rfl
  rw [Compilation.typesByKey_eq, Compilation.typesByKey_eq, houtline]
  apply assignCandidates_congr
  intro key _
  rw [g.candidatesUnder_fill_nil m, g.candidatesUnder_fill_member m, hnone key,
    if_neg (by simp), List.append_nil]

/-- What a candidate adds to the scan: one more candidate of the type around it.  The type
may be listed for this candidate only. -/
theorem typesByKey_fill_of_isCandidateUnder {key : String}
    (h : (g.site m).isCandidateUnder key) :
    ∃ (before : List (String × MarkedType)) (t : MarkedType)
      (after : List (String × MarkedType)) (pre post : List Candidate),
      (g.fill [.member m]).typesByKey =
        before ++ t.listedUnder key (pre ++ (g.site m).candidate :: post) ++ after ∧
      (g.fill []).typesByKey = before ++ t.listedUnder key (pre ++ post) ++ after ∧
      ∀ options model, (g.site m).outcome? options model (g.fill [.member m]) =
        if t.isRejected options then none
        else some ((g.site m).candidate.outcome options model t.enclosing.name) := by
  have hcandidates := g.candidatesUnder_fill_member m key
  rw [if_pos h, List.append_assoc, List.singleton_append] at hcandidates
  have hne : Site.candidatesUnder key (g.fill [.member m]).sites ≠ [] := by
    rw [hcandidates]
    simp
  have hkey : key ∈ Site.keysIn (g.fill [.member m]).sites := by
    by_contra hnot
    exact hne ((g.fill [.member m]).grounded_sites.candidatesUnder_eq_nil hnot)
  rcases (g.fill [.member m]).exists_outline_eq hkey with
    ⟨before, t, after, houtline, hbefore, hafter⟩
  -- Under all other keys, the candidates are the same.
  have hother : ∀ k, k ≠ key → Site.candidatesUnder k (g.fill []).sites =
      Site.candidatesUnder k (g.fill [.member m]).sites := by
    intro k hk
    have howner : (g.site m).isCandidateUnder k = false := by
      rw [MemberSite.isCandidateUnder, Bool.and_eq_true, beq_iff_eq] at h
      simp [MemberSite.isCandidateUnder, h.2, Ne.symm hk]
    rw [g.candidatesUnder_fill_nil m, g.candidatesUnder_fill_member m, howner,
      if_neg (by simp), List.append_nil]
  let found := fun k => Site.candidatesUnder k (g.fill [.member m]).sites
  have hcongr : ∀ outline : List (String × MarkedType), key ∉ outline.map Prod.fst →
      assignCandidates (fun k => Site.candidatesUnder k (g.fill []).sites) outline =
        assignCandidates found outline := by
    intro outline hnot
    apply assignCandidates_congr
    intro k hk
    exact hother k fun hsame => hnot (hsame ▸ hk)
  have houtline' : (g.fill []).outline = (g.fill [.member m]).outline :=
    g.outline_fill_eq rfl rfl
  refine ⟨assignCandidates found before, t, assignCandidates found after,
    Site.candidatesUnder key (g.sitesBefore [.member m]),
    Site.candidatesUnder key (g.sitesAfter [.member m]), ?_, ?_, ?_⟩
  · rw [Compilation.typesByKey_eq, houtline, assignCandidates_append, assignCandidates_cons,
      hcandidates, List.append_assoc]
  · rw [Compilation.typesByKey_eq, houtline', houtline, assignCandidates_append,
      assignCandidates_cons, hcongr before hbefore, hcongr after hafter,
      g.candidatesUnder_fill_nil m, List.append_assoc]
  · intro options model
    have hmem : (key, t.withCandidates (found key)) ∈ (g.fill [.member m]).typesByKey := by
      rw [Compilation.typesByKey_eq, houtline, assignCandidates_append, assignCandidates_cons,
        MarkedType.listedUnder, if_neg (by simpa using hne)]
      simp [found]
    rw [MemberSite.isCandidateUnder, Bool.and_eq_true, beq_iff_eq] at h
    rw [outcome?_of_mem_typesByKey h.1 h.2 hmem]
    rfl

/-- If something becomes of a member in a gap, it is a candidate of a type that is not rejected, and
so is every marked member in its place. -/
theorem exists_typesByKey_of_outcome? {options : Options} {model : SemanticModel}
    {outcome : Outcome} (h : (g.site m).outcome? options model (g.fill [.member m]) = some outcome) :
    ∃ (key : String) (before : List (String × MarkedType)) (t : MarkedType)
      (after : List (String × MarkedType)) (pre post : List Candidate),
      (g.site m).ownerKey? = some key ∧ m.isMarked ∧
      (∀ m' : Member, m'.isMarked → (g.fill [.member m']).typesByKey =
        before ++ (key, t.withCandidates (pre ++ ⟨m', g.path⟩ :: post)) :: after) ∧
      ¬ t.isRejected options ∧
      Candidate.outcome options model t.enclosing.name ⟨m, g.path⟩ = outcome := by
  rcases exists_type_of_outcome? h with ⟨hmarked, key, found, howner, hmem, haccepted, houtcome⟩
  rcases g.typesByKey_fill_marked hmarked howner with ⟨before, t, after, pre, post, htypes⟩
  have hother : (key, t.withCandidates (pre ++ ⟨m, g.path⟩ :: post)) ∈
      (g.fill [.member m]).typesByKey := by
    rw [htypes m hmarked]
    simp
  obtain rfl : found = t.withCandidates (pre ++ ⟨m, g.path⟩ :: post) :=
    congrArg Prod.snd ((g.fill [.member m]).eq_of_mem_typesByKey hmem hother rfl)
  have hcandidate : (g.site m).candidate = ⟨m, g.path⟩ := g.candidate_place m m
  rw [hcandidate] at houtcome
  exact ⟨key, before, t, after, pre, post, howner, hmarked, htypes, haccepted, houtcome⟩

end CompilationGap

/-! ## Reports -/

section

variable {options : Options} {model : SemanticModel} {t : MarkedType} {candidate : Candidate}
  (key : String) (pre post : List Candidate)

/-- A candidate without a fragment makes no difference for the units of its type. -/
theorem unitsOf_listedUnder_of_no_fragment
    (h : ¬ t.isRejected options →
      (candidate.outcome options model t.enclosing.name).fragment? = none) :
    unitsOf options model (t.listedUnder key (pre ++ post)) =
      unitsOf options model (t.listedUnder key (pre ++ candidate :: post)) := by
  rw [MarkedType.unitsOf_listedUnder, MarkedType.unitsOf_listedUnder]
  congr 1
  apply MarkedType.unit_contribution_congr
  intro haccepted
  have hnone := h haccepted
  rw [MarkedType.fragments_withCandidates, MarkedType.fragments_withCandidates, List.map_append,
    List.map_append, List.map_cons, List.filterMap_append, List.filterMap_append,
    List.filterMap_cons_none hnone]

/-- A skipped candidate adds its entry to those of its type. -/
theorem skipsOf_listedUnder_of_skipped {entry : Skipped} (haccepted : ¬ t.isRejected options)
    (h : candidate.outcome options model t.enclosing.name = .skipped entry) :
    ∃ xs ys,
      skipsOf options model (t.listedUnder key (pre ++ candidate :: post)) =
        xs ++ entry :: ys ∧
      skipsOf options model (t.listedUnder key (pre ++ post)) = xs ++ ys := by
  refine ⟨(pre.map (Candidate.outcome options model t.enclosing.name)).filterMap
      Outcome.skipped?,
    (post.map (Candidate.outcome options model t.enclosing.name)).filterMap
      Outcome.skipped?, ?_, ?_⟩
  · rw [t.skipsOf_listedUnder key _ haccepted, List.map_append, List.map_cons,
      List.filterMap_append, h]
    rfl
  · rw [t.skipsOf_listedUnder key _ haccepted, List.map_append, List.filterMap_append]

end

/-- Taking a member out of a compilation leaves the units of the report as they are unless
the member gave a fragment, wherever it stood.  If it was skipped, that entry goes and all
others stay in their order.  If it was not marked or stood outside all types, nothing
changes. -/
theorem member_without_fragment_isolated (options : Options) (model : SemanticModel)
    (g : CompilationGap) (m : Member) :
    ∃ report report',
      (generate options model (g.fill [.member m])).result = .ok report ∧
      (generate options model (g.fill [])).result = .ok report' ∧
      ((∀ f, (g.site m).outcome? options model (g.fill [.member m]) ≠ some (.fragment f)) →
        report'.units = report.units) ∧
      (∀ entry,
        (g.site m).outcome? options model (g.fill [.member m]) = some (.skipped entry) →
          ∃ before after, report.skipped = before ++ entry :: after ∧
            report'.skipped = before ++ after) ∧
      (m.isMarked = false ∨ (g.site m).ownerKey? = none →
        report'.skipped = report.skipped) := by
  refine ⟨_, _, result_generate_typesByKey options model (g.fill [.member m]),
    result_generate_typesByKey options model (g.fill []), ?_⟩
  cases hcandidate : (g.site m).isCandidate with
  | false =>
      have htypes := g.typesByKey_fill_nil_of_not_isCandidate m hcandidate
      rw [htypes, outcome?_of_not_isCandidate hcandidate]
      exact ⟨fun _ => rfl, fun entry h => absurd h (by simp), fun _ => rfl⟩
  | true =>
      rw [MemberSite.isCandidate, Bool.and_eq_true] at hcandidate
      rcases hcandidate with ⟨hmarked, howner⟩
      rcases Option.isSome_iff_exists.mp howner with ⟨key, hkey⟩
      have hunder : (g.site m).isCandidateUnder key := by
        rw [MemberSite.isCandidateUnder, hmarked, hkey]
        simp
      rcases g.typesByKey_fill_of_isCandidateUnder m hunder with
        ⟨before, t, after, pre, post, htypes, htypes', houtcome⟩
      rw [htypes, htypes', houtcome options model]
      simp only [unitsOf_append, skipsOf_append]
      refine ⟨?_, ?_, ?_⟩
      · intro hnone
        rw [unitsOf_listedUnder_of_no_fragment]
        intro haccepted
        rw [if_neg haccepted] at hnone
        cases hbecomes : (g.site m).candidate.outcome options model t.enclosing.name with
        | fragment f => exact absurd (congrArg some hbecomes) (hnone f)
        | skipped entry => rfl
        | unmarked => rfl
      · intro entry hskipped
        by_cases hrejected : t.isRejected options
        · rw [if_pos hrejected] at hskipped
          exact absurd hskipped (by simp)
        · rw [if_neg hrejected, Option.some.injEq] at hskipped
          rcases skipsOf_listedUnder_of_skipped key pre post hrejected hskipped with ⟨xs, ys, h, h'⟩
          exact ⟨skipsOf options model before ++ xs, ys ++ skipsOf options model after,
            by simp [h], by simp [h']⟩
      · rintro (hunmarked | houtside)
        · have hmember : (g.site m).member.isMarked = false := hunmarked
          rw [hmember] at hmarked
          exact absurd hmarked (by simp)
        · rw [houtside] at hkey
          exact absurd hkey (by simp)

/-- A gap after a field with a fragment, in a partial type of a namespace. -/
def gapAfterDoor : CompilationGap where
  before := []
  path := "Player.cs"
  gap :=
    .scope [] ⟨"Game", .unknown⟩
      (.type [] ⟨"Player", ["partial"], [], .unknown⟩
        (.here [.member (.field ⟨"Door", ["door"], [], [⟨"Get", []⟩], .unknown⟩)] []) [])
      []
  after := []

/-- A property that code is asked for but that cannot be assigned to. -/
def readOnlyProperty : Member :=
  .property ⟨"Door", "Exit", [], [⟨"Get", []⟩], false, .unknown⟩

/-- The property is skipped, and taking it out leaves the unit with the field as it is. -/
theorem readOnlyProperty_isolated :
    (gapAfterDoor.site readOnlyProperty).outcome? .default .ofDeclarations
        (gapAfterDoor.fill [.member readOnlyProperty]) =
      some (.skipped ⟨.notAssignable, "Player", some "Exit", "Player.cs", .unknown⟩) ∧
    ∃ report report',
      (generate .default .ofDeclarations
        (gapAfterDoor.fill [.member readOnlyProperty])).result = .ok report ∧
      (generate .default .ofDeclarations (gapAfterDoor.fill [])).result = .ok report' ∧
      report'.units = report.units ∧
      ∃ before after, report.skipped =
          before ++ ⟨.notAssignable, "Player", some "Exit", "Player.cs", .unknown⟩ :: after ∧
        report'.skipped = before ++ after := by
  have houtcome : (gapAfterDoor.site readOnlyProperty).outcome? .default .ofDeclarations
      (gapAfterDoor.fill [.member readOnlyProperty]) =
        some (.skipped ⟨.notAssignable, "Player", some "Exit", "Player.cs", .unknown⟩) := by
    decide +kernel
  rcases member_without_fragment_isolated .default .ofDeclarations gapAfterDoor
    readOnlyProperty with ⟨report, report', hreport, hreport', hunits, hskipped, -⟩
  refine ⟨houtcome, report, report', hreport, hreport', hunits ?_, hskipped _ houtcome⟩
  intro f hfragment
  rw [houtcome] at hfragment
  exact absurd hfragment (by simp)

end SceneWiring
