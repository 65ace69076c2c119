import SceneWiring.Generation
import SceneWiring.Proofs.Marker.Analysis
import SceneWiring.Proofs.Scan.Grouping

/-!
# Runs that nobody cancels

What a type contributes to the report of a run that nobody cancels depends on that type
alone, so that such a run works on each type by itself and always has a report.  Candidates
of scanned types are marked, and resolving a marked member either succeeds or gives a reason.

Main results:

- Definition `MarkedType.contribution`: what a type contributes.
- Theorem `result_generate`: the report of a run that nobody cancels.
- Theorem `resolve_eq_none_iff`: only members without markers are passed over.
-/

namespace SceneWiring

/-! ## Runs -/

/-- What a type contributes if nobody cancels the run. -/
def MarkedType.contribution (options : Options) (model : SemanticModel) (t : MarkedType) :
    Contribution :=
  if t.isRejected options then .ofRejected t
  else .ofOutcomes options t (t.candidates.map (Candidate.outcome options model t.enclosing.name))

/-- Without a cancellation, something becomes of every candidate. -/
theorem workCandidates_none (decide : Candidate → Outcome) (cs : List Candidate) (p : Progress) :
    (workCandidates none decide cs p).2 = some (cs.map decide) := by
  induction cs generalizing p with
  | nil => rfl
  | cons c rest ih =>
      have hrest := ih (p.afterCandidate c (decide c))
      rw [workCandidates, if_neg (by simp [isCancelled])]
      simp only [hrest, Option.map_some, List.map_cons]

theorem workType_none (options : Options) (model : SemanticModel) (t : MarkedType)
    (p : Progress) :
    (workType none options model t p).2 = some (t.contribution options model) := by
  rw [workType, MarkedType.contribution]
  split
  · rfl
  · have hcandidates := workCandidates_none
      (Candidate.outcome options model t.enclosing.name) t.candidates p
    simp only [hcandidates, Option.map_some]

/-- Without a cancellation, every type contributes. -/
theorem workTypes_none (options : Options) (model : SemanticModel) (ts : List MarkedType)
    (p : Progress) :
    (workTypes none options model ts p).2 =
      some (ts.map (MarkedType.contribution options model)) := by
  induction ts generalizing p with
  | nil => rfl
  | cons t rest ih =>
      have htype := workType_none options model t p
      rw [workTypes]
      split
      · rename_i q hwork
        rw [hwork] at htype
        exact absurd htype (by simp)
      · rename_i q contribution hwork
        rw [hwork] at htype
        obtain rfl : contribution = t.contribution options model := by simpa using htype
        simp only [ih q, Option.map_some, List.map_cons]

/-- A run that nobody cancels has a report, of what each type contributes by itself. -/
theorem result_generate (options : Options) (model : SemanticModel) (c : Compilation) :
    (generate options model c).result =
      .ok (.ofContributions (c.scan.map (MarkedType.contribution options model))) := by
  have htypes := workTypes_none options model c.scan {}
  rw [generate, run]
  split
  · rename_i p hwork
    rw [hwork] at htypes
    exact absurd htypes (by simp)
  · rename_i p contributions hwork
    rw [hwork] at htypes
    obtain rfl : contributions = c.scan.map (MarkedType.contribution options model) := by
      simpa using htypes
    rfl

/-! ## Units -/

/-- The fragments of the candidates of a type. -/
def MarkedType.fragments (options : Options) (model : SemanticModel) (t : MarkedType) :
    List Fragment :=
  (t.candidates.map (Candidate.outcome options model t.enclosing.name)).filterMap
    Outcome.fragment?

/-- Whether a type has a unit. -/
def MarkedType.hasUnit (options : Options) (model : SemanticModel) (t : MarkedType) : Bool :=
  !t.isRejected options && !(t.fragments options model).isEmpty

/-- The unit that a type has, if it has one. -/
def MarkedType.unit (options : Options) (model : SemanticModel) (t : MarkedType) : CodeUnit :=
  .assemble t.enclosing (t.fragments options model) options

/-- The types with units. -/
def Compilation.unitTypes (options : Options) (model : SemanticModel) (c : Compilation) :
    List MarkedType :=
  c.scan.filter (MarkedType.hasUnit options model)

theorem MarkedType.unit_contribution (options : Options) (model : SemanticModel)
    (t : MarkedType) :
    (t.contribution options model).unit =
      if t.hasUnit options model then some (t.unit options model) else none := by
  by_cases hrejected : t.isRejected options
  · have hunit : ¬ t.hasUnit options model := by simp [hasUnit, hrejected]
    rw [contribution, if_pos hrejected, if_neg hunit, Contribution.ofRejected]
  · have hunit : t.hasUnit options model = !(t.fragments options model).isEmpty := by
      simp [hasUnit, hrejected]
    rw [contribution, if_neg hrejected, hunit]
    change (if (t.fragments options model).isEmpty then none else some (t.unit options model)) = _
    cases (t.fragments options model).isEmpty with
    | false => rfl
    | true => rfl

/-- The units before they are given keys of their own. -/
theorem filterMap_unit_contribution (options : Options) (model : SemanticModel)
    (ts : List MarkedType) :
    (ts.map (MarkedType.contribution options model)).filterMap Contribution.unit =
      (ts.filter (MarkedType.hasUnit options model)).map (MarkedType.unit options model) := by
  induction ts with
  | nil => rfl
  | cons t rest ih =>
      have hunit := t.unit_contribution options model
      rw [List.map_cons]
      by_cases h : t.hasUnit options model
      · rw [if_pos h] at hunit
        rw [List.filterMap_cons_some hunit, List.filter_cons_of_pos h, List.map_cons, ih]
      · rw [if_neg h] at hunit
        rw [List.filterMap_cons_none hunit, List.filter_cons_of_neg h, ih]

/-- The units of the report of a run that nobody cancels. -/
theorem units_generate {options : Options} {model : SemanticModel} {c : Compilation}
    {report : Report} (h : (generate options model c).result = .ok report) :
    report.units =
      qualifyShared ((c.unitTypes options model).map (MarkedType.unit options model)) := by
  rw [result_generate, Except.ok.injEq] at h
  rw [← h, Report.ofContributions, filterMap_unit_contribution]
  rfl

/-! ## Candidates -/

/-- Only members without markers are passed over. -/
theorem Member.resolve_eq_none_iff {options : Options} {model : SemanticModel}
    {typeName : String} {m : Member} :
    m.resolve options model typeName = .ok none ↔ m.isMarked = false := by
  have hmarked : m.isMarked = false ↔ MarkerSet.ofAttributes? m.attributes = .ok none := by
    rw [MarkerSet.ofAttributes?_eq_none_iff, ← Bool.not_eq_true, Member.isMarked_iff, not_not]
  rw [hmarked, resolve_eq]
  cases MarkerSet.ofAttributes? m.attributes with
  | error reason => simp
  | ok markers? =>
      cases markers? with
      | none => simp
      | some markers =>
          cases m.signature with
          | error reason => simp
          | ok signature => cases model m <;> simp

/-- Resolving a member does not ask whether its type is partial. -/
theorem Member.resolve_ne_notPartial (options : Options) (model : SemanticModel)
    (typeName : String) (m : Member) :
    m.resolve options model typeName ≠ .error .notPartial := by
  have hmarkers : MarkerSet.ofAttributes? m.attributes ≠ .error .notPartial := by
    rw [MarkerSet.ofAttributes?_eq]
    cases strategiesIn m.attributes with
    | nil => simp [Strategy.agreed?, Except.map]
    | cons s rest =>
        rw [Strategy.agreed?]
        split <;> simp [Except.map]
  have hsignature : m.signature ≠ .error .notPartial := by
    cases m with
    | field f =>
        rw [signature]
        repeat' split
        all_goals simp
    | property p =>
        rw [signature]
        split <;> simp
    | method _ => simp [signature]
  rw [resolve_eq]
  cases hset : MarkerSet.ofAttributes? m.attributes with
  | error reason => simpa [hset] using hmarkers
  | ok markers? =>
      cases markers? with
      | none => simp
      | some markers =>
          cases hsign : m.signature with
          | error reason => simpa [hsign] using hsignature
          | ok signature => cases model m <;> simp

/-- The candidates of a scanned type are marked. -/
theorem isMarked_of_mem_candidates {c : Compilation} {t : MarkedType} (ht : t ∈ c.scan)
    {candidate : Candidate} (h : candidate ∈ t.candidates) : candidate.member.isMarked := by
  have hmem : candidate ∈ c.scan.flatMap MarkedType.candidates :=
    List.mem_flatMap.mpr ⟨t, ht, h⟩
  rw [flatMap_candidates_scan, (perm_flatMap_candidatesUnder c.grounded_sites).mem_iff] at hmem
  rcases List.mem_map.mp hmem with ⟨s, hs, rfl⟩
  have hcandidate := (List.mem_filter.mp hs).2
  rw [MemberSite.isCandidate, Bool.and_eq_true] at hcandidate
  exact hcandidate.1

end SceneWiring
