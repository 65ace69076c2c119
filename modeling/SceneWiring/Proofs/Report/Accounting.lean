import Mathlib.Algebra.GroupWithZero.Nat
import SceneWiring.Proofs.Report.Keys
import SceneWiring.Proofs.Report.Run

/-!
# Nothing is lost

Every candidate of a type that is not rejected gives a fragment or is skipped, and a type
has a unit if it has fragments.  The relations below say so for candidates and for types in
their order, without a run.  They leave no choice, so that what a run reports is what they
determine, and they keep count of everything that was found.

Main results:

- Definition `SharedOut`: candidates in order, as fragments and skips.
- Definition `Accounted`: types in order, as units and skips.
- Theorems `Accounted.sum_fragmentCount` and `Accounted.countP_isNone`: nothing is lost.
- Theorem `report_accounts_for_candidates`: what a run reports.
-/

namespace SceneWiring

section

variable (options : Options) (model : SemanticModel)

/-- The fragments and the skips of candidates in order: every candidate gives either one
fragment or one skip. -/
inductive SharedOut (typeName : String) :
    List Candidate → List Fragment → List Skipped → Prop
  | nil : SharedOut typeName [] [] []
  | fragment {c : Candidate} {rest : List Candidate} {injection : Injection}
      {fragments : List Fragment} {skips : List Skipped}
      (resolved : c.member.resolve options model typeName = .ok (some injection))
      (shared : SharedOut typeName rest fragments skips) :
      SharedOut typeName (c :: rest) (injection.fragment :: fragments) skips
  | skip {c : Candidate} {rest : List Candidate} {reason : SkipReason}
      {fragments : List Fragment} {skips : List Skipped}
      (failed : c.member.resolve options model typeName = .error reason)
      (shared : SharedOut typeName rest fragments skips) :
      SharedOut typeName (c :: rest) fragments (c.skip typeName reason :: skips)

/-- The units and the skips of types in order: a rejected type is skipped as a whole, and
of the others those with fragments have a unit. -/
inductive Accounted : List MarkedType → List CodeUnit → List Skipped → Prop
  | nil : Accounted [] [] []
  | rejected {t : MarkedType} {rest : List MarkedType} {units : List CodeUnit}
      {skips : List Skipped}
      (rejected : t.isRejected options)
      (accounted : Accounted rest units skips) :
      Accounted (t :: rest) units (t.rejection :: skips)
  | unit {t : MarkedType} {rest : List MarkedType} {units : List CodeUnit}
      {fragments : List Fragment} {own skips : List Skipped}
      (accepted : ¬ t.isRejected options)
      (shared : SharedOut options model t.enclosing.name t.candidates fragments own)
      (nonempty : fragments ≠ [])
      (accounted : Accounted rest units skips) :
      Accounted (t :: rest) (.assemble t.enclosing fragments options :: units) (own ++ skips)
  | barren {t : MarkedType} {rest : List MarkedType} {units : List CodeUnit}
      {own skips : List Skipped}
      (accepted : ¬ t.isRejected options)
      (shared : SharedOut options model t.enclosing.name t.candidates [] own)
      (accounted : Accounted rest units skips) :
      Accounted (t :: rest) units (own ++ skips)

end

section

variable {options : Options} {model : SemanticModel}

/-! ## Candidates of a type -/

namespace SharedOut

variable {typeName : String} {cs : List Candidate} {fragments : List Fragment}
  {skips : List Skipped}

/-- What becomes of marked candidates is shared out among fragments and skips. -/
theorem of_marked (options : Options) (model : SemanticModel) (typeName : String)
    (h : ∀ c ∈ cs, c.member.isMarked) :
    SharedOut options model typeName cs
      ((cs.map (Candidate.outcome options model typeName)).filterMap Outcome.fragment?)
      ((cs.map (Candidate.outcome options model typeName)).filterMap Outcome.skipped?) := by
  induction cs with
  | nil => exact .nil
  | cons c rest ih =>
      rw [List.forall_mem_cons] at h
      have hrest := ih h.2
      rw [List.map_cons, Candidate.outcome]
      cases hresolve : c.member.resolve options model typeName with
      | error reason => exact .skip hresolve hrest
      | ok injection? =>
          cases injection? with
          | some injection => exact .fragment hresolve hrest
          | none =>
              rw [Member.resolve_eq_none_iff, h.1] at hresolve
              exact absurd hresolve (by simp)

/-- Candidates can be shared out in one way only. -/
theorem unique {fragments' : List Fragment} {skips' : List Skipped}
    (h : SharedOut options model typeName cs fragments skips)
    (h' : SharedOut options model typeName cs fragments' skips') :
    fragments = fragments' ∧ skips = skips' := by
  induction h generalizing fragments' skips' with
  | nil =>
      cases h'
      exact ⟨rfl, rfl⟩
  | fragment resolved shared ih =>
      cases h' with
      | fragment resolved' shared' =>
          rw [resolved, Except.ok.injEq, Option.some.injEq] at resolved'
          rcases ih shared' with ⟨rfl, rfl⟩
          rw [resolved']
          exact ⟨rfl, rfl⟩
      | skip failed' shared' =>
          rw [resolved] at failed'
          exact absurd failed' (by simp)
  | skip failed shared ih =>
      cases h' with
      | fragment resolved' shared' =>
          rw [failed] at resolved'
          exact absurd resolved' (by simp)
      | skip failed' shared' =>
          rw [failed, Except.error.injEq] at failed'
          rcases ih shared' with ⟨rfl, rfl⟩
          rw [failed']
          exact ⟨rfl, rfl⟩

/-- There are as many fragments and skips together as candidates. -/
theorem length_add_length (h : SharedOut options model typeName cs fragments skips) :
    fragments.length + skips.length = cs.length := by
  induction h with
  | nil => rfl
  | fragment resolved shared ih =>
      simp only [List.length_cons]
      omega
  | skip failed shared ih =>
      simp only [List.length_cons]
      omega

/-- The skips of candidates are about members. -/
theorem isSome_member (h : SharedOut options model typeName cs fragments skips) :
    ∀ s ∈ skips, s.member.isSome := by
  induction h with
  | nil => simp
  | fragment resolved shared ih => exact ih
  | skip failed shared ih => exact List.forall_mem_cons.mpr ⟨rfl, ih⟩

/-- All skips of candidates are about members. -/
theorem countP_isSome (h : SharedOut options model typeName cs fragments skips) :
    skips.countP (fun s => s.member.isSome) = skips.length :=
  List.countP_eq_length.mpr h.isSome_member

/-- No skip of a candidate is about a whole type. -/
theorem countP_isNone (h : SharedOut options model typeName cs fragments skips) :
    skips.countP (fun s => s.member.isNone) = 0 := by
  rw [List.countP_eq_zero]
  intro s hs hnone
  have hsome := h.isSome_member s hs
  rw [Option.isNone_iff_eq_none] at hnone
  rw [hnone] at hsome
  exact absurd hsome (by simp)

end SharedOut

/-! ## Types -/

namespace Accounted

variable {ts : List MarkedType} {units : List CodeUnit} {skips : List Skipped}

/-- What types with marked candidates contribute accounts for them. -/
theorem of_marked (h : ∀ t ∈ ts, ∀ c ∈ t.candidates, c.member.isMarked) :
    Accounted options model ts
      ((ts.map (MarkedType.contribution options model)).filterMap Contribution.unit)
      ((ts.map (MarkedType.contribution options model)).flatMap Contribution.skipped) := by
  induction ts with
  | nil => exact .nil
  | cons t rest ih =>
      rw [List.forall_mem_cons] at h
      have hrest := ih h.2
      rw [List.map_cons, List.flatMap_cons]
      by_cases hrejected : t.isRejected options
      · have hunit : (t.contribution options model).unit = none := by
          rw [MarkedType.unit_contribution, if_neg (by simp [MarkedType.hasUnit, hrejected])]
        rw [List.filterMap_cons_none hunit, MarkedType.contribution, if_pos hrejected]
        exact .rejected hrejected hrest
      · have hshared : SharedOut options model t.enclosing.name t.candidates
            (t.fragments options model) (t.contribution options model).skipped := by
          rw [MarkedType.contribution, if_neg hrejected]
          exact .of_marked options model t.enclosing.name h.1
        by_cases hempty : t.fragments options model = []
        · have hunit : (t.contribution options model).unit = none := by
            rw [MarkedType.unit_contribution, if_neg (by simp [MarkedType.hasUnit, hempty])]
          rw [hempty] at hshared
          rw [List.filterMap_cons_none hunit]
          exact .barren hrejected hshared hrest
        · have hunit : (t.contribution options model).unit = some (t.unit options model) := by
            rw [MarkedType.unit_contribution,
              if_pos (by simp [MarkedType.hasUnit, hrejected, hempty])]
          rw [List.filterMap_cons_some hunit]
          exact .unit hrejected hshared hempty hrest

/-- Types can be accounted for in one way only. -/
theorem unique {units' : List CodeUnit} {skips' : List Skipped}
    (h : Accounted options model ts units skips)
    (h' : Accounted options model ts units' skips') : units = units' ∧ skips = skips' := by
  induction h generalizing units' skips' with
  | nil =>
      cases h'
      exact ⟨rfl, rfl⟩
  | rejected rejected accounted ih =>
      cases h' with
      | rejected _ accounted' =>
          rcases ih accounted' with ⟨rfl, rfl⟩
          exact ⟨rfl, rfl⟩
      | unit accepted' => exact absurd rejected accepted'
      | barren accepted' => exact absurd rejected accepted'
  | unit accepted shared nonempty accounted ih =>
      cases h' with
      | rejected rejected' => exact absurd rejected' accepted
      | unit _ shared' _ accounted' =>
          rcases ih accounted' with ⟨rfl, rfl⟩
          rcases shared.unique shared' with ⟨rfl, rfl⟩
          exact ⟨rfl, rfl⟩
      | barren _ shared' => exact absurd (shared.unique shared').1 nonempty
  | barren accepted shared accounted ih =>
      cases h' with
      | rejected rejected' => exact absurd rejected' accepted
      | unit _ shared' nonempty' => exact absurd (shared.unique shared').1.symm nonempty'
      | barren _ shared' accounted' =>
          rcases ih accounted' with ⟨rfl, rfl⟩
          rcases shared.unique shared' with ⟨-, rfl⟩
          exact ⟨rfl, rfl⟩

/-- No unit is empty. -/
theorem one_le_fragmentCount (h : Accounted options model ts units skips) :
    ∀ u ∈ units, 1 ≤ u.fragmentCount := by
  induction h with
  | nil => simp
  | rejected _ _ ih => exact ih
  | unit _ _ nonempty _ ih =>
      exact List.forall_mem_cons.mpr ⟨List.length_pos_iff.mpr nonempty, ih⟩
  | barren _ _ _ ih => exact ih

/-- The fragments of all units and the skipped members are together as many as the
candidates of the types that were not rejected. -/
theorem sum_fragmentCount (h : Accounted options model ts units skips) :
    (units.map CodeUnit.fragmentCount).sum + skips.countP (fun s => s.member.isSome) =
      ((ts.filter fun t => !t.isRejected options).map fun t => t.candidates.length).sum := by
  induction h with
  | nil => rfl
  | rejected rejected _ ih =>
      rw [List.filter_cons_of_neg (by simpa using rejected),
        List.countP_cons_of_neg (by simp [MarkedType.rejection])]
      exact ih
  | unit accepted shared _ _ ih =>
      have hown := shared.length_add_length
      rw [List.filter_cons_of_pos (by simpa using accepted), List.countP_append,
        shared.countP_isSome]
      simp only [List.map_cons, List.sum_cons, CodeUnit.assemble]
      omega
  | barren accepted shared _ ih =>
      have hown := shared.length_add_length
      rw [List.filter_cons_of_pos (by simpa using accepted), List.countP_append,
        shared.countP_isSome]
      simp only [List.map_cons, List.sum_cons, List.length_nil] at hown ⊢
      omega

/-- There are as many skips about whole types as rejected types. -/
theorem countP_isNone (h : Accounted options model ts units skips) :
    skips.countP (fun s => s.member.isNone) = ts.countP (MarkedType.isRejected options) := by
  induction h with
  | nil => rfl
  | rejected rejected _ ih =>
      rw [List.countP_cons_of_pos (by simp [MarkedType.rejection]),
        List.countP_cons_of_pos rejected, ih]
  | unit accepted shared _ _ ih =>
      rw [List.countP_append, shared.countP_isNone, List.countP_cons_of_neg accepted, ih,
        Nat.zero_add]
  | barren accepted shared _ ih =>
      rw [List.countP_append, shared.countP_isNone, List.countP_cons_of_neg accepted, ih,
        Nat.zero_add]

end Accounted

end

/-! ## Reports -/

/-- A run that nobody cancels has a report, with exactly the units and the skips that
account for the scanned types in their order; its units are given keys of their own.
Nothing is lost: the fragments of the units, none of which is empty, and the skipped
members are as many as the candidates of the types that were not rejected, and each of
the rejected types is skipped.  No candidate is passed over, since a declaration is a
candidate exactly if the analysis of its attributes finds something. -/
theorem report_accounts_for_candidates (options : Options) (model : SemanticModel)
    (c : Compilation) :
    (∃ report units,
      (generate options model c).result = .ok report ∧
      report.units = qualifyShared units ∧
      (∀ us skips, Accounted options model c.scan us skips ↔
        us = units ∧ skips = report.skipped) ∧
      (∀ u ∈ report.units, 1 ≤ u.fragmentCount) ∧
      (report.units.map CodeUnit.fragmentCount).sum +
          report.skipped.countP (fun s => s.member.isSome) =
        ((c.scan.filter fun t => !t.isRejected options).map fun t =>
          t.candidates.length).sum ∧
      report.skipped.countP (fun s => s.member.isNone) =
        c.scan.countP (MarkedType.isRejected options)) ∧
    (∀ t ∈ c.scan, ∀ candidate ∈ t.candidates, ∀ typeName,
      candidate.member.resolve options model typeName ≠ .ok none) ∧
    ∀ d : Decl, d.isMarked ↔ MarkerSet.ofAttributes? d.attributes ≠ .ok none := by
  have haccounted : Accounted options model c.scan _ _ :=
    .of_marked fun t ht candidate hmem => isMarked_of_mem_candidates ht hmem
  refine ⟨⟨_, _, result_generate options model c, rfl, ?_, ?_, ?_, ?_⟩, ?_, ?_⟩
  · intro us skips
    constructor
    · exact fun h => h.unique haccounted
    · rintro ⟨rfl, rfl⟩
      exact haccounted
  · intro u hu
    have hcount : u.fragmentCount ∈ (qualifyShared _).map CodeUnit.fragmentCount :=
      List.mem_map_of_mem hu
    rw [map_qualifyShared fun _ => rfl] at hcount
    rcases List.mem_map.mp hcount with ⟨u', hu', heq⟩
    rw [← heq]
    exact haccounted.one_le_fragmentCount u' hu'
  · have hsum := haccounted.sum_fragmentCount
    rw [← map_qualifyShared (f := CodeUnit.fragmentCount) fun _ => rfl] at hsum
    exact hsum
  · exact haccounted.countP_isNone
  · intro t ht candidate hmem typeName hnone
    rw [Member.resolve_eq_none_iff, isMarked_of_mem_candidates ht hmem] at hnone
    exact absurd hnone (by simp)
  · exact fun d => Decl.isMarked_iff

end SceneWiring
