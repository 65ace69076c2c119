import SceneWiring.Proofs.Report.Isolation
import SceneWiring.Proofs.Report.Ownership

/-!
# Members that cannot be filled

A marked member is not filled if its strategies conflict, if no statement can assign to it, or if
the model knows no symbol for it.  No statement can assign to methods, to fields that do not
declare exactly one variable or have a modifier that fixes them, and to properties without a
setter.  Any of these obstacles keeps a member out of all units, and nothing else does.  Modifiers
of properties are not looked at.

Main results:

- Definition `Member.Obstacle`: what keeps a marked member from being filled.
- Theorem `Member.exists_resolve_iff`: a member is resolved if it is marked and free of obstacles.
- Theorem `Member.obstacle_of_resolve`: a member is skipped for the first of its obstacles.
- Theorem `units_fill_unobstructed`: what the units fill and what is skipped instead.
- Theorem `fixedProperty_filled`: a property with a modifier that fixes fields is filled.
-/

namespace SceneWiring

/-! ## Obstacles -/

/-- Members that no statement can assign to, with the reason that is reported for it. -/
inductive Member.Unfit : Member → SkipReason → Prop
  | method (m : MethodDecl) : Unfit (.method m) .unsupportedMemberKind
  | variableCount {f : FieldDecl} (h : f.variableNames.length ≠ 1) :
      Unfit (.field f) .multipleVariables
  | modifier {f : FieldDecl} {modifier : String} (hmem : modifier ∈ f.modifiers)
      (h : Text.trim modifier ∈ fixedModifiers) : Unfit (.field f) .notAssignable
  | setter {p : PropertyDecl} (h : p.hasSetter = false) : Unfit (.property p) .notAssignable

/-- What keeps a marked member from being filled, with the reason that is reported for it. -/
inductive Member.Obstacle (model : SemanticModel) (m : Member) : SkipReason → Prop
  /-- Two of its attributes are different strategies. -/
  | strategies {a b : Attribute} {s s' : Strategy} (ha : a ∈ m.attributes)
      (hb : b ∈ m.attributes) (hs : Strategy.ofName? a.name = some s)
      (hs' : Strategy.ofName? b.name = some s') (hne : s ≠ s') :
      Obstacle model m .conflictingStrategies
  | unfit {reason : SkipReason} (h : m.Unfit reason) : Obstacle model m reason
  | symbol (h : model m = none) : Obstacle model m .unresolvedSymbol

/-- Which obstacle is reported if there are several: the one of the lowest rank. -/
def SkipReason.rank : SkipReason → Nat
  | .conflictingStrategies => 0
  | .unsupportedMemberKind => 1
  | .multipleVariables => 2
  | .notAssignable => 3
  | .unresolvedSymbol => 4
  | .notPartial => 5

theorem Member.Unfit.rank_mem {m : Member} {reason : SkipReason} (h : m.Unfit reason) :
    0 < reason.rank ∧ reason.rank < 4 := by
  cases h <;> decide

/-- A member without a signature is unfit, and the reason given is the first one. -/
theorem Member.unfit_of_signature {m : Member} {reason : SkipReason}
    (h : m.signature = .error reason) :
    m.Unfit reason ∧ ∀ other, m.Unfit other → reason.rank ≤ other.rank := by
  cases m with
  | field f =>
      rw [signature] at h
      split at h
      · rename_i declared hvariables
        split at h
        · rename_i hfixed
          obtain rfl : SkipReason.notAssignable = reason := by simpa using h
          rcases List.any_eq_true.mp hfixed with ⟨modifier, hmem, hin⟩
          refine ⟨.modifier hmem (by simpa using hin), ?_⟩
          intro other hother
          cases hother with
          | variableCount hlength => exact absurd (by rw [hvariables]; rfl) hlength
          | modifier _ _ => exact Nat.le_refl _
        · exact absurd h (by simp)
      · rename_i hvariables
        obtain rfl : SkipReason.multipleVariables = reason := by simpa using h
        refine ⟨.variableCount ?_, ?_⟩
        · intro hlength
          rcases List.length_eq_one_iff.mp hlength with ⟨declared, hsingle⟩
          exact hvariables declared hsingle
        · intro other hother
          cases hother <;> decide
  | property p =>
      rw [signature] at h
      split at h
      · exact absurd h (by simp)
      · rename_i hsetter
        obtain rfl : SkipReason.notAssignable = reason := by simpa using h
        refine ⟨.setter (by simpa using hsetter), ?_⟩
        intro other hother
        cases hother
        exact Nat.le_refl _
  | method m =>
      obtain rfl : SkipReason.unsupportedMemberKind = reason := by simpa [signature] using h
      refine ⟨.method m, ?_⟩
      intro other hother
      cases hother
      exact Nat.le_refl _

/-- A member with a signature is not unfit. -/
theorem Member.not_unfit_of_signature {m : Member} {signature : Signature}
    (h : m.signature = .ok signature) (reason : SkipReason) : ¬ m.Unfit reason := by
  intro hunfit
  cases hunfit with
  | method m => exact absurd h (by simp [Member.signature])
  | @variableCount f hlength =>
      rw [Member.signature] at h
      split at h
      · rename_i declared hvariables
        exact hlength (by rw [hvariables]; rfl)
      · exact absurd h (by simp)
  | @modifier f modifier hmem hfixed =>
      have hany : (f.modifiers.any fun m => fixedModifiers.contains (Text.trim m)) = true :=
        List.any_eq_true.mpr ⟨modifier, hmem, by simpa using hfixed⟩
      rw [Member.signature] at h
      split at h
      · rw [if_pos hany] at h
        exact absurd h (by simp)
      · exact absurd h (by simp)
  | setter hsetter => exact absurd h (by simp [Member.signature, hsetter])

/-! ## Strategies -/

/-- Strategies do not agree exactly if two of them are different. -/
theorem Strategy.agreed?_eq_error_iff {list : List Strategy} {reason : SkipReason} :
    agreed? list = .error reason ↔
      reason = .conflictingStrategies ∧ ∃ s ∈ list, ∃ s' ∈ list, s ≠ s' := by
  cases list with
  | nil => simp [agreed?]
  | cons first rest =>
      rw [agreed?]
      by_cases hsame : rest.all (· == first)
      · rw [if_pos hsame]
        have hall : ∀ s ∈ first :: rest, s = first := by
          simpa [List.all_eq_true] using hsame
        constructor
        · intro h
          exact absurd h (by simp)
        · rintro ⟨-, s, hs, s', hs', hne⟩
          exact absurd ((hall s hs).trans (hall s' hs').symm) hne
      · rw [if_neg hsame, Except.error.injEq]
        have hother : ∃ s ∈ rest, s ≠ first := by
          simpa [List.all_eq_true] using hsame
        constructor
        · rintro rfl
          rcases hother with ⟨s, hs, hne⟩
          exact ⟨rfl, s, List.mem_cons_of_mem _ hs, first, List.mem_cons_self, hne⟩
        · rintro ⟨rfl, -⟩
          rfl

/-- The markers of a member conflict exactly if two of its attributes are different strategies. -/
theorem Member.markers_eq_error_iff (model : SemanticModel) {m : Member} {reason : SkipReason} :
    MarkerSet.ofAttributes? m.attributes = .error reason ↔
      reason = .conflictingStrategies ∧ m.Obstacle model .conflictingStrategies := by
  have hmarkers : MarkerSet.ofAttributes? m.attributes = .error reason ↔
      Strategy.agreed? (strategiesIn m.attributes) = .error reason := by
    rw [MarkerSet.ofAttributes?_eq]
    cases Strategy.agreed? (strategiesIn m.attributes) <;> simp [Except.map]
  rw [hmarkers, Strategy.agreed?_eq_error_iff]
  apply and_congr_right
  intro _
  constructor
  · rintro ⟨s, hs, s', hs', hne⟩
    rcases List.mem_filterMap.mp hs with ⟨a, ha, hname⟩
    rcases List.mem_filterMap.mp hs' with ⟨b, hb, hname'⟩
    exact .strategies ha hb hname hname' hne
  · intro h
    cases h with
    | strategies ha hb hs hs' hne =>
        exact ⟨_, List.mem_filterMap.mpr ⟨_, ha, hs⟩, _, List.mem_filterMap.mpr ⟨_, hb, hs'⟩, hne⟩
    | unfit hunfit => exact absurd hunfit.rank_mem.1 (by decide)

/-- Attributes with markers do not conflict. -/
theorem Member.not_conflict_of_markers (model : SemanticModel) {m : Member}
    {markers? : Option MarkerSet} (h : MarkerSet.ofAttributes? m.attributes = .ok markers?) :
    ¬ m.Obstacle model .conflictingStrategies := by
  intro hconflict
  rw [(markers_eq_error_iff model).mpr ⟨rfl, hconflict⟩] at h
  exact absurd h (by simp)

/-! ## Resolving members -/

section

variable {options : Options} {model : SemanticModel} {typeName : String} {m : Member}

/-- A member that is not resolved is skipped for its first obstacle. -/
theorem Member.obstacle_of_resolve {reason : SkipReason}
    (h : m.resolve options model typeName = .error reason) :
    m.Obstacle model reason ∧ ∀ other, m.Obstacle model other → reason.rank ≤ other.rank := by
  rw [resolve_eq] at h
  split at h
  · rename_i hmarkers
    rw [Except.error.injEq] at h
    rw [h] at hmarkers
    rcases (markers_eq_error_iff model).mp hmarkers with ⟨rfl, hobstacle⟩
    exact ⟨hobstacle, fun _ _ => Nat.zero_le _⟩
  · exact absurd h (by simp)
  · rename_i hmarkers hsignature
    rw [Except.error.injEq] at h
    rw [h] at hsignature
    rcases unfit_of_signature hsignature with ⟨hunfit, hfirst⟩
    refine ⟨.unfit hunfit, ?_⟩
    intro other hother
    cases hother with
    | strategies ha hb hs hs' hne =>
        exact absurd (.strategies ha hb hs hs' hne)
          (not_conflict_of_markers model hmarkers)
    | unfit hunfit' => exact hfirst other hunfit'
    | symbol _ => exact Nat.le_of_lt hunfit.rank_mem.2
  · rename_i hmarkers hsignature hmodel
    obtain rfl : SkipReason.unresolvedSymbol = reason := by simpa using h
    refine ⟨.symbol hmodel, ?_⟩
    intro other hother
    cases hother with
    | strategies ha hb hs hs' hne =>
        exact absurd (.strategies ha hb hs hs' hne)
          (not_conflict_of_markers model hmarkers)
    | unfit hunfit => exact absurd hunfit (not_unfit_of_signature hsignature other)
    | symbol _ => exact Nat.le_refl _
  · exact absurd h (by simp)

/-- Nothing was in the way of a member that is resolved. -/
theorem Member.not_obstacle_of_resolve {injection : Injection}
    (h : m.resolve options model typeName = .ok (some injection)) (reason : SkipReason) :
    ¬ m.Obstacle model reason := by
  rw [resolve_eq] at h
  split at h
  · exact absurd h (by simp)
  · exact absurd h (by simp)
  · exact absurd h (by simp)
  · exact absurd h (by simp)
  · rename_i hmarkers hsignature hmodel
    intro hobstacle
    cases hobstacle with
    | strategies ha hb hs hs' hne =>
        exact absurd (.strategies ha hb hs hs' hne)
          (not_conflict_of_markers model hmarkers)
    | unfit hunfit => exact not_unfit_of_signature hsignature reason hunfit
    | symbol hnone => exact absurd (hmodel.symm.trans hnone) (by simp)

/-- A member is resolved if it is marked and nothing is in the way. -/
theorem Member.exists_resolve_iff :
    (∃ injection, m.resolve options model typeName = .ok (some injection)) ↔
      m.isMarked ∧ ∀ reason, ¬ m.Obstacle model reason := by
  constructor
  · rintro ⟨injection, h⟩
    refine ⟨?_, not_obstacle_of_resolve h⟩
    by_contra hunmarked
    rw [Bool.not_eq_true] at hunmarked
    have hnone : m.resolve options model typeName = .ok none := resolve_eq_none_iff.mpr hunmarked
    rw [h] at hnone
    exact absurd hnone (by simp)
  · rintro ⟨hmarked, hfree⟩
    cases hresolve : m.resolve options model typeName with
    | error reason => exact absurd (obstacle_of_resolve hresolve).1 (hfree reason)
    | ok injection? =>
        cases injection? with
        | some injection => exact ⟨injection, rfl⟩
        | none =>
            rw [resolve_eq_none_iff, hmarked] at hresolve
            exact absurd hresolve (by simp)

end

/-! ## Reports -/

section

variable {options : Options} {model : SemanticModel} {c : Compilation}

/-- The fragments of a type come from the members that are marked and free of obstacles. -/
theorem mem_filledMembers_iff {key typeName : String} {o : OwnedMember} :
    o ∈ c.filledMembers options model key typeName ↔
      o ∈ c.ownedMembers ∧ o.site.isCandidateUnder key ∧
        ∀ reason, ¬ o.site.member.Obstacle model reason := by
  have hfragment : (o.site.candidate.outcome options model typeName).fragment?.isSome ↔
      ∃ injection, o.site.member.resolve options model typeName = .ok (some injection) := by
    rw [Candidate.outcome, MemberSite.candidate]
    cases o.site.member.resolve options model typeName with
    | error reason => simp [Outcome.fragment?]
    | ok injection? => cases injection? <;> simp [Outcome.fragment?]
  rw [Compilation.filledMembers, List.mem_filter, List.mem_filter, hfragment,
    Member.exists_resolve_iff, and_assoc]
  apply and_congr_right
  intro _
  apply and_congr_right
  intro hunder
  rw [MemberSite.isCandidateUnder, Bool.and_eq_true] at hunder
  exact and_iff_right hunder.1

/-- A marked member inside a type is a candidate of a scanned type. -/
theorem exists_type_of_isCandidate {s : MemberSite} (hs : s ∈ Site.membersIn c.sites)
    (h : s.isCandidate) :
    ∃ key t, s.ownerKey? = some key ∧ (key, t) ∈ c.typesByKey ∧ s.candidate ∈ t.candidates := by
  rw [MemberSite.isCandidate, Bool.and_eq_true] at h
  rcases Option.isSome_iff_exists.mp h.2 with ⟨key, hkey⟩
  have hunder : s.isCandidateUnder key := by
    rw [MemberSite.isCandidateUnder, h.1, hkey]
    simp
  have hcandidate : s.candidate ∈ Site.candidatesUnder key c.sites :=
    List.mem_map_of_mem (List.mem_filter.mpr ⟨hs, hunder⟩)
  have hmarked : key ∈ Site.markedKeys c.sites := by
    rw [Site.markedKeys, List.mem_filter]
    refine ⟨?_, by simpa using List.ne_nil_of_mem hcandidate⟩
    by_contra hnot
    rw [c.grounded_sites.candidatesUnder_eq_nil hnot] at hcandidate
    exact absurd hcandidate (by simp)
  rw [← c.map_fst_typesByKey, List.mem_map] at hmarked
  rcases hmarked with ⟨⟨k, t⟩, hmem, rfl⟩
  rcases c.gathers_of_mem_typesByKey hmem with ⟨first, others, hgathers⟩
  exact ⟨k, t, hkey, hmem, hgathers.candidates_eq ▸ hcandidate⟩

/-- A candidate that is not resolved is skipped unless its type is rejected. -/
theorem skip_mem_skipped_of_resolve {t : MarkedType} (ht : t ∈ c.scan) {candidate : Candidate}
    (hcandidate : candidate ∈ t.candidates) (haccepted : ¬ t.isRejected options)
    {reason : SkipReason}
    (h : candidate.member.resolve options model t.enclosing.name = .error reason) :
    candidate.skip t.enclosing.name reason ∈
      (Report.ofContributions (c.scan.map (MarkedType.contribution options model))).skipped := by
  rw [Report.ofContributions, List.flatMap_map]
  refine List.mem_flatMap.mpr ⟨t, ht, ?_⟩
  rw [MarkedType.contribution, if_neg haccepted, Contribution.ofOutcomes]
  refine List.mem_filterMap.mpr ⟨_, List.mem_map_of_mem hcandidate, ?_⟩
  rw [Candidate.outcome, h]
  rfl

end

/-- Each unit fills the marked members directly inside its type that are free of obstacles, and no
others.  A marked member with an obstacle, directly inside a type that is not rejected, is skipped
for the first one that it has. -/
theorem units_fill_unobstructed (options : Options) (model : SemanticModel) (c : Compilation) :
    ∃ report, (generate options model c).result = .ok report ∧
      List.Forall₂
        (fun o u => ∃ members, u.Fills options model o.2.enclosing members ∧
          ∀ m, m ∈ members ↔ m ∈ c.ownedMembers ∧ m.site.isCandidateUnder o.1 ∧
            ∀ reason, ¬ m.site.member.Obstacle model reason)
        (c.unitTypesByKey options model) report.units ∧
      ∀ s ∈ Site.membersIn c.sites, s.isCandidate → ∀ reason, s.member.Obstacle model reason →
        ∃ key t, s.ownerKey? = some key ∧ (key, t) ∈ c.typesByKey ∧
          (¬ t.isRejected options →
            ∃ first, s.member.Obstacle model first ∧
              (∀ other, s.member.Obstacle model other → first.rank ≤ other.rank) ∧
              s.candidate.skip t.enclosing.name first ∈ report.skipped) := by
  refine ⟨_, result_generate options model c, ?_, ?_⟩
  · apply (forall₂_fills_units (result_generate options model c)).imp
    rintro o u ⟨-, hfills⟩
    exact ⟨_, hfills, fun m => mem_filledMembers_iff⟩
  · intro s hs hcandidate reason hobstacle
    rcases exists_type_of_isCandidate hs hcandidate with ⟨key, t, hkey, hmem, hlisted⟩
    refine ⟨key, t, hkey, hmem, ?_⟩
    intro haccepted
    have ht : t ∈ c.scan := by
      rw [← c.map_snd_typesByKey]
      exact List.mem_map_of_mem hmem
    rw [MemberSite.isCandidate, Bool.and_eq_true] at hcandidate
    cases hresolve : s.member.resolve options model t.enclosing.name with
    | error first =>
        rcases Member.obstacle_of_resolve hresolve with ⟨hfirst, hleast⟩
        exact ⟨first, hfirst, hleast, skip_mem_skipped_of_resolve ht hlisted haccepted hresolve⟩
    | ok injection? =>
        cases injection? with
        | some injection =>
            exact absurd hobstacle (Member.not_obstacle_of_resolve hresolve reason)
        | none =>
            rw [Member.resolve_eq_none_iff, hcandidate.1] at hresolve
            exact absurd hresolve (by simp)

/-- A property with a setter and a modifier that fixes fields. -/
def fixedExit : PropertyDecl where
  type := "Door"
  name := "Exit"
  modifiers := ["readonly"]
  attributes := [⟨"Get", []⟩]
  hasSetter := true
  location := .unknown

/-- A type with this property. -/
def roomWithFixedExit : Compilation where
  files :=
    [⟨"Room.cs", [.type ⟨"Room", ["partial"], [], .unknown⟩ [.member (.property fixedExit)]]⟩]

/-- What the scan makes of it. -/
def roomType : MarkedType where
  first := ⟨"Room", ["partial"], [], .unknown⟩
  others := []
  containers := []
  namespaces := []
  file := "Room.cs"
  usings := []
  candidates := [⟨.property fixedExit, "Room.cs"⟩]

/-- The modifier that fixes fields does not keep a unit from filling the property. -/
theorem fixedProperty_filled :
    (∃ modifier ∈ fixedExit.modifiers, Text.trim modifier ∈ fixedModifiers) ∧
      ∃ report, (generate .default .ofDeclarations roomWithFixedExit).result = .ok report ∧
        report.skipped = [] ∧
        roomWithFixedExit.unitTypes .default .ofDeclarations = [roomType] ∧
        ∃ u, report.units = [u] ∧
          u.Fills .default .ofDeclarations roomType.enclosing roomWithFixedExit.ownedMembers ∧
          roomWithFixedExit.ownedMembers.map (fun o => o.site.member) = [.property fixedExit] := by
  have htypes : roomWithFixedExit.unitTypes .default .ofDeclarations = [roomType] := by
    decide +kernel
  have houtcomes : (roomWithFixedExit.ownedMembers.map fun o =>
      o.site.candidate.outcome .default .ofDeclarations roomType.enclosing.name) =
        (roomType.fragments .default .ofDeclarations).map Outcome.fragment := by
    decide +kernel
  refine ⟨⟨"readonly", by decide, by decide +kernel⟩, _, result_generate _ _ _,
    by decide +kernel, htypes, roomType.unit .default .ofDeclarations, ?_, ⟨_, ?_, rfl, rfl⟩,
    by decide +kernel⟩
  · rw [units_generate (result_generate _ _ _), htypes, List.map_singleton,
      qualifyShared_singleton]
  · exact map_eq_map_iff_forall₂.mp houtcomes

end SceneWiring
