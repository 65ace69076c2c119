import SceneWiring.Proofs.Marker.Modifiers
import SceneWiring.Proofs.Report.Isolation
import SceneWiring.Proofs.Report.Ownership
import SceneWiring.Proofs.Report.UnitLines
import SceneWiring.Proofs.Scan.Substitution

/-!
# Members without a null check

The guard of a fragment is one statement, and the statement becomes one line of one unit.  A
member that says in its attributes that it needs no check still gives its fragment, in the same
place and with the same request, but without the guard.  So this line is all that the report
loses.

Main results:

- Definition `CodeUnit.DropsLine`: a unit and the same unit without one of its lines.
- Theorem `Candidate.outcome_skipNullCheck`: what becomes of a member without the check.
- Theorem `assemble_dropsLine`: a unit with one guard less.
- Theorem `skipNullCheck_drops_guard`: what the report loses.
-/

namespace SceneWiring

/-! ## Fragments -/

/-- A fragment without its guard. -/
def Fragment.withoutGuard (f : Fragment) : Fragment :=
  { f with guard := none }

/-- The guard is the last statement of a fragment. -/
theorem statements_of_guard {f : Fragment} {guard : Guard} (h : f.guard = some guard) :
    f.statements = f.withoutGuard.statements ++ [guard.render] := by
  rw [Fragment.statements, h]
  rfl

/-- A member that gives a fragment with a guard gives the same fragment without it if one of its
attributes says that it needs no check. -/
theorem Candidate.outcome_skipNullCheck {options : Options} {typeName file : String} {m : Member}
    {before after : List Attribute} {a : Attribute} {f : Fragment}
    (hattributes : m.attributes = before ++ after)
    (ha : Marker.ofName? a.name = some (.modifier .skipNullCheck))
    (hm : m.carries .skipNullCheck = false)
    (h : outcome options .ofDeclarations typeName ⟨m, file⟩ = .fragment f) :
    (∃ guard, f.guard = some guard) ∧
      outcome options .ofDeclarations typeName
        ⟨m.withAttributes (before ++ a :: after), file⟩ = .fragment f.withoutGuard := by
  rcases outcome_eq_fragment_iff.mp h with ⟨i, hresolve, rfl⟩
  have hedit : ModifierEdit .skipNullCheck m.attributes (before ++ a :: after) := by
    rw [hattributes]
    exact .insert before after ha
  have hcarries : (m.withAttributes (before ++ a :: after)).carries .skipNullCheck := by
    rw [Member.carries, Member.attributes_withAttributes, List.contains_eq_mem, decide_eq_true_eq,
      mem_modifiersIn_insert ha]
    exact Or.inl rfl
  have hrequest : (m.withAttributes (before ++ a :: after)).carries .injectInPlay =
      m.carries .injectInPlay := by
    rw [Member.carries, Member.carries, Member.attributes_withAttributes,
      hedit.contains_eq (by decide)]
  refine ⟨⟨i.guard, by rw [Injection.guard_fragment hresolve, hm]; rfl⟩, ?_⟩
  rw [outcome_withAttributes_of_calls hedit.calls, hresolve]
  change Outcome.fragment _ = _
  rw [Injection.fragment_of_edit hresolve hedit (by decide) (by decide), hcarries, hrequest,
    ← Injection.injectInPlay_fragment hresolve]
  rfl

/-! ## Units -/

/-- A unit and the same unit without one of the lines of its text. -/
def CodeUnit.DropsLine (above : List String) (line : String) (u u' : CodeUnit) : Prop :=
  ∃ below, u.text = textOfLines above ++ (line ++ "\n") ++ below ∧
    u' = { u with text := textOfLines above ++ below }

/-- This is so under any key that the units are given among others. -/
theorem CodeUnit.DropsLine.among {above : List String} {line : String} {u u' : CodeUnit}
    (h : u.DropsLine above line u') (keys : List String) :
    (u.among keys).DropsLine above line (u'.among keys) := by
  rcases h with ⟨below, htext, rfl⟩
  refine ⟨below, ?_, ?_⟩
  · rw [CodeUnit.among]
    split <;> exact htext
  · rw [CodeUnit.among, CodeUnit.among]
    split <;> rfl

/-- The unit of a type with one guard less. -/
theorem assemble_dropsLine (t : EnclosingType) {f : Fragment} {guard : Guard}
    (h : f.guard = some guard) (fs gs : List Fragment) (options : Options) :
    (CodeUnit.assemble t (fs ++ f :: gs) options).DropsLine
      (t.linesThrough (CodeUnit.assemble t (fs ++ f :: gs) options).hook
        (fs ++ [f.withoutGuard]))
      (t.statementLine guard.render)
      (CodeUnit.assemble t (fs ++ f.withoutGuard :: gs) options) := by
  let hook := (CodeUnit.assemble t (fs ++ f :: gs) options).hook
  have hhook : options.hook (wantsPlayHook (fs ++ f.withoutGuard :: gs)) = hook := by
    simp only [hook, CodeUnit.assemble, wantsPlayHook, List.any_append, List.any_cons,
      Fragment.withoutGuard]
  have hthrough : t.linesThrough hook (fs ++ [f]) =
      t.linesThrough hook (fs ++ [f.withoutGuard]) ++ [t.statementLine guard.render] := by
    simp [EnclosingType.linesThrough, statements_of_guard h]
  let below := (gs.flatMap Fragment.statements).map t.statementLine ++ t.linesBelow
  have hlines : ∀ f', layOut 0 (unitSteps t hook (fs ++ f' :: gs)) =
      t.linesThrough hook (fs ++ [f']) ++ below := by
    intro f'
    rw [← layOut_unitSteps_append, List.append_assoc, List.singleton_append]
  refine ⟨textOfLines below, ?_, ?_⟩
  · change textOfLines (layOut 0 (unitSteps t hook (fs ++ f :: gs))) = _
    rw [hlines, hthrough, textOfLines_append, textOfLines_append, textOfLines_cons]
    exact congrArg (fun line => textOfLines _ ++ line ++ textOfLines below) String.append_empty
  · rw [← textOfLines_append, ← hlines, CodeUnit.assemble, hhook, List.length_append,
      List.length_cons, ← List.length_cons (a := f), ← List.length_append]
    rfl

/-! ## Reports -/

section

variable {options : Options} {model : SemanticModel}

/-- What a type contributes of which one candidate gives a given fragment. -/
theorem MarkedType.contribution_of_fragment {t : MarkedType} (haccepted : ¬ t.isRejected options)
    {c : Candidate} {f : Fragment}
    (h : c.outcome options model t.enclosing.name = .fragment f) (pre post : List Candidate) :
    (t.withCandidates (pre ++ c :: post)).contribution options model =
      ⟨some (.assemble t.enclosing
          ((t.withCandidates pre).fragments options model ++
            f :: (t.withCandidates post).fragments options model) options),
        ((pre ++ post).map (Candidate.outcome options model t.enclosing.name)).filterMap
          Outcome.skipped?⟩ := by
  have hfragments : ((pre ++ c :: post).map
      (Candidate.outcome options model t.enclosing.name)).filterMap Outcome.fragment? =
        (t.withCandidates pre).fragments options model ++
          f :: (t.withCandidates post).fragments options model := by
    simp only [fragments_withCandidates, List.map_append, List.map_cons, h,
      List.filterMap_append]
    rfl
  have hskipped : ((pre ++ c :: post).map
      (Candidate.outcome options model t.enclosing.name)).filterMap Outcome.skipped? =
        ((pre ++ post).map (Candidate.outcome options model t.enclosing.name)).filterMap
          Outcome.skipped? := by
    simp only [List.map_append, List.map_cons, h, List.filterMap_append]
    rfl
  rw [contribution, isRejected_withCandidates, if_neg haccepted]
  change Contribution.ofOutcomes options (t.withCandidates (pre ++ c :: post))
    ((pre ++ c :: post).map (Candidate.outcome options model t.enclosing.name)) = _
  rw [Contribution.ofOutcomes, hskipped, hfragments, if_neg (by simp)]
  rfl

/-- A unit that a type contributes is the unit of the type. -/
theorem MarkedType.unit_eq_of_contribution {t : MarkedType} {u : CodeUnit} {skipped : List Skipped}
    (h : t.contribution options model = ⟨some u, skipped⟩) :
    t.hasUnit options model ∧ t.unit options model = u := by
  have hunit := t.unit_contribution options model
  rw [h] at hunit
  split at hunit
  · rename_i hhas
    exact ⟨hhas, (Option.some.inj hunit).symm⟩
  · exact absurd hunit (by simp)

/-- The reports of two compilations whose types differ in one, which contributes the same but for
a line of its unit. -/
theorem exists_reports_of_dropsLine {c c' : Compilation} {key : String} {t t' : MarkedType}
    {before after : List (String × MarkedType)} {v v' : CodeUnit} {skipped : List Skipped}
    {above : List String} {line : String}
    (htypes : c.typesByKey = before ++ (key, t) :: after)
    (htypes' : c'.typesByKey = before ++ (key, t') :: after)
    (ht : t.contribution options model = ⟨some v, skipped⟩)
    (ht' : t'.contribution options model = ⟨some v', skipped⟩) (h : v.DropsLine above line v') :
    ∃ report report' us u u' vs,
      (generate options model c).result = .ok report ∧
      (generate options model c').result = .ok report' ∧
      report.units = us ++ u :: vs ∧ (∃ unitKey, u = v.withKey unitKey) ∧
      report'.units = us ++ u' :: vs ∧ u.DropsLine above line u' ∧
      report'.skipped = report.skipped := by
  have hunits : unitsOf options model c.typesByKey =
      unitsOf options model before ++ v :: unitsOf options model after := by
    rw [htypes, unitsOf_append]
    simp [unitsOf, ht]
  have hunits' : unitsOf options model c'.typesByKey =
      unitsOf options model before ++ v' :: unitsOf options model after := by
    rw [htypes', unitsOf_append]
    simp [unitsOf, ht']
  have hskipped : skipsOf options model c'.typesByKey = skipsOf options model c.typesByKey := by
    rw [htypes, htypes', skipsOf_append, skipsOf_append]
    simp [skipsOf, ht, ht']
  let keys := (unitsOf options model c.typesByKey).map CodeUnit.key
  have hkeys : (unitsOf options model c'.typesByKey).map CodeUnit.key = keys := by
    rcases h with ⟨below, -, rfl⟩
    simp only [keys, hunits, hunits', List.map_append, List.map_cons]
  refine ⟨_, _, (unitsOf options model before).map (CodeUnit.among keys), v.among keys,
    v'.among keys, (unitsOf options model after).map (CodeUnit.among keys),
    result_generate_typesByKey options model c, result_generate_typesByKey options model c', ?_,
    v.exists_among_eq keys, ?_, h.among keys, hskipped⟩
  · rw [qualifyShared_eq_map]
    simp only [keys, hunits, List.map_append, List.map_cons]
  · rw [qualifyShared_eq_map, hkeys, hunits', List.map_append, List.map_cons]

end

/-- A member that gives a fragment and does not say that it needs no check loses its guard, and
nothing else changes in the report, if an attribute that says so is put anywhere among its
attributes.  The unit of the type around it loses the line of the guard, which follows the
assignment. -/
theorem skipNullCheck_drops_guard (options : Options) (g : CompilationGap) {m : Member}
    {before after : List Attribute} {a : Attribute} {f : Fragment}
    (hattributes : m.attributes = before ++ after)
    (ha : Marker.ofName? a.name = some (.modifier .skipNullCheck))
    (hm : m.carries .skipNullCheck = false)
    (hf : (g.site m).outcome? options .ofDeclarations (g.fill [.member m]) =
      some (.fragment f)) :
    ∃ report report' key t pre post guard us u u' vs,
      (generate options .ofDeclarations (g.fill [.member m])).result = .ok report ∧
      (generate options .ofDeclarations
        (g.fill [.member (m.withAttributes (before ++ a :: after))])).result = .ok report' ∧
      (g.site m).ownerKey? = some key ∧
      (key, t) ∈ (g.fill [.member m]).unitTypesByKey options .ofDeclarations ∧
      t.candidates = pre ++ (g.site m).candidate :: post ∧
      f.guard = some guard ∧
      report.units = us ++ u :: vs ∧
      (∃ unitKey, u = (t.unit options .ofDeclarations).withKey unitKey) ∧
      report'.units = us ++ u' :: vs ∧
      u.DropsLine
        (t.enclosing.linesThrough u.hook
          ((t.withCandidates pre).fragments options .ofDeclarations ++ [f.withoutGuard]))
        (t.enclosing.statementLine guard.render) u' ∧
      report'.skipped = report.skipped := by
  let m' := m.withAttributes (before ++ a :: after)
  rcases g.exists_typesByKey_of_outcome? m hf with
    ⟨key, typesBefore, t, typesAfter, pre, post, howner, hmarked, htypes, haccepted, houtcome⟩
  have hcalls : strategyCalls (before ++ a :: after) = strategyCalls m.attributes := by
    rw [hattributes]
    exact strategyCalls_insert_modifier ha before after
  have hmarked' : m'.isMarked := by
    rw [Member.isMarked_withAttributes_of_calls hcalls]
    exact hmarked
  rcases Candidate.outcome_skipNullCheck hattributes ha hm houtcome with
    ⟨⟨guard, hguard⟩, houtcome'⟩
  have hcontribution := t.contribution_of_fragment haccepted houtcome pre post
  rcases exists_reports_of_dropsLine (htypes m hmarked) (htypes m' hmarked') hcontribution
      (t.contribution_of_fragment haccepted houtcome' pre post)
      (assemble_dropsLine t.enclosing hguard _ _ options) with
    ⟨report, report', us, u, u', vs, hreport, hreport', hunits, ⟨unitKey, rfl⟩, hunits', hdrops,
      hskipped⟩
  have hmem : (key, t.withCandidates (pre ++ ⟨m, g.path⟩ :: post)) ∈
      (g.fill [.member m]).typesByKey := by
    rw [htypes m hmarked]
    simp
  have hcandidates : (t.withCandidates (pre ++ ⟨m, g.path⟩ :: post)).candidates =
      pre ++ (g.site m).candidate :: post :=
    congrArg (fun c => pre ++ c :: post) (g.candidate_place m m).symm
  rcases MarkedType.unit_eq_of_contribution hcontribution with ⟨hhas, hunit⟩
  exact ⟨report, report', key, _, pre, post, guard, us, _, u', vs, hreport, hreport', howner,
    List.mem_filter.mpr ⟨hmem, hhas⟩, hcandidates, hguard, hunits, ⟨unitKey, by rw [← hunit]⟩,
    hunits', hdrops, hskipped⟩

/-- A place for a member in a type inside another one. -/
def hallGap : CompilationGap :=
  ⟨[], "House.cs",
    .type [] ⟨"House", ["partial"], [], .unknown⟩
      (.type [] ⟨"Hall", ["partial"], [], .unknown⟩ (.here [] []) []) [], []⟩

/-- A field with the given attributes. -/
def doorsField (attributes : List Attribute) : Member :=
  .field ⟨"List<Door>", ["doors"], [], attributes, .unknown⟩

/-- The line of a guard goes if the field says between its other attributes that it needs no
check. -/
theorem hallGap_drops_guard :
    ∃ report report' us u u' vs above,
      (generate .default .ofDeclarations
        (hallGap.fill [.member (doorsField [⟨"GetInChildren", []⟩, ⟨"IgnoreSelf", []⟩])])).result =
          .ok report ∧
      (generate .default .ofDeclarations
        (hallGap.fill [.member (doorsField
          [⟨"GetInChildren", []⟩, ⟨"Skip-Null-Check", []⟩, ⟨"IgnoreSelf", []⟩])])).result =
          .ok report' ∧
      report.units = us ++ u :: vs ∧ report'.units = us ++ u' :: vs ∧
      u.DropsLine above
        (Step.indented 3 ("if (doors == null || doors.Count == 0) UnityEngine.Debug.LogError(" ++
          Literal.write "Hall.doors: no Door found (get-in-children)" ++ ", this);")) u' ∧
      report'.skipped = report.skipped := by
  let field := doorsField [⟨"GetInChildren", []⟩, ⟨"IgnoreSelf", []⟩]
  let modifier : Attribute := ⟨"Skip-Null-Check", []⟩
  let fragment : Fragment :=
    ⟨"doors", "GetComponentsInChildren<Door>(false).Where(c => c.gameObject != gameObject).ToList()",
      some ⟨"doors", some "Count", "Hall.doors: no Door found (get-in-children)"⟩, false⟩
  have hmodifier : Marker.ofName? modifier.name = some (.modifier .skipNullCheck) := by
    decide +kernel
  have hattributes : field.attributes = [⟨"GetInChildren", []⟩] ++ [⟨"IgnoreSelf", []⟩] := rfl
  have hfree : field.carries .skipNullCheck = false := by decide +kernel
  have houtcome : (hallGap.site field).outcome? .default .ofDeclarations
      (hallGap.fill [.member field]) = some (.fragment fragment) := by
    decide +kernel
  have hdepth : ∀ o ∈ (hallGap.fill [.member field]).unitTypesByKey .default .ofDeclarations,
      o.2.enclosing.depth = 2 := by
    decide +kernel
  rcases skipNullCheck_drops_guard .default hallGap hattributes hmodifier hfree houtcome with
    ⟨report, report', key, t, pre, post, guard, us, u, u', vs, hreport, hreport', -, ht, -, hguard,
      hunits, -, hunits', hdrops, hskipped⟩
  obtain rfl : _ = guard := Option.some.inj hguard
  rw [EnclosingType.statementLine, hdepth _ ht] at hdrops
  exact ⟨report, report', us, u, u', vs, _, hreport, hreport', hunits, hunits', hdrops, hskipped⟩

end SceneWiring
