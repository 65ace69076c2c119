import SceneWiring.Proofs.Marker.Modifiers
import SceneWiring.Proofs.Report.Ownership
import SceneWiring.Proofs.Report.UnitLines
import SceneWiring.Proofs.Scan.Substitution

/-!
# Requests for the play hook

A fragment carries the request of its member to be filled before the first frame only, and this
request is seen in one place: the hook of the unit that the fragment belongs to.  So requests
decide which of the two hooks a unit has and nothing else in the report.

Main results:

- Definition `Outcome.withoutRequest`: what becomes of a candidate, but for the request.
- Theorem `Member.Toggles.matches`: a request makes no other difference for a candidate.
- Definition `Options.hookFor`: the hook for members that are filled together.
- Definition `CodeUnit.SameButHook`: units that differ in the hook only.
- Theorem `requests_switch_hooks`: what requests change in a report.
-/

namespace SceneWiring

/-! ## Candidates -/

/-- A fragment without a request. -/
def Fragment.withoutRequest (f : Fragment) : Fragment :=
  { f with injectInPlay := false }

namespace Outcome

/-- What becomes of a candidate, but for the request. -/
def withoutRequest : Outcome → Outcome
  | .fragment f => .fragment f.withoutRequest
  | .skipped s => .skipped s
  | .unmarked => .unmarked

@[simp]
theorem fragment?_withoutRequest (outcome : Outcome) :
    outcome.withoutRequest.fragment? = outcome.fragment?.map Fragment.withoutRequest := by
  cases outcome <;> rfl

@[simp]
theorem skipped?_withoutRequest (outcome : Outcome) :
    outcome.withoutRequest.skipped? = outcome.skipped? := by
  cases outcome <;> rfl

end Outcome

/-- Two candidates of which the same becomes but for requests, whatever the name of their type. -/
def Candidate.SameButRequest (options : Options) (c c' : Candidate) : Prop :=
  ∀ typeName, (c'.outcome options .ofDeclarations typeName).withoutRequest =
    (c.outcome options .ofDeclarations typeName).withoutRequest

/-- Two members of which one has one modifier of a kind more than the other. -/
def Member.Toggles (kind : Modifier) (m m' : Member) : Prop :=
  ∃ attributes, ModifierEdit kind m.attributes attributes ∧ m' = m.withAttributes attributes

/-- A request makes no other difference for a candidate. -/
theorem Member.Toggles.matches {m m' : Member} (h : Member.Toggles .injectInPlay m m')
    (options : Options) : m.Matches (Candidate.SameButRequest options) m' := by
  rcases h with ⟨attributes, hedit, rfl⟩
  refine ⟨isMarked_withAttributes_of_calls hedit.calls, ?_⟩
  intro file typeName
  rw [Candidate.outcome_withAttributes_of_calls hedit.calls, Candidate.outcome]
  cases hresolve : m.resolve options .ofDeclarations typeName with
  | error reason => rfl
  | ok injection? =>
      cases injection? with
      | none => rfl
      | some i =>
          have hguard : (m.withAttributes attributes).carries .skipNullCheck =
              m.carries .skipNullCheck := by
            rw [carries, carries, attributes_withAttributes, hedit.contains_eq (by decide)]
          change (Outcome.fragment _).withoutRequest = (Outcome.fragment _).withoutRequest
          rw [Injection.fragment_of_edit hresolve hedit (by decide) (by decide), hguard,
            ← Injection.guard_fragment hresolve]
          rfl

/-! ## Units -/

/-- Two units that differ in the hook only, and in the line of the text that declares it. -/
def CodeUnit.SameButHook (u u' : CodeUnit) : Prop :=
  ∃ (t : EnclosingType) (below : List String),
    u.text = textOfLines (t.linesAbove ++ t.hookLine u.hook :: below) ∧
    u' = { u with
      hook := u'.hook
      text := textOfLines (t.linesAbove ++ t.hookLine u'.hook :: below) }

/-- Such units are the same if they have the same hook. -/
theorem CodeUnit.SameButHook.eq_of_hook_eq {u u' : CodeUnit} (h : u.SameButHook u')
    (hhook : u'.hook = u.hook) : u' = u := by
  rcases h with ⟨t, below, htext, hu⟩
  rw [hu, hhook, ← htext]

/-- Units of the same type whose fragments have the same statements differ in the hook only. -/
theorem assemble_sameButHook (t : EnclosingType) {fragments fragments' : List Fragment}
    (h : fragments'.map Fragment.withoutRequest = fragments.map Fragment.withoutRequest)
    (options : Options) :
    (CodeUnit.assemble t fragments options).SameButHook
      (CodeUnit.assemble t fragments' options) := by
  have hlength : fragments'.length = fragments.length := by
    have hmapped := congrArg List.length h
    rwa [List.length_map, List.length_map] at hmapped
  have hstatements : fragments'.flatMap Fragment.statements =
      fragments.flatMap Fragment.statements := by
    have hjoined := congrArg (List.flatMap Fragment.statements) h
    rw [List.flatMap_map, List.flatMap_map] at hjoined
    exact hjoined
  refine ⟨t, _, congrArg textOfLines (layOut_unitSteps t _ fragments), ?_⟩
  rw [← hstatements, CodeUnit.assemble, CodeUnit.assemble]
  simp only [layOut_unitSteps, hlength]

namespace MarkedType.Matches

section

variable {options : Options} {t t' : MarkedType}
  (h : t.Matches (Candidate.SameButRequest options) t')
include h

theorem isRejected_eq : t'.isRejected options = t.isRejected options := by
  rw [MarkedType.isRejected, MarkedType.isRejected, h.enclosing_eq]

/-- What becomes of the candidates of types that match is the same but for requests. -/
theorem map_outcome_withoutRequest :
    (t'.candidates.map (Candidate.outcome options .ofDeclarations t'.enclosing.name)).map
        Outcome.withoutRequest =
      (t.candidates.map (Candidate.outcome options .ofDeclarations t.enclosing.name)).map
        Outcome.withoutRequest := by
  rw [h.enclosing_eq, List.map_map, List.map_map, map_eq_map_iff_forall₂]
  exact (h.candidates.imp fun _ _ hc => hc t.enclosing.name).flip

theorem map_fragments_withoutRequest :
    (t'.fragments options .ofDeclarations).map Fragment.withoutRequest =
      (t.fragments options .ofDeclarations).map Fragment.withoutRequest := by
  have houtcomes := congrArg (List.filterMap Outcome.fragment?) h.map_outcome_withoutRequest
  simp only [List.filterMap_map, Function.comp_def, Outcome.fragment?_withoutRequest] at houtcomes
  rw [MarkedType.fragments, MarkedType.fragments, List.map_filterMap, List.map_filterMap,
    List.filterMap_map, List.filterMap_map]
  exact houtcomes

theorem hasUnit_eq : t'.hasUnit options .ofDeclarations = t.hasUnit options .ofDeclarations := by
  have hempty := congrArg List.isEmpty h.map_fragments_withoutRequest
  rw [List.isEmpty_map, List.isEmpty_map] at hempty
  rw [MarkedType.hasUnit, MarkedType.hasUnit, h.isRejected_eq, hempty]

theorem unit_sameButHook :
    (t.unit options .ofDeclarations).SameButHook (t'.unit options .ofDeclarations) := by
  rw [MarkedType.unit, MarkedType.unit, h.enclosing_eq]
  exact assemble_sameButHook t.enclosing h.map_fragments_withoutRequest options

theorem skipped_contribution_eq :
    (t'.contribution options .ofDeclarations).skipped =
      (t.contribution options .ofDeclarations).skipped := by
  have houtcomes := congrArg (List.filterMap Outcome.skipped?) h.map_outcome_withoutRequest
  simp only [List.filterMap_map, Function.comp_def, Outcome.skipped?_withoutRequest] at houtcomes
  rw [MarkedType.contribution, MarkedType.contribution, h.isRejected_eq]
  split
  · rw [Contribution.ofRejected, Contribution.ofRejected, h.rejection_eq]
  · simp only [Contribution.ofOutcomes, List.filterMap_map]
    exact houtcomes

end

end MarkedType.Matches

/-! ## Reports -/

/-- The hook for members that are filled together: the play hook if one of them carries the
request, and the other hook if none does. -/
def Options.hookFor (options : Options) (members : List OwnedMember) : String :=
  if members.any fun o => o.site.member.carries .injectInPlay then options.playHook
  else options.initHook

/-- A fragment asks for the play hook exactly if its member carries the request. -/
theorem injectInPlay_eq_carries {options : Options} {typeName : String} {c : Candidate}
    {f : Fragment} (h : c.outcome options .ofDeclarations typeName = .fragment f) :
    f.injectInPlay = c.member.carries .injectInPlay := by
  rcases Candidate.outcome_eq_fragment_iff.mp h with ⟨i, hresolve, rfl⟩
  exact Injection.injectInPlay_fragment hresolve

/-- A type asks for the play hook exactly if one of the members that it fills carries the
request. -/
theorem wantsPlayHook_eq {options : Options} {typeName : String} {members : List OwnedMember}
    {fragments : List Fragment}
    (h : List.Forall₂
      (fun o f => o.site.candidate.outcome options .ofDeclarations typeName = .fragment f)
      members fragments) :
    wantsPlayHook fragments = members.any fun o => o.site.member.carries .injectInPlay := by
  induction h with
  | nil => rfl
  | cons hhead _ ih =>
      rw [wantsPlayHook] at ih ⊢
      rw [List.any_cons, List.any_cons, ih, injectInPlay_eq_carries hhead]
      rfl

/-- A unit has the hook for the members that it fills. -/
theorem forall₂_hook_units {options : Options} {c : Compilation} {report : Report}
    (h : (generate options .ofDeclarations c).result = .ok report) :
    List.Forall₂
      (fun o u =>
        u.Fills options .ofDeclarations o.2.enclosing
          (c.filledMembers options .ofDeclarations o.1 o.2.enclosing.name) ∧
        u.hook = options.hookFor (c.filledMembers options .ofDeclarations o.1 o.2.enclosing.name))
      (c.unitTypesByKey options .ofDeclarations) report.units := by
  have hmem : ∀ o ∈ c.unitTypesByKey options .ofDeclarations, o ∈ c.typesByKey :=
    fun o ho => List.mem_of_mem_filter ho
  apply ((List.forall₂_and_left _ _).mpr ⟨hmem, forall₂_fills_units h⟩).imp
  rintro o u ⟨ho, ⟨unitKey, rfl⟩, hfills⟩
  rcases c.gathers_of_mem_typesByKey ho with ⟨first, others, hgathers⟩
  refine ⟨hfills, ?_⟩
  rw [Options.hookFor, ← wantsPlayHook_eq (forall₂_filledMembers_fragments hgathers)]
  rfl

/-- The reports of compilations that match but for requests. -/
theorem forall₂_sameButHook_units {options : Options} {c c' : Compilation}
    (h : c.Matches (Candidate.SameButRequest options) c') :
    List.Forall₂ CodeUnit.SameButHook
      (qualifyShared ((c.unitTypes options .ofDeclarations).map
        (MarkedType.unit options .ofDeclarations)))
      (qualifyShared ((c'.unitTypes options .ofDeclarations).map
        (MarkedType.unit options .ofDeclarations))) := by
  apply forall₂_qualifyShared_of_key
  · rintro u u' ⟨t, below, -, hu⟩
    rw [hu]
  · rintro u u' ⟨t, below, htext, hu⟩
    rw [hu]
    exact ⟨t, below, htext, rfl⟩
  · rw [List.forall₂_map_left_iff, List.forall₂_map_right_iff]
    have hunits : List.Forall₂ (MarkedType.Matches (Candidate.SameButRequest options))
        (c.unitTypes options .ofDeclarations) (c'.unitTypes options .ofDeclarations) := by
      apply List.rel_filter _ h.forall₂_scan
      intro t t' ht
      change t.hasUnit options .ofDeclarations = true ↔ t'.hasUnit options .ofDeclarations = true
      rw [ht.hasUnit_eq]
    exact hunits.imp fun _ _ ht => ht.unit_sameButHook

/-- The members that a unit fills decide its hook, and those that are skipped do not.  Adding and
removing requests, on any members and any number of times, changes nothing in the report but the
hooks of units and the lines that declare them. -/
theorem requests_switch_hooks (options : Options) {c c' : Compilation}
    (h : Relation.ReflTransGen (Compilation.Replaces (Member.Toggles .injectInPlay)) c c') :
    ∃ report report',
      (generate options .ofDeclarations c).result = .ok report ∧
      (generate options .ofDeclarations c').result = .ok report' ∧
      List.Forall₂
        (fun o u =>
          u.Fills options .ofDeclarations o.2.enclosing
            (c.filledMembers options .ofDeclarations o.1 o.2.enclosing.name) ∧
          u.hook =
            options.hookFor (c.filledMembers options .ofDeclarations o.1 o.2.enclosing.name))
        (c.unitTypesByKey options .ofDeclarations) report.units ∧
      List.Forall₂ (fun u u' => u.SameButHook u' ∧ (u'.hook = u.hook → u' = u))
        report.units report'.units ∧
      report'.skipped = report.skipped := by
  have hmatches : c.Matches (Candidate.SameButRequest options) c' :=
    .of_replaces (fun _ _ => rfl) (fun _ _ _ hab hbc n => (hbc n).trans (hab n))
      (fun _ _ hm => hm.matches options) h
  have hreport := result_generate options .ofDeclarations c
  have hreport' := result_generate options .ofDeclarations c'
  refine ⟨_, _, hreport, hreport', forall₂_hook_units hreport, ?_, ?_⟩
  · rw [units_generate hreport, units_generate hreport']
    exact (forall₂_sameButHook_units hmatches).imp fun _ _ hu => ⟨hu, hu.eq_of_hook_eq⟩
  · have hskipped : c'.scan.map
          (fun t => (t.contribution options .ofDeclarations).skipped) =
        c.scan.map fun t => (t.contribution options .ofDeclarations).skipped := by
      rw [map_eq_map_iff_forall₂]
      exact (hmatches.forall₂_scan.imp fun _ _ ht => ht.skipped_contribution_eq).flip
    rw [Report.ofContributions, Report.ofContributions]
    simp only [List.flatMap_def, List.map_map, Function.comp_def, hskipped]

/-- A place for a member in a type that has a field with a fragment already. -/
def roomGap : CompilationGap :=
  ⟨[], "Room.cs",
    .type [] ⟨"Room", ["partial"], [], .unknown⟩
      (.here [.member (.field ⟨"Door", ["door"], [], [⟨"Get", []⟩], .unknown⟩)] []) [], []⟩

/-- A field with the given attributes. -/
def lightField (attributes : List Attribute) : Member :=
  .field ⟨"Light", ["light"], [], attributes, .unknown⟩

/-- A request in front of the attributes of one field switches the hook of the unit. -/
theorem roomGap_switches_hook :
    Relation.ReflTransGen (Compilation.Replaces (Member.Toggles .injectInPlay))
        (roomGap.fill [.member (lightField [⟨"Get", []⟩])])
        (roomGap.fill [.member (lightField [⟨"inject_in_play", []⟩, ⟨"Get", []⟩])]) ∧
      ∃ report report',
        (generate .default .ofDeclarations
          (roomGap.fill [.member (lightField [⟨"Get", []⟩])])).result = .ok report ∧
        (generate .default .ofDeclarations
          (roomGap.fill [.member (lightField [⟨"inject_in_play", []⟩, ⟨"Get", []⟩])])).result =
            .ok report' ∧
        List.Forall₂ CodeUnit.SameButHook report.units report'.units ∧
        report.units.map CodeUnit.hook = ["Awake"] ∧
        report'.units.map CodeUnit.hook = ["Start"] := by
  let request : Attribute := ⟨"inject_in_play", []⟩
  have hrequest : Marker.ofName? request.name = some (.modifier .injectInPlay) := by
    decide +kernel
  have htoggles : Member.Toggles .injectInPlay (lightField [⟨"Get", []⟩])
      (lightField [request, ⟨"Get", []⟩]) :=
    ⟨_, .insert [] [⟨"Get", []⟩] hrequest, rfl⟩
  have hedits := Relation.ReflTransGen.single (Compilation.Replaces.member roomGap htoggles)
  rcases requests_switch_hooks .default hedits with ⟨report, report', h, h', -, hunits, -⟩
  refine ⟨hedits, report, report', h, h', hunits.imp fun _ _ hu => hu.1, ?_, ?_⟩
  · rw [units_generate h, map_qualifyShared (fun _ => rfl)]
    decide +kernel
  · rw [units_generate h', map_qualifyShared (fun _ => rfl)]
    decide +kernel

end SceneWiring
