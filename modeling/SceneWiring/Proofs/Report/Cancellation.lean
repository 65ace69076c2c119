import SceneWiring.Proofs.Report.Run

/-!
# Cancelled runs

The work of a run is a list of tasks: the types that are rejected and the candidates of the
others, in their order.  Only a visit to a candidate looks whether the run was cancelled, so
a cancelled run stops before the first visit that starts after the cancellation, if there is
one, and goes on as if nothing had happened otherwise.

Main results:

- Definition `Compilation.tasks`: the work of a run.
- Definition `StartsLate`: a visit that starts after the cancellation.
- Theorem `workTypes_eq`: working through types is working through their tasks.
- Theorem `run_eq`: where a cancelled run stops.
- Theorem `run_stops_before_late_visit`: what a cancellation changes and what it does not.
-/

namespace SceneWiring

/-! ## Tasks -/

/-- A piece of the work of a run. -/
inductive Task
  | rejection (t : MarkedType)
  | visit (typeName : String) (c : Candidate)

namespace Task

/-- Whether a task is a visit to a candidate, which looks for a cancellation first. -/
def isVisit : Task → Bool
  | .rejection _ => false
  | .visit _ _ => true

/-- Whether the model is asked in the course of a task. -/
def asksModel : Task → Bool
  | .rejection _ => false
  | .visit _ c => c.member.asksModel

/-- The line that the log gets for a task, if something is skipped. -/
def line? (options : Options) (model : SemanticModel) : Task → Option String
  | .rejection t => some t.rejection.message
  | .visit typeName c => (c.outcome options model typeName).skipped?.map Skipped.message

end Task

/-- How often the model is asked in the course of tasks. -/
def questionsOf (tasks : List Task) : Nat :=
  tasks.countP Task.asksModel

/-- The lines that the log gets in the course of tasks. -/
def linesOf (options : Options) (model : SemanticModel) (tasks : List Task) : List String :=
  tasks.filterMap (Task.line? options model)

/-- The work on a type. -/
def MarkedType.tasks (options : Options) (t : MarkedType) : List Task :=
  if t.isRejected options then [.rejection t]
  else t.candidates.map (Task.visit t.enclosing.name)

/-- The work of a run. -/
def Compilation.tasks (options : Options) (c : Compilation) : List Task :=
  c.scan.flatMap (MarkedType.tasks options)

/-- After the given first tasks a visit starts, and a run that is cancelled during the given
question has been cancelled by then. -/
def StartsLate (n : Nat) (tasks before : List Task) : Prop :=
  ∃ typeName c after, tasks = before ++ .visit typeName c :: after ∧ n ≤ questionsOf before

/-- The tasks that a run gets done before it stops, if it stops.  The model has been asked
the given number of times before. -/
def doneBeforeStop? (cancelAt : Option Nat) (asked : Nat) : List Task → Option (List Task)
  | [] => none
  | t :: rest =>
    if t.isVisit && cancelAt.any (· ≤ asked) then some []
    else (doneBeforeStop? cancelAt (asked + questionsOf [t]) rest).map (t :: ·)

/-! ### Where a run stops -/

section

variable {cancelAt : Option Nat} {n asked : Nat} {tasks : List Task}

theorem questionsOf_append (xs ys : List Task) :
    questionsOf (xs ++ ys) = questionsOf xs + questionsOf ys := by
  simp [questionsOf]

theorem questionsOf_cons (t : Task) (rest : List Task) :
    questionsOf (t :: rest) = questionsOf [t] + questionsOf rest :=
  questionsOf_append [t] rest

theorem linesOf_append (options : Options) (model : SemanticModel) (xs ys : List Task) :
    linesOf options model (xs ++ ys) = linesOf options model xs ++ linesOf options model ys := by
  simp [linesOf]

/-- A run that nobody cancels does not stop. -/
theorem doneBeforeStop?_none (asked : Nat) (tasks : List Task) :
    doneBeforeStop? none asked tasks = none := by
  induction tasks generalizing asked with
  | nil => rfl
  | cons t rest ih => simp [doneBeforeStop?, ih]

/-- A run stops in the first part of its work or, with that done, in the second. -/
theorem doneBeforeStop?_append (cancelAt : Option Nat) (asked : Nat) (xs ys : List Task) :
    doneBeforeStop? cancelAt asked (xs ++ ys) =
      match doneBeforeStop? cancelAt asked xs with
      | some done => some done
      | none => (doneBeforeStop? cancelAt (asked + questionsOf xs) ys).map (xs ++ ·) := by
  induction xs generalizing asked with
  | nil => simp [doneBeforeStop?, questionsOf]
  | cons t rest ih =>
      rw [List.cons_append, doneBeforeStop?, doneBeforeStop?]
      split
      · rfl
      · rw [ih, questionsOf_cons t rest, Nat.add_assoc]
        cases doneBeforeStop? cancelAt (asked + questionsOf [t]) rest with
        | some done => rfl
        | none => simp [Function.comp_def]

/-- What is done before a run stops are the tasks before a visit that starts late. -/
theorem exists_of_doneBeforeStop?_eq_some {done : List Task}
    (h : doneBeforeStop? (some n) asked tasks = some done) :
    ∃ typeName c after, tasks = done ++ .visit typeName c :: after ∧
      n ≤ asked + questionsOf done := by
  induction tasks generalizing asked done with
  | nil => simp [doneBeforeStop?] at h
  | cons t rest ih =>
      rw [doneBeforeStop?] at h
      split at h
      · rename_i hstop
        simp only [Bool.and_eq_true, Option.any_some, decide_eq_true_eq] at hstop
        obtain rfl : [] = done := by simpa using h
        cases t with
        | rejection t => simp [Task.isVisit] at hstop
        | visit typeName c => exact ⟨typeName, c, rest, rfl, hstop.2⟩
      · rcases Option.map_eq_some_iff.mp h with ⟨done, hdone, rfl⟩
        rcases ih hdone with ⟨typeName, c, after, hrest, hlate⟩
        refine ⟨typeName, c, after, by rw [hrest, List.cons_append], ?_⟩
        rw [questionsOf_cons, ← Nat.add_assoc]
        exact hlate

/-- A run stops at the latest before a visit that starts late. -/
theorem doneBeforeStop?_eq_some_of_late {before after : List Task} {typeName : String}
    {c : Candidate} (hlate : n ≤ asked + questionsOf before) :
    ∃ done, doneBeforeStop? (some n) asked (before ++ .visit typeName c :: after) = some done ∧
      done <+: before := by
  induction before generalizing asked with
  | nil =>
      have hn : n ≤ asked := hlate
      exact ⟨[], by simp [doneBeforeStop?, Task.isVisit, hn], List.prefix_refl _⟩
  | cons t rest ih =>
      rw [questionsOf_cons, ← Nat.add_assoc] at hlate
      rcases ih hlate with ⟨done, hdone, hprefix⟩
      rw [List.cons_append, doneBeforeStop?]
      split
      · exact ⟨[], rfl, List.nil_prefix⟩
      · exact ⟨t :: done, by rw [hdone, Option.map_some], List.cons_prefix_cons.mpr ⟨rfl, hprefix⟩⟩

/-- A run stops if a visit starts late, and not after that visit. -/
theorem StartsLate.exists_done {before : List Task} (h : StartsLate n tasks before) :
    ∃ done, doneBeforeStop? (some n) 0 tasks = some done ∧ done <+: before := by
  rcases h with ⟨typeName, c, after, rfl, hlate⟩
  exact doneBeforeStop?_eq_some_of_late (by rwa [Nat.zero_add])

/-- A run that stops does so before the first visit that starts late. -/
theorem startsLate_of_doneBeforeStop? {done : List Task}
    (h : doneBeforeStop? (some n) 0 tasks = some done) :
    StartsLate n tasks done ∧ ∀ before, StartsLate n tasks before → done <+: before := by
  constructor
  · rcases exists_of_doneBeforeStop?_eq_some h with ⟨typeName, c, after, htasks, hlate⟩
    exact ⟨typeName, c, after, htasks, by rwa [Nat.zero_add] at hlate⟩
  · intro before hbefore
    rcases hbefore.exists_done with ⟨done', hdone', hprefix⟩
    rw [h, Option.some.injEq] at hdone'
    exact hdone' ▸ hprefix

end

/-! ## Working through tasks -/

section

variable {options : Options} {model : SemanticModel} {cancelAt : Option Nat}

/-- The progress after tasks. -/
def Progress.afterTasks (options : Options) (model : SemanticModel) (tasks : List Task)
    (p : Progress) : Progress where
  questions := p.questions + questionsOf tasks
  lines := p.lines ++ linesOf options model tasks

theorem Progress.afterTasks_append (xs ys : List Task) (p : Progress) :
    p.afterTasks options model (xs ++ ys) =
      (p.afterTasks options model xs).afterTasks options model ys := by
  simp [afterTasks, questionsOf_append, linesOf_append, Nat.add_assoc]

/-- A candidate makes the progress of its visit. -/
theorem Progress.afterCandidate_eq (typeName : String) (c : Candidate) (p : Progress) :
    p.afterCandidate c (c.outcome options model typeName) =
      p.afterTasks options model [.visit typeName c] := by
  have hquestions : (if c.member.asksModel then 1 else 0) = questionsOf [.visit typeName c] := by
    cases hasks : c.member.asksModel <;> simp [questionsOf, Task.asksModel, hasks]
  have hlines : ((c.outcome options model typeName).skipped?.map Skipped.message).toList =
      linesOf options model [.visit typeName c] := by
    cases hskipped : (c.outcome options model typeName).skipped? <;>
      simp [linesOf, Task.line?, hskipped]
  rw [afterCandidate, hquestions, hlines]
  rfl

/-- A rejection makes the progress of its line. -/
theorem Progress.log_rejection (t : MarkedType) (p : Progress) :
    p.log t.rejection.message = p.afterTasks options model [.rejection t] := by
  simp [log, afterTasks, questionsOf, linesOf, Task.asksModel, Task.line?]

/-- Working through candidates is working through the visits to them. -/
theorem workCandidates_eq (typeName : String) (cs : List Candidate) (p : Progress) :
    workCandidates cancelAt (Candidate.outcome options model typeName) cs p =
      match doneBeforeStop? cancelAt p.questions (cs.map (Task.visit typeName)) with
      | some done => (p.afterTasks options model done, none)
      | none => (p.afterTasks options model (cs.map (Task.visit typeName)),
          some (cs.map (Candidate.outcome options model typeName))) := by
  induction cs generalizing p with
  | nil => simp [workCandidates, doneBeforeStop?, Progress.afterTasks, questionsOf, linesOf]
  | cons c rest ih =>
      rw [workCandidates, List.map_cons, doneBeforeStop?]
      have hvisit : ((Task.visit typeName c).isVisit && cancelAt.any (· ≤ p.questions)) =
          isCancelled cancelAt p := rfl
      rw [hvisit]
      split
      · simp [Progress.afterTasks, questionsOf, linesOf]
      · have hasked : (p.afterTasks options model [.visit typeName c]).questions =
            p.questions + questionsOf [.visit typeName c] := rfl
        simp only [Progress.afterCandidate_eq, ih, hasked]
        cases doneBeforeStop? cancelAt (p.questions + questionsOf [.visit typeName c])
            (rest.map (Task.visit typeName)) with
        | some done =>
            simp only [Option.map_some, Option.map_none]
            rw [← Progress.afterTasks_append, List.singleton_append]
        | none =>
            simp only [Option.map_some, Option.map_none, List.map_cons]
            rw [← Progress.afterTasks_append, List.singleton_append]

/-- Working on a type is working through its tasks. -/
theorem workType_eq (t : MarkedType) (p : Progress) :
    workType cancelAt options model t p =
      match doneBeforeStop? cancelAt p.questions (t.tasks options) with
      | some done => (p.afterTasks options model done, none)
      | none => (p.afterTasks options model (t.tasks options),
          some (t.contribution options model)) := by
  rw [workType, MarkedType.tasks, MarkedType.contribution]
  split
  · rw [Progress.log_rejection]
    rfl
  · simp only [workCandidates_eq]
    cases doneBeforeStop? cancelAt p.questions
        (t.candidates.map (Task.visit t.enclosing.name)) with
    | some done => rfl
    | none => rfl

/-- Working through types is working through their tasks. -/
theorem workTypes_eq (ts : List MarkedType) (p : Progress) :
    workTypes cancelAt options model ts p =
      match doneBeforeStop? cancelAt p.questions (ts.flatMap (MarkedType.tasks options)) with
      | some done => (p.afterTasks options model done, none)
      | none => (p.afterTasks options model (ts.flatMap (MarkedType.tasks options)),
          some (ts.map (MarkedType.contribution options model))) := by
  induction ts generalizing p with
  | nil => simp [workTypes, doneBeforeStop?, Progress.afterTasks, questionsOf, linesOf]
  | cons t rest ih =>
      rw [workTypes, workType_eq, List.flatMap_cons, doneBeforeStop?_append]
      cases doneBeforeStop? cancelAt p.questions (t.tasks options) with
      | some done => rfl
      | none =>
          have hasked : (p.afterTasks options model (t.tasks options)).questions =
              p.questions + questionsOf (t.tasks options) := rfl
          simp only [ih, hasked, Progress.afterTasks_append]
          cases doneBeforeStop? cancelAt (p.questions + questionsOf (t.tasks options))
              (rest.flatMap (MarkedType.tasks options)) with
          | some done => simp only [Option.map_some, Option.map_none, Progress.afterTasks_append]
          | none => simp only [Option.map_some, Option.map_none, List.map_cons]

end

/-! ## Runs -/

section

variable (options : Options) (model : SemanticModel) (c : Compilation)

/-- What is skipped of a type, in lines of the log. -/
theorem map_message_skipped_contribution (t : MarkedType) :
    (t.contribution options model).skipped.map Skipped.message =
      linesOf options model (t.tasks options) := by
  rw [MarkedType.contribution, MarkedType.tasks]
  split
  · rfl
  · simp only [Contribution.ofOutcomes, linesOf, List.filterMap_map, List.map_filterMap]
    rfl

/-- A run that nobody cancels writes a line for everything that is skipped and then one for
every unit. -/
theorem lines_generate :
    ∃ report, (generate options model c).result = .ok report ∧
      report.skipped.map Skipped.message = linesOf options model (c.tasks options) ∧
      (generate options model c).lines =
        report.skipped.map Skipped.message ++ report.units.map CodeUnit.logLine := by
  have hskipped : (Report.ofContributions
      (c.scan.map (MarkedType.contribution options model))).skipped.map Skipped.message =
        linesOf options model (c.tasks options) := by
    simp only [Report.ofContributions, Compilation.tasks, linesOf, List.flatMap_map,
      List.map_flatMap, List.filterMap_flatMap, map_message_skipped_contribution]
  refine ⟨_, result_generate options model c, hskipped, ?_⟩
  rw [hskipped, generate, run, workTypes_eq, doneBeforeStop?_none]
  simp [Progress.afterTasks, Compilation.tasks]

/-- A run stops with the lines of the tasks that are done, or it is as if nobody had
cancelled it. -/
theorem run_eq (cancelAt : Option Nat) :
    run options model cancelAt c =
      match doneBeforeStop? cancelAt 0 (c.tasks options) with
      | some done => ⟨linesOf options model done, .error .cancelled⟩
      | none => generate options model c := by
  have hgenerate : generate options model c = run options model none c := rfl
  rw [hgenerate, run, run, workTypes_eq, workTypes_eq, doneBeforeStop?_none]
  have hstart : ({} : Progress).questions = 0 := rfl
  rw [hstart, ← Compilation.tasks]
  cases doneBeforeStop? cancelAt 0 (c.tasks options) with
  | some done => simp [Progress.afterTasks]
  | none => rfl

end

/-- The model is asked about a member exactly if what becomes of the member depends on it. -/
theorem Member.asksModel_iff (options : Options) (typeName : String) (m : Member) :
    m.asksModel ↔
      ∃ model model', m.resolve options model typeName ≠ m.resolve options model' typeName := by
  constructor
  · intro h
    refine ⟨.ofDeclarations, fun _ => none, ?_⟩
    rw [asksModel] at h
    split at h
    · rename_i markers signature hmarkers hsignature
      rw [resolve_eq, resolve_eq, hmarkers, hsignature]
      simp [SemanticModel.ofDeclarations]
    · exact absurd h (by simp)
  · rintro ⟨model, model', hne⟩
    by_contra hnot
    apply hne
    rw [resolve_eq, resolve_eq]
    cases hmarkers : MarkerSet.ofAttributes? m.attributes with
    | error reason => rfl
    | ok markers? =>
        cases markers? with
        | none => rfl
        | some markers =>
            cases hsignature : m.signature with
            | error reason => rfl
            | ok signature => simp [asksModel, hmarkers, hsignature] at hnot

/-- No line for something skipped is the line for a unit. -/
theorem Skipped.message_ne_logLine (s : Skipped) (u : CodeUnit) : s.message ≠ u.logLine := by
  have hskip : s.message.toList.head? = some '[' := by
    unfold message
    simp only [String.toList_append, List.head?_append]
    rfl
  have hunit : u.logLine.toList.head? = some 'g' := by
    unfold CodeUnit.logLine
    simp only [String.toList_append, List.head?_append]
    rfl
  intro h
  rw [h, hunit] at hskip
  exact absurd hskip (by decide)

/-- A run that is cancelled before it starts or during a question to the model has no report
exactly if a visit to a candidate starts after that; otherwise it is the run that nobody
cancels.  Without a report, its log has the lines of the tasks before the first visit that
starts late.  These are first lines of those that a run writes for what is skipped, before
it writes a line for any unit. -/
theorem run_stops_before_late_visit (options : Options) (model : SemanticModel) (n : Nat)
    (c : Compilation) :
    ((run options model (some n) c).result = .error .cancelled ↔
      ∃ before, StartsLate n (c.tasks options) before) ∧
    ((run options model (some n) c).result ≠ .error .cancelled →
      run options model (some n) c = generate options model c) ∧
    ((run options model (some n) c).result = .error .cancelled →
      ∃ before, StartsLate n (c.tasks options) before ∧
        (∀ before', StartsLate n (c.tasks options) before' → before <+: before') ∧
        (run options model (some n) c).lines = linesOf options model before) ∧
    (∃ report, (generate options model c).result = .ok report ∧
      (generate options model c).lines =
        report.skipped.map Skipped.message ++ report.units.map CodeUnit.logLine ∧
      ((run options model (some n) c).result = .error .cancelled →
        (run options model (some n) c).lines <+: report.skipped.map Skipped.message)) ∧
    (∀ (s : Skipped) (u : CodeUnit), s.message ≠ u.logLine) ∧
    ∀ (m : Member) (typeName : String), m.asksModel ↔
      ∃ model model', m.resolve options model typeName ≠ m.resolve options model' typeName := by
  rcases lines_generate options model c with ⟨report, hreport, hskipped, hlines⟩
  have hrun := run_eq options model c (some n)
  have hmessage := Skipped.message_ne_logLine
  have hasks := fun m typeName => Member.asksModel_iff options typeName m
  cases hdone : doneBeforeStop? (some n) 0 (c.tasks options) with
  | none =>
      have hnever : ¬ ∃ before, StartsLate n (c.tasks options) before := by
        rintro ⟨before, hbefore⟩
        rcases hbefore.exists_done with ⟨done, hsome, -⟩
        rw [hdone] at hsome
        exact absurd hsome (by simp)
      rw [hdone] at hrun
      have hfinished : (run options model (some n) c).result ≠ .error .cancelled := by
        rw [hrun, hreport]
        simp
      exact ⟨iff_of_false hfinished hnever, fun _ => hrun, fun h => absurd h hfinished,
        ⟨report, hreport, hlines, fun h => absurd h hfinished⟩, hmessage, hasks⟩
  | some done =>
      rcases startsLate_of_doneBeforeStop? hdone with ⟨hlate, hfirst⟩
      rw [hdone] at hrun
      have hcancelled : (run options model (some n) c).result = .error .cancelled := by
        rw [hrun]
      have hwritten : (run options model (some n) c).lines = linesOf options model done := by
        rw [hrun]
      have hprefix : linesOf options model done <+: report.skipped.map Skipped.message := by
        rcases hlate with ⟨typeName, visited, after, htasks, -⟩
        rw [hskipped, htasks, linesOf_append]
        exact List.prefix_append _ _
      exact ⟨iff_of_true hcancelled ⟨done, hlate⟩, fun h => absurd hcancelled h,
        fun _ => ⟨done, hlate, hfirst, hwritten⟩,
        ⟨report, hreport, hlines, fun _ => hwritten ▸ hprefix⟩, hmessage, hasks⟩

/-- Two fields to fill in one type. -/
def twoDoors : Compilation where
  files :=
    [⟨"Player.cs",
      [.type ⟨"Player", ["partial"], [], .unknown⟩
        [.member (.field ⟨"Door", ["entry"], [], [⟨"Get", []⟩], .unknown⟩),
         .member (.field ⟨"Door", ["exit"], [], [⟨"Get", []⟩], .unknown⟩)]]⟩]

/-- A cancellation during the first question stops the run before the second field, and one
during the second question comes too late. -/
example :
    (run .default .ofDeclarations (some 1) twoDoors).result = .error .cancelled ∧
      (run .default .ofDeclarations (some 2) twoDoors).result =
        (generate .default .ofDeclarations twoDoors).result := by
  decide +kernel

end SceneWiring
