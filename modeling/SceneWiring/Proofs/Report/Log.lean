import SceneWiring.Layout
import SceneWiring.LogFile
import SceneWiring.Proofs.Report.Cancellation
import SceneWiring.Proofs.Report.UnitLines

/-!
# The log of a run

The log says what the report says: a line for everything that was skipped, written while the
run works, and then a line for every unit, under the key that the unit has in the report.  A
file that gets the log keeps what it held and grows by these lines.  Neither the report nor
the lines depend on where they go.

Main results:

- Theorem `content_writeAll`: what a file holds after lines were appended.
- Theorem `run_eq_generate`: a run that has a report is the run that nobody cancels.
- Theorem `log_mirrors_report`: the lines of a run and what a file holds after them.
-/

namespace SceneWiring

/-! ## Files that lines are appended to -/

namespace LogFile

variable {file : LogFile}

/-- A line is appended to what a file holds, and creates the file if there is none. -/
theorem write_of_canOpen (h : file.canOpen) (line : String) :
    file.write line =
      { file with content := some (file.content.getD "" ++ (line ++ "\n")) } := by
  rw [write, if_pos h, String.append_assoc]

/-- Lines are appended in order, and the first one creates the file if there is none. -/
theorem content_writeAll (h : file.canOpen) (lines : List String) :
    (file.writeAll lines).content =
      if lines = [] then file.content
      else some (file.content.getD "" ++ textOfLines lines) := by
  induction lines generalizing file with
  | nil => rfl
  | cons line rest ih =>
      have hrest : file.writeAll (line :: rest) = (file.write line).writeAll rest := rfl
      rw [hrest, write_of_canOpen h, ih (by exact h), if_neg (List.cons_ne_nil _ _),
        textOfLines_cons, Option.getD_some]
      split
      · rename_i hnil
        rw [hnil, textOfLines, List.map_nil, String.join_nil, String.append_empty]
      · rw [String.append_assoc]

end LogFile

/-! ## Runs -/

section

variable {options : Options} {model : SemanticModel} {cancelAt : Option Nat} {c : Compilation}

/-- A run that has a report is the run that nobody cancels: a cancellation came too late. -/
theorem run_eq_generate {report : Report}
    (h : (run options model cancelAt c).result = .ok report) :
    run options model cancelAt c = generate options model c := by
  have hrun := run_eq options model c cancelAt
  cases hdone : doneBeforeStop? cancelAt 0 (c.tasks options) with
  | none => rwa [hdone] at hrun
  | some done =>
      rw [hdone] at hrun
      rw [hrun] at h
      exact absurd h (by simp)

/-- A run is the same with its log elsewhere and with types worked on side by side or not. -/
theorem run_with_log_elsewhere (path : Option String) (sideBySide : Bool) :
    run { options with logPath := path, parallel := sideBySide } model cancelAt c =
      run options model cancelAt c := by
  have hwork : workTypes cancelAt { options with logPath := path, parallel := sideBySide }
      model c.scan {} = workTypes cancelAt options model c.scan {} := by
    rw [workTypes_eq, workTypes_eq]
    rfl
  rw [run, run, hwork]

end

/-- A run that nobody cancels has a report.  Any run that has one writes a line for everything
that the report says was skipped, in the order of the report, and then a line for every unit
of the report, under its key there.  A file that gets these lines holds what it held before
and then each of them with a line feed; a file that cannot be opened stays as it is.  The run
is the same wherever its log goes and whether types are worked on side by side. -/
theorem log_mirrors_report (options : Options) (model : SemanticModel) (c : Compilation) :
    (∃ report, (generate options model c).result = .ok report) ∧
    ∀ (cancelAt : Option Nat) (report : Report),
      (run options model cancelAt c).result = .ok report →
        (generate options model c).result = .ok report ∧
        (run options model cancelAt c).lines =
          report.skipped.map Skipped.message ++
            (report.units.map fun u => "generated " ++ u.key ++ " (" ++
              toString u.fragmentCount ++ " fragments, hook " ++ u.hook ++ ")") ∧
        (∀ file : LogFile, file.canOpen = true →
          (file.writeAll (run options model cancelAt c).lines).content =
            if (run options model cancelAt c).lines = [] then file.content
            else some (file.content.getD "" ++
              String.join ((run options model cancelAt c).lines.map fun line => line ++ "\n"))) ∧
        (∀ file : LogFile, file.canOpen = false →
          file.writeAll (run options model cancelAt c).lines = file) ∧
        ∀ (path : Option String) (sideBySide : Bool),
          run { options with logPath := path, parallel := sideBySide } model cancelAt c =
            run options model cancelAt c := by
  rcases lines_generate options model c with ⟨report, hreport, -, hlines⟩
  refine ⟨⟨report, hreport⟩, ?_⟩
  intro cancelAt report' hreport'
  have hrun := run_eq_generate hreport'
  rw [hrun, hreport] at hreport'
  obtain rfl : report = report' := by simpa using hreport'
  refine ⟨hreport, ?_, ?_, ?_, ?_⟩
  · rw [hrun, hlines]
    rfl
  · exact fun file hopen => LogFile.content_writeAll hopen _
  · exact fun file hclosed => LogFile.writeAll_of_not_canOpen hclosed _
  · exact run_with_log_elsewhere

end SceneWiring
