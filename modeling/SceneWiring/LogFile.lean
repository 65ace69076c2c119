/-!
# The log file

The log is appended to a file, line by line.  The file is created by the first line.
If it cannot be opened, the lines are lost and nothing else happens.

Main results:

- Theorem `writeAll_of_not_canOpen`: a file that cannot be opened stays as it is.
-/

namespace SceneWiring

/-- A file that lines are appended to. -/
structure LogFile where
  /-- Whether the file can be opened or created. -/
  canOpen : Bool
  /-- What the file holds, if it exists. -/
  content : Option String
deriving DecidableEq, Repr

namespace LogFile

/-- Append a line. -/
def write (file : LogFile) (line : String) : LogFile :=
  if file.canOpen then { file with content := some (file.content.getD "" ++ line ++ "\n") }
  else file

/-- Append lines in order. -/
def writeAll (file : LogFile) (lines : List String) : LogFile :=
  lines.foldl write file

/-- What the file holds at first and after each line. -/
def states (file : LogFile) : List String → List (Option String)
  | [] => [file.content]
  | line :: rest => file.content :: (file.write line).states rest

/-- A file that cannot be opened stays as it is. -/
theorem writeAll_of_not_canOpen {file : LogFile} (h : file.canOpen = false)
    (lines : List String) : file.writeAll lines = file := by
  induction lines with
  | nil => rfl
  | cons line rest ih =>
    have same : file.write line = file := by simp [write, h]
    simpa [writeAll, same] using ih

end LogFile
end SceneWiring
