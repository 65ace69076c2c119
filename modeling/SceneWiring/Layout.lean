/-!
# Laying out code

Code is a list of steps: lines, empty lines, and the opening and closing of blocks.
Laying it out keeps the number of open blocks and indents every line by four spaces
for each.

Main results:

- Definition `layOut`: the lines of a list of steps.
- Theorem `layOut_append`: code is laid out part by part.
- Theorem `depthAfter_append`: so is the number of open blocks.
-/

namespace SceneWiring

/-! ## Steps -/

/-- One step of code. -/
inductive Step
  | line (text : String)
  | blank
  /-- A line that opens a block, and its brace. -/
  | opening (header : String)
  | closing
deriving DecidableEq, Repr

namespace Step

/-- The number of open blocks after a step. -/
def depthAfter (depth : Nat) : Step → Nat
  | .opening _ => depth + 1
  | .closing => depth - 1
  | .line _ => depth
  | .blank => depth

/-- A line inside open blocks. -/
def indented (depth : Nat) (text : String) : String :=
  String.ofList (List.replicate (4 * depth) ' ') ++ text

/-- The lines of a step inside open blocks. -/
def lines (depth : Nat) : Step → List String
  | .line text => [indented depth text]
  | .blank => [""]
  | .opening header => [indented depth header, indented depth "\x7b"]
  | .closing => [indented (depth - 1) "\x7d"]

end Step

/-! ## Lists of steps -/

/-- The number of open blocks after a list of steps. -/
def depthAfter (depth : Nat) (steps : List Step) : Nat :=
  steps.foldl Step.depthAfter depth

/-- The lines of a list of steps inside open blocks. -/
def layOut (depth : Nat) : List Step → List String
  | [] => []
  | s :: rest => s.lines depth ++ layOut (s.depthAfter depth) rest

/-- The text of lines, every one of which ends in a line feed. -/
def textOfLines (lines : List String) : String :=
  String.join (lines.map fun line => line ++ "\n")

/-- The number of open blocks is counted part by part. -/
theorem depthAfter_append (depth : Nat) (xs ys : List Step) :
    depthAfter depth (xs ++ ys) = depthAfter (depthAfter depth xs) ys := by
  exact List.foldl_append

/-- Code is laid out part by part. -/
theorem layOut_append (depth : Nat) (xs ys : List Step) :
    layOut depth (xs ++ ys) = layOut depth xs ++ layOut (depthAfter depth xs) ys := by
  induction xs generalizing depth with
  | nil => simp [layOut, depthAfter]
  | cons s xs ih => simp [layOut, depthAfter, ih, List.append_assoc]

end SceneWiring
