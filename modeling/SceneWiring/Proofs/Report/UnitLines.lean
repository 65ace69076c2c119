import SceneWiring.CodeUnit

/-!
# The lines of a unit

The text of a unit is a frame around its statements.  The frame comes from the type and the hook
alone: the lines above the method, the line that declares the method, its brace, and the closing
braces.  Every statement is a line of its own, as deep as there are blocks.

Main results:

- Definitions `EnclosingType.linesAbove` and `EnclosingType.linesBelow`: the frame of a unit.
- Theorem `layOut_unitSteps`: the lines of a unit.
-/

namespace SceneWiring

/-! ## Text -/

theorem textOfLines_cons (line : String) (rest : List String) :
    textOfLines (line :: rest) = line ++ "\n" ++ textOfLines rest := by
  rw [textOfLines, List.map_cons, String.join_cons, textOfLines]

/-- The text of lines is made part by part. -/
theorem textOfLines_append (xs ys : List String) :
    textOfLines (xs ++ ys) = textOfLines xs ++ textOfLines ys := by
  induction xs with
  | nil => exact String.empty_append.symm
  | cons line xs ih => simp only [List.cons_append, textOfLines_cons, ih, String.append_assoc]

/-! ## Steps of one kind -/

/-- Lines open and close no blocks. -/
@[simp]
theorem depthAfter_map_line (depth : Nat) (texts : List String) :
    depthAfter depth (texts.map Step.line) = depth := by
  induction texts with
  | nil => rfl
  | cons text texts ih => exact ih

@[simp]
theorem layOut_map_line (depth : Nat) (texts : List String) :
    layOut depth (texts.map Step.line) = texts.map (Step.indented depth) := by
  induction texts with
  | nil => rfl
  | cons text texts ih => exact congrArg (List.cons _) ih

/-- Every header opens a block. -/
@[simp]
theorem depthAfter_map_opening (depth : Nat) (headers : List String) :
    depthAfter depth (headers.map Step.opening) = depth + headers.length := by
  induction headers generalizing depth with
  | nil => rfl
  | cons header headers ih =>
      have hrest := ih (depth + 1)
      rw [List.length_cons, ← Nat.add_assoc, Nat.add_right_comm]
      exact hrest

/-! ## Frames -/

namespace EnclosingType

variable (t : EnclosingType)

/-- The headers of the blocks around the method, outermost first. -/
def headersAround : List String :=
  (if t.path.isEmpty then [] else ["namespace " ++ t.path]) ++
    t.containers.map Header.render ++ [t.header.render]

/-- The steps above the method. -/
def stepsAbove : List Step :=
  .line "// <auto-generated/>" :: (mergeUsings t.usings).map Step.line ++ [.blank] ++
    t.headersAround.map Step.opening

/-- The lines above the method. -/
def linesAbove : List String :=
  layOut 0 t.stepsAbove

/-- How many blocks are open at the method. -/
def depth : Nat :=
  t.headersAround.length

/-- The line that declares the method. -/
def hookLine (hook : String) : String :=
  Step.indented t.depth ("private void " ++ hook ++ "()")

/-- A statement of the method as a line. -/
def statementLine (statement : String) : String :=
  Step.indented (t.depth + 1) statement

/-- The lines below the statements. -/
def linesBelow : List String :=
  layOut (t.depth + 1) (List.replicate (t.depth + 1) Step.closing)

/-- The lines of a unit up to the end of the statements of its first fragments. -/
def linesThrough (hook : String) (fragments : List Fragment) : List String :=
  t.linesAbove ++ t.hookLine hook :: Step.indented t.depth "\x7b" ::
    (fragments.flatMap Fragment.statements).map t.statementLine

end EnclosingType

theorem blockHeaders_eq (t : EnclosingType) (hook : String) :
    blockHeaders t hook = t.headersAround ++ ["private void " ++ hook ++ "()"] := by
  simp [blockHeaders, EnclosingType.headersAround]

/-- The steps of a unit: those above the method, the method with its statements, and a brace for
every block. -/
theorem unitSteps_eq (t : EnclosingType) (hook : String) (fragments : List Fragment) :
    unitSteps t hook fragments =
      t.stepsAbove ++ .opening ("private void " ++ hook ++ "()") ::
        ((fragments.flatMap Fragment.statements).map Step.line ++
          List.replicate (t.depth + 1) .closing) := by
  have hclosings : (blockHeaders t hook).map (fun _ => Step.closing) =
      List.replicate (t.depth + 1) Step.closing := by
    rw [List.map_const', blockHeaders_eq, List.length_append]
    rfl
  rw [unitSteps, hclosings, blockHeaders_eq, List.map_append, EnclosingType.stepsAbove]
  simp only [List.append_assoc, List.cons_append, List.map_cons, List.map_nil, List.nil_append]

/-- The blocks that are open at the method are those of the headers. -/
theorem depthAfter_stepsAbove (t : EnclosingType) : depthAfter 0 t.stepsAbove = t.depth := by
  rw [EnclosingType.stepsAbove, ← List.map_cons, depthAfter_append, depthAfter_append,
    depthAfter_map_line, depthAfter_map_opening]
  exact Nat.zero_add _

/-- The lines of a unit: its frame around the statements of its fragments. -/
theorem layOut_unitSteps (t : EnclosingType) (hook : String) (fragments : List Fragment) :
    layOut 0 (unitSteps t hook fragments) =
      t.linesAbove ++ t.hookLine hook :: Step.indented t.depth "\x7b" ::
        ((fragments.flatMap Fragment.statements).map t.statementLine ++ t.linesBelow) := by
  have hmethod : ∀ header rest, layOut t.depth (.opening header :: rest) =
      Step.indented t.depth header :: Step.indented t.depth "\x7b" :: layOut (t.depth + 1) rest :=
    fun _ _ => rfl
  rw [unitSteps_eq, layOut_append, depthAfter_stepsAbove, hmethod, layOut_append, layOut_map_line,
    depthAfter_map_line]
  rfl

/-- The lines of a unit go on with the statements of the fragments that follow. -/
theorem layOut_unitSteps_append (t : EnclosingType) (hook : String) (fs gs : List Fragment) :
    layOut 0 (unitSteps t hook (fs ++ gs)) =
      t.linesThrough hook fs ++
        ((gs.flatMap Fragment.statements).map t.statementLine ++ t.linesBelow) := by
  rw [layOut_unitSteps, EnclosingType.linesThrough, List.flatMap_append, List.map_append]
  simp only [List.append_assoc, List.cons_append]

end SceneWiring
