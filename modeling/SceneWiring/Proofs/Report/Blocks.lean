import SceneWiring.Proofs.Report.UnitLines

/-!
# Blocks of a unit

The steps of a unit open and close blocks one by one and count how many are open.  What they stand
for is nested: a block holds further code, which is indented as a whole.  Steps print lines at some
depth if laying them out gives these lines, indented that far, if they close all blocks that they
open, and if they close no others.  Code is printed by its steps at every depth, by induction on how
it is nested.

Main results:

- Definition `Code.lines`: the lines of nested code.
- Structure `Prints`: steps that print lines and leave the open blocks alone.
- Theorem `Code.prints`: the steps of nested code print its lines.
- Definition `EnclosingType.code`: the nested code of a unit.
- Theorem `CodeUnit.text_assemble`: a unit prints its nested code.
-/

namespace SceneWiring

/-! ## Nested code -/

/-- Code as it is nested. -/
inductive Code
  | line (text : String)
  /-- A header, and the code in braces below it. -/
  | block (header : String) (body : List Code)

mutual

/-- The lines of code.  Those in a block are indented by four more spaces. -/
def Code.lines : Code → List String
  | .line text => [text]
  | .block header body =>
    header :: "\x7b" :: (Code.linesAll body).map ("    " ++ ·) ++ ["\x7d"]

/-- The lines of code one after the other. -/
def Code.linesAll : List Code → List String
  | [] => []
  | c :: cs => c.lines ++ Code.linesAll cs

end

mutual

/-- The steps that print code. -/
def Code.steps : Code → List Step
  | .line text => [.line text]
  | .block header body => .opening header :: Code.stepsAll body ++ [.closing]

/-- The steps that print code one after the other. -/
def Code.stepsAll : List Code → List Step
  | [] => []
  | c :: cs => c.steps ++ Code.stepsAll cs

end

/-! ## Steps that print lines -/

/-- Steps that close a block only where one is open that they have opened. -/
def ClosesOpened (depth : Nat) (steps : List Step) : Prop :=
  ∀ before after, steps = before ++ .closing :: after → depth < depthAfter depth before

/-- Steps that print lines inside open blocks, close all blocks that they open, and close no
others. -/
structure Prints (depth : Nat) (steps : List Step) (lines : List String) : Prop where
  layOut_eq : layOut depth steps = lines.map (Step.indented depth)
  depthAfter_eq : depthAfter depth steps = depth
  closesOpened : ClosesOpened depth steps

/-- Steps without a closing one close nothing. -/
theorem ClosesOpened.of_not_mem {depth : Nat} {steps : List Step} (h : Step.closing ∉ steps) :
    ClosesOpened depth steps := by
  rintro before after rfl
  simp at h

/-- A block is closed in the first part of the steps or in the second one. -/
theorem exists_of_append_eq_closing {xs ys before after : List Step}
    (h : xs ++ ys = before ++ .closing :: after) :
    (∃ rest, xs = before ++ .closing :: rest) ∨
      ∃ rest, before = xs ++ rest ∧ ys = rest ++ .closing :: after := by
  rcases List.append_eq_append_iff.mp h with ⟨rest, hbefore, hys⟩ | ⟨rest, hxs, hrest⟩
  · exact Or.inr ⟨rest, hbefore, hys⟩
  · cases rest with
    | nil => exact Or.inr ⟨[], by simpa using hxs.symm, hrest.symm⟩
    | cons s rest =>
        obtain ⟨rfl, -⟩ := List.cons.inj hrest
        exact Or.inl ⟨rest, hxs⟩

/-- A line inside one more block is a line that is indented by four more spaces. -/
theorem indented_succ (depth : Nat) (text : String) :
    Step.indented (depth + 1) text = Step.indented depth ("    " ++ text) := by
  have hspaces : String.ofList (List.replicate (4 * (depth + 1)) ' ') =
      String.ofList (List.replicate (4 * depth) ' ') ++ "    " := by
    rw [Nat.mul_succ, ← List.replicate_append_replicate, String.ofList_append]
    rfl
  rw [Step.indented, Step.indented, hspaces, String.append_assoc]

/-- Lines outside of all blocks are not indented. -/
theorem map_indented_zero (lines : List String) : lines.map (Step.indented 0) = lines := by
  have hsame : ∀ text ∈ lines, Step.indented 0 text = id text := fun _ _ => String.empty_append
  rw [List.map_congr_left hsame, List.map_id]

namespace Prints

variable {depth : Nat} {xs ys steps : List Step} {ls ms lines : List String}

/-- A line stands where it is printed. -/
theorem line (depth : Nat) (text : String) : Prints depth [.line text] [text] where
  layOut_eq := rfl
  depthAfter_eq := rfl
  closesOpened := .of_not_mem (by simp)

/-- An empty line is not indented, so it is printed outside of all blocks only. -/
theorem blank : Prints 0 [.blank] [""] where
  layOut_eq := rfl
  depthAfter_eq := rfl
  closesOpened := .of_not_mem (by simp)

theorem nil (depth : Nat) : Prints depth [] [] where
  layOut_eq := rfl
  depthAfter_eq := rfl
  closesOpened := .of_not_mem List.not_mem_nil

/-- Steps one after the other print one after the other. -/
theorem append (hxs : Prints depth xs ls) (hys : Prints depth ys ms) :
    Prints depth (xs ++ ys) (ls ++ ms) where
  layOut_eq := by
    rw [layOut_append, hxs.depthAfter_eq, hxs.layOut_eq, hys.layOut_eq, List.map_append]
  depthAfter_eq := by
    rw [depthAfter_append, hxs.depthAfter_eq, hys.depthAfter_eq]
  closesOpened := by
    intro before after h
    rcases exists_of_append_eq_closing h with ⟨rest, hrest⟩ | ⟨rest, rfl, hrest⟩
    · exact hxs.closesOpened before rest hrest
    · rw [depthAfter_append, hxs.depthAfter_eq]
      exact hys.closesOpened rest after hrest

theorem map_line (depth : Nat) (texts : List String) :
    Prints depth (texts.map Step.line) texts := by
  induction texts with
  | nil => exact .nil depth
  | cons text texts ih => exact (line depth text).append ih

/-- A block prints its header, a brace, what its steps print as one block deeper, and the other
brace. -/
theorem block (header : String) (hbody : Prints (depth + 1) steps lines) :
    Prints depth (.opening header :: steps ++ [.closing])
      (header :: "\x7b" :: lines.map ("    " ++ ·) ++ ["\x7d"]) where
  layOut_eq := by
    have hinside : layOut (depth + 1) (steps ++ [.closing]) =
        lines.map (Step.indented (depth + 1)) ++ [Step.indented depth "\x7d"] := by
      rw [layOut_append, hbody.layOut_eq, hbody.depthAfter_eq]
      rfl
    have hlines : lines.map (Step.indented (depth + 1)) =
        (lines.map ("    " ++ ·)).map (Step.indented depth) := by
      rw [List.map_map]
      exact List.map_congr_left fun text _ => indented_succ depth text
    calc
      layOut depth (.opening header :: steps ++ [.closing])
          = Step.indented depth header :: Step.indented depth "\x7b" ::
              layOut (depth + 1) (steps ++ [.closing]) := rfl
      _ = _ := by
          rw [hinside, hlines]
          simp
  depthAfter_eq := by
    calc
      depthAfter depth (.opening header :: steps ++ [.closing])
          = depthAfter (depthAfter (depth + 1) steps) [.closing] := depthAfter_append _ _ _
      _ = depth := by
          rw [hbody.depthAfter_eq]
          rfl
  closesOpened := by
    intro before after h
    cases before with
    | nil => cases h
    | cons s before =>
        obtain ⟨rfl, hinside⟩ := List.cons.inj h
        have hopen : depth + 1 ≤ depthAfter (depth + 1) before := by
          -- Either the body closes a block of its own, or this is the brace of the block itself.
          rcases exists_of_append_eq_closing hinside with ⟨rest, hrest⟩ | ⟨rest, rfl, hrest⟩
          · exact Nat.le_of_lt (hbody.closesOpened before rest hrest)
          · obtain rfl : rest = [] := by
              cases rest with
              | nil => rfl
              | cons s rest => simp at hrest
            exact Nat.le_of_eq (by rw [List.append_nil, hbody.depthAfter_eq])
        exact hopen

end Prints

mutual

/-- The steps of code print its lines, at whatever depth. -/
theorem Code.prints : ∀ (c : Code) (depth : Nat), Prints depth c.steps c.lines
  | .line text, depth => .line depth text
  | .block header body, depth => .block header (Code.prints_all body (depth + 1))

/-- The steps of code one after the other print its lines. -/
theorem Code.prints_all :
    ∀ (cs : List Code) (depth : Nat), Prints depth (Code.stepsAll cs) (Code.linesAll cs)
  | [], depth => .nil depth
  | c :: cs, depth => (Code.prints c depth).append (Code.prints_all cs depth)

end

/-! ## Blocks one in the other -/

/-- Steps inside blocks, one in the other. -/
def inBlocks (headers : List String) (inside : List Step) : List Step :=
  headers.map Step.opening ++ inside ++ headers.map fun _ => Step.closing

/-- The outermost block is opened first and closed last. -/
theorem inBlocks_cons (header : String) (headers : List String) (inside : List Step) :
    inBlocks (header :: headers) inside =
      .opening header :: inBlocks headers inside ++ [.closing] := by
  have hclosings : ((header :: headers).map fun _ => Step.closing) =
      (headers.map fun _ => Step.closing) ++ [Step.closing] := by
    rw [List.map_const', List.map_const', List.length_cons, List.replicate_succ']
  rw [inBlocks, inBlocks, hclosings]
  simp

theorem inBlocks_append (outer inner : List String) (inside : List Step) :
    inBlocks (outer ++ inner) inside = inBlocks outer (inBlocks inner inside) := by
  induction outer with
  | nil => simp [inBlocks]
  | cons header outer ih => rw [List.cons_append, inBlocks_cons, inBlocks_cons, ih]

theorem Code.stepsAll_map_line (texts : List String) :
    Code.stepsAll (texts.map Code.line) = texts.map Step.line := by
  induction texts with
  | nil => rfl
  | cons text texts ih => exact congrArg (List.cons _) ih

/-- The steps of a block around code. -/
theorem Code.steps_block_singleton (header : String) (c : Code) :
    (Code.block header [c]).steps = inBlocks [header] c.steps := by
  rw [Code.steps, Code.stepsAll, Code.stepsAll, List.append_nil]
  simp [inBlocks]

/-- The steps of blocks one in the other around code. -/
theorem Code.steps_foldr_block (headers : List Header) (c : Code) :
    (headers.foldr (fun header inside => Code.block header.render [inside]) c).steps =
      inBlocks (headers.map Header.render) c.steps := by
  induction headers with
  | nil => simp [inBlocks]
  | cons header headers ih =>
      rw [List.foldr_cons, Code.steps_block_singleton, ih, ← inBlocks_append]
      rfl

/-! ## Units -/

/-- The method of a unit. -/
def hookMethod (hook : String) (fragments : List Fragment) : Code :=
  .block ("private void " ++ hook ++ "()")
    ((fragments.flatMap Fragment.statements).map Code.line)

/-- The part of a type that a unit declares, in blocks of the types around it, outermost first. -/
def EnclosingType.partInContainers (t : EnclosingType) (hook : String)
    (fragments : List Fragment) : Code :=
  t.containers.foldr (fun container inside => .block container.render [inside])
    (.block t.header.render [hookMethod hook fragments])

/-- The code of a unit: the part in its containers, in a block of the namespace if there is one. -/
def EnclosingType.code (t : EnclosingType) (hook : String) (fragments : List Fragment) : Code :=
  if t.path = "" then t.partInContainers hook fragments
  else .block ("namespace " ++ t.path) [t.partInContainers hook fragments]

theorem hookMethod_steps (hook : String) (fragments : List Fragment) :
    (hookMethod hook fragments).steps = inBlocks ["private void " ++ hook ++ "()"]
      ((fragments.flatMap Fragment.statements).map Step.line) := by
  rw [hookMethod, Code.steps, Code.stepsAll_map_line]
  simp [inBlocks]

/-- The steps of a unit's nested code open and close the blocks of the unit. -/
theorem EnclosingType.code_steps (t : EnclosingType) (hook : String) (fragments : List Fragment) :
    (t.code hook fragments).steps =
      inBlocks (blockHeaders t hook) ((fragments.flatMap Fragment.statements).map Step.line) := by
  have hpart : (t.partInContainers hook fragments).steps =
      inBlocks (t.containers.map Header.render ++ [t.header.render] ++
          ["private void " ++ hook ++ "()"])
        ((fragments.flatMap Fragment.statements).map Step.line) := by
    rw [partInContainers, Code.steps_foldr_block, Code.steps_block_singleton, hookMethod_steps,
      inBlocks_append, inBlocks_append]
  by_cases hpath : t.path = ""
  · rw [code, if_pos hpath, hpart, blockHeaders_eq, headersAround]
    simp [hpath]
  · rw [code, if_neg hpath, Code.steps_block_singleton, hpart, ← inBlocks_append, blockHeaders_eq,
      headersAround]
    simp [hpath]

/-- The steps of a unit print a line that marks it, its using directives, an empty line, and its
nested code. -/
theorem unitSteps_prints (t : EnclosingType) (hook : String) (fragments : List Fragment) :
    Prints 0 (unitSteps t hook fragments)
      ("// <auto-generated/>" :: mergeUsings t.usings ++ "" :: (t.code hook fragments).lines) := by
  have hsteps : unitSteps t hook fragments =
      ("// <auto-generated/>" :: mergeUsings t.usings).map Step.line ++
        ([.blank] ++ (t.code hook fragments).steps) := by
    rw [EnclosingType.code_steps, inBlocks, unitSteps]
    simp
  rw [hsteps]
  exact (Prints.map_line 0 _).append (Prints.blank.append ((t.code hook fragments).prints 0))

/-- The text of a unit is that of its nested code, below the line that marks it, its using
directives and an empty line.  Every line ends in a line feed.  In the end no block is open, and
none is closed where none is open. -/
theorem CodeUnit.text_assemble (t : EnclosingType) (fragments : List Fragment)
    (options : Options) :
    (CodeUnit.assemble t fragments options).text =
        String.join (("// <auto-generated/>" :: mergeUsings t.usings ++
          "" :: (t.code (options.hook (wantsPlayHook fragments)) fragments).lines).map
            (· ++ "\n")) ∧
      depthAfter 0 (unitSteps t (options.hook (wantsPlayHook fragments)) fragments) = 0 ∧
      ClosesOpened 0 (unitSteps t (options.hook (wantsPlayHook fragments)) fragments) := by
  have hprints := unitSteps_prints t (options.hook (wantsPlayHook fragments)) fragments
  refine ⟨?_, hprints.depthAfter_eq, hprints.closesOpened⟩
  have htext : (CodeUnit.assemble t fragments options).text =
      textOfLines (layOut 0 (unitSteps t (options.hook (wantsPlayHook fragments)) fragments)) := rfl
  rw [htext, hprints.layOut_eq, map_indented_zero, textOfLines]

/-- A type inside another one, in no namespace. -/
example : (EnclosingType.code ⟨⟨"Lamp", [], .internalAccess, false, true⟩,
      [⟨"Hall", ["T"], .publicAccess, true, true⟩], "", []⟩ "Awake" []).lines =
    ["public sealed partial class Hall<T>", "\x7b", "    internal partial class Lamp",
      "    \x7b", "        private void Awake()", "        \x7b", "        \x7d", "    \x7d",
      "\x7d"] := by
  decide +kernel

end SceneWiring
