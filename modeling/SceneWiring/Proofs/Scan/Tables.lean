import SceneWiring.Scan
import SceneWiring.Proofs.Declaration.HookCalls

/-!
# The tables of a scanner

A scanner can keep what it knows of types in tables side by side: one of the types found, one of the
types around them, one that finds a type by its key, one of the files merged into a type, and two
stacks for the types around the walk.  All of them refer to a type by its position among those
found, so that a position out of range in one of them would end the scan.  The containers of a type
are found by following positions outwards, as long as there are any.

Main results:

- Definition `ScanTables.steps`: the scanner, which has no state any more once it has used a
  position out of range.
- Definition `ScanTables.HasContainers`: what is met on the way outwards, if that ends.
- Definition `ScanTables.Sound`: how the tables fit together.
- Theorem `Sound.climbsEnd`: in tables that fit together, the way outwards ends from every type.
-/

namespace SceneWiring

/-! ## Tables -/

/-- The state of a scanner that refers to types by their positions. -/
structure ScanTables where
  file : String := ""
  /-- The using directives at the top of the file. -/
  fileUsings : List UsingDirective := []
  /-- The names of the namespaces around the walk, outermost first. -/
  namespaces : List String := []
  /-- The names of the types around the walk, outermost first. -/
  typeNames : List String := []
  /-- The positions of the types around the walk, outermost first. -/
  typeStack : List Nat := []
  /-- The types met so far; their containers are filled in at last. -/
  found : List MarkedType := []
  /-- The positions of the types around those met so far. -/
  parents : List (Option Nat) := []
  /-- The positions of keys. -/
  index : Std.HashMap String Nat := {}
  /-- The files whose using directives have been added to the type at a position. -/
  mergedFiles : Std.HashMap Nat (List String) := {}

namespace MarkedType

/-- The type with one more part. -/
def addPart (part : TypePart) (t : MarkedType) : MarkedType :=
  { t with others := t.others ++ [part] }

/-- The type with more using directives. -/
def addUsings (usings : List UsingDirective) (t : MarkedType) : MarkedType :=
  { t with usings := t.usings ++ usings }

/-- The type with one more candidate. -/
def addCandidate (c : Candidate) (t : MarkedType) : MarkedType :=
  { t with candidates := t.candidates ++ [c] }

end MarkedType

namespace ScanTables

/-- The key of a type of the given name at the place where the walk stands. -/
def keyOf (t : ScanTables) (name : String) : String :=
  typeKey t.namespaces (t.typeNames ++ [Text.trim name])

/-- The type that a first part makes. -/
def newType (t : ScanTables) (part : TypePart) : MarkedType where
  first := part
  others := []
  containers := []
  namespaces := t.namespaces
  file := t.file
  usings := []
  candidates := []

/-- Change the type at a position, which must be in range. -/
def change? (i : Nat) (f : MarkedType → MarkedType) (t : ScanTables) : Option ScanTables :=
  if i < t.found.length then some { t with found := t.found.modify i f } else none

/-- Add a part to its type, and tell the position of the type. -/
def place? (part : TypePart) (t : ScanTables) : Option (Nat × ScanTables) :=
  match t.index[t.keyOf part.name]? with
  | some i => (t.change? i (.addPart part)).map (i, ·)
  | none =>
    let found := t.found ++ [t.newType part]
    let i := found.length - 1
    some (i, { t with
      found := found
      parents := t.parents ++ [t.typeStack.getLast?]
      index := t.index.insert (t.keyOf part.name) i })

/-- Add the using directives of the file to the type at a position, unless it has them. -/
def mergeFile? (i : Nat) (t : ScanTables) : Option ScanTables :=
  let merged := t.mergedFiles.getD i []
  if merged.contains t.file then some t
  else
    { t with mergedFiles := t.mergedFiles.insert i (merged ++ [t.file]) }.change? i
      (.addUsings t.fileUsings)

/-! ### Steps -/

/-- Start with a file. -/
def enterFile (f : SourceFile) (t : ScanTables) : ScanTables :=
  { t with file := f.path, fileUsings := f.usings }

/-- Go into a namespace. -/
def enterScope (head : ScopeHead) (t : ScanTables) : ScanTables :=
  { t with namespaces := t.namespaces ++ [head.name] }

/-- Come out of a namespace. -/
def leaveScope (t : ScanTables) : ScanTables :=
  { t with namespaces := t.namespaces.dropLast }

/-- Put a type at the end of the stacks. -/
def push (i : Nat) (name : String) (t : ScanTables) : ScanTables :=
  { t with typeStack := t.typeStack ++ [i], typeNames := t.typeNames ++ [name] }

/-- Go into a part of a type. -/
def enterType? (part : TypePart) (t : ScanTables) : Option ScanTables := do
  let (i, placed) ← t.place? part
  let merged ← placed.mergeFile? i
  return merged.push i (Text.trim part.name)

/-- Come out of a part of a type. -/
def leaveType (t : ScanTables) : ScanTables :=
  { t with typeNames := t.typeNames.dropLast, typeStack := t.typeStack.dropLast }

/-- Note a member, if it is a candidate and stands in a type. -/
def addMember? (m : Member) (t : ScanTables) : Option ScanTables :=
  match m.isMarked, t.typeStack.getLast? with
  | true, some i => t.change? i (.addCandidate ⟨m, t.file⟩)
  | _, _ => some t

/-- The scanner.  It has a state as long as all positions have been in range. -/
def steps : ScanSteps (Option ScanTables) where
  enterFile f := Option.map (enterFile f)
  enterScope head := Option.map (enterScope head)
  leaveScope := Option.map leaveScope
  enterType part t := t.bind (enterType? part)
  leaveType := Option.map leaveType
  addMember m t := t.bind (addMember? m)

/-! ## The way outwards -/

/-- The way outwards from a position: at each position the parts of the type are collected, and the
way goes on at that of the type around it.  It ends outside all types. -/
inductive Climbs (t : ScanTables) : Option Nat → List (List TypePart) → Prop
  | done : Climbs t none []
  | up {i : Nat} {type : MarkedType} {parent : Option Nat} {chain : List (List TypePart)}
      (type_eq : t.found[i]? = some type) (parent_eq : t.parents[i]? = some parent)
      (rest : Climbs t parent chain) : Climbs t (some i) (type.parts :: chain)

/-- The parts of the types around the type at a position, outermost first. -/
def HasContainers (t : ScanTables) (i : Nat) (containers : List (List TypePart)) : Prop :=
  ∃ parent, t.parents[i]? = some parent ∧ t.Climbs parent containers.reverse

/-- From every type the way outwards ends, after no more steps than there are types before it. -/
def ClimbsEnd (t : ScanTables) : Prop :=
  ∀ i < t.found.length, ∃ containers, t.HasContainers i containers ∧ containers.length ≤ i ∧
    ∀ others, t.HasContainers i others → others = containers

/-- The types with candidates, with the given containers of all types. -/
def results (t : ScanTables) (containers : List (List (List TypePart))) : List MarkedType :=
  ((t.found.zip containers).filter fun x => !x.1.candidates.isEmpty).map fun x =>
    { x.1 with containers := x.2 }

/-- Tables that fit together, where the types have the given keys, in the order in which they were
met. -/
structure Sound (keys : List String) (t : ScanTables) : Prop where
  length_keys : keys.length = t.found.length
  length_parents : t.parents.length = t.found.length
  length_typeNames : t.typeNames.length = t.typeStack.length
  parent_lt : ∀ {i p : Nat}, t.parents[i]? = some (some p) → p < i
  stack_lt : ∀ i ∈ t.typeStack, i < t.found.length
  index_lt : ∀ {key : String} {i : Nat}, t.index[key]? = some i → i < t.found.length
  index_injective : ∀ {key key' : String} {i : Nat},
    t.index[key]? = some i → t.index[key']? = some i → key = key'
  index_eq_iff : ∀ {key : String} {i : Nat}, t.index[key]? = some i ↔ keys[i]? = some key

/-- There is one way outwards. -/
theorem Climbs.unique {t : ScanTables} {parent : Option Nat} {chain chain' : List (List TypePart)}
    (h : t.Climbs parent chain) (h' : t.Climbs parent chain') : chain = chain' := by
  induction h generalizing chain' with
  | done =>
      cases h' with
      | done => rfl
  | up htype hparent _ ih =>
      cases h' with
      | up htype' hparent' hrest' =>
          rw [htype, Option.some.injEq] at htype'
          rw [hparent, Option.some.injEq] at hparent'
          subst htype' hparent'
          rw [ih hrest']

theorem HasContainers.unique {t : ScanTables} {i : Nat}
    {containers containers' : List (List TypePart)} (h : t.HasContainers i containers)
    (h' : t.HasContainers i containers') : containers = containers' := by
  rcases h with ⟨parent, hparent, hclimb⟩
  rcases h' with ⟨parent', hparent', hclimb'⟩
  rw [hparent, Option.some.injEq] at hparent'
  subst hparent'
  exact List.reverse_inj.mp (hclimb.unique hclimb')

namespace Sound

variable {keys : List String} {t : ScanTables}

/-- Each step outwards leads to an earlier position, so that the way ends. -/
theorem exists_hasContainers (h : t.Sound keys) (i : Nat) (hi : i < t.found.length) :
    ∃ containers, t.HasContainers i containers ∧ containers.length ≤ i := by
  induction i using Nat.strongRecOn with
  | ind i ih =>
      obtain ⟨parent, hparent⟩ : ∃ parent, t.parents[i]? = some parent :=
        ⟨_, List.getElem?_eq_getElem (h.length_parents ▸ hi)⟩
      cases parent with
      | none => exact ⟨[], ⟨none, hparent, .done⟩, Nat.zero_le i⟩
      | some p =>
          have hlt : p < i := h.parent_lt hparent
          have hp : p < t.found.length := Nat.lt_trans hlt hi
          rcases ih p hlt hp with ⟨containers, ⟨parent', hparent', hclimb⟩, hlength⟩
          refine ⟨containers ++ [t.found[p].parts], ⟨some p, hparent, ?_⟩, ?_⟩
          · rw [List.reverse_concat]
            exact .up (List.getElem?_eq_getElem hp) hparent' hclimb
          · rw [List.length_append]
            exact Nat.lt_of_le_of_lt hlength hlt

/-- In tables that fit together, the way outwards ends from every type. -/
theorem climbsEnd (h : t.Sound keys) : t.ClimbsEnd := by
  intro i hi
  rcases h.exists_hasContainers i hi with ⟨containers, hcontainers, hlength⟩
  exact ⟨containers, hcontainers, hlength, fun others hothers => hothers.unique hcontainers⟩

end Sound
end ScanTables
end SceneWiring
