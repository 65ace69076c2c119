import SceneWiring.Json.Doc

/-!
# Reading values and records

A record format lists the fields of a record in declaration order, tells for each
how its value is read, and builds the result from the values.  A record can be written in two
forms: as a JSON object with the fields in any order, or as a JSON list of the
values in declaration order.

Fields are read in the order in which they are written, so the first problem of the
document is the one reported.  Required fields that are missing are reported only
then, the first declared one first.

Main results:

- Definition `RecordFormat.read`: a record in either form.
- Theorem `names_ap`: the fields of a combined format are those of its parts.
-/

namespace SceneWiring
namespace Json

/-! ## Plain values -/

/-- The problem of a value that is not of the expected type. -/
def Doc.refuse (expected : String) : Doc → Problem
  | .null => .mismatch (.wrongType .null expected)
  | .bool b => .mismatch (.wrongType (.boolean b) expected)
  | .number n =>
    match n.value? with
    | some (.integer k) => .mismatch (.wrongType (.integer k) expected)
    | some (.float x) => .mismatch (.wrongType (.float x.toBits.toNat) expected)
    | none => .malformed .range
  | .text t =>
    match t.text with
    | .ok s => .mismatch (.wrongType (.text s) expected)
    | .error p => p
  | .list _ _ => .mismatch (.wrongType .list expected)
  | .record _ _ => .mismatch (.wrongType .record expected)
  | .bad d => d.report .kept

/-- A text, under the name that messages give it. -/
def readTextAs (expected : String) : Doc → Except Problem String
  | .text t => t.text
  | d => .error (d.refuse expected)

/-- A text. -/
def readText (d : Doc) : Except Problem String :=
  readTextAs "a string" d

/-- A value or null. -/
def readOptional {α : Type} (read : Doc → Except Problem α) : Doc → Except Problem (Option α)
  | .null => .ok none
  | d => some <$> read d

/-- A truth value. -/
def readFlag : Doc → Except Problem Bool
  | .bool b => .ok b
  | d => .error (d.refuse "a boolean")

/-- A natural number below `2 ^ 32`. -/
def readWord32 : Doc → Except Problem UInt32
  | .number n =>
    match n.value? with
    | some (.integer k) =>
      if 0 ≤ k ∧ k < Nat.pow 2 32 then .ok (UInt32.ofNat k.toNat)
      else .error (.mismatch (.wrongValue k "u32"))
    | _ => .error ((Doc.number n).refuse "u32")
  | d => .error (d.refuse "u32")

/-- A list of values, read one after the other. -/
def readList {α : Type} (read : Doc → Except Problem α) : Doc → Except Problem (List α)
  | .list items close => do
    let values ← items.mapM read
    noProblem (close.listProblem? .kept)
    return values
  | d => .error (d.refuse "a sequence")

/-! ## Record formats -/

/-- How a record of one kind is read. -/
structure RecordFormat (α : Type) where
  /-- The values of the fields read so far. -/
  Draft : Type
  /-- No field has been read. -/
  empty : Draft
  /-- The fields in declaration order, each with the reader that adds its value. -/
  fields : List (String × (Doc → Draft → Except Problem Draft))
  /-- The result, once all fields have been read; the first argument gives the problem
  of a required field that is missing. -/
  build : (String → Problem) → Draft → Except Problem α

namespace RecordFormat

/-- A record without fields. -/
def pure {α : Type} (a : α) : RecordFormat α where
  Draft := Unit
  empty := ()
  fields := []
  build := fun _ _ => .ok a

/-- A field that has to be written. -/
def required {α : Type} (name : String) (read : Doc → Except Problem α) : RecordFormat α where
  Draft := Option α
  empty := none
  fields := [(name, fun d _ => some <$> read d)]
  build := fun absent draft =>
    match draft with
    | some a => .ok a
    | none => .error (absent name)

/-- A field that can be left out. -/
def optional {α : Type} (name : String) (whenAbsent : α) (read : Doc → Except Problem α) :
    RecordFormat α where
  Draft := α
  empty := whenAbsent
  fields := [(name, fun d _ => read d)]
  build := fun _ draft => .ok draft

/-- The fields of one format followed by those of another. -/
def ap {α β : Type} (f : RecordFormat (α → β)) (g : RecordFormat α) : RecordFormat β where
  Draft := f.Draft × g.Draft
  empty := (f.empty, g.empty)
  fields :=
    f.fields.map (fun (name, read) =>
      (name, fun d draft => (fun left => (left, draft.2)) <$> read d draft.1)) ++
    g.fields.map (fun (name, read) =>
      (name, fun d draft => (fun right => (draft.1, right)) <$> read d draft.2))
  build := fun absent draft => do
    let make ← f.build absent draft.1
    let a ← g.build absent draft.2
    return make a

/-- The names of the fields in declaration order. -/
def names {α : Type} (f : RecordFormat α) : List String :=
  f.fields.map Prod.fst

/-- The fields of a combined format are those of its parts. -/
@[simp]
theorem names_ap {α β : Type} (f : RecordFormat (α → β)) (g : RecordFormat α) :
    (f.ap g).names = f.names ++ g.names := by
  simp [names, ap, Function.comp_def]

/-! ### The object form -/

/-- Read the fields of an object in the order in which they are written; `seen` are the
names of the known fields before them. -/
def addFields {α : Type} (f : RecordFormat α) (seen : List String) (draft : f.Draft) :
    List Field → Except Problem f.Draft
  | [] => .ok draft
  | .mk key value :: rest => do
    let name ← key.text
    match f.fields.lookup name with
    | some add =>
      if seen.contains name then throw (.mismatch (.duplicate name))
      let draft ← add value draft
      f.addFields (name :: seen) draft rest
    | none =>
      value.skip
      f.addFields seen draft rest

/-- Read a record in the object form. -/
def readFields {α : Type} (f : RecordFormat α) (fields : List Field) (close : Close) :
    Except Problem α := do
  let draft ← f.addFields [] f.empty fields
  noProblem (close.recordProblem? .kept)
  f.build (fun name => .mismatch (.missing name)) draft

/-! ### The list form -/

/-- Whether a record is read straight from the text or from values that were read
and kept before. -/
inductive Layer
  | streamed
  | buffered
deriving DecidableEq, Repr

/-- A number of elements in words. -/
def countElements (n : Nat) : String :=
  if n = 1 then "1 element" else toString n ++ " elements"

/-- The problem of a list that goes on after its last field. -/
def surplus? (layer : Layer) (expected : Nat) (items : List Doc) (close : Close) :
    Option Problem :=
  match layer with
  | .streamed =>
    if items.length ≤ expected then
      match close with
      | .closed => none
      | .ended => some (.truncated .list)
      | .commaClosed => some (.malformed .trailingComma)
      | .endedAfterComma | .unseparated | .badKey => some (.malformed .trailing)
    else some (.malformed .trailing)
  | .buffered =>
    if items.length ≤ expected then none
    else
      some (.mismatch (.wrongLength items.length (countElements expected ++ " in sequence")))

/-- Read the values of a list, each as the next field. -/
def addItems {δ : Type} : List (String × (Doc → δ → Except Problem δ)) → List Doc → δ →
    Except Problem δ
  | (_, add) :: fields, value :: values, draft => do
    let draft ← add value draft
    addItems fields values draft
  | _, _, draft => .ok draft

/-- Read a record in the list form. -/
def readItems {α : Type} (f : RecordFormat α) (layer : Layer) (title : String)
    (items : List Doc) (close : Close) : Except Problem α := do
  let draft ← addItems f.fields items f.empty
  let expected := f.fields.length
  if items.length < expected then
    noProblem (close.listProblem? .kept)
  else
    noProblem (surplus? layer expected items close)
  let absent (name : String) : Problem :=
    .mismatch (.wrongLength (f.names.idxOf name)
      ("struct " ++ title ++ " with " ++ countElements expected))
  f.build absent draft

/-! ### Either form -/

/-- Read a record in either form. -/
def read {α : Type} (f : RecordFormat α) (layer : Layer) (title : String) :
    Doc → Except Problem α
  | .record fields close => f.readFields fields close
  | .list items close => f.readItems layer title items close
  | d => .error (d.refuse ("struct " ++ title))

end RecordFormat
end Json
end SceneWiring
