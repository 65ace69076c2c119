import SceneWiring.Json.Number
import SceneWiring.Json.StringToken

/-!
# Documents

A document is the tree of a JSON text up to the first place where its structure
breaks.  A list or a record remembers how it stopped, so the tree of a broken text
still tells what stood before the break and what is wrong there.

A value can be kept or skipped.  A kept value is read with all checks; of a skipped
one only the structure counts.  The two differ in wording at a few places, because a
kept list or record is left with its fields in hand and a skipped one is not.

Main results:

- Definition `Doc.keep`: the first problem of a kept value, with a nesting allowance.
- Definition `Doc.skip`: the first problem of a skipped value.
-/

namespace SceneWiring
namespace Json

/-! ## Where a list or a record stops -/

/-- What a value is read for. -/
inductive Reading
  | kept
  | skipped
deriving DecidableEq, Repr

/-- How a list or a record stopped. -/
inductive Close
  /-- At its closing bracket. -/
  | closed
  /-- The text ended where a separator or the closing bracket was due. -/
  | ended
  /-- The text ended after a comma. -/
  | endedAfterComma
  /-- The closing bracket follows a comma. -/
  | commaClosed
  /-- Something else stands where a separator was due. -/
  | unseparated
  /-- Something other than a string stands where a field name was due. -/
  | badKey
deriving DecidableEq, Repr

/-- What is wrong with a list that stopped in this way. -/
def Close.listProblem? (reading : Reading) : Close → Option Problem
  | .closed => none
  | .ended => some (.truncated .list)
  | .endedAfterComma => some (.truncated .value)
  | .commaClosed =>
    match reading with
    | .kept => some (.malformed .trailingComma)
    | .skipped => some (.malformed .value)
  | .unseparated => some (.malformed .listSeparator)
  | .badKey => some (.malformed .key)

/-- What is wrong with a record that stopped in this way. -/
def Close.recordProblem? (reading : Reading) : Close → Option Problem
  | .closed => none
  | .ended => some (.truncated .record)
  | .endedAfterComma =>
    match reading with
    | .kept => some (.truncated .value)
    | .skipped => some (.truncated .record)
  | .commaClosed =>
    match reading with
    | .kept => some (.malformed .trailingComma)
    | .skipped => some (.malformed .key)
  | .unseparated => some (.malformed .recordSeparator)
  | .badKey => some (.malformed .key)

/-- A place where no value could be read. -/
inductive Defect
  | problem (p : Problem)
  /-- The text ended inside a number. -/
  | openNumber
deriving DecidableEq, Repr

/-- The problem that a defect is reported as. -/
def Defect.report (reading : Reading) : Defect → Problem
  | .problem p => p
  | .openNumber =>
    match reading with
    | .kept => .truncated .value
    | .skipped => .malformed .number

/-- Succeed if there is no problem. -/
def noProblem : Option Problem → Except Problem Unit
  | none => .ok ()
  | some p => .error p

/-! ## The tree -/

mutual

/-- The tree of a JSON text. -/
inductive Doc
  | null
  | bool (b : Bool)
  | number (n : Number)
  | text (t : StringToken)
  | list (items : List Doc) (close : Close)
  | record (fields : List Field) (close : Close)
  | bad (d : Defect)

/-- A named value of a record; a missing colon makes the value bad. -/
inductive Field
  | mk (key : StringToken) (value : Doc)

end

instance : Inhabited Doc :=
  ⟨.null⟩

/-- The name of a field. -/
def Field.key : Field → StringToken
  | .mk key _ => key

/-- The value of a field. -/
def Field.value : Field → Doc
  | .mk _ value => value

/-! ## Kept values -/

mutual

/-- The first problem of a kept value inside which `room` more containers may nest. -/
def Doc.keep (room : Nat) : Doc → Except Problem Unit
  | .null => .ok ()
  | .bool _ => .ok ()
  | .number n =>
    match n.value? with
    | some _ => .ok ()
    | none => .error (.malformed .range)
  | .text t => (fun _ => ()) <$> t.text
  | .list items close =>
    match room with
    | 0 => .error (.malformed .depth)
    | room + 1 => do
      keepItems room items
      noProblem (close.listProblem? .kept)
  | .record fields close =>
    match room with
    | 0 => .error (.malformed .depth)
    | room + 1 => do
      keepFields room fields
      noProblem (close.recordProblem? .kept)
  | .bad d => .error (d.report .kept)

/-- The first problem among kept items. -/
def keepItems (room : Nat) : List Doc → Except Problem Unit
  | [] => .ok ()
  | d :: ds => do
    d.keep room
    keepItems room ds

/-- The first problem among kept fields. -/
def keepFields (room : Nat) : List Field → Except Problem Unit
  | [] => .ok ()
  | f :: fs => do
    f.keep room
    keepFields room fs

/-- The first problem of a kept field, its name first. -/
def Field.keep (room : Nat) : Field → Except Problem Unit
  | .mk key value => do
    let _ ← key.text
    value.keep room

end

/-! ## Skipped values -/

mutual

/-- The first problem of a skipped value. -/
def Doc.skip : Doc → Except Problem Unit
  | .null => .ok ()
  | .bool _ => .ok ()
  | .number _ => .ok ()
  | .text t => t.skip
  | .list items close => do
    skipItems items
    noProblem (close.listProblem? .skipped)
  | .record fields close => do
    skipFields fields
    noProblem (close.recordProblem? .skipped)
  | .bad d => .error (d.report .skipped)

/-- The first problem among skipped items. -/
def skipItems : List Doc → Except Problem Unit
  | [] => .ok ()
  | d :: ds => do
    d.skip
    skipItems ds

/-- The first problem among skipped fields. -/
def skipFields : List Field → Except Problem Unit
  | [] => .ok ()
  | f :: fs => do
    f.skip
    skipFields fs

/-- The first problem of a skipped field, its name first. -/
def Field.skip : Field → Except Problem Unit
  | .mk key value => do
    key.skip
    value.skip

end

/-! ## Height -/

mutual

/-- How many containers are nested in a value, itself included. -/
def Doc.height : Doc → Nat
  | .list items _ => heightOfItems items + 1
  | .record fields _ => heightOfFields fields + 1
  | _ => 0

/-- The greatest height among items. -/
def heightOfItems : List Doc → Nat
  | [] => 0
  | d :: ds => max d.height (heightOfItems ds)

/-- The greatest height among the values of fields. -/
def heightOfFields : List Field → Nat
  | [] => 0
  | f :: fs => max f.height (heightOfFields fs)

/-- The height of a field's value. -/
def Field.height : Field → Nat
  | .mk _ value => value.height

end

/-! ## Writing documents -/

namespace Doc

/-- The document of a text. -/
def ofString (s : String) : Doc :=
  .text (.ofString s)

/-- The document of a natural number. -/
def ofNat (n : Nat) : Doc :=
  .number (.ofNat n)

/-- The document of a list. -/
def ofList (items : List Doc) : Doc :=
  .list items .closed

/-- The document of a record. -/
def ofFields (fields : List (String × Doc)) : Doc :=
  .record (fields.map fun (name, value) => .mk (.ofString name) value) .closed

end Doc
end Json
end SceneWiring
