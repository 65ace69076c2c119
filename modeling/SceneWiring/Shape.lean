import SceneWiring.Text.Blank

/-!
# Shapes of member types

A member holds one value, an array, or a collection.  The shape is read off the text
of its type: an array type ends in a pair of brackets, and a collection type contains
the collection marker before a list of type arguments in angle brackets.

Main results:

- Definition `Shape.ofType`: the shape of a type.
- Definitions `arrayElement?` and `collectionElement?`: the element types.
-/

namespace SceneWiring

/-- How many values a member holds, with the type of an element. -/
inductive Shape
  | scalar
  | array (element : String)
  | collection (element : String)
deriving DecidableEq, Repr

namespace Shape

/-- Whether a member holds any number of values. -/
def holdsMany : Shape → Bool
  | .scalar => false
  | .array _ => true
  | .collection _ => true

/-- The type of an element, if there are elements. -/
def element? : Shape → Option String
  | .scalar => none
  | .array element => some element
  | .collection element => some element

/-! ## Arrays -/

/-- What is left of a text after a character at its end and the blanks before it. -/
def dropEnd? (c : Char) (cs : List Char) : Option (List Char) :=
  if cs.getLast? = some c then some (Text.dropBlankEnd cs.dropLast) else none

/-- The element of an array type: what stands before a pair of brackets at the end of
the text, if it is not empty and lies on one line. -/
def arrayElementChars? (cs : List Char) : Option (List Char) := do
  let inside ← dropEnd? ']' (Text.trimmed cs)
  let element ← dropEnd? '[' inside
  if element.isEmpty || element.contains '\n' then none else some element

/-- The element of an array type. -/
def arrayElement? (type : String) : Option String :=
  (arrayElementChars? type.toList).map String.ofList

/-- Whether a type is an array. -/
def endsInBrackets (type : String) : Bool :=
  (arrayElement? type).isSome

/-! ## Collections -/

/-- What follows each occurrence of a marker, after the given number of characters;
occurrences do not overlap. -/
def afterMarkers (marker : List Char) : Nat → List Char → List (List Char)
  | _, [] => []
  | skip + 1, _ :: rest => afterMarkers marker skip rest
  | 0, c :: rest =>
    if marker.isPrefixOf (c :: rest) then
      (c :: rest).drop marker.length :: afterMarkers marker (marker.length - 1) rest
    else afterMarkers marker 0 rest

/-- What stands before the angle bracket that closes `depth` brackets and one more. -/
def upToClosing? : Nat → List Char → Option (List Char)
  | _, [] => none
  | depth, '<' :: rest => (upToClosing? (depth + 1) rest).map ('<' :: ·)
  | 0, '>' :: _ => some []
  | depth + 1, '>' :: rest => (upToClosing? depth rest).map ('>' :: ·)
  | depth, c :: rest => (upToClosing? depth rest).map (c :: ·)

/-- The type arguments at the start of a text, if there are any. -/
def typeArguments? (cs : List Char) : Option (List Char) :=
  match Text.dropBlank cs with
  | '<' :: rest =>
    match upToClosing? 0 rest with
    | some arguments =>
      let element := Text.trimmed arguments
      if element.isEmpty then none else some element
    | none => none
  | _ => none

/-- The type arguments after the first occurrence of the marker that has some. -/
def collectionElement? (type marker : String) : Option String :=
  ((afterMarkers marker.toList 0 type.toList).findSome? typeArguments?).map String.ofList

/-- Whether a marker occurs in a text. -/
def occursIn (marker : List Char) : List Char → Bool
  | [] => marker.isEmpty
  | c :: rest => marker.isPrefixOf (c :: rest) || occursIn marker rest

/-- Whether a type contains a marker that is not empty. -/
def mentions (type marker : String) : Bool :=
  !marker.toList.isEmpty && occursIn marker.toList type.toList

/-! ## Classification -/

/-- The shape of a type.  An array of collections is an array, and a collection type
without type arguments holds one value. -/
def ofType (type marker : String) : Shape :=
  match arrayElement? type with
  | some element => .array element
  | none =>
    if mentions type marker then
      match collectionElement? type marker with
      | some element => .collection element
      | none => .scalar
    else .scalar

end Shape
end SceneWiring
