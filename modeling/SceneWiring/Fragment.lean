import SceneWiring.Lookup

/-!
# Fragments

A fragment is the code for one member: the statement that assigns the looked-up value
and, unless a modifier drops it, a guard that logs an error when nothing was found.

Main results:

- Definition `Injection.fragment`: the fragment of a member.
- Definition `Fragment.statements`: its text.
-/

namespace SceneWiring

/-- A statement that logs an error if nothing was found. -/
structure Guard where
  member : String
  /-- The property that counts the values, if there can be many. -/
  count : Option String
  message : String
deriving DecidableEq, Repr

/-- The text of a guard. -/
def Guard.render (g : Guard) : String :=
  let missing := g.member ++ " == null"
  let condition := match g.count with
    | some count => missing ++ " || " ++ g.member ++ "." ++ count ++ " == 0"
    | none => missing
  "if (" ++ condition ++ ") UnityEngine.Debug.LogError(" ++ Literal.write g.message ++ ", this);"

/-- The code for one member. -/
structure Fragment where
  member : String
  value : String
  guard : Option Guard
  /-- Asks for the whole type to be filled before the first frame only. -/
  injectInPlay : Bool
deriving DecidableEq, Repr

/-- The statements of a fragment. -/
def Fragment.statements (f : Fragment) : List String :=
  (f.member ++ " = " ++ f.value ++ ";") :: (f.guard.map Guard.render).toList

/-- The call that makes a lookup's values into the container of a shape. -/
def Shape.conversion (shape : Shape) (yields : Yields) : String :=
  match shape, yields with
  | .array _, .sequence => ".ToArray()"
  | .collection _, _ => ".ToList()"
  | _, _ => ""

/-- The property that counts the values of a shape. -/
def Shape.countProperty : Shape → Option String
  | .scalar => none
  | .array _ => some "Length"
  | .collection _ => some "Count"

namespace Injection

/-- The type that is looked up: that of an element, if there are elements. -/
def target (i : Injection) : String :=
  i.shape.element?.getD i.signature.type

/-- The guard of a member. -/
def guard (i : Injection) : Guard where
  member := i.signature.name
  count := i.shape.countProperty
  message := i.typeName ++ "." ++ i.signature.name ++ ": no " ++ i.target ++ " found (" ++
    i.markers.strategy.name ++ ")"

/-- The fragment of a member. -/
def fragment (i : Injection) : Fragment :=
  let lookup := i.lookup i.target
  { member := i.signature.name
    value := lookup.render ++ i.shape.conversion lookup.yields
    guard := if i.markers.modifiers.skipNullCheck then none else some i.guard
    injectInPlay := i.markers.modifiers.injectInPlay }

end Injection
end SceneWiring
