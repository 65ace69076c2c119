import SceneWiring.Literal
import SceneWiring.Marker.Analysis
import SceneWiring.Shape
import SceneWiring.Signature

/-!
# Lookup expressions

A lookup is one generic method call on the component or on a scene-wide class,
possibly followed by a query operator.  The strategy chooses the call, the modifiers
its argument and the operator, and the shape of the member decides whether one value
or many are asked for.

Main results:

- Definition `Injection.lookup`: the lookup for a member.
- Definition `Lookup.render`: its text.
- Theorems `Lookup.render_oneOrMany` and `Lookup.render_select`: the text of the two kinds
  of lookups that depend on how many values are asked for.
-/

namespace SceneWiring

/-! ## Expressions -/

/-- A member for which code can be written. -/
structure Injection where
  typeName : String
  signature : Signature
  shape : Shape
  markers : MarkerSet
  /-- The parameter of the strategy, if there is one. -/
  parameter : Option String
deriving DecidableEq, Repr

/-- What an expression evaluates to. -/
inductive Yields
  | single
  | array
  /-- A lazy sequence, which has to be made into a container. -/
  | sequence
deriving DecidableEq, Repr

/-- A call of a generic method. -/
structure Call where
  /-- The class that the method belongs to, if not to the component. -/
  receiver : Option String
  method : String
  typeArgument : String
  arguments : List String
deriving DecidableEq, Repr

/-- The text of a call. -/
def Call.render (c : Call) : String :=
  let receiver := match c.receiver with
    | some name => name ++ "."
    | none => ""
  receiver ++ c.method ++ "<" ++ c.typeArgument ++ ">(" ++ ", ".intercalate c.arguments ++ ")"

/-- The text of a call on a class without arguments. -/
theorem Call.render_nil (receiver method target : String) :
    Call.render ⟨some receiver, method, target, []⟩ =
      receiver ++ "." ++ method ++ "<" ++ target ++ ">()" := by
  have hclose : ">(" ++ ")" = ">()" := rfl
  rw [Call.render, String.intercalate_nil, String.append_empty, String.append_assoc, hclose]

/-- The text of a call on a class with one argument. -/
theorem Call.render_singleton (receiver method target argument : String) :
    Call.render ⟨some receiver, method, target, [argument]⟩ =
      receiver ++ "." ++ method ++ "<" ++ target ++ ">(" ++ argument ++ ")" := by
  rw [Call.render, String.intercalate_singleton]

/-- A query operator applied to many values. -/
inductive Query
  /-- The first value, of those with a property if one is given. -/
  | first (predicate : Option String)
  /-- All values with a property. -/
  | filter (predicate : String)
deriving DecidableEq, Repr

/-- The text of an operator. -/
def Query.render : Query → String
  | .first predicate => ".FirstOrDefault(" ++ predicate.getD "" ++ ")"
  | .filter predicate => ".Where(" ++ predicate ++ ")"

/-- What an operator makes of many values. -/
def Query.yields : Query → Yields
  | .first _ => .single
  | .filter _ => .sequence

/-- A lookup expression. -/
structure Lookup where
  call : Call
  query : Option Query
  yields : Yields
deriving DecidableEq, Repr

namespace Lookup

/-- The text of a lookup. -/
def render (l : Lookup) : String :=
  l.call.render ++ (l.query.map Query.render).getD ""

/-- A call whose result is used as it is. -/
def direct (call : Call) (yields : Yields) : Lookup :=
  ⟨call, none, yields⟩

/-- A call followed by an operator. -/
def queried (call : Call) (query : Query) : Lookup :=
  ⟨call, some query, query.yields⟩

/-- One call for a single value and another for an array of values. -/
def oneOrMany (many : Bool) (one all : Call) : Lookup :=
  if many then direct all .array else direct one .single

/-- The values of a call with a property, all of them or the first. -/
def select (many : Bool) (all : Call) (predicate : String) : Lookup :=
  queried all (if many then .filter predicate else .first (some predicate))

/-- The text of one call or the other. -/
theorem render_oneOrMany (many : Bool) (one all : Call) :
    (oneOrMany many one all).render = (if many then all else one).render := by
  cases many with
  | false => exact String.append_empty
  | true => exact String.append_empty

/-- The text of a call and the operator that selects from its values. -/
theorem render_select (many : Bool) (all : Call) (predicate : String) :
    (select many all predicate).render =
      all.render ++ ((if many then ".Where(" else ".FirstOrDefault(") ++ predicate ++ ")") := by
  cases many with
  | false => rfl
  | true => rfl

end Lookup

/-! ## The lookup of a member -/

/-- The class of all objects of a scene. -/
def sceneObjects : String :=
  "UnityEngine.Object"

/-- The class of all assets. -/
def assets : String :=
  "Resources"

/-- The property of not belonging to the component's own object. -/
def notSelf : String :=
  "c => c.gameObject != gameObject"

/-- A truth value in generated code. -/
def boolLiteral (b : Bool) : String :=
  if b then "true" else "false"

/-- The lookup for a member, asking for values of the type `target`. -/
def Injection.lookup (i : Injection) (target : String) : Lookup :=
  let many := i.shape.holdsMany
  let modifiers := i.markers.modifiers
  let own (method : String) (arguments : List String) : Call :=
    ⟨none, method, target, arguments⟩
  let shared (receiver method : String) (arguments : List String) : Call :=
    ⟨some receiver, method, target, arguments⟩
  let inactive := [boolLiteral modifiers.includeInactive]
  match i.markers.strategy with
  | .get => .oneOrMany many (own "GetComponent" []) (own "GetComponents" [])
  | .getInChildren =>
    if modifiers.ignoreSelf then
      .select many (own "GetComponentsInChildren" inactive) notSelf
    else
      .oneOrMany many (own "GetComponentInChildren" inactive)
        (own "GetComponentsInChildren" inactive)
  | .getInParent =>
    .oneOrMany many (own "GetComponentInParent" inactive) (own "GetComponentsInParent" inactive)
  | .getByName =>
    .select many (shared sceneObjects "FindObjectsOfType" [])
      ("c => c.name == " ++ Literal.write (i.parameter.getD i.signature.name))
  | .getByTag =>
    match i.parameter with
    | some tag =>
      .select many (shared sceneObjects "FindObjectsOfType" [])
        ("c => c.CompareTag(" ++ Literal.write tag ++ ")")
    | none =>
      .oneOrMany many (shared sceneObjects "FindObjectOfType" [])
        (shared sceneObjects "FindObjectsOfType" [])
  | .getInAssets =>
    match i.parameter with
    | some path =>
      .oneOrMany many (shared assets "Load" [Literal.write path])
        (shared assets "LoadAll" [Literal.write path])
    | none =>
      let all := shared assets "FindObjectsOfTypeAll" []
      if many then .direct all .array else .queried all (.first none)

end SceneWiring
