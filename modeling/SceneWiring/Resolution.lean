import SceneWiring.Fragment
import SceneWiring.Marker.Parameter
import SceneWiring.Options

/-!
# Resolving members

A member is resolved in three steps: its markers are analysed, its signature is taken,
and the model is asked for the values of its attributes.  Each step can skip the
member, and the model is asked only if the first two did not.

Main results:

- Definition `Member.resolve`: everything that the code of a member needs.
- Theorem `Member.resolve_eq`: the first step that fails gives the reason.
- Definition `Member.asksModel`: whether resolving a member asks the model.
-/

namespace SceneWiring

namespace Member

/-- Everything that the code of a member of the given type needs, or why there is no
code; nothing for members without a strategy. -/
def resolve (options : Options) (model : SemanticModel) (typeName : String) (m : Member) :
    Except SkipReason (Option Injection) := do
  match ← MarkerSet.ofAttributes? m.attributes with
  | none => return none
  | some markers =>
    let signature ← m.signature
    match model m with
    | none => throw .unresolvedSymbol
    | some attributes =>
      let parameter := markers.strategy.argumentName.bind fun name =>
        parameterOf? attributes markers.strategy name
      let shape := Shape.ofType signature.type options.collectionMarker
      return some ⟨typeName, signature, shape, markers, parameter⟩

/-- The first of the three steps that fails tells why there is no code. -/
theorem resolve_eq (options : Options) (model : SemanticModel) (typeName : String) (m : Member) :
    m.resolve options model typeName =
      match MarkerSet.ofAttributes? m.attributes, m.signature, model m with
      | .error reason, _, _ => .error reason
      | .ok none, _, _ => .ok none
      | .ok (some _), .error reason, _ => .error reason
      | .ok (some _), .ok _, none => .error .unresolvedSymbol
      | .ok (some markers), .ok signature, some attributes =>
        .ok (some
          ⟨typeName, signature, .ofType signature.type options.collectionMarker, markers,
            markers.strategy.argumentName.bind (parameterOf? attributes markers.strategy)⟩) := by
  rw [resolve]
  cases MarkerSet.ofAttributes? m.attributes with
  | error reason => rfl
  | ok markers? =>
    cases markers? with
    | none => rfl
    | some markers =>
      cases m.signature with
      | error reason => rfl
      | ok signature =>
        cases model m with
        | none => rfl
        | some attributes => rfl

/-- Whether resolving a member asks the model. -/
def asksModel (m : Member) : Bool :=
  match MarkerSet.ofAttributes? m.attributes, m.signature with
  | .ok (some _), .ok _ => true
  | _, _ => false

end Member

/-- Everything that the code of a declaration needs; only members need code. -/
def Decl.resolve (options : Options) (model : SemanticModel) (typeName : String) (d : Decl) :
    Except SkipReason (Option Injection) :=
  match d.member? with
  | some m => m.resolve options model typeName
  | none => .ok none

end SceneWiring
