import SceneWiring.Marker.Basic
import SceneWiring.Skip

/-!
# The markers of a member

A member is a candidate if one of its attributes is a strategy.  Its markers are that
strategy and the modifiers beside it; two different strategies conflict, the same
strategy written twice counts once.

Main results:

- Definition `MarkerSet.ofAttributes?`: the markers of a list of attributes.
-/

namespace SceneWiring

/-- The modifiers of a member. -/
structure Modifiers where
  ignoreSelf : Bool := false
  skipNullCheck : Bool := false
  includeInactive : Bool := false
  injectInPlay : Bool := false
deriving DecidableEq, Repr

/-- The modifiers with one more. -/
def Modifiers.insert (ms : Modifiers) : Modifier → Modifiers
  | .ignoreSelf => { ms with ignoreSelf := true }
  | .skipNullCheck => { ms with skipNullCheck := true }
  | .includeInactive => { ms with includeInactive := true }
  | .injectInPlay => { ms with injectInPlay := true }

/-- The modifiers of a list. -/
def Modifiers.ofList (list : List Modifier) : Modifiers :=
  list.foldl Modifiers.insert {}

/-- A strategy and the modifiers beside it. -/
structure MarkerSet where
  strategy : Strategy
  modifiers : Modifiers
deriving DecidableEq, Repr

/-- Go on with the strategy and the modifiers met before. -/
def MarkerSet.ofAttributesFrom (strategy : Option Strategy) (modifiers : Modifiers) :
    List Attribute → Except SkipReason (Option MarkerSet)
  | [] => .ok (strategy.map fun s => ⟨s, modifiers⟩)
  | a :: rest =>
    match Marker.ofName? a.name with
    | some (.strategy s) =>
      if strategy.any (· != s) then .error .conflictingStrategies
      else MarkerSet.ofAttributesFrom (some s) modifiers rest
    | some (.modifier m) => MarkerSet.ofAttributesFrom strategy (modifiers.insert m) rest
    | none => MarkerSet.ofAttributesFrom strategy modifiers rest

/-- The markers of a list of attributes, if there is a strategy among them. -/
def MarkerSet.ofAttributes? (attributes : List Attribute) : Except SkipReason (Option MarkerSet) :=
  MarkerSet.ofAttributesFrom none {} attributes

/-- Whether a strategy is among the attributes of a member. -/
def Member.isMarked (m : Member) : Bool :=
  m.attributes.any fun a => (Strategy.ofName? a.name).isSome

/-- Whether a declaration is a member with a strategy among its attributes. -/
def Decl.isMarked (d : Decl) : Bool :=
  d.member?.any Member.isMarked

end SceneWiring
