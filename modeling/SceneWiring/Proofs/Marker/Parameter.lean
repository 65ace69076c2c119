import SceneWiring.Marker.Parameter
import SceneWiring.Proofs.Marker.Analysis

/-!
# The parameter of a single strategy

If one attribute of a member is a strategy and all others are not, then that attribute gives
the strategy of the member, and its first argument without a name gives the parameter.

Main results:

- Theorem `ofAttributes?_of_single`: the markers of a member with a single strategy.
- Theorem `parameterOf?_of_single`: the parameter of a single strategy.
-/

namespace SceneWiring

/-- The attributes of a list that are strategies. -/
def strategyAttributes (attributes : List Attribute) : List Attribute :=
  attributes.filter fun a => (Strategy.ofName? a.name).isSome

/-- The strategies among attributes are those of the attributes that are strategies. -/
theorem strategiesIn_strategyAttributes (attributes : List Attribute) :
    strategiesIn (strategyAttributes attributes) = strategiesIn attributes := by
  induction attributes with
  | nil => rfl
  | cons a rest ih =>
      rw [strategyAttributes, List.filter_cons, ← strategyAttributes, strategiesIn_cons]
      cases hname : Strategy.ofName? a.name with
      | none => simpa using ih
      | some s => simp [strategiesIn_cons, hname, ih]

section

variable {attributes : List Attribute} {a : Attribute} {strategy : Strategy}

/-- The markers of a member with a single strategy. -/
theorem ofAttributes?_of_single (h : strategyAttributes attributes = [a])
    (hname : Strategy.ofName? a.name = some strategy) :
    MarkerSet.ofAttributes? attributes =
      .ok (some ⟨strategy, .ofList (modifiersIn attributes)⟩) := by
  have hstrategies : strategiesIn attributes = [strategy] := by
    rw [← strategiesIn_strategyAttributes, h]
    simp [strategiesIn, hname]
  rw [MarkerSet.ofAttributes?_eq, hstrategies]
  rfl

/-- A single strategy is the first attribute that is that strategy. -/
theorem find?_of_single (h : strategyAttributes attributes = [a])
    (hname : Strategy.ofName? a.name = some strategy) :
    attributes.find? (fun b => Strategy.ofName? b.name == some strategy) = some a := by
  have hfilter : attributes.filter (fun b => Strategy.ofName? b.name == some strategy) =
      (strategyAttributes attributes).filter fun b => Strategy.ofName? b.name == some strategy := by
    rw [strategyAttributes, List.filter_filter]
    apply List.filter_congr
    intro b _
    cases Strategy.ofName? b.name <;> simp
  rw [← List.head?_filter, hfilter, h]
  simp [hname]

/-- The positional values are those of the arguments without names. -/
theorem positional_bind (a : Attribute) :
    a.bind.positional =
      (a.arguments.filter fun argument => argument.name.isNone).map fun argument =>
        Literal.read argument.value := by
  simp only [Attribute.bind]
  induction a.arguments with
  | nil => rfl
  | cons argument rest ih =>
      cases hname : argument.name with
      | none => simp [hname, ih]
      | some key => simp [hname, ih]

/-- The parameter of a single strategy is its first argument without a name. -/
theorem parameterOf?_of_single (h : strategyAttributes attributes = [a])
    (hname : Strategy.ofName? a.name = some strategy) {argument : AttributeArgument}
    (hfirst : a.arguments.find? (fun argument => argument.name.isNone) = some argument)
    (name : String) :
    parameterOf? (attributes.map Attribute.bind) strategy name =
      some (Literal.read argument.value) := by
  have hfind : findStrategy? (attributes.map Attribute.bind) strategy = some a.bind := by
    rw [findStrategy?, List.find?_map]
    exact congrArg (Option.map Attribute.bind) (find?_of_single h hname)
  have hpositional : firstPositional? (attributes.map Attribute.bind) strategy =
      some (Literal.read argument.value) := by
    rw [firstPositional?, hfind, Option.bind_eq_bind, Option.bind_some, positional_bind,
      List.head?_map, List.head?_filter, hfirst, Option.map_some]
  rw [parameterOf?, hpositional]

end

end SceneWiring
