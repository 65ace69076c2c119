import SceneWiring.Literal
import SceneWiring.Marker.Analysis

/-!
# Attribute values and strategy parameters

The values of attribute arguments come from a semantic model, which maps a member to
the attributes bound to its symbol, or to nothing if there is no symbol.  The model
that is always at hand reads the values off the declaration itself.

Main results:

- Definition `SemanticModel.ofDeclarations`: the model that reads declarations.
- Definition `parameterOf?`: the parameter of a strategy.
-/

namespace SceneWiring

/-- An attribute bound to a symbol, with the values of its arguments. -/
structure BoundAttribute where
  name : String
  positional : List String
  named : List (String × String)
deriving DecidableEq, Repr

/-- The attributes bound to the symbol of a member. -/
abbrev SemanticModel : Type :=
  Member → Option (List BoundAttribute)

/-- An attribute with the values that its arguments denote. -/
def Attribute.bind (a : Attribute) : BoundAttribute where
  name := a.name
  positional := a.arguments.filterMap fun argument =>
    match argument.name with
    | none => some (Literal.read argument.value)
    | some _ => none
  named := a.arguments.filterMap fun argument =>
    argument.name.map fun key => (key, Literal.read argument.value)

/-- The attributes of a declaration with the values of their arguments. -/
def Decl.boundAttributes (d : Decl) : List BoundAttribute :=
  d.attributes.map Attribute.bind

/-- The model that reads declarations; every member has a symbol. -/
def SemanticModel.ofDeclarations : SemanticModel :=
  fun m => some (m.attributes.map Attribute.bind)

/-- What a model says about the members of one display name. -/
inductive ModelEntry
  /-- What their declarations say. -/
  | declarations
  /-- That they have no symbol. -/
  | unresolved
  /-- That their symbols have these attributes. -/
  | bound (attributes : List BoundAttribute)
deriving DecidableEq, Repr

/-- What an entry says about a member. -/
def ModelEntry.attributes (entry : ModelEntry) : SemanticModel :=
  match entry with
  | .declarations => .ofDeclarations
  | .unresolved => fun _ => none
  | .bound attributes => fun _ => some attributes

/-- The model with entries under display names and one entry for all other members. -/
def SemanticModel.ofEntries (entries : List (String × ModelEntry)) (otherwise : ModelEntry) :
    SemanticModel :=
  fun m => ((entries.lookup m.label).getD otherwise).attributes m

/-- The first attribute that is the given strategy. -/
def findStrategy? (attributes : List BoundAttribute) (strategy : Strategy) :
    Option BoundAttribute :=
  attributes.find? fun a => Strategy.ofName? a.name == some strategy

/-- The first positional argument of a strategy. -/
def firstPositional? (attributes : List BoundAttribute) (strategy : Strategy) :
    Option String := do
  let a ← findStrategy? attributes strategy
  a.positional.head?

/-- The parameter of a strategy: its first positional argument or, without any, its
first argument with the given name. -/
def parameterOf? (attributes : List BoundAttribute) (strategy : Strategy)
    (name : String) : Option String :=
  match firstPositional? attributes strategy with
  | some value => some value
  | none => do
    let a ← findStrategy? attributes strategy
    let entry ← a.named.find? fun (key, _) => Text.trim key == Text.trim name
    return entry.2

end SceneWiring
