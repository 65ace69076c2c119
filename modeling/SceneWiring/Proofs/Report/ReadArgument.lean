import Mathlib.Logic.Relation
import SceneWiring.Proofs.Report.Replacement

/-!
# The argument that is read

Where the values of arguments come from declarations, a lookup reads at most one argument of its
member.  The strategies of the member have to be one and the same, this one has to take a
parameter, and then the first attribute that is the strategy gives it: its first argument without
a name or, if all of them are named, the first one with the name of the parameter.  All other
arguments of a member can be changed, added and removed, and no run tells.

Main results:

- Definition `Member.readArgument?`: the argument of a member that is read.
- Theorem `Member.parameter_of_resolve`: the parameter of a member is what this argument denotes.
- Structure `Member.SameReading`: members that differ in arguments which are not read.
- Theorem `only_parameter_argument_read`: nothing is read of other arguments.
-/

namespace SceneWiring

/-! ## Attributes -/

/-- The argument of an attribute that gives a parameter: the first one without a name or, without
any, the first one with the name of the parameter, blanks around it aside. -/
def Attribute.parameterArgument? (name : String) (a : Attribute) : Option AttributeArgument :=
  (a.arguments.find? fun argument => argument.name.isNone).or
    (a.arguments.find? fun argument => argument.name.any fun key => Text.trim key == name)

/-- The names of parameters have no blanks around them. -/
theorem Strategy.trim_argumentName {strategy : Strategy} {name : String}
    (h : strategy.argumentName = some name) : Text.trim name = name := by
  cases strategy
  case getByName | getByTag | getInAssets =>
    obtain rfl := Option.some.inj h
    decide +kernel
  all_goals exact absurd h (by simp [argumentName])

/-- The parameter among the values of an attribute's arguments is that of one argument. -/
theorem Attribute.parameter?_bind {name : String} (hname : Text.trim name = name)
    (a : Attribute) :
    a.bind.parameter? name =
      (a.parameterArgument? name).map fun argument => Literal.read argument.value := by
  rw [BoundAttribute.parameter?, positional_bind, List.head?_map, List.head?_filter,
    parameterArgument?, hname]
  cases a.arguments.find? fun argument => argument.name.isNone with
  | some argument => rfl
  | none =>
      simp only [Attribute.bind, List.find?_filterMap, Option.any_map, Option.map_none,
        Option.none_or]
      cases hnamed : a.arguments.find? fun argument =>
          argument.name.any fun key => Text.trim key == name with
      | none => rfl
      | some argument =>
          have hkey := List.find?_some hnamed
          cases hargument : argument.name with
          | none => simp [hargument] at hkey
          | some key => simp [hargument]

/-! ## Members -/

namespace Member

/-- The strategy of a member, if there is one and no other beside it. -/
def strategy? (m : Member) : Option Strategy :=
  (strategiesIn m.attributes).head?.filter fun s => (strategiesIn m.attributes).all (· == s)

/-- The argument of a member that is read.  It belongs to the first attribute that is the strategy
of the member, if this strategy takes a parameter. -/
def readArgument? (m : Member) : Option AttributeArgument :=
  m.strategy?.bind fun strategy =>
    strategy.argumentName.bind fun name =>
      (m.attributes.find? fun a => Strategy.ofName? a.name == some strategy).bind fun a =>
        a.parameterArgument? name

/-- The strategy among the markers of a member is its only one. -/
theorem strategy?_of_markers {m : Member} {markers : MarkerSet}
    (h : MarkerSet.ofAttributes? m.attributes = .ok (some markers)) :
    m.strategy? = some markers.strategy := by
  rw [MarkerSet.ofAttributes?_eq] at h
  rw [strategy?]
  cases hstrategies : strategiesIn m.attributes with
  | nil => simp [hstrategies, Strategy.agreed?, Except.map] at h
  | cons s rest =>
      rw [hstrategies, Strategy.agreed?] at h
      split at h
      · rename_i hall
        simp only [Except.map, Option.map_some, Except.ok.injEq, Option.some.injEq] at h
        rw [← h, List.head?_cons, Option.filter_some, if_pos]
        simpa using hall
      · simp [Except.map] at h

/-- The parameter among the attributes of a member is what the argument that is read denotes. -/
theorem parameterOf?_of_markers {m : Member} {markers : MarkerSet}
    (h : MarkerSet.ofAttributes? m.attributes = .ok (some markers)) :
    markers.strategy.argumentName.bind
        (parameterOf? (m.attributes.map Attribute.bind) markers.strategy) =
      m.readArgument?.map fun argument => Literal.read argument.value := by
  rw [readArgument?, strategy?_of_markers h, Option.bind_some]
  cases hname : markers.strategy.argumentName with
  | none => rfl
  | some name =>
      have htrim := Strategy.trim_argumentName hname
      rw [Option.bind_some, Option.bind_some, parameterOf?_eq, findStrategy?, List.find?_map,
        Option.bind_map, Option.map_bind]
      exact congrArg (Option.bind _) (funext fun a => a.parameter?_bind htrim)

/-- The parameter of a member that is resolved is what the argument that is read denotes. -/
theorem parameter_of_resolve {options : Options} {typeName : String} {m : Member} {i : Injection}
    (h : m.resolve options .ofDeclarations typeName = .ok (some i)) :
    i.parameter = m.readArgument?.map fun argument => Literal.read argument.value := by
  rw [resolve_eq] at h
  cases hmarkers : MarkerSet.ofAttributes? m.attributes with
  | error reason => simp [hmarkers] at h
  | ok markers? =>
      cases markers? with
      | none => simp [hmarkers] at h
      | some markers =>
          rw [hmarkers] at h
          cases hsignature : m.signature with
          | error reason => simp [hsignature] at h
          | ok signature =>
              rw [hsignature] at h
              obtain rfl := Option.some.inj (Except.ok.inj h)
              exact parameterOf?_of_markers hmarkers

/-! ## Members with other arguments -/

/-- Two members that differ in the arguments of their attributes only, and for which the same
value is read, if any is. -/
structure SameReading (m m' : Member) : Prop where
  eq_withAttributes : m' = m.withAttributes m'.attributes
  names : m'.attributes.map Attribute.name = m.attributes.map Attribute.name
  value : m'.readArgument?.map AttributeArgument.value =
    m.readArgument?.map AttributeArgument.value

end Member

/-- Strategies are found by the names of attributes. -/
theorem strategiesIn_eq_filterMap_names (attributes : List Attribute) :
    strategiesIn attributes = (attributes.map Attribute.name).filterMap Strategy.ofName? := by
  simp only [strategiesIn, List.filterMap_map, Function.comp_def]

/-- So are modifiers. -/
theorem modifiersIn_eq_filterMap_names (attributes : List Attribute) :
    modifiersIn attributes = (attributes.map Attribute.name).filterMap Modifier.ofName? := by
  simp only [modifiersIn, List.filterMap_map, Function.comp_def]

namespace Member.SameReading

variable {m m' : Member} (h : m.SameReading m')
include h

theorem strategiesIn_eq : strategiesIn m'.attributes = strategiesIn m.attributes := by
  rw [strategiesIn_eq_filterMap_names, h.names, ← strategiesIn_eq_filterMap_names]

theorem ofAttributes?_eq :
    MarkerSet.ofAttributes? m'.attributes = MarkerSet.ofAttributes? m.attributes := by
  rw [MarkerSet.ofAttributes?_eq, MarkerSet.ofAttributes?_eq, h.strategiesIn_eq,
    modifiersIn_eq_filterMap_names, h.names, ← modifiersIn_eq_filterMap_names]

theorem isMarked_eq : m'.isMarked = m.isMarked := by
  rw [Bool.eq_iff_iff, isMarked_iff, isMarked_iff, h.strategiesIn_eq]

theorem signature_eq : m'.signature = m.signature := by
  rw [h.eq_withAttributes, signature_withAttributes]

/-- What is read denotes the same. -/
theorem map_read_eq :
    (m'.readArgument?.map fun argument => Literal.read argument.value) =
      m.readArgument?.map fun argument => Literal.read argument.value := by
  have hread := congrArg (Option.map Literal.read) h.value
  rwa [Option.map_map, Option.map_map] at hread

/-- Arguments that are not read make no difference for the code of a member. -/
theorem resolve_eq (options : Options) (typeName : String) :
    m'.resolve options .ofDeclarations typeName = m.resolve options .ofDeclarations typeName := by
  rw [Member.resolve_eq, Member.resolve_eq, h.signature_eq, h.ofAttributes?_eq]
  cases hmarkers : MarkerSet.ofAttributes? m.attributes with
  | error reason => rfl
  | ok markers? =>
      cases markers? with
      | none => rfl
      | some markers =>
          cases m.signature with
          | error reason => rfl
          | ok signature =>
              have hmarkers' := h.ofAttributes?_eq.trans hmarkers
              simp only [SemanticModel.ofDeclarations, parameterOf?_of_markers hmarkers,
                parameterOf?_of_markers hmarkers', h.map_read_eq]

/-- So no run tells such members apart. -/
theorem sameWork (options : Options) : m.SameWork options .ofDeclarations m' where
  isMarked := h.isMarked_eq
  candidate file :=
    { asksModel := by rw [asksModel, asksModel, h.ofAttributes?_eq, h.signature_eq]
      outcome := by
        intro typeName
        have hlabel : m'.label = m.label := by
          rw [h.eq_withAttributes, label_withAttributes]
        have hlocation : m'.location = m.location := by
          rw [h.eq_withAttributes, location_withAttributes]
        simp only [Candidate.outcome, Candidate.skip, h.resolve_eq, hlabel, hlocation] }

end Member.SameReading

/-! ## Runs -/

/-- Of all arguments of attributes, one for each member at most is read, if values come from
declarations.  The parameter of a member is what its argument that is read denotes, and no run
tells whether the arguments of any members are changed, any number of times, if the value of the
argument that is read stays the same. -/
theorem only_parameter_argument_read (options : Options) :
    (∀ (m : Member) (typeName : String) (i : Injection),
      m.resolve options .ofDeclarations typeName = .ok (some i) →
        i.parameter = m.readArgument?.map fun argument => Literal.read argument.value) ∧
      ∀ c c' : Compilation,
        Relation.ReflTransGen (Compilation.Replaces Member.SameReading) c c' →
          c.SameRuns options .ofDeclarations c' :=
  ⟨fun _ _ _ h => Member.parameter_of_resolve h,
    fun _ _ h => .of_replaces (fun _ _ hm => hm.sameWork options) h⟩

/-- A field that is looked up by a name, the first of many arguments without a name. -/
def mainDoor : Member :=
  .field ⟨"Door", ["door"], [],
    [⟨"Tooltip", [⟨none, "1"⟩]⟩, ⟨"IgnoreSelf", [⟨none, "2"⟩]⟩,
      ⟨"GetByName", [⟨some "name", "\"Side\""⟩, ⟨none, "\"Main\""⟩, ⟨none, "\"Back\""⟩]⟩,
      ⟨"get-by-name", [⟨none, "\"Cellar\""⟩]⟩], .unknown⟩

/-- The same field with other arguments that are not read. -/
def mainDoorAlone : Member :=
  .field ⟨"Door", ["door"], [],
    [⟨"Tooltip", []⟩, ⟨"IgnoreSelf", []⟩, ⟨"GetByName", [⟨none, "\"Main\""⟩]⟩,
      ⟨"get-by-name", [⟨some "name", "\"Attic\""⟩]⟩], .unknown⟩

/-- A field that is looked up by a tag, the first of two arguments called so. -/
def exitLight : Member :=
  .field ⟨"Light", ["light"], [],
    [⟨"GetByTag", [⟨some "name", "\"Lamp\""⟩, ⟨some " tag ", "\"Exit\""⟩, ⟨some "tag", "3"⟩]⟩],
    .unknown⟩

/-- The same field with other arguments that are not read. -/
def exitLightAlone : Member :=
  .field ⟨"Light", ["light"], [],
    [⟨"GetByTag", [⟨some "tag", "\"Exit\""⟩, ⟨some "color", "4"⟩]⟩], .unknown⟩

/-- A type with two fields. -/
def hallWith (door light : Member) : Compilation :=
  ⟨[⟨"Hall.cs", [.type ⟨"Hall", ["partial"], [], .unknown⟩ [.member door, .member light]]⟩]⟩

theorem hallWith_replaces {door door' light light' : Member} (hdoor : door.SameReading door')
    (hlight : light.SameReading light') :
    Relation.ReflTransGen (Compilation.Replaces Member.SameReading) (hallWith door light)
      (hallWith door' light') :=
  .head (.member ⟨[], "Hall.cs", .type [] ⟨"Hall", ["partial"], [], .unknown⟩
      (.here [] [.member light]) [], []⟩ hdoor)
    (.single (.member ⟨[], "Hall.cs", .type [] ⟨"Hall", ["partial"], [], .unknown⟩
      (.here [.member door'] []) [], []⟩ hlight))

/-- Two fields of one type keep the argument that is read, and all others go or change. -/
theorem hallWith_same_runs :
    (∃ i, mainDoor.resolve .default .ofDeclarations "Hall" = .ok (some i) ∧
        i.parameter = some "Main") ∧
      (hallWith mainDoor exitLight).SameRuns .default .ofDeclarations
        (hallWith mainDoorAlone exitLightAlone) := by
  have hdoor : mainDoor.SameReading mainDoorAlone := ⟨rfl, rfl, by decide +kernel⟩
  have hlight : exitLight.SameReading exitLightAlone := ⟨rfl, rfl, by decide +kernel⟩
  have hresolve : mainDoor.resolve .default .ofDeclarations "Hall" =
      .ok (some ⟨"Hall", ⟨"Door", "door"⟩, .scalar, ⟨.getByName, { ignoreSelf := true }⟩,
        some "Main"⟩) := by
    decide +kernel
  have hread : (mainDoor.readArgument?.map fun argument => Literal.read argument.value) =
      some "Main" := by
    decide +kernel
  rcases only_parameter_argument_read .default with ⟨hparameter, hruns⟩
  exact ⟨⟨_, hresolve, (hparameter mainDoor "Hall" _ hresolve).trans hread⟩,
    hruns _ _ (hallWith_replaces hdoor hlight)⟩

end SceneWiring
