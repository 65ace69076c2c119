import SceneWiring.Proofs.Marker.Parameter
import SceneWiring.Resolution

/-!
# What attributes mean

Attributes are looked at in three places: when members are selected, when their markers are
analysed, and when the parameter of a strategy is looked up among the values of arguments.  All
that these places see of a list of attributes is which strategies it has, in which order and with
which arguments, and which modifiers are somewhere in it.  How a marker is spelled, attributes
that are no markers, modifiers that are repeated and the order of modifiers make no difference.

Main results:

- Structure `SameMeaning`: lists of attributes with the same strategies and modifiers.
- Theorem `Modifiers.ofList_eq`: the modifiers of a list from those that are in it.
- Theorem `parameterOf?_eq_of_calls`: the parameter of a strategy.
- Definition `AttributeEdit`: changes to attributes that keep their meaning.
- Theorem `AttributeEdit.sameMeaning`: they do.
- Theorem `Member.resolve_withAttributes_of_calls`: how a member with other modifiers is resolved.
- Theorem `Member.resolve_withAttributes`: a member is resolved by the meaning of its attributes.
-/

namespace SceneWiring

/-! ## Meaning -/

/-- The strategies among attributes, with their arguments. -/
def strategyCalls (attributes : List Attribute) : List (Strategy × List AttributeArgument) :=
  attributes.filterMap fun a => (Strategy.ofName? a.name).map fun s => (s, a.arguments)

/-- Two lists of attributes with the same strategies, in the same order and with the same
arguments, and with the same modifiers. -/
structure SameMeaning (as bs : List Attribute) : Prop where
  calls : strategyCalls bs = strategyCalls as
  modifiers : ∀ m, m ∈ modifiersIn bs ↔ m ∈ modifiersIn as

theorem strategyCalls_append (as bs : List Attribute) :
    strategyCalls (as ++ bs) = strategyCalls as ++ strategyCalls bs :=
  List.filterMap_append

theorem modifiersIn_append (as bs : List Attribute) :
    modifiersIn (as ++ bs) = modifiersIn as ++ modifiersIn bs :=
  List.filterMap_append

theorem strategyCalls_cons (a : Attribute) (rest : List Attribute) :
    strategyCalls (a :: rest) =
      ((Strategy.ofName? a.name).map fun s => (s, a.arguments)).toList ++ strategyCalls rest := by
  rw [strategyCalls, List.filterMap_cons]
  cases Strategy.ofName? a.name with
  | none => rfl
  | some s => rfl

/-- A modifier among attributes is no strategy. -/
theorem strategyCalls_insert_modifier {a : Attribute} {kind : Modifier}
    (h : Marker.ofName? a.name = some (.modifier kind)) (before after : List Attribute) :
    strategyCalls (before ++ a :: after) = strategyCalls (before ++ after) := by
  rw [strategyCalls_append, strategyCalls_append, strategyCalls_cons, Strategy.ofName?, h]
  rfl

/-- A modifier among attributes is one of their modifiers. -/
theorem mem_modifiersIn_insert {a : Attribute} {kind : Modifier}
    (h : Marker.ofName? a.name = some (.modifier kind)) {before after : List Attribute}
    {m : Modifier} :
    m ∈ modifiersIn (before ++ a :: after) ↔ m = kind ∨ m ∈ modifiersIn (before ++ after) := by
  have hname : Modifier.ofName? a.name = some kind := by rw [Modifier.ofName?, h]
  rw [modifiersIn_append, modifiersIn_append, modifiersIn_cons, hname, Option.toList_some,
    List.singleton_append, List.mem_append, List.mem_append, List.mem_cons]
  exact or_left_comm

/-- The strategies without their arguments. -/
theorem map_fst_strategyCalls (attributes : List Attribute) :
    (strategyCalls attributes).map Prod.fst = strategiesIn attributes := by
  rw [strategyCalls, strategiesIn, List.map_filterMap]
  simp [Function.comp_def]

theorem strategiesIn_eq_of_calls {as bs : List Attribute} (h : strategyCalls bs = strategyCalls as) :
    strategiesIn bs = strategiesIn as := by
  rw [← map_fst_strategyCalls, ← map_fst_strategyCalls, h]

/-- The strategies with their arguments are found among the attributes that are strategies. -/
theorem strategyCalls_strategyAttributes (attributes : List Attribute) :
    strategyCalls (strategyAttributes attributes) = strategyCalls attributes := by
  induction attributes with
  | nil => rfl
  | cons a rest ih =>
      rw [strategyAttributes, List.filter_cons, ← strategyAttributes, strategyCalls_cons]
      cases hname : Strategy.ofName? a.name with
      | none => simpa using ih
      | some s => simp [strategyCalls_cons, hname, ih]

/-! ## Modifiers -/

/-- More modifiers are added to those met before. -/
theorem Modifiers.foldl_insert_eq (list : List Modifier) (ms : Modifiers) :
    list.foldl insert ms =
      { ignoreSelf := ms.ignoreSelf || list.contains .ignoreSelf
        skipNullCheck := ms.skipNullCheck || list.contains .skipNullCheck
        includeInactive := ms.includeInactive || list.contains .includeInactive
        injectInPlay := ms.injectInPlay || list.contains .injectInPlay } := by
  induction list generalizing ms with
  | nil => simp
  | cons m rest ih =>
      rw [List.foldl_cons, ih]
      cases m <;> simp [insert]

/-- The modifiers of a list are those that are somewhere in it. -/
theorem Modifiers.ofList_eq (list : List Modifier) :
    ofList list =
      ⟨list.contains .ignoreSelf, list.contains .skipNullCheck, list.contains .includeInactive,
        list.contains .injectInPlay⟩ := by
  rw [ofList, foldl_insert_eq]
  rfl

/-! ## Parameters -/

/-- The parameter that the arguments of an attribute give: the first value without a name or,
without any, the first one with the given name. -/
def BoundAttribute.parameter? (name : String) (a : BoundAttribute) : Option String :=
  match a.positional.head? with
  | some value => some value
  | none => (a.named.find? fun (key, _) => Text.trim key == Text.trim name).map Prod.snd

/-- The parameter of a strategy is that of the first attribute that is the strategy. -/
theorem parameterOf?_eq (attributes : List BoundAttribute) (strategy : Strategy)
    (name : String) :
    parameterOf? attributes strategy name =
      (findStrategy? attributes strategy).bind (BoundAttribute.parameter? name) := by
  rw [parameterOf?, firstPositional?]
  cases findStrategy? attributes strategy with
  | none => rfl
  | some a =>
      simp only [Option.bind_eq_bind, Option.bind_some, BoundAttribute.parameter?]
      cases a.positional.head? with
      | some value => rfl
      | none =>
          cases a.named.find? fun (key, _) => Text.trim key == Text.trim name with
          | none => rfl
          | some entry => rfl

/-- So it comes from the first arguments with which the strategy is called. -/
theorem parameterOf?_map_bind (attributes : List Attribute) (strategy : Strategy)
    (name : String) :
    parameterOf? (attributes.map Attribute.bind) strategy name =
      ((strategyCalls attributes).find? fun call => call.1 == strategy).bind fun call =>
        (Attribute.bind ⟨strategy.name, call.2⟩).parameter? name := by
  rw [parameterOf?_eq, findStrategy?]
  induction attributes with
  | nil => rfl
  | cons a rest ih =>
      rw [List.map_cons, strategyCalls_cons]
      have hname : a.bind.name = a.name := rfl
      cases hstrategy : Strategy.ofName? a.name with
      | none =>
          rw [List.find?_cons_of_neg (by simp [hname, hstrategy])]
          exact ih
      | some s =>
          by_cases hsame : s = strategy
          · rw [List.find?_cons_of_pos (by simp [hname, hstrategy, hsame]), Option.map_some,
              Option.toList_some, List.singleton_append,
              List.find?_cons_of_pos (by simpa using hsame)]
            rfl
          · rw [List.find?_cons_of_neg (by simp [hname, hstrategy, hsame])]
            simpa [hsame] using ih

/-- Strategies that are the same, with the same arguments, have the same parameters. -/
theorem parameterOf?_eq_of_calls {as bs : List Attribute} (h : strategyCalls bs = strategyCalls as)
    (strategy : Strategy) :
    parameterOf? (bs.map Attribute.bind) strategy =
      parameterOf? (as.map Attribute.bind) strategy := by
  funext name
  rw [parameterOf?_map_bind, parameterOf?_map_bind, h]

/-- The order of strategies matters. -/
example :
    parameterOf? ([⟨"GetByName", [⟨none, "Main"⟩]⟩, ⟨"GetByName", [⟨none, "Side"⟩]⟩].map
        Attribute.bind) .getByName "name" = some "Main" ∧
      parameterOf? ([⟨"GetByName", [⟨none, "Side"⟩]⟩, ⟨"GetByName", [⟨none, "Main"⟩]⟩].map
        Attribute.bind) .getByName "name" = some "Side" := by
  decide +kernel

/-! ## Attributes with the same meaning -/

namespace SameMeaning

variable {as bs : List Attribute}

/-- The modifiers of attributes depend on their meaning only. -/
theorem ofList_modifiersIn_eq (h : SameMeaning as bs) :
    Modifiers.ofList (modifiersIn bs) = Modifiers.ofList (modifiersIn as) := by
  simp only [Modifiers.ofList_eq, List.contains_eq_mem, h.modifiers]

end SameMeaning

/-! ## Edits -/

/-- Changes to a list of attributes that keep its meaning. -/
inductive AttributeEdit : List Attribute → List Attribute → Prop
  /-- Another name for the same marker, or one name that is no marker for another. -/
  | respell (before after : List Attribute) (arguments : List AttributeArgument)
      {name name' : String} (h : Marker.ofName? name' = Marker.ofName? name) :
      AttributeEdit (before ++ ⟨name, arguments⟩ :: after) (before ++ ⟨name', arguments⟩ :: after)
  | insertOther (before after : List Attribute) {a : Attribute}
      (h : Marker.ofName? a.name = none) :
      AttributeEdit (before ++ after) (before ++ a :: after)
  | deleteOther (before after : List Attribute) {a : Attribute}
      (h : Marker.ofName? a.name = none) :
      AttributeEdit (before ++ a :: after) (before ++ after)
  /-- A copy of a modifier that is there already, anywhere. -/
  | copyModifier (before after : List Attribute) {a : Attribute} {m : Modifier}
      (h : Marker.ofName? a.name = some (.modifier m)) (hmem : a ∈ before ++ after) :
      AttributeEdit (before ++ after) (before ++ a :: after)
  /-- Another order in which strategies stay in the order that they had. -/
  | reorder {as bs : List Attribute} (hperm : as.Perm bs)
      (h : strategyAttributes bs = strategyAttributes as) : AttributeEdit as bs

namespace SameMeaning

variable {as bs : List Attribute}

theorem symm (h : SameMeaning as bs) : SameMeaning bs as where
  calls := h.calls.symm
  modifiers m := (h.modifiers m).symm

/-- It is enough that a stretch of a list means the same. -/
theorem within (h : SameMeaning as bs) (before after : List Attribute) :
    SameMeaning (before ++ as ++ after) (before ++ bs ++ after) where
  calls := by simp only [strategyCalls_append, h.calls]
  modifiers m := by simp only [modifiersIn_append, List.mem_append, h.modifiers]

/-- An attribute means what the marker that it is called by means with its arguments. -/
theorem of_ofName?_eq {name name' : String} (h : Marker.ofName? name' = Marker.ofName? name)
    (arguments : List AttributeArgument) : SameMeaning [⟨name, arguments⟩] [⟨name', arguments⟩] where
  calls := by simp only [strategyCalls_cons, Strategy.ofName?, h]
  modifiers m := by simp only [modifiersIn_cons, Modifier.ofName?, h]

/-- An attribute that is no marker means nothing. -/
theorem of_ofName?_eq_none {a : Attribute} (h : Marker.ofName? a.name = none) :
    SameMeaning [] [a] where
  calls := by
    rw [strategyCalls_cons, Strategy.ofName?, h]
    rfl
  modifiers m := by
    rw [modifiersIn_cons, Modifier.ofName?, h]
    rfl

/-- A modifier means nothing more if it is somewhere else, too. -/
theorem of_modifier_mem {before after : List Attribute} {a : Attribute} {m : Modifier}
    (h : Marker.ofName? a.name = some (.modifier m)) (hmem : a ∈ before ++ after) :
    SameMeaning (before ++ after) (before ++ a :: after) where
  calls := strategyCalls_insert_modifier h before after
  modifiers m' := by
    have hname : Modifier.ofName? a.name = some m := by rw [Modifier.ofName?, h]
    have hknown : m ∈ modifiersIn (before ++ after) := List.mem_filterMap.mpr ⟨a, hmem, hname⟩
    rw [mem_modifiersIn_insert h, or_iff_right_iff_imp]
    rintro rfl
    exact hknown

/-- The order of attributes matters for strategies only. -/
theorem of_perm (hperm : as.Perm bs) (h : strategyAttributes bs = strategyAttributes as) :
    SameMeaning as bs where
  calls := by
    rw [← strategyCalls_strategyAttributes, h, strategyCalls_strategyAttributes]
  modifiers m := (hperm.symm.filterMap _).mem_iff

end SameMeaning

/-- Every edit keeps the meaning of attributes. -/
theorem AttributeEdit.sameMeaning {as bs : List Attribute} (h : AttributeEdit as bs) :
    SameMeaning as bs := by
  cases h with
  | respell before after arguments h =>
      simpa using (SameMeaning.of_ofName?_eq h arguments).within before after
  | insertOther before after h =>
      simpa using (SameMeaning.of_ofName?_eq_none h).within before after
  | deleteOther before after h =>
      simpa using (SameMeaning.of_ofName?_eq_none h).symm.within before after
  | copyModifier before after h hmem => exact .of_modifier_mem h hmem
  | reorder hperm h => exact .of_perm hperm h

/-! ## Members with other attributes -/

/-- What the code of a member needs, with other modifiers. -/
def Injection.withModifiers (modifiers : Modifiers) (i : Injection) : Injection :=
  { i with markers := { i.markers with modifiers := modifiers } }

namespace Member

/-- A member with other attributes. -/
def withAttributes (attributes : List Attribute) : Member → Member
  | .field f => .field { f with attributes := attributes }
  | .property p => .property { p with attributes := attributes }
  | .method m => .method { m with attributes := attributes }

section

variable (m : Member) (attributes : List Attribute)

@[simp]
theorem attributes_withAttributes : (m.withAttributes attributes).attributes = attributes := by
  cases m <;> rfl

@[simp]
theorem withAttributes_attributes : m.withAttributes m.attributes = m := by
  cases m <;> rfl

@[simp]
theorem location_withAttributes : (m.withAttributes attributes).location = m.location := by
  cases m <;> rfl

@[simp]
theorem label_withAttributes : (m.withAttributes attributes).label = m.label := by
  cases m <;> rfl

@[simp]
theorem signature_withAttributes : (m.withAttributes attributes).signature = m.signature := by
  cases m <;> rfl

end

variable {m : Member} {attributes : List Attribute}

/-- Members are selected by the strategies among their attributes. -/
theorem isMarked_withAttributes_of_calls
    (h : strategyCalls attributes = strategyCalls m.attributes) :
    (m.withAttributes attributes).isMarked = m.isMarked := by
  rw [Bool.eq_iff_iff, isMarked_iff, isMarked_iff, attributes_withAttributes,
    strategiesIn_eq_of_calls h]

/-- So are the members about which the model is asked. -/
theorem asksModel_withAttributes_of_calls
    (h : strategyCalls attributes = strategyCalls m.attributes) :
    (m.withAttributes attributes).asksModel = m.asksModel := by
  rw [asksModel, asksModel, attributes_withAttributes, signature_withAttributes,
    MarkerSet.ofAttributes?_eq, MarkerSet.ofAttributes?_eq, strategiesIn_eq_of_calls h]
  cases Strategy.agreed? (strategiesIn m.attributes) with
  | error reason => rfl
  | ok strategy? =>
      cases strategy? with
      | none => rfl
      | some s => cases m.signature <;> rfl

/-- Strategies that are the same, with the same arguments, leave everything but the modifiers of
what the code of a member needs, if the values of arguments come from declarations. -/
theorem resolve_withAttributes_of_calls (h : strategyCalls attributes = strategyCalls m.attributes)
    (options : Options) (typeName : String) :
    (m.withAttributes attributes).resolve options .ofDeclarations typeName =
      (m.resolve options .ofDeclarations typeName).map
        (Option.map (Injection.withModifiers (.ofList (modifiersIn attributes)))) := by
  rw [resolve_eq, resolve_eq, signature_withAttributes, attributes_withAttributes,
    MarkerSet.ofAttributes?_eq, MarkerSet.ofAttributes?_eq, strategiesIn_eq_of_calls h]
  simp only [SemanticModel.ofDeclarations, attributes_withAttributes]
  cases Strategy.agreed? (strategiesIn m.attributes) with
  | error reason => rfl
  | ok strategy? =>
      cases strategy? with
      | none => rfl
      | some strategy =>
          cases m.signature with
          | error reason => rfl
          | ok signature =>
              simp only [Except.map, Option.map_some, parameterOf?_eq_of_calls h]
              rfl

/-- Members are resolved by the meaning of their attributes, if the values of arguments come from
declarations. -/
theorem resolve_withAttributes (h : SameMeaning m.attributes attributes) (options : Options)
    (typeName : String) :
    (m.withAttributes attributes).resolve options .ofDeclarations typeName =
      m.resolve options .ofDeclarations typeName := by
  have hmodifiers : Modifiers.ofList (modifiersIn attributes) =
      Modifiers.ofList (modifiersIn m.attributes) := h.ofList_modifiersIn_eq
  have hsame := resolve_withAttributes_of_calls (m := m) rfl options typeName
  rw [withAttributes_attributes] at hsame
  rw [resolve_withAttributes_of_calls h.calls, hmodifiers, ← hsame]

end Member

end SceneWiring
