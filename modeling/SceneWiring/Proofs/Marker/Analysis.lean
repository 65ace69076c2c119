import SceneWiring.Marker.Analysis

/-!
# What the markers of a member come to

The attributes of a member are read one after the other, but what comes out depends only on
the strategies among them and the modifiers among them.  A member is marked exactly if
the analysis of its attributes finds something, a conflict included.

Main results:

- Theorem `ofAttributes?_eq`: the markers of attributes from their strategies and
  modifiers.
- Theorem `Decl.isMarked_iff`: the two tests for markers agree.
-/

namespace SceneWiring

/-! ## Strategies and modifiers -/

/-- The modifier of an attribute name, if the name is one. -/
def Modifier.ofName? (name : String) : Option Modifier :=
  match Marker.ofName? name with
  | some (.modifier m) => some m
  | _ => none

/-- The strategies among attributes. -/
def strategiesIn (attributes : List Attribute) : List Strategy :=
  attributes.filterMap fun a => Strategy.ofName? a.name

/-- The modifiers among attributes. -/
def modifiersIn (attributes : List Attribute) : List Modifier :=
  attributes.filterMap fun a => Modifier.ofName? a.name

theorem strategiesIn_cons (a : Attribute) (rest : List Attribute) :
    strategiesIn (a :: rest) = (Strategy.ofName? a.name).toList ++ strategiesIn rest := by
  rw [strategiesIn, List.filterMap_cons]
  cases Strategy.ofName? a.name with
  | none => rfl
  | some s => rfl

theorem modifiersIn_cons (a : Attribute) (rest : List Attribute) :
    modifiersIn (a :: rest) = (Modifier.ofName? a.name).toList ++ modifiersIn rest := by
  rw [modifiersIn, List.filterMap_cons]
  cases Modifier.ofName? a.name with
  | none => rfl
  | some m => rfl

/-- The strategy that all strategies of a list are, if the list has any. -/
def Strategy.agreed? : List Strategy → Except SkipReason (Option Strategy)
  | [] => .ok none
  | s :: rest => if rest.all (· == s) then .ok (some s) else .error .conflictingStrategies

/-- A strategy repeated at the start of a list changes nothing. -/
theorem Strategy.agreed?_repeat (s : Strategy) (rest : List Strategy) :
    agreed? (s :: s :: rest) = agreed? (s :: rest) := by
  simp [agreed?]

/-- Different strategies do not agree, whatever follows. -/
theorem Strategy.agreed?_of_ne {s s' : Strategy} (h : s ≠ s') (rest : List Strategy) :
    agreed? (s :: s' :: rest) = .error .conflictingStrategies := by
  rw [agreed?, if_neg]
  simp [h.symm]

/-- Going on with a strategy and modifiers is like having met them in the list. -/
theorem MarkerSet.ofAttributesFrom_eq (strategy : Option Strategy) (modifiers : Modifiers)
    (attributes : List Attribute) :
    ofAttributesFrom strategy modifiers attributes =
      (Strategy.agreed? (strategy.toList ++ strategiesIn attributes)).map
        (Option.map fun s => ⟨s, (modifiersIn attributes).foldl Modifiers.insert modifiers⟩) := by
  induction attributes generalizing strategy modifiers with
  | nil => cases strategy <;> rfl
  | cons a rest ih =>
      rw [ofAttributesFrom, strategiesIn_cons, modifiersIn_cons, Strategy.ofName?,
        Modifier.ofName?]
      cases Marker.ofName? a.name with
      | none => exact ih strategy modifiers
      | some marker =>
          cases marker with
          | modifier m => exact ih strategy (modifiers.insert m)
          | strategy s =>
              cases strategy with
              | none => exact ih (some s) modifiers
              | some s' =>
                  simp only [Option.toList_some, List.singleton_append]
                  by_cases hsame : s' = s
                  · subst hsame
                    rw [Strategy.agreed?_repeat]
                    simpa using ih (some s') modifiers
                  · rw [Strategy.agreed?_of_ne hsame]
                    simp [hsame, Except.map]

/-- The markers of attributes: the strategy on which their strategies agree, with all of
their modifiers. -/
theorem MarkerSet.ofAttributes?_eq (attributes : List Attribute) :
    ofAttributes? attributes =
      (Strategy.agreed? (strategiesIn attributes)).map
        (Option.map fun s => ⟨s, .ofList (modifiersIn attributes)⟩) :=
  ofAttributesFrom_eq none {} attributes

/-! ## Marked members -/

/-- The analysis comes to nothing only for attributes without strategies. -/
theorem MarkerSet.ofAttributes?_eq_none_iff {attributes : List Attribute} :
    ofAttributes? attributes = .ok none ↔ strategiesIn attributes = [] := by
  rw [ofAttributes?_eq]
  cases strategiesIn attributes with
  | nil => simp [Strategy.agreed?, Except.map]
  | cons s rest =>
      rw [Strategy.agreed?]
      split <;> simp [Except.map]

/-- A member is marked if there is a strategy among its attributes. -/
theorem Member.isMarked_iff {m : Member} : m.isMarked ↔ strategiesIn m.attributes ≠ [] := by
  rw [isMarked, List.any_eq_true, Ne, strategiesIn, List.filterMap_eq_nil_iff]
  simp [Option.isSome_iff_ne_none]

/-- A declaration is marked exactly if the analysis of its attributes finds something. -/
theorem Decl.isMarked_iff {d : Decl} :
    d.isMarked ↔ MarkerSet.ofAttributes? d.attributes ≠ .ok none := by
  rw [Ne, MarkerSet.ofAttributes?_eq_none_iff]
  cases hmember : d.member? with
  | none => simp [isMarked, Decl.attributes, hmember, strategiesIn]
  | some m =>
      simp only [isMarked, Decl.attributes, hmember, Option.any_some, Option.map_some,
        Option.getD_some]
      exact Member.isMarked_iff

end SceneWiring
