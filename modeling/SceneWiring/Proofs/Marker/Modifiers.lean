import SceneWiring.Proofs.Marker.Meaning
import SceneWiring.Report

/-!
# What modifiers change

Attributes with one modifier more or less have the same strategies with the same arguments, so
that a member with them is resolved as before but for its modifiers.  Its code shows two of these
in the lookup, one in the guard and one in what the fragment asks for.  The lookup shows them for
some strategies only, but for these it shows them in any case.

Main results:

- Definition `ModifierEdit`: one modifier of a kind more or less.
- Theorem `Injection.fragment_withModifiers`: the fragment of a member with other modifiers.
- Theorem `Injection.fragment_of_edit`: the fragment after an edit.
- Definition `Strategy.shows`: which modifiers the code of a member shows.
- Theorem `Injection.fragment_withModifiers_eq_iff`: the fragment tells these and no others.
- Theorem `Candidate.outcome_withAttributes_of_calls`: a candidate with other modifiers.
-/

namespace SceneWiring

/-! ## Edits -/

/-- Whether a modifier is among the attributes of a member. -/
def Member.carries (kind : Modifier) (m : Member) : Bool :=
  (modifiersIn m.attributes).contains kind

/-- Changes to a list of attributes that add or remove one modifier of a kind, anywhere. -/
inductive ModifierEdit (kind : Modifier) : List Attribute → List Attribute → Prop
  | insert (before after : List Attribute) {a : Attribute}
      (h : Marker.ofName? a.name = some (.modifier kind)) :
      ModifierEdit kind (before ++ after) (before ++ a :: after)
  | delete (before after : List Attribute) {a : Attribute}
      (h : Marker.ofName? a.name = some (.modifier kind)) :
      ModifierEdit kind (before ++ a :: after) (before ++ after)

namespace ModifierEdit

variable {kind : Modifier} {as bs : List Attribute}

/-- Strategies stay as they are. -/
theorem calls (h : ModifierEdit kind as bs) : strategyCalls bs = strategyCalls as := by
  cases h with
  | insert before after h => exact strategyCalls_insert_modifier h before after
  | delete before after h => exact (strategyCalls_insert_modifier h before after).symm

/-- Modifiers of other kinds stay as they are. -/
theorem contains_eq (h : ModifierEdit kind as bs) {other : Modifier} (hother : other ≠ kind) :
    (modifiersIn bs).contains other = (modifiersIn as).contains other := by
  rw [List.contains_eq_mem, List.contains_eq_mem, decide_eq_decide]
  cases h with
  | insert before after h => rw [mem_modifiersIn_insert h, or_iff_right hother]
  | delete before after h => rw [mem_modifiersIn_insert h, or_iff_right hother]

end ModifierEdit

/-! ## Members -/

/-- The modifiers of a member that is resolved are those among its attributes. -/
theorem Member.modifiers_of_resolve {m : Member} {options : Options} {typeName : String}
    {i : Injection} (h : m.resolve options .ofDeclarations typeName = .ok (some i)) :
    i.markers.modifiers = .ofList (modifiersIn m.attributes) := by
  have hsame := resolve_withAttributes_of_calls (m := m) rfl options typeName
  rw [withAttributes_attributes, h] at hsame
  have hi : i = i.withModifiers (.ofList (modifiersIn m.attributes)) := by
    simpa [Except.map] using hsame
  rw [hi]
  rfl

/-! ## Fragments -/

namespace Injection

variable {i : Injection} {modifiers : Modifiers}

/-- Two modifiers show in lookups, and these only for some strategies. -/
theorem lookup_withModifiers
    (hself : i.markers.strategy = .getInChildren →
      modifiers.ignoreSelf = i.markers.modifiers.ignoreSelf)
    (hinactive : i.markers.strategy = .getInChildren ∨ i.markers.strategy = .getInParent →
      modifiers.includeInactive = i.markers.modifiers.includeInactive) (target : String) :
    (i.withModifiers modifiers).lookup target = i.lookup target := by
  rw [lookup, lookup]
  simp only [withModifiers]
  cases hstrategy : i.markers.strategy with
  | get => rfl
  | getByName => rfl
  | getByTag => rfl
  | getInAssets => rfl
  | getInChildren => simp only [hself hstrategy, hinactive (Or.inl hstrategy)]
  | getInParent => simp only [hinactive (Or.inr hstrategy)]

/-- The fragment of a member with other modifiers, if the lookup does not show them. -/
theorem fragment_withModifiers
    (hself : i.markers.strategy = .getInChildren →
      modifiers.ignoreSelf = i.markers.modifiers.ignoreSelf)
    (hinactive : i.markers.strategy = .getInChildren ∨ i.markers.strategy = .getInParent →
      modifiers.includeInactive = i.markers.modifiers.includeInactive) :
    (i.withModifiers modifiers).fragment =
      { i.fragment with
        guard := if modifiers.skipNullCheck then none else some i.guard
        injectInPlay := modifiers.injectInPlay } := by
  have hlookup : (i.withModifiers modifiers).lookup (i.withModifiers modifiers).target =
      i.lookup i.target :=
    lookup_withModifiers hself hinactive i.target
  rw [fragment, fragment, hlookup]
  rfl

section

variable {options : Options} {typeName : String} {m : Member}
  (h : m.resolve options .ofDeclarations typeName = .ok (some i))
include h

/-- There is a guard unless a modifier drops it. -/
theorem guard_fragment :
    i.fragment.guard = if m.carries .skipNullCheck then none else some i.guard := by
  rw [fragment, Member.modifiers_of_resolve h, Modifiers.ofList_eq, Member.carries]

/-- A modifier asks for the play hook. -/
theorem injectInPlay_fragment : i.fragment.injectInPlay = m.carries .injectInPlay := by
  rw [fragment, Member.modifiers_of_resolve h, Modifiers.ofList_eq, Member.carries]

/-- The fragment of a member with one modifier more or less, of a kind that no lookup shows. -/
theorem fragment_of_edit {kind : Modifier} {attributes : List Attribute}
    (hedit : ModifierEdit kind m.attributes attributes) (hself : kind ≠ .ignoreSelf)
    (hinactive : kind ≠ .includeInactive) :
    (i.withModifiers (.ofList (modifiersIn attributes))).fragment =
      { i.fragment with
        guard := if (m.withAttributes attributes).carries .skipNullCheck then none else some i.guard
        injectInPlay := (m.withAttributes attributes).carries .injectInPlay } := by
  have hmodifiers := Member.modifiers_of_resolve h
  rw [Modifiers.ofList_eq] at hmodifiers
  rw [fragment_withModifiers]
  · rw [Modifiers.ofList_eq, Member.carries, Member.carries, Member.attributes_withAttributes]
  · intro _
    rw [hmodifiers, Modifiers.ofList_eq]
    exact hedit.contains_eq hself.symm
  · intro _
    rw [hmodifiers, Modifiers.ofList_eq]
    exact hedit.contains_eq hinactive.symm

end

end Injection

/-! ## What strategies show -/

/-- Whether a modifier is one of these. -/
def Modifiers.has (ms : Modifiers) : Modifier → Bool
  | .ignoreSelf => ms.ignoreSelf
  | .skipNullCheck => ms.skipNullCheck
  | .includeInactive => ms.includeInactive
  | .injectInPlay => ms.injectInPlay

theorem Modifiers.has_ofList (list : List Modifier) (kind : Modifier) :
    (ofList list).has kind = list.contains kind := by
  rw [ofList_eq]
  cases kind <;> rfl

/-- Whether the code of a member with the strategy shows a modifier. -/
def Strategy.shows (s : Strategy) : Modifier → Bool
  | .ignoreSelf => s == .getInChildren
  | .includeInactive => s == .getInChildren || s == .getInParent
  | .skipNullCheck => true
  | .injectInPlay => true

theorem Strategy.shows_ignoreSelf_iff {s : Strategy} :
    s.shows .ignoreSelf ↔ s = .getInChildren := by
  simp [shows]

theorem Strategy.shows_includeInactive_iff {s : Strategy} :
    s.shows .includeInactive ↔ s = .getInChildren ∨ s = .getInParent := by
  simp [shows]

theorem boolLiteral_inj {b b' : Bool} : boolLiteral b = boolLiteral b' ↔ b = b' := by
  cases b <;> cases b' <;> decide

theorem length_boolLiteral (b : Bool) :
    4 ≤ (boolLiteral b).length ∧ (boolLiteral b).length ≤ 5 := by
  cases b <;> decide

/-- The length of a call on the component itself with one argument. -/
theorem Call.length_render_own (method target argument : String) :
    (Call.render ⟨none, method, target, [argument]⟩).length =
      method.length + target.length + argument.length + 4 := by
  have hopen : "<".length = 1 := rfl
  have hmiddle : ">(".length = 2 := rfl
  have hclose : ")".length = 1 := rfl
  rw [render, String.intercalate_singleton]
  simp only [String.length_append, String.empty_append, hopen, hmiddle, hclose]
  omega

theorem Shape.length_conversion_le (shape : Shape) (yields : Yields) :
    (shape.conversion yields).length ≤ 10 := by
  rw [conversion.eq_def]
  split <;> decide

namespace Injection

variable {i : Injection} {modifiers modifiers' : Modifiers}

/-- Modifiers that agree on what the strategy of a member shows give it the same fragment. -/
theorem fragment_eq_of_shows
    (h : ∀ kind, i.markers.strategy.shows kind → modifiers'.has kind = modifiers.has kind) :
    (i.withModifiers modifiers').fragment = (i.withModifiers modifiers).fragment := by
  have hguard : modifiers'.skipNullCheck = modifiers.skipNullCheck := h .skipNullCheck rfl
  have hplay : modifiers'.injectInPlay = modifiers.injectInPlay := h .injectInPlay rfl
  have hfragment : ((i.withModifiers modifiers).withModifiers modifiers').fragment = _ :=
    fragment_withModifiers
      (fun hs => h .ignoreSelf (Strategy.shows_ignoreSelf_iff.mpr hs))
      (fun hs => h .includeInactive (Strategy.shows_includeInactive_iff.mpr hs))
  rw [hguard, hplay] at hfragment
  exact hfragment

theorem value_withModifiers :
    (i.withModifiers modifiers).fragment.value =
      ((i.withModifiers modifiers).lookup i.target).render ++
        i.shape.conversion ((i.withModifiers modifiers).lookup i.target).yields :=
  rfl

/-- A value with the condition that the own object does not count is long. -/
theorem length_value_of_ignoreSelf (hs : i.markers.strategy = .getInChildren)
    (h : modifiers.ignoreSelf = true) :
    i.target.length + 50 ≤ (i.withModifiers modifiers).fragment.value.length := by
  have hmethod : "GetComponentsInChildren".length = 23 := rfl
  have hquery : 30 ≤ ((if i.shape.holdsMany then ".Where(" else ".FirstOrDefault(") ++ notSelf ++
      ")").length := by
    cases i.shape.holdsMany <;> decide
  have hargument := length_boolLiteral modifiers.includeInactive
  have hlookup : (i.withModifiers modifiers).lookup i.target =
      .select i.shape.holdsMany
        ⟨none, "GetComponentsInChildren", i.target, [boolLiteral modifiers.includeInactive]⟩
        notSelf := by
    simp [lookup, withModifiers, hs, h]
  rw [value_withModifiers, hlookup, Lookup.render_select, String.length_append,
    String.length_append, Call.length_render_own]
  omega

/-- A value without it is short. -/
theorem length_value_of_not_ignoreSelf (hs : i.markers.strategy = .getInChildren)
    (h : modifiers.ignoreSelf = false) :
    (i.withModifiers modifiers).fragment.value.length < i.target.length + 50 := by
  have hone : "GetComponentInChildren".length = 22 := rfl
  have hall : "GetComponentsInChildren".length = 23 := rfl
  have hargument := length_boolLiteral modifiers.includeInactive
  have hlookup : (i.withModifiers modifiers).lookup i.target =
      .oneOrMany i.shape.holdsMany
        ⟨none, "GetComponentInChildren", i.target, [boolLiteral modifiers.includeInactive]⟩
        ⟨none, "GetComponentsInChildren", i.target, [boolLiteral modifiers.includeInactive]⟩ := by
    simp [lookup, withModifiers, hs, h]
  have hconversion := i.shape.length_conversion_le
    ((i.withModifiers modifiers).lookup i.target).yields
  rw [value_withModifiers, String.length_append]
  have hrender : ((i.withModifiers modifiers).lookup i.target).render.length ≤
      i.target.length + 32 := by
    rw [hlookup, Lookup.render_oneOrMany]
    split
    · rw [Call.length_render_own]
      omega
    · rw [Call.length_render_own]
      omega
  omega

/-- Modifiers that give a member the same value agree on whether the own object counts, if the
strategy of the member asks for this. -/
theorem ignoreSelf_eq_of_value_eq (hs : i.markers.strategy = .getInChildren)
    (h : (i.withModifiers modifiers').fragment.value =
      (i.withModifiers modifiers).fragment.value) :
    modifiers'.ignoreSelf = modifiers.ignoreSelf := by
  have hlong : ∀ ms : Modifiers, ms.ignoreSelf = true ↔
      i.target.length + 50 ≤ (i.withModifiers ms).fragment.value.length := by
    intro ms
    cases hself : ms.ignoreSelf with
    | false => simpa using length_value_of_not_ignoreSelf hs hself
    | true => simpa using length_value_of_ignoreSelf hs hself
  rw [Bool.eq_iff_iff, hlong, hlong, h]

/-- If they do, they agree on inactive objects, too, where the call has this as its argument. -/
theorem includeInactive_eq_of_value_eq
    (hs : i.markers.strategy = .getInChildren ∨ i.markers.strategy = .getInParent)
    (h : (i.withModifiers modifiers').fragment.value =
      (i.withModifiers modifiers).fragment.value) :
    modifiers'.includeInactive = modifiers.includeInactive := by
  rw [← boolLiteral_inj]
  -- Both values have the same text before the argument and after it.
  rcases hs with hs | hs
  · have hself := ignoreSelf_eq_of_value_eq hs h
    cases hown : modifiers.ignoreSelf <;> cases hmany : i.shape.holdsMany <;>
      simpa [fragment, withModifiers, lookup, hs, hself, hmany, hown, Lookup.oneOrMany,
        Lookup.direct, Lookup.select, Lookup.queried, Lookup.render, Call.render, target] using h
  · cases hmany : i.shape.holdsMany <;>
      simpa [fragment, withModifiers, lookup, hs, hmany, Lookup.oneOrMany, Lookup.direct,
        Lookup.render, Call.render, target] using h

/-- Modifiers give a member the same fragment exactly if they agree on what its strategy shows. -/
theorem fragment_withModifiers_eq_iff :
    (i.withModifiers modifiers').fragment = (i.withModifiers modifiers).fragment ↔
      ∀ kind, i.markers.strategy.shows kind → modifiers'.has kind = modifiers.has kind := by
  refine ⟨?_, fragment_eq_of_shows⟩
  intro h kind hshown
  have hvalue := congrArg Fragment.value h
  cases kind with
  | ignoreSelf =>
      exact ignoreSelf_eq_of_value_eq (Strategy.shows_ignoreSelf_iff.mp hshown) hvalue
  | includeInactive =>
      exact includeInactive_eq_of_value_eq (Strategy.shows_includeInactive_iff.mp hshown) hvalue
  | skipNullCheck =>
      have hguard := congrArg (fun f => f.guard.isNone) h
      change modifiers'.skipNullCheck = modifiers.skipNullCheck
      cases hskip' : modifiers'.skipNullCheck <;> cases hskip : modifiers.skipNullCheck <;>
        simp [fragment, withModifiers, hskip, hskip'] at hguard ⊢
  | injectInPlay => exact congrArg Fragment.injectInPlay h

end Injection

/-! ## Candidates -/

namespace Candidate

variable {options : Options} {model : SemanticModel} {typeName : String}

/-- A candidate gives the fragment of what its member is resolved to. -/
theorem outcome_eq_fragment_iff {c : Candidate} {f : Fragment} :
    c.outcome options model typeName = .fragment f ↔
      ∃ i, c.member.resolve options model typeName = .ok (some i) ∧ i.fragment = f := by
  rw [outcome]
  cases c.member.resolve options model typeName with
  | error reason => simp
  | ok injection? => cases injection? <;> simp

/-- What becomes of a candidate with the same strategies and other modifiers. -/
theorem outcome_withAttributes_of_calls {m : Member} {attributes : List Attribute}
    (h : strategyCalls attributes = strategyCalls m.attributes) (file : String) :
    outcome options .ofDeclarations typeName ⟨m.withAttributes attributes, file⟩ =
      match m.resolve options .ofDeclarations typeName with
      | .ok (some i) => .fragment (i.withModifiers (.ofList (modifiersIn attributes))).fragment
      | .ok none => .unmarked
      | .error reason => .skipped (skip ⟨m, file⟩ typeName reason) := by
  rw [outcome, Member.resolve_withAttributes_of_calls h]
  cases m.resolve options .ofDeclarations typeName with
  | error reason =>
      simp only [Except.map, skip, Member.label_withAttributes, Member.location_withAttributes]
  | ok injection? => cases injection? <;> rfl

end Candidate

end SceneWiring
