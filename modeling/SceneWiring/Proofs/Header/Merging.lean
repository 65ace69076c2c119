import Mathlib.Data.List.Induction
import Mathlib.Data.List.Perm.Basic
import SceneWiring.Header

/-!
# Merging the parts of a type

A header joins what the parts of a type say.  A further part that says no more than the
header leaves it as it is, and the order of the parts does not matter if they agree in the
name and in the type parameters.

Main results:

- Definition `TypePart.Repeats`: a part that says what a header says.
- Theorem `Header.ofParts_append_of_repeats`: such parts change nothing.
- Theorem `Header.ofParts_eq_of_perm`: nor does the order of the parts.
-/

namespace SceneWiring

/-! ## Keywords -/

/-- Whether a keyword is among modifiers. -/
def hasKeyword (modifiers : List String) (keyword : String) : Bool :=
  modifiers.any fun m => Text.trim m == keyword

/-- A keyword is among joined modifiers if it is in either part. -/
theorem hasKeyword_append (xs ys : List String) (keyword : String) :
    hasKeyword (xs ++ ys) keyword = (hasKeyword xs keyword || hasKeyword ys keyword) :=
  List.any_append

/-- A part declares a modifier if the keyword is among its modifiers. -/
theorem TypePart.declares_eq (part : TypePart) (keyword : String) :
    part.declares keyword = hasKeyword part.modifiers keyword :=
  rfl

namespace Accessibility

/-- The accessibility of a type depends on two keywords. -/
theorem ofModifiers_eq (modifiers : List String) :
    ofModifiers modifiers =
      if hasKeyword modifiers "public" then .publicAccess
      else if hasKeyword modifiers "private" then .privateAccess
      else .internalAccess :=
  rfl

/-- Modifiers that have the keyword of an accessibility exactly if the others declare it add
nothing to these. -/
theorem ofModifiers_append_keyword {xs ys : List String}
    (hpublic : hasKeyword ys "public" = (ofModifiers xs == .publicAccess))
    (hprivate : hasKeyword ys "private" = (ofModifiers xs == .privateAccess)) :
    ofModifiers (xs ++ ys) = ofModifiers xs := by
  rw [ofModifiers_eq xs] at hpublic hprivate
  rw [ofModifiers_eq, ofModifiers_eq, hasKeyword_append, hasKeyword_append, hpublic, hprivate]
  cases hasKeyword xs "public" <;> cases hasKeyword xs "private" <;> rfl

end Accessibility

/-! ## Parts that repeat a header -/

/-- The modifiers that declare an accessibility and whether a type is sealed. -/
def declaredModifiers (accessibility : Accessibility) (isSealed : Bool) : List String :=
  accessibility.keyword :: (if isSealed then ["sealed"] else []) ++ ["partial"]

/-- A part that says what a header says. -/
structure TypePart.Repeats (h : Header) (part : TypePart) : Prop where
  name : part.name = h.name
  modifiers : part.modifiers = declaredModifiers h.accessibility h.isSealed
  typeParameters : part.typeParameters = h.typeParameters

/-- Public types are declared so. -/
theorem hasKeyword_public_declaredModifiers (a : Accessibility) (isSealed : Bool) :
    hasKeyword (declaredModifiers a isSealed) "public" = (a == .publicAccess) := by
  cases a <;> cases isSealed <;> decide

/-- So are private types. -/
theorem hasKeyword_private_declaredModifiers (a : Accessibility) (isSealed : Bool) :
    hasKeyword (declaredModifiers a isSealed) "private" = (a == .privateAccess) := by
  cases a <;> cases isSealed <;> decide

theorem hasKeyword_sealed_declaredModifiers (a : Accessibility) (isSealed : Bool) :
    hasKeyword (declaredModifiers a isSealed) "sealed" = isSealed := by
  cases a <;> cases isSealed <;> decide

theorem hasKeyword_partial_declaredModifiers (a : Accessibility) (isSealed : Bool) :
    hasKeyword (declaredModifiers a isSealed) "partial" = true := by
  cases a <;> cases isSealed <;> decide

namespace Header

variable {parts : List TypePart}

/-- There are no blanks around the name in a header. -/
theorem trim_name_ofParts (parts : List TypePart) :
    Text.trim (ofParts parts).name = (ofParts parts).name := by
  cases parts with
  | nil => rfl
  | cons part others => exact Text.trim_trim part.name

/-- A further part that repeats the type parameters does not change them. -/
theorem mergedTypeParameters_concat {part : TypePart}
    (h : part.typeParameters = mergedTypeParameters parts) :
    mergedTypeParameters (parts ++ [part]) = mergedTypeParameters parts := by
  rw [mergedTypeParameters] at h
  rw [mergedTypeParameters, mergedTypeParameters, List.find?_append]
  cases hfind : parts.find? fun part => !part.typeParameters.isEmpty with
  | some first => rfl
  | none =>
      rw [hfind] at h
      simp [h]

/-- A further part that repeats the header of a type leaves the header as it is. -/
theorem ofParts_concat_of_repeats (hne : parts ≠ []) {part : TypePart}
    (h : part.Repeats (.ofParts parts)) : ofParts (parts ++ [part]) = ofParts parts := by
  have hname : (parts ++ [part]).head? = parts.head? := by
    rcases List.exists_cons_of_ne_nil hne with ⟨first, rest, rfl⟩
    rfl
  have haccessibility : Accessibility.ofModifiers ((parts ++ [part]).flatMap TypePart.modifiers) =
      .ofModifiers (parts.flatMap TypePart.modifiers) := by
    rw [List.flatMap_append, List.flatMap_singleton, h.modifiers]
    exact Accessibility.ofModifiers_append_keyword
      (hasKeyword_public_declaredModifiers _ _) (hasKeyword_private_declaredModifiers _ _)
  have hsealed : ((parts ++ [part]).any fun part => part.declares "sealed") =
      parts.any fun part => part.declares "sealed" := by
    have hown : part.declares "sealed" = parts.any fun part => part.declares "sealed" := by
      rw [TypePart.declares_eq, h.modifiers, hasKeyword_sealed_declaredModifiers]
      rfl
    rw [List.any_append, List.any_cons, List.any_nil, Bool.or_false, hown, Bool.or_self]
  have hpartial : ((parts ++ [part]).all fun part => part.declares "partial") =
      parts.all fun part => part.declares "partial" := by
    have hown : part.declares "partial" = true := by
      rw [TypePart.declares_eq, h.modifiers, hasKeyword_partial_declaredModifiers]
    rw [List.all_append, List.all_cons, List.all_nil, hown, Bool.and_true, Bool.and_true]
  have hempty : (parts ++ [part]).isEmpty = parts.isEmpty := by
    rcases List.exists_cons_of_ne_nil hne with ⟨first, rest, rfl⟩
    rfl
  rw [ofParts, ofParts, hname, mergedTypeParameters_concat h.typeParameters, haccessibility,
    hsealed, hpartial, hempty]

/-- Further parts that repeat the header of a type leave the header as it is. -/
theorem ofParts_append_of_repeats (hne : parts ≠ []) {more : List TypePart}
    (h : ∀ part ∈ more, part.Repeats (.ofParts parts)) :
    ofParts (parts ++ more) = ofParts parts := by
  induction more using List.reverseRecOn with
  | nil => rw [List.append_nil]
  | append_singleton more part ih =>
      have hmore := ih fun part hpart => h part (List.mem_append_left _ hpart)
      have hlast : part.Repeats (ofParts (parts ++ more)) := by
        rw [hmore]
        exact h part (List.mem_append_right _ (List.mem_singleton_self part))
      rw [← List.append_assoc, ofParts_concat_of_repeats (by simp [hne]) hlast, hmore]

/-! ## The order of parts -/

/-- The parts that have type parameters have the same ones. -/
def AgreeInTypeParameters (parts : List TypePart) : Prop :=
  ∀ part ∈ parts, ∀ part' ∈ parts, part.typeParameters ≠ [] → part'.typeParameters ≠ [] →
    part.typeParameters.map Text.trim = part'.typeParameters.map Text.trim

instance (parts : List TypePart) : Decidable (AgreeInTypeParameters parts) :=
  inferInstanceAs (Decidable (∀ part ∈ parts, ∀ part' ∈ parts, part.typeParameters ≠ [] →
    part'.typeParameters ≠ [] →
    part.typeParameters.map Text.trim = part'.typeParameters.map Text.trim))

/-- The type parameters are those of any part that has some, if all agree. -/
theorem mergedTypeParameters_eq (hagree : AgreeInTypeParameters parts) {part : TypePart}
    (hpart : part ∈ parts) (hne : part.typeParameters ≠ []) :
    mergedTypeParameters parts = part.typeParameters.map Text.trim := by
  rw [mergedTypeParameters]
  cases hfind : parts.find? fun part => !part.typeParameters.isEmpty with
  | none =>
      have hnone := List.find?_eq_none.mp hfind part hpart
      simp [hne] at hnone
  | some first =>
      have hfirst : first.typeParameters ≠ [] := by
        simpa using List.find?_some hfind
      exact hagree first (List.mem_of_find?_eq_some hfind) part hpart hfirst hne

/-- There are no type parameters if no part has any. -/
theorem mergedTypeParameters_eq_nil (h : ∀ part ∈ parts, part.typeParameters = []) :
    mergedTypeParameters parts = [] := by
  have hnone : (parts.find? fun part => !part.typeParameters.isEmpty) = none := by
    rw [List.find?_eq_none]
    intro part hpart
    simp [h part hpart]
  rw [mergedTypeParameters, hnone]

/-- The order of the parts of a type does not matter for its header if they agree in the
name and in the type parameters. -/
theorem ofParts_eq_of_perm {parts' : List TypePart} (hperm : parts.Perm parts')
    (hname : ∀ part ∈ parts, ∀ part' ∈ parts, Text.trim part.name = Text.trim part'.name)
    (hagree : AgreeInTypeParameters parts) : ofParts parts' = ofParts parts := by
  have hnames : (parts'.head?.map fun part => Text.trim part.name) =
      parts.head?.map fun part => Text.trim part.name := by
    cases parts with
    | nil => rw [List.nil_perm.mp hperm]
    | cons part rest =>
        cases parts' with
        | nil => exact absurd hperm.symm (by simp)
        | cons part' rest' =>
            have hmem : part' ∈ part :: rest := hperm.symm.subset List.mem_cons_self
            simp only [List.head?_cons, Option.map_some]
            rw [hname part' hmem part List.mem_cons_self]
  have hagree' : AgreeInTypeParameters parts' := by
    intro part hpart part' hpart'
    exact hagree part (hperm.symm.subset hpart) part' (hperm.symm.subset hpart')
  have hparameters : mergedTypeParameters parts' = mergedTypeParameters parts := by
    by_cases hnone : ∀ part ∈ parts, part.typeParameters = []
    · rw [mergedTypeParameters_eq_nil hnone,
        mergedTypeParameters_eq_nil fun part hpart => hnone part (hperm.symm.subset hpart)]
    · obtain ⟨part, hpart, hne⟩ : ∃ part ∈ parts, part.typeParameters ≠ [] := by
        simpa using hnone
      rw [mergedTypeParameters_eq hagree hpart hne,
        mergedTypeParameters_eq hagree' (hperm.subset hpart) hne]
  have hmodifiers := hperm.flatMap_right TypePart.modifiers
  have hkeyword : ∀ keyword, hasKeyword (parts'.flatMap TypePart.modifiers) keyword =
      hasKeyword (parts.flatMap TypePart.modifiers) keyword :=
    fun keyword => hmodifiers.symm.any_eq
  have haccessibility : Accessibility.ofModifiers (parts'.flatMap TypePart.modifiers) =
      .ofModifiers (parts.flatMap TypePart.modifiers) := by
    rw [Accessibility.ofModifiers_eq, Accessibility.ofModifiers_eq, hkeyword, hkeyword]
  have hempty : parts'.isEmpty = parts.isEmpty := hperm.symm.isEmpty_eq
  rw [ofParts, ofParts, hnames, hparameters, haccessibility, hempty, hperm.symm.any_eq,
    hperm.symm.all_eq]

end Header
end SceneWiring
