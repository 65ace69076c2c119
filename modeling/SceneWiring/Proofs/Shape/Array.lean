import SceneWiring.Shape

/-!
# Types of arrays

The type of an array is the type of its elements followed by a pair of brackets, with any blanks in
front of each bracket and around the whole text.  The last pair of brackets counts, so elements may
be arrays again.  The element has to lie on one line; blanks between it and the brackets need not.

Main results:

- Definition `Shape.IsArrayOf`: a type that is written as an array.
- Theorem `Shape.dropEnd?_eq_some_iff`: what is left of a text in front of a character at its end.
- Theorem `Shape.ofType_eq_array_iff`: the types that are taken for arrays.
- Theorem `Shape.brokenLine_not_array`: an array whose element lies on several lines.
-/

namespace SceneWiring
namespace Shape

open Text

/-- A type that is written as an array: but for blanks around it, its text is that of an element
followed by a pair of brackets, with any blanks in front of each. -/
def IsArrayOf (type element : String) : Prop :=
  element ≠ "" ∧ trim element = element ∧
    ∃ blanks blanks' : List Char, (∀ c ∈ blanks, isBlank c) ∧ (∀ c ∈ blanks', isBlank c) ∧
      (trim type).toList = element.toList ++ blanks ++ '[' :: blanks' ++ [']']

/-! ## Brackets at the end -/

/-- What is left in front of a character at the end ends with no blank, and only blanks stand
between the two. -/
theorem dropEnd?_eq_some_iff {c : Char} {cs rest : List Char} :
    dropEnd? c cs = some rest ↔
      dropBlankEnd rest = rest ∧
        ∃ blanks, (∀ b ∈ blanks, isBlank b) ∧ cs = rest ++ blanks ++ [c] := by
  rw [dropEnd?]
  constructor
  · intro h
    split at h
    · rename_i hlast
      rcases List.getLast?_eq_some_iff.mp hlast with ⟨front, rfl⟩
      rw [List.dropLast_concat] at h
      obtain rfl := Option.some.inj h
      rcases exists_dropBlankEnd_append front with ⟨blanks, hblanks, hfront⟩
      exact ⟨dropBlankEnd_dropBlankEnd front, blanks, hblanks, by rw [hfront]⟩
    · exact absurd h (by simp)
  · rintro ⟨hrest, blanks, hblanks, rfl⟩
    rw [if_pos (by simp), List.dropLast_concat, dropBlankEnd_append_of_blank rest hblanks, hrest]

/-- The element of an array type is found by taking off one bracket after the other. -/
theorem arrayElementChars?_eq_some_iff_dropEnd? {cs element : List Char} :
    arrayElementChars? cs = some element ↔
      ∃ inside, dropEnd? ']' (trimmed cs) = some inside ∧ dropEnd? '[' inside = some element ∧
        element ≠ [] ∧ '\n' ∉ element := by
  rw [arrayElementChars?, Option.bind_eq_bind, Option.bind_eq_some_iff]
  apply exists_congr
  intro inside
  apply and_congr_right
  intro _
  rw [Option.bind_eq_some_iff]
  constructor
  · rintro ⟨rest, hrest, h⟩
    split at h
    · exact absurd h (by simp)
    · rename_i hkeep
      obtain rfl := Option.some.inj h
      simp only [Bool.or_eq_true, List.isEmpty_iff, List.contains_eq_mem, decide_eq_true_eq,
        not_or] at hkeep
      exact ⟨hrest, hkeep⟩
  · rintro ⟨hrest, hne, hline⟩
    exact ⟨element, hrest, if_neg (by simp [hne, hline])⟩

/-- The element of an array type stands in front of two brackets at the end. -/
theorem arrayElementChars?_eq_some_iff {cs element : List Char} :
    arrayElementChars? cs = some element ↔
      element ≠ [] ∧ '\n' ∉ element ∧ dropBlankEnd element = element ∧
        ∃ blanks blanks', (∀ c ∈ blanks, isBlank c) ∧ (∀ c ∈ blanks', isBlank c) ∧
          trimmed cs = element ++ blanks ++ '[' :: blanks' ++ [']'] := by
  rw [arrayElementChars?_eq_some_iff_dropEnd?]
  constructor
  · rintro ⟨inside, hinside, helement, hne, hline⟩
    rcases dropEnd?_eq_some_iff.mp hinside with ⟨-, blanks', hblanks', htext⟩
    rcases dropEnd?_eq_some_iff.mp helement with ⟨hend, blanks, hblanks, rfl⟩
    exact ⟨hne, hline, hend, blanks, blanks', hblanks, hblanks', by rw [htext]; simp⟩
  · rintro ⟨hne, hline, hend, blanks, blanks', hblanks, hblanks', htext⟩
    refine ⟨element ++ blanks ++ ['['], dropEnd?_eq_some_iff.mpr ⟨?_, blanks', hblanks', ?_⟩,
      dropEnd?_eq_some_iff.mpr ⟨hend, blanks, hblanks, rfl⟩, hne, hline⟩
    · exact dropBlankEnd_concat _ (by decide)
    · rw [htext]
      simp

/-- A part in front of a trimmed text starts with no blank. -/
theorem trimmed_eq_self_iff_of_start {cs element : List Char} (hstart : element <+: trimmed cs) :
    trimmed element = element ↔ dropBlankEnd element = element := by
  have hfront : dropBlank element = element := by
    apply dropBlank_eq_self
    intro c hc
    rcases hstart with ⟨rest, hrest⟩
    apply isBlank_of_mem_head_dropBlank (trimmed cs)
    rw [dropBlank_of_trimmed (trimmed_trimmed cs), ← hrest, List.head?_append,
      Option.mem_def.mp hc, Option.some_or]
    rfl
  rw [trimmed, hfront]

/-! ## Classification -/

/-- Characters that may have been found, and the text of them. -/
theorem map_ofList_eq_some_iff {found : Option (List Char)} {text : String} :
    found.map String.ofList = some text ↔ found = some text.toList := by
  rw [Option.map_eq_some_iff]
  constructor
  · rintro ⟨chars, rfl, rfl⟩
    rw [String.toList_ofList]
  · intro h
    exact ⟨_, h, String.ofList_toList⟩

/-- A type is taken for an array exactly if it has the element of one. -/
theorem ofType_eq_array_iff_arrayElement? {type marker element : String} :
    ofType type marker = .array element ↔ arrayElement? type = some element := by
  rw [ofType]
  cases arrayElement? type with
  | some element' => simp
  | none =>
      constructor
      · intro h
        simp only at h
        split at h
        · cases hcollection : collectionElement? type marker with
          | some element' => simp [hcollection] at h
          | none => simp [hcollection] at h
        · cases h
      · intro h
        cases h

/-- A type is taken for an array exactly if it is written as one and the element lies on one line,
whatever marks collections. -/
theorem ofType_eq_array_iff (type marker element : String) :
    ofType type marker = .array element ↔ IsArrayOf type element ∧ '\n' ∉ element.toList := by
  have hne : element ≠ "" ↔ element.toList ≠ [] := by
    rw [Ne, Ne, String.toList_eq_nil_iff]
  have htrim : trim element = element ↔ trimmed element.toList = element.toList := by
    rw [← String.toList_inj, toList_trim]
  rw [ofType_eq_array_iff_arrayElement?, arrayElement?, map_ofList_eq_some_iff,
    arrayElementChars?_eq_some_iff, IsArrayOf, hne, htrim, toList_trim]
  constructor
  · rintro ⟨hempty, hline, hend, blanks, blanks', hblanks, hblanks', htext⟩
    have hstart : element.toList <+: trimmed type.toList := by
      rw [htext, List.append_assoc, List.append_assoc]
      exact List.prefix_append _ _
    exact ⟨⟨hempty, (trimmed_eq_self_iff_of_start hstart).mpr hend, blanks, blanks', hblanks,
      hblanks', htext⟩, hline⟩
  · rintro ⟨⟨hempty, htrimmed, blanks, blanks', hblanks, hblanks', htext⟩, hline⟩
    exact ⟨hempty, hline, dropBlankEnd_of_trimmed htrimmed, blanks, blanks', hblanks, hblanks',
      htext⟩

/-- An array whose element lies on several lines is not taken for an array.  Here the element is
a collection, and the array is taken for that. -/
theorem brokenLine_not_array :
    IsArrayOf "List<\n    Door\n>[]" "List<\n    Door\n>" ∧
      ofType "List<\n    Door\n>[]" "List" = .collection "Door" := by
  refine ⟨⟨by decide, by decide +kernel, [], [], by simp, by simp, by decide +kernel⟩,
    by decide +kernel⟩

end Shape
end SceneWiring
