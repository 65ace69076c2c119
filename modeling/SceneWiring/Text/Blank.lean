/-!
# Blank characters and trimming

Names, types and modifiers are compared without the blank characters around
them.  Blank means the Unicode property White_Space, 25 characters in all; every
part of the library that trims text uses this one class.

Main results:

- Theorem `trimmed_append`: blanks around a text that has none at its ends are dropped.
- Theorem `trimmed_trimmed`: a trimmed text has nothing left to trim.
- Theorem `trimmed_append_of_trimmed`: nor have two of them, joined.
- Theorem `exists_append_trimmed`: only blanks are dropped.
- Theorem `toList_trim`: trimming a string is trimming its characters.
-/

namespace SceneWiring
namespace Text

/-! ## The class -/

/-- The characters with the property White_Space. -/
def isBlank (c : Char) : Bool :=
  let code := c.toNat
  (0x09 ≤ code && code ≤ 0x0D) || code == 0x20 || code == 0x85 || code == 0xA0 ||
    code == 0x1680 || (0x2000 ≤ code && code ≤ 0x200A) || code == 0x2028 ||
    code == 0x2029 || code == 0x202F || code == 0x205F || code == 0x3000

/-! ## Trimming a list of characters -/

/-- Drop the blanks in front. -/
def dropBlank (cs : List Char) : List Char :=
  cs.dropWhile isBlank

/-- Drop the blanks at the end. -/
def dropBlankEnd (cs : List Char) : List Char :=
  (dropBlank cs.reverse).reverse

/-- Drop the blanks at both ends. -/
def trimmed (cs : List Char) : List Char :=
  dropBlankEnd (dropBlank cs)

/-- Nothing is left of the empty text. -/
@[simp]
theorem trimmed_nil : trimmed [] = [] :=
  rfl

/-- Blanks in front of a text that starts with something else are dropped. -/
theorem dropBlank_append {before : List Char} (hbefore : ∀ c ∈ before, isBlank c) {c : Char}
    (hc : isBlank c = false) (rest : List Char) : dropBlank (before ++ c :: rest) = c :: rest := by
  rw [dropBlank, List.dropWhile_append_of_pos hbefore, List.dropWhile_cons_of_neg]
  simp [hc]

/-- Blanks around a text that has none at its ends are dropped. -/
theorem trimmed_append {before after : List Char} (hbefore : ∀ c ∈ before, isBlank c)
    (hafter : ∀ c ∈ after, isBlank c) {first last : Char} (hfirst : isBlank first = false)
    (hlast : isBlank last = false) (inside : List Char) :
    trimmed (before ++ (first :: inside ++ [last]) ++ after) = first :: inside ++ [last] := by
  have hfront : dropBlank (before ++ (first :: inside ++ [last]) ++ after) =
      first :: inside ++ [last] ++ after := by
    simpa using dropBlank_append hbefore hfirst (inside ++ last :: after)
  have hreverse : (first :: inside ++ [last] ++ after).reverse =
      after.reverse ++ last :: (first :: inside).reverse := by
    simp
  rw [trimmed, hfront, dropBlankEnd, hreverse, dropBlank_append (by simpa using hafter) hlast]
  simp

/-- A text that does not start with a blank has none to drop in front. -/
theorem dropBlank_eq_self {cs : List Char} (h : ∀ c ∈ cs.head?, isBlank c = false) :
    dropBlank cs = cs := by
  cases cs with
  | nil => rfl
  | cons c rest => rw [dropBlank, List.dropWhile_cons_of_neg (by simp [h c rfl])]

/-- What is left starts with no blank. -/
theorem isBlank_of_mem_head_dropBlank (cs : List Char) :
    ∀ c ∈ (dropBlank cs).head?, isBlank c = false := by
  induction cs with
  | nil => simp [dropBlank]
  | cons c rest ih =>
    by_cases hc : isBlank c
    · rw [dropBlank, List.dropWhile_cons_of_pos hc]
      exact ih
    · rw [dropBlank, List.dropWhile_cons_of_neg hc]
      simpa using hc

/-- Dropping blanks at the end keeps a part in front. -/
theorem dropBlankEnd_prefix (cs : List Char) : dropBlankEnd cs <+: cs := by
  have hsuffix : dropBlank cs.reverse <:+ cs.reverse := List.dropWhile_suffix _
  simpa [dropBlankEnd] using List.reverse_prefix.mpr hsuffix

/-- What is left at the end ends with no blank. -/
@[simp]
theorem dropBlankEnd_dropBlankEnd (cs : List Char) :
    dropBlankEnd (dropBlankEnd cs) = dropBlankEnd cs := by
  rw [dropBlankEnd, dropBlankEnd, List.reverse_reverse,
    dropBlank_eq_self (isBlank_of_mem_head_dropBlank _)]

/-- A trimmed text has nothing left to trim. -/
@[simp]
theorem trimmed_trimmed (cs : List Char) : trimmed (trimmed cs) = trimmed cs := by
  have hfront : dropBlank (trimmed cs) = trimmed cs := by
    apply dropBlank_eq_self
    intro c hc
    rcases dropBlankEnd_prefix (dropBlank cs) with ⟨rest, hrest⟩
    apply isBlank_of_mem_head_dropBlank cs
    have hhead : (trimmed cs).head? = some c := hc
    rw [← hrest, List.head?_append]
    change ((trimmed cs).head?.or rest.head?) = some c
    rw [hhead, Option.some_or]
  rw [trimmed, hfront, trimmed, dropBlankEnd_dropBlankEnd]

/-- A text that is trimmed starts with no blank. -/
theorem dropBlank_of_trimmed {cs : List Char} (h : trimmed cs = cs) : dropBlank cs = cs := by
  have hstart : cs <+: dropBlank cs := by
    have hend := dropBlankEnd_prefix (dropBlank cs)
    change trimmed cs <+: dropBlank cs at hend
    rwa [h] at hend
  have hsuffix : dropBlank cs <:+ cs := List.dropWhile_suffix _
  exact (hstart.eq_of_length_le hsuffix.length_le).symm

/-- Nor does it end with one. -/
theorem dropBlank_reverse_of_trimmed {cs : List Char} (h : trimmed cs = cs) :
    dropBlank cs.reverse = cs.reverse := by
  rw [trimmed, dropBlank_of_trimmed h, dropBlankEnd] at h
  rw [← List.reverse_inj, List.reverse_reverse, h]

/-- Between two trimmed texts, there is nothing to trim. -/
theorem trimmed_append_of_trimmed {cs ds : List Char} (hcs : trimmed cs = cs)
    (hds : trimmed ds = ds) (hcs' : cs ≠ []) (hds' : ds ≠ []) (between : List Char) :
    trimmed (cs ++ between ++ ds) = cs ++ between ++ ds := by
  have hfront : dropBlank (cs ++ between ++ ds) = cs ++ between ++ ds := by
    apply dropBlank_eq_self
    intro c hc
    rw [List.append_assoc, List.head?_append, List.head?_eq_some_head hcs', Option.some_or] at hc
    apply isBlank_of_mem_head_dropBlank cs
    rwa [dropBlank_of_trimmed hcs, List.head?_eq_some_head hcs']
  have hback : dropBlank (cs ++ between ++ ds).reverse = (cs ++ between ++ ds).reverse := by
    apply dropBlank_eq_self
    intro c hc
    have hlast : ds.reverse ≠ [] := by simpa using hds'
    rw [List.reverse_append, List.head?_append, List.head?_eq_some_head hlast, Option.some_or] at hc
    apply isBlank_of_mem_head_dropBlank ds.reverse
    rwa [dropBlank_reverse_of_trimmed hds, List.head?_eq_some_head hlast]
  rw [trimmed, hfront, dropBlankEnd, hback, List.reverse_reverse]

/-! ## What is dropped -/

/-- Only blanks are dropped in front. -/
theorem exists_append_dropBlank (cs : List Char) :
    ∃ before, (∀ c ∈ before, isBlank c) ∧ before ++ dropBlank cs = cs :=
  ⟨cs.takeWhile isBlank, List.all_eq_true.mp List.all_takeWhile, List.takeWhile_append_dropWhile⟩

/-- Only blanks are dropped at the end. -/
theorem exists_dropBlankEnd_append (cs : List Char) :
    ∃ after, (∀ c ∈ after, isBlank c) ∧ dropBlankEnd cs ++ after = cs := by
  rcases exists_append_dropBlank cs.reverse with ⟨before, hbefore, hreverse⟩
  refine ⟨before.reverse, by simpa using hbefore, ?_⟩
  rw [dropBlankEnd, ← List.reverse_append, hreverse, List.reverse_reverse]

/-- Only blanks are dropped at both ends. -/
theorem exists_append_trimmed (cs : List Char) :
    ∃ before after, (∀ c ∈ before, isBlank c) ∧ (∀ c ∈ after, isBlank c) ∧
      before ++ trimmed cs ++ after = cs := by
  rcases exists_append_dropBlank cs with ⟨before, hbefore, hfront⟩
  rcases exists_dropBlankEnd_append (dropBlank cs) with ⟨after, hafter, hend⟩
  refine ⟨before, after, hbefore, hafter, ?_⟩
  rw [trimmed, List.append_assoc, hend, hfront]

/-- Blanks at the end of a text are dropped with those before them. -/
theorem dropBlankEnd_append_of_blank (cs : List Char) {after : List Char}
    (hafter : ∀ c ∈ after, isBlank c) : dropBlankEnd (cs ++ after) = dropBlankEnd cs := by
  have hreverse : ∀ c ∈ after.reverse, isBlank c := by simpa using hafter
  rw [dropBlankEnd, dropBlankEnd, List.reverse_append, dropBlank, dropBlank,
    List.dropWhile_append_of_pos hreverse]

/-- Nothing is dropped at the end of a text that ends with something else. -/
theorem dropBlankEnd_concat (cs : List Char) {c : Char} (hc : isBlank c = false) :
    dropBlankEnd (cs ++ [c]) = cs ++ [c] := by
  rw [dropBlankEnd, List.reverse_concat, dropBlank, List.dropWhile_cons_of_neg (by simp [hc])]
  simp

/-- A text that is trimmed ends with no blank. -/
theorem dropBlankEnd_of_trimmed {cs : List Char} (h : trimmed cs = cs) :
    dropBlankEnd cs = cs := by
  rw [dropBlankEnd, dropBlank_reverse_of_trimmed h, List.reverse_reverse]

/-! ## Trimming a string -/

/-- The text without the blanks at its ends. -/
def trim (s : String) : String :=
  String.ofList (trimmed s.toList)

/-- Trimming a string is trimming its characters. -/
@[simp]
theorem toList_trim (s : String) : (trim s).toList = trimmed s.toList := by
  simp [trim]

/-- A trimmed string has nothing left to trim. -/
@[simp]
theorem trim_trim (s : String) : trim (trim s) = trim s := by
  rw [trim, toList_trim, trimmed_trimmed]
  rfl

end Text
end SceneWiring
