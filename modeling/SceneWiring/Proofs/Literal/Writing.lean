import SceneWiring.Proofs.Literal.Grammar

/-!
# Written literals

A text is written piece by piece, one piece for each character, and the pieces denote the
units of the text.  What is written is a literal unless the text has one of the two
separators U+2028 and U+2029, which end a line but are written as they are.

Main results:

- Definition `writePiece`: the piece that is written for a character.
- Theorem `shaped_write`: written pieces can stand one after the other.
- Theorem `startsWith_write_iff`: what is written is one literal, whatever follows it.
-/

namespace SceneWiring
namespace Literal

open Text

/-! ## The piece of a character -/

/-- The piece that is written for a character. -/
def writePiece (c : Char) : Piece :=
  match c with
  | '\\' => .simple '\\' 0x5C
  | '"' => .simple '"' 0x22
  | '\n' => .simple 'n' 0x0A
  | '\r' => .simple 'r' 0x0D
  | '\t' => .simple 't' 0x09
  | c => if isControl c then .numeric .short (Hex.padded 4 c.toNat) else .plain c

theorem spell_writePiece (c : Char) : (writePiece c).spell = writeChar c := by
  unfold writePiece
  split
  case h_6 hback hquote hline hreturn htab =>
      rw [writeChar]
      split
      · rfl
      · rfl
      all_goals assumption
  all_goals rfl

/-- The piece of a character is an escape without digits, an escape with four digits for a
control character, or the character itself. -/
theorem writePiece_cases (c : Char) :
    (∃ letter, (letter, c.toNat) ∈ simpleEscapes ∧ writePiece c = .simple letter c.toNat) ∨
      (isControl c ∧ writePiece c = .numeric .short (Hex.padded 4 c.toNat)) ∨
      (c ≠ '"' ∧ c ≠ '\\' ∧ ¬ isControl c ∧ writePiece c = .plain c) := by
  unfold writePiece
  split
  case h_6 hback hquote _ _ _ =>
      by_cases hcontrol : isControl c
      · exact Or.inr (Or.inl ⟨hcontrol, by rw [if_pos hcontrol]⟩)
      · exact Or.inr (Or.inr ⟨hquote, hback, hcontrol, by rw [if_neg hcontrol]⟩)
  all_goals exact Or.inl ⟨_, by decide, rfl⟩

/-- A text is written piece by piece. -/
theorem toList_write (s : String) : (write s).toList = regular (s.toList.map writePiece) := by
  simp [write, writeChars, regular, spellAll, List.flatMap_map, spell_writePiece]

/-- The code point of a control character has at most four digits. -/
theorem number_padded_of_isControl {c : Char} (h : isControl c) :
    Hex.number (Hex.padded 4 c.toNat) = c.toNat := by
  have hsmall : c.toNat < 0x10000 := by
    simp only [isControl, Bool.or_eq_true, Bool.and_eq_true, decide_eq_true_eq] at h
    omega
  simp only [Hex.number_padded_succ]
  have hzero : Hex.number (Hex.padded 0 (c.toNat / 16 / 16 / 16 / 16)) = 0 := rfl
  omega

/-- The piece of a character stands for the units of the character. -/
theorem units_writePiece (c : Char) : (writePiece c).units = Utf16.ofCode c.toNat := by
  rcases writePiece_cases c with ⟨letter, hmem, heq⟩ | ⟨hcontrol, heq⟩ | ⟨-, -, -, heq⟩
  · have hsmall := lt_of_mem_simpleEscapes hmem
    rw [heq, Piece.units, Utf16.ofCode_of_lt (by omega)]
  · rw [heq, Piece.units, number_padded_of_isControl hcontrol]
  · rw [heq, Piece.units]

/-- The piece of a character is one of the language. -/
theorem isShaped_writePiece (c : Char) : (writePiece c).IsShaped := by
  rcases writePiece_cases c with ⟨letter, hmem, heq⟩ | ⟨hcontrol, heq⟩ | ⟨hquote, hback, -, heq⟩
  · rw [heq]
    exact hmem
  · have hlength : (Hex.padded 4 c.toNat).length = 4 := Hex.length_padded 4 c.toNat
    rw [heq]
    refine ⟨⟨Nat.le_of_eq hlength.symm, Nat.le_of_eq hlength⟩,
      fun d hd => Hex.isDigit_padded hd, ?_⟩
    rw [number_padded_of_isControl hcontrol]
    exact (Utf16.isValidChar_iff.mp c.valid).1
  · rw [heq]
    exact ⟨hquote, hback⟩

/-- A written piece has no room for another digit. -/
theorem endsBefore_writePiece (c : Char) (rest : List Char) : (writePiece c).EndsBefore rest := by
  rcases writePiece_cases c with ⟨letter, -, heq⟩ | ⟨-, heq⟩ | ⟨-, -, -, heq⟩
  · rw [heq]
    trivial
  · rw [heq]
    intro hroom
    rw [Hex.length_padded] at hroom
    exact absurd hroom (by decide)
  · rw [heq]
    trivial

/-- The pieces that are written for a text can stand one after the other. -/
theorem shaped_write (cs : List Char) : Shaped (cs.map writePiece) := by
  induction cs with
  | nil => exact .nil
  | cons c cs ih => exact .cons (isShaped_writePiece c) (endsBefore_writePiece c _) ih

/-- The pieces that are written for a text denote its units. -/
theorem unitsAll_write (cs : List Char) :
    unitsAll (cs.map writePiece) = Utf16.ofChars cs := by
  simp [unitsAll, Utf16.ofChars, List.flatMap_map, units_writePiece]

/-! ## Separators -/

/-- Of the characters that end a line, two are no control characters. -/
theorem isControl_of_isLineEnd {c : Char} (h : isLineEnd c) :
    isControl c ∨ c = '\u2028' ∨ c = '\u2029' := by
  simp only [isLineEnd, Bool.or_eq_true, beq_iff_eq] at h
  rcases h with (((rfl | rfl) | rfl) | rfl) | rfl
  all_goals decide

/-- Only the separators are written as pieces that end a line. -/
theorem isOnLine_writePiece_iff {c : Char} :
    (writePiece c).isOnLine ↔ c ≠ '\u2028' ∧ c ≠ '\u2029' := by
  constructor
  · intro h
    refine ⟨?_, ?_⟩
    · rintro rfl
      exact absurd h (by decide)
    · rintro rfl
      exact absurd h (by decide)
  · rintro ⟨hline, hparagraph⟩
    rcases writePiece_cases c with ⟨letter, -, heq⟩ | ⟨-, heq⟩ | ⟨-, -, hcontrol, heq⟩
    · rw [heq, Piece.isOnLine]
    · rw [heq, Piece.isOnLine]
    · rw [heq, Piece.isOnLine, Bool.not_eq_true', ← Bool.not_eq_true]
      intro hend
      rcases isControl_of_isLineEnd hend with h | h | h
      · exact hcontrol h
      · exact hline h
      · exact hparagraph h

/-! ## Literals -/

/-- A literal at the start of a written text and anything after it is the written text. -/
theorem eq_write_of_startsWith {s : String} {rest rest' : List Char} {units : List Nat}
    (h : StartsWith ((write s).toList ++ rest) units rest') :
    IsInside (s.toList.map writePiece) ∧ units = Utf16.ofChars s.toList ∧ rest' = rest := by
  rcases h with ⟨ps, hinside, htext, rfl⟩
  have hbody : spellAll (s.toList.map writePiece) ++ '"' :: rest = spellAll ps ++ '"' :: rest' := by
    simpa [toList_write, regular] using htext
  rcases (shaped_write s.toList).unique hinside.shaped hbody with ⟨rfl, rfl⟩
  exact ⟨hinside, unitsAll_write s.toList, rfl⟩

/-- What is written for a text is a literal if the text has no separators. -/
theorem isInside_write_iff {cs : List Char} :
    IsInside (cs.map writePiece) ↔ ∀ c ∈ cs, c ≠ '\u2028' ∧ c ≠ '\u2029' := by
  constructor
  · intro h c hc
    exact isOnLine_writePiece_iff.mp (h.onLine _ (List.mem_map_of_mem hc))
  · intro h
    refine ⟨shaped_write cs, ?_⟩
    intro p hp
    rcases List.mem_map.mp hp with ⟨c, hc, rfl⟩
    exact isOnLine_writePiece_iff.mpr (h c hc)

/-- What is written for a text is one literal that denotes the text, whatever follows it,
exactly if the text has neither a line separator nor a paragraph separator; otherwise it
does not start with any literal. -/
theorem startsWith_write_iff (s : String) (rest : List Char) (units : List Nat)
    (rest' : List Char) :
    StartsWith ((write s).toList ++ rest) units rest' ↔
      (∀ c ∈ s.toList, c ≠ '\u2028' ∧ c ≠ '\u2029') ∧
        units = Utf16.ofChars s.toList ∧ rest' = rest := by
  rw [← isInside_write_iff]
  constructor
  · exact eq_write_of_startsWith
  · rintro ⟨hinside, rfl, rfl⟩
    exact ⟨_, hinside, by rw [toList_write], (unitsAll_write s.toList).symm⟩

/-- What is written for a line separator is no literal. -/
theorem write_lineSeparator_no_literal :
    ¬ ∃ units rest, StartsWith (write "\u2028").toList units rest := by
  rintro ⟨units, rest, h⟩
  rw [← List.append_nil (write "\u2028").toList] at h
  have hclean := isInside_write_iff.mp (eq_write_of_startsWith h).1
  exact (hclean '\u2028' (by decide)).1 rfl

end Literal
end SceneWiring
