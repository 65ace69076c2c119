import SceneWiring.Proofs.Literal.Grammar

/-!
# Read literals

A literal is read piece by piece.  The two halves of a pair are pieces of their own if they
are written as escapes, and since neither is a character both are left as they are written.
So a regular literal is read as the text that it denotes exactly if none of its pieces is
such a half; a verbatim literal always is.

Main results:

- Definition `Piece.reads`: what a piece is read as.
- Theorem `readChars_regular`: a regular literal is read piece by piece.
- Theorem `readChars_verbatim`: a verbatim literal is read as its text.
- Theorem `read_literal`: when a literal is read as the text that it denotes.
-/

namespace SceneWiring
namespace Literal

open Text

/-! ## One piece -/

namespace Piece

/-- Whether a piece is an escape for one half of a pair. -/
def isHalf : Piece → Bool
  | .plain _ => false
  | .simple _ _ => false
  | .numeric _ digits => Utf16.isSurrogate (Hex.number digits)

/-- The code point that a piece stands for. -/
def code : Piece → Nat
  | .plain c => c.toNat
  | .simple _ unit => unit
  | .numeric _ digits => Hex.number digits

/-- What a piece is read as: its character or, for one half of a pair, the piece as it is
written. -/
def reads (p : Piece) : List Char :=
  if p.isHalf then p.spell else [Char.ofNat p.code]

end Piece

/-- Characters that belong to an escape are passed over. -/
theorem denotedAfter_append (cs rest : List Char) :
    denotedAfter cs.length (cs ++ rest) = denotedAfter 0 rest := by
  induction cs with
  | nil => rfl
  | cons c cs ih => simpa [denotedAfter] using ih

/-- A character that starts no escape stands for itself. -/
theorem denotedAfter_cons {c : Char} (h : c ≠ '\\') (rest : List Char) :
    denotedAfter 0 (c :: rest) = c :: denotedAfter 0 rest := by
  rw [denotedAfter.eq_def]
  split
  all_goals simp_all

theorem simpleEscape?_letter (k : NumericKind) : simpleEscape? k.letter = none := by
  cases k <;> rfl

theorem digitBounds?_letter (k : NumericKind) :
    digitBounds? k.letter = some (k.fewest, k.most) := by
  cases k <;> rfl

/-- An escape with digits is read as its character unless that is one half of a pair. -/
theorem numericEscape_eq {kind : NumericKind} {digits : List Char}
    (h : (Piece.numeric kind digits).IsShaped) :
    numericEscape kind.letter kind.fewest digits = (Piece.numeric kind digits).reads := by
  have hscalar : scalar? (Hex.number digits) =
      if Utf16.isSurrogate (Hex.number digits) then none
      else some (Char.ofNat (Hex.number digits)) := by
    rw [scalar?]
    simp only [Utf16.isValidChar_iff]
    cases Utf16.isSurrogate (Hex.number digits) <;> simp [h.2.2]
  rw [numericEscape, if_pos h.1.1, hscalar, Piece.reads, Piece.isHalf]
  cases Utf16.isSurrogate (Hex.number digits) with
  | false => rfl
  | true => rfl

/-- A piece that ends before the rest of a text is read first, and then the rest. -/
theorem denotedAfter_spell {p : Piece} {rest : List Char} (h : p.IsShaped)
    (hends : p.EndsBefore rest) :
    denotedAfter 0 (p.spell ++ rest) = p.reads ++ denotedAfter 0 rest := by
  cases p with
  | plain c =>
      rw [Piece.spell, List.singleton_append, denotedAfter_cons h.2]
      simp [Piece.reads, Piece.isHalf, Piece.code]
  | simple letter unit =>
      have htable : ∀ e ∈ simpleEscapes, simpleEscape? e.1 = some (Char.ofNat e.2) := by decide
      have hletter : simpleEscape? letter = some (Char.ofNat unit) := htable _ h
      simp [Piece.spell, denotedAfter, hletter, Piece.reads, Piece.isHalf, Piece.code]
  | numeric kind digits =>
      have hdigits := takeWhile_isDigit_append h.2.1 h.1.2 hends
      simp only [Piece.spell, List.cons_append, denotedAfter, simpleEscape?_letter,
        digitBounds?_letter, hdigits, numericEscape_eq h, denotedAfter_append]

/-! ## Whole literals -/

/-- The inside of a regular literal is read piece by piece. -/
theorem denoted_spellAll {ps : List Piece} (h : Shaped ps) :
    denoted (spellAll ps) = ps.flatMap Piece.reads := by
  rw [denoted]
  induction h with
  | nil => rfl
  | cons piece ends _ ih => rw [spellAll_cons, denotedAfter_spell piece ends, ih, List.flatMap_cons]

@[simp]
theorem dropClosing?_concat (cs : List Char) : dropClosing? (cs ++ ['"']) = some cs := by
  simp [dropClosing?]

section

variable {before after : List Char}

/-- A regular literal with blanks around it is read piece by piece. -/
theorem readChars_regular (hbefore : ∀ c ∈ before, isBlank c) (hafter : ∀ c ∈ after, isBlank c)
    {ps : List Piece} (h : Shaped ps) :
    readChars (before ++ regular ps ++ after) = ps.flatMap Piece.reads := by
  have hquote : isBlank '"' = false := by decide
  have htrim : trimmed (before ++ regular ps ++ after) = '"' :: (spellAll ps ++ ['"']) :=
    trimmed_append hbefore hafter hquote hquote (spellAll ps)
  rw [readChars, htrim]
  simp [verbatim?, regular?, denoted_spellAll h]

theorem halveQuotes_cons {c : Char} (h : c ≠ '"') (rest : List Char) :
    halveQuotes (c :: rest) = c :: halveQuotes rest := by
  rw [halveQuotes.eq_def]
  split
  all_goals simp_all

/-- Halving quotes undoes doubling them. -/
theorem halveQuotes_doubleQuotes (cs : List Char) : halveQuotes (doubleQuotes cs) = cs := by
  induction cs with
  | nil => rfl
  | cons c cs ih =>
      rw [doubleQuotes, List.flatMap_cons, ← doubleQuotes]
      by_cases hquote : c = '"'
      · subst hquote
        simp [halveQuotes, ih]
      · rw [if_neg hquote, List.singleton_append, halveQuotes_cons hquote, ih]

/-- A verbatim literal with blanks around it is read as its text. -/
theorem readChars_verbatim (hbefore : ∀ c ∈ before, isBlank c)
    (hafter : ∀ c ∈ after, isBlank c) (cs : List Char) :
    readChars (before ++ verbatim cs ++ after) = cs := by
  have hat : isBlank '@' = false := by decide
  have hquote : isBlank '"' = false := by decide
  have htrim : trimmed (before ++ verbatim cs ++ after) =
      '@' :: '"' :: (doubleQuotes cs ++ ['"']) :=
    trimmed_append hbefore hafter hat hquote ('"' :: doubleQuotes cs)
  rw [readChars, htrim]
  simp [verbatim?, halveQuotes_doubleQuotes]

end

/-! ## Denoted texts -/

/-- A text has at least as many units as characters. -/
theorem length_le_length_ofChars (cs : List Char) : cs.length ≤ (Utf16.ofChars cs).length := by
  induction cs with
  | nil => exact Nat.le_refl _
  | cons c cs ih =>
      have hpos : 0 < (Utf16.ofCode c.toNat).length :=
        List.length_pos_iff.mpr (Utf16.ofCode_ne_nil _)
      rw [Utf16.ofChars_cons, List.length_append, List.length_cons]
      omega

/-- The units of the code point of a piece are those that it stands for. -/
theorem units_eq_ofCode {p : Piece} (h : p.IsShaped) : p.units = Utf16.ofCode p.code := by
  cases p with
  | plain c => rfl
  | numeric kind digits => rfl
  | simple letter unit =>
      have hsmall := lt_of_mem_simpleEscapes h
      exact (Utf16.ofCode_of_lt (by omega)).symm

/-- The code point of a piece is in range. -/
theorem code_le {p : Piece} (h : p.IsShaped) : p.code ≤ 0x10FFFF := by
  cases p with
  | plain c => exact (Utf16.isValidChar_iff.mp c.valid).1
  | simple letter unit =>
      have hsmall := lt_of_mem_simpleEscapes h
      rw [Piece.code]
      omega
  | numeric kind digits => exact h.2.2

/-- A piece is one half of a pair exactly if its code point is. -/
theorem isHalf_eq {p : Piece} (h : p.IsShaped) : p.isHalf = Utf16.isSurrogate p.code := by
  cases p with
  | plain c => exact (Utf16.isValidChar_iff.mp c.valid).2.symm
  | numeric kind digits => rfl
  | simple letter unit =>
      have hsmall := lt_of_mem_simpleEscapes h
      have hlow : ¬ 0xD800 ≤ unit := by omega
      simp [Piece.isHalf, Piece.code, Utf16.isSurrogate, hlow]

/-- A piece that is no half is read as what it stands for. -/
theorem ofChars_reads {p : Piece} (h : p.IsShaped) (hhalf : p.isHalf = false) :
    Utf16.ofChars p.reads = p.units := by
  have hvalid : p.code.isValidChar := by
    rw [Utf16.isValidChar_iff, ← isHalf_eq h]
    exact ⟨code_le h, hhalf⟩
  have hcode : (Char.ofNat p.code).toNat = p.code := by
    rw [Char.ofNat, dif_pos hvalid]
    rfl
  simp [Piece.reads, hhalf, hcode, units_eq_ofCode h]

/-- One half of a pair is read as more units than it stands for. -/
theorem length_units_lt {p : Piece} (h : p.IsShaped) (hhalf : p.isHalf) :
    p.units.length < (Utf16.ofChars p.reads).length := by
  have hunits : p.units.length = 1 := by
    rw [isHalf_eq h] at hhalf
    simp only [Utf16.isSurrogate, Bool.and_eq_true, decide_eq_true_eq] at hhalf
    rw [units_eq_ofCode h, Utf16.ofCode_of_lt (by omega), List.length_singleton]
  have hspell : 2 ≤ p.spell.length := by
    cases p with
    | plain c => simp [Piece.isHalf] at hhalf
    | simple letter unit => simp [Piece.spell]
    | numeric kind digits => simp [Piece.spell]
  have hreads := length_le_length_ofChars p.reads
  rw [Piece.reads, if_pos hhalf] at hreads ⊢
  omega

/-- Pieces are read as what they denote exactly if none is one half of a pair. -/
theorem ofChars_flatMap_reads_iff {ps : List Piece} (h : Shaped ps) :
    (unitsAll ps).length ≤ (Utf16.ofChars (ps.flatMap Piece.reads)).length ∧
      (Utf16.ofChars (ps.flatMap Piece.reads) = unitsAll ps ↔ ∀ p ∈ ps, p.isHalf = false) := by
  induction h with
  | nil => simp [unitsAll]
  | @cons p ps piece _ _ ih =>
      rw [List.flatMap_cons, Utf16.ofChars_append, unitsAll_cons, List.length_append,
        List.length_append, List.forall_mem_cons]
      cases hhalf : p.isHalf with
      | false =>
          rw [ofChars_reads piece hhalf, List.append_cancel_left_eq, ih.2]
          refine ⟨by omega, ?_⟩
          simp
      | true =>
          have hlt := length_units_lt piece hhalf
          refine ⟨by omega, ?_⟩
          constructor
          · intro heq
            have hlength := congrArg List.length heq
            rw [List.length_append, List.length_append] at hlength
            omega
          · simp

/-! ## Literals as they are written -/

@[simp]
theorem toList_read (s : String) : (read s).toList = readChars s.toList := by
  simp [read]

/-- A literal with blanks around it.  A regular literal is read piece by piece, and it is
read as the text that it denotes exactly if none of its pieces is one half of a pair.  A
verbatim literal is always read as its text. -/
theorem read_literal {before after : String} (hbefore : ∀ c ∈ before.toList, isBlank c)
    (hafter : ∀ c ∈ after.toList, isBlank c) :
    (∀ ps, IsInside ps →
      read (before ++ String.ofList (regular ps) ++ after) =
          String.ofList (ps.flatMap Piece.reads) ∧
        ∀ t : String, unitsAll ps = Utf16.ofChars t.toList →
          (read (before ++ String.ofList (regular ps) ++ after) = t ↔
            ∀ p ∈ ps, p.isHalf = false)) ∧
      ∀ t : String, read (before ++ String.ofList (verbatim t.toList) ++ after) = t := by
  refine ⟨?_, ?_⟩
  · intro ps hinside
    have hread : read (before ++ String.ofList (regular ps) ++ after) =
        String.ofList (ps.flatMap Piece.reads) := by
      apply String.toList_inj.mp
      simpa using readChars_regular hbefore hafter hinside.shaped
    refine ⟨hread, ?_⟩
    intro t hunits
    rw [hread, ← (ofChars_flatMap_reads_iff hinside.shaped).2, hunits, Utf16.ofChars_inj,
      ← String.toList_inj, String.toList_ofList]
  · intro t
    apply String.toList_inj.mp
    simpa using readChars_verbatim hbefore hafter t.toList

/-- The pieces of a literal with an escape of every kind. -/
def mixedPieces : List Piece :=
  [.plain 'a', .simple 'n' 0x0A, .numeric .open ['4', '1'], .plain '-',
   .numeric .long ['0', '0', '0', '1', 'F', '6', '0', '0'], .numeric .short ['0', '0', 'e', '9']]

/-- A regular literal with an escape of every kind and a verbatim literal with quotes, both
with blanks around them, are read as what they denote. -/
theorem read_mixedPieces :
    IsInside mixedPieces ∧ unitsAll mixedPieces = Utf16.ofChars "a\nA-😀é".toList ∧
      read (" " ++ String.ofList (regular mixedPieces) ++ "\t") = "a\nA-😀é" ∧
      read (" " ++ String.ofList (verbatim "say \"hi\"".toList) ++ "\t") = "say \"hi\"" := by
  have hinside : IsInside mixedPieces := by
    refine ⟨?_, by decide⟩
    refine .cons ?_ ?_ (.cons ?_ ?_ (.cons ?_ ?_ (.cons ?_ ?_ (.cons ?_ ?_ (.cons ?_ ?_ .nil)))))
    all_goals decide
  have hunits : unitsAll mixedPieces = Utf16.ofChars "a\nA-😀é".toList := by decide
  have hblank : (∀ c ∈ " ".toList, isBlank c) ∧ ∀ c ∈ "\t".toList, isBlank c := by
    simp [isBlank]
  have hread := read_literal hblank.1 hblank.2
  exact ⟨hinside, hunits, ((hread.1 _ hinside).2 _ hunits).mpr (by decide), hread.2 _⟩

/-- The pieces of a literal for one character, whose halves are written as escapes. -/
def splitPair : List Piece :=
  [.numeric .short ['D', '8', '3', 'D'], .numeric .short ['D', 'E', '0', '0']]

/-- A character whose halves are written as escapes is not read as that character. -/
theorem read_splitPair_ne :
    IsInside splitPair ∧ unitsAll splitPair = Utf16.ofChars "😀".toList ∧
      read (String.ofList (regular splitPair)) ≠ "😀" := by
  refine ⟨⟨.cons (by decide) (by decide) (.cons (by decide) (by decide) .nil), by decide⟩,
    by decide, ?_⟩
  intro hread
  have hchars := congrArg String.toList hread
  rw [toList_read, String.toList_ofList] at hchars
  exact absurd hchars (by decide)

end Literal
end SceneWiring
