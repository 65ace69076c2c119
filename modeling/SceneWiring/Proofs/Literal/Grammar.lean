import SceneWiring.Literal
import SceneWiring.Proofs.Text.Utf16

/-!
# The grammar of string literals

What stands between the quotes of a regular literal is a list of pieces: characters that
stand for themselves and escapes, with or without digits.  An escape with digits takes as
many as it can.  A literal denotes the code units of its pieces, and it is on one line.

A text can be taken apart in one way only, so the grammar says where a literal ends and
what it denotes.  A verbatim literal has no escapes, but quotes are written twice.

Main results:

- Definition `StartsWith`: the regular literal at the start of a text.
- Theorem `Shaped.unique`: a text has one first literal, and its pieces are determined.
- Definition `verbatim`: the verbatim literal of a text.
-/

namespace SceneWiring
namespace Literal

open Text

/-! ## Pieces -/

/-- Whether a character ends a line of a program. -/
def isLineEnd (c : Char) : Bool :=
  c == '\r' || c == '\n' || c == '\x85' || c == '\u2028' || c == '\u2029'

/-- The letters of the escapes without digits, each with the unit that it stands for. -/
def simpleEscapes : List (Char × Nat) :=
  [('\'', 0x27), ('"', 0x22), ('\\', 0x5C), ('0', 0x00), ('a', 0x07), ('b', 0x08),
   ('f', 0x0C), ('n', 0x0A), ('r', 0x0D), ('t', 0x09), ('v', 0x0B)]

/-- The units of the escapes without digits are small. -/
theorem lt_of_mem_simpleEscapes {letter : Char} {unit : Nat}
    (h : (letter, unit) ∈ simpleEscapes) : unit < 0x80 := by
  have htable : ∀ e ∈ simpleEscapes, e.2 < 0x80 := by decide
  exact htable _ h

/-- The escapes with digits. -/
inductive NumericKind
  | short
  | long
  | open
deriving DecidableEq, Repr

namespace NumericKind

/-- The letter of an escape. -/
def letter : NumericKind → Char
  | .short => 'u'
  | .long => 'U'
  | .open => 'x'

/-- The least number of digits. -/
def fewest : NumericKind → Nat
  | .short => 4
  | .long => 8
  | .open => 1

/-- The greatest number of digits. -/
def most : NumericKind → Nat
  | .short => 4
  | .long => 8
  | .open => 4

/-- The escape with a letter. -/
def ofLetter? : Char → Option NumericKind
  | 'u' => some .short
  | 'U' => some .long
  | 'x' => some .open
  | _ => none

@[simp]
theorem ofLetter?_letter (k : NumericKind) : ofLetter? k.letter = some k := by
  cases k <;> rfl

end NumericKind

/-- A piece of what stands between the quotes of a regular literal. -/
inductive Piece
  /-- A character that stands for itself. -/
  | plain (c : Char)
  /-- An escape without digits, which stands for a unit. -/
  | simple (letter : Char) (unit : Nat)
  /-- An escape with digits, which stands for the code point that they make up. -/
  | numeric (kind : NumericKind) (digits : List Char)
deriving DecidableEq, Repr

namespace Piece

/-- A piece as it is written. -/
def spell : Piece → List Char
  | .plain c => [c]
  | .simple letter _ => ['\\', letter]
  | .numeric kind digits => '\\' :: kind.letter :: digits

/-- The units that a piece stands for. -/
def units : Piece → List Nat
  | .plain c => Utf16.ofCode c.toNat
  | .simple _ unit => [unit]
  | .numeric _ digits => Utf16.ofCode (Hex.number digits)

/-- Whether a piece is a character or an escape of the language. -/
def IsShaped : Piece → Prop
  | .plain c => c ≠ '"' ∧ c ≠ '\\'
  | .simple letter unit => (letter, unit) ∈ simpleEscapes
  | .numeric kind digits =>
    (kind.fewest ≤ digits.length ∧ digits.length ≤ kind.most) ∧
      (∀ d ∈ digits, Hex.isDigit d) ∧ Hex.number digits ≤ 0x10FFFF

/-- Whether a piece ends where the given text begins: an escape goes on as long as it
can take another digit. -/
def EndsBefore (rest : List Char) : Piece → Prop
  | .plain _ => True
  | .simple _ _ => True
  | .numeric kind digits =>
    digits.length < kind.most → ∀ c ∈ rest.head?, Hex.isDigit c = false

instance : (p : Piece) → Decidable p.IsShaped
  | .plain c => inferInstanceAs (Decidable (c ≠ '"' ∧ c ≠ '\\'))
  | .simple letter unit => inferInstanceAs (Decidable ((letter, unit) ∈ simpleEscapes))
  | .numeric kind digits =>
    letI := List.decidableBAll (fun d => Hex.isDigit d = true) digits
    inferInstanceAs (Decidable ((kind.fewest ≤ digits.length ∧ digits.length ≤ kind.most) ∧
      (∀ d ∈ digits, Hex.isDigit d) ∧ Hex.number digits ≤ 0x10FFFF))

instance (rest : List Char) : (p : Piece) → Decidable (p.EndsBefore rest)
  | .plain _ => .isTrue trivial
  | .simple _ _ => .isTrue trivial
  | .numeric kind digits =>
    letI := rest.head?.decidableForallMem (p := fun c => Hex.isDigit c = false)
    inferInstanceAs (Decidable (digits.length < kind.most →
      ∀ c ∈ rest.head?, Hex.isDigit c = false))

/-- Whether a piece is on one line. -/
def isOnLine : Piece → Bool
  | .plain c => !isLineEnd c
  | .simple _ _ => true
  | .numeric _ _ => true

end Piece

/-- Pieces as they are written. -/
def spellAll (ps : List Piece) : List Char :=
  ps.flatMap Piece.spell

/-- The units that pieces stand for. -/
def unitsAll (ps : List Piece) : List Nat :=
  ps.flatMap Piece.units

@[simp]
theorem spellAll_cons (p : Piece) (ps : List Piece) : spellAll (p :: ps) = p.spell ++ spellAll ps :=
  rfl

@[simp]
theorem unitsAll_cons (p : Piece) (ps : List Piece) : unitsAll (p :: ps) = p.units ++ unitsAll ps :=
  rfl

/-- Pieces that can stand one after the other. -/
inductive Shaped : List Piece → Prop
  | nil : Shaped []
  | cons {p : Piece} {ps : List Piece} (piece : p.IsShaped) (ends : p.EndsBefore (spellAll ps))
      (rest : Shaped ps) : Shaped (p :: ps)

/-- Pieces that can stand between the quotes of a regular literal. -/
structure IsInside (ps : List Piece) : Prop where
  shaped : Shaped ps
  onLine : ∀ p ∈ ps, p.isOnLine

/-- The regular literal with the given pieces. -/
def regular (ps : List Piece) : List Char :=
  '"' :: spellAll ps ++ ['"']

/-- Whether a text starts with a regular literal that denotes the given units, and what
comes after it. -/
def StartsWith (text : List Char) (units : List Nat) (rest : List Char) : Prop :=
  ∃ ps, IsInside ps ∧ text = regular ps ++ rest ∧ units = unitsAll ps

/-! ## Reading pieces off a text -/

/-- A run of digits is as long as it can be if it has no room for another one or none
follows. -/
theorem takeWhile_isDigit_append {most : Nat} {digits rest : List Char}
    (hdigits : ∀ d ∈ digits, Hex.isDigit d) (hlength : digits.length ≤ most)
    (hend : digits.length < most → ∀ c ∈ rest.head?, Hex.isDigit c = false) :
    ((digits ++ rest).take most).takeWhile Hex.isDigit = digits := by
  have hrest : (rest.take (most - digits.length)).takeWhile Hex.isDigit = [] := by
    rcases Nat.eq_zero_or_pos (most - digits.length) with hfull | hroom
    · simp [hfull]
    · have hnone := hend (by omega)
      cases rest with
      | nil => simp
      | cons c rest =>
          obtain ⟨k, hk⟩ : ∃ k, most - digits.length = k + 1 :=
            ⟨_, (Nat.succ_pred_eq_of_pos hroom).symm⟩
          have hc : Hex.isDigit c = false := hnone c rfl
          simp [hk, hc]
  rw [List.take_append, List.take_of_length_le hlength, List.takeWhile_append_of_pos hdigits, hrest,
    List.append_nil]

/-- The first piece of a text that does not start with a quote, and what follows it. -/
def firstPiece? : List Char → Option (Piece × List Char)
  | [] => none
  | '"' :: _ => none
  | '\\' :: letter :: rest =>
    match NumericKind.ofLetter? letter with
    | some kind =>
      let digits := (rest.take kind.most).takeWhile Hex.isDigit
      some (.numeric kind digits, rest.drop digits.length)
    | none => (simpleEscapes.lookup letter).map fun unit => (.simple letter unit, rest)
  | c :: rest => some (.plain c, rest)

/-- A piece that ends before the rest of a text is its first piece. -/
theorem firstPiece?_spell {p : Piece} {rest : List Char} (h : p.IsShaped)
    (hends : p.EndsBefore rest) : firstPiece? (p.spell ++ rest) = some (p, rest) := by
  cases p with
  | plain c =>
      rw [Piece.spell, List.singleton_append]
      unfold firstPiece?
      split
      · simp_all
      · simp_all [Piece.IsShaped]
      · simp_all [Piece.IsShaped]
      · simp_all
  | simple letter unit =>
      have htable : ∀ e ∈ simpleEscapes, NumericKind.ofLetter? e.1 = none ∧
          simpleEscapes.lookup e.1 = some e.2 := by decide
      have hentry := htable (letter, unit) h
      simp [Piece.spell, firstPiece?, hentry.1, hentry.2]
  | numeric kind digits =>
      have hdigits := takeWhile_isDigit_append h.2.1 h.1.2 hends
      simp [Piece.spell, firstPiece?, hdigits]

/-- A piece that ends before other pieces ends before a quote too. -/
theorem Piece.EndsBefore.append_quote {p : Piece} {cs : List Char} (h : p.EndsBefore cs)
    (rest : List Char) : p.EndsBefore (cs ++ '"' :: rest) := by
  cases p with
  | plain c => trivial
  | simple letter unit => trivial
  | numeric kind digits =>
      intro hroom c hc
      cases cs with
      | nil =>
          obtain rfl : '"' = c := by simpa using hc
          decide
      | cons d cs => exact h hroom c hc

/-- Where a quote ends some pieces, the text determines them and what comes after the
quote. -/
theorem Shaped.unique {ps qs : List Piece} (hp : Shaped ps) (hq : Shaped qs)
    {rest rest' : List Char} (h : spellAll ps ++ '"' :: rest = spellAll qs ++ '"' :: rest') :
    ps = qs ∧ rest = rest' := by
  induction hp generalizing qs with
  | nil =>
      cases hq with
      | nil => exact ⟨rfl, List.tail_eq_of_cons_eq h⟩
      | @cons q qs piece ends _ =>
          have hfirst := firstPiece?_spell piece (ends.append_quote rest')
          rw [← List.append_assoc, ← spellAll_cons, ← h] at hfirst
          exact absurd hfirst (by simp [spellAll, firstPiece?])
  | @cons p ps piece ends _ ih =>
      have hfirst := firstPiece?_spell piece (ends.append_quote rest)
      rw [← List.append_assoc, ← spellAll_cons, h] at hfirst
      cases hq with
      | nil => exact absurd hfirst (by simp [spellAll, firstPiece?])
      | @cons q qs piece' ends' hqs =>
          have hfirst' := firstPiece?_spell piece' (ends'.append_quote rest')
          rw [← List.append_assoc, ← spellAll_cons, hfirst, Option.some.injEq,
            Prod.mk.injEq] at hfirst'
          rcases hfirst' with ⟨rfl, htail⟩
          rcases ih hqs htail with ⟨rfl, rfl⟩
          exact ⟨rfl, rfl⟩

/-! ## Verbatim literals -/

/-- A text with every quote written twice. -/
def doubleQuotes (cs : List Char) : List Char :=
  cs.flatMap fun c => if c = '"' then ['"', '"'] else [c]

/-- The verbatim literal of a text. -/
def verbatim (cs : List Char) : List Char :=
  '@' :: '"' :: doubleQuotes cs ++ ['"']

end Literal
end SceneWiring
