import Mathlib.Logic.Basic

/-!
# Texts as code units

The strings of the generated program are lists of 16-bit code units.  A character below
`0x10000` is one unit and any other is a pair of surrogates, which are no characters by
themselves.

Main results:

- Definition `Utf16.ofChars`: the units of a text.
- Theorem `ofChars_inj`: the units of a text determine it.
-/

namespace SceneWiring
namespace Text
namespace Utf16

/-- The units of a code point: itself or, if it does not fit, a pair of surrogates. -/
def ofCode (n : Nat) : List Nat :=
  if n < 0x10000 then [n]
  else [0xD800 + (n - 0x10000) / 0x400, 0xDC00 + (n - 0x10000) % 0x400]

/-- The units of a text. -/
def ofChars (cs : List Char) : List Nat :=
  cs.flatMap fun c => ofCode c.toNat

/-- Whether a code point is one half of a pair. -/
def isSurrogate (n : Nat) : Bool :=
  0xD800 ≤ n && n ≤ 0xDFFF

/-- The code points of characters are those in range that are no surrogates. -/
theorem isValidChar_iff {n : Nat} :
    n.isValidChar ↔ n ≤ 0x10FFFF ∧ isSurrogate n = false := by
  simp only [Nat.isValidChar, isSurrogate, Bool.and_eq_false_iff, decide_eq_false_iff_not]
  omega

/-- A code point that fits is one unit. -/
theorem ofCode_of_lt {n : Nat} (h : n < 0x10000) : ofCode n = [n] :=
  if_pos h

/-- Every code point has a unit. -/
theorem ofCode_ne_nil (n : Nat) : ofCode n ≠ [] := by
  unfold ofCode
  split <;> simp

@[simp]
theorem ofChars_nil : ofChars [] = [] :=
  rfl

@[simp]
theorem ofChars_cons (c : Char) (cs : List Char) :
    ofChars (c :: cs) = ofCode c.toNat ++ ofChars cs :=
  rfl

/-- The units of joined texts are joined. -/
@[simp]
theorem ofChars_append (cs ds : List Char) : ofChars (cs ++ ds) = ofChars cs ++ ofChars ds := by
  simp [ofChars]

/-- The units of a character tell where it ends and which one it is. -/
theorem ofCode_append_inj {m n : Nat} (hm : m.isValidChar) (hn : n.isValidChar)
    {us vs : List Nat} (h : ofCode m ++ us = ofCode n ++ vs) : m = n ∧ us = vs := by
  rw [isValidChar_iff] at hm hn
  simp only [isSurrogate, Bool.and_eq_false_iff, decide_eq_false_iff_not] at hm hn
  unfold ofCode at h
  split at h <;> split at h
  all_goals simp only [List.cons_append, List.nil_append, List.cons.injEq] at h
  · exact h
  -- One unit is no surrogate, and both units of a pair are.
  · omega
  · omega
  · refine ⟨?_, h.2.2⟩
    omega

/-- The units of a text determine it. -/
theorem ofChars_inj {cs ds : List Char} : ofChars cs = ofChars ds ↔ cs = ds := by
  refine ⟨?_, fun h => h ▸ rfl⟩
  intro h
  induction cs generalizing ds with
  | nil =>
      cases ds with
      | nil => rfl
      | cons d ds => simp [ofCode_ne_nil] at h
  | cons c cs ih =>
      cases ds with
      | nil => simp [ofCode_ne_nil] at h
      | cons d ds =>
          rw [ofChars_cons, ofChars_cons] at h
          rcases ofCode_append_inj c.valid d.valid h with ⟨hcode, hrest⟩
          rw [Char.toNat_inj.mp hcode, ih hrest]

end Utf16
end Text
end SceneWiring
