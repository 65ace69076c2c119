/-!
# Hexadecimal digits

One table of digits serves the readers of escapes and the writers of escapes.
Digits are written in lower case and read in either case.

Main results:

- Theorem `value?_digit`: a written digit reads back as its value.
- Theorem `length_padded`: a padded number has exactly the width asked for.
- Theorems `isDigit_padded` and `number_padded_succ`: it is made of digits, and its last
  one counts once and those before it sixteen times.
-/

namespace SceneWiring
namespace Text
namespace Hex

/-- The value of a digit, in either case. -/
def value? (c : Char) : Option Nat :=
  if '0' ≤ c ∧ c ≤ '9' then some (c.toNat - '0'.toNat)
  else if 'a' ≤ c ∧ c ≤ 'f' then some (c.toNat - 'a'.toNat + 10)
  else if 'A' ≤ c ∧ c ≤ 'F' then some (c.toNat - 'A'.toNat + 10)
  else none

/-- A character that is a digit. -/
def isDigit (c : Char) : Bool :=
  (value? c).isSome

/-- The number that a run of digits denotes; other characters count nothing. -/
def number (cs : List Char) : Nat :=
  cs.foldl (fun n c => 16 * n + (value? c).getD 0) 0

/-- The lower-case digit of a value below sixteen. -/
def digit (n : Nat) : Char :=
  Nat.digitChar (n % 16)

/-- A written digit reads back as its value. -/
theorem value?_digit (n : Nat) : value? (digit n) = some (n % 16) := by
  have every : ∀ k, k < 16 → value? (Nat.digitChar k) = some k := by decide
  exact every (n % 16) (Nat.mod_lt n (by decide))

/-- The last `width` digits of a number, with leading zeros. -/
def padded : Nat → Nat → List Char
  | 0, _ => []
  | width + 1, n => padded width (n / 16) ++ [digit n]

/-- A padded number has exactly the width asked for. -/
theorem length_padded (width n : Nat) : (padded width n).length = width := by
  induction width generalizing n with
  | zero => rfl
  | succ width ih => simp [padded, ih]

/-- A padded number is made of digits. -/
theorem isDigit_padded {width n : Nat} {c : Char} (h : c ∈ padded width n) : isDigit c := by
  induction width generalizing n with
  | zero => simp [padded] at h
  | succ width ih =>
      rw [padded, List.mem_append, List.mem_singleton] at h
      rcases h with h | rfl
      · exact ih h
      · simp [isDigit, value?_digit]

/-- The last digit of a padded number counts once and those before it sixteen times. -/
theorem number_padded_succ (width n : Nat) :
    number (padded (width + 1) n) = 16 * number (padded width (n / 16)) + n % 16 := by
  simp [padded, number, value?_digit]

/-- The digits of a number without leading zeros. -/
def digits (n : Nat) : List Char :=
  Nat.toDigits 16 n

end Hex
end Text
end SceneWiring
