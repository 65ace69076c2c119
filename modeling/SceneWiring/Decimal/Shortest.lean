/-!
# The shortest decimal that reads back

A binary fraction `mantissa * 2 ^ exponent` stands for every real number nearer
to it than to its neighbours.  Among the decimals in that interval the shortest
are the ones with the fewest digits, and of those the nearest is chosen, an even
last digit breaking a tie.  All comparisons are between natural numbers, so
nothing is rounded on the way.
-/

namespace SceneWiring
namespace Decimal

/-! ## Binary fractions -/

/-- A positive number `mantissa * 2 ^ exponent` as a floating format stores it.
`narrow` says that the gap below it is half the gap above it. -/
structure Binary where
  mantissa : Nat
  exponent : Int
  narrow : Bool

/-- The finite positive double with the given bits, its sign bit left out. -/
def Binary.ofBits (bits : Nat) : Binary :=
  let fraction : Nat := bits % Nat.pow 2 52
  let biased : Nat := bits / Nat.pow 2 52 % Nat.pow 2 11
  if biased = 0 then ⟨fraction, -1074, false⟩
  else ⟨Nat.pow 2 52 + fraction, (biased : Int) - 1075, fraction == 0 && decide (1 < biased)⟩

/-! ## Decimal candidates -/

/-- A decimal `digits * 10 ^ exponent`. -/
structure Scaled where
  digits : Nat
  exponent : Int
deriving Repr, DecidableEq

/-- The number as a fraction of naturals after its mantissa is replaced by
`quarters / 4`: neighbours' midpoints are whole numbers of quarters. -/
def Binary.fraction (b : Binary) (quarters : Nat) : Nat × Nat :=
  (quarters * Nat.pow 2 b.exponent.toNat, 4 * Nat.pow 2 (-b.exponent).toNat)

/-- `digits * 10 ^ exponent` as a fraction of naturals. -/
def Scaled.fraction (s : Scaled) : Nat × Nat :=
  (s.digits * Nat.pow 10 s.exponent.toNat, Nat.pow 10 (-s.exponent).toNat)

/-- Comparison of two fractions of naturals with positive denominators. -/
def fractionLE (a b : Nat × Nat) : Bool :=
  a.1 * b.2 ≤ b.1 * a.2

/-- The candidate reads back as the binary number: it lies between the
midpoints to the neighbours, which belong to an even mantissa. -/
def Binary.accepts (b : Binary) (s : Scaled) : Bool :=
  let low := b.fraction (4 * b.mantissa - if b.narrow then 1 else 2)
  let high := b.fraction (4 * b.mantissa + 2)
  if b.mantissa % 2 = 0 then fractionLE low s.fraction && fractionLE s.fraction high
  else !fractionLE s.fraction low && !fractionLE high s.fraction

/-- The power of ten of the leading digit of a positive fraction. -/
def leadingPower (num den : Nat) : Int :=
  if den ≤ num then ((Nat.toDigits 10 (num / den)).length : Int) - 1
  else
    match (List.range 400).find? fun k => den ≤ num * Nat.pow 10 (k + 1) with
    | some k => -(k + 1 : Int)
    | none => -400

/-- The nearer of the two grid points `below` and `below + 1` around a value
given as `num / den` grid units; the even one when both are as near. -/
def nearer (num den below : Nat) : Nat :=
  let twice := 2 * (num - below * den)
  if twice < den then below
  else if den < twice then below + 1
  else if below % 2 = 0 then below else below + 1

/-- The best candidate on the grid of multiples of `10 ^ exponent`. -/
def Binary.onGrid (b : Binary) (exponent : Int) : Option Scaled :=
  let (num, den) := b.fraction (4 * b.mantissa)
  let unitNum := Nat.pow 10 exponent.toNat
  let unitDen := Nat.pow 10 (-exponent).toNat
  let scaledNum := num * unitDen
  let scaledDen := den * unitNum
  let below := scaledNum / scaledDen
  let lower : Scaled := ⟨below, exponent⟩
  let upper : Scaled := ⟨below + 1, exponent⟩
  match below != 0 && b.accepts lower, b.accepts upper with
  | true, true => some ⟨nearer scaledNum scaledDen below, exponent⟩
  | true, false => some lower
  | false, true => some upper
  | false, false => none

/-- The shortest decimal that reads back as `b`; seventeen digits always do. -/
def Binary.shortest (b : Binary) : Scaled :=
  let (num, den) := b.fraction (4 * b.mantissa)
  let lead := leadingPower num den
  let grids := (List.range 17).map fun (k : Nat) => lead - Int.ofNat k
  (grids.findSome? b.onGrid).getD ⟨0, 0⟩

/-- The decimal with its trailing zeros moved into the exponent. -/
def Scaled.normalized (s : Scaled) : Scaled :=
  let digits := Nat.toDigits 10 s.digits
  let kept := (digits.reverse.dropWhile (· == '0')).reverse
  let dropped := digits.length - kept.length
  ⟨s.digits / Nat.pow 10 dropped, s.exponent + (dropped : Int)⟩

end Decimal
end SceneWiring
