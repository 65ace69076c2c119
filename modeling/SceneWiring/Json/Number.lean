/-!
# Numbers as they are written

A number keeps its digits until someone asks for its value.  Without a point or
an exponent it is an integer if it fits 64 bits, signed when it is negative;
every other number, and `-0`, is a double.

The double is not always the nearest one to the written decimal: at most 64 bits
of digits are kept, further digits before the point only count as a power of ten
and further digits behind it not at all, and the kept digits are multiplied or
divided by a power of ten in floating point.
-/

namespace SceneWiring
namespace Json

/-- The exponent of a written number. -/
structure Exponent where
  negative : Bool
  digits : List Nat

/-- A written number; digits are most significant first. -/
structure Number where
  negative : Bool
  whole : List Nat
  /-- The digits behind the point, if there is a point. -/
  decimals : Option (List Nat)
  exponent : Option Exponent

/-- What a number stands for. -/
inductive Numeric
  | integer (n : Int)
  | float (x : Float)

namespace Number

/-! ## The digits that are kept -/

/-- Largest value of a 64-bit word. -/
def maxWord : Nat :=
  Nat.pow 2 64 - 1

/-- A run of digits as 64 bits keep it: the digits taken, and how many were left. -/
def takeDigits (kept : Nat) : List Nat → Nat × Nat
  | [] => (kept, 0)
  | d :: ds =>
    if maxWord < 10 * kept + d then (kept, ds.length + 1)
    else takeDigits (10 * kept + d) ds

/-! ## Powers of ten in floating point -/

/-- The largest power of ten that a double holds. -/
def maxPower : Nat :=
  308

/-- The double nearest to `10 ^ n`, for `n` up to `maxPower`. -/
def power (n : Nat) : Float :=
  Float.ofScientific 1 false n

/-- Division by `10 ^ n`, in steps of at most the largest power. -/
def divide (x : Float) (n : Nat) : Float :=
  if n ≤ maxPower then x / power n
  else if x == 0.0 then x
  else divide (x / power maxPower) (n - maxPower)
termination_by n
decreasing_by
  simp only [maxPower] at *
  omega

/-- Kept digits times `10 ^ exponent`, or nothing if no double is large enough. -/
def scale (kept : Nat) (exponent : Int) : Option Float :=
  let x := Float.ofScientific kept false 0
  if 0 ≤ exponent then
    if exponent.toNat ≤ maxPower then
      let y := x * power exponent.toNat
      if y.isInf then none else some y
    else if x == 0.0 then some x else none
  else some (divide x (-exponent).toNat)

/-! ## The value -/

/-- Largest written exponent that is computed with. -/
def maxExponent : Nat :=
  Nat.pow 2 31 - 1

/-- The exponent after the point has been moved by `shift` places, within 32 bits. -/
def moveExponent (shift : Int) (e : Exponent) (size : Nat) : Int :=
  if e.negative then max (-(Nat.pow 2 31 : Int)) (shift - size)
  else min (maxExponent : Int) (shift + size)

/-- The magnitude of a number that is not an integer. -/
def magnitude (kept : Nat) (shift : Int) : Option Exponent → Option Float
  | none => scale kept shift
  | some e =>
    let size := e.digits.foldl (fun n d => 10 * n + d) 0
    if maxExponent < size then
      if kept ≠ 0 ∧ !e.negative then none else some 0.0
    else scale kept (moveExponent shift e size)

/-- A double with the given sign. -/
def signed (negative : Bool) (x : Float) : Float :=
  if negative then -x else x

/-- The value of a number, or nothing if it is too large for a double. -/
def value? (n : Number) : Option Numeric :=
  let (kept, left) := takeDigits 0 n.whole
  let asFloat (x : Option Float) := x.map fun y => Numeric.float (signed n.negative y)
  match n.decimals, n.exponent with
  | none, none =>
    if left = 0 then
      if !n.negative then some (.integer kept)
      else if kept ≠ 0 ∧ kept ≤ Nat.pow 2 63 then some (.integer (-(kept : Int)))
      else asFloat (some (Float.ofScientific kept false 0))
    else asFloat (scale kept left)
  | none, some e => asFloat (magnitude kept left (some e))
  | some ds, e =>
    let (keptAll, ignored) := takeDigits kept ds
    let shift := (left : Int) - ((ds.length - ignored : Nat) : Int)
    asFloat (magnitude keptAll shift e)

/-- The number that writes a natural number. -/
def ofNat (n : Nat) : Number where
  negative := false
  whole := (Nat.toDigits 10 n).map fun c => c.toNat - '0'.toNat
  decimals := none
  exponent := none

end Number
end Json
end SceneWiring
