import SceneWiring.Decimal.Shortest

/-!
# How a floating point number is written

The digits are the shortest that read back.  Numbers whose leading digit stands
between the fifth place after the point and the sixteenth before it are written
out, with at least one digit on both sides of the point; the others are written
with one digit before the point and a signed exponent without leading zeros.
-/

namespace SceneWiring
namespace Decimal

/-- What is decided about the layout of a number. -/
structure Style where
  /-- Smallest power of ten of the leading digit that is written out. -/
  lowest : Int
  /-- Largest power of ten of the leading digit that is written out. -/
  highest : Int

/-- The layout of numbers in messages. -/
def messageStyle : Style :=
  ⟨-5, 15⟩

/-- Digits written out around the point; `lead` is the power of ten of the first. -/
def positional (digits : List Char) (lead : Int) : List Char :=
  if lead < 0 then
    ['0', '.'] ++ List.replicate (-lead - 1).toNat '0' ++ digits
  else
    let whole := lead.toNat + 1
    let padded := digits ++ List.replicate (whole - digits.length) '0'
    let rest := padded.drop whole
    padded.take whole ++ ['.'] ++ (if rest.isEmpty then ['0'] else rest)

/-- Digits written with an exponent; `lead` is the power of ten of the first. -/
def scientific (digits : List Char) (lead : Int) : List Char :=
  let mantissa := match digits with
    | first :: second :: rest => first :: '.' :: second :: rest
    | short => short
  let sign := if lead < 0 then '-' else '+'
  mantissa ++ ['e', sign] ++ Nat.toDigits 10 lead.natAbs

/-- The text of a finite double, given by its bits. -/
def Style.text (style : Style) (bits : Nat) : String :=
  let sign := if bits / Nat.pow 2 63 % 2 = 1 then ['-'] else []
  let magnitude := bits % Nat.pow 2 63
  if magnitude = 0 then String.ofList (sign ++ ['0', '.', '0'])
  else
    let s := (Binary.ofBits magnitude).shortest.normalized
    let digits := Nat.toDigits 10 s.digits
    let lead := s.exponent + (digits.length : Int) - 1
    let body :=
      if style.lowest ≤ lead ∧ lead ≤ style.highest then positional digits lead
      else scientific digits lead
    String.ofList (sign ++ body)

end Decimal
end SceneWiring
