import SceneWiring.Text.Blank
import SceneWiring.Text.Hex

/-!
# String literals of C#

The host passes attribute arguments as they are written, so a string argument comes
as a literal, regular or verbatim, and has to be read.  In the other direction every
text that goes into generated code is written as a regular literal.

A numeric escape is read on its own.  Escapes that stand for no character are left as
they are written.

Main results:

- Definition `Literal.write`: the regular literal of a text.
- Definition `Literal.read`: the text of an argument.
-/

namespace SceneWiring
namespace Literal

/-! ## Writing -/

/-- Whether a character is a control character, below the space or from delete on. -/
def isControl (c : Char) : Bool :=
  c.toNat < 0x20 || (0x7F ≤ c.toNat && c.toNat ≤ 0x9F)

/-- One character inside a regular literal. -/
def writeChar (c : Char) : List Char :=
  match c with
  | '\\' => ['\\', '\\']
  | '"' => ['\\', '"']
  | '\n' => ['\\', 'n']
  | '\r' => ['\\', 'r']
  | '\t' => ['\\', 't']
  | c => if isControl c then '\\' :: 'u' :: Text.Hex.padded 4 c.toNat else [c]

/-- The characters of the regular literal of a text. -/
def writeChars (cs : List Char) : List Char :=
  '"' :: cs.flatMap writeChar ++ ['"']

/-- The regular literal of a text. -/
def write (s : String) : String :=
  String.ofList (writeChars s.toList)

/-! ## Reading regular literals -/

/-- The character of an escape without digits. -/
def simpleEscape? : Char → Option Char
  | '\'' => some '\''
  | '"' => some '"'
  | '\\' => some '\\'
  | '0' => some '\x00'
  | 'a' => some '\x07'
  | 'b' => some '\x08'
  | 'f' => some '\x0c'
  | 'n' => some '\n'
  | 'r' => some '\r'
  | 't' => some '\t'
  | 'v' => some '\x0b'
  | _ => none

/-- The fewest and the most digits of an escape with digits. -/
def digitBounds? : Char → Option (Nat × Nat)
  | 'u' => some (4, 4)
  | 'U' => some (8, 8)
  | 'x' => some (1, 4)
  | _ => none

/-- The character of a code point, if it is one. -/
def scalar? (n : Nat) : Option Char :=
  if n.isValidChar then some (Char.ofNat n) else none

/-- What an escape with digits stands for: its character or, if there is none, the
escape itself. -/
def numericEscape (kind : Char) (fewest : Nat) (digits : List Char) : List Char :=
  match if fewest ≤ digits.length then scalar? (Text.Hex.number digits) else none with
  | some c => [c]
  | none => '\\' :: kind :: digits

/-- The text of the inside of a regular literal, after the given number of characters,
which belong to an escape before them. -/
def denotedAfter : Nat → List Char → List Char
  | skip + 1, _ :: rest => denotedAfter skip rest
  | _, [] => []
  | 0, '\\' :: kind :: rest =>
    match simpleEscape? kind with
    | some c => c :: denotedAfter 0 rest
    | none =>
      match digitBounds? kind with
      | some (fewest, most) =>
        let digits := (rest.take most).takeWhile Text.Hex.isDigit
        numericEscape kind fewest digits ++ denotedAfter digits.length rest
      | none => '\\' :: kind :: denotedAfter 0 rest
  | 0, c :: rest => c :: denotedAfter 0 rest

/-- The text of the inside of a regular literal. -/
def denoted (cs : List Char) : List Char :=
  denotedAfter 0 cs

/-! ## Reading verbatim literals -/

/-- The text of the inside of a verbatim literal, in which a quote is written twice. -/
def halveQuotes : List Char → List Char
  | '"' :: '"' :: rest => '"' :: halveQuotes rest
  | c :: rest => c :: halveQuotes rest
  | [] => []

/-! ## Reading arguments -/

/-- A list without its last element, if that is a quote. -/
def dropClosing? (cs : List Char) : Option (List Char) :=
  if cs.getLast? = some '"' then some cs.dropLast else none

/-- The inside of a verbatim literal. -/
def verbatim? : List Char → Option (List Char)
  | '@' :: '"' :: rest => dropClosing? rest
  | _ => none

/-- The inside of a regular literal. -/
def regular? : List Char → Option (List Char)
  | '"' :: rest => dropClosing? rest
  | _ => none

/-- The text of an argument: what a literal denotes, and anything else itself. -/
def readChars (cs : List Char) : List Char :=
  let cs := Text.trimmed cs
  match verbatim? cs with
  | some inside => halveQuotes inside
  | none =>
    match regular? cs with
    | some inside => denoted inside
    | none => cs

/-- The text of an argument. -/
def read (s : String) : String :=
  String.ofList (readChars s.toList)

end Literal
end SceneWiring
