import SceneWiring.Decimal.Written
import SceneWiring.Text.Quoted

/-!
# What can be wrong with an input document

A document is refused for one of three causes.  It is malformed: some character
cannot stand where it stands.  It is truncated: the text ends too early.  Or it
is well-formed JSON that does not describe the record that was asked for.

Main results:

- Definition `Problem.category`: the cause in one word.
- Definition `Problem.message`: the full sentence for the host.
-/

namespace SceneWiring
namespace Json

/-! ## Causes -/

/-- A character that cannot stand where it stands. -/
inductive Malformed
  /-- No value starts with this character. -/
  | value
  /-- A wrong letter inside `true`, `false` or `null`. -/
  | word
  /-- A digit is missing, or a leading zero is followed by a digit. -/
  | number
  /-- A number too large for a double. -/
  | range
  | key
  | trailingComma
  | colon
  | recordSeparator
  | listSeparator
  /-- An unescaped control character inside a string. -/
  | control
  | escape
  /-- Surrogate escapes that form no pair. -/
  | surrogate
  /-- A leading surrogate that no second escape follows. -/
  | surrogateEnd
  /-- More nested containers than are read. -/
  | depth
  /-- Text after the end of the document. -/
  | trailing
deriving DecidableEq, Repr

/-- What was being read when the text ended. -/
inductive Truncated
  | value
  | record
  | list
  | text
deriving DecidableEq, Repr

/-- A value as a message names it. -/
inductive Found
  | boolean (b : Bool)
  | integer (n : Int)
  /-- A floating point number, by the bits of the double. -/
  | float (bits : Nat)
  | text (s : String)
  | null
  | list
  | record
deriving DecidableEq, Repr

/-- A value that does not describe what was asked for. -/
inductive Mismatch
  | wrongType (found : Found) (expected : String)
  | wrongValue (n : Int) (expected : String)
  | missing (field : String)
  | duplicate (field : String)
  | wrongLength (length : Nat) (expected : String)
deriving DecidableEq, Repr

/-- The first thing wrong with a document. -/
inductive Problem
  | malformed (m : Malformed)
  | truncated (t : Truncated)
  | mismatch (m : Mismatch)
deriving DecidableEq, Repr

/-! ## Wording -/

/-- A name between backticks. -/
def ticked (s : String) : String :=
  "`" ++ s ++ "`"

/-- The sentence for a misplaced character. -/
def Malformed.message : Malformed → String
  | .value => "expected value"
  | .word => "expected ident"
  | .number => "invalid number"
  | .range => "number out of range"
  | .key => "key must be a string"
  | .trailingComma => "trailing comma"
  | .colon => "expected " ++ ticked ":"
  | .recordSeparator => "expected " ++ ticked "," ++ " or " ++ ticked "\x7d"
  | .listSeparator => "expected " ++ ticked "," ++ " or " ++ ticked "]"
  | .control => "control character (\\u0000-\\u001F) found while parsing a string"
  | .escape => "invalid escape"
  | .surrogate => "lone leading surrogate in hex escape"
  | .surrogateEnd => "unexpected end of hex escape"
  | .depth => "recursion limit exceeded"
  | .trailing => "trailing characters"

/-- The sentence for a text that ends too early. -/
def Truncated.message : Truncated → String
  | .value => "EOF while parsing a value"
  | .record => "EOF while parsing an object"
  | .list => "EOF while parsing a list"
  | .text => "EOF while parsing a string"

/-- A found value in words. -/
def Found.describe : Found → String
  | .boolean b => "boolean " ++ ticked (if b then "true" else "false")
  | .integer n => "integer " ++ ticked (toString n)
  | .float bits => "floating point " ++ ticked (Decimal.messageStyle.text bits)
  | .text s => "string " ++ Text.quoted s
  | .null => "null"
  | .list => "sequence"
  | .record => "map"

/-- The sentence for a value that does not fit. -/
def Mismatch.message : Mismatch → String
  | .wrongType found expected => "invalid type: " ++ found.describe ++ ", expected " ++ expected
  | .wrongValue n expected =>
    "invalid value: " ++ (Found.integer n).describe ++ ", expected " ++ expected
  | .missing field => "missing field " ++ ticked field
  | .duplicate field => "duplicate field " ++ ticked field
  | .wrongLength length expected =>
    "invalid length " ++ toString length ++ ", expected " ++ expected

/-- The cause in one word. -/
def Problem.category : Problem → String
  | .malformed _ => "syntax"
  | .truncated _ => "eof"
  | .mismatch _ => "data"

/-- The full sentence. -/
def Problem.message : Problem → String
  | .malformed m => m.message
  | .truncated t => t.message
  | .mismatch m => m.message

end Json
end SceneWiring
