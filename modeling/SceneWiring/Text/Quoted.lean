import SceneWiring.Text.Hex
import SceneWiring.Text.Visible

/-!
# Text shown in quotes

A message that shows a text puts it between double quotes.  The quote, the
backslash, and the tab, newline, return and null characters are written with a
backslash; every other hidden character is written by its number in braces.
-/

namespace SceneWiring
namespace Text

/-- One character inside quotes. -/
def quotedChar (c : Char) : List Char :=
  match c with
  | '\x00' => ['\\', '0']
  | '\t' => ['\\', 't']
  | '\r' => ['\\', 'r']
  | '\n' => ['\\', 'n']
  | '"' => ['\\', '"']
  | '\\' => ['\\', '\\']
  | c => if isVisible c then [c] else ['\\', 'u', '\x7b'] ++ Hex.digits c.toNat ++ ['\x7d']

/-- The text between double quotes. -/
def quoted (s : String) : String :=
  String.ofList ('"' :: s.toList.flatMap quotedChar ++ ['"'])

end Text
end SceneWiring
