import SceneWiring.Json.Problem
import SceneWiring.Text.Hex

/-!
# Strings as they are written

A string token keeps the characters and the numeric escapes between its quotes,
and how it stopped.  Its text is worked out only when someone asks for it, because
a skipped string may contain escapes that stand for no character.

Main results:

- Theorem `length_rest_scan_le`: scanning a string leaves no more than it was given.
- Theorem `text_ofString`: a written string denotes the text it was made from.
-/

namespace SceneWiring
namespace Json

/-! ## Tokens -/

/-- One element between the quotes. -/
inductive Piece
  | char (c : Char)
  /-- A numeric escape, one UTF-16 unit. -/
  | unit (n : Nat)
deriving DecidableEq, Repr

/-- How a string stopped. -/
inductive StringEnd
  | closed
  /-- The text ended. -/
  | ended
  /-- At an unescaped control character. -/
  | control
  /-- At a backslash before a letter that makes no escape. -/
  | letter
  /-- At a numeric escape without four digits. -/
  | digits
deriving DecidableEq, Repr

/-- A string as it is written. -/
structure StringToken where
  pieces : List Piece
  stop : StringEnd
deriving DecidableEq, Repr

/-! ## Scanning -/

/-- The character that a single-letter escape stands for. -/
def simpleEscape? : Char → Option Char
  | '"' => some '"'
  | '\\' => some '\\'
  | '/' => some '/'
  | 'b' => some '\x08'
  | 'f' => some '\x0c'
  | 'n' => some '\n'
  | 'r' => some '\r'
  | 't' => some '\t'
  | _ => none

/-- The unit that four digits denote. -/
def unit? (a b c d : Char) : Option Nat :=
  if [a, b, c, d].all Text.Hex.isDigit then some (Text.Hex.number [a, b, c, d]) else none

/-- Bytes that a text takes in UTF-8. -/
def utf8Length (cs : List Char) : Nat :=
  cs.foldr (fun c rest => c.utf8Size + rest) 0

/-- A token and what follows it; nothing follows a token that is not closed. -/
structure Scanned where
  pieces : List Piece
  stop : StringEnd
  rest : List Char

/-- A scanned token with one more piece in front. -/
def Scanned.push (p : Piece) (s : Scanned) : Scanned :=
  { s with pieces := p :: s.pieces }

/-- Scan a string whose opening quote has been read. -/
def scanString : List Char → Scanned
  | [] => ⟨[], .ended, []⟩
  | '"' :: rest => ⟨[], .closed, rest⟩
  | '\\' :: 'u' :: a :: b :: c :: d :: rest =>
    match unit? a b c d with
    | some n => (scanString rest).push (.unit n)
    | none => ⟨[], .digits, []⟩
  | '\\' :: 'u' :: short => ⟨[], if utf8Length short < 4 then .ended else .digits, []⟩
  | '\\' :: letter :: rest =>
    match simpleEscape? letter with
    | some c => (scanString rest).push (.char c)
    | none => ⟨[], .letter, []⟩
  | ['\\'] => ⟨[], .ended, []⟩
  | c :: rest =>
    if c.toNat < 0x20 then ⟨[], .control, []⟩
    else (scanString rest).push (.char c)

/-- Scanning leaves no more than it was given. -/
theorem length_rest_scan_le (cs : List Char) :
    (scanString cs).rest.length ≤ cs.length := by
  fun_induction scanString cs <;> simp [Scanned.push] at * <;> omega

/-! ## The text of a token -/

/-- What is wrong with a string that stopped in this way. -/
def StringEnd.problem? : StringEnd → Option Problem
  | .closed => none
  | .ended => some (.truncated .text)
  | .control => some (.malformed .control)
  | .letter => some (.malformed .escape)
  | .digits => some (.malformed .escape)

/-- A unit that has to be followed by a trailing one. -/
def isLeading (n : Nat) : Bool :=
  0xD800 ≤ n && n ≤ 0xDBFF

/-- A unit that has to follow a leading one. -/
def isTrailing (n : Nat) : Bool :=
  0xDC00 ≤ n && n ≤ 0xDFFF

/-- The character that a pair of units stands for. -/
def joinUnits (leading trailing : Nat) : Char :=
  Char.ofNat (0x10000 + (leading - 0xD800) * 0x400 + (trailing - 0xDC00))

/-- A leading unit at the end of what could be scanned. -/
def StringEnd.afterLeading : StringEnd → Problem
  | .ended => .truncated .text
  | .digits => .malformed .escape
  | .closed | .control | .letter => .malformed .surrogateEnd

/-- The characters that pieces stand for, or the first problem among them. -/
def textOf (stop : StringEnd) : List Piece → Except Problem (List Char)
  | [] =>
    match stop.problem? with
    | none => .ok []
    | some p => .error p
  | .char c :: rest => (c :: ·) <$> textOf stop rest
  | .unit n :: rest =>
    if isTrailing n then .error (.malformed .surrogate)
    else if isLeading n then
      match rest with
      | .unit m :: rest =>
        if isTrailing m then (joinUnits n m :: ·) <$> textOf stop rest
        else .error (.malformed .surrogate)
      | .char _ :: _ => .error (.malformed .surrogateEnd)
      | [] => .error stop.afterLeading
    else (Char.ofNat n :: ·) <$> textOf stop rest

namespace StringToken

/-- The text of a token, read with all checks. -/
def text (t : StringToken) : Except Problem String :=
  String.ofList <$> textOf t.stop t.pieces

/-- What is wrong with a token that nobody reads. -/
def skip (t : StringToken) : Except Problem Unit :=
  match t.stop.problem? with
  | none => .ok ()
  | some p => .error p

/-- The token that writes a text. -/
def ofString (s : String) : StringToken where
  pieces := s.toList.map .char
  stop := .closed

/-- Plain characters stand for themselves. -/
theorem textOf_chars (cs : List Char) : textOf .closed (cs.map .char) = .ok cs := by
  induction cs with
  | nil => rfl
  | cons c cs ih => simp [textOf, ih, Functor.map, Except.map]

/-- A written string denotes the text it was made from. -/
@[simp]
theorem text_ofString (s : String) : (ofString s).text = .ok s := by
  simp [text, ofString, textOf_chars, Functor.map, Except.map]

end StringToken
end Json
end SceneWiring
