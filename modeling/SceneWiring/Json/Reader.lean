import SceneWiring.Json.Doc

/-!
# From text to document

The reader turns any text into a document; what breaks the structure is recorded
in the tree and ends it.  Every reading function returns what follows the part it
read together with a proof that nothing was added, which is what ends the
recursion.  Space between values is the space, the tab, the line feed and the
carriage return.

Main results:

- Definition `Document.ofText`: the document of a text and whether text follows it.
-/

namespace SceneWiring
namespace Json

/-! ## Space, words and numbers -/

/-- The characters allowed between values. -/
def isSpace (c : Char) : Bool :=
  c == ' ' || c == '\n' || c == '\t' || c == '\r'

/-- What follows the space in front. -/
def dropSpace (cs : List Char) : List Char :=
  cs.dropWhile isSpace

/-- Dropping space adds nothing. -/
theorem length_dropSpace_le (cs : List Char) : (dropSpace cs).length ≤ cs.length :=
  (List.dropWhile_sublist isSpace).length_le

/-- The remaining letters of a word, or the problem that stops it. -/
def readWord : List Char → List Char → Except Problem (List Char)
  | [], rest => .ok rest
  | _ :: _, [] => .error (.truncated .value)
  | w :: ws, c :: rest => if c = w then readWord ws rest else .error (.malformed .word)

/-- The value of a decimal digit. -/
def digitValue (c : Char) : Nat :=
  c.toNat - '0'.toNat

/-- A run of digits of which there has to be one, and what follows it. -/
def readDigits (cs : List Char) : Except Defect (List Nat × List Char) :=
  match cs.takeWhile Char.isDigit with
  | [] => .error (if cs.isEmpty then .openNumber else .problem (.malformed .number))
  | digits => .ok (digits.map digitValue, cs.dropWhile Char.isDigit)

/-- The digits before the point; a leading zero stands alone. -/
def readWhole (cs : List Char) : Except Defect (List Nat × List Char) :=
  match readDigits cs with
  | .ok (0 :: _ :: _, _) => .error (.problem (.malformed .number))
  | result => result

/-- The part behind the point, if there is one. -/
def readDecimals (cs : List Char) : Except Defect (Option (List Nat) × List Char) :=
  match cs with
  | '.' :: rest => (fun (ds, rest) => (some ds, rest)) <$> readDigits rest
  | _ => .ok (none, cs)

/-- The digits of an exponent with the given sign. -/
def readExponentDigits (negative : Bool) (cs : List Char) :
    Except Defect (Option Exponent × List Char) :=
  (fun (ds, rest) => (some ⟨negative, ds⟩, rest)) <$> readDigits cs

/-- The exponent, if there is one. -/
def readExponent (cs : List Char) : Except Defect (Option Exponent × List Char) :=
  match cs with
  | c :: rest =>
    if c = 'e' ∨ c = 'E' then
      match rest with
      | '+' :: rest => readExponentDigits false rest
      | '-' :: rest => readExponentDigits true rest
      | _ => readExponentDigits false rest
    else .ok (none, cs)
  | [] => .ok (none, cs)

/-- A number whose sign has been read. -/
def readNumber (negative : Bool) (cs : List Char) : Except Defect (Number × List Char) := do
  let (whole, rest) ← readWhole cs
  let (decimals, rest) ← readDecimals rest
  let (exponent, rest) ← readExponent rest
  return (⟨negative, whole, decimals, exponent⟩, rest)

/-! ## What follows a part -/

/-- A text that is no longer than the text it was left over from. -/
def Rest (cs : List Char) : Type :=
  { rest : List Char // rest.length ≤ cs.length }

/-- Nothing is left. -/
def Rest.none (cs : List Char) : Rest cs :=
  ⟨[], Nat.zero_le _⟩

/-- What was left over from a shorter text was left over from a longer one. -/
def Rest.widen {cs ds : List Char} (r : Rest cs) (h : cs.length ≤ ds.length) : Rest ds :=
  ⟨r.val, Nat.le_trans r.property h⟩

/-- Reading a word adds nothing. -/
theorem length_readWord_le {letters cs rest : List Char}
    (h : readWord letters cs = .ok rest) : rest.length ≤ cs.length := by
  induction letters generalizing cs with
  | nil =>
    cases h
    exact Nat.le_refl _
  | cons w ws ih =>
    cases cs with
    | nil => simp [readWord] at h
    | cons c cs =>
      by_cases same : c = w
      · have := ih (by simpa [readWord, same] using h)
        simp only [List.length_cons]
        omega
      · simp [readWord, same] at h

/-- Reading digits adds nothing. -/
theorem length_readDigits_le {cs rest : List Char} {ds : List Nat}
    (h : readDigits cs = .ok (ds, rest)) : rest.length ≤ cs.length := by
  unfold readDigits at h
  split at h
  · simp at h
  · cases h
    exact (List.dropWhile_sublist Char.isDigit).length_le

/-- Reading the digits before the point adds nothing. -/
theorem length_readWhole_le {cs rest : List Char} {ds : List Nat}
    (h : readWhole cs = .ok (ds, rest)) : rest.length ≤ cs.length := by
  unfold readWhole at h
  split at h
  · simp at h
  · exact length_readDigits_le h

/-- Reading the part behind the point adds nothing. -/
theorem length_readDecimals_le {cs rest : List Char} {ds : Option (List Nat)}
    (h : readDecimals cs = .ok (ds, rest)) : rest.length ≤ cs.length := by
  unfold readDecimals at h
  split at h
  · rename_i behind
    cases run : readDigits behind with
    | error d => simp [run, Functor.map, Except.map] at h
    | ok result =>
      obtain ⟨digits, behindDigits⟩ := result
      have := length_readDigits_le run
      simp only [run, Functor.map, Except.map, Except.ok.injEq, Prod.mk.injEq] at h
      simp only [List.length_cons, ← h.2]
      omega
  · cases h
    exact Nat.le_refl _

/-- Reading the digits of an exponent adds nothing. -/
theorem length_readExponentDigits_le {negative : Bool} {cs rest : List Char}
    {e : Option Exponent} (h : readExponentDigits negative cs = .ok (e, rest)) :
    rest.length ≤ cs.length := by
  unfold readExponentDigits at h
  cases run : readDigits cs with
  | error d => simp [run, Functor.map, Except.map] at h
  | ok result =>
    obtain ⟨digits, behindDigits⟩ := result
    have := length_readDigits_le run
    simp only [run, Functor.map, Except.map, Except.ok.injEq, Prod.mk.injEq] at h
    simp only [← h.2]
    omega

/-- Reading an exponent adds nothing. -/
theorem length_readExponent_le {cs rest : List Char} {e : Option Exponent}
    (h : readExponent cs = .ok (e, rest)) : rest.length ≤ cs.length := by
  unfold readExponent at h
  split at h
  · split at h
    · split at h <;>
        · have := length_readExponentDigits_le h
          simp only [List.length_cons] at *
          omega
    · cases h
      exact Nat.le_refl _
  · cases h
    exact Nat.le_refl _

/-- Reading a number adds nothing. -/
theorem length_readNumber_le {negative : Bool} {cs rest : List Char} {n : Number}
    (h : readNumber negative cs = .ok (n, rest)) : rest.length ≤ cs.length := by
  unfold readNumber at h
  cases whole : readWhole cs with
  | error d => simp [whole, bind, Except.bind] at h
  | ok w =>
    obtain ⟨wholeDigits, afterWhole⟩ := w
    cases decimals : readDecimals afterWhole with
    | error d => simp [whole, decimals, bind, Except.bind] at h
    | ok ds =>
      obtain ⟨decimalDigits, afterDecimals⟩ := ds
      cases exponent : readExponent afterDecimals with
      | error d => simp [whole, decimals, exponent, bind, Except.bind] at h
      | ok e =>
        obtain ⟨exponentDigits, afterExponent⟩ := e
        have first := length_readWhole_le whole
        have second := length_readDecimals_le decimals
        have third := length_readExponent_le exponent
        simp only [whole, decimals, exponent, bind, Except.bind, pure, Except.pure,
          Except.ok.injEq, Prod.mk.injEq] at h
        rw [← h.2]
        omega

/-- A value and what follows it; nothing follows a bad value. -/
abbrev ReadDoc (cs : List Char) : Type :=
  Doc × Rest cs

/-- The document of a word, given the letters after its first one. -/
def readWordDoc (d : Doc) (letters cs : List Char) : ReadDoc cs :=
  match h : readWord letters cs with
  | .ok rest => (d, ⟨rest, length_readWord_le h⟩)
  | .error p => (.bad (.problem p), .none cs)

/-- The document of a number whose sign has been read. -/
def readNumberDoc (negative : Bool) (cs : List Char) : ReadDoc cs :=
  match h : readNumber negative cs with
  | .ok (n, rest) => (.number n, ⟨rest, length_readNumber_le h⟩)
  | .error d => (.bad d, .none cs)

/-- The document of a string whose opening quote has been read. -/
def readStringDoc (cs : List Char) : ReadDoc cs :=
  let scanned := scanString cs
  (.text ⟨scanned.pieces, scanned.stop⟩, ⟨scanned.rest, length_rest_scan_le cs⟩)

/-- A value that is neither a list nor a record. -/
def readScalar (first : Char) (rest : List Char) : ReadDoc (first :: rest) :=
  let after (r : ReadDoc rest) : ReadDoc (first :: rest) :=
    (r.1, r.2.widen (Nat.le_succ _))
  match first with
  | '"' => after (readStringDoc rest)
  | 't' => after (readWordDoc (.bool true) "rue".toList rest)
  | 'f' => after (readWordDoc (.bool false) "alse".toList rest)
  | 'n' => after (readWordDoc .null "ull".toList rest)
  | '-' => after (readNumberDoc true rest)
  | c =>
    if c.isDigit then readNumberDoc false (c :: rest)
    else (.bad (.problem (.malformed .value)), .none (c :: rest))

/-- A text whose space in front was dropped is shorter by its first character. -/
theorem length_tail_lt {cs rest : List Char} {c : Char} (h : dropSpace cs = c :: rest) :
    rest.length < cs.length := by
  have := length_dropSpace_le cs
  simp only [h, List.length_cons] at this
  omega

/-- What follows the first character after the space in front. -/
def Rest.tail {cs rest : List Char} {c : Char} (h : dropSpace cs = c :: rest) : Rest cs :=
  ⟨rest, Nat.le_of_lt (length_tail_lt h)⟩

/-! ## Values -/

/-- A place where the text ended before the value of a field. -/
def missingColon (cs : List Char) : Doc :=
  .bad (.problem (if cs.isEmpty then .truncated .record else .malformed .colon))

mutual

/-- The value at the start of a text. -/
def readDoc (cs : List Char) : ReadDoc cs :=
  match h : dropSpace cs with
  | [] => (.bad (.problem (.truncated .value)), .none cs)
  | '[' :: rest =>
    have shorter := length_tail_lt h
    let (items, close, rest') := readItems rest
    (.list items close, rest'.widen (Nat.le_of_lt shorter))
  | '\x7b' :: rest =>
    have shorter := length_tail_lt h
    let (fields, close, rest') := readFields rest
    (.record fields close, rest'.widen (Nat.le_of_lt shorter))
  | c :: rest =>
    have shorter := length_tail_lt h
    let (d, rest') := readScalar c rest
    (d, rest'.widen shorter)
termination_by 3 * cs.length

/-- The items of a list whose opening bracket has been read. -/
def readItems (cs : List Char) : List Doc × Close × Rest cs :=
  match h : dropSpace cs with
  | [] => ([], .ended, .none cs)
  | ']' :: _ => ([], .closed, .tail h)
  | _ =>
    let (item, rest) := readDoc cs
    have noLonger := rest.property
    let (items, close, rest') := readMoreItems rest.val
    (item :: items, close, rest'.widen noLonger)
termination_by 3 * cs.length + 2

/-- The items after an item. -/
def readMoreItems (cs : List Char) : List Doc × Close × Rest cs :=
  match h : dropSpace cs with
  | [] => ([], .ended, .none cs)
  | ']' :: _ => ([], .closed, .tail h)
  | ',' :: rest =>
    have shorter := length_tail_lt h
    match dropSpace rest with
    | [] => ([], .endedAfterComma, .none cs)
    | ']' :: _ => ([], .commaClosed, .none cs)
    | _ =>
      let (item, rest') := readDoc rest
      have noLonger := rest'.property
      let (items, close, rest'') := readMoreItems rest'.val
      (item :: items, close, rest''.widen (by omega))
  | _ => ([], .unseparated, .none cs)
termination_by 3 * cs.length + 1

/-- The fields of a record whose opening bracket has been read. -/
def readFields (cs : List Char) : List Field × Close × Rest cs :=
  match h : dropSpace cs with
  | [] => ([], .ended, .none cs)
  | '\x7d' :: _ => ([], .closed, .tail h)
  | '"' :: rest =>
    have shorter := length_tail_lt h
    let (field, rest') := readField rest
    have noLonger := rest'.property
    let (fields, close, rest'') := readMoreFields rest'.val
    (field :: fields, close, rest''.widen (by omega))
  | _ => ([], .badKey, .none cs)
termination_by 3 * cs.length

/-- The fields after a field. -/
def readMoreFields (cs : List Char) : List Field × Close × Rest cs :=
  match h : dropSpace cs with
  | [] => ([], .ended, .none cs)
  | '\x7d' :: _ => ([], .closed, .tail h)
  | ',' :: rest =>
    have shorter := length_tail_lt h
    match h' : dropSpace rest with
    | [] => ([], .endedAfterComma, .none cs)
    | '\x7d' :: _ => ([], .commaClosed, .none cs)
    | '"' :: rest' =>
      have shorter' := length_tail_lt h'
      let (field, rest'') := readField rest'
      have noLonger := rest''.property
      let (fields, close, last) := readMoreFields rest''.val
      (field :: fields, close, last.widen (by omega))
    | _ => ([], .badKey, .none cs)
  | _ => ([], .unseparated, .none cs)
termination_by 3 * cs.length

/-- One field, the opening quote of whose name has been read. -/
def readField (cs : List Char) : Field × Rest cs :=
  let scanned := scanString cs
  have noLonger : scanned.rest.length ≤ cs.length := length_rest_scan_le cs
  let key : StringToken := ⟨scanned.pieces, scanned.stop⟩
  match h : dropSpace scanned.rest with
  | ':' :: rest =>
    have shorter : rest.length < cs.length :=
      Nat.lt_of_lt_of_le (length_tail_lt h) noLonger
    let (value, rest') := readDoc rest
    (.mk key value, rest'.widen (Nat.le_of_lt shorter))
  | other => (.mk key (missingColon other), .none cs)
termination_by 3 * cs.length

end

/-! ## Whole texts -/

/-- The document of a text. -/
structure Document where
  root : Doc
  /-- Whether anything but space follows the document. -/
  trailing : Bool

/-- Read a whole text. -/
def Document.ofText (text : String) : Document :=
  let (root, rest) := readDoc text.toList
  ⟨root, !(dropSpace rest.val).isEmpty⟩

/-- The document as `read` understands it, once the rest of the text is known to be
empty. -/
def Document.decode {α : Type} (doc : Document) (read : Doc → Except Problem α) :
    Except Problem α := do
  let result ← read doc.root
  if doc.trailing then throw (.malformed .trailing)
  return result

end Json
end SceneWiring
