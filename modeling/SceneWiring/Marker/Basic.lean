import SceneWiring.Text.Blank

/-!
# Markers

A marker is an attribute with a meaning for the library.  A strategy says where the
value of a member is looked up; a modifier changes how.  Spelling is free in case, in
blanks around the name, in hyphens and underscores, and in the suffix that attribute
classes carry.

Main results:

- Definition `Marker.ofName?`: the marker of an attribute name.
- Theorem `ofName?_name`: a strategy is found under its own name.
-/

namespace SceneWiring

/-- Where the value of a member is looked up. -/
inductive Strategy
  | get
  | getByName
  | getByTag
  | getInAssets
  | getInChildren
  | getInParent
deriving DecidableEq, Repr

namespace Strategy

/-- All strategies. -/
def all : List Strategy :=
  [.get, .getByName, .getByTag, .getInAssets, .getInChildren, .getInParent]

/-- The name of a strategy in messages. -/
def name : Strategy → String
  | .get => "get"
  | .getByName => "get-by-name"
  | .getByTag => "get-by-tag"
  | .getInAssets => "get-in-assets"
  | .getInChildren => "get-in-children"
  | .getInParent => "get-in-parent"

/-- The named argument that can give the parameter of a strategy. -/
def argumentName : Strategy → Option String
  | .getByName => some "name"
  | .getInAssets => some "name"
  | .getByTag => some "tag"
  | .get => none
  | .getInChildren => none
  | .getInParent => none

end Strategy

/-- How a lookup differs from the usual one. -/
inductive Modifier
  | ignoreSelf
  | skipNullCheck
  | includeInactive
  | injectInPlay
deriving DecidableEq, Repr

/-- The name of a modifier. -/
def Modifier.name : Modifier → String
  | .ignoreSelf => "ignore-self"
  | .skipNullCheck => "skip-null-check"
  | .includeInactive => "include-inactive"
  | .injectInPlay => "inject-in-play"

/-- All modifiers. -/
def Modifier.all : List Modifier :=
  [.ignoreSelf, .skipNullCheck, .includeInactive, .injectInPlay]

/-- A strategy or a modifier. -/
inductive Marker
  | strategy (s : Strategy)
  | modifier (m : Modifier)
deriving DecidableEq, Repr

namespace Marker

/-! ## Spelling -/

/-- The key letter of a character.  Of the letters outside the ASCII range, the
kelvin sign alone has an ASCII letter for its lower case. -/
def keyLetter (c : Char) : Char :=
  if c = '\u212a' then 'k' else c.toLower

/-- The suffix that the classes of attributes carry. -/
def classSuffix : List Char :=
  "attribute".toList

/-- A key without the suffix, unless nothing else is left. -/
def dropSuffix (key : List Char) : List Char :=
  if classSuffix.isSuffixOf key && classSuffix.length < key.length then
    key.take (key.length - classSuffix.length)
  else key

/-- The key of a spelling: trimmed, without hyphens and underscores, in lower case,
without the suffix. -/
def key (spelling : String) : List Char :=
  let letters := (Text.trimmed spelling.toList).filter fun c => c != '-' && c != '_'
  dropSuffix (letters.map keyLetter)

/-! ## Names -/

/-- The markers under their keys. -/
def byKey : List (List Char × Marker) :=
  [("get".toList, .strategy .get),
   ("getbyname".toList, .strategy .getByName),
   ("getbytag".toList, .strategy .getByTag),
   ("getinassets".toList, .strategy .getInAssets),
   ("getinchildren".toList, .strategy .getInChildren),
   ("getinparent".toList, .strategy .getInParent),
   ("ignoreself".toList, .modifier .ignoreSelf),
   ("skipnullcheck".toList, .modifier .skipNullCheck),
   ("includeinactive".toList, .modifier .includeInactive),
   ("injectinplay".toList, .modifier .injectInPlay)]

/-- The marker of an attribute name, if the name is one. -/
def ofName? (name : String) : Option Marker :=
  byKey.lookup (key name)

/-- A strategy is found under its own name. -/
theorem ofName?_name (s : Strategy) : ofName? s.name = some (.strategy s) := by
  cases s <;> decide

end Marker

/-- The strategy of an attribute name, if the name is one. -/
def Strategy.ofName? (name : String) : Option Strategy :=
  match Marker.ofName? name with
  | some (.strategy s) => some s
  | _ => none

end SceneWiring
