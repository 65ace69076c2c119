import SceneWiring.Fragment
import SceneWiring.Header
import SceneWiring.Layout
import SceneWiring.Options

/-!
# Units of code

A unit is the code for one type: a further part of the type, inside its namespace and
the types around it, with one method that holds the statements of all fragments.  The
using directives are those that the statements need, followed by those of the type's
own files.

A unit is kept under the name of its type.  Units of types with the same name are kept
under qualified names instead.

Main results:

- Definition `CodeUnit.assemble`: the unit of a type.
- Definition `qualifyShared`: the keys of a list of units.
- Theorem `length_qualifyShared`: no unit is lost.
-/

namespace SceneWiring

/-! ## Using directives -/

/-- The using directives that the statements need. -/
def neededUsings : List String :=
  ["using UnityEngine;", "using System.Linq;"]

/-- The using directives of a unit, each one once, in the order of first occurrence. -/
def mergeUsings (usings : List String) : List String :=
  (neededUsings ++ usings.map Text.trim).eraseDups

/-! ## Keys -/

/-- The key of a name. -/
def simpleKey (name : String) : String :=
  name ++ "_codegen"

/-- The key of a qualified name, whose dots become underscores. -/
def qualifiedKey (qualifiedName : String) : String :=
  simpleKey (String.ofList (qualifiedName.toList.map fun c => if c = '.' then '_' else c))

/-! ## Units -/

/-- The code for one type. -/
structure CodeUnit where
  key : String
  typeName : String
  qualifiedName : String
  path : String
  /-- The method that holds the statements. -/
  hook : String
  fragmentCount : Nat
  text : String
deriving DecidableEq, Repr

/-- The file that a unit is written to. -/
def CodeUnit.fileName (u : CodeUnit) : String :=
  u.key ++ ".cs"

/-- Whether a fragment asks for the type to be filled before the first frame only. -/
def wantsPlayHook (fragments : List Fragment) : Bool :=
  fragments.any Fragment.injectInPlay

/-- The block headers around the statements, outermost first. -/
def blockHeaders (t : EnclosingType) (hook : String) : List String :=
  (if t.path.isEmpty then [] else ["namespace " ++ t.path]) ++
    t.containers.map Header.render ++ [t.header.render, "private void " ++ hook ++ "()"]

/-- The steps of a unit's code. -/
def unitSteps (t : EnclosingType) (hook : String) (fragments : List Fragment) : List Step :=
  let headers := blockHeaders t hook
  .line "// <auto-generated/>" :: (mergeUsings t.usings).map Step.line ++ [.blank] ++
    headers.map Step.opening ++
    (fragments.flatMap Fragment.statements).map Step.line ++
    headers.map fun _ => Step.closing

/-- The unit of a type. -/
def CodeUnit.assemble (t : EnclosingType) (fragments : List Fragment) (options : Options) :
    CodeUnit :=
  let hook := options.hook (wantsPlayHook fragments)
  { key := simpleKey t.name
    typeName := t.name
    qualifiedName := t.qualifiedName
    path := t.path
    hook := hook
    fragmentCount := fragments.length
    text := textOfLines (layOut 0 (unitSteps t hook fragments)) }

/-! ## Keys of several units -/

/-- Whether a unit shares its key with another one of a list that contains it. -/
def sharesKey (units : List CodeUnit) (u : CodeUnit) : Bool :=
  1 < units.countP fun other => other.key == u.key

/-- A unit under its qualified key. -/
def CodeUnit.qualified (u : CodeUnit) : CodeUnit :=
  { u with key := qualifiedKey u.qualifiedName }

/-- The units of a list, those that share a key under their qualified keys. -/
def qualifyShared (units : List CodeUnit) : List CodeUnit :=
  units.map fun u => if sharesKey units u then u.qualified else u

/-- How many units of a list share a key. -/
def countShared (units : List CodeUnit) : Nat :=
  units.countP (sharesKey units)

/-- No unit is lost. -/
@[simp]
theorem length_qualifyShared (units : List CodeUnit) :
    (qualifyShared units).length = units.length := by
  simp [qualifyShared]

end SceneWiring
