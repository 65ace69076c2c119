import SceneWiring.Declaration.Basic

/-!
# Headers of types

A type may be declared in several parts, each with some of its modifiers.  The header
joins them: the type has a modifier if any part has it, but it is partial only if
every part is.  Generated code repeats the headers of the type and of the types around
it.

Main results:

- Definition `Header.ofParts`: the header of the parts of a type.
- Definition `EnclosingType.ofParts`: everything about a type that its code repeats.
-/

namespace SceneWiring

/-! ## Accessibility -/

/-- Who may use a type. -/
inductive Accessibility
  | publicAccess
  | privateAccess
  | internalAccess
deriving DecidableEq, Repr

namespace Accessibility

/-- The keyword of an accessibility. -/
def keyword : Accessibility → String
  | .publicAccess => "public"
  | .privateAccess => "private"
  | .internalAccess => "internal"

/-- The accessibility that modifiers declare: public before private, otherwise
internal. -/
def ofModifiers (modifiers : List String) : Accessibility :=
  let has (keyword : String) := modifiers.any fun m => Text.trim m == keyword
  if has "public" then .publicAccess
  else if has "private" then .privateAccess
  else .internalAccess

end Accessibility

/-! ## Headers -/

/-- The header of a type. -/
structure Header where
  name : String
  typeParameters : List String
  accessibility : Accessibility
  isSealed : Bool
  isPartial : Bool
deriving DecidableEq, Repr

/-- The type parameters of the first part that has any. -/
def mergedTypeParameters (parts : List TypePart) : List String :=
  match parts.find? fun part => !part.typeParameters.isEmpty with
  | some part => part.typeParameters.map Text.trim
  | none => []

/-- The header of the parts of a type. -/
def Header.ofParts (parts : List TypePart) : Header where
  name := (parts.head?.map fun part => Text.trim part.name).getD ""
  typeParameters := mergedTypeParameters parts
  accessibility := .ofModifiers (parts.flatMap TypePart.modifiers)
  isSealed := parts.any fun part => part.declares "sealed"
  isPartial := !parts.isEmpty && parts.all fun part => part.declares "partial"

/-- The text of a header in generated code, which always declares a further part. -/
def Header.render (h : Header) : String :=
  let parameters :=
    if h.typeParameters.isEmpty then "" else "<" ++ ", ".intercalate h.typeParameters ++ ">"
  h.accessibility.keyword ++ (if h.isSealed then " sealed" else "") ++ " partial class " ++
    h.name ++ parameters

/-! ## Namespaces -/

/-- The dotted path of nested namespaces, outermost first, blank names left out. -/
def dottedPath (names : List String) : String :=
  ".".intercalate ((names.map Text.trim).filter fun name => !name.isEmpty)

/-! ## Types with their surroundings -/

/-- Everything about a type that its generated code repeats. -/
structure EnclosingType where
  header : Header
  /-- The headers of the types around it, outermost first. -/
  containers : List Header
  /-- The path of the namespaces around it. -/
  path : String
  /-- The using directives of its files, as they are written. -/
  usings : List String
deriving DecidableEq, Repr

namespace EnclosingType

/-- The type with the given parts, in the types with the given parts. -/
def ofParts (parts : List TypePart) (containers : List (List TypePart)) (path : String)
    (usings : List UsingDirective) : EnclosingType where
  header := .ofParts parts
  containers := containers.map Header.ofParts
  path := path
  usings := usings.map UsingDirective.render

/-- The name of a type without its surroundings. -/
def name (t : EnclosingType) : String :=
  t.header.name

/-- Whether code can be added to a type: it and every type around it is partial. -/
def isPartial (t : EnclosingType) : Bool :=
  t.header.isPartial && t.containers.all Header.isPartial

/-- The name of a type with the namespaces and the types around it. -/
def qualifiedName (t : EnclosingType) : String :=
  let path := if t.path.isEmpty then [] else [t.path]
  ".".intercalate (path ++ t.containers.map Header.name ++ [t.name])

end EnclosingType
end SceneWiring
