import SceneWiring.Text.Blank

/-!
# Declarations

The host compiler hands over what its source files declare: namespaces, types, the
members of types, and using directives.  A type may be declared in several parts.
The library never sees program text, only these declarations, and all names and
types in them are kept as they were written.

Main results:

- Definition `Decl.label`: the name of any declaration in a report.
- Definition `UsingDirective.render`: the text of a using directive.
-/

namespace SceneWiring

/-! ## Places -/

/-- A place in a source file. -/
structure Location where
  line : UInt32
  column : UInt32
deriving DecidableEq, Repr

/-- The place of a declaration that does not tell its place. -/
def Location.unknown : Location :=
  ⟨0, 0⟩

/-! ## Attributes -/

/-- An argument of an attribute, named if it was written with a name. -/
structure AttributeArgument where
  name : Option String
  value : String
deriving DecidableEq, Repr

/-- An attribute as it is written on a member. -/
structure Attribute where
  name : String
  arguments : List AttributeArgument
deriving DecidableEq, Repr

/-! ## Using directives -/

/-- A using directive. -/
structure UsingDirective where
  name : String
  aliasName : Option String
  isStatic : Bool
  location : Location
deriving DecidableEq, Repr

/-- The text of a using directive. -/
def UsingDirective.render (u : UsingDirective) : String :=
  let shorthand := match u.aliasName with
    | some name => Text.trim name ++ " = "
    | none => ""
  "using " ++ (if u.isStatic then "static " else "") ++ shorthand ++ Text.trim u.name ++ ";"

/-! ## Members -/

/-- A field declaration, which may declare several variables. -/
structure FieldDecl where
  type : String
  variableNames : List String
  modifiers : List String
  attributes : List Attribute
  location : Location
deriving DecidableEq, Repr

/-- A property declaration. -/
structure PropertyDecl where
  type : String
  name : String
  modifiers : List String
  attributes : List Attribute
  hasSetter : Bool
  location : Location
deriving DecidableEq, Repr

/-- A method declaration. -/
structure MethodDecl where
  name : String
  attributes : List Attribute
  location : Location
deriving DecidableEq, Repr

/-- A declaration that can carry attributes. -/
inductive Member
  | field (f : FieldDecl)
  | property (p : PropertyDecl)
  | method (m : MethodDecl)
deriving DecidableEq, Repr

namespace Member

/-- The attributes written on a member. -/
def attributes : Member → List Attribute
  | .field f => f.attributes
  | .property p => p.attributes
  | .method m => m.attributes

/-- The place of a member. -/
def location : Member → Location
  | .field f => f.location
  | .property p => p.location
  | .method m => m.location

/-- The name of a member in a report; a field shows all its variables. -/
def label : Member → String
  | .field f => ", ".intercalate f.variableNames
  | .property p => p.name
  | .method m => m.name

end Member

/-! ## Types and namespaces -/

/-- One declaration of a type, without its members.  A type may have several. -/
structure TypePart where
  name : String
  modifiers : List String
  typeParameters : List String
  location : Location
deriving DecidableEq, Repr

/-- Whether a part is declared with a modifier. -/
def TypePart.declares (part : TypePart) (modifier : String) : Bool :=
  part.modifiers.any fun m => Text.trim m == modifier

/-- The opening of a namespace, whose name may be dotted. -/
structure ScopeHead where
  name : String
  location : Location
deriving DecidableEq, Repr

/-- A declaration. -/
inductive Decl
  | scope (head : ScopeHead) (members : List Decl)
  | type (part : TypePart) (members : List Decl)
  | member (m : Member)
  | directive (u : UsingDirective)
  /-- A declaration of a kind that the library has no use for. -/
  | unknown

namespace Decl

/-- The member that a declaration is, if it is one. -/
def member? : Decl → Option Member
  | .member m => some m
  | _ => none

/-- The attributes written on a declaration; only members carry any. -/
def attributes (d : Decl) : List Attribute :=
  (d.member?.map Member.attributes).getD []

/-- The place of a declaration. -/
def location : Decl → Location
  | .scope head _ => head.location
  | .type part _ => part.location
  | .member m => m.location
  | .directive u => u.location
  | .unknown => .unknown

/-- The name of a declaration in a report. -/
def label : Decl → String
  | .scope head _ => head.name
  | .type part _ => part.name
  | .member m => m.label
  | .directive u => u.name
  | .unknown => "<unknown>"

end Decl

/-! ## Files -/

/-- The declarations of one source file. -/
structure SourceFile where
  path : String
  members : List Decl

/-- The using directives at the top of a file, in source order. -/
def SourceFile.usings (file : SourceFile) : List UsingDirective :=
  file.members.filterMap fun
    | .directive u => some u
    | _ => none

/-- Everything the host hands over at once. -/
structure Compilation where
  files : List SourceFile

end SceneWiring
