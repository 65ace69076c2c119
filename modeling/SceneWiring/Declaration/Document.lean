import SceneWiring.Declaration.Basic
import SceneWiring.Json.Reader
import SceneWiring.Json.Record

/-!
# Declarations as documents

Every kind of declaration has a format, by which it is read, and a document, in
which all its fields are written.  A node names its kind in a field of its own; the
other fields are those of the kind.

Nodes are kept before they are read: a node at the top of a file is checked
completely, fields without meaning included, before any of its fields is looked at.
Only its kind is looked at as soon as it is met.

Main results:

- Definition `Compilation.ofDoc`: reading a whole compilation.
- Definition `Compilation.toDoc`: writing it.
-/

namespace SceneWiring

open Json

/-! ## Records without nested nodes -/

/-- The fields of a place. -/
def Location.format : RecordFormat Location :=
  ((RecordFormat.pure Location.mk).ap
    (.required "line" readWord32)).ap
    (.required "column" readWord32)

/-- Read a place. -/
def Location.ofDoc (d : Doc) : Except Problem Location :=
  Location.format.read .buffered "SourceLocation" d

/-- The document of a place. -/
def Location.toDoc (l : Location) : Doc :=
  .ofFields [("line", .ofNat l.line.toNat), ("column", .ofNat l.column.toNat)]

/-- The document of a text or of its absence. -/
def optionToDoc : Option String → Doc
  | some s => .ofString s
  | none => .null

/-- The document of a list of texts. -/
def textsToDoc (ss : List String) : Doc :=
  .ofList (ss.map .ofString)

/-- The fields of an argument. -/
def AttributeArgument.format : RecordFormat AttributeArgument :=
  ((RecordFormat.pure AttributeArgument.mk).ap
    (.optional "name" none (readOptional readText))).ap
    (.required "value" readText)

/-- Read an argument. -/
def AttributeArgument.ofDoc (d : Doc) : Except Problem AttributeArgument :=
  AttributeArgument.format.read .buffered "AttributeArgumentSyntax" d

/-- The document of an argument. -/
def AttributeArgument.toDoc (a : AttributeArgument) : Doc :=
  .ofFields [("name", optionToDoc a.name), ("value", .ofString a.value)]

/-- The fields of an attribute. -/
def Attribute.format : RecordFormat Attribute :=
  ((RecordFormat.pure Attribute.mk).ap
    (.required "name" readText)).ap
    (.optional "arguments" [] (readList AttributeArgument.ofDoc))

/-- Read an attribute. -/
def Attribute.ofDoc (d : Doc) : Except Problem Attribute :=
  Attribute.format.read .buffered "AttributeSyntax" d

/-- The document of an attribute. -/
def Attribute.toDoc (a : Attribute) : Doc :=
  .ofFields
    [("name", .ofString a.name), ("arguments", .ofList (a.arguments.map AttributeArgument.toDoc))]

/-- The document of a list of attributes. -/
def attributesToDoc (attributes : List Attribute) : Doc :=
  .ofList (attributes.map Attribute.toDoc)

/-- An optional place. -/
def locationField : RecordFormat Location :=
  .optional "location" .unknown Location.ofDoc

/-- An optional list of texts. -/
def textsField (name : String) : RecordFormat (List String) :=
  .optional name [] (readList readText)

/-- An optional list of attributes. -/
def attributesField : RecordFormat (List Attribute) :=
  .optional "attributes" [] (readList Attribute.ofDoc)

/-- The fields of a using directive. -/
def UsingDirective.format : RecordFormat UsingDirective :=
  ((((RecordFormat.pure UsingDirective.mk).ap
    (.required "name" readText)).ap
    (.optional "alias" none (readOptional readText))).ap
    (.optional "isStatic" false readFlag)).ap
    locationField

/-- Read a using directive. -/
def UsingDirective.ofDoc (d : Doc) : Except Problem UsingDirective :=
  UsingDirective.format.read .buffered "UsingDirective" d

/-- The fields of a using directive, written out. -/
def UsingDirective.toFields (u : UsingDirective) : List (String × Doc) :=
  [("name", .ofString u.name), ("alias", optionToDoc u.aliasName),
   ("isStatic", .bool u.isStatic), ("location", u.location.toDoc)]

/-- The fields of a field declaration. -/
def FieldDecl.format : RecordFormat FieldDecl :=
  (((((RecordFormat.pure FieldDecl.mk).ap
    (.required "type" readText)).ap
    (.required "variables" (readList readText))).ap
    (textsField "modifiers")).ap
    attributesField).ap
    locationField

/-- The fields of a field declaration, written out. -/
def FieldDecl.toFields (f : FieldDecl) : List (String × Doc) :=
  [("type", .ofString f.type), ("variables", textsToDoc f.variableNames),
   ("modifiers", textsToDoc f.modifiers), ("attributes", attributesToDoc f.attributes),
   ("location", f.location.toDoc)]

/-- The fields of a property declaration; a property has a setter unless it says not. -/
def PropertyDecl.format : RecordFormat PropertyDecl :=
  ((((((RecordFormat.pure PropertyDecl.mk).ap
    (.required "type" readText)).ap
    (.required "name" readText)).ap
    (textsField "modifiers")).ap
    attributesField).ap
    (.optional "hasSetter" true readFlag)).ap
    locationField

/-- The fields of a property declaration, written out. -/
def PropertyDecl.toFields (p : PropertyDecl) : List (String × Doc) :=
  [("type", .ofString p.type), ("name", .ofString p.name),
   ("modifiers", textsToDoc p.modifiers), ("attributes", attributesToDoc p.attributes),
   ("hasSetter", .bool p.hasSetter), ("location", p.location.toDoc)]

/-- The fields of a method declaration. -/
def MethodDecl.format : RecordFormat MethodDecl :=
  (((RecordFormat.pure MethodDecl.mk).ap
    (.required "name" readText)).ap
    attributesField).ap
    locationField

/-- The fields of a method declaration, written out. -/
def MethodDecl.toFields (m : MethodDecl) : List (String × Doc) :=
  [("name", .ofString m.name), ("attributes", attributesToDoc m.attributes),
   ("location", m.location.toDoc)]

/-! ## Kinds of nodes -/

/-- The kinds of nodes. -/
inductive NodeKind
  | scope
  | type
  | field
  | property
  | method
  | directive
  | unknown
deriving DecidableEq, Repr

namespace NodeKind

/-- The kinds that have a name, with their names, in the order of their numbers. -/
def named : List (String × NodeKind) :=
  [("namespace", .scope), ("class", .type), ("field", .field), ("property", .property),
   ("method", .method), ("using", .directive)]

/-- The kind of a name. -/
def ofName (name : String) : NodeKind :=
  (named.lookup name).getD .unknown

/-- The kind of a number. -/
def ofNumber (n : Nat) : NodeKind :=
  (named[n]?.map Prod.snd).getD .unknown

/-- Read a kind; a number is accepted only inside a node that was kept before. -/
def ofDoc (layer : RecordFormat.Layer) : Doc → Except Problem NodeKind
  | .text t => ofName <$> t.text
  | .number n =>
    match layer, n.value? with
    | .buffered, some (.integer (.ofNat k)) => .ok (ofNumber k)
    | _, _ => .error ((Doc.number n).refuse "variant identifier")
  | d => .error (d.refuse "variant identifier")

end NodeKind

/-! ## The parts of a node -/

/-- The contents of a node without its kind. -/
inductive NodeBody
  | fields (fs : List Field)
  | items (values : List Doc)

/-- Read the contents of a node as a record. -/
def NodeBody.read {α : Type} (format : RecordFormat α) (title : String) :
    NodeBody → Except Problem α
  | .fields fs => format.readFields fs .closed
  | .items values => format.readItems .buffered title values .closed

/-- Keep a value if it comes straight from the text. -/
def keepStreamed (layer : RecordFormat.Layer) (room : Nat) (d : Doc) : Except Problem Unit :=
  match layer with
  | .streamed => d.keep room
  | .buffered => .ok ()

/-- The kind and the other fields of a node in the object form, `kind` being the one
met before. -/
def splitFields (layer : RecordFormat.Layer) (room : Nat) (kind : Option NodeKind) :
    List Field → Except Problem (Option NodeKind × List Field)
  | [] => .ok (kind, [])
  | .mk key value :: rest => do
    let name ← key.text
    if name = "kind" then
      if kind.isSome then throw (.mismatch (.duplicate "kind"))
      let found ← NodeKind.ofDoc layer value
      splitFields layer room (some found) rest
    else
      keepStreamed layer room value
      let (kind, others) ← splitFields layer room kind rest
      return (kind, .mk key value :: others)

/-- The kind and the contents of a node, inside which `room` more containers may nest. -/
def splitNode (layer : RecordFormat.Layer) (room : Nat) :
    Doc → Except Problem (NodeKind × NodeBody)
  | .record fields close => do
    let (kind, others) ← splitFields layer room none fields
    noProblem (close.recordProblem? .kept)
    match kind with
    | some kind => return (kind, .fields others)
    | none => throw (.mismatch (.missing "kind"))
  | .list [] close => do
    noProblem (close.listProblem? .kept)
    throw (.mismatch (.missing "kind"))
  | .list (first :: rest) close => do
    let kind ← NodeKind.ofDoc layer first
    rest.forM (keepStreamed layer room)
    noProblem (close.listProblem? .kept)
    return (kind, .items rest)
  | d => .error (d.refuse "internally tagged enum SyntaxNode")

/-! ## Nodes -/

/-- The fields of a namespace, its members read as told. -/
def scopeFormat (readMembers : Doc → Except Problem (List Decl)) : RecordFormat Decl :=
  (((RecordFormat.pure fun name members location => Decl.scope ⟨name, location⟩ members).ap
    (.required "name" readText)).ap
    (.optional "members" [] readMembers)).ap
    locationField

/-- The fields of a type, its members read as told. -/
def typeFormat (readMembers : Doc → Except Problem (List Decl)) :
    RecordFormat (TypePart × List Decl) :=
  (((((RecordFormat.pure fun name modifiers typeParameters members location =>
      (⟨name, modifiers, typeParameters, location⟩, members)).ap
    (.required "name" readText)).ap
    (textsField "modifiers")).ap
    (textsField "typeParameters")).ap
    (.optional "members" [] readMembers)).ap
    locationField

/-- Read the contents of a node of a known kind, its members as told. -/
def NodeKind.readBody (readMembers : Doc → Except Problem (List Decl)) (body : NodeBody) :
    NodeKind → Except Problem Decl
  | .scope => body.read (scopeFormat readMembers) "NamespaceNode"
  | .type => (fun (part, members) => .type part members) <$>
      body.read (typeFormat readMembers) "TypeNode"
  | .field => (fun f => .member (.field f)) <$> body.read FieldDecl.format "FieldNode"
  | .property => (fun p => .member (.property p)) <$>
      body.read PropertyDecl.format "PropertyNode"
  | .method => (fun m => .member (.method m)) <$> body.read MethodDecl.format "MethodNode"
  | .directive => .directive <$> body.read UsingDirective.format "UsingDirective"
  | .unknown =>
    match body with
    | .fields _ => .ok .unknown
    | .items values => do
      noProblem (RecordFormat.surplus? .buffered 0 values .closed)
      return .unknown

mutual

/-- Read a node of height at most `room`. -/
def readNode (layer : RecordFormat.Layer) : Nat → Doc → Except Problem Decl
  | 0, .list _ _ => .error (.malformed .depth)
  | 0, .record _ _ => .error (.malformed .depth)
  | 0, d => .error (d.refuse "internally tagged enum SyntaxNode")
  | room + 1, d => do
    let (kind, body) ← splitNode layer room d
    kind.readBody (fun members => readNodes .buffered room members) body

/-- Read a list of nodes, itself of height at most `room`. -/
def readNodes (layer : RecordFormat.Layer) : Nat → Doc → Except Problem (List Decl)
  | 0, .list _ _ => .error (.malformed .depth)
  | room + 1, .list items close => do
    let nodes ← items.mapM fun node => readNode layer room node
    noProblem (close.listProblem? .kept)
    return nodes
  | _, d => .error (d.refuse "a sequence")

end

/-- Read a single node of any height. -/
def Decl.ofDoc (d : Doc) : Except Problem Decl :=
  readNode .buffered d.height d

/-- Read a single part of a type, its members included. -/
def TypePart.ofDoc (d : Doc) : Except Problem (TypePart × List Decl) :=
  (typeFormat (readNodes .buffered d.height)).read .buffered "TypeNode" d

mutual

/-- The document of a node. -/
def Decl.toDoc : Decl → Doc
  | .scope head members =>
    .ofFields [("kind", .ofString "namespace"), ("name", .ofString head.name),
      ("members", .ofList (declsToDocs members)), ("location", head.location.toDoc)]
  | .type part members =>
    .ofFields [("kind", .ofString "class"), ("name", .ofString part.name),
      ("modifiers", textsToDoc part.modifiers),
      ("typeParameters", textsToDoc part.typeParameters),
      ("members", .ofList (declsToDocs members)), ("location", part.location.toDoc)]
  | .member (.field f) => .ofFields (("kind", .ofString "field") :: f.toFields)
  | .member (.property p) => .ofFields (("kind", .ofString "property") :: p.toFields)
  | .member (.method m) => .ofFields (("kind", .ofString "method") :: m.toFields)
  | .directive u => .ofFields (("kind", .ofString "using") :: u.toFields)
  | .unknown => .ofFields [("kind", .ofString "unknown")]

/-- The documents of nodes. -/
def declsToDocs : List Decl → List Doc
  | [] => []
  | d :: ds => d.toDoc :: declsToDocs ds

end

/-! ## Files and compilations -/

/-- How many containers may nest in a document. -/
def nestingAllowance : Nat :=
  127

/-- The fields of a file, whose list of members has height at most `room`. -/
def SourceFile.format (room : Nat) : RecordFormat SourceFile :=
  ((RecordFormat.pure SourceFile.mk).ap
    (.optional "filePath" "" readText)).ap
    (.optional "members" [] (readNodes .streamed room))

/-- The document of a file. -/
def SourceFile.toDoc (f : SourceFile) : Doc :=
  .ofFields [("filePath", .ofString f.path), ("members", .ofList (declsToDocs f.members))]

/-- Read a file, itself of height at most `room`. -/
def SourceFile.ofDoc (room : Nat) (d : Doc) : Except Problem SourceFile :=
  (SourceFile.format (room - 1)).read .streamed "SyntaxTree" d

/-- The fields of a compilation, whose list of files has height at most `room`. -/
def Compilation.format (room : Nat) : RecordFormat Compilation :=
  (RecordFormat.pure Compilation.mk).ap
    (.required "trees" (readList (SourceFile.ofDoc (room - 1))))

/-- Read a compilation, itself of height at most `allowance`. -/
def Compilation.ofDoc (allowance : Nat) (d : Doc) : Except Problem Compilation :=
  (Compilation.format (allowance - 1)).read .streamed "Compilation" d

/-- The document of a compilation. -/
def Compilation.toDoc (c : Compilation) : Doc :=
  .ofFields [("trees", .ofList (c.files.map SourceFile.toDoc))]

/-- Read a compilation from text. -/
def Compilation.ofText (text : String) : Except Problem Compilation :=
  (Document.ofText text).decode (Compilation.ofDoc nestingAllowance)

end SceneWiring
