import SceneWiring.Declaration.Document
import SceneWiring.Options
import SceneWiring.Proofs.Json.Formats

/-!
# Documents round-trip

Every declaration, every compilation and all options are read back from their documents, however
the strings in these are spelled, and by that every text that is read as such a document.  Nodes
are kept before they are read, and read with an allowance for the containers that nest in them, so
that the documents have to fit the allowance.

Main results:

- Theorem `Decl.keeps_toFields`: the values of the fields of a declaration are kept.
- Theorem `readNode_toDoc`: a declaration is read back if its document fits the allowance.
- Theorem `documents_round_trip`: so are compilations and options.
-/

namespace SceneWiring

open Json

variable {σ : Spelling}

/-! ## Records without nested nodes -/

section

variable (σ)

/-- The fields of a place are read back. -/
theorem Location.reads (l : Location) :
    Location.format.Reads σ
      [("line", .ofNat l.line.toNat), ("column", .ofNat l.column.toNat)] l :=
  ((RecordFormat.Reads.pure _).ap (.required (readWord32_ofNat _))).ap
    (.required (readWord32_ofNat _))

/-- A place is read back. -/
theorem Location.ofDoc_toDoc (l : Location) : Location.ofDoc (l.toDoc.respell σ) = .ok l :=
  (l.reads σ).read (by simp) .buffered _

/-- A text that may be absent is read back. -/
theorem readOptional_optionToDoc (s? : Option String) :
    readOptional readText ((optionToDoc s?).respell σ) = .ok s? := by
  have hdoc : optionToDoc s? = (s?.map Doc.ofString).getD .null := by cases s? <;> rfl
  rw [hdoc]
  exact readOptional_ofString readText_ofString s?

/-- A list of texts is read back. -/
theorem readList_textsToDoc (ss : List String) :
    readList readText ((textsToDoc ss).respell σ) = .ok ss :=
  readList_ofList fun s _ => readText_ofString s

/-- An argument is read back, with its name if it has one. -/
theorem AttributeArgument.ofDoc_toDoc (a : AttributeArgument) :
    AttributeArgument.ofDoc (a.toDoc.respell σ) = .ok a := by
  have hreads : AttributeArgument.format.Reads σ
      [("name", optionToDoc a.name), ("value", .ofString a.value)] a :=
    ((RecordFormat.Reads.pure _).ap (.optional (readOptional_optionToDoc σ _))).ap
      (.required (readText_ofString _))
  exact hreads.read (by simp) .buffered _

/-- An attribute is read back with its arguments. -/
theorem Attribute.ofDoc_toDoc (a : Attribute) : Attribute.ofDoc (a.toDoc.respell σ) = .ok a := by
  have hreads : Attribute.format.Reads σ
      [("name", .ofString a.name),
        ("arguments", .ofList (a.arguments.map AttributeArgument.toDoc))] a :=
    ((RecordFormat.Reads.pure _).ap (.required (readText_ofString _))).ap
      (.optional (readList_ofList fun argument _ => argument.ofDoc_toDoc σ))
  exact hreads.read (by simp) .buffered _

/-- A list of attributes is read back. -/
theorem readList_attributesToDoc (attributes : List Attribute) :
    readList Attribute.ofDoc ((attributesToDoc attributes).respell σ) = .ok attributes :=
  readList_ofList fun a _ => a.ofDoc_toDoc σ

/-- The fields of a using directive are read back. -/
theorem UsingDirective.reads (u : UsingDirective) :
    UsingDirective.format.Reads σ u.toFields u :=
  ((((RecordFormat.Reads.pure _).ap (.required (readText_ofString _))).ap
    (.optional (readOptional_optionToDoc σ _))).ap (.optional (readFlag_bool _))).ap
    (.optional (u.location.ofDoc_toDoc σ))

/-- The fields of a field declaration are read back. -/
theorem FieldDecl.reads (f : FieldDecl) : FieldDecl.format.Reads σ f.toFields f :=
  (((((RecordFormat.Reads.pure _).ap (.required (readText_ofString _))).ap
    (.required (readList_textsToDoc σ _))).ap (.optional (readList_textsToDoc σ _))).ap
    (.optional (readList_attributesToDoc σ _))).ap (.optional (f.location.ofDoc_toDoc σ))

/-- The fields of a property declaration are read back. -/
theorem PropertyDecl.reads (p : PropertyDecl) : PropertyDecl.format.Reads σ p.toFields p :=
  ((((((RecordFormat.Reads.pure _).ap (.required (readText_ofString _))).ap
    (.required (readText_ofString _))).ap (.optional (readList_textsToDoc σ _))).ap
    (.optional (readList_attributesToDoc σ _))).ap (.optional (readFlag_bool _))).ap
    (.optional (p.location.ofDoc_toDoc σ))

/-- The fields of a method declaration are read back. -/
theorem MethodDecl.reads (m : MethodDecl) : MethodDecl.format.Reads σ m.toFields m :=
  (((RecordFormat.Reads.pure _).ap (.required (readText_ofString _))).ap
    (.optional (readList_attributesToDoc σ _))).ap (.optional (m.location.ofDoc_toDoc σ))

end

/-! ## Kept documents -/

/-- A place is kept, since its line and its column fit a word. -/
theorem Location.keeps_toDoc (l : Location) : l.toDoc.Keeps :=
  Doc.keeps_ofFields (by simp [Doc.keeps_ofNat, Number.toNat_le_maxWord])

/-- A text that may be absent is kept. -/
theorem keeps_optionToDoc (s? : Option String) : (optionToDoc s?).Keeps := by
  cases s? with
  | none => exact Doc.keeps_null
  | some s => exact Doc.keeps_ofString s

/-- A list of texts is kept. -/
theorem keeps_textsToDoc (ss : List String) : (textsToDoc ss).Keeps := by
  apply Doc.keeps_ofList
  simp [Doc.keeps_ofString]

/-- An argument is kept. -/
theorem AttributeArgument.keeps_toDoc (a : AttributeArgument) : a.toDoc.Keeps :=
  Doc.keeps_ofFields (by simp [keeps_optionToDoc, Doc.keeps_ofString])

/-- A list of attributes is kept. -/
theorem keeps_attributesToDoc (attributes : List Attribute) :
    (attributesToDoc attributes).Keeps := by
  have hattribute : ∀ a : Attribute, a.toDoc.Keeps := by
    intro a
    have harguments : (Doc.ofList (a.arguments.map AttributeArgument.toDoc)).Keeps :=
      Doc.keeps_ofList (by simp [AttributeArgument.keeps_toDoc])
    exact Doc.keeps_ofFields (by simp [Doc.keeps_ofString, harguments])
  exact Doc.keeps_ofList (by simp [hattribute])

/-- The values of the fields of a using directive are kept. -/
theorem UsingDirective.keeps_toFields (u : UsingDirective) :
    ∀ field ∈ u.toFields, field.2.Keeps := by
  simp [toFields, Doc.keeps_ofString, Doc.keeps_bool, keeps_optionToDoc, Location.keeps_toDoc]

/-- The values of the fields of a field declaration are kept. -/
theorem FieldDecl.keeps_toFields (f : FieldDecl) : ∀ field ∈ f.toFields, field.2.Keeps := by
  simp [toFields, Doc.keeps_ofString, keeps_textsToDoc, keeps_attributesToDoc,
    Location.keeps_toDoc]

/-- The values of the fields of a property declaration are kept. -/
theorem PropertyDecl.keeps_toFields (p : PropertyDecl) : ∀ field ∈ p.toFields, field.2.Keeps := by
  simp [toFields, Doc.keeps_ofString, Doc.keeps_bool, keeps_textsToDoc, keeps_attributesToDoc,
    Location.keeps_toDoc]

/-- The values of the fields of a method declaration are kept. -/
theorem MethodDecl.keeps_toFields (m : MethodDecl) : ∀ field ∈ m.toFields, field.2.Keeps := by
  simp [toFields, Doc.keeps_ofString, keeps_attributesToDoc, Location.keeps_toDoc]

/-! ## Nodes -/

/-- The fields of a node but for its kind, written out. -/
def Decl.toFields : Decl → List (String × Doc)
  | .scope head members =>
    [("name", .ofString head.name), ("members", .ofList (declsToDocs members)),
      ("location", head.location.toDoc)]
  | .type part members =>
    [("name", .ofString part.name), ("modifiers", textsToDoc part.modifiers),
      ("typeParameters", textsToDoc part.typeParameters),
      ("members", .ofList (declsToDocs members)), ("location", part.location.toDoc)]
  | .member (.field f) => f.toFields
  | .member (.property p) => p.toFields
  | .member (.method m) => m.toFields
  | .directive u => u.toFields
  | .unknown => []

/-- The name of the kind of a node. -/
def Decl.kindName : Decl → String
  | .scope _ _ => "namespace"
  | .type _ _ => "class"
  | .member (.field _) => "field"
  | .member (.property _) => "property"
  | .member (.method _) => "method"
  | .directive _ => "using"
  | .unknown => "unknown"

/-- The kind of a node. -/
def Decl.kind : Decl → NodeKind
  | .scope _ _ => .scope
  | .type _ _ => .type
  | .member (.field _) => .field
  | .member (.property _) => .property
  | .member (.method _) => .method
  | .directive _ => .directive
  | .unknown => .unknown

/-- Every kind is found under its name. -/
theorem Decl.ofName_kindName (d : Decl) : NodeKind.ofName d.kindName = d.kind := by
  cases d with
  | member m => cases m <;> rfl
  | scope _ _ => rfl
  | type _ _ => rfl
  | directive _ => rfl
  | unknown => rfl

/-- A node is written as its kind and then its other fields. -/
theorem Decl.toDoc_eq (d : Decl) :
    d.toDoc = .ofFields (("kind", .ofString d.kindName) :: d.toFields) := by
  cases d with
  | scope head members => rw [toDoc, kindName, toFields]
  | type part members => rw [toDoc, kindName, toFields]
  | member m => cases m <;> rw [toDoc, kindName, toFields]
  | directive u => rw [toDoc, kindName, toFields]
  | unknown => rw [toDoc, kindName, toFields]

/-- No field of a node but its kind has the name of the kind, and no two have the same name. -/
theorem Decl.nodup_toFields (d : Decl) :
    (d.toFields.map Prod.fst).Nodup ∧ "kind" ∉ d.toFields.map Prod.fst := by
  cases d with
  | scope head members => simp [toFields]
  | type part members => simp [toFields]
  | member m =>
      cases m <;>
        simp [toFields, FieldDecl.toFields, PropertyDecl.toFields, MethodDecl.toFields]
  | directive u => simp [toFields, UsingDirective.toFields]
  | unknown => simp [toFields]

mutual

/-- The values of the fields of a declaration are kept. -/
theorem Decl.keeps_toFields : ∀ d : Decl, ∀ field ∈ d.toFields, field.2.Keeps
  | .scope head members => by
      have hmembers : (Doc.ofList (declsToDocs members)).Keeps :=
        Doc.keeps_ofList (keeps_declsToDocs members)
      simp [Decl.toFields, Doc.keeps_ofString, hmembers, Location.keeps_toDoc]
  | .type part members => by
      have hmembers : (Doc.ofList (declsToDocs members)).Keeps :=
        Doc.keeps_ofList (keeps_declsToDocs members)
      simp [Decl.toFields, Doc.keeps_ofString, keeps_textsToDoc, hmembers, Location.keeps_toDoc]
  | .member (.field f) => f.keeps_toFields
  | .member (.property p) => p.keeps_toFields
  | .member (.method m) => m.keeps_toFields
  | .directive u => u.keeps_toFields
  | .unknown => by simp [Decl.toFields]

/-- The documents of declarations are kept. -/
theorem keeps_declsToDocs : ∀ ds : List Decl, ∀ doc ∈ declsToDocs ds, doc.Keeps
  | [] => by simp [declsToDocs]
  | d :: ds => by
      have hd : d.toDoc.Keeps := by
        rw [d.toDoc_eq]
        exact Doc.keeps_ofFields
          (List.forall_mem_cons.mpr ⟨Doc.keeps_ofString _, d.keeps_toFields⟩)
      rw [declsToDocs]
      exact List.forall_mem_cons.mpr ⟨hd, keeps_declsToDocs ds⟩

end

/-! ### Kinds -/

/-- What is kept from the text is kept if its height fits. -/
theorem keepStreamed_of_keeps {d : Doc} (h : d.Keeps) (layer : RecordFormat.Layer) {room : Nat}
    (hheight : d.height ≤ room) : keepStreamed layer room (d.respell σ) = .ok () := by
  cases layer with
  | streamed => exact h σ room hheight
  | buffered => rfl

/-- Fields after the kind are split off as they are. -/
theorem splitFields_written (layer : RecordFormat.Layer) {room : Nat} (kind : Option NodeKind)
    {fields : List (String × Doc)} (hkind : "kind" ∉ fields.map Prod.fst)
    (hkeeps : ∀ field ∈ fields, field.2.Keeps)
    (hheights : ∀ field ∈ fields, field.2.height ≤ room) :
    splitFields layer room kind (writtenFields σ fields) =
      .ok (kind, writtenFields σ fields) := by
  induction fields with
  | nil => rfl
  | cons field fields ih =>
      rw [List.forall_mem_cons] at hkeeps hheights
      rw [List.map_cons, List.mem_cons, not_or] at hkind
      rw [writtenFields, List.map_cons, splitFields, text_token_ofString]
      change (if field.1 = "kind" then _ else _) = _
      rw [if_neg (Ne.symm hkind.1), keepStreamed_of_keeps hkeeps.1 layer hheights.1]
      change (splitFields layer room kind (writtenFields σ fields) >>= _) = _
      rw [ih hkind.2 hkeeps.2 hheights.2]
      rfl

/-- A written node is split into its kind and its other fields. -/
theorem splitNode_toDoc (d : Decl) (layer : RecordFormat.Layer) {room : Nat}
    (hheight : d.toDoc.height ≤ room + 1) :
    splitNode layer room (d.toDoc.respell σ) =
      .ok (d.kind, .fields (writtenFields σ d.toFields)) := by
  rw [d.toDoc_eq] at hheight ⊢
  have hheights := (List.forall_mem_cons.mp (Doc.height_ofFields_le_iff.mp hheight)).2
  have hkind : splitFields layer room none
      (writtenFields σ (("kind", .ofString d.kindName) :: d.toFields)) =
        splitFields layer room (some d.kind) (writtenFields σ d.toFields) := by
    rw [writtenFields, List.map_cons, splitFields, text_token_ofString]
    change (NodeKind.ofDoc layer ((Doc.ofString d.kindName).respell σ) >>= _) = _
    rw [Doc.ofString, Doc.respell, NodeKind.ofDoc, text_token_ofString, ← d.ofName_kindName]
    rfl
  rw [respell_ofFields, splitNode, hkind,
    splitFields_written layer _ d.nodup_toFields.2 d.keeps_toFields hheights]
  rfl

/-! ### Contents -/

/-- A list of nodes is read if its items are. -/
theorem readNodes_ofList {layer : RecordFormat.Layer} {room : Nat} {ds : List Decl}
    (hheight : (Doc.ofList (declsToDocs ds)).height ≤ room)
    (h : ∀ room, (∀ doc ∈ declsToDocs ds, doc.height ≤ room) →
      ((declsToDocs ds).map (Doc.respell σ)).mapM (readNode layer room) = .ok ds) :
    readNodes layer room ((Doc.ofList (declsToDocs ds)).respell σ) = .ok ds := by
  cases room with
  | zero => exact absurd hheight (by simp [Doc.ofList, Doc.height])
  | succ room =>
      rw [respell_ofList, Doc.ofList, readNodes, h room (Doc.height_ofList_le_iff.mp hheight)]
      rfl

/-- A written node is read by the reader of its kind. -/
theorem readNode_eq_readBody (d : Decl) (layer : RecordFormat.Layer) {room : Nat}
    (hheight : d.toDoc.height ≤ room + 1) :
    readNode layer (room + 1) (d.toDoc.respell σ) =
      d.kind.readBody (readNodes .buffered room) (.fields (writtenFields σ d.toFields)) := by
  rw [readNode, splitNode_toDoc d layer hheight]
  rfl

/-- A node is read back if its fields are read by the format of its kind. -/
theorem readNode_of_reads {α : Type} {d : Decl} {f : RecordFormat α} {a : α} {make : α → Decl}
    (layer : RecordFormat.Layer) {room : Nat} (hheight : d.toDoc.height ≤ room + 1)
    (hbody : ∀ fs, d.kind.readBody (readNodes .buffered room) (.fields fs) =
      make <$> f.readFields fs .closed)
    (hreads : f.Reads σ d.toFields a) (hmake : make a = d) :
    readNode layer (room + 1) (d.toDoc.respell σ) = .ok d := by
  rw [readNode_eq_readBody d layer hheight, hbody, hreads.readFields d.nodup_toFields.1]
  exact congrArg Except.ok hmake

/-- The members of a node fit what is left of the allowance. -/
theorem Decl.height_members_le {d : Decl} {members : List Decl} {room : Nat}
    (hheight : d.toDoc.height ≤ room + 1)
    (hmem : ("members", Doc.ofList (declsToDocs members)) ∈ d.toFields) :
    (Doc.ofList (declsToDocs members)).height ≤ room := by
  rw [d.toDoc_eq] at hheight
  exact Doc.height_ofFields_le_iff.mp hheight _ (List.mem_cons_of_mem _ hmem)

mutual

/-- A declaration is read back if its document fits the allowance. -/
theorem readNode_toDoc : ∀ (d : Decl) (layer : RecordFormat.Layer) (room : Nat),
    d.toDoc.height ≤ room → readNode layer room (d.toDoc.respell σ) = .ok d
  | d, layer, 0, h => absurd h (by rw [d.toDoc_eq]; simp [Doc.ofFields, Doc.height])
  | .scope head members, layer, room + 1, h => by
      have hmembers : readNodes .buffered room ((Doc.ofList (declsToDocs members)).respell σ) =
          .ok members :=
        readNodes_ofList (Decl.height_members_le h (by simp [Decl.toFields]))
          fun room => mapM_readNode members .buffered room
      have hreads : (scopeFormat (readNodes .buffered room)).Reads σ
          (Decl.scope head members).toFields (.scope head members) :=
        (((RecordFormat.Reads.pure _).ap (.required (readText_ofString _))).ap
          (.optional hmembers)).ap (.optional (head.location.ofDoc_toDoc σ))
      exact readNode_of_reads layer h (fun _ => (id_map _).symm) hreads rfl
  | .type part members, layer, room + 1, h => by
      have hmembers : readNodes .buffered room ((Doc.ofList (declsToDocs members)).respell σ) =
          .ok members :=
        readNodes_ofList (Decl.height_members_le h (by simp [Decl.toFields]))
          fun room => mapM_readNode members .buffered room
      have hreads : (typeFormat (readNodes .buffered room)).Reads σ
          (Decl.type part members).toFields (part, members) :=
        (((((RecordFormat.Reads.pure _).ap (.required (readText_ofString _))).ap
          (.optional (readList_textsToDoc σ _))).ap (.optional (readList_textsToDoc σ _))).ap
          (.optional hmembers)).ap (.optional (part.location.ofDoc_toDoc σ))
      exact readNode_of_reads layer h (fun _ => rfl) hreads rfl
  | .member (.field f), layer, room + 1, h =>
      readNode_of_reads layer h (fun _ => rfl) (f.reads σ) rfl
  | .member (.property p), layer, room + 1, h =>
      readNode_of_reads layer h (fun _ => rfl) (p.reads σ) rfl
  | .member (.method m), layer, room + 1, h =>
      readNode_of_reads layer h (fun _ => rfl) (m.reads σ) rfl
  | .directive u, layer, room + 1, h =>
      readNode_of_reads layer h (fun _ => rfl) (u.reads σ) rfl
  | .unknown, layer, room + 1, h => by
      rw [readNode_eq_readBody _ layer h]
      rfl

/-- So are declarations whose documents all fit. -/
theorem mapM_readNode : ∀ (ds : List Decl) (layer : RecordFormat.Layer) (room : Nat),
    (∀ doc ∈ declsToDocs ds, doc.height ≤ room) →
      ((declsToDocs ds).map (Doc.respell σ)).mapM (readNode layer room) = .ok ds
  | [], layer, room, h => rfl
  | d :: ds, layer, room, h => by
      rw [declsToDocs, List.forall_mem_cons] at h
      rw [declsToDocs, List.map_cons, List.mapM_cons, readNode_toDoc d layer room h.1,
        mapM_readNode ds layer room h.2]
      rfl

end

/-! ## Files, compilations and options -/

/-- A file is read back if its document fits the allowance. -/
theorem SourceFile.ofDoc_toDoc (f : SourceFile) {room : Nat} (h : f.toDoc.height ≤ room) :
    SourceFile.ofDoc room (f.toDoc.respell σ) = .ok f := by
  cases room with
  | zero => exact absurd h (by simp [toDoc, Doc.ofFields, Doc.height])
  | succ room =>
      have hheight : (Doc.ofList (declsToDocs f.members)).height ≤ room :=
        Doc.height_ofFields_le_iff.mp h _ (List.mem_cons_of_mem _ List.mem_cons_self)
      have hmembers : readNodes .streamed room
          ((Doc.ofList (declsToDocs f.members)).respell σ) = .ok f.members :=
        readNodes_ofList hheight fun room => mapM_readNode f.members .streamed room
      have hreads : (SourceFile.format room).Reads σ
          [("filePath", .ofString f.path), ("members", .ofList (declsToDocs f.members))] f :=
        ((RecordFormat.Reads.pure _).ap (.optional (readText_ofString _))).ap (.optional hmembers)
      exact hreads.read (by simp) .streamed _

/-- A compilation is read back if its document fits the allowance. -/
theorem Compilation.ofDoc_toDoc (c : Compilation) {allowance : Nat}
    (h : c.toDoc.height ≤ allowance) :
    Compilation.ofDoc allowance (c.toDoc.respell σ) = .ok c := by
  cases allowance with
  | zero => exact absurd h (by simp [toDoc, Doc.ofFields, Doc.height])
  | succ room =>
      have hheight : (Doc.ofList (c.files.map SourceFile.toDoc)).height ≤ room :=
        Doc.height_ofFields_le_iff.mp h _ List.mem_cons_self
      have hfiles : readList (SourceFile.ofDoc (room - 1))
          ((Doc.ofList (c.files.map SourceFile.toDoc)).respell σ) = .ok c.files := by
        cases room with
        | zero => exact absurd hheight (by simp [Doc.ofList, Doc.height])
        | succ room =>
            apply readList_ofList
            intro f hf
            exact f.ofDoc_toDoc (Doc.height_ofList_le_iff.mp hheight _ (List.mem_map_of_mem hf))
      have hreads : (Compilation.format room).Reads σ
          [("trees", .ofList (c.files.map SourceFile.toDoc))] c :=
        (RecordFormat.Reads.pure _).ap (.required hfiles)
      exact hreads.read (by simp) .streamed _

/-- Options are read back. -/
theorem Options.ofDoc_toDoc (o : Options) : Options.ofDoc (o.toDoc.respell σ) = .ok o := by
  have hreads : Options.format.Reads σ
      [("collectionMarker", .ofString o.collectionMarker), ("initHook", .ofString o.initHook),
        ("playHook", .ofString o.playHook), ("logPath", (o.logPath.map Doc.ofString).getD .null),
        ("requirePartial", .bool o.requirePartial), ("parallel", .bool o.parallel)] o :=
    ((((((RecordFormat.Reads.pure _).ap (.optional (readText_ofString _))).ap
      (.optional (readText_ofString _))).ap (.optional (readText_ofString _))).ap
      (.optional (readOptional_ofString (readTextAs_ofString _) _))).ap
      (.optional (readFlag_bool _))).ap (.optional (readFlag_bool _))
  exact hreads.read (by simp) .streamed _

/-- A text that is read as a whole document is decoded like the document. -/
theorem decode_of_ofText {α : Type} {text : String} {d : Doc} (h : Document.ofText text = ⟨d, false⟩)
    (read : Doc → Except Problem α) : (Document.ofText text).decode read = read d := by
  rw [h, Document.decode]
  cases read d <;> rfl

/-- Compilations and options are read back from their documents, and from all texts that are read
as these, however the strings are spelled; compilations are so if the height of the document fits
the allowance for nesting.  What a document is read as is written as a document from which the
same is read, and which stays as it is if this is repeated. -/
theorem documents_round_trip (σ : Spelling) :
    (∀ (c : Compilation) (allowance : Nat), c.toDoc.height ≤ allowance →
      Compilation.ofDoc allowance (c.toDoc.respell σ) = .ok c) ∧
    (∀ o : Options, Options.ofDoc (o.toDoc.respell σ) = .ok o) ∧
    (∀ (c : Compilation) (text : String), c.toDoc.height ≤ nestingAllowance →
      Document.ofText text = ⟨c.toDoc.respell σ, false⟩ → Compilation.ofText text = .ok c) ∧
    (∀ (o : Options) (text : String),
      Document.ofText text = ⟨o.toDoc.respell σ, false⟩ → Options.ofText text = .ok o) ∧
    (∀ (d normal : Doc) (allowance : Nat),
      (Compilation.ofDoc allowance d).map Compilation.toDoc = .ok normal →
      normal.height ≤ allowance →
        Compilation.ofDoc allowance (normal.respell σ) = Compilation.ofDoc allowance d ∧
        (Compilation.ofDoc allowance (normal.respell σ)).map Compilation.toDoc = .ok normal) ∧
    (∀ d normal : Doc, (Options.ofDoc d).map Options.toDoc = .ok normal →
      Options.ofDoc (normal.respell σ) = Options.ofDoc d ∧
      (Options.ofDoc (normal.respell σ)).map Options.toDoc = .ok normal) := by
  refine ⟨fun c _ h => c.ofDoc_toDoc h, fun o => o.ofDoc_toDoc, ?_, ?_, ?_, ?_⟩
  · intro c text hheight htext
    rw [Compilation.ofText, decode_of_ofText htext]
    exact c.ofDoc_toDoc hheight
  · intro o text htext
    rw [Options.ofText, decode_of_ofText htext]
    exact o.ofDoc_toDoc
  · intro d normal allowance hnormal hheight
    cases hread : Compilation.ofDoc allowance d with
    | error p =>
        rw [hread] at hnormal
        exact absurd hnormal (by simp [Except.map])
    | ok c =>
        rw [hread] at hnormal
        obtain rfl : c.toDoc = normal := Except.ok.inj hnormal
        rw [c.ofDoc_toDoc hheight]
        exact ⟨rfl, rfl⟩
  · intro d normal hnormal
    cases hread : Options.ofDoc d with
    | error p =>
        rw [hread] at hnormal
        exact absurd hnormal (by simp [Except.map])
    | ok o =>
        rw [hread] at hnormal
        obtain rfl : o.toDoc = normal := Except.ok.inj hnormal
        rw [o.ofDoc_toDoc]
        exact ⟨rfl, rfl⟩

/-- A file with declarations of all kinds, in namespaces that nest. -/
def manorFile : SourceFile where
  path := "Manor.cs"
  members :=
    [.directive ⟨"Furniture.Doors", some "Doors", false, ⟨1, 1⟩⟩,
     .scope ⟨"Game", ⟨3, 1⟩⟩
      [.scope ⟨"Houses", ⟨4, 3⟩⟩
        [.type ⟨"Manor", ["public", "partial"], ["T"], ⟨5, 5⟩⟩
          [.member (.field ⟨"Door", ["front", "back"], ["private"],
            [⟨"Get", [⟨none, "\"Hall\""⟩, ⟨some "Mode", "Any"⟩]⟩, ⟨"Optional", []⟩], ⟨6, 7⟩⟩),
           .member (.property ⟨"Bag<Door>", "Doors", [], [⟨"GetAll", []⟩], false, .unknown⟩),
           .member (.method ⟨"Enter", [], ⟨9, 7⟩⟩),
           .unknown]]]]

/-- A compilation of that file. -/
def manor : Compilation :=
  ⟨[manorFile]⟩

/-- Options none of which is the default. -/
def manorOptions : Options where
  collectionMarker := "Bag"
  initHook := "Init"
  playHook := "Play"
  logPath := some "Manor.log"
  requirePartial := true
  parallel := false

/-- A compilation of one file with a node of an unknown kind. -/
def unknownNode : Compilation :=
  ⟨[⟨"Door.cs", [.unknown]⟩]⟩

-- The text of the options has more characters than the default depth allows for.
set_option maxRecDepth 2000 in
/-- The manor and its options are read back from their documents, and the unknown node and the
options from texts of theirs.  Documents that leave out the names of fields, or whole fields, are
read like the ones in which all is written. -/
theorem manor_round_trip :
    manor.toDoc.height ≤ nestingAllowance ∧ unknownNode.toDoc.height ≤ nestingAllowance ∧
      Compilation.ofDoc nestingAllowance manor.toDoc = .ok manor ∧
      Options.ofDoc manorOptions.toDoc = .ok manorOptions ∧
      Compilation.ofText
        ("\x7b\"trees\":[\x7b\"filePath\":\"Door.cs\"," ++
          "\"members\":[\x7b\"kind\":\"unknown\"\x7d]\x7d]\x7d") = .ok unknownNode ∧
      Options.ofText
        ("\x7b\"collectionMarker\":\"Bag\",\"initHook\":\"Init\",\"playHook\":\"Play\"," ++
          "\"logPath\":\"Manor.log\",\"requirePartial\":true,\"parallel\":false\x7d") =
        .ok manorOptions ∧
      Compilation.ofDoc nestingAllowance unknownNode.toDoc =
        Compilation.ofDoc nestingAllowance
          (.ofList [.ofList [.ofList
            [.ofString "Door.cs", .ofList [.ofList [.ofString "unknown"]]]]]) ∧
      Options.ofDoc Options.default.toDoc = Options.ofDoc (.ofFields []) := by
  have hmanor : manor.toDoc.height ≤ nestingAllowance := by decide
  have hunknown : unknownNode.toDoc.height ≤ nestingAllowance := by decide
  rcases documents_round_trip .plain with
    ⟨hcompilation, hoptions, htext, hoptionsText, hnormal, hoptionsNormal⟩
  simp only [Doc.respell_plain] at hcompilation hoptions htext hoptionsText hnormal hoptionsNormal
  refine ⟨hmanor, hunknown, hcompilation _ _ hmanor, hoptions _, htext _ _ hunknown ?_,
    hoptionsText _ _ ?_, (hnormal _ _ _ ?_ hunknown).1, (hoptionsNormal _ _ ?_).1⟩
  · with_unfolding_all rfl
  · with_unfolding_all rfl
  · with_unfolding_all rfl
  · rfl

end SceneWiring
