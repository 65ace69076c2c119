import SceneWiring.Proofs.Header.Merging
import SceneWiring.Proofs.Report.Blocks
import SceneWiring.Proofs.Scan.Naming

/-!
# Files that declare what a unit declares

The code of a unit is itself a file that a compiler reads: it declares further parts of a
type and of the types around it, in their namespace, and a method without attributes.  A file
reopens a type if it declares just that, wherever its declarations stand.  Printing such a
file, with the statements put into its method, gives the text of the unit.

Main results:

- Definition `SourceFile.Reopens`: a file that declares what the unit of a type declares.
- Theorem `EnclosingType.reopens_reopening`: there are such files.
- Theorem `Reopens.code_eq`: printing it gives the text of the unit.
- Theorem `Reopens.exists_of_mem_parts`: the parts in such a file and their keys.
-/

namespace SceneWiring

/-! ## Parts inside parts -/

/-- A declaration inside parts, one in the other, that repeat headers, outermost first. -/
inductive Nested (d : Decl) : List Header → Decl → Prop
  | here : Nested d [] d
  | inside {h : Header} {headers : List Header} {part : TypePart} {nest : Decl}
      (repeats : part.Repeats h) (rest : Nested d headers nest) :
      Nested d (h :: headers) (.type part [nest])

/-- The method that a unit declares. -/
def hookDecl (hook : String) (location : Location) : Decl :=
  .member (.method ⟨hook, [], location⟩)

/-- A file that declares what the unit of a type declares. -/
def SourceFile.Reopens (t : EnclosingType) (hook : String) (f : SourceFile) : Prop :=
  ∃ (directives : List UsingDirective) (nest : Decl) (location location' : Location),
    directives.map UsingDirective.render = mergeUsings t.usings ∧
    Nested (hookDecl hook location') (t.containers ++ [t.header]) nest ∧
    f.members = directives.map Decl.directive ++
      [if t.path.isEmpty then nest else .scope ⟨t.path, location⟩ [nest]]

/-- The part that repeats a header. -/
def Header.repetition (h : Header) (location : Location) : TypePart where
  name := h.name
  modifiers := declaredModifiers h.accessibility h.isSealed
  typeParameters := h.typeParameters
  location := location

/-- A file that reopens a type, without the places of its declarations. -/
def EnclosingType.reopening (t : EnclosingType) (hook path : String)
    (directives : List UsingDirective) : SourceFile :=
  let nest := (t.containers ++ [t.header]).foldr
    (fun h inner => .type (h.repetition .unknown) [inner]) (hookDecl hook .unknown)
  { path := path
    members := directives.map Decl.directive ++
      [if t.path.isEmpty then nest else .scope ⟨t.path, .unknown⟩ [nest]] }

theorem Nested.foldr_repetition (d : Decl) (headers : List Header) :
    Nested d headers
      (headers.foldr (fun h inner => .type (h.repetition .unknown) [inner]) d) := by
  induction headers with
  | nil => exact .here
  | cons h headers ih => exact .inside ⟨rfl, rfl, rfl⟩ ih

/-- Such a file reopens the type if it has the right using directives. -/
theorem EnclosingType.reopens_reopening {t : EnclosingType} {directives : List UsingDirective}
    (h : directives.map UsingDirective.render = mergeUsings t.usings) (hook path : String) :
    (t.reopening hook path directives).Reopens t hook :=
  ⟨directives, _, .unknown, .unknown, h, Nested.foldr_repetition _ _, rfl⟩

/-! ## Printing -/

/-- The header of a part as it is written. -/
def TypePart.render (part : TypePart) : String :=
  let parameters :=
    if part.typeParameters.isEmpty then ""
    else "<" ++ ", ".intercalate part.typeParameters ++ ">"
  " ".intercalate part.modifiers ++ " class " ++ part.name ++ parameters

mutual

/-- The steps of a declaration in code, with the given statements in its methods. -/
def Decl.steps (statements : List String) : Decl → List Step
  | .scope head members =>
    .opening ("namespace " ++ head.name) :: Decl.stepsAll statements members ++ [.closing]
  | .type part members =>
    .opening part.render :: Decl.stepsAll statements members ++ [.closing]
  | .member (.method m) =>
    .opening ("private void " ++ m.name ++ "()") :: statements.map Step.line ++ [.closing]
  | .member (.field _) => []
  | .member (.property _) => []
  | .directive _ => []
  | .unknown => []

/-- The steps of declarations one after the other. -/
def Decl.stepsAll (statements : List String) : List Decl → List Step
  | [] => []
  | d :: ds => d.steps statements ++ Decl.stepsAll statements ds

end

/-- The code of a file, with the given statements in its methods. -/
def SourceFile.code (statements : List String) (f : SourceFile) : String :=
  textOfLines (layOut 0
    (.line "// <auto-generated/>" :: (f.usings.map UsingDirective.render).map Step.line ++
      [.blank] ++ Decl.stepsAll statements f.members))

/-- A part that repeats a header is written like the header. -/
theorem TypePart.Repeats.render_eq {h : Header} {part : TypePart} (hpart : part.Repeats h) :
    part.render = h.render := by
  have hmodifiers : " ".intercalate (declaredModifiers h.accessibility h.isSealed) ++ " class " =
      h.accessibility.keyword ++ (if h.isSealed then " sealed" else "") ++ " partial class " := by
    cases h.accessibility <;> cases h.isSealed <;> decide
  rw [render, Header.render, hpart.name, hpart.modifiers, hpart.typeParameters, hmodifiers]

/-- Parts inside each other are printed as blocks inside each other. -/
theorem Nested.steps_eq {d nest : Decl} {headers : List Header} (h : Nested d headers nest)
    (statements : List String) :
    nest.steps statements = inBlocks (headers.map Header.render) (d.steps statements) := by
  induction h with
  | here => simp [inBlocks]
  | inside repeats rest ih =>
      rw [Decl.steps, Decl.stepsAll, Decl.stepsAll, List.append_nil, ih, repeats.render_eq,
        List.map_cons, inBlocks_cons]

/-- A hook inside parts is no using directive. -/
theorem Nested.usings_eq_nil {hook : String} {location : Location} {headers : List Header}
    {nest : Decl} (h : Nested (hookDecl hook location) headers nest) (path : String) :
    (⟨path, [nest]⟩ : SourceFile).usings = [] := by
  cases h with
  | here => rfl
  | inside repeats rest => rfl

/-- A file with using directives in front has these and those of the others. -/
theorem SourceFile.usings_append (path : String) (directives : List UsingDirective)
    (others : List Decl) :
    (⟨path, directives.map Decl.directive ++ others⟩ : SourceFile).usings =
      directives ++ (⟨path, others⟩ : SourceFile).usings := by
  simp [usings, List.filterMap_append, List.filterMap_map]

/-- Using directives are not printed among the declarations of a file. -/
theorem Decl.stepsAll_append_directives (statements : List String)
    (directives : List UsingDirective) (others : List Decl) :
    Decl.stepsAll statements (directives.map Decl.directive ++ others) =
      Decl.stepsAll statements others := by
  induction directives with
  | nil => rfl
  | cons u directives ih =>
      rw [List.map_cons, List.cons_append, stepsAll, steps, ih, List.nil_append]

namespace SourceFile.Reopens

variable {t : EnclosingType} {hook : String} {f : SourceFile}

/-- The using directives of the file are those of the unit. -/
theorem map_render_usings (h : f.Reopens t hook) :
    f.usings.map UsingDirective.render = mergeUsings t.usings := by
  rcases h with ⟨directives, nest, location, location', hdirectives, hnest, hmembers⟩
  have hrest : (⟨f.path, [if t.path.isEmpty then nest else .scope ⟨t.path, location⟩ [nest]]⟩ :
      SourceFile).usings = [] := by
    cases t.path.isEmpty with
    | false => rfl
    | true => exact hnest.usings_eq_nil f.path
  have husings : f.usings = directives := by
    calc
      f.usings = (⟨f.path, f.members⟩ : SourceFile).usings := rfl
      _ = directives := by rw [hmembers, usings_append, hrest, List.append_nil]
  rw [husings, hdirectives]

/-- Printing a file that reopens a type, with the statements of a unit in its method, gives
the text of the unit. -/
theorem code_eq (h : f.Reopens t hook) (fragments : List Fragment) :
    f.code (fragments.flatMap Fragment.statements) =
      textOfLines (layOut 0 (unitSteps t hook fragments)) := by
  have husings := h.map_render_usings
  rcases h with ⟨directives, nest, location, location', -, hnest, hmembers⟩
  have hheaders : blockHeaders t hook = (if t.path.isEmpty then [] else ["namespace " ++ t.path]) ++
      ((t.containers ++ [t.header]).map Header.render ++ ["private void " ++ hook ++ "()"]) := by
    simp [blockHeaders]
  have hbody : ∀ statements, Decl.stepsAll statements f.members =
      inBlocks (blockHeaders t hook) (statements.map Step.line) := by
    intro statements
    have hmethod : (hookDecl hook location').steps statements =
        inBlocks ["private void " ++ hook ++ "()"] (statements.map Step.line) := by
      rw [hookDecl, Decl.steps, inBlocks_cons]
      simp [inBlocks]
    have hinside := hnest.steps_eq statements
    rw [hmethod, ← inBlocks_append] at hinside
    rw [hmembers, Decl.stepsAll_append_directives, hheaders, inBlocks_append]
    cases t.path.isEmpty with
    | true => simp [Decl.stepsAll, hinside, inBlocks]
    | false =>
        simp only [Bool.false_eq_true, if_false]
        rw [Decl.stepsAll, Decl.steps, Decl.stepsAll, Decl.stepsAll, Decl.stepsAll, hinside,
          inBlocks_cons]
        simp [inBlocks]
  rw [code, husings, hbody, unitSteps]
  simp [inBlocks]

end SourceFile.Reopens

/-! ## Parts and their keys -/

/-- The parts around a declaration repeat the headers, and their keys are made of the names
in these. -/
theorem Nested.exists_of_mem_parts {hook : String} {location : Location} {headers : List Header}
    {nest : Decl} (h : Nested (hookDecl hook location) headers nest) {p : Place} {s : PartSite}
    (hs : s ∈ Site.partsIn (nest.sites p)) :
    ∃ outer header inner, headers = outer ++ header :: inner ∧ s.part.Repeats header ∧
      s.key = typeKey p.namespaces (p.around.map OuterType.name ++
        (outer ++ [header]).map fun header => Text.trim header.name) := by
  induction h generalizing p with
  | here => simp [hookDecl, Decl.sites] at hs
  | @inside header headers part nest repeats rest ih =>
      rw [Site.mem_partsIn_iff, Decl.sites, List.mem_cons] at hs
      rcases hs with heq | hs
      · obtain rfl : s = ⟨p, part⟩ := by simpa using heq
        refine ⟨[], header, headers, rfl, repeats, ?_⟩
        rw [PartSite.key, Place.keyOf, repeats.name]
        rfl
      · rw [Decl.sitesAll, Decl.sitesAll, List.append_nil] at hs
        rcases ih (Site.mem_partsIn_iff.mpr hs) with ⟨outer, header', inner, hheaders, hpart, hkey⟩
        refine ⟨header :: outer, header', inner, by rw [hheaders, List.cons_append], hpart, ?_⟩
        rw [hkey]
        simp [Place.enterType, repeats.name]

/-- A hook carries no strategy, so that there is no candidate. -/
theorem Nested.candidatesUnder_eq_nil {hook : String} {location : Location}
    {headers : List Header} {nest : Decl} (h : Nested (hookDecl hook location) headers nest)
    (key : String) (p : Place) : Site.candidatesUnder key (nest.sites p) = [] := by
  induction h generalizing p with
  | here =>
      have hunmarked : ∀ m : MethodDecl, m.attributes = [] → (Member.method m).isMarked = false := by
        intro m hm
        simp [Member.isMarked, Member.attributes, hm]
      rw [hookDecl, Decl.sites, Site.candidatesUnder_member, MemberSite.isCandidateUnder,
        hunmarked _ rfl]
      rfl
  | @inside header headers part nest repeats rest ih =>
      have hsites : (Decl.type part [nest]).sites p =
          [.part ⟨p, part⟩] ++ nest.sites (p.enterType part) := by
        simp [Decl.sites, Decl.sitesAll]
      rw [hsites, Site.candidatesUnder_append, ih]
      rfl

/-- The names of the parts are those in the headers. -/
theorem Nested.follows {n : Naming} {hook : String} {location : Location}
    {headers : List Header} {nest : Decl} (h : Nested (hookDecl hook location) headers nest)
    (hnames : ∀ header ∈ headers, n.type (Text.trim header.name)) (inType : Bool) :
    nest.follows n inType := by
  induction h generalizing inType with
  | here => rfl
  | inside repeats rest ih =>
      rw [List.forall_mem_cons] at hnames
      rw [Decl.follows, Decl.allFollow, Decl.allFollow, repeats.name, hnames.1, ih hnames.2]
      rfl

/-- Using directives are no sites. -/
theorem Decl.sitesAll_append_directives (p : Place) (directives : List UsingDirective)
    (others : List Decl) :
    Decl.sitesAll p (directives.map Decl.directive ++ others) = Decl.sitesAll p others := by
  induction directives with
  | nil => rfl
  | cons u directives ih =>
      rw [List.map_cons, List.cons_append, sitesAll, sites, ih, List.nil_append]

/-- Using directives are allowed anywhere. -/
theorem Decl.allFollow_append_directives (n : Naming) (inType : Bool)
    (directives : List UsingDirective) (others : List Decl) :
    Decl.allFollow n inType (directives.map Decl.directive ++ others) =
      Decl.allFollow n inType others := by
  induction directives with
  | nil => rfl
  | cons u directives ih =>
      rw [List.map_cons, List.cons_append, allFollow, follows, ih, Bool.true_and]

namespace SourceFile.Reopens

variable {t : EnclosingType} {hook : String} {f : SourceFile}

/-- The sites of the file are those of its parts, one in the other, in the namespaces of the
type. -/
theorem exists_sites_eq (h : f.Reopens t hook) :
    ∃ location nest p, Nested (hookDecl hook location) (t.containers ++ [t.header]) nest ∧
      f.sites = nest.sites p ∧ p.around = [] ∧ ".".intercalate p.namespaces = t.path := by
  rcases h with ⟨directives, nest, location, location', -, hnest, hmembers⟩
  have hsites : f.sites =
      Decl.sitesAll (.top f) [if t.path.isEmpty then nest else .scope ⟨t.path, location⟩ [nest]] := by
    rw [sites, hmembers, Decl.sitesAll_append_directives]
  cases hpath : t.path.isEmpty with
  | true =>
      refine ⟨location', nest, .top f, hnest, ?_, rfl, ?_⟩
      · rw [hsites, hpath, Decl.sitesAll, Decl.sitesAll, List.append_nil]
        rfl
      · rw [String.isEmpty_iff.mp hpath]
        rfl
  | false =>
      refine ⟨location', nest, (Place.top f).enterScope ⟨t.path, location⟩, hnest, ?_, rfl, ?_⟩
      · rw [hsites, hpath]
        simp [Decl.sitesAll, Decl.sites]
      · simp [Place.enterScope, Place.top]

/-- The parts in the file repeat the header of the type and those of the types around it,
and their keys are made of the path and the names in these. -/
theorem exists_of_mem_parts (h : f.Reopens t hook) {s : PartSite}
    (hs : s ∈ Site.partsIn f.sites) :
    ∃ outer header inner, t.containers ++ [t.header] = outer ++ header :: inner ∧
      s.part.Repeats header ∧
      s.key = t.path ++ nestedNames ((outer ++ [header]).map fun header =>
        Text.trim header.name) := by
  rcases h.exists_sites_eq with ⟨location, nest, p, hnest, hsites, haround, hpath⟩
  rw [hsites] at hs
  rcases hnest.exists_of_mem_parts hs with ⟨outer, header, inner, hheaders, hpart, hkey⟩
  refine ⟨outer, header, inner, hheaders, hpart, ?_⟩
  rw [hkey, typeKey, hpath, haround, List.map_nil, List.nil_append]

/-- There is no candidate in the file. -/
theorem candidatesUnder_eq_nil (h : f.Reopens t hook) (key : String) :
    Site.candidatesUnder key f.sites = [] := by
  rcases h.exists_sites_eq with ⟨location, nest, p, hnest, hsites, -, -⟩
  rw [hsites, hnest.candidatesUnder_eq_nil]

/-- The names in the file are the path and the names in the headers. -/
theorem allFollow {n : Naming} (h : f.Reopens t hook)
    (hpath : t.path.isEmpty = false → n.scope t.path)
    (hnames : ∀ header ∈ t.containers ++ [t.header], n.type (Text.trim header.name)) :
    Decl.allFollow n false f.members := by
  rcases h with ⟨directives, nest, location, location', -, hnest, hmembers⟩
  have hinside : nest.follows n false := hnest.follows hnames false
  rw [hmembers, Decl.allFollow_append_directives, Decl.allFollow, Decl.allFollow, Bool.and_true]
  cases hempty : t.path.isEmpty with
  | true => simpa using hinside
  | false =>
      simp [Decl.follows, Decl.allFollow, hpath hempty, hinside]

end SourceFile.Reopens

end SceneWiring
