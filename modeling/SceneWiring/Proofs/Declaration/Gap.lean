import SceneWiring.Proofs.Scan.Site

/-!
# Compilations with a gap

A gap is a position in a compilation, at any depth, that declarations can be put into.  Two
compilations that differ in one position are the same gap filled in two ways.  What stands
around a gap has the same sites however the gap is filled, but for the contents of the file,
of which a site shows more than the scanner looks at.

Main results:

- Definition `CompilationGap.fill`: a compilation with declarations put into a gap.
- Theorem `CompilationGap.sites_fill`: the sites of a filled gap.
- Theorem `CompilationGap.exists_fill_eq`: every member of a compilation fills a gap.
-/

namespace SceneWiring

/-- The sites of declarations are listed part by part. -/
theorem Decl.sitesAll_append (p : Place) (ds es : List Decl) :
    Decl.sitesAll p (ds ++ es) = Decl.sitesAll p ds ++ Decl.sitesAll p es := by
  induction ds with
  | nil => rfl
  | cons d ds ih => simp [Decl.sitesAll, ih]

/-! ## Declarations with a gap -/

/-- Declarations with a gap somewhere among them or inside one of them. -/
inductive Gap
  | here (before after : List Decl)
  | scope (before : List Decl) (head : ScopeHead) (inside : Gap) (after : List Decl)
  | type (before : List Decl) (part : TypePart) (inside : Gap) (after : List Decl)

namespace Gap

/-- The declarations with others put into the gap. -/
def fill (ds : List Decl) : Gap → List Decl
  | .here before after => before ++ ds ++ after
  | .scope before head inside after => before ++ .scope head (inside.fill ds) :: after
  | .type before part inside after => before ++ .type part (inside.fill ds) :: after

/-- The place of the gap in declarations at a place. -/
def place (p : Place) : Gap → Place
  | .here _ _ => p
  | .scope _ head inside _ => inside.place (p.enterScope head)
  | .type _ part inside _ => inside.place (p.enterType part)

/-- The sites before the gap. -/
def sitesBefore (p : Place) : Gap → List Site
  | .here before _ => Decl.sitesAll p before
  | .scope before head inside _ =>
    Decl.sitesAll p before ++ inside.sitesBefore (p.enterScope head)
  | .type before part inside _ =>
    Decl.sitesAll p before ++ .part ⟨p, part⟩ :: inside.sitesBefore (p.enterType part)

/-- The sites after the gap. -/
def sitesAfter (p : Place) : Gap → List Site
  | .here _ after => Decl.sitesAll p after
  | .scope _ head inside after =>
    inside.sitesAfter (p.enterScope head) ++ Decl.sitesAll p after
  | .type _ part inside after =>
    inside.sitesAfter (p.enterType part) ++ Decl.sitesAll p after

/-- The sites of a filled gap. -/
theorem sitesAll_fill (g : Gap) (p : Place) (ds : List Decl) :
    Decl.sitesAll p (g.fill ds) =
      g.sitesBefore p ++ Decl.sitesAll (g.place p) ds ++ g.sitesAfter p := by
  induction g generalizing p with
  | here before after => simp [fill, place, sitesBefore, sitesAfter, Decl.sitesAll_append]
  | scope before head inside after ih =>
      simp [fill, place, sitesBefore, sitesAfter, Decl.sitesAll_append, Decl.sitesAll, Decl.sites,
        ih]
  | type before part inside after ih =>
      simp [fill, place, sitesBefore, sitesAfter, Decl.sitesAll_append, Decl.sitesAll, Decl.sites,
        ih]

/-- The gap with further declarations in front. -/
def afterDecl (d : Decl) : Gap → Gap
  | .here before after => .here (d :: before) after
  | .scope before head inside after => .scope (d :: before) head inside after
  | .type before part inside after => .type (d :: before) part inside after

@[simp]
theorem fill_afterDecl (d : Decl) (ds : List Decl) (g : Gap) :
    (g.afterDecl d).fill ds = d :: g.fill ds := by
  cases g <;> simp [afterDecl, fill]

@[simp]
theorem place_afterDecl (d : Decl) (p : Place) (g : Gap) : (g.afterDecl d).place p = g.place p := by
  cases g <;> rfl

end Gap

mutual

/-- A member of a declaration fills a gap in it or next to it. -/
theorem Decl.exists_fill_eq : ∀ (d : Decl) (p : Place) (rest : List Decl) (s : MemberSite),
    .member s ∈ d.sites p → ∃ g : Gap, g.fill [.member s.member] = d :: rest ∧ g.place p = s.place
  | .scope head members, p, rest, s, h => by
      rcases Decl.exists_fill_eqAll members (p.enterScope head) s h with ⟨g, hfill, hplace⟩
      exact ⟨.scope [] head g rest, by simp [Gap.fill, hfill], hplace⟩
  | .type part members, p, rest, s, h => by
      have hmem : .member s ∈ Decl.sitesAll (p.enterType part) members := by
        simpa [Decl.sites] using h
      rcases Decl.exists_fill_eqAll members (p.enterType part) s hmem with ⟨g, hfill, hplace⟩
      exact ⟨.type [] part g rest, by simp [Gap.fill, hfill], hplace⟩
  | .member m, p, rest, s, h => by
      obtain rfl : s = ⟨p, m⟩ := by simpa [Decl.sites] using h
      exact ⟨.here [] rest, by simp [Gap.fill], rfl⟩
  | .directive u, p, rest, s, h => by simp [Decl.sites] at h
  | .unknown, p, rest, s, h => by simp [Decl.sites] at h

/-- A member of declarations fills a gap in them. -/
theorem Decl.exists_fill_eqAll : ∀ (ds : List Decl) (p : Place) (s : MemberSite),
    .member s ∈ Decl.sitesAll p ds → ∃ g : Gap, g.fill [.member s.member] = ds ∧ g.place p = s.place
  | [], p, s, h => by simp [Decl.sitesAll] at h
  | d :: ds, p, s, h => by
      rw [Decl.sitesAll, List.mem_append] at h
      rcases h with h | h
      · exact Decl.exists_fill_eq d p ds s h
      · rcases Decl.exists_fill_eqAll ds p s h with ⟨g, hfill, hplace⟩
        exact ⟨g.afterDecl d, by simp [hfill], by simp [hplace]⟩

end

/-! ## Sites in another file -/

/-- A place with the same surroundings in another file. -/
def Place.inFile (f : SourceFile) (p : Place) : Place :=
  { p with file := f }

/-- A site with the same surroundings in another file. -/
def Site.inFile (f : SourceFile) : Site → Site
  | .part s => .part { s with place := s.place.inFile f }
  | .member s => .member { s with place := s.place.inFile f }

mutual

/-- The sites of a declaration in another file. -/
theorem Decl.sites_inFile (f : SourceFile) : ∀ (d : Decl) (p : Place),
    d.sites (p.inFile f) = (d.sites p).map (Site.inFile f)
  | .scope head members, p => Decl.sitesAll_inFile f members (p.enterScope head)
  | .type part members, p => by
      rw [Decl.sites, Decl.sites, List.map_cons]
      exact congrArg (List.cons _) (Decl.sitesAll_inFile f members (p.enterType part))
  | .member m, p => rfl
  | .directive u, p => rfl
  | .unknown, p => rfl

/-- The sites of declarations in another file. -/
theorem Decl.sitesAll_inFile (f : SourceFile) : ∀ (ds : List Decl) (p : Place),
    Decl.sitesAll (p.inFile f) ds = (Decl.sitesAll p ds).map (Site.inFile f)
  | [], p => rfl
  | d :: ds, p => by
      rw [Decl.sitesAll, Decl.sitesAll, List.map_append, Decl.sites_inFile f d p,
        Decl.sitesAll_inFile f ds p]

end

/-! ## Compilations with a gap -/

/-- A compilation with a gap in one of its files. -/
structure CompilationGap where
  before : List SourceFile
  path : String
  gap : Gap
  after : List SourceFile

namespace CompilationGap

variable (g : CompilationGap)

/-- The file of the gap, with declarations put into it. -/
def file (ds : List Decl) : SourceFile :=
  ⟨g.path, g.gap.fill ds⟩

/-- The compilation with declarations put into the gap. -/
def fill (ds : List Decl) : Compilation :=
  ⟨g.before ++ g.file ds :: g.after⟩

/-- The place of the gap once it is filled. -/
def place (ds : List Decl) : Place :=
  g.gap.place (.top (g.file ds))

/-- The sites before the gap once it is filled. -/
def sitesBefore (ds : List Decl) : List Site :=
  g.before.flatMap SourceFile.sites ++ g.gap.sitesBefore (.top (g.file ds))

/-- The sites after the gap once it is filled. -/
def sitesAfter (ds : List Decl) : List Site :=
  g.gap.sitesAfter (.top (g.file ds)) ++ g.after.flatMap SourceFile.sites

/-- The sites of a filled gap, in terms of those of the same gap filled with other
declarations. -/
theorem sites_fill (ds es : List Decl) :
    (g.fill es).sites =
      g.before.flatMap SourceFile.sites ++
        (g.gap.sitesBefore (.top (g.file ds)) ++ Decl.sitesAll (g.place ds) es ++
          g.gap.sitesAfter (.top (g.file ds))).map (Site.inFile (g.file es)) ++
        g.after.flatMap SourceFile.sites := by
  have hfile : (g.file es).sites =
      (Decl.sitesAll (.top (g.file ds)) (g.gap.fill es)).map (Site.inFile (g.file es)) :=
    Decl.sitesAll_inFile (g.file es) (g.gap.fill es) (.top (g.file ds))
  rw [Gap.sitesAll_fill] at hfile
  simp only [Compilation.sites, fill, List.flatMap_append, List.flatMap_cons, hfile,
    List.append_assoc]
  rfl

/-- Every member of a compilation fills a gap at its place. -/
theorem exists_fill_eq {c : Compilation} {s : MemberSite} (h : s ∈ Site.membersIn c.sites) :
    ∃ g : CompilationGap, g.fill [.member s.member] = c ∧ g.place [.member s.member] = s.place := by
  rcases List.mem_flatMap.mp (Site.mem_membersIn_iff.mp h) with ⟨f, hf, hs⟩
  rcases List.append_of_mem hf with ⟨before, after, hfiles⟩
  rcases Decl.exists_fill_eqAll f.members (.top f) s hs with ⟨g, hfill, hplace⟩
  have hfile : (⟨f.path, g.fill [.member s.member]⟩ : SourceFile) = f := by rw [hfill]
  refine ⟨⟨before, f.path, g, after⟩, ?_, ?_⟩
  · simp [fill, file, hfile, ← hfiles]
  · simp [place, file, hfile, hplace]

end CompilationGap

end SceneWiring
