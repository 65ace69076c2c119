import SceneWiring.Proofs.Header.Path
import SceneWiring.Proofs.Report.Run
import SceneWiring.Proofs.Scan.Headers
import SceneWiring.Proofs.Scan.Likeness

/-!
# Declarations written in another way

A type can be cut into two parts, and a namespace inside another one can be taken out of it and
given the dotted name.  Neither changes what the walk over the compilation finds, as far as a run
can tell: the entries stay alike from the place of the change to the end of the walk, whatever
else is met, and a run works on types that are alike in the same way.

Main results:

- Definition `Compilation.SameRuns`: compilations that no run tells apart.
- Theorem `sameRuns_of_workType`: this follows if runs work on their types in the same way.
- Theorem `sameRuns_of_alike`: this follows if the entries are alike.
- Theorem `CompilationGap.sameRuns_fill`: it is enough that two fillings keep entries alike.
- Theorem `split_part_same_runs`: a type in two parts.
- Theorem `dotted_scope_same_runs`: a namespace with a dotted name.
-/

namespace SceneWiring

/-! ## Runs that go the same way -/

/-- Two compilations that no run tells apart: in whatever way runs are cancelled, they write the
same lines and have the same result, and runs that nobody cancels have the same report. -/
structure Compilation.SameRuns (options : Options) (model : SemanticModel) (c c' : Compilation) :
    Prop where
  run_eq : ∀ cancelAt, run options model cancelAt c' = run options model cancelAt c
  report : ∃ report, (generate options model c).result = .ok report ∧
    (generate options model c').result = .ok report

section

variable {options : Options} {model : SemanticModel}

theorem Compilation.SameRuns.refl (c : Compilation) : c.SameRuns options model c where
  run_eq _ := rfl
  report := ⟨_, result_generate options model c, result_generate options model c⟩

theorem Compilation.SameRuns.trans {c c' c'' : Compilation} (h : c.SameRuns options model c')
    (h' : c'.SameRuns options model c'') : c.SameRuns options model c'' where
  run_eq cancelAt := (h'.run_eq cancelAt).trans (h.run_eq cancelAt)
  report := by
    rcases h.report with ⟨report, hreport, -⟩
    refine ⟨report, hreport, ?_⟩
    rw [generate, h'.run_eq, h.run_eq]
    exact hreport

/-- Two candidates that a run cannot tell apart, whatever the name of their type. -/
structure Candidate.SameWork (options : Options) (model : SemanticModel) (c c' : Candidate) :
    Prop where
  asksModel : c'.member.asksModel = c.member.asksModel
  outcome : ∀ typeName, c'.outcome options model typeName = c.outcome options model typeName

/-- Two types on which a run works in the same way. -/
structure MarkedType.SameWork (options : Options) (model : SemanticModel) (t t' : MarkedType) :
    Prop where
  enclosing : t'.enclosing = t.enclosing
  rejection : t'.rejection = t.rejection
  candidates : List.Forall₂ (Candidate.SameWork options model) t.candidates t'.candidates

theorem forall₂_sameWork_refl (cs : List Candidate) :
    List.Forall₂ (Candidate.SameWork options model) cs cs :=
  List.forall₂_same.mpr fun _ _ => ⟨rfl, fun _ => rfl⟩

theorem MarkedType.Alike.sameWork {t t' : MarkedType} (h : t.Alike t') :
    t.SameWork options model t' where
  enclosing := h.enclosing
  rejection := h.rejection
  candidates := by
    rw [h.candidates]
    exact forall₂_sameWork_refl t.candidates

/-- A run goes through candidates that it cannot tell apart in the same way. -/
theorem workCandidates_of_sameWork {cancelAt : Option Nat} {cs cs' : List Candidate}
    (h : List.Forall₂ (Candidate.SameWork options model) cs cs') (typeName : String)
    (p : Progress) :
    workCandidates cancelAt (Candidate.outcome options model typeName) cs' p =
      workCandidates cancelAt (Candidate.outcome options model typeName) cs p := by
  induction h generalizing p with
  | nil => rfl
  | @cons c c' rest rest' hhead hrest ih =>
      have hprogress : ∀ outcome, p.afterCandidate c' outcome = p.afterCandidate c outcome := by
        intro outcome
        rw [Progress.afterCandidate, Progress.afterCandidate, hhead.asksModel]
      rw [workCandidates, workCandidates]
      simp only [hhead.outcome, hprogress, ih]

theorem workType_of_sameWork {cancelAt : Option Nat} {t t' : MarkedType}
    (h : t.SameWork options model t') (p : Progress) :
    workType cancelAt options model t' p = workType cancelAt options model t p := by
  have hrejected : t'.isRejected options = t.isRejected options := by
    rw [MarkedType.isRejected, MarkedType.isRejected, h.enclosing]
  have houtcomes : Contribution.ofOutcomes options t' = Contribution.ofOutcomes options t := by
    funext outcomes
    rw [Contribution.ofOutcomes, Contribution.ofOutcomes, h.enclosing]
  rw [workType, workType, hrejected, houtcomes, Contribution.ofRejected, Contribution.ofRejected,
    h.enclosing, h.rejection]
  simp only [workCandidates_of_sameWork h.candidates]

/-- A run goes through types in the same way if it works on each of them in the same way. -/
theorem workTypes_congr {cancelAt : Option Nat} {ts ts' : List MarkedType}
    (h : List.Forall₂
      (fun t t' => ∀ p, workType cancelAt options model t' p = workType cancelAt options model t p)
      ts ts') (p : Progress) :
    workTypes cancelAt options model ts' p = workTypes cancelAt options model ts p := by
  induction h generalizing p with
  | nil => rfl
  | cons hhead hrest ih =>
      rw [workTypes, workTypes, hhead]
      split
      · rfl
      · rw [ih]

/-- No run tells compilations apart on whose types it works in the same way. -/
theorem sameRuns_of_workType {c c' : Compilation}
    (h : ∀ cancelAt, List.Forall₂
      (fun t t' => ∀ p, workType cancelAt options model t' p = workType cancelAt options model t p)
      c.scan c'.scan) :
    c.SameRuns options model c' := by
  have hruns : ∀ cancelAt, run options model cancelAt c' = run options model cancelAt c := by
    intro cancelAt
    rw [run, run, workTypes_congr (h cancelAt)]
  refine ⟨hruns, _, result_generate options model c, ?_⟩
  rw [generate, hruns none]
  exact result_generate options model c

theorem sameRuns_of_sameWork {c c' : Compilation}
    (h : List.Forall₂ (MarkedType.SameWork options model) c.scan c'.scan) :
    c.SameRuns options model c' :=
  sameRuns_of_workType fun _ => h.imp fun _ _ ht => workType_of_sameWork ht

/-- No run tells compilations apart whose entries are alike. -/
theorem sameRuns_of_alike {c c' : Compilation}
    (h : List.Forall₂ Entry.Alike c.entries c'.entries) : c.SameRuns options model c' :=
  sameRuns_of_sameWork ((forall₂_alike_scan h).imp fun _ _ ht => ht.sameWork)

end

/-! ## Two fillings of a gap -/

/-- No run tells two fillings of a gap apart that keep entries alike. -/
theorem CompilationGap.sameRuns_fill (g : CompilationGap) {ds es : List Decl}
    (husings : (⟨g.path, es⟩ : SourceFile).usings = (⟨g.path, ds⟩ : SourceFile).usings)
    (hnote : ∀ entries : List Entry, List.Forall₂ Entry.Alike
      ((Decl.sitesAll (g.place ds) ds).foldl Site.note entries)
      ((Decl.sitesAll (g.place ds) es).foldl Site.note entries))
    (options : Options) (model : SemanticModel) :
    (g.fill ds).SameRuns options model (g.fill es) := by
  apply sameRuns_of_alike
  rw [g.entries_fill ds ds rfl, g.entries_fill ds es (g.usings_file husings)]
  simp only [List.foldl_append]
  exact forall₂_alike_foldl_note (forall₂_alike_refl _) (hnote _)

/-! ## A type in two parts -/

/-- Sites after a part may be followed by the same part once more. -/
theorem PartSite.forall₂_alike_note_again (s : PartSite) (xs ys : List Site)
    (entries : List Entry) :
    List.Forall₂ Entry.Alike ((.part s :: (xs ++ ys)).foldl Site.note entries)
      ((.part s :: (xs ++ .part s :: ys)).foldl Site.note entries) := by
  rw [List.foldl_cons, List.foldl_cons, List.foldl_append, List.foldl_append, List.foldl_cons]
  have hheld : s.IsHeld (xs.foldl Site.note (Site.note entries (.part s))) :=
    (IsHeld.of_note entries s).foldl_note xs
  apply forall₂_alike_foldl_note (forall₂_alike_refl ys)
  exact hheld.alike_note (List.forall₂_same.mpr fun e _ => .refl e)

/-- No run tells whether the members of a part of a type, at any place, stand in two adjacent
parts with the same heading instead. -/
theorem split_part_same_runs (options : Options) (model : SemanticModel) (g : CompilationGap)
    (part : TypePart) (xs ys : List Decl) :
    (g.fill [.type part (xs ++ ys)]).SameRuns options model
      (g.fill [.type part xs, .type part ys]) := by
  apply g.sameRuns_fill (by rfl)
  intro entries
  let s : PartSite := ⟨g.place [.type part (xs ++ ys)], part⟩
  have hone : Decl.sitesAll s.place [.type part (xs ++ ys)] =
      .part s :: (Decl.sitesAll s.inside xs ++ Decl.sitesAll s.inside ys) := by
    simp [Decl.sitesAll, Decl.sites, Decl.sitesAll_append, PartSite.inside, s]
  have htwo : Decl.sitesAll s.place [.type part xs, .type part ys] =
      .part s :: (Decl.sitesAll s.inside xs ++ .part s :: Decl.sitesAll s.inside ys) := by
    simp [Decl.sitesAll, Decl.sites, PartSite.inside, s]
  have hnote := s.forall₂_alike_note_again (Decl.sitesAll s.inside xs)
    (Decl.sitesAll s.inside ys) entries
  rwa [← hone, ← htwo] at hnote

/-! ## A namespace with a dotted name -/

/-- Inside two nested namespaces, a place is like one inside a namespace with the dotted name. -/
theorem Place.alike_enterScope_dotted {a b : String} (ha : IsPlainName a) (hb : IsPlainName b)
    (outer inner dotted : Location) (p : Place) :
    ((p.enterScope ⟨a, outer⟩).enterScope ⟨b, inner⟩).Alike
      (p.enterScope ⟨a ++ "." ++ b, dotted⟩) where
  file := rfl
  around := rfl
  joined more := by
    simpa [enterScope] using intercalate_dotted p.namespaces more a b
  path more := by
    simpa [enterScope] using dottedPath_dotted ha hb p.namespaces more

/-- No run tells whether a namespace inside another one, at any place, is taken out of it and
given the dotted name instead, between what stood before it and after it. -/
theorem dotted_scope_same_runs (options : Options) (model : SemanticModel) (g : CompilationGap)
    {a b : String} (ha : IsPlainName a) (hb : IsPlainName b)
    (outer inner left dotted right : Location) (before members after : List Decl) :
    (g.fill
      [.scope ⟨a, outer⟩ (before ++ .scope ⟨b, inner⟩ members :: after)]).SameRuns options model
      (g.fill
        [.scope ⟨a, left⟩ before, .scope ⟨a ++ "." ++ b, dotted⟩ members,
          .scope ⟨a, right⟩ after]) := by
  apply g.sameRuns_fill (by rfl)
  intro entries
  let p := g.place [.scope ⟨a, outer⟩ (before ++ .scope ⟨b, inner⟩ members :: after)]
  have hsites : List.Forall₂ Site.Alike
      (Decl.sitesAll p [.scope ⟨a, outer⟩ (before ++ .scope ⟨b, inner⟩ members :: after)])
      (Decl.sitesAll p [.scope ⟨a, left⟩ before, .scope ⟨a ++ "." ++ b, dotted⟩ members,
        .scope ⟨a, right⟩ after]) := by
    simp only [Decl.sitesAll, Decl.sites, Decl.sitesAll_append, List.append_nil]
    apply List.rel_append (forall₂_alike_refl _)
    apply List.rel_append _ (forall₂_alike_refl _)
    exact Decl.forall₂_alike_sitesAll members (p.alike_enterScope_dotted ha hb _ _ _)
  exact forall₂_alike_foldl_note hsites (List.forall₂_same.mpr fun e _ => .refl e)

/-- A gap in a file, after a file with a part of a type in a namespace with a dotted name. -/
def gapAfterPanel : CompilationGap where
  before :=
    [⟨"Panel.cs", [.scope ⟨"Game.Menu", .unknown⟩ [.type ⟨"Panel", ["partial"], [], .unknown⟩ []]]⟩]
  path := "PanelDoor.cs"
  gap := .here [] []
  after := []

/-- Another part of that type. -/
def panelWithDoor : Decl :=
  .type ⟨"Panel", ["partial"], [], .unknown⟩
    [.member (.field ⟨"Door", ["door"], [], [⟨"Get", []⟩], .unknown⟩)]

/-- A type with one part in nested namespaces and one in a namespace with the dotted name. -/
theorem panel_dotted_same_runs :
    IsPlainName "Game" ∧ IsPlainName "Menu" ∧
      (gapAfterPanel.fill
        [.scope ⟨"Game", .unknown⟩ [.scope ⟨"Menu", .unknown⟩ [panelWithDoor], .unknown]]).SameRuns
        .default .ofDeclarations
        (gapAfterPanel.fill
          [.scope ⟨"Game", .unknown⟩ [], .scope ⟨"Game.Menu", .unknown⟩ [panelWithDoor],
            .scope ⟨"Game", .unknown⟩ [.unknown]]) := by
  have hgame : IsPlainName "Game" := by decide
  have hmenu : IsPlainName "Menu" := by decide
  exact ⟨hgame, hmenu, dotted_scope_same_runs .default .ofDeclarations gapAfterPanel hgame hmenu
    .unknown .unknown .unknown .unknown .unknown [] [panelWithDoor] [.unknown]⟩

end SceneWiring
