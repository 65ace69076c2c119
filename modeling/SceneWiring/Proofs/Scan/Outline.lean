import Mathlib.Data.List.Nodup
import SceneWiring.Proofs.Declaration.Gap
import SceneWiring.Proofs.Scan.Grouping

/-!
# The outline of a scan

Members change nothing but the candidates of entries.  So all that a scan tells about types,
except for their candidates, comes from the parts alone.  This is the outline of the scan,
and the scan is its outline with the candidates of each key put in, without the types that
get none.

Main results:

- Definition `Compilation.outline`: the types and their keys without candidates.
- Definition `assignCandidates`: an outline with candidates put in.
- Theorem `typesByKey_eq`: the scan is the outline with the candidates of the sites.
- Theorem `outline_fill_eq`: what fills a gap changes the outline through its parts only.
-/

namespace SceneWiring

/-! ## Entries without candidates -/

/-- An entry without its candidates. -/
def Entry.shell (e : Entry) : Entry :=
  { e with candidates := [] }

@[simp]
theorem Entry.key_shell (e : Entry) : e.shell.key = e.key :=
  rfl

@[simp]
theorem entryKeys_map_shell (entries : List Entry) :
    entryKeys (entries.map Entry.shell) = entryKeys entries := by
  simp [entryKeys, Function.comp_def]

/-- A further part changes the shell of an entry in the way it changes the entry. -/
theorem PartSite.shell_addTo (s : PartSite) (e : Entry) : (s.addTo e).shell = s.addTo e.shell := by
  unfold addTo Entry.mergeFile
  by_cases h : s.file.path ∈ e.mergedFiles
  · simp [Entry.addPart, Entry.shell, h]
  · simp [Entry.addPart, Entry.shell, h]

/-- Changing one element and mapping all of them can be done in either order. -/
theorem map_modify {α β : Type} {f : α → β} {g : α → α} {g' : β → β}
    (h : ∀ a, f (g a) = g' (f a)) (xs : List α) (i : Nat) :
    (xs.modify i g).map f = (xs.map f).modify i g' := by
  induction xs generalizing i with
  | nil => simp
  | cons x xs ih =>
      cases i with
      | zero => simp [h]
      | succ i => simp [ih]

namespace Site

variable (entries : List Entry)

/-- A member leaves the shells of the entries as they are. -/
theorem map_shell_note_member (s : MemberSite) :
    (note entries (.member s)).map Entry.shell = entries.map Entry.shell := by
  rw [note_member]
  split
  · have hshell : ∀ e : Entry, (e.addCandidate s.candidate).shell = id e.shell := fun _ => rfl
    rw [map_modify hshell]
    simp
  · rfl

/-- A part changes the shells of the entries in the way it changes the entries. -/
theorem map_shell_note_part (s : PartSite) :
    (note entries (.part s)).map Entry.shell = note (entries.map Entry.shell) (.part s) := by
  by_cases h : s.key ∈ entryKeys entries
  · have hshell : s.key ∈ entryKeys (entries.map Entry.shell) := by simpa using h
    rw [note_part_of_mem h, note_part_of_mem hshell, map_modify s.shell_addTo,
      entryKeys_map_shell]
  · have hshell : s.key ∉ entryKeys (entries.map Entry.shell) := by simpa using h
    rw [note_part_of_not_mem h, note_part_of_not_mem hshell, List.map_append]
    simp [PartSite.entry, Entry.shell]

/-- The shells of the entries come from the parts. -/
theorem map_shell_foldl_note (sites : List Site) :
    (sites.foldl note entries).map Entry.shell =
      (partsIn sites).foldl (fun entries s => note entries (.part s))
        (entries.map Entry.shell) := by
  induction sites generalizing entries with
  | nil => rfl
  | cons site sites ih =>
      cases site with
      | part s =>
          rw [List.foldl_cons, ih, map_shell_note_part, partsIn_cons_part, List.foldl_cons]
      | member s =>
          rw [List.foldl_cons, ih, map_shell_note_member, partsIn_cons_member]

end Site

/-! ## Outlines -/

/-- A type with other candidates. -/
def MarkedType.withCandidates (candidates : List Candidate) (t : MarkedType) : MarkedType :=
  { t with candidates := candidates }

/-- The types of a compilation and their keys, with or without candidates, all of which are
left out. -/
def Compilation.outline (c : Compilation) : List (String × MarkedType) :=
  let shells := c.entries.map Entry.shell
  shells.mapIdx fun i e => (e.key, e.toMarked (containerChain shells i))

/-- A type with candidates put in, as it is listed under its key: not at all if there are
none. -/
def MarkedType.listedUnder (key : String) (candidates : List Candidate) (t : MarkedType) :
    List (String × MarkedType) :=
  if candidates.isEmpty then [] else [(key, t.withCandidates candidates)]

/-- An outline with the candidates of each key put in, without the types that get none. -/
def assignCandidates (candidates : String → List Candidate)
    (outline : List (String × MarkedType)) : List (String × MarkedType) :=
  outline.flatMap fun o => o.2.listedUnder o.1 (candidates o.1)

/-- The scanned types and their keys. -/
def Compilation.typesByKey (c : Compilation) : List (String × MarkedType) :=
  (Site.markedKeys c.sites).zip c.scan

section

variable {candidates candidates' : String → List Candidate}

theorem assignCandidates_append (xs ys : List (String × MarkedType)) :
    assignCandidates candidates (xs ++ ys) =
      assignCandidates candidates xs ++ assignCandidates candidates ys :=
  List.flatMap_append

theorem assignCandidates_cons (key : String) (t : MarkedType)
    (outline : List (String × MarkedType)) :
    assignCandidates candidates ((key, t) :: outline) =
      t.listedUnder key (candidates key) ++ assignCandidates candidates outline :=
  rfl

/-- Types that get no candidates are left out after candidates have been put in. -/
theorem assignCandidates_eq_filter (outline : List (String × MarkedType)) :
    assignCandidates candidates outline =
      (outline.map fun o => (o.1, o.2.withCandidates (candidates o.1))).filter fun o =>
        !o.2.candidates.isEmpty := by
  induction outline with
  | nil => rfl
  | cons o outline ih =>
      have hcandidates : (o.2.withCandidates (candidates o.1)).candidates = candidates o.1 := rfl
      rw [assignCandidates_cons, ih, MarkedType.listedUnder, List.map_cons, List.filter_cons,
        hcandidates]
      cases (candidates o.1).isEmpty <;> rfl

/-- Only the candidates of the keys of an outline are put in. -/
theorem assignCandidates_congr {outline : List (String × MarkedType)}
    (h : ∀ key ∈ outline.map Prod.fst, candidates key = candidates' key) :
    assignCandidates candidates outline = assignCandidates candidates' outline := by
  induction outline with
  | nil => rfl
  | cons o outline ih =>
      rw [List.map_cons, List.forall_mem_cons] at h
      rw [assignCandidates_cons, assignCandidates_cons, h.1, ih h.2]

end

/-- The containers of an entry do not depend on candidates. -/
theorem containerChain_map_shell (entries : List Entry) (i : Nat) :
    containerChain (entries.map Entry.shell) i = containerChain entries i := by
  induction i using Nat.strongRecOn with
  | ind i ih =>
      have hparent : ∀ e : Entry, e.shell.parent = e.parent := fun _ => rfl
      have hparts : ∀ e : Entry, e.shell.parts = e.parts := fun _ => rfl
      rw [containerChain, containerChain, List.getElem?_map]
      cases hget : entries[i]? with
      | none => rfl
      | some e =>
          simp only [Option.map_some, hparent]
          cases hp : e.parent with
          | none => rfl
          | some p =>
              simp only
              by_cases hlt : p < i
              · rw [if_pos hlt, if_pos hlt, ih p hlt, List.getElem?_map]
                simp [Function.comp_def, hparts]
              · rw [if_neg hlt, if_neg hlt]

namespace Compilation

variable (c : Compilation)

/-- The keys of the outline are those of the parts. -/
theorem map_fst_outline : c.outline.map Prod.fst = Site.keysIn c.sites := by
  rw [← entryKeys_entries]
  apply List.ext_getElem
  · simp [outline, entryKeys]
  · intro i hi hj
    simp [outline, entryKeys]

/-- No two types of an outline have the same key. -/
theorem nodup_map_fst_outline : (c.outline.map Prod.fst).Nodup := by
  rw [map_fst_outline]
  exact Site.nodup_keysIn c.sites

/-- An outline has one type under each key. -/
theorem exists_outline_eq {key : String} (h : key ∈ Site.keysIn c.sites) :
    ∃ before t after, c.outline = before ++ (key, t) :: after ∧
      key ∉ before.map Prod.fst ∧ key ∉ after.map Prod.fst := by
  rw [← map_fst_outline, List.mem_map] at h
  rcases h with ⟨⟨k, t⟩, hmem, rfl⟩
  rcases List.append_of_mem hmem with ⟨before, after, houtline⟩
  refine ⟨before, t, after, houtline, ?_, ?_⟩
  · have hnodup := c.nodup_map_fst_outline
    rw [houtline, List.map_append, List.map_cons, List.nodup_append] at hnodup
    intro hkey
    exact hnodup.2.2 k hkey k List.mem_cons_self rfl
  · have hnodup := c.nodup_map_fst_outline
    rw [houtline, List.map_append, List.map_cons, List.nodup_append, List.nodup_cons] at hnodup
    exact hnodup.2.1.1

/-- The types of the outline with the candidates of their keys are the types that the
entries are listed as. -/
theorem map_withCandidates_outline :
    (c.outline.map fun o => o.2.withCandidates (Site.candidatesUnder o.1 c.sites)) =
      c.entries.mapIdx fun i e => e.toMarked (containerChain c.entries i) := by
  apply List.ext_getElem
  · simp [outline]
  · intro i hi hj
    have hentry : i < c.entries.length := by simpa using hj
    rcases (gathered_entries c).entry _ (List.getElem_mem hentry) with ⟨first, others, h⟩
    simp only [outline, List.getElem_map, List.getElem_mapIdx, containerChain_map_shell,
      Entry.key_shell, ← h.candidates_eq]
    rfl

/-- The scan of a compilation is its outline with the candidates of the sites put in. -/
theorem typesByKey_eq :
    c.typesByKey = assignCandidates (fun key => Site.candidatesUnder key c.sites) c.outline := by
  symm
  apply List.zip_of_prod
  · rw [Site.markedKeys, ← map_fst_outline, List.filter_map, assignCandidates_eq_filter,
      List.filter_map, List.map_map]
    rfl
  · have hscan : c.scan =
        (c.entries.mapIdx fun i e => e.toMarked (containerChain c.entries i)).filter fun t =>
          !t.candidates.isEmpty :=
      rfl
    rw [hscan, ← map_withCandidates_outline, List.filter_map, assignCandidates_eq_filter,
      List.filter_map, List.map_map]
    rfl

/-- The scanned types without their keys. -/
theorem map_snd_typesByKey : c.typesByKey.map Prod.snd = c.scan :=
  List.map_snd_zip (Nat.le_of_eq (forall₂_scan c).length_eq.symm)

/-- The keys of the scanned types. -/
theorem map_fst_typesByKey : c.typesByKey.map Prod.fst = Site.markedKeys c.sites :=
  List.map_fst_zip (Nat.le_of_eq (forall₂_scan c).length_eq)

/-- No two scanned types have the same key. -/
theorem eq_of_mem_typesByKey {o o' : String × MarkedType} (h : o ∈ c.typesByKey)
    (h' : o' ∈ c.typesByKey) (hkey : o.1 = o'.1) : o = o' := by
  have hnodup : (c.typesByKey.map Prod.fst).Nodup := by
    rw [map_fst_typesByKey]
    exact (Site.nodup_keysIn c.sites).filter _
  exact List.inj_on_of_nodup_map hnodup h h' hkey

/-- A scanned type holds what the sites of the compilation have under its key. -/
theorem gathers_of_mem_typesByKey {key : String} {t : MarkedType} (h : (key, t) ∈ c.typesByKey) :
    ∃ first others, t.Gathers c.sites key first others :=
  (List.forall₂_iff_zip.mp (forall₂_gathers_scan c)).2 h

end Compilation

/-! ## Outlines of filled gaps -/

/-- The scanner sees the path and the using directives of a file only. -/
theorem Place.scan_inFile {f : SourceFile} {p : Place} (hpath : f.path = p.file.path)
    (husings : f.usings = p.file.usings) (entries : List Entry) :
    (p.inFile f).scan entries = p.scan entries := by
  simp [scan, inFile, hpath, husings]

/-- A site is noted by the path and the using directives of its file only. -/
theorem Site.note_inFile {f : SourceFile} {site : Site} (hpath : f.path = site.place.file.path)
    (husings : f.usings = site.place.file.usings) (entries : List Entry) :
    note entries (site.inFile f) = note entries site := by
  have hscan := Place.scan_inFile hpath husings entries
  cases site with
  | part s => exact congrArg (fun scan => (scan.enterType s.part).entries) hscan
  | member s => exact congrArg (fun scan => (scan.addMember s.member).entries) hscan

/-- Sites are noted by the paths and the using directives of their files only. -/
theorem Site.foldl_note_inFile {f g : SourceFile} (hpath : f.path = g.path)
    (husings : f.usings = g.usings) {sites : List Site} (h : ∀ site ∈ sites, site.place.file = g)
    (entries : List Entry) :
    (sites.map (inFile f)).foldl note entries = sites.foldl note entries := by
  induction sites generalizing entries with
  | nil => rfl
  | cons site sites ih =>
      rw [List.forall_mem_cons] at h
      rw [List.map_cons, List.foldl_cons, List.foldl_cons,
        note_inFile (by rw [hpath, h.1]) (by rw [husings, h.1]), ih h.2]

/-- A candidate tells the path of its file only. -/
theorem Site.candidatesUnder_inFile {f g : SourceFile} (hpath : f.path = g.path)
    {sites : List Site} (h : ∀ site ∈ sites, site.place.file = g) (key : String) :
    candidatesUnder key (sites.map (inFile f)) = candidatesUnder key sites := by
  induction sites with
  | nil => rfl
  | cons site sites ih =>
      rw [List.forall_mem_cons] at h
      have hsite : candidatesUnder key [site.inFile f] = candidatesUnder key [site] := by
        cases site with
        | part s => rfl
        | member s =>
            have hcandidate : (⟨s.place.inFile f, s.member⟩ : MemberSite).candidate =
                s.candidate := by
              have hfile : s.place.file = g := h.1
              simp [MemberSite.candidate, Place.inFile, hpath, hfile]
            rw [inFile, candidatesUnder_member, candidatesUnder_member, hcandidate]
            rfl
      have happend := candidatesUnder_append [site] sites key
      have happend' := candidatesUnder_append [site.inFile f] (sites.map (inFile f)) key
      rw [List.singleton_append] at happend happend'
      rw [List.map_cons, happend, happend', hsite, ih h.2]

namespace CompilationGap

variable (g : CompilationGap)

/-- The using directives at the top of a file depend on those among what fills a gap only. -/
theorem usings_file {ds es : List Decl}
    (h : (⟨g.path, ds⟩ : SourceFile).usings = (⟨g.path, es⟩ : SourceFile).usings) :
    (g.file ds).usings = (g.file es).usings := by
  cases hgap : g.gap with
  | here before after =>
      simp only [SourceFile.usings] at h
      simp [SourceFile.usings, file, hgap, Gap.fill, List.filterMap_append, h]
  | scope before head inside after =>
      simp [SourceFile.usings, file, hgap, Gap.fill, List.filterMap_append]
  | type before part inside after =>
      simp [SourceFile.usings, file, hgap, Gap.fill, List.filterMap_append]

/-- The sites of the file with the gap stand in that file. -/
theorem file_of_mem_sites (ds es : List Decl) :
    ∀ site ∈ g.gap.sitesBefore (.top (g.file ds)) ++ Decl.sitesAll (g.place ds) es ++
      g.gap.sitesAfter (.top (g.file ds)), site.place.file = g.file ds := by
  rw [place, ← Gap.sitesAll_fill]
  exact Decl.forall_mem_sitesAll (P := fun p => p.file = g.file ds) (fun _ _ hp => hp)
    (fun _ _ hp => hp) _ _ rfl

/-- The entries of a filled gap, in terms of the sites of the same gap filled with other
declarations. -/
theorem entries_fill (ds es : List Decl) (h : (g.file es).usings = (g.file ds).usings) :
    (g.fill es).entries =
      (g.sitesBefore ds ++ Decl.sitesAll (g.place ds) es ++ g.sitesAfter ds).foldl
        Site.note [] := by
  have hpath : (g.file es).path = (g.file ds).path := rfl
  rw [Compilation.entries, entries_run, sites_fill g ds es, List.foldl_append, List.foldl_append,
    Site.foldl_note_inFile hpath h (g.file_of_mem_sites ds es), ← List.foldl_append,
    ← List.foldl_append]
  simp only [sitesBefore, sitesAfter, List.append_assoc]

/-- What fills a gap changes the outline through its parts and using directives only. -/
theorem outline_fill_eq {ds es : List Decl}
    (husings : (⟨g.path, es⟩ : SourceFile).usings = (⟨g.path, ds⟩ : SourceFile).usings)
    (hparts : Site.partsIn (Decl.sitesAll (g.place ds) es) =
      Site.partsIn (Decl.sitesAll (g.place ds) ds)) :
    (g.fill es).outline = (g.fill ds).outline := by
  have hshells : (g.fill es).entries.map Entry.shell = (g.fill ds).entries.map Entry.shell := by
    rw [g.entries_fill ds es (g.usings_file husings), g.entries_fill ds ds rfl,
      Site.map_shell_foldl_note, Site.map_shell_foldl_note]
    simp only [Site.partsIn_append, hparts]
  simp only [Compilation.outline, hshells]

/-- The candidates of a filled gap, in terms of the sites of the same gap filled with other
declarations. -/
theorem candidatesUnder_fill (ds es : List Decl) (key : String) :
    Site.candidatesUnder key (g.fill es).sites =
      Site.candidatesUnder key (g.sitesBefore ds) ++
        Site.candidatesUnder key (Decl.sitesAll (g.place ds) es) ++
        Site.candidatesUnder key (g.sitesAfter ds) := by
  have hpath : (g.file es).path = (g.file ds).path := rfl
  rw [sites_fill g ds es, Site.candidatesUnder_append, Site.candidatesUnder_append,
    Site.candidatesUnder_inFile hpath (g.file_of_mem_sites ds es)]
  simp only [sitesBefore, sitesAfter, Site.candidatesUnder_append, List.append_assoc]

end CompilationGap

end SceneWiring
