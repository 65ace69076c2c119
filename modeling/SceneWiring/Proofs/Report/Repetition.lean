import SceneWiring.Proofs.Header.Merging
import SceneWiring.Proofs.Report.Composition
import SceneWiring.Proofs.Scan.Headers
import SceneWiring.Proofs.Scan.Usings

/-!
# Files that repeat what is known

Files that come last may declare further parts of types without telling anything new: the
parts repeat the headers of their types, no member is marked, and the using directives are
among those that the units have.  Then every type contributes what it contributed before.

Main results:

- Definition `Compilation.AddsNothing`: files that tell nothing new.
- Theorem `mergeUsings_append_of_subset`: directives that are there are not added.
- Theorem `MarkedType.contribution_congr`: what the contribution of a type depends on.
- Theorem `AddsNothing.map_contribution_scan`: files that tell nothing new change no contribution.
-/

namespace SceneWiring

/-! ## Lists without repetitions -/

/-- Elements that are there add nothing. -/
theorem eraseDups_append_of_subset {α : Type} [DecidableEq α] {xs ys : List α} (h : ys ⊆ xs) :
    (xs ++ ys).eraseDups = xs.eraseDups := by
  have hnone : ys.removeAll xs = [] := by
    rw [List.removeAll, List.filter_eq_nil_iff]
    intro y hy
    simp [h hy]
  rw [List.eraseDups_append, hnone, List.eraseDups_nil, List.append_nil]

/-- Parts of known types list no new key. -/
theorem Site.keysIn_append_of_subset {xs ys : List Site}
    (h : ∀ s ∈ partsIn ys, s.key ∈ keysIn xs) : keysIn (xs ++ ys) = keysIn xs := by
  rw [keysIn, partsIn_append, List.map_append, eraseDups_append_of_subset]
  · rfl
  · intro key hkey
    rcases List.mem_map.mp hkey with ⟨s, hs, rfl⟩
    exact List.mem_eraseDups.mp (h s hs)

/-! ## Using directives of units -/

/-- A unit has the directives that statements need and those of its type. -/
theorem mem_mergeUsings_iff {line : String} {usings : List String} :
    line ∈ mergeUsings usings ↔ line ∈ neededUsings ∨ line ∈ usings.map Text.trim := by
  rw [mergeUsings, List.mem_eraseDups, List.mem_append]

/-- There are no blanks around the directives of a unit. -/
theorem trim_of_mem_mergeUsings {line : String} {usings : List String}
    (h : line ∈ mergeUsings usings) : Text.trim line = line := by
  rcases mem_mergeUsings_iff.mp h with hneeded | hown
  · have hall : ∀ line ∈ neededUsings, Text.trim line = line := by decide
    exact hall line hneeded
  · rcases List.mem_map.mp hown with ⟨line', -, rfl⟩
    exact Text.trim_trim line'

/-- Directives that are there are not added. -/
theorem mergeUsings_append_of_subset {usings more : List String}
    (h : ∀ line ∈ more, Text.trim line ∈ mergeUsings usings) :
    mergeUsings (usings ++ more) = mergeUsings usings := by
  have hsubset : more.map Text.trim ⊆ neededUsings ++ usings.map Text.trim := by
    intro line hline
    rcases List.mem_map.mp hline with ⟨line', hline', rfl⟩
    exact List.mem_append.mpr (mem_mergeUsings_iff.mp (h line' hline'))
  rw [mergeUsings, List.map_append, ← List.append_assoc, eraseDups_append_of_subset hsubset,
    mergeUsings]

/-! ## Contributions -/

/-- The using directives of a type matter for its unit after merging only. -/
theorem CodeUnit.assemble_congr {t : EnclosingType} {usings : List String}
    (h : mergeUsings usings = mergeUsings t.usings) (fragments : List Fragment)
    (options : Options) :
    CodeUnit.assemble { t with usings := usings } fragments options =
      CodeUnit.assemble t fragments options := by
  have hsteps : ∀ hook, unitSteps { t with usings := usings } hook fragments =
      unitSteps t hook fragments := by
    intro hook
    rw [unitSteps, unitSteps, h]
    rfl
  rw [assemble, assemble, hsteps]
  rfl

/-- What a type contributes depends on its candidates, on the place of its first part, and on
its surroundings with merged using directives. -/
theorem MarkedType.contribution_congr {t t' : MarkedType}
    (hplace : t'.rejection = t.rejection) (hcandidates : t'.candidates = t.candidates)
    (henclosing : t'.enclosing = { t.enclosing with usings := t'.enclosing.usings })
    (husings : mergeUsings t'.enclosing.usings = mergeUsings t.enclosing.usings)
    (options : Options) (model : SemanticModel) :
    t'.contribution options model = t.contribution options model := by
  have hname := name_eq_of_enclosing_eq henclosing
  have hrejected := isRejected_eq_of_enclosing_eq henclosing options
  have hassemble : ∀ fragments, CodeUnit.assemble t'.enclosing fragments options =
      CodeUnit.assemble t.enclosing fragments options := by
    intro fragments
    rw [henclosing]
    exact CodeUnit.assemble_congr husings fragments options
  simp only [contribution, hrejected, Contribution.ofRejected, hplace, Contribution.ofOutcomes,
    hassemble, hcandidates, hname]

/-! ## Files that tell nothing new -/

namespace Compilation

/-- Files that tell nothing new about the types of a compilation. -/
structure AddsNothing (c more : Compilation) : Prop where
  parts : ∀ s ∈ Site.partsIn more.sites,
    s.key ∈ Site.keysIn c.sites ∧ s.part.Repeats (c.headerUnder s.key)
  candidates : ∀ key, Site.candidatesUnder key more.sites = []
  usings : ∀ key, ∀ f ∈ more.filesUnder key, ∀ u ∈ f.usings, Text.trim u.render ∈
    mergeUsings (((c.filesUnder key).flatMap SourceFile.usings).map UsingDirective.render)

namespace AddsNothing

variable {c more : Compilation}

theorem keysIn_eq (h : c.AddsNothing more) :
    Site.keysIn (c ++ more).sites = Site.keysIn c.sites := by
  rw [sites_append]
  exact Site.keysIn_append_of_subset fun s hs => (h.parts s hs).1

theorem candidatesUnder_eq (h : c.AddsNothing more) (key : String) :
    Site.candidatesUnder key (c ++ more).sites = Site.candidatesUnder key c.sites := by
  rw [sites_append, Site.candidatesUnder_append, h.candidates, List.append_nil]

/-- The same types have candidates. -/
theorem markedKeys_eq (h : c.AddsNothing more) :
    Site.markedKeys (c ++ more).sites = Site.markedKeys c.sites := by
  simp only [Site.markedKeys, h.keysIn_eq, h.candidatesUnder_eq]

/-- The headers are the same. -/
theorem headerUnder_eq (h : c.AddsNothing more) {key : String}
    (hkey : key ∈ Site.keysIn c.sites) : (c ++ more).headerUnder key = c.headerUnder key := by
  rcases Site.exists_mem_partsUnder hkey with ⟨s, hs⟩
  have hne : (Site.partsUnder key c.sites).map PartSite.part ≠ [] := by
    simpa using List.ne_nil_of_mem hs
  rw [headerUnder, sites_append, Site.partsUnder_append, List.map_append]
  apply Header.ofParts_append_of_repeats hne
  intro part hpart
  rcases List.mem_map.mp hpart with ⟨s', hs', rfl⟩
  rcases Site.mem_partsUnder_iff.mp hs' with ⟨hmem, rfl⟩
  exact (h.parts s' hmem).2

/-- What a type contributes is the same. -/
theorem contribution_eq (h : c.AddsNothing more)
    (hpaths : ((c ++ more).files.map SourceFile.path).Nodup) {key : String}
    {t t' : MarkedType} {first first' : PartSite} {others others' : List PartSite}
    (hgathers : t.Gathers c.sites key first others) (hheaders : t.HasHeaders c first)
    (hgathers' : t'.Gathers (c ++ more).sites key first' others')
    (hheaders' : t'.HasHeaders (c ++ more) first') (options : Options) (model : SemanticModel) :
    t'.contribution options model = t.contribution options model := by
  -- The first part is still the first.
  have hfirst : first' = first := by
    have hparts := hgathers'.parts
    rw [sites_append, Site.partsUnder_append, hgathers.parts, List.cons_append,
      List.cons.injEq] at hparts
    exact hparts.1.symm
  subst hfirst
  rcases Site.mem_partsUnder_iff.mp hgathers.first_mem with ⟨hmem, -⟩
  have henclosing : t'.enclosing = { t.enclosing with usings := t'.enclosing.usings } := by
    apply hheaders.enclosing_eq hheaders' rfl rfl
    intro o ho
    exact h.headerUnder_eq (c.grounded_sites.key_mem_keysIn_of_mem_inside hmem ho)
  have hfiles : (c ++ more).filesUnder key = c.filesUnder key ++ more.filesUnder key :=
    List.filter_append c.files more.files
  have hpathsLeft : (c.files.map SourceFile.path).Nodup :=
    List.Nodup.sublist ((List.sublist_append_left c.files more.files).map _) hpaths
  have husings : mergeUsings t'.enclosing.usings = mergeUsings t.enclosing.usings := by
    change mergeUsings (t'.usings.map UsingDirective.render) =
      mergeUsings (t.usings.map UsingDirective.render)
    rw [hgathers'.usings_of_nodup hpaths, hgathers.usings_of_nodup hpathsLeft, hfiles,
      List.flatMap_append, List.map_append]
    apply mergeUsings_append_of_subset
    intro line hline
    rcases List.mem_map.mp hline with ⟨u, hu, rfl⟩
    rcases List.mem_flatMap.mp hu with ⟨f, hf, hu⟩
    exact h.usings key f hf u hu
  have hplace : t'.rejection = t.rejection := by
    have hname := MarkedType.name_eq_of_enclosing_eq henclosing
    rw [MarkedType.rejection, MarkedType.rejection, hname, hgathers'.first_eq,
      hgathers'.file_eq, ← hgathers.first_eq, ← hgathers.file_eq]
  have hcandidates : t'.candidates = t.candidates := by
    rw [hgathers'.candidates_eq, h.candidatesUnder_eq, hgathers.candidates_eq]
  exact MarkedType.contribution_congr hplace hcandidates henclosing husings options model

/-- Files that tell nothing new change no contribution. -/
theorem map_contribution_scan (h : c.AddsNothing more) {n : Naming} (hn : n.ExcludesPlus)
    (hfollows : (c ++ more).follows n)
    (hpaths : ((c ++ more).files.map SourceFile.path).Nodup) (options : Options)
    (model : SemanticModel) :
    (c ++ more).scan.map (MarkedType.contribution options model) =
      c.scan.map (MarkedType.contribution options model) := by
  have hfollowsLeft : c.follows n := by
    rw [Compilation.follows, List.all_eq_true] at hfollows ⊢
    exact fun f hf => hfollows f (List.mem_append_left _ hf)
  have hscan' := forall₂_headers_scan hn hfollows
  rw [h.markedKeys_eq] at hscan'
  have hboth := forall₂_of_common hscan' (forall₂_headers_scan hn hfollowsLeft)
  rw [map_eq_map_iff_forall₂]
  apply hboth.imp
  rintro t' t ⟨key, ⟨first', others', hgathers', hheaders'⟩, first, others, hgathers, hheaders⟩
  exact h.contribution_eq hpaths hgathers hheaders hgathers' hheaders' options model

end AddsNothing

end Compilation

end SceneWiring
