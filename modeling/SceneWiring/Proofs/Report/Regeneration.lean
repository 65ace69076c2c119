import Mathlib.Data.Set.List
import SceneWiring.Proofs.Declaration.Reopening
import SceneWiring.Proofs.Report.Identity
import SceneWiring.Proofs.Report.Repetition

/-!
# Generating again

The code of a unit is compiled together with the files that it was made from, and the next
run sees what it declares.  If names are identifiers and no namespace stands inside a type,
this tells nothing new: the parts have the keys and the headers of the types that they
reopen, and every file with a part of a type also has parts of the types around it, so that
these get no directives that they did not have.  The report stays the same.

Main results:

- Theorem `filesUnder_subset_of_mem_inside`: files with parts of a type have parts of the types
  around it.
- Theorem `ReopenedBy.addsNothing`: files that reopen scanned types tell nothing new.
- Theorem `exists_reopens`: every type can be reopened.
- Theorem `generate_append_reopened`: generating again gives the same report.
-/

namespace SceneWiring

/-! ## Files with parts of nested types -/

/-- A file has a part under a key if it lists the key. -/
theorem SourceFile.hasPartUnder_iff {key : String} {f : SourceFile} :
    f.hasPartUnder key ↔ key ∈ Site.keysIn f.sites := by
  rw [hasPartUnder, Bool.not_eq_true', List.isEmpty_eq_false_iff]
  constructor
  · intro hne
    rcases List.exists_mem_of_ne_nil _ hne with ⟨s, hs⟩
    exact Site.mem_keysIn_of_mem_partsUnder hs
  · intro hkey
    rcases Site.exists_mem_partsUnder hkey with ⟨s, hs⟩
    exact List.ne_nil_of_mem hs

/-- In a file, a type is met before what stands in it. -/
theorem SourceFile.grounded_sites (f : SourceFile) : Site.Grounded f.sites :=
  Decl.grounded_sitesAll f.members (.top f) [] .nil (by simp [Place.top])

/-- A file with a part of a type has parts of the types around it. -/
theorem filesUnder_subset_of_mem_inside {n : Naming} (hn : n.ExcludesPlus) {c : Compilation}
    (h : c.follows n) {first : PartSite} (hfirst : first ∈ Site.partsIn c.sites) {o : OuterType}
    (ho : o ∈ first.inside.around) : c.filesUnder first.key ⊆ c.filesUnder o.key := by
  intro f hf
  rcases List.mem_filter.mp hf with ⟨hfile, hpart⟩
  refine List.mem_filter.mpr ⟨hfile, ?_⟩
  rw [SourceFile.hasPartUnder_iff] at hpart ⊢
  rcases Site.mem_keysIn_iff.mp hpart with ⟨s, hs, hkey⟩
  have hmem : .part s ∈ c.sites :=
    List.mem_flatMap.mpr ⟨f, hfile, Site.mem_partsIn_iff.mp hs⟩
  have hkeys := (PartSite.keys_eq_of_key_eq hn
    (Compilation.follows_of_mem_sites h _ (Site.mem_partsIn_iff.mp hfirst))
    (Compilation.follows_of_mem_sites h _ hmem) hkey).2.2
  have houter : o.key ∈ s.inside.around.map OuterType.key := by
    rw [hkeys]
    exact List.mem_map_of_mem ho
  rcases List.mem_map.mp houter with ⟨o', ho', hkey'⟩
  rw [← hkey']
  exact f.grounded_sites.key_mem_keysIn_of_mem_inside hs ho'

/-! ## Files that reopen scanned types -/

namespace SourceFile.Reopens

variable {c : Compilation} {t : MarkedType} {first : PartSite} {hook : String} {f : SourceFile}

/-- A part in a file that reopens a scanned type has the key and the header of a type around
the first part, or of the type itself. -/
theorem exists_mem_inside (h : f.Reopens t.enclosing hook) (hfollows : c.follows .identifiers)
    (hheaders : t.HasHeaders c first) (hfirst : first ∈ Site.partsIn c.sites) {s : PartSite}
    (hs : s ∈ Site.partsIn f.sites) :
    ∃ o ∈ first.inside.around, s.key = o.key ∧ s.part.Repeats (c.headerUnder o.key) := by
  have hfirst' := Compilation.follows_of_mem_sites hfollows _ (Site.mem_partsIn_iff.mp hfirst)
  have hinside : first.inside.Follows .identifiers := hfirst'.1.enterType hfirst'.2
  have hname : ∀ o ∈ first.inside.around, Text.trim (c.headerUnder o.key).name = o.name := by
    intro o ho
    rw [Compilation.headerUnder, Header.trim_name_ofParts]
    exact Compilation.name_headerUnder Naming.excludesPlus_identifiers hfollows hinside ho
      (c.grounded_sites.key_mem_keysIn_of_mem_inside hfirst ho)
  rcases h.exists_of_mem_parts hs with ⟨outerHeaders, header, innerHeaders, hsplit, hpart, hkey⟩
  rw [hheaders.headers_eq, List.map_eq_append_iff] at hsplit
  rcases hsplit with ⟨outer, rest, haround, rfl, hrest⟩
  rcases List.map_eq_cons_iff.mp hrest with ⟨o, inner, rfl, rfl, -⟩
  have hmem : o ∈ first.inside.around := by simp [haround]
  refine ⟨o, hmem, ?_, hpart⟩
  have hnames : ((outer.map (fun o => c.headerUnder o.key)) ++ [c.headerUnder o.key]).map
      (fun header => Text.trim header.name) = outer.map OuterType.name ++ [o.name] := by
    have houter : outer.map ((fun header => Text.trim header.name) ∘
        fun o => c.headerUnder o.key) = outer.map OuterType.name := by
      apply List.map_congr_left
      intro o' ho'
      exact hname o' (by simp [haround, ho'])
    rw [List.map_append, List.map_singleton, List.map_map, hname o hmem, houter]
  have hpath : t.enclosing.path = ".".intercalate first.inside.namespaces := by
    rw [hheaders.path]
    exact dottedPath_eq hfirst'.1.namespaces
  rw [hkey, hnames, hpath, hinside.key_eq haround]
  rfl

end SourceFile.Reopens

/-- There are no blanks around the names in the headers of a scanned type. -/
theorem MarkedType.trim_name_of_mem_headers (t : MarkedType) {header : Header}
    (h : header ∈ t.enclosing.containers ++ [t.enclosing.header]) :
    Text.trim header.name = header.name := by
  rcases List.mem_append.mp h with h | h
  · rcases List.mem_map.mp h with ⟨parts, -, rfl⟩
    exact Header.trim_name_ofParts parts
  · rw [List.mem_singleton.mp h]
    exact Header.trim_name_ofParts t.parts

/-- Files that reopen scanned types. -/
def Compilation.ReopenedBy (c : Compilation) (generated : List SourceFile) : Prop :=
  ∀ f ∈ generated, ∃ t ∈ c.scan, ∃ hook, f.Reopens t.enclosing hook

namespace Compilation.ReopenedBy

variable {c : Compilation} {generated : List SourceFile}

/-- The parts in files that reopen scanned types repeat headers of known types. -/
theorem parts (h : c.ReopenedBy generated) (hfollows : c.follows .identifiers) :
    ∀ s ∈ Site.partsIn (⟨generated⟩ : Compilation).sites,
      s.key ∈ Site.keysIn c.sites ∧ s.part.Repeats (c.headerUnder s.key) := by
  intro s hs
  rcases List.mem_flatMap.mp (Site.mem_partsIn_iff.mp hs) with ⟨f, hf, hsite⟩
  rcases h f hf with ⟨t, ht, hook, hreopens⟩
  rcases exists_headers_of_mem_scan Naming.excludesPlus_identifiers hfollows ht with
    ⟨key, first, others, hgathers, hheaders⟩
  have hfirst := (Site.mem_partsUnder_iff.mp hgathers.first_mem).1
  rcases hreopens.exists_mem_inside hfollows hheaders hfirst (Site.mem_partsIn_iff.mpr hsite) with
    ⟨o, ho, hkey, hpart⟩
  rw [hkey]
  exact ⟨c.grounded_sites.key_mem_keysIn_of_mem_inside hfirst ho, hpart⟩

/-- There are no candidates in files that reopen types. -/
theorem candidates (h : c.ReopenedBy generated) (key : String) :
    Site.candidatesUnder key (⟨generated⟩ : Compilation).sites = [] := by
  rw [Site.candidatesUnder_sites, List.flatMap_eq_nil_iff]
  intro f hf
  rcases h f hf with ⟨t, ht, hook, hreopens⟩
  exact hreopens.candidatesUnder_eq_nil key

/-- The using directives of files that reopen types are among those of the types around them. -/
theorem usings (h : c.ReopenedBy generated) (hfollows : c.follows .identifiers)
    (hpaths : (c.files.map SourceFile.path).Nodup) :
    ∀ key, ∀ f ∈ (⟨generated⟩ : Compilation).filesUnder key, ∀ u ∈ f.usings,
      Text.trim u.render ∈
        mergeUsings (((c.filesUnder key).flatMap SourceFile.usings).map UsingDirective.render) := by
  intro key f hf u hu
  rcases List.mem_filter.mp hf with ⟨hfile, hpart⟩
  rcases Site.mem_keysIn_iff.mp (SourceFile.hasPartUnder_iff.mp hpart) with ⟨s, hs, rfl⟩
  rcases h f hfile with ⟨t, ht, hook, hreopens⟩
  rcases exists_headers_of_mem_scan Naming.excludesPlus_identifiers hfollows ht with
    ⟨key, first, others, hgathers, hheaders⟩
  rcases Site.mem_partsUnder_iff.mp hgathers.first_mem with ⟨hfirst, rfl⟩
  rcases hreopens.exists_mem_inside hfollows hheaders hfirst hs with ⟨o, ho, hkey, -⟩
  have hline : u.render ∈ mergeUsings t.enclosing.usings := by
    rw [← hreopens.map_render_usings]
    exact List.mem_map_of_mem hu
  rw [trim_of_mem_mergeUsings hline, mem_mergeUsings_iff]
  rcases mem_mergeUsings_iff.mp hline with hneeded | hown
  · exact Or.inl hneeded
  · -- The directive is one of a file with a part of the reopened type.
    right
    rcases List.mem_map.mp hown with ⟨line, hline, heq⟩
    rcases List.mem_map.mp hline with ⟨v, hv, rfl⟩
    rw [hgathers.usings_of_nodup hpaths] at hv
    rcases List.mem_flatMap.mp hv with ⟨g, hg, hv⟩
    have hsubset := filesUnder_subset_of_mem_inside Naming.excludesPlus_identifiers hfollows
      hfirst ho
    rw [hkey, ← heq]
    exact List.mem_map_of_mem (List.mem_map_of_mem (List.mem_flatMap.mpr ⟨g, hsubset hg, hv⟩))

/-- Files that reopen scanned types tell nothing new. -/
theorem addsNothing (h : c.ReopenedBy generated) (hfollows : c.follows .identifiers)
    (hpaths : (c.files.map SourceFile.path).Nodup) : c.AddsNothing ⟨generated⟩ where
  parts := h.parts hfollows
  candidates := h.candidates
  usings := h.usings hfollows hpaths

/-- Together with files that reopen its types, a compilation has no names with plus signs. -/
theorem follows (h : c.ReopenedBy generated) (hfollows : c.follows .identifiers) :
    (c ++ (⟨generated⟩ : Compilation)).follows .withoutPlus := by
  have hleft : c.follows .withoutPlus :=
    Compilation.follows_withoutPlus Naming.excludesPlus_identifiers hfollows
  have hright : ∀ f ∈ generated, Decl.allFollow .withoutPlus false f.members := by
    intro f hf
    rcases h f hf with ⟨t, ht, hook, hreopens⟩
    have hnames := follows_of_mem_scan Naming.excludesPlus_identifiers hfollows t ht
    apply hreopens.allFollow
    · intro _
      have hpath : t.enclosing.path = ".".intercalate t.namespaces :=
        dottedPath_eq hnames.namespaces
      have hplus := plus_not_mem_intercalate fun name hname =>
        Naming.excludesPlus_identifiers.scope name (hnames.namespaces name hname)
      rw [hpath]
      simpa [Naming.withoutPlus] using hplus
    · intro header hheader
      have hname : header.name ∈ t.names := by
        rw [t.names_eq_map]
        exact List.mem_map_of_mem hheader
      have hplus := Naming.excludesPlus_identifiers.type _ (hnames.names _ hname)
      rw [t.trim_name_of_mem_headers hheader]
      simpa [Naming.withoutPlus] using hplus
  rw [Compilation.follows, List.all_eq_true] at hleft ⊢
  intro f hf
  rcases List.mem_append.mp hf with hf | hf
  · exact hleft f hf
  · exact hright f hf

end Compilation.ReopenedBy

/-! ## There are such files -/

/-- There are no blanks around a using directive. -/
theorem UsingDirective.trim_render (u : UsingDirective) : Text.trim u.render = u.render := by
  obtain ⟨shorthand, hrender⟩ : ∃ shorthand, u.render =
      "using " ++ (if u.isStatic then "static " else "") ++ shorthand ++ Text.trim u.name ++ ";" :=
    ⟨_, rfl⟩
  obtain ⟨inside, hinside⟩ : ∃ inside, u.render.toList = 'u' :: inside ++ [';'] := by
    refine ⟨"sing ".toList ++
      ((if u.isStatic then "static " else "") ++ shorthand ++ Text.trim u.name).toList, ?_⟩
    rw [hrender]
    simp
  have htrimmed : Text.trimmed ([] ++ ('u' :: inside ++ [';']) ++ []) = 'u' :: inside ++ [';'] :=
    Text.trimmed_append (by simp) (by simp) (by decide) (by decide) inside
  rw [← String.toList_inj, Text.toList_trim, hinside]
  simpa using htrimmed

/-- Every scanned type can be reopened. -/
theorem exists_reopens (t : MarkedType) (hook path : String) :
    ∃ f : SourceFile, f.path = path ∧ f.Reopens t.enclosing hook := by
  have hlines : mergeUsings t.enclosing.usings ∈
      Set.range (List.map UsingDirective.render) := by
    rw [Set.range_list_map]
    intro line hline
    rcases mem_mergeUsings_iff.mp hline with hneeded | hown
    · have hall : neededUsings = [(⟨"UnityEngine", none, false, .unknown⟩ : UsingDirective),
          ⟨"System.Linq", none, false, .unknown⟩].map UsingDirective.render := by
        decide
      rw [hall] at hneeded
      rcases List.mem_map.mp hneeded with ⟨u, -, hu⟩
      exact ⟨u, hu⟩
    · rcases List.mem_map.mp hown with ⟨line', hline', rfl⟩
      rcases List.mem_map.mp hline' with ⟨u, -, rfl⟩
      exact ⟨u, u.trim_render.symm⟩
  rcases hlines with ⟨directives, hdirectives⟩
  exact ⟨_, rfl, EnclosingType.reopens_reopening hdirectives hook path⟩

/-! ## Generating again -/

/-- If names are identifiers, no namespace stands inside a type and paths are distinct, the
files that declare what the units of a report declare leave the report as it is.  These files
print as the texts of the units, whatever places their declarations have. -/
theorem generate_append_reopened {c : Compilation} (hfollows : c.follows .identifiers)
    {options : Options} {model : SemanticModel} {generated : List SourceFile}
    (hgenerated : List.Forall₂
      (fun (t : MarkedType) (f : SourceFile) => f.Reopens t.enclosing (t.unit options model).hook)
      (c.unitTypes options model) generated)
    (hpaths : ((c ++ (⟨generated⟩ : Compilation)).files.map SourceFile.path).Nodup) :
    ∃ report, (generate options model c).result = .ok report ∧
      (generate options model (c ++ ⟨generated⟩)).result = .ok report ∧
      List.Forall₂
        (fun (u : CodeUnit) (f : SourceFile) => ∃ fragments : List Fragment,
          u.fragmentCount = fragments.length ∧
          u.text = f.code (fragments.flatMap Fragment.statements))
        report.units generated := by
  have hreopened : c.ReopenedBy generated := by
    intro f hf
    rcases exists_of_mem_forall₂ hgenerated hf with ⟨t, ht, hreopens⟩
    exact ⟨t, List.mem_of_mem_filter ht, _, hreopens⟩
  have hpathsLeft : (c.files.map SourceFile.path).Nodup :=
    List.Nodup.sublist ((List.sublist_append_left c.files generated).map _) hpaths
  have hcontributions := (hreopened.addsNothing hfollows hpathsLeft).map_contribution_scan
    Naming.excludesPlus_withoutPlus (hreopened.follows hfollows) hpaths options model
  refine ⟨_, result_generate options model c, ?_, ?_⟩
  · rw [result_generate, hcontributions]
  · rw [units_generate (result_generate options model c), qualifyShared, List.map_map,
      List.forall₂_map_left_iff]
    apply hgenerated.imp
    intro t f hf
    have hunit : ∀ u : CodeUnit, u = t.unit options model ∨ u = (t.unit options model).qualified →
        ∃ fragments : List Fragment, u.fragmentCount = fragments.length ∧
          u.text = f.code (fragments.flatMap Fragment.statements) := by
      rintro u (rfl | rfl)
      · exact ⟨t.fragments options model, rfl, (hf.code_eq _).symm⟩
      · exact ⟨t.fragments options model, rfl, (hf.code_eq _).symm⟩
    apply hunit
    rw [Function.comp_apply]
    split
    · exact Or.inr rfl
    · exact Or.inl rfl

/-- A file with a type that has a candidate and a nested type with another one. -/
def house : Compilation where
  files :=
    [{ path := "House.cs"
       members :=
        [.directive ⟨"Furniture", none, false, .unknown⟩,
         .scope ⟨"Game", .unknown⟩
          [.type ⟨"House", ["public", "partial"], [], .unknown⟩
            [.member (.field ⟨"Door", ["front"], [], [⟨"Get", []⟩], .unknown⟩),
             .type ⟨"Room", ["sealed", "partial"], ["T"], .unknown⟩
              [.member (.field ⟨"Door", ["door"], [], [⟨"Get", []⟩], .unknown⟩)]]]] }]

/-- The files that the units of the house declare. -/
def houseGenerated : List SourceFile :=
  (house.unitTypes .default .ofDeclarations).map fun t =>
    t.enclosing.reopening (t.unit .default .ofDeclarations).hook
      (t.enclosing.qualifiedName ++ ".cs")
      [⟨"UnityEngine", none, false, .unknown⟩, ⟨"System.Linq", none, false, .unknown⟩,
       ⟨"Furniture", none, false, .unknown⟩]

/-- The two units of the house stay the same when both are compiled with it. -/
theorem house_generate_append_reopened :
    (house.unitTypes .default .ofDeclarations).length = 2 ∧
      ∃ report, (generate .default .ofDeclarations house).result = .ok report ∧
        (generate .default .ofDeclarations (house ++ ⟨houseGenerated⟩)).result = .ok report := by
  have hreopens : List.Forall₂
      (fun (t : MarkedType) (f : SourceFile) =>
        f.Reopens t.enclosing (t.unit .default .ofDeclarations).hook)
      (house.unitTypes .default .ofDeclarations) houseGenerated := by
    rw [houseGenerated, List.forall₂_map_right_iff, List.forall₂_same]
    have husings : ∀ t ∈ house.unitTypes .default .ofDeclarations,
        [(⟨"UnityEngine", none, false, .unknown⟩ : UsingDirective),
         ⟨"System.Linq", none, false, .unknown⟩, ⟨"Furniture", none, false, .unknown⟩].map
          UsingDirective.render = mergeUsings t.enclosing.usings := by
      decide +kernel
    intro t ht
    exact EnclosingType.reopens_reopening (husings t ht) _ _
  rcases generate_append_reopened (by decide +kernel) hreopens (by decide +kernel) with
    ⟨report, hreport, hagain, -⟩
  exact ⟨by decide +kernel, report, hreport, hagain⟩

end SceneWiring
