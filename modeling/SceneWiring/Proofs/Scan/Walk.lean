import SceneWiring.Proofs.Scan.Site

/-!
# The walk as a fold over sites

Where the walk stands, the state of the scanner is that place together with the entries
found so far: the positions on its stack are those of the entries of the types around the
place.  What the walk over declarations does to the entries is then what noting their
sites one after the other does, and the rest of the theory needs no stacks.

Main results:

- Definition `Place.scan`: the state of the scanner at a place.
- Definition `Site.note`: the entries after one more site.
- Theorem `runNode_scan`: the walk over a declaration notes its sites and comes back to
  the place where it started.
- Theorem `entries_run`: the walk over a compilation notes its sites.
-/

namespace SceneWiring

/-! ## Keys and positions of entries -/

/-- The keys of entries. -/
def entryKeys (entries : List Entry) : List String :=
  entries.map Entry.key

/-- The entry with a key is found at the position of the key. -/
theorem find?_eq_idxOf? (s : Scan) (key : String) :
    s.find? key = (entryKeys s.entries).idxOf? key := by
  simp [Scan.find?, entryKeys, List.idxOf?, Function.comp_def]

/-- A key that occurs is found at its position. -/
theorem idxOf?_of_mem {keys : List String} {key : String} (h : key ∈ keys) :
    keys.idxOf? key = some (keys.idxOf key) :=
  List.findIdx?_eq_some_of_exists ⟨key, h, by simp⟩

/-- More keys at the end do not move a key that occurs. -/
theorem idxOf_eq_of_extension {keys more : List String} {key : String} (h : key ∈ keys)
    (hmore : keys <+: more) : more.idxOf key = keys.idxOf key := by
  rcases hmore with ⟨rest, rfl⟩
  rw [List.idxOf_append, if_pos h]

/-- Changing an entry in a way that keeps its key keeps all keys. -/
theorem entryKeys_modify {f : Entry → Entry} (hf : ∀ e, (f e).key = e.key)
    (entries : List Entry) (i : Nat) : entryKeys (entries.modify i f) = entryKeys entries := by
  induction entries generalizing i with
  | nil => simp
  | cons e entries ih =>
      cases i with
      | zero => simp [entryKeys, hf]
      | succ i => simpa [entryKeys] using ih i

@[simp]
theorem Entry.key_addCandidate (c : Candidate) (e : Entry) :
    (e.addCandidate c).key = e.key :=
  rfl

/-! ## The scanner at a place -/

namespace Place

/-- The state of the scanner at a place, with the entries found so far. -/
def scan (entries : List Entry) (p : Place) : Scan where
  file := p.file.path
  fileUsings := p.file.usings
  namespaces := p.namespaces
  around := p.around.map fun t => ⟨(entryKeys entries).idxOf t.key, t.name⟩
  entries := entries

/-- Whether all types around a place have entries. -/
def Known (entries : List Entry) (p : Place) : Prop :=
  ∀ t ∈ p.around, t.key ∈ entryKeys entries

/-- Types keep their entries. -/
theorem Known.mono {entries more : List Entry} {p : Place} (h : p.Known entries)
    (hmore : entryKeys entries <+: entryKeys more) : p.Known more :=
  fun t ht => hmore.subset (h t ht)

/-- The scanner makes the keys of a place. -/
@[simp]
theorem keyOf_scan (entries : List Entry) (p : Place) (name : String) :
    (p.scan entries).keyOf name = p.keyOf name := by
  simp [scan, Scan.keyOf, keyOf, Function.comp_def]

/-- The innermost type around the scanner is that around the place. -/
theorem getLast?_around_scan (entries : List Entry) (p : Place) :
    (p.scan entries).around.getLast?.map Around.index =
      p.ownerKey?.map (entryKeys entries).idxOf := by
  simp [scan, ownerKey?, Function.comp_def]

/-- Further entries do not move the types around a place. -/
theorem around_scan_of_extension {entries more : List Entry} {p : Place} (h : p.Known entries)
    (hmore : entryKeys entries <+: entryKeys more) :
    (p.scan more).around = (p.scan entries).around := by
  apply List.map_congr_left
  intro t ht
  rw [idxOf_eq_of_extension (h t ht) hmore]

end Place

/-! ## Noting a site -/

/-- The entry that a part starts with, its file merged. -/
def PartSite.entry (entries : List Entry) (s : PartSite) : Entry where
  key := s.key
  parent := s.place.ownerKey?.map (entryKeys entries).idxOf
  first := s.part
  others := []
  namespaces := s.place.namespaces
  file := s.file.path
  mergedFiles := [s.file.path]
  usings := s.file.usings
  candidates := []

/-- An entry with one more part of its type. -/
def PartSite.addTo (s : PartSite) (e : Entry) : Entry :=
  (e.addPart s.part).mergeFile s.file.path s.file.usings

namespace PartSite

variable (s : PartSite) (e : Entry)

/-- A further part changes the parts, the merged files and the using directives. -/
theorem addTo_eq :
    s.addTo e =
      { e with
        others := e.others ++ [s.part]
        mergedFiles := (s.addTo e).mergedFiles
        usings := (s.addTo e).usings } := by
  unfold addTo Entry.mergeFile
  split <;> rfl

@[simp]
theorem key_addTo : (s.addTo e).key = e.key := by
  rw [addTo_eq]

/-- The file of a further part is merged. -/
theorem mem_mergedFiles_addTo {path : String} :
    path ∈ (s.addTo e).mergedFiles ↔ path ∈ e.mergedFiles ∨ path = s.file.path := by
  unfold addTo Entry.mergeFile
  split
  · rename_i h
    have hmem : s.file.path ∈ e.mergedFiles := by simpa [Entry.addPart] using h
    constructor
    · exact Or.inl
    · rintro (hpath | rfl)
      · exact hpath
      · exact hmem
  · simp [Entry.addPart]

/-- A further part brings the using directives of its file unless the path is merged. -/
theorem usings_addTo :
    (s.addTo e).usings =
      if s.file.path ∈ e.mergedFiles then e.usings
      else e.usings ++ s.file.usings := by
  by_cases h : s.file.path ∈ e.mergedFiles <;>
    simp [addTo, Entry.mergeFile, Entry.addPart, h]

end PartSite

/-- The entries after one more site. -/
def Site.note (entries : List Entry) : Site → List Entry
  | .part s => ((s.place.scan entries).enterType s.part).entries
  | .member s => ((s.place.scan entries).addMember s.member).entries

namespace Site

variable {entries : List Entry}

/-- A further part of a known type goes to the entry of its key. -/
theorem note_part_of_mem {s : PartSite} (h : s.key ∈ entryKeys entries) :
    note entries (.part s) = entries.modify ((entryKeys entries).idxOf s.key) s.addTo := by
  have hfind : (s.place.scan entries).find? (s.place.keyOf s.part.name) =
      some ((entryKeys entries).idxOf s.key) :=
    (find?_eq_idxOf? _ _).trans (idxOf?_of_mem h)
  simp only [note, Scan.enterType, Scan.place, Place.keyOf_scan, hfind]
  exact List.modify_modify_eq _ _ _ _

/-- The entry of a first part, once its file is merged. -/
theorem mergeFile_newEntry (entries : List Entry) (s : PartSite) :
    ((s.place.scan entries).newEntry s.part).mergeFile s.file.path s.file.usings =
      s.entry entries := by
  simp only [Scan.newEntry, Entry.mergeFile, PartSite.entry, Place.keyOf_scan,
    Place.getLast?_around_scan]
  rfl

/-- The first part of a type makes an entry. -/
theorem note_part_of_not_mem {s : PartSite} (h : s.key ∉ entryKeys entries) :
    note entries (.part s) = entries ++ [s.entry entries] := by
  have hfind : (s.place.scan entries).find? (s.place.keyOf s.part.name) = none :=
    (find?_eq_idxOf? _ _).trans (List.idxOf?_eq_none_iff.mpr h)
  simp only [note, Scan.enterType, Scan.place, Place.keyOf_scan, hfind]
  rw [← mergeFile_newEntry, List.modify_eq_take_cons_drop (by simp [Place.scan])]
  simp [Place.scan, PartSite.file]

/-- A member goes to the entry of the innermost type around it if it carries a strategy. -/
theorem note_member (s : MemberSite) :
    note entries (.member s) =
      match s.member.isMarked, s.ownerKey? with
      | true, some key =>
        entries.modify ((entryKeys entries).idxOf key) (Entry.addCandidate s.candidate)
      | _, _ => entries := by
  cases hmarked : s.member.isMarked with
  | false => simp [note, Scan.addMember, hmarked, Place.scan]
  | true =>
      cases howner : s.place.around.getLast? with
      | none =>
          simp [note, Scan.addMember, hmarked, Place.scan, howner, MemberSite.ownerKey?,
            Place.ownerKey?]
      | some t =>
          simp [note, Scan.addMember, hmarked, Place.scan, howner, MemberSite.ownerKey?,
            Place.ownerKey?, MemberSite.candidate]

/-- Noting a part adds its key unless it is there. -/
theorem entryKeys_note_part (s : PartSite) :
    entryKeys (note entries (.part s)) =
      if s.key ∈ entryKeys entries then entryKeys entries else entryKeys entries ++ [s.key] := by
  by_cases h : s.key ∈ entryKeys entries
  · rw [note_part_of_mem h, entryKeys_modify s.key_addTo, if_pos h]
  · rw [note_part_of_not_mem h, if_neg h]
    simp [entryKeys, PartSite.entry]

/-- A part that was just noted has an entry. -/
theorem key_mem_entryKeys_note (s : PartSite) :
    s.key ∈ entryKeys (note entries (.part s)) := by
  rw [entryKeys_note_part]
  split
  · assumption
  · exact List.mem_append_right _ (List.mem_singleton_self _)

/-- Noting a member adds no key. -/
theorem entryKeys_note_member (s : MemberSite) :
    entryKeys (note entries (.member s)) = entryKeys entries := by
  rw [note_member]
  split
  · exact entryKeys_modify (Entry.key_addCandidate s.candidate) _ _
  · rfl

/-- Noting a site keeps the keys that are there, in their order. -/
theorem entryKeys_prefix_note (site : Site) :
    entryKeys entries <+: entryKeys (note entries site) := by
  cases site with
  | part s =>
      rw [entryKeys_note_part]
      split
      · exact List.prefix_rfl
      · exact List.prefix_append _ _
  | member s =>
      rewrite [entryKeys_note_member]
      exact List.prefix_rfl

/-- Noting sites keeps the keys that are there, in their order. -/
theorem entryKeys_prefix_foldl_note (sites : List Site) (entries : List Entry) :
    entryKeys entries <+: entryKeys (sites.foldl note entries) := by
  induction sites generalizing entries with
  | nil => exact List.prefix_rfl
  | cons site sites ih => exact (entryKeys_prefix_note site).trans (ih (note entries site))

end Site

/-! ## The walk -/

namespace Place

variable {entries : List Entry} {p : Place}

/-- Going into a namespace moves the scanner to the place inside. -/
theorem enterScope_scan (head : ScopeHead) :
    (p.scan entries).enterScope head = (p.enterScope head).scan entries :=
  rfl

/-- Coming out of a namespace moves the scanner to the place outside. -/
theorem leaveScope_scan (head : ScopeHead) :
    ((p.enterScope head).scan entries).leaveScope = p.scan entries := by
  simp [scan, enterScope, Scan.leaveScope]

/-- Coming out of a type moves the scanner to the place outside. -/
theorem leaveType_scan (part : TypePart) :
    ((p.enterType part).scan entries).leaveType = p.scan entries := by
  simp [scan, enterType, Scan.leaveType]

/-- The position of a part that was just noted is the one that the scanner chose. -/
theorem fst_place_scan (entries : List Entry) (s : PartSite) :
    ((s.place.scan entries).place s.part).1 =
      (entryKeys (Site.note entries (.part s))).idxOf s.key := by
  have hfind : (s.place.scan entries).find? ((s.place.scan entries).keyOf s.part.name) =
      (entryKeys entries).idxOf? s.key := by
    rw [keyOf_scan]
    exact find?_eq_idxOf? _ _
  rw [Scan.place, hfind, Site.entryKeys_note_part]
  by_cases h : s.key ∈ entryKeys entries
  · rw [idxOf?_of_mem h, if_pos h]
  · rw [List.idxOf?_eq_none_iff.mpr h, if_neg h, List.idxOf_append, if_neg h]
    simp [entryKeys, scan]

/-- Inside a part that was just noted, all types around have entries. -/
theorem Known.enterType (h : p.Known entries) (part : TypePart) :
    (p.enterType part).Known (Site.note entries (.part ⟨p, part⟩)) := by
  intro t ht
  rcases List.mem_append.mp ht with ht | ht
  · exact (h.mono (Site.entryKeys_prefix_note _)) t ht
  · rw [List.mem_singleton.mp ht]
    exact Site.key_mem_entryKeys_note ⟨p, part⟩

/-- Going into a part of a type changes the types around and the entries. -/
theorem enterType_eq (part : TypePart) (s : Scan) :
    s.enterType part =
      { s with
        around := s.around ++ [⟨(s.place part).1, Text.trim part.name⟩]
        entries := (s.enterType part).entries } :=
  rfl

/-- Going into a part of a type notes it and moves the scanner to the place inside. -/
theorem enterType_scan (h : p.Known entries) (part : TypePart) :
    (p.scan entries).enterType part =
      (p.enterType part).scan (Site.note entries (.part ⟨p, part⟩)) := by
  have haround := around_scan_of_extension h (Site.entryKeys_prefix_note (.part ⟨p, part⟩))
  have hindex := fst_place_scan entries ⟨p, part⟩
  rw [enterType_eq, ← haround, hindex]
  simp only [scan, enterType, List.map_append, List.map_cons, List.map_nil]
  rfl

/-- Passing a member changes nothing but the entries. -/
theorem addMember_eq (m : Member) (s : Scan) :
    s.addMember m = { s with entries := (s.addMember m).entries } := by
  unfold Scan.addMember
  split <;> rfl

/-- Passing a member notes it and leaves the scanner where it is. -/
theorem addMember_scan (m : Member) :
    (p.scan entries).addMember m = p.scan (Site.note entries (.member ⟨p, m⟩)) := by
  rw [addMember_eq]
  simp only [scan, Site.entryKeys_note_member]
  rfl

end Place

mutual

/-- The walk over a declaration notes its sites and comes back to where it started. -/
theorem runNode_scan : ∀ (d : Decl) (p : Place) (entries : List Entry), p.Known entries →
    Scan.visitor.runNode d (p.scan entries) = p.scan ((d.sites p).foldl Site.note entries)
  | .scope head members, p, entries, h => by
      have hmembers := runAll_scan members (p.enterScope head) entries h
      calc
        Scan.visitor.runNode (.scope head members) (p.scan entries)
            = (Scan.visitor.runAll members ((p.scan entries).enterScope head)).leaveScope := rfl
        _ = (((p.enterScope head).scan
              ((Decl.sitesAll (p.enterScope head) members).foldl Site.note entries))).leaveScope := by
          rw [Place.enterScope_scan, hmembers]
        _ = p.scan ((Decl.sitesAll (p.enterScope head) members).foldl Site.note entries) :=
          Place.leaveScope_scan head
  | .type part members, p, entries, h => by
      have hmembers := runAll_scan members (p.enterType part) _ (h.enterType part)
      calc
        Scan.visitor.runNode (.type part members) (p.scan entries)
            = (Scan.visitor.runAll members ((p.scan entries).enterType part)).leaveType := rfl
        _ = ((p.enterType part).scan ((Decl.sitesAll (p.enterType part) members).foldl Site.note
              (Site.note entries (.part ⟨p, part⟩)))).leaveType := by
          rw [Place.enterType_scan h, hmembers]
        _ = p.scan (((Decl.type part members).sites p).foldl Site.note entries) :=
          Place.leaveType_scan part
  | .member m, p, entries, h => Place.addMember_scan m
  | .directive u, p, entries, h => rfl
  | .unknown, p, entries, h => rfl

/-- The walk over declarations notes their sites and comes back to where it started. -/
theorem runAll_scan : ∀ (ds : List Decl) (p : Place) (entries : List Entry), p.Known entries →
    Scan.visitor.runAll ds (p.scan entries) =
      p.scan ((Decl.sitesAll p ds).foldl Site.note entries)
  | [], p, entries, h => rfl
  | d :: ds, p, entries, h => by
      have hknown : p.Known ((d.sites p).foldl Site.note entries) :=
        h.mono (Site.entryKeys_prefix_foldl_note _ _)
      rw [Visitor.runAll_cons, runNode_scan d p entries h, runAll_scan ds p _ hknown,
        Decl.sitesAll, List.foldl_append]

end

/-- The walk over a file notes its sites and leaves the stacks empty. -/
theorem runFile_scan (f g : SourceFile) (entries : List Entry) :
    Scan.visitor.runFile g ((Place.top f).scan entries) =
      (Place.top g).scan (g.sites.foldl Site.note entries) := by
  have hknown : (Place.top g).Known entries := by
    intro t ht
    exact absurd ht List.not_mem_nil
  exact runAll_scan g.members (Place.top g) entries hknown

/-- The walk over a compilation notes its sites. -/
theorem entries_run (c : Compilation) :
    (Scan.visitor.run c {}).entries = c.sites.foldl Site.note [] := by
  -- Between two files the scanner stands at the top of some file.
  have hfiles : ∀ (files : List SourceFile) (f : SourceFile) (entries : List Entry),
      (files.foldl (fun s g => Scan.visitor.runFile g s) ((Place.top f).scan entries)).entries =
        (files.flatMap SourceFile.sites).foldl Site.note entries := by
    intro files
    induction files with
    | nil => intro f entries; rfl
    | cons g files ih =>
        intro f entries
        rw [List.foldl_cons, runFile_scan, ih g, List.flatMap_cons, List.foldl_append]
  exact hfiles c.files ⟨"", []⟩ []

end SceneWiring
