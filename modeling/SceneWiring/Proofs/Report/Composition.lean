import SceneWiring.Proofs.Report.Keys
import SceneWiring.Proofs.Report.Run
import SceneWiring.Proofs.Scan.Outline

/-!
# Compilations without common types

Two compilations that have no key in common do not see each other.  Scanning the files of
both finds the entries of the first and then those of the second, which only stand further
back: the positions of the types around them have moved by the number of entries before.

Main results:

- Definition `Entry.movedBy`: an entry that stands further back.
- Theorem `foldl_note_eq_append`: the entries of sites without common keys.
- Theorems `containerChain_append_left` and `containerChain_append_movedBy`: entries before
  and after leave the types around an entry as they are.
- Theorem `scan_append_of_disjoint`: the files of both compilations are scanned as if each
  compilation stood alone.
-/

namespace SceneWiring

/-! ## The files of two compilations -/

/-- The files of two compilations, one after the other. -/
instance : Append Compilation :=
  ⟨fun c c' => ⟨c.files ++ c'.files⟩⟩

namespace Compilation

theorem sites_append (c c' : Compilation) : (c ++ c').sites = c.sites ++ c'.sites :=
  List.flatMap_append

/-- No class of one compilation has the key of a class of the other. -/
def Disjoint (c c' : Compilation) : Prop :=
  ∀ s ∈ Site.partsIn c.sites, ∀ s' ∈ Site.partsIn c'.sites, s.key ≠ s'.key

instance (c c' : Compilation) : Decidable (c.Disjoint c') :=
  inferInstanceAs (Decidable (∀ s ∈ Site.partsIn c.sites, ∀ s' ∈ Site.partsIn c'.sites,
    s.key ≠ s'.key))

end Compilation

/-! ## Entries further back -/

/-- An entry with the given number of entries put before it and those around it. -/
def Entry.movedBy (n : Nat) (e : Entry) : Entry :=
  { e with parent := e.parent.map (n + ·) }

@[simp]
theorem Entry.key_movedBy (n : Nat) (e : Entry) : (e.movedBy n).key = e.key :=
  rfl

@[simp]
theorem entryKeys_append_movedBy (n : Nat) (before entries : List Entry) :
    entryKeys (before ++ entries.map (Entry.movedBy n)) = entryKeys before ++ entryKeys entries := by
  simp [entryKeys, Function.comp_def]

/-- A further part does not look at the types around an entry. -/
theorem PartSite.movedBy_addTo (n : Nat) (s : PartSite) (e : Entry) :
    (s.addTo e).movedBy n = s.addTo (e.movedBy n) := by
  unfold addTo Entry.mergeFile
  by_cases h : s.file.path ∈ e.mergedFiles
  · simp [Entry.addPart, Entry.movedBy, h]
  · simp [Entry.addPart, Entry.movedBy, h]

/-- Changing an element of the second of two lists leaves the first as it is. -/
theorem modify_append_right {α : Type} (xs ys : List α) (i : Nat) (f : α → α) :
    (xs ++ ys).modify (xs.length + i) f = xs ++ ys.modify i f := by
  induction xs with
  | nil => simp
  | cons x xs ih =>
      have hindex : (x :: xs).length + i = xs.length + i + 1 := by
        rw [List.length_cons]
        omega
      rw [hindex, List.cons_append, List.modify_succ_cons, ih, List.cons_append]

section

variable {before entries : List Entry} {key : String}

/-- A key that is not before some entries has its position among these. -/
theorem idxOf_entryKeys_append (h : key ∉ entryKeys before) :
    (entryKeys before ++ entryKeys entries).idxOf key =
      before.length + (entryKeys entries).idxOf key := by
  rw [List.idxOf_append, if_neg h, Nat.add_comm]
  simp [entryKeys]

/-- Changing the entry with a key that is not before some entries changes one of these. -/
theorem modify_append_movedBy {f : Entry → Entry}
    (hf : ∀ e, (f e).movedBy before.length = f (e.movedBy before.length))
    (h : key ∉ entryKeys before) :
    (before ++ entries.map (Entry.movedBy before.length)).modify
        ((entryKeys before ++ entryKeys entries).idxOf key) f =
      before ++ (entries.modify ((entryKeys entries).idxOf key) f).map
        (Entry.movedBy before.length) := by
  rw [idxOf_entryKeys_append h, modify_append_right, map_modify hf]

/-- A part whose key is not before some entries is noted among these. -/
theorem note_part_append_movedBy {s : PartSite} (h : s.key ∉ entryKeys before)
    (howner : ∀ key ∈ s.place.ownerKey?, key ∉ entryKeys before) :
    Site.note (before ++ entries.map (Entry.movedBy before.length)) (.part s) =
      before ++ (Site.note entries (.part s)).map (Entry.movedBy before.length) := by
  by_cases hknown : s.key ∈ entryKeys entries
  · have hmem : s.key ∈ entryKeys (before ++ entries.map (Entry.movedBy before.length)) := by
      simp [hknown]
    rw [Site.note_part_of_mem hmem, Site.note_part_of_mem hknown, entryKeys_append_movedBy,
      modify_append_movedBy (s.movedBy_addTo before.length) h]
  · have hnot : s.key ∉ entryKeys (before ++ entries.map (Entry.movedBy before.length)) := by
      simp [h, hknown]
    have hentry : s.entry (before ++ entries.map (Entry.movedBy before.length)) =
        (s.entry entries).movedBy before.length := by
      rw [PartSite.entry, entryKeys_append_movedBy]
      cases hkey : s.place.ownerKey? with
      | none => simp [PartSite.entry, Entry.movedBy, hkey]
      | some key =>
          simp [PartSite.entry, Entry.movedBy, hkey, idxOf_entryKeys_append (howner key hkey)]
    rw [Site.note_part_of_not_mem hnot, Site.note_part_of_not_mem hknown, hentry,
      List.map_append, List.append_assoc, List.map_singleton]

/-- A member whose type is not before some entries is noted among these. -/
theorem note_member_append_movedBy {s : MemberSite}
    (howner : ∀ key ∈ s.ownerKey?, key ∉ entryKeys before) :
    Site.note (before ++ entries.map (Entry.movedBy before.length)) (.member s) =
      before ++ (Site.note entries (.member s)).map (Entry.movedBy before.length) := by
  rw [Site.note_member, Site.note_member, entryKeys_append_movedBy]
  cases s.member.isMarked with
  | false => rfl
  | true =>
      cases hkey : s.ownerKey? with
      | none => rfl
      | some key => exact modify_append_movedBy (fun _ => rfl) (howner key hkey)

end

/-- The entries of sites that come after entries with other keys are those of the sites
alone, further back. -/
theorem foldl_note_eq_append {sites : List Site} (hgrounded : Site.Grounded sites)
    {before : List Entry} (h : ∀ key ∈ Site.keysIn sites, key ∉ entryKeys before) :
    sites.foldl Site.note before =
      before ++ (sites.foldl Site.note []).map (Entry.movedBy before.length) := by
  induction hgrounded with
  | nil => simp
  | @concat sites site grounded known ih =>
      have hbefore : ∀ key ∈ Site.keysIn sites, key ∉ entryKeys before :=
        fun key hkey => h key (Site.keysIn_subset_append _ _ hkey)
      have howner : ∀ key ∈ site.place.ownerKey?, key ∉ entryKeys before := by
        intro key hkey
        rcases Option.map_eq_some_iff.mp hkey with ⟨t, ht, rfl⟩
        exact hbefore t.key (known t (List.mem_of_getLast? ht))
      rw [List.foldl_append, List.foldl_append, ih hbefore]
      simp only [List.foldl_cons, List.foldl_nil]
      cases site with
      | part s =>
          have hkey : s.key ∉ entryKeys before :=
            h s.key (Site.mem_keysIn_iff.mpr ⟨s, by simp, rfl⟩)
          exact note_part_append_movedBy hkey howner
      | member s => exact note_member_append_movedBy howner

/-! ## The types around an entry -/

/-- Entries at the end leave the types around an entry as they are. -/
theorem containerChain_append_left {before : List Entry} (more : List Entry) {i : Nat}
    (h : i < before.length) : containerChain (before ++ more) i = containerChain before i := by
  induction i using Nat.strongRecOn with
  | ind i ih =>
      rw [containerChain, containerChain, List.getElem?_append_left h]
      cases hget : before[i]? with
      | none => rfl
      | some e =>
          cases hparent : e.parent with
          | none => simp only [hparent]
          | some p =>
              simp only [hparent]
              by_cases hlt : p < i
              · have hp : p < before.length := Nat.lt_trans hlt h
                rw [if_pos hlt, if_pos hlt, ih p hlt hp, List.getElem?_append_left hp]
              · rw [if_neg hlt, if_neg hlt]

/-- So do entries in front if the others move. -/
theorem containerChain_append_movedBy (before entries : List Entry) (i : Nat) :
    containerChain (before ++ entries.map (Entry.movedBy before.length)) (before.length + i) =
      containerChain entries i := by
  have hget : ∀ j, (before ++ entries.map (Entry.movedBy before.length))[before.length + j]? =
      entries[j]?.map (Entry.movedBy before.length) := by
    intro j
    rw [List.getElem?_append_right (Nat.le_add_right _ _), Nat.add_sub_cancel_left,
      List.getElem?_map]
  induction i using Nat.strongRecOn with
  | ind i ih =>
      rw [containerChain, containerChain, hget]
      cases entries[i]? with
      | none => rfl
      | some e =>
          have hparent : (e.movedBy before.length).parent = e.parent.map (before.length + ·) := rfl
          have hparts : ∀ e : Entry, (e.movedBy before.length).parts = e.parts := fun _ => rfl
          simp only [Option.map_some, hparent]
          cases e.parent with
          | none => rfl
          | some p =>
              simp only [Option.map_some, Nat.add_lt_add_iff_left]
              by_cases hlt : p < i
              · rw [if_pos hlt, if_pos hlt, ih p hlt, hget, Option.map_map]
                simp only [Function.comp_def, hparts]
              · rw [if_neg hlt, if_neg hlt]

/-- Types are listed in two parts. -/
theorem mapIdx_toMarked_append (before entries : List Entry) {all : List Entry}
    (hall : all = before ++ entries.map (Entry.movedBy before.length)) :
    (all.mapIdx fun i e => e.toMarked (containerChain all i)) =
      (before.mapIdx fun i e => e.toMarked (containerChain before i)) ++
        entries.mapIdx fun i e => e.toMarked (containerChain entries i) := by
  have hleft : (before.mapIdx fun i e => e.toMarked (containerChain all i)) =
      before.mapIdx fun i e => e.toMarked (containerChain before i) := by
    apply List.ext_getElem (by simp)
    intro i hi _
    have hentry : i < before.length := by simpa using hi
    simp only [List.getElem_mapIdx, hall, containerChain_append_left _ hentry]
  have hright : ((entries.map (Entry.movedBy before.length)).mapIdx fun i e =>
      e.toMarked (containerChain all (i + before.length))) =
        entries.mapIdx fun i e => e.toMarked (containerChain entries i) := by
    apply List.ext_getElem (by simp)
    intro i _ _
    simp only [List.getElem_mapIdx, List.getElem_map, hall, Nat.add_comm i,
      containerChain_append_movedBy]
    rfl
  calc
    (all.mapIdx fun i e => e.toMarked (containerChain all i))
        = (before ++ entries.map (Entry.movedBy before.length)).mapIdx fun i e =>
            e.toMarked (containerChain all i) := by rw [← hall]
    _ = _ := by rw [List.mapIdx_append, hleft, hright]

/-! ## Scans -/

namespace Compilation

/-- The entries of both compilations. -/
theorem entries_append {c c' : Compilation} (h : c.Disjoint c') :
    (c ++ c').entries = c.entries ++ c'.entries.map (Entry.movedBy c.entries.length) := by
  have hkeys : ∀ key ∈ Site.keysIn c'.sites, key ∉ entryKeys c.entries := by
    intro key hkey' hkey
    rw [entryKeys_entries] at hkey
    rcases Site.mem_keysIn_iff.mp hkey' with ⟨s', hs', hkey'⟩
    rcases Site.mem_keysIn_iff.mp hkey with ⟨s, hs, hkey⟩
    exact h s hs s' hs' (hkey.trans hkey'.symm)
  have hnote : ∀ c : Compilation, c.entries = c.sites.foldl Site.note [] := entries_run
  rw [hnote, sites_append, List.foldl_append, ← hnote c,
    foldl_note_eq_append c'.grounded_sites hkeys, ← hnote c']

/-- Both compilations are scanned as if each stood alone. -/
theorem scan_append {c c' : Compilation} (h : c.Disjoint c') :
    (c ++ c').scan = c.scan ++ c'.scan := by
  have hscan : ∀ c : Compilation, c.scan =
      (c.entries.mapIdx fun i e => e.toMarked (containerChain c.entries i)).filter fun t =>
        !t.candidates.isEmpty :=
    fun _ => rfl
  rw [hscan, mapIdx_toMarked_append _ _ (entries_append h), List.filter_append, ← hscan, ← hscan]

end Compilation

/-! ## Reports -/

/-- The files of two compilations without a common key are scanned as if each compilation
stood alone, whatever their paths.  So the skips of a report are those of the two reports,
one after the other, and so are the units but for their keys, which may have to tell units
of both compilations apart. -/
theorem scan_append_of_disjoint {c c' : Compilation} (h : c.Disjoint c') :
    (c ++ c').scan = c.scan ++ c'.scan ∧
      ∀ (options : Options) (model : SemanticModel), ∃ report report' joined,
        (generate options model c).result = .ok report ∧
        (generate options model c').result = .ok report' ∧
        (generate options model (c ++ c')).result = .ok joined ∧
        joined.skipped = report.skipped ++ report'.skipped ∧
        ∀ key, joined.units.map (CodeUnit.withKey key) =
          (report.units ++ report'.units).map (CodeUnit.withKey key) := by
  have hscan := Compilation.scan_append h
  refine ⟨hscan, ?_⟩
  intro options model
  refine ⟨_, _, _, result_generate options model c, result_generate options model c',
    result_generate options model (c ++ c'), ?_, ?_⟩
  · rw [hscan, List.map_append]
    exact List.flatMap_append
  · intro key
    have hkey : ∀ u : CodeUnit, u.qualified.withKey key = u.withKey key := fun _ => rfl
    simp only [Report.ofContributions, List.map_append, map_qualifyShared hkey, hscan,
      List.filterMap_append]

/-- A file without a path that imports one namespace and has a nested type with a field to
fill. -/
def nestedFile (imported outer inner : String) : SourceFile where
  path := ""
  members :=
    [.directive ⟨imported, none, false, .unknown⟩,
     .type ⟨outer, ["partial"], [], .unknown⟩
      [.type ⟨inner, ["partial"], [], .unknown⟩
        [.member (.field ⟨"Door", ["door"], [], [⟨"Get", []⟩], .unknown⟩)]]]

/-- Types of two files without paths keep their containers and using directives, and the
nested types share a name, so that only the keys of their units change. -/
theorem nestedFiles_scan_append :
    (⟨[nestedFile "A" "House" "Room"]⟩ : Compilation).Disjoint
        ⟨[nestedFile "B" "Hotel" "Room"]⟩ ∧
      Compilation.scan ⟨[nestedFile "A" "House" "Room", nestedFile "B" "Hotel" "Room"]⟩ =
        Compilation.scan ⟨[nestedFile "A" "House" "Room"]⟩ ++
          Compilation.scan ⟨[nestedFile "B" "Hotel" "Room"]⟩ := by
  have hdisjoint : (⟨[nestedFile "A" "House" "Room"]⟩ : Compilation).Disjoint
      ⟨[nestedFile "B" "Hotel" "Room"]⟩ := by
    decide +kernel
  exact ⟨hdisjoint, (scan_append_of_disjoint hdisjoint).1⟩

end SceneWiring
