import SceneWiring.Proofs.Scan.Outline
import SceneWiring.Proofs.Scan.Tables

/-!
# Scanning with tables

The scanner that keeps its types in tables goes through the same states as the one that keeps them
as entries.  From this and from what all states of a scan have in common follows that its tables fit
together at every call of a hook, so that no position is ever out of range and the way outwards ends
from every type.

Main results:

- Definition `Scan.Sound`: what all states of a scan have in common.
- Definition `ScanTables.Shows`: tables that hold what a state of a scan holds.
- Theorem `simulates`: the steps of the two scanners lead from such states to such states.
- Theorem `Shows.results_eq`: with the containers that the way outwards leads to, the results are
  the same.
- Theorem `tables_fit_at_every_call`: the tables fit together at every call of a hook.
-/

namespace SceneWiring

/-! ## Scans -/

namespace Entry

/-- The entry with one more merged file. -/
def noteFile (file : String) (e : Entry) : Entry :=
  { e with mergedFiles := e.mergedFiles ++ [file] }

/-- The entry with more using directives. -/
def addUsings (usings : List UsingDirective) (e : Entry) : Entry :=
  { e with usings := e.usings ++ usings }

variable {e : Entry} {file : String} {usings : List UsingDirective}

/-- A merged file leaves the key of an entry as it is. -/
theorem key_mergeFile (e : Entry) : (e.mergeFile file usings).key = e.key := by
  unfold mergeFile
  split <;> rfl

/-- It leaves the type around the entry as it is, too. -/
theorem parent_mergeFile (e : Entry) : (e.mergeFile file usings).parent = e.parent := by
  unfold mergeFile
  split <;> rfl

/-- A file that was merged before changes nothing. -/
theorem mergeFile_of_contains (h : e.mergedFiles.contains file = true) :
    e.mergeFile file usings = e :=
  if_pos h

/-- Any other is noted, and its using directives are added. -/
theorem mergeFile_of_not_contains (h : e.mergedFiles.contains file = false) :
    e.mergeFile file usings = (e.noteFile file).addUsings usings :=
  if_neg (Bool.eq_false_iff.mp h)

end Entry

namespace Scan

/-- The steps of the scanner. -/
def steps : ScanSteps Scan where
  enterFile := enterFile
  enterScope := enterScope
  leaveScope := leaveScope
  enterType := enterType
  leaveType := leaveType
  addMember := addMember

theorem visitor_steps : steps.visitor = visitor :=
  rfl

/-- The scanner is after every call where it was before. -/
theorem restores_steps : steps.Restores fun s => (s.namespaces, s.around) where
  enterFile _ _ := rfl
  leaveScope head s walked h := by
    rw [Prod.mk.injEq] at h ⊢
    refine ⟨?_, h.2⟩
    change walked.namespaces.dropLast = s.namespaces
    rw [h.1]
    exact List.dropLast_concat
  leaveType part s walked h := by
    rw [Prod.mk.injEq] at h ⊢
    refine ⟨h.1, ?_⟩
    change walked.around.dropLast = s.around
    rw [h.2]
    exact List.dropLast_concat
  addMember m s := by
    change ((s.addMember m).namespaces, (s.addMember m).around) = (s.namespaces, s.around)
    rw [Place.addMember_eq]

/-- What all states of a scan have in common: keys are distinct, types are met after the types
around them, and the types around the walk have been met. -/
structure Sound (s : Scan) : Prop where
  nodup_keys : (entryKeys s.entries).Nodup
  parent_lt : ∀ {i p : Nat} {e : Entry}, s.entries[i]? = some e → e.parent = some p → p < i
  around_lt : ∀ a ∈ s.around, a.index < s.entries.length

/-- The scan with a part added to its type. -/
def placed (part : TypePart) (s : Scan) : Scan :=
  { s with entries := (s.place part).2 }

/-- The scan with an entry changed. -/
def change (i : Nat) (f : Entry → Entry) (s : Scan) : Scan :=
  { s with entries := s.entries.modify i f }

/-- Only what happens to the entry at the position matters. -/
theorem change_congr {s : Scan} {i : Nat} {e : Entry} (he : s.entries[i]? = some e)
    {f g : Entry → Entry} (h : f e = g e) : s.change i f = s.change i g := by
  have hentries : s.entries.modify i f = s.entries.modify i g := by
    rw [List.modify_eq_set_getElem?, List.modify_eq_set_getElem?, he, Option.map_eq_map,
      Option.map_eq_map, Option.map_some, Option.map_some, h]
  rw [change, change, hentries]

theorem change_id (s : Scan) (i : Nat) : s.change i id = s := by
  rw [change, List.modify_id]

theorem change_change (s : Scan) (i : Nat) (f g : Entry → Entry) :
    (s.change i f).change i g = s.change i (g ∘ f) := by
  rw [change, change, change, List.modify_modify_eq]

/-- Keys are found where they were if a change keeps the key of its entry. -/
theorem find?_change {f : Entry → Entry} (hkey : ∀ e, (f e).key = e.key) (s : Scan) (i : Nat)
    (key : String) : (s.change i f).find? key = s.find? key := by
  rw [find?_eq_idxOf?, find?_eq_idxOf?, change, entryKeys_modify hkey]

/-- The scan with a type at the end of the stack. -/
def push (i : Nat) (name : String) (s : Scan) : Scan :=
  { s with around := s.around ++ [⟨i, name⟩] }

/-- A type is entered by three steps: its part is added, its file is merged, it is stacked. -/
theorem enterType_eq_push (part : TypePart) (s : Scan) :
    s.enterType part =
      ((s.placed part).change (s.place part).1 (.mergeFile s.file s.fileUsings)).push
        (s.place part).1 (Text.trim part.name) :=
  rfl

/-- The innermost type around the walk has been met. -/
theorem Sound.lt_of_getLast? {s : Scan} (h : s.Sound) {i : Nat}
    (hlast : s.around.getLast?.map Around.index = some i) : i < s.entries.length := by
  rcases Option.map_eq_some_iff.mp hlast with ⟨a, ha, rfl⟩
  exact h.around_lt a (List.mem_of_getLast? ha)

/-- A changed entry keeps what states have in common if it keeps its key and the type around it. -/
theorem Sound.change {s : Scan} (h : s.Sound) {f : Entry → Entry} (hkey : ∀ e, (f e).key = e.key)
    (hparent : ∀ e, (f e).parent = e.parent) (i : Nat) : (s.change i f).Sound where
  nodup_keys := by
    rw [Scan.change, entryKeys_modify hkey]
    exact h.nodup_keys
  parent_lt := by
    intro j p e he hp
    rw [Scan.change, List.getElem?_modify, Option.map_eq_map, Option.map_eq_some_iff] at he
    rcases he with ⟨old, hold, rfl⟩
    apply h.parent_lt hold
    split at hp
    · rwa [hparent] at hp
    · exact hp
  around_lt := by
    intro a ha
    rw [Scan.change, List.length_modify]
    exact h.around_lt a ha

/-- So does a part that is added to its type, whose position is in range then. -/
theorem Sound.placed {s : Scan} (h : s.Sound) (part : TypePart) :
    (s.placed part).Sound ∧ (s.place part).1 < (s.placed part).entries.length := by
  rw [Scan.placed, place]
  cases hfind : s.find? (s.keyOf part.name) with
  | some i =>
      refine ⟨h.change (f := .addPart part) (fun _ => rfl) (fun _ => rfl) i, ?_⟩
      rw [List.length_modify]
      exact (List.findIdx?_eq_some_iff_findIdx_eq.mp hfind).1
  | none =>
      have hnew : s.keyOf part.name ∉ entryKeys s.entries := by
        rwa [find?_eq_idxOf?, List.idxOf?_eq_none_iff] at hfind
      refine ⟨⟨?_, ?_, ?_⟩, by simp⟩
      · rw [entryKeys, List.map_append, List.nodup_append]
        refine ⟨h.nodup_keys, List.pairwise_singleton _ _, ?_⟩
        intro key hkey key' hkey'
        obtain rfl : key' = s.keyOf part.name := List.mem_singleton.mp hkey'
        exact fun heq => hnew (heq ▸ hkey)
      · intro i p e he hp
        rcases Nat.lt_or_ge i s.entries.length with hi | hi
        · rw [List.getElem?_append_left hi] at he
          exact h.parent_lt he hp
        · rw [List.getElem?_append_right hi, List.getElem?_singleton] at he
          split at he
          · rw [Option.some.injEq] at he
            subst he
            -- The type around a new one is on the stack, so that it has an earlier position.
            exact Nat.lt_of_lt_of_le (h.lt_of_getLast? hp) hi
          · exact absurd he (by simp)
      · intro a ha
        rw [List.length_append]
        exact Nat.lt_add_right 1 (h.around_lt a ha)

/-- Going into a part of a type keeps what states have in common. -/
theorem Sound.enterType {s : Scan} (h : s.Sound) (part : TypePart) : (s.enterType part).Sound := by
  rcases h.placed part with ⟨hplaced, hlt⟩
  have hmerged := hplaced.change (f := .mergeFile s.file s.fileUsings) Entry.key_mergeFile
    Entry.parent_mergeFile (s.place part).1
  rw [enterType_eq_push]
  refine ⟨hmerged.nodup_keys, hmerged.parent_lt, ?_⟩
  intro a ha
  rcases List.mem_append.mp ha with ha | ha
  · exact hmerged.around_lt a ha
  · rw [List.mem_singleton.mp ha]
    change _ < ((s.placed part).entries.modify _ _).length
    rwa [List.length_modify]

/-- So does going out of it. -/
theorem Sound.leaveType {s : Scan} (h : s.Sound) : s.leaveType.Sound :=
  ⟨h.nodup_keys, h.parent_lt, fun a ha => h.around_lt a ((List.dropLast_sublist _).subset ha)⟩

/-- So does a member, which at most adds a candidate to an entry. -/
theorem Sound.addMember {s : Scan} (h : s.Sound) (m : Member) : (s.addMember m).Sound := by
  rw [Scan.addMember]
  split
  · exact h.change (f := .addCandidate ⟨m, s.file⟩) (fun _ => rfl) (fun _ => rfl) _
  · exact h

end Scan

/-! ## Tables and entries -/

/-- A change that a map does not show. -/
theorem map_modify_eq_map {α β : Type} {f : α → β} {g : α → α} (h : ∀ a, f (g a) = f a)
    (xs : List α) (i : Nat) : (xs.modify i g).map f = xs.map f := by
  have hid : (xs.modify i g).map f = (xs.map f).modify i id := map_modify h xs i
  rw [hid, List.modify_id]

namespace ScanTables

/-- Changes of a type and of its entry that are the same and that concern no other table. -/
structure ChangesAlike (f : MarkedType → MarkedType) (g : Entry → Entry) : Prop where
  toMarked : ∀ e, (g e).toMarked [] = f (e.toMarked [])
  key : ∀ e, (g e).key = e.key
  parent : ∀ e, (g e).parent = e.parent
  mergedFiles : ∀ e, (g e).mergedFiles = e.mergedFiles

theorem changesAlike_addPart (part : TypePart) : ChangesAlike (.addPart part) (.addPart part) :=
  ⟨fun _ => rfl, fun _ => rfl, fun _ => rfl, fun _ => rfl⟩

theorem changesAlike_addUsings (usings : List UsingDirective) :
    ChangesAlike (.addUsings usings) (.addUsings usings) :=
  ⟨fun _ => rfl, fun _ => rfl, fun _ => rfl, fun _ => rfl⟩

theorem changesAlike_addCandidate (c : Candidate) :
    ChangesAlike (.addCandidate c) (.addCandidate c) :=
  ⟨fun _ => rfl, fun _ => rfl, fun _ => rfl, fun _ => rfl⟩

/-- Tables that hold what a state of a scan holds. -/
structure Shows (t : ScanTables) (s : Scan) : Prop where
  file : t.file = s.file
  fileUsings : t.fileUsings = s.fileUsings
  namespaces : t.namespaces = s.namespaces
  typeNames : t.typeNames = s.around.map Around.name
  typeStack : t.typeStack = s.around.map Around.index
  found : t.found = s.entries.map fun e => e.toMarked []
  parents : t.parents = s.entries.map Entry.parent
  index : ∀ key, t.index[key]? = s.find? key
  mergedFiles : ∀ i, t.mergedFiles.getD i [] = (s.entries[i]?.map Entry.mergedFiles).getD []

namespace Shows

variable {t : ScanTables} {s : Scan}

/-- There are as many types as entries. -/
theorem length_found (h : t.Shows s) : t.found.length = s.entries.length := by
  rw [h.found, List.length_map]

/-- A type has the same key in both. -/
theorem keyOf_eq (h : t.Shows s) (name : String) : t.keyOf name = s.keyOf name := by
  rw [keyOf, Scan.keyOf, h.namespaces, h.typeNames]

/-- The type around the walk is the same in both. -/
theorem getLast?_typeStack (h : t.Shows s) :
    t.typeStack.getLast? = s.around.getLast?.map Around.index := by
  rw [h.typeStack, List.getLast?_map]

/-- A position of a key is that of the entry with the key. -/
theorem index_eq_some_iff (h : t.Shows s) (hs : s.Sound) {key : String} {i : Nat} :
    t.index[key]? = some i ↔ (entryKeys s.entries)[i]? = some key := by
  rw [h.index, find?_eq_idxOf?]
  constructor
  · intro hkey
    rcases List.idxOf?_eq_some_iff.mp hkey with ⟨hi, heq, -⟩
    exact List.getElem?_eq_some_iff.mpr ⟨hi, heq⟩
  · intro hkey
    rcases List.getElem?_eq_some_iff.mp hkey with ⟨hi, rfl⟩
    rw [idxOf?_of_mem (List.getElem_mem hi), hs.nodup_keys.idxOf_getElem]

/-- Tables that hold what a state of a scan holds fit together. -/
theorem sound (h : t.Shows s) (hs : s.Sound) : t.Sound (entryKeys s.entries) where
  length_keys := by rw [h.length_found, entryKeys, List.length_map]
  length_parents := by rw [h.parents, h.length_found, List.length_map]
  length_typeNames := by rw [h.typeNames, h.typeStack, List.length_map, List.length_map]
  parent_lt := by
    intro i p hp
    rw [h.parents, List.getElem?_map, Option.map_eq_some_iff] at hp
    rcases hp with ⟨e, he, hparent⟩
    exact hs.parent_lt he hparent
  stack_lt := by
    intro i hi
    rw [h.typeStack] at hi
    rcases List.mem_map.mp hi with ⟨a, ha, rfl⟩
    rw [h.length_found]
    exact hs.around_lt a ha
  index_lt := by
    intro key i hkey
    rcases List.getElem?_eq_some_iff.mp ((h.index_eq_some_iff hs).mp hkey) with ⟨hi, -⟩
    rwa [entryKeys, List.length_map, ← h.length_found] at hi
  index_injective := by
    intro key key' i hkey hkey'
    rw [h.index_eq_some_iff hs] at hkey hkey'
    exact Option.some.inj (hkey.symm.trans hkey')
  index_eq_iff := h.index_eq_some_iff hs

/-! ### Steps side by side -/

/-- A type and its entry can be changed in the same way. -/
theorem change (h : t.Shows s) {i : Nat} (hi : i < s.entries.length) {f : MarkedType → MarkedType}
    {g : Entry → Entry} (hfg : ChangesAlike f g) :
    ∃ t', t.change? i f = some t' ∧ t'.Shows (s.change i g) := by
  refine ⟨_, if_pos (h.length_found ▸ hi), ?_⟩
  exact { h with
    found := by
      rw [h.found]
      exact (map_modify hfg.toMarked s.entries i).symm
    parents := by rw [h.parents, Scan.change, map_modify_eq_map hfg.parent]
    index := by
      intro key
      rw [h.index, Scan.find?_change hfg.key]
    mergedFiles := by
      intro j
      rw [h.mergedFiles, ← List.getElem?_map, ← List.getElem?_map, Scan.change,
        map_modify_eq_map hfg.mergedFiles] }

/-- A part is added to the type at the same position. -/
theorem place (h : t.Shows s) (part : TypePart) :
    ∃ t', t.place? part = some ((s.place part).1, t') ∧ t'.Shows (s.placed part) := by
  rw [place?, h.index, h.keyOf_eq, Scan.placed, Scan.place]
  cases hfind : s.find? (s.keyOf part.name) with
  | some i =>
      have hi : i < s.entries.length := (List.findIdx?_eq_some_iff_findIdx_eq.mp hfind).1
      rcases h.change hi (changesAlike_addPart part) with ⟨t', ht', hshows⟩
      exact ⟨t', congrArg (Option.map (i, ·)) ht', hshows⟩
  | none =>
      have hlength : (t.found ++ [t.newType part]).length - 1 = s.entries.length := by
        rw [List.length_append, h.length_found]
        rfl
      refine ⟨_, congrArg (fun i => some (i, _)) hlength, ?_⟩
      exact { h with
        found := by
          rw [h.found, List.map_append, newType, h.namespaces, h.file]
          rfl
        parents := by
          rw [h.parents, h.getLast?_typeStack, List.map_append]
          rfl
        index := by
          intro key
          rw [Std.HashMap.getElem?_insert, hlength, h.index, Scan.find?, Scan.find?,
            List.findIdx?_append, List.findIdx?_singleton]
          by_cases hkey : s.keyOf part.name = key
          · subst hkey
            have hnone : s.entries.findIdx? (fun e => e.key == s.keyOf part.name) = none := hfind
            simp [hnone, Scan.newEntry]
          · simp [hkey, Scan.newEntry]
        mergedFiles := by
          intro j
          rw [h.mergedFiles]
          rcases Nat.lt_or_ge j s.entries.length with hj | hj
          · rw [List.getElem?_append_left hj]
          · rw [List.getElem?_append_right hj, List.getElem?_eq_none hj, List.getElem?_singleton]
            split
            · rfl
            · rfl }

/-- The file of the walk can be noted for the type at the same position. -/
theorem noteFile (h : t.Shows s) {i : Nat} (hi : i < s.entries.length) :
    Shows { t with mergedFiles := t.mergedFiles.insert i (t.mergedFiles.getD i [] ++ [t.file]) }
      (s.change i (.noteFile s.file)) :=
  { h with
    found := by
      have hsame := map_modify_eq_map (f := fun e => e.toMarked []) (g := .noteFile s.file)
        (fun _ => rfl) s.entries i
      exact h.found.trans hsame.symm
    parents := by
      have hsame := map_modify_eq_map (f := Entry.parent) (g := .noteFile s.file)
        (fun _ => rfl) s.entries i
      exact h.parents.trans hsame.symm
    index := by
      intro key
      rw [h.index]
      exact (Scan.find?_change (f := .noteFile s.file) (fun _ => rfl) s i key).symm
    mergedFiles := by
      intro j
      rw [Std.HashMap.getD_insert, Scan.change]
      by_cases hj : i = j
      · subst hj
        rw [if_pos BEq.rfl, h.mergedFiles, h.file, List.getElem?_modify_eq,
          List.getElem?_eq_getElem hi]
        rfl
      · rw [if_neg (by simpa using hj), h.mergedFiles, List.getElem?_modify_ne _ _ hj] }

/-- A file is merged into the type at the same position. -/
theorem mergeFile (h : t.Shows s) {i : Nat} (hi : i < s.entries.length) :
    ∃ t', t.mergeFile? i = some t' ∧
      t'.Shows (s.change i (.mergeFile s.file s.fileUsings)) := by
  have he : s.entries[i]? = some s.entries[i] := List.getElem?_eq_getElem hi
  have hcontains : (t.mergedFiles.getD i []).contains t.file =
      s.entries[i].mergedFiles.contains s.file := by
    rw [h.mergedFiles, he, h.file]
    rfl
  cases hmerged : s.entries[i].mergedFiles.contains s.file with
  | true =>
      have hsame : s.change i (.mergeFile s.file s.fileUsings) = s.change i id :=
        Scan.change_congr he (Entry.mergeFile_of_contains hmerged)
      refine ⟨t, if_pos (hcontains.trans hmerged), ?_⟩
      rwa [hsame, Scan.change_id]
  | false =>
      -- With the file noted, what is left is the same change of the type and of its entry.
      have hsteps : s.change i (.mergeFile s.file s.fileUsings) =
          (s.change i (.noteFile s.file)).change i (.addUsings t.fileUsings) := by
        rw [Scan.change_change, h.fileUsings]
        exact Scan.change_congr he (Entry.mergeFile_of_not_contains hmerged)
      have hlength : i < (s.change i (.noteFile s.file)).entries.length := by
        rwa [Scan.change, List.length_modify]
      rw [hsteps, mergeFile?, if_neg (Bool.eq_false_iff.mp (hcontains.trans hmerged))]
      exact (h.noteFile hi).change hlength (changesAlike_addUsings t.fileUsings)

/-- Both stacks get the same type. -/
theorem push (h : t.Shows s) (i : Nat) (name : String) : (t.push i name).Shows (s.push i name) :=
  { h with
    typeNames := by
      rw [ScanTables.push, Scan.push, h.typeNames, List.map_append]
      rfl
    typeStack := by
      rw [ScanTables.push, Scan.push, h.typeStack, List.map_append]
      rfl }

/-- A part is entered at the same position. -/
theorem enterType (h : t.Shows s) (part : TypePart) (hs : s.Sound) :
    ∃ t', t.enterType? part = some t' ∧ t'.Shows (s.enterType part) := by
  rcases h.place part with ⟨placed, hplaced, hplacedShows⟩
  rcases hplacedShows.mergeFile (hs.placed part).2 with ⟨merged, hmerged, hmergedShows⟩
  refine ⟨merged.push (s.place part).1 (Text.trim part.name), ?_, hmergedShows.push _ _⟩
  simp only [enterType?, hplaced, hmerged, Option.bind_eq_bind, Option.bind_some]
  rfl

/-- Both stacks lose the same type. -/
theorem leaveType (h : t.Shows s) : t.leaveType.Shows s.leaveType :=
  { h with
    typeNames := by
      rw [ScanTables.leaveType, Scan.leaveType, h.typeNames, List.map_dropLast]
    typeStack := by
      rw [ScanTables.leaveType, Scan.leaveType, h.typeStack, List.map_dropLast] }

/-- A candidate is added to the type at the same position, or nowhere. -/
theorem addMember (h : t.Shows s) (hs : s.Sound) (m : Member) :
    ∃ t', t.addMember? m = some t' ∧ t'.Shows (s.addMember m) := by
  rw [addMember?, Scan.addMember, h.getLast?_typeStack, h.file]
  cases m.isMarked with
  | false => exact ⟨t, rfl, h⟩
  | true =>
      cases hlast : s.around.getLast? with
      | none => exact ⟨t, rfl, h⟩
      | some a =>
          have hi : a.index < s.entries.length := hs.around_lt a (List.mem_of_getLast? hlast)
          exact h.change hi (changesAlike_addCandidate ⟨m, s.file⟩)

/-! ### Results -/

/-- The way outwards from the type around an entry meets the types around the entry. -/
theorem containerChain_eq (h : t.Shows s) (hs : s.Sound) {parent : Option Nat}
    {chain : List (List TypePart)} (hclimb : t.Climbs parent chain) {i : Nat} {e : Entry}
    (he : s.entries[i]? = some e) (hparent : e.parent = parent) :
    containerChain s.entries i = chain.reverse := by
  induction hclimb generalizing i e with
  | done =>
      rw [containerChain, he]
      simp only [hparent]
      rfl
  | @up p type parent' chain htype hparent' _ ih =>
      obtain ⟨outer, houter, rfl⟩ :
          ∃ outer, s.entries[p]? = some outer ∧ outer.toMarked [] = type := by
        rwa [h.found, List.getElem?_map, Option.map_eq_some_iff] at htype
      have hnext : outer.parent = parent' := by
        rwa [h.parents, List.getElem?_map, houter, Option.map_some, Option.some.injEq] at hparent'
      rw [containerChain, he]
      simp only [hparent]
      rw [if_pos (hs.parent_lt he hparent), ih houter hnext, houter, List.reverse_cons]
      rfl

/-- The containers of a type are those of its entry. -/
theorem hasContainers (h : t.Shows s) (hs : s.Sound) {i : Nat} (hi : i < t.found.length) :
    t.HasContainers i (containerChain s.entries i) := by
  rcases (h.sound hs).exists_hasContainers i hi with ⟨containers, ⟨parent, hparent, hclimb⟩, -⟩
  obtain ⟨e, he⟩ : ∃ e, s.entries[i]? = some e :=
    ⟨_, List.getElem?_eq_getElem (h.length_found ▸ hi)⟩
  refine ⟨parent, hparent, ?_⟩
  rw [h.parents, List.getElem?_map, he, Option.map_some, Option.some.injEq] at hparent
  rwa [h.containerChain_eq hs hclimb he hparent, List.reverse_reverse]

/-- With the containers of all types, the results are those of the scan. -/
theorem results_eq (h : t.Shows s) :
    t.results ((List.range t.found.length).map (containerChain s.entries)) = s.results := by
  have hfill : ((t.found.zip ((List.range t.found.length).map (containerChain s.entries))).map
      fun x => { x.1 with containers := x.2 }) =
        s.entries.mapIdx fun i e => e.toMarked (containerChain s.entries i) := by
    have hlength := h.length_found
    apply List.ext_getElem
    · simp [hlength]
    · intro i hi _
      simp only [h.found, List.getElem_map, List.getElem_zip, List.getElem_range,
        List.getElem_mapIdx]
      rfl
  rw [Scan.results, ← hfill, List.filter_map]
  rfl

end Shows

/-! ## Every call -/

/-- The names and positions around the walk. -/
def surroundings (t : ScanTables) : List String × List String × List Nat :=
  (t.namespaces, t.typeNames, t.typeStack)

/-- A state of a scan, and tables that hold the same. -/
def Beside (t : Option ScanTables) (s : Scan) : Prop :=
  s.Sound ∧ ∃ t', t = some t' ∧ t'.Shows s

/-- Tables that fit together and hold what a state of a scan holds. -/
def SoundBeside (t : Option ScanTables) (s : Scan) : Prop :=
  ∃ t', t = some t' ∧ t'.Shows s ∧ t'.Sound (entryKeys s.entries) ∧ t'.ClimbsEnd

/-- The steps of the two scanners lead from tables that show a state of a scan to such tables. -/
theorem simulates : steps.Simulates Beside Scan.steps where
  enterFile := by
    rintro _ s ⟨hs, t, rfl, h⟩ f
    exact ⟨{ hs with }, t.enterFile f, rfl, { h with file := rfl, fileUsings := rfl }⟩
  enterScope := by
    rintro _ s ⟨hs, t, rfl, h⟩ head
    have hnamespaces := congrArg (· ++ [head.name]) h.namespaces
    exact ⟨{ hs with }, t.enterScope head, rfl, { h with namespaces := hnamespaces }⟩
  leaveScope := by
    rintro _ s ⟨hs, t, rfl, h⟩
    have hnamespaces := congrArg List.dropLast h.namespaces
    exact ⟨{ hs with }, t.leaveScope, rfl, { h with namespaces := hnamespaces }⟩
  enterType := by
    rintro _ s ⟨hs, t, rfl, h⟩ part
    rcases h.enterType part hs with ⟨t', ht', hshows⟩
    exact ⟨hs.enterType part, t', ht', hshows⟩
  leaveType := by
    rintro _ s ⟨hs, t, rfl, h⟩
    exact ⟨hs.leaveType, t.leaveType, rfl, h.leaveType⟩
  addMember := by
    rintro _ s ⟨hs, t, rfl, h⟩ m
    rcases h.addMember hs m with ⟨t', ht', hshows⟩
    exact ⟨hs.addMember m, t', ht', hshows⟩

/-- Before the walk, both scanners hold nothing. -/
theorem beside_empty : Beside (some {}) {} := by
  refine ⟨⟨List.nodup_nil, by simp, by simp⟩, {}, rfl, ?_⟩
  exact ⟨rfl, rfl, rfl, rfl, rfl, rfl, rfl, by simp [Scan.find?], by simp⟩

/-- Tables that hold what a sound state holds fit together. -/
theorem Beside.sound {t : Option ScanTables} {s : Scan} (h : Beside t s) : SoundBeside t s := by
  rcases h with ⟨hs, t', rfl, hshows⟩
  exact ⟨t', rfl, hshows, hshows.sound hs, (hshows.sound hs).climbsEnd⟩

/-- If two states of a scan are at the same place, so are the tables beside them. -/
theorem Beside.surroundings_eq {t t' : Option ScanTables} {s s' : Scan} (h : Beside t s)
    (h' : Beside t' s') (heq : (s.namespaces, s.around) = (s'.namespaces, s'.around)) :
    t.map surroundings = t'.map surroundings := by
  rcases h with ⟨-, t, rfl, h⟩
  rcases h' with ⟨-, t', rfl, h'⟩
  rw [Prod.mk.injEq] at heq
  rw [Option.map_some, Option.map_some, surroundings, surroundings, h.namespaces, h.typeNames,
    h.typeStack, h'.namespaces, h'.typeNames, h'.typeStack, heq.1, heq.2]

end ScanTables

/-- At every call of a hook in the course of a scan, before and after it, the tables of the scanner
fit together, and the names and positions around the walk are after the call what they were before
it.  No position is ever out of range, and the way outwards ends from every type, so that at last
the containers of all types are found and with them the results of the scan. -/
theorem tables_fit_at_every_call (c : Compilation) :
    (ScanTables.steps.calls c (some {})).map HookCall.event = c.preorder ∧
      List.Forall₂ (HookCall.Related ScanTables.SoundBeside) (ScanTables.steps.calls c (some {}))
        (Scan.steps.calls c {}) ∧
      (∀ x ∈ ScanTables.steps.calls c (some {}), x.Keeps (Option.map ScanTables.surroundings)) ∧
      ∃ t containers, ScanTables.steps.visitor.run c (some {}) = some t ∧
        t.Sound (Site.keysIn c.sites) ∧ t.ClimbsEnd ∧
        List.Forall₂ t.HasContainers (List.range t.found.length) containers ∧
        t.results containers = c.scan := by
  have hcalls := ScanTables.simulates.calls c ScanTables.beside_empty
  refine ⟨ScanSteps.map_event_calls _ c _, ?_, ?_, ?_⟩
  · exact hcalls.imp fun x y hxy => hxy.imp fun hts => hts.sound
  · exact HookCall.Related.forall_keeps (fun h h' => h.surroundings_eq h') hcalls
      (Scan.restores_steps.calls c {})
  · rcases ScanTables.simulates.run c ScanTables.beside_empty with ⟨hs, t, ht, hshows⟩
    rw [Scan.visitor_steps] at hs hshows
    have hsound := hshows.sound hs
    rw [(gathered_run c).keys] at hsound
    refine ⟨t, _, ht, hsound, hsound.climbsEnd, ?_, hshows.results_eq⟩
    rw [List.forall₂_map_right_iff, List.forall₂_same]
    exact fun i hi => hshows.hasContainers hs (List.mem_range.mp hi)

/-- A type can be met again among other types than before.  Here the walk comes to the type at
position 0 once more in the one at position 1, and what it meets there for the first time stands,
as far as the tables go, in the former alone. -/
example :
    let leaf : Decl := .type ⟨"C", [], [], .unknown⟩ []
    let again : Decl := .type ⟨"B", [], [], .unknown⟩ [leaf]
    let file : SourceFile := ⟨"A.cs",
      [.type ⟨"A+B", [], [], .unknown⟩ [], .type ⟨"A", [], [], .unknown⟩ [again]]⟩
    (Scan.visitor.run ⟨[file]⟩ {}).entries.map (fun e => (e.key, e.parent)) =
      [("+A+B", none), ("+A", none), ("+A+B+C", some 0)] := by
  decide

end SceneWiring
