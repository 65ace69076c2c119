import SceneWiring.Proofs.Scan.Walk

/-!
# What entries gather

After some sites have been noted there is one entry for each key of a part, in the order of
the first parts, and each entry holds what those sites have under its key: the parts, the
candidates, and the using directives of the files of the parts, each path counted once.

Main results:

- Definition `freshFiles`: the files whose paths have not been seen.
- Definition `Entry.Gathers`: what an entry holds of some sites.
- Theorem `Gathered.note`: one more site keeps the entries gathered.
- Theorem `gathered_run`: the entries of a walk gather the sites of the compilation.
-/

namespace SceneWiring

/-! ## Files by path -/

/-- The files whose paths are not among the given ones and not those of earlier files. -/
def freshFiles (seen : List String) : List SourceFile → List SourceFile
  | [] => []
  | f :: rest =>
    if f.path ∈ seen then freshFiles seen rest else f :: freshFiles (f.path :: seen) rest

/-- One more file is fresh if its path is new. -/
theorem freshFiles_concat (seen : List String) (files : List SourceFile) (f : SourceFile) :
    freshFiles seen (files ++ [f]) =
      if f.path ∈ seen ∨ f.path ∈ files.map SourceFile.path then freshFiles seen files
      else freshFiles seen files ++ [f] := by
  induction files generalizing seen with
  | nil => by_cases h : f.path ∈ seen <;> simp [freshFiles, h]
  | cons g files ih =>
      by_cases hg : g.path ∈ seen
      · have hcongr : f.path ∈ seen ∨ f.path ∈ (g :: files).map SourceFile.path ↔
            f.path ∈ seen ∨ f.path ∈ files.map SourceFile.path := by
          rw [List.map_cons, List.mem_cons]
          constructor
          · rintro (h | h | h)
            · exact Or.inl h
            · exact Or.inl (h ▸ hg)
            · exact Or.inr h
          · rintro (h | h)
            · exact Or.inl h
            · exact Or.inr (Or.inr h)
        rw [List.cons_append, freshFiles, if_pos hg, ih, freshFiles, if_pos hg]
        exact if_congr hcongr.symm rfl rfl
      · have hcongr : f.path ∈ g.path :: seen ∨ f.path ∈ files.map SourceFile.path ↔
            f.path ∈ seen ∨ f.path ∈ (g :: files).map SourceFile.path := by
          rw [List.map_cons, List.mem_cons, List.mem_cons]
          tauto
        rw [List.cons_append, freshFiles, if_neg hg, ih, freshFiles, if_neg hg]
        by_cases h : f.path ∈ g.path :: seen ∨ f.path ∈ files.map SourceFile.path
        · rw [if_pos h, if_pos (hcongr.mp h)]
        · rw [if_neg h, if_neg (fun hright => h (hcongr.mpr hright)), List.cons_append]

/-! ## What one entry holds -/

/-- What an entry holds of sites whose parts under its key are the given ones. -/
structure Entry.Gathers (sites : List Site) (first : PartSite) (others : List PartSite)
    (e : Entry) : Prop where
  parts : Site.partsUnder e.key sites = first :: others
  first_eq : e.first = first.part
  others_eq : e.others = others.map PartSite.part
  namespaces_eq : e.namespaces = first.place.namespaces
  file_eq : e.file = first.file.path
  /-- The type around the first part has an entry, and this is its position. -/
  parent_eq : e.parent = first.place.ownerKey?.map (Site.keysIn sites).idxOf
  parent_known : ∀ key ∈ first.place.ownerKey?, key ∈ Site.keysIn sites
  mem_mergedFiles : ∀ path, path ∈ e.mergedFiles ↔
    path ∈ ((first :: others).map PartSite.file).map SourceFile.path
  usings_eq : e.usings =
    (freshFiles [] ((first :: others).map PartSite.file)).flatMap SourceFile.usings
  candidates_eq : e.candidates = Site.candidatesUnder e.key sites

namespace Entry.Gathers

variable {sites : List Site} {first : PartSite} {others : List PartSite} {e : Entry}

theorem first_mem (h : e.Gathers sites first others) : first ∈ Site.partsUnder e.key sites := by
  rw [h.parts]
  exact List.mem_cons_self

/-- Sites that have nothing under the key of an entry leave it as it is. -/
theorem append (h : e.Gathers sites first others) {more : List Site}
    (hparts : Site.partsUnder e.key more = [])
    (hcandidates : Site.candidatesUnder e.key more = [])
    (hkeys : Site.keysIn sites <+: Site.keysIn (sites ++ more)) :
    e.Gathers (sites ++ more) first others where
  parts := by rw [Site.partsUnder_append, hparts, List.append_nil, h.parts]
  first_eq := h.first_eq
  others_eq := h.others_eq
  namespaces_eq := h.namespaces_eq
  file_eq := h.file_eq
  parent_eq := by
    rw [h.parent_eq]
    cases howner : first.place.ownerKey? with
    | none => rfl
    | some key =>
        have hknown := h.parent_known key howner
        rw [Option.map_some, Option.map_some, idxOf_eq_of_extension hknown hkeys]
  parent_known := fun key howner => hkeys.subset (h.parent_known key howner)
  mem_mergedFiles := h.mem_mergedFiles
  usings_eq := h.usings_eq
  candidates_eq := by
    rw [Site.candidatesUnder_append, hcandidates, List.append_nil, h.candidates_eq]

/-- A further part under the key of an entry goes to its parts. -/
theorem addPart (h : e.Gathers sites first others) {s : PartSite} (hkey : s.key = e.key) :
    (s.addTo e).Gathers (sites ++ [.part s]) first (others ++ [s]) := by
  have hlisted : s.key ∈ Site.keysIn sites := by
    rw [hkey]
    exact Site.mem_keysIn_of_mem_partsUnder h.first_mem
  have hkeys : Site.keysIn (sites ++ [.part s]) = Site.keysIn sites := by
    rw [Site.keysIn_concat_part, if_pos hlisted]
  have hfiles : (first :: (others ++ [s])).map PartSite.file =
      (first :: others).map PartSite.file ++ [s.file] := by
    simp
  rw [PartSite.addTo_eq]
  exact {
    parts := by
      rw [Site.partsUnder_append, h.parts, Site.partsUnder_part, if_pos hkey, List.cons_append]
    first_eq := h.first_eq
    others_eq := by rw [List.map_append, List.map_singleton, h.others_eq]
    namespaces_eq := h.namespaces_eq
    file_eq := h.file_eq
    parent_eq := by rw [hkeys, h.parent_eq]
    parent_known := by
      rw [hkeys]
      exact h.parent_known
    mem_mergedFiles := by
      intro path
      rw [PartSite.mem_mergedFiles_addTo, h.mem_mergedFiles, hfiles, List.map_append,
        List.mem_append, List.map_singleton, List.mem_singleton]
    usings_eq := by
      rw [PartSite.usings_addTo, hfiles, freshFiles_concat]
      by_cases hseen : s.file.path ∈ e.mergedFiles
      · rw [if_pos hseen, if_pos (Or.inr ((h.mem_mergedFiles _).mp hseen)), h.usings_eq]
      · have hfresh : ¬ (s.file.path ∈ ([] : List String) ∨
            s.file.path ∈ ((first :: others).map PartSite.file).map SourceFile.path) := by
          rintro (hnil | hold)
          · exact List.not_mem_nil hnil
          · exact hseen ((h.mem_mergedFiles _).mpr hold)
        rw [if_neg hseen, if_neg hfresh, List.flatMap_append, h.usings_eq]
        simp [PartSite.file]
    candidates_eq := by
      rw [Site.candidatesUnder_append, Site.candidatesUnder_part, List.append_nil,
        h.candidates_eq] }

/-- A member that is a candidate under the key of an entry goes to its candidates. -/
theorem addCandidate (h : e.Gathers sites first others) {s : MemberSite}
    (hkey : s.isCandidateUnder e.key) :
    (e.addCandidate s.candidate).Gathers (sites ++ [.member s]) first others where
  parts := by
    rw [Site.partsUnder_append, Site.partsUnder_member, List.append_nil]
    exact h.parts
  first_eq := h.first_eq
  others_eq := h.others_eq
  namespaces_eq := h.namespaces_eq
  file_eq := h.file_eq
  parent_eq := by
    rw [Site.keysIn_concat_member]
    exact h.parent_eq
  parent_known := by
    rw [Site.keysIn_concat_member]
    exact h.parent_known
  mem_mergedFiles := h.mem_mergedFiles
  usings_eq := h.usings_eq
  candidates_eq := by
    rw [Entry.key_addCandidate, Site.candidatesUnder_append, Site.candidatesUnder_member,
      if_pos hkey, ← h.candidates_eq]
    rfl

end Entry.Gathers

/-- The first part under a key makes an entry that holds just that part. -/
theorem PartSite.gathers_entry {sites : List Site} {entries : List Entry} {s : PartSite}
    (hkeys : entryKeys entries = Site.keysIn sites) (hnew : s.key ∉ Site.keysIn sites)
    (hgrounded : Site.Grounded sites)
    (hknown : ∀ t ∈ s.place.around, t.key ∈ Site.keysIn sites) :
    (s.entry entries).Gathers (sites ++ [.part s]) s [] := by
  have hmore : Site.keysIn sites <+: Site.keysIn (sites ++ [.part s]) := by
    rw [Site.keysIn_concat_part, if_neg hnew]
    exact List.prefix_append _ _
  have howner : ∀ key ∈ s.place.ownerKey?, key ∈ Site.keysIn sites := by
    intro key hkey
    rcases Option.map_eq_some_iff.mp hkey with ⟨t, ht, rfl⟩
    exact hknown t (List.mem_of_getLast? ht)
  exact {
    parts := by
      rw [Site.partsUnder_append, show (s.entry entries).key = s.key from rfl,
        Site.partsUnder_eq_nil hnew, Site.partsUnder_part, if_pos rfl, List.nil_append]
    first_eq := rfl
    others_eq := rfl
    namespaces_eq := rfl
    file_eq := rfl
    parent_eq := by
      rw [show (s.entry entries).parent = s.place.ownerKey?.map (entryKeys entries).idxOf from
        rfl, hkeys]
      cases hkey : s.place.ownerKey? with
      | none => rfl
      | some key =>
          rw [Option.map_some, Option.map_some,
            idxOf_eq_of_extension (howner key hkey) hmore]
    parent_known := fun key hkey => hmore.subset (howner key hkey)
    mem_mergedFiles := by
      intro path
      simp [PartSite.entry, PartSite.file]
    usings_eq := by simp [PartSite.entry, PartSite.file, freshFiles]
    candidates_eq := by
      rw [Site.candidatesUnder_append, show (s.entry entries).key = s.key from rfl,
        hgrounded.candidatesUnder_eq_nil hnew, Site.candidatesUnder_part]
      rfl }

/-! ## What all entries hold -/

/-- The entries are those of the keys of sites and hold what the sites have under them. -/
structure Gathered (sites : List Site) (entries : List Entry) : Prop where
  keys : entryKeys entries = Site.keysIn sites
  entry : ∀ e ∈ entries, ∃ first others, e.Gathers sites first others

/-- If keys are distinct, changing the entry at the position of a key is changing the
entries with that key. -/
theorem modify_idxOf_eq_map {entries : List Entry} (h : (entryKeys entries).Nodup)
    (key : String) (f : Entry → Entry) :
    entries.modify ((entryKeys entries).idxOf key) f =
      entries.map fun e => if e.key = key then f e else e := by
  induction entries with
  | nil => simp
  | cons e entries ih =>
      have hcons : entryKeys (e :: entries) = e.key :: entryKeys entries := rfl
      rw [hcons, List.nodup_cons] at h
      rw [hcons, List.idxOf_cons, List.map_cons]
      by_cases hkey : e.key = key
      · have hrest : ∀ a ∈ entries, (if a.key = key then f a else a) = a := by
          intro a ha
          rw [if_neg]
          intro hsame
          exact h.1 (hkey ▸ hsame ▸ List.mem_map_of_mem ha)
        rw [if_pos hkey, List.map_congr_left hrest]
        simp [hkey]
      · have hbeq : (e.key == key) = false := by simpa using hkey
        rw [hbeq, if_neg hkey, ← ih h.2]
        simp

namespace Gathered

variable {sites : List Site} {entries : List Entry}

/-- One more part keeps the entries gathered. -/
theorem note_part (h : Gathered sites entries) (hgrounded : Site.Grounded sites)
    {s : PartSite} (hknown : ∀ t ∈ s.place.around, t.key ∈ Site.keysIn sites) :
    Gathered (sites ++ [.part s]) (Site.note entries (.part s)) := by
  have hkeys : entryKeys (Site.note entries (.part s)) = Site.keysIn (sites ++ [.part s]) := by
    rw [Site.entryKeys_note_part, Site.keysIn_concat_part, h.keys]
  have hmore : Site.keysIn sites <+: Site.keysIn (sites ++ [.part s]) := by
    rw [← h.keys, ← hkeys]
    exact Site.entryKeys_prefix_note _
  have hother : ∀ e ∈ entries, e.key ≠ s.key →
      ∃ first others, e.Gathers (sites ++ [.part s]) first others := by
    intro e he hne
    rcases h.entry e he with ⟨first, others, hgathers⟩
    refine ⟨first, others, hgathers.append ?_ rfl hmore⟩
    rw [Site.partsUnder_part, if_neg (Ne.symm hne)]
  refine ⟨hkeys, ?_⟩
  by_cases hlisted : s.key ∈ Site.keysIn sites
  · have hnodup : (entryKeys entries).Nodup := h.keys ▸ Site.nodup_keysIn sites
    rw [Site.note_part_of_mem (h.keys ▸ hlisted), modify_idxOf_eq_map hnodup]
    intro e he
    rcases List.mem_map.mp he with ⟨old, hold, rfl⟩
    by_cases hkey : old.key = s.key
    · rcases h.entry old hold with ⟨first, others, hgathers⟩
      rw [if_pos hkey]
      exact ⟨first, others ++ [s], hgathers.addPart hkey.symm⟩
    · rw [if_neg hkey]
      exact hother old hold hkey
  · rw [Site.note_part_of_not_mem (h.keys ▸ hlisted)]
    intro e he
    rcases List.mem_append.mp he with he | he
    · apply hother e he
      intro hkey
      exact hlisted (h.keys ▸ hkey ▸ List.mem_map_of_mem he)
    · rw [List.mem_singleton.mp he]
      exact ⟨s, [], PartSite.gathers_entry h.keys hlisted hgrounded hknown⟩

/-- One more member keeps the entries gathered. -/
theorem note_member (h : Gathered sites entries) (s : MemberSite) :
    Gathered (sites ++ [.member s]) (Site.note entries (.member s)) := by
  have hother : ∀ e ∈ entries, s.isCandidateUnder e.key = false →
      ∃ first others, e.Gathers (sites ++ [.member s]) first others := by
    intro e he hnot
    rcases h.entry e he with ⟨first, others, hgathers⟩
    refine ⟨first, others, hgathers.append rfl ?_ ?_⟩
    · rw [Site.candidatesUnder_member, if_neg (by simp [hnot])]
    · rewrite [Site.keysIn_concat_member]
      exact List.prefix_rfl
  refine ⟨by rw [Site.entryKeys_note_member, Site.keysIn_concat_member, h.keys], ?_⟩
  rw [Site.note_member]
  split
  · rename_i key hmarked howner
    have hnodup : (entryKeys entries).Nodup := h.keys ▸ Site.nodup_keysIn sites
    rw [modify_idxOf_eq_map hnodup]
    intro e he
    rcases List.mem_map.mp he with ⟨old, hold, rfl⟩
    by_cases hkey : old.key = key
    · rcases h.entry old hold with ⟨first, others, hgathers⟩
      rw [if_pos hkey]
      refine ⟨first, others, hgathers.addCandidate ?_⟩
      simp [MemberSite.isCandidateUnder, hmarked, howner, hkey]
    · rw [if_neg hkey]
      apply hother old hold
      simp [MemberSite.isCandidateUnder, hmarked, howner, Ne.symm hkey]
  · rename_i hneither
    intro e he
    apply hother e he
    simp only [MemberSite.isCandidateUnder, Bool.and_eq_false_iff]
    by_cases hmarked : s.member.isMarked
    · right
      cases howner : s.ownerKey? with
      | none => rfl
      | some key => exact absurd howner (hneither key hmarked)
    · left
      simpa using hmarked

/-- Noting all of some sites gathers them. -/
theorem foldl_note (h : Site.Grounded sites) : Gathered sites (sites.foldl Site.note []) := by
  induction h with
  | nil => exact ⟨rfl, by simp⟩
  | @concat sites site before known ih =>
      rw [List.foldl_append, List.foldl_cons, List.foldl_nil]
      cases site with
      | part s => exact ih.note_part before known
      | member s => exact ih.note_member s

end Gathered

/-- The entries of a walk gather the sites of the compilation. -/
theorem gathered_run (c : Compilation) : Gathered c.sites (Scan.visitor.run c {}).entries := by
  rw [entries_run]
  exact .foldl_note c.grounded_sites

end SceneWiring
