import SceneWiring.Proofs.Header.Merging
import SceneWiring.Proofs.Scan.Outline
import SceneWiring.Report

/-!
# Scans that look alike

A report shows less than a scan finds.  How often a part of a type is repeated does not
matter, since the header of the type joins all parts, and of the namespaces around a type only
their joined names do.  Two places, sites or entries are alike if nothing else tells them
apart.  The scanner keeps entries alike while it notes sites that are alike, and it may note a
part again that an entry holds already.

Main results:

- Theorem `Header.ofParts_eraseDups`: headers do not show repeated parts.
- Structures `Place.Alike` and `Entry.Alike`: what a report cannot tell apart.
- Theorem `Site.Alike.note` and `forall₂_alike_foldl_note`: one more site, and many.
- Theorem `PartSite.IsHeld.note`: a part that is noted again.
- Theorem `forall₂_alike_scan`: types that look alike.
-/

namespace SceneWiring

/-! ## Repeated parts -/

section

variable {α : Type} [DecidableEq α]

/-- Repetitions do not change which element with a property comes first. -/
theorem find?_eraseDups (p : α → Bool) (xs : List α) : xs.eraseDups.find? p = xs.find? p := by
  induction xs using List.reverseRecOn with
  | nil => rfl
  | append_singleton xs x ih =>
      rw [Site.eraseDups_concat, List.find?_append]
      by_cases hx : x ∈ xs
      · rw [if_pos hx, ih]
        cases hfind : xs.find? p with
        | some first => rfl
        | none =>
            have hnot : ¬ p x := List.find?_eq_none.mp hfind x hx
            rw [List.find?_cons_of_neg hnot]
            rfl
      · rw [if_neg hx, List.find?_append, ih]

/-- Repetitions do not change whether some element has a property. -/
theorem any_eraseDups (p : α → Bool) (xs : List α) : xs.eraseDups.any p = xs.any p := by
  rw [Bool.eq_iff_iff, List.any_eq_true, List.any_eq_true]
  simp only [List.mem_eraseDups]

/-- Repetitions do not change whether all elements have a property. -/
theorem all_eraseDups (p : α → Bool) (xs : List α) : xs.eraseDups.all p = xs.all p := by
  rw [Bool.eq_iff_iff, List.all_eq_true, List.all_eq_true]
  simp only [List.mem_eraseDups]

end

/-- The header of a type does not show how often its parts are repeated. -/
theorem Header.ofParts_eraseDups (parts : List TypePart) :
    ofParts parts.eraseDups = ofParts parts := by
  have hhead : parts.eraseDups.head? = parts.head? := by
    cases parts with
    | nil => rfl
    | cons part rest => rw [List.eraseDups_cons, List.head?_cons, List.head?_cons]
  have hempty : parts.eraseDups.isEmpty = parts.isEmpty := by
    cases parts with
    | nil => rfl
    | cons part rest => rw [List.eraseDups_cons, List.isEmpty_cons, List.isEmpty_cons]
  have hkeyword : ∀ keyword, hasKeyword (parts.eraseDups.flatMap TypePart.modifiers) keyword =
      hasKeyword (parts.flatMap TypePart.modifiers) keyword := by
    intro keyword
    rw [hasKeyword, hasKeyword, List.any_flatMap, List.any_flatMap, any_eraseDups]
  rw [ofParts, ofParts, hhead, mergedTypeParameters, mergedTypeParameters, find?_eraseDups,
    Accessibility.ofModifiers_eq, Accessibility.ofModifiers_eq, hkeyword, hkeyword, any_eraseDups,
    all_eraseDups, hempty]

/-! ## Places and sites -/

/-- Two places in the same file and the same types, in namespaces with the same joined names,
whatever namespaces are entered from there. -/
structure Place.Alike (p p' : Place) : Prop where
  file : p'.file = p.file
  around : p'.around = p.around
  joined : ∀ more, ".".intercalate (p'.namespaces ++ more) = ".".intercalate (p.namespaces ++ more)
  path : ∀ more, dottedPath (p'.namespaces ++ more) = dottedPath (p.namespaces ++ more)

namespace Place.Alike

variable {p p' : Place}

theorem refl (p : Place) : p.Alike p :=
  ⟨rfl, rfl, fun _ => rfl, fun _ => rfl⟩

/-- Types have the same keys at places that are alike. -/
theorem keyOf_eq (h : p.Alike p') (name : String) : p'.keyOf name = p.keyOf name := by
  have hjoined := h.joined []
  rw [List.append_nil, List.append_nil] at hjoined
  rw [Place.keyOf, Place.keyOf, typeKey, typeKey, hjoined, h.around]

theorem ownerKey?_eq (h : p.Alike p') : p'.ownerKey? = p.ownerKey? := by
  rw [Place.ownerKey?, Place.ownerKey?, h.around]

theorem enterScope (h : p.Alike p') (head : ScopeHead) :
    (p.enterScope head).Alike (p'.enterScope head) where
  file := h.file
  around := h.around
  joined more := by
    simpa [Place.enterScope] using h.joined (head.name :: more)
  path more := by
    simpa [Place.enterScope] using h.path (head.name :: more)

theorem enterType (h : p.Alike p') (part : TypePart) :
    (p.enterType part).Alike (p'.enterType part) where
  file := h.file
  around := by rw [Place.enterType, Place.enterType, h.around, h.keyOf_eq]
  joined := h.joined
  path := h.path

end Place.Alike

/-- The same part or the same member at places that are alike. -/
inductive Site.Alike : Site → Site → Prop
  | part {p p' : Place} (h : p.Alike p') (part : TypePart) :
      Site.Alike (.part ⟨p, part⟩) (.part ⟨p', part⟩)
  | member {p p' : Place} (h : p.Alike p') (m : Member) :
      Site.Alike (.member ⟨p, m⟩) (.member ⟨p', m⟩)

mutual

/-- The sites of a declaration at places that are alike. -/
theorem Decl.forall₂_alike_sites : ∀ (d : Decl) {p p' : Place}, p.Alike p' →
    List.Forall₂ Site.Alike (d.sites p) (d.sites p')
  | .scope head members, _, _, h => Decl.forall₂_alike_sitesAll members (h.enterScope head)
  | .type part members, _, _, h =>
      .cons (.part h part) (Decl.forall₂_alike_sitesAll members (h.enterType part))
  | .member m, _, _, h => .cons (.member h m) .nil
  | .directive _, _, _, _ => .nil
  | .unknown, _, _, _ => .nil

/-- The sites of declarations at places that are alike. -/
theorem Decl.forall₂_alike_sitesAll : ∀ (ds : List Decl) {p p' : Place}, p.Alike p' →
    List.Forall₂ Site.Alike (Decl.sitesAll p ds) (Decl.sitesAll p' ds)
  | [], _, _, _ => .nil
  | d :: ds, _, _, h =>
      List.rel_append (Decl.forall₂_alike_sites d h) (Decl.forall₂_alike_sitesAll ds h)

end

/-! ## Entries -/

/-- Two entries that differ in how often their parts are repeated and in how the path of their
namespaces is cut into names, if in anything. -/
structure Entry.Alike (e e' : Entry) : Prop where
  key : e'.key = e.key
  parent : e'.parent = e.parent
  first : e'.first = e.first
  parts : e'.parts.eraseDups = e.parts.eraseDups
  path : dottedPath e'.namespaces = dottedPath e.namespaces
  file : e'.file = e.file
  mergedFiles : e'.mergedFiles = e.mergedFiles
  usings : e'.usings = e.usings
  candidates : e'.candidates = e.candidates

theorem Entry.Alike.refl (e : Entry) : e.Alike e :=
  ⟨rfl, rfl, rfl, rfl, rfl, rfl, rfl, rfl, rfl⟩

/-- Changing elements that are related at the same position keeps lists related. -/
theorem forall₂_modify {α β : Type} {R : α → β → Prop} {f : α → α} {g : β → β} {xs : List α}
    {ys : List β} (h : List.Forall₂ R xs ys) {i : Nat}
    (hi : ∀ x y, xs[i]? = some x → ys[i]? = some y → R x y → R (f x) (g y)) :
    List.Forall₂ R (xs.modify i f) (ys.modify i g) := by
  induction h generalizing i with
  | nil => simp
  | @cons x y xs ys hhead hrest ih =>
      cases i with
      | zero => exact .cons (hi x y rfl rfl hhead) hrest
      | succ i => exact .cons hhead (ih hi)

/-- Entries that are alike have the same keys. -/
theorem entryKeys_eq_of_alike {entries entries' : List Entry}
    (h : List.Forall₂ Entry.Alike entries entries') : entryKeys entries' = entryKeys entries := by
  rw [entryKeys, entryKeys, map_eq_map_iff_forall₂]
  exact h.flip.imp fun _ _ h => h.key

namespace PartSite

theorem parts_addTo (s : PartSite) (e : Entry) : (s.addTo e).parts = e.parts ++ [s.part] := by
  rw [addTo_eq]
  rfl

theorem mergedFiles_addTo (s : PartSite) (e : Entry) :
    (s.addTo e).mergedFiles =
      if s.file.path ∈ e.mergedFiles then e.mergedFiles else e.mergedFiles ++ [s.file.path] := by
  by_cases h : s.file.path ∈ e.mergedFiles <;>
    simp [addTo, Entry.mergeFile, Entry.addPart, h]

/-- A part of a type changes entries that are alike in the same way. -/
theorem alike_addTo {p p' : Place} (hplace : p.Alike p') (part : TypePart) {e e' : Entry}
    (h : e.Alike e') :
    ((⟨p, part⟩ : PartSite).addTo e).Alike ((⟨p', part⟩ : PartSite).addTo e') := by
  let s : PartSite := ⟨p, part⟩
  let s' : PartSite := ⟨p', part⟩
  have hfile : s'.file = s.file := hplace.file
  have hmem : part ∈ e'.parts ↔ part ∈ e.parts := by
    rw [← List.mem_eraseDups, h.parts, List.mem_eraseDups]
  have hparts : (s'.addTo e').parts.eraseDups = (s.addTo e).parts.eraseDups := by
    rw [parts_addTo, parts_addTo, Site.eraseDups_concat, Site.eraseDups_concat, h.parts]
    exact if_congr hmem rfl rfl
  have hmerged : (s'.addTo e').mergedFiles = (s.addTo e).mergedFiles := by
    rw [mergedFiles_addTo, mergedFiles_addTo, hfile, h.mergedFiles]
  have husings : (s'.addTo e').usings = (s.addTo e).usings := by
    rw [usings_addTo, usings_addTo, hfile, h.mergedFiles, h.usings]
  change (s.addTo e).Alike (s'.addTo e')
  rw [addTo_eq s e, addTo_eq s' e'] at *
  exact ⟨h.key, h.parent, h.first, hparts, h.path, h.file, hmerged, husings, h.candidates⟩

/-- A part of a type makes entries that are alike. -/
theorem alike_entry {p p' : Place} (h : p.Alike p') (part : TypePart)
    {entries entries' : List Entry} (hkeys : entryKeys entries' = entryKeys entries) :
    ((⟨p, part⟩ : PartSite).entry entries).Alike ((⟨p', part⟩ : PartSite).entry entries') where
  key := h.keyOf_eq part.name
  parent := by
    simp only [entry, h.ownerKey?_eq, hkeys]
  first := rfl
  parts := rfl
  path := by
    simpa [entry] using h.path []
  file := by simp only [entry, file, h.file]
  mergedFiles := by simp only [entry, file, h.file]
  usings := by simp only [entry, file, h.file]
  candidates := rfl

end PartSite

/-- A candidate changes entries that are alike in the same way. -/
theorem Entry.Alike.addCandidate {e e' : Entry} (h : e.Alike e') (c : Candidate) :
    (e.addCandidate c).Alike (e'.addCandidate c) where
  key := h.key
  parent := h.parent
  first := h.first
  parts := h.parts
  path := h.path
  file := h.file
  mergedFiles := h.mergedFiles
  usings := h.usings
  candidates := by rw [Entry.addCandidate, Entry.addCandidate, h.candidates]

/-! ## Noting sites -/

/-- Noting sites that are alike keeps entries alike. -/
theorem Site.Alike.note {site site' : Site} (hsite : site.Alike site')
    {entries entries' : List Entry} (h : List.Forall₂ Entry.Alike entries entries') :
    List.Forall₂ Entry.Alike (Site.note entries site) (Site.note entries' site') := by
  have hkeys := entryKeys_eq_of_alike h
  cases hsite with
  | @part p p' hplace part =>
      have hkey : (⟨p', part⟩ : PartSite).key = (⟨p, part⟩ : PartSite).key :=
        hplace.keyOf_eq part.name
      by_cases hknown : (⟨p, part⟩ : PartSite).key ∈ entryKeys entries
      · have hknown' : (⟨p', part⟩ : PartSite).key ∈ entryKeys entries' := by
          rwa [hkey, hkeys]
        rw [Site.note_part_of_mem hknown, Site.note_part_of_mem hknown', hkey, hkeys]
        apply forall₂_modify h
        intro e e' _ _ he
        exact PartSite.alike_addTo hplace part he
      · have hnew' : (⟨p', part⟩ : PartSite).key ∉ entryKeys entries' := by
          rwa [hkey, hkeys]
        rw [Site.note_part_of_not_mem hknown, Site.note_part_of_not_mem hnew']
        exact List.rel_append h (.cons (PartSite.alike_entry hplace part hkeys) .nil)
  | @member p p' hplace m =>
      have howner : (⟨p', m⟩ : MemberSite).ownerKey? = (⟨p, m⟩ : MemberSite).ownerKey? :=
        hplace.ownerKey?_eq
      have hcandidate : (⟨p', m⟩ : MemberSite).candidate = (⟨p, m⟩ : MemberSite).candidate := by
        rw [MemberSite.candidate, MemberSite.candidate, hplace.file]
      rw [Site.note_member, Site.note_member, howner, hcandidate, hkeys]
      cases m.isMarked with
      | false => exact h
      | true =>
          cases (⟨p, m⟩ : MemberSite).ownerKey? with
          | none => exact h
          | some key => exact forall₂_modify h fun _ _ _ _ he => he.addCandidate _

/-- Noting many sites that are alike keeps entries alike. -/
theorem forall₂_alike_foldl_note {sites sites' : List Site}
    (hsites : List.Forall₂ Site.Alike sites sites') {entries entries' : List Entry}
    (h : List.Forall₂ Entry.Alike entries entries') :
    List.Forall₂ Entry.Alike (sites.foldl Site.note entries) (sites'.foldl Site.note entries') := by
  induction hsites generalizing entries entries' with
  | nil => exact h
  | cons hsite _ ih => exact ih (hsite.note h)

/-- The same sites are alike. -/
theorem forall₂_alike_refl (sites : List Site) : List.Forall₂ Site.Alike sites sites := by
  apply List.forall₂_same.mpr
  intro site _
  cases site with
  | part s => exact .part (.refl s.place) s.part
  | member s => exact .member (.refl s.place) s.member

/-! ## Parts that are held -/

/-- An entry holds a part already, and the using directives of its file. -/
def PartSite.IsHeld (entries : List Entry) (s : PartSite) : Prop :=
  ∃ e, entries[(entryKeys entries).idxOf s.key]? = some e ∧ s.part ∈ e.parts ∧
    s.file.path ∈ e.mergedFiles

namespace PartSite.IsHeld

variable {entries : List Entry} {s : PartSite}

/-- A part that was just noted is held. -/
theorem of_note (entries : List Entry) (s : PartSite) : s.IsHeld (Site.note entries (.part s)) := by
  by_cases h : s.key ∈ entryKeys entries
  · have hlt : (entryKeys entries).idxOf s.key < entries.length := by
      simpa [entryKeys] using List.idxOf_lt_length_iff.mpr h
    refine ⟨s.addTo entries[(entryKeys entries).idxOf s.key], ?_, ?_, ?_⟩
    · rw [Site.note_part_of_mem h, entryKeys_modify s.key_addTo, List.getElem?_modify_eq,
        List.getElem?_eq_getElem hlt]
      rfl
    · rw [parts_addTo]
      exact List.mem_append_right _ (List.mem_singleton_self _)
    · exact (s.mem_mergedFiles_addTo _).mpr (Or.inr rfl)
  · have hindex : (entryKeys (entries ++ [s.entry entries])).idxOf s.key = entries.length := by
      have hkeys : entryKeys (entries ++ [s.entry entries]) = entryKeys entries ++ [s.key] := by
        simp [entryKeys, entry]
      rw [hkeys, List.idxOf_append, if_neg h]
      simp [entryKeys]
    refine ⟨s.entry entries, ?_, List.mem_singleton_self _, List.mem_singleton_self _⟩
    rw [Site.note_part_of_not_mem h, hindex, List.getElem?_concat_length]

/-- Noting a site takes nothing away from an entry. -/
theorem exists_getElem?_note {i : Nat} {e : Entry} (h : entries[i]? = some e) (site : Site) :
    ∃ e', (Site.note entries site)[i]? = some e' ∧ e.parts ⊆ e'.parts ∧
      e.mergedFiles ⊆ e'.mergedFiles := by
  have hmodify : ∀ (j : Nat) (f : Entry → Entry),
      (∀ e, e.parts ⊆ (f e).parts ∧ e.mergedFiles ⊆ (f e).mergedFiles) →
        ∃ e', (entries.modify j f)[i]? = some e' ∧ e.parts ⊆ e'.parts ∧
          e.mergedFiles ⊆ e'.mergedFiles := by
    intro j f hf
    refine ⟨if j = i then f e else e, ?_, ?_⟩
    · rw [List.getElem?_modify, h]
      rfl
    · split
      · exact hf e
      · exact ⟨List.Subset.refl _, List.Subset.refl _⟩
  cases site with
  | part s =>
      by_cases hknown : s.key ∈ entryKeys entries
      · rw [Site.note_part_of_mem hknown]
        apply hmodify
        intro e
        rw [parts_addTo]
        exact ⟨List.subset_append_left _ _,
          fun path hpath => (s.mem_mergedFiles_addTo e).mpr (Or.inl hpath)⟩
      · rw [Site.note_part_of_not_mem hknown]
        have hlt : i < entries.length := (List.getElem?_eq_some_iff.mp h).1
        exact ⟨e, by rw [List.getElem?_append_left hlt, h], List.Subset.refl _,
          List.Subset.refl _⟩
  | member m =>
      rw [Site.note_member]
      split
      · exact hmodify _ _ fun e => ⟨List.Subset.refl _, List.Subset.refl _⟩
      · exact ⟨e, h, List.Subset.refl _, List.Subset.refl _⟩

theorem mem_entryKeys (h : s.IsHeld entries) : s.key ∈ entryKeys entries := by
  rcases h with ⟨e, hget, -, -⟩
  rw [← List.idxOf_lt_length_iff]
  simpa [entryKeys] using (List.getElem?_eq_some_iff.mp hget).1

/-- A part stays held. -/
theorem note (h : s.IsHeld entries) (site : Site) : s.IsHeld (Site.note entries site) := by
  have hindex := idxOf_eq_of_extension h.mem_entryKeys (Site.entryKeys_prefix_note site)
  rcases h with ⟨e, hget, hpart, hpath⟩
  rcases exists_getElem?_note hget site with ⟨e', hget', hparts, hpaths⟩
  exact ⟨e', by rw [hindex, hget'], hparts hpart, hpaths hpath⟩

theorem foldl_note (h : s.IsHeld entries) (sites : List Site) :
    s.IsHeld (sites.foldl Site.note entries) := by
  induction sites generalizing entries with
  | nil => exact h
  | cons site sites ih => exact ih (h.note site)

/-- Noting a part that is held changes nothing that a report shows. -/
theorem alike_note {entries' : List Entry} (h : s.IsHeld entries')
    (halike : List.Forall₂ Entry.Alike entries entries') :
    List.Forall₂ Entry.Alike entries (Site.note entries' (.part s)) := by
  rw [Site.note_part_of_mem h.mem_entryKeys,
    ← List.modify_id ((entryKeys entries').idxOf s.key) entries]
  apply forall₂_modify halike
  intro e e' _ hget' he
  rcases h with ⟨held, hget, hpart, hpath⟩
  obtain rfl : e' = held := by
    rw [hget', Option.some.injEq] at hget
    exact hget
  have hparts : (s.addTo e').parts.eraseDups = e'.parts.eraseDups := by
    rw [parts_addTo, Site.eraseDups_concat, if_pos hpart]
  have hmerged : (s.addTo e').mergedFiles = e'.mergedFiles := by
    rw [mergedFiles_addTo, if_pos hpath]
  have husings : (s.addTo e').usings = e'.usings := by
    rw [usings_addTo, if_pos hpath]
  rw [addTo_eq s e'] at *
  exact ⟨he.key, he.parent, he.first, hparts.trans he.parts, he.path, he.file,
    hmerged.trans he.mergedFiles, husings.trans he.usings, he.candidates⟩

end PartSite.IsHeld

/-! ## Scanned types -/

/-- Related lists have related elements at a position, or none. -/
theorem getElem?_of_forall₂ {α β : Type} {R : α → β → Prop} {xs : List α} {ys : List β}
    (h : List.Forall₂ R xs ys) (i : Nat) :
    (xs[i]? = none ∧ ys[i]? = none) ∨ ∃ x y, xs[i]? = some x ∧ ys[i]? = some y ∧ R x y := by
  induction h generalizing i with
  | nil => exact Or.inl ⟨rfl, rfl⟩
  | @cons x y xs ys hhead hrest ih =>
      cases i with
      | zero => exact Or.inr ⟨x, y, rfl, rfl, hhead⟩
      | succ i => exact ih i

/-- The header of an entry. -/
theorem Entry.Alike.header_eq {e e' : Entry} (h : e.Alike e') :
    Header.ofParts e'.parts = Header.ofParts e.parts := by
  rw [← Header.ofParts_eraseDups, h.parts, Header.ofParts_eraseDups]

/-- In entries that are alike, the types around an entry have the same headers. -/
theorem map_ofParts_containerChain {entries entries' : List Entry}
    (h : List.Forall₂ Entry.Alike entries entries') (i : Nat) :
    (containerChain entries' i).map Header.ofParts =
      (containerChain entries i).map Header.ofParts := by
  induction i using Nat.strongRecOn with
  | ind i ih =>
      rw [containerChain, containerChain]
      rcases getElem?_of_forall₂ h i with ⟨hnone, hnone'⟩ | ⟨e, e', hget, hget', he⟩
      · rw [hnone, hnone']
      · rw [hget, hget']
        simp only [he.parent]
        cases e.parent with
        | none => rfl
        | some p =>
            by_cases hlt : p < i
            · have hown : (entries'[p]?.map Entry.parts).toList.map Header.ofParts =
                  (entries[p]?.map Entry.parts).toList.map Header.ofParts := by
                rcases getElem?_of_forall₂ h p with ⟨hnone, hnone'⟩ | ⟨o, o', hget, hget', ho⟩
                · rw [hnone, hnone']
                · rw [hget, hget']
                  exact congrArg ([·]) ho.header_eq
              simp only [if_pos hlt, List.map_append, ih p hlt, hown]
            · simp only [if_neg hlt]

/-- Two scanned types that a run cannot tell apart. -/
structure MarkedType.Alike (t t' : MarkedType) : Prop where
  enclosing : t'.enclosing = t.enclosing
  rejection : t'.rejection = t.rejection
  candidates : t'.candidates = t.candidates

/-- Entries that are alike are listed as types that are alike. -/
theorem Entry.Alike.toMarked {e e' : Entry} (h : e.Alike e')
    {containers containers' : List (List TypePart)}
    (hcontainers : containers'.map Header.ofParts = containers.map Header.ofParts) :
    (e.toMarked containers).Alike (e'.toMarked containers') := by
  have henclosing : (e'.toMarked containers').enclosing = (e.toMarked containers).enclosing := by
    have hparts : ∀ (e : Entry) containers, (e.toMarked containers).parts = e.parts :=
      fun _ _ => rfl
    simp only [MarkedType.enclosing, EnclosingType.ofParts, hparts, h.header_eq]
    simp only [Entry.toMarked, hcontainers, h.path, h.usings]
  refine ⟨henclosing, ?_, h.candidates⟩
  rw [MarkedType.rejection, MarkedType.rejection, henclosing]
  simp only [Entry.toMarked, h.file, h.first]

/-- Compilations whose entries are alike are scanned alike. -/
theorem forall₂_alike_scan {c c' : Compilation}
    (h : List.Forall₂ Entry.Alike c.entries c'.entries) :
    List.Forall₂ MarkedType.Alike c.scan c'.scan := by
  have hall : List.Forall₂ MarkedType.Alike
      (c.entries.mapIdx fun i e => e.toMarked (containerChain c.entries i))
      (c'.entries.mapIdx fun i e => e.toMarked (containerChain c'.entries i)) := by
    rw [List.forall₂_iff_get]
    refine ⟨by simp [h.length_eq], ?_⟩
    intro i hi hi'
    have hentry : i < c.entries.length := by simpa using hi
    have hentry' : i < c'.entries.length := by simpa using hi'
    have he : c.entries[i].Alike c'.entries[i] := h.get hentry hentry'
    simp only [List.get_eq_getElem, List.getElem_mapIdx]
    exact he.toMarked (map_ofParts_containerChain h i)
  have hkeep : ∀ t t' : MarkedType, t.Alike t' →
      ((!t.candidates.isEmpty) = true ↔ (!t'.candidates.isEmpty) = true) := by
    intro t t' ht
    rw [ht.candidates]
  exact List.rel_filter (fun t t' ht => hkeep t t' ht) hall

end SceneWiring
