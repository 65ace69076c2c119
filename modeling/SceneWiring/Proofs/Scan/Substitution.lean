import Mathlib.Logic.Relation
import SceneWiring.Proofs.Scan.Outline
import SceneWiring.Report

/-!
# One member in place of another

A member that is replaced by another one, marked like it, leaves the outline of the scan as it is
and changes the candidates of its own type in one place.  So compilations that differ in members
only have the same types, whose candidates go with each other.

Main results:

- Structure `Compilation.Matches`: compilations whose candidates go with each other.
- Theorem `Compilation.Matches.fill_member`: this is so if a member is replaced.
- Theorem `Compilation.Matches.forall₂_scan`: it is so for the candidates of each scanned type.
- Theorem `Compilation.Matches.of_replaces`: and if any number of members are.
- Theorem `CompilationGap.typesByKey_fill_marked`: the scan with a marked member in a gap.
-/

namespace SceneWiring

/-- Lists that go with a third one element by element go with each other. -/
theorem forall₂_trans {α : Type} {R : α → α → Prop}
    (trans : ∀ a b c, R a b → R b c → R a c) {xs ys zs : List α} (h : List.Forall₂ R xs ys)
    (h' : List.Forall₂ R ys zs) : List.Forall₂ R xs zs := by
  induction h generalizing zs with
  | nil => exact h'
  | cons hhead _ ih =>
      cases h' with
      | cons hhead' hrest' => exact .cons (trans _ _ _ hhead hhead') (ih hrest')

/-! ## Types with other candidates -/

/-- Two types that differ in their candidates only, which go with each other. -/
structure MarkedType.Matches (R : Candidate → Candidate → Prop) (t t' : MarkedType) : Prop where
  eq_withCandidates : t' = t.withCandidates t'.candidates
  candidates : List.Forall₂ R t.candidates t'.candidates

section

variable {R : Candidate → Candidate → Prop}

theorem MarkedType.Matches.enclosing_eq {t t' : MarkedType} (h : t.Matches R t') :
    t'.enclosing = t.enclosing := by
  rw [h.eq_withCandidates]
  rfl

theorem MarkedType.Matches.rejection_eq {t t' : MarkedType} (h : t.Matches R t') :
    t'.rejection = t.rejection := by
  rw [h.eq_withCandidates]
  rfl

theorem MarkedType.forall₂_matches_listedUnder (key : String) (t : MarkedType)
    {cs cs' : List Candidate} (h : List.Forall₂ R cs cs') :
    List.Forall₂ (fun o o' => o.2.Matches R o'.2) (t.listedUnder key cs)
      (t.listedUnder key cs') := by
  cases h with
  | nil => exact .nil
  | cons hhead hrest => exact .cons ⟨rfl, .cons hhead hrest⟩ .nil

/-- The types of an outline match if candidates are put in that go with each other. -/
theorem forall₂_matches_assignCandidates {candidates candidates' : String → List Candidate}
    (h : ∀ key, List.Forall₂ R (candidates key) (candidates' key))
    (outline : List (String × MarkedType)) :
    List.Forall₂ (fun o o' => o.2.Matches R o'.2) (assignCandidates candidates outline)
      (assignCandidates candidates' outline) := by
  induction outline with
  | nil => exact .nil
  | cons o outline ih =>
      rw [assignCandidates_cons, assignCandidates_cons]
      exact List.rel_append (o.2.forall₂_matches_listedUnder o.1 (h o.1)) ih

end

/-! ## Compilations with other candidates -/

/-- Two members that are marked alike and go with each other as candidates of any file. -/
structure Member.Matches (R : Candidate → Candidate → Prop) (m m' : Member) : Prop where
  isMarked : m'.isMarked = m.isMarked
  candidate : ∀ file, R ⟨m, file⟩ ⟨m', file⟩

/-- Two compilations with the same outline whose candidates go with each other. -/
structure Compilation.Matches (R : Candidate → Candidate → Prop) (c c' : Compilation) : Prop where
  outline : c'.outline = c.outline
  candidates : ∀ key,
    List.Forall₂ R (Site.candidatesUnder key c.sites) (Site.candidatesUnder key c'.sites)

namespace Compilation.Matches

variable {R : Candidate → Candidate → Prop} {c c' c'' : Compilation}

theorem refl (hrefl : ∀ candidate, R candidate candidate) (c : Compilation) : c.Matches R c where
  outline := rfl
  candidates _ := List.forall₂_same.mpr fun candidate _ => hrefl candidate

theorem trans (htrans : ∀ a b c, R a b → R b c → R a c) (h : c.Matches R c')
    (h' : c'.Matches R c'') : c.Matches R c'' where
  outline := h'.outline.trans h.outline
  candidates key := forall₂_trans htrans (h.candidates key) (h'.candidates key)

/-- The scanned types of compilations that match do so, too. -/
theorem forall₂_scan (h : c.Matches R c') :
    List.Forall₂ (MarkedType.Matches R) c.scan c'.scan := by
  have htypes := forall₂_matches_assignCandidates h.candidates c.outline
  rw [← c.typesByKey_eq, ← h.outline, ← c'.typesByKey_eq] at htypes
  rw [← c.map_snd_typesByKey, ← c'.map_snd_typesByKey, List.forall₂_map_left_iff,
    List.forall₂_map_right_iff]
  exact htypes

/-- It is enough that a member matches the one in its place. -/
theorem fill_member (hrefl : ∀ candidate, R candidate candidate) (g : CompilationGap)
    {m m' : Member} (h : m.Matches R m') :
    (g.fill [.member m]).Matches R (g.fill [.member m']) where
  outline := g.outline_fill_eq rfl rfl
  candidates key := by
    have hsame : ∀ cs : List Candidate, List.Forall₂ R cs cs :=
      fun cs => List.forall₂_same.mpr fun candidate _ => hrefl candidate
    rw [g.candidatesUnder_fill [.member m] [.member m],
      g.candidatesUnder_fill [.member m] [.member m']]
    apply List.rel_append _ (hsame _)
    apply List.rel_append (hsame _)
    let s : MemberSite := ⟨g.place [.member m], m⟩
    let s' : MemberSite := ⟨g.place [.member m], m'⟩
    have hunder : s'.isCandidateUnder key = s.isCandidateUnder key := by
      rw [MemberSite.isCandidateUnder, MemberSite.isCandidateUnder, h.isMarked]
      rfl
    change List.Forall₂ _ (Site.candidatesUnder key [.member s])
      (Site.candidatesUnder key [.member s'])
    rw [Site.candidatesUnder_member, Site.candidatesUnder_member, hunder]
    split
    · exact .cons (h.candidate _) .nil
    · exact .nil

end Compilation.Matches

/-! ## Any number of members -/

/-- A compilation with one member, at any place, replaced by one that goes with it. -/
inductive Compilation.Replaces (Q : Member → Member → Prop) : Compilation → Compilation → Prop
  | member (g : CompilationGap) {m m' : Member} (h : Q m m') :
      Replaces Q (g.fill [.member m]) (g.fill [.member m'])

/-- Compilations match if members are replaced, one after the other, by members that match. -/
theorem Compilation.Matches.of_replaces {R : Candidate → Candidate → Prop}
    {Q : Member → Member → Prop} (hrefl : ∀ candidate, R candidate candidate)
    (htrans : ∀ a b c, R a b → R b c → R a c) (hmatches : ∀ m m', Q m m' → m.Matches R m')
    {c c' : Compilation} (h : Relation.ReflTransGen (Compilation.Replaces Q) c c') :
    c.Matches R c' := by
  induction h with
  | refl => exact .refl hrefl c
  | tail _ hreplace ih =>
      cases hreplace with
      | member g h => exact ih.trans htrans (.fill_member hrefl g (hmatches _ _ h))

/-! ## A candidate in a gap -/

namespace CompilationGap

variable (g : CompilationGap) {m : Member}

/-- A member in a gap as a candidate. -/
theorem candidate_place (m m' : Member) :
    MemberSite.candidate ⟨g.place [.member m], m'⟩ = ⟨m', g.path⟩ := by
  have hfile : (g.place [.member m]).file = g.file [.member m] :=
    g.file_of_mem_sites [.member m] [.member m'] (.member ⟨g.place [.member m], m'⟩)
      (by simp [Decl.sitesAll, Decl.sites])
  rw [MemberSite.candidate, hfile]
  rfl

/-- The candidates of a compilation with a marked member in a gap: those around the gap, and the
member under the key of the innermost type around it. -/
theorem candidatesUnder_fill_marked {key : String}
    (howner : (g.place [.member m]).ownerKey? = some key) {m' : Member} (h : m'.isMarked)
    (k : String) :
    Site.candidatesUnder k (g.fill [.member m']).sites =
      Site.candidatesUnder k (g.sitesBefore [.member m]) ++
        (if k = key then [⟨m', g.path⟩] else []) ++
        Site.candidatesUnder k (g.sitesAfter [.member m]) := by
  let s : MemberSite := ⟨g.place [.member m], m'⟩
  have hunder : s.isCandidateUnder k = decide (k = key) := by
    have hkey : s.ownerKey? = some key := howner
    rw [MemberSite.isCandidateUnder, hkey, h, Bool.true_and, Bool.eq_iff_iff, beq_iff_eq,
      Option.some_inj, decide_eq_true_eq]
    exact eq_comm
  have hsite : Site.candidatesUnder k (Decl.sitesAll (g.place [.member m]) [.member m']) =
      if k = key then [⟨m', g.path⟩] else [] := by
    change Site.candidatesUnder k [.member s] = _
    rw [Site.candidatesUnder_member, hunder, g.candidate_place]
    simp
  rw [g.candidatesUnder_fill [.member m] [.member m'], hsite]

/-- The scan of a compilation with a marked member in a gap: the member is a candidate, at the
same position for all of them, of the innermost type around it. -/
theorem typesByKey_fill_marked (hm : m.isMarked) {key : String}
    (howner : (g.place [.member m]).ownerKey? = some key) :
    ∃ (before : List (String × MarkedType)) (t : MarkedType)
      (after : List (String × MarkedType)) (pre post : List Candidate),
      ∀ m' : Member, m'.isMarked → (g.fill [.member m']).typesByKey =
        before ++ (key, t.withCandidates (pre ++ ⟨m', g.path⟩ :: post)) :: after := by
  have hkey : key ∈ Site.keysIn (g.fill [.member m]).sites := by
    by_contra hnot
    have hnone := (g.fill [.member m]).grounded_sites.candidatesUnder_eq_nil hnot
    rw [g.candidatesUnder_fill_marked howner hm key, if_pos rfl] at hnone
    exact absurd hnone (by simp)
  rcases (g.fill [.member m]).exists_outline_eq hkey with
    ⟨before, t, after, houtline, hbefore, hafter⟩
  let others : String → List Candidate := fun k =>
    Site.candidatesUnder k (g.sitesBefore [.member m]) ++
      Site.candidatesUnder k (g.sitesAfter [.member m])
  refine ⟨assignCandidates others before, t, assignCandidates others after,
    Site.candidatesUnder key (g.sitesBefore [.member m]),
    Site.candidatesUnder key (g.sitesAfter [.member m]), ?_⟩
  intro m' hm'
  have houtline' : (g.fill [.member m']).outline = (g.fill [.member m]).outline :=
    g.outline_fill_eq rfl rfl
  have hothers : ∀ outline : List (String × MarkedType), key ∉ outline.map Prod.fst →
      assignCandidates (fun k => Site.candidatesUnder k (g.fill [.member m']).sites) outline =
        assignCandidates others outline := by
    intro outline hnot
    apply assignCandidates_congr
    intro k hk
    have hne : k ≠ key := fun hsame => hnot (hsame ▸ hk)
    rw [g.candidatesUnder_fill_marked howner hm' k, if_neg hne, List.append_nil]
  rw [Compilation.typesByKey_eq, houtline', houtline, assignCandidates_append,
    assignCandidates_cons, hothers before hbefore, hothers after hafter,
    g.candidatesUnder_fill_marked howner hm' key, if_pos rfl, MarkedType.listedUnder,
    if_neg (by simp)]
  simp only [List.append_assoc, List.singleton_append]

end CompilationGap

end SceneWiring
