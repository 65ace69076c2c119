import Mathlib.Data.List.Induction
import SceneWiring.Proofs.Scan.Key

/-!
# Where parts and members stand

A site is a part of a type or a member together with its place: the file, the namespaces
around it and the types around it.  The sites of a compilation, in source order, say what
there is to find without a walk, a stack or a position in a list of results, and the lists
that are selected from them below say what belongs to a key.

Main results:

- Definition `Compilation.sites`: all parts and members in source order.
- Definitions `Site.partsUnder` and `Site.candidatesUnder`: what belongs to a key.
- Definitions `Site.keysIn` and `Site.markedKeys`: the keys of types and of types with
  candidates, each one once, in the order of their first parts.
- Theorem `Compilation.forall_mem_sites`: what entering preserves holds at every site.
- Theorem `pairwise_length_key_around`: keys grow from the outside to the inside.
- Theorem `grounded_sites`: a type is met before what stands in it.
-/

namespace SceneWiring

/-! ## Places -/

/-- A type around a place. -/
structure OuterType where
  key : String
  name : String
deriving DecidableEq, Repr

/-- A place among declarations. -/
structure Place where
  file : SourceFile
  /-- The names of the namespaces around the place, outermost first. -/
  namespaces : List String
  /-- The types around the place, outermost first. -/
  around : List OuterType

namespace Place

/-- The place at the top of a file. -/
def top (f : SourceFile) : Place :=
  ⟨f, [], []⟩

/-- The key of a type of the given name at a place. -/
def keyOf (p : Place) (name : String) : String :=
  typeKey p.namespaces (p.around.map OuterType.name ++ [Text.trim name])

/-- The key of the innermost type around a place. -/
def ownerKey? (p : Place) : Option String :=
  p.around.getLast?.map OuterType.key

/-- The place inside a namespace. -/
def enterScope (head : ScopeHead) (p : Place) : Place :=
  { p with namespaces := p.namespaces ++ [head.name] }

/-- The place inside a part of a type. -/
def enterType (part : TypePart) (p : Place) : Place :=
  { p with around := p.around ++ [⟨p.keyOf part.name, Text.trim part.name⟩] }

@[simp]
theorem around_enterScope (head : ScopeHead) (p : Place) :
    (p.enterScope head).around = p.around :=
  rfl

end Place

/-! ## Sites -/

/-- A part of a type at its place. -/
structure PartSite where
  place : Place
  part : TypePart

namespace PartSite

/-- The key of the type. -/
def key (s : PartSite) : String :=
  s.place.keyOf s.part.name

/-- The file of a part. -/
def file (s : PartSite) : SourceFile :=
  s.place.file

end PartSite

/-- A member at its place. -/
structure MemberSite where
  place : Place
  member : Member

namespace MemberSite

/-- The key of the innermost type around a member. -/
def ownerKey? (s : MemberSite) : Option String :=
  s.place.ownerKey?

/-- The candidate that a member is if it carries a strategy. -/
def candidate (s : MemberSite) : Candidate :=
  ⟨s.member, s.place.file.path⟩

/-- Whether a member carries a strategy and the innermost type around it has the key. -/
def isCandidateUnder (key : String) (s : MemberSite) : Bool :=
  s.member.isMarked && s.ownerKey? == some key

end MemberSite

/-- A part of a type or a member at its place. -/
inductive Site
  | part (s : PartSite)
  | member (s : MemberSite)

namespace Site

/-- Where a site is. -/
def place : Site → Place
  | .part s => s.place
  | .member s => s.place

/-- The part that a site is, if it is one. -/
def part? : Site → Option PartSite
  | .part s => some s
  | .member _ => none

/-- The member that a site is, if it is one. -/
def member? : Site → Option MemberSite
  | .part _ => none
  | .member s => some s

end Site

/-! ## The sites of declarations -/

mutual

/-- The sites of a declaration at a place, in source order. -/
def Decl.sites (p : Place) : Decl → List Site
  | .scope head members => Decl.sitesAll (p.enterScope head) members
  | .type part members => .part ⟨p, part⟩ :: Decl.sitesAll (p.enterType part) members
  | .member m => [.member ⟨p, m⟩]
  | .directive _ => []
  | .unknown => []

/-- The sites of declarations one after the other. -/
def Decl.sitesAll (p : Place) : List Decl → List Site
  | [] => []
  | d :: ds => d.sites p ++ Decl.sitesAll p ds

end

/-- The sites of a file. -/
def SourceFile.sites (f : SourceFile) : List Site :=
  Decl.sitesAll (.top f) f.members

/-- The sites of the files of a compilation one after the other. -/
def Compilation.sites (c : Compilation) : List Site :=
  c.files.flatMap SourceFile.sites

/-! ## Properties of places -/

mutual

/-- What entering namespaces and types preserves holds at the sites of a declaration. -/
theorem Decl.forall_mem_sites {P : Place → Prop}
    (scope : ∀ head p, P p → P (p.enterScope head))
    (type : ∀ part p, P p → P (p.enterType part)) :
    ∀ (d : Decl) (p : Place), P p → ∀ s ∈ d.sites p, P s.place
  | .scope head members, p, hp, s, hs => by
      rw [Decl.sites] at hs
      exact Decl.forall_mem_sitesAll scope type members _ (scope head p hp) s hs
  | .type part members, p, hp, s, hs => by
      rw [Decl.sites, List.mem_cons] at hs
      rcases hs with rfl | hs
      · exact hp
      · exact Decl.forall_mem_sitesAll scope type members _ (type part p hp) s hs
  | .member m, p, hp, s, hs => by
      rw [Decl.sites, List.mem_singleton] at hs
      subst hs
      exact hp
  | .directive u, p, hp, s, hs => by simp [Decl.sites] at hs
  | .unknown, p, hp, s, hs => by simp [Decl.sites] at hs

/-- What entering namespaces and types preserves holds at the sites of declarations. -/
theorem Decl.forall_mem_sitesAll {P : Place → Prop}
    (scope : ∀ head p, P p → P (p.enterScope head))
    (type : ∀ part p, P p → P (p.enterType part)) :
    ∀ (ds : List Decl) (p : Place), P p → ∀ s ∈ Decl.sitesAll p ds, P s.place
  | [], p, hp, s, hs => by simp [Decl.sitesAll] at hs
  | d :: ds, p, hp, s, hs => by
      rw [Decl.sitesAll, List.mem_append] at hs
      rcases hs with hs | hs
      · exact Decl.forall_mem_sites scope type d p hp s hs
      · exact Decl.forall_mem_sitesAll scope type ds p hp s hs

end

/-- The sites of a file stand in that file. -/
theorem SourceFile.file_of_mem_sites {f : SourceFile} {s : Site} (h : s ∈ f.sites) :
    s.place.file = f :=
  Decl.forall_mem_sitesAll (P := fun p => p.file = f) (fun _ _ hp => hp) (fun _ _ hp => hp)
    f.members (.top f) rfl s h

/-- What holds at the top of every file and is preserved by entering holds at every
site. -/
theorem Compilation.forall_mem_sites {P : Place → Prop} (top : ∀ f, P (.top f))
    (scope : ∀ head p, P p → P (p.enterScope head))
    (type : ∀ part p, P p → P (p.enterType part)) (c : Compilation) :
    ∀ s ∈ c.sites, P s.place := by
  intro s hs
  rcases List.mem_flatMap.mp hs with ⟨f, -, hs⟩
  exact Decl.forall_mem_sitesAll scope type f.members (.top f) (top f) s hs

/-- The keys of the types around a place grow from the outside to the inside, and none is
longer than the key that the names of all of them make up here. -/
def Place.KeysGrow (p : Place) : Prop :=
  p.around.Pairwise (fun outer inner => outer.key.length < inner.key.length) ∧
    ∀ t ∈ p.around,
      t.key.length ≤ (typeKey p.namespaces (p.around.map OuterType.name)).length

namespace Place

/-- Keys grow at the top of a file, where there are none. -/
theorem keysGrow_top (f : SourceFile) : (top f).KeysGrow := by
  simp [KeysGrow, top]

/-- Entering a namespace keeps keys growing. -/
theorem KeysGrow.enterScope {p : Place} (h : p.KeysGrow) (head : ScopeHead) :
    (p.enterScope head).KeysGrow := by
  refine ⟨h.1, ?_⟩
  intro t ht
  exact Nat.le_trans (h.2 t ht) (length_typeKey_le p.namespaces [head.name] _)

/-- Entering a type keeps keys growing. -/
theorem KeysGrow.enterType {p : Place} (h : p.KeysGrow) (part : TypePart) :
    (p.enterType part).KeysGrow := by
  have longer : ∀ t ∈ p.around, t.key.length < (p.keyOf part.name).length := by
    intro t ht
    exact Nat.lt_of_le_of_lt (h.2 t ht) (length_typeKey_lt p.namespaces _ _)
  refine ⟨?_, ?_⟩
  · simp only [Place.enterType]
    rw [List.pairwise_append]
    refine ⟨h.1, List.pairwise_singleton _ _, ?_⟩
    intro t ht inner hinner
    rw [List.mem_singleton.mp hinner]
    exact longer t ht
  · intro t ht
    simp only [Place.enterType, List.mem_append, List.mem_singleton] at ht
    simp only [Place.enterType, List.map_append, List.map_cons, List.map_nil]
    rcases ht with ht | rfl
    · exact Nat.le_of_lt (longer t ht)
    · exact Nat.le_refl _

end Place

/-- Keys grow from the outside to the inside at every site. -/
theorem Compilation.pairwise_length_key_around (c : Compilation) :
    ∀ s ∈ c.sites, s.place.around.Pairwise fun outer inner =>
      outer.key.length < inner.key.length := by
  intro s hs
  exact (c.forall_mem_sites Place.keysGrow_top (fun head _ hp => hp.enterScope head)
    (fun part _ hp => hp.enterType part) s hs).1

/-! ## Selecting sites -/

namespace Site

/-- The parts of types among sites. -/
def partsIn (sites : List Site) : List PartSite :=
  sites.filterMap part?

/-- The members among sites. -/
def membersIn (sites : List Site) : List MemberSite :=
  sites.filterMap member?

/-- The keys of the types with parts among sites, in the order of their first parts. -/
def keysIn (sites : List Site) : List String :=
  ((partsIn sites).map PartSite.key).eraseDups

/-- The parts of the type with a key. -/
def partsUnder (key : String) (sites : List Site) : List PartSite :=
  (partsIn sites).filter fun s => s.key == key

/-- The candidates of the type with a key. -/
def candidatesUnder (key : String) (sites : List Site) : List Candidate :=
  ((membersIn sites).filter (MemberSite.isCandidateUnder key)).map MemberSite.candidate

/-- The keys of the types with candidates among sites, in the order of their first
parts. -/
def markedKeys (sites : List Site) : List String :=
  (keysIn sites).filter fun key => !(candidatesUnder key sites).isEmpty

section

variable (xs ys : List Site)

@[simp]
theorem partsIn_append : partsIn (xs ++ ys) = partsIn xs ++ partsIn ys := by
  simp [partsIn]

@[simp]
theorem membersIn_append : membersIn (xs ++ ys) = membersIn xs ++ membersIn ys := by
  simp [membersIn]

@[simp]
theorem partsUnder_append (key : String) :
    partsUnder key (xs ++ ys) = partsUnder key xs ++ partsUnder key ys := by
  simp [partsUnder]

@[simp]
theorem candidatesUnder_append (key : String) :
    candidatesUnder key (xs ++ ys) = candidatesUnder key xs ++ candidatesUnder key ys := by
  simp [candidatesUnder]

end

@[simp]
theorem partsIn_part (s : PartSite) : partsIn [.part s] = [s] :=
  rfl

@[simp]
theorem partsIn_member (s : MemberSite) : partsIn [.member s] = [] :=
  rfl

@[simp]
theorem membersIn_part (s : PartSite) : membersIn [.part s] = [] :=
  rfl

@[simp]
theorem membersIn_member (s : MemberSite) : membersIn [.member s] = [s] :=
  rfl

theorem partsIn_cons_part (s : PartSite) (sites : List Site) :
    partsIn (.part s :: sites) = s :: partsIn sites :=
  rfl

theorem partsIn_cons_member (s : MemberSite) (sites : List Site) :
    partsIn (.member s :: sites) = partsIn sites :=
  rfl

/-- The parts among sites are the sites that are parts. -/
theorem mem_partsIn_iff {s : PartSite} {sites : List Site} :
    s ∈ partsIn sites ↔ .part s ∈ sites := by
  rw [partsIn, List.mem_filterMap]
  constructor
  · rintro ⟨site, hsite, hpart⟩
    cases site with
    | part s' =>
        obtain rfl : s' = s := by simpa [part?] using hpart
        exact hsite
    | member _ => exact absurd hpart (by simp [part?])
  · exact fun h => ⟨.part s, h, rfl⟩

/-- The members among sites are the sites that are members. -/
theorem mem_membersIn_iff {s : MemberSite} {sites : List Site} :
    s ∈ membersIn sites ↔ .member s ∈ sites := by
  rw [membersIn, List.mem_filterMap]
  constructor
  · rintro ⟨site, hsite, hmember⟩
    cases site with
    | part _ => exact absurd hmember (by simp [member?])
    | member s' =>
        obtain rfl : s' = s := by simpa [member?] using hmember
        exact hsite
  · exact fun h => ⟨.member s, h, rfl⟩

/-- A part is under its own key only. -/
theorem partsUnder_part (key : String) (s : PartSite) :
    partsUnder key [.part s] = if s.key = key then [s] else [] := by
  by_cases h : s.key = key <;> simp [partsUnder, h]

@[simp]
theorem partsUnder_member (key : String) (s : MemberSite) : partsUnder key [.member s] = [] :=
  rfl

@[simp]
theorem candidatesUnder_part (key : String) (s : PartSite) :
    candidatesUnder key [.part s] = [] :=
  rfl

/-- A member is a candidate under the key of the innermost type around it only. -/
theorem candidatesUnder_member (key : String) (s : MemberSite) :
    candidatesUnder key [.member s] =
      if s.isCandidateUnder key then [s.candidate] else [] := by
  by_cases h : s.isCandidateUnder key <;> simp [candidatesUnder, h]

/-- The candidates of a compilation are those of its files. -/
theorem candidatesUnder_sites (key : String) (c : Compilation) :
    candidatesUnder key c.sites = c.files.flatMap fun f => candidatesUnder key f.sites := by
  simp only [candidatesUnder, membersIn, Compilation.sites, List.filterMap_flatMap,
    List.filter_flatMap, List.map_flatMap]

/-- A list without repetitions, with one more element at its end. -/
theorem eraseDups_concat {α : Type} [DecidableEq α] (xs : List α) (x : α) :
    (xs ++ [x]).eraseDups = if x ∈ xs then xs.eraseDups else xs.eraseDups ++ [x] := by
  rw [List.eraseDups_append]
  by_cases h : x ∈ xs <;> simp [List.removeAll, List.eraseDups_cons, h]

/-- Erasing repetitions leaves none. -/
theorem nodup_eraseDups {α : Type} [DecidableEq α] (xs : List α) : xs.eraseDups.Nodup := by
  induction xs using List.reverseRecOn with
  | nil => simp
  | append_singleton xs x ih =>
      rw [eraseDups_concat]
      split
      · exact ih
      · rename_i hx
        refine List.nodup_append.mpr ⟨ih, by simp, ?_⟩
        intro a ha b hb hab
        rw [List.mem_singleton.mp hb] at hab
        exact hx (hab ▸ List.mem_eraseDups.mp ha)

/-- A key is listed if there is a part under it. -/
theorem mem_keysIn_iff {key : String} {sites : List Site} :
    key ∈ keysIn sites ↔ ∃ s ∈ partsIn sites, s.key = key := by
  rw [keysIn, List.mem_eraseDups, List.mem_map]

/-- Every key is listed once. -/
theorem nodup_keysIn (sites : List Site) : (keysIn sites).Nodup :=
  nodup_eraseDups _

/-- One more part lists its key unless it is there. -/
theorem keysIn_concat_part (sites : List Site) (s : PartSite) :
    keysIn (sites ++ [.part s]) =
      if s.key ∈ keysIn sites then keysIn sites else keysIn sites ++ [s.key] := by
  simp only [keysIn, partsIn_append, partsIn_part, List.map_append, List.map_cons, List.map_nil,
    eraseDups_concat, List.mem_eraseDups]

/-- One more member lists no key. -/
@[simp]
theorem keysIn_concat_member (sites : List Site) (s : MemberSite) :
    keysIn (sites ++ [.member s]) = keysIn sites := by
  simp [keysIn]

/-- The parts under a key are the parts with that key. -/
theorem mem_partsUnder_iff {key : String} {sites : List Site} {s : PartSite} :
    s ∈ partsUnder key sites ↔ s ∈ partsIn sites ∧ s.key = key := by
  simp [partsUnder]

/-- The key of a part is listed. -/
theorem mem_keysIn_of_mem_partsUnder {key : String} {sites : List Site} {s : PartSite}
    (h : s ∈ partsUnder key sites) : key ∈ keysIn sites :=
  mem_keysIn_iff.mpr ⟨s, mem_partsUnder_iff.mp h⟩

/-- Under a listed key, there is a part. -/
theorem exists_mem_partsUnder {key : String} {sites : List Site} (h : key ∈ keysIn sites) :
    ∃ s, s ∈ partsUnder key sites := by
  rcases mem_keysIn_iff.mp h with ⟨s, hs, hkey⟩
  exact ⟨s, mem_partsUnder_iff.mpr ⟨hs, hkey⟩⟩

/-- Under a key that is not listed, there is no part. -/
theorem partsUnder_eq_nil {key : String} {sites : List Site} (h : key ∉ keysIn sites) :
    partsUnder key sites = [] := by
  rw [List.eq_nil_iff_forall_not_mem]
  intro s hs
  exact h (mem_keysIn_of_mem_partsUnder hs)

/-! ### Order -/

/-- Every site comes after parts of all types around it. -/
inductive Grounded : List Site → Prop
  | nil : Grounded []
  | concat {sites : List Site} {site : Site} (before : Grounded sites)
      (known : ∀ t ∈ site.place.around, t.key ∈ keysIn sites) : Grounded (sites ++ [site])

/-- More sites list more keys. -/
theorem keysIn_subset_append (xs ys : List Site) : keysIn xs ⊆ keysIn (xs ++ ys) := by
  intro key h
  rcases mem_keysIn_iff.mp h with ⟨s, hs, hkey⟩
  exact mem_keysIn_iff.mpr ⟨s, by simp [hs], hkey⟩

/-- Under a key that is not listed, there is no candidate. -/
theorem Grounded.candidatesUnder_eq_nil {sites : List Site} (h : Grounded sites)
    {key : String} (hkey : key ∉ keysIn sites) : candidatesUnder key sites = [] := by
  induction h with
  | nil => rfl
  | @concat sites site before known ih =>
      rw [candidatesUnder_append, ih fun hmem => hkey (keysIn_subset_append _ _ hmem)]
      cases site with
      | part s => rfl
      | member s =>
          rw [candidatesUnder_member, if_neg]
          · rfl
          · intro hcandidate
            simp only [MemberSite.isCandidateUnder, Bool.and_eq_true, beq_iff_eq,
              MemberSite.ownerKey?, Place.ownerKey?, Option.map_eq_some_iff] at hcandidate
            rcases hcandidate with ⟨-, t, ht, rfl⟩
            exact hkey (keysIn_subset_append _ _ (known t (List.mem_of_getLast? ht)))

end Site

mutual

/-- The sites of a declaration can follow if the types around it have been met. -/
theorem Decl.grounded_sites : ∀ (d : Decl) (p : Place) (before : List Site),
    Site.Grounded before → (∀ t ∈ p.around, t.key ∈ Site.keysIn before) →
      Site.Grounded (before ++ d.sites p)
  | .scope head members, p, before, h, known =>
      Decl.grounded_sitesAll members (p.enterScope head) before h known
  | .type part members, p, before, h, known => by
      have hpart : Site.Grounded (before ++ [.part ⟨p, part⟩]) := .concat h known
      have hknown : ∀ t ∈ (p.enterType part).around,
          t.key ∈ Site.keysIn (before ++ [.part ⟨p, part⟩]) := by
        intro t ht
        rcases List.mem_append.mp ht with ht | ht
        · exact Site.keysIn_subset_append _ _ (known t ht)
        · rw [List.mem_singleton.mp ht, Site.mem_keysIn_iff]
          exact ⟨⟨p, part⟩, by simp, rfl⟩
      simpa [Decl.sites] using
        Decl.grounded_sitesAll members (p.enterType part) _ hpart hknown
  | .member m, p, before, h, known => .concat h known
  | .directive u, p, before, h, known => by simpa [Decl.sites] using h
  | .unknown, p, before, h, known => by simpa [Decl.sites] using h

/-- The sites of declarations can follow if the types around them have been met. -/
theorem Decl.grounded_sitesAll : ∀ (ds : List Decl) (p : Place) (before : List Site),
    Site.Grounded before → (∀ t ∈ p.around, t.key ∈ Site.keysIn before) →
      Site.Grounded (before ++ Decl.sitesAll p ds)
  | [], p, before, h, known => by simpa [Decl.sitesAll] using h
  | d :: ds, p, before, h, known => by
      have hd := Decl.grounded_sites d p before h known
      rw [Decl.sitesAll, ← List.append_assoc]
      exact Decl.grounded_sitesAll ds p _ hd fun t ht =>
        Site.keysIn_subset_append _ _ (known t ht)

end

/-- In a compilation, a type is met before what stands in it. -/
theorem Compilation.grounded_sites (c : Compilation) : Site.Grounded c.sites := by
  have hfiles : ∀ (files : List SourceFile) (before : List Site), Site.Grounded before →
      Site.Grounded (before ++ files.flatMap SourceFile.sites) := by
    intro files
    induction files with
    | nil => intro before h; simpa using h
    | cons f files ih =>
        intro before h
        rw [List.flatMap_cons, ← List.append_assoc]
        apply ih
        exact Decl.grounded_sitesAll f.members (.top f) before h (by simp [Place.top])
  exact hfiles c.files [] .nil

end SceneWiring
