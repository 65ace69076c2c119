import SceneWiring.Proofs.Header.Path
import SceneWiring.Proofs.Scan.Outline

/-!
# Parts of one type

Generated code shows the path of the namespaces around a type, the names of the types around it
and its own name.  The scanner goes by keys instead, which join the names of the namespaces as
they are written.  So parts that show the same belong to one type exactly if these joined names
are the same, which is so if nothing of them is left out of a path.

Main results:

- Definition `PartSite.ShowsSame`: parts for which generated code shows the same.
- Theorem `PartSite.key_eq_iff`: when these have one key.
- Theorem `parts_grouped_iff`: when they are parts of one type.
- Theorem `padded_namespace_splits_type`: a blank after the name of a namespace.
-/

namespace SceneWiring

namespace PartSite

variable {s s' : PartSite}

/-- Generated code for two parts shows the same path, the same types around and the same name. -/
structure ShowsSame (s s' : PartSite) : Prop where
  path : dottedPath s'.place.namespaces = dottedPath s.place.namespaces
  around : s'.place.around.map OuterType.name = s.place.around.map OuterType.name
  name : Text.trim s'.part.name = Text.trim s.part.name

/-- The names of the namespaces around a part, as its key joins them. -/
def joinedNamespaces (s : PartSite) : String :=
  ".".intercalate s.place.namespaces

/-- Parts that show the same have one key exactly if the names of the namespaces around them, as
they are written, are joined to the same text. -/
theorem key_eq_iff (h : s.ShowsSame s') :
    s'.key = s.key ↔ s'.joinedNamespaces = s.joinedNamespaces := by
  rw [key, key, Place.keyOf, Place.keyOf, typeKey, typeKey, h.around, h.name]
  exact String.append_left_inj _

/-- In namespaces with plain names, parts that show the same have one key. -/
theorem key_eq_of_isPlainName (h : s.ShowsSame s')
    (hs : ∀ name ∈ s.place.namespaces, IsPlainName name)
    (hs' : ∀ name ∈ s'.place.namespaces, IsPlainName name) : s'.key = s.key := by
  rw [key_eq_iff h, joinedNamespaces, joinedNamespaces, ← dottedPath_eq_intercalate hs,
    ← dottedPath_eq_intercalate hs', h.path]

end PartSite

/-- Parts that show the same belong to one type exactly if the names of the namespaces around
them, as they are written, are joined to the same text.  Otherwise the type is listed twice, if
both halves have candidates.  In namespaces with plain names, this does not happen. -/
theorem parts_grouped_iff {c : Compilation} {s s' : PartSite} (h : s.ShowsSame s')
    (hs' : s' ∈ Site.partsIn c.sites) {key : String} {t : MarkedType}
    (ht : (key, t) ∈ c.typesByKey) (hs : s ∈ Site.partsUnder key c.sites) :
    t.parts = (Site.partsUnder key c.sites).map PartSite.part ∧
      (s' ∈ Site.partsUnder key c.sites ↔ s'.joinedNamespaces = s.joinedNamespaces) ∧
      (∀ o ∈ c.typesByKey, s' ∈ Site.partsUnder o.1 c.sites →
        (o = (key, t) ↔ s'.joinedNamespaces = s.joinedNamespaces)) ∧
      ((∀ name ∈ s.place.namespaces ++ s'.place.namespaces, IsPlainName name) →
        s' ∈ Site.partsUnder key c.sites) := by
  have hkey : s.key = key := (Site.mem_partsUnder_iff.mp hs).2
  have hunder : s' ∈ Site.partsUnder key c.sites ↔ s'.key = s.key := by
    rw [Site.mem_partsUnder_iff, hkey]
    exact and_iff_right hs'
  rcases c.gathers_of_mem_typesByKey ht with ⟨first, others, hgathers⟩
  refine ⟨hgathers.parts_eq, ?_, ?_, ?_⟩
  · rw [hunder, PartSite.key_eq_iff h]
  · intro o ho hs'
    rw [← PartSite.key_eq_iff h, (Site.mem_partsUnder_iff.mp hs').2, hkey]
    constructor
    · rintro rfl
      rfl
    · exact c.eq_of_mem_typesByKey ho ht
  · intro hplain
    rw [List.forall_mem_append] at hplain
    exact hunder.mpr (PartSite.key_eq_of_isPlainName h hplain.1 hplain.2)

/-- A file with a part of a type that has a candidate, in a namespace. -/
def playerFile (path scope member : String) : SourceFile where
  path := path
  members :=
    [.scope ⟨scope, .unknown⟩
      [.type ⟨"Player", ["partial"], [], .unknown⟩
        [.member (.field ⟨"Door", [member], [], [⟨"Get", []⟩], .unknown⟩)]]]

/-- The part in such a file. -/
def playerPart (path scope member : String) : PartSite where
  place := (Place.top (playerFile path scope member)).enterScope ⟨scope, .unknown⟩
  part := ⟨"Player", ["partial"], [], .unknown⟩

/-- Two files with parts of a type, where the second may write the namespace in another way. -/
def twoPlayerFiles (scope : String) : Compilation where
  files := [playerFile "A.cs" "Game" "door", playerFile "B.cs" scope "light"]

/-- Two parts of one type. -/
theorem players_grouped :
    (playerPart "A.cs" "Game" "door").ShowsSame (playerPart "B.cs" "Game" "light") ∧
      ∃ t, ("Game+Player", t) ∈ (twoPlayerFiles "Game").typesByKey ∧
        t.parts = (Site.partsUnder "Game+Player" (twoPlayerFiles "Game").sites).map
          PartSite.part ∧
        playerPart "A.cs" "Game" "door" ∈
          Site.partsUnder "Game+Player" (twoPlayerFiles "Game").sites ∧
        playerPart "B.cs" "Game" "light" ∈
          Site.partsUnder "Game+Player" (twoPlayerFiles "Game").sites := by
  have hshows : (playerPart "A.cs" "Game" "door").ShowsSame
      (playerPart "B.cs" "Game" "light") := ⟨rfl, rfl, rfl⟩
  have hparts : Site.partsIn (twoPlayerFiles "Game").sites =
      [playerPart "A.cs" "Game" "door", playerPart "B.cs" "Game" "light"] := rfl
  have hfirst : playerPart "A.cs" "Game" "door" ∈
      Site.partsUnder "Game+Player" (twoPlayerFiles "Game").sites := by
    rw [Site.mem_partsUnder_iff, hparts]
    exact ⟨List.mem_cons_self, by decide +kernel⟩
  have hsecond : playerPart "B.cs" "Game" "light" ∈
      Site.partsIn (twoPlayerFiles "Game").sites := by
    rw [hparts]
    exact List.mem_cons_of_mem _ List.mem_cons_self
  have hkeys : (twoPlayerFiles "Game").typesByKey.map Prod.fst = ["Game+Player"] := by
    decide +kernel
  obtain ⟨⟨key, t⟩, ht, hkey⟩ : ∃ o ∈ (twoPlayerFiles "Game").typesByKey, o.1 = "Game+Player" := by
    rw [← List.mem_map, hkeys]
    exact List.mem_cons_self
  subst hkey
  have hgrouped := parts_grouped_iff hshows hsecond ht hfirst
  exact ⟨hshows, t, ht, hgrouped.1, hfirst, hgrouped.2.2.2 (by decide)⟩

/-- A blank after the name of a namespace makes two types of one. -/
theorem padded_namespace_splits_type :
    (playerPart "A.cs" "Game" "door").ShowsSame (playerPart "B.cs" "Game " "light") ∧
      (playerPart "A.cs" "Game" "door").part.typeParameters.length =
        (playerPart "B.cs" "Game " "light").part.typeParameters.length ∧
      Site.partsIn (twoPlayerFiles "Game ").sites =
        [playerPart "A.cs" "Game" "door", playerPart "B.cs" "Game " "light"] ∧
      (twoPlayerFiles "Game ").typesByKey.map (fun o => (o.1, o.2.parts)) =
        [((playerPart "A.cs" "Game" "door").key, [(playerPart "A.cs" "Game" "door").part]),
         ((playerPart "B.cs" "Game " "light").key, [(playerPart "B.cs" "Game " "light").part])] ∧
      (playerPart "A.cs" "Game" "door").key ≠ (playerPart "B.cs" "Game " "light").key := by
  have hshows : (playerPart "A.cs" "Game" "door").ShowsSame
      (playerPart "B.cs" "Game " "light") := ⟨by decide +kernel, rfl, rfl⟩
  refine ⟨hshows, rfl, rfl, ?_, ?_⟩
  · decide +kernel
  · decide +kernel

end SceneWiring
