import Mathlib.Data.List.Nodup
import SceneWiring.Proofs.Scan.Grouping
import SceneWiring.Report

/-!
# Keys and files of units

Units that share a key are put under qualified keys, which changes nothing else about them.
A key is a name with a suffix and a file name is a key with a suffix, so that neither can
hide a difference, and a unit whose key is its own is found under it.

Main results:

- Theorem `map_toList_flatName`: what underscores for dots keep of a qualified name.
- Theorem `qualifyShared_eq_map`: the keys that units get come from the keys that they had.
- Theorem `map_qualifyShared`: qualified keys change nothing but keys.
- Theorem `nodup_fileName_iff`: files are distinct exactly if keys are.
- Theorem `unit?_eq_self`: units with distinct keys are found under them.
-/

namespace SceneWiring

/-! ## Suffixes -/

/-- A qualified name with underscores for dots. -/
def flatName (qualifiedName : String) : String :=
  String.ofList (qualifiedName.toList.map fun c => if c = '.' then '_' else c)

/-- Without underscores, a qualified name can be read off its flat form. -/
theorem map_toList_flatName {q : String} (h : '_' ∉ q.toList) :
    (flatName q).toList.map (fun c => if c = '_' then '.' else c) = q.toList := by
  rw [flatName, String.toList_ofList, List.map_map]
  calc
    _ = q.toList.map id := by
      apply List.map_congr_left
      intro c hc
      have hne : c ≠ '_' := fun hsame => h (hsame ▸ hc)
      by_cases hdot : c = '.'
      · simp [hdot]
      · simp [hdot, hne]
    _ = q.toList := List.map_id _

/-- A flat name has no underscores only if there was nothing to replace. -/
theorem flatName_eq_self {q : String} (h : '_' ∉ (flatName q).toList) :
    flatName q = q ∧ '.' ∉ q.toList := by
  rw [flatName, String.toList_ofList] at h
  have hdot : '.' ∉ q.toList := by
    intro hmem
    apply h
    rw [List.mem_map]
    exact ⟨'.', hmem, rfl⟩
  refine ⟨?_, hdot⟩
  have hmap : q.toList.map (fun c => if c = '.' then '_' else c) = q.toList.map id := by
    apply List.map_congr_left
    intro c hc
    have hne : c ≠ '.' := fun hsame => hdot (hsame ▸ hc)
    exact if_neg hne
  rw [flatName, hmap, List.map_id, String.ofList_toList]

/-- A qualified name ends with the name of the type, after a dot if there is more. -/
theorem qualifiedName_eq_name_or (t : EnclosingType) :
    t.qualifiedName = t.name ∨ ∃ outer, t.qualifiedName = outer ++ "." ++ t.name := by
  rw [EnclosingType.qualifiedName]
  by_cases hnil : (if t.path.isEmpty then [] else [t.path]) ++ t.containers.map Header.name = []
  · left
    simp only [hnil]
    simp
  · right
    have hone : [t.name] ≠ [] := by simp
    refine ⟨".".intercalate
      ((if t.path.isEmpty then [] else [t.path]) ++ t.containers.map Header.name), ?_⟩
    simp only [String.intercalate_append_of_ne_nil hnil hone, String.intercalate_singleton]

/-- Different names have different keys. -/
theorem simpleKey_inj {name name' : String} : simpleKey name = simpleKey name' ↔ name = name' := by
  rw [simpleKey, simpleKey, String.append_left_inj]

/-- Units with different keys have different files. -/
theorem fileName_eq_iff {u v : CodeUnit} : u.fileName = v.fileName ↔ u.key = v.key := by
  rw [CodeUnit.fileName, CodeUnit.fileName, String.append_left_inj]

/-! ## Units under other keys -/

namespace CodeUnit

/-- A unit under another key. -/
def withKey (key : String) (u : CodeUnit) : CodeUnit :=
  { u with key := key }

@[simp]
theorem withKey_key (u : CodeUnit) : u.withKey u.key = u :=
  rfl

theorem qualified_eq_withKey (u : CodeUnit) :
    u.qualified = u.withKey (qualifiedKey u.qualifiedName) :=
  rfl

end CodeUnit

/-! ## Lists of units -/

/-- Whether a unit shares its key depends on the keys only. -/
theorem sharesKey_eq (units : List CodeUnit) (u : CodeUnit) :
    sharesKey units u = decide (1 < (units.map CodeUnit.key).count u.key) := by
  rw [sharesKey, List.count, List.countP_map]
  rfl

/-- A unit under the key that it gets among units with the given keys. -/
def CodeUnit.among (keys : List String) (u : CodeUnit) : CodeUnit :=
  if 1 < keys.count u.key then u.qualified else u

theorem CodeUnit.exists_among_eq (u : CodeUnit) (keys : List String) :
    ∃ key, u.among keys = u.withKey key := by
  rw [among]
  split
  · exact ⟨_, qualified_eq_withKey u⟩
  · exact ⟨_, (withKey_key u).symm⟩

/-- The keys that units get come from the keys that they had. -/
theorem qualifyShared_eq_map (units : List CodeUnit) :
    qualifyShared units = units.map (CodeUnit.among (units.map CodeUnit.key)) := by
  rw [qualifyShared]
  apply List.map_congr_left
  intro u _
  simp only [sharesKey_eq, CodeUnit.among, decide_eq_true_eq]

/-- What goes with a unit of the same key, also when both are qualified, goes with it when shared
keys are qualified. -/
theorem forall₂_qualifyShared_of_key {R : CodeUnit → CodeUnit → Prop}
    (hkey : ∀ u u', R u u' → u'.key = u.key)
    (hqualified : ∀ u u', R u u' → R u.qualified u'.qualified) {us us' : List CodeUnit}
    (h : List.Forall₂ R us us') : List.Forall₂ R (qualifyShared us) (qualifyShared us') := by
  have hkeys : us'.map CodeUnit.key = us.map CodeUnit.key := by
    rw [map_eq_map_iff_forall₂]
    exact (h.imp fun u u' hu => hkey u u' hu).flip
  rw [qualifyShared_eq_map, qualifyShared_eq_map, hkeys, List.forall₂_map_left_iff,
    List.forall₂_map_right_iff]
  apply h.imp
  intro u u' hu
  rw [CodeUnit.among, CodeUnit.among, hkey u u' hu]
  split
  · exact hqualified u u' hu
  · exact hu

/-- Giving units qualified keys changes nothing else about them. -/
theorem map_qualifyShared {α : Type} {f : CodeUnit → α} (h : ∀ u, f u.qualified = f u)
    (units : List CodeUnit) : (qualifyShared units).map f = units.map f := by
  rw [qualifyShared, List.map_map]
  apply List.map_congr_left
  intro u _
  rw [Function.comp_apply]
  split
  · exact h u
  · rfl

/-- A single unit shares its key with no other one. -/
@[simp]
theorem qualifyShared_singleton (u : CodeUnit) : qualifyShared [u] = [u] := by
  simp [qualifyShared, sharesKey]

/-- The files of units are distinct exactly if their keys are. -/
theorem nodup_fileName_iff (units : List CodeUnit) :
    (units.map CodeUnit.fileName).Nodup ↔ (units.map CodeUnit.key).Nodup := by
  simp only [List.Nodup, List.pairwise_map, Ne, fileName_eq_iff]

/-- Units with distinct keys are found under them. -/
theorem unit?_eq_self {report : Report} (h : (report.units.map CodeUnit.key).Nodup)
    {u : CodeUnit} (hu : u ∈ report.units) : report.unit? u.key = some u := by
  have hsome : (report.unit? u.key).isSome := by
    rw [Report.unit?, List.find?_isSome]
    exact ⟨u, hu, beq_self_eq_true u.key⟩
  rcases Option.isSome_iff_exists.mp hsome with ⟨v, hv⟩
  have hkey : v.key = u.key := by
    have hfound := List.find?_some hv
    exact beq_iff_eq.mp hfound
  have hmem : v ∈ report.units := List.mem_of_find?_eq_some hv
  rw [hv, List.inj_on_of_nodup_map h hmem hu hkey]

/-- If distinct units are found under their keys, the keys are distinct. -/
theorem nodup_key_of_unit?_eq_self {report : Report} (hnodup : report.units.Nodup)
    (h : ∀ u ∈ report.units, report.unit? u.key = some u) :
    (report.units.map CodeUnit.key).Nodup := by
  apply List.Nodup.map_on _ hnodup
  intro u hu v hv hkey
  have hfound := h u hu
  rw [hkey, h v hv, Option.some.injEq] at hfound
  exact hfound.symm

end SceneWiring
