import Mathlib.Data.List.Count
import Mathlib.Data.List.NodupEquivFin
import SceneWiring.Proofs.Report.Keys
import SceneWiring.Proofs.Report.Run

/-!
# Which key a unit gets

A unit starts with the key of its type's name, and different names have different keys.  So the
units that share a key are those whose types share a name, and the key that a unit gets in the end
depends on how many units of a list have types of that name.  The order of the units and units of
types with other names make no difference.

Main results:

- Definition `CodeUnit.IsAssembled`: the units of types, before shared keys are qualified.
- Theorem `one_lt_count_iff`: an element that occurs more than once is at two positions.
- Theorem `CodeUnit.IsAssembled.among_eq`: the key of a unit from the names of types.
- Theorem `key_eq_of_mem_units`: the keys of the units of a report.
- Theorem `keys_depend_on_own_name`: what keys depend on.
-/

namespace SceneWiring

/-! ## Positions of an element -/

/-- An element that occurs more than once is at another position, too. -/
theorem one_lt_count_iff {α : Type} [DecidableEq α] {xs : List α} {i : Nat} {x : α}
    (h : xs[i]? = some x) : 1 < xs.count x ↔ ∃ j, j ≠ i ∧ xs[j]? = some x := by
  rcases List.getElem?_eq_some_iff.mp h with ⟨hi, hx⟩
  constructor
  · intro hcount
    have htwice := List.duplicate_iff_two_le_count.mpr hcount
    rcases List.duplicate_iff_exists_distinct_get.mp htwice with ⟨n, m, hlt, hn, hm⟩
    by_cases hsame : n.val = i
    · exact ⟨m, by omega, by rw [hm]; exact List.getElem?_eq_getElem m.isLt⟩
    · exact ⟨n, hsame, by rw [hn]; exact List.getElem?_eq_getElem n.isLt⟩
  · rintro ⟨j, hne, hj⟩
    rcases List.getElem?_eq_some_iff.mp hj with ⟨hj, hxj⟩
    apply List.duplicate_iff_two_le_count.mp
    rw [List.duplicate_iff_exists_distinct_get]
    rcases Nat.lt_or_gt_of_ne hne with hlt | hlt
    · exact ⟨⟨j, hj⟩, ⟨i, hi⟩, hlt, hxj.symm, hx.symm⟩
    · exact ⟨⟨i, hi⟩, ⟨j, hj⟩, hlt, hx.symm, hxj.symm⟩

/-! ## Assembled units -/

namespace CodeUnit

/-- A unit of a type, before shared keys are qualified. -/
def IsAssembled (u : CodeUnit) : Prop :=
  ∃ (t : EnclosingType) (fragments : List Fragment) (options : Options),
    u = .assemble t fragments options

/-- The key that a unit gets among units whose types have the given names. -/
def keyAmong (typeNames : List String) (u : CodeUnit) : String :=
  if 1 < typeNames.count u.typeName then qualifiedKey u.qualifiedName else simpleKey u.typeName

namespace IsAssembled

variable {u : CodeUnit} {units : List CodeUnit}

/-- A unit starts with the key of its type's name. -/
theorem key_eq (h : u.IsAssembled) : u.key = simpleKey u.typeName := by
  rcases h with ⟨t, fragments, options, rfl⟩
  rfl

theorem map_key_eq (h : ∀ v ∈ units, v.IsAssembled) :
    units.map CodeUnit.key = (units.map CodeUnit.typeName).map simpleKey := by
  rw [List.map_map]
  exact List.map_congr_left fun v hv => (h v hv).key_eq

/-- The units that share a key are those whose types share a name. -/
theorem count_key_eq (hu : u.IsAssembled) (h : ∀ v ∈ units, v.IsAssembled) :
    (units.map CodeUnit.key).count u.key = (units.map CodeUnit.typeName).count u.typeName := by
  have hinjective : Function.Injective simpleKey := fun _ _ => simpleKey_inj.mp
  rw [map_key_eq h, hu.key_eq, List.count_map_of_injective _ _ hinjective]

/-- So the key that a unit gets comes from the names of types. -/
theorem among_eq (hu : u.IsAssembled) (h : ∀ v ∈ units, v.IsAssembled) :
    u.among (units.map CodeUnit.key) =
      u.withKey (u.keyAmong (units.map CodeUnit.typeName)) := by
  rw [among, keyAmong, count_key_eq hu h]
  split
  · rfl
  · rw [← hu.key_eq, withKey_key]

end IsAssembled

end CodeUnit

/-! ## Lists of units -/

/-- Among the units of a list, the one at a position gets the key that the names of all types give
it, and nothing else about it changes. -/
theorem getElem?_qualifyShared {units : List CodeUnit} (h : ∀ u ∈ units, u.IsAssembled) {i : Nat}
    {u : CodeUnit} (hu : units[i]? = some u) :
    (qualifyShared units)[i]? = some (u.withKey (u.keyAmong (units.map CodeUnit.typeName))) := by
  rw [qualifyShared_eq_map, List.getElem?_map, hu, Option.map_some,
    (h u (List.mem_of_getElem? hu)).among_eq h]

/-- The number of units that share a key. -/
theorem countShared_eq {units : List CodeUnit} (h : ∀ u ∈ units, u.IsAssembled) :
    countShared units =
      units.countP fun u => 1 < (units.map CodeUnit.typeName).count u.typeName := by
  rw [countShared]
  apply List.countP_congr
  intro u hu
  rw [sharesKey_eq, (h u hu).count_key_eq h]

/-- The units of a run, before shared keys are qualified. -/
theorem isAssembled_of_mem_units {options : Options} {model : SemanticModel} {c : Compilation} :
    ∀ u ∈ (c.unitTypes options model).map (MarkedType.unit options model), u.IsAssembled := by
  intro u hu
  rcases List.mem_map.mp hu with ⟨t, -, rfl⟩
  exact ⟨t.enclosing, t.fragments options model, options, rfl⟩

/-- The key of a unit in a report comes from the names of the types with units in that report. -/
theorem key_eq_of_mem_units {options : Options} {model : SemanticModel} {c : Compilation}
    {report : Report} (h : (generate options model c).result = .ok report) {u : CodeUnit}
    (hu : u ∈ report.units) :
    u.key = u.keyAmong (report.units.map CodeUnit.typeName) := by
  have hnames := map_qualifyShared (f := CodeUnit.typeName) (fun _ => rfl)
    ((c.unitTypes options model).map (MarkedType.unit options model))
  rw [← units_generate h] at hnames
  rw [hnames]
  rw [units_generate h, qualifyShared_eq_map] at hu
  rcases List.mem_map.mp hu with ⟨v, hv, rfl⟩
  rw [(isAssembled_of_mem_units v hv).among_eq isAssembled_of_mem_units]
  rfl

/-- Shared keys of assembled units are qualified in place: the list keeps its length and its order,
and every unit keeps all that it has but its key.  The key of a unit is that of its type's name if
no other unit of the list has a type of that name, and that of its qualified name otherwise, and the
number of units that are renamed is that of the units whose type's name occurs more than once.  In
any two lists in which the name of its type occurs equally often, a unit gets the same key, whatever
the order and the names of other types. -/
theorem keys_depend_on_own_name {units : List CodeUnit} (h : ∀ u ∈ units, u.IsAssembled) :
    (qualifyShared units).length = units.length ∧
      (∀ (i : Nat) (u : CodeUnit), units[i]? = some u →
        ∃ key, (qualifyShared units)[i]? = some (u.withKey key) ∧
          ((∀ (j : Nat) (v : CodeUnit), units[j]? = some v → v.typeName = u.typeName → j = i) →
            key = simpleKey u.typeName) ∧
          ((∃ (j : Nat) (v : CodeUnit), j ≠ i ∧ units[j]? = some v ∧ v.typeName = u.typeName) →
            key = qualifiedKey u.qualifiedName)) ∧
      countShared units =
        (units.countP fun u => 1 < (units.map CodeUnit.typeName).count u.typeName) ∧
      ∀ others : List CodeUnit, (∀ u ∈ others, u.IsAssembled) →
        ∀ (i j : Nat) (u : CodeUnit), units[i]? = some u → others[j]? = some u →
          (others.map CodeUnit.typeName).count u.typeName =
            (units.map CodeUnit.typeName).count u.typeName →
          (qualifyShared others)[j]? = (qualifyShared units)[i]? := by
  refine ⟨length_qualifyShared units, ?_, countShared_eq h, ?_⟩
  · intro i u hu
    have hname : (units.map CodeUnit.typeName)[i]? = some u.typeName := by
      rw [List.getElem?_map, hu, Option.map_some]
    refine ⟨_, getElem?_qualifyShared h hu, ?_, ?_⟩
    · intro halone
      rw [CodeUnit.keyAmong, if_neg]
      rw [one_lt_count_iff hname]
      rintro ⟨j, hne, hj⟩
      rw [List.getElem?_map, Option.map_eq_some_iff] at hj
      rcases hj with ⟨v, hv, hsame⟩
      exact hne (halone j v hv hsame)
    · rintro ⟨j, v, hne, hv, hsame⟩
      rw [CodeUnit.keyAmong, if_pos]
      rw [one_lt_count_iff hname]
      exact ⟨j, hne, by rw [List.getElem?_map, hv, Option.map_some, hsame]⟩
  · intro others hothers i j u hi hj hcount
    rw [getElem?_qualifyShared hothers hj, getElem?_qualifyShared h hi, CodeUnit.keyAmong,
      CodeUnit.keyAmong, hcount]

/-- A unit of a type of the given name in a namespace, with nothing to fill. -/
def emptyUnit (path name : String) : CodeUnit :=
  .assemble ⟨⟨name, [], .internalAccess, false, true⟩, [], path, []⟩ [] .default

/-- Two of three types share their name, and they keep their keys when they change places and the
third one goes. -/
theorem sharedHalls_keys :
    let units := [emptyUnit "Game" "Hall", emptyUnit "Game" "Room", emptyUnit "Menu" "Hall"]
    let others := [emptyUnit "Menu" "Hall", emptyUnit "Game" "Hall"]
    (∀ u ∈ units, u.IsAssembled) ∧ (∀ u ∈ others, u.IsAssembled) ∧
      (qualifyShared units).map CodeUnit.key =
        ["Game_Hall_codegen", "Room_codegen", "Menu_Hall_codegen"] ∧
      countShared units = 2 ∧
      (qualifyShared others)[1]? = (qualifyShared units)[0]? := by
  intro units others
  have hall : ∀ u ∈ units, u.IsAssembled := by
    intro u hu
    simp only [units, List.mem_cons, List.not_mem_nil, or_false] at hu
    rcases hu with rfl | rfl | rfl <;> exact ⟨_, _, _, rfl⟩
  have hothers : ∀ u ∈ others, u.IsAssembled := by
    intro u hu
    simp only [others, List.mem_cons, List.not_mem_nil, or_false] at hu
    rcases hu with rfl | rfl <;> exact ⟨_, _, _, rfl⟩
  rcases keys_depend_on_own_name hall with ⟨-, -, hcount, hlocal⟩
  refine ⟨hall, hothers, by decide +kernel, ?_, ?_⟩
  · rw [hcount]
    decide +kernel
  · exact hlocal others hothers 0 1 (emptyUnit "Game" "Hall") rfl rfl (by decide +kernel)

end SceneWiring
