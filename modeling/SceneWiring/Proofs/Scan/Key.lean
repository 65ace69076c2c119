import SceneWiring.Scan

/-!
# Keys of types

The key of a type joins the names of the namespaces by dots and appends the names of the
types, each after a plus sign.  Names may be any texts, so a key need not tell what it was
made of.  It does if there is no plus sign in any of the names.

Main results:

- Theorem `length_typeKey_lt`: the key of a nested type is longer.
- Theorem `typeKey_eq_iff`: without plus signs, a key determines the joined namespaces
  and the names of the types.
-/

namespace SceneWiring

/-! ## Joined names -/

/-- Joining more names makes no shorter text. -/
theorem length_intercalate_le (sep : String) (xs ys : List String) :
    (sep.intercalate xs).length ≤ (sep.intercalate (xs ++ ys)).length := by
  by_cases hx : xs = []
  · simp [hx]
  by_cases hy : ys = []
  · simp [hy]
  rw [String.intercalate_append_of_ne_nil hx hy, String.length_append, String.length_append]
  omega

/-- A character of joined names stands in a name or in the separator. -/
theorem mem_toList_intercalate {sep : String} {c : Char} {xs : List String}
    (h : c ∈ (sep.intercalate xs).toList) : c ∈ sep.toList ∨ ∃ x ∈ xs, c ∈ x.toList := by
  induction xs with
  | nil => simp at h
  | cons x xs ih =>
      by_cases hx : xs = []
      · subst hx
        exact Or.inr ⟨x, by simp, by simpa using h⟩
      · rw [String.intercalate_cons_of_ne_nil hx, String.toList_append, String.toList_append,
          List.mem_append, List.mem_append] at h
        rcases h with (h | h) | h
        · exact Or.inr ⟨x, by simp, h⟩
        · exact Or.inl h
        · rcases ih h with h | ⟨y, hy, h⟩
          · exact Or.inl h
          · exact Or.inr ⟨y, by simp [hy], h⟩

/-- Names without the separator can be read off the joined text. -/
theorem eq_of_intercalate_eq {sep : String} {c : Char} (hsep : sep.toList = [c])
    {xs ys : List String} (hx : ∀ x ∈ xs, c ∉ x.toList) (hy : ∀ y ∈ ys, c ∉ y.toList)
    (hxs : xs ≠ []) (hys : ys ≠ []) (h : sep.intercalate xs = sep.intercalate ys) :
    xs = ys := by
  have hlists : [c].intercalate (xs.map String.toList) =
      [c].intercalate (ys.map String.toList) := by
    rw [← hsep, ← String.toList_intercalate, ← String.toList_intercalate, h]
  have hmap : xs.map String.toList = ys.map String.toList := by
    calc
      xs.map String.toList = ([c].intercalate (xs.map String.toList)).splitOn c :=
        (List.splitOn_intercalate c (by simpa using hx) (by simpa using hxs)).symm
      _ = ([c].intercalate (ys.map String.toList)).splitOn c := by rw [hlists]
      _ = ys.map String.toList :=
        List.splitOn_intercalate c (by simpa using hy) (by simpa using hys)
  exact List.map_inj_right (fun _ _ => String.toList_inj.mp) |>.mp hmap

/-! ## Nested names -/

/-- Nested names are written one after the other. -/
theorem nestedNames_append (xs ys : List String) :
    nestedNames (xs ++ ys) = nestedNames xs ++ nestedNames ys := by
  induction xs with
  | nil => simp [nestedNames]
  | cons x xs ih => simp [nestedNames, ih, String.append_assoc]

/-- Writing names after plus signs joins them by plus signs. -/
theorem append_nestedNames (first : String) (names : List String) :
    first ++ nestedNames names = "+".intercalate (first :: names) := by
  induction names generalizing first with
  | nil => simp [nestedNames]
  | cons name names ih =>
      rw [nestedNames, String.intercalate_cons_cons, ← ih, String.append_assoc,
        String.append_assoc]

/-! ## Keys -/

/-- A key is a text joined by plus signs. -/
theorem typeKey_eq_intercalate (namespaces types : List String) :
    typeKey namespaces types = "+".intercalate (".".intercalate namespaces :: types) :=
  append_nestedNames _ _

/-- The key of a nested type extends that of the type around it. -/
theorem typeKey_append (namespaces types more : List String) :
    typeKey namespaces (types ++ more) = typeKey namespaces types ++ nestedNames more := by
  rw [typeKey, typeKey, nestedNames_append, String.append_assoc]

/-- Namespaces make no key shorter. -/
theorem length_typeKey_le (namespaces more types : List String) :
    (typeKey namespaces types).length ≤ (typeKey (namespaces ++ more) types).length := by
  rw [typeKey, typeKey, String.length_append, String.length_append]
  exact Nat.add_le_add_right (length_intercalate_le "." namespaces more) _

/-- The key of a nested type is longer. -/
theorem length_typeKey_lt (namespaces types : List String) (name : String) :
    (typeKey namespaces types).length < (typeKey namespaces (types ++ [name])).length := by
  have hplus : "+".length = 1 := rfl
  rw [typeKey_append, String.length_append, nestedNames, nestedNames, String.length_append,
    String.length_append, hplus]
  omega

/-- There are no plus signs in names joined by dots if there are none in the names. -/
theorem plus_not_mem_intercalate {names : List String} (h : ∀ name ∈ names, '+' ∉ name.toList) :
    '+' ∉ (".".intercalate names).toList := by
  intro hmem
  rcases mem_toList_intercalate hmem with hdot | ⟨name, hname, hmem⟩
  · exact absurd hdot (by decide)
  · exact h name hname hmem

/-- Without plus signs, a key determines the joined namespaces and the types. -/
theorem typeKey_eq_iff {ns ms xs ys : List String}
    (hns : ∀ n ∈ ns, '+' ∉ n.toList) (hms : ∀ m ∈ ms, '+' ∉ m.toList)
    (hxs : ∀ x ∈ xs, '+' ∉ x.toList) (hys : ∀ y ∈ ys, '+' ∉ y.toList) :
    typeKey ns xs = typeKey ms ys ↔ ".".intercalate ns = ".".intercalate ms ∧ xs = ys := by
  constructor
  · intro h
    rw [typeKey_eq_intercalate, typeKey_eq_intercalate] at h
    have hcons := eq_of_intercalate_eq (c := '+') rfl
      (List.forall_mem_cons.mpr ⟨plus_not_mem_intercalate hns, hxs⟩)
      (List.forall_mem_cons.mpr ⟨plus_not_mem_intercalate hms, hys⟩) (by simp) (by simp) h
    exact ⟨List.head_eq_of_cons_eq hcons, List.tail_eq_of_cons_eq hcons⟩
  · rintro ⟨hjoined, rfl⟩
    rw [typeKey, typeKey, hjoined]

end SceneWiring
