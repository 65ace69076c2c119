import SceneWiring.Header

/-!
# Paths of namespaces

The path of nested namespaces joins their names by dots, and the name of one namespace may have
dots itself.  A name is plain if nothing is left out of it on the way into a path.  Paths of
plain names do not show where one name ends and the next one starts.

Main results:

- Definition `IsPlainName`: names that go into a path as they are.
- Theorem `dottedPath_eq_intercalate`: the path of plain names joins them.
- Theorem `dottedPath_dotted`: a dotted name and its two halves give one path.
-/

namespace SceneWiring

/-- A name that is not empty and has no blanks around it. -/
def IsPlainName (name : String) : Prop :=
  name ≠ "" ∧ Text.trim name = name

instance (name : String) : Decidable (IsPlainName name) :=
  inferInstanceAs (Decidable (_ ∧ _))

/-- The joined halves of a dotted name are joined like the name itself. -/
theorem intercalate_dotted (before after : List String) (a b : String) :
    ".".intercalate (before ++ (a ++ "." ++ b) :: after) =
      ".".intercalate (before ++ a :: b :: after) := by
  induction before with
  | nil =>
      rw [List.nil_append, List.nil_append, String.intercalate_cons_cons,
        String.intercalate_cons_append]
  | cons name before ih =>
      rw [List.cons_append, List.cons_append, String.intercalate_cons_of_ne_nil (by simp),
        String.intercalate_cons_of_ne_nil (by simp), ih]

/-- Two plain names, joined by a dot, make a plain name. -/
theorem IsPlainName.dotted {a b : String} (ha : IsPlainName a) (hb : IsPlainName b) :
    IsPlainName (a ++ "." ++ b) := by
  have hchars : ∀ {name : String}, IsPlainName name →
      name.toList ≠ [] ∧ Text.trimmed name.toList = name.toList := by
    rintro name ⟨hne, htrim⟩
    refine ⟨by simpa using hne, ?_⟩
    rw [← Text.toList_trim, htrim]
  refine ⟨by simp, ?_⟩
  rw [← String.toList_inj, Text.toList_trim, String.toList_append, String.toList_append]
  exact Text.trimmed_append_of_trimmed (hchars ha).2 (hchars hb).2 (hchars ha).1 (hchars hb).1 _

/-- Plain names go into a path as they are. -/
theorem dottedPath_eq_intercalate {names : List String} (h : ∀ name ∈ names, IsPlainName name) :
    dottedPath names = ".".intercalate names := by
  have htrim : names.map Text.trim = names := by
    calc
      names.map Text.trim = names.map id :=
        List.map_congr_left fun name hname => (h name hname).2
      _ = names := List.map_id names
  have hkeep : names.filter (fun name => !name.isEmpty) = names := by
    rw [List.filter_eq_self]
    intro name hname
    simpa using (h name hname).1
  rw [dottedPath, htrim, hkeep]

/-- A dotted name and its two halves, if these are plain, give one path. -/
theorem dottedPath_dotted {a b : String} (ha : IsPlainName a) (hb : IsPlainName b)
    (before after : List String) :
    dottedPath (before ++ (a ++ "." ++ b) :: after) = dottedPath (before ++ a :: b :: after) := by
  have hkeep : ∀ {name : String}, IsPlainName name → ∀ names : List String,
      ((name :: names).map Text.trim).filter (fun name => !name.isEmpty) =
        name :: (names.map Text.trim).filter fun name => !name.isEmpty := by
    rintro name ⟨hne, htrim⟩ names
    rw [List.map_cons, htrim, List.filter_cons_of_pos (by simpa using hne)]
  simp only [dottedPath, List.map_append, List.filter_append]
  rw [hkeep (ha.dotted hb), hkeep ha, hkeep hb, intercalate_dotted]

end SceneWiring
