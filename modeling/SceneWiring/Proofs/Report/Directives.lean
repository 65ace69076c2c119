import SceneWiring.Proofs.Report.Repetition

/-!
# The using directives of a unit

The directives of a unit start with those that statements need.  Those of the type follow, without
blanks around them and each one once, in the order in which they are first met.  So directives can
be merged in steps: to merge more into the directives of a unit is the same as to merge all of them
at once, and merging what is merged already changes nothing.

Main results:

- Theorem `pairwise_idxOf_eraseDups`: elements without repetitions stay in the order in which they
  first occur.
- Theorem `eraseDups_append_congr`: what is added to lists without repetitions.
- Theorem `mergeUsings_eq`: the directives of a unit in two stretches.
- Theorem `mergeUsings_stable`: order, contents and merging in steps.
-/

namespace SceneWiring

/-! ## Lists without repetitions -/

section

variable {α : Type} [DecidableEq α]

/-- Elements can be taken out before or after repetitions are. -/
theorem eraseDups_filter (p : α → Bool) (xs : List α) :
    (xs.filter p).eraseDups = xs.eraseDups.filter p := by
  induction xs using List.reverseRecOn with
  | nil => rfl
  | append_singleton xs x ih =>
      rw [Site.eraseDups_concat, List.filter_append]
      cases hp : p x with
      | false =>
          have hnone : [x].filter p = [] := by simp [hp]
          rw [hnone, List.append_nil, ih]
          split
          · rfl
          · rw [List.filter_append, hnone, List.append_nil]
      | true =>
          have hone : [x].filter p = [x] := by simp [hp]
          have hmem : x ∈ xs.filter p ↔ x ∈ xs := by simp [hp]
          rw [hone, Site.eraseDups_concat, ih]
          simp only [hmem]
          split
          · rfl
          · rw [List.filter_append, hone]

/-- Without repetitions, elements stay in the order in which they first occur. -/
theorem pairwise_idxOf_eraseDups (xs : List α) :
    xs.eraseDups.Pairwise fun a b => xs.idxOf a < xs.idxOf b := by
  induction xs using List.reverseRecOn with
  | nil => exact .nil
  | append_singleton xs x ih =>
      -- The first occurrence of an element of `xs` stays where it is.
      have hbefore :
          xs.eraseDups.Pairwise fun a b => (xs ++ [x]).idxOf a < (xs ++ [x]).idxOf b := by
        apply ih.imp_of_mem
        intro a b ha hb hlt
        rwa [List.idxOf_append_of_mem (List.mem_eraseDups.mp ha),
          List.idxOf_append_of_mem (List.mem_eraseDups.mp hb)]
      rw [Site.eraseDups_concat]
      by_cases hx : x ∈ xs
      · rw [if_pos hx]
        exact hbefore
      · rw [if_neg hx, List.pairwise_append]
        refine ⟨hbefore, List.pairwise_singleton _ x, ?_⟩
        intro a ha b hb
        obtain rfl := List.mem_singleton.mp hb
        have ha := List.mem_eraseDups.mp ha
        rw [List.idxOf_append_of_mem ha, List.idxOf_append_of_notMem hx]
        exact Nat.lt_add_right _ (List.idxOf_lt_length_of_mem ha)

/-- A list without repetitions stays as it is. -/
theorem eraseDups_eq_self {xs : List α} (h : xs.Nodup) : xs.eraseDups = xs := by
  induction xs using List.reverseRecOn with
  | nil => rfl
  | append_singleton xs x ih =>
      rw [List.nodup_append] at h
      have hx : x ∉ xs := fun hmem => h.2.2 x hmem x (List.mem_singleton_self x) rfl
      rw [Site.eraseDups_concat, if_neg hx, ih h.1]

/-- What is added to two lists that are the same without repetitions makes no difference. -/
theorem eraseDups_append_congr {xs ys : List α} (h : xs.eraseDups = ys.eraseDups) (zs : List α) :
    (xs ++ zs).eraseDups = (ys ++ zs).eraseDups := by
  have hmem : ∀ z, xs.contains z = ys.contains z := by
    intro z
    rw [List.contains_eq_mem, List.contains_eq_mem, decide_eq_decide, ← List.mem_eraseDups, h,
      List.mem_eraseDups]
  have hnew : zs.removeAll xs = zs.removeAll ys := by
    simp only [List.removeAll, List.elem_eq_contains, hmem]
  rw [List.eraseDups_append, List.eraseDups_append, h, hnew]

end

/-! ## Directives -/

/-- The directives of a unit: those that statements need, and then the others. -/
theorem mergeUsings_eq (usings : List String) :
    mergeUsings usings =
      neededUsings ++
        (usings.map Text.trim).eraseDups.filter fun line => line ∉ neededUsings := by
  have hneeded : neededUsings.eraseDups = neededUsings := eraseDups_eq_self (by decide)
  rw [mergeUsings, List.eraseDups_append, hneeded, List.removeAll, eraseDups_filter]
  congr 2
  funext line
  simp

/-- The directives of a unit have no repetitions. -/
theorem nodup_mergeUsings (usings : List String) : (mergeUsings usings).Nodup :=
  Site.nodup_eraseDups _

/-- Merging more into the directives of a unit is like merging all of them at once. -/
theorem mergeUsings_append_mergeUsings (usings more : List String) :
    mergeUsings (mergeUsings usings ++ more) = mergeUsings (usings ++ more) := by
  have htrim : (mergeUsings usings).map Text.trim = mergeUsings usings :=
    (List.map_congr_left fun line hline => trim_of_mem_mergeUsings hline).trans (List.map_id _)
  have hagain : (neededUsings ++ neededUsings).eraseDups = neededUsings.eraseDups :=
    eraseDups_append_of_subset (List.Subset.refl neededUsings)
  have hmerged : (neededUsings ++ mergeUsings usings).eraseDups =
      (neededUsings ++ usings.map Text.trim).eraseDups := by
    rw [mergeUsings_eq, ← List.append_assoc, eraseDups_append_congr hagain, ← mergeUsings_eq,
      eraseDups_eq_self (nodup_mergeUsings usings), mergeUsings]
  calc
    mergeUsings (mergeUsings usings ++ more)
        = (neededUsings ++ mergeUsings usings ++ more.map Text.trim).eraseDups := by
          rw [mergeUsings, List.map_append, htrim, List.append_assoc]
    _ = (neededUsings ++ usings.map Text.trim ++ more.map Text.trim).eraseDups :=
          eraseDups_append_congr hmerged _
    _ = mergeUsings (usings ++ more) := by
          rw [mergeUsings, List.map_append, List.append_assoc]

/-- The directives of a unit start with those that statements need, and the others follow in the
order in which they first occur among those of the type.  No directive is there twice, and those
that are there are the needed ones and those of the type without blanks around them.  Merging what
is merged changes nothing, and merging more into it is like merging all at once. -/
theorem mergeUsings_stable (usings more : List String) :
    (∃ own, mergeUsings usings = neededUsings ++ own ∧
        own.Pairwise fun a b =>
          (usings.map Text.trim).idxOf a < (usings.map Text.trim).idxOf b) ∧
      (mergeUsings usings).Nodup ∧
      (∀ line, line ∈ mergeUsings usings ↔
        line ∈ neededUsings ∨ line ∈ usings.map Text.trim) ∧
      mergeUsings (mergeUsings usings) = mergeUsings usings ∧
      mergeUsings (mergeUsings usings ++ more) = mergeUsings (usings ++ more) := by
  refine ⟨⟨_, mergeUsings_eq usings, ?_⟩, nodup_mergeUsings usings,
    fun line => mem_mergeUsings_iff, ?_, mergeUsings_append_mergeUsings usings more⟩
  · exact (pairwise_idxOf_eraseDups _).sublist List.filter_sublist
  · have hnothing := mergeUsings_append_mergeUsings usings []
    rwa [List.append_nil, List.append_nil] at hnothing

/-- A directive with blanks around it is merged with the same one without, and one that statements
need is not repeated. -/
example :
    mergeUsings [" using Zed;", "using System.Linq;", "using Zed;", "using Alpha;"] =
      ["using UnityEngine;", "using System.Linq;", "using Zed;", "using Alpha;"] := by
  decide +kernel

end SceneWiring
