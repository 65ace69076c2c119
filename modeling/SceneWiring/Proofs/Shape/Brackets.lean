import SceneWiring.Shape

/-!
# Type arguments in brackets

Type arguments stand between an angle bracket and the one that closes it.  The closing bracket is
found by counting how many brackets are open: the count goes up and down with the brackets that are
read, and the first bracket that would bring it below zero is the one looked for.  So what stands
before it is balanced, the count is never below zero, and a balanced text in front of a closing
bracket is always found.

Main results:

- Structure `Shape.IsBalanced`: texts with balanced brackets.
- Theorem `Shape.upToClosing?_eq_some_iff`: what stands before the closing bracket.
- Theorem `Shape.upToClosing?_append`: the count after the start of a text.
- Theorem `Shape.count_le_of_prefix_read`: the count does not go below zero.
- Theorem `Shape.typeArguments?_eq_some_iff`: the texts that start with type arguments.
-/

namespace SceneWiring
namespace Shape

open Text

/-! ## Balanced brackets -/

/-- A text with as many opening as closing brackets, in which no bracket is closed before it was
opened. -/
structure IsBalanced (cs : List Char) : Prop where
  count_eq : cs.count '<' = cs.count '>'
  count_le : ∀ p, p <+: cs → p.count '>' ≤ p.count '<'

/-- A text that closes a number of brackets, and all that it opens, but none before it was
opened. -/
structure ClosesAll (depth : Nat) (cs : List Char) : Prop where
  count_eq : cs.count '<' + depth = cs.count '>'
  count_le : ∀ p, p <+: cs → p.count '>' ≤ p.count '<' + depth

/-- A text is balanced if it closes all that it opens, and nothing else. -/
theorem closesAll_zero_iff {cs : List Char} : ClosesAll 0 cs ↔ IsBalanced cs :=
  ⟨fun h => ⟨h.count_eq, h.count_le⟩, fun h => ⟨h.count_eq, h.count_le⟩⟩

/-- The number of open brackets after a character. -/
def depthAfterChar (depth : Nat) (c : Char) : Nat :=
  if c = '<' then depth + 1 else if c = '>' then depth - 1 else depth

/-- The first character of a text, if it does not close a bracket while none is open, counts towards
the brackets in front of the others. -/
theorem count_cons_add_depth {depth : Nat} {c : Char} (hc : ¬ (c = '>' ∧ depth = 0))
    (cs : List Char) :
    (c :: cs).count '<' + depth + cs.count '>' =
      cs.count '<' + depthAfterChar depth c + (c :: cs).count '>' := by
  rw [depthAfterChar, List.count_cons, List.count_cons]
  by_cases hopen : c = '<'
  · subst hopen
    simp
    omega
  · by_cases hclose : c = '>'
    · have hdepth : depth ≠ 0 := fun hzero => hc ⟨hclose, hzero⟩
      subst hclose
      simp
      omega
    · simp [hopen, hclose]

/-- Nothing closes no brackets. -/
theorem closesAll_nil_iff {depth : Nat} : ClosesAll depth [] ↔ depth = 0 := by
  constructor
  · intro h
    simpa using h.count_eq
  · rintro rfl
    exact ⟨rfl, fun p hp => by simp [List.prefix_nil.mp hp]⟩

/-- What follows the first character closes all brackets that are open after it. -/
theorem closesAll_cons_iff {depth : Nat} {c : Char} {cs : List Char} :
    ClosesAll depth (c :: cs) ↔
      ¬ (c = '>' ∧ depth = 0) ∧ ClosesAll (depthAfterChar depth c) cs := by
  constructor
  · intro h
    have hc : ¬ (c = '>' ∧ depth = 0) := by
      rintro ⟨rfl, rfl⟩
      have hfirst := h.count_le ['>'] (by simp)
      simp at hfirst
    have hcount := h.count_eq
    refine ⟨hc, ?_, ?_⟩
    · have hstep := count_cons_add_depth hc cs
      omega
    · intro p hp
      have hle := h.count_le (c :: p) (List.cons_prefix_cons.mpr ⟨rfl, hp⟩)
      have hstep := count_cons_add_depth hc p
      omega
  · rintro ⟨hc, h⟩
    have hcount := h.count_eq
    refine ⟨?_, ?_⟩
    · have hstep := count_cons_add_depth hc cs
      omega
    · intro p hp
      rcases List.prefix_cons_iff.mp hp with rfl | ⟨rest, rfl, hrest⟩
      · simp
      · have hle := h.count_le rest hrest
        have hstep := count_cons_add_depth hc rest
        omega

/-! ## Looking for the closing bracket -/

/-- The search stops at a closing bracket if no bracket is open, and else goes on with the brackets
that are open after the first character. -/
theorem upToClosing?_cons (depth : Nat) (c : Char) (cs : List Char) :
    upToClosing? depth (c :: cs) =
      if c = '>' ∧ depth = 0 then some []
      else (upToClosing? (depthAfterChar depth c) cs).map (c :: ·) := by
  rw [depthAfterChar]
  by_cases hopen : c = '<'
  · subst hopen
    simp [upToClosing?]
  · by_cases hclose : c = '>'
    · subst hclose
      cases depth with
      | zero => simp [upToClosing?]
      | succ depth => simp [upToClosing?]
    · simp [upToClosing?, hopen, hclose]

/-- What is found closes all brackets that were open, and the closing bracket looked for follows
it. -/
theorem upToClosing?_eq_some_iff {depth : Nat} {cs found : List Char} :
    upToClosing? depth cs = some found ↔ ClosesAll depth found ∧ found ++ ['>'] <+: cs := by
  -- Every character read changes the depth, so the induction on the text is for all depths.
  induction cs generalizing depth found with
  | nil => simp [upToClosing?]
  | cons c cs ih =>
      rw [upToClosing?_cons]
      cases found with
      | nil =>
          rw [closesAll_nil_iff, List.nil_append, List.cons_prefix_cons]
          by_cases hstop : c = '>' ∧ depth = 0
          · simp [hstop]
          · rw [if_neg hstop]
            constructor
            · intro h
              simp at h
            · rintro ⟨hdepth, hc, -⟩
              exact absurd ⟨hc.symm, hdepth⟩ hstop
      | cons d found =>
          rw [closesAll_cons_iff, List.cons_append, List.cons_prefix_cons]
          by_cases hstop : c = '>' ∧ depth = 0
          · rw [if_pos hstop]
            constructor
            · intro h
              simp at h
            · rintro ⟨⟨hd, -⟩, rfl, -⟩
              exact absurd hstop hd
          · rw [if_neg hstop, Option.map_eq_some_iff]
            constructor
            · rintro ⟨rest, hrest, hsame⟩
              obtain ⟨rfl, rfl⟩ := List.cons.inj hsame
              rcases ih.mp hrest with ⟨hcloses, hstart⟩
              exact ⟨⟨hstop, hcloses⟩, rfl, hstart⟩
            · rintro ⟨⟨-, hcloses⟩, rfl, hstart⟩
              exact ⟨found, ih.mpr ⟨hcloses, hstart⟩, rfl⟩

/-- After the start of a text, the search goes on with the brackets that were open before and those
that the start has opened and not closed. -/
theorem upToClosing?_append {depth : Nat} {p : List Char}
    (h : ∀ q, q <+: p → q.count '>' ≤ q.count '<' + depth) (rest : List Char) :
    upToClosing? depth (p ++ rest) =
      (upToClosing? (p.count '<' + depth - p.count '>') rest).map (p ++ ·) := by
  induction p generalizing depth with
  | nil => simp
  | cons c p ih =>
      have hc : ¬ (c = '>' ∧ depth = 0) := by
        rintro ⟨rfl, rfl⟩
        have hfirst := h ['>'] (by simp)
        simp at hfirst
      have hrest : ∀ q, q <+: p → q.count '>' ≤ q.count '<' + depthAfterChar depth c := by
        intro q hq
        have hle := h (c :: q) (List.cons_prefix_cons.mpr ⟨rfl, hq⟩)
        have hstep := count_cons_add_depth hc q
        omega
      have hdepth : p.count '<' + depthAfterChar depth c - p.count '>' =
          (c :: p).count '<' + depth - (c :: p).count '>' := by
        have hstep := count_cons_add_depth hc p
        omega
      rw [List.cons_append, upToClosing?_cons, if_neg hc, ih hrest, hdepth, Option.map_map]
      rfl

/-- If no closing bracket is found, no start of the text closes more brackets than were open. -/
theorem count_le_of_upToClosing?_eq_none {depth : Nat} {cs p : List Char}
    (h : upToClosing? depth cs = none) (hp : p <+: cs) : p.count '>' ≤ p.count '<' + depth := by
  induction cs generalizing depth p with
  | nil => simp [List.prefix_nil.mp hp]
  | cons c cs ih =>
      rw [upToClosing?_cons] at h
      split at h
      · exact absurd h (by simp)
      · rename_i hc
        rcases List.prefix_cons_iff.mp hp with rfl | ⟨q, rfl, hq⟩
        · simp
        · have hle := ih (Option.map_eq_none_iff.mp h) hq
          have hstep := count_cons_add_depth hc q
          omega

/-- In all that is read, whether a closing bracket is found or not, no more brackets are closed than
were open. -/
theorem count_le_of_prefix_read {depth : Nat} {cs p : List Char}
    (hp : p <+: (upToClosing? depth cs).getD cs) : p.count '>' ≤ p.count '<' + depth := by
  cases hfound : upToClosing? depth cs with
  | some found =>
      rw [hfound] at hp
      exact (upToClosing?_eq_some_iff.mp hfound).1.count_le p hp
  | none =>
      rw [hfound] at hp
      exact count_le_of_upToClosing?_eq_none hfound hp

/-- The count of open brackets, as the search keeps it, is that of the brackets opened and not
closed in what was read, and it is never below zero. -/
theorem exists_depth_of_prefix_read {cs p : List Char} (hp : p <+: (upToClosing? 0 cs).getD cs) :
    ∃ depth : Nat, (depth : Int) = p.count '<' - p.count '>' ∧
      ∀ rest, upToClosing? 0 (p ++ rest) = (upToClosing? depth rest).map (p ++ ·) := by
  have hle := count_le_of_prefix_read hp
  refine ⟨p.count '<' + 0 - p.count '>', by omega, ?_⟩
  exact upToClosing?_append fun q hq => count_le_of_prefix_read (hq.trans hp)

/-! ## Type arguments -/

/-- A text that starts with type arguments: after any blanks, a balanced text in brackets, of which
something is left if it is trimmed. -/
def StartsWithArguments (cs element : List Char) : Prop :=
  ∃ blanks arguments rest : List Char, (∀ c ∈ blanks, isBlank c) ∧ IsBalanced arguments ∧
    trimmed arguments = element ∧ element ≠ [] ∧
    cs = blanks ++ '<' :: (arguments ++ '>' :: rest)

/-- The type arguments at the start of a text are those that it starts with. -/
theorem typeArguments?_eq_some_iff {cs element : List Char} :
    typeArguments? cs = some element ↔ StartsWithArguments cs element := by
  constructor
  · intro h
    rcases exists_append_dropBlank cs with ⟨blanks, hblanks, hcs⟩
    rw [typeArguments?] at h
    split at h
    · rename_i inside hinside
      split at h
      · rename_i arguments harguments
        rcases upToClosing?_eq_some_iff.mp harguments with ⟨hcloses, rest, rfl⟩
        simp only at h
        split at h
        · exact absurd h (by simp)
        · rename_i hne
          obtain rfl := Option.some.inj h
          refine ⟨blanks, arguments, rest, hblanks, closesAll_zero_iff.mp hcloses, rfl,
            by simpa using hne, ?_⟩
          rw [← hcs, hinside]
          simp
      · exact absurd h (by simp)
    · exact absurd h (by simp)
  · rintro ⟨blanks, arguments, rest, hblanks, hbalanced, rfl, hne, rfl⟩
    have hopening : dropBlank (blanks ++ '<' :: (arguments ++ '>' :: rest)) =
        '<' :: (arguments ++ '>' :: rest) :=
      dropBlank_append hblanks (by decide) _
    have hclosing : upToClosing? 0 (arguments ++ '>' :: rest) = some arguments :=
      upToClosing?_eq_some_iff.mpr ⟨closesAll_zero_iff.mpr hbalanced, rest, by simp⟩
    rw [typeArguments?, hopening]
    simp only [hclosing]
    rw [if_neg (by simpa using hne)]

/-- A text is as balanced as it is without the blanks around it. -/
theorem IsBalanced.trimmed {cs : List Char} (h : IsBalanced cs) : IsBalanced (trimmed cs) := by
  rcases exists_append_trimmed cs with ⟨before, after, hbefore, hafter, hcs⟩
  have hcount : ∀ (bracket : Char), isBlank bracket = false → ∀ blanks : List Char,
      (∀ c ∈ blanks, isBlank c) → blanks.count bracket = 0 := by
    intro bracket hbracket blanks hblanks
    apply List.count_eq_zero_of_not_mem
    intro hmem
    exact absurd (hblanks bracket hmem) (by simp [hbracket])
  have hopen := hcount '<' (by decide)
  have hclose := hcount '>' (by decide)
  constructor
  · have hall := h.count_eq
    rw [← hcs] at hall
    simpa [hopen before hbefore, hopen after hafter, hclose before hbefore, hclose after hafter]
      using hall
  · rintro p ⟨rest, hrest⟩
    have hle := h.count_le (before ++ p) ⟨rest ++ after, by rw [← hcs, ← hrest]; simp⟩
    simpa [hopen before hbefore, hclose before hbefore] using hle

end Shape
end SceneWiring
