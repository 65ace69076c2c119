import Mathlib.Data.List.Infix
import Mathlib.Data.Nat.Find
import SceneWiring.Proofs.Shape.Array
import SceneWiring.Proofs.Shape.Brackets

/-!
# Types of collections

The type of a collection contains the collection marker right in front of type arguments.  The
marker is looked for from the left, and after an occurrence of it the search goes on behind it.  So
an occurrence that overlaps an earlier one is not seen.  A marker that cannot overlap itself has
none, and then the leftmost occurrence in front of type arguments decides.

Main results:

- Definition `Shape.IsUnbordered`: markers that cannot overlap themselves.
- Theorem `Shape.afterMarkers_eq_afterEach`: no occurrence of such a marker is passed over.
- Definition `Shape.FirstArguments`: the leftmost marker in front of type arguments.
- Theorem `Shape.ofType_eq_collection_iff`: the types that are taken for collections.
-/

namespace SceneWiring
namespace Shape

open Text

/-! ## Occurrences of a marker -/

/-- A marker that cannot overlap itself: what stands at its start and at its end, too, is nothing or
the whole of it. -/
def IsUnbordered (marker : List Char) : Prop :=
  ∀ border, border <+: marker → border <:+ marker → border = [] ∨ border = marker

/-- A border is one of finitely many texts. -/
instance (marker : List Char) : Decidable (IsUnbordered marker) :=
  decidable_of_iff (∀ border ∈ marker.inits, border <:+ marker → border = [] ∨ border = marker)
    (by simp only [IsUnbordered, List.mem_inits])

/-- What follows each occurrence of a marker, whether it overlaps others or not. -/
def afterEach (marker : List Char) : List Char → List (List Char)
  | [] => []
  | c :: rest =>
    (if marker.isPrefixOf (c :: rest) then [(c :: rest).drop marker.length] else []) ++
      afterEach marker rest

/-- No occurrence of a marker that cannot overlap itself starts inside another one. -/
theorem IsUnbordered.not_prefix_drop {marker cs : List Char} (h : IsUnbordered marker)
    (hstart : marker <+: cs) {k : Nat} (hpos : 0 < k) (hlt : k < marker.length) :
    ¬ marker <+: cs.drop k := by
  intro hagain
  have hborder : marker.drop k <+: marker := by
    apply List.prefix_of_prefix_length_le _ hagain (by simp)
    exact hstart.drop k
  have hlength : (marker.drop k).length = marker.length - k := List.length_drop
  rcases h _ hborder (List.drop_suffix k marker) with hnil | hall
  · rw [hnil, List.length_nil] at hlength
    omega
  · rw [hall] at hlength
    omega

/-- No occurrence of a marker that cannot overlap itself is passed over, if none starts among the
characters that are skipped at the beginning. -/
theorem afterMarkers_eq_afterEach {marker : List Char} (h : IsUnbordered marker) {skip : Nat}
    {cs : List Char} (hskip : ∀ k, k < skip → ¬ marker <+: cs.drop k) :
    afterMarkers marker skip cs = afterEach marker cs := by
  induction cs generalizing skip with
  | nil => cases skip <;> rfl
  | cons c rest ih =>
      cases skip with
      | succ skip =>
          have hfirst : ¬ marker <+: c :: rest := hskip 0 skip.succ_pos
          rw [afterMarkers, afterEach, if_neg (by simpa using hfirst), List.nil_append]
          exact ih fun k hk => hskip (k + 1) (Nat.succ_lt_succ hk)
      | zero =>
          rw [afterMarkers, afterEach]
          by_cases hmarker : marker <+: c :: rest
          · -- The search skips the rest of this occurrence, in which no other one starts.
            have hinside : ∀ k, k < marker.length - 1 → ¬ marker <+: rest.drop k := fun k hk =>
              h.not_prefix_drop hmarker k.succ_pos (Nat.add_lt_of_lt_sub hk)
            rw [if_pos (by simpa using hmarker), if_pos (by simpa using hmarker), ih hinside]
            rfl
          · rw [if_neg (by simpa using hmarker), if_neg (by simpa using hmarker),
              ih fun k hk => absurd hk k.not_lt_zero]
            rfl

/-- What follows an occurrence of the marker at the start, if it gives a result. -/
theorem findSome?_ite_start {marker : List Char} {β : Type} (f : List Char → Option β)
    (cs : List Char) (b : β) :
    (if marker.isPrefixOf cs then [cs.drop marker.length] else []).findSome? f = some b ↔
      ∃ rest, cs = marker ++ rest ∧ f rest = some b := by
  by_cases hmarker : marker <+: cs
  · rcases hmarker with ⟨rest, rfl⟩
    simp
  · rw [if_neg (by simpa using hmarker)]
    constructor
    · intro h
      cases h
    · rintro ⟨rest, hcs, -⟩
      exact absurd ⟨rest, hcs.symm⟩ hmarker

/-- The first occurrence whose rest gives a result, in the order of occurrences, is the leftmost
one. -/
theorem findSome?_afterEach_eq_some_iff {marker : List Char} (hne : marker ≠ []) {β : Type}
    (f : List Char → Option β) {cs : List Char} {b : β} :
    (afterEach marker cs).findSome? f = some b ↔
      ∃ before rest, cs = before ++ marker ++ rest ∧ f rest = some b ∧
        ∀ before' rest', cs = before' ++ marker ++ rest' → (f rest').isSome →
          before.length ≤ before'.length := by
  induction cs with
  | nil =>
      constructor
      · intro h
        cases h
      · rintro ⟨before, rest, hcs, -⟩
        simp [hne] at hcs
  | cons c cs ih =>
      rw [afterEach, List.findSome?_append]
      by_cases hfirst : ∃ rest, c :: cs = marker ++ rest ∧ (f rest).isSome
      · rcases hfirst with ⟨rest, hrest, hsome⟩
        rcases Option.isSome_iff_exists.mp hsome with ⟨b', hb'⟩
        rw [(findSome?_ite_start f (c :: cs) b').mpr ⟨rest, hrest, hb'⟩, Option.some_or]
        constructor
        · intro h
          exact ⟨[], rest, hrest, hb'.trans h, fun _ _ _ _ => Nat.zero_le _⟩
        · rintro ⟨before, rest', hrest', hb, hleast⟩
          -- An occurrence at the very start leaves no room for one further to the left.
          have hstart : before = [] := by
            simpa using hleast [] rest hrest hsome
          subst hstart
          obtain rfl : rest = rest' := by
            rw [List.nil_append, hrest] at hrest'
            exact List.append_cancel_left hrest'
          exact hb'.symm.trans hb
      · have hnone : (if marker.isPrefixOf (c :: cs) then [(c :: cs).drop marker.length]
            else []).findSome? f = none := by
          rw [Option.eq_none_iff_forall_ne_some]
          intro b' hb'
          rcases (findSome?_ite_start f (c :: cs) b').mp hb' with ⟨rest, hrest, hsome⟩
          exact hfirst ⟨rest, hrest, Option.isSome_of_mem hsome⟩
        rw [hnone, Option.none_or, ih]
        constructor
        · rintro ⟨before, rest, rfl, hb, hleast⟩
          refine ⟨c :: before, rest, rfl, hb, fun before' rest' hcs hsome => ?_⟩
          cases before' with
          | nil => exact absurd ⟨rest', hcs, hsome⟩ hfirst
          | cons d before' =>
              exact Nat.succ_le_succ (hleast before' rest' (List.cons.inj hcs).2 hsome)
        · rintro ⟨before, rest, hcs, hb, hleast⟩
          cases before with
          | nil => exact absurd ⟨rest, hcs, Option.isSome_of_mem hb⟩ hfirst
          | cons d before =>
              obtain ⟨rfl, htail⟩ := List.cons.inj hcs
              refine ⟨before, rest, htail, hb, fun before' rest' hcs' hsome => ?_⟩
              exact Nat.le_of_succ_le_succ
                (hleast (c :: before') rest' (by rw [hcs']; rfl) hsome)

/-! ## Markers in front of type arguments -/

/-- A marker in front of type arguments. -/
def ArgumentsAfter (marker cs before element : List Char) : Prop :=
  ∃ rest, cs = before ++ marker ++ rest ∧ StartsWithArguments rest element

/-- The leftmost marker in front of type arguments. -/
def FirstArguments (marker cs element : List Char) : Prop :=
  ∃ before, ArgumentsAfter marker cs before element ∧
    ∀ before' element', ArgumentsAfter marker cs before' element' →
      before.length ≤ before'.length

/-- Where a marker stands in front of type arguments, there is a leftmost one. -/
theorem ArgumentsAfter.exists_first {marker cs before element : List Char}
    (h : ArgumentsAfter marker cs before element) :
    ∃ element', FirstArguments marker cs element' := by
  classical
  have hex : ∃ n, ∃ before' element', before'.length = n ∧
      ArgumentsAfter marker cs before' element' := ⟨_, before, element, rfl, h⟩
  rcases Nat.find_spec hex with ⟨before₀, element₀, hlength, h₀⟩
  refine ⟨element₀, before₀, h₀, fun before' element' h' => ?_⟩
  rw [hlength]
  exact Nat.find_min' hex ⟨before', element', rfl, h'⟩

/-- The search finds the type arguments behind the leftmost marker that has some. -/
theorem findSome?_typeArguments?_eq_some_iff {marker cs element : List Char} (hne : marker ≠ [])
    (hmarker : IsUnbordered marker) :
    (afterMarkers marker 0 cs).findSome? typeArguments? = some element ↔
      FirstArguments marker cs element := by
  have hskip : ∀ k, k < 0 → ¬ marker <+: cs.drop k := fun k hk => absurd hk k.not_lt_zero
  rw [afterMarkers_eq_afterEach hmarker hskip, findSome?_afterEach_eq_some_iff hne]
  simp only [FirstArguments, ArgumentsAfter, Option.isSome_iff_exists,
    typeArguments?_eq_some_iff]
  constructor
  · rintro ⟨before, rest, hcs, helement, hleast⟩
    refine ⟨before, ⟨rest, hcs, helement⟩, fun before' element' => ?_⟩
    rintro ⟨rest', hcs', helement'⟩
    exact hleast before' rest' hcs' ⟨element', helement'⟩
  · rintro ⟨before, ⟨rest, hcs, helement⟩, hleast⟩
    refine ⟨before, rest, hcs, helement, fun before' rest' hcs' => ?_⟩
    rintro ⟨element', helement'⟩
    exact hleast before' element' ⟨rest', hcs', helement'⟩

/-- Type arguments are trimmed, balanced, and not empty. -/
theorem StartsWithArguments.element {cs element : List Char} (h : StartsWithArguments cs element) :
    element ≠ [] ∧ trimmed element = element ∧ IsBalanced element := by
  rcases h with ⟨-, arguments, -, -, hbalanced, rfl, hne, -⟩
  exact ⟨hne, trimmed_trimmed arguments, hbalanced.trimmed⟩

/-! ## Classification -/

/-- A marker occurs in a text exactly if it is a part of it. -/
theorem occursIn_iff_infix {marker cs : List Char} : occursIn marker cs ↔ marker <:+: cs := by
  induction cs with
  | nil => simp [occursIn]
  | cons c cs ih =>
      rw [occursIn, Bool.or_eq_true, List.isPrefixOf_iff_prefix, ih, List.infix_cons_iff]

/-- A type is taken for a collection if it is no array, contains the marker, and has the element
of a collection. -/
theorem ofType_eq_collection_iff_collectionElement? {type marker element : String} :
    ofType type marker = .collection element ↔
      arrayElement? type = none ∧ mentions type marker ∧
        collectionElement? type marker = some element := by
  rw [ofType]
  cases arrayElement? type with
  | some element' => simp
  | none =>
      by_cases hmentions : mentions type marker
      · cases hcollection : collectionElement? type marker with
        | some element' => simp [hmentions]
        | none => simp [hmentions]
      · simp [hmentions]

/-- The element of a collection is trimmed, balanced, and not empty, whatever marks collections. -/
theorem element_of_ofType_eq_collection {type marker element : String}
    (h : ofType type marker = .collection element) :
    element ≠ "" ∧ trim element = element ∧ IsBalanced element.toList := by
  rcases ofType_eq_collection_iff_collectionElement?.mp h with ⟨-, -, helement⟩
  rw [collectionElement?, map_ofList_eq_some_iff] at helement
  rcases List.exists_of_findSome?_eq_some helement with ⟨rest, -, hrest⟩
  rcases (typeArguments?_eq_some_iff.mp hrest).element with ⟨hne, htrimmed, hbalanced⟩
  refine ⟨fun hempty => hne (by rw [hempty]; rfl), ?_, hbalanced⟩
  rw [← String.toList_inj, toList_trim, htrimmed]

/-- A type that contains the marker in front of type arguments contains the marker. -/
theorem mentions_of_argumentsAfter {type marker : String} {before element : List Char}
    (hne : marker ≠ "") (h : ArgumentsAfter marker.toList type.toList before element) :
    mentions type marker := by
  rcases h with ⟨rest, hcs, -⟩
  rw [mentions, Bool.and_eq_true]
  refine ⟨by simpa using hne, occursIn_iff_infix.mpr ⟨before, rest, hcs.symm⟩⟩

section NoArray

variable {type marker : String} (hne : marker ≠ "") (hmarker : IsUnbordered marker.toList)
  (harray : ∀ element, ofType type marker ≠ .array element)
include hne hmarker harray

/-- A type that is no array is taken for a collection with the element that the leftmost marker in
front of type arguments gives. -/
theorem ofType_eq_collection_iff_firstArguments (element : String) :
    ofType type marker = .collection element ↔
      FirstArguments marker.toList type.toList element.toList := by
  have hchars : marker.toList ≠ [] := by simpa using hne
  have hnone : arrayElement? type = none := by
    rw [Option.eq_none_iff_forall_ne_some]
    exact fun element helement => harray element (ofType_eq_array_iff_arrayElement?.mpr helement)
  rw [ofType_eq_collection_iff_collectionElement?, collectionElement?, map_ofList_eq_some_iff,
    findSome?_typeArguments?_eq_some_iff hchars hmarker]
  constructor
  · rintro ⟨-, -, hfirst⟩
    exact hfirst
  · rintro ⟨before, hbefore, hleast⟩
    exact ⟨hnone, mentions_of_argumentsAfter hne hbefore, before, hbefore, hleast⟩

/-- It holds one value if no marker stands in front of type arguments. -/
theorem ofType_eq_scalar_iff :
    ofType type marker = .scalar ↔
      ∀ before element, ¬ ArgumentsAfter marker.toList type.toList before element := by
  have hcollection := ofType_eq_collection_iff_firstArguments hne hmarker harray
  constructor
  · intro hscalar before element hbefore
    rcases hbefore.exists_first with ⟨element', hfirst⟩
    have hsome := (hcollection (String.ofList element')).mpr (by rwa [String.toList_ofList])
    rw [hscalar] at hsome
    cases hsome
  · intro hno
    cases hshape : ofType type marker with
    | scalar => rfl
    | array element => exact absurd hshape (harray element)
    | collection element =>
        rcases (hcollection element).mp hshape with ⟨before, hbefore, -⟩
        exact absurd hbefore (hno before element.toList)

end NoArray

/-- A type is taken for a collection exactly if it is no array and the marker, which cannot overlap
itself, stands in front of type arguments somewhere.  The leftmost such place gives the element.
The element is trimmed, balanced, and not empty, whatever marks collections, and the count of open
brackets is that of the brackets read and never below zero, whatever is read. -/
theorem ofType_eq_collection_iff (type marker : String) :
    (marker ≠ "" → IsUnbordered marker.toList → (∀ element, ofType type marker ≠ .array element) →
      (∀ element, ofType type marker = .collection element ↔
        FirstArguments marker.toList type.toList element.toList) ∧
      (ofType type marker = .scalar ↔
        ∀ before element, ¬ ArgumentsAfter marker.toList type.toList before element)) ∧
    (∀ element, ofType type marker = .collection element →
      element ≠ "" ∧ trim element = element ∧ IsBalanced element.toList) ∧
    ∀ cs p : List Char, p <+: (upToClosing? 0 cs).getD cs →
      ∃ depth : Nat, (depth : Int) = p.count '<' - p.count '>' ∧
        ∀ rest, upToClosing? 0 (p ++ rest) = (upToClosing? depth rest).map (p ++ ·) := by
  refine ⟨fun hne hmarker harray => ?_, fun _ => element_of_ofType_eq_collection,
    fun _ _ => exists_depth_of_prefix_read⟩
  exact ⟨ofType_eq_collection_iff_firstArguments hne hmarker harray,
    ofType_eq_scalar_iff hne hmarker harray⟩

/-- Of the two markers in this type, only the second one stands in front of type arguments. -/
theorem dictionary_is_collection :
    ofType "Dictionary<ListView, List <Set<int>>>" "List" = .collection "Set<int>" ∧
      FirstArguments "List".toList "Dictionary<ListView, List <Set<int>>>".toList
        "Set<int>".toList := by
  have hshape : ofType "Dictionary<ListView, List <Set<int>>>" "List" = .collection "Set<int>" := by
    decide +kernel
  have hiff := (ofType_eq_collection_iff "Dictionary<ListView, List <Set<int>>>" "List").1
    (by decide) (by decide +kernel) (by simp [hshape])
  exact ⟨hshape, (hiff.1 "Set<int>").mp hshape⟩

/-- A marker that can overlap itself may be passed over. -/
example : ofType "aaa<int>" "aa" = .scalar := by
  decide +kernel

end Shape
end SceneWiring
