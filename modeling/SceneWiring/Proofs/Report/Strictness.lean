import SceneWiring.Proofs.Report.FileOrder
import SceneWiring.Proofs.Report.Ownership
import SceneWiring.Proofs.Scan.Nesting

/-!
# Rejecting types that are not partial

A host may have types rejected that cannot be augmented.  Such a strict run differs from the
lenient one in nothing else: a type that is declared partial in all of its parts and in all
parts of the types around it contributes what it contributes to the lenient run, and any other
type a single entry in place of its unit and of the skips of its members.

Main results:

- Definition `Compilation.DeclaresPartial`: a type that is declared partial throughout.
- Theorem `declaresPartial_iff_of_mem_nestedParts`: where names are regular, this is about the
  parts around any of its parts.
- Theorem `isPartial_enclosing_iff`: the scanner's headers tell whether it is.
- Theorem `MarkedType.contribution_strict`: what a type contributes to a strict run.
- Theorem `strict_run_filters`: the units and the skips of a strict run.
-/

namespace SceneWiring

/-! ## Types that are declared partial -/

/-- All parts of the type with a key and of the types around it are declared partial. -/
def Compilation.DeclaresPartial (c : Compilation) (key : String) : Prop :=
  ∃ keys, OuterKeys c.sites key keys ∧
    ∀ k ∈ keys ++ [key], ∀ s ∈ Site.partsUnder k c.sites, s.part.declares "partial"

section

variable {c : Compilation}

/-- Where names are regular, the types around a type are those of the parts around any of its
parts. -/
theorem declaresPartial_iff_of_mem_nestedParts (h : c.follows .withoutPlus) {n : NestedPart}
    (hn : n ∈ c.nestedParts) :
    c.DeclaresPartial n.site.key ↔
      ∀ o ∈ n.outer ++ [n.site], ∀ s ∈ Site.partsUnder o.key c.sites,
        s.part.declares "partial" := by
  have hsite : n.site ∈ Site.partsUnder n.site.key c.sites := by
    rw [Site.mem_partsUnder_iff, ← c.map_site_nestedParts]
    exact ⟨List.mem_map_of_mem hn, rfl⟩
  rcases getElem?_entries_idxOf (Site.mem_keysIn_of_mem_partsUnder hsite) with ⟨e, hget, hkey⟩
  rcases exists_outerKeys hget with ⟨keys, hkeys, -⟩
  rw [hkey] at hkeys
  have houter : keys = n.outer.map PartSite.key := by
    rcases hkeys.exists_first with ⟨first, hfirst⟩
    rw [hkeys.eq_around Naming.excludesPlus_withoutPlus h hfirst,
      PartSite.keys_around_eq Naming.excludesPlus_withoutPlus h hsite (List.mem_of_head? hfirst),
      (c.standsIn_of_mem_nestedParts n hn).keys]
  have hall : keys ++ [n.site.key] = (n.outer ++ [n.site]).map PartSite.key := by
    rw [houter, List.map_append, List.map_singleton]
  rw [← List.forall_mem_map (P := fun k => ∀ s ∈ Site.partsUnder k c.sites,
    s.part.declares "partial"), ← hall]
  constructor
  · rintro ⟨keys', hkeys', hpartial⟩
    rwa [hkeys.unique hkeys']
  · exact fun hpartial => ⟨keys, hkeys, hpartial⟩

/-- A header is partial if there are parts and all of them are declared partial. -/
theorem Header.isPartial_ofParts_iff {parts : List TypePart} (h : parts ≠ []) :
    (ofParts parts).isPartial ↔ ∀ part ∈ parts, part.declares "partial" := by
  have hempty : parts.isEmpty = false := by simpa using h
  rw [ofParts, hempty, Bool.not_false, Bool.true_and, List.all_eq_true]

/-- So the header of a key is partial if all parts under the key are. -/
theorem Header.isPartial_ofParts_partsUnder_iff {key : String} {sites : List Site}
    {first : PartSite} (h : (Site.partsUnder key sites).head? = some first) :
    (ofParts ((Site.partsUnder key sites).map PartSite.part)).isPartial ↔
      ∀ s ∈ Site.partsUnder key sites, s.part.declares "partial" := by
  have hparts : (Site.partsUnder key sites).map PartSite.part ≠ [] :=
    List.ne_nil_of_mem (List.mem_map_of_mem (List.mem_of_head? h))
  rw [isPartial_ofParts_iff hparts, List.forall_mem_map]

/-- Around a type, there are parts under all keys. -/
theorem OuterKeys.exists_first_of_mem {sites : List Site} {key : String} {keys : List String}
    (h : OuterKeys sites key keys) :
    ∀ k ∈ keys, ∃ first, (Site.partsUnder k sites).head? = some first := by
  induction h with
  | outermost _ _ => simp
  | inside _ _ around ih =>
      intro k hk
      rcases List.mem_append.mp hk with hk | hk
      · exact ih k hk
      · rw [List.mem_singleton.mp hk]
        exact around.exists_first

/-- A scanned type is partial, as its headers tell, if it is declared so throughout. -/
theorem isPartial_enclosing_iff {key : String} {t : MarkedType} {first : PartSite}
    {others : List PartSite} {keys : List String} (hgathers : t.Gathers c.sites key first others)
    (hkeys : OuterKeys c.sites key keys)
    (hcontainers : t.containers = keys.map fun key =>
      (Site.partsUnder key c.sites).map PartSite.part) :
    t.enclosing.isPartial ↔ c.DeclaresPartial key := by
  have hown : t.enclosing.header.isPartial ↔
      ∀ s ∈ Site.partsUnder key c.sites, s.part.declares "partial" := by
    rw [MarkedType.enclosing, EnclosingType.ofParts, hgathers.parts_eq]
    exact Header.isPartial_ofParts_partsUnder_iff hgathers.head?_partsUnder
  have houter : t.enclosing.containers.all Header.isPartial ↔
      ∀ k ∈ keys, ∀ s ∈ Site.partsUnder k c.sites, s.part.declares "partial" := by
    rw [MarkedType.enclosing, EnclosingType.ofParts, hcontainers, List.all_eq_true,
      List.forall_mem_map, List.forall_mem_map]
    apply forall₂_congr
    intro k hk
    rcases hkeys.exists_first_of_mem k hk with ⟨first, hfirst⟩
    exact Header.isPartial_ofParts_partsUnder_iff hfirst
  have hall : (∀ k ∈ keys ++ [key], ∀ s ∈ Site.partsUnder k c.sites,
      s.part.declares "partial") ↔ t.enclosing.isPartial := by
    rw [EnclosingType.isPartial, Bool.and_eq_true, hown, houter, List.forall_mem_append,
      List.forall_mem_singleton, and_comm]
  rw [← hall]
  constructor
  · exact fun hpartial => ⟨keys, hkeys, hpartial⟩
  · rintro ⟨keys', hkeys', hpartial⟩
    rwa [hkeys.unique hkeys']

/-- The entry of a rejected type names the type as its first part does and points to that
part. -/
theorem MarkedType.Gathers.rejection_eq {key : String} {t : MarkedType} {first : PartSite}
    {others : List PartSite} (h : t.Gathers c.sites key first others) :
    t.rejection =
      ⟨.notPartial, Text.trim first.part.name, none, first.file.path, first.part.location⟩ := by
  have hname : t.enclosing.name = Text.trim first.part.name := by
    rw [EnclosingType.name, enclosing, EnclosingType.ofParts, Header.ofParts, MarkedType.parts,
      List.head?_cons, Option.map_some, Option.getD_some, h.first_eq]
  rw [rejection, hname, h.file_eq, h.first_eq]

end

/-! ## Strict and lenient runs -/

/-- The options with types rejected that are not partial. -/
def Options.strict (o : Options) : Options :=
  { o with requirePartial := true }

/-- The options without. -/
def Options.lenient (o : Options) : Options :=
  { o with requirePartial := false }

section

variable (options : Options) (model : SemanticModel) (t : MarkedType)

namespace MarkedType

theorem isRejected_lenient : t.isRejected options.lenient = false :=
  rfl

theorem isRejected_strict : t.isRejected options.strict = !t.enclosing.isPartial :=
  rfl

/-- A lenient run skips members only. -/
theorem contribution_lenient :
    t.contribution options.lenient model =
      ⟨if t.hasUnit options.lenient model then some (t.unit options.lenient model) else none,
        t.memberSkips options.lenient model⟩ := by
  have hunit := t.unit_contribution options.lenient model
  rw [← hunit, contribution, memberSkips, isRejected_lenient]
  rfl

/-- A strict run takes from a partial type what a lenient one takes from it, and from any other
type only that it was rejected. -/
theorem contribution_strict :
    t.contribution options.strict model =
      if t.enclosing.isPartial then t.contribution options.lenient model
      else .ofRejected t := by
  rw [contribution, isRejected_strict]
  cases t.enclosing.isPartial with
  | false => rfl
  | true => rfl

/-- The types with units in a strict run are the partial ones of those in a lenient run. -/
theorem hasUnit_strict :
    t.hasUnit options.strict model =
      (t.hasUnit options.lenient model && t.enclosing.isPartial) := by
  rw [hasUnit, hasUnit, isRejected_strict, isRejected_lenient, Bool.not_not, Bool.not_false,
    Bool.true_and, Bool.and_comm]
  rfl

end MarkedType

theorem unitTypes_strict (c : Compilation) :
    c.unitTypes options.strict model =
      (c.unitTypes options.lenient model).filter fun t => t.enclosing.isPartial := by
  rw [Compilation.unitTypes, Compilation.unitTypes, List.filter_filter]
  apply List.filter_congr
  intro t _
  rw [t.hasUnit_strict, Bool.and_comm]

end

/-! ## Units of both runs -/

/-- Of lists that go with each other, the elements that go with a kept element are kept. -/
theorem forall₂_filter_zip {α β : Type} {R : α → β → Prop} {xs : List α} {ys : List β}
    (h : List.Forall₂ R xs ys) (p : α → Bool) :
    List.Forall₂ R (xs.filter p) (((xs.zip ys).filter fun o => p o.1).map Prod.snd) := by
  induction h with
  | nil => exact .nil
  | @cons x y xs ys hhead _ ih =>
      rw [List.zip_cons_cons]
      by_cases hx : p x
      · rw [List.filter_cons_of_pos hx, List.filter_cons_of_pos (by exact hx), List.map_cons]
        exact .cons hhead ih
      · rw [List.filter_cons_of_neg hx, List.filter_cons_of_neg (by exact hx)]
        exact ih

/-- Two units that differ in the key, if in anything. -/
def CodeUnit.SameButKey (u v : CodeUnit) : Prop :=
  v = u.withKey v.key

section

variable {options : Options} {model : SemanticModel} {c : Compilation}

/-- The units of a report are those of the types, but for their keys. -/
theorem forall₂_sameButKey_units {report : Report}
    (h : (generate options model c).result = .ok report) :
    List.Forall₂ (fun t u => (t.unit options model).SameButKey u) (c.unitTypes options model)
      report.units := by
  apply (forall₂_unitTypes_units h).imp
  rintro t u ⟨key, rfl⟩
  rfl

/-- The units of a strict run are those of the lenient run whose types are partial, but for
their keys. -/
theorem forall₂_units_strict {lenient strict : Report}
    (hlenient : (generate options.lenient model c).result = .ok lenient)
    (hstrict : (generate options.strict model c).result = .ok strict) :
    List.Forall₂ CodeUnit.SameButKey
      ((((c.unitTypes options.lenient model).zip lenient.units).filter fun o =>
        o.1.enclosing.isPartial).map Prod.snd)
      strict.units := by
  have hkept := forall₂_filter_zip (forall₂_sameButKey_units hlenient) fun t =>
    t.enclosing.isPartial
  have hunits := forall₂_sameButKey_units hstrict
  rw [unitTypes_strict] at hunits
  apply (forall₂_of_common hkept hunits).imp
  rintro u v ⟨t, hu, hv⟩
  have hsame : t.unit options.strict model = t.unit options.lenient model := rfl
  rw [hsame] at hv
  rw [CodeUnit.SameButKey, hu]
  exact hv

end

/-! ## The two reports -/

/-- What a strict run reports, in terms of the lenient run.  Its units are those of the lenient
run whose types are declared partial throughout, but for their keys.  What it skips is what the
lenient run skips, except that all skips of a type that is not so declared are replaced, in its
place, by one entry about the type as a whole, in the file and at the location of its first
part.  Where names are regular, the types around a type are those of the parts around any of
its parts. -/
theorem strict_run_filters (options : Options) (model : SemanticModel) (c : Compilation) :
    (∃ lenient strict,
      (generate options.lenient model c).result = .ok lenient ∧
      (generate options.strict model c).result = .ok strict ∧
      List.Forall₂ (fun t u => (t.unit options.lenient model).SameButKey u)
        (c.unitTypes options.lenient model) lenient.units ∧
      List.Forall₂ CodeUnit.SameButKey
        ((((c.unitTypes options.lenient model).zip lenient.units).filter fun o =>
          o.1.enclosing.isPartial).map Prod.snd)
        strict.units ∧
      lenient.skipped = c.scan.flatMap (MarkedType.memberSkips options.lenient model) ∧
      strict.skipped = c.scan.flatMap fun t =>
        if t.enclosing.isPartial then t.memberSkips options.lenient model else [t.rejection]) ∧
    (∀ t ∈ c.scan, ∀ s ∈ t.memberSkips options.lenient model, s.member.isSome) ∧
    List.Forall₂
      (fun key t =>
        (t.enclosing.isPartial ↔ c.DeclaresPartial key) ∧
        ∃ first, (Site.partsUnder key c.sites).head? = some first ∧
          t.rejection = ⟨.notPartial, Text.trim first.part.name, none, first.file.path,
            first.part.location⟩)
      (Site.markedKeys c.sites) c.scan ∧
    (c.follows .withoutPlus → ∀ n ∈ c.nestedParts,
      (c.DeclaresPartial n.site.key ↔ ∀ o ∈ n.outer ++ [n.site],
        ∀ s ∈ Site.partsUnder o.key c.sites, s.part.declares "partial")) := by
  refine ⟨⟨_, _, result_generate _ _ _, result_generate _ _ _,
    forall₂_sameButKey_units (result_generate _ _ _),
    forall₂_units_strict (result_generate _ _ _) (result_generate _ _ _), ?_, ?_⟩, ?_, ?_, ?_⟩
  · simp only [Report.ofContributions, List.flatMap_map, MarkedType.contribution_lenient]
  · simp only [Report.ofContributions, List.flatMap_map, MarkedType.contribution_strict,
      MarkedType.contribution_lenient]
    congr 1
    funext t
    cases t.enclosing.isPartial with
    | false => rfl
    | true => rfl
  · intro t _ s hs
    rw [← t.filter_member_skipped] at hs
    exact (List.mem_filter.mp hs).2
  · apply (forall₂_outerKeys_scan c).imp
    rintro key t ⟨first, others, keys, hgathers, hkeys, hcontainers⟩
    exact ⟨isPartial_enclosing_iff hgathers hkeys hcontainers, first, hgathers.head?_partsUnder,
      hgathers.rejection_eq⟩
  · exact fun h n hn => declaresPartial_iff_of_mem_nestedParts h hn

end SceneWiring
