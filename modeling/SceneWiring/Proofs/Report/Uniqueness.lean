import SceneWiring.Proofs.Report.Identity
import SceneWiring.Proofs.Report.Keys
import SceneWiring.Proofs.Report.Run

/-!
# When keys are unique

A type whose name no other type with a unit has keeps its name for its unit; the others go by
their qualified names with underscores for dots.  Underscores may stand in names as well, and
the new name may be one that another type keeps, so two units can still end up with one key.
If names are identifiers, that is the only way in which keys fail to be unique, and then a
unit is hidden by another one.

Main results:

- Definition `MarkedType.Clashes`: when two types end up with one name.
- Theorem `nodup_outputName_iff`: names are distinct exactly if no types clash.
- Theorem `nodup_key_of_not_mem_underscore`: without underscores, equal qualified names are
  the only danger.
- Theorem `keys_unique_iff`: keys are unique exactly if no types clash.
- Theorem `clashing_namespaces_share_key`: two types that clash.
-/

namespace SceneWiring

/-! ## Names of units -/

namespace MarkedType

/-- Whether another type of a list that contains a type has the same name. -/
def sharesName (ts : List MarkedType) (t : MarkedType) : Bool :=
  1 < ts.countP fun other => other.enclosing.name == t.enclosing.name

/-- The name under which the unit of a type is kept. -/
def outputName (ts : List MarkedType) (t : MarkedType) : String :=
  if t.sharesName ts then flatName t.enclosing.qualifiedName else t.enclosing.name

/-- A type shares its name, and its qualified name with underscores for dots is that under
which the unit of another type is kept. -/
def Clashes (ts : List MarkedType) (t t' : MarkedType) : Prop :=
  t.sharesName ts ∧ flatName t.enclosing.qualifiedName = t'.outputName ts

end MarkedType

instance (ts : List MarkedType) (t t' : MarkedType) : Decidable (t.Clashes ts t') :=
  inferInstanceAs (Decidable (_ ∧ _))

/-- No two types clash. -/
def NoClash (ts : List MarkedType) : Prop :=
  ts.Pairwise fun t t' => ¬ t.Clashes ts t' ∧ ¬ t'.Clashes ts t

instance (ts : List MarkedType) : Decidable (NoClash ts) :=
  inferInstanceAs (Decidable (ts.Pairwise _))

/-- Two types of the same name share it. -/
theorem pairwise_sharesName (ts : List MarkedType) :
    ts.Pairwise fun t t' => t.enclosing.name = t'.enclosing.name → t.sharesName ts := by
  rw [List.pairwise_iff_forall_sublist]
  intro t t' hsublist hname
  have hpair : [t, t'].countP (fun other => other.enclosing.name == t.enclosing.name) = 2 := by
    simp [hname]
  have hcount := hsublist.countP_le (p := fun other => other.enclosing.name == t.enclosing.name)
  rw [hpair] at hcount
  rw [MarkedType.sharesName, decide_eq_true_eq]
  omega

/-- The names under which units are kept are distinct exactly if no two types clash. -/
theorem nodup_outputName_iff (ts : List MarkedType) :
    (ts.map (MarkedType.outputName ts)).Nodup ↔ NoClash ts := by
  have hpair : ∀ t t' : MarkedType, (t.enclosing.name = t'.enclosing.name → t.sharesName ts) →
      (t.outputName ts ≠ t'.outputName ts ↔ ¬ t.Clashes ts t' ∧ ¬ t'.Clashes ts t) := by
    intro t t' hshares
    by_cases ht : t.sharesName ts
    · have hout : t.outputName ts = flatName t.enclosing.qualifiedName := if_pos ht
      have hleft : t.Clashes ts t' ↔ t.outputName ts = t'.outputName ts := by
        rw [MarkedType.Clashes, hout]
        exact and_iff_right ht
      have hright : t'.Clashes ts t → t.outputName ts = t'.outputName ts := by
        rintro ⟨ht', heq⟩
        rw [← heq]
        exact (if_pos ht').symm
      rw [hleft]
      exact ⟨fun h => ⟨h, fun hclash => h (hright hclash)⟩, And.left⟩
    · have hout : t.outputName ts = t.enclosing.name := if_neg ht
      have hleft : ¬ t.Clashes ts t' := fun h => ht h.1
      by_cases ht' : t'.sharesName ts
      · have hout' : t'.outputName ts = flatName t'.enclosing.qualifiedName := if_pos ht'
        have hright : t'.Clashes ts t ↔ t'.outputName ts = t.outputName ts := by
          rw [MarkedType.Clashes, hout']
          exact and_iff_right ht'
        rw [hright]
        exact ⟨fun h => ⟨hleft, fun hsame => h hsame.symm⟩, fun h hsame => h.2 hsame.symm⟩
      · have hout' : t'.outputName ts = t'.enclosing.name := if_neg ht'
        rw [hout, hout']
        exact ⟨fun _ => ⟨hleft, fun h => ht' h.1⟩, fun _ hname => ht (hshares hname)⟩
  rw [List.Nodup, List.pairwise_map, NoClash]
  constructor
  · intro h
    exact ((pairwise_sharesName ts).and h).imp fun ⟨hshares, hne⟩ => (hpair _ _ hshares).mp hne
  · intro h
    exact ((pairwise_sharesName ts).and h).imp fun ⟨hshares, hno⟩ => (hpair _ _ hshares).mpr hno

/-- Types do not clash if there are no underscores in their qualified names and no two of
these are equal. -/
theorem noClash_of_not_mem_underscore {ts : List MarkedType}
    (hname : ∀ t ∈ ts, '_' ∉ t.enclosing.qualifiedName.toList)
    (hdistinct : (ts.map fun t => t.enclosing.qualifiedName).Nodup) : NoClash ts := by
  have hno : ∀ t ∈ ts, ∀ t' ∈ ts, t.enclosing.qualifiedName ≠ t'.enclosing.qualifiedName →
      (t.enclosing.name = t'.enclosing.name → t'.sharesName ts) → ¬ t.Clashes ts t' := by
    rintro t ht t' ht' hne hshares ⟨-, hflat⟩
    by_cases hshared : t'.sharesName ts
    · have hout : t'.outputName ts = flatName t'.enclosing.qualifiedName := if_pos hshared
      rw [hout] at hflat
      apply hne
      rw [← String.toList_inj, ← map_toList_flatName (hname t ht), hflat,
        map_toList_flatName (hname t' ht')]
    · have hout : t'.outputName ts = t'.enclosing.name := if_neg hshared
      have hkept : '_' ∉ t'.enclosing.name.toList := by
        intro hmem
        apply hname t' ht'
        rcases qualifiedName_eq_name_or t'.enclosing with heq | ⟨outer, heq⟩
        · rwa [heq]
        · rw [heq, String.toList_append]
          exact List.mem_append_right _ hmem
      rw [hout] at hflat
      rw [← hflat] at hkept
      rcases flatName_eq_self hkept with ⟨hself, hdot⟩
      rcases qualifiedName_eq_name_or t.enclosing with heq | ⟨outer, heq⟩
      · rw [hself, heq] at hflat
        exact hshared (hshares hflat)
      · apply hdot
        rw [heq]
        simp
  have hpair := (pairwise_sharesName ts).and (List.pairwise_map.mp hdistinct)
  apply hpair.imp_of_mem
  rintro t t' ht ht' ⟨hshares, hne⟩
  have hsame : t.enclosing.name = t'.enclosing.name → t'.sharesName ts := by
    intro heq
    have hshared := hshares heq
    rwa [MarkedType.sharesName, heq] at hshared
  exact ⟨hno t ht t' ht' hne hsame, hno t' ht' t ht hne.symm fun heq => hshares heq.symm⟩

/-! ## Units of types -/

section

variable {options : Options} {model : SemanticModel}

/-- The keys that the units of types get. -/
theorem map_key_units (ts : List MarkedType) :
    (qualifyShared (ts.map (MarkedType.unit options model))).map CodeUnit.key =
      (ts.map (MarkedType.outputName ts)).map simpleKey := by
  have hcount : ∀ t : MarkedType,
      sharesKey (ts.map (MarkedType.unit options model)) (t.unit options model) =
        t.sharesName ts := by
    intro t
    have hsame : (ts.map (MarkedType.unit options model)).countP
        (fun other => other.key == (t.unit options model).key) =
          ts.countP fun other => other.enclosing.name == t.enclosing.name := by
      rw [List.countP_map]
      apply List.countP_congr
      intro other _
      rw [Function.comp_apply, beq_iff_eq, beq_iff_eq]
      exact simpleKey_inj
    rw [sharesKey, MarkedType.sharesName, hsame]
  rw [qualifyShared, List.map_map, List.map_map, List.map_map]
  apply List.map_congr_left
  intro t _
  simp only [Function.comp_apply, hcount, MarkedType.outputName]
  split
  · rfl
  · rfl

/-- The keys of a report are distinct exactly if no two types with units clash. -/
theorem nodup_key_iff {c : Compilation} {report : Report}
    (h : (generate options model c).result = .ok report) :
    (report.units.map CodeUnit.key).Nodup ↔ NoClash (c.unitTypes options model) := by
  rw [units_generate h, map_key_units, ← nodup_outputName_iff]
  exact List.nodup_map_iff fun _ _ heq => simpleKey_inj.mp heq

/-- The keys of a report are distinct if there are no underscores in the qualified names of
the types with units and no two of these are equal. -/
theorem nodup_key_of_not_mem_underscore {c : Compilation} {report : Report}
    (h : (generate options model c).result = .ok report)
    (hname : ∀ t ∈ c.unitTypes options model, '_' ∉ t.enclosing.qualifiedName.toList)
    (hdistinct : ((c.unitTypes options model).map fun t =>
      t.enclosing.qualifiedName).Nodup) :
    (report.units.map CodeUnit.key).Nodup :=
  (nodup_key_iff h).mpr (noClash_of_not_mem_underscore hname hdistinct)

/-- In a compilation whose names are identifiers, no two types have the same unit. -/
theorem nodup_units {c : Compilation} (h : c.follows .identifiers) :
    (qualifyShared ((c.unitTypes options model).map (MarkedType.unit options model))).Nodup := by
  apply List.Nodup.of_map (fun u : CodeUnit => (u.path, u.qualifiedName))
  have hfollows := follows_of_mem_scan Naming.excludesPlus_identifiers h
  have hkeys : (c.scan.map MarkedType.fullKey).Nodup := by
    rw [map_fullKey_scan Naming.excludesPlus_identifiers h]
    exact (Site.nodup_keysIn _).filter _
  have hsublist : (c.unitTypes options model).Sublist c.scan := List.filter_sublist
  rw [map_qualifyShared fun _ => rfl, List.map_map]
  apply List.Nodup.map_on _ (List.Nodup.of_map _ (hkeys.sublist (hsublist.map _)))
  intro t ht t' ht' heq
  rw [Function.comp_apply, Function.comp_apply, Prod.mk.injEq] at heq
  apply List.inj_on_of_nodup_map hkeys (hsublist.subset ht) (hsublist.subset ht')
  exact fullKey_eq_of_qualifiedName_eq (hfollows t (hsublist.subset ht))
    (hfollows t' (hsublist.subset ht')) heq.1 heq.2

end

/-! ## Reports -/

/-- In a compilation whose names are identifiers, the keys of the units are distinct exactly
if no two types with units clash.  The same goes for their files and for finding every
unit under its key. -/
theorem keys_unique_iff (options : Options) (model : SemanticModel) {c : Compilation}
    (h : c.follows .identifiers) :
    ∃ report, (generate options model c).result = .ok report ∧
      ((report.units.map CodeUnit.key).Nodup ↔ NoClash (c.unitTypes options model)) ∧
      ((report.units.map CodeUnit.fileName).Nodup ↔ NoClash (c.unitTypes options model)) ∧
      ((∀ u ∈ report.units, report.unit? u.key = some u) ↔
        NoClash (c.unitTypes options model)) := by
  obtain ⟨report, hreport⟩ : ∃ report, (generate options model c).result = .ok report :=
    ⟨_, result_generate options model c⟩
  have hkeys := nodup_key_iff hreport
  refine ⟨report, hreport, hkeys, ?_, ?_⟩
  · rw [nodup_fileName_iff]
    exact hkeys
  · rw [← hkeys]
    constructor
    · intro hfound
      have hnodup : report.units.Nodup := by
        rw [units_generate hreport]
        exact nodup_units h
      exact nodup_key_of_unit?_eq_self hnodup hfound
    · intro hnodup u hu
      exact unit?_eq_self hnodup hu

/-- A namespace with a type `X` that has a candidate. -/
def scopeWithDoor (name : String) : Decl :=
  .scope ⟨name, .unknown⟩
    [.type ⟨"X", ["partial"], [], .unknown⟩
      [.member (.field ⟨"Door", ["door"], [], [⟨"Get", []⟩], .unknown⟩)]]

/-- Two types of one name whose qualified names stay apart. -/
def distinctNamespaces : Compilation where
  files := [⟨"", [scopeWithDoor "A.B", scopeWithDoor "C"]⟩]

/-- Types of one name have units with keys of their own if their qualified names stay
apart. -/
theorem distinct_namespaces_keys_unique :
    distinctNamespaces.follows .identifiers ∧
      ∃ report, (generate .default .ofDeclarations distinctNamespaces).result = .ok report ∧
        (report.units.map CodeUnit.key).Nodup ∧
        ∀ u ∈ report.units, report.unit? u.key = some u := by
  have hnames : distinctNamespaces.follows .identifiers := by decide
  have hno : NoClash (distinctNamespaces.unitTypes .default .ofDeclarations) := by
    decide +kernel
  obtain ⟨report, hreport, hkeys, -, hfound⟩ :=
    keys_unique_iff .default .ofDeclarations hnames
  exact ⟨hnames, report, hreport, hkeys.mpr hno, hfound.mpr hno⟩

/-- Two types of one name whose qualified names differ by an underscore only. -/
def clashingNamespaces : Compilation where
  files := [⟨"", [scopeWithDoor "A.B", scopeWithDoor "A_B"]⟩]

/-- The types `A.B.X` and `A_B.X` end up with one key, which hides the unit of the second. -/
theorem clashing_namespaces_share_key :
    clashingNamespaces.follows .identifiers ∧
      ∃ report, (generate .default .ofDeclarations clashingNamespaces).result = .ok report ∧
        report.units.map CodeUnit.key = ["A_B_X_codegen", "A_B_X_codegen"] ∧
        ¬ (report.units.map CodeUnit.key).Nodup ∧
        ∃ u ∈ report.units, report.unit? u.key ≠ some u := by
  refine ⟨by decide, _, result_generate _ _ _, ?_, ?_, ?_⟩
  · decide +kernel
  · decide +kernel
  · decide +kernel

end SceneWiring
