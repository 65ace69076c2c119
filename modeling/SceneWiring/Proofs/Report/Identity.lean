import SceneWiring.Proofs.Header.Path
import SceneWiring.Proofs.Scan.Headers

/-!
# What tells types apart

In a compilation with allowed names, what a scan tells about a type makes up its key again, so
that no two types agree in all of it.  If names are identifiers, it is enough to compare the
paths of the namespaces and the qualified names, both of which stand in the unit of a type.

Main results:

- Definition `MarkedType.fullKey`: the key of a type from what a scan tells.
- Theorem `map_fullKey_scan`: these are the keys of the scanned types.
- Theorem `PartSite.path_eq_of_key_eq`: the parts of a type have one path.
- Theorem `fullKey_eq_of_qualifiedName_eq`: path and qualified name determine the key.
-/

namespace SceneWiring

/-! ## Keys of scanned types -/

/-- The names of the types around a type and its own name, outermost first. -/
def MarkedType.names (t : MarkedType) : List String :=
  t.enclosing.containers.map Header.name ++ [t.enclosing.name]

/-- The key of a type from what a scan tells about it. -/
def MarkedType.fullKey (t : MarkedType) : String :=
  typeKey t.namespaces t.names

/-- What the names of a scanned type are like. -/
structure MarkedType.Follows (n : Naming) (t : MarkedType) : Prop where
  names : ∀ name ∈ t.names, n.type name
  namespaces : ∀ name ∈ t.namespaces, n.scope name

/-- These are the names in the headers. -/
theorem MarkedType.names_eq_map (t : MarkedType) :
    t.names = (t.enclosing.containers ++ [t.enclosing.header]).map Header.name := by
  rw [List.map_append]
  rfl

/-- The names of a scanned type are those of the types around its first part and its own. -/
theorem MarkedType.HasHeaders.names_eq {n : Naming} (hn : n.ExcludesPlus) {c : Compilation}
    (h : c.follows n) {t : MarkedType} {first : PartSite} (hheaders : t.HasHeaders c first)
    (hfirst : first ∈ Site.partsIn c.sites) :
    t.names = first.inside.around.map OuterType.name := by
  have hfollows := Compilation.follows_of_mem_sites h _ (Site.mem_partsIn_iff.mp hfirst)
  rw [names_eq_map, hheaders.headers_eq, List.map_map]
  apply List.map_congr_left
  intro o ho
  exact Compilation.name_headerUnder hn h (hfollows.1.enterType hfollows.2) ho
    (c.grounded_sites.key_mem_keysIn_of_mem_inside hfirst ho)

/-- A scanned type tells its key, and its names are allowed. -/
theorem forall₂_fullKey_scan {n : Naming} (hn : n.ExcludesPlus) {c : Compilation}
    (h : c.follows n) :
    List.Forall₂ (fun key t => key = t.fullKey ∧ t.Follows n) (Site.markedKeys c.sites)
      c.scan := by
  apply (forall₂_headers_scan hn h).imp
  rintro key t ⟨first, others, hgathers, hheaders⟩
  rcases Site.mem_partsUnder_iff.mp hgathers.first_mem with ⟨hfirst, hkey⟩
  rcases Compilation.follows_of_mem_partsUnder h hgathers.first_mem with ⟨hfollows, hname⟩
  have hinside : first.inside.Follows n := hfollows.enterType hname
  have hnames := hheaders.names_eq hn h hfirst
  refine ⟨?_, ?_, ?_⟩
  · rw [MarkedType.fullKey, hnames, hgathers.namespaces_eq, ← hkey, PartSite.around_inside,
      List.map_append]
    rfl
  · intro name hmem
    rw [hnames] at hmem
    rcases List.mem_map.mp hmem with ⟨o, ho, rfl⟩
    exact hinside.types o ho
  · rw [hgathers.namespaces_eq]
    exact hfollows.namespaces

/-- The keys of the scanned types, from what the scan tells about them. -/
theorem map_fullKey_scan {n : Naming} (hn : n.ExcludesPlus) {c : Compilation}
    (h : c.follows n) : c.scan.map MarkedType.fullKey = Site.markedKeys c.sites := by
  rw [eq_comm, ← List.forall₂_eq_eq_eq, List.forall₂_map_right_iff]
  exact (forall₂_fullKey_scan hn h).imp fun _ _ h => h.1

/-- The names of scanned types are allowed. -/
theorem follows_of_mem_scan {n : Naming} (hn : n.ExcludesPlus) {c : Compilation}
    (h : c.follows n) : ∀ t ∈ c.scan, t.Follows n := by
  intro t ht
  rcases exists_of_mem_forall₂ (forall₂_fullKey_scan hn h) ht with ⟨key, -, hkey⟩
  exact hkey.2

/-! ## Identifiers -/

/-- What identifiers have in common.  The name of a type has no dot and no plus sign; that
of a namespace, which may be dotted, is not empty, has no blanks around it and no plus
sign. -/
def Naming.identifiers : Naming where
  scope name := !name.isEmpty && Text.trim name == name && !name.toList.contains '+'
  type name := !name.toList.contains '.' && !name.toList.contains '+'

theorem Naming.excludesPlus_identifiers : identifiers.ExcludesPlus where
  scope := by
    intro name hname
    simp only [identifiers, Bool.and_eq_true] at hname
    simpa using hname.2
  type := by
    intro name hname
    simp only [identifiers, Bool.and_eq_true] at hname
    simpa using hname.2

/-- The identifiers of namespaces are plain. -/
theorem Naming.isPlainName_of_identifiers {name : String} (h : identifiers.scope name) :
    IsPlainName name := by
  simp only [identifiers, Bool.and_eq_true, beq_iff_eq] at h
  exact ⟨by simpa using h.1.1, h.1.2⟩

/-- The path of namespaces whose names are identifiers joins them as they are. -/
theorem dottedPath_eq {names : List String}
    (h : ∀ name ∈ names, Naming.identifiers.scope name) :
    dottedPath names = ".".intercalate names :=
  dottedPath_eq_intercalate fun name hmem => Naming.isPlainName_of_identifiers (h name hmem)

/-- If names are identifiers, the parts of a type have one path and stand in types of the same
keys. -/
theorem PartSite.path_eq_of_key_eq {s s' : PartSite}
    (hs : s.place.Follows .identifiers ∧ Naming.identifiers.type (Text.trim s.part.name))
    (hs' : s'.place.Follows .identifiers ∧ Naming.identifiers.type (Text.trim s'.part.name))
    (hkey : s'.key = s.key) :
    dottedPath s'.place.namespaces = dottedPath s.place.namespaces ∧
      s'.inside.around.map OuterType.key = s.inside.around.map OuterType.key := by
  rcases keys_eq_of_key_eq Naming.excludesPlus_identifiers hs hs' hkey with ⟨-, hjoined, hkeys⟩
  refine ⟨?_, hkeys⟩
  rw [dottedPath_eq hs.1.namespaces, dottedPath_eq hs'.1.namespaces, hjoined]

/-- The path and the qualified name of a type whose names are identifiers determine its
key. -/
theorem fullKey_eq_of_qualifiedName_eq {t t' : MarkedType}
    (h : t.Follows .identifiers) (h' : t'.Follows .identifiers)
    (hpath : t.enclosing.path = t'.enclosing.path)
    (hname : t.enclosing.qualifiedName = t'.enclosing.qualifiedName) :
    t.fullKey = t'.fullKey := by
  have nodot : ∀ {t : MarkedType}, t.Follows .identifiers →
      ∀ name ∈ t.names, '.' ∉ name.toList := by
    intro t ht name hmem
    have hallowed := ht.names name hmem
    simp only [Naming.identifiers, Bool.and_eq_true] at hallowed
    simpa using hallowed.1
  have hjoin : ∀ t : MarkedType, t.enclosing.qualifiedName =
      (if t.enclosing.path.isEmpty then "" else t.enclosing.path ++ ".") ++
        ".".intercalate t.names := by
    intro t
    rw [EnclosingType.qualifiedName, MarkedType.names]
    split
    · simp
    · rw [List.append_assoc, List.singleton_append, String.intercalate_cons_of_ne_nil]
      simp
  have hnames : t.names = t'.names := by
    rw [hjoin, hjoin, hpath, String.append_right_inj] at hname
    exact eq_of_intercalate_eq (c := '.') rfl (nodot h) (nodot h') (by simp [MarkedType.names])
      (by simp [MarkedType.names]) hname
  have hjoined : ".".intercalate t.namespaces = ".".intercalate t'.namespaces := by
    rw [← dottedPath_eq h.namespaces, ← dottedPath_eq h'.namespaces]
    exact hpath
  rw [MarkedType.fullKey, MarkedType.fullKey, typeKey, typeKey, hjoined, hnames]

end SceneWiring
