import SceneWiring.Proofs.Scan.Site

/-!
# Compilations with regular names

Much of what is expected of a scan holds only if names are what a compiler lets through and
namespaces do not stand inside types.  A naming says which names are allowed; a compilation
follows it if all of its names are and no namespace stands inside a type.  Then the keys of
the types around a place are made of the namespaces around it and of their names.

Main results:

- Definition `Compilation.follows`: a compilation with allowed names only.
- Theorem `follows_of_mem_sites`: what that says about the places of its sites.
- Theorem `Place.Follows.key_eq`: the keys around a place from the names around it.
-/

namespace SceneWiring

/-! ## Namings -/

/-- Which names are allowed. -/
structure Naming where
  /-- For namespaces, as they are written. -/
  scope : String → Bool
  /-- For types, without the blanks around the name. -/
  type : String → Bool

/-- No name with a plus sign is allowed. -/
structure Naming.ExcludesPlus (n : Naming) : Prop where
  scope : ∀ name, n.scope name → '+' ∉ name.toList
  type : ∀ name, n.type name → '+' ∉ name.toList

mutual

/-- Whether a declaration has allowed names only and no namespace inside a type. -/
def Decl.follows (n : Naming) (inType : Bool) : Decl → Bool
  | .scope head members => !inType && n.scope head.name && Decl.allFollow n inType members
  | .type part members => n.type (Text.trim part.name) && Decl.allFollow n true members
  | .member _ => true
  | .directive _ => true
  | .unknown => true

/-- Whether declarations have allowed names only and no namespace inside a type. -/
def Decl.allFollow (n : Naming) (inType : Bool) : List Decl → Bool
  | [] => true
  | d :: ds => d.follows n inType && Decl.allFollow n inType ds

end

mutual

/-- A declaration that follows a naming follows every naming that allows more. -/
theorem Decl.follows_mono {n m : Naming} (hscope : ∀ name, n.scope name → m.scope name)
    (htype : ∀ name, n.type name → m.type name) :
    ∀ (d : Decl) (inType : Bool), d.follows n inType → d.follows m inType
  | .scope head members, inType, h => by
      rw [Decl.follows, Bool.and_eq_true, Bool.and_eq_true] at h ⊢
      exact ⟨⟨h.1.1, hscope _ h.1.2⟩, Decl.allFollow_mono hscope htype members inType h.2⟩
  | .type part members, inType, h => by
      rw [Decl.follows, Bool.and_eq_true] at h ⊢
      exact ⟨htype _ h.1, Decl.allFollow_mono hscope htype members true h.2⟩
  | .member _, _, _ => rfl
  | .directive _, _, _ => rfl
  | .unknown, _, _ => rfl

theorem Decl.allFollow_mono {n m : Naming} (hscope : ∀ name, n.scope name → m.scope name)
    (htype : ∀ name, n.type name → m.type name) :
    ∀ (ds : List Decl) (inType : Bool), Decl.allFollow n inType ds → Decl.allFollow m inType ds
  | [], _, _ => rfl
  | d :: ds, inType, h => by
      rw [Decl.allFollow, Bool.and_eq_true] at h ⊢
      exact ⟨Decl.follows_mono hscope htype d inType h.1,
        Decl.allFollow_mono hscope htype ds inType h.2⟩

end

/-- Whether a compilation has allowed names only and no namespace inside a type. -/
def Compilation.follows (n : Naming) (c : Compilation) : Bool :=
  c.files.all fun f => Decl.allFollow n false f.members

/-- A compilation that follows a naming follows every naming that allows more. -/
theorem Compilation.follows_mono {n m : Naming} (hscope : ∀ name, n.scope name → m.scope name)
    (htype : ∀ name, n.type name → m.type name) {c : Compilation} (h : c.follows n) :
    c.follows m := by
  rw [Compilation.follows, List.all_eq_true] at h ⊢
  exact fun f hf => Decl.allFollow_mono hscope htype f.members false (h f hf)

/-- The names without a plus sign. -/
def Naming.withoutPlus : Naming where
  scope name := !name.toList.contains '+'
  type name := !name.toList.contains '+'

theorem Naming.excludesPlus_withoutPlus : withoutPlus.ExcludesPlus where
  scope name hname := by simpa [withoutPlus] using hname
  type name hname := by simpa [withoutPlus] using hname

/-- A naming that excludes plus signs allows no more than all names without one. -/
theorem Compilation.follows_withoutPlus {n : Naming} (hn : n.ExcludesPlus) {c : Compilation}
    (h : c.follows n) : c.follows .withoutPlus := by
  apply Compilation.follows_mono _ _ h
  · intro name hname
    simpa [Naming.withoutPlus] using hn.scope name hname
  · intro name hname
    simpa [Naming.withoutPlus] using hn.type name hname

/-! ## Places -/

/-- What a place in a compilation with allowed names is like. -/
structure Place.Follows (n : Naming) (p : Place) : Prop where
  namespaces : ∀ name ∈ p.namespaces, n.scope name
  types : ∀ t ∈ p.around, n.type t.name
  /-- A type around the place stands in the same namespaces. -/
  keys : ∀ outer t, outer ++ [t] <+: p.around →
    t.key = typeKey p.namespaces ((outer ++ [t]).map OuterType.name)

namespace Place.Follows

variable {n : Naming} {p : Place}

theorem top (f : SourceFile) : (Place.top f).Follows n where
  namespaces := by simp [Place.top]
  types := by simp [Place.top]
  keys := by simp [Place.top]

/-- Outside all types, a namespace with an allowed name may be entered. -/
theorem enterScope (h : p.Follows n) (hout : p.around = []) {head : ScopeHead}
    (hname : n.scope head.name) : (p.enterScope head).Follows n where
  namespaces := by
    intro name hmem
    rcases List.mem_append.mp hmem with hmem | hmem
    · exact h.namespaces name hmem
    · rw [List.mem_singleton.mp hmem]
      exact hname
  types := h.types
  keys := by simp [hout]

/-- A type with an allowed name may be entered. -/
theorem enterType (h : p.Follows n) {part : TypePart} (hname : n.type (Text.trim part.name)) :
    (p.enterType part).Follows n where
  namespaces := h.namespaces
  types := by
    intro t ht
    rcases List.mem_append.mp ht with ht | ht
    · exact h.types t ht
    · rw [List.mem_singleton.mp ht]
      exact hname
  keys := by
    intro outer t houter
    rcases List.prefix_concat_iff.mp houter with heq | hbefore
    · rcases List.append_inj' heq rfl with ⟨rfl, ht⟩
      rw [List.cons.injEq] at ht
      rw [ht.1, List.map_append]
      rfl
    · exact h.keys outer t hbefore

/-- The keys of the types around a place, from the names around it. -/
theorem key_eq (h : p.Follows n) {outer inner : List OuterType} {t : OuterType}
    (haround : p.around = outer ++ t :: inner) :
    t.key = typeKey p.namespaces (outer.map OuterType.name ++ [t.name]) := by
  have hkey := h.keys outer t ⟨inner, by rw [haround, List.append_assoc, List.singleton_append]⟩
  rw [hkey, List.map_append, List.map_singleton]

end Place.Follows

/-! ## Sites -/

/-- What a site in a compilation with allowed names is like. -/
def Site.Follows (n : Naming) : Site → Prop
  | .part s => s.place.Follows n ∧ n.type (Text.trim s.part.name)
  | .member s => s.place.Follows n

mutual

theorem Decl.follows_sites {n : Naming} : ∀ (d : Decl) (p : Place), p.Follows n →
    d.follows n (!p.around.isEmpty) → ∀ s ∈ d.sites p, s.Follows n
  | .scope head members, p, hp, hd, s, hs => by
      simp only [Decl.follows, Bool.not_not, Bool.and_eq_true, List.isEmpty_iff] at hd
      rcases hd with ⟨⟨hout, hname⟩, hmembers⟩
      rw [Decl.sites] at hs
      exact Decl.follows_sitesAll members _ (hp.enterScope hout hname) hmembers s hs
  | .type part members, p, hp, hd, s, hs => by
      rw [Decl.follows, Bool.and_eq_true] at hd
      rw [Decl.sites, List.mem_cons] at hs
      rcases hs with rfl | hs
      · exact ⟨hp, hd.1⟩
      · have hinside : (!(p.enterType part).around.isEmpty) = true := by
          simp [Place.enterType]
        exact Decl.follows_sitesAll members _ (hp.enterType hd.1) (hinside ▸ hd.2) s hs
  | .member m, p, hp, hd, s, hs => by
      rw [Decl.sites, List.mem_singleton] at hs
      subst hs
      exact hp
  | .directive u, p, hp, hd, s, hs => by simp [Decl.sites] at hs
  | .unknown, p, hp, hd, s, hs => by simp [Decl.sites] at hs

theorem Decl.follows_sitesAll {n : Naming} : ∀ (ds : List Decl) (p : Place), p.Follows n →
    Decl.allFollow n (!p.around.isEmpty) ds → ∀ s ∈ Decl.sitesAll p ds, s.Follows n
  | [], p, hp, hds, s, hs => by simp [Decl.sitesAll] at hs
  | d :: ds, p, hp, hds, s, hs => by
      rw [Decl.allFollow, Bool.and_eq_true] at hds
      rw [Decl.sitesAll, List.mem_append] at hs
      rcases hs with hs | hs
      · exact Decl.follows_sites d p hp hds.1 s hs
      · exact Decl.follows_sitesAll ds p hp hds.2 s hs

end

/-- The sites of a compilation with allowed names stand at places with allowed names. -/
theorem Compilation.follows_of_mem_sites {n : Naming} {c : Compilation} (h : c.follows n) :
    ∀ s ∈ c.sites, s.Follows n := by
  intro s hs
  rcases List.mem_flatMap.mp hs with ⟨f, hf, hs⟩
  have hmembers := List.all_eq_true.mp h f hf
  exact Decl.follows_sitesAll f.members (.top f) (.top f) hmembers s hs

/-- So do the parts under a key. -/
theorem Compilation.follows_of_mem_partsUnder {n : Naming} {c : Compilation} (h : c.follows n)
    {key : String} {s : PartSite} (hs : s ∈ Site.partsUnder key c.sites) :
    s.place.Follows n ∧ n.type (Text.trim s.part.name) := by
  rcases Site.mem_partsUnder_iff.mp hs with ⟨hs, -⟩
  exact follows_of_mem_sites h _ (Site.mem_partsIn_iff.mp hs)

end SceneWiring
