import SceneWiring.Proofs.Scan.Grouping
import SceneWiring.Proofs.Scan.Naming

/-!
# The types around a type

An entry knows the type around its first part only by the position of that type's entry.
Every type is met before what stands in it, so the positions lead to earlier entries and at
last to a type outside all others.  If no name has a plus sign and no namespace stands inside
a type, the chain meets the types around the first part one by one.

Main results:

- Theorem `Site.Grounded.idxOf_lt`: a type is listed after the types around it.
- Definition `OuterKeys`: the types around a type.
- Theorem `exists_outerKeys`: the chain of entries is the chain of outer types.
- Theorem `OuterKeys.eq_around`: where names are regular, these stand around the first part.
- Theorems `forall₂_outerKeys_scan` and `forall₂_containers_scan`: the containers of the
  scanned types.
-/

namespace SceneWiring

/-! ## Order of the keys -/

/-- One more site moves no key. -/
theorem Site.keysIn_prefix_concat (sites : List Site) (site : Site) :
    keysIn sites <+: keysIn (sites ++ [site]) := by
  cases site with
  | member s =>
      rewrite [keysIn_concat_member]
      exact List.prefix_refl _
  | part s =>
      rw [keysIn_concat_part]
      split
      · exact List.prefix_refl _
      · exact List.prefix_append _ _

/-- The types around the first part of a type are listed before it. -/
theorem Site.Grounded.idxOf_lt {sites : List Site} (h : Site.Grounded sites) {key : String}
    {first : PartSite} (hfirst : (Site.partsUnder key sites).head? = some first) :
    ∀ t ∈ first.place.around,
      (Site.keysIn sites).idxOf t.key < (Site.keysIn sites).idxOf key := by
  induction h with
  | nil => simp [Site.partsUnder, Site.partsIn] at hfirst
  | @concat sites site before known ih =>
      intro t ht
      have hmore := Site.keysIn_prefix_concat sites site
      rw [Site.partsUnder_append, List.head?_append] at hfirst
      by_cases hkey : key ∈ Site.keysIn sites
      · rcases Site.exists_mem_partsUnder hkey with ⟨s, hmem⟩
        obtain ⟨s', hs'⟩ : ∃ s', (Site.partsUnder key sites).head? = some s' :=
          Option.isSome_iff_exists.mp (List.isSome_head?.mpr (List.ne_nil_of_mem hmem))
        rw [hs', Option.some_or, Option.some.injEq] at hfirst
        subst hfirst
        have hlt := ih hs' t ht
        have htkey : t.key ∈ Site.keysIn sites :=
          List.idxOf_lt_length_iff.mp
            (Nat.lt_trans hlt (List.idxOf_lt_length_iff.mpr hkey))
        rw [idxOf_eq_of_extension htkey hmore, idxOf_eq_of_extension hkey hmore]
        exact hlt
      · rw [Site.partsUnder_eq_nil hkey, List.head?_nil, Option.none_or] at hfirst
        cases site with
        | member s => simp at hfirst
        | part s =>
            rw [Site.partsUnder_part] at hfirst
            by_cases hs : s.key = key
            · rw [if_pos hs, List.head?_cons, Option.some.injEq] at hfirst
              subst hfirst
              have htkey := known t ht
              rw [idxOf_eq_of_extension htkey hmore, Site.keysIn_concat_part, hs,
                if_neg hkey, List.idxOf_append, if_neg hkey]
              exact Nat.lt_of_lt_of_le (List.idxOf_lt_length_iff.mpr htkey)
                (Nat.le_add_left _ _)
            · rw [if_neg hs] at hfirst
              simp at hfirst

/-! ## Places with the same key -/

section

variable {n : Naming} {p q : Place}

theorem Place.Follows.not_plus_mem_names (h : p.Follows n) (hn : n.ExcludesPlus) :
    ∀ name ∈ p.around.map OuterType.name, '+' ∉ name.toList := by
  intro name hname
  rcases List.mem_map.mp hname with ⟨t, ht, rfl⟩
  exact hn.type _ (h.types t ht)

/-- In the same namespaces, types of the same names have the same keys. -/
theorem Place.Follows.keys_eq (hp : p.Follows n) (hq : q.Follows n)
    (hjoined : ".".intercalate p.namespaces = ".".intercalate q.namespaces)
    {xs ys : List OuterType} (hxs : xs <+: p.around) (hys : ys <+: q.around)
    (hnames : xs.map OuterType.name = ys.map OuterType.name) :
    xs.map OuterType.key = ys.map OuterType.key := by
  induction xs using List.reverseRecOn generalizing ys with
  | nil =>
      rw [List.map_nil] at hnames
      rw [List.map_eq_nil_iff.mp hnames.symm]
  | append_singleton xs x ih =>
      rcases List.eq_nil_or_concat ys with rfl | ⟨ys, y, rfl⟩
      · simp at hnames
      rw [List.concat_eq_append] at hys hnames ⊢
      have hkey : x.key = y.key := by
        rw [hp.keys xs x hxs, hq.keys ys y hys, hnames, typeKey, typeKey, hjoined]
      rw [List.map_append, List.map_append] at hnames
      have hinit := (List.append_inj' hnames rfl).1
      rw [List.map_append, List.map_append, List.map_singleton, List.map_singleton, hkey,
        ih ((List.prefix_append _ _).trans hxs) ((List.prefix_append _ _).trans hys) hinit]

/-- A place and a type whose key is that of a type around another place, where names have
no plus signs. -/
theorem Place.Follows.of_keyOf_eq (hn : n.ExcludesPlus) (hp : p.Follows n) (hq : q.Follows n)
    {outer inner : List OuterType} {t : OuterType} (haround : p.around = outer ++ t :: inner)
    {name : String} (hname : n.type (Text.trim name)) (hkey : q.keyOf name = t.key) :
    Text.trim name = t.name ∧ q.around.map OuterType.key = outer.map OuterType.key := by
  have houter : outer <+: p.around := ⟨t :: inner, haround.symm⟩
  have ht : t ∈ p.around := by simp [haround]
  have hpnames : ∀ name ∈ outer.map OuterType.name ++ [t.name], '+' ∉ name.toList := by
    intro name hmem
    rcases List.mem_append.mp hmem with hmem | hmem
    · exact hp.not_plus_mem_names hn name ((houter.map _).subset hmem)
    · rw [List.mem_singleton.mp hmem]
      exact hn.type _ (hp.types t ht)
  have hqnames : ∀ name' ∈ q.around.map OuterType.name ++ [Text.trim name],
      '+' ∉ name'.toList := by
    intro name' hmem
    rcases List.mem_append.mp hmem with hmem | hmem
    · exact hq.not_plus_mem_names hn name' hmem
    · rw [List.mem_singleton.mp hmem]
      exact hn.type _ hname
  rw [hp.key_eq haround, Place.keyOf, typeKey_eq_iff
    (fun m hm => hn.scope m (hq.namespaces m hm)) (fun m hm => hn.scope m (hp.namespaces m hm))
    hqnames hpnames] at hkey
  rcases List.append_inj' hkey.2 rfl with ⟨hinit, hlast⟩
  rw [List.cons.injEq] at hlast
  exact ⟨hlast.1, hq.keys_eq hp hkey.1 (List.prefix_refl _) houter hinit⟩

end

/-! ## Types around a type -/

/-- The keys of the types around the type with a key, outermost first.  A type stands in
another one if its first part does. -/
inductive OuterKeys (sites : List Site) : String → List String → Prop
  | outermost {key : String} {first : PartSite}
      (first_eq : (Site.partsUnder key sites).head? = some first)
      (out : first.place.ownerKey? = none) : OuterKeys sites key []
  | inside {key : String} {first : PartSite} {owner : String} {keys : List String}
      (first_eq : (Site.partsUnder key sites).head? = some first)
      (owner_eq : first.place.ownerKey? = some owner)
      (around : OuterKeys sites owner keys) : OuterKeys sites key (keys ++ [owner])

namespace OuterKeys

variable {sites : List Site} {key : String} {keys keys' : List String}

theorem exists_first (h : OuterKeys sites key keys) :
    ∃ first, (Site.partsUnder key sites).head? = some first := by
  cases h with
  | outermost hfirst _ => exact ⟨_, hfirst⟩
  | inside hfirst _ _ => exact ⟨_, hfirst⟩

/-- The types around a type are determined. -/
theorem unique (h : OuterKeys sites key keys) (h' : OuterKeys sites key keys') : keys = keys' := by
  induction h generalizing keys' with
  | outermost hfirst hout =>
      cases h' with
      | outermost _ _ => rfl
      | inside hfirst' howner' _ =>
          rw [hfirst, Option.some.injEq] at hfirst'
          rw [← hfirst', hout] at howner'
          exact absurd howner' (by simp)
  | inside hfirst howner _ ih =>
      cases h' with
      | outermost hfirst' hout' =>
          rw [hfirst, Option.some.injEq] at hfirst'
          rw [← hfirst', howner] at hout'
          exact absurd hout' (by simp)
      | inside hfirst' howner' haround' =>
          rw [hfirst, Option.some.injEq] at hfirst'
          rw [← hfirst', howner, Option.some.injEq] at howner'
          subst howner'
          rw [ih haround']

end OuterKeys

/-! ## Chains of entries -/

section

variable {c : Compilation}

/-- The entry of a listed key stands at the position of the key. -/
theorem getElem?_entries_idxOf {key : String} (h : key ∈ Site.keysIn c.sites) :
    ∃ e, c.entries[(Site.keysIn c.sites).idxOf key]? = some e ∧ e.key = key := by
  have hget : (entryKeys c.entries)[(Site.keysIn c.sites).idxOf key]? = some key := by
    rw [entryKeys_entries]
    exact List.getElem?_idxOf h
  rw [entryKeys, List.getElem?_map, Option.map_eq_some_iff] at hget
  exact hget

/-- An entry stands at the position of its key. -/
theorem idxOf_key_of_getElem? {i : Nat} {e : Entry} (h : c.entries[i]? = some e) :
    (Site.keysIn c.sites).idxOf e.key = i := by
  rcases List.getElem?_eq_some_iff.mp h with ⟨hi, rfl⟩
  have hlength : i < (entryKeys c.entries).length := by simpa [entryKeys] using hi
  have hkey : (entryKeys c.entries)[i] = c.entries[i].key := by simp [entryKeys]
  rw [← entryKeys_entries, ← hkey]
  exact (nodup_entryKeys c).idxOf_getElem i hlength

/-- All parts of an entry. -/
theorem Entry.Gathers.all_parts {e : Entry} {first : PartSite} {others : List PartSite}
    (h : e.Gathers c.sites first others) :
    e.parts = (Site.partsUnder e.key c.sites).map PartSite.part := by
  rw [h.parts, List.map_cons, Entry.parts, h.first_eq, h.others_eq]

/-- The entries around an entry are those of the types around its type. -/
theorem exists_outerKeys {i : Nat} {e : Entry} (hget : c.entries[i]? = some e) :
    ∃ keys, OuterKeys c.sites e.key keys ∧
      containerChain c.entries i = keys.map fun key =>
        (Site.partsUnder key c.sites).map PartSite.part := by
  induction i using Nat.strongRecOn generalizing e with
  | ind i ih =>
      rcases (gathered_entries c).entry e (List.mem_of_getElem? hget) with
        ⟨first, others, hgathers⟩
      have hfirst : (Site.partsUnder e.key c.sites).head? = some first := by
        rw [hgathers.parts, List.head?_cons]
      rw [containerChain, hget]
      simp only [hgathers.parent_eq]
      rcases List.eq_nil_or_concat first.place.around with hnil | ⟨before, t, haround⟩
      · have hout : first.place.ownerKey? = none := by simp [Place.ownerKey?, hnil]
        rw [hout]
        exact ⟨[], .outermost hfirst hout, rfl⟩
      · rw [List.concat_eq_append] at haround
        have howner : first.place.ownerKey? = some t.key := by
          simp [Place.ownerKey?, haround]
        have hlt : (Site.keysIn c.sites).idxOf t.key < i := by
          rw [← idxOf_key_of_getElem? hget]
          exact c.grounded_sites.idxOf_lt hfirst t (by simp [haround])
        rcases getElem?_entries_idxOf (hgathers.parent_known t.key howner) with ⟨p, hp, hpkey⟩
        obtain ⟨first', others', hgathers'⟩ :=
          (gathered_entries c).entry p (List.mem_of_getElem? hp)
        rcases ih _ hlt hp with ⟨keys, hkeys, hchain⟩
        rw [hpkey] at hkeys
        refine ⟨keys ++ [t.key], .inside hfirst howner hkeys, ?_⟩
        rw [howner, Option.map_some]
        simp only
        rw [if_pos hlt, hchain, hp, Option.map_some, Option.toList_some, hgathers'.all_parts,
          hpkey, List.map_append, List.map_singleton]

/-- Where names are regular, the types around a type are those around its first part. -/
theorem OuterKeys.eq_around {n : Naming} (hn : n.ExcludesPlus) (h : c.follows n) {key : String}
    {keys : List String} (houter : OuterKeys c.sites key keys) {first : PartSite}
    (hfirst : (Site.partsUnder key c.sites).head? = some first) :
    keys = first.place.around.map OuterType.key := by
  induction houter generalizing first with
  | @outermost key first' hfirst' hout =>
      rw [hfirst', Option.some.injEq] at hfirst
      subst hfirst
      have hnil : first'.place.around = [] := by simpa [Place.ownerKey?] using hout
      rw [hnil, List.map_nil]
  | @inside key first' owner keys hfirst' howner houter ih =>
      rw [hfirst', Option.some.injEq] at hfirst
      subst hfirst
      rcases Option.map_eq_some_iff.mp howner with ⟨t, hlast, rfl⟩
      rcases List.getLast?_eq_some_iff.mp hlast with ⟨before, haround⟩
      rcases houter.exists_first with ⟨firstAround, hfirstAround⟩
      have hmem := List.mem_of_head? hfirstAround
      have hfollows := (Compilation.follows_of_mem_partsUnder h
        (List.mem_of_head? hfirst')).1
      rcases Compilation.follows_of_mem_partsUnder h hmem with ⟨hfollows', hname'⟩
      -- The first part of the outer type stands in types of the same keys as `before`.
      have hbefore : firstAround.place.around.map OuterType.key = before.map OuterType.key :=
        (hfollows.of_keyOf_eq hn hfollows' haround hname'
          (Site.mem_partsUnder_iff.mp hmem).2).2
      rw [ih hfirstAround, hbefore, haround, List.map_append, List.map_singleton]

end

/-! ## Scanned types -/

/-- The containers of a scanned type are the types around it, each with all of its parts. -/
theorem forall₂_outerKeys_scan (c : Compilation) :
    List.Forall₂
      (fun key t => ∃ first others keys, t.Gathers c.sites key first others ∧
        OuterKeys c.sites key keys ∧
        t.containers = keys.map fun key => (Site.partsUnder key c.sites).map PartSite.part)
      (Site.markedKeys c.sites) c.scan := by
  apply (forall₂_scan c).imp
  intro key t hlisted
  rcases hlisted.gathers with ⟨first, others, hgathers⟩
  rcases hlisted with ⟨e, he, rfl, rfl⟩
  rcases List.mem_iff_getElem?.mp he with ⟨i, hget⟩
  rcases exists_outerKeys hget with ⟨keys, hkeys, hchain⟩
  refine ⟨first, others, keys, hgathers, hkeys, ?_⟩
  rw [entryKeys_entries, idxOf_key_of_getElem? hget]
  exact hchain

/-- Where names are regular, these are the types around its first part. -/
theorem forall₂_containers_scan {n : Naming} (hn : n.ExcludesPlus) {c : Compilation}
    (h : c.follows n) :
    List.Forall₂
      (fun key t => ∃ first others, t.Gathers c.sites key first others ∧
        t.containers = (first.place.around.map OuterType.key).map fun key =>
          (Site.partsUnder key c.sites).map PartSite.part)
      (Site.markedKeys c.sites) c.scan := by
  apply (forall₂_outerKeys_scan c).imp
  rintro key t ⟨first, others, keys, hgathers, hkeys, hcontainers⟩
  exact ⟨first, others, hgathers, hkeys.eq_around hn h hgathers.head?_partsUnder ▸ hcontainers⟩

end SceneWiring
