import SceneWiring.Declaration.Recording
import Mathlib.Data.List.Basic

/-!
# Positions in a compilation

A position is the way down to a file or a declaration: the number of the file, the number of a
declaration in it, and so on.  The order of the source is the lexicographic order of positions:
what stands earlier has the smaller position, and what has contents comes before these.

Main results:

- Definition `Compilation.trail?`: what stands at a position, and what stands around it.
- Definition `Compilation.placed`: all trails of a compilation with their positions.
- Theorem `Compilation.mem_placed_iff`: these are the trails with the positions that they lead to.
- Theorem `Compilation.pairwise_placed`: they are in the order of the source, each of them once.
-/

namespace SceneWiring

/-- What stands at a position of a compilation. -/
inductive Item
  | file (f : SourceFile)
  | decl (d : Decl)

/-- The declarations that stand directly in an item. -/
def Item.members : Item → List Decl
  | .file f => f.members
  | .decl (.scope _ members) => members
  | .decl (.type _ members) => members
  | .decl (.member _) => []
  | .decl (.directive _) => []
  | .decl .unknown => []

/-- An item and the items around it, the outermost first. -/
structure Trail where
  above : List Item
  item : Item

/-- A trail that starts one item further out. -/
def Trail.under (outer : Item) (t : Trail) : Trail :=
  { t with above := outer :: t.above }

/-- The trail to a position in an item, which itself stands at the empty position. -/
def Item.trail? : List Nat → Item → Option Trail
  | [], item => some ⟨[], item⟩
  | i :: position, item =>
    item.members[i]?.bind fun d => (Item.trail? position (.decl d)).map (Trail.under item)

/-- The trail to a position in a compilation. -/
def Compilation.trail? (c : Compilation) : List Nat → Option Trail
  | [] => none
  | i :: position => c.files[i]?.bind fun f => Item.trail? position (.file f)

/-! ## Trails in source order -/

/-- Trails with the positions that they lead to. -/
abbrev Placed :=
  List (List Nat × Trail)

namespace Placed

/-- Whether trails are in source order. -/
def InOrder (placed : Placed) : Prop :=
  placed.Pairwise fun x y => x.1 < y.1

/-- The trails of several trees one after the other: positions start with the number of the tree. -/
def number (trees : List Placed) : Placed :=
  (trees.mapIdx fun i tree => tree.map (Prod.map (i :: ·) id)).flatten

/-- An item and what stands in it, tree by tree. -/
def grow (item : Item) (trees : List Placed) : Placed :=
  ([], ⟨[], item⟩) :: (number trees).map (Prod.map id (Trail.under item))

end Placed

mutual

/-- The trails to a declaration and to all declarations in it. -/
def Decl.placed : Decl → Placed
  | .scope head members => Placed.grow (.decl (.scope head members)) (Decl.placedAll members)
  | .type part members => Placed.grow (.decl (.type part members)) (Decl.placedAll members)
  | .member m => Placed.grow (.decl (.member m)) []
  | .directive u => Placed.grow (.decl (.directive u)) []
  | .unknown => Placed.grow (.decl .unknown) []

/-- The same for each of several declarations. -/
def Decl.placedAll : List Decl → List Placed
  | [] => []
  | d :: ds => d.placed :: Decl.placedAll ds

end

/-- The trails to an item and to all declarations in it. -/
def Item.placed (item : Item) : Placed :=
  Placed.grow item (Decl.placedAll item.members)

/-- All trails of a compilation with their positions. -/
def Compilation.placed (c : Compilation) : Placed :=
  Placed.number (c.files.map fun f => (Item.file f).placed)

theorem Decl.placed_eq (d : Decl) : d.placed = (Item.decl d).placed := by
  cases d <;> rfl

theorem Decl.getElem?_placedAll (ds : List Decl) (i : Nat) :
    (Decl.placedAll ds)[i]? = ds[i]?.map Decl.placed := by
  induction ds generalizing i with
  | nil => rfl
  | cons d ds ih =>
      cases i with
      | zero => rfl
      | succ i => simpa [Decl.placedAll] using ih i

namespace Placed

variable {trees : List Placed} {item : Item} {t : Trail} {i : Nat} {position : List Nat}

/-- The first number of a position tells the tree. -/
theorem cons_mem_number_iff :
    (i :: position, t) ∈ number trees ↔ ∃ tree, trees[i]? = some tree ∧ (position, t) ∈ tree := by
  simp only [number, List.mem_flatten, List.mem_mapIdx]
  constructor
  · rintro ⟨_, ⟨j, hj, rfl⟩, hmem⟩
    rcases List.mem_map.mp hmem with ⟨⟨rest, found⟩, hfound, heq⟩
    rcases Prod.mk.inj heq with ⟨hposition, rfl⟩
    rcases List.cons.inj hposition with ⟨rfl, rfl⟩
    exact ⟨trees[j], List.getElem?_eq_getElem hj, hfound⟩
  · rintro ⟨tree, htree, hmem⟩
    rcases List.getElem?_eq_some_iff.mp htree with ⟨hi, rfl⟩
    exact ⟨_, ⟨i, hi, rfl⟩, List.mem_map.mpr ⟨(position, t), hmem, rfl⟩⟩

theorem nil_not_mem_number : ([], t) ∉ number trees := by
  simp [number, List.mem_mapIdx]

/-- At the empty position, there is the item itself. -/
theorem nil_mem_grow_iff : ([], t) ∈ grow item trees ↔ t = ⟨[], item⟩ := by
  rw [grow, List.mem_cons, or_iff_left]
  · simp
  · rw [List.mem_map]
    rintro ⟨⟨position, t'⟩, hmem, heq⟩
    obtain rfl : position = [] := congrArg Prod.fst heq
    exact nil_not_mem_number hmem

/-- At all other positions, there is what stands in the item. -/
theorem cons_mem_grow_iff :
    (i :: position, t) ∈ grow item trees ↔
      ∃ tree, trees[i]? = some tree ∧ ∃ t', (position, t') ∈ tree ∧ t'.under item = t := by
  rw [grow, List.mem_cons, or_iff_right (by simp), List.mem_map]
  constructor
  · rintro ⟨⟨_, t'⟩, hmem, heq⟩
    rcases Prod.mk.inj heq with ⟨rfl, rfl⟩
    rcases cons_mem_number_iff.mp hmem with ⟨tree, htree, hmem⟩
    exact ⟨tree, htree, t', hmem, rfl⟩
  · rintro ⟨tree, htree, t', hmem, rfl⟩
    exact ⟨(i :: position, t'), cons_mem_number_iff.mpr ⟨tree, htree, hmem⟩, rfl⟩

/-- Trees in source order are in source order one after the other. -/
theorem InOrder.number (h : ∀ tree ∈ trees, InOrder tree) : InOrder (number trees) := by
  rw [InOrder, Placed.number, List.pairwise_flatten]
  constructor
  · intro numbered hnumbered
    rcases List.mem_mapIdx.mp hnumbered with ⟨i, hi, rfl⟩
    rw [List.pairwise_map]
    exact (h _ (List.getElem_mem hi)).imp fun hlt => List.cons_lt_cons_self.mpr hlt
  · rw [List.pairwise_iff_getElem]
    intro i j hi hj hij x hx y hy
    rw [List.getElem_mapIdx] at hx hy
    rcases List.mem_map.mp hx with ⟨x', -, rfl⟩
    rcases List.mem_map.mp hy with ⟨y', -, rfl⟩
    exact List.cons_lt_cons_iff.mpr (Or.inl hij)

/-- An item comes before what stands in it. -/
theorem InOrder.grow (item : Item) (h : ∀ tree ∈ trees, InOrder tree) :
    InOrder (grow item trees) := by
  refine .cons ?_ (List.pairwise_map.mpr (InOrder.number h))
  intro y hy
  rcases List.mem_map.mp hy with ⟨⟨position, t⟩, hmem, rfl⟩
  cases position with
  | nil => exact absurd hmem nil_not_mem_number
  | cons i rest => exact List.nil_lt_cons i rest

/-- What depends on the trails only is listed tree by tree. -/
theorem flatMap_number {β : Type} (f : Trail → List β) (trees : List Placed) :
    (number trees).flatMap (fun x => f x.2) =
      trees.flatMap fun tree => tree.flatMap fun x => f x.2 := by
  -- The numbers of the trees do not matter, so that the induction can begin with any of them.
  have hnumbered : ∀ first : Nat → Nat,
      ((trees.mapIdx fun i tree => tree.map (Prod.map (first i :: ·) id)).flatten).flatMap
          (fun x => f x.2) =
        trees.flatMap fun tree => tree.flatMap fun x => f x.2 := by
    induction trees with
    | nil => exact fun _ => rfl
    | cons tree trees ih =>
        intro first
        rw [List.mapIdx_cons, List.flatten_cons, List.flatMap_append, ih fun i => first (i + 1),
          List.flatMap_map, List.flatMap_cons]
        rfl
  exact hnumbered id

theorem flatMap_grow {β : Type} (f : Trail → List β) (item : Item) (trees : List Placed) :
    (grow item trees).flatMap (fun x => f x.2) =
      f ⟨[], item⟩ ++ trees.flatMap fun tree => tree.flatMap fun x => f (x.2.under item) := by
  rw [grow, List.flatMap_cons, List.flatMap_map]
  exact congrArg (f ⟨[], item⟩ ++ ·) (flatMap_number (fun t => f (t.under item)) trees)

end Placed

mutual

/-- The declarations in a declaration are in source order. -/
theorem Decl.inOrder_placed : ∀ d : Decl, d.placed.InOrder
  | .scope _ members => .grow _ (Decl.inOrder_placedAll members)
  | .type _ members => .grow _ (Decl.inOrder_placedAll members)
  | .member _ => .grow _ (by simp)
  | .directive _ => .grow _ (by simp)
  | .unknown => .grow _ (by simp)

theorem Decl.inOrder_placedAll : ∀ ds : List Decl, ∀ tree ∈ Decl.placedAll ds, tree.InOrder
  | [], _, h => absurd h List.not_mem_nil
  | d :: ds, tree, h => by
      rcases List.mem_cons.mp h with rfl | h
      · exact Decl.inOrder_placed d
      · exact Decl.inOrder_placedAll ds tree h

end

/-- The declarations in an item stand at their positions in it. -/
theorem Item.mem_placed_iff {item : Item} {position : List Nat} {t : Trail} :
    (position, t) ∈ item.placed ↔ item.trail? position = some t := by
  induction position generalizing item t with
  | nil => rw [placed, Placed.nil_mem_grow_iff, trail?, Option.some.injEq, eq_comm]
  | cons i rest ih =>
      simp only [placed, Placed.cons_mem_grow_iff, Decl.getElem?_placedAll, trail?,
        Option.bind_eq_some_iff, Option.map_eq_some_iff]
      constructor
      · rintro ⟨_, ⟨d, hd, rfl⟩, t', hmem, ht⟩
        exact ⟨d, hd, t', ih.mp (d.placed_eq ▸ hmem), ht⟩
      · rintro ⟨d, hd, t', ht', ht⟩
        exact ⟨_, ⟨d, hd, rfl⟩, t', d.placed_eq ▸ ih.mpr ht', ht⟩

namespace Compilation

variable (c : Compilation)

/-- The trails of a compilation are in the order of the source, each at one position. -/
theorem pairwise_placed : (c.placed.map Prod.fst).Pairwise (· < ·) := by
  rw [List.pairwise_map]
  apply Placed.InOrder.number
  intro tree htree
  rcases List.mem_map.mp htree with ⟨f, -, rfl⟩
  exact .grow _ (Decl.inOrder_placedAll f.members)

/-- They are the trails to all positions that there are. -/
theorem mem_placed_iff {position : List Nat} {t : Trail} :
    (position, t) ∈ c.placed ↔ c.trail? position = some t := by
  cases position with
  | nil => simp [placed, trail?, Placed.nil_not_mem_number]
  | cons i rest =>
      simp [placed, trail?, Placed.cons_mem_number_iff, Item.mem_placed_iff,
        Option.bind_eq_some_iff]

end Compilation
end SceneWiring
