import Mathlib.Logic.Relation
import ScreenCompare.Proofs.Phase.Finish

/-!
# The outline of a forest of phases

Rows are written by following the lists of children from the phases without a
parent downwards.  In a forest this reaches every phase exactly once
(`IsForest.outline_perm`).  The phases below one phase stand together behind it
(`IsForest.exists_block`), and phases with the same parent stand in the order in
which that parent lists them (`IsForest.filter_outline_children`).  A row shows
how many steps it takes from its phase to one without a parent
(`IsForest.rows_eq`).
-/

namespace ScreenCompare.PhaseTree

variable {tree : PhaseTree} {fuel position : Nat}

/-- The inner phase is the outer one or lies below it. -/
def IsWithin (tree : PhaseTree) : (outer inner : Nat) → Prop :=
  Relation.ReflTransGen fun parent child => tree.parentOf? child = some parent

/-- A phase and everything below it, in the order of their rows. -/
def subtree (tree : PhaseTree) : (fuel position : Nat) → List Nat
  | 0, _ => []
  | fuel + 1, position =>
      position :: (tree.childrenOf position).flatMap (tree.subtree fuel)

/-- All phases in the order of their rows. -/
def outline (tree : PhaseTree) : List Nat :=
  tree.roots.flatMap (tree.subtree tree.phases.size)

/-- The number of steps from a phase up to one without a parent. -/
def depthFrom (tree : PhaseTree) : (fuel position : Nat) → Nat
  | 0, _ => 0
  | fuel + 1, position =>
      match tree.parentOf? position with
      | none => 0
      | some parent => tree.depthFrom fuel parent + 1

/--
The depth of a phase.  Parents come before their children, so it takes no more
steps than there are phases before this one.
-/
def depthOf (tree : PhaseTree) (position : Nat) : Nat :=
  tree.depthFrom position position

/-- The name of the phase at a position. -/
def nameOf (tree : PhaseTree) (position : Nat) : String :=
  (tree.phases.getD position default).name

/-- The row of the phase at a position. -/
def rowOf (tree : PhaseTree) (position : Nat) : PhaseRow where
  depth := tree.depthOf position
  name := tree.nameOf position

/-! ## Positions -/

theorem mem_roots_iff :
    position ∈ tree.roots ↔
      position < tree.phases.size ∧ tree.parentOf? position = none := by
  rw [roots, List.mem_filter, List.mem_range, parentOf?]
  refine and_congr_right fun inside => ?_
  rw [Array.getElem?_eq_getElem inside]
  exact Option.isNone_iff_eq_none

theorem IsWithin.lt_size {outer inner : Nat} (within : tree.IsWithin outer inner)
    (inside : outer < tree.phases.size) : inner < tree.phases.size := by
  rcases within.cases_tail with rfl | ⟨middle, -, linked⟩
  · exact inside
  · exact lt_size_of_parentOf? linked

theorem depthFrom_root (linked : tree.parentOf? position = none) :
    tree.depthFrom fuel position = 0 := by
  cases fuel with
  | zero => rfl
  | succ fuel => rw [depthFrom, linked]

theorem depthFrom_child {child parent : Nat}
    (linked : tree.parentOf? child = some parent) :
    tree.depthFrom (fuel + 1) child = tree.depthFrom fuel parent + 1 := by
  rw [depthFrom, linked]

theorem sublist_flatMap_subtree {positions : List Nat}
    (positive : ∀ position ∈ positions, 0 < fuel) :
    positions.Sublist (positions.flatMap (tree.subtree fuel)) := by
  induction positions with
  | nil => exact .slnil
  | cons position rest inductionHypothesis =>
      rw [List.forall_mem_cons] at positive
      obtain ⟨smaller, rfl⟩ := Nat.exists_eq_add_one.2 positive.1
      rw [List.flatMap_cons, subtree, List.cons_append]
      exact ((inductionHypothesis positive.2).trans
        (List.sublist_append_right ..)).cons_cons position

namespace IsForest

variable (forest : tree.IsForest)

include forest

theorem mem_childrenOf_iff {parent child : Nat} :
    child ∈ tree.childrenOf parent ↔ tree.parentOf? child = some parent := by
  rw [← List.count_pos_iff, forest.count_children]
  split
  case isTrue linked => exact iff_of_true Nat.zero_lt_one linked
  case isFalse apart => exact iff_of_false (Nat.lt_irrefl 0) apart

theorem le_of_isWithin {outer inner : Nat}
    (within : tree.IsWithin outer inner) : outer ≤ inner := by
  induction within with
  | refl => exact Nat.le_refl outer
  | tail _ linked inductionHypothesis =>
      have before := forest.parent_lt _ _ linked
      omega

theorem not_isWithin_parent {parent child : Nat}
    (linked : tree.parentOf? child = some parent) :
    ¬ tree.IsWithin child parent := by
  intro within
  have before := forest.parent_lt _ _ linked
  have after := forest.le_of_isWithin within
  omega

theorem eq_of_isWithin_sibling {first second : Nat}
    (siblings : tree.parentOf? first = tree.parentOf? second)
    (within : tree.IsWithin first second) : first = second := by
  rcases within.cases_tail with equal | ⟨parent, above, linked⟩
  · exact equal.symm
  · exact absurd above (forest.not_isWithin_parent (siblings.trans linked))

/--
Two phases under the same parent, or both without one, have no phase in common.
-/
theorem eq_of_isWithin {first second inner : Nat}
    (siblings : tree.parentOf? first = tree.parentOf? second)
    (withinFirst : tree.IsWithin first inner)
    (withinSecond : tree.IsWithin second inner) : first = second := by
  have single : Relator.RightUnique fun child parent =>
      tree.parentOf? child = some parent := by
    intro child parent other isParent isOther
    exact Option.some.inj (isParent.symm.trans isOther)
  -- Of two phases with a phase in common one lies within the other.
  rcases Relation.ReflTransGen.total_of_right_unique single
      (Relation.reflTransGen_swap.1 withinFirst)
      (Relation.reflTransGen_swap.1 withinSecond) with below | above
  · exact (forest.eq_of_isWithin_sibling siblings.symm
      (Relation.reflTransGen_swap.1 below)).symm
  · exact forest.eq_of_isWithin_sibling siblings
      (Relation.reflTransGen_swap.1 above)

/-! ## Subtrees -/

/-- One step down the tree costs one step of fuel, and the positions grow. -/
theorem enough_of_mem_childrenOf {child : Nat}
    (listed : child ∈ tree.childrenOf position)
    (enough : tree.phases.size ≤ fuel + 1 + position) :
    tree.parentOf? child = some position ∧ child < tree.phases.size ∧
      tree.phases.size ≤ fuel + child := by
  have linked := forest.mem_childrenOf_iff.1 listed
  have before := forest.parent_lt _ _ linked
  exact ⟨linked, lt_size_of_parentOf? linked, by omega⟩

/-- Fuel for the phases from a position on is enough for its subtree. -/
theorem mem_subtree_iff (inside : position < tree.phases.size)
    (enough : tree.phases.size ≤ fuel + position) {inner : Nat} :
    inner ∈ tree.subtree fuel position ↔ tree.IsWithin position inner := by
  induction fuel generalizing position with
  | zero => omega
  | succ fuel inductionHypothesis =>
      rw [subtree, List.mem_cons, List.mem_flatMap]
      constructor
      · rintro (rfl | ⟨child, listed, found⟩)
        · exact .refl
        · have ⟨linked, bound, room⟩ :=
            forest.enough_of_mem_childrenOf listed enough
          exact .head linked ((inductionHypothesis bound room).1 found)
      · intro within
        rcases within.cases_head with rfl | ⟨child, linked, rest⟩
        · exact .inl rfl
        · have listed := forest.mem_childrenOf_iff.2 linked
          have ⟨_, bound, room⟩ :=
            forest.enough_of_mem_childrenOf listed enough
          exact .inr ⟨child, listed, (inductionHypothesis bound room).2 rest⟩

theorem nodup_flatMap_subtree {positions : List Nat}
    (distinct : positions.Nodup)
    (siblings : ∀ first ∈ positions, ∀ second ∈ positions,
      tree.parentOf? first = tree.parentOf? second)
    (inside : ∀ position ∈ positions, position < tree.phases.size)
    (enough : ∀ position ∈ positions, tree.phases.size ≤ fuel + position)
    (each : ∀ position ∈ positions, (tree.subtree fuel position).Nodup) :
    (positions.flatMap (tree.subtree fuel)).Nodup := by
  refine List.nodup_flatMap.2
    ⟨each, distinct.imp_of_mem fun firstFound secondFound apart => ?_⟩
  intro inner inFirst inSecond
  rw [forest.mem_subtree_iff (inside _ firstFound) (enough _ firstFound)]
    at inFirst
  rw [forest.mem_subtree_iff (inside _ secondFound) (enough _ secondFound)]
    at inSecond
  exact apart (forest.eq_of_isWithin
    (siblings _ firstFound _ secondFound) inFirst inSecond)

theorem nodup_subtree (inside : position < tree.phases.size)
    (enough : tree.phases.size ≤ fuel + position) :
    (tree.subtree fuel position).Nodup := by
  induction fuel generalizing position with
  | zero => exact List.nodup_nil
  | succ fuel inductionHypothesis =>
      have children (child) (listed : child ∈ tree.childrenOf position) :=
        forest.enough_of_mem_childrenOf listed enough
      rw [subtree, List.nodup_cons]
      constructor
      · rw [List.mem_flatMap]
        rintro ⟨child, listed, again⟩
        have ⟨linked, bound, room⟩ := children child listed
        rw [forest.mem_subtree_iff bound room] at again
        exact forest.not_isWithin_parent linked again
      · refine forest.nodup_flatMap_subtree
          (forest.nodup_childrenOf position) ?_
          (fun child listed => (children child listed).2.1)
          (fun child listed => (children child listed).2.2)
          fun child listed => inductionHypothesis
            (children child listed).2.1 (children child listed).2.2
        intro first firstListed second secondListed
        rw [(children first firstListed).1, (children second secondListed).1]

/--
The subtree of a phase is a block of every subtree that the phase lies in.
-/
theorem exists_subtree_infix {outer inner : Nat}
    (within : tree.IsWithin outer inner) (inside : outer < tree.phases.size)
    (enough : tree.phases.size ≤ fuel + outer) :
    ∃ smaller, tree.phases.size ≤ smaller + inner ∧
      tree.subtree smaller inner <:+: tree.subtree fuel outer := by
  induction within with
  | refl => exact ⟨fuel, enough, List.infix_rfl⟩
  | tail above linked inductionHypothesis =>
      obtain ⟨larger, room, block⟩ := inductionHypothesis
      have bound := IsWithin.lt_size above inside
      obtain ⟨smaller, rfl⟩ : ∃ smaller, larger = smaller + 1 :=
        Nat.exists_eq_add_one.2 (by omega)
      have listed := forest.mem_childrenOf_iff.2 linked
      refine ⟨smaller, (forest.enough_of_mem_childrenOf listed room).2.2,
        List.IsInfix.trans ?_ block⟩
      rw [subtree, List.flatMap_def]
      exact List.infix_cons
        (List.infix_of_mem_flatten (List.mem_map_of_mem listed))

/-! ## All phases -/

theorem exists_root (inside : position < tree.phases.size) :
    ∃ root ∈ tree.roots, tree.IsWithin root position := by
  induction position using Nat.strongRecOn with
  | ind position inductionHypothesis =>
      cases linked : tree.parentOf? position with
      | none => exact ⟨position, mem_roots_iff.2 ⟨inside, linked⟩, .refl⟩
      | some parent =>
          have before := forest.parent_lt _ _ linked
          obtain ⟨root, found, within⟩ :=
            inductionHypothesis parent before (Nat.lt_trans before inside)
          exact ⟨root, found, .tail within linked⟩

theorem mem_outline_iff :
    position ∈ tree.outline ↔ position < tree.phases.size := by
  rw [outline, List.mem_flatMap]
  constructor
  · rintro ⟨root, found, below⟩
    have inside := (mem_roots_iff.1 found).1
    rw [forest.mem_subtree_iff inside (Nat.le_add_right _ _)] at below
    exact below.lt_size inside
  · intro inside
    obtain ⟨root, found, within⟩ := forest.exists_root inside
    refine ⟨root, found, ?_⟩
    rwa [forest.mem_subtree_iff (mem_roots_iff.1 found).1
      (Nat.le_add_right _ _)]

theorem nodup_outline : tree.outline.Nodup := by
  refine forest.nodup_flatMap_subtree (List.nodup_range.filter _) ?_
    (fun root found => (mem_roots_iff.1 found).1)
    (fun root _ => Nat.le_add_right _ _)
    fun root found => forest.nodup_subtree (mem_roots_iff.1 found).1
      (Nat.le_add_right _ _)
  intro first firstFound second secondFound
  rw [(mem_roots_iff.1 firstFound).2, (mem_roots_iff.1 secondFound).2]

/-- Every phase is reached exactly once. -/
theorem outline_perm : tree.outline.Perm (List.range tree.phases.size) := by
  rw [List.perm_ext_iff_of_nodup forest.nodup_outline List.nodup_range]
  intro position
  rw [forest.mem_outline_iff, List.mem_range]

theorem exists_subtree_infix_outline (inside : position < tree.phases.size) :
    ∃ fuel, tree.phases.size ≤ fuel + position ∧
      tree.subtree fuel position <:+: tree.outline := by
  obtain ⟨root, found, within⟩ := forest.exists_root inside
  obtain ⟨fuel, enough, block⟩ := forest.exists_subtree_infix within
    (mem_roots_iff.1 found).1 (Nat.le_add_right tree.phases.size root)
  rw [outline, List.flatMap_def]
  exact ⟨fuel, enough, block.trans
    (List.infix_of_mem_flatten (List.mem_map_of_mem found))⟩

/-- A phase and the phases below it stand together, the phase in front. -/
theorem exists_block (inside : position < tree.phases.size) :
    ∃ rest, position :: rest <:+: tree.outline ∧
      ∀ inner, inner ∈ position :: rest ↔ tree.IsWithin position inner := by
  obtain ⟨fuel, enough, block⟩ := forest.exists_subtree_infix_outline inside
  have members (inner : Nat) : inner ∈ tree.subtree fuel position ↔
      tree.IsWithin position inner :=
    forest.mem_subtree_iff inside enough
  obtain ⟨smaller, rfl⟩ : ∃ smaller, fuel = smaller + 1 :=
    Nat.exists_eq_add_one.2 (by omega)
  exact ⟨_, block, members⟩

/-- A phase stands behind its parent. -/
theorem parent_sublist_outline {parent child : Nat}
    (linked : tree.parentOf? child = some parent) :
    [parent, child].Sublist tree.outline := by
  have before := forest.parent_lt _ _ linked
  obtain ⟨rest, block, members⟩ :=
    forest.exists_block (Nat.lt_trans before (lt_size_of_parentOf? linked))
  have below := (members child).2 (.single linked)
  rw [List.mem_cons, or_iff_right (Nat.ne_of_gt before)] at below
  exact ((List.singleton_sublist.2 below).cons_cons parent).trans block.sublist

/-! ## Siblings -/

/--
Some phases in the order of their rows are what the outline keeps of them.
-/
theorem filter_outline_eq {group : List Nat} {holds : Nat → Bool}
    (ordered : group.Sublist tree.outline)
    (members : ∀ position, position ∈ group ↔
      position ∈ tree.outline ∧ holds position = true) :
    tree.outline.filter holds = group := by
  have distinct := forest.nodup_outline
  have kept : group.filter holds = group :=
    List.filter_eq_self.2 fun position found => ((members position).1 found).2
  have among : group.Sublist (tree.outline.filter holds) :=
    kept ▸ ordered.filter holds
  have same : group.Perm (tree.outline.filter holds) := by
    rw [List.perm_ext_iff_of_nodup (distinct.sublist ordered)
      (distinct.filter holds)]
    intro position
    rw [members, List.mem_filter]
  exact (among.eq_of_length same.length_eq).symm

/-- The children of a phase stand in the order in which it lists them. -/
theorem filter_outline_children (parent : Nat) :
    (tree.outline.filter fun child =>
        decide (tree.parentOf? child = some parent)) =
      tree.childrenOf parent := by
  refine forest.filter_outline_eq ?_ fun child => ?_
  · by_cases inside : parent < tree.phases.size
    · obtain ⟨fuel, enough, block⟩ :=
        forest.exists_subtree_infix_outline inside
      obtain ⟨smaller, rfl⟩ : ∃ smaller, fuel = smaller + 1 :=
        Nat.exists_eq_add_one.2 (by omega)
      rw [subtree] at block
      refine (sublist_flatMap_subtree fun child listed => ?_).trans
        ((List.sublist_cons_self parent _).trans block.sublist)
      have ⟨_, bound, room⟩ := forest.enough_of_mem_childrenOf listed enough
      omega
    · rw [childrenOf, Array.getElem?_eq_none (Nat.le_of_not_lt inside)]
      exact List.nil_sublist _
  · rw [forest.mem_childrenOf_iff, forest.mem_outline_iff,
      decide_eq_true_iff]
    exact (and_iff_right_of_imp lt_size_of_parentOf?).symm

/-- The phases without a parent stand in the order of their positions. -/
theorem filter_outline_roots :
    (tree.outline.filter fun root =>
        decide (tree.parentOf? root = none)) =
      tree.roots := by
  refine forest.filter_outline_eq ?_ fun root => ?_
  · exact sublist_flatMap_subtree fun root found =>
      Nat.zero_lt_of_lt (mem_roots_iff.1 found).1
  · rw [mem_roots_iff, forest.mem_outline_iff, decide_eq_true_iff]

/-! ## Rows -/

theorem depthFrom_eq {more : Nat} (enough : position ≤ fuel)
    (plenty : position ≤ more) :
    tree.depthFrom fuel position = tree.depthFrom more position := by
  induction position using Nat.strongRecOn generalizing fuel more with
  | ind position inductionHypothesis =>
      cases linked : tree.parentOf? position with
      | none => rw [depthFrom_root linked, depthFrom_root linked]
      | some parent =>
          have before := forest.parent_lt _ _ linked
          obtain ⟨fuel, rfl⟩ : ∃ smaller, fuel = smaller + 1 :=
            Nat.exists_eq_add_one.2 (by omega)
          obtain ⟨more, rfl⟩ : ∃ smaller, more = smaller + 1 :=
            Nat.exists_eq_add_one.2 (by omega)
          have same : tree.depthFrom fuel parent =
              tree.depthFrom more parent :=
            inductionHypothesis parent before (by omega) (by omega)
          rw [depthFrom_child linked, depthFrom_child linked, same]

theorem depthOf_child {parent child : Nat}
    (linked : tree.parentOf? child = some parent) :
    tree.depthOf child = tree.depthOf parent + 1 := by
  have before := forest.parent_lt _ _ linked
  obtain ⟨fuel, rfl⟩ : ∃ fuel, child = fuel + 1 :=
    Nat.exists_eq_add_one.2 (by omega)
  rw [depthOf, depthFrom_child linked, depthOf,
    forest.depthFrom_eq (by omega) (Nat.le_refl parent)]

theorem rowsFrom_eq (inside : position < tree.phases.size) :
    tree.rowsFrom fuel (tree.depthOf position) position =
      (tree.subtree fuel position).map tree.rowOf := by
  induction fuel generalizing position with
  | zero => rfl
  | succ fuel inductionHypothesis =>
      have found := Array.getElem?_eq_getElem inside
      have children : tree.childrenOf position =
          tree.phases[position].children := by
        rw [childrenOf, found]
        rfl
      have named : tree.nameOf position = tree.phases[position].name := by
        rw [nameOf, Array.getD_eq_getD_getElem?, found]
        rfl
      rw [rowsFrom, found, subtree, List.map_cons, List.map_flatMap, children,
        rowOf, named]
      dsimp only
      congr 1
      refine List.flatMap_congr fun child listed => ?_
      rw [← children, forest.mem_childrenOf_iff] at listed
      rw [← forest.depthOf_child listed,
        inductionHypothesis (lt_size_of_parentOf? listed)]

/-- The rows are those of the outline. -/
theorem rows_eq : tree.rows = tree.outline.map tree.rowOf := by
  rw [rows, outline, List.map_flatMap]
  refine List.flatMap_congr fun root found => ?_
  have ⟨inside, linked⟩ := mem_roots_iff.1 found
  rw [← forest.rowsFrom_eq inside, depthOf, depthFrom_root linked]

end IsForest

end ScreenCompare.PhaseTree
