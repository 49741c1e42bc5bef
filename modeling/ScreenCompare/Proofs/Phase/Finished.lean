import ScreenCompare.Proofs.Phase.Finish

/-!
# Finished trees

In a finished tree every phase is stopped, and a phase without a parent has no
container either (`PhaseTree.isFinished_finish`).  Such a tree has nothing left
to stop or to attach, so stopping phases and finishing leave it alone
(`PhaseTree.IsFinished.finish`).  Children that are in order stay in order, and
so a report leaves the tree of an earlier report alone as well
(`PhaseTree.IsForest.sortChildren_sortChildren`).
-/

namespace ScreenCompare.PhaseTree

variable {time position : Nat} {clock : Nat → Nat} {tree : PhaseTree}

theorem ext_phases {first second : PhaseTree}
    (same : ∀ position : Nat,
      first.phases[position]? = second.phases[position]?) :
    first = second := by
  cases first
  cases second
  exact congrArg PhaseTree.mk (Array.ext_getElem? same)

/-! ## Stopping everything -/

/-- The last phases have been stopped, the very last one first. -/
def stopLast (tree : PhaseTree) (clock : Nat → Nat) (count : Nat) :
    PhaseTree :=
  (List.range count).foldl
    (fun stopped back =>
      stopped.stop (clock back) (tree.phases.size - 1 - back))
    tree

theorem stopLast_succ (count : Nat) :
    tree.stopLast clock (count + 1) =
      (tree.stopLast clock count).stop (clock count)
        (tree.phases.size - 1 - count) := by
  rw [stopLast, List.range_succ, List.foldl_append]
  rfl

theorem getElem?_stopLast {count : Nat} (bound : count ≤ tree.phases.size) :
    (tree.stopLast clock count).phases[position]? =
      tree.phases[position]?.map fun phase =>
        if tree.phases.size - count ≤ position then
          phase.stopAt (clock (tree.phases.size - 1 - position))
        else phase := by
  induction count with
  | zero =>
      cases found : tree.phases[position]? with
      | none =>
          rw [Option.map_none]
          exact found
      | some phase =>
          have inside := (Array.getElem?_eq_some_iff.1 found).1
          rw [Option.map_some, if_neg (by omega)]
          exact found
  | succ count inductionHypothesis =>
      rw [stopLast_succ, getElem?_stop, inductionHypothesis (by omega),
        Option.map_map]
      congr 1
      funext phase
      rw [Function.comp_apply]
      by_cases here : tree.phases.size - 1 - count = position
      · have back : tree.phases.size - 1 - position = count := by omega
        rw [if_pos here, if_neg (by omega), if_pos (by omega), back]
      · rw [if_neg here]
        congr 1
        rw [eq_iff_iff]
        omega

/-- Stopping everything stops each phase by its own reading of the clock. -/
theorem getElem?_stopAll :
    (tree.stopAll clock).phases[position]? =
      tree.phases[position]?.map fun phase =>
        phase.stopAt (clock (tree.phases.size - 1 - position)) := by
  have stopped : (tree.stopLast clock tree.phases.size).phases[position]? = _ :=
    getElem?_stopLast (Nat.le_refl _)
  simp only [Nat.sub_self, Nat.zero_le, if_true] at stopped
  exact stopped

/-! ## Nothing left to do -/

/-- Every phase is stopped, and no phase is left to be attached. -/
structure IsFinished (tree : PhaseTree) : Prop where
  stopped : ∀ (position : Nat) (phase : Phase),
    tree.phases[position]? = some phase → phase.stopped = true
  attached : ∀ position, tree.adopter? position = none

namespace IsFinished

theorem stop (finished : tree.IsFinished) (time place : Nat) :
    tree.stop time place = tree := by
  apply ext_phases
  intro position
  rw [getElem?_stop]
  cases found : tree.phases[position]? with
  | none => rfl
  | some phase =>
      have stopped := finished.stopped position phase found
      rw [Option.map_some, Phase.stopAt_of_stopped stopped, ite_self]

theorem stopAll (finished : tree.IsFinished) (clock : Nat → Nat) :
    tree.stopAll clock = tree :=
  List.foldlRecOn (motive := fun stopped => stopped = tree) _ _ rfl
    fun _ same _ _ => same ▸ finished.stop _ _

theorem finish (finished : tree.IsFinished) (clock : Nat → Nat) :
    tree.finish clock = tree := by
  rw [PhaseTree.finish, finished.stopAll]
  refine List.foldlRecOn (motive := fun attached => attached = tree) _ _ rfl
    fun attached same place _ => ?_
  rw [same]
  exact attach_of_adopter?_eq_none (finished.attached place)

end IsFinished

theorem isFinished_finish (tree : PhaseTree) (clock : Nat → Nat) :
    (tree.finish clock).IsFinished where
  stopped position phase found := by
    have inside := (Array.getElem?_eq_some_iff.1 found).1
    rw [size_finish] at inside
    have stopped : (tree.stopAll clock).phases[position]? = _ :=
      getElem?_stopAll
    rw [Array.getElem?_eq_getElem inside, Option.map_some] at stopped
    obtain ⟨next, nextFound, continues⟩ :=
      extends_attachBelow 0 tree.phases.size position _ stopped
    obtain rfl := Option.some.inj (found.symm.trans nextFound)
    exact (continues.stopped (Phase.stopped_stopAt _ _)).1
  attached position := by
    rw [adopter?, parentOf?_finish, container?_finish]
    cases (tree.stopAll clock).container? position with
    | none => exact ite_self _
    | some outer =>
        rw [Option.isSome_or, Option.isSome_some, Bool.or_true]
        rfl

/-! ## Children in order -/

theorem startOf_sortChildren (position : Nat) :
    tree.sortChildren.startOf position = tree.startOf position := by
  rw [startOf, startOf, Array.getD_eq_getD_getElem?,
    Array.getD_eq_getD_getElem?, getElem?_sortChildren]
  cases tree.phases[position]? with
  | none => rfl
  | some phase => rfl

theorem pairwise_orderedChildren (children : List Nat) :
    (tree.orderedChildren children).Pairwise fun first second =>
      tree.startOf first ≤ tree.startOf second := by
  have transitive (first second third : Nat) :
      decide (tree.startOf first ≤ tree.startOf second) = true →
        decide (tree.startOf second ≤ tree.startOf third) = true →
          decide (tree.startOf first ≤ tree.startOf third) = true := by
    simp only [decide_eq_true_iff]
    exact Nat.le_trans
  have total (first second : Nat) :
      (decide (tree.startOf first ≤ tree.startOf second) ||
        decide (tree.startOf second ≤ tree.startOf first)) = true := by
    simp only [Bool.or_eq_true, decide_eq_true_iff]
    exact Nat.le_total _ _
  exact (List.pairwise_mergeSort transitive total children).imp
    of_decide_eq_true

/-- Children that are distinct and in order are left as they are. -/
theorem sortChildren_of_pairwise
    (ordered : ∀ phase ∈ tree.phases, phase.children.Nodup ∧
      phase.children.Pairwise fun first second =>
        tree.startOf first ≤ tree.startOf second) :
    tree.sortChildren = tree := by
  apply ext_phases
  intro position
  rw [getElem?_sortChildren]
  cases found : tree.phases[position]? with
  | none => rfl
  | some phase =>
      obtain ⟨distinct, inOrder⟩ := ordered phase (Array.mem_of_getElem? found)
      have same : tree.orderedChildren phase.children = phase.children :=
        List.mergeSort_of_pairwise (inOrder.imp decide_eq_true)
      rw [Option.map_some, same, eraseReps_of_nodup distinct]

/-- Ordering the children of a forest a second time changes nothing. -/
theorem IsForest.sortChildren_sortChildren (forest : tree.IsForest) :
    tree.sortChildren.sortChildren = tree.sortChildren := by
  apply sortChildren_of_pairwise
  intro phase member
  obtain ⟨position, found⟩ := Array.mem_iff_getElem?.1 member
  have children : tree.sortChildren.childrenOf position = phase.children := by
    rw [childrenOf, found, Option.map_some, Option.getD_some]
  rw [← children]
  refine ⟨forest.sortChildren.nodup_childrenOf position, ?_⟩
  rw [forest.childrenOf_sortChildren]
  simp only [startOf_sortChildren]
  exact pairwise_orderedChildren _

theorem isFinished_sortChildren (finished : tree.IsFinished) :
    tree.sortChildren.IsFinished where
  stopped position phase found := by
    rw [getElem?_sortChildren, Option.map_eq_some_iff] at found
    obtain ⟨unsorted, unsortedFound, rfl⟩ := found
    exact finished.stopped position unsorted unsortedFound
  attached position := by
    have spans (other : Nat) :
        tree.sortChildren.spanOf? other = tree.spanOf? other := by
      rw [spanOf?, getElem?_sortChildren, Option.map_map]
      rfl
    rw [← finished.attached position, adopter?, adopter?,
      parentOf?_sortChildren, container?_eq, container?_eq]
    simp only [spans]

end ScreenCompare.PhaseTree
