import ScreenCompare.Proofs.Phase.Finished
import ScreenCompare.Proofs.Phase.Fork
import ScreenCompare.Proofs.Phase.Outline

/-!
# Reports list every phase once

Whatever has been recorded, a report finishes the tree, puts the children in
order and writes the rows along the lists of children.  Since the tree is a
forest, the rows are an outline of it: every phase has one row, and the rows of
the phases below it follow its own (`PhaseTree.IsForest.isOutline`).  Nothing is
left to do for another report (`Recording.report_outlines_phases`).
-/

namespace ScreenCompare

namespace PhaseTree

variable {tree : PhaseTree}

/-- The rows of a tree, as an order of its phases and their depths. -/
structure IsOutline (tree : PhaseTree) (order : List Nat)
    (depth : Nat → Nat) : Prop where
  /-- Every phase is listed exactly once. -/
  every : order.Perm (List.range tree.phases.size)
  /-- After the header there is one line for each phase. -/
  text : ∀ now, PhaseLog.report ⟨tree, now⟩ =
    String.join ((PhaseLog.header :: order.map fun position =>
      PhaseLog.line ⟨depth position, tree.nameOf position⟩).map (· ++ "\n"))
  /-- A line shows 29 blank columns, two blanks for each level, and the name. -/
  line : ∀ position ∈ order,
    (PhaseLog.line ⟨depth position, tree.nameOf position⟩).toList =
      List.replicate (29 + 2 * depth position) ' ' ++
        (tree.nameOf position).toList
  rows : tree.rows = order.map fun position =>
    ⟨depth position, tree.nameOf position⟩
  root : ∀ position, tree.parentOf? position = none → depth position = 0
  /-- A phase stands below its parent, one level deeper. -/
  child : ∀ parent child, tree.parentOf? child = some parent →
    depth child = depth parent + 1 ∧ [parent, child].Sublist order
  /-- A phase heads the block of the phases within it. -/
  block : ∀ position < tree.phases.size, ∃ rest,
    position :: rest <:+: order ∧
      ∀ inner, inner ∈ position :: rest ↔ tree.IsWithin position inner
  siblings : ∀ parent, (order.filter fun child =>
      decide (tree.parentOf? child = some parent)).Pairwise
    fun first second => tree.startOf first ≤ tree.startOf second
  roots : (order.filter fun position =>
    decide (tree.parentOf? position = none)).Pairwise (· < ·)

/-- With the children in order, the rows of a forest outline it. -/
theorem IsForest.isOutline (forest : tree.IsForest)
    (sorted : tree.sortChildren = tree) :
    tree.IsOutline tree.outline tree.depthOf where
  every := forest.outline_perm
  text now := by
    rw [PhaseLog.report, forest.rows_eq, List.map_map]
    rfl
  line _ _ := PhaseLog.toList_line _
  rows := forest.rows_eq
  root position linked := depthFrom_root linked
  child parent child linked :=
    ⟨forest.depthOf_child linked, forest.parent_sublist_outline linked⟩
  block position inside := forest.exists_block inside
  siblings parent := by
    rw [forest.filter_outline_children, ← sorted,
      forest.childrenOf_sortChildren, sorted]
    exact pairwise_orderedChildren _
  roots := by
    rw [forest.filter_outline_roots]
    exact List.pairwise_lt_range.filter _

end PhaseTree

namespace Recording

variable {clock : Nat → Nat} {recording : Recording}
  {operation : PhaseOperation} {operations : List PhaseOperation}

/--
Nothing but starting a phase changes a finished tree with children in order.
-/
theorem tree_perform_of_finished (finished : recording.tree.IsFinished)
    (sorted : recording.tree.sortChildren = recording.tree)
    (startless : operation.starts = 0) :
    (recording.perform clock operation).tree = recording.tree := by
  cases operation with
  | start name parent => cases startless
  | stop position => exact finished.stop _ _
  | finish => exact finished.finish _
  | report =>
      rw [perform, PhaseTree.reported, finished.finish]
      exact sorted

/-- A report that finds all children in order only finishes the tree. -/
theorem perform_report_of_pairwise
    (ordered : ∀ phase ∈
      (recording.tree.finish (recording.upcoming clock)).phases,
        phase.children.Nodup ∧ phase.children.Pairwise fun first second =>
          (recording.tree.finish (recording.upcoming clock)).startOf first ≤
            (recording.tree.finish (recording.upcoming clock)).startOf second) :
    recording.perform clock .report = recording.perform clock .finish := by
  rw [perform, perform, PhaseTree.reported,
    PhaseTree.sortChildren_of_pairwise ordered]

theorem tree_performAll_of_finished (finished : recording.tree.IsFinished)
    (sorted : recording.tree.sortChildren = recording.tree)
    (startless : PhaseOperation.started operations = 0) :
    (recording.performAll clock operations).tree = recording.tree := by
  induction operations generalizing recording with
  | nil => rfl
  | cons operation rest inductionHypothesis =>
      rw [PhaseOperation.started, Nat.add_eq_zero_iff] at startless
      have same : (recording.perform clock operation).tree = recording.tree :=
        tree_perform_of_finished finished sorted startless.1
      rw [← same] at finished sorted
      exact (inductionHypothesis finished sorted startless.2).trans same

/--
The report on a recording outlines the phases that have been started, whatever
the clock shows: each phase has one row, below that of its parent and one level
deeper, the phases within it follow in one block, siblings are ordered by their
starts and the phases without a parent by their positions.  As long as no phase
is started, another report shows the same tree.
-/
theorem report_outlines_phases
    (known : PhaseOperation.KnowParents 0 operations) :
    let tree := ((record clock operations).perform clock .report).tree
    tree.phases.size = PhaseOperation.started operations ∧
      (∃ order depth, tree.IsOutline order depth) ∧
      ∀ later, PhaseOperation.started later = 0 →
        let again := ((record clock (operations ++ .report :: later)).perform
          clock .report).tree
        again = tree ∧ again.rows = tree.rows := by
  intro tree
  have forest : (record clock operations).tree.IsForest :=
    isForest_performAll .empty known
  have finished : tree.IsFinished :=
    PhaseTree.isFinished_sortChildren (PhaseTree.isFinished_finish _ _)
  have sorted : tree.sortChildren = tree :=
    forest.finish.sortChildren_sortChildren
  refine ⟨?_, ⟨_, _, forest.finish.sortChildren.isOutline sorted⟩, ?_⟩
  · rw [size_perform, record, size_performAll]
    exact Nat.zero_add _
  · intro later startless again
    have kept : (record clock (operations ++ .report :: later)).tree =
        tree := by
      rw [record_append]
      exact tree_performAll_of_finished finished sorted startless
    have same : again = tree := by
      rw [← kept] at finished sorted
      exact (tree_perform_of_finished finished sorted rfl).trans kept
    exact ⟨same, congrArg PhaseTree.rows same⟩

/--
The loaders name no parent and are attached by a first report, to the stage that
they ran in.  Two more phases are started after it, and between the last two
reports there are only stops that come too late.
-/
theorem late_phases_are_outlined :
    let clock (reading : Nat) : Nat := reading / 2
    let operations : List PhaseOperation :=
      [.start "total" none, .start "gate" none, .start "load" (some 0),
        .start "load old" none, .stop 3, .start "load new" none, .stop 4,
        .stop 2, .stop 0, .report, .start "diff" (some 1), .start "draw" none]
    let later : List PhaseOperation := [.stop 6, .finish, .report, .stop 0]
    let tree := ((record clock operations).perform clock .report).tree
    let again := ((record clock (operations ++ .report :: later)).perform
      clock .report).tree
    PhaseOperation.KnowParents 0 operations ∧
      PhaseOperation.started later = 0 ∧
      (∃ order depth, tree.IsOutline order depth) ∧
      again = tree ∧
      again.rows =
        [⟨0, "total"⟩, ⟨1, "load"⟩, ⟨2, "load old"⟩, ⟨2, "load new"⟩,
          ⟨0, "gate"⟩, ⟨1, "diff"⟩, ⟨2, "draw"⟩] := by
  intro clock operations later tree again
  have known : PhaseOperation.KnowParents 0 operations := by decide
  have startless : PhaseOperation.started later = 0 := by decide
  have rows : tree.rows =
      [⟨0, "total"⟩, ⟨1, "load"⟩, ⟨2, "load old"⟩, ⟨2, "load new"⟩,
        ⟨0, "gate"⟩, ⟨1, "diff"⟩, ⟨2, "draw"⟩] := by
    -- Either report finds the children in order, so it only finishes the tree.
    let early := record clock [.start "total" none, .start "gate" none,
      .start "load" (some 0), .start "load old" none, .stop 3,
      .start "load new" none, .stop 4, .stop 2, .stop 0]
    let begun := ((early.perform clock .finish).perform clock
      (.start "diff" (some 1))).perform clock (.start "draw" none)
    have firstReport : early.perform clock .report =
        early.perform clock .finish :=
      perform_report_of_pairwise (by decide +kernel)
    have lastReport : begun.perform clock .report =
        begun.perform clock .finish :=
      perform_report_of_pairwise (by decide +kernel)
    have recorded : record clock operations = begun := by
      change ((early.perform clock .report).perform clock
        (.start "diff" (some 1))).perform clock (.start "draw" none) = begun
      rw [firstReport]
    have finished : tree = (begun.perform clock .finish).tree := by
      rw [← lastReport, ← recorded]
    rw [finished]
    decide +kernel
  obtain ⟨-, outlined, repeated⟩ := @report_outlines_phases clock _ known
  have same := repeated later startless
  exact ⟨known, startless, outlined, same.1, same.2.trans rows⟩

end Recording

end ScreenCompare
