import Mathlib.Data.List.Nodup
import ScreenCompare.Proofs.Phase.Tree

/-!
# What finishing a tree of phases does

Finishing stops what still runs and then attaches the phases without a parent,
each to the last phase before it whose time span contains its own
(`PhaseTree.container?_eq_some_iff`).  Attaching changes no time span, so the
order in which phases are attached does not matter, and the parents after
finishing can be told from the time spans alone (`PhaseTree.parentOf?_finish`).
A report orders the children on top of that.  A forest stays a forest all along.
-/

namespace ScreenCompare.PhaseTree

variable {time position : Nat} {tree before after : PhaseTree}

/-! ## The nearest container -/

/-- The start and the end of the phase at a position. -/
def spanOf? (tree : PhaseTree) (position : Nat) : Option (Nat × Nat) :=
  tree.phases[position]?.map fun phase => (phase.start, phase.stop)

/-- The time span of one phase contains that of another one. -/
def Contains (tree : PhaseTree) (outer inner : Nat) : Prop :=
  ∃ outerSpan innerSpan, tree.spanOf? outer = some outerSpan ∧
    tree.spanOf? inner = some innerSpan ∧
    outerSpan.1 ≤ innerSpan.1 ∧ innerSpan.2 ≤ outerSpan.2

theorem find?_reverse_range_eq_some_iff {count found : Nat}
    {holds : Nat → Bool} :
    (List.range count).reverse.find? holds = some found ↔
      found < count ∧ holds found = true ∧
        ∀ between, found < between → between < count →
          holds between = false := by
  induction count with
  | zero => simp
  | succ count inductionHypothesis =>
      rw [List.range_succ, List.reverse_append, List.reverse_singleton,
        List.singleton_append, List.find?_cons]
      cases last : holds count with
      | true =>
          simp only [Option.some.injEq]
          constructor
          · rintro rfl
            exact ⟨Nat.lt_succ_self _, last, fun _ above below =>
              absurd below (Nat.not_lt_of_le above)⟩
          · rintro ⟨bound, _, others⟩
            rcases Nat.lt_or_eq_of_le (Nat.le_of_lt_succ bound) with
              before | same
            · have missing := others count before (Nat.lt_succ_self _)
              rw [last] at missing
              cases missing
            · exact same.symm
      | false =>
          simp only [inductionHypothesis]
          constructor
          · rintro ⟨bound, here, others⟩
            refine ⟨by omega, here, fun between above below => ?_⟩
            by_cases atLast : between = count
            · rwa [atLast]
            · exact others between above (by omega)
          · rintro ⟨bound, here, others⟩
            have apart : found ≠ count := by
              rintro rfl
              rw [last] at here
              cases here
            exact ⟨by omega, here, fun between above below =>
              others between above (by omega)⟩

theorem container?_eq (tree : PhaseTree) (position : Nat) :
    tree.container? position =
      (tree.spanOf? position).bind fun inner =>
        (List.range position).reverse.find? fun earlier =>
          (tree.spanOf? earlier).any fun outer =>
            decide (outer.1 ≤ inner.1 ∧ inner.2 ≤ outer.2) := by
  rw [container?, spanOf?]
  cases tree.phases[position]? with
  | none => rfl
  | some inner =>
      rw [Option.map_some, Option.bind_some]
      dsimp only
      congr 1
      funext earlier
      rw [spanOf?]
      cases tree.phases[earlier]? with
      | none => rfl
      | some outer => rfl

theorem contains_iff_any {inner : Nat × Nat}
    (found : tree.spanOf? position = some inner) (earlier : Nat) :
    tree.Contains earlier position ↔
      ((tree.spanOf? earlier).any fun outer =>
        decide (outer.1 ≤ inner.1 ∧ inner.2 ≤ outer.2)) = true := by
  rw [Contains, found]
  cases tree.spanOf? earlier with
  | none => simp
  | some outer => simp

/--
The container of a phase is the last one before it whose time span contains that
of the phase.
-/
theorem container?_eq_some_iff {outer : Nat} :
    tree.container? position = some outer ↔
      outer < position ∧ tree.Contains outer position ∧
        ∀ between, outer < between → between < position →
          ¬ tree.Contains between position := by
  rw [container?_eq]
  cases found : tree.spanOf? position with
  | none => simp [Contains, found]
  | some inner =>
      rw [Option.bind_some, find?_reverse_range_eq_some_iff]
      simp only [contains_iff_any found, Bool.not_eq_true]

theorem container?_eq_none_iff :
    tree.container? position = none ↔
      ∀ earlier < position, ¬ tree.Contains earlier position := by
  rw [container?_eq]
  cases found : tree.spanOf? position with
  | none => simp [Contains, found]
  | some inner =>
      rw [Option.bind_some, List.find?_eq_none]
      simp only [contains_iff_any found, List.mem_reverse, List.mem_range]

/--
If an earlier phase contains a phase, the container is that one or a later one.
-/
theorem exists_container? {earlier : Nat} (order : earlier < position)
    (contains : tree.Contains earlier position) :
    ∃ outer, tree.container? position = some outer ∧ earlier ≤ outer ∧
      outer < position := by
  cases container : tree.container? position with
  | none =>
      exact absurd contains (container?_eq_none_iff.1 container earlier order)
  | some outer =>
      have ⟨bound, _, nearest⟩ := container?_eq_some_iff.1 container
      refine ⟨outer, rfl, ?_, bound⟩
      apply Nat.le_of_not_lt
      intro before
      exact nearest earlier before order contains

/-! ## Attaching a phase -/

/-- The phase that adopts the one at a position when that is attached. -/
def adopter? (tree : PhaseTree) (position : Nat) : Option Nat :=
  if (tree.parentOf? position).isSome then none else tree.container? position

theorem getElem?_addChild (parent child : Nat) :
    (tree.addChild parent child).phases[position]? =
      tree.phases[position]?.map fun phase =>
        if parent = position then
          { phase with children := phase.children ++ [child] }
        else phase := by
  rw [addChild, Array.getElem?_modify]
  split
  · rfl
  · rw [Option.map_id_fun', id]

theorem container?_of_none {place : Nat}
    (missing : tree.phases[place]? = none) : tree.container? place = none := by
  rw [container?, missing]

theorem adopter?_eq_some_iff {parent : Nat} :
    tree.adopter? position = some parent ↔
      tree.parentOf? position = none ∧
        tree.container? position = some parent := by
  rw [adopter?]
  cases tree.parentOf? position with
  | none => simp
  | some earlier => simp

theorem attach_of_adopter?_eq_none {place : Nat}
    (alone : tree.adopter? place = none) : tree.attach place = tree := by
  rw [adopter?, parentOf?] at alone
  rw [attach]
  cases found : tree.phases[place]? with
  | none => rfl
  | some phase =>
      rw [found, Option.bind_some] at alone
      dsimp only
      split
      · rfl
      · next single =>
          rw [if_neg single] at alone
          rw [alone]

theorem attach_of_adopter?_eq_some {place parent : Nat}
    (adopts : tree.adopter? place = some parent) :
    tree.attach place =
      addChild
        { phases := tree.phases.modify place fun phase =>
            { phase with parent := some parent } }
        parent place := by
  have ⟨single, container⟩ := adopter?_eq_some_iff.1 adopts
  rw [parentOf?] at single
  rw [attach]
  cases found : tree.phases[place]? with
  | none =>
      rw [container?_of_none found] at container
      cases container
  | some phase =>
      rw [found, Option.bind_some] at single
      simp [single, container]

/-- What attaching a phase does to every phase of the tree. -/
theorem getElem?_attach (place : Nat) :
    (tree.attach place).phases[position]? =
      tree.phases[position]?.map fun phase =>
        { phase with
          parent :=
            if position = place then phase.parent.or (tree.container? place)
            else phase.parent
          children :=
            if tree.adopter? place = some position then
              phase.children ++ [place]
            else phase.children } := by
  cases adopts : tree.adopter? place with
  | none =>
      rw [attach_of_adopter?_eq_none adopts]
      cases found : tree.phases[position]? with
      | none => rfl
      | some phase =>
          have kept : (if position = place then
              phase.parent.or (tree.container? place) else phase.parent) =
                phase.parent := by
            split
            · next here =>
                subst here
                rw [adopter?, parentOf?, found, Option.bind_some] at adopts
                cases own : phase.parent with
                | none =>
                    rw [own] at adopts
                    exact adopts
                | some parent => rfl
            · rfl
          simp [kept]
  | some parent =>
      rcases adopter?_eq_some_iff.1 adopts with ⟨single, container⟩
      rw [attach_of_adopter?_eq_some adopts, getElem?_addChild,
        Array.getElem?_modify]
      cases found : tree.phases[position]? with
      | none => simp
      | some phase =>
          by_cases here : place = position
          · subst here
            rw [parentOf?, found, Option.bind_some] at single
            by_cases adopter : parent = place <;>
              simp [single, container, adopter]
          · by_cases adopter : parent = position <;>
              simp [here, Ne.symm here, adopter]

theorem parentOf?_attach (place child : Nat) :
    (tree.attach place).parentOf? child =
      if child = place then
        (tree.parentOf? place).or (tree.container? place)
      else tree.parentOf? child := by
  rw [parentOf?, getElem?_attach, parentOf?, parentOf?]
  by_cases here : child = place
  · subst here
    rw [if_pos rfl]
    cases found : tree.phases[child]? with
    | none => rw [container?_of_none found]; rfl
    | some phase => simp
  · rw [if_neg here]
    cases tree.phases[child]? with
    | none => rfl
    | some phase => simp [here]

theorem childrenOf_attach (place parent : Nat) :
    (tree.attach place).childrenOf parent =
      if tree.adopter? place = some parent then
        tree.childrenOf parent ++ [place]
      else tree.childrenOf parent := by
  rw [childrenOf, getElem?_attach, childrenOf]
  cases found : tree.phases[parent]? with
  | none =>
      rw [if_neg]
      · rfl
      · intro adopted
        have container := (adopter?_eq_some_iff.1 adopted).2
        rcases container?_eq_some_iff.1 container with
          ⟨_, ⟨_, _, outer, _⟩, _⟩
        rw [spanOf?, found] at outer
        cases outer
  | some phase => rfl

theorem spanOf?_attach (place other : Nat) :
    (tree.attach place).spanOf? other = tree.spanOf? other := by
  rw [spanOf?, getElem?_attach, Option.map_map, spanOf?]
  rfl

theorem extends_attach (time place : Nat) :
    tree.Extends time (tree.attach place) := by
  refine Extends.of_map (fun _ => getElem?_attach place) fun position phase =>
    { Phase.Continues.refl time phase with parent := ?_ }
  intro parent found
  dsimp only
  split
  · rw [found, Option.some_or]
  · exact found

@[simp]
theorem size_attach (place : Nat) :
    (tree.attach place).phases.size = tree.phases.size := by
  cases adopts : tree.adopter? place with
  | none => rw [attach_of_adopter?_eq_none adopts]
  | some parent =>
      rw [attach_of_adopter?_eq_some adopts, addChild, Array.size_modify,
        Array.size_modify]

theorem IsForest.attach (forest : tree.IsForest) (place : Nat) :
    (tree.attach place).IsForest := by
  cases adopted : tree.adopter? place with
  | none =>
      rw [attach_of_adopter?_eq_none adopted]
      exact forest
  | some parent =>
      have ⟨single, container⟩ := adopter?_eq_some_iff.1 adopted
      refine forest.link (container?_eq_some_iff.1 container).1 single
        (fun other => ?_) (fun other => ?_)
      · rw [parentOf?_attach, single, container, Option.none_or]
      · rw [childrenOf_attach, adopted]
        simp only [Option.some.injEq, eq_comm]

/-! ## Finishing a tree -/

section Finish

variable {clock : Nat → Nat}

@[simp]
theorem size_stopAll (tree : PhaseTree) (clock : Nat → Nat) :
    (tree.stopAll clock).phases.size = tree.phases.size :=
  List.foldlRecOn (motive := fun stopped : PhaseTree =>
      stopped.phases.size = tree.phases.size) _ _ rfl
    fun _ same _ _ => (size_stop _).trans same

theorem extends_stopAll (order : ∀ reading, time ≤ clock reading) :
    tree.Extends time (tree.stopAll clock) :=
  List.foldlRecOn (motive := tree.Extends time) _ _ (.refl time tree)
    fun _ extension back _ => extension.trans (extends_stop (order back) _)

theorem parentOf?_stopAll (child : Nat) :
    (tree.stopAll clock).parentOf? child = tree.parentOf? child :=
  List.foldlRecOn (motive := fun stopped : PhaseTree =>
      stopped.parentOf? child = tree.parentOf? child) _ _ rfl
    fun _ same _ _ => (parentOf?_stop _ child).trans same

theorem IsForest.stopAll (forest : tree.IsForest) :
    (tree.stopAll clock).IsForest :=
  List.foldlRecOn (motive := IsForest) _ _ forest
    fun _ stopped _ _ => stopped.stop _

/-- The phases up to a position have been attached. -/
def attachBelow (tree : PhaseTree) (count : Nat) : PhaseTree :=
  (List.range count).foldl attach tree

theorem attachBelow_succ (count : Nat) :
    tree.attachBelow (count + 1) = (tree.attachBelow count).attach count := by
  rw [attachBelow, List.range_succ, List.foldl_append]
  rfl

@[simp]
theorem size_attachBelow (count : Nat) :
    (tree.attachBelow count).phases.size = tree.phases.size := by
  induction count with
  | zero => rfl
  | succ count inductionHypothesis =>
      rw [attachBelow_succ, size_attach, inductionHypothesis]

theorem extends_attachBelow (time count : Nat) :
    tree.Extends time (tree.attachBelow count) := by
  induction count with
  | zero => exact .refl time tree
  | succ count inductionHypothesis =>
      rw [attachBelow_succ]
      exact inductionHypothesis.trans (extends_attach time count)

theorem IsForest.attachBelow (forest : tree.IsForest) (count : Nat) :
    (tree.attachBelow count).IsForest := by
  induction count with
  | zero => exact forest
  | succ count inductionHypothesis =>
      rw [attachBelow_succ]
      exact inductionHypothesis.attach count

theorem spanOf?_attachBelow (count position : Nat) :
    (tree.attachBelow count).spanOf? position = tree.spanOf? position := by
  induction count with
  | zero => rfl
  | succ count inductionHypothesis =>
      rw [attachBelow_succ, spanOf?_attach, inductionHypothesis]

theorem container?_attachBelow (count position : Nat) :
    (tree.attachBelow count).container? position =
      tree.container? position := by
  simp only [container?_eq, spanOf?_attachBelow]

/-- Attaching a phase does not depend on what has been attached before it. -/
theorem parentOf?_attachBelow (count child : Nat) :
    (tree.attachBelow count).parentOf? child =
      if child < count then
        (tree.parentOf? child).or (tree.container? child)
      else tree.parentOf? child := by
  induction count with
  | zero => rfl
  | succ count inductionHypothesis =>
      rw [attachBelow_succ, parentOf?_attach, container?_attachBelow]
      by_cases here : child = count
      · subst here
        rw [if_pos rfl, inductionHypothesis, if_neg (Nat.lt_irrefl _),
          if_pos (Nat.lt_succ_self _)]
      · have same : child < count + 1 ↔ child < count := by omega
        rw [if_neg here, inductionHypothesis]
        simp only [same]

@[simp]
theorem size_finish (tree : PhaseTree) (clock : Nat → Nat) :
    (tree.finish clock).phases.size = tree.phases.size := by
  change ((tree.stopAll clock).attachBelow tree.phases.size).phases.size = _
  rw [size_attachBelow, size_stopAll]

theorem extends_finish (order : ∀ reading, time ≤ clock reading) :
    tree.Extends time (tree.finish clock) :=
  (extends_stopAll order).trans (extends_attachBelow time _)

theorem IsForest.finish (forest : tree.IsForest) :
    (tree.finish clock).IsForest :=
  forest.stopAll.attachBelow _

theorem spanOf?_finish (position : Nat) :
    (tree.finish clock).spanOf? position =
      (tree.stopAll clock).spanOf? position :=
  spanOf?_attachBelow _ _

theorem container?_finish (position : Nat) :
    (tree.finish clock).container? position =
      (tree.stopAll clock).container? position :=
  container?_attachBelow _ _

/--
Finishing gives the phases without a parent their containers for parents, as
time spans are when everything has been stopped.
-/
theorem parentOf?_finish (child : Nat) :
    (tree.finish clock).parentOf? child =
      (tree.parentOf? child).or ((tree.stopAll clock).container? child) := by
  change ((tree.stopAll clock).attachBelow tree.phases.size).parentOf? child = _
  rw [parentOf?_attachBelow, parentOf?_stopAll]
  split
  · rfl
  · next outside =>
      have missing : (tree.stopAll clock).phases[child]? = none := by
        rw [Array.getElem?_eq_none]
        simpa using outside
      rw [container?_of_none missing, Option.or_none]

end Finish

/-! ## Ordering children -/

theorem eraseRepsBy_loop_of_nodup {last : Nat} {rest : List Nat}
    (distinct : (last :: rest).Nodup) (collected : List Nat) :
    List.eraseRepsBy.loop (· == ·) last rest collected =
      collected.reverse ++ last :: rest := by
  induction rest generalizing last collected with
  | nil =>
      rw [List.eraseRepsBy.loop, List.reverse_cons]
  | cons entry rest inductionHypothesis =>
      have ⟨apart, others⟩ := List.nodup_cons.1 distinct
      have different : (last == entry) = false := by
        rw [beq_eq_false_iff_ne]
        exact fun same => apart (same ▸ List.mem_cons_self ..)
      rw [List.eraseRepsBy.loop, different]
      exact (inductionHypothesis others _).trans (by simp)

theorem eraseReps_of_nodup {entries : List Nat} (distinct : entries.Nodup) :
    entries.eraseReps = entries := by
  cases entries with
  | nil => rfl
  | cons entry rest => exact eraseRepsBy_loop_of_nodup distinct []

/-- The children of a phase in the order of their starts. -/
def orderedChildren (tree : PhaseTree) (children : List Nat) : List Nat :=
  children.mergeSort fun first second =>
    decide (tree.startOf first ≤ tree.startOf second)

theorem nodup_orderedChildren {children : List Nat}
    (distinct : children.Nodup) : (tree.orderedChildren children).Nodup :=
  (List.mergeSort_perm _ _).nodup_iff.2 distinct

theorem getElem?_sortChildren :
    tree.sortChildren.phases[position]? =
      tree.phases[position]?.map fun phase =>
        { phase with
          children := (tree.orderedChildren phase.children).eraseReps } :=
  Array.getElem?_map ..

theorem parentOf?_sortChildren (child : Nat) :
    tree.sortChildren.parentOf? child = tree.parentOf? child := by
  rw [parentOf?, getElem?_sortChildren, Option.bind_map, parentOf?]
  rfl

theorem childrenOf_sortChildren (parent : Nat) :
    tree.sortChildren.childrenOf parent =
      (tree.orderedChildren (tree.childrenOf parent)).eraseReps := by
  rw [childrenOf, getElem?_sortChildren, Option.map_map, childrenOf]
  cases tree.phases[parent]? with
  | none => simp [orderedChildren, List.eraseReps, List.eraseRepsBy]
  | some phase => rfl

theorem extends_sortChildren (time : Nat) :
    tree.Extends time tree.sortChildren :=
  Extends.of_map (fun _ => getElem?_sortChildren) fun _ phase =>
    { Phase.Continues.refl time phase with }

@[simp]
theorem size_sortChildren (tree : PhaseTree) :
    tree.sortChildren.phases.size = tree.phases.size :=
  Array.size_map ..

namespace IsForest

theorem nodup_childrenOf (forest : tree.IsForest) (parent : Nat) :
    (tree.childrenOf parent).Nodup := by
  rw [List.nodup_iff_count_le_one]
  intro child
  rw [forest.count_children]
  split
  · exact Nat.le_refl 1
  · exact Nat.zero_le 1

/-- In a forest, ordering the children erases none of them. -/
theorem childrenOf_sortChildren (forest : tree.IsForest) (parent : Nat) :
    tree.sortChildren.childrenOf parent =
      tree.orderedChildren (tree.childrenOf parent) := by
  rw [PhaseTree.childrenOf_sortChildren, eraseReps_of_nodup]
  exact nodup_orderedChildren (forest.nodup_childrenOf parent)

theorem sortChildren (forest : tree.IsForest) : tree.sortChildren.IsForest :=
  forest.of_perm parentOf?_sortChildren fun parent => by
    rw [forest.childrenOf_sortChildren]
    exact List.mergeSort_perm _ _

end IsForest

end ScreenCompare.PhaseTree
