import ScreenCompare.Phase.Tree

/-!
# What operations do to a tree of phases

A phase once recorded keeps its name and its start, gets a parent at most once
and is stopped at most once (`Phase.Continues`).  The links go both ways: a phase
is listed among the children of its parent exactly once, and nowhere else
(`PhaseTree.IsForest`).  A phase that starts with a parent is linked to it at
once.
-/

namespace ScreenCompare

namespace Phase

/-! ## A phase over time -/

/--
What may become of a phase from a time on: it keeps its name, its start and its
parent, and if it is stopped, then only once and not before that time.
-/
structure Continues (time : Nat) (before after : Phase) : Prop where
  name : after.name = before.name
  start : after.start = before.start
  parent : ∀ parent, before.parent = some parent → after.parent = some parent
  stopped : before.stopped = true →
    after.stopped = true ∧ after.stop = before.stop
  stops : before.stopped = false → after.stopped = true → time ≤ after.stop

namespace Continues

variable {time : Nat} {first second third : Phase}

theorem refl (time : Nat) (phase : Phase) : phase.Continues time phase where
  name := rfl
  start := rfl
  parent _ found := found
  stopped stopped := ⟨stopped, rfl⟩
  stops running stopped := by
    rw [running] at stopped
    cases stopped

theorem trans (left : first.Continues time second)
    (right : second.Continues time third) : first.Continues time third where
  name := right.name.trans left.name
  start := right.start.trans left.start
  parent parent found := right.parent parent (left.parent parent found)
  stopped stopped := by
    have ⟨still, same⟩ := right.stopped (left.stopped stopped).1
    exact ⟨still, same.trans (left.stopped stopped).2⟩
  stops running stopped := by
    cases middle : second.stopped with
    | false => exact right.stops middle stopped
    | true =>
        rw [(right.stopped middle).2]
        exact left.stops running middle

theorem mono {earlier : Nat} (order : earlier ≤ time)
    (continues : first.Continues time second) :
    first.Continues earlier second :=
  { continues with
    stops := fun running stopped =>
      Nat.le_trans order (continues.stops running stopped) }

theorem stopAt {clock : Nat} (order : time ≤ clock) (phase : Phase) :
    phase.Continues time (phase.stopAt clock) := by
  rw [Phase.stopAt]
  split
  · exact refl time phase
  · next running =>
      exact
        { name := rfl
          start := rfl
          parent := fun _ found => found
          stopped := fun stopped => absurd stopped running
          stops := fun _ _ => order }

end Continues

/-! ## Stopping a phase -/

variable {time : Nat} {phase : Phase}

theorem stopped_stopAt (phase : Phase) (time : Nat) :
    (phase.stopAt time).stopped = true := by
  rw [stopAt]
  split
  · assumption
  · rfl

theorem stopAt_of_stopped (stopped : phase.stopped = true) :
    phase.stopAt time = phase :=
  if_pos stopped

end Phase

namespace PhaseTree

variable {time position : Nat} {tree before after : PhaseTree}

/-- All phases of a tree continue in another one. -/
def Extends (time : Nat) (before after : PhaseTree) : Prop :=
  ∀ (position : Nat) (phase : Phase), before.phases[position]? = some phase →
    ∃ next, after.phases[position]? = some next ∧ phase.Continues time next

namespace Extends

theorem refl (time : Nat) (tree : PhaseTree) : tree.Extends time tree :=
  fun _ phase found => ⟨phase, found, .refl time phase⟩

theorem trans {first second third : PhaseTree}
    (left : first.Extends time second) (right : second.Extends time third) :
    first.Extends time third := by
  intro position phase found
  rcases left position phase found with ⟨middle, middleFound, leftContinues⟩
  rcases right position middle middleFound with ⟨next, nextFound, continues⟩
  exact ⟨next, nextFound, leftContinues.trans continues⟩

theorem mono {earlier : Nat} (order : earlier ≤ time)
    (extension : before.Extends time after) : before.Extends earlier after := by
  intro position phase found
  rcases extension position phase found with ⟨next, nextFound, continues⟩
  exact ⟨next, nextFound, continues.mono order⟩

/-- A tree is extended by changes at some positions that its phases survive. -/
theorem of_map {change : Nat → Phase → Phase}
    (changed : ∀ position : Nat, after.phases[position]? =
      before.phases[position]?.map (change position))
    (continues : ∀ position (phase : Phase),
      phase.Continues time (change position phase)) :
    before.Extends time after := by
  intro position phase found
  refine ⟨change position phase, ?_, continues position phase⟩
  rw [changed, found, Option.map_some]

end Extends

/-! ## The links of a tree -/

/-- The parent of the phase at a position. -/
def parentOf? (tree : PhaseTree) (position : Nat) : Option Nat :=
  tree.phases[position]?.bind Phase.parent

/-- The children of the phase at a position. -/
def childrenOf (tree : PhaseTree) (position : Nat) : List Nat :=
  (tree.phases[position]?.map Phase.children).getD []

theorem lt_size_of_parentOf? {child parent : Nat}
    (linked : tree.parentOf? child = some parent) :
    child < tree.phases.size := by
  rw [parentOf?, Option.bind_eq_some_iff] at linked
  obtain ⟨phase, found, -⟩ := linked
  exact (Array.getElem?_eq_some_iff.1 found).1

/--
Parents come before their children, and a phase is listed exactly once among the
children of its parent and nowhere else.
-/
structure IsForest (tree : PhaseTree) : Prop where
  parent_lt : ∀ child parent,
    tree.parentOf? child = some parent → parent < child
  count_children : ∀ parent child, (tree.childrenOf parent).count child =
    if tree.parentOf? child = some parent then 1 else 0

namespace IsForest

theorem empty : empty.IsForest where
  parent_lt _ _ found := by cases found
  count_children _ _ := rfl

/--
A tree stays a forest if all parents stay and no list of children gains or loses
any.
-/
theorem of_perm (forest : before.IsForest)
    (parents : ∀ child, after.parentOf? child = before.parentOf? child)
    (children : ∀ parent,
      (after.childrenOf parent).Perm (before.childrenOf parent)) :
    after.IsForest where
  parent_lt child parent found :=
    forest.parent_lt child parent (parents child ▸ found)
  count_children parent child := by
    rw [(children parent).count_eq, parents, forest.count_children]

/--
A tree stays a forest if a phase without a parent is linked to an earlier one.
-/
theorem link {parent child : Nat} (forest : before.IsForest)
    (order : parent < child) (single : before.parentOf? child = none)
    (parents : ∀ other, after.parentOf? other =
      if other = child then some parent else before.parentOf? other)
    (children : ∀ other, after.childrenOf other =
      if other = parent then before.childrenOf other ++ [child]
      else before.childrenOf other) : after.IsForest where
  parent_lt other found otherParent := by
    rw [parents] at otherParent
    split at otherParent
    · next here =>
        rw [here, ← Option.some.inj otherParent]
        exact order
    · exact forest.parent_lt other found otherParent
  count_children other otherChild := by
    have counted := forest.count_children other otherChild
    rw [parents, children]
    by_cases sameChild : otherChild = child
    · subst sameChild
      rw [single] at counted
      by_cases sameParent : other = parent
      · simpa [sameParent] using counted
      · simpa [sameParent, Ne.symm sameParent] using counted
    · by_cases sameParent : other = parent
      · simpa [sameChild, sameParent, List.count_singleton,
          Ne.symm sameChild] using counted
      · simpa [sameChild, sameParent] using counted

end IsForest

/-! ## Starting a phase -/

section Start

variable {name : String} {parent : Option Nat}
  (known : ∀ earlier, parent = some earlier → earlier < tree.phases.size)

include known

theorem getElem?_start :
    (tree.start time name parent).phases[position]? =
      if position = tree.phases.size then
        some { name, parent, children := [], start := time, stop := 0
               stopped := false }
      else
        tree.phases[position]?.map fun phase =>
          if parent = some position then
            { phase with children := phase.children ++ [tree.phases.size] }
          else phase := by
  cases parent with
  | none =>
      rw [start, Array.getElem?_push]
      simp
  | some earlier =>
      have bound := known earlier rfl
      simp only [start, addChild, Array.getElem?_modify, Array.getElem?_push,
        Option.some.injEq]
      by_cases last : position = tree.phases.size
      · have apart : earlier ≠ position := by omega
        rw [if_neg apart, if_pos last, if_pos last]
      · rw [if_neg last, if_neg last]
        split
        · rfl
        · rw [Option.map_id_fun', id]

omit known in
@[simp]
theorem size_start :
    (tree.start time name parent).phases.size = tree.phases.size + 1 := by
  cases parent with
  | none => exact Array.size_push _
  | some earlier => simp [start, addChild]

theorem parentOf?_start (child : Nat) :
    (tree.start time name parent).parentOf? child =
      if child = tree.phases.size then parent else tree.parentOf? child := by
  rw [parentOf?, getElem?_start known, parentOf?]
  split
  · rfl
  · cases tree.phases[child]? with
    | none => rfl
    | some phase =>
        rw [Option.map_some, Option.bind_some, Option.bind_some]
        split <;> rfl

theorem childrenOf_start (earlier : Nat) :
    (tree.start time name parent).childrenOf earlier =
      if parent = some earlier then
        tree.childrenOf earlier ++ [tree.phases.size]
      else tree.childrenOf earlier := by
  have bound : parent = some earlier → earlier < tree.phases.size :=
    known earlier
  rw [childrenOf, getElem?_start known]
  by_cases inside : earlier < tree.phases.size
  · rw [if_neg (Nat.ne_of_lt inside), childrenOf,
      Array.getElem?_eq_getElem inside]
    split
    · rfl
    · rfl
  · rw [if_neg (mt bound inside), childrenOf,
      Array.getElem?_eq_none (Nat.le_of_not_lt inside)]
    split
    · rfl
    · rfl

theorem extends_start :
    tree.Extends time (tree.start time name parent) := by
  intro position phase found
  have inside := (Array.getElem?_eq_some_iff.1 found).1
  rw [getElem?_start known, if_neg (Nat.ne_of_lt inside), found,
    Option.map_some]
  refine ⟨_, rfl, ?_⟩
  split
  · exact { Phase.Continues.refl time phase with }
  · exact .refl time phase

theorem IsForest.start (forest : tree.IsForest) :
    (tree.start time name parent).IsForest := by
  have single : tree.parentOf? tree.phases.size = none := by
    rw [parentOf?, Array.getElem?_eq_none (Nat.le_refl _)]
    rfl
  have parents (child : Nat) :
      (tree.start time name parent).parentOf? child = _ :=
    parentOf?_start known child
  have children (earlier : Nat) :
      (tree.start time name parent).childrenOf earlier = _ :=
    childrenOf_start known earlier
  cases parent with
  | none =>
      refine forest.of_perm (fun child => ?_) (fun earlier => ?_)
      · rw [parents]
        split
        · next last => rw [last, single]
        · rfl
      · rw [children, if_neg nofun]
  | some earlier =>
      refine forest.link (known earlier rfl) single parents fun other => ?_
      rw [children]
      simp only [Option.some.injEq, eq_comm]

end Start

/-! ## Stopping phases -/

section Stop

variable {clock : Nat → Nat}

theorem getElem?_stop (place : Nat) :
    (tree.stop time place).phases[position]? =
      tree.phases[position]?.map fun phase =>
        if place = position then phase.stopAt time else phase := by
  rw [stop, Array.getElem?_modify]
  split
  · rfl
  · rw [Option.map_id_fun', id]

theorem extends_stop {now : Nat} (order : time ≤ now) (place : Nat) :
    tree.Extends time (tree.stop now place) := by
  refine Extends.of_map (fun _ => getElem?_stop place) fun position phase => ?_
  split
  · exact .stopAt order phase
  · exact .refl time phase

theorem start_stopAt (phase : Phase) :
    (phase.stopAt time).start = phase.start := by
  rw [Phase.stopAt]
  split <;> rfl

theorem parent_stopAt (phase : Phase) :
    (phase.stopAt time).parent = phase.parent := by
  rw [Phase.stopAt]
  split <;> rfl

theorem children_stopAt (phase : Phase) :
    (phase.stopAt time).children = phase.children := by
  rw [Phase.stopAt]
  split <;> rfl

theorem parentOf?_stop (place child : Nat) :
    (tree.stop time place).parentOf? child = tree.parentOf? child := by
  rw [parentOf?, getElem?_stop, parentOf?]
  cases tree.phases[child]? with
  | none => rfl
  | some phase =>
      rw [Option.map_some, Option.bind_some, Option.bind_some]
      split
      · exact parent_stopAt phase
      · rfl

theorem childrenOf_stop (place parent : Nat) :
    (tree.stop time place).childrenOf parent = tree.childrenOf parent := by
  rw [childrenOf, getElem?_stop, childrenOf]
  cases tree.phases[parent]? with
  | none => rfl
  | some phase =>
      rw [Option.map_some, Option.map_some, Option.map_some]
      split
      · exact children_stopAt phase
      · rfl

@[simp]
theorem size_stop (place : Nat) :
    (tree.stop time place).phases.size = tree.phases.size :=
  Array.size_modify ..

theorem IsForest.stop (forest : tree.IsForest) (place : Nat) :
    (tree.stop time place).IsForest :=
  forest.of_perm (parentOf?_stop place) fun parent => by
    rw [childrenOf_stop]

end Stop

end PhaseTree

end ScreenCompare
