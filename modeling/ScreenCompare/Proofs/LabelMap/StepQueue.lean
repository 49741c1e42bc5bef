import ScreenCompare.LabelMap.StepQueue

/-!
# What a queue of waiting cells promises

A queue holds a list of entries, cells with the heights of their steps in the
order in which they came.  Inserting appends an entry, and taking out removes
the one that `IsNext` names: no entry has a lower step, and none with the same
step came earlier.  A queue that keeps these promises is lawful.

The buckets are lawful: the bucket of a step holds the entries with that step in
order, and no entry has a step below the lowest bucket remembered.
-/

namespace ScreenCompare

namespace StepQueue

/--
Among the entries the given one has the lowest step and, of all with that step,
came first; the others remain in their order.
-/
def IsNext (entry : Nat × Point) (entries remaining : List (Nat × Point)) :
    Prop :=
  ∃ before after, entries = before ++ entry :: after ∧
    remaining = before ++ after ∧
    (∀ other ∈ before, entry.1 < other.1) ∧ ∀ other ∈ after, entry.1 ≤ other.1

theorem IsNext.perm {entry : Nat × Point}
    {entries remaining : List (Nat × Point)}
    (next : IsNext entry entries remaining) :
    entries.Perm (entry :: remaining) := by
  rcases next with ⟨before, after, rfl, rfl, _⟩
  exact List.perm_middle

theorem not_isNext_nil {entry : Nat × Point}
    {remaining : List (Nat × Point)} : ¬ IsNext entry [] remaining := by
  rintro ⟨before, after, split, _⟩
  simp at split

/-- The next one of some entries, and what remains, are uniquely determined. -/
theorem IsNext.unique {entry other : Nat × Point}
    {entries remaining otherRemaining : List (Nat × Point)}
    (next : IsNext entry entries remaining)
    (otherNext : IsNext other entries otherRemaining) :
    entry = other ∧ remaining = otherRemaining := by
  rcases next with ⟨before, after, rfl, rfl, higher, notLower⟩
  rcases otherNext with
    ⟨otherBefore, otherAfter, split, rfl, otherHigher, otherNotLower⟩
  -- If the earlier entries of one go on beyond those of the other, they take in
  -- the other's choice, which is then both higher and not higher.
  rcases List.append_eq_append_iff.1 split with
    ⟨beyond, rfl, rest⟩ | ⟨beyond, rfl, rest⟩
  · cases beyond with
    | nil =>
        obtain ⟨rfl, rfl⟩ := List.cons.inj rest
        exact ⟨rfl, by rw [List.append_nil]⟩
    | cons first later =>
        obtain ⟨rfl, rfl⟩ := List.cons.inj rest
        have above := otherHigher entry (by simp)
        have notAbove := notLower other (by simp)
        omega
  · cases beyond with
    | nil =>
        obtain ⟨rfl, rfl⟩ := List.cons.inj rest
        exact ⟨rfl, by rw [List.append_nil]⟩
    | cons first later =>
        obtain ⟨rfl, rfl⟩ := List.cons.inj rest
        have above := higher other (by simp)
        have notAbove := otherNotLower entry (by simp)
        omega

end StepQueue

/--
A queue that can be understood as a list of entries in order of their arrival.
-/
class LawfulStepQueue (Q : Type) [StepQueue Q] where
  /-- The queue holds exactly these entries. -/
  Holds : Q → List (Nat × Point) → Prop
  /-- The queue without cells holds nothing. -/
  holds_empty : Holds StepQueue.empty []
  /-- A cell that is inserted comes last. -/
  holds_push : ∀ {queue : Q} {entries : List (Nat × Point)} {height : Nat}
    {point : Point}, Holds queue entries → height < StepBuckets.count →
    Holds (StepQueue.push queue height point) (entries ++ [(height, point)])
  /-- Nothing can be taken out only if nothing is held. -/
  eq_nil_of_pop? : ∀ {queue : Q} {entries : List (Nat × Point)},
    Holds queue entries → StepQueue.pop? queue = none → entries = []
  /-- The cell that is taken out is the next one. -/
  isNext_of_pop? : ∀ {queue rest : Q} {entries : List (Nat × Point)}
    {point : Point}, Holds queue entries →
    StepQueue.pop? queue = some (point, rest) →
    ∃ height remaining, StepQueue.IsNext (height, point) entries remaining ∧
      Holds rest remaining

/-- Nothing can be taken out of a queue that holds nothing. -/
theorem StepQueue.pop?_of_holds_nil {Q : Type} [StepQueue Q] [LawfulStepQueue Q]
    {queue : Q} (holds : LawfulStepQueue.Holds queue []) :
    pop? queue = none := by
  cases taken : pop? queue with
  | none => rfl
  | some out =>
      rcases LawfulStepQueue.isNext_of_pop? holds taken with ⟨_, _, next, _⟩
      exact absurd next not_isNext_nil

namespace StepBuckets

/-! ## One bucket -/

/-- The cells of a bucket, first in first. -/
def cellsOf (bucket : Std.Queue Point) : List Point :=
  bucket.dList ++ bucket.eList.reverse

theorem cellsOf_enqueue (bucket : Std.Queue Point) (point : Point) :
    cellsOf (bucket.enqueue point) = cellsOf bucket ++ [point] := by
  simp [cellsOf, Std.Queue.enqueue]

theorem cellsOf_of_dequeue?_eq_none {bucket : Std.Queue Point}
    (vacant : bucket.dequeue? = none) : cellsOf bucket = [] := by
  obtain ⟨back, front⟩ := bucket
  cases front with
  | cons point rest => simp [Std.Queue.dequeue?] at vacant
  | nil =>
      cases reversed : back.reverse with
      | cons point rest => simp [Std.Queue.dequeue?, reversed] at vacant
      | nil => simp [cellsOf, reversed]

theorem cellsOf_of_dequeue?_eq_some {bucket rest : Std.Queue Point}
    {point : Point} (taken : bucket.dequeue? = some (point, rest)) :
    cellsOf bucket = point :: cellsOf rest := by
  obtain ⟨back, front⟩ := bucket
  cases front with
  | cons first others =>
      simp only [Std.Queue.dequeue?, Option.some.injEq, Prod.mk.injEq] at taken
      rcases taken with ⟨rfl, rfl⟩
      rfl
  | nil =>
      cases reversed : back.reverse with
      | nil => simp [Std.Queue.dequeue?, reversed] at taken
      | cons first others =>
          simp only [Std.Queue.dequeue?, reversed, Option.some.injEq,
            Prod.mk.injEq] at taken
          rcases taken with ⟨rfl, rfl⟩
          simp [cellsOf, reversed]

/-! ## All buckets -/

/-- The cells of the bucket of a step. -/
def cellsAt (buckets : Array (Std.Queue Point)) (level : Nat) : List Point :=
  cellsOf (buckets.getD level Std.Queue.empty)

theorem cellsAt_modify {buckets : Array (Std.Queue Point)} {height : Nat}
    (bound : height < buckets.size) (point : Point) (level : Nat) :
    cellsAt (buckets.modify height (·.enqueue point)) level =
      if level = height then cellsAt buckets level ++ [point]
      else cellsAt buckets level := by
  simp only [cellsAt, Array.getD_eq_getD_getElem?, Array.getElem?_modify]
  by_cases same : height = level
  · subst same
    simp [Array.getElem?_eq_getElem bound, cellsOf_enqueue]
  · simp [same, Ne.symm same]

theorem cellsAt_setIfInBounds {buckets : Array (Std.Queue Point)}
    {height : Nat} (bound : height < buckets.size) (bucket : Std.Queue Point)
    (level : Nat) :
    cellsAt (buckets.setIfInBounds height bucket) level =
      if level = height then cellsOf bucket else cellsAt buckets level := by
  simp only [cellsAt, Array.getD_eq_getD_getElem?,
    Array.getElem?_setIfInBounds]
  by_cases same : height = level
  · simp [← same, bound]
  · simp [same, Ne.symm same]

theorem cellsAt_of_popFrom?_eq_none {buckets : Array (Std.Queue Point)}
    {bucketsLeft level : Nat}
    (vacant : popFrom? buckets bucketsLeft level = none) :
    ∀ above, level ≤ above → above < level + bucketsLeft →
      cellsAt buckets above = [] := by
  induction bucketsLeft generalizing level with
  | zero => omega
  | succ bucketsLeft inductionHypothesis =>
      intro above low high
      rw [popFrom?] at vacant
      split at vacant
      · cases vacant
      · next here =>
          by_cases same : above = level
          · exact same ▸ cellsOf_of_dequeue?_eq_none here
          · exact inductionHypothesis vacant above (by omega) (by omega)

/-- What is taken out comes from the first of the buckets that has a cell. -/
theorem exists_of_popFrom?_eq_some {buckets : Array (Std.Queue Point)}
    {bucketsLeft level : Nat} {point : Point} {queue : StepBuckets}
    (taken : popFrom? buckets bucketsLeft level = some (point, queue)) :
    ∃ found rest, (level ≤ found ∧ found < level + bucketsLeft) ∧
      (∀ below, level ≤ below → below < found → cellsAt buckets below = []) ∧
      cellsAt buckets found = point :: cellsOf rest ∧
      queue =
        { buckets := buckets.setIfInBounds found rest, lowest := found } := by
  induction bucketsLeft generalizing level with
  | zero => cases taken
  | succ bucketsLeft inductionHypothesis =>
      rw [popFrom?] at taken
      split at taken
      · next first rest here =>
          simp only [Option.some.injEq, Prod.mk.injEq] at taken
          rcases taken with ⟨rfl, rfl⟩
          exact ⟨level, rest, ⟨Nat.le_refl _, by omega⟩, by omega,
            cellsOf_of_dequeue?_eq_some here, rfl⟩
      · next here =>
          rcases inductionHypothesis taken with
            ⟨found, rest, ⟨low, high⟩, vacant, first, remaining⟩
          refine ⟨found, rest, ⟨by omega, by omega⟩, ?_, first, remaining⟩
          intro below atLeast less
          by_cases same : below = level
          · exact same ▸ cellsOf_of_dequeue?_eq_none here
          · exact vacant below (by omega) less

/-! ## The buckets as a list of entries -/

/-- The cells of the entries with a step, in order. -/
def cellsWith (level : Nat) (entries : List (Nat × Point)) : List Point :=
  (entries.filter fun entry => entry.1 = level).map Prod.snd

theorem cellsWith_append (level : Nat) (first second : List (Nat × Point)) :
    cellsWith level (first ++ second) =
      cellsWith level first ++ cellsWith level second := by
  simp [cellsWith]

theorem cellsWith_cons (level : Nat) (entry : Nat × Point)
    (entries : List (Nat × Point)) :
    cellsWith level (entry :: entries) =
      if level = entry.1 then entry.2 :: cellsWith level entries
      else cellsWith level entries := by
  by_cases same : entry.1 = level
  · simp [cellsWith, same]
  · simp [cellsWith, same, Ne.symm same]

theorem cellsWith_eq_nil_iff {level : Nat} {entries : List (Nat × Point)} :
    cellsWith level entries = [] ↔ ∀ entry ∈ entries, entry.1 ≠ level := by
  simp [cellsWith]

/-- The first cell with a step splits the entries. -/
theorem exists_split_of_cellsWith_eq_cons {level : Nat}
    {entries : List (Nat × Point)} {point : Point} {rest : List Point}
    (first : cellsWith level entries = point :: rest) :
    ∃ before after, entries = before ++ (level, point) :: after ∧
      (∀ entry ∈ before, entry.1 ≠ level) ∧ cellsWith level after = rest := by
  rcases List.map_eq_cons_iff.1 first with
    ⟨⟨height, _⟩, others, filtered, rfl, remaining⟩
  rcases List.filter_eq_cons_iff.1 filtered with
    ⟨before, after, split, skipped, here, later⟩
  obtain rfl : height = level := by simpa using here
  refine ⟨before, after, split, ?_, ?_⟩
  · simpa using skipped
  · rw [cellsWith, later, remaining]

/-- The buckets hold exactly these entries. -/
structure Holds (queue : StepBuckets) (entries : List (Nat × Point)) :
    Prop where
  size : queue.buckets.size = count
  lowest_le : ∀ entry ∈ entries, queue.lowest ≤ entry.1
  lt_count : ∀ entry ∈ entries, entry.1 < count
  cellsAt : ∀ level, cellsAt queue.buckets level = cellsWith level entries

theorem holds_empty : Holds empty [] where
  size := Array.size_replicate
  lowest_le := by simp
  lt_count := by simp
  cellsAt := by
    intro level
    simp only [StepBuckets.cellsAt, empty, Array.getD_eq_getD_getElem?,
      Array.getElem?_replicate]
    split <;> rfl

theorem Holds.push {queue : StepBuckets} {entries : List (Nat × Point)}
    {height : Nat} (holds : Holds queue entries) (bound : height < count)
    (point : Point) :
    Holds (queue.push height point) (entries ++ [(height, point)]) where
  size := by rw [StepBuckets.push, Array.size_modify, holds.size]
  lowest_le := by
    intro entry member
    rcases List.mem_append.1 member with old | new
    · exact Nat.le_trans (Nat.min_le_left ..) (holds.lowest_le entry old)
    · rw [List.mem_singleton.1 new]
      exact Nat.min_le_right ..
  lt_count := by
    intro entry member
    rcases List.mem_append.1 member with old | new
    · exact holds.lt_count entry old
    · exact List.mem_singleton.1 new ▸ bound
  cellsAt := by
    intro level
    rw [StepBuckets.push, cellsAt_modify (holds.size ▸ bound), cellsWith_append,
      cellsWith_cons, holds.cellsAt level]
    split
    · rfl
    · rw [show cellsWith level [] = [] from rfl, List.append_nil]

theorem Holds.eq_nil_of_pop? {queue : StepBuckets}
    {entries : List (Nat × Point)} (holds : Holds queue entries)
    (vacant : queue.pop? = none) : entries = [] := by
  apply List.eq_nil_iff_forall_not_mem.2
  intro entry member
  have low := holds.lowest_le entry member
  have high := holds.lt_count entry member
  have noCell := cellsAt_of_popFrom?_eq_none vacant entry.1 low (by omega)
  rw [holds.cellsAt, cellsWith_eq_nil_iff] at noCell
  exact noCell entry member rfl

/--
The cell taken out of the buckets is the next one: all buckets below its own are
empty, and it is the first in its own.
-/
theorem Holds.isNext_of_pop? {queue rest : StepBuckets}
    {entries : List (Nat × Point)} {point : Point}
    (holds : Holds queue entries) (taken : queue.pop? = some (point, rest)) :
    ∃ height remaining, StepQueue.IsNext (height, point) entries remaining ∧
      Holds rest remaining := by
  rcases exists_of_popFrom?_eq_some taken with
    ⟨height, bucket, ⟨_, high⟩, vacant, first, rfl⟩
  have lowest : ∀ entry ∈ entries, height ≤ entry.1 := by
    intro entry member
    apply Nat.le_of_not_lt
    intro below
    have noCell := vacant entry.1 (holds.lowest_le entry member) below
    rw [holds.cellsAt, cellsWith_eq_nil_iff] at noCell
    exact noCell entry member rfl
  rw [holds.cellsAt] at first
  rcases exists_split_of_cellsWith_eq_cons first with
    ⟨before, after, rfl, skipped, later⟩
  have bound : height < queue.buckets.size := by
    have := holds.size
    omega
  have kept : ∀ entry ∈ before ++ after,
      entry ∈ before ++ (height, point) :: after := fun _ member =>
    ((List.sublist_cons_self (height, point) after).append_left before).subset
      member
  refine ⟨height, before ++ after, ⟨before, after, rfl, rfl, ?_, ?_⟩, ?_⟩
  · intro other member
    have least := lowest other (List.mem_append_left _ member)
    have different := skipped other member
    omega
  · intro other member
    exact lowest other
      (List.mem_append_right _ (List.mem_cons_of_mem _ member))
  · exact {
      size := by rw [Array.size_setIfInBounds, holds.size]
      lowest_le := fun entry member => lowest entry (kept entry member)
      lt_count := fun entry member => holds.lt_count entry (kept entry member)
      cellsAt := by
        intro level
        have unchanged := holds.cellsAt level
        rw [cellsWith_append, cellsWith_cons] at unchanged
        rw [cellsAt_setIfInBounds bound, cellsWith_append]
        split
        · next same =>
            rw [same, cellsWith_eq_nil_iff.2 skipped, later, List.nil_append]
        · next different =>
            rw [unchanged, if_neg different] }

instance : LawfulStepQueue StepBuckets where
  Holds := Holds
  holds_empty := holds_empty
  holds_push := fun holds bound => holds.push bound _
  eq_nil_of_pop? := Holds.eq_nil_of_pop?
  isNext_of_pop? := Holds.isNext_of_pop?

end StepBuckets

end ScreenCompare
