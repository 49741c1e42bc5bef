import ScreenCompare.Proofs.LabelMap.FloodMirror

/-!
# Flooding with a plain list

The plainest queue of waiting cells is a list in order of arrival from which the
first entry with the lowest step is taken.  It is lawful, as the buckets are, so
a flood may run on either: after any number of rounds the labels are the same,
the buckets hold the entries of the list, and the cell that leaves the buckets
next is the one that comes first among those with the lowest step
(`flood_eq_on_waitingList`).
-/

namespace ScreenCompare

/-- The waiting cells with the heights of their steps, in order of arrival. -/
structure WaitingList where
  entries : List (Nat × Point)

namespace WaitingList

/-- Take out the first of the entries with the lowest step. -/
def pop? (list : WaitingList) : Option (Point × WaitingList) :=
  match (list.entries.map Prod.fst).min? with
  | none => none
  | some lowest =>
      (list.entries.find? fun entry => entry.1 = lowest).map fun entry =>
        (entry.2, { entries := list.entries.erase entry })

instance : StepQueue WaitingList where
  empty := { entries := [] }
  push := fun list height point =>
    { entries := list.entries ++ [(height, point)] }
  pop? := pop?

theorem eq_nil_of_pop? {list : WaitingList} (vacant : list.pop? = none) :
    list.entries = [] := by
  rw [pop?] at vacant
  split at vacant
  · next none => simpa using none
  · next lowest some =>
      rcases List.mem_map.1 (List.min?_mem some) with ⟨entry, member, rfl⟩
      rw [Option.map_eq_none_iff, List.find?_eq_none] at vacant
      simpa using vacant entry member

theorem isNext_of_pop? {list rest : WaitingList} {point : Point}
    (taken : list.pop? = some (point, rest)) :
    ∃ height, StepQueue.IsNext (height, point) list.entries rest.entries := by
  rw [pop?] at taken
  split at taken
  · cases taken
  · next lowest least =>
      rcases Option.map_eq_some_iff.1 taken with ⟨entry, found, out⟩
      obtain ⟨rfl, rfl⟩ := Prod.mk.inj out
      rcases List.find?_eq_some_iff_append.1 found with
        ⟨isLowest, before, after, split, others⟩
      obtain rfl : entry.1 = lowest := by simpa using isLowest
      have notLower : ∀ other ∈ list.entries, entry.1 ≤ other.1 :=
        fun other member => (List.min?_eq_some_iff.1 least).2 other.1
          (List.mem_map_of_mem member)
      have different : ∀ other ∈ before, other.1 ≠ entry.1 := by
        simpa using others
      have absent : entry ∉ before := fun member => different entry member rfl
      refine ⟨entry.1, before, after, split, ?_, ?_, ?_⟩
      · rw [split, List.erase_append_right _ absent, List.erase_cons_head]
      · intro other member
        have atLeast := notLower other (split ▸ List.mem_append_left _ member)
        exact Nat.lt_of_le_of_ne atLeast (different other member).symm
      · intro other member
        exact notLower other (split ▸
          List.mem_append_right _ (List.mem_cons_of_mem _ member))

instance : LawfulStepQueue WaitingList where
  Holds := fun list entries => list.entries = entries
  holds_empty := rfl
  holds_push := fun holds _ => congrArg (· ++ _) holds
  eq_nil_of_pop? := fun holds vacant => holds ▸ eq_nil_of_pop? vacant
  isNext_of_pop? := by
    rintro list rest _ point rfl taken
    rcases isNext_of_pop? taken with ⟨height, next⟩
    exact ⟨height, rest.entries, next, rfl⟩

end WaitingList

namespace LabelMap

/--
Flooding with buckets is flooding with a plain list of waiting cells.  After any
number of rounds both have the same labels, and the buckets hold the entries of
the list.  The next cell to leave the buckets is an entry of the list such that
no other one has a lower step and none that came earlier has the same step.
-/
theorem flood_eq_on_waitingList (relief : Picture) (labels : LabelMap) :
    labels.flood? relief =
      (if relief.SameSize labels then
        .ok (Flood.result WaitingList relief labels)
      else .error .sizesDiffer) ∧
    ∀ rounds,
      let onBuckets : Flood StepBuckets :=
        Flood.run relief rounds (Flood.start relief labels)
      let onList : Flood WaitingList :=
        Flood.run relief rounds (Flood.start relief labels)
      onBuckets.labels = onList.labels ∧
      onBuckets.queue.Holds onList.queue.entries ∧
      match onBuckets.queue.pop? with
      | none => onList.queue.entries = []
      | some (point, rest) => ∃ height before after,
          onList.queue.entries = before ++ (height, point) :: after ∧
          (∀ earlier ∈ before, height < earlier.1) ∧
          (∀ later ∈ after, height ≤ later.1) ∧
          rest.Holds (before ++ after) := by
  have agree (rounds : Nat) := Flood.run_start_agree
    (StepQueue.isSimulation_of_lawful (Q := StepBuckets) (R := WaitingList))
    relief labels rounds
  refine ⟨?result, fun rounds => ?state⟩
  case result =>
    rw [flood?, flood, Flood.result, (agree _).1]
    rfl
  case state =>
    rcases agree rounds with ⟨same, entries, holds, rfl⟩
    refine ⟨same, holds, ?_⟩
    split
    · next vacant => exact holds.eq_nil_of_pop? vacant
    · next point rest taken =>
        rcases holds.isNext_of_pop? taken with
          ⟨height, _, ⟨before, after, split, rfl, higher, notLower⟩,
            holdsRest⟩
        exact ⟨height, before, after, split, higher, notLower, holdsRest⟩

end LabelMap

end ScreenCompare
