import Mathlib.Data.List.Nodup
import ScreenCompare.Proofs.LabelMap.FloodChange
import ScreenCompare.Proofs.LabelMap.FloodMirror

/-!
# How long a flood goes on

The lowest bucket remembered goes up and down in the course of a flood, so it
does not tell when the flood ends.  A log of the cells that have been queued and
of those that have been taken out does (`LoggedQueue`).  Such a log changes
nothing else about a flood.

A cell is queued only if it is unknown and taken out only if it waits.  Since it
waits beside a region, it becomes part of a region or boundary when it is taken
out, and is never unknown again.  No cell is therefore in either part of the log
twice, and the flood is over after at most as many rounds as there are interior
cells (`flood_terminates`).
-/

namespace ScreenCompare

/-- A queue with a log of the cells that have been inserted and taken out. -/
structure LoggedQueue (Q : Type) where
  queue : Q
  pushed : List Point
  popped : List Point

namespace LoggedQueue

variable {Q : Type} [StepQueue Q]

instance : StepQueue (LoggedQueue Q) where
  empty := { queue := StepQueue.empty, pushed := [], popped := [] }
  push := fun logged height point =>
    { logged with
      queue := StepQueue.push logged.queue height point
      pushed := logged.pushed ++ [point] }
  pop? := fun logged => (StepQueue.pop? logged.queue).map fun (point, queue) =>
    (point, { logged with queue, popped := logged.popped ++ [point] })

theorem pop?_eq_none_iff {logged : LoggedQueue Q} :
    StepQueue.pop? logged = none ↔ StepQueue.pop? logged.queue = none :=
  Option.map_eq_none_iff

theorem exists_of_pop?_eq_some {logged rest : LoggedQueue Q} {point : Point}
    (taken : StepQueue.pop? logged = some (point, rest)) :
    ∃ queue, StepQueue.pop? logged.queue = some (point, queue) ∧
      rest = { logged with queue, popped := logged.popped ++ [point] } := by
  rcases Option.map_eq_some_iff.1 taken with ⟨⟨first, queue⟩, inner, out⟩
  obtain ⟨rfl, rfl⟩ := Prod.mk.inj out
  exact ⟨queue, inner, rfl⟩

instance [LawfulStepQueue Q] : LawfulStepQueue (LoggedQueue Q) where
  Holds := fun logged entries => LawfulStepQueue.Holds logged.queue entries
  holds_empty := LawfulStepQueue.holds_empty
  holds_push := LawfulStepQueue.holds_push
  eq_nil_of_pop? := fun holds vacant =>
    LawfulStepQueue.eq_nil_of_pop? holds (pop?_eq_none_iff.1 vacant)
  isNext_of_pop? := by
    intro logged rest entries point holds taken
    rcases exists_of_pop?_eq_some taken with ⟨queue, inner, rfl⟩
    exact LawfulStepQueue.isNext_of_pop? holds inner

theorem isSimulation : StepQueue.IsSimulation
    fun (logged : LoggedQueue Q) (queue : Q) => logged.queue = queue where
  empty := rfl
  push := by
    rintro logged _ height point rfl _
    rfl
  pop? := by
    rintro logged _ rfl
    cases taken : StepQueue.pop? logged with
    | none =>
        rw [pop?_eq_none_iff.1 taken]
        exact .none
    | some out =>
        rcases exists_of_pop?_eq_some taken with ⟨queue, inner, rest⟩
        rw [inner]
        exact .some ⟨rfl, congrArg LoggedQueue.queue rest⟩

end LoggedQueue

namespace Flood

open LabelMap

variable {Q : Type}

/-- The flood as it is without the log. -/
def withoutLog (flood : Flood (LoggedQueue Q)) : Flood Q where
  labels := flood.labels
  queue := flood.queue.queue

theorem popped_foldl
    {look : Flood (LoggedQueue Q) → Point → Flood (LoggedQueue Q)}
    (keeps : ∀ flood point,
      (look flood point).queue.popped = flood.queue.popped)
    (points : List Point) (flood : Flood (LoggedQueue Q)) :
    (points.foldl look flood).queue.popped = flood.queue.popped := by
  induction points generalizing flood with
  | nil => rfl
  | cons point rest inductionHypothesis =>
      rw [List.foldl_cons, inductionHypothesis, keeps]

/-! ## What the log says -/

/-- The cells with a property are listed, each of them once. -/
structure Lists (cells : List Point) (IsListed : Point → Prop) : Prop where
  nodup : cells.Nodup
  mem_iff : ∀ point, point ∈ cells ↔ IsListed point

theorem Lists.nil {IsListed : Point → Prop} (none : ∀ point, ¬ IsListed point) :
    Lists [] IsListed where
  nodup := List.nodup_nil
  mem_iff := fun point => iff_of_false List.not_mem_nil (none point)

theorem Lists.congr {cells : List Point} {IsListed IsListedNow : Point → Prop}
    (lists : Lists cells IsListed)
    (same : ∀ point, IsListedNow point ↔ IsListed point) :
    Lists cells IsListedNow where
  nodup := lists.nodup
  mem_iff := fun point => (lists.mem_iff point).trans (same point).symm

/-- One more cell comes to have the property and is put last. -/
theorem Lists.append {cells : List Point} {IsListed IsListedNow : Point → Prop}
    {added : Point} (lists : Lists cells IsListed) (isNew : ¬ IsListed added)
    (grown : ∀ point, IsListedNow point ↔ IsListed point ∨ point = added) :
    Lists (cells ++ [added]) IsListedNow where
  nodup := by
    have absent : added ∉ cells := fun member =>
      isNew ((lists.mem_iff added).1 member)
    rw [← List.concat_eq_append]
    exact List.Nodup.concat absent lists.nodup
  mem_iff := by
    intro point
    rw [List.mem_append, List.mem_singleton, lists.mem_iff, grown]

/--
The log agrees with the map.  It lists as queued the cells that were unknown and
are so no more, and as taken out those that were unknown and have become part of
a region or boundary.
-/
structure LogAgrees (labels : LabelMap) (flood : Flood (LoggedQueue Q)) :
    Prop where
  pushed : Lists flood.queue.pushed fun point =>
    labels.frame.labelAt point = unknown ∧
      flood.labels.labelAt point ≠ unknown
  popped : Lists flood.queue.popped fun point =>
    labels.frame.labelAt point = unknown ∧
      (0 < flood.labels.labelAt point ∨ flood.labels.labelAt point = boundary)

variable {labels : LabelMap}

theorem LogAgrees.mem_pushed_iff {flood : Flood (LoggedQueue Q)}
    (agrees : LogAgrees labels flood) {point : Point} :
    point ∈ flood.queue.pushed ↔
      (point ∈ labels.interior ∧ labels.labelAt point = unknown) ∧
        flood.labels.labelAt point ≠ unknown := by
  rw [agrees.pushed.mem_iff, labelAt_frame_eq_unknown_iff]

theorem LogAgrees.popped_subset {flood : Flood (LoggedQueue Q)}
    (agrees : LogAgrees labels flood) :
    flood.queue.popped ⊆ flood.queue.pushed := by
  intro point member
  rcases (agrees.popped.mem_iff point).1 member with ⟨wasUnknown, isLabelled⟩
  refine (agrees.pushed.mem_iff point).2 ⟨wasUnknown, ?_⟩
  intro isUnknown
  rw [isUnknown] at isLabelled
  exact absurd isLabelled (by decide)

/-! ## The course of a flood with a log -/

variable [StepQueue Q]

theorem withoutLog_run_start (relief : Picture) (labels : LabelMap)
    (rounds : Nat) :
    withoutLog (run relief rounds (start relief labels)) =
      (run relief rounds (start relief labels) : Flood Q) := by
  rcases run_start_agree (LoggedQueue.isSimulation (Q := Q)) relief labels
    rounds with ⟨sameLabels, sameQueue⟩
  rw [withoutLog, sameLabels, sameQueue]

theorem logAgrees_framed (labels : LabelMap) :
    LogAgrees labels
      ({ labels := labels.frame, queue := StepQueue.empty } :
        Flood (LoggedQueue Q)) where
  pushed := .nil fun _ ⟨isUnknown, isKnown⟩ => isKnown isUnknown
  popped := by
    apply Lists.nil
    rintro point ⟨isUnknown, isLabelled⟩
    rw [isUnknown] at isLabelled
    exact absurd isLabelled (by decide)

/--
A cell that starts to wait is added to the cells once queued, and a cell that is
labelled to those once taken out.
-/
theorem LogAgrees.change {before after : Flood (LoggedQueue Q)}
    (change : Change labels before after) (agrees : LogAgrees labels before) :
    LogAgrees labels after := by
  -- Only the label of one cell changes, so each list is looked at for this cell
  -- and for the others.
  cases change with
  | @awaits point height wasUnknown inside isUnknown =>
      have written (other : Point) :
          (before.await point height).labels.labelAt other =
            if other = point then waiting else before.labels.labelAt other :=
        labelAt_set inside other
      constructor
      · refine agrees.pushed.append (fun known => known.2 isUnknown) ?_
        intro other
        rw [written]
        by_cases here : other = point
        · have isKnown : waiting ≠ unknown := by decide
          simp [here, wasUnknown, isKnown]
        · simp [here]
      · refine agrees.popped.congr ?_
        intro other
        rw [written]
        by_cases here : other = point
        · simp [here, isUnknown, unknown, waiting, boundary]
        · simp [here]
  | @settles point queue label wasUnknown inside taken isWaiting touches
      settles =>
      rcases LoggedQueue.exists_of_pop?_eq_some taken with ⟨rest, _, rfl⟩
      have isLabel := settles.pos_or_eq_boundary regionsBeside_pos touches
      have isKnown : label ≠ unknown := fun isUnknown =>
        touches.ne_empty
          ((settles.eq_unknown_iff regionsBeside_pos).1 isUnknown)
      have written (other : Point) :
          LabelMap.labelAt (before.labels.set point.x point.y label) other =
            if other = point then label else before.labels.labelAt other :=
        labelAt_set inside other
      constructor
      · refine agrees.pushed.congr ?_
        intro other
        rw [written]
        by_cases here : other = point
        · have wasKnown : waiting ≠ unknown := by decide
          simp [here, isWaiting, isKnown, wasKnown]
        · simp [here]
      · refine agrees.popped.append ?_ ?_
        · rw [isWaiting]
          exact fun labelled => absurd labelled.2 (by decide)
        · intro other
          rw [written]
          by_cases here : other = point
          · simp [here, wasUnknown, isLabel]
          · simp [here]

theorem logAgrees_run_start [LawfulStepQueue Q] (relief : Picture)
    (labels : LabelMap) (rounds : Nat) :
    LogAgrees labels
      (run relief rounds (start relief labels) : Flood (LoggedQueue Q)) :=
  run_start_of_changes (LogAgrees labels) LogAgrees.change
    (logAgrees_framed labels) relief rounds

/-! ## When the flood is over -/

theorem popped_start (relief : Picture) (labels : LabelMap) :
    (start relief labels : Flood (LoggedQueue Q)).queue.popped = [] := by
  refine popped_foldl (fun flood point => ?_) ..
  rw [seed]
  split
  · dsimp only
    split <;> rfl
  · rfl

theorem popped_settle (relief : Picture) (flood : Flood (LoggedQueue Q))
    (point : Point) :
    (settle relief flood point).queue.popped = flood.queue.popped := by
  rw [settle]
  split
  · rfl
  · refine popped_foldl (fun flood neighbor => ?_) ..
    rw [spread]
    split <;> rfl

theorem popped_settle_of_pop? {relief : Picture} {flood : Flood (LoggedQueue Q)}
    {point : Point} {queue : LoggedQueue Q}
    (taken : StepQueue.pop? flood.queue = some (point, queue)) :
    (settle relief { flood with queue } point).queue.popped =
      flood.queue.popped ++ [point] := by
  rcases LoggedQueue.exists_of_pop?_eq_some taken with ⟨_, _, rfl⟩
  exact popped_settle relief _ point

theorem popped_subset_run (relief : Picture) (rounds : Nat)
    (flood : Flood (LoggedQueue Q)) :
    flood.queue.popped ⊆ (run relief rounds flood).queue.popped := by
  induction rounds generalizing flood with
  | zero => exact List.Subset.refl _
  | succ rounds inductionHypothesis =>
      rw [run]
      split
      · exact List.Subset.refl _
      · next point queue taken =>
          have later := inductionHypothesis
            (settle relief { flood with queue } point)
          rw [popped_settle_of_pop? taken] at later
          exact List.Subset.trans (List.subset_append_left ..) later

/--
The flood ends with a certain round.  Every round up to that one takes out one
cell, and later ones change nothing.
-/
structure EndsAt (relief : Picture) (flood : Flood (LoggedQueue Q))
    (last : Nat) : Prop where
  vacant : StepQueue.pop? (run relief last flood).queue = none
  run_eq : ∀ rounds,
    run relief rounds flood = run relief (min rounds last) flood
  length_popped : ∀ rounds,
    (run relief rounds flood).queue.popped.length =
      flood.queue.popped.length + min rounds last

theorem endsAt_zero (relief : Picture) {flood : Flood (LoggedQueue Q)}
    (vacant : StepQueue.pop? flood.queue = none) : EndsAt relief flood 0 where
  vacant := vacant
  run_eq := by
    intro rounds
    rw [Nat.min_zero, run_of_pop?_eq_none relief rounds vacant, run]
  length_popped := by
    intro rounds
    rw [Nat.min_zero, run_of_pop?_eq_none relief rounds vacant, Nat.add_zero]

theorem EndsAt.succ {relief : Picture} {flood : Flood (LoggedQueue Q)}
    {point : Point} {queue : LoggedQueue Q} {last : Nat}
    (taken : StepQueue.pop? flood.queue = some (point, queue))
    (ends : EndsAt relief (settle relief { flood with queue } point) last) :
    EndsAt relief flood (last + 1) := by
  have goesOn (rounds : Nat) : run relief (rounds + 1) flood =
      run relief rounds (settle relief { flood with queue } point) := by
    rw [run, taken]
  refine ⟨?vacant, ?run_eq, ?length_popped⟩
  case vacant =>
    rw [goesOn]
    exact ends.vacant
  case run_eq =>
    intro rounds
    cases rounds with
    | zero => rw [Nat.zero_min]
    | succ rounds =>
        rw [Nat.add_min_add_right, goesOn, goesOn]
        exact ends.run_eq rounds
  case length_popped =>
    intro rounds
    cases rounds with
    | zero => rw [Nat.zero_min, run, Nat.add_zero]
    | succ rounds =>
        rw [Nat.add_min_add_right, goesOn, ends.length_popped,
          popped_settle_of_pop? taken, List.length_append, List.length_singleton]
        omega

/-- A flood whose queue is empty after some rounds ends with one of them. -/
theorem exists_endsAt (relief : Picture) {rounds : Nat}
    {flood : Flood (LoggedQueue Q)}
    (vacant : StepQueue.pop? (run relief rounds flood).queue = none) :
    ∃ last ≤ rounds, EndsAt relief flood last := by
  induction rounds generalizing flood with
  | zero => exact ⟨0, Nat.le_refl _, endsAt_zero relief vacant⟩
  | succ rounds inductionHypothesis =>
      rw [run] at vacant
      split at vacant
      · next done => exact ⟨0, Nat.zero_le _, endsAt_zero relief done⟩
      · next taken =>
          rcases inductionHypothesis vacant with ⟨last, within, ends⟩
          exact ⟨last + 1, Nat.succ_le_succ within, ends.succ taken⟩

/-- With a round for every interior cell the queue becomes empty. -/
theorem pop?_run_start_eq_none [LawfulStepQueue Q] (relief : Picture)
    (labels : LabelMap) :
    StepQueue.pop? (run relief ((labels.width - 2) * (labels.height - 2))
      (start relief labels : Flood Q)).queue = none := by
  have started := progress_start (Q := Q) relief labels
  rcases started.run relief (Nat.le_of_eq (length_interior labels)) with
    ⟨isOver, left, progress⟩
  rcases progress.queued with ⟨entries, holds, _, members⟩
  have vacant : entries.map Prod.snd = [] := by
    apply List.eq_nil_iff_forall_not_mem.2
    intro point member
    rcases (members point).1 member with ⟨wasUnknown, isWaiting⟩
    exact isOver point wasUnknown isWaiting
  rw [List.map_eq_nil_iff.1 vacant] at holds
  exact StepQueue.pop?_of_holds_nil holds

end Flood

namespace LabelMap

/--
Flooding terminates.  With a log of the cells that are queued and taken out, a
flood goes on as without.  No cell is queued twice, and the cells that have been
queued are the interior cells that were unknown and are so no more.  No cell is
taken out twice, and every cell that has been taken out was queued and is part of
a region or boundary ever after.  The flood ends, with an empty queue and the
flooded map, after as many rounds as cells are taken out, at most one for every
interior cell, and goes no further.
-/
theorem flood_terminates (relief : Picture) (labels : LabelMap) :
    let flooding (rounds : Nat) : Flood StepBuckets :=
      Flood.run relief rounds (Flood.start relief labels)
    let logged (rounds : Nat) : Flood (LoggedQueue StepBuckets) :=
      Flood.run relief rounds (Flood.start relief labels)
    (∀ rounds,
      (logged rounds).withoutLog = flooding rounds ∧
      (logged rounds).queue.pushed.Nodup ∧
      (∀ point, point ∈ (logged rounds).queue.pushed ↔
        (point ∈ labels.interior ∧ labels.labelAt point = unknown) ∧
          (flooding rounds).labels.labelAt point ≠ unknown) ∧
      (logged rounds).queue.popped.Nodup ∧
      (logged rounds).queue.popped ⊆ (logged rounds).queue.pushed ∧
      ∀ point ∈ (logged rounds).queue.popped, ∀ more,
        0 < (flooding (rounds + more)).labels.labelAt point ∨
          (flooding (rounds + more)).labels.labelAt point = boundary) ∧
    ∃ last ≤ (labels.width - 2) * (labels.height - 2),
      (flooding last).queue.pop? = none ∧
      (flooding last).labels = labels.flood relief ∧
      ∀ rounds, flooding rounds = flooding (min rounds last) ∧
        (logged rounds).queue.popped.length = min rounds last := by
  intro flooding logged
  have same (rounds : Nat) : (logged rounds).withoutLog = flooding rounds :=
    Flood.withoutLog_run_start relief labels rounds
  have agrees (rounds : Nat) : Flood.LogAgrees labels (logged rounds) :=
    Flood.logAgrees_run_start relief labels rounds
  refine ⟨fun rounds => ?log, ?termination⟩
  case log =>
    refine ⟨same rounds, (agrees rounds).pushed.nodup, ?pushed,
      (agrees rounds).popped.nodup, (agrees rounds).popped_subset, ?labelled⟩
    case pushed =>
      intro point
      rw [← same]
      exact (agrees rounds).mem_pushed_iff
    case labelled =>
      intro point member more
      have stillPopped : point ∈ (logged (rounds + more)).queue.popped := by
        have later := Flood.popped_subset_run relief more (logged rounds)
        rw [← Flood.run_add] at later
        exact later member
      rw [← same]
      exact (((agrees _).popped.mem_iff point).1 stillPopped).2
  case termination =>
    rcases Flood.exists_endsAt relief
      (Flood.pop?_run_start_eq_none (Q := LoggedQueue StepBuckets) relief
        labels) with ⟨last, within, ends⟩
    have stays (rounds : Nat) :
        flooding rounds = flooding (min rounds last) := by
      rw [← same, ← same]
      exact congrArg Flood.withoutLog (ends.run_eq rounds)
    have count (rounds : Nat) :
        (logged rounds).queue.popped.length = min rounds last := by
      rw [ends.length_popped, Flood.popped_start, List.length_nil, Nat.zero_add]
    refine ⟨last, within, ?vacant, ?flooded, fun rounds =>
      ⟨stays rounds, count rounds⟩⟩
    case vacant =>
      rw [← same]
      exact LoggedQueue.pop?_eq_none_iff.1 ends.vacant
    case flooded =>
      have atEnd := stays ((labels.width - 2) * (labels.height - 2))
      rw [Nat.min_eq_right within] at atEnd
      exact congrArg Flood.labels atEnd.symm

end LabelMap

end ScreenCompare
