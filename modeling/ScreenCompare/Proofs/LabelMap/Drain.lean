import ScreenCompare.Proofs.LabelMap.Component

/-!
# Draining a component

A fill wipes cells before it visits them, so the map it reads shrinks while the
list of pending cells grows.  What it will still visit is determined by both:
the pending cells and whatever chains of cells with the fill's label connect
with them (`fillFrom`).  Visiting one cell takes exactly this cell out of that
set, and the number of pending cells and of cells with the label together drops
by one, which bounds the rounds.

The main statement is that a fill with enough rounds visits every cell of the set
once, wipes these cells and no others.
-/

namespace ScreenCompare

namespace LabelMap

/-! ## Capturing neighbors -/

/-- Pending cells are listed once and have been wiped. -/
structure IsReady (labels : LabelMap) (pending : List Point) : Prop where
  nodup : pending.Nodup
  wiped : ∀ point ∈ pending, labels.get? point.x point.y = some 0

/--
The given cells that carry the label are wiped and pending, and nothing else has
changed.
-/
structure Captures (label : Int) (cells : List Point)
    (before after : LabelMap × List Point) : Prop where
  sameSize : after.1.SameSize before.1
  get? : ∀ point, after.1.get? point.x point.y =
    if point ∈ cells ∧ before.1.get? point.x point.y = some label then some 0
    else before.1.get? point.x point.y
  mem_pending : ∀ point, point ∈ after.2 ↔ point ∈ before.2 ∨
    point ∈ cells ∧ before.1.get? point.x point.y = some label
  isReady : IsReady before.1 before.2 → IsReady after.1 after.2
  measure : after.2.length + after.1.cells.count label =
    before.2.length + before.1.cells.count label

variable {label : Int}

theorem Captures.nil (state : LabelMap × List Point) :
    Captures label [] state state where
  sameSize := Raster.SameSize.refl state.1
  get? := by simp
  mem_pending := by simp
  isReady := id
  measure := rfl

/-- A cell that carries the label is wiped and becomes pending. -/
theorem Captures.wipe (nonzero : label ≠ 0) {state : LabelMap × List Point}
    {point : Point} (carries : state.1.get? point.x point.y = some label) :
    Captures label [point] state
      (state.1.set point.x point.y 0, point :: state.2) := by
  have inside := Raster.contains_of_get? carries
  constructor
  · exact Raster.SameSize.set ..
  · intro other
    simp only [Raster.get?_set_point, List.mem_singleton]
    by_cases here : other = point
    · subst other
      rw [if_pos ⟨rfl, inside⟩, if_pos ⟨rfl, carries⟩]
    · rw [if_neg fun both => here both.1, if_neg fun both => here both.1]
  · intro other
    rw [List.mem_cons, List.mem_singleton]
    constructor
    · rintro (rfl | member)
      · exact Or.inr ⟨rfl, carries⟩
      · exact Or.inl member
    · rintro (member | ⟨rfl, _⟩)
      · exact Or.inr member
      · exact Or.inl rfl
  · intro ready
    have fresh : point ∉ state.2 := by
      intro member
      rw [ready.wiped point member] at carries
      exact nonzero (Option.some.inj carries).symm
    constructor
    · exact List.nodup_cons.2 ⟨fresh, ready.nodup⟩
    · intro other member
      rw [Raster.get?_set_point]
      split
      · rfl
      · next elsewhere =>
          rcases List.mem_cons.1 member with rfl | member
          · exact absurd ⟨rfl, inside⟩ elsewhere
          · exact ready.wiped other member
  · have counted := Raster.count_cells_set carries nonzero.symm
    simp only [List.length_cons]
    omega

/-- A cell that does not carry the label is left alone. -/
theorem Captures.ignore {state : LabelMap × List Point} {point : Point}
    (absent : state.1.get? point.x point.y ≠ some label) :
    Captures label [point] state state := by
  constructor
  · exact Raster.SameSize.refl state.1
  · intro other
    rw [if_neg]
    rintro ⟨here, carries⟩
    rw [List.mem_singleton.1 here] at carries
    exact absent carries
  · intro other
    rw [List.mem_singleton, iff_self_or]
    rintro ⟨rfl, carries⟩
    exact absurd carries absent
  · exact id
  · rfl

theorem Captures.single (nonzero : label ≠ 0) (state : LabelMap × List Point)
    (point : Point) :
    Captures label [point] state (capture label state point) := by
  unfold capture
  split
  case isTrue carries => exact Captures.wipe nonzero carries
  case isFalse absent => exact Captures.ignore absent

theorem Captures.cons (nonzero : label ≠ 0) {point : Point}
    {cells : List Point} {before between after : LabelMap × List Point}
    (first : Captures label [point] before between)
    (rest : Captures label cells between after) :
    Captures label (point :: cells) before after where
  sameSize := rest.sameSize.trans first.sameSize
  get? := by
    intro other
    simp only [rest.get?, first.get?, List.mem_cons]
    by_cases carries : before.1.get? other.x other.y = some label
    · by_cases here : other = point
      · subst other
        simp [carries]
      · simp [here, carries]
    · simp [carries]
  mem_pending := by
    intro other
    simp only [rest.mem_pending, first.mem_pending, first.get?, List.mem_cons]
    by_cases here : other = point
    · subst other
      by_cases carries : before.1.get? point.x point.y = some label
      · simp [carries, nonzero.symm]
      · simp [carries]
    · simp [here]
  isReady := fun ready => rest.isReady (first.isReady ready)
  measure := rest.measure.trans first.measure

theorem captures_foldl (nonzero : label ≠ 0) (cells : List Point)
    (state : LabelMap × List Point) :
    Captures label cells state (cells.foldl (capture label) state) := by
  induction cells generalizing state with
  | nil => exact Captures.nil state
  | cons point rest inductionHypothesis =>
      exact (Captures.single nonzero state point).cons nonzero
        (inductionHypothesis _)

/-! ## Visiting everything connected -/

/-- A fill steps from a cell to a cell around it that carries the label. -/
def Spreads (label : Int) (labels : LabelMap) (source target : Point) : Prop :=
  target ∈ around source ∧ labels.get? target.x target.y = some label

/-- The pending cells and everything a fill reaches from them. -/
def fillFrom (label : Int) (labels : LabelMap) (pending : List Point) :
    Set Point :=
  { point | ∃ source ∈ pending,
    Relation.ReflTransGen (labels.Spreads label) source point }

theorem mem_fillFrom_of_mem {labels : LabelMap} {pending : List Point}
    {point : Point} (member : point ∈ pending) :
    point ∈ fillFrom label labels pending :=
  ⟨point, member, Relation.ReflTransGen.refl⟩

theorem mem_fillFrom_of_spreads {labels : LabelMap} {pending : List Point}
    {source target : Point} (member : source ∈ fillFrom label labels pending)
    (spreads : labels.Spreads label source target) :
    target ∈ fillFrom label labels pending := by
  rcases member with ⟨first, pendingFirst, chain⟩
  exact ⟨first, pendingFirst, chain.tail spreads⟩

/-- Whatever a fill reaches is pending or still carries the label. -/
theorem pending_or_carries {labels : LabelMap} {pending : List Point}
    {point : Point} (member : point ∈ fillFrom label labels pending) :
    point ∈ pending ∨ labels.get? point.x point.y = some label := by
  rcases member with ⟨source, pendingSource, chain⟩
  rcases Relation.ReflTransGen.cases_tail chain with rfl | ⟨_, _, spreads⟩
  · exact Or.inl pendingSource
  · exact Or.inr spreads.2

/--
Capturing the neighbors of a cell loses nothing that a fill reaches from it.
-/
theorem mem_fillFrom_after {labels : LabelMap} {pending : List Point}
    {point other : Point} {after : LabelMap × List Point}
    (captures : Captures label (around point) (labels, pending) after)
    (member : other ∈ fillFrom label labels (point :: pending)) :
    other = point ∨ other ∈ fillFrom label after.1 after.2 := by
  rcases member with ⟨source, member, chain⟩
  induction chain with
  | refl =>
      rcases List.mem_cons.1 member with rfl | member
      · exact Or.inl rfl
      · exact Or.inr (mem_fillFrom_of_mem
          ((captures.mem_pending _).2 (Or.inl member)))
  | @tail between target _ spreads inductionHypothesis =>
      -- The last cell of the chain was captured just now, or is still there.
      by_cases captured : target ∈ around point
      · exact Or.inr (mem_fillFrom_of_mem
          ((captures.mem_pending target).2 (Or.inr ⟨captured, spreads.2⟩)))
      · rcases inductionHypothesis with rfl | reached
        · exact absurd spreads.1 captured
        · have unchanged :
              after.1.get? target.x target.y = some label := by
            rw [captures.get?, if_neg fun both => captured both.1]
            exact spreads.2
          exact Or.inr
            (mem_fillFrom_of_spreads reached ⟨spreads.1, unchanged⟩)

/--
Capturing the neighbors of a cell adds nothing to what a fill reaches from it.
-/
theorem mem_fillFrom_of_after {labels : LabelMap} {pending : List Point}
    {point other : Point} {after : LabelMap × List Point}
    (captures : Captures label (around point) (labels, pending) after)
    (member : other ∈ fillFrom label after.1 after.2) :
    other ∈ fillFrom label labels (point :: pending) := by
  rcases member with ⟨source, member, chain⟩
  induction chain with
  | refl =>
      rcases (captures.mem_pending source).1 member with earlier | captured
      · exact mem_fillFrom_of_mem (List.mem_cons_of_mem _ earlier)
      · exact mem_fillFrom_of_spreads
          (mem_fillFrom_of_mem (List.mem_cons_self ..)) captured
  | @tail _ target _ spreads inductionHypothesis =>
      have carries : labels.get? target.x target.y = some label := by
        have found := spreads.2
        rw [captures.get?] at found
        split at found
        · next captured => exact captured.2
        · exact found
      exact mem_fillFrom_of_spreads inductionHypothesis
        ⟨spreads.1, carries⟩

/--
Visiting a cell takes this cell, and nothing else, out of what is left to visit.
-/
theorem fillFrom_cons {labels : LabelMap} {pending : List Point} {point : Point}
    {after : LabelMap × List Point}
    (captures : Captures label (around point) (labels, pending) after) :
    fillFrom label labels (point :: pending) =
      insert point (fillFrom label after.1 after.2) := by
  ext other
  constructor
  · exact mem_fillFrom_after captures
  · rintro (rfl | member)
    · exact mem_fillFrom_of_mem (List.mem_cons_self ..)
    · exact mem_fillFrom_of_after captures member

/-- A cell that has been visited is not visited again. -/
theorem not_mem_fillFrom_after {labels : LabelMap} {pending : List Point}
    {point : Point} {after : LabelMap × List Point}
    (nonzero : label ≠ 0) (ready : IsReady labels (point :: pending))
    (captures : Captures label (around point) (labels, pending) after) :
    point ∉ fillFrom label after.1 after.2 := by
  have notAround : point ∉ around point := fun member =>
    (mem_around.1 member).1 rfl
  intro member
  rcases pending_or_carries member with again | carries
  · rcases (captures.mem_pending point).1 again with earlier | captured
    · exact (List.nodup_cons.1 ready.nodup).1 earlier
    · exact notAround captured.1
  · rw [captures.get?, if_neg fun both => notAround both.1,
      ready.wiped point (List.mem_cons_self ..)] at carries
    exact nonzero (Option.some.inj carries).symm

/--
What a fill with enough rounds leaves behind, and the cells it has visited.
-/
structure Drains (label : Int) (pending : List Point) (labels : LabelMap)
    (extent : Extent) (result : LabelMap × Extent) (visited : List Point) :
    Prop where
  nodup : visited.Nodup
  mem_iff : ∀ point, point ∈ visited ↔ point ∈ fillFrom label labels pending
  extent : result.2 = visited.foldl Extent.add extent
  sameSize : result.1.SameSize labels
  get? : ∀ point, result.1.get? point.x point.y =
    if point ∈ visited then some 0 else labels.get? point.x point.y

theorem Drains.nil (labels : LabelMap) (extent : Extent) :
    Drains label [] labels extent (labels, extent) [] where
  nodup := List.nodup_nil
  mem_iff := by simp [fillFrom]
  extent := rfl
  sameSize := Raster.SameSize.refl labels
  get? := by simp

theorem Drains.cons {labels : LabelMap} {pending : List Point} {point : Point}
    {extent : Extent} {after : LabelMap × List Point}
    {result : LabelMap × Extent} {visited : List Point}
    (nonzero : label ≠ 0) (ready : IsReady labels (point :: pending))
    (captures : Captures label (around point) (labels, pending) after)
    (drains : Drains label after.2 after.1 (extent.add point) result visited) :
    Drains label (point :: pending) labels extent result (point :: visited) where
  nodup := by
    refine List.nodup_cons.2 ⟨?_, drains.nodup⟩
    intro member
    exact not_mem_fillFrom_after nonzero ready captures
      ((drains.mem_iff point).1 member)
  mem_iff := by
    intro other
    rw [List.mem_cons, drains.mem_iff, fillFrom_cons captures,
      Set.mem_insert_iff]
  extent := drains.extent
  sameSize := drains.sameSize.trans captures.sameSize
  get? := by
    intro other
    rw [drains.get?]
    by_cases later : other ∈ visited
    · rw [if_pos later, if_pos (List.mem_cons_of_mem point later)]
    · have notPending : other ∉ after.2 := fun member =>
        later ((drains.mem_iff other).2 (mem_fillFrom_of_mem member))
      have unchanged : after.1.get? other.x other.y =
          labels.get? other.x other.y := by
        rw [captures.get?, if_neg]
        intro captured
        exact notPending ((captures.mem_pending other).2 (Or.inr captured))
      rw [if_neg later, unchanged]
      by_cases here : other = point
      · rw [here, ready.wiped point (List.mem_cons_self ..),
          if_pos (List.mem_cons_self ..)]
      · rw [if_neg]
        intro member
        rcases List.mem_cons.1 member with same | member
        · exact here same
        · exact later member

/--
A fill with as many rounds as there are pending cells and cells with its label
visits everything it can reach, once, and wipes it.
-/
theorem exists_drains (nonzero : label ≠ 0) (fuel : Nat) (pending : List Point)
    (labels : LabelMap) (extent : Extent) (ready : IsReady labels pending)
    (enough : pending.length + labels.cells.count label ≤ fuel) :
    ∃ visited, Drains label pending labels extent
      (drain label fuel pending labels extent) visited := by
  induction fuel generalizing pending labels extent with
  | zero =>
      cases pending with
      | nil => exact ⟨[], Drains.nil labels extent⟩
      | cons point rest =>
          rw [List.length_cons] at enough
          omega
  | succ fuel inductionHypothesis =>
      cases pending with
      | nil => exact ⟨[], Drains.nil labels extent⟩
      | cons point rest =>
          have captures :=
            captures_foldl nonzero (around point) (labels, rest)
          have restReady : IsReady labels rest :=
            ⟨(List.nodup_cons.1 ready.nodup).2, fun other member =>
              ready.wiped other (List.mem_cons_of_mem point member)⟩
          have measure : _ = rest.length + labels.cells.count label :=
            captures.measure
          rw [List.length_cons] at enough
          rcases inductionHypothesis _ _ (extent.add point)
              (captures.isReady restReady) (by omega) with ⟨visited, drains⟩
          exact ⟨point :: visited, drains.cons nonzero ready captures⟩

end LabelMap

end ScreenCompare
