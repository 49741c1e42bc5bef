import ScreenCompare.LabelMap.Border
import ScreenCompare.Proofs.LabelMap.Component

/-!
# Which borders a scan finds

The set cells of a mask form components, those of its silhouette.  Following a
border leads from set cell to touching set cell, so all cells of a border lie in
one component.

While the scan goes on, a cell that carries a border's number lies on a recorded
border (`Scan.Sound`).  So when a set cell with a clear cell to its left or right
is visited, it lies on an earlier border already, or a border is opened there.
In the end all such cells lie on borders (`exists_border_of_besideClear`), and
all borders start at such cells (`exists_start_of_mem_all`).
-/

namespace ScreenCompare

/--
A fold that visits an item reaches what visiting it establishes, if all other
visits preserve that.
-/
theorem foldl_establishes {State Item : Type} {visit : State → Item → State}
    {invariant : State → Prop} (goal : State → Prop) {items : List Item}
    {item : Item}
    (keep : ∀ state, ∀ other ∈ items, invariant state →
      invariant (visit state other))
    (establish : ∀ state, invariant state → goal (visit state item))
    (persist : ∀ state, ∀ other ∈ items, goal state → goal (visit state other))
    (member : item ∈ items) {state : State} (start : invariant state) :
    goal (items.foldl visit state) := by
  obtain ⟨before, after, rfl⟩ := List.append_of_mem member
  rw [List.foldl_append, List.foldl_cons]
  have reached : invariant (before.foldl visit state) :=
    List.foldlRecOn (motive := invariant) before visit start
      fun state held other listed =>
        keep state other (List.mem_append_left _ listed) held
  exact List.foldlRecOn (motive := goal) after visit (establish _ reached)
    fun state held other listed =>
      persist state other
        (List.mem_append_right _ (List.mem_cons_of_mem _ listed)) held

namespace GrayPicture

/-- The set cells of a mask, all with one label. -/
def silhouette (mask : GrayPicture) : LabelMap :=
  mask.map fun brightness => if brightness = 0 then 0 else 2

variable {mask : GrayPicture} {point : Point}

theorem isForeground_silhouette_iff :
    mask.silhouette.IsForeground point ↔
      ∃ brightness, brightness ≠ 0 ∧
        mask.get? point.x point.y = some brightness := by
  simp only [LabelMap.IsForeground, silhouette, Raster.get?_map,
    Option.map_eq_some_iff]
  constructor
  · rintro ⟨label, above, brightness, found, rfl⟩
    refine ⟨brightness, ?_, found⟩
    rintro rfl
    rw [if_pos rfl] at above
    omega
  · rintro ⟨brightness, nonzero, found⟩
    exact ⟨2, by omega, brightness, found, if_neg nonzero⟩

theorem contains_of_isForeground
    (isSet : mask.silhouette.IsForeground point) :
    mask.Contains point.x point.y := by
  obtain ⟨_, _, found⟩ := isForeground_silhouette_iff.1 isSet
  exact Raster.contains_of_get? found

theorem isForeground_silhouette_iff_getD :
    mask.silhouette.IsForeground point ↔
      (mask.getD point.x point.y 0 != 0) = true := by
  rw [isForeground_silhouette_iff, Raster.getD_eq, bne_iff_ne]
  cases found : mask.get? point.x point.y with
  | none => simp
  | some brightness => simp

theorem joined_silhouette {other : Point} (touches : point.Touches other)
    (isSet : mask.silhouette.IsForeground point)
    (otherIsSet : mask.silhouette.IsForeground other) :
    mask.silhouette.Joined point other := by
  have label {cell : Point} (foreground : mask.silhouette.IsForeground cell) :
      mask.silhouette.get? cell.x cell.y = some 2 := by
    obtain ⟨brightness, nonzero, found⟩ :=
      isForeground_silhouette_iff.1 foreground
    rw [silhouette, Raster.get?_map, found, Option.map_some, if_neg nonzero]
  exact ⟨touches, 2, by omega, label isSet, label otherIsSet⟩

/-- A set cell with a clear cell to its left or to its right. -/
def BesideClear (mask : GrayPicture) (point : Point) : Prop :=
  mask.silhouette.IsForeground point ∧
    ∃ x, (x + 1 = point.x ∨ x = point.x + 1) ∧ mask.get? x point.y = some 0

end GrayPicture

namespace Border

/-! ## Following a border -/

section Follow

variable {isSet : Point → Bool} {start last point : Point} {back : Direction}
  {fuel : Nat} {visits : Array Visit}

theorem touches_of_firstSet? {directions : List Direction}
    {direction : Direction} {next : Point}
    (found : firstSet? isSet point directions = some (direction, next)) :
    point.Touches next ∧ isSet next = true := by
  induction directions with
  | nil => cases found
  | cons head rest inductionHypothesis =>
      rw [firstSet?] at found
      split at found
      · next neighbor towards =>
          split at found
          · next set =>
              rw [Option.some.injEq, Prod.mk.injEq] at found
              rw [← found.2]
              exact ⟨(Point.exists_neighbor?_iff.1 ⟨head, towards⟩).2, set⟩
          · exact inductionHypothesis found
      · exact inductionHypothesis found

/--
A walk does not leave a set of cells that contains all set cells touching it.
-/
theorem follow_stays {cells : Set Point}
    (closed : ∀ cell ∈ cells, ∀ next, cell.Touches next →
      isSet next = true → next ∈ cells)
    (here : point ∈ cells) (visited : ∀ visit ∈ visits, visit.point ∈ cells) :
    ∀ visit ∈ follow isSet start last fuel point back visits,
      visit.point ∈ cells := by
  have pushed {point : Point} {visits : Array Visit} {clearEast : Bool}
      (here : point ∈ cells) (visited : ∀ visit ∈ visits, visit.point ∈ cells) :
      ∀ visit ∈ visits.push { point, clearEast }, visit.point ∈ cells := by
    intro visit member
    rcases Array.mem_push.1 member with member | rfl
    · exact visited visit member
    · exact here
  induction fuel generalizing point back visits with
  | zero => exact visited
  | succ fuel inductionHypothesis =>
      rw [follow]
      split
      · exact pushed here visited
      · next direction next found =>
          have step := touches_of_firstSet? found
          split
          · exact pushed here visited
          · exact inductionHypothesis (closed point here next step.1 step.2)
              (pushed here visited)

theorem mem_follow_of_mem {visit : Visit} (member : visit ∈ visits) :
    visit ∈ follow isSet start last fuel point back visits := by
  induction fuel generalizing point back visits with
  | zero => exact member
  | succ fuel inductionHypothesis =>
      rw [follow]
      split
      · exact Array.mem_push_of_mem _ member
      · split
        · exact Array.mem_push_of_mem _ member
        · exact inductionHypothesis (Array.mem_push_of_mem _ member)

theorem exists_mem_follow :
    ∃ visit ∈ follow isSet start last (fuel + 1) point back visits,
      visit.point = point := by
  rw [follow]
  split
  · exact ⟨_, Array.mem_push_self, rfl⟩
  · split
    · exact ⟨_, Array.mem_push_self, rfl⟩
    · exact ⟨_, mem_follow_of_mem Array.mem_push_self, rfl⟩

end Follow

/--
The cells of a border lie in the component of its first cell, which is one of
them unless it has no set neighbor.
-/
theorem trace_component {mask : GrayPicture} {start : Point}
    (isSet : mask.silhouette.IsForeground start) (clear : Direction) :
    (∀ visit ∈ trace mask start clear,
      visit.point ∈ mask.silhouette.component start) ∧
      (trace mask start clear = [] ∨
        ∃ visit ∈ trace mask start clear, visit.point = start) := by
  have closed : ∀ cell ∈ mask.silhouette.component start, ∀ next : Point,
      cell.Touches next → (mask.getD next.x next.y 0 != 0) = true →
        next ∈ mask.silhouette.component start := by
    intro cell member next touches nextIsSet
    exact Relation.ReflTransGen.tail member
      (GrayPicture.joined_silhouette touches
        (LabelMap.isForeground_of_mem isSet member)
        (GrayPicture.isForeground_silhouette_iff_getD.2 nextIsSet))
  have inside := GrayPicture.contains_of_isForeground isSet
  have positive : 0 < 8 * mask.width * mask.height :=
    Nat.mul_pos (by have := inside.1; omega) (by have := inside.2; omega)
  obtain ⟨fuel, enough⟩ := Nat.exists_eq_succ_of_ne_zero positive.ne'
  rw [trace]
  split
  · exact ⟨fun _ member => absurd member List.not_mem_nil, .inl rfl⟩
  · simp only [Array.mem_toList_iff]
    constructor
    · exact follow_stays closed (LabelMap.self_mem_component _ start)
        (fun visit member => absurd member (Array.not_mem_empty visit))
    · right
      rw [enough]
      exact exists_mem_follow

/-! ## Leaving marks -/

/--
Every cell is marked as it was, or is one of some points and carries a number up
to its sign.
-/
structure Stamps (number : Int) (points : List Point)
    (before after : Raster Int) : Prop where
  sameSize : after.SameSize before
  get? : ∀ point : Point,
    after.get? point.x point.y = before.get? point.x point.y ∨
      point ∈ points ∧ (after.get? point.x point.y = some number ∨
        after.get? point.x point.y = some (-number))

namespace Stamps

variable {number : Int} {points : List Point}

theorem refl (marks : Raster Int) : Stamps number points marks marks where
  sameSize := Raster.SameSize.refl marks
  get? := fun _ => .inl rfl

theorem trans {first second third : Raster Int}
    (left : Stamps number points first second)
    (right : Stamps number points second third) :
    Stamps number points first third where
  sameSize := right.sameSize.trans left.sameSize
  get? := by
    intro point
    rcases right.get? point with same | stamped
    · rw [same]
      exact left.get? point
    · exact .inr stamped

theorem set {marks : Raster Int} {point : Point} {mark : Int}
    (member : point ∈ points) (signed : mark = number ∨ mark = -number) :
    Stamps number points marks (marks.set point.x point.y mark) where
  sameSize := Raster.SameSize.set marks point.x point.y mark
  get? := by
    intro other
    rw [Raster.get?_set_point]
    split
    · next here =>
        refine .inr ⟨here.1 ▸ member, ?_⟩
        rcases signed with rfl | rfl
        · exact .inl rfl
        · exact .inr rfl
    · exact .inl rfl

theorem stamp {marks : Raster Int} {visit : Visit}
    (member : visit.point ∈ points) :
    Stamps number points marks (Scan.stamp number marks visit) := by
  unfold Scan.stamp
  dsimp only
  split
  · exact set member (.inr rfl)
  · split
    · exact set member (.inl rfl)
    · exact refl marks

theorem foldl_stamp (marks : Raster Int) (visits : List Visit) :
    Stamps number (visits.map Visit.point) marks
      (visits.foldl (Scan.stamp number) marks) := by
  apply List.foldlRecOn
    (motive := Stamps number (visits.map Visit.point) marks)
  · exact refl marks
  · intro stamped stamps visit member
    exact stamps.trans (stamp (List.mem_map_of_mem member))

end Stamps

namespace Scan

variable {mask : GrayPicture} {scan : Scan}

/-- The cell lies on a border that has been recorded. -/
def Covers (scan : Scan) (point : Point) : Prop :=
  ∃ border ∈ scan.borders, point ∈ border.points

/--
What a scan knows about its mask: clear cells have the mark 0, and cells with a
border's number lie on a border; the cells of a border lie in the component of
one of them, which is beside a clear cell, and its parent is an earlier border.
-/
structure Sound (mask : GrayPicture) (scan : Scan) : Prop where
  sameSize : scan.marks.SameSize mask
  clear : ∀ point : Point, scan.marks.get? point.x point.y = some 0 ↔
    mask.get? point.x point.y = some 0
  recorded : ∀ (point : Point) (mark : Int),
    scan.marks.get? point.x point.y = some mark → mark ≠ 0 → mark ≠ 1 →
      scan.Covers point
  connected : ∀ border ∈ scan.borders, ∃ start ∈ border.points,
    mask.BesideClear start ∧
      ∀ point ∈ border.points, point ∈ mask.silhouette.component start
  parents : ∀ (index : Nat) (border : Border) (parent : Nat),
    scan.borders[index]? = some border → border.parent = some parent →
      parent < index

theorem sound_start (mask : GrayPicture) : Sound mask (start mask) where
  sameSize := ⟨rfl, rfl⟩
  clear := by
    intro point
    rw [start, Raster.get?_map, Option.map_eq_some_iff]
    constructor
    · rintro ⟨brightness, found, mark⟩
      split at mark
      · next zero => rw [found, zero]
      · cases mark
    · intro found
      exact ⟨0, found, if_pos rfl⟩
  recorded := by
    intro point mark found nonzero notOne
    rw [start, Raster.get?_map, Option.map_eq_some_iff] at found
    obtain ⟨brightness, _, rfl⟩ := found
    split at nonzero
    · exact absurd rfl nonzero
    · next set => exact absurd (if_neg set) notOne
  connected := by simp [start]
  parents := by simp [start]

/--
Opening a border records one through the cell, which stays in the component of
the cell, and leaves its number on nothing else.
-/
theorem exists_openBorder (scan : Scan) {x y : Nat} (kind : BorderKind)
    (isSet : mask.silhouette.IsForeground { x, y }) :
    ∃ border enclosing,
      (scan.openBorder mask x y kind).borders = scan.borders.push border ∧
        border.parent = scan.parentOf? kind enclosing ∧
        { x, y } ∈ border.points ∧
        (∀ point ∈ border.points,
          point ∈ mask.silhouette.component { x, y }) ∧
        Stamps scan.nextNumber border.points scan.marks
          (scan.openBorder mask x y kind).marks := by
  obtain ⟨inside, some⟩ := trace_component isSet (clearSide kind)
  refine ⟨_, _, rfl, rfl, ?_⟩
  cases visits : trace mask { x, y } (clearSide kind) with
  | nil =>
      simp only [openBorder, visits, List.isEmpty_nil, if_true]
      refine ⟨List.mem_singleton_self _, ?_, ?_⟩
      · intro point member
        rw [List.mem_singleton.1 member]
        exact LabelMap.self_mem_component _ _
      · exact Stamps.set (List.mem_singleton_self _) (.inr rfl)
  | cons first rest =>
      rw [visits] at inside some
      simp only [openBorder, visits, List.isEmpty_cons, Bool.false_eq_true,
        if_false]
      refine ⟨?_, ?_, Stamps.foldl_stamp _ _⟩
      · rcases some with nothing | ⟨visit, member, here⟩
        · cases nothing
        · exact here ▸ List.mem_map_of_mem member
      · intro point member
        obtain ⟨visit, visited, rfl⟩ := List.mem_map.1 member
        exact inside visit visited

theorem Covers.openBorder {point : Point} (covers : scan.Covers point)
    (mask : GrayPicture) (x y : Nat) (kind : BorderKind) :
    (scan.openBorder mask x y kind).Covers point := by
  obtain ⟨border, member, onBorder⟩ := covers
  exact ⟨border, Array.mem_push_of_mem _ member, onBorder⟩

theorem Sound.parentOf?_lt (sound : Sound mask scan) {kind : BorderKind}
    {enclosing : Int} {parent : Nat}
    (found : scan.parentOf? kind enclosing = some parent) :
    parent < scan.borders.size := by
  rw [parentOf?] at found
  split at found
  · cases found
  · dsimp only at found
    split at found
    · cases found
    · next border atPosition =>
        have bound := (Array.getElem?_eq_some_iff.1 atPosition).1
        split at found
        · have earlier := sound.parents _ _ _ atPosition found
          omega
        · rw [Option.some.injEq] at found
          omega

/-- A scan stays sound when a border is opened at a cell beside a clear one. -/
theorem Sound.openBorder (sound : Sound mask scan) {x y : Nat}
    (beside : mask.BesideClear { x, y }) (kind : BorderKind) :
    Sound mask (scan.openBorder mask x y kind) ∧
      (scan.openBorder mask x y kind).Covers { x, y } := by
  obtain ⟨border, enclosing, borders, parent, member, inside, stamps⟩ :=
    exists_openBorder scan kind beside.1
  have recorded : border ∈ (scan.openBorder mask x y kind).borders := by
    rw [borders]
    exact Array.mem_push_self
  have positive : 2 ≤ scan.nextNumber := by
    rw [nextNumber]
    omega
  refine ⟨⟨stamps.sameSize.trans sound.sameSize, ?_, ?_, ?_, ?_⟩,
    border, recorded, member⟩
  -- A stamped cell lies in the component, so it is set; its number is at least 2.
  · intro point
    rcases stamps.get? point with same | ⟨onBorder, signed⟩
    · rw [same]
      exact sound.clear point
    · obtain ⟨brightness, nonzero, found⟩ :=
        GrayPicture.isForeground_silhouette_iff.1
          (LabelMap.isForeground_of_mem beside.1 (inside point onBorder))
      refine iff_of_false ?_ ?_
      · intro zero
        rw [zero, Option.some.injEq, Option.some.injEq] at signed
        omega
      · rw [found, Option.some.injEq]
        exact nonzero
  · intro point mark found nonzero notOne
    rcases stamps.get? point with same | ⟨onBorder, _⟩
    · exact (sound.recorded point mark (same.symm.trans found) nonzero
        notOne).openBorder mask x y kind
    · exact ⟨border, recorded, onBorder⟩
  · intro other otherMember
    rw [borders] at otherMember
    rcases Array.mem_push.1 otherMember with earlier | rfl
    · exact sound.connected other earlier
    · exact ⟨{ x, y }, member, beside, inside⟩
  · intro index other otherParent found itsParent
    rw [borders, Array.getElem?_push] at found
    split at found
    · next last =>
        rw [Option.some.injEq] at found
        rw [← found, parent] at itsParent
        exact last ▸ sound.parentOf?_lt itsParent
    · exact sound.parents index other otherParent found itsParent

/-! ## Visiting cells -/

theorem Sound.isForeground (sound : Sound mask scan) {point : Point}
    {mark : Int} (found : scan.marks.get? point.x point.y = some mark)
    (nonzero : mark ≠ 0) : mask.silhouette.IsForeground point := by
  have inside := Raster.contains_of_get? found
  rw [Raster.Contains, sound.sameSize.1, sound.sameSize.2] at inside
  obtain ⟨brightness, bright⟩ := Raster.get?_of_contains inside
  refine GrayPicture.isForeground_silhouette_iff.2 ⟨brightness, ?_, bright⟩
  rintro rfl
  have zero := (sound.clear point).2 bright
  rw [found, Option.some.injEq] at zero
  exact nonzero zero

/-- A border is opened only at a cell beside a clear one. -/
theorem Sound.besideClear (sound : Sound mask scan) {x y : Nat}
    (inside : mask.Contains x y) {kind : BorderKind}
    (opens : scan.opening? x y = some kind) :
    mask.BesideClear { x, y } := by
  have read (column : Nat) (inRow : column < mask.width) :
      scan.marks.get? column y = some (scan.marks.getD column y 0) := by
    have marked : scan.marks.Contains column y :=
      ⟨sound.sameSize.1 ▸ inRow, sound.sameSize.2 ▸ inside.2⟩
    obtain ⟨mark, found⟩ := Raster.get?_of_contains marked
    rw [Raster.getD_eq, found]
    rfl
  have here := read x inside.1
  have isSet (nonzero : scan.marks.getD x y 0 ≠ 0) :
      mask.silhouette.IsForeground { x, y } :=
    @Sound.isForeground _ _ sound { x, y } _ here nonzero
  rw [opening?] at opens
  split at opens
  · next outer =>
      obtain ⟨mark, positive, clear⟩ := outer
      have left := read (x - 1) (by have := inside.1; omega)
      rw [clear] at left
      exact ⟨isSet (by omega), x - 1, .inl (Nat.sub_add_cancel positive),
        (sound.clear { x := x - 1, y }).1 left⟩
  · split at opens
    · next hole =>
        obtain ⟨mark, within, clear⟩ := hole
        have right := read (x + 1) (sound.sameSize.1 ▸ within)
        rw [clear] at right
        exact ⟨isSet (by omega), x + 1, .inr rfl,
          (sound.clear { x := x + 1, y }).1 right⟩
    · cases opens

/-- A cell beside a clear one lies on a border, or opens one. -/
theorem Sound.covers_or_opens (sound : Sound mask scan) {x y : Nat}
    (beside : mask.BesideClear { x, y }) :
    scan.Covers { x, y } ∨ ∃ kind, scan.opening? x y = some kind := by
  obtain ⟨isSet, column, adjacent, clear⟩ := beside
  obtain ⟨brightness, nonzero, found⟩ :=
    GrayPicture.isForeground_silhouette_iff.1 isSet
  have inside := Raster.contains_of_get? found
  have inMarks : scan.marks.Contains x y :=
    ⟨sound.sameSize.1 ▸ inside.1, sound.sameSize.2 ▸ inside.2⟩
  obtain ⟨mark, marked⟩ := Raster.get?_of_contains inMarks
  have markedSet : mark ≠ 0 := by
    rintro rfl
    rw [(sound.clear { x, y }).1 marked, Option.some.injEq] at found
    exact nonzero found.symm
  by_cases passed : mark = 1
  · right
    have clearMark : scan.marks.getD column y 0 = 0 := by
      rw [Raster.getD_eq, (sound.clear { x := column, y }).2 clear]
      rfl
    have within := (Raster.contains_of_get? clear).1
    rw [← sound.sameSize.1] at within
    have mark : scan.marks.getD x y 0 = 1 := by
      rw [Raster.getD_eq, marked, passed]
      rfl
    rw [opening?, mark]
    simp only at adjacent
    rcases adjacent with left | right
    · have isColumn : x - 1 = column := by omega
      rw [if_pos ⟨rfl, by omega, isColumn ▸ clearMark⟩]
      exact ⟨_, rfl⟩
    · subst right
      split
      · exact ⟨_, rfl⟩
      · rw [if_pos ⟨by omega, within, clearMark⟩]
        exact ⟨_, rfl⟩
  · exact .inl (sound.recorded { x, y } mark marked markedSet passed)

/-- Visiting a cell opens a border, or leaves marks and borders as they are. -/
theorem visitCell_cases (mask : GrayPicture) (scan : Scan) (x y : Nat) :
    ∃ enclosing, scan.visitCell mask x y = { scan with enclosing } ∧
        (scan.marks.getD x y 0 = 0 ∨ scan.opening? x y = none) ∨
      ∃ kind, scan.opening? x y = some kind ∧
        scan.visitCell mask x y =
          { scan.openBorder mask x y kind with enclosing } := by
  rw [visitCell]
  split
  · next clear => exact ⟨scan.enclosing, .inl ⟨rfl, .inl clear⟩⟩
  · cases opens : scan.opening? x y with
    | none =>
        simp only
        split
        · exact ⟨scan.enclosing, .inl ⟨rfl, .inr trivial⟩⟩
        · exact ⟨_, .inl ⟨rfl, .inr trivial⟩⟩
    | some kind =>
        simp only
        split
        · exact ⟨(scan.openBorder mask x y kind).enclosing,
            .inr ⟨kind, rfl, rfl⟩⟩
        · exact ⟨_, .inr ⟨kind, rfl, rfl⟩⟩

theorem Sound.enclose (sound : Sound mask scan) (enclosing : Int) :
    Sound mask { scan with enclosing } :=
  ⟨sound.sameSize, sound.clear, sound.recorded, sound.connected,
    sound.parents⟩

theorem Sound.visitCell (sound : Sound mask scan) {x y : Nat}
    (inside : mask.Contains x y) : Sound mask (scan.visitCell mask x y) := by
  rcases visitCell_cases mask scan x y with
    ⟨enclosing, ⟨same, _⟩ | ⟨kind, opens, opened⟩⟩
  · rw [same]
    exact sound.enclose enclosing
  · rw [opened]
    exact (sound.openBorder (sound.besideClear inside opens) kind).1.enclose
      enclosing

theorem Covers.visitCell {point : Point} (covers : scan.Covers point)
    (mask : GrayPicture) (x y : Nat) :
    (scan.visitCell mask x y).Covers point := by
  rcases visitCell_cases mask scan x y with
    ⟨enclosing, ⟨same, _⟩ | ⟨kind, _, opened⟩⟩
  · rw [same]
    exact covers
  · rw [opened]
    exact covers.openBorder mask x y kind

/-- A cell beside a clear one lies on a border once it has been visited. -/
theorem Sound.covers_visitCell (sound : Sound mask scan) {x y : Nat}
    (beside : mask.BesideClear { x, y }) :
    (scan.visitCell mask x y).Covers { x, y } := by
  rcases sound.covers_or_opens beside with covers | ⟨kind, opens⟩
  · exact covers.visitCell mask x y
  · rcases visitCell_cases mask scan x y with
      ⟨enclosing, ⟨_, clear | none⟩ | ⟨other, _, opened⟩⟩
    · rw [opening?, clear] at opens
      simp at opens
    · rw [opens] at none
      cases none
    · rw [opened]
      exact (sound.openBorder beside other).2

/-! ## The whole scan -/

theorem Sound.visitRow (sound : Sound mask scan) {y : Nat}
    (inside : y < mask.height) : Sound mask (scan.visitRow mask y) :=
  List.foldlRecOn (motive := Sound mask) _ _ (sound.enclose 1)
    fun _ held _ listed =>
      held.visitCell ⟨List.mem_range.1 listed, inside⟩

theorem Covers.visitRow {point : Point} (covers : scan.Covers point)
    (mask : GrayPicture) (y : Nat) : (scan.visitRow mask y).Covers point :=
  List.foldlRecOn (motive := fun scan : Scan => scan.Covers point) _ _ covers
    fun _ held x _ => held.visitCell mask x y

theorem Sound.covers_visitRow (sound : Sound mask scan) {point : Point}
    (beside : mask.BesideClear point) (inside : mask.Contains point.x point.y) :
    (scan.visitRow mask point.y).Covers point :=
  foldl_establishes (fun scan : Scan => scan.Covers point)
    (fun _ _ listed held => held.visitCell ⟨List.mem_range.1 listed, inside.2⟩)
    (fun _ held => held.covers_visitCell beside)
    (fun _ x _ held => held.visitCell mask x point.y)
    (List.mem_range.2 inside.1) (sound.enclose 1)

/-- The scan after the last row. -/
def finish (mask : GrayPicture) : Scan :=
  (List.range mask.height).foldl (visitRow mask) (start mask)

theorem sound_finish (mask : GrayPicture) : Sound mask (finish mask) :=
  List.foldlRecOn (motive := Sound mask) _ _ (sound_start mask)
    fun _ held _ listed => held.visitRow (List.mem_range.1 listed)

theorem covers_finish {point : Point} (beside : mask.BesideClear point) :
    (finish mask).Covers point := by
  have inside := GrayPicture.contains_of_isForeground beside.1
  exact foldl_establishes (fun scan : Scan => scan.Covers point)
    (fun _ _ listed held => held.visitRow (List.mem_range.1 listed))
    (fun _ held => held.covers_visitRow beside inside)
    (fun _ y _ held => held.visitRow mask y)
    (List.mem_range.2 inside.2) (sound_start mask)

/--
What holds of a scan before the first row and is kept when a border is opened
beside a clear cell holds after the last row.
-/
theorem finish_keeps {property : Scan → Prop} (atStart : property (start mask))
    (enclose : ∀ (scan : Scan) (enclosing : Int), property scan →
      property { scan with enclosing })
    (opens : ∀ (scan : Scan) (x y : Nat) (kind : BorderKind),
      mask.BesideClear { x, y } → property scan →
        property (scan.openBorder mask x y kind)) :
    property (finish mask) := by
  have step (scan : Scan) {x y : Nat} (inside : mask.Contains x y)
      (held : Sound mask scan ∧ property scan) :
      Sound mask (scan.visitCell mask x y) ∧
        property (scan.visitCell mask x y) := by
    refine ⟨held.1.visitCell inside, ?_⟩
    rcases visitCell_cases mask scan x y with
      ⟨enclosing, ⟨same, _⟩ | ⟨kind, opened, visited⟩⟩
    · rw [same]
      exact enclose scan enclosing held.2
    · rw [visited]
      exact enclose _ enclosing
        (opens scan x y kind (held.1.besideClear inside opened) held.2)
  exact (List.foldlRecOn
    (motive := fun scan => Sound mask scan ∧ property scan) _ (visitRow mask)
    ⟨sound_start mask, atStart⟩ fun scan held _ row =>
      List.foldlRecOn
        (motive := fun scan => Sound mask scan ∧ property scan) _ _
        ⟨held.1.enclose 1, enclose scan 1 held.2⟩ fun scan held _ column =>
          step scan ⟨List.mem_range.1 column, List.mem_range.1 row⟩ held).2

end Scan

variable {mask : GrayPicture}

theorem all_eq (mask : GrayPicture) :
    all mask = (Scan.finish mask).borders.toList :=
  rfl

/-- Every set cell beside a clear one lies on a border. -/
theorem exists_border_of_besideClear {point : Point}
    (beside : mask.BesideClear point) :
    ∃ border ∈ all mask, point ∈ border.points := by
  obtain ⟨border, member, onBorder⟩ := Scan.covers_finish beside
  exact ⟨border, Array.mem_toList_iff.2 member, onBorder⟩

/--
The cells of a border lie in the component of one of them, a set cell beside a
clear one.
-/
theorem exists_start_of_mem_all {border : Border} (member : border ∈ all mask) :
    ∃ start ∈ border.points, mask.BesideClear start ∧
      ∀ point ∈ border.points, point ∈ mask.silhouette.component start :=
  (Scan.sound_finish mask).connected border (Array.mem_toList_iff.1 member)

theorem contains_of_mem_points {border : Border} {point : Point}
    (listed : border ∈ all mask) (member : point ∈ border.points) :
    mask.Contains point.x point.y := by
  obtain ⟨start, _, beside, connected⟩ := exists_start_of_mem_all listed
  exact GrayPicture.contains_of_isForeground
    (LabelMap.isForeground_of_mem beside.1 (connected point member))

/-- The parent of a border comes before it. -/
theorem parent_lt {index parent : Nat} {border : Border}
    (found : (all mask)[index]? = some border)
    (itsParent : border.parent = some parent) : parent < index := by
  rw [all_eq, Array.getElem?_toList] at found
  exact (Scan.sound_finish mask).parents index border parent found itsParent

end Border

end ScreenCompare
