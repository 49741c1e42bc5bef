import Mathlib.Algebra.Group.Nat.Even
import Mathlib.Data.List.Sort
import ScreenCompare.Proofs.LabelMap.Marker

/-!
# The even-odd rule

A closed chain crosses every row an even number of times, since each crossing
takes it from the rows down to this one to the rows below or back, and the chain
ends where it started (`even_length_crossings`).  So taking the sorted crossings
in pairs drops none, and a column lies between two paired crossings exactly if it
is the column of a crossing or has an odd number of crossings to its left
(`exists_span_iff`).

The places covered by a filled chain are therefore those inside it by the
even-odd rule (`mem_covered_iff`).  If consecutive places touch, the chain
crosses a row only in columns of its own places there, and nothing outside their
bounding box is inside.
-/

namespace ScreenCompare

/-- Two places differ by at most one column and at most one row. -/
def Site.Touches (first second : Site) : Prop :=
  first.x ≤ second.x + 1 ∧ second.x ≤ first.x + 1 ∧
    first.y ≤ second.y + 1 ∧ second.y ≤ first.y + 1

instance (first second : Site) : Decidable (first.Touches second) :=
  inferInstanceAs (Decidable (_ ∧ _ ∧ _ ∧ _))

namespace LabelMap

/-- Consecutive places of a chain touch, and so do the last and the first. -/
def IsClosed (chain : List Site) : Prop :=
  ∀ edge ∈ edges chain, edge.1.Touches edge.2

instance (chain : List Site) : Decidable (IsClosed chain) :=
  inferInstanceAs (Decidable (∀ _ ∈ _, _))

/--
The place lies on a chain or in the column of a crossing of its row, or it has an
odd number of crossings to its left.
-/
def IsInside (chain : List Site) (site : Site) : Prop :=
  site ∈ chain ∨ (site.x : Rat) ∈ crossings chain site.y ∨
    Odd ((crossings chain site.y).countP fun column : Rat =>
      decide (column < site.x))

/-- The place lies in the smallest rectangle around some places. -/
def InBoundingBox (chain : List Site) (site : Site) : Prop :=
  (∃ left ∈ chain, left.x ≤ site.x) ∧ (∃ right ∈ chain, site.x ≤ right.x) ∧
    (∃ above ∈ chain, above.y ≤ site.y) ∧ ∃ below ∈ chain, site.y ≤ below.y

/-! ## Crossings -/

-- Counting does not need the crossings sorted, and sorting does not evaluate.
instance (chain : List Site) (site : Site) : Decidable (IsInside chain site) :=
  let columns := (edges chain).filterMap (crossing? site.y)
  decidable_of_iff
    (site ∈ chain ∨ (site.x : Rat) ∈ columns ∨
      Odd (columns.countP fun column : Rat => decide (column < site.x)))
    (by
      have unsorted := perm_crossings chain site.y
      rw [IsInside, unsorted.mem_iff, unsorted.countP_eq])

/--
A path from one place to another changes sides an even number of times exactly if
both lie on the same side.
-/
theorem even_countP_path (side : Site → Bool) {first last : Site}
    {rest : List Site} :
    Even (((first :: rest).zip (rest ++ [last])).countP fun edge =>
      side edge.1 != side edge.2) ↔ side first = side last := by
  induction rest generalizing first with
  | nil =>
      by_cases same : side first = side last
      · simp [same]
      · simp [same]
  | cons next rest inductionHypothesis =>
      rw [List.cons_append, List.zip_cons_cons, List.countP_cons, Nat.even_add,
        inductionHypothesis]
      cases side first <;> cases side next <;> simp

/--
An edge crosses a row if one of its ends lies below the row and the other does
not.
-/
theorem isSome_crossing? (row : Int) (edge : Site × Site) :
    (crossing? row edge).isSome =
      (decide (edge.1.y ≤ row) != decide (edge.2.y ≤ row)) := by
  rw [Bool.eq_iff_iff, bne_iff_ne, ne_eq, decide_eq_decide, crossing?]
  split
  · next crosses =>
      rw [Option.isSome_some, eq_self, true_iff]
      omega
  · next parallel =>
      simp only [Option.isSome_none, Bool.false_eq_true, false_iff, not_not]
      omega

theorem even_length_crossings (chain : List Site) (row : Int) :
    Even (crossings chain row).length := by
  rw [(perm_crossings chain row).length_eq, List.length_filterMap_eq_countP]
  cases chain with
  | nil => simp [edges]
  | cons first rest =>
      simp only [isSome_crossing?]
      exact (even_countP_path fun site => decide (site.y ≤ row)).2 rfl

theorem pairwise_crossings (chain : List Site) (row : Int) :
    (crossings chain row).Pairwise (· ≤ ·) :=
  List.pairwise_mergeSort' (· ≤ ·) _

/-! ## Paired crossings -/

theorem flatMap_spans : ∀ {columns : List Rat}, Even columns.length →
    (spans columns).flatMap (fun span => [span.1, span.2]) = columns
  | [], _ => rfl
  | [_], even => absurd even (by simp)
  | first :: second :: rest, even => by
      have evenRest : Even rest.length := by
        simpa [Nat.even_add_one] using even
      rw [spans, List.flatMap_cons, flatMap_spans evenRest]
      rfl

/--
Among sorted columns taken in pairs, a column lies between two of a pair exactly
if it is one of them or comes after an odd number of them.
-/
theorem exists_span_iff {column : Rat} : ∀ {columns : List Rat},
    columns.Pairwise (· ≤ ·) → Even columns.length →
      ((∃ span ∈ spans columns, span.1 ≤ column ∧ column ≤ span.2) ↔
        column ∈ columns ∨
          Odd (columns.countP fun other => decide (other < column)))
  | [], _, _ => by simp [spans]
  | [_], _, even => absurd even (by simp)
  | first :: second :: rest, sorted, even => by
      obtain ⟨⟨inOrder, fromFirst⟩, fromSecond, sortedRest⟩ :
          (first ≤ second ∧ ∀ other ∈ rest, first ≤ other) ∧
            (∀ other ∈ rest, second ≤ other) ∧ rest.Pairwise (· ≤ ·) := by
        simpa only [List.pairwise_cons, List.forall_mem_cons] using sorted
      have evenRest : Even rest.length := by
        simpa [Nat.even_add_one] using even
      have later := @exists_span_iff column rest sortedRest evenRest
      simp only [spans, List.mem_cons, exists_eq_or_imp, later,
        List.countP_cons, decide_eq_true_eq]
      by_cases beyond : second < column
      · have past : first < column := inOrder.trans_lt beyond
        simp [beyond.not_ge, past.ne', beyond.ne', past, beyond,
          Nat.odd_add_one]
      · have within : column ≤ second := not_lt.1 beyond
        have notLater :
            rest.countP (fun other => decide (other < column)) = 0 := by
          rw [List.countP_eq_zero]
          intro other member
          rw [decide_eq_true_eq, not_lt]
          exact within.trans (fromSecond other member)
        rw [notLater, if_neg beyond]
        by_cases reached : first ≤ column
        · refine iff_of_true (.inl ⟨reached, within⟩) ?_
          rcases reached.eq_or_lt with here | past
          · exact .inl (.inl here.symm)
          · exact .inr (by simp [past])
        · have notYet : column < first := not_le.1 reached
          have notAmong : column ∉ rest := by
            intro member
            exact (fromFirst column member).not_gt notYet
          simp [notAmong, reached, notYet.ne, notYet.not_gt,
            (notYet.trans_le inOrder).ne]

/-! ## The inside of a chain -/

/-- Exactly the places inside a closed chain are covered when it is filled. -/
theorem mem_covered_iff {chain : List Site} {site : Site} :
    site ∈ covered chain ↔ IsInside chain site := by
  rw [IsInside, ← exists_span_iff (pairwise_crossings chain site.y)
    (even_length_crossings chain site.y)]
  simp [covered, onSpan]

/--
A closed chain crosses a row only in the column of one of its places there: of
two touching places in different rows, the upper one.
-/
theorem exists_site_of_mem_crossings {chain : List Site}
    (closed : IsClosed chain) {row : Int} {column : Rat}
    (member : column ∈ crossings chain row) :
    ∃ site ∈ chain, site.y = row ∧ (site.x : Rat) = column := by
  rw [(perm_crossings chain row).mem_iff, List.mem_filterMap] at member
  obtain ⟨edge, isEdge, crosses⟩ := member
  have ends := mem_of_mem_edges isEdge
  have touches := closed edge isEdge
  unfold Site.Touches at touches
  rw [crossing?, Option.ite_none_right_eq_some, Option.some.injEq] at crosses
  obtain ⟨downwards | upwards, rfl⟩ := crosses
  · have upper : edge.1.y = row := by omega
    refine ⟨edge.1, ends.1, upper, ?_⟩
    simp [upper]
  · have upper : edge.2.y = row := by omega
    have lower : edge.1.y = row + 1 := by omega
    refine ⟨edge.2, ends.2, upper, ?_⟩
    simp [upper, lower]

/-- No place outside the bounding box of a closed chain is inside the chain. -/
theorem inBoundingBox_of_isInside {chain : List Site}
    (closed : IsClosed chain) {site : Site} (inside : IsInside chain site) :
    InBoundingBox chain site := by
  rcases mem_covered_iff.2 inside with member | ⟨span, isSpan, between⟩
  · exact ⟨⟨site, member, le_rfl⟩, ⟨site, member, le_rfl⟩,
      ⟨site, member, le_rfl⟩, ⟨site, member, le_rfl⟩⟩
  · obtain ⟨_, fromFirst, toSecond⟩ := between
    obtain ⟨isFirst, isSecond⟩ := mem_spans isSpan
    obtain ⟨left, leftMember, leftRow, leftColumn⟩ :=
      exists_site_of_mem_crossings closed isFirst
    obtain ⟨right, rightMember, _, rightColumn⟩ :=
      exists_site_of_mem_crossings closed isSecond
    rw [← leftColumn, Int.cast_le] at fromFirst
    rw [← rightColumn, Int.cast_le] at toSecond
    exact ⟨⟨left, leftMember, fromFirst⟩, ⟨right, rightMember, toSecond⟩,
      ⟨left, leftMember, leftRow.le⟩, ⟨left, leftMember, leftRow.ge⟩⟩

end LabelMap

end ScreenCompare
