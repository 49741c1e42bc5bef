import Mathlib.Data.List.Nodup
import ScreenCompare.Proofs.Canvas
import ScreenCompare.Proofs.Matching.Unchanged

/-!
# Every segment is reported once

A segment shows up in the outcome in one of two ways: as a member of a pair, or
outlined on the overlay of its side.  The overlay does not see the pairs, it
goes by the flags alone.  Since exactly the flags of paired segments are raised
when all were down at first, pairs and overlay share the segments between them
(`assign_reports_once`).
-/

namespace ScreenCompare

namespace Rect

/--
The rectangle has cells.  That of a segment always has, since it is drawn around
the cells of a region.
-/
def HasCells (area : Rect) : Prop :=
  0 < area.width ∧ 0 < area.height

instance (area : Rect) : Decidable area.HasCells :=
  inferInstanceAs (Decidable (_ ∧ _))

end Rect

namespace Picture

/-! ## Several outlines -/

/--
A cell on one of the outlines has their color, and every other cell is as it
was.
-/
theorem get?_outlineAll {picture : Picture} {segments : List Segment}
    {color : Color} {x y : Nat} :
    (picture.outlineAll segments color).get? x y =
      if ∃ segment ∈ segments,
          ((x : Int), (y : Int)) ∈ segment.area.outlineCells then
        (picture.get? x y).map fun _ => color
      else picture.get? x y := by
  rw [outlineAll]
  induction segments generalizing picture with
  | nil => simp
  | cons segment rest inductionHypothesis =>
      rw [List.foldl_cons, inductionHypothesis, drawOutline,
        get?_foldl_paint]
      by_cases here : ((x : Int), (y : Int)) ∈ segment.area.outlineCells
      · simp [here, Function.comp_def]
      · simp [here]

end Picture

namespace Segment

variable {segments : List Segment} {paired : List Nat} {position : Nat}

/-! ## Paired and outlined positions -/

/-- The positions of the segments whose flag is down. -/
def unmatched (segments : List Segment) : List Nat :=
  (List.range segments.length).filter fun position =>
    segments[position]?.any fun segment => !segment.matched

/-- The segments after the flags at some positions have been raised. -/
def markAt (paired : List Nat) (segments : List Segment) : List Segment :=
  segments.mapIdx fun position segment =>
    segment.markIf (paired.contains position)

theorem getElem?_markAt :
    (markAt paired segments)[position]? =
      segments[position]?.map fun segment =>
        segment.markIf (paired.contains position) := by
  rw [markAt, List.getElem?_mapIdx]

theorem filterMap_getElem?_range {α : Type} (entries : List α) :
    (List.range entries.length).filterMap (entries[·]?) = entries := by
  induction entries with
  | nil => rfl
  | cons entry rest inductionHypothesis =>
      rw [List.length_cons, List.range_succ_eq_map, List.filterMap_cons,
        List.filterMap_map]
      exact congrArg (entry :: ·) inductionHypothesis

section Free

variable (free : ∀ segment ∈ segments, segment.matched = false)

include free

theorem mem_unmatched_markAt :
    position ∈ unmatched (markAt paired segments) ↔
      position < segments.length ∧ position ∉ paired := by
  rw [unmatched, List.mem_filter, List.mem_range, markAt, List.length_mapIdx,
    ← markAt, getElem?_markAt]
  refine and_congr_right fun bound => ?_
  have down := free _ (List.getElem_mem bound)
  simp [List.getElem?_eq_getElem bound, markIf, down]

/--
The segments whose flag is still down are those at the unmatched positions, and
they are as they were.
-/
theorem filter_markAt :
    (markAt paired segments).filter (fun segment => !segment.matched) =
      (unmatched (markAt paired segments)).filterMap (segments[·]?) := by
  rw [unmatched, List.filterMap_filter,
    ← filterMap_getElem?_range (markAt paired segments),
    List.filter_filterMap, filterMap_getElem?_range]
  refine List.filterMap_congr fun position _ => ?_
  rw [getElem?_markAt]
  cases found : segments[position]? with
  | none => rfl
  | some segment =>
      have down := free segment (List.mem_of_getElem? found)
      by_cases isPaired : position ∈ paired
      · simp [isPaired, markIf]
      · simp [isPaired, down]

/-- No position is left out and none occurs twice. -/
theorem perm_paired_append_unmatched (distinct : paired.Nodup)
    (bound : ∀ position ∈ paired, position < segments.length) :
    (paired ++ unmatched (markAt paired segments)).Perm
      (List.range segments.length) := by
  have apart : (paired ++ unmatched (markAt paired segments)).Nodup := by
    refine List.nodup_append.2 ⟨distinct, List.nodup_range.filter _, ?_⟩
    rintro position isPaired _ member rfl
    exact ((mem_unmatched_markAt free).1 member).2 isPaired
  refine (List.perm_ext_iff_of_nodup apart List.nodup_range).2 ?_
  intro position
  rw [List.mem_append, mem_unmatched_markAt free, List.mem_range]
  constructor
  · rintro (isPaired | ⟨inside, _⟩)
    · exact bound position isPaired
    · exact inside
  · intro inside
    by_cases isPaired : position ∈ paired
    · exact .inl isPaired
    · exact .inr ⟨inside, isPaired⟩

end Free

/-- Pairs and an overlay report every segment of one side exactly once. -/
structure ReportedOnce (segments : List Segment) (paired boxed : List Nat)
    (picture overlay : Picture) (color : Color) : Prop where
  once : ∀ position < segments.length,
    (paired.count position = 1 ∧ position ∉ boxed) ∨
      (position ∉ paired ∧ boxed.count position = 1)
  total : paired.length + boxed.length = segments.length
  boxes : overlay =
    picture.outlineAll (boxed.filterMap (segments[·]?)) color
  sameSize : overlay.SameSize picture
  outlined : ∀ position segment, segments[position]? = some segment →
    position ∉ paired → ∀ x y : Nat, segment.area.OnOutline x y →
      overlay.get? x y = (picture.get? x y).map fun _ => color
  untouched : ∀ x y : Nat,
    (∀ position segment, segments[position]? = some segment →
      position ∉ paired → ¬ segment.area.OnOutline x y) →
    overlay.get? x y = picture.get? x y

/--
If all flags were down at first and those of the paired segments have been
raised, the overlay outlines the others.
-/
theorem reportedOnce_markAt
    (free : ∀ segment ∈ segments, segment.matched = false)
    (cells : ∀ segment ∈ segments, segment.area.HasCells)
    (distinct : paired.Nodup)
    (bound : ∀ position ∈ paired, position < segments.length)
    (picture : Picture) (color : Color) :
    ReportedOnce segments paired (unmatched (markAt paired segments)) picture
      (picture.outlineUnmatched (markAt paired segments) color) color := by
  have shared := perm_paired_append_unmatched free distinct bound
  have boxes : picture.outlineUnmatched (markAt paired segments) color =
      picture.outlineAll
        ((unmatched (markAt paired segments)).filterMap (segments[·]?))
        color := by
    rw [Picture.outlineUnmatched, filter_markAt free]
  have drawn {x y : Nat} :
      (∃ segment ∈
          (unmatched (markAt paired segments)).filterMap (segments[·]?),
        ((x : Int), (y : Int)) ∈ segment.area.outlineCells) ↔
      ∃ position segment, segments[position]? = some segment ∧
        position ∉ paired ∧ segment.area.OnOutline x y := by
    simp only [List.mem_filterMap, mem_unmatched_markAt free]
    constructor
    · rintro ⟨segment, ⟨position, ⟨_, unpaired⟩, found⟩, onOutline⟩
      have ⟨columns, rows⟩ := cells segment (List.mem_of_getElem? found)
      exact ⟨position, segment, found, unpaired,
        (Rect.mem_outlineCells columns rows).1 onOutline⟩
    · rintro ⟨position, segment, found, unpaired, onOutline⟩
      have ⟨columns, rows⟩ := cells segment (List.mem_of_getElem? found)
      have inside := (List.getElem?_eq_some_iff.1 found).1
      exact ⟨segment, ⟨position, ⟨inside, unpaired⟩, found⟩,
        (Rect.mem_outlineCells columns rows).2 onOutline⟩
  refine ⟨?_, ?_, boxes, Picture.sameSize_outlineUnmatched .., ?_, ?_⟩
  · intro position inside
    by_cases isPaired : position ∈ paired
    · refine .inl ⟨List.count_eq_one_of_mem distinct isPaired, ?_⟩
      exact fun member => ((mem_unmatched_markAt free).1 member).2 isPaired
    · refine .inr ⟨isPaired, List.count_eq_one_of_mem
        (List.nodup_range.filter _) ?_⟩
      exact (mem_unmatched_markAt free).2 ⟨inside, isPaired⟩
  · simpa using shared.length_eq
  · intro position segment found unpaired x y onOutline
    rw [boxes, Picture.get?_outlineAll,
      if_pos (drawn.2 ⟨position, segment, found, unpaired, onOutline⟩)]
  · intro x y apart
    rw [boxes, Picture.get?_outlineAll, if_neg]
    intro onOutline
    rcases drawn.1 onOutline with ⟨position, segment, found, unpaired, here⟩
    exact apart position segment found unpaired here

end Segment

namespace Assignment.Sound

variable {rule : MatchRule} {old new : List Segment} {found : Assignment}

/-! ## The flags that an assignment raises -/

theorem old_eq_markAt (sound : Sound rule 0 old new found) :
    found.old = Segment.markAt (found.pairs.map MatchPair.old) old := by
  rw [sound.oldFlags, Segment.markAt]
  simp only [Nat.zero_add, List.contains_map, Bool.beq_comm]

theorem new_eq_markAt (sound : Sound rule 0 old new found) :
    found.new = Segment.markAt (found.pairs.map MatchPair.new) new := by
  rw [sound.newFlags, Segment.markAt]
  simp only [List.contains_map, Bool.beq_comm]

theorem old_lt_length (sound : Sound rule 0 old new found) :
    ∀ position ∈ found.pairs.map MatchPair.old, position < old.length := by
  rw [List.forall_mem_map]
  intro pair member
  rcases sound.joined pair member with ⟨offset, _, _, equality, atOld, _⟩
  have bound := (List.getElem?_eq_some_iff.1 atOld).1
  omega

theorem new_lt_length (sound : Sound rule 0 old new found) :
    ∀ position ∈ found.pairs.map MatchPair.new, position < new.length := by
  rw [List.forall_mem_map]
  intro pair member
  rcases sound.joined pair member with ⟨_, _, _, _, _, atNew, _⟩
  exact (List.getElem?_eq_some_iff.1 atNew).1

theorem nodup_map_old (sound : Sound rule 0 old new found) :
    (found.pairs.map MatchPair.old).Nodup :=
  List.pairwise_map.2 (sound.ordered.imp Nat.ne_of_lt)

theorem nodup_map_new (sound : Sound rule 0 old new found) :
    (found.pairs.map MatchPair.new).Nodup :=
  List.pairwise_map.2 sound.distinct

end Assignment.Sound

namespace MatchRule

/--
If all flags are down at first, every segment of either side is either in one
pair or outlined on the overlay of its side, and never both.
-/
theorem assign_reports_once (rule : MatchRule) {old new : List Segment}
    (oldFree : ∀ segment ∈ old, segment.matched = false)
    (newFree : ∀ segment ∈ new, segment.matched = false)
    (oldCells : ∀ segment ∈ old, segment.area.HasCells)
    (newCells : ∀ segment ∈ new, segment.area.HasCells)
    (oldPicture newPicture : Picture) (deleted added : Color) :
    Segment.ReportedOnce old ((rule.assign old new).pairs.map MatchPair.old)
        (Segment.unmatched (rule.assign old new).old) oldPicture
        (oldPicture.outlineUnmatched (rule.assign old new).old deleted)
        deleted ∧
      Segment.ReportedOnce new ((rule.assign old new).pairs.map MatchPair.new)
        (Segment.unmatched (rule.assign old new).new) newPicture
        (newPicture.outlineUnmatched (rule.assign old new).new added)
        added := by
  have sound : Assignment.Sound rule 0 old new (rule.assign old new) :=
    assignFrom_sound rule 0 old new
  rw [sound.old_eq_markAt, sound.new_eq_markAt]
  exact ⟨Segment.reportedOnce_markAt oldFree oldCells sound.nodup_map_old
      sound.old_lt_length oldPicture deleted,
    Segment.reportedOnce_markAt newFree newCells sound.nodup_map_new
      sound.new_lt_length newPicture added⟩

/--
Of two old segments with the same rows only the first one finds the new segment
with these rows; the other one, the one without a descriptor and a new segment
with other rows are outlined.
-/
theorem lone_partner_leaves_the_rest_outlined :
    let rows : Descriptor := .ofColumn [Single.zero]
    let others : Descriptor := .ofColumn [{ bits := 0x40a00000 }]
    let old : List Segment := [.bare .old rows, .bare .old none, .bare .old rows]
    let new : List Segment := [.bare .new others, .bare .new rows]
    let found := (standard true).assign old new
    let oldPicture : Picture := .filled 2 2 Color.outline
    let newPicture : Picture := .filled 3 1 Color.outline
    (∀ segment ∈ old, segment.matched = false) ∧
      (∀ segment ∈ new, segment.matched = false) ∧
      (∀ segment ∈ old, segment.area.HasCells) ∧
      (∀ segment ∈ new, segment.area.HasCells) ∧
      found.pairs = [{ old := 0, new := 1 }] ∧
      Segment.ReportedOnce old [0] [1, 2] oldPicture
        (oldPicture.outlineUnmatched found.old Color.deleted) Color.deleted ∧
      Segment.ReportedOnce new [1] [0] newPicture
        (newPicture.outlineUnmatched found.new Color.added) Color.added := by
  intro rows others old new found oldPicture newPicture
  have oldFree : ∀ segment ∈ old, segment.matched = false := by decide +kernel
  have newFree : ∀ segment ∈ new, segment.matched = false := by decide +kernel
  have oldCells : ∀ segment ∈ old, segment.area.HasCells := by decide +kernel
  have newCells : ∀ segment ∈ new, segment.area.HasCells := by decide +kernel
  have pairs : found.pairs = [{ old := 0, new := 1 }] := by decide +kernel
  have oldBoxed : Segment.unmatched found.old = [1, 2] := by decide +kernel
  have newBoxed : Segment.unmatched found.new = [0] := by decide +kernel
  have ⟨oldOnce, newOnce⟩ := assign_reports_once (standard true) oldFree
    newFree oldCells newCells oldPicture newPicture Color.deleted Color.added
  change Segment.ReportedOnce old (found.pairs.map MatchPair.old)
    (Segment.unmatched found.old) oldPicture _ _ at oldOnce
  change Segment.ReportedOnce new (found.pairs.map MatchPair.new)
    (Segment.unmatched found.new) newPicture _ _ at newOnce
  rw [pairs, oldBoxed] at oldOnce
  rw [pairs, newBoxed] at newOnce
  exact ⟨oldFree, newFree, oldCells, newCells, pairs, oldOnce, newOnce⟩

end MatchRule

end ScreenCompare
