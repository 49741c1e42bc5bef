import Mathlib.Data.Rat.Floor
import ScreenCompare.LabelMap.Marker
import ScreenCompare.Proofs.Raster

/-!
# What painting writes

Painting labels the cells at certain places and leaves all others as they were
(`PaintsOn`).  The relation is kept by doing nothing and by painting further
places, so it passes from a single place to spans, rows and filled chains.  A
filled chain covers its own places and those between two paired crossings of
their row (`paintsOn_paintFilled`).

Markers are painted with counted labels onto a map of zeros, hence never
negative.
-/

namespace ScreenCompare

@[simp]
theorem Point.x_site (point : Point) : point.site.x = point.x :=
  rfl

@[simp]
theorem Point.y_site (point : Point) : point.site.y = point.y :=
  rfl

namespace LabelMap

theorem mem_wholesFrom {first last whole : Int} :
    whole ∈ wholesFrom first last ↔ first ≤ whole ∧ whole ≤ last := by
  simp only [wholesFrom, List.mem_map, List.mem_range]
  constructor
  · rintro ⟨steps, bound, rfl⟩
    omega
  · intro bounds
    exact ⟨(whole - first).toNat, by omega, by omega⟩

/--
The cells at some places carry the label, and all others are as they were.
-/
structure PaintsOn (label : Int) (places : Set Site)
    (before after : LabelMap) : Prop where
  sameSize : after.SameSize before
  painted : ∀ point : Point, point.site ∈ places →
    before.Contains point.x point.y →
      after.get? point.x point.y = some label
  kept : ∀ point : Point, point.site ∉ places →
    after.get? point.x point.y = before.get? point.x point.y

namespace PaintsOn

variable {label : Int}

theorem refl (labels : LabelMap) : PaintsOn label ∅ labels labels where
  sameSize := Raster.SameSize.refl labels
  painted := fun _ member => absurd member (Set.notMem_empty _)
  kept := fun _ _ => rfl

theorem trans {places further : Set Site} {first second third : LabelMap}
    (left : PaintsOn label places first second)
    (right : PaintsOn label further second third) :
    PaintsOn label (places ∪ further) first third where
  sameSize := right.sameSize.trans left.sameSize
  painted := by
    intro point member inside
    by_cases again : point.site ∈ further
    · apply right.painted point again
      rw [Raster.Contains, left.sameSize.1, left.sameSize.2]
      exact inside
    · rw [right.kept point again]
      exact left.painted point (member.resolve_right again) inside
  kept := by
    intro point outside
    rw [right.kept point fun member => outside (.inr member)]
    exact left.kept point fun member => outside (.inl member)

theorem foldl {α : Type} {step : LabelMap → α → LabelMap}
    {places : α → Set Site}
    (single : ∀ labels item, PaintsOn label (places item) labels
      (step labels item))
    (items : List α) (labels : LabelMap) :
    PaintsOn label { site | ∃ item ∈ items, site ∈ places item } labels
      (items.foldl step labels) := by
  induction items generalizing labels with
  | nil =>
      have nothing : { site : Site | ∃ item ∈ ([] : List α),
          site ∈ places item } = ∅ := by
        simp
      rw [nothing]
      exact refl labels
  | cons item rest inductionHypothesis =>
      have split : { site : Site | ∃ other ∈ item :: rest,
          site ∈ places other } =
            places item ∪ { site | ∃ other ∈ rest, site ∈ places other } := by
        ext site
        simp only [List.mem_cons, exists_eq_or_imp, Set.mem_ofPred_eq,
          Set.mem_union]
      rw [split]
      exact (single labels item).trans (inductionHypothesis _)

theorem label_or_same {places : Set Site} {before after : LabelMap}
    (paints : PaintsOn label places before after) (x y : Nat) :
    after.get? x y = before.get? x y ∨ after.get? x y = some label := by
  by_cases member : Point.site ⟨x, y⟩ ∈ places
  · by_cases inside : before.Contains x y
    · exact .inr (paints.painted ⟨x, y⟩ member inside)
    · have outside : ¬ after.Contains x y := by
        rw [Raster.Contains, paints.sameSize.1, paints.sameSize.2]
        exact inside
      rw [Raster.get?_eq_none_iff.2 inside, Raster.get?_eq_none_iff.2 outside]
      exact .inl rfl
  · exact .inl (paints.kept ⟨x, y⟩ member)

end PaintsOn

theorem paintsOn_paint (label : Int) (labels : LabelMap) (site : Site) :
    PaintsOn label {site} labels (paint label labels site) := by
  rw [paint]
  split
  · next hasCell =>
      have isSite {point : Point} : point.site = site ↔
          point = { x := site.x.toNat, y := site.y.toNat } := by
        obtain ⟨x, y⟩ := point
        obtain ⟨column, row⟩ := site
        simp only [Point.site, Site.mk.injEq, Point.mk.injEq] at hasCell ⊢
        omega
      refine ⟨Raster.SameSize.set .., ?_, ?_⟩
      · intro point here inside
        rw [isSite.1 here] at inside ⊢
        rw [Raster.get?_set, if_pos ⟨rfl, rfl, inside⟩]
      · intro point elsewhere
        rw [Raster.get?_set, if_neg]
        rintro ⟨sameColumn, sameRow, _⟩
        apply elsewhere
        rw [Set.mem_singleton_iff, isSite]
        cases point
        simp only at sameColumn sameRow
        rw [sameColumn, sameRow]
  · next noCell =>
      refine ⟨Raster.SameSize.refl labels, ?_, fun _ _ => rfl⟩
      rintro point rfl
      simp at noCell

/-- The places of a row from one column up to another. -/
def onSpan (row : Int) (span : Rat × Rat) : Set Site :=
  { site | site.y = row ∧ span.1 ≤ site.x ∧ site.x ≤ span.2 }

theorem paintsOn_paintSpan (label row : Int) (labels : LabelMap)
    (span : Rat × Rat) :
    PaintsOn label (onSpan row span) labels
      (paintSpan label row labels span) := by
  have painted := PaintsOn.foldl
    (fun labels (x : Int) => paintsOn_paint label labels { x, y := row })
    (wholesFrom span.1.ceil span.2.floor) labels
  have places : { site : Site | ∃ x ∈ wholesFrom span.1.ceil span.2.floor,
      site ∈ ({ { x, y := row } } : Set Site) } = onSpan row span := by
    ext site
    obtain ⟨column, siteRow⟩ := site
    simp only [mem_wholesFrom, Rat.ceil_le_iff, Rat.le_floor_iff,
      Set.mem_singleton_iff, Site.mk.injEq, Set.mem_ofPred_eq, onSpan]
    constructor
    · rintro ⟨_, bounds, rfl, rfl⟩
      exact ⟨rfl, bounds⟩
    · rintro ⟨rfl, bounds⟩
      exact ⟨column, bounds, rfl, rfl⟩
  exact places ▸ painted

theorem paintsOn_paintRow (label : Int) (chain : List Site)
    (labels : LabelMap) (row : Int) :
    PaintsOn label
      { site | ∃ span ∈ spans (crossings chain row), site ∈ onSpan row span }
      labels (paintRow label chain labels row) :=
  PaintsOn.foldl (paintsOn_paintSpan label row) _ labels

/-! ## Filled chains -/

theorem mem_spans {columns : List Rat} {span : Rat × Rat}
    (member : span ∈ spans columns) :
    span.1 ∈ columns ∧ span.2 ∈ columns := by
  induction columns using spans.induct with
  | case1 first second rest inductionHypothesis =>
      rw [spans, List.mem_cons] at member
      rcases member with rfl | later
      · simp
      · have both := inductionHypothesis later
        simp [both.1, both.2]
  | case2 columns short =>
      rw [spans] at member
      · cases member
      · exact short

theorem mem_of_mem_edges {chain : List Site} {edge : Site × Site}
    (member : edge ∈ edges chain) : edge.1 ∈ chain ∧ edge.2 ∈ chain := by
  cases chain with
  | nil => cases member
  | cons first rest =>
      have ends := List.of_mem_zip member
      refine ⟨ends.1, ?_⟩
      simpa [or_comm] using ends.2

theorem perm_crossings (chain : List Site) (row : Int) :
    (crossings chain row).Perm ((edges chain).filterMap (crossing? row)) :=
  List.mergeSort_perm _ _

/-- A row that a closed chain crosses lies between two places of the chain. -/
theorem exists_mem_of_mem_crossings {chain : List Site} {row : Int}
    {column : Rat} (member : column ∈ crossings chain row) :
    ∃ above ∈ chain, ∃ below ∈ chain, above.y ≤ row ∧ row ≤ below.y := by
  rw [(perm_crossings chain row).mem_iff, List.mem_filterMap] at member
  obtain ⟨edge, isEdge, crosses⟩ := member
  have ends := mem_of_mem_edges isEdge
  rw [crossing?, Option.ite_none_right_eq_some] at crosses
  rcases crosses.1 with ⟨above, below⟩ | ⟨above, below⟩
  · exact ⟨edge.1, ends.1, edge.2, ends.2, above, below.le⟩
  · exact ⟨edge.2, ends.2, edge.1, ends.1, above, below.le⟩

/--
The places of a closed chain, and those between two paired crossings of their
row.
-/
def covered (chain : List Site) : Set Site :=
  { site | site ∈ chain ∨
    ∃ span ∈ spans (crossings chain site.y), site ∈ onSpan site.y span }

theorem foldl_min_le {first : Site} {rest : List Site} {site : Site}
    (member : site ∈ first :: rest) :
    rest.foldl (fun row site => min row site.y) first.y ≤ site.y := by
  have least : ((first :: rest).map Site.y).min? =
      some (rest.foldl (fun row site => min row site.y) first.y) := by
    rw [List.map_cons, List.min?_cons', List.foldl_map]
  exact (List.min?_eq_some_iff.1 least).2 _ (List.mem_map_of_mem member)

theorem le_foldl_max {first : Site} {rest : List Site} {site : Site}
    (member : site ∈ first :: rest) :
    site.y ≤ rest.foldl (fun row site => max row site.y) first.y := by
  have greatest : ((first :: rest).map Site.y).max? =
      some (rest.foldl (fun row site => max row site.y) first.y) := by
    rw [List.map_cons, List.max?_cons', List.foldl_map]
  exact (List.max?_eq_some_iff.1 greatest).2 _ (List.mem_map_of_mem member)

/--
Painting a filled chain labels the places it covers.  Only the rows between its
first and its last one are gone through, but no other row has crossings.
-/
theorem paintsOn_paintFilled (labels : LabelMap) (chain : List Site)
    (label : Int) :
    PaintsOn label (covered chain) labels
      (labels.paintFilled chain label) := by
  cases chain with
  | nil =>
      have nothing : covered [] = ∅ := by
        ext site
        simp [covered, crossings, edges, spans]
      rw [nothing]
      exact PaintsOn.refl labels
  | cons first rest =>
      have painted := (PaintsOn.foldl
        (paintsOn_paintRow label (first :: rest)) (wholesFrom
          (rest.foldl (fun row site => min row site.y) first.y)
          (rest.foldl (fun row site => max row site.y) first.y)) labels).trans
        (PaintsOn.foldl (paintsOn_paint label) (first :: rest) _)
      rw [paintFilled]
      convert painted using 1
      ext site
      simp only [covered, Set.mem_union, Set.mem_ofPred_eq,
        Set.mem_singleton_iff, exists_eq_right', mem_wholesFrom]
      rw [or_comm]
      apply or_congr_left
      constructor
      · rintro ⟨span, isSpan, onIt⟩
        obtain ⟨above, aboveMember, below, belowMember, between⟩ :=
          exists_mem_of_mem_crossings (mem_spans isSpan).1
        exact ⟨site.y, ⟨(foldl_min_le aboveMember).trans between.1,
          between.2.trans (le_foldl_max belowMember)⟩, span, isSpan, onIt⟩
      · rintro ⟨row, _, span, isSpan, here, onIt⟩
        subst here
        exact ⟨span, isSpan, rfl, onIt⟩

/-! ## Markers -/

/-- No cell carries a negative label. -/
def IsNonnegative (labels : LabelMap) : Prop :=
  ∀ (x y : Nat) (label : Int), labels.get? x y = some label → 0 ≤ label

theorem isNonnegative_blank (width height : Nat) :
    (blank width height).IsNonnegative := by
  intro x y label found
  rw [blank, Raster.get?_filled, Option.ite_none_right_eq_some,
    Option.some.injEq] at found
  exact Int.le_of_eq found.2

theorem IsNonnegative.of_paintsOn {label : Int} {places : Set Site}
    {before after : LabelMap}
    (nonnegative : before.IsNonnegative) (least : 0 ≤ label)
    (paints : PaintsOn label places before after) : after.IsNonnegative := by
  intro x y other found
  rcases paints.label_or_same x y with same | painted
  · exact nonnegative x y other (same.symm.trans found)
  · rw [painted, Option.some.injEq] at found
    exact found ▸ least

/--
The markers of a mask have its size, and none of them is negative, whatever
borders it has and however these are nested.
-/
theorem ofMask_bounds (mask : GrayPicture) :
    (ofMask mask).SameSize mask ∧ (ofMask mask).IsNonnegative := by
  apply List.foldlRecOn
    (motive := fun labels => labels.SameSize mask ∧ IsNonnegative labels)
  · exact ⟨⟨rfl, rfl⟩, isNonnegative_blank mask.width mask.height⟩
  · rintro labels ⟨sameSize, nonnegative⟩ ⟨border, label⟩ _
    have paints := paintsOn_paintFilled labels border.sites label
    exact ⟨paints.sameSize.trans sameSize,
      nonnegative.of_paintsOn (Int.natCast_nonneg label) paints⟩

end LabelMap

end ScreenCompare
