import ScreenCompare.LabelMap.Marker
import ScreenCompare.Proofs.LabelMap.Border

/-!
# Labels of borders

Borders get their labels one after another, so one more border adds one label and
leaves the others as they are (`labels_concat`).  By induction from the last
border, the borders that start a region are numbered from 1 in their order
(`map_filter_zip_labels`), and a hole has the label of its parent if that comes
before it (`getElem?_labels_of_hole`).  The parents of the borders of a mask do,
so all their labels are positive (`labels_all`).
-/

namespace ScreenCompare

namespace Border

/-- The border gets a label of its own: it is not a hole with a parent. -/
def StartsRegion (border : Border) : Prop :=
  ¬ (border.kind = .hole ∧ border.parent.isSome)

instance (border : Border) : Decidable border.StartsRegion :=
  inferInstanceAs (Decidable (¬ _))

/-- How many borders get a label of their own. -/
def regionCount (borders : List Border) : Nat :=
  borders.countP fun border => decide border.StartsRegion

/-- The label of a border that comes after some others. -/
def labelAfter (borders : List Border) (border : Border) : Nat :=
  if border.StartsRegion then regionCount borders + 1
  else (labels borders).getD (border.parent.getD 0) 0

variable {borders : List Border} {border : Border} {index parent : Nat}

theorem regionCount_concat :
    regionCount (borders ++ [border]) =
      regionCount borders + if border.StartsRegion then 1 else 0 := by
  simp [regionCount, List.countP_singleton]

theorem Labelling.extend_of_startsRegion (labelling : Labelling)
    (starts : border.StartsRegion) :
    labelling.extend border =
      { labels := labelling.labels.push (labelling.last + 1)
        last := labelling.last + 1 } := by
  rw [extend]
  split
  · next isHole itsParent =>
      exact absurd ⟨isHole, by rw [itsParent]; rfl⟩ starts
  · rfl

theorem Labelling.extend_of_not_startsRegion (labelling : Labelling)
    (shares : ¬ border.StartsRegion) :
    labelling.extend border =
      { labelling with
        labels := labelling.labels.push
          (labelling.labels.getD (border.parent.getD 0) 0) } := by
  obtain ⟨isHole, hasParent⟩ := Classical.not_not.1 shares
  obtain ⟨parent, itsParent⟩ := Option.isSome_iff_exists.1 hasParent
  rw [extend, isHole, itsParent]
  rfl

theorem last_foldl_extend (borders : List Border) :
    (borders.foldl Labelling.extend { labels := #[], last := 0 }).last =
      regionCount borders := by
  induction borders using List.reverseRecOn with
  | nil => rfl
  | append_singleton earlier border inductionHypothesis =>
      rw [List.foldl_concat, regionCount_concat]
      by_cases starts : border.StartsRegion
      · rw [Labelling.extend_of_startsRegion _ starts, if_pos starts,
          inductionHypothesis]
      · rw [Labelling.extend_of_not_startsRegion _ starts, if_neg starts]
        exact inductionHypothesis

theorem labels_concat (borders : List Border) (border : Border) :
    labels (borders ++ [border]) =
      labels borders ++ [labelAfter borders border] := by
  rw [labels, List.foldl_concat, labelAfter]
  by_cases starts : border.StartsRegion
  · rw [Labelling.extend_of_startsRegion _ starts, if_pos starts,
      Array.toList_push, last_foldl_extend]
    rfl
  · rw [Labelling.extend_of_not_startsRegion _ starts, if_neg starts,
      Array.toList_push, Array.getD_eq_getD_getElem?, ← Array.getElem?_toList,
      ← List.getD_eq_getElem?_getD]
    rfl

@[simp]
theorem length_labels (borders : List Border) :
    (labels borders).length = borders.length := by
  induction borders using List.reverseRecOn with
  | nil => rfl
  | append_singleton earlier border inductionHypothesis =>
      rw [labels_concat, List.length_append, List.length_append,
        inductionHypothesis]
      rfl

/-- The borders with labels of their own are numbered from 1. -/
theorem map_filter_zip_labels (borders : List Border) :
    ((borders.zip (labels borders)).filter fun pair =>
        decide pair.1.StartsRegion).map Prod.snd =
      List.range' 1 (regionCount borders) := by
  induction borders using List.reverseRecOn with
  | nil => rfl
  | append_singleton earlier border inductionHypothesis =>
      rw [labels_concat, List.zip_append (length_labels earlier).symm,
        List.filter_append, List.map_append, inductionHypothesis,
        regionCount_concat]
      by_cases starts : border.StartsRegion
      · simp [starts, labelAfter, List.range'_concat, Nat.add_comm 1]
      · simp [starts]

theorem labelAfter_of_parent (shares : ¬ border.StartsRegion)
    (itsParent : border.parent = some parent)
    (earlier : parent < borders.length) :
    (labels borders)[parent]? = some (labelAfter borders border) := by
  have bound : parent < (labels borders).length := by
    rw [length_labels]
    exact earlier
  rw [labelAfter, if_neg shares, itsParent, Option.getD_some,
    List.getD_eq_getElem?_getD, List.getElem?_eq_getElem bound,
    Option.getD_some]

/--
A hole has the label of its parent, which is known when the hole is reached.
-/
theorem getElem?_labels_of_hole (found : borders[index]? = some border)
    (isHole : border.kind = .hole) (itsParent : border.parent = some parent)
    (earlier : parent < index) :
    (labels borders)[index]? = (labels borders)[parent]? := by
  induction borders using List.reverseRecOn with
  | nil => simp at found
  | append_singleton others last inductionHypothesis =>
      have bound := (List.getElem?_eq_some_iff.1 found).1
      rw [List.length_append, List.length_singleton] at bound
      rw [labels_concat]
      rw [List.getElem?_append_left (i := parent)
        (by rw [length_labels]; omega)]
      by_cases isLast : index = others.length
      · subst isLast
        rw [List.getElem?_concat_length, Option.some.injEq] at found
        subst found
        have shares : ¬ last.StartsRegion :=
          Classical.not_not.2 ⟨isHole, by rw [itsParent]; rfl⟩
        rw [labelAfter_of_parent shares itsParent earlier,
          ← length_labels others, List.getElem?_concat_length]
      · rw [List.getElem?_append_left (by rw [length_labels]; omega)]
        rw [List.getElem?_append_left (by omega)] at found
        exact inductionHypothesis found

/-- Labels are positive if parents come before their holes. -/
theorem labels_pos
    (earlier : ∀ (index : Nat) (border : Border) (parent : Nat),
      borders[index]? = some border → border.parent = some parent →
        parent < index) :
    ∀ label ∈ labels borders, 0 < label := by
  induction borders using List.reverseRecOn with
  | nil => simp [labels]
  | append_singleton others last inductionHypothesis =>
      have positive := inductionHypothesis (by
        intro index border parent found itsParent
        have bound := (List.getElem?_eq_some_iff.1 found).1
        exact earlier index border parent
          (by rw [List.getElem?_append_left bound, found]) itsParent)
      rw [labels_concat]
      intro label member
      rcases List.mem_append.1 member with member | member
      · exact positive label member
      · rw [List.mem_singleton.1 member]
        by_cases starts : last.StartsRegion
        · rw [labelAfter, if_pos starts]
          exact Nat.succ_pos _
        · obtain ⟨parent, itsParent⟩ :=
            Option.isSome_iff_exists.1 (Classical.not_not.1 starts).2
          have bound := earlier others.length last parent
            List.getElem?_concat_length itsParent
          exact positive _ (List.mem_of_getElem?
            (labelAfter_of_parent starts itsParent bound))

/-- All labels of the borders of a mask are positive. -/
theorem labels_all (mask : GrayPicture) :
    ∀ label ∈ labels (all mask), 0 < label :=
  labels_pos fun _ _ _ => parent_lt

/-- Every border of a mask has a label, and it is positive. -/
theorem exists_label {mask : GrayPicture}
    (found : (all mask)[index]? = some border) :
    ∃ label, (labels (all mask))[index]? = some label ∧ 0 < label := by
  have bound := (List.getElem?_eq_some_iff.1 found).1
  rw [← length_labels] at bound
  have itsLabel := List.getElem?_eq_getElem bound
  exact ⟨_, itsLabel, labels_all mask _ (List.mem_of_getElem? itsLabel)⟩

end Border

end ScreenCompare
