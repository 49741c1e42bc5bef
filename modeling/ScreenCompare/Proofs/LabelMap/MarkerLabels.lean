import ScreenCompare.Proofs.LabelMap.BorderParents
import ScreenCompare.Proofs.LabelMap.MarkedComponent

/-!
# Labels of markers

The labels of the borders of a mask are well defined: the parent of a hole is an
outer border that comes before it and has its label already, and all borders
that are no holes with a parent are numbered from 1.  The borders are painted one
after another, each with its own label.  Its cells carry that label right after
it has been painted and a positive one from then on, since there are no others
(`labels_number_regions`).

Every set cell beside a clear one lies on a border, so it ends up with a positive
label (`labelled_of_besideClear`).
-/

namespace ScreenCompare

namespace LabelMap

/-- Painting borders writes nothing but their labels. -/
theorem eq_zero_or_mem_labels {mask : GrayPicture} {x y : Nat} {value : Int}
    (found : (ofMask mask).get? x y = some value) :
    value = 0 ∨ ∃ label ∈ Border.labels (Border.all mask), value = label := by
  have values : ∀ value, (ofMask mask).get? x y = some value →
      value = 0 ∨ ∃ label ∈ Border.labels (Border.all mask), value = label := by
    rw [ofMask]
    apply List.foldlRecOn (motive := fun painted : LabelMap =>
      ∀ value, painted.get? x y = some value →
        value = 0 ∨ ∃ label ∈ Border.labels (Border.all mask), value = label)
    · intro value blank
      rw [LabelMap.blank, Raster.get?_filled, Option.ite_none_right_eq_some,
        Option.some.injEq] at blank
      exact .inl blank.2.symm
    · rintro painted earlier ⟨border, label⟩ listed value found
      rcases (paintsOn_paintFilled painted border.sites label).label_or_same
          x y with same | labelled
      · exact earlier value (same.symm.trans found)
      · rw [labelled, Option.some.injEq] at found
        exact .inr ⟨label, (List.of_mem_zip listed).2, found.symm⟩
  exact values value found

/--
Wherever the scan of a mask looks up an enclosing border, there is one.  The
parent of a border comes before it and is of the other kind, so that of a hole is
an outer border, and a hole has its parent's label.  There is one label for each
border, and all are positive.  The labels of all other borders, in the order in
which these are found, are the numbers from 1 to how many there are.  The markers
carry no value but 0 and labels of borders.

The markers come from a blank map by painting one border after another.  Painting
a border writes its own label on the places it covers and nothing else.  A border
has cells, all of them in the mask.  They have its label right after it has been
painted, positive labels whatever is painted later, and so in the end.
-/
theorem labels_number_regions (mask : GrayPicture) :
    let borders := Border.all mask
    let labels := Border.labels borders
    (∀ (x y : Nat) (kind : BorderKind), mask.Contains x y →
      let scan := Border.Scan.before mask x y
      1 < scan.enclosingAt x y kind → ∃ border,
        scan.borders[(scan.enclosingAt x y kind - 2).toNat]? = some border) ∧
      (∀ (index : Nat) (border : Border) (parent : Nat),
        borders[index]? = some border → border.parent = some parent →
          parent < index ∧
            (∃ enclosing, borders[parent]? = some enclosing ∧
              (enclosing.kind = .outer ↔ border.kind = .hole)) ∧
            (border.kind = .hole → labels[index]? = labels[parent]?)) ∧
      labels.length = borders.length ∧
      (∀ label ∈ labels, 0 < label) ∧
      ((borders.zip labels).filter fun pair =>
          decide pair.1.StartsRegion).map Prod.snd =
        List.range' 1 (Border.regionCount borders) ∧
      (∀ (x y : Nat) (value : Int), (ofMask mask).get? x y = some value →
        value = 0 ∨ ∃ label ∈ labels, value = label) ∧
      ofBorders mask 0 = blank mask.width mask.height ∧
      ofBorders mask borders.length = ofMask mask ∧
      ∀ (index : Nat) (border : Border), borders[index]? = some border →
        ∃ label, labels[index]? = some label ∧
          PaintsOn label (covered border.sites) (ofBorders mask index)
            (ofBorders mask (index + 1)) ∧
          border.points ≠ [] ∧
          ∀ point ∈ border.points, mask.Contains point.x point.y ∧
            (ofBorders mask (index + 1)).get? point.x point.y =
              some (label : Int) ∧
            (∀ count, index < count → ∃ kept, 0 < kept ∧
              (ofBorders mask count).get? point.x point.y = some kept) ∧
            ∃ final, 0 < final ∧
              (ofMask mask).get? point.x point.y = some final := by
  intro borders labels
  refine ⟨?_, ?_, Border.length_labels borders, Border.labels_all mask,
    Border.map_filter_zip_labels borders,
    fun x y value => eq_zero_or_mem_labels, ofBorders_zero mask,
    ofBorders_of_length_le (Nat.le_refl _), ?_⟩
  · intro x y kind inside scan above
    exact (Border.Scan.isNumbered_before inside).exists_border above
  · intro index border parent found itsParent
    have earlier := Border.parent_lt found itsParent
    obtain ⟨enclosing, atParent, different⟩ :=
      Border.exists_parent found itsParent
    refine ⟨earlier, ⟨enclosing, atParent, ?_⟩, fun isHole =>
      Border.getElem?_labels_of_hole found isHole itsParent earlier⟩
    cases itsKind : border.kind <;> cases enclosingKind : enclosing.kind <;>
      simp_all
  · intro index border found
    have listed := List.mem_of_getElem? found
    obtain ⟨label, itsLabel, _⟩ := Border.exists_label found
    obtain ⟨start, startMember, _⟩ := Border.exists_start_of_mem_all listed
    refine ⟨label, itsLabel, ?_, List.ne_nil_of_mem startMember, ?_⟩
    · rw [ofBorders_succ found itsLabel]
      exact paintsOn_paintFilled _ border.sites label
    · intro point member
      exact ⟨Border.contains_of_mem_points listed member,
        get?_ofBorders_succ found itsLabel member,
        fun count painted => exists_label_of_painted found painted member,
        exists_label_of_mem_border listed member⟩

/--
A ring has two borders.  The second one is that of its hole, which has the first
one as parent and shares its label.  It passes the left side of the ring, which
has label 1 once it is painted, and a positive one in the end.
-/
theorem hole_shares_label :
    let ring : GrayPicture := Raster.ofFn 5 5 fun x y =>
      if x = 0 ∨ y = 0 ∨ x = 4 ∨ y = 4 ∨ x = 2 ∧ y = 2 then 0 else 255
    ∃ hole, (Border.all ring)[1]? = some hole ∧ hole.kind = .hole ∧
      hole.parent = some 0 ∧
        (Border.labels (Border.all ring))[1]? =
          (Border.labels (Border.all ring))[0]? ∧
        { x := 1, y := 2 } ∈ hole.points ∧
        (ofBorders ring 2).get? 1 2 = some 1 ∧
        ∃ label, 0 < label ∧ (ofMask ring).get? 1 2 = some label := by
  intro ring
  have second : (Border.all ring)[1]?.map
      (fun border => (border.kind, border.parent,
        decide (Point.mk 1 2 ∈ border.points))) =
      some (.hole, some 0, true) := by
    decide +kernel
  have secondLabel : (Border.labels (Border.all ring))[1]? = some 1 := by
    decide +kernel
  obtain ⟨hole, found, facts⟩ := Option.map_eq_some_iff.1 second
  obtain ⟨isHole, itsParent, passes⟩ :=
    And.imp_right Prod.mk.inj (Prod.mk.inj facts)
  have passed := of_decide_eq_true passes
  obtain ⟨_, parents, _, _, _, _, _, _, painting⟩ := labels_number_regions ring
  obtain ⟨label, itsLabel, _, _, cells⟩ := painting 1 hole found
  obtain ⟨_, painted, _, final⟩ := cells { x := 1, y := 2 } passed
  obtain rfl : 1 = label := Option.some.inj (secondLabel.symm.trans itsLabel)
  exact ⟨hole, found, isHole, itsParent,
    (parents 1 hole 0 found itsParent).2.2 isHole, passed, painted, final⟩

/--
A set cell with a clear cell to its left or right lies on a border, has a
positive label from the moment that border is painted, whatever is painted over
it, and in the end.
-/
theorem labelled_of_besideClear {mask : GrayPicture} {point : Point}
    (beside : mask.BesideClear point) :
    (∃ (index : Nat) (border : Border),
      (Border.all mask)[index]? = some border ∧ point ∈ border.points ∧
        ∀ count, index < count → ∃ label, 0 < label ∧
          (ofBorders mask count).get? point.x point.y = some label) ∧
      ∃ label, 0 < label ∧
        (ofMask mask).get? point.x point.y = some label := by
  obtain ⟨border, listed, onBorder⟩ :=
    Border.exists_border_of_besideClear beside
  obtain ⟨index, found⟩ := List.mem_iff_getElem?.1 listed
  refine ⟨⟨index, border, found, onBorder, ?_⟩,
    exists_label_of_mem_border listed onBorder⟩
  intro count painted
  exact exists_label_of_painted found painted onBorder

/--
The left side of a ring of single cells, with clear cells both outside and inside
the ring beside it, is labelled.
-/
theorem ring_side_is_labelled :
    let ring : GrayPicture := Raster.ofFn 5 5 fun x y =>
      if (x = 1 ∨ x = 3) ∧ 1 ≤ y ∧ y ≤ 3 ∨ (y = 1 ∨ y = 3) ∧ x = 2 then 255
      else 0
    ring.BesideClear { x := 1, y := 2 } ∧
      ∃ label, 0 < label ∧ (ofMask ring).get? 1 2 = some label := by
  intro ring
  have beside : ring.BesideClear { x := 1, y := 2 } :=
    ⟨GrayPicture.isForeground_silhouette_iff.2 ⟨255, by decide, by decide⟩,
      2, .inr rfl, by decide⟩
  exact ⟨beside, (labelled_of_besideClear beside).2⟩

end LabelMap

end ScreenCompare
