import ScreenCompare.Proofs.LabelMap.Flood
import ScreenCompare.Proofs.LabelMap.Harvest
import ScreenCompare.Proofs.LabelMap.MarkerLabels
import ScreenCompare.Proofs.Ridge
import ScreenCompare.Segmentation

/-!
# Segmentation does not look at colors

Markers are never negative, so raising them by one leaves no unknown cell and
nothing is left to flood.  The regions of a picture are then those of its framed,
raised markers, which depend on the gray version alone.
-/

namespace ScreenCompare

namespace LabelMap

theorem isAssigned_raise {labels : LabelMap}
    (nonnegative : labels.IsNonnegative) : (labels.raise 1).IsAssigned := by
  intro x y found
  rw [raise, Raster.get?_map, Option.map_eq_some_iff] at found
  rcases found with ⟨label, here, raised⟩
  have least := nonnegative x y label here
  rw [unknown] at raised
  omega

/-- Flooding raised markers only frames them. -/
theorem flood_raise_ofMask (mask : GrayPicture) (relief : Picture) :
    ((ofMask mask).raise 1).flood relief = ((ofMask mask).raise 1).frame :=
  flood_eq_frame (isAssigned_raise (ofMask_bounds mask).2) relief

theorem sameSize_raise_ofMask (gray : GrayPicture) (threshold : UInt8) :
    ((ofMask (gray.ridges threshold)).raise 1).SameSize gray :=
  (ofMask_bounds _).1.trans (GrayPicture.sameSize_ridges gray threshold)

end LabelMap

namespace Picture

theorem regionsOver_eq_ok {relief : Picture} {gray : GrayPicture}
    (threshold : UInt8) (fits : relief.SameSize gray) :
    relief.regionsOver gray threshold =
      .ok (((LabelMap.ofMask (gray.ridges threshold)).raise 1).frame.regions) := by
  have sizes := LabelMap.sameSize_raise_ofMask gray threshold
  have fitsMarkers :
      relief.SameSize ((LabelMap.ofMask (gray.ridges threshold)).raise 1) :=
    ⟨fits.1.trans sizes.1.symm, fits.2.trans sizes.2.symm⟩
  have flooded : ((LabelMap.ofMask (gray.ridges threshold)).raise 1).flood?
      relief = .ok ((LabelMap.ofMask (gray.ridges threshold)).raise 1).frame := by
    rw [LabelMap.flood?, if_pos fitsMarkers, LabelMap.flood_raise_ofMask]
  rw [regionsOver, flooded]
  rfl

/--
Over a relief of the gray picture's size nothing is flooded, and the regions are
those of the framed, raised markers; so every two such reliefs yield the same
regions.
-/
theorem regionsOver_ignores_relief {relief other : Picture} {gray : GrayPicture}
    (threshold : UInt8) (fits : relief.SameSize gray)
    (otherFits : other.SameSize gray) :
    ((LabelMap.ofMask (gray.ridges threshold)).raise 1).flood relief =
        ((LabelMap.ofMask (gray.ridges threshold)).raise 1).frame ∧
      relief.regionsOver gray threshold =
        .ok (((LabelMap.ofMask (gray.ridges threshold)).raise 1).frame.regions) ∧
      relief.regionsOver gray threshold = other.regionsOver gray threshold := by
  have regions := regionsOver_eq_ok threshold fits
  have otherRegions := regionsOver_eq_ok threshold otherFits
  exact ⟨LabelMap.flood_raise_ofMask _ relief, regions,
    regions.trans otherRegions.symm⟩

/--
A picture that is bright in its first column, under two reliefs, one with steps
between its columns and one with steps between its rows.  The ridge ends with
the eighth column.  Its cells there carry the only label of the markers, so there
is a region.
-/
theorem regionsOver_columns_eq_rows :
    let columns : Picture :=
      Raster.ofFn 12 5 fun x _ => Color.ofGray (if x % 2 = 0 then 0 else 255)
    let rows : Picture :=
      Raster.ofFn 12 5 fun _ y => Color.ofGray (if y % 2 = 0 then 0 else 255)
    let gray : GrayPicture :=
      Raster.ofFn 12 5 fun x _ => if x = 0 then 255 else 0
    columns.SameSize gray ∧ rows.SameSize gray ∧
      (gray.ridges 200).get? 7 2 = some 255 ∧
      (gray.ridges 200).get? 8 2 = some 0 ∧
      ∃ regions ≠ [], columns.regionsOver gray 200 = .ok regions ∧
        rows.regionsOver gray 200 = .ok regions := by
  intro columns rows gray
  have columnsFit : columns.SameSize gray := ⟨rfl, rfl⟩
  have rowsFit : rows.SameSize gray := ⟨rfl, rfl⟩
  obtain ⟨_, found, same⟩ :=
    regionsOver_ignores_relief 200 columnsFit rowsFit
  have ridge : ∀ y ∈ [1, 2], (gray.ridges 200).get? 7 y = some 255 ∧
      (gray.ridges 200).get? 8 y = some 0 := by
    decide +kernel
  have onlyLabel :
      Border.labels (Border.all (gray.ridges 200)) = [1] := by
    decide +kernel
  have interior : ∀ y ∈ [1, 2],
      ¬ (7 = 0 ∨ y = 0 ∨ 7 + 1 = gray.width ∨ y + 1 = gray.height) := by
    decide
  have labelled (y : Nat) (isRow : y ∈ [1, 2]) :
      ((LabelMap.ofMask (gray.ridges 200)).raise 1).frame.get? 7 y =
        some 2 := by
    have beside : (gray.ridges 200).BesideClear { x := 7, y } :=
      ⟨GrayPicture.isForeground_silhouette_iff.2
        ⟨255, by decide, (ridge y isRow).1⟩, 8, .inr rfl, (ridge y isRow).2⟩
    obtain ⟨border, listed, onBorder⟩ :=
      Border.exists_border_of_besideClear beside
    obtain ⟨label, positive, marked⟩ :=
      LabelMap.exists_label_of_mem_border listed onBorder
    have isOne : label = 1 := by
      rcases LabelMap.eq_zero_or_mem_labels marked with
        zero | ⟨own, member, same⟩
      · omega
      · rw [onlyLabel, List.mem_singleton] at member
        rw [same, member]
        rfl
    have sizes := LabelMap.sameSize_raise_ofMask gray 200
    rw [LabelMap.get?_frame, sizes.1, sizes.2, if_neg (interior y isRow),
      LabelMap.raise, Raster.get?_map, marked, isOne]
    rfl
  have joined : ((LabelMap.ofMask (gray.ridges 200)).raise 1).frame.Joined
      { x := 7, y := 1 } { x := 7, y := 2 } :=
    ⟨by decide, 2, by decide, labelled 1 (by decide), labelled 2 (by decide)⟩
  exact ⟨columnsFit, rowsFit, (ridge 2 (by decide)).1, (ridge 2 (by decide)).2,
    _, LabelMap.regions_ne_nil_of_joined joined (by decide), found,
    same ▸ found⟩

end Picture

end ScreenCompare
