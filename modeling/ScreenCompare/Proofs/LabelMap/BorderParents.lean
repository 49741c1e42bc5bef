import ScreenCompare.Proofs.LabelMap.Border

/-!
# Which border encloses which

A scan carries the numbers of borders in its marks and as the border met last in
its row.  All of them belong to recorded borders (`Scan.IsNumbered`), so the
border that a new one is compared with always exists
(`Scan.IsNumbered.exists_border`).

The parent of a new border is the one it is compared with or that one's parent,
whichever is of the other kind.  So outer borders and holes alternate along
parents, and the parent of a hole is an outer border (`exists_parent`).
-/

namespace ScreenCompare

namespace Border

namespace Scan

variable {mask : GrayPicture} {scan : Scan}

/-! ## Numbers of borders -/

/--
All numbers that a scan carries, up to their sign, are below that of the next
border.
-/
structure IsNumbered (scan : Scan) : Prop where
  marks : ∀ (point : Point) (mark : Int),
    scan.marks.get? point.x point.y = some mark →
      mark.natAbs < scan.borders.size + 2
  enclosing : scan.enclosing.natAbs < scan.borders.size + 2

/--
The number by which the border opened at a cell looks up what encloses it.
-/
def enclosingAt (scan : Scan) (x y : Nat) (kind : BorderKind) : Int :=
  let mark := scan.marks.getD x y 0
  if kind = .hole ∧ 1 < mark then mark else scan.enclosing

theorem openBorder_eq (mask : GrayPicture) (scan : Scan) (x y : Nat)
    (kind : BorderKind) :
    ∃ border : Border,
      (scan.openBorder mask x y kind).borders = scan.borders.push border ∧
        border.kind = kind ∧
        border.parent = scan.parentOf? kind (scan.enclosingAt x y kind) ∧
        (scan.openBorder mask x y kind).enclosing = scan.enclosingAt x y kind :=
  ⟨_, rfl, rfl, rfl, rfl⟩

theorem isNumbered_start (mask : GrayPicture) : IsNumbered (start mask) where
  marks := by
    intro point mark found
    rw [start, Raster.get?_map, Option.map_eq_some_iff] at found
    obtain ⟨brightness, _, rfl⟩ := found
    split
    · exact Nat.succ_pos 1
    · exact Nat.lt_succ_self 1
  enclosing := Nat.lt_succ_self 1

namespace IsNumbered

theorem getD_lt (numbered : scan.IsNumbered) (x y : Nat) :
    (scan.marks.getD x y 0).natAbs < scan.borders.size + 2 := by
  rw [Raster.getD_eq]
  cases found : scan.marks.get? x y with
  | none => exact Nat.succ_pos _
  | some mark => exact numbered.marks ⟨x, y⟩ mark found

theorem enclose (numbered : scan.IsNumbered) {enclosing : Int}
    (bound : enclosing.natAbs < scan.borders.size + 2) :
    IsNumbered { scan with enclosing } :=
  ⟨numbered.marks, bound⟩

theorem enclosingAt_lt (numbered : scan.IsNumbered) (x y : Nat)
    (kind : BorderKind) :
    (scan.enclosingAt x y kind).natAbs < scan.borders.size + 2 := by
  rw [enclosingAt]
  split
  · exact numbered.getD_lt x y
  · exact numbered.enclosing

theorem openBorder (numbered : scan.IsNumbered) {x y : Nat}
    (kind : BorderKind) (isSet : mask.silhouette.IsForeground { x, y }) :
    (scan.openBorder mask x y kind).IsNumbered := by
  obtain ⟨_, _, borders, _, _, _, stamps⟩ := exists_openBorder scan kind isSet
  obtain ⟨_, _, _, _, enclosing⟩ := openBorder_eq mask scan x y kind
  constructor
  · intro point mark found
    rw [borders, Array.size_push]
    rcases stamps.get? point with same | ⟨_, signed⟩
    · have old := numbered.marks point mark (same.symm.trans found)
      omega
    · rw [found, Option.some.injEq, Option.some.injEq, nextNumber] at signed
      omega
  · rw [borders, Array.size_push, enclosing]
    have old := numbered.enclosingAt_lt x y kind
    omega

theorem visitCell (numbered : scan.IsNumbered) (sound : Sound mask scan)
    {x y : Nat} (inside : mask.Contains x y) :
    (scan.visitCell mask x y).IsNumbered := by
  have leave {scan : Scan} (numbered : scan.IsNumbered) :
      IsNumbered (if scan.marks.getD x y 0 = 1 then scan
        else { scan with enclosing := (scan.marks.getD x y 0).natAbs }) := by
    split
    · exact numbered
    · exact numbered.enclose (numbered.getD_lt x y)
  rw [Scan.visitCell]
  split
  · exact numbered
  · cases opens : scan.opening? x y with
    | none => exact leave numbered
    | some kind =>
        exact leave (numbered.openBorder kind
          (sound.besideClear inside opens).1)

/-- The border looked up by a number above 1 exists. -/
theorem exists_border (numbered : scan.IsNumbered) {x y : Nat}
    {kind : BorderKind} (above : 1 < scan.enclosingAt x y kind) :
    ∃ border,
      scan.borders[(scan.enclosingAt x y kind - 2).toNat]? = some border := by
  have bound := numbered.enclosingAt_lt x y kind
  exact ⟨_, Array.getElem?_eq_getElem (by omega)⟩

end IsNumbered

/-- The scan that has visited some cells at the start of a row. -/
def visitCells (mask : GrayPicture) (scan : Scan) (columns y : Nat) : Scan :=
  (List.range columns).foldl (fun scan x => scan.visitCell mask x y)
    { scan with enclosing := 1 }

theorem IsNumbered.visitCells (numbered : scan.IsNumbered)
    (sound : Sound mask scan) {columns y : Nat} (within : columns ≤ mask.width)
    (row : y < mask.height) :
    Sound mask (scan.visitCells mask columns y) ∧
      (scan.visitCells mask columns y).IsNumbered := by
  apply List.foldlRecOn
    (motive := fun scan : Scan => Sound mask scan ∧ scan.IsNumbered)
  · exact ⟨sound.enclose 1, numbered.enclose (by omega)⟩
  · intro scan held x listed
    have inside : mask.Contains x y :=
      ⟨(List.mem_range.1 listed).trans_le within, row⟩
    exact ⟨held.1.visitCell inside, held.2.visitCell held.1 inside⟩

/-- The scan that has visited all cells before a given one. -/
def before (mask : GrayPicture) (x y : Nat) : Scan :=
  ((List.range y).foldl (visitRow mask) (start mask)).visitCells mask x y

theorem isNumbered_before {x y : Nat} (inside : mask.Contains x y) :
    (before mask x y).IsNumbered := by
  have rows : Sound mask ((List.range y).foldl (visitRow mask) (start mask)) ∧
      IsNumbered ((List.range y).foldl (visitRow mask) (start mask)) := by
    apply List.foldlRecOn
      (motive := fun scan : Scan => Sound mask scan ∧ scan.IsNumbered)
    · exact ⟨sound_start mask, isNumbered_start mask⟩
    · intro scan held upper listed
      exact held.2.visitCells held.1 le_rfl
        ((List.mem_range.1 listed).trans inside.2)
  exact (rows.2.visitCells rows.1 inside.1.le inside.2).2

/-! ## Parents -/

/-- The parent of every border is one of the other kind. -/
def Alternates (scan : Scan) : Prop :=
  ∀ (index : Nat) (border : Border) (parent : Nat),
    scan.borders[index]? = some border → border.parent = some parent →
      ∃ enclosing, scan.borders[parent]? = some enclosing ∧
        enclosing.kind ≠ border.kind

theorem Alternates.exists_of_parentOf? (alternates : scan.Alternates)
    {kind : BorderKind} {enclosing : Int} {parent : Nat}
    (found : scan.parentOf? kind enclosing = some parent) :
    ∃ border, scan.borders[parent]? = some border ∧ border.kind ≠ kind := by
  rw [parentOf?] at found
  split at found
  · cases found
  · dsimp only at found
    split at found
    · cases found
    · next border atPosition =>
        split at found
        · next same =>
            exact same ▸ alternates _ _ _ atPosition found
        · next different =>
            rw [Option.some.injEq] at found
            exact ⟨border, found ▸ atPosition, different⟩

theorem Alternates.openBorder (alternates : scan.Alternates)
    (mask : GrayPicture) (x y : Nat) (kind : BorderKind) :
    (scan.openBorder mask x y kind).Alternates := by
  obtain ⟨opened, borders, itsKind, itsParent, _⟩ :=
    openBorder_eq mask scan x y kind
  have kept {index : Nat} {border : Border}
      (found : scan.borders[index]? = some border) :
      (scan.borders.push opened)[index]? = some border := by
    have bound := (Array.getElem?_eq_some_iff.1 found).1
    rw [Array.getElem?_push, if_neg (by omega), found]
  intro index border parent found isParent
  rw [borders] at found ⊢
  rw [Array.getElem?_push] at found
  split at found
  · next last =>
      rw [Option.some.injEq] at found
      subst found
      rw [itsParent] at isParent
      obtain ⟨enclosing, atParent, different⟩ :=
        alternates.exists_of_parentOf? isParent
      exact ⟨enclosing, kept atParent, itsKind ▸ different⟩
  · obtain ⟨enclosing, atParent, different⟩ :=
      alternates index border parent found isParent
    exact ⟨enclosing, kept atParent, different⟩

theorem alternates_finish (mask : GrayPicture) : (finish mask).Alternates :=
  finish_keeps (by simp [Alternates, start]) (fun _ _ held => held)
    fun _ x y kind _ held => held.openBorder mask x y kind

end Scan

/-- The parent of a border is one of the other kind. -/
theorem exists_parent {mask : GrayPicture} {index parent : Nat}
    {border : Border} (found : (all mask)[index]? = some border)
    (itsParent : border.parent = some parent) :
    ∃ enclosing, (all mask)[parent]? = some enclosing ∧
      enclosing.kind ≠ border.kind := by
  rw [all_eq, Array.getElem?_toList] at found
  rw [all_eq, Array.getElem?_toList]
  exact Scan.alternates_finish mask index border parent found itsParent

end Border

end ScreenCompare
