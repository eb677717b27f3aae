import SecMon.ImageProcessing.Rect

/-!
# The rectangle of an object of interest

`OOI::ResizeRect` grows the position of an object for display and for
classification.  On the left and at the top it either moves the edge by all of
`delta` or leaves it; on the right and at the bottom it moves the edge up to the
border of the image.

* `le_resizeRect`, `resizeRect_le`: the result lies between the position and what
  is left of the extended position in the image.
* `resizeRect_eq_iff`: it is all of that exactly if neither the left nor the upper
  edge is nearer to the border than `delta` without lying on it.
-/

namespace SecMon.Ooi

/-- `ResizeRect`.  For a position inside the image all values stay in the range of
an `int`. -/
def resizeRect (currentPos : Rect) (delta maxWidth maxHeight : Int) : Rect :=
  let newRect := currentPos
  let newRect :=
    if newRect.x > delta - 1 then
      { newRect with x := newRect.x - delta, width := newRect.width + delta }
    else
      newRect
  let newRect :=
    if newRect.y > delta - 1 then
      { newRect with y := newRect.y - delta, height := newRect.height + delta }
    else
      newRect
  let newRect := { newRect with
    width := newRect.width + min delta (maxWidth - (newRect.x + newRect.width)) }
  { newRect with
    height := newRect.height + min delta (maxHeight - (newRect.y + newRect.height)) }

/-- `get_rect_for_display`. -/
def getRectForDisplay (currentPos : Rect) (maxWidth maxHeight : Int) : Rect :=
  resizeRect currentPos 2 maxWidth maxHeight

/-- `get_rect_for_classification`. -/
def getRectForClassification (currentPos : Rect) (maxWidth maxHeight : Int) : Rect :=
  resizeRect currentPos 10 maxWidth maxHeight

/-- The rectangle of an image. -/
def image (maxWidth maxHeight : Int) : Rect := ⟨0, 0, maxWidth, maxHeight⟩

/-- A rectangle extended by `delta` on all four sides. -/
def extend (r : Rect) (delta : Int) : Rect :=
  ⟨r.x - delta, r.y - delta, r.width + 2 * delta, r.height + 2 * delta⟩

section

variable {pos : Rect} {delta maxWidth maxHeight : Int}

/-! ## The edges -/

@[simp] theorem image_right : (image maxWidth maxHeight).right = maxWidth := zero_add maxWidth

@[simp] theorem image_bottom : (image maxWidth maxHeight).bottom = maxHeight := zero_add maxHeight

@[simp] theorem extend_right : (extend pos delta).right = pos.right + delta := by
  simp only [extend, Rect.right]
  omega

@[simp] theorem extend_bottom : (extend pos delta).bottom = pos.bottom + delta := by
  simp only [extend, Rect.bottom]
  omega

/-- The left or upper edge: moved by all of `delta`, or not at all. -/
def shift (edge delta : Int) : Int := if delta ≤ edge then edge - delta else edge

/-- **The edges of the result.** -/
theorem resizeRect_eq : resizeRect pos delta maxWidth maxHeight =
    ⟨shift pos.x delta, shift pos.y delta,
      min maxWidth (pos.right + delta) - shift pos.x delta,
      min maxHeight (pos.bottom + delta) - shift pos.y delta⟩ := by
  have hx : pos.x > delta - 1 ↔ delta ≤ pos.x := by omega
  have hy : pos.y > delta - 1 ↔ delta ≤ pos.y := by omega
  by_cases hleft : delta ≤ pos.x <;> by_cases htop : delta ≤ pos.y <;>
    simp only [resizeRect, shift, hx, hy, hleft, htop, if_true, if_false, Rect.mk.injEq,
      Rect.right, Rect.bottom, true_and] <;>
    omega

example : getRectForDisplay ⟨10, 10, 10, 10⟩ 21 21 = ⟨8, 8, 13, 13⟩ := by decide

theorem inter_extend (hdelta : 0 < delta) (hpos : pos.Positive)
    (hin : pos ≤ image maxWidth maxHeight) :
    (image maxWidth maxHeight).inter (extend pos delta) =
      ⟨max 0 (pos.x - delta), max 0 (pos.y - delta),
        min maxWidth (pos.right + delta) - max 0 (pos.x - delta),
        min maxHeight (pos.bottom + delta) - max 0 (pos.y - delta)⟩ := by
  rw [Rect.le_def, image_right, image_bottom] at hin
  simp only [Rect.Positive, Rect.right, Rect.bottom, image] at hpos hin
  have hwidth : max (image maxWidth maxHeight).x (extend pos delta).x <
      min (image maxWidth maxHeight).right (extend pos delta).right := by
    rw [image_right, extend_right]
    simp only [image, extend, Rect.right]
    omega
  have hheight : max (image maxWidth maxHeight).y (extend pos delta).y <
      min (image maxWidth maxHeight).bottom (extend pos delta).bottom := by
    rw [image_bottom, extend_bottom]
    simp only [image, extend, Rect.bottom]
    omega
  rw [Rect.inter_of_lt hwidth hheight, image_right, image_bottom, extend_right, extend_bottom]
  rfl

/-! ## The result -/

theorem le_resizeRect (hdelta : 0 < delta) (hin : pos ≤ image maxWidth maxHeight) :
    pos ≤ resizeRect pos delta maxWidth maxHeight := by
  simp only [Rect.le_def, image, Rect.right, Rect.bottom] at hin
  simp only [resizeRect_eq, shift, Rect.le_def, Rect.right, Rect.bottom]
  omega

/-- The result stays inside the image, and inside of the extended position. -/
theorem resizeRect_le (hdelta : 0 < delta) (hpos : pos.Positive)
    (hin : pos ≤ image maxWidth maxHeight) :
    resizeRect pos delta maxWidth maxHeight ≤
      (image maxWidth maxHeight).inter (extend pos delta) := by
  rw [inter_extend hdelta hpos hin, resizeRect_eq]
  simp only [Rect.le_def, image, Rect.right, Rect.bottom] at hin
  simp only [shift, Rect.le_def, Rect.right, Rect.bottom]
  omega

/-- **The result is the whole intersection** exactly if each of the left and the upper
edge lies on the border or has room for all of `delta`. -/
theorem resizeRect_eq_iff (hdelta : 0 < delta) (hpos : pos.Positive)
    (hin : pos ≤ image maxWidth maxHeight) :
    resizeRect pos delta maxWidth maxHeight =
        (image maxWidth maxHeight).inter (extend pos delta) ↔
      (pos.x = 0 ∨ delta ≤ pos.x) ∧ (pos.y = 0 ∨ delta ≤ pos.y) := by
  rw [inter_extend hdelta hpos hin, resizeRect_eq]
  simp only [Rect.le_def, image] at hin
  simp only [shift, Rect.mk.injEq]
  omega

end

/-- **Rectangles grow evenly and are clipped to the image** where the left and the upper
edge lie on the border or have room. -/
theorem rects_grow (pos : Rect) (delta maxWidth maxHeight : Int) (hdelta : 0 < delta)
    (hpos : pos.Positive) (hin : pos.isInside (image maxWidth maxHeight) = true) :
    (resizeRect pos delta maxWidth maxHeight =
        (image maxWidth maxHeight).inter (extend pos delta) ↔
      (pos.x = 0 ∨ delta ≤ pos.x) ∧ (pos.y = 0 ∨ delta ≤ pos.y)) ∧
    (getRectForDisplay pos maxWidth maxHeight =
        (image maxWidth maxHeight).inter (extend pos 2) ↔
      (pos.x = 0 ∨ 2 ≤ pos.x) ∧ (pos.y = 0 ∨ 2 ≤ pos.y)) ∧
    (getRectForClassification pos maxWidth maxHeight =
        (image maxWidth maxHeight).inter (extend pos 10) ↔
      (pos.x = 0 ∨ 10 ≤ pos.x) ∧ (pos.y = 0 ∨ 10 ≤ pos.y)) := by
  rw [Rect.isInside_iff] at hin
  exact ⟨resizeRect_eq_iff hdelta hpos hin, resizeRect_eq_iff (by decide) hpos hin,
    resizeRect_eq_iff (by decide) hpos hin⟩

/-- A position in the middle of an image. -/
theorem rects_grow_middle :
    (0 : Int) < 5 ∧ (⟨10, 10, 10, 10⟩ : Rect).Positive ∧
      (⟨10, 10, 10, 10⟩ : Rect).isInside (image 40 40) = true ∧
      (resizeRect ⟨10, 10, 10, 10⟩ 5 40 40 = (image 40 40).inter (extend ⟨10, 10, 10, 10⟩ 5) ↔
        ((10 : Int) = 0 ∨ (5 : Int) ≤ 10) ∧ ((10 : Int) = 0 ∨ (5 : Int) ≤ 10)) ∧
      (getRectForDisplay ⟨10, 10, 10, 10⟩ 40 40 =
          (image 40 40).inter (extend ⟨10, 10, 10, 10⟩ 2) ↔
        ((10 : Int) = 0 ∨ (2 : Int) ≤ 10) ∧ ((10 : Int) = 0 ∨ (2 : Int) ≤ 10)) ∧
      (getRectForClassification ⟨10, 10, 10, 10⟩ 40 40 =
          (image 40 40).inter (extend ⟨10, 10, 10, 10⟩ 10) ↔
        ((10 : Int) = 0 ∨ (10 : Int) ≤ 10) ∧ ((10 : Int) = 0 ∨ (10 : Int) ≤ 10)) :=
  ⟨by decide, by decide, by decide,
    rects_grow ⟨10, 10, 10, 10⟩ 5 40 40 (by decide) (by decide) (by decide)⟩

/-- One column from the border there is room for one column, and the edge is not moved. -/
theorem not_rects_grow :
    ¬∀ (pos : Rect) (delta maxWidth maxHeight : Int), 0 < delta → pos.Positive →
      pos.isInside (image maxWidth maxHeight) = true →
      resizeRect pos delta maxWidth maxHeight =
        (image maxWidth maxHeight).inter (extend pos delta) := by
  intro h
  have hrect := h ⟨1, 10, 10, 10⟩ 2 40 40 (by decide) (by decide) (by decide)
  exact absurd hrect (by decide)

end SecMon.Ooi
