import SecMon.ImageProcessing.Rect
import SecMon.Core.Grouping

/-!
# The detector of regions of interest

`ROI_Detector::consolidate_rectangles` walks a vector with two iterators while
it erases from it.  Iterators are positions here, and every dereference may
fail.

* `innerLoop`: the walk of `large_it` down to `small_it`.  After a merge both
  iterators stay where they are, so `small_it` is then on the rectangle that
  came after the erased one.
* `outerLoop`: the walk of `small_it`, one pass of the inner loop after the other.
* `enlarge_eq_sup`: the six updates of a merge make the bounding box.
* `innerLoop_end`, `innerLoop_step`: the inner loop on a list that is cut where
  the iterators stand.
-/

namespace SecMon.RoiDetector

open Grouping (absorb)

/-- `compare_rect_size_`. -/
def compareRectSize (a b : Rect) : Bool := a.area < b.area

/-- The updates of `*large_it`, each with what the ones before have left. -/
def enlarge (large small : Rect) : Rect :=
  let large := { large with width := large.width + max 0 (large.x - small.x) }
  let large := { large with x := min large.x small.x }
  let large := { large with height := large.height + max 0 (large.y - small.y) }
  let large := { large with y := min large.y small.y }
  let large := { large with
    width := large.width + max 0 ((small.x + small.width) - (large.x + large.width)) }
  { large with
    height := large.height + max 0 ((small.y + small.height) - (large.y + large.height)) }

/-- The inner loop with `large_it` at the given position.  The flag says whether
the loop is left through `goto here`. -/
def innerLoop (small : Nat) : List Rect → Nat → Option (List Rect × Bool)
  | rects, 0 => some (rects, false)
  | rects, large + 1 =>
    if large + 1 > small then do
      let s ← rects[small]?
      let l ← rects[large + 1]?
      let overlap := s.overlapPercentage l
      if overlap = 100 then
        return (rects.eraseIdx small, true)
      else if overlap > 85 then
        innerLoop small ((rects.set (large + 1) (enlarge l s)).eraseIdx small) large
      else
        innerLoop small rects large
    else
      return (rects, false)

/-- The outer loop with `small_it` at the given position, for at most so many
rounds. -/
def outerLoop : Nat → List Rect → Nat → Option (List Rect)
  | 0, _, _ => none
  | rounds + 1, rects, small =>
    if small ≠ rects.length then do
      let (rects, here) ← innerLoop small rects (rects.length - 1)
      outerLoop rounds rects (if here then small else small + 1)
    else
      return rects

/-- `consolidate_rectangles`.  A round either erases a rectangle or passes one. -/
def consolidateRectangles (rects : List Rect) : Option (List Rect) :=
  outerLoop (rects.length + 1) rects 0

/-! ## One comparison -/

/-- **A merge leaves the bounding box.** -/
theorem enlarge_eq_sup (large small : Rect) : enlarge large small = large ⊔ small := by
  rw [Rect.sup_def]
  apply Rect.ext_edges <;> simp only [enlarge, Rect.right, Rect.bottom] <;> omega

variable {passed ahead later : List Rect} {s l : Rect}

theorem getElem?_small : (passed ++ s :: later)[passed.length]? = some s := by
  rw [List.getElem?_append_right (le_refl _), Nat.sub_self]
  rfl

theorem getElem?_large :
    (passed ++ s :: (ahead ++ l :: later))[passed.length + ahead.length + 1]? = some l := by
  rw [List.getElem?_append_right (by omega)]
  have h : passed.length + ahead.length + 1 - passed.length = ahead.length + 1 := by omega
  rw [h, List.getElem?_cons_succ]
  exact getElem?_small

theorem eraseIdx_small : (passed ++ s :: later).eraseIdx passed.length = passed ++ later := by
  rw [List.eraseIdx_append_of_length_le (le_refl _), Nat.sub_self]
  rfl

theorem absorb_large :
    absorb (passed ++ s :: (ahead ++ l :: later)) passed.length
      (passed.length + ahead.length + 1) s l = passed ++ (ahead ++ (l ⊔ s) :: later) := by
  have h : passed.length + ahead.length + 1 - passed.length = ahead.length + 1 := by omega
  rw [absorb, List.set_append_right _ _ (by omega), h, List.set_cons_succ,
    List.set_append_right _ _ (le_refl _), Nat.sub_self, List.set_cons_zero, eraseIdx_small]

theorem innerLoop_end (rects : List Rect) (small : Nat) :
    innerLoop small rects small = some (rects, false) := by
  cases small with
  | zero => rfl
  | succ n => rw [innerLoop, if_neg (by omega)]; rfl

/-- What a round of the loop does, with `small_it` on `s` and `large_it` on `l`. -/
theorem innerLoop_step :
    innerLoop passed.length (passed ++ s :: (ahead ++ l :: later))
        (passed.length + ahead.length + 1) =
      if s.overlapPercentage l = 100 then
        some (passed ++ (ahead ++ l :: later), true)
      else if s.overlapPercentage l > 85 then
        innerLoop passed.length (passed ++ (ahead ++ (l ⊔ s) :: later))
          (passed.length + ahead.length)
      else
        innerLoop passed.length (passed ++ s :: (ahead ++ l :: later))
          (passed.length + ahead.length) := by
  rw [innerLoop, if_pos (by omega), getElem?_small, getElem?_large]
  change (if _ then some (List.eraseIdx _ _, true) else
    if _ then innerLoop _ (List.eraseIdx (List.set _ _ (enlarge l s)) _) _ else _) = _
  rw [enlarge_eq_sup, eraseIdx_small]
  change (if _ then _ else if _ then innerLoop _ (absorb _ _ _ s l) _ else _) = _
  rw [absorb_large]

end SecMon.RoiDetector
