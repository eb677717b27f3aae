import Mathlib.Algebra.Order.Ring.Int
import Mathlib.Order.Lattice

/-!
# Rectangles

The `cv::Rect` of the detector, with coordinates that do not overflow.

A rectangle lies below another when it lies inside of it (`isInside_iff`).  This
is a partial order in which any two rectangles have a join, their common
bounding box.

* `area_mono`: area grows with the rectangle.
* `overlapPercentage_eq_hundred`: the percentage is 100 exactly for a nested
  rectangle.
-/

namespace SecMon

/-- `cv::Rect`: the upper left corner and the size. -/
structure Rect where
  x : Int
  y : Int
  width : Int
  height : Int
  deriving DecidableEq, Repr

namespace Rect

/-- The first column behind the rectangle. -/
def right (r : Rect) : Int := r.x + r.width

/-- The first row below the rectangle. -/
def bottom (r : Rect) : Int := r.y + r.height

def area (r : Rect) : Int := r.width * r.height

/-- A rectangle that covers something. -/
def Positive (r : Rect) : Prop := 0 < r.width ∧ 0 < r.height

instance : DecidablePred Positive := fun _ => inferInstanceAs (Decidable (_ ∧ _))

/-- `operator &`: the common part, or `Rect()` where there is none. -/
def inter (a b : Rect) : Rect :=
  let x1 := max a.x b.x
  let y1 := max a.y b.y
  let width := min a.right b.right - x1
  let height := min a.bottom b.bottom - y1
  if width ≤ 0 ∨ height ≤ 0 then ⟨0, 0, 0, 0⟩ else ⟨x1, y1, width, height⟩

/-- `is_inside_`. -/
def isInside (small large : Rect) : Bool :=
  !(small.x < large.x || small.y < large.y || small.x + small.width > large.x + large.width ||
    small.y + small.height > large.y + large.height)

/-- `overlap_percentage_`, in exact arithmetic.  A rectangle without an area is
outside of its domain. -/
def overlapPercentage (small large : Rect) : Int :=
  ((small.inter large).area * 100).tdiv small.area

/-! ## The order -/

@[ext]
theorem ext_edges {a b : Rect} (hx : a.x = b.x) (hy : a.y = b.y) (hr : a.right = b.right)
    (hb : a.bottom = b.bottom) : a = b := by
  obtain ⟨x, y, w, h⟩ := a
  obtain ⟨x', y', w', h'⟩ := b
  simp only [right, bottom] at hx hy hr hb
  subst hx hy
  rw [add_left_cancel hr, add_left_cancel hb]

/-- `a` lies inside `b`. -/
instance : LE Rect where
  le a b := b.x ≤ a.x ∧ b.y ≤ a.y ∧ a.right ≤ b.right ∧ a.bottom ≤ b.bottom

theorem le_def {a b : Rect} :
    a ≤ b ↔ b.x ≤ a.x ∧ b.y ≤ a.y ∧ a.right ≤ b.right ∧ a.bottom ≤ b.bottom := Iff.rfl

instance (a b : Rect) : Decidable (a ≤ b) := decidable_of_iff _ le_def.symm

theorem isInside_iff {small large : Rect} : isInside small large = true ↔ small ≤ large := by
  simp only [isInside, le_def, right, bottom, Bool.not_eq_true', Bool.or_eq_false_iff,
    decide_eq_false_iff_not]
  omega

theorem isInside_eq (small large : Rect) : isInside small large = decide (small ≤ large) := by
  rw [Bool.eq_iff_iff, isInside_iff, decide_eq_true_iff]

instance : PartialOrder Rect where
  le_refl a := by simp only [le_def]; omega
  le_trans a b c hab hbc := by simp only [le_def] at hab hbc ⊢; omega
  le_antisymm a b hab hba := by
    simp only [le_def] at hab hba
    apply ext_edges <;> omega

/-- **The bounding box** of two rectangles. -/
instance : SemilatticeSup Rect where
  sup a b :=
    let x := min a.x b.x
    let y := min a.y b.y
    ⟨x, y, max a.right b.right - x, max a.bottom b.bottom - y⟩
  le_sup_left a b := by simp only [le_def, right, bottom]; omega
  le_sup_right a b := by simp only [le_def, right, bottom]; omega
  sup_le a b c hac hbc := by simp only [le_def, right, bottom] at hac hbc ⊢; omega

theorem sup_def (a b : Rect) :
    a ⊔ b = ⟨min a.x b.x, min a.y b.y, max a.right b.right - min a.x b.x,
      max a.bottom b.bottom - min a.y b.y⟩ := rfl

theorem Positive.area_pos {a : Rect} (ha : a.Positive) : 0 < a.area := Int.mul_pos ha.1 ha.2

/-- What holds a rectangle that covers something covers something. -/
theorem Positive.of_le {a b : Rect} (ha : a.Positive) (h : a ≤ b) : b.Positive := by
  simp only [le_def, right, bottom, Positive] at *
  omega

theorem inter_of_lt {a b : Rect} (hw : max a.x b.x < min a.right b.right)
    (hh : max a.y b.y < min a.bottom b.bottom) :
    a.inter b = ⟨max a.x b.x, max a.y b.y, min a.right b.right - max a.x b.x,
      min a.bottom b.bottom - max a.y b.y⟩ := by
  apply if_neg
  omega

/-! ## Areas -/

theorem area_mono {a b : Rect} (ha : a.Positive) (h : a ≤ b) : a.area ≤ b.area := by
  have hb := ha.of_le h
  simp only [le_def, right, bottom] at h
  exact mul_le_mul (by omega) (by omega) ha.2.le hb.1.le

theorem inter_area (a b : Rect) :
    (a.inter b).area =
      max 0 (min a.right b.right - max a.x b.x) * max 0 (min a.bottom b.bottom - max a.y b.y) := by
  simp only [inter]
  split_ifs with h
  · cases h with
    | inl hw => rw [max_eq_left hw, zero_mul]; rfl
    | inr hh => rw [max_eq_left hh, mul_zero]; rfl
  · have hw : 0 ≤ min a.right b.right - max a.x b.x := by omega
    have hh : 0 ≤ min a.bottom b.bottom - max a.y b.y := by omega
    rw [max_eq_right hw, max_eq_right hh]
    rfl

theorem inter_area_comm (a b : Rect) : (a.inter b).area = (b.inter a).area := by
  rw [inter_area, inter_area, min_comm a.right, max_comm a.x, min_comm a.bottom, max_comm a.y]

theorem inter_area_nonneg (a b : Rect) : 0 ≤ (a.inter b).area := by
  rw [inter_area]
  exact mul_nonneg (le_max_left _ _) (le_max_left _ _)

/-- The common part is no wider and no higher than the rectangle. -/
theorem inter_sides_le {a : Rect} (ha : a.Positive) (b : Rect) :
    max 0 (min a.right b.right - max a.x b.x) ≤ a.width ∧
      max 0 (min a.bottom b.bottom - max a.y b.y) ≤ a.height := by
  simp only [Positive, right, bottom] at *
  omega

theorem inter_area_le {a : Rect} (ha : a.Positive) (b : Rect) : (a.inter b).area ≤ a.area := by
  obtain ⟨hw, hh⟩ := inter_sides_le ha b
  rw [inter_area]
  exact mul_le_mul hw hh (le_max_left _ _) ha.1.le

/-- A rectangle shares all of its area only with what it lies inside of. -/
theorem inter_area_eq {a b : Rect} (ha : a.Positive) : (a.inter b).area = a.area ↔ a ≤ b := by
  obtain ⟨hw, hh⟩ := inter_sides_le ha b
  rw [inter_area, area]
  constructor
  · intro h
    have hpos : 0 < max 0 (min a.right b.right - max a.x b.x) := by
      apply lt_of_le_of_ne (le_max_left _ _)
      intro h0
      rw [← h0, zero_mul] at h
      exact ha.area_pos.ne h
    rw [mul_eq_mul_iff_eq_and_eq_of_pos hw hh hpos ha.2] at h
    simp only [le_def, Positive, right, bottom] at *
    omega
  · intro h
    simp only [le_def, Positive, right, bottom] at *
    congr 1 <;> omega

/-! ## Percentages -/

theorem overlapPercentage_eq (a b : Rect) :
    overlapPercentage a b = (a.inter b).area * 100 / a.area := by
  rw [overlapPercentage, Int.tdiv_eq_ediv_of_nonneg]
  exact Int.mul_nonneg (inter_area_nonneg a b) (by decide)

theorem overlapPercentage_le {a : Rect} (ha : a.Positive) (b : Rect) :
    overlapPercentage a b ≤ 100 := by
  rw [overlapPercentage_eq]
  apply Int.ediv_le_of_le_mul ha.area_pos
  rw [mul_comm 100]
  exact Int.mul_le_mul_of_nonneg_right (inter_area_le ha b) (by decide)

/-- Rectangles of the same size overlap each other to the same extent. -/
theorem overlapPercentage_comm {a b : Rect} (h : a.area = b.area) :
    overlapPercentage a b = overlapPercentage b a := by
  rw [overlapPercentage, overlapPercentage, inter_area_comm, h]

/-- **All of a rectangle is overlapped exactly when it is nested.** -/
theorem overlapPercentage_eq_hundred {a b : Rect} (ha : a.Positive) :
    overlapPercentage a b = 100 ↔ a ≤ b := by
  have hpos := ha.area_pos
  have hle := inter_area_le ha b
  rw [overlapPercentage_eq, ← inter_area_eq ha]
  constructor
  · intro h
    have hge := Int.mul_le_of_le_ediv hpos h.ge
    omega
  · intro h
    rw [h, Int.mul_ediv_cancel_left _ hpos.ne']

end Rect

end SecMon
