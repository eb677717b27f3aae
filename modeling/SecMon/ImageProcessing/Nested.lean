import SecMon.Core.Maximal
import SecMon.ImageProcessing.Consolidate

/-!
# The removal of nested rectangles

`ROI_Detector::remove_nested` walks the list as `consolidate_rectangles` does,
but decides by the edges and merges nothing.

* `removeNested_eq`: it keeps the rectangles that lie inside no later one.
* `removeNested_maximal`: in a list sorted by size these are the maximal ones.
* `consolidateRectangles_eq_removeNested`: where nothing is merged, both loops
  leave the same list.
-/

namespace SecMon.RoiDetector

/-- The inner loop of `remove_nested` with `rect_it2` at the given position.  The
percentage that it computes for a pair that is not nested is not used. -/
def nestedLoop (rectIt : Nat) : List Rect → Nat → Option (List Rect × Bool)
  | rects, 0 => some (rects, false)
  | rects, rectIt2 + 1 =>
    if rectIt2 + 1 > rectIt then do
      let r ← rects[rectIt]?
      let r2 ← rects[rectIt2 + 1]?
      if r.isInside r2 then
        return (rects.eraseIdx rectIt, true)
      else
        nestedLoop rectIt rects rectIt2
    else
      return (rects, false)

/-- The outer loop of `remove_nested` with `rect_it` at the given position, for at
most so many rounds. -/
def removeLoop : Nat → List Rect → Nat → Option (List Rect)
  | 0, _, _ => none
  | rounds + 1, rects, rectIt =>
    if rectIt ≠ rects.length then do
      let (rects, here) ← nestedLoop rectIt rects (rects.length - 1)
      removeLoop rounds rects (if here then rectIt else rectIt + 1)
    else
      return rects

/-- `remove_nested`.  A round either erases a rectangle or passes one. -/
def removeNested (rects : List Rect) : Option (List Rect) := removeLoop (rects.length + 1) rects 0

/-! ## The loops -/

section

variable {passed ahead checked : List Rect} {s l : Rect}

theorem nestedLoop_end (rects : List Rect) (rectIt : Nat) :
    nestedLoop rectIt rects rectIt = some (rects, false) := by
  cases rectIt with
  | zero => rfl
  | succ n => rw [nestedLoop, if_neg (by omega)]; rfl

/-- What a round does, with `rect_it` on `s` and `rect_it2` on `l`. -/
theorem nestedLoop_step :
    nestedLoop passed.length (passed ++ s :: (ahead ++ l :: checked))
        (passed.length + ahead.length + 1) =
      if s ≤ l then
        some (passed ++ (ahead ++ l :: checked), true)
      else
        nestedLoop passed.length (passed ++ s :: (ahead ++ l :: checked))
          (passed.length + ahead.length) := by
  rw [nestedLoop, if_pos (by omega), getElem?_small, getElem?_large]
  change (if _ then some (List.eraseIdx _ _, true) else _) = _
  rw [eraseIdx_small]
  simp only [Rect.isInside_iff]

/-- **A pass of the inner loop** erases its rectangle if it lies inside one of those
ahead of it. -/
theorem nestedLoop_eq (passed : List Rect) (s : Rect) :
    ∀ (n : Nat) (ahead checked : List Rect), ahead.length = n →
    nestedLoop passed.length (passed ++ s :: (ahead ++ checked)) (passed.length + n) =
      if ∃ l ∈ ahead, s ≤ l then
        some (passed ++ (ahead ++ checked), true)
      else
        some (passed ++ s :: (ahead ++ checked), false) := by
  intro n
  induction n with
  | zero =>
    intro ahead checked hn
    obtain rfl := List.length_eq_zero_iff.mp hn
    rw [Nat.add_zero, nestedLoop_end, if_neg (by simp)]
  | succ n ih =>
    intro ahead checked hn
    obtain rfl | ⟨ahead, l, rfl⟩ := List.eq_nil_or_concat ahead
    · cases hn
    rw [List.concat_eq_append] at hn ⊢
    obtain rfl : ahead.length = n := by simpa using hn
    rw [List.append_assoc, List.singleton_append, ← Nat.add_assoc, nestedLoop_step]
    by_cases hl : s ≤ l
    · rw [if_pos hl, if_pos ⟨l, by simp, hl⟩]
    · rw [if_neg hl, ih ahead (l :: checked) rfl]
      have hiff : (∃ q ∈ ahead ++ [l], s ≤ q) ↔ ∃ q ∈ ahead, s ≤ q := by
        simp [or_and_right, exists_or, hl]
      simp only [hiff]

/-- **The outer loop** keeps what lies inside no later rectangle. -/
theorem removeLoop_eq : ∀ (rounds : Nat) (passed rest : List Rect), rest.length < rounds →
    removeLoop rounds (passed ++ rest) passed.length = some (passed ++ maximals rest) := by
  intro rounds
  induction rounds with
  | zero =>
    intro passed rest hlen
    omega
  | succ rounds ih =>
    intro passed rest hlen
    cases rest with
    | nil =>
      rw [removeLoop, List.append_nil, if_neg (by simp)]
      exact congrArg some (List.append_nil passed).symm
    | cons s ahead =>
      have hend : (passed ++ s :: ahead).length - 1 = passed.length + ahead.length := by
        rw [List.length_append, List.length_cons]
        omega
      have hne : passed.length ≠ (passed ++ s :: ahead).length := by
        rw [List.length_append, List.length_cons]
        omega
      have hpass := nestedLoop_eq passed s ahead.length ahead [] rfl
      rw [List.length_cons] at hlen
      rw [List.append_nil] at hpass
      rw [removeLoop, if_pos hne, hend, hpass]
      by_cases h : ∃ l ∈ ahead, s ≤ l
      · rw [if_pos h, maximals_cons_of_le h]
        exact ih passed ahead (by omega)
      · have hall : ∀ l ∈ ahead, ¬s ≤ l := fun l hl hle => h ⟨l, hl, hle⟩
        have hnext := ih (passed ++ [s]) ahead (by omega)
        rw [List.length_append, List.append_assoc, List.append_assoc] at hnext
        rw [if_neg h, maximals_cons_of_not_le hall]
        exact hnext

end

/-- **`remove_nested` keeps what lies inside no later rectangle.** -/
theorem removeNested_eq (rects : List Rect) : removeNested rects = some (maximals rects) :=
  removeLoop_eq (rects.length + 1) [] rects (Nat.lt_succ_self _)

/-! ## Sorted lists -/

theorem le_of_compareRectSize {a b : Rect} (ha : a.Positive) (hb : b.Positive)
    (h : compareRectSize b a = false) (hba : b ≤ a) : a ≤ b := by
  have hle : a.area ≤ b.area := by simpa [compareRectSize] using h
  have harea : a.area = b.area := le_antisymm hle (Rect.area_mono hb hba)
  rw [← Rect.inter_area_eq ha, Rect.inter_area_comm, (Rect.inter_area_eq hb).mpr hba, harea]

/-- In a list sorted by size no rectangle lies strictly inside one before it. -/
theorem pairwise_le_of_sorted {rects : List Rect} (hpos : ∀ r ∈ rects, r.Positive)
    (hsorted : rects.Pairwise fun a b => compareRectSize b a = false) :
    rects.Pairwise fun a b => b ≤ a → a ≤ b := by
  apply hsorted.imp_of_mem
  intro a b ha hb h
  exact le_of_compareRectSize (hpos a ha) (hpos b hb) h

/-- **`remove_nested` keeps exactly the maximal rectangles** of a sorted list. -/
theorem removeNested_maximal (rects : List Rect) (hpos : ∀ r ∈ rects, r.Positive)
    (hsorted : rects.Pairwise fun a b => compareRectSize b a = false) :
    ∃ result, removeNested rects = some result ∧
      result = (rects.zipIdx.filter fun p : Rect × Nat =>
        !(rects.drop (p.2 + 1)).any p.1.isInside).map Prod.fst ∧
      (result.Pairwise fun a b => a.isInside b = false ∧ b.isInside a = false) ∧
      (∀ r ∈ rects, result.count r =
        if ∃ q ∈ rects, q ≠ r ∧ r.isInside q = true then 0 else 1) ∧
      ∀ r ∈ rects, ∃ q ∈ result, r.isInside q = true := by
  have hle := pairwise_le_of_sorted hpos hsorted
  refine ⟨maximals rects, removeNested_eq rects, ?_, ?_, ?_, ?_⟩
  · rw [maximals_eq]
    simp only [← Rect.isInside_eq]
  · simpa only [Rect.isInside_eq, decide_eq_false_iff_not] using pairwise_maximals hle
  · intro r hr
    simpa only [Rect.isInside_iff] using count_maximals hle hr
  · intro r hr
    simpa only [Rect.isInside_iff] using exists_maximals_of_mem hr

/-- A chain of three rectangles, of which the two inner ones go, and a pair of equal ones. -/
theorem removeNested_maximal_five :
    let rects : List Rect :=
      [⟨2, 2, 2, 2⟩, ⟨1, 1, 4, 4⟩, ⟨20, 0, 5, 5⟩, ⟨20, 0, 5, 5⟩, ⟨0, 0, 6, 6⟩]
    (∀ r ∈ rects, r.Positive) ∧
      (rects.Pairwise fun a b => compareRectSize b a = false) ∧
      ∃ result, removeNested rects = some result ∧
        result = (rects.zipIdx.filter fun p : Rect × Nat =>
          !(rects.drop (p.2 + 1)).any p.1.isInside).map Prod.fst ∧
        (result.Pairwise fun a b => a.isInside b = false ∧ b.isInside a = false) ∧
        (∀ r ∈ rects, result.count r =
          if ∃ q ∈ rects, q ≠ r ∧ r.isInside q = true then 0 else 1) ∧
        ∀ r ∈ rects, ∃ q ∈ result, r.isInside q = true :=
  ⟨by decide, by decide, removeNested_maximal _ (by decide) (by decide)⟩

/-! ## Both loops -/

/-- **A sweep that merges nothing** leaves what lies inside no later rectangle. -/
theorem Sweep.eq_maximals {passed rest result : List Rect} (h : Sweep passed rest result)
    (hpos : ∀ r ∈ rest, r.Positive) (hno : NoMerge rest) : result = passed ++ maximals rest := by
  induction h with
  | @done passed => exact (List.append_nil passed).symm
  | @here passed s ahead rest result scan _ ih =>
    obtain ⟨hs, hahead⟩ := hno
    rw [List.forall_mem_cons] at hpos
    rw [← List.append_nil ahead] at hs
    obtain ⟨-, rfl, hle⟩ | ⟨hf, -⟩ := scan.of_spared hpos.1 hs (by simp)
    · rw [List.append_nil] at ih hle
      rw [maximals_cons_of_le hle]
      exact ih hpos.2 hahead
    · cases hf
  | @next passed s ahead t rest result scan _ ih =>
    obtain ⟨hs, hahead⟩ := hno
    rw [List.forall_mem_cons] at hpos
    rw [← List.append_nil ahead] at hs
    obtain ⟨hf, -⟩ | ⟨-, heq, hfew⟩ := scan.of_spared hpos.1 hs (by simp)
    · cases hf
    obtain ⟨rfl, rfl⟩ := List.cons.inj heq
    rw [List.append_nil] at ih hfew
    have hall : ∀ l ∈ ahead, ¬t ≤ l := by
      intro l hl hle
      have hfull := (Rect.overlapPercentage_eq_hundred hpos.1).mpr hle
      have hl85 := hfew l hl
      omega
    rw [maximals_cons_of_not_le hall, List.append_cons]
    exact ih hpos.2 hahead

/-- Without overlaps between 86 and 99 percent nothing is merged. -/
theorem noMerge_of_pairwise {rects : List Rect} (hpos : ∀ r ∈ rects, r.Positive)
    (h : rects.Pairwise fun a b => ¬(86 ≤ a.overlapPercentage b ∧ a.overlapPercentage b ≤ 99)) :
    NoMerge rects := by
  induction h with
  | nil => trivial
  | @cons a rects ha _ ih =>
    rw [List.forall_mem_cons] at hpos
    refine ⟨spared_of_forall fun b hb hmuch => ?_, ih hpos.2⟩
    have hle := Rect.overlapPercentage_le hpos.1 b
    have hb := ha b hb
    omega

/-- **The two removers agree** where no overlap is heavy without being total. -/
theorem consolidateRectangles_eq_removeNested (rects : List Rect) (hpos : ∀ r ∈ rects, r.Positive)
    (h : rects.Pairwise fun a b => ¬(86 ≤ a.overlapPercentage b ∧ a.overlapPercentage b ≤ 99)) :
    ∃ result, consolidateRectangles rects = some result ∧ removeNested rects = some result := by
  obtain ⟨result, hresult, hsweep⟩ := sweep_consolidateRectangles hpos
  have heq := hsweep.eq_maximals hpos (noMerge_of_pairwise hpos h)
  rw [List.nil_append] at heq
  exact ⟨result, hresult, by rw [heq, removeNested_eq]⟩

/-- A nested rectangle and two that overlap by half, not sorted by size. -/
theorem consolidateRectangles_eq_removeNested_three :
    let rects : List Rect := [⟨0, 0, 10, 10⟩, ⟨12, 2, 3, 3⟩, ⟨5, 0, 10, 10⟩]
    (∀ r ∈ rects, r.Positive) ∧
      (rects.Pairwise fun a b =>
        ¬(86 ≤ a.overlapPercentage b ∧ a.overlapPercentage b ≤ 99)) ∧
      ∃ result, consolidateRectangles rects = some result ∧ removeNested rects = some result :=
  ⟨by decide, by decide, consolidateRectangles_eq_removeNested _ (by decide) (by decide)⟩

end SecMon.RoiDetector
