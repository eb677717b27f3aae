import SecMon.ImageProcessing.RoiDetector

/-!
# The walk over the rectangles

The loops of `consolidate_rectangles` without positions.  The list is cut where
`small_it` stands: behind the passed rectangles comes `s`, and then those still
`ahead` of it, those `checked` against it, and those `skipped`, which were
behind `large_it` when a merge gave the place to `s`.

* `Scan`: one pass of the inner loop, one constructor for each of its branches.
* `Sweep`: the outer loop.
* `sweep_consolidateRectangles`: the code follows the relations, and ends.
-/

namespace SecMon.RoiDetector

/-! ## The relations -/

/-- **One pass of the inner loop**: what is left from the position of `small_it` on,
and whether the pass ends with `goto here`. -/
inductive Scan : Rect → List Rect → List Rect → List Rect → List Rect → Bool → Prop
  | move {s checked skipped} : Scan s [] checked skipped (s :: (checked ++ skipped)) false
  | nested {s l ahead checked skipped} (h : s ≤ l) :
      Scan s (ahead ++ [l]) checked skipped (ahead ++ l :: (checked ++ skipped)) true
  | keep {s l ahead checked skipped rest here} (h : s.overlapPercentage l ≤ 85)
      (scan : Scan s ahead (l :: checked) skipped rest here) :
      Scan s (ahead ++ [l]) checked skipped rest here
  | merge {s l t ahead ahead' checked skipped rest here}
      (h : 85 < s.overlapPercentage l) (h' : s.overlapPercentage l ≠ 100)
      (ht : ahead ++ [l ⊔ s] = t :: ahead')
      (scan : Scan t ahead' [] (checked ++ skipped) rest here) :
      Scan s (ahead ++ [l]) checked skipped rest here

/-- **The outer loop**: what it makes of the rest of the list behind the passed
rectangles. -/
inductive Sweep : List Rect → List Rect → List Rect → Prop
  | done {passed} : Sweep passed [] passed
  | here {passed s ahead rest result} (scan : Scan s ahead [] [] rest true)
      (sweep : Sweep passed rest result) : Sweep passed (s :: ahead) result
  | next {passed s ahead t rest result} (scan : Scan s ahead [] [] (t :: rest) false)
      (sweep : Sweep (passed ++ [t]) rest result) : Sweep passed (s :: ahead) result

/-- The list that a merge leaves, with the next rectangle in the place of `s`. -/
theorem append_merged {g t : Rect} {ahead ahead' : List Rect} (ht : ahead ++ [g] = t :: ahead')
    (later : List Rect) : ahead ++ g :: later = t :: (ahead' ++ later) := by
  rw [List.append_cons, ht, List.cons_append]

/-- A merge keeps what every rectangle has, and the enlarged one as well. -/
theorem forall_merge {P : Rect → Prop} {s l : Rect} {ahead later : List Rect}
    (h : ∀ r ∈ s :: (ahead ++ l :: later), P r) (hsup : P (l ⊔ s)) :
    ∀ r ∈ ahead ++ (l ⊔ s) :: later, P r := by
  simp only [List.mem_cons, List.mem_append] at h ⊢
  rintro r (hr | rfl | hr)
  · exact h r (Or.inr (Or.inl hr))
  · exact hsup
  · exact h r (Or.inr (Or.inr (Or.inr hr)))

theorem positive_merge {s l : Rect} {ahead later : List Rect}
    (hpos : ∀ r ∈ s :: (ahead ++ l :: later), r.Positive) :
    ∀ r ∈ ahead ++ (l ⊔ s) :: later, r.Positive :=
  forall_merge hpos ((hpos s List.mem_cons_self).of_le le_sup_right)

/-- **The inner loop is a scan.** -/
theorem scan_innerLoop (passed : List Rect) : ∀ (n : Nat) (s : Rect)
    (ahead checked skipped : List Rect), ahead.length = n →
    (∀ r ∈ s :: (ahead ++ (checked ++ skipped)), r.Positive) →
    ∃ rest here,
      innerLoop passed.length (passed ++ s :: (ahead ++ (checked ++ skipped)))
        (passed.length + n) = some (passed ++ rest, here) ∧
      Scan s ahead checked skipped rest here := by
  intro n
  induction n with
  | zero =>
    intro s ahead checked skipped hn hpos
    obtain rfl := List.length_eq_zero_iff.mp hn
    exact ⟨s :: (checked ++ skipped), false, innerLoop_end _ _, .move⟩
  | succ n ih =>
    intro s ahead checked skipped hn hpos
    obtain rfl | ⟨ahead, l, rfl⟩ := List.eq_nil_or_concat ahead
    · cases hn
    rw [List.concat_eq_append] at hn hpos ⊢
    obtain rfl : ahead.length = n := by simpa using hn
    rw [List.append_assoc, List.singleton_append] at hpos ⊢
    rw [← Nat.add_assoc, innerLoop_step]
    by_cases hall : s.overlapPercentage l = 100
    · rw [if_pos hall]
      have hs : s.Positive := hpos s List.mem_cons_self
      exact ⟨_, true, rfl, .nested ((Rect.overlapPercentage_eq_hundred hs).mp hall)⟩
    rw [if_neg hall]
    by_cases hmuch : s.overlapPercentage l > 85
    · rw [if_pos hmuch]
      -- the place of `s` goes to the rectangle behind it
      obtain ⟨t, ahead', ht⟩ : ∃ t ahead', ahead ++ [l ⊔ s] = t :: ahead' :=
        List.exists_cons_of_ne_nil (by simp)
      have hlen : ahead'.length = ahead.length := by
        have h := congrArg List.length ht
        simpa using h.symm
      have hlist : ahead ++ (l ⊔ s) :: (checked ++ skipped) =
          t :: (ahead' ++ ([] ++ (checked ++ skipped))) := append_merged ht _
      have hpos' := positive_merge hpos
      rw [hlist] at hpos' ⊢
      obtain ⟨rest, here, hloop, hscan⟩ := ih t ahead' [] (checked ++ skipped) hlen hpos'
      exact ⟨rest, here, hloop, .merge hmuch hall ht hscan⟩
    · rw [if_neg hmuch]
      obtain ⟨rest, here, hloop, hscan⟩ := ih s ahead (l :: checked) skipped rfl hpos
      exact ⟨rest, here, hloop, .keep (by omega) hscan⟩

/-! ## What a scan keeps -/

section

variable {ahead checked skipped rest : List Rect} {s : Rect} {here : Bool}

theorem Scan.length_le (h : Scan s ahead checked skipped rest here) :
    rest.length ≤
      ahead.length + checked.length + skipped.length + (if here then 0 else 1) := by
  induction h with
  | move => simp
  | nested h => simp; omega
  | keep _ _ ih => simp at ih ⊢; omega
  | merge _ _ ht _ ih =>
    have hlen := congrArg List.length ht
    simp at ih hlen ⊢
    omega

/-- One merge, and one erased rectangle where `s` lies inside `l`. -/
theorem grouping_merge (s l : Rect) (ahead later : List Rect) :
    Nonempty (Grouping (s :: (ahead ++ l :: later)) (ahead ++ (l ⊔ s) :: later)) := by
  have h : Grouping.absorb ([] ++ s :: (ahead ++ l :: later)) 0 (0 + ahead.length + 1) s l =
      [] ++ (ahead ++ (l ⊔ s) :: later) := absorb_large
  rw [Nat.zero_add, List.nil_append, List.nil_append] at h
  have hl : (s :: (ahead ++ l :: later))[ahead.length + 1]? = some l := getElem?_small
  rw [← h]
  exact ⟨.ofAbsorb (Nat.succ_pos _) rfl hl⟩

/-- **A pass groups** what it finds from the position of `small_it` on. -/
theorem Scan.grouping (h : Scan s ahead checked skipped rest here) :
    Nonempty (Grouping (s :: (ahead ++ (checked ++ skipped))) rest) := by
  induction h with
  | move => exact ⟨.refl _⟩
  | @nested s l ahead checked skipped h =>
    rw [← List.append_cons]
    have hg := grouping_merge s l ahead (checked ++ skipped)
    rw [sup_eq_left.mpr h] at hg
    exact hg
  | keep _ _ ih =>
    rw [← List.append_cons]
    exact ih
  | @merge s l t ahead ahead' checked skipped rest here _ _ ht _ ih =>
    rw [← List.append_cons]
    obtain ⟨g⟩ := grouping_merge s l ahead (checked ++ skipped)
    rw [append_merged ht] at g
    obtain ⟨g'⟩ := ih
    exact ⟨g.trans g'⟩

/-- What covers a rectangle that covers something covers something. -/
theorem positive_of_grouping {xs ys : List Rect} (g : Grouping xs ys)
    (hpos : ∀ x ∈ xs, x.Positive) : ∀ y ∈ ys, y.Positive := by
  intro y hy
  obtain ⟨x, hx, hle⟩ := g.exists_le hy
  exact (hpos x hx).of_le hle

theorem Scan.positive (h : Scan s ahead checked skipped rest here)
    (hpos : ∀ r ∈ s :: (ahead ++ (checked ++ skipped)), r.Positive) : ∀ r ∈ rest, r.Positive := by
  obtain ⟨g⟩ := h.grouping
  exact positive_of_grouping g hpos

end

/-! ## The outer loop -/

theorem forall_start {P : Rect → Prop} {s : Rect} {ahead : List Rect} :
    (∀ r ∈ s :: (ahead ++ ([] ++ [])), P r) ↔ ∀ r ∈ s :: ahead, P r := by
  rw [List.append_nil, List.append_nil]

theorem Scan.exists_cons {ahead checked skipped rest : List Rect} {s : Rect}
    (h : Scan s ahead checked skipped rest false) : ∃ t rest', rest = t :: rest' := by
  generalize hhere : false = here at h
  induction h with
  | move => exact ⟨_, _, rfl⟩
  | nested => cases hhere
  | keep _ _ ih => exact ih hhere
  | merge _ _ _ _ ih => exact ih hhere

/-- **The outer loop is a sweep**, and ends before the rounds are used up. -/
theorem sweep_outerLoop : ∀ (rounds : Nat) (passed rest : List Rect), rest.length < rounds →
    (∀ r ∈ rest, r.Positive) →
    ∃ result, outerLoop rounds (passed ++ rest) passed.length = some result ∧
      Sweep passed rest result := by
  intro rounds
  induction rounds with
  | zero =>
    intro passed rest hlen
    omega
  | succ rounds ih =>
    intro passed rest hlen hpos
    cases rest with
    | nil =>
      rw [outerLoop, List.append_nil, if_neg (by simp)]
      exact ⟨passed, rfl, .done⟩
    | cons s ahead =>
      have hend : (passed ++ s :: ahead).length - 1 = passed.length + ahead.length := by
        rw [List.length_append, List.length_cons]
        omega
      have hne : passed.length ≠ (passed ++ s :: ahead).length := by
        rw [List.length_append, List.length_cons]
        omega
      have happ : ahead ++ ([] ++ []) = ahead := List.append_nil ahead
      obtain ⟨rest, here, hloop, hscan⟩ :=
        scan_innerLoop passed ahead.length s ahead [] [] rfl (forall_start.mpr hpos)
      rw [happ] at hloop
      rw [outerLoop, if_pos hne, hend, hloop]
      have hle := hscan.length_le
      have hrest := hscan.positive (forall_start.mpr hpos)
      cases here with
      | true =>
        obtain ⟨result, houter, hsweep⟩ := ih passed rest (by simp at hle hlen; omega) hrest
        exact ⟨result, houter, .here hscan hsweep⟩
      | false =>
        obtain ⟨t, rest, rfl⟩ := hscan.exists_cons
        obtain ⟨result, houter, hsweep⟩ := ih (passed ++ [t]) rest (by simp at hle hlen; omega)
          fun r hr => hrest r (List.mem_cons_of_mem t hr)
        rw [List.append_assoc, List.singleton_append, List.length_append] at houter
        exact ⟨result, houter, .next hscan hsweep⟩

/-- **`consolidate_rectangles` is a sweep** over the whole list. -/
theorem sweep_consolidateRectangles {rects : List Rect} (hpos : ∀ r ∈ rects, r.Positive) :
    ∃ result, consolidateRectangles rects = some result ∧ Sweep [] rects result :=
  sweep_outerLoop (rects.length + 1) [] rects (Nat.lt_succ_self _) hpos

end SecMon.RoiDetector
