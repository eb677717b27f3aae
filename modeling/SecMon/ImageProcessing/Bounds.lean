import SecMon.Core.PairLoop
import SecMon.ImageProcessing.Nested

/-!
# The iterators of the detector

`consolidate_rectangles` and `remove_nested` as programs, from one access of the
vector to the next.  Where their iterators stand does not depend on how the
percentage is rounded: the bounds hold whatever the body decides.

* `consolidateBody`, `nestedBody`: what the two loops do with a pair.
* `computes_consolidate`, `computes_nested`: the functions of the other modules
  compute what these programs leave in the vector.
* `consolidateRectangles_in_bounds`, `removeNested_in_bounds`: the programs end,
  and on the way no iterator leaves its bounds.
* `noMerge_iff`: the merging branch of `consolidate_rectangles` is taken unless
  the list is one of `NoMerge`.
-/

namespace SecMon.RoiDetector

open PairLoop (Body Verdict Computes State cost start step)
open Machine (run run_one run_trans)

/-- What `consolidate_rectangles` does with a pair that overlaps so much. -/
def verdict (overlap : Int) : Verdict :=
  if overlap = 100 then .drop else if overlap > 85 then .merge else .keep

/-- The body of `consolidate_rectangles`.  The percentage of a rectangle without an
area is a quotient by zero, which no `int` can hold. -/
def consolidateBody : Body Rect where
  judge small large :=
    if small.area = 0 then none else some (verdict (small.overlapPercentage large))
  merge large small := enlarge large small

/-- The body of `remove_nested`, which computes the percentage as well. -/
def nestedBody : Body Rect where
  judge small large :=
    if small.isInside large then some .drop else if small.area = 0 then none else some .keep
  merge large _ := large

/-! ## The body of `consolidate_rectangles` -/

theorem total_consolidateBody : consolidateBody.Total Rect.Positive where
  judge := by
    intro s l hs _
    exact ⟨_, if_neg hs.area_pos.ne'⟩
  merge := by
    intro s l hs _
    change (enlarge l s).Positive
    rw [enlarge_eq_sup]
    exact hs.of_le le_sup_right

theorem innerLoop_verdict {rects : List Rect} {small large : Nat} {s l : Rect}
    (hlt : small < large + 1) (hs : rects[small]? = some s) (hl : rects[large + 1]? = some l) :
    innerLoop small rects (large + 1) = match verdict (s.overlapPercentage l) with
      | .drop => some (rects.eraseIdx small, true)
      | .merge => innerLoop small ((rects.set (large + 1) (enlarge l s)).eraseIdx small) large
      | .keep => innerLoop small rects large := by
  rw [innerLoop, if_pos hlt, hs, hl, verdict]
  by_cases hall : s.overlapPercentage l = 100
  · rw [if_pos hall]
    exact if_pos hall
  rw [if_neg hall]
  by_cases hmuch : s.overlapPercentage l > 85
  · rw [if_pos hmuch]
    exact (if_neg hall).trans (if_pos hmuch)
  · rw [if_neg hmuch]
    exact (if_neg hall).trans (if_neg hmuch)

/-- **`consolidate_rectangles` is this program.** -/
theorem computes_consolidate : Computes consolidateBody innerLoop outerLoop where
  meet := innerLoop_end
  body := by
    intro rects small large s l v hlt hs hl hv
    obtain ⟨-, hv⟩ := Option.ite_none_left_eq_some.mp hv
    obtain rfl := Option.some.inj hv
    exact innerLoop_verdict hlt hs hl
  zero := fun _ _ => rfl
  done := by
    intro rounds rects
    rw [outerLoop, if_neg (not_not.mpr rfl)]
    rfl
  round := by
    intro rounds rects small hne
    rw [outerLoop, if_pos hne]
    rfl

/-- **The loops of `consolidate_rectangles` end, and in bounds.**  In every state
of a run `small_it` is not past the end; where the iterators are dereferenced
`small_it` is before `large_it` and `large_it` is in the vector; and there is a
next step until the vector holds the result. -/
theorem consolidateRectangles_in_bounds {rects : List Rect} (hpos : ∀ r ∈ rects, r.Positive) :
    (∃ n ≤ cost rects.length, ∃ w, run (step consolidateBody) n (start rects) = some w ∧
      w.point = .done ∧ consolidateRectangles rects = some w.items) ∧
    ∀ n w, run (step consolidateBody) n (start rects) = some w →
      w.small ≤ w.items.length ∧
      (w.point.Dereferences → w.small < w.large ∧ w.large < w.items.length) ∧
      (w.point = .done ∨ ∃ w', step consolidateBody w = some w') := by
  obtain ⟨result, hresult, -⟩ := sweep_consolidateRectangles hpos
  obtain ⟨n, hn, w, hrun, hdone, rfl⟩ :=
    computes_consolidate.ends total_consolidateBody hpos hresult
  refine ⟨⟨n, hn, w, hrun, hdone, hresult⟩, ?_⟩
  intro n w hrun
  exact PairLoop.run_in_bounds total_consolidateBody hpos hrun

/-- Two merges, each of them into the last rectangle. -/
theorem consolidateRectangles_in_bounds_three :
    let rects : List Rect := [⟨0, 0, 10, 10⟩, ⟨0, 1, 10, 10⟩, ⟨1, 0, 10, 10⟩]
    (∃ n ≤ cost rects.length, ∃ w, run (step consolidateBody) n (start rects) = some w ∧
      w.point = .done ∧ consolidateRectangles rects = some w.items) ∧
    ∀ n w, run (step consolidateBody) n (start rects) = some w →
      w.small ≤ w.items.length ∧
      (w.point.Dereferences → w.small < w.large ∧ w.large < w.items.length) ∧
      (w.point = .done ∨ ∃ w', step consolidateBody w = some w') :=
  consolidateRectangles_in_bounds (by decide)

/-- The first of the merges leaves `large_it` at the end. -/
example : run (step consolidateBody) 5
    (start [⟨0, 0, 10, 10⟩, ⟨0, 1, 10, 10⟩, ⟨1, 0, 10, 10⟩]) =
      some ⟨[⟨0, 1, 10, 10⟩, ⟨0, 0, 11, 10⟩], 0, 2, .back⟩ := by
  decide

/-! ## The merging branch -/

/-- The states of a run in which nothing has been merged and nothing will be.  What
is `checked` does not overlap `s` much. -/
inductive Unmerged : State Rect → Prop
  | outer {passed rest large} (h : NoMerge rest) :
      Unmerged ⟨passed ++ rest, passed.length, large, .outer⟩
  | inner {passed s ahead checked} (h : NoMerge (s :: (ahead ++ checked)))
      (hchecked : ∀ c ∈ checked, s.overlapPercentage c ≤ 85) :
      Unmerged ⟨passed ++ s :: (ahead ++ checked), passed.length, passed.length + ahead.length,
        .inner⟩
  | judge {passed s ahead l checked} (h : NoMerge (s :: (ahead ++ l :: checked)))
      (hchecked : ∀ c ∈ checked, s.overlapPercentage c ≤ 85) :
      Unmerged ⟨passed ++ s :: (ahead ++ l :: checked), passed.length,
        passed.length + ahead.length + 1, .judge⟩
  | drop {passed s later large} (h : NoMerge later) :
      Unmerged ⟨passed ++ s :: later, passed.length, large, .drop⟩
  | back {passed s ahead checked} (h : NoMerge (s :: (ahead ++ checked)))
      (hchecked : ∀ c ∈ checked, s.overlapPercentage c ≤ 85) :
      Unmerged ⟨passed ++ s :: (ahead ++ checked), passed.length,
        passed.length + ahead.length + 1, .back⟩
  | next {passed s later large} (h : NoMerge later) :
      Unmerged ⟨passed ++ s :: later, passed.length, large, .next⟩
  | done {items small large} : Unmerged ⟨items, small, large, .done⟩

section

variable {passed ahead checked : List Rect} {s l : Rect} {w w' : State Rect}

theorem step_judged (hs : s.Positive) :
    step consolidateBody ⟨passed ++ s :: (ahead ++ l :: checked), passed.length,
        passed.length + ahead.length + 1, .judge⟩ =
      some ⟨passed ++ s :: (ahead ++ l :: checked), passed.length, passed.length + ahead.length + 1,
        (verdict (s.overlapPercentage l)).point⟩ :=
  PairLoop.step_judge getElem?_small getElem?_large (if_neg hs.area_pos.ne')

theorem step_outer (passed ahead : List Rect) (s : Rect) (large : Nat) :
    step consolidateBody ⟨passed ++ s :: ahead, passed.length, large, .outer⟩ =
    some ⟨passed ++ s :: ahead, passed.length, passed.length + ahead.length, .inner⟩ := by
  have hlen : (passed ++ s :: ahead).length = passed.length + ahead.length + 1 := by
    rw [List.length_append, List.length_cons, Nat.add_assoc]
  have hne : passed.length ≠ (passed ++ s :: ahead).length := by omega
  have hpos : 0 < (passed ++ s :: ahead).length := by omega
  refine (if_neg hne).trans ((if_pos hpos).trans ?_)
  rw [hlen, Nat.add_sub_cancel]

theorem run_judged (passed ahead checked : List Rect) (l : Rect) (hs : s.Positive) :
    run (step consolidateBody) 2 ⟨passed ++ s :: (ahead ++ l :: checked), passed.length,
        passed.length + ahead.length + 1, .inner⟩ =
      some ⟨passed ++ s :: (ahead ++ l :: checked), passed.length, passed.length + ahead.length + 1,
        (verdict (s.overlapPercentage l)).point⟩ :=
  run_trans (run_one (PairLoop.step_inner (by omega))) (run_one (step_judged hs))

theorem Unmerged.step (h : Unmerged w) (hpos : ∀ r ∈ w.items, r.Positive)
    (hs : step consolidateBody w = some w') : Unmerged w' := by
  cases h with
  | @outer passed rest large h =>
    cases rest with
    | nil =>
      have hend : passed.length = (passed ++ []).length := by rw [List.append_nil]
      obtain rfl := Option.some.inj ((if_pos hend).symm.trans hs)
      exact .done
    | cons s ahead =>
      obtain rfl := Option.some.inj ((step_outer ..).symm.trans hs)
      have happ : s :: ahead = s :: (ahead ++ []) := by rw [List.append_nil]
      rw [happ] at h ⊢
      exact .inner h (by simp)
  | @inner passed s ahead checked h hchecked =>
    obtain rfl := Option.some.inj hs
    obtain rfl | ⟨ahead, l, rfl⟩ := List.eq_nil_or_concat ahead
    · rw [if_neg (by simp)]
      exact .next h.2
    · rw [List.concat_eq_append, ← List.append_cons] at h ⊢
      rw [if_pos (by simp), List.length_append]
      exact .judge h hchecked
  | @judge passed s ahead l checked h hchecked =>
    have hs' : s.Positive := hpos s (by simp)
    obtain rfl := Option.some.inj ((step_judged hs').symm.trans hs)
    by_cases hall : s.overlapPercentage l = 100
    · rw [verdict, if_pos hall]
      exact .drop h.2
    by_cases hmuch : 85 < s.overlapPercentage l
    · exact absurd h.1 (not_spared_of_merge hmuch hall hs' hchecked)
    · rw [verdict, if_neg hall, if_neg hmuch]
      exact .back h (List.forall_mem_cons.mpr ⟨not_lt.mp hmuch, hchecked⟩)
  | @drop passed s later large h =>
    obtain ⟨-, hs⟩ := Option.ite_none_right_eq_some.mp hs
    obtain rfl := Option.some.inj hs
    rw [eraseIdx_small]
    exact .outer h
  | @back passed s ahead checked h hchecked =>
    obtain rfl := Option.some.inj (PairLoop.step_back.symm.trans hs)
    exact .inner h hchecked
  | @next passed s later large h =>
    obtain ⟨-, hs⟩ := Option.ite_none_right_eq_some.mp hs
    obtain rfl := Option.some.inj hs
    have hlen : passed.length + 1 = (passed ++ [s]).length := by
      rw [List.length_append, List.length_singleton]
    rw [List.append_cons, hlen]
    exact .outer h
  | done => cases hs

/-- **A pass of the inner loop** merges nothing if `s` is spared, and comes to the
merging branch otherwise. -/
theorem run_pass (passed : List Rect) (hs : s.Positive) : ∀ (n : Nat) (ahead checked : List Rect),
    ahead.length = n → (∀ c ∈ checked, s.overlapPercentage c ≤ 85) →
    let w : State Rect :=
      ⟨passed ++ s :: (ahead ++ checked), passed.length, passed.length + ahead.length, .inner⟩
    (¬Spared s (ahead ++ checked) →
      ∃ n w', run (step consolidateBody) n w = some w' ∧ w'.point = .merge) ∧
    (Spared s (ahead ++ checked) → ∃ n passed' large,
      run (step consolidateBody) n w =
        some ⟨passed' ++ (ahead ++ checked), passed'.length, large, .outer⟩) := by
  intro n
  induction n with
  | zero =>
    intro ahead checked hn hchecked
    obtain rfl := List.length_eq_zero_iff.mp hn
    refine ⟨fun hnot => absurd (spared_of_forall fun c hc hmuch => ?_) hnot, fun _ => ?_⟩
    · exact absurd (hchecked c hc) (not_le.mpr hmuch)
    · refine ⟨2, passed ++ [s], passed.length, ?_⟩
      rw [List.nil_append, ← List.append_cons, List.length_append]
      exact PairLoop.run_meet (by simp)
  | succ n ih =>
    intro ahead checked hn hchecked
    obtain rfl | ⟨ahead, l, rfl⟩ := List.eq_nil_or_concat ahead
    · cases hn
    rw [List.concat_eq_append] at hn ⊢
    obtain rfl : ahead.length = n := by simpa using hn
    rw [← List.append_cons, List.length_append]
    have hjudge := run_judged passed ahead checked l hs
    by_cases hall : s.overlapPercentage l = 100
    · refine ⟨absurd (spared_of_nested hall hs hchecked), fun _ =>
        ⟨3, passed, passed.length + ahead.length + 1, ?_⟩⟩
      rw [verdict, if_pos hall] at hjudge
      have hdrop := run_trans hjudge (PairLoop.run_drop (by simp))
      rw [eraseIdx_small] at hdrop
      exact hdrop
    by_cases hmuch : 85 < s.overlapPercentage l
    · rw [verdict, if_neg hall, if_pos hmuch] at hjudge
      exact ⟨fun _ => ⟨2, _, hjudge, rfl⟩,
        fun hspared => absurd hspared (not_spared_of_merge hmuch hall hs hchecked)⟩
    · rw [verdict, if_neg hall, if_neg hmuch] at hjudge
      have hback := run_trans hjudge PairLoop.run_back
      obtain ⟨hmerge, hpass⟩ := ih ahead (l :: checked) rfl
        (List.forall_mem_cons.mpr ⟨not_lt.mp hmuch, hchecked⟩)
      refine ⟨fun hnot => ?_, fun hspared => ?_⟩
      · obtain ⟨n, w', hrun, hpoint⟩ := hmerge hnot
        exact ⟨_, w', run_trans hback hrun, hpoint⟩
      · obtain ⟨n, passed', large, hrun⟩ := hpass hspared
        exact ⟨_, passed', large, run_trans hback hrun⟩

/-- Where a merge is due, the loops come to it. -/
theorem exists_merge : ∀ (rest passed : List Rect) (large : Nat), (∀ r ∈ rest, r.Positive) →
    ¬NoMerge rest → ∃ n w, run (step consolidateBody) n
      ⟨passed ++ rest, passed.length, large, .outer⟩ = some w ∧ w.point = .merge := by
  intro rest
  induction rest with
  | nil =>
    intro passed large hpos hnot
    exact absurd trivial hnot
  | cons s ahead ih =>
    intro passed large hpos hnot
    rw [List.forall_mem_cons] at hpos
    obtain ⟨hmerge, hpass⟩ := run_pass passed hpos.1 ahead.length ahead [] rfl (by simp)
    rw [List.append_nil] at hmerge hpass
    have houter := run_one (step_outer passed ahead s large)
    by_cases hspared : Spared s ahead
    · obtain ⟨n, passed', large', hrun⟩ := hpass hspared
      obtain ⟨m, w, hrun', hpoint⟩ := ih passed' large' hpos.2 fun h => hnot ⟨hspared, h⟩
      exact ⟨_, w, run_trans houter (run_trans hrun hrun'), hpoint⟩
    · obtain ⟨n, w, hrun, hpoint⟩ := hmerge hspared
      exact ⟨_, w, run_trans houter hrun, hpoint⟩

/-- **`NoMerge` says that the merging branch is not taken.** -/
theorem noMerge_iff {rects : List Rect} (hpos : ∀ r ∈ rects, r.Positive) :
    NoMerge rects ↔
      ∀ n w, run (step consolidateBody) n (start rects) = some w → w.point ≠ .merge := by
  constructor
  · intro h n w hrun hpoint
    have hw := Machine.run_invariant (I := fun w => Unmerged w ∧ w.Bounded ∧
        ∀ r ∈ w.items, r.Positive) (fun w w' hw hs =>
        ⟨hw.1.step hw.2.2 hs, total_consolidateBody.variant.keeps hw.2 hs⟩) hrun
      ⟨@Unmerged.outer [] rects 0 h, PairLoop.bounded_start hpos⟩
    obtain ⟨hw, -⟩ := hw
    cases hw <;> cases hpoint
  · intro h
    by_contra hnot
    obtain ⟨n, w, hrun, hpoint⟩ := exists_merge rects [] 0 hpos hnot
    exact h n w hrun hpoint

end

/-! ## The body of `remove_nested` -/

theorem total_nestedBody : nestedBody.Total Rect.Positive where
  judge := by
    intro s l hs _
    by_cases hinside : s.isInside l = true
    · exact ⟨.drop, if_pos hinside⟩
    · exact ⟨.keep, (if_neg hinside).trans (if_neg hs.area_pos.ne')⟩
  merge := fun _ _ _ hl => hl

/-- **`remove_nested` is this program.** -/
theorem computes_nested : Computes nestedBody nestedLoop removeLoop where
  meet := nestedLoop_end
  body := by
    intro rects rectIt rectIt2 s l v hlt hs hl hv
    rw [nestedLoop, if_pos hlt, hs, hl]
    by_cases hinside : s.isInside l = true
    · obtain rfl : Verdict.drop = v := Option.some.inj ((if_pos hinside).symm.trans hv)
      exact if_pos hinside
    · obtain ⟨-, hv⟩ := Option.ite_none_left_eq_some.mp ((if_neg hinside).symm.trans hv)
      obtain rfl := Option.some.inj hv
      exact if_neg hinside
  zero := fun _ _ => rfl
  done := by
    intro rounds rects
    rw [removeLoop, if_neg (not_not.mpr rfl)]
    rfl
  round := by
    intro rounds rects rectIt hne
    rw [removeLoop, if_pos hne]
    rfl

/-- The same for the loops of `remove_nested`, which leave the maximal rectangles. -/
theorem removeNested_in_bounds {rects : List Rect} (hpos : ∀ r ∈ rects, r.Positive) :
    (∃ n ≤ cost rects.length, ∃ w, run (step nestedBody) n (start rects) = some w ∧
      w.point = .done ∧ w.items = maximals rects) ∧
    ∀ n w, run (step nestedBody) n (start rects) = some w →
      w.small ≤ w.items.length ∧
      (w.point.Dereferences → w.small < w.large ∧ w.large < w.items.length) ∧
      (w.point = .done ∨ ∃ w', step nestedBody w = some w') := by
  refine ⟨computes_nested.ends total_nestedBody hpos (removeNested_eq rects), ?_⟩
  intro n w hrun
  exact PairLoop.run_in_bounds total_nestedBody hpos hrun

end SecMon.RoiDetector
