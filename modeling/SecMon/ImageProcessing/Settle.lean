import Mathlib.Logic.Function.Iterate
import SecMon.ImageProcessing.Consolidate

/-!
# Consolidating again

One call of `consolidate_rectangles` may leave rectangles that a second call
would merge.  Here is what it takes for a call to change nothing, and what comes
of calling it over and over.

* `Scan.of_length`, `Sweep.of_length`: a call that erases nothing has compared
  every rectangle with all those behind it, and found no heavy overlap.
* `Sweep.eq_of_stable`: such a list it leaves as it is.
* `consolidateRectangles_settles`: so the calls come to rest, at the latest with
  as many as there are rectangles.
-/

namespace SecMon.RoiDetector

variable {passed ahead checked skipped rest rects result : List Rect} {s : Rect} {here : Bool}

/-- No rectangle is overlapped heavily by one behind it. -/
def Stable (rects : List Rect) : Prop := rects.Pairwise fun a b => a.overlapPercentage b ≤ 85

instance : DecidablePred Stable := fun _ => inferInstanceAs (Decidable (List.Pairwise _ _))

/-- A stable list that is sorted as the detector sorts it is consolidated. -/
theorem Stable.consolidated (h : Stable rects) (hpos : ∀ r ∈ rects, r.Positive)
    (hsorted : rects.Pairwise fun a b => compareRectSize b a = false) : Consolidated rects := by
  rw [consolidated_iff hpos]
  refine h.imp₂ (fun a b hle hab => ?_) hsorted
  have hclear : Clear a b := fun _ => hle
  refine ⟨hclear, hclear.symm ?_⟩
  simpa [compareRectSize] using hab

/-! ### A pass that erases nothing -/

/-- **It has compared its rectangle with all that were ahead**, and moves over it. -/
theorem Scan.of_length (h : Scan s ahead checked skipped rest here)
    (hlen : rest.length = ahead.length + checked.length + skipped.length + 1) :
    here = false ∧ rest = s :: (ahead ++ (checked ++ skipped)) ∧
      ∀ y ∈ ahead, s.overlapPercentage y ≤ 85 := by
  induction h with
  | move => exact ⟨rfl, rfl, by simp⟩
  | nested =>
    simp only [List.length_append, List.length_cons, List.length_nil] at hlen
    omega
  | @keep s l ahead checked skipped rest here h _ ih =>
    rw [List.length_append, List.length_singleton] at hlen
    obtain ⟨hhere, hrest, hahead⟩ := ih (by rw [hlen, List.length_cons]; omega)
    refine ⟨hhere, ?_, ?_⟩
    · rw [hrest, ← List.append_cons]
      rfl
    · rw [List.forall_mem_append]
      exact ⟨hahead, List.forall_mem_singleton.mpr h⟩
  | merge _ _ ht scan =>
    -- the merge has erased one, and a pass adds none
    have hle := scan.length_le
    have hsame := congrArg List.length ht
    simp only [List.length_append, List.length_cons, List.length_nil] at hle hsame hlen
    split at hle <;> omega

theorem Sweep.length_le (h : Sweep passed rest result) :
    result.length ≤ passed.length + rest.length := by
  induction h with
  | done => exact Nat.le_refl _
  | here scan _ ih =>
    have hle := scan.length_le
    simp only [List.length_cons, List.length_nil, if_true] at hle ih ⊢
    omega
  | next scan _ ih =>
    have hle := scan.length_le
    simp only [List.length_append, List.length_cons, List.length_nil, Bool.false_eq_true,
      if_false] at hle ih ⊢
    omega

/-- A pass that moves on and a sweep that keeps every rectangle. -/
theorem Sweep.of_length (h : Sweep passed rest result)
    (hlen : result.length = passed.length + rest.length) :
    result = passed ++ rest ∧ Stable rest := by
  induction h with
  | done => exact ⟨(List.append_nil _).symm, .nil⟩
  | here scan sweep =>
    have hscan := scan.length_le
    have hsweep := sweep.length_le
    simp only [List.length_cons, List.length_nil, if_true] at hscan hlen
    omega
  | @next passed s ahead t rest result scan sweep ih =>
    have hscan := scan.length_le
    have hsweep := sweep.length_le
    simp only [List.length_append, List.length_cons, List.length_nil] at hscan hsweep hlen
    obtain ⟨-, hrest, hahead⟩ := scan.of_length (by simp at hscan ⊢; omega)
    rw [List.append_nil, List.append_nil] at hrest
    obtain ⟨rfl, rfl⟩ := List.cons.inj hrest
    obtain ⟨hresult, hstable⟩ := ih (by simp; omega)
    exact ⟨hresult.trans (List.append_cons ..).symm, .cons hahead hstable⟩

/-! ### A list in which nothing overlaps heavily -/

theorem spared_of_few (h : ∀ y ∈ rest, s.overlapPercentage y ≤ 85) : Spared s rest :=
  spared_of_forall fun y hy hmuch => absurd hmuch (not_lt.mpr (h y hy))

/-- **A sweep leaves it as it is.** -/
theorem Sweep.eq_of_stable (h : Sweep passed rest result)
    (hpos : ∀ r ∈ rest, r.Positive) (hstable : Stable rest) : result = passed ++ rest := by
  induction h with
  | done => exact (List.append_nil _).symm
  | @here passed s ahead rest result scan sweep =>
    obtain ⟨hs, -⟩ := List.pairwise_cons.mp hstable
    have hpos' := hpos s List.mem_cons_self
    rw [← List.append_nil ahead] at hs
    obtain ⟨-, -, l, hl, hle⟩ | ⟨hf, -⟩ := scan.of_spared hpos' (spared_of_few hs) (by simp)
    · have hall := (Rect.overlapPercentage_eq_hundred hpos').mpr hle
      have hfew := hs l hl
      omega
    · cases hf
  | @next passed s ahead t rest result scan sweep ih =>
    obtain ⟨hs, hahead⟩ := List.pairwise_cons.mp hstable
    have hpos' := hpos s List.mem_cons_self
    rw [← List.append_nil ahead] at hs
    obtain ⟨hf, -⟩ | ⟨-, hrest, -⟩ := scan.of_spared hpos' (spared_of_few hs) (by simp)
    · cases hf
    rw [List.append_nil] at hrest
    obtain ⟨rfl, rfl⟩ := List.cons.inj hrest
    rw [ih (fun r hr => hpos r (List.mem_cons_of_mem t hr)) hahead]
    exact (List.append_cons ..).symm

/-! ### Over and over -/

/-- **A call changes nothing exactly if the list is stable**, and leaves fewer
rectangles otherwise. -/
theorem consolidateRectangles_stable (hpos : ∀ r ∈ rects, r.Positive) :
    ∃ result, consolidateRectangles rects = some result ∧ (∀ q ∈ result, q.Positive) ∧
      Nonempty (Grouping rects result) ∧ (result = rects ↔ Stable rects) ∧
      (¬Stable rects → result.length < rects.length) := by
  obtain ⟨result, hresult, hsweep⟩ := sweep_consolidateRectangles hpos
  obtain ⟨tail, heq, hg⟩ := hsweep.grouping
  rw [List.nil_append] at heq
  subst heq
  have hlength : result.length = rects.length → Stable rects := fun hlen =>
    (hsweep.of_length (by simpa using hlen)).2
  refine ⟨result, hresult, hsweep.positive hpos, hg, ⟨?_, ?_⟩, fun hnot => ?_⟩
  · rintro rfl
    exact hlength rfl
  · exact hsweep.eq_of_stable hpos
  · have hle := hsweep.length_le
    rw [List.length_nil, Nat.zero_add] at hle
    exact lt_of_le_of_ne hle fun hlen => hnot (hlength hlen)

/-- Calling it once more on what the last call has left. -/
def consolidateAgain (n : Nat) (rects : List Rect) : Option (List Rect) :=
  (·.bind consolidateRectangles)^[n] (some rects)

/-- **The calls come to rest.**  One call leaves the list alone exactly if no
rectangle is overlapped heavily by a later one, and has fewer otherwise; if a
sorted list is left alone, nothing in it overlaps heavily.  So after some calls,
no more than there are rectangles, the list is stable, and its rectangles are
still the bounding boxes of groups of the first ones. -/
theorem consolidateRectangles_settles (rects : List Rect) (hpos : ∀ r ∈ rects, r.Positive) :
    (∃ result, consolidateRectangles rects = some result ∧ (result = rects ↔ Stable rects) ∧
      (¬Stable rects → result.length < rects.length) ∧
      (rects.Pairwise (fun a b => compareRectSize b a = false) → result = rects →
        Consolidated result)) ∧
    ∃ n ≤ rects.length, ∃ result, consolidateAgain n rects = some result ∧ Stable result ∧
      consolidateRectangles result = some result ∧ Nonempty (Grouping rects result) := by
  constructor
  · obtain ⟨result, hresult, -, -, hiff, hlt⟩ := consolidateRectangles_stable hpos
    refine ⟨result, hresult, hiff, hlt, fun hsorted heq => ?_⟩
    rw [heq]
    exact (hiff.mp heq).consolidated hpos hsorted
  · generalize hk : rects.length = k
    induction k using Nat.strongRecOn generalizing rects with
    | ind k ih =>
      obtain ⟨next, hnext, hpos', ⟨g⟩, hiff, hlt⟩ := consolidateRectangles_stable hpos
      by_cases hstable : Stable rects
      · rw [hiff.mpr hstable] at hnext
        exact ⟨0, Nat.zero_le k, rects, rfl, hstable, hnext, ⟨.refl rects⟩⟩
      · obtain ⟨n, hn, result, hrun, hrest, hfix, ⟨g'⟩⟩ :=
          ih next.length (hk ▸ hlt hstable) next hpos' rfl
        refine ⟨n + 1, hk ▸ Nat.lt_of_le_of_lt hn (hlt hstable), result, ?_, hrest, hfix,
          ⟨g.trans g'⟩⟩
        rw [consolidateAgain, Function.iterate_succ_apply, Option.bind_some, hnext]
        exact hrun

/-- A row of three of which one call merges two, and another call the rest. -/
theorem consolidateRectangles_settles_row :
    let rects : List Rect := [⟨0, 0, 10, 10⟩, ⟨1, 0, 10, 10⟩, ⟨1, 0, 11, 10⟩]
    (∃ result, consolidateRectangles rects = some result ∧ (result = rects ↔ Stable rects) ∧
      (¬Stable rects → result.length < rects.length) ∧
      (rects.Pairwise (fun a b => compareRectSize b a = false) → result = rects →
        Consolidated result)) ∧
    ∃ n ≤ rects.length, ∃ result, consolidateAgain n rects = some result ∧ Stable result ∧
      consolidateRectangles result = some result ∧ Nonempty (Grouping rects result) :=
  consolidateRectangles_settles _ (by decide)

example : consolidateAgain 2 [⟨0, 0, 10, 10⟩, ⟨1, 0, 10, 10⟩, ⟨1, 0, 11, 10⟩] =
    some [⟨0, 0, 12, 10⟩] := by decide

end SecMon.RoiDetector
