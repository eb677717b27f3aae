import SecMon.ImageProcessing.Walk

/-!
# What consolidation leaves

* `consolidateRectangles_groups`: no region is lost and none invented.  The
  positions of the input fall into groups, one for each rectangle that is left,
  and that rectangle is the bounding box of its group.
* `consolidates_without_merge`: in a sorted list in which nothing is merged, no
  rectangles that overlap heavily are left.  A merge enlarges a rectangle without
  comparing it again to those it has behind it, nor to those passed before
  (`not_consolidates`).
-/

namespace SecMon.RoiDetector

open Rect (area_mono)

/-! ## Groups -/

/-- **A sweep groups**, and does not touch what is passed. -/
theorem Sweep.grouping {passed rest result : List Rect} (h : Sweep passed rest result) :
    ∃ tail, result = passed ++ tail ∧ Nonempty (Grouping rest tail) := by
  induction h with
  | done => exact ⟨[], (List.append_nil _).symm, ⟨.refl _⟩⟩
  | here scan _ ih =>
    obtain ⟨tail, rfl, ⟨g⟩⟩ := ih
    obtain ⟨g'⟩ := scan.grouping
    rw [List.append_nil, List.append_nil] at g'
    exact ⟨tail, rfl, ⟨g'.trans g⟩⟩
  | @next _ _ _ t _ _ scan _ ih =>
    obtain ⟨tail, rfl, ⟨g⟩⟩ := ih
    obtain ⟨g'⟩ := scan.grouping
    rw [List.append_nil, List.append_nil] at g'
    exact ⟨t :: tail, List.append_assoc .., ⟨g'.trans (g.cons t)⟩⟩

theorem Sweep.positive {rects result : List Rect} (h : Sweep [] rects result)
    (hpos : ∀ r ∈ rects, r.Positive) : ∀ q ∈ result, q.Positive := by
  obtain ⟨tail, rfl, ⟨g⟩⟩ := h.grouping
  exact positive_of_grouping g hpos

/-- **Consolidation loses and invents no region.** -/
theorem consolidateRectangles_groups (rects : List Rect) (hpos : ∀ r ∈ rects, r.Positive) :
    ∃ result, consolidateRectangles rects = some result ∧ Nonempty (Grouping rects result) ∧
      (∀ r ∈ rects, ∃ q ∈ result, r.isInside q = true) ∧
      ∀ box : Rect, (∀ r ∈ rects, r.isInside box = true) → ∀ q ∈ result, q.isInside box = true := by
  obtain ⟨result, hresult, hsweep⟩ := sweep_consolidateRectangles hpos
  obtain ⟨tail, hq, ⟨g⟩⟩ := hsweep.grouping
  rw [List.nil_append] at hq
  subst hq
  simp only [Rect.isInside_iff]
  exact ⟨result, hresult, ⟨g⟩, fun r hr => g.covers hr, fun box hbox => g.bounds hbox⟩

/-- Three rectangles of which two are merged. -/
theorem consolidateRectangles_groups_three :
    (∀ r ∈ [(⟨0, 0, 10, 10⟩ : Rect), ⟨1, 0, 10, 10⟩, ⟨40, 0, 20, 20⟩], r.Positive) ∧
      ∃ result, consolidateRectangles [⟨0, 0, 10, 10⟩, ⟨1, 0, 10, 10⟩, ⟨40, 0, 20, 20⟩] =
          some result ∧
        Nonempty (Grouping [⟨0, 0, 10, 10⟩, ⟨1, 0, 10, 10⟩, ⟨40, 0, 20, 20⟩] result) ∧
        (∀ r ∈ [(⟨0, 0, 10, 10⟩ : Rect), ⟨1, 0, 10, 10⟩, ⟨40, 0, 20, 20⟩],
          ∃ q ∈ result, r.isInside q = true) ∧
        ∀ box : Rect, (∀ r ∈ [(⟨0, 0, 10, 10⟩ : Rect), ⟨1, 0, 10, 10⟩, ⟨40, 0, 20, 20⟩],
          r.isInside box = true) → ∀ q ∈ result, q.isInside box = true :=
  ⟨by decide, consolidateRectangles_groups _ (by decide)⟩

/-! ## Heavy overlaps -/

/-- The smaller rectangle `a` does not overlap `b` so much that the loop would merge
them. -/
def Clear (a b : Rect) : Prop := a.area ≤ b.area → a.overlapPercentage b ≤ 85

instance (a b : Rect) : Decidable (Clear a b) := inferInstanceAs (Decidable (_ → _))

/-- Neither overlaps the other. -/
def Apart (a b : Rect) : Prop := Clear a b ∧ Clear b a

/-- **A consolidated list**: no two of its rectangles overlap heavily, and none is
nested in another or equal to it. -/
structure Consolidated (rects : List Rect) : Prop where
  clear : ∀ (i j : Nat) (a b : Rect), i ≠ j → rects[i]? = some a → rects[j]? = some b → Clear a b
  flat : ∀ (i j : Nat) (a b : Rect), i ≠ j → rects[i]? = some a → rects[j]? = some b →
    a.isInside b = false

theorem Clear.not_le {a b : Rect} (h : Clear a b) (ha : a.Positive) : ¬a ≤ b := by
  intro hab
  have hall := (Rect.overlapPercentage_eq_hundred ha).mpr hab
  have hfew := h (area_mono ha hab)
  omega

theorem consolidated_iff {rects : List Rect} (hpos : ∀ r ∈ rects, r.Positive) :
    Consolidated rects ↔ rects.Pairwise Apart := by
  constructor
  · intro h
    rw [List.pairwise_iff_getElem]
    intro i j hi hj hij
    have hgi : rects[i]? = some rects[i] := List.getElem?_eq_getElem hi
    have hgj : rects[j]? = some rects[j] := List.getElem?_eq_getElem hj
    exact ⟨h.clear i j _ _ hij.ne hgi hgj, h.clear j i _ _ hij.ne' hgj hgi⟩
  · intro h
    have hclear : ∀ (i j : Nat) (a b : Rect), i ≠ j → rects[i]? = some a →
        rects[j]? = some b → Clear a b := by
      intro i j a b hij hi hj
      rw [List.pairwise_iff_getElem] at h
      obtain ⟨hi', rfl⟩ := List.getElem?_eq_some_iff.mp hi
      obtain ⟨hj', rfl⟩ := List.getElem?_eq_some_iff.mp hj
      cases lt_or_gt_of_ne hij with
      | inl hlt => exact (h i j hi' hj' hlt).1
      | inr hgt => exact (h j i hj' hi' hgt).2
    refine ⟨hclear, fun i j a b hij hi hj => ?_⟩
    rw [← Bool.not_eq_true, Rect.isInside_iff]
    exact (hclear i j a b hij hi hj).not_le (hpos a (List.mem_of_getElem? hi))

/-! ## Without a merge -/

/-- No merge takes `a` into a rectangle of `later`: where it overlaps one heavily and
is not nested in it, it is nested in one behind that, and gone before. -/
def Spared (a : Rect) : List Rect → Prop
  | [] => True
  | b :: behind =>
    (85 < a.overlapPercentage b → a.overlapPercentage b = 100 ∨ ∃ c ∈ behind, a ≤ c) ∧
      Spared a behind

/-- **A list in which the loop merges nothing.** -/
def NoMerge : List Rect → Prop
  | [] => True
  | a :: later => Spared a later ∧ NoMerge later

theorem Spared.at {a b : Rect} {behind : List Rect} : ∀ {mid : List Rect},
    Spared a (mid ++ b :: behind) → 85 < a.overlapPercentage b →
    a.overlapPercentage b = 100 ∨ ∃ c ∈ behind, a ≤ c
  | [], h => h.1
  | _ :: _, h => Spared.at h.2

theorem spared_of_forall {a : Rect} {later : List Rect}
    (h : ∀ b ∈ later, 85 < a.overlapPercentage b → a.overlapPercentage b = 100) :
    Spared a later := by
  induction later with
  | nil => trivial
  | cons b behind ih =>
    rw [List.forall_mem_cons] at h
    exact ⟨fun hmuch => Or.inl (h.1 hmuch), ih h.2⟩

section

variable {ahead checked : List Rect} {s l : Rect}

theorem spared_of_nested (h : s.overlapPercentage l = 100) (hs : s.Positive)
    (hchecked : ∀ c ∈ checked, s.overlapPercentage c ≤ 85) : Spared s (ahead ++ l :: checked) := by
  induction ahead with
  | nil =>
    refine ⟨fun _ => .inl h, spared_of_forall fun c hc hmuch => ?_⟩
    exact absurd (hchecked c hc) (not_le.mpr hmuch)
  | cons a ahead ih =>
    refine ⟨fun _ => .inr ⟨l, ?_, (Rect.overlapPercentage_eq_hundred hs).mp h⟩, ih⟩
    exact List.mem_append_right _ List.mem_cons_self

theorem not_spared_of_merge (h : 85 < s.overlapPercentage l) (h' : s.overlapPercentage l ≠ 100)
    (hs : s.Positive) (hchecked : ∀ c ∈ checked, s.overlapPercentage c ≤ 85) :
    ¬Spared s (ahead ++ l :: checked) := by
  intro hspared
  obtain ⟨c, hc, hle⟩ := (hspared.at h).resolve_left h'
  have hall := (Rect.overlapPercentage_eq_hundred hs).mpr hle
  have hfew := hchecked c hc
  omega

end

theorem Clear.symm {a b : Rect} (h : Clear a b) (hab : a.area ≤ b.area) : Clear b a := by
  intro hba
  rw [Rect.overlapPercentage_comm (le_antisymm hba hab)]
  exact h hab

/-- A pass that merges nothing erases its rectangle, or moves over it. -/
theorem Scan.of_spared {ahead checked rest : List Rect} {s : Rect} {here : Bool}
    (h : Scan s ahead checked [] rest here) (hpos : s.Positive)
    (hspared : Spared s (ahead ++ checked)) (hchecked : ∀ y ∈ checked, s.overlapPercentage y ≤ 85) :
    (here = true ∧ rest = ahead ++ checked ∧ ∃ l ∈ ahead ++ checked, s ≤ l) ∨
      here = false ∧ rest = s :: (ahead ++ checked) ∧
        ∀ y ∈ ahead ++ checked, s.overlapPercentage y ≤ 85 := by
  generalize hskipped : [] = skipped at h
  induction h with
  | move =>
    subst hskipped
    exact Or.inr ⟨rfl, by rw [List.append_nil, List.nil_append], hchecked⟩
  | @nested s l ahead checked skipped h =>
    subst hskipped
    refine Or.inl ⟨rfl, by rw [List.append_nil, List.append_cons], l, ?_, h⟩
    exact List.mem_append_left _ (List.mem_append_right _ (List.mem_singleton_self l))
  | @keep s l ahead checked skipped rest here h _ ih =>
    rw [← List.append_cons] at hspared ⊢
    exact ih hpos hspared (List.forall_mem_cons.mpr ⟨h, hchecked⟩) hskipped
  | @merge s l t ahead ahead' checked skipped rest here h h' =>
    rw [← List.append_cons] at hspared
    exact absurd hspared (not_spared_of_merge h h' hpos hchecked)

/-- **In a sorted list in which nothing is merged**, each rectangle was compared with
all those that may be too near it. -/
theorem Sweep.apart {passed rest result : List Rect} (h : Sweep passed rest result)
    (hpos : ∀ r ∈ rest, r.Positive)
    (hsorted : (passed ++ rest).Pairwise fun a b => compareRectSize b a = false)
    (hno : NoMerge rest) (hpassed : passed.Pairwise Apart)
    (hrest : ∀ z ∈ passed, ∀ y ∈ rest, Clear z y) : result.Pairwise Apart := by
  induction h with
  | done => exact hpassed
  | @here passed s ahead rest result scan sweep ih =>
    obtain ⟨hs, hahead⟩ := hno
    rw [← List.append_nil ahead] at hs
    obtain ⟨-, rfl, -⟩ | ⟨hf, -⟩ := scan.of_spared (hpos s List.mem_cons_self) hs (by simp)
    · rw [List.append_nil] at ih
      apply ih (fun r hr => hpos r (List.mem_cons_of_mem s hr)) _ hahead hpassed
      · exact fun z hz y hy => hrest z hz y (List.mem_cons_of_mem s hy)
      · exact hsorted.sublist ((List.sublist_cons_self s ahead).append_left passed)
    · cases hf
  | @next passed s ahead t rest result scan sweep ih =>
    obtain ⟨hs, hahead⟩ := hno
    rw [← List.append_nil ahead] at hs
    obtain ⟨hf, -⟩ | ⟨-, heq, hfew⟩ := scan.of_spared (hpos s List.mem_cons_self) hs (by simp)
    · cases hf
    obtain ⟨rfl, rfl⟩ := List.cons.inj heq
    rw [List.append_nil] at ih hfew
    apply ih (fun r hr => hpos r (List.mem_cons_of_mem t hr))
      (by rw [← List.append_cons]; exact hsorted) hahead
    · apply List.pairwise_append.mpr
      refine ⟨hpassed, List.pairwise_singleton _ _, fun z hz y hy => ?_⟩
      obtain rfl := List.mem_singleton.mp hy
      have hzt := (List.pairwise_append.mp hsorted).2.2 z hz y List.mem_cons_self
      have hclear := hrest z hz y List.mem_cons_self
      exact ⟨hclear, hclear.symm (by simpa [compareRectSize] using hzt)⟩
    · intro z hz y hy
      cases List.mem_append.mp hz with
      | inl hz => exact hrest z hz y (List.mem_cons_of_mem t hy)
      | inr hz => exact List.mem_singleton.mp hz ▸ fun _ => hfew y hy

/-- **Where nothing is merged, consolidation leaves no heavy overlap.** -/
theorem consolidates_without_merge (rects : List Rect) (hpos : ∀ r ∈ rects, r.Positive)
    (hsorted : rects.Pairwise fun a b => compareRectSize b a = false) (hno : NoMerge rects) :
    ∃ result, consolidateRectangles rects = some result ∧ Consolidated result := by
  obtain ⟨result, hresult, hsweep⟩ := sweep_consolidateRectangles hpos
  have hapart := hsweep.apart hpos hsorted hno .nil (by simp)
  exact ⟨result, hresult, (consolidated_iff (hsweep.positive hpos)).mpr hapart⟩

/-- The first rectangle overlaps the second by 90 percent, but is nested in the
third. -/
theorem consolidates_without_merge_three :
    ∃ result, consolidateRectangles [⟨0, 15, 10, 10⟩, ⟨1, 15, 10, 20⟩, ⟨0, 0, 10, 25⟩] =
      some result ∧ Consolidated result :=
  consolidates_without_merge _ (by decide) (by decide) (by simp only [NoMerge, Spared]; decide)

/-- The first two rectangles of a row of three are merged into one that nobody
compares with the third. -/
theorem not_consolidates :
    ¬∀ rects : List Rect, (∀ r ∈ rects, r.Positive) →
      rects.Pairwise (fun a b => compareRectSize b a = false) →
      ∃ result, consolidateRectangles rects = some result ∧ Consolidated result := by
  intro h
  obtain ⟨result, hresult, hc⟩ :=
    h [⟨0, 0, 10, 10⟩, ⟨1, 0, 10, 10⟩, ⟨2, 0, 10, 10⟩] (by decide) (by decide)
  have hrun : consolidateRectangles [⟨0, 0, 10, 10⟩, ⟨1, 0, 10, 10⟩, ⟨2, 0, 10, 10⟩] =
      some [⟨0, 0, 11, 10⟩, ⟨2, 0, 10, 10⟩] := by decide
  obtain rfl : _ = result := Option.some.inj (hrun.symm.trans hresult)
  have hclear : Clear ⟨2, 0, 10, 10⟩ ⟨0, 0, 11, 10⟩ := hc.clear 1 0 _ _ (by decide) rfl rfl
  exact absurd hclear (by decide)

/-- Not every merge does harm. -/
example : consolidateRectangles [⟨0, 0, 10, 10⟩, ⟨1, 0, 10, 10⟩, ⟨40, 0, 20, 20⟩] =
    some [⟨0, 0, 11, 10⟩, ⟨40, 0, 20, 20⟩] := by decide

end SecMon.RoiDetector
