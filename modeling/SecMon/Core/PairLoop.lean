import SecMon.Core.Machine

/-!
# Loops over the pairs of a vector

Two nested loops that erase from the vector they walk over:

    for (small = begin(); small != end();) {
      for (large = end() - 1; large > small;) {
        ...                  // erase small, merge it into large, or keep it
        --large;
      }
      ++small;
      here: {}
    }

An iterator is its position, and stays there when something is erased.  What is
undefined has no step: an iterator read outside of the vector or moved out of
it, an element erased that is not there, a pair that cannot be judged.

* `step`: the loops as a program, from one point to the next.
* `State.Bounded`: where the iterators stand at each point.
* `State.todo`: how many steps are left at most.
* `Body.Total.variant`: a step keeps the one and lowers the other, whatever the
  body decides.
* `Computes.ends`: functions that satisfy the equations of the loops compute what
  the program leaves.
-/

namespace SecMon.PairLoop

open Machine (run run_one run_trans Variant)

variable {α : Type*}

/-- What the body of the inner loop makes of a pair. -/
inductive Verdict
  | drop
  | merge
  | keep
  deriving DecidableEq

/-- The body of the inner loop. -/
structure Body (α : Type*) where
  /-- The verdict on the elements under `small` and `large`. -/
  judge : α → α → Option Verdict
  /-- What `large` becomes when it takes in `small`. -/
  merge : α → α → α

/-- The points of the program, each before what it is named for. -/
inductive Point
  /-- `small != end()`, and `large = end() - 1`. -/
  | outer
  /-- `large > small`. -/
  | inner
  | judge
  /-- `small = erase(small)`, and `goto here`. -/
  | drop
  /-- The writes to `*large`. -/
  | merge
  /-- `small = erase(small)` behind the writes. -/
  | erase
  /-- `--large`. -/
  | back
  /-- `++small`. -/
  | next
  | done
  deriving DecidableEq

/-- The iterators are dereferenced at this point. -/
def Point.Dereferences (p : Point) : Prop := p = .judge ∨ p = .merge

def Verdict.point : Verdict → Point
  | .drop => .drop
  | .merge => .merge
  | .keep => .back

structure State (α : Type*) where
  items : List α
  small : Nat
  large : Nat
  point : Point
  deriving DecidableEq

/-- Before the outer loop.  `large` is not set yet. -/
def start (items : List α) : State α := ⟨items, 0, 0, .outer⟩

/-- `*small` and `*large`. -/
def State.pair (w : State α) : Option (α × α) := do
  let s ← w.items[w.small]?
  let l ← w.items[w.large]?
  return (s, l)

/-- `small = erase(small)`: the iterator is then at the element that came after. -/
def State.erase (w : State α) (p : Point) : Option (State α) :=
  if w.small < w.items.length then
    some { w with items := w.items.eraseIdx w.small, point := p }
  else
    none

def step (b : Body α) (w : State α) : Option (State α) :=
  match w.point with
  | .outer =>
    if w.small = w.items.length then
      some { w with point := .done }
    else if 0 < w.items.length then
      some { w with large := w.items.length - 1, point := .inner }
    else
      none
  | .inner => some { w with point := if w.large > w.small then .judge else .next }
  | .judge => do
    let (s, l) ← w.pair
    (b.judge s l).map fun v => { w with point := v.point }
  | .drop => w.erase .outer
  | .merge => do
    let (s, l) ← w.pair
    return { w with items := w.items.set w.large (b.merge l s), point := .erase }
  | .erase => w.erase .back
  | .back => if 0 < w.large then some { w with large := w.large - 1, point := .inner } else none
  | .next =>
    if w.small < w.items.length then some { w with small := w.small + 1, point := .outer } else none
  | .done => none

section

variable {b : Body α} {items : List α} {small large : Nat} {s l : α} {v : Verdict}

theorem step_inner (h : small < large) :
    step b ⟨items, small, large, .inner⟩ = some ⟨items, small, large, .judge⟩ := by
  rw [step, if_pos h]

theorem step_judge (hs : items[small]? = some s) (hl : items[large]? = some l)
    (hv : b.judge s l = some v) :
    step b ⟨items, small, large, .judge⟩ = some ⟨items, small, large, v.point⟩ := by
  rw [step, State.pair, hs, hl]
  change Option.map _ (b.judge s l) = _
  rw [hv]
  rfl

theorem step_merge (hs : items[small]? = some s) (hl : items[large]? = some l) :
    step b ⟨items, small, large, .merge⟩ =
      some ⟨items.set large (b.merge l s), small, large, .erase⟩ := by
  rw [step, State.pair, hs, hl]
  rfl

theorem step_back :
    step b ⟨items, small, large + 1, .back⟩ = some ⟨items, small, large, .inner⟩ := by
  rw [step, if_pos large.succ_pos, Nat.add_sub_cancel]

end

/-! ## Bounds -/

/-- Where the iterators stand.  After a merge of the last element `large` is at the
end, until it goes back. -/
def State.Bounded (w : State α) : Prop :=
  match w.point with
  | .outer => w.small ≤ w.items.length
  | .inner => w.small ≤ w.large ∧ w.large < w.items.length
  | .judge | .drop | .merge | .erase => w.small < w.large ∧ w.large < w.items.length
  | .back => w.small < w.large ∧ w.large ≤ w.items.length
  | .next => w.small < w.items.length
  | .done => w.small = w.items.length

theorem State.Bounded.small_le {w : State α} (h : w.Bounded) : w.small ≤ w.items.length := by
  obtain ⟨items, small, large, point⟩ := w
  cases point <;> simp only [State.Bounded] at h ⊢ <;> omega

theorem State.Bounded.of_dereferences {w : State α} (h : w.Bounded) (hd : w.point.Dereferences) :
    w.small < w.large ∧ w.large < w.items.length := by
  obtain ⟨items, small, large, point⟩ := w
  obtain rfl | rfl := hd
  · exact h
  · exact h

/-! ## Termination -/

/-- How many steps the outer loop takes at most with so many elements still to pass:
1 + 3 + 6 + ⋯ + 3 n. -/
def cost : Nat → Nat
  | 0 => 1
  | n + 1 => cost n + 3 * (n + 1)

theorem cost_pred {n : Nat} (h : 0 < n) : cost n = cost (n - 1) + 3 * n := by
  obtain ⟨n, rfl⟩ := Nat.exists_eq_add_one.mpr h
  rfl

/-- How many steps are left at most.  A merge takes an element away from those to
pass, which pays for its two further steps. -/
def State.todo (w : State α) : Nat :=
  let ahead := w.items.length - w.small
  let gap := w.large - w.small
  match w.point with
  | .outer => cost ahead
  | .inner => cost (ahead - 1) + 3 * gap + 2
  | .judge => cost (ahead - 1) + 3 * gap + 1
  | .drop => cost (ahead - 1) + 1
  | .merge => cost (ahead - 2) + 3 * gap + 2
  | .erase => cost (ahead - 2) + 3 * gap + 1
  | .back => cost (ahead - 1) + 3 * gap
  | .next => cost (ahead - 1) + 1
  | .done => 0

/-- The body is defined on what meets `P`, and merges it to what meets `P`. -/
structure Body.Total (b : Body α) (P : α → Prop) : Prop where
  judge : ∀ s l, P s → P l → ∃ v, b.judge s l = some v
  merge : ∀ s l, P s → P l → P (b.merge l s)

/-- The next step is defined, keeps the bounds and `P`, and lowers what is left. -/
def Advances (b : Body α) (P : α → Prop) (w : State α) : Prop :=
  ∃ w', step b w = some w' ∧ (w'.Bounded ∧ ∀ x ∈ w'.items, P x) ∧ w'.todo < w.todo

section

variable {b : Body α} {P : α → Prop} {items : List α} {small large : Nat}

theorem exists_pair (hP : ∀ x ∈ items, P x) (hlt : small < large) (hlen : large < items.length) :
    ∃ s l, items[small]? = some s ∧ items[large]? = some l ∧ P s ∧ P l := by
  have hs : small < items.length := Nat.lt_trans hlt hlen
  exact ⟨items[small], items[large], List.getElem?_eq_getElem hs, List.getElem?_eq_getElem hlen,
    hP _ (List.getElem_mem hs), hP _ (List.getElem_mem hlen)⟩

/-- What holds of all elements and of the merged one holds behind the writes. -/
theorem forall_set {x : α} (hP : ∀ x ∈ items, P x) (hx : P x) : ∀ y ∈ items.set large x, P y := by
  intro y hy
  obtain hy | rfl := List.mem_or_eq_of_mem_set hy
  · exact hP y hy
  · exact hx

theorem advances_outer (hP : ∀ x ∈ items, P x) (hle : small ≤ items.length) :
    Advances b P ⟨items, small, large, .outer⟩ := by
  by_cases hend : small = items.length
  · refine ⟨⟨items, small, large, .done⟩, if_pos hend, ⟨hend, hP⟩, ?_⟩
    change 0 < cost (items.length - small)
    rw [hend, Nat.sub_self]
    exact Nat.one_pos
  · have hpos : 0 < items.length := by omega
    refine ⟨⟨items, small, items.length - 1, .inner⟩, (if_neg hend).trans (if_pos hpos),
      ⟨?_, hP⟩, ?_⟩
    · change small ≤ items.length - 1 ∧ items.length - 1 < items.length
      omega
    · change cost (items.length - small - 1) + 3 * (items.length - 1 - small) + 2 <
        cost (items.length - small)
      rw [cost_pred (by omega : 0 < items.length - small)]
      omega

theorem advances_inner (hP : ∀ x ∈ items, P x) (hle : small ≤ large) (hlen : large < items.length) :
    Advances b P ⟨items, small, large, .inner⟩ := by
  by_cases hmeet : large > small
  · refine ⟨⟨items, small, large, .judge⟩, ?_, ⟨⟨hmeet, hlen⟩, hP⟩, Nat.lt_succ_self _⟩
    rw [step, if_pos hmeet]
  · refine ⟨⟨items, small, large, .next⟩, ?_, ⟨Nat.lt_of_le_of_lt hle hlen, hP⟩, ?_⟩
    · rw [step, if_neg hmeet]
    · change cost (items.length - small - 1) + 1 <
        cost (items.length - small - 1) + 3 * (large - small) + 2
      omega

theorem advances_judge (hb : b.Total P) (hP : ∀ x ∈ items, P x) (hlt : small < large)
    (hlen : large < items.length) : Advances b P ⟨items, small, large, .judge⟩ := by
  obtain ⟨s, l, hs, hl, hPs, hPl⟩ := exists_pair hP hlt hlen
  obtain ⟨v, hv⟩ := hb.judge s l hPs hPl
  refine ⟨_, step_judge hs hl hv, ?_⟩
  cases v with
  | drop =>
    refine ⟨⟨⟨hlt, hlen⟩, hP⟩, ?_⟩
    change cost (items.length - small - 1) + 1 <
      cost (items.length - small - 1) + 3 * (large - small) + 1
    omega
  | merge =>
    refine ⟨⟨⟨hlt, hlen⟩, hP⟩, ?_⟩
    change cost (items.length - small - 2) + 3 * (large - small) + 2 <
      cost (items.length - small - 1) + 3 * (large - small) + 1
    have hsub : items.length - small - 1 - 1 = items.length - small - 2 := rfl
    rw [cost_pred (by omega : 0 < items.length - small - 1), hsub]
    omega
  | keep => exact ⟨⟨⟨hlt, Nat.le_of_lt hlen⟩, hP⟩, Nat.lt_succ_self _⟩

theorem advances_merge (hb : b.Total P) (hP : ∀ x ∈ items, P x) (hlt : small < large)
    (hlen : large < items.length) : Advances b P ⟨items, small, large, .merge⟩ := by
  obtain ⟨s, l, hs, hl, hPs, hPl⟩ := exists_pair hP hlt hlen
  refine ⟨_, step_merge hs hl, ⟨?_, forall_set hP (hb.merge s l hPs hPl)⟩, ?_⟩
  · change small < large ∧ large < (items.set large (b.merge l s)).length
    rw [List.length_set]
    exact ⟨hlt, hlen⟩
  · change cost ((items.set large (b.merge l s)).length - small - 2) + 3 * (large - small) + 1 < _
    rw [List.length_set]
    exact Nat.lt_succ_self _

theorem advances_drop (hP : ∀ x ∈ items, P x) (hlt : small < items.length) :
    Advances b P ⟨items, small, large, .drop⟩ := by
  have hlen := List.length_eraseIdx_of_lt hlt
  refine ⟨⟨items.eraseIdx small, small, large, .outer⟩, if_pos hlt, ⟨?_, ?_⟩, ?_⟩
  · change small ≤ (items.eraseIdx small).length
    omega
  · intro x hx
    exact hP x (List.mem_of_mem_eraseIdx hx)
  · change cost ((items.eraseIdx small).length - small) < cost (items.length - small - 1) + 1
    rw [hlen, Nat.sub_right_comm]
    exact Nat.lt_succ_self _

theorem advances_erase (hP : ∀ x ∈ items, P x) (hlt : small < large) (hlen : large < items.length) :
    Advances b P ⟨items, small, large, .erase⟩ := by
  have hsmall : small < items.length := Nat.lt_trans hlt hlen
  have hlen' := List.length_eraseIdx_of_lt hsmall
  refine ⟨⟨items.eraseIdx small, small, large, .back⟩, if_pos hsmall, ⟨?_, ?_⟩, ?_⟩
  · change small < large ∧ large ≤ (items.eraseIdx small).length
    omega
  · intro x hx
    exact hP x (List.mem_of_mem_eraseIdx hx)
  · change cost ((items.eraseIdx small).length - small - 1) + 3 * (large - small) <
      cost (items.length - small - 2) + 3 * (large - small) + 1
    rw [hlen', Nat.sub_right_comm items.length 1 small]
    exact Nat.lt_succ_self _

theorem advances_back (hP : ∀ x ∈ items, P x) (hlt : small < large) (hlen : large ≤ items.length) :
    Advances b P ⟨items, small, large, .back⟩ := by
  have hpos : 0 < large := Nat.zero_lt_of_lt hlt
  refine ⟨⟨items, small, large - 1, .inner⟩, if_pos hpos, ⟨?_, hP⟩, ?_⟩
  · change small ≤ large - 1 ∧ large - 1 < items.length
    omega
  · change cost (items.length - small - 1) + 3 * (large - 1 - small) + 2 <
      cost (items.length - small - 1) + 3 * (large - small)
    omega

theorem advances_next (hP : ∀ x ∈ items, P x) (hlt : small < items.length) :
    Advances b P ⟨items, small, large, .next⟩ := by
  refine ⟨⟨items, small + 1, large, .outer⟩, if_pos hlt, ⟨Nat.succ_le_of_lt hlt, hP⟩, ?_⟩
  change cost (items.length - (small + 1)) < cost (items.length - small - 1) + 1
  rw [Nat.sub_add_eq]
  exact Nat.lt_succ_self _

end

/-- **What one step keeps and lowers**, whatever the body decides. -/
theorem Body.Total.variant {b : Body α} {P : α → Prop} (hb : b.Total P) :
    Variant (step b) (fun w => w.Bounded ∧ ∀ x ∈ w.items, P x) (fun w => w.point = .done)
      State.todo where
  halt := by
    rintro ⟨items, small, large, point⟩ rfl
    rfl
  next := by
    rintro ⟨items, small, large, point⟩ ⟨hw, hP⟩ hdone
    cases point with
    | outer => exact advances_outer hP hw
    | inner => exact advances_inner hP hw.1 hw.2
    | judge => exact advances_judge hb hP hw.1 hw.2
    | drop => exact advances_drop hP (Nat.lt_trans hw.1 hw.2)
    | merge => exact advances_merge hb hP hw.1 hw.2
    | erase => exact advances_erase hP hw.1 hw.2
    | back => exact advances_back hP hw.1 hw.2
    | next => exact advances_next hP hw
    | done => exact absurd rfl hdone

section

variable {b : Body α} {P : α → Prop} {items : List α}

theorem bounded_start (hP : ∀ x ∈ items, P x) :
    (start items).Bounded ∧ ∀ x ∈ (start items).items, P x := ⟨Nat.zero_le _, hP⟩

/-- **The loops end**, whatever the body decides. -/
theorem ends (hb : b.Total P) (hP : ∀ x ∈ items, P x) :
    ∃ n ≤ cost items.length, ∃ w, run (step b) n (start items) = some w ∧ w.point = .done :=
  hb.variant.ends (bounded_start hP)

/-- **Every state of a run is in bounds**, and has a next step before the end. -/
theorem run_in_bounds (hb : b.Total P) (hP : ∀ x ∈ items, P x) {n : Nat} {w : State α}
    (h : run (step b) n (start items) = some w) :
    w.small ≤ w.items.length ∧
      (w.point.Dereferences → w.small < w.large ∧ w.large < w.items.length) ∧
      (w.point = .done ∨ ∃ w', step b w = some w') := by
  have hw := Machine.run_invariant (fun _ _ => hb.variant.keeps) h (bounded_start hP)
  refine ⟨hw.1.small_le, hw.1.of_dereferences, ?_⟩
  by_cases hdone : w.point = .done
  · exact Or.inl hdone
  · obtain ⟨w', hstep, -⟩ := hb.variant.next w hw hdone
    exact Or.inr ⟨w', hstep⟩

end

/-! ## The loops as functions -/

/-- `inner` and `outer` compute the loops from their tests on: `inner` until it is
left, with a flag for `goto here`, and `outer` for at most so many rounds. -/
structure Computes (b : Body α) (inner : Nat → List α → Nat → Option (List α × Bool))
    (outer : Nat → List α → Nat → Option (List α)) : Prop where
  meet : ∀ items small, inner small items small = some (items, false)
  body : ∀ items small large s l v, small < large + 1 → items[small]? = some s →
    items[large + 1]? = some l → b.judge s l = some v →
    inner small items (large + 1) = match v with
      | .drop => some (items.eraseIdx small, true)
      | .merge => inner small ((items.set (large + 1) (b.merge l s)).eraseIdx small) large
      | .keep => inner small items large
  zero : ∀ items small, outer 0 items small = none
  done : ∀ rounds items, outer (rounds + 1) items items.length = some items
  round : ∀ rounds items small, small ≠ items.length →
    outer (rounds + 1) items small = (inner small items (items.length - 1)).bind fun r =>
      outer rounds r.1 (if r.2 then small else small + 1)

section

variable {b : Body α} {items : List α} {small large : Nat} {s l : α}

theorem run_meet (h : small < items.length) :
    run (step b) 2 ⟨items, small, small, .inner⟩ = some ⟨items, small + 1, small, .outer⟩ := by
  have hinner : step b ⟨items, small, small, .inner⟩ = some ⟨items, small, small, .next⟩ := by
    rw [step, if_neg (Nat.lt_irrefl small)]
  have hnext : step b ⟨items, small, small, .next⟩ = some ⟨items, small + 1, small, .outer⟩ :=
    if_pos h
  exact run_trans (run_one hinner) (run_one hnext)

theorem run_judge {v : Verdict} (hlt : small < large) (hs : items[small]? = some s)
    (hl : items[large]? = some l) (hv : b.judge s l = some v) :
    run (step b) 2 ⟨items, small, large, .inner⟩ = some ⟨items, small, large, v.point⟩ :=
  run_trans (run_one (step_inner hlt)) (run_one (step_judge hs hl hv))

theorem run_drop (h : small < items.length) :
    run (step b) 1 ⟨items, small, large, .drop⟩ =
      some ⟨items.eraseIdx small, small, large, .outer⟩ := run_one (if_pos h)

theorem run_back :
    run (step b) 1 ⟨items, small, large + 1, .back⟩ = some ⟨items, small, large, .inner⟩ :=
  run_one step_back

theorem run_merge (hs : items[small]? = some s) (hl : items[large + 1]? = some l) :
    run (step b) 3 ⟨items, small, large + 1, .merge⟩ =
      some ⟨(items.set (large + 1) (b.merge l s)).eraseIdx small, small, large, .inner⟩ := by
  obtain ⟨hlt, -⟩ := List.getElem?_eq_some_iff.mp hs
  have hlt' : small < (items.set (large + 1) (b.merge l s)).length := by
    rw [List.length_set]
    exact hlt
  exact run_trans (run_one (step_merge hs hl)) (run_trans (run_one (if_pos hlt')) run_back)

end

section

variable {b : Body α} {P : α → Prop} {inner : Nat → List α → Nat → Option (List α × Bool)}
  {outer : Nat → List α → Nat → Option (List α)}

/-- **One pass of the inner loop.** -/
theorem Computes.run_inner (hc : Computes b inner outer) (hb : b.Total P) {small : Nat} :
    ∀ (large : Nat) (items : List α), (∀ x ∈ items, P x) → small ≤ large → large < items.length →
    ∃ items' here, inner small items large = some (items', here) ∧
      ∃ n large', run (step b) n ⟨items, small, large, .inner⟩ =
        some ⟨items', if here then small else small + 1, large', .outer⟩ := by
  intro large
  induction large with
  | zero =>
    intro items hP hle hlen
    obtain rfl : small = 0 := Nat.le_zero.mp hle
    exact ⟨items, false, hc.meet items 0, 2, 0, run_meet hlen⟩
  | succ large ih =>
    intro items hP hle hlen
    obtain rfl | hlt := Nat.eq_or_lt_of_le hle
    · exact ⟨items, false, hc.meet items _, 2, _, run_meet hlen⟩
    obtain ⟨s, l, hs, hl, hPs, hPl⟩ := exists_pair hP hlt hlen
    obtain ⟨v, hv⟩ := hb.judge s l hPs hPl
    have hbody := hc.body items small large s l v hlt hs hl hv
    have hjudge := run_judge hlt hs hl hv
    have hsmall : small < items.length := Nat.lt_trans hlt hlen
    cases v with
    | drop =>
      exact ⟨items.eraseIdx small, true, hbody, 3, _, run_trans hjudge (run_drop hsmall)⟩
    | merge =>
      have hlen' : ((items.set (large + 1) (b.merge l s)).eraseIdx small).length =
          items.length - 1 := by
        rw [List.length_eraseIdx_of_lt (by rwa [List.length_set]), List.length_set]
      obtain ⟨items', here, hinner, n, large', hrun⟩ :=
        ih ((items.set (large + 1) (b.merge l s)).eraseIdx small)
          (fun x hx => forall_set hP (hb.merge s l hPs hPl) x (List.mem_of_mem_eraseIdx hx))
          (Nat.le_of_lt_succ hlt) (by omega)
      exact ⟨items', here, hbody.trans hinner, _, large',
        run_trans hjudge (run_trans (run_merge hs hl) hrun)⟩
    | keep =>
      obtain ⟨items', here, hinner, n, large', hrun⟩ := ih items hP (Nat.le_of_lt_succ hlt)
        (Nat.lt_of_succ_lt hlen)
      exact ⟨items', here, hbody.trans hinner, _, large',
        run_trans hjudge (run_trans run_back hrun)⟩

/-- **The outer loop**, from any of its rounds on. -/
theorem Computes.run_outer (hc : Computes b inner outer) (hb : b.Total P) :
    ∀ (rounds : Nat) (items result : List α) (small large : Nat), (∀ x ∈ items, P x) →
    small ≤ items.length → outer rounds items small = some result →
    ∃ n w, run (step b) n ⟨items, small, large, .outer⟩ = some w ∧ w.point = .done ∧
      w.items = result := by
  intro rounds
  induction rounds with
  | zero =>
    intro items result small large hP hle h
    rw [hc.zero] at h
    cases h
  | succ rounds ih =>
    intro items result small large hP hle h
    obtain rfl | hlt := Nat.eq_or_lt_of_le hle
    · rw [hc.done, Option.some.injEq] at h
      have hstep : step b ⟨items, items.length, large, .outer⟩ =
          some ⟨items, items.length, large, .done⟩ := if_pos rfl
      exact ⟨1, _, run_one hstep, rfl, h⟩
    · have hne : small ≠ items.length := Nat.ne_of_lt hlt
      have hpos : 0 < items.length := Nat.zero_lt_of_lt hlt
      have hstep : step b ⟨items, small, large, .outer⟩ =
          some ⟨items, small, items.length - 1, .inner⟩ := (if_neg hne).trans (if_pos hpos)
      obtain ⟨items', here, hinner, n, large', hrun⟩ :=
        hc.run_inner hb (items.length - 1) items hP (Nat.le_sub_one_of_lt hlt)
          (Nat.sub_one_lt_of_lt hpos)
      rw [hc.round _ _ _ hne, hinner] at h
      -- the pass has stayed in bounds
      have hpass := run_trans (run_one hstep) hrun
      obtain ⟨hbounded, hP'⟩ :=
        Machine.run_invariant (fun _ _ => hb.variant.keeps) hpass ⟨hle, hP⟩
      obtain ⟨m, w, hrun', hdone, hitems⟩ := ih items' result _ large' hP' hbounded h
      exact ⟨_, w, run_trans hpass hrun', hdone, hitems⟩

/-- **The program ends with what the functions compute.** -/
theorem Computes.ends (hc : Computes b inner outer) (hb : b.Total P) {items result : List α}
    (hP : ∀ x ∈ items, P x) {rounds : Nat} (h : outer rounds items 0 = some result) :
    ∃ n ≤ cost items.length, ∃ w, run (step b) n (start items) = some w ∧ w.point = .done ∧
      w.items = result := by
  obtain ⟨n, hn, w, hrun, hdone⟩ := PairLoop.ends hb hP
  obtain ⟨m, w', hrun', hdone', hitems⟩ :=
    hc.run_outer hb rounds items result 0 0 hP (Nat.zero_le _) h
  have hw : w = w' :=
    Machine.run_halt_unique hrun (hb.variant.halt w hdone) hrun' (hb.variant.halt w' hdone')
  exact ⟨n, hn, w, hrun, hdone, hw ▸ hitems⟩

end

end SecMon.PairLoop
