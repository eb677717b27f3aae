import Mathlib.Order.Bounds.Basic
import Mathlib.Order.Lattice

/-!
# Grouping a list under joins

`Grouping xs ys`: the positions of `xs` fall into non-empty groups, one for each
position of `ys`, and the value there is the join of its group.  No value of
`xs` is lost (`le_get`), and nothing is added: what bounds `xs` bounds `ys`
(`bounds`).

Groupings compose (`trans`).  `absorb xs i j` is the step that merges two values
of a list: the one at `j` becomes the join of both, the one at `i` goes.  It
groups (`ofAbsorb`): `i` and `j` fall together, every other position stays alone.
-/

namespace SecMon

variable {α : Type*}

/-- **A partition of the positions of `xs`** into the groups that `ys` joins. -/
structure Grouping [Preorder α] (xs ys : List α) where
  /-- The group of each position. -/
  group : Fin xs.length → Fin ys.length
  onto : Function.Surjective group
  join : ∀ k, IsLUB {x | ∃ i, group i = k ∧ xs.get i = x} (ys.get k)

namespace Grouping

section Preorder

variable [Preorder α] {xs ys zs : List α}

theorem le_get (g : Grouping xs ys) (i : Fin xs.length) : xs.get i ≤ ys.get (g.group i) :=
  (g.join (g.group i)).1 ⟨i, rfl, rfl⟩

theorem get_le (g : Grouping xs ys) {k : Fin ys.length} {b : α}
    (h : ∀ i, g.group i = k → xs.get i ≤ b) : ys.get k ≤ b := by
  apply (g.join k).2
  rintro x ⟨i, hi, rfl⟩
  exact h i hi

theorem covers (g : Grouping xs ys) {x : α} (hx : x ∈ xs) : ∃ y ∈ ys, x ≤ y := by
  obtain ⟨i, rfl⟩ := List.get_of_mem hx
  exact ⟨ys.get (g.group i), List.get_mem ys (g.group i), g.le_get i⟩

theorem exists_le (g : Grouping xs ys) {y : α} (hy : y ∈ ys) : ∃ x ∈ xs, x ≤ y := by
  obtain ⟨k, rfl⟩ := List.get_of_mem hy
  obtain ⟨i, rfl⟩ := g.onto k
  exact ⟨xs.get i, List.get_mem xs i, g.le_get i⟩

theorem bounds (g : Grouping xs ys) {b : α} (h : ∀ x ∈ xs, x ≤ b) : ∀ y ∈ ys, y ≤ b := by
  intro y hy
  obtain ⟨k, rfl⟩ := List.get_of_mem hy
  exact g.get_le fun i _ => h _ (List.get_mem xs i)

/-- Every position is a group of its own. -/
def refl (xs : List α) : Grouping xs xs where
  group := id
  onto := Function.surjective_id
  join := by
    intro k
    refine ⟨?_, fun b hb => hb ⟨k, rfl, rfl⟩⟩
    rintro x ⟨i, rfl, rfl⟩
    exact le_refl _

/-- A join of joins is a join. -/
def trans (g : Grouping xs ys) (h : Grouping ys zs) : Grouping xs zs where
  group := h.group ∘ g.group
  onto := h.onto.comp g.onto
  join := by
    intro k
    refine ⟨?_, fun b hb => ?_⟩
    · rintro x ⟨i, rfl, rfl⟩
      exact (g.le_get i).trans (h.le_get (g.group i))
    · apply h.get_le
      intro j hj
      apply g.get_le
      intro i hi
      apply hb
      exact ⟨i, by rw [Function.comp_apply, hi, hj], rfl⟩

/-- One more position, alone. -/
def cons (x : α) (g : Grouping xs ys) : Grouping (x :: xs) (x :: ys) where
  group := Fin.cases ⟨0, Nat.succ_pos _⟩ fun i => (g.group i).succ
  onto := by
    intro k
    cases k using Fin.cases with
    | zero => exact ⟨0, rfl⟩
    | succ k =>
      obtain ⟨i, hi⟩ := g.onto k
      exact ⟨i.succ, congrArg Fin.succ hi⟩
  join := by
    intro k
    cases k using Fin.cases with
    | zero =>
      refine ⟨?_, fun b hb => hb ⟨0, rfl, rfl⟩⟩
      rintro y ⟨i, hi, rfl⟩
      cases i using Fin.cases with
      | zero => exact le_refl _
      | succ i => exact absurd hi (Fin.succ_ne_zero _)
    | succ k =>
      refine ⟨?_, fun b hb => g.get_le fun i hi => hb ⟨i.succ, congrArg Fin.succ hi, rfl⟩⟩
      rintro y ⟨i, hi, rfl⟩
      cases i using Fin.cases with
      | zero => exact absurd hi.symm (Fin.succ_ne_zero _)
      | succ i => exact (g.join k).1 ⟨i, Fin.succ_inj.mp hi, rfl⟩

end Preorder

/-! ## Absorbing -/

section Lattice

variable [SemilatticeSup α]

/-- The value at `j` takes in the one at `i`, which goes. -/
def absorb (xs : List α) (i j : Nat) (a b : α) : List α := (xs.set j (b ⊔ a)).eraseIdx i

/-- Where the position `p` is found after that. -/
def landing (i j p : Nat) : Nat := if p = i then j - 1 else if p < i then p else p - 1

/-- The other way round: the position that `k` held before. -/
def source (i k : Nat) : Nat := if k < i then k else k + 1

theorem landing_source (i j k : Nat) : landing i j (source i k) = k := by
  rw [landing, source]
  split_ifs <;> omega

theorem landing_eq {i j : Nat} (hij : i < j) : landing i j i = landing i j j := by
  rw [landing, landing, if_pos rfl, if_neg (by omega), if_neg (by omega)]

theorem source_landing {i j p : Nat} (hi : p ≠ i) : source i (landing i j p) = p := by
  rw [landing, source, if_neg hi]
  split_ifs <;> omega

variable {xs : List α} {i j : Nat} {a b : α}

theorem length_absorb (hij : i < j) (hj : j < xs.length) :
    (absorb xs i j a b).length = xs.length - 1 := by
  rw [absorb, List.length_eraseIdx_of_lt (by rw [List.length_set]; omega), List.length_set]

theorem landing_lt (hij : i < j) (hj : j < xs.length) {p : Nat} (hp : p < xs.length) :
    landing i j p < (absorb xs i j a b).length := by
  rw [length_absorb hij hj, landing]
  split_ifs <;> omega

theorem source_lt (hij : i < j) (hj : j < xs.length) {k : Nat}
    (hk : k < (absorb xs i j a b).length) : source i k < xs.length := by
  rw [length_absorb hij hj] at hk
  rw [source]
  split_ifs <;> omega

theorem getElem?_absorb (hj : j < xs.length) (k : Nat) :
    (absorb xs i j a b)[k]? = if source i k = j then some (b ⊔ a) else xs[source i k]? := by
  rw [absorb, List.getElem?_eraseIdx, ← apply_ite (fun n => (xs.set j (b ⊔ a))[n]?)]
  change (xs.set j (b ⊔ a))[source i k]? = _
  rw [List.getElem?_set, if_pos hj]
  simp only [eq_comm]

/-- The value found at `k` is the one that was there, or the join. -/
theorem get_absorb (hij : i < j) (hj : j < xs.length) (k : Fin (absorb xs i j a b).length) :
    (absorb xs i j a b).get k =
      if source i k = j then b ⊔ a else xs.get ⟨source i k, source_lt hij hj k.2⟩ := by
  have h := getElem?_absorb (a := a) (b := b) (i := i) hj k
  rw [List.getElem?_eq_getElem k.2, List.getElem?_eq_getElem (source_lt hij hj k.2)] at h
  rw [← apply_ite some, Option.some_inj] at h
  exact h

/-- **The step groups**: the two positions fall together, every other one stays
by itself. -/
def ofAbsorb (hij : i < j) (hi : xs[i]? = some a) (hj : xs[j]? = some b) :
    Grouping xs (absorb xs i j a b) where
  group p := ⟨landing i j p, landing_lt hij (List.getElem?_eq_some_iff.mp hj).1 p.2⟩
  onto := by
    intro k
    have hlt := (List.getElem?_eq_some_iff.mp hj).1
    exact ⟨⟨source i k, source_lt hij hlt k.2⟩, Fin.ext (landing_source i j k)⟩
  join := by
    intro k
    obtain ⟨hi', hxi⟩ := List.getElem?_eq_some_iff.mp hi
    obtain ⟨hj', hxj⟩ := List.getElem?_eq_some_iff.mp hj
    refine ⟨?_, fun c hc => ?_⟩
    · rintro x ⟨⟨p, hlt⟩, rfl, rfl⟩
      rw [get_absorb hij hj', List.get_eq_getElem]
      by_cases hp : p = i
      · subst hp
        have hs : source p (landing p j p) = j := by
          rw [landing_eq hij, source_landing (by omega)]
        rw [if_pos hs, hxi]
        exact le_sup_right
      · simp only [source_landing hp]
        split_ifs with h
        · subst h
          rw [hxj]
          exact le_sup_left
        · exact le_refl _
    · rw [get_absorb hij hj']
      split_ifs with h
      · have hk : landing i j j = k := (congrArg (landing i j) h.symm).trans (landing_source i j k)
        apply sup_le
        · apply hc
          exact ⟨⟨j, hj'⟩, Fin.ext hk, hxj⟩
        · apply hc
          exact ⟨⟨i, hi'⟩, Fin.ext ((landing_eq hij).trans hk), hxi⟩
      · apply hc
        exact ⟨⟨source i k, source_lt hij hj' k.2⟩, Fin.ext (landing_source i j k), rfl⟩

end Lattice

end Grouping

end SecMon
