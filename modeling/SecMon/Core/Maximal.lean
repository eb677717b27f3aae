import Mathlib.Data.List.Nodup
import Mathlib.Data.List.Pairwise
import Mathlib.Order.Basic

/-!
# The elements of a list below no later one

`maximals xs` keeps the elements of `xs` that lie below none behind them.  As
the order is transitive, it does not matter whether an element is compared with
those that are left or with all (`exists_maximals_iff`).

* `maximals_eq`: the positions that are kept.
* `exists_maximals_of_mem`: nothing is lost, each element lies below one that is left.
* `pairwise_maximals`, `count_maximals`: where nothing lies strictly above a
  later element, no two that are left are comparable, and of equal ones one is
  left, unless something lies strictly above them.
-/

namespace SecMon

variable {α : Type*}

section Preorder

variable [Preorder α] [DecidableLE α] {a : α} {xs : List α}

/-- **The elements that lie below no later one.** -/
def maximals (xs : List α) : List α := xs.pwFilter fun a b => ¬a ≤ b

theorem maximals_sublist (xs : List α) : (maximals xs).Sublist xs := List.pwFilter_sublist xs

/-- To lie below one that is left is to lie below one at all. -/
theorem exists_maximals_iff : (∃ b ∈ maximals xs, a ≤ b) ↔ ∃ b ∈ xs, a ≤ b := by
  have htrans : ∀ {x y z : α}, ¬x ≤ z → ¬x ≤ y ∨ ¬y ≤ z := by
    intro x y z hxz
    by_cases hxy : x ≤ y
    · exact Or.inr fun hyz => hxz (hxy.trans hyz)
    · exact Or.inl hxy
  have h : (∀ b ∈ maximals xs, ¬a ≤ b) ↔ ∀ b ∈ xs, ¬a ≤ b :=
    List.forall_mem_pwFilter (R := fun a b => ¬a ≤ b) htrans a xs
  simpa only [not_forall, not_not, exists_prop] using not_congr h

theorem maximals_cons_of_le (h : ∃ b ∈ xs, a ≤ b) : maximals (a :: xs) = maximals xs := by
  obtain ⟨b, hb, hab⟩ := exists_maximals_iff.mpr h
  exact List.pwFilter_cons_of_neg fun hall => hall b hb hab

theorem maximals_cons_of_not_le (h : ∀ b ∈ xs, ¬a ≤ b) :
    maximals (a :: xs) = a :: maximals xs :=
  List.pwFilter_cons_of_pos fun b hb => h b ((maximals_sublist xs).subset hb)

/-- **Nothing is lost.** -/
theorem exists_maximals_of_mem (h : a ∈ xs) : ∃ b ∈ maximals xs, a ≤ b :=
  exists_maximals_iff.mpr ⟨a, h, le_refl a⟩

/-- **What is kept**, position by position. -/
theorem maximals_eq (xs : List α) :
    maximals xs =
      (xs.zipIdx.filter fun p : α × Nat => !(xs.drop (p.2 + 1)).any (p.1 ≤ ·)).map Prod.fst := by
  induction xs with
  | nil => rfl
  | cons a xs ih =>
    -- behind the head every position is one further
    have htail : ((xs.zipIdx 1).filter fun p : α × Nat =>
        !((a :: xs).drop (p.2 + 1)).any (p.1 ≤ ·)).map Prod.fst = maximals xs := by
      rw [ih, List.zipIdx_succ, List.filter_map, List.map_map]
      rfl
    rw [List.zipIdx_cons]
    by_cases h : ∃ b ∈ xs, a ≤ b
    · rw [maximals_cons_of_le h, List.filter_cons_of_neg, htail]
      simpa using h
    · have hall : ∀ b ∈ xs, ¬a ≤ b := fun b hb hab => h ⟨b, hb, hab⟩
      rw [maximals_cons_of_not_le hall, List.filter_cons_of_pos, List.map_cons, htail]
      simpa using hall

end Preorder

section PartialOrder

variable [PartialOrder α] [DecidableLE α] {a : α} {xs : List α}

/-- **No two that are left are comparable.** -/
theorem pairwise_maximals (h : xs.Pairwise fun a b => b ≤ a → a ≤ b) :
    (maximals xs).Pairwise fun a b => ¬a ≤ b ∧ ¬b ≤ a := by
  have hleft : (maximals xs).Pairwise fun a b => ¬a ≤ b := List.pairwise_pwFilter xs
  apply (hleft.and (h.sublist (maximals_sublist xs))).imp
  rintro a b ⟨hab, himp⟩
  exact ⟨hab, fun hba => hab (himp hba)⟩

/-- **Of equal elements one is left**, unless something lies strictly above them. -/
theorem count_maximals [DecidableEq α] (h : xs.Pairwise fun a b => b ≤ a → a ≤ b)
    (ha : a ∈ xs) : (maximals xs).count a = if ∃ b ∈ xs, b ≠ a ∧ a ≤ b then 0 else 1 := by
  have hpw := pairwise_maximals h
  split_ifs with hex
  · obtain ⟨b, hb, hne, hab⟩ := hex
    obtain ⟨c, hc, hbc⟩ := exists_maximals_of_mem hb
    rw [List.count_eq_zero]
    intro hmem
    -- `a` and `c` are both left, and comparable
    have hac : a ≠ c := by
      rintro rfl
      exact hne (le_antisymm hbc hab)
    have hsymm : Std.Symm fun a b : α => ¬a ≤ b ∧ ¬b ≤ a := ⟨fun _ _ => And.symm⟩
    exact (hpw.forall hmem hc hac).1 (hab.trans hbc)
  · have hnodup : (maximals xs).Nodup := hpw.imp fun hab heq => hab.1 heq.le
    obtain ⟨b, hb, hab⟩ := exists_maximals_of_mem ha
    have heq : b = a := by
      by_contra hne
      exact hex ⟨b, (maximals_sublist xs).subset hb, hne, hab⟩
    exact List.count_eq_one_of_mem hnodup (heq ▸ hb)

end PartialOrder

end SecMon
