import Mathlib.Data.List.Infix

/-!
# Lexical paths

A path is a text cut into components by a separator.  `resolve` reads the
components from left to right, with the directory reached so far on a stack:
an empty component and `dot` stay, `dotdot` goes up, any other goes down.
Going up from where the path began gives `none`.

A text that contains `dotdot` nowhere has no such component
(`infix_of_mem_splitOn`), so it never goes up at all (`resolve_isSome`).
-/

namespace SecMon.Path

variable {α : Type*}

/-- A text does not straddle the end of another that ends in a symbol foreign
to it. -/
theorem infix_append_of_getLast {p s t : List α} {x : α} (hs : s.getLast? = some x) (hx : x ∉ p)
    (h : p <:+: s ++ t) : p <:+: s ∨ p <:+: t := by
  rcases List.infix_append_iff_ne_nil.mp h with h | h | ⟨l, r, hl, -, rfl, hsuf, -⟩
  · exact .inl h
  · exact .inr h
  · obtain ⟨u, rfl⟩ := hsuf
    rw [List.getLast?_append_of_ne_nil u hl] at hs
    exact absurd (List.mem_append_left r (List.mem_of_getLast? hs)) hx

variable [DecidableEq α] {sep : α} {dot dotdot : List α}

/-- The directory that components lead to, or `none` where they lead above
the start. -/
def resolve (dot dotdot : List α) : List (List α) → List (List α) → Option (List (List α))
  | st, [] => some st
  | st, c :: cs =>
    if c = [] ∨ c = dot then resolve dot dotdot st cs
    else if c = dotdot then
      match st with
      | [] => none
      | _ :: st' => resolve dot dotdot st' cs
    else resolve dot dotdot (c :: st) cs

/-- Where a text leads. -/
def normalise (sep : α) (dot dotdot s : List α) : Option (List (List α)) :=
  resolve dot dotdot [] (s.splitOn sep)

/-- The first component of a text begins it, and each of them is part of it. -/
theorem splitOn_eq_cons (sep : α) (s : List α) : ∃ c cs, s.splitOn sep = c :: cs ∧ c <+: s ∧
    ∀ d ∈ cs, d <:+: s := by
  induction s with
  | nil => exact ⟨[], [], rfl, List.prefix_rfl, by simp⟩
  | cons x s ih =>
    obtain ⟨c, cs, hs, hc, hcs⟩ := ih
    unfold List.splitOn at hs ⊢
    rw [List.splitOnP_cons_eq_if_modifyHead]
    by_cases hx : (x == sep) = true
    · rw [if_pos hx, hs]
      refine ⟨[], c :: cs, rfl, List.nil_prefix, ?_⟩
      intro d hd
      rcases List.mem_cons.mp hd with rfl | hd
      · exact hc.isInfix.trans (List.suffix_cons x s).isInfix
      · exact (hcs d hd).trans (List.suffix_cons x s).isInfix
    · rw [if_neg hx, hs]
      refine ⟨x :: c, cs, rfl, ?_, ?_⟩
      · exact List.prefix_cons_inj x |>.mpr hc
      · intro d hd
        exact (hcs d hd).trans (List.suffix_cons x s).isInfix

theorem infix_of_mem_splitOn {s c : List α} (h : c ∈ s.splitOn sep) : c <:+: s := by
  obtain ⟨d, cs, hs, hd, hcs⟩ := splitOn_eq_cons sep s
  rw [hs] at h
  rcases List.mem_cons.mp h with rfl | h
  · exact hd.isInfix
  · exact hcs c h

theorem resolve_isSome {cs : List (List α)} (h : dotdot ∉ cs) (st : List (List α)) :
    (resolve dot dotdot st cs).isSome = true := by
  induction cs generalizing st with
  | nil => rfl
  | cons c cs ih =>
    have hc : c ≠ dotdot := fun he => h (he ▸ List.mem_cons_self)
    have hcs : dotdot ∉ cs := fun hm => h (List.mem_cons_of_mem c hm)
    unfold resolve
    by_cases hstay : c = [] ∨ c = dot
    · rw [if_pos hstay]
      exact ih hcs st
    · rw [if_neg hstay, if_neg hc]
      exact ih hcs (c :: st)

/-- **A text without `dotdot` stays below its start.** -/
theorem normalise_isSome {s : List α} (h : ¬ dotdot <:+: s) :
    (normalise sep dot dotdot s).isSome = true :=
  resolve_isSome (fun hm => h (infix_of_mem_splitOn hm)) []

end SecMon.Path
