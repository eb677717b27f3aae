import Mathlib.Data.List.Basic

/-!
# Readers

A reader takes a value from the front of a text and gives back what it leaves.
`Reads p w x` says that `p` reads `x` off the text `w` whatever follows it:
the reader is an inverse of whoever wrote `w`, and knows by itself where `w`
ends.  Such facts compose (`Reads.bind`), so a format is read back as soon as
each of its pieces is.

* `literal`, `exactly`, `upTo`: a given text, a number of symbols, everything
  before a separator.
* `block`: lines, up to an empty one.
* `all`: one reader over and over, until nothing is left (`all_flatMap`).
-/

namespace SecMon.Reading

/-- `none` is failure. -/
abbrev Reader (α β : Type) := StateT (List α) Option β

variable {α β γ : Type}

/-- `p` reads `x` where `w` is written. -/
def Reads (p : Reader α β) (w : List α) (x : β) : Prop :=
  ∀ rest, p.run (w ++ rest) = some (x, rest)

theorem Reads.pure (x : β) : Reads (Pure.pure x : Reader α β) [] x := fun _ => rfl

theorem Reads.bind {p : Reader α β} {f : β → Reader α γ} {w v : List α} {x : β} {y : γ}
    (h : Reads p w x) (g : Reads (f x) v y) : Reads (p >>= f) (w ++ v) y := by
  intro rest
  rw [StateT.run_bind, List.append_assoc, h (v ++ rest)]
  exact g rest

theorem Reads.map {p : Reader α β} {w : List α} {x : β} (h : Reads p w x) (f : β → γ) :
    Reads (p >>= fun y => Pure.pure (f y)) w (f x) := by
  intro rest
  rw [StateT.run_bind, h rest]
  rfl

/-- A reader that reads nothing. -/
def lift (x : Option β) : Reader α β := fun s => x.map (·, s)

theorem reads_lift {x : Option β} {y : β} (h : x = some y) : Reads (lift (α := α) x) [] y := by
  subst h
  exact fun _ => rfl

/-- A list of `n` symbols. -/
def exactly (n : Nat) : Reader α (List α) := fun s =>
  if n ≤ s.length then some (s.take n, s.drop n) else none

theorem reads_exactly {n : Nat} {w : List α} (h : w.length = n) : Reads (exactly n) w w := by
  subst h
  intro rest
  show exactly w.length (w ++ rest) = _
  rw [exactly, if_pos (by rw [List.length_append]; omega), List.take_left, List.drop_left]

/-- One reader again and again until the text is used up. -/
def allLoop (p : Reader α β) : Nat → List α → Option (List β)
  | _, [] => some []
  | 0, _ :: _ => none
  | fuel + 1, a :: s => do
    let (x, rest) ← p.run (a :: s)
    let xs ← allLoop p fuel rest
    return x :: xs

/-- The whole text, as a sequence of what `p` reads. -/
def all (p : Reader α β) (s : List α) : Option (List β) := allLoop p s.length s

/-- **A sequence is read back** if each of its members is. -/
theorem all_flatMap {p : Reader α β} {write : γ → List α} {f : γ → β} {xs : List γ}
    (hread : ∀ x ∈ xs, Reads p (write x) (f x)) (hne : ∀ x ∈ xs, write x ≠ []) :
    all p (xs.flatMap write) = some (xs.map f) := by
  have hloop : ∀ fuel, (xs.flatMap write).length ≤ fuel →
      allLoop p fuel (xs.flatMap write) = some (xs.map f) := by
    intro fuel hfuel
    induction xs generalizing fuel with
    | nil => rw [List.flatMap_nil, allLoop]; rfl
    | cons x xs ih =>
      have hx := hread x List.mem_cons_self (xs.flatMap write)
      obtain ⟨a, w, hw⟩ := List.exists_cons_of_ne_nil (hne x List.mem_cons_self)
      rw [List.flatMap_cons, hw, List.cons_append] at hfuel ⊢
      rw [hw, List.cons_append] at hx
      cases fuel with
      | zero => exact absurd hfuel (by simp)
      | succ fuel =>
        rw [List.length_cons, List.length_append] at hfuel
        rw [allLoop, hx]
        simp only [Option.bind_eq_bind, Option.bind_some]
        rw [ih (fun y hy => hread y (List.mem_cons_of_mem x hy))
          (fun y hy => hne y (List.mem_cons_of_mem x hy)) fuel (by omega)]
        rfl
  exact hloop _ (Nat.le_refl _)

variable [DecidableEq α]

/-- The text `w`. -/
def literal (w : List α) : Reader α Unit := fun s =>
  if w <+: s then some ((), s.drop w.length) else none

theorem reads_literal (w : List α) : Reads (literal w) w () := by
  intro rest
  show literal w (w ++ rest) = _
  rw [literal, if_pos (List.prefix_append w rest), List.drop_left]

/-- What precedes the first `sep`, which is read too. -/
def upTo (sep : List α) : Reader α (List α)
  | [] => if sep = [] then some ([], []) else none
  | a :: s =>
    if sep <+: a :: s then some ([], (a :: s).drop sep.length)
    else (upTo sep s).map fun r => (a :: r.1, r.2)

/-- A separator is found where its first symbol first occurs. -/
theorem reads_upTo {a : α} {sep w : List α} (h : a ∉ w) :
    Reads (upTo (a :: sep)) (w ++ a :: sep) w := by
  intro rest
  show upTo (a :: sep) (w ++ a :: sep ++ rest) = _
  induction w with
  | nil =>
    have hp : a :: sep <+: a :: (sep ++ rest) := List.prefix_append (a :: sep) rest
    rw [List.nil_append, List.cons_append, upTo, if_pos hp, List.length_cons,
      List.drop_succ_cons, List.drop_left]
  | cons b w ih =>
    have hb : ¬ a :: sep <+: b :: (w ++ a :: sep ++ rest) := by
      intro hp
      rw [List.cons_prefix_cons] at hp
      exact h (hp.1 ▸ List.mem_cons_self)
    rw [List.cons_append, List.cons_append, upTo, if_neg hb,
      ih fun hm => h (List.mem_cons_of_mem b hm)]
    rfl

/-- Lines up to an empty line, `fuel` at most. -/
def blockLoop (eol : List α) : Nat → Reader α (List (List α))
  | 0 => lift none
  | fuel + 1 => do
    let line ← upTo eol
    if line = [] then Pure.pure []
    else do
      let lines ← blockLoop eol fuel
      Pure.pure (line :: lines)

/-- Lines up to an empty line. -/
def block (eol : List α) : Reader α (List (List α)) := fun s => blockLoop eol (s.length + 1) s

theorem reads_blockLoop {a : α} {eol : List α} {lines : List (List α)} {fuel : Nat}
    (hlines : ∀ line ∈ lines, line ≠ [] ∧ a ∉ line) (hfuel : lines.length < fuel) :
    Reads (blockLoop (a :: eol) fuel) (lines.flatMap (· ++ a :: eol) ++ a :: eol) lines := by
  induction fuel generalizing lines with
  | zero => omega
  | succ fuel ih =>
    rw [blockLoop]
    cases lines with
    | nil =>
      have hend : Reads (upTo (a :: eol)) (a :: eol) [] := reads_upTo List.not_mem_nil
      have hnil := hend.bind (f := fun line => if line = [] then Pure.pure [] else do
        let lines ← blockLoop (a :: eol) fuel
        Pure.pure (line :: lines)) (Reads.pure [])
      rwa [List.append_nil] at hnil
    | cons line lines =>
      obtain ⟨hne, hnot⟩ := hlines line List.mem_cons_self
      rw [List.flatMap_cons, List.append_assoc]
      refine (reads_upTo hnot).bind ?_
      rw [if_neg hne]
      refine (ih (fun l hl => hlines l (List.mem_cons_of_mem line hl)) ?_).map (line :: ·)
      rw [List.length_cons] at hfuel
      omega

theorem reads_block {a : α} {eol : List α} {lines : List (List α)}
    (hlines : ∀ line ∈ lines, line ≠ [] ∧ a ∉ line) :
    Reads (block (a :: eol)) (lines.flatMap (· ++ a :: eol) ++ a :: eol) lines := by
  intro rest
  refine reads_blockLoop hlines ?_ rest
  -- every line is at least as long as its end
  have hle : lines.length ≤ (lines.flatMap (· ++ a :: eol)).length := by
    clear hlines
    induction lines with
    | nil => exact Nat.le_refl _
    | cons line lines ih =>
      rw [List.flatMap_cons, List.length_append, List.length_append, List.length_cons,
        List.length_cons]
      omega
  rw [List.length_append, List.length_append]
  omega

end SecMon.Reading
