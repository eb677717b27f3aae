import Mathlib.Data.List.Infix

/-!
# Machines that answer every input

A `Mealy` machine reads inputs one after the other and answers each with an
output, which depends on the input and on what it keeps of those before.
`outputs` are its answers to a list of inputs, `cascade` feeds the answers of
one machine to the next.  Answers are never taken back: a longer list of inputs
has the answers to a shorter one as its beginning (`outputs_mono`).
-/

namespace SecMon

structure Mealy (α : Type) where
  State : Type
  start : State
  step : State → α → State × α

namespace Mealy

variable {α : Type} {m : Mealy α}

def outputsFrom (m : Mealy α) : m.State → List α → List α
  | _, [] => []
  | s, x :: xs => (m.step s x).2 :: outputsFrom m (m.step s x).1 xs

/-- The answers to a list of inputs. -/
def outputs (m : Mealy α) (xs : List α) : List α := m.outputsFrom m.start xs

/-- What the machine keeps of a list of inputs. -/
def stateAfter (m : Mealy α) (xs : List α) : m.State :=
  xs.foldl (fun s x => (m.step s x).1) m.start

/-- The answer to `x` after the inputs `xs`. -/
def output (m : Mealy α) (xs : List α) (x : α) : α := (m.step (m.stateAfter xs) x).2

theorem outputsFrom_append (s : m.State) (xs ys : List α) :
    m.outputsFrom s (xs ++ ys) =
      m.outputsFrom s xs ++ m.outputsFrom (xs.foldl (fun s x => (m.step s x).1) s) ys := by
  induction xs generalizing s with
  | nil => rfl
  | cons x xs ih =>
    rw [List.cons_append, outputsFrom, outputsFrom, ih, List.cons_append, List.foldl_cons]

theorem outputs_concat (xs : List α) (x : α) :
    m.outputs (xs ++ [x]) = m.outputs xs ++ [m.output xs x] :=
  outputsFrom_append m.start xs [x]

theorem length_outputsFrom (s : m.State) (xs : List α) :
    (m.outputsFrom s xs).length = xs.length := by
  induction xs generalizing s with
  | nil => rfl
  | cons x xs ih => rw [outputsFrom, List.length_cons, List.length_cons, ih]

@[simp] theorem length_outputs (xs : List α) : (m.outputs xs).length = xs.length :=
  length_outputsFrom m.start xs

theorem outputs_mono {xs ys : List α} (h : xs <+: ys) : m.outputs xs <+: m.outputs ys := by
  obtain ⟨zs, rfl⟩ := h
  rw [outputs, outputs, outputsFrom_append]
  exact List.prefix_append _ _

/-- **A machine whose states are known.**  If it is in `σ n` before input `x n`
and answers `y n`, its answers are the `y`. -/
theorem outputs_range {σ : Nat → m.State} {x y : Nat → α} (hstart : m.start = σ 0)
    (hstep : ∀ n, m.step (σ n) (x n) = (σ (n + 1), y n)) (n : Nat) :
    m.outputs ((List.range n).map x) = (List.range n).map y := by
  have hstate : ∀ n, m.stateAfter ((List.range n).map x) = σ n := by
    intro n
    induction n with
    | zero => exact hstart
    | succ n ih =>
      rw [stateAfter] at ih
      rw [List.range_succ, List.map_append, stateAfter, List.foldl_append, ih]
      exact congrArg Prod.fst (hstep n)
  induction n with
  | zero => rfl
  | succ n ih =>
    rw [List.range_succ, List.map_append, List.map_append, ← ih]
    refine (outputs_concat _ _).trans ?_
    rw [output, hstate, hstep]
    rfl

/-- The machines one after the other. -/
def cascade (ms : List (Mealy α)) (xs : List α) : List α := ms.foldl (fun xs m => m.outputs xs) xs

theorem cascade_concat (ms : List (Mealy α)) (m : Mealy α) (xs : List α) :
    cascade (ms ++ [m]) xs = m.outputs (cascade ms xs) := by
  rw [cascade, List.foldl_append]
  rfl

@[simp] theorem length_cascade (ms : List (Mealy α)) (xs : List α) :
    (cascade ms xs).length = xs.length := by
  induction ms generalizing xs with
  | nil => rfl
  | cons m ms ih => exact (ih (m.outputs xs)).trans (length_outputs xs)

end Mealy

end SecMon
