import Mathlib.Data.List.Basic

/-!
# Runs of a step function

A machine is a partial step function `step : σ → α → Option σ`: an action is
either impossible in a state or leads to one next state.  Every choice that
the environment makes (which thread runs, what a timer does, what a call
returns) is part of the action, so a run is a list of actions.

* `exec` runs a list of actions; it computes.
* `Steps step ok s as t` says that `as` leads from `s` to `t` through steps
  that all meet the condition `ok`.  `steps_iff_exec_permit` ties the two
  together, `steps_iff_exec` when `ok` asks nothing.
* `Steps.invariant` is the induction over a run: what one step keeps, every
  run keeps.
* `Throughout step P s as` says that `P` holds in every state that `as` passes
  through.  Where one step keeps `P` exactly if it meets `ok`, a run does so
  throughout exactly if all of its steps do (`throughout_iff_steps`); whatever
  that takes to know of a state has to be kept only as long as `P` is.
* `run` runs a program, which is a machine that is left no choice, and
  `Variant.ends` is the rule for its termination.
-/

namespace SecMon.Machine

variable {σ α : Type*}

/-- Run a list of actions, if every one of them is possible in its turn. -/
def exec (step : σ → α → Option σ) : σ → List α → Option σ
  | s, [] => some s
  | s, a :: as => (step s a).bind fun t => exec step t as

/-- The condition that asks nothing of a step. -/
def anyStep : σ → α → Prop := fun _ _ => True

/-- `as` leads from `s` to `t`, and each of its steps meets `ok` in the state
it is taken from. -/
inductive Steps (step : σ → α → Option σ) (ok : σ → α → Prop) : σ → List α → σ → Prop
  | nil (s : σ) : Steps step ok s [] s
  | cons {s t u : σ} {a : α} {as : List α} (hok : ok s a) (hstep : step s a = some t)
      (rest : Steps step ok t as u) : Steps step ok s (a :: as) u

variable {step : σ → α → Option σ} {ok ok' : σ → α → Prop}

theorem Steps.single {s t : σ} {a : α} (hok : ok s a) (h : step s a = some t) :
    Steps step ok s [a] t := .cons hok h (.nil t)

theorem Steps.append {s t u : σ} {as bs : List α} (h : Steps step ok s as t)
    (g : Steps step ok t bs u) : Steps step ok s (as ++ bs) u := by
  induction h with
  | nil => exact g
  | cons hok hstep _ ih => exact .cons hok hstep (ih g)

theorem Steps.mono {s t : σ} {as : List α} (hw : ∀ s a, ok s a → ok' s a)
    (h : Steps step ok s as t) : Steps step ok' s as t := by
  induction h with
  | nil => exact .nil _
  | cons hok hstep _ ih => exact .cons (hw _ _ hok) hstep ih

/-- The machine that refuses the steps that `ok` forbids. -/
def permit (step : σ → α → Option σ) (ok : σ → α → Prop) [∀ s a, Decidable (ok s a)] :
    σ → α → Option σ := fun s a => if ok s a then step s a else none

theorem steps_iff_exec_permit [∀ s a, Decidable (ok s a)] {s t : σ} {as : List α} :
    Steps step ok s as t ↔ exec (permit step ok) s as = some t := by
  constructor
  · intro h
    induction h with
    | nil => rfl
    | cons hok hstep _ ih => rw [exec, permit, if_pos hok, hstep]; exact ih
  · induction as generalizing s with
    | nil =>
      intro h
      rw [exec, Option.some.injEq] at h
      subst h
      exact .nil s
    | cons a as ih =>
      intro h
      obtain ⟨u, hu, h⟩ := Option.bind_eq_some_iff.mp h
      obtain ⟨hok, hs⟩ := Option.ite_none_right_eq_some.mp hu
      exact .cons hok hs (ih h)

instance : ∀ (s : σ) (a : α), Decidable (anyStep s a) := fun _ _ => .isTrue trivial

theorem steps_iff_exec {s t : σ} {as : List α} :
    Steps step anyStep s as t ↔ exec step s as = some t := by
  have hp : permit step (anyStep (σ := σ) (α := α)) = step := by
    funext s a
    exact if_pos trivial
  rw [steps_iff_exec_permit, hp]

/-- **Invariants.**  A property that every permitted step keeps is kept by
every run. -/
theorem Steps.invariant {P : σ → Prop} {s t : σ} {as : List α} (h : Steps step ok s as t)
    (hkeep : ∀ s a s', P s → ok s a → step s a = some s' → P s') (h0 : P s) : P t := by
  induction h with
  | nil => exact h0
  | cons hok hstep _ ih => exact ih (hkeep _ _ _ h0 hok hstep)

/-- Conditions that agree wherever an invariant holds permit the same runs. -/
theorem Steps.congr {I : σ → Prop} (hkeep : ∀ s a s', I s → step s a = some s' → I s')
    (hiff : ∀ s a, I s → (ok s a ↔ ok' s a)) {s t : σ} {as : List α} (hI : I s) :
    Steps step ok s as t ↔ Steps step ok' s as t := by
  constructor
  · intro h
    induction h with
    | nil => exact .nil _
    | cons hok hstep _ ih => exact .cons ((hiff _ _ hI).mp hok) hstep (ih (hkeep _ _ _ hI hstep))
  · intro h
    induction h with
    | nil => exact .nil _
    | cons hok hstep _ ih => exact .cons ((hiff _ _ hI).mpr hok) hstep (ih (hkeep _ _ _ hI hstep))

/-- `P` holds in every state that a list of actions passes through. -/
def Throughout (step : σ → α → Option σ) (P : σ → Prop) : σ → List α → Prop
  | s, [] => P s
  | s, a :: as => P s ∧ ∀ t, step s a = some t → Throughout step P t as

theorem Throughout.head {P : σ → Prop} {s : σ} {as : List α} (h : Throughout step P s as) :
    P s := by
  cases as with
  | nil => exact h
  | cons a as => exact h.1

theorem Throughout.of_invariant {I P : σ → Prop}
    (hkeep : ∀ s a s', I s → step s a = some s' → I s') (hP : ∀ s, I s → P s) {s : σ}
    (hI : I s) (as : List α) : Throughout step P s as := by
  induction as generalizing s with
  | nil => exact hP s hI
  | cons a as ih => exact ⟨hP s hI, fun t ht => ih (hkeep s a t hI ht)⟩

theorem throughout_iff_steps {I P : σ → Prop} {s t : σ} {as : List α}
    (hkeep : ∀ s a s', I s → P s → P s' → step s a = some s' → I s')
    (hexact : ∀ s a s', I s → P s → step s a = some s' → (P s' ↔ ok s a))
    (hI : I s) (hP : P s) (h : exec step s as = some t) :
    Throughout step P s as ↔ Steps step ok s as t := by
  induction as generalizing s with
  | nil =>
    obtain rfl := Option.some.inj h
    exact ⟨fun _ => .nil s, fun _ => hP⟩
  | cons a as ih =>
    obtain ⟨u, hu, h⟩ := Option.bind_eq_some_iff.mp h
    have hu' := hexact s a u hI hP hu
    have hrest := fun hPu : P u => ih (hkeep s a u hI hP hPu hu) hPu h
    constructor
    · intro ⟨_, hall⟩
      have hPu : P u := (hall u hu).head
      exact .cons (hu'.mp hPu) hu ((hrest hPu).mp (hall u hu))
    · intro hsteps
      obtain _ | ⟨hok, hstep, rest⟩ := hsteps
      rw [hu, Option.some.injEq] at hstep
      subst hstep
      refine ⟨hP, ?_⟩
      intro u' hu''
      rw [hu, Option.some.injEq] at hu''
      subst hu''
      exact (hrest (hu'.mpr hok)).mpr rest

/-! ## Programs -/

/-- Run a program for a number of steps. -/
def run (step : σ → Option σ) (n : Nat) (s : σ) : Option σ :=
  exec (fun s (_ : Unit) => step s) s (List.replicate n ())

section

variable {step : σ → Option σ} {s t u : σ} {m n : Nat}

theorem run_succ : run step (n + 1) s = (step s).bind (run step n) := rfl

theorem run_one (h : step s = some t) : run step 1 s = some t := by
  rw [run_succ, h]
  rfl

theorem run_trans (h : run step m s = some t) (g : run step n t = some u) :
    run step (m + n) s = some u := by
  induction m generalizing s with
  | zero =>
    obtain rfl := Option.some.inj h
    rw [Nat.zero_add]
    exact g
  | succ m ih =>
    rw [run_succ] at h
    obtain ⟨s', hs, h⟩ := Option.bind_eq_some_iff.mp h
    rw [Nat.add_right_comm, run_succ, hs]
    exact ih h

theorem run_invariant {I : σ → Prop} (hkeep : ∀ s t, I s → step s = some t → I t)
    (h : run step n s = some t) (hI : I s) : I t :=
  (steps_iff_exec.mpr h).invariant (fun s _ s' hs _ => hkeep s s' hs) hI

theorem run_halt_unique (ht : run step m s = some t) (ht' : step t = none)
    (hu : run step n s = some u) (hu' : step u = none) : t = u := by
  induction m generalizing s n with
  | zero =>
    obtain rfl := Option.some.inj ht
    cases n with
    | zero => exact Option.some.inj hu
    | succ n =>
      rw [run_succ, ht'] at hu
      cases hu
  | succ m ih =>
    rw [run_succ] at ht
    obtain ⟨s', hs, ht⟩ := Option.bind_eq_some_iff.mp ht
    cases n with
    | zero =>
      obtain rfl := Option.some.inj hu
      rw [hu'] at hs
      cases hs
    | succ n =>
      rw [run_succ, hs] at hu
      exact ih ht hu

end

/-- **A variant**: in every state of `I` the program is at its end, or takes a step
that stays in `I` and lowers `μ`. -/
structure Variant (step : σ → Option σ) (I Final : σ → Prop) (μ : σ → Nat) : Prop where
  halt : ∀ s, Final s → step s = none
  next : ∀ s, I s → ¬Final s → ∃ t, step s = some t ∧ I t ∧ μ t < μ s

namespace Variant

variable {step : σ → Option σ} {I Final : σ → Prop} {μ : σ → Nat}

theorem keeps (v : Variant step I Final μ) {s t : σ} (hI : I s) (h : step s = some t) : I t := by
  have hfinal : ¬Final s := by
    intro hfinal
    rw [v.halt s hfinal] at h
    cases h
  obtain ⟨t', ht, hI', -⟩ := v.next s hI hfinal
  rw [h, Option.some.injEq] at ht
  exact ht ▸ hI'

/-- **Termination**, in at most as many steps as the variant says. -/
theorem ends (v : Variant step I Final μ) {s : σ} (hI : I s) :
    ∃ n ≤ μ s, ∃ t, run step n s = some t ∧ Final t := by
  generalize hk : μ s = k
  induction k using Nat.strongRecOn generalizing s with
  | ind k ih =>
    by_cases hfinal : Final s
    · exact ⟨0, Nat.zero_le k, s, rfl, hfinal⟩
    obtain ⟨t, hstep, hI', hlt⟩ := v.next s hI hfinal
    obtain ⟨n, hn, u, hrun, hu⟩ := ih (μ t) (hk ▸ hlt) hI' rfl
    refine ⟨n + 1, by omega, u, ?_, hu⟩
    rw [run_succ, hstep]
    exact hrun

end Variant

end SecMon.Machine
