import Mathlib.Data.Nat.Nth
import SecMon.Core.Progress

/-!
# A part of a machine

In a run of a machine with several parts, each of them makes its own steps and
rests while the others make theirs.  `Part` is what a part does in such a run;
`Alone` is the same without the steps in which it rests.

Where the part acts again and again, what it does alone is a run without end
(`Alone.endless`), as fair as the run of the whole was (`Alone.fair`), and it
comes through the same states (`Alone.state`).  So what is known of the part by
itself is true of it in the whole.
-/

namespace SecMon.Machine

variable {σ α ι : Type*} {step : σ → α → Option σ} {ok : σ → α → Prop} {ρ : Nat → σ}
  {does : Nat → Option α} {time : Nat → Nat} {act : Nat → α}

/-- The states `ρ` of a part in a run of the whole, and what it `does` in each of
the steps. -/
structure Part (step : σ → α → Option σ) (ok : σ → α → Prop) (ρ : Nat → σ)
    (does : Nat → Option α) : Prop where
  acts : ∀ n a, does n = some a → ok (ρ n) a ∧ step (ρ n) a = some (ρ (n + 1))
  rests : ∀ n, does n = none → ρ (n + 1) = ρ n

/-- Weak fairness to the part, in a run of the whole. -/
def FairPart (busy : ι → σ → Prop) (acts : ι → α → Prop) (ρ : Nat → σ)
    (does : Nat → Option α) : Prop :=
  ∀ i n, (∀ m, n ≤ m → busy i (ρ m)) → ∃ m a, n ≤ m ∧ does m = some a ∧ acts i a

/-- The times at which the part acts, and what it does then. -/
structure Alone (does : Nat → Option α) (time : Nat → Nat) (act : Nat → α) : Prop where
  mono : StrictMono time
  acts : ∀ k, does (time k) = some (act k)
  all : ∀ n a, does n = some a → ∃ k, time k = n

theorem exists_alone (h : ∀ n, ∃ m, n ≤ m ∧ (does m).isSome = true) :
    ∃ time act, Alone does time act := by
  have hinf : (Set.ofPred fun n => (does n).isSome = true).Infinite := by
    rw [Set.infinite_iff_exists_gt]
    intro n
    obtain ⟨m, hm, hdoes⟩ := h (n + 1)
    exact ⟨m, hdoes, hm⟩
  choose act hact using fun k =>
    Option.isSome_iff_exists.mp (Nat.nth_mem_of_infinite hinf k)
  refine ⟨Nat.nth fun n => (does n).isSome = true, act, Nat.nth_strictMono hinf, hact, ?_⟩
  intro n a ha
  have hmem : n ∈ Set.range (Nat.nth fun n => (does n).isSome = true) := by
    rw [Nat.range_nth_of_infinite hinf]
    exact Option.isSome_iff_exists.mpr ⟨a, ha⟩
  exact hmem

namespace Alone

theorem state (h : Alone does time act) (hp : Part step ok ρ does) {n k : Nat}
    (hlate : ∀ j, j < k → time j < n) (hle : n ≤ time k) : ρ n = ρ (time k) := by
  have hrests : ∀ m, n ≤ m → m < time k → does m = none := by
    intro m hm hlt
    cases hdoes : does m with
    | none => rfl
    | some a =>
      obtain ⟨j, rfl⟩ := h.all m a hdoes
      have hj := hlate j (h.mono.lt_iff_lt.mp hlt)
      exact absurd hm (Nat.not_le_of_lt hj)
  have hstay : ∀ m, n ≤ m → m ≤ time k → ρ m = ρ n := by
    intro m hm
    induction hm with
    | refl => exact fun _ => rfl
    | @step m hm ih =>
      intro hlt
      rw [hp.rests m (hrests m hm hlt)]
      exact ih (Nat.le_of_succ_le hlt)
  exact (hstay (time k) hle (Nat.le_refl _)).symm

theorem exists_state (h : Alone does time act) (hp : Part step ok ρ does) (n : Nat) :
    ∃ k, n ≤ time k ∧ ρ n = ρ (time k) := by
  have hex : ∃ k, n ≤ time k := ⟨n, h.mono.le_apply⟩
  classical
  refine ⟨Nat.find hex, Nat.find_spec hex, h.state hp (fun j hj => ?_) (Nat.find_spec hex)⟩
  exact Nat.lt_of_not_le (Nat.find_min hex hj)

/-- **By itself, the part runs without end.** -/
theorem endless (h : Alone does time act) (hp : Part step ok ρ does) :
    Endless step ok (fun k => ρ (time k)) act := by
  intro k
  obtain ⟨hok, hstep⟩ := hp.acts _ _ (h.acts k)
  have hnext : ρ (time k + 1) = ρ (time (k + 1)) := by
    refine h.state hp (fun j hj => ?_) (h.mono (Nat.lt_succ_self k))
    exact Nat.lt_succ_of_le (h.mono.monotone (Nat.le_of_lt_succ hj))
  exact ⟨hok, hstep.trans (congrArg some hnext)⟩

/-- **And its run is fair if that of the whole is.** -/
theorem fair (h : Alone does time act) (hp : Part step ok ρ does) {busy : ι → σ → Prop}
    {acts : ι → α → Prop} (hfair : FairPart busy acts ρ does) :
    Fair busy acts (fun k => ρ (time k)) act := by
  intro i n hbusy
  obtain ⟨m, a, hm, hdoes, hacts⟩ := hfair i (time n) fun m hm => by
    obtain ⟨k, hk, hstate⟩ := h.exists_state hp m
    rw [hstate]
    exact hbusy k (h.mono.le_iff_le.mp (Nat.le_trans hm hk))
  obtain ⟨k, rfl⟩ := h.all m a hdoes
  obtain rfl := Option.some.inj ((h.acts k).symm.trans hdoes)
  exact ⟨k, h.mono.le_iff_le.mp hm, hacts⟩

end Alone

end SecMon.Machine
