import SecMon.Pipeline.Drain
import SecMon.Pipeline.Metronome
import SecMon.Pipeline.Stats

/-!
# Every frame gets through

The other half of the promise of `Pipeline.h`: "each piece of data is processed
by each step".  A run without end is fair if a strand that has something to do
gets to do it.  Ticks keep coming in it, the pipeline may be paused and resumed
at any time, and still an item that was made is worked on by every element
sometime.

Element `k` takes three turns with an item: it starts it, completes it and
passes it on.  What belongs to the turns of `k` changes in no other way
(`turn_other`), and an element that has an item to see to takes a turn each
time it acts (`turn_own`).
-/

namespace SecMon

namespace Pipeline

open Machine

variable {T W : Type} {ws : List W} {stats : Bool} {s s' : State T W} {i j k : Nat}
  {a : Action T}

namespace State

/-- What element `k` has in work. -/
def inWorkAt (s : State T W) (k : Nat) : List (Item T W) :=
  ((s.element k).map WorkWrapper.inWork).getD []

/-- What element `k` has still to pass on. -/
def toPassAt (s : State T W) (k : Nat) : List (Item T W) :=
  ((s.element k).map WorkWrapper.toPass).getD []

theorem inWorkAt_eq {w : WorkWrapper T W} (h : s.element k = some w) : s.inWorkAt k = w.inWork := by
  rw [inWorkAt, h]
  rfl

theorem toPassAt_eq {w : WorkWrapper T W} (h : s.element k = some w) : s.toPassAt k = w.toPass := by
  rw [toPassAt, h]
  rfl

theorem toPassAt_congr (h : s'.element k = s.element k) : s'.toPassAt k = s.toPassAt k := by
  rw [toPassAt, h, toPassAt]

theorem toPassAt_modify {f : WorkWrapper T W → WorkWrapper T W}
    (hf : ∀ w, s.element k = some w → (f w).toPass = w.toPass) :
    (s.modify k f).toPassAt j = s.toPassAt j := by
  rw [toPassAt, toPassAt, element_modify]
  by_cases hk : k = j
  · subst hk
    rw [if_pos rfl]
    cases hel : s.element k with
    | none => rfl
    | some w => exact hf w hel
  · rw [if_neg hk]

end State

/-! ### Turns -/

/-- Nothing about the turns of element `k` has changed. -/
structure Unturned (s s' : State T W) (k : Nat) : Prop where
  started : s'.startedAt k = s.startedAt k
  completed : s'.completedAt k = s.completedAt k
  toPass : s'.toPassAt k = s.toPassAt k

/-- Element `k` has taken a turn. -/
inductive Turn (s s' : State T W) (k : Nat) : Prop
  | start (it : Item T W) (started : s'.startedAt k = s.startedAt k ++ [it])
      (completed : s'.completedAt k = s.completedAt k) (toPass : s'.toPassAt k = s.toPassAt k)
  | complete (it : Item T W) (started : s'.startedAt k = s.startedAt k)
      (completed : s'.completedAt k = s.completedAt k ++ [it])
      (before : s.toPassAt k = []) (after : s'.toPassAt k = [it])
  | pass (it : Item T W) (started : s'.startedAt k = s.startedAt k)
      (completed : s'.completedAt k = s.completedAt k)
      (before : s.toPassAt k = [it]) (after : s'.toPassAt k = [])

theorem Unturned.modify {f : WorkWrapper T W → WorkWrapper T W}
    (hf : ∀ w, s.element k = some w → (f w).toPass = w.toPass) : Unturned s (s.modify k f) j :=
  ⟨rfl, rfl, State.toPassAt_modify hf⟩

theorem Unturned.congr (hlog : s'.log = s.log)
    (he : s'.pipeline.elements = s.pipeline.elements) : Unturned s s' j := by
  refine ⟨State.startedAt_congr hlog j, State.completedAt_congr hlog j, State.toPassAt_congr ?_⟩
  rw [State.element, he, State.element]

theorem Unturned.trans {s'' : State T W} (h : Unturned s s' j) (g : Unturned s' s'' j) :
    Unturned s s'' j :=
  ⟨g.started.trans h.started, g.completed.trans h.completed, g.toPass.trans h.toPass⟩

theorem Unturned.timerOp {f : WorkWrapper T W → WorkWrapper T W} (hf : ∀ w, TimerOp w (f w)) :
    Unturned s (s.modify k f) j :=
  .modify fun w _ => (hf w).toPass

theorem turn_run {t : TimePoint} (hw : Wired ws stats s) (hs : step s (.run k t) = some s') :
    Turn s s' k ∨ k = 0 ∧ Unturned s s' k ∧ s.inWorkAt k = [] ∧ s.toPassAt k = [] := by
  obtain ⟨w, x, rest, hel, hact, hstrand, ⟨hx, rfl⟩ | ⟨data, hx, rfl⟩⟩ := run_cases hs
  · -- only the source is sent aborted ticks
    have hk : k = 0 := by
      have hmem : x ∈ w.strand := by
        rw [hstrand]
        exact List.mem_cons_self
      rcases (hw.placed k w hel).handler hmem with ⟨hk, _⟩ | ⟨_, it, rfl⟩
      · exact hk
      · simp [State.dataOf] at hx
    refine .inr ⟨hk, .modify fun v _ => rfl, ?_, ?_⟩
    · rw [State.inWorkAt_eq hel, WorkWrapper.inWork, hact]
    · rw [State.toPassAt_eq hel, WorkWrapper.toPass, hact]
  · refine .inl (.start data ?_ ?_ ?_)
    · rw [State.startedAt_record_started, if_pos rfl, State.startedAt_modify]
    · rw [State.completedAt_record_started, State.completedAt_modify]
    · show State.toPassAt (s.modify k _) k = _
      refine State.toPassAt_modify fun v hv => ?_
      obtain rfl := Option.some.inj (hel.symm.trans hv)
      rw [WorkWrapper.toPass, WorkWrapper.toPass, hact]

theorem turn_finish {data : Option T} {t : TimePoint} (hs : step s (.finish k data t) = some s') :
    Turn s s' k := by
  obtain ⟨w, it, t₀, hel, hact, rfl⟩ := step_finish.mp hs
  refine .complete (it.worked w.work data) ?_ ?_ ?_ ?_
  · rw [State.startedAt_record_completed]
    rfl
  · rw [State.completedAt_record_completed, if_pos rfl]
    rfl
  · rw [State.toPassAt_eq hel, WorkWrapper.toPass, hact]
  · have hel' : State.element (State.modify k
        (fun w' => { w' with activity := some (.worked (it.worked w.work data)) })
        { s with pipeline := emplaceTimes w.timeStatsQueue (t₀, t) s.pipeline }) k =
        some { w with activity := some (.worked (it.worked w.work data)) } := by
      rw [State.element_modify_self, State.element, emplaceTimes_elements]
      show (s.element k).map _ = _
      rw [hel]
      rfl
    exact State.toPassAt_eq hel'

theorem turn_next (hw : Wired ws stats s) (hs : step s (.next k) = some s') : Turn s s' k := by
  obtain ⟨w, it, hel, hact, rfl⟩ := step_next.mp hs
  have hlog : ((s.modify k WorkWrapper.afterNext).pass w.next it).log = s.log := by
    cases w.next <;> rfl
  refine .pass it (State.startedAt_congr hlog k) (State.completedAt_congr hlog k) ?_ ?_
  · rw [State.toPassAt_eq hel, WorkWrapper.toPass, hact]
  · rw [State.toPassAt]
    cases hel' : ((s.modify k WorkWrapper.afterNext).pass w.next it).element k with
    | none => rfl
    | some w' =>
      obtain ⟨v, _, rfl⟩ := element_next hw hel it hel'
      rw [if_pos rfl, Option.map_some, Option.getD_some, WorkWrapper.afterNext,
        WorkWrapper.toPass]
      by_cases ht : v.timed.isSome = true <;> simp [ht]

/-- **An element that acts takes a turn**, or it is the source and sees to its
timer. -/
theorem turn_own (hw : Wired ws stats s) (ha : a.stage? = some k) (hs : step s a = some s') :
    Turn s s' k ∨ k = 0 ∧ Unturned s s' k ∧ s.inWorkAt k = [] ∧ s.toPassAt k = [] := by
  cases a with
  | run k' t =>
    obtain rfl := Option.some.inj ha
    exact turn_run hw hs
  | finish k' data t =>
    obtain rfl := Option.some.inj ha
    exact .inl (turn_finish hs)
  | next k' =>
    obtain rfl := Option.some.inj ha
    exact .inl (turn_next hw hs)
  | restart k' =>
    obtain rfl := Option.some.inj ha
    obtain ⟨w, hel, hact, rfl⟩ := step_restart.mp hs
    have hk : k' = 0 := (hw.placed k' w hel).restart (by rw [WorkWrapper.inRestart, hact])
    refine .inr ⟨hk, .modify fun v hv => ?_, ?_, ?_⟩
    · obtain rfl := Option.some.inj (hel.symm.trans hv)
      rw [WorkWrapper.toPass, WorkWrapper.toPass, hact]
      rfl
    · rw [State.inWorkAt_eq hel, WorkWrapper.inWork, hact]
    · rw [State.toPassAt_eq hel, WorkWrapper.toPass, hact]
  | rewait k' =>
    obtain rfl := Option.some.inj ha
    obtain ⟨w, hel, hact, rfl⟩ := step_rewait.mp hs
    have hk : k' = 0 := (hw.placed k' w hel).restart (by rw [WorkWrapper.inRestart, hact])
    refine .inr ⟨hk, .modify fun v hv => ?_, ?_, ?_⟩
    · obtain rfl := Option.some.inj (hel.symm.trans hv)
      rw [WorkWrapper.toPass, WorkWrapper.toPass, hact]
      rfl
    · rw [State.inWorkAt_eq hel, WorkWrapper.inWork, hact]
    · rw [State.toPassAt_eq hel, WorkWrapper.toPass, hact]
  | elapse _ | expire _ | pauseCall | pauseWait | pauseReturn | changeTimer _ | collect _ _ =>
    simp [Action.stage?] at ha

theorem Unturned.modify_ne {f : WorkWrapper T W → WorkWrapper T W} (hk : k ≠ j) :
    Unturned s (s.modify k f) j :=
  ⟨rfl, rfl, State.toPassAt_congr (State.element_modify_ne hk)⟩

/-- **The others take none of its turns.** -/
theorem turn_other (hw : Wired ws stats s) (ha : a.stage? ≠ some j) (hs : step s a = some s') :
    Unturned s s' j := by
  cases a with
  | elapse d =>
    rw [Pipeline.step, Option.some.injEq] at hs
    subst hs
    exact .congr rfl rfl
  | expire k =>
    obtain ⟨w, _, _, rfl⟩ := step_expire.mp hs
    exact .timerOp TimerOp.expire
  | run k t =>
    have hk : k ≠ j := fun h => ha (congrArg some h)
    obtain ⟨w, x, rest, hel, hact, hstrand, ⟨hx, rfl⟩ | ⟨data, hx, rfl⟩⟩ := run_cases hs
    · exact .modify_ne hk
    · refine ⟨?_, ?_, (Unturned.modify_ne hk).toPass⟩
      · rw [State.startedAt_record_started, if_neg hk, List.append_nil]
        rfl
      · rw [State.completedAt_record_started]
        rfl
  | finish k data t =>
    have hk : k ≠ j := fun h => ha (congrArg some h)
    obtain ⟨w, it, t₀, hel, hact, rfl⟩ := step_finish.mp hs
    refine ⟨?_, ?_, ?_⟩
    · rw [State.startedAt_record_completed]
      rfl
    · rw [State.completedAt_record_completed, if_neg hk, List.append_nil]
      rfl
    · refine State.toPassAt_congr ((State.element_modify_ne hk).trans ?_)
      rw [State.element, emplaceTimes_elements, State.element]
  | next k =>
    have hk : k ≠ j := fun h => ha (congrArg some h)
    obtain ⟨w, it, hel, hact, rfl⟩ := step_next.mp hs
    refine (Unturned.modify_ne (f := WorkWrapper.afterNext) hk).trans ?_
    cases hnext : w.next with
    | none => exact .congr rfl rfl
    | some k' =>
      refine .modify fun v hv => ?_
      have hk' : k' ≠ 0 := (hw.placed k w hel).next_ne_zero hnext
      obtain ⟨u, hu, rfl⟩ := State.element_of_modify hv
      have htimed : u.timed.isSome = false := by
        rw [(hw.placed k' u hu).timed, decide_eq_false hk']
      split <;> simp [WorkWrapper.scheduleWork, WorkWrapper.afterNext, htimed, WorkWrapper.post,
        WorkWrapper.toPass]
  | restart k =>
    have hk : k ≠ j := fun h => ha (congrArg some h)
    obtain ⟨w, hel, hact, rfl⟩ := step_restart.mp hs
    exact .modify_ne hk
  | rewait k =>
    have hk : k ≠ j := fun h => ha (congrArg some h)
    obtain ⟨w, hel, hact, rfl⟩ := step_rewait.mp hs
    exact .modify_ne hk
  | pauseCall =>
    obtain ⟨w, _, _, _, ⟨_, rfl⟩ | ⟨_, rfl⟩⟩ := step_pauseCall.mp hs
    · exact (Unturned.timerOp fun w => TimerOp.expiresAt _ w).trans (.congr rfl rfl)
    · exact (Unturned.timerOp TimerOp.cancel).trans (.congr rfl rfl)
  | pauseWait =>
    obtain ⟨_, rfl⟩ := step_pauseWait.mp hs
    exact (Unturned.timerOp TimerOp.asyncWait).trans (.congr rfl rfl)
  | pauseReturn =>
    obtain ⟨_, rfl⟩ := step_pauseReturn.mp hs
    exact (Unturned.timerOp (k := 0) fun w => TimerOp.setPaused (!w.paused) w).trans (.congr rfl rfl)
  | changeTimer ms =>
    obtain ⟨_, p, hp, rfl⟩ := step_changeTimer.mp hs
    rw [changeTimer_ok hp]
    exact (Unturned.timerOp (k := 0) fun w => TimerOp.setInterval ms w).trans (.congr rfl rfl)
  | collect start stop =>
    simp only [Pipeline.step] at hs
    split at hs
    · rw [Option.some.injEq] at hs
      subst hs
      exact .congr rfl rfl
    · simp at hs

theorem turn_cases (hw : Wired ws stats s) (hs : step s a = some s') (k : Nat) :
    Turn s s' k ∨ Unturned s s' k := by
  by_cases ha : a.stage? = some k
  · rcases turn_own hw ha hs with h | ⟨_, h, _⟩
    · exact .inl h
    · exact .inr h
  · exact .inr (turn_other hw ha hs)

/-! ### Counting them -/

/-- What is to be passed on has just been completed. -/
def Recent (s : State T W) : Prop := ∀ k, ∃ l, s.completedAt k = l ++ s.toPassAt k

theorem Recent.step (h : Recent s) (hw : Wired ws stats s) (hs : step s a = some s') :
    Recent s' := by
  intro k
  obtain ⟨l, hl⟩ := h k
  rcases turn_cases hw hs k with ht | ht
  · cases ht with
    | start it _ hco hto => exact ⟨l, by rw [hco, hto, hl]⟩
    | complete it _ hco _ hto => exact ⟨s.completedAt k, by rw [hco, hto]⟩
    | pass it _ hco _ hto => exact ⟨s.completedAt k, by rw [hco, hto, List.append_nil]⟩
  · exact ⟨l, by rw [ht.completed, ht.toPass, hl]⟩

namespace State

/-- The number of items element `k` has passed on. -/
def passedAt (s : State T W) (k : Nat) : Nat := (s.completedAt k).length - (s.toPassAt k).length

/-- The turns element `k` has taken. -/
def turns (s : State T W) (k : Nat) : Nat :=
  (s.startedAt k).length + (s.completedAt k).length + s.passedAt k

/-- The number of items element `k` has got.  The source makes its own. -/
def supply (s : State T W) : Nat → Nat
  | 0 => (s.startedAt 0).length
  | k + 1 => s.passedAt k

end State

theorem Unturned.turns (h : Unturned s s' k) : s'.turns k = s.turns k ∧
    s'.passedAt k = s.passedAt k ∧ (s'.startedAt k).length = (s.startedAt k).length := by
  rw [State.turns, State.turns, State.passedAt, State.passedAt, h.started, h.completed, h.toPass]
  exact ⟨rfl, rfl, rfl⟩

theorem Turn.turns (h : Turn s s' k) (hr : Recent s) : s'.turns k = s.turns k + 1 ∧
    s.passedAt k ≤ s'.passedAt k ∧ (s.startedAt k).length ≤ (s'.startedAt k).length := by
  obtain ⟨l, hl⟩ := hr k
  unfold State.turns State.passedAt
  cases h with
  | start it hst hco hto =>
    rw [hst, hco, hto, List.length_append, List.length_singleton]
    omega
  | complete it hst hco hb ha =>
    rw [hst, hco, hb, ha, List.length_append, List.length_singleton, List.length_nil]
    omega
  | pass it hst hco hb ha =>
    rw [hst, hco, hb, ha, hl, hb, List.length_append, List.length_singleton, List.length_nil]
    omega

/-- What is known of every state of a started pipeline. -/
structure Running (ws : List W) (stats : Bool) (s : State T W) : Prop where
  wired : Wired ws stats s
  flow : Flow s
  recent : Recent s

theorem Running.step (h : Running ws stats s) (hs : Pipeline.step s a = some s') : Running ws stats s' :=
  ⟨h.wired.step a hs, h.flow.step h.wired a hs, h.recent.step h.wired hs⟩

theorem Launched.running {si : Nat} (h : Launched ws si s) : Running ws (0 < si) s := by
  refine ⟨h.wired, h.flow, fun k => ⟨[], ?_⟩⟩
  have hto : s.toPassAt k = [] := by
    rw [State.toPassAt]
    cases hel : s.element k with
    | none => rfl
    | some w => rw [Option.map_some, Option.getD_some, WorkWrapper.toPass, (h.quiet k w hel).2.1]
  rw [hto, State.completedAt, State.timedAt, h.log]
  rfl

theorem Running.mono (h : Running ws stats s) (hs : Pipeline.step s a = some s') (k : Nat) :
    s.passedAt k ≤ s'.passedAt k ∧ s.supply k ≤ s'.supply k := by
  have hmono : ∀ k, s.passedAt k ≤ s'.passedAt k ∧
      (s.startedAt k).length ≤ (s'.startedAt k).length := by
    intro k
    rcases turn_cases h.wired hs k with ht | ht
    · exact (ht.turns h.recent).2
    · exact ⟨Nat.le_of_eq ht.turns.2.1.symm, Nat.le_of_eq ht.turns.2.2.symm⟩
  refine ⟨(hmono k).1, ?_⟩
  cases k with
  | zero => exact (hmono 0).2
  | succ k => exact (hmono k).1

theorem inWork_toPass_length_le (w : WorkWrapper T W) :
    w.inWork.length + w.toPass.length ≤ 1 := by
  unfold WorkWrapper.inWork WorkWrapper.toPass
  cases w.activity with
  | none => exact Nat.zero_le 1
  | some activity => cases activity <;> exact Nat.le_of_ble_eq_true rfl

/-- An element is one item behind at most: the one in work or to be passed on. -/
theorem Running.behind (h : Running ws stats s) {w : WorkWrapper T W}
    (hel : s.element k = some w) :
    (s.startedAt k).length = (s.completedAt k).length + w.inWork.length ∧
      (s.completedAt k).length = s.passedAt k + w.toPass.length := by
  obtain ⟨done, hst, hdone⟩ := h.flow.work k w hel
  obtain ⟨l, hl⟩ := h.recent k
  refine ⟨by rw [hst, List.length_append, hdone.length_eq], ?_⟩
  rw [State.passedAt, hl, State.toPassAt_eq hel, List.length_append]
  omega

/-- An element that has got more than it has passed on is busy, and not with
its timer. -/
theorem Running.busy (h : Running ws stats s) (hk : k < ws.length)
    (hlt : s.passedAt k < s.supply k) :
    s.Busy k ∧ ¬(k = 0 ∧ s.inWorkAt k = [] ∧ s.toPassAt k = []) := by
  obtain ⟨w, hel⟩ : ∃ w, s.element k = some w :=
    ⟨_, List.getElem?_eq_getElem (h.wired.length ▸ hk)⟩
  obtain ⟨hst, hco⟩ := h.behind hel
  have hact : s.passedAt k < (s.startedAt k).length → w.activity ≠ none ∧
      ¬(s.inWorkAt k = [] ∧ s.toPassAt k = []) := by
    intro hlt
    rw [State.inWorkAt_eq hel, State.toPassAt_eq hel]
    constructor
    · intro hact
      rw [WorkWrapper.inWork, hact, List.length_nil] at hst
      rw [WorkWrapper.toPass, hact, List.length_nil] at hco
      omega
    · rintro ⟨hin, hto⟩
      rw [hin, List.length_nil] at hst
      rw [hto, List.length_nil] at hco
      omega
  cases k with
  | zero =>
    obtain ⟨hbusy, hidle⟩ := hact hlt
    exact ⟨⟨w, hel, .inr hbusy⟩, fun h0 => hidle h0.2⟩
  | succ k =>
    refine ⟨?_, fun h0 => absurd h0.1 (Nat.succ_ne_zero k)⟩
    obtain ⟨v, hv⟩ : ∃ v, s.element k = some v :=
      ⟨_, List.getElem?_eq_getElem (h.wired.length ▸ Nat.lt_of_succ_lt hk)⟩
    have hpass := congrArg List.length (h.flow.pass k v w hv hel)
    rw [List.length_append, List.length_append, (h.behind hv).2] at hpass
    have hlt : s.passedAt (k + 1) < s.passedAt k := hlt
    by_cases hq : w.strand = []
    · -- nothing waits, so the item is in work
      have hqueued : w.queued = [] := by rw [WorkWrapper.queued, hq]; rfl
      rw [hqueued, List.length_nil] at hpass
      exact ⟨w, hel, .inr (hact (by omega)).1⟩
    · exact ⟨w, hel, .inl hq⟩

/-! ### Fair runs -/

/-- The strands of a run get to do what they have to do. -/
def FairToStrands (ρ : Nat → State T W) (act : Nat → Action T) : Prop :=
  Fair (fun k s => s.Busy k) (fun k a => a.stage? = some k) ρ act

variable {ρ : Nat → State T W} {act : Nat → Action T}

theorem Running.passes_on (hrun : Endless Pipeline.step anyStep ρ act) (hfair : FairToStrands ρ act)
    (h : ∀ n, Running ws stats (ρ n)) (hk : k < ws.length) {n : Nat}
    (hi : i < (ρ n).supply k) : ∃ m, n ≤ m ∧ i < (ρ m).passedAt k := by
  by_cases hdone : i < (ρ n).passedAt k
  · exact ⟨n, Nat.le_refl n, hdone⟩
  refine hrun.response hfair k (P := fun s => s.passedAt k ≤ i ∧ i < s.supply k)
    (Q := fun s => i < s.passedAt k) (fun s => 3 * (i + 1) - s.turns k) h ?_ ?_
    ⟨Nat.le_of_not_lt hdone, hi⟩
  · rintro s hr ⟨hle, hsup⟩
    exact (hr.busy hk (Nat.lt_of_le_of_lt hle hsup)).1
  · rintro s a t hr _ ⟨hle, hsup⟩ hs
    have hmono := (hr.mono hs k).2
    rcases Nat.lt_or_ge i (t.passedAt k) with hlt | hle'
    · exact .inl hlt
    refine .inr ⟨⟨hle', Nat.lt_of_lt_of_le hsup hmono⟩, ?_⟩
    by_cases ha : a.stage? = some k
    · have hnot := (hr.busy hk (Nat.lt_of_le_of_lt hle hsup)).2
      have hturn : Turn s t k := (turn_own hr.wired ha hs).resolve_right fun hidle =>
        hnot ⟨hidle.1, hidle.2.2⟩
      have hone := (hturn.turns hr.recent).1
      -- of the item `i` at least one turn is still to come
      obtain ⟨w, hel⟩ : ∃ w, s.element k = some w :=
        ⟨_, List.getElem?_eq_getElem (hr.wired.length ▸ hk)⟩
      obtain ⟨hst, hco⟩ := hr.behind hel
      have hle1 := inWork_toPass_length_le w
      have hbound : s.turns k < 3 * (i + 1) := by
        rw [State.turns]
        omega
      refine ⟨?_, fun _ => ?_⟩
      · omega
      · omega
    · refine ⟨Nat.le_of_eq ?_, fun ha' => absurd ha' ha⟩
      rw [(turn_other hr.wired ha hs).turns.1]

/-- A fair run of a started pipeline has `i` items passed on by every element up
to `k`, once the source has made more than `i`. -/
theorem Running.gets_to (hrun : Endless Pipeline.step anyStep ρ act) (hfair : FairToStrands ρ act)
    (h : ∀ n, Running ws stats (ρ n)) {n : Nat} (hi : i < ((ρ n).startedAt 0).length)
    (hk : k < ws.length) : ∃ m, n ≤ m ∧ ∀ j, j ≤ k → i < (ρ m).passedAt j := by
  induction k with
  | zero =>
    obtain ⟨m, hm, hpass⟩ := passes_on hrun hfair h hk hi
    refine ⟨m, hm, fun j hj => ?_⟩
    rw [Nat.le_zero.mp hj]
    exact hpass
  | succ k ih =>
    obtain ⟨m, hm, hpass⟩ := ih (Nat.lt_of_succ_lt hk)
    obtain ⟨m', hm', hpass'⟩ := passes_on hrun hfair h hk (hpass k (Nat.le_refl k))
    refine ⟨m', Nat.le_trans hm hm', fun j hj => ?_⟩
    rcases Nat.lt_or_ge k j with hlt | hle
    · rw [Nat.le_antisymm hj hlt]
      exact hpass'
    · exact hrun.lasts h (P := fun s => i < s.passedAt j)
        (fun s a t hr hlt hs => Nat.lt_of_lt_of_le hlt (hr.mono hs j).1) hm' (hpass j hle)

theorem Running.completed (h : Running ws stats s) (hk : k < ws.length)
    (hi : i < (s.completedAt k).length) :
    ∃ it, (s.completedAt k)[i]? = some it ∧ it.id = i ∧ it.applied = ws.take (k + 1) := by
  have hin := h.flow.inOrder h.wired
  refine ⟨(s.completedAt k)[i], List.getElem?_eq_getElem hi, ?_, ?_⟩
  · have hi' : i < ((s.completedAt k).map Item.id).length := by rwa [List.length_map]
    have hid := (hin.ids_completed k hk).getElem hi'
    rwa [List.getElem_map, List.getElem_range] at hid
  · obtain ⟨w, hel⟩ : ∃ w, s.element k = some w :=
      ⟨_, List.getElem?_eq_getElem (h.wired.length ▸ hk)⟩
    obtain ⟨done, hst, hdone⟩ := h.flow.work k w hel
    refine applied_of_worked (h.wired.placed k w hel).work hdone (fun x hx => ?_) _
      (List.getElem_mem hi)
    exact hin.applied k hk x (hst ▸ List.mem_append_left _ hx)

theorem Running.delivers (hrun : Endless Pipeline.step anyStep ρ act)
    (hfair : FairToStrands ρ act) (h : ∀ n, Running ws stats (ρ n)) {n : Nat}
    (hi : i < ((ρ n).startedAt 0).length) :
    ∃ m, n ≤ m ∧ ∀ k, k < ws.length →
      ∃ it, ((ρ m).completedAt k)[i]? = some it ∧ it.id = i ∧ it.applied = ws.take (k + 1) := by
  by_cases hne : ws.length = 0
  · exact ⟨n, Nat.le_refl n, fun k hk => absurd hk (by omega)⟩
  have hlast : ws.length - 1 < ws.length := Nat.sub_lt (Nat.pos_of_ne_zero hne) Nat.one_pos
  obtain ⟨m, hm, hpass⟩ := gets_to hrun hfair h hi hlast
  refine ⟨m, hm, fun k hk => (h m).completed hk ?_⟩
  exact Nat.lt_of_lt_of_le (hpass k (Nat.le_sub_one_of_lt hk)) (Nat.sub_le _ _)

/-- **Every frame gets through.**  In a run without end that is fair to the
strands, each item the source makes is sometime complete at every element, as
the item of its number and with the works up to there done on it in order. -/
theorem every_frame_gets_through {si : Nat} {interval : Int} {source : W × Option String}
    {rest : List (W × Option String)} {now : Nat} {t : TimePoint} {p : Pipeline T W}
    (h : launch si interval source rest now t = .ok p) {ρ : Nat → State T W}
    {act : Nat → Action T} (h0 : ρ 0 = State.init now p) (hrun : Endless step anyStep ρ act)
    (hfair : FairToStrands ρ act) {i n : Nat} (hi : i < ((ρ n).startedAt 0).length) :
    ∃ m, n ≤ m ∧ ∀ k, k < (works source rest).length →
      ∃ it, ((ρ m).completedAt k)[i]? = some it ∧ it.id = i ∧
        it.applied = (works source rest).take (k + 1) :=
  Running.delivers hrun hfair (hrun.invariant (fun _ _ _ hr _ hs => hr.step hs)
    (h0 ▸ (launched_of_launch h).running)) hi

/-! ### Ticks keep coming -/

/-- The timer of the source goes off when it is due. -/
def FairToTimer (ρ : Nat → State T W) (act : Nat → Action T) : Prop :=
  Fair (fun (_ : Unit) s => ∃ w, s.element 0 = some w ∧ w.due s.now = true)
    (fun _ a => a = .expire 0) ρ act

def TimePasses (ρ : Nat → State T W) : Prop := ∀ time n, ∃ m, n ≤ m ∧ time ≤ (ρ m).now

variable {w : WorkWrapper T W} {ph : Phase}

theorem own_move (ha : a.move.own = false) : a.stage? ≠ some 0 ∧ a ≠ .expire 0 := by
  cases a with
  | expire k | run k _ | finish k _ _ | next k | restart k | rewait k =>
    cases k with
    | zero => cases ha
    | succ k => simp [Action.stage?]
  | elapse _ | pauseCall | pauseWait | pauseReturn | changeTimer _ | collect _ _ =>
    simp [Action.stage?]

theorem Ticking.cases (hw : Wired ws stats s) (h : Ticking s w ph) (hok : NoPause s a)
    (hs : step s a = some s') : ∃ w' ph', Ticking s' w' ph' ∧
      ((ph' = ph ∧ w'.expiry = w.expiry ∧ s.now ≤ s'.now ∧ a.stage? ≠ some 0 ∧ a ≠ .expire 0) ∨
        (ph = .waiting ∧ ph' = .ticked) ∨
        (ph = .ticked ∧ (s'.startedAt 0).length = (s.startedAt 0).length + 1) ∨
        (1 < ph.rank ∧ ph'.rank + 1 = ph.rank)) := by
  obtain ⟨w', ph', htick, hmove⟩ := metronome_step hw h hok hs
  refine ⟨w', ph', htick, (Metronome.step_cases hmove).imp ?_ id⟩
  rintro ⟨hown, hph, hexp, hnow⟩
  exact ⟨hph, hexp, hnow, own_move hown⟩

/-- A pipeline that nobody has paused. -/
structure Unpaused (ws : List W) (stats : Bool) (s : State T W) : Prop where
  running : Running ws stats s
  ticking : ∃ w ph, Ticking s w ph

theorem Unpaused.step (h : Unpaused ws stats s) (hok : NoPause s a)
    (hs : Pipeline.step s a = some s') : Unpaused ws stats s' := by
  obtain ⟨w, ph, htick⟩ := h.ticking
  obtain ⟨w', ph', htick', -⟩ := metronome_step h.running.wired htick hok hs
  exact ⟨h.running.step hs, w', ph', htick'⟩

theorem Unpaused.waits (hrun : Endless Pipeline.step NoPause ρ act) (hfair : FairToStrands ρ act)
    (h : ∀ n, Unpaused ws stats (ρ n)) (n : Nat) :
    ∃ m w ph, n ≤ m ∧ Ticking (ρ m) w ph ∧ ph.rank ≤ 1 := by
  obtain ⟨w, ph, htick⟩ := (h n).ticking
  by_cases hph : ph.rank ≤ 1
  · exact ⟨n, w, ph, Nat.le_refl n, htick, hph⟩
  obtain ⟨m, hm, w, ph, htick, hph⟩ := hrun.response hfair 0
    (P := fun s => ∃ w ph, Ticking s w ph ∧ 1 < ph.rank)
    (Q := fun s => ∃ w ph, Ticking s w ph ∧ ph.rank ≤ 1) State.rank h
    (by
      rintro s hr ⟨w, ph, htick, hph⟩
      refine ⟨w, htick.source, .inr fun hact => ?_⟩
      rcases htick.phase.of_idle hact with rfl | rfl <;> exact absurd hph (by decide))
    (by
      rintro s a t hr hok ⟨w, ph, htick, hph⟩ hs
      obtain ⟨w', ph', htick', hcases⟩ := htick.cases hr.running.wired hok hs
      rcases Nat.lt_or_ge 1 ph'.rank with hlt | hle
      · refine .inr ⟨⟨w', ph', htick', hlt⟩, ?_⟩
        rw [htick.rank, htick'.rank]
        rcases hcases with ⟨rfl, _, _, hown, _⟩ | ⟨rfl, _⟩ | ⟨rfl, _⟩ | ⟨_, hdown⟩
        · exact ⟨Nat.le_refl _, fun ha => absurd ha hown⟩
        · exact absurd hph (by decide)
        · exact absurd hph (by decide)
        · exact ⟨Nat.le_of_succ_le (Nat.le_of_eq hdown), fun _ => Nat.le_of_eq hdown⟩
      · exact .inl ⟨w', ph', htick', hle⟩)
    ⟨w, ph, htick, Nat.lt_of_not_le hph⟩
  exact ⟨m, w, ph, hm, htick, hph⟩

theorem Unpaused.ticks (hrun : Endless Pipeline.step NoPause ρ act) (htimer : FairToTimer ρ act)
    (htime : TimePasses ρ) (h : ∀ n, Unpaused ws stats (ρ n)) {n : Nat}
    (hw : Ticking (ρ n) w .waiting) : ∃ m w, n ≤ m ∧ Ticking (ρ m) w .ticked := by
  by_contra hnever
  have hstay : ∀ (s : State T W) (a : Action T) t, Unpaused ws stats s → NoPause s a →
      (∃ v, Ticking s v .waiting ∧ v.expiry = w.expiry) → Pipeline.step s a = some t →
      (∃ v, Ticking t v .ticked) ∨
        (∃ v, Ticking t v .waiting ∧ v.expiry = w.expiry) ∧ s.now ≤ t.now ∧ a ≠ .expire 0 := by
    rintro s a t hr hok ⟨v, htick, hexp⟩ hs
    obtain ⟨v', ph', htick', hcases⟩ := htick.cases hr.running.wired hok hs
    rcases hcases with ⟨rfl, hexp', hnow, _, ha⟩ | ⟨_, rfl⟩ | ⟨hph, _⟩ | ⟨hph, _⟩
    · exact .inr ⟨⟨v', htick', hexp'.trans hexp⟩, hnow, ha⟩
    · exact .inl ⟨v', htick'⟩
    · cases hph
    · exact absurd hph (by decide)
  -- the clock gets to the expiry
  obtain ⟨m, hm, hdue⟩ := htime w.expiry n
  have hm' : ∃ v, Ticking (ρ m) v .waiting ∧ v.expiry = w.expiry := by
    refine (hrun.stays (Q := fun s => ∃ v, Ticking s v .ticked) h ?_ hm
      (P := fun s => ∃ v, Ticking s v .waiting ∧ v.expiry = w.expiry) ⟨w, hw, rfl⟩).resolve_left ?_
    · exact fun s a t hr hok hP hs => (hstay s a t hr hok hP hs).imp id And.left
    · exact fun ⟨j, hj, v, hv⟩ => hnever ⟨j, v, hj, hv⟩
  -- then the timer goes off
  obtain ⟨j, hj, v, hv⟩ := hrun.response htimer ()
    (P := fun s => (∃ v, Ticking s v .waiting ∧ v.expiry = w.expiry) ∧ w.expiry ≤ s.now)
    (Q := fun s => ∃ v, Ticking s v .ticked) (fun _ => 0) h
    (by
      rintro s hr ⟨⟨v, htick, hexp⟩, hnow⟩
      refine ⟨v, htick.source, ?_⟩
      rw [WorkWrapper.due, htick.phase.pending, hexp, if_pos rfl, decide_eq_true hnow]
      rfl)
    (by
      rintro s a t hr hok ⟨hP, hnow⟩ hs
      rcases hstay s a t hr hok hP hs with hQ | ⟨hP', hle, ha⟩
      · exact .inl hQ
      · exact .inr ⟨⟨hP', Nat.le_trans hnow hle⟩, Nat.le_refl 0, fun ha' => absurd ha' ha⟩)
    ⟨hm', hdue⟩
  exact hnever ⟨j, v, Nat.le_trans hm hj, hv⟩

theorem Unpaused.makes (hrun : Endless Pipeline.step NoPause ρ act) (hfair : FairToStrands ρ act)
    (h : ∀ n, Unpaused ws stats (ρ n)) {n : Nat} (hw : Ticking (ρ n) w .ticked)
    (hi : i ≤ ((ρ n).startedAt 0).length) : ∃ m, n ≤ m ∧ i < ((ρ m).startedAt 0).length := by
  refine hrun.response hfair 0
    (P := fun s => (∃ w, Ticking s w .ticked) ∧ i ≤ (s.startedAt 0).length)
    (Q := fun s => i < (s.startedAt 0).length) (fun _ => 0) h ?_ ?_ ⟨⟨w, hw⟩, hi⟩
  · rintro s hr ⟨⟨w, htick⟩, _⟩
    refine ⟨w, htick.source, .inl ?_⟩
    rw [htick.phase.strand]
    exact List.cons_ne_nil _ _
  · rintro s a t hr hok ⟨⟨w, htick⟩, hi⟩ hs
    obtain ⟨w', ph', htick', hcases⟩ := htick.cases hr.running.wired hok hs
    have hmono : (s.startedAt 0).length ≤ (t.startedAt 0).length := (hr.running.mono hs 0).2
    rcases hcases with ⟨rfl, _, _, hown, _⟩ | ⟨hph, _⟩ | ⟨_, hone⟩ | ⟨hph, _⟩
    · exact .inr ⟨⟨⟨w', htick'⟩, Nat.le_trans hi hmono⟩, Nat.le_refl 0,
        fun ha => absurd ha hown⟩
    · cases hph
    · exact .inl (by omega)
    · exact absurd hph (by decide)

theorem Unpaused.keeps_making (hrun : Endless Pipeline.step NoPause ρ act)
    (hfair : FairToStrands ρ act) (htimer : FairToTimer ρ act) (htime : TimePasses ρ)
    (h : ∀ n, Unpaused ws stats (ρ n)) (i : Nat) : ∃ m, i < ((ρ m).startedAt 0).length := by
  have hlasts : ∀ {i n m : Nat}, n ≤ m → i ≤ ((ρ n).startedAt 0).length →
      i ≤ ((ρ m).startedAt 0).length := fun {i} _ _ hnm hi =>
    hrun.lasts (P := fun s => i ≤ (s.startedAt 0).length) h
      (fun s a t hr hle hs => Nat.le_trans hle (hr.running.mono hs 0).2) hnm hi
  have hmore : ∀ i n, i ≤ ((ρ n).startedAt 0).length → ∃ m, i < ((ρ m).startedAt 0).length := by
    intro i n hi
    obtain ⟨m, w, ph, hm, htick, hph⟩ := waits hrun hfair h n
    obtain ⟨m', w', hm', htick'⟩ : ∃ m' w', m ≤ m' ∧ Ticking (ρ m') w' .ticked := by
      cases ph with
      | ticked => exact ⟨m, w, Nat.le_refl m, htick⟩
      | waiting => exact ticks hrun htimer htime h htick
      | _ => exact absurd hph (by decide)
    obtain ⟨m'', _, hlt⟩ := makes hrun hfair h htick' (hlasts (Nat.le_trans hm hm') hi)
    exact ⟨m'', hlt⟩
  induction i with
  | zero => exact hmore 0 0 (Nat.zero_le _)
  | succ i ih =>
    obtain ⟨m, hm⟩ := ih
    exact hmore (i + 1) m hm

/-- **Frames keep coming.**  In a run without end that is fair to the strands
and to the timer, in which time passes and nobody calls `pause`, an item of
every number is made and gets to the end. -/
theorem frames_keep_coming {si : Nat} {interval : Int} {source : W × Option String}
    {rest : List (W × Option String)} {now : Nat} {t : TimePoint} {p : Pipeline T W}
    (h : launch si interval source rest now t = .ok p) {ρ : Nat → State T W}
    {act : Nat → Action T} (h0 : ρ 0 = State.init now p) (hrun : Endless step NoPause ρ act)
    (hfair : FairToStrands ρ act) (htimer : FairToTimer ρ act) (htime : TimePasses ρ) (i : Nat) :
    ∃ m, ∀ k, k < (works source rest).length → ∃ it, ((ρ m).completedAt k)[i]? = some it ∧
      it.id = i ∧ it.applied = (works source rest).take (k + 1) := by
  obtain ⟨w, htick, -⟩ := ticking_of_launch h
  have hr : ∀ n, Unpaused (works source rest) (0 < si) (ρ n) :=
    hrun.invariant (fun _ _ _ hr hok hs => hr.step hok hs)
      (h0 ▸ ⟨(launched_of_launch h).running, w, .waiting, htick⟩)
  obtain ⟨n, hn⟩ := Unpaused.keeps_making hrun hfair htimer htime hr i
  obtain ⟨m, -, hm⟩ := Running.delivers (hrun.mono fun _ _ _ => trivial) hfair
    (fun n => (hr n).running) hn
  exact ⟨m, hm⟩

/-! ### A camera and one consumer, for ever -/

instance : Inhabited (Action T) := ⟨.elapse 0⟩

/-- One frame of `twoStage`. -/
def lap : List (Action Nat) :=
  [.elapse 40, .expire 0, .run 0 0, .finish 0 none 0, .next 0, .restart 0, .rewait 0, .run 1 0,
    .finish 1 none 0, .next 1]

def lapLog (c : Nat) : List (Event Nat String) :=
  (List.range c).flatMap fun i =>
    [.started 0 { id := i, data := none, applied := [] },
      .completed 0 { id := i, data := none, applied := ["Camera"] } 0 0,
      .started 1 { id := i, data := none, applied := ["Camera"] },
      .completed 1 { id := i, data := none, applied := ["Camera", "Movement"] } 0 0]

/-- `twoStage` after `c` frames. -/
def lapBase (c : Nat) : State Nat String :=
  { now := 40 * c
    pipeline := { twoStage 0 with
      elements :=
        [{ work := "Camera", timeStatsQueue := none,
           timed := some { milliseconds := 40, timer := { expiry := 40 * (c + 1), pending := 1 } },
           next := some 1 },
         { work := "Movement", timeStatsQueue := none, timed := none }] }
    log := lapLog c }

theorem lapLog_succ (c : Nat) : lapLog (c + 1) = lapLog c ++
    [.started 0 { id := c, data := none, applied := [] },
      .completed 0 { id := c, data := none, applied := ["Camera"] } 0 0,
      .started 1 { id := c, data := none, applied := ["Camera"] },
      .completed 1 { id := c, data := none, applied := ["Camera", "Movement"] } 0 0] := by
  rw [lapLog, List.range_succ, List.flatMap_append]
  rfl

theorem startedAt_lapBase (c : Nat) : ((lapBase c).startedAt 0).length = c := by
  induction c with
  | zero => rfl
  | succ c ih =>
    rw [State.startedAt] at ih ⊢
    show ((lapLog (c + 1)).filterMap _).length = c + 1
    rw [lapLog_succ, List.filterMap_append, List.length_append]
    exact congrArg (· + 1) ih

theorem exec_lap (c : Nat) : exec step (lapBase c) lap = some (lapBase (c + 1)) := by
  have hlen := startedAt_lapBase c
  have hdue : 40 * (c + 1) ≤ 40 * c + 40 := Nat.le_of_eq (Nat.mul_succ 40 c)
  simp only [State.startedAt, lapBase] at hlen
  simp [exec, step, lap, lapBase, State.element, WorkWrapper.due, WorkWrapper.pending,
    WorkWrapper.expiry, hdue, WorkWrapper.expire, WorkWrapper.setTimer, WorkWrapper.postTicks,
    State.modify, Pipeline.modify, State.begin, State.dataOf, State.record, emplaceTimes,
    WorkWrapper.afterNext, State.pass, WorkWrapper.scheduleWork, WorkWrapper.post,
    WorkWrapper.restart, WorkWrapper.rewait, WorkWrapper.expiresAt, WorkWrapper.asyncWait,
    WorkWrapper.milliseconds, Item.worked, lapLog_succ, State.startedAt, hlen]
  omega

/-- The run that repeats `lap`. -/
abbrev laps : Nat → State Nat String := lapped step lapBase lap

abbrev lapAct (n : Nat) : Action Nat := (lap[n % lap.length]?).getD default

theorem laps_endless : Endless step NoPause laps lapAct := by
  refine Endless.of_laps (by decide) exec_lap fun a ha s => ?_
  rintro rfl
  exact absurd ha (by decide)

theorem laps_zero : laps 0 = State.init 0 (twoStage 0) := rfl

theorem laps_fairToStrands : FairToStrands laps lapAct := by
  have hwired : ∀ n, Wired (works ("Camera", none) [("Movement", none)]) (0 < 0) (laps n) :=
    laps_endless.invariant (fun _ a _ hw _ hs => hw.step a hs)
      (launched_of_launch (launch_twoStage 0)).wired
  intro k n hbusy
  obtain ⟨w, hel, _⟩ := hbusy n (Nat.le_refl n)
  have hk : k < 2 :=
    Nat.lt_of_lt_of_eq (List.getElem?_eq_some_iff.mp hel).1 (hwired n).length
  obtain rfl | rfl : k = 0 ∨ k = 1 := by omega
  · obtain ⟨m, hm, hact⟩ := lap_recurs lap (r := 2) (by decide) n
    exact ⟨m, hm, congrArg Action.stage? hact⟩
  · obtain ⟨m, hm, hact⟩ := lap_recurs lap (r := 7) (by decide) n
    exact ⟨m, hm, congrArg Action.stage? hact⟩

theorem laps_fairToTimer : FairToTimer laps lapAct :=
  fun _ n _ => lap_recurs lap (r := 1) (by decide) n

theorem laps_timePasses : TimePasses laps := by
  intro time n
  have hlen : lap.length = 10 := rfl
  refine ⟨lap.length * (n + time), by rw [hlen]; omega, ?_⟩
  have hbase : laps (lap.length * (n + time) + 0) = lapBase (n + time) :=
    lapped_eq (by decide) rfl
  rw [Nat.add_zero] at hbase
  rw [hbase]
  show time ≤ 40 * (n + time)
  omega

/-- The first frame of that run, made in its third step. -/
theorem every_frame_gets_through_laps : ∃ m, 3 ≤ m ∧ ∀ k, k < 2 →
    ∃ it, ((laps m).completedAt k)[0]? = some it ∧ it.id = 0 ∧
      it.applied = ["Camera", "Movement"].take (k + 1) :=
  every_frame_gets_through (launch_twoStage 0) laps_zero (laps_endless.mono fun _ _ _ => trivial)
    laps_fairToStrands (by decide)

theorem frames_keep_coming_laps : ∃ m, ∀ k, k < 2 →
    ∃ it, ((laps m).completedAt k)[1000]? = some it ∧ it.id = 1000 ∧
      it.applied = ["Camera", "Movement"].take (k + 1) :=
  frames_keep_coming (launch_twoStage 0) laps_zero laps_endless laps_fairToStrands laps_fairToTimer
    laps_timePasses 1000

end Pipeline

end SecMon
