import SecMon.Pipeline.Build
import Mathlib.Data.List.Forall2

/-!
# Order, and nothing lost

The design comment of `Pipeline.h` promises that "each piece of data is
processed by each step AND that each step processes the data in order".  This
file proves it for every interleaving of the strands, of the timer and of the
thread that pauses.

`Flow` is the invariant.  At every moment the items completed at element `k`
are, in this order, the items element `k + 1` has started, those waiting in
its strand, and the one `next_` has not been given yet; and what an element
has completed is what it has started, one by one, with its own work applied
once, but for the item in work.  Only three steps move data (`run`, `finish`,
`next`); the others are timer business and leave `Flow` alone
(`Flow.congr`).
-/

namespace SecMon

namespace Pipeline

open Machine

variable {T W : Type} {ws : List W} {stats : Bool} {s s' : State T W} {k j : Nat}

/-- `it'` is `it` with the work `w` done once more. -/
def Worked (w : W) (it it' : Item T W) : Prop := ∃ data, it' = it.worked w data

/-- The data in transit. -/
structure Flow (s : State T W) : Prop where
  work : ∀ k w, s.element k = some w → ∃ done, s.startedAt k = done ++ w.inWork ∧
    List.Forall₂ (Worked w.work) done (s.completedAt k)
  pass : ∀ k w w', s.element k = some w → s.element (k + 1) = some w' →
    s.completedAt k = s.startedAt (k + 1) ++ w'.queued ++ w.toPass
  source : s.startedAt 0 =
    (List.range (s.startedAt 0).length).map fun i => { id := i, data := none, applied := [] }

/-! ### History -/

namespace State

theorem startedAt_record_started (it : Item T W) :
    (s.record (.started k it)).startedAt j =
      s.startedAt j ++ if k = j then [it] else [] := by
  by_cases h : k = j <;> simp [startedAt, record, h]

theorem startedAt_record_completed (it : Item T W) (t₀ t₁ : TimePoint) :
    (s.record (.completed k it t₀ t₁)).startedAt j = s.startedAt j := by
  simp [startedAt, record]

theorem timedAt_record_started (it : Item T W) :
    (s.record (.started k it)).timedAt j = s.timedAt j := by
  simp [timedAt, record]

theorem timedAt_record_completed (it : Item T W) (t₀ t₁ : TimePoint) :
    (s.record (.completed k it t₀ t₁)).timedAt j =
      s.timedAt j ++ if k = j then [(it, t₀, t₁)] else [] := by
  by_cases h : k = j <;> simp [timedAt, record, h]

theorem completedAt_record_started (it : Item T W) :
    (s.record (.started k it)).completedAt j = s.completedAt j := by
  rw [completedAt, timedAt_record_started, completedAt]

theorem completedAt_record_completed (it : Item T W) (t₀ t₁ : TimePoint) :
    (s.record (.completed k it t₀ t₁)).completedAt j =
      s.completedAt j ++ if k = j then [it] else [] := by
  rw [completedAt, timedAt_record_completed, List.map_append, completedAt]
  by_cases h : k = j <;> simp [h]

theorem startedAt_congr (h : s'.log = s.log) (k : Nat) : s'.startedAt k = s.startedAt k := by
  rw [startedAt, startedAt, h]

theorem completedAt_congr (h : s'.log = s.log) (k : Nat) :
    s'.completedAt k = s.completedAt k := by
  rw [completedAt, completedAt, timedAt, timedAt, h]

theorem startedAt_modify (f : WorkWrapper T W → WorkWrapper T W) :
    (s.modify k f).startedAt j = s.startedAt j := rfl

theorem completedAt_modify (f : WorkWrapper T W → WorkWrapper T W) :
    (s.modify k f).completedAt j = s.completedAt j := rfl

theorem element_of_modify {f : WorkWrapper T W → WorkWrapper T W} {w : WorkWrapper T W}
    (h : (s.modify k f).element j = some w) :
    ∃ v, s.element j = some v ∧ w = if k = j then f v else v := by
  rw [element_modify] at h
  by_cases hkj : k = j
  · rw [if_pos hkj] at h
    obtain ⟨v, hv, rfl⟩ := Option.map_eq_some_iff.mp h
    exact ⟨v, hv, (if_pos hkj).symm⟩
  · rw [if_neg hkj] at h
    exact ⟨w, h, (if_neg hkj).symm⟩

theorem element_modify_cases {f : WorkWrapper T W → WorkWrapper T W} {w w' : WorkWrapper T W}
    (hel : s.element k = some w) (h : (s.modify k f).element j = some w') :
    (k = j ∧ w' = f w) ∨ (k ≠ j ∧ s.element j = some w') := by
  obtain ⟨v, hv, rfl⟩ := element_of_modify h
  by_cases hkj : k = j
  · subst hkj
    obtain rfl := Option.some.inj (hel.symm.trans hv)
    exact .inl ⟨rfl, if_pos rfl⟩
  · rw [if_neg hkj]
    exact .inr ⟨hkj, hv⟩

end State

/-- What taking a handler does: an aborted tick is dropped, any other handler
starts work on its item. -/
theorem run_cases {t : TimePoint} (h : step s (.run k t) = some s') :
    ∃ w x rest, s.element k = some w ∧ w.activity = none ∧ w.strand = x :: rest ∧
      ((s.dataOf x = none ∧ s' = s.modify k fun w => { w with strand := rest }) ∨
        ∃ data, s.dataOf x = some data ∧
          s' = (s.modify k fun w =>
              { w with strand := rest, activity := some (.working data t) }).record
            (.started k data)) := by
  obtain ⟨w, x, rest, hw, hact, hstrand, rfl⟩ := step_run.mp h
  refine ⟨w, x, rest, hw, hact, hstrand, ?_⟩
  have hd : (s.modify k fun w => { w with strand := rest }).dataOf x = s.dataOf x := by
    cases x with
    | tick ec => cases ec <;> rfl
    | work data => rfl
  rw [State.begin, hd]
  cases hx : s.dataOf x with
  | none => exact .inl ⟨rfl, rfl⟩
  | some data =>
    refine .inr ⟨data, rfl, ?_⟩
    simp [State.modify, Pipeline.modify, State.record, List.modify_modify_eq, Function.comp_def]

/-! ### Steps that move no data -/

/-- Two views of an element that agree about its data. -/
structure SameData (w w' : WorkWrapper T W) : Prop where
  work : w'.work = w.work
  queued : w'.queued = w.queued
  inWork : w'.inWork = w.inWork
  toPass : w'.toPass = w.toPass

theorem SameData.refl (w : WorkWrapper T W) : SameData w w := ⟨rfl, rfl, rfl, rfl⟩

theorem SameData.of_timerOp {w w' : WorkWrapper T W} (h : TimerOp w w') : SameData w w' :=
  ⟨h.work, h.queued, h.inWork, h.toPass⟩

theorem Flow.congr (h : Flow s) (hlog : s'.log = s.log)
    (hel : ∀ k w', s'.element k = some w' → ∃ w, s.element k = some w ∧ SameData w w') :
    Flow s' := by
  refine ⟨fun k w' hw' => ?_, fun k v' w' hv' hw' => ?_, ?_⟩
  · obtain ⟨w, hw, hd⟩ := hel k w' hw'
    rw [State.startedAt_congr hlog, State.completedAt_congr hlog, hd.inWork, hd.work]
    exact h.work k w hw
  · obtain ⟨v, hv, hdv⟩ := hel k v' hv'
    obtain ⟨w, hw, hdw⟩ := hel (k + 1) w' hw'
    rw [State.startedAt_congr hlog, State.completedAt_congr hlog, hdw.queued, hdv.toPass]
    exact h.pass k v w hv hw
  · rw [State.startedAt_congr hlog]
    exact h.source

theorem Flow.modify (h : Flow s) {f : WorkWrapper T W → WorkWrapper T W}
    (hf : ∀ w, s.element k = some w → SameData w (f w)) : Flow (s.modify k f) := by
  refine h.congr rfl fun j w' hw' => ?_
  obtain ⟨v, hv, rfl⟩ := State.element_of_modify hw'
  refine ⟨v, hv, ?_⟩
  by_cases hkj : k = j
  · subst hkj
    rw [if_pos rfl]
    exact hf v hv
  · rw [if_neg hkj]
    exact .refl v

theorem Flow.modify_at (h : Flow s) {f : WorkWrapper T W → WorkWrapper T W}
    {w : WorkWrapper T W} (hel : s.element k = some w) (hd : SameData w (f w)) :
    Flow (s.modify k f) := by
  refine h.modify fun v hv => ?_
  obtain rfl := Option.some.inj (hel.symm.trans hv)
  exact hd

/-- Neither the clock, nor the caller, nor what was printed carries data. -/
theorem Flow.elements (h : Flow s) (hlog : s'.log = s.log)
    (he : s'.pipeline.elements = s.pipeline.elements) : Flow s' :=
  h.congr hlog fun k w' hw' => ⟨w', by rw [State.element, ← he]; exact hw', .refl w'⟩

/-! ### Steps that move data -/

/-- What a handler in a placed element carries: a tick for the source, data
for the others. -/
theorem Placed.handler {w : WorkWrapper T W} {x : Handler T W} (h : Placed ws stats k w)
    (hx : x ∈ w.strand) : (k = 0 ∧ x.data? = none) ∨ (k ≠ 0 ∧ ∃ it, x = .work it) := by
  have hk := h.strand x hx
  cases x with
  | tick ec => exact .inl ⟨of_decide_eq_true hk.symm, rfl⟩
  | work it => exact .inr ⟨of_decide_eq_false hk.symm, it, rfl⟩

/-- What it begins to work on: a new item at the source, what was posted
elsewhere. -/
theorem Placed.dataOf {w : WorkWrapper T W} {x : Handler T W} {rest : List (Handler T W)}
    {data : Item T W} (h : Placed ws stats k w) (hstrand : w.strand = x :: rest)
    (hx : s.dataOf x = some data) :
    (k = 0 ∧ x = .tick .success ∧
      data = { id := (s.startedAt 0).length, data := none, applied := [] }) ∨
    (k ≠ 0 ∧ x = .work data) := by
  have hmem : x ∈ w.strand := by
    rw [hstrand]
    exact List.mem_cons_self
  rcases h.handler hmem with ⟨hk, hd⟩ | ⟨hk, it, rfl⟩
  · cases x with
    | tick ec =>
      cases ec with
      | success => exact .inl ⟨hk, rfl, (Option.some.inj hx).symm⟩
      | operationAborted => simp [State.dataOf] at hx
    | work it => simp [Handler.data?] at hd
  · exact .inr ⟨hk, congrArg _ (Option.some.inj hx)⟩

theorem Flow.run (h : Flow s) (hw : Wired ws stats s) {t : TimePoint}
    (hs : step s (.run k t) = some s') : Flow s' := by
  obtain ⟨w, x, rest, hel, hact, hstrand, ⟨hx, rfl⟩ | ⟨data, hx, rfl⟩⟩ := run_cases hs
  · -- an aborted tick leaves the strand
    refine h.modify_at hel ⟨rfl, ?_, rfl, rfl⟩
    cases x with
    | tick ec => rw [WorkWrapper.queued, WorkWrapper.queued, hstrand]; rfl
    | work it => simp [State.dataOf] at hx
  · have hin : w.inWork = [] := by rw [WorkWrapper.inWork, hact]
    have hto : w.toPass = [] := by rw [WorkWrapper.toPass, hact]
    refine ⟨fun j w' hw' => ?_, fun j v' w' hv' hw' => ?_, ?_⟩
    · -- the item is in work now
      rw [State.startedAt_record_started, State.completedAt_record_started]
      rcases State.element_modify_cases hel hw' with ⟨rfl, rfl⟩ | ⟨hkj, hv⟩
      · obtain ⟨done, hst, hdone⟩ := h.work k w hel
        rw [if_pos rfl]
        refine ⟨done, ?_, hdone⟩
        show s.startedAt k ++ [data] = done ++ [data]
        rw [hst, hin, List.append_nil]
      · rw [if_neg hkj, List.append_nil]
        exact h.work j w' hv
    · rw [State.startedAt_record_started, State.completedAt_record_started]
      rcases State.element_modify_cases hel hw' with ⟨rfl, rfl⟩ | ⟨hkj, hu⟩
      · -- it has left the front of the strand, so it is still next in line
        rcases State.element_modify_cases hel hv' with ⟨hkj, -⟩ | ⟨-, hv⟩
        · omega
        rcases (hw.placed _ w hel).dataOf hstrand hx with ⟨h0, _⟩ | ⟨_, rfl⟩
        · omega
        have hq : w.queued = data :: rest.filterMap Handler.data? := by
          rw [WorkWrapper.queued, hstrand]
          rfl
        rw [if_pos rfl, State.completedAt_modify, State.startedAt_modify, h.pass j v' w hv hel, hq]
        simp [WorkWrapper.queued]
      · rw [if_neg hkj, List.append_nil]
        rcases State.element_modify_cases hel hv' with ⟨rfl, rfl⟩ | ⟨-, hv⟩
        · have hpass := h.pass k w w' hel hu
          rw [hto] at hpass
          exact hpass
        · exact h.pass j v' w' hv hu
    · -- a tick makes the next item
      rw [State.startedAt_record_started]
      by_cases hk : k = 0
      · subst hk
        rw [if_pos rfl]
        rcases (hw.placed _ w hel).dataOf hstrand hx with ⟨_, _, hdata⟩ | ⟨h0, _⟩
        · rw [hdata, State.startedAt_modify, List.length_append, List.length_singleton,
            List.range_succ, List.map_append, ← h.source]
          rfl
        · exact absurd rfl h0
      · rw [if_neg hk, List.append_nil]
        exact h.source

theorem Flow.finish (h : Flow s) {data : Option T} {t : TimePoint}
    (hs : step s (.finish k data t) = some s') : Flow s' := by
  obtain ⟨w, it, t₀, hel, hact, rfl⟩ := step_finish.mp hs
  have hin : w.inWork = [it] := by rw [WorkWrapper.inWork, hact]
  have hto : w.toPass = [] := by rw [WorkWrapper.toPass, hact]
  -- the queues of times are none of the elements
  have hel' : State.element { s with
      pipeline := emplaceTimes w.timeStatsQueue (t₀, t) s.pipeline } k = some w := by
    rw [State.element, emplaceTimes_elements]
    exact hel
  have hold : ∀ {j : Nat} {v : WorkWrapper T W}, State.element { s with
      pipeline := emplaceTimes w.timeStatsQueue (t₀, t) s.pipeline } j = some v →
      s.element j = some v := by
    intro j v hv
    rwa [State.element, emplaceTimes_elements] at hv
  refine ⟨fun j w' hw' => ?_, fun j v' w' hv' hw' => ?_, ?_⟩
  · rw [State.startedAt_record_completed, State.completedAt_record_completed]
    rcases State.element_modify_cases hel' hw' with ⟨rfl, rfl⟩ | ⟨hkj, hv⟩
    · obtain ⟨done, hst, hdone⟩ := h.work k w hel
      rw [if_pos rfl]
      refine ⟨done ++ [it], ?_, List.rel_append hdone (.cons ⟨data, rfl⟩ .nil)⟩
      show s.startedAt k = done ++ [it] ++ []
      rw [hst, hin, List.append_nil]
    · rw [if_neg hkj, List.append_nil]
      exact h.work j w' (hold hv)
  · rw [State.startedAt_record_completed, State.completedAt_record_completed]
    rcases State.element_modify_cases hel' hv' with ⟨rfl, rfl⟩ | ⟨hkj, hv⟩
    · rcases State.element_modify_cases hel' hw' with ⟨hk, -⟩ | ⟨-, hu⟩
      · omega
      have hpass := h.pass k w w' hel (hold hu)
      rw [hto, List.append_nil] at hpass
      rw [if_pos rfl, State.completedAt_modify, State.startedAt_modify]
      show s.completedAt k ++ _ = s.startedAt (k + 1) ++ w'.queued ++ [_]
      rw [hpass]
    · rw [if_neg hkj, List.append_nil]
      rcases State.element_modify_cases hel' hw' with ⟨rfl, rfl⟩ | ⟨-, hu⟩
      · exact h.pass j v' w (hold hv) hel
      · exact h.pass j v' w' (hold hv) (hold hu)
  · rw [State.startedAt_record_completed]
    exact h.source

/-- An element after `next_`: the one that passed its item on, the one that got
it, or another. -/
theorem element_next (hw : Wired ws stats s) {w : WorkWrapper T W} (hel : s.element k = some w)
    (it : Item T W) {j : Nat} {w' : WorkWrapper T W}
    (hw' : ((s.modify k WorkWrapper.afterNext).pass w.next it).element j = some w') :
    ∃ v, s.element j = some v ∧ w' = if j = k then v.afterNext
      else if j = k + 1 then v.post (.work it) else v := by
  have hnext := (hw.placed k w hel).next
  by_cases hk1 : k + 1 < ws.length
  · rw [hnext, if_pos hk1, State.pass] at hw'
    obtain ⟨u, hu, rfl⟩ := State.element_of_modify hw'
    obtain ⟨v, hv, rfl⟩ := State.element_of_modify hu
    refine ⟨v, hv, ?_⟩
    by_cases hjk : j = k
    · rw [if_pos hjk, if_neg (by omega), if_pos hjk.symm]
    · rw [if_neg hjk, if_neg (Ne.symm hjk)]
      by_cases hj1 : j = k + 1
      · rw [if_pos hj1, if_pos hj1.symm, (hw.placed j v hv).scheduleWork (by omega)]
      · rw [if_neg hj1, if_neg (Ne.symm hj1)]
  · rw [hnext, if_neg hk1, State.pass] at hw'
    obtain ⟨v, hv, rfl⟩ := State.element_of_modify hw'
    refine ⟨v, hv, ?_⟩
    by_cases hjk : j = k
    · rw [if_pos hjk.symm, if_pos hjk]
    · rw [if_neg (Ne.symm hjk), if_neg hjk]
      have hjl : j < ws.length := (List.getElem?_eq_some_iff.mp (hw.placed j v hv).work).1
      rw [if_neg (by omega)]

theorem Flow.next (h : Flow s) (hw : Wired ws stats s) (hs : step s (.next k) = some s') :
    Flow s' := by
  obtain ⟨w, it, hel, hact, rfl⟩ := step_next.mp hs
  have hin : w.inWork = [] := by rw [WorkWrapper.inWork, hact]
  have hto : w.toPass = [it] := by rw [WorkWrapper.toPass, hact]
  have hafter : ∀ v : WorkWrapper T W, v.afterNext.inWork = [] ∧ v.afterNext.toPass = [] := by
    intro v
    by_cases ht : v.timed.isSome = true <;>
      simp [WorkWrapper.afterNext, WorkWrapper.inWork, WorkWrapper.toPass, ht]
  have hlog : ((s.modify k WorkWrapper.afterNext).pass w.next it).log = s.log := by
    cases w.next <;> rfl
  refine ⟨fun j w' hw' => ?_, fun j v' w' hv' hw' => ?_, ?_⟩
  · rw [State.startedAt_congr hlog, State.completedAt_congr hlog]
    obtain ⟨v, hv, rfl⟩ := element_next hw hel it hw'
    have hwork := h.work j v hv
    by_cases hjk : j = k
    · subst hjk
      obtain rfl : w = v := Option.some.inj (hel.symm.trans hv)
      rw [if_pos rfl, (hafter w).1, ← hin]
      exact hwork
    · rw [if_neg hjk]
      split
      · exact hwork
      · exact hwork
  · rw [State.startedAt_congr hlog, State.completedAt_congr hlog]
    obtain ⟨v, hv, rfl⟩ := element_next hw hel it hv'
    obtain ⟨u, hu, rfl⟩ := element_next hw hel it hw'
    have hpass := h.pass j v u hv hu
    by_cases hjk : j = k
    · subst hjk
      obtain rfl : w = v := Option.some.inj (hel.symm.trans hv)
      rw [if_neg (by omega), if_pos rfl, if_pos rfl, (hafter w).2, hpass, hto]
      simp [WorkWrapper.queued, WorkWrapper.post, Handler.data?]
    · have hleft : (if j = k then v.afterNext else if j = k + 1 then v.post (.work it)
          else v).toPass = v.toPass := by
        rw [if_neg hjk]
        split <;> rfl
      have hright : (if j + 1 = k then u.afterNext else if j + 1 = k + 1 then u.post (.work it)
          else u).queued = u.queued := by
        split
        · rfl
        · rw [if_neg (by omega)]
      rw [hleft, hright]
      exact hpass
  · rw [State.startedAt_congr hlog]
    exact h.source

/-! ### Whole runs -/

theorem Flow.timerOp (h : Flow s) {f : WorkWrapper T W → WorkWrapper T W}
    (hf : ∀ w, TimerOp w (f w)) : Flow (s.modify k f) :=
  h.modify fun w _ => .of_timerOp (hf w)

/-- **No step loses, duplicates or reorders data.** -/
theorem Flow.step (h : Flow s) (hw : Wired ws stats s) (a : Action T)
    (hs : step s a = some s') : Flow s' := by
  cases a with
  | elapse d =>
    rw [Pipeline.step, Option.some.injEq] at hs
    exact h.elements (by rw [← hs]) (by rw [← hs])
  | expire k =>
    obtain ⟨w, _, _, rfl⟩ := step_expire.mp hs
    exact h.timerOp TimerOp.expire
  | run k t => exact h.run hw hs
  | finish k data t => exact h.finish hs
  | next k => exact h.next hw hs
  | restart k =>
    obtain ⟨w, hel, hact, rfl⟩ := step_restart.mp hs
    exact h.modify_at hel ⟨rfl, (TimerOp.expiresAt _ w).queued,
      by simp [WorkWrapper.restart, WorkWrapper.inWork, hact],
      by simp [WorkWrapper.restart, WorkWrapper.toPass, hact]⟩
  | rewait k =>
    obtain ⟨w, hel, hact, rfl⟩ := step_rewait.mp hs
    exact h.modify_at hel ⟨rfl, (TimerOp.asyncWait w).queued,
      by simp [WorkWrapper.rewait, WorkWrapper.inWork, hact],
      by simp [WorkWrapper.rewait, WorkWrapper.toPass, hact]⟩
  | pauseCall =>
    obtain ⟨w, _, _, _, ⟨_, rfl⟩ | ⟨_, rfl⟩⟩ := step_pauseCall.mp hs
    · exact (h.timerOp fun w => TimerOp.expiresAt (s.now + w.milliseconds) w).elements rfl rfl
    · exact (h.timerOp TimerOp.cancel).elements rfl rfl
  | pauseWait =>
    obtain ⟨_, rfl⟩ := step_pauseWait.mp hs
    exact (h.timerOp TimerOp.asyncWait).elements rfl rfl
  | pauseReturn =>
    obtain ⟨_, rfl⟩ := step_pauseReturn.mp hs
    exact (h.timerOp fun w => TimerOp.setPaused (!w.paused) w).elements rfl rfl
  | changeTimer ms =>
    obtain ⟨_, p, hp, rfl⟩ := step_changeTimer.mp hs
    rw [changeTimer_ok hp]
    exact (h.timerOp (TimerOp.setInterval ms)).elements rfl rfl
  | collect start stop =>
    simp only [Pipeline.step] at hs
    split at hs
    · rw [Option.some.injEq] at hs
      exact h.elements (by rw [← hs]) (by rw [← hs]; rfl)
    · simp at hs

theorem Launched.flow {si : Nat} (h : Launched ws si s) : Flow s := by
  have hst : ∀ k, s.startedAt k = [] := fun k => by rw [State.startedAt, h.log]; rfl
  have hco : ∀ k, s.completedAt k = [] := fun k => by
    rw [State.completedAt, State.timedAt, h.log]; rfl
  refine ⟨fun k w hw => ?_, fun k v w hv hw => ?_, ?_⟩
  · have hact := (h.quiet k w hw).2.1
    refine ⟨[], ?_, ?_⟩
    · rw [hst, WorkWrapper.inWork, hact, List.append_nil]
    · rw [hco]
      exact .nil
  · have hact := (h.quiet k v hv).2.1
    have hstrand := (h.quiet (k + 1) w hw).1
    rw [hco, hst, WorkWrapper.queued, hstrand, WorkWrapper.toPass, hact]
    rfl
  · rw [hst]
    rfl

/-- Wiring and flow of every state a started pipeline reaches. -/
theorem Launched.reach {si : Nat} (h : Launched ws si s) {as : List (Action T)}
    (hrun : Steps step anyStep s as s') : Wired ws (0 < si) s' ∧ Flow s' :=
  hrun.invariant (P := fun s => Wired ws (0 < si) s ∧ Flow s)
    (fun _ a _ hp _ hs => ⟨hp.1.step a hs, hp.2.step hp.1 a hs⟩) ⟨h.wired, h.flow⟩

/-- What has been worked on in order has been worked on as often. -/
theorem applied_of_worked {w : W} {n : Nat} (hn : ws[n]? = some w) :
    ∀ {done done' : List (Item T W)}, List.Forall₂ (Worked w) done done' →
      (∀ it ∈ done, it.applied = ws.take n) → ∀ it ∈ done', it.applied = ws.take (n + 1) := by
  intro done done' h
  induction h with
  | nil => intro _ it hit; simp at hit
  | @cons a b l l' hab _ ih =>
    intro hall it hit
    obtain ⟨data, rfl⟩ := hab
    rcases List.mem_cons.mp hit with rfl | hit
    · show a.applied ++ [w] = _
      rw [hall a List.mem_cons_self, List.take_add_one, hn]
      rfl
    · exact ih (fun x hx => hall x (List.mem_cons_of_mem a hx)) it hit

theorem id_of_worked {w : W} {done done' : List (Item T W)}
    (h : List.Forall₂ (Worked w) done done') : done'.map Item.id = done.map Item.id := by
  induction h with
  | nil => rfl
  | @cons a b l l' hab _ ih =>
    obtain ⟨data, rfl⟩ := hab
    rw [List.map_cons, List.map_cons, ih]
    rfl

/-- What `Pipeline.h` promises of a pipeline with the works `ws`. -/
structure InOrder (ws : List W) (s : State T W) : Prop where
  /-- there is one element for each work -/
  elements : s.pipeline.elements.length = ws.length
  /-- an element starts what its predecessor has completed, in that order -/
  fifo : ∀ k, k + 1 < ws.length → s.startedAt (k + 1) <+: s.completedAt k
  /-- and what it has not started yet is waiting for it -/
  kept : ∀ k w w', s.element k = some w → s.element (k + 1) = some w' →
    s.completedAt k = s.startedAt (k + 1) ++ w'.queued ++ w.toPass
  /-- an element completes what it starts, in that order -/
  served : ∀ k, k < ws.length →
    (s.completedAt k).map Item.id <+: (s.startedAt k).map Item.id
  /-- at most one item is in work -/
  single : ∀ k, k < ws.length → (s.startedAt k).length ≤ (s.completedAt k).length + 1
  /-- an item that reaches element `k` has had the works before it done, once each, in order -/
  applied : ∀ k, k < ws.length → ∀ it ∈ s.startedAt k, it.applied = ws.take k
  /-- the items are the ticks, each once -/
  ticks : (s.startedAt 0).map Item.id = List.range (s.startedAt 0).length

theorem inWork_length_le (w : WorkWrapper T W) : w.inWork.length ≤ 1 := by
  rw [WorkWrapper.inWork]
  split <;> simp

theorem Flow.inOrder (h : Flow s) (hw : Wired ws stats s) : InOrder ws s := by
  have hel : ∀ k, k < ws.length → ∃ w, s.element k = some w := fun k hk =>
    ⟨_, List.getElem?_eq_getElem (hw.length ▸ hk)⟩
  have hfifo : ∀ k, k + 1 < ws.length → s.startedAt (k + 1) <+: s.completedAt k := by
    intro k hk
    obtain ⟨w, hk0⟩ := hel k (by omega)
    obtain ⟨w', hk1⟩ := hel (k + 1) hk
    rw [h.pass k w w' hk0 hk1, List.append_assoc]
    exact List.prefix_append _ _
  refine ⟨hw.length, hfifo, h.pass, fun k hk => ?_, fun k hk => ?_, fun k => ?_, ?_⟩
  · obtain ⟨w, hk0⟩ := hel k hk
    obtain ⟨done, hst, hdone⟩ := h.work k w hk0
    rw [hst, id_of_worked hdone, List.map_append]
    exact List.prefix_append _ _
  · obtain ⟨w, hk0⟩ := hel k hk
    obtain ⟨done, hst, hdone⟩ := h.work k w hk0
    rw [hst, List.length_append, hdone.length_eq]
    exact Nat.add_le_add_left (inWork_length_le w) _
  · induction k with
    | zero =>
      intro _ it hit
      rw [h.source] at hit
      obtain ⟨i, _, rfl⟩ := List.mem_map.mp hit
      rfl
    | succ k ih =>
      intro hk it hit
      obtain ⟨w, hk0⟩ := hel k (by omega)
      obtain ⟨done, hst, hdone⟩ := h.work k w hk0
      refine applied_of_worked (hw.placed k w hk0).work hdone (fun x hx => ?_) it
        ((hfifo k hk).subset hit)
      exact ih (by omega) x (hst ▸ List.mem_append_left _ hx)
  · have hs := congrArg (List.map Item.id) h.source
    rw [List.map_map] at hs
    exact hs.trans (List.map_id' _)

/-- **Order and no loss.**  A pipeline of one timed element and any number of
further ones, compiled and started, keeps the promise of `Pipeline.h` in every
state of every interleaving. -/
theorem order_and_no_loss {si : Nat} {interval : Int} {source : W × Option String}
    {rest : List (W × Option String)} {now : Nat} {t : TimePoint} {p : Pipeline T W}
    (h : launch si interval source rest now t = .ok p) {as : List (Action T)} {s : State T W}
    (hrun : exec step (State.init now p) as = some s) : InOrder (works source rest) s := by
  obtain ⟨hw, hf⟩ := (launched_of_launch h).reach (steps_iff_exec.mpr hrun)
  exact hf.inOrder hw

/-- Two frames: the second tick is in work at the source while the first item
is in work behind it. -/
theorem order_and_no_loss_two_frames :
    ∃ s, exec step (State.init 0 (twoStage 0))
        [.elapse 40, .expire 0, .run 0 1, .finish 0 (some 7) 2, .next 0, .restart 0, .rewait 0,
          .elapse 40, .expire 0, .run 0 3, .run 1 4] = some s ∧
      InOrder ["Camera", "Movement"] s := by
  obtain ⟨s, hs⟩ := Option.isSome_iff_exists.mp (show (exec step (State.init 0 (twoStage 0))
    [.elapse 40, .expire 0, .run 0 1, .finish 0 (some 7) 2, .next 0, .restart 0, .rewait 0,
      .elapse 40, .expire 0, .run 0 3, .run 1 4]).isSome = true by decide)
  exact ⟨s, hs, order_and_no_loss (launch_twoStage 0) hs⟩

end Pipeline

end SecMon
