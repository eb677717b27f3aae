import SecMon.Pipeline.Run

/-!
# Wiring

What `compile` builds, and what no step changes about it.

* `TimerOp` is what every call on a timer does to an element: it may put tick
  handlers into the strand of a timed element and otherwise touches the timer
  only.
* `Placed` is what is fixed about element `k` of a pipeline built from the
  works `ws`: its work, its link to element `k + 1`, its queue of times, and
  that ticks go to element `0` and data to the others.
* `Wired` says every element is placed.  `Launched.wired`: it holds of every
  pipeline built, compiled and started; `Wired.step`: every step keeps it.
-/

namespace SecMon

variable {T W : Type}

/-- The data in a handler; a tick has none. -/
def Handler.data? : Handler T W → Option (Item T W)
  | .tick _ => none
  | .work data => some data

namespace WorkWrapper

/-- The items waiting in the strand, oldest first. -/
def queued (w : WorkWrapper T W) : List (Item T W) := w.strand.filterMap Handler.data?

/-- The item in work, if any. -/
def inWork (w : WorkWrapper T W) : List (Item T W) :=
  match w.activity with
  | some (.working data _) => [data]
  | _ => []

/-- The item whose work is done and which `next_` has not been given yet. -/
def toPass (w : WorkWrapper T W) : List (Item T W) :=
  match w.activity with
  | some (.worked data) => [data]
  | _ => []

/-- Whether the element is inside `restart_timer`. -/
def inRestart (w : WorkWrapper T W) : Bool :=
  match w.activity with
  | some .restarting | some .rewaiting => true
  | _ => false

end WorkWrapper

/-! ### Timer business -/

/-- What a call on an element's timer may change. -/
structure TimerOp (w w' : WorkWrapper T W) : Prop where
  work : w'.work = w.work
  next : w'.next = w.next
  queue : w'.timeStatsQueue = w.timeStatsQueue
  activity : w'.activity = w.activity
  timed : w'.timed.isSome = w.timed.isSome
  strand : ∃ ts : List (Handler T W), w'.strand = w.strand ++ ts ∧
    ∀ h ∈ ts, w.timed.isSome = true ∧ h.data? = none

namespace TimerOp

variable {w w' w'' : WorkWrapper T W}

theorem trans (h : TimerOp w w') (g : TimerOp w' w'') : TimerOp w w'' := by
  obtain ⟨ts, hts, hall⟩ := h.strand
  obtain ⟨us, hus, gall⟩ := g.strand
  refine ⟨g.work.trans h.work, g.next.trans h.next, g.queue.trans h.queue,
    g.activity.trans h.activity, g.timed.trans h.timed, ts ++ us, ?_, ?_⟩
  · rw [hus, hts, List.append_assoc]
  · intro x hx
    rcases List.mem_append.mp hx with hx | hx
    · exact hall x hx
    · exact ⟨h.timed ▸ (gall x hx).1, (gall x hx).2⟩

theorem setTimer (f : SteadyTimer → SteadyTimer) (w : WorkWrapper T W) :
    TimerOp w (w.setTimer f) :=
  ⟨rfl, rfl, rfl, rfl, by simp [WorkWrapper.setTimer], [], by simp [WorkWrapper.setTimer], by simp⟩

theorem setPaused (b : Bool) (w : WorkWrapper T W) : TimerOp w (w.setPaused b) :=
  ⟨rfl, rfl, rfl, rfl, by simp [WorkWrapper.setPaused], [], by simp [WorkWrapper.setPaused],
    by simp⟩

theorem setInterval (ms : Nat) (w : WorkWrapper T W) : TimerOp w (w.setInterval ms) :=
  ⟨rfl, rfl, rfl, rfl, by simp [WorkWrapper.setInterval], [],
    by simp [WorkWrapper.setInterval], by simp⟩

/-- Ticks are put into the strand of a timed element only, since only a timer
has waits. -/
theorem postTicks (ec : ErrorCode) (w v : WorkWrapper T W) (hv : v.timed.isSome = w.timed.isSome) :
    TimerOp v (v.postTicks ec w.pending) := by
  refine ⟨rfl, rfl, rfl, rfl, rfl, List.replicate w.pending (.tick ec), rfl, ?_⟩
  intro h hh
  obtain ⟨hne, rfl⟩ := List.mem_replicate.mp hh
  refine ⟨?_, rfl⟩
  rw [hv]
  cases ht : w.timed with
  | none => rw [WorkWrapper.pending, ht] at hne; simp at hne
  | some t => rfl

theorem cancel (w : WorkWrapper T W) : TimerOp w w.cancel :=
  (setTimer _ w).trans (postTicks _ w _ (setTimer _ w).timed)

theorem expiresAt (e : Nat) (w : WorkWrapper T W) : TimerOp w (w.expiresAt e) :=
  (setTimer _ w).trans (postTicks _ w _ (setTimer _ w).timed)

theorem expire (w : WorkWrapper T W) : TimerOp w w.expire :=
  (setTimer _ w).trans (postTicks _ w _ (setTimer _ w).timed)

theorem asyncWait (w : WorkWrapper T W) : TimerOp w w.asyncWait := setTimer _ w

theorem startTimer (now : Nat) (w : WorkWrapper T W) : TimerOp w (w.startTimer now) :=
  (expiresAt _ w).trans (asyncWait _)

theorem queued (h : TimerOp w w') : w'.queued = w.queued := by
  obtain ⟨ts, hts, hall⟩ := h.strand
  have hnil : ts.filterMap Handler.data? = [] :=
    List.filterMap_eq_nil_iff.mpr fun x hx => (hall x hx).2
  rw [WorkWrapper.queued, hts, List.filterMap_append, hnil, List.append_nil]
  rfl

theorem inWork (h : TimerOp w w') : w'.inWork = w.inWork := by
  rw [WorkWrapper.inWork, WorkWrapper.inWork, h.activity]

theorem toPass (h : TimerOp w w') : w'.toPass = w.toPass := by
  rw [WorkWrapper.toPass, WorkWrapper.toPass, h.activity]

end TimerOp

namespace Pipeline

/-! ### One element -/

/-- What is fixed about element `k` of a pipeline built from the works `ws`. -/
structure Placed (ws : List W) (stats : Bool) (k : Nat) (w : WorkWrapper T W) : Prop where
  work : ws[k]? = some w.work
  next : w.next = if k + 1 < ws.length then some (k + 1) else none
  queue : w.timeStatsQueue = if stats then some k else none
  timed : w.timed.isSome = decide (k = 0)
  /-- ticks are for the timed element, data for the others -/
  strand : ∀ h ∈ w.strand, h.data?.isNone = decide (k = 0)
  restart : w.inRestart = true → k = 0

variable {ws : List W} {stats : Bool} {k : Nat} {w w' : WorkWrapper T W}

theorem Placed.next_ne_zero (h : Placed ws stats k w) {j : Nat} (hj : w.next = some j) :
    j ≠ 0 := by
  rw [h.next] at hj
  split at hj
  · rw [← Option.some.inj hj]
    omega
  · simp at hj

theorem Placed.timerOp (h : Placed ws stats k w) (g : TimerOp w w') : Placed ws stats k w' := by
  refine ⟨g.work ▸ h.work, g.next ▸ h.next, g.queue ▸ h.queue, g.timed ▸ h.timed, ?_, ?_⟩
  · obtain ⟨ts, hts, hall⟩ := g.strand
    intro x hx
    rw [hts] at hx
    rcases List.mem_append.mp hx with hx | hx
    · exact h.strand x hx
    · have hk : w.timed.isSome = true := (hall x hx).1
      rw [h.timed] at hk
      rw [(hall x hx).2, hk]
      rfl
  · rw [WorkWrapper.inRestart, g.activity]
    exact h.restart

theorem Placed.activity (h : Placed ws stats k w) (a : Option (Activity T W))
    (ha : ({ w with activity := a } : WorkWrapper T W).inRestart = true → k = 0) :
    Placed ws stats k { w with activity := a } :=
  ⟨h.work, h.next, h.queue, h.timed, h.strand, ha⟩

theorem Placed.tail (h : Placed ws stats k w) {x : Handler T W} {rest : List (Handler T W)}
    (hs : w.strand = x :: rest) : Placed ws stats k { w with strand := rest } :=
  ⟨h.work, h.next, h.queue, h.timed,
    fun y hy => h.strand y (by rw [hs]; exact List.mem_cons_of_mem x hy), h.restart⟩

theorem Placed.post (h : Placed ws stats k w) (hk : k ≠ 0) (data : Item T W) :
    Placed ws stats k (w.post (.work data)) := by
  refine ⟨h.work, h.next, h.queue, h.timed, ?_, h.restart⟩
  intro y hy
  rcases List.mem_append.mp hy with hy | hy
  · exact h.strand y hy
  · rw [List.mem_singleton.mp hy]
    simp [Handler.data?, hk]

theorem Placed.scheduleWork (h : Placed ws stats k w) (hk : k ≠ 0) (now : Nat)
    (data : Item T W) : w.scheduleWork now data = w.post (.work data) := by
  rw [WorkWrapper.scheduleWork, h.timed]
  simp [hk]

/-! ### The state -/

namespace State

variable {s s' : State T W} {j : Nat} {f : WorkWrapper T W → WorkWrapper T W}

theorem element_modify : (s.modify j f).element k =
    if j = k then (s.element k).map f else s.element k := by
  rw [element, modify, Pipeline.modify, List.getElem?_modify]
  by_cases h : j = k <;> simp [h, element]

theorem element_modify_self : (s.modify k f).element k = (s.element k).map f := by
  rw [element_modify, if_pos rfl]

theorem element_modify_ne (h : j ≠ k) : (s.modify j f).element k = s.element k := by
  rw [element_modify, if_neg h]

@[simp] theorem length_modify :
    (s.modify j f).pipeline.elements.length = s.pipeline.elements.length := by
  simp [modify, Pipeline.modify]

end State

/-- Every element is placed. -/
structure Wired (ws : List W) (stats : Bool) (s : State T W) : Prop where
  length : s.pipeline.elements.length = ws.length
  placed : ∀ k w, s.element k = some w → Placed ws stats k w

variable {s s' : State T W}

theorem Wired.modify (h : Wired ws stats s) (f : WorkWrapper T W → WorkWrapper T W)
    (hf : ∀ w, s.element k = some w → Placed ws stats k (f w)) :
    Wired ws stats (s.modify k f) := by
  refine ⟨State.length_modify.trans h.length, fun j w hw => ?_⟩
  rw [State.element_modify] at hw
  by_cases hkj : k = j
  · subst hkj
    rw [if_pos rfl] at hw
    obtain ⟨v, hv, rfl⟩ := Option.map_eq_some_iff.mp hw
    exact hf v hv
  · rw [if_neg hkj] at hw
    exact h.placed j w hw

theorem Wired.timerOp (h : Wired ws stats s) (f : WorkWrapper T W → WorkWrapper T W)
    (hf : ∀ w, TimerOp w (f w)) : Wired ws stats (s.modify k f) :=
  h.modify f fun w hw => (h.placed k w hw).timerOp (hf w)

theorem Wired.congr (h : Wired ws stats s)
    (he : s'.pipeline.elements = s.pipeline.elements) : Wired ws stats s' :=
  ⟨he ▸ h.length, fun k w hw => h.placed k w (by rw [State.element, ← he]; exact hw)⟩

theorem emplaceTimes_elements (queue : Option Nat) (times : TimePoint × TimePoint)
    (p : Pipeline T W) : (emplaceTimes queue times p).elements = p.elements := by
  cases queue <;> rfl

theorem Wired.begin (h : Wired ws stats s) (t : TimePoint) (x : Handler T W) :
    Wired ws stats (s.begin k t x) := by
  rw [State.begin]
  split
  · exact h
  · exact (h.modify _ fun w hw => (h.placed k w hw).activity _ (by simp [WorkWrapper.inRestart])).congr
      rfl

theorem Wired.pass (h : Wired ws stats s) {next : Option Nat} (data : Item T W)
    (hn : ∀ j, next = some j → j ≠ 0) : Wired ws stats (s.pass next data) := by
  cases next with
  | none => exact h
  | some j =>
    have hj : j ≠ 0 := hn j rfl
    refine h.modify _ fun w hw => ?_
    rw [(h.placed j w hw).scheduleWork hj]
    exact (h.placed j w hw).post hj data

theorem changeTimer_ok {p p' : Pipeline T W} {ms : Nat} (h : p.changeTimer ms = .ok p') :
    p' = p.modify 0 (·.setInterval ms) := by
  unfold changeTimer at h
  split at h
  · simp at h
  · split at h
    · simp at h
    · simpa using h.symm

/-- **No step rewires a pipeline.** -/
theorem Wired.step (h : Wired ws stats s) (a : Action T) (hs : step s a = some s') :
    Wired ws stats s' := by
  cases a with
  | elapse d =>
    rw [Pipeline.step, Option.some.injEq] at hs
    exact h.congr (by rw [← hs])
  | expire k =>
    obtain ⟨w, hw, _, rfl⟩ := step_expire.mp hs
    exact h.timerOp _ TimerOp.expire
  | run k t =>
    obtain ⟨w, x, rest, hw, _, hstrand, rfl⟩ := step_run.mp hs
    refine Wired.begin (h.modify _ fun v hv => ?_) t x
    obtain rfl : w = v := Option.some.inj (hw.symm.trans hv)
    exact (h.placed k w hw).tail hstrand
  | finish k data t =>
    obtain ⟨w, it, t₀, hw, _, rfl⟩ := step_finish.mp hs
    have h1 : Wired ws stats
        { s with pipeline := emplaceTimes w.timeStatsQueue (t₀, t) s.pipeline } :=
      h.congr (emplaceTimes_elements _ _ _)
    exact (h1.modify _ fun v hv => (h1.placed k v hv).activity _
      (by simp [WorkWrapper.inRestart])).congr rfl
  | next k =>
    obtain ⟨w, it, hw, _, rfl⟩ := step_next.mp hs
    have hpl := h.placed k w hw
    refine Wired.pass (h.modify _ fun v hv => (h.placed k v hv).activity _ ?_) it ?_
    · rw [(h.placed k v hv).timed]
      intro hr
      by_contra hk
      simp [hk, WorkWrapper.inRestart] at hr
    · exact fun j hj => hpl.next_ne_zero hj
  | restart k =>
    obtain ⟨w, hw, hact, rfl⟩ := step_restart.mp hs
    have hk : k = 0 := (h.placed k w hw).restart (by rw [WorkWrapper.inRestart, hact])
    exact h.modify _ fun v hv =>
      ((h.placed k v hv).timerOp (TimerOp.expiresAt _ v)).activity _ fun _ => hk
  | rewait k =>
    obtain ⟨w, hw, _, rfl⟩ := step_rewait.mp hs
    exact h.modify _ fun v hv =>
      ((h.placed k v hv).timerOp (TimerOp.asyncWait v)).activity _ (by simp [WorkWrapper.inRestart])
  | pauseCall =>
    obtain ⟨w, hw, _, _, ⟨_, rfl⟩ | ⟨_, rfl⟩⟩ := step_pauseCall.mp hs
    · exact (h.timerOp _ fun w => TimerOp.expiresAt _ w).congr rfl
    · exact (h.timerOp _ TimerOp.cancel).congr rfl
  | pauseWait =>
    obtain ⟨_, rfl⟩ := step_pauseWait.mp hs
    exact (h.timerOp _ TimerOp.asyncWait).congr rfl
  | pauseReturn =>
    obtain ⟨_, rfl⟩ := step_pauseReturn.mp hs
    exact (h.timerOp (k := 0) (fun w => w.setPaused !w.paused)
      fun w => TimerOp.setPaused _ w).congr rfl
  | changeTimer ms =>
    obtain ⟨_, p, hp, rfl⟩ := step_changeTimer.mp hs
    rw [changeTimer_ok hp]
    exact (h.timerOp (k := 0) (·.setInterval ms) fun w => TimerOp.setInterval ms w).congr rfl
  | collect start stop =>
    simp only [Pipeline.step] at hs
    split at hs
    · rw [Option.some.injEq] at hs
      exact h.congr (by rw [← hs]; rfl)
    · simp at hs

end Pipeline

end SecMon
