import SecMon.Pipeline.Order

/-!
# The tick chain

Everything `pause` is about can be said of five numbers: the waits pending on
the source's timer, the ticks that have expired and wait in its strand,
whether its strand is busy with a tick, and the two flags.  `Chain` is that
abstract model; a tick takes itself out of the strand, works, and puts one
wait back.  `chain_step` says the pipeline refines it: every step is one
move of the chain, and the moves `pauseCall` and `pauseReturn` are the steps
of that name.
-/

namespace SecMon

variable {T W : Type}

/-- A tick that is not an aborted one. -/
def Handler.live : Handler T W → Bool
  | .tick .success => true
  | _ => false

/-- The expired ticks waiting in the strand. -/
def WorkWrapper.liveTicks (w : WorkWrapper T W) : Nat := w.strand.countP Handler.live

/-! ### The abstract model -/

/-- The life of the ticks, as far as the timer and the flags see it. -/
structure Chain where
  pending : Nat
  ticks : Nat
  busy : Bool
  /-- `TimedWorkWrapper::paused_` -/
  paused : Bool
  /-- `Pipeline::paused_` -/
  flag : Bool
  caller : Pipeline.Caller
  /-- the number of times the work function was entered -/
  starts : Nat
  deriving DecidableEq, Repr

namespace Chain

inductive Move
  | stay
  /-- the pending waits expire -/
  | expire
  /-- a tick enters the work function -/
  | start
  /-- the tick in work resets the expiry -/
  | restart
  /-- the tick in work waits for the next -/
  | rewait
  | pauseCall
  | pauseWait
  | pauseReturn
  deriving DecidableEq, Repr

def step (c : Chain) : Move → Option Chain
  | .stay => some c
  | .expire => some { c with pending := 0, ticks := c.ticks + c.pending }
  | .start =>
      if c.busy = false ∧ 0 < c.ticks then
        some { c with ticks := c.ticks - 1, busy := true, starts := c.starts + 1 }
      else none
  | .restart => if c.busy = true then some { c with pending := 0 } else none
  | .rewait =>
      if c.busy = true then some { c with pending := c.pending + 1, busy := false } else none
  | .pauseCall =>
      if c.caller = .idle then
        some { c with pending := 0, caller := if c.paused then .rearming else .switching }
      else none
  | .pauseWait =>
      if c.caller = .rearming then
        some { c with pending := c.pending + 1, caller := .switching }
      else none
  | .pauseReturn =>
      if c.caller = .switching then
        some { c with paused := !c.paused, flag := !c.flag, caller := .idle }
      else none

/-- No tick is anywhere. -/
def Quiet (c : Chain) : Prop := c.pending = 0 ∧ c.ticks = 0 ∧ c.busy = false

/-- No tick has expired that is not done with. -/
def AtRest (c : Chain) : Prop := c.ticks = 0 ∧ c.busy = false

/-- All the ticks there are: waiting, queued, in work, or about to be armed by
a `pause` that resumes. -/
def total (c : Chain) : Nat :=
  c.pending + c.ticks + c.busy.toNat + if c.caller = .rearming then 1 else 0

/-- At most one tick, and none besides the one being armed. -/
def Single (c : Chain) : Prop := c.total ≤ 1

variable {c c' : Chain} {m : Move}

/-- **One tick at most**, if a `pause` that resumes finds none on its way. -/
theorem Single.step (h : Single c) (hok : m = .pauseCall → c.paused = true → c.AtRest)
    (hs : c.step m = some c') : Single c' := by
  unfold Single total at *
  cases m with
  | stay => simp only [Chain.step, Option.some.injEq] at hs; subst hs; exact h
  | expire => simp only [Chain.step, Option.some.injEq] at hs; subst hs; simp only; omega
  | start =>
    simp only [Chain.step, Option.ite_none_right_eq_some, Option.some.injEq] at hs
    obtain ⟨⟨hb, ht⟩, rfl⟩ := hs
    rw [hb] at h
    simp only [Bool.toNat_false, Bool.toNat_true] at h ⊢
    omega
  | restart =>
    simp only [Chain.step, Option.ite_none_right_eq_some, Option.some.injEq] at hs
    obtain ⟨_, rfl⟩ := hs
    simp only
    omega
  | rewait =>
    simp only [Chain.step, Option.ite_none_right_eq_some, Option.some.injEq] at hs
    obtain ⟨hb, rfl⟩ := hs
    rw [hb] at h
    simp only [Bool.toNat_false, Bool.toNat_true] at h ⊢
    omega
  | pauseCall =>
    simp only [Chain.step, Option.ite_none_right_eq_some, Option.some.injEq] at hs
    obtain ⟨hc, rfl⟩ := hs
    rw [if_neg (by rw [hc]; decide)] at h
    cases hp : c.paused with
    | true =>
      obtain ⟨ht, hb⟩ := hok rfl hp
      simp [ht, hb]
    | false => simp; omega
  | pauseWait =>
    simp only [Chain.step, Option.ite_none_right_eq_some, Option.some.injEq] at hs
    obtain ⟨hc, rfl⟩ := hs
    rw [if_pos hc] at h
    simp only [reduceCtorEq, if_false]
    omega
  | pauseReturn =>
    simp only [Chain.step, Option.ite_none_right_eq_some, Option.some.injEq] at hs
    obtain ⟨hc, rfl⟩ := hs
    rw [if_neg (by rw [hc]; decide)] at h
    simp only [reduceCtorEq, if_false]
    omega

/-- What is known of a chain whose pauses all find it at rest: the two flags
agree, and while it is paused it is quiet. -/
structure Stopped (c : Chain) : Prop where
  flag : c.flag = c.paused
  rearming : c.caller = .rearming → c.paused = true
  idle : c.caller = .idle → c.paused = true → c.Quiet
  pausing : c.caller = .switching → c.paused = false → c.Quiet

theorem Quiet.step (h : Quiet c) (hm : m ≠ .pauseCall) (hc : c.caller ≠ .rearming)
    (hs : c.step m = some c') : c'.Quiet ∧ c'.starts = c.starts := by
  obtain ⟨hp, ht, hb⟩ := h
  cases m with
  | stay => simp only [Chain.step, Option.some.injEq] at hs; subst hs; exact ⟨⟨hp, ht, hb⟩, rfl⟩
  | expire =>
    simp only [Chain.step, Option.some.injEq] at hs
    subst hs
    refine ⟨⟨rfl, ?_, hb⟩, rfl⟩
    show c.ticks + c.pending = 0
    omega
  | start => simp [Chain.step, ht] at hs
  | restart => simp [Chain.step, hb] at hs
  | rewait => simp [Chain.step, hb] at hs
  | pauseCall => exact absurd rfl hm
  | pauseWait => simp [Chain.step, hc] at hs
  | pauseReturn =>
    simp only [Chain.step, Option.ite_none_right_eq_some, Option.some.injEq] at hs
    obtain ⟨_, rfl⟩ := hs
    exact ⟨⟨hp, ht, hb⟩, rfl⟩

theorem step_frame (h₁ : m ≠ .pauseCall) (h₂ : m ≠ .pauseWait) (h₃ : m ≠ .pauseReturn)
    (hs : c.step m = some c') :
    c'.caller = c.caller ∧ c'.paused = c.paused ∧ c'.flag = c.flag := by
  cases m with
  | stay | expire =>
    simp only [Chain.step, Option.some.injEq] at hs
    subst hs
    exact ⟨rfl, rfl, rfl⟩
  | start | restart | rewait =>
    simp only [Chain.step, Option.ite_none_right_eq_some, Option.some.injEq] at hs
    obtain ⟨_, rfl⟩ := hs
    exact ⟨rfl, rfl, rfl⟩
  | pauseCall => exact absurd rfl h₁
  | pauseWait => exact absurd rfl h₂
  | pauseReturn => exact absurd rfl h₃

theorem Quiet.step_idle (h : Quiet c) (hc : c.caller = .idle) (hm : m ≠ .pauseCall)
    (hs : c.step m = some c') : c'.Quiet ∧ c'.caller = .idle ∧ c'.starts = c.starts := by
  obtain ⟨hq, hst⟩ := h.step hm (by rw [hc]; decide) hs
  have h₂ : m ≠ .pauseWait := by
    rintro rfl
    simp [Chain.step, hc] at hs
  have h₃ : m ≠ .pauseReturn := by
    rintro rfl
    simp [Chain.step, hc] at hs
  exact ⟨hq, (step_frame hm h₂ h₃ hs).1.trans hc, hst⟩

theorem flag_step (h : c.flag = c.paused) (hs : c.step m = some c') : c'.flag = c'.paused := by
  cases m with
  | pauseReturn =>
    simp only [Chain.step, Option.ite_none_right_eq_some, Option.some.injEq] at hs
    obtain ⟨_, rfl⟩ := hs
    exact congrArg (!·) h
  | stay | expire =>
    simp only [Chain.step, Option.some.injEq] at hs
    subst hs
    exact h
  | start | restart | rewait | pauseCall | pauseWait =>
    simp only [Chain.step, Option.ite_none_right_eq_some, Option.some.injEq] at hs
    obtain ⟨_, rfl⟩ := hs
    exact h

/-- **A paused chain is quiet**, if a `pause` that pauses finds it at rest. -/
theorem Stopped.step (h : Stopped c) (hok : m = .pauseCall → c.paused = false → c.AtRest)
    (hs : c.step m = some c') : Stopped c' := by
  by_cases h₁ : m = .pauseCall
  · subst h₁
    simp only [Chain.step, Option.ite_none_right_eq_some, Option.some.injEq] at hs
    obtain ⟨hc, rfl⟩ := hs
    cases hp : c.paused with
    | true =>
      exact ⟨h.flag.trans hp, fun _ => rfl, fun hi => by simp at hi, fun hi => by simp at hi⟩
    | false =>
      obtain ⟨ht, hb⟩ := hok rfl hp
      exact ⟨h.flag.trans hp, fun hr => by simp at hr, fun hi => by simp at hi,
        fun _ _ => ⟨rfl, ht, hb⟩⟩
  by_cases h₂ : m = .pauseWait
  · subst h₂
    simp only [Chain.step, Option.ite_none_right_eq_some, Option.some.injEq] at hs
    obtain ⟨hc, rfl⟩ := hs
    have hp : c.paused = true := h.rearming hc
    refine ⟨h.flag, fun _ => hp, fun hi => by simp at hi, fun _ hf => ?_⟩
    exact absurd (hp.symm.trans hf) (by decide)
  by_cases h₃ : m = .pauseReturn
  · subst h₃
    simp only [Chain.step, Option.ite_none_right_eq_some, Option.some.injEq] at hs
    obtain ⟨hc, rfl⟩ := hs
    refine ⟨congrArg (!·) h.flag, fun hr => by simp at hr, fun _ hp => ?_, fun hi => by simp at hi⟩
    exact h.pausing hc (by simpa using hp)
  · obtain ⟨hc, hp, hf⟩ := step_frame h₁ h₂ h₃ hs
    refine ⟨hf.trans (h.flag.trans hp.symm), fun hr => hp.trans (h.rearming (hc ▸ hr)),
      fun hi hpa => ?_, fun hi hpa => ?_⟩
    · rw [hc] at hi
      exact ((h.idle hi (hp ▸ hpa)).step h₁ (by rw [hi]; decide) hs).1
    · rw [hc] at hi
      exact ((h.pausing hi (hp ▸ hpa)).step h₁ (by rw [hi]; decide) hs).1

end Chain

/-! ### The pipeline refines it -/

namespace WorkWrapper

variable {w : WorkWrapper T W}

theorem pending_postTicks (ec : ErrorCode) (n : Nat) : (w.postTicks ec n).pending = w.pending :=
  rfl

theorem pending_setTimer_zero {f : SteadyTimer → SteadyTimer} (hf : ∀ t, (f t).pending = 0) :
    (w.setTimer f).pending = 0 := by
  cases ht : w.timed <;> simp [pending, setTimer, ht, hf]

theorem pending_cancel : w.cancel.pending = 0 := by
  rw [cancel, pending_postTicks]
  exact pending_setTimer_zero fun _ => rfl

theorem pending_expiresAt (e : Nat) : (w.expiresAt e).pending = 0 := by
  rw [expiresAt, pending_postTicks]
  exact pending_setTimer_zero fun _ => rfl

theorem pending_expire : w.expire.pending = 0 := by
  rw [expire, pending_postTicks]
  exact pending_setTimer_zero fun _ => rfl

theorem pending_asyncWait (h : w.timed.isSome = true) : w.asyncWait.pending = w.pending + 1 := by
  obtain ⟨t, ht⟩ := Option.isSome_iff_exists.mp h
  simp [pending, asyncWait, setTimer, ht]

theorem liveTicks_postTicks_aborted (n : Nat) :
    (w.postTicks .operationAborted n).liveTicks = w.liveTicks := by
  simp [liveTicks, postTicks, Handler.live, List.countP_replicate]

theorem liveTicks_cancel : w.cancel.liveTicks = w.liveTicks := liveTicks_postTicks_aborted _

theorem liveTicks_expiresAt (e : Nat) : (w.expiresAt e).liveTicks = w.liveTicks :=
  liveTicks_postTicks_aborted _

theorem liveTicks_expire : w.expire.liveTicks = w.liveTicks + w.pending := by
  simp [liveTicks, expire, postTicks, setTimer, Handler.live, List.countP_replicate]

theorem paused_setTimer (f : SteadyTimer → SteadyTimer) : (w.setTimer f).paused = w.paused := by
  cases ht : w.timed <;> simp [paused, setTimer, ht]

theorem paused_expire : w.expire.paused = w.paused :=
  paused_setTimer (w := w) fun t => { t with pending := 0 }

theorem paused_cancel : w.cancel.paused = w.paused :=
  paused_setTimer (w := w) fun t => { t with pending := 0 }

theorem paused_expiresAt (e : Nat) : (w.expiresAt e).paused = w.paused :=
  paused_setTimer (w := w) fun _ => { expiry := e, pending := 0 }

theorem paused_asyncWait : w.asyncWait.paused = w.paused :=
  paused_setTimer (w := w) fun t => { t with pending := t.pending + 1 }

theorem paused_setPaused (h : w.timed.isSome = true) (b : Bool) : (w.setPaused b).paused = b := by
  obtain ⟨t, ht⟩ := Option.isSome_iff_exists.mp h
  simp [paused, setPaused, ht]

theorem pending_setPaused (b : Bool) : (w.setPaused b).pending = w.pending := by
  cases ht : w.timed <;> simp [pending, setPaused, ht]

theorem pending_setInterval (ms : Nat) : (w.setInterval ms).pending = w.pending := by
  cases ht : w.timed <;> simp [pending, setInterval, ht]

theorem paused_setInterval (ms : Nat) : (w.setInterval ms).paused = w.paused := by
  cases ht : w.timed <;> simp [paused, setInterval, ht]

end WorkWrapper

namespace Pipeline

variable {ws : List W} {stats : Bool} {s s' : State T W} {w : WorkWrapper T W}

/-- The abstract view of a state whose source is `w`. -/
def State.chain (s : State T W) (w : WorkWrapper T W) : Chain where
  pending := w.pending
  ticks := w.liveTicks
  busy := w.activity.isSome
  paused := w.paused
  flag := s.pipeline.paused
  caller := s.caller
  starts := (s.startedAt 0).length

/-- The step `a` of a pipeline whose source is `w` is a move of the chain. -/
def Simulated (s s' : State T W) (a : Action T) (w : WorkWrapper T W) : Prop :=
  ∃ w' m, s'.element 0 = some w' ∧ (s.chain w).step m = some (s'.chain w') ∧
    (m = .pauseCall ↔ a = .pauseCall) ∧ (m = .pauseReturn ↔ a = .pauseReturn)

theorem chain_modify (k : Nat) (f : WorkWrapper T W → WorkWrapper T W) (v : WorkWrapper T W) :
    (s.modify k f).chain v = s.chain v := rfl

theorem chain_record_started (k : Nat) (it : Item T W) (v : WorkWrapper T W) :
    (s.record (.started k it)).chain v =
      { s.chain v with starts := (s.chain v).starts + if k = 0 then 1 else 0 } := by
  have hlen : ((s.record (.started k it)).startedAt 0).length =
      (s.startedAt 0).length + if k = 0 then 1 else 0 := by
    rw [State.startedAt_record_started, List.length_append]
    by_cases hk : k = 0 <;> simp [hk]
  simp only [State.chain, hlen]
  rfl

theorem chain_record_completed (k : Nat) (it : Item T W) (t₀ t₁ : TimePoint)
    (v : WorkWrapper T W) : (s.record (.completed k it t₀ t₁)).chain v = s.chain v := by
  simp only [State.chain, State.startedAt_record_completed]
  rfl

theorem chain_expire : s.chain w.expire =
    { s.chain w with pending := 0, ticks := w.liveTicks + w.pending } := by
  simp only [State.chain, WorkWrapper.pending_expire, WorkWrapper.liveTicks_expire,
    WorkWrapper.paused_expire]
  rfl

theorem chain_expiresAt (e : Nat) : s.chain (w.expiresAt e) = { s.chain w with pending := 0 } := by
  simp only [State.chain, WorkWrapper.pending_expiresAt, WorkWrapper.liveTicks_expiresAt,
    WorkWrapper.paused_expiresAt]
  rfl

theorem chain_cancel : s.chain w.cancel = { s.chain w with pending := 0 } := by
  simp only [State.chain, WorkWrapper.pending_cancel, WorkWrapper.liveTicks_cancel,
    WorkWrapper.paused_cancel]
  rfl

theorem chain_asyncWait (ht : w.timed.isSome = true) :
    s.chain w.asyncWait = { s.chain w with pending := w.pending + 1 } := by
  simp only [State.chain, WorkWrapper.pending_asyncWait ht, WorkWrapper.paused_asyncWait]
  rfl

theorem chain_restart : s.chain w.restart = { s.chain w with pending := 0, busy := true } := by
  show ({ s.chain (w.expiresAt _) with busy := true } : Chain) = _
  rw [chain_expiresAt]

theorem chain_rewait (ht : w.timed.isSome = true) :
    s.chain w.rewait = { s.chain w with pending := w.pending + 1, busy := false } := by
  show ({ s.chain w.asyncWait with busy := false } : Chain) = _
  rw [chain_asyncWait ht]

theorem chain_setPaused (ht : w.timed.isSome = true) (b : Bool) :
    s.chain (w.setPaused b) = { s.chain w with paused := b } := by
  simp only [State.chain, WorkWrapper.pending_setPaused, WorkWrapper.paused_setPaused ht]
  rfl

theorem chain_setInterval (ms : Nat) : s.chain (w.setInterval ms) = s.chain w := by
  simp only [State.chain, WorkWrapper.pending_setInterval, WorkWrapper.paused_setInterval]
  rfl

theorem Simulated.stay {a : Action T} (w' : WorkWrapper T W) (hel : s'.element 0 = some w')
    (hch : s'.chain w' = s.chain w) (h₁ : a ≠ .pauseCall) (h₂ : a ≠ .pauseReturn) :
    Simulated s s' a w :=
  ⟨w', .stay, hel, by rw [hch]; rfl, by simp [h₁], by simp [h₂]⟩

theorem simulated_run (hw : Wired ws stats s) (h0 : s.element 0 = some w) {k : Nat} {t : TimePoint}
    (hs : step s (.run k t) = some s') : Simulated s s' (.run k t) w := by
  obtain ⟨v, x, rest, hel, hact, hstrand, hcases⟩ := run_cases hs
  by_cases hk : k = 0
  · subst hk
    obtain rfl : w = v := Option.some.inj (h0.symm.trans hel)
    have hlive : w.liveTicks = rest.countP Handler.live + if x.live then 1 else 0 := by
      rw [WorkWrapper.liveTicks, hstrand, List.countP_cons]
    rcases hcases with ⟨hx, rfl⟩ | ⟨data, hx, rfl⟩
    · -- an aborted tick counts for nothing
      have hx' : x.live = false := by
        cases x with
        | tick ec => cases ec <;> simp [State.dataOf, Handler.live] at hx ⊢
        | work it => rfl
      refine .stay { w with strand := rest } ?_ ?_ (by simp) (by simp)
      · rw [State.element_modify_self, h0]
        rfl
      · rw [hx'] at hlive
        rw [chain_modify]
        simp only [State.chain, hlive]
        rfl
    · -- an expired tick begins
      have hx' : x.live = true := by
        rcases (hw.placed 0 w h0).dataOf hstrand hx with ⟨_, rfl, _⟩ | ⟨h00, _⟩
        · rfl
        · exact absurd rfl h00
      rw [hx', if_pos rfl] at hlive
      refine ⟨{ w with strand := rest, activity := some (.working data t) }, .start, ?_, ?_,
        by simp, by simp⟩
      · show State.element (State.modify 0 _ s) 0 = _
        rw [State.element_modify_self, h0]
        rfl
      · rw [chain_record_started, chain_modify]
        simp only [Chain.step, State.chain, hact, hlive]
        simp [WorkWrapper.liveTicks, WorkWrapper.pending, WorkWrapper.paused]
  · rcases hcases with ⟨hx, rfl⟩ | ⟨data, hx, rfl⟩
    · exact .stay w ((State.element_modify_ne hk).trans h0) rfl (by simp) (by simp)
    · refine .stay w ((State.element_modify_ne hk).trans h0) ?_ (by simp) (by simp)
      rw [chain_record_started, chain_modify, if_neg hk]
      rfl

theorem element_zero_pass {next : Option Nat} (hn : ∀ j, next = some j → j ≠ 0) (data : Item T W) :
    (s.pass next data).element 0 = s.element 0 := by
  cases next with
  | none => rfl
  | some j => exact State.element_modify_ne (hn j rfl)

theorem element_modify_zero (h0 : s.element 0 = some w) (f : WorkWrapper T W → WorkWrapper T W) :
    (s.modify 0 f).element 0 = some (f w) := by
  rw [State.element_modify_self, h0, Option.map_some]

theorem simulated_finish (h0 : s.element 0 = some w) {k : Nat} {data : Option T} {t : TimePoint}
    (hs : step s (.finish k data t) = some s') : Simulated s s' (.finish k data t) w := by
  obtain ⟨v, it, t₀, hel, hact, rfl⟩ := step_finish.mp hs
  have hsame : ∀ u : WorkWrapper T W, State.chain
      { s with pipeline := emplaceTimes v.timeStatsQueue (t₀, t) s.pipeline } u = s.chain u := by
    intro u
    cases v.timeStatsQueue <;> rfl
  have hold : State.element
      { s with pipeline := emplaceTimes v.timeStatsQueue (t₀, t) s.pipeline } 0 = some w := by
    rw [State.element, emplaceTimes_elements]
    exact h0
  by_cases hk : k = 0
  · subst hk
    obtain rfl : w = v := Option.some.inj (h0.symm.trans hel)
    refine .stay { w with activity := some (.worked (it.worked w.work data)) } ?_ ?_
      (by simp) (by simp)
    · show State.element (State.modify 0 _ _) 0 = _
      rw [State.element_modify_self, hold]
      rfl
    · rw [chain_record_completed, chain_modify, hsame]
      simp only [State.chain, hact]
      rfl
  · refine .stay w ((State.element_modify_ne hk).trans hold) ?_ (by simp) (by simp)
    rw [chain_record_completed, chain_modify, hsame]

theorem simulated_next (hw : Wired ws stats s) (h0 : s.element 0 = some w) {k : Nat}
    (hs : step s (.next k) = some s') : Simulated s s' (.next k) w := by
  have htimed : w.timed.isSome = true := (hw.placed 0 w h0).timed
  obtain ⟨v, it, hel, hact, rfl⟩ := step_next.mp hs
  have hchain : ∀ u, ((s.modify k WorkWrapper.afterNext).pass v.next it).chain u = s.chain u := by
    intro u
    cases v.next <;> rfl
  have hpass : ((s.modify k WorkWrapper.afterNext).pass v.next it).element 0 =
      (s.modify k WorkWrapper.afterNext).element 0 :=
    element_zero_pass (fun j hj => (hw.placed k v hel).next_ne_zero hj) it
  by_cases hk : k = 0
  · subst hk
    obtain rfl : w = v := Option.some.inj (h0.symm.trans hel)
    refine .stay w.afterNext (hpass.trans (element_modify_zero h0 _)) ?_ (by simp) (by simp)
    rw [hchain]
    simp only [State.chain, WorkWrapper.afterNext, htimed, hact]
    rfl
  · exact .stay w (hpass.trans ((State.element_modify_ne hk).trans h0)) (hchain w)
      (by simp) (by simp)

/-- A call of `pause` takes away the timer's wait, whichever way it goes. -/
theorem simulated_pauseCall (h0 : s.element 0 = some w) (hs : step s .pauseCall = some s') :
    Simulated s s' .pauseCall w := by
  obtain ⟨v, hel, hc, _, ⟨hp, rfl⟩ | ⟨hp, rfl⟩⟩ := step_pauseCall.mp hs
  · obtain rfl : w = v := Option.some.inj (h0.symm.trans hel)
    refine ⟨w.expiresAt (s.now + w.milliseconds), .pauseCall, element_modify_zero h0 _, ?_, by simp, by simp⟩
    show _ = some { s.chain (w.expiresAt (s.now + w.milliseconds)) with caller := .rearming }
    rw [chain_expiresAt, Chain.step, if_pos (show (s.chain w).caller = .idle from hc),
      if_pos (show (s.chain w).paused = true from hp)]
  · obtain rfl : w = v := Option.some.inj (h0.symm.trans hel)
    refine ⟨w.cancel, .pauseCall, element_modify_zero h0 _, ?_, by simp, by simp⟩
    show _ = some { s.chain w.cancel with caller := .switching }
    rw [chain_cancel, Chain.step, if_pos (show (s.chain w).caller = .idle from hc),
      if_neg (show ¬(s.chain w).paused = true from Bool.eq_false_iff.mp hp)]

/-- **Every step of a pipeline is a move of its tick chain.** -/
theorem chain_step (hw : Wired ws stats s) (h0 : s.element 0 = some w) (a : Action T)
    (hs : step s a = some s') : Simulated s s' a w := by
  have htimed : w.timed.isSome = true := (hw.placed 0 w h0).timed
  have hself := element_modify_zero h0
  cases a with
  | elapse d =>
    rw [Pipeline.step, Option.some.injEq] at hs
    subst hs
    exact .stay w h0 rfl (by simp) (by simp)
  | expire k =>
    obtain ⟨v, hel, _, rfl⟩ := step_expire.mp hs
    by_cases hk : k = 0
    · subst hk
      exact ⟨w.expire, .expire, hself _, by rw [chain_modify, chain_expire]; rfl, by simp, by simp⟩
    · exact .stay w ((State.element_modify_ne hk).trans h0) rfl (by simp) (by simp)
  | run k t => exact simulated_run hw h0 hs
  | finish k data t => exact simulated_finish h0 hs
  | next k => exact simulated_next hw h0 hs
  | restart k =>
    obtain ⟨v, hel, hact, rfl⟩ := step_restart.mp hs
    obtain rfl : k = 0 := (hw.placed k v hel).restart (by rw [WorkWrapper.inRestart, hact])
    obtain rfl : w = v := Option.some.inj (h0.symm.trans hel)
    refine ⟨w.restart, .restart, hself _, ?_, by simp, by simp⟩
    have hbusy : (s.chain w).busy = true := by rw [State.chain, hact]; rfl
    rw [chain_modify, chain_restart, Chain.step, if_pos hbusy, ← hbusy]
  | rewait k =>
    obtain ⟨v, hel, hact, rfl⟩ := step_rewait.mp hs
    obtain rfl : k = 0 := (hw.placed k v hel).restart (by rw [WorkWrapper.inRestart, hact])
    obtain rfl : w = v := Option.some.inj (h0.symm.trans hel)
    refine ⟨w.rewait, .rewait, hself _, ?_, by simp, by simp⟩
    have hbusy : (s.chain w).busy = true := by rw [State.chain, hact]; rfl
    rw [chain_modify, chain_rewait htimed, Chain.step, if_pos hbusy]
    rfl
  | pauseCall => exact simulated_pauseCall h0 hs
  | pauseWait =>
    obtain ⟨hc, rfl⟩ := step_pauseWait.mp hs
    refine ⟨w.asyncWait, .pauseWait, hself _, ?_, by simp, by simp⟩
    show _ = some { s.chain w.asyncWait with caller := .switching }
    rw [chain_asyncWait htimed, Chain.step, if_pos (show (s.chain w).caller = .rearming from hc)]
    rfl
  | pauseReturn =>
    obtain ⟨hc, rfl⟩ := step_pauseReturn.mp hs
    refine ⟨w.setPaused !w.paused, .pauseReturn, hself _, ?_, by simp, by simp⟩
    show _ = some { s.chain (w.setPaused !w.paused) with
      flag := !s.pipeline.paused, caller := .idle }
    rw [chain_setPaused htimed, Chain.step, if_pos (show (s.chain w).caller = .switching from hc)]
    rfl
  | changeTimer ms =>
    obtain ⟨hc, p, hp, rfl⟩ := step_changeTimer.mp hs
    obtain rfl := changeTimer_ok hp
    refine .stay (w.setInterval ms) (hself _) ?_ (by simp) (by simp)
    exact chain_setInterval ms
  | collect start stop =>
    simp only [Pipeline.step] at hs
    split at hs
    · rw [Option.some.injEq] at hs
      subst hs
      exact .stay w h0 rfl (by simp) (by simp)
    · simp at hs

end Pipeline

end SecMon
