import SecMon.Pipeline.LifeCycle
import SecMon.Pipeline.Pause

/-!
# The metronome

`restart_timer` sets the next expiry from the last expiry, not from the clock.
Here is what that is for.  While nobody calls `pause` a source has one tick,
which is in one of six phases, and `Metronome` is all there is to say about
it.  `metronome_step` says the pipeline refines it, action by action.

`OnTime` is its invariant while the interval stays: the `n`-th tick is due `n`
intervals after the start, however long the ticks before it took.  So
`ticks_do_not_drift`: no item is made early, and what one item took is taken
off the wait for the next.
-/

namespace SecMon

variable {T W : Type}

/-- Where the tick of a source is. -/
inductive Phase
  /-- its wait is pending -/
  | waiting
  /-- it waits in the strand -/
  | ticked
  | working
  | worked
  | restarting
  | rewaiting
  deriving DecidableEq, Repr

/-- How far a phase is from the wait for the next tick. -/
def Phase.rank : Phase → Nat
  | .ticked => 0
  | .waiting => 1
  | .rewaiting => 2
  | .restarting => 3
  | .worked => 4
  | .working => 5

/-! ### The abstract model -/

structure Metronome where
  now : Nat
  interval : Nat
  expiry : Nat
  phase : Phase
  /-- the number of items made -/
  ticks : Nat
  deriving DecidableEq, Repr

namespace Metronome

inductive Move
  | stay
  | elapse (d : Nat)
  | expire
  | start
  | finish
  | next
  | restart
  | rewait
  | setInterval (milliseconds : Nat)
  deriving DecidableEq, Repr

def step (m : Metronome) : Move → Option Metronome
  | .stay => some m
  | .elapse d => some { m with now := m.now + d }
  | .expire =>
      if m.phase = .waiting ∧ m.expiry ≤ m.now then some { m with phase := .ticked } else none
  | .start =>
      if m.phase = .ticked then some { m with phase := .working, ticks := m.ticks + 1 } else none
  | .finish => if m.phase = .working then some { m with phase := .worked } else none
  | .next => if m.phase = .worked then some { m with phase := .restarting } else none
  | .restart =>
      if m.phase = .restarting then
        some { m with phase := .rewaiting, expiry := m.expiry + m.interval }
      else none
  | .rewait => if m.phase = .rewaiting then some { m with phase := .waiting } else none
  | .setInterval milliseconds => some { m with interval := milliseconds }

/-- Whether the expiry is that of a tick still to come. -/
def ahead : Phase → Nat
  | .waiting | .ticked | .rewaiting => 1
  | .working | .worked | .restarting => 0

/-- The ticks are due every `ms`, counted from `start`. -/
structure OnTime (start ms : Nat) (m : Metronome) : Prop where
  interval : m.interval = ms
  expiry : m.expiry = start + ms * (m.ticks + ahead m.phase)
  made : start + ms * m.ticks ≤ m.now
  ticked : m.phase = .ticked → m.expiry ≤ m.now

variable {m m' : Metronome} {x : Move} {start ms : Nat}

/-- **No drift**, while the interval stays as it is. -/
theorem OnTime.step (h : OnTime start ms m) (hx : ∀ ms', x ≠ .setInterval ms')
    (hs : m.step x = some m') : OnTime start ms m' := by
  obtain ⟨hint, hexp, hmade, htick⟩ := h
  cases x with
  | stay =>
    obtain rfl := Option.some.inj hs
    exact ⟨hint, hexp, hmade, htick⟩
  | elapse d =>
    obtain rfl := Option.some.inj hs
    exact ⟨hint, hexp, Nat.le_add_right_of_le hmade, fun hp => Nat.le_add_right_of_le (htick hp)⟩
  | expire =>
    obtain ⟨⟨hp, hdue⟩, hs⟩ := Option.ite_none_right_eq_some.mp hs
    obtain rfl := Option.some.inj hs
    rw [hp] at hexp
    exact ⟨hint, hexp, hmade, fun _ => hdue⟩
  | start =>
    obtain ⟨hp, hs⟩ := Option.ite_none_right_eq_some.mp hs
    obtain rfl := Option.some.inj hs
    have hdue := htick hp
    rw [hp] at hexp
    refine ⟨hint, hexp, ?_, nofun⟩
    exact hexp ▸ hdue
  | finish =>
    obtain ⟨hp, hs⟩ := Option.ite_none_right_eq_some.mp hs
    obtain rfl := Option.some.inj hs
    rw [hp] at hexp
    exact ⟨hint, hexp, hmade, nofun⟩
  | next =>
    obtain ⟨hp, hs⟩ := Option.ite_none_right_eq_some.mp hs
    obtain rfl := Option.some.inj hs
    rw [hp] at hexp
    exact ⟨hint, hexp, hmade, nofun⟩
  | restart =>
    obtain ⟨hp, hs⟩ := Option.ite_none_right_eq_some.mp hs
    obtain rfl := Option.some.inj hs
    rw [hp] at hexp
    refine ⟨hint, ?_, hmade, nofun⟩
    show m.expiry + m.interval = start + ms * (m.ticks + 1)
    rw [hexp, hint, Nat.mul_succ, Nat.add_assoc]
    rfl
  | rewait =>
    obtain ⟨hp, hs⟩ := Option.ite_none_right_eq_some.mp hs
    obtain rfl := Option.some.inj hs
    rw [hp] at hexp
    exact ⟨hint, hexp, hmade, nofun⟩
  | setInterval ms' => exact absurd rfl (hx ms')

/-- The moves the tick makes. -/
def Move.own : Move → Bool
  | .expire | .start | .finish | .next | .restart | .rewait => true
  | .stay | .elapse _ | .setInterval _ => false

theorem step_cases {m m' : Metronome} {x : Move} (hs : m.step x = some m') :
    (x.own = false ∧ m'.phase = m.phase ∧ m'.expiry = m.expiry ∧ m.now ≤ m'.now) ∨
      (m.phase = .waiting ∧ m'.phase = .ticked) ∨
      (m.phase = .ticked ∧ m'.ticks = m.ticks + 1) ∨
      (1 < m.phase.rank ∧ m'.phase.rank + 1 = m.phase.rank) := by
  cases x with
  | stay | setInterval ms =>
    obtain rfl := Option.some.inj hs
    exact .inl ⟨rfl, rfl, rfl, Nat.le_refl _⟩
  | elapse d =>
    obtain rfl := Option.some.inj hs
    exact .inl ⟨rfl, rfl, rfl, Nat.le_add_right _ _⟩
  | expire =>
    obtain ⟨⟨hp, _⟩, hs⟩ := Option.ite_none_right_eq_some.mp hs
    obtain rfl := Option.some.inj hs
    exact .inr (.inl ⟨hp, rfl⟩)
  | start =>
    obtain ⟨hp, hs⟩ := Option.ite_none_right_eq_some.mp hs
    obtain rfl := Option.some.inj hs
    exact .inr (.inr (.inl ⟨hp, rfl⟩))
  | finish | next | restart | rewait =>
    obtain ⟨hp, hs⟩ := Option.ite_none_right_eq_some.mp hs
    obtain rfl := Option.some.inj hs
    rw [hp]
    exact .inr (.inr (.inr ⟨by decide, rfl⟩))

end Metronome

/-! ### The pipeline refines it -/

def Activity.phase : Activity T W → Phase
  | .working _ _ => .working
  | .worked _ => .worked
  | .restarting => .restarting
  | .rewaiting => .rewaiting

/-- The phase the source is in, where it is in one. -/
def WorkWrapper.phase (w : WorkWrapper T W) : Phase :=
  match w.activity with
  | some a => a.phase
  | none => if w.strand = [] then .waiting else .ticked

/-- The one tick of a source is in the phase `ph`. -/
structure WorkWrapper.InPhase (w : WorkWrapper T W) (ph : Phase) : Prop where
  pending : w.pending = if ph = .waiting then 1 else 0
  strand : w.strand = if ph = .ticked then [.tick .success] else []
  activity : w.activity.map Activity.phase = if ph = .waiting ∨ ph = .ticked then none else some ph

namespace WorkWrapper

variable {w : WorkWrapper T W} {ph : Phase}

theorem InPhase.of_activity (h : w.InPhase ph) {a : Activity T W} (ha : w.activity = some a) :
    ph = a.phase := by
  have hact := h.activity
  rw [ha] at hact
  split at hact
  · cases hact
  · exact (Option.some.inj hact).symm

theorem InPhase.of_idle (h : w.InPhase ph) (ha : w.activity = none) :
    ph = .waiting ∨ ph = .ticked := by
  have hact := h.activity
  rw [ha] at hact
  split at hact
  · assumption
  · cases hact

theorem InPhase.phase_eq (h : w.InPhase ph) :
    w.phase = ph := by
  rw [WorkWrapper.phase]
  cases hact : w.activity with
  | some a => exact (h.of_activity hact).symm
  | none =>
    have hstrand := h.strand
    rcases h.of_idle hact with rfl | rfl
    · exact if_pos hstrand
    · exact if_neg (by rw [hstrand]; simp)

/-- What an operation leaves of the interval and of the expiry. -/
structure SameTimes (w w' : WorkWrapper T W) : Prop where
  milliseconds : w'.milliseconds = w.milliseconds
  expiry : w'.expiry = w.expiry

theorem SameTimes.setTimer {f : SteadyTimer → SteadyTimer} (hf : ∀ t, (f t).expiry = t.expiry) :
    SameTimes w (w.setTimer f) := by
  cases ht : w.timed with
  | none =>
    have hset : (w.setTimer f).timed = none := by rw [WorkWrapper.setTimer, ht]; rfl
    refine ⟨?_, ?_⟩
    · rw [WorkWrapper.milliseconds, WorkWrapper.milliseconds, hset, ht]
    · rw [WorkWrapper.expiry, WorkWrapper.expiry, hset, ht]
  | some t =>
    have hset : (w.setTimer f).timed = some { t with timer := f t.timer } := by
      rw [WorkWrapper.setTimer, ht]
      rfl
    refine ⟨?_, ?_⟩
    · rw [WorkWrapper.milliseconds, WorkWrapper.milliseconds, hset, ht]
      rfl
    · rw [WorkWrapper.expiry, WorkWrapper.expiry, hset, ht]
      exact hf t.timer

theorem SameTimes.expire : SameTimes w w.expire := by
  have h := SameTimes.setTimer (w := w) (f := fun t => { t with pending := 0 }) fun _ => rfl
  exact ⟨h.milliseconds, h.expiry⟩

theorem SameTimes.rewait : SameTimes w w.rewait := by
  have h := SameTimes.setTimer (w := w) (f := fun t => { t with pending := t.pending + 1 })
    fun _ => rfl
  exact ⟨h.milliseconds, h.expiry⟩

theorem restart_times (ht : w.timed.isSome = true) :
    w.restart.milliseconds = w.milliseconds ∧ w.restart.expiry = w.expiry + w.milliseconds := by
  obtain ⟨t, ht⟩ := Option.isSome_iff_exists.mp ht
  have hset : w.restart.timed =
      some { t with timer := { expiry := w.expiry + w.milliseconds, pending := 0 } } := by
    rw [WorkWrapper.restart, expiresAt, postTicks, WorkWrapper.setTimer, ht]
    rfl
  exact ⟨by rw [milliseconds, hset, milliseconds, ht]; rfl, by rw [expiry, hset]; rfl⟩

theorem setInterval_times (ht : w.timed.isSome = true) (ms : Nat) :
    (w.setInterval ms).milliseconds = ms ∧ (w.setInterval ms).expiry = w.expiry := by
  obtain ⟨t, ht⟩ := Option.isSome_iff_exists.mp ht
  have hset : (w.setInterval ms).timed = some { t with milliseconds := ms } := by
    rw [WorkWrapper.setInterval, ht]
    rfl
  exact ⟨by rw [milliseconds, hset]; rfl, by rw [expiry, hset, expiry, ht]; rfl⟩

theorem InPhase.expire (h : w.InPhase .waiting) : w.expire.InPhase .ticked := by
  refine ⟨pending_expire, ?_, h.activity⟩
  show w.strand ++ List.replicate w.pending _ = _
  rw [h.strand, h.pending]
  rfl

theorem InPhase.restart (h : w.InPhase .restarting) : w.restart.InPhase .rewaiting := by
  refine ⟨pending_expiresAt (w := w) _, ?_, rfl⟩
  show w.strand ++ List.replicate w.pending _ = _
  rw [h.strand, h.pending]
  rfl

theorem InPhase.rewait (ht : w.timed.isSome = true) (h : w.InPhase .rewaiting) :
    w.rewait.InPhase .waiting := by
  refine ⟨?_, h.strand, rfl⟩
  show w.asyncWait.pending = 1
  rw [pending_asyncWait ht, h.pending]
  rfl

theorem InPhase.setInterval (h : w.InPhase ph) (ms : Nat) : (w.setInterval ms).InPhase ph :=
  ⟨by rw [pending_setInterval]; exact h.pending, h.strand, h.activity⟩

end WorkWrapper

namespace Pipeline

open Machine

variable {ws : List W} {stats : Bool} {si : Nat} {s s' : State T W} {w : WorkWrapper T W}
  {ph : Phase}

/-- What an action is to the source's metronome. -/
def Action.move : Action T → Metronome.Move
  | .elapse d => .elapse d
  | .expire 0 => .expire
  | .run 0 _ => .start
  | .finish 0 _ _ => .finish
  | .next 0 => .next
  | .restart 0 => .restart
  | .rewait 0 => .rewait
  | .changeTimer milliseconds => .setInterval milliseconds
  | _ => .stay

def State.metronome (s : State T W) (w : WorkWrapper T W) (ph : Phase) : Metronome where
  now := s.now
  interval := w.milliseconds
  expiry := w.expiry
  phase := ph
  ticks := (s.startedAt 0).length

/-- The source has one tick, in the phase `ph`, and nobody is in a `pause`. -/
structure Ticking (s : State T W) (w : WorkWrapper T W) (ph : Phase) : Prop where
  source : s.element 0 = some w
  phase : w.InPhase ph
  caller : s.caller = .idle

/-- The step `a` of a pipeline is a move of its metronome. -/
def Beats (s s' : State T W) (a : Action T) (w : WorkWrapper T W) (ph : Phase) : Prop :=
  ∃ w' ph', Ticking s' w' ph' ∧ (s.metronome w ph).step a.move = some (s'.metronome w' ph')

theorem Ticking.stay (h : Ticking s w ph) {a : Action T} (ha : a.move = .stay)
    (hel : s'.element 0 = s.element 0) (hc : s'.caller = s.caller) (hnow : s'.now = s.now)
    (hst : s'.startedAt 0 = s.startedAt 0) : Beats s s' a w ph := by
  refine ⟨w, ph, ⟨hel.trans h.source, h.phase, hc.trans h.caller⟩, ?_⟩
  rw [ha, State.metronome, State.metronome, hnow, hst]
  rfl

theorem Ticking.source_step (h : Ticking s w ph) {a : Action T} {f : WorkWrapper T W → WorkWrapper T W}
    {ph' : Phase} (hph : (f w).InPhase ph')
    (hs : (s.metronome w ph).step a.move =
      some { s.metronome w ph with
        interval := (f w).milliseconds, expiry := (f w).expiry, phase := ph' }) :
    Beats s (s.modify 0 f) a w ph :=
  ⟨f w, ph', ⟨element_modify_zero h.source f, hph, h.caller⟩, hs⟩

theorem Ticking.expire (h : Ticking s w ph) {k : Nat} (hs : step s (.expire k) = some s') :
    Beats s s' (.expire k) w ph := by
  obtain ⟨v, hel, hdue, rfl⟩ := step_expire.mp hs
  cases k with
  | zero =>
    obtain rfl := Option.some.inj (h.source.symm.trans hel)
    rw [WorkWrapper.due, Bool.and_eq_true, decide_eq_true_iff, decide_eq_true_iff] at hdue
    have hph : ph = .waiting := by
      by_contra hne
      rw [h.phase.pending, if_neg hne] at hdue
      exact absurd hdue.1 (Nat.lt_irrefl 0)
    subst hph
    refine h.source_step h.phase.expire ?_
    have htimes := WorkWrapper.SameTimes.expire (w := w)
    rw [htimes.milliseconds, htimes.expiry]
    exact if_pos ⟨rfl, hdue.2⟩
  | succ k => exact h.stay rfl (State.element_modify_ne (Nat.succ_ne_zero k)) rfl rfl rfl

theorem Ticking.run (h : Ticking s w ph) {k : Nat} {t : TimePoint}
    (hs : step s (.run k t) = some s') : Beats s s' (.run k t) w ph := by
  obtain ⟨v, x, rest, hel, hact, hstrand, hcases⟩ := run_cases hs
  cases k with
  | zero =>
    obtain rfl := Option.some.inj (h.source.symm.trans hel)
    have hph : ph = .ticked := by
      rcases h.phase.of_idle hact with rfl | rfl
      · have hnil := h.phase.strand
        rw [hstrand] at hnil
        cases hnil
      · rfl
    subst hph
    have hx := h.phase.strand
    rw [hstrand, if_pos rfl, List.cons.injEq] at hx
    obtain ⟨rfl, rfl⟩ := hx
    rcases hcases with ⟨hx, _⟩ | ⟨data, hx, rfl⟩
    · cases hx
    · refine ⟨{ w with strand := [], activity := some (.working data t) }, .working,
        ⟨element_modify_zero h.source _, ⟨h.phase.pending, rfl, rfl⟩, h.caller⟩, ?_⟩
      rw [State.metronome, State.metronome, State.startedAt_record_started, if_pos rfl,
        List.length_append]
      rfl
  | succ k =>
    have hk : k + 1 ≠ 0 := Nat.succ_ne_zero k
    rcases hcases with ⟨_, rfl⟩ | ⟨data, _, rfl⟩
    · exact h.stay rfl (State.element_modify_ne hk) rfl rfl rfl
    · refine h.stay rfl (State.element_modify_ne hk) rfl rfl ?_
      rw [State.startedAt_record_started, if_neg hk, List.append_nil]
      rfl

theorem Ticking.finish (h : Ticking s w ph) {k : Nat} {data : Option T} {t : TimePoint}
    (hs : step s (.finish k data t) = some s') : Beats s s' (.finish k data t) w ph := by
  obtain ⟨v, it, t₀, hel, hact, rfl⟩ := step_finish.mp hs
  have hold : State.element
      { s with pipeline := emplaceTimes v.timeStatsQueue (t₀, t) s.pipeline } 0 = s.element 0 := by
    rw [State.element, emplaceTimes_elements, State.element]
  cases k with
  | zero =>
    obtain rfl := Option.some.inj (h.source.symm.trans hel)
    obtain rfl := h.phase.of_activity hact
    refine ⟨{ w with activity := some (.worked (it.worked w.work data)) }, .worked,
      ⟨element_modify_zero (hold.trans h.source) _, ⟨h.phase.pending, h.phase.strand, rfl⟩,
        h.caller⟩, ?_⟩
    rw [State.metronome, State.metronome, State.startedAt_record_completed]
    rfl
  | succ k =>
    have hk : k + 1 ≠ 0 := Nat.succ_ne_zero k
    refine h.stay rfl ((State.element_modify_ne hk).trans hold) rfl rfl ?_
    rw [State.startedAt_record_completed]
    rfl

theorem Ticking.next (hw : Wired ws stats s) (h : Ticking s w ph) {k : Nat}
    (hs : step s (.next k) = some s') : Beats s s' (.next k) w ph := by
  obtain ⟨v, it, hel, hact, rfl⟩ := step_next.mp hs
  have hpass : ((s.modify k WorkWrapper.afterNext).pass v.next it).element 0 =
      (s.modify k WorkWrapper.afterNext).element 0 :=
    element_zero_pass (fun j hj => (hw.placed k v hel).next_ne_zero hj) it
  have hrest : ∀ u : State T W, (u.pass v.next it).caller = u.caller ∧
      (u.pass v.next it).now = u.now ∧ (u.pass v.next it).startedAt 0 = u.startedAt 0 := by
    intro u
    cases v.next <;> exact ⟨rfl, rfl, rfl⟩
  obtain ⟨hc, hnow, hst⟩ := hrest (s.modify k WorkWrapper.afterNext)
  cases k with
  | zero =>
    obtain rfl := Option.some.inj (h.source.symm.trans hel)
    obtain rfl := h.phase.of_activity hact
    refine ⟨w.afterNext, .restarting,
      ⟨hpass.trans (element_modify_zero h.source _), ⟨h.phase.pending, h.phase.strand, ?_⟩,
        hc.trans h.caller⟩, ?_⟩
    · have htimed : w.timed.isSome = true := (hw.placed 0 w h.source).timed
      rw [WorkWrapper.afterNext, htimed]
      rfl
    · rw [State.metronome, State.metronome, hnow, hst]
      rfl
  | succ k =>
    exact h.stay rfl (hpass.trans (State.element_modify_ne (Nat.succ_ne_zero k))) hc hnow hst

/-- **Every step of a pipeline that nobody pauses is a move of its
metronome.** -/
theorem metronome_step (hw : Wired ws stats s) (h : Ticking s w ph) {a : Action T}
    (hok : NoPause s a) (hs : step s a = some s') : Beats s s' a w ph := by
  have htimed : w.timed.isSome = true := (hw.placed 0 w h.source).timed
  cases a with
  | elapse d =>
    rw [Pipeline.step, Option.some.injEq] at hs
    subst hs
    exact ⟨w, ph, ⟨h.source, h.phase, h.caller⟩, rfl⟩
  | expire k => exact h.expire hs
  | run k t => exact h.run hs
  | finish k data t => exact h.finish hs
  | next k => exact h.next hw hs
  | restart k =>
    obtain ⟨v, hel, hact, rfl⟩ := step_restart.mp hs
    obtain rfl : k = 0 := (hw.placed k v hel).restart (by rw [WorkWrapper.inRestart, hact])
    obtain rfl := Option.some.inj (h.source.symm.trans hel)
    obtain rfl := h.phase.of_activity hact
    refine h.source_step h.phase.restart ?_
    rw [(WorkWrapper.restart_times htimed).1, (WorkWrapper.restart_times htimed).2]
    rfl
  | rewait k =>
    obtain ⟨v, hel, hact, rfl⟩ := step_rewait.mp hs
    obtain rfl : k = 0 := (hw.placed k v hel).restart (by rw [WorkWrapper.inRestart, hact])
    obtain rfl := Option.some.inj (h.source.symm.trans hel)
    obtain rfl := h.phase.of_activity hact
    refine h.source_step (h.phase.rewait htimed) ?_
    have htimes := WorkWrapper.SameTimes.rewait (w := w)
    rw [htimes.milliseconds, htimes.expiry]
    rfl
  | pauseCall => exact absurd rfl hok
  | pauseWait =>
    obtain ⟨hc, _⟩ := step_pauseWait.mp hs
    rw [h.caller] at hc
    cases hc
  | pauseReturn =>
    obtain ⟨hc, _⟩ := step_pauseReturn.mp hs
    rw [h.caller] at hc
    cases hc
  | changeTimer ms =>
    obtain ⟨_, p, hp, rfl⟩ := step_changeTimer.mp hs
    obtain rfl := changeTimer_ok hp
    refine h.source_step (f := (·.setInterval ms)) (h.phase.setInterval ms) ?_
    rw [(WorkWrapper.setInterval_times htimed ms).1, (WorkWrapper.setInterval_times htimed ms).2]
    rfl
  | collect start stop =>
    simp only [Pipeline.step] at hs
    split at hs
    · rw [Option.some.injEq] at hs
      subst hs
      exact h.stay rfl rfl rfl rfl rfl
    · simp at hs

/-- How far the source is from its next tick. -/
def State.rank (s : State T W) : Nat := ((s.element 0).map fun w => w.phase.rank).getD 0

theorem Ticking.rank (h : Ticking s w ph) : s.rank = ph.rank := by
  rw [State.rank, h.source, Option.map_some, Option.getD_some, h.phase.phase_eq]

/-! ### How it is started -/

/-- An `int` interval as the `unsigned int` it is kept as. -/
def intervalOf (interval : Int) : Nat := (interval % 4294967296).toNat

theorem addElement_elements {work : W} {p p' : Pipeline T W} (h : p.addElement work = .ok p') :
    p.elements <+: p'.elements := by
  obtain ⟨e, he, _⟩ := emplaceBack_elements work none p
  unfold addElement at h
  cases hc : p.checkAdd with
  | error f => rw [hc] at h; cases h
  | ok u =>
    rw [hc] at h
    obtain rfl := Except.ok.inj h
    exact ⟨[e], he.symm⟩

/-- An element that is added leaves the others in their places. -/
theorem add_elements {work : W} {header : Option String} {p p' : Pipeline T W}
    (h : p.add work header = .ok p') : p.elements <+: p'.elements := by
  cases header with
  | none => exact addElement_elements h
  | some header =>
    rw [Pipeline.add, addElementHeader] at h
    cases hc : p.checkAdd with
    | error f => rw [hc] at h; cases h
    | ok u =>
      rw [hc] at h
      exact addElement_elements (p := { p with
        statsOutputHeader := p.statsOutputHeader ++ "      ->" ++ header }) h

theorem addAll_elements {rest : List (W × Option String)} {p p' : Pipeline T W}
    (h : addAll rest p = .ok p') : p.elements <+: p'.elements := by
  induction rest generalizing p with
  | nil =>
    obtain rfl := Except.ok.inj h
    exact List.prefix_refl _
  | cons e es ih =>
    rw [addAll] at h
    cases hq : p.add e.1 e.2 with
    | error f => rw [hq] at h; cases h
    | ok q =>
      rw [hq] at h
      exact (add_elements hq).trans (ih h)

theorem addTimed_elements {interval : Int} {work : W} {header : Option String}
    {p p' : Pipeline T W} (hp : p.elements = []) (h : addTimed interval work header p = .ok p') :
    ∃ e, p'.elements[0]? = some e ∧ e.timed = some { milliseconds := intervalOf interval } := by
  have key : ∀ q : Pipeline T W, q.elements = [] → q.addTimedElement interval work = .ok p' →
      ∃ e, p'.elements[0]? = some e ∧ e.timed = some { milliseconds := intervalOf interval } := by
    intro q hq h
    obtain ⟨e, he, het, _⟩ := emplaceBack_elements work
      (some { milliseconds := intervalOf interval }) q
    rw [addTimedElement] at h
    cases hc : q.checkAddTimed with
    | error f => rw [hc] at h; cases h
    | ok u =>
      rw [hc] at h
      obtain rfl := Except.ok.inj h
      refine ⟨e, ?_, het⟩
      show (q.emplaceBack work (some { milliseconds := intervalOf interval })).elements[0]? = _
      rw [he, hq]
      rfl
  cases header with
  | none => exact key p hp h
  | some header =>
    rw [addTimed, addTimedElementHeader] at h
    cases hc : p.checkAddTimed with
    | error f => rw [hc] at h; cases h
    | ok u =>
      rw [hc] at h
      exact key { p with statsOutputHeader := p.statsOutputHeader ++ header } hp h

theorem source_of_launch {interval : Int} {source : W × Option String}
    {rest : List (W × Option String)} {now : Nat} {t : TimePoint} {p : Pipeline T W}
    (h : launch si interval source rest now t = .ok p) :
    ∃ w, p.elements[0]? = some w ∧ w.milliseconds = intervalOf interval ∧
      w.expiry = now + intervalOf interval := by
  rw [launch] at h
  cases h₁ : addTimed interval source.1 source.2
      ({ statsInterval := si } : Pipeline T W) with
  | error f => rw [h₁] at h; cases h
  | ok p₁ =>
    obtain ⟨e, he, het⟩ := addTimed_elements rfl h₁
    rw [h₁] at h
    cases h₂ : addAll rest p₁ with
    | error f =>
      have h : (addAll rest p₁ >>= fun p => p.compile.start now t) = .ok p := h
      rw [h₂] at h
      cases h
    | ok p₂ =>
      have h : (addAll rest p₁ >>= fun p => p.compile.start now t) = .ok p := h
      rw [h₂] at h
      have h : p₂.compile.start now t = .ok p := h
      -- `compile` changes the link only, `start` the timer
      have he₂ : p₂.elements[0]? = some e := by
        obtain ⟨hlt, heq⟩ := List.getElem?_eq_some_iff.mp he
        obtain ⟨l, hl⟩ := addAll_elements h₂
        rw [← hl, List.getElem?_append_left hlt]
        exact he
      obtain ⟨e', he', het'⟩ : ∃ e', p₂.compile.elements[0]? = some e' ∧ e'.timed = e.timed := by
        rw [Pipeline.compile, getElem?_link, he₂]
        refine ⟨_, rfl, ?_⟩
        split <;> rfl
      have hp : p.elements[0]? = some (e'.scheduleWork now dummyData) := by
        unfold Pipeline.start at h
        split at h
        · cases h
        split at h
        · cases h
        split at h
        · cases h
        obtain rfl := Except.ok.inj h
        show ((p₂.compile.elements).modify 0 _)[0]? = _
        rw [List.getElem?_modify_eq, he']
        rfl
      rw [het] at het'
      have hset : (e'.scheduleWork now dummyData).timed = some
          { milliseconds := intervalOf interval
            timer := { expiry := now + intervalOf interval, pending := 1 } } := by
        rw [WorkWrapper.scheduleWork, if_pos (by rw [het']; rfl)]
        simp [WorkWrapper.startTimer, WorkWrapper.expiresAt, WorkWrapper.asyncWait,
          WorkWrapper.setTimer, WorkWrapper.postTicks, WorkWrapper.milliseconds, het']
      refine ⟨_, hp, ?_, ?_⟩
      · rw [WorkWrapper.milliseconds, hset]
        rfl
      · rw [WorkWrapper.expiry, hset]
        rfl

/-- **A started pipeline waits for its first tick**, one interval ahead. -/
theorem ticking_of_launch {interval : Int} {source : W × Option String}
    {rest : List (W × Option String)} {now : Nat} {t : TimePoint} {p : Pipeline T W}
    (h : launch si interval source rest now t = .ok p) :
    ∃ w, Ticking (State.init now p) w .waiting ∧
      ((State.init now p).metronome w .waiting).OnTime now (intervalOf interval) := by
  have hl := launched_of_launch h
  obtain ⟨w, hel, hpend⟩ := hl.source
  obtain ⟨hstrand, hact, _⟩ := hl.quiet 0 w hel
  obtain ⟨v, hv, hint, hexp⟩ := source_of_launch h
  obtain rfl : w = v := Option.some.inj (hel.symm.trans hv)
  have hst : (State.init now p).startedAt 0 = [] := rfl
  refine ⟨w, ⟨hel, ⟨hpend, hstrand, by rw [hact]; rfl⟩, rfl⟩, hint, ?_, ?_, nofun⟩
  · show w.expiry = now + intervalOf interval * (((State.init now p).startedAt 0).length + 1)
    rw [hexp, hst, List.length_nil, Nat.zero_add, Nat.mul_one]
  · show now + intervalOf interval * ((State.init now p).startedAt 0).length ≤ now
    rw [hst, List.length_nil, Nat.mul_zero]
    exact Nat.le_refl now

/-- A call of the thread beside the strands. -/
def Action.disturbs : Action T → Bool
  | .pauseCall | .changeTimer _ => true
  | _ => false

/-- Neither `pause` nor `change_timer` is called. -/
def Undisturbed (_ : State T W) (a : Action T) : Prop := a.disturbs = false

instance : ∀ (s : State T W) (a : Action T), Decidable (Undisturbed s a) :=
  fun _ a => inferInstanceAs (Decidable (a.disturbs = false))

theorem Undisturbed.noPause {a : Action T} (h : Undisturbed s a) : NoPause s a := by
  rintro rfl
  cases h

theorem Undisturbed.move {a : Action T} (h : Undisturbed s a) (ms : Nat) :
    a.move ≠ .setInterval ms := by
  intro hm
  cases a with
  | changeTimer ms' => cases h
  | expire k | run k _ | finish k _ _ | next k | restart k | rewait k =>
    cases k <;> simp [Action.move] at hm
  | elapse _ | pauseCall | pauseWait | pauseReturn | collect _ _ => simp [Action.move] at hm

/-- **Ticks do not drift.**  In a run in which neither `pause` nor
`change_timer` is called, and whatever time the work functions take: the source
has not made more items than whole intervals have passed since the start, and
whenever it has nothing to do its timer goes off exactly when the next one is
complete. -/
theorem ticks_do_not_drift {interval : Int} {source : W × Option String}
    {rest : List (W × Option String)} {now : Nat} {t : TimePoint} {p : Pipeline T W}
    (h : launch si interval source rest now t = .ok p) {as : List (Action T)} {s : State T W}
    (hrun : Steps step Undisturbed (State.init now p) as s) :
    now + intervalOf interval * (s.startedAt 0).length ≤ s.now ∧
      ∃ w, s.element 0 = some w ∧ (w.strand = [] → w.activity = none → ∀ time,
        w.due time = true ↔ now + intervalOf interval * ((s.startedAt 0).length + 1) ≤ time) := by
  obtain ⟨w₀, htick₀, htime₀⟩ := ticking_of_launch h
  obtain ⟨-, w, ph, htick, htime⟩ := hrun.invariant
    (P := fun s => Wired (works source rest) (0 < si) s ∧ ∃ w ph, Ticking s w ph ∧
      (s.metronome w ph).OnTime now (intervalOf interval))
    (by
      rintro s a s' ⟨hw, w, ph, htick, htime⟩ hok hs
      obtain ⟨w', ph', htick', hmove⟩ := metronome_step hw htick hok.noPause hs
      exact ⟨hw.step a hs, w', ph', htick', htime.step hok.move hmove⟩)
    ⟨(launched_of_launch h).wired, w₀, .waiting, htick₀, htime₀⟩
  refine ⟨htime.made, w, htick.source, fun hstrand hact time => ?_⟩
  have hph : ph = .waiting := by
    rcases htick.phase.of_idle hact with hph | hph
    · exact hph
    · have hone := htick.phase.strand
      rw [hstrand, if_pos hph] at hone
      cases hone
  subst hph
  have hexp : w.expiry = now + intervalOf interval * ((s.startedAt 0).length + 1) := htime.expiry
  rw [WorkWrapper.due, htick.phase.pending, hexp, if_pos rfl, Bool.and_eq_true, decide_eq_true_iff,
    decide_eq_true_iff]
  exact and_iff_right Nat.one_pos

/-- A camera read every 40 ms whose first frame takes 70 ms: when the second is
done as well, the third is due at 120. -/
theorem ticks_do_not_drift_slow_frame :
    ∃ s w, exec (permit step Undisturbed) (State.init 0 (twoStage 0))
        [.elapse 45, .expire 0, .run 0 1, .elapse 70, .finish 0 (some 7) 2, .next 0, .restart 0,
          .rewait 0, .expire 0, .run 0 3, .finish 0 none 4, .next 0, .restart 0, .rewait 0] =
        some s ∧
      s.now = 115 ∧ s.element 0 = some w ∧ ∀ time, w.due time = true ↔ 120 ≤ time := by
  obtain ⟨s, hs, hnow, hlen, hidle⟩ := show ∃ s, exec (permit step Undisturbed)
      (State.init 0 (twoStage 0))
      [.elapse 45, .expire 0, .run 0 1, .elapse 70, .finish 0 (some 7) 2, .next 0, .restart 0,
        .rewait 0, .expire 0, .run 0 3, .finish 0 none 4, .next 0, .restart 0, .rewait 0] =
        some s ∧ s.now = 115 ∧ (s.startedAt 0).length = 2 ∧
        ∀ w ∈ s.element 0, w.strand = [] ∧ w.activity = none from
    ⟨_, rfl, rfl, rfl, by decide⟩
  obtain ⟨-, w, hel, hdue⟩ :=
    ticks_do_not_drift (launch_twoStage 0) (steps_iff_exec_permit.mpr hs)
  obtain ⟨hstrand, hact⟩ := hidle w hel
  refine ⟨s, w, hs, hnow, hel, fun time => ?_⟩
  rw [hdue hstrand hact, hlen]
  exact Iff.of_eq rfl

end Pipeline

end SecMon
