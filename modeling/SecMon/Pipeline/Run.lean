import SecMon.Core.Machine
import SecMon.Pipeline.Pipeline

/-!
# A pipeline at work

The handlers of a started pipeline run on a pool of threads, while one more
thread calls `pause` and `change_timer`.  `Pipeline.step` is one atomic piece
of that: the clock moves, a timer goes off, a strand takes its next handler,
a `do_work` gets to its next call into the outside, the caller gets to its
next call on the timer, or `collect_stats` fires.  The environment's choices
(clock readings, what a work function leaves in the data) are in the
`Action`; every interleaving is a list of actions.

`log` is history: what was started and completed, in order.
-/

namespace SecMon

namespace Pipeline

variable {T W : Type}

/-- Where the thread that calls `pause` stands. -/
inductive Caller
  | idle
  /-- the timer's expiry is reset, `async_wait` is still to come -/
  | rearming
  /-- the timer is dealt with, the flags are still to be switched -/
  | switching
  deriving DecidableEq, Repr

inductive Event (T W : Type)
  /-- element `k` entered its work function with `data` -/
  | started (k : Nat) (data : Item T W)
  /-- the work function of element `k` returned; the times were recorded -/
  | completed (k : Nat) (data : Item T W) (startTime endTime : TimePoint)
  deriving DecidableEq, Repr

structure State (T W : Type) where
  now : Nat
  pipeline : Pipeline T W
  caller : Caller := .idle
  log : List (Event T W) := []
  printed : List StatsOutput := []
  deriving DecidableEq, Repr

inductive Action (T : Type)
  /-- the steady clock moves on -/
  | elapse (d : Nat)
  /-- the timer of element `k` goes off -/
  | expire (k : Nat)
  /-- the strand of element `k` takes its next handler; the clock reads `t` -/
  | run (k : Nat) (t : TimePoint)
  /-- the work function of element `k` returns at `t`, with `data` left in it -/
  | finish (k : Nat) (data : Option T) (t : TimePoint)
  /-- element `k` calls `next_` -/
  | next (k : Nat)
  /-- element `k` sets its timer's next expiry -/
  | restart (k : Nat)
  /-- element `k` waits on its timer again; its handler ends -/
  | rewait (k : Nat)
  /-- `pause()` is called: cancel, or reset the expiry -/
  | pauseCall
  /-- the `async_wait` of a `pause()` that resumes -/
  | pauseWait
  /-- `pause()` switches the flags and returns -/
  | pauseReturn
  | changeTimer (milliseconds : Nat)
  /-- `collect_stats` fires -/
  | collect (start stop : TimePoint)
  deriving DecidableEq, Repr

namespace State

def element (s : State T W) (k : Nat) : Option (WorkWrapper T W) := s.pipeline.elements[k]?

def modify (k : Nat) (f : WorkWrapper T W → WorkWrapper T W) (s : State T W) : State T W :=
  { s with pipeline := s.pipeline.modify k f }

def record (e : Event T W) (s : State T W) : State T W := { s with log := s.log ++ [e] }

/-- The items element `k` has started work on, in order. -/
def startedAt (s : State T W) (k : Nat) : List (Item T W) :=
  s.log.filterMap fun
    | .started j it => if j = k then some it else none
    | .completed .. => none

/-- The items whose work at element `k` is complete, with the times recorded. -/
def timedAt (s : State T W) (k : Nat) : List (Item T W × TimePoint × TimePoint) :=
  s.log.filterMap fun
    | .started .. => none
    | .completed j it t₀ t₁ => if j = k then some (it, t₀, t₁) else none

/-- The items whose work at element `k` is complete, in order. -/
def completedAt (s : State T W) (k : Nat) : List (Item T W) := (s.timedAt k).map Prod.fst

/-- Every statistics row printed so far. -/
def rows (s : State T W) : List StatsRow := s.printed.flatMap StatsOutput.rows

end State

/-- `time_stats_queue_->emplace(start_time, end_time)`, if there is a queue. -/
def emplaceTimes (queue : Option Nat) (times : TimePoint × TimePoint) (p : Pipeline T W) :
    Pipeline T W :=
  match queue with
  | none => p
  | some j => { p with timeStats := p.timeStats.modify j (· ++ [times]) }

/-- The data a handler works on.  An aborted tick does nothing; a tick makes a
new, null item; the ticks so far number it. -/
def State.dataOf (s : State T W) : Handler T W → Option (Item T W)
  | .tick .operationAborted => none
  | .tick .success => some { id := (s.startedAt 0).length, data := none, applied := [] }
  | .work data => some data

/-- `do_work` begins, or returns at once. -/
def State.begin (k : Nat) (t : TimePoint) (h : Handler T W) (s : State T W) : State T W :=
  match s.dataOf h with
  | none => s
  | some data =>
    (s.modify k fun w => { w with activity := some (.working data t) }).record (.started k data)

/-- `next_(data)`, unless `next_` is empty. -/
def State.pass (next : Option Nat) (data : Item T W) (s : State T W) : State T W :=
  match next with
  | none => s
  | some j => s.modify j (·.scheduleWork s.now data)

def step (s : State T W) : Action T → Option (State T W)
  | .elapse d => some { s with now := s.now + d }
  | .expire k => (s.element k).bind fun w =>
      if w.due s.now then some (s.modify k WorkWrapper.expire) else none
  | .run k t => (s.element k).bind fun w =>
      match w.activity, w.strand with
      | none, h :: rest => some ((s.modify k fun w => { w with strand := rest }).begin k t h)
      | _, _ => none
  | .finish k data t => (s.element k).bind fun w =>
      match w.activity with
      | some (.working it t₀) =>
        some (({ s with
            pipeline := emplaceTimes w.timeStatsQueue (t₀, t) s.pipeline }.modify k
          fun w' => { w' with activity := some (.worked (it.worked w.work data)) }).record
            (.completed k (it.worked w.work data) t₀ t))
      | _ => none
  | .next k => (s.element k).bind fun w =>
      match w.activity with
      | some (.worked it) => some ((s.modify k WorkWrapper.afterNext).pass w.next it)
      | _ => none
  | .restart k => (s.element k).bind fun w =>
      match w.activity with
      | some .restarting => some (s.modify k WorkWrapper.restart)
      | _ => none
  | .rewait k => (s.element k).bind fun w =>
      match w.activity with
      | some .rewaiting => some (s.modify k WorkWrapper.rewait)
      | _ => none
  | .pauseCall =>
      match s.caller, s.pipeline.checkPause with
      | .idle, .ok () => (s.element 0).bind fun w =>
          if w.paused then
            some { s.modify 0 (fun w => w.expiresAt (s.now + w.milliseconds)) with
              caller := .rearming }
          else some { s.modify 0 WorkWrapper.cancel with caller := .switching }
      | _, _ => none
  | .pauseWait =>
      match s.caller with
      | .rearming => some { s.modify 0 WorkWrapper.asyncWait with caller := .switching }
      | _ => none
  | .pauseReturn =>
      match s.caller with
      | .switching =>
        some { s with
          pipeline := { s.pipeline.modify 0 (fun w => w.setPaused !w.paused) with
            paused := !s.pipeline.paused }
          caller := .idle }
      | _ => none
  | .changeTimer ms =>
      match s.caller, s.pipeline.changeTimer ms with
      | .idle, .ok p => some { s with pipeline := p }
      | _, _ => none
  | .collect start stop =>
      if 0 < s.pipeline.timer.pending ∧ s.pipeline.timer.expiry ≤ s.now then
        let (p, out) := { s.pipeline with
          timer := { s.pipeline.timer with pending := s.pipeline.timer.pending - 1 } }.collectStats
            start stop
        some { s with pipeline := p, printed := s.printed ++ [out] }
      else none

/-- The state of a pipeline object before any handler has run. -/
def State.init (now : Nat) (p : Pipeline T W) : State T W := { now := now, pipeline := p }

/-! ### What each step does -/

variable {s s' : State T W} {k : Nat}

theorem step_expire : step s (.expire k) = some s' ↔
    ∃ w, s.element k = some w ∧ w.due s.now = true ∧ s.modify k WorkWrapper.expire = s' := by
  simp [step, Option.bind_eq_some_iff]

theorem step_run {t : TimePoint} : step s (.run k t) = some s' ↔
    ∃ w h rest, s.element k = some w ∧ w.activity = none ∧ w.strand = h :: rest ∧
      (s.modify k fun w => { w with strand := rest }).begin k t h = s' := by
  simp only [step, Option.bind_eq_some_iff]
  constructor
  · intro hr
    obtain ⟨w, hw, h⟩ := hr
    split at h
    · rename_i x y hact hstrand
      exact ⟨w, _, _, hw, hact, hstrand, by simpa using h⟩
    · simp at h
  · intro hr
    obtain ⟨w, h, rest, hw, hact, hstrand, rfl⟩ := hr
    exact ⟨w, hw, by simp [hact, hstrand]⟩

theorem step_finish {data : Option T} {t : TimePoint} : step s (.finish k data t) = some s' ↔
    ∃ w it t₀, s.element k = some w ∧ w.activity = some (.working it t₀) ∧
      (({ s with pipeline := emplaceTimes w.timeStatsQueue (t₀, t) s.pipeline }.modify k
          fun w' => { w' with activity := some (.worked (it.worked w.work data)) }).record
        (.completed k (it.worked w.work data) t₀ t)) = s' := by
  simp only [step, Option.bind_eq_some_iff]
  constructor
  · intro hr
    obtain ⟨w, hw, h⟩ := hr
    split at h
    · rename_i it t₀ hact
      exact ⟨w, it, t₀, hw, hact, by simpa using h⟩
    · simp at h
  · intro hr
    obtain ⟨w, it, t₀, hw, hact, rfl⟩ := hr
    exact ⟨w, hw, by simp [hact]⟩

theorem step_next : step s (.next k) = some s' ↔
    ∃ w it, s.element k = some w ∧ w.activity = some (.worked it) ∧
      (s.modify k WorkWrapper.afterNext).pass w.next it = s' := by
  simp only [step, Option.bind_eq_some_iff]
  constructor
  · intro hr
    obtain ⟨w, hw, h⟩ := hr
    split at h
    · rename_i it hact
      exact ⟨w, it, hw, hact, by simpa using h⟩
    · simp at h
  · intro hr
    obtain ⟨w, it, hw, hact, rfl⟩ := hr
    exact ⟨w, hw, by simp [hact]⟩

theorem step_restart : step s (.restart k) = some s' ↔
    ∃ w, s.element k = some w ∧ w.activity = some .restarting ∧
      s.modify k WorkWrapper.restart = s' := by
  simp only [step, Option.bind_eq_some_iff]
  constructor
  · intro hr
    obtain ⟨w, hw, h⟩ := hr
    split at h
    · rename_i hact
      exact ⟨w, hw, hact, by simpa using h⟩
    · simp at h
  · intro hr
    obtain ⟨w, hw, hact, rfl⟩ := hr
    exact ⟨w, hw, by simp [hact]⟩

theorem step_rewait : step s (.rewait k) = some s' ↔
    ∃ w, s.element k = some w ∧ w.activity = some .rewaiting ∧
      s.modify k WorkWrapper.rewait = s' := by
  simp only [step, Option.bind_eq_some_iff]
  constructor
  · intro hr
    obtain ⟨w, hw, h⟩ := hr
    split at h
    · rename_i hact
      exact ⟨w, hw, hact, by simpa using h⟩
    · simp at h
  · intro hr
    obtain ⟨w, hw, hact, rfl⟩ := hr
    exact ⟨w, hw, by simp [hact]⟩

theorem step_pauseCall : step s .pauseCall = some s' ↔
    ∃ w, s.element 0 = some w ∧ s.caller = .idle ∧ s.pipeline.checkPause = .ok () ∧
      ((w.paused = true ∧
          { s.modify 0 (fun w => w.expiresAt (s.now + w.milliseconds)) with
            caller := .rearming } = s') ∨
        (w.paused = false ∧
          { s.modify 0 WorkWrapper.cancel with caller := .switching } = s')) := by
  simp only [step]
  constructor
  · intro h
    split at h
    · rename_i hc hp
      obtain ⟨w, hw, h⟩ := Option.bind_eq_some_iff.mp h
      refine ⟨w, hw, hc, hp, ?_⟩
      cases hpa : w.paused with
      | true => exact .inl ⟨rfl, by simpa [hpa] using h⟩
      | false => exact .inr ⟨rfl, by simpa [hpa] using h⟩
    · simp at h
  · intro hr
    obtain ⟨w, hw, hc, hp, ⟨hpa, rfl⟩ | ⟨hpa, rfl⟩⟩ := hr
    · simp [hc, hp, hw, hpa]
    · simp [hc, hp, hw, hpa]

theorem step_pauseWait : step s .pauseWait = some s' ↔ s.caller = .rearming ∧
    { s.modify 0 WorkWrapper.asyncWait with caller := .switching } = s' := by
  cases h : s.caller <;> simp [step, h]

theorem step_pauseReturn : step s .pauseReturn = some s' ↔ s.caller = .switching ∧
    { s with
      pipeline := { s.pipeline.modify 0 (fun w => w.setPaused !w.paused) with
        paused := !s.pipeline.paused }
      caller := .idle } = s' := by
  cases h : s.caller <;> simp [step, h]

theorem step_changeTimer {ms : Nat} : step s (.changeTimer ms) = some s' ↔
    s.caller = .idle ∧ ∃ p, s.pipeline.changeTimer ms = .ok p ∧
      { s with pipeline := p } = s' := by
  cases h : s.caller <;> cases hp : s.pipeline.changeTimer ms <;> simp [step, h, hp]

end Pipeline

end SecMon
