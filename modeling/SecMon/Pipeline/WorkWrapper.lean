import Mathlib.Data.List.Basic

/-!
# Work wrappers and their timers

`Pipeline/WorkWrapper.h` and `Pipeline/TimedWorkWrapper.h`.  An element of a
pipeline owns a strand, a work function, the link to the next element and,
when statistics are on, a share of a queue of times.  The first element also
owns a `steady_timer`; what makes it a `TimedWorkWrapper` is the field
`timed`.

What is assumed of `boost::asio` is visible in the types.  A strand is the
list of the handlers posted to it, oldest first, with at most one `activity`.
A `steady_timer` is its expiry and the number of waits still pending on it:
resetting the expiry or cancelling aborts exactly those, and their handlers
reach the strand with `operation_aborted`; a wait whose time has passed and
whose handler is already in the strand is out of reach.
-/

namespace SecMon

/-- A reading of `high_resolution_clock`, in nanoseconds.  It is the system
clock, so nothing is assumed about the order of two readings. -/
abbrev TimePoint := Int

/-- `TimeStatsQueue`: start and end of each piece of work, oldest first. -/
abbrev TimeStatsQueue := List (TimePoint × TimePoint)

/-- What a wait handler is called with. -/
inductive ErrorCode
  | success
  | operationAborted
  deriving DecidableEq, Repr

/-- `boost::asio::steady_timer`. -/
structure SteadyTimer where
  expiry : Nat := 0
  pending : Nat := 0
  deriving DecidableEq, Repr

/-- The data an element works on: a `shared_ptr<T>` (`none` is null).  `id`
and `applied` are history: the number of the tick that made the item, and the
work functions applied to it so far, oldest first. -/
structure Item (T W : Type) where
  id : Nat
  data : Option T
  applied : List W
  deriving DecidableEq, Repr

/-- The item when work `w` is done and has left `data` in it. -/
def Item.worked {T W : Type} (w : W) (data : Option T) (it : Item T W) : Item T W :=
  { it with data := data, applied := it.applied ++ [w] }

/-- A handler in an element's strand: the timed element's `do_work(ec)` or a
plain element's `do_work(data)`. -/
inductive Handler (T W : Type)
  | tick (ec : ErrorCode)
  | work (data : Item T W)
  deriving DecidableEq, Repr

/-- Where a `do_work` that has begun stands. -/
inductive Activity (T W : Type)
  /-- inside `work_(data)`, entered at `start_time` -/
  | working (data : Item T W) (startTime : TimePoint)
  /-- the times are recorded, `next_` is still to be called -/
  | worked (data : Item T W)
  /-- at `restart_timer()`, before the expiry is set -/
  | restarting
  /-- in `restart_timer()`, before `async_wait` -/
  | rewaiting
  deriving DecidableEq, Repr

/-- What a `TimedWorkWrapper` has beyond a `WorkWrapper`. -/
structure Timed where
  milliseconds : Nat
  timer : SteadyTimer := {}
  paused : Bool := false
  deriving DecidableEq, Repr

/-- An element of the pipeline.  `next` is the element whose `schedule_work`
is bound in `next_`, `timeStatsQueue` the position of the shared queue in
`time_stats_`. -/
structure WorkWrapper (T W : Type) where
  work : W
  timeStatsQueue : Option Nat
  timed : Option Timed
  next : Option Nat := none
  strand : List (Handler T W) := []
  activity : Option (Activity T W) := none
  deriving DecidableEq, Repr

namespace WorkWrapper

variable {T W : Type}

/-- `strand_.post`. -/
def post (h : Handler T W) (w : WorkWrapper T W) : WorkWrapper T W :=
  { w with strand := w.strand ++ [h] }

/-- Put the handlers of `n` waits that ended with `ec` into the strand. -/
def postTicks (ec : ErrorCode) (n : Nat) (w : WorkWrapper T W) : WorkWrapper T W :=
  { w with strand := w.strand ++ List.replicate n (.tick ec) }

/-- `milliseconds_`. -/
def milliseconds (w : WorkWrapper T W) : Nat := (w.timed.map Timed.milliseconds).getD 0

/-- `timer_.expires_at()`. -/
def expiry (w : WorkWrapper T W) : Nat := (w.timed.map (·.timer.expiry)).getD 0

/-- The waits pending on the timer. -/
def pending (w : WorkWrapper T W) : Nat := (w.timed.map (·.timer.pending)).getD 0

/-- `TimedWorkWrapper::paused_`. -/
def paused (w : WorkWrapper T W) : Bool := (w.timed.map Timed.paused).getD false

def setTimer (f : SteadyTimer → SteadyTimer) (w : WorkWrapper T W) : WorkWrapper T W :=
  { w with timed := w.timed.map fun t => { t with timer := f t.timer } }

/-- `timer_.cancel()`. -/
def cancel (w : WorkWrapper T W) : WorkWrapper T W :=
  (w.setTimer fun t => { t with pending := 0 }).postTicks .operationAborted w.pending

/-- `timer_.expires_at(e)`, which aborts what is pending. -/
def expiresAt (e : Nat) (w : WorkWrapper T W) : WorkWrapper T W :=
  (w.setTimer fun _ => { expiry := e, pending := 0 }).postTicks .operationAborted w.pending

/-- `timer_.async_wait(strand_.wrap(do_work))`. -/
def asyncWait (w : WorkWrapper T W) : WorkWrapper T W :=
  w.setTimer fun t => { t with pending := t.pending + 1 }

/-- Whether the timer has waits that are due at `now`. -/
def due (now : Nat) (w : WorkWrapper T W) : Bool := 0 < w.pending && w.expiry ≤ now

/-- The timer goes off: every pending wait's handler enters the strand. -/
def expire (w : WorkWrapper T W) : WorkWrapper T W :=
  (w.setTimer fun t => { t with pending := 0 }).postTicks .success w.pending

/-- `paused_ = b`. -/
def setPaused (b : Bool) (w : WorkWrapper T W) : WorkWrapper T W :=
  { w with timed := w.timed.map fun t => { t with paused := b } }

/-- `TimedWorkWrapper::set_interval`. -/
def setInterval (milliseconds : Nat) (w : WorkWrapper T W) : WorkWrapper T W :=
  { w with timed := w.timed.map fun t => { t with milliseconds := milliseconds } }

/-- `TimedWorkWrapper::start_timer`, called when the clock reads `now`. -/
def startTimer (now : Nat) (w : WorkWrapper T W) : WorkWrapper T W :=
  (w.expiresAt (now + w.milliseconds)).asyncWait

/-- `TimedWorkWrapper::restart_timer`. -/
def restartTimer (w : WorkWrapper T W) : WorkWrapper T W :=
  (w.expiresAt (w.expiry + w.milliseconds)).asyncWait

/-- `restart_timer` as far as the new expiry. -/
def restart (w : WorkWrapper T W) : WorkWrapper T W :=
  { w.expiresAt (w.expiry + w.milliseconds) with activity := some .rewaiting }

/-- The rest of `restart_timer`; the handler ends. -/
def rewait (w : WorkWrapper T W) : WorkWrapper T W := { w.asyncWait with activity := none }

theorem rewait_restart (w : WorkWrapper T W) :
    w.restart.rewait = { w.restartTimer with activity := none } := rfl

/-- `do_work` when `next_` has returned: a timed element has its timer to see
to, a plain one is done. -/
def afterNext (w : WorkWrapper T W) : WorkWrapper T W :=
  { w with activity := if w.timed.isSome then some .restarting else none }

/-- `TimedWorkWrapper::pause`. -/
def pause (now : Nat) (w : WorkWrapper T W) : WorkWrapper T W :=
  if w.paused then (w.startTimer now).setPaused false else w.cancel.setPaused true

/-- `schedule_work`, virtual: a timed element starts its timer and drops the
data, a plain one posts its `do_work`. -/
def scheduleWork (now : Nat) (data : Item T W) (w : WorkWrapper T W) : WorkWrapper T W :=
  if w.timed.isSome then w.startTimer now else w.post (.work data)

end WorkWrapper

end SecMon
