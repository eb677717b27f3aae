import SecMon.Pipeline.WorkWrapper

/-!
# The pipeline object

`Pipeline/Pipeline.h`: the life cycle (`addTimedElement`, `addElement`,
`compile`, `start`, `pause`, `change_timer`) and the statistics row writer
`collect_stats`.  A call that throws gives `Fault.thrown` with the text of the
source; a call whose behaviour C++ leaves undefined (`front()` of an empty
vector, a `static_cast` to a class the object does not have) gives
`Fault.undefined`.
-/

namespace SecMon

/-- How a call can fail to return. -/
inductive Fault
  | thrown (message : String)
  | undefined
  deriving DecidableEq, Repr

/-- One cell of a statistics row: the entry that was popped (`none` where the
queue was empty and the read is undefined) and the two numbers printed. -/
structure StatsCell where
  times : Option (TimePoint × TimePoint)
  waited : Option Int
  worked : Option Int
  deriving DecidableEq, Repr

abbrev StatsRow := List StatsCell

/-- What one run of `collect_stats` prints: the header, the rows and the time
it took itself. -/
structure StatsOutput where
  header : String
  rows : List StatsRow
  dur : Int
  deriving DecidableEq, Repr

structure Pipeline (T W : Type) where
  statsInterval : Nat
  timer : SteadyTimer := {}
  paused : Bool := false
  started : Bool := false
  compiled : Bool := false
  elements : List (WorkWrapper T W) := []
  timeStats : List TimeStatsQueue := []
  lastStatsTime : Option TimePoint := none
  statsOutputHeader : String := "Interval"
  deriving DecidableEq, Repr

namespace Pipeline

variable {T W : Type}

/-! ### Building -/

/-- The two checks of `addTimedElement`; both overloads make them. -/
def checkAddTimed (p : Pipeline T W) : Except Fault Unit :=
  if p.compiled then
    .error (.thrown "Can't add elements once the pipeline has been compiled")
  else if p.elements.isEmpty then .ok ()
  else .error (.thrown "Can only add TimedElement to an empty pipeline")

/-- The two checks of `addElement`. -/
def checkAdd (p : Pipeline T W) : Except Fault Unit :=
  if p.compiled then
    .error (.thrown "Can't add elements once the pipeline has been compiled")
  else if p.elements.isEmpty then
    .error (.thrown
      "Can only add regular Elements after a TimedElement or BlockingElement has been added")
  else .ok ()

/-- `elements_.emplace_back`, with a new queue of times when statistics are on. -/
def emplaceBack (work : W) (timed : Option Timed) (p : Pipeline T W) : Pipeline T W :=
  if 0 < p.statsInterval then
    { p with
      timeStats := p.timeStats ++ [[]]
      elements := p.elements ++
        [{ work := work, timeStatsQueue := some p.timeStats.length, timed := timed }] }
  else
    { p with
      elements := p.elements ++ [{ work := work, timeStatsQueue := none, timed := timed }] }

/-- `addTimedElement(timer_type, interval, work)`; the `int` interval becomes
an `unsigned int`. -/
def addTimedElement (interval : Int) (work : W) (p : Pipeline T W) :
    Except Fault (Pipeline T W) := do
  p.checkAddTimed
  return p.emplaceBack work (some { milliseconds := (interval % 4294967296).toNat })

/-- `addTimedElement` with a column header. -/
def addTimedElementHeader (interval : Int) (work : W) (header : String) (p : Pipeline T W) :
    Except Fault (Pipeline T W) := do
  p.checkAddTimed
  { p with statsOutputHeader := p.statsOutputHeader ++ header }.addTimedElement interval work

/-- `addElement(work)`. -/
def addElement (work : W) (p : Pipeline T W) : Except Fault (Pipeline T W) := do
  p.checkAdd
  return p.emplaceBack work none

/-- `addElement` with a column header. -/
def addElementHeader (work : W) (header : String) (p : Pipeline T W) :
    Except Fault (Pipeline T W) := do
  p.checkAdd
  { p with statsOutputHeader := p.statsOutputHeader ++ "      ->" ++ header }.addElement work

/-- The loop of `compile`: two iterators walk the elements, and each element's
`next_` is bound to the one after it.  The list starts at element `k`. -/
def link : Nat → List (WorkWrapper T W) → List (WorkWrapper T W)
  | _, [] => []
  | _, [e] => [e]
  | k, e :: e' :: es => { e with next := some (k + 1) } :: link (k + 1) (e' :: es)

def compile (p : Pipeline T W) : Pipeline T W :=
  { p with elements := link 0 p.elements, compiled := true }

/-! ### Running -/

/-- Change element `k`. -/
def modify (k : Nat) (f : WorkWrapper T W → WorkWrapper T W) (p : Pipeline T W) :
    Pipeline T W :=
  { p with elements := p.elements.modify k f }

/-- `start_stats_timer()`; the steady clock reads `now`, the high resolution
clock `t`. -/
def startStatsTimer (now : Nat) (t : TimePoint) (p : Pipeline T W) : Pipeline T W :=
  { p with
    timer := { expiry := now + p.statsInterval, pending := 1 }
    lastStatsTime := some t }

/-- The null item `start()` passes to the first element. -/
def dummyData : Item T W := { id := 0, data := none, applied := [] }

def start (now : Nat) (t : TimePoint) (p : Pipeline T W) : Except Fault (Pipeline T W) :=
  if !p.compiled then
    .error (.thrown "Can't perform start operation before pipeline is compiled")
  else if p.started then .error (.thrown "Pipeline has already been started!")
  else if p.elements.isEmpty then .error .undefined
  else .ok { (p.modify 0 (·.scheduleWork now dummyData)).startStatsTimer now t with
    started := true }

/-- The checks of `pause()`. -/
def checkPause (p : Pipeline T W) : Except Fault Unit :=
  if !p.compiled then
    .error (.thrown "Can't perform pause operation before pipeline is compiled")
  else if !p.started then
    .error (.thrown "Can't perform pause operation before pipeline is started")
  else if (p.elements.head?.bind WorkWrapper.timed).isNone then .error .undefined
  else .ok ()

def pause (now : Nat) (p : Pipeline T W) : Except Fault (Pipeline T W) := do
  p.checkPause
  return { p.modify 0 (·.pause now) with paused := !p.paused }

def changeTimer (milliseconds : Nat) (p : Pipeline T W) : Except Fault (Pipeline T W) :=
  if !p.compiled then
    .error (.thrown "Can't perform change_timer operation before pipeline is compiled")
  else if (p.elements.head?.bind WorkWrapper.timed).isNone then .error .undefined
  else .ok (p.modify 0 (·.setInterval milliseconds))

/-! ### Statistics -/

/-- `duration_cast<microseconds>`. -/
def microseconds (d : Int) : Int := d.tdiv 1000

/-- `time_stats_.back()->size()`. -/
def backSize (qs : List TimeStatsQueue) : Nat := (qs.getLast?.map List.length).getD 0

/-- `time_stats_.front()->front().first`. -/
def frontTime (qs : List TimeStatsQueue) : Option TimePoint :=
  (qs.head?.bind List.head?).map Prod.fst

/-- One row: every stage's queue loses its front entry, which is printed
against `last_time`.  Gives the row, the new `last_time` and the queues. -/
def statsRow : Option TimePoint → List TimeStatsQueue →
    StatsRow × Option TimePoint × List TimeStatsQueue
  | last, [] => ([], last, [])
  | last, q :: qs =>
    let times := q.head?
    let cell : StatsCell :=
      { times := times
        waited := times.bind fun t => last.map fun l => microseconds (t.1 - l)
        worked := times.map fun t => microseconds (t.2 - t.1) }
    let (cells, last', qs') := statsRow (times.map Prod.snd) qs
    (cell :: cells, last', q.tail :: qs')

/-- The row loop.  `i` rises while the queue it is compared with is drained by
the body; the fuel is that queue's size at the start. -/
def statsRows : Nat → Nat → Option TimePoint → Option TimePoint → List TimeStatsQueue →
    List StatsRow × Option TimePoint × List TimeStatsQueue
  | 0, _, _, lastStats, qs => ([], lastStats, qs)
  | fuel + 1, i, last, lastStats, qs =>
    if i < backSize qs then
      let (row, last', qs') := statsRow last qs
      let (rows, lastStats', qs'') := statsRows fuel (i + 1) last' (frontTime qs) qs'
      (row :: rows, lastStats', qs'')
    else ([], lastStats, qs)

/-- `collect_stats` called with success; the high resolution clock reads
`start` and `stop` around it. -/
def collectStats (start stop : TimePoint) (p : Pipeline T W) : Pipeline T W × StatsOutput :=
  let (rows, lastStats, qs) :=
    statsRows (backSize p.timeStats) 0 p.lastStatsTime (frontTime p.timeStats) p.timeStats
  ({ p with
      timeStats := qs
      lastStatsTime := lastStats
      timer := { expiry := p.timer.expiry + p.statsInterval, pending := p.timer.pending + 1 } },
    { header := p.statsOutputHeader, rows := rows, dur := microseconds (stop - start) })

end Pipeline

end SecMon
