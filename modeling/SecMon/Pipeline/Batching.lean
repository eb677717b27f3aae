import Mathlib.Logic.Function.Basic
import SecMon.Pipeline.Firing

/-!
# Batches of statistics rows

The same entries can come to `collect_stats` in many ways: the stages fill
their queues at their own pace, and the timer fires in between.  A row is
printed against `last_time`, and what that is depends on where the row stands
(`Opening`): behind another row of the same firing it is the end of the frame
before, at the head of a firing it is `last_stats_time_`.

* `statsRows_queuesFrom`: what the row loop prints of queues that hold frames.
* `rows_of_run`: every row that a sequence of events prints.  Where the rows
  stand is counted from the events alone (`openings`).
* `printing_of_run`: the runs of a pipeline are such sequences.
* `batching_iff`: when the rows of two runs agree.
-/

namespace SecMon

namespace Pipeline

open Machine

variable {T W : Type}

/-! ### Entries and firings -/

/-- The start and the end of a frame at a stage. -/
abbrev FrameTimes := Nat → Nat → TimePoint × TimePoint

/-- A stage enters the times of its next frame, or the statistics timer fires. -/
inductive StatsEvent
  | emplace (k : Nat)
  | collect (start stop : TimePoint)
  deriving DecidableEq, Repr

/-- A pipeline and what it has printed. -/
structure Printing (T W : Type) where
  pipeline : Pipeline T W
  printed : List StatsOutput := []

def Printing.rows (s : Printing T W) : List StatsRow := s.printed.flatMap StatsOutput.rows

/-- One event.  The next frame of a stage comes behind those that are printed
and those in its queue; a firing that would read an empty container is not
possible. -/
def statsStep (times : FrameTimes) (s : Printing T W) : StatsEvent → Option (Printing T W)
  | .emplace k => s.pipeline.timeStats[k]?.map fun q =>
      { s with pipeline := emplaceTimes (some k) (times (s.rows.length + q.length) k) s.pipeline }
  | .collect start stop =>
    if 0 ∈ s.pipeline.collectReads then none
    else some
      { pipeline := (s.pipeline.collectStats start stop).1
        printed := s.printed ++ [(s.pipeline.collectStats start stop).2] }

/-! ### One row -/

/-- The row of a frame's entries against a time. -/
def frameRow : Option TimePoint → List (TimePoint × TimePoint) → StatsRow
  | _, [] => []
  | last, t :: ts =>
    { times := some t
      waited := last.map fun l => microseconds (t.1 - l)
      worked := some (microseconds (t.2 - t.1)) } :: frameRow (some t.2) ts

/-- The numbers of a row, in the order of the columns. -/
def numbers (row : StatsRow) : List (Option Int × Option Int) :=
  row.map fun c => (c.waited, c.worked)

theorem statsRow_of_heads : ∀ (last : Option TimePoint) (qs : List TimeStatsQueue)
    (ts : List (TimePoint × TimePoint)), qs.map List.head? = ts.map some →
    statsRow last qs = (frameRow last ts, (ts.getLast?.map Prod.snd).or last, qs.map List.tail)
  | last, [], ts, h => by
    obtain rfl : ts = [] := by simpa using h.symm
    rfl
  | last, q :: qs, [], h => by simp at h
  | last, q :: qs, t :: ts, h => by
    rw [List.map_cons, List.map_cons, List.cons.injEq] at h
    rw [statsRow, h.1, Option.map_some, statsRow_of_heads _ qs ts h.2, List.getLast?_cons]
    cases ts.getLast? <;> rfl

/-- Only the first number of a row depends on what it is printed against. -/
theorem numbers_frameRow_iff {l l' : TimePoint} {ts : List (TimePoint × TimePoint)} :
    numbers (frameRow (some l) ts) = numbers (frameRow (some l') ts) ↔
      ∀ t ∈ ts.head?, microseconds (t.1 - l) = microseconds (t.1 - l') := by
  cases ts with
  | nil => simp [frameRow]
  | cons t ts => simp [frameRow, numbers]

/-! ### Queues that hold frames -/

/-- The entries of a frame. -/
def frame (times : FrameTimes) (n j : Nat) : List (TimePoint × TimePoint) :=
  (List.range n).map (times j)

/-- `n` queues that hold the frames from `r` on, stage `k` `len k` of them. -/
def queuesFrom (times : FrameTimes) (n r : Nat) (len : Nat → Nat) : List TimeStatsQueue :=
  (List.range n).map fun k => (List.range' r (len k)).map fun j => times j k

section queues

variable {times : FrameTimes} {n r : Nat} {len : Nat → Nat}

theorem queuesFrom_tail : (queuesFrom times n r len).map List.tail =
    queuesFrom times n (r + 1) fun k => len k - 1 := by
  rw [queuesFrom, queuesFrom, List.map_map]
  refine List.map_congr_left fun k _ => ?_
  rw [Function.comp_apply, ← List.map_tail, List.tail_range']

theorem backSize_queuesFrom (hn : 0 < n) : backSize (queuesFrom times n r len) = len (n - 1) := by
  obtain ⟨n, rfl⟩ := Nat.exists_eq_succ_of_ne_zero (Nat.ne_of_gt hn)
  simp [backSize, queuesFrom, List.range_succ]

theorem queuesFrom_heads (h : ∀ k < n, 0 < len k) :
    (queuesFrom times n r len).map List.head? = (frame times n r).map some := by
  rw [queuesFrom, frame, List.map_map, List.map_map]
  refine List.map_congr_left fun k hk => ?_
  have hlen := h k (List.mem_range.mp hk)
  simp [List.head?_range', Nat.ne_of_gt hlen]

theorem frontTime_queuesFrom (hn : 0 < n) (h : 0 < len 0) :
    frontTime (queuesFrom times n r len) = some (times r 0).1 := by
  obtain ⟨n, rfl⟩ := Nat.exists_eq_succ_of_ne_zero (Nat.ne_of_gt hn)
  simp [frontTime, queuesFrom, List.range_succ_eq_map, List.head?_range', Nat.ne_of_gt h]

theorem len_pos_of_rowReads (h : 0 ∉ rowReads (queuesFrom times n r len)) : ∀ k < n, 0 < len k := by
  intro k hk
  by_contra hlen
  refine h (List.mem_flatMap.mpr ⟨_, List.mem_map_of_mem (List.mem_range.mpr hk), ?_⟩)
  simp only [List.length_map, List.length_range', List.mem_cons]
  omega

theorem len_pos_of_frontReads (h : 0 ∉ frontReads (queuesFrom times n r len)) :
    0 < n ∧ 0 < len 0 := by
  cases n with
  | zero => exact absurd List.mem_cons_self h
  | succ n =>
    refine ⟨Nat.succ_pos n, ?_⟩
    by_contra hlen
    refine h ?_
    simp [frontReads, queuesFrom, List.range_succ_eq_map]
    omega

/-- The rows of `m` frames from `r` on, in one firing. -/
def loopRows (times : FrameTimes) (n : Nat) : Nat → Option TimePoint → Nat → List StatsRow
  | _, _, 0 => []
  | r, last, m + 1 =>
    frameRow last (frame times n r) :: loopRows times n (r + 1) (some (times r (n - 1)).2) m

theorem getLast?_frame (hn : 0 < n) : (frame times n r).getLast? = some (times r (n - 1)) := by
  obtain ⟨n, rfl⟩ := Nat.exists_eq_succ_of_ne_zero (Nat.ne_of_gt hn)
  simp [frame, List.range_succ]

/-- **What the row loop prints of frames**: one row for each two entries that
the last queue has ahead of the index. -/
theorem statsRows_queuesFrom (hn : 0 < n) : ∀ (fuel i r : Nat) (last lastStats : Option TimePoint)
    (len : Nat → Nat) (m : Nat), len (n - 1) ≤ i + 2 * fuel → m = (len (n - 1) - i + 1) / 2 →
    0 ∉ loopReads fuel i (queuesFrom times n r len) →
    statsRows fuel i last lastStats (queuesFrom times n r len) =
      (loopRows times n r last m, if m = 0 then lastStats else some (times (r + m - 1) 0).1,
        queuesFrom times n (r + m) fun k => len k - m)
  | 0, i, r, last, lastStats, len, m, hfuel, hm, _ => by
    obtain rfl : m = 0 := by omega
    rfl
  | fuel + 1, i, r, last, lastStats, len, m, hfuel, hm, hreads => by
    by_cases hi : i < len (n - 1)
    · have hback : backSize (queuesFrom times n r len) = len (n - 1) := backSize_queuesFrom hn
      rw [loopReads, if_pos (by rw [hback]; exact hi), List.mem_cons, List.mem_append,
        List.mem_append, not_or, not_or, not_or, queuesFrom_tail] at hreads
      obtain ⟨-, ⟨hfront, hrow⟩, hloop⟩ := hreads
      have hlen := len_pos_of_rowReads hrow
      obtain ⟨m, rfl⟩ : ∃ m', m = m' + 1 := ⟨m - 1, by omega⟩
      have ih := statsRows_queuesFrom hn fuel (i + 1) (r + 1) (some (times r (n - 1)).2)
        (some (times r 0).1) (fun k => len k - 1) m (by omega) (by omega) hloop
      rw [statsRows_pos (by rw [hback]; exact hi), statsRow_of_heads _ _ _ (queuesFrom_heads hlen),
        getLast?_frame hn, queuesFrom_tail, frontTime_queuesFrom hn (hlen 0 hn)]
      have hr : r + 1 + m = r + (m + 1) := by omega
      have hdrop : (fun k => len k - 1 - m) = fun k => len k - (m + 1) := funext fun k => by omega
      -- `last_stats_time_` stays at the frame of the last row
      have hlast : (if m = 0 then some (times r 0).1 else some (times (r + (m + 1) - 1) 0).1) =
          some (times (r + (m + 1) - 1) 0).1 := by
        by_cases h : m = 0
        · rw [if_pos h, h]
          rfl
        · rw [if_neg h]
      rw [hr, hdrop, hlast] at ih
      dsimp only [Option.map_some, Option.some_or]
      rw [ih, loopRows, if_neg (Nat.succ_ne_zero m)]
    · obtain rfl : m = 0 := by omega
      rw [statsRows_neg (by rw [backSize_queuesFrom hn]; exact hi)]
      rfl

end queues

/-! ### Where the rows stand -/

/-- Where a row stands: behind the row before it in one firing, at the head of
a firing that comes after one with rows, or after one without. -/
inductive Opening
  | follows
  | opens
  | reopens
  deriving DecidableEq, Repr

/-- The time that row `j` is printed against, from the second row on. -/
def reference (times : FrameTimes) (n j : Nat) : Opening → TimePoint
  | .follows => (times (j - 1) (n - 1)).2
  | .opens => (times (j - 1) 0).1
  | .reopens => (times j 0).1

/-- The same from the first row on; `init` is the time of `start()`. -/
def referenceFrom (init : Option TimePoint) (times : FrameTimes) (n j : Nat) (o : Opening) :
    Option TimePoint :=
  if j = 0 ∧ o = .opens then init else some (reference times n j o)

/-- The rows of one firing. -/
def batch (first : Opening) : Nat → List Opening
  | 0 => []
  | m + 1 => first :: List.replicate m .follows

/-- Where the rows stand that a sequence of events prints, counted from the
events alone: `printed` rows there are, the last stage has entered `completed`
frames, and `first` is how the next firing begins.  A firing prints half of
what the last stage is ahead, rounded up. -/
def openings (n : Nat) : Nat → Nat → Opening → List StatsEvent → List Opening
  | _, _, _, [] => []
  | printed, completed, first, .emplace k :: es =>
    openings n printed (if k + 1 = n then completed + 1 else completed) first es
  | printed, completed, first, .collect _ _ :: es =>
    let m := (completed - printed + 1) / 2
    batch first m ++ openings n (printed + m) completed (if m = 0 then .reopens else .opens) es

section run

variable {times : FrameTimes} {n r : Nat} {len : Nat → Nat} {init : Option TimePoint}
  {first : Opening} {s s' : Printing T W}

theorem loopRows_follows (init : Option TimePoint) : ∀ (m r : Nat),
    loopRows times n (r + 1) (some (times r (n - 1)).2) m =
      (List.replicate m Opening.follows).mapIdx fun i o =>
        frameRow (referenceFrom init times n (r + 1 + i) o) (frame times n (r + 1 + i))
  | 0, _ => rfl
  | m + 1, r => by
    rw [loopRows, List.replicate_succ, List.mapIdx_cons, loopRows_follows init m (r + 1)]
    congr 2
    funext i o
    rw [show r + 1 + 1 + i = r + 1 + (i + 1) by omega]

theorem loopRows_batch (m : Nat) :
    loopRows times n r (referenceFrom init times n r first) m = (batch first m).mapIdx fun i o =>
      frameRow (referenceFrom init times n (r + i) o) (frame times n (r + i)) := by
  cases m with
  | zero => rfl
  | succ m =>
    rw [loopRows, batch, List.mapIdx_cons, loopRows_follows init m r]
    congr 2
    funext i o
    rw [show r + 1 + i = r + (i + 1) by omega]

theorem length_batch (first : Opening) (m : Nat) : (batch first m).length = m := by
  cases m <;> simp [batch]

/-- Where the queues and the printout stand between two events. -/
structure Stands (times : FrameTimes) (n : Nat) (init : Option TimePoint) (r : Nat)
    (len : Nat → Nat) (first : Opening) (s : Printing T W) : Prop where
  queues : s.pipeline.timeStats = queuesFrom times n r len
  rows : s.rows.length = r
  last : s.pipeline.lastStatsTime = referenceFrom init times n r first

theorem Stands.emplace (h : Stands times n init r len first s) {k : Nat}
    (hs : statsStep times s (.emplace k) = some s') :
    k < n ∧ s'.rows = s.rows ∧
      Stands times n init r (Function.update len k (len k + 1)) first s' := by
  simp only [statsStep, Option.map_eq_some_iff] at hs
  obtain ⟨q, hq, rfl⟩ := hs
  have hk : k < n := by
    by_contra hk
    rw [h.queues, queuesFrom, List.getElem?_eq_none (by simpa using hk)] at hq
    simp at hq
  rw [h.queues, queuesFrom, List.getElem?_map, List.getElem?_range hk, Option.map_some,
    Option.some.injEq] at hq
  have hlen : q.length = len k := by rw [← hq]; simp
  refine ⟨hk, rfl, ?_, h.rows, h.last⟩
  show s.pipeline.timeStats.modify k (· ++ [times (s.rows.length + q.length) k]) = _
  rw [h.rows, hlen, h.queues]
  refine List.ext_getElem? fun j => ?_
  rw [List.getElem?_modify, queuesFrom, queuesFrom, List.getElem?_map, List.getElem?_map]
  by_cases hj : j < n
  · rw [List.getElem?_range hj]
    by_cases hkj : k = j
    · subst hkj
      simp [List.range'_1_concat]
    · simp [hkj, Function.update_of_ne (Ne.symm hkj)]
  · rw [List.getElem?_eq_none (by simpa using hj)]
    rfl

theorem Stands.collect (h : Stands times n init r len first s) {start stop : TimePoint}
    (hs : statsStep times s (.collect start stop) = some s') {m : Nat}
    (hm : m = (len (n - 1) + 1) / 2) :
    s'.rows = s.rows ++ loopRows times n r (referenceFrom init times n r first) m ∧
      Stands times n init (r + m) (fun k => len k - m) (if m = 0 then .reopens else .opens) s' := by
  obtain ⟨hreads, hs⟩ := Option.ite_none_left_eq_some.mp hs
  obtain rfl := Option.some.inj hs
  rw [collectReads, h.queues, List.mem_append, not_or] at hreads
  obtain ⟨hn, hfront⟩ := len_pos_of_frontReads hreads.1
  rw [backSize_queuesFrom hn] at hreads
  have heq : statsRows (backSize s.pipeline.timeStats) 0 s.pipeline.lastStatsTime
      (frontTime s.pipeline.timeStats) s.pipeline.timeStats =
      (loopRows times n r (referenceFrom init times n r first) m,
        if m = 0 then some (times r 0).1 else some (times (r + m - 1) 0).1,
        queuesFrom times n (r + m) fun k => len k - m) := by
    rw [h.queues, h.last, backSize_queuesFrom hn, frontTime_queuesFrom hn hfront]
    exact statsRows_queuesFrom hn _ 0 r _ _ len m (by omega) (by omega) hreads.2
  obtain ⟨hq, hrows, hlast⟩ := collectStats_eq start stop heq
  have hall : Printing.rows
      { pipeline := (s.pipeline.collectStats start stop).1,
        printed := s.printed ++ [(s.pipeline.collectStats start stop).2] } =
      s.rows ++ loopRows times n r (referenceFrom init times n r first) m := by
    simp [Printing.rows, hrows]
  refine ⟨hall, hq, ?_, hlast.trans ?_⟩
  · rw [hall, List.length_append, h.rows, loopRows_batch, List.length_mapIdx, length_batch]
  · by_cases hzero : m = 0
    · -- no row is printed, and `last_stats_time_` is the frame that waits
      rw [if_pos hzero, if_pos hzero, hzero, referenceFrom, if_neg (by simp)]
      rfl
    · rw [if_neg hzero, if_neg hzero, referenceFrom, if_neg (by omega)]
      rfl

/-- **The rows of a run.** -/
theorem Stands.rows_of_run {es : List StatsEvent} (h : Stands times n init r len first s)
    (hrun : exec (statsStep times) s es = some s') : s'.rows = s.rows ++
      (openings n r (r + len (n - 1)) first es).mapIdx fun i o =>
        frameRow (referenceFrom init times n (r + i) o) (frame times n (r + i)) := by
  induction es generalizing s r len first with
  | nil =>
    obtain rfl := Option.some.inj hrun
    exact (List.append_nil _).symm
  | cons e es ih =>
    obtain ⟨u, hu, hrest⟩ := Option.bind_eq_some_iff.mp hrun
    cases e with
    | emplace k =>
      obtain ⟨hk, hrows, hnext⟩ := h.emplace hu
      rw [ih hnext hrest, hrows, openings]
      by_cases hlast : k + 1 = n
      · obtain rfl : k = n - 1 := by omega
        rw [if_pos hlast, Function.update_self, Nat.add_assoc]
      · rw [if_neg hlast, Function.update_of_ne (by omega)]
    | collect start stop =>
      obtain ⟨hrows, hnext⟩ := h.collect hu rfl
      rw [ih hnext hrest, hrows, openings, List.append_assoc]
      congr 1
      have hm : (r + len (n - 1) - r + 1) / 2 = (len (n - 1) + 1) / 2 := by
        rw [Nat.add_sub_cancel_left]
      have hcompleted : r + (len (n - 1) + 1) / 2 + (len (n - 1) - (len (n - 1) + 1) / 2) =
          r + len (n - 1) := by omega
      rw [hm, hcompleted, List.mapIdx_append, ← loopRows_batch, length_batch]
      congr 2
      funext i o
      rw [Nat.add_assoc, Nat.add_comm i]

end run

/-! ### Runs of a pipeline -/

section

variable {ws : List W} {si : Nat} {times : FrameTimes} {s s' : State T W} {u : Printing T W}

/-- What a step of a pipeline is to the statistics. -/
def statsEvent : Action T → Option StatsEvent
  | .finish k _ _ => some (.emplace k)
  | .collect start stop => some (.collect start stop)
  | _ => none

/-- The times of every frame that a run completes. -/
def State.frameTimes (s : State T W) : FrameTimes := fun j k => (s.times k)[j]?.getD (0, 0)

/-- The statistics of a pipeline at work. -/
structure SameStats (s : State T W) (u : Printing T W) : Prop where
  queues : u.pipeline.timeStats = s.pipeline.timeStats
  last : u.pipeline.lastStatsTime = s.pipeline.lastStatsTime
  rows : u.rows = s.rows

theorem times_prefix_step {a : Action T} (hs : Pipeline.step s a = some s') (k : Nat) :
    s.times k <+: s'.times k := by
  rcases step_stats hs with ⟨i, data, t, rfl⟩ | ⟨start, stop, rfl⟩ | ⟨_, _, _, ht⟩
  · obtain ⟨w, it, t₀, _, _, rfl⟩ := step_finish.mp hs
    refine ⟨if i = k then [(t₀, t)] else [], ?_⟩
    exact State.times_record_completed.symm
  · simp only [Pipeline.step, Option.ite_none_right_eq_some, Option.some.injEq] at hs
    obtain ⟨_, rfl⟩ := hs
    exact List.prefix_refl _
  · have heq : s'.times k = s.times k := congrArg (List.map Prod.snd) (ht k)
    exact ⟨[], by rw [heq, List.append_nil]⟩

theorem SameStats.finish (h : SameStats s u) (hw : Wired ws true s) (ho : InOrder ws s)
    (hd : Drained ws s) (htimes : ∀ k j x, (s'.times k)[j]? = some x → times j k = x) {k : Nat}
    {data : Option T} {t : TimePoint} (hs : Pipeline.step s (.finish k data t) = some s') :
    ∃ u', statsStep times u (.emplace k) = some u' ∧ SameStats s' u' := by
  obtain ⟨w, it, t₀, hel, _, rfl⟩ := step_finish.mp hs
  have hpl := hw.placed k w hel
  have hk : k < ws.length := (List.getElem?_eq_some_iff.mp hpl.work).1
  have hq : u.pipeline.timeStats[k]? = some ((s.times k).drop s.rows.length) := by
    rw [h.queues, hd.queues, List.getElem?_map, List.getElem?_range hk]
    rfl
  have hlen := hd.length_rows_le ho hk
  have hnext : times (u.rows.length + ((s.times k).drop s.rows.length).length) k = (t₀, t) := by
    refine htimes k _ _ ?_
    rw [h.rows, List.length_drop, Nat.add_sub_cancel' hlen]
    refine (congrArg (·[_]?) State.times_record_completed).trans ?_
    rw [if_pos rfl]
    exact List.getElem?_concat_length
  have hqueue : w.timeStatsQueue = some k := hpl.queue.trans (if_pos rfl)
  refine ⟨{ u with pipeline := emplaceTimes (some k) (t₀, t) u.pipeline },
    by rw [statsStep, hq, Option.map_some, hnext], ?_⟩
  rw [hqueue]
  exact ⟨congrArg (List.modify · k (· ++ [(t₀, t)])) h.queues, h.last, h.rows⟩

theorem SameStats.collect (h : SameStats s u) {start stop : TimePoint}
    (hok : 0 ∉ s.pipeline.collectReads)
    (hs : Pipeline.step s (.collect start stop) = some s') :
    ∃ u', statsStep times u (.collect start stop) = some u' ∧ SameStats s' u' := by
  simp only [Pipeline.step, Option.ite_none_right_eq_some, Option.some.injEq] at hs
  obtain ⟨_, rfl⟩ := hs
  have hreads : 0 ∉ u.pipeline.collectReads := by
    rw [collectReads, h.queues]
    exact hok
  obtain ⟨rows, lastStats, qs, heq⟩ : ∃ rows lastStats qs,
      statsRows (backSize s.pipeline.timeStats) 0 s.pipeline.lastStatsTime
        (frontTime s.pipeline.timeStats) s.pipeline.timeStats = (rows, lastStats, qs) :=
    ⟨_, _, _, rfl⟩
  have hequ := heq
  rw [← h.queues, ← h.last] at hequ
  obtain ⟨hq, hr, hl⟩ := collectStats_eq (p := { s.pipeline with
    timer := { s.pipeline.timer with pending := s.pipeline.timer.pending - 1 } }) start stop heq
  obtain ⟨hqu, hru, hlu⟩ := collectStats_eq start stop hequ
  refine ⟨_, if_neg hreads, hqu.trans hq.symm, hlu.trans hl.symm, ?_⟩
  show (u.printed ++ [_]).flatMap StatsOutput.rows = (s.printed ++ [_]).flatMap StatsOutput.rows
  rw [List.flatMap_append, List.flatMap_append, List.flatMap_singleton, List.flatMap_singleton,
    hru, hr]
  exact congrArg (· ++ rows) h.rows

theorem SameStats.other (h : SameStats s u) {a : Action T} (ha : statsEvent a = none)
    (hs : Pipeline.step s a = some s') : SameStats s' u := by
  rcases step_stats hs with ⟨k, data, t, rfl⟩ | ⟨start, stop, rfl⟩ | ⟨hq, hlast, hp, _⟩
  · simp [statsEvent] at ha
  · simp [statsEvent] at ha
  · refine ⟨h.queues.trans hq.symm, h.last.trans hlast.symm, h.rows.trans ?_⟩
    rw [State.rows, State.rows, hp]

theorem SameStats.step (h : SameStats s u) (hw : Wired ws true s) (ho : InOrder ws s)
    (hd : Drained ws s) (htimes : ∀ k j x, (s'.times k)[j]? = some x → times j k = x)
    {a : Action T} (hok : ReadsFull s a) (hs : Pipeline.step s a = some s') :
    (statsEvent a = none ∧ SameStats s' u) ∨
      ∃ e u', statsEvent a = some e ∧ statsStep times u e = some u' ∧ SameStats s' u' := by
  cases a with
  | finish k data t =>
    obtain ⟨u', hu, hsame⟩ := h.finish hw ho hd htimes hs
    exact .inr ⟨.emplace k, u', rfl, hu, hsame⟩
  | collect start stop =>
    obtain ⟨u', hu, hsame⟩ : ∃ u', statsStep times u (.collect start stop) = some u' ∧
        SameStats s' u' := h.collect hok hs
    exact .inr ⟨.collect start stop, u', rfl, hu, hsame⟩
  | _ => exact .inl ⟨rfl, h.other rfl hs⟩

theorem SameStats.run {as : List (Action T)} (h : SameStats s u) (hw : Wired ws true s)
    (hf : Flow s) (hd : Drained ws s) (hrun : Steps Pipeline.step ReadsFull s as s')
    (htimes : ∀ k j x, (s'.times k)[j]? = some x → times j k = x) :
    ∃ u', exec (statsStep times) u (as.filterMap statsEvent) = some u' ∧ SameStats s' u' := by
  induction hrun generalizing u with
  | nil s => exact ⟨u, rfl, h⟩
  | @cons s s₁ s' a as hok hstep rest ih =>
    have ho := hf.inOrder hw
    have htimes₁ : ∀ k j x, (s₁.times k)[j]? = some x → times j k = x := by
      intro k j x hx
      obtain ⟨l, hl⟩ := rest.invariant (P := fun r => s₁.times k <+: r.times k)
        (fun _ _ _ hp _ hs => hp.trans (times_prefix_step hs k)) List.prefix_rfl
      refine htimes k j x ?_
      rw [← hl, List.getElem?_append_left (List.getElem?_eq_some_iff.mp hx).1, hx]
    rcases h.step hw ho hd htimes₁ hok hstep with ⟨he, hsame⟩ | ⟨e, u₁, he, hu₁, hsame⟩
    · rw [List.filterMap_cons_none he]
      exact ih hsame (hw.step a hstep) (hf.step hw a hstep) (hd.step hw ho a hstep) htimes
    · obtain ⟨u₂, hu₂, hend⟩ :=
        ih hsame (hw.step a hstep) (hf.step hw a hstep) (hd.step hw ho a hstep) htimes
      rw [List.filterMap_cons_some he]
      exact ⟨u₂, by rw [exec, hu₁]; exact hu₂, hend⟩

/-- **Every run of a pipeline is such a sequence of events**, as long as it
reads nothing empty. -/
theorem printing_of_run (hsi : 0 < si) {interval : Int} {source : W × Option String}
    {rest : List (W × Option String)} {now : Nat} {t : TimePoint} {p : Pipeline T W}
    (h : launch si interval source rest now t = .ok p) {as : List (Action T)}
    (hrun : Steps Pipeline.step ReadsFull (State.init now p) as s) :
    p.timeStats = List.replicate (works source rest).length [] ∧
      ∃ u, exec (statsStep s.frameTimes) { pipeline := p } (as.filterMap statsEvent) = some u ∧
        u.rows = s.rows := by
  have hl := launched_of_launch h
  have hw := hl.wired
  rw [decide_eq_true hsi] at hw
  refine ⟨hl.queues.trans (if_pos hsi), ?_⟩
  have hstart : SameStats (State.init now p) ({ pipeline := p } : Printing T W) := ⟨rfl, rfl, rfl⟩
  have htimes : ∀ k j x, (s.times k)[j]? = some x → s.frameTimes j k = x := fun k j x hx =>
    congrArg (·.getD (0, 0)) hx
  obtain ⟨u, hu, hsame⟩ := hstart.run hw hl.flow (hl.drained hsi) hrun htimes
  exact ⟨u, hu, hsame.rows⟩

end

/-! ### Two runs -/

section

variable {times : FrameTimes} {n j : Nat} {p p₁ p₂ : Pipeline T W} {es es₁ es₂ : List StatsEvent}
  {s s₁ s₂ : Printing T W}

/-- The rows that a pipeline prints from the start, but for the first one. -/
theorem rows_from_start (hp : p.timeStats = List.replicate n [])
    (hrun : exec (statsStep times) { pipeline := p } es = some s) (hj : 1 ≤ j) :
    s.rows[j]? = (openings n 0 0 .opens es)[j]?.map fun o =>
      frameRow (some (reference times n j o)) (frame times n j) := by
  have hstart : Stands times n p.lastStatsTime 0 (fun _ => 0) .opens
      ({ pipeline := p } : Printing T W) := by
    refine ⟨hp.trans ?_, rfl, (if_pos ⟨rfl, rfl⟩).symm⟩
    simp [queuesFrom, List.map_const']
  have hfrom : ∀ o, referenceFrom p.lastStatsTime times n j o = some (reference times n j o) :=
    fun o => if_neg fun h => by omega
  rw [hstart.rows_of_run hrun, Printing.rows, List.flatMap_nil, List.nil_append,
    List.getElem?_mapIdx]
  simp only [Nat.zero_add, Nat.add_zero, hfrom]

theorem openings_zero : ∀ (es : List StatsEvent) (r : Nat) (first : Opening),
    openings 0 r r first es = []
  | [], _, _ => rfl
  | .emplace k :: es, r, first => by
    rw [openings, if_neg (Nat.succ_ne_zero k), openings_zero es]
  | .collect _ _ :: es, r, first => by
    have hm : (r - r + 1) / 2 = 0 := by omega
    rw [openings, hm]
    exact openings_zero es r .reopens

/-- **The rows that both runs print have the same numbers**, the first row
apart. -/
def SameNumbers (s₁ s₂ : Printing T W) : Prop :=
  ∀ j row₁ row₂, 1 ≤ j → s₁.rows[j]? = some row₁ → s₂.rows[j]? = some row₂ →
    numbers row₁ = numbers row₂

/-- What the rows of both runs are printed against lies equally far before the
frame, as where they stand alike. -/
def SameReference (times : FrameTimes) (n : Nat) (es₁ es₂ : List StatsEvent) : Prop :=
  ∀ j o₁ o₂, 1 ≤ j → (openings n 0 0 .opens es₁)[j]? = some o₁ →
    (openings n 0 0 .opens es₂)[j]? = some o₂ →
    microseconds ((times j 0).1 - reference times n j o₁) =
      microseconds ((times j 0).1 - reference times n j o₂)

/-- **When a row does not depend on batching.**  Of the numbers in a row only
the first one does, and only through where the row stands in its firing. -/
theorem batching_iff (h₁ : p₁.timeStats = List.replicate n [])
    (h₂ : p₂.timeStats = List.replicate n [])
    (hrun₁ : exec (statsStep times) { pipeline := p₁ } es₁ = some s₁)
    (hrun₂ : exec (statsStep times) { pipeline := p₂ } es₂ = some s₂) :
    SameNumbers s₁ s₂ ↔ SameReference times n es₁ es₂ := by
  refine ⟨fun h j o₁ o₂ hj ho₁ ho₂ => ?_, fun h j row₁ row₂ hj hrow₁ hrow₂ => ?_⟩
  · have hrow₁ := rows_from_start h₁ hrun₁ hj
    have hrow₂ := rows_from_start h₂ hrun₂ hj
    rw [ho₁, Option.map_some] at hrow₁
    rw [ho₂, Option.map_some] at hrow₂
    have hsame := numbers_frameRow_iff.mp (h j _ _ hj hrow₁ hrow₂)
    cases n with
    | zero =>
      rw [openings_zero] at ho₁
      simp at ho₁
    | succ n => exact hsame _ (by simp [frame, List.range_succ_eq_map])
  · rw [rows_from_start h₁ hrun₁ hj] at hrow₁
    rw [rows_from_start h₂ hrun₂ hj] at hrow₂
    obtain ⟨o₁, ho₁, rfl⟩ := Option.map_eq_some_iff.mp hrow₁
    obtain ⟨o₂, ho₂, rfl⟩ := Option.map_eq_some_iff.mp hrow₂
    rw [numbers_frameRow_iff]
    intro t ht
    cases n with
    | zero => simp [frame] at ht
    | succ n =>
      obtain rfl : times j 0 = t := by simpa [frame, List.range_succ_eq_map] using ht
      exact h j o₁ o₂ hj ho₁ ho₂

end

/-- A frame every 10 ms, 3 ms at each of two stages. -/
def everyTen : FrameTimes := fun j k =>
  ((10 * j + 4 * k : Nat) * 1000000, (10 * j + 4 * k + 3 : Nat) * 1000000)

/-- Two stages enter the times of `m` frames. -/
def enter (m : Nat) : List StatsEvent := (List.replicate m [.emplace 0, .emplace 1]).flatten

/-- One run fires after three and after five frames, the other after four, in
another order, and after six. -/
theorem batching_iff_two_orders : ∃ s₁ s₂,
    exec (statsStep everyTen) { pipeline := twoStage 1000 }
      (enter 3 ++ [.collect 1 2] ++ enter 2 ++ [.collect 3 4]) = some s₁ ∧
    exec (statsStep everyTen) { pipeline := twoStage 1000 }
      ([.emplace 0, .emplace 0, .emplace 1, .emplace 0, .emplace 1, .emplace 1] ++ enter 1 ++
        [.collect 1 2] ++ enter 2 ++ [.collect 3 4]) = some s₂ ∧
    s₁.rows.length = 4 ∧ s₂.rows.length = 4 ∧ SameNumbers s₁ s₂ := by
  obtain ⟨s₁, h₁, hrows₁⟩ := Option.map_eq_some_iff.mp (show (exec (statsStep everyTen)
    { pipeline := twoStage 1000 } (enter 3 ++ [.collect 1 2] ++ enter 2 ++ [.collect 3 4])).map
      (·.rows.length) = some 4 by decide +kernel)
  obtain ⟨s₂, h₂, hrows₂⟩ := Option.map_eq_some_iff.mp (show (exec (statsStep everyTen)
    { pipeline := twoStage 1000 } ([.emplace 0, .emplace 0, .emplace 1, .emplace 0, .emplace 1,
      .emplace 1] ++ enter 1 ++ [.collect 1 2] ++ enter 2 ++ [.collect 3 4])).map
      (·.rows.length) = some 4 by decide +kernel)
  have hq : (twoStage 1000).timeStats = List.replicate 2 [] := rfl
  refine ⟨s₁, s₂, h₁, h₂, hrows₁, hrows₂,
    (batching_iff hq hq h₁ h₂).mpr fun j o₁ o₂ _ ho₁ ho₂ => ?_⟩
  obtain rfl : o₁ = o₂ := Option.some.inj (ho₁.symm.trans ho₂)
  rfl

/-- The second of the three frames, in a firing of its own or behind the first. -/
theorem not_batching : ¬ ∀ (n : Nat) (p₁ p₂ : Pipeline Nat String) (times : FrameTimes)
    (es₁ es₂ : List StatsEvent) (s₁ s₂ : Printing Nat String),
    p₁.timeStats = List.replicate n [] → p₂.timeStats = List.replicate n [] →
    exec (statsStep times) { pipeline := p₁ } es₁ = some s₁ →
    exec (statsStep times) { pipeline := p₂ } es₂ = some s₂ → SameNumbers s₁ s₂ := by
  intro h
  have hsame := h 2 (twoStage 1000) (twoStage 1000) everyTen
    [.emplace 0, .emplace 1, .collect 1 2, .emplace 0, .emplace 1, .collect 3 4, .emplace 0,
      .emplace 1, .collect 5 6]
    [.emplace 0, .emplace 1, .emplace 0, .emplace 1, .emplace 0, .emplace 1, .collect 5 6]
    _ _ rfl rfl rfl rfl 1 _ _ (Nat.le_refl 1) rfl rfl
  exact absurd hsame (by decide)

end Pipeline

end SecMon
