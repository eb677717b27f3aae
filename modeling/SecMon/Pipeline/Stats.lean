import SecMon.Pipeline.Order

/-!
# Statistics rows

`collect_stats` pops the queues of times in lock-step and prints a row for
each pop, as long as the last queue lasts.  The queues are filled by as many
strands, each in its own time, and what keeps a row in one frame is only that
every strand has its frames in order and pops are counted once for all.

`Drained` is that invariant: each queue is the stage's history of times with
as many entries dropped as rows were printed, and never more than the last
stage has completed.  `rows_never_mix` reads off it that no pop meets an empty
queue and that row `j` is frame `j`.
-/

namespace SecMon

namespace Pipeline

open Machine

variable {T W : Type} {ws : List W} {si : Nat} {s s' : State T W}

/-! ### The row loop -/

section rowLoop

variable {last lastStats : Option TimePoint} {qs : List TimeStatsQueue} {i fuel : Nat}

theorem statsRow_times : ∀ (last : Option TimePoint) (qs : List TimeStatsQueue),
    (statsRow last qs).1.map StatsCell.times = qs.map List.head?
  | _, [] => rfl
  | last, q :: qs => by
    rw [statsRow, List.map_cons, List.map_cons, statsRow_times _ qs]

theorem statsRow_queues : ∀ (last : Option TimePoint) (qs : List TimeStatsQueue),
    (statsRow last qs).2.2 = qs.map List.tail
  | _, [] => rfl
  | last, q :: qs => by
    rw [statsRow, List.map_cons, ← statsRow_queues _ qs]

/-- The numbers of a row are those of its times. -/
structure RowReads (row : StatsRow) : Prop where
  worked : ∀ c ∈ row, c.worked = c.times.map fun t => microseconds (t.2 - t.1)
  waited : ∀ k c c', row[k]? = some c → row[k + 1]? = some c' →
    c'.waited = c'.times.bind fun t' => c.times.map fun t => microseconds (t'.1 - t.2)

theorem rowReads_statsRow : ∀ (last : Option TimePoint) (qs : List TimeStatsQueue),
    RowReads (statsRow last qs).1
  | _, [] => ⟨fun c hc => by simp [statsRow] at hc, fun k c c' hc => by simp [statsRow] at hc⟩
  | last, q :: qs => by
    have ih := rowReads_statsRow (q.head?.map Prod.snd) qs
    refine ⟨fun c hc => ?_, fun k c c' hc hc' => ?_⟩
    · rcases List.mem_cons.mp hc with rfl | hc
      · rfl
      · exact ih.worked c hc
    · cases k with
      | zero =>
        obtain rfl := Option.some.inj hc
        cases qs with
        | nil => simp [statsRow] at hc'
        | cons q' qs =>
          obtain rfl := Option.some.inj hc'
          simp only [Option.map_map]
          rfl
      | succ k => exact ih.waited k c c' hc hc'

theorem statsRows_pos (h : i < backSize qs) :
    statsRows (fuel + 1) i last lastStats qs =
      let r := statsRow last qs
      let rs := statsRows fuel (i + 1) r.2.1 (frontTime qs) r.2.2
      (r.1 :: rs.1, rs.2) := by
  rw [statsRows, if_pos h]

theorem statsRows_neg (h : ¬ i < backSize qs) :
    statsRows (fuel + 1) i last lastStats qs = ([], lastStats, qs) := by
  rw [statsRows, if_neg h]

theorem backSize_tail (qs : List TimeStatsQueue) :
    backSize (qs.map List.tail) = backSize qs - 1 := by
  rw [backSize, backSize, List.getLast?_map]
  cases qs.getLast? <;> simp

theorem map_drop_zero (qs : List TimeStatsQueue) : qs.map (List.drop 0) = qs :=
  List.map_id'' (fun _ => rfl) qs

/-- **What the row loop does to the queues.**  It prints no more rows than the
last queue has entries, each queue loses one entry to each row, and each row
takes the entries that stand at one position. -/
theorem statsRows_drain : ∀ (fuel i : Nat) (last lastStats : Option TimePoint)
    (qs : List TimeStatsQueue), ∃ (rows : List StatsRow) (lastStats' : Option TimePoint) (m : Nat),
      statsRows fuel i last lastStats qs = (rows, lastStats', qs.map (List.drop m)) ∧
      rows.length = m ∧ m ≤ backSize qs ∧
      (∀ (j : Nat) (row : StatsRow), rows[j]? = some row →
        row.map StatsCell.times = qs.map (·[j]?)) ∧
      ∀ row ∈ rows, RowReads row
  | 0, _, _, lastStats, qs =>
    ⟨[], lastStats, 0, by rw [statsRows, map_drop_zero], rfl, Nat.zero_le _, by simp, by simp⟩
  | fuel + 1, i, last, lastStats, qs => by
    by_cases h : i < backSize qs
    · obtain ⟨rows, lastStats', m, heq, hlen, hm, hrows, hreads⟩ := statsRows_drain fuel (i + 1)
        (statsRow last qs).2.1 (frontTime qs) (statsRow last qs).2.2
      rw [statsRow_queues] at hm hrows
      rw [backSize_tail] at hm
      refine ⟨(statsRow last qs).1 :: rows, lastStats', m + 1, ?_, by simp [hlen], by omega,
        fun j row hj => ?_, fun row hrow => ?_⟩
      · rw [statsRows_pos h]
        simp only [heq]
        rw [statsRow_queues, List.map_map]
        congr 3
        exact funext fun q => List.drop_tail
      · cases j with
        | zero =>
          obtain rfl := Option.some.inj hj
          rw [statsRow_times]
          simp [List.head?_eq_getElem?]
        | succ j =>
          rw [hrows j row hj, List.map_map]
          simp [Function.comp_def]
      · rcases List.mem_cons.mp hrow with rfl | hrow
        · exact rowReads_statsRow last qs
        · exact hreads row hrow
    · exact ⟨[], lastStats, 0, by rw [statsRows_neg h, map_drop_zero], rfl, Nat.zero_le _, by simp, by simp⟩

end rowLoop

/-! ### The queues and the history -/

/-- The times of the work completed at element `k`, in order. -/
def State.times (s : State T W) (k : Nat) : TimeStatsQueue := (s.timedAt k).map Prod.snd

/-- Where the queues stand. -/
structure Drained (ws : List W) (s : State T W) : Prop where
  queues : s.pipeline.timeStats =
    (List.range ws.length).map fun k => (s.times k).drop s.rows.length
  bound : s.rows.length ≤ (s.times (ws.length - 1)).length
  rows : ∀ (j : Nat) (row : StatsRow), s.rows[j]? = some row →
    row.map StatsCell.times = (List.range ws.length).map fun k => (s.times k)[j]?
  reads : ∀ row ∈ s.rows, RowReads row

theorem State.times_record_completed {k j : Nat} {it : Item T W} {t₀ t₁ : TimePoint} :
    (s.record (.completed k it t₀ t₁)).times j =
      s.times j ++ if k = j then [(t₀, t₁)] else [] := by
  rw [times, timedAt_record_completed, List.map_append, times]
  by_cases h : k = j <;> simp [h]

theorem State.length_times {k : Nat} : (s.times k).length = (s.completedAt k).length := by
  rw [times, completedAt, List.length_map, List.length_map]

theorem InOrder.times_le (h : InOrder ws s) {k : Nat} (hk : k + 1 < ws.length) :
    (s.times (k + 1)).length ≤ (s.times k).length := by
  have hserved := (h.served (k + 1) hk).length_le
  have hfifo := (h.fifo k hk).length_le
  rw [List.length_map, List.length_map] at hserved
  rw [State.length_times, State.length_times]
  omega

theorem InOrder.times_antitone (h : InOrder ws s) {k : Nat} : ∀ (d : Nat), k + d < ws.length →
    (s.times (k + d)).length ≤ (s.times k).length
  | 0, _ => Nat.le_refl _
  | d + 1, hd =>
    Nat.le_trans (h.times_le (k := k + d) (by omega)) (h.times_antitone d (by omega))

theorem Drained.length_rows_le (h : Drained ws s) (ho : InOrder ws s) {k : Nat}
    (hk : k < ws.length) : s.rows.length ≤ (s.times k).length := by
  have hle := ho.times_antitone (k := k) (ws.length - 1 - k) (by omega)
  rw [show k + (ws.length - 1 - k) = ws.length - 1 by omega] at hle
  exact Nat.le_trans h.bound hle

theorem Drained.congr (h : Drained ws s) (hq : s'.pipeline.timeStats = s.pipeline.timeStats)
    (hp : s'.printed = s.printed) (ht : ∀ k, s'.timedAt k = s.timedAt k) : Drained ws s' := by
  have hrows : s'.rows = s.rows := by rw [State.rows, hp, State.rows]
  have htimes : s'.times = s.times := funext fun k => by rw [State.times, ht, State.times]
  exact ⟨by rw [hq, hrows, htimes]; exact h.queues, by rw [hrows, htimes]; exact h.bound,
    by rw [hrows, htimes]; exact h.rows, by rw [hrows]; exact h.reads⟩

theorem Drained.finish (h : Drained ws s) (hw : Wired ws true s) (ho : InOrder ws s) {k : Nat}
    {data : Option T} {t : TimePoint} (hs : step s (.finish k data t) = some s') :
    Drained ws s' := by
  obtain ⟨w, it, t₀, hel, hact, rfl⟩ := step_finish.mp hs
  have hpl := hw.placed k w hel
  have hk : k < ws.length := (List.getElem?_eq_some_iff.mp hpl.work).1
  have htimes : ∀ j, (State.record (.completed k (it.worked w.work data) t₀ t)
      (State.modify k (fun w' => { w' with activity := some (.worked (it.worked w.work data)) })
        { s with pipeline := emplaceTimes w.timeStatsQueue (t₀, t) s.pipeline })).times j =
      s.times j ++ if k = j then [(t₀, t)] else [] := fun j => State.times_record_completed
  have hlen : ∀ j < ws.length, s.rows.length ≤ (s.times j).length := fun j hj =>
    h.length_rows_le ho hj
  refine ⟨?_, ?_, fun j row hj => ?_, h.reads⟩
  · simp only [htimes]
    show (emplaceTimes w.timeStatsQueue (t₀, t) s.pipeline).timeStats =
      (List.range ws.length).map fun j =>
        (s.times j ++ if k = j then [(t₀, t)] else []).drop s.rows.length
    rw [hpl.queue, if_pos rfl]
    show s.pipeline.timeStats.modify k (· ++ [(t₀, t)]) = _
    rw [h.queues]
    refine List.ext_getElem? fun j => ?_
    rw [List.getElem?_modify, List.getElem?_map, List.getElem?_map]
    by_cases hj : j < ws.length
    · rw [List.getElem?_range hj]
      by_cases hkj : k = j
      · subst hkj
        simp [List.drop_append_of_le_length (hlen k hj)]
      · simp [hkj]
    · rw [List.getElem?_eq_none (by simpa using hj)]
      rfl
  · rw [htimes, List.length_append]
    exact Nat.le_trans h.bound (Nat.le_add_right _ _)
  · simp only [htimes]
    rw [h.rows j row hj]
    refine List.map_congr_left fun i hi => ?_
    have hjr : j < s.rows.length := (List.getElem?_eq_some_iff.mp hj).1
    have := hlen i (List.mem_range.mp hi)
    rw [List.getElem?_append_left (by omega)]

theorem collectStats_eq {p : Pipeline T W} {rows : List StatsRow} {lastStats : Option TimePoint}
    {qs : List TimeStatsQueue} (start stop : TimePoint)
    (h : statsRows (backSize p.timeStats) 0 p.lastStatsTime (frontTime p.timeStats) p.timeStats =
      (rows, lastStats, qs)) :
    (p.collectStats start stop).1.timeStats = qs ∧ (p.collectStats start stop).2.rows = rows ∧
      (p.collectStats start stop).1.lastStatsTime = lastStats := by
  rw [collectStats, h]
  exact ⟨rfl, rfl, rfl⟩

theorem backSize_drop (n : Nat) (f : Nat → TimeStatsQueue) (r : Nat) :
    backSize ((List.range n).map fun k => (f k).drop r) ≤ (f (n - 1)).length - r := by
  cases n with
  | zero => simp [backSize]
  | succ n => simp [backSize, List.range_succ]

theorem Drained.collect (h : Drained ws s) {start stop : TimePoint}
    (hs : step s (.collect start stop) = some s') : Drained ws s' := by
  simp only [Pipeline.step, Option.ite_none_right_eq_some, Option.some.injEq] at hs
  obtain ⟨_, rfl⟩ := hs
  obtain ⟨rows, lastStats', m, heq, hlen, hm, hrows, hreads⟩ := statsRows_drain
    (backSize s.pipeline.timeStats) 0 s.pipeline.lastStatsTime
    (frontTime s.pipeline.timeStats) s.pipeline.timeStats
  obtain ⟨hq, hr, _⟩ := collectStats_eq (p := { s.pipeline with
    timer := { s.pipeline.timer with pending := s.pipeline.timer.pending - 1 } }) start stop heq
  have hprinted : ∀ (out : StatsOutput) (p : Pipeline T W), out.rows = rows →
      State.rows { s with pipeline := p, printed := s.printed ++ [out] } = s.rows ++ rows := by
    rintro out p rfl
    simp [State.rows]
  have hall := hprinted _ ({ s.pipeline with
    timer := { s.pipeline.timer with pending := s.pipeline.timer.pending - 1 } }.collectStats
      start stop).1 hr
  have hback := backSize_drop ws.length s.times s.rows.length
  rw [← h.queues] at hback
  refine ⟨?_, ?_, fun j row hj => ?_, fun row hrow => ?_⟩
  · rw [hall, List.length_append, hlen]
    refine hq.trans ?_
    rw [h.queues, List.map_map]
    refine List.map_congr_left fun k _ => ?_
    rw [Function.comp_apply, List.drop_drop]
    rfl
  · rw [hall, List.length_append, hlen]
    have := h.bound
    show s.rows.length + m ≤ (s.times (ws.length - 1)).length
    omega
  · rw [hall] at hj
    by_cases hlt : j < s.rows.length
    · rw [List.getElem?_append_left hlt] at hj
      exact h.rows j row hj
    · -- a new row takes what stands behind all the rows before it
      rw [List.getElem?_append_right (by omega)] at hj
      rw [hrows _ row hj, h.queues, List.map_map]
      refine List.map_congr_left fun k _ => ?_
      rw [Function.comp_apply, List.getElem?_drop, show s.rows.length + (j - s.rows.length) = j by omega]
      rfl
  · rw [hall] at hrow
    rcases List.mem_append.mp hrow with hrow | hrow
    · exact h.reads row hrow
    · exact hreads row hrow

/-- Only completed work and the statistics timer touch the queues of times,
`last_stats_time_` and what is printed. -/
theorem step_stats {a : Action T} (hs : Pipeline.step s a = some s') :
    (∃ k data t, a = .finish k data t) ∨ (∃ start stop, a = .collect start stop) ∨
      (s'.pipeline.timeStats = s.pipeline.timeStats ∧
        s'.pipeline.lastStatsTime = s.pipeline.lastStatsTime ∧ s'.printed = s.printed ∧
        ∀ k, s'.timedAt k = s.timedAt k) := by
  have hlog : ∀ {r : State T W}, r.pipeline.timeStats = s.pipeline.timeStats →
      r.pipeline.lastStatsTime = s.pipeline.lastStatsTime → r.printed = s.printed →
      r.log = s.log → r.pipeline.timeStats = s.pipeline.timeStats ∧
        r.pipeline.lastStatsTime = s.pipeline.lastStatsTime ∧ r.printed = s.printed ∧
        ∀ k, r.timedAt k = s.timedAt k :=
    fun hq hlast hp hl => ⟨hq, hlast, hp, fun k => by rw [State.timedAt, hl, State.timedAt]⟩
  cases a with
  | finish k data t => exact .inl ⟨k, data, t, rfl⟩
  | collect start stop => exact .inr (.inl ⟨start, stop, rfl⟩)
  | elapse d =>
    rw [Pipeline.step, Option.some.injEq] at hs
    subst hs
    exact .inr (.inr (hlog rfl rfl rfl rfl))
  | expire k =>
    obtain ⟨w, _, _, rfl⟩ := step_expire.mp hs
    exact .inr (.inr (hlog rfl rfl rfl rfl))
  | run k t =>
    obtain ⟨w, x, rest, _, _, _, ⟨_, rfl⟩ | ⟨data, _, rfl⟩⟩ := run_cases hs
    · exact .inr (.inr (hlog rfl rfl rfl rfl))
    · exact .inr (.inr ⟨rfl, rfl, rfl, fun j => State.timedAt_record_started data⟩)
  | next k =>
    obtain ⟨w, it, _, _, rfl⟩ := step_next.mp hs
    cases w.next with
    | none => exact .inr (.inr (hlog rfl rfl rfl rfl))
    | some j => exact .inr (.inr (hlog rfl rfl rfl rfl))
  | restart k =>
    obtain ⟨w, _, _, rfl⟩ := step_restart.mp hs
    exact .inr (.inr (hlog rfl rfl rfl rfl))
  | rewait k =>
    obtain ⟨w, _, _, rfl⟩ := step_rewait.mp hs
    exact .inr (.inr (hlog rfl rfl rfl rfl))
  | pauseCall =>
    obtain ⟨w, _, _, _, ⟨_, rfl⟩ | ⟨_, rfl⟩⟩ := step_pauseCall.mp hs
    · exact .inr (.inr (hlog rfl rfl rfl rfl))
    · exact .inr (.inr (hlog rfl rfl rfl rfl))
  | pauseWait =>
    obtain ⟨_, rfl⟩ := step_pauseWait.mp hs
    exact .inr (.inr (hlog rfl rfl rfl rfl))
  | pauseReturn =>
    obtain ⟨_, rfl⟩ := step_pauseReturn.mp hs
    exact .inr (.inr (hlog rfl rfl rfl rfl))
  | changeTimer ms =>
    obtain ⟨_, p, hp, rfl⟩ := step_changeTimer.mp hs
    rw [changeTimer_ok hp]
    exact .inr (.inr (hlog rfl rfl rfl rfl))

/-- **No step takes the queues out of line.** -/
theorem Drained.step (h : Drained ws s) (hw : Wired ws true s) (ho : InOrder ws s)
    (a : Action T) (hs : Pipeline.step s a = some s') : Drained ws s' := by
  rcases step_stats hs with ⟨k, data, t, rfl⟩ | ⟨start, stop, rfl⟩ | ⟨hq, _, hp, ht⟩
  · exact h.finish hw ho hs
  · exact h.collect hs
  · exact h.congr hq hp ht

theorem Launched.drained (h : Launched ws si s) (hsi : 0 < si) : Drained ws s := by
  have hrows : s.rows = [] := by rw [State.rows, h.printed]; rfl
  have htimes : ∀ k, s.times k = [] := fun k => by
    rw [State.times, State.timedAt, h.log]
    rfl
  refine ⟨?_, by rw [hrows]; exact Nat.zero_le _, fun j row hj => ?_, fun row hrow => ?_⟩
  · rw [h.queues, if_pos hsi]
    simp [htimes, List.map_const']
  · rw [hrows] at hj
    simp at hj
  · rw [hrows] at hrow
    simp at hrow

/-! ### What is printed -/

/-- The statistics are in line with the frames. -/
structure RowsAligned (ws : List W) (s : State T W) : Prop where
  queues : s.pipeline.timeStats.length = ws.length
  /-- the queues get no longer from the first element to the last -/
  antitone : ∀ k q q', s.pipeline.timeStats[k]? = some q →
    s.pipeline.timeStats[k + 1]? = some q' → q'.length ≤ q.length
  /-- no pop has met an empty queue -/
  popped : ∀ row ∈ s.rows, ∀ c ∈ row, c.times.isSome = true
  /-- row `j` has the times of frame `j` at every element -/
  frame : ∀ (j : Nat) (row : StatsRow), s.rows[j]? = some row → row.length = ws.length ∧
    ∃ frame, (s.startedAt 0)[j]? = some frame ∧ frame.id = j ∧
      ∀ k, k < ws.length → ∃ it t c, (s.timedAt k)[j]? = some (it, t) ∧ it.id = frame.id ∧
        row[k]? = some c ∧ c.times = some t
  /-- and the numbers printed are theirs -/
  reads : ∀ row ∈ s.rows, RowReads row

theorem InOrder.ids_completed (h : InOrder ws s) : ∀ (k : Nat), k < ws.length →
    (s.completedAt k).map Item.id <+: List.range (s.startedAt 0).length
  | 0, hk => h.ticks ▸ h.served 0 hk
  | k + 1, hk =>
    ((h.served (k + 1) hk).trans ((h.fifo k hk).map Item.id)).trans
      (h.ids_completed k (by omega))

theorem getElem?_of_prefix_range {l : List Nat} {n j x : Nat} (h : l <+: List.range n)
    (hj : l[j]? = some x) : x = j ∧ j < n := by
  obtain ⟨t, ht⟩ := h
  have hx : (List.range n)[j]? = some x := by
    rw [← ht, List.getElem?_append_left (List.getElem?_eq_some_iff.mp hj).1, hj]
  have hn : j < n := by
    have := (List.getElem?_eq_some_iff.mp hx).1
    rwa [List.length_range] at this
  rw [List.getElem?_range hn] at hx
  exact ⟨(Option.some.inj hx).symm, hn⟩

theorem Drained.frame (h : Drained ws s) (ho : InOrder ws s) {j : Nat} {row : StatsRow}
    (hj : s.rows[j]? = some row) {k : Nat} (hk : k < ws.length) :
    ∃ it t c, (s.timedAt k)[j]? = some (it, t) ∧ it.id = j ∧ j < (s.startedAt 0).length ∧
      row[k]? = some c ∧ c.times = some t := by
  have hlt : j < (s.timedAt k).length := by
    have hjr : j < s.rows.length := (List.getElem?_eq_some_iff.mp hj).1
    have hle := h.length_rows_le ho hk
    rw [State.times, List.length_map] at hle
    omega
  obtain ⟨⟨it, t⟩, hit⟩ : ∃ x, (s.timedAt k)[j]? = some x := ⟨_, List.getElem?_eq_getElem hlt⟩
  have hid := getElem?_of_prefix_range (x := it.id) (ho.ids_completed k hk) (by
    rw [State.completedAt, List.map_map, List.getElem?_map, hit]
    rfl)
  -- the cell of stage `k`
  have hcell : (row.map StatsCell.times)[k]? = some (some t) := by
    rw [h.rows j row hj, List.getElem?_map, List.getElem?_range hk, Option.map_some, State.times,
      List.getElem?_map, hit]
    rfl
  rw [List.getElem?_map] at hcell
  obtain ⟨c, hc, hct⟩ := Option.map_eq_some_iff.mp hcell
  exact ⟨it, t, c, hit, hid.1, hid.2, hc, hct⟩

theorem Drained.rowsAligned (h : Drained ws s) (ho : InOrder ws s) (hne : 0 < ws.length) :
    RowsAligned ws s := by
  have hrow : ∀ (j : Nat) (row : StatsRow), s.rows[j]? = some row → row.length = ws.length := by
    intro j row hj
    have := congrArg List.length (h.rows j row hj)
    simpa using this
  refine ⟨by rw [h.queues]; simp, fun k q q' hq hq' => ?_, fun row hin c hc => ?_,
    fun j row hj => ⟨hrow j row hj, ?_⟩, h.reads⟩
  · rw [h.queues, List.getElem?_map] at hq hq'
    have hk : k + 1 < ws.length := by
      by_contra hk
      rw [List.getElem?_eq_none (by simpa using hk)] at hq'
      simp at hq'
    rw [List.getElem?_range (by omega), Option.map_some, Option.some.injEq] at hq hq'
    have hle := ho.times_le hk
    rw [← hq, ← hq', List.length_drop, List.length_drop]
    omega
  · obtain ⟨j, hj⟩ := List.mem_iff_getElem?.mp hin
    obtain ⟨k, hk⟩ := List.mem_iff_getElem?.mp hc
    have hlt : k < ws.length := hrow j row hj ▸ (List.getElem?_eq_some_iff.mp hk).1
    obtain ⟨it, t, c', _, _, _, hc', ht⟩ := h.frame ho hj hlt
    obtain rfl : c = c' := Option.some.inj (hk.symm.trans hc')
    rw [ht]
    rfl
  · obtain ⟨_, _, _, _, _, hlt, _⟩ := h.frame ho hj hne
    obtain ⟨frame, hframe⟩ : ∃ x, (s.startedAt 0)[j]? = some x :=
      ⟨_, List.getElem?_eq_getElem hlt⟩
    have hid : frame.id = j := by
      have hmap : ((s.startedAt 0).map Item.id)[j]? = some frame.id := by
        rw [List.getElem?_map, hframe, Option.map_some]
      rw [ho.ticks] at hmap
      exact (getElem?_of_prefix_range (List.prefix_refl _) hmap).1
    refine ⟨frame, hframe, hid, fun k hk => ?_⟩
    obtain ⟨it, t, c, hit, hitid, _, hc, ht⟩ := h.frame ho hj hk
    exact ⟨it, t, c, hit, hitid.trans hid.symm, hc, ht⟩

/-- **Statistics rows never mix frames.**  Whatever the strands and the
statistics timer do, the queues of times get no longer from one element to the
next, no pop meets an empty queue, and the `j`-th row ever printed has the
times of the `j`-th frame at every element. -/
theorem rows_never_mix (hsi : 0 < si) {interval : Int} {source : W × Option String}
    {rest : List (W × Option String)} {now : Nat} {t : TimePoint} {p : Pipeline T W}
    (h : launch si interval source rest now t = .ok p) {as : List (Action T)}
    (hrun : exec step (State.init now p) as = some s) : RowsAligned (works source rest) s := by
  have hl := launched_of_launch h
  have hw : Wired (works source rest) (0 < si) (State.init now p) := hl.wired
  have hinv := (steps_iff_exec.mpr hrun).invariant
    (P := fun s => (Wired (works source rest) (0 < si) s ∧ Flow s) ∧
      Drained (works source rest) s)
    (fun s a s' hp _ hs => ?_) ⟨⟨hw, hl.flow⟩, hl.drained hsi⟩
  · obtain ⟨⟨hw, hf⟩, hd⟩ := hinv
    exact hd.rowsAligned (hf.inOrder hw) (by simp [works])
  · obtain ⟨⟨hw, hf⟩, hd⟩ := hp
    refine ⟨⟨hw.step a hs, hf.step hw a hs⟩, hd.step ?_ (hf.inOrder hw) a hs⟩
    simpa [hsi] using hw

/-- Two frames through both elements, and a row for the first of them. -/
theorem rows_never_mix_two_frames :
    ∃ s, exec step (State.init 0 (twoStage 1000))
        [.elapse 1000, .expire 0, .run 0 1, .finish 0 (some 7) 2, .next 0, .restart 0, .rewait 0,
          .expire 0, .run 0 3, .run 1 4, .finish 1 none 5, .next 1, .finish 0 (some 8) 6,
          .collect 7 8] = some s ∧
      RowsAligned ["Camera", "Movement"] s := by
  obtain ⟨s, hs⟩ := Option.isSome_iff_exists.mp (show (exec step (State.init 0 (twoStage 1000))
    [.elapse 1000, .expire 0, .run 0 1, .finish 0 (some 7) 2, .next 0, .restart 0, .rewait 0,
      .expire 0, .run 0 3, .run 1 4, .finish 1 none 5, .next 1, .finish 0 (some 8) 6,
      .collect 7 8]).isSome = true by decide)
  exact ⟨s, hs, rows_never_mix (by decide) (launch_twoStage 1000) hs⟩

end Pipeline

end SecMon
