import Mathlib.Data.List.Pairwise
import SecMon.Pipeline.Stats

/-!
# One firing of the statistics timer

`collect_stats` looks at queues that other strands fill.  Two questions are
asked of a single firing here.

* Does it look at nothing that is empty?  `collectReads` lists the sizes of
  the containers at each `front()`, `back()` and `pop()` it evaluates.  The
  source's queue is read before the loop tests anything, so
  `collect_reads_iff`: in a run, all these are above zero exactly if statistics
  are on and at every firing the source has completed a frame that is not
  printed yet.
* Does it print everything that is complete?  The loop compares a rising index
  with the size of a queue that its body shortens, so it prints half of the
  rows (`length_statsRows`), and `firing_reports_iff`: everything exactly if
  there is one row at most.
-/

namespace SecMon

namespace Pipeline

open Machine

variable {T W : Type} {ws : List W} {si : Nat} {s s' : State T W}

/-! ### What a firing looks at -/

/-- `time_stats_.front()->front()`. -/
def frontReads (qs : List TimeStatsQueue) : List Nat :=
  [qs.length, (qs.head?.map List.length).getD 0]

/-- `front()` and `pop()` on every queue, in one round of the loop. -/
def rowReads (qs : List TimeStatsQueue) : List Nat := qs.flatMap fun q => [q.length, q.length]

/-- The loop: `time_stats_.back()` in its test, the rest in its body. -/
def loopReads : Nat → Nat → List TimeStatsQueue → List Nat
  | 0, _, qs => [qs.length]
  | fuel + 1, i, qs =>
    qs.length ::
      if i < backSize qs then frontReads qs ++ rowReads qs ++ loopReads fuel (i + 1) (qs.map List.tail)
      else []

/-- The sizes of what `collect_stats` evaluates `front()`, `back()` or `pop()`
of, in the order of the evaluations. -/
def collectReads (p : Pipeline T W) : List Nat :=
  frontReads p.timeStats ++ loopReads (backSize p.timeStats) 0 p.timeStats

/-- The queues get no longer from one element to the next. -/
def Shrinking (qs : List TimeStatsQueue) : Prop := qs.Pairwise fun q q' => q'.length ≤ q.length

theorem Shrinking.tail {qs : List TimeStatsQueue} (h : Shrinking qs) :
    Shrinking (qs.map List.tail) := by
  unfold Shrinking
  rw [List.pairwise_map]
  apply List.Pairwise.imp _ h
  intro q q' hle
  rw [List.length_tail, List.length_tail]
  omega

theorem Shrinking.length_pos {qs : List TimeStatsQueue} (h : Shrinking qs)
    (hb : 0 < backSize qs) : ∀ q ∈ qs, 0 < q.length := by
  induction qs with
  | nil => exact fun q hq => absurd hq List.not_mem_nil
  | cons q₀ qs ih =>
    obtain ⟨hhead, htail⟩ := List.pairwise_cons.mp h
    intro q hq
    cases qs with
    | nil =>
      obtain rfl := List.mem_singleton.mp hq
      exact hb
    | cons q₁ qs =>
      have hlast : 0 < backSize (q₁ :: qs) := by
        rwa [backSize, List.getLast?_cons_cons] at hb
      have h₁ := ih htail hlast
      rcases List.mem_cons.mp hq with hq | hq
      · have hlt := h₁ q₁ List.mem_cons_self
        have hle := hhead q₁ List.mem_cons_self
        rw [hq]
        omega
      · exact h₁ q hq

theorem Shrinking.frontReads {qs : List TimeStatsQueue} (h : Shrinking qs)
    (hb : 0 < backSize qs) : 0 ∉ Pipeline.frontReads qs := by
  cases qs with
  | nil => exact absurd hb (by decide)
  | cons q qs =>
    have hq := h.length_pos hb q List.mem_cons_self
    simp [Pipeline.frontReads, Nat.ne_of_lt hq]

theorem Shrinking.rowReads {qs : List TimeStatsQueue} (h : Shrinking qs) (hb : 0 < backSize qs) :
    0 ∉ Pipeline.rowReads qs := by
  intro hm
  obtain ⟨q, hq, hm⟩ := List.mem_flatMap.mp hm
  have hlt := h.length_pos hb q hq
  simp only [List.mem_cons, List.not_mem_nil, or_false] at hm
  omega

/-- **The loop reads nothing empty**, whatever is in the queues. -/
theorem Shrinking.loopReads {qs : List TimeStatsQueue} (h : Shrinking qs) (hne : 0 < qs.length)
    (fuel i : Nat) : 0 ∉ Pipeline.loopReads fuel i qs := by
  induction fuel generalizing i qs with
  | zero =>
    rw [Pipeline.loopReads, List.mem_singleton]
    omega
  | succ fuel ih =>
    rw [Pipeline.loopReads, List.mem_cons, not_or]
    refine ⟨by omega, ?_⟩
    split
    · rename_i hlt
      have hb : 0 < backSize qs := by omega
      rw [List.mem_append, List.mem_append, not_or, not_or]
      exact ⟨⟨h.frontReads hb, h.rowReads hb⟩, ih h.tail (by rwa [List.length_map]) (i + 1)⟩
    · exact List.not_mem_nil

/-- A firing reads nothing empty exactly if it finds something in the first
queue. -/
theorem collectReads_iff {p : Pipeline T W} (h : Shrinking p.timeStats) :
    0 ∉ p.collectReads ↔ 0 < (p.timeStats.head?.map List.length).getD 0 := by
  unfold collectReads
  rw [List.mem_append, not_or]
  constructor
  · intro ⟨hfront, _⟩
    simp only [Pipeline.frontReads, List.mem_cons, List.not_mem_nil, or_false, not_or] at hfront
    omega
  · intro hlt
    have hne : 0 < p.timeStats.length := by
      cases hq : p.timeStats with
      | nil => simp [hq] at hlt
      | cons q qs => exact Nat.succ_pos _
    refine ⟨?_, h.loopReads hne _ _⟩
    simp only [Pipeline.frontReads, List.mem_cons, List.not_mem_nil, or_false, not_or]
    omega

/-! ### In a run -/

/-- The condition on a firing that it reads nothing empty. -/
def ReadsFull (s : State T W) : Action T → Prop
  | .collect _ _ => 0 ∉ s.pipeline.collectReads
  | _ => True

instance : ∀ (s : State T W) (a : Action T), Decidable (ReadsFull s a)
  | s, .collect _ _ => inferInstanceAs (Decidable (0 ∉ s.pipeline.collectReads))
  | _, .elapse _ | _, .expire _ | _, .run _ _ | _, .finish _ _ _ | _, .next _ | _, .restart _
  | _, .rewait _ | _, .pauseCall | _, .pauseWait | _, .pauseReturn | _, .changeTimer _ =>
    .isTrue trivial

/-- The condition that statistics are on and the source has completed more
frames than rows are printed. -/
def SourceAhead (statsInterval : Nat) (s : State T W) : Action T → Prop
  | .collect _ _ => 0 < statsInterval ∧ s.rows.length < (s.completedAt 0).length
  | _ => True

theorem Drained.shrinking (h : Drained ws s) (ho : InOrder ws s) :
    Shrinking s.pipeline.timeStats := by
  unfold Shrinking
  rw [h.queues, List.pairwise_map]
  apply List.Pairwise.imp_of_mem _ List.pairwise_lt_range
  intro k k' _ hk' hlt
  have hle := ho.times_antitone (k := k) (k' - k) (by
    have := List.mem_range.mp hk'
    omega)
  rw [show k + (k' - k) = k' by omega] at hle
  rw [List.length_drop, List.length_drop]
  omega

theorem Drained.head_length (h : Drained ws s) (hne : 0 < ws.length) :
    (s.pipeline.timeStats.head?.map List.length).getD 0 =
      (s.completedAt 0).length - s.rows.length := by
  have hhead : (List.range ws.length).head? = some 0 := by
    rw [List.head?_eq_getElem?, List.getElem?_range hne]
  rw [h.queues, List.head?_map, hhead, ← State.length_times]
  simp

theorem length_timeStats_step {a : Action T} (hs : step s a = some s') :
    s'.pipeline.timeStats.length = s.pipeline.timeStats.length := by
  rcases step_stats hs with ⟨k, data, t, rfl⟩ | ⟨start, stop, rfl⟩ | ⟨hq, _⟩
  · obtain ⟨w, it, t₀, _, _, rfl⟩ := step_finish.mp hs
    show (emplaceTimes w.timeStatsQueue (t₀, t) s.pipeline).timeStats.length = _
    cases w.timeStatsQueue with
    | none => rfl
    | some j => exact List.length_modify ..
  · simp only [Pipeline.step, Option.ite_none_right_eq_some, Option.some.injEq] at hs
    obtain ⟨_, rfl⟩ := hs
    obtain ⟨rows, lastStats', m, heq, _⟩ := statsRows_drain
      (backSize s.pipeline.timeStats) 0 s.pipeline.lastStatsTime
      (frontTime s.pipeline.timeStats) s.pipeline.timeStats
    obtain ⟨hq, _, _⟩ := collectStats_eq (p := { s.pipeline with
      timer := { s.pipeline.timer with pending := s.pipeline.timer.pending - 1 } }) start stop heq
    exact (congrArg List.length hq).trans (List.length_map ..)
  · rw [hq]

/-- What is needed of a state to say which firings are good. -/
structure Fillable (ws : List W) (si : Nat) (s : State T W) : Prop where
  off : si = 0 → s.pipeline.timeStats.length = 0
  on : 0 < si → Wired ws true s ∧ Flow s ∧ Drained ws s

theorem Fillable.step (h : Fillable ws si s) (a : Action T) (hs : Pipeline.step s a = some s') :
    Fillable ws si s' := by
  refine ⟨fun hsi => (length_timeStats_step hs).trans (h.off hsi), fun hsi => ?_⟩
  obtain ⟨hw, hf, hd⟩ := h.on hsi
  exact ⟨hw.step a hs, hf.step hw a hs, hd.step hw (hf.inOrder hw) a hs⟩

theorem Launched.fillable (h : Launched ws si s) : Fillable ws si s := by
  refine ⟨fun hsi => ?_, fun hsi => ?_⟩
  · rw [h.queues, if_neg (by omega)]
    rfl
  · have hw := h.wired
    rw [decide_eq_true hsi] at hw
    exact ⟨hw, h.flow, h.drained hsi⟩

theorem Fillable.readsFull_iff (h : Fillable ws si s) (hne : 0 < ws.length) (a : Action T) :
    ReadsFull s a ↔ SourceAhead si s a := by
  cases a with
  | collect start stop =>
    show 0 ∉ s.pipeline.collectReads ↔ 0 < si ∧ s.rows.length < (s.completedAt 0).length
    rcases Nat.eq_zero_or_pos si with hsi | hsi
    · have hread : 0 ∈ s.pipeline.collectReads := by
        have hlen := h.off hsi
        unfold collectReads frontReads
        rw [hlen]
        exact List.mem_cons_self
      exact ⟨fun hr => absurd hread hr, fun ⟨hpos, _⟩ => by omega⟩
    · obtain ⟨hw, hf, hd⟩ := h.on hsi
      rw [collectReads_iff (hd.shrinking (hf.inOrder hw)), hd.head_length hne]
      omega
  | elapse | expire | run | finish | next | restart | rewait | pauseCall | pauseWait
  | pauseReturn | changeTimer => exact Iff.rfl

/-- **When the statistics timer reads nothing empty.**  In a run of a pipeline
every firing of `collect_stats` evaluates `front()`, `back()` and `pop()` on
full containers exactly if statistics are on and each firing finds the source
ahead of the rows printed. -/
theorem collect_reads_iff {interval : Int} {source : W × Option String}
    {rest : List (W × Option String)} {now : Nat} {t : TimePoint} {p : Pipeline T W}
    (h : launch si interval source rest now t = .ok p) (as : List (Action T)) (s : State T W) :
    Steps step ReadsFull (State.init now p) as s ↔
      Steps step (SourceAhead si) (State.init now p) as s := by
  have hne : 0 < (works source rest).length := by simp [works]
  exact Steps.congr (fun _ a _ hf hs => Fillable.step hf a hs)
    (fun _ a hf => Fillable.readsFull_iff hf hne a) (launched_of_launch h).fillable

/-- One frame is through the source before the first firing. -/
theorem collect_reads_iff_one_frame :
    ∃ s, Steps step ReadsFull (State.init 0 (twoStage 1000))
        [.elapse 1000, .expire 0, .run 0 1, .finish 0 (some 7) 2, .collect 3 4] s ∧
      Steps step (SourceAhead 1000) (State.init 0 (twoStage 1000))
        [.elapse 1000, .expire 0, .run 0 1, .finish 0 (some 7) 2, .collect 3 4] s := by
  obtain ⟨s, hs⟩ := Option.isSome_iff_exists.mp (show (exec (permit step ReadsFull)
    (State.init 0 (twoStage 1000))
    [.elapse 1000, .expire 0, .run 0 1, .finish 0 (some 7) 2, .collect 3 4]).isSome = true by decide)
  have hfull := steps_iff_exec_permit.mpr hs
  exact ⟨s, hfull, (collect_reads_iff (launch_twoStage 1000) _ s).mp hfull⟩

/-- A run that is possible, but not with full containers only. -/
theorem not_readsFull {s₀ : State T W} {as : List (Action T)}
    (h : (exec step s₀ as).isSome = true) (hnot : exec (permit step ReadsFull) s₀ as = none) :
    ∃ s, exec step s₀ as = some s ∧ ¬ Steps step ReadsFull s₀ as s := by
  obtain ⟨s, hs⟩ := Option.isSome_iff_exists.mp h
  refine ⟨s, hs, ?_⟩
  rw [steps_iff_exec_permit, hnot]
  exact fun hsome => absurd hsome (by simp)

/-- **The timer does read empty containers**: with statistics off there is no
queue at all, and with them on a source that is paused completes nothing. -/
theorem not_collect_reads :
    (∃ s, exec step (State.init 0 (twoStage 0)) [.collect 1 2] = some s ∧
      ¬ Steps step ReadsFull (State.init 0 (twoStage 0)) [.collect 1 2] s) ∧
    ∃ s, exec step (State.init 0 (twoStage 1000))
        [.pauseCall, .pauseReturn, .elapse 1000, .collect 1 2] = some s ∧
      ¬ Steps step ReadsFull (State.init 0 (twoStage 1000))
        [.pauseCall, .pauseReturn, .elapse 1000, .collect 1 2] s :=
  ⟨not_readsFull (by decide) (by decide), not_readsFull (by decide) (by decide)⟩

/-! ### What a firing prints -/

/-- The rows of the loop: half of what the last queue has in it. -/
theorem length_statsRows {fuel i : Nat} {last lastStats : Option TimePoint}
    {qs : List TimeStatsQueue} (h : backSize qs ≤ i + 2 * fuel) :
    (statsRows fuel i last lastStats qs).1.length = (backSize qs - i + 1) / 2 := by
  induction fuel generalizing i last lastStats qs with
  | zero =>
    rw [statsRows, List.length_nil]
    omega
  | succ fuel ih =>
    by_cases hlt : i < backSize qs
    · rw [statsRows_pos hlt]
      dsimp only
      rw [List.length_cons, ih (by rw [statsRow_queues, backSize_tail]; omega), statsRow_queues,
        backSize_tail]
      omega
    · rw [statsRows_neg hlt, List.length_nil]
      omega

theorem backSize_map_drop (m : Nat) (qs : List TimeStatsQueue) :
    backSize (qs.map (List.drop m)) = backSize qs - m := by
  rw [backSize, backSize, List.getLast?_map]
  cases qs.getLast? <;> simp

/-- **Half of the backlog is printed**, rounded up, and the other half stays. -/
theorem firing_prints (start stop : TimePoint) (p : Pipeline T W) :
    (p.collectStats start stop).2.rows.length = (backSize p.timeStats + 1) / 2 ∧
      backSize (p.collectStats start stop).1.timeStats = backSize p.timeStats / 2 := by
  obtain ⟨rows, lastStats', m, heq, hlen, _⟩ := statsRows_drain (backSize p.timeStats) 0
    p.lastStatsTime (frontTime p.timeStats) p.timeStats
  obtain ⟨hq, hr, _⟩ := collectStats_eq start stop heq
  have hhalf : (statsRows (backSize p.timeStats) 0 p.lastStatsTime (frontTime p.timeStats)
      p.timeStats).1.length = (backSize p.timeStats - 0 + 1) / 2 := length_statsRows (by omega)
  rw [heq] at hhalf
  dsimp only at hhalf
  rw [hq, hr, backSize_map_drop]
  omega

/-- **When a firing reports everything**: exactly if the last queue has one
entry at most. -/
theorem firing_reports_iff (start stop : TimePoint) (p : Pipeline T W) :
    ((p.collectStats start stop).2.rows.length = backSize p.timeStats ∧
      backSize (p.collectStats start stop).1.timeStats = 0) ↔ backSize p.timeStats ≤ 1 := by
  obtain ⟨hrows, hleft⟩ := firing_prints start stop p
  rw [hrows, hleft]
  omega

/-- Two frames are through both elements when the timer fires; one row is
printed and one is left. -/
theorem not_firing_reports :
    ∃ s : State Nat String, exec step (State.init 0 (twoStage 1000))
        [.elapse 1000, .expire 0, .run 0 1, .finish 0 (some 7) 2, .next 0, .restart 0, .rewait 0,
          .run 1 3, .finish 1 none 4, .next 1, .expire 0, .run 0 5, .finish 0 (some 8) 6, .next 0,
          .restart 0, .rewait 0, .run 1 7, .finish 1 none 8] = some s ∧
      s.pipeline.timeStats.map List.length = [2, 2] ∧
      ¬ ((s.pipeline.collectStats 9 10).2.rows.length = backSize s.pipeline.timeStats ∧
        backSize (s.pipeline.collectStats 9 10).1.timeStats = 0) :=
  ⟨_, rfl, by decide, by decide⟩

end Pipeline

end SecMon
