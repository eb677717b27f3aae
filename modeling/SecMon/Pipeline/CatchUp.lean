import SecMon.Pipeline.Drain
import SecMon.Pipeline.Metronome

/-!
# A pipeline that is late

A machine that is too slow for its camera falls behind: the timer of the source
is overdue, and items stand in the strands.  Nothing is dropped for that.  When
there is time, the strands and the timer make up for all of it.

Here the clock stands still, and the strands work as they like, with the timer
going off as often as it is due.  `left` is what they have to do: what is in the
strands already, and `3 * n + 3` pieces of work for each tick that is overdue,
for a pipeline of `n` elements.  `catches_up`: when they are done, the source has
made one item for each whole interval since the start, and each is through every
element.
-/

namespace SecMon

namespace Metronome

variable {m m' : Metronome} {x : Move}

theorem now_step (hx : ∀ d, x ≠ .elapse d) (hs : m.step x = some m') : m'.now = m.now := by
  cases x with
  | stay | setInterval ms =>
    obtain rfl := Option.some.inj hs
    rfl
  | elapse d => exact absurd rfl (hx d)
  | expire | start | finish | next | restart | rewait =>
    obtain ⟨-, hs⟩ := Option.ite_none_right_eq_some.mp hs
    obtain rfl := Option.some.inj hs
    rfl

end Metronome

namespace WorkWrapper

variable {T W : Type} {w : WorkWrapper T W} {ph : Phase}

theorem InPhase.liveTicks (h : w.InPhase ph) : w.liveTicks = if ph = .ticked then 1 else 0 := by
  rw [WorkWrapper.liveTicks, h.strand]
  split <;> rfl

/-- A tick is `3 * r + 6` pieces of work, the wait for it one. -/
theorem InPhase.load_expire (h : w.InPhase .waiting) (r : Nat) :
    w.expire.load r + 1 = w.load r + (3 * r + 6) := by
  have hact : w.activity = none := Option.map_eq_none_iff.mp h.activity
  have hact' : w.expire.activity = none := hact
  unfold load
  rw [h.expire.pending, h.expire.strand, hact', h.pending, h.strand, hact]
  show 0 + (3 * r + 6 + 0) + 0 + 1 = 1 + 0 + 0 + (3 * r + 6)
  omega

end WorkWrapper

namespace Pipeline

open Machine

variable {T W : Type} {ws : List W} {stats : Bool} {start ms : Nat} {s s' : State T W}
  {a : Action T}

/-- A piece of work of some strand, or the timer goes off. -/
def Unaided (_ : State T W) : Action T → Prop
  | .expire _ => True
  | a => a.stage?.isSome = true

instance : ∀ (s : State T W) (a : Action T), Decidable (Unaided s a)
  | _, .expire _ => .isTrue trivial
  | _, .run _ _ | _, .finish _ _ _ | _, .next _ | _, .restart _ | _, .rewait _ | _, .elapse _
  | _, .pauseCall | _, .pauseWait | _, .pauseReturn | _, .changeTimer _ | _, .collect _ _ =>
    inferInstanceAs (Decidable (_ = _))

/-- Nobody has anything to do, and no timer is due. -/
structure State.Idle (s : State T W) : Prop where
  still : s.Still
  early : ∀ w ∈ s.pipeline.elements, w.due s.now = false

instance (s : State T W) : Decidable s.Idle :=
  decidable_of_iff (s.Still ∧ ∀ w ∈ s.pipeline.elements, w.due s.now = false)
    ⟨fun h => ⟨h.1, h.2⟩, fun h => ⟨h.still, h.early⟩⟩

/-- The ticks that are overdue. -/
def State.owed (start ms : Nat) (s : State T W) : Nat := (s.now - start) / ms - s.arrivals

/-- What there is to do until the clock moves. -/
def State.left (start ms : Nat) (s : State T W) : Nat :=
  s.load + (3 * s.pipeline.elements.length + 3) * s.owed start ms

/-- A pipeline that has never been paused, and whose ticks are due every `ms`. -/
structure Punctual (ws : List W) (stats : Bool) (start ms : Nat) (s : State T W) : Prop where
  wired : Wired ws stats s
  flow : Flow s
  ticking : ∃ w ph, Ticking s w ph ∧ (s.metronome w ph).OnTime start ms

theorem Punctual.step (h : Punctual ws stats start ms s) (hok : Undisturbed s a)
    (hs : Pipeline.step s a = some s') : Punctual ws stats start ms s' := by
  obtain ⟨hw, hf, w, ph, htick, htime⟩ := h
  obtain ⟨w', ph', htick', hmove⟩ := metronome_step hw htick hok.noPause hs
  exact ⟨hw.step a hs, hf.step hw a hs, w', ph', htick', htime.step hok.move hmove⟩

theorem Unaided.undisturbed (h : Unaided s a) : Undisturbed s a := by
  cases a with
  | pauseCall | changeTimer ms => cases h
  | _ => rfl

theorem Unaided.cases (h : Unaided s a) : StageAction s a ∨ ∃ k, a = .expire k := by
  cases a with
  | expire k => exact .inr ⟨k, rfl⟩
  | _ => exact .inl h

theorem Ticking.arrivals {w : WorkWrapper T W} {ph : Phase} (h : Ticking s w ph) :
    s.arrivals = (s.startedAt 0).length + if ph = .ticked then 1 else 0 := by
  rw [State.arrivals, h.source, Option.map_some, Option.getD_some, h.phase.liveTicks]

theorem Punctual.arrivals_le (h : Punctual ws stats start ms s) (hms : 0 < ms) :
    s.arrivals ≤ (s.now - start) / ms := by
  obtain ⟨w, ph, htick, htime⟩ := h.ticking
  have hmade : start + ms * (s.startedAt 0).length ≤ s.now := htime.made
  have hexp : w.expiry = start + ms * ((s.startedAt 0).length + Metronome.ahead ph) := htime.expiry
  rw [Nat.le_div_iff_mul_le hms, htick.arrivals, Nat.mul_comm]
  refine Nat.le_sub_of_add_le' ?_
  by_cases hph : ph = .ticked
  · have hdue : w.expiry ≤ s.now := htime.ticked hph
    rw [hexp, hph] at hdue
    rw [if_pos hph]
    exact hdue
  · rw [if_neg hph]
    exact hmade

theorem Punctual.now_step (h : Punctual ws stats start ms s) (hok : Unaided s a)
    (hs : Pipeline.step s a = some s') : s'.now = s.now := by
  obtain ⟨w, ph, htick, -⟩ := h.ticking
  obtain ⟨w', ph', -, hmove⟩ := metronome_step h.wired htick hok.undisturbed.noPause hs
  refine Metronome.now_step (fun d hd => ?_) hmove
  cases a with
  | elapse d => cases hok
  | expire k | run k _ | finish k _ _ | next k | restart k | rewait k =>
    cases k <;> simp [Action.move] at hd
  | pauseCall | pauseWait | pauseReturn | changeTimer _ | collect _ _ => simp [Action.move] at hd

/-- The timer of the source goes off: a tick more, and its work. -/
theorem Punctual.expire (h : Punctual ws stats start ms s) {k : Nat}
    (hs : Pipeline.step s (.expire k) = some s') :
    s'.arrivals = s.arrivals + 1 ∧ s'.load + 1 = s.load + (3 * ws.length + 3) := by
  obtain ⟨w, ph, htick, -⟩ := h.ticking
  obtain ⟨v, hel, hdue, rfl⟩ := step_expire.mp hs
  rw [WorkWrapper.due, Bool.and_eq_true, decide_eq_true_iff, decide_eq_true_iff] at hdue
  have hk : k = 0 := by
    by_contra hk
    have htimed := (h.wired.placed k v hel).timed
    rw [decide_eq_false hk, Option.isSome_eq_false_iff, Option.isNone_iff_eq_none] at htimed
    rw [WorkWrapper.pending, htimed] at hdue
    exact absurd hdue.1 (Nat.lt_irrefl 0)
  subst hk
  obtain rfl := Option.some.inj (htick.source.symm.trans hel)
  have hph : ph = .waiting := by
    by_contra hne
    rw [htick.phase.pending, if_neg hne] at hdue
    exact absurd hdue.1 (Nat.lt_irrefl 0)
  subst hph
  have htick' : Ticking (s.modify 0 WorkWrapper.expire) w.expire .ticked :=
    ⟨element_modify_zero htick.source _, htick.phase.expire, htick.caller⟩
  have hpos : 0 < ws.length := (List.getElem?_eq_some_iff.mp (h.wired.placed 0 w hel).work).1
  refine ⟨?_, ?_⟩
  · rw [htick'.arrivals, htick.arrivals]
    rfl
  · have hload := load_modify h.wired hel WorkWrapper.expire
    have hone := htick.phase.load_expire (ws.length - (0 + 1))
    omega

/-- **Each piece of work takes one off**, and so does each time the timer goes
off. -/
theorem Punctual.left_step (h : Punctual ws stats start ms s) (hms : 0 < ms) (hok : Unaided s a)
    (hs : Pipeline.step s a = some s') : s'.left start ms + 1 = s.left start ms := by
  have h' := h.step hok.undisturbed hs
  have hnow := h.now_step hok hs
  rw [State.left, State.left, h'.wired.length, h.wired.length]
  rcases hok.cases with hstage | ⟨k, rfl⟩
  · have howed : s'.owed start ms = s.owed start ms := by
      rw [State.owed, hnow, arrivals_stage h.wired hstage hs, State.owed]
    have hload := load_stage h.wired hstage hs
    rw [howed]
    omega
  · obtain ⟨harr, hload⟩ := h.expire hs
    have hle := h'.arrivals_le hms
    rw [hnow, harr] at hle
    have howed : s.owed start ms = s'.owed start ms + 1 := by
      rw [State.owed, State.owed, hnow, harr]
      omega
    rw [howed, Nat.mul_succ]
    omega

/-- **The backlog is worked off**, in any order. -/
theorem backlog (hms : 0 < ms) : Drain step (Unaided (T := T) (W := W))
    (Punctual ws stats start ms) State.Idle (State.left start ms) where
  keep _ _ _ h hok hs := h.step hok.undisturbed hs
  lower _ _ _ h hok hs := Nat.lt_of_succ_le (Nat.le_of_eq (h.left_step hms hok hs))
  next s h hidle := by
    by_cases hstill : s.Still
    · obtain ⟨w, hw, hdue⟩ : ∃ w ∈ s.pipeline.elements, w.due s.now = true := by
        by_contra hnone
        exact hidle ⟨hstill, fun w hw => Bool.eq_false_iff.mpr fun hdue => hnone ⟨w, hw, hdue⟩⟩
      obtain ⟨k, hk⟩ := List.getElem?_of_mem hw
      exact ⟨.expire k, _, trivial, step_expire.mpr ⟨w, hk, hdue, rfl⟩⟩
    · obtain ⟨a, s', ha, hs⟩ := drains.next s ⟨h.wired, h.flow⟩ hstill
      refine ⟨a, s', ?_, hs⟩
      cases a <;> first | exact ha | cases ha

theorem Punctual.made (h : Punctual ws stats start ms s) (hidle : s.Idle) :
    (s.startedAt 0).length = (s.now - start) / ms := by
  obtain ⟨w, ph, htick, htime⟩ := h.ticking
  obtain ⟨hstrand, hact⟩ := hidle.still.quiet htick.source
  have hph : ph = .waiting := by
    rcases htick.phase.of_idle hact with hph | hph
    · exact hph
    · have hone := htick.phase.strand
      rw [hstrand, if_pos hph] at hone
      cases hone
  subst hph
  have hearly := hidle.early w (List.mem_of_getElem? htick.source)
  have hexp : w.expiry = start + ms * ((s.startedAt 0).length + 1) := htime.expiry
  have hmade : start + ms * (s.startedAt 0).length ≤ s.now := htime.made
  rw [WorkWrapper.due, htick.phase.pending, hexp] at hearly
  have hlt : s.now < start + ms * ((s.startedAt 0).length + 1) := by
    simpa using hearly
  rw [Nat.mul_comm] at hmade hlt
  refine (Nat.div_eq_of_lt_le ?_ ?_).symm
  · omega
  · show s.now - start < ((s.startedAt 0).length + 1) * ms
    omega

theorem State.Idle.stuck (h : s.Idle) (ha : Unaided s a) : Pipeline.step s a = none := by
  rcases ha.cases with hstage | ⟨k, rfl⟩
  · exact h.still.stuck hstage
  · by_contra hs
    obtain ⟨s', hs⟩ := Option.ne_none_iff_exists'.mp hs
    obtain ⟨w, hw, hdue, -⟩ := step_expire.mp hs
    exact Bool.false_ne_true ((h.early w (List.mem_of_getElem? hw)).symm.trans hdue)

/-- **A pipeline that is late catches up.**  In every state of a run in which
neither `pause` nor `change_timer` is called, however late it is, and in whatever
order the strands and the timer go on while the clock stands still: they do
exactly `left` steps; they can always go on to the end; they stop nowhere else;
and there every element has completed one item for each whole interval since the
start. -/
theorem catches_up {si : Nat} {interval : Int} {source : W × Option String}
    {rest : List (W × Option String)} {now : Nat} {t : TimePoint} {p : Pipeline T W}
    (h : launch si interval source rest now t = .ok p) (hpos : 0 < intervalOf interval)
    {as : List (Action T)} {s : State T W} (hrun : Steps step Undisturbed (State.init now p) as s)
    {bs : List (Action T)} {u : State T W} (hown : Steps step Unaided s bs u) :
    bs.length + u.left now (intervalOf interval) = s.left now (intervalOf interval) ∧
      (∃ cs v, Steps step Unaided u cs v ∧ v.Idle) ∧
      ((∀ a, Unaided u a → step u a = none) → ∀ k, k < (works source rest).length →
        (u.completedAt k).map Item.id = List.range ((s.now - now) / intervalOf interval)) := by
  have hl := launched_of_launch h
  obtain ⟨w₀, htick₀, htime₀⟩ := ticking_of_launch h
  have hs : Punctual (works source rest) (0 < si) now (intervalOf interval) s :=
    hrun.invariant (fun _ _ _ hp hok hs => hp.step hok hs)
      ⟨hl.wired, hl.flow, w₀, .waiting, htick₀, htime₀⟩
  have hu := (backlog hpos).keeps hs hown
  refine ⟨?_, (backlog hpos).ends hu, fun hstuck k hk => ?_⟩
  · exact (backlog hpos).length_eq (fun _ _ _ hp hok hs => hp.left_step hpos hok hs) hs hown
  · have hidle := (backlog hpos).final_of_stuck hu hstuck
    have hnow : u.now = s.now := by
      refine (hown.invariant (P := fun v => Punctual (works source rest) (0 < si) now
        (intervalOf interval) v ∧ v.now = s.now) ?_ ⟨hs, rfl⟩).2
      rintro v a v' ⟨hv, hvnow⟩ hok hstep
      exact ⟨hv.step hok.undisturbed hstep, (hv.now_step hok hstep).trans hvnow⟩
    rw [hu.flow.completed hu.wired hidle.still hk, hu.made hidle, hnow]

/-- What happens to one frame of `twoStage` when the timer goes off. -/
def lateFrame : List (Action Nat) :=
  [.expire 0, .run 0 1, .finish 0 (some 7) 2, .next 0, .restart 0, .rewait 0, .run 1 3,
    .finish 1 none 4, .next 1]

/-- A camera read every 40 ms, when nothing was done for 125 ms: three frames,
in 27 steps. -/
theorem catches_up_three_frames :
    ∃ s u : State Nat String, exec (permit step Undisturbed) (State.init 0 (twoStage 0))
        [.elapse 125] = some s ∧
      exec (permit step Unaided) s (lateFrame ++ lateFrame ++ lateFrame) = some u ∧
      27 + u.left 0 40 = s.left 0 40 ∧
      ∀ k, k < 2 → (u.completedAt k).map Item.id = List.range (125 / 40) := by
  obtain ⟨s, hs, hnow⟩ := show ∃ s : State Nat String, exec (permit step Undisturbed)
    (State.init 0 (twoStage 0)) [.elapse 125] = some s ∧ s.now = 125 from ⟨_, rfl, rfl⟩
  obtain ⟨u, hu, hidle⟩ := show ∃ u, exec (permit step Unaided) s
      (lateFrame ++ lateFrame ++ lateFrame) = some u ∧ u.Idle by
    obtain rfl := Option.some.inj hs
    exact ⟨_, rfl, by decide⟩
  obtain ⟨hcount, -, hdone⟩ := catches_up (launch_twoStage 0) (by decide)
    (steps_iff_exec_permit.mpr hs) (steps_iff_exec_permit.mpr hu)
  rw [hnow] at hdone
  exact ⟨s, u, hs, hu, hcount, hdone fun _ => hidle.stuck⟩

end Pipeline

end SecMon
