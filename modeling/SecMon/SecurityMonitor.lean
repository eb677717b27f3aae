import SecMon.Pipeline.Metronome
import SecMon.SceneMonitor

/-!
# The keyboard

`SecurityMonitor.cpp`: `main` starts one scene and then does what the keys say,
until Enter, while the threads of the pool work on the pipeline.

Three flags and a number come of the keys: `isPaused_` of the scene, the
`paused_` of its pipeline and of the source, and the source's interval.
`keys_control` says what they are after any keys, with any work done in
between: the scene is paused after an odd number of `p`s, the last speed key
holds.  Enter goes through the same toggle, so it sets `paused_` where it was not
set and clears it where it was.
-/

namespace SecMon

open Machine

namespace WorkWrapper

variable {T W : Type}

theorem milliseconds_setTimer (f : SteadyTimer → SteadyTimer) (w : WorkWrapper T W) :
    (w.setTimer f).milliseconds = w.milliseconds := by
  rw [milliseconds, setTimer, milliseconds]
  cases w.timed <;> rfl

theorem milliseconds_setPaused (b : Bool) (w : WorkWrapper T W) :
    (w.setPaused b).milliseconds = w.milliseconds := by
  rw [milliseconds, setPaused, milliseconds]
  cases w.timed <;> rfl

theorem milliseconds_cancel (w : WorkWrapper T W) : w.cancel.milliseconds = w.milliseconds :=
  milliseconds_setTimer (fun t => { t with pending := 0 }) w

theorem milliseconds_expiresAt (e : Nat) (w : WorkWrapper T W) :
    (w.expiresAt e).milliseconds = w.milliseconds :=
  milliseconds_setTimer (fun _ => { expiry := e, pending := 0 }) w

theorem milliseconds_asyncWait (w : WorkWrapper T W) :
    w.asyncWait.milliseconds = w.milliseconds :=
  milliseconds_setTimer (fun t => { t with pending := t.pending + 1 }) w

theorem milliseconds_startTimer (now : Nat) (w : WorkWrapper T W) :
    (w.startTimer now).milliseconds = w.milliseconds :=
  (milliseconds_asyncWait _).trans (milliseconds_expiresAt _ w)

theorem milliseconds_scheduleWork (now : Nat) (data : Item T W) (w : WorkWrapper T W) :
    (w.scheduleWork now data).milliseconds = w.milliseconds := by
  rw [scheduleWork]
  split
  · exact milliseconds_startTimer now w
  · rfl

theorem milliseconds_pause (now : Nat) (w : WorkWrapper T W) :
    (w.pause now).milliseconds = w.milliseconds := by
  rw [pause]
  split
  · exact (milliseconds_setPaused false _).trans (milliseconds_startTimer now w)
  · exact (milliseconds_setPaused true _).trans (milliseconds_cancel w)

end WorkWrapper

namespace Pipeline

variable {T W : Type} {s s' : State T W} {k : Nat}

/-- `milliseconds_` of the source. -/
def State.interval (s : State T W) : Nat := ((s.element 0).map WorkWrapper.milliseconds).getD 0

theorem interval_modify {f : WorkWrapper T W → WorkWrapper T W}
    (hf : ∀ w, (f w).milliseconds = w.milliseconds) : (s.modify k f).interval = s.interval := by
  rw [State.interval, State.element_modify, State.interval]
  split
  · cases s.element 0 with
    | none => rfl
    | some w => exact hf w
  · rfl

/-- **The work of the pool leaves the interval as it is.** -/
theorem interval_step {a : Action T} (ha : a.byCaller = false) (hs : step s a = some s') :
    s'.interval = s.interval := by
  cases a with
  | elapse d =>
    obtain rfl := Option.some.inj hs
    rfl
  | expire k =>
    obtain ⟨_, _, _, rfl⟩ := step_expire.mp hs
    exact interval_modify fun _ => WorkWrapper.SameTimes.expire.milliseconds
  | run k t =>
    obtain ⟨_, _, _, _, _, _, ⟨_, rfl⟩ | ⟨_, _, rfl⟩⟩ := run_cases hs
    · exact interval_modify fun _ => rfl
    · exact interval_modify fun _ => rfl
  | finish k data t =>
    obtain ⟨w, _, _, _, _, rfl⟩ := step_finish.mp hs
    cases w.timeStatsQueue <;> exact interval_modify fun _ => rfl
  | next k =>
    obtain ⟨w, _, _, _, rfl⟩ := step_next.mp hs
    cases w.next with
    | none => exact interval_modify fun _ => rfl
    | some j =>
      exact (interval_modify fun w => WorkWrapper.milliseconds_scheduleWork _ _ w).trans
        (interval_modify fun _ => rfl)
  | restart k =>
    obtain ⟨_, _, _, rfl⟩ := step_restart.mp hs
    exact interval_modify fun w => WorkWrapper.milliseconds_expiresAt _ w
  | rewait k =>
    obtain ⟨_, _, _, rfl⟩ := step_rewait.mp hs
    exact interval_modify fun w => WorkWrapper.milliseconds_asyncWait w
  | pauseCall | pauseWait | pauseReturn | changeTimer => cases ha
  | collect start stop =>
    simp only [step, Option.ite_none_right_eq_some, Option.some.injEq] at hs
    obtain ⟨_, rfl⟩ := hs
    rfl

theorem interval_pauseNow (hs : s.pauseNow = .ok s') : s'.interval = s.interval := by
  rw [State.pauseNow, Pipeline.pause] at hs
  cases hcheck : s.pipeline.checkPause with
  | error e =>
    rw [hcheck] at hs
    cases hs
  | ok u =>
    rw [hcheck] at hs
    obtain rfl := Except.ok.inj hs
    exact interval_modify (s := s) fun w => WorkWrapper.milliseconds_pause s.now w

end Pipeline

/-! ### The program -/

/-- `main`, once the threads are started. -/
structure SecurityMonitor (T : Type) where
  sceneMonitor : SceneMonitor T := {}
  /-- It is in the loop that reads the keys. -/
  reading : Bool := true
  /-- What the `catch` of `main` has caught. -/
  caught : Option Fault := none

namespace SecurityMonitor

variable {T F : Type} [OfScientific F]

/-- The first scene is started. -/
def start (rates : Rates F) (name : String) (camera : Except String Int) (realtimeFactor : F)
    (now : Nat) (t : TimePoint) : SecurityMonitor T :=
  match ({} : SceneMonitor T).startMonitoring rates name camera realtimeFactor now t with
  | .ok m => { sceneMonitor := m }
  | .error e => { reading := false, caught := some e }

/-- A call from the loop, which an exception leaves. -/
def call (r : SceneMonitor T × Option Fault) (s : SecurityMonitor T) : SecurityMonitor T :=
  { sceneMonitor := r.1, reading := s.reading && r.2.isNone, caught := r.2 }

/-- What the loop does with what `getch` returns. -/
def onKey (rates : Rates F) (ch : UInt8) (s : SecurityMonitor T) : SecurityMonitor T :=
  if ch = 112 then s.call s.sceneMonitor.togglePause
  else if ch = 115 then s.call (s.sceneMonitor.setRealtimeFactor rates 0.1)
  else if ch = 110 then s.call (s.sceneMonitor.setRealtimeFactor rates 0.5)
  else if ch = 102 then s.call (s.sceneMonitor.setRealtimeFactor rates 1.0)
  else if ch = 10 then { s.call s.sceneMonitor.stopAllMonitoring with reading := false }
  else s

inductive Action (T : Type)
  | key (ch : UInt8)
  | work (name : String) (a : Pipeline.Action T)

def step (rates : Rates F) (s : SecurityMonitor T) : Action T → Option (SecurityMonitor T)
  | .key ch => if s.reading then some (s.onKey rates ch) else none
  | .work name a => (SceneMonitor.step rates s.sceneMonitor (.work name a)).map fun m =>
      { s with sceneMonitor := m }

/-- The keys of a run. -/
def pressed (as : List (Action T)) : List UInt8 :=
  as.filterMap fun
    | .key ch => some ch
    | .work _ _ => none

/-! ### What the keys are for -/

/-- What a user can see of a scene and its program. -/
structure Controls where
  isPaused : Bool
  stopped : Bool
  interval : Nat
  quit : Bool

/-- The speed a key asks for. -/
def speed (rates : Rates F) (fps : Int) (ch : UInt8) : Option Nat :=
  if ch = 115 then some (rates.milliseconds fps 0.1)
  else if ch = 110 then some (rates.milliseconds fps 0.5)
  else if ch = 102 then some (rates.milliseconds fps 1.0)
  else none

/-- A key. -/
def Controls.press (rates : Rates F) (fps : Int) (c : Controls) (ch : UInt8) : Controls where
  isPaused := c.isPaused != (ch = 112)
  stopped := c.stopped != (ch = 112 || ch = 10)
  interval := (speed rates fps ch).getD c.interval
  quit := c.quit || ch = 10

/-- The scene of a running program, and what can be seen of it. -/
structure Shows (name : String) (fps : Int) (c : Controls) (s : SecurityMonitor T)
    (sc : Scene T) : Prop where
  scenes : s.sceneMonitor.scenes = [sc]
  sound : sc.Sound
  name_eq : sc.name = name
  fps_eq : sc.sourceFps = fps
  isPaused : sc.isPaused = c.isPaused
  stopped : sc.pipelinePaused = c.stopped
  interval : sc.pipeline.interval = c.interval
  reading : s.reading = !c.quit
  caught : s.caught = none

end SecurityMonitor

namespace Scene

variable {T F : Type} {sc : Scene T}

theorem Sound.togglePause_eq (h : sc.Sound) : ∃ sc', sc.togglePause = .ok sc' ∧ sc'.Sound ∧
    sc'.name = sc.name ∧ sc'.sourceFps = sc.sourceFps ∧ sc'.isPaused = !sc.isPaused ∧
    sc'.pipelinePaused = !sc.pipelinePaused ∧ sc'.pipeline.interval = sc.pipeline.interval := by
  obtain ⟨sc', hok, hsound, hname⟩ := h.togglePause
  obtain ⟨s', hs', -, hp, -⟩ := h.live.1.pauseNow
  have heq : sc.togglePause = .ok { sc with pipeline := s', isPaused := !sc.isPaused } := by
    rw [Scene.togglePause, hs']
    rfl
  obtain rfl := Except.ok.inj (hok.symm.trans heq)
  exact ⟨_, hok, hsound, hname, rfl, rfl, hp, Pipeline.interval_pauseNow hs'⟩

theorem Sound.shutdown_eq (h : sc.Sound) : ∃ sc', sc.shutdown = .ok sc' ∧ sc'.Sound ∧
    sc'.name = sc.name ∧ sc'.sourceFps = sc.sourceFps ∧ sc'.isPaused = sc.isPaused ∧
    sc'.pipelinePaused = !sc.pipelinePaused ∧ sc'.pipeline.interval = sc.pipeline.interval := by
  obtain ⟨sc', hok, hsound, hname, hp, -⟩ := h.shutdown
  obtain ⟨s', hs', -⟩ := h.live.1.pauseNow
  have heq : sc.shutdown = .ok { sc with pipeline := s' } := by
    rw [Scene.shutdown, hs']
    rfl
  obtain rfl := Except.ok.inj (hok.symm.trans heq)
  exact ⟨_, hok, hsound, hname, rfl, rfl, hp, Pipeline.interval_pauseNow hs'⟩

theorem Sound.setRealtimeFactor_eq (h : sc.Sound) (rates : Rates F) (realtimeFactor : F) :
    ∃ sc', sc.setRealtimeFactor rates realtimeFactor = .ok sc' ∧ sc'.Sound ∧
      sc'.name = sc.name ∧ sc'.sourceFps = sc.sourceFps ∧ sc'.isPaused = sc.isPaused ∧
      sc'.pipelinePaused = sc.pipelinePaused ∧
      sc'.pipeline.interval = rates.milliseconds sc.sourceFps realtimeFactor := by
  obtain ⟨sc', hok, hsound, hname⟩ := h.setRealtimeFactor rates realtimeFactor
  have hlive := h.live.1
  have hp := hlive.changeTimer (rates.milliseconds sc.sourceFps realtimeFactor)
  have heq : sc.setRealtimeFactor rates realtimeFactor = .ok { sc with
      pipeline := sc.pipeline.modify 0
        (·.setInterval (rates.milliseconds sc.sourceFps realtimeFactor)) } := by
    rw [Scene.setRealtimeFactor, Pipeline.State.changeTimerNow, hp]
    rfl
  obtain rfl := Except.ok.inj (hok.symm.trans heq)
  refine ⟨_, hok, hsound, hname, rfl, rfl, rfl, ?_⟩
  obtain ⟨w, h0, ht⟩ := hlive.source
  rw [Pipeline.State.interval, Pipeline.State.element_modify_self, h0]
  exact (WorkWrapper.setInterval_times ht _).1

end Scene

namespace SecurityMonitor

variable {T F : Type} {rates : Rates F} {name : String} {fps : Int} {c : Controls}
  {s s' : SecurityMonitor T} {sc : Scene T} {ks : List UInt8} {ms : Nat}

theorem shows_start (rates : Rates F) (name : String) (fps : Int) (factor : F) (now : Nat)
    (t : TimePoint) :
    ∃ sc, Shows name fps ⟨false, false, Pipeline.intervalOf (rates.interval fps factor), false⟩
      (start (T := T) rates name (.ok fps) factor now t) sc := by
  obtain ⟨p, hp, hl⟩ := Pipeline.launch_ok (T := T) 5000 (rates.interval fps factor)
    (Stage.imageSource, some "  Camera") [(.movementDetector, some " Movemnt"),
      (.roiDetector, some "    ROIs"), (.scenePublisher, some " Publish")] now t
  have hsc : Scene.construct (T := T) rates name (.ok fps) factor now t =
      .ok { name := name, pipeline := .init now p, sourceFps := fps } := by
    rw [Scene.construct_eq_launch, hp]
    rfl
  have hm : ({} : SceneMonitor T).startMonitoring rates name (.ok fps) factor now t =
      .ok { scenes := [{ name := name, pipeline := .init now p, sourceFps := fps }] } := by
    have hnone : ({} : SceneMonitor T).find name = none := rfl
    rw [SceneMonitor.startMonitoring, hnone]
    dsimp only
    rw [hsc]
    rfl
  refine ⟨{ name := name, pipeline := .init now p, sourceFps := fps }, ?_⟩
  rw [start, hm]
  refine ⟨rfl, (Scene.construct_sound hsc).1, rfl, rfl, rfl, hl.paused, ?_, rfl, rfl⟩
  obtain ⟨w, hw, hms, -⟩ := Pipeline.source_of_launch hp
  show (p.elements[0]?.map WorkWrapper.milliseconds).getD 0 = _
  rw [hw]
  exact hms

/-! ### What a key does -/

theorem Shows.work (h : Shows name fps c s sc) {name' : String} {a : Pipeline.Action T}
    {m : SceneMonitor T} (hs : SceneMonitor.step rates s.sceneMonitor (.work name' a) = some m) :
    ∃ sc', Shows name fps c { s with sceneMonitor := m } sc' := by
  obtain ⟨sc₀, hfind, hs⟩ := Option.bind_eq_some_iff.mp hs
  obtain ⟨hmem, hname'⟩ := SceneMonitor.find_some hfind
  rw [h.scenes, List.mem_singleton] at hmem
  subst hmem
  by_cases ha : a.byCaller = true
  · rw [if_pos ha] at hs
    cases hs
  · rw [if_neg ha] at hs
    have ha := Bool.eq_false_iff.mpr ha
    obtain ⟨p, hp, rfl⟩ := Option.map_eq_some_iff.mp hs
    obtain ⟨hcaller, hpaused⟩ := (Pipeline.step_life a hp).2.2 ha
    refine ⟨{ sc₀ with pipeline := p }, ?_, ?_, h.name_eq, h.fps_eq, h.isPaused,
      hpaused.trans h.stopped, (Pipeline.interval_step ha hp).trans h.interval, h.reading, h.caught⟩
    · show s.sceneMonitor.scenes.map _ = _
      rw [h.scenes, List.map_singleton, if_pos hname']
    · exact h.sound.run_append (steps_iff_exec.mp (.single trivial hp))
        (hcaller.trans h.sound.idle) sc₀.isPaused

variable [OfScientific F]

theorem forScenes_single {f : Scene T → Except Fault (Scene T)} {sc' : Scene T}
    (hscenes : s.sceneMonitor.scenes = [sc]) (hok : f sc = .ok sc') :
    SceneMonitor.forScenes f s.sceneMonitor.scenes = ([sc'], none) := by
  rw [hscenes, SceneMonitor.forScenes, hok]
  rfl

theorem Shows.setSpeed (h : Shows name fps c s sc) {ch : UInt8} {factor : F}
    (hspeed : speed rates fps ch = some (rates.milliseconds fps factor)) (hp : ch ≠ 112)
    (hq : ch ≠ 10) : ∃ sc', Shows name fps (c.press rates fps ch)
      (s.call (s.sceneMonitor.setRealtimeFactor rates factor)) sc' := by
  obtain ⟨sc', hok, hsound, hname, hfps, hflag, hpaused, hinterval⟩ :=
    h.sound.setRealtimeFactor_eq rates factor
  have hcall : s.sceneMonitor.setRealtimeFactor rates factor = ({ scenes := [sc'] }, none) := by
    rw [SceneMonitor.setRealtimeFactor, forScenes_single h.scenes hok]
  refine ⟨sc', ?_⟩
  rw [hcall]
  refine ⟨rfl, hsound, hname.trans h.name_eq, hfps.trans h.fps_eq, ?_, ?_, ?_, ?_, rfl⟩
  · rw [hflag, h.isPaused, Controls.press]
    simp [hp]
  · rw [hpaused, h.stopped, Controls.press]
    simp [hp, hq]
  · rw [hinterval, h.fps_eq, Controls.press, hspeed]
    rfl
  · show (s.reading && _) = _
    rw [h.reading, Controls.press]
    simp [hq]

/-- **What a key does.** -/
theorem Shows.onKey (h : Shows name fps c s sc) (ch : UInt8) :
    ∃ sc', Shows name fps (c.press rates fps ch) (s.onKey rates ch) sc' := by
  rw [SecurityMonitor.onKey]
  split_ifs with hp hslow hnormal hfast hquit
  · subst hp
    obtain ⟨sc', hok, hsound, hname, hfps, hflag, hpaused, hinterval⟩ := h.sound.togglePause_eq
    have hcall : s.sceneMonitor.togglePause = ({ scenes := [sc'] }, none) := by
      rw [SceneMonitor.togglePause, forScenes_single h.scenes hok]
    refine ⟨sc', ?_⟩
    rw [hcall]
    refine ⟨rfl, hsound, hname.trans h.name_eq, hfps.trans h.fps_eq, ?_, ?_, ?_, ?_, rfl⟩
    · rw [hflag, h.isPaused]
      exact (Bool.xor_true _).symm
    · rw [hpaused, h.stopped]
      exact (Bool.xor_true _).symm
    · exact hinterval.trans h.interval
    · show (s.reading && _) = _
      rw [h.reading]
      simp [Controls.press]
  · subst hslow
    exact h.setSpeed rfl (by decide) (by decide)
  · subst hnormal
    exact h.setSpeed rfl (by decide) (by decide)
  · subst hfast
    exact h.setSpeed rfl (by decide) (by decide)
  · subst hquit
    obtain ⟨sc', hok, hsound, hname, hfps, hflag, hpaused, hinterval⟩ := h.sound.shutdown_eq
    have hcall : s.sceneMonitor.stopAllMonitoring = ({ scenes := [sc'] }, none) := by
      rw [SceneMonitor.stopAllMonitoring, forScenes_single h.scenes hok]
    refine ⟨sc', ?_⟩
    rw [hcall]
    refine ⟨rfl, hsound, hname.trans h.name_eq, hfps.trans h.fps_eq, ?_, ?_, ?_, ?_, rfl⟩
    · rw [hflag, h.isPaused]
      exact (Bool.xor_false _).symm
    · rw [hpaused, h.stopped]
      exact (Bool.xor_true _).symm
    · exact hinterval.trans h.interval
    · show false = !(c.quit || true)
      rw [Bool.or_true]
      rfl
  · refine ⟨sc, h.scenes, h.sound, h.name_eq, h.fps_eq, ?_, ?_, ?_, ?_, h.caught⟩
    · rw [h.isPaused, Controls.press]
      simp [hp]
    · rw [h.stopped, Controls.press]
      simp [hp, hquit]
    · rw [h.interval, Controls.press, speed, if_neg hslow, if_neg hnormal, if_neg hfast]
      rfl
    · rw [h.reading, Controls.press]
      simp [hquit]

/-! ### What the keys of a run do -/

/-- The controls after the keys `ks`, of which Enter is the last if it is there. -/
structure Pressed (rates : Rates F) (fps : Int) (ms : Nat) (ks : List UInt8) (c : Controls) :
    Prop where
  isPaused : c.isPaused = decide (ks.count 112 % 2 = 1)
  stopped : c.stopped = (decide (ks.count 112 % 2 = 1) != c.quit)
  interval : c.interval = (ks.filterMap (speed rates fps)).getLast?.getD ms
  quit : c.quit = decide (10 ∈ ks)

theorem Pressed.press (h : Pressed rates fps ms ks c) (hq : c.quit = false) (ch : UInt8) :
    Pressed rates fps ms (ks ++ [ch]) (c.press rates fps ch) := by
  have hparity : decide ((ks ++ [ch]).count 112 % 2 = 1) =
      (decide (ks.count 112 % 2 = 1) != decide (ch = 112)) := by
    rw [List.count_append, List.count_singleton]
    by_cases hp : ch = 112
    · subst hp
      rcases Nat.mod_two_eq_zero_or_one (ks.count 112) with h | h <;> simp [Nat.add_mod, h]
    · simp [hp]
  refine ⟨?_, ?_, ?_, ?_⟩
  · rw [hparity, ← h.isPaused]
    rfl
  · have hstopped := h.stopped
    rw [hq, Bool.bne_false] at hstopped
    show (c.stopped != (ch = 112 || ch = 10)) = (_ != (c.quit || ch = 10))
    rw [hparity, hstopped, hq, Bool.false_or]
    by_cases hp : ch = 112
    · subst hp
      simp
    · simp [hp]
  · show (speed rates fps ch).getD c.interval = _
    rw [List.filterMap_append, h.interval]
    cases hspeed : speed rates fps ch with
    | none => simp [hspeed]
    | some v => simp [hspeed]
  · show (c.quit || decide (ch = 10)) = _
    rw [h.quit]
    simp [eq_comm]

theorem Shows.run (h : Shows name fps c s sc) (hks : Pressed rates fps ms ks c)
    {as : List (Action T)} (hrun : exec (step rates) s as = some s') :
    ∃ c' sc', Shows name fps c' s' sc' ∧ Pressed rates fps ms (ks ++ pressed as) c' := by
  induction as generalizing s c sc ks with
  | nil =>
    obtain rfl := Option.some.inj hrun
    rw [pressed, List.filterMap_nil, List.append_nil]
    exact ⟨c, sc, h, hks⟩
  | cons a as ih =>
    obtain ⟨t, ht, hrun⟩ := Option.bind_eq_some_iff.mp hrun
    cases a with
    | key ch =>
      obtain ⟨hreading, ht⟩ := Option.ite_none_right_eq_some.mp ht
      obtain rfl := Option.some.inj ht
      obtain ⟨sc', h'⟩ : ∃ sc', Shows name fps (c.press rates fps ch) (s.onKey rates ch) sc' :=
        h.onKey ch
      have hquit : c.quit = false := by
        rw [h.reading] at hreading
        simpa using hreading
      have hnext := ih h' (hks.press hquit ch) hrun
      rwa [List.append_assoc] at hnext
    | work name' a =>
      obtain ⟨m, hm, rfl⟩ := Option.map_eq_some_iff.mp ht
      obtain ⟨sc', h'⟩ := h.work hm
      exact ih h' hks hrun

/-- **What the keys come to.**  After any keys, with any work of the pool between
them, there is the one scene, and nothing was caught.  `isPaused_` tells whether
`p` was pressed an odd number of times.  Until Enter both `paused_` flags are set
if it was, and after Enter if it was not; the interval is that of the last speed
key. -/
theorem keys_control (rates : Rates F) (name : String) (fps : Int) (factor : F) (now : Nat)
    (t : TimePoint) {as : List (Action T)}
    (hrun : exec (step rates) (start rates name (.ok fps) factor now t) as = some s) :
    ∃ sc, s.sceneMonitor.scenes = [sc] ∧ sc.name = name ∧ s.caught = none ∧
      (s.reading = true ↔ 10 ∉ pressed as) ∧
      (sc.isPaused = true ↔ (pressed as).count 112 % 2 = 1) ∧
      (sc.stopped = true ↔ if 10 ∈ pressed as then (pressed as).count 112 % 2 = 0
        else (pressed as).count 112 % 2 = 1) ∧
      sc.pipeline.interval = ((pressed as).filterMap (speed rates fps)).getLast?.getD
        (Pipeline.intervalOf (rates.interval fps factor)) := by
  obtain ⟨sc₀, h₀⟩ := shows_start (T := T) rates name fps factor now t
  have hbegan : Pressed rates fps (Pipeline.intervalOf (rates.interval fps factor)) []
      ⟨false, false, Pipeline.intervalOf (rates.interval fps factor), false⟩ := ⟨rfl, rfl, rfl, rfl⟩
  obtain ⟨c, sc, h, hks⟩ := h₀.run hbegan hrun
  rw [List.nil_append] at hks
  have hstopped : sc.stopped = c.stopped := by
    obtain ⟨-, w, h0, hflag⟩ := h.sound.live
    rw [Scene.stopped, Scene.sourcePaused, h0, Option.any_some, ← hflag, Bool.and_self, h.stopped]
  refine ⟨sc, h.scenes, h.name_eq, h.caught, ?_, ?_, ?_, h.interval.trans hks.interval⟩
  · rw [h.reading, hks.quit]
    simp
  · rw [h.isPaused, hks.isPaused]
    simp
  · rw [hstopped, hks.stopped, hks.quit]
    by_cases hq : 10 ∈ pressed as
    · rw [if_pos hq, decide_eq_true hq]
      simp
    · rw [if_neg hq, decide_eq_false hq]
      simp

/-- Slower, then paused, and Enter: no `paused_` is set. -/
theorem keys_control_paused :
    let rates : Rates Rat :=
      ⟨fun _ _ => 100, fun fps factor => (1000 / (fps * factor)).floor.toNat⟩
    let as : List (Action Nat) := [.key 115, .work "Yard" (.elapse 100),
      .work "Yard" (.expire 0), .key 112, .work "Yard" (.run 0 0), .key 10]
    ∃ s, exec (step rates) (start rates "Yard" (.ok 10) 1.0 0 0) as = some s ∧
      ∃ sc, s.sceneMonitor.scenes = [sc] ∧ sc.name = "Yard" ∧ s.caught = none ∧
        (s.reading = true ↔ 10 ∉ pressed as) ∧
        (sc.isPaused = true ↔ (pressed as).count 112 % 2 = 1) ∧
        (sc.stopped = true ↔ if 10 ∈ pressed as then (pressed as).count 112 % 2 = 0
          else (pressed as).count 112 % 2 = 1) ∧
        sc.pipeline.interval = ((pressed as).filterMap (speed rates 10)).getLast?.getD
          (Pipeline.intervalOf (rates.interval 10 1.0)) := by
  intro rates as
  obtain ⟨s, hs⟩ := Option.isSome_iff_exists.mp
    (show (exec (step rates) (start rates "Yard" (.ok 10) 1.0 0 0) as).isSome = true by decide +kernel)
  exact ⟨s, hs, keys_control rates "Yard" 10 1.0 0 0 hs⟩

end SecurityMonitor

end SecMon
