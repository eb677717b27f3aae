import SecMon.Pipeline.Pause

/-!
# Scenes

`Scene.cpp`: a scene owns the pipeline of one camera.  `shutdown`,
`toggle_pause` and `set_realtime_factor` are calls on that pipeline, made by
the one thread that owns the scene, so between two of them the pipeline just
runs.

`pauseNow` is a whole call of `Pipeline::pause` on a running pipeline.  The
run of `Pipeline/Run.lean` takes it apart into the calls on the timer;
`exec_pauseNow` puts it together again, and `Scene.Sound` says that a scene's
pipeline is always in a state that such a run reaches.
-/

namespace SecMon

namespace Pipeline

open Machine

variable {T W : Type} {ws : List W} {stats : Bool} {si : Nat} {s s' : State T W}
  {w : WorkWrapper T W}

/-- `Pipeline::pause`, from call to return. -/
def State.pauseNow (s : State T W) : Except Fault (State T W) :=
  (s.pipeline.pause s.now).map fun p => { s with pipeline := p }

/-- `Pipeline::change_timer`, from call to return. -/
def State.changeTimerNow (milliseconds : Nat) (s : State T W) : Except Fault (State T W) :=
  (s.pipeline.changeTimer milliseconds).map fun p => { s with pipeline := p }

/-- The steps of the thread that calls `pause` and `change_timer`. -/
def Action.byCaller : Action T → Bool
  | .pauseCall | .pauseWait | .pauseReturn | .changeTimer _ => true
  | _ => false

/-- A pipeline that can be paused: the checks of `pause` pass. -/
structure Live (s : State T W) : Prop where
  compiled : s.pipeline.compiled = true
  started : s.pipeline.started = true
  source : ∃ w, s.element 0 = some w ∧ w.timed.isSome = true

theorem Live.head (h : Live s) :
    ∃ w es, s.pipeline.elements = w :: es ∧ w.timed.isSome = true := by
  obtain ⟨w, h0, ht⟩ := h.source
  cases hes : s.pipeline.elements with
  | nil =>
    rw [State.element, hes] at h0
    simp at h0
  | cons v es =>
    rw [State.element, hes] at h0
    obtain rfl : v = w := Option.some.inj h0
    exact ⟨v, es, rfl, ht⟩

theorem Live.timed (h : Live s) :
    (s.pipeline.elements.head?.bind WorkWrapper.timed).isNone = false := by
  obtain ⟨w, es, hes, ht⟩ := h.head
  rw [hes]
  exact Option.isNone_eq_false_iff.mpr ht

theorem Live.checkPause (h : Live s) : s.pipeline.checkPause = .ok () := by
  rw [Pipeline.checkPause, h.compiled, h.started, h.timed]
  rfl

theorem Live.changeTimer (h : Live s) (ms : Nat) :
    s.pipeline.changeTimer ms = .ok (s.pipeline.modify 0 (·.setInterval ms)) := by
  rw [Pipeline.changeTimer, h.compiled, h.timed]
  rfl

/-- **What a call of `pause` does**: it switches both flags. -/
theorem Live.pauseNow (h : Live s) :
    ∃ s', s.pauseNow = .ok s' ∧ s'.caller = s.caller ∧
      s'.pipeline.paused = !s.pipeline.paused ∧
      ∀ w, s.element 0 = some w → ∃ w', s'.element 0 = some w' ∧ w'.paused = !w.paused := by
  refine ⟨{ s with pipeline := { s.pipeline.modify 0 (·.pause s.now) with
    paused := !s.pipeline.paused } }, ?_, rfl, rfl, fun w h0 => ⟨w.pause s.now, ?_, ?_⟩⟩
  · rw [State.pauseNow, Pipeline.pause, h.checkPause]
    rfl
  · show (s.modify 0 (·.pause s.now)).element 0 = _
    rw [State.element_modify_self, h0, Option.map_some]
  · obtain ⟨v, hv, ht⟩ := h.source
    obtain rfl : w = v := Option.some.inj (h0.symm.trans hv)
    rw [WorkWrapper.pause]
    by_cases hp : w.paused = true
    · rw [if_pos hp, hp]
      refine WorkWrapper.paused_setPaused ?_ false
      rw [WorkWrapper.startTimer, (TimerOp.asyncWait _).timed, (TimerOp.expiresAt _ w).timed]
      exact ht
    · rw [if_neg hp, Bool.eq_false_iff.mpr hp]
      refine WorkWrapper.paused_setPaused ?_ true
      rw [(TimerOp.cancel w).timed]
      exact ht

/-- **A call of `pause` is a run** of its steps, when nothing comes between. -/
theorem exec_pauseNow (h : Live s) (hc : s.caller = .idle) (hs : s.pauseNow = .ok s') :
    ∃ as, exec step s as = some s' := by
  obtain ⟨w, es, hes, ht⟩ := h.head
  have h0 : s.element 0 = some w := by rw [State.element, hes]; rfl
  rw [State.pauseNow, Pipeline.pause, h.checkPause] at hs
  obtain rfl := (Except.ok.inj hs).symm
  by_cases hp : w.paused = true
  · have hcall := step_pauseCall.mpr ⟨w, h0, hc, h.checkPause, .inl ⟨hp, rfl⟩⟩
    refine ⟨[.pauseCall, .pauseWait, .pauseReturn], ?_⟩
    rw [exec, hcall]
    have hpa : ((w.expiresAt (s.now + w.milliseconds)).asyncWait).paused = true := by
      rw [WorkWrapper.paused_asyncWait, WorkWrapper.paused_expiresAt, hp]
    simp [exec, step, State.modify, Pipeline.modify, hes, WorkWrapper.pause, hp,
      WorkWrapper.startTimer, hpa, hc]
  · have hp := Bool.eq_false_iff.mpr hp
    have hcall := step_pauseCall.mpr ⟨w, h0, hc, h.checkPause, .inr ⟨hp, rfl⟩⟩
    refine ⟨[.pauseCall, .pauseReturn], ?_⟩
    rw [exec, hcall]
    have hpa : w.cancel.paused = false := by rw [WorkWrapper.paused_cancel, hp]
    simp [exec, step, State.modify, Pipeline.modify, hes, WorkWrapper.pause, hp, hpa, hc]

/-- The life cycle of a started pipeline is over, and only the caller touches
the flags. -/
theorem step_life (a : Action T) (hs : step s a = some s') :
    s'.pipeline.compiled = s.pipeline.compiled ∧ s'.pipeline.started = s.pipeline.started ∧
      (a.byCaller = false → s'.caller = s.caller ∧ s'.pipeline.paused = s.pipeline.paused) := by
  cases a with
  | elapse d =>
    rw [step, Option.some.injEq] at hs
    subst hs
    exact ⟨rfl, rfl, fun _ => ⟨rfl, rfl⟩⟩
  | expire k =>
    obtain ⟨_, _, _, rfl⟩ := step_expire.mp hs
    exact ⟨rfl, rfl, fun _ => ⟨rfl, rfl⟩⟩
  | run k t =>
    obtain ⟨_, _, _, _, _, _, ⟨_, rfl⟩ | ⟨_, _, rfl⟩⟩ := run_cases hs
    · exact ⟨rfl, rfl, fun _ => ⟨rfl, rfl⟩⟩
    · exact ⟨rfl, rfl, fun _ => ⟨rfl, rfl⟩⟩
  | finish k data t =>
    obtain ⟨w, _, _, _, _, rfl⟩ := step_finish.mp hs
    cases w.timeStatsQueue <;> exact ⟨rfl, rfl, fun _ => ⟨rfl, rfl⟩⟩
  | next k =>
    obtain ⟨w, _, _, _, rfl⟩ := step_next.mp hs
    cases w.next <;> exact ⟨rfl, rfl, fun _ => ⟨rfl, rfl⟩⟩
  | restart k =>
    obtain ⟨_, _, _, rfl⟩ := step_restart.mp hs
    exact ⟨rfl, rfl, fun _ => ⟨rfl, rfl⟩⟩
  | rewait k =>
    obtain ⟨_, _, _, rfl⟩ := step_rewait.mp hs
    exact ⟨rfl, rfl, fun _ => ⟨rfl, rfl⟩⟩
  | pauseCall =>
    obtain ⟨_, _, _, _, ⟨_, rfl⟩ | ⟨_, rfl⟩⟩ := step_pauseCall.mp hs
    · exact ⟨rfl, rfl, fun h => by simp [Action.byCaller] at h⟩
    · exact ⟨rfl, rfl, fun h => by simp [Action.byCaller] at h⟩
  | pauseWait =>
    obtain ⟨_, rfl⟩ := step_pauseWait.mp hs
    exact ⟨rfl, rfl, fun h => by simp [Action.byCaller] at h⟩
  | pauseReturn =>
    obtain ⟨_, rfl⟩ := step_pauseReturn.mp hs
    exact ⟨rfl, rfl, fun h => by simp [Action.byCaller] at h⟩
  | changeTimer ms =>
    obtain ⟨_, p, hp, rfl⟩ := step_changeTimer.mp hs
    rw [changeTimer_ok hp]
    exact ⟨rfl, rfl, fun _ => ⟨rfl, rfl⟩⟩
  | collect start stop =>
    simp only [step, Option.ite_none_right_eq_some, Option.some.injEq] at hs
    obtain ⟨_, rfl⟩ := hs
    exact ⟨rfl, rfl, fun _ => ⟨rfl, rfl⟩⟩

/-- **A started pipeline can always be paused**, and its two flags agree. -/
theorem Launched.live (h : Launched ws si s) {as : List (Action T)}
    (hrun : exec step s as = some s') :
    Live s' ∧ ∃ w, s'.element 0 = some w ∧ s'.pipeline.paused = w.paused := by
  obtain ⟨hw, w, h0, hflag⟩ := h.flags hrun
  have hlife : s'.pipeline.compiled = true ∧ s'.pipeline.started = true := by
    refine (steps_iff_exec.mpr hrun).invariant
      (P := fun s => s.pipeline.compiled = true ∧ s.pipeline.started = true)
      (fun s a s' hp _ hs => ?_) ⟨h.compiled, h.started⟩
    obtain ⟨hc, hst, _⟩ := step_life a hs
    exact ⟨hc.trans hp.1, hst.trans hp.2⟩
  exact ⟨⟨hlife.1, hlife.2, w, h0, (hw.placed 0 w h0).timed⟩, w, h0, hflag⟩

end Pipeline

/-! ### The scene -/

/-- The elements of a scene's pipeline. -/
inductive Stage
  | imageSource
  | movementDetector
  | roiDetector
  | scenePublisher
  deriving DecidableEq, Repr

/-- `1000/(source_fps_*realtime_factor)`, a `double`, as the code converts it:
to the `int` of `addTimedElement` and to the `unsigned int` of `change_timer`. -/
structure Rates (F : Type) where
  interval : Int → F → Int
  milliseconds : Int → F → Nat

structure Scene (T : Type) where
  name : String
  pipeline : Pipeline.State T Stage
  isPaused : Bool := false
  sourceFps : Int := 0
  deriving DecidableEq, Repr

namespace Scene

open Machine

variable {T F : Type} {sc sc' : Scene T}

/-- The constructor.  `camera` is what opening the url gives: a frame rate, or
the message of the exception. -/
def construct (rates : Rates F) (name : String) (camera : Except String Int)
    (realtimeFactor : F) (now : Nat) (t : TimePoint) : Except Fault (Scene T) := do
  let fps ← camera.mapError .thrown
  let p : Pipeline T Stage := { statsInterval := 5000 }
  let p ← p.addTimedElementHeader (rates.interval fps realtimeFactor) .imageSource "  Camera"
  let p ← p.addElementHeader .movementDetector " Movemnt"
  let p ← p.addElementHeader .roiDetector "    ROIs"
  let p ← p.addElementHeader .scenePublisher " Publish"
  let p ← p.compile.start now t
  return { name := name, pipeline := .init now p, sourceFps := fps }

def shutdown (sc : Scene T) : Except Fault (Scene T) := do
  return { sc with pipeline := ← sc.pipeline.pauseNow }

def togglePause (sc : Scene T) : Except Fault (Scene T) := do
  return { sc with pipeline := ← sc.pipeline.pauseNow, isPaused := !sc.isPaused }

def setRealtimeFactor (rates : Rates F) (realtimeFactor : F) (sc : Scene T) :
    Except Fault (Scene T) := do
  return { sc with
    pipeline := ← sc.pipeline.changeTimerNow (rates.milliseconds sc.sourceFps realtimeFactor) }

/-- `Pipeline::is_paused()` of the scene's pipeline. -/
def pipelinePaused (sc : Scene T) : Bool := sc.pipeline.pipeline.paused

/-- `TimedWorkWrapper::paused_` of its source. -/
def sourcePaused (sc : Scene T) : Bool := (sc.pipeline.element 0).any WorkWrapper.paused

/-- A scene that has been stopped: both flags say paused. -/
def stopped (sc : Scene T) : Bool := sc.pipelinePaused && sc.sourcePaused

/-- A scene as its calls find it: its pipeline was built as `launch` builds
pipelines, has run since, and no call on it is under way. -/
structure Sound (sc : Scene T) : Prop where
  run : ∃ si ws s as, Pipeline.Launched (T := T) (W := Stage) ws si s ∧
    exec Pipeline.step s as = some sc.pipeline
  idle : sc.pipeline.caller = .idle

theorem construct_eq_launch (rates : Rates F) (name : String) (fps : Int) (realtimeFactor : F)
    (now : Nat) (t : TimePoint) :
    construct (T := T) rates name (.ok fps) realtimeFactor now t =
      (Pipeline.launch 5000 (rates.interval fps realtimeFactor)
        (Stage.imageSource, some "  Camera") [(.movementDetector, some " Movemnt"),
          (.roiDetector, some "    ROIs"), (.scenePublisher, some " Publish")] now t).map
        fun p => { name := name, pipeline := .init now p, sourceFps := fps } :=
  rfl

theorem construct_sound {rates : Rates F} {name : String} {camera : Except String Int}
    {realtimeFactor : F} {now : Nat} {t : TimePoint}
    (h : construct rates name camera realtimeFactor now t = .ok sc) :
    sc.Sound ∧ sc.name = name := by
  cases camera with
  | error message => simp [construct, Except.mapError, bind, Except.bind] at h
  | ok fps =>
    rw [construct_eq_launch] at h
    obtain ⟨p, hp, hl⟩ := Pipeline.launch_ok (T := T) 5000 (rates.interval fps realtimeFactor)
      (Stage.imageSource, some "  Camera") [(.movementDetector, some " Movemnt"),
        (.roiDetector, some "    ROIs"), (.scenePublisher, some " Publish")] now t
    rw [hp] at h
    obtain rfl := Except.ok.inj h
    exact ⟨⟨⟨_, _, _, [], hl, rfl⟩, rfl⟩, rfl⟩

theorem Sound.live (h : sc.Sound) : Pipeline.Live sc.pipeline ∧
    ∃ w, sc.pipeline.element 0 = some w ∧ sc.pipelinePaused = w.paused := by
  obtain ⟨si, ws, s, as, hl, hrun⟩ := h.run
  exact hl.live hrun

/-- What the pipeline does keeps the scene as its calls expect it. -/
theorem Sound.run_append (h : sc.Sound) {s' : Pipeline.State T Stage}
    {bs : List (Pipeline.Action T)} (hrun : exec Pipeline.step sc.pipeline bs = some s')
    (hc : s'.caller = .idle) (b : Bool) :
    Sound { sc with pipeline := s', isPaused := b } := by
  obtain ⟨si, ws, s, as, hl, hrun₀⟩ := h.run
  refine ⟨⟨si, ws, s, as ++ bs, hl, ?_⟩, hc⟩
  exact steps_iff_exec.mp ((steps_iff_exec.mpr hrun₀).append (steps_iff_exec.mpr hrun))

/-- **`shutdown` toggles**: it leaves both flags the way they were not. -/
theorem Sound.shutdown (h : sc.Sound) : ∃ sc', sc.shutdown = .ok sc' ∧ sc'.Sound ∧
    sc'.name = sc.name ∧ sc'.pipelinePaused = !sc.pipelinePaused ∧
    sc'.sourcePaused = !sc.pipelinePaused := by
  obtain ⟨hlive, w, h0, hflag⟩ := h.live
  obtain ⟨s', hs', hc, hp, hw⟩ := hlive.pauseNow
  obtain ⟨w', h0', hpaused⟩ := hw w h0
  obtain ⟨bs, hrun⟩ := Pipeline.exec_pauseNow hlive h.idle hs'
  refine ⟨{ sc with pipeline := s' }, ?_, h.run_append hrun (hc.trans h.idle) sc.isPaused, rfl,
    hp, ?_⟩
  · rw [Scene.shutdown, hs']
    rfl
  · show (s'.element 0).any WorkWrapper.paused = _
    rw [h0', hflag]
    exact hpaused

theorem Sound.stopped_iff (h : sc.Sound) (hs : sc.shutdown = .ok sc') :
    sc'.stopped = true ↔ sc.pipelinePaused = false := by
  obtain ⟨v, hv, _, _, hp, hso⟩ := h.shutdown
  obtain rfl : v = sc' := Except.ok.inj (hv.symm.trans hs)
  rw [stopped, hp, hso, Bool.and_self, Bool.not_eq_true']

theorem Sound.togglePause (h : sc.Sound) : ∃ sc', sc.togglePause = .ok sc' ∧ sc'.Sound ∧
    sc'.name = sc.name := by
  obtain ⟨hlive, w, h0, hflag⟩ := h.live
  obtain ⟨s', hs', hc, hp, hw⟩ := hlive.pauseNow
  obtain ⟨bs, hrun⟩ := Pipeline.exec_pauseNow hlive h.idle hs'
  refine ⟨{ sc with pipeline := s', isPaused := !sc.isPaused }, ?_,
    h.run_append hrun (hc.trans h.idle) (!sc.isPaused), rfl⟩
  rw [Scene.togglePause, hs']
  rfl

theorem Sound.setRealtimeFactor (h : sc.Sound) (rates : Rates F) (realtimeFactor : F) :
    ∃ sc', sc.setRealtimeFactor rates realtimeFactor = .ok sc' ∧ sc'.Sound ∧
      sc'.name = sc.name := by
  obtain ⟨hlive, _⟩ := h.live
  have hp := hlive.changeTimer (rates.milliseconds sc.sourceFps realtimeFactor)
  have hrun := steps_iff_exec.mp
    (.single trivial (Pipeline.step_changeTimer.mpr ⟨h.idle, _, hp, rfl⟩))
  refine ⟨_, ?_, h.run_append hrun h.idle sc.isPaused, rfl⟩
  rw [Scene.setRealtimeFactor, Pipeline.State.changeTimerNow, hp]
  rfl

end Scene

end SecMon
