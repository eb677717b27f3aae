import SecMon.Scene

/-!
# The scene monitor

`SceneMonitor.cpp`: the scenes by name, and the calls of the user interface on
them.  The calls come one after another; between them the pipelines run.

`Monitored` is what every sequence of calls keeps: names are unique and every
scene is `Scene.Sound`.  Stopping goes through `Pipeline::pause`, which is a
toggle, so `stop_stops_iff` says when it stops and `not_stop_stops` is the
shortest history after which it does the opposite.
-/

namespace SecMon

open Machine

/-- The scenes, in the order of their names. -/
structure SceneMonitor (T : Type) where
  scenes : List (Scene T) := []
  deriving DecidableEq, Repr

namespace SceneMonitor

variable {T F : Type}

/-- `scenes_.find(name)`. -/
def find (name : String) (m : SceneMonitor T) : Option (Scene T) :=
  m.scenes.find? (·.name = name)

/-- `ptr_map::insert`: keys stay in order, and a key that is there stays. -/
def insert (scene : Scene T) : List (Scene T) → List (Scene T)
  | [] => [scene]
  | s :: ss =>
    if s.name = scene.name then s :: ss
    else if scene.name < s.name then scene :: s :: ss
    else s :: insert scene ss

/-- A loop over the scenes.  An exception ends it; what was done is done. -/
def forScenes (f : Scene T → Except Fault (Scene T)) :
    List (Scene T) → List (Scene T) × Option Fault
  | [] => ([], none)
  | s :: ss =>
    match f s with
    | .error e => (s :: ss, some e)
    | .ok s' => (s' :: (forScenes f ss).1, (forScenes f ss).2)

def startMonitoring (rates : Rates F) (name : String) (camera : Except String Int)
    (realtimeFactor : F) (now : Nat) (t : TimePoint) (m : SceneMonitor T) :
    Except Fault (SceneMonitor T) :=
  match m.find name with
  | some _ => .error (.thrown ("A scene with this name already exists: " ++ name))
  | none => do
    let scene ← Scene.construct rates name camera realtimeFactor now t
    return { m with scenes := insert scene m.scenes }

def stopMonitoring (name : String) (m : SceneMonitor T) : Except Fault (SceneMonitor T) :=
  match m.find name with
  | none => .ok m
  | some scene => do
    let scene ← scene.shutdown
    return { m with scenes := m.scenes.map fun s => if s.name = name then scene else s }

def stopAllMonitoring (m : SceneMonitor T) : SceneMonitor T × Option Fault :=
  let (scenes, fault) := forScenes Scene.shutdown m.scenes
  ({ m with scenes := scenes }, fault)

def togglePause (m : SceneMonitor T) : SceneMonitor T × Option Fault :=
  let (scenes, fault) := forScenes Scene.togglePause m.scenes
  ({ m with scenes := scenes }, fault)

def setRealtimeFactor (rates : Rates F) (realtimeFactor : F) (m : SceneMonitor T) :
    SceneMonitor T × Option Fault :=
  let (scenes, fault) := forScenes (Scene.setRealtimeFactor rates realtimeFactor) m.scenes
  ({ m with scenes := scenes }, fault)

/-- What can happen to a monitor: a call, or a step of the pipeline of one of
its scenes. -/
inductive Action (T F : Type)
  | startMonitoring (name : String) (camera : Except String Int) (realtimeFactor : F)
      (now : Nat) (t : TimePoint)
  | stopMonitoring (name : String)
  | stopAllMonitoring
  | togglePause
  | setRealtimeFactor (realtimeFactor : F)
  | work (name : String) (a : Pipeline.Action T)

/-- The monitor after a call that returns, or that throws with nothing done. -/
def after (m : SceneMonitor T) : Except Fault (SceneMonitor T) → SceneMonitor T
  | .ok m' => m'
  | .error _ => m

def step (rates : Rates F) (m : SceneMonitor T) : Action T F → Option (SceneMonitor T)
  | .startMonitoring name camera f now t =>
      some (m.after (m.startMonitoring rates name camera f now t))
  | .stopMonitoring name => some (m.after (m.stopMonitoring name))
  | .stopAllMonitoring => some m.stopAllMonitoring.1
  | .togglePause => some m.togglePause.1
  | .setRealtimeFactor f => some (m.setRealtimeFactor rates f).1
  | .work name a => (m.find name).bind fun scene =>
      if a.byCaller then none
      else (Pipeline.step scene.pipeline a).map fun s' =>
        { m with scenes := m.scenes.map fun s =>
            if s.name = name then { scene with pipeline := s' } else s }

/-! ### What every history keeps -/

/-- Every scene is in order and has its own name. -/
structure Monitored (m : SceneMonitor T) : Prop where
  sound : ∀ sc ∈ m.scenes, sc.Sound
  names : (m.scenes.map Scene.name).Nodup

variable {m m' : SceneMonitor T} {name : String} {sc : Scene T}

theorem find_some (h : m.find name = some sc) : sc ∈ m.scenes ∧ sc.name = name := by
  refine ⟨List.mem_of_find?_eq_some h, ?_⟩
  simpa using List.find?_some h

theorem mem_insert {x : Scene T} : ∀ {l : List (Scene T)}, x ∈ insert sc l → x = sc ∨ x ∈ l
  | [], h => .inl (by simpa [insert] using h)
  | s :: ss, h => by
    rw [insert] at h
    by_cases h₁ : s.name = sc.name
    · rw [if_pos h₁] at h
      exact .inr h
    · rw [if_neg h₁] at h
      by_cases h₂ : sc.name < s.name
      · rw [if_pos h₂] at h
        exact List.mem_cons.mp h
      · rw [if_neg h₂] at h
        rcases List.mem_cons.mp h with rfl | h
        · exact .inr List.mem_cons_self
        · rcases mem_insert h with rfl | h
          · exact .inl rfl
          · exact .inr (List.mem_cons_of_mem s h)

theorem map_insert : ∀ {l : List (Scene T)}, (∀ s ∈ l, s.name ≠ sc.name) →
    ((insert sc l).map Scene.name).Perm (sc.name :: l.map Scene.name)
  | [], _ => .refl _
  | s :: ss, h => by
    have hs : s.name ≠ sc.name := h s List.mem_cons_self
    rw [insert, if_neg hs]
    by_cases hlt : sc.name < s.name
    · rw [if_pos hlt]
      exact .refl _
    · rw [if_neg hlt]
      exact ((map_insert fun x hx => h x (List.mem_cons_of_mem s hx)).cons s.name).trans
        (.swap _ _ _)

theorem nodup_insert {l : List (Scene T)} (h : (l.map Scene.name).Nodup)
    (hnot : ∀ s ∈ l, s.name ≠ sc.name) : ((insert sc l).map Scene.name).Nodup := by
  refine (map_insert hnot).nodup_iff.mpr (List.nodup_cons.mpr ⟨fun hmem => ?_, h⟩)
  obtain ⟨s, hs, hname⟩ := List.mem_map.mp hmem
  exact hnot s hs hname

theorem forScenes_ok {f : Scene T → Except Fault (Scene T)} {R : Scene T → Scene T → Prop} :
    ∀ {l : List (Scene T)}, (∀ s ∈ l, ∃ s', f s = .ok s' ∧ R s s') →
      ∃ l', forScenes f l = (l', none) ∧ List.Forall₂ R l l'
  | [], _ => ⟨[], rfl, .nil⟩
  | s :: ss, h => by
    obtain ⟨s', hs', hr⟩ := h s List.mem_cons_self
    obtain ⟨l', hl', hrel⟩ := forScenes_ok fun x hx => h x (List.mem_cons_of_mem s hx)
    exact ⟨s' :: l', by rw [forScenes, hs', hl'], .cons hr hrel⟩

/-- A change of every scene that keeps its name and leaves it in order. -/
theorem Monitored.forall₂ (h : Monitored m) {l : List (Scene T)}
    (hrel : List.Forall₂ (fun s s' => s'.Sound ∧ s'.name = s.name) m.scenes l) :
    Monitored { m with scenes := l } := by
  have hnames : ∀ {l₁ l₂ : List (Scene T)},
      List.Forall₂ (fun s s' => s'.Sound ∧ s'.name = s.name) l₁ l₂ →
      (∀ s ∈ l₂, s.Sound) ∧ l₂.map Scene.name = l₁.map Scene.name := by
    intro l₁ l₂ hrel
    induction hrel with
    | nil => exact ⟨by simp, rfl⟩
    | cons hr _ ih =>
      refine ⟨fun s hs => ?_, by rw [List.map_cons, List.map_cons, ih.2, hr.2]⟩
      rcases List.mem_cons.mp hs with rfl | hs
      · exact hr.1
      · exact ih.1 s hs
  obtain ⟨hs, hn⟩ := hnames hrel
  exact ⟨hs, by rw [hn]; exact h.names⟩

theorem Monitored.update (h : Monitored m) {sc' : Scene T} (hs : sc'.Sound)
    (hname : sc'.name = name) :
    Monitored { m with scenes := m.scenes.map fun s => if s.name = name then sc' else s } := by
  refine h.forall₂ (List.forall₂_map_right_iff.mpr (List.forall₂_same.mpr fun s hs' => ?_))
  by_cases hn : s.name = name
  · rw [if_pos hn]
    exact ⟨hs, hname.trans hn.symm⟩
  · rw [if_neg hn]
    exact ⟨h.sound s hs', rfl⟩

theorem find_update (hfind : m.find name = some sc) {sc' : Scene T} (hname : sc'.name = name) :
    find name { m with scenes := m.scenes.map fun s => if s.name = name then sc' else s } =
      some sc' := by
  have hsame : ((fun s : Scene T => decide (s.name = name)) ∘
      fun s => if s.name = name then sc' else s) = fun s => decide (s.name = name) := by
    funext s
    by_cases hn : s.name = name
    · simp [hn, hname]
    · simp [hn]
  rw [find] at hfind ⊢
  rw [List.find?_map, hsame, hfind, Option.map_some, if_pos (find_some hfind).2]

theorem Monitored.stopMonitoring (h : Monitored m) (hfind : m.find name = some sc) :
    ∃ sc', sc.shutdown = .ok sc' ∧ sc'.Sound ∧ sc'.name = name ∧
      m.stopMonitoring name = .ok { m with
        scenes := m.scenes.map fun s => if s.name = name then sc' else s } := by
  obtain ⟨hmem, hname⟩ := find_some hfind
  obtain ⟨sc', hsc', hs, hn, _⟩ := (h.sound sc hmem).shutdown
  refine ⟨sc', hsc', hs, hn.trans hname, ?_⟩
  rw [SceneMonitor.stopMonitoring, hfind]
  show sc.shutdown.bind _ = _
  rw [hsc']
  rfl

theorem Monitored.startMonitoring (h : Monitored m) (rates : Rates F) (name : String)
    (camera : Except String Int) (f : F) (now : Nat) (t : TimePoint) :
    Monitored (m.after (m.startMonitoring rates name camera f now t)) := by
  cases hfind : m.find name with
  | some sc =>
    rw [SceneMonitor.startMonitoring, hfind]
    exact h
  | none =>
    rw [SceneMonitor.startMonitoring, hfind]
    cases hsc : Scene.construct (T := T) rates name camera f now t with
    | error e => exact h
    | ok sc =>
      obtain ⟨hsound, hname⟩ := Scene.construct_sound hsc
      have hnot : ∀ s ∈ m.scenes, s.name ≠ sc.name := by
        intro s hs he
        rw [find, List.find?_eq_none] at hfind
        exact hfind s hs (by simp [he, hname])
      refine ⟨fun s hs => ?_, nodup_insert h.names hnot⟩
      rcases mem_insert hs with rfl | hs
      · exact hsound
      · exact h.sound s hs

/-- A loop over the scenes with a call that leaves each of them in order. -/
theorem Monitored.forScenes (h : Monitored m) {f : Scene T → Except Fault (Scene T)}
    (hf : ∀ s, s.Sound → ∃ s', f s = .ok s' ∧ s'.Sound ∧ s'.name = s.name) :
    Monitored { m with scenes := (SceneMonitor.forScenes f m.scenes).1 } := by
  obtain ⟨l, hl, hrel⟩ := forScenes_ok fun s hs => hf s (h.sound s hs)
  rw [hl]
  exact h.forall₂ hrel

theorem Monitored.step (h : Monitored m) {rates : Rates F} (a : Action T F)
    (hs : SceneMonitor.step rates m a = some m') : Monitored m' := by
  cases a with
  | startMonitoring name camera f now t =>
    rw [SceneMonitor.step, Option.some.injEq] at hs
    subst hs
    exact h.startMonitoring rates name camera f now t
  | stopMonitoring name =>
    rw [SceneMonitor.step, Option.some.injEq] at hs
    subst hs
    cases hfind : m.find name with
    | none =>
      rw [SceneMonitor.stopMonitoring, hfind]
      exact h
    | some sc =>
      obtain ⟨sc', _, hsound, hname, hstop⟩ := h.stopMonitoring hfind
      rw [hstop]
      exact h.update hsound hname
  | stopAllMonitoring =>
    rw [SceneMonitor.step, Option.some.injEq] at hs
    subst hs
    refine h.forScenes fun s hs => ?_
    obtain ⟨s', hs', hsound, hname, _⟩ := hs.shutdown
    exact ⟨s', hs', hsound, hname⟩
  | togglePause =>
    rw [SceneMonitor.step, Option.some.injEq] at hs
    subst hs
    exact h.forScenes fun s hs => hs.togglePause
  | setRealtimeFactor f =>
    rw [SceneMonitor.step, Option.some.injEq] at hs
    subst hs
    exact h.forScenes fun s hs => hs.setRealtimeFactor rates f
  | work name a =>
    obtain ⟨sc, hfind, hs⟩ := Option.bind_eq_some_iff.mp hs
    by_cases ha : a.byCaller = true
    · simp [ha] at hs
    · rw [if_neg ha] at hs
      obtain ⟨s', hs', rfl⟩ := Option.map_eq_some_iff.mp hs
      obtain ⟨hmem, hname⟩ := find_some hfind
      have hsc := h.sound sc hmem
      have hcaller := ((Pipeline.step_life a hs').2.2 (Bool.eq_false_iff.mpr ha)).1
      exact h.update (hsc.run_append (steps_iff_exec.mp (.single trivial hs'))
        (hcaller.trans hsc.idle) sc.isPaused) hname

theorem monitored {rates : Rates F} {as : List (Action T F)}
    (h : exec (SceneMonitor.step rates) {} as = some m) : Monitored m :=
  (steps_iff_exec.mpr h).invariant (fun _ a _ hm _ hs => hm.step a hs)
    ⟨by simp, by simp⟩

/-! ### Stopping -/

/-- **When stopping stops.**  In every state that a sequence of calls reaches,
`stop_monitoring` of a scene that exists returns and leaves it paused exactly
when its pipeline was not paused before, and `stop_all_monitoring` leaves
every scene paused exactly when none was. -/
theorem stop_stops_iff {rates : Rates F} {as : List (Action T F)}
    (h : exec (SceneMonitor.step rates) {} as = some m) :
    (∀ name sc, m.find name = some sc → ∃ m' sc', m.stopMonitoring name = .ok m' ∧
      m'.find name = some sc' ∧ (sc'.stopped = true ↔ sc.pipelinePaused = false)) ∧
    ∃ m', m.stopAllMonitoring = (m', none) ∧
      ((∀ sc ∈ m'.scenes, sc.stopped = true) ↔ ∀ sc ∈ m.scenes, sc.pipelinePaused = false) := by
  have hm := monitored h
  refine ⟨fun name sc hfind => ?_, ?_⟩
  · obtain ⟨sc', hsc', _, hname, hstop⟩ := hm.stopMonitoring hfind
    exact ⟨_, sc', hstop, find_update hfind hname,
      (hm.sound sc (find_some hfind).1).stopped_iff hsc'⟩
  · obtain ⟨l, hl, hrel⟩ := forScenes_ok (f := Scene.shutdown)
      (R := fun s s' => s'.stopped = true ↔ s.pipelinePaused = false) (l := m.scenes)
      fun s hs => by
        obtain ⟨s', hs', _⟩ := (hm.sound s hs).shutdown
        exact ⟨s', hs', (hm.sound s hs).stopped_iff hs'⟩
    refine ⟨{ m with scenes := l }, by rw [stopAllMonitoring, hl], ?_⟩
    show (∀ sc ∈ l, _) ↔ _
    clear hl
    generalize m.scenes = l₀ at hrel ⊢
    induction hrel with
    | nil => simp
    | cons hr _ ih => rw [List.forall_mem_cons, List.forall_mem_cons, hr, ih]

/-- Two scenes, of which the first was paused and resumed, and the second was made
in between: `stop_monitoring` stops the first, and starts the second again. -/
theorem stop_stops_iff_running :
    ∃ m, exec (SceneMonitor.step { interval := fun _ f => f, milliseconds := fun _ f => f.toNat })
        ({} : SceneMonitor Nat) [.startMonitoring "Yard" (.ok 10) 100 0 0, .togglePause,
          .startMonitoring "Gate" (.ok 25) 100 5 0, .togglePause, .setRealtimeFactor 50] = some m ∧
      (∃ m' sc', m.stopMonitoring "Yard" = .ok m' ∧ m'.find "Yard" = some sc' ∧
        sc'.stopped = true) ∧
      (∃ m' sc', m.stopMonitoring "Gate" = .ok m' ∧ m'.find "Gate" = some sc' ∧
        ¬sc'.stopped = true) ∧
      ∃ m', m.stopAllMonitoring = (m', none) ∧ ¬∀ sc ∈ m'.scenes, sc.stopped = true := by
  have hrun : exec (SceneMonitor.step
      { interval := fun _ f => f, milliseconds := fun _ f => f.toNat }) ({} : SceneMonitor Nat)
      [.startMonitoring "Yard" (.ok 10) 100 0 0, .togglePause,
        .startMonitoring "Gate" (.ok 25) 100 5 0, .togglePause, .setRealtimeFactor 50] =
      some _ := rfl
  obtain ⟨hone, m', hstopped, hall⟩ := stop_stops_iff hrun
  obtain ⟨m₁, sc₁, hstop₁, hfind₁, hyard⟩ := hone "Yard" _ rfl
  obtain ⟨m₂, sc₂, hstop₂, hfind₂, hgate⟩ := hone "Gate" _ rfl
  refine ⟨_, hrun, ⟨m₁, sc₁, hstop₁, hfind₁, hyard.mpr rfl⟩,
    ⟨m₂, sc₂, hstop₂, hfind₂, fun h => absurd (hgate.mp h) (by decide)⟩, m', hstopped, fun h => ?_⟩
  exact absurd (hall.mp h) (by decide)

/-- The user pauses, and `stop_monitoring` starts the scene again. -/
theorem not_stop_stops : ¬ ∀ (as : List (Action Nat Int)) (m m' : SceneMonitor Nat)
    (name : String) (sc' : Scene Nat),
    exec (SceneMonitor.step { interval := fun _ f => f, milliseconds := fun _ f => f.toNat })
      {} as = some m →
    m.stopMonitoring name = .ok m' → m'.find name = some sc' → sc'.stopped = true := by
  intro h
  exact absurd (h [.startMonitoring "Yard" (.ok 10) 100 0 0, .togglePause] _ _ "Yard" _ rfl rfl rfl)
    (by decide)

end SceneMonitor

end SecMon
