import SecMon.Pipeline.Wiring

/-!
# Building and starting a pipeline

`Scene` and the tests use a pipeline one way: one timed element, any number of
further elements, `compile`, `start`.  `launch` is that sequence of calls, each
with or without a column header; `launch_ok` says no call of it throws, and
`launched_of_launch` says what it leaves: a wired pipeline (`Wired`) whose
strands are empty and whose source has one wait pending.
-/

namespace SecMon

namespace Pipeline

variable {T W : Type}

/-- `addTimedElement`, either overload. -/
def addTimed (interval : Int) (work : W) (header : Option String) (p : Pipeline T W) :
    Except Fault (Pipeline T W) :=
  match header with
  | none => p.addTimedElement interval work
  | some header => p.addTimedElementHeader interval work header

/-- `addElement`, either overload. -/
def add (work : W) (header : Option String) (p : Pipeline T W) : Except Fault (Pipeline T W) :=
  match header with
  | none => p.addElement work
  | some header => p.addElementHeader work header

def addAll : List (W × Option String) → Pipeline T W → Except Fault (Pipeline T W)
  | [], p => .ok p
  | e :: es, p => (p.add e.1 e.2).bind (addAll es)

/-- Build a pipeline, compile and start it. -/
def launch (statsInterval : Nat) (interval : Int) (source : W × Option String)
    (rest : List (W × Option String)) (now : Nat) (t : TimePoint) :
    Except Fault (Pipeline T W) := do
  let p ← addTimed interval source.1 source.2 { statsInterval := statsInterval }
  let p ← addAll rest p
  p.compile.start now t

/-- The work functions of a pipeline in the order they were added. -/
def works (source : W × Option String) (rest : List (W × Option String)) : List W :=
  source.1 :: rest.map Prod.fst

/-! ### Adding -/

/-- Element `k` when it has just been added. -/
structure Fresh (ws : List W) (stats : Bool) (k : Nat) (w : WorkWrapper T W) : Prop where
  work : ws[k]? = some w.work
  queue : w.timeStatsQueue = if stats then some k else none
  timed : w.timed.isSome = decide (k = 0)
  timer : w.pending = 0
  running : w.paused = false
  next : w.next = none
  strand : w.strand = []
  activity : w.activity = none

/-- A pipeline that the elements with works `ws` have been added to. -/
structure Built (ws : List W) (statsInterval : Nat) (p : Pipeline T W) : Prop where
  interval : p.statsInterval = statsInterval
  compiled : p.compiled = false
  started : p.started = false
  paused : p.paused = false
  length : p.elements.length = ws.length
  fresh : ∀ k w, p.elements[k]? = some w → Fresh ws (0 < statsInterval) k w
  queues : p.timeStats = if 0 < statsInterval then List.replicate ws.length [] else []

variable {ws : List W} {si : Nat} {p : Pipeline T W}

theorem Fresh.append {stats : Bool} {k : Nat} {w : WorkWrapper T W} (h : Fresh ws stats k w)
    (v : W) : Fresh (ws ++ [v]) stats k w := by
  refine ⟨?_, h.queue, h.timed, h.timer, h.running, h.next, h.strand, h.activity⟩
  rw [List.getElem?_append_left (List.getElem?_eq_some_iff.mp h.work).1]
  exact h.work

theorem getElem?_concat_cases {α : Type} {l : List α} {x y : α} {k : Nat}
    (h : (l ++ [x])[k]? = some y) : l[k]? = some y ∨ k = l.length ∧ y = x := by
  rcases Nat.lt_or_ge k l.length with hk | hk
  · rw [List.getElem?_append_left hk] at h
    exact .inl h
  · rw [List.getElem?_append_right hk, List.getElem?_singleton] at h
    obtain ⟨hk', hy⟩ := Option.ite_none_right_eq_some.mp h
    exact .inr ⟨by omega, (Option.some.inj hy).symm⟩

theorem Built.emplaceBack (h : Built ws si p) (work : W) (timed : Option Timed)
    (ht : timed.isSome = decide (ws.length = 0))
    (hp : ((timed.map (·.timer.pending)).getD 0) = 0)
    (hr : ((timed.map Timed.paused).getD false) = false) :
    Built (ws ++ [work]) si (p.emplaceBack work timed) := by
  have hlen : p.timeStats.length = if 0 < si then ws.length else 0 := by
    rw [h.queues]
    split <;> simp
  have hnew : ∀ e : WorkWrapper T W,
      e = { work := work, timeStatsQueue := if 0 < si then some ws.length else none,
            timed := timed } → Fresh (ws ++ [work]) (0 < si) ws.length e := by
    rintro _ rfl
    exact ⟨by simp, by simp, ht, hp, hr, rfl, rfl, rfl⟩
  have hfresh : ∀ (e : WorkWrapper T W) (k : Nat) (w : WorkWrapper T W),
      Fresh (ws ++ [work]) (0 < si) ws.length e → (p.elements ++ [e])[k]? = some w →
      Fresh (ws ++ [work]) (0 < si) k w := by
    intro e k w he hw
    rcases getElem?_concat_cases hw with hw | ⟨rfl, rfl⟩
    · exact (h.fresh k w hw).append work
    · rw [h.length]
      exact he
  by_cases hsi : 0 < si
  · have he : p.emplaceBack work timed = { p with
        timeStats := p.timeStats ++ [[]]
        elements := p.elements ++ [{ work := work, timeStatsQueue := some p.timeStats.length,
                                     timed := timed }] } := by
      rw [Pipeline.emplaceBack, h.interval, if_pos hsi]
    rw [he]
    refine ⟨h.interval, h.compiled, h.started, h.paused, by simp [h.length], fun k w hw => ?_, ?_⟩
    · refine hfresh _ k w (hnew _ ?_) hw
      rw [hlen, if_pos hsi, if_pos hsi]
    · simp [h.queues, hsi, List.replicate_succ']
  · have he : p.emplaceBack work timed = { p with
        elements := p.elements ++ [{ work := work, timeStatsQueue := none, timed := timed }] } := by
      rw [Pipeline.emplaceBack, h.interval, if_neg hsi]
    rw [he]
    refine ⟨h.interval, h.compiled, h.started, h.paused, by simp [h.length], fun k w hw => ?_, ?_⟩
    · refine hfresh _ k w (hnew _ ?_) hw
      rw [if_neg hsi]
    · simp [h.queues, hsi]

theorem Built.header (h : Built ws si p) (header : String) :
    Built ws si { p with statsOutputHeader := header } :=
  ⟨h.interval, h.compiled, h.started, h.paused, h.length, h.fresh, h.queues⟩

theorem Built.checkAdd (h : Built ws si p) (hne : ws ≠ []) : p.checkAdd = .ok () := by
  have hel : p.elements ≠ [] := by
    intro he
    have := h.length
    rw [he] at this
    exact hne (List.length_eq_zero_iff.mp this.symm)
  rw [Pipeline.checkAdd, h.compiled]
  cases hp : p.elements with
  | nil => exact absurd hp hel
  | cons e es => rfl

theorem Built.add (h : Built ws si p) (hne : ws ≠ []) (work : W) (header : Option String) :
    ∃ p', p.add work header = .ok p' ∧ Built (ws ++ [work]) si p' := by
  have key : ∀ q : Pipeline T W, Built ws si q →
      ∃ p', q.addElement work = .ok p' ∧ Built (ws ++ [work]) si p' := by
    intro q hq
    refine ⟨q.emplaceBack work none, ?_, hq.emplaceBack work none ?_ rfl rfl⟩
    · rw [addElement, hq.checkAdd hne]
      rfl
    · simpa using hne
  cases header with
  | none => exact key p h
  | some header =>
    obtain ⟨p', hp', hb⟩ := key _ (h.header (p.statsOutputHeader ++ "      ->" ++ header))
    refine ⟨p', ?_, hb⟩
    rw [Pipeline.add, addElementHeader, h.checkAdd hne]
    exact hp'

theorem Built.addAll (h : Built ws si p) (hne : ws ≠ []) : ∀ rest : List (W × Option String),
    ∃ p', Pipeline.addAll rest p = .ok p' ∧ Built (ws ++ rest.map Prod.fst) si p' := by
  intro rest
  induction rest generalizing ws p with
  | nil => exact ⟨p, rfl, by simpa using h⟩
  | cons e es ih =>
    obtain ⟨q, hq, hb⟩ := h.add hne e.1 e.2
    obtain ⟨p', hp', hb'⟩ := ih hb (by simp)
    refine ⟨p', ?_, by simpa using hb'⟩
    rw [Pipeline.addAll, hq]
    exact hp'

theorem built_addTimed (si : Nat) (interval : Int) (work : W) (header : Option String) :
    ∃ p' : Pipeline T W, addTimed interval work header { statsInterval := si } = .ok p' ∧
      Built [work] si p' := by
  have h0 : ∀ header : String,
      Built [] si { statsInterval := si, statsOutputHeader := header : Pipeline T W } :=
    fun header => ⟨rfl, rfl, rfl, rfl, rfl, fun k w hw => by simp at hw, by simp⟩
  cases header with
  | none => exact ⟨_, rfl, (h0 _).emplaceBack work _ rfl rfl rfl⟩
  | some header => exact ⟨_, rfl, (h0 _).emplaceBack work _ rfl rfl rfl⟩

/-! ### Compiling -/

@[simp] theorem length_link : ∀ (n : Nat) (es : List (WorkWrapper T W)),
    (link n es).length = es.length
  | _, [] => rfl
  | _, [_] => rfl
  | n, e :: e' :: es => by
    rw [link, List.length_cons, length_link (n + 1) (e' :: es)]
    rfl

/-- **What `compile` binds.**  Every element but the last gets the one after it. -/
theorem getElem?_link : ∀ (n : Nat) (es : List (WorkWrapper T W)) (k : Nat),
    (link n es)[k]? = es[k]?.map fun e =>
      if k + 1 < es.length then { e with next := some (n + k + 1) } else e
  | _, [], k => by simp [link]
  | _, [e], k => by
    cases k with
    | zero => simp [link]
    | succ k => simp [link]
  | n, e :: e' :: es, 0 => by simp [link]
  | n, e :: e' :: es, k + 1 => by
    rw [link, List.getElem?_cons_succ, getElem?_link (n + 1) (e' :: es) k,
      List.getElem?_cons_succ]
    have hn : n + 1 + k + 1 = n + (k + 1) + 1 := by omega
    simp only [hn, List.length_cons, Nat.add_lt_add_iff_right]

/-- An element whose strand and timer have seen nothing yet. -/
structure Idle (w : WorkWrapper T W) : Prop where
  strand : w.strand = []
  activity : w.activity = none
  paused : w.paused = false
  pending : w.pending = 0

/-- **A compiled pipeline is wired.** -/
theorem Built.compile (h : Built ws si p) {k : Nat} {w : WorkWrapper T W}
    (hw : p.compile.elements[k]? = some w) : Placed ws (0 < si) k w ∧ Idle w := by
  rw [Pipeline.compile, getElem?_link] at hw
  obtain ⟨v, hv, rfl⟩ := Option.map_eq_some_iff.mp hw
  have hf := h.fresh k v hv
  have hrest : v.inRestart = false := by rw [WorkWrapper.inRestart, hf.activity]
  rw [h.length, Nat.zero_add]
  by_cases hk : k + 1 < ws.length
  · rw [if_pos hk]
    refine ⟨⟨hf.work, (if_pos hk).symm, hf.queue, hf.timed, ?_, ?_⟩,
      hf.strand, hf.activity, hf.running, hf.timer⟩
    · intro x hx
      rw [hf.strand] at hx
      simp at hx
    · intro hr
      exact absurd (hr.symm.trans hrest) (by decide)
  · rw [if_neg hk]
    refine ⟨⟨hf.work, by rw [if_neg hk]; exact hf.next, hf.queue, hf.timed, ?_, ?_⟩,
      hf.strand, hf.activity, hf.running, hf.timer⟩
    · intro x hx
      rw [hf.strand] at hx
      simp at hx
    · intro hr
      exact absurd (hr.symm.trans hrest) (by decide)

/-! ### Starting -/

/-- A pipeline that has just been started. -/
structure Launched (ws : List W) (statsInterval : Nat) (s : State T W) : Prop where
  wired : Wired ws (0 < statsInterval) s
  started : s.pipeline.started = true
  compiled : s.pipeline.compiled = true
  paused : s.pipeline.paused = false
  caller : s.caller = .idle
  quiet : ∀ k w, s.element k = some w → w.strand = [] ∧ w.activity = none ∧ w.paused = false
  source : ∃ w, s.element 0 = some w ∧ w.pending = 1
  log : s.log = []
  printed : s.printed = []
  queues : s.pipeline.timeStats = if 0 < statsInterval then List.replicate ws.length [] else []

theorem Idle.startTimer {w : WorkWrapper T W} (h : Idle w) (ht : w.timed.isSome = true)
    (now : Nat) : (w.startTimer now).strand = [] ∧ (w.startTimer now).activity = none ∧
      (w.startTimer now).paused = false ∧ (w.startTimer now).pending = 1 := by
  obtain ⟨t, ht⟩ := Option.isSome_iff_exists.mp ht
  have hpa : t.paused = false := by
    have := h.paused
    rw [WorkWrapper.paused, ht] at this
    exact this
  have hw : (w.startTimer now).timed =
      some { t with timer := { expiry := now + w.milliseconds, pending := 1 } } := by
    simp [WorkWrapper.startTimer, WorkWrapper.expiresAt, WorkWrapper.asyncWait,
      WorkWrapper.setTimer, WorkWrapper.postTicks, ht]
  refine ⟨?_, h.activity, ?_, ?_⟩
  · show w.strand ++ List.replicate w.pending _ = []
    rw [h.strand, h.pending]
    rfl
  · rw [WorkWrapper.paused, hw]
    exact hpa
  · rw [WorkWrapper.pending, hw]
    rfl

theorem Built.start (h : Built ws si p) (hne : ws ≠ []) (now : Nat) (t : TimePoint) :
    ∃ p', p.compile.start now t = .ok p' ∧ Launched ws si (State.init now p') := by
  have hlen : p.compile.elements.length = ws.length := by
    rw [Pipeline.compile, length_link, h.length]
  have hpos : 0 < p.compile.elements.length := by
    rw [hlen]
    exact List.length_pos_iff.mpr hne
  have hel : p.compile.elements.isEmpty = false := by
    rw [List.isEmpty_eq_false_iff]
    exact List.length_pos_iff.mp hpos
  have hst : p.compile.started = false := h.started
  have hco : p.compile.compiled = true := rfl
  refine ⟨_, by simp only [Pipeline.start, hco, hst, hel]; rfl, ?_⟩
  have hwired : Wired ws (0 < si) (State.init now p.compile) :=
    ⟨hlen, fun k w hw => (h.compile hw).1⟩
  obtain ⟨w₀, hw₀⟩ : ∃ w, p.compile.elements[0]? = some w := ⟨_, List.getElem?_eq_getElem hpos⟩
  have htimed : w₀.timed.isSome = true := (h.compile hw₀).1.timed
  have hsched : w₀.scheduleWork now dummyData = w₀.startTimer now := by
    rw [WorkWrapper.scheduleWork, if_pos htimed]
  have hidle := (h.compile hw₀).2.startTimer htimed now
  refine ⟨?_, rfl, rfl, h.paused, rfl, ?_, ?_, rfl, rfl, h.queues⟩
  · refine (hwired.modify (k := 0) (·.scheduleWork now dummyData) fun w hw => ?_).congr rfl
    obtain rfl : w₀ = w := Option.some.inj (hw₀.symm.trans hw)
    rw [hsched]
    exact (hwired.placed 0 w₀ hw).timerOp (TimerOp.startTimer now w₀)
  · intro k w hw
    have hw : ((State.init now p.compile).modify 0 (·.scheduleWork now dummyData)).element k
        = some w := hw
    rw [State.element_modify] at hw
    by_cases hk : 0 = k
    · subst hk
      rw [if_pos rfl, show (State.init now p.compile).element 0 = some w₀ from hw₀,
        Option.map_some, Option.some.injEq, hsched] at hw
      subst hw
      exact ⟨hidle.1, hidle.2.1, hidle.2.2.1⟩
    · rw [if_neg hk] at hw
      have hi := (h.compile (show p.compile.elements[k]? = some w from hw)).2
      exact ⟨hi.strand, hi.activity, hi.paused⟩
  · refine ⟨w₀.startTimer now, ?_, hidle.2.2.2⟩
    show ((State.init now p.compile).modify 0 (·.scheduleWork now dummyData)).element 0 = _
    rw [State.element_modify_self, show (State.init now p.compile).element 0 = some w₀ from hw₀,
      Option.map_some, hsched]

/-- **Building and starting a pipeline never throws**, and leaves it as
`Launched` says. -/
theorem launch_ok (si : Nat) (interval : Int) (source : W × Option String)
    (rest : List (W × Option String)) (now : Nat) (t : TimePoint) :
    ∃ p : Pipeline T W, launch si interval source rest now t = .ok p ∧
      Launched (works source rest) si (State.init now p) := by
  obtain ⟨p₁, hp₁, hb₁⟩ := built_addTimed si interval source.1 source.2
  obtain ⟨p₂, hp₂, hb₂⟩ := hb₁.addAll (by simp) rest
  obtain ⟨p₃, hp₃, hl⟩ := hb₂.start (by simp) now t
  refine ⟨p₃, ?_, hl⟩
  rw [launch, hp₁]
  show (Pipeline.addAll rest p₁).bind _ = _
  rw [hp₂]
  exact hp₃

theorem launched_of_launch {si : Nat} {interval : Int} {source : W × Option String}
    {rest : List (W × Option String)} {now : Nat} {t : TimePoint} {p : Pipeline T W}
    (h : launch si interval source rest now t = .ok p) :
    Launched (works source rest) si (State.init now p) := by
  obtain ⟨p', hp', hl⟩ := launch_ok (T := T) si interval source rest now t
  obtain rfl : p' = p := by
    rw [h] at hp'
    exact (Except.ok.inj hp').symm
  exact hl

/-- The smallest pipeline with a second element, started at time `0`: a camera
read every 40 ms and one consumer. -/
def twoStage (statsInterval : Nat) : Pipeline Nat String :=
  { statsInterval := statsInterval
    timer := { expiry := statsInterval, pending := 1 }
    started := true
    compiled := true
    elements :=
      [{ work := "Camera", timeStatsQueue := if 0 < statsInterval then some 0 else none,
         timed := some { milliseconds := 40, timer := { expiry := 40, pending := 1 } },
         next := some 1 },
       { work := "Movement", timeStatsQueue := if 0 < statsInterval then some 1 else none,
         timed := none }]
    timeStats := if 0 < statsInterval then [[], []] else []
    lastStatsTime := some 0 }

theorem launch_twoStage (si : Nat) :
    launch si 40 ("Camera", none) [("Movement", none)] 0 0 = .ok (twoStage si) := by
  by_cases h : 0 < si
  · simp [launch, addTimed, addAll, add, addTimedElement, addElement, checkAddTimed, checkAdd,
      emplaceBack, h, twoStage, Pipeline.start, compile, link, modify, startStatsTimer,
      WorkWrapper.scheduleWork, WorkWrapper.startTimer, WorkWrapper.expiresAt,
      WorkWrapper.asyncWait, WorkWrapper.setTimer, WorkWrapper.postTicks, WorkWrapper.milliseconds,
      WorkWrapper.pending, bind, Except.bind, pure, Except.pure]
  · obtain rfl : si = 0 := by omega
    rfl

end Pipeline

end SecMon
