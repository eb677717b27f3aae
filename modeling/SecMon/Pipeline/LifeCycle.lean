import SecMon.Pipeline.Build
import SecMon.Pipeline.TickChain

/-!
# The life cycle

The calls on a `Pipeline` object in any order and number.  In `Pipeline.lean` a
call that throws gives no pipeline; here each function is written once more
statement by statement (`Method`), so that an exception leaves the object as it
is at that moment, and `run_method` says the two agree: the checks of a call
come before all that it changes.

`LifeCycle` is what holds between calls.  What can go wrong is that `compile`
does not ask for an element: `start` and `change_timer` then evaluate
`front()` of an empty vector.  `upholds_iff` says that nothing else does.
-/

namespace SecMon

namespace Pipeline

open Machine

variable {T W : Type}

/-! ### Statement by statement -/

/-- The body of a member function. -/
abbrev Method (T W : Type) := EStateM Fault (Pipeline T W)

namespace Method

/-- A statement that changes the object. -/
def assign (f : Pipeline T W → Pipeline T W) : Method T W Unit := do
  set (f (← get))

/-- `if (c) throw message;` -/
def throwIf (c : Pipeline T W → Bool) (message : String) : Method T W Unit := do
  if c (← get) then throw (.thrown message)

/-- `elements_.front()`. -/
def front : Method T W Unit := do
  if (← get).elements.isEmpty then throw .undefined

/-- A call through `static_cast<TimedWorkWrapper<T>*>(elements_.front().get())`. -/
def timedFront : Method T W Unit := do
  if ((← get).elements.head?.bind WorkWrapper.timed).isNone then throw .undefined

/-- `time_stats_.emplace_back(new TimeStatsQueue())`. -/
def emplaceQueue : Method T W Unit := assign fun p => { p with timeStats := p.timeStats ++ [[]] }

/-- `elements_.emplace_back(...)`; `queue` is what the element is given of
`time_stats_`. -/
def emplaceElement (work : W) (timed : Option Timed) (queue : Pipeline T W → Option Nat) :
    Method T W Unit :=
  assign fun p => { p with
    elements := p.elements ++ [{ work := work, timeStatsQueue := queue p, timed := timed }] }

/-- The end of both `addTimedElement` and `addElement`. -/
def emplaceBack (work : W) (timed : Option Timed) : Method T W Unit := do
  if 0 < (← get).statsInterval then
    emplaceQueue
    emplaceElement work timed fun p => some (p.timeStats.length - 1)
  else emplaceElement work timed fun _ => none

/-- `stats_output_header_.append(text)`. -/
def appendHeader (text : String) : Method T W Unit :=
  assign fun p => { p with statsOutputHeader := p.statsOutputHeader ++ text }

def addTimedElement (interval : Int) (work : W) : Method T W Unit := do
  throwIf compiled "Can't add elements once the pipeline has been compiled"
  throwIf (fun p => !p.elements.isEmpty) "Can only add TimedElement to an empty pipeline"
  emplaceBack work (some { milliseconds := (interval % 4294967296).toNat })

def addTimedElementHeader (interval : Int) (work : W) (header : String) : Method T W Unit := do
  throwIf compiled "Can't add elements once the pipeline has been compiled"
  throwIf (fun p => !p.elements.isEmpty) "Can only add TimedElement to an empty pipeline"
  appendHeader header
  addTimedElement interval work

def addElement (work : W) : Method T W Unit := do
  throwIf compiled "Can't add elements once the pipeline has been compiled"
  throwIf (fun p => p.elements.isEmpty)
    "Can only add regular Elements after a TimedElement or BlockingElement has been added"
  emplaceBack work none

def addElementHeader (work : W) (header : String) : Method T W Unit := do
  throwIf compiled "Can't add elements once the pipeline has been compiled"
  throwIf (fun p => p.elements.isEmpty)
    "Can only add regular Elements after a TimedElement or BlockingElement has been added"
  appendHeader "      ->"
  appendHeader header
  addElement work

def compile : Method T W Unit := do
  assign fun p => { p with elements := link 0 p.elements }
  assign fun p => { p with compiled := true }

def start (now : Nat) (t : TimePoint) : Method T W Unit := do
  throwIf (fun p => !p.compiled) "Can't perform start operation before pipeline is compiled"
  throwIf started "Pipeline has already been started!"
  front
  assign fun p => p.modify 0 (·.scheduleWork now dummyData)
  assign fun p => p.startStatsTimer now t
  assign fun p => { p with started := true }

def pause (now : Nat) : Method T W Unit := do
  throwIf (fun p => !p.compiled) "Can't perform pause operation before pipeline is compiled"
  throwIf (fun p => !p.started) "Can't perform pause operation before pipeline is started"
  timedFront
  assign fun p => p.modify 0 (·.pause now)
  assign fun p => { p with paused := !p.paused }

def changeTimer (milliseconds : Nat) : Method T W Unit := do
  throwIf (fun p => !p.compiled)
    "Can't perform change_timer operation before pipeline is compiled"
  timedFront
  assign fun p => p.modify 0 (·.setInterval milliseconds)

end Method

/-- A call from outside.  The clocks are read in `start` and `pause`. -/
inductive Call (W : Type)
  | addTimedElement (interval : Int) (work : W)
  | addTimedElementHeader (interval : Int) (work : W) (header : String)
  | addElement (work : W)
  | addElementHeader (work : W) (header : String)
  | compile
  | start (now : Nat) (t : TimePoint)
  | pause (now : Nat)
  | changeTimer (milliseconds : Nat)
  deriving DecidableEq, Repr

def Call.method : Call W → Method T W Unit
  | addTimedElement interval work => Method.addTimedElement interval work
  | addTimedElementHeader interval work header => Method.addTimedElementHeader interval work header
  | addElement work => Method.addElement work
  | addElementHeader work header => Method.addElementHeader work header
  | compile => Method.compile
  | start now t => Method.start now t
  | pause now => Method.pause now
  | changeTimer milliseconds => Method.changeTimer milliseconds

/-- The same call in the model of `Pipeline.lean`. -/
def Call.perform (p : Pipeline T W) : Call W → Except Fault (Pipeline T W)
  | addTimedElement interval work => p.addTimedElement interval work
  | addTimedElementHeader interval work header => p.addTimedElementHeader interval work header
  | addElement work => p.addElement work
  | addElementHeader work header => p.addElementHeader work header
  | compile => .ok p.compile
  | start now t => p.start now t
  | pause now => p.pause now
  | changeTimer milliseconds => p.changeTimer milliseconds

/-- What a call gives when a fault leaves the object as it was. -/
def settle (p : Pipeline T W) : Except Fault (Pipeline T W) → EStateM.Result Fault (Pipeline T W) Unit
  | .ok p' => .ok () p'
  | .error e => .error e p

variable {p : Pipeline T W} {m : Method T W Unit}

theorem run_guard_bind (c : Pipeline T W → Bool) (e : Fault) :
    (do (do if c (← get) then throw e); m).run p = if c p then .error e p else m.run p := by
  rw [EStateM.run_bind, EStateM.run_bind, EStateM.run_get]
  dsimp only
  by_cases h : c p = true
  · rw [if_pos h, if_pos h]
    rfl
  · rw [if_neg h, if_neg h]
    rfl

theorem run_throwIf_bind (c : Pipeline T W → Bool) (message : String) :
    (do Method.throwIf c message; m).run p =
      if c p then .error (.thrown message) p else m.run p :=
  run_guard_bind c (.thrown message)

theorem run_front_bind :
    (do Method.front; m).run p = if p.elements.isEmpty then .error .undefined p else m.run p :=
  run_guard_bind (fun p => p.elements.isEmpty) .undefined

theorem run_timedFront_bind : (do Method.timedFront; m).run p =
    if (p.elements.head?.bind WorkWrapper.timed).isNone then .error .undefined p else m.run p :=
  run_guard_bind (fun p => (p.elements.head?.bind WorkWrapper.timed).isNone) .undefined

theorem run_assign_bind (f : Pipeline T W → Pipeline T W) :
    (do Method.assign f; m).run p = m.run (f p) := rfl

theorem run_assign (f : Pipeline T W → Pipeline T W) : (Method.assign f).run p = .ok () (f p) := rfl

theorem run_emplaceBack (work : W) (timed : Option Timed) :
    (Method.emplaceBack work timed).run p = .ok () (p.emplaceBack work timed) := by
  rw [Method.emplaceBack, EStateM.run_bind, EStateM.run_get, Pipeline.emplaceBack]
  dsimp only
  by_cases h : 0 < p.statsInterval
  · have hlast : (p.timeStats ++ [[]]).length - 1 = p.timeStats.length := by
      rw [List.length_append, List.length_singleton, Nat.add_sub_cancel]
    rw [if_pos h, if_pos h, ← hlast]
    rfl
  · rw [if_neg h, if_neg h]
    rfl

theorem run_addTimedElement (interval : Int) (work : W) :
    (Method.addTimedElement interval work).run p = settle p (p.addTimedElement interval work) := by
  unfold Method.addTimedElement
  rw [run_throwIf_bind, run_throwIf_bind, run_emplaceBack, Pipeline.addTimedElement, checkAddTimed]
  cases p.compiled <;> cases p.elements.isEmpty <;> rfl

theorem run_addElement (work : W) :
    (Method.addElement work).run p = settle p (p.addElement work) := by
  unfold Method.addElement
  rw [run_throwIf_bind, run_throwIf_bind, run_emplaceBack, Pipeline.addElement, checkAdd]
  cases p.compiled <;> cases p.elements.isEmpty <;> rfl

/-- **A call that fails changes nothing**, and one that succeeds does what
`Pipeline.lean` says. -/
theorem run_method (c : Call W) : c.method.run p = settle p (c.perform p) := by
  cases c with
  | addTimedElement interval work => exact run_addTimedElement interval work
  | addTimedElementHeader interval work header =>
    show (Method.addTimedElementHeader interval work header).run p =
      settle p (p.addTimedElementHeader interval work header)
    unfold Method.addTimedElementHeader Method.appendHeader
    rw [run_throwIf_bind, run_throwIf_bind, run_assign_bind, run_addTimedElement,
      Pipeline.addTimedElementHeader, checkAddTimed, Pipeline.addTimedElement, checkAddTimed]
    cases p.compiled <;> cases p.elements.isEmpty <;> rfl
  | addElement work => exact run_addElement work
  | addElementHeader work header =>
    show (Method.addElementHeader work header).run p =
      settle p (p.addElementHeader work header)
    unfold Method.addElementHeader Method.appendHeader
    rw [run_throwIf_bind, run_throwIf_bind, run_assign_bind, run_assign_bind, run_addElement,
      Pipeline.addElementHeader, checkAdd, Pipeline.addElement, checkAdd]
    dsimp only
    cases p.compiled <;> cases p.elements.isEmpty <;> simp [settle, String.append_assoc] <;> rfl
  | compile => rfl
  | start now t =>
    show (Method.start now t).run p = settle p (p.start now t)
    unfold Method.start
    rw [run_throwIf_bind, run_throwIf_bind, run_front_bind, run_assign_bind, run_assign_bind,
      run_assign, Pipeline.start]
    cases p.compiled <;> cases p.started <;> cases p.elements.isEmpty <;> rfl
  | pause now =>
    show (Method.pause now).run p = settle p (p.pause now)
    unfold Method.pause
    rw [run_throwIf_bind, run_throwIf_bind, run_timedFront_bind, run_assign_bind, run_assign,
      Pipeline.pause, checkPause]
    cases p.compiled <;> cases p.started <;>
      cases (p.elements.head?.bind WorkWrapper.timed).isNone <;> rfl
  | changeTimer milliseconds =>
    show (Method.changeTimer milliseconds).run p = settle p (p.changeTimer milliseconds)
    unfold Method.changeTimer
    rw [run_throwIf_bind, run_timedFront_bind, run_assign, Pipeline.changeTimer]
    cases p.compiled <;> cases (p.elements.head?.bind WorkWrapper.timed).isNone <;> rfl

/-! ### Between calls -/

/-- What holds between calls. -/
structure LifeCycle (p : Pipeline T W) : Prop where
  compiled : p.started = true → p.compiled = true
  started : p.paused = true → p.started = true
  /-- the pipeline is paused exactly if its source is -/
  flags : ∀ w, p.elements[0]? = some w → w.paused = p.paused
  /-- once compiled, an element is followed by the one added after it -/
  next : ∀ k w, p.elements[k]? = some w →
    w.next = if p.compiled = true ∧ k + 1 < p.elements.length then some (k + 1) else none
  /-- the first element is the only timed one -/
  timed : ∀ k w, p.elements[k]? = some w → (w.timed.isSome = true ↔ k = 0)
  source : p.started = true → p.elements ≠ []

theorem lifeCycle_new (statsInterval : Nat) :
    LifeCycle ({ statsInterval := statsInterval } : Pipeline T W) :=
  ⟨by simp, by simp, by simp, by simp, by simp, by simp⟩

theorem LifeCycle.header (h : LifeCycle p) (header : String) :
    LifeCycle { p with statsOutputHeader := header } :=
  ⟨h.compiled, h.started, h.flags, h.next, h.timed, h.source⟩

theorem emplaceBack_elements (work : W) (timed : Option Timed) (p : Pipeline T W) :
    ∃ w : WorkWrapper T W, (p.emplaceBack work timed).elements = p.elements ++ [w] ∧
      w.timed = timed ∧ w.next = none := by
  unfold Pipeline.emplaceBack
  split
  · exact ⟨_, rfl, rfl, rfl⟩
  · exact ⟨_, rfl, rfl, rfl⟩

theorem emplaceBack_flags (work : W) (timed : Option Timed) (p : Pipeline T W) :
    (p.emplaceBack work timed).compiled = p.compiled ∧
      (p.emplaceBack work timed).started = p.started ∧
      (p.emplaceBack work timed).paused = p.paused := by
  unfold Pipeline.emplaceBack
  split
  · exact ⟨rfl, rfl, rfl⟩
  · exact ⟨rfl, rfl, rfl⟩

theorem LifeCycle.not_started (h : LifeCycle p) (hc : p.compiled = false) : p.started = false := by
  apply Bool.eq_false_iff.mpr
  intro hs
  exact absurd (h.compiled hs) (by simp [hc])

theorem LifeCycle.not_paused (h : LifeCycle p) (hns : p.started = false) : p.paused = false := by
  apply Bool.eq_false_iff.mpr
  intro hp
  exact absurd (h.started hp) (by simp [hns])

theorem LifeCycle.emplaceBack (h : LifeCycle p) (hc : p.compiled = false) (work : W)
    {timed : Option Timed} (ht : timed.isSome = p.elements.isEmpty)
    (hp : ∀ t, timed = some t → t.paused = false) : LifeCycle (p.emplaceBack work timed) := by
  obtain ⟨w, hel, hwt, hwn⟩ := emplaceBack_elements work timed p
  obtain ⟨hco, hst, hpa⟩ := emplaceBack_flags work timed p
  have hns : p.started = false := h.not_started hc
  have hnp : p.paused = false := h.not_paused hns
  have hempty : p.elements.isEmpty = true ↔ p.elements.length = 0 := by
    rw [List.isEmpty_iff, List.length_eq_zero_iff]
  refine ⟨?_, ?_, fun v hv => ?_, fun k v hv => ?_, fun k v hv => ?_, ?_⟩
  · rw [hst, hns]
    exact fun hf => absurd hf (by decide)
  · rw [hpa, hnp]
    exact fun hf => absurd hf (by decide)
  · rw [hel] at hv
    rw [hpa]
    rcases getElem?_concat_cases hv with hv | ⟨hk, rfl⟩
    · exact h.flags v hv
    · rw [hnp, WorkWrapper.paused, hwt]
      cases timed with
      | none => rfl
      | some t => exact hp t rfl
  · rw [hel] at hv
    rw [hco, hc, if_neg (by simp)]
    rcases getElem?_concat_cases hv with hv | ⟨_, rfl⟩
    · have hn := h.next k v hv
      rwa [hc, if_neg (by simp)] at hn
    · exact hwn
  · rw [hel] at hv
    rcases getElem?_concat_cases hv with hv | ⟨hk, rfl⟩
    · exact h.timed k v hv
    · rw [hwt, ht, hempty]
      omega
  · rw [hst, hns]
    exact fun hf => absurd hf (by decide)

theorem LifeCycle.compile (h : LifeCycle p) : LifeCycle p.compile := by
  have hel : ∀ k v, p.compile.elements[k]? = some v → ∃ w, p.elements[k]? = some w ∧
      v.timed = w.timed ∧ v.next = if k + 1 < p.elements.length then some (k + 1) else none := by
    intro k v hv
    rw [Pipeline.compile, getElem?_link] at hv
    obtain ⟨w, hw, rfl⟩ := Option.map_eq_some_iff.mp hv
    refine ⟨w, hw, ?_⟩
    by_cases hk : k + 1 < p.elements.length
    · rw [if_pos hk, if_pos hk]
      exact ⟨rfl, congrArg some (by omega)⟩
    · rw [if_neg hk, if_neg hk, h.next k w hw, if_neg (by simp [hk])]
      exact ⟨rfl, rfl⟩
  refine ⟨fun _ => rfl, h.started, fun v hv => ?_, fun k v hv => ?_, fun k v hv => ?_, fun hs => ?_⟩
  · obtain ⟨w, hw, ht, _⟩ := hel 0 v hv
    have hpaused : v.paused = w.paused := by rw [WorkWrapper.paused, ht, WorkWrapper.paused]
    exact hpaused.trans (h.flags w hw)
  · obtain ⟨w, _, _, hn⟩ := hel k v hv
    rw [hn, Pipeline.compile, length_link]
    simp
  · obtain ⟨w, hw, ht, _⟩ := hel k v hv
    rw [ht]
    exact h.timed k w hw
  · have hlen : p.compile.elements.length = p.elements.length := length_link 0 p.elements
    intro hnil
    rw [hnil] at hlen
    exact h.source hs (List.length_eq_zero_iff.mp hlen.symm)

/-- A call on the source alone, after which the flag of the pipeline is
`paused`. -/
theorem LifeCycle.modify (h : LifeCycle p) {f : WorkWrapper T W → WorkWrapper T W} {paused : Bool}
    (hf : ∀ w, p.elements[0]? = some w → TimerOp w (f w) ∧ (f w).paused = paused)
    (hs : paused = true → p.started = true) :
    LifeCycle { p.modify 0 f with paused := paused } := by
  have hel : ∀ k v, (p.elements.modify 0 f)[k]? = some v → ∃ w, p.elements[k]? = some w ∧
      v.next = w.next ∧ v.timed.isSome = w.timed.isSome ∧ (k = 0 → v.paused = paused) := by
    intro k v hv
    rw [List.getElem?_modify] at hv
    obtain ⟨w, hw, rfl⟩ := Option.map_eq_some_iff.mp hv
    refine ⟨w, hw, ?_⟩
    by_cases hk : 0 = k
    · subst hk
      rw [if_pos rfl]
      obtain ⟨hop, hpa⟩ := hf w hw
      exact ⟨hop.next, hop.timed, fun _ => hpa⟩
    · rw [if_neg hk]
      exact ⟨rfl, rfl, fun hk' => absurd hk'.symm hk⟩
  have hlen : (p.elements.modify 0 f).length = p.elements.length := List.length_modify ..
  refine ⟨h.compiled, hs, fun v hv => ?_, fun k v hv => ?_, fun k v hv => ?_, fun hst hnil => ?_⟩
  · obtain ⟨_, _, _, _, hpa⟩ := hel 0 v hv
    exact hpa rfl
  · obtain ⟨w, hw, hn, _⟩ := hel k v hv
    show v.next = if p.compiled = true ∧ k + 1 < (p.elements.modify 0 f).length then _ else _
    rw [hn, hlen]
    exact h.next k w hw
  · obtain ⟨w, hw, _, ht, _⟩ := hel k v hv
    rw [ht]
    exact h.timed k w hw
  · rw [show p.elements.modify 0 f = [] from hnil] at hlen
    exact h.source hst (List.length_eq_zero_iff.mp hlen.symm)

theorem startTimer_paused (now : Nat) (w : WorkWrapper T W) :
    (w.startTimer now).paused = w.paused := by
  rw [WorkWrapper.startTimer, WorkWrapper.paused_asyncWait, WorkWrapper.paused_expiresAt]

/-- `TimedWorkWrapper::pause` switches the flag and otherwise only the timer. -/
theorem timerOp_pause (now : Nat) {w : WorkWrapper T W} (ht : w.timed.isSome = true) :
    TimerOp w (w.pause now) ∧ (w.pause now).paused = !w.paused := by
  unfold WorkWrapper.pause
  cases hp : w.paused with
  | true =>
    refine ⟨(TimerOp.startTimer now w).trans (TimerOp.setPaused false _), ?_⟩
    exact WorkWrapper.paused_setPaused ((TimerOp.startTimer now w).timed.trans ht) false
  | false =>
    refine ⟨(TimerOp.cancel w).trans (TimerOp.setPaused true _), ?_⟩
    exact WorkWrapper.paused_setPaused ((TimerOp.cancel w).timed.trans ht) true

theorem LifeCycle.start (h : LifeCycle p) (hc : p.compiled = true) (hne : p.elements ≠ [])
    (hns : p.started = false) (now : Nat) (t : TimePoint) :
    LifeCycle { (p.modify 0 (·.scheduleWork now dummyData)).startStatsTimer now t with
      started := true } := by
  have hnp : p.paused = false := h.not_paused hns
  have hmod : LifeCycle { p.modify 0 (·.scheduleWork now dummyData) with paused := p.paused } := by
    refine h.modify (fun w hw => ?_) h.started
    have ht : w.timed.isSome = true := (h.timed 0 w hw).mpr rfl
    rw [WorkWrapper.scheduleWork, if_pos ht, startTimer_paused]
    exact ⟨TimerOp.startTimer now w, h.flags w hw⟩
  refine ⟨fun _ => hc, fun _ => rfl, hmod.flags, hmod.next, hmod.timed, fun _ hnil => ?_⟩
  have hlen : (p.elements.modify 0 (·.scheduleWork now dummyData)).length = p.elements.length :=
    List.length_modify ..
  rw [show p.elements.modify 0 (·.scheduleWork now dummyData) = [] from hnil] at hlen
  exact hne (List.length_eq_zero_iff.mp hlen.symm)

theorem bind_ok {α β : Type} {x : Except Fault α} {f : α → Except Fault β} {b : β}
    (h : x >>= f = .ok b) : ∃ a, x = .ok a ∧ f a = .ok b := by
  cases x with
  | error e => simp [bind, Except.bind] at h
  | ok a => exact ⟨a, rfl, h⟩

theorem checkAddTimed_ok (h : p.checkAddTimed = .ok ()) :
    p.compiled = false ∧ p.elements.isEmpty = true := by
  unfold checkAddTimed at h
  split at h
  · simp at h
  · split at h
    · simp_all
    · simp at h

theorem checkAdd_ok (h : p.checkAdd = .ok ()) :
    p.compiled = false ∧ p.elements.isEmpty = false := by
  unfold checkAdd at h
  split at h
  · simp at h
  · split at h
    · simp at h
    · simp_all

theorem LifeCycle.addTimedElement {p' : Pipeline T W} (h : LifeCycle p) {interval : Int} {work : W}
    (hc : p.addTimedElement interval work = .ok p') : LifeCycle p' := by
  obtain ⟨_, hcheck, hc⟩ := bind_ok hc
  obtain ⟨hco, he⟩ := checkAddTimed_ok hcheck
  rw [← Except.ok.inj hc]
  apply h.emplaceBack hco work (by rw [he]; rfl)
  intro t ht
  rw [← Option.some.inj ht]

theorem LifeCycle.addElement {p' : Pipeline T W} (h : LifeCycle p) {work : W}
    (hc : p.addElement work = .ok p') : LifeCycle p' := by
  obtain ⟨_, hcheck, hc⟩ := bind_ok hc
  obtain ⟨hco, he⟩ := checkAdd_ok hcheck
  rw [← Except.ok.inj hc]
  exact h.emplaceBack hco work (by rw [he]; rfl) (by simp)

theorem start_ok {p' : Pipeline T W} {now : Nat} {t : TimePoint} (h : p.start now t = .ok p') :
    p.compiled = true ∧ p.started = false ∧ p.elements ≠ [] ∧
      p' = { (p.modify 0 (·.scheduleWork now dummyData)).startStatsTimer now t with
        started := true } := by
  unfold Pipeline.start at h
  cases hc : p.compiled with
  | false => simp [hc] at h
  | true =>
    cases hs : p.started with
    | true => simp [hc, hs] at h
    | false =>
      cases he : p.elements with
      | nil => simp [hc, hs, he] at h
      | cons e es =>
        simp only [hc, hs, he] at h
        exact ⟨rfl, rfl, List.cons_ne_nil e es, (Except.ok.inj h).symm⟩

theorem pause_ok {p' : Pipeline T W} {now : Nat} (h : p.pause now = .ok p') :
    p.compiled = true ∧ p.started = true ∧
      p' = { p.modify 0 (·.pause now) with paused := !p.paused } := by
  unfold Pipeline.pause checkPause at h
  cases hc : p.compiled with
  | false => simp [hc, bind, Except.bind] at h
  | true =>
    cases hs : p.started with
    | false => simp [hc, hs, bind, Except.bind] at h
    | true =>
      cases ht : (p.elements.head?.bind WorkWrapper.timed).isNone with
      | true => simp [hc, hs, ht, bind, Except.bind] at h
      | false =>
        simp only [hc, hs, ht, bind, Except.bind, pure, Except.pure] at h
        exact ⟨rfl, rfl, (Except.ok.inj h).symm⟩

/-- **Every call that succeeds keeps the life cycle.** -/
theorem LifeCycle.perform {p' : Pipeline T W} (h : LifeCycle p) {c : Call W}
    (hc : c.perform p = .ok p') : LifeCycle p' := by
  cases c with
  | addTimedElement interval work => exact h.addTimedElement hc
  | addTimedElementHeader interval work header =>
    obtain ⟨_, _, hc⟩ := bind_ok hc
    exact (h.header _).addTimedElement hc
  | addElement work => exact h.addElement hc
  | addElementHeader work header =>
    obtain ⟨_, _, hc⟩ := bind_ok hc
    exact (h.header _).addElement hc
  | compile =>
    obtain rfl := Except.ok.inj hc
    exact h.compile
  | start now t =>
    obtain ⟨hco, hns, hne, rfl⟩ := start_ok hc
    exact h.start hco hne hns now t
  | pause now =>
    obtain ⟨_, hs, rfl⟩ := pause_ok hc
    refine h.modify (fun w hw => ?_) fun _ => hs
    obtain ⟨hop, hp⟩ := timerOp_pause now ((h.timed 0 w hw).mpr rfl)
    exact ⟨hop, by rw [hp, h.flags w hw]⟩
  | changeTimer milliseconds =>
    have hmod : LifeCycle { p.modify 0 (·.setInterval milliseconds) with paused := p.paused } := by
      refine h.modify (fun w hw => ?_) h.started
      exact ⟨TimerOp.setInterval milliseconds w,
        (WorkWrapper.paused_setInterval milliseconds).trans (h.flags w hw)⟩
    rw [changeTimer_ok hc]
    exact hmod

/-! ### Any calls in any order -/

/-- The object after a call, whether it returned or not. -/
def Call.after (p : Pipeline T W) (c : Call W) : Pipeline T W :=
  match c.method.run p with
  | .ok _ p' => p'
  | .error _ p' => p'

def callStep (p : Pipeline T W) (c : Call W) : Option (Pipeline T W) := some (c.after p)

/-- Whether a call comes to `elements_.front()`. -/
def Call.EvaluatesFront (p : Pipeline T W) : Call W → Prop
  | .start .. => p.compiled = true ∧ p.started = false
  | .pause _ => p.compiled = true ∧ p.started = true
  | .changeTimer _ => p.compiled = true
  | _ => False

/-- What a call owes. -/
structure Call.Keeps (p : Pipeline T W) (c : Call W) : Prop where
  /-- if it throws, everything is as it was -/
  unchanged : ∀ message p', c.method.run p = .error (.thrown message) p' → p' = p
  /-- `front()` finds an element, the only timed one -/
  front : c.EvaluatesFront p → p.elements ≠ [] ∧
    ∀ k w, p.elements[k]? = some w → (w.timed.isSome = true ↔ k = 0)
  /-- nothing undefined happens -/
  defined : ∀ p', c.method.run p ≠ .error .undefined p'

/-- The condition that `start` and `change_timer` are not called on a pipeline
that was compiled without an element. -/
def Call.OnElements (p : Pipeline T W) : Call W → Prop
  | .start .. | .changeTimer _ => ¬ (p.compiled = true ∧ p.elements = [])
  | _ => True

theorem settle_error {r : Except Fault (Pipeline T W)} {e : Fault} {p' : Pipeline T W}
    (h : settle p r = .error e p') : r = .error e ∧ p' = p := by
  cases r with
  | ok _ => simp [settle] at h
  | error _ =>
    simp only [settle, EStateM.Result.error.injEq] at h
    exact ⟨by rw [h.1], h.2.symm⟩

theorem LifeCycle.after (h : LifeCycle p) (c : Call W) : LifeCycle (c.after p) := by
  unfold Call.after
  rw [run_method]
  cases hc : c.perform p with
  | ok p' => exact h.perform hc
  | error e => exact h

theorem LifeCycle.head_timed (h : LifeCycle p) (hne : p.elements ≠ []) :
    (p.elements.head?.bind WorkWrapper.timed).isNone = false := by
  obtain ⟨w, ws, hw⟩ := List.exists_cons_of_ne_nil hne
  have ht : w.timed.isSome = true := (h.timed 0 w (by rw [hw]; rfl)).mpr rfl
  rw [hw]
  simpa using ht

theorem bind_error {α β : Type} {x : Except Fault α} {f : α → Except Fault β} {e : Fault}
    (h : x >>= f = .error e) : x = .error e ∨ ∃ a, x = .ok a ∧ f a = .error e := by
  cases x with
  | error e' => exact .inl (congrArg Except.error (Except.error.inj h))
  | ok a => exact .inr ⟨a, rfl, h⟩

theorem checkAddTimed_defined : p.checkAddTimed ≠ .error .undefined := by
  unfold checkAddTimed
  split
  · simp
  · split <;> simp

theorem checkAdd_defined : p.checkAdd ≠ .error .undefined := by
  unfold checkAdd
  split
  · simp
  · split <;> simp

theorem addTimedElement_defined (interval : Int) (work : W) :
    p.addTimedElement interval work ≠ .error .undefined := by
  intro h
  rcases bind_error h with h | ⟨_, _, h⟩
  · exact checkAddTimed_defined h
  · simp [pure, Except.pure] at h

theorem addElement_defined (work : W) : p.addElement work ≠ .error .undefined := by
  intro h
  rcases bind_error h with h | ⟨_, _, h⟩
  · exact checkAdd_defined h
  · simp [pure, Except.pure] at h

theorem LifeCycle.undefined (h : LifeCycle p) {c : Call W}
    (hc : c.perform p = .error .undefined) : c.EvaluatesFront p ∧ p.elements = [] := by
  have hcast : (p.elements.head?.bind WorkWrapper.timed).isNone = true → p.elements = [] := by
    intro ht
    by_contra hne
    rw [h.head_timed hne] at ht
    exact absurd ht (by decide)
  cases c with
  | addTimedElement interval work => exact absurd hc (addTimedElement_defined interval work)
  | addTimedElementHeader interval work header =>
    rcases bind_error hc with hc | ⟨_, _, hc⟩
    · exact absurd hc checkAddTimed_defined
    · exact absurd hc (addTimedElement_defined interval work)
  | addElement work => exact absurd hc (addElement_defined work)
  | addElementHeader work header =>
    rcases bind_error hc with hc | ⟨_, _, hc⟩
    · exact absurd hc checkAdd_defined
    · exact absurd hc (addElement_defined work)
  | compile => simp [Call.perform] at hc
  | start now t =>
    simp only [Call.perform, Pipeline.start] at hc
    cases hco : p.compiled with
    | false => simp [hco] at hc
    | true =>
      cases hs : p.started with
      | true => simp [hco, hs] at hc
      | false =>
        cases he : p.elements with
        | nil => exact ⟨⟨hco, hs⟩, rfl⟩
        | cons e es => simp [hco, hs, he] at hc
  | pause now =>
    simp only [Call.perform, Pipeline.pause, checkPause] at hc
    cases hco : p.compiled with
    | false => simp [hco, bind, Except.bind] at hc
    | true =>
      cases hs : p.started with
      | false => simp [hco, hs, bind, Except.bind] at hc
      | true =>
        cases ht : (p.elements.head?.bind WorkWrapper.timed).isNone with
        | true => exact ⟨⟨hco, hs⟩, hcast ht⟩
        | false => simp [hco, hs, ht, bind, Except.bind, pure, Except.pure] at hc
  | changeTimer milliseconds =>
    simp only [Call.perform, Pipeline.changeTimer] at hc
    cases hco : p.compiled with
    | false => simp [hco] at hc
    | true =>
      cases ht : (p.elements.head?.bind WorkWrapper.timed).isNone with
      | true => exact ⟨hco, hcast ht⟩
      | false => simp [hco, ht] at hc

theorem LifeCycle.ne_nil_of_onElements (h : LifeCycle p) {c : Call W} (hc : c.OnElements p)
    (hf : c.EvaluatesFront p) : p.elements ≠ [] := by
  cases c with
  | start now t => exact fun hnil => hc ⟨hf.1, hnil⟩
  | changeTimer milliseconds => exact fun hnil => hc ⟨hf, hnil⟩
  | pause now => exact h.source hf.2
  | addTimedElement | addTimedElementHeader | addElement | addElementHeader | compile =>
    exact absurd hf id

theorem LifeCycle.keeps_iff (h : LifeCycle p) (c : Call W) : c.Keeps p ↔ c.OnElements p := by
  constructor
  · intro hk
    cases c with
    | start now t =>
      intro ⟨hco, hnil⟩
      have hs : p.started = false := by
        apply Bool.eq_false_iff.mpr
        exact fun hs => h.source hs hnil
      exact (hk.front ⟨hco, hs⟩).1 hnil
    | changeTimer milliseconds => exact fun ⟨hco, hnil⟩ => (hk.front hco).1 hnil
    | pause | addTimedElement | addTimedElementHeader | addElement | addElementHeader | compile =>
      exact trivial
  · intro hc
    refine ⟨fun message p' hr => ?_, fun hf => ⟨h.ne_nil_of_onElements hc hf, h.timed⟩,
      fun p' hr => ?_⟩
    · rw [run_method] at hr
      exact (settle_error hr).2
    · rw [run_method] at hr
      obtain ⟨hf, hnil⟩ := h.undefined (settle_error hr).1
      exact h.ne_nil_of_onElements hc hf hnil

/-- The claims of the life cycle, for a sequence of calls. -/
def Upholds (p : Pipeline T W) (calls : List (Call W)) : Prop :=
  Throughout callStep LifeCycle p calls ∧ ∃ q, Steps callStep Call.Keeps p calls q

/-- **The life cycle of a pipeline.**  In a sequence of calls on a new object
every call that throws changes nothing, `LifeCycle` holds between the calls and
every `front()` finds the source, the only timed element, exactly if neither
`start` nor `change_timer` is called on a pipeline that was compiled without an
element. -/
theorem upholds_iff (statsInterval : Nat) (calls : List (Call W)) :
    Upholds ({ statsInterval := statsInterval } : Pipeline T W) calls ↔
      ∃ q, Steps callStep Call.OnElements ({ statsInterval := statsInterval } : Pipeline T W)
        calls q := by
  have hkeep : ∀ (p : Pipeline T W) (c : Call W) p', LifeCycle p → callStep p c = some p' →
      LifeCycle p' := by
    intro p c p' hp hs
    rw [← Option.some.inj hs]
    exact hp.after c
  have hiff : ∀ q, Steps callStep Call.Keeps { statsInterval := statsInterval } calls q ↔
      Steps callStep Call.OnElements { statsInterval := statsInterval } calls q :=
    fun q => Steps.congr hkeep (fun p c hp => LifeCycle.keeps_iff hp c) (lifeCycle_new statsInterval)
  constructor
  · intro ⟨_, q, hq⟩
    exact ⟨q, (hiff q).mp hq⟩
  · intro ⟨q, hq⟩
    exact ⟨Throughout.of_invariant hkeep (fun _ hp => hp) (lifeCycle_new _) calls, q,
      (hiff q).mpr hq⟩

/-- `compile` accepts an empty pipeline, and then `start` and `change_timer`
evaluate `front()` of an empty vector. -/
theorem not_upholds :
    ¬ Upholds ({ statsInterval := 0 } : Pipeline Nat String) [.compile, .start 0 0] ∧
      ¬ Upholds ({ statsInterval := 0 } : Pipeline Nat String) [.compile, .changeTimer 40] := by
  have second : ∀ c : Call String,
      Upholds ({ statsInterval := 0 } : Pipeline Nat String) [.compile, c] →
      c.Keeps (compile ({ statsInterval := 0 } : Pipeline Nat String)) := by
    intro c ⟨_, q, hq⟩
    obtain _ | ⟨_, hstep, rest⟩ := hq
    obtain rfl := Option.some.inj hstep
    obtain _ | ⟨hkeeps, _, _⟩ := rest
    exact hkeeps
  exact ⟨fun h => (second _ h).defined _ rfl, fun h => (second _ h).defined _ rfl⟩

end Pipeline

end SecMon
