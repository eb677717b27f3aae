import SecMon.Core.Progress
import SecMon.Pipeline.TickChain

/-!
# Nothing gets stuck

"Data continues to flow once it has been placed in the queue to the next step",
says `Pipeline.h`.  Here that is the work of the strands alone: no timer goes
off, nobody calls `pause`, and each strand takes its handlers as it likes.

* `Busy.acts`: an element that has a handler waiting or in work is never stuck.
* `WorkWrapper.load` counts the pieces of work that an element's handlers will
  still cause, down to the end of the pipeline.  `load_stage`: every piece of
  work takes one off, wherever it is done.
* `drains`: so all the strands come to rest, after at most `load` pieces in
  any order, and then every item has been through every element.
-/

namespace SecMon

namespace Pipeline

open Machine

variable {T W : Type} {ws : List W} {stats : Bool} {s s' : State T W} {k j : Nat}

/-- The element whose strand does the piece of work `a`. -/
def Action.stage? : Action T → Option Nat
  | .run k _ | .finish k _ _ | .next k | .restart k | .rewait k => some k
  | _ => none

/-- A piece of work of some strand. -/
def StageAction (_ : State T W) (a : Action T) : Prop := a.stage?.isSome = true

instance : ∀ (s : State T W) (a : Action T), Decidable (StageAction s a) :=
  fun _ a => inferInstanceAs (Decidable (a.stage?.isSome = true))

/-- Element `k` has a handler waiting or in work. -/
def State.Busy (s : State T W) (k : Nat) : Prop :=
  ∃ w, s.element k = some w ∧ (w.strand ≠ [] ∨ w.activity ≠ none)

/-- No handler is waiting or in work. -/
def State.Still (s : State T W) : Prop := ∀ k, ¬s.Busy k

theorem State.still_iff :
    s.Still ↔ ∀ w ∈ s.pipeline.elements, w.strand = [] ∧ w.activity = none := by
  constructor
  · intro h w hw
    obtain ⟨k, hk⟩ := List.getElem?_of_mem hw
    have hidle : ¬(w.strand ≠ [] ∨ w.activity ≠ none) := fun hbusy => h k ⟨w, hk, hbusy⟩
    rwa [not_or, not_not, not_not] at hidle
  · intro h k hk
    obtain ⟨w, hel, hbusy⟩ := hk
    obtain ⟨hstrand, hact⟩ := h w (List.mem_of_getElem? hel)
    exact hbusy.elim (· hstrand) (· hact)

instance : Decidable s.Still := decidable_of_iff _ State.still_iff.symm

/-- **A busy element is never stuck.** -/
theorem State.Busy.acts (h : s.Busy k) :
    ∃ a s', a.stage? = some k ∧ step s a = some s' := by
  obtain ⟨w, hel, hbusy⟩ := h
  cases hact : w.activity with
  | none =>
    obtain ⟨x, rest, hstrand⟩ := List.exists_cons_of_ne_nil (hbusy.resolve_right (· hact))
    exact ⟨.run k 0, _, rfl, step_run.mpr ⟨w, x, rest, hel, hact, hstrand, rfl⟩⟩
  | some activity =>
    cases activity with
    | working it t₀ =>
      exact ⟨.finish k none 0, _, rfl, step_finish.mpr ⟨w, it, t₀, hel, hact, rfl⟩⟩
    | worked it => exact ⟨.next k, _, rfl, step_next.mpr ⟨w, it, hel, hact, rfl⟩⟩
    | restarting => exact ⟨.restart k, _, rfl, step_restart.mpr ⟨w, hel, hact, rfl⟩⟩
    | rewaiting => exact ⟨.rewait k, _, rfl, step_rewait.mpr ⟨w, hel, hact, rfl⟩⟩

end Pipeline

/-! ### What is left to do -/

variable {T W : Type}

/-- The pieces of work a handler will cause in an element with `r` elements
behind it: three in each element that its item passes, three more for the
timer. -/
def Handler.load (r : Nat) : Handler T W → Nat
  | .tick .success => 3 * r + 6
  | .tick .operationAborted => 1
  | .work _ => 3 * r + 3

/-- The same of the handlers in a strand. -/
def Handler.loads (r : Nat) : List (Handler T W) → Nat
  | [] => 0
  | h :: hs => h.load r + loads r hs

def Activity.load (timed : Bool) (r : Nat) : Activity T W → Nat
  | .working _ _ => 3 * r + 2 + if timed then 3 else 0
  | .worked _ => 3 * r + 1 + if timed then 3 else 0
  | .restarting => 3
  | .rewaiting => 2

namespace WorkWrapper

/-- A pending wait counts, since it may come to be aborted. -/
def load (r : Nat) (w : WorkWrapper T W) : Nat :=
  w.pending + Handler.loads r w.strand +
    (w.activity.map (Activity.load w.timed.isSome r)).getD 0

/-- The same of all elements. -/
def loads : List (WorkWrapper T W) → Nat
  | [] => 0
  | w :: l => w.load l.length + loads l

theorem loads_modify (f : WorkWrapper T W → WorkWrapper T W) :
    ∀ {l : List (WorkWrapper T W)} {k : Nat} {w : WorkWrapper T W}, l[k]? = some w →
      loads (l.modify k f) + w.load (l.length - (k + 1)) =
        loads l + (f w).load (l.length - (k + 1)) := by
  intro l
  induction l with
  | nil => intro k w h; simp at h
  | cons v l ih =>
    intro k w h
    cases k with
    | zero =>
      rw [List.getElem?_cons_zero, Option.some.injEq] at h
      subst h
      rw [List.modify_zero_cons, loads, loads, List.length_cons, Nat.zero_add,
        Nat.add_sub_cancel]
      omega
    | succ k =>
      rw [List.getElem?_cons_succ] at h
      have hk := ih h
      rw [List.modify_succ_cons, loads, loads, List.length_modify, List.length_cons,
        Nat.add_sub_add_right]
      omega

variable {w : WorkWrapper T W} {r : Nat}

theorem loads_append (l l' : List (Handler T W)) :
    Handler.loads r (l ++ l') = Handler.loads r l + Handler.loads r l' := by
  induction l with
  | nil => exact (Nat.zero_add _).symm
  | cons x l ih => rw [List.cons_append, Handler.loads, Handler.loads, ih, Nat.add_assoc]

theorem loads_aborted (n : Nat) :
    Handler.loads r (List.replicate n (.tick .operationAborted : Handler T W)) = n := by
  induction n with
  | zero => rfl
  | succ n ih =>
    rw [List.replicate_succ, Handler.loads, ih]
    exact Nat.add_comm 1 n

theorem load_post (it : Item T W) : (w.post (.work it)).load r = w.load r + (3 * r + 3) := by
  unfold load post
  rw [loads_append]
  simp only [pending, Handler.loads, Handler.load]
  omega

theorem load_expiresAt (e : Nat) : (w.expiresAt e).load r = w.load r := by
  have hsum : Handler.loads r (w.expiresAt e).strand = Handler.loads r w.strand + w.pending := by
    show Handler.loads r (w.strand ++ List.replicate w.pending _) = _
    rw [loads_append, loads_aborted]
  have htimed : (w.expiresAt e).timed.isSome = w.timed.isSome := (TimerOp.expiresAt e w).timed
  have hact : (w.expiresAt e).activity = w.activity := rfl
  unfold load
  rw [hsum, pending_expiresAt, htimed, hact]
  omega

theorem load_restart (h : w.activity = some .restarting) : w.restart.load r + 1 = w.load r := by
  have hload := load_expiresAt (w := w) (r := r) (w.expiry + w.milliseconds)
  have hact : (w.expiresAt (w.expiry + w.milliseconds)).activity = some .restarting := h
  have hrest : w.restart.pending = (w.expiresAt (w.expiry + w.milliseconds)).pending := rfl
  rw [← hload]
  unfold load
  rw [hact, hrest]
  rfl

theorem load_rewait (ht : w.timed.isSome = true) (h : w.activity = some .rewaiting) :
    w.rewait.load r + 1 = w.load r := by
  have hpend : w.rewait.pending = w.pending + 1 := pending_asyncWait ht
  unfold load
  rw [hpend, h]
  show w.pending + 1 + Handler.loads r w.strand + 0 + 1 =
    w.pending + Handler.loads r w.strand + 2
  omega

theorem load_strand {x : Handler T W} {rest : List (Handler T W)} (h : w.strand = x :: rest) :
    ({ w with strand := rest } : WorkWrapper T W).load r + x.load r = w.load r := by
  unfold load
  rw [h, Handler.loads]
  simp only [pending]
  omega

theorem load_activity (a : Option (Activity T W)) :
    ({ w with activity := a } : WorkWrapper T W).load r +
        (w.activity.map (Activity.load w.timed.isSome r)).getD 0 =
      w.load r + (a.map (Activity.load w.timed.isSome r)).getD 0 := by
  unfold load
  simp only [pending]
  omega

end WorkWrapper

namespace Pipeline

open Machine

variable {ws : List W} {stats : Bool} {s s' : State T W} {k j : Nat}

/-- The pieces of work left to do in a state. -/
def State.load (s : State T W) : Nat := WorkWrapper.loads s.pipeline.elements

theorem load_modify {w : WorkWrapper T W} (hw : Wired ws stats s) (hel : s.element k = some w)
    (f : WorkWrapper T W → WorkWrapper T W) :
    (s.modify k f).load + w.load (ws.length - (k + 1)) =
      s.load + (f w).load (ws.length - (k + 1)) := by
  have h := WorkWrapper.loads_modify f hel
  rw [hw.length] at h
  exact h

theorem load_modify_one {w : WorkWrapper T W} (hw : Wired ws stats s)
    (hel : s.element k = some w) {f : WorkWrapper T W → WorkWrapper T W}
    (hf : (f w).load (ws.length - (k + 1)) + 1 = w.load (ws.length - (k + 1))) :
    (s.modify k f).load + 1 = s.load := by
  have h := load_modify hw hel f
  omega

theorem load_run (hw : Wired ws stats s) {t : TimePoint} (hs : step s (.run k t) = some s') :
    s'.load + 1 = s.load := by
  obtain ⟨w, x, rest, hel, hact, hstrand, ⟨hx, rfl⟩ | ⟨data, hx, rfl⟩⟩ := run_cases hs
  · -- an aborted tick counts as one
    refine load_modify_one hw hel ?_
    have hload := WorkWrapper.load_strand (r := ws.length - (k + 1)) hstrand
    have hx1 : x.load (ws.length - (k + 1)) = 1 := by
      cases x with
      | tick ec =>
        cases ec with
        | success => simp [State.dataOf] at hx
        | operationAborted => rfl
      | work it => simp [State.dataOf] at hx
    rw [hx1] at hload
    exact hload
  · refine load_modify_one hw hel ?_
    have hload := WorkWrapper.load_strand (r := ws.length - (k + 1)) hstrand
    have hwork : ({ w with strand := rest, activity := some (.working data t) } :
          WorkWrapper T W).load (ws.length - (k + 1)) =
        ({ w with strand := rest } : WorkWrapper T W).load (ws.length - (k + 1)) +
          ((some (Activity.working data t)).map
            (Activity.load w.timed.isSome (ws.length - (k + 1)))).getD 0 := by
      have h := WorkWrapper.load_activity (r := ws.length - (k + 1))
        (w := { w with strand := rest }) (some (.working data t))
      rw [hact] at h ⊢
      exact h
    have hx1 : x.load (ws.length - (k + 1)) =
        ((some (Activity.working data t)).map
          (Activity.load w.timed.isSome (ws.length - (k + 1)))).getD 0 + 1 := by
      have htimed := (hw.placed k w hel).timed
      rcases (hw.placed k w hel).dataOf hstrand hx with ⟨hk, rfl, _⟩ | ⟨hk, rfl⟩
      · rw [htimed, hk]
        rfl
      · rw [htimed, decide_eq_false hk]
        rfl
    show ({ w with strand := rest, activity := some (.working data t) } :
      WorkWrapper T W).load (ws.length - (k + 1)) + 1 = w.load (ws.length - (k + 1))
    omega

theorem load_finish (hw : Wired ws stats s) {data : Option T} {t : TimePoint}
    (hs : step s (.finish k data t) = some s') : s'.load + 1 = s.load := by
  obtain ⟨w, it, t₀, hel, hact, rfl⟩ := step_finish.mp hs
  have hw' : Wired ws stats { s with pipeline := emplaceTimes w.timeStatsQueue (t₀, t) s.pipeline } :=
    hw.congr (emplaceTimes_elements _ _ _)
  have hel' : State.element
      { s with pipeline := emplaceTimes w.timeStatsQueue (t₀, t) s.pipeline } k = some w := by
    rw [State.element, emplaceTimes_elements]
    exact hel
  have hsame : State.load { s with pipeline := emplaceTimes w.timeStatsQueue (t₀, t) s.pipeline } =
      s.load := by
    rw [State.load, emplaceTimes_elements, State.load]
  rw [← hsame]
  refine load_modify_one hw' hel' ?_
  have hload := WorkWrapper.load_activity (r := ws.length - (k + 1)) (w := w)
    (some (.worked (it.worked w.work data)))
  rw [hact] at hload
  simp only [Option.map_some, Option.getD_some, Activity.load] at hload
  omega

theorem load_next (hw : Wired ws stats s) (hs : step s (.next k) = some s') :
    s'.load + 1 = s.load := by
  obtain ⟨w, it, hel, hact, rfl⟩ := step_next.mp hs
  have hpl := hw.placed k w hel
  have hk : k < ws.length := (List.getElem?_eq_some_iff.mp hpl.work).1
  have hafter := load_modify hw hel WorkWrapper.afterNext
  have hload := WorkWrapper.load_activity (r := ws.length - (k + 1)) (w := w)
    (if w.timed.isSome then some .restarting else none)
  rw [hact] at hload
  have hrest : ((if w.timed.isSome then some (Activity.restarting (T := T) (W := W)) else none).map
      (Activity.load w.timed.isSome (ws.length - (k + 1)))).getD 0 =
        if w.timed.isSome then 3 else 0 := by
    cases w.timed.isSome <;> rfl
  rw [hrest] at hload
  simp only [Option.map_some, Option.getD_some, Activity.load] at hload
  have hdone : w.afterNext.load (ws.length - (k + 1)) + (3 * (ws.length - (k + 1)) + 1) =
      w.load (ws.length - (k + 1)) := by
    unfold WorkWrapper.afterNext
    omega
  by_cases hk1 : k + 1 < ws.length
  · -- the item is now queued one element further on
    have hnext : w.next = some (k + 1) := by rw [hpl.next, if_pos hk1]
    have hel1 : k + 1 < s.pipeline.elements.length := hw.length ▸ hk1
    have hv : (s.modify k WorkWrapper.afterNext).element (k + 1) =
        some s.pipeline.elements[k + 1] := by
      rw [State.element_modify_ne (by omega)]
      exact List.getElem?_eq_getElem hel1
    have hw1 : Wired ws stats (s.modify k WorkWrapper.afterNext) := by
      refine hw.modify _ fun v hv' => ?_
      obtain rfl := Option.some.inj (hel.symm.trans hv')
      refine hpl.activity _ fun hr => ?_
      rw [hpl.timed] at hr
      by_contra hk0
      simp [hk0, WorkWrapper.inRestart] at hr
    rw [hnext, State.pass]
    have hpass := load_modify hw1 hv (·.scheduleWork (s.modify k WorkWrapper.afterNext).now it)
    rw [(hw1.placed _ _ hv).scheduleWork (by omega), WorkWrapper.load_post] at hpass
    have hr : ws.length - (k + 1) = ws.length - (k + 1 + 1) + 1 := by omega
    omega
  · have hnext : w.next = none := by rw [hpl.next, if_neg hk1]
    rw [hnext, State.pass]
    omega

/-- **Every piece of work takes one off the load**, whichever strand does it. -/
theorem load_stage (hw : Wired ws stats s) {a : Action T} (ha : StageAction s a)
    (hs : step s a = some s') : s'.load + 1 = s.load := by
  cases a with
  | run k t => exact load_run hw hs
  | finish k data t => exact load_finish hw hs
  | next k => exact load_next hw hs
  | restart k =>
    obtain ⟨w, hel, hact, rfl⟩ := step_restart.mp hs
    exact load_modify_one hw hel (WorkWrapper.load_restart hact)
  | rewait k =>
    obtain ⟨w, hel, hact, rfl⟩ := step_rewait.mp hs
    have hk : k = 0 := (hw.placed k w hel).restart (by rw [WorkWrapper.inRestart, hact])
    have htimed : w.timed.isSome = true := by
      rw [(hw.placed k w hel).timed, hk]
      rfl
    exact load_modify_one hw hel (WorkWrapper.load_rewait htimed hact)
  | elapse _ | expire _ | pauseCall | pauseWait | pauseReturn | changeTimer _ | collect _ _ =>
    exact absurd ha (by simp [StageAction, Action.stage?])

/-- **The strands drain**: the load is a variant for every order of their work. -/
theorem drains : Drain step (StageAction (T := T) (W := W))
    (fun s => Wired ws stats s ∧ Flow s) State.Still State.load where
  keep s a s' hI _ hs := ⟨hI.1.step a hs, hI.2.step hI.1 a hs⟩
  lower s a s' hI ha hs := by
    have h := load_stage hI.1 ha hs
    omega
  next s _ hrest := by
    obtain ⟨k, hk⟩ := not_forall.mp hrest
    obtain ⟨a, s', ha, hs⟩ := (not_not.mp hk).acts
    exact ⟨a, s', by rw [StageAction, ha]; rfl, hs⟩

/-! ### What they leave -/

/-- The ticks so far: those that have made an item and those still to do it. -/
def State.arrivals (s : State T W) : Nat :=
  (s.startedAt 0).length + ((s.element 0).map WorkWrapper.liveTicks).getD 0

theorem arrivals_modify {f : WorkWrapper T W → WorkWrapper T W}
    (hf : ∀ w, s.element k = some w → (f w).liveTicks = w.liveTicks) :
    (s.modify k f).arrivals = s.arrivals := by
  rw [State.arrivals, State.arrivals, State.startedAt_modify, State.element_modify]
  by_cases hk : k = 0
  · rw [if_pos hk]
    cases hel : s.element 0 with
    | none => rfl
    | some w =>
      rw [Option.map_some, Option.map_some, Option.map_some, hf w (hk ▸ hel)]
  · rw [if_neg hk]

theorem arrivals_congr (hlog : s'.log = s.log)
    (he : s'.pipeline.elements = s.pipeline.elements) : s'.arrivals = s.arrivals := by
  rw [State.arrivals, State.arrivals, State.startedAt_congr hlog, State.element, he, State.element]

theorem arrivals_run (hw : Wired ws stats s) {t : TimePoint} (hs : step s (.run k t) = some s') :
    s'.arrivals = s.arrivals := by
  obtain ⟨w, x, rest, hel, hact, hstrand, ⟨hx, rfl⟩ | ⟨data, hx, rfl⟩⟩ := run_cases hs
  · refine arrivals_modify fun v hv => ?_
    obtain rfl := Option.some.inj (hel.symm.trans hv)
    have hlive : x.live = false := by
      cases x with
      | tick ec => cases ec <;> simp [State.dataOf, Handler.live] at hx ⊢
      | work it => rfl
    rw [WorkWrapper.liveTicks, WorkWrapper.liveTicks, hstrand, List.countP_cons, hlive]
    rfl
  · by_cases hk : k = 0
    · -- the tick is counted as an item from now on
      subst hk
      rw [State.arrivals, State.arrivals, State.startedAt_record_started, if_pos rfl]
      show ((s.modify 0 _).startedAt 0 ++ [data]).length +
        (((s.modify 0 _).element 0).map WorkWrapper.liveTicks).getD 0 = _
      rw [State.element_modify_self, hel, List.length_append, List.length_singleton]
      have hlive : x.live = true := by
        rcases (hw.placed 0 w hel).dataOf hstrand hx with ⟨_, rfl, _⟩ | ⟨h00, _⟩
        · rfl
        · exact absurd rfl h00
      have hcount : w.liveTicks = rest.countP Handler.live + 1 := by
        rw [WorkWrapper.liveTicks, hstrand, List.countP_cons, hlive, if_pos rfl]
      show (s.startedAt 0).length + 1 + rest.countP Handler.live = _ + w.liveTicks
      omega
    · rw [State.arrivals, State.arrivals, State.startedAt_record_started, if_neg hk,
        List.append_nil]
      show ((s.modify k _).startedAt 0).length +
        (((s.modify k _).element 0).map WorkWrapper.liveTicks).getD 0 = _
      rw [State.element_modify_ne hk, State.startedAt_modify]

theorem arrivals_stage (hw : Wired ws stats s) {a : Action T} (ha : StageAction s a)
    (hs : step s a = some s') : s'.arrivals = s.arrivals := by
  cases a with
  | run k t => exact arrivals_run hw hs
  | finish k data t =>
    obtain ⟨w, it, t₀, hel, hact, rfl⟩ := step_finish.mp hs
    rw [State.arrivals, State.startedAt_record_completed]
    show State.arrivals (State.modify k _ _) = _
    refine (arrivals_modify ?_).trans (arrivals_congr rfl (emplaceTimes_elements _ _ _))
    intro w' _
    rfl
  | next k =>
    obtain ⟨w, it, hel, hact, rfl⟩ := step_next.mp hs
    have hpass : ((s.modify k WorkWrapper.afterNext).pass w.next it).arrivals =
        (s.modify k WorkWrapper.afterNext).arrivals := by
      have hzero := element_zero_pass (s := s.modify k WorkWrapper.afterNext)
        (fun j hj => (hw.placed k w hel).next_ne_zero hj) it
      have hlog : ((s.modify k WorkWrapper.afterNext).pass w.next it).log = s.log := by
        cases w.next <;> rfl
      rw [State.arrivals, State.arrivals, hzero, State.startedAt_congr hlog]
      rfl
    rw [hpass]
    exact arrivals_modify fun w' _ => rfl
  | restart k =>
    obtain ⟨w, hel, hact, rfl⟩ := step_restart.mp hs
    exact arrivals_modify fun w' _ => WorkWrapper.liveTicks_expiresAt _
  | rewait k =>
    obtain ⟨w, hel, hact, rfl⟩ := step_rewait.mp hs
    exact arrivals_modify fun w' _ => rfl
  | elapse _ | expire _ | pauseCall | pauseWait | pauseReturn | changeTimer _ | collect _ _ =>
    exact absurd ha (by simp [StageAction, Action.stage?])

/-- An element at rest has nothing to take, to work on or to pass. -/
theorem State.Still.quiet (h : s.Still) {w : WorkWrapper T W} (hel : s.element k = some w) :
    w.strand = [] ∧ w.activity = none :=
  State.still_iff.mp h w (List.mem_of_getElem? hel)

theorem State.Still.stuck (h : s.Still) {a : Action T} (ha : StageAction s a) :
    step s a = none := by
  by_contra hs
  obtain ⟨s', hs⟩ := Option.ne_none_iff_exists'.mp hs
  cases a with
  | run k t =>
    obtain ⟨w, x, rest, hel, _, hstrand, _⟩ := step_run.mp hs
    exact h k ⟨w, hel, .inl (by simp [hstrand])⟩
  | finish k data t =>
    obtain ⟨w, it, t₀, hel, hact, _⟩ := step_finish.mp hs
    exact h k ⟨w, hel, .inr (by simp [hact])⟩
  | next k =>
    obtain ⟨w, it, hel, hact, _⟩ := step_next.mp hs
    exact h k ⟨w, hel, .inr (by simp [hact])⟩
  | restart k =>
    obtain ⟨w, hel, hact, _⟩ := step_restart.mp hs
    exact h k ⟨w, hel, .inr (by simp [hact])⟩
  | rewait k =>
    obtain ⟨w, hel, hact, _⟩ := step_rewait.mp hs
    exact h k ⟨w, hel, .inr (by simp [hact])⟩
  | elapse _ | expire _ | pauseCall | pauseWait | pauseReturn | changeTimer _ | collect _ _ =>
    exact absurd ha (by simp [StageAction, Action.stage?])

/-- At rest, what was started anywhere is complete everywhere. -/
theorem Flow.completed (h : Flow s) (hw : Wired ws stats s) (hrest : s.Still)
    (hk : k < ws.length) :
    (s.completedAt k).map Item.id = List.range (s.startedAt 0).length := by
  have hel : ∀ j, j < ws.length → ∃ w, s.element j = some w := fun j hj =>
    ⟨_, List.getElem?_eq_getElem (hw.length ▸ hj)⟩
  have hwork : ∀ j, j < ws.length →
      (s.completedAt j).map Item.id = (s.startedAt j).map Item.id := by
    intro j hj
    obtain ⟨w, hj⟩ := hel j hj
    obtain ⟨done, hst, hdone⟩ := h.work j w hj
    have hin : w.inWork = [] := by rw [WorkWrapper.inWork, (hrest.quiet hj).2]
    rw [hst, hin, List.append_nil, id_of_worked hdone]
  induction k with
  | zero =>
    rw [hwork 0 hk]
    exact (h.inOrder hw).ticks
  | succ k ih =>
    obtain ⟨v, hv⟩ := hel k (Nat.lt_of_succ_lt hk)
    obtain ⟨w, hw'⟩ := hel (k + 1) hk
    have hpass := h.pass k v w hv hw'
    have hq : w.queued = [] := by rw [WorkWrapper.queued, (hrest.quiet hw').1]; rfl
    have hto : v.toPass = [] := by rw [WorkWrapper.toPass, (hrest.quiet hv).2]
    rw [hq, hto, List.append_nil, List.append_nil] at hpass
    rw [hwork (k + 1) hk, ← hpass]
    exact ih (Nat.lt_of_succ_lt hk)

theorem Launched.flowed {si : Nat} (h : Launched ws si s) {as bs : List (Action T)}
    {t u : State T W} (hrun : Steps step anyStep s as t) (hstage : Steps step StageAction t bs u)
    (hrest : u.Still) (hk : k < ws.length) :
    (u.completedAt k).map Item.id = List.range t.arrivals := by
  have ht := h.reach hrun
  have hinv : (Wired ws (0 < si) u ∧ Flow u) ∧ u.arrivals = t.arrivals := by
    refine hstage.invariant (P := fun v => (Wired ws (0 < si) v ∧ Flow v) ∧
      v.arrivals = t.arrivals) ?_ ⟨ht, rfl⟩
    intro v a v' hv ha hs
    exact ⟨drains.keep v a v' hv.1 ha hs, (arrivals_stage hv.1.1 ha hs).trans hv.2⟩
  obtain ⟨⟨hw, hf⟩, harr⟩ := hinv
  have hnum : u.arrivals = (u.startedAt 0).length := by
    rw [State.arrivals]
    cases hel : u.element 0 with
    | none => rfl
    | some w =>
      rw [Option.map_some, Option.getD_some, WorkWrapper.liveTicks, (hrest.quiet hel).1]
      rfl
  rw [← harr, hnum]
  exact hf.completed hw hrest hk

/-- **Data flows to the end.**  In every state of a started pipeline, and in
whatever order its strands go on from there: they do at most `load` pieces of
work; they can always be brought to rest; they stop nowhere but at rest; and
then each element has completed the items of all the ticks so far, in order. -/
theorem flows_to_the_end {si : Nat} {interval : Int} {source : W × Option String}
    {rest : List (W × Option String)} {now : Nat} {t : TimePoint} {p : Pipeline T W}
    (h : launch si interval source rest now t = .ok p) {as : List (Action T)} {s : State T W}
    (hrun : exec step (State.init now p) as = some s) {bs : List (Action T)} {u : State T W}
    (hstage : Steps step StageAction s bs u) :
    bs.length + u.load = s.load ∧
      (∃ cs v, Steps step StageAction u cs v ∧ v.Still) ∧
      ((∀ a, StageAction u a → step u a = none) →
        ∀ k, k < (works source rest).length →
          (u.completedAt k).map Item.id = List.range s.arrivals) := by
  have hl := launched_of_launch h
  have hs := hl.reach (steps_iff_exec.mpr hrun)
  have hu := drains.keeps hs hstage
  refine ⟨?_, drains.ends hu, fun hstuck k hk => ?_⟩
  · exact drains.length_eq (fun _ _ _ hI ha hs => load_stage hI.1 ha hs) hs hstage
  · exact hl.flowed (steps_iff_exec.mpr hrun) hstage (drains.final_of_stuck hu hstuck) hk

/-- Two frames on their way, the second in the source while the first is behind
it: nine pieces of work complete both. -/
theorem flows_to_the_end_two_frames :
    ∃ s u : State Nat String, exec step (State.init 0 (twoStage 0))
        [.elapse 40, .expire 0, .run 0 1, .finish 0 (some 7) 2, .next 0, .restart 0, .rewait 0,
          .elapse 40, .expire 0, .run 0 3, .run 1 4] = some s ∧
      exec (permit step StageAction) s
        [.finish 0 none 5, .finish 1 (some 8) 6, .next 0, .restart 0, .next 1, .rewait 0, .run 1 7,
          .finish 1 none 8, .next 1] = some u ∧
      9 + u.load = s.load ∧ ∀ k, k < 2 → (u.completedAt k).map Item.id = List.range s.arrivals := by
  obtain ⟨s, hs⟩ := Option.isSome_iff_exists.mp (show (exec step (State.init 0 (twoStage 0))
    [.elapse 40, .expire 0, .run 0 1, .finish 0 (some 7) 2, .next 0, .restart 0, .rewait 0,
      .elapse 40, .expire 0, .run 0 3, .run 1 4]).isSome = true by decide)
  obtain ⟨u, hu, hrest⟩ := show ∃ u, exec (permit step StageAction) s
      [.finish 0 none 5, .finish 1 (some 8) 6, .next 0, .restart 0, .next 1, .rewait 0, .run 1 7,
        .finish 1 none 8, .next 1] = some u ∧ u.Still by
    obtain rfl := Option.some.inj hs
    exact ⟨_, rfl, by decide⟩
  obtain ⟨hcount, -, hdone⟩ :=
    flows_to_the_end (launch_twoStage 0) hs (steps_iff_exec_permit.mpr hu)
  exact ⟨s, u, hs, hu, hcount, hdone fun _ => hrest.stuck⟩

end Pipeline

end SecMon
