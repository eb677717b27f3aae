import SecMon.Pipeline.Pause

/-!
# The ticks that a pause misses

`PausesAtRest` and `ResumesAtRest` ask for no more than is needed.  From
every state in which `pause` is called while a tick is in the strand or at
work, the source can be driven on as if nothing had been called:
`pause_misses` starts it twice more, `resume_forks` arms a second tick.
-/

namespace SecMon

/-- The steps `do_work` has before it waits on its timer. -/
def Activity.remaining {T W : Type} : Activity T W → Nat
  | .working .. => 3
  | .worked .. => 2
  | .restarting => 1
  | .rewaiting => 0

namespace Pipeline

open Machine

variable {T W : Type} {ws : List W} {stats : Bool} {si : Nat} {s s' : State T W}
  {w : WorkWrapper T W}

theorem Wired.steps {ok : State T W → Action T → Prop} {as : List (Action T)}
    (h : Wired ws stats s) (hrun : Steps Pipeline.step ok s as s') : Wired ws stats s' :=
  hrun.invariant (fun _ a _ hw _ hs => hw.step a hs) h

/-- The source gets on with its tick, whatever the flags say. -/
theorem exists_step_source (hw : Wired ws stats s) (h0 : s.element 0 = some w)
    {a : Activity T W} (ha : w.activity = some a) {n : Nat} (hn : a.remaining = n + 1) :
    ∃ x s' w' a', x ≠ .pauseCall ∧ step s x = some s' ∧ s'.element 0 = some w' ∧
      w'.activity = some a' ∧ a'.remaining = n ∧ s'.caller = s.caller ∧
      s'.startedAt 0 = s.startedAt 0 := by
  have hself : ∀ f, (s.modify 0 f).element 0 = some (f w) := fun f => by
    rw [State.element_modify_self, h0, Option.map_some]
  cases a with
  | working it t₀ =>
    refine ⟨.finish 0 none 0, _, { w with activity := some (.worked (it.worked w.work none)) }, _,
      by simp, step_finish.mpr ⟨w, it, t₀, h0, ha, rfl⟩, ?_, rfl, Nat.succ.inj hn, rfl, ?_⟩
    · show State.element (State.modify 0 _ _) 0 = _
      rw [State.element_modify_self, State.element, emplaceTimes_elements]
      show Option.map _ (s.element 0) = _
      rw [h0]
      rfl
    · rw [State.startedAt_record_completed]
      rfl
  | worked it =>
    have htimed : w.timed.isSome = true := (hw.placed 0 w h0).timed
    refine ⟨.next 0, _, w.afterNext, .restarting, by simp, step_next.mpr ⟨w, it, h0, ha, rfl⟩,
      ?_, ?_, Nat.succ.inj hn, ?_, ?_⟩
    · rw [element_zero_pass fun j hj => (hw.placed 0 w h0).next_ne_zero hj]
      exact hself _
    · rw [WorkWrapper.afterNext, htimed]
      rfl
    · cases w.next <;> rfl
    · cases w.next <;> rfl
  | restarting =>
    exact ⟨.restart 0, _, w.restart, .rewaiting, by simp, step_restart.mpr ⟨w, h0, ha, rfl⟩,
      hself _, rfl, Nat.succ.inj hn, rfl, rfl⟩
  | rewaiting => exact absurd hn (by simp [Activity.remaining])

theorem exists_run_rewaiting : ∀ (n : Nat) {s : State T W} {w : WorkWrapper T W}
    {a : Activity T W}, Wired ws stats s → s.element 0 = some w → w.activity = some a →
    a.remaining = n → ∃ as s' w', Steps step NoPause s as s' ∧ s'.element 0 = some w' ∧
      w'.activity = some .rewaiting ∧ s'.caller = s.caller ∧ s'.startedAt 0 = s.startedAt 0
  | 0, s, w, a, _, h0, ha, hn => by
    refine ⟨[], s, w, .nil s, h0, ?_, rfl, rfl⟩
    cases a <;> simp [Activity.remaining] at hn
    exact ha
  | n + 1, s, w, a, hw, h0, ha, hn => by
    obtain ⟨x, t, v, b, hx, hs, ht, hb, hbn, hc, hst⟩ := exists_step_source hw h0 ha hn
    obtain ⟨as, u, w', hrun, hu, hre, hc', hst'⟩ :=
      exists_run_rewaiting n (hw.step x hs) ht hb hbn
    exact ⟨x :: as, u, w', .cons hx hs hrun, hu, hre, hc'.trans hc, hst'.trans hst⟩

theorem exists_run_start : ∀ (l : List (Handler T W)) {s : State T W} {w : WorkWrapper T W},
    Wired ws stats s → s.element 0 = some w → w.activity = none → w.strand = l →
    0 < w.liveTicks → ∃ as s' w' it, Steps step NoPause s as s' ∧ s'.element 0 = some w' ∧
      w'.activity = some (.working it 0) ∧
      (s'.startedAt 0).length = (s.startedAt 0).length + 1
  | [], s, w, _, _, _, hl, hlive => by
    rw [WorkWrapper.liveTicks, hl] at hlive
    simp at hlive
  | x :: l, s, w, hw, h0, ha, hl, hlive => by
    have hself : ∀ f, (s.modify 0 f).element 0 = some (f w) := fun f => by
      rw [State.element_modify_self, h0, Option.map_some]
    have hs := step_run (t := 0).mpr ⟨w, x, l, h0, ha, hl, rfl⟩
    cases x with
    | work it =>
      have := (hw.placed 0 w h0).strand (.work it) (by rw [hl]; exact List.mem_cons_self)
      simp [Handler.data?] at this
    | tick ec =>
      cases ec with
      | operationAborted =>
        have hlive' : 0 < WorkWrapper.liveTicks { w with strand := l } := by
          rwa [WorkWrapper.liveTicks, hl, List.countP_cons_of_neg (by simp [Handler.live])] at hlive
        obtain ⟨as, u, w', it, hrun, hu, hwork, hlen⟩ :=
          exists_run_start l (hw.step _ hs) (hself _) ha rfl hlive'
        exact ⟨_ :: as, u, w', it, .cons (by simp [NoPause]) hs hrun, hu, hwork, hlen⟩
      | success =>
        refine ⟨_, _, { w with strand := l, activity := some (.working _ 0) },
          { id := (s.startedAt 0).length, data := none, applied := [] }, .single (by simp [NoPause]) hs, ?_, rfl, ?_⟩
        · show State.element (State.modify 0 _ (State.modify 0 _ s)) 0 = _
          rw [State.element_modify_self, hself]
          rfl
        · show ((State.record _ _).startedAt 0).length = _
          rw [State.startedAt_record_started, List.length_append]
          rfl

theorem exists_run_expire (h0 : s.element 0 = some w) (hp : 0 < w.pending) :
    ∃ as s', Steps step NoPause s as s' ∧ s'.element 0 = some w.expire ∧ s'.log = s.log := by
  have hdue : w.due (s.now + w.expiry) = true := by simp [WorkWrapper.due, hp]
  have hexpire := step_expire (s := { s with now := s.now + w.expiry }).mpr ⟨w, h0, hdue, rfl⟩
  refine ⟨[.elapse w.expiry, .expire 0], _,
    .cons (by simp [NoPause]) rfl (.single (by simp [NoPause]) hexpire), ?_, rfl⟩
  rw [State.element_modify_self]
  show (s.element 0).map _ = _
  rw [h0]
  rfl

/-- A source that is not at rest starts again, however often it is paused. -/
theorem exists_run_start_again (hw : Wired ws stats s) (h0 : s.element 0 = some w)
    (hbusy : 0 < w.liveTicks ∨ w.activity.isSome = true) :
    ∃ as s' w', Steps step NoPause s as s' ∧ s'.element 0 = some w' ∧
      w'.activity.isSome = true ∧ (s'.startedAt 0).length = (s.startedAt 0).length + 1 := by
  cases ha : w.activity with
  | none =>
    obtain hlive : 0 < w.liveTicks := by
      rw [ha] at hbusy
      simpa using hbusy
    obtain ⟨as, s', w', it, hrun, h0', hwork, hlen⟩ := exists_run_start _ hw h0 ha rfl hlive
    exact ⟨as, s', w', hrun, h0', by rw [hwork]; rfl, hlen⟩
  | some a =>
    -- the tick at work waits again, its wait expires, and that tick starts
    obtain ⟨as, t, v, hrun, ht, hre, _, hst⟩ := exists_run_rewaiting _ hw h0 ha rfl
    have hwt := hw.steps hrun
    have hwait := step_rewait.mpr ⟨v, ht, hre, rfl⟩
    have hv : (t.modify 0 WorkWrapper.rewait).element 0 = some v.rewait := by
      rw [State.element_modify_self, ht, Option.map_some]
    have hpend : v.rewait.pending = v.pending + 1 :=
      WorkWrapper.pending_asyncWait (hwt.placed 0 v ht).timed
    obtain ⟨bs, u, hrun', hu, hlog⟩ := exists_run_expire hv (by omega)
    have hlive : 0 < v.rewait.expire.liveTicks := by
      rw [WorkWrapper.liveTicks_expire, hpend]
      omega
    have hsteps := hrun.append (.cons (by simp [NoPause]) hwait hrun')
    obtain ⟨cs, s', w', it, hrun'', h0', hwork, hlen⟩ :=
      exists_run_start _ (hw.steps hsteps) hu rfl rfl hlive
    refine ⟨_, s', w', hsteps.append hrun'', h0', by rw [hwork]; rfl, ?_⟩
    rw [hlen, State.startedAt_congr hlog, State.startedAt_modify, hst]

theorem not_atRest (h0 : s.element 0 = some w) (h : ¬ s.AtRest) :
    0 < w.liveTicks ∨ w.activity.isSome = true := by
  by_cases ht : w.liveTicks = 0
  · refine .inr (Option.isSome_iff_ne_none.mpr fun ha => h fun v hv => ?_)
    obtain rfl : w = v := Option.some.inj (h0.symm.trans hv)
    exact ⟨ht, ha⟩
  · exact .inl (Nat.pos_of_ne_zero ht)

section

variable {interval : Int} {source : W × Option String} {rest : List (W × Option String)}
  {now : Nat} {t : TimePoint} {p : Pipeline T W} {as : List (Action T)}

/-- **The tick that a pause misses.**  Called while a tick is in the strand or
at work, `pause` returns with the source still running. -/
theorem pause_misses (h : launch si interval source rest now t = .ok p)
    (hrun : exec step (State.init now p) as = some s) (hp : s.pipeline.paused = false)
    (hbusy : ¬ s.AtRest) (hcall : step s .pauseCall = some s') :
    ∃ s₁ bs s₂, step s' .pauseReturn = some s₁ ∧ s₁.pipeline.paused = true ∧
      Steps step NoPause s₁ bs s₂ ∧
      (s₁.startedAt 0).length + 1 < (s₂.startedAt 0).length := by
  obtain ⟨hw, w, h0, hflag⟩ := (launched_of_launch h).flags hrun
  obtain ⟨v, hv, _, _, ⟨hpa, _⟩ | ⟨_, rfl⟩⟩ := step_pauseCall.mp hcall
  · obtain rfl : w = v := Option.some.inj (h0.symm.trans hv)
    exact absurd (hp.symm.trans (hflag.trans hpa)) (by decide)
  have hret := step_pauseReturn (s := { s.modify 0 WorkWrapper.cancel with
    caller := .switching }).mpr ⟨rfl, rfl⟩
  have hw₁ := (hw.step _ hcall).step _ hret
  -- neither the cancel nor the flag reaches the tick
  have hbusy₁ : 0 < (w.cancel.setPaused !w.cancel.paused).liveTicks ∨
      (w.cancel.setPaused !w.cancel.paused).activity.isSome = true := by
    rcases not_atRest h0 hbusy with ht | ha
    · exact .inl (Nat.lt_of_lt_of_eq ht WorkWrapper.liveTicks_cancel.symm)
    · exact .inr ha
  obtain ⟨bs, t₁, w₁, hrun₁, h0₁, hbusy₂, hlen₁⟩ := exists_run_start_again hw₁ (by
    show State.element (State.modify 0 _ (State.modify 0 _ s)) 0 = _
    rw [State.element_modify_self, State.element_modify_self, h0]
    rfl) hbusy₁
  obtain ⟨cs, t₂, _, hrun₂, _, _, hlen₂⟩ :=
    exists_run_start_again (hw₁.steps hrun₁) h0₁ (.inr hbusy₂)
  refine ⟨_, bs ++ cs, t₂, hret, ?_, hrun₁.append hrun₂, by omega⟩
  show (!s.pipeline.paused) = true
  rw [hp]
  rfl

/-- **The tick that a resume doubles.**  Called while a tick is in the strand
or at work, a `pause` that resumes leads to two ticks. -/
theorem resume_forks (h : launch si interval source rest now t = .ok p)
    (hrun : exec step (State.init now p) as = some s) (hp : s.pipeline.paused = true)
    (hbusy : ¬ s.AtRest) (hcall : step s .pauseCall = some s') :
    ∃ bs s₁ w, exec step s' bs = some s₁ ∧ s₁.element 0 = some w ∧
      1 < w.pending + w.liveTicks := by
  obtain ⟨hw, w, h0, hflag⟩ := (launched_of_launch h).flags hrun
  obtain ⟨v, hv, _, _, ⟨_, rfl⟩ | ⟨hpa, _⟩⟩ := step_pauseCall.mp hcall
  swap
  · obtain rfl : w = v := Option.some.inj (h0.symm.trans hv)
    exact absurd (hp.symm.trans (hflag.trans hpa)) (by decide)
  have hw₁ := hw.step _ hcall
  have h0₁ : State.element (s.modify 0 fun w => w.expiresAt (s.now + w.milliseconds)) 0 =
      some (w.expiresAt (s.now + w.milliseconds)) := by
    rw [State.element_modify_self, h0, Option.map_some]
  have hlive : (w.expiresAt (s.now + w.milliseconds)).liveTicks = w.liveTicks :=
    WorkWrapper.liveTicks_expiresAt _
  rcases not_atRest h0 hbusy with ht | ha
  · -- one in the strand, and the wait of this call
    have hpend := WorkWrapper.pending_asyncWait (hw₁.placed 0 _ h0₁).timed
    refine ⟨[.pauseWait], _, (w.expiresAt (s.now + w.milliseconds)).asyncWait,
      steps_iff_exec.mp (.single trivial (step_pauseWait.mpr ⟨rfl, rfl⟩)), ?_, ?_⟩
    · show State.element (State.modify 0 _ (State.modify 0 _ s)) 0 = _
      rw [State.element_modify_self, h0₁, Option.map_some]
    · rw [hpend]
      show 1 < _ + (w.expiresAt (s.now + w.milliseconds)).liveTicks
      omega
  · -- the wait of this call, and the wait of the tick at work
    obtain ⟨a, ha⟩ := Option.isSome_iff_exists.mp ha
    obtain ⟨bs, t, u, hrun₁, hu, hre, hc, _⟩ :=
      exists_run_rewaiting _ hw₁ h0₁ (show _ = some a from ha) rfl
    have htimed := ((hw₁.steps hrun₁).placed 0 u hu).timed
    have hwait := step_pauseWait.mpr ⟨hc, rfl⟩
    have hu' : State.element (t.modify 0 WorkWrapper.asyncWait) 0 = some u.asyncWait := by
      rw [State.element_modify_self, hu, Option.map_some]
    have hrewait := step_rewait (s := { t.modify 0 WorkWrapper.asyncWait with
      caller := .switching }).mpr ⟨u.asyncWait, hu', hre, rfl⟩
    refine ⟨bs ++ [.pauseWait, .rewait 0], _, u.asyncWait.rewait, steps_iff_exec.mp
      ((hrun₁.mono fun _ _ _ => trivial).append
        (.cons trivial hwait (.single trivial hrewait))), ?_, ?_⟩
    · show State.element (State.modify 0 _ (State.modify 0 _ t)) 0 = _
      rw [State.element_modify_self, hu', Option.map_some]
    · have h₁ : u.asyncWait.pending = u.pending + 1 := WorkWrapper.pending_asyncWait htimed
      have h₂ : u.asyncWait.asyncWait.pending = u.asyncWait.pending + 1 := by
        refine WorkWrapper.pending_asyncWait ?_
        rw [WorkWrapper.asyncWait, WorkWrapper.setTimer, Option.isSome_map]
        exact htimed
      show 1 < u.asyncWait.asyncWait.pending + _
      omega

end

end Pipeline

end SecMon
