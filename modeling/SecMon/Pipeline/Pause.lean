import SecMon.Pipeline.TickChain

/-!
# Pausing

`pause` promises to "pause processing".  It cancels the wait pending on the
source's timer, and resuming sets a new one; but `do_work` never looks at
`paused_`, and a tick that has expired or is at work is out of the reach of
both.  Such a tick arms the timer again when it is done.

* `pause_stops`: a pause that finds the source at rest stops it.
* `resume_keeps_single`: if every resume finds the source at rest, there is
  never more than one tick.
* `not_pause_stops` and `not_resume_keeps_single`: a tick in the strand when
  `pause` is called is enough to break either.
-/

namespace SecMon

namespace Pipeline

open Machine

variable {T W : Type} {ws : List W} {si : Nat} {s s' : State T W} {w : WorkWrapper T W}

/-- No tick of the source has expired that is not done with. -/
def State.AtRest (s : State T W) : Prop :=
  ∀ w ∈ s.element 0, w.liveTicks = 0 ∧ w.activity = none

instance (s : State T W) : Decidable s.AtRest :=
  inferInstanceAs (Decidable (∀ w ∈ s.element 0, w.liveTicks = 0 ∧ w.activity = none))

/-- A call of `pause` that pauses finds the source at rest. -/
def PausesAtRest (s : State T W) (a : Action T) : Prop :=
  a = .pauseCall → s.pipeline.paused = false → s.AtRest

/-- A call of `pause` that resumes finds the source at rest. -/
def ResumesAtRest (s : State T W) (a : Action T) : Prop :=
  a = .pauseCall → s.pipeline.paused = true → s.AtRest

/-- `pause` is not called. -/
def NoPause (_ : State T W) (a : Action T) : Prop := a ≠ .pauseCall

instance [DecidableEq T] (s : State T W) (a : Action T) : Decidable (PausesAtRest s a) :=
  inferInstanceAs (Decidable (_ → _ → _))

instance [DecidableEq T] (s : State T W) (a : Action T) : Decidable (ResumesAtRest s a) :=
  inferInstanceAs (Decidable (_ → _ → _))

instance [DecidableEq T] (s : State T W) (a : Action T) : Decidable (NoPause s a) :=
  inferInstanceAs (Decidable (¬_))

/-! ### Runs as runs of the chain -/

theorem State.AtRest.chain (h : s.AtRest) (h0 : s.element 0 = some w) : (s.chain w).AtRest := by
  obtain ⟨ht, ha⟩ := h w h0
  refine ⟨ht, ?_⟩
  show w.activity.isSome = false
  rw [ha]
  rfl

theorem Launched.chain (h : Launched ws si s) :
    ∃ w, s.element 0 = some w ∧ s.chain w =
      { pending := 1, ticks := 0, busy := false, paused := false, flag := false,
        caller := .idle, starts := 0 } := by
  obtain ⟨w, h0, hp⟩ := h.source
  obtain ⟨hs, ha, hpa⟩ := h.quiet 0 w h0
  refine ⟨w, h0, ?_⟩
  simp only [State.chain, hp, WorkWrapper.liveTicks, hs, ha, hpa, h.paused, h.caller,
    State.startedAt, h.log]
  rfl

/-- What holds of the chain at first and is kept by its moves holds of the
source in every state reached. -/
theorem chain_run {P : Chain → Prop} {ok : State T W → Action T → Prop} {stats : Bool}
    {as : List (Action T)} (hw : Wired ws stats s) (h0 : s.element 0 = some w)
    (hP : P (s.chain w)) (hrun : Steps step ok s as s')
    (hkeep : ∀ s a w m c', ok s a → s.element 0 = some w → P (s.chain w) →
      (m = .pauseCall ↔ a = .pauseCall) → (s.chain w).step m = some c' → P c') :
    Wired ws stats s' ∧ ∃ w', s'.element 0 = some w' ∧ P (s'.chain w') := by
  refine hrun.invariant (P := fun s => Wired ws stats s ∧ ∃ w, s.element 0 = some w ∧ P (s.chain w))
    ?_ ⟨hw, w, h0, hP⟩
  rintro s a s' ⟨hw, w, h0, hP⟩ hok hs
  obtain ⟨w', m, h0', hm, hcall, _⟩ := chain_step hw h0 a hs
  exact ⟨hw.step a hs, w', h0', hkeep s a w m _ hok h0 hP hcall hm⟩

/-- In every state reached the source is wired and the two flags agree. -/
theorem Launched.flags (h : Launched ws si s) {as : List (Action T)}
    (hrun : exec step s as = some s') :
    Wired ws (0 < si) s' ∧ ∃ w, s'.element 0 = some w ∧ s'.pipeline.paused = w.paused := by
  obtain ⟨w, h0, hc⟩ := h.chain
  exact chain_run (P := fun c => c.flag = c.paused) h.wired h0 (by rw [hc])
    (steps_iff_exec.mpr hrun) fun _ _ _ _ _ _ _ hflag _ hs => Chain.flag_step hflag hs

/-- While every pause finds the source at rest, a paused source is quiet. -/
theorem Launched.stopped (h : Launched ws si s) {as : List (Action T)}
    (hrun : Steps step PausesAtRest s as s') :
    Wired ws (0 < si) s' ∧ ∃ w, s'.element 0 = some w ∧ Chain.Stopped (s'.chain w) := by
  obtain ⟨w, h0, hc⟩ := h.chain
  refine chain_run h.wired h0 ?_ hrun fun s a w m c' hok h0 hst hm hs =>
    hst.step (fun hcall hp => ?_) hs
  · rw [hc]
    exact ⟨rfl, fun hr => by simp at hr, fun _ hp => by simp at hp, fun hr => by simp at hr⟩
  · exact (hok (hm.mp hcall) (hst.flag.trans hp)).chain h0

/-- **Pause stops the source.**  If every pause so far found the source at
rest, then between the return of a pause and the next call the source does not
start work more than once more. -/
theorem pause_stops {interval : Int} {source : W × Option String}
    {rest : List (W × Option String)} {now : Nat} {t : TimePoint} {p : Pipeline T W}
    (h : launch si interval source rest now t = .ok p) {as bs : List (Action T)}
    {s s₁ s₂ : State T W} (hrun : Steps step PausesAtRest (State.init now p) as s)
    (hret : step s .pauseReturn = some s₁) (hp : s₁.pipeline.paused = true)
    (hafter : Steps step NoPause s₁ bs s₂) :
    (s₂.startedAt 0).length ≤ (s₁.startedAt 0).length + 1 := by
  have hrun₁ := hrun.append (.single (fun hcall => by simp at hcall) hret)
  obtain ⟨hw, w, h0, hst⟩ := (launched_of_launch h).stopped hrun₁
  have hidle : s₁.caller = .idle := by
    obtain ⟨_, rfl⟩ := step_pauseReturn.mp hret
    rfl
  have hquiet := hst.idle hidle (hst.flag.symm.trans hp)
  obtain ⟨_, w', _, _, _, hstarts⟩ := chain_run
    (P := fun c => c.Quiet ∧ c.caller = .idle ∧ c.starts = (s₁.startedAt 0).length) hw h0
    ⟨hquiet, hidle, rfl⟩ hafter
    fun s a w m c' hok _ ⟨hq, hc, hst⟩ hm hs => by
      obtain ⟨hq', hc', hst'⟩ := hq.step_idle hc (fun hcall => hok (hm.mp hcall)) hs
      exact ⟨hq', hc', hst'.trans hst⟩
  exact Nat.le_succ_of_le (Nat.le_of_eq hstarts)

/-- The source has made a frame and is at rest when it is paused: the wait is
aborted, and a minute later nothing more has started. -/
theorem pause_stops_at_rest :
    ∃ s s₁ s₂, Steps step PausesAtRest (State.init 0 (twoStage 0))
        [.elapse 40, .expire 0, .run 0 1, .finish 0 (some 7) 2, .next 0, .restart 0, .rewait 0,
          .run 1 3, .elapse 10, .pauseCall] s ∧
      step s .pauseReturn = some s₁ ∧ s₁.pipeline.paused = true ∧
      Steps step NoPause s₁ [.elapse 60000, .run 0 5, .finish 1 none 6] s₂ ∧
      (s₁.startedAt 0).length = 1 ∧ (s₂.startedAt 0).length ≤ (s₁.startedAt 0).length + 1 := by
  have hrun := steps_iff_exec_permit.mpr (show exec (permit step PausesAtRest)
    (State.init 0 (twoStage 0)) [.elapse 40, .expire 0, .run 0 1, .finish 0 (some 7) 2, .next 0,
      .restart 0, .rewait 0, .run 1 3, .elapse 10, .pauseCall] = some _ from rfl)
  have hstops := fun s₂ (hafter : Steps step NoPause _ [.elapse 60000, .run 0 5,
      .finish 1 none 6] s₂) =>
    pause_stops (launch_twoStage 0) hrun rfl rfl hafter
  exact ⟨_, _, _, hrun, rfl, rfl, steps_iff_exec_permit.mpr rfl, rfl,
    hstops _ (steps_iff_exec_permit.mpr rfl)⟩

/-- A tick is in the strand when `pause` is called.  The pause returns, the
tick arms the timer when its work is done, and the source runs as before. -/
theorem not_pause_stops :
    ¬ ∀ (as bs : List (Action Nat)) (s s₁ s₂ : State Nat String),
      exec step (State.init 0 (twoStage 0)) as = some s →
      step s .pauseReturn = some s₁ → s₁.pipeline.paused = true →
      Steps step NoPause s₁ bs s₂ →
      (s₂.startedAt 0).length ≤ (s₁.startedAt 0).length + 1 := by
  intro h
  have hmore := fun s₂ => h [.elapse 40, .expire 0, .pauseCall]
    [.run 0 1, .finish 0 (some 7) 2, .next 0, .restart 0, .rewait 0, .elapse 40, .expire 0,
      .run 0 3] _ _ s₂ rfl rfl rfl
  exact absurd (hmore _ (steps_iff_exec_permit.mpr rfl)) (by decide)

/-! ### Resuming -/

/-- **One tick at most.**  If every resume so far found the source at rest,
the waits pending and the ticks that have expired are one at most. -/
theorem resume_keeps_single {interval : Int} {source : W × Option String}
    {rest : List (W × Option String)} {now : Nat} {t : TimePoint} {p : Pipeline T W}
    (h : launch si interval source rest now t = .ok p) {as : List (Action T)}
    (hrun : Steps step ResumesAtRest (State.init now p) as s) :
    ∃ w, s.element 0 = some w ∧ w.pending + w.liveTicks ≤ 1 := by
  have hl := launched_of_launch h
  obtain ⟨w, h0, hc⟩ := hl.chain
  obtain ⟨_, w', h0', hsingle, _⟩ := chain_run
    (P := fun c => c.Single ∧ c.flag = c.paused) hl.wired h0
    (by rw [hc]; exact ⟨Nat.le_refl 1, rfl⟩) hrun
    fun s a w m c' hok h0 ⟨hsingle, hflag⟩ hm hs => by
      refine ⟨hsingle.step (fun hcall hp => ?_) hs, Chain.flag_step hflag hs⟩
      exact (hok (hm.mp hcall) (hflag.trans hp)).chain h0
  refine ⟨w', h0', ?_⟩
  have htotal : w'.pending + w'.liveTicks + _ + _ ≤ 1 := hsingle
  omega

/-- Paused and resumed at rest: the new wait is the only one. -/
theorem resume_keeps_single_at_rest :
    ∃ s w, Steps step ResumesAtRest (State.init 0 (twoStage 0))
        [.elapse 10, .pauseCall, .pauseReturn, .run 0 5, .pauseCall, .pauseWait, .pauseReturn] s ∧
      s.element 0 = some w ∧ w.pending + w.liveTicks ≤ 1 := by
  have hrun := steps_iff_exec_permit.mpr (show exec (permit step ResumesAtRest)
    (State.init 0 (twoStage 0)) [.elapse 10, .pauseCall, .pauseReturn, .run 0 5, .pauseCall,
      .pauseWait, .pauseReturn] = some _ from rfl)
  obtain ⟨w, h0, hw⟩ := resume_keeps_single (launch_twoStage 0) hrun
  exact ⟨_, w, hrun, h0, hw⟩

/-- Off and on again while a tick waits in the strand: now there are two. -/
theorem not_resume_keeps_single :
    ¬ ∀ (as : List (Action Nat)) (s : State Nat String) (w : WorkWrapper Nat String),
      exec step (State.init 0 (twoStage 0)) as = some s → s.element 0 = some w →
      w.pending + w.liveTicks ≤ 1 := by
  intro h
  exact absurd (h [.elapse 40, .expire 0, .pauseCall, .pauseReturn, .pauseCall, .pauseWait] _ _
    rfl rfl) (by decide)

end Pipeline

end SecMon
