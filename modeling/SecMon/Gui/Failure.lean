import SecMon.Gui.Outbox

/-!
# A viewer that failed

`handle_write` with an error disconnects the slot and writes nothing more, but
it stops nothing that is under way.  The viewer is dead (`Dead`) afterwards if
two things were true before (`Settled`).  `start()` had stored the connection:
otherwise there is nothing yet to disconnect, and the slot is connected
afterwards.  And either a second message was in the outbox, which then stays
there and keeps `addToOutbox` from writing, or no image was on its way to the
outbox: otherwise the next `addToOutbox` finds it empty and writes.

`stays_failed` is the one direction, for every run; `fails_to_stop` is the
other, from every state in which a failed write is handled.
-/

namespace SecMon.Http.StreamConnection

open Machine Buffer

def Handler.isError : Handler → Bool
  | .handleWrite error _ => error
  | _ => false

/-- The next handler is `handle_write` with an error. -/
def HandlesError (s : StreamConnection) : Prop := s.strand.head?.any Handler.isError = true

/-- Nothing but the write that failed is under way. -/
def Settled (s : StreamConnection) : Prop :=
  s.hasConnection = true ∧ (2 ≤ s.outbox.length ∨ s.adding = [] ∧ s.sending = [])

/-- Errors are handled in settled states only. -/
def FailsSettled (s : StreamConnection) (a : Action) : Prop :=
  a = .runHandler → HandlesError s → Settled s

instance : ∀ s, Decidable (HandlesError s) := fun _ => inferInstanceAs (Decidable (_ = true))

instance : ∀ s, Decidable (Settled s) := fun _ => inferInstanceAs (Decidable (_ ∧ _))

instance : ∀ s a, Decidable (FailsSettled s a) := fun _ _ => inferInstanceAs (Decidable (_ → _))

/-- No write is outstanding, none will be started, and the slot is gone. -/
structure Dead (s : StreamConnection) : Prop where
  stage : s.stage = .started
  disconnected : s.isConnected = false
  outstanding : s.outstanding = []
  quiet : s.outbox ≠ [] ∨ s.adding = [] ∧ s.sending = []

variable {s s' : StreamConnection} {write : Buffers} {hs : List Handler}

theorem handlesError_iff :
    HandlesError s ↔ ∃ write hs, s.strand = .handleWrite true write :: hs := by
  unfold HandlesError
  cases s.strand with
  | nil => simp
  | cons h hs => cases h <;> simp [Handler.isError]

/-- Without an outstanding write none is in flight and none has ended. -/
theorem not_handleWrite_of_outstanding {h : Handler} (hout : s.outstanding = [])
    (hq : s.strand = h :: hs) : h.write = none := by
  have hnone := (List.append_eq_nil_iff.mp hout).2
  rw [hq, List.filterMap_cons] at hnone
  cases hw : h.write with
  | none => rfl
  | some write =>
    rw [hw] at hnone
    exact absurd hnone (List.cons_ne_nil write _)

theorem Dead.run {h : Handler} (hd : Dead s) (hq : s.strand = h :: hs) :
    Dead (s.pop.run h) ∧ (s.pop.run h).log = s.log := by
  have hw := not_handleWrite_of_outstanding hd.outstanding hq
  have hout : s.pop.outstanding = [] := (outstanding_pop hq hw).trans hd.outstanding
  have hsend := sending_pop hq
  have hadd := adding_pop hq
  cases h with
  | handleWrite error write => exact absurd hw (by simp [Handler.write])
  | sendFrame image =>
    have hbox : s.outbox ≠ [] := by
      rcases hd.quiet with hbox | ⟨-, hnone⟩
      · exact hbox
      · rw [hnone] at hsend
        exact absurd hsend (by simp [Handler.image])
    rw [StreamConnection.run, sendFrame_eq]
    refine ⟨⟨hd.stage, hd.disconnected, ?_, .inl hbox⟩, rfl⟩
    rw [outstanding_post, hout]
    rfl
  | addToOutbox msg =>
    have hbox : s.outbox ≠ [] := by
      rcases hd.quiet with hbox | ⟨hnone, -⟩
      · exact hbox
      · rw [hnone] at hadd
        exact absurd hadd (by simp [Handler.msg])
    rw [StreamConnection.run, addToOutbox_of_ne_nil (s := s.pop) msg hbox]
    exact ⟨⟨hd.stage, hd.disconnected, hout, .inl (List.append_ne_nil_of_left_ne_nil hbox _)⟩, rfl⟩

theorem Dead.step {a : Action} (hd : Dead s) (hs : s.step a = some s') :
    Dead s' ∧ s'.log = s.log := by
  have hstage := hd.stage
  cases stepTo_of_step hs with
  | sendInitialHeaders hst | returnHeaders hst | connectToSignal hst | storeConnection hst =>
    rw [hst] at hstage
    exact absurd hstage (by decide)
  | imageReady bytes =>
    unfold imageReady
    rw [if_neg (by simp [hd.disconnected])]
    exact ⟨hd, rfl⟩
  | completeWrite error hw =>
    have hfly : s.inFlight = [] := (List.append_eq_nil_iff.mp hd.outstanding).1
    rw [hfly] at hw
    exact absurd hw (by simp)
  | runHandler hstrand => exact hd.run hstrand

theorem Dead.reach {bs : List Action} (hd : Dead s)
    (hs : exec StreamConnection.step s bs = some s') : Dead s' ∧ s'.log = s.log :=
  (steps_iff_exec.mpr hs).invariant (P := fun t => Dead t ∧ t.log = s.log)
    (fun _ _ _ ⟨hd, hlog⟩ _ hs => (hd.step hs).imp_right (·.trans hlog)) ⟨hd, rfl⟩

theorem Tracked.dead (h : Tracked s) (hst : s.hasConnection = true → s.stage = .started)
    (hset : Settled s) (hq : s.strand = .handleWrite true write :: hs) :
    Dead (s.pop.handleWrite true) := by
  obtain ⟨hconn, hquiet⟩ := hset
  obtain ⟨written, rest, adds, -, hb⟩ := h
  obtain ⟨hb, hout⟩ := busy_of_handleWrite (hb.imp_right And.left) hq
  refine ⟨hst hconn, ?_, hout, ?_⟩
  · show (s.isConnected && !s.hasConnection) = false
    rw [hconn]
    exact Bool.and_false _
  · have hsend : s.sending = s.pop.sending := sending_pop hq
    have hadd : s.adding = s.pop.adding := adding_pop hq
    rcases hquiet with hlen | hnone
    · left
      show s.outbox.tail ≠ []
      intro hnil
      have hlen' := congrArg List.length hnil
      rw [List.length_tail, List.length_nil] at hlen'
      omega
    · right
      exact ⟨hadd.symm.trans hnone.1, hsend.symm.trans hnone.2⟩

/-- How the flags go with the stage of `start()`. -/
structure Staged (s : StreamConnection) : Prop where
  stored : s.hasConnection = true ↔ s.stage = .started
  connected : s.stage = .connected → s.isConnected = true

theorem Staged.step {a : Action} (h : Staged s) (hs : s.step a = some s') : Staged s' := by
  have hstored := h.stored
  cases stepTo_of_step hs with
  | sendInitialHeaders hst | returnHeaders hst =>
    rw [hst] at hstored
    exact ⟨hstored.trans ⟨Stage.noConfusion, Stage.noConfusion⟩, Stage.noConfusion⟩
  | connectToSignal hst =>
    rw [hst] at hstored
    exact ⟨hstored.trans ⟨Stage.noConfusion, Stage.noConfusion⟩, fun _ => rfl⟩
  | storeConnection => exact ⟨⟨fun _ => rfl, fun _ => rfl⟩, Stage.noConfusion⟩
  | imageReady bytes =>
    unfold imageReady
    split
    · exact ⟨hstored, h.connected⟩
    · exact h
  | completeWrite => exact ⟨hstored, h.connected⟩
  | @runHandler hd hq hstrand =>
    have hfrozen := frozen_pop_run s hd
    refine ⟨by rw [hfrozen.stage, hfrozen.hasConnection]; exact hstored, ?_⟩
    rw [hfrozen.stage]
    intro hc
    rcases isConnected_run s.pop hd with hsame | ⟨hyes, -⟩
    · rw [hsame]
      exact h.connected hc
    · exact absurd (hc.symm.trans (hstored.mp hyes)) (by decide)

theorem fails_cases {a : Action} (hs : s.step a = some s') (hf : s.hasFailed = false)
    (hf' : s'.hasFailed = true) :
    ∃ write hs, a = .runHandler ∧ s.strand = .handleWrite true write :: hs ∧
      s' = s.pop.handleWrite true := by
  have hdiff : s'.hasFailed ≠ s.hasFailed := by
    rw [hf, hf']
    decide
  cases stepTo_of_step hs with
  | sendInitialHeaders | returnHeaders | connectToSignal | storeConnection | completeWrite =>
    exact absurd rfl hdiff
  | imageReady bytes =>
    unfold imageReady at hdiff
    split at hdiff <;> exact absurd rfl hdiff
  | @runHandler hd hq hstrand =>
    cases hd with
    | sendFrame image => exact absurd rfl hdiff
    | addToOutbox msg =>
      unfold StreamConnection.run addToOutbox at hdiff
      dsimp only at hdiff
      split at hdiff
      · exact absurd rfl hdiff
      · exact absurd (hasFailed_writeNextMessage _) hdiff
    | handleWrite error write =>
      cases error with
      | true => exact ⟨write, hq, rfl, hstrand, rfl⟩
      | false => exact absurd (hasFailed_writeNextMessage _) hdiff

theorem staged_init : Staged {} :=
  ⟨⟨Bool.noConfusion, Stage.noConfusion⟩, Stage.noConfusion⟩

theorem staged {as : List Action} (h : exec step {} as = some s) : Staged s :=
  (steps_iff_exec.mpr h).invariant (fun _ _ _ hst _ hs => hst.step hs) staged_init

/-- A viewer that is live and has a handler waiting has written its headers. -/
theorem Live.tracked {h : Handler} (hl : Live s) (hq : s.strand = h :: hs) :
    s.stage ≠ .registered ∧ Tracked s := by
  rcases hl with rfl | ht
  · exact absurd hq (List.cons_ne_nil h hs).symm
  · exact ht

theorem dead_of_failed {as : List Action} (h : Steps step FailsSettled {} as s)
    (hf : s.hasFailed = true) : Dead s := by
  have hinv : Live s ∧ Staged s ∧ (s.hasFailed = true → Dead s) := by
    refine h.invariant (P := fun s => Live s ∧ Staged s ∧ (s.hasFailed = true → Dead s)) ?_
      ⟨.inl rfl, staged_init, Bool.noConfusion⟩
    rintro s a s' ⟨hl, hst, hd⟩ hok hs
    refine ⟨hl.step hs, hst.step hs, ?_⟩
    intro hf'
    cases hf : s.hasFailed with
    | true => exact ((hd hf).step hs).1
    | false =>
      obtain ⟨write, hq, rfl, hstrand, rfl⟩ := fails_cases hs hf hf'
      have hset : Settled s := hok rfl (handlesError_iff.mpr ⟨write, hq, hstrand⟩)
      exact (hl.tracked hstrand).2.dead hst.stored.mp hset hstrand
  exact hinv.2.2 hf

/-- **A failed viewer stays failed**, in every run that handles errors in
settled states: no further write is started and the slot is not connected. -/
theorem stays_failed {as bs : List Action} {t : StreamConnection}
    (h : Steps step FailsSettled {} as s) (hf : s.hasFailed = true)
    (hbs : exec step s bs = some t) : t.log = s.log ∧ t.isConnected = false := by
  obtain ⟨hd, hlog⟩ := (dead_of_failed h hf).reach hbs
  exact ⟨hlog, hd.disconnected⟩

/-- Header and image are written and then the write of a second image fails
with a third behind it. -/
def failsBetweenImages : List Action :=
  [.sendInitialHeaders, .completeWrite 0 false, .returnHeaders, .connectToSignal,
    .storeConnection, .runHandler, .imageReady [1], .imageReady [2], .runHandler, .runHandler,
    .runHandler, .runHandler, .completeWrite 0 true, .imageReady [3], .runHandler]

/-- What is still on its way to the outbox then stays there. -/
theorem stays_failed_between_images :
    ∃ s t, Steps step FailsSettled {} failsBetweenImages s ∧ s.hasFailed = true ∧
      exec step s [.imageReady [4], .runHandler, .runHandler] = some t ∧
      t.log = s.log ∧ t.isConnected = false := by
  have hrun := steps_iff_exec_permit.mpr (show exec (permit step FailsSettled) {}
    failsBetweenImages = some _ from rfl)
  have hstays := fun t (ht : exec step _ [.imageReady [4], .runHandler, .runHandler] = some t) =>
    stays_failed hrun rfl ht
  exact ⟨_, _, hrun, rfl, rfl, hstays _ rfl⟩

/-- The write of the headers fails before the slot is connected. -/
theorem not_stays_failed :
    ¬ ∀ (as bs : List Action) (s t : StreamConnection), exec step {} as = some s →
      s.hasFailed = true → exec step s bs = some t → t.log = s.log ∧ t.isConnected = false := by
  intro h
  have hconn := (h [.sendInitialHeaders, .completeWrite 0 true, .runHandler]
    [.returnHeaders, .connectToSignal] _ _ rfl rfl rfl).2
  exact absurd hconn (by decide)

/-! ### What happens otherwise -/

/-- Some run from here starts a write. -/
def CanWrite (s : StreamConnection) : Prop :=
  ∃ bs t, exec step s bs = some t ∧ t.log ≠ s.log

theorem CanWrite.of_sendFrame {image : Image} (hq : s.strand = .sendFrame image :: hs)
    (h : CanWrite (s.pop.post (.addToOutbox (frame image)))) : CanWrite s := by
  obtain ⟨bs, t, hbs, hlog⟩ := h
  refine ⟨.runHandler :: bs, t, ?_, hlog⟩
  rw [exec, step_runHandler hq, StreamConnection.run, sendFrame_eq]
  exact hbs

/-- `addToOutbox` writes into an empty outbox, whatever images wait before
it. -/
theorem canWrite_of_addToOutbox {msg : FrameToSend} (pre : List Image) :
    ∀ (post : List Handler) (s : StreamConnection),
      s.strand = pre.map .sendFrame ++ .addToOutbox msg :: post → s.outbox = [] → CanWrite s := by
  induction pre with
  | nil =>
    intro post s hq hbox
    refine ⟨[.runHandler], s.pop.addToOutbox msg, ?_, ?_⟩
    · rw [exec, step_runHandler hq]
      rfl
    · rw [addToOutbox_of_nil (s := s.pop) msg hbox]
      show s.log ++ [msg.buffers] ≠ s.log
      simp
  | cons image pre ih =>
    intro post s hq hbox
    refine .of_sendFrame hq (ih (post ++ [.addToOutbox (frame image)]) _ ?_ hbox)
    show s.strand.tail ++ [_] = _
    rw [hq]
    simp

/-- Handlers of which none ends a write and one calls `addToOutbox` begin with
those that send images. -/
theorem exists_addToOutbox (hw : hs.filterMap Handler.write = [])
    (hadd : hs.filterMap Handler.msg ≠ []) :
    ∃ (pre : List Image) (msg : FrameToSend) (post : List Handler),
      hs = pre.map .sendFrame ++ .addToOutbox msg :: post := by
  induction hs with
  | nil => exact absurd rfl hadd
  | cons h hs ih =>
    cases h with
    | handleWrite error write => exact absurd hw (List.cons_ne_nil write _)
    | addToOutbox msg => exact ⟨[], msg, hs, rfl⟩
    | sendFrame image =>
      obtain ⟨pre, msg, post, rfl⟩ := ih hw hadd
      exact ⟨image :: pre, msg, post, rfl⟩

theorem canWrite_of_adding (hbox : s.outbox = []) (hout : s.outstanding = [])
    (hadd : s.adding ≠ []) : CanWrite s := by
  obtain ⟨pre, msg, post, hq⟩ := exists_addToOutbox (List.append_eq_nil_iff.mp hout).2 hadd
  exact canWrite_of_addToOutbox pre post s hq hbox

/-- An image that is on its way to an empty outbox can still be written. -/
theorem canWrite_of_waiting (hbox : s.outbox = []) (hout : s.outstanding = [])
    (hway : ¬ (s.adding = [] ∧ s.sending = [])) : CanWrite s := by
  by_cases hadd : s.adding = []
  · cases hq : s.strand with
    | nil =>
      refine absurd ⟨hadd, ?_⟩ hway
      rw [sending, hq]
      rfl
    | cons h hs =>
      cases h with
      | handleWrite error write =>
        exact absurd (not_handleWrite_of_outstanding hout hq) (Option.some_ne_none write)
      | addToOutbox msg =>
        rw [adding_pop hq] at hadd
        exact absurd hadd (List.cons_ne_nil msg _)
      | sendFrame image =>
        refine .of_sendFrame hq (canWrite_of_adding hbox ?_ ?_)
        · rw [outstanding_post, outstanding_pop hq rfl, hout]
          rfl
        · rw [adding_post]
          exact List.append_ne_nil_of_right_ne_nil _ (List.cons_ne_nil (frame image) [])
  · exact canWrite_of_adding hbox hout hadd

/-- As long as nothing was stored, `start()` goes on to connect the slot. -/
theorem Staged.canConnect (h : Staged s) (hst : s.stage ≠ .registered)
    (hconn : s.hasConnection = false) :
    ∃ bs t, exec StreamConnection.step s bs = some t ∧ t.isConnected = true := by
  cases hstage : s.stage with
  | registered => exact absurd hstage hst
  | sendingHeaders =>
    refine ⟨[.returnHeaders, .connectToSignal],
      { s with stage := .connected, localReply := none, isConnected := true }, ?_, rfl⟩
    simp [exec, StreamConnection.step, hstage]
  | sentHeaders =>
    refine ⟨[.connectToSignal], { s with stage := .connected, isConnected := true }, ?_, rfl⟩
    simp [exec, StreamConnection.step, hstage]
  | connected => exact ⟨[], s, rfl, h.connected hstage⟩
  | started =>
    rw [h.stored.mpr hstage] at hconn
    exact absurd hconn (by decide)

/-- **The condition is exact.**  Wherever an error is handled in a state that
is not settled, the viewer can go on to write or to be connected. -/
theorem fails_to_stop {as : List Action} {t : StreamConnection} (h : exec step {} as = some s)
    (herr : HandlesError s) (hset : ¬ Settled s) (hs : s.step .runHandler = some t) :
    CanWrite t ∨ ∃ bs u, exec step t bs = some u ∧ u.isConnected = true := by
  obtain ⟨write, hq', hq⟩ := handlesError_iff.mp herr
  obtain ⟨hst, written, rest, adds, -, hb⟩ := (live h).tracked hq
  obtain ⟨hb, hout⟩ := busy_of_handleWrite (hb.imp_right And.left) hq
  have hstaged := (staged h).step hs
  obtain rfl : s.pop.handleWrite true = t := by
    rw [step_runHandler hq] at hs
    exact Option.some.inj hs
  cases hconn : s.hasConnection with
  | false => exact .inr (hstaged.canConnect hst hconn)
  | true =>
    have hquiet : ¬ (2 ≤ s.outbox.length ∨ s.adding = [] ∧ s.sending = []) :=
      fun hquiet => hset ⟨hconn, hquiet⟩
    rw [not_or] at hquiet
    refine .inl (canWrite_of_waiting ?_ hout ?_)
    · show s.outbox.tail = []
      rw [← List.length_eq_zero_iff, List.length_tail]
      omega
    · have hsend : s.sending = s.pop.sending := sending_pop hq
      have hadd : s.adding = s.pop.adding := adding_pop hq
      rw [hsend, hadd] at hquiet
      exact hquiet.2

end SecMon.Http.StreamConnection
