import SecMon.Gui.Connection
import SecMon.Gui.Outbox

/-!
# How long buffers last

`Reply::to_buffers` asks that the reply stay valid and unchanged until the
write is complete.  A connection does that (`Connection.safe`): its reply is a
member, and nothing touches it while a write is outstanding.

A viewer does not.  The reply of `sendInitialHeaders` is a local, and the size
in front of each image is a temporary of `sendFrame`, gone before the message
is even in the outbox.  So what is outstanding is safe only while
`sendInitialHeaders` runs (`safe_iff`), and a run is safe throughout exactly if
the headers are written by the time that returns and no image is written at all
(`buffers_outlive_writes_iff`).  Everything else that a viewer refers to does
last (`intact_or_scoped`).
-/

namespace SecMon.Http.StreamConnection

open Machine Buffer

/-- What is in scope at each stage of `start()`, and that no image comes before
the slot is connected. -/
structure Scoped (s : StreamConnection) : Prop where
  localReply : s.localReply = if s.stage = .sendingHeaders then some initialReply else none
  temporaries : s.temporaries = []
  silent : s.stage ≠ .connected → s.stage ≠ .started → s.isConnected = false ∧ s.emitted = []

/-- The branches that keep every buffer: `sendInitialHeaders` returns when its
write is complete, and `addToOutbox` writes nothing. -/
def KeepsBuffers (s : StreamConnection) : Action → Prop
  | .returnHeaders => s.outstanding = []
  | .runHandler => s.strand.head?.bind Handler.msg = none ∨ s.outbox ≠ []
  | _ => True

instance : ∀ s a, Decidable (KeepsBuffers s a)
  | _, .returnHeaders => inferInstanceAs (Decidable (_ = []))
  | _, .runHandler => inferInstanceAs (Decidable (_ ∨ _))
  | _, .sendInitialHeaders | _, .connectToSignal | _, .storeConnection | _, .imageReady _
  | _, .completeWrite _ _ => .isTrue trivial

variable {s s' : StreamConnection} {written rest adds : List Image}

theorem Scoped.not_emitted (h : Scoped s) (hst : s.stage = .sendingHeaders) : s.emitted = [] :=
  (h.silent (by rw [hst]; decide) (by rw [hst]; decide)).2

theorem Scoped.step {a : Action} (h : Scoped s) (hs : s.step a = some s') : Scoped s' := by
  have hloc := h.localReply
  have hsil := h.silent
  cases stepTo_of_step hs with
  | sendInitialHeaders hst | returnHeaders hst =>
    rw [hst] at hsil
    exact ⟨rfl, h.temporaries, fun _ _ => hsil Stage.noConfusion Stage.noConfusion⟩
  | connectToSignal hst =>
    rw [hst] at hloc
    exact ⟨hloc, h.temporaries, fun hne => absurd rfl hne⟩
  | storeConnection hst =>
    rw [hst] at hloc
    exact ⟨hloc, h.temporaries, fun _ hne => absurd rfl hne⟩
  | imageReady bytes =>
    unfold imageReady
    split
    · rename_i hconn
      refine ⟨hloc, h.temporaries, ?_⟩
      intro hc hst
      have hnot := (hsil hc hst).1
      rw [hconn] at hnot
      exact absurd hnot (by decide)
    · exact h
  | completeWrite => exact ⟨hloc, h.temporaries, hsil⟩
  | @runHandler hd hq hstrand =>
    have hfrozen := frozen_pop_run s hd
    refine ⟨?_, hfrozen.temporaries.trans h.temporaries, ?_⟩
    · rw [hfrozen.localReply, hfrozen.stage]
      exact hloc
    · rw [hfrozen.stage, hfrozen.emitted]
      intro hc hst
      refine ⟨?_, (hsil hc hst).2⟩
      rcases isConnected_run s.pop hd with hsame | ⟨-, hoff⟩
      · exact hsame.trans (hsil hc hst).1
      · exact hoff

theorem intact_headerBuffers (h : s.localReply = some initialReply) :
    Intact s.deref headerBuffers := by
  unfold headerBuffers
  rw [intact_mapRef]
  intro b hb
  have hint := intact_toBuffers initialReply b hb
  cases href : b.ref with
  | text bytes =>
    rw [href] at hint
    exact hint
  | name i | value i | content =>
    rw [href] at hint
    unfold Ref.ofReply deref
    rw [h]
    exact hint

theorem not_intact_headerBuffers (h : s.localReply = none) : ¬ Intact s.deref headerBuffers := by
  intro hint
  have hname := hint ⟨.reply (.name 0), ascii "Connection"⟩ (by decide +kernel)
  unfold deref at hname
  rw [h] at hname
  exact absurd hname (by simp)

/-- The size of an image goes with the statement of `sendFrame` that makes
it. -/
theorem not_intact_frameBuffers (h : s.temporaries = []) (image : Image) :
    ¬ Intact s.deref (frameBuffers image) := by
  intro hint
  have hsize := hint ⟨.length image, decimal image.bytes.length⟩ (by simp [frameBuffers])
  unfold deref at hsize
  rw [h] at hsize
  exact absurd hsize (by simp)

/-- **What is outstanding is safe while `sendInitialHeaders` runs**, and at no
other time. -/
theorem safe_iff (ht : Tracked s) (hsc : Scoped s) :
    Safe s ↔ s.outstanding = [] ∨ s.stage = .sendingHeaders := by
  obtain ⟨written, rest, adds, hp, hb⟩ := ht
  unfold Safe
  rcases hb with hb | ⟨hi, -⟩
  · rw [hb.outstanding, List.forall_mem_singleton]
    have hne : [lastWrite written] ≠ [] := List.cons_ne_nil _ _
    rcases List.eq_nil_or_concat written with rfl | ⟨init, image, rfl⟩
    · constructor
      · intro hint
        right
        by_contra hstage
        refine not_intact_headerBuffers ?_ hint
        rw [hsc.localReply, if_neg hstage]
      · rintro (hnil | hstage)
        · exact absurd hnil hne
        · refine intact_headerBuffers ?_
          rw [hsc.localReply, if_pos hstage]
    · constructor
      · intro hint
        rw [List.concat_eq_append, lastWrite_concat] at hint
        exact absurd hint (not_intact_frameBuffers hsc.temporaries image)
      · rintro (hnil | hstage)
        · exact absurd hnil hne
        · have hemitted := hsc.not_emitted hstage
          rw [hp.emitted] at hemitted
          exact absurd hemitted (by simp)
  · rw [hi.outstanding]
    exact ⟨fun _ => .inl rfl, fun _ w hw => absurd hw List.not_mem_nil⟩

theorem Safe.transmits (h : Safe s) {w : Buffers} (hw : w ∈ s.outstanding) :
    transmit s.deref w = some (denote w) :=
  transmit_intact (h w hw)

/-- Constants and images last: only what `sendInitialHeaders` and `sendFrame`
hold themselves can be gone. -/
theorem intact_or_scoped {as : List Action} (h : exec step {} as = some s) :
    ∀ w ∈ s.outstanding, ∀ b ∈ w, s.deref b.ref = some b.bytes ∨
      (∃ r, b.ref = .reply r) ∨ ∃ image, b.ref = .length image := by
  intro w hw b hb
  rcases live h with rfl | ⟨-, written, rest, adds, -, hbusy | ⟨hi, -⟩⟩
  · exact absurd hw List.not_mem_nil
  · rw [hbusy.outstanding, List.mem_singleton] at hw
    subst hw
    rcases List.eq_nil_or_concat written with rfl | ⟨init, image, rfl⟩
    · obtain ⟨c, hc, rfl⟩ := List.mem_map.mp hb
      have hint := intact_toBuffers initialReply c hc
      unfold ConstBuffer.mapRef
      cases href : c.ref with
      | text bytes =>
        rw [href] at hint
        exact .inl hint
      | name i | value i | content => exact .inr (.inl ⟨_, rfl⟩)
    · rw [List.concat_eq_append, lastWrite_concat] at hb
      have hheld : some image ∈ s.outbox.map (·.ptr) := by
        rw [hbusy.outbox, List.concat_eq_append, lastMessage_concat]
        exact List.mem_cons_self
      simp only [frameBuffers, List.mem_cons, List.not_mem_nil, or_false] at hb
      rcases hb with rfl | rfl | rfl | rfl | rfl
      · exact .inl rfl
      · exact .inr (.inr ⟨image, rfl⟩)
      · exact .inl rfl
      · exact .inl rfl
      · exact .inl (if_pos (.inr (.inr hheld)))
  · rw [hi.outstanding] at hw
    exact absurd hw List.not_mem_nil

theorem Tracked.emitted_ne_nil {msg : FrameToSend} {hs : List Handler} (ht : Tracked s)
    (hq : s.strand = .addToOutbox msg :: hs) : s.emitted ≠ [] := by
  obtain ⟨written, rest, adds, hp, -⟩ := ht
  have hadd := hp.adding
  rw [adding_pop hq] at hadd
  intro hnone
  rw [hp.emitted] at hnone
  have hnil : adds = [] := by
    simp only [List.append_eq_nil_iff] at hnone
    exact hnone.1.2
  rw [hnil] at hadd
  exact absurd hadd (List.cons_ne_nil msg _)

/-- What is outstanding after `addToOutbox` where nothing was before. -/
theorem outstanding_addToOutbox {msg : FrameToSend} {hs : List Handler}
    (hq : s.strand = .addToOutbox msg :: hs) (hout : s.outstanding = []) :
    (s.pop.addToOutbox msg).outstanding = [] ↔ s.outbox ≠ [] := by
  have hpop : s.pop.outstanding = [] := (outstanding_pop hq rfl).trans hout
  by_cases hbox : s.outbox = []
  · rw [addToOutbox_of_nil (s := s.pop) msg hbox,
      outstanding_asyncWrite (s := { s.pop with outbox := [msg] }) _ hpop]
    exact ⟨fun hnil => absurd hnil (List.cons_ne_nil _ _), fun hne => absurd hbox hne⟩
  · rw [addToOutbox_of_ne_nil (s := s.pop) msg hbox]
    exact ⟨fun _ => hbox, fun _ => hpop⟩

theorem Tracked.safe_run_iff {h : Handler} {hs : List Handler} (ht : Tracked s) (hsc : Scoped s)
    (hsafe : s.outstanding = [] ∨ s.stage = .sendingHeaders) (hq : s.strand = h :: hs) :
    (s.pop.run h).outstanding = [] ∨ s.stage = .sendingHeaders ↔ KeepsBuffers s .runHandler := by
  have hkeep : KeepsBuffers s .runHandler ↔ h.msg = none ∨ s.outbox ≠ [] := by
    unfold KeepsBuffers
    rw [hq]
    exact Iff.rfl
  rw [hkeep]
  cases h with
  | sendFrame image =>
    refine ⟨fun _ => .inl rfl, fun _ => hsafe.imp_left fun hout => ?_⟩
    rw [run, sendFrame_eq, outstanding_post, outstanding_pop hq rfl, hout]
    rfl
  | addToOutbox msg =>
    have hstage : s.stage ≠ .sendingHeaders :=
      fun hst => ht.emitted_ne_nil hq (hsc.not_emitted hst)
    have hout := hsafe.resolve_right hstage
    rw [run, outstanding_addToOutbox hq hout]
    exact ⟨fun hbox => .inr (hbox.resolve_right hstage),
      fun hbox => .inl (hbox.resolve_left (Option.some_ne_none msg))⟩
  | handleWrite error write =>
    refine ⟨fun _ => .inl rfl, fun _ => .inr (hsafe.resolve_left ?_)⟩
    intro hout
    have hnone := (List.append_eq_nil_iff.mp hout).2
    rw [hq] at hnone
    exact absurd hnone (List.cons_ne_nil write _)

/-- While nothing is outstanding or only the headers are, the next step is safe
exactly if it keeps the buffers. -/
theorem Tracked.safe_step_iff {a : Action} (ht : Tracked s) (hst : s.stage ≠ .registered)
    (hsc : Scoped s) (hsafe : Safe s) (hs : s.step a = some s') :
    Safe s' ↔ KeepsBuffers s a := by
  rw [safe_iff (ht.step hst hs).2 (hsc.step hs)]
  rw [safe_iff ht hsc] at hsafe
  cases stepTo_of_step hs with
  | sendInitialHeaders hreg => exact absurd hreg hst
  | returnHeaders => exact ⟨fun h => h.resolve_right Stage.noConfusion, fun hout => .inl hout⟩
  | connectToSignal hstage | storeConnection hstage =>
    refine ⟨fun _ => trivial, fun _ => .inl (hsafe.resolve_right ?_)⟩
    rw [hstage]
    exact Stage.noConfusion
  | imageReady bytes =>
    refine ⟨fun _ => trivial, fun _ => ?_⟩
    unfold imageReady
    split
    · rw [outstanding_post, show Handler.write (.sendFrame _) = none from rfl]
      exact hsafe.imp_left fun hout => (List.append_nil _).trans hout
    · exact hsafe
  | completeWrite error hw =>
    refine ⟨fun _ => trivial, fun _ => .inr (hsafe.resolve_left ?_)⟩
    intro hout
    have hfly : s.inFlight = [] := (List.append_eq_nil_iff.mp hout).1
    rw [hfly] at hw
    exact absurd hw (by simp)
  | @runHandler h hq hstrand =>
    rw [(frozen_pop_run s h).stage]
    exact ht.safe_run_iff hsc hsafe hstrand

theorem Live.safe_step_iff {a : Action} (hl : Live s) (hsc : Scoped s) (hsafe : Safe s)
    (hs : s.step a = some s') : Safe s' ↔ KeepsBuffers s a := by
  rcases hl with rfl | ⟨hst, ht⟩
  · have hsc' := hsc.step hs
    cases stepTo_of_step hs with
    | sendInitialHeaders =>
      rw [safe_iff tracked_sendInitialHeaders hsc']
      exact ⟨fun _ => trivial, fun _ => .inr rfl⟩
    | imageReady bytes => exact ⟨fun _ => trivial, fun _ => hsafe⟩
    | returnHeaders hst | connectToSignal hst | storeConnection hst => exact absurd hst (by decide)
    | completeWrite error hw => exact absurd hw (by simp)
    | runHandler hq => exact absurd hq (by simp)
  · exact ht.safe_step_iff hst hsc hsafe hs

theorem scoped_init : Scoped {} := ⟨rfl, rfl, fun _ _ => ⟨rfl, rfl⟩⟩

theorem safe_init : Safe {} := fun _ hw => absurd hw List.not_mem_nil

/-- **Buffers and writes.**  In every run of a connection every outstanding
write has its bytes.  A run of a viewer has them throughout exactly if all of
its steps keep the buffers. -/
theorem buffers_outlive_writes_iff {κ : Type} {self : κ} {cs : List (Connection.Action κ)}
    {c : Connection} {as : List Action}
    (hc : exec (Connection.step self) (Connection.start {}) cs = some c)
    (hs : exec step {} as = some s) :
    c.Safe ∧ (Throughout step Safe {} as ↔ Steps step KeepsBuffers {} as s) :=
  ⟨Connection.safe hc, throughout_iff_steps (I := fun s => Live s ∧ Scoped s)
    (fun _ _ _ ⟨hl, hsc⟩ _ _ hs => ⟨hl.step hs, hsc.step hs⟩)
    (fun _ _ _ ⟨hl, hsc⟩ hsafe hs => hl.safe_step_iff hsc hsafe hs)
    ⟨.inl rfl, scoped_init⟩ safe_init hs⟩

/-- A connection answers a bad request; a viewer writes its headers before
`sendInitialHeaders` returns and has no image yet. -/
theorem buffers_outlive_writes_iff_headers :
    ∃ c s, exec (Connection.step ()) (Connection.start {})
        [.handleRead false [0] ⟨⟨ascii "public", {}⟩, fun _ => none⟩] = some c ∧
      exec step {} [.sendInitialHeaders, .completeWrite 0 false, .runHandler, .returnHeaders,
        .connectToSignal, .storeConnection] = some s ∧
      c.Safe ∧ Throughout step Safe {} [.sendInitialHeaders, .completeWrite 0 false, .runHandler,
        .returnHeaders, .connectToSignal, .storeConnection] := by
  have hrun := steps_iff_exec_permit.mpr (show exec (permit step KeepsBuffers) {}
    [.sendInitialHeaders, .completeWrite 0 false, .runHandler, .returnHeaders, .connectToSignal,
      .storeConnection] = some _ from rfl)
  have hiff := fun c (hc : exec (Connection.step ()) (Connection.start {})
      [.handleRead false [0] ⟨⟨ascii "public", {}⟩, fun _ => none⟩] = some c) =>
    buffers_outlive_writes_iff hc (steps_iff_exec.mp (hrun.mono fun _ _ _ => trivial))
  have hboth := hiff _ rfl
  exact ⟨_, _, rfl, rfl, hboth.1, hboth.2.mpr hrun⟩

/-- `sendInitialHeaders` returns while the headers are being written; and with
the headers written in time, the first image is written after the string of its
size is gone. -/
theorem not_buffers_outlive_writes :
    (∃ s, exec step {} [.sendInitialHeaders, .returnHeaders] = some s ∧ ¬ Safe s) ∧
      ∃ s, exec step {} [.sendInitialHeaders, .completeWrite 0 false, .runHandler, .returnHeaders,
        .connectToSignal, .storeConnection, .imageReady [1], .runHandler, .runHandler] = some s ∧
        ¬ Safe s := by
  refine ⟨⟨_, rfl, ?_⟩, ⟨_, rfl, ?_⟩⟩
  · intro hsafe
    exact not_intact_headerBuffers rfl (hsafe headerBuffers (by decide +kernel))
  · intro hsafe
    exact not_intact_frameBuffers rfl ⟨0, [1]⟩ (hsafe _ (by decide +kernel))

end SecMon.Http.StreamConnection
