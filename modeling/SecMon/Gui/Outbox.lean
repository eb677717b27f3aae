import Mathlib.Data.List.Nodup
import SecMon.Gui.StreamConnection

/-!
# The outbox of a viewer

Every image that was emitted is at one of four places: its write was started,
or it waits in the outbox, for `addToOutbox`, or for `sendFrame`, and read in
this order the places give the order of emission (`Tracked`).

The first message of the outbox is the one that is being written, but only as
long as a write is outstanding: `handle_write` with an error leaves the rest of
the outbox where it is.  So `Tracked` tells the two cases apart, and they agree
with the test `outbox_.size() > 1` as long as nothing failed.
-/

namespace SecMon.Http.StreamConnection

open Machine Buffer

/-- The message of the write that was started last; the first is a dummy. -/
def lastMessage (written : List Image) : FrameToSend := (written.getLast?.map frame).getD {}

/-- The write that was started last; the first is that of the headers. -/
def lastWrite (written : List Image) : Buffers :=
  (written.getLast?.map frameBuffers).getD headerBuffers

/-- A write is outstanding, and its message is the first of the outbox. -/
structure Busy (s : StreamConnection) (written rest : List Image) : Prop where
  outstanding : s.outstanding = [lastWrite written]
  outbox : s.outbox = lastMessage written :: rest.map frame

/-- No write is outstanding. -/
structure Idle (s : StreamConnection) (rest : List Image) : Prop where
  outstanding : s.outstanding = []
  outbox : s.outbox = rest.map frame

/-- Where the images are: written, in the outbox and not being written, or on
their way to it. -/
structure Placed (s : StreamConnection) (written rest adds : List Image) : Prop where
  log : s.log = headerBuffers :: written.map frameBuffers
  adding : s.adding = adds.map frame
  emitted : s.emitted = written ++ rest ++ adds ++ s.sending

/-- What every run of a viewer keeps once it has written its headers. -/
def Tracked (s : StreamConnection) : Prop :=
  ∃ written rest adds, Placed s written rest adds ∧
    (Busy s written rest ∨ Idle s rest ∧ (s.hasFailed = false → rest = []))

variable {s s' : StreamConnection} {written rest adds : List Image}

@[simp] theorem lastMessage_concat (written : List Image) (image : Image) :
    lastMessage (written ++ [image]) = frame image := by
  unfold lastMessage
  rw [List.getLast?_concat]
  rfl

@[simp] theorem lastWrite_concat (written : List Image) (image : Image) :
    lastWrite (written ++ [image]) = frameBuffers image := by
  unfold lastWrite
  rw [List.getLast?_concat]
  rfl

@[simp] theorem outstanding_asyncWrite (buffers : Buffers) (hout : s.outstanding = []) :
    (s.asyncWrite buffers).outstanding = [buffers] := by
  unfold outstanding at hout
  obtain ⟨hfly, hdone⟩ := List.append_eq_nil_iff.mp hout
  unfold outstanding asyncWrite
  simp only [hfly, hdone, List.nil_append, List.append_nil]

theorem tracked_sendInitialHeaders : Tracked (sendInitialHeaders {}) := by
  refine ⟨[], [], [], ⟨rfl, rfl, rfl⟩, .inl ⟨rfl, rfl⟩⟩

/-- A write may start where none is outstanding; its message is first then. -/
theorem Placed.asyncWrite {image : Image} (hp : Placed s written (image :: rest) adds)
    (hi : Idle s (image :: rest)) : Tracked (s.asyncWrite (frameBuffers image)) := by
  refine ⟨written ++ [image], rest, adds, ⟨?_, hp.adding, ?_⟩, .inl ⟨?_, ?_⟩⟩
  · show s.log ++ [frameBuffers image] = _
    rw [hp.log, List.map_append]
    rfl
  · show s.emitted = _ ++ s.sending
    rw [hp.emitted]
    simp
  · rw [outstanding_asyncWrite _ hi.outstanding, lastWrite_concat]
  · rw [lastMessage_concat]
    exact hi.outbox

theorem tracked_imageReady (bytes : Bytes) (h : Tracked s) : Tracked (s.imageReady bytes) := by
  unfold imageReady
  split
  · obtain ⟨written, rest, adds, hp, hb⟩ := h
    refine ⟨written, rest, adds, ⟨hp.log, ?_, ?_⟩, ?_⟩
    · rw [adding_post]
      exact (List.append_nil _).trans hp.adding
    · rw [sending_post]
      show s.emitted ++ _ = _ ++ (s.sending ++ _)
      rw [hp.emitted]
      simp [Handler.image]
    · rcases hb with hb | ⟨hi, hfail⟩
      · left
        refine ⟨?_, hb.outbox⟩
        rw [outstanding_post]
        exact (List.append_nil _).trans hb.outstanding
      · right
        refine ⟨⟨?_, hi.outbox⟩, hfail⟩
        rw [outstanding_post]
        exact (List.append_nil _).trans hi.outstanding
  · exact h

theorem tracked_completeWrite {i : Nat} {error : Bool} {write : Buffers} (h : Tracked s)
    (hw : s.inFlight[i]? = some write) :
    Tracked ({ s with inFlight := s.inFlight.eraseIdx i }.post (.handleWrite error write)) := by
  obtain ⟨written, rest, adds, hp, hb⟩ := h
  have hmem : write ∈ s.inFlight := List.mem_of_getElem? hw
  have hb : Busy s written rest := by
    rcases hb with hb | ⟨hi, -⟩
    · exact hb
    · have hnil : s.inFlight = [] := (List.append_eq_nil_iff.mp hi.outstanding).1
      rw [hnil] at hmem
      exact absurd hmem List.not_mem_nil
  -- the only outstanding write is the one that ends
  obtain ⟨hfly, -⟩ | ⟨hfly, hdone⟩ := List.append_eq_singleton_iff.mp hb.outstanding
  · rw [hfly] at hmem
    exact absurd hmem List.not_mem_nil
  · rw [hfly, List.mem_singleton] at hmem
    obtain rfl : i = 0 := by
      have hlt := (List.getElem?_eq_some_iff.mp hw).1
      rw [hfly, List.length_singleton] at hlt
      omega
    refine ⟨written, rest, adds, ⟨hp.log, ?_, ?_⟩, .inl ⟨?_, hb.outbox⟩⟩
    · rw [adding_post]
      exact (List.append_nil _).trans hp.adding
    · rw [sending_post]
      show s.emitted = _ ++ (s.sending ++ [])
      rw [List.append_nil]
      exact hp.emitted
    · rw [outstanding_post]
      show s.inFlight.eraseIdx 0 ++ s.strand.filterMap Handler.write ++ [write] = _
      rw [hfly, hdone, hmem]
      rfl

theorem tracked_sendFrame {image : Image} {hs : List Handler} (h : Tracked s)
    (hq : s.strand = .sendFrame image :: hs) : Tracked (s.pop.sendFrame image) := by
  obtain ⟨written, rest, adds, hp, hb⟩ := h
  have hout : (s.pop.post (.addToOutbox (frame image))).outstanding = s.outstanding := by
    rw [outstanding_post, outstanding_pop hq rfl]
    exact List.append_nil _
  have hadd : s.adding = s.pop.adding := adding_pop hq
  rw [sendFrame_eq]
  refine ⟨written, rest, adds ++ [image], ⟨hp.log, ?_, ?_⟩, ?_⟩
  · rw [adding_post, ← hadd, hp.adding, List.map_append]
    rfl
  · rw [sending_post]
    show s.emitted = _ ++ (s.pop.sending ++ [])
    rw [hp.emitted, sending_pop hq]
    simp [Handler.image]
  · rcases hb with hb | ⟨hi, hfail⟩
    · exact .inl ⟨hout.trans hb.outstanding, hb.outbox⟩
    · exact .inr ⟨⟨hout.trans hi.outstanding, hi.outbox⟩, hfail⟩

theorem tracked_addToOutbox {msg : FrameToSend} {hs : List Handler} (h : Tracked s)
    (hq : s.strand = .addToOutbox msg :: hs) : Tracked (s.pop.addToOutbox msg) := by
  obtain ⟨written, rest, adds, hp, hb⟩ := h
  have hadd := hp.adding
  rw [adding_pop hq] at hadd
  cases adds with
  | nil => exact absurd hadd (by simp [Handler.msg])
  | cons image adds =>
    obtain ⟨rfl, hrest⟩ := List.cons_eq_cons.mp hadd
    have hout : s.pop.outstanding = s.outstanding := outstanding_pop hq rfl
    -- the state between the push and the test
    have hplaced : Placed { s.pop with outbox := s.outbox ++ [frame image] } written
        (rest ++ [image]) adds := by
      refine ⟨hp.log, hrest, ?_⟩
      show s.emitted = _ ++ s.pop.sending
      rw [hp.emitted, sending_pop hq]
      simp [Handler.image]
    rcases hb with hb | ⟨hi, hfail⟩
    · rw [addToOutbox_of_ne_nil _ (by rw [show s.pop.outbox = _ from hb.outbox]; simp)]
      refine ⟨written, rest ++ [image], adds, hplaced, .inl ⟨hout.trans hb.outstanding, ?_⟩⟩
      show s.outbox ++ [frame image] = _
      rw [hb.outbox]
      simp
    · cases rest with
      | nil =>
        have hbox : s.outbox = [] := hi.outbox
        rw [hbox] at hplaced
        rw [addToOutbox_of_nil (s := s.pop) _ hbox]
        exact hplaced.asyncWrite ⟨hout.trans hi.outstanding, rfl⟩
      | cons r rest =>
        rw [addToOutbox_of_ne_nil _ (by rw [show s.pop.outbox = _ from hi.outbox]; simp)]
        refine ⟨written, r :: rest ++ [image], adds, hplaced, .inr ⟨⟨hout.trans hi.outstanding, ?_⟩,
          fun hf => absurd (hfail hf) (List.cons_ne_nil r rest)⟩⟩
        show s.outbox ++ [frame image] = _
        rw [hi.outbox, List.map_append]
        rfl

theorem busy_of_handleWrite {error : Bool} {write : Buffers} {hs : List Handler}
    (hb : Busy s written rest ∨ Idle s rest) (hq : s.strand = .handleWrite error write :: hs) :
    Busy s written rest ∧ s.pop.outstanding = [] := by
  have hout : s.outstanding = s.inFlight ++ write :: s.pop.strand.filterMap Handler.write := by
    unfold outstanding pop
    rw [hq]
    rfl
  rcases hb with hb | hi
  · refine ⟨hb, ?_⟩
    have hone := hb.outstanding
    rw [hout] at hone
    obtain ⟨hfly, hdone⟩ | ⟨-, hdone⟩ := List.append_eq_singleton_iff.mp hone
    · show s.inFlight ++ s.pop.strand.filterMap Handler.write = []
      rw [hfly, (List.cons_eq_cons.mp hdone).2]
      rfl
    · exact absurd hdone (by simp)
  · have hnone := hi.outstanding
    rw [hout] at hnone
    exact absurd hnone (by simp)

theorem tracked_handleWrite {error : Bool} {write : Buffers} {hs : List Handler} (h : Tracked s)
    (hq : s.strand = .handleWrite error write :: hs) : Tracked (s.pop.handleWrite error) := by
  obtain ⟨written, rest, adds, hp, hb⟩ := h
  obtain ⟨hb, hout⟩ := busy_of_handleWrite (hb.imp_right And.left) hq
  -- the state after `pop_front`
  let t : StreamConnection := { s.pop with outbox := s.outbox.tail }
  have hpt : Placed t written rest adds := by
    refine ⟨hp.log, ?_, ?_⟩
    · rw [← hp.adding]
      exact (adding_pop hq).symm
    · show s.emitted = _ ++ s.pop.sending
      rw [hp.emitted, sending_pop hq]
      rfl
  have hit : Idle t rest := by
    refine ⟨hout, ?_⟩
    show s.outbox.tail = _
    rw [hb.outbox]
    rfl
  have hrun : s.pop.handleWrite error = if error then t.disconnect else t.writeNextMessage := rfl
  rw [hrun]
  cases error with
  | true =>
    refine ⟨written, rest, adds, ⟨hpt.log, hpt.adding, hpt.emitted⟩,
      .inr ⟨⟨hit.outstanding, hit.outbox⟩, ?_⟩⟩
    intro hf
    exact absurd hf (by simp [disconnect])
  | false =>
    cases rest with
    | nil =>
      have hw : t.writeNextMessage = t := by
        unfold writeNextMessage
        rw [hit.outbox]
        rfl
      rw [if_neg (by simp), hw]
      exact ⟨written, [], adds, hpt, .inr ⟨hit, fun _ => rfl⟩⟩
    | cons image rest =>
      have hw : t.writeNextMessage = t.asyncWrite (frameBuffers image) := by
        unfold writeNextMessage
        rw [hit.outbox]
        rfl
      rw [if_neg (by simp), hw]
      exact hpt.asyncWrite hit

/-- What a viewer is before it has written its headers, or what it keeps from
then on. -/
def Live (s : StreamConnection) : Prop := s = {} ∨ s.stage ≠ .registered ∧ Tracked s

theorem Tracked.step {a : Action} (h : Tracked s) (hst : s.stage ≠ .registered)
    (hs : s.step a = some s') : s'.stage ≠ .registered ∧ Tracked s' := by
  cases stepTo_of_step hs with
  | sendInitialHeaders hreg => exact absurd hreg hst
  | returnHeaders | connectToSignal | storeConnection =>
    obtain ⟨written, rest, adds, hp, hb⟩ := h
    refine ⟨Stage.noConfusion, written, rest, adds, ⟨hp.log, hp.adding, hp.emitted⟩, ?_⟩
    rcases hb with hb | ⟨hi, hfail⟩
    · exact .inl ⟨hb.outstanding, hb.outbox⟩
    · exact .inr ⟨⟨hi.outstanding, hi.outbox⟩, hfail⟩
  | imageReady bytes =>
    refine ⟨?_, tracked_imageReady bytes h⟩
    unfold imageReady
    split <;> exact hst
  | completeWrite error hw => exact ⟨hst, tracked_completeWrite h hw⟩
  | @runHandler hd hq hstrand =>
    refine ⟨by rw [(frozen_pop_run s hd).stage]; exact hst, ?_⟩
    cases hd with
    | sendFrame image => exact tracked_sendFrame h hstrand
    | addToOutbox msg => exact tracked_addToOutbox h hstrand
    | handleWrite error write => exact tracked_handleWrite h hstrand

theorem Live.step {a : Action} (h : Live s) (hs : s.step a = some s') : Live s' := by
  rcases h with rfl | ⟨hst, ht⟩
  · cases stepTo_of_step hs with
    | sendInitialHeaders => exact .inr ⟨Stage.noConfusion, tracked_sendInitialHeaders⟩
    | imageReady bytes => exact .inl rfl
    | returnHeaders hst | connectToSignal hst | storeConnection hst => exact absurd hst (by decide)
    | completeWrite error hw => exact absurd hw (by simp)
    | runHandler hq => exact absurd hq (by simp)
  · exact .inr (ht.step hst hs)

theorem live {as : List Action} (h : exec step {} as = some s) : Live s :=
  (steps_iff_exec.mpr h).invariant (fun _ _ _ hl _ hs => hl.step hs) (.inl rfl)

theorem numbered_step {a : Action} (h : s.emitted.map (·.id) = List.range s.emitted.length)
    (hs : s.step a = some s') : s'.emitted.map (·.id) = List.range s'.emitted.length := by
  cases stepTo_of_step hs with
  | sendInitialHeaders | returnHeaders | connectToSignal | storeConnection | completeWrite =>
    exact h
  | imageReady bytes =>
    unfold imageReady
    split
    · show (s.emitted ++ [_]).map _ = List.range (s.emitted ++ [_]).length
      rw [List.map_append, h, List.length_append, List.length_singleton, List.range_succ]
      rfl
    · exact h
  | @runHandler hd hq hstrand =>
    rw [(frozen_pop_run s hd).emitted]
    exact h

theorem nodup_emitted {as : List Action} (h : exec step {} as = some s) : s.emitted.Nodup := by
  have hnum : s.emitted.map (·.id) = List.range s.emitted.length :=
    (steps_iff_exec.mpr h).invariant (fun _ _ _ hn _ hs => numbered_step hn hs) rfl
  refine List.Nodup.of_map (·.id) ?_
  rw [hnum]
  exact List.nodup_range

theorem frameBuffers_injective {i j : Image} (h : frameBuffers i = frameBuffers j) : i = j := by
  simp only [frameBuffers, List.cons.injEq, ConstBuffer.mk.injEq, Ref.length.injEq] at h
  exact h.2.1.1

theorem headerBuffers_ne_frameBuffers (image : Image) : headerBuffers ≠ frameBuffers image := by
  intro h
  have hlen : headerBuffers.length = 5 := congrArg List.length h
  exact absurd hlen (by decide)

theorem nodup_log {written : List Image} (h : written.Nodup) :
    (headerBuffers :: written.map frameBuffers).Nodup := by
  rw [List.nodup_cons]
  refine ⟨?_, h.map fun i j hij => frameBuffers_injective hij⟩
  intro hmem
  obtain ⟨image, -, himage⟩ := List.mem_map.mp hmem
  exact headerBuffers_ne_frameBuffers image himage.symm

theorem filterMap_ptr_frame (images : List Image) :
    (images.map frame).filterMap (·.ptr) = images := by
  rw [List.filterMap_map]
  exact List.filterMap_some

/-- **The outbox protocol of a viewer.**  As long as no write has failed, one
write is outstanding while the outbox holds something and none while it is
empty.  What was written is the headers and then images in the order of their
emission, no write twice; every other image still waits, in that order, in the
outbox behind the message being written, for `addToOutbox` or for
`sendFrame`. -/
theorem outbox_protocol {as : List Action} (h : exec step {} as = some s)
    (hok : s.hasFailed = false) :
    s.outstanding.length = (if s.outbox = [] then 0 else 1) ∧ s.log.Nodup ∧
      ∃ written,
        s.log = (if s.stage = .registered then [] else headerBuffers :: written.map frameBuffers) ∧
        s.emitted = written ++ s.outbox.tail.filterMap (·.ptr) ++ s.adding.filterMap (·.ptr) ++
          s.sending := by
  have hnodup := nodup_emitted h
  rcases live h with rfl | ⟨hst, written, rest, adds, hp, hb⟩
  · exact ⟨rfl, List.nodup_nil, [], rfl, rfl⟩
  · have hwritten : written.Nodup := by
      rw [hp.emitted, List.append_assoc, List.append_assoc] at hnodup
      exact hnodup.of_append_left
    have htail : s.outbox.tail = rest.map frame := by
      rcases hb with hb | ⟨hi, hrest⟩
      · rw [hb.outbox, List.tail_cons]
      · rw [hi.outbox, hrest hok]
        rfl
    refine ⟨?_, ?_, written, ?_, ?_⟩
    · rcases hb with hb | ⟨hi, hrest⟩
      · rw [hb.outstanding, hb.outbox]
        rfl
      · rw [hi.outstanding, hi.outbox, hrest hok]
        rfl
    · rw [hp.log]
      exact nodup_log hwritten
    · rw [if_neg hst, hp.log]
    · rw [htail, hp.adding, filterMap_ptr_frame, filterMap_ptr_frame]
      exact hp.emitted

/-- Two images: the first is being written and the second waits behind it. -/
def twoImages : List Action :=
  [.sendInitialHeaders, .returnHeaders, .connectToSignal, .storeConnection, .imageReady [1],
    .completeWrite 0 false, .imageReady [2], .runHandler, .runHandler, .runHandler, .runHandler,
    .runHandler]

theorem outbox_protocol_two_images :
    ∃ s, exec step {} twoImages = some s ∧ s.hasFailed = false ∧ s.outbox.length = 2 ∧
      s.outstanding.length = 1 := by
  obtain ⟨s, hs, hok, hlen⟩ : ∃ s, exec step {} twoImages = some s ∧ s.hasFailed = false ∧
      s.outbox.length = 2 := ⟨_, rfl, rfl, rfl⟩
  have hone := (outbox_protocol hs hok).1
  rw [if_neg (by rw [← List.length_eq_zero_iff]; omega)] at hone
  exact ⟨s, hs, hok, hlen, hone⟩

end SecMon.Http.StreamConnection
