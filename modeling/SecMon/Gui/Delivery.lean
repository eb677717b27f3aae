import SecMon.Core.Progress
import SecMon.Gui.Outbox

/-!
# Images arrive

`Outbox` says where the images of a viewer are; here they do not stay there.
An image takes two turns on the strand (`sendFrame`, `addToOutbox`) and then
waits in the outbox until everything before it is written, each message taking
a turn of the socket and one of the strand.  The strand is a queue, so a
handler comes up however many are posted behind it (`comes_up`), and each
message that is written brings the image nearer to the front (`comes_nearer`).

The run is one without end, images may be emitted in it at any time, and it is
fair to two parties, the strand and the socket.
-/

namespace SecMon.Http.StreamConnection

open Machine

variable {s s' : StreamConnection} {a : Action} {image : Image} {d n : Nat}

/-! ### What a step does to the queues -/

theorem strand_writeNextMessage (s : StreamConnection) : s.writeNextMessage.strand = s.strand := by
  unfold writeNextMessage
  split <;> rfl

theorem outbox_writeNextMessage (s : StreamConnection) : s.writeNextMessage.outbox = s.outbox := by
  unfold writeNextMessage
  split <;> rfl

theorem inFlight_writeNextMessage (s : StreamConnection) :
    ∃ l, s.writeNextMessage.inFlight = s.inFlight ++ l := by
  unfold writeNextMessage
  split
  · exact ⟨[], (List.append_nil _).symm⟩
  · exact ⟨_, rfl⟩

theorem log_writeNextMessage (s : StreamConnection) : ∃ l, s.writeNextMessage.log = s.log ++ l := by
  unfold writeNextMessage
  split
  · exact ⟨[], (List.append_nil _).symm⟩
  · exact ⟨_, rfl⟩

theorem strand_run (s : StreamConnection) (h : Handler) : ∃ l, (s.run h).strand = s.strand ++ l := by
  cases h with
  | sendFrame image => exact ⟨[.addToOutbox (frame image)], rfl⟩
  | addToOutbox msg =>
    refine ⟨[], ?_⟩
    rw [run, addToOutbox, List.append_nil]
    split
    · rfl
    · exact strand_writeNextMessage _
  | handleWrite error write =>
    refine ⟨[], ?_⟩
    rw [run, handleWrite, List.append_nil]
    split
    · rfl
    · exact strand_writeNextMessage _

/-- A handler appends to the outbox, if it is not `handle_write`. -/
theorem outbox_run (s : StreamConnection) {h : Handler} (hw : h.write = none) :
    ∃ l, (s.run h).outbox = s.outbox ++ l := by
  cases h with
  | sendFrame image => exact ⟨[], (List.append_nil _).symm⟩
  | addToOutbox msg =>
    refine ⟨[msg], ?_⟩
    rw [run, addToOutbox]
    split
    · rfl
    · exact outbox_writeNextMessage _
  | handleWrite error write => exact absurd hw (Option.some_ne_none write)

theorem outbox_handleWrite (s : StreamConnection) (error : Bool) :
    (s.handleWrite error).outbox = s.outbox.tail := by
  cases error with
  | true => rfl
  | false => exact outbox_writeNextMessage _

theorem inFlight_run (s : StreamConnection) (h : Handler) :
    ∃ l, (s.run h).inFlight = s.inFlight ++ l := by
  cases h with
  | sendFrame image => exact ⟨[], (List.append_nil _).symm⟩
  | addToOutbox msg =>
    rw [run, addToOutbox]
    split
    · exact ⟨[], (List.append_nil _).symm⟩
    · exact inFlight_writeNextMessage _
  | handleWrite error write =>
    rw [run, handleWrite]
    split
    · exact ⟨[], (List.append_nil _).symm⟩
    · exact inFlight_writeNextMessage _

/-- **The strand is a queue.** -/
theorem strand_step (hs : s.step a = some s') :
    (a ≠ .runHandler ∧ ∃ l, s'.strand = s.strand ++ l) ∨
      ∃ h rest l, s.strand = h :: rest ∧ s' = s.pop.run h ∧ s'.strand = rest ++ l := by
  cases stepTo_of_step hs with
  | sendInitialHeaders | returnHeaders | connectToSignal | storeConnection =>
    exact .inl ⟨Action.noConfusion, [], (List.append_nil _).symm⟩
  | imageReady bytes =>
    refine .inl ⟨Action.noConfusion, ?_⟩
    rw [imageReady]
    split
    · exact ⟨_, rfl⟩
    · exact ⟨[], (List.append_nil _).symm⟩
  | completeWrite error hw => exact .inl ⟨Action.noConfusion, _, rfl⟩
  | @runHandler h rest hq =>
    obtain ⟨l, hl⟩ := strand_run s.pop h
    refine .inr ⟨h, rest, l, hq, rfl, hl.trans ?_⟩
    rw [pop, hq]
    rfl

/-- Nothing but `handle_write` takes a message out of the outbox. -/
theorem outbox_step (hs : s.step a = some s') :
    (∃ l, s'.outbox = s.outbox ++ l) ∨ ∃ error write rest,
      s.strand = .handleWrite error write :: rest ∧ s' = s.pop.handleWrite error := by
  cases stepTo_of_step hs with
  | sendInitialHeaders => exact .inl ⟨_, rfl⟩
  | returnHeaders | connectToSignal | storeConnection | completeWrite =>
    exact .inl ⟨[], (List.append_nil _).symm⟩
  | imageReady bytes =>
    refine .inl ⟨[], ?_⟩
    rw [imageReady, List.append_nil]
    split <;> rfl
  | @runHandler h rest hq =>
    cases h with
    | sendFrame image => exact .inl (outbox_run s.pop rfl)
    | addToOutbox msg => exact .inl (outbox_run s.pop rfl)
    | handleWrite error write => exact .inr ⟨error, write, rest, hq, rfl⟩

/-- A write that the socket works on ends with its `handle_write` on the strand. -/
theorem inFlight_step (hs : s.step a = some s') :
    ((∀ i error, a ≠ .completeWrite i error) ∧ ∃ l, s'.inFlight = s.inFlight ++ l) ∨
      ∃ error write, .handleWrite error write ∈ s'.strand := by
  cases stepTo_of_step hs with
  | sendInitialHeaders => exact .inl ⟨fun _ _ => Action.noConfusion, _, rfl⟩
  | returnHeaders | connectToSignal | storeConnection =>
    exact .inl ⟨fun _ _ => Action.noConfusion, [], (List.append_nil _).symm⟩
  | imageReady bytes =>
    refine .inl ⟨fun _ _ => Action.noConfusion, [], ?_⟩
    rw [imageReady, List.append_nil]
    split <;> rfl
  | completeWrite error hw =>
    exact .inr ⟨error, _, List.mem_append_right _ (List.mem_singleton_self _)⟩
  | @runHandler h rest hq => exact .inl ⟨fun _ _ => Action.noConfusion, inFlight_run s.pop h⟩

/-! ### The front of the outbox -/

/-- What every run keeps: the images are where `Outbox` says, and they are
numbered. -/
structure Delivering (s : StreamConnection) : Prop where
  live : Live s
  numbered : s.emitted.map (·.id) = List.range s.emitted.length

theorem Delivering.step (h : Delivering s) (hs : s.step a = some s') : Delivering s' :=
  ⟨h.live.step hs, numbered_step h.numbered hs⟩

theorem Delivering.nodup (h : Delivering s) : s.emitted.Nodup := by
  refine List.Nodup.of_map (·.id) ?_
  rw [h.numbered]
  exact List.nodup_range

/-- The image is in the outbox, and `d` messages are before it. -/
structure Ahead (image : Image) (d : Nat) (s : StreamConnection) : Prop where
  mem : frame image ∈ s.outbox
  idxOf : s.outbox.idxOf (frame image) = d

/-- The write of the image was started and has ended. -/
def Done (image : Image) (s : StreamConnection) : Prop :=
  frameBuffers image ∈ s.log ∧ frame image ∉ s.outbox

/-- The viewer has failed, or the image is written, or fewer than `d` messages
are before it. -/
def Nearer (image : Image) (d : Nat) (s : StreamConnection) : Prop :=
  s.hasFailed = true ∨ Done image s ∨ ∃ k < d, Ahead image k s

theorem frame_injective {i j : Image} (h : frame i = frame j) : i = j :=
  Option.some.inj (congrArg FrameToSend.ptr h)

theorem mem_of_lastMessage {written : List Image} (h : lastMessage written = frame image) :
    image ∈ written := by
  rw [lastMessage] at h
  cases hlast : written.getLast? with
  | none =>
    rw [hlast] at h
    exact absurd (congrArg FrameToSend.ptr h) (Option.some_ne_none image).symm
  | some j =>
    rw [hlast] at h
    exact frame_injective h ▸ List.mem_of_getLast? hlast

/-- As long as nothing failed, a message in the outbox means a write. -/
theorem Delivering.busy (h : Delivering s) (hok : s.hasFailed = false) (hbox : s.outbox ≠ []) :
    ∃ written rest adds, Placed s written rest adds ∧ Busy s written rest := by
  rcases h.live with rfl | ⟨-, written, rest, adds, hp, hb | ⟨hi, hrest⟩⟩
  · exact absurd rfl hbox
  · exact ⟨written, rest, adds, hp, hb⟩
  · rw [hi.outbox, hrest hok] at hbox
    exact absurd rfl hbox

/-- **A write that ends brings the image nearer.** -/
theorem Ahead.handleWrite (h : Ahead image d s) (hd : Delivering s) (hok : s.hasFailed = false)
    (error : Bool) : Nearer image d (s.pop.handleWrite error) := by
  cases error with
  | true => exact .inl rfl
  | false =>
    right
    obtain ⟨written, rest, adds, hp, hb⟩ := hd.busy hok (List.ne_nil_of_mem h.mem)
    have hbox : (s.pop.handleWrite false).outbox = rest.map frame := by
      rw [outbox_handleWrite]
      show s.outbox.tail = _
      rw [hb.outbox, List.tail_cons]
    by_cases hlast : lastMessage written = frame image
    · have hmem := mem_of_lastMessage hlast
      refine .inl ⟨?_, ?_⟩
      · obtain ⟨l, hl⟩ := log_writeNextMessage { s.pop with outbox := s.pop.outbox.tail }
        have hlog : (s.pop.handleWrite false).log = s.log ++ l := hl
        rw [hlog, hp.log]
        exact List.mem_append_left _ (List.mem_cons_of_mem _ (List.mem_map_of_mem hmem))
      · -- it is not in the outbox twice
        intro hbehind
        rw [hbox] at hbehind
        obtain ⟨j, hj, hframe⟩ := List.mem_map.mp hbehind
        obtain rfl := frame_injective hframe
        have hnodup := hd.nodup
        rw [hp.emitted, List.append_assoc, List.append_assoc] at hnodup
        exact (List.nodup_append.mp hnodup).2.2 j hmem j (List.mem_append_left _ hj) rfl
    · refine .inr ⟨_, ?_, ?_, rfl⟩
      · rw [hbox, ← h.idxOf, hb.outbox, List.idxOf_cons_ne _ hlast]
        exact Nat.lt_succ_self _
      · rw [hbox]
        have hmem := h.mem
        rw [hb.outbox] at hmem
        exact (List.mem_cons.mp hmem).resolve_left fun heq => hlast heq.symm

theorem Ahead.step (h : Ahead image d s) (hd : Delivering s) (hok : s.hasFailed = false)
    (hs : s.step a = some s') : Nearer image d s' ∨ Ahead image d s' := by
  rcases outbox_step hs with ⟨l, hl⟩ | ⟨error, write, rest, -, rfl⟩
  · refine .inr ⟨?_, ?_⟩
    · rw [hl]
      exact List.mem_append_left _ h.mem
    · rw [hl, List.idxOf_append_of_mem h.mem]
      exact h.idxOf
  · exact .inl (h.handleWrite hd hok error)

/-! ### Fair runs -/

/-- Who has to act for an image to arrive. -/
inductive Party
  | strand
  | socket

/-- The party has something to do. -/
def Party.busy : Party → StreamConnection → Prop
  | .strand, s => s.strand ≠ []
  | .socket, s => s.inFlight ≠ []

def Party.acts : Party → Action → Prop
  | .strand, a => a = .runHandler
  | .socket, a => ∃ i error, a = .completeWrite i error

variable {ρ : Nat → StreamConnection} {act : Nat → Action} {K Q : StreamConnection → Prop}

/-- **A handler comes up.**  What holds while it waits, and what it does, is
for the caller to say. -/
theorem comes_up (hrun : Endless step anyStep ρ act) (hfair : Fair Party.busy Party.acts ρ act)
    (hd : ∀ n, Delivering (ρ n)) {x : Handler}
    (hkeep : ∀ s a s', Delivering s → K s → s.step a = some s' → Q s' ∨ K s')
    (hdone : ∀ s, Delivering s → K s → s.strand.head? = some x → Q (s.pop.run x))
    (hx : x ∈ (ρ n).strand) (hK : K (ρ n)) : ∃ m, n ≤ m ∧ Q (ρ m) := by
  refine hrun.response hfair .strand (P := fun s => x ∈ s.strand ∧ K s) (Q := Q)
    (fun s => s.strand.idxOf x) hd ?_ ?_ ⟨hx, hK⟩
  · rintro s - ⟨hmem, -⟩
    exact List.ne_nil_of_mem hmem
  · rintro s a s' hs - ⟨hmem, hK⟩ hstep
    rcases hkeep s a s' hs hK hstep with hQ | hK'
    · exact .inl hQ
    rcases strand_step hstep with ⟨hne, l, hl⟩ | ⟨h, rest, l, hq, rfl, hl⟩
    · refine .inr ⟨⟨?_, hK'⟩, ?_, fun ha => absurd ha hne⟩
      · rw [hl]
        exact List.mem_append_left _ hmem
      · rw [hl, List.idxOf_append_of_mem hmem]
    · by_cases hh : h = x
      · subst hh
        exact .inl (hdone s hs hK (by rw [hq]; rfl))
      · -- one handler fewer is before it
        have hmem' : x ∈ rest := by
          rw [hq] at hmem
          exact (List.mem_cons.mp hmem).resolve_left fun heq => hh heq.symm
        have hlt : (s.pop.run h).strand.idxOf x < s.strand.idxOf x := by
          rw [hl, List.idxOf_append_of_mem hmem', hq, List.idxOf_cons_ne _ hh]
          exact Nat.lt_succ_self _
        refine .inr ⟨⟨?_, hK'⟩, Nat.le_of_lt hlt, fun _ => hlt⟩
        rw [hl]
        exact List.mem_append_left _ hmem'

/-- While the image waits in the outbox of a viewer that has not failed. -/
def Waits (image : Image) (d : Nat) (s : StreamConnection) : Prop :=
  s.hasFailed = false ∧ Ahead image d s

theorem Waits.step (h : Waits image d s) (hd : Delivering s) (hs : s.step a = some s') :
    Nearer image d s' ∨ Waits image d s' := by
  cases hf : s'.hasFailed with
  | true => exact .inl (.inl hf)
  | false => exact (h.2.step hd h.1 hs).imp_right fun h => ⟨hf, h⟩

/-- **The image comes nearer**: the socket ends a write, and the strand runs
its `handle_write`. -/
theorem comes_nearer (hrun : Endless step anyStep ρ act)
    (hfair : Fair Party.busy Party.acts ρ act) (hd : ∀ n, Delivering (ρ n))
    (h : Waits image d (ρ n)) : ∃ m, n ≤ m ∧ Nearer image d (ρ m) := by
  have hstrand : ∀ {n error write}, Waits image d (ρ n) →
      Handler.handleWrite error write ∈ (ρ n).strand → ∃ m, n ≤ m ∧ Nearer image d (ρ m) := by
    intro n error write h hmem
    refine comes_up hrun hfair hd (K := Waits image d) ?_ ?_ hmem h
    · exact fun s a s' hs hw hstep => hw.step hs hstep
    · exact fun s hs hw _ => hw.2.handleWrite hs hw.1 error
  by_cases hfly : (ρ n).inFlight = []
  · obtain ⟨written, rest, adds, -, hb⟩ := (hd n).busy h.1 (List.ne_nil_of_mem h.2.mem)
    have hout := hb.outstanding
    rw [outstanding, hfly, List.nil_append] at hout
    have hmem : lastWrite written ∈ (ρ n).strand.filterMap Handler.write :=
      hout ▸ List.mem_singleton_self _
    obtain ⟨x, hx, hwrite⟩ := List.mem_filterMap.mp hmem
    cases x with
    | sendFrame | addToOutbox => cases hwrite
    | handleWrite error write => exact hstrand h hx
  · obtain ⟨m, hm, hnear | ⟨hw, error, write, hmem⟩⟩ := hrun.response hfair .socket
      (P := fun s => Waits image d s ∧ s.inFlight ≠ [])
      (Q := fun s => Nearer image d s ∨ Waits image d s ∧
        ∃ error write, Handler.handleWrite error write ∈ s.strand)
      (fun _ => 0) hd (fun s _ hP => hP.2) (by
        rintro s a s' hs - ⟨hw, hne⟩ hstep
        rcases hw.step hs hstep with hnear | hw'
        · exact .inl (.inl hnear)
        rcases inFlight_step hstep with ⟨hnot, l, hl⟩ | hmem
        · refine .inr ⟨⟨hw', ?_⟩, Nat.le_refl 0, ?_⟩
          · rw [hl]
            exact List.append_ne_nil_of_left_ne_nil hne l
          · rintro ⟨i, error, rfl⟩
            exact absurd rfl (hnot i error)
        · exact .inl (.inr ⟨hw', hmem⟩)) ⟨h, hfly⟩
    · exact ⟨m, hm, hnear⟩
    · obtain ⟨m', hm', hnear⟩ := hstrand hw hmem
      exact ⟨m', Nat.le_trans hm hm', hnear⟩

theorem done_of_waits (hrun : Endless step anyStep ρ act) (hfair : Fair Party.busy Party.acts ρ act)
    (hd : ∀ n, Delivering (ρ n)) (h : Waits image d (ρ n)) :
    ∃ m, n ≤ m ∧ ((ρ m).hasFailed = true ∨ Done image (ρ m)) := by
  induction d using Nat.strongRecOn generalizing n with
  | ind d ih =>
    obtain ⟨m, hm, hf | hdone | ⟨k, hk, hahead⟩⟩ := comes_nearer hrun hfair hd h
    · exact ⟨m, hm, .inl hf⟩
    · exact ⟨m, hm, .inr hdone⟩
    · cases hf : (ρ m).hasFailed with
      | true => exact ⟨m, hm, .inl hf⟩
      | false =>
        obtain ⟨m', hm', hend⟩ := ih k hk ⟨hf, hahead⟩
        exact ⟨m', Nat.le_trans hm hm', hend⟩

theorem done_of_mem_outbox (hrun : Endless step anyStep ρ act)
    (hfair : Fair Party.busy Party.acts ρ act) (hd : ∀ n, Delivering (ρ n))
    (hmem : frame image ∈ (ρ n).outbox) :
    ∃ m, n ≤ m ∧ ((ρ m).hasFailed = true ∨ Done image (ρ m)) := by
  cases hf : (ρ n).hasFailed with
  | true => exact ⟨n, Nat.le_refl n, .inl hf⟩
  | false => exact done_of_waits hrun hfair hd ⟨hf, hmem, rfl⟩

theorem done_of_addToOutbox (hrun : Endless step anyStep ρ act)
    (hfair : Fair Party.busy Party.acts ρ act) (hd : ∀ n, Delivering (ρ n))
    (hmem : .addToOutbox (frame image) ∈ (ρ n).strand) :
    ∃ m, n ≤ m ∧ ((ρ m).hasFailed = true ∨ Done image (ρ m)) := by
  obtain ⟨m, hm, hbox⟩ := comes_up hrun hfair hd (K := fun _ => True)
    (Q := fun s => frame image ∈ s.outbox) (fun _ _ _ _ _ _ => .inr trivial) (by
      intro s _ _ _
      show frame image ∈ (s.pop.addToOutbox (frame image)).outbox
      by_cases hbox : s.pop.outbox = []
      · rw [addToOutbox_of_nil _ hbox]
        exact List.mem_singleton_self _
      · rw [addToOutbox_of_ne_nil _ hbox]
        exact List.mem_append_right _ (List.mem_singleton_self _)) hmem trivial
  obtain ⟨m', hm', hend⟩ := done_of_mem_outbox hrun hfair hd hbox
  exact ⟨m', Nat.le_trans hm hm', hend⟩

theorem done_of_sendFrame (hrun : Endless step anyStep ρ act)
    (hfair : Fair Party.busy Party.acts ρ act) (hd : ∀ n, Delivering (ρ n))
    (hmem : .sendFrame image ∈ (ρ n).strand) :
    ∃ m, n ≤ m ∧ ((ρ m).hasFailed = true ∨ Done image (ρ m)) := by
  obtain ⟨m, hm, hadd⟩ := comes_up hrun hfair hd (K := fun _ => True)
    (Q := fun s => .addToOutbox (frame image) ∈ s.strand) (fun _ _ _ _ _ _ => .inr trivial) (by
      intro s _ _ _
      rw [run, sendFrame_eq]
      exact List.mem_append_right _ (List.mem_singleton_self _)) hmem trivial
  obtain ⟨m', hm', hend⟩ := done_of_addToOutbox hrun hfair hd hadd
  exact ⟨m', Nat.le_trans hm hm', hend⟩

theorem arrives (hrun : Endless step anyStep ρ act) (hfair : Fair Party.busy Party.acts ρ act)
    (hd : ∀ n, Delivering (ρ n)) (himage : image ∈ (ρ n).emitted) : ∃ m, n ≤ m ∧
      ((ρ m).hasFailed = true ∨ frameBuffers image ∈ (ρ m).log ∧
        frameBuffers image ∉ (ρ m).outstanding) := by
  have hdone : ∃ m, n ≤ m ∧ ((ρ m).hasFailed = true ∨ Done image (ρ m)) := by
    by_cases hbox : frame image ∈ (ρ n).outbox
    · exact done_of_mem_outbox hrun hfair hd hbox
    rcases (hd n).live with hnew | ⟨-, written, rest, adds, hp, hb⟩
    · rw [hnew] at himage
      exact absurd himage List.not_mem_nil
    rw [hp.emitted] at himage
    rcases List.mem_append.mp himage with himage | hsending
    · rcases List.mem_append.mp himage with himage | hadds
      · rcases List.mem_append.mp himage with hwritten | hrest
        · refine ⟨n, Nat.le_refl n, .inr ⟨?_, hbox⟩⟩
          rw [hp.log]
          exact List.mem_cons_of_mem _ (List.mem_map_of_mem hwritten)
        · refine absurd (List.mem_map_of_mem (f := frame) hrest) fun hmem => hbox ?_
          rcases hb with hb | ⟨hi, -⟩
          · rw [hb.outbox]
            exact List.mem_cons_of_mem _ hmem
          · rw [hi.outbox]
            exact hmem
      · have hmem : frame image ∈ (ρ n).adding := hp.adding ▸ List.mem_map_of_mem hadds
        obtain ⟨x, hx, hmsg⟩ := List.mem_filterMap.mp hmem
        cases x with
        | sendFrame | handleWrite => cases hmsg
        | addToOutbox msg =>
          obtain rfl := Option.some.inj hmsg
          exact done_of_addToOutbox hrun hfair hd hx
    · obtain ⟨x, hx, himage⟩ := List.mem_filterMap.mp hsending
      cases x with
      | addToOutbox | handleWrite => cases himage
      | sendFrame image' =>
        obtain rfl := Option.some.inj himage
        exact done_of_sendFrame hrun hfair hd hx
  obtain ⟨m, hm, hf | ⟨hlog, hbox⟩⟩ := hdone
  · exact ⟨m, hm, .inl hf⟩
  · refine ⟨m, hm, .inr ⟨hlog, fun hout => hbox ?_⟩⟩
    -- the outstanding write is that of the first message
    rcases (hd m).live with hnew | ⟨-, written, rest, adds, -, hb | ⟨hi, -⟩⟩
    · rw [hnew] at hlog
      exact absurd hlog List.not_mem_nil
    · rw [hb.outstanding, List.mem_singleton, lastWrite] at hout
      rw [hb.outbox, lastMessage]
      cases hlast : written.getLast? with
      | none =>
        rw [hlast] at hout
        exact absurd hout.symm (headerBuffers_ne_frameBuffers image)
      | some j =>
        rw [hlast] at hout
        obtain rfl := frameBuffers_injective hout
        exact List.mem_cons_self
    · rw [hi.outstanding] at hout
      exact absurd hout List.not_mem_nil

theorem delivering_start : Delivering {} := ⟨.inl rfl, rfl⟩

/-- **Every image arrives.**  In a run that is fair to the strand and the
socket, the write of an image that a viewer was given is started and ends
sometime, however many are emitted meanwhile, or the viewer fails. -/
theorem every_image_arrives {as : List Action} (h : exec step {} as = some (ρ 0))
    (hrun : Endless step anyStep ρ act) (hfair : Fair Party.busy Party.acts ρ act)
    (himage : image ∈ (ρ n).emitted) : ∃ m, n ≤ m ∧
      ((ρ m).hasFailed = true ∨ frameBuffers image ∈ (ρ m).log ∧
        frameBuffers image ∉ (ρ m).outstanding) := by
  have hstart : Delivering (ρ 0) := (steps_iff_exec.mpr h).invariant
    (fun _ _ _ hs _ hstep => hs.step hstep) delivering_start
  exact arrives hrun hfair (hrun.invariant (fun _ _ _ hs _ hstep => hs.step hstep) hstart) himage

/-! ### A viewer that is shown one image after the other -/

instance : Inhabited Action := ⟨.runHandler⟩

/-- One image, from its emission to the end of its write. -/
def lap : List Action :=
  [.imageReady [1], .runHandler, .runHandler, .completeWrite 0 false, .runHandler]

/-- The viewer after `c` images. -/
def lapBase (c : Nat) : StreamConnection :=
  let images := (List.range c).map fun i : Nat => (⟨i, [1]⟩ : Image)
  { stage := .started
    isConnected := true
    hasConnection := true
    log := headerBuffers :: images.map frameBuffers
    emitted := images }

theorem exec_lap (c : Nat) : exec step (lapBase c) lap = some (lapBase (c + 1)) := by
  simp [exec, step, lap, lapBase, imageReady, post, run, sendFrame, addToOutbox, writeNextMessage,
    asyncWrite, frame, handleWrite, List.range_succ]

theorem lap_endless :
    Endless step anyStep (lapped step lapBase lap) fun n => (lap[n % lap.length]?).getD default :=
  Endless.of_laps (by decide) exec_lap fun _ _ _ => trivial

theorem lap_fair : Fair Party.busy Party.acts (lapped step lapBase lap)
    fun n => (lap[n % lap.length]?).getD default := by
  intro party n _
  cases party with
  | strand => exact lap_recurs lap (r := 1) (by decide) n
  | socket =>
    obtain ⟨m, hm, hact⟩ := lap_recurs lap (r := 3) (by decide) n
    exact ⟨m, hm, 0, false, hact⟩

/-- The third image, just after its emission. -/
theorem every_image_arrives_third :
    let ρ := lapped step lapBase lap
    ∃ m, 11 ≤ m ∧ ((ρ m).hasFailed = true ∨ frameBuffers ⟨2, [1]⟩ ∈ (ρ m).log ∧
      frameBuffers ⟨2, [1]⟩ ∉ (ρ m).outstanding) := by
  have hstart : exec step {} [.sendInitialHeaders, .returnHeaders, .connectToSignal,
      .storeConnection, .completeWrite 0 false, .runHandler] = some (lapped step lapBase lap 0) :=
    rfl
  exact every_image_arrives hstart lap_endless lap_fair (n := 11) (by decide)

end SecMon.Http.StreamConnection
