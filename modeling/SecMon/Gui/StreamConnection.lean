import SecMon.Core.Machine
import SecMon.Gui.Reply

/-!
# A viewer

`GUI/StreamConnection.cpp`, with what it uses of `GUI/Stream.cpp`: one viewer
of a stream, the signal it listens to, its strand and its socket.

The actions are the moments at which other threads may come in between:

* `start()` runs on the thread that accepted the viewer, in four steps: the
  header write is started, `sendInitialHeaders` returns, the slot is connected
  to the signal, and the connection is stored.
* `imageReady` is one emission of the signal.
* `completeWrite` is the end of a write; its handler is queued on the strand.
* `runHandler` runs the first handler that is queued on the strand.

A write is a list of buffers, and a buffer names the place it refers to
(`Ref`): a local of `sendInitialHeaders`, a temporary of `sendFrame`, an image,
or a constant.  `deref` is what stands there; scopes end explicitly.
-/

namespace SecMon.Http

open Machine Buffer

/-- An `image_ptr`: the vector of one emission.  Nobody changes it. -/
structure Image where
  id : Nat
  bytes : Bytes
  deriving DecidableEq, Repr

namespace StreamConnection

/-- What a buffer of a viewer refers to. -/
inductive Ref
  | text (bytes : Bytes)
  /-- The local `reply` of `sendInitialHeaders`. -/
  | reply (r : ReplyRef)
  /-- The string that `sendFrame` makes of the size of an image. -/
  | length (image : Image)
  | image (image : Image)
  deriving DecidableEq, Repr

abbrev Buffers := List (ConstBuffer Ref UInt8)

/-- What a buffer of a reply refers to, for a viewer. -/
def Ref.ofReply : ReplyRef → Ref
  | .text bytes => .text bytes
  | r => .reply r

/-- `FrameToSend`. -/
structure FrameToSend where
  buffers : Buffers := []
  ptr : Option Image := none
  deriving DecidableEq, Repr

def boundaryString : Bytes := ascii "--BOUNDARYSTRING"

def frameHeader : Bytes :=
  ascii "\r\n--BOUNDARYSTRING\r\nContent-type: image/jpeg\r\nContent-Length: "

def crlf : Bytes := [13, 10]

/-- The local `reply` of `sendInitialHeaders`. -/
def initialReply : Reply where
  status := .ok
  headers :=
    [⟨ascii "Connection", ascii "Keep-Alive"⟩, ⟨ascii "Max-Age", ascii "0"⟩,
      ⟨ascii "Expires", ascii "0"⟩, ⟨ascii "Cache-Control", ascii "no-cache"⟩,
      ⟨ascii "Pragma", ascii "no-cache"⟩,
      ⟨ascii "Content-Type", ascii "multipart/x-mixed-replace; boundary=" ++ boundaryString⟩]

/-- The buffers that `sendInitialHeaders` writes. -/
def headerBuffers : Buffers := initialReply.toBuffers.map (·.mapRef .ofReply)

/-- The buffers that `sendFrame` builds. -/
def frameBuffers (image : Image) : Buffers :=
  [⟨.text frameHeader, frameHeader⟩, ⟨.length image, decimal image.bytes.length⟩,
    ⟨.text crlf, crlf⟩, ⟨.text crlf, crlf⟩, ⟨.image image, image.bytes⟩]

/-- The message that `sendFrame` makes. -/
def frame (image : Image) : FrameToSend := ⟨frameBuffers image, some image⟩

/-- A handler on the strand, with what is bound to it. -/
inductive Handler
  | sendFrame (image : Image)
  | addToOutbox (msg : FrameToSend)
  | handleWrite (error : Bool) (write : Buffers)
  deriving DecidableEq, Repr

def Handler.image : Handler → Option Image
  | .sendFrame image => some image
  | _ => none

def Handler.msg : Handler → Option FrameToSend
  | .addToOutbox msg => some msg
  | _ => none

def Handler.write : Handler → Option Buffers
  | .handleWrite _ write => some write
  | _ => none

/-- How far `start()` has come. -/
inductive Stage
  | registered
  | sendingHeaders
  | sentHeaders
  | connected
  | started
  deriving DecidableEq, Repr

inductive Action
  | sendInitialHeaders
  | returnHeaders
  | connectToSignal
  | storeConnection
  | imageReady (bytes : Bytes)
  | completeWrite (i : Nat) (error : Bool)
  | runHandler
  deriving DecidableEq, Repr

end StreamConnection

open StreamConnection

/-- `StreamConnection`, when `registerNewConnection` has put it in its list. -/
structure StreamConnection where
  stage : Stage := .registered
  /-- `reply` of `sendInitialHeaders`, while that runs. -/
  localReply : Option Reply := none
  /-- The images of whose sizes `sendFrame` has a string at the moment. -/
  temporaries : List Image := []
  /-- The slot is connected to the signal. -/
  isConnected : Bool := false
  /-- `stream_signal_connection_` is the connection of the slot. -/
  hasConnection : Bool := false
  /-- It is in `connection_list_`. -/
  isListed : Bool := true
  outbox : List FrameToSend := []
  /-- The writes that the socket works on. -/
  inFlight : List Buffers := []
  /-- The handlers queued on the strand. -/
  strand : List Handler := []
  /-- The writes that were started so far. -/
  log : List Buffers := []
  /-- The images that were emitted while the slot was connected. -/
  emitted : List Image := []
  /-- `handle_write` has run with an error. -/
  hasFailed : Bool := false
  deriving DecidableEq, Repr

namespace StreamConnection

/-- `strand_.post`. -/
def post (h : Handler) (s : StreamConnection) : StreamConnection :=
  { s with strand := s.strand ++ [h] }

/-- `boost::asio::async_write`. -/
def asyncWrite (buffers : Buffers) (s : StreamConnection) : StreamConnection :=
  { s with inFlight := s.inFlight ++ [buffers], log := s.log ++ [buffers] }

/-- `sendInitialHeaders`, until it returns. -/
def sendInitialHeaders (s : StreamConnection) : StreamConnection :=
  { s with
    stage := .sendingHeaders
    localReply := some initialReply
    outbox := s.outbox ++ [({} : FrameToSend)] }.asyncWrite headerBuffers

/-- `sendFrame`.  The string lives until the end of the statement that makes
it. -/
def sendFrame (image : Image) (s : StreamConnection) : StreamConnection :=
  let s := { s with temporaries := image :: s.temporaries }
  let msg := frame image
  let s := { s with temporaries := s.temporaries.erase image }
  s.post (.addToOutbox msg)

def writeNextMessage (s : StreamConnection) : StreamConnection :=
  match s.outbox with
  | [] => s
  | msg :: _ => s.asyncWrite msg.buffers

def addToOutbox (msg : FrameToSend) (s : StreamConnection) : StreamConnection :=
  let s := { s with outbox := s.outbox ++ [msg] }
  if s.outbox.length > 1 then s else s.writeNextMessage

/-- The error branch of `handle_write`. -/
def disconnect (s : StreamConnection) : StreamConnection :=
  { s with
    isConnected := s.isConnected && !s.hasConnection
    isListed := false
    hasFailed := true }

def handleWrite (error : Bool) (s : StreamConnection) : StreamConnection :=
  let s := { s with outbox := s.outbox.tail }
  if error then s.disconnect else s.writeNextMessage

def run (s : StreamConnection) : Handler → StreamConnection
  | .sendFrame image => s.sendFrame image
  | .addToOutbox msg => s.addToOutbox msg
  | .handleWrite error _ => s.handleWrite error

/-- An emission, which posts `sendFrame` where the slot is connected. -/
def imageReady (bytes : Bytes) (s : StreamConnection) : StreamConnection :=
  if s.isConnected then
    let image : Image := ⟨s.emitted.length, bytes⟩
    { s with emitted := s.emitted ++ [image] }.post (.sendFrame image)
  else s

def step (s : StreamConnection) : Action → Option StreamConnection
  | .sendInitialHeaders => if s.stage = .registered then some s.sendInitialHeaders else none
  | .returnHeaders =>
    if s.stage = .sendingHeaders then
      some { s with stage := .sentHeaders, localReply := none }
    else none
  | .connectToSignal =>
    if s.stage = .sentHeaders then some { s with stage := .connected, isConnected := true }
    else none
  | .storeConnection =>
    if s.stage = .connected then some { s with stage := .started, hasConnection := true }
    else none
  | .imageReady bytes => some (s.imageReady bytes)
  | .completeWrite i error =>
    s.inFlight[i]?.map fun write =>
      { s with inFlight := s.inFlight.eraseIdx i }.post (.handleWrite error write)
  | .runHandler =>
    match s.strand with
    | [] => none
    | h :: hs => some ({ s with strand := hs }.run h)

/-- The images that wait for `sendFrame`. -/
def sending (s : StreamConnection) : List Image := s.strand.filterMap Handler.image

/-- The messages that wait for `addToOutbox`. -/
def adding (s : StreamConnection) : List FrameToSend := s.strand.filterMap Handler.msg

/-- The writes that were started and whose `handle_write` has not run. -/
def outstanding (s : StreamConnection) : List Buffers :=
  s.inFlight ++ s.strand.filterMap Handler.write

/-- What a buffer leads to.  An image lives as long as a handler or a message
holds it. -/
def deref (s : StreamConnection) : Ref → Option Bytes
  | .text bytes => some bytes
  | .reply r => s.localReply.bind fun rep => rep.deref r
  | .length image =>
    if image ∈ s.temporaries then some (decimal image.bytes.length) else none
  | .image image =>
    if image ∈ s.sending ∨ some image ∈ s.adding.map (·.ptr) ∨ some image ∈ s.outbox.map (·.ptr)
    then some image.bytes else none

/-- Every outstanding write still has its bytes. -/
def Safe (s : StreamConnection) : Prop := ∀ w ∈ s.outstanding, Intact s.deref w

/-! ### What the steps do to the queues -/

@[simp] theorem sending_post (h : Handler) (s : StreamConnection) :
    (s.post h).sending = s.sending ++ h.image.toList := by
  unfold sending post
  rw [List.filterMap_append, List.filterMap_cons]
  cases h.image <;> rfl

@[simp] theorem adding_post (h : Handler) (s : StreamConnection) :
    (s.post h).adding = s.adding ++ h.msg.toList := by
  unfold adding post
  rw [List.filterMap_append, List.filterMap_cons]
  cases h.msg <;> rfl

@[simp] theorem outstanding_post (h : Handler) (s : StreamConnection) :
    (s.post h).outstanding = s.outstanding ++ h.write.toList := by
  unfold outstanding post
  rw [List.filterMap_append, List.filterMap_cons, ← List.append_assoc]
  cases h.write <;> rfl

/-- The strand without its first handler. -/
def pop (s : StreamConnection) : StreamConnection := { s with strand := s.strand.tail }

section

variable {s : StreamConnection} {h : Handler} {hs : List Handler}

theorem sending_pop (hq : s.strand = h :: hs) : s.sending = h.image.toList ++ s.pop.sending := by
  unfold sending pop
  rw [hq, List.filterMap_cons, List.tail_cons]
  cases h.image <;> rfl

theorem adding_pop (hq : s.strand = h :: hs) : s.adding = h.msg.toList ++ s.pop.adding := by
  unfold adding pop
  rw [hq, List.filterMap_cons, List.tail_cons]
  cases h.msg <;> rfl

theorem outstanding_pop (hq : s.strand = h :: hs) (hw : h.write = none) :
    s.pop.outstanding = s.outstanding := by
  unfold outstanding pop
  rw [hq, List.filterMap_cons, hw, List.tail_cons]

theorem step_runHandler (hq : s.strand = h :: hs) : s.step .runHandler = some (s.pop.run h) := by
  unfold step pop
  simp only [hq, List.tail_cons]

end

theorem sendFrame_eq (image : Image) (s : StreamConnection) :
    s.sendFrame image = s.post (.addToOutbox (frame image)) := by
  unfold sendFrame
  simp only [List.erase_cons_head]

/-- `addToOutbox` writes at once exactly where nothing is in the outbox. -/
theorem addToOutbox_of_nil {s : StreamConnection} (msg : FrameToSend) (hbox : s.outbox = []) :
    s.addToOutbox msg = { s with outbox := [msg] }.asyncWrite msg.buffers := by
  unfold addToOutbox
  rw [hbox]
  rfl

theorem addToOutbox_of_ne_nil {s : StreamConnection} (msg : FrameToSend) (hbox : s.outbox ≠ []) :
    s.addToOutbox msg = { s with outbox := s.outbox ++ [msg] } := by
  unfold addToOutbox
  refine if_pos ?_
  have hpos := List.length_pos_iff.mpr hbox
  rw [List.length_append, List.length_singleton]
  omega

/-- What each action does, and when it is possible. -/
inductive StepTo (s : StreamConnection) : Action → StreamConnection → Prop
  | sendInitialHeaders (hst : s.stage = .registered) :
      StepTo s .sendInitialHeaders s.sendInitialHeaders
  | returnHeaders (hst : s.stage = .sendingHeaders) :
      StepTo s .returnHeaders { s with stage := .sentHeaders, localReply := none }
  | connectToSignal (hst : s.stage = .sentHeaders) :
      StepTo s .connectToSignal { s with stage := .connected, isConnected := true }
  | storeConnection (hst : s.stage = .connected) :
      StepTo s .storeConnection { s with stage := .started, hasConnection := true }
  | imageReady (bytes : Bytes) : StepTo s (.imageReady bytes) (s.imageReady bytes)
  | completeWrite {i : Nat} {write : Buffers} (error : Bool) (hw : s.inFlight[i]? = some write) :
      StepTo s (.completeWrite i error)
        ({ s with inFlight := s.inFlight.eraseIdx i }.post (.handleWrite error write))
  | runHandler {h : Handler} {hs : List Handler} (hq : s.strand = h :: hs) :
      StepTo s .runHandler (s.pop.run h)

theorem stepTo_of_step {s s' : StreamConnection} {a : Action} (hs : s.step a = some s') :
    StepTo s a s' := by
  cases a with
  | sendInitialHeaders =>
    obtain ⟨hst, hs⟩ := Option.ite_none_right_eq_some.mp hs
    exact Option.some.inj hs ▸ .sendInitialHeaders hst
  | returnHeaders =>
    obtain ⟨hst, hs⟩ := Option.ite_none_right_eq_some.mp hs
    exact Option.some.inj hs ▸ .returnHeaders hst
  | connectToSignal =>
    obtain ⟨hst, hs⟩ := Option.ite_none_right_eq_some.mp hs
    exact Option.some.inj hs ▸ .connectToSignal hst
  | storeConnection =>
    obtain ⟨hst, hs⟩ := Option.ite_none_right_eq_some.mp hs
    exact Option.some.inj hs ▸ .storeConnection hst
  | imageReady bytes => exact Option.some.inj hs ▸ .imageReady bytes
  | completeWrite i error =>
    obtain ⟨write, hw, rfl⟩ := Option.map_eq_some_iff.mp hs
    exact .completeWrite error hw
  | runHandler =>
    cases hq : s.strand with
    | nil =>
      unfold step at hs
      rw [hq] at hs
      exact absurd hs (by simp)
    | cons h hq' =>
      rw [step_runHandler hq] at hs
      exact Option.some.inj hs ▸ .runHandler hq

/-- What a handler leaves as it is: how far `start()` has come, what is in
scope, the connection it stored, and what was emitted. -/
structure Frozen (s s' : StreamConnection) : Prop where
  stage : s'.stage = s.stage
  localReply : s'.localReply = s.localReply
  temporaries : s'.temporaries = s.temporaries
  hasConnection : s'.hasConnection = s.hasConnection
  emitted : s'.emitted = s.emitted

theorem frozen_writeNextMessage (s : StreamConnection) : Frozen s s.writeNextMessage := by
  unfold writeNextMessage
  split <;> exact ⟨rfl, rfl, rfl, rfl, rfl⟩

theorem frozen_run (s : StreamConnection) (h : Handler) : Frozen s (s.run h) := by
  cases h with
  | sendFrame image =>
    rw [run, sendFrame_eq]
    exact ⟨rfl, rfl, rfl, rfl, rfl⟩
  | addToOutbox msg =>
    have hw := frozen_writeNextMessage { s with outbox := s.outbox ++ [msg] }
    unfold run addToOutbox
    dsimp only
    split
    · exact ⟨rfl, rfl, rfl, rfl, rfl⟩
    · exact ⟨hw.stage, hw.localReply, hw.temporaries, hw.hasConnection, hw.emitted⟩
  | handleWrite error write =>
    have hw := frozen_writeNextMessage { s with outbox := s.outbox.tail }
    cases error with
    | true => exact ⟨rfl, rfl, rfl, rfl, rfl⟩
    | false => exact ⟨hw.stage, hw.localReply, hw.temporaries, hw.hasConnection, hw.emitted⟩

theorem frozen_pop_run (s : StreamConnection) (h : Handler) : Frozen s (s.pop.run h) :=
  have hrun := frozen_run s.pop h
  ⟨hrun.stage, hrun.localReply, hrun.temporaries, hrun.hasConnection, hrun.emitted⟩

theorem isConnected_writeNextMessage (s : StreamConnection) :
    s.writeNextMessage.isConnected = s.isConnected := by
  unfold writeNextMessage
  split <;> rfl

theorem hasFailed_writeNextMessage (s : StreamConnection) :
    s.writeNextMessage.hasFailed = s.hasFailed := by
  unfold writeNextMessage
  split <;> rfl

theorem isConnected_run (s : StreamConnection) (h : Handler) :
    (s.run h).isConnected = s.isConnected ∨
      s.hasConnection = true ∧ (s.run h).isConnected = false := by
  cases h with
  | sendFrame image => exact .inl rfl
  | addToOutbox msg =>
    left
    unfold run addToOutbox
    dsimp only
    split
    · rfl
    · exact isConnected_writeNextMessage _
  | handleWrite error write =>
    cases error with
    | false => exact .inl (isConnected_writeNextMessage _)
    | true =>
      have hand : (s.run (.handleWrite true write)).isConnected =
        (s.isConnected && !s.hasConnection) := rfl
      rw [hand]
      cases s.hasConnection with
      | true => exact .inr ⟨rfl, Bool.and_false _⟩
      | false => exact .inl (Bool.and_true _)

theorem run_keeps (s : StreamConnection) (h : Handler) :
    (s.run h).isConnected = s.isConnected ∧ (s.run h).hasFailed = s.hasFailed ∨
      (s.run h).hasFailed = true := by
  cases h with
  | sendFrame image => exact .inl ⟨rfl, rfl⟩
  | addToOutbox msg =>
    left
    unfold run addToOutbox
    dsimp only
    split
    · exact ⟨rfl, rfl⟩
    · exact ⟨isConnected_writeNextMessage _, hasFailed_writeNextMessage _⟩
  | handleWrite error write =>
    cases error with
    | false => exact .inl ⟨isConnected_writeNextMessage _, hasFailed_writeNextMessage _⟩
    | true => exact .inr rfl

end StreamConnection

end SecMon.Http
