import SecMon.Core.Machine
import SecMon.Gui.RequestHandler
import SecMon.Gui.RequestParser

/-!
# A connection

`GUI/Connection.cpp`.  Each handler keeps the connection alive that it is
bound to, so the connection and its `reply_` last as long as a read or a write
is outstanding; `deref` is what can be read through a buffer of `reply_`.

An action is a call of a handler, with everything that the call takes from
outside: what was read, the file system and the streams of that moment.
-/

namespace SecMon.Http

open Machine Buffer

variable {κ : Type}

/-- `Connection`, with the history of its requests and replies. -/
structure Connection where
  request : Request := {}
  requestParser : RequestParser := {}
  reply : Reply := {}
  /-- An `async_read_some` is outstanding. -/
  reading : Bool := false
  /-- The outstanding `async_write`s. -/
  writes : List (List (ConstBuffer ReplyRef UInt8)) := []
  isShutdown : Bool := false
  /-- The requests given to `handle_request`. -/
  handled : List Request := []
  /-- The replies whose write was started. -/
  replied : List Reply := []

namespace Connection

/-- What a handler of a connection finds. -/
structure Environment (κ : Type) where
  handler : RequestHandler κ
  files : Bytes → Option Bytes

inductive Action (κ : Type)
  | handleRead (error : Bool) (data : Bytes) (env : Environment κ)
  | handleWrite (error : Bool)

/-- `Connection::start`, which the server calls once. -/
def start (c : Connection) : Connection := { c with reading := true }

/-- `boost::asio::async_write` of `reply_.to_buffers()`. -/
def writeReply (c : Connection) : Connection :=
  { c with writes := c.writes ++ [c.reply.toBuffers], replied := c.replied ++ [c.reply] }

/-- `Connection::handle_read` where there is no error. -/
def handleData (self : κ) (env : Environment κ) (data : Bytes) (c : Connection) : Connection :=
  match c.requestParser.parse c.request data with
  | (.yes, _, p, req) =>
    let out := env.handler.handleRequest env.files req c.reply self
    let c' := { c with
      requestParser := p
      request := req
      reply := out.rep
      handled := c.handled ++ [req] }
    if out.isStream then c' else c'.writeReply
  | (.no, _, p, req) =>
    { c with requestParser := p, request := req, reply := .stockReply .badRequest }.writeReply
  | (.indeterminate, _, p, req) =>
    { c with requestParser := p, request := req, reading := true }

/-- What a handler does.  `self` is the connection as others know it; a read
fills at most `buffer_`. -/
def step (self : κ) (c : Connection) : Action κ → Option Connection
  | .handleRead error data env =>
    if c.reading = true ∧ data.length ≤ 8192 then
      let c' := { c with reading := false }
      some (if error then c' else handleData self env data c')
    else none
  | .handleWrite error =>
    match c.writes with
    | [] => none
    | _ :: ws => some { c with writes := ws, isShutdown := c.isShutdown || !error }

/-- A handler that holds the connection is waiting. -/
def isAlive (c : Connection) : Bool := c.reading || !c.writes.isEmpty

/-- What a buffer of `reply_` leads to. -/
def deref (c : Connection) : ReplyRef → Option Bytes
  | .text bytes => some bytes
  | r => if c.isAlive then c.reply.deref r else none

/-- Every outstanding write still has its bytes. -/
def Safe (c : Connection) : Prop := ∀ w ∈ c.writes, Intact c.deref w

/-- Nothing is outstanding but a read or one write, and that of `reply_` as it
is. -/
def Settled (c : Connection) : Prop :=
  c.writes = [] ∨ c.reading = false ∧ c.writes = [c.reply.toBuffers]

theorem settled_writeReply {c : Connection} (hw : c.writes = []) (hr : c.reading = false) :
    c.writeReply.Settled := by
  right
  refine ⟨hr, ?_⟩
  unfold writeReply
  rw [hw]
  rfl

theorem settled_handleData (self : κ) (env : Environment κ) (data : Bytes) {c : Connection}
    (hw : c.writes = []) (hr : c.reading = false) : (handleData self env data c).Settled := by
  unfold handleData
  rcases c.requestParser.parse c.request data with ⟨r, rest, p, req⟩
  cases r with
  | yes =>
    dsimp only
    split
    · exact .inl hw
    · exact settled_writeReply hw hr
  | no => exact settled_writeReply hw hr
  | indeterminate => exact .inl hw

theorem Settled.step {self : κ} {c c' : Connection} {a : Action κ} (h : c.Settled)
    (hs : c.step self a = some c') : c'.Settled := by
  cases a with
  | handleRead error data env =>
    obtain ⟨⟨hr, -⟩, hs⟩ := Option.ite_none_right_eq_some.mp hs
    obtain rfl := Option.some.inj hs
    have hw : c.writes = [] := by
      rcases h with h | ⟨h, -⟩
      · exact h
      · exact absurd h (by simp [hr])
    cases error with
    | true => exact .inl hw
    | false => exact settled_handleData self env data hw rfl
  | handleWrite error =>
    rcases h with h | ⟨hr, h⟩
    · simp [Connection.step, h] at hs
    · simp only [Connection.step, h, Option.some.injEq] at hs
      subst hs
      exact .inl rfl

theorem Settled.safe {c : Connection} (h : c.Settled) : c.Safe := by
  intro w hw b hb
  rcases h with h | ⟨-, h⟩
  · rw [h] at hw
    exact absurd hw List.not_mem_nil
  · have halive : c.isAlive = true := by
      unfold isAlive
      rw [h]
      exact Bool.or_true _
    rw [h, List.mem_singleton] at hw
    subst hw
    have hint := intact_toBuffers c.reply b hb
    unfold deref
    split
    · rename_i bytes href
      rw [href] at hint
      exact hint
    · rw [if_pos halive]
      exact hint

/-- **The reply of a connection outlives its write.** -/
theorem safe {self : κ} {as : List (Action κ)} {c : Connection}
    (h : exec (step self) (start {}) as = some c) : c.Safe := by
  have hrun := steps_iff_exec.mpr h
  exact (hrun.invariant (fun _ _ _ hc _ hs => Settled.step hc hs) (.inl rfl)).safe

/-- What a connection sends is what its reply was when the write was started. -/
theorem transmits {self : κ} {as : List (Action κ)} {c : Connection}
    (h : exec (step self) (start {}) as = some c) {w : List (ConstBuffer ReplyRef UInt8)}
    (hw : w ∈ c.writes) : transmit c.deref w = some (denote w) :=
  transmit_intact (safe h w hw)

end Connection

end SecMon.Http
