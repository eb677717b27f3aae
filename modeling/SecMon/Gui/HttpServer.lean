import Mathlib.Data.List.Nodup
import SecMon.Gui.Fetch

/-!
# The server

`GUI/HTTP_Server.cpp`: `start_accept` makes the next connection and waits for a
client, `handle_accept` starts it and waits for another.  All connections have
one `request_handler_`, and through it one directory of streams, to which the
scenes add theirs meanwhile.  A handler runs as one step; which connection's is
next is nobody's choice, nor is what lies in the document root by then.

A viewer leaves when `deregisterConnection` erases it from the list of its
stream.  Here that may happen to any viewer at any time; whether it is the right
one is what `Viewers` is about.

`serves` says that the clients do not get into each other's way.  Each is
answered as if it were alone, from what it sent itself (`Stands`), and joins the
stream it asked for and no other, where it is until it leaves.
-/

namespace SecMon.Http

open Machine Buffer RequestParser

/-- Who watches the stream with the number `k`. -/
def StreamDirectory.viewers {κ : Type} (dir : StreamDirectory κ) (k : Nat) : List κ :=
  ((dir.streamList.lookup (k : Int)).map (·.connectionList)).getD []

/-- A connection that was started, and what was read from its client. -/
structure Session where
  connection : Connection
  received : Bytes := []

/-- A call of `handle_request`: for which connection, and how many streams and
which files there were. -/
structure Ask where
  conn : Nat
  streams : Nat
  files : Bytes → Option Bytes

/-- `HTTP_Server`.  A connection is known by its place in `sessions`. -/
structure HttpServer where
  requestHandler : RequestHandler Nat
  newConnection : Connection := {}
  /-- An `async_accept` is outstanding. -/
  accepting : Bool := false
  sessions : List Session := []
  /-- The calls of `handle_request` so far. -/
  asked : List Ask := []
  /-- Who has left which stream. -/
  left : List (Nat × Nat) := []

namespace HttpServer

inductive Action
  | addStream
  | handleAccept (error : Bool)
  | handleRead (i : Nat) (error : Bool) (data : Bytes) (files : Bytes → Option Bytes)
  | handleWrite (i : Nat) (error : Bool)
  /-- The viewer at a position of the list of stream `k` is erased. -/
  | leave (k pos : Nat)

abbrev dir (s : HttpServer) : StreamDirectory Nat := s.requestHandler.streamDirectory

/-- Connection `i` was registered with stream `k`. -/
def Joined (s : HttpServer) (i k : Nat) : Prop := i ∈ s.dir.viewers k ∨ (k, i) ∈ s.left

/-- How many streams there are. -/
def streams (s : HttpServer) : Nat := s.dir.streamId.toNat

def setDir (dir : StreamDirectory Nat) (s : HttpServer) : HttpServer :=
  { s with requestHandler := { s.requestHandler with streamDirectory := dir } }

def setSession (i : Nat) (x : Session) (s : HttpServer) : HttpServer :=
  { s with sessions := s.sessions.set i x }

/-- A call of `handle_request`, which leaves the streams at `dir`. -/
def recordAsk (ask : Ask) (dir : StreamDirectory Nat) (s : HttpServer) : HttpServer :=
  { s.setDir dir with asked := s.asked ++ [ask] }

def startAccept (s : HttpServer) : HttpServer := { s with newConnection := {}, accepting := true }

/-- A server that has been started. -/
def start (docRoot : Bytes) : HttpServer := startAccept { requestHandler := ⟨docRoot, {}⟩ }

def handleAccept (error : Bool) (s : HttpServer) : HttpServer :=
  startAccept (if error then s
    else { s with sessions := s.sessions ++ [{ connection := s.newConnection.start }] })

/-- What a read leaves behind outside its connection, where it completes a
request. -/
def handOver (i : Nat) (data : Bytes) (files : Bytes → Option Bytes) (c : Connection)
    (s : HttpServer) : HttpServer :=
  match c.requestParser.parse c.request data with
  | (.yes, _, _, req) =>
    s.recordAsk ⟨i, s.streams, files⟩
      (s.requestHandler.handleRequest files req c.reply i).streamDirectory
  | _ => s

def step (s : HttpServer) : Action → Option HttpServer
  | .addStream => some (s.setDir s.dir.addStream)
  | .handleAccept error => if s.accepting then some (s.handleAccept error) else none
  | .handleRead i error data files =>
    s.sessions[i]?.bind fun x =>
      (x.connection.step i (.handleRead error data ⟨s.requestHandler, files⟩)).map fun c =>
        if error then s.setSession i { x with connection := c }
        else handOver i data files x.connection (s.setSession i ⟨c, x.received ++ data⟩)
  | .handleWrite i error =>
    s.sessions[i]?.bind fun x =>
      (x.connection.step i (.handleWrite error)).map fun c =>
        s.setSession i { x with connection := c }
  | .leave k pos =>
    (s.dir.viewers k)[pos]?.map fun conn =>
      { s.setDir (s.dir.deregister k pos) with left := s.left ++ [(k, conn)] }

end HttpServer

/-! ### The viewers of a stream -/

namespace StreamDirectory

variable {κ : Type} {dir : StreamDirectory κ} {n k : Nat} {conn other : κ}

theorem viewers_register (id : Int) (conn : κ) (k : Nat) :
    (dir.register id conn).viewers k = dir.viewers k ∨
      (dir.register id conn).viewers k = dir.viewers k ++ [conn] := by
  rw [viewers, lookup_register, viewers]
  split_ifs
  · cases dir.streamList.lookup (k : Int) with
    | none => exact .inl rfl
    | some str => exact .inr rfl
  · exact .inl rfl

theorem Numbered.viewers_registerNth (h : dir.Numbered n) {j : Nat} (hj : 1 ≤ j) (hjn : j ≤ n)
    (conn : κ) : (dir.registerNth j conn).viewers k =
      if k = j then dir.viewers k ++ [conn] else dir.viewers k := by
  have hsome : (dir.streamList.lookup (j : Int)).isSome = true :=
    h.lookup_isSome_iff.mpr (by omega)
  obtain ⟨str, hstr⟩ := Option.isSome_iff_exists.mp hsome
  rw [← h.register_eq hj conn, viewers, lookup_register, viewers]
  by_cases hk : k = j
  · subst hk
    rw [if_pos rfl, if_pos rfl, hstr]
    rfl
  · rw [if_neg (by omega), if_neg hk]

theorem viewers_deregister (dir : StreamDirectory κ) (k pos k' : Nat) :
    (dir.deregister k pos).viewers k' =
      if k' = k then (dir.viewers k').eraseIdx pos else dir.viewers k' := by
  rw [viewers, deregister, lookup_modify, viewers]
  by_cases hk : k' = k
  · rw [if_pos (by omega), if_pos hk]
    cases dir.streamList.lookup (k' : Int) with
    | none => exact List.eraseIdx_nil.symm
    | some str => rfl
  · rw [if_neg (by omega), if_neg hk]

theorem viewers_addStream (dir : StreamDirectory κ) (k : Nat) :
    dir.addStream.viewers k = dir.viewers k := by
  rw [viewers, addStream, viewers, List.lookup_append]
  cases hk : dir.streamList.lookup (k : Int) with
  | some str => rfl
  | none =>
    rw [Option.none_or, List.lookup_cons]
    cases (k : Int) == dir.streamId + 1 <;> rfl

end StreamDirectory

namespace RequestHandler

variable {κ : Type} (handler : RequestHandler κ) (files : Bytes → Option Bytes) (req : Request)
  (rep : Reply) (conn : κ)

theorem streamDirectory_handleRequest :
    (handler.handleRequest files req rep conn).streamDirectory = handler.streamDirectory ∨
      ∃ id, (handler.handleRequest files req rep conn).streamDirectory =
        handler.streamDirectory.register id conn := by
  unfold handleRequest
  split
  · exact .inl rfl
  · dsimp only
    split_ifs
    · exact .inl rfl
    · split
      · rename_i hsome
        exact .inr (StreamDirectory.handleValidStream_eq_some hsome)
      · exact .inl rfl
    · split <;> exact .inl rfl

theorem numbered_handleRequest {n : Nat} (h : handler.streamDirectory.Numbered n) :
    (handler.handleRequest files req rep conn).streamDirectory.Numbered n := by
  rcases handler.streamDirectory_handleRequest files req rep conn with hsame | ⟨id, hid⟩
  · exact hsame.symm ▸ h
  · exact hid.symm ▸ h.modify id _

theorem viewers_handleRequest (k : Nat) :
    (handler.handleRequest files req rep conn).streamDirectory.viewers k =
        handler.streamDirectory.viewers k ∨
      (handler.handleRequest files req rep conn).streamDirectory.viewers k =
        handler.streamDirectory.viewers k ++ [conn] := by
  rcases handler.streamDirectory_handleRequest files req rep conn with hsame | ⟨id, hid⟩
  · exact .inl (by rw [hsame])
  · exact hid.symm ▸ StreamDirectory.viewers_register id conn k

end RequestHandler

namespace HttpServer

variable {docRoot : Bytes} {s s' : HttpServer} {i j : Nat} {x y : Session} {a : Action}

/-! ### How a client stands -/

/-- What a client has been given depends on what was read from it (`parse`) and,
once that is a request, on the streams and files there were then. -/
inductive Stands (docRoot : Bytes) (s : HttpServer) (i : Nat) (x : Session) : Prop
  /-- it is read on, or a read has failed -/
  | waiting {left : Bytes} {p : RequestParser} {req : Request}
      (parsed : parse {} {} x.received = (.indeterminate, left, p, req))
      (reading : x.connection.reading = true →
        x.connection = .start { requestParser := p, request := req })
      (unasked : i ∉ s.asked.map Ask.conn)
  | refused {left : Bytes} {p : RequestParser} {req : Request}
      (parsed : parse {} {} x.received = (.no, left, p, req))
      (reading : x.connection.reading = false)
      (unasked : i ∉ s.asked.map Ask.conn)
  | answered {left : Bytes} {p : RequestParser} {req : Request}
      (parsed : parse {} {} x.received = (.yes, left, p, req))
      (reading : x.connection.reading = false)
      (handled : x.connection.handled = [req])
      (ask : Ask) (asked : ask ∈ s.asked) (conn : ask.conn = i)
      (dir : StreamDirectory Nat) (numbered : dir.Numbered ask.streams)
      (unknown : ∀ k, i ∉ dir.viewers k)
      (replied : let out := (RequestHandler.mk docRoot dir).handleRequest ask.files req {} i
        x.connection.replied = if out.isStream then [] else [out.rep])
      (viewers : let out := (RequestHandler.mk docRoot dir).handleRequest ask.files req {} i
        ∀ k, s.Joined i k ↔ i ∈ out.streamDirectory.viewers k)

theorem Stands.mono (h : Stands docRoot s i x) (hasked : ∀ ask ∈ s.asked, ask ∈ s'.asked)
    (hother : i ∈ s'.asked.map Ask.conn → i ∈ s.asked.map Ask.conn)
    (hviewers : ∀ k, s'.Joined i k ↔ s.Joined i k) : Stands docRoot s' i x := by
  cases h with
  | waiting parsed reading unasked => exact .waiting parsed reading fun h => unasked (hother h)
  | refused parsed reading unasked => exact .refused parsed reading fun h => unasked (hother h)
  | answered parsed reading handled ask asked conn dir numbered unknown replied viewers =>
    exact .answered parsed reading handled ask (hasked ask asked) conn dir numbered unknown replied
      fun k => (hviewers k).trans (viewers k)

/-- What is known of the server. -/
structure Serving (docRoot : Bytes) (s : HttpServer) : Prop where
  docRoot_eq : s.requestHandler.docRoot = docRoot
  fresh : s.newConnection = {}
  accepting : s.accepting = true
  numbered : s.dir.Numbered s.streams
  /-- the viewers are those who asked, in that order -/
  ordered : ∀ k, (s.dir.viewers k).Sublist (s.asked.map Ask.conn)
  once : (s.asked.map Ask.conn).Nodup
  /-- who has left a stream is not in its list any more -/
  gone : ∀ k i, (k, i) ∈ s.left → i ∈ s.asked.map Ask.conn ∧ i ∉ s.dir.viewers k
  known : ∀ ask ∈ s.asked, ask.conn < s.sessions.length ∧ ask.streams ≤ s.streams
  settled : ∀ x ∈ s.sessions, x.connection.Settled
  stands : ∀ i x, s.sessions[i]? = some x → Stands docRoot s i x

theorem Serving.not_viewer (h : Serving docRoot s) (hi : i ∉ s.asked.map Ask.conn) (k : Nat) :
    i ∉ s.dir.viewers k := fun hmem => hi ((h.ordered k).subset hmem)

theorem Serving.not_left (h : Serving docRoot s) (hi : i ∉ s.asked.map Ask.conn) (k : Nat) :
    (k, i) ∉ s.left := fun hmem => hi (h.gone k i hmem).1

theorem streams_of_numbered {n : Nat} (h : s.dir.Numbered n) : s.streams = n := by
  rw [streams, h.streamId_eq]
  rfl

theorem serving_start (docRoot : Bytes) : Serving docRoot (start docRoot) where
  docRoot_eq := rfl
  fresh := rfl
  accepting := rfl
  numbered := ⟨rfl, rfl⟩
  ordered _ := List.nil_sublist _
  once := List.nodup_nil
  gone _ _ h := absurd h List.not_mem_nil
  known _ h := absurd h List.not_mem_nil
  settled _ h := absurd h List.not_mem_nil
  stands _ _ h := by cases h

theorem Serving.addStream (h : Serving docRoot s) : Serving docRoot (s.setDir s.dir.addStream) := by
  have hnumbered := h.numbered.addStream
  have hstreams : (s.setDir s.dir.addStream).streams = s.streams + 1 :=
    streams_of_numbered (s := s.setDir s.dir.addStream) hnumbered
  have hviewers : ∀ k, (s.setDir s.dir.addStream).dir.viewers k = s.dir.viewers k :=
    StreamDirectory.viewers_addStream s.dir
  refine ⟨h.docRoot_eq, h.fresh, h.accepting, hstreams ▸ hnumbered, fun k => ?_, h.once,
    fun k i hleft => ?_, fun ask hask => ?_, h.settled, fun i x hi => ?_⟩
  · rw [hviewers]
    exact h.ordered k
  · rw [hviewers]
    exact h.gone k i hleft
  · rw [hstreams]
    exact ⟨(h.known ask hask).1, Nat.le_succ_of_le (h.known ask hask).2⟩
  · exact (h.stands i x hi).mono (fun _ => id) id fun k => by rw [Joined, Joined, hviewers]; rfl

theorem Serving.handleAccept (h : Serving docRoot s) (error : Bool) :
    Serving docRoot (s.handleAccept error) := by
  cases error with
  | true =>
    exact ⟨h.docRoot_eq, rfl, rfl, h.numbered, h.ordered, h.once, h.gone, h.known, h.settled,
      fun i x hi => (h.stands i x hi).mono (fun _ => id) id fun _ => Iff.rfl⟩
  | false =>
    refine ⟨h.docRoot_eq, rfl, rfl, h.numbered, h.ordered, h.once, h.gone, fun ask hask => ?_,
      fun x hx => ?_, fun i x hi => ?_⟩
    · refine ⟨Nat.lt_of_lt_of_le (h.known ask hask).1 ?_, (h.known ask hask).2⟩
      exact Nat.le.intro List.length_append.symm
    · rcases List.mem_append.mp hx with hx | hx
      · exact h.settled x hx
      · rw [List.mem_singleton.mp hx, h.fresh]
        exact .inl rfl
    · have hi' : (s.sessions ++ [{ connection := s.newConnection.start }])[i]? = some x := hi
      rcases Nat.lt_or_ge i s.sessions.length with hlt | hge
      · rw [List.getElem?_append_left hlt] at hi'
        exact (h.stands i x hi').mono (fun _ => id) id fun _ => Iff.rfl
      · -- the new one has sent nothing yet
        rw [List.getElem?_append_right hge] at hi'
        rw [List.getElem?_singleton] at hi'
        obtain ⟨-, hx⟩ := Option.ite_none_right_eq_some.mp hi'
        obtain rfl := Option.some.inj hx
        rw [h.fresh]
        refine .waiting rfl (fun _ => rfl) fun hmem => ?_
        obtain ⟨ask, hask, rfl⟩ := List.mem_map.mp hmem
        exact absurd (h.known ask hask).1 (Nat.not_lt.mpr hge)

theorem getElem?_setSession (hj : (s.setSession i x).sessions[j]? = some y) :
    j = i ∧ y = x ∨ j ≠ i ∧ s.sessions[j]? = some y := by
  have hset : (s.sessions.set i x)[j]? = some y := hj
  by_cases hij : i = j
  · subst hij
    have hlt : i < (s.sessions.set i x).length := (List.getElem?_eq_some_iff.mp hset).1
    rw [List.getElem?_set_self (by rwa [List.length_set] at hlt)] at hset
    exact .inl ⟨rfl, (Option.some.inj hset).symm⟩
  · rw [List.getElem?_set_ne hij] at hset
    exact .inr ⟨fun h => hij h.symm, hset⟩

theorem Serving.setSession (h : Serving docRoot s) (hsettled : x.connection.Settled)
    (hstands : Stands docRoot s i x) : Serving docRoot (s.setSession i x) := by
  refine ⟨h.docRoot_eq, h.fresh, h.accepting, h.numbered, h.ordered, h.once, h.gone,
    fun ask hask => ?_, fun y hy => ?_, fun j y hj => ?_⟩
  · refine ⟨?_, (h.known ask hask).2⟩
    show ask.conn < (s.sessions.set i x).length
    rw [List.length_set]
    exact (h.known ask hask).1
  · rcases List.mem_or_eq_of_mem_set hy with hy | rfl
    · exact h.settled y hy
    · exact hsettled
  · rcases getElem?_setSession hj with ⟨rfl, rfl⟩ | ⟨-, hj⟩
    · exact hstands.mono (fun _ => id) id fun _ => Iff.rfl
    · exact (h.stands j y hj).mono (fun _ => id) id fun _ => Iff.rfl

theorem Serving.ask (h : Serving docRoot s) (hi : i < s.sessions.length)
    (hunasked : i ∉ s.asked.map Ask.conn) {dir : StreamDirectory Nat}
    (hdir : dir.Numbered s.streams)
    (hviewers : ∀ k, dir.viewers k = s.dir.viewers k ∨ dir.viewers k = s.dir.viewers k ++ [i])
    {files : Bytes → Option Bytes} (hsettled : x.connection.Settled)
    (hstands : Stands docRoot
      ((s.setSession i x).recordAsk ⟨i, s.streams, files⟩ dir) i x) :
    Serving docRoot ((s.setSession i x).recordAsk ⟨i, s.streams, files⟩ dir) := by
  let t := (s.setSession i x).recordAsk ⟨i, s.streams, files⟩ dir
  have hstreams : t.streams = s.streams := streams_of_numbered (s := t) hdir
  have hconns : t.asked.map Ask.conn = s.asked.map Ask.conn ++ [i] := List.map_append
  have hnext : ∀ j k, j ∈ dir.viewers k → j ∈ s.dir.viewers k ∨ j = i := by
    intro j k hj
    rcases hviewers k with hk | hk
    · exact .inl (hk ▸ hj)
    · exact (List.mem_append.mp (hk ▸ hj)).imp_right List.mem_singleton.mp
  refine ⟨h.docRoot_eq, h.fresh, h.accepting, hstreams.symm ▸ hdir, fun k => ?_, ?_,
    fun k j hleft => ?_, fun ask hask => ?_, fun y hy => ?_, fun j y hj => ?_⟩
  · rw [hconns]
    rcases hviewers k with hk | hk
    · exact hk ▸ (h.ordered k).trans (List.sublist_append_left _ _)
    · exact hk ▸ (h.ordered k).append (List.Sublist.refl _)
  · rw [hconns, List.nodup_append]
    refine ⟨h.once, List.nodup_singleton i, fun a ha b hb => ?_⟩
    rw [List.mem_singleton.mp hb]
    rintro rfl
    exact hunasked ha
  · obtain ⟨hasked, hnot⟩ := h.gone k j hleft
    refine ⟨hconns ▸ List.mem_append_left _ hasked, fun hj => ?_⟩
    rcases hnext j k hj with hj | rfl
    · exact hnot hj
    · exact hunasked hasked
  · rw [hstreams]
    show ask.conn < (s.sessions.set i x).length ∧ _
    rw [List.length_set]
    rcases List.mem_append.mp hask with hask | hask
    · exact h.known ask hask
    · rw [List.mem_singleton.mp hask]
      exact ⟨hi, Nat.le_refl _⟩
  · rcases List.mem_or_eq_of_mem_set hy with hy | rfl
    · exact h.settled y hy
    · exact hsettled
  · rcases getElem?_setSession hj with ⟨rfl, rfl⟩ | ⟨hne, hj⟩
    · exact hstands
    · refine (h.stands j y hj).mono (fun ask => List.mem_append_left _) (fun hmem => ?_) fun k => ?_
      · rw [hconns] at hmem
        exact (List.mem_append.mp hmem).resolve_right fun hj => hne (List.mem_singleton.mp hj)
      · show j ∈ dir.viewers k ∨ (k, j) ∈ s.left ↔ j ∈ s.dir.viewers k ∨ (k, j) ∈ s.left
        rcases hviewers k with hk | hk
        · rw [hk]
        · rw [hk, List.mem_append, List.mem_singleton, or_iff_left hne]

/-- **A read.** -/
theorem Serving.handleData (h : Serving docRoot s) (hi : s.sessions[i]? = some x)
    (hreading : x.connection.reading = true) {data : Bytes} {files : Bytes → Option Bytes}
    {c : Connection} (hc : c = Connection.handleData i ⟨s.requestHandler, files⟩ data
      { x.connection with reading := false }) (hsettled : c.Settled) :
    Serving docRoot
      (handOver i data files x.connection (s.setSession i ⟨c, x.received ++ data⟩)) := by
  have hlt : i < s.sessions.length := (List.getElem?_eq_some_iff.mp hi).1
  cases h.stands i x hi with
  | refused _ hnot => exact absurd hreading (by rw [hnot]; exact Bool.false_ne_true)
  | answered _ hnot => exact absurd hreading (by rw [hnot]; exact Bool.false_ne_true)
  | @waiting left p req parsed reading unasked =>
    have hconn := reading hreading
    have hmore := parse_append {} {} x.received data
    rw [parsed] at hmore
    replace hmore : parse {} {} (x.received ++ data) = p.parse req data := hmore
    rw [hconn] at hc ⊢
    obtain ⟨v, left', p', req', hparse⟩ : ∃ v left' p' req', p.parse req data =
        (v, left', p', req') := ⟨_, _, _, _, rfl⟩
    have hparse' : (Connection.start { requestParser := p, request := req }).requestParser.parse
      (Connection.start { requestParser := p, request := req }).request data = _ := hparse
    rw [hparse] at hmore
    cases v with
    | indeterminate =>
      simp only [handOver, hparse']
      refine h.setSession hsettled (.waiting hmore (fun _ => ?_) unasked)
      rw [hc, Connection.handleData]
      simp only [hparse']
      rfl
    | no =>
      simp only [handOver, hparse']
      refine h.setSession hsettled (.refused hmore ?_ unasked)
      rw [hc, Connection.handleData]
      simp only [hparse']
      rfl
    | yes =>
      have hmk : RequestHandler.mk docRoot s.dir = s.requestHandler := by rw [← h.docRoot_eq]
      have hreply : (Connection.start { requestParser := p, request := req }).reply = {} := rfl
      have hdir := s.requestHandler.numbered_handleRequest files req' {} i h.numbered
      have hviewers := s.requestHandler.viewers_handleRequest files req' {} i
      generalize hout : s.requestHandler.handleRequest files req' {} i = out at hdir hviewers
      have hfields : c.reading = false ∧ c.handled = [req'] ∧
          c.replied = if out.isStream then [] else [out.rep] := by
        rw [hc, Connection.handleData]
        simp only [hparse', hreply, hout]
        cases out.isStream <;> exact ⟨rfl, rfl, rfl⟩
      simp only [handOver, hparse', hreply]
      show Serving docRoot (recordAsk ⟨i, s.streams, files⟩
        (s.requestHandler.handleRequest files req' {} i).streamDirectory _)
      rw [hout]
      refine h.ask hlt unasked hdir hviewers hsettled ?_
      refine .answered hmore hfields.1 hfields.2.1 ⟨i, s.streams, files⟩
        (List.mem_append_right _ (List.mem_singleton_self _)) rfl s.dir h.numbered
        (h.not_viewer unasked) ?_ ?_
      · rw [hmk, hout]
        exact hfields.2.2
      · rw [hmk, hout]
        exact fun k => or_iff_left (h.not_left unasked k)

theorem Stands.handleWrite (h : Stands docRoot s i x) {c : Connection} {error : Bool}
    (hc : x.connection.step i (.handleWrite error) = some c) :
    Stands docRoot s i { x with connection := c } := by
  rw [Connection.step] at hc
  cases hw : x.connection.writes with
  | nil =>
    rw [hw] at hc
    cases hc
  | cons w ws =>
    rw [hw] at hc
    obtain rfl := Option.some.inj hc
    cases h with
    | waiting parsed reading unasked =>
      refine .waiting parsed (fun hr => ?_) unasked
      -- nothing is written to a client that is still read
      rw [reading hr] at hw
      cases hw
    | refused parsed reading unasked => exact .refused parsed reading unasked
    | answered parsed reading handled ask asked conn dir numbered unknown replied viewers =>
      exact .answered parsed reading handled ask asked conn dir numbered unknown replied viewers

theorem Stands.readError (h : Stands docRoot s i x) (hreading : x.connection.reading = true) :
    Stands docRoot s i { x with connection := { x.connection with reading := false } } := by
  cases h with
  | waiting parsed _ unasked => exact .waiting parsed (fun h => Bool.noConfusion h) unasked
  | refused _ hnot => exact absurd hreading (by rw [hnot]; exact Bool.false_ne_true)
  | answered _ hnot => exact absurd hreading (by rw [hnot]; exact Bool.false_ne_true)

/-- **A viewer leaves**, and everybody stays where it was otherwise. -/
theorem Serving.leave (h : Serving docRoot s) {k pos : Nat}
    (hj : (s.dir.viewers k)[pos]? = some j) :
    Serving docRoot { s.setDir (s.dir.deregister k pos) with left := s.left ++ [(k, j)] } := by
  have hnumbered := h.numbered.modify k (·.eraseConnection pos)
  have hviewers := s.dir.viewers_deregister k pos
  obtain ⟨hlt, rfl⟩ := List.getElem?_eq_some_iff.mp hj
  have hnodup := h.once.sublist (h.ordered k)
  have hsub : ∀ k', ((s.dir.deregister k pos).viewers k').Sublist (s.dir.viewers k') := by
    intro k'
    rw [hviewers]
    split_ifs
    · exact List.eraseIdx_sublist ..
    · exact .refl _
  -- it is in the list no more, and all others are
  have hothers : ∀ k' i, i ∈ (s.dir.deregister k pos).viewers k' ↔
      i ∈ s.dir.viewers k' ∧ ¬(k' = k ∧ i = (s.dir.viewers k)[pos]) := by
    intro k' i
    rw [hviewers]
    by_cases hk : k' = k
    · subst hk
      rw [if_pos rfl, ← hnodup.erase_getElem pos hlt, hnodup.mem_erase_iff]
      rw [and_comm, and_congr_right_iff]
      exact fun _ => not_congr ⟨fun heq => ⟨rfl, heq⟩, And.right⟩
    · rw [if_neg hk]
      exact ⟨fun hmem => ⟨hmem, fun h => hk h.1⟩, And.left⟩
  refine ⟨h.docRoot_eq, h.fresh, h.accepting, ?_, fun k' => (hsub k').trans (h.ordered k'), h.once,
    fun k' i hleft => ?_, h.known, h.settled, fun i x hi => ?_⟩
  · exact hnumbered
  · rcases List.mem_append.mp hleft with hleft | hleft
    · obtain ⟨hasked, hnot⟩ := h.gone k' i hleft
      exact ⟨hasked, fun hmem => hnot ((hsub k').subset hmem)⟩
    · obtain ⟨rfl, rfl⟩ := Prod.mk.inj (List.mem_singleton.mp hleft)
      exact ⟨(h.ordered k').subset (List.getElem_mem hlt), fun hmem =>
        ((hothers k' _).mp hmem).2 ⟨rfl, rfl⟩⟩
  · refine (h.stands i x hi).mono (fun _ => id) id fun k' => ?_
    show i ∈ (s.dir.deregister k pos).viewers k' ∨ (k', i) ∈ s.left ++ [(k, _)] ↔ _
    rw [hothers, List.mem_append, List.mem_singleton, Prod.mk.injEq, Joined]
    by_cases hv : k' = k ∧ i = (s.dir.viewers k)[pos]
    · obtain ⟨rfl, rfl⟩ := hv
      exact iff_of_true (.inr (.inr ⟨rfl, rfl⟩)) (.inl (List.getElem_mem hlt))
    · rw [and_iff_left hv, or_iff_left hv]

theorem Serving.step (h : Serving docRoot s) (hs : s.step a = some s') : Serving docRoot s' := by
  cases a with
  | addStream => exact Option.some.inj hs ▸ h.addStream
  | handleAccept error =>
    obtain ⟨-, hs⟩ := Option.ite_none_right_eq_some.mp hs
    exact Option.some.inj hs ▸ h.handleAccept error
  | handleRead i error data files =>
    obtain ⟨x, hi, hs⟩ := Option.bind_eq_some_iff.mp hs
    obtain ⟨c, hc, rfl⟩ := Option.map_eq_some_iff.mp hs
    have hsettled := (h.settled x (List.mem_of_getElem? hi)).step hc
    obtain ⟨⟨hreading, -⟩, hc⟩ := Option.ite_none_right_eq_some.mp hc
    obtain rfl := Option.some.inj hc
    cases error with
    | true => exact h.setSession hsettled ((h.stands i x hi).readError hreading)
    | false => exact h.handleData hi hreading rfl hsettled
  | handleWrite i error =>
    obtain ⟨x, hi, hs⟩ := Option.bind_eq_some_iff.mp hs
    obtain ⟨c, hc, rfl⟩ := Option.map_eq_some_iff.mp hs
    exact h.setSession ((h.settled x (List.mem_of_getElem? hi)).step hc)
      ((h.stands i x hi).handleWrite hc)
  | leave k pos =>
    obtain ⟨j, hj, rfl⟩ := Option.map_eq_some_iff.mp hs
    exact h.leave hj

/-! ### What the clients get -/

/-- What the client of connection `i` has got, whose request was for `path`. -/
structure Served (docRoot : Bytes) (s : HttpServer) (i : Nat) (c : Connection) (ask : Ask)
    (path : Bytes) : Prop where
  /-- a file, or that there is none -/
  file : extension (addIndex path) ≠ ascii "mjpeg" → 0 ∉ docRoot ++ addIndex path →
    (∃ rep, c.replied = [rep] ∧ readResponse.run (denote rep.toBuffers) =
      some (Site.respond ⟨docRoot, ask.files⟩ path, [])) ∧ ∀ k, ¬s.Joined i k
  /-- the stream it asked for, and no other; it is a viewer of it until it leaves -/
  stream : ∀ k, StreamPath path k →
    if 1 ≤ k ∧ k ≤ ask.streams then
      c.replied = [] ∧ (∀ k', s.Joined i k' ↔ k' = k) ∧ (i ∈ s.dir.viewers k ↔ (k, i) ∉ s.left)
    else c.replied = [.stockReply .notFound] ∧ ∀ k', ¬s.Joined i k'

variable {d : RequestHead} {more path : Bytes}

theorem Serving.answered (h : Serving docRoot s) (hi : s.sessions[i]? = some x)
    (hsent : x.received = d.render ++ more) :
    x.connection.handled = [d.request] ∧ ∃ ask ∈ s.asked, ask.conn = i ∧
      ∃ dir : StreamDirectory Nat, dir.Numbered ask.streams ∧ (∀ k, i ∉ dir.viewers k) ∧
        let out := (RequestHandler.mk docRoot dir).handleRequest ask.files d.request {} i
        (x.connection.replied = if out.isStream then [] else [out.rep]) ∧
          ∀ k, s.Joined i k ↔ i ∈ out.streamDirectory.viewers k := by
  have hyes := parse_render d more
  rw [← hsent] at hyes
  cases h.stands i x hi with
  | waiting parsed => exact absurd (hyes.symm.trans parsed) (by simp)
  | refused parsed => exact absurd (hyes.symm.trans parsed) (by simp)
  | answered parsed _ handled ask asked conn dir numbered unknown replied viewers =>
    obtain ⟨-, -, -, rfl⟩ : Tribool.yes = .yes ∧ more = _ ∧ _ = _ ∧ d.request = _ := by
      simpa using hyes.symm.trans parsed
    exact ⟨handled, ask, asked, conn, dir, numbered, unknown, replied, viewers⟩

theorem Serving.served (h : Serving docRoot s) {c : Connection} {ask : Ask}
    {dir : StreamDirectory Nat} {out : Outcome Nat} (hp : Encodes d.uri path)
    (hmax : ask.streams ≤ 2147483647) (hdir : dir.Numbered ask.streams)
    (hunknown : ∀ k, i ∉ dir.viewers k)
    (hout : (RequestHandler.mk docRoot dir).handleRequest ask.files d.request {} i = out)
    (hreplied : c.replied = if out.isStream then [] else [out.rep])
    (hviewers : ∀ k, s.Joined i k ↔ i ∈ out.streamDirectory.viewers k) :
    Served docRoot s i c ask path where
  file hext hnul := by
    obtain ⟨hstream, hwell, hresponse, hsame⟩ : out.isStream = false ∧ out.rep.WellFormed ∧
        out.rep.response = Site.respond ⟨docRoot, ask.files⟩ path ∧ out.streamDirectory = dir := by
      rw [← hout]
      exact handleRequest_eq ⟨docRoot, ask.files⟩ dir d i (urlDecode_of_encodes hp) hnul hext
    rw [hstream, if_neg Bool.false_ne_true] at hreplied
    rw [hsame] at hviewers
    exact ⟨⟨_, hreplied, hresponse ▸ hwell.read⟩, fun k hmem => hunknown k ((hviewers k).mp hmem)⟩
  stream k hk := by
    rw [handleRequest_of_streamPath d i hdir hmax hp hk] at hout
    split_ifs at hout ⊢ with hnumber
    · subst hout
      have hjoined : ∀ k', s.Joined i k' ↔ k' = k := by
        intro k'
        rw [hviewers, hdir.viewers_registerNth hnumber.1 hnumber.2]
        split_ifs with hk'
        · exact iff_of_true (List.mem_append_right _ (List.mem_singleton_self i)) hk'
        · exact iff_of_false (hunknown k') hk'
      refine ⟨hreplied, hjoined, fun hmem hleft => (h.gone k i hleft).2 hmem, fun hnot => ?_⟩
      exact ((hjoined k).mpr rfl).resolve_right hnot
    · subst hout
      exact ⟨hreplied, fun k' hmem => hunknown k' ((hviewers k').mp hmem)⟩

/-- **Clients do not get into each other's way.**  In every run of the server,
whatever else is accepted, read, written and added meanwhile and whoever leaves,
a client of which a whole request has been read was handed over once, and has
got what there was for its path at that moment; what is still being written to
it is intact.  The viewers of every stream are clients that asked, each once and
in the order of their requests, and the server accepts more. -/
theorem serves {as : List Action} (hrun : exec step (start docRoot) as = some s)
    (hi : s.sessions[i]? = some x) (hsent : x.received = d.render ++ more)
    (hp : Encodes d.uri path) (hmax : s.streams ≤ 2147483647) :
    x.connection.handled = [d.request] ∧ x.connection.Safe ∧
      (∃ ask ∈ s.asked, ask.conn = i ∧ ask.streams ≤ s.streams ∧
        Served docRoot s i x.connection ask path) ∧
      (s.asked.map Ask.conn).Nodup ∧
      (∀ k, (s.dir.viewers k).Sublist (s.asked.map Ask.conn)) ∧ s.accepting = true := by
  have h : Serving docRoot s := (steps_iff_exec.mpr hrun).invariant
    (fun _ _ _ hs _ hstep => hs.step hstep) (serving_start docRoot)
  obtain ⟨hhandled, ask, hask, hconn, dir, hdir, hunknown, hreplied, hviewers⟩ :=
    h.answered hi hsent
  have hstreams := (h.known ask hask).2
  exact ⟨hhandled, (h.settled x (List.mem_of_getElem? hi)).safe,
    ⟨ask, hask, hconn, hstreams, h.served hp (hstreams.trans hmax) hdir hunknown rfl hreplied
      hviewers⟩, h.once, h.ordered, h.accepting⟩

/-- Three clients at once; the request of the second arrives in two pieces, and it
leaves the stream that the third is still watching. -/
def threeClients : List Action :=
  let page := (RequestHead.get (ascii "/")).render
  let stream := (RequestHead.get (ascii "/1.mjpeg")).render
  let files := fun _ => none
  [.handleAccept false, .handleAccept true, .addStream, .handleAccept false, .handleAccept false,
    .handleRead 1 false (stream.take 9) files, .handleRead 0 false page files,
    .handleRead 1 false (stream.drop 9) files, .handleRead 2 false stream files,
    .handleWrite 0 false, .leave 1 0]

theorem serves_three : ∃ s x, exec step (start (ascii "/www")) threeClients = some s ∧
    s.sessions[1]? = some x ∧ (s.dir.viewers 1, s.left) = ([2], [(1, 1)]) ∧
    x.connection.handled = [(RequestHead.get (ascii "/1.mjpeg")).request] ∧ x.connection.Safe ∧
      (∃ ask ∈ s.asked, ask.conn = 1 ∧ ask.streams ≤ s.streams ∧
        Served (ascii "/www") s 1 x.connection ask (ascii "/1.mjpeg")) ∧
      (s.asked.map Ask.conn).Nodup ∧
      (∀ k, (s.dir.viewers k).Sublist (s.asked.map Ask.conn)) ∧ s.accepting = true := by
  have hseen : ((exec step (start (ascii "/www")) threeClients).bind fun s =>
      s.sessions[1]?.map fun x => (x.received, s.streams, s.dir.viewers 1, s.left)) =
      some ((RequestHead.get (ascii "/1.mjpeg")).render ++ [], 1, [2], [(1, 1)]) := by
    decide +kernel
  obtain ⟨s, hs, hx⟩ := Option.bind_eq_some_iff.mp hseen
  obtain ⟨x, hx, heq⟩ := Option.map_eq_some_iff.mp hx
  obtain ⟨hsent, hrest⟩ := Prod.mk.inj heq
  obtain ⟨hstreams, hleft⟩ := Prod.mk.inj hrest
  exact ⟨s, x, hs, hx, hleft,
    serves hs hx hsent (encodes_percentEncode isPlain _) (by rw [hstreams]; decide)⟩

end HttpServer

end SecMon.Http
