import SecMon.Gui.Connection

/-!
# Packets

What a client sends reaches `handle_read` in pieces, and where they are cut is
nobody's choice.  `drive` is a connection that is given its pieces one after
the other, as long as it waits for any.  `drive_eq` says that this is one call
of `handle_read` with all the bytes at once, so `answer_ignores_cutting`: two
cuttings of the same bytes leave the same connection, and it has been answered
in one of three ways.

`answers_once` is about all runs, with read errors, finished writes and an
environment that changes: a connection hands over one request at most and
writes one reply at most.
-/

namespace SecMon.Http

namespace Connection

open Machine

variable {κ : Type}

/-- Read the pieces in turn.  Where no read is outstanding, the rest stays
unread. -/
def drive (self : κ) (env : Environment κ) : Connection → List Bytes → Connection
  | c, [] => c
  | c, data :: rest =>
    match c.step self (.handleRead false data env) with
    | some c' => drive self env c' rest
    | none => c

theorem exec_drive (self : κ) (env : Environment κ) (c : Connection) (pieces : List Bytes) :
    ∃ n, exec (step self) c ((pieces.take n).map fun data => .handleRead false data env) =
      some (drive self env c pieces) := by
  induction pieces generalizing c with
  | nil => exact ⟨0, rfl⟩
  | cons data rest ih =>
    cases hs : c.step self (.handleRead false data env) with
    | none =>
      refine ⟨0, ?_⟩
      rw [drive, hs]
      rfl
    | some c' =>
      obtain ⟨n, hn⟩ := ih c'
      refine ⟨n + 1, ?_⟩
      rw [drive, hs, List.take_succ_cons, List.map_cons, exec, hs]
      exact hn

theorem drive_of_not_reading {self : κ} {env : Environment κ} {c : Connection}
    (h : c.reading = false) (pieces : List Bytes) : drive self env c pieces = c := by
  cases pieces with
  | nil => rfl
  | cons data rest => rw [drive, step, if_neg (by simp [h])]

theorem handleData_nil {self : κ} {env : Environment κ} {c : Connection} (h : c.reading = true) :
    handleData self env [] { c with reading := false } = c := by
  show { c with reading := true } = c
  rw [← h]

/-- Where the parser comes to an answer, what follows is not looked at and
nothing more is read. -/
theorem handleData_answer {self : κ} {env : Environment κ} {c : Connection} {data left : Bytes}
    {v : Tribool} {q : RequestParser × Request}
    (h : c.requestParser.parse c.request data = (v, left, q)) (hv : v ≠ .indeterminate)
    (more : Bytes) :
    handleData self env (data ++ more) c = handleData self env data c ∧
      (handleData self env data c).reading = c.reading := by
  have happend := RequestParser.parse_append c.requestParser c.request data more
  rw [h] at happend
  cases v with
  | yes =>
    simp only [handleData, happend, h, true_and]
    split <;> rfl
  | no =>
    simp only [handleData, happend, h, true_and]
    rfl
  | indeterminate => exact absurd rfl hv

theorem handleData_more {self : κ} {env : Environment κ} {c : Connection} {data left : Bytes}
    {p : RequestParser} {req : Request}
    (h : c.requestParser.parse c.request data = (.indeterminate, left, p, req)) (more : Bytes) :
    handleData self env (data ++ more) c =
      handleData self env more { c with requestParser := p, request := req } := by
  have happend := RequestParser.parse_append c.requestParser c.request data more
  rw [h] at happend
  simp only [handleData, happend]

/-- **One piece after the other is all of them at once.** -/
theorem drive_eq {self : κ} {env : Environment κ} {c : Connection} {pieces : List Bytes}
    (hc : c.reading = true) (hp : ∀ data ∈ pieces, data.length ≤ 8192) :
    drive self env c pieces = handleData self env pieces.flatten { c with reading := false } := by
  induction pieces generalizing c with
  | nil => exact (handleData_nil hc).symm
  | cons data rest ih =>
    have hstep : c.step self (.handleRead false data env) =
        some (handleData self env data { c with reading := false }) :=
      if_pos ⟨hc, hp data List.mem_cons_self⟩
    have hrest : ∀ d ∈ rest, d.length ≤ 8192 := fun d hd => hp d (List.mem_cons_of_mem data hd)
    rw [drive, hstep, List.flatten_cons]
    dsimp only
    obtain ⟨v, left, p, req, hparse⟩ : ∃ v left p req,
        c.requestParser.parse c.request data = (v, left, p, req) := ⟨_, _, _, _, rfl⟩
    by_cases hv : v = .indeterminate
    · subst hv
      have hone : handleData self env data { c with reading := false } =
          { c with requestParser := p, request := req, reading := true } := by
        simp only [handleData, hparse]
      rw [hone, ih rfl hrest]
      exact (handleData_more (c := { c with reading := false }) hparse rest.flatten).symm
    · obtain ⟨hdone, hstill⟩ := handleData_answer (c := { c with reading := false }) hparse hv rest.flatten
      rw [hdone]
      exact drive_of_not_reading hstill rest

/-! ### How a connection is answered -/

/-- The three ways, by what the parser says of the bytes that were sent: not yet, as
a bad request, or by `handle_request`, which replies or hands the connection over
to a stream. -/
inductive Answered (self : κ) (env : Environment κ) (sent : Bytes) (c : Connection) : Prop
  | waiting (left : Bytes) (p : RequestParser) (req : Request)
      (parsed : RequestParser.parse {} {} sent = (.indeterminate, left, p, req))
      (reading : c.reading = true) (handled : c.handled = []) (replied : c.replied = [])
  | bad (left : Bytes) (p : RequestParser) (req : Request)
      (parsed : RequestParser.parse {} {} sent = (.no, left, p, req))
      (reading : c.reading = false) (handled : c.handled = [])
      (replied : c.replied = [.stockReply .badRequest])
  | handed (left : Bytes) (p : RequestParser) (req : Request)
      (parsed : RequestParser.parse {} {} sent = (.yes, left, p, req))
      (reading : c.reading = false) (handled : c.handled = [req])
      (replied : let out := env.handler.handleRequest env.files req {} self
        c.replied = if out.isStream then [] else [out.rep])

theorem answered_handleData (self : κ) (env : Environment κ) (data : Bytes) :
    Answered self env data (handleData self env data {}) := by
  obtain ⟨v, left, p, req, hparse⟩ : ∃ v left p req,
      RequestParser.parse {} {} data = (v, left, p, req) := ⟨_, _, _, _, rfl⟩
  have hparse' : ({} : Connection).requestParser.parse {} data = (v, left, p, req) := hparse
  rw [handleData]
  simp only [hparse']
  cases v with
  | yes =>
    cases hs : (env.handler.handleRequest env.files req {} self).isStream with
    | true => apply Answered.handed left p req hparse <;> simp [hs]
    | false => apply Answered.handed left p req hparse <;> simp [hs, writeReply]
  | no => exact .bad left p req hparse rfl rfl rfl
  | indeterminate => exact .waiting left p req hparse rfl rfl rfl

/-- **An answer does not depend on packet boundaries.**  However the bytes of
a client are cut into reads, the connection ends the same, and it is answered
as the parser says of them all. -/
theorem answer_ignores_cutting (self : κ) (env : Environment κ) {pieces pieces' : List Bytes}
    (hp : ∀ data ∈ pieces, data.length ≤ 8192) (hp' : ∀ data ∈ pieces', data.length ≤ 8192)
    (h : pieces.flatten = pieces'.flatten) :
    drive self env (start {}) pieces = drive self env (start {}) pieces' ∧
      Answered self env pieces.flatten (drive self env (start {}) pieces) := by
  have hall : ∀ ps : List Bytes, (∀ data ∈ ps, data.length ≤ 8192) →
      drive self env (start {}) ps = handleData self env ps.flatten {} :=
    fun ps hps => drive_eq rfl hps
  rw [hall pieces hp, hall pieces' hp', h]
  exact ⟨rfl, answered_handleData self env pieces'.flatten⟩

/-- A request in one piece, and one that is cut inside a line break. -/
theorem answer_ignores_cutting_request :
    let env : Environment Nat := ⟨⟨ascii "/www", {}⟩, fun _ => none⟩
    let pieces := [ascii "GET /a HTTP/1.0\r\n\r\n"]
    let pieces' := [ascii "GET /a HTTP/1.0\r", ascii "\n\r", ascii "\n"]
    drive 0 env (start {}) pieces = drive 0 env (start {}) pieces' ∧
      Answered 0 env pieces.flatten (drive 0 env (start {}) pieces) :=
  answer_ignores_cutting 0 _ (by decide +kernel) (by decide +kernel) (by decide +kernel)

/-- Nothing was handed over or replied while a read is outstanding. -/
structure Once (c : Connection) : Prop where
  fresh : c.reading = true → c.handled = [] ∧ c.replied = []
  handled : c.handled.length ≤ 1
  replied : c.replied.length ≤ 1

theorem Once.handleData {self : κ} {env : Environment κ} {data : Bytes} {c : Connection}
    (hr : c.reading = false) (hh : c.handled = []) (hp : c.replied = []) :
    (handleData self env data c).Once := by
  unfold Connection.handleData
  rcases c.requestParser.parse c.request data with ⟨v, left, p, req⟩
  cases v with
  | yes =>
    dsimp only
    split
    · exact ⟨by simp [hr], by simp [hh], by simp [hp]⟩
    · exact ⟨by simp [writeReply, hr], by simp [writeReply, hh], by simp [writeReply, hp]⟩
  | no => exact ⟨by simp [writeReply, hr], by simp [writeReply, hh], by simp [writeReply, hp]⟩
  | indeterminate => exact ⟨fun _ => ⟨hh, hp⟩, by simp [hh], by simp [hp]⟩

theorem Once.step {self : κ} {c c' : Connection} {a : Action κ} (h : c.Once)
    (hs : c.step self a = some c') : c'.Once := by
  cases a with
  | handleRead error data env =>
    obtain ⟨⟨hr, -⟩, hs⟩ := Option.ite_none_right_eq_some.mp hs
    obtain rfl := Option.some.inj hs
    obtain ⟨hh, hp⟩ := h.fresh hr
    cases error with
    | true => exact ⟨fun hr => absurd hr (by simp), h.handled, h.replied⟩
    | false => exact Once.handleData rfl hh hp
  | handleWrite error =>
    cases hw : c.writes with
    | nil => simp [Connection.step, hw] at hs
    | cons w ws =>
      simp only [Connection.step, hw, Option.some.injEq] at hs
      subst hs
      exact ⟨h.fresh, h.handled, h.replied⟩

/-- **A connection is answered once**, whatever its handlers are called with. -/
theorem answers_once {self : κ} {as : List (Action κ)} {c : Connection}
    (h : exec (step self) (start {}) as = some c) : c.Once := by
  refine (steps_iff_exec.mpr h).invariant (fun _ _ _ hc _ hs => Once.step hc hs) ?_
  exact ⟨fun _ => ⟨rfl, rfl⟩, Nat.zero_le 1, Nat.zero_le 1⟩

end Connection

end SecMon.Http
