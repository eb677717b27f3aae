import Mathlib.Data.List.TakeWhile
import SecMon.Core.Reader
import SecMon.Gui.Reply

/-!
# Reading a response

The other end of the wire: a reader of HTTP/1.0 responses, written from the
format and not from the server.  A response is a status line, lines
`name: value` up to an empty line, and as many bytes as its `Content-Length`
says; the names of headers are compared without regard to case.

`reads_head` says the reader undoes `Reply::to_buffers`, up to the content, for
every reply whose headers keep to the format (`Header.Plain`), and
`reads_response` adds the content when the reply declares its length.
-/

namespace SecMon.Http

open Reading Buffer

/-! ### Numbers -/

/-- A decimal number and nothing else. -/
def readDecimal (s : Bytes) : Option Nat :=
  if s.all fun b => (decDigit b).isSome then readDigits 10 decDigit s else none

theorem decDigit_ch {c : Char} (h : c.isDigit = true) :
    decDigit (ch c) = some (c.toNat - '0'.toNat) := by
  obtain ⟨hlo, hhi⟩ : 48 ≤ c.toNat ∧ c.toNat ≤ 57 := by
    simpa [Char.isDigit, UInt32.le_iff_toNat_le] using h
  have hb : (ch c).toNat = c.toNat := by
    show c.toNat % 256 = c.toNat
    omega
  unfold decDigit hexDigit
  rw [hb, if_pos ⟨hlo, hhi⟩, Option.filter_some]
  have hlt : c.toNat - 48 < 10 := by omega
  simp [hlt]

theorem isDigit_toDigits {c : Char} {n : Nat} (h : c ∈ Nat.toDigits 10 n) : c.isDigit = true :=
  Nat.isDigit_of_mem_toDigits (by decide) (by decide) h

theorem isSome_decDigit {b : UInt8} {n : Nat} (h : b ∈ decimal n) : (decDigit b).isSome = true := by
  obtain ⟨c, hc, rfl⟩ := List.mem_map.mp h
  rw [decDigit_ch (isDigit_toDigits hc)]
  rfl

theorem not_mem_decimal {b : UInt8} (hb : decDigit b = none) (n : Nat) : b ∉ decimal n := by
  intro h
  have hsome := isSome_decDigit h
  rw [hb] at hsome
  exact absurd hsome (by decide)

theorem foldl_decDigit {cs : List Char} (h : ∀ c ∈ cs, c.isDigit = true) (m : Nat) :
    (cs.map ch).foldl (fun n d => n * 10 + (decDigit d).getD 0) m = Nat.ofDigitChars 10 cs m := by
  induction cs generalizing m with
  | nil => rw [List.map_nil, List.foldl_nil, Nat.ofDigitChars_nil]
  | cons c cs ih =>
    rw [List.map_cons, List.foldl_cons, Nat.ofDigitChars_cons,
      decDigit_ch (h c List.mem_cons_self), Option.getD_some, Nat.mul_comm m 10]
    exact ih (fun d hd => h d (List.mem_cons_of_mem c hd)) _

/-- **A number is read back from its decimal digits.** -/
theorem readDecimal_decimal (n : Nat) : readDecimal (decimal n) = some n := by
  have hall : ∀ b ∈ decimal n, (decDigit b).isSome = true := fun b hb => isSome_decDigit hb
  have hval := foldl_decDigit (fun c hc => isDigit_toDigits (n := n) hc) 0
  rw [Nat.ofDigitChars_ten_toDigits] at hval
  rw [readDecimal, if_pos (List.all_eq_true.mpr hall), readDigits,
    List.takeWhile_eq_self_iff.mpr hall]
  cases hd : decimal n with
  | nil =>
    unfold decimal at hd
    exact absurd (List.map_eq_nil_iff.mp hd) Nat.toDigits_ne_nil
  | cons b ds =>
    rw [show (Nat.toDigits 10 n).map ch = b :: ds from hd] at hval
    exact congrArg some hval

/-! ### The reader -/

structure Response where
  code : Nat
  headers : List Header
  content : Bytes
  deriving DecidableEq, Repr

/-- A status line; gives the code. -/
def readStatusLine : Reader UInt8 Nat := do
  literal (ascii "HTTP/1.0 ")
  let digits ← exactly 3
  literal (ascii " ")
  let _ ← upTo [13, 10]
  lift (readDecimal digits)

/-- A line `name: value`. -/
def readHeader (line : Bytes) : Option Header :=
  ((upTo [ch ':', ch ' ']).run line).map fun r => ⟨r.1, r.2⟩

/-- Lines `name: value` and the empty line behind them. -/
def readHeaders : Reader UInt8 (List Header) := do
  let lines ← block [13, 10]
  lift (lines.mapM readHeader)

def toLower (b : UInt8) : UInt8 := if 65 ≤ b.toNat ∧ b.toNat ≤ 90 then b + 32 else b

/-- The value of the first header of that name. -/
def field (name : Bytes) (headers : List Header) : Option Bytes :=
  (headers.find? fun h => h.name.map toLower = name.map toLower).map (·.value)

def contentLength (headers : List Header) : Option Nat :=
  (field (ascii "Content-Length") headers).bind readDecimal

/-- Everything before the content. -/
def readHead : Reader UInt8 (Nat × List Header) := do
  let code ← readStatusLine
  let headers ← readHeaders
  return (code, headers)

def readResponse : Reader UInt8 Response := do
  let head ← readHead
  let n ← lift (contentLength head.2)
  let content ← exactly n
  return ⟨head.1, head.2, content⟩

/-! ### What it reads -/

/-- A header that keeps to the format. -/
structure Header.Plain (h : Header) : Prop where
  name_colon : ch ':' ∉ h.name
  name_cr : 13 ∉ h.name
  value_cr : 13 ∉ h.value

/-- A header as it is written, without the end of the line. -/
def Header.line (h : Header) : Bytes := h.name ++ Reply.nameValueSeparator ++ h.value

theorem readHeader_line {h : Header} (hp : h.Plain) : readHeader h.line = some h := by
  have hread : Reads (upTo [ch ':', ch ' ']) (h.name ++ [ch ':', ch ' ']) h.name :=
    reads_upTo hp.name_colon
  unfold readHeader Header.line
  rw [show Reply.nameValueSeparator = [ch ':', ch ' '] from rfl, hread h.value]
  rfl

theorem reads_headerBlock {headers : List Header} (hp : ∀ h ∈ headers, h.Plain) :
    Reads readHeaders (headers.flatMap (fun h => h.line ++ [13, 10]) ++ [13, 10]) headers := by
  have hlines : ∀ line ∈ headers.map Header.line, line ≠ [] ∧ 13 ∉ line := by
    intro line hl
    obtain ⟨h, hh, rfl⟩ := List.mem_map.mp hl
    have hsep : (13 : UInt8) ∉ Reply.nameValueSeparator := by decide
    refine ⟨by simp [Header.line, Reply.nameValueSeparator], ?_⟩
    intro hm
    rcases List.mem_append.mp hm with hm | hm
    · rcases List.mem_append.mp hm with hm | hm
      · exact (hp h hh).name_cr hm
      · exact hsep hm
    · exact (hp h hh).value_cr hm
  have hmap : (headers.map Header.line).mapM readHeader = some headers := by
    clear hlines
    induction headers with
    | nil => rfl
    | cons h hs ih =>
      rw [List.map_cons, List.mapM_cons, readHeader_line (hp h List.mem_cons_self),
        ih fun g hg => hp g (List.mem_cons_of_mem h hg)]
      rfl
  have hblock : Reads (block [13, 10])
      ((headers.map Header.line).flatMap (· ++ [13, 10]) ++ [13, 10]) (headers.map Header.line) :=
    reads_block hlines
  rw [List.flatMap_map] at hblock
  have hall := hblock.bind (f := fun lines => lift (lines.mapM readHeader)) (reads_lift hmap)
  rwa [List.append_nil] at hall

theorem reads_statusString (status : StatusType) :
    Reads readStatusLine status.statusString status.code := by
  -- every status string is made this way
  obtain ⟨reason, hstr, hcr⟩ : ∃ reason, status.statusString =
      ascii "HTTP/1.0 " ++ (decimal status.code ++ (ascii " " ++ (reason ++ [13, 10]))) ∧
        13 ∉ reason := by
    refine ⟨(status.statusString.drop 13).dropLast.dropLast, ?_⟩
    cases status <;> decide +kernel
  have hlen : (decimal status.code).length = 3 := by cases status <;> decide
  rw [hstr]
  refine (reads_literal _).bind ((reads_exactly hlen).bind ((reads_literal _).bind ?_))
  have hreason : Reads (upTo [13, 10]) (reason ++ [13, 10]) reason := reads_upTo hcr
  have hline := hreason.bind (f := fun _ => lift (readDecimal (decimal status.code)))
    (reads_lift (readDecimal_decimal status.code))
  rwa [List.append_nil] at hline

theorem denote_toBuffers (rep : Reply) : denote rep.toBuffers =
    rep.status.statusString ++
      (rep.headers.flatMap (fun h => h.line ++ [13, 10]) ++ [13, 10]) ++ rep.content := by
  have hheaders : ∀ (k : Nat) (hs : List Header),
      (hs.mapIdx fun i h => headerBuffers (k + i) h).flatten.flatMap (·.bytes) =
        hs.flatMap fun h => h.line ++ [13, 10] := by
    intro k hs
    induction hs generalizing k with
    | nil => rfl
    | cons h hs ih =>
      have hnext := ih (k + 1)
      rw [List.mapIdx_cons, List.flatten_cons, List.flatMap_append, List.flatMap_cons]
      simp only [Nat.add_assoc, Nat.add_comm 1] at hnext ⊢
      rw [hnext]
      simp [headerBuffers, textBuffer, Header.line, Reply.crlf]
  have h0 := hheaders 0 rep.headers
  simp only [Nat.zero_add] at h0
  unfold denote Reply.toBuffers
  rw [List.cons_append, List.flatMap_cons, List.flatMap_append, h0]
  simp [textBuffer, Reply.crlf]

/-- **The head of a reply is read back**, whatever follows it. -/
theorem reads_head (status : StatusType) {headers : List Header} (hp : ∀ h ∈ headers, h.Plain) :
    Reads readHead
      (status.statusString ++ (headers.flatMap (fun h => h.line ++ [13, 10]) ++ [13, 10]))
      (status.code, headers) :=
  (reads_statusString status).bind ((reads_headerBlock hp).map fun headers => (status.code, headers))

/-- **A reply is read back** if it declares how long its content is. -/
theorem reads_response {rep : Reply} (hp : ∀ h ∈ rep.headers, h.Plain)
    (hlen : contentLength rep.headers = some rep.content.length) :
    Reads readResponse (denote rep.toBuffers) ⟨rep.status.code, rep.headers, rep.content⟩ := by
  rw [denote_toBuffers]
  refine (reads_head rep.status hp).bind ?_
  exact (reads_lift hlen).bind ((reads_exactly rfl).map (Response.mk rep.status.code rep.headers))

end SecMon.Http
