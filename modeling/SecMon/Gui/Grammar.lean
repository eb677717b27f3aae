import Mathlib.Data.List.ModifyLast
import SecMon.Gui.RequestParser

/-!
# The grammar of the request parser

`RequestHead` is a derivation of the grammar: a request line and headers, each
with the lines folded into it, every part carrying the proof that its bytes
are of the right class.  `render` is the text derived, `IsHead` the language.

The parser accepts exactly the language, and the request it builds is the one
of the derivation (`accepts_iff`).  The proof reads the words of each state off
`consume`, from the first state to the last: a state that expects one byte
and a state that gathers bytes are one lemma each (`Decider.Follows.symbol`,
`Decider.Follows.loop`), and the headers are an induction on the length of
what is left.  `parse_decides` adds what an incremental parser owes its
caller: the answer is never late and never early.
-/

namespace SecMon.Http

open Decider RequestParser

/-! ### Bytes -/

def IsControl (b : UInt8) : Prop := b.toNat ≤ 31 ∨ b.toNat = 127

/-- A byte of a method or of a header's name. -/
def IsToken (b : UInt8) : Prop := 33 ≤ b.toNat ∧ b.toNat ≤ 126 ∧ b ∉ tspecials

def IsDecimal (b : UInt8) : Prop := 48 ≤ b.toNat ∧ b.toNat ≤ 57

def IsBlank (b : UInt8) : Prop := b = ch ' ' ∨ b = ch '\t'

instance : DecidablePred IsControl := fun _ => inferInstanceAs (Decidable (_ ∨ _))
instance : DecidablePred IsToken := fun _ => inferInstanceAs (Decidable (_ ∧ _))
instance : DecidablePred IsDecimal := fun _ => inferInstanceAs (Decidable (_ ∧ _))
instance : DecidablePred IsBlank := fun _ => inferInstanceAs (Decidable (_ ∨ _))

theorem forall_byte {P : UInt8 → Prop} (h : ∀ i : Fin 256, P (UInt8.ofFin i)) (b : UInt8) :
    P b := by
  have := h b.toFin
  rwa [UInt8.ofFin_toFin] at this

theorem isNoToken_iff (b : UInt8) : isNoToken b = true ↔ ¬ IsToken b :=
  forall_byte (P := fun b => isNoToken b = true ↔ ¬ IsToken b) (by decide +kernel) b

theorem isCtl_iff (b : UInt8) : isCtl (toInt b) = true ↔ IsControl b :=
  forall_byte (P := fun b => isCtl (toInt b) = true ↔ IsControl b) (by decide +kernel) b

theorem isDigit_iff (b : UInt8) : isDigit (toInt b) = true ↔ IsDecimal b :=
  forall_byte (P := fun b => isDigit (toInt b) = true ↔ IsDecimal b) (by decide +kernel) b

/-! ### Derivations -/

/-- A line folded into a header's value: blanks, then text that does not begin
with one. -/
structure Fold where
  blanks : Bytes
  text : Bytes
  blanks_ne : blanks ≠ []
  blank : ∀ b ∈ blanks, IsBlank b
  plain : ∀ b ∈ text, ¬ IsControl b
  head : text.head? ≠ some (ch ' ')

/-- A header and the lines folded into it. -/
structure HeaderLines where
  name : Bytes
  value : Bytes
  folds : List Fold
  name_ne : name ≠ []
  token : ∀ b ∈ name, IsToken b
  plain : ∀ b ∈ value, ¬ IsControl b

/-- A request line and its headers.  The version's numbers have any length; what the
source's `int` makes of those that are too great for it is left to `Version`. -/
structure RequestHead where
  method : Bytes
  uri : Bytes
  major : Bytes
  minor : Bytes
  headers : List HeaderLines
  method_ne : method ≠ []
  method_token : ∀ b ∈ method, IsToken b
  uri_plain : ∀ b ∈ uri, ¬ IsControl b ∧ b ≠ ch ' '
  major_ne : major ≠ []
  major_decimal : ∀ b ∈ major, IsDecimal b
  minor_ne : minor ≠ []
  minor_decimal : ∀ b ∈ minor, IsDecimal b

def crlf : Bytes := [ch '\r', ch '\n']

def Fold.render (f : Fold) : Bytes := f.blanks ++ f.text ++ crlf

def HeaderLines.render (h : HeaderLines) : Bytes :=
  h.name ++ ch ':' :: ch ' ' :: h.value ++ crlf ++ h.folds.flatMap Fold.render

/-- The header of the derivation: folded text is appended to the value. -/
def HeaderLines.header (h : HeaderLines) : Header :=
  { name := h.name, value := h.value ++ h.folds.flatMap Fold.text }

def RequestHead.render (d : RequestHead) : Bytes :=
  d.method ++ ch ' ' :: d.uri ++ ch ' ' :: ascii "HTTP/" ++ d.major ++ ch '.' :: d.minor ++ crlf ++
    d.headers.flatMap HeaderLines.render ++ crlf

/-- The request of the derivation. -/
def RequestHead.request (d : RequestHead) : Request where
  method := d.method
  uri := d.uri
  httpVersionMajor := d.major.foldl addDigit 0
  httpVersionMinor := d.minor.foldl addDigit 0
  headers := d.headers.map HeaderLines.header

/-- The language. -/
def IsHead (s : Bytes) : Prop := ∃ d : RequestHead, d.render = s

/-! ### The request line -/

/-- The parser in state `st`, with the request as far as it has been read. -/
abbrev reading (st : RequestParser.State) (req : Request) : RequestParser × Request :=
  (⟨st⟩, req)

/-- The states before the version numbers. -/
def beforeVersion : List RequestParser.State :=
  [.methodStart, .method, .uri, .httpVersionH, .httpVersionT1, .httpVersionT2, .httpVersionP,
    .httpVersionSlash]

section reads

variable {req : Request} {w : Bytes} {q' : RequestParser × Request}

theorem ne_of_class {P : UInt8 → Prop} {b c : UInt8} (hb : P b) (hc : ¬ P c) : b ≠ c := by
  rintro rfl
  exact hc hb

theorem gathers_method : Gathers feed IsToken (ch ' ')
    (fun m => reading .method { req with method := req.method ++ m })
    (fun m => reading .uri { req with method := req.method ++ m }) where
  stop := by decide
  more m b hb := by
    have hne : b ≠ ch ' ' := ne_of_class hb (by decide)
    simp [feed, consume, isNoToken_iff, hb, hne]
  leaves m := by simp [feed, consume]
  refuses m b hb hne := by simp [feed, consume, isNoToken_iff, hb, hne]

theorem gathers_uri : Gathers feed (fun b => ¬ IsControl b ∧ b ≠ ch ' ') (ch ' ')
    (fun m => reading .uri { req with uri := req.uri ++ m })
    (fun m => reading .httpVersionH { req with uri := req.uri ++ m }) where
  stop := by decide
  more m b hb := by simp [feed, consume, isCtl_iff, hb.1, hb.2]
  leaves m := by simp [feed, consume]
  refuses m b hb hne := by
    have hc : IsControl b := by
      by_contra hc
      exact hb ⟨hc, hne⟩
    simp [feed, consume, isCtl_iff, hne, hc]

theorem gathers_major : Gathers feed IsDecimal (ch '.')
    (fun m => reading .httpVersionMajor
      { req with httpVersionMajor := m.foldl addDigit req.httpVersionMajor })
    (fun m => reading .httpVersionMinorStart
      { req with httpVersionMajor := m.foldl addDigit req.httpVersionMajor }) where
  stop := by decide
  more m b hb := by
    have hne : b ≠ ch '.' := ne_of_class hb (by decide)
    simp [feed, consume, isDigit_iff, hb, hne]
  leaves m := by simp [feed, consume]
  refuses m b hb hne := by simp [feed, consume, isDigit_iff, hb, hne]

theorem gathers_minor : Gathers feed IsDecimal (ch '\r')
    (fun m => reading .httpVersionMinor
      { req with httpVersionMinor := m.foldl addDigit req.httpVersionMinor })
    (fun m => reading .expectingNewline1
      { req with httpVersionMinor := m.foldl addDigit req.httpVersionMinor }) where
  stop := by decide
  more m b hb := by
    have hne : b ≠ ch '\r' := ne_of_class hb (by decide)
    simp [feed, consume, isDigit_iff, hb, hne]
  leaves m := by simp [feed, consume]
  refuses m b hb hne := by simp [feed, consume, isDigit_iff, hb, hne]

section opening

variable {R : RequestParser × Request → Bytes → Prop} (hR : Follows feed R)
  (hnil : ∀ st ∈ beforeVersion, ∀ req, ¬ R (reading st req) [])

include hR hnil

theorem reads_method : R (reading .methodStart req) w ↔
    ∃ l rest, w = l ++ ch ' ' :: rest ∧ l ≠ [] ∧ (∀ b ∈ l, IsToken b) ∧
      R (reading .uri { req with method := req.method ++ l }) rest := by
  refine hR.gather_some (hnil _ (by decide) _) (fun _ => hnil _ (by decide) _) gathers_method
    (fun b hb => ?_) (fun b hb => ?_)
  · simp [feed, consume, isNoToken_iff, hb]
  · simp [feed, consume, isNoToken_iff, hb]

theorem reads_uri : R (reading .uri req) w ↔
    ∃ l rest, w = l ++ ch ' ' :: rest ∧ (∀ b ∈ l, ¬ IsControl b ∧ b ≠ ch ' ') ∧
      R (reading .httpVersionH { req with uri := req.uri ++ l }) rest :=
  hR.gather (by simp) (fun _ => hnil _ (by decide) _) gathers_uri

theorem reads_httpVersion : R (reading .httpVersionH req) w ↔
    ∃ rest, w = ascii "HTTP/" ++ rest ∧ R (reading .httpVersionMajorStart
      { req with httpVersionMajor := 0, httpVersionMinor := 0 }) rest := by
  have symbol : ∀ (e : Char) (st st' : RequestParser.State) (req' : Request),
      st ∈ beforeVersion → feed (reading st req) (ch e) = (.indeterminate, reading st' req') →
      (∀ b, b ≠ ch e → (feed (reading st req) b).1 = .no) →
      ∀ w, R (reading st req) w ↔ ∃ rest, w = ch e :: rest ∧ R (reading st' req') rest :=
    fun e st st' req' hst hstep helse w => hR.symbol (hnil st hst req) hstep helse
  have h₁ := symbol 'H' .httpVersionH .httpVersionT1 req (by decide) (by simp [feed, consume])
    fun b hb => by simp [feed, consume, hb]
  have h₂ := symbol 'T' .httpVersionT1 .httpVersionT2 req (by decide) (by simp [feed, consume])
    fun b hb => by simp [feed, consume, hb]
  have h₃ := symbol 'T' .httpVersionT2 .httpVersionP req (by decide) (by simp [feed, consume])
    fun b hb => by simp [feed, consume, hb]
  have h₄ := symbol 'P' .httpVersionP .httpVersionSlash req (by decide) (by simp [feed, consume])
    fun b hb => by simp [feed, consume, hb]
  have h₅ := symbol '/' .httpVersionSlash .httpVersionMajorStart
    { req with httpVersionMajor := 0, httpVersionMinor := 0 } (by decide)
    (by simp [feed, consume]) fun b hb => by simp [feed, consume, hb]
  constructor
  · intro hH
    obtain ⟨_, rfl, hT⟩ := (h₁ _).mp hH
    obtain ⟨_, rfl, hTT⟩ := (h₂ _).mp hT
    obtain ⟨_, rfl, hP⟩ := (h₃ _).mp hTT
    obtain ⟨_, rfl, hslash⟩ := (h₄ _).mp hP
    obtain ⟨rest, rfl, h⟩ := (h₅ _).mp hslash
    exact ⟨rest, rfl, h⟩
  · intro hr
    obtain ⟨rest, rfl, h⟩ := hr
    exact (h₁ _).mpr ⟨_, rfl, (h₂ _).mpr ⟨_, rfl, (h₃ _).mpr ⟨_, rfl, (h₄ _).mpr
      ⟨_, rfl, (h₅ _).mpr ⟨rest, rfl, h⟩⟩⟩⟩⟩

/-- **What comes before the version numbers.** -/
theorem reads_opening : R (reading .methodStart {}) w ↔
    ∃ method uri rest, w = method ++ ch ' ' :: (uri ++ ch ' ' :: (ascii "HTTP/" ++ rest)) ∧
      (method ≠ [] ∧ ∀ b ∈ method, IsToken b) ∧ (∀ b ∈ uri, ¬ IsControl b ∧ b ≠ ch ' ') ∧
      R (reading .httpVersionMajorStart { method := method, uri := uri }) rest := by
  constructor
  · intro hmethod
    obtain ⟨method, _, rfl, hm, hmt, huri⟩ := (reads_method hR hnil).mp hmethod
    obtain ⟨uri, _, rfl, hu, hversion⟩ := (reads_uri hR hnil).mp huri
    obtain ⟨rest, rfl, h⟩ := (reads_httpVersion hR hnil).mp hversion
    exact ⟨method, uri, rest, rfl, ⟨hm, hmt⟩, hu, h⟩
  · intro hr
    obtain ⟨method, uri, rest, rfl, ⟨hm, hmt⟩, hu, h⟩ := hr
    refine (reads_method hR hnil).mpr ⟨method, _, rfl, hm, hmt, ?_⟩
    refine (reads_uri hR hnil).mpr ⟨uri, _, rfl, hu, ?_⟩
    exact (reads_httpVersion hR hnil).mpr ⟨rest, rfl, h⟩

end opening

theorem feed_major (b : UInt8) :
    (IsDecimal b → feed (reading .httpVersionMajorStart req) b = (.indeterminate,
      reading .httpVersionMajor
        { req with httpVersionMajor := [b].foldl addDigit req.httpVersionMajor })) ∧
    (¬ IsDecimal b → (feed (reading .httpVersionMajorStart req) b).1 = .no) := by
  constructor <;> intro hb <;> simp [feed, consume, isDigit_iff, hb]

theorem feed_minor (b : UInt8) :
    (IsDecimal b → feed (reading .httpVersionMinorStart req) b = (.indeterminate,
      reading .httpVersionMinor
        { req with httpVersionMinor := [b].foldl addDigit req.httpVersionMinor })) ∧
    (¬ IsDecimal b → (feed (reading .httpVersionMinorStart req) b).1 = .no) := by
  constructor <;> intro hb <;> simp [feed, consume, isDigit_iff, hb]

theorem reads_major : Accepts feed (reading .httpVersionMajorStart req) w q' ↔
    ∃ l rest, w = l ++ ch '.' :: rest ∧ l ≠ [] ∧ (∀ b ∈ l, IsDecimal b) ∧
      Accepts feed (reading .httpVersionMinorStart
        { req with httpVersionMajor := l.foldl addDigit req.httpVersionMajor }) rest q' :=
  follows_accepts.gather_some not_accepts_nil (fun _ => not_accepts_nil) gathers_major
    (fun b => (feed_major b).1) (fun b => (feed_major b).2)

theorem reads_minor : Accepts feed (reading .httpVersionMinorStart req) w q' ↔
    ∃ l rest, w = l ++ ch '\r' :: rest ∧ l ≠ [] ∧ (∀ b ∈ l, IsDecimal b) ∧
      Accepts feed (reading .expectingNewline1
        { req with httpVersionMinor := l.foldl addDigit req.httpVersionMinor }) rest q' :=
  follows_accepts.gather_some not_accepts_nil (fun _ => not_accepts_nil) gathers_minor
    (fun b => (feed_minor b).1) (fun b => (feed_minor b).2)

theorem reads_newline1 : Accepts feed (reading .expectingNewline1 req) w q' ↔
    ∃ rest, w = ch '\n' :: rest ∧ Accepts feed (reading .headerLineStart req) rest q' :=
  follows_accepts.symbol not_accepts_nil (by simp [feed, consume]) fun b hb => by
    simp [feed, consume, hb]

/-- **The request line.** -/
theorem reads_requestLine : Accepts feed (reading .methodStart {}) w q' ↔
    ∃ method uri major minor rest, w = method ++ ch ' ' :: (uri ++ ch ' ' :: (ascii "HTTP/" ++
        (major ++ ch '.' :: (minor ++ ch '\r' :: ch '\n' :: rest)))) ∧
      (method ≠ [] ∧ ∀ b ∈ method, IsToken b) ∧ (∀ b ∈ uri, ¬ IsControl b ∧ b ≠ ch ' ') ∧
      (major ≠ [] ∧ ∀ b ∈ major, IsDecimal b) ∧ (minor ≠ [] ∧ ∀ b ∈ minor, IsDecimal b) ∧
      Accepts feed (reading .headerLineStart
        { method := method, uri := uri, httpVersionMajor := major.foldl addDigit 0,
          httpVersionMinor := minor.foldl addDigit 0 }) rest q' := by
  rw [reads_opening follows_accepts fun _ _ _ => not_accepts_nil]
  constructor
  · intro hr
    obtain ⟨method, uri, _, rfl, hm, hu, hmajor⟩ := hr
    obtain ⟨major, _, rfl, hj, hjd, hminor⟩ := reads_major.mp hmajor
    obtain ⟨minor, _, rfl, hi, hid, hend⟩ := reads_minor.mp hminor
    obtain ⟨rest, rfl, h⟩ := reads_newline1.mp hend
    exact ⟨method, uri, major, minor, rest, rfl, hm, hu, ⟨hj, hjd⟩, ⟨hi, hid⟩, h⟩
  · intro hr
    obtain ⟨method, uri, major, minor, rest, rfl, hm, hu, ⟨hj, hjd⟩, ⟨hi, hid⟩, h⟩ := hr
    refine ⟨method, uri, _, rfl, hm, hu, reads_major.mpr ⟨major, _, rfl, hj, hjd, ?_⟩⟩
    exact reads_minor.mpr ⟨minor, _, rfl, hi, hid, reads_newline1.mpr ⟨rest, rfl, h⟩⟩

/-! ### Headers -/

variable {hs : List Header} {h : Header}

@[simp] theorem back_append (f : Header → Header) :
    Request.back f { req with headers := hs ++ [h] } = { req with headers := hs ++ [f h] } := by
  simp [Request.back, List.modifyLast_concat]

theorem reads_newline2 : Accepts feed (reading .expectingNewline2 req) w q' ↔
    ∃ rest, w = ch '\n' :: rest ∧ Accepts feed (reading .headerLineStart req) rest q' :=
  follows_accepts.symbol not_accepts_nil (by simp [feed, consume]) fun b hb => by
    simp [feed, consume, hb]

theorem reads_newline3 : Accepts feed (reading .expectingNewline3 req) w q' ↔
    w = [ch '\n'] ∧ q' = reading .expectingNewline3 req := by
  constructor
  · intro ha
    cases ha with
    | @last _ _ b hb =>
      by_cases hn : b = ch '\n'
      · subst hn
        simp [feed, consume] at hb
        exact ⟨rfl, hb.symm⟩
      · simp [feed, consume, hn] at hb
    | @more _ _ _ b _ hb _ =>
      by_cases hn : b = ch '\n'
      · simp [feed, consume, hn] at hb
      · simp [feed, consume, hn] at hb
  · intro hr
    obtain ⟨rfl, rfl⟩ := hr
    exact .last (by simp [feed, consume])

theorem reads_headerValue :
    Accepts feed (reading .headerValue { req with headers := hs ++ [h] }) w q' ↔
      ∃ l rest, w = l ++ ch '\r' :: rest ∧ (∀ b ∈ l, ¬ IsControl b) ∧
        Accepts feed (reading .expectingNewline2
          { req with headers := hs ++ [{ h with value := h.value ++ l }] }) rest q' := by
  have hg : Gathers feed (¬ IsControl ·) (ch '\r')
      (fun m => reading .headerValue
        { req with headers := hs ++ [{ h with value := h.value ++ m }] })
      (fun m => reading .expectingNewline2
        { req with headers := hs ++ [{ h with value := h.value ++ m }] }) := by
    refine ⟨by decide, fun m b hb => ?_, fun m => ?_, fun m b hb hne => ?_⟩
    · have hne : b ≠ ch '\r' := ne_of_class (P := (¬ IsControl ·)) hb (by decide)
      simp [feed, consume, isCtl_iff, hb, hne]
    · simp [feed, consume]
    · simp [feed, consume, isCtl_iff, not_not.mp hb, hne]
  exact follows_accepts.gather (by simp) (fun _ => not_accepts_nil) hg

theorem reads_headerName :
    Accepts feed (reading .headerName { req with headers := hs ++ [h] }) w q' ↔
      ∃ l rest, w = l ++ ch ':' :: rest ∧ (∀ b ∈ l, IsToken b) ∧
        Accepts feed (reading .spaceBeforeHeaderValue
          { req with headers := hs ++ [{ h with name := h.name ++ l }] }) rest q' := by
  have hg : Gathers feed IsToken (ch ':')
      (fun m => reading .headerName { req with headers := hs ++ [{ h with name := h.name ++ m }] })
      (fun m => reading .spaceBeforeHeaderValue
        { req with headers := hs ++ [{ h with name := h.name ++ m }] }) := by
    refine ⟨by decide, fun m b hb => ?_, fun m => ?_, fun m b hb hne => ?_⟩
    · have hne : b ≠ ch ':' := ne_of_class hb (by decide)
      simp [feed, consume, isNoToken_iff, hb, hne]
    · simp [feed, consume]
    · simp [feed, consume, isNoToken_iff, hb, hne]
  exact follows_accepts.gather (by simp) (fun _ => not_accepts_nil) hg

theorem reads_space : Accepts feed (reading .spaceBeforeHeaderValue req) w q' ↔
    ∃ rest, w = ch ' ' :: rest ∧ Accepts feed (reading .headerValue req) rest q' :=
  follows_accepts.symbol not_accepts_nil (by simp [feed, consume]) fun b hb => by
    simp [feed, consume, hb]

theorem reads_headerLine :
    Accepts feed (reading .headerName { req with headers := hs ++ [h] }) w q' ↔
      ∃ l value rest, w = l ++ ch ':' :: ch ' ' :: (value ++ (crlf ++ rest)) ∧
        (∀ b ∈ l, IsToken b) ∧ (∀ b ∈ value, ¬ IsControl b) ∧
        Accepts feed (reading .headerLineStart { req with
          headers := hs ++ [{ name := h.name ++ l, value := h.value ++ value }] }) rest q' := by
  constructor
  · intro hname
    obtain ⟨l, _, rfl, hl, hspace⟩ := reads_headerName.mp hname
    obtain ⟨_, rfl, hvalue⟩ := reads_space.mp hspace
    obtain ⟨value, _, rfl, hv, hend⟩ := reads_headerValue.mp hvalue
    obtain ⟨rest, rfl, ha⟩ := reads_newline2.mp hend
    exact ⟨l, value, rest, rfl, hl, hv, ha⟩
  · intro hr
    obtain ⟨l, value, rest, rfl, hl, hv, ha⟩ := hr
    refine reads_headerName.mpr ⟨l, _, rfl, hl, reads_space.mpr ⟨_, rfl, ?_⟩⟩
    exact reads_headerValue.mpr ⟨value, _, rfl, hv, reads_newline2.mpr ⟨rest, rfl, ha⟩⟩

/-- The rest of a folded line: more blanks, text, and the end of the line. -/
theorem reads_headerLws :
    Accepts feed (reading .headerLws { req with headers := hs ++ [h] }) w q' ↔
      ∃ l text rest, w = l ++ (text ++ (crlf ++ rest)) ∧ (∀ b ∈ l, IsBlank b) ∧
        (∀ b ∈ text, ¬ IsControl b) ∧ text.head? ≠ some (ch ' ') ∧
        Accepts feed (reading .headerLineStart
          { req with headers := hs ++ [{ h with value := h.value ++ text }] }) rest q' := by
  have hblank : ∀ b, IsBlank b → feed (reading .headerLws { req with headers := hs ++ [h] }) b =
      (.indeterminate, reading .headerLws { req with headers := hs ++ [h] }) := by
    rintro b (rfl | rfl)
    · simp [feed, consume]
      decide
    · simp [feed, consume]
      decide
  have hcr : feed (reading .headerLws { req with headers := hs ++ [h] }) (ch '\r') =
      (.indeterminate, reading .expectingNewline2 { req with headers := hs ++ [h] }) := by
    simp [feed, consume]
  have htext : ∀ b, ¬ IsBlank b → ¬ IsControl b →
      feed (reading .headerLws { req with headers := hs ++ [h] }) b = (.indeterminate,
        reading .headerValue { req with headers := hs ++ [{ h with value := h.value ++ [b] }] }) := by
    intro b hb hc
    have hne : b ≠ ch '\r' := ne_of_class (P := (¬ IsControl ·)) hc (by decide)
    rw [IsBlank, not_or] at hb
    simp [feed, consume, isCtl_iff, hne, hb, hc]
  have hno : ∀ b, b ≠ ch '\r' → ¬ IsBlank b → IsControl b →
      (feed (reading .headerLws { req with headers := hs ++ [h] }) b).1 = .no := by
    intro b hne hb hc
    rw [IsBlank, not_or] at hb
    simp [feed, consume, isCtl_iff, hne, hb, hc]
  rw [follows_accepts.skip hblank]
  constructor
  · rintro ⟨l, rest, rfl, hl, hhead, ha⟩
    cases rest with
    | nil => exact absurd ha not_accepts_nil
    | cons b w =>
      have hb : ¬ IsBlank b := hhead b rfl
      by_cases hne : b = ch '\r'
      · -- a line of blanks
        subst hne
        obtain ⟨rest, rfl, hline⟩ := reads_newline2.mp ((accepts_cons hcr).mp ha)
        exact ⟨l, [], rest, rfl, hl, by simp, by simp, by simpa using hline⟩
      · by_cases hc : IsControl b
        · exact absurd ha (not_accepts_of_no (Prod.ext (hno b hne hb hc) rfl))
        · obtain ⟨text, _, rfl, ht, hend⟩ :=
            reads_headerValue.mp ((accepts_cons (htext b hb hc)).mp ha)
          obtain ⟨rest, rfl, hline⟩ := reads_newline2.mp hend
          refine ⟨l, b :: text, rest, rfl, hl, by simpa [hc] using ht, ?_, by simpa using hline⟩
          intro he
          exact hb (.inl (Option.some.inj he))
  · rintro ⟨l, text, rest, rfl, hl, ht, hhead, ha⟩
    cases text with
    | nil =>
      refine ⟨l, crlf ++ rest, rfl, hl, ?_, (accepts_cons hcr).mpr (reads_newline2.mpr ⟨rest, rfl, ?_⟩)⟩
      · rintro b hb
        obtain rfl := Option.some.inj hb
        decide
      · simpa using ha
    | cons b text =>
      have hc : ¬ IsControl b := ht b List.mem_cons_self
      have hb : ¬ IsBlank b := by
        rintro (rfl | rfl)
        · exact hhead rfl
        · exact hc (by decide)
      refine ⟨l, b :: text ++ (crlf ++ rest), rfl, hl, by simpa using hb, ?_⟩
      refine (accepts_cons (htext b hb hc)).mpr (reads_headerValue.mpr ⟨text, _, rfl, ?_, ?_⟩)
      · exact fun c hc => ht c (List.mem_cons_of_mem b hc)
      · exact reads_newline2.mpr ⟨rest, rfl, by simpa using ha⟩

/-- What can follow a line: the empty line, a fold if there is a header to
fold into, or a header. -/
theorem reads_headerLineStart : Accepts feed (reading .headerLineStart req) w q' ↔
    (w = crlf ∧ q' = reading .expectingNewline3 req) ∨
    (req.headers ≠ [] ∧ ∃ b rest, w = b :: rest ∧ IsBlank b ∧
      Accepts feed (reading .headerLws req) rest q') ∨
    ∃ b rest, w = b :: rest ∧ IsToken b ∧ Accepts feed (reading .headerName
      { req with headers := req.headers ++ [{ name := [b] }] }) rest q' := by
  have hcr : feed (reading .headerLineStart req) (ch '\r') =
      (.indeterminate, reading .expectingNewline3 req) := by
    simp [feed, consume]
  have hblank : req.headers ≠ [] → ∀ b, IsBlank b → feed (reading .headerLineStart req) b =
      (.indeterminate, reading .headerLws req) := by
    intro hne b hb
    have hbr : b ≠ ch '\r' := ne_of_class hb (by decide)
    rw [IsBlank] at hb
    simp [feed, consume, hbr, hb, hne]
  have htoken : ∀ b, IsToken b → feed (reading .headerLineStart req) b = (.indeterminate,
      reading .headerName { req with headers := req.headers ++ [{ name := [b] }] }) := by
    intro b hb
    have hbr : b ≠ ch '\r' := ne_of_class hb (by decide)
    have hbb : ¬ IsBlank b := by
      rintro (rfl | rfl) <;> exact absurd hb (by decide)
    rw [IsBlank] at hbb
    simp [feed, consume, hbr, hbb, isNoToken_iff, hb]
  have hno : ∀ b, b ≠ ch '\r' → (req.headers ≠ [] → ¬ IsBlank b) → ¬ IsToken b →
      (feed (reading .headerLineStart req) b).1 = .no := by
    intro b hbr hbb hb
    by_cases hne : req.headers = []
    · simp [feed, consume, hbr, hne, isNoToken_iff, hb]
    · have hbb := hbb hne
      rw [IsBlank] at hbb
      simp [feed, consume, hbr, hbb, isNoToken_iff, hb]
  constructor
  · intro ha
    cases w with
    | nil => exact absurd rfl ha.ne_nil
    | cons b w =>
      by_cases hbr : b = ch '\r'
      · subst hbr
        obtain ⟨rfl, hq⟩ := reads_newline3.mp ((accepts_cons hcr).mp ha)
        exact .inl ⟨rfl, hq⟩
      · by_cases hbb : req.headers ≠ [] ∧ IsBlank b
        · exact .inr (.inl ⟨hbb.1, b, w, rfl, hbb.2, (accepts_cons (hblank hbb.1 b hbb.2)).mp ha⟩)
        · by_cases hb : IsToken b
          · exact .inr (.inr ⟨b, w, rfl, hb, (accepts_cons (htoken b hb)).mp ha⟩)
          · have hbb' : req.headers ≠ [] → ¬ IsBlank b := fun hne hb => hbb ⟨hne, hb⟩
            exact absurd ha (not_accepts_of_no (Prod.ext (hno b hbr hbb' hb) rfl))
  · rintro (⟨rfl, rfl⟩ | ⟨hne, b, rest, rfl, hb, ha⟩ | ⟨b, rest, rfl, hb, ha⟩)
    · exact (accepts_cons hcr).mpr (reads_newline3.mpr ⟨rfl, rfl⟩)
    · exact (accepts_cons (hblank hne b hb)).mpr ha
    · exact (accepts_cons (htoken b hb)).mpr ha

theorem reads_fold (f : Fold)
    (ha : Accepts feed (reading .headerLineStart
      { req with headers := hs ++ [{ h with value := h.value ++ f.text }] }) w q') :
    Accepts feed (reading .headerLineStart { req with headers := hs ++ [h] })
      (f.render ++ w) q' := by
  obtain ⟨b, l, hbl⟩ := List.exists_cons_of_ne_nil f.blanks_ne
  have hblank := f.blank
  rw [hbl, List.forall_mem_cons] at hblank
  refine reads_headerLineStart.mpr (.inr (.inl ⟨by simp, b, l ++ (f.text ++ (crlf ++ w)), ?_,
    hblank.1, reads_headerLws.mpr ⟨l, f.text, w, rfl, hblank.2, f.plain, f.head, ha⟩⟩))
  rw [Fold.render, hbl]
  simp

theorem reads_folds : ∀ (folds : List Fold) {h : Header},
    Accepts feed (reading .headerLineStart { req with
      headers := hs ++ [{ h with value := h.value ++ folds.flatMap Fold.text }] }) w q' →
    Accepts feed (reading .headerLineStart { req with headers := hs ++ [h] })
      (folds.flatMap Fold.render ++ w) q'
  | [], h, ha => by simpa using ha
  | f :: folds, h, ha => by
    rw [List.flatMap_cons, List.append_assoc]
    refine reads_fold f (reads_folds folds ?_)
    simpa using ha

theorem reads_header (d : HeaderLines)
    (ha : Accepts feed (reading .headerLineStart
      { req with headers := req.headers ++ [{ name := d.name, value := d.value }] }) w q') :
    Accepts feed (reading .headerLineStart req)
      (d.name ++ ch ':' :: ch ' ' :: (d.value ++ (crlf ++ w))) q' := by
  obtain ⟨b, l, hbl⟩ := List.exists_cons_of_ne_nil d.name_ne
  have htoken := d.token
  rw [hbl, List.forall_mem_cons] at htoken
  refine reads_headerLineStart.mpr (.inr (.inr ⟨b, l ++ ch ':' :: ch ' ' :: (d.value ++ (crlf ++ w)),
    by rw [hbl]; rfl, htoken.1, reads_headerLine.mpr ⟨l, d.value, w, rfl, htoken.2, d.plain, ?_⟩⟩))
  rw [hbl] at ha
  exact ha

/-- **The headers**, when one has been begun: lines folded into it, then more
headers, then the empty line. -/
theorem reads_headers : Accepts feed (reading .headerLineStart { req with headers := hs ++ [h] })
      w q' ↔
    ∃ (folds : List Fold) (ds : List HeaderLines),
      w = folds.flatMap Fold.render ++ (ds.flatMap HeaderLines.render ++ crlf) ∧
      q' = reading .expectingNewline3 { req with
        headers := hs ++ { h with value := h.value ++ folds.flatMap Fold.text } ::
          ds.map HeaderLines.header } := by
  constructor
  · induction hn : w.length using Nat.strongRecOn generalizing w hs h with
    | _ n ih =>
      intro ha
      rcases reads_headerLineStart.mp ha with ⟨rfl, rfl⟩ | ⟨_, b, rest, rfl, hb, hlws⟩ |
        ⟨b, rest, rfl, hb, hname⟩
      · exact ⟨[], [], rfl, by simp⟩
      · obtain ⟨l, text, rest', rfl, hl, ht, hhead, hnext⟩ := reads_headerLws.mp hlws
        obtain ⟨folds, ds, rfl, rfl⟩ := ih rest'.length (by simp at hn; omega) rfl hnext
        refine ⟨⟨b :: l, text, by simp, by simpa [hb] using hl, ht, hhead⟩ :: folds, ds, ?_, ?_⟩
        · simp [Fold.render]
        · simp
      · obtain ⟨l, value, rest', rfl, hl, hv, hnext⟩ := reads_headerLine.mp hname
        obtain ⟨folds, ds, rfl, rfl⟩ := ih rest'.length (by simp at hn; omega) rfl hnext
        refine ⟨[], ⟨b :: l, value, folds, by simp, by simpa [hb] using hl, hv⟩ :: ds, ?_, ?_⟩
        · simp [HeaderLines.render]
        · simp [HeaderLines.header]
  · have key : ∀ (ds : List HeaderLines) (hs : List Header) (h : Header),
        Accepts feed (reading .headerLineStart { req with headers := hs ++ [h] })
          (ds.flatMap HeaderLines.render ++ crlf) (reading .expectingNewline3
            { req with headers := hs ++ h :: ds.map HeaderLines.header }) := by
      intro ds
      induction ds with
      | nil => exact fun hs h => reads_headerLineStart.mpr (.inl ⟨rfl, rfl⟩)
      | cons d ds ih =>
        intro hs h
        have hw : (d :: ds).flatMap HeaderLines.render ++ crlf = d.name ++ ch ':' :: ch ' ' ::
            (d.value ++ (crlf ++ (d.folds.flatMap Fold.render ++
              (ds.flatMap HeaderLines.render ++ crlf)))) := by
          simp [HeaderLines.render]
        rw [hw]
        refine reads_header d (reads_folds d.folds ?_)
        simpa [HeaderLines.header] using ih (hs ++ [h]) d.header
    intro hr
    obtain ⟨folds, ds, rfl, rfl⟩ := hr
    exact reads_folds folds (key ds hs _)

/-- **The headers** of a request that has none yet. -/
theorem reads_firstHeader (hreq : req.headers = []) :
    Accepts feed (reading .headerLineStart req) w q' ↔
      ∃ ds : List HeaderLines, w = ds.flatMap HeaderLines.render ++ crlf ∧
        q' = reading .expectingNewline3 { req with headers := ds.map HeaderLines.header } := by
  constructor
  · intro ha
    rcases reads_headerLineStart.mp ha with ⟨rfl, rfl⟩ | ⟨hne, _⟩ | ⟨b, rest, rfl, hb, hname⟩
    · exact ⟨[], rfl, by rw [List.map_nil, ← hreq]⟩
    · exact absurd hreq hne
    · rw [hreq] at hname
      obtain ⟨l, value, rest', rfl, hl, hv, hnext⟩ := reads_headerLine.mp hname
      obtain ⟨folds, ds, rfl, rfl⟩ := reads_headers.mp hnext
      refine ⟨⟨b :: l, value, folds, by simp, by simpa [hb] using hl, hv⟩ :: ds, ?_, ?_⟩
      · simp [HeaderLines.render]
      · simp [HeaderLines.header]
  · intro hr
    obtain ⟨ds, rfl, rfl⟩ := hr
    cases ds with
    | nil => exact reads_headerLineStart.mpr (.inl ⟨rfl, by rw [List.map_nil, ← hreq]⟩)
    | cons d ds =>
      have hw : (d :: ds).flatMap HeaderLines.render ++ crlf = d.name ++ ch ':' :: ch ' ' ::
          (d.value ++ (crlf ++ (d.folds.flatMap Fold.render ++
            (ds.flatMap HeaderLines.render ++ crlf)))) := by
        simp [HeaderLines.render]
      rw [hw]
      refine reads_header d ?_
      rw [hreq]
      exact reads_headers.mpr ⟨d.folds, ds, rfl, rfl⟩

end reads

/-! ### The language of the parser -/

/-- **The parser accepts the language, and builds the request derived.** -/
theorem accepts_iff {w : Bytes} {q' : RequestParser × Request} :
    Accepts feed ({}, {}) w q' ↔
      ∃ d : RequestHead, w = d.render ∧ q' = reading .expectingNewline3 d.request := by
  refine reads_requestLine.trans ⟨?_, ?_⟩
  · intro hr
    obtain ⟨method, uri, major, minor, rest, rfl, ⟨hm, hmt⟩, hu, ⟨hj, hjd⟩, ⟨hi, hid⟩, ha⟩ := hr
    obtain ⟨ds, rfl, rfl⟩ := (reads_firstHeader rfl).mp ha
    refine ⟨⟨method, uri, major, minor, ds, hm, hmt, hu, hj, hjd, hi, hid⟩, ?_, rfl⟩
    simp [RequestHead.render, crlf]
  · intro hr
    obtain ⟨d, rfl, rfl⟩ := hr
    refine ⟨d.method, d.uri, d.major, d.minor, d.headers.flatMap HeaderLines.render ++ crlf, ?_,
      ⟨d.method_ne, d.method_token⟩, d.uri_plain, ⟨d.major_ne, d.major_decimal⟩,
      ⟨d.minor_ne, d.minor_decimal⟩, (reads_firstHeader rfl).mpr ⟨d.headers, rfl, rfl⟩⟩
    simp [RequestHead.render, crlf]

theorem word_iff {w : Bytes} : Word feed ({}, {}) w ↔ IsHead w := by
  constructor
  · intro hr
    obtain ⟨q', h⟩ := hr
    obtain ⟨d, rfl, _⟩ := accepts_iff.mp h
    exact ⟨d, rfl⟩
  · intro hr
    obtain ⟨d, rfl⟩ := hr
    exact ⟨_, accepts_iff.mpr ⟨d, rfl, rfl⟩⟩

/-- **No state is a dead end.**  Each has a shortest way on, and the ways end
at the empty line. -/
theorem live (st : RequestParser.State) : ∀ req, ∃ w, Word feed (reading st req) w := by
  have way : ∀ (st st' : RequestParser.State) (e : Char),
      (∀ req, ∃ req', feed (reading st req) (ch e) = (.indeterminate, reading st' req')) →
      (∀ req, ∃ w, Word feed (reading st' req) w) → ∀ req, ∃ w, Word feed (reading st req) w := by
    intro st st' e hstep hw req
    obtain ⟨req', h⟩ := hstep req
    exact Word.of_step h (hw req')
  have newline3 : ∀ req, ∃ w, Word feed (reading .expectingNewline3 req) w := fun req =>
    ⟨[ch '\n'], _, reads_newline3.mpr ⟨rfl, rfl⟩⟩
  have lineStart := way .headerLineStart _ '\r' (fun _ => ⟨_, rfl⟩) newline3
  have newline2 := way .expectingNewline2 _ '\n' (fun _ => ⟨_, rfl⟩) lineStart
  have value := way .headerValue _ '\r' (fun _ => ⟨_, rfl⟩) newline2
  have space := way .spaceBeforeHeaderValue _ ' ' (fun _ => ⟨_, rfl⟩) value
  have newline1 := way .expectingNewline1 _ '\n' (fun _ => ⟨_, rfl⟩) lineStart
  have minor := way .httpVersionMinor _ '\r' (fun _ => ⟨_, rfl⟩) newline1
  have minorStart := way .httpVersionMinorStart _ '1' (fun _ => ⟨_, rfl⟩) minor
  have major := way .httpVersionMajor _ '.' (fun _ => ⟨_, rfl⟩) minorStart
  have majorStart := way .httpVersionMajorStart _ '1' (fun _ => ⟨_, rfl⟩) major
  have slash := way .httpVersionSlash _ '/' (fun _ => ⟨_, rfl⟩) majorStart
  have letterP := way .httpVersionP _ 'P' (fun _ => ⟨_, rfl⟩) slash
  have letterT2 := way .httpVersionT2 _ 'T' (fun _ => ⟨_, rfl⟩) letterP
  have letterT1 := way .httpVersionT1 _ 'T' (fun _ => ⟨_, rfl⟩) letterT2
  have letterH := way .httpVersionH _ 'H' (fun _ => ⟨_, rfl⟩) letterT1
  have uri := way .uri _ ' ' (fun _ => ⟨_, rfl⟩) letterH
  have method := way .method _ ' ' (fun _ => ⟨_, rfl⟩) uri
  cases st with
  | methodStart => exact way _ _ 'G' (fun _ => ⟨_, rfl⟩) method
  | method => exact method
  | uri => exact uri
  | httpVersionH => exact letterH
  | httpVersionT1 => exact letterT1
  | httpVersionT2 => exact letterT2
  | httpVersionP => exact letterP
  | httpVersionSlash => exact slash
  | httpVersionMajorStart => exact majorStart
  | httpVersionMajor => exact major
  | httpVersionMinorStart => exact minorStart
  | httpVersionMinor => exact minor
  | expectingNewline1 => exact newline1
  | headerLineStart => exact lineStart
  | headerLws => exact way _ _ '\r' (fun _ => ⟨_, rfl⟩) newline2
  | headerName => exact way _ _ ':' (fun _ => ⟨_, rfl⟩) space
  | spaceBeforeHeaderValue => exact space
  | headerValue => exact value
  | expectingNewline2 => exact newline2
  | expectingNewline3 => exact newline3

/-- What a parser owes its caller.  `rest` is what it has not read of `s`. -/
structure Decision (s : Bytes) (result : Tribool) (rest : Bytes) (req : Request) : Prop where
  /-- yes exactly when some prefix is in the language -/
  yes : result = .yes ↔ ∃ p, p <+: s ∧ IsHead p
  /-- it is the only one, it is what was read, and the request is the one it derives -/
  unique : ∀ d : RequestHead, d.render <+: s → s = d.render ++ rest ∧ req = d.request
  /-- undecided exactly when all of the input is a proper prefix of a word -/
  indeterminate : result = .indeterminate ↔ ∃ t, t ≠ [] ∧ IsHead (s ++ t)
  all : result = .indeterminate → rest = []
  /-- no in all other cases -/
  no : result = .no ↔ (∀ p, p <+: s → ¬ IsHead p) ∧ ∃ p, p <+: s ∧ ¬ ∃ t, IsHead (p ++ t)
  /-- and then the shortest prefix that begins no word was read -/
  shortest : result = .no → ∃ c, s = c ++ rest ∧ (¬ ∃ t, IsHead (c ++ t)) ∧
    ∀ p, p <+: c → p ≠ c → ∃ t, IsHead (p ++ t)

/-- **The request parser decides exactly its grammar.** -/
theorem parse_decides (s : Bytes) :
    Decision s (parse {} {} s).1 (parse {} {} s).2.1 (parse {} {} s).2.2.2 := by
  have hlive : ∀ (p : Bytes) (q' : RequestParser × Request),
      Feeds feed ({}, {}) p q' → ∃ w, Word feed q' w := fun p q' _ => live q'.1.state q'.2
  have hviable : ∀ p, Viable feed ({}, {}) p ↔ ∃ t, IsHead (p ++ t) := fun p =>
    exists_congr fun t => word_iff
  rw [parse_eq_run]
  refine ⟨?_, ?_, ?_, ?_, ?_, ?_⟩
  · rw [run_yes_iff]
    simp only [word_iff]
  · rintro d ⟨r, rfl⟩
    rw [(accepts_iff.mpr ⟨d, rfl, rfl⟩).run r]
    exact ⟨rfl, rfl⟩
  · rw [run_indeterminate_iff hlive]
    simp only [word_iff]
  · intro h
    rcases run_cases feed ({}, {}) s with ⟨_, _, _, _, _, hr⟩ | ⟨_, _, hr⟩ |
      ⟨_, _, _, _, _, _, _, _, hr⟩
    · rw [hr] at h
      simp at h
    · rw [hr]
    · rw [hr] at h
      simp at h
  · rw [run_no_iff hlive]
    simp only [word_iff, hviable]
  · intro h
    obtain ⟨c, hc, hno, hshort⟩ := run_no_shortest hlive h
    refine ⟨c, hc, fun hv => hno ((hviable c).mpr hv), fun p hp hne => ?_⟩
    exact (hviable p).mp (hshort p hp hne)

/-- A fold and a request that ends before the input does. -/
example : (parse {} {} (ascii "GET / HTTP/1.1\r\nA: b\r\n c\r\n\r\nX")).1 = .yes ∧
    (parse {} {} (ascii "GET / HTTP/1.1\r\nA: b\r\n c\r\n\r\nX")).2.1 = ascii "X" ∧
    (parse {} {} (ascii "GET / HTTP/1.1\r\nA: b\r\n c\r\n\r\nX")).2.2.2.headers =
      [{ name := ascii "A", value := ascii "bc" }] := by decide +kernel

end SecMon.Http
