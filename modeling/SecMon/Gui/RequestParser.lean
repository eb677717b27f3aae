import SecMon.Core.Decider
import SecMon.Gui.Request

/-!
# The request parser

`GUI/RequestParser.cpp`, one byte at a time.  `parse` is the loop of the
header: it stops at the first answer and gives back what it has not read.
-/

namespace SecMon.Http

/-! ### Classes of bytes -/

def isChar (c : Int) : Bool := 0 ≤ c && c ≤ 127

def isCtl (c : Int) : Bool := (0 ≤ c && c ≤ 31) || c == 127

/-- The cases of `is_tspecial`. -/
def tspecials : List UInt8 := ascii "()<>@,;:\\\"/[]?=\x7b\x7d \t"

def isTspecial (c : Int) : Bool := (tspecials.map toInt).contains c

def isDigit (c : Int) : Bool := toInt (ch '0') ≤ c && c ≤ toInt (ch '9')

/-! ### The parser -/

inductive RequestParser.State
  | methodStart
  | method
  | uri
  | httpVersionH
  | httpVersionT1
  | httpVersionT2
  | httpVersionP
  | httpVersionSlash
  | httpVersionMajorStart
  | httpVersionMajor
  | httpVersionMinorStart
  | httpVersionMinor
  | expectingNewline1
  | headerLineStart
  | headerLws
  | headerName
  | spaceBeforeHeaderValue
  | headerValue
  | expectingNewline2
  | expectingNewline3
  deriving DecidableEq, Repr

structure RequestParser where
  state : RequestParser.State := .methodStart
  deriving DecidableEq, Repr

namespace RequestParser

def reset (_ : RequestParser) : RequestParser := { state := .methodStart }

/-- The test of a byte of a method or of a header's name. -/
def isNoToken (input : UInt8) : Bool :=
  !isChar (toInt input) || isCtl (toInt input) || isTspecial (toInt input)

/-- `version * 10 + input - '0'`. -/
def addDigit (version : Int) (input : UInt8) : Int :=
  version * 10 + toInt input - toInt (ch '0')

/-- Handle the next character of input. -/
def consume (p : RequestParser) (req : Request) (input : UInt8) :
    Tribool × RequestParser × Request :=
  match p.state with
  | .methodStart =>
    if isNoToken input then (.no, p, req)
    else (.indeterminate, ⟨.method⟩, { req with method := req.method ++ [input] })
  | .method =>
    if input = ch ' ' then (.indeterminate, ⟨.uri⟩, req)
    else if isNoToken input then (.no, p, req)
    else (.indeterminate, p, { req with method := req.method ++ [input] })
  | .uri =>
    if input = ch ' ' then (.indeterminate, ⟨.httpVersionH⟩, req)
    else if isCtl (toInt input) then (.no, p, req)
    else (.indeterminate, p, { req with uri := req.uri ++ [input] })
  | .httpVersionH =>
    if input = ch 'H' then (.indeterminate, ⟨.httpVersionT1⟩, req) else (.no, p, req)
  | .httpVersionT1 =>
    if input = ch 'T' then (.indeterminate, ⟨.httpVersionT2⟩, req) else (.no, p, req)
  | .httpVersionT2 =>
    if input = ch 'T' then (.indeterminate, ⟨.httpVersionP⟩, req) else (.no, p, req)
  | .httpVersionP =>
    if input = ch 'P' then (.indeterminate, ⟨.httpVersionSlash⟩, req) else (.no, p, req)
  | .httpVersionSlash =>
    if input = ch '/' then
      (.indeterminate, ⟨.httpVersionMajorStart⟩,
        { req with httpVersionMajor := 0, httpVersionMinor := 0 })
    else (.no, p, req)
  | .httpVersionMajorStart =>
    if isDigit (toInt input) then
      (.indeterminate, ⟨.httpVersionMajor⟩,
        { req with httpVersionMajor := addDigit req.httpVersionMajor input })
    else (.no, p, req)
  | .httpVersionMajor =>
    if input = ch '.' then (.indeterminate, ⟨.httpVersionMinorStart⟩, req)
    else if isDigit (toInt input) then
      (.indeterminate, p, { req with httpVersionMajor := addDigit req.httpVersionMajor input })
    else (.no, p, req)
  | .httpVersionMinorStart =>
    if isDigit (toInt input) then
      (.indeterminate, ⟨.httpVersionMinor⟩,
        { req with httpVersionMinor := addDigit req.httpVersionMinor input })
    else (.no, p, req)
  | .httpVersionMinor =>
    if input = ch '\r' then (.indeterminate, ⟨.expectingNewline1⟩, req)
    else if isDigit (toInt input) then
      (.indeterminate, p, { req with httpVersionMinor := addDigit req.httpVersionMinor input })
    else (.no, p, req)
  | .expectingNewline1 =>
    if input = ch '\n' then (.indeterminate, ⟨.headerLineStart⟩, req) else (.no, p, req)
  | .headerLineStart =>
    if input = ch '\r' then (.indeterminate, ⟨.expectingNewline3⟩, req)
    else if !req.headers.isEmpty && (input = ch ' ' || input = ch '\t') then
      (.indeterminate, ⟨.headerLws⟩, req)
    else if isNoToken input then (.no, p, req)
    else
      (.indeterminate, ⟨.headerName⟩,
        { req with headers := req.headers ++ [{ name := [input] }] })
  | .headerLws =>
    if input = ch '\r' then (.indeterminate, ⟨.expectingNewline2⟩, req)
    else if input = ch ' ' || input = ch '\t' then (.indeterminate, p, req)
    else if isCtl (toInt input) then (.no, p, req)
    else
      (.indeterminate, ⟨.headerValue⟩, req.back fun h => { h with value := h.value ++ [input] })
  | .headerName =>
    if input = ch ':' then (.indeterminate, ⟨.spaceBeforeHeaderValue⟩, req)
    else if isNoToken input then (.no, p, req)
    else (.indeterminate, p, req.back fun h => { h with name := h.name ++ [input] })
  | .spaceBeforeHeaderValue =>
    if input = ch ' ' then (.indeterminate, ⟨.headerValue⟩, req) else (.no, p, req)
  | .headerValue =>
    if input = ch '\r' then (.indeterminate, ⟨.expectingNewline2⟩, req)
    else if isCtl (toInt input) then (.no, p, req)
    else (.indeterminate, p, req.back fun h => { h with value := h.value ++ [input] })
  | .expectingNewline2 =>
    if input = ch '\n' then (.indeterminate, ⟨.headerLineStart⟩, req) else (.no, p, req)
  | .expectingNewline3 => (if input = ch '\n' then .yes else .no, p, req)

/-- Parse some data. -/
def parse (p : RequestParser) (req : Request) :
    Bytes → Tribool × Bytes × RequestParser × Request
  | [] => (.indeterminate, [], p, req)
  | b :: bs =>
    match p.consume req b with
    | (.indeterminate, p', req') => parse p' req' bs
    | (r, p', req') => (r, bs, p', req')

/-- The parser and the request it fills, as one decider. -/
def feed (q : RequestParser × Request) (b : UInt8) : Tribool × RequestParser × Request :=
  q.1.consume q.2 b

theorem parse_eq_run : ∀ (s : Bytes) (p : RequestParser) (req : Request),
    p.parse req s = Decider.run feed (p, req) s
  | [], _, _ => rfl
  | b :: bs, p, req => by
    rw [parse, Decider.run, feed]
    cases h : p.consume req b with
    | mk v q =>
      cases v with
      | yes => rfl
      | no => rfl
      | indeterminate => exact parse_eq_run bs q.1 q.2

theorem parse_append (p : RequestParser) (req : Request) (s t : Bytes) :
    p.parse req (s ++ t) =
      match p.parse req s with
      | (.indeterminate, _, p', req') => p'.parse req' t
      | (v, r, q) => (v, r ++ t, q) := by
  rw [parse_eq_run, parse_eq_run, Decider.run_append]
  rcases Decider.run feed (p, req) s with ⟨v, r, p', req'⟩
  cases v with
  | yes => rfl
  | no => rfl
  | indeterminate => exact (parse_eq_run t p' req').symm

end RequestParser

end SecMon.Http
