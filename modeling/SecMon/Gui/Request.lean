import Mathlib.Data.List.Basic

/-!
# Requests

`GUI/Request.h` and `GUI/Header.h`.  A `std::string` is a list of bytes; a
`char` passed where an `int` is expected is its signed value.
-/

namespace SecMon.Http

/-- `std::string`. -/
abbrev Bytes := List UInt8

/-- The byte of an ASCII character. -/
def ch (c : Char) : UInt8 := c.toUInt8

/-- The bytes of an ASCII text. -/
def ascii (s : String) : Bytes := s.toList.map ch

/-- A byte as the signed `char` it is in the source, widened to `int`. -/
def toInt (b : UInt8) : Int := if b.toNat < 128 then b.toNat else b.toNat - 256

structure Header where
  name : Bytes := []
  value : Bytes := []
  deriving DecidableEq, Repr

/-- The version numbers are the exact ones: where the source's `int` would
overflow it promises nothing. -/
structure Request where
  method : Bytes := []
  uri : Bytes := []
  httpVersionMajor : Int := 0
  httpVersionMinor : Int := 0
  headers : List Header := []
  deriving DecidableEq, Repr

/-- Change `headers.back()`. -/
def Request.back (f : Header → Header) (req : Request) : Request :=
  { req with headers := req.headers.modifyLast f }

end SecMon.Http
