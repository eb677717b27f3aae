import Mathlib.Data.List.Find
import Mathlib.Data.List.Infix
import SecMon.Gui.Request

/-!
# Strings and numbers

What the request handler uses of the C++ standard library: searches in a
`std::string`, `c_str()`, and the readings of numbers by `std::istringstream`,
`std::stoi` and `boost::lexical_cast`.
-/

namespace SecMon.Http

/-- `s.find(pat)`: where `pat` first occurs (`none` is `npos`). -/
def find (pat s : Bytes) : Option Nat :=
  (List.range (s.length + 1)).find? fun i => pat <+: s.drop i

/-- `s.find_last_of` of one character. -/
def findLastOf (b : UInt8) (s : Bytes) : Option Nat :=
  (List.range s.length).reverse.find? fun i => s[i]? = some b

/-- `s.substr(pos, len)`, `none` where it throws. -/
def substr (pos len : Nat) (s : Bytes) : Option Bytes :=
  if pos ≤ s.length then some ((s.drop pos).take len) else none

/-- What a function that takes `s.c_str()` sees. -/
def cString (s : Bytes) : Bytes := s.takeWhile (· ≠ 0)

/-- `isspace` in the C locale. -/
def isSpace (b : UInt8) : Bool := b = ch ' ' || (9 ≤ b.toNat && b.toNat ≤ 13)

/-- The value of a digit of base 16. -/
def hexDigit (b : UInt8) : Option Nat :=
  if 48 ≤ b.toNat ∧ b.toNat ≤ 57 then some (b.toNat - 48)
  else if 97 ≤ b.toNat ∧ b.toNat ≤ 102 then some (b.toNat - 87)
  else if 65 ≤ b.toNat ∧ b.toNat ≤ 70 then some (b.toNat - 55)
  else none

/-- The value of a digit of base 10. -/
def decDigit (b : UInt8) : Option Nat := (hexDigit b).filter (· < 10)

/-- A sign, if there is one, and what follows it. -/
def readSign : Bytes → Int × Bytes
  | [] => (1, [])
  | b :: s => if b = ch '-' then (-1, s) else if b = ch '+' then (1, s) else (1, b :: s)

/-- The digits that a number begins with, as a number; `none` if there are
none. -/
def readDigits (base : Nat) (digit : UInt8 → Option Nat) (s : Bytes) : Option Nat :=
  match s.takeWhile fun b => (digit b).isSome with
  | [] => none
  | b :: ds => some ((b :: ds).foldl (fun n d => n * base + (digit d).getD 0) 0)

/-- `0x`, which `std::hex` allows before the digits. -/
def skipHexPrefix : Bytes → Bytes
  | z :: x :: s => if z = ch '0' ∧ (x = ch 'x' ∨ x = ch 'X') then s else z :: x :: s
  | s => s

/-- `is >> std::hex >> value` on a stream of `s`: blanks are skipped, a sign
and `0x` may precede the digits, and reading stops at the first byte that is
no digit.  `none` is failure. -/
def readHex (s : Bytes) : Option Int :=
  let (sign, s) := readSign (s.dropWhile isSpace)
  (readDigits 16 hexDigit (skipHexPrefix s)).map fun n => sign * n

/-- `std::stoi(s)`; `none` where it throws. -/
def stoi (s : Bytes) : Option Int :=
  let (sign, s) := readSign (s.dropWhile isSpace)
  ((readDigits 10 decDigit s).map fun n => sign * (n : Int)).filter fun n =>
    -2147483648 ≤ n ∧ n ≤ 2147483647

/-- `boost::lexical_cast<std::string>(n)`. -/
def decimal (n : Nat) : Bytes := (Nat.toDigits 10 n).map ch

/-- `static_cast<char>(n)`. -/
def toChar (n : Int) : UInt8 := UInt8.ofNat (n % 256).toNat

theorem find_eq_none {pat s : Bytes} : find pat s = none ↔ ¬ pat <:+: s := by
  unfold find
  rw [List.find?_eq_none]
  constructor
  · intro h hin
    obtain ⟨l, r, rfl⟩ := hin
    refine h l.length ?_ ?_
    · rw [List.mem_range]
      simp only [List.length_append]
      omega
    · rw [decide_eq_true_iff, List.append_assoc, List.drop_left]
      exact List.prefix_append pat r
  · intro h i _ hp
    refine h ?_
    exact (of_decide_eq_true hp).isInfix.trans (List.drop_suffix i s).isInfix

section findLastOf

variable {b c : UInt8} {s t : Bytes}

theorem findLastOf_concat :
    findLastOf b (s ++ [c]) = if c = b then some s.length else findLastOf b s := by
  rw [findLastOf, List.length_append, List.length_singleton, List.range_succ,
    List.reverse_append, List.reverse_singleton, List.singleton_append]
  split_ifs with h
  · rw [List.find?_cons_of_pos (by simp [h])]
  · rw [List.find?_cons_of_neg (by simp [h]), findLastOf]
    apply List.find?_congr
    intro i hi
    rw [List.mem_reverse, List.mem_range] at hi
    rw [List.getElem?_append_left hi]

theorem findLastOf_append (h : b ∉ t) : findLastOf b (s ++ t) = findLastOf b s := by
  induction t using List.reverseRecOn with
  | nil => rw [List.append_nil]
  | append_singleton t c ih =>
    rw [List.mem_append, List.mem_singleton, not_or] at h
    rw [← List.append_assoc, findLastOf_concat, if_neg (Ne.symm h.2), ih h.1]

theorem findLastOf_append_cons (h : b ∉ t) : findLastOf b (s ++ b :: t) = some s.length := by
  rw [List.append_cons, findLastOf_append h, findLastOf_concat, if_pos rfl]

/-- **The last occurrence cuts the string in two.** -/
theorem findLastOf_cases (b : UInt8) (s : Bytes) :
    (b ∉ s ∧ findLastOf b s = none) ∨
      ∃ l r, s = l ++ b :: r ∧ b ∉ r ∧ findLastOf b s = some l.length := by
  induction s using List.reverseRecOn with
  | nil => exact Or.inl ⟨List.not_mem_nil, rfl⟩
  | append_singleton s c ih =>
    by_cases hc : c = b
    · subst hc
      exact Or.inr ⟨s, [], rfl, List.not_mem_nil, findLastOf_append_cons List.not_mem_nil⟩
    · rw [findLastOf_concat, if_neg hc]
      obtain ⟨hs, hnone⟩ | ⟨l, r, rfl, hr, hsome⟩ := ih
      · exact Or.inl ⟨by simp [hs, Ne.symm hc], hnone⟩
      · refine Or.inr ⟨l, r ++ [c], ?_, by simp [hr, Ne.symm hc], hsome⟩
        rw [List.append_assoc, List.cons_append]

end findLastOf

theorem isPrefix_cString (s : Bytes) : cString s <+: s := List.takeWhile_prefix _

theorem cString_append {s t : Bytes} (h : 0 ∉ s) : cString (s ++ t) = s ++ cString t := by
  induction s with
  | nil => rfl
  | cons b s ih =>
    have hb : b ≠ 0 := fun he => h (he ▸ List.mem_cons_self)
    have hs : 0 ∉ s := fun hm => h (List.mem_cons_of_mem b hm)
    unfold cString at ih ⊢
    rw [List.cons_append, List.takeWhile_cons_of_pos (by simpa using hb), ih hs, List.cons_append]

end SecMon.Http
