import SecMon.Gui.RequestHandler

/-!
# Percent-encoding

What `url_decode` should accept (`Encodes`) and what it does.  The two bytes of
an escape are read by a stream, which also reads one hexadecimal digit before
another byte, and one behind a blank or a sign (`Lenient`).

* `readEscape_eq_none_iff`: which escapes the stream cannot read.
* `urlDecode_of_encodes`: a valid encoding is decoded; `encodes_percentEncode`:
  every string has one.
* `urlDecode_exact_iff`: on which strings the decoding is exact.
-/

namespace SecMon.Http

/-! ## Valid encodings -/

/-- **`s` is a percent-encoding of `t`.** -/
inductive Encodes : Bytes → Bytes → Prop
  | nil : Encodes [] []
  | escape {x y : UInt8} {hi lo : Nat} {s t : Bytes} (hx : hexDigit x = some hi)
      (hy : hexDigit y = some lo) (rest : Encodes s t) :
      Encodes (ch '%' :: x :: y :: s) (UInt8.ofNat (hi * 16 + lo) :: t)
  | plus {s t : Bytes} (rest : Encodes s t) : Encodes (ch '+' :: s) (ch ' ' :: t)
  | plain {b : UInt8} {s t : Bytes} (hpercent : b ≠ ch '%') (hplus : b ≠ ch '+')
      (rest : Encodes s t) : Encodes (b :: s) (b :: t)

/-- What follows each `%` that is not part of an earlier escape, up to two bytes. -/
def escapes : Bytes → List Bytes
  | [] => []
  | b :: s =>
    if b = ch '%' then
      match s with
      | x :: y :: rest => [x, y] :: escapes rest
      | s => [s]
    else escapes s

/-- Two hexadecimal digits. -/
def TwoDigits (e : Bytes) : Prop := e.length = 2 ∧ ∀ b ∈ e, (hexDigit b).isSome

/-- An escape that the stream reads though it is not two digits: a digit before
another byte, unless they are `0x`, or a digit behind a blank or a sign. -/
def Lenient : Bytes → Prop
  | [x, y] =>
    ((hexDigit x).isSome ∧ hexDigit y = none ∧ ¬(x = ch '0' ∧ (y = ch 'x' ∨ y = ch 'X'))) ∨
      ((isSpace x ∨ x = ch '-' ∨ x = ch '+') ∧ (hexDigit y).isSome)
  | _ => False

/-- What the stream makes of an escape. -/
def readEscape (e : Bytes) : Option Int := if e.length = 2 then readHex e else none

theorem scan_induction {P : Bytes → Prop} (nil : P [])
    (escape : ∀ x y rest, P rest → P (ch '%' :: x :: y :: rest))
    (cut : ∀ s : Bytes, s.length < 2 → P (ch '%' :: s))
    (other : ∀ b s, b ≠ ch '%' → P s → P (b :: s)) (s : Bytes) : P s := by
  induction hn : s.length using Nat.strong_induction_on generalizing s with
  | h n ih =>
    cases s with
    | nil => exact nil
    | cons b s =>
      rw [List.length_cons] at hn
      by_cases hb : b = ch '%'
      · subst hb
        match s with
        | [] => exact cut [] (by decide)
        | [x] => exact cut [x] (by decide : (1 : Nat) < 2)
        | x :: y :: rest =>
          rw [List.length_cons, List.length_cons] at hn
          exact escape x y rest (ih rest.length (by omega) rest rfl)
      · exact other b s hb (ih s.length (by omega) s rfl)

section

variable {x y : UInt8} {s t rest : Bytes}

theorem escapes_escape : escapes (ch '%' :: x :: y :: rest) = [x, y] :: escapes rest := if_pos rfl

theorem escapes_cut (h : s.length < 2) : escapes (ch '%' :: s) = [s] := by
  match s with
  | [] => rfl
  | [x] => rfl

theorem escapes_other {b : UInt8} (h : b ≠ ch '%') : escapes (b :: s) = escapes s :=
  (escapes.eq_def (b :: s)).trans (if_neg h)

theorem urlDecode_escape : urlDecode (ch '%' :: x :: y :: rest) =
    (readHex [x, y]).bind fun value => (urlDecode rest).map (toChar value :: ·) := if_pos rfl

theorem urlDecode_cut (h : s.length < 2) : urlDecode (ch '%' :: s) = none := by
  match s with
  | [] => rfl
  | [x] => rfl

theorem urlDecode_other {b : UInt8} (h : b ≠ ch '%') :
    urlDecode (b :: s) = (urlDecode s).map ((if b = ch '+' then ch ' ' else b) :: ·) := by
  rw [urlDecode.eq_def (b :: s)]
  dsimp only
  rw [if_neg h]
  split_ifs <;> rfl

/-! ## Hexadecimal digits -/

theorem hexDigit_eq_some {b : UInt8} {n : Nat} (h : hexDigit b = some n) :
    n < 16 ∧ ((48 ≤ b.toNat ∧ b.toNat ≤ 57) ∨ (65 ≤ b.toNat ∧ b.toNat ≤ 70) ∨
      97 ≤ b.toNat ∧ b.toNat ≤ 102) := by
  rw [hexDigit] at h
  split_ifs at h <;> obtain rfl := Option.some.inj h <;> omega

theorem hexDigit_of_isSpace {b : UInt8} (h : isSpace b = true) : hexDigit b = none := by
  cases hb : hexDigit b with
  | none => rfl
  | some n =>
    obtain ⟨-, hrange⟩ := hexDigit_eq_some hb
    rw [isSpace, Bool.or_eq_true, decide_eq_true_iff, Bool.and_eq_true, decide_eq_true_iff,
      decide_eq_true_iff] at h
    obtain rfl | h := h
    · exact absurd hrange (by decide)
    · omega

theorem hexDigit_of_sign {b : UInt8} (h : b = ch '-' ∨ b = ch '+') : hexDigit b = none := by
  obtain rfl | rfl := h <;> rfl

theorem readDigits_nil (base : Nat) (digit : UInt8 → Option Nat) :
    readDigits base digit [] = none := rfl

theorem readDigits_eq_none {base : Nat} {digit : UInt8 → Option Nat} {b : UInt8} :
    readDigits base digit (b :: s) = none ↔ digit b = none := by
  rw [readDigits]
  cases hb : digit b with
  | none => simp [hb]
  | some n => simp [hb]

/-! ## The stream -/

theorem readHex_eq_none_iff : readHex s = none ↔
    readDigits 16 hexDigit (skipHexPrefix (readSign (s.dropWhile isSpace)).2) = none := by
  rw [readHex]
  obtain ⟨sign, s⟩ := readSign (s.dropWhile isSpace)
  dsimp only
  cases readDigits 16 hexDigit (skipHexPrefix s) with
  | none => exact iff_of_true rfl rfl
  | some n => exact iff_of_false (Option.some_ne_none _) (Option.some_ne_none _)

theorem readSign_of_not_sign {b : UInt8} (hminus : b ≠ ch '-') (hplus : b ≠ ch '+') :
    readSign (b :: s) = (1, b :: s) := by
  rw [readSign, if_neg hminus, if_neg hplus]

theorem readSign_of_sign {b : UInt8} (h : b = ch '-' ∨ b = ch '+') : (readSign (b :: s)).2 = s := by
  obtain rfl | rfl := h <;> rfl

theorem readHex_singleton : readHex [y] = none ↔ hexDigit y = none := by
  rw [readHex_eq_none_iff]
  by_cases hspace : isSpace y = true
  · rw [List.dropWhile_cons_of_pos hspace]
    exact iff_of_true rfl (hexDigit_of_isSpace hspace)
  rw [List.dropWhile_cons_of_neg hspace]
  by_cases hsign : y = ch '-' ∨ y = ch '+'
  · rw [readSign_of_sign hsign]
    exact iff_of_true rfl (hexDigit_of_sign hsign)
  · rw [not_or] at hsign
    rw [readSign_of_not_sign hsign.1 hsign.2]
    exact readDigits_eq_none

/-- **Two bytes that are no number.** -/
theorem readHex_pair : readHex [x, y] = none ↔ ¬TwoDigits [x, y] ∧ ¬Lenient [x, y] := by
  have htwo : TwoDigits [x, y] ↔ (hexDigit x).isSome ∧ (hexDigit y).isSome := by
    simp [TwoDigits]
  rw [htwo, Lenient]
  by_cases hspace : isSpace x = true
  · have hskip : readHex [x, y] = readHex [y] := by
      rw [readHex, readHex, List.dropWhile_cons_of_pos hspace]
    rw [hskip, readHex_singleton]
    simp [hspace, hexDigit_of_isSpace hspace]
  rw [readHex_eq_none_iff, List.dropWhile_cons_of_neg hspace]
  by_cases hsign : x = ch '-' ∨ x = ch '+'
  · rw [readSign_of_sign hsign]
    have hone : readDigits 16 hexDigit (skipHexPrefix [y]) = none ↔ hexDigit y = none :=
      readDigits_eq_none
    rw [hone]
    simp [hsign, hexDigit_of_sign hsign]
  · rw [readSign_of_not_sign (not_or.mp hsign).1 (not_or.mp hsign).2]
    dsimp only
    by_cases hprefix : x = ch '0' ∧ (y = ch 'x' ∨ y = ch 'X')
    · have hskip : skipHexPrefix [x, y] = [] := if_pos hprefix
      have hy : hexDigit y = none := by
        obtain ⟨-, rfl | rfl⟩ := hprefix <;> rfl
      rw [hskip]
      simp [readDigits_nil, hprefix, hy]
    · have hskip : skipHexPrefix [x, y] = [x, y] := if_neg hprefix
      rw [hskip, readDigits_eq_none]
      cases hx : hexDigit x <;> cases hy : hexDigit y <;> simp [hspace, hsign, hprefix]

theorem readHex_of_digits {hi lo : Nat} (hx : hexDigit x = some hi) (hy : hexDigit y = some lo) :
    readHex [x, y] = some ((hi * 16 + lo : Nat) : Int) := by
  have hspace : ¬isSpace x = true := by
    intro h
    rw [hexDigit_of_isSpace h] at hx
    cases hx
  have hsign : ¬(x = ch '-' ∨ x = ch '+') := by
    intro h
    rw [hexDigit_of_sign h] at hx
    cases hx
  have hprefix : ¬(x = ch '0' ∧ (y = ch 'x' ∨ y = ch 'X')) := by
    rintro ⟨-, rfl | rfl⟩ <;> cases hy
  have hskip : skipHexPrefix [x, y] = [x, y] := if_neg hprefix
  rw [readHex, List.dropWhile_cons_of_neg hspace,
    readSign_of_not_sign (not_or.mp hsign).1 (not_or.mp hsign).2]
  dsimp only
  rw [hskip, readDigits]
  simp [hx, hy]

theorem TwoDigits.not_lenient {e : Bytes} (h : TwoDigits e) : ¬Lenient e := by
  obtain ⟨hlen, hdigits⟩ := h
  obtain ⟨x, y, rfl⟩ := List.length_eq_two.mp hlen
  have hx : hexDigit x ≠ none := Option.isSome_iff_ne_none.mp (hdigits x (by simp))
  have hy : hexDigit y ≠ none := Option.isSome_iff_ne_none.mp (hdigits y (by simp))
  rintro (⟨-, hnone, -⟩ | ⟨hspace | hsign, -⟩)
  · exact hy hnone
  · exact hx (hexDigit_of_isSpace hspace)
  · exact hx (hexDigit_of_sign hsign)

theorem readEscape_eq_none_iff {e : Bytes} :
    readEscape e = none ↔ ¬TwoDigits e ∧ ¬Lenient e := by
  rw [readEscape]
  split_ifs with hlen
  · obtain ⟨x, y, rfl⟩ := List.length_eq_two.mp hlen
    exact readHex_pair
  · refine iff_of_true rfl ⟨fun h => hlen h.1, ?_⟩
    intro h
    match e with
    | [x, y] => exact hlen rfl

/-! ## Decoding -/

theorem toChar_natCast (n : Nat) : toChar n = UInt8.ofNat n := by
  have h : ((n : Int) % 256).toNat = n % 256 := by omega
  rw [toChar, h, ← UInt8.toNat_inj, UInt8.toNat_ofNat', UInt8.toNat_ofNat', Nat.mod_mod]

/-- **A valid encoding is decoded.** -/
theorem urlDecode_of_encodes (h : Encodes s t) : urlDecode s = some t := by
  induction h with
  | nil => rfl
  | escape hx hy _ ih =>
    rw [urlDecode_escape, readHex_of_digits hx hy, ih, Option.bind_some, toChar_natCast,
      Option.map_some]
  | plus _ ih => rw [urlDecode_other (by decide), ih, if_pos rfl, Option.map_some]
  | plain hpercent hplus _ ih =>
    rw [urlDecode_other hpercent, ih, if_neg hplus, Option.map_some]

theorem Encodes.twoDigits (h : Encodes s t) : ∀ e ∈ escapes s, TwoDigits e := by
  induction h with
  | nil => simp [escapes]
  | escape hx hy _ ih =>
    rw [escapes_escape, List.forall_mem_cons]
    exact ⟨by simp [TwoDigits, hx, hy], ih⟩
  | plus _ ih =>
    rw [escapes_other (by decide)]
    exact ih
  | plain hpercent _ _ ih =>
    rw [escapes_other hpercent]
    exact ih

/-- What is decoded from two digits in every escape is what is encoded. -/
theorem encodes_of_urlDecode : (∀ e ∈ escapes s, TwoDigits e) → urlDecode s = some t →
    Encodes s t := by
  induction s using scan_induction generalizing t with
  | nil =>
    intro _ h
    obtain rfl := Option.some.inj h
    exact .nil
  | escape x y rest ih =>
    intro hall h
    rw [escapes_escape, List.forall_mem_cons] at hall
    obtain ⟨⟨-, hdigits⟩, hrest⟩ := hall
    obtain ⟨hi, hx⟩ := Option.isSome_iff_exists.mp (hdigits x (by simp))
    obtain ⟨lo, hy⟩ := Option.isSome_iff_exists.mp (hdigits y (by simp))
    rw [urlDecode_escape, readHex_of_digits hx hy, Option.bind_some, toChar_natCast,
      Option.map_eq_some_iff] at h
    obtain ⟨t, ht, rfl⟩ := h
    exact .escape hx hy (ih hrest ht)
  | cut s hs =>
    intro _ h
    rw [urlDecode_cut hs] at h
    cases h
  | other b s hb ih =>
    intro hall h
    rw [escapes_other hb] at hall
    rw [urlDecode_other hb, Option.map_eq_some_iff] at h
    obtain ⟨t, ht, rfl⟩ := h
    split_ifs with hplus
    · subst hplus
      exact .plus (ih hall ht)
    · exact .plain hb hplus (ih hall ht)

/-- **The answer is `false`** if an escape cannot be read. -/
theorem urlDecode_eq_none_iff : urlDecode s = none ↔ ∃ e ∈ escapes s, readEscape e = none := by
  induction s using scan_induction with
  | nil => simp [urlDecode, escapes]
  | escape x y rest ih =>
    have hread : readEscape [x, y] = readHex [x, y] := if_pos rfl
    rw [urlDecode_escape, escapes_escape, List.exists_mem_cons_iff, ← ih, hread]
    cases readHex [x, y] <;> simp
  | cut s hs =>
    have hread : readEscape s = none := if_neg hs.ne
    rw [urlDecode_cut hs, escapes_cut hs]
    simp [hread]
  | other b s hb ih => rw [urlDecode_other hb, escapes_other hb, ← ih, Option.map_eq_none_iff]

end

/-! ## Encoding -/

/-- A hexadecimal digit. -/
def hexChar (n : Nat) : UInt8 := if n < 10 then UInt8.ofNat (48 + n) else UInt8.ofNat (55 + n)

theorem hexDigit_hexChar : ∀ n < 16, hexDigit (hexChar n) = some n := by decide

/-- The percent-encoding of a string: a byte is left as it is if it is to be kept and is
neither `%` nor `+`. -/
def percentEncode (keep : UInt8 → Bool) : Bytes → Bytes
  | [] => []
  | b :: t =>
    if keep b ∧ b ≠ ch '%' ∧ b ≠ ch '+' then
      b :: percentEncode keep t
    else
      ch '%' :: hexChar (b.toNat / 16) :: hexChar (b.toNat % 16) :: percentEncode keep t

/-- **Every string has an encoding.** -/
theorem encodes_percentEncode (keep : UInt8 → Bool) (t : Bytes) :
    Encodes (percentEncode keep t) t := by
  induction t with
  | nil => exact .nil
  | cons b t ih =>
    rw [percentEncode]
    split_ifs with hkeep
    · exact .plain hkeep.2.1 hkeep.2.2 ih
    · have hlt := b.toNat_lt
      have hi := hexDigit_hexChar (b.toNat / 16) (by omega)
      have hlo := hexDigit_hexChar (b.toNat % 16) (by omega)
      have hb : UInt8.ofNat (b.toNat / 16 * 16 + b.toNat % 16) = b := by
        rw [Nat.div_add_mod', UInt8.ofNat_toNat]
      have h := Encodes.escape hi hlo ih
      rw [hb] at h
      exact h

/-- **The decoding is exact** on a string without an escape that only the stream can read,
or with one that not even the stream can.  The encoding of a string is always decoded. -/
theorem urlDecode_exact_iff (s : Bytes) :
    ((∀ t, urlDecode s = some t ↔ Encodes s t) ∧
        ∀ keep : UInt8 → Bool, urlDecode (percentEncode keep s) = some s) ↔
      ((∃ e ∈ escapes s, Lenient e) → ∃ e ∈ escapes s, ¬TwoDigits e ∧ ¬Lenient e) := by
  have hround : ∀ keep : UInt8 → Bool, urlDecode (percentEncode keep s) = some s := fun keep =>
    urlDecode_of_encodes (encodes_percentEncode keep s)
  have hnone : urlDecode s = none ↔ ∃ e ∈ escapes s, ¬TwoDigits e ∧ ¬Lenient e := by
    rw [urlDecode_eq_none_iff]
    simp only [readEscape_eq_none_iff]
  rw [and_iff_left hround, ← hnone]
  constructor
  · rintro hexact ⟨e, he, hlenient⟩
    cases hs : urlDecode s with
    | none => rfl
    | some t =>
      exact absurd hlenient (((hexact t).mp hs).twoDigits e he).not_lenient
  · intro hcond t
    refine ⟨fun h => ?_, urlDecode_of_encodes⟩
    apply encodes_of_urlDecode _ h
    intro e he
    by_contra htwo
    by_cases hlenient : Lenient e
    · rw [hcond ⟨e, he, hlenient⟩] at h
      cases h
    · rw [hnone.mpr ⟨e, he, htwo, hlenient⟩] at h
      cases h

/-- One digit before another letter is decoded. -/
theorem not_urlDecode_exact :
    ¬∀ s : Bytes, (∀ t, urlDecode s = some t ↔ Encodes s t) ∧
      ∀ keep : UInt8 → Bool, urlDecode (percentEncode keep s) = some s := by
  intro h
  have hs : urlDecode (ascii "/%4G") = some [ch '/', 4] := by decide
  have htwo := (((h (ascii "/%4G")).1 _).mp hs).twoDigits (ascii "4G") (by decide)
  exact absurd (htwo.2 (ch 'G') (by decide)) (by decide)

end SecMon.Http
