import Mathlib.Data.List.Induction
import Mathlib.Data.Nat.Digits.Defs
import Mathlib.Tactic.SplitIfs
import SecMon.Gui.Grammar

/-!
# The version numbers

The two numbers of `HTTP/1.1` are kept in `int`s, and each digit multiplies one
of them by ten.  Nothing bounds how many digits there are.

* `update_consume`, `versions_consume`: `update` is where `consume` changes a
  number, apart from the zeros that it sets at the `/`.
* `leads_version`: where in its input the parser reads digits (`AtNumber`).
* `mem_updates`: the updates that an input makes.
* `versions_iff`: the inputs on which every update stays in an `int`.
-/

namespace SecMon.Http

open Decider RequestParser

/-! ## Updates -/

/-- What an `int` of 32 bits holds. -/
def FitsInt (x : Int) : Prop := -2147483648 ≤ x ∧ x ≤ 2147483647

instance : DecidablePred FitsInt := fun _ => inferInstanceAs (Decidable (_ ∧ _))

namespace RequestParser

/-- The number that a digit would be added to. -/
def version (q : RequestParser × Request) : Option Int :=
  match q.1.state with
  | .httpVersionMajorStart => some q.2.httpVersionMajor
  | .httpVersionMajor => some q.2.httpVersionMajor
  | .httpVersionMinorStart => some q.2.httpVersionMinor
  | .httpVersionMinor => some q.2.httpVersionMinor
  | _ => none

/-- The update that a byte makes: the number before it, and the byte. -/
def update (q : RequestParser × Request) (input : UInt8) : Option (Int × UInt8) :=
  if isDigit (toInt input) then (version q).map (·, input) else none

/-- The result of an update. -/
def result (u : Int × UInt8) : List Int := [addDigit u.1 u.2]

/-- All values of `version * 10 + input - '0'`, from left to right. -/
def computed (u : Int × UInt8) : List Int :=
  [u.1 * 10, u.1 * 10 + toInt u.2, u.1 * 10 + toInt u.2 - toInt (ch '0')]

/-- The updates made while some data is parsed. -/
def updates (p : RequestParser) (req : Request) (data : Bytes) : List (Int × UInt8) :=
  trace feed update (p, req) data

/-- Data that comes in several reads, parsed until there is an answer: the
updates made, the answer and the request. -/
def parseReads (p : RequestParser) (req : Request) :
    List Bytes → List (Int × UInt8) × Tribool × Request
  | [] => ([], .indeterminate, req)
  | data :: reads =>
    match p.parse req data with
    | (.indeterminate, _, p', req') =>
      (p.updates req data ++ (parseReads p' req' reads).1, (parseReads p' req' reads).2)
    | (v, _, _, req') => (p.updates req data, v, req')

theorem updates_append (p : RequestParser) (req : Request) (s t : Bytes) :
    p.updates req (s ++ t) = p.updates req s ++
      match p.parse req s with
      | (.indeterminate, _, p', req') => p'.updates req' t
      | _ => [] := by
  rw [updates, trace_append, parse_eq_run]
  rcases Decider.run feed (p, req) s with ⟨v, r, q⟩
  cases v with
  | yes => rfl
  | no => rfl
  | indeterminate => rfl

/-- **How the data is cut does not matter.** -/
theorem parseReads_eq : ∀ (reads : List Bytes) (p : RequestParser) (req : Request),
    p.parseReads req reads = (p.updates req reads.flatten, (p.parse req reads.flatten).1,
      (p.parse req reads.flatten).2.2.2)
  | [], _, _ => rfl
  | data :: reads, p, req => by
    rw [parseReads, List.flatten_cons, parse_append, updates_append]
    rcases p.parse req data with ⟨v, r, p', req'⟩
    cases v with
    | yes => exact congrArg (·, _) (List.append_nil _).symm
    | no => exact congrArg (·, _) (List.append_nil _).symm
    | indeterminate =>
      dsimp only
      rw [parseReads_eq reads p' req']

end RequestParser

section

variable {q q' : RequestParser × Request} {b : UInt8} {u : Int × UInt8} {v : Int}

theorem update_eq_some :
    update q b = some u ↔ IsDecimal b ∧ ∃ v, version q = some v ∧ u = (v, b) := by
  by_cases hb : IsDecimal b
  · rw [update, if_pos ((isDigit_iff b).mpr hb), Option.map_eq_some_iff, and_iff_right hb]
    exact exists_congr fun v => and_congr_right fun _ => eq_comm
  · simp [update, isDigit_iff, hb]

theorem update_consume (h : update q b = some u) :
    ∃ q', feed q b = (.indeterminate, q') ∧ version q' = some (addDigit u.1 u.2) := by
  obtain ⟨hb, v, hv, rfl⟩ := update_eq_some.mp h
  have hdot : b ≠ ch '.' := ne_of_class hb (by decide)
  have hcr : b ≠ ch '\r' := ne_of_class hb (by decide)
  obtain ⟨⟨st⟩, req⟩ := q
  cases st <;> simp only [version, Option.some.injEq, reduceCtorEq] at hv <;> subst hv <;>
    simp [feed, consume, version, isDigit_iff, hb, hdot, hcr]

/-- What makes no update leaves both numbers alone, or is the `/`. -/
theorem versions_consume (h : update q b = none) :
    ((feed q b).2.2.httpVersionMajor = q.2.httpVersionMajor ∧
      (feed q b).2.2.httpVersionMinor = q.2.httpVersionMinor) ∨
    ((feed q b).2.2.httpVersionMajor = 0 ∧ (feed q b).2.2.httpVersionMinor = 0) := by
  obtain ⟨⟨st⟩, req⟩ := q
  have hdigit : (version (reading st req)).isSome → isDigit (toInt b) ≠ true := by
    intro hv hb
    obtain ⟨v, hv⟩ := Option.isSome_iff_exists.mp hv
    simp [update, hb, hv] at h
  cases st with
  | httpVersionSlash =>
    by_cases hb : b = ch '/'
    · exact .inr (by simp [feed, consume, hb])
    · exact .inl (by simp [feed, consume, hb])
  | expectingNewline3 => exact .inl ⟨rfl, rfl⟩
  | httpVersionMajorStart => exact .inl (by simp [feed, consume, hdigit rfl])
  | httpVersionMinorStart => exact .inl (by simp [feed, consume, hdigit rfl])
  | _ =>
    refine .inl ?_
    simp only [feed, consume]
    split_ifs
    all_goals first | exact ⟨rfl, rfl⟩ | exact absurd ‹_› (hdigit rfl)

end

/-! ## Where the digits are -/

/-- The value of decimal digits, the units last. -/
def decimalValue (l : Bytes) : Nat := Nat.ofDigits 10 (l.map fun b => b.toNat - 48).reverse

theorem decimalValue_concat (l : Bytes) (b : UInt8) :
    decimalValue (l ++ [b]) = decimalValue l * 10 + (b.toNat - 48) := by
  rw [decimalValue, decimalValue, List.map_append, List.reverse_append, List.map_singleton,
    List.reverse_singleton, List.singleton_append, Nat.ofDigits_cons]
  omega

theorem toInt_of_isDecimal {b : UInt8} (hb : IsDecimal b) : toInt b = b.toNat :=
  if_pos (by obtain ⟨-, h⟩ := hb; omega)

theorem addDigit_eq {b : UInt8} (hb : IsDecimal b) (l : Bytes) :
    addDigit (decimalValue l) b = decimalValue (l ++ [b]) := by
  have hzero : toInt (ch '0') = 48 := rfl
  rw [addDigit, toInt_of_isDecimal hb, hzero, decimalValue_concat]
  obtain ⟨h, -⟩ := hb
  omega

theorem foldl_addDigit {l : Bytes} (hl : ∀ b ∈ l, IsDecimal b) :
    l.foldl addDigit 0 = decimalValue l := by
  induction l using List.reverseRecOn with
  | nil => rfl
  | append_singleton l b ih =>
    rw [List.foldl_concat, ih fun c hc => hl c (List.mem_append_left _ hc),
      addDigit_eq (hl b (by simp))]

/-- The states after the version numbers. -/
def afterVersion : List RequestParser.State :=
  [.expectingNewline1, .headerLineStart, .headerLws, .headerName, .spaceBeforeHeaderValue,
    .headerValue, .expectingNewline2, .expectingNewline3]

/-- **`l` is what has been read of a version number at the end of `p`.** -/
inductive AtNumber : Bytes → Bytes → Prop
  | major {method uri l : Bytes} (hmethod : method ≠ [] ∧ ∀ b ∈ method, IsToken b)
      (huri : ∀ b ∈ uri, ¬ IsControl b ∧ b ≠ ch ' ') (hl : ∀ b ∈ l, IsDecimal b) :
      AtNumber (method ++ ch ' ' :: (uri ++ ch ' ' :: (ascii "HTTP/" ++ l))) l
  | minor {method uri major l : Bytes} (hmethod : method ≠ [] ∧ ∀ b ∈ method, IsToken b)
      (huri : ∀ b ∈ uri, ¬ IsControl b ∧ b ≠ ch ' ')
      (hmajor : major ≠ [] ∧ ∀ b ∈ major, IsDecimal b) (hl : ∀ b ∈ l, IsDecimal b) :
      AtNumber (method ++ ch ' ' :: (uri ++ ch ' ' :: (ascii "HTTP/" ++ (major ++ ch '.' :: l)))) l

section

variable {req : Request} {p l w : Bytes} {b : UInt8} {v : Int}

theorem AtNumber.digits (h : AtNumber p l) : ∀ b ∈ l, IsDecimal b := by
  cases h with
  | major _ _ hl => exact hl
  | minor _ _ _ hl => exact hl

theorem AtNumber.concat_iff :
    AtNumber p (l ++ [b]) ↔ ∃ p', p = p' ++ [b] ∧ AtNumber p' l ∧ IsDecimal b := by
  refine ⟨fun h => ?_, fun h => ?_⟩
  · cases h with
    | major hmethod huri hl =>
      rw [List.forall_mem_append] at hl
      exact ⟨_, by simp, .major hmethod huri hl.1, hl.2 b List.mem_cons_self⟩
    | minor hmethod huri hmajor hl =>
      rw [List.forall_mem_append] at hl
      exact ⟨_, by simp, .minor hmethod huri hmajor hl.1, hl.2 b List.mem_cons_self⟩
  · obtain ⟨p', rfl, h, hb⟩ := h
    have hl : ∀ c ∈ l ++ [b], IsDecimal c := by
      rw [List.forall_mem_append]
      exact ⟨h.digits, by simpa using hb⟩
    cases h with
    | major hmethod huri _ => simpa using AtNumber.major hmethod huri hl
    | minor hmethod huri hmajor _ => simpa using AtNumber.minor hmethod huri hmajor hl

theorem not_leads_afterVersion {st : RequestParser.State} (hst : st ∈ afterVersion) :
    ¬ Leads feed (version · = some v) (reading st req) w := by
  refine not_leads (L := fun q => q.1.state ∈ afterVersion) ?_ ?_ hst
  · rintro ⟨⟨st⟩, req⟩ b q' hq hb
    simp only [afterVersion, List.mem_cons, List.not_mem_nil, or_false] at hq
    rcases hq with rfl | rfl | rfl | rfl | rfl | rfl | rfl | rfl <;>
      simp only [feed, consume] at hb <;> split_ifs at hb <;>
      obtain rfl := (Prod.mk.inj hb).2 <;> simp [afterVersion]
  · rintro ⟨⟨st⟩, req⟩ hq hv
    simp only [afterVersion, List.mem_cons, List.not_mem_nil, or_false] at hq
    rcases hq with rfl | rfl | rfl | rfl | rfl | rfl | rfl | rfl <;> simp [version] at hv

theorem number_iff {n : Int} {first more : Option Int} (hfirst : first = some n)
    (hmore : more = some (w.foldl addDigit n)) :
    (w = [] ∧ first = some v) ∨ (w ≠ [] ∧ (∀ b ∈ w, IsDecimal b) ∧ more = some v) ↔
      (∀ b ∈ w, IsDecimal b) ∧ v = w.foldl addDigit n := by
  subst hfirst hmore
  by_cases hw : w = []
  · subst hw
    simpa using eq_comm
  · simpa [hw] using fun _ => eq_comm

theorem leads_minor : Leads feed (version · = some v) (reading .httpVersionMinorStart req) w ↔
    (∀ b ∈ w, IsDecimal b) ∧ v = w.foldl addDigit req.httpVersionMinor := by
  have hend : ¬ ∃ l rest, w = l ++ ch '\r' :: rest ∧ l ≠ [] ∧ (∀ b ∈ l, IsDecimal b) ∧
      Leads feed (version · = some v) (reading .expectingNewline1
        { req with httpVersionMinor := l.foldl addDigit req.httpVersionMinor }) rest := by
    rintro ⟨_, _, _, _, _, h⟩
    exact not_leads_afterVersion (by simp [afterVersion]) h
  rw [follows_leads.loop_some gathers_minor (fun b => (feed_minor b).1) (fun b => (feed_minor b).2),
    leads_nil, leads_nil, or_iff_left hend]
  exact number_iff rfl rfl

theorem leads_major : Leads feed (version · = some v) (reading .httpVersionMajorStart req) w ↔
    ((∀ b ∈ w, IsDecimal b) ∧ v = w.foldl addDigit req.httpVersionMajor) ∨
    ∃ major l, w = major ++ ch '.' :: l ∧ (major ≠ [] ∧ ∀ b ∈ major, IsDecimal b) ∧
      (∀ b ∈ l, IsDecimal b) ∧ v = l.foldl addDigit req.httpVersionMinor := by
  rw [follows_leads.loop_some gathers_major (fun b => (feed_major b).1) (fun b => (feed_major b).2),
    leads_nil, leads_nil, ← or_assoc]
  refine or_congr (number_iff rfl rfl) (exists_congr fun major => exists_congr fun l => ?_)
  rw [leads_minor, and_assoc]

/-- **Where the parser reads digits of a version number**, and what the number
is there. -/
theorem leads_version : Leads feed (version · = some v) ({}, {}) p ↔
    ∃ l, AtNumber p l ∧ v = decimalValue l := by
  have hnil : ∀ st ∈ beforeVersion, ∀ req,
      ¬ Leads feed (version · = some v) (reading st req) [] := by
    intro st hst req h
    rw [leads_nil] at h
    simp only [beforeVersion, List.mem_cons, List.not_mem_nil, or_false] at hst
    rcases hst with rfl | rfl | rfl | rfl | rfl | rfl | rfl | rfl <;> simp [version] at h
  refine (reads_opening follows_leads hnil).trans ⟨fun h => ?_, fun h => ?_⟩
  · obtain ⟨method, uri, rest, rfl, hmethod, huri, h⟩ := h
    rcases leads_major.mp h with ⟨hl, rfl⟩ | ⟨major, l, rfl, hmajor, hl, rfl⟩
    · exact ⟨rest, .major hmethod huri hl, foldl_addDigit hl⟩
    · exact ⟨l, .minor hmethod huri hmajor hl, foldl_addDigit hl⟩
  · obtain ⟨l, hl, rfl⟩ := h
    rw [← foldl_addDigit hl.digits]
    cases hl with
    | major hmethod huri hl =>
      exact ⟨_, _, _, rfl, hmethod, huri, leads_major.mpr (.inl ⟨hl, rfl⟩)⟩
    | minor hmethod huri hmajor hl =>
      exact ⟨_, _, _, rfl, hmethod, huri, leads_major.mpr (.inr ⟨_, _, rfl, hmajor, hl, rfl⟩)⟩

/-- **The updates that an input makes.** -/
theorem mem_updates {s : Bytes} {u : Int × UInt8} : u ∈ updates {} {} s ↔
    ∃ p l, p ++ [u.2] <+: s ∧ AtNumber p l ∧ IsDecimal u.2 ∧ u.1 = decimalValue l := by
  rw [updates, mem_trace]
  refine ⟨fun h => ?_, fun h => ?_⟩
  · obtain ⟨p, b, q', hp, hfeeds, hu⟩ := h
    obtain ⟨hb, v, hv, rfl⟩ := update_eq_some.mp hu
    obtain ⟨l, hl, rfl⟩ := leads_version.mp ⟨q', hfeeds, hv⟩
    exact ⟨p, l, hp, hl, hb, rfl⟩
  · obtain ⟨p, l, hp, hl, hb, hv⟩ := h
    obtain ⟨q', hfeeds, hq⟩ := leads_version.mpr ⟨l, hl, hv⟩
    exact ⟨p, u.2, q', hp, hfeeds, update_eq_some.mpr ⟨hb, u.1, hq, rfl⟩⟩

end

/-! ## Overflow -/

/-- **The version numbers never overflow** on these reads: the values that each
update goes through fit an `int`, and a request that is accepted has the two
numbers of its first line. -/
def VersionsExact (values : Int × UInt8 → List Int) (reads : List Bytes) : Prop :=
  (∀ u ∈ (parseReads {} {} reads).1, ∀ x ∈ values u, FitsInt x) ∧
  ((parseReads {} {} reads).2.1 = .yes → ∃ d : RequestHead, d.render <+: reads.flatten ∧
    (parseReads {} {} reads).2.2.httpVersionMajor = decimalValue d.major ∧
    (parseReads {} {} reads).2.2.httpVersionMinor = decimalValue d.minor)

/-- The digits read of each version number make `bound` at most. -/
def DigitsUpTo (bound : Nat) (s : Bytes) : Prop :=
  ∀ p l, p <+: s → AtNumber p l → decimalValue l ≤ bound

theorem versionsExact_iff_of {values : Int × UInt8 → List Int} {bound : Nat}
    (hvalues : ∀ (n : Nat) (b : UInt8), IsDecimal b →
      ((∀ x ∈ values (n, b), FitsInt x) ↔ addDigit n b ≤ bound)) (reads : List Bytes) :
    VersionsExact values reads ↔ DigitsUpTo bound reads.flatten := by
  have hyes : (parse {} {} reads.flatten).1 = .yes → ∃ d : RequestHead,
      d.render <+: reads.flatten ∧
      (parse {} {} reads.flatten).2.2.2.httpVersionMajor = decimalValue d.major ∧
      (parse {} {} reads.flatten).2.2.2.httpVersionMinor = decimalValue d.minor := by
    intro h
    obtain ⟨_, hp, d, rfl⟩ := (parse_decides reads.flatten).yes.mp h
    obtain ⟨-, hreq⟩ := (parse_decides reads.flatten).unique d hp
    rw [hreq]
    exact ⟨d, hp, foldl_addDigit d.major_decimal, foldl_addDigit d.minor_decimal⟩
  rw [VersionsExact, parseReads_eq, and_iff_left hyes]
  refine ⟨fun h p l hp hl => ?_, fun h u hu => ?_⟩
  · induction l using List.reverseRecOn with
    | nil => exact Nat.zero_le bound
    | append_singleton l b _ =>
      obtain ⟨p', rfl, hl', hb⟩ := AtNumber.concat_iff.mp hl
      have hfits := h (decimalValue l, b) (mem_updates.mpr ⟨p', l, hp, hl', hb, rfl⟩)
      have hbound := (hvalues _ b hb).mp hfits
      rw [addDigit_eq hb] at hbound
      omega
  · obtain ⟨p, l, hp, hl, hb, hv⟩ := mem_updates.mp hu
    obtain ⟨v, b⟩ := u
    obtain rfl : v = decimalValue l := hv
    refine (hvalues _ b hb).mpr ?_
    rw [addDigit_eq hb]
    exact_mod_cast h _ _ hp (AtNumber.concat_iff.mpr ⟨p, rfl, hl, hb⟩)

/-- **When the version numbers do not overflow.**  What an update yields fits an
`int` as long as the digits make a number that does.  The sum is taken with the
character of the digit and `'0'` (48) subtracted after, so that on the way it
is larger than that. -/
theorem versions_iff (reads : List Bytes) :
    (VersionsExact result reads ↔ DigitsUpTo 2147483647 reads.flatten) ∧
      (VersionsExact computed reads ↔ DigitsUpTo (2147483647 - 48) reads.flatten) := by
  have hzero : toInt (ch '0') = 48 := rfl
  refine ⟨versionsExact_iff_of (fun n b hb => ?_) reads,
    versionsExact_iff_of (fun n b hb => ?_) reads⟩
  · rw [result, List.forall_mem_singleton, FitsInt, addDigit, toInt_of_isDecimal hb, hzero]
    obtain ⟨h₀, h₉⟩ := hb
    omega
  · rw [computed, List.forall_mem_cons, List.forall_mem_cons, List.forall_mem_singleton, addDigit,
      toInt_of_isDecimal hb, hzero, FitsInt, FitsInt, FitsInt]
    obtain ⟨h₀, h₉⟩ := hb
    omega

/-- A major number of `2^31`. -/
theorem not_versions : ¬ ∀ reads, VersionsExact result reads := by
  intro h
  have hfits := (h [ascii "GET / HTTP/2147483648.0\r\n\r\n"]).1 (214748364, ch '8') (by decide +kernel)
  exact absurd (hfits 2147483648 (by decide +kernel)) (by decide)

end SecMon.Http
