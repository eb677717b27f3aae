import Mathlib.Data.List.TakeWhile
import SecMon.Gui.ServedType
import SecMon.Gui.UrlDecode

/-!
# The dispatch of streams

`handleValidStream` cuts a number out of the request path.  The second argument of
`substr` is a length where an end was meant, so the name is cut behind the first
letter of `.mjpeg`; and `std::stoi` reads no further than the number goes.

* `stoi_eq_some_iff`: what a positive number is read from.
* `handleValidStream_eq`: the name decides.
* `dispatches_iff`: for which paths the dispatch is exact.
-/

namespace SecMon.Http

/-! ## Numbers -/

/-- A number and nothing else. -/
def IsNumber (ds : Bytes) : Prop := ds ≠ [] ∧ ∀ b ∈ ds, (decDigit b).isSome = true

/-- The value of decimal digits. -/
def digitsValue (ds : Bytes) : Nat := ds.foldl (fun n d => n * 10 + (decDigit d).getD 0) 0

/-- **A string that begins with the number `k`**, behind blanks and a `+`. -/
def BeginsWith (k : Nat) (s : Bytes) : Prop :=
  ∃ blanks sign ds rest, s = blanks ++ (sign ++ (ds ++ rest)) ∧
    (∀ b ∈ blanks, isSpace b = true) ∧ (sign = [] ∨ sign = [ch '+']) ∧ IsNumber ds ∧
    (∀ b ∈ rest.head?, decDigit b = none) ∧ digitsValue ds = k

section

variable {s t ds rest : Bytes} {k : Nat}

/-- **`readDigits` reads as many digits as there are.** -/
theorem readDigits_eq_some_iff : readDigits 10 decDigit s = some k ↔
    ∃ ds rest, s = ds ++ rest ∧ IsNumber ds ∧ (∀ b ∈ rest.head?, decDigit b = none) ∧
      digitsValue ds = k := by
  constructor
  · intro h
    refine ⟨s.takeWhile fun b => (decDigit b).isSome, s.dropWhile fun b => (decDigit b).isSome,
      List.takeWhile_append_dropWhile.symm, ⟨?_, ?_⟩, ?_, ?_⟩
    · intro hnil
      rw [readDigits, hnil] at h
      cases h
    · intro b hb
      exact List.mem_takeWhile_imp (p := fun b => (decDigit b).isSome) hb
    · intro b hb
      have hstop := List.head?_dropWhile_not (fun b => (decDigit b).isSome) s
      rw [Option.mem_def.mp hb] at hstop
      exact Option.isNone_iff_eq_none.mp (by simpa using hstop)
    · rw [readDigits] at h
      split at h
      · cases h
      · rename_i b ds heq
        rw [heq]
        exact Option.some.inj h
  · rintro ⟨ds, rest, rfl, ⟨hne, hall⟩, hrest, rfl⟩
    have htake : (ds ++ rest).takeWhile (fun b => (decDigit b).isSome) = ds := by
      rw [List.takeWhile_append_of_pos hall]
      cases rest with
      | nil => simp
      | cons b rest => simp [hrest b rfl]
    rw [readDigits, htake]
    cases ds with
    | nil => exact absurd rfl hne
    | cons b ds => rfl

theorem stoi_eq_some {z : Int} : stoi s = some z ↔
    ∃ n : Nat, readDigits 10 decDigit (readSign (s.dropWhile isSpace)).2 = some n ∧
      (readSign (s.dropWhile isSpace)).1 * n = z ∧ -2147483648 ≤ z ∧ z ≤ 2147483647 := by
  rw [stoi]
  obtain ⟨sign, s⟩ := readSign (s.dropWhile isSpace)
  dsimp only
  cases readDigits 10 decDigit s with
  | none => simp
  | some n => simp [Option.filter_eq_some_iff]

theorem not_isSpace_of_digit {b : UInt8} (h : (decDigit b).isSome = true) : ¬isSpace b = true := by
  intro hspace
  have hhex : hexDigit b = none := hexDigit_of_isSpace hspace
  rw [decDigit, hhex] at h
  cases h

theorem ne_sign_of_digit {b : UInt8} (h : (decDigit b).isSome = true) :
    b ≠ ch '-' ∧ b ≠ ch '+' := by
  constructor <;> rintro rfl <;> exact absurd h (by decide)

theorem IsNumber.exists_cons (h : IsNumber ds) : ∃ b ds', ds = b :: ds' ∧
    (decDigit b).isSome = true := by
  obtain ⟨hne, hall⟩ := h
  cases ds with
  | nil => exact absurd rfl hne
  | cons b ds => exact ⟨b, ds, rfl, hall b List.mem_cons_self⟩

/-- **A positive number is read** from what begins with it, if it fits. -/
theorem stoi_eq_some_iff (hk : 1 ≤ k) :
    stoi s = some (k : Int) ↔ BeginsWith k s ∧ k ≤ 2147483647 := by
  rw [stoi_eq_some]
  constructor
  · rintro ⟨n, hread, hval, -, hmax⟩
    refine ⟨?_, by omega⟩
    have hblanks : ∀ b ∈ s.takeWhile isSpace, isSpace b = true := fun b hb =>
      List.mem_takeWhile_imp hb
    have hs : s = s.takeWhile isSpace ++ s.dropWhile isSpace :=
      List.takeWhile_append_dropWhile.symm
    cases hrest : s.dropWhile isSpace with
    | nil =>
      rw [hrest] at hread
      cases hread
    | cons b rest =>
      rw [hrest] at hread hval hs
      by_cases hminus : b = ch '-'
      · subst hminus
        have hneg : (readSign (ch '-' :: rest)).1 = -1 := rfl
        rw [hneg] at hval
        omega
      by_cases hplus : b = ch '+'
      · subst hplus
        have hsign : readSign (ch '+' :: rest) = (1, rest) := rfl
        rw [hsign] at hread hval
        obtain ⟨ds, rest', rfl, hds, hhead, rfl⟩ := readDigits_eq_some_iff.mp hread
        exact ⟨_, [ch '+'], ds, rest', hs, hblanks, Or.inr rfl, hds, hhead, by omega⟩
      · rw [readSign_of_not_sign hminus hplus] at hread hval
        obtain ⟨ds, rest', heq, hds, hhead, rfl⟩ := readDigits_eq_some_iff.mp hread
        rw [show b :: rest = ds ++ rest' from heq] at hs
        exact ⟨_, [], ds, rest', hs, hblanks, Or.inl rfl, hds, hhead, by omega⟩
  · rintro ⟨⟨blanks, sign, ds, rest, rfl, hblanks, hsign, hds, hhead, hval⟩, hmax⟩
    obtain ⟨d, ds', hcons, hd⟩ := hds.exists_cons
    have hread : readSign ((blanks ++ (sign ++ (ds ++ rest))).dropWhile isSpace) =
        (1, ds ++ rest) := by
      rw [List.dropWhile_append_of_pos hblanks]
      obtain rfl | rfl := hsign
      · rw [List.nil_append, hcons, List.cons_append,
          List.dropWhile_cons_of_neg (not_isSpace_of_digit hd),
          readSign_of_not_sign (ne_sign_of_digit hd).1 (ne_sign_of_digit hd).2]
      · rfl
    rw [hread]
    exact ⟨k, readDigits_eq_some_iff.mpr ⟨ds, rest, rfl, hds, hhead, hval⟩, Int.one_mul _,
      by omega, by omega⟩

/-- What is only digits begins with its own value and with no other number. -/
theorem beginsWith_iff_of_isNumber (hs : IsNumber s) : BeginsWith k s ↔ digitsValue s = k := by
  constructor
  · rintro ⟨blanks, sign, ds, rest, rfl, hblanks, hsign, hds, hhead, rfl⟩
    obtain ⟨-, hall⟩ := hs
    have hblanks0 : blanks = [] := by
      cases blanks with
      | nil => rfl
      | cons b blanks =>
        exact absurd (hblanks b List.mem_cons_self)
          (not_isSpace_of_digit (hall b List.mem_cons_self))
    subst hblanks0
    have hsign0 : sign = [] := by
      obtain rfl | rfl := hsign
      · rfl
      · exact absurd (hall (ch '+') (by simp)) (by decide)
    subst hsign0
    have hrest0 : rest = [] := by
      cases rest with
      | nil => rfl
      | cons b rest =>
        have hb := hall b (by simp)
        rw [hhead b rfl] at hb
        cases hb
    rw [hrest0, List.append_nil]
    rfl
  · rintro rfl
    exact ⟨[], [], s, [], by simp, by simp, Or.inl rfl, hs, by simp, rfl⟩

/-! ### A dot behind the number -/

theorem takeWhile_append_cons {p : UInt8 → Bool} {b : UInt8} (h : p b = false) :
    (s ++ b :: t).takeWhile p = s.takeWhile p := by
  induction s with
  | nil => simp [h]
  | cons c s ih =>
    rw [List.cons_append, List.takeWhile_cons, List.takeWhile_cons, ih]

theorem dropWhile_append_cons {p : UInt8 → Bool} {b : UInt8} (h : p b = false) :
    (s ++ b :: t).dropWhile p = s.dropWhile p ++ b :: t := by
  induction s with
  | nil => simp [h]
  | cons c s ih =>
    rw [List.cons_append, List.dropWhile_cons, List.dropWhile_cons, ih]
    split_ifs <;> rfl

/-- **`std::stoi` stops at a dot.** -/
theorem stoi_append_dot (s t : Bytes) : stoi (s ++ ch '.' :: t) = stoi s := by
  have hsign : ∀ u : Bytes, readSign (u ++ ch '.' :: t) =
      ((readSign u).1, (readSign u).2 ++ ch '.' :: t) := by
    intro u
    cases u with
    | nil => rfl
    | cons b u =>
      rw [List.cons_append, readSign, readSign]
      split_ifs <;> rfl
  have hdigits : ∀ u : Bytes, readDigits 10 decDigit (u ++ ch '.' :: t) =
      readDigits 10 decDigit u := by
    intro u
    rw [readDigits, readDigits, takeWhile_append_cons (by decide)]
  rw [stoi, stoi, dropWhile_append_cons (by decide), hsign]
  dsimp only
  rw [hdigits]

end

/-! ## The directory -/

variable {κ : Type}

/-- One call of the directory. -/
inductive DirectoryCall (κ : Type)
  | addStream
  | handleValidStream (streamRequest : Bytes) (conn : κ)

namespace StreamDirectory

def step (dir : StreamDirectory κ) : DirectoryCall κ → StreamDirectory κ
  | .addStream => dir.addStream
  | .handleValidStream streamRequest conn =>
    (dir.handleValidStream streamRequest conn).getD dir

/-- The directory after a sequence of calls. -/
def after (calls : List (DirectoryCall κ)) : StreamDirectory κ := calls.foldl step {}

/-- How many streams have been added. -/
def added : List (DirectoryCall κ) → Nat
  | [] => 0
  | .addStream :: calls => added calls + 1
  | .handleValidStream _ _ :: calls => added calls

/-- Register a connection with the stream that was added as the `k`-th. -/
def registerNth (dir : StreamDirectory κ) (k : Nat) (conn : κ) : StreamDirectory κ :=
  { dir with
    streamList := dir.streamList.modify (k - 1) fun e => (e.1, e.2.registerNewConnection conn) }

/-- **The streams are numbered** in the order they were added in. -/
structure Numbered (dir : StreamDirectory κ) (n : Nat) : Prop where
  streamId_eq : dir.streamId = n
  keys_eq : dir.streamList.map Prod.fst = (List.range n).map fun i : Nat => (i : Int) + 1

variable {dir : StreamDirectory κ} {n : Nat}

theorem Numbered.addStream (h : dir.Numbered n) : dir.addStream.Numbered (n + 1) where
  streamId_eq := by
    rw [StreamDirectory.addStream, h.streamId_eq]
    rfl
  keys_eq := by
    rw [StreamDirectory.addStream, List.map_append, h.keys_eq, h.streamId_eq, List.range_succ,
      List.map_append]
    rfl

theorem Numbered.modify (h : dir.Numbered n) (id : Int) (f : Stream κ → Stream κ) :
    (dir.modify id f).Numbered n where
  streamId_eq := h.streamId_eq
  keys_eq := by
    rw [← h.keys_eq, StreamDirectory.modify, List.map_map]
    apply List.map_congr_left
    intro e _
    simp only [Function.comp_apply]
    split_ifs <;> rfl

theorem handleValidStream_eq_some {p : Bytes} {conn : κ} {dir' : StreamDirectory κ}
    (h : dir.handleValidStream p conn = some dir') : ∃ id, dir' = dir.register id conn := by
  rw [StreamDirectory.handleValidStream] at h
  obtain ⟨lastDotPos, -, h⟩ := Option.bind_eq_some_iff.mp h
  obtain ⟨filename, -, h⟩ := Option.bind_eq_some_iff.mp h
  obtain ⟨id, -, h⟩ := Option.bind_eq_some_iff.mp h
  obtain ⟨_, -, h⟩ := Option.bind_eq_some_iff.mp h
  exact ⟨id, (Option.some.inj h).symm⟩

theorem Numbered.step (h : dir.Numbered n) (call : DirectoryCall κ) :
    (dir.step call).Numbered (n + added [call]) := by
  cases call with
  | addStream => exact h.addStream
  | handleValidStream p conn =>
    rw [StreamDirectory.step]
    cases hp : dir.handleValidStream p conn with
    | none => exact h
    | some dir' =>
      obtain ⟨id, rfl⟩ := handleValidStream_eq_some hp
      exact h.modify id _

theorem Numbered.foldl (calls : List (DirectoryCall κ)) : ∀ {dir : StreamDirectory κ} {n : Nat},
    dir.Numbered n → (calls.foldl StreamDirectory.step dir).Numbered (n + added calls) := by
  induction calls with
  | nil =>
    intro dir n h
    exact h
  | cons call calls ih =>
    intro dir n h
    have hnext := ih (h.step call)
    have hadded : n + added [call] + added calls = n + added (call :: calls) := by
      cases call with
      | addStream => simp only [added]; omega
      | handleValidStream p conn => simp only [added]; omega
    rw [hadded] at hnext
    exact hnext

theorem numbered_after (calls : List (DirectoryCall κ)) : (after calls).Numbered (added calls) := by
  have h0 : ({} : StreamDirectory κ).Numbered 0 := ⟨rfl, rfl⟩
  have h := Numbered.foldl calls h0
  rw [Nat.zero_add] at h
  exact h

theorem Numbered.lookup_isSome_iff (h : dir.Numbered n) {id : Int} :
    (dir.streamList.lookup id).isSome = true ↔ 1 ≤ id ∧ id ≤ n := by
  have hmem : (dir.streamList.lookup id).isSome = true ↔ id ∈ dir.streamList.map Prod.fst := by
    rw [List.lookup_isSome_iff, List.mem_map]
    constructor
    · rintro ⟨e, he, heq⟩
      exact ⟨e, he, (eq_of_beq heq).symm⟩
    · rintro ⟨e, he, rfl⟩
      exact ⟨e, he, beq_self_eq_true _⟩
  rw [hmem, h.keys_eq, List.mem_map]
  constructor
  · rintro ⟨i, hi, rfl⟩
    rw [List.mem_range] at hi
    omega
  · intro hid
    refine ⟨(id - 1).toNat, ?_, ?_⟩
    · rw [List.mem_range]
      omega
    · omega

theorem lookup_modify (dir : StreamDirectory κ) (id j : Int) (f : Stream κ → Stream κ) :
    (dir.modify id f).streamList.lookup j =
      if j = id then (dir.streamList.lookup j).map f else dir.streamList.lookup j := by
  rw [StreamDirectory.modify]
  induction dir.streamList with
  | nil => simp
  | cons e l ih =>
    have hkey : (if e.1 = id then (e.1, f e.2) else e).1 = e.1 := by
      split_ifs <;> rfl
    rw [List.map_cons, List.lookup_cons, List.lookup_cons, hkey]
    by_cases hj : j = e.1
    · subst hj
      rw [beq_self_eq_true]
      by_cases hid : e.1 = id
      · simp [hid]
      · simp [hid]
    · rw [beq_false_of_ne hj]
      exact ih

theorem lookup_register (dir : StreamDirectory κ) (id j : Int) (conn : κ) :
    (dir.register id conn).streamList.lookup j =
      if j = id then (dir.streamList.lookup j).map (·.registerNewConnection conn)
      else dir.streamList.lookup j :=
  lookup_modify dir id j _

/-- **The stream with the number `k` is the `k`-th added.** -/
theorem Numbered.register_eq (h : dir.Numbered n) {k : Nat} (hk : 1 ≤ k) (conn : κ) :
    dir.register k conn = dir.registerNth k conn := by
  have hkey : ∀ (i : Nat) e, dir.streamList[i]? = some e → e.1 = (i : Int) + 1 := by
    intro i e he
    have hget := congrArg (·[i]?) h.keys_eq
    simp only [List.getElem?_map, he, Option.map_some] at hget
    obtain ⟨j, hj, heq⟩ := Option.map_eq_some_iff.mp hget.symm
    rw [List.getElem?_eq_some_iff] at hj
    obtain ⟨hlt, rfl⟩ := hj
    rw [← heq, List.getElem_range]
  have hlist : (dir.streamList.map fun e =>
      if e.1 = (k : Int) then (e.1, e.2.registerNewConnection conn) else e) =
      dir.streamList.modify (k - 1) fun e => (e.1, e.2.registerNewConnection conn) := by
    apply List.ext_getElem?
    intro i
    rw [List.getElem?_map, List.getElem?_modify]
    cases he : dir.streamList[i]? with
    | none => rfl
    | some e =>
      have hi := hkey i e he
      rw [Option.map_some, Option.map_eq_map, Option.map_some]
      by_cases hik : k - 1 = i
      · rw [if_pos (by omega), if_pos hik]
      · rw [if_neg (by omega), if_neg hik]
  rw [StreamDirectory.register, StreamDirectory.modify, hlist, registerNth]

end StreamDirectory

/-! ## Paths -/

/-- **The path of the `k`-th stream**: a slash, digits of value `k`, and `.mjpeg`. -/
def StreamPath (p : Bytes) (k : Nat) : Prop :=
  ∃ ds, IsNumber ds ∧ digitsValue ds = k ∧ p = ch '/' :: (ds ++ ascii ".mjpeg")

/-- What stands between the slash and `.mjpeg`. -/
def fileName (p : Bytes) : Bytes := (p.drop 1).take (p.length - 7)

/-- **The dispatch is exact**: the path of a stream that there is registers with that
stream, and any other path with none. -/
def Dispatches (dir : StreamDirectory κ) (n : Nat) (p : Bytes) (conn : κ) : Prop :=
  (∀ k, StreamPath p k → 1 ≤ k → k ≤ n →
      dir.handleValidStream p conn = some (dir.registerNth k conn)) ∧
    ((∀ k, StreamPath p k → ¬(1 ≤ k ∧ k ≤ n)) → dir.handleValidStream p conn = none)

section

variable {name : Bytes} {dir : StreamDirectory κ} {n : Nat} {conn : κ}

theorem fileName_eq (name : Bytes) : fileName (ch '/' :: (name ++ ascii ".mjpeg")) = name := by
  have hlen : (ch '/' :: (name ++ ascii ".mjpeg")).length - 7 = name.length := by
    have h6 : (ascii ".mjpeg").length = 6 := rfl
    rw [List.length_cons, List.length_append, h6]
    omega
  rw [fileName, hlen, List.drop_succ_cons, List.drop_zero, List.take_left']
  rfl

theorem exists_fileName {p : Bytes} (hhead : p.head? = some (ch '/'))
    (hext : extension p = ascii "mjpeg") :
    ∃ name, p = ch '/' :: (name ++ ascii ".mjpeg") := by
  obtain ⟨-, hnone⟩ | ⟨l, r, rfl, -, hdot⟩ := findLastOf_cases (ch '.') p
  · rw [extension, hnone] at hext
    cases hext
  rw [extension, hdot] at hext
  split at hext
  · rename_i i j hi hj
    obtain rfl := Option.some.inj hi
    split_ifs at hext with hlt
    · have hr : r = ascii "mjpeg" := by
        rw [← hext, List.append_cons, List.drop_left']
        rw [List.length_append, List.length_singleton]
      cases l with
      | nil => exact absurd hhead (by simp; decide)
      | cons b l =>
        obtain rfl : b = ch '/' := Option.some.inj hhead
        exact ⟨l, by rw [hr]; rfl⟩
    · cases hext
  · cases hext

/-- **The name decides**, up to the dot behind it. -/
theorem handleValidStream_eq (dir : StreamDirectory κ) (name : Bytes) (conn : κ) :
    dir.handleValidStream (ch '/' :: (name ++ ascii ".mjpeg")) conn =
      (stoi name).bind fun id => (dir.streamList.lookup id).map fun _ => dir.register id conn := by
  have hdot : findLastOf (ch '.') (ch '/' :: (name ++ ascii ".mjpeg")) =
      some (name.length + 1) := by
    have h : ascii ".mjpeg" = ch '.' :: ascii "mjpeg" := rfl
    rw [h, ← List.cons_append, findLastOf_append_cons (by decide), List.length_cons]
  have hsub : substr 1 (name.length + 1 + 1) (ch '/' :: (name ++ ascii ".mjpeg")) =
      some (name ++ ch '.' :: ascii "m") := by
    rw [substr, if_pos (by simp), List.drop_succ_cons, List.drop_zero, List.take_append,
      List.take_of_length_le (by omega)]
    have h : name.length + 1 + 1 - name.length = 2 := by omega
    rw [h]
    rfl
  rw [StreamDirectory.handleValidStream, hdot, Option.bind_eq_bind, Option.bind_some, hsub,
    Option.bind_eq_bind, Option.bind_some, stoi_append_dot]
  cases stoi name with
  | none => rfl
  | some id =>
    rw [Option.bind_eq_bind, Option.bind_some, Option.bind_some]
    cases dir.streamList.lookup id <;> rfl

theorem handleValidStream_of_stoi (conn : κ) (h : dir.Numbered n) {k : Nat} (hk : 1 ≤ k) (hkn : k ≤ n)
    (hname : stoi name = some (k : Int)) :
    dir.handleValidStream (ch '/' :: (name ++ ascii ".mjpeg")) conn =
      some (dir.registerNth k conn) := by
  have hsome : (dir.streamList.lookup (k : Int)).isSome = true :=
    h.lookup_isSome_iff.mpr (by omega)
  obtain ⟨str, hstr⟩ := Option.isSome_iff_exists.mp hsome
  rw [handleValidStream_eq, hname, Option.bind_some, hstr, Option.map_some, h.register_eq hk]

theorem exists_of_handleValidStream (h : dir.Numbered n)
    (hne : dir.handleValidStream (ch '/' :: (name ++ ascii ".mjpeg")) conn ≠ none) :
    ∃ k : Nat, 1 ≤ k ∧ k ≤ n ∧ stoi name = some (k : Int) := by
  rw [handleValidStream_eq] at hne
  cases hname : stoi name with
  | none =>
    rw [hname] at hne
    exact absurd rfl hne
  | some id =>
    rw [hname, Option.bind_some] at hne
    have hsome : (dir.streamList.lookup id).isSome = true := by
      cases hl : dir.streamList.lookup id with
      | none =>
        rw [hl] at hne
        exact absurd rfl hne
      | some str => rfl
    have hid := h.lookup_isSome_iff.mp hsome
    refine ⟨id.toNat, by omega, by omega, ?_⟩
    rw [Int.toNat_of_nonneg (by omega)]

theorem streamPath_iff {k : Nat} :
    StreamPath (ch '/' :: (name ++ ascii ".mjpeg")) k ↔ IsNumber name ∧ digitsValue name = k := by
  constructor
  · rintro ⟨ds, hds, hval, heq⟩
    obtain rfl := List.append_cancel_right (List.cons.inj heq).2
    exact ⟨hds, hval⟩
  · rintro ⟨hds, hval⟩
    exact ⟨name, hds, hval, rfl⟩

/-- **For which names the dispatch is exact.** -/
theorem dispatches_name_iff (h : dir.Numbered n) :
    Dispatches dir n (ch '/' :: (name ++ ascii ".mjpeg")) conn ↔
      (∀ k, 1 ≤ k → k ≤ n → k ≤ 2147483647 → BeginsWith k name → IsNumber name) ∧
        (IsNumber name → digitsValue name ≤ n → digitsValue name ≤ 2147483647) := by
  rw [Dispatches]
  simp only [streamPath_iff]
  constructor
  · rintro ⟨hfound, hnone⟩
    constructor
    · intro k hk hkn hmax hbegins
      by_contra hnot
      have hread := handleValidStream_of_stoi conn h hk hkn
        ((stoi_eq_some_iff hk).mpr ⟨hbegins, hmax⟩)
      rw [hnone fun _ hpath => absurd hpath.1 hnot] at hread
      cases hread
    · intro hnumber hle
      by_cases hpos : 1 ≤ digitsValue name
      · have hread := hfound _ ⟨hnumber, rfl⟩ hpos hle
        have hne := Option.ne_none_iff_exists'.mpr ⟨_, hread⟩
        obtain ⟨k, hk, -, hstoi⟩ := exists_of_handleValidStream h hne
        obtain ⟨hbegins, hmax⟩ := (stoi_eq_some_iff hk).mp hstoi
        rw [(beginsWith_iff_of_isNumber hnumber).mp hbegins]
        exact hmax
      · omega
  · rintro ⟨honly, hmax⟩
    constructor
    · rintro k ⟨hnumber, rfl⟩ hk hkn
      apply handleValidStream_of_stoi conn h hk hkn
      rw [stoi_eq_some_iff hk]
      exact ⟨(beginsWith_iff_of_isNumber hnumber).mpr rfl, hmax hnumber hkn⟩
    · intro hno
      by_contra hne
      obtain ⟨k, hk, hkn, hstoi⟩ := exists_of_handleValidStream h hne
      obtain ⟨hbegins, hint⟩ := (stoi_eq_some_iff hk).mp hstoi
      have hnumber := honly k hk hkn hint hbegins
      exact hno k ⟨hnumber, (beginsWith_iff_of_isNumber hnumber).mp hbegins⟩ ⟨hk, hkn⟩

end

/-- **Stream dispatch is exact** for the names that begin with the number of a stream only
if they are nothing but that number. -/
theorem dispatches_iff (calls : List (DirectoryCall κ)) (p : Bytes) (conn : κ)
    (hhead : p.head? = some (ch '/')) (hext : extension p = ascii "mjpeg") :
    Dispatches (StreamDirectory.after calls) (StreamDirectory.added calls) p conn ↔
      (∀ k, 1 ≤ k → k ≤ StreamDirectory.added calls → k ≤ 2147483647 →
        BeginsWith k (fileName p) → IsNumber (fileName p)) ∧
      (IsNumber (fileName p) → digitsValue (fileName p) ≤ StreamDirectory.added calls →
        digitsValue (fileName p) ≤ 2147483647) := by
  obtain ⟨name, rfl⟩ := exists_fileName hhead hext
  rw [fileName_eq]
  exact dispatches_name_iff (StreamDirectory.numbered_after calls)

/-- A number with a leading zero, as the page asks for it. -/
theorem dispatches_iff_page :
    let calls : List (DirectoryCall Unit) := [.addStream, .addStream]
    (ascii "/02.mjpeg").head? = some (ch '/') ∧ extension (ascii "/02.mjpeg") = ascii "mjpeg" ∧
      (Dispatches (StreamDirectory.after calls) (StreamDirectory.added calls)
          (ascii "/02.mjpeg") () ↔
        (∀ k, 1 ≤ k → k ≤ StreamDirectory.added calls → k ≤ 2147483647 →
          BeginsWith k (fileName (ascii "/02.mjpeg")) →
            IsNumber (fileName (ascii "/02.mjpeg"))) ∧
        (IsNumber (fileName (ascii "/02.mjpeg")) →
          digitsValue (fileName (ascii "/02.mjpeg")) ≤ StreamDirectory.added calls →
          digitsValue (fileName (ascii "/02.mjpeg")) ≤ 2147483647)) :=
  ⟨by decide +kernel, by decide +kernel,
    dispatches_iff [.addStream, .addStream] (ascii "/02.mjpeg") () (by decide +kernel)
      (by decide +kernel)⟩

/-- A name that only begins with a number is dispatched as well. -/
theorem not_dispatches :
    ¬∀ (calls : List (DirectoryCall Unit)) (p : Bytes), p.head? = some (ch '/') →
      extension p = ascii "mjpeg" →
      Dispatches (StreamDirectory.after calls) (StreamDirectory.added calls) p () := by
  intro h
  have hnone := (h [.addStream] (ascii "/1abc.mjpeg") (by decide +kernel) (by decide +kernel)).2
  have hpath : ∀ k, ¬StreamPath (ascii "/1abc.mjpeg") k := by
    intro k hk
    have heq : ascii "/1abc.mjpeg" = ch '/' :: (ascii "1abc" ++ ascii ".mjpeg") := rfl
    rw [heq, streamPath_iff] at hk
    exact absurd (hk.1.2 (ch 'a') (by decide)) (by decide)
  have hsome : ((StreamDirectory.after [.addStream]).handleValidStream (ascii "/1abc.mjpeg")
      ()).isSome = true := by decide +kernel
  rw [hnone fun k hk => absurd hk (hpath k)] at hsome
  cases hsome

end SecMon.Http
