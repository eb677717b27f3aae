import Mathlib.Data.List.Basic

/-!
# Incremental deciders

A parser that is fed one symbol at a time and says after each of them that
the input is right, that it is wrong, or that it cannot tell yet.  `run` feeds
it a list and stops at the first answer.

The words of a decider are the inputs after the last symbol of which it says
yes (`Accepts`); no word is a proper prefix of another (`Accepts.unique`).
If from every undecided state some word can still be completed (`live`), the
three answers are exact: `run_yes_iff`, `run_indeterminate_iff` and
`run_no_iff` say when each is given, and `run_no_shortest` that a no comes at
the first symbol that leaves nothing to hope for.

`trace` keeps what is noted of the symbols while they are used.

`Follows.step`, `Follows.skip` and `Follows.loop` read the words off a state
with one way on, off a state that passes over symbols and off a state that
gathers them until an end mark; they serve for the words that are accepted and
for the inputs that lead to a given state.
-/

namespace SecMon

/-- `boost::tribool`. -/
inductive Tribool
  | yes
  | no
  | indeterminate
  deriving DecidableEq, Repr

namespace Decider

variable {σ α : Type*}

/-- Feed a list until there is an answer.  Gives the answer, the symbols not
used and the state. -/
def run (consume : σ → α → Tribool × σ) : σ → List α → Tribool × List α × σ
  | q, [] => (.indeterminate, [], q)
  | q, b :: bs =>
    match consume q b with
    | (.indeterminate, q') => run consume q' bs
    | (r, q') => (r, bs, q')

/-- The input is accepted with its last symbol. -/
inductive Accepts (consume : σ → α → Tribool × σ) : σ → List α → σ → Prop
  | last {q q' : σ} {b : α} (h : consume q b = (.yes, q')) : Accepts consume q [b] q'
  | more {q q₁ q' : σ} {b : α} {w : List α} (h : consume q b = (.indeterminate, q₁))
      (rest : Accepts consume q₁ w q') : Accepts consume q (b :: w) q'

/-- The input leaves the decider undecided. -/
inductive Feeds (consume : σ → α → Tribool × σ) : σ → List α → σ → Prop
  | nil (q : σ) : Feeds consume q [] q
  | cons {q q₁ q' : σ} {b : α} {w : List α} (h : consume q b = (.indeterminate, q₁))
      (rest : Feeds consume q₁ w q') : Feeds consume q (b :: w) q'

/-- The words of a state. -/
def Word (consume : σ → α → Tribool × σ) (q : σ) (w : List α) : Prop :=
  ∃ q', Accepts consume q w q'

/-- The prefixes of words. -/
def Viable (consume : σ → α → Tribool × σ) (q : σ) (p : List α) : Prop :=
  ∃ t, Word consume q (p ++ t)

variable {consume : σ → α → Tribool × σ} {q q' q₁ q₂ : σ} {b : α} {p s r w : List α}

theorem run_cons_indeterminate (h : consume q b = (.indeterminate, q₁)) :
    run consume q (b :: s) = run consume q₁ s := by
  rw [run, h]

theorem run_cons_yes (h : consume q b = (.yes, q₁)) :
    run consume q (b :: s) = (.yes, s, q₁) := by
  rw [run, h]

theorem run_cons_no (h : consume q b = (.no, q₁)) :
    run consume q (b :: s) = (.no, s, q₁) := by
  rw [run, h]

/-! ### What a run has seen -/

theorem Accepts.run (h : Accepts consume q p q') (r : List α) :
    run consume q (p ++ r) = (.yes, r, q') := by
  induction h with
  | last h => exact run_cons_yes h
  | more h _ ih =>
    rw [List.cons_append, run_cons_indeterminate h]
    exact ih

/-- **Input may come in pieces.**  A run over two of them is a run over the
first and, if that gives no answer, over the second. -/
theorem run_append (consume : σ → α → Tribool × σ) (q : σ) (s t : List α) :
    run consume q (s ++ t) =
      match run consume q s with
      | (.indeterminate, _, q') => run consume q' t
      | (v, r, q') => (v, r ++ t, q') := by
  induction s generalizing q with
  | nil => rfl
  | cons b s ih =>
    obtain ⟨v, q₁, hb⟩ : ∃ v q₁, consume q b = (v, q₁) := ⟨_, _, rfl⟩
    rw [List.cons_append]
    cases v with
    | yes => rw [run_cons_yes hb, run_cons_yes hb]
    | no => rw [run_cons_no hb, run_cons_no hb]
    | indeterminate => rw [run_cons_indeterminate hb, run_cons_indeterminate hb, ih q₁]

theorem run_cases (consume : σ → α → Tribool × σ) (q : σ) (s : List α) :
    (∃ p r q', s = p ++ r ∧ Accepts consume q p q' ∧ run consume q s = (.yes, r, q')) ∨
    (∃ q', Feeds consume q s q' ∧ run consume q s = (.indeterminate, [], q')) ∨
    ∃ p b r q₁ q', s = p ++ b :: r ∧ Feeds consume q p q₁ ∧ consume q₁ b = (.no, q') ∧
      run consume q s = (.no, r, q') := by
  induction s generalizing q with
  | nil => exact .inr (.inl ⟨q, .nil q, rfl⟩)
  | cons b bs ih =>
    obtain ⟨v, q₁, hb⟩ : ∃ v q₁, consume q b = (v, q₁) := ⟨_, _, rfl⟩
    cases v with
    | yes => exact .inl ⟨[b], bs, q₁, rfl, .last hb, run_cons_yes hb⟩
    | no => exact .inr (.inr ⟨[], b, bs, q, q₁, rfl, .nil q, hb, run_cons_no hb⟩)
    | indeterminate =>
      rw [run_cons_indeterminate hb]
      rcases ih q₁ with ⟨p, r, q', rfl, hp, hr⟩ | ⟨q', hs, hr⟩ |
        ⟨p, c, r, q₂, q', rfl, hp, hc, hr⟩
      · exact .inl ⟨b :: p, r, q', rfl, .more hb hp, hr⟩
      · exact .inr (.inl ⟨q', .cons hb hs, hr⟩)
      · exact .inr (.inr ⟨b :: p, c, r, q₂, q', rfl, .cons hb hp, hc, hr⟩)

theorem Accepts.ne_nil (h : Accepts consume q p q') : p ≠ [] := by
  cases h with
  | last => simp
  | more => simp

/-- **No word is a proper prefix of another**, and a word leads to one state. -/
theorem Accepts.unique (h : Accepts consume q p q₁) (g : Accepts consume q w q₂)
    {r r' : List α} (he : p ++ r = w ++ r') : p = w ∧ r = r' ∧ q₁ = q₂ := by
  have heq : (Tribool.yes, r, q₁) = (Tribool.yes, r', q₂) := by
    rw [← h.run r, he, g.run r']
  obtain ⟨_, hr, hq⟩ : Tribool.yes = .yes ∧ r = r' ∧ q₁ = q₂ := by simpa using heq
  subst hr
  exact ⟨List.append_cancel_right he, rfl, hq⟩

theorem accepts_cons (h : consume q b = (.indeterminate, q₁)) :
    Accepts consume q (b :: w) q' ↔ Accepts consume q₁ w q' := by
  constructor
  · intro ha
    cases ha with
    | last hy =>
      rw [hy] at h
      simp at h
    | more hm ha =>
      rw [hm] at h
      rw [← (Prod.mk.inj h).2]
      exact ha
  · exact .more h

theorem not_accepts_nil : ¬ Accepts consume q [] q' := fun h => h.ne_nil rfl

theorem Word.of_step (h : consume q b = (.indeterminate, q₁)) (hw : ∃ w, Word consume q₁ w) :
    ∃ w, Word consume q w := by
  obtain ⟨w, q', hw⟩ := hw
  exact ⟨b :: w, q', .more h hw⟩

/-- After an undecided prefix, the words of the state are the words that are
left. -/
theorem Feeds.accepts (h : Feeds consume q p q₁) :
    Accepts consume q (p ++ w) q' ↔ Accepts consume q₁ w q' := by
  induction h with
  | nil => rfl
  | cons h _ ih => exact (accepts_cons h).trans ih

theorem not_accepts_of_no (h : consume q b = (.no, q₁)) : ¬ Accepts consume q (b :: w) q' := by
  intro ha
  cases ha with
  | last hy =>
    rw [hy] at h
    simp at h
  | more hm _ =>
    rw [hm] at h
    simp at h

/-! ### The three answers -/

section live

variable (live : ∀ p q', Feeds consume q p q' → ∃ w, Word consume q' w)

include live in
theorem Feeds.viable (h : Feeds consume q p q₁) : Viable consume q p := by
  obtain ⟨w, q', hw⟩ := live p q₁ h
  exact ⟨w, q', h.accepts.mpr hw⟩

theorem run_yes_iff : (run consume q s).1 = .yes ↔ ∃ p, p <+: s ∧ Word consume q p := by
  constructor
  · intro h
    rcases run_cases consume q s with ⟨p, r, q', rfl, hp, _⟩ | ⟨q', _, hr⟩ |
      ⟨p, b, r, q₁, q', _, _, _, hr⟩
    · exact ⟨p, List.prefix_append p r, q', hp⟩
    · rw [hr] at h
      simp at h
    · rw [hr] at h
      simp at h
  · intro hr
    obtain ⟨p, ⟨r, rfl⟩, q', hp⟩ := hr
    rw [hp.run r]

theorem not_viable_of_no (h : Feeds consume q p q₁) (hb : consume q₁ b = (.no, q')) :
    ¬ Viable consume q (p ++ [b]) := by
  intro hr
  obtain ⟨t, q₂, ht⟩ := hr
  rw [List.append_assoc] at ht
  exact not_accepts_of_no hb (h.accepts.mp ht)

include live in
/-- **Undecided** exactly on the proper prefixes of words. -/
theorem run_indeterminate_iff :
    (run consume q s).1 = .indeterminate ↔ ∃ t, t ≠ [] ∧ Word consume q (s ++ t) := by
  constructor
  · intro h
    rcases run_cases consume q s with ⟨p, r, q', _, _, hr⟩ | ⟨q', hs, _⟩ |
      ⟨p, b, r, q₁, q', _, _, _, hr⟩
    · rw [hr] at h
      simp at h
    · obtain ⟨w, q₂, hw⟩ := live s q' hs
      exact ⟨w, hw.ne_nil, q₂, hs.accepts.mpr hw⟩
    · rw [hr] at h
      simp at h
  · intro hr
    obtain ⟨t, ht, q₂, hw⟩ := hr
    rcases run_cases consume q s with ⟨p, r, q', rfl, hp, _⟩ | ⟨q', _, hr⟩ |
      ⟨p, b, r, q₁, q', rfl, hp, hb, _⟩
    · -- a word would be a proper prefix of another
      have he : p ++ (r ++ t) = p ++ r ++ t ++ [] := by simp
      obtain ⟨_, hnil, _⟩ := hp.unique hw he
      exact absurd (List.append_eq_nil_iff.mp hnil).2 ht
    · rw [hr]
    · exact absurd ⟨r ++ t, q₂, by simpa using hw⟩ (not_viable_of_no hp hb)

include live in
/-- **No** exactly when nothing that was read is a word and something that was
read begins none. -/
theorem run_no_iff : (run consume q s).1 = .no ↔
    (∀ p, p <+: s → ¬ Word consume q p) ∧ ∃ p, p <+: s ∧ ¬ Viable consume q p := by
  constructor
  · intro h
    refine ⟨fun p hp hw => ?_, ?_⟩
    · have hyes := run_yes_iff.mpr ⟨p, hp, hw⟩
      rw [h] at hyes
      simp at hyes
    · rcases run_cases consume q s with ⟨p, r, q', _, _, hr⟩ | ⟨q', _, hr⟩ |
        ⟨p, b, r, q₁, q', rfl, hp, hb, _⟩
      · rw [hr] at h
        simp at h
      · rw [hr] at h
        simp at h
      · exact ⟨p ++ [b], ⟨r, by simp⟩, not_viable_of_no hp hb⟩
  · intro hr
    obtain ⟨hnone, p, ⟨t, rfl⟩, hp⟩ := hr
    rcases run_cases consume q (p ++ t) with ⟨p', r, q', he, hp', _⟩ | ⟨q', hs, _⟩ |
      ⟨_, b, r, q₁, q', _, _, _, hr⟩
    · exact absurd ⟨q', hp'⟩ (hnone p' ⟨r, he.symm⟩)
    · obtain ⟨w, q₂, hw⟩ := live _ q' hs
      exact absurd ⟨t ++ w, q₂, by simpa using hs.accepts.mpr hw⟩ hp
    · rw [hr]

include live in
/-- **A no comes as soon as it can**: what was read is the shortest prefix that
begins no word. -/
theorem run_no_shortest (h : (run consume q s).1 = .no) :
    ∃ c, s = c ++ (run consume q s).2.1 ∧ ¬ Viable consume q c ∧
      ∀ p, p <+: c → p ≠ c → Viable consume q p := by
  rcases run_cases consume q s with ⟨p, r, q', _, _, hr⟩ | ⟨q', _, hr⟩ |
    ⟨p, b, r, q₁, q', rfl, hp, hb, hr⟩
  · rw [hr] at h
    simp at h
  · rw [hr] at h
    simp at h
  · refine ⟨p ++ [b], by rw [hr]; simp, not_viable_of_no hp hb, fun p' hp' hne => ?_⟩
    rcases List.prefix_concat_iff.mp hp' with rfl | ⟨t, rfl⟩
    · exact absurd rfl hne
    · obtain ⟨u, q₂, hu⟩ := Feeds.viable live hp
      exact ⟨t ++ u, q₂, by simpa using hu⟩

end live

/-! ### What a run notes -/

section trace

variable {β : Type*} {note : σ → α → Option β} {u : β}

/-- What is noted of the symbols that a run uses, the last one included. -/
def trace (consume : σ → α → Tribool × σ) (note : σ → α → Option β) : σ → List α → List β
  | _, [] => []
  | q, b :: bs =>
    (note q b).toList ++
      match consume q b with
      | (.indeterminate, q') => trace consume note q' bs
      | _ => []

theorem trace_cons_indeterminate (h : consume q b = (.indeterminate, q₁)) :
    trace consume note q (b :: s) = (note q b).toList ++ trace consume note q₁ s := by
  rw [trace, h]

theorem trace_cons_answer {v : Tribool} (h : consume q b = (v, q₁)) (hv : v ≠ .indeterminate) :
    trace consume note q (b :: s) = (note q b).toList := by
  rw [trace, h]
  cases v with
  | yes => exact List.append_nil _
  | no => exact List.append_nil _
  | indeterminate => exact absurd rfl hv

theorem trace_append (s t : List α) : trace consume note q (s ++ t) = trace consume note q s ++
    match run consume q s with
    | (.indeterminate, _, q') => trace consume note q' t
    | _ => [] := by
  induction s generalizing q with
  | nil => rfl
  | cons b s ih =>
    obtain ⟨v, q₁, hb⟩ : ∃ v q₁, consume q b = (v, q₁) := ⟨_, _, rfl⟩
    rw [List.cons_append]
    by_cases hv : v = .indeterminate
    · subst hv
      rw [trace_cons_indeterminate hb, trace_cons_indeterminate hb, run_cons_indeterminate hb, ih,
        List.append_assoc]
    · rw [trace_cons_answer hb hv, trace_cons_answer hb hv]
      cases v with
      | yes => rw [run_cons_yes hb, List.append_nil]
      | no => rw [run_cons_no hb, List.append_nil]
      | indeterminate => exact absurd rfl hv

/-- What is noted of a symbol that the run comes to undecided. -/
theorem mem_trace : u ∈ trace consume note q s ↔
    ∃ p b q', p ++ [b] <+: s ∧ Feeds consume q p q' ∧ note q' b = some u := by
  constructor
  · intro hu
    induction s generalizing q with
    | nil => simp [trace] at hu
    | cons b s ih =>
      obtain ⟨v, q₁, hb⟩ : ∃ v q₁, consume q b = (v, q₁) := ⟨_, _, rfl⟩
      have first : u ∈ (note q b).toList → ∃ p c q', p ++ [c] <+: b :: s ∧
          Feeds consume q p q' ∧ note q' c = some u := fun h =>
        ⟨[], b, q, ⟨s, rfl⟩, .nil q, Option.mem_toList.mp h⟩
      by_cases hv : v = .indeterminate
      · subst hv
        rw [trace_cons_indeterminate hb, List.mem_append] at hu
        rcases hu with hu | hu
        · exact first hu
        · obtain ⟨p, c, q', ⟨r, rfl⟩, hp, hc⟩ := ih hu
          exact ⟨b :: p, c, q', ⟨r, rfl⟩, .cons hb hp, hc⟩
      · rw [trace_cons_answer hb hv] at hu
        exact first hu
  · intro hr
    obtain ⟨p, b, q', ⟨r, rfl⟩, hp, hb⟩ := hr
    induction hp with
    | nil q =>
      rw [trace.eq_def]
      exact List.mem_append_left _ (Option.mem_toList.mpr hb)
    | cons h _ ih =>
      rw [List.cons_append, List.cons_append, trace_cons_indeterminate h]
      exact List.mem_append_right _ (ih hb)

end trace

/-! ### Reading words off a state -/

/-- A property of a state and the input before it that goes on with each
symbol. -/
structure Follows (consume : σ → α → Tribool × σ) (R : σ → List α → Prop) : Prop where
  cons : ∀ {q q₁ b w}, consume q b = (.indeterminate, q₁) → (R q (b :: w) ↔ R q₁ w)
  no : ∀ {q q₁ b w}, consume q b = (.no, q₁) → ¬ R q (b :: w)

theorem follows_accepts : Follows consume (Accepts consume · · q') := ⟨accepts_cons, not_accepts_of_no⟩

section leads

variable {T : σ → Prop}

/-- The input leads, undecided, to a state with `T`. -/
def Leads (consume : σ → α → Tribool × σ) (T : σ → Prop) (q : σ) (w : List α) : Prop :=
  ∃ q', Feeds consume q w q' ∧ T q'

theorem leads_nil : Leads consume T q [] ↔ T q := by
  constructor
  · intro hr
    obtain ⟨q', hf, hT⟩ := hr
    cases hf with
    | nil => exact hT
  · exact fun h => ⟨q, .nil q, h⟩

theorem follows_leads : Follows consume (Leads consume T) where
  cons h := by
    constructor
    · intro hr
      obtain ⟨q', hf, hT⟩ := hr
      cases hf with
      | cons hb hf =>
        rw [h] at hb
        rw [(Prod.mk.inj hb).2]
        exact ⟨q', hf, hT⟩
    · intro hr
      obtain ⟨q', hf, hT⟩ := hr
      exact ⟨q', .cons h hf, hT⟩
  no h hr := by
    obtain ⟨q', hf, _⟩ := hr
    cases hf with
    | cons hb _ =>
      rw [h] at hb
      simp at hb

theorem not_leads {L : σ → Prop} (hL : ∀ q b q', L q → consume q b = (.indeterminate, q') → L q')
    (hT : ∀ q, L q → ¬ T q) (h : L q) : ¬ Leads consume T q w := by
  intro hr
  obtain ⟨q', hf, hq'⟩ := hr
  induction hf with
  | nil q => exact hT q h hq'
  | cons hb _ ih => exact ih (hL _ _ _ h hb) hq'

end leads

/-- A state that gathers symbols until `e`.  `gather m` is the state when `m`
has been gathered, `leave m` the state that `e` then leads to. -/
structure Gathers (consume : σ → α → Tribool × σ) (P : α → Prop) (e : α)
    (gather leave : List α → σ) : Prop where
  stop : ¬ P e
  more : ∀ m b, P b → consume (gather m) b = (.indeterminate, gather (m ++ [b]))
  leaves : ∀ m, consume (gather m) e = (.indeterminate, leave m)
  refuses : ∀ m b, ¬ P b → b ≠ e → (consume (gather m) b).1 = .no

section follows

variable {R : σ → List α → Prop} (hR : Follows consume R)

include hR

theorem Follows.step {P : α → Prop} {f : α → σ}
    (hstep : ∀ b, P b → consume q b = (.indeterminate, f b))
    (helse : ∀ b, ¬ P b → (consume q b).1 = .no) :
    R q w ↔ (w = [] ∧ R q []) ∨ ∃ b rest, w = b :: rest ∧ P b ∧ R (f b) rest := by
  constructor
  · intro h
    cases w with
    | nil => exact .inl ⟨rfl, h⟩
    | cons b rest =>
      by_cases hb : P b
      · exact .inr ⟨b, rest, rfl, hb, (hR.cons (hstep b hb)).mp h⟩
      · exact absurd h (hR.no (Prod.ext (helse b hb) rfl))
  · rintro (⟨rfl, h⟩ | ⟨b, rest, rfl, hb, h⟩)
    · exact h
    · exact (hR.cons (hstep b hb)).mpr h

theorem Follows.symbol {e : α} (hnil : ¬ R q []) (hstep : consume q e = (.indeterminate, q₁))
    (helse : ∀ b, b ≠ e → (consume q b).1 = .no) :
    R q w ↔ ∃ rest, w = e :: rest ∧ R q₁ rest := by
  rw [hR.step (P := (· = e)) (f := fun _ => q₁) (fun b hb => hb ▸ hstep) helse,
    or_iff_right fun h => hnil h.2]
  constructor
  · intro hr
    obtain ⟨b, rest, hw, rfl, h⟩ := hr
    exact ⟨rest, hw, h⟩
  · intro hr
    obtain ⟨rest, hw, h⟩ := hr
    exact ⟨e, rest, hw, rfl, h⟩

theorem Follows.skip {P : α → Prop} (hstay : ∀ b, P b → consume q b = (.indeterminate, q)) :
    R q w ↔ ∃ l rest, w = l ++ rest ∧ (∀ b ∈ l, P b) ∧ (∀ b ∈ rest.head?, ¬ P b) ∧ R q rest := by
  constructor
  · intro h
    induction w with
    | nil => exact ⟨[], [], rfl, by simp, by simp, h⟩
    | cons b w ih =>
      by_cases hb : P b
      · obtain ⟨l, rest, rfl, hl, hrest⟩ := ih ((hR.cons (hstay b hb)).mp h)
        exact ⟨b :: l, rest, rfl, by simpa [hb] using hl, hrest⟩
      · exact ⟨[], b :: w, rfl, by simp, by simpa using hb, h⟩
  · rintro ⟨l, rest, rfl, hl, -, h⟩
    induction l with
    | nil => exact h
    | cons b l ih =>
      refine (hR.cons (hstay b (hl b List.mem_cons_self))).mpr (ih fun c hc => ?_)
      exact hl c (List.mem_cons_of_mem b hc)

/-- Where symbols are gathered, the input ends among them or leaves. -/
theorem Follows.loop {P : α → Prop} {e : α} {gather leave : List α → σ}
    (hg : Gathers consume P e gather leave) (m : List α) :
    R (gather m) w ↔ ((∀ b ∈ w, P b) ∧ R (gather (m ++ w)) []) ∨
      ∃ l rest, w = l ++ e :: rest ∧ (∀ b ∈ l, P b) ∧ R (leave (m ++ l)) rest := by
  constructor
  · intro h
    induction w generalizing m with
    | nil => exact .inl ⟨by simp, by simpa using h⟩
    | cons b w ih =>
      by_cases hb : P b
      · rcases ih (m ++ [b]) ((hR.cons (hg.more m b hb)).mp h) with
          ⟨hw, hend⟩ | ⟨l, rest, rfl, hl, hrest⟩
        · exact .inl ⟨by simpa [hb] using hw, by simpa using hend⟩
        · exact .inr ⟨b :: l, rest, rfl, by simpa [hb] using hl, by simpa using hrest⟩
      · by_cases hbe : b = e
        · subst hbe
          refine .inr ⟨[], w, rfl, by simp, ?_⟩
          rw [List.append_nil]
          exact (hR.cons (hg.leaves m)).mp h
        · exact absurd h (hR.no (Prod.ext (hg.refuses m b hb hbe) rfl))
  · have key : ∀ (l rest : List α) (m : List α), (∀ b ∈ l, P b) →
        (R (gather m) (l ++ rest) ↔ R (gather (m ++ l)) rest) := by
      intro l rest
      induction l with
      | nil => exact fun m _ => by rw [List.nil_append, List.append_nil]
      | cons b l ih =>
        intro m hl
        rw [List.cons_append, hR.cons (hg.more m b (hl b List.mem_cons_self)),
          ih (m ++ [b]) fun c hc => hl c (List.mem_cons_of_mem b hc), List.append_assoc,
          List.singleton_append]
    rintro (⟨hw, hend⟩ | ⟨l, rest, rfl, hl, hrest⟩)
    · rw [← List.append_nil w, key w [] m hw]
      exact hend
    · rw [key l (e :: rest) m hl]
      exact (hR.cons (hg.leaves (m ++ l))).mpr hrest

/-- From the state where nothing has been gathered, when the input cannot end
among them. -/
theorem Follows.gather {P : α → Prop} {e : α} {gather leave : List α → σ} (hq : q = gather [])
    (hnil : ∀ m, ¬ R (gather m) []) (hg : Gathers consume P e gather leave) :
    R q w ↔ ∃ l rest, w = l ++ e :: rest ∧ (∀ b ∈ l, P b) ∧ R (leave l) rest := by
  rw [hq, hR.loop hg [], or_iff_right fun h => hnil _ h.2]
  rfl

theorem Follows.loop_some {P : α → Prop} {e : α} {gather leave : List α → σ}
    (hg : Gathers consume P e gather leave)
    (hfirst : ∀ b, P b → consume q b = (.indeterminate, gather [b]))
    (hno : ∀ b, ¬ P b → (consume q b).1 = .no) :
    R q w ↔ (w = [] ∧ R q []) ∨ (w ≠ [] ∧ (∀ b ∈ w, P b) ∧ R (gather w) []) ∨
      ∃ l rest, w = l ++ e :: rest ∧ l ≠ [] ∧ (∀ b ∈ l, P b) ∧ R (leave l) rest := by
  rw [hR.step hfirst hno]
  refine or_congr_right ?_
  constructor
  · intro hr
    obtain ⟨b, w, rfl, hb, h⟩ := hr
    rcases (hR.loop hg [b]).mp h with ⟨hw, hend⟩ | ⟨l, rest, rfl, hl, hrest⟩
    · exact .inl ⟨by simp, by simpa [hb] using hw, hend⟩
    · exact .inr ⟨b :: l, rest, rfl, by simp, by simpa [hb] using hl, hrest⟩
  · rintro (⟨hne, hw, hend⟩ | ⟨l, rest, rfl, hne, hl, hrest⟩)
    · obtain ⟨b, w, rfl⟩ := List.exists_cons_of_ne_nil hne
      refine ⟨b, w, rfl, hw b List.mem_cons_self, (hR.loop hg [b]).mpr (.inl ⟨?_, hend⟩)⟩
      exact fun c hc => hw c (List.mem_cons_of_mem b hc)
    · obtain ⟨b, l, rfl⟩ := List.exists_cons_of_ne_nil hne
      refine ⟨b, l ++ e :: rest, rfl, hl b List.mem_cons_self, ?_⟩
      refine (hR.loop hg [b]).mpr (.inr ⟨l, rest, rfl, ?_, hrest⟩)
      exact fun c hc => hl c (List.mem_cons_of_mem b hc)

theorem Follows.gather_some {P : α → Prop} {e : α} {gather leave : List α → σ} (hnil : ¬ R q [])
    (hnil' : ∀ m, ¬ R (gather m) []) (hg : Gathers consume P e gather leave)
    (hfirst : ∀ b, P b → consume q b = (.indeterminate, gather [b]))
    (hno : ∀ b, ¬ P b → (consume q b).1 = .no) :
    R q w ↔ ∃ l rest, w = l ++ e :: rest ∧ l ≠ [] ∧ (∀ b ∈ l, P b) ∧ R (leave l) rest := by
  rw [hR.loop_some hg hfirst hno, or_iff_right fun h => hnil h.2,
    or_iff_right fun h => hnil' _ h.2.2]

end follows

end Decider

end SecMon
