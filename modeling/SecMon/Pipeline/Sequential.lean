import SecMon.Core.Mealy
import SecMon.Pipeline.Order

/-!
# Any schedule, the same frames

Each element of a pipeline is an object with a work function: what it makes of
an item depends on the item and on what the object kept of the items before,
that is, each is a `Mealy` machine.  The elements run side by side, each on its
own strand, in whatever order the pool takes them.  `any_schedule_as_cascade`:
what they make is what the machines make one after the other, so it does not
depend on the schedule.
-/

namespace SecMon

namespace Pipeline

open Machine

variable {T W : Type} {ws : List W} {stats : Bool} {s s' : State T W} {k : Nat} {a : Action T}
  {ms : List (Mealy (Option T))}

/-- The data of the items that element `k` has started work on. -/
def State.inputsAt (s : State T W) (k : Nat) : List (Option T) := (s.startedAt k).map Item.data

/-- The data of the items whose work at element `k` is complete. -/
def State.outputsAt (s : State T W) (k : Nat) : List (Option T) := (s.completedAt k).map Item.data

/-- Element `k` works as the machine `ms[k]` does: what it leaves in an item is
the machine's answer to the last of its inputs. -/
def WorksAs (ms : List (Mealy (Option T))) (s : State T W) : Action T → Prop
  | .finish k data _ => ∀ m ∈ ms[k]?, (m.outputs (s.inputsAt k)).getLast? = some data
  | _ => True

instance [DecidableEq T] : ∀ (s : State T W) (a : Action T), Decidable (WorksAs ms s a)
  | s, .finish k data _ =>
    inferInstanceAs (Decidable (∀ m ∈ ms[k]?, (m.outputs (s.inputsAt k)).getLast? = some data))
  | _, .elapse _ | _, .expire _ | _, .run _ _ | _, .next _ | _, .restart _ | _, .rewait _
  | _, .pauseCall | _, .pauseWait | _, .pauseReturn | _, .changeTimer _ | _, .collect _ _ =>
    .isTrue trivial

/-- What element `k` has completed is what its machine answers to what it has
started, but for the item in work. -/
def Answers (ms : List (Mealy (Option T))) (s : State T W) : Prop :=
  ∀ k m, ms[k]? = some m → s.outputsAt k = m.outputs ((s.inputsAt k).take (s.outputsAt k).length)

/-! ### One step -/

/-- What a step adds to the history: a start, a completion or nothing. -/
theorem log_step (hs : step s a = some s') :
    s'.log = s.log ∨ (∃ k it, s'.log = s.log ++ [.started k it]) ∨
      ∃ k it t₀ t, a = .finish k it.data t ∧ s'.log = s.log ++ [.completed k it t₀ t] := by
  cases a with
  | run k t =>
    obtain ⟨w, x, rest, _, _, _, ⟨_, rfl⟩ | ⟨it, _, rfl⟩⟩ := run_cases hs
    · exact .inl rfl
    · exact .inr (.inl ⟨k, it, rfl⟩)
  | finish k data t =>
    obtain ⟨w, it, t₀, _, _, rfl⟩ := step_finish.mp hs
    exact .inr (.inr ⟨k, it.worked w.work data, t₀, t, rfl, rfl⟩)
  | next k =>
    obtain ⟨w, it, _, _, rfl⟩ := step_next.mp hs
    cases w.next <;> exact .inl rfl
  | elapse d =>
    obtain rfl := Option.some.inj hs
    exact .inl rfl
  | expire k =>
    obtain ⟨w, _, _, rfl⟩ := step_expire.mp hs
    exact .inl rfl
  | restart k =>
    obtain ⟨w, _, _, rfl⟩ := step_restart.mp hs
    exact .inl rfl
  | rewait k =>
    obtain ⟨w, _, _, rfl⟩ := step_rewait.mp hs
    exact .inl rfl
  | pauseCall =>
    obtain ⟨w, _, _, _, ⟨_, rfl⟩ | ⟨_, rfl⟩⟩ := step_pauseCall.mp hs
    · exact .inl rfl
    · exact .inl rfl
  | pauseWait =>
    obtain ⟨_, rfl⟩ := step_pauseWait.mp hs
    exact .inl rfl
  | pauseReturn =>
    obtain ⟨_, rfl⟩ := step_pauseReturn.mp hs
    exact .inl rfl
  | changeTimer ms =>
    obtain ⟨_, p, _, rfl⟩ := step_changeTimer.mp hs
    exact .inl rfl
  | collect start stop =>
    obtain ⟨_, hs⟩ := Option.ite_none_right_eq_some.mp hs
    obtain rfl := Option.some.inj hs
    exact .inl rfl

theorem inputsAt_congr (h : s'.log = s.log) (k : Nat) : s'.inputsAt k = s.inputsAt k := by
  rw [State.inputsAt, State.startedAt_congr h, State.inputsAt]

theorem outputsAt_congr (h : s'.log = s.log) (k : Nat) : s'.outputsAt k = s.outputsAt k := by
  rw [State.outputsAt, State.completedAt_congr h, State.outputsAt]

section

variable {j : Nat} {it : Item T W} {t₀ t : TimePoint}

theorem inputsAt_of_started (hlog : s'.log = s.log ++ [.started j it]) (k : Nat) :
    s'.inputsAt k = s.inputsAt k ++ if j = k then [it.data] else [] := by
  rw [State.inputsAt, State.startedAt_congr (s := s.record (.started j it)) hlog,
    State.startedAt_record_started, List.map_append, State.inputsAt]
  split_ifs <;> rfl

theorem outputsAt_of_started (hlog : s'.log = s.log ++ [.started j it]) (k : Nat) :
    s'.outputsAt k = s.outputsAt k := by
  rw [State.outputsAt, State.completedAt_congr (s := s.record (.started j it)) hlog,
    State.completedAt_record_started, State.outputsAt]

theorem inputsAt_of_completed (hlog : s'.log = s.log ++ [.completed j it t₀ t]) (k : Nat) :
    s'.inputsAt k = s.inputsAt k := by
  rw [State.inputsAt, State.startedAt_congr (s := s.record (.completed j it t₀ t)) hlog,
    State.startedAt_record_completed, State.inputsAt]

theorem outputsAt_of_completed (hlog : s'.log = s.log ++ [.completed j it t₀ t]) (k : Nat) :
    s'.outputsAt k = s.outputsAt k ++ if j = k then [it.data] else [] := by
  rw [State.outputsAt, State.completedAt_congr (s := s.record (.completed j it t₀ t)) hlog,
    State.completedAt_record_completed, List.map_append, State.outputsAt]
  split_ifs <;> rfl

theorem inputsAt_outputsAt_step (hs : step s a = some s') (k : Nat) :
    s.inputsAt k <+: s'.inputsAt k ∧ (s'.outputsAt k = s.outputsAt k ∨
      s'.inputsAt k = s.inputsAt k ∧ ∃ data t, a = .finish k data t) := by
  rcases log_step hs with hlog | ⟨j, it, hlog⟩ | ⟨j, it, t₀, t, rfl, hlog⟩
  · rw [inputsAt_congr hlog, outputsAt_congr hlog]
    exact ⟨List.prefix_refl _, .inl rfl⟩
  · rw [inputsAt_of_started hlog, outputsAt_of_started hlog]
    exact ⟨List.prefix_append _ _, .inl rfl⟩
  · rw [inputsAt_of_completed hlog, outputsAt_of_completed hlog]
    refine ⟨List.prefix_refl _, ?_⟩
    by_cases hj : j = k
    · subst hj
      exact .inr ⟨rfl, it.data, t, rfl⟩
    · rw [if_neg hj, List.append_nil]
      exact .inl rfl

end

theorem Flow.length_inputsAt (h : Flow s) (hw : Wired ws stats s) (hk : k < ws.length) :
    (s.outputsAt k).length ≤ (s.inputsAt k).length ∧
      (s.inputsAt k).length ≤ (s.outputsAt k).length + 1 := by
  obtain ⟨w, hel⟩ : ∃ w, s.element k = some w :=
    ⟨_, List.getElem?_eq_getElem (hw.length ▸ hk)⟩
  obtain ⟨done, hst, hdone⟩ := h.work k w hel
  have hle := inWork_length_le w
  rw [State.inputsAt, State.outputsAt, List.length_map, List.length_map, hst, List.length_append,
    hdone.length_eq]
  exact ⟨Nat.le_add_right _ _, Nat.add_le_add_left hle _⟩

/-- **What an element answers stays its machine's answer.** -/
theorem Answers.step (h : Answers ms s) (hf : Flow s) (hw : Wired ws stats s)
    (hlen : ms.length = ws.length) (hok : WorksAs ms s a) (hs : Pipeline.step s a = some s') :
    Answers ms s' := by
  have hf' : Flow s' := hf.step hw a hs
  have hw' : Wired ws stats s' := hw.step a hs
  intro k m hm
  have hk : k < ws.length := hlen ▸ (List.getElem?_eq_some_iff.mp hm).1
  have hkm := h k m hm
  rcases log_step hs with hlog | ⟨j, it, hlog⟩ | ⟨j, it, t₀, t, rfl, hlog⟩
  · rw [inputsAt_congr hlog, outputsAt_congr hlog]
    exact hkm
  · -- an input more, to be answered yet
    rw [outputsAt_of_started hlog, inputsAt_of_started hlog,
      List.take_append_of_le_length (hf.length_inputsAt hw hk).1]
    exact hkm
  · have hin := inputsAt_of_completed hlog k
    have hout := outputsAt_of_completed hlog k
    by_cases hj : j = k
    · -- the last input is answered
      subst hj
      rw [if_pos rfl] at hout
      have hle := (hf.length_inputsAt hw hk).2
      have hle' := (hf'.length_inputsAt hw' hk).1
      rw [hin, hout, List.length_append, List.length_singleton] at hle'
      have hall : (s.inputsAt j).length = (s.outputsAt j).length + 1 := Nat.le_antisymm hle hle'
      rw [hin, hout, List.length_append, List.length_singleton, List.take_of_length_le hle]
      have hlast := hok m (Option.mem_def.mpr hm)
      -- its answers are those before, and the last
      have hsplit : s.inputsAt j = (s.inputsAt j).take (s.outputsAt j).length ++
          (s.inputsAt j).drop (s.outputsAt j).length := (List.take_append_drop _ _).symm
      obtain ⟨x, hx⟩ : ∃ x, (s.inputsAt j).drop (s.outputsAt j).length = [x] := by
        refine List.length_eq_one_iff.mp ?_
        rw [List.length_drop, hall, Nat.add_sub_cancel_left]
      rw [hsplit, hx, Mealy.outputs_concat, List.getLast?_concat, Option.some.injEq] at hlast
      rw [hsplit, hx, Mealy.outputs_concat, hlast, ← hkm]
    · rw [if_neg hj, List.append_nil] at hout
      rw [hin, hout]
      exact hkm

/-! ### Whole runs -/

theorem Launched.answers {si : Nat} (h : Launched ws si s) : Answers ms s := by
  intro k m _
  have hout : s.outputsAt k = [] := by
    rw [State.outputsAt, State.completedAt, State.timedAt, h.log]
    rfl
  rw [hout]
  rfl

/-- The elements answer what the machines answer one after the other. -/
theorem Answers.cascade (h : Answers ms s) (hf : Flow s) (hw : Wired ws stats s)
    (hlen : ms.length = ws.length) (hk : k < ws.length) :
    s.outputsAt k <+:
      Mealy.cascade (ms.take (k + 1)) (List.replicate (s.startedAt 0).length none) := by
  have hin := hf.inOrder hw
  induction k with
  | zero =>
    obtain ⟨m, hm⟩ : ∃ m, ms[0]? = some m := ⟨_, List.getElem?_eq_getElem (hlen ▸ hk)⟩
    have hsource : s.inputsAt 0 = List.replicate (s.startedAt 0).length none := by
      rw [State.inputsAt, hf.source, List.map_map]
      simp [Function.comp_def]
    rw [h 0 m hm, List.take_add_one, hm, List.take_zero]
    show _ <+: m.outputs _
    rw [← hsource]
    exact Mealy.outputs_mono (List.take_prefix _ _)
  | succ k ih =>
    obtain ⟨m, hm⟩ : ∃ m, ms[k + 1]? = some m := ⟨_, List.getElem?_eq_getElem (hlen ▸ hk)⟩
    rw [h (k + 1) m hm, List.take_add_one (i := k + 1), hm]
    show _ <+: Mealy.cascade (ms.take (k + 1) ++ [m]) _
    rw [Mealy.cascade_concat]
    refine Mealy.outputs_mono ((List.take_prefix _ _).trans ?_)
    exact ((hin.fifo k hk).map Item.data).trans (ih (Nat.lt_of_succ_lt hk))

theorem Answers.inputs_cascade (h : Answers ms s) (hf : Flow s) (hw : Wired ws stats s)
    (hlen : ms.length = ws.length) (hk : k + 1 < ws.length) :
    s.inputsAt (k + 1) <+:
      Mealy.cascade (ms.take (k + 1)) (List.replicate (s.startedAt 0).length none) :=
  (((hf.inOrder hw).fifo k hk).map Item.data).trans
    (h.cascade hf hw hlen (Nat.lt_of_succ_lt hk))

theorem Launched.cascade {si : Nat} (h : Launched ws si s) (hlen : ms.length = ws.length)
    {as : List (Action T)} (hrun : Steps step (WorksAs ms) s as s') (hk : k < ms.length) :
    s'.outputsAt k <+:
      Mealy.cascade (ms.take (k + 1)) (List.replicate (s'.startedAt 0).length none) := by
  obtain ⟨⟨hw, hf⟩, ha⟩ := hrun.invariant
    (P := fun s => (Wired ws (0 < si) s ∧ Flow s) ∧ Answers ms s)
    (by
      rintro s a s' ⟨⟨hw, hf⟩, ha⟩ hok hs
      exact ⟨⟨hw.step a hs, hf.step hw a hs⟩, ha.step hf hw hlen hok hs⟩)
    ⟨⟨h.wired, h.flow⟩, h.answers⟩
  exact ha.cascade hf hw hlen (hlen ▸ hk)

/-- **Any schedule makes the same frames.**  In every run of a started pipeline
whose elements work as the machines `ms`, whatever its interleaving: the items
element `k` has completed are, in order, the first of those that the machines
up to `k` make one after the other of as many ticks. -/
theorem any_schedule_as_cascade {si : Nat} {interval : Int} {source : W × Option String}
    {rest : List (W × Option String)} {now : Nat} {t : TimePoint} {p : Pipeline T W}
    (h : launch si interval source rest now t = .ok p)
    (hlen : ms.length = (works source rest).length) {as : List (Action T)} {s : State T W}
    (hrun : Steps step (WorksAs ms) (State.init now p) as s) (hk : k < ms.length) :
    s.outputsAt k <+:
      Mealy.cascade (ms.take (k + 1)) (List.replicate (s.startedAt 0).length none) :=
  (launched_of_launch h).cascade hlen hrun hk

/-- A camera that numbers its frames, and a consumer that adds what it gets to
what it got before. -/
def counterAndSum : List (Mealy (Option Nat)) :=
  [{ State := Nat, start := 0, step := fun n _ => (n + 1, some n) },
    { State := Nat, start := 0, step := fun n x => (n + x.getD 0, some (n + x.getD 0)) }]

/-- The second frame is in the source while the first is behind it. -/
theorem any_schedule_as_cascade_two_frames :
    ∃ s, exec (permit step (WorksAs counterAndSum)) (State.init 0 (twoStage 0))
        [.elapse 40, .expire 0, .run 0 1, .finish 0 (some 0) 2, .next 0, .restart 0, .rewait 0,
          .elapse 40, .expire 0, .run 0 3, .run 1 4, .finish 0 (some 1) 5, .finish 1 (some 0) 6] =
        some s ∧ s.outputsAt 1 <+: Mealy.cascade counterAndSum [none, none] := by
  obtain ⟨s, hs, hlen⟩ := show ∃ s, exec (permit step (WorksAs counterAndSum))
      (State.init 0 (twoStage 0))
      [.elapse 40, .expire 0, .run 0 1, .finish 0 (some 0) 2, .next 0, .restart 0, .rewait 0,
        .elapse 40, .expire 0, .run 0 3, .run 1 4, .finish 0 (some 1) 5, .finish 1 (some 0) 6] =
        some s ∧ (s.startedAt 0).length = 2 from ⟨_, rfl, rfl⟩
  have hout := any_schedule_as_cascade (k := 1) (launch_twoStage 0) rfl
    (steps_iff_exec_permit.mpr hs) (by decide)
  rw [hlen] at hout
  exact ⟨s, hs, hout⟩

end Pipeline

end SecMon
