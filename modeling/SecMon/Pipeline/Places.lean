import SecMon.Pipeline.Liveness

/-!
# Where the frames are

The elements run on a pool of threads and hand one another a `shared_ptr`; a
`Frame` has no lock.  `frames_in_flight` says that a frame is held by one element
at a time, and of all of them at once: read from the last element back to the
source, what the elements hold are consecutive frames, from the first that has
not left the pipeline to the last that was made.  What an element keeps of a
frame that it has passed on, as the movement detector does of the last, is not
among this.
-/

namespace SecMon

namespace Pipeline

open Machine

variable {T W : Type} {ws : List W} {stats : Bool} {s : State T W} {k n : Nat}

namespace State

/-- What element `k` holds, oldest first: what it has to pass on, what it works
on, and what waits in its strand. -/
def heldAt (s : State T W) (k : Nat) : List (Item T W) :=
  ((s.element k).map fun w => w.toPass ++ w.inWork ++ w.queued).getD []

/-- What the first `n` elements hold, from the last of them back to the source. -/
def inFlight (s : State T W) : Nat → List (Item T W)
  | 0 => []
  | n + 1 => s.heldAt n ++ inFlight s n

theorem mem_inFlight {it : Item T W} (hk : k < n) (hit : it ∈ s.heldAt k) : it ∈ s.inFlight n := by
  induction n with
  | zero => exact absurd hk (Nat.not_lt_zero k)
  | succ n ih =>
    rcases Nat.lt_succ_iff_lt_or_eq.mp hk with hlt | rfl
    · exact List.mem_append_right _ (ih hlt)
    · exact List.mem_append_left _ hit

/-- What element `k` has passed on. -/
def leftAt (s : State T W) (k : Nat) : List (Item T W) := (s.completedAt k).take (s.passedAt k)

end State

theorem Running.completedAt_eq (h : Running ws stats s) {w : WorkWrapper T W}
    (hel : s.element k = some w) : s.completedAt k = s.leftAt k ++ w.toPass := by
  obtain ⟨l, hl⟩ := h.recent k
  rw [State.toPassAt_eq hel] at hl
  have hleft : s.leftAt k = l := by
    rw [State.leftAt, State.passedAt, State.toPassAt_eq hel, hl, List.length_append,
      Nat.add_sub_cancel, List.take_left]
  rw [hleft, hl]

/-- What an element has started is what it has passed on and what it is at. -/
theorem Running.startedAt_ids (h : Running ws stats s) {w : WorkWrapper T W}
    (hel : s.element k = some w) : (s.startedAt k).map Item.id =
      (s.leftAt k).map Item.id ++ (w.toPass ++ w.inWork).map Item.id := by
  obtain ⟨done, hst, hdone⟩ := h.flow.work k w hel
  rw [hst, List.map_append, ← id_of_worked hdone, h.completedAt_eq hel, List.map_append,
    List.map_append, List.append_assoc]

/-- **Nothing is between two elements**: what one has passed on, the next has
passed on or holds. -/
theorem Running.leftAt_ids (h : Running ws stats s) (hk : k + 1 < ws.length) :
    (s.leftAt k).map Item.id =
      (s.leftAt (k + 1)).map Item.id ++ (s.heldAt (k + 1)).map Item.id := by
  obtain ⟨w, hel⟩ : ∃ w, s.element k = some w :=
    ⟨_, List.getElem?_eq_getElem (h.wired.length ▸ Nat.lt_of_succ_lt hk)⟩
  obtain ⟨w', hel'⟩ : ∃ w', s.element (k + 1) = some w' :=
    ⟨_, List.getElem?_eq_getElem (h.wired.length ▸ hk)⟩
  have hpass := h.flow.pass k w w' hel hel'
  rw [h.completedAt_eq hel] at hpass
  rw [List.append_cancel_right hpass, List.map_append, h.startedAt_ids hel', State.heldAt, hel',
    Option.map_some, Option.getD_some, @List.map_append _ _ _ (w'.toPass ++ w'.inWork),
    List.append_assoc]

/-- The source holds what it has started and not passed on; nothing waits for it. -/
theorem Running.source_ids (h : Running ws stats s) (hn : 0 < ws.length) :
    (s.startedAt 0).map Item.id = (s.leftAt 0).map Item.id ++ (s.heldAt 0).map Item.id := by
  obtain ⟨w, hel⟩ : ∃ w, s.element 0 = some w :=
    ⟨_, List.getElem?_eq_getElem (h.wired.length ▸ hn)⟩
  have hqueued : w.queued = [] := by
    refine List.filterMap_eq_nil_iff.mpr fun x hx => ?_
    have hx := (h.wired.placed 0 w hel).strand x hx
    rw [decide_eq_true rfl] at hx
    exact Option.isNone_iff_eq_none.mp hx
  rw [h.startedAt_ids hel, State.heldAt, hel, Option.map_some, Option.getD_some, hqueued,
    List.append_nil]

/-- What was made has left element `n`, or is held by it or by one before it. -/
theorem Running.made_eq (h : Running ws stats s) (hn : n < ws.length) :
    List.range (s.startedAt 0).length =
      (s.leftAt n).map Item.id ++ (s.inFlight (n + 1)).map Item.id := by
  induction n with
  | zero =>
    have hmade : (s.startedAt 0).map Item.id = List.range (s.startedAt 0).length := by
      conv_lhs => rw [h.flow.source]
      rw [List.map_map]
      exact List.map_id _
    rw [← hmade, h.source_ids hn, State.inFlight, State.inFlight, List.append_nil]
  | succ n ih =>
    have hmore : s.inFlight (n + 1 + 1) = s.heldAt (n + 1) ++ s.inFlight (n + 1) := rfl
    rw [ih (Nat.lt_of_succ_lt hn), h.leftAt_ids hn, hmore, List.map_append, List.append_assoc]

theorem Running.inFlight_eq (h : Running ws stats s) (hn : n < ws.length) :
    s.passedAt n ≤ (s.startedAt 0).length ∧ (s.inFlight (n + 1)).map Item.id =
      List.range' (s.passedAt n) ((s.startedAt 0).length - s.passedAt n) := by
  have hmade := h.made_eq hn
  have hlength : (s.leftAt n).length = s.passedAt n := by
    rw [State.leftAt, List.length_take, State.passedAt]
    exact Nat.min_eq_left (Nat.sub_le _ _)
  have hle : s.passedAt n ≤ (s.startedAt 0).length := by
    have hcount := congrArg List.length hmade
    rw [List.length_range, List.length_append, List.length_map, hlength] at hcount
    omega
  refine ⟨hle, ?_⟩
  have hdrop := congrArg (List.drop (s.passedAt n)) hmade
  rw [List.drop_left' (by rw [List.length_map, hlength]), List.range_eq_range', List.drop_range',
    Nat.zero_add, Nat.mul_one] at hdrop
  exact hdrop.symm

/-- **The frames in flight.**  In every state that a started pipeline reaches,
the elements hold consecutive frames, from the last element back to the
source, each once; so no two elements ever hold the same frame, nor does one
hold it twice. -/
theorem frames_in_flight {si : Nat} {interval : Int} {source : W × Option String}
    {rest : List (W × Option String)} {now : Nat} {t : TimePoint} {p : Pipeline T W}
    (h : launch si interval source rest now t = .ok p) {as : List (Action T)}
    (hrun : exec step (State.init now p) as = some s) :
    (s.inFlight (rest.length + 1)).map Item.id =
        List.range' (s.passedAt rest.length) ((s.startedAt 0).length - s.passedAt rest.length) ∧
      (∀ k ≤ rest.length, ((s.heldAt k).map Item.id).Nodup) ∧
      ∀ j k, j < k → k ≤ rest.length → ∀ it ∈ s.heldAt j, ∀ it' ∈ s.heldAt k, it'.id < it.id := by
  have hr : Running (works source rest) (0 < si) s :=
    (steps_iff_exec.mpr hrun).invariant (fun _ _ _ hs _ hstep => hs.step hstep)
      (launched_of_launch h).running
  have hlen : (works source rest).length = rest.length + 1 := by
    rw [works, List.length_cons, List.length_map]
  obtain ⟨-, heq⟩ := hr.inFlight_eq (n := rest.length) (by omega)
  have hsorted : ∀ n ≤ rest.length, ((s.inFlight (n + 1)).map Item.id).Pairwise (· < ·) := by
    intro n hn
    rw [(hr.inFlight_eq (n := n) (by omega)).2]
    exact List.pairwise_lt_range'
  refine ⟨heq, fun k hk => ?_, fun j k hjk hk it hit it' hit' => ?_⟩
  · have hk := hsorted k hk
    rw [State.inFlight, List.map_append] at hk
    exact (List.pairwise_append.mp hk).1.imp Nat.ne_of_lt
  · have hk := hsorted k hk
    rw [State.inFlight, List.map_append] at hk
    exact (List.pairwise_append.mp hk).2.2 _ (List.mem_map_of_mem hit') _
      (List.mem_map_of_mem (State.mem_inFlight hjk hit))

/-- The second frame is in work at the source, and the first behind it. -/
theorem frames_in_flight_two :
    ∃ s, exec step (State.init 0 (twoStage 0))
        [.elapse 40, .expire 0, .run 0 1, .finish 0 (some 7) 2, .next 0, .restart 0, .rewait 0,
          .elapse 40, .expire 0, .run 0 3, .run 1 4] = some s ∧
      (s.inFlight 2).map Item.id =
          List.range' (s.passedAt 1) ((s.startedAt 0).length - s.passedAt 1) ∧
        (∀ k ≤ 1, ((s.heldAt k).map Item.id).Nodup) ∧
        ∀ j k, j < k → k ≤ 1 → ∀ it ∈ s.heldAt j, ∀ it' ∈ s.heldAt k, it'.id < it.id := by
  obtain ⟨s, hs⟩ := Option.isSome_iff_exists.mp (show (exec step (State.init 0 (twoStage 0))
    [.elapse 40, .expire 0, .run 0 1, .finish 0 (some 7) 2, .next 0, .restart 0, .rewait 0,
      .elapse 40, .expire 0, .run 0 3, .run 1 4]).isSome = true by decide)
  exact ⟨s, hs, frames_in_flight (launch_twoStage 0) hs⟩

end Pipeline

end SecMon
