import Mathlib.Data.Finset.Basic
import Mathlib.Data.List.Nodup
import Mathlib.Logic.Function.Basic
import SecMon.Core.Machine

/-!
# The viewers of a stream

`connection_list_` of `GUI/Stream.cpp`, with any number of viewers that join
and leave.  `deregisterConnection` looks a viewer up without the lock and
erases, under the lock, at the position it found; in between others may have
been added or erased.  An iterator is a position; that a `push_back` may move the
list in memory, and leave the iterator behind, is not modelled.

A viewer joins at the end, so it moves nobody.  An erase moves everybody behind
it one place forward, and whoever has found such a viewer before
(`Found.moved`) will erase the wrong one.  `removes_right_iff` says that this
is exactly what must not happen.
-/

namespace SecMon.Http

open Machine

/-- What `find` gave a viewer that has not erased itself yet. -/
structure Found where
  pos : Nat
  /-- Since then there was an erase at an earlier position. -/
  moved : Bool := false
  deriving DecidableEq, Repr

/-- `connection_list_` and the calls on it. -/
structure Viewers (κ : Type) where
  connectionList : List κ := []
  /-- The viewers that stand between `find` and `erase`; each calls from its
  own strand. -/
  found : κ → Option Found := fun _ => none
  /-- The viewers that were registered. -/
  registered : Finset κ := ∅
  /-- The viewers whose deregistration has completed its erase. -/
  deregistered : Finset κ := ∅
  /-- Every erase so far was at a position of the list. -/
  inBounds : Bool := true

namespace Viewers

variable {κ : Type} [DecidableEq κ]

inductive Action (κ : Type)
  | register (conn : κ)
  | find (conn : κ)
  | erase (conn : κ)
  deriving DecidableEq, Repr

/-- `registerNewConnection`: a new viewer, at the end. -/
def register (conn : κ) (s : Viewers κ) : Viewers κ :=
  { s with
    connectionList := s.connectionList ++ [conn]
    registered := insert conn s.registered }

/-- `std::find`; at `end()` there is nothing more to do. -/
def find (conn : κ) (s : Viewers κ) : Viewers κ :=
  match s.connectionList.idxOf? conn with
  | none => s
  | some pos => { s with found := Function.update s.found conn (some { pos := pos }) }

/-- `connection_list_.erase(it)`. -/
def erase (conn : κ) (f : Found) (s : Viewers κ) : Viewers κ :=
  { s with
    connectionList := s.connectionList.eraseIdx f.pos
    found := Function.update
      (fun c => (s.found c).map fun g => { g with moved := g.moved || f.pos < g.pos }) conn none
    deregistered := insert conn s.deregistered
    inBounds := s.inBounds && f.pos < s.connectionList.length }

def step (s : Viewers κ) : Action κ → Option (Viewers κ)
  | .register conn => if conn ∈ s.registered then none else some (s.register conn)
  | .find conn =>
    if conn ∈ s.registered ∧ s.found conn = none then some (s.find conn) else none
  | .erase conn => (s.found conn).map fun f => s.erase conn f

/-- The list has whom it should have. -/
structure Right (s : Viewers κ) : Prop where
  listed : ∀ conn, conn ∈ s.connectionList ↔ conn ∈ s.registered ∧ conn ∉ s.deregistered
  once : s.connectionList.Nodup
  valid : s.inBounds = true

/-- The condition that between the find of a viewer and its erase there was no
erase at an earlier position. -/
def Unmoved (s : Viewers κ) : Action κ → Prop
  | .erase conn => ∀ f, s.found conn = some f → f.moved = false
  | _ => True

/-- Where a viewer stands whose position was found. -/
structure Tracked (s : Viewers κ) : Prop where
  known : s.deregistered ⊆ s.registered
  stands : ∀ conn f, s.found conn = some f →
    ∃ i, s.connectionList[i]? = some conn ∧ i ≤ f.pos ∧ (f.moved = false ↔ i = f.pos)

variable {s s' : Viewers κ}

theorem right_register (h : s.Right) (ht : s.Tracked) {conn : κ} (hnew : conn ∉ s.registered) :
    (s.register conn).Right := by
  have hnl : conn ∉ s.connectionList := fun hm => hnew ((h.listed conn).mp hm).1
  have hnd : conn ∉ s.deregistered := fun hm => hnew (ht.known hm)
  refine ⟨fun c => ?_, ?_, h.valid⟩
  · show c ∈ s.connectionList ++ [conn] ↔ c ∈ insert conn s.registered ∧ c ∉ s.deregistered
    rw [List.mem_append, List.mem_singleton, Finset.mem_insert, h.listed c]
    constructor
    · intro hc
      rcases hc with ⟨hr, hn⟩ | rfl
      · exact ⟨.inr hr, hn⟩
      · exact ⟨.inl rfl, hnd⟩
    · intro ⟨hc, hn⟩
      rcases hc with rfl | hr
      · exact .inr rfl
      · exact .inl ⟨hr, hn⟩
  · show (s.connectionList ++ [conn]).Nodup
    rw [List.nodup_append]
    refine ⟨h.once, List.nodup_singleton conn, fun a ha b hb hab => ?_⟩
    rw [List.mem_singleton] at hb
    exact hnl (hb ▸ hab ▸ ha)

theorem find_cases (conn : κ) (s : Viewers κ) : s.find conn = s ∨
    ∃ pos, s.connectionList[pos]? = some conn ∧
      s.find conn = { s with found := Function.update s.found conn (some { pos := pos }) } := by
  unfold find
  cases hf : s.connectionList.idxOf? conn with
  | none => exact .inl rfl
  | some pos =>
    obtain ⟨hlt, heq, _⟩ := List.idxOf?_eq_some_iff.mp hf
    refine .inr ⟨pos, ?_, rfl⟩
    rw [List.getElem?_eq_getElem hlt, heq]

/-- **An erase is right exactly if the viewer still stands where it was
found.** -/
theorem right_erase_iff (h : s.Right) (ht : s.Tracked) {conn : κ} {f : Found}
    (hf : s.found conn = some f) : (s.erase conn f).Right ↔ f.moved = false := by
  obtain ⟨i, hi, hle, hmoved⟩ := ht.stands conn f hf
  have hlt : i < s.connectionList.length := (List.getElem?_eq_some_iff.mp hi).1
  constructor
  · intro hr
    rw [hmoved]
    by_contra hne
    -- another one was erased, and `conn` is still there
    have hstill : conn ∈ s.connectionList.eraseIdx f.pos :=
      List.mem_eraseIdx_iff_getElem?.mpr ⟨i, hne, hi⟩
    exact ((hr.listed conn).mp hstill).2 (Finset.mem_insert_self conn s.deregistered)
  · intro hm
    have hpos := hmoved.mp hm
    subst hpos
    refine ⟨fun c => ?_, h.once.eraseIdx _, ?_⟩
    · show c ∈ s.connectionList.eraseIdx f.pos ↔ c ∈ s.registered ∧ c ∉ insert conn s.deregistered
      rw [List.mem_eraseIdx_iff_getElem?, Finset.mem_insert, not_or]
      constructor
      · intro ⟨j, hj, hc⟩
        obtain ⟨hreg, hn⟩ := (h.listed c).mp (List.mem_of_getElem? hc)
        refine ⟨hreg, fun hcc => hj ?_, hn⟩
        rw [hcc] at hc
        exact (List.getElem?_inj (List.getElem?_eq_some_iff.mp hc).1 h.once).mp (hc.trans hi.symm)
      · intro ⟨hreg, hcc, hn⟩
        obtain ⟨j, hj⟩ := List.mem_iff_getElem?.mp ((h.listed c).mpr ⟨hreg, hn⟩)
        refine ⟨j, fun hjp => hcc ?_, hj⟩
        rw [hjp, hi] at hj
        exact (Option.some.inj hj).symm
    · show (s.inBounds && decide (f.pos < s.connectionList.length)) = true
      rw [h.valid, decide_eq_true hlt]
      rfl

theorem tracked_register (h : s.Tracked) (conn : κ) : (s.register conn).Tracked := by
  refine ⟨h.known.trans (Finset.subset_insert conn s.registered), fun c f hf => ?_⟩
  obtain ⟨i, hi, hle, hm⟩ := h.stands c f hf
  refine ⟨i, ?_, hle, hm⟩
  show (s.connectionList ++ [conn])[i]? = some c
  rwa [List.getElem?_append_left (List.getElem?_eq_some_iff.mp hi).1]

theorem tracked_find (h : s.Tracked) (conn : κ) : (s.find conn).Tracked := by
  rcases find_cases conn s with heq | ⟨pos, hpos, heq⟩
  · rw [heq]
    exact h
  · rw [heq]
    refine ⟨h.known, fun c f hf => ?_⟩
    by_cases hc : c = conn
    · subst hc
      obtain rfl : ({ pos := pos } : Found) = f := by simpa using hf
      exact ⟨pos, hpos, Nat.le_refl pos, by simp⟩
    · exact h.stands c f (by simpa [Function.update_of_ne hc] using hf)

theorem tracked_erase (h : s.Tracked) (hr : s.Right) {conn : κ} {f : Found}
    (hf : s.found conn = some f) (hm : f.moved = false) : (s.erase conn f).Tracked := by
  obtain ⟨i, hi, _, hpos⟩ := h.stands conn f hf
  obtain rfl := hpos.mp hm
  have hreg := ((hr.listed conn).mp (List.mem_of_getElem? hi)).1
  refine ⟨Finset.insert_subset hreg h.known, fun c g hg => ?_⟩
  have hc : c ≠ conn := by
    intro hc
    subst hc
    simp [erase] at hg
  have hg' : ((s.found c).map fun g => { g with moved := g.moved || f.pos < g.pos }) = some g := by
    simpa [erase, Function.update_of_ne hc] using hg
  obtain ⟨g₀, hg₀, rfl⟩ := Option.map_eq_some_iff.mp hg'
  obtain ⟨j, hj, hle, hjm⟩ := h.stands c g₀ hg₀
  have hne : j ≠ f.pos := by
    intro he
    rw [he, hi] at hj
    exact hc (Option.some.inj hj).symm
  show ∃ i, (s.connectionList.eraseIdx f.pos)[i]? = some c ∧ i ≤ g₀.pos ∧
    ((g₀.moved || decide (f.pos < g₀.pos)) = false ↔ i = g₀.pos)
  rw [Bool.or_eq_false_iff, decide_eq_false_iff_not, hjm]
  rcases Nat.lt_or_gt_of_ne hne with hlt | hgt
  · refine ⟨j, ?_, hle, by omega⟩
    rwa [List.getElem?_eraseIdx_of_lt hlt]
  · refine ⟨j - 1, ?_, by omega, by omega⟩
    rw [List.getElem?_eraseIdx_of_ge (by omega), show j - 1 + 1 = j by omega, hj]

theorem right_step_iff (ht : s.Tracked) (h : s.Right) {a : Action κ} (hs : s.step a = some s') :
    s'.Right ↔ Unmoved s a := by
  cases a with
  | register conn =>
    obtain ⟨hnew, hs⟩ := Option.ite_none_left_eq_some.mp hs
    obtain rfl := Option.some.inj hs
    exact ⟨fun _ => trivial, fun _ => right_register h ht hnew⟩
  | find conn =>
    obtain ⟨_, hs⟩ := Option.ite_none_right_eq_some.mp hs
    obtain rfl := Option.some.inj hs
    refine ⟨fun _ => trivial, fun _ => ?_⟩
    rcases find_cases conn s with heq | ⟨pos, _, heq⟩
    · rw [heq]
      exact h
    · rw [heq]
      exact ⟨h.listed, h.once, h.valid⟩
  | erase conn =>
    obtain ⟨f, hf, rfl⟩ := Option.map_eq_some_iff.mp hs
    rw [right_erase_iff h ht hf]
    show f.moved = false ↔ ∀ g, s.found conn = some g → g.moved = false
    rw [hf]
    exact ⟨fun hm g hg => Option.some.inj hg ▸ hm, fun hall => hall f rfl⟩

theorem tracked_step (ht : s.Tracked) (h : s.Right) (h' : s'.Right) {a : Action κ}
    (hs : s.step a = some s') : s'.Tracked := by
  have hok := (right_step_iff ht h hs).mp h'
  cases a with
  | register conn =>
    obtain ⟨_, hs⟩ := Option.ite_none_left_eq_some.mp hs
    obtain rfl := Option.some.inj hs
    exact tracked_register ht conn
  | find conn =>
    obtain ⟨_, hs⟩ := Option.ite_none_right_eq_some.mp hs
    obtain rfl := Option.some.inj hs
    exact tracked_find ht conn
  | erase conn =>
    obtain ⟨f, hf, rfl⟩ := Option.map_eq_some_iff.mp hs
    exact tracked_erase ht h hf (hok f hf)

/-- **When deregistering removes the right viewer.**  In a run the list has
each registered viewer once until its deregistration is complete, and every
erase is in bounds, exactly if no viewer is moved between its find and its
erase. -/
theorem removes_right_iff {as : List (Action κ)} (h : exec step {} as = some s) :
    Throughout step Right {} as ↔ Steps step Unmoved {} as s :=
  throughout_iff_steps (fun _ _ _ ht hr hr' hs => tracked_step ht hr hr' hs)
    (fun _ _ _ ht hr hs => right_step_iff ht hr hs)
    ⟨Finset.Subset.refl _, by simp⟩ ⟨by simp, List.nodup_nil, rfl⟩ h

instance : ∀ (s : Viewers κ) (a : Action κ), Decidable (Unmoved s a)
  | s, .erase conn => decidable_of_iff ((s.found conn).all fun f => !f.moved) (by
      cases h : s.found conn <;> simp [Unmoved, h])
  | _, .register _ | _, .find _ => .isTrue trivial

/-- Two viewers leave at once, the one behind first. -/
theorem removes_right_iff_two : Throughout step Right ({} : Viewers Nat)
    [.register 1, .register 2, .find 1, .find 2, .erase 2, .register 3, .erase 1] := by
  obtain ⟨s, hs⟩ := Option.isSome_iff_exists.mp (show (exec (permit step Unmoved)
    ({} : Viewers Nat) [.register 1, .register 2, .find 1, .find 2, .erase 2, .register 3,
      .erase 1]).isSome = true by decide)
  have hsteps := steps_iff_exec_permit.mpr hs
  have hexec := steps_iff_exec.mp (hsteps.mono fun _ _ _ => trivial)
  exact (removes_right_iff hexec).mpr hsteps

/-- **The wrong viewer is removed**, or nobody: the viewer in front is erased
between the find and the erase of the one behind. -/
theorem not_removes_right :
    (∃ s, exec step ({} : Viewers Nat) [.register 1, .register 2, .register 3, .find 1, .find 2,
        .erase 1, .erase 2] = some s ∧ s.connectionList = [2] ∧ s.deregistered = {1, 2} ∧
      ¬ s.Right) ∧
    ∃ s, exec step ({} : Viewers Nat) [.register 1, .register 2, .find 1, .find 2, .erase 1,
        .erase 2] = some s ∧ s.inBounds = false ∧ ¬ s.Right := by
  refine ⟨⟨_, rfl, rfl, by decide, fun h => ?_⟩, ⟨_, rfl, rfl, fun h => ?_⟩⟩
  · have hlost := (h.listed 3).mpr ⟨by decide, by decide⟩
    exact absurd hlost (by decide)
  · exact absurd h.valid (by decide)

end Viewers

end SecMon.Http
