import Mathlib.Data.Finset.Basic
import SecMon.Core.Machine

/-!
# The websocket server

`GUI/WebSocketServer.cpp`: the connections that are open, and `shutdown()` in
its three steps, between which connections may open and close.  A handle is
opened once and closed once.

`on_open` sees that the server is shutting down, says so in the log, and takes
the connection all the same.  `shutdown_complete_iff` says that this is the
only thing that goes wrong: a run keeps `Complete` exactly if no connection
opens once the flag is set.
-/

namespace SecMon.Http

open Machine

/-- How far `shutdown()` has come. -/
inductive Shutdown
  | notCalled
  /-- `shuttingDown` is set -/
  | flagged
  /-- the handles of `master_list` have been closed -/
  | closed
  | finished
  deriving DecidableEq, Repr

/-- `WebSocketServer`, with the history of its connections. -/
structure WebSocketServer (κ : Type) where
  shuttingDown : Bool := false
  masterList : Finset κ := ∅
  stage : Shutdown := .notCalled
  /-- The connections that were opened. -/
  opened : Finset κ := ∅
  /-- Those of them that were closed by their peer. -/
  peerClosed : Finset κ := ∅
  /-- Those that `shutdown()` has sent a close. -/
  sentClose : Finset κ := ∅
  /-- Those that were inserted when `shuttingDown` was set. -/
  late : Finset κ := ∅

namespace WebSocketServer

variable {κ : Type} [DecidableEq κ]

inductive Action (κ : Type)
  | onOpen (hdl : κ)
  | onClose (hdl : κ)
  | setShuttingDown
  | closeAll
  | clear

/-- `on_open`.  What it does about `shuttingDown` is a line in the log. -/
def onOpen (hdl : κ) (s : WebSocketServer κ) : WebSocketServer κ :=
  { s with
    masterList := insert hdl s.masterList
    opened := insert hdl s.opened
    late := if s.shuttingDown then insert hdl s.late else s.late }

/-- `on_close`. -/
def onClose (hdl : κ) (s : WebSocketServer κ) : WebSocketServer κ :=
  { s with
    masterList := s.masterList.erase hdl
    peerClosed := insert hdl s.peerClosed }

def step (s : WebSocketServer κ) : Action κ → Option (WebSocketServer κ)
  | .onOpen hdl => if hdl ∈ s.opened then none else some (s.onOpen hdl)
  | .onClose hdl =>
    if hdl ∈ s.opened ∧ hdl ∉ s.peerClosed then some (s.onClose hdl) else none
  | .setShuttingDown =>
    if s.stage = .notCalled then some { s with shuttingDown := true, stage := .flagged } else none
  | .closeAll =>
    if s.stage = .flagged then
      some { s with sentClose := s.sentClose ∪ s.masterList, stage := .closed }
    else none
  | .clear =>
    if s.stage = .closed then some { s with masterList := ∅, stage := .finished } else none

/-- No connection is left behind. -/
structure Complete (s : WebSocketServer κ) : Prop where
  /-- nothing was inserted once `shuttingDown` was set -/
  inTime : s.late = ∅
  /-- after `shutdown()` every connection is closed, by its peer or by us -/
  told : s.stage = .finished → ∀ hdl ∈ s.opened, hdl ∉ s.peerClosed → hdl ∈ s.sentClose
  /-- and nothing is in `master_list` -/
  empty : s.stage = .finished → s.masterList = ∅

/-- What is always so. -/
structure Sound (s : WebSocketServer κ) : Prop where
  flag : s.shuttingDown = true ↔ s.stage ≠ .notCalled
  /-- until it is cleared, `master_list` has the open connections -/
  listed : s.stage ≠ .finished → ∀ hdl, hdl ∈ s.masterList ↔ hdl ∈ s.opened ∧ hdl ∉ s.peerClosed
  /-- then, late ones at most -/
  leftover : s.stage = .finished → s.masterList ⊆ s.late
  /-- who was there in time has been sent a close -/
  told : s.stage = .closed ∨ s.stage = .finished →
    ∀ hdl ∈ s.opened, hdl ∉ s.peerClosed → hdl ∉ s.late → hdl ∈ s.sentClose

variable {s s' : WebSocketServer κ}

theorem Sound.onOpen (h : s.Sound) (hdl : κ) (hnew : hdl ∉ s.opened)
    (hclosed : s.peerClosed ⊆ s.opened) : (s.onOpen hdl).Sound := by
  refine ⟨h.flag, fun hst x => ?_, fun hst => ?_, fun hst x hx hnot hl => ?_⟩
  · have hx := h.listed hst x
    have hnc : hdl ∉ s.peerClosed := fun hm => hnew (hclosed hm)
    simp only [WebSocketServer.onOpen, Finset.mem_insert, hx]
    constructor
    · intro hm
      rcases hm with rfl | hm
      · exact ⟨.inl rfl, hnc⟩
      · exact ⟨.inr hm.1, hm.2⟩
    · intro ⟨hm, hn⟩
      rcases hm with rfl | hm
      · exact .inl rfl
      · exact .inr ⟨hm, hn⟩
  · have hflag : s.shuttingDown = true := by
      apply h.flag.mpr
      rw [show s.stage = .finished from hst]
      decide
    simp only [WebSocketServer.onOpen, hflag, if_true]
    exact Finset.insert_subset_insert hdl (h.leftover hst)
  · have hflag : s.shuttingDown = true := by
      apply h.flag.mpr
      rcases hst with hst | hst
      · rw [show s.stage = .closed from hst]
        decide
      · rw [show s.stage = .finished from hst]
        decide
    simp only [WebSocketServer.onOpen, hflag, if_true, Finset.mem_insert, not_or] at hx hl
    rcases hx with hx | hx
    · exact absurd hx hl.1
    · exact h.told hst x hx hnot hl.2

theorem Sound.onClose (h : s.Sound) (hdl : κ) : (s.onClose hdl).Sound := by
  refine ⟨h.flag, fun hst x => ?_, fun hst => ?_, fun hst x hx hnot hl => ?_⟩
  · have hx := h.listed hst x
    simp only [WebSocketServer.onClose, Finset.mem_erase, Finset.mem_insert, hx, not_or]
    exact ⟨fun ⟨hne, ho, hn⟩ => ⟨ho, hne, hn⟩, fun ⟨ho, hne, hn⟩ => ⟨hne, ho, hn⟩⟩
  · exact (Finset.erase_subset hdl s.masterList).trans (h.leftover hst)
  · apply h.told hst x hx _ hl
    intro hm
    exact hnot (Finset.mem_insert_of_mem hm)

/-- The invariant of all runs. -/
structure Inv (s : WebSocketServer κ) : Prop where
  sound : s.Sound
  closed : s.peerClosed ⊆ s.opened

theorem Inv.step (h : s.Inv) (a : Action κ) (hs : s.step a = some s') : s'.Inv := by
  obtain ⟨hsound, hclosed⟩ := h
  cases a with
  | onOpen hdl =>
    obtain ⟨hnew, hs⟩ := Option.ite_none_left_eq_some.mp hs
    obtain rfl := Option.some.inj hs
    exact ⟨hsound.onOpen hdl hnew hclosed, hclosed.trans (Finset.subset_insert hdl s.opened)⟩
  | onClose hdl =>
    obtain ⟨⟨ho, _⟩, hs⟩ := Option.ite_none_right_eq_some.mp hs
    obtain rfl := Option.some.inj hs
    exact ⟨hsound.onClose hdl, Finset.insert_subset ho hclosed⟩
  | setShuttingDown =>
    obtain ⟨hst, hs⟩ := Option.ite_none_right_eq_some.mp hs
    obtain rfl := Option.some.inj hs
    have hlisted := hsound.listed (by rw [hst]; decide)
    exact ⟨⟨by simp, fun _ => hlisted, by simp, by simp⟩, hclosed⟩
  | closeAll =>
    obtain ⟨hst, hs⟩ := Option.ite_none_right_eq_some.mp hs
    obtain rfl := Option.some.inj hs
    have hlisted := hsound.listed (by rw [hst]; decide)
    have hflag : s.shuttingDown = true := hsound.flag.mpr (by rw [hst]; decide)
    refine ⟨⟨by simp [hflag], fun _ => hlisted, by simp, fun _ x hx hnot _ => ?_⟩, hclosed⟩
    exact Finset.mem_union_right _ ((hlisted x).mpr ⟨hx, hnot⟩)
  | clear =>
    obtain ⟨hst, hs⟩ := Option.ite_none_right_eq_some.mp hs
    obtain rfl := Option.some.inj hs
    have hflag : s.shuttingDown = true := hsound.flag.mpr (by rw [hst]; decide)
    have htold := hsound.told (.inl hst)
    exact ⟨⟨by simp [hflag], by simp, fun _ => Finset.empty_subset _, fun _ => htold⟩, hclosed⟩

omit [DecidableEq κ] in
theorem inv_init : ({} : WebSocketServer κ).Inv :=
  ⟨⟨by simp, by simp, by simp, by simp⟩, Finset.Subset.refl _⟩

/-- The condition that no connection opens once `shuttingDown` is set. -/
def OpensInTime (s : WebSocketServer κ) : Action κ → Prop
  | .onOpen _ => s.shuttingDown = false
  | _ => True

instance : ∀ (s : WebSocketServer κ) (a : Action κ), Decidable (OpensInTime s a)
  | s, .onOpen _ => inferInstanceAs (Decidable (s.shuttingDown = false))
  | _, .onClose _ | _, .setShuttingDown | _, .closeAll | _, .clear => .isTrue trivial

omit [DecidableEq κ] in
theorem Inv.complete (h : s.Inv) (hl : s.late = ∅) : s.Complete := by
  refine ⟨hl, fun hst x hx hnot => ?_, fun hst => ?_⟩
  · apply h.sound.told (.inr hst) x hx hnot
    rw [hl]
    exact Finset.notMem_empty x
  · have hsub := h.sound.leftover hst
    rw [hl] at hsub
    exact Finset.subset_empty.mp hsub

theorem late_step {a : Action κ} (hs : s.step a = some s') :
    (∃ hdl, a = .onOpen hdl ∧ s' = s.onOpen hdl) ∨ (∀ hdl, a ≠ .onOpen hdl) ∧ s'.late = s.late := by
  cases a with
  | onOpen hdl =>
    obtain ⟨_, hs⟩ := Option.ite_none_left_eq_some.mp hs
    exact .inl ⟨hdl, rfl, (Option.some.inj hs).symm⟩
  | onClose | setShuttingDown | closeAll | clear =>
    obtain ⟨_, hs⟩ := Option.ite_none_right_eq_some.mp hs
    obtain rfl := Option.some.inj hs
    exact .inr ⟨by simp, rfl⟩

theorem complete_step_iff (hi : s.Inv) (hc : s.Complete) {a : Action κ}
    (hs : s.step a = some s') : s'.Complete ↔ OpensInTime s a := by
  have hi' := hi.step a hs
  rcases late_step hs with ⟨hdl, rfl, rfl⟩ | ⟨hother, hlate⟩
  · show (s.onOpen hdl).Complete ↔ s.shuttingDown = false
    constructor
    · intro hc'
      by_contra hf
      have hl := hc'.inTime
      simp only [WebSocketServer.onOpen, Bool.eq_true_of_not_eq_false hf, if_true] at hl
      exact Finset.insert_ne_empty hdl s.late hl
    · intro hf
      apply hi'.complete
      simp only [WebSocketServer.onOpen, hf]
      exact hc.inTime
  · have hok : OpensInTime s a := by
      cases a with
      | onOpen hdl => exact absurd rfl (hother hdl)
      | onClose | setShuttingDown | closeAll | clear => exact trivial
    exact ⟨fun _ => hok, fun _ => hi'.complete (hlate.trans hc.inTime)⟩

/-- **When a shutdown leaves no connection behind.**  In a run nothing is
inserted once `shuttingDown` is set, and after `shutdown()` every connection is
closed and `master_list` empty, exactly if no connection opens once
`shuttingDown` is set. -/
theorem shutdown_complete_iff {as : List (Action κ)} (h : exec step {} as = some s) :
    Throughout step Complete {} as ↔ Steps step OpensInTime {} as s :=
  throughout_iff_steps (fun _ a _ hi _ _ hs => Inv.step hi a hs)
    (fun _ _ _ hi hc hs => complete_step_iff hi hc hs) inv_init
    (inv_init.complete rfl) h

/-- Two connections, one of which closes while the server shuts down. -/
theorem shutdown_complete_iff_two :
    Throughout step Complete ({} : WebSocketServer Nat)
      [.onOpen 1, .onOpen 2, .setShuttingDown, .onClose 1, .closeAll, .clear, .onClose 2] := by
  obtain ⟨s, hs⟩ := Option.isSome_iff_exists.mp (show (exec (permit step OpensInTime)
    ({} : WebSocketServer Nat)
    [.onOpen 1, .onOpen 2, .setShuttingDown, .onClose 1, .closeAll, .clear, .onClose 2]).isSome =
      true by decide)
  have hsteps := steps_iff_exec_permit.mpr hs
  have hexec := steps_iff_exec.mp (hsteps.mono fun _ _ _ => trivial)
  exact (shutdown_complete_iff hexec).mpr hsteps

/-- **A connection is left behind**: one that opens while the server shuts
down is never closed, and one that opens later stays in `master_list`. -/
theorem not_shutdown_complete :
    ∃ s : WebSocketServer Nat, exec step {}
        [.setShuttingDown, .closeAll, .onOpen 1, .clear, .onOpen 2] = some s ∧
      (1 ∈ s.opened ∧ 1 ∉ s.peerClosed ∧ 1 ∉ s.sentClose ∧ 1 ∉ s.masterList) ∧
      2 ∈ s.masterList ∧ s.late = {1, 2} ∧ ¬ s.Complete :=
  ⟨_, rfl, by decide, by decide, by decide, fun h => absurd h.inTime (by decide)⟩

end WebSocketServer

end SecMon.Http
