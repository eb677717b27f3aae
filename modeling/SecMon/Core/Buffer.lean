import Mathlib.Data.List.Basic

/-!
# Buffers

A buffer is a place in memory, not a copy: what is transmitted is what the
place holds when it is read.  `ConstBuffer` records the place and, beside it,
what the place held when the buffer was built.  Memory is a partial function
`deref`, undefined where nothing lives any more.

`Intact deref bs` says that every place still holds what it held, and then
`transmit_intact`: what is read is what was meant.
-/

namespace SecMon.Buffer

variable {ρ β : Type*}

/-- A reference `ref` to memory that held `bytes`. -/
structure ConstBuffer (ρ β : Type*) where
  ref : ρ
  bytes : List β
  deriving DecidableEq, Repr

/-- The same buffer under another name of its place. -/
def ConstBuffer.mapRef {ρ' : Type*} (f : ρ → ρ') (b : ConstBuffer ρ β) : ConstBuffer ρ' β :=
  ⟨f b.ref, b.bytes⟩

/-- What a sequence of buffers denoted when it was built. -/
def denote (bs : List (ConstBuffer ρ β)) : List β := bs.flatMap (·.bytes)

/-- What reading a sequence of buffers gives; `none` when a place is gone. -/
def transmit (deref : ρ → Option (List β)) : List (ConstBuffer ρ β) → Option (List β)
  | [] => some []
  | b :: bs => (deref b.ref).bind fun l => (transmit deref bs).map (l ++ ·)

/-- Every buffer still refers to what it referred to. -/
def Intact (deref : ρ → Option (List β)) (bs : List (ConstBuffer ρ β)) : Prop :=
  ∀ b ∈ bs, deref b.ref = some b.bytes

/-- **Intact buffers transmit what they denoted.** -/
theorem transmit_intact {deref : ρ → Option (List β)} {bs : List (ConstBuffer ρ β)}
    (h : Intact deref bs) : transmit deref bs = some (denote bs) := by
  induction bs with
  | nil => rfl
  | cons b bs ih =>
    have hb : deref b.ref = some b.bytes := h b List.mem_cons_self
    have hbs : Intact deref bs := fun c hc => h c (List.mem_cons_of_mem b hc)
    rw [transmit, hb, ih hbs]
    rfl

theorem intact_mapRef {ρ' : Type*} {f : ρ → ρ'} {deref : ρ' → Option (List β)}
    {bs : List (ConstBuffer ρ β)} :
    Intact deref (bs.map (·.mapRef f)) ↔ Intact (fun r => deref (f r)) bs := by
  unfold Intact
  rw [List.forall_mem_map]
  exact Iff.rfl

end SecMon.Buffer
