import Windshare.Library.Watermark
import Windshare.Operation.Table
import Windshare.Peer.Slots

/-!
# Retired peer attempts

The web client keeps, for each slot, how far attempts were issued and retired and which are
active. The operation table of the other runtime does the same under its mutex. The decoders of
the web client are parameters; they give nothing where the source throws.
-/

namespace Windshare.Peer

open Windshare.Library Windshare.Session Windshare.Operation

structure PeerBinding where
  purpose : Nat
  peerSlot : Nat
  peerPathId : Identity
  attemptId : Identity
  attemptSequence : Nat
deriving DecidableEq

/-- A slot of `RetiredPeerContinuations`. -/
structure RetiredSlot where
  issuedThrough : Nat := 0
  retiredThrough : Nat := 0
  active : List Nat := []

structure RetiredPeerContinuations where
  slots : FiniteMap Nat RetiredSlot

/-- What `admit` throws. -/
inductive AdmitError where
  | slotOutsideCapacity
  | sequenceReused
deriving DecidableEq, Repr

namespace RetiredPeerContinuations

def new : RetiredPeerContinuations := ⟨.empty⟩

variable (web : RetiredPeerContinuations)

/-- `admit`. The slot is made even when the attempt is refused. -/
def admitAttempt (binding : Option PeerBinding) : RetiredPeerContinuations × Option AdmitError :=
  match binding with
  | none => (web, none)
  | some binding =>
    if binding.peerSlot ≥ peerContinuationSlots then (web, some .slotOutsideCapacity)
    else
      let slot := (web.slots.get? binding.peerSlot).getD {}
      if binding.attemptSequence ≤ slot.issuedThrough then
        (⟨web.slots.insert binding.peerSlot slot⟩, some .sequenceReused)
      else
        (⟨web.slots.insert binding.peerSlot
          { slot with
            issuedThrough := binding.attemptSequence
            active := binding.attemptSequence :: slot.active }⟩, none)

def retire (binding : Option PeerBinding) : RetiredPeerContinuations :=
  match binding with
  | none => web
  | some binding =>
    match web.slots.get? binding.peerSlot with
    | none => web
    | some slot =>
      if !slot.active.contains binding.attemptSequence then web
      else
        ⟨web.slots.insert binding.peerSlot
          { slot with
            active := slot.active.filter (· != binding.attemptSequence)
            retiredThrough :=
              if binding.attemptSequence > slot.retiredThrough then binding.attemptSequence
              else slot.retiredThrough }⟩

end RetiredPeerContinuations

/-! ### Watermarks of a slot -/

def sequencesOf (slot : Nat) (ordinals : List PeerAttemptOrdinal) : List Nat :=
  (ordinals.filter fun o => o.peerSlot = slot).map PeerAttemptOrdinal.attemptSequence

variable {ordinals : List PeerAttemptOrdinal}

theorem mem_sequencesOf {o : PeerAttemptOrdinal} :
    o.attemptSequence ∈ sequencesOf o.peerSlot ordinals ↔ o ∈ ordinals := by
  unfold sequencesOf
  rw [List.mem_map]
  constructor
  · rintro ⟨p, hp, hsequence⟩
    obtain ⟨hmem, hslot⟩ := List.mem_filter.mp hp
    obtain ⟨slot, sequence⟩ := p
    obtain ⟨slot', sequence'⟩ := o
    obtain rfl : slot = slot' := of_decide_eq_true hslot
    obtain rfl : sequence = sequence' := hsequence
    exact hmem
  · intro h
    exact ⟨o, List.mem_filter.mpr ⟨h, decide_eq_true rfl⟩, rfl⟩

theorem sequencesOf_cons_self {o : PeerAttemptOrdinal} :
    sequencesOf o.peerSlot (o :: ordinals) =
      o.attemptSequence :: sequencesOf o.peerSlot ordinals := by
  simp [sequencesOf]

theorem sequencesOf_cons_of_ne {o : PeerAttemptOrdinal} {slot : Nat} (h : o.peerSlot ≠ slot) :
    sequencesOf slot (o :: ordinals) = sequencesOf slot ordinals := by
  simp [sequencesOf, h]

/-- The watermark of an entry; a slot never used has none. -/
def watermarkOf {V : Type} (mark : V → Watermark) (entry : Option V) : Watermark :=
  (entry.map mark).getD ⟨0, 0, []⟩

/-- The entries of a table of slots represent the attempts admitted and retired. -/
def Tracks {K V : Type} [DecidableEq K] (key : K → Nat) (mark : V → Watermark)
    (slots : FiniteMap K V) (admitted retired : List PeerAttemptOrdinal) : Prop :=
  ∀ k, (watermarkOf mark (slots.get? k)).Represents (sequencesOf (key k) admitted)
    (sequencesOf (key k) retired)

namespace Tracks

variable {K V : Type} [DecidableEq K] {key : K → Nat} {mark : V → Watermark}
  {slots : FiniteMap K V} {admitted retired : List PeerAttemptOrdinal} {k : K} {v : V}
  {o : PeerAttemptOrdinal}

theorem empty : Tracks key mark (.empty : FiniteMap K V) [] [] :=
  fun _ => Watermark.represents_nothing

section

variable (h : Tracks key mark slots admitted retired)

include h

/-- An entry is written with the watermark it had. -/
theorem keep (hv : mark v = watermarkOf mark (slots.get? k)) :
    Tracks key mark (slots.insert k v) admitted retired := by
  intro k'
  rw [FiniteMap.get?_insert]
  by_cases hk : k = k'
  · subst hk
    rw [if_pos rfl]
    have hmark : watermarkOf mark (some v) = watermarkOf mark (slots.get? k) := hv
    rw [hmark]
    exact h k
  · rw [if_neg hk]
    exact h k'

theorem admitAttempt (hkey : ∀ k k', key k = key k' → k = k') (hslot : o.peerSlot = key k)
    (hlater : (watermarkOf mark (slots.get? k)).issuedThrough < o.attemptSequence)
    (hissued : (mark v).issuedThrough = o.attemptSequence)
    (hretired : (mark v).retiredThrough = (watermarkOf mark (slots.get? k)).retiredThrough)
    (hactive : ∀ m, m ∈ (mark v).active ↔
      m = o.attemptSequence ∨ m ∈ (watermarkOf mark (slots.get? k)).active) :
    Tracks key mark (slots.insert k v) (o :: admitted) retired := by
  intro k'
  rw [FiniteMap.get?_insert]
  by_cases hk : k = k'
  · subst hk
    rw [if_pos rfl, ← hslot, sequencesOf_cons_self]
    exact (hslot ▸ h k).admits hlater hissued hretired hactive
  · rw [if_neg hk, sequencesOf_cons_of_ne (fun heq => hk (hkey k k' (hslot.symm.trans heq)))]
    exact h k'

theorem retire
    (hkey : ∀ k k', key k = key k' → k = k') (hslot : o.peerSlot = key k) (ho : o ∈ admitted)
    (hissued : (mark v).issuedThrough = (watermarkOf mark (slots.get? k)).issuedThrough)
    (hretired : (mark v).retiredThrough =
      max o.attemptSequence (watermarkOf mark (slots.get? k)).retiredThrough)
    (hactive : ∀ m, m ∈ (mark v).active ↔
      m ∈ (watermarkOf mark (slots.get? k)).active ∧ m ≠ o.attemptSequence) :
    Tracks key mark (slots.insert k v) admitted (o :: retired) := by
  intro k'
  rw [FiniteMap.get?_insert]
  by_cases hk : k = k'
  · subst hk
    rw [if_pos rfl, ← hslot, sequencesOf_cons_self]
    exact (hslot ▸ h k).retire (mem_sequencesOf.mpr ho) hissued hretired hactive
  · rw [if_neg hk, sequencesOf_cons_of_ne (fun heq => hk (hkey k k' (hslot.symm.trans heq)))]
    exact h k'

theorem isSome (hslot : o.peerSlot = key k)
    (hpos : 0 < o.attemptSequence) (ho : o ∈ admitted) : (slots.get? k).isSome = true := by
  have hle := (hslot ▸ h k).admitted_le (mem_sequencesOf.mpr ho)
  cases hget : slots.get? k with
  | some => rfl
  | none =>
    rw [hget] at hle
    exact absurd hle (Nat.not_le.mpr hpos)

end

end Tracks

/-! ### One step of each runtime -/

def RetiredSlot.watermark (slot : RetiredSlot) : Watermark :=
  ⟨slot.issuedThrough, slot.retiredThrough, slot.active⟩

/-- The watermark of a slot of the operation table. -/
def slotWatermark (slot : PeerSlot) : Watermark :=
  ⟨slot.issuedThrough.toNat, slot.retiredThrough.toNat, slot.active.map UInt64.toNat⟩

end Windshare.Peer
