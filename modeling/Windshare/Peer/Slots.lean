import Windshare.Library.Transition
import Windshare.Library.ListUpdate

/-!
# The pool of peer slots

A lease holds one of four slots and numbers the attempts of its peer path. The sequence of a
slot outlives the lease, so a later lease of the slot continues after the attempts of earlier
ones. A closure is the index of its lease.
-/

namespace Windshare.Peer

open Windshare.Library

def peerContinuationSlots : Nat := 4

def maximumSequence : Nat := 2 ^ 64 - 1

structure PeerAttemptOrdinal where
  peerSlot : Nat
  attemptSequence : Nat
deriving DecidableEq, Repr

structure PoolSlot where
  sequence : Nat
  occupied : Bool
deriving DecidableEq, Repr

/-- `PeerSlotLease`, with the variable its closures share. -/
structure PeerSlotLease where
  peerSlot : Nat
  closed : Bool
deriving DecidableEq, Repr

/-- The errors of the pool; `unknown` is a lease that was never handed out. -/
inductive PoolError where
  | occupied
  | closed
  | exhausted
  | unknown
deriving DecidableEq, Repr

/-- `PeerSlotPool` and the leases it has handed out. -/
structure PeerSlotPool where
  slots : List PoolSlot
  leases : List PeerSlotLease
deriving DecidableEq, Repr

namespace PeerSlotPool

def new : PeerSlotPool := ⟨List.replicate peerContinuationSlots ⟨0, false⟩, []⟩

variable (pool : PeerSlotPool)

/-- `acquire`. The result is the index of the lease. -/
def acquire : Except PoolError Nat × PeerSlotPool :=
  match pool.slots.findIdx? fun slot => !slot.occupied && slot.sequence < maximumSequence with
  | none => (.error .occupied, pool)
  | some peerSlot =>
    (.ok pool.leases.length,
      { slots := pool.slots.modify peerSlot fun slot => { slot with occupied := true }
        leases := pool.leases ++ [⟨peerSlot, false⟩] })

def next (lease : Nat) : Except PoolError PeerAttemptOrdinal × PeerSlotPool :=
  match pool.leases[lease]? with
  | none => (.error .unknown, pool)
  | some l =>
    if l.closed then (.error .closed, pool)
    else
      match pool.slots[l.peerSlot]? with
      | none => (.error .unknown, pool)
      | some slot =>
        if slot.sequence = maximumSequence then (.error .exhausted, pool)
        else
          (.ok ⟨l.peerSlot, slot.sequence + 1⟩,
            { pool with
              slots := pool.slots.modify l.peerSlot fun slot =>
                { slot with sequence := slot.sequence + 1 } })

def close (lease : Nat) : PeerSlotPool :=
  match pool.leases[lease]? with
  | none => pool
  | some l =>
    if l.closed then pool
    else
      { slots := pool.slots.modify l.peerSlot fun slot => { slot with occupied := false }
        leases := pool.leases.modify lease fun l => { l with closed := true } }

theorem acquire_cases (pool : PeerSlotPool) : pool.acquire.2 = pool ∨ ∃ i, pool.acquire.2 =
    { slots := pool.slots.modify i fun slot => { slot with occupied := true }
      leases := pool.leases ++ [⟨i, false⟩] } := by
  unfold acquire
  split
  · exact .inl rfl
  · exact .inr ⟨_, rfl⟩

theorem next_cases (pool : PeerSlotPool) (lease : Nat) : (∃ e, pool.next lease = (.error e, pool)) ∨
    ∃ i slot, pool.slots[i]? = some slot ∧ slot.sequence ≠ maximumSequence ∧
      pool.next lease = (.ok ⟨i, slot.sequence + 1⟩,
        { pool with
          slots := pool.slots.modify i fun slot =>
            { slot with sequence := slot.sequence + 1 } }) := by
  unfold next
  split
  · exact .inl ⟨_, rfl⟩
  · split
    · exact .inl ⟨_, rfl⟩
    · split
      · exact .inl ⟨_, rfl⟩
      · rename_i slot hslot
        split
        · exact .inl ⟨_, rfl⟩
        · rename_i hroom
          exact .inr ⟨_, slot, hslot, hroom, rfl⟩

theorem close_cases (pool : PeerSlotPool) (lease : Nat) : pool.close lease = pool ∨
    ∃ i, pool.close lease =
    { slots := pool.slots.modify i fun slot => { slot with occupied := false }
      leases := pool.leases.modify lease fun l => { l with closed := true } } := by
  unfold close
  split
  · exact .inl rfl
  · split
    · exact .inl rfl
    · exact .inr ⟨_, rfl⟩

end PeerSlotPool

/-! ### Runs -/

inductive PoolCall where
  | acquire
  | next (lease : Nat)
  | close (lease : Nat)
deriving DecidableEq, Repr

/-- The pool and the ordinals it has handed out, oldest first. -/
structure PoolHost where
  pool : PeerSlotPool
  handed : List PeerAttemptOrdinal
deriving DecidableEq, Repr

namespace PoolHost

def new : PoolHost := ⟨.new, []⟩

def call (s : PoolHost) : PoolCall → PoolHost
  | .acquire => { s with pool := s.pool.acquire.2 }
  | .next lease =>
    match s.pool.next lease with
    | (.error _, pool) => { s with pool }
    | (.ok ordinal, pool) => ⟨pool, s.handed ++ [ordinal]⟩
  | .close lease => { s with pool := s.pool.close lease }

def sequenceAt (s : PoolHost) (slot : Nat) : Nat := (s.pool.slots[slot]?.map (·.sequence)).getD 0

/-- Ordinals ascend in each slot, up to the sequence of the slot. -/
structure Ascending (s : PoolHost) : Prop where
  slots : s.pool.slots.length = peerContinuationSlots
  bounded : ∀ slot, s.sequenceAt slot ≤ maximumSequence
  handed : ∀ ordinal ∈ s.handed, ordinal.peerSlot < peerContinuationSlots ∧
    0 < ordinal.attemptSequence ∧ ordinal.attemptSequence ≤ s.sequenceAt ordinal.peerSlot
  ordered : s.handed.Pairwise fun earlier later =>
    earlier.peerSlot = later.peerSlot → earlier.attemptSequence < later.attemptSequence

theorem ascending_new : Ascending new where
  slots := rfl
  bounded := by
    intro slot
    have hzero : new.sequenceAt slot = 0 := by
      unfold sequenceAt new PeerSlotPool.new
      rw [List.getElem?_replicate]
      split <;> rfl
    rw [hzero]
    exact Nat.zero_le _
  handed := nofun
  ordered := .nil

variable {s : PoolHost}

/-- A call that changes who holds a slot, and no sequence. -/
theorem Ascending.occupancy (h : s.Ascending) (i : Nat) (occupied : Bool)
    (leases : List PeerSlotLease) :
    Ascending ⟨⟨s.pool.slots.modify i fun slot => { slot with occupied }, leases⟩, s.handed⟩ := by
  have hsame : ∀ slot, sequenceAt
      ⟨⟨s.pool.slots.modify i fun slot => { slot with occupied }, leases⟩, s.handed⟩ slot =
      s.sequenceAt slot := by
    intro slot
    unfold sequenceAt
    rw [List.getElem?_modify]
    cases s.pool.slots[slot]? with
    | none => rfl
    | some => by_cases hi : i = slot <;> simp [hi]
  refine ⟨(List.length_modify _ _ _).trans h.slots, ?_, ?_, h.ordered⟩
  · intro slot
    rw [hsame]
    exact h.bounded slot
  · intro ordinal hordinal
    rw [hsame]
    exact h.handed ordinal hordinal

theorem Ascending.next (h : s.Ascending) {i : Nat} {slot : PoolSlot}
    (hslot : s.pool.slots[i]? = some slot) (hroom : slot.sequence ≠ maximumSequence) :
    Ascending ⟨{ s.pool with
        slots := s.pool.slots.modify i fun slot => { slot with sequence := slot.sequence + 1 } },
      s.handed ++ [⟨i, slot.sequence + 1⟩]⟩ := by
  have hcurrent : s.sequenceAt i = slot.sequence := by
    unfold sequenceAt
    rw [hslot]
    rfl
  have hbound : slot.sequence ≤ maximumSequence := hcurrent ▸ h.bounded i
  have hlt : i < peerContinuationSlots := by
    rw [← h.slots]
    exact (List.getElem?_eq_some_iff.mp hslot).1
  have hnext : ∀ j, sequenceAt ⟨{ s.pool with
        slots := s.pool.slots.modify i fun slot => { slot with sequence := slot.sequence + 1 } },
      s.handed ++ [⟨i, slot.sequence + 1⟩]⟩ j =
      if i = j then slot.sequence + 1 else s.sequenceAt j := by
    intro j
    unfold sequenceAt
    rw [List.getElem?_modify]
    by_cases hj : i = j
    · subst hj
      simp [hslot]
    · simp [hj]
  refine ⟨(List.length_modify _ _ _).trans h.slots, ?_, ?_, ?_⟩
  · intro j
    rw [hnext]
    split
    · omega
    · exact h.bounded j
  · intro ordinal hordinal
    rw [hnext]
    obtain hold | hnew := List.mem_append.mp hordinal
    · obtain ⟨hslotLt, hpos, hle⟩ := h.handed ordinal hold
      refine ⟨hslotLt, hpos, ?_⟩
      split
      · rename_i hi
        rw [← hi, hcurrent] at hle
        omega
      · exact hle
    · obtain rfl := List.mem_singleton.mp hnew
      exact ⟨hlt, Nat.succ_pos _, by rw [if_pos rfl]⟩
  · refine List.pairwise_append.mpr ⟨h.ordered, List.pairwise_singleton _ _, ?_⟩
    intro earlier hearlier later hlater hsame
    obtain rfl := List.mem_singleton.mp hlater
    have hle := (h.handed earlier hearlier).2.2
    rw [hsame, hcurrent] at hle
    exact Nat.lt_succ_of_le hle

theorem Ascending.call (h : s.Ascending) (c : PoolCall) : (s.call c).Ascending := by
  cases c with
  | acquire =>
    change Ascending { s with pool := s.pool.acquire.2 }
    obtain hsame | ⟨i, hlease⟩ := s.pool.acquire_cases
    · rw [hsame]
      exact h
    · rw [hlease]
      exact h.occupancy i _ _
  | next lease =>
    unfold PoolHost.call
    dsimp only
    obtain ⟨e, herror⟩ | ⟨i, slot, hslot, hroom, hnext⟩ := s.pool.next_cases lease
    · rw [herror]
      exact h
    · rw [hnext]
      exact h.next hslot hroom
  | close lease =>
    change Ascending { s with pool := s.pool.close lease }
    obtain hsame | ⟨i, hclose⟩ := s.pool.close_cases lease
    · rw [hsame]
      exact h
    · rw [hclose]
      exact h.occupancy i _ _

end PoolHost

end Windshare.Peer
