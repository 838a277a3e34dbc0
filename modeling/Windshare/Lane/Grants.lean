import Windshare.Lane.Registry

/-!
# What the registry does to grants and lanes

Expiry and revocation forget grants, and with the last grant of a lane that nobody ever
occupied the lane goes too. Issuing names a lane that is there or makes one. Both are said
here once, for the runs of the registry.
-/

namespace Windshare.Lane

open Windshare.Library Windshare.Session

/-! ### Forgetting grants -/

namespace LaneRegistry

/-- `r'` is `r` without some grants and without lanes that nobody claimed. -/
structure Cleaned (r r' : LaneRegistry) : Prop where
  frame : r' = { r with lanes := r'.lanes, grants := r'.grants }
  grants : ∀ id state, r'.grants.get? id = some state → r.grants.get? id = some state
  grants_size : r'.grants.size ≤ r.grants.size
  lanes : ∀ laneID, r'.lanes.get? laneID = r.lanes.get? laneID ∨
    r'.lanes.get? laneID = none ∧ r.lanes.get? laneID = some .zero ∧
      ∀ id state, r'.grants.get? id = some state → state.grant.laneID ≠ laneID
  lanes_size : r'.lanes.size ≤ r.lanes.size
  active : r'.lanes.count (·.active) = r.lanes.count (·.active)

variable {r r' r'' : LaneRegistry}

theorem Cleaned.refl (r : LaneRegistry) : Cleaned r r :=
  ⟨rfl, fun _ _ h => h, Nat.le_refl _, fun _ => .inl rfl, Nat.le_refl _, rfl⟩

theorem Cleaned.trans (h : Cleaned r r') (h' : Cleaned r' r'') : Cleaned r r'' where
  frame := by rw [h'.frame, h.frame]
  grants := fun id state hget => h.grants id state (h'.grants id state hget)
  grants_size := h'.grants_size.trans h.grants_size
  lanes := by
    intro laneID
    obtain hsame' | ⟨hnone', hzero', hfree'⟩ := h'.lanes laneID
    · obtain hsame | ⟨hnone, hzero, hfree⟩ := h.lanes laneID
      · exact .inl (hsame'.trans hsame)
      · refine .inr ⟨hsame'.trans hnone, hzero, ?_⟩
        intro id state hget
        exact hfree id state (h'.grants id state hget)
    · obtain hsame | ⟨hnone, -, -⟩ := h.lanes laneID
      · exact .inr ⟨hnone', hsame.symm.trans hzero', hfree'⟩
      · cases hnone.symm.trans hzero'
  lanes_size := h'.lanes_size.trans h.lanes_size
  active := h'.active.trans h.active

theorem any_grants_eq_false {laneID : UInt32}
    (h : ¬ r.grants.entries.any (·.2.grant.laneID = laneID) = true) {id : Identity}
    {state : LaneGrantState} (hget : r.grants.get? id = some state) :
    state.grant.laneID ≠ laneID := by
  intro hlane
  apply h
  rw [List.any_eq_true]
  exact ⟨(id, state), FiniteMap.mem_entries_iff.mpr hget, decide_eq_true hlane⟩

theorem cleaned_reclaimUnclaimedLane (r : LaneRegistry) (laneID : UInt32) :
    Cleaned r (r.reclaimUnclaimedLane laneID) := by
  unfold reclaimUnclaimedLane
  split
  · exact .refl r
  rename_i lane hlane
  split
  · exact .refl r
  rename_i hidle
  split
  · exact .refl r
  rename_i hfree
  rw [not_or, Bool.not_eq_true, Decidable.not_not] at hidle
  obtain rfl : lane = .zero := by
    cases lane
    exact congrArg₂ LogicalLaneState.mk hidle.2 hidle.1
  refine ⟨rfl, fun _ _ h => h, Nat.le_refl _, ?_, FiniteMap.size_filter_le _ _, ?_⟩
  · intro laneID'
    by_cases hne : laneID = laneID'
    · subst hne
      refine .inr ⟨FiniteMap.get?_erase_self, hlane, ?_⟩
      intro id state hget
      exact any_grants_eq_false hfree hget
    · exact .inl (by rw [FiniteMap.get?_erase, if_neg hne])
  · have hcount := r.lanes.count_erase laneID (·.active)
    rw [hlane] at hcount
    exact hcount

theorem cleaned_forget (r : LaneRegistry) (operationID : Identity) (laneID : UInt32) :
    Cleaned r (r.forget operationID laneID) := by
  refine Cleaned.trans ?_ (cleaned_reclaimUnclaimedLane _ laneID)
  refine ⟨rfl, ?_, FiniteMap.size_filter_le _ _, fun _ => .inl rfl, Nat.le_refl _, rfl⟩
  intro id state hget
  rw [FiniteMap.get?_erase] at hget
  split at hget
  · cases hget
  · exact hget

/-- Cleaning up is forgetting, whatever order the grants are listed in. -/
theorem cleaned_cleanupAlong (now : Time) (listing : List (Identity × LaneGrantState)) :
    ∀ r : LaneRegistry, Cleaned r (r.cleanupAlong now listing) := by
  induction listing with
  | nil => exact .refl
  | cons entry listing ih =>
    intro r
    change Cleaned r (LaneRegistry.cleanupAlong (if now < entry.2.retainedUntil then r
      else r.forget entry.1 entry.2.grant.laneID) now listing)
    split
    · exact ih r
    · exact (cleaned_forget r _ _).trans (ih _)

theorem cleaned_cleanup (r : LaneRegistry) (now : Time) : Cleaned r (r.cleanup now) :=
  cleaned_cleanupAlong now _ r

/-! ### Issuing -/

variable (r)

theorem availableLaneID_mem (now : Time) :
    r.availableLaneID now = 0 ∨ r.lanes.get? (r.availableLaneID now) ≠ none := by
  -- The loop returns where it started or a lane it has passed.
  have hloop (listing : List (UInt32 × LogicalLaneState)) (start : UInt32) :
      let found := listing.foldl (fun available entry =>
        if entry.2.active ∨ available ≠ 0 ∧ entry.1 ≥ available then available
        else if r.reserved now entry.1 entry.2 then available
        else entry.1) start
      found = start ∨ ∃ lane, (found, lane) ∈ listing := by
    induction listing generalizing start with
    | nil => exact .inl rfl
    | cons entry listing ih =>
      obtain ⟨laneID, lane⟩ := entry
      simp only [List.foldl_cons]
      have hnext := ih (if lane.active ∨ start ≠ 0 ∧ laneID ≥ start then start
        else if r.reserved now laneID lane then start else laneID)
      obtain hstart | ⟨lane', hmem⟩ := hnext
      · rw [hstart]
        split
        · exact .inl rfl
        · split
          · exact .inl rfl
          · exact .inr ⟨lane, List.mem_cons_self⟩
      · exact .inr ⟨lane', List.mem_cons_of_mem _ hmem⟩
  obtain hzero | ⟨lane, hmem⟩ := hloop r.lanes.entries 0
  · exact .inl hzero
  · refine .inr ?_
    intro hnone
    have hsome := FiniteMap.mem_entries_iff.mp hmem
    exact absurd (hsome.symm.trans hnone) (by simp)

/-- Allocating moves the counter and returns a lane that does not exist. -/
theorem allocateLaneIDWithin_spec (fuel : Nat) :
    ∀ r : LaneRegistry, ∃ next,
      (allocateLaneIDWithin fuel r).1 = { r with nextLaneID := next } ∧
      ∀ laneID, (allocateLaneIDWithin fuel r).2 = .ok laneID → r.lanes.get? laneID = none := by
  induction fuel with
  | zero =>
    intro r
    exact ⟨r.nextLaneID, rfl, fun _ h => by cases h⟩
  | succ fuel ih =>
    intro r
    rw [allocateLaneIDWithin]
    generalize (if r.nextLaneID + 1 = 0 then 1 else r.nextLaneID + 1) = moved
    by_cases hfree : r.nextLaneID ≠ 0 ∧ r.lanes.get? r.nextLaneID = none
    · simp only [if_pos hfree]
      refine ⟨moved, rfl, ?_⟩
      intro laneID hok
      cases hok
      exact hfree.2
    · simp only [if_neg hfree]
      obtain ⟨next, hnext, hfree⟩ := ih { r with nextLaneID := moved }
      exact ⟨next, hnext, hfree⟩

/-- What `grantLaneID` does: it names a lane that exists, or makes one within the limit. -/
inductive GrantsLane : LaneRegistry × Except LaneError UInt32 → Prop
  | failed (next : UInt32) (e : LaneError) : GrantsLane ({ r with nextLaneID := next }, .error e)
  | existing (laneID : UInt32) (h : r.lanes.get? laneID ≠ none) : GrantsLane (r, .ok laneID)
  | made (next laneID : UInt32) (h : r.lanes.get? laneID = none)
      (hroom : r.lanes.size < r.maxLogical) :
      GrantsLane ({ r with nextLaneID := next, lanes := r.lanes.insert laneID .zero }, .ok laneID)

theorem grantLaneID_spec (requested : UInt32) (now : Time) :
    r.GrantsLane (r.grantLaneID requested now) := by
  unfold grantLaneID
  split
  · split
    · exact .failed r.nextLaneID _
    · exact .existing requested ‹_›
  · by_cases hne : r.availableLaneID now ≠ 0
    · simp only [if_pos hne]
      obtain hzero | hmem := r.availableLaneID_mem now
      · exact absurd hzero hne
      · exact .existing _ hmem
    · simp only [if_neg hne]
      split
      · exact .failed r.nextLaneID _
      · rename_i hroom
        obtain ⟨next, hnext, hfree⟩ := allocateLaneIDWithin_spec maxUint32.toNat r
        unfold allocateLaneID
        generalize allocateLaneIDWithin maxUint32.toNat r = out at hnext hfree ⊢
        obtain ⟨r', _ | laneID⟩ := out
        · obtain rfl := hnext
          exact .failed next _
        · obtain rfl := hnext
          exact .made next laneID (hfree laneID rfl) (Int.not_le.mp hroom)

def addGrant (grant : LaneGrant) (now : Time) : LaneRegistry :=
  { r with
    nextEpoch := r.nextEpoch + 1
    grants := r.grants.insert grant.operationID ⟨grant, now + laneGrantTTL, 0⟩ }

/-- What `issueGrant` does: it is refused before or after cleaning up, or grants a lane. -/
inductive IssuesGrant (operationID : Identity) (now : Time) :
    LaneRegistry × Except LaneError LaneGrant → Prop
  | refused (e : LaneError) : IssuesGrant operationID now (r, .error e)
  | failed (next : UInt32) (e : LaneError) :
      IssuesGrant operationID now ({ r.cleanup now with nextLaneID := next }, .error e)
  | existing (nonce : AttachNonce) (laneID : UInt32)
      (hroom : (r.cleanup now).grants.size < (r.cleanup now).maxPending)
      (hnone : (r.cleanup now).grants.get? operationID = none)
      (hmax : (r.cleanup now).nextEpoch ≠ maxUint32)
      (hsome : (r.cleanup now).lanes.get? laneID ≠ none) :
      IssuesGrant operationID now
        ((r.cleanup now).addGrant ⟨laneID, (r.cleanup now).nextEpoch + 1, operationID, nonce⟩ now,
          .ok ⟨laneID, (r.cleanup now).nextEpoch + 1, operationID, nonce⟩)
  | made (nonce : AttachNonce) (next laneID : UInt32) (hopen : ¬ r.stopping)
      (hroom : (r.cleanup now).grants.size < (r.cleanup now).maxPending)
      (hnone : (r.cleanup now).grants.get? operationID = none)
      (hmax : (r.cleanup now).nextEpoch ≠ maxUint32)
      (hunused : (r.cleanup now).lanes.get? laneID = none)
      (hspace : (r.cleanup now).lanes.size < (r.cleanup now).maxLogical) :
      IssuesGrant operationID now
        ({ r.cleanup now with
            nextLaneID := next
            lanes := (r.cleanup now).lanes.insert laneID .zero : LaneRegistry }.addGrant
          ⟨laneID, (r.cleanup now).nextEpoch + 1, operationID, nonce⟩ now,
          .ok ⟨laneID, (r.cleanup now).nextEpoch + 1, operationID, nonce⟩)

theorem issueGrant_spec (requestedLaneID : UInt32) (operationID : Identity) (attachNonce : Bytes)
    (now : Time) : r.IssuesGrant operationID now
      (r.issueGrant requestedLaneID operationID attachNonce now) := by
  unfold issueGrant
  split
  · exact .refused _
  split
  · exact .refused _
  rename_i hopen
  dsimp only
  split
  · exact .failed _ _
  rename_i hroom
  split
  · exact .failed _ _
  rename_i hnone
  split
  · exact .failed _ _
  rename_i hmax
  generalize hout : (r.cleanup now).grantLaneID requestedLaneID now = out
  have hlane := (r.cleanup now).grantLaneID_spec requestedLaneID now
  rw [hout] at hlane
  have hroom := Int.not_le.mp hroom
  have hnone := Decidable.not_not.mp hnone
  cases hlane with
  | failed next e => exact .failed next e
  | existing laneID hsome => exact .existing _ laneID hroom hnone hmax hsome
  | made next laneID hunused hspace =>
    exact .made _ next laneID hopen hroom hnone hmax hunused hspace

end LaneRegistry

end Windshare.Lane
