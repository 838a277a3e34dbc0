import Windshare.Operation.Retention
import Windshare.Routing.Admission

/-!
# Operation capacity

The table refuses a message for want of capacity only when it is full, and then the message is a
request or a cancellation. What the other goroutines of a sender do never takes capacity, so a
table that had room when the dispatcher looked still has it when the message comes.
-/

namespace Windshare.Operation.Table

open Windshare.Library Windshare.Session Windshare.Routing

variable {cfg : Config} {expiry : List Time} {t u : Table} {id : OperationID} {m : Message}
  {direction : Direction} {now : Time}

/-- The table has no room for another operation. -/
def Full (cfg : Config) (t : Table) : Prop :=
  cfg.limits.maxActive ≤ t.active.size ∨ cfg.limits.maxTracked ≤ t.active.size + t.tombstones.size

def WantsCapacity (e : OperationError) : Prop :=
  (RouterError.operation e).isOperationCapacity = true

def HasRoom (v : Verdict) : Prop := ∀ e, v = .refused e → ¬ WantsCapacity e

variable {tombstone : Tombstone} {e : OperationError} {op : ActiveOperation} {pruneAt : Time}

theorem newOperationAuthority_error
    (h : newOperationAuthority cfg m = .error e) : ¬ WantsCapacity e := by
  unfold newOperationAuthority at h
  split at h
  · cases h
  split at h
  · cases h
    exact Bool.false_ne_true
  · cases h
    exact Bool.false_ne_true
  · cases h
  · split at h
    · rename_i hnew
      cases h
      unfold ContinuationState.new at hnew
      repeat' split at hnew
      all_goals cases hnew
      all_goals exact Bool.false_ne_true
    · cases h

theorem admitPeerAttempt_error {authority : Authority}
    (h : (t.admitPeerAttempt authority).2 = some e) : ¬ WantsCapacity e := by
  revert h
  fun_cases admitPeerAttempt t authority <;> rintro ⟨⟩ <;> exact Bool.false_ne_true

/-! ### Refusals -/

theorem hasRoom_bindPreemptivelyCancelledRequest {isRequest : Bool} :
    HasRoom (t.bindPreemptivelyCancelledRequest cfg id tombstone direction m isRequest).2 := by
  fun_cases bindPreemptivelyCancelledRequest cfg t id tombstone direction m isRequest with
  | case2 _ e hnew =>
    rintro e ⟨⟩
    exact newOperationAuthority_error hnew
  | case4 _ authority _ _ u e hadmitted =>
    rintro e ⟨⟩
    exact admitPeerAttempt_error (congrArg Prod.snd hadmitted)
  | _ =>
    rintro e ⟨⟩ <;> exact Bool.false_ne_true

theorem hasRoom_observeTombstone : HasRoom (t.observeTombstone cfg id tombstone direction m).2 := by
  unfold observeTombstone observeCancelledTombstone
  dsimp only
  repeat' split
  all_goals first
    | exact hasRoom_bindPreemptivelyCancelledRequest
    | (rintro e ⟨⟩ <;> exact Bool.false_ne_true)

theorem hasRoom_observeRetired : HasRoom (t.observeRetired cfg id tombstone direction m).2 := by
  unfold observeRetired
  dsimp only
  split
  · rename_i accepted hlate
    unfold acceptLateContinuation at hlate
    repeat' split at hlate
    all_goals cases hlate
    all_goals rintro e ⟨⟩ <;> exact Bool.false_ne_true
  · split
    · split
      · rename_i accepted hlate
        unfold acceptUnboundLateContinuation at hlate
        repeat' split at hlate
        all_goals cases hlate
        all_goals rintro e ⟨⟩ <;> exact Bool.false_ne_true
      · exact hasRoom_observeTombstone
    · exact hasRoom_observeTombstone

theorem hasRoom_advanceOperation (hop : t.active.get? id = some op) :
    HasRoom (t.advanceOperation cfg now id op direction m).2 := by
  have hfinish (cancelled : Bool) {u : Table} {e : OperationError}
      (h : t.finishOperation cfg now id op direction m cancelled = (u, some e)) : False := by
    obtain ⟨slots, heq⟩ := finishOperation_eq cfg hop now direction m cancelled
    rw [heq] at h
    cases h
  fun_cases advanceOperation cfg t now id op direction m with
  | case1 _ _ _ h => exact (hfinish true h).elim
  | case7 _ _ _ _ _ _ _ h => exact (hfinish false h).elim
  | case9 =>
    unfold observePeerAnswer
    dsimp only
    repeat' split
    all_goals rintro e ⟨⟩ <;> exact Bool.false_ne_true
  | _ => rintro e ⟨⟩ <;> exact Bool.false_ne_true

theorem hasRoom_observeActive (hop : t.active.get? id = some op) :
    HasRoom (t.observeActive cfg now id op direction m).2 := by
  have hadvance : HasRoom (t.advanceOperation cfg now id op direction m).2 :=
    hasRoom_advanceOperation hop
  unfold observeActive
  split
  · split
    · rename_i hreserve
      rintro e ⟨⟩
      obtain rfl | rfl := reserveActiveContinuation_error hreserve <;> exact Bool.false_ne_true
    all_goals rintro e ⟨⟩
  · rename_i heq
    rw [heq] at hadvance
    exact hadvance

theorem deferredRequest_of_begins
    (h : ¬ (direction ≠ .receiverToSender ∨ (!m.kind.isRequest) = true ∧ m.kind ≠ .laneAttach)) :
    deferredRequest m.kind = true := by
  unfold deferredRequest
  by_cases hrequest : m.kind.isRequest = true
  · rw [hrequest]
    rfl
  · have hattach : m.kind = .laneAttach := by
      by_contra hne
      exact h (.inr ⟨by simpa using hrequest, hne⟩)
    rw [hattach]
    rfl

theorem beginOperation_full
    (h : (t.beginOperation cfg now id direction m).2 = .refused e) (he : WantsCapacity e) :
    t.Full cfg ∧ (deferredRequest m.kind = true ∨ m.kind = .cancel) := by
  revert h
  fun_cases beginOperation cfg t now id direction m with
  | case1 hcancel u e' hadd =>
    intro _
    refine ⟨.inr ?_, .inr hcancel⟩
    unfold addTombstone at hadd
    split at hadd
    · rename_i hfull
      exact hfull.2.2
    · cases hadd
  | case2 | case8 => rintro ⟨⟩
  | case3 =>
    rintro ⟨⟩
    exact absurd he Bool.false_ne_true
  | case4 _ hbegins hfull =>
    exact fun _ => ⟨.inl hfull, .inl (deferredRequest_of_begins hbegins)⟩
  | case5 _ hbegins _ hfull =>
    exact fun _ => ⟨.inr hfull, .inl (deferredRequest_of_begins hbegins)⟩
  | case6 _ _ _ _ e' hnew =>
    rintro ⟨⟩
    exact absurd he (newOperationAuthority_error hnew)
  | case7 _ _ _ _ authority _ u e' hadmitted =>
    rintro ⟨⟩
    exact absurd he (admitPeerAttempt_error (congrArg Prod.snd hadmitted))

theorem observePruned_full
    (h : (t.observePruned cfg now direction m).2 = .refused e) (he : WantsCapacity e) :
    t.Full cfg ∧ (deferredRequest m.kind = true ∨ m.kind = .cancel) := by
  revert h
  fun_cases observePruned cfg t now direction m with
  | case6 _ _ _ _ id _ u e' hvalidate =>
    rintro ⟨⟩
    obtain rfl | rfl := validatePeerAttempt_error hvalidate <;> exact absurd he Bool.false_ne_true
  | case7 => exact fun h => absurd he (hasRoom_observeRetired e h)
  | case8 _ _ _ _ id _ u hvalidate _ op hop =>
    exact fun h => absurd he (hasRoom_observeActive hop e h)
  | case9 => rintro ⟨⟩
  | case10 _ _ _ _ id _ u hvalidate =>
    intro h
    obtain rfl := validatePeerAttempt_pass hvalidate
    exact beginOperation_full h he
  | _ =>
    rintro ⟨⟩ <;> exact absurd he Bool.false_ne_true

/-! ### What takes capacity

A move that takes capacity gives out a new authority, so a call that gives out none takes no
capacity. -/

/-- `u` has no more operations than `t`. -/
def Shrinks (t u : Table) : Prop :=
  u.active.size ≤ t.active.size ∧
    u.active.size + u.tombstones.size ≤ t.active.size + t.tombstones.size

theorem Shrinks.refl (t : Table) : Shrinks t t := ⟨le_refl _, le_refl _⟩

theorem Shrinks.trans {v : Table} (h : Shrinks t u) (h' : Shrinks u v) : Shrinks t v :=
  ⟨h'.1.trans h.1, h'.2.trans h.2⟩

theorem Shrinks.full (h : Shrinks t u) (hfull : u.Full cfg) : t.Full cfg :=
  hfull.imp (fun h' => h'.trans h.1) (fun h' => h'.trans h.2)

theorem Framed.shrinks (h : Framed t u) : Shrinks t u := by
  unfold Shrinks
  rw [h.active, h.tombstones]
  exact ⟨le_refl _, le_refl _⟩

theorem shrinks_pruneExpired (t : Table) (now : Time) : Shrinks t (t.pruneExpired now) :=
  ⟨le_refl _, Nat.add_le_add_left (FiniteMap.size_filter_le _ _) _⟩

/-- Authorities are never taken back, and without a new one nothing grows. -/
def Sparing (t u : Table) : Prop :=
  t.authorities.length ≤ u.authorities.length ∧
    (u.authorities.length = t.authorities.length → Shrinks t u)

theorem Framed.sparing (h : Framed t u) : Sparing t u := ⟨h.length.ge, fun _ => h.shrinks⟩

theorem Sparing.trans {v : Table} (h : Sparing t u) (h' : Sparing u v) : Sparing t v := by
  refine ⟨h.1.trans h'.1, fun hlength => ?_⟩
  have hle := h.1
  have hle' := h'.1
  exact (h.2 (by omega)).trans (h'.2 (by omega))

theorem Move.sparing (h : Move cfg expiry t u) : Sparing t u := by
  cases h with
  | prune now => exact ⟨le_refl _, fun _ => shrinks_pruneExpired t now⟩
  | peers => exact ⟨le_refl _, fun _ => .refl t⟩
  | annotate a f hpins => exact (framed_modifyAuthority t a hpins).sparing
  | begin | preempt =>
    refine ⟨by simp, fun hlength => ?_⟩
    simp at hlength
  | finish id op tombstone hop htombstone =>
    have hactive : (t.active.erase id).size + 1 = t.active.size :=
      FiniteMap.size_erase_of_some hop
    have htombstones : (t.tombstones.insert id tombstone).size = t.tombstones.size + 1 :=
      FiniteMap.size_insert_of_none htombstone
    have hmaps : Sparing t
        { t with
          active := t.active.erase id
          tombstones := t.tombstones.insert id tombstone } := by
      refine ⟨le_refl _, fun _ => ⟨?_, ?_⟩⟩
      · change (t.active.erase id).size ≤ t.active.size
        omega
      · change (t.active.erase id).size + (t.tombstones.insert id tombstone).size ≤ _
        omega
    exact hmaps.trans (framed_clearContinuationReplay _ op.authority).sparing
  | answer id op digest hop =>
    refine ⟨le_refl _, fun _ => ⟨?_, ?_⟩⟩
    · exact (FiniteMap.size_insert_of_some hop).le
    · exact Nat.add_le_add_right (FiniteMap.size_insert_of_some hop).le _
  | amend id tombstone amended htombstone =>
    refine ⟨le_refl _, fun _ => ⟨le_refl _, ?_⟩⟩
    exact Nat.add_le_add_left (FiniteMap.size_insert_of_some htombstone).le _
  | bind id tombstone =>
    refine (framed_modifyAuthority t tombstone.authority ?_).sparing
    exact fun _ => rfl
  | reserve a state hstate direction key f =>
    exact (framed_reserveContinuation t a state direction key f).sparing
  | settle index commit => exact (framed_settle t index commit).sparing
  | pin =>
    exact ⟨(List.length_modify _ _ _).ge, fun _ => .refl t⟩

theorem Moves.sparing (h : Moves cfg expiry t u) : Sparing t u := by
  induction h with
  | refl => exact ⟨le_refl _, fun _ => .refl t⟩
  | tail _ hmove ih => exact ih.trans hmove.sparing

theorem Effect.sparing (h : Effect cfg expiry t u) : Sparing t u := by
  cases h with
  | moves h => exact h.sparing
  | release h =>
    exact h.sparing.trans ⟨(List.length_modify _ _ _).ge, fun _ => .refl _⟩
  | terminate h =>
    exact h.sparing.trans ⟨le_refl _, fun _ => ⟨Nat.zero_le _, Nat.zero_le _⟩⟩

/-! ### The calls of the others -/

/-- `u` has the authorities of `t`, whatever became of them. -/
def GivesNone (t u : Table) : Prop := u.authorities.length = t.authorities.length

theorem GivesNone.trans {v : Table} (h : GivesNone t u) (h' : GivesNone u v) : GivesNone t v :=
  Eq.trans h' h

end Windshare.Operation.Table
