import Windshare.Operation.Calls

/-!
# What a call can do

What the table does with a message is a sequence of a few kinds of moves: tombstones
expire, an operation begins or finishes, a tombstone is made or amended, a
continuation is reserved or settled, an authority is pinned. Each move says what it
needs and what it changes, and every function of the model is shown once to make only
such moves. Invariants are then proved move by move.
-/

namespace Windshare.Operation

open Windshare.Library Windshare.Session

namespace Table

/-- The two ways to reserve a continuation in a direction. -/
def Reserves (reserve : ReserveRule) : Prop :=
  reserve = ContinuationDirection.reserveActive ∨ reserve = ContinuationDirection.reserveReplay

/-- Some entry of operation `id`, active or retired, has authority `a`. -/
def Owns (t : Table) (id : OperationID) (a : Nat) : Prop :=
  (∃ op, t.active.get? id = some op ∧ op.authority = a) ∨
    ∃ tombstone, t.tombstones.get? id = some tombstone ∧ tombstone.authority = a

/-- A move. It neither gives a pin back nor ends the session, and tombstones expire at a
time in `expiry` only. -/
inductive Move (cfg : Config) (expiry : List Time) (t : Table) : Table → Prop
  | prune (now : Time) (hnow : now ∈ expiry) : Move cfg expiry t (t.pruneExpired now)
  | peers (slots : FiniteMap UInt8 PeerSlot) : Move cfg expiry t { t with peerSlots := slots }
  | annotate (a : Nat) (f : Authority → Authority) (hpins : ∀ x, (f x).pins = x.pins)
      (hcontinuations : ∀ x, (f x).continuations = x.continuations) :
      Move cfg expiry t (t.modifyAuthority a f)
  | begin (id : OperationID) (op : ActiveOperation) (authority : Authority)
      (hterminal : t.terminal = false) (hactive : t.active.get? id = none)
      (htombstone : t.tombstones.get? id = none) (hroom : t.active.size < cfg.limits.maxActive)
      (htracked : t.active.size + t.tombstones.size < cfg.limits.maxTracked)
      (hauthority : op.authority = t.authorities.length) (hpins : authority.pins = 0) :
      Move cfg expiry t
        { t with
          active := t.active.insert id op
          authorities := t.authorities ++ [authority] }
  | preempt (id : OperationID) (tombstone : Tombstone) (hterminal : t.terminal = false)
      (hactive : t.active.get? id = none) (htombstone : t.tombstones.get? id = none)
      (htracked : t.active.size + t.tombstones.size < cfg.limits.maxTracked)
      (hauthority : tombstone.authority = t.authorities.length) :
      Move cfg expiry t
        { t with
          tombstones := t.tombstones.insert id tombstone
          authorities := t.authorities ++ [{}] }
  | finish (id : OperationID) (op : ActiveOperation) (tombstone : Tombstone)
      (hop : t.active.get? id = some op) (htombstone : t.tombstones.get? id = none)
      (hauthority : tombstone.authority = op.authority) :
      Move cfg expiry t
        ({ t with
          active := t.active.erase id
          tombstones := t.tombstones.insert id tombstone }.clearContinuationReplay op.authority)
  | answer (id : OperationID) (op : ActiveOperation) (digest : Digest)
      (hop : t.active.get? id = some op) :
      Move cfg expiry t { t with active := t.active.insert id { op with answer := some digest } }
  | amend (id : OperationID) (tombstone amended : Tombstone)
      (htombstone : t.tombstones.get? id = some tombstone)
      (hauthority : amended.authority = tombstone.authority)
      (hexpires : tombstone.expiresAt ≤ amended.expiresAt)
      (hfinal : tombstone.finalKind = .cancel ∨
        amended.finalKind = tombstone.finalKind ∧ amended.fingerprint = tombstone.fingerprint) :
      Move cfg expiry t { t with tombstones := t.tombstones.insert id amended }
  | bind (id : OperationID) (tombstone : Tombstone)
      (htombstone : t.tombstones.get? id = some tombstone)
      (continuations : Option ContinuationState) :
      Move cfg expiry t (t.modifyAuthority tombstone.authority fun existing =>
          { existing with continuations, deferredContinuationScope := none })
  | reserve (a : Nat) (state : ContinuationState)
      (hstate : (t.authorityAt a).continuations = some state) (direction : Direction)
      (key : ContinuationKey) (f : ReserveRule) (hf : Reserves f) :
      Move cfg expiry t (t.reserveContinuation a state direction key f).1
  | settle (index : Nat) (commit : Bool) : Move cfg expiry t (t.settle index commit)
  | pin (id : OperationID) (a : Nat) (refresh : Bool) (howner : t.Owns id a)
      (hpins : (t.authorityAt a).pins < maximumOperationPins) :
      Move cfg expiry t (t.pin id a refresh)

/-- A sequence of moves. -/
def Moves (cfg : Config) (expiry : List Time) : Table → Table → Prop :=
  Relation.ReflTransGen (Move cfg expiry)

variable {cfg : Config} {expiry : List Time} {t u v : Table}

theorem Moves.refl (t : Table) : Moves cfg expiry t t := Relation.ReflTransGen.refl

theorem Moves.trans (h : Moves cfg expiry t u) (h' : Moves cfg expiry u v) :
    Moves cfg expiry t v := Relation.ReflTransGen.trans h h'

theorem Move.single (h : Move cfg expiry t u) : Moves cfg expiry t u :=
  Relation.ReflTransGen.single h

/-- A relation that is reflexive, transitive and contains every move contains every
sequence of moves. -/
theorem Moves.stable {P : Table → Prop} (h : Moves cfg expiry t u) (ht : P t)
    (keep : ∀ t u, P t → Move cfg expiry t u → P u) : P u := by
  induction h with
  | refl => exact ht
  | tail _ hmove ih => exact keep _ _ ih hmove

/-- `u` has the maps, the pins and the pin counters of `t`. -/
structure Framed (t u : Table) : Prop where
  active : u.active = t.active
  tombstones : u.tombstones = t.tombstones
  terminal : u.terminal = t.terminal
  pins : u.pins = t.pins
  length : u.authorities.length = t.authorities.length
  counter : ∀ a, (u.authorityAt a).pins = (t.authorityAt a).pins

theorem Framed.refl (t : Table) : Framed t t := ⟨rfl, rfl, rfl, rfl, rfl, fun _ => rfl⟩

theorem framed_modifyAuthority (t : Table) (a : Nat) {f : Authority → Authority}
    (hpins : ∀ x, (f x).pins = x.pins) : Framed t (t.modifyAuthority a f) where
  active := rfl
  tombstones := rfl
  terminal := rfl
  pins := rfl
  length := List.length_modify ..
  counter b := t.authorityAt_modifyAuthority_of_eq Authority.pins a b hpins

theorem framed_clearContinuationReplay (t : Table) (a : Nat) :
    Framed t (t.clearContinuationReplay a) := framed_modifyAuthority t a fun _ => rfl

variable {id : OperationID} {op : ActiveOperation} {tombstone : Tombstone} {m : Message}

theorem owns_of_operationAuthority {a : Nat}
    (h : t.operationAuthority id = some a) : t.Owns id a := by
  unfold operationAuthority at h
  split at h
  · rename_i op hop
    exact .inl ⟨op, hop, Option.some.inj h⟩
  · obtain ⟨tombstone, htombstone, rfl⟩ := Option.map_eq_some_iff.mp h
    exact .inr ⟨tombstone, htombstone, rfl⟩

/-! ### Authorities and peer attempts -/

theorem framed_recordSenderOperationViolation (t : Table) (a : Nat) (direction : Direction)
    (code : ViolationCode) : Framed t (t.recordSenderOperationViolation a direction code) := by
  unfold recordSenderOperationViolation
  split
  · exact framed_modifyAuthority t a fun _ => rfl
  · exact .refl t

theorem moves_recordSenderOperationViolation (t : Table) (a : Nat) (direction : Direction)
    (code : ViolationCode) :
    Moves cfg expiry t (t.recordSenderOperationViolation a direction code) := by
  unfold recordSenderOperationViolation
  split
  · refine (Move.annotate a _ ?_ ?_).single <;> exact fun _ => rfl
  · exact .refl t

theorem admitPeerAttempt_eq (t : Table) (authority : Authority) :
    ∃ slots, (t.admitPeerAttempt authority).1 = { t with peerSlots := slots } := by
  unfold admitPeerAttempt
  split
  · exact ⟨t.peerSlots, rfl⟩
  · split
    · exact ⟨t.peerSlots, rfl⟩
    · dsimp only
      split <;> exact ⟨_, rfl⟩

theorem retirePeerAttempt_eq (t : Table) (authority : Authority) :
    ∃ slots, t.retirePeerAttempt authority = { t with peerSlots := slots } := by
  unfold retirePeerAttempt
  split
  · exact ⟨t.peerSlots, rfl⟩
  · split
    · exact ⟨t.peerSlots, rfl⟩
    · exact ⟨_, rfl⟩

theorem moves_validatePeerAttempt (t : Table) (a : Option Nat) (direction : Direction)
    (m : Message) : Moves cfg expiry t (t.validatePeerAttempt cfg a direction m).1 := by
  fun_cases validatePeerAttempt cfg t a direction m with
  | case5 => exact moves_recordSenderOperationViolation t _ _ _
  | _ => exact .refl t

theorem framed_validatePeerAttempt (t : Table) (a : Option Nat) (direction : Direction)
    (m : Message) : Framed t (t.validatePeerAttempt cfg a direction m).1 := by
  fun_cases validatePeerAttempt cfg t a direction m with
  | case5 => exact framed_recordSenderOperationViolation t _ _ _
  | _ => exact .refl t

/-! ### Beginning and finishing operations -/

theorem moves_addTombstone_fresh (hterminal : t.terminal = false)
    (hactive : t.active.get? id = none) (htombstone : t.tombstones.get? id = none) (now : Time)
    (direction : Direction) (m : Message) (cancelled : Bool) (requestKind : Option MessageKind)
    (requestFingerprint : Digest) :
    Moves cfg expiry t (t.addTombstone cfg now id direction m cancelled requestKind
      requestFingerprint none).1 := by
  unfold addTombstone
  split
  · exact .refl t
  · rename_i hroom
    have htracked : t.active.size + t.tombstones.size < cfg.limits.maxTracked :=
      Nat.lt_of_not_le fun h => hroom ⟨htombstone, hactive, h⟩
    exact (Move.preempt id _ hterminal hactive htombstone htracked rfl).single

theorem finishOperation_eq (cfg : Config)
    (hop : t.active.get? id = some op) (now : Time) (direction : Direction) (m : Message)
    (cancelled : Bool) :
    ∃ slots, t.finishOperation cfg now id op direction m cancelled =
      ({ t with
        peerSlots := slots
        active := t.active.erase id
        tombstones := t.tombstones.insert id
          (newTombstone cfg now direction m cancelled (some op.requestKind) op.requestFingerprint
            op.authority) }.clearContinuationReplay op.authority, none) := by
  have hadd : t.addTombstone cfg now id direction m cancelled (some op.requestKind)
      op.requestFingerprint (some op.authority) =
        ({ t with
          tombstones := t.tombstones.insert id
            (newTombstone cfg now direction m cancelled (some op.requestKind)
              op.requestFingerprint op.authority) }, none) := by
    unfold addTombstone
    rw [if_neg (by rw [hop]; rintro ⟨-, h, -⟩; cases h)]
  unfold finishOperation
  rw [hadd]
  dsimp only
  generalize newTombstone cfg now direction m cancelled (some op.requestKind)
    op.requestFingerprint op.authority = tombstone
  obtain ⟨slots, hslots⟩ := retirePeerAttempt_eq
    { t with tombstones := t.tombstones.insert id tombstone }
    (authorityAt { t with tombstones := t.tombstones.insert id tombstone } op.authority)
  rw [hslots]
  exact ⟨slots, rfl⟩

theorem moves_finishOperation
    (hop : t.active.get? id = some op) (htombstone : t.tombstones.get? id = none) (now : Time)
    (direction : Direction) (m : Message) (cancelled : Bool) :
    Moves cfg expiry t (t.finishOperation cfg now id op direction m cancelled).1 := by
  obtain ⟨slots, hfinish⟩ := finishOperation_eq cfg hop now direction m cancelled
  rw [hfinish]
  exact (Move.peers slots).single.trans
    (Move.finish (t := { t with peerSlots := slots }) id op _ hop htombstone rfl).single

theorem newOperationAuthority_pins {authority : Authority}
    (h : newOperationAuthority cfg m = .ok authority) : authority.pins = 0 := by
  revert h
  fun_cases newOperationAuthority cfg m <;> first | (rintro ⟨⟩; rfl) | (rintro ⟨⟩)

theorem moves_beginOperation (hterminal : t.terminal = false)
    (hactive : t.active.get? id = none) (htombstone : t.tombstones.get? id = none) (now : Time)
    (direction : Direction) (m : Message) :
    Moves cfg expiry t (t.beginOperation cfg now id direction m).1 := by
  have hadd : Moves cfg expiry t
      (t.addTombstone cfg now id direction m true none zeroDigest none).1 :=
    moves_addTombstone_fresh hterminal hactive htombstone now direction m true none zeroDigest
  unfold beginOperation
  split
  · split <;> rename_i heq <;> rw [heq] at hadd <;> exact hadd
  split
  · exact .refl t
  split
  · exact .refl t
  split
  · exact .refl t
  rename_i hroom htracked
  split
  · exact .refl t
  rename_i authority hnew
  obtain ⟨slots, hslots⟩ := admitPeerAttempt_eq t authority
  split
  all_goals
    rename_i heq
    rw [heq] at hslots
    cases hslots
  · exact (Move.peers slots).single
  · refine (Move.peers slots).single.trans (Move.single ?_)
    exact Move.begin (t := { t with peerSlots := slots }) id _ authority hterminal hactive
      htombstone (Nat.lt_of_not_le hroom) (Nat.lt_of_not_le htracked) rfl
      (newOperationAuthority_pins hnew)

/-! ### Active operations -/

theorem moves_observePeerAnswer
    (hop : t.active.get? id = some op) (direction : Direction) (m : Message) :
    Moves cfg expiry t (t.observePeerAnswer cfg id op direction m).1 := by
  unfold observePeerAnswer
  dsimp only
  split
  · exact (Move.answer id op _ hop).single
  · split
    · exact .refl t
    · exact moves_recordSenderOperationViolation t _ _ _

theorem moves_advanceOperation
    (hop : t.active.get? id = some op) (htombstone : t.tombstones.get? id = none) (now : Time)
    (direction : Direction) (m : Message) :
    Moves cfg expiry t (t.advanceOperation cfg now id op direction m).1 := by
  have hfinish (cancelled : Bool) :
      Moves cfg expiry t (t.finishOperation cfg now id op direction m cancelled).1 :=
    moves_finishOperation hop htombstone now direction m cancelled
  unfold advanceOperation
  split
  · have hcancel := hfinish true
    split <;> rename_i heq <;> rw [heq] at hcancel <;> exact hcancel
  split
  · split <;> exact .refl t
  split
  · exact .refl t
  split
  · exact .refl t
  split
  · have hfinal := hfinish false
    split <;> rename_i heq <;> rw [heq] at hfinal <;> exact hfinal
  split
  · exact moves_observePeerAnswer hop direction m
  · exact .refl t

theorem framed_setDirection (t : Table) (a : Nat) (state : ContinuationState)
    (direction : Direction) (current : ContinuationDirection) :
    Framed t (t.setDirection a state direction current) :=
  framed_modifyAuthority t a fun _ => rfl

theorem framed_reserveContinuation (t : Table) (a : Nat) (state : ContinuationState)
    (direction : Direction) (key : ContinuationKey) (f : ReserveRule) :
    Framed t (t.reserveContinuation a state direction key f).1 := by
  have hset := framed_setDirection t a state direction
    (f (state.direction direction) state.contract.maximum key t.reservations.length).1
  unfold reserveContinuation
  dsimp only
  split <;> exact ⟨rfl, rfl, rfl, rfl, hset.length, hset.counter⟩

theorem framed_reserveActiveContinuation (cfg : Config) (t : Table) (a : Nat)
    (direction : Direction) (m : Message) :
    Framed t (t.reserveActiveContinuation cfg a direction m).1 := by
  unfold reserveActiveContinuation
  split
  · exact .refl t
  split
  · exact .refl t
  · exact .refl t
  · exact framed_recordSenderOperationViolation t _ _ _
  · exact framed_reserveContinuation t _ _ _ _ _

theorem moves_reserveActiveContinuation (t : Table) (a : Nat) (direction : Direction)
    (m : Message) : Moves cfg expiry t (t.reserveActiveContinuation cfg a direction m).1 := by
  unfold reserveActiveContinuation
  split
  · exact .refl t
  rename_i state hstate
  split
  · exact .refl t
  · exact .refl t
  · exact moves_recordSenderOperationViolation t _ _ _
  · exact (Move.reserve a state hstate direction _ _ (.inl rfl)).single

theorem moves_observeActive
    (hop : t.active.get? id = some op) (htombstone : t.tombstones.get? id = none) (now : Time)
    (direction : Direction) (m : Message) :
    Moves cfg expiry t (t.observeActive cfg now id op direction m).1 := by
  have hadvance : Moves cfg expiry t (t.advanceOperation cfg now id op direction m).1 :=
    moves_advanceOperation hop htombstone now direction m
  unfold observeActive
  split
  · rename_i u _ heq
    rw [heq] at hadvance
    have hreserve : Moves cfg expiry u
        (u.reserveActiveContinuation cfg op.authority direction m).1 :=
      moves_reserveActiveContinuation u op.authority direction m
    split <;> rename_i heq' <;> rw [heq'] at hreserve <;> exact hadvance.trans hreserve
  · rename_i heq
    rw [heq] at hadvance
    exact hadvance

/-! ### Tombstones -/

theorem moves_acceptLateContinuation (t : Table) (a : Nat) (direction : Direction)
    (m : Message) : Moves cfg expiry t (t.acceptLateContinuation cfg a direction m).1 := by
  fun_cases acceptLateContinuation cfg t a direction m with
  | case4 => exact moves_recordSenderOperationViolation t _ _ _
  | _ => exact .refl t

theorem moves_acceptUnboundLateContinuation (t : Table) (a : Nat) (direction : Direction)
    (m : Message) :
    Moves cfg expiry t (t.acceptUnboundLateContinuation cfg a direction m).1 := by
  fun_cases acceptUnboundLateContinuation cfg t a direction m with
  | case4 | case6 => exact moves_recordSenderOperationViolation t _ _ _
  | case7 => refine (Move.annotate a _ ?_ ?_).single <;> exact fun _ => rfl
  | _ => exact .refl t

section

variable (htombstone : t.tombstones.get? id = some tombstone)

include htombstone

theorem moves_bindPreemptivelyCancelledRequest
    (direction : Direction) (m : Message)
    (isRequest : Bool) :
    Moves cfg expiry t
      (t.bindPreemptivelyCancelledRequest cfg id tombstone direction m isRequest).1 := by
  unfold bindPreemptivelyCancelledRequest
  split
  · exact .refl t
  split
  · exact .refl t
  rename_i authority _
  split
  · exact moves_recordSenderOperationViolation t _ _ _
  obtain ⟨slots, hslots⟩ := admitPeerAttempt_eq t authority
  split
  all_goals
    rename_i heq
    rw [heq] at hslots
    cases hslots
  · exact (Move.peers slots).single
  · obtain ⟨slots', hslots'⟩ := retirePeerAttempt_eq { t with peerSlots := slots } authority
    rw [hslots']
    refine (Move.peers slots').single.trans ?_
    refine (Move.bind (t := { t with peerSlots := slots' }) id tombstone htombstone
      authority.continuations).single.trans (Move.single ?_)
    exact Move.amend id tombstone _ htombstone rfl (Nat.le_refl _) (.inr ⟨rfl, rfl⟩)

theorem moves_observeCancelledTombstone
    (direction : Direction) (m : Message) :
    Moves cfg expiry t (t.observeCancelledTombstone cfg id tombstone direction m).1 := by
  unfold observeCancelledTombstone
  dsimp only
  split
  · exact moves_bindPreemptivelyCancelledRequest htombstone direction m _
  split
  · split <;> exact .refl t
  split
  · exact .refl t
  split
  · split
    · rename_i hcancel
      refine (Move.amend id tombstone _ htombstone ?_ ?_ (.inl hcancel)).single
      · rfl
      · exact Nat.le_refl _
    split
    · exact moves_recordSenderOperationViolation t _ _ _
    · exact .refl t
  · exact .refl t

theorem moves_observeTombstone
    (direction : Direction) (m : Message) :
    Moves cfg expiry t (t.observeTombstone cfg id tombstone direction m).1 := by
  unfold observeTombstone
  dsimp only
  split
  · exact .refl t
  split
  · exact moves_observeCancelledTombstone htombstone direction m
  split
  · split <;> exact .refl t
  split
  · split
    · exact .refl t
    · exact moves_recordSenderOperationViolation t _ _ _
  split <;> exact .refl t

end

theorem framed_acceptLateContinuation (t : Table) (a : Nat) (direction : Direction)
    (m : Message) : Framed t (t.acceptLateContinuation cfg a direction m).1 := by
  fun_cases acceptLateContinuation cfg t a direction m with
  | case4 => exact framed_recordSenderOperationViolation t _ _ _
  | _ => exact .refl t

theorem framed_acceptUnboundLateContinuation (t : Table) (a : Nat) (direction : Direction)
    (m : Message) : Framed t (t.acceptUnboundLateContinuation cfg a direction m).1 := by
  fun_cases acceptUnboundLateContinuation cfg t a direction m with
  | case4 | case6 => exact framed_recordSenderOperationViolation t _ _ _
  | case7 => exact framed_modifyAuthority t a fun _ => rfl
  | _ => exact .refl t

theorem moves_observeRetired
    (htombstone : t.tombstones.get? id = some tombstone) (direction : Direction) (m : Message) :
    Moves cfg expiry t (t.observeRetired cfg id tombstone direction m).1 := by
  have hlate : Moves cfg expiry t
      (t.acceptLateContinuation cfg tombstone.authority direction m).1 :=
    moves_acceptLateContinuation t tombstone.authority direction m
  have hframed : Framed t (t.acceptLateContinuation cfg tombstone.authority direction m).1 :=
    framed_acceptLateContinuation t tombstone.authority direction m
  unfold observeRetired
  split
  · rename_i heq
    rw [heq] at hlate
    exact hlate
  rename_i u heq
  rw [heq] at hlate hframed
  refine hlate.trans ?_
  have htombstone' : u.tombstones.get? id = some tombstone := by
    rw [hframed.tombstones, htombstone]
  split
  · have hunbound : Moves cfg expiry u
        (u.acceptUnboundLateContinuation cfg tombstone.authority direction m).1 :=
      moves_acceptUnboundLateContinuation u tombstone.authority direction m
    have hframed' : Framed u
        (u.acceptUnboundLateContinuation cfg tombstone.authority direction m).1 :=
      framed_acceptUnboundLateContinuation u tombstone.authority direction m
    split
    · rename_i heq'
      rw [heq'] at hunbound
      exact hunbound
    · rename_i heq'
      rw [heq'] at hunbound hframed'
      exact hunbound.trans
        (moves_observeTombstone (by rw [hframed'.tombstones, htombstone']) direction m)
  · exact moves_observeTombstone htombstone' direction m

/-! ### Calls -/

theorem moves_observePruned (t : Table) (now : Time) (direction : Direction)
    (hid : m.operationID = some id) :
    Moves cfg expiry t (t.observePruned cfg now direction m).1 := by
  obtain ⟨hkind, hcontrol⟩ := m.kind_of_operationID hid
  unfold observePruned
  split
  · exact .refl t
  rename_i hterminal
  split
  · exact .refl t
  simp only [hcontrol, Bool.false_eq_true, if_false, hid]
  have hvalidate : Moves cfg expiry t
      (t.validatePeerAttempt cfg (t.operationAuthority id) direction m).1 :=
    moves_validatePeerAttempt t (t.operationAuthority id) direction m
  have hframed : Framed t (t.validatePeerAttempt cfg (t.operationAuthority id) direction m).1 :=
    framed_validatePeerAttempt t (t.operationAuthority id) direction m
  split
  · rename_i heq
    rw [heq] at hvalidate
    exact hvalidate
  rename_i u heq
  rw [heq] at hvalidate hframed
  refine hvalidate.trans ?_
  have hterminal' : u.terminal = false := by
    rw [hframed.terminal]
    simpa using hterminal
  split
  · rename_i tombstone htombstone
    exact moves_observeRetired htombstone direction m
  rename_i htombstone
  split
  · rename_i op hop
    exact moves_observeActive hop htombstone now direction m
  rename_i hactive
  split
  · exact .refl u
  · exact moves_beginOperation hterminal' hactive htombstone now direction m

/-- A message without an operation changes nothing or ends the session. -/
theorem observePruned_sessionless (t : Table) (now : Time) (direction : Direction)
    (hid : m.operationID = none) :
    (∃ v, t.observePruned cfg now direction m = (t, v) ∧ ∀ index, v ≠ .delivered (some index)) ∨
      t.observePruned cfg now direction m = (t.terminate, .sessionTerminal) := by
  unfold observePruned
  split
  · exact .inl ⟨_, rfl, fun _ h => by cases h⟩
  split
  · exact .inl ⟨_, rfl, fun _ h => by cases h⟩
  split
  · exact .inl ⟨_, rfl, fun _ h => by cases h⟩
  split
  · exact .inr rfl
  · rw [hid]
    exact .inl ⟨_, rfl, fun _ h => by cases h⟩

theorem observeInbound_eq (t : Table) (pruneAt now : Time) (direction : Direction)
    (m : Message) :
    (t.observeInbound cfg pruneAt now direction m).1 =
      (t.observeAdmission cfg pruneAt now direction m).1 := by
  unfold observeInbound
  split
  · rename_i heq
    rw [heq]
    split
    · rfl
    · split <;> rfl
  · rename_i heq
    rw [heq]

end Table

end Windshare.Operation
