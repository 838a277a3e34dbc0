import Windshare.Operation.Outcome

/-!
# The effect of a call

A call first lets tombstones expire and then makes a sequence of moves, after which
`release` gives a pin back and a terminal message or `TerminateLocal` ends the session.
-/

namespace Windshare.Operation

open Windshare.Library Windshare.Session

namespace Table

variable {cfg : Config} {expiry : List Time} {t u : Table} {direction : Direction} {m : Message}

/-- Give the pin at `index` back. -/
def unpin (t : Table) (index : Nat) (p : Pin) : Table :=
  { t.modifyAuthority p.authority fun authority =>
      { authority with
        pins := if authority.pins > 0 then authority.pins - 1 else authority.pins } with
    pins := t.pins.set index { p with released := true } }

/-- What a call does to the table. -/
inductive Effect (cfg : Config) (expiry : List Time) (t : Table) : Table → Prop
  | moves {u : Table} (h : Moves cfg expiry t u) : Effect cfg expiry t u
  | release {u : Table} {index : Nat} {p : Pin} (h : Moves cfg expiry t u)
      (hpin : u.pins[index]? = some p) (hheld : p.released = false) :
      Effect cfg expiry t (u.unpin index p)
  | terminate {u : Table} (h : Moves cfg expiry t u) : Effect cfg expiry t u.terminate

/-! ### Observing messages -/

theorem effect_observePruned (t : Table) (now : Time) (direction : Direction) (m : Message) :
    Effect cfg expiry t (t.observePruned cfg now direction m).1 := by
  cases hid : m.operationID with
  | some => exact .moves (moves_observePruned t now direction hid)
  | none =>
    obtain ⟨v, heq, -⟩ | heq : _ ∨ t.observePruned cfg now direction m = _ :=
      observePruned_sessionless t now direction hid
    · rw [heq]
      exact .moves (.refl t)
    · rw [heq]
      exact .terminate (.refl t)

theorem effect_observe (t : Table) (pruneAt now : Time) (direction : Direction) (m : Message) :
    Effect cfg expiry (t.pruneExpired pruneAt) (t.observe cfg pruneAt now direction m).1 := by
  unfold observe
  split
  · rename_i u index heq
    cases hid : m.operationID with
    | some =>
      have hmoves : Moves cfg expiry (t.pruneExpired pruneAt) _ :=
        moves_observePruned (t.pruneExpired pruneAt) now direction hid
      unfold observeAdmission at heq
      rw [heq] at hmoves
      exact .moves (hmoves.trans (Move.settle index true).single)
    | none =>
      obtain ⟨v, heq', hv⟩ | heq' : _ ∨ (t.pruneExpired pruneAt).observePruned cfg now
          direction m = _ := observePruned_sessionless _ now direction hid
      · unfold observeAdmission at heq
        rw [heq'] at heq
        cases heq
        exact absurd rfl (hv index)
      · unfold observeAdmission at heq
        rw [heq'] at heq
        cases heq
  · rename_i heq
    have heffect : Effect cfg expiry (t.pruneExpired pruneAt) _ :=
      effect_observePruned (t.pruneExpired pruneAt) now direction m
    unfold observeAdmission at heq
    rw [heq] at heffect
    exact heffect

/-! ### Outbound messages -/

variable {id : OperationID}

theorem requiresPermit_of_not_begins (hid : m.operationID = some id)
    (h : ¬ Begins direction m) : requiresPermit direction m.kind := by
  obtain ⟨-, hcontrol⟩ := m.kind_of_operationID hid
  unfold requiresPermit
  rw [hcontrol]
  cases direction with
  | senderToReceiver => rfl
  | receiverToSender =>
    have hkind : ¬ (m.kind.isRequest ∨ m.kind = .laneAttach) := fun hk => h ⟨rfl, hk⟩
    rw [not_or] at hkind
    simpa using hkind

theorem effect_admitPermitted (pruneAt now : Time)
    (hroom : requiresPermit direction m.kind → ∀ id, m.operationID = some id →
      ∀ a, t.operationAuthority id = some a → (t.authorityAt a).pins < maximumOperationPins) :
    Effect cfg expiry (t.pruneExpired pruneAt)
      (t.admitPermitted cfg pruneAt now direction m).1 := by
  have heffect : Effect cfg expiry (t.pruneExpired pruneAt)
      (t.observeAdmission cfg pruneAt now direction m).1 :=
    effect_observePruned (t.pruneExpired pruneAt) now direction m
  unfold admitPermitted
  split
  · rename_i u reservation heq
    rw [heq] at heffect
    split
    · exact heffect
    rename_i id hid
    split
    · exact heffect
    rename_i a howner
    have hmoves : Moves cfg expiry (t.pruneExpired pruneAt)
        (t.observeAdmission cfg pruneAt now direction m).1 :=
      moves_observePruned (t.pruneExpired pruneAt) now direction hid
    rw [heq] at hmoves
    obtain ⟨-, hdelivered⟩ := observePruned_delivered hid heq
    obtain ⟨b, hb, hcases⟩ := hdelivered.authority
    obtain rfl : b = a := Option.some.inj (hb.symm.trans howner)
    have hpins : (u.authorityAt b).pins < maximumOperationPins := by
      obtain ⟨-, hpins⟩ | ⟨hbegins, ⟨op, hop, rfl⟩, hpins⟩ := hcases
      · rw [hpins]
        decide
      · rw [hpins]
        exact hroom (requiresPermit_of_not_begins hid hbegins) id hid op.authority
          (operationAuthority_of_active hop)
    exact .moves (hmoves.trans (Move.pin id b _ (owns_of_operationAuthority howner) hpins).single)
  · rename_i heq
    rw [heq] at heffect
    exact heffect

theorem permitVerdict_room {permit : Option OutboundOperationPermit} {a : Nat}
    (h : t.permitVerdict direction m permit = none) (hid : m.operationID = some id)
    (howner : t.operationAuthority id = some a) :
    (t.authorityAt a).pins < maximumOperationPins := by
  unfold permitVerdict at h
  rw [hid] at h
  cases permit with
  | none => cases h
  | some permit =>
    dsimp only at h
    split at h
    · cases h
    split at h
    · cases h
    rename_i hauthority
    split at h
    · cases h
    rename_i hpins
    obtain rfl : permit.authority = a :=
      Option.some.inj ((not_not.mp hauthority).symm.trans howner)
    exact UInt32.not_le.mp hpins

theorem effect_admitOutbound (t : Table) (permitAt pruneAt now : Time) (direction : Direction)
    (m : Message) (permit : Option OutboundOperationPermit) :
    Effect cfg expiry (t.pruned (.admitOutbound permitAt pruneAt now direction m permit))
      (t.admitOutbound cfg permitAt pruneAt now direction m permit).1 := by
  unfold admitOutbound pruned
  dsimp only
  split
  · cases hverdict : (t.pruneExpired permitAt).permitVerdict direction m permit with
    | some => exact .moves (.refl _)
    | none =>
      exact effect_admitPermitted pruneAt now fun _ id hid a howner =>
        permitVerdict_room hverdict hid howner
  · rename_i hfree
    exact effect_admitPermitted pruneAt now fun h => absurd h hfree

/-! ### Replays -/

theorem moves_replayAdmission {a : Nat} (howner : t.Owns id a) (permit : OutboundReplayPermit)
    (reservation : Option Nat) :
    Moves cfg expiry t (t.replayAdmission id a permit reservation).1 := by
  unfold replayAdmission
  split
  · exact .refl t
  · rename_i hpins
    exact (Move.pin id a false howner (UInt32.not_le.mp hpins)).single

theorem moves_reserveReplayContinuation (t : Table) (a : Nat) (direction : Direction)
    (m : Message) : Moves cfg expiry t (t.reserveReplayContinuation cfg a direction m).1 := by
  unfold reserveReplayContinuation
  split
  · exact .refl t
  rename_i state hstate
  split
  · exact .refl t
  · exact .refl t
  · exact .refl t
  · exact (Move.reserve a state hstate direction _ _ (.inr rfl)).single

theorem reserveReplayContinuation_active (t : Table) (a : Nat) (direction : Direction)
    (m : Message) :
    (t.reserveReplayContinuation cfg a direction m).1.active = t.active := by
  unfold reserveReplayContinuation
  split
  · rfl
  split
  · rfl
  · rfl
  · rfl
  · exact (framed_reserveContinuation t a _ direction _ _).active

theorem moves_acceptTombstoneReplay {tombstone : Tombstone}
    (htombstone : t.tombstones.get? id = some tombstone) (direction : Direction)
    (m : Message) (permit : OutboundReplayPermit) :
    Moves cfg expiry t (t.acceptTombstoneReplay cfg id tombstone direction m permit).1 := by
  have hreplay : Moves cfg expiry t (t.replayAdmission id tombstone.authority permit none).1 :=
    moves_replayAdmission (.inr ⟨tombstone, htombstone, rfl⟩) permit none
  unfold acceptTombstoneReplay
  split
  · exact .refl t
  split
  · exact .refl t
  split
  · exact .refl t
  split
  · exact hreplay
  split
  · exact .refl t
  split
  · exact .refl t
  · exact hreplay

theorem moves_acceptActiveReplay {op : ActiveOperation}
    (hop : t.active.get? id = some op) (direction : Direction) (m : Message)
    (permit : OutboundReplayPermit) :
    Moves cfg expiry t (t.acceptActiveReplay cfg id op direction m permit).1 := by
  have hreplay (u : Table) (hu : u.active = t.active) (reservation : Option Nat) :
      Moves cfg expiry u (u.replayAdmission id op.authority permit reservation).1 :=
    moves_replayAdmission (.inl ⟨op, by rw [hu]; exact hop, rfl⟩) permit reservation
  have hreserve : Moves cfg expiry t (t.reserveReplayContinuation cfg op.authority direction m).1 :=
    moves_reserveReplayContinuation t op.authority direction m
  have hactive : (t.reserveReplayContinuation cfg op.authority direction m).1.active = t.active :=
    reserveReplayContinuation_active t op.authority direction m
  unfold acceptActiveReplay
  split
  · exact .refl t
  split
  · split
    · exact .refl t
    · exact hreplay t rfl none
  split
  · exact .refl t
  split
  · exact .refl t
  split <;> rename_i heq <;> rw [heq] at hreserve hactive
  · exact hreserve
  · exact hreserve
  · exact hreserve.trans (hreplay _ hactive none)
  · exact hreserve.trans (hreplay _ hactive _)

theorem moves_acceptOutboundReplay (t : Table) (pruneAt : Time) (direction : Direction)
    (m : Message) (permit : Option OutboundReplayPermit) :
    Moves cfg expiry (t.pruneExpired pruneAt)
      (t.acceptOutboundReplay cfg pruneAt direction m permit).1 := by
  unfold acceptOutboundReplay
  dsimp only
  split
  · exact .refl _
  split
  · split
    · exact .refl _
    split
    · rename_i htombstone
      exact moves_acceptTombstoneReplay htombstone direction m _
    split
    · exact .refl _
    rename_i hop
    split
    · exact .refl _
    · exact moves_acceptActiveReplay hop direction m _
  · exact .refl _

/-! ### Termination, cancellation, leases and violations -/

theorem moves_cancelGeneration (t : Table) (pruneAt now : Time)
    (generation : Option OperationGeneration) :
    Moves cfg expiry (t.pruned (.cancelGeneration pruneAt now generation))
      (t.cancelGeneration pruneAt now generation).1 := by
  unfold cancelGeneration pruned
  cases generation with
  | none => simpa using .refl t
  | some generation =>
    obtain ⟨a, id⟩ := generation
    by_cases hid : id.isZero = true
    · simpa [hid] using .refl t
    by_cases hterminal : t.terminal = true
    · simpa [hterminal, hid] using .refl t
    dsimp only
    rw [if_neg hid, if_neg hterminal, if_neg (by simpa [hid] using hterminal)]
    generalize t.pruneExpired pruneAt = t
    split
    · exact .refl t
    rename_i htombstone
    split
    · exact .refl t
    rename_i op hop
    split
    · exact .refl t
    rename_i hauthority
    obtain rfl := not_not.mp hauthority
    obtain ⟨slots, hslots⟩ := retirePeerAttempt_eq t (t.authorityAt op.authority)
    rw [hslots]
    refine (Move.peers slots).single.trans (Move.single ?_)
    exact Move.finish (t := { t with peerSlots := slots }) id op _ hop
      (by simpa using htombstone) rfl

theorem moves_acquireLease (t : Table) (pruneAt : Time) (permit : OutboundOperationPermit) :
    Moves cfg expiry (t.pruned (.acquireLease pruneAt permit))
      (t.acquireLease pruneAt permit).1 := by
  unfold acquireLease pruned
  dsimp only
  split
  · exact .refl t
  split
  · exact .refl _
  rename_i howner
  split
  · exact .refl _
  rename_i hpins
  exact (Move.pin _ _ true (owns_of_operationAuthority (not_not.mp howner))
    (UInt32.not_le.mp hpins)).single

theorem moves_recordAuthenticatedOperationViolation (t : Table) (pruneAt : Time) (m : Message)
    (code : ViolationCode) :
    Moves cfg expiry (t.pruned (.recordViolation pruneAt m code))
      (t.recordAuthenticatedOperationViolation pruneAt m code).1 := by
  unfold recordAuthenticatedOperationViolation pruned
  by_cases hmatch : (!code.matchesAuthenticatedMessage m) = true
  · simpa [hmatch] using .refl t
  cases hid : m.operationID with
  | none => simpa [hid] using .refl t
  | some =>
    dsimp only
    rw [if_neg hmatch, if_neg (by simpa [hid] using hmatch)]
    split
    · exact .refl _
    rename_i a _
    split
    · exact .refl _
    · exact moves_recordSenderOperationViolation (t.pruneExpired pruneAt) a .senderToReceiver code

theorem moves_capacity (t : Table) (pruneAt now : Time) :
    Moves cfg expiry (t.pruned (.capacity pruneAt now)) (t.capacity cfg pruneAt now).1 := by
  unfold capacity pruned
  dsimp only
  split
  · exact .refl t
  split <;> exact .refl _

/-! ### Releasing a pin -/

theorem moves_refreshTombstone (t : Table) (now : Time) (p : Pin) :
    Moves cfg expiry t (t.refreshTombstone now p) := by
  unfold refreshTombstone
  split
  · exact .refl t
  rename_i tombstone htombstone
  split
  · rename_i hrefresh
    refine (Move.amend p.operationID tombstone _ htombstone ?_ ?_ (.inr ⟨?_, ?_⟩)).single
    · rfl
    · exact Nat.le_of_lt hrefresh.2.2
    · rfl
    · rfl
  · exact .refl t

theorem refreshTombstone_pins (t : Table) (now : Time) (p : Pin) :
    (t.refreshTombstone now p).pins = t.pins := by
  unfold refreshTombstone
  split
  · rfl
  · split <;> rfl

theorem effect_release (t : Table) (now : Time) (index : Nat) :
    Effect cfg expiry t (t.release now index) := by
  unfold release
  split
  · exact .moves (.refl t)
  rename_i p hpin
  split
  · exact .moves (.refl t)
  rename_i hheld
  have hpins := refreshTombstone_pins t now p
  exact .release (moves_refreshTombstone t now p) (by rw [hpins]; exact hpin) (by simpa using hheld)

/-- Once tombstones have expired, every call has such an effect without further expiry. -/
theorem call_effect_pruned (cfg : Config) (t : Table) (c : Call) :
    Effect cfg [] (t.pruned c) (t.call cfg c) := by
  cases c with
  | observe pruneAt now direction m => exact effect_observe t pruneAt now direction m
  | observeInbound pruneAt now direction m =>
    change Effect cfg _ _ (t.observeInbound cfg pruneAt now direction m).1
    rw [observeInbound_eq]
    exact effect_observePruned (t.pruneExpired pruneAt) now direction m
  | admitOutbound permitAt pruneAt now direction m permit =>
    exact effect_admitOutbound t permitAt pruneAt now direction m permit
  | acceptOutboundReplay pruneAt direction m permit =>
    exact .moves (moves_acceptOutboundReplay t pruneAt direction m permit)
  | terminateLocal =>
    change Effect cfg _ t t.terminateLocal.1
    unfold terminateLocal
    split
    · exact .moves (.refl t)
    · exact .terminate (.refl t)
  | cancelGeneration pruneAt now generation =>
    exact .moves (moves_cancelGeneration t pruneAt now generation)
  | acquireLease pruneAt permit => exact .moves (moves_acquireLease t pruneAt permit)
  | release now pin => exact effect_release t now pin
  | settle reservation commit => exact .moves (Move.settle reservation commit).single
  | recordViolation pruneAt m code =>
    exact .moves (moves_recordAuthenticatedOperationViolation t pruneAt m code)
  | capacity pruneAt now => exact .moves (moves_capacity t pruneAt now)
  | inspect => exact .moves (.refl _)

/-- Before a call, tombstones expire at some of its readings of the clock. -/
theorem pruned_eq (t : Table) (c : Call) :
    ∃ readings : List Time, (∀ now ∈ readings, now ∈ c.expiryReadings) ∧
      t.pruned c = readings.foldl pruneExpired t := by
  cases c with
  | admitOutbound permitAt pruneAt =>
    unfold pruned
    dsimp only
    split
    · split
      · exact ⟨[permitAt], by simp [Call.expiryReadings], rfl⟩
      · exact ⟨[permitAt, pruneAt], by simp [Call.expiryReadings], rfl⟩
    · exact ⟨[pruneAt], by simp [Call.expiryReadings], rfl⟩
  | observe pruneAt | observeInbound pruneAt | acceptOutboundReplay pruneAt | inspect pruneAt =>
    exact ⟨[pruneAt], by simp [Call.expiryReadings], rfl⟩
  | terminateLocal | release | settle => exact ⟨[], by simp, rfl⟩
  | cancelGeneration pruneAt | acquireLease pruneAt | recordViolation pruneAt
  | capacity pruneAt =>
    unfold pruned
    dsimp only
    split
    · exact ⟨[], by simp, rfl⟩
    · exact ⟨[pruneAt], by simp [Call.expiryReadings], rfl⟩

theorem moves_foldl_pruneExpired (readings : List Time) (hsub : ∀ now ∈ readings, now ∈ expiry)
    (t : Table) : Moves cfg expiry t (readings.foldl pruneExpired t) := by
  induction readings generalizing t with
  | nil => exact .refl t
  | cons now readings ih =>
    have hprune : Moves cfg expiry t (t.pruneExpired now) :=
      (Move.prune now (hsub now List.mem_cons_self)).single
    exact hprune.trans (ih (fun now' h => hsub now' (List.mem_cons_of_mem _ h)) _)

theorem moves_pruned (cfg : Config) (t : Table) (c : Call) :
    Moves cfg c.expiryReadings t (t.pruned c) := by
  obtain ⟨readings, hsub, heq⟩ := pruned_eq t c
  rw [heq]
  exact moves_foldl_pruneExpired readings hsub t

/-- Expiry only removes tombstones. -/
theorem pruned_frame (t : Table) (c : Call) :
    (t.pruned c).active = t.active ∧ (t.pruned c).reservations = t.reservations ∧
      ∀ id tombstone, (t.pruned c).tombstones.get? id = some tombstone →
        t.tombstones.get? id = some tombstone := by
  obtain ⟨readings, -, heq⟩ := pruned_eq t c
  rw [heq]
  clear heq
  induction readings generalizing t with
  | nil => exact ⟨rfl, rfl, fun _ _ h => h⟩
  | cons now readings ih =>
    obtain ⟨hactive, hreservations, htombstones⟩ := ih (t.pruneExpired now)
    refine ⟨hactive, hreservations, fun id tombstone h => ?_⟩
    have hfilter := htombstones id tombstone h
    rw [pruneExpired, FiniteMap.get?_filter] at hfilter
    exact (Option.filter_eq_some_iff.mp hfilter).1

theorem Moves.mono {readings : List Time} (h : Moves cfg expiry t u)
    (hsub : ∀ now ∈ expiry, now ∈ readings) : Moves cfg readings t u := by
  refine h.stable (P := Moves cfg readings t) (.refl t) ?_
  intro v w hv hmove
  refine hv.trans (Move.single ?_)
  cases hmove with
  | prune now hnow => exact .prune now (hsub now hnow)
  | peers slots => exact .peers slots
  | annotate a f hpins hcontinuations => exact .annotate a f hpins hcontinuations
  | begin id op authority hterminal hactive htombstone hroom htracked hauthority hpins =>
    exact .begin id op authority hterminal hactive htombstone hroom htracked hauthority hpins
  | preempt id tombstone hterminal hactive htombstone htracked hauthority =>
    exact .preempt id tombstone hterminal hactive htombstone htracked hauthority
  | finish id op tombstone hop htombstone hauthority =>
    exact .finish id op tombstone hop htombstone hauthority
  | answer id op digest hop => exact .answer id op digest hop
  | amend id tombstone amended htombstone hauthority hexpires hfinal =>
    exact .amend id tombstone amended htombstone hauthority hexpires hfinal
  | bind id tombstone htombstone continuations => exact .bind id tombstone htombstone continuations
  | reserve a state hstate direction key f hf => exact .reserve a state hstate direction key f hf
  | settle index commit => exact .settle index commit
  | pin id a refresh howner hpins => exact .pin id a refresh howner hpins

theorem Moves.effect {w : Table} (h : Moves cfg expiry t u) (heffect : Effect cfg [] u w) :
    Effect cfg expiry t w := by
  have hmono {v : Table} (hv : Moves cfg [] u v) : Moves cfg expiry u v :=
    hv.mono fun now hnow => absurd hnow List.not_mem_nil
  cases heffect with
  | moves hu => exact .moves (h.trans (hmono hu))
  | release hu hpin hheld => exact .release (h.trans (hmono hu)) hpin hheld
  | terminate hu => exact .terminate (h.trans (hmono hu))

theorem call_effect (cfg : Config) (t : Table) (c : Call) :
    Effect cfg c.expiryReadings t (t.call cfg c) :=
  (moves_pruned cfg t c).effect (call_effect_pruned cfg t c)

end Table

end Windshare.Operation
