import Windshare.Library.Transition
import Windshare.Operation.Observe

/-!
# The calls of the operation table

The exported operations of the table and of the permits, leases, pins and
reservations it hands out. A permit or generation that another table minted, and
the zero value, are `none`; any other value may be presented, whoever minted it.
Each call holds the table's mutex from its first reading of the state to its last
write, so a run of the table is a sequence of calls.
-/

namespace Windshare.Operation

open Windshare.Library Windshare.Session

structure OperationGeneration where
  authority : Nat
  operationID : OperationID
deriving DecidableEq

structure OutboundOperationPermit where
  authority : Nat
  direction : Direction
  operationID : OperationID
deriving DecidableEq

structure OutboundReplayPermit where
  authority : Nat
  direction : Direction
  kind : MessageKind
  operationID : OperationID
  fingerprint : Digest
deriving DecidableEq

/-- `InboundAdmission` with its error. -/
structure InboundAdmission where
  verdict : Verdict
  generation : Option OperationGeneration := none
  outbound : Option OutboundOperationPermit := none

/-- `OutboundAdmission` with its error. -/
structure OutboundAdmission where
  verdict : Verdict
  generation : Option OperationGeneration := none
  operation : Option OutboundOperationPermit := none
  replay : Option OutboundReplayPermit := none
  pin : Option Nat := none

/-- `OperationCapacityWaitReason`. -/
inductive CapacityWaitReason where
  | waitingActiveCapacity
  | waitingRetainedCapacity
deriving DecidableEq, Repr

/-- `operationCapacity` without the channel that announces a change. -/
structure OperationCapacity where
  available : Bool
  retryAfter : Time := 0
  reason : Option CapacityWaitReason := none

namespace Table

variable (cfg : Config) (t : Table)

/-! ### Observing messages -/

/-- `observeAdmissionLocked`: the clock is read for the expiry and again when a
tombstone is made. -/
def observeAdmission (pruneAt now : Time) (direction : Direction) (m : Message) : Table × Verdict :=
  (t.pruneExpired pruneAt).observePruned cfg now direction m

def settleDirection (index : Nat) (r : Reservation) (commit : Bool) : Table :=
  t.modifyAuthority r.authority fun authority =>
    { authority with
      continuations := authority.continuations.map fun state =>
        match state.directions.get? r.direction with
        | none => state
        | some current =>
          { state with
            directions := state.directions.insert r.direction
              (current.settle r.key index r.overflow commit) } }

/-- `settle`: the first call settles the reservation, later ones do nothing. -/
def settle (index : Nat) (commit : Bool) : Table :=
  match t.reservations[index]? with
  | none => t
  | some r =>
    if r.settled.isSome then t
    else
      let t := t.settleDirection index r commit
      { t with reservations := t.reservations.set index { r with settled := some commit } }

/-- `Observe`. The reservation is not handed out, so its commit here is its only
settlement. -/
def observe (pruneAt now : Time) (direction : Direction) (m : Message) : Table × Verdict :=
  match t.observeAdmission cfg pruneAt now direction m with
  | (t, .delivered (some index)) => (t.settle index true, .delivered (some index))
  | (t, verdict) => (t, verdict)

def observeInbound (pruneAt now : Time) (direction : Direction) (m : Message) :
    Table × InboundAdmission :=
  match t.observeAdmission cfg pruneAt now direction m with
  | (t, .delivered reservation) =>
    match m.operationID with
    | none => (t, { verdict := .delivered reservation })
    | some id =>
      match t.operationAuthority id with
      | none => (t, { verdict := .refused .unknownOperation })
      | some a =>
        (t,
          { verdict := .delivered reservation
            generation := some ⟨a, id⟩
            outbound :=
              if direction = .receiverToSender then some ⟨a, .senderToReceiver, id⟩
              else none })
  | (t, verdict) => (t, { verdict })

/-! ### Pins -/

/-- `pinLocked`. -/
def pin (id : OperationID) (a : Nat) (refresh : Bool) : Table :=
  let t := t.modifyAuthority a fun authority => { authority with pins := authority.pins + 1 }
  { t with pins := t.pins ++ [{ authority := a, operationID := id, refresh, released := false }] }

/-- The extension of a tombstone's retention in `release`. -/
def refreshTombstone (now : Time) (p : Pin) : Table :=
  match t.tombstones.get? p.operationID with
  | none => t
  | some tombstone =>
    if p.refresh ∧ tombstone.authority = p.authority ∧
        tombstone.expiresAt < now + operationTombstoneLifetime then
      { t with
        tombstones := t.tombstones.insert p.operationID
          { tombstone with expiresAt := now + operationTombstoneLifetime } }
    else t

/-- `release` of a pin, and `Release` of a lease. -/
def release (now : Time) (index : Nat) : Table :=
  match t.pins[index]? with
  | none => t
  | some p =>
    if p.released then t
    else
      let t := t.refreshTombstone now p
      let t := t.modifyAuthority p.authority fun authority =>
        { authority with
          pins := if authority.pins > 0 then authority.pins - 1 else authority.pins }
      { t with pins := t.pins.set index { p with released := true } }

def acquireLease (pruneAt : Time) (permit : OutboundOperationPermit) :
    Table × Except OperationError Nat :=
  if permit.operationID.isZero then (t, .error .operationIDReused)
  else
    let t := t.pruneExpired pruneAt
    if t.operationAuthority permit.operationID ≠ some permit.authority then
      (t, .error .unknownOperation)
    else if (t.authorityAt permit.authority).pins ≥ maximumOperationPins then
      (t, .error .operationPinBudget)
    else (t.pin permit.operationID permit.authority true, .ok t.pins.length)

/-! ### Outbound messages -/

end Table

/-- The messages `AdmitOutbound` admits with a permit only. -/
def requiresPermit (direction : Direction) (kind : MessageKind) : Bool :=
  (direction == .senderToReceiver ||
    (direction == .receiverToSender && !kind.isRequest && kind != .laneAttach)) &&
    !kind.isSessionControl

namespace Table

variable (cfg : Config) (t : Table)

/-- The permit check of `AdmitOutbound`: `none` lets the message through. -/
def permitVerdict (direction : Direction) (m : Message)
    (permit : Option OutboundOperationPermit) : Option Verdict :=
  match m.operationID, permit with
  | some id, some permit =>
    if permit.direction ≠ direction ∨ permit.operationID ≠ id then
      some (.refused .operationIDReused)
    else if t.operationAuthority id ≠ some permit.authority then some .dropped
    else if (t.authorityAt permit.authority).pins ≥ maximumOperationPins then
      some (.refused .operationPinBudget)
    else none
  | _, _ => some (.refused .operationIDReused)

/-- The part of `AdmitOutbound` below the permit check. -/
def admitPermitted (pruneAt now : Time) (direction : Direction) (m : Message) :
    Table × OutboundAdmission :=
  match t.observeAdmission cfg pruneAt now direction m with
  | (t, .delivered reservation) =>
    match m.operationID with
    | none => (t, { verdict := .delivered reservation })
    | some id =>
      match t.operationAuthority id with
      | none => (t, { verdict := .refused .unknownOperation })
      | some a =>
        (t.pin id a (direction == .receiverToSender),
          { verdict := .delivered reservation
            generation := some ⟨a, id⟩
            operation :=
              if direction = .receiverToSender then some ⟨a, direction, id⟩ else none
            replay :=
              if direction = .senderToReceiver ∨ m.kind = .cancel ∨
                  (direction = .receiverToSender ∧ m.kind.isRequest) then
                some ⟨a, direction, m.kind, id, m.operationFingerprint cfg.codec direction⟩
              else none
            pin := some t.pins.length })
  | (t, verdict) => (t, { verdict })

/-- `AdmitOutbound`, with the clock's readings for the permit and the admission. -/
def admitOutbound (permitAt pruneAt now : Time) (direction : Direction) (m : Message)
    (permit : Option OutboundOperationPermit) : Table × OutboundAdmission :=
  if requiresPermit direction m.kind then
    let t := t.pruneExpired permitAt
    match t.permitVerdict direction m permit with
    | some verdict => (t, { verdict })
    | none => t.admitPermitted cfg pruneAt now direction m
  else t.admitPermitted cfg pruneAt now direction m

/-! ### Replays -/

end Table

def validateReplayFingerprint (codec : Codec) (m : Message) (direction : Direction)
    (permit : OutboundReplayPermit) : Option OperationError :=
  if permit.fingerprint = m.operationFingerprint codec direction then none
  else if m.kind.isFinal ∨ m.kind = .laneAttach then some .conflictingFinal
  else some .operationIDReused

namespace Table

variable (cfg : Config) (t : Table)

def replayAdmission (id : OperationID) (a : Nat) (permit : OutboundReplayPermit)
    (reservation : Option Nat) : Table × OutboundAdmission :=
  if (t.authorityAt a).pins ≥ maximumOperationPins then
    (t, { verdict := .refused .operationPinBudget })
  else
    (t.pin id a false,
      { verdict := .delivered reservation
        generation := some ⟨a, id⟩
        replay := some permit
        pin := some t.pins.length })

/-- `reserveReplayContinuationLocked`. Its own classification failures are not recorded
as violations. -/
def reserveReplayContinuation (a : Nat) (direction : Direction) (m : Message) :
    Table × Reserve Nat :=
  match (t.authorityAt a).continuations with
  | none => (t, .unreserved)
  | some state =>
    match state.classify cfg.codec direction m with
    | .untracked => (t, .unreserved)
    | .untrackedError => (t, .refused .schema)
    | .trackedError => (t, .refused .schema)
    | .tracked key =>
      t.reserveContinuation a state direction key ContinuationDirection.reserveReplay

def acceptTombstoneReplay (id : OperationID) (tombstone : Tombstone) (direction : Direction)
    (m : Message) (permit : OutboundReplayPermit) : Table × OutboundAdmission :=
  if tombstone.authority ≠ permit.authority then (t, { verdict := .dropped })
  else
    match validateReplayFingerprint cfg.codec m direction permit with
    | some e => (t, { verdict := .refused e })
    | none =>
      if tombstone.cancelled ∧ (direction ≠ .receiverToSender ∨ m.kind ≠ .cancel) then
        (t, { verdict := .dropped })
      else if tombstone.cancelled then t.replayAdmission id tombstone.authority permit none
      else if !m.kind.isFinal ∧ m.kind ≠ .laneAttach then (t, { verdict := .dropped })
      else if tombstone.finalKind ≠ m.kind ∨ tombstone.fingerprint ≠ permit.fingerprint then
        (t, { verdict := .dropped })
      else t.replayAdmission id tombstone.authority permit none

def acceptActiveReplay (id : OperationID) (op : ActiveOperation) (direction : Direction)
    (m : Message) (permit : OutboundReplayPermit) : Table × OutboundAdmission :=
  match validateReplayFingerprint cfg.codec m direction permit with
  | some e => (t, { verdict := .refused e })
  | none =>
    if direction = .receiverToSender ∧ m.kind.isRequest then
      if op.requestKind ≠ m.kind ∨ op.requestFingerprint ≠ permit.fingerprint then
        (t, { verdict := .refused .operationIDReused })
      else t.replayAdmission id op.authority permit none
    else if !messageAllowedForOperation op.requestKind m.kind then
      (t, { verdict := .refused (.unexpectedOperation m.kind op.requestKind) })
    else if (t.authorityAt op.authority).pins ≥ maximumOperationPins then
      (t, { verdict := .refused .operationPinBudget })
    else
      match t.reserveReplayContinuation cfg op.authority direction m with
      | (t, .refused e) => (t, { verdict := .refused e })
      | (t, .repeated) => (t, { verdict := .dropped })
      | (t, .unreserved) => t.replayAdmission id op.authority permit none
      | (t, .reserved index) => t.replayAdmission id op.authority permit (some index)

def acceptOutboundReplay (pruneAt : Time) (direction : Direction) (m : Message)
    (permit : Option OutboundReplayPermit) : Table × OutboundAdmission :=
  let t := t.pruneExpired pruneAt
  if t.terminal then (t, { verdict := .dropped })
  else
    match m.operationID, permit with
    | some id, some permit =>
      if permit.direction ≠ direction ∨ permit.kind ≠ m.kind ∨ permit.operationID ≠ id then
        (t, { verdict := .refused .operationIDReused })
      else
        match t.tombstones.get? id with
        | some tombstone => t.acceptTombstoneReplay cfg id tombstone direction m permit
        | none =>
          match t.active.get? id with
          | none => (t, { verdict := .dropped })
          | some op =>
            if op.authority ≠ permit.authority then (t, { verdict := .dropped })
            else t.acceptActiveReplay cfg id op direction m permit
    | _, _ => (t, { verdict := .refused .operationIDReused })

/-! ### Termination, cancellation, violations and capacity -/

def terminateLocal : Table × Except OperationError Unit :=
  if t.terminal then (t, .error .sessionTerminated) else (t.terminate, .ok ())

def cancelGeneration (pruneAt now : Time) (generation : Option OperationGeneration) :
    Table × Except OperationError Unit :=
  match generation with
  | none => (t, .error .invalidOperationID)
  | some ⟨a, id⟩ =>
    if id.isZero then (t, .error .invalidOperationID)
    else if t.terminal then (t, .ok ())
    else
      let t := t.pruneExpired pruneAt
      -- A final that won the race keeps its tombstone.
      if (t.tombstones.get? id).isSome then (t, .ok ())
      else
        match t.active.get? id with
        | none => (t, .ok ())
        | some op =>
          if op.authority ≠ a then (t, .ok ())
          else
            let t := t.retirePeerAttempt (t.authorityAt a)
            let t := { t with active := t.active.erase id }
            let t := t.clearContinuationReplay a
            ({ t with
                tombstones := t.tombstones.insert id
                  { expiresAt := now + operationTombstoneLifetime
                    requestKind := some op.requestKind
                    requestFingerprint := op.requestFingerprint
                    finalKind := .cancel
                    fingerprint := zeroDigest
                    cancelled := true
                    authority := a } }, .ok ())

end Table

def ViolationCode.matchesAuthenticatedMessage (code : ViolationCode) (m : Message) : Bool :=
  match code with
  | .malformedFailure => m.kind == .operationError
  | .malformedPeerControl => m.kind == .peerAnswer || m.kind == .peerCandidate
  | _ => false

namespace Table

variable (cfg : Config) (t : Table)

/-- The request kind part of `authenticatedOperationAuthorityLocked`. -/
def authenticatedRequestKind (id : OperationID) : Option MessageKind :=
  match t.active.get? id with
  | some op => some op.requestKind
  | none => (t.tombstones.get? id).bind Tombstone.requestKind

def recordAuthenticatedOperationViolation (pruneAt : Time) (m : Message)
    (code : ViolationCode) : Table × Except OperationError Bool :=
  if !code.matchesAuthenticatedMessage m then (t, .error .invalidViolation)
  else
    match m.operationID with
    | none => (t, .error .invalidViolation)
    | some id =>
      let t := t.pruneExpired pruneAt
      match t.operationAuthority id with
      | none => (t, .ok false)
      | some a =>
        if code = .malformedPeerControl ∧
            t.authenticatedRequestKind id ≠ some .peerOffer then (t, .ok false)
        else
          -- Recorded whatever the direction, as the authenticator saw the message.
          (t.recordSenderOperationViolation a .senderToReceiver code, .ok true)

/-- The shortest wait of `capacity`: a pinned tombstone has no deadline. -/
def retryAfter (now : Time) : Time :=
  t.tombstones.entries.foldl (fun best entry =>
    if (t.authorityAt entry.2.authority).pins ≠ 0 then best
    else
      let delay := if entry.2.expiresAt ≤ now then 1 else entry.2.expiresAt - now
      if best = 0 ∨ delay < best then delay else best) 0

def capacity (pruneAt now : Time) : Table × Except OperationError OperationCapacity :=
  if t.terminal then (t, .error .sessionTerminated)
  else
    let t := t.pruneExpired pruneAt
    if t.active.size < cfg.limits.maxActive ∧
        t.active.size + t.tombstones.size < cfg.limits.maxTracked then
      (t, .ok { available := true })
    else
      (t, .ok
        { available := false
          retryAfter := t.retryAfter now
          reason :=
            if t.active.size ≥ cfg.limits.maxActive then some .waitingActiveCapacity
            else some .waitingRetainedCapacity })

end Table

/-- A call with the clock's readings during it. `inspect` stands for the queries that
only expire tombstones and read: `IsCurrent`, `IsActive`, `RequestKind`,
`MaximumContinuations`, `TombstoneCount` and the registration of violation handlers. -/
inductive Call where
  | observe (pruneAt now : Time) (direction : Direction) (m : Message)
  | observeInbound (pruneAt now : Time) (direction : Direction) (m : Message)
  | admitOutbound (permitAt pruneAt now : Time) (direction : Direction) (m : Message)
      (permit : Option OutboundOperationPermit)
  | acceptOutboundReplay (pruneAt : Time) (direction : Direction) (m : Message)
      (permit : Option OutboundReplayPermit)
  | terminateLocal
  | cancelGeneration (pruneAt now : Time) (generation : Option OperationGeneration)
  | acquireLease (pruneAt : Time) (permit : OutboundOperationPermit)
  | release (now : Time) (pin : Nat)
  | settle (reservation : Nat) (commit : Bool)
  | recordViolation (pruneAt : Time) (m : Message) (code : ViolationCode)
  | capacity (pruneAt now : Time)
  | inspect (pruneAt : Time)

/-- The readings of the clock at which a call may expire tombstones. -/
def Call.expiryReadings : Call → List Time
  | .observe pruneAt _ _ _ => [pruneAt]
  | .observeInbound pruneAt _ _ _ => [pruneAt]
  | .admitOutbound permitAt pruneAt _ _ _ _ => [permitAt, pruneAt]
  | .acceptOutboundReplay pruneAt _ _ _ => [pruneAt]
  | .cancelGeneration pruneAt _ _ => [pruneAt]
  | .acquireLease pruneAt _ => [pruneAt]
  | .recordViolation pruneAt _ _ => [pruneAt]
  | .capacity pruneAt _ => [pruneAt]
  | .inspect pruneAt => [pruneAt]
  | _ => []

namespace Table

/-- The table as a call finds it once tombstones have expired. -/
def pruned (t : Table) : Call → Table
  | .observe pruneAt _ _ _ => t.pruneExpired pruneAt
  | .observeInbound pruneAt _ _ _ => t.pruneExpired pruneAt
  | .admitOutbound permitAt pruneAt _ direction m permit =>
    if requiresPermit direction m.kind then
      let t := t.pruneExpired permitAt
      if (t.permitVerdict direction m permit).isSome then t else t.pruneExpired pruneAt
    else t.pruneExpired pruneAt
  | .acceptOutboundReplay pruneAt _ _ _ => t.pruneExpired pruneAt
  | .cancelGeneration pruneAt _ generation =>
    if t.terminal ∨ generation.all (·.operationID.isZero) then t else t.pruneExpired pruneAt
  | .acquireLease pruneAt permit =>
    if permit.operationID.isZero then t else t.pruneExpired pruneAt
  | .recordViolation pruneAt m code =>
    if !code.matchesAuthenticatedMessage m ∨ m.operationID = none then t
    else t.pruneExpired pruneAt
  | .capacity pruneAt _ => if t.terminal then t else t.pruneExpired pruneAt
  | .inspect pruneAt => t.pruneExpired pruneAt
  | _ => t

def call (cfg : Config) (t : Table) : Call → Table
  | .observe pruneAt now direction m => (t.observe cfg pruneAt now direction m).1
  | .observeInbound pruneAt now direction m => (t.observeInbound cfg pruneAt now direction m).1
  | .admitOutbound permitAt pruneAt now direction m permit =>
    (t.admitOutbound cfg permitAt pruneAt now direction m permit).1
  | .acceptOutboundReplay pruneAt direction m permit =>
    (t.acceptOutboundReplay cfg pruneAt direction m permit).1
  | .terminateLocal => t.terminateLocal.1
  | .cancelGeneration pruneAt now generation => (t.cancelGeneration pruneAt now generation).1
  | .acquireLease pruneAt permit => (t.acquireLease pruneAt permit).1
  | .release now pin => t.release now pin
  | .settle reservation commit => t.settle reservation commit
  | .recordViolation pruneAt m code =>
    (t.recordAuthenticatedOperationViolation pruneAt m code).1
  | .capacity pruneAt now => (t.capacity cfg pruneAt now).1
  | .inspect pruneAt => t.pruneExpired pruneAt

def system (cfg : Config) : System Table Call := .ofFunction (· = new) (call cfg)

end Table

end Windshare.Operation
