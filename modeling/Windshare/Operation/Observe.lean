import Windshare.Operation.Table

/-!
# Observing a message

How the table treats one message: it begins an operation, advances an active one
or meets a tombstone. Every function mirrors the one of the source whose name it
carries.
-/

namespace Windshare.Operation

open Windshare.Library Windshare.Session

def newOperationAuthority (cfg : Config) (m : Message) : Except OperationError Authority :=
  match cfg.continuations with
  | none => .ok {}
  | some classifier =>
    match classifier.begin m.kind m.body with
    | .untrackedError => .error .schema
    | .trackedError => .error .schema
    | .untracked => .ok {}
    | .tracked contract =>
      match ContinuationState.new contract with
      | .error e => .error e
      | .ok state => .ok { continuations := some state }

def deferredContinuationMatches (existing candidate : Authority) : Bool :=
  match existing.deferredContinuationScope with
  | none => true
  | some scope => candidate.continuations.any fun state => state.contract.scope == scope

namespace Table

variable (cfg : Config) (t : Table)

/-! ### Beginning and finishing operations -/

/-- The tombstone `addTombstone` makes. -/
def newTombstone (now : Time) (direction : Direction) (m : Message) (cancelled : Bool)
    (requestKind : Option MessageKind) (requestFingerprint : Digest) (a : Nat) : Tombstone :=
  { expiresAt := now + operationTombstoneLifetime
    requestKind, requestFingerprint
    finalKind := m.kind
    fingerprint := m.operationFingerprint cfg.codec direction
    cancelled, authority := a }

/-- `addTombstone`. Without an authority the tombstone gets a new one. -/
def addTombstone (now : Time) (id : OperationID) (direction : Direction) (m : Message)
    (cancelled : Bool) (requestKind : Option MessageKind) (requestFingerprint : Digest)
    (authority : Option Nat) : Table × Option OperationError :=
  if t.tombstones.get? id = none ∧ t.active.get? id = none ∧
      t.active.size + t.tombstones.size ≥ cfg.limits.maxTracked then
    (t, some .trackedOperationBudget)
  else
    let tombstone := newTombstone cfg now direction m cancelled requestKind requestFingerprint
    match authority with
    | some a => ({ t with tombstones := t.tombstones.insert id (tombstone a) }, none)
    | none =>
      ({ t with
          tombstones := t.tombstones.insert id (tombstone t.authorities.length)
          authorities := t.authorities ++ [{}] }, none)

def finishOperation (now : Time) (id : OperationID) (op : ActiveOperation)
    (direction : Direction) (m : Message) (cancelled : Bool) : Table × Option OperationError :=
  match t.addTombstone cfg now id direction m cancelled (some op.requestKind)
      op.requestFingerprint (some op.authority) with
  | (t, some e) => (t, some e)
  | (t, none) =>
    let t := t.retirePeerAttempt (t.authorityAt op.authority)
    let t := t.clearContinuationReplay op.authority
    ({ t with active := t.active.erase id }, none)

def beginOperation (now : Time) (id : OperationID) (direction : Direction) (m : Message) :
    Table × Verdict :=
  if m.kind = .cancel then
    -- A cancellation may overtake its request on another lane.
    match t.addTombstone cfg now id direction m true none zeroDigest none with
    | (t, some e) => (t, .refused e)
    | (t, none) => (t, .delivered none)
  else if direction ≠ .receiverToSender ∨ (!m.kind.isRequest ∧ m.kind ≠ .laneAttach) then
    (t, .refused .unknownOperation)
  else if t.active.size ≥ cfg.limits.maxActive then (t, .refused .activeOperationBudget)
  else if t.active.size + t.tombstones.size ≥ cfg.limits.maxTracked then
    (t, .refused .trackedOperationBudget)
  else
    match newOperationAuthority cfg m with
    | .error e => (t, .refused e)
    | .ok authority =>
      match t.admitPeerAttempt authority with
      | (t, some e) => (t, .refused e)
      | (t, none) =>
        ({ t with
            active := t.active.insert id
              { requestKind := m.kind
                requestFingerprint := m.operationFingerprint cfg.codec direction
                answer := none
                authority := t.authorities.length }
            authorities := t.authorities ++ [authority] }, .delivered none)

/-! ### Active operations -/

def observePeerAnswer (id : OperationID) (op : ActiveOperation) (direction : Direction)
    (m : Message) : Table × Verdict :=
  let fingerprint := m.operationFingerprint cfg.codec direction
  match op.answer with
  | none =>
    ({ t with active := t.active.insert id { op with answer := some fingerprint } },
      .delivered none)
  | some seen =>
    if seen = fingerprint then (t, .dropped)
    else
      (t.recordSenderOperationViolation op.authority direction .conflictingPeerAnswer,
        .refused .operationIDReused)

def advanceOperation (now : Time) (id : OperationID) (op : ActiveOperation)
    (direction : Direction) (m : Message) : Table × Verdict :=
  if m.kind = .cancel then
    match t.finishOperation cfg now id op direction m true with
    | (t, some e) => (t, .refused e)
    | (t, none) => (t, .delivered none)
  else if m.kind.isRequest then
    if op.requestKind = m.kind ∧
        op.requestFingerprint = m.operationFingerprint cfg.codec direction then (t, .dropped)
    else (t, .refused .operationIDReused)
  else if m.kind = .laneAttach ∧ direction = .receiverToSender then
    (t, .refused .operationIDReused)
  else if !messageAllowedForOperation op.requestKind m.kind then
    (t, .refused (.unexpectedOperation m.kind op.requestKind))
  else if m.kind.isFinal ∨ (op.requestKind = .laneAttach ∧ m.kind = .laneAttach) then
    -- No final is a peer answer, so the answer check below is not reached.
    match t.finishOperation cfg now id op direction m false with
    | (t, some e) => (t, .refused e)
    | (t, none) => (t, .delivered none)
  else if op.requestKind = .peerOffer ∧ m.kind = .peerAnswer then
    t.observePeerAnswer cfg id op direction m
  else (t, .delivered none)

/-- Replace one direction of an authority's continuations. -/
def setDirection (a : Nat) (state : ContinuationState) (direction : Direction)
    (current : ContinuationDirection) : Table :=
  t.modifyAuthority a fun authority =>
    { authority with
      continuations := some { state with directions := state.directions.insert direction current } }

/-- Try to reserve a classified continuation in one direction of an authority. The
direction's entry is made in any case, the reservation when the attempt succeeds. -/
def reserveContinuation (a : Nat) (state : ContinuationState) (direction : Direction)
    (key : ContinuationKey) (reserve : ReserveRule) : Table × Reserve Nat :=
  let index := t.reservations.length
  let outcome := reserve (state.direction direction) state.contract.maximum key index
  let t := t.setDirection a state direction outcome.1
  match outcome.2 with
  | .refused e => (t, .refused e)
  | .repeated => (t, .repeated)
  | .unreserved => (t, .unreserved)
  | .reserved overflow =>
    ({ t with
        reservations := t.reservations ++
          [{ authority := a, direction, key, overflow, settled := none }] },
      .reserved index)

def reserveActiveContinuation (a : Nat) (direction : Direction) (m : Message) :
    Table × Reserve Nat :=
  match (t.authorityAt a).continuations with
  | none => (t, .unreserved)
  | some state =>
    match state.classify cfg.codec direction m with
    | .untracked => (t, .unreserved)
    | .untrackedError => (t, .refused .schema)
    | .trackedError =>
      (t.recordSenderOperationViolation a direction .continuationContract, .refused .schema)
    | .tracked key =>
      t.reserveContinuation a state direction key ContinuationDirection.reserveActive

/-! ### Tombstones -/

/-- `acceptLateContinuationLocked`: `none` when the message is not a continuation of
the contract, and otherwise the error of the acceptance. -/
def acceptLateContinuation (a : Nat) (direction : Direction) (m : Message) :
    Table × Option (Option OperationError) :=
  match (t.authorityAt a).continuations with
  | none => (t, none)
  | some state =>
    match state.classify cfg.codec direction m with
    | .untracked => (t, none)
    | .untrackedError => (t, none)
    | .trackedError =>
      (t.recordSenderOperationViolation a direction .continuationContract, some (some .schema))
    | .tracked _ => (t, some none)

def acceptUnboundLateContinuation (a : Nat) (direction : Direction) (m : Message) :
    Table × Option (Option OperationError) :=
  match cfg.continuations, (t.authorityAt a).continuations with
  | some classifier, none =>
    match m.operationContinuationSemanticBody cfg.codec direction with
    | none => (t, none)
    | some body =>
      match classifier.classifyUnbound m.kind body with
      | .untracked => (t, none)
      | .untrackedError => (t, none)
      | .trackedError =>
        (t.recordSenderOperationViolation a direction .continuationContract, some (some .schema))
      | .tracked scope =>
        if scope = zeroDigest then (t, some (some .continuationContract))
        else if (t.authorityAt a).deferredContinuationScope.any (· ≠ scope) then
          (t.recordSenderOperationViolation a direction .continuationContract,
            some (some .conflictingContinuation))
        else
          (t.modifyAuthority a fun authority =>
            { authority with deferredContinuationScope := some scope }, some none)
  | _, _ => (t, none)

def bindPreemptivelyCancelledRequest (id : OperationID) (tombstone : Tombstone)
    (direction : Direction) (m : Message) (isRequest : Bool) : Table × Verdict :=
  if !isRequest then (t, .refused .operationIDReused)
  else
    match newOperationAuthority cfg m with
    | .error e => (t, .refused e)
    | .ok authority =>
      if !deferredContinuationMatches (t.authorityAt tombstone.authority) authority then
        (t.recordSenderOperationViolation tombstone.authority direction .continuationContract,
          .refused .conflictingContinuation)
      else
        match t.admitPeerAttempt authority with
        | (t, some e) => (t, .refused e)
        | (t, none) =>
          let t := t.retirePeerAttempt authority
          let t := t.modifyAuthority tombstone.authority fun existing =>
            { existing with
              continuations := authority.continuations
              deferredContinuationScope := none }
          ({ t with
              tombstones := t.tombstones.insert id
                { tombstone with
                  requestKind := some m.kind
                  requestFingerprint := m.operationFingerprint cfg.codec direction } },
            .dropped)

def observeCancelledTombstone (id : OperationID) (tombstone : Tombstone)
    (direction : Direction) (m : Message) : Table × Verdict :=
  let isRequest := direction = .receiverToSender ∧ (m.kind.isRequest ∨ m.kind = .laneAttach)
  match tombstone.requestKind with
  | none => t.bindPreemptivelyCancelledRequest cfg id tombstone direction m isRequest
  | some requestKind =>
    let fingerprint := m.operationFingerprint cfg.codec direction
    if isRequest then
      if requestKind = m.kind ∧ tombstone.requestFingerprint = fingerprint then (t, .dropped)
      else (t, .refused .operationIDReused)
    else if !messageAllowedForOperation requestKind m.kind then
      (t, .refused .operationIDReused)
    else if m.kind.isFinal ∨ (requestKind = .laneAttach ∧ m.kind = .laneAttach) then
      if tombstone.finalKind = .cancel then
        -- The first compatible final may have crossed the cancellation.
        ({ t with
            tombstones := t.tombstones.insert id
              { tombstone with finalKind := m.kind, fingerprint := fingerprint } }, .dropped)
      else if tombstone.finalKind ≠ m.kind ∨ tombstone.fingerprint ≠ fingerprint then
        (t.recordSenderOperationViolation tombstone.authority direction .conflictingFinal,
          .refused .conflictingFinal)
      else (t, .dropped)
    else (t, .dropped)

def observeTombstone (id : OperationID) (tombstone : Tombstone) (direction : Direction)
    (m : Message) : Table × Verdict :=
  let fingerprint := m.operationFingerprint cfg.codec direction
  if m.kind = .cancel then (t, .dropped)
  else if tombstone.cancelled then t.observeCancelledTombstone cfg id tombstone direction m
  else if direction = .receiverToSender ∧ m.kind.isRequest then
    if tombstone.requestKind = some m.kind ∧ tombstone.requestFingerprint = fingerprint then
      (t, .dropped)
    else (t, .refused .operationIDReused)
  else if m.kind.isFinal ∨ m.kind = .laneAttach then
    if tombstone.finalKind = m.kind ∧ tombstone.fingerprint = fingerprint then (t, .dropped)
    else
      (t.recordSenderOperationViolation tombstone.authority direction .conflictingFinal,
        .refused .conflictingFinal)
  else if tombstone.requestKind.any fun kind => messageAllowedForOperation kind m.kind then
    (t, .dropped)
  else (t, .refused .operationIDReused)

/-- The branch of `observeAdmissionLocked` for an identity with a tombstone. -/
def observeRetired (id : OperationID) (tombstone : Tombstone) (direction : Direction)
    (m : Message) : Table × Verdict :=
  let late (accepted : Option OperationError) : Verdict :=
    match accepted with
    | none => .dropped
    | some e => .refused e
  match t.acceptLateContinuation cfg tombstone.authority direction m with
  | (t, some accepted) => (t, late accepted)
  | (t, none) =>
    if tombstone.requestKind = none then
      match t.acceptUnboundLateContinuation cfg tombstone.authority direction m with
      | (t, some accepted) => (t, late accepted)
      | (t, none) => t.observeTombstone cfg id tombstone direction m
    else t.observeTombstone cfg id tombstone direction m

/-- The branch of `observeAdmissionLocked` for an active identity. -/
def observeActive (now : Time) (id : OperationID) (op : ActiveOperation)
    (direction : Direction) (m : Message) : Table × Verdict :=
  match t.advanceOperation cfg now id op direction m with
  | (t, .delivered _) =>
    match t.reserveActiveContinuation cfg op.authority direction m with
    | (t, .refused e) => (t, .refused e)
    | (t, .repeated) => (t, .dropped)
    | (t, .unreserved) => (t, .delivered none)
    | (t, .reserved r) => (t, .delivered (some r))
  | (t, verdict) => (t, verdict)

/-- `observeAdmissionLocked` after its call of `pruneExpired`. -/
def observePruned (now : Time) (direction : Direction) (m : Message) : Table × Verdict :=
  if t.terminal then (t, .dropped)
  else if !validKindDirection direction m.kind then
    (t, .refused (.invalidDirection direction m.kind))
  else if m.kind.isSessionControl then (t, .delivered none)
  else if m.kind = .sessionTerminal then (t.terminate, .sessionTerminal)
  else
    match m.operationID with
    | none => (t, .refused .invalidOperationID)
    | some id =>
      match t.validatePeerAttempt cfg (t.operationAuthority id) direction m with
      | (t, some e) => (t, .refused e)
      | (t, none) =>
        match t.tombstones.get? id with
        | some tombstone => t.observeRetired cfg id tombstone direction m
        | none =>
          match t.active.get? id with
          | some op => t.observeActive cfg now id op direction m
          | none =>
            if t.dropsRetiredPeer cfg direction m then (t, .dropped)
            else t.beginOperation cfg now id direction m

end Table

end Windshare.Operation
