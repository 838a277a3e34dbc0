import Windshare.Operation.Continuation

/-!
# The operation table

The model of `operation.go` and of the parts of `operation_failure.go`,
`operation_authority.go` and `operation_continuation.go` that observe a message.
Authorities, pins and reservations are shared pointers in the source; here they
live in append-only lists of the table and are named by their position. Every
reading of the clock is an argument, so that a call may see any times at all.
-/

namespace Windshare.Operation

open Windshare.Library Windshare.Session

/-- Nanoseconds of the injected clock. -/
abbrev Time := Nat

def operationTombstoneLifetime : Time := 30 * 1000000000

/-- `MaximumOperationPins`: sixteen lanes with 256 control and 1024 data frames queued and
one being sent. -/
def maximumOperationPins : UInt32 := 16 * (256 + 1024 + 1)

/-- `OperationLimits`, as `NewOperationTable` accepts them. -/
structure OperationLimits where
  maxActive : Nat
  maxTracked : Nat
  maxActive_pos : 0 < maxActive
  maxTracked_pos : 0 < maxTracked

/-- What a table is made with and never changes. -/
structure Config where
  limits : OperationLimits
  codec : Codec
  continuations : Option ContinuationClassifier

/-- `AuthenticatedOperationViolationCode`. -/
inductive ViolationCode where
  | malformedFailure
  | malformedPeerControl
  | conflictingPeerAnswer
  | conflictingFinal
  | continuationContract
deriving DecidableEq, Repr

/-- `operationAuthority`. -/
structure Authority where
  pins : UInt32 := 0
  continuations : Option ContinuationState := none
  deferredContinuationScope : Option OperationContinuationScope := none
  authenticatedViolation : Option ViolationCode := none

/-- `activeOperation`; the answer's fingerprint is there once an answer was seen. -/
structure ActiveOperation where
  requestKind : MessageKind
  requestFingerprint : Digest
  answer : Option Digest
  authority : Nat
deriving DecidableEq

/-- `operationTombstone`. A cancellation that came before its request has no request
kind yet. -/
structure Tombstone where
  expiresAt : Time
  requestKind : Option MessageKind
  requestFingerprint : Digest
  finalKind : MessageKind
  fingerprint : Digest
  cancelled : Bool
  authority : Nat
deriving DecidableEq

/-- `retiredPeerSlot`. -/
structure PeerSlot where
  issuedThrough : UInt64 := 0
  retiredThrough : UInt64 := 0
  active : List UInt64 := []

/-- `outboundAdmissionPin`; `released` is its `sync.Once`. -/
structure Pin where
  authority : Nat
  operationID : OperationID
  refresh : Bool
  released : Bool

/-- `operationContinuationReservation`. `settled` is its `sync.Once` with the outcome
it ran with: `some true` for a commit, `some false` for a rollback. -/
structure Reservation where
  authority : Nat
  direction : Direction
  key : ContinuationKey
  overflow : Bool
  settled : Option Bool
deriving DecidableEq

/-- `OperationTable` with the objects it has handed out. -/
structure Table where
  active : FiniteMap OperationID ActiveOperation
  tombstones : FiniteMap OperationID Tombstone
  terminal : Bool
  peerSlots : FiniteMap UInt8 PeerSlot
  authorities : List Authority
  pins : List Pin
  reservations : List Reservation

/-- The disposition and error of an observation: an error always comes with a drop, and
a delivery may come with a reservation. -/
inductive Verdict where
  | refused (e : OperationError)
  | dropped
  | sessionTerminal
  | delivered (reservation : Option Nat)
deriving DecidableEq

namespace Table

def new : Table where
  active := .empty
  tombstones := .empty
  terminal := false
  peerSlots := .empty
  authorities := []
  pins := []
  reservations := []

variable (cfg : Config) (t : Table)

/-! ### Authorities -/

/-- Follow an authority pointer. -/
def authorityAt (a : Nat) : Authority := (t.authorities[a]?).getD {}

def modifyAuthority (a : Nat) (f : Authority → Authority) : Table :=
  { t with authorities := t.authorities.modify a f }

theorem authorityAt_modifyAuthority (a b : Nat) (f : Authority → Authority) :
    (t.modifyAuthority a f).authorityAt b =
      if a = b ∧ b < t.authorities.length then f (t.authorityAt b) else t.authorityAt b := by
  unfold authorityAt modifyAuthority
  by_cases hb : b < t.authorities.length
  · rw [List.getElem?_modify, List.getElem?_eq_getElem hb]
    by_cases hab : a = b <;> simp [hab, hb]
  · rw [List.getElem?_eq_none (by simpa using hb), List.getElem?_eq_none (by omega)]
    simp [hb]

/-- An update that keeps a part of every authority keeps it in the table. -/
theorem authorityAt_modifyAuthority_of_eq {β : Type} (g : Authority → β) (a b : Nat)
    {f : Authority → Authority} (hg : ∀ x, g (f x) = g x) :
    g ((t.modifyAuthority a f).authorityAt b) = g (t.authorityAt b) := by
  rw [authorityAt_modifyAuthority]
  split
  · exact hg _
  · rfl

def operationAuthority (id : OperationID) : Option Nat :=
  match t.active.get? id with
  | some op => some op.authority
  | none => (t.tombstones.get? id).map Tombstone.authority

/-- `recordSenderOperationViolationLocked`; the first violation stays. -/
def recordSenderOperationViolation (a : Nat) (direction : Direction) (code : ViolationCode) :
    Table :=
  if direction = .senderToReceiver then
    t.modifyAuthority a fun authority =>
      { authority with
        authenticatedViolation := authority.authenticatedViolation.or (some code) }
  else t

def clearContinuationReplay (a : Nat) : Table :=
  t.modifyAuthority a fun authority =>
    { authority with
      continuations := authority.continuations.map fun state =>
        { state with directions := .empty } }

def pruneExpired (now : Time) : Table :=
  { t with
    tombstones := t.tombstones.filter fun _ tombstone =>
      !(tombstone.expiresAt ≤ now && (t.authorityAt tombstone.authority).pins == 0) }

/-- Close the table to operations. -/
def terminate : Table := { t with terminal := true, active := .empty, tombstones := .empty }

/-! ### Peer attempts -/

end Table

def operationPeerAttempt (authority : Authority) : Option PeerAttemptBinding :=
  authority.continuations.bind fun state => state.contract.peerAttempt

namespace Table

variable (cfg : Config) (t : Table)

/-- `admitPeerAttemptLocked`. The slot is made even when the attempt is refused. -/
def admitPeerAttempt (authority : Authority) : Table × Option OperationError :=
  match operationPeerAttempt authority with
  | none => (t, none)
  | some binding =>
    if !binding.valid then (t, some .continuationContract)
    else
      let slot := (t.peerSlots.get? binding.peerSlot).getD {}
      if binding.attemptSequence ≤ slot.issuedThrough then
        ({ t with peerSlots := t.peerSlots.insert binding.peerSlot slot }, some .operationIDReused)
      else
        ({ t with
            peerSlots := t.peerSlots.insert binding.peerSlot
              { slot with
                issuedThrough := binding.attemptSequence
                active := binding.attemptSequence :: slot.active } }, none)

def retirePeerAttempt (authority : Authority) : Table :=
  match operationPeerAttempt authority with
  | none => t
  | some binding =>
    match t.peerSlots.get? binding.peerSlot with
    | none => t
    | some slot =>
      { t with
        peerSlots := t.peerSlots.insert binding.peerSlot
          { slot with
            active := slot.active.filter (· != binding.attemptSequence)
            retiredThrough :=
              if binding.attemptSequence > slot.retiredThrough then binding.attemptSequence
              else slot.retiredThrough } }

end Table

def peerContinuationBinding (cfg : Config) (direction : Direction) (m : Message) :
    Classified PeerAttemptBinding :=
  if m.kind ≠ .peerOffer ∧ m.kind ≠ .peerAnswer ∧ m.kind ≠ .peerCandidate ∧
      m.kind ≠ .operationError then .untracked
  else
    match m.operationContinuationSemanticBody cfg.codec direction with
    | none => .trackedError
    | some body =>
      if m.kind = .operationError then
        match cfg.codec.decodeOperationFailure body with
        | none => .trackedError
        | some none => .untracked
        | some (some binding) => .tracked binding
      else
        match cfg.continuations.bind (·.classifyPeerAttempt) with
        | none => .untracked
        | some classify => classify m.kind body

/-- The check of `validatePeerAttemptLocked` against the expected attempt. -/
def peerAttemptError (cfg : Config) (expected : PeerAttemptBinding) (direction : Direction)
    (m : Message) : Option OperationError :=
  match peerContinuationBinding cfg direction m with
  | .untracked => none
  | .untrackedError => some .schema
  | .trackedError => some .schema
  | .tracked actual => if actual ≠ expected then some .conflictingContinuation else none

namespace Table

variable (cfg : Config) (t : Table)

def validatePeerAttempt (a : Option Nat) (direction : Direction) (m : Message) :
    Table × Option OperationError :=
  match a with
  | none => (t, none)
  | some a =>
    match operationPeerAttempt (t.authorityAt a) with
    | none => (t, none)
    | some expected =>
      if m.kind = .peerOffer then (t, none)
      else
        match peerAttemptError cfg expected direction m with
        | none => (t, none)
        | some e =>
          (t.recordSenderOperationViolation a direction .continuationContract, some e)

def dropsRetiredPeer (direction : Direction) (m : Message) : Bool :=
  match peerContinuationBinding cfg direction m with
  | .tracked binding =>
    match t.peerSlots.get? binding.peerSlot with
    | none => false
    | some slot =>
      let active := slot.active.contains binding.attemptSequence
      if m.kind = .peerOffer ∧ binding.attemptSequence < slot.issuedThrough then !active
      else binding.attemptSequence ≤ slot.retiredThrough && !active
  | _ => false

end Table

end Windshare.Operation
