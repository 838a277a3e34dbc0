import Windshare.Library.FiniteMap
import Windshare.Operation.Message

/-!
# Operation continuations

A request may fix a contract for the messages that continue it. The contract
names each continuation by a semantic fingerprint, and each direction of the
operation remembers the names it has let through: a record is made when a
continuation is reserved, and it is committed or removed when the reservation is
settled. The schema owner that decodes requests and continuations is injected;
its only implementation, the peer signalling classifier, is modelled at the end.

Records are compared by identity in the source. A record is made together with its
reservation, so it carries the number of the reservation here.
-/

namespace Windshare.Operation

open Windshare.Library Windshare.Session

/-- The errors of the operation table. `schema` is any error of an injected codec. -/
inductive OperationError where
  | invalidDirection (direction : Direction) (kind : MessageKind)
  | invalidOperationID
  | unknownOperation
  | operationIDReused
  | unexpectedOperation (message request : MessageKind)
  | conflictingFinal
  | sessionTerminated
  | activeOperationBudget
  | trackedOperationBudget
  | operationPinBudget
  | continuationContract
  | conflictingContinuation
  | continuationPending
  | invalidViolation
  | schema
deriving DecidableEq, Repr

/-- A classification `(value, tracked, err)`: the value counts without an error only,
and the callers treat an error differently when the message was recognised. -/
inductive Classified (α : Type) where
  | untracked
  | untrackedError
  | trackedError
  | tracked (value : α)
deriving DecidableEq

abbrev OperationContinuationScope := Digest

def maximumOperationContinuations : Nat := 1024

/-- `OperationContinuationContract`. Every contract of the repository continues a peer
negotiation, so only candidates are ever recognised. `peerAttempt` is the optional
`peerAttemptAuthority` half. -/
structure ContinuationContract where
  classify : MessageKind → List UInt8 → Classified Digest
  scope : OperationContinuationScope
  maximum : Nat
  peerAttempt : Option PeerAttemptBinding
  candidates_only : ∀ kind body, kind ≠ .peerCandidate → classify kind body = .untracked

/-- `OperationContinuationClassifier` together with the optional
`PeerAttemptContinuationClassifier`. -/
structure ContinuationClassifier where
  begin : MessageKind → List UInt8 → Classified ContinuationContract
  classifyUnbound : MessageKind → List UInt8 → Classified OperationContinuationScope
  classifyPeerAttempt : Option (MessageKind → List UInt8 → Classified PeerAttemptBinding)
  candidates_only : ∀ kind body, kind ≠ .peerCandidate → classifyUnbound kind body = .untracked

/-- `operationContinuationKey`. -/
structure ContinuationKey where
  kind : MessageKind
  fingerprint : Digest
deriving DecidableEq

/-- `operationContinuationRecord`, with the number of the reservation that made it. -/
structure ContinuationRecord where
  id : Nat
  committed : Bool
deriving DecidableEq

/-- `operationContinuationDirection`. -/
structure ContinuationDirection where
  records : FiniteMap ContinuationKey ContinuationRecord
  overflow : Option (ContinuationKey × ContinuationRecord)
  pending : Option (ContinuationKey × Nat)

/-- `operationContinuationState`; `scope` and `maximum` are read from the contract. -/
structure ContinuationState where
  contract : ContinuationContract
  directions : FiniteMap Direction ContinuationDirection

/-- What an attempt to reserve a continuation came to. `unreserved` lets the message
through without a reservation, `repeated` drops it. -/
inductive Reserve (α : Type) where
  | refused (e : OperationError)
  | repeated
  | unreserved
  | reserved (value : α)

/-- A way to reserve a key in a direction: from the direction, the maximum, the key and
the number of the new reservation. -/
abbrev ReserveRule :=
  ContinuationDirection → Nat → ContinuationKey → Nat → ContinuationDirection × Reserve Bool

namespace ContinuationDirection

def empty : ContinuationDirection := ⟨.empty, none, none⟩

variable (current : ContinuationDirection)

/-- The part of `reserveActiveContinuationLocked` below the classification. The value
reserved says whether the record is the overflow record. -/
def reserveActive (maximum : Nat) (key : ContinuationKey) (record : Nat) :
    ContinuationDirection × Reserve Bool :=
  match current.records.get? key with
  | some r => if !r.committed then (current, .refused .continuationPending)
      else (current, .repeated)
  | none =>
    if current.pending.isSome then (current, .refused .continuationPending)
    else
      match current.overflow with
      | some (overflowKey, r) =>
        if overflowKey = key ∧ !r.committed then (current, .refused .continuationPending)
        else (current, .repeated)
      | none =>
        if current.records.size < maximum then
          ({ current with
              records := current.records.insert key ⟨record, false⟩
              pending := some (key, record) }, .reserved false)
        else
          ({ current with
              overflow := some (key, ⟨record, false⟩)
              pending := some (key, record) }, .reserved true)

/-- The part of `reserveReplayContinuationLocked` below the classification. -/
def reserveReplay (maximum : Nat) (key : ContinuationKey) (record : Nat) :
    ContinuationDirection × Reserve Bool :=
  match current.records.get? key with
  | some r => if !r.committed then (current, .refused .continuationPending)
      else (current, .unreserved)
  | none =>
    if current.pending.isSome then (current, .refused .continuationPending)
    else
      match current.overflow with
      | some (overflowKey, r) =>
        if overflowKey = key ∧ r.committed then (current, .unreserved)
        else if overflowKey = key then (current, .refused .continuationPending)
        else (current, .repeated)
      | none => current.reserveActive maximum key record

def clearPending (key : ContinuationKey) (record : Nat) : ContinuationDirection :=
  if current.pending = some (key, record) then { current with pending := none } else current

/-- `settleLocked` on the direction of the reservation. -/
def settle (key : ContinuationKey) (record : Nat) (overflow commit : Bool) :
    ContinuationDirection :=
  if overflow then
    match current.overflow with
    | some (overflowKey, r) =>
      if r.id ≠ record ∨ overflowKey ≠ key then current
      else if commit then
        { current with overflow := some (key, ⟨record, true⟩) }.clearPending key record
      else { current with overflow := none }.clearPending key record
    | none => current
  else
    match current.records.get? key with
    | some r =>
      if r.id ≠ record then current
      else if commit then
        { current with
          records := current.records.insert key ⟨record, true⟩ }.clearPending key record
      else { current with records := current.records.erase key }.clearPending key record
    | none => current

end ContinuationDirection

namespace ContinuationState

variable (state : ContinuationState)

def new (contract : ContinuationContract) : Except OperationError ContinuationState :=
  if contract.maximum = 0 ∨ contract.maximum > maximumOperationContinuations ∨
      contract.scope = zeroDigest then .error .continuationContract
  else .ok ⟨contract, .empty⟩

/-- `direction`, without the entry it makes for a direction not used before. -/
def direction (direction : Direction) : ContinuationDirection :=
  (state.directions.get? direction).getD .empty

def classify (codec : Codec) (direction : Direction) (m : Message) : Classified ContinuationKey :=
  match m.operationContinuationSemanticBody codec direction with
  | none => .untrackedError
  | some body =>
    match state.contract.classify m.kind body with
    | .untracked => .untracked
    | .untrackedError => .untrackedError
    | .trackedError => .trackedError
    | .tracked fingerprint => .tracked ⟨m.kind, fingerprint⟩

/-- A message that is not a candidate is never recognised. -/
theorem classify_of_not_candidate (codec : Codec) (direction : Direction) {m : Message}
    (h : m.kind ≠ .peerCandidate) :
    state.classify codec direction m = .untracked ∨
      state.classify codec direction m = .untrackedError := by
  unfold classify
  split
  · exact Or.inr rfl
  · rw [state.contract.candidates_only _ _ h]
    exact Or.inl rfl

end ContinuationState

/-! ### The peer signalling classifier -/

/-- `ConnectionPurpose` of `v2signal`. -/
abbrev ConnectionPurpose := UInt8

def throughputExploration : ConnectionPurpose := 2

/-- `Binding` of `v2signal`: what every signal of an attempt repeats. -/
structure SignalBinding extends PeerAttemptBinding where
  purpose : ConnectionPurpose
deriving DecidableEq

/-- `Binding.Validate` accepts the binding. -/
def SignalBinding.valid (b : SignalBinding) : Bool :=
  b.purpose ≤ throughputExploration && b.toPeerAttemptBinding.valid

/-- `Binding.RequireSame` accepts the candidate's binding. -/
def SignalBinding.same (b candidate : SignalBinding) : Bool :=
  b.valid && candidate.valid && b == candidate

/-- The signal codec. Of an offer and an answer only the binding is read. -/
structure SignalCodec where
  Candidate : Type
  decodeOffer : List UInt8 → Option SignalBinding
  decodeAnswer : List UInt8 → Option SignalBinding
  decodeCandidate : List UInt8 → Option (SignalBinding × Candidate)
  encodeCandidate : SignalBinding × Candidate → Option (List UInt8)
  sha256 : List UInt8 → Digest

def peerContinuationScopeDomain : List UInt8 :=
  "windshare/v2 peer-continuation-scope\x00".toList.map fun c => UInt8.ofNat c.toNat

namespace SignalCodec

variable (signals : SignalCodec)

def peerContinuationScope (b : SignalBinding) : OperationContinuationScope :=
  signals.sha256 (peerContinuationScopeDomain ++ b.peerPathID.bytes ++ b.attemptID.bytes ++
    [b.peerSlot] ++ bigEndian 8 b.attemptSequence.toNat ++ [b.purpose])

def maximumCandidateCount : Nat := 64

/-- `maximumCandidates`, with zero for the default. -/
def maximumCandidates (configured : Int) : Option Nat :=
  let maximum := if configured = 0 then (maximumCandidateCount : Int) else configured
  if maximum < 1 ∨ maximum > maximumCandidateCount then none else some maximum.toNat

def peerContinuationContract (binding : SignalBinding) (maximum : Nat) : ContinuationContract where
  classify kind body :=
    if kind ≠ .peerCandidate then .untracked
    else
      match signals.decodeCandidate body with
      | none => .trackedError
      | some candidate =>
        if !binding.same candidate.1 then .trackedError
        else
          match signals.encodeCandidate candidate with
          | none => .trackedError
          | some canonical => .tracked (signals.sha256 canonical)
  scope := signals.peerContinuationScope binding
  maximum := maximum
  peerAttempt := some binding.toPeerAttemptBinding
  candidates_only := fun _ _ h => if_pos h

/-- `OperationContinuationClassifier` of `v2signal`. -/
def continuationClassifier (configured : Int) : ContinuationClassifier where
  begin kind body :=
    if kind ≠ .peerOffer then .untracked
    else
      match signals.decodeOffer body, maximumCandidates configured with
      | some binding, some maximum => .tracked (signals.peerContinuationContract binding maximum)
      | _, _ => .trackedError
  classifyUnbound kind body :=
    if kind ≠ .peerCandidate then .untracked
    else
      match maximumCandidates configured, signals.decodeCandidate body with
      | some _, some candidate => .tracked (signals.peerContinuationScope candidate.1)
      | _, _ => .trackedError
  classifyPeerAttempt := some fun kind body =>
    let classified (binding : Option SignalBinding) : Classified PeerAttemptBinding :=
      match binding with
      | none => .trackedError
      | some b => .tracked b.toPeerAttemptBinding
    match kind with
    | .peerOffer => classified (signals.decodeOffer body)
    | .peerAnswer => classified (signals.decodeAnswer body)
    | .peerCandidate => classified ((signals.decodeCandidate body).map Prod.fst)
    | _ => .untracked
  candidates_only := fun _ _ h => if_pos h

end SignalCodec

end Windshare.Operation
