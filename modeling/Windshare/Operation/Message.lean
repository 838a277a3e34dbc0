import Windshare.Session.Envelope

/-!
# Operation messages

Message kinds and the fingerprint by which the operation table recognises a
repeated message. Digests, the signed wrapper of sender controls and the failure
schema are codecs of other packages and enter as the functions of a `Codec`.
-/

namespace Windshare.Operation

open Windshare.Session

/-- `MessageKind`, the values a decoded message can have. -/
inductive MessageKind where
  | listChildren
  | catalogResult
  | openRevisions
  | openResults
  | renewLease
  | releaseLease
  | requestBlocks
  | blockFragment
  | cancel
  | operationError
  | sessionTerminal
  | laneAttach
  | scanProgress
  | operationComplete
  | leaseResult
  | peerOffer
  | peerAnswer
  | peerCandidate
  | peerPathControl
  | turnControl
deriving DecidableEq, Repr

namespace MessageKind

/-- The wire value of a kind. -/
def byte : MessageKind → UInt8
  | listChildren => 1
  | catalogResult => 2
  | openRevisions => 3
  | openResults => 4
  | renewLease => 5
  | releaseLease => 6
  | requestBlocks => 7
  | blockFragment => 8
  | cancel => 9
  | operationError => 10
  | sessionTerminal => 11
  | laneAttach => 12
  | scanProgress => 13
  | operationComplete => 14
  | leaseResult => 15
  | peerOffer => 16
  | peerAnswer => 17
  | peerCandidate => 18
  | peerPathControl => 19
  | turnControl => 20

theorem byte_inj {kind kind' : MessageKind} (h : kind.byte = kind'.byte) : kind = kind' := by
  have hread (kind : MessageKind) : MessageKind.ofNat (kind.byte.toNat - 1) = kind := by
    cases kind <;> rfl
  rw [← hread kind, h, hread kind']

def isSessionControl : MessageKind → Bool
  | peerPathControl => true
  | turnControl => true
  | _ => false

def isRequest : MessageKind → Bool
  | listChildren => true
  | openRevisions => true
  | renewLease => true
  | releaseLease => true
  | requestBlocks => true
  | peerOffer => true
  | _ => false

def isFinal : MessageKind → Bool
  | catalogResult => true
  | openResults => true
  | cancel => true
  | operationError => true
  | operationComplete => true
  | leaseResult => true
  | _ => false

def isOperationControl : MessageKind → Bool
  | catalogResult => true
  | openResults => true
  | operationError => true
  | scanProgress => true
  | operationComplete => true
  | leaseResult => true
  | peerAnswer => true
  | peerCandidate => true
  | _ => false

/-- The kinds `senderControlDomain` knows. -/
def isSenderControl : MessageKind → Bool
  | peerPathControl => true
  | turnControl => true
  | sessionTerminal => true
  | laneAttach => true
  | kind => kind.isOperationControl

end MessageKind

abbrev OperationID := Identity

abbrev Digest := List UInt8

/-- `[32]byte{}`. -/
def zeroDigest : Digest := List.replicate 32 0

/-- `validateMessageIdentity` accepts the identity: session messages have none, and
every other message has one that is not zero. -/
def validMessageIdentity (kind : MessageKind) (operationID : Option OperationID) : Bool :=
  if kind = .sessionTerminal ∨ kind.isSessionControl then operationID.isNone
  else operationID.any fun id => !id.isZero

/-- A message as `NewMessage` and `DecodeMessage` build it. -/
structure Message where
  kind : MessageKind
  operationID : Option OperationID
  body : List UInt8
  identity : validMessageIdentity kind operationID
deriving DecidableEq

structure PeerAttemptBinding where
  peerSlot : UInt8
  peerPathID : Identity
  attemptID : Identity
  attemptSequence : UInt64
deriving DecidableEq

/-- `peerslot.Count`. -/
def peerSlotCount : UInt8 := 4

def PeerAttemptBinding.valid (b : PeerAttemptBinding) : Bool :=
  b.peerSlot < peerSlotCount && !b.peerPathID.isZero && !b.attemptID.isZero &&
    b.attemptSequence != 0

/-- The codecs the table calls. `decodeOperationFailure` gives the peer attempt a
failure names, if any. -/
structure Codec where
  sha256 : List UInt8 → Digest
  decodeSignedControlBody : List UInt8 → Option (List UInt8)
  encodeUnsignedControlWrapper : List UInt8 → Option (List UInt8)
  decodeOperationFailure : List UInt8 → Option (Option PeerAttemptBinding)

namespace Message

variable (codec : Codec) (m : Message)

/-- `operationFingerprintBody`: the signature of a sender control names its lane and
sequence, so repeats on another lane are compared without it. -/
def operationFingerprintBody (direction : Direction) : List UInt8 :=
  if direction ≠ .senderToReceiver then m.body
  else if !m.kind.isSenderControl then m.body
  else
    match codec.decodeSignedControlBody m.body with
    | none => m.body
    | some semantic =>
      match codec.encodeUnsignedControlWrapper semantic with
      | none => m.body
      | some unsigned => unsigned

/-- What `operationFingerprint` hashes. -/
def fingerprintPreimage (direction : Direction) : List UInt8 :=
  let id := (m.operationID.map Identity.bytes).getD Identity.zero.bytes
  [direction.byte, m.kind.byte] ++ id ++ m.operationFingerprintBody codec direction

def operationFingerprint (direction : Direction) : Digest :=
  codec.sha256 (m.fingerprintPreimage codec direction)

def operationContinuationSemanticBody (direction : Direction) : Option (List UInt8) :=
  if direction = .senderToReceiver ∧ m.kind.isSenderControl then
    codec.decodeSignedControlBody m.body
  else some m.body

/-- A message of an operation is no session message. -/
theorem kind_of_operationID {id : OperationID} (h : m.operationID = some id) :
    m.kind ≠ .sessionTerminal ∧ m.kind.isSessionControl = false := by
  have hidentity := m.identity
  rw [h] at hidentity
  unfold validMessageIdentity at hidentity
  split at hidentity
  · cases hidentity
  · rename_i hkind
    rw [not_or] at hkind
    exact ⟨hkind.1, by simpa using hkind.2⟩

end Message

def messageAllowedForOperation (requestKind messageKind : MessageKind) : Bool :=
  if messageKind = .operationError then true
  else
    match requestKind with
    | .listChildren => messageKind == .scanProgress || messageKind == .catalogResult
    | .openRevisions => messageKind == .openResults
    | .renewLease => messageKind == .leaseResult
    | .releaseLease => messageKind == .operationComplete
    | .requestBlocks => messageKind == .blockFragment || messageKind == .operationComplete
    | .laneAttach => messageKind == .laneAttach
    | .peerOffer => messageKind == .peerAnswer || messageKind == .peerCandidate
    | _ => false

def validKindDirection : Direction → MessageKind → Bool
  | .receiverToSender, kind =>
    kind.isRequest || kind == .cancel || kind == .operationError || kind == .laneAttach ||
      kind == .peerCandidate || kind.isSessionControl
  | .senderToReceiver, kind =>
    match kind with
    | .catalogResult => true
    | .openResults => true
    | .blockFragment => true
    | .operationError => true
    | .sessionTerminal => true
    | .laneAttach => true
    | .scanProgress => true
    | .operationComplete => true
    | .leaseResult => true
    | .peerAnswer => true
    | .peerCandidate => true
    | .peerPathControl => true
    | .turnControl => true
    | _ => false

end Windshare.Operation
