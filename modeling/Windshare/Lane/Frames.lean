import Windshare.Session.Envelope

/-!
# Lane attachment frames

The model of the frames of `protocolsession/lane.go` that a registry reads and writes. A
candidate proves the session's traffic key with a keyed digest over its hello; the answer
is signed. Digest, keyed digest and signature are parameters.
-/

namespace Windshare.Lane

open Windshare.Library Windshare.Session

abbrev Bytes := List UInt8

/-- `HMAC-SHA256`, `SHA-256` and `Ed25519` signing. -/
structure Crypto where
  hmac : (key message : Bytes) → Bytes
  sha256 : Bytes → Bytes
  sign : (key message : Bytes) → Bytes

def laneAttachNonceBytes : Nat := 16
def laneSenderNonceBytes : Nat := 16
def sha256Bytes : Nat := 32
def privateKeyBytes : Nat := 64
def laneHelloBodyBytes : Nat := 4 + 1 + 16 + 16 + 4 + 4 + 16 + laneAttachNonceBytes
def laneHelloBytes : Nat := laneHelloBodyBytes + sha256Bytes

def ascii (text : String) : Bytes := text.toList.map fun c => UInt8.ofNat c.toNat

def laneHelloMagic : Bytes := ascii "WS2A"
def laneAcceptMagic : Bytes := ascii "WS2B"
def laneRejectMagic : Bytes := ascii "WS2N"
def laneHelloDomain : Bytes := ascii "windshare/v2 lane-hello\x00"
def laneAcceptDomain : Bytes := ascii "windshare/v2 lane-accept\x00"
def laneRejectDomain : Bytes := ascii "windshare/v2 lane-reject\x00"

/-- The errors of the registry and of its frames. -/
inductive LaneError where
  | input
  | malformed
  | proof
  | grantBudget
  | epoch
  | unknown
  | stopping
  | settlementUnclaimed
deriving DecidableEq, Repr

/-- `[LaneAttachNonceBytes]byte`. -/
structure AttachNonce where
  bytes : Bytes
  length_eq : bytes.length = laneAttachNonceBytes
deriving DecidableEq

structure LaneGrant where
  laneID : UInt32
  laneEpoch : UInt32
  operationID : Identity
  attachNonce : AttachNonce
deriving DecidableEq

/-- `LaneHello` as `laneHelloFromBody` makes it; a hello that is held is valid. -/
structure LaneHello where
  encoded : Bytes
  share : Identity
  session : Identity
  laneID : UInt32
  laneEpoch : UInt32
  operationID : Identity
  attachNonce : AttachNonce
deriving DecidableEq

/-- The grant that a hello claims to hold. -/
def LaneHello.grant (hello : LaneHello) : LaneGrant where
  laneID := hello.laneID
  laneEpoch := hello.laneEpoch
  operationID := hello.operationID
  attachNonce := hello.attachNonce

def laneNonzero (value : Bytes) : Bool := value.any (· ≠ 0)

def laneHelloFromBody (body proof : Bytes) : Except LaneError LaneHello :=
  match identityAt body 5, identityAt body 21, identityAt body 45, identityAt body 61 with
  | some share, some session, some operationID, some nonce =>
    let laneID := uint32At body 37
    let laneEpoch := uint32At body 41
    if share.isZero ∨ session.isZero ∨ laneID = 0 ∨ laneEpoch = 0 ∨ operationID.isZero then
      .error .malformed
    else
      .ok {
        encoded := body ++ proof
        share, session, laneID, laneEpoch, operationID
        attachNonce := ⟨nonce.bytes, nonce.length_eq⟩ }
  | _, _, _, _ => .error .malformed

namespace Crypto

variable (c : Crypto)

def laneProof (key body : Bytes) : Bytes := c.hmac key (laneHelloDomain ++ body)

/-- `ParseLaneHello`; a destroyed traffic key is `none`. -/
def parseLaneHello (encoded : Bytes) (receiverToSender : Option Bytes) :
    Except LaneError LaneHello :=
  match receiverToSender with
  | none => .error .malformed
  | some key =>
    if encoded.length ≠ laneHelloBytes then .error .malformed
    else
      let body := encoded.take laneHelloBodyBytes
      let proof := encoded.drop laneHelloBodyBytes
      if body.take 4 ≠ laneHelloMagic ∨ body[4]? ≠ some wireVersion then .error .malformed
      else if c.laneProof key body ≠ proof then .error .proof
      else laneHelloFromBody body proof

def newLaneAccept (hello : LaneHello) (senderNonce key : Bytes) : Except LaneError Bytes :=
  if senderNonce.length ≠ laneSenderNonceBytes ∨ laneNonzero senderNonce = false ∨
      key.length ≠ privateKeyBytes then .error .input
  else
    let body := laneAcceptMagic ++ [wireVersion] ++ c.sha256 hello.encoded ++ senderNonce
    .ok (body ++ c.sign key (laneAcceptDomain ++ c.sha256 body))

end Crypto

inductive LaneRejectCode where
  | unknownSession
  | staleEpoch
  | grantExpired
  | grantConsumed
  | admissionLimited
  | stopping
  | grantMismatch
deriving DecidableEq, Repr

def LaneRejectCode.byte : LaneRejectCode → UInt8
  | .unknownSession => 1
  | .staleEpoch => 2
  | .grantExpired => 3
  | .grantConsumed => 4
  | .admissionLimited => 5
  | .stopping => 6
  | .grantMismatch => 7

/-- `LaneRejection`, its retry in nanoseconds. -/
structure LaneRejection where
  code : LaneRejectCode
  retryAfter : Nat
deriving DecidableEq, Repr

def millisecond : Nat := 1000000

def maxLaneRetryAfter : Nat := 30000 * millisecond

def Crypto.newLaneReject (c : Crypto) (hello : LaneHello) (rejection : LaneRejection)
    (key : Bytes) : Except LaneError Bytes :=
  if key.length ≠ privateKeyBytes ∨ rejection.retryAfter > maxLaneRetryAfter ∨
      (rejection.code ≠ .admissionLimited ∧ rejection.retryAfter ≠ 0) ∨
      rejection.retryAfter % millisecond ≠ 0 then .error .input
  else
    let body := laneRejectMagic ++ [wireVersion, rejection.code.byte, 0, 0] ++
      c.sha256 hello.encoded ++ bigEndian 4 (rejection.retryAfter / millisecond)
    .ok (body ++ c.sign key (laneRejectDomain ++ c.sha256 body))

end Windshare.Lane
