import Windshare.Relay.Codec.Record

/-!
# Control frames

Every control frame opens with a magic, the wire version, a discriminator and two reserved zero
bytes, and its decoder consumes the whole layout. SHA-256 and Ed25519 are parameters: a digest,
the keys that are accepted, and the signatures that verify.
-/

namespace Windshare.Relay

open Windshare.Library Layout Codec Flow

/-- What the relay takes from SHA-256 and Ed25519. -/
structure Crypto where
  sha256 : List UInt8 → List UInt8
  /-- `SenderPublicKey::from_bytes` accepts the encoding. -/
  acceptsKey : List UInt8 → Bool
  /-- `SenderPublicKey::verify`, of a key, a message and a signature. -/
  verify : List UInt8 → List UInt8 → List UInt8 → Bool

def Crypto.sha256Prefix (crypto : Crypto) (width : Nat) (parts : List (List UInt8)) : Nat :=
  ofBigEndian ((crypto.sha256 parts.flatten).take width)

/-- `SHARE_ID_DOMAIN`, "windshare/v2 share-id" and a zero byte. -/
def shareIdDomain : List UInt8 :=
  [119, 105, 110, 100, 115, 104, 97, 114, 101, 47, 118, 50, 32,
    115, 104, 97, 114, 101, 45, 105, 100, 0]

/-- `SENDER_KEY_DOMAIN`, "windshare/v2 sender-key" and a zero byte. -/
def senderKeyDomain : List UInt8 :=
  [119, 105, 110, 100, 115, 104, 97, 114, 101, 47, 118, 50, 32,
    115, 101, 110, 100, 101, 114, 45, 107, 101, 121, 0]

/-- The share identity that `ShareRoute::new` derives from a key hash. -/
def Crypto.derived (crypto : Crypto) : ShareDerivation := fun pkHash =>
  crypto.sha256Prefix 12 [shareIdDomain, bigEndian 16 pkHash.value]

def PkHash.of (crypto : Crypto) (sender : List UInt8) : PkHash :=
  ⟨crypto.sha256Prefix 16 [senderKeyDomain, sender]⟩

def DescriptorDigest.of (crypto : Crypto) (descriptor : List UInt8) : DescriptorDigest :=
  ⟨crypto.sha256Prefix 32 [descriptor]⟩

/-! ### Headers -/

inductive FrameError where
  | length
  | header
  | discriminator
  | field
deriving DecidableEq, Repr

def wireVersion : UInt8 := 2

/-- `Writer::with_header`. -/
def putHeader (magic : List UInt8) (discriminator : UInt8) : List UInt8 :=
  magic ++ [wireVersion, discriminator, 0, 0]

def discriminatorOf (magic header : List UInt8) : Option UInt8 :=
  if header.take 4 = magic ∧ header[4]? = some wireVersion ∧ header.drop 6 = [0, 0] then header[5]?
  else none

def openDiscriminated (magic : List UInt8) : LayoutReader FrameError UInt8 :=
  convert (field 8 .length) (discriminatorOf magic) .header

def openReserved (magic : List UInt8) : LayoutReader FrameError Unit :=
  convert (openDiscriminated magic) (fun d => if d = 0 then some () else none) .header

def registerInitMagic : List UInt8 := [87, 83, 50, 82]
def registerProofMagic : List UInt8 := [87, 83, 50, 80]
def resumeCredentialMagic : List UInt8 := [87, 83, 50, 84]
def stopInitMagic : List UInt8 := [87, 83, 50, 88]
def stopProofMagic : List UInt8 := [87, 83, 50, 86]
def joinMagic : List UInt8 := [87, 83, 50, 74]
def descriptorUploadMagic : List UInt8 := [87, 83, 50, 85]
def challengeMagic : List UInt8 := [87, 83, 50, 81]

/-! ### Challenges -/

/-- Relay-chosen identifier of one challenge. -/
structure ChallengeId where
  value : Nat
deriving DecidableEq, Repr

structure ChallengeNonce where
  value : Nat
deriving DecidableEq, Repr

inductive ChallengePurpose where
  | register
  | resume
  | stop
deriving DecidableEq, Repr

def ChallengePurpose.wire : ChallengePurpose → UInt8
  | .register => 0
  | .resume => 1
  | .stop => 2

/-- `ChallengeSeed`: neither value is all zeros. -/
structure ChallengeSeed where
  id : ChallengeId
  nonce : ChallengeNonce
  id_nonzero : Nonzero 16 id.value
  nonce_nonzero : Nonzero 32 nonce.value
deriving DecidableEq

def UnixMillis.ceilSeconds (at' : UnixMillis) : Nat := (at' + 999) / 1000

def secondsStart (seconds : Nat) : UnixMillis := min (seconds * 1000) u64Max

structure Challenge where
  purpose : ChallengePurpose
  id : ChallengeId
  nonce : ChallengeNonce
  expiresAt : Nat
deriving DecidableEq, Repr

namespace Challenge

/-- `Challenge::issue`: it expires with the handshake that holds it. -/
def issue (purpose : ChallengePurpose) (seed : ChallengeSeed) (deadline : UnixMillis) :
    Challenge where
  purpose := purpose
  id := seed.id
  nonce := seed.nonce
  expiresAt := UnixMillis.ceilSeconds deadline

def isLiveAt (c : Challenge) (now : UnixMillis) : Bool := now < secondsStart c.expiresAt

def putBody (c : Challenge) : List UInt8 :=
  [bigEndian 16 c.id.value, bigEndian 32 c.nonce.value, bigEndian 8 c.expiresAt].flatten

def encode (c : Challenge) : List UInt8 := putHeader challengeMagic c.purpose.wire ++ c.putBody

end Challenge

/-! ### Requests -/

inductive RegistrationMode where
  | fresh
  | resume
deriving DecidableEq, Repr

/-- "windshare/v2 relay-register" and a zero byte. -/
def registerDomain : List UInt8 :=
  [119, 105, 110, 100, 115, 104, 97, 114, 101, 47, 118, 50, 32, 114, 101, 108, 97, 121, 45,
    114, 101, 103, 105, 115, 116, 101, 114, 0]

/-- "windshare/v2 relay-resume" and a zero byte. -/
def resumeDomain : List UInt8 :=
  [119, 105, 110, 100, 115, 104, 97, 114, 101, 47, 118, 50, 32, 114, 101, 108, 97, 121, 45,
    114, 101, 115, 117, 109, 101, 0]

/-- "windshare/v2 relay-stop" and a zero byte. -/
def stopDomain : List UInt8 :=
  [119, 105, 110, 100, 115, 104, 97, 114, 101, 47, 118, 50, 32, 114, 101, 108, 97, 121, 45,
    115, 116, 111, 112, 0]

namespace RegistrationMode

def wire : RegistrationMode → UInt8
  | .fresh => 0
  | .resume => 1

def fromWire (discriminator : UInt8) : Option RegistrationMode :=
  if discriminator = 0 then some .fresh
  else if discriminator = 1 then some .resume
  else none

def challengePurpose : RegistrationMode → ChallengePurpose
  | .fresh => .register
  | .resume => .resume

def domain : RegistrationMode → List UInt8
  | .fresh => registerDomain
  | .resume => resumeDomain

end RegistrationMode

def readReceiveCapacity : LayoutReader FrameError ReceiveCapacity :=
  convert (counts .length)
    (fun c => if h : c.frames ≠ 0 ∧ c.encodedBytes ≠ 0 then some ⟨c, h⟩ else none) .field

structure RegisterInit where
  mode : RegistrationMode
  registration : Registration
  receiveCapacity : ReceiveCapacity
deriving DecidableEq

/-- The fields of a `WS2R` frame before the identities are checked. -/
structure RegisterInitFields where
  mode : RegistrationMode
  shareId : Nat
  shareInstance : Nat
  pkHash : Nat
  descriptorDigest : Nat
  resumeTokenHash : Nat
  receiveCapacity : ReceiveCapacity

namespace RegisterInit

def readFields : LayoutReader FrameError RegisterInitFields := do
  let mode ← convert (openDiscriminated registerInitMagic) RegistrationMode.fromWire .discriminator
  let shareId ← number 12 .length
  let shareInstance ← number 16 .length
  let pkHash ← number 16 .length
  let descriptorDigest ← number 32 .length
  let resumeTokenHash ← number 32 .length
  let receiveCapacity ← readReceiveCapacity
  return ⟨mode, shareId, shareInstance, pkHash, descriptorDigest, resumeTokenHash, receiveCapacity⟩

/-- `RegisterInit::decode`: the length is checked before the identities. -/
def decode (crypto : Crypto) (encoded : List UInt8) : Except FrameError RegisterInit := do
  let fields ← Layout.decode readFields .length encoded
  let route ← (ShareRoute.fromWire crypto.derived fields.shareId fields.pkHash).elim
    (.error .field) .ok
  Library.refuse (fields.shareInstance = 0) FrameError.field
  return {
    mode := fields.mode
    registration := ⟨route, ⟨fields.shareInstance⟩, ⟨fields.descriptorDigest⟩,
      ⟨fields.resumeTokenHash⟩⟩
    receiveCapacity := fields.receiveCapacity }

/-- What the sender of this registration signs. -/
def preimage (init : RegisterInit) (challenge : Challenge) (relay : RelayIdentity) : List UInt8 :=
  [init.mode.domain, bigEndian 12 init.registration.route.shareId.value,
    bigEndian 16 init.registration.shareInstance.value,
    bigEndian 16 init.registration.route.pkHash.value,
    bigEndian 32 init.registration.descriptorDigest.value,
    bigEndian 32 init.registration.resumeTokenHash.value, bigEndian 32 relay.value,
    challenge.putBody, putCounts init.receiveCapacity.counts].flatten

end RegisterInit

structure StopInit where
  route : ShareRoute
  shareInstance : ShareInstance
  relay : RelayIdentity
  stopId : StopId
deriving DecidableEq, Repr

/-- The fields of a `WS2X` frame before the identities are checked. -/
structure StopInitFields where
  shareId : Nat
  shareInstance : Nat
  pkHash : Nat
  relay : Nat
  stopId : Nat

namespace StopInit

def readFields : LayoutReader FrameError StopInitFields := do
  openReserved stopInitMagic
  let shareId ← number 12 .length
  let shareInstance ← number 16 .length
  let pkHash ← number 16 .length
  let relay ← number 32 .length
  let stopId ← number 16 .length
  return { shareId, shareInstance, pkHash, relay, stopId }

def decode (crypto : Crypto) (encoded : List UInt8) : Except FrameError StopInit := do
  let fields ← Layout.decode readFields .length encoded
  let route ← (ShareRoute.fromWire crypto.derived fields.shareId fields.pkHash).elim
    (.error .field) .ok
  Library.refuse (fields.shareInstance = 0) FrameError.field
  Library.refuse (fields.relay = 0) FrameError.field
  Library.refuse (fields.stopId = 0) FrameError.field
  return ⟨route, ⟨fields.shareInstance⟩, ⟨fields.relay⟩, ⟨fields.stopId⟩⟩

/-- What the sender of this STOP signs. -/
def preimage (init : StopInit) (challenge : Challenge) : List UInt8 :=
  [stopDomain, bigEndian 12 init.route.shareId.value, bigEndian 16 init.shareInstance.value,
    bigEndian 16 init.route.pkHash.value, bigEndian 32 init.relay.value,
    bigEndian 16 init.stopId.value, challenge.putBody].flatten

end StopInit

structure Join where
  shareId : ShareId
  receiveCapacity : ReceiveCapacity
deriving DecidableEq

def Join.decode (encoded : List UInt8) : Except FrameError Join := do
  let (shareId, receiveCapacity) ← Layout.decode (do
    openReserved joinMagic
    let shareId ← number 12 FrameError.length
    let receiveCapacity ← readReceiveCapacity
    return (shareId, receiveCapacity)) .length encoded
  Library.refuse (shareId = 0) FrameError.field
  return ⟨⟨shareId⟩, receiveCapacity⟩

/-! ### Proofs, credentials and uploads -/

/-- `SenderProof`: an accepted key and a signature that is not all zeros. -/
structure SenderProof where
  sender : List UInt8
  signature : List UInt8
deriving DecidableEq, Repr

def SenderProof.read (crypto : Crypto) : LayoutReader FrameError SenderProof := do
  let sender ← convert (field 32 .length)
    (fun key => if crypto.acceptsKey key then some key else none) .field
  let signature ← convert (field 64 .length)
    (fun bytes => if bytes = List.replicate 64 0 then none else some bytes) .field
  return ⟨sender, signature⟩

structure RegisterProof where
  mode : RegistrationMode
  proof : SenderProof
deriving DecidableEq, Repr

def RegisterProof.decode (crypto : Crypto) (encoded : List UInt8) :
    Except FrameError RegisterProof :=
  Layout.decode (do
    let mode ← convert (openDiscriminated registerProofMagic) RegistrationMode.fromWire
      .discriminator
    let proof ← SenderProof.read crypto
    return ⟨mode, proof⟩) .length encoded

def StopProof.decode (crypto : Crypto) (encoded : List UInt8) : Except FrameError SenderProof :=
  Layout.decode (do
    openReserved stopProofMagic
    SenderProof.read crypto) .length encoded

def ResumeCredential.decode (encoded : List UInt8) : Except FrameError (List UInt8) :=
  Layout.decode (do
    openReserved resumeCredentialMagic
    convert (field 32 .length)
      (fun token => if token = List.replicate 32 0 then none else some token) .field)
    .length encoded

def ResumeTokenHash.of (crypto : Crypto) (token : List UInt8) : ResumeTokenHash :=
  ⟨crypto.sha256Prefix 32 [token]⟩

def maxDescriptorBytes : Nat := 16 * 1024

def DescriptorUpload.decode (encoded : List UInt8) : Except FrameError (List UInt8) := do
  let (declared, object) ← (do
    openReserved descriptorUploadMagic
    number 4 FrameError.length : LayoutReader FrameError Nat).run encoded
  Library.refuse (object = [] ∨ maxDescriptorBytes < object.length ∨ declared ≠ object.length)
    FrameError.length
  return object

end Windshare.Relay
