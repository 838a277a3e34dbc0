import Windshare.Operation.Message
import Windshare.Session.WebFailure

/-!
# Peer bindings in the web client

What the web client reads of a peer offer, answer or candidate: the attempt that the first six
fields name. The fields after them belong to the consumer of the message.
-/

namespace Windshare.WebOperation

open Windshare.Library Windshare.Library.Cbor Windshare.Protocol Windshare.Session

structure PeerBinding where
  purpose : Nat
  peerSlot : Nat
  peerPathId : List UInt8
  attemptId : List UInt8
  attemptSequence : Nat
deriving DecidableEq, Repr

/-- What `decodePeerBinding` throws: the errors of the schema helpers, and its own. -/
inductive BindingError where
  | cbor (e : CborError)
  | version
  | purpose
  | sequence
  | slot
deriving DecidableEq, Repr

def continuationSchemaVersion : Nat := 4

def maximumOperationBodyBytes : Nat := 65536 - 44

/-- The binding of the first six fields. -/
def readBinding : List Value → Except BindingError PeerBinding
  | version :: path :: attempt :: sequence :: slot :: purpose :: _ => do
      let version ← (requireUnsigned version).mapError BindingError.cbor
      refuse (version ≠ continuationSchemaVersion) .version
      let purpose ← (requireUnsigned purpose).mapError BindingError.cbor
      refuse (purpose > 2) .purpose
      let attemptSequence ← (requireUnsigned sequence).mapError BindingError.cbor
      refuse (attemptSequence = 0 ∨ attemptSequence > 0xffffffffffffffff) .sequence
      let peerSlot ← (requireUnsigned slot).mapError BindingError.cbor
      refuse (peerSlot ≥ peerContinuationSlots) .slot
      let peerPathId ← (requireBytes path 16 true).mapError BindingError.cbor
      let attemptId ← (requireBytes attempt 16 true).mapError BindingError.cbor
      return ⟨purpose, peerSlot, peerPathId, attemptId, attemptSequence⟩
  | _ => .error .version

def decodePeerBinding (package : PackageDecoder) (nfc : String → Bool) (body : List UInt8)
    (length : Nat) : Except BindingError PeerBinding := do
  let value ← (decodeCanonicalCbor package nfc body maximumOperationBodyBytes).mapError
    BindingError.cbor
  let fields ← (requireArray value length).mapError BindingError.cbor
  refuse (fields.length ≠ length) .version
  readBinding fields

end Windshare.WebOperation
