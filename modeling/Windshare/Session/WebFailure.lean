import Windshare.Library.Fallible
import Windshare.Protocol.Cbor
import Windshare.Session.OperationFailure

/-!
# Operation failures in the web client

The model of `decodeOperationErrorControl` in `session/message.ts` and its agreement with the Go
codec.
-/

namespace Windshare.Session

open Windshare.Library
open Windshare.Library.Cbor
open Windshare.Protocol

def maximumPlaintextBytes : Nat := 65536 - 44
def maximumRemoteErrorMessageBytes : Nat := 512

def peerContinuationSlots : Nat := 4

inductive FailureScope where
  | directory
  | revision
  | block
  | peer
deriving DecidableEq, Repr

/-- The errors of the decoder: those of the schema helpers, and its own. -/
inductive WebFailureError where
  | cbor (e : CborError)
  | schema
  | scope
  | code
  | permanent
  | delay
  | message
  | peerBinding
  | peerSequence
  | peerSlot
deriving DecidableEq, Repr

/-- `PeerAttemptBinding`. -/
structure WebPeerAttempt where
  peerPathId : List UInt8
  attemptId : List UInt8
  attemptSequence : Nat
  peerSlot : Nat
deriving DecidableEq, Repr

structure OperationErrorControl where
  scope : FailureScope
  code : Nat
  retryable : Bool
  retryAfterMilliseconds : Option Nat
  message : String
  peerAttempt : Option WebPeerAttempt
deriving DecidableEq, Repr

/-- A helper applied to a field of a map; a missing field is undefined, which none accepts. -/
def requireField {α : Type} (require : Value → Except CborError α) (fields : List (Nat × Value))
    (key : Nat) (missing : CborError) : Except WebFailureError α :=
  match fields.lookup key with
  | none => .error (.cbor missing)
  | some v => (require v).mapError .cbor

def operationErrorScope (n : Nat) : Except WebFailureError FailureScope :=
  if n = 2 then .ok .directory
  else if n = 3 then .ok .revision
  else if n = 4 then .ok .block
  else if n = 5 then .ok .peer
  else .error .scope

def operationErrorCodeRange : FailureScope → Nat × Nat
  | .directory => (0x2001, 0x2008)
  | .revision => (0x3001, 0x3008)
  | .block => (0x4001, 0x4006)
  | .peer => (0x5000, 0x5fff)

def operationRetryDelay (retryable : Bool) (field : Option Value) :
    Except WebFailureError (Option Nat) :=
  match retryable, field with
  | false, some .null => .ok none
  | false, _ => .error .delay
  | true, some (.unsigned delay) =>
    if delay < 1 ∨ delay > 30000 then .error .delay else .ok (some delay)
  | true, _ => .error (.cbor .unsigned)

def requireBoundedMessage (nfc : String → Bool) (fields : List (Nat × Value)) :
    Except WebFailureError String :=
  match requireField (requireText nfc) fields 5 .text with
  | .error e => .error e
  | .ok message =>
    if message = "" ∨ nfc message = false ∨
        (utf8 message).length > maximumRemoteErrorMessageBytes then .error .message
    else .ok message

def readPeerAttempt : List Value → Except WebFailureError WebPeerAttempt
  | [path, attempt, sequence, slot] => do
      let attemptSequence ← (requireUnsigned sequence).mapError WebFailureError.cbor
      refuse (attemptSequence = 0 ∨ attemptSequence > 0xffffffffffffffff) .peerSequence
      let peerPathId ← (requireBytes path 16 true).mapError WebFailureError.cbor
      let attemptId ← (requireBytes attempt 16 true).mapError WebFailureError.cbor
      let peerSlot ← (requireUnsigned slot).mapError WebFailureError.cbor
      refuse (peerSlot ≥ peerContinuationSlots) .peerSlot
      return ⟨peerPathId, attemptId, attemptSequence, peerSlot⟩
  | _ => .error .peerBinding

def decodeErrorPeerAttempt (v : Value) : Except WebFailureError WebPeerAttempt := do
  let fields ← (requireArray v 4).mapError WebFailureError.cbor
  readPeerAttempt fields

def errorPeerAttempt (peer : Bool) (fields : List (Nat × Value)) :
    Except WebFailureError (Option WebPeerAttempt) :=
  match peer, fields.lookup 6 with
  | false, _ => .ok none
  | true, none => .error (.cbor .boundedArray)
  | true, some v => (decodeErrorPeerAttempt v).map some

/-- The fields of a body that has the keys of its schema. -/
def readFields (nfc : String → Bool) (peer : Bool) (fields : List (Nat × Value)) :
    Except WebFailureError OperationErrorControl := do
  let schema ← requireField requireUnsigned fields 0 .unsigned
  refuse (schema ≠ if peer then 3 else 1) .schema
  let scope ← operationErrorScope (← requireField requireUnsigned fields 1 .unsigned)
  let code ← requireField requireUnsigned fields 2 .unsigned
  refuse (code < (operationErrorCodeRange scope).1 ∨ code > (operationErrorCodeRange scope).2) .code
  let retryable ← requireField requireBoolean fields 3 .boolean
  refuse (scope = .peer ∧ retryable = true) .permanent
  let delay ← operationRetryDelay retryable (fields.lookup 4)
  let message ← requireBoundedMessage nfc fields
  let peerAttempt ← errorPeerAttempt peer fields
  return ⟨scope, code, retryable, delay, message, peerAttempt⟩

def failureKeys (peer : Bool) : List Nat :=
  if peer then [0, 1, 2, 3, 4, 5, 6] else [0, 1, 2, 3, 4, 5]

def readErrorControl (nfc : String → Bool) (decoded : Value) :
    Except WebFailureError OperationErrorControl :=
  match decoded with
  | .map entries => do
      let peer := (← requireField requireUnsigned entries 1 .unsigned) == 5
      let fields ← (requireNumericMap decoded (failureKeys peer)).mapError WebFailureError.cbor
      readFields nfc peer fields
  | _ => .error (.cbor .fields)

def decodeOperationErrorControl (package : PackageDecoder) (nfc : String → Bool)
    (body : List UInt8) : Except WebFailureError OperationErrorControl := do
  let decoded ← (decodeCanonicalCbor package nfc body maximumPlaintextBytes).mapError
    WebFailureError.cbor
  readErrorControl nfc decoded

/-! ### The same failures -/

/-- The wire value of a scope. -/
def FailureScope.byte : FailureScope → UInt8
  | .directory => operationScopeDirectory
  | .revision => operationScopeRevision
  | .block => operationScopeBlock
  | .peer => operationScopePeer

def scopeOf (scope : UInt8) : FailureScope :=
  if scope = operationScopeDirectory then .directory
  else if scope = operationScopeRevision then .revision
  else if scope = operationScopeBlock then .block
  else .peer

def PeerAttemptBinding.toWeb (b : PeerAttemptBinding) : WebPeerAttempt :=
  ⟨b.peerPathID.bytes, b.attemptID.bytes, b.attemptSequence.toNat, b.peerSlot.toNat⟩

/-- What the web client makes of a failure. -/
def OperationFailure.toWeb (f : OperationFailure) : OperationErrorControl where
  scope := scopeOf f.scope
  code := f.code.toNat
  retryable := f.retryable
  retryAfterMilliseconds :=
    if f.retryable then some (f.retryAfter / millisecond).toNat else none
  message := (textOf f.message).getD ""
  peerAttempt := f.peerAttempt.map PeerAttemptBinding.toWeb

variable {message : String} {fields : List (Nat × Value)} {f : OperationFailure}
  {scope : FailureScope} {a b c d e g : Value}

variable {nfc : String → Bool} {v : Value} {w : OperationErrorControl}

theorem length_head_le (major n : Nat) : (head major n).length ≤ 9 := by
  unfold head
  repeat' split
  all_goals simp

theorem length_encode_bindingValue (b : PeerAttemptBinding) :
    (encode (bindingValue b)).length ≤ 100 := by
  have hpath := b.peerPathID.length_eq
  have hattempt := b.attemptID.length_eq
  have hhead := length_head_le
  unfold bindingValue
  simp only [encode, encodeItems, List.length_append, List.length_nil, List.length_cons, hpath,
    hattempt]
  have h0 := hhead 4 (0 + 1 + 1 + 1 + 1)
  have h1 := hhead 2 16
  have h2 := hhead 0 b.attemptSequence.toNat
  have h3 := hhead 0 b.peerSlot.toNat
  omega

theorem encodeFields_append (fields rest : List (Nat × Value)) :
    encodeFields (fields ++ rest) = encodeFields fields ++ encodeFields rest := by
  induction fields with
  | nil => rfl
  | cons field fields ih =>
    obtain ⟨key, value⟩ := field
    rw [List.cons_append, encodeFields, encodeFields, ih, List.append_assoc, List.append_assoc]

/-- A failure is far shorter than a message may be. -/
theorem OperationFailure.Admissible.length_le (h : f.Admissible nfc message) :
    (encode (failureValue f message)).length ≤ maximumPlaintextBytes := by
  have hhead := length_head_le
  have htext : (utf8 message).length ≤ 512 := by
    rw [h.text]
    exact h.short
  have hdelay : (encode (delayField f)).length ≤ 9 := by
    unfold delayField
    split
    · exact hhead 0 _
    · exact (by decide : [(0xf6 : UInt8)].length ≤ 9)
  have hbool : (encode (.bool f.retryable)).length = 1 := by cases f.retryable <;> rfl
  have hpeer : (encodeFields (peerFields f)).length ≤ 109 := by
    unfold peerFields
    cases f.peerAttempt with
    | none => exact Nat.zero_le _
    | some b =>
      simp only [encodeFields, List.length_append, List.length_nil]
      have h0 := hhead 0 6
      have h1 := length_encode_bindingValue b
      omega
  have hmap := hhead 5 ((failureFields f message (failureVersion f)).length + (peerFields f).length)
  unfold failureValue
  rw [encode, encodeFields_append]
  simp only [List.length_append]
  have hsix : (encodeFields (failureFields f message (failureVersion f))).length ≤ 700 := by
    unfold failureFields
    simp only [encodeFields, List.length_append, List.length_nil, hbool]
    have hversion : (encode (.unsigned (failureVersion f))).length ≤ 9 := hhead 0 _
    have hscope : (encode (.unsigned f.scope.toNat)).length ≤ 9 := hhead 0 _
    have hcode : (encode (.unsigned f.code.toNat)).length ≤ 9 := hhead 0 _
    have hmessage : (encode (.text message)).length ≤ 521 := by
      rw [encode, List.length_append]
      have h3 := hhead 3 (utf8 message).length
      omega
    have h0 := hhead 0 0
    have h1 := hhead 0 1
    have h2 := hhead 0 2
    have h3 := hhead 0 3
    have h4 := hhead 0 4
    have h5 := hhead 0 5
    omega
  unfold maximumPlaintextBytes
  omega

noncomputable instance : Inhabited PackageDecoder :=
  ⟨decode protocolLimits (maximumCborDepth + 1), fun _ hv => decode_encode hv⟩

noncomputable instance : Inhabited MessageDecoder :=
  ⟨decode messageLimits maxNestedLevels, fun _ hv _ => decode_encode hv⟩

end Windshare.Session
