import Windshare.Library.Cbor
import Windshare.Session.Envelope

/-!
# The operation-failure codec

The model of `EncodeOperationFailure` and `DecodeOperationFailure`, with the checks of canonical
bodies in `message.go`. Marshalling is the deterministic encoding. Unmarshalling is a parameter
that inverts it on the values that the mode of the messages supports; a result that is no value
of the subset counts as a failure, because the check of the body refuses it. The test for
normal form C is a parameter too.
-/

namespace Windshare.Session

open Windshare.Library
open Windshare.Library.Cbor

/-- The limits of `messageDecMode`; keys are 64-bit words. -/
def messageLimits : Limits := ⟨2048, 256, 2 ^ 64 - 1⟩

def maxNestedLevels : Nat := 16

mutual

def validateCBORValue (nfc : String → Bool) : Value → Bool
  | .null => true
  | .bool _ => true
  | .unsigned _ => true
  | .bytes _ => true
  | .text content => nfc content
  | .array items => validateItems nfc items
  | .map fields => validateFields nfc fields
  | .negative _ => false
termination_by structural v => v

def validateItems (nfc : String → Bool) : List Value → Bool
  | [] => true
  | v :: items => validateCBORValue nfc v && validateItems nfc items
termination_by structural items => items

def validateFields (nfc : String → Bool) : List (Nat × Value) → Bool
  | [] => true
  | (_, v) :: fields => validateCBORValue nfc v && validateFields nfc fields
termination_by structural fields => fields

end

/-- `messageDecMode.Unmarshal`. -/
structure MessageDecoder where
  unmarshal : List UInt8 → Option Value
  unmarshal_encode : ∀ v, Valid messageLimits maxNestedLevels v →
    validateCBORValue (fun _ => true) v = true → unmarshal (encode v) = some v

/-- The errors of the codec. -/
inductive FailureError where
  | codeScope
  | peerRetryable
  | message
  | retryDelay
  | permanentDelay
  | invalid
  | body
deriving DecidableEq, Repr

def validateCanonicalBody (decoder : MessageDecoder) (nfc : String → Bool) (body : List UInt8) :
    Bool :=
  if body.length = 0 then false
  else
    match decoder.unmarshal body with
    | none => false
    | some v => validateCBORValue nfc v && decide (encode v = body)

def encodeBody (decoder : MessageDecoder) (nfc : String → Bool) (v : Value) :
    Except FailureError (List UInt8) :=
  if validateCanonicalBody decoder nfc (encode v) then .ok (encode v) else .error .body

def operationScopeDirectory : UInt8 := 2
def operationScopeRevision : UInt8 := 3
def operationScopeBlock : UInt8 := 4
def operationScopePeer : UInt8 := 5

def maxOperationFailureMessageBytes : Nat := 512

/-- `time.Millisecond` in the nanoseconds of a duration. -/
def millisecond : Int := 1000000
def minOperationFailureRetryAfter : Int := millisecond
def maxOperationFailureRetryAfter : Int := 30000 * millisecond

/-- `peerslot.Count`. -/
def peerSlotCount : Nat := 4

structure PeerAttemptBinding where
  peerSlot : UInt8
  peerPathID : Identity
  attemptID : Identity
  attemptSequence : UInt64
deriving DecidableEq

def PeerAttemptBinding.valid (b : PeerAttemptBinding) : Bool :=
  b.peerSlot.toNat < peerSlotCount && !b.peerPathID.isZero && !b.attemptID.isZero &&
    b.attemptSequence ≠ 0

/-- `OperationFailure`. The message is any byte string, the delay counts nanoseconds. -/
structure OperationFailure where
  scope : UInt8
  code : UInt16
  retryable : Bool
  retryAfter : Int
  message : List UInt8
  peerAttempt : Option PeerAttemptBinding
deriving DecidableEq

def operationFailureCodeInScope (scope : UInt8) (code : UInt16) : Bool :=
  if scope = operationScopeDirectory then 0x2001 ≤ code && code ≤ 0x2008
  else if scope = operationScopeRevision then 0x3001 ≤ code && code ≤ 0x3008
  else if scope = operationScopeBlock then 0x4001 ≤ code && code ≤ 0x4006
  else if scope = operationScopePeer then 0x5000 ≤ code && code ≤ 0x5fff
  else false

def textOf (bytes : List UInt8) : Option String := String.fromUTF8? ⟨bytes.toArray⟩

/-- Field four. -/
def delayField (f : OperationFailure) : Value :=
  if f.retryable then .unsigned (f.retryAfter / millisecond).toNat else .null

/-- The array of field six. -/
def bindingValue (b : PeerAttemptBinding) : Value :=
  .array [.bytes b.peerPathID.bytes, .bytes b.attemptID.bytes, .unsigned b.attemptSequence.toNat,
    .unsigned b.peerSlot.toNat]

/-- The fields of a failure, by ascending key. -/
def failureFields (f : OperationFailure) (message : String) (version : Nat) : List (Nat × Value) :=
  [(0, .unsigned version), (1, .unsigned f.scope.toNat), (2, .unsigned f.code.toNat),
    (3, .bool f.retryable), (4, delayField f), (5, .text message)]

variable (decoder : MessageDecoder) (nfc : String → Bool)

/-- The last part of the encoder: the peer attempt belongs to the peer scope alone. -/
def encodeScoped (f : OperationFailure) (message : String) : Except FailureError (List UInt8) :=
  if f.scope = operationScopePeer then
    match f.peerAttempt with
    | none => .error .invalid
    | some b =>
      if b.valid = false then .error .invalid
      else encodeBody decoder nfc (.map (failureFields f message 3 ++ [(6, bindingValue b)]))
  else if f.peerAttempt.isSome then .error .invalid
  else encodeBody decoder nfc (.map (failureFields f message 1))

def encodeOperationFailure (f : OperationFailure) : Except FailureError (List UInt8) :=
  if operationFailureCodeInScope f.scope f.code = false then .error .codeScope
  else if f.scope = operationScopePeer ∧ f.retryable = true then .error .peerRetryable
  else
    match textOf f.message with
    | none => .error .message
    | some message =>
      if f.message = [] ∨ nfc message = false ∨
          f.message.length > maxOperationFailureMessageBytes then .error .message
      else if f.retryable = true ∧ (f.retryAfter < minOperationFailureRetryAfter ∨
          f.retryAfter > maxOperationFailureRetryAfter ∨
          f.retryAfter % minOperationFailureRetryAfter ≠ 0) then .error .retryDelay
      else if f.retryable = false ∧ f.retryAfter ≠ 0 then .error .permanentDelay
      else encodeScoped decoder nfc f message

/-! ### Decoding -/

/-- A field of the given type; a missing field has none. -/
def unsignedField (fields : List (Nat × Value)) (key : Nat) : Option Nat :=
  match fields.lookup key with
  | some (.unsigned n) => some n
  | _ => none

def boolField (fields : List (Nat × Value)) (key : Nat) : Option Bool :=
  match fields.lookup key with
  | some (.bool b) => some b
  | _ => none

def textField (fields : List (Nat × Value)) (key : Nat) : Option String :=
  match fields.lookup key with
  | some (.text s) => some s
  | _ => none

def decodeDelay (retryable : Bool) (field : Option Value) : Option Int :=
  match retryable, field with
  | true, some (.unsigned milliseconds) =>
    if milliseconds < 1 ∨ milliseconds > 30000 then none else some (milliseconds * millisecond)
  | false, some .null => some 0
  | _, _ => none

def decodePeerAttemptBinding (field : Option Value) : Option PeerAttemptBinding :=
  match field with
  | some (.array [.bytes path, .bytes attempt, .unsigned sequence, .unsigned slot]) =>
    if h : path.length = 16 ∧ attempt.length = 16 ∧ slot < peerSlotCount then
      let binding : PeerAttemptBinding :=
        ⟨UInt8.ofNat slot, ⟨path, h.1⟩, ⟨attempt, h.2.1⟩, UInt64.ofNat sequence⟩
      if binding.valid then some binding else none
    else none
  | _ => none

/-- The failure that the fields of a body state, before it is encoded again. -/
def readFailure (fields : List (Nat × Value)) : Option OperationFailure :=
  match unsignedField fields 0, unsignedField fields 1, unsignedField fields 2,
      boolField fields 3, textField fields 5 with
  | some version, some scope, some code, some retryable, some message =>
    if scope > 255 ∨ code > 65535 then none
    else
      match decodeDelay retryable (fields.lookup 4) with
      | none => none
      | some retryAfter =>
        if UInt8.ofNat scope = operationScopePeer then
          if version ≠ 3 ∨ fields.length ≠ 7 then none
          else
            match decodePeerAttemptBinding (fields.lookup 6) with
            | none => none
            | some binding =>
              some ⟨UInt8.ofNat scope, UInt16.ofNat code, retryable, retryAfter,
                utf8 message, some binding⟩
        else if version ≠ 1 ∨ fields.length ≠ 6 then none
        else
          some ⟨UInt8.ofNat scope, UInt16.ofNat code, retryable, retryAfter, utf8 message, none⟩
  | _, _, _, _, _ => none

def decodeOperationFailure (encoded : List UInt8) : Option OperationFailure :=
  if validateCanonicalBody decoder nfc encoded = false then none
  else
    match decoder.unmarshal encoded with
    | some (.map fields) =>
      if fields.length ≠ 6 ∧ fields.length ≠ 7 then none
      else
        match readFailure fields with
        | none => none
        | some f => if encodeOperationFailure decoder nfc f = .ok encoded then some f else none
    | _ => none

/-! ### What the encoder accepts -/

def peerFields (f : OperationFailure) : List (Nat × Value) :=
  match f.peerAttempt with
  | none => []
  | some b => [(6, bindingValue b)]

def failureVersion (f : OperationFailure) : Nat := if f.scope = operationScopePeer then 3 else 1

def failureValue (f : OperationFailure) (message : String) : Value :=
  .map (failureFields f message (failureVersion f) ++ peerFields f)

/-- A failure that can be sent, with the text of its message. -/
structure OperationFailure.Admissible (nfc : String → Bool) (f : OperationFailure)
    (message : String) : Prop where
  code : operationFailureCodeInScope f.scope f.code = true
  permanent : f.scope = operationScopePeer → f.retryable = false
  text : utf8 message = f.message
  nonempty : f.message ≠ []
  normal : nfc message = true
  short : f.message.length ≤ maxOperationFailureMessageBytes
  delay : f.retryable = true → minOperationFailureRetryAfter ≤ f.retryAfter ∧
    f.retryAfter ≤ maxOperationFailureRetryAfter ∧ f.retryAfter % minOperationFailureRetryAfter = 0
  still : f.retryable = false → f.retryAfter = 0
  peer : f.scope = operationScopePeer → ∃ b, f.peerAttempt = some b ∧ b.valid = true
  other : f.scope ≠ operationScopePeer → f.peerAttempt = none

variable {decoder nfc} {f : OperationFailure} {message : String} {encoded : List UInt8}

namespace OperationFailure

theorem Admissible.delay_lt (h : f.Admissible nfc message) :
    (f.retryAfter / millisecond).toNat < 2 ^ 64 := by
  cases hretry : f.retryable with
  | true =>
    have hmax := (h.delay hretry).2.1
    unfold maxOperationFailureRetryAfter millisecond at *
    omega
  | false =>
    rw [h.still hretry]
    decide

/-- The value of a failure fits any limits that leave room for its seven fields. -/
theorem Admissible.valid (h : f.Admissible nfc message) {limits : Limits} {r : Nat}
    (harray : 4 ≤ limits.arrayItems) (hmap : 7 ≤ limits.mapFields) (hkey : 6 ≤ limits.key) :
    Valid limits (r + 3) (failureValue f message) := by
  have hscope := f.scope.toNat_lt
  have hcode := f.code.toNat_lt
  have hdelay : Valid limits (r + 2) (delayField f) := by
    unfold delayField
    split
    · exact h.delay_lt
    · trivial
  have htext : (utf8 message).length < 2 ^ 64 := by
    rw [h.text]
    have hshort := h.short
    unfold maxOperationFailureMessageBytes at hshort
    omega
  have hversion : failureVersion f < 2 ^ 64 := by
    unfold failureVersion
    split <;> decide
  have hfields : ∀ field ∈ failureFields f message (failureVersion f),
      field.1 < 2 ^ 64 ∧ field.1 ≤ limits.key ∧ Valid limits (r + 2) field.2 := by
    unfold failureFields
    simp only [List.forall_mem_cons, List.not_mem_nil, false_implies, implies_true, and_true]
    refine ⟨⟨by omega, by omega, hversion⟩, ⟨by omega, by omega, ?_⟩, ⟨by omega, by omega, ?_⟩,
      ⟨by omega, by omega, trivial⟩, ⟨by omega, by omega, hdelay⟩, by omega, by omega, htext⟩
    · change f.scope.toNat < 2 ^ 64
      omega
    · change f.code.toNat < 2 ^ 64
      omega
  unfold failureValue peerFields
  cases f.peerAttempt with
  | none =>
    rw [List.append_nil]
    refine ⟨by change 6 < 2 ^ 64; decide, by change 6 ≤ _; omega, ?_, hfields⟩
    simp [failureFields]
  | some b =>
    refine ⟨by change 7 < 2 ^ 64; decide, hmap, by simp [failureFields], ?_⟩
    rw [List.forall_mem_append]
    refine ⟨hfields, ?_⟩
    rw [List.forall_mem_singleton]
    refine ⟨by change 6 < 2 ^ 64; decide, hkey, by change 4 < 2 ^ 64; decide, harray, ?_⟩
    simp only [List.forall_mem_cons, List.not_mem_nil, false_implies, implies_true, and_true]
    have hslot := b.peerSlot.toNat_lt
    have hpath := b.peerPathID.length_eq
    have hattempt := b.attemptID.length_eq
    refine ⟨?_, ?_, b.attemptSequence.toNat_lt, ?_⟩
    · change b.peerPathID.bytes.length < 2 ^ 64
      omega
    · change b.attemptID.bytes.length < 2 ^ 64
      omega
    · change b.peerSlot.toNat < 2 ^ 64
      omega

theorem validateCBORValue_failureValue (f : OperationFailure) (h : nfc message = true) :
    validateCBORValue nfc (failureValue f message) = true := by
  have hdelay : validateCBORValue nfc (delayField f) = true := by
    unfold delayField
    split <;> rfl
  unfold failureValue peerFields
  cases f.peerAttempt with
  | none => simp [failureFields, validateCBORValue, validateFields, h, hdelay]
  | some =>
    simp [failureFields, validateCBORValue, validateFields, validateItems, bindingValue, h, hdelay]

section

variable (h : f.Admissible nfc message)

include h

theorem Admissible.supported : Valid messageLimits maxNestedLevels (failureValue f message) :=
  h.valid (r := 13) (by decide) (by decide) (by decide)

theorem Admissible.unmarshal :
    decoder.unmarshal (encode (failureValue f message)) = some (failureValue f message) :=
  decoder.unmarshal_encode _ h.supported (validateCBORValue_failureValue f rfl)

theorem Admissible.body :
    validateCanonicalBody decoder nfc (encode (failureValue f message)) = true := by
  unfold validateCanonicalBody
  rw [if_neg (mt List.length_eq_zero_iff.mp h.supported.encode_ne_nil), h.unmarshal]
  simp [validateCBORValue_failureValue f h.normal]

theorem Admissible.encodeBody :
    encodeBody decoder nfc (failureValue f message) = .ok (encode (failureValue f message)) := by
  unfold Session.encodeBody
  rw [if_pos h.body]

theorem Admissible.encodeScoped :
    encodeScoped decoder nfc f message = .ok (encode (failureValue f message)) := by
  have hbody : Session.encodeBody decoder nfc (failureValue f message) = _ := h.encodeBody
  unfold failureValue failureVersion peerFields at hbody ⊢
  unfold Session.encodeScoped
  by_cases hpeer : f.scope = operationScopePeer
  · obtain ⟨b, hb, hvalid⟩ := h.peer hpeer
    rw [if_pos hpeer, hb] at hbody ⊢
    dsimp only at hbody ⊢
    rw [if_pos hpeer, if_neg (by simp [hvalid])]
    exact hbody
  · rw [if_neg hpeer, h.other hpeer, List.append_nil] at hbody
    rw [if_neg hpeer, if_neg hpeer, h.other hpeer, List.append_nil, if_neg (by simp)]
    exact hbody

end

end OperationFailure

open OperationFailure

end Windshare.Session
