import Windshare.Library.Aead
import Windshare.Library.Bytes

/-!
# Operation envelopes

The model of `protocolsession/envelope.go`. A sealer numbers the plaintexts of one
lane direction and encrypts them with the binding and the number as additional
data; an opener accepts exactly the next number. The cipher is a parameter. What
the runtime decides during a call, such as the outcome of reading the nonce
source, is an argument of the call.
-/

namespace Windshare.Session

open Windshare.Library

def envelopeNonceBytes : Nat := 12
def envelopeHeaderBytes : Nat := 28
def envelopeTagBytes : Nat := 16
def envelopeOverheadBytes : Nat := envelopeHeaderBytes + envelopeTagBytes
def maxEnvelopeBytes : Nat := 65536
def maxEnvelopePlaintextBytes : Nat := maxEnvelopeBytes - envelopeOverheadBytes

def wireVersion : UInt8 := 2

/-- The domain string is ASCII, one byte a character. -/
def operationEnvelopeDomain : List UInt8 :=
  "windshare/v2 operation-envelope\x00".toList.map fun c => UInt8.ofNat c.toNat

/-- The errors of this file with the values they report. -/
inductive EnvelopeError where
  | binding
  | malformed (bytes : Option Nat)
  | version
  | direction
  | sequence (got expected : UInt64)
  | authentication
  | tooLarge (plaintext : Option Nat)
  | sequenceExhausted
  | nonceSource
  | closed
  | trafficKeyDirection
  | nilCipher
deriving DecidableEq, Repr

inductive Direction where
  | receiverToSender
  | senderToReceiver
deriving DecidableEq, Repr

def Direction.byte : Direction → UInt8
  | .receiverToSender => 0
  | .senderToReceiver => 1

theorem Direction.byte_inj {d e : Direction} (h : d.byte = e.byte) : d = e := by
  cases d <;> cases e <;> first | rfl | exact absurd h (by decide)

/-- A 16-byte identity. -/
structure Identity where
  bytes : List UInt8
  length_eq : bytes.length = 16
deriving DecidableEq

namespace Identity

def zero : Identity := ⟨List.replicate 16 0, rfl⟩

def filled (b : UInt8) : Identity := ⟨List.replicate 16 b, rfl⟩

def isZero (id : Identity) : Bool := id == zero

@[ext] theorem ext {a b : Identity} (h : a.bytes = b.bytes) : a = b := by
  cases a
  cases b
  cases h
  rfl

theorem isZero_eq_all (id : Identity) : id.isZero = id.bytes.all (· = 0) := by
  unfold isZero
  rw [Bool.eq_iff_iff, beq_iff_eq, List.all_eq_true]
  constructor
  · rintro rfl b hb
    rw [List.eq_of_mem_replicate hb]
    rfl
  · intro hall
    refine Identity.ext (List.eq_replicate_iff.mpr ⟨id.length_eq, fun b hb => ?_⟩)
    simpa using hall b hb

end Identity

/-- Sixteen bytes at an offset. -/
def identityAt (body : List UInt8) (offset : Nat) : Option Identity :=
  let bytes := (body.drop offset).take 16
  if h : bytes.length = 16 then some ⟨bytes, h⟩ else none

def uint32At (body : List UInt8) (offset : Nat) : UInt32 :=
  UInt32.ofNat (ofBigEndian ((body.drop offset).take 4))

structure EnvelopeBinding where
  shareInstance : Identity
  protocolSessionID : Identity
  laneID : UInt32
  laneEpoch : UInt32
  direction : Direction
deriving DecidableEq

namespace EnvelopeBinding

def zero : EnvelopeBinding := ⟨.zero, .zero, 0, 0, .receiverToSender⟩

/-- `validate`; a direction is always one of the two. -/
def validate (b : EnvelopeBinding) : Except EnvelopeError Unit :=
  if b.shareInstance.isZero ∨ b.protocolSessionID.isZero ∨ b.laneID = 0 then .error .binding
  else .ok ()

end EnvelopeBinding

def envelopeFrameSize (plaintextBytes : Nat) : Except EnvelopeError Nat :=
  if plaintextBytes > maxEnvelopePlaintextBytes then .error (.tooLarge (some plaintextBytes))
  else .ok (plaintextBytes + envelopeOverheadBytes)

def envelopeAAD (b : EnvelopeBinding) (sequence : UInt64) (ciphertextLength : UInt32) :
    List UInt8 :=
  operationEnvelopeDomain ++ ([wireVersion, b.direction.byte] ++ (b.shareInstance.bytes ++
    (b.protocolSessionID.bytes ++ (bigEndian 4 b.laneID.toNat ++ (bigEndian 4 b.laneEpoch.toNat ++
      (bigEndian 8 sequence.toNat ++ bigEndian 4 ciphertextLength.toNat))))))

theorem bigEndian_uint32_inj {a b : UInt32} (h : bigEndian 4 a.toNat = bigEndian 4 b.toNat) :
    a = b :=
  UInt32.toNat_inj.mp (bigEndian_inj a.toNat_lt b.toNat_lt h)

theorem bigEndian_uint64_inj {a b : UInt64} (h : bigEndian 8 a.toNat = bigEndian 8 b.toNat) :
    a = b :=
  UInt64.toNat_inj.mp (bigEndian_inj a.toNat_lt b.toNat_lt h)

/-- The additional data determine the binding, the sequence and the length:
every field has a fixed width. -/
theorem envelopeAAD_inj {b c : EnvelopeBinding} {s t : UInt64} {m n : UInt32}
    (h : envelopeAAD b s m = envelopeAAD c t n) : b = c ∧ s = t ∧ m = n := by
  obtain ⟨-, h⟩ := List.append_inj h rfl
  obtain ⟨hdirection, h⟩ := List.append_inj h rfl
  obtain ⟨hshare, h⟩ := List.append_inj h (b.shareInstance.length_eq.trans
    c.shareInstance.length_eq.symm)
  obtain ⟨hsession, h⟩ := List.append_inj h (b.protocolSessionID.length_eq.trans
    c.protocolSessionID.length_eq.symm)
  obtain ⟨hlane, h⟩ := List.append_inj h (by simp)
  obtain ⟨hepoch, h⟩ := List.append_inj h (by simp)
  obtain ⟨hsequence, hlength⟩ := List.append_inj h (by simp)
  refine ⟨?_, bigEndian_uint64_inj hsequence, bigEndian_uint32_inj hlength⟩
  have hdir : b.direction = c.direction := Direction.byte_inj (by simpa using hdirection)
  obtain ⟨bs, bp, bl, be, bd⟩ := b
  obtain ⟨cs, cp, cl, ce, cd⟩ := c
  obtain rfl : bs = cs := Identity.ext hshare
  obtain rfl : bp = cp := Identity.ext hsession
  obtain rfl : bl = cl := bigEndian_uint32_inj hlane
  obtain rfl : be = ce := bigEndian_uint32_inj hepoch
  obtain rfl : bd = cd := hdir
  rfl

def slice (frame : List UInt8) (start stop : Nat) : List UInt8 :=
  (frame.drop start).take (stop - start)

/-! ## The sealer -/

/-- A directional traffic key over raw keys `K`. -/
structure TrafficKey (K : Type) where
  value : K
  direction : Direction
  valid : Bool

structure SealedEnvelope where
  sequence : UInt64
  frame : List UInt8
deriving DecidableEq, Repr

structure OpenedEnvelope where
  sequence : UInt64
  plaintext : List UInt8
deriving DecidableEq, Repr

/-- A nonce read from the source. -/
structure Nonce where
  bytes : List UInt8
  length_eq : bytes.length = 12

/-- `EnvelopeSealer`. The nonce is present while `nonceReady` is set; the cipher
reference is the key it was expanded from and is dropped by `Destroy`. -/
structure EnvelopeSealer (K : Type) where
  aead : Option K
  binding : EnvelopeBinding
  nonce : Option Nonce
  next : UInt64
  exhausted : Bool
  stopped : Bool

/-- What reading the nonce source does, and whether `Stop` ran meanwhile. -/
inductive NonceRead where
  | failed
  | full (nonce : Nonce) (stopped : Bool)

def maxSequence : UInt64 := 0xffffffffffffffff

variable {K : Type}

def newEnvelopeSealer (key : TrafficKey K) (binding : EnvelopeBinding) (nonceSource : Bool) :
    Except EnvelopeError (EnvelopeSealer K) :=
  match binding.validate with
  | .error e => .error e
  | .ok () =>
    if !key.valid ∨ key.direction ≠ binding.direction then .error .trafficKeyDirection
    else if !nonceSource then .error .nonceSource
    else .ok ⟨some key.value, binding, none, 0, false, false⟩

variable {sequence : UInt64} {aead : Aead K} {key : TrafficKey K} {binding : EnvelopeBinding}
  {read : NonceRead} {s' : EnvelopeSealer K} {frame : List UInt8}

theorem newEnvelopeSealer_ok {source : Bool}
    {s : EnvelopeSealer K} (h : newEnvelopeSealer key binding source = .ok s) :
    s = ⟨some key.value, binding, none, 0, false, false⟩ := by
  revert h
  fun_cases newEnvelopeSealer key binding source with
  | case4 => exact fun h => (Except.ok.inj h).symm
  | _ => rintro ⟨⟩

namespace EnvelopeSealer

variable (s : EnvelopeSealer K)

/-- `EnvelopeSealer.NextSequence`: the nonce is reserved before the number is
promised to a caller. -/
def nextSequence (read : NonceRead) : EnvelopeSealer K × Except EnvelopeError UInt64 :=
  if s.stopped then (s, .error .closed)
  else if s.exhausted then (s, .error .sequenceExhausted)
  else
    match s.nonce with
    | some _ => (s, .ok s.next)
    | none =>
      match read with
      | .failed => (s, .error .nonceSource)
      | .full _ true => ({ s with stopped := true }, .error .closed)
      | .full nonce false => ({ s with nonce := some nonce }, .ok s.next)

def advance (sequence : UInt64) : EnvelopeSealer K :=
  if sequence = maxSequence then { s with nonce := none, exhausted := true }
  else { s with nonce := none, next := sequence + 1 }

/-- The header `Seal` writes in front of the ciphertext. -/
def header (direction : Direction) (sequence : UInt64) (ciphertextLength : UInt32)
    (nonce : List UInt8) : List UInt8 :=
  [wireVersion, direction.byte, 0, 0] ++ (bigEndian 8 sequence.toNat ++
    (bigEndian 4 ciphertextLength.toNat ++ nonce))

/-- `EnvelopeSealer.Seal` up to its call of the cipher: the number, the header and
the arguments of that call. -/
def prepare (aead : Aead K) (plaintext : List UInt8) (read : NonceRead) :
    EnvelopeSealer K × Except EnvelopeError (UInt64 × List UInt8 × SealCall K) :=
  match envelopeFrameSize plaintext.length with
  | .error e => (s, .error e)
  | .ok _ =>
    match s.nextSequence read with
    | (s', .error e) => (s', .error e)
    | (s', .ok sequence) =>
      match s'.aead, s'.nonce with
      | some key, some nonce =>
        let ciphertextLength := UInt32.ofNat (plaintext.length + aead.overhead)
        (s', .ok (sequence,
          header s'.binding.direction sequence ciphertextLength nonce.bytes,
          ⟨key, nonce.bytes, plaintext, envelopeAAD s'.binding sequence ciphertextLength⟩))
      | _, _ => (s', .error .nilCipher)

def sealEnvelope (aead : Aead K) (plaintext : List UInt8) (read : NonceRead) :
    EnvelopeSealer K × Except EnvelopeError SealedEnvelope :=
  match s.prepare aead plaintext read with
  | (s', .error e) => (s', .error e)
  | (s', .ok (sequence, header, call)) =>
    (s'.advance sequence, .ok ⟨sequence,
      header ++ aead.sealText call.key call.nonce call.plaintext call.aad⟩)

def stop : EnvelopeSealer K := { s with stopped := true }

def destroy : EnvelopeSealer K := ⟨none, .zero, none, 0, false, true⟩

variable {s}

/-- The number of a frame stands in bytes 4 to 12. -/
theorem slice_header (direction : Direction) (sequence : UInt64) (ciphertextLength : UInt32)
    (nonce rest : List UInt8) :
    slice (header direction sequence ciphertextLength nonce ++ rest) 4 12 =
      bigEndian 8 sequence.toNat := by
  simp [slice, header]

/-- `NextSequence` stops the sealer, or leaves everything but the reserved nonce. -/
theorem nextSequence_state (read : NonceRead) :
    (s.nextSequence read).1 = s.stop ∨
      ∃ nonce, (s.nextSequence read).1 = { s with nonce := nonce } := by
  fun_cases nextSequence s read with
  | case1 | case2 | case3 | case4 => exact .inr ⟨s.nonce, rfl⟩
  | case5 => exact .inl rfl
  | case6 _ _ _ nonce => exact .inr ⟨some nonce, rfl⟩

/-- A number is handed out only by a sealer that is neither stopped nor
exhausted, with a nonce reserved for it. -/
theorem nextSequence_ok (h : s.nextSequence read = (s', .ok sequence)) :
    s.stopped = false ∧ s.exhausted = false ∧ sequence = s.next ∧
      ∃ nonce, s' = { s with nonce := some nonce } := by
  revert h
  fun_cases nextSequence s read with
  | case1 | case2 | case4 | case5 => rintro ⟨⟩
  | case3 _ hstopped hexhausted nonce hnonce =>
    intro h
    obtain ⟨rfl, hsequence⟩ := Prod.mk.inj h
    exact ⟨by simpa using hstopped, by simpa using hexhausted, (Except.ok.inj hsequence).symm,
      nonce, by rw [← hnonce]⟩
  | case6 hstopped hexhausted _ nonce =>
    intro h
    obtain ⟨rfl, hsequence⟩ := Prod.mk.inj h
    exact ⟨by simpa using hstopped, by simpa using hexhausted, (Except.ok.inj hsequence).symm,
      nonce, rfl⟩

theorem prepare_state (aead : Aead K) (plaintext : List UInt8) (read : NonceRead) :
    (s.prepare aead plaintext read).1 = s.stop ∨
      ∃ nonce, (s.prepare aead plaintext read).1 = { s with nonce := nonce } := by
  have hnext := s.nextSequence_state read
  fun_cases prepare s aead plaintext read with
  | case1 => exact .inr ⟨s.nonce, rfl⟩
  | case2 _ _ s' e he => rwa [he] at hnext
  | case3 _ _ s' sequence hok | case4 _ _ s' sequence hok => rwa [hok] at hnext

theorem prepare_ok {plaintext hdr : List UInt8} {call : SealCall K}
    (h : s.prepare aead plaintext read = (s', .ok (sequence, hdr, call))) :
    s.stopped = false ∧ s.exhausted = false ∧ sequence = s.next ∧ s.aead = some call.key ∧
      call.plaintext = plaintext ∧
      call.aad = envelopeAAD s.binding sequence (UInt32.ofNat (plaintext.length + aead.overhead)) ∧
      ∃ nonce, s' = { s with nonce := some nonce } ∧
        hdr = header s.binding.direction sequence
          (UInt32.ofNat (plaintext.length + aead.overhead)) nonce.bytes := by
  revert h
  fun_cases prepare s aead plaintext read with
  | case1 | case2 | case4 => rintro ⟨⟩
  | case3 _ _ t number hok key nonce hnonce hkey =>
    rintro ⟨⟩
    obtain ⟨hstopped, hexhausted, rfl, nonce', rfl⟩ := nextSequence_ok hok
    obtain rfl : nonce' = nonce := Option.some.inj hnonce
    exact ⟨hstopped, hexhausted, rfl, hkey, rfl, rfl, nonce', rfl, rfl⟩

end EnvelopeSealer

/-! ## The opener -/

structure EnvelopeOpener (K : Type) where
  aead : Option K
  binding : EnvelopeBinding
  next : UInt64
  exhausted : Bool
  stopped : Bool

def newEnvelopeOpener (key : TrafficKey K) (binding : EnvelopeBinding) :
    Except EnvelopeError (EnvelopeOpener K) :=
  match binding.validate with
  | .error e => .error e
  | .ok () =>
    if !key.valid ∨ key.direction ≠ binding.direction then .error .trafficKeyDirection
    else .ok ⟨some key.value, binding, 0, false, false⟩

theorem newEnvelopeOpener_ok
    {o : EnvelopeOpener K} (h : newEnvelopeOpener key binding = .ok o) :
    o = ⟨some key.value, binding, 0, false, false⟩ := by
  revert h
  fun_cases newEnvelopeOpener key binding with
  | case3 => exact fun h => (Except.ok.inj h).symm
  | _ => rintro ⟨⟩

structure EnvelopeHeader where
  sequence : UInt64
  ciphertextLength : UInt32
  nonce : List UInt8
deriving DecidableEq, Repr

def parseEnvelopeHeader (frame : List UInt8) (direction : Direction) :
    Except EnvelopeError EnvelopeHeader :=
  if frame.length > maxEnvelopeBytes then .error (.tooLarge none)
  else if frame.length < envelopeOverheadBytes then .error (.malformed (some frame.length))
  else if frame.getD 0 0 ≠ wireVersion then .error .version
  else if frame.getD 1 0 > Direction.senderToReceiver.byte ∨ frame.getD 2 0 ≠ 0 ∨
      frame.getD 3 0 ≠ 0 then .error (.malformed none)
  else if frame.getD 1 0 ≠ direction.byte then .error .direction
  else
    let ciphertextLength := UInt32.ofNat (ofBigEndian (slice frame 12 16))
    if ciphertextLength.toNat < envelopeTagBytes ∨
        ciphertextLength.toNat > maxEnvelopeBytes - envelopeHeaderBytes then
      .error (.malformed none)
    else if frame.length ≠ envelopeHeaderBytes + ciphertextLength.toNat then
      .error (.malformed none)
    else
      .ok ⟨UInt64.ofNat (ofBigEndian (slice frame 4 12)), ciphertextLength,
        slice frame 16 envelopeHeaderBytes⟩

namespace EnvelopeOpener

variable (o : EnvelopeOpener K)

def nextSequence : Except EnvelopeError UInt64 :=
  if o.stopped then .error .closed
  else if o.exhausted then .error .sequenceExhausted
  else .ok o.next

def advance (sequence : UInt64) : EnvelopeOpener K :=
  if sequence = maxSequence then { o with exhausted := true }
  else { o with next := sequence + 1 }

/-- `EnvelopeOpener.Open`: the counter moves only after authentication. -/
def openEnvelope (aead : Aead K) (frame : List UInt8) :
    EnvelopeOpener K × Except EnvelopeError OpenedEnvelope :=
  match o.nextSequence with
  | .error e => (o, .error e)
  | .ok expected =>
    match parseEnvelopeHeader frame o.binding.direction with
    | .error e => (o, .error e)
    | .ok header =>
      if header.sequence ≠ expected then
        (o, .error (.sequence header.sequence expected))
      else
        match o.aead with
        | none => (o, .error .nilCipher)
        | some key =>
          let aad := envelopeAAD o.binding header.sequence header.ciphertextLength
          match aead.openText key header.nonce (frame.drop envelopeHeaderBytes) aad with
          | none => (o, .error .authentication)
          | some plaintext =>
            (o.advance header.sequence, .ok ⟨header.sequence, plaintext⟩)

def stop : EnvelopeOpener K := { o with stopped := true }

def destroy : EnvelopeOpener K := ⟨none, .zero, 0, false, true⟩

variable {o}

theorem nextSequence_ok (h : o.nextSequence = .ok sequence) :
    o.stopped = false ∧ o.exhausted = false ∧ sequence = o.next := by
  unfold nextSequence at h
  split at h
  · cases h
  · next hstopped =>
      split at h
      · cases h
      · next hexhausted =>
          exact ⟨by simpa using hstopped, by simpa using hexhausted, (Except.ok.inj h).symm⟩

/-- A rejected frame changes nothing. -/
theorem openEnvelope_error {e : EnvelopeError}
    (h : (o.openEnvelope aead frame).2 = .error e) : (o.openEnvelope aead frame).1 = o := by
  revert h
  fun_cases openEnvelope o aead frame with
  | case6 => rintro ⟨⟩
  | _ => intro _; rfl

/-- An accepted frame carries the next number and opened under the opener's key
and binding. -/
theorem openEnvelope_ok {o' : EnvelopeOpener K}
    {e : OpenedEnvelope} (h : o.openEnvelope aead frame = (o', .ok e)) :
    o.stopped = false ∧ o.exhausted = false ∧ o' = o.advance o.next ∧ e.sequence = o.next ∧
      ∃ header key, parseEnvelopeHeader frame o.binding.direction = .ok header ∧
        header.sequence = o.next ∧ o.aead = some key ∧
        aead.openText key header.nonce (frame.drop envelopeHeaderBytes)
          (envelopeAAD o.binding header.sequence header.ciphertextLength) = some e.plaintext := by
  revert h
  fun_cases openEnvelope o aead frame with
  | case1 | case2 | case3 | case4 | case5 => rintro ⟨⟩
  | case6 expected hnext header hheader hsequence key hkey aad plaintext hopen =>
    rintro ⟨⟩
    obtain ⟨hstopped, hexhausted, rfl⟩ := nextSequence_ok hnext
    have hseq : header.sequence = o.next := not_ne_iff.mp hsequence
    exact ⟨hstopped, hexhausted, by rw [hseq], hseq, header, key, hheader, hseq, hkey, hopen⟩

end EnvelopeOpener

end Windshare.Session
