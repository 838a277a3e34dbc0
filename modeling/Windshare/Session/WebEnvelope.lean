import Windshare.Session.Envelope

/-!
# Envelope headers of the web client

The model of `parseHeader`, `snapshotBinding` and `envelopeAuthenticationData` of
`session/envelope.ts`, where numbers are unbounded and identities are byte arrays of any width,
and their agreement with the Go functions. The nonce is not part of the additional data.
-/

namespace Windshare.Session

open Windshare.Library

/-- The messages of the two checks of a header and of the check of a binding. -/
inductive WebEnvelopeError where
  | header
  | ciphertextLength
  | binding
deriving DecidableEq, Repr

/-- `ParsedHeader`. -/
structure WebHeader where
  sequence : Nat
  ciphertextLength : Nat
  nonce : List UInt8
deriving DecidableEq, Repr

def parseHeader (frame : List UInt8) (direction : Direction) : Except WebEnvelopeError WebHeader :=
  if frame.length < envelopeHeaderBytes + envelopeTagBytes ∨ frame.length > maxEnvelopeBytes ∨
      frame.getD 0 0 ≠ 2 ∨ frame.getD 1 0 ≠ direction.byte ∨ frame.getD 2 0 ≠ 0 ∨
      frame.getD 3 0 ≠ 0 then .error .header
  else
    let ciphertextLength := ofBigEndian (slice frame 12 16)
    if ciphertextLength < envelopeTagBytes ∨
        envelopeHeaderBytes + ciphertextLength ≠ frame.length then .error .ciphertextLength
    else
      .ok ⟨ofBigEndian (slice frame 4 12), ciphertextLength, slice frame 16 envelopeHeaderBytes⟩

/-- The binding that a caller passes. Numbers that are not integers are left out. -/
structure WebBinding where
  shareInstance : List UInt8
  protocolSessionId : List UInt8
  laneId : Int
  laneEpoch : Int
  direction : Direction
deriving DecidableEq, Repr

def snapshotBinding (b : WebBinding) : Except WebEnvelopeError WebBinding :=
  if b.shareInstance.length ≠ 16 ∨ b.protocolSessionId.length ≠ 16 ∨
      b.shareInstance.all (· = 0) ∨ b.protocolSessionId.all (· = 0) ∨
      b.laneId ≤ 0 ∨ b.laneId > 0xffffffff ∨ b.laneEpoch < 0 ∨ b.laneEpoch > 0xffffffff then
    .error .binding
  else .ok b

/-- `DataView.setUint32`, which takes the number modulo `2 ^ 32`. -/
def setUint32 (n : Int) : List UInt8 := bigEndian 4 (n % 2 ^ 32).toNat

def envelopeAuthenticationData (b : WebBinding) (sequence ciphertextLength : Nat) : List UInt8 :=
  let geometry := setUint32 b.laneId ++ (setUint32 b.laneEpoch ++ bigEndian 8 (sequence % 2 ^ 64))
  let length := setUint32 ciphertextLength
  operationEnvelopeDomain ++ ([2, b.direction.byte] ++ (b.shareInstance ++
    (b.protocolSessionId ++ (geometry ++ length))))

/-! ### Agreement -/

def EnvelopeHeader.toWeb (header : EnvelopeHeader) : WebHeader :=
  ⟨header.sequence.toNat, header.ciphertextLength.toNat, header.nonce⟩

def EnvelopeBinding.toWeb (b : EnvelopeBinding) : WebBinding :=
  ⟨b.shareInstance.bytes, b.protocolSessionID.bytes, b.laneID.toNat, b.laneEpoch.toNat, b.direction⟩

theorem length_slice {frame : List UInt8} {start stop : Nat} (h : stop ≤ frame.length) :
    (slice frame start stop).length = stop - start := by
  unfold slice
  rw [List.length_take, List.length_drop]
  omega

theorem toNat_uint32_slice {frame : List UInt8} (start : Nat) (h : start + 4 ≤ frame.length) :
    (UInt32.ofNat (ofBigEndian (slice frame start (start + 4)))).toNat =
      ofBigEndian (slice frame start (start + 4)) := by
  have hlt := ofBigEndian_lt (slice frame start (start + 4))
  rw [length_slice h, Nat.add_sub_cancel_left] at hlt
  exact UInt32.toNat_ofNat_of_lt' hlt

theorem toNat_uint64_slice {frame : List UInt8} (start : Nat) (h : start + 8 ≤ frame.length) :
    (UInt64.ofNat (ofBigEndian (slice frame start (start + 8)))).toNat =
      ofBigEndian (slice frame start (start + 8)) := by
  have hlt := ofBigEndian_lt (slice frame start (start + 8))
  rw [length_slice h, Nat.add_sub_cancel_left] at hlt
  exact UInt64.toNat_ofNat_of_lt' hlt

theorem Direction.byte_le (d : Direction) : ¬ d.byte > Direction.senderToReceiver.byte := by
  cases d <;> decide

/-- The two parsers accept the same frames and read the same fields. The Go parser also bounds
the ciphertext length, which the length of the frame implies. -/
theorem parseHeader_eq (frame : List UInt8) (direction : Direction) :
    (parseHeader frame direction).toOption =
      (parseEnvelopeHeader frame direction).toOption.map EnvelopeHeader.toWeb := by
  unfold parseHeader parseEnvelopeHeader
  by_cases hlong : frame.length > maxEnvelopeBytes
  · rw [if_pos (.inr (.inl hlong)), if_pos hlong]
    rfl
  by_cases hshort : frame.length < envelopeOverheadBytes
  · rw [if_pos (.inl hshort), if_neg hlong, if_pos hshort]
    rfl
  rw [if_neg hlong, if_neg hshort]
  have hlength : 44 ≤ frame.length := Nat.not_lt.mp hshort
  by_cases hversion : frame.getD 0 0 = wireVersion
  case neg =>
    rw [if_pos (.inr (.inr (.inl hversion))), if_pos hversion]
    rfl
  rw [if_neg (not_not.mpr hversion)]
  by_cases hreserved : frame.getD 2 0 = 0 ∧ frame.getD 3 0 = 0
  case neg =>
    have hor : frame.getD 2 0 ≠ 0 ∨ frame.getD 3 0 ≠ 0 := not_and_or.mp hreserved
    rw [if_pos (.inr (.inr (.inr (.inr hor)))), if_pos (.inr hor)]
    rfl
  by_cases hdirection : frame.getD 1 0 = direction.byte
  case neg =>
    rw [if_pos (.inr (.inr (.inr (.inl hdirection))))]
    split
    · rfl
    · rfl
  have hfields : ¬ (frame.length < envelopeHeaderBytes + envelopeTagBytes ∨
      frame.length > maxEnvelopeBytes ∨ frame.getD 0 0 ≠ 2 ∨ frame.getD 1 0 ≠ direction.byte ∨
      frame.getD 2 0 ≠ 0 ∨ frame.getD 3 0 ≠ 0) := by
    rintro (h | h | h | h | h | h)
    · exact hshort h
    · exact hlong h
    · exact h hversion
    · exact h hdirection
    · exact h hreserved.1
    · exact h hreserved.2
  have hknown : ¬ (frame.getD 1 0 > Direction.senderToReceiver.byte ∨ frame.getD 2 0 ≠ 0 ∨
      frame.getD 3 0 ≠ 0) := by
    rintro (h | h | h)
    · rw [hdirection] at h
      exact direction.byte_le h
    · exact h hreserved.1
    · exact h hreserved.2
  rw [if_neg hfields, if_neg hknown, if_neg (not_not.mpr hdirection)]
  dsimp only
  rw [toNat_uint32_slice 12 (by omega)]
  by_cases htag : ofBigEndian (slice frame 12 16) < envelopeTagBytes
  · rw [if_pos (.inl htag), if_pos (.inl htag)]
    rfl
  by_cases hsum : frame.length = envelopeHeaderBytes + ofBigEndian (slice frame 12 16)
  case neg =>
    rw [if_pos (.inr (Ne.symm hsum))]
    split
    · rfl
    · rfl
  have hmax : ¬ ofBigEndian (slice frame 12 16) > maxEnvelopeBytes - envelopeHeaderBytes := by
    unfold envelopeHeaderBytes at hsum ⊢
    omega
  rw [if_neg (not_or.mpr ⟨htag, not_not.mpr hsum.symm⟩), if_neg (not_or.mpr ⟨htag, hmax⟩),
    if_neg (not_not.mpr hsum)]
  change some (WebHeader.mk _ _ _) = some (WebHeader.mk _ _ _)
  rw [toNat_uint64_slice 4 (by omega), toNat_uint32_slice 12 (by omega)]

/-- A web binding that passes its check is one of the Go bindings that pass theirs. -/
theorem snapshotBinding_iff (w : WebBinding) :
    snapshotBinding w = .ok w ↔ ∃ b : EnvelopeBinding, b.validate = .ok () ∧ b.toWeb = w := by
  unfold snapshotBinding EnvelopeBinding.validate
  constructor
  · intro h
    split at h
    · cases h
    rename_i hvalid
    simp only [not_or, not_not] at hvalid
    obtain ⟨hshare, hsession, hshareNonzero, hsessionNonzero, hlane, hlaneMax, hepoch, hepochMax⟩ :=
      hvalid
    have hlaneNat : (UInt32.ofNat w.laneId.toNat).toNat = w.laneId.toNat :=
      UInt32.toNat_ofNat_of_lt' (by change _ < 2 ^ 32; omega)
    have hepochNat : (UInt32.ofNat w.laneEpoch.toNat).toNat = w.laneEpoch.toNat :=
      UInt32.toNat_ofNat_of_lt' (by change _ < 2 ^ 32; omega)
    refine ⟨⟨⟨w.shareInstance, hshare⟩, ⟨w.protocolSessionId, hsession⟩,
      UInt32.ofNat w.laneId.toNat, UInt32.ofNat w.laneEpoch.toNat, w.direction⟩, ?_, ?_⟩
    · refine if_neg ?_
      rintro (hs | hs | hs)
      · rw [Identity.isZero_eq_all] at hs
        exact hshareNonzero hs
      · rw [Identity.isZero_eq_all] at hs
        exact hsessionNonzero hs
      · have hs : (UInt32.ofNat w.laneId.toNat).toNat = 0 := congrArg UInt32.toNat hs
        omega
    · unfold EnvelopeBinding.toWeb
      dsimp only
      rw [hlaneNat, hepochNat, Int.toNat_of_nonneg (by omega), Int.toNat_of_nonneg (by omega)]
  · rintro ⟨b, hvalid, rfl⟩
    split at hvalid
    · cases hvalid
    rename_i hgood
    simp only [not_or] at hgood
    obtain ⟨hshare, hsession, hlane⟩ := hgood
    have hlaneLt := b.laneID.toNat_lt
    have hepochLt := b.laneEpoch.toNat_lt
    have hlanePos : b.laneID.toNat ≠ 0 := fun h => hlane (UInt32.toNat_inj.mp h)
    refine if_neg ?_
    rintro (h | h | h | h | h | h | h | h)
    · exact h b.shareInstance.length_eq
    · exact h b.protocolSessionID.length_eq
    · exact hshare (b.shareInstance.isZero_eq_all.trans h)
    · exact hsession (b.protocolSessionID.isZero_eq_all.trans h)
    · change (b.laneID.toNat : Int) ≤ 0 at h
      omega
    · change (b.laneID.toNat : Int) > 0xffffffff at h
      omega
    · change (b.laneEpoch.toNat : Int) < 0 at h
      omega
    · change (b.laneEpoch.toNat : Int) > 0xffffffff at h
      omega

theorem setUint32_toNat (n : UInt32) : setUint32 n.toNat = bigEndian 4 n.toNat := by
  have hlt := n.toNat_lt
  unfold setUint32
  congr 1
  omega

/-- Both runtimes authenticate the same bytes. -/
theorem envelopeAuthenticationData_eq (b : EnvelopeBinding) (sequence : UInt64)
    (ciphertextLength : UInt32) :
    envelopeAuthenticationData b.toWeb sequence.toNat ciphertextLength.toNat =
      envelopeAAD b sequence ciphertextLength := by
  have hsequence : sequence.toNat % 2 ^ 64 = sequence.toNat := Nat.mod_eq_of_lt sequence.toNat_lt
  unfold envelopeAuthenticationData envelopeAAD
  change operationEnvelopeDomain ++ ([2, b.direction.byte] ++ (b.shareInstance.bytes ++
    (b.protocolSessionID.bytes ++ ((setUint32 b.laneID.toNat ++ (setUint32 b.laneEpoch.toNat ++
      bigEndian 8 (sequence.toNat % 2 ^ 64))) ++ setUint32 ciphertextLength.toNat)))) = _
  rw [setUint32_toNat, setUint32_toNat, setUint32_toNat, hsequence, List.append_assoc,
    List.append_assoc]
  rfl

/-- Header and additional data agree between the runtimes, and the additional data determine
the binding and all of the header but the nonce. -/
theorem headers_agree :
    (∀ frame direction, (parseHeader frame direction).toOption =
      (parseEnvelopeHeader frame direction).toOption.map EnvelopeHeader.toWeb) ∧
    (∀ frame direction header, parseEnvelopeHeader frame direction = .ok header →
      frame.getD 1 0 = direction.byte) ∧
    (∀ w, snapshotBinding w = .ok w ↔ ∃ b : EnvelopeBinding, b.validate = .ok () ∧ b.toWeb = w) ∧
    (∀ b (header : EnvelopeHeader), envelopeAuthenticationData b.toWeb header.toWeb.sequence
      header.toWeb.ciphertextLength = envelopeAAD b header.sequence header.ciphertextLength) ∧
    (∀ b c (header other : EnvelopeHeader), envelopeAAD b header.sequence header.ciphertextLength =
      envelopeAAD c other.sequence other.ciphertextLength →
      b = c ∧ header.sequence = other.sequence ∧
        header.ciphertextLength = other.ciphertextLength) := by
  refine ⟨parseHeader_eq, ?_, snapshotBinding_iff,
    fun b header => envelopeAuthenticationData_eq b header.sequence header.ciphertextLength,
    fun b c header other => envelopeAAD_inj⟩
  intro frame direction header hparse
  unfold parseEnvelopeHeader at hparse
  repeat' split at hparse
  all_goals first | cases hparse | skip
  exact not_not.mp ‹¬ frame.getD 1 0 ≠ direction.byte›

/-- A frame with an empty plaintext and the given nonce byte. -/
def shortestFrame (nonce : UInt8) : List UInt8 :=
  [2, 0, 0, 0] ++ bigEndian 8 0 ++ bigEndian 4 16 ++ List.replicate 12 nonce ++ List.replicate 16 0

theorem headers_agree_shortestFrame :
    parseEnvelopeHeader (shortestFrame 7) .receiverToSender =
      .ok ⟨0, 16, List.replicate 12 7⟩ ∧
    (shortestFrame 7).getD 1 0 = Direction.receiverToSender.byte ∧
    (parseHeader (shortestFrame 7) .receiverToSender).toOption =
      some ⟨0, 16, List.replicate 12 7⟩ := by
  have hparse : parseEnvelopeHeader (shortestFrame 7) .receiverToSender =
      .ok ⟨0, 16, List.replicate 12 7⟩ := by decide +kernel
  refine ⟨hparse, headers_agree.2.1 _ _ _ hparse, ?_⟩
  rw [headers_agree.1, hparse]
  rfl

/-- Frames that differ only in the nonce have different headers and the same additional data. -/
theorem nonce_not_authenticated : ∃ header other : EnvelopeHeader,
    parseEnvelopeHeader (shortestFrame 1) .receiverToSender = .ok header ∧
    parseEnvelopeHeader (shortestFrame 2) .receiverToSender = .ok other ∧
    header ≠ other ∧
    ∀ b, envelopeAAD b header.sequence header.ciphertextLength =
      envelopeAAD b other.sequence other.ciphertextLength := by
  refine ⟨⟨0, 16, List.replicate 12 1⟩, ⟨0, 16, List.replicate 12 2⟩, by decide +kernel,
    by decide +kernel, by decide, fun b => rfl⟩

end Windshare.Session
