import Mathlib.Data.List.Chain
import Windshare.Library.Bytes
import Windshare.Library.Fallible
import Windshare.Library.Intervals

/-!
# File checkpoint records

A record is the durable state of one materialised file: what it is bound to, how far it has
come, and which of its bytes are verified. Identities are their big-endian values and texts
their bytes. A byte that is no phase, commit state or reason never validates, so the types
leave it out; an absent reason is `none`. Path rules and SHA-256 are parameters.
-/

namespace Windshare.Checkpoint

open Windshare.Library

/-- A Go string. -/
abbrev Text := List UInt8

/-- The functions that records rest on. -/
structure Environment where
  /-- `catalog.CanonicalPath`. -/
  canonicalPath : Text → Option Text
  /-- `sha256.Sum256`. -/
  sha256 : List UInt8 → Nat

/-- The errors of the package, with the text that follows the sentinel's. -/
inductive RecordError where
  | invalid (detail : String)
  | checksum
  | generation (detail : String)
  | binding (detail : String)
  | recovery
  | crashBoundary
deriving DecidableEq, Repr

/-! ### Values -/

/-- `Range`, [Offset, End). -/
abbrev Range := HalfOpen Nat

inductive Phase where
  | reserved
  | active
  | paused
  | publishing
  | published
  | quarantined
  | retired
deriving DecidableEq, Repr

inductive CommitState where
  | candidate
  | verified
  | published
  | quarantined
deriving DecidableEq, Repr

inductive QuarantineReason where
  | anchorMissing
  | anchorUnsafe
  | stageMissing
  | stageMismatch
  | stageUnsafe
  | finalMismatch
  | finalUnsafe
  | partialObjectCreation
  | publicationHistory
  | metadataMismatch
  | updateTemporary
  | outputObjectDuplicate
deriving DecidableEq, Repr

inductive QuarantineOrigin where
  | reserved
  | witnessed
  | publishing
  | publishBlocked
  | published
  | retiring
deriving DecidableEq, Repr

inductive RetirementReason where
  | published
  | isolatedFailure
  | preObjectCollision
  | invalidatedRevision
deriving DecidableEq, Repr

/-- `MaterializerKind`: native records know one materializer. -/
inductive MaterializerKind where
  | nativeTree
deriving DecidableEq, Repr

/-! The byte of each value in a payload. -/

def Phase.code : Phase → UInt8
  | .reserved => 1
  | .active => 2
  | .paused => 3
  | .publishing => 4
  | .published => 5
  | .quarantined => 6
  | .retired => 7

def CommitState.code : CommitState → UInt8
  | .candidate => 1
  | .verified => 2
  | .published => 3
  | .quarantined => 4

def QuarantineReason.code : QuarantineReason → UInt8
  | .anchorMissing => 1
  | .anchorUnsafe => 2
  | .stageMissing => 3
  | .stageMismatch => 4
  | .stageUnsafe => 5
  | .finalMismatch => 6
  | .finalUnsafe => 7
  | .partialObjectCreation => 8
  | .publicationHistory => 9
  | .metadataMismatch => 10
  | .updateTemporary => 11
  | .outputObjectDuplicate => 12

def QuarantineOrigin.code : QuarantineOrigin → UInt8
  | .reserved => 1
  | .witnessed => 2
  | .publishing => 3
  | .publishBlocked => 4
  | .published => 5
  | .retiring => 6

def RetirementReason.code : RetirementReason → UInt8
  | .published => 1
  | .isolatedFailure => 2
  | .preObjectCollision => 3
  | .invalidatedRevision => 4

def MaterializerKind.code : MaterializerKind → UInt8
  | .nativeTree => 1

/-- What a record is bound to; a record's identity is all of it. -/
structure Identity where
  recordID : Nat
  operationID : Nat
  receiveIntentDigest : Nat
  materializationBindingDigest : Nat
  fileID : Nat
  fileRevision : Nat
  canonicalPath : Text
  exactSize : Nat
  materializerKind : MaterializerKind
  authorityRef : Nat
  ownedObjectID : Nat
deriving DecidableEq, Repr

structure Record where
  ownershipMarker : Text
  namespaceName : Text
  identity : Identity
  stateGeneration : UInt64
  checkpointGeneration : UInt64
  verifiedRanges : List Range
  phase : Phase
  commitState : CommitState
  quarantineReason : Option QuarantineReason
  quarantineOrigin : Option QuarantineOrigin
  retirementReason : Option RetirementReason
  checksum : Nat
deriving DecidableEq, Repr

/-! ### Constants -/

def ownershipMarkerText : Text := "windshare/file-checkpoint/v2".toUTF8.toList

/-- `NamespaceName`. -/
def namespaceText : Text := ".windshare-output/checkpoints-v2".toUTF8.toList

def recordDomain : Text := "windshare/file-checkpoint-record/v3".toUTF8.toList

def recordChecksumDomain : Text := "windshare/file-checkpoint-checksum/v3".toUTF8.toList

def checkpointLineageDomain : Text := "windshare/checkpoint-lineage/v1".toUTF8.toList

def maximumRanges : Nat := 16384

/-- `catalog.MaxFileSize`, the largest integer every runtime holds exactly. -/
def maxFileSize : Nat := 2 ^ 53 - 1

/-! ### Payloads -/

/-- `writeRecordFrame`. -/
def frame (value : List UInt8) : List UInt8 := bigEndian 8 value.length ++ value

/-- `writeRecordFramedU64`. -/
def framedU64 (value : Nat) : List UInt8 := frame (bigEndian 8 value)

@[simp] theorem length_framedU64 (value : Nat) : (framedU64 value).length = 16 := by
  simp [framedU64, frame]

theorem framedU64_inj {a b : Nat} (ha : a < 256 ^ 8) (hb : b < 256 ^ 8)
    (h : framedU64 a = framedU64 b) : a = b := by
  unfold framedU64 frame at h
  rw [length_bigEndian, length_bigEndian] at h
  exact bigEndian_inj ha hb (List.append_cancel_left h)

/-- `canonicalPathBytes`: the components, framed one by one. -/
def canonicalPathBytes (path : Text) : List UInt8 :=
  if path = [] then bigEndian 8 0
  else
    let components := path.splitOn 47
    bigEndian 8 components.length ++ (components.map frame).flatten

/-- `CanonicalCheckpointLineageBytes`, once the fields are validated. -/
def canonicalLineageBytes (id : Identity) : List UInt8 :=
  [checkpointLineageDomain, frame (bigEndian 16 id.operationID),
    frame (bigEndian 32 id.receiveIntentDigest),
    frame (bigEndian 32 id.materializationBindingDigest), frame (bigEndian 16 id.fileID),
    frame (canonicalPathBytes id.canonicalPath), frame [id.materializerKind.code],
    frame (bigEndian 32 id.authorityRef)].flatten

def Range.put (r : Range) : List UInt8 := framedU64 r.offset ++ framedU64 r.stop

/-- The byte of an optional reason. -/
def reasonCode {α : Type} (code : α → UInt8) (reason : Option α) : UInt8 :=
  (reason.map code).getD 0

namespace Record

/-- The part of `canonicalPayload` that is the same along a chain. -/
def payloadHeader (r : Record) : List UInt8 :=
  [recordDomain, [0, 3], frame r.ownershipMarker, frame r.namespaceName,
    frame (bigEndian 32 r.identity.recordID), frame (bigEndian 16 r.identity.operationID),
    frame (bigEndian 32 r.identity.receiveIntentDigest),
    frame (bigEndian 32 r.identity.materializationBindingDigest),
    frame (bigEndian 16 r.identity.fileID), frame (bigEndian 16 r.identity.fileRevision),
    frame (canonicalPathBytes r.identity.canonicalPath), framedU64 r.identity.exactSize,
    frame [r.identity.materializerKind.code], frame (bigEndian 32 r.identity.authorityRef),
    frame (bigEndian 32 r.identity.ownedObjectID)].flatten

def canonicalPayload (r : Record) : List UInt8 :=
  [r.payloadHeader, framedU64 r.stateGeneration.toNat, framedU64 r.checkpointGeneration.toNat,
    bigEndian 8 r.verifiedRanges.length, (r.verifiedRanges.map Range.put).flatten,
    frame [r.phase.code], frame [r.commitState.code],
    frame [reasonCode QuarantineReason.code r.quarantineReason],
    frame [reasonCode QuarantineOrigin.code r.quarantineOrigin],
    frame [reasonCode RetirementReason.code r.retirementReason]].flatten

def derivedChecksum (env : Environment) (r : Record) : Nat :=
  env.sha256 (recordChecksumDomain ++ [0, 3] ++ frame r.canonicalPayload)

end Record

/-! ### Validation -/

/-- `validateMarkerAndNamespace`. The texts equal constants that meet the other conditions. -/
def validateMarkerAndNamespace (marker space : Text) : Except RecordError Unit := do
  refuse (marker ≠ ownershipMarkerText) (.invalid "ownership marker")
  refuse (space ≠ namespaceText) (.invalid "namespace")

def canonicalCheckpointPath (env : Environment) (path : Text) : Except RecordError Text := do
  refuse (env.canonicalPath path ≠ some path) (.binding "canonical path")
  return path

def CommitState.phases : CommitState → List Phase
  | .candidate => [.reserved, .active, .paused, .publishing]
  | .verified => [.reserved, .active, .paused, .publishing, .retired]
  | .published => [.published]
  | .quarantined => [.quarantined]

def validatePhaseCommit (phase : Phase) (commit : CommitState) : Except RecordError Unit :=
  refuse (phase ∉ commit.phases) (.invalid "phase and commit state disagree")

/-- The origins from which a reason for quarantine can arise. -/
def QuarantineReason.origins : QuarantineReason → List QuarantineOrigin
  | .anchorMissing => [.witnessed, .publishing, .publishBlocked, .published, .retiring]
  | .stageMissing => [.witnessed, .publishing, .publishBlocked, .retiring]
  | .finalMismatch => [.published, .retiring]
  | .partialObjectCreation => [.reserved, .retiring]
  | .publicationHistory => [.reserved, .witnessed, .publishing, .publishBlocked]
  | .metadataMismatch => [.publishing, .published]
  | .anchorUnsafe | .stageUnsafe | .updateTemporary | .outputObjectDuplicate | .stageMismatch
  | .finalUnsafe => [.reserved, .witnessed, .publishing, .publishBlocked, .published, .retiring]

/-- `validQuarantineHistory`, of claims that are both present. -/
def validQuarantineHistory : Option QuarantineOrigin → Option QuarantineReason → Bool
  | some origin, some reason => origin ∈ reason.origins
  | _, _ => false

def validateLifecycleClaims (phase : Phase) (reason : Option QuarantineReason)
    (origin : Option QuarantineOrigin) (retirement : Option RetirementReason) :
    Except RecordError Unit :=
  if phase = .quarantined then
    refuse (¬ validQuarantineHistory origin reason ∨
      ¬ (origin = some .retiring ↔ retirement.isSome)) (.invalid "quarantined lifecycle claims")
  else do
    refuse (reason ≠ none ∨ origin ≠ none) (.invalid "quarantine claims outside quarantined phase")
    if phase = .retired then refuse (retirement = none) (.invalid "retired lifecycle claim")
    else refuse (retirement ≠ none) (.invalid "retirement claim outside retired phase")

def validateRangesFrom (exactSize : Nat) : Nat → Option Range → List Range →
    Except RecordError Unit
  | _, _, [] => .ok ()
  | index, previous, current :: rest => do
      refuse (current.offset ≥ current.stop ∨ current.stop > exactSize)
        (.invalid s!"range {index} is outside exact size")
      refuse (∃ before ∈ previous, current.offset ≤ before.stop)
        (.invalid "ranges must be sorted, non-overlapping, and non-adjacent")
      validateRangesFrom exactSize (index + 1) (some current) rest

def validateRanges (ranges : List Range) (exactSize : Nat) : Except RecordError Unit := do
  refuse (ranges.length > maximumRanges) (.invalid "too many verified ranges")
  validateRangesFrom exactSize 0 none ranges

/-- `CheckpointLineageSpec.validate` and `DeriveCheckpointLineageID`: zero where the fields are
not those of a lineage. -/
def derivedRecordID (env : Environment) (id : Identity) : Nat :=
  if id.operationID = 0 ∨ id.receiveIntentDigest = 0 ∨ id.materializationBindingDigest = 0 ∨
      id.fileID = 0 ∨ id.authorityRef = 0 ∨
      env.canonicalPath id.canonicalPath ≠ some id.canonicalPath
  then 0
  else env.sha256 (canonicalLineageBytes id)

namespace Record

def validate (env : Environment) (r : Record) : Except RecordError Unit := do
  validateMarkerAndNamespace r.ownershipMarker r.namespaceName
  let id := r.identity
  refuse (id.operationID = 0 ∨ id.receiveIntentDigest = 0 ∨ id.materializationBindingDigest = 0 ∨
    id.fileID = 0 ∨ id.fileRevision = 0 ∨ id.authorityRef = 0 ∨ id.ownedObjectID = 0 ∨
    id.recordID = 0 ∨ id.exactSize > maxFileSize ∨ r.stateGeneration = 0)
    (.binding "identity or generation")
  let _ ← canonicalCheckpointPath env id.canonicalPath
  validatePhaseCommit r.phase r.commitState
  validateLifecycleClaims r.phase r.quarantineReason r.quarantineOrigin r.retirementReason
  validateRanges r.verifiedRanges id.exactSize
  refuse (id.recordID ≠ derivedRecordID env id)
    (.binding "record ID does not match immutable binding")
  refuse (r.checksum ≠ 0 ∧ r.checksum ≠ r.derivedChecksum env) .checksum

def verifiedBytes (r : Record) : Set Nat := HalfOpen.points r.verifiedRanges

/-! ### What validation says -/

/-- The facts about a valid record that its chain rests on. -/
structure Valid (env : Environment) (r : Record) : Prop where
  validated : r.validate env = .ok ()
  marker : r.ownershipMarker = ownershipMarkerText
  space : r.namespaceName = namespaceText
  recordID : r.identity.recordID ≠ 0
  phase : r.phase ∈ r.commitState.phases
  ascending : HalfOpen.Ascending r.verifiedRanges

end Record

/-- Accepted ranges start one after the other, and after the range before them. -/
theorem ascending_of_validateRangesFrom {exactSize index : Nat} {previous : Option Range}
    {ranges : List Range} (h : validateRangesFrom exactSize index previous ranges = .ok ()) :
    HalfOpen.Ascending ranges ∧ ∀ before ∈ previous, ∀ r ∈ ranges, before.stop < r.offset := by
  induction ranges generalizing index previous with
  | nil => exact ⟨List.Pairwise.nil, fun _ _ => nofun⟩
  | cons current rest ih =>
    obtain ⟨_, hinside, h⟩ := bind_eq_ok.mp h
    obtain ⟨_, hapart, hrest⟩ := bind_eq_ok.mp h
    obtain ⟨hascending, hafter⟩ := ih hrest
    have hnonempty : current.offset < current.stop :=
      Nat.not_le.mp (not_or.mp (refuse_eq_ok.mp hinside)).1
    have hlater : ∀ r ∈ rest, current.stop < r.offset := hafter current rfl
    refine ⟨List.pairwise_cons.mpr ⟨fun r hr => hnonempty.trans (hlater r hr), hascending⟩, ?_⟩
    intro before hbefore r hr
    have hcurrent : before.stop < current.offset :=
      Nat.not_le.mp fun hle => refuse_eq_ok.mp hapart ⟨before, hbefore, hle⟩
    obtain rfl | hr := List.mem_cons.mp hr
    · exact hcurrent
    · exact hcurrent.trans (hnonempty.trans (hlater r hr))

namespace Record

theorem valid_of_validate {env : Environment} {r : Record} (h : r.validate env = .ok ()) :
    r.Valid env := by
  have hvalidated := h
  obtain ⟨_, hmarker, h⟩ := bind_eq_ok.mp h
  obtain ⟨_, hmarker, hspace⟩ := bind_eq_ok.mp hmarker
  obtain ⟨_, hidentity, h⟩ := bind_eq_ok.mp h
  obtain ⟨_, -, h⟩ := bind_eq_ok.mp h
  obtain ⟨_, hphase, h⟩ := bind_eq_ok.mp h
  obtain ⟨_, -, h⟩ := bind_eq_ok.mp h
  obtain ⟨_, hranges, -⟩ := bind_eq_ok.mp h
  obtain ⟨_, -, hranges⟩ := bind_eq_ok.mp hranges
  have hzero := refuse_eq_ok.mp hidentity
  simp only [not_or] at hzero
  exact ⟨hvalidated, not_not.mp (refuse_eq_ok.mp hmarker), not_not.mp (refuse_eq_ok.mp hspace),
    hzero.2.2.2.2.2.2.2.1, not_not.mp (refuse_eq_ok.mp hphase),
    (ascending_of_validateRangesFrom hranges).1⟩

end Record

end Windshare.Checkpoint
