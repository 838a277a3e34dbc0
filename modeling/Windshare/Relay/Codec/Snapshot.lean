import Windshare.Relay.Codec.Fields

/-!
# Session snapshots

An inert record of one live session: its admission and its stage. The layout is fixed but for
the deadline of a provisional stage, so the stage byte ahead of the key decides the length.
-/

namespace Windshare.Relay

open Windshare.Library Layout Codec

inductive RecordError where
  | length
  | format
  | kind
  | field
deriving DecidableEq, Repr

/-- `sessions::Stage`, the stage of a session that is not retired. -/
inductive Stage where
  | awaitingReceiver (deadline : UnixMillis)
  | awaitingSender (deadline : UnixMillis)
  | active
deriving DecidableEq, Repr

structure SessionSnapshot where
  key : SessionKey
  stage : Stage
deriving DecidableEq, Repr

def SessionKey.checkpointKey (key : SessionKey) : SessionSnapshot := ⟨key, .active⟩

/-! ### Values -/

structure SessionKey.Valid (key : SessionKey) : Prop where
  relay : Nonzero 32 key.owner.relay.value
  share : Nonzero 12 key.owner.share.value
  instance' : Nonzero 16 key.instance'.value
  wireId : Nonzero 8 key.wireId.value
  epoch : Nonzero 8 key.owner.epoch.value
  sender : key.owner.connection.Valid
  admittedBy : Nonzero 16 key.admittedBy.value
  receiver : key.receiver.Valid
  admissionSequence : Nonzero 8 key.admissionSequence

namespace Stage

def Valid : Stage → Prop
  | .awaitingReceiver deadline => Fits 8 deadline
  | .awaitingSender deadline => Fits 8 deadline
  | .active => True

def kind : Stage → UInt8
  | .awaitingReceiver _ => 1
  | .awaitingSender _ => 2
  | .active => 3

def put : Stage → List UInt8
  | .awaitingReceiver deadline => bigEndian 8 deadline
  | .awaitingSender deadline => bigEndian 8 deadline
  | .active => []

end Stage

namespace SessionSnapshot

structure Valid (s : SessionSnapshot) : Prop where
  key : s.key.Valid
  stage : s.stage.Valid

/-! ### Layout -/

def keyBytes : Nat := 32 + 12 + 16 + 8 + 8 + 16 + 16 + 16 + 8

def maxSnapshotBytes : Nat := 2 + keyBytes + 8

def encode (s : SessionSnapshot) : List UInt8 :=
  [[1], [s.stage.kind], bigEndian 32 s.key.owner.relay.value, bigEndian 12 s.key.owner.share.value,
    bigEndian 16 s.key.instance'.value, bigEndian 8 s.key.wireId.value,
    bigEndian 8 s.key.owner.epoch.value, s.key.owner.connection.encode,
    bigEndian 16 s.key.admittedBy.value, s.key.receiver.encode,
    bigEndian 8 s.key.admissionSequence, s.stage.put].flatten

end SessionSnapshot

/-- `stage`, after the key. -/
def Codec.readStage (kind : UInt8) : LayoutReader RecordError Stage :=
  if kind = 1 then do
    let deadline ← number 8 .length
    return .awaitingReceiver deadline
  else if kind = 2 then do
    let deadline ← number 8 .length
    return .awaitingSender deadline
  else if kind = 3 then return .active
  else throw .kind

namespace SessionSnapshot

/-- The fields of `SessionSnapshot::decode`, in their order. -/
def read : LayoutReader RecordError SessionSnapshot := do
  let format ← byte .length
  let kind ← byte .length
  refuse (format ≠ 1) .format
  let relay ← identifier 32 RelayIdentity.mk .length .field
  let share ← identifier 12 ShareId.mk .length .field
  let instance' ← identifier 16 ShareInstance.mk .length .field
  let wireId ← identifier 8 RelaySessionId.mk .length .field
  let epoch ← identifier 8 OwnershipEpoch.mk .length .field
  let sender ← connection .length .field
  let admittedBy ← identifier 16 Incarnation.mk .length .field
  let receiver ← connection .length .field
  let admissionSequence ← nonzero .length .field
  let stage ← readStage kind
  let owner : OwnershipId := { relay, share, epoch, connection := sender }
  return ⟨{ owner, admittedBy, receiver, admissionSequence, wireId, instance' }, stage⟩

def decode (encoded : List UInt8) : Except RecordError SessionSnapshot :=
  Layout.decode read .length encoded

end SessionSnapshot

/-! ### Exactness -/

theorem Codec.reads_readStage (kind : UInt8) :
    Reads (readStage kind) (fun s => s.kind = kind ∧ s.Valid) Stage.put := by
  apply Reads.ite
  · rintro rfl
    apply (reads_number 8 RecordError.length).map
    · intro s
      cases s <;> simp [Stage.kind, Stage.Valid, Fits]
    · exact fun _ => rfl
  intro hreceiver
  apply Reads.ite
  · rintro rfl
    apply (reads_number 8 RecordError.length).map
    · intro s
      cases s <;> simp [Stage.kind, Stage.Valid, Fits]
    · exact fun _ => rfl
  intro hsender
  apply Reads.ite
  · rintro rfl
    apply reads_pure rfl
    intro s
    cases s <;> simp [Stage.kind, Stage.Valid]
  intro hactive
  apply reads_throw
  rintro s ⟨rfl, -⟩
  cases s <;> contradiction

namespace SessionSnapshot

theorem reads_read : Reads read Valid encode := by
  apply Reads.of_nothing
  apply Reads.bind (fun _ : SessionSnapshot => 1) (reads_byte _) (fun _ _ _ => trivial)
  intro format _
  apply Reads.bind (fun s : SessionSnapshot => s.stage.kind) (reads_byte _) (fun _ _ _ => trivial)
  intro kind _
  apply Reads.refused (fun s h => not_not_intro h.1.2.1.symm)
  intro hformat
  apply Reads.bind (fun s : SessionSnapshot => s.key.owner.relay)
    (reads_identifier RelayIdentity.value) (fun _ _ h => h.key.relay)
  intro relay hrelay
  apply Reads.bind (fun s : SessionSnapshot => s.key.owner.share) (reads_identifier ShareId.value)
    (fun _ _ h => h.key.share)
  intro share hshare
  apply Reads.bind (fun s : SessionSnapshot => s.key.instance')
    (reads_identifier ShareInstance.value) (fun _ _ h => h.key.instance')
  intro instance' hinstance
  apply Reads.bind (fun s : SessionSnapshot => s.key.wireId) (reads_identifier RelaySessionId.value)
    (fun _ _ h => h.key.wireId)
  intro wireId hwireId
  apply Reads.bind (fun s : SessionSnapshot => s.key.owner.epoch)
    (reads_identifier OwnershipEpoch.value) (fun _ _ h => h.key.epoch)
  intro epoch hepoch
  apply Reads.bind (fun s : SessionSnapshot => s.key.owner.connection) (reads_connection _ _)
    (fun _ _ h => h.key.sender)
  intro sender hsender
  apply Reads.bind (fun s : SessionSnapshot => s.key.admittedBy)
    (reads_identifier Incarnation.value) (fun _ _ h => h.key.admittedBy)
  intro admittedBy hadmittedBy
  apply Reads.bind (fun s : SessionSnapshot => s.key.receiver) (reads_connection _ _)
    (fun _ _ h => h.key.receiver)
  intro receiver hreceiver
  apply Reads.bind (fun s : SessionSnapshot => s.key.admissionSequence) (reads_nonzero _ _)
    (fun _ _ h => h.key.admissionSequence)
  intro admissionSequence hsequence
  -- The stage follows the kind byte, which was read ahead of the key.
  apply Reads.bind SessionSnapshot.stage (reads_readStage kind)
    (fun _ hknown h => ⟨hknown.2.2.2.2.2.2.2.2.2.1, h.stage⟩)
  intro stage hstage
  apply reads_pure rfl
  intro s
  constructor
  · rintro ⟨⟨rfl, rfl, rfl, rfl, rfl, rfl, rfl, rfl, rfl, rfl, -⟩, -⟩
    rfl
  · rintro rfl
    exact ⟨⟨rfl, rfl, rfl, rfl, rfl, rfl, rfl, rfl, rfl, rfl, hstage.1,
      (not_not.mp hformat).symm, trivial⟩,
      ⟨hrelay, hshare, hinstance, hwireId, hepoch, hsender, hadmittedBy, hreceiver, hsequence⟩,
      hstage.2⟩

theorem decode_eq_ok {encoded : List UInt8} {s : SessionSnapshot} :
    decode encoded = .ok s ↔ s.Valid ∧ s.encode = encoded :=
  reads_read.decode_eq_ok

theorem length_encode (s : SessionSnapshot) :
    s.encode.length = 2 + keyBytes + s.stage.put.length := by
  simp [encode, keyBytes]
  omega

theorem length_put_le (s : Stage) : s.put.length ≤ 8 := by
  cases s <;> simp [Stage.put]

theorem length_encode_le (s : SessionSnapshot) : s.encode.length ≤ maxSnapshotBytes := by
  rw [length_encode, maxSnapshotBytes]
  exact Nat.add_le_add_left (length_put_le s.stage) _

end SessionSnapshot

end Windshare.Relay
