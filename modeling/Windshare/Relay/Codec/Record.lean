import Windshare.Relay.Codec.Snapshot
import Windshare.Relay.Lifecycle.Record

/-!
# The layout of share records

A header names the format, the kind, the relay and the share; the kind decides the body. The
share of the header must be the image of the key hash in the body, and a STOP keeps the share
and the relay of its operations only in the header. The hash is a parameter.
-/

namespace Windshare.Relay

open Windshare.Library Layout Codec

/-! ### Values -/

/-- `sha256_prefix` of the share domain and a key hash, twelve bytes. -/
abbrev ShareDerivation := PkHash → Nat

variable (derived : ShareDerivation)

/-- A pair that `ShareRoute::new` makes. -/
structure ShareRoute.Valid (route : ShareRoute) : Prop where
  shareId : Nonzero 12 route.shareId.value
  pkHash : Fits 16 route.pkHash.value
  derives : derived route.pkHash = route.shareId.value

structure Registration.Valid (r : Registration) : Prop where
  route : r.route.Valid derived
  shareInstance : Nonzero 16 r.shareInstance.value
  descriptorDigest : Fits 32 r.descriptorDigest.value
  resumeTokenHash : Fits 32 r.resumeTokenHash.value

/-- An account is named by two nonzero identifiers. -/
def Attribution.Valid : Attribution → Prop
  | .anonymous => True
  | .credential principal c => Nonzero 16 principal ∧ Nonzero 16 c

structure OperationId.Valid (id : OperationId) : Prop where
  incarnation : Nonzero 16 id.incarnation.value
  connection : id.connection.Valid
  sequence : Nonzero 8 id.sequence

structure PublishedRoute.Valid (route : PublishedRoute) : Prop where
  relay : Nonzero 32 route.relay.value
  registration : route.registration.Valid derived
  attribution : route.attribution.Valid

structure OwnedRoute.Valid (owned : OwnedRoute) : Prop where
  route : owned.route.Valid derived
  epoch : Nonzero 8 owned.epoch.value
  owner : owned.owner.Valid

structure GraceRoute.Valid (grace : GraceRoute) : Prop where
  route : grace.route.Valid derived
  deadline : Fits 8 grace.deadline
  epoch : Nonzero 8 grace.epoch.value
  owner : grace.owner.Valid

structure StoppedShare.Valid (stopped : StoppedShare) : Prop where
  relay : Nonzero 32 stopped.relay.value
  route : stopped.route.Valid derived
  shareInstance : Nonzero 16 stopped.shareInstance.value
  stopId : Nonzero 16 stopped.stopId.value

def StopCleanup.Valid (relay : RelayIdentity) (share : ShareId) : StopCleanup → Prop
  | .none => True
  | .reservation id => id.relay = relay ∧ id.share = share ∧ id.Valid
  | .owner connection => connection.Valid

/-- The operations of a STOP belong to the share they stop. -/
structure PendingStop.Valid (pending : PendingStop) : Prop where
  stopped : pending.stopped.Valid derived
  id : pending.id.Valid
  share : pending.id.share = pending.route.shareId
  cleanup : pending.cleanup.Valid pending.id.relay pending.id.share

def Record.Valid : Record → Prop
  | .published owned => owned.Valid derived
  | .grace g => g.Valid derived
  | .stopping pending => pending.Valid derived
  | .stopped s => s.Valid derived

/-! ### Writing -/

def Attribution.encode : Attribution → List UInt8
  | .anonymous => List.replicate 33 0
  | .credential principal c => [[1], bigEndian 16 principal, bigEndian 16 c].flatten

/-- `put_registration`, after the share of the header. -/
def Registration.put (r : Registration) : List UInt8 :=
  [bigEndian 16 r.shareInstance.value, bigEndian 16 r.route.pkHash.value,
    bigEndian 32 r.descriptorDigest.value, bigEndian 32 r.resumeTokenHash.value].flatten

/-- A route as published and grace records both begin. -/
def PublishedRoute.put (route : PublishedRoute) : List UInt8 :=
  [route.registration.put, route.attribution.encode].flatten

def putOwnership (epoch : OwnershipEpoch) (owner : ConnectionRef) : List UInt8 :=
  [bigEndian 8 epoch.value, owner.encode].flatten

def OperationId.put (id : OperationId) : List UInt8 :=
  [bigEndian 16 id.incarnation.value, id.connection.encode, bigEndian 8 id.sequence].flatten

def StoppedShare.put (stopped : StoppedShare) : List UInt8 :=
  [bigEndian 16 stopped.shareInstance.value, bigEndian 16 stopped.route.pkHash.value,
    bigEndian 16 stopped.stopId.value].flatten

namespace StopCleanup

def kind : StopCleanup → UInt8
  | .none => 0
  | .reservation _ => 1
  | .owner _ => 3

def body : StopCleanup → List UInt8
  | .none => []
  | .reservation id => id.put
  | .owner connection => connection.encode

def put (cleanup : StopCleanup) : List UInt8 := cleanup.kind :: cleanup.body

end StopCleanup

def StopOrigin.put : StopOrigin → UInt8
  | .sender => 0
  | .administrator => 1

namespace Record

def kind : Record → UInt8
  | .published _ => 2
  | .grace _ => 3
  | .stopping _ => 5
  | .stopped _ => 4

/-- What `Record::encode` writes after the header. -/
def put : Record → List UInt8
  | .published owned => [owned.route.put, putOwnership owned.epoch owned.owner].flatten
  | .grace g => [g.route.put, bigEndian 8 g.deadline, putOwnership g.epoch g.owner].flatten
  | .stopping pending => [pending.stopped.put, pending.id.put, [pending.origin.put],
      pending.cleanup.put].flatten
  | .stopped s => s.put

def headerBytes : Nat := 1 + 1 + 32 + 12
def registrationBytes : Nat := 16 + 16 + 32 + 32 + 33
def operationBytes : Nat := 16 + 16 + 8
def ownershipBytes : Nat := 8 + 16
def graceBytes : Nat := headerBytes + registrationBytes + 8 + ownershipBytes
def stoppingBytes : Nat :=
  headerBytes + (16 + 16 + 16) + operationBytes + 1 + 1 + operationBytes

def maxRecordBytes : Nat := if graceBytes > stoppingBytes then graceBytes else stoppingBytes

def encode (record : Record) : List UInt8 :=
  [[6], [record.kind], bigEndian 32 record.relay.value, bigEndian 12 record.share.value,
    record.put].flatten

end Record

/-! ### Reading -/

def Attribution.decode : List UInt8 → Option Attribution
  | [] => none
  | tag :: rest =>
    if tag = 0 ∧ rest.all (· = 0) then some .anonymous
    else if tag = 1 then
      let principal := ofBigEndian (rest.take 16)
      let credential := ofBigEndian (rest.drop 16)
      if principal = 0 ∨ credential = 0 then none else some (.credential principal credential)
    else none

def ShareRoute.fromWire (shareId pkHash : Nat) : Option ShareRoute :=
  if shareId ≠ 0 ∧ derived ⟨pkHash⟩ = shareId then some ⟨⟨shareId⟩, ⟨pkHash⟩⟩ else none

namespace Codec

def route (shareId : Nat) : LayoutReader RecordError ShareRoute :=
  convert (number 16 .length) (ShareRoute.fromWire derived shareId) .field

def readRegistration (shareId : Nat) : LayoutReader RecordError Registration := do
  let shareInstance ← identifier 16 ShareInstance.mk .length .field
  let route ← route derived shareId
  let descriptorDigest ← number 32 .length
  let resumeTokenHash ← number 32 .length
  return ⟨route, shareInstance, ⟨descriptorDigest⟩, ⟨resumeTokenHash⟩⟩

def readRoute (relay : RelayIdentity) (shareId : Nat) :
    LayoutReader RecordError PublishedRoute := do
  let registration ← readRegistration derived shareId
  let attribution ← convert (field 33 .length) Attribution.decode .field
  return ⟨relay, registration, attribution⟩

def readOperation (relay : RelayIdentity) (share : ShareId) :
    LayoutReader RecordError OperationId := do
  let incarnation ← identifier 16 Incarnation.mk .length .field
  let connection ← connection .length .field
  let sequence ← nonzero .length .field
  return { relay, share, incarnation, connection, sequence }

def readStopped (relay : RelayIdentity) (shareId : Nat) :
    LayoutReader RecordError StoppedShare := do
  let shareInstance ← identifier 16 ShareInstance.mk .length .field
  let route ← route derived shareId
  let stopId ← identifier 16 StopId.mk .length .field
  return { relay, route, shareInstance, stopId }

def readCleanup (relay : RelayIdentity) (share : ShareId) :
    LayoutReader RecordError StopCleanup := do
  let kind ← byte .length
  if kind = 0 then return .none
  else if kind = 1 then do
    let id ← readOperation relay share
    return .reservation id
  else if kind = 3 then do
    let owner ← connection .length .field
    return .owner owner
  else throw .field

def readOrigin : LayoutReader RecordError StopOrigin := do
  let origin ← byte .length
  if origin = 0 then return .sender
  else if origin = 1 then return .administrator
  else throw .field

/-- The body of a published record. -/
def readOwned (relay : RelayIdentity) (shareId : Nat) : LayoutReader RecordError OwnedRoute := do
  let route ← readRoute derived relay shareId
  let epoch ← identifier 8 OwnershipEpoch.mk .length .field
  let owner ← connection .length .field
  return { route, epoch, owner }

def readGrace (relay : RelayIdentity) (shareId : Nat) : LayoutReader RecordError GraceRoute := do
  let route ← readRoute derived relay shareId
  let deadline ← number 8 .length
  let epoch ← identifier 8 OwnershipEpoch.mk .length .field
  let owner ← connection .length .field
  return { route, deadline, epoch, owner }

def readStopping (relay : RelayIdentity) (shareId : Nat) :
    LayoutReader RecordError PendingStop := do
  let stopped ← readStopped derived relay shareId
  let id ← readOperation relay stopped.route.shareId
  let origin ← readOrigin
  let cleanup ← readCleanup relay stopped.route.shareId
  return { PendingStop.new id stopped cleanup with origin }

/-- The body that the kind selects. -/
def readRecord (kind : UInt8) (relay : RelayIdentity) (shareId : Nat) :
    LayoutReader RecordError Record :=
  if kind = 2 then do
    let owned ← readOwned derived relay shareId
    return .published owned
  else if kind = 3 then do
    let grace ← readGrace derived relay shareId
    return .grace grace
  else if kind = 5 then do
    let pending ← readStopping derived relay shareId
    return .stopping pending
  else if kind = 4 then do
    let stopped ← readStopped derived relay shareId
    return .stopped stopped
  else throw .kind

end Codec

namespace Record

def read : LayoutReader RecordError Record := do
  let format ← byte .length
  let kind ← byte .length
  refuse (format ≠ 6) .format
  let relay ← identifier 32 RelayIdentity.mk .length .field
  let shareId ← number 12 .length
  readRecord derived kind relay shareId

def decode (encoded : List UInt8) : Except RecordError Record :=
  Layout.decode (read derived) .length encoded

end Record

/-! ### Exactness -/

namespace Attribution

theorem length_encode (a : Attribution) : a.encode.length = 33 := by
  cases a <;> simp [encode]

theorem decode_eq_some {bytes : List UInt8} (hlength : bytes.length = 33) {a : Attribution} :
    decode bytes = some a ↔ a.Valid ∧ a.encode = bytes := by
  cases bytes with
  | nil => cases hlength
  | cons tag rest =>
    have hrest : rest.length = 16 + 16 := Nat.succ.inj hlength
    unfold decode
    cases a with
    | anonymous =>
      have hencode : anonymous.encode = tag :: rest ↔ tag = 0 ∧ rest.all (· = 0) := by
        simp only [List.all_eq_true, decide_eq_true_eq]
        rw [encode, List.replicate_succ, List.cons.injEq, eq_comm, eq_comm (b := rest),
          List.eq_replicate_iff, hrest]
        exact and_congr_right fun _ => ⟨fun h => h.2, fun h => ⟨rfl, h⟩⟩
      rw [hencode]
      by_cases hzero : tag = 0 ∧ rest.all (· = 0)
      · simp [hzero, Valid]
      · simp only [hzero, if_false]
        split_ifs <;> simp
    | credential principal c =>
      have hhalves := ofBigEndian_take_drop (p := principal) (q := c) hrest
      have hencode : (credential principal c).encode = tag :: rest ↔
          tag = 1 ∧ bigEndian 16 principal ++ bigEndian 16 c = rest := by
        simp [encode, eq_comm]
      rw [hencode]
      constructor
      · intro h
        dsimp only at h
        split_ifs at h with hanonymous hone hzero
        · cases h
        · obtain ⟨hprincipal, hc⟩ := Attribution.credential.inj (Option.some.inj h)
          obtain ⟨hprincipalFits, hcFits, hrestEq⟩ := hhalves.mp ⟨hprincipal, hc⟩
          rw [hprincipal, hc] at hzero
          obtain ⟨hprincipalNe, hcNe⟩ := not_or.mp hzero
          exact ⟨⟨⟨Nat.pos_of_ne_zero hprincipalNe, hprincipalFits⟩,
            ⟨Nat.pos_of_ne_zero hcNe, hcFits⟩⟩, hone, hrestEq⟩
      · rintro ⟨⟨hprincipal, hc⟩, rfl, hrestEq⟩
        obtain ⟨htake, hdrop⟩ := hhalves.mpr ⟨hprincipal.fits, hc.fits, hrestEq⟩
        have hnonzero : ¬ (principal = 0 ∨ c = 0) :=
          not_or.mpr ⟨Nat.ne_of_gt hprincipal.pos, Nat.ne_of_gt hc.pos⟩
        simp [htake, hdrop, hnonzero]

end Attribution

theorem ShareRoute.fromWire_eq_some {shareId pkHash : Nat} {route : ShareRoute} :
    ShareRoute.fromWire derived shareId pkHash = some route ↔
      shareId ≠ 0 ∧ derived ⟨pkHash⟩ = shareId ∧ route = ⟨⟨shareId⟩, ⟨pkHash⟩⟩ := by
  unfold ShareRoute.fromWire
  by_cases h : shareId ≠ 0 ∧ derived ⟨pkHash⟩ = shareId
  · rw [if_pos h]
    exact ⟨fun heq => ⟨h.1, h.2, (Option.some.inj heq).symm⟩, fun heq => by rw [heq.2.2]⟩
  · rw [if_neg h]
    exact ⟨nofun, fun heq => absurd ⟨heq.1, heq.2.1⟩ h⟩

namespace Codec

variable {derived}

variable {shareId : Nat} {relay : RelayIdentity}

theorem reads_route (hfits : Fits 12 shareId) :
    Reads (route derived shareId) (fun r => r.shareId.value = shareId ∧ r.Valid derived)
      (fun r => bigEndian 16 r.pkHash.value) := by
  apply (reads_number 16 RecordError.length).convert
  · intro r
    constructor
    · rintro ⟨rfl, h⟩
      exact ⟨r.pkHash.value, h.pkHash, (ShareRoute.fromWire_eq_some derived).mpr
        ⟨Nat.ne_of_gt h.shareId.pos, h.derives, rfl⟩⟩
    · rintro ⟨pkHash, hpkHash, hroute⟩
      obtain ⟨hzero, hderives, rfl⟩ := (ShareRoute.fromWire_eq_some derived).mp hroute
      exact ⟨rfl, ⟨Nat.pos_of_ne_zero hzero, hfits⟩, hpkHash, hderives⟩
  · intro pkHash r _ hroute
    obtain ⟨-, -, rfl⟩ := (ShareRoute.fromWire_eq_some derived).mp hroute
    rfl

theorem reads_readRegistration (hfits : Fits 12 shareId) :
    Reads (readRegistration derived shareId)
      (fun r => r.route.shareId.value = shareId ∧ r.Valid derived) Registration.put := by
  apply Reads.bind Registration.shareInstance (reads_identifier ShareInstance.value)
    (fun _ _ h => h.shareInstance)
  intro shareInstance hinstance
  apply Reads.bind Registration.route (reads_route hfits) (fun _ hknown h => ⟨hknown.2, h.route⟩)
  intro route hroute
  apply Reads.bind (fun r : Registration => r.descriptorDigest.value) (reads_number 32 _)
    (fun _ _ h => h.descriptorDigest)
  intro descriptorDigest hdigest
  apply Reads.bind (fun r : Registration => r.resumeTokenHash.value) (reads_number 32 _)
    (fun _ _ h => h.resumeTokenHash)
  intro resumeTokenHash hresume
  apply reads_pure rfl
  intro r
  constructor
  · rintro ⟨⟨rfl, rfl, rfl, rfl, -⟩, -⟩
    rfl
  · rintro rfl
    exact ⟨⟨rfl, rfl, rfl, rfl, hroute.1⟩, hroute.2, hinstance, hdigest, hresume⟩

theorem reads_attribution :
    Reads (convert (field 33 RecordError.length) Attribution.decode .field) Attribution.Valid
      Attribution.encode :=
  reads_block (fun a _ => a.length_encode) (fun _ _ h => Attribution.decode_eq_some h)

theorem reads_readRoute (hrelay : Nonzero 32 relay.value) (hfits : Fits 12 shareId) :
    Reads (readRoute derived relay shareId)
      (fun r => (r.relay = relay ∧ r.registration.route.shareId.value = shareId) ∧ r.Valid derived)
      PublishedRoute.put := by
  apply Reads.bind PublishedRoute.registration (reads_readRegistration hfits)
    (fun _ hknown h => ⟨hknown.2, h.registration⟩)
  intro registration hregistration
  apply Reads.bind PublishedRoute.attribution reads_attribution (fun _ _ h => h.attribution)
  intro attribution hattribution
  apply reads_pure rfl
  intro r
  constructor
  · rintro ⟨⟨rfl, rfl, rfl, -⟩, -⟩
    rfl
  · rintro rfl
    exact ⟨⟨rfl, rfl, rfl, hregistration.1⟩, hrelay, hregistration.2, hattribution⟩

theorem reads_readOperation (relay : RelayIdentity) (share : ShareId) :
    Reads (readOperation relay share) (fun id => (id.relay = relay ∧ id.share = share) ∧ id.Valid)
      OperationId.put := by
  apply Reads.bind OperationId.incarnation (reads_identifier Incarnation.value)
    (fun _ _ h => h.incarnation)
  intro incarnation hincarnation
  apply Reads.bind OperationId.connection (reads_connection _ _) (fun _ _ h => h.connection)
  intro connection hconnection
  apply Reads.bind OperationId.sequence (reads_nonzero _ _) (fun _ _ h => h.sequence)
  intro sequence hsequence
  apply reads_pure rfl
  intro id
  constructor
  · rintro ⟨⟨rfl, rfl, rfl, rfl, rfl⟩, -⟩
    rfl
  · rintro rfl
    exact ⟨⟨rfl, rfl, rfl, rfl, rfl⟩, hincarnation, hconnection, hsequence⟩

theorem reads_readStopped (hrelay : Nonzero 32 relay.value) (hfits : Fits 12 shareId) :
    Reads (readStopped derived relay shareId)
      (fun s => (s.relay = relay ∧ s.route.shareId.value = shareId) ∧ s.Valid derived)
      StoppedShare.put := by
  apply Reads.bind StoppedShare.shareInstance (reads_identifier ShareInstance.value)
    (fun _ _ h => h.shareInstance)
  intro shareInstance hinstance
  apply Reads.bind StoppedShare.route (reads_route hfits) (fun _ hknown h => ⟨hknown.2.2, h.route⟩)
  intro route hroute
  apply Reads.bind StoppedShare.stopId (reads_identifier StopId.value) (fun _ _ h => h.stopId)
  intro stopId hstopId
  apply reads_pure rfl
  intro s
  constructor
  · rintro ⟨⟨rfl, rfl, rfl, rfl, -⟩, -⟩
    rfl
  · rintro rfl
    exact ⟨⟨rfl, rfl, rfl, rfl, hroute.1⟩, hrelay, hroute.2, hinstance, hstopId⟩

theorem reads_readCleanup (relay : RelayIdentity) (share : ShareId) :
    Reads (readCleanup relay share) (StopCleanup.Valid relay share) StopCleanup.put := by
  apply Reads.tagged
  intro kind
  apply Reads.ite
  · rintro rfl
    apply reads_pure rfl
    intro c
    cases c <;> simp [StopCleanup.kind, StopCleanup.Valid]
  intro hnone
  apply Reads.ite
  · rintro rfl
    apply (reads_readOperation relay share).map
    · intro c
      cases c <;> simp [StopCleanup.kind, StopCleanup.Valid, and_assoc]
    · exact fun _ => rfl
  intro hreservation
  apply Reads.ite
  · rintro rfl
    apply (reads_connection RecordError.length RecordError.field).map
    · intro c
      cases c <;> simp [StopCleanup.kind, StopCleanup.Valid]
    · exact fun _ => rfl
  intro howner
  apply reads_throw
  rintro c ⟨rfl, -⟩
  cases c <;> contradiction

theorem reads_readOrigin : Reads readOrigin (fun _ => True) (fun origin => [origin.put]) := by
  apply Reads.tagged
  intro origin
  apply Reads.ite
  · rintro rfl
    apply reads_pure rfl
    intro o
    cases o <;> simp [StopOrigin.put]
  intro hsender
  apply Reads.ite
  · rintro rfl
    apply reads_pure rfl
    intro o
    cases o <;> simp [StopOrigin.put]
  intro hadministrator
  apply reads_throw
  rintro o ⟨rfl, -⟩
  cases o <;> contradiction

section

variable (hrelay : Nonzero 32 relay.value)

include hrelay

theorem reads_readOwned (hfits : Fits 12 shareId) : Reads (readOwned derived relay shareId)
      (fun o => (o.route.relay = relay ∧ o.route.registration.route.shareId.value = shareId) ∧
        o.Valid derived)
      (fun o => [o.route.put, bigEndian 8 o.epoch.value, o.owner.encode].flatten) := by
  apply Reads.bind OwnedRoute.route (reads_readRoute hrelay hfits)
    (fun _ hknown h => ⟨hknown, h.route⟩)
  intro route hroute
  apply Reads.bind OwnedRoute.epoch (reads_identifier OwnershipEpoch.value) (fun _ _ h => h.epoch)
  intro epoch hepoch
  apply Reads.bind OwnedRoute.owner (reads_connection _ _) (fun _ _ h => h.owner)
  intro owner howner
  apply reads_pure rfl
  intro o
  constructor
  · rintro ⟨⟨rfl, rfl, rfl, -⟩, -⟩
    rfl
  · rintro rfl
    exact ⟨⟨rfl, rfl, rfl, hroute.1⟩, hroute.2, hepoch, howner⟩

theorem reads_readGrace (hfits : Fits 12 shareId) : Reads (readGrace derived relay shareId)
      (fun g => (g.route.relay = relay ∧ g.route.registration.route.shareId.value = shareId) ∧
        g.Valid derived)
      (fun g => [g.route.put, bigEndian 8 g.deadline, bigEndian 8 g.epoch.value,
        g.owner.encode].flatten) := by
  apply Reads.bind GraceRoute.route (reads_readRoute hrelay hfits)
    (fun _ hknown h => ⟨hknown, h.route⟩)
  intro route hroute
  apply Reads.bind GraceRoute.deadline (reads_number 8 _) (fun _ _ h => h.deadline)
  intro deadline hdeadline
  apply Reads.bind GraceRoute.epoch (reads_identifier OwnershipEpoch.value) (fun _ _ h => h.epoch)
  intro epoch hepoch
  apply Reads.bind GraceRoute.owner (reads_connection _ _) (fun _ _ h => h.owner)
  intro owner howner
  apply reads_pure rfl
  intro g
  constructor
  · rintro ⟨⟨rfl, rfl, rfl, rfl, -⟩, -⟩
    rfl
  · rintro rfl
    exact ⟨⟨rfl, rfl, rfl, rfl, hroute.1⟩, hroute.2, hdeadline, hepoch, howner⟩

theorem reads_readStopping (hfits : Fits 12 shareId) :
    Reads (readStopping derived relay shareId)
      (fun p => (p.id.relay = relay ∧ p.id.share.value = shareId) ∧ p.Valid derived)
      (fun p => [p.stopped.put, p.id.put, [p.origin.put], p.cleanup.put].flatten) := by
  apply Reads.bind PendingStop.stopped (reads_readStopped hrelay hfits)
    (fun p hknown h => ⟨⟨hknown.1, by rw [← hknown.2, h.share]; rfl⟩, h.stopped⟩)
  rintro stopped ⟨⟨rfl, rfl⟩, hstopped⟩
  apply Reads.bind PendingStop.id (reads_readOperation _ _)
    (fun p hknown h => ⟨⟨hknown.2.1, by rw [h.share, ← hknown.1]; rfl⟩, h.id⟩)
  rintro id ⟨⟨hidRelay, hidShare⟩, hid⟩
  apply Reads.bind PendingStop.origin reads_readOrigin (fun _ _ _ => trivial)
  intro origin _
  apply Reads.bind PendingStop.cleanup (reads_readCleanup _ _) (fun p hknown h => by
      have hcleanup := h.cleanup
      rwa [hknown.2.1, hidRelay, hidShare] at hcleanup)
  intro cleanup hcleanup
  apply reads_pure rfl
  intro p
  constructor
  · rintro ⟨⟨rfl, rfl, rfl, rfl, -⟩, -⟩
    rfl
  · rintro rfl
    obtain ⟨idRelay, idShare, incarnation, connection, sequence⟩ := id
    obtain rfl : idRelay = stopped.relay := hidRelay
    obtain rfl : idShare = stopped.route.shareId := hidShare
    exact ⟨⟨rfl, rfl, rfl, rfl, rfl, rfl⟩, hstopped, hid, rfl, hcleanup⟩

/-- The header of a record, as its body must match it. -/
theorem reads_readRecord {kind : UInt8} (hfits : Fits 12 shareId) :
    Reads (readRecord derived kind relay shareId)
      (fun r => r.kind = kind ∧ (r.relay = relay ∧ r.share.value = shareId) ∧ r.Valid derived)
      Record.put := by
  apply Reads.ite
  · rintro rfl
    apply (reads_readOwned hrelay hfits).map
    · intro r
      cases r <;> simp [Record.kind, Record.Valid, Record.relay, Record.share]
    · intro o
      simp [Record.put, putOwnership]
  intro hpublished
  apply Reads.ite
  · rintro rfl
    apply (reads_readGrace hrelay hfits).map
    · intro r
      cases r <;> simp [Record.kind, Record.Valid, Record.relay, Record.share]
    · intro g
      simp [Record.put, putOwnership]
  intro hgrace
  apply Reads.ite
  · rintro rfl
    apply (reads_readStopping hrelay hfits).map
    · intro r
      cases r <;> simp [Record.kind, Record.Valid, Record.relay, Record.share]
    · exact fun _ => rfl
  intro hstopping
  apply Reads.ite
  · rintro rfl
    apply (reads_readStopped hrelay hfits).map
    · intro r
      cases r <;> simp [Record.kind, Record.Valid, Record.relay, Record.share]
    · exact fun _ => rfl
  intro hstopped
  apply reads_throw
  rintro r ⟨rfl, -⟩
  cases r <;> contradiction

end

end Codec

namespace Record

variable {derived}

theorem relay_nonzero {r : Record} (h : r.Valid derived) : Nonzero 32 r.relay.value := by
  cases r with
  | published | grace => exact h.route.relay
  | stopping => exact h.stopped.relay
  | stopped => exact h.relay

theorem share_fits {r : Record} (h : r.Valid derived) : Fits 12 r.share.value := by
  cases r with
  | published | grace => exact h.route.registration.route.shareId.fits
  | stopping pending =>
    have hshare := h.stopped.route.shareId.fits
    rwa [show pending.stopped.route.shareId = pending.id.share from h.share.symm] at hshare
  | stopped => exact h.route.shareId.fits

theorem reads_recordRead : Reads (read derived) (Valid derived) encode := by
  apply Reads.of_nothing
  apply Reads.bind (fun _ : Record => 6) (reads_byte _) (fun _ _ _ => trivial)
  intro format _
  apply Reads.bind Record.kind (reads_byte _) (fun _ _ _ => trivial)
  intro kind _
  apply Reads.refused (fun s h => not_not_intro h.1.2.1.symm)
  intro hformat
  apply Reads.bind Record.relay (reads_identifier RelayIdentity.value)
    (fun _ _ h => relay_nonzero h)
  intro relay hrelay
  apply Reads.bind (fun r : Record => r.share.value) (reads_number 12 _) (fun _ _ h => share_fits h)
  intro shareId hshareId
  obtain rfl := not_not.mp hformat
  apply (reads_readRecord hrelay hshareId).congr
  · intro r
    constructor
    · rintro ⟨⟨hshare, hrecordRelay, hkind, -⟩, h⟩
      exact ⟨hkind, ⟨hrecordRelay, hshare⟩, h⟩
    · rintro ⟨hkind, ⟨hrecordRelay, hshare⟩, h⟩
      exact ⟨⟨hshare, hrecordRelay, hkind, rfl, trivial⟩, h⟩
  · exact fun r _ => List.append_nil r.put

theorem decode_eq_ok {encoded : List UInt8} {record : Record} :
    decode derived encoded = .ok record ↔ record.Valid derived ∧ record.encode = encoded :=
  reads_recordRead.decode_eq_ok

theorem length_routePut (route : PublishedRoute) : route.put.length = registrationBytes := by
  simp [PublishedRoute.put, Registration.put, Attribution.length_encode, registrationBytes]

theorem length_operationPut (id : OperationId) : id.put.length = operationBytes := by
  simp [OperationId.put, operationBytes]

theorem length_cleanupPut_le (cleanup : StopCleanup) : cleanup.put.length ≤ 1 + operationBytes := by
  cases cleanup with
  | none => decide
  | reservation =>
    rw [StopCleanup.put, List.length_cons, StopCleanup.body, length_operationPut, Nat.add_comm]
  | owner connection =>
    rw [StopCleanup.put, List.length_cons, StopCleanup.body, connection.length_encode]
    decide

theorem length_put_le (record : Record) : record.put.length ≤ maxRecordBytes - headerBytes := by
  cases record with
  | published | grace =>
    simp only [put, putOwnership, List.flatten_cons, List.flatten_nil, List.length_append,
      length_routePut, length_bigEndian, ConnectionRef.length_encode, List.length_nil]
    decide
  | stopping pending =>
    have hcleanup := length_cleanupPut_le pending.cleanup
    simp only [put, StoppedShare.put, List.flatten_cons, List.flatten_nil, List.length_append,
      length_operationPut, length_bigEndian, List.length_nil, List.length_cons]
    have hbound :
        16 + (16 + (16 + 0)) + (operationBytes + (0 + 1 + (1 + operationBytes + 0))) ≤
          maxRecordBytes - headerBytes := by
      decide
    omega
  | stopped =>
    simp only [put, StoppedShare.put, List.flatten_cons, List.flatten_nil, List.length_append,
      length_bigEndian, List.length_nil]
    decide

theorem length_encode_le (record : Record) : record.encode.length ≤ maxRecordBytes := by
  have hput := length_put_le record
  have hheader : headerBytes ≤ maxRecordBytes := by decide
  have hlength : record.encode.length = headerBytes + record.put.length := by
    simp [encode, headerBytes]
    omega
  omega

end Record

end Windshare.Relay
