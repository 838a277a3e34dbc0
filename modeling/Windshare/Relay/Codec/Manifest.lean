import Windshare.Relay.Codec.Fields
import Windshare.Relay.Share.Responsibility

/-!
# The layout of responsibility manifests

A header and a counted list of reservations, each tagged with its kind. What was read must pass
the manifest's own validation before it is returned.
-/

namespace Windshare.Relay.Share

open Windshare.Library Layout Codec Windshare.Relay.Flow

/-! ### Values -/

structure Identity.Valid (identity : Identity) : Prop where
  relay : Nonzero 32 identity.relay.value
  share : Nonzero 12 identity.share.value
  incarnation : Nonzero 16 identity.incarnation.value

def Detached.Fits : Detached → Prop
  | .awaitingRelease => True
  | .released => True
  | .quiescing retireAt riskExpiresAt => Codec.Fits 8 retireAt ∧ Codec.Fits 8 riskExpiresAt
  | .riskRetained expiresAt => Codec.Fits 8 expiresAt

def GenerationState.Fits : GenerationState → Prop
  | .connected => True
  | .detached state => state.Fits
  | .unavailable state => state.Fits

def ReservationKind.Fits : ReservationKind → Prop
  | .control deadline => Codec.Fits 8 deadline
  | .business _ state => state.Fits

structure Reservation.Valid (entry : Reservation) : Prop where
  connection : entry.connection.Valid
  kind : entry.kind.Fits

/-- A manifest whose fields have values of their types. -/
structure CheckpointManifest.WellTyped (m : CheckpointManifest) : Prop where
  identity : m.identity.Valid
  lastSession : Codec.Fits 8 m.lastSession
  tokens : Codec.Fits 4 m.attempts.tokens
  updated : Codec.Fits 8 m.attempts.updated
  count : Codec.Fits 8 m.reservations.length
  reservations : ∀ entry ∈ m.reservations, entry.Valid

/-- A manifest that passes its own check. -/
structure CheckpointManifest.Valid (usizeMax : Nat) (limits : ShareLimits)
    (m : CheckpointManifest) : Prop where
  wellTyped : m.WellTyped
  checked : m.validate usizeMax limits = .ok ()

/-! ### Writing -/

namespace Detached

def kind : Detached → UInt8
  | .awaitingRelease => 0
  | .released => 1
  | .quiescing _ _ => 2
  | .riskRetained _ => 3

def body : Detached → List UInt8
  | .awaitingRelease => []
  | .released => []
  | .quiescing retireAt riskExpiresAt => [bigEndian 8 retireAt, bigEndian 8 riskExpiresAt].flatten
  | .riskRetained expiresAt => bigEndian 8 expiresAt

def put (state : Detached) : List UInt8 := state.kind :: state.body

end Detached

namespace GenerationState

def kind : GenerationState → UInt8
  | .connected => 0
  | .detached _ => 1
  | .unavailable _ => 2

def body : GenerationState → List UInt8
  | .connected => []
  | .detached state => state.put
  | .unavailable state => state.put

def put (state : GenerationState) : List UInt8 := state.kind :: state.body

end GenerationState

namespace ReservationKind

def kind : ReservationKind → UInt8
  | .control _ => 0
  | .business _ _ => 1

def body : ReservationKind → List UInt8
  | .control deadline => bigEndian 8 deadline
  | .business bound state => [putCounts bound, state.put].flatten

def put (reservation : ReservationKind) : List UInt8 := reservation.kind :: reservation.body

end ReservationKind

def Reservation.encode (entry : Reservation) : List UInt8 :=
  [entry.connection.encode, entry.kind.put].flatten

def CheckpointManifest.encode (m : CheckpointManifest) : List UInt8 :=
  [[4], bigEndian 32 m.identity.relay.value, bigEndian 12 m.identity.share.value,
    bigEndian 16 m.identity.incarnation.value, bigEndian 8 m.lastSession,
    bigEndian 4 m.attempts.tokens, bigEndian 8 m.attempts.updated,
    bigEndian 8 m.reservations.length, (m.reservations.map Reservation.encode).flatten].flatten

/-! ### Reading -/

def readDetached : LayoutReader Error Detached := do
  let kind ← byte .invalidCheckpoint
  if kind = 0 then return .awaitingRelease
  else if kind = 1 then return .released
  else if kind = 2 then do
    let retireAt ← number 8 .invalidCheckpoint
    let riskExpiresAt ← number 8 .invalidCheckpoint
    return .quiescing retireAt riskExpiresAt
  else if kind = 3 then do
    let expiresAt ← number 8 .invalidCheckpoint
    return .riskRetained expiresAt
  else throw .invalidCheckpoint

def readGenerationState : LayoutReader Error GenerationState := do
  let kind ← byte .invalidCheckpoint
  if kind = 0 then return .connected
  else do
    let detached ← readDetached
    if kind = 1 then return .detached detached
    else if kind = 2 then return .unavailable detached
    else throw .invalidCheckpoint

def readReservationKind : LayoutReader Error ReservationKind := do
  let kind ← byte .invalidCheckpoint
  if kind = 0 then do
    let deadline ← number 8 .invalidCheckpoint
    return .control deadline
  else if kind = 1 then do
    let bound ← counts .invalidCheckpoint
    let state ← readGenerationState
    return .business bound state
  else throw .invalidCheckpoint

def readReservation : LayoutReader Error Reservation := do
  let connection ← connection .invalidCheckpoint .invalidCheckpoint
  let kind ← readReservationKind
  return ⟨connection, kind⟩

namespace CheckpointManifest

/-- The fields of `CheckpointManifest::decode`. -/
def read (usizeMax : Nat) (limits : ShareLimits) : LayoutReader Error CheckpointManifest := do
  let format ← byte .invalidCheckpoint
  refuse (format ≠ 4) .invalidCheckpoint
  let relay ← identifier 32 RelayIdentity.mk .invalidCheckpoint .invalidCheckpoint
  let share ← identifier 12 ShareId.mk .invalidCheckpoint .invalidCheckpoint
  let incarnation ← identifier 16 Incarnation.mk .invalidCheckpoint .invalidCheckpoint
  let lastSession ← number 8 .invalidCheckpoint
  let tokens ← number 4 .invalidCheckpoint
  let updated ← number 8 .invalidCheckpoint
  match limits.generationLimit usizeMax with
  | .error e => throw e
  | .ok limit =>
    let count ← number 8 .invalidCheckpoint
    refuse (count > limit) .invalidCheckpoint
    refuseAhead (fun remainder => count > remainder) .invalidCheckpoint
    let reservations ← counted (fun _ : Unit => readReservation) (fun _ => ()) () count
    return ⟨⟨relay, share, incarnation⟩, lastSession, ⟨tokens, updated⟩, reservations⟩

def decode (usizeMax : Nat) (limits : ShareLimits) (bytes : List UInt8) :
    Except Error CheckpointManifest := do
  let manifest ← Layout.decode (read usizeMax limits) .invalidCheckpoint bytes
  manifest.validate usizeMax limits
  return manifest

end CheckpointManifest

/-! ### Exactness -/

theorem reads_readDetached : Reads readDetached Detached.Fits Detached.put := by
  apply Reads.tagged
  intro kind
  apply Reads.ite
  · rintro rfl
    apply reads_pure rfl
    intro s
    cases s <;> simp [Detached.kind, Detached.Fits]
  intro hawaiting
  apply Reads.ite
  · rintro rfl
    apply reads_pure rfl
    intro s
    cases s <;> simp [Detached.kind, Detached.Fits]
  intro hreleased
  apply Reads.ite
  · rintro rfl
    apply (reads_number 8 Error.invalidCheckpoint).map₂ (reads_number 8 Error.invalidCheckpoint)
    · intro s
      cases s <;> simp [Detached.kind, Detached.Fits, Codec.Fits]
    · intro retireAt riskExpiresAt
      simp [Detached.body]
  intro hquiescing
  apply Reads.ite
  · rintro rfl
    apply (reads_number 8 Error.invalidCheckpoint).map
    · intro s
      cases s <;> simp [Detached.kind, Detached.Fits, Codec.Fits]
    · exact fun _ => rfl
  intro hretained
  apply reads_throw
  rintro s ⟨rfl, -⟩
  cases s <;> contradiction

theorem reads_readGenerationState :
    Reads readGenerationState GenerationState.Fits GenerationState.put := by
  apply Reads.tagged
  intro kind
  apply Reads.ite
  · rintro rfl
    apply reads_pure rfl
    intro s
    cases s <;> simp [GenerationState.kind, GenerationState.Fits]
  intro hconnected
  by_cases hdetached : kind = 1
  · subst hdetached
    apply reads_readDetached.map
    · intro s
      cases s <;> simp [GenerationState.kind, GenerationState.Fits]
    · exact fun _ => rfl
  by_cases hunavailable : kind = 2
  · subst hunavailable
    apply reads_readDetached.map
    · intro s
      cases s <;> simp [GenerationState.kind, GenerationState.Fits]
    · exact fun _ => rfl
  simp only [hdetached, hunavailable, if_false]
  apply reads_bind_throw
  rintro s ⟨rfl, -⟩
  cases s <;> contradiction

theorem reads_readReservationKind :
    Reads readReservationKind ReservationKind.Fits ReservationKind.put := by
  apply Reads.tagged
  intro kind
  apply Reads.ite
  · rintro rfl
    apply (reads_number 8 Error.invalidCheckpoint).map
    · intro r
      cases r <;> simp [ReservationKind.kind, ReservationKind.Fits, Codec.Fits]
    · exact fun _ => rfl
  intro hcontrol
  apply Reads.ite
  · rintro rfl
    apply (reads_counts Error.invalidCheckpoint).map₂ reads_readGenerationState
    · intro r
      cases r <;> simp [ReservationKind.kind, ReservationKind.Fits]
    · intro bound state
      simp [ReservationKind.body]
  intro hbusiness
  apply reads_throw
  rintro r ⟨rfl, -⟩
  cases r <;> contradiction

theorem reads_readReservation : Reads readReservation Reservation.Valid Reservation.encode := by
  apply Reads.of_nothing
  apply Reads.bind Reservation.connection (reads_connection _ _) (fun _ _ h => h.connection)
  intro connection hconnection
  apply Reads.bind Reservation.kind reads_readReservationKind (fun _ _ h => h.kind)
  intro kind hkind
  apply reads_pure rfl
  intro entry
  constructor
  · rintro ⟨⟨rfl, rfl, -⟩, -⟩
    rfl
  · rintro rfl
    exact ⟨⟨rfl, rfl, trivial⟩, hconnection, hkind⟩

/-- Every reservation is at least its connection. -/
theorem length_le_reservations (entries : List Reservation) :
    entries.length ≤ (entries.map Reservation.encode).flatten.length := by
  induction entries with
  | nil => exact Nat.le_refl 0
  | cons entry =>
    have hentry : 16 ≤ entry.encode.length := by
      simp [Reservation.encode]
    rw [List.map_cons, List.flatten_cons, List.length_append, List.length_cons]
    omega

theorem linked_reservations {entries : List Reservation} :
    Linked (fun _ : Unit => Reservation.Valid) (fun _ => ()) () entries ↔
      ∀ entry ∈ entries, entry.Valid := by
  induction entries with
  | nil => simp [Linked]
  | cons entry entries ih => rw [Linked, ih, List.forall_mem_cons]

namespace CheckpointManifest

variable {usizeMax : Nat} {limits : ShareLimits} {m : CheckpointManifest}

theorem reads_manifest : Reads (read usizeMax limits)
      (fun m => (∃ limit, limits.generationLimit usizeMax = .ok limit ∧
        m.reservations.length ≤ limit) ∧ m.WellTyped) encode := by
  apply Reads.bind (fun _ : CheckpointManifest => 4) (reads_byte _) (fun _ _ _ => trivial)
  intro format _
  apply Reads.refused (fun s h => not_not_intro h.1.1.symm)
  intro hformat
  apply Reads.bind (fun m : CheckpointManifest => m.identity.relay)
    (reads_identifier RelayIdentity.value) (fun _ _ h => h.identity.relay)
  intro relay hrelay
  apply Reads.bind (fun m : CheckpointManifest => m.identity.share) (reads_identifier ShareId.value)
    (fun _ _ h => h.identity.share)
  intro share hshare
  apply Reads.bind (fun m : CheckpointManifest => m.identity.incarnation)
    (reads_identifier Incarnation.value) (fun _ _ h => h.identity.incarnation)
  intro incarnation hincarnation
  apply Reads.bind CheckpointManifest.lastSession (reads_number 8 _) (fun _ _ h => h.lastSession)
  intro lastSession hlastSession
  apply Reads.bind (fun m : CheckpointManifest => m.attempts.tokens) (reads_number 4 _)
    (fun _ _ h => h.tokens)
  intro tokens htokens
  apply Reads.bind (fun m : CheckpointManifest => m.attempts.updated) (reads_number 8 _)
    (fun _ _ h => h.updated)
  intro updated hupdated
  cases hlimit : limits.generationLimit usizeMax with
  | error =>
    apply reads_throw
    rintro m ⟨⟨-, -, -, -, -, -, -, limit, hok, -⟩, -⟩
    cases hok
  | ok limit =>
    apply Reads.bind (fun m : CheckpointManifest => m.reservations.length) (reads_number 8 _)
      (fun _ _ h => h.count)
    intro count hcount
    apply Reads.refused
    · rintro m ⟨⟨rfl, -, -, -, -, -, -, -, limit', ⟨⟩, hbounded⟩, -⟩
      exact Nat.not_lt.mpr hbounded
    intro hbounded
    apply Reads.refusedAhead
    · rintro m ⟨⟨rfl, -⟩, -⟩ n
      have hlength : m.reservations.length ≤
          [(m.reservations.map Reservation.encode).flatten].flatten.length := by
        rw [List.flatten_singleton]
        exact length_le_reservations m.reservations
      exact Nat.not_lt.mpr (hlength.trans (Nat.le_add_right _ n))
    apply Reads.bind CheckpointManifest.reservations
      (reads_counted (fun _ => reads_readReservation) () count)
      (fun m hknown h => ⟨hknown.1, linked_reservations.mpr h.reservations⟩)
    rintro reservations ⟨rfl, hlinked⟩
    apply reads_pure rfl
    intro m
    constructor
    · rintro ⟨⟨rfl, -, rfl, rfl, rfl, rfl, rfl, rfl, -⟩, -⟩
      rfl
    · rintro rfl
      exact ⟨⟨rfl, rfl, rfl, rfl, rfl, rfl, rfl, rfl, (not_not.mp hformat).symm, limit, rfl,
        Nat.not_lt.mp hbounded⟩, ⟨hrelay, hshare, hincarnation⟩, hlastSession, htokens, hupdated,
        hcount, linked_reservations.mp hlinked⟩

theorem exists_limit_of_validate (h : m.validate usizeMax limits = .ok ()) :
    ∃ limit, limits.generationLimit usizeMax = .ok limit ∧ m.reservations.length ≤ limit := by
  obtain ⟨_, -, h⟩ := bind_eq_ok.mp h
  obtain ⟨limit, hlimit, h⟩ := bind_eq_ok.mp h
  obtain ⟨_, hrefuse, -⟩ := bind_eq_ok.mp h
  exact ⟨limit, hlimit, Nat.not_lt.mp (not_or.mp (refuse_eq_ok.mp hrefuse)).1⟩

theorem decode_eq_ok {bytes : List UInt8} : decode usizeMax limits bytes = .ok m ↔
      m.Valid usizeMax limits ∧ m.encode = bytes := by
  constructor
  · intro h
    obtain ⟨m', hread, h⟩ := bind_eq_ok.mp h
    obtain ⟨_, hvalidate, h⟩ := bind_eq_ok.mp h
    obtain rfl : m' = m := by
      cases h
      rfl
    obtain ⟨⟨-, hwellTyped⟩, hencode⟩ := reads_manifest.decode_eq_ok.mp hread
    exact ⟨⟨hwellTyped, hvalidate⟩, hencode⟩
  · rintro ⟨h, hencode⟩
    refine bind_eq_ok.mpr ⟨m, reads_manifest.decode_eq_ok.mpr ?_, ?_⟩
    · exact ⟨⟨exists_limit_of_validate h.checked, h.wellTyped⟩, hencode⟩
    · exact bind_eq_ok.mpr ⟨(), h.checked, rfl⟩

end CheckpointManifest

end Windshare.Relay.Share
