import Windshare.Relay.Codec.Snapshot
import Windshare.Relay.Flow.Checkpoint

/-!
# The layout of ledger checkpoints

A header and a counted list of deliveries in the order of their slots. The destination of a
close request is stored once, with the ledger. A slot and a count are read as 64-bit numbers
and compared with the configured bound; a number too large for the platform's word is above
that bound, so both refusals are one.
-/

namespace Windshare.Relay.Flow

open Windshare.Library Layout Codec

/-! ### Values -/

/-- The slot and the session of a flow within the configured bound. -/
structure FlowKey.Valid (maxSlots : Nat) (flow : FlowKey) : Prop where
  bounded : flow.slot < maxSlots
  slot : Fits 8 flow.slot
  session : flow.permit.session.Valid

namespace State

/-- The deadline as an entry stores it, `deadline().map_or(0, ..)`. -/
def storedDeadline : State → UnixMillis
  | .opened => 0
  | .discarding deadline => deadline
  | .settling deadline => deadline

def kind : State → UInt8
  | .opened => 0
  | .discarding _ => 1
  | .settling _ => 2

def put (state : State) : List UInt8 :=
  [[state.kind], bigEndian 8 state.storedDeadline].flatten

end State

structure Delivery.Valid (maxSlots : Nat) (entry : Delivery) : Prop where
  key : entry.key.Valid maxSlots
  deadline : Fits 8 entry.state.storedDeadline

namespace ConnectionState

def Valid (maxSlots : Nat) (destination : ConnectionRef) : ConnectionState → Prop
  | .opened => True
  | .closing request =>
    request.destination = destination ∧ request.flow.Valid maxSlots ∧ Fits 8 request.deadline
  | .closed => True

def kind : ConnectionState → UInt8
  | .opened => 0
  | .closing _ => 1
  | .closed => 2

end ConnectionState

/-- Distinct slots in their order, all within the configured bound. -/
structure LedgerCheckpoint.Valid (maxSlots : Nat) (c : LedgerCheckpoint) : Prop where
  relay : Nonzero 32 c.relay.value
  destination : c.destination.Valid
  state : c.state.Valid maxSlots c.destination
  count : Fits 8 c.entries.length
  entries : ∀ entry ∈ c.entries, entry.Valid maxSlots
  ordered : c.entries.Pairwise fun entry later => entry.key.slot < later.key.slot

/-! ### Writing -/

def putDirection : Direction → UInt8
  | .toSender => 0
  | .toReceiver => 1

/-- `encode_permit`: the direction, and the session as an active snapshot. -/
def encodePermit (permit : ForwardPermit) : List UInt8 :=
  [[putDirection permit.direction], permit.session.checkpointKey.encode].flatten

/-- One entry of `LedgerCheckpoint::encode`. -/
def Delivery.encode (entry : Delivery) : List UInt8 :=
  [bigEndian 8 entry.key.slot, encodePermit entry.key.permit, putCounts entry.startup,
    putCounts entry.granted, putCounts entry.received, putCounts entry.submitted,
    putCounts entry.consumed, entry.state.put].flatten

def capacityFlag : Option ReceiveCapacity → UInt8
  | none => 0
  | some _ => 1

def capacityBody : Option ReceiveCapacity → List UInt8
  | none => []
  | some capacity => putCounts capacity.counts

/-- The flag, and the capacity if one is declared. -/
def putCapacity (capacity : Option ReceiveCapacity) : List UInt8 :=
  capacityFlag capacity :: capacityBody capacity

def ConnectionState.put : ConnectionState → List UInt8
  | .opened => []
  | .closing request => [bigEndian 8 request.flow.slot, encodePermit request.flow.permit,
      bigEndian 8 request.deadline].flatten
  | .closed => []

def LedgerCheckpoint.encode (c : LedgerCheckpoint) : List UInt8 :=
  [[3], [c.state.kind], bigEndian 32 c.relay.value, c.destination.encode,
    putCapacity c.receiveCapacity, c.state.put, bigEndian 8 c.entries.length,
    (c.entries.map Delivery.encode).flatten].flatten

/-! ### Reading -/

/-- `KEY_BYTES`: a snapshot without a deadline. -/
def keyBytes : Nat := SessionSnapshot.maxSnapshotBytes - 8

def entryBytes : Nat := 8 + 1 + keyBytes + 5 * 16 + 1 + 8

def readSlot (maximum : Nat) : LayoutReader CheckpointError Nat :=
  convert (number 8 .format) (fun slot => if slot ≥ maximum then none else some slot) .capacity

def readDirection : LayoutReader CheckpointError Direction := do
  let direction ← byte .format
  if direction = 0 then return .toSender
  else if direction = 1 then return .toReceiver
  else throw .format

def decodePermit : LayoutReader CheckpointError ForwardPermit := do
  let direction ← readDirection
  let snapshot ← convert (field keyBytes .format) (fun bytes =>
    (SessionSnapshot.decode bytes).toOption) .identity
  return ⟨snapshot.key, direction⟩

/-- The last fields of `decode_entry`. -/
def readDeliveryState : LayoutReader CheckpointError State := do
  let kind ← byte .format
  let deadline ← number 8 .format
  if kind = 0 ∧ deadline = 0 then return .opened
  else if kind = 1 then return .discarding deadline
  else if kind = 2 then return .settling deadline
  else throw .format

def decodeEntry (slot : Nat) : LayoutReader CheckpointError Delivery := do
  let permit ← decodePermit
  let startup ← counts .format
  let granted ← counts .format
  let received ← counts .format
  let submitted ← counts .format
  let consumed ← counts .format
  let state ← readDeliveryState
  return { key := ⟨slot, permit⟩, startup, granted, received, submitted, consumed, state }

/-- One turn of the loop of `LedgerCheckpoint::decode`, after the slot of the last entry. -/
def readEntry (maxSlots : Nat) (last : Option Nat) : LayoutReader CheckpointError Delivery := do
  let slot ← readSlot maxSlots
  refuse (∃ previous ∈ last, previous ≥ slot) .identity
  decodeEntry slot

/-- `ReceiveCapacity::read`, whose refusals all become one. -/
def readDeclared : LayoutReader CheckpointError ReceiveCapacity :=
  convert (counts .capacity)
    (fun c => if h : c.frames ≠ 0 ∧ c.encodedBytes ≠ 0 then some ⟨c, h⟩ else none) .capacity

def readCapacity : LayoutReader CheckpointError (Option ReceiveCapacity) := do
  let declared ← byte .format
  if declared = 0 then return none
  else if declared = 1 then do
    let capacity ← readDeclared
    return some capacity
  else throw .format

def readClose (maxSlots : Nat) (destination : ConnectionRef) :
    LayoutReader CheckpointError CloseRequest := do
  let slot ← readSlot maxSlots
  let permit ← decodePermit
  let deadline ← number 8 .format
  return ⟨destination, ⟨slot, permit⟩, deadline⟩

def readState (maxSlots : Nat) (destination : ConnectionRef) (kind : UInt8) :
    LayoutReader CheckpointError ConnectionState :=
  if kind = 0 then return .opened
  else if kind = 1 then do
    let request ← readClose maxSlots destination
    return .closing request
  else return .closed

namespace LedgerCheckpoint

/-- The fields of `LedgerCheckpoint::decode`; `allocates` says whether the allocator can
reserve that many entries. -/
def read (maxSlots : Nat) (allocates : Nat → Bool) :
    LayoutReader CheckpointError LedgerCheckpoint := do
  let format ← byte .format
  let kind ← byte .format
  refuse (format ≠ 3 ∨ kind > 2) .format
  let relay ← identifier 32 RelayIdentity.mk .format .identity
  let destination ← connection .format .identity
  let receiveCapacity ← readCapacity
  let state ← readState maxSlots destination kind
  let count ← number 8 .format
  refuse (count > maxSlots) .capacity
  refuseAhead (fun remainder => count > remainder / entryBytes) .capacity
  refuse (¬ allocates count) .storageAllocation
  let entries ← counted (readEntry maxSlots) (fun entry => some entry.key.slot) none count
  return { relay, destination, entries, state, receiveCapacity }

def decode (maxSlots : Nat) (allocates : Nat → Bool) (bytes : List UInt8) :
    Except CheckpointError LedgerCheckpoint :=
  Layout.decode (read maxSlots allocates) .format bytes

/-- The result of checked arithmetic on a machine word. -/
def checkedWord (usizeMax n : Nat) : Option Nat := if n ≤ usizeMax then some n else none

/-- `LedgerCheckpoint::maximum_bytes`, with the largest value of a machine word. -/
def maximumBytes (usizeMax slots : Nat) : Option Nat := do
  let entries ← checkedWord usizeMax (slots * entryBytes)
  let header ← checkedWord usizeMax (entries + (2 + 32 + 16 + 1 + 16 + 8))
  checkedWord usizeMax (header + (8 + 1 + keyBytes + 8))

end LedgerCheckpoint

/-! ### Exactness -/

theorem reads_readSlot (maximum : Nat) :
    Reads (readSlot maximum) (fun slot => slot < maximum ∧ Fits 8 slot) (bigEndian 8) := by
  apply (reads_number 8 CheckpointError.format).convert
  · intro slot
    constructor
    · rintro ⟨hbound, hfits⟩
      exact ⟨slot, hfits, if_neg (Nat.not_le.mpr hbound)⟩
    · rintro ⟨read, hfits, hslot⟩
      by_cases hbound : read ≥ maximum
      · rw [if_pos hbound] at hslot
        cases hslot
      · rw [if_neg hbound] at hslot
        obtain rfl := Option.some.inj hslot
        exact ⟨Nat.not_le.mp hbound, hfits⟩
  · intro read slot _ hslot
    by_cases hbound : read ≥ maximum
    · rw [if_pos hbound] at hslot
      cases hslot
    · rw [if_neg hbound] at hslot
      rw [Option.some.inj hslot]

theorem reads_readDirection :
    Reads readDirection (fun _ => True) (fun direction => [putDirection direction]) := by
  apply Reads.tagged
  intro direction
  apply Reads.ite
  · rintro rfl
    apply reads_pure rfl
    intro d
    cases d <;> simp [putDirection]
  intro hsender
  apply Reads.ite
  · rintro rfl
    apply reads_pure rfl
    intro d
    cases d <;> simp [putDirection]
  intro hreceiver
  apply reads_throw
  rintro d ⟨rfl, -⟩
  cases d <;> contradiction

variable {maxSlots : Nat} {bytes : List UInt8} {destination : ConnectionRef}
  {entries : List Delivery} {allocates : Nat → Bool} {c : LedgerCheckpoint}

theorem toOption_decode_eq_some (hlength : bytes.length = keyBytes)
    {s : SessionSnapshot} : (SessionSnapshot.decode bytes).toOption = some s ↔
      (s.Valid ∧ s.stage = .active) ∧ s.encode = bytes := by
  have hdecode : (SessionSnapshot.decode bytes).toOption = some s ↔
      SessionSnapshot.decode bytes = .ok s := by
    cases SessionSnapshot.decode bytes <;> simp [Except.toOption]
  rw [hdecode, SessionSnapshot.decode_eq_ok]
  constructor
  · rintro ⟨hvalid, rfl⟩
    refine ⟨⟨hvalid, ?_⟩, rfl⟩
    rw [SessionSnapshot.length_encode] at hlength
    cases hstage : s.stage with
    | awaitingReceiver | awaitingSender =>
      simp [hstage, Stage.put, keyBytes, SessionSnapshot.maxSnapshotBytes] at hlength
    | active => rfl
  · rintro ⟨⟨hvalid, -⟩, rfl⟩
    exact ⟨hvalid, rfl⟩

theorem length_checkpointKey (key : SessionKey) : key.checkpointKey.encode.length = keyBytes := by
  rw [SessionSnapshot.length_encode]
  rfl

theorem reads_snapshot : Reads (convert (field keyBytes CheckpointError.format) (fun bytes =>
        (SessionSnapshot.decode bytes).toOption) .identity)
      (fun s => s.Valid ∧ s.stage = .active) SessionSnapshot.encode := by
  apply reads_block
  · rintro ⟨key, stage⟩ ⟨-, rfl⟩
    exact length_checkpointKey key
  · exact fun _ _ h => toOption_decode_eq_some h

theorem reads_decodePermit :
    Reads decodePermit (fun permit => permit.session.Valid) encodePermit := by
  apply Reads.of_nothing
  apply Reads.bind ForwardPermit.direction reads_readDirection (fun _ _ _ => trivial)
  intro direction _
  apply Reads.bind (fun permit : ForwardPermit => permit.session.checkpointKey) reads_snapshot
    (fun permit _ h => ⟨⟨h, trivial⟩, rfl⟩)
  rintro ⟨key, stage⟩ ⟨hvalid, rfl⟩
  apply reads_pure rfl
  intro permit
  constructor
  · rintro ⟨⟨hkey, rfl, -⟩, -⟩
    obtain ⟨rfl, -⟩ := SessionSnapshot.mk.inj hkey
    rfl
  · rintro rfl
    exact ⟨⟨rfl, rfl, trivial⟩, hvalid.key⟩

theorem reads_readDeliveryState :
    Reads readDeliveryState (fun state => Fits 8 state.storedDeadline) State.put := by
  apply Reads.of_nothing
  apply Reads.bind State.kind (reads_byte _) (fun _ _ _ => trivial)
  intro kind _
  apply Reads.bind State.storedDeadline (reads_number 8 _) (fun _ _ h => h)
  intro deadline hdeadline
  apply Reads.ite
  · rintro ⟨rfl, rfl⟩
    apply reads_pure rfl
    intro state
    cases state <;> simp [State.kind, State.storedDeadline]
  intro hopened
  apply Reads.ite
  · rintro rfl
    apply reads_pure rfl
    intro state
    cases state <;> simp [State.kind, State.storedDeadline]
    rintro rfl
    exact hdeadline
  intro hdiscarding
  apply Reads.ite
  · rintro rfl
    apply reads_pure rfl
    intro state
    cases state <;> simp [State.kind, State.storedDeadline]
    rintro rfl
    exact hdeadline
  intro hsettling
  apply reads_throw
  rintro state ⟨⟨rfl, rfl, -⟩, -⟩
  cases state <;> simp_all [State.kind, State.storedDeadline]

theorem reads_decodeEntry {maxSlots slot : Nat} (hbounded : slot < maxSlots)
    (hfits : Fits 8 slot) :
    Reads (decodeEntry slot) (fun e => e.key.slot = slot ∧ e.Valid maxSlots)
      (fun e => [encodePermit e.key.permit, putCounts e.startup, putCounts e.granted,
        putCounts e.received, putCounts e.submitted, putCounts e.consumed,
        e.state.put].flatten) := by
  apply Reads.bind (fun e : Delivery => e.key.permit) reads_decodePermit
    (fun _ _ h => h.key.session)
  intro permit hpermit
  apply Reads.bind Delivery.startup (reads_counts _) (fun _ _ _ => trivial)
  intro startup _
  apply Reads.bind Delivery.granted (reads_counts _) (fun _ _ _ => trivial)
  intro granted _
  apply Reads.bind Delivery.received (reads_counts _) (fun _ _ _ => trivial)
  intro received _
  apply Reads.bind Delivery.submitted (reads_counts _) (fun _ _ _ => trivial)
  intro submitted _
  apply Reads.bind Delivery.consumed (reads_counts _) (fun _ _ _ => trivial)
  intro consumed _
  apply Reads.bind Delivery.state reads_readDeliveryState (fun _ _ h => h.deadline)
  intro state hstate
  apply reads_pure rfl
  intro e
  constructor
  · rintro ⟨⟨rfl, rfl, rfl, rfl, rfl, rfl, rfl, rfl⟩, -⟩
    rfl
  · rintro rfl
    exact ⟨⟨rfl, rfl, rfl, rfl, rfl, rfl, rfl, rfl⟩, ⟨hbounded, hfits, hpermit⟩, hstate⟩

/-- An entry whose slot comes after the last. -/
theorem reads_readEntry (maxSlots : Nat) (last : Option Nat) :
    Reads (readEntry maxSlots last)
      (fun e => (∀ previous ∈ last, previous < e.key.slot) ∧ e.Valid maxSlots)
      Delivery.encode := by
  apply Reads.bind (fun e : Delivery => e.key.slot) (reads_readSlot maxSlots)
    (fun _ _ h => ⟨h.key.bounded, h.key.slot⟩)
  rintro slot ⟨hbounded, hfits⟩
  apply Reads.refused
  · rintro e ⟨⟨rfl, hlater⟩, -⟩ ⟨previous, hlast, hge⟩
    exact absurd hge (Nat.not_le.mpr (hlater previous hlast))
  intro hlater
  apply (reads_decodeEntry hbounded hfits).congr
  · intro e
    constructor
    · rintro ⟨⟨hslot, -⟩, h⟩
      exact ⟨hslot, h⟩
    · rintro ⟨rfl, h⟩
      refine ⟨⟨rfl, fun previous hlast => ?_⟩, h⟩
      exact Nat.not_le.mp fun hge => hlater ⟨previous, hlast, hge⟩
  · exact fun _ _ => rfl

theorem reads_readDeclared :
    Reads readDeclared (fun _ => True) (fun capacity => putCounts capacity.counts) :=
  reads_positive CheckpointError.capacity .capacity

theorem reads_readCapacity : Reads readCapacity (fun _ => True) putCapacity := by
  apply Reads.tagged
  intro declared
  apply Reads.ite
  · rintro rfl
    apply reads_pure rfl
    intro capacity
    cases capacity <;> simp [capacityFlag]
  intro hnone
  apply Reads.ite
  · rintro rfl
    apply reads_readDeclared.map
    · intro capacity
      cases capacity <;> simp [capacityFlag]
    · exact fun _ => rfl
  intro hsome
  apply reads_throw
  rintro capacity ⟨rfl, -⟩
  cases capacity <;> contradiction

theorem reads_readClose : Reads (readClose maxSlots destination)
      (fun r => r.destination = destination ∧ r.flow.Valid maxSlots ∧ Fits 8 r.deadline)
      (fun r => [bigEndian 8 r.flow.slot, encodePermit r.flow.permit,
        bigEndian 8 r.deadline].flatten) := by
  apply Reads.bind (fun r : CloseRequest => r.flow.slot) (reads_readSlot maxSlots)
    (fun _ _ h => ⟨h.1.bounded, h.1.slot⟩)
  rintro slot ⟨hbounded, hfits⟩
  apply Reads.bind (fun r : CloseRequest => r.flow.permit) reads_decodePermit
    (fun _ _ h => h.1.session)
  intro permit hpermit
  apply Reads.bind CloseRequest.deadline (reads_number 8 _) (fun _ _ h => h.2)
  intro deadline hdeadline
  apply reads_pure rfl
  intro r
  constructor
  · rintro ⟨⟨rfl, rfl, rfl, rfl⟩, -⟩
    rfl
  · rintro rfl
    exact ⟨⟨rfl, rfl, rfl, rfl⟩, ⟨hbounded, hfits, hpermit⟩, hdeadline⟩

theorem reads_readState {kind : UInt8} (hkind : ¬ kind > 2) :
    Reads (readState maxSlots destination kind)
      (fun s => s.kind = kind ∧ s.Valid maxSlots destination) ConnectionState.put := by
  apply Reads.ite
  · rintro rfl
    apply reads_pure rfl
    intro s
    cases s <;> simp [ConnectionState.kind, ConnectionState.Valid]
  intro hopened
  apply Reads.ite
  · rintro rfl
    apply reads_readClose.map
    · intro s
      cases s <;> simp [ConnectionState.kind, ConnectionState.Valid]
    · exact fun _ => rfl
  intro hclosing
  -- The header refused every kind above the last.
  obtain rfl : kind = 2 := by
    have hle : kind.toNat ≤ 2 := Nat.not_lt.mp hkind
    have hne0 : kind.toNat ≠ 0 := fun h => hopened (UInt8.toNat.inj h)
    have hne1 : kind.toNat ≠ 1 := fun h => hclosing (UInt8.toNat.inj h)
    exact UInt8.toNat.inj (by change kind.toNat = 2; omega)
  apply reads_pure rfl
  intro s
  cases s <;> simp [ConnectionState.kind, ConnectionState.Valid]

/-! ### Entries -/

theorem length_encodePermit (permit : ForwardPermit) :
    (encodePermit permit).length = 1 + keyBytes := by
  simp only [encodePermit, List.flatten_cons, List.flatten_nil, List.length_append,
    List.length_cons, List.length_nil, length_checkpointKey]
  omega

theorem length_putCounts (c : Counts) : (putCounts c).length = 16 := by
  simp [putCounts]

theorem Delivery.length_encode (entry : Delivery) : entry.encode.length = entryBytes := by
  simp only [Delivery.encode, State.put, List.flatten_cons, List.flatten_nil, List.length_append,
    List.length_cons, List.length_nil, length_encodePermit, length_putCounts, length_bigEndian,
    entryBytes]
  omega

theorem length_entries (entries : List Delivery) :
    (entries.map Delivery.encode).flatten.length = entries.length * entryBytes := by
  induction entries with
  | nil => exact (Nat.zero_mul _).symm
  | cons entry entries ih =>
    rw [List.map_cons, List.flatten_cons, List.length_append, ih, entry.length_encode,
      List.length_cons, Nat.succ_mul, Nat.add_comm]

/-- Valid entries, each after the ones before it. -/
theorem linked_iff {last : Option Nat} :
    Linked (fun last e => (∀ previous ∈ last, previous < e.key.slot) ∧ e.Valid maxSlots)
        (fun entry => some entry.key.slot) last entries ↔
      (∀ e ∈ entries, (∀ previous ∈ last, previous < e.key.slot) ∧ e.Valid maxSlots) ∧
        entries.Pairwise fun entry later => entry.key.slot < later.key.slot := by
  induction entries generalizing last with
  | nil => simp [Linked]
  | cons entry entries ih =>
    rw [Linked, ih, List.forall_mem_cons, List.pairwise_cons]
    constructor
    · rintro ⟨⟨hlater, hentry⟩, hentries, hordered⟩
      have hafter : ∀ e ∈ entries, entry.key.slot < e.key.slot :=
        fun e he => (hentries e he).1 _ rfl
      exact ⟨⟨⟨hlater, hentry⟩, fun e he =>
        ⟨fun previous hlast => (hlater previous hlast).trans (hafter e he), (hentries e he).2⟩⟩,
        hafter, hordered⟩
    · rintro ⟨⟨hentry, hentries⟩, hafter, hordered⟩
      refine ⟨hentry, fun e he => ⟨?_, (hentries e he).2⟩, hordered⟩
      rintro previous ⟨⟩
      exact hafter e he

/-- Distinct slots below the bound are at most as many. -/
theorem length_le_of_ordered (hvalid : ∀ e ∈ entries, e.key.slot < maxSlots)
    (hordered : entries.Pairwise fun entry later => entry.key.slot < later.key.slot) :
    entries.length ≤ maxSlots := by
  have hslots : (entries.map (·.key.slot)).Pairwise (· < ·) :=
    List.pairwise_map.mpr hordered
  have hnodup : (entries.map (·.key.slot)).Nodup := hslots.imp Nat.ne_of_lt
  have hsubset : entries.map (·.key.slot) ⊆ List.range maxSlots := by
    intro slot hslot
    obtain ⟨e, he, rfl⟩ := List.mem_map.mp hslot
    exact List.mem_range.mpr (hvalid e he)
  have hlength := (List.subperm_of_subset hnodup hsubset).length_le
  rwa [List.length_map, List.length_range] at hlength

namespace LedgerCheckpoint

theorem reads_ledger : Reads (read maxSlots allocates)
      (fun c => allocates c.entries.length = true ∧ c.Valid maxSlots) encode := by
  apply Reads.bind (fun _ : LedgerCheckpoint => 3) (reads_byte _) (fun _ _ _ => trivial)
  intro format _
  apply Reads.bind (fun c : LedgerCheckpoint => c.state.kind) (reads_byte _) (fun _ _ _ => trivial)
  intro kind _
  apply Reads.refused
  · rintro c ⟨⟨rfl, rfl, -⟩, -⟩
    cases c.state <;> simp [ConnectionState.kind]
  intro hheader
  obtain ⟨hformat, hkind⟩ := not_or.mp hheader
  apply Reads.bind LedgerCheckpoint.relay
    (reads_identifier RelayIdentity.value) (fun _ _ h => h.relay)
  intro relay hrelay
  apply Reads.bind LedgerCheckpoint.destination (reads_connection _ _) (fun _ _ h => h.destination)
  intro destination hdestination
  apply Reads.bind LedgerCheckpoint.receiveCapacity reads_readCapacity (fun _ _ _ => trivial)
  intro receiveCapacity _
  apply Reads.bind LedgerCheckpoint.state (reads_readState hkind)
    (fun c hknown h => ⟨hknown.2.2.2.1, by rw [← hknown.2.1]; exact h.state⟩)
  intro state hstate
  apply Reads.bind (fun c : LedgerCheckpoint => c.entries.length) (reads_number 8 _)
    (fun _ _ h => h.count)
  intro count hcount
  apply Reads.refused
  · rintro c ⟨⟨rfl, -⟩, h⟩
    exact Nat.not_lt.mpr (length_le_of_ordered (fun e he => (h.entries e he).key.bounded) h.ordered)
  intro hbounded
  apply Reads.refusedAhead
  · rintro c ⟨⟨rfl, -⟩, -⟩ n
    have hlength : c.entries.length * entryBytes ≤
        [(c.entries.map Delivery.encode).flatten].flatten.length + n := by
      rw [List.flatten_singleton, length_entries]
      exact Nat.le_add_right _ _
    exact Nat.not_lt.mpr ((Nat.le_div_iff_mul_le (by decide)).mpr hlength)
  apply Reads.refused
  · rintro c ⟨⟨rfl, -, -, -, -, -, -, hallocates⟩, -⟩
    exact not_not_intro hallocates
  intro hallocates
  apply Reads.bind LedgerCheckpoint.entries
    (reads_counted (reads_readEntry maxSlots) none count)
    (fun c hknown h => ⟨hknown.1, linked_iff.mpr ⟨fun e he => ⟨nofun, h.entries e he⟩, h.ordered⟩⟩)
  rintro entries ⟨rfl, hlinked⟩
  obtain ⟨hentries, hordered⟩ := linked_iff.mp hlinked
  apply reads_pure rfl
  intro c
  constructor
  · rintro ⟨⟨rfl, -, rfl, rfl, rfl, rfl, -⟩, -⟩
    rfl
  · rintro rfl
    exact ⟨⟨rfl, rfl, rfl, rfl, rfl, rfl, hstate.1, (not_not.mp hformat).symm,
      not_not.mp hallocates⟩, hrelay, hdestination, hstate.2, hcount,
      fun e he => (hentries e he).2, hordered⟩

theorem decode_eq_ok : decode maxSlots allocates bytes = .ok c ↔
      (allocates c.entries.length = true ∧ c.Valid maxSlots) ∧ c.encode = bytes :=
  reads_ledger.decode_eq_ok

theorem length_statePut_le (state : ConnectionState) : state.put.length ≤ 8 + 1 + keyBytes + 8 := by
  cases state with
  | opened | closed => exact Nat.zero_le _
  | closing =>
    simp only [ConnectionState.put, List.flatten_cons, List.flatten_nil, List.length_append,
      List.length_nil, length_encodePermit, length_bigEndian]
    omega

theorem length_putCapacity_le (capacity : Option ReceiveCapacity) :
    (putCapacity capacity).length ≤ 1 + 16 := by
  cases capacity with
  | none => exact Nat.le_add_right _ _
  | some =>
    rw [putCapacity, List.length_cons, capacityBody, length_putCounts]

theorem eq_of_checkedWord {usizeMax n m : Nat} (h : checkedWord usizeMax n = some m) : n = m := by
  unfold checkedWord at h
  by_cases hfits : n ≤ usizeMax
  · rw [if_pos hfits] at h
    exact Option.some.inj h
  · rw [if_neg hfits] at h
    cases h

theorem eq_of_maximumBytes {usizeMax slots maximum : Nat}
    (h : maximumBytes usizeMax slots = some maximum) :
    slots * entryBytes + (2 + 32 + 16 + 1 + 16 + 8) + (8 + 1 + keyBytes + 8) = maximum := by
  obtain ⟨entries, hentries, h⟩ := Option.bind_eq_some_iff.mp h
  obtain ⟨header, hheader, h⟩ := Option.bind_eq_some_iff.mp h
  rw [← eq_of_checkedWord h, ← eq_of_checkedWord hheader, ← eq_of_checkedWord hentries]

/-- The declared maximum covers every checkpoint within the bound on slots. -/
theorem length_encode_le {usizeMax maxSlots maximum : Nat}
    (h : c.Valid maxSlots) (hmaximum : maximumBytes usizeMax maxSlots = some maximum) :
    c.encode.length ≤ maximum := by
  have hcount : c.entries.length ≤ maxSlots :=
    length_le_of_ordered (fun e he => (h.entries e he).key.bounded) h.ordered
  have hentries : c.entries.length * entryBytes ≤ maxSlots * entryBytes :=
    Nat.mul_le_mul_right _ hcount
  have hstate := length_statePut_le c.state
  have hcapacity := length_putCapacity_le c.receiveCapacity
  rw [← eq_of_maximumBytes hmaximum]
  simp only [encode, List.flatten_cons, List.flatten_nil, List.length_append, List.length_nil,
    List.length_cons, length_bigEndian, ConnectionRef.length_encode, length_entries]
  omega

end LedgerCheckpoint

end Windshare.Relay.Flow
