import Windshare.Library.Layout
import Windshare.Relay.Flow.Ledger

/-!
# Fields of the persisted layouts

The identities and counters that records, snapshots and checkpoints are made of. Each has the
values its type in the source can hold, the bytes it is stored as, and a reader of exactly
those bytes. Errors are those of the layout that reads the field.
-/

namespace Windshare.Relay

open Windshare.Library Layout

variable {ε α : Type}

namespace Codec

/-- A value of an integer type of `width` bytes. -/
def Fits (width value : Nat) : Prop := value < 256 ^ width

/-- A value that `nonzero_identifier!` accepts, or a `NonZeroU64`. -/
structure Nonzero (width value : Nat) : Prop where
  pos : 0 < value
  fits : Fits width value

instance (width value : Nat) : Decidable (Fits width value) :=
  inferInstanceAs (Decidable (value < 256 ^ width))

instance (width value : Nat) : Decidable (Nonzero width value) :=
  decidable_of_iff (0 < value ∧ Fits width value) ⟨fun h => ⟨h.1, h.2⟩, fun h => ⟨h.pos, h.fits⟩⟩

/-! ### Identifiers -/

/-- `nonzero_identifier!`: any value except all zeros. -/
def identifier (width : Nat) (new : Nat → α) (short invalid : ε) : LayoutReader ε α :=
  convert (number width short) (fun v => if v = 0 then none else some (new v)) invalid

theorem reads_identifier {width : Nat} {new : Nat → α} {short invalid : ε} (value : α → Nat)
    (hnew : ∀ v, value (new v) = v := by intro _; rfl)
    (hvalue : ∀ a, new (value a) = a := by intro _; rfl) :
    Reads (identifier width new short invalid) (fun a => Nonzero width (value a))
      (fun a => bigEndian width (value a)) := by
  refine (reads_number width short).convert (fun a => ?_) (fun v a _ hconvert => ?_)
  · constructor
    · intro h
      exact ⟨value a, h.fits, by rw [if_neg (Nat.ne_of_gt h.pos), hvalue]⟩
    · rintro ⟨v, hfits, hconvert⟩
      by_cases hzero : v = 0
      · rw [if_pos hzero] at hconvert
        cases hconvert
      · rw [if_neg hzero] at hconvert
        obtain rfl := Option.some.inj hconvert
        rw [hnew]
        exact ⟨Nat.pos_of_ne_zero hzero, hfits⟩
  · by_cases hzero : v = 0
    · rw [if_pos hzero] at hconvert
      cases hconvert
    · rw [if_neg hzero] at hconvert
      obtain rfl := Option.some.inj hconvert
      rw [hnew]

/-- A `NonZeroU64`. -/
def nonzero (short invalid : ε) : LayoutReader ε Nat := identifier 8 id short invalid

theorem reads_nonzero (short invalid : ε) :
    Reads (nonzero short invalid) (Nonzero 8) (bigEndian 8) :=
  reads_identifier id

end Codec

/-! ### Connections -/

namespace ConnectionRef

open Codec

/-- A `ConnectionRef`: both halves are `NonZeroU64`. -/
structure Valid (c : ConnectionRef) : Prop where
  id : Nonzero 8 c.id
  generation : Nonzero 8 c.generation

def encode (c : ConnectionRef) : List UInt8 :=
  bigEndian 8 c.id ++ bigEndian 8 c.generation

/-- `ConnectionRef::decode`: a zero slot or generation is no lifetime. -/
def decode (bytes : List UInt8) : Option ConnectionRef :=
  let id := ofBigEndian (bytes.take 8)
  let generation := ofBigEndian (bytes.drop 8)
  if id = 0 ∨ generation = 0 then none else some ⟨id, generation⟩

@[simp] theorem length_encode (c : ConnectionRef) : c.encode.length = 16 := by
  simp [encode]

theorem decode_eq_some {bytes : List UInt8} (hlength : bytes.length = 16) {c : ConnectionRef} :
    decode bytes = some c ↔ c.Valid ∧ c.encode = bytes := by
  have hhalves := ofBigEndian_take_drop (n := 8) (m := 8) (p := c.id) (q := c.generation) hlength
  unfold decode
  constructor
  · intro h
    by_cases hzero : ofBigEndian (bytes.take 8) = 0 ∨ ofBigEndian (bytes.drop 8) = 0
    · rw [if_pos hzero] at h
      cases h
    · rw [if_neg hzero] at h
      obtain rfl := Option.some.inj h
      obtain ⟨hid, hgeneration⟩ := not_or.mp hzero
      obtain ⟨hidFits, hgenerationFits, hencode⟩ := hhalves.mp ⟨rfl, rfl⟩
      exact ⟨⟨⟨Nat.pos_of_ne_zero hid, hidFits⟩,
        ⟨Nat.pos_of_ne_zero hgeneration, hgenerationFits⟩⟩, hencode⟩
  · rintro ⟨hvalid, hencode⟩
    obtain ⟨hid, hgeneration⟩ := hhalves.mpr ⟨hvalid.id.fits, hvalid.generation.fits, hencode⟩
    rw [hid, hgeneration]
    exact if_neg (not_or.mpr ⟨Nat.ne_of_gt hvalid.id.pos, Nat.ne_of_gt hvalid.generation.pos⟩)

end ConnectionRef

namespace Codec

/-- Read a connection: its bytes first, then what they mean. -/
def connection (short invalid : ε) : LayoutReader ε ConnectionRef :=
  convert (field 16 short) ConnectionRef.decode invalid

theorem reads_connection (short invalid : ε) :
    Reads (connection short invalid) ConnectionRef.Valid ConnectionRef.encode :=
  reads_block (fun c _ => c.length_encode) (fun _ _ h => ConnectionRef.decode_eq_some h)

/-! ### Counts -/

/-- Two big-endian counters, frames first. -/
def putCounts (c : Flow.Counts) : List UInt8 :=
  [bigEndian 8 c.frames.toNat, bigEndian 8 c.encodedBytes.toNat].flatten

def counts (short : ε) : LayoutReader ε Flow.Counts := do
  let frames ← number 8 short
  let encodedBytes ← number 8 short
  return ⟨UInt64.ofNat frames, UInt64.ofNat encodedBytes⟩

theorem toNat_fits (v : UInt64) : Fits 8 v.toNat := v.toNat_lt

theorem reads_counts (short : ε) : Reads (counts short) (fun _ => True) putCounts := by
  apply Reads.of_nothing
  apply Reads.bind (fun c : Flow.Counts => c.frames.toNat) (reads_number 8 short)
    (fun c _ _ => toNat_fits c.frames)
  intro frames hframes
  apply Reads.bind (fun c : Flow.Counts => c.encodedBytes.toNat) (reads_number 8 short)
    (fun c _ _ => toNat_fits c.encodedBytes)
  intro encodedBytes hencoded
  apply reads_pure rfl
  intro c
  constructor
  · rintro ⟨⟨rfl, rfl, -⟩, -⟩
    rw [UInt64.ofNat_toNat, UInt64.ofNat_toNat]
  · rintro rfl
    exact ⟨⟨UInt64.toNat_ofNat_of_lt hencoded, UInt64.toNat_ofNat_of_lt hframes, trivial⟩, trivial⟩

theorem reads_positive (short refused : ε) : Reads (convert (counts short) (fun c =>
      if h : c.frames ≠ 0 ∧ c.encodedBytes ≠ 0 then some ⟨c, h⟩ else none) refused)
      (fun _ => True) (fun capacity : Flow.ReceiveCapacity => putCounts capacity.counts) := by
  apply (reads_counts short).convert
  · intro capacity
    exact ⟨fun _ => ⟨capacity.counts, trivial, dif_pos capacity.positive⟩, fun _ => trivial⟩
  · intro c capacity _ hdeclared
    by_cases hpositive : c.frames ≠ 0 ∧ c.encodedBytes ≠ 0
    · rw [dif_pos hpositive] at hdeclared
      rw [← Option.some.inj hdeclared]
    · rw [dif_neg hpositive] at hdeclared
      cases hdeclared

end Codec

end Windshare.Relay
