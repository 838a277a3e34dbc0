import Windshare.Relay.Codec.Checkpoint
import Windshare.Relay.Codec.Manifest
import Windshare.Relay.Codec.Record
import Windshare.Relay.Flow.Release

/-!
# What the relay persists

Share records, session snapshots, ledger checkpoints and responsibility manifests are each read
back as they were written, and nothing else is read.
-/

namespace Windshare.Relay

open Windshare.Library.Layout Flow Share

/-- Each codec is a bijection between the valid values and the byte strings it accepts, and no
encoding is longer than the maximum declared for it. A ledger checkpoint is also refused when
its entries cannot be allocated; a manifest has no declared maximum. -/
theorem persistence_codecs (derived : ShareDerivation) (maxSlots usizeMax : Nat)
    (allocates : Nat → Bool) (limits : ShareLimits) :
    (ExactCodec (Record.decode derived) (Record.Valid derived) Record.encode ∧
      ∀ record : Record, record.encode.length ≤ Record.maxRecordBytes) ∧
    (ExactCodec SessionSnapshot.decode SessionSnapshot.Valid SessionSnapshot.encode ∧
      ∀ s : SessionSnapshot, s.encode.length ≤ SessionSnapshot.maxSnapshotBytes) ∧
    (ExactCodec (LedgerCheckpoint.decode maxSlots allocates)
        (fun c => allocates c.entries.length = true ∧ c.Valid maxSlots) LedgerCheckpoint.encode ∧
      ∀ (c : LedgerCheckpoint) (maximum : Nat), c.Valid maxSlots →
        LedgerCheckpoint.maximumBytes usizeMax maxSlots = some maximum →
          c.encode.length ≤ maximum) ∧
    ExactCodec (CheckpointManifest.decode usizeMax limits)
      (CheckpointManifest.Valid usizeMax limits) CheckpointManifest.encode := by
  refine ⟨⟨?_, Record.length_encode_le⟩, ⟨?_, SessionSnapshot.length_encode_le⟩, ⟨?_, ?_⟩, ?_⟩
  · exact exactCodec_of_iff fun _ _ => Record.decode_eq_ok
  · exact exactCodec_of_iff fun _ _ => SessionSnapshot.decode_eq_ok
  · exact exactCodec_of_iff fun _ _ => LedgerCheckpoint.decode_eq_ok
  · exact fun c maximum h hmaximum => LedgerCheckpoint.length_encode_le h hmaximum
  · exact exactCodec_of_iff fun _ _ => CheckpointManifest.decode_eq_ok

/-- A ledger of two slots with one delivery that is being discarded. -/
def discardingLedger : LedgerCheckpoint where
  relay := ⟨1⟩
  destination := ⟨2, 1⟩
  entries := [{
    key := ⟨1, ⟨⟨⟨⟨1⟩, ⟨7⟩, ⟨1⟩, ⟨2, 1⟩⟩, ⟨9⟩, ⟨3, 1⟩, 1, ⟨5⟩, ⟨6⟩⟩, .toSender⟩⟩
    startup := .zero
    granted := ⟨2, 100⟩
    received := ⟨1, 50⟩
    submitted := .zero
    consumed := .zero
    state := .discarding 1000 }]
  state := .opened
  receiveCapacity := none

theorem discardingLedger_valid : discardingLedger.Valid 2 where
  relay := by decide
  destination := ⟨by decide, by decide⟩
  state := trivial
  count := by decide
  entries := by
    intro entry hentry
    obtain rfl := List.mem_singleton.mp hentry
    refine ⟨⟨by decide, by decide, ?_⟩, by decide⟩
    exact ⟨by decide, by decide, by decide, by decide, by decide, ⟨by decide, by decide⟩,
      by decide, ⟨by decide, by decide⟩, by decide⟩
  ordered := List.pairwise_singleton _ _

/-- A share of one sender and one receiver, whose host proves release. -/
def pairLimits : ShareLimits where
  businessConnections := 2
  handshakes := ⟨1, ⟨4, 1000000000⟩⟩
  sessions := 1
  retainedFlowsPerConnection := 2
  retirement := .physicalRelease
  delivery := Flow.Host.settledLimits

/-- It comes back from its bytes, which fit the maximum for two slots. -/
theorem discardingLedger_persists :
    LedgerCheckpoint.decode 2 (fun _ => true) discardingLedger.encode = .ok discardingLedger ∧
      discardingLedger.encode.length ≤ 690 := by
  obtain ⟨-, -, ⟨hexact, hmaximum⟩, -⟩ :=
    persistence_codecs (fun _ => 0) 2 u64Max (fun _ => true) pairLimits
  exact ⟨hexact.decode_encode _ ⟨rfl, discardingLedger_valid⟩,
    hmaximum _ _ discardingLedger_valid rfl⟩

end Windshare.Relay
