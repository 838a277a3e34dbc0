import Mathlib.Data.List.Chain
import Windshare.Relay.Share.Policy

/-!
# The responsibility manifest

The admissions a share answers for: each connection generation with what it may still owe.
`validate` is the check that both a decoded manifest and a restore must pass.
-/

namespace Windshare.Relay

/-- The derived order: by slot, then by generation. -/
def ConnectionRef.before (a b : ConnectionRef) : Prop :=
  a.id < b.id ∨ a.id = b.id ∧ a.generation < b.generation

instance : DecidableRel ConnectionRef.before :=
  fun a b => inferInstanceAs (Decidable (a.id < b.id ∨ a.id = b.id ∧ a.generation < b.generation))

namespace Share

open Windshare.Library Windshare.Relay.Flow

inductive GenerationState where
  | connected
  | detached (state : Detached)
  | unavailable (state : Detached)
deriving DecidableEq, Repr

inductive ReservationKind where
  | control (deadline : UnixMillis)
  | business (bound : Counts) (state : GenerationState)
deriving DecidableEq, Repr

structure Reservation where
  connection : ConnectionRef
  kind : ReservationKind
deriving DecidableEq, Repr

structure CheckpointManifest where
  identity : Identity
  lastSession : Nat
  attempts : AttemptState
  reservations : List Reservation
deriving DecidableEq, Repr

/-! ### Validation -/

/-- The running totals of `validate`. -/
structure Tally where
  controls : Nat
  retired : Nat
  residual : Counts
deriving DecidableEq, Repr

/-- What the state of a business generation adds. -/
def Tally.addState (tally : Tally) (limits : ShareLimits) (bound : Counts) (state : Detached) :
    Except Error Tally :=
  match state with
  | .riskRetained _ =>
    match tally.residual.checkedAdd bound with
    | none => .error .invalidCheckpoint
    | some residual => .ok { tally with retired := tally.retired + 1, residual }
  | .released => do
      refuse (bound ≠ .zero) .invalidCheckpoint
      return tally
  | _ => do
      refuse (bound ≠ limits.delivery.total) .invalidCheckpoint
      return tally

/-- One turn of the loop of `validate`. -/
def Tally.add (limits : ShareLimits) (tally : Tally) (entry : Reservation) :
    Except Error Tally := do
  match entry.kind with
  | .control _ => return { tally with controls := tally.controls + 1 }
  | .business bound state =>
    refuse (¬ limits.delivery.total.covers bound) .invalidCheckpoint
    match state with
    | .connected =>
      refuse (bound ≠ limits.delivery.total) .invalidCheckpoint
      return tally
    | .detached detached =>
      detached.validate limits.retirement
      tally.addState limits bound detached
    | .unavailable detached =>
      detached.validate limits.retirement
      tally.addState limits bound detached

def Tally.check (limits : ShareLimits) (count : Nat) (tally : Tally) : Except Error Unit := do
  refuse (tally.controls > limits.handshakes.concurrent ∨
    tally.retired > limits.retirement.generations ∨
    count - tally.retired - tally.controls > limits.businessConnections) .invalidCheckpoint
  match limits.retirement with
  | .physicalRelease => return ()
  | .bounded _ _ _ residual => refuse (¬ residual.covers tally.residual) .invalidCheckpoint

namespace CheckpointManifest

def validate (usizeMax : Nat) (limits : ShareLimits) (manifest : CheckpointManifest) :
    Except Error Unit := do
  let _ ← (AttemptLimiter.restore limits.handshakes.attempts manifest.attempts).mapError
    fun _ => Error.invalidCheckpoint
  let limit ← limits.generationLimit usizeMax
  refuse (manifest.reservations.length > limit ∨
    ¬ manifest.reservations.IsChain (fun a b => a.connection.before b.connection))
    .invalidCheckpoint
  let tally ← manifest.reservations.foldlM (Tally.add limits) ⟨0, 0, .zero⟩
  tally.check limits manifest.reservations.length

end CheckpointManifest

end Share

end Windshare.Relay
