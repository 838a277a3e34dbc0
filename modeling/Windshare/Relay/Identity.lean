import Mathlib.Algebra.Group.Nat.Defs

/-!
# Identities of the relay

Fixed-width identities are compared and never computed with, so an identity is its
big-endian value. Counters that the source keeps in a `NonZeroU64` are natural numbers.
A permit is the routing capability of one direction of one session.
-/

namespace Windshare.Relay

structure ShareId where
  value : Nat
deriving DecidableEq, Repr

structure ShareInstance where
  value : Nat
deriving DecidableEq, Repr

structure RelayIdentity where
  value : Nat
deriving DecidableEq, Repr

/-- The wire identity of a session, chosen by the host. -/
structure RelaySessionId where
  value : Nat
deriving DecidableEq, Repr

structure Incarnation where
  value : Nat
deriving DecidableEq, Repr

/-- One lifetime of a host connection slot. -/
structure ConnectionRef where
  id : Nat
  generation : Nat
deriving DecidableEq, Repr

/-- Position of an ownership among the successive owners of a route. -/
structure OwnershipEpoch where
  value : Nat
deriving DecidableEq, Repr

/-- One connection's ownership of a published route. -/
structure OwnershipId where
  relay : RelayIdentity
  share : ShareId
  epoch : OwnershipEpoch
  connection : ConnectionRef
deriving DecidableEq, Repr

/-- One receiver admission with the sender ownership it joined. -/
structure SessionKey where
  owner : OwnershipId
  admittedBy : Incarnation
  receiver : ConnectionRef
  admissionSequence : Nat
  wireId : RelaySessionId
  instance' : ShareInstance
deriving DecidableEq, Repr

namespace SessionKey

def relay (key : SessionKey) : RelayIdentity := key.owner.relay

def sender (key : SessionKey) : ConnectionRef := key.owner.connection

end SessionKey

inductive Direction where
  | toSender
  | toReceiver
deriving DecidableEq, Repr

/-- `ForwardPermit`: a queued routing capability, valid or not. -/
structure ForwardPermit where
  session : SessionKey
  direction : Direction
deriving DecidableEq, Repr

namespace ForwardPermit

def source (permit : ForwardPermit) : ConnectionRef :=
  match permit.direction with
  | .toSender => permit.session.receiver
  | .toReceiver => permit.session.sender

def destination (permit : ForwardPermit) : ConnectionRef :=
  match permit.direction with
  | .toSender => permit.session.sender
  | .toReceiver => permit.session.receiver

end ForwardPermit

/-! ### Time -/

/-- Milliseconds since the Unix epoch. -/
abbrev UnixMillis := Nat

def u64Max : Nat := 2 ^ 64 - 1

def UnixMillis.saturatingAdd (at' : UnixMillis) (millis : Nat) : UnixMillis :=
  min (at' + min millis u64Max) u64Max

end Windshare.Relay
