import Windshare.Relay.Identity

/-!
# Share records

The only facts a host persists for a share: a committed route and its owner, a route in grace,
a STOP that still owes its cleanup, or the permanent evidence of a STOP.
-/

namespace Windshare.Relay

/-- Identifier of a STOP, chosen by the sender. -/
structure StopId where
  value : Nat
deriving DecidableEq, Repr

/-- Prefix of the hash of the sender's public key. -/
structure PkHash where
  value : Nat
deriving DecidableEq, Repr

structure DescriptorDigest where
  value : Nat
deriving DecidableEq, Repr

structure ResumeTokenHash where
  value : Nat
deriving DecidableEq, Repr

/-- `ShareRoute`: a share identity and the key hash it is derived from. -/
structure ShareRoute where
  shareId : ShareId
  pkHash : PkHash
deriving DecidableEq, Repr

/-- `Registration`, the facts that a registration publishes. -/
structure Registration where
  route : ShareRoute
  shareInstance : ShareInstance
  descriptorDigest : DescriptorDigest
  resumeTokenHash : ResumeTokenHash
deriving DecidableEq, Repr

/-- `Attribution`, the service account of a registration. -/
inductive Attribution where
  | anonymous
  | credential (principal credential : Nat)
deriving DecidableEq, Repr

/-- `OperationId`, minted by the lifecycle and never by a callback. -/
structure OperationId where
  relay : RelayIdentity
  share : ShareId
  incarnation : Incarnation
  connection : ConnectionRef
  sequence : Nat
deriving DecidableEq, Repr

structure PublishedRoute where
  relay : RelayIdentity
  registration : Registration
  attribution : Attribution
deriving DecidableEq, Repr

def PublishedRoute.ownership (route : PublishedRoute) (epoch : OwnershipEpoch)
    (connection : ConnectionRef) : OwnershipId :=
  ⟨route.relay, route.registration.route.shareId, epoch, connection⟩

/-- `OwnedRoute`: a committed route and the ownership entitled to serve it. -/
structure OwnedRoute where
  route : PublishedRoute
  epoch : OwnershipEpoch
  owner : ConnectionRef
deriving DecidableEq, Repr

def OwnedRoute.ownership (owned : OwnedRoute) : OwnershipId :=
  owned.route.ownership owned.epoch owned.owner

/-- `GraceRoute`: a route that no connection serves, with the ownership it lost. -/
structure GraceRoute where
  route : PublishedRoute
  deadline : UnixMillis
  epoch : OwnershipEpoch
  owner : ConnectionRef
deriving DecidableEq, Repr

namespace GraceRoute

def new (route : PublishedRoute) (lost : OwnershipId) (deadline : UnixMillis) : GraceRoute :=
  ⟨route, deadline, lost.epoch, lost.connection⟩

def lost (grace : GraceRoute) : OwnershipId :=
  grace.route.ownership grace.epoch grace.owner

end GraceRoute

structure StoppedShare where
  relay : RelayIdentity
  route : ShareRoute
  shareInstance : ShareInstance
  stopId : StopId
deriving DecidableEq, Repr

/-- `StopCleanup`, the authority that a STOP fences. -/
inductive StopCleanup where
  | none
  | reservation (id : OperationId)
  | owner (connection : ConnectionRef)
deriving DecidableEq, Repr

inductive StopOrigin where
  | sender
  | administrator
deriving DecidableEq, Repr

/-- `PendingStop`. The relay is that of the operation. -/
structure PendingStop where
  origin : StopOrigin
  id : OperationId
  route : ShareRoute
  shareInstance : ShareInstance
  stopId : StopId
  cleanup : StopCleanup
deriving DecidableEq, Repr

namespace PendingStop

def new (id : OperationId) (stopped : StoppedShare) (cleanup : StopCleanup) : PendingStop where
  origin := .sender
  id := id
  route := stopped.route
  shareInstance := stopped.shareInstance
  stopId := stopped.stopId
  cleanup := cleanup

def stopped (pending : PendingStop) : StoppedShare :=
  ⟨pending.id.relay, pending.route, pending.shareInstance, pending.stopId⟩

end PendingStop

/-- `Record`. The absence of a record is a vacant share. -/
inductive Record where
  | published (owned : OwnedRoute)
  | grace (grace : GraceRoute)
  | stopping (pending : PendingStop)
  | stopped (stopped : StoppedShare)
deriving DecidableEq, Repr

namespace Record

def relay : Record → RelayIdentity
  | .published owned => owned.route.relay
  | .grace g => g.route.relay
  | .stopping pending => pending.id.relay
  | .stopped s => s.relay

def share : Record → ShareId
  | .published owned => owned.route.registration.route.shareId
  | .grace g => g.route.registration.route.shareId
  | .stopping pending => pending.id.share
  | .stopped s => s.route.shareId

end Record

end Windshare.Relay
