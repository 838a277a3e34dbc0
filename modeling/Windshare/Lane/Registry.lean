import Windshare.Lane.Frames
import Windshare.Library.FiniteMap

/-!
# The lane registry

The model of `protocolsession/lane_registry.go`. A registry issues grants for lanes, admits
candidates that prove a grant, and recycles lanes. `AdmitCandidate` calls the settlement
gate outside the lock, so that it is two operations here: one authenticates the candidate,
the other is the critical section after the gate answered. Reading the clock is an argument
of the operation.
-/

namespace Windshare.Lane

open Windshare.Library Windshare.Session

/-- Nanoseconds; zero is `time.Time{}`. -/
abbrev Time := Nat

def laneGrantTTL : Time := 30 * 1000000000
def laneGrantTombstoneTTL : Time := 30 * 1000000000
def defaultMaxLogicalLanes : Int := 16
def defaultMaxPendingGrants : Int := 64

def maxUint32 : UInt32 := 4294967295

structure LaneGrantState where
  grant : LaneGrant
  expiresAt : Time
  consumedAt : Time
deriving DecidableEq

/-- The end of a grant's retention in `cleanup`. -/
def LaneGrantState.retainedUntil (state : LaneGrantState) : Time :=
  if state.consumedAt ≠ 0 then state.consumedAt + laneGrantTombstoneTTL
  else state.expiresAt + laneGrantTombstoneTTL

structure LogicalLaneState where
  lastEpoch : UInt32
  active : Bool
deriving DecidableEq

def LogicalLaneState.zero : LogicalLaneState := ⟨0, false⟩

/-- `LaneRegistryConfig`; `receiverToSender` is a valid key of its direction or `none`. -/
structure LaneRegistryConfig where
  shareInstance : Identity
  protocolSessionID : Identity
  receiverToSender : Option Bytes
  senderSigningKey : Bytes
  initialLaneID : UInt32
  maxLogicalLanes : Int
  maxPendingGrants : Int

/-- `LaneRegistry`. The channel `settlementDone` is closed when `settlementCount` is zero. -/
structure LaneRegistry where
  share : Identity
  session : Identity
  receiverToSender : Option Bytes
  senderSigningKey : Bytes
  maxLogical : Int
  maxPending : Int
  nextEpoch : UInt32
  nextLaneID : UInt32
  activeCount : Int
  stopping : Bool
  closing : Bool
  settlementCount : Int
  lanes : FiniteMap UInt32 LogicalLaneState
  grants : FiniteMap Identity LaneGrantState

def newLaneRegistry (config : LaneRegistryConfig) : Except LaneError LaneRegistry :=
  if config.shareInstance.isZero ∨ config.protocolSessionID.isZero ∨
      config.receiverToSender = none ∨ config.senderSigningKey.length ≠ privateKeyBytes ∨
      config.initialLaneID = 0 then .error .input
  else
    let maxLogical :=
      if config.maxLogicalLanes = 0 then defaultMaxLogicalLanes else config.maxLogicalLanes
    let maxPending :=
      if config.maxPendingGrants = 0 then defaultMaxPendingGrants else config.maxPendingGrants
    if maxLogical < 1 ∨ maxPending < 1 then .error .input
    else
      .ok {
        share := config.shareInstance
        session := config.protocolSessionID
        receiverToSender := config.receiverToSender
        senderSigningKey := config.senderSigningKey
        maxLogical, maxPending
        nextEpoch := 0
        nextLaneID := 1
        activeCount := 1
        stopping := false
        closing := false
        settlementCount := 0
        lanes := FiniteMap.empty.insert config.initialLaneID ⟨0, true⟩
        grants := .empty }

inductive LaneAdmissionDisposition where
  | accepted
  | rejected
  | silentClose
deriving DecidableEq, Repr

/-- `LaneAdmission`; a frame that is not authenticated has no hello. -/
structure LaneAdmission where
  disposition : LaneAdmissionDisposition
  settlementBegan : Bool
  hello : Option LaneHello
  rejection : Option LaneRejection
  response : Bytes
deriving DecidableEq

/-- The admission without a decision. -/
def silentClose (hello : Option LaneHello) : LaneAdmission :=
  ⟨.silentClose, false, hello, none, []⟩

namespace LaneRegistry

variable (r : LaneRegistry)

/-! ### Grants -/

def reclaimUnclaimedLane (laneID : UInt32) : LaneRegistry :=
  match r.lanes.get? laneID with
  | none => r
  | some lane =>
    if lane.active ∨ lane.lastEpoch ≠ 0 then r
    else if r.grants.entries.any (·.2.grant.laneID = laneID) then r
    else { r with lanes := r.lanes.erase laneID }

/-- Forget a grant, and its lane if nothing else claims it. -/
def forget (operationID : Identity) (laneID : UInt32) : LaneRegistry :=
  { r with grants := r.grants.erase operationID }.reclaimUnclaimedLane laneID

def cleanupAlong (now : Time) (listing : List (Identity × LaneGrantState)) : LaneRegistry :=
  listing.foldl (fun r (operationID, state) =>
    if now < state.retainedUntil then r
    else r.forget operationID state.grant.laneID) r

def cleanup (now : Time) : LaneRegistry := r.cleanupAlong now r.grants.entries

/-- A usable grant reserves the slot of its lane. -/
def reserved (now : Time) (laneID : UInt32) (lane : LogicalLaneState) : Bool :=
  r.grants.entries.any fun (_, state) =>
    state.grant.laneID = laneID ∧ state.consumedAt = 0 ∧ state.grant.laneEpoch > lane.lastEpoch ∧
      now < state.expiresAt

/-- `availableLaneID`, zero if there is none. -/
def availableLaneID (now : Time) : UInt32 :=
  r.lanes.entries.foldl (fun available (laneID, lane) =>
    if lane.active ∨ available ≠ 0 ∧ laneID ≥ available then available
    else if r.reserved now laneID lane then available
    else laneID) 0

/-- The loop of `allocateLaneID`, at most `fuel` times. -/
def allocateLaneIDWithin : (fuel : Nat) → LaneRegistry → LaneRegistry × Except LaneError UInt32
  | 0, r => (r, .error .grantBudget)
  | fuel + 1, r =>
    let candidate := r.nextLaneID
    let next := r.nextLaneID + 1
    let r := { r with nextLaneID := if next = 0 then 1 else next }
    if candidate ≠ 0 ∧ r.lanes.get? candidate = none then (r, .ok candidate)
    else allocateLaneIDWithin fuel r

def allocateLaneID : LaneRegistry × Except LaneError UInt32 :=
  allocateLaneIDWithin maxUint32.toNat r

def grantLaneID (requested : UInt32) (now : Time) : LaneRegistry × Except LaneError UInt32 :=
  if requested ≠ 0 then
    if r.lanes.get? requested = none then (r, .error .unknown) else (r, .ok requested)
  else
    let available := r.availableLaneID now
    if available ≠ 0 then (r, .ok available)
    else if r.lanes.size ≥ r.maxLogical then (r, .error .grantBudget)
    else
      match r.allocateLaneID with
      | (r, .error e) => (r, .error e)
      | (r, .ok laneID) => ({ r with lanes := r.lanes.insert laneID .zero }, .ok laneID)

def issueGrant (requestedLaneID : UInt32) (operationID : Identity) (attachNonce : Bytes)
    (now : Time) : LaneRegistry × Except LaneError LaneGrant :=
  if h : operationID.isZero ∨ attachNonce.length ≠ laneAttachNonceBytes ∨
      laneNonzero attachNonce = false then (r, .error .input)
  else if r.stopping then (r, .error .stopping)
  else
    let r := r.cleanup now
    if r.grants.size ≥ r.maxPending then (r, .error .grantBudget)
    else if r.grants.get? operationID ≠ none then (r, .error .input)
    else if r.nextEpoch = maxUint32 then (r, .error .epoch)
    else
      match r.grantLaneID requestedLaneID now with
      | (r, .error e) => (r, .error e)
      | (r, .ok laneID) =>
        let grant : LaneGrant := {
          laneID
          laneEpoch := r.nextEpoch + 1
          operationID
          attachNonce := ⟨attachNonce, by
            rw [not_or, not_or, Decidable.not_not] at h
            exact h.2.1⟩ }
        ({ r with
          nextEpoch := r.nextEpoch + 1
          grants := r.grants.insert operationID ⟨grant, now + laneGrantTTL, 0⟩ }, .ok grant)

def revokeGrant (grant : LaneGrant) : LaneRegistry × Bool :=
  if grant.operationID.isZero ∨ grant.laneID = 0 ∨ grant.laneEpoch = 0 then (r, false)
  else
    match r.grants.get? grant.operationID with
    | none => (r, false)
    | some state =>
      if state.grant ≠ grant ∨ state.consumedAt ≠ 0 then (r, false)
      else (r.forget grant.operationID grant.laneID, true)

/-! ### Candidates -/

/-- `AdmitCandidate` up to the call of the gate. -/
def authenticateCandidate (c : Crypto) (encoded : Bytes) :
    LaneRegistry × Except (LaneAdmission × LaneError) LaneHello :=
  match c.parseLaneHello encoded r.receiverToSender with
  | .error e => (r, .error (silentClose none, e))
  | .ok hello =>
    if r.closing then (r, .error (silentClose (some hello), .stopping))
    else ({ r with settlementCount := r.settlementCount + 1 }, .ok hello)

def finishSettlement : LaneRegistry := { r with settlementCount := r.settlementCount - 1 }

/-- `AdmitCandidate` after the gate refused. -/
def unclaimedCandidate (hello : LaneHello) : LaneRegistry × LaneAdmission × LaneError :=
  (r.finishSettlement, silentClose (some hello), .settlementUnclaimed)

/-- Why a candidate that was claimed is rejected. -/
def rejectionOf (hello : LaneHello) (now : Time) : Except LaneRejection LaneGrantState :=
  if hello.share ≠ r.share ∨ hello.session ≠ r.session then .error ⟨.unknownSession, 0⟩
  else
    match r.grants.get? hello.operationID with
    | none => .error ⟨.grantConsumed, 0⟩
    | some state =>
      let grant := state.grant
      if grant.laneID ≠ hello.laneID ∨ grant.laneEpoch ≠ hello.laneEpoch ∨
          grant.attachNonce ≠ hello.attachNonce then .error ⟨.grantMismatch, 0⟩
      else if r.stopping then .error ⟨.stopping, 0⟩
      else if state.consumedAt ≠ 0 then .error ⟨.grantConsumed, 0⟩
      else if ¬ now < state.expiresAt then .error ⟨.grantExpired, 0⟩
      else
        let lane := (r.lanes.get? grant.laneID).getD .zero
        if grant.laneEpoch ≤ lane.lastEpoch then .error ⟨.staleEpoch, 0⟩
        else if lane.active ∨ r.activeCount ≥ r.maxLogical then
          .error ⟨.admissionLimited, 1000 * millisecond⟩
        else .ok state

/-- The writes of an accepted candidate. -/
def occupy (hello : LaneHello) (state : LaneGrantState) (now : Time) : LaneRegistry :=
  { r with
    grants := r.grants.insert hello.operationID { state with consumedAt := now }
    lanes := r.lanes.insert state.grant.laneID ⟨state.grant.laneEpoch, true⟩
    activeCount := r.activeCount + 1 }

/-- `AdmitCandidate` after the gate claimed the settlement. -/
def settleCandidate (c : Crypto) (hello : LaneHello) (senderNonce : Bytes) (now : Time) :
    LaneRegistry × LaneAdmission × Option LaneError :=
  let r := r.cleanup now
  let identity : LaneAdmission := ⟨.silentClose, true, some hello, none, []⟩
  match r.rejectionOf hello now with
  | .error rejection =>
    match c.newLaneReject hello rejection r.senderSigningKey with
    | .ok response =>
      (r.finishSettlement, ⟨.rejected, true, some hello, some rejection, response⟩, none)
    | .error e =>
      (r.finishSettlement, ⟨.rejected, true, some hello, some rejection, []⟩, some e)
  | .ok state =>
    match c.newLaneAccept hello senderNonce r.senderSigningKey with
    | .error e => (r.finishSettlement, identity, some e)
    | .ok response =>
      ((r.occupy hello state now).finishSettlement,
        ⟨.accepted, true, some hello, none, response⟩, none)

/-! ### Occupants and shutdown -/

def release (laneID laneEpoch : UInt32) : LaneRegistry × Bool :=
  match r.lanes.get? laneID with
  | none => (r, false)
  | some lane =>
    if lane.active = false ∨ lane.lastEpoch ≠ laneEpoch then (r, false)
    else
      ({ r with
        lanes := r.lanes.insert laneID { lane with active := false }
        activeCount := r.activeCount - 1 }, true)

def stop : LaneRegistry := { r with stopping := true }

/-- `Close` up to its wait for the settlements. -/
def beginClose : LaneRegistry := { r with stopping := true, closing := true }

/-- `Close` after its wait. -/
def finishClose : LaneRegistry :=
  { r with
    grants := .empty
    lanes := .empty
    activeCount := 0
    senderSigningKey := []
    receiverToSender := none }

end LaneRegistry

end Windshare.Lane
