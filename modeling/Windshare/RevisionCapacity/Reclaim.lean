import Windshare.RevisionCapacity.Coordinator

/-!
# Idle candidates and reclaim claims

The model of `reclaim.go` and of the closing of registrations in `registration.go`. A store
publishes an idle stable handle as a candidate. An admission that needs a unit claims the
oldest candidate, and its claim ends in one of the ways that the target reports.
-/

namespace Windshare.RevisionCapacity

open Windshare.Library

/-- `IdleCandidate`; the charge of its stable handle is a heap reference. -/
structure IdleCandidate where
  token : CandidateToken
  revisionID : RevisionID
  recoveryUntil : Time
  lifecycleGeneration : UInt64
  stableHandle : Option Ref

/-- `reclaimResultKind`; `none` is a result that no constructor function built. -/
inductive ReclaimResultKind where
  | none
  | declined
  | completed
  | uncertain
deriving DecidableEq, Repr

structure ReclaimResult where
  claim : Option Ref
  kind : ReclaimResultKind
  diagnostic : Option Text

/-- A call of `ReclaimTarget.ReclaimIdle` returns or panics. -/
inductive TargetCall where
  | returned (result : ReclaimResult)
  | panicked (message : Text)

/-- `invokeReclaimTarget`: a panic leaves the ownership uncertain. -/
def invokeReclaimTarget (claim : Ref) : TargetCall → ReclaimResult
  | .returned result => result
  | .panicked message => ⟨some claim, .uncertain, some message⟩

inductive ReclaimFinish where
  | declined
  | completed
  | uncertain (cause : ReclaimCause)

structure PendingReclaim where
  candidate : Ref
  claim : Ref
  crossStoreShareReservation : Bool
deriving DecidableEq

/-- The target proved that the victim of the claim is closed. -/
def ReclaimResult.Completes (result : ReclaimResult) (p : PendingReclaim) : Prop :=
  result.claim = some p.claim ∧ result.kind = .completed

/-- The target kept the victim of the claim. -/
def ReclaimResult.Declines (result : ReclaimResult) (p : PendingReclaim) : Prop :=
  result.claim = some p.claim ∧ result.kind = .declined

namespace Coordinator

variable (c : Coordinator)

/-! ### Candidates -/

def reclaimables (s : Ref) : List Counter := [.reclaimable .process, .reclaimable (.store s)]

/-- Delete a candidate from both maps. -/
def unlist (k : Ref) : Coordinator :=
  { c with
    candidates := c.candidates.erase (c.candidate k).key
    byCharge := c.byCharge.erase (c.candidate k).charge }

/-- The candidate counts as reclaimable, as long as it is listed. -/
def reclaimable (k : Ref) : Bool :=
  (c.candidate k).claim = none ∧ (c.candidate k).withdrawn = false ∧
    (c.charge (c.candidate k).charge).status = .active

def removeAvailableCandidate (k : Ref) : Coordinator :=
  (c.unlist k).down (if c.reclaimable k then reclaimables (c.candidate k).store else [])

/-- Add a candidate to both maps. -/
def publish (candidate : CandidateState) : Coordinator :=
  { c with
    candidateStates := c.candidateStates.alloc candidate
    candidates := c.candidates.insert candidate.key c.candidateStates.size
    byCharge := c.byCharge.insert candidate.charge c.candidateStates.size }

def publishIdle (s : Ref) (idle : IdleCandidate) : Coordinator × Except CapacityError Unit :=
  if c.storeStates.size ≤ s then (c, .error .missingRegistration)
  else
    match idle.stableHandle with
    | none => (c, .error .incompleteCandidate)
    | some i =>
      if idle.token = [] ∨ idle.revisionID = [] ∨ idle.recoveryUntil = 0 ∨
          idle.lifecycleGeneration = 0 then (c, .error .incompleteCandidate)
      else if c.closed then (c, .error .coordinatorClosed)
      else if (c.store s).closing ∨ (c.store s).closed then (c, .error .registrationClosing)
      else if c.chargeStates.size ≤ i ∨ (c.charge i).store ≠ s ∨
          (c.charge i).kind ≠ .stableHandle ∨ (c.charge i).status ≠ .active then
        (c, .error .notActiveStableHandle)
      else
        match c.candidates.get? ⟨(c.store s).storeID, idle.token⟩ with
        | some k =>
          if (c.candidate k).charge = i ∧ (c.candidate k).revisionID = idle.revisionID ∧
              (c.candidate k).recoveryUntil = idle.recoveryUntil ∧
              (c.candidate k).lifecycleGeneration = idle.lifecycleGeneration ∧
              (c.candidate k).withdrawn = false then (c, .ok ())
          else (c, .error .tokenReused)
        | none =>
          if (c.byCharge.get? i).isSome then (c, .error .alreadyIdle)
          else
            ((c.publish {
              key := ⟨(c.store s).storeID, idle.token⟩
              store := s
              token := idle.token
              revisionID := idle.revisionID
              recoveryUntil := idle.recoveryUntil
              lifecycleGeneration := idle.lifecycleGeneration
              charge := i
              claim := none
              withdrawn := false }).up (reclaimables s), .ok ())

/-- Withdraw a candidate: a claimed one keeps its entry until its claim ends. -/
def withdraw (k : Ref) : Coordinator :=
  if (c.candidate k).claim = none then c.removeAvailableCandidate k
  else c.modifyCandidate k (·.withdraw)

def withdrawIdle (s : Ref) (token : CandidateToken) : Coordinator × Bool :=
  if c.storeStates.size ≤ s ∨ token = [] then (c, false)
  else
    match c.candidates.get? ⟨(c.store s).storeID, token⟩ with
    | none => (c, false)
    | some k => (c.withdraw k, true)

def candidateLess (left right : CandidateState) : Bool :=
  if left.recoveryUntil ≠ right.recoveryUntil then left.recoveryUntil < right.recoveryUntil
  else if (c.store left.store).storeID ≠ (c.store right.store).storeID then
    (c.store left.store).storeID < (c.store right.store).storeID
  else if left.revisionID ≠ right.revisionID then left.revisionID < right.revisionID
  else left.token < right.token

/-- The candidate cannot be claimed. -/
def unavailable (k : Ref) : Bool :=
  (c.candidate k).claim ≠ none ∨ (c.candidate k).withdrawn ∨
    (c.store (c.candidate k).store).closing ∨ (c.store (c.candidate k).store).closed ∨
    (c.charge (c.candidate k).charge).status ≠ .active

/-- The choice between the oldest candidate so far and the next one. -/
def older (oldest : Option Ref) (k : Ref) : Ref :=
  match oldest with
  | none => k
  | some o => if c.candidateLess (c.candidate k) (c.candidate o) then k else o

/-- One round of the loop of `oldestCandidateLocked`. -/
def consider (requester : Ref) (shareBlocked : Bool) (oldest : Option Ref) (k : Ref) :
    Coordinator × Option Ref :=
  if c.unavailable k then
    if (c.candidate k).claim = none then (c.removeAvailableCandidate k, oldest) else (c, oldest)
  else if shareBlocked ∧ (c.store (c.candidate k).store).shareID ≠ (c.store requester).shareID then
    (c, oldest)
  else (c, some (c.older oldest k))

/-- `oldestCandidateLocked` over a listing of the candidates, whose order Go leaves open. -/
def oldestCandidate (requester : Ref) (shareBlocked : Bool) (listing : List Ref) :
    Coordinator × Option Ref :=
  listing.foldl (fun (c, oldest) k => c.consider requester shareBlocked oldest k) (c, none)

/-! ### Claims -/

def claims (s : Ref) : List Counter := [.reclaims .process, .reclaims (.store s)]

/-- `claimCandidateLocked`. The new claim is the next cell. -/
def claimCandidate (decision : CapacityDecisionID) (requester k : Ref) : Coordinator :=
  ({ c with
    nextClaim := c.nextClaim + 1
    claimStates := c.claimStates.alloc ⟨⟨decision, c.nextClaim + 1⟩, decision, k, requester⟩
    candidateStates := c.candidateStates.modify k (·.setClaim (some c.claimStates.size))
    }.down (reclaimables (c.candidate k).store)).up (claims (c.candidate k).store)

/-- End the claim on a candidate. -/
def clearClaim (k : Ref) : Coordinator :=
  (c.modifyCandidate k (·.setClaim none)).down (claims (c.candidate k).store)

/-- End the claim on a candidate and delete the candidate. -/
def dropClaim (k : Ref) : Coordinator := (c.clearClaim k).unlist k

/-- The share unit that a cross-store claim makes provisional. -/
def provisionalShare (crossStoreShareReservation : Bool) (s : Ref) : List Counter :=
  if crossStoreShareReservation then [.used (.store s) .stableHandle] else []

/-- Return the provisional share unit of a cross-store claim. -/
def returnShare (crossStoreShareReservation : Bool) (s : Ref) : Coordinator :=
  c.down (provisionalShare crossStoreShareReservation s)

def abandonClaim (p : PendingReclaim) : Coordinator :=
  if (c.candidate p.candidate).claim ≠ some p.claim then c
  else
    if (c.candidate p.candidate).withdrawn ∨ (c.store (c.candidate p.candidate).store).closing then
      ((c.clearClaim p.candidate).returnShare p.crossStoreShareReservation
        (c.claimStates.get p.claim).requester).unlist p.candidate
    else
      ((c.clearClaim p.candidate).returnShare p.crossStoreShareReservation
        (c.claimStates.get p.claim).requester).up (reclaimables (c.candidate p.candidate).store)

/-- `finishClaimLocked` for an admission of the store `requester`. -/
def finishClaim (p : PendingReclaim) (result : ReclaimResult) (requester : Ref) :
    Coordinator × ReclaimFinish :=
  if (c.candidate p.candidate).claim ≠ some p.claim then (c, .uncertain .invalidReclaimResult)
  else if result.claim ≠ some p.claim then
    (c.dropClaim p.candidate, .uncertain .invalidReclaimResult)
  else
    match result.kind with
    | .declined =>
      ((c.dropClaim p.candidate).returnShare p.crossStoreShareReservation requester, .declined)
    | .completed => (c.dropClaim p.candidate, .completed)
    | .uncertain =>
      (c.dropClaim p.candidate, .uncertain (result.diagnostic.elim .invalidReclaimResult .reported))
    | .none => (c.dropClaim p.candidate, .uncertain .invalidReclaimResult)

def victim (k : Ref) : ChargeState := c.charge (c.candidate k).charge

/-- Give the charge of a candidate its final status. -/
def resolveVictim (k : Ref) (status : ChargeStatus) : Coordinator :=
  (c.modifyCharge (c.candidate k).charge (·.resolve status)).down
    [.liveCharges (.store (c.victim k).store)]

/-- `transferTerminalVictimLocked`, for admission `j`. The process count stays: the unit
moves from the victim to the requester. -/
def transferTerminalVictim (p : PendingReclaim) (j : Ref) : Coordinator :=
  ((c.resolveVictim p.candidate .transferred).returnShare p.crossStoreShareReservation
    (c.victim p.candidate).store).modifyAdmission j (·.reserve true)

def stableHandles (s : Ref) : List Counter :=
  [.used .process .stableHandle, .used (.store s) .stableHandle]

def releaseTerminalVictim (p : PendingReclaim) (requester : Ref) : Coordinator :=
  ((c.resolveVictim p.candidate .released).down (stableHandles (c.victim p.candidate).store)
    ).returnShare p.crossStoreShareReservation requester

def quarantines (s : Ref) : List Counter := [.quarantined .process, .quarantined (.store s)]

def quarantineVictim (p : PendingReclaim) (requester : Ref) : Coordinator :=
  ((c.resolveVictim p.candidate .quarantined).up (quarantines (c.victim p.candidate).store)
    ).returnShare p.crossStoreShareReservation requester

/-! ### Closing -/

def withdrawStoreCandidates (s : Ref) (listing : List Ref) : Coordinator :=
  listing.foldl (fun c k => if (c.candidate k).store ≠ s then c else c.withdraw k) c

/-- How far a call of `Close` came. -/
inductive CloseOutcome where
  | waiting
  | closed
  | failed (error : CapacityError)

/-- `StoreRegistration.Close` from its wait loop on. -/
def awaitCloseStore (s : Ref) : Coordinator × CloseOutcome :=
  if c.counts (.pending (.store s)) ≠ 0 ∨ c.counts (.reclaims (.store s)) ≠ 0 then (c, .waiting)
  else if (c.store s).sessions.size ≠ 0 then
    (c, .failed (.liveSessionRegistrations (c.store s).storeID (c.store s).sessions.size))
  else if c.counts (.liveCharges (.store s)) ≠ 0 then
    (c, .failed (.liveCapacityOwnership .share (c.store s).shareID (c.used (.store s))))
  else
    ({ c with
      storeStates := c.storeStates.modify s (·.finishClose)
      stores := c.stores.erase (c.store s).storeID
      shares := c.shares.erase (c.store s).shareID }, .closed)

def closeStore (s : Ref) (listing : List Ref) : Coordinator × CloseOutcome :=
  if (c.store s).closed then (c, .closed)
  else
    ((c.modifyStore s (·.beginClose)).withdrawStoreCandidates s listing).awaitCloseStore s

/-- `SessionRegistration.Close` from its wait loop on. -/
def awaitCloseSession (t : Ref) : Coordinator × CloseOutcome :=
  if c.counts (.pending (.session t)) ≠ 0 then (c, .waiting)
  else if c.counts (.liveCharges (.session t)) ≠ 0 then
    (c, .failed (.liveCapacityOwnership .session (c.session t).sessionID (c.used (.session t))))
  else
    ((c.modifySession t fun session => { session with closed := true }).modifyStore
      (c.session t).store fun store =>
        store.setSessions (store.sessions.erase (c.session t).sessionID), .closed)

def closeSession (t : Ref) : Coordinator × CloseOutcome :=
  if (c.session t).closed then (c, .closed)
  else (c.modifySession t fun session => { session with closing := true }).awaitCloseSession t

end Coordinator

end Windshare.RevisionCapacity
