import Windshare.RevisionCapacity.Reclaim

/-!
# Admissions, grants and charges

The model of `admission.go` and `grant.go`. An admission reserves what it needs at each
scope, claims an idle candidate when no stable handle is free, and ends in a grant or is
rolled back. A grant is committed to charges, aborted or quarantined.
-/

namespace Windshare.RevisionCapacity

open Windshare.Library

inductive AdmissionKind where
  | newRevision
  | firstSessionLease
  | additionalSessionLease
deriving DecidableEq, Repr

def requirementsFor : AdmissionKind → AdmissionRequirements
  | .newRevision => ⟨true, true, true⟩
  | .firstSessionLease => ⟨false, true, true⟩
  | .additionalSessionLease => ⟨false, true, false⟩

structure AdmissionRequest where
  kind : AdmissionKind
  revisionID : RevisionID
  session : Ref

def AdmissionState.new (s : Ref) (request : AdmissionRequest) (decisionID : CapacityDecisionID) :
    AdmissionState where
  store := s
  session := request.session
  decisionID := decisionID
  revisionID := request.revisionID
  requirements := requirementsFor request.kind
  stableReserved := false
  settled := false
  reclaimDiagnostic := none

/-- How far a part of `Admit` came. -/
inductive AdmissionStep where
  | granted
  | pending (p : PendingReclaim)
  | retry
  | failed (error : CapacityError)

structure AdmissionCharges where
  stable : Option Ref
  lease : Option Ref
  sessionHandle : Option Ref
deriving DecidableEq

namespace Coordinator

variable (c : Coordinator)

/-! ### Reservations -/

def nonStableBoundary (s t : Ref) (requirements : AdmissionRequirements) :
    Option (CapacityResource × CapacityScope) :=
  if requirements.activeLease ∧ c.atLimit (.session t) .activeLease then
    some (.activeLease, .session)
  else if requirements.activeLease ∧ c.atLimit (.store s) .activeLease then
    some (.activeLease, .share)
  else if requirements.activeLease ∧ c.atLimit .process .activeLease then
    some (.activeLease, .process)
  else if requirements.sessionHandle ∧ c.atLimit (.session t) .stableHandle then
    some (.stableHandle, .session)
  else none

def activeLeases (s t : Ref) : List Counter :=
  [.used .process .activeLease, .used (.store s) .activeLease, .used (.session t) .activeLease]

def sessionHandles (t : Ref) : List Counter := [.used (.session t) .stableHandle]

/-- The counts that `reserveNonStableLocked` changes. -/
def nonStables (s t : Ref) (requirements : AdmissionRequirements) : List Counter :=
  (if requirements.activeLease then activeLeases s t else []) ++
    (if requirements.sessionHandle then sessionHandles t else [])

def pendings (s t : Ref) : List Counter :=
  [.pending (.store s), .pending (.session t), .pending .process]

/-- `beginAdmission`; a grant is named by the cell of its admission. -/
def beginAdmission (s : Ref) (request : AdmissionRequest) (contextDone : Bool) :
    Coordinator × Except CapacityError Ref :=
  if contextDone then (c, .error .contextDone)
  else if c.storeStates.size ≤ s then (c, .error .missingRegistration)
  else if request.revisionID = [] ∨ c.sessionStates.size ≤ request.session then
    (c, .error .missingIdentity)
  else if (c.session request.session).store ≠ s then (c, .error .sessionOfAnotherStore)
  else if c.closed then (c, .error .coordinatorClosed)
  else if (c.store s).closing ∨ (c.store s).closed ∨ (c.session request.session).closing ∨
      (c.session request.session).closed then (c, .error .registrationClosing)
  else
    match c.nonStableBoundary s request.session (requirementsFor request.kind) with
    | some (resource, scope) =>
      (c.nextDecisionID.1, .error (.busy c.nextDecisionID.2 resource scope c.retryAfter))
    | none =>
      (((c.nextDecisionID.1.up (pendings s request.session)).up
        (nonStables s request.session (requirementsFor request.kind))).addAdmission
          (.new s request c.nextDecisionID.2), .ok c.admissionStates.size)

def admissionStopError (j : Ref) (contextDone : Bool) : Option CapacityError :=
  if contextDone then some .contextDone
  else if (c.store (c.admission j).store).closing ∨ (c.store (c.admission j).store).closed ∨
      (c.session (c.admission j).session).closing ∨ (c.session (c.admission j).session).closed then
    some .registrationClosing
  else none

/-- Mark the admission as settled. -/
def settle (j : Ref) (stableReserved : Bool) : Coordinator :=
  (c.modifyAdmission j (·.settle stableReserved)).down
    (pendings (c.admission j).store (c.admission j).session)

/-- Return the leases and the session handle that the admission reserved. -/
def releaseNonStable (j : Ref) : Coordinator :=
  c.down (nonStables (c.admission j).store (c.admission j).session (c.admission j).requirements)

/-- Return the stable handle that the admission reserved. -/
def releaseStable (j : Ref) : Coordinator :=
  c.down (if (c.admission j).stableReserved then stableHandles (c.admission j).store else [])

def rollbackAdmission (j : Ref) : Coordinator :=
  if (c.admission j).settled then c else ((c.releaseStable j).releaseNonStable j).settle j false

/-! ### The admission loop -/

def grantAvailable (j : Ref) : Coordinator :=
  if (c.admission j).requirements.stableHandle then
    (c.up (stableHandles (c.admission j).store)).modifyAdmission j (·.reserve true)
  else c

def denyStable (j : Ref) (shareBlocked : Bool) : Coordinator × AdmissionStep :=
  (c.rollbackAdmission j, .failed (.busy (c.admission j).decisionID .stableHandle
    (if shareBlocked then .share else .process) c.retryAfter))

def shareBlocked (s : Ref) : Bool := c.atLimit (.store s) .stableHandle

def processBlocked : Bool := c.atLimit .process .stableHandle

def crossStore (j k : Ref) : Bool := (c.candidate k).store ≠ (c.admission j).store

/-- The claim of the admission on a candidate, as `claimOrResolve` makes it. -/
def pendingReclaim (j k : Ref) : PendingReclaim := ⟨k, c.claimStates.size, c.crossStore j k⟩

/-- Claim a candidate for the admission. The process unit stays with the victim, and only
the requester's share unit is provisional. -/
def claimFor (j k : Ref) : Coordinator :=
  (c.claimCandidate (c.admission j).decisionID (c.admission j).store k).up
    (provisionalShare (c.crossStore j k) (c.admission j).store)

def claimOrResolve (j : Ref) (contextDone : Bool) (listing : List Ref) :
    Coordinator × AdmissionStep :=
  match c.admissionStopError j contextDone with
  | some e => (c.rollbackAdmission j, .failed e)
  | none =>
    if (c.admission j).requirements.stableHandle = false ∨
        c.shareBlocked (c.admission j).store = false ∧ c.processBlocked = false then
      (c.grantAvailable j, .granted)
    else
      match c.oldestCandidate (c.admission j).store (c.shareBlocked (c.admission j).store)
          listing with
      | (c', none) => c'.denyStable j (c.shareBlocked (c.admission j).store)
      | (c', some k) => (c'.claimFor j k, .pending (c'.pendingReclaim j k))

def cancelBeforeReclaim (j : Ref) (p : PendingReclaim) (contextDone : Bool) :
    Coordinator × Option CapacityError :=
  match c.admissionStopError j contextDone with
  | none => (c, none)
  | some e => ((c.abandonClaim p).rollbackAdmission j, some e)

def finishReclaim (j : Ref) (p : PendingReclaim) (result : ReclaimResult) (contextDone : Bool) :
    Coordinator × AdmissionStep :=
  match c.finishClaim p result (c.admission j).store with
  | (c, .declined) =>
    match c.admissionStopError j contextDone with
    | some e => (c.rollbackAdmission j, .failed e)
    | none => (c, .retry)
  | (c, .completed) =>
    match c.admissionStopError j contextDone with
    | some e =>
      ((c.releaseTerminalVictim p (c.admission j).store).rollbackAdmission j, .failed e)
    | none =>
      ((c.transferTerminalVictim p j).modifyAdmission j (·.diagnose result.diagnostic), .granted)
  | (c, .uncertain cause) =>
    ((c.quarantineVictim p (c.admission j).store).rollbackAdmission j,
      .failed (.reclaimOwnership (c.admission j).decisionID (c.claimStates.get p.claim).id
        (c.candidate p.candidate).token cause))

/-! ### Grants -/

def lives (s : Ref) (session : Option Ref) : List Counter :=
  .liveCharges (.store s) :: session.elim [] fun t => [.liveCharges (.session t)]

def newCharge (s : Ref) (session : Option Ref) (kind : ChargeKind) : Coordinator :=
  (c.addCharge ⟨s, session, kind, .active⟩).up (lives s session)

/-- A charge, where the admission requires one. -/
def newChargeIf (required : Bool) (s : Ref) (session : Option Ref) (kind : ChargeKind) :
    Coordinator × Option Ref :=
  if required then (c.newCharge s session kind, some c.chargeStates.size) else (c, none)

def newCharges (admission : AdmissionState) : Coordinator × AdmissionCharges :=
  let stable := c.newChargeIf admission.requirements.stableHandle admission.store none .stableHandle
  let lease := stable.1.newChargeIf admission.requirements.activeLease admission.store
    (some admission.session) .activeLease
  let handle := lease.1.newChargeIf admission.requirements.sessionHandle admission.store
    (some admission.session) .sessionHandle
  (handle.1, ⟨stable.2, lease.2, handle.2⟩)

def commit (j : Ref) : Coordinator × Except CapacityError AdmissionCharges :=
  if c.admissionStates.size ≤ j then (c, .error .emptyGrant)
  else if (c.admission j).settled then (c, .error .admissionGrantSettled)
  else if (c.admission j).requirements.stableHandle ∧ (c.admission j).stableReserved = false then
    (c, .error .lostStableReservation)
  else
    (((c.settle j (c.admission j).stableReserved).newCharges (c.admission j)).1,
      .ok ((c.settle j (c.admission j).stableReserved).newCharges (c.admission j)).2)

def abort (j : Ref) : Coordinator × Except CapacityError Unit :=
  if c.admissionStates.size ≤ j then (c, .error .emptyGrant)
  else if (c.admission j).settled then (c, .error .admissionGrantSettled)
  else (c.rollbackAdmission j, .ok ())

/-- `AdmissionGrant.QuarantineStableHandle`. The stable reservation remains in the used
counts. -/
def quarantineStableHandle (j : Ref) : Coordinator × Except CapacityError Unit :=
  if c.admissionStates.size ≤ j then (c, .error .emptyGrant)
  else if (c.admission j).settled then (c, .error .admissionGrantSettled)
  else if (c.admission j).requirements.stableHandle = false ∨
      (c.admission j).stableReserved = false then (c, .error .noStableHandle)
  else
    (((c.up (quarantines (c.admission j).store)).releaseNonStable j).settle j false, .ok ())

/-! ### Charges -/

def resolvedError : ChargeStatus → Option CapacityError
  | .released => some .ownershipResolved
  | .transferred => some .ownershipResolved
  | .quarantined => some .ownershipQuarantined
  | .active => none

def claimedCharge (i : Ref) : Bool :=
  (c.byCharge.get? i).any fun k => (c.candidate k).claim ≠ none

/-- Remove the candidate of the charge. -/
def dropCandidate (i : Ref) : Coordinator :=
  (c.byCharge.get? i).elim c c.removeAvailableCandidate

/-- The counts of an active charge, besides the live charges. -/
def chargeUnits (charge : ChargeState) : List Counter :=
  match charge.kind, charge.session with
  | .stableHandle, _ => stableHandles charge.store
  | .activeLease, some t => activeLeases charge.store t
  | .sessionHandle, some t => sessionHandles t
  | _, none => []

def endCharge (i : Ref) (status : ChargeStatus) : Coordinator :=
  (c.modifyCharge i (·.resolve status)).down (lives (c.charge i).store (c.charge i).session)

def releaseCharge (i : Ref) (expected : ChargeKind) : Coordinator × Except CapacityError Unit :=
  if c.chargeStates.size ≤ i then (c, .error .emptyCharge)
  else if (c.charge i).kind ≠ expected then (c, .error .chargeKindMismatch)
  else
    match resolvedError (c.charge i).status with
    | some e => (c, .error e)
    | none =>
      if c.claimedCharge i then (c, .error .ownershipClaimed)
      else (((c.dropCandidate i).down (chargeUnits (c.charge i))).endCharge i .released, .ok ())

/-- `StableHandleCharge.Quarantine`. -/
def quarantineCharge (i : Ref) : Coordinator × Except CapacityError Unit :=
  if c.chargeStates.size ≤ i then (c, .error .emptyCharge)
  else if (c.charge i).kind ≠ .stableHandle then (c, .error .chargeKindMismatch)
  else
    match resolvedError (c.charge i).status with
    | some e => (c, .error e)
    | none =>
      if c.claimedCharge i then (c, .error .ownershipClaimed)
      else
        (((c.dropCandidate i).endCharge i .quarantined).up (quarantines (c.charge i).store), .ok ())

end Coordinator

end Windshare.RevisionCapacity
