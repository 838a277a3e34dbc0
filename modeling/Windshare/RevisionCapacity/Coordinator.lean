import Windshare.Library.FiniteMap
import Windshare.Library.Heap

/-!
# The revision-capacity coordinator

The model of the state of `revisioncapacity`: its types and `coordinator.go`. Stores,
sessions, charges, candidates, claims and admissions are shared by pointer in the source;
here they are cells of heaps. The counters of the coordinator, the stores and the sessions
are one table, keyed by the scope they belong to. A method holds the coordinator's lock for
its whole body, so it is a function of the coordinator. Traces, snapshots and their
diagnostics are left out.
-/

namespace Windshare.RevisionCapacity

open Windshare.Library

/-- Go strings, as their bytes. -/
abbrev Text := List UInt8

abbrev StoreID := Text
abbrev ShareID := Text
abbrev SessionID := Text
abbrev RevisionID := Text
abbrev CandidateToken := Text

/-- Nanoseconds; the zero time is 0. -/
abbrev Time := Int

/-- `CapacityDecisionID`, the numbers that its text names. -/
structure CapacityDecisionID where
  owner : UInt64
  number : UInt64
deriving DecidableEq, Repr

/-- `ReclaimClaimID`, the numbers that its text names. -/
structure ReclaimClaimID where
  decision : CapacityDecisionID
  number : UInt64
deriving DecidableEq, Repr

inductive CapacityResource where
  | stableHandle
  | activeLease
deriving DecidableEq, Repr

inductive CapacityScope where
  | process
  | share
  | session
deriving DecidableEq, Repr

/-- `CapacityUsage`, also for `CapacityLimits`. -/
structure CapacityUsage where
  stableHandles : UInt64
  activeLeases : UInt64
deriving DecidableEq, Repr

abbrev CapacityLimits := CapacityUsage

def CapacityUsage.of (u : CapacityUsage) : CapacityResource → UInt64
  | .stableHandle => u.stableHandles
  | .activeLease => u.activeLeases

/-- The process, a store or a session. -/
inductive Scope where
  | process
  | store (s : Ref)
  | session (t : Ref)
deriving DecidableEq, Repr

/-- The counter fields of `Coordinator`, `storeState` and `sessionState`. The field
`activeReclaims` of the coordinator is its `reclaims`. -/
inductive Counter where
  | used (scope : Scope) (resource : CapacityResource)
  | pending (scope : Scope)
  | reclaimable (scope : Scope)
  | quarantined (scope : Scope)
  | reclaims (scope : Scope)
  | liveCharges (scope : Scope)
deriving DecidableEq, Repr

def Counter.scope : Counter → Scope
  | .used scope _ => scope
  | .pending scope => scope
  | .reclaimable scope => scope
  | .quarantined scope => scope
  | .reclaims scope => scope
  | .liveCharges scope => scope

/-- The cause of an uncertain reclaim: what the target reported, or a broken contract. -/
inductive ReclaimCause where
  | invalidReclaimResult
  | reported (diagnostic : Text)
deriving DecidableEq, Repr

/-- The errors of the package. -/
inductive CapacityError where
  | contextDone
  | missingRegistration
  | missingIdentity
  | invalidLimits
  | invalidRetryAfter
  | coordinatorClosed
  | registrationClosing
  | storeRegistered (storeID : StoreID)
  | shareRegistered (shareID : ShareID)
  | sessionRegistered (sessionID : SessionID) (storeID : StoreID)
  | sessionOfAnotherStore
  | busy (decision : CapacityDecisionID) (resource : CapacityResource) (scope : CapacityScope)
      (retryAfter : Nat)
  | reclaimOwnership (decision : CapacityDecisionID) (claim : ReclaimClaimID)
      (candidate : CandidateToken) (cause : ReclaimCause)
  | emptyGrant
  | admissionGrantSettled
  | lostStableReservation
  | noStableHandle
  | emptyCharge
  | chargeKindMismatch
  | ownershipResolved
  | ownershipClaimed
  | ownershipQuarantined
  | incompleteCandidate
  | notActiveStableHandle
  | tokenReused
  | alreadyIdle
  | liveSessionRegistrations (storeID : StoreID) (count : Nat)
  | liveCapacityOwnership (scope : CapacityScope) (identity : Text) (usage : CapacityUsage)
  | liveStoreRegistrations (count : Nat)
deriving DecidableEq, Repr

structure StoreState where
  storeID : StoreID
  shareID : ShareID
  limits : CapacityLimits
  closing : Bool
  closed : Bool
  sessions : FiniteMap SessionID Ref

def StoreState.setSessions (store : StoreState) (sessions : FiniteMap SessionID Ref) :
    StoreState := { store with sessions := sessions }

def StoreState.beginClose (store : StoreState) : StoreState := { store with closing := true }

def StoreState.finishClose (store : StoreState) : StoreState := { store with closed := true }

structure SessionState where
  store : Ref
  sessionID : SessionID
  limits : CapacityLimits
  closing : Bool
  closed : Bool

inductive ChargeKind where
  | stableHandle
  | activeLease
  | sessionHandle
deriving DecidableEq, Repr

inductive ChargeStatus where
  | active
  | released
  | transferred
  | quarantined
deriving DecidableEq, Repr

/-- `chargeState`; a stable-handle charge has no session. -/
structure ChargeState where
  store : Ref
  session : Option Ref
  kind : ChargeKind
  status : ChargeStatus

def ChargeState.resolve (charge : ChargeState) (status : ChargeStatus) : ChargeState :=
  { charge with status := status }

structure CandidateKey where
  storeID : StoreID
  token : CandidateToken
deriving DecidableEq

structure CandidateState where
  key : CandidateKey
  store : Ref
  token : CandidateToken
  revisionID : RevisionID
  recoveryUntil : Time
  lifecycleGeneration : UInt64
  charge : Ref
  claim : Option Ref
  withdrawn : Bool

def CandidateState.setClaim (candidate : CandidateState) (claim : Option Ref) : CandidateState :=
  { candidate with claim := claim }

def CandidateState.withdraw (candidate : CandidateState) : CandidateState :=
  { candidate with withdrawn := true }

structure ReclaimState where
  id : ReclaimClaimID
  decisionID : CapacityDecisionID
  candidate : Ref
  requester : Ref

structure AdmissionRequirements where
  stableHandle : Bool
  activeLease : Bool
  sessionHandle : Bool
deriving DecidableEq

structure AdmissionState where
  store : Ref
  session : Ref
  decisionID : CapacityDecisionID
  revisionID : RevisionID
  requirements : AdmissionRequirements
  stableReserved : Bool
  settled : Bool
  reclaimDiagnostic : Option Text

def AdmissionState.reserve (admission : AdmissionState) (stable : Bool) : AdmissionState :=
  { admission with stableReserved := stable }

def AdmissionState.settle (admission : AdmissionState) (stable : Bool) : AdmissionState :=
  { admission with settled := true, stableReserved := stable }

def AdmissionState.diagnose (admission : AdmissionState) (diagnostic : Option Text) :
    AdmissionState :=
  { admission with reclaimDiagnostic := diagnostic }

/-- `Coordinator` with the objects that it and its clients point to. -/
structure Coordinator where
  ownerID : UInt64
  nextDecision : UInt64
  nextClaim : UInt64
  closed : Bool
  limits : CapacityLimits
  counts : Counter → UInt64
  retryAfter : Nat
  stores : FiniteMap StoreID Ref
  shares : FiniteMap ShareID Ref
  candidates : FiniteMap CandidateKey Ref
  byCharge : FiniteMap Ref Ref
  storeStates : Heap StoreState
  sessionStates : Heap SessionState
  chargeStates : Heap ChargeState
  candidateStates : Heap CandidateState
  claimStates : Heap ReclaimState
  admissionStates : Heap AdmissionState

def StoreState.new (storeID : StoreID) (shareID : ShareID) (limits : CapacityLimits) :
    StoreState where
  storeID := storeID
  shareID := shareID
  limits := limits
  closing := false
  closed := false
  sessions := .empty

def SessionState.new (store : Ref) (sessionID : SessionID) (limits : CapacityLimits) :
    SessionState where
  store := store
  sessionID := sessionID
  limits := limits
  closing := false
  closed := false

/-- The coordinator of `NewProcessOwner`. A cell that is not allocated is never read. -/
def newCoordinator (ownerID : UInt64) (limits : CapacityLimits) (retryAfter : Nat) :
    Coordinator where
  ownerID := ownerID
  nextDecision := 0
  nextClaim := 0
  closed := false
  limits := limits
  counts := fun _ => 0
  retryAfter := retryAfter
  stores := .empty
  shares := .empty
  candidates := .empty
  byCharge := .empty
  storeStates := ⟨0, fun _ => .new [] [] ⟨0, 0⟩⟩
  sessionStates := ⟨0, fun _ => .new 0 [] ⟨0, 0⟩⟩
  chargeStates := ⟨0, fun _ => ⟨0, none, .stableHandle, .released⟩⟩
  candidateStates := ⟨0, fun _ => ⟨⟨[], []⟩, 0, [], [], 0, 0, 0, none, false⟩⟩
  claimStates := ⟨0, fun _ => ⟨⟨⟨0, 0⟩, 0⟩, ⟨0, 0⟩, 0, 0⟩⟩
  admissionStates := ⟨0, fun _ => ⟨0, 0, ⟨0, 0⟩, [], ⟨false, false, false⟩, false, true, none⟩⟩

/-- `validateLimits`. -/
def validLimits (limits : CapacityLimits) : Bool :=
  limits.stableHandles ≠ 0 ∧ limits.activeLeases ≠ 0

/-- `validateRetryAfter`, in nanoseconds. -/
def validRetryAfter (delay : Nat) : Bool :=
  1000000 ≤ delay ∧ delay ≤ 30 * 1000000000 ∧ delay % 1000000 = 0

def newProcessOwner (ownerID : UInt64) (limits : CapacityLimits) (retryAfter : Nat) :
    Except CapacityError Coordinator :=
  if validLimits limits = false then .error .invalidLimits
  else if validRetryAfter retryAfter = false then .error .invalidRetryAfter
  else .ok (newCoordinator ownerID limits retryAfter)

namespace Coordinator

variable (c : Coordinator)

def store (s : Ref) : StoreState := c.storeStates.get s
def session (t : Ref) : SessionState := c.sessionStates.get t
def charge (i : Ref) : ChargeState := c.chargeStates.get i
def candidate (k : Ref) : CandidateState := c.candidateStates.get k
def admission (j : Ref) : AdmissionState := c.admissionStates.get j

def modifyStore (s : Ref) (f : StoreState → StoreState) : Coordinator :=
  { c with storeStates := c.storeStates.modify s f }

def modifySession (t : Ref) (f : SessionState → SessionState) : Coordinator :=
  { c with sessionStates := c.sessionStates.modify t f }

def modifyCharge (i : Ref) (f : ChargeState → ChargeState) : Coordinator :=
  { c with chargeStates := c.chargeStates.modify i f }

def modifyCandidate (k : Ref) (f : CandidateState → CandidateState) : Coordinator :=
  { c with candidateStates := c.candidateStates.modify k f }

def modifyAdmission (j : Ref) (f : AdmissionState → AdmissionState) : Coordinator :=
  { c with admissionStates := c.admissionStates.modify j f }

def addCharge (charge : ChargeState) : Coordinator :=
  { c with chargeStates := c.chargeStates.alloc charge }

def addAdmission (admission : AdmissionState) : Coordinator :=
  { c with admissionStates := c.admissionStates.alloc admission }

def up (xs : List Counter) : Coordinator :=
  { c with counts := fun x => c.counts x + UInt64.ofNat (xs.count x) }

def down (xs : List Counter) : Coordinator :=
  { c with counts := fun x => c.counts x - UInt64.ofNat (xs.count x) }

/-- The counters of a new object. -/
def reset (scope : Scope) : Coordinator :=
  { c with counts := fun x => if x.scope = scope then 0 else c.counts x }

def limitsOf : Scope → CapacityLimits
  | .process => c.limits
  | .store s => (c.store s).limits
  | .session t => (c.session t).limits

/-- The scope has used what its limits allow. -/
def atLimit (scope : Scope) (resource : CapacityResource) : Bool :=
  c.counts (.used scope resource) ≥ (c.limitsOf scope).of resource

def used (scope : Scope) : CapacityUsage :=
  ⟨c.counts (.used scope .stableHandle), c.counts (.used scope .activeLease)⟩

/-! ### Registration -/

/-- Add a store, with all its counters zero. -/
def addStore (store : StoreState) : Coordinator :=
  { c.reset (.store c.storeStates.size) with
    storeStates := c.storeStates.alloc store
    stores := c.stores.insert store.storeID c.storeStates.size
    shares := c.shares.insert store.shareID c.storeStates.size }

/-- Add a session to its store, with all its counters zero. -/
def addSession (session : SessionState) : Coordinator :=
  { c.reset (.session c.sessionStates.size) with
    sessionStates := c.sessionStates.alloc session
    storeStates := c.storeStates.modify session.store fun store =>
      store.setSessions (store.sessions.insert session.sessionID c.sessionStates.size) }

def registerStore (storeID : StoreID) (shareID : ShareID) (limits : CapacityLimits) :
    Coordinator × Except CapacityError Ref :=
  if storeID = [] ∨ shareID = [] then (c, .error .missingIdentity)
  else if validLimits limits = false then (c, .error .invalidLimits)
  else if c.closed then (c, .error .coordinatorClosed)
  else if (c.stores.get? storeID).isSome then (c, .error (.storeRegistered storeID))
  else if (c.shares.get? shareID).isSome then (c, .error (.shareRegistered shareID))
  else
    (c.addStore (.new storeID shareID limits), .ok c.storeStates.size)

def registerSession (s : Ref) (sessionID : SessionID) (limits : CapacityLimits) :
    Coordinator × Except CapacityError Ref :=
  if c.storeStates.size ≤ s then (c, .error .missingRegistration)
  else if sessionID = [] then (c, .error .missingIdentity)
  else if validLimits limits = false then (c, .error .invalidLimits)
  else if c.closed then (c, .error .coordinatorClosed)
  else if (c.store s).closing ∨ (c.store s).closed then (c, .error .registrationClosing)
  else if ((c.store s).sessions.get? sessionID).isSome then
    (c, .error (.sessionRegistered sessionID (c.store s).storeID))
  else
    (c.addSession (.new s sessionID limits), .ok c.sessionStates.size)

def closeOwner : Coordinator × Except CapacityError Unit :=
  if c.closed then (c, .ok ())
  else if c.stores.size ≠ 0 then (c, .error (.liveStoreRegistrations c.stores.size))
  else ({ c with closed := true }, .ok ())

def nextDecisionID : Coordinator × CapacityDecisionID :=
  ({ c with nextDecision := c.nextDecision + 1 }, ⟨c.ownerID, c.nextDecision + 1⟩)

end Coordinator

end Windshare.RevisionCapacity
