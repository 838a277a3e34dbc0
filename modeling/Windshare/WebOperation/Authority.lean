import Windshare.Library.FiniteMap
import Windshare.WebOperation.Binding

/-!
# The continuation authority of an operation

The authority remembers which answer, which final and which candidates of its operation were let
through. A call on it runs until it awaits the digest of its message and goes on when the digest
is there; calls are serialised, but the operation may retire while one waits. A reservation to
deliver a message can be rolled back until it is accepted.

The digest is a parameter.
-/

namespace Windshare.WebOperation

open Windshare.Library Windshare.Protocol Windshare.Session Windshare.Operation

def maximumPeerCandidates : Nat := 64

inductive ContinuationState where
  | active
  | closed
  | localCancel
  | remoteFinal
deriving DecidableEq, Repr

/-- Why an operation retires. -/
inductive RetireReason where
  | localCancel
  | remoteFinal
deriving DecidableEq, Repr

def RetireReason.state : RetireReason → ContinuationState
  | .localCancel => .localCancel
  | .remoteFinal => .remoteFinal

/-- The keys of the fingerprint map. -/
inductive ReplaySlot where
  | final
  | peerAnswer
deriving DecidableEq, Repr

def isFinalResponse : MessageKind → Bool
  | .catalogResult => true
  | .openResults => true
  | .cancel => true
  | .operationError => true
  | .operationComplete => true
  | .leaseResult => true
  | .laneAttach => true
  | _ => false

def replaySlot (kind : MessageKind) : Option ReplaySlot :=
  if isFinalResponse kind then some .final
  else if kind = .peerAnswer then some .peerAnswer
  else none

/-! ### Responses that may continue a request -/

def isResponseAllowed (request response : MessageKind) : Bool :=
  if response = .operationError then true
  else
    match request with
    | .listChildren => response = .scanProgress ∨ response = .catalogResult
    | .openRevisions => response = .openResults
    | .renewLease => response = .leaseResult
    | .releaseLease => response = .operationComplete
    | .requestBlocks => response = .blockFragment ∨ response = .operationComplete
    | .laneAttach => response = .laneAttach
    | .peerOffer => response = .peerAnswer ∨ response = .peerCandidate
    | _ => false

def operationErrorScopesForRequest : MessageKind → List FailureScope
  | .listChildren => [.directory]
  | .openRevisions => [.revision]
  | .renewLease => [.revision]
  | .releaseLease => [.revision]
  | .requestBlocks => [.block, .revision]
  | .peerOffer => [.peer]
  | _ => []

/-- What an authority is made with and never changes. The binding is there for a peer offer. -/
structure Contract (D : Type) where
  package : PackageDecoder
  nfc : String → Bool
  digest : List UInt8 → D
  requestKind : MessageKind
  peerBinding : Option PeerBinding

/-- The constructor, which throws for an offer without a binding. -/
def Contract.new {D : Type} (package : PackageDecoder) (nfc : String → Bool)
    (digest : List UInt8 → D) (requestKind : MessageKind) (canonicalRequestBody : List UInt8) :
    Except BindingError (Contract D) :=
  if requestKind = .peerOffer then
    (decodePeerBinding package nfc canonicalRequestBody 7).map fun binding =>
      ⟨package, nfc, digest, requestKind, some binding⟩
  else .ok ⟨package, nfc, digest, requestKind, none⟩

namespace Contract

variable {D : Type} (c : Contract D)

/-- `requireOperationResponse` accepts the message. -/
def allows (m : Message) : Bool :=
  isResponseAllowed c.requestKind m.kind &&
    (m.kind != .operationError ||
      match decodeOperationErrorControl c.package c.nfc m.body with
      | .error _ => false
      | .ok failure => (operationErrorScopesForRequest c.requestKind).contains failure.scope)

def namesAttempt (expected : PeerBinding) (attempt : WebPeerAttempt) : Bool :=
  attempt.peerSlot == expected.peerSlot && attempt.attemptSequence == expected.attemptSequence &&
    attempt.peerPathId == expected.peerPathId && attempt.attemptId == expected.attemptId

/-- `#validateContinuation` accepts the message. -/
def continues (m : Message) : Bool :=
  if m.kind = .operationError then
    match decodeOperationErrorControl c.package c.nfc m.body, c.peerBinding with
    | .error _, _ => false
    | .ok _, none => true
    | .ok failure, some expected => failure.peerAttempt.any (namesAttempt expected)
  else
    match c.peerBinding with
    | none => true
    | some expected =>
      match decodePeerBinding c.package c.nfc m.body (if m.kind = .peerAnswer then 7 else 10) with
      | .error _ => false
      | .ok actual => actual == expected

def fingerprint (m : Message) : D :=
  c.digest (m.kind.byte :: (m.operationID.map Identity.bytes).getD (List.replicate 16 0) ++ m.body)

end Contract

/-! ### State -/

/-- The replay state of `OperationContinuationAuthority`. -/
structure Authority (D : Type) where
  state : ContinuationState
  fingerprints : FiniteMap ReplaySlot D
  candidates : List D
  overflow : Option D

/-- What a rollback takes back. -/
inductive Undo (D : Type) where
  | nothing
  | candidate (fingerprint : D)
  | overflow (fingerprint : D)
  | replay (slot : ReplaySlot) (fingerprint : D)

/-- How a call on the authority ends. `violation` is a session violation thrown. -/
inductive Outcome (D : Type) where
  | dropped
  | violation
  | deliver (final : Bool) (undo : Undo D)

/-- A call that awaits the digest of its message. -/
inductive Suspended where
  | candidate (m : Message)
  | replay (m : Message) (slot : ReplaySlot)
  | late (m : Message) (slot : ReplaySlot) (allowFirst : Bool)
deriving DecidableEq

/-- A call has ended, or it awaits a digest. -/
inductive Turn (D : Type) where
  | done (outcome : Outcome D)
  | awaiting (call : Suspended)

/-- What is left to do for a late message: nothing, or to compare its fingerprint. -/
inductive Late where
  | settled (accepted : Bool)
  | compare (slot : ReplaySlot) (allowFirst : Bool)
deriving DecidableEq

namespace Authority

variable {D : Type} [DecidableEq D] (c : Contract D) (a : Authority D)

def new : Authority D := ⟨.active, .empty, [], none⟩

def retire (reason : RetireReason) : Authority D :=
  if a.state ≠ .active then a
  else { a with state := reason.state, candidates := [], overflow := none }

def close (_ : Authority D) : Authority D := ⟨.closed, .empty, [], none⟩

/-- `#acceptLateValidated` up to the fingerprint. -/
def acceptLateValidated (m : Message) : Late :=
  if a.state = .closed then .settled true
  else if m.kind = .peerCandidate ∧ c.peerBinding.isSome then .settled true
  else if a.state = .localCancel then
    match replaySlot m.kind with
    | none => .settled true
    | some slot => .compare slot true
  else if a.state = .remoteFinal ∧ m.kind = .peerAnswer ∧ c.peerBinding.isSome then
    .compare .peerAnswer true
  else if m.kind = .blockFragment then .settled true
  else
    match replaySlot m.kind with
    | none => .settled false
    | some slot => .compare slot false

/-- `#acceptFingerprint` once the fingerprint is known. -/
def acceptFingerprint (slot : ReplaySlot) (fingerprint : D) (allowFirst : Bool) :
    Authority D × Outcome D :=
  if a.state = .closed then (a, .dropped)
  else
    match a.fingerprints.get? slot with
    | none =>
      if allowFirst then
        ({ a with fingerprints := a.fingerprints.insert slot fingerprint }, .dropped)
      else (a, .violation)
    | some existing => if existing ≠ fingerprint then (a, .violation) else (a, .dropped)

/-- A late message until it awaits its digest. -/
def late (m : Message) : Turn D :=
  match a.acceptLateValidated c m with
  | .settled true => .done .dropped
  | .settled false => .done .violation
  | .compare slot allowFirst => .awaiting (.late m slot allowFirst)

/-- `reserve` until it awaits its digest. -/
def reserve (m : Message) : Turn D :=
  if a.state = .closed then .done .dropped
  else if !c.allows m || !c.continues m then .done .violation
  else if a.state ≠ .active then a.late c m
  else if m.kind = .peerCandidate then
    if a.overflow.isSome then .done .dropped else .awaiting (.candidate m)
  else
    match replaySlot m.kind with
    | none => .done (.deliver false .nothing)
    | some slot => .awaiting (.replay m slot)

/-- `acceptLate` until it awaits its digest. -/
def acceptLate (m : Message) : Turn D :=
  if a.state = .closed then .done .dropped
  else if !c.allows m || !c.continues m then .done .violation
  else a.late c m

def reserveCandidate (fingerprint : D) : Authority D × Outcome D :=
  if a.state ≠ .active then (a, .dropped)
  else if fingerprint ∈ a.candidates then (a, .dropped)
  else if a.candidates.length < maximumPeerCandidates then
    ({ a with candidates := fingerprint :: a.candidates }, .deliver false (.candidate fingerprint))
  else ({ a with overflow := some fingerprint }, .deliver false (.overflow fingerprint))

def reserveReplaySlot (m : Message) (slot : ReplaySlot) (fingerprint : D) :
    Authority D × Outcome D :=
  if a.state ≠ .active then
    match a.acceptLateValidated c m with
    | .settled true => (a, .dropped)
    | .settled false => (a, .violation)
    | .compare slot allowFirst => a.acceptFingerprint slot fingerprint allowFirst
  else
    match a.fingerprints.get? slot with
    | some existing => if existing = fingerprint then (a, .dropped) else (a, .violation)
    | none =>
      ({ a with fingerprints := a.fingerprints.insert slot fingerprint },
        .deliver (isFinalResponse m.kind) (.replay slot fingerprint))

/-- A call goes on when its digest is there. -/
def resume (call : Suspended) : Authority D × Outcome D :=
  match call with
  | .candidate m => a.reserveCandidate (c.fingerprint m)
  | .replay m slot => a.reserveReplaySlot c m slot (c.fingerprint m)
  | .late m slot allowFirst => a.acceptFingerprint slot (c.fingerprint m) allowFirst

/-- `rollback` of a reservation that is not settled. -/
def undo : Undo D → Authority D
  | .nothing => a
  | .candidate f => { a with candidates := a.candidates.filter (· ≠ f) }
  | .overflow f => if a.overflow = some f then { a with overflow := none } else a
  | .replay slot f =>
    if a.fingerprints.get? slot = some f then
      { a with fingerprints := a.fingerprints.erase slot }
    else a

end Authority

def Suspended.message : Suspended → Message
  | .candidate m => m
  | .replay m _ => m
  | .late m _ _ => m

/-! ### Interruptions -/

/-- What may happen to an authority at any time, also while a call awaits its digest. -/
inductive Interruption where
  | retire (reason : RetireReason)
  | close
deriving DecidableEq, Repr

namespace Authority

variable {D : Type} {a : Authority D}

def interrupt (a : Authority D) : Interruption → Authority D
  | .retire reason => a.retire reason
  | .close => a.close

theorem retire_of_active (h : a.state = .active) (reason : RetireReason) :
    a.retire reason = ⟨reason.state, a.fingerprints, [], none⟩ :=
  if_neg (not_not_intro h)

theorem retire_of_not_active (h : a.state ≠ .active) (reason : RetireReason) :
    a.retire reason = a :=
  if_pos h

variable [DecidableEq D]

theorem state_undo (a : Authority D) (u : Undo D) : (a.undo u).state = a.state := by
  cases u with
  | nothing | candidate => rfl
  | overflow | replay =>
    dsimp only [undo]
    split <;> rfl

/-- A rollback may be moved before an interruption. -/
theorem undo_interrupt (a : Authority D) (u : Undo D) (i : Interruption) :
    (a.interrupt i).undo u = (a.undo u).interrupt i := by
  cases i with
  | close => cases u <;> rfl
  | retire reason =>
    change (a.retire reason).undo u = (a.undo u).retire reason
    by_cases hactive : a.state = .active
    · have hundone : (a.undo u).state = .active := (a.state_undo u).trans hactive
      rw [retire_of_active hactive, retire_of_active hundone]
      cases u with
      | nothing | candidate => rfl
      | overflow f =>
        by_cases hf : a.overflow = some f
        · simp [undo, hf]
        · simp [undo, hf]
      | replay slot f =>
        by_cases hf : a.fingerprints.get? slot = some f
        · simp [undo, hf]
        · simp [undo, hf]
    · have hundone : (a.undo u).state ≠ .active := by rwa [state_undo]
      rw [retire_of_not_active hactive, retire_of_not_active hundone]

end Authority

end Windshare.WebOperation
