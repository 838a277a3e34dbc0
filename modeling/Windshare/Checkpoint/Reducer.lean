import Windshare.Checkpoint.Record

/-!
# Replacing and recovering records

Which record may replace which, when an installed record already covers another, and which of
two records survives a crash. An accepted replacement is one of three cuts: a candidate is
promoted, a committed record changes its phase, or a verified record extends its ranges.
-/

namespace Windshare.Checkpoint

open Windshare.Library

def IdentityEqual (left right : Record) : Prop := left.identity = right.identity

instance (left right : Record) : Decidable (IdentityEqual left right) :=
  inferInstanceAs (Decidable (_ = _))

def Committed (r : Record) : Prop := r.commitState ≠ .candidate

instance (r : Record) : Decidable (Committed r) := inferInstanceAs (Decidable (_ ≠ _))

def rangesContain (container required : List Range) : Bool := HalfOpen.contains container required

def SupersedesCheckpoint (env : Environment) (installed candidate : Record) : Prop :=
  installed.validate env = .ok () ∧ candidate.validate env = .ok () ∧ Committed installed ∧
    (candidate.commitState = .candidate ∨ candidate.commitState = .verified) ∧
    IdentityEqual installed candidate ∧
    installed.stateGeneration ≥ candidate.stateGeneration ∧
    installed.checkpointGeneration ≥ candidate.checkpointGeneration ∧
    rangesContain installed.verifiedRanges candidate.verifiedRanges

/-! ### Transitions -/

/-- The commit state that goes with a phase after a change of phase. -/
def Phase.commit : Phase → CommitState
  | .published => .published
  | .quarantined => .quarantined
  | _ => .verified

/-- The phases that may follow a phase. -/
def Phase.successors : Phase → List Phase
  | .reserved => [.active, .retired, .quarantined]
  | .active => [.paused, .publishing, .retired, .quarantined]
  | .paused => [.active, .publishing, .retired, .quarantined]
  | .publishing => [.paused, .published, .retired, .quarantined]
  | .retired => [.quarantined]
  | .published => []
  | .quarantined => []

def ValidLifecycleTransition (previousPhase : Phase) (previousCommit : CommitState)
    (nextPhase : Phase) (nextCommit : CommitState) : Prop :=
  ¬ nextCommit.code < previousCommit.code ∧ nextCommit = nextPhase.commit ∧
    nextPhase ∈ previousPhase.successors

instance (previousPhase : Phase) (previousCommit : CommitState) (nextPhase : Phase)
    (nextCommit : CommitState) :
    Decidable (ValidLifecycleTransition previousPhase previousCommit nextPhase nextCommit) :=
  inferInstanceAs (Decidable (_ ∧ _))

def validateCandidatePromotion (previous next : Record) : Except RecordError Unit :=
  let phasePreserved := previous.phase = next.phase
  let publishingCommitted := previous.phase = .publishing ∧ next.phase = .published
  refuse (next.commitState.code ≤ previous.commitState.code ∨
    next.stateGeneration ≠ previous.stateGeneration ∨
    previous.verifiedRanges ≠ next.verifiedRanges ∨
    ¬ phasePreserved ∧ ¬ publishingCommitted) (.generation "")

def validateStateCut (previous next : Record) : Except RecordError Unit :=
  if previous.commitState = .candidate then validateCandidatePromotion previous next
  else
    refuse (next.stateGeneration ≤ previous.stateGeneration ∨
      previous.verifiedRanges ≠ next.verifiedRanges ∨
      ¬ ValidLifecycleTransition previous.phase previous.commitState next.phase
        next.commitState) (.generation "")

def validateCheckpointCut (previous next : Record) : Except RecordError Unit :=
  refuse (previous.commitState ≠ .verified ∨
    next.checkpointGeneration ≠ previous.checkpointGeneration + 1 ∨
    next.stateGeneration ≠ previous.stateGeneration + 1 ∨
    (next.commitState ≠ .candidate ∧ next.commitState ≠ .verified) ∨
    next.phase ≠ previous.phase) (.generation "")

def validateGenerationCut (previous next : Record) : Except RecordError Unit :=
  if next.checkpointGeneration = previous.checkpointGeneration then validateStateCut previous next
  else validateCheckpointCut previous next

def validateTransition (env : Environment) (previous next : Record) :
    Except RecordError Unit := do
  previous.validate env
  next.validate env
  refuse (¬ IdentityEqual previous next) (.binding "")
  refuse (next.stateGeneration < previous.stateGeneration ∨
    next.checkpointGeneration < previous.checkpointGeneration) (.generation "")
  validateGenerationCut previous next
  refuse (previous.commitState = .published ∨ previous.phase = .published)
    (.generation "published record is immutable")
  refuse (¬ rangesContain next.verifiedRanges previous.verifiedRanges)
    (.generation "verified ranges regressed")

/-! ### Recovery -/

/-- The loop of `SelectVerified`; the zero record stands for no selection. -/
def selectVerifiedFrom (env : Environment) : Option Record → List Record →
    Except RecordError Record
  | none, [] => .error .recovery
  | some selected, [] => .ok selected
  | selected, candidate :: rest => do
      candidate.validate env
      if candidate.commitState ≠ .verified ∧ candidate.commitState ≠ .published then
        selectVerifiedFrom env selected rest
      else
        match selected with
        | none => selectVerifiedFrom env (some candidate) rest
        | some selected =>
          refuse (¬ IdentityEqual selected candidate) (.binding "")
          if candidate.checkpointGeneration > selected.checkpointGeneration then
            selectVerifiedFrom env (some candidate) rest
          else
            refuse (candidate.checkpointGeneration = selected.checkpointGeneration ∧
              candidate.canonicalPayload ≠ selected.canonicalPayload) .crashBoundary
            selectVerifiedFrom env (some selected) rest

def selectVerified (env : Environment) (records : List Record) : Except RecordError Record :=
  selectVerifiedFrom env none records

def recover (env : Environment) (committed candidate : Option Record) : Except RecordError Record :=
  match committed with
  | none => .error .recovery
  | some committed => do
      let _ ← selectVerified env [committed]
      match candidate with
      | none => return committed
      | some candidate =>
        if ¬ (candidate.validate env = .ok ()) ∨ ¬ IdentityEqual committed candidate then
          return committed
        else if candidate.commitState = .candidate then return committed
        else if candidate.checkpointGeneration < committed.checkpointGeneration then
          return committed
        else if candidate.checkpointGeneration = committed.checkpointGeneration ∧
            candidate.canonicalPayload ≠ committed.canonicalPayload then return committed
        else return candidate

end Windshare.Checkpoint
