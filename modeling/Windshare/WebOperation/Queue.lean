import Windshare.WebOperation.Authority

/-!
# The response queue of an operation

An operation's queue hands authenticated messages to the readers that wait, or keeps them for the
next reader. What the queues of a session keep is charged to counters that they share, and
returned when a message is read or thrown away.

The authority's answers are inputs, so every answer is possible at any time. Promises are the
effects of a call: each `next` is a reader, which is resolved or rejected. Trace observers are
left out.
-/

namespace Windshare.WebOperation

open Windshare.Library Windshare.Protocol Windshare.Session Windshare.Operation

structure SessionMessage where
  message : Message
  plaintext : List UInt8
  data : Bool
deriving DecidableEq

def sessionOperationResponseQueue : Nat := 512

def sessionControlBacklog : Nat := 256

def sessionDataBacklog : Nat := 1024

/-- `SESSION_PLAINTEXT_BACKLOG_BYTES`: the budget without the block cache and the reassemblies. -/
def sessionPlaintextBacklogBytes : Nat :=
  128 * 1024 * 1024 - 64 * 1024 * 1024 - 8 * 4 * 1024 * 1024

/-! ### Admission -/

/-- The counters of the admission. -/
inductive Counter where
  | control
  | data
  | plaintextBytes
deriving DecidableEq, Repr

abbrev SessionQueueAdmission := Counter → Int

/-- What a message adds to each counter. -/
def SessionMessage.cost (m : SessionMessage) : SessionQueueAdmission
  | .control => if m.data then 0 else 1
  | .data => if m.data then 1 else 0
  | .plaintextBytes => m.plaintext.length

namespace SessionQueueAdmission

/-- `charge`, which throws before it counts the message. -/
def charge (a : SessionQueueAdmission) (m : SessionMessage) : Option SessionQueueAdmission :=
  let next := a + m.cost
  if next .control > sessionControlBacklog ∨ next .data > sessionDataBacklog ∨
      next .plaintextBytes > sessionPlaintextBacklogBytes then none
  else some next

/-- Some counter is below zero. -/
def Underflowed (a : SessionQueueAdmission) : Prop :=
  a .control < 0 ∨ a .data < 0 ∨ a .plaintextBytes < 0

instance (a : SessionQueueAdmission) : Decidable a.Underflowed :=
  inferInstanceAs (Decidable (_ ∨ _ ∨ _))

/-- `release`, which throws after it returned the message, when a counter underflows. -/
def release (a : SessionQueueAdmission) (m : SessionMessage) : SessionQueueAdmission × Bool :=
  let next := a - m.cost
  (next, decide (next.Underflowed))

end SessionQueueAdmission

/-! ### The queue -/

/-- What a call does besides changing the queue. -/
inductive Effect where
  | admitted (m : SessionMessage)
  | charged (m : SessionMessage)
  | released (m : SessionMessage)
  | resolved (reader : Nat) (m : SessionMessage)
  | rejected (reader : Nat)
deriving DecidableEq

/-- A reason that is not `undefined`; `session` says whether it is a session failure. -/
structure Reason where
  session : Bool
deriving DecidableEq, Repr

/-- `ProtocolOperationSettlement`. -/
inductive Settlement where
  | remoteFinal
  | localCancel
  | sessionTerminal
deriving DecidableEq, Repr

/-- Which set of the router holds the operation. -/
inductive Place where
  | operations
  | draining
  | released
deriving DecidableEq, Repr

/-- What the push in progress awaits. -/
inductive PushStage where
  | reserve
  | acceptLate
deriving DecidableEq, Repr

/-- `OperationQueue`. `pushes` are the calls that wait for the tail. -/
structure OperationQueue where
  messages : List SessionMessage
  readers : List Nat
  pushes : List SessionMessage
  pushing : Option (PushStage × SessionMessage)
  failure : Option Reason
  closed : Bool
  settlement : Option Settlement
  consumerSettled : Bool
  place : Place

/-- A call that ended: the queue, the counters, the effects in order, and whether it threw. -/
structure Call where
  queue : OperationQueue
  admission : SessionQueueAdmission
  effects : List Effect
  thrown : Bool

def releaseAll (a : SessionQueueAdmission) :
    List SessionMessage → SessionQueueAdmission × List Effect × Bool
  | [] => (a, [], false)
  | m :: ms =>
    if (a.release m).2 then ((a.release m).1, [.released m], true)
    else
      let rest := releaseAll (a.release m).1 ms
      (rest.1, .released m :: rest.2.1, rest.2.2)

namespace OperationQueue

variable (q : OperationQueue) (a : SessionQueueAdmission)

def new : OperationQueue := ⟨[], [], [], none, none, false, none, false, .operations⟩

/-- No message is delivered any more. -/
def Ended : Prop := q.closed = true ∨ q.failure.isSome = true

instance : Decidable q.Ended := inferInstanceAs (Decidable (_ ∨ _))

/-- `#settleConsumer`, after which the operation does not drain any more. -/
def settleConsumer : OperationQueue :=
  if q.consumerSettled then q else { q with consumerSettled := true, place := .released }

/-- `#settle`; the router lets the operation drain. -/
def settle (acceptLateNonterminal : Bool) (settlement : Settlement) : OperationQueue :=
  let q := { q with settlement := some settlement, place := .draining }
  if acceptLateNonterminal ∨ q.messages = [] then q.settleConsumer else q

def clearMessages (rest : OperationQueue → OperationQueue × List Effect) : Call :=
  let cleared := releaseAll a q.messages
  let q := { q with messages := [] }
  if cleared.2.2 then ⟨q, cleared.1, cleared.2.1, true⟩
  else ⟨(rest q).1, cleared.1, cleared.2.1 ++ (rest q).2, false⟩

/-- Every reader is rejected before the rest of a call. -/
def rejectReaders (rest : OperationQueue → OperationQueue) : OperationQueue × List Effect :=
  (rest { q with readers := [] }, q.readers.map .rejected)

def rejectConsumer (reason : Option Reason) (settlement : Settlement) : Call :=
  if q.closed then { q with failure := reason }.clearMessages a (·.rejectReaders settleConsumer)
  else
    { q with failure := reason, closed := true }.clearMessages a
      (·.rejectReaders (·.settle true settlement))

def fail (reason : Option Reason) : Call :=
  if q.failure.isSome ∧ q.consumerSettled then ⟨q, a, [], false⟩
  else
    q.rejectConsumer a reason (if reason.any Reason.session then .sessionTerminal else .localCancel)

def cancel (cause : Option Reason) : Call :=
  if q.failure.isSome ∧ q.consumerSettled then ⟨q, a, [], false⟩
  else q.rejectConsumer a cause .localCancel

def finish (acceptLateNonterminal : Bool) : Call :=
  if q.closed then ⟨q, a, [], false⟩
  else if acceptLateNonterminal then
    { q with closed := true }.clearMessages a (·.rejectReaders (·.settle true .localCancel))
  else
    let rejected := { q with closed := true }.rejectReaders (·.settle false .remoteFinal)
    ⟨rejected.1, a, rejected.2, false⟩

def close : Call :=
  if q.closed then q.clearMessages a fun q => (q.settleConsumer, []) else q.finish a true

def endInput (reason : Option Reason) : Call :=
  if q.closed then ⟨q, a, [], false⟩
  else
    let rejected := { q with closed := true, failure := reason }.rejectReaders
      (·.settle false .localCancel)
    ⟨rejected.1, a, rejected.2, false⟩

def next (reader : Nat) : Call :=
  match q.messages with
  | m :: messages =>
    let q := { q with messages }
    if (SessionQueueAdmission.release a m).2 then
      ⟨q, (SessionQueueAdmission.release a m).1, [.released m], true⟩
    else
      ⟨if q.closed ∧ messages = [] then q.settleConsumer else q,
        (SessionQueueAdmission.release a m).1, [.released m, .resolved reader m], false⟩
  | [] =>
    if q.Ended then ⟨q, a, [.rejected reader], false⟩
    else ⟨{ q with readers := q.readers ++ [reader] }, a, [], false⟩

/-- The signal of a reader that waits is aborted. -/
def abort (reader : Nat) : Call :=
  if reader ∈ q.readers then
    ⟨{ q with readers := q.readers.erase reader }, a, [.rejected reader], false⟩
  else ⟨q, a, [], false⟩

/-! ### Pushing -/

def push (m : SessionMessage) : OperationQueue := { q with pushes := q.pushes ++ [m] }

/-- `#push` until it awaits the authority. -/
def startPush : OperationQueue :=
  match q.pushing, q.pushes with
  | none, m :: pushes =>
    { q with pushes, pushing := some (if q.Ended then .acceptLate else .reserve, m) }
  | _, _ => q

def endPush : OperationQueue := { q with pushing := none }

/-- `#push` after the router has seen the message. -/
def deliver (m : SessionMessage) (final : Bool) : Call :=
  match q.readers with
  | reader :: readers =>
    let q := { q with readers }
    let done := if final then q.finish a false else ⟨q, a, [], false⟩
    { done with effects := [.admitted m, .resolved reader m] ++ done.effects }
  | [] =>
    if q.messages.length ≥ sessionOperationResponseQueue then ⟨q, a, [], true⟩
    else
      match SessionQueueAdmission.charge a m with
      | none => ⟨q, a, [], true⟩
      | some a =>
        let q := { q with messages := q.messages ++ [m] }
        let done := if final then q.finish a false else ⟨q, a, [], false⟩
        { done with effects := [.charged m, .admitted m] ++ done.effects }

end OperationQueue

/-- The authority's answer to a reservation. -/
inductive Answer where
  | drop
  | violation
  | deliver (final : Bool)
deriving DecidableEq, Repr

/-- What the router does with a message before it is delivered. -/
inductive Authenticated where
  | passes
  | throws
  | terminates
deriving DecidableEq, Repr

/-- The codes that `peerFailureScope` takes as the end of the session. -/
def isSessionTerminalPeerCode (code : Nat) : Bool := code = 0x500a ∨ code = 0x500b

/-- The router's `onAuthenticatedMessage`. -/
def onAuthenticatedMessage (package : PackageDecoder) (nfc : String → Bool) (m : Message) :
    Authenticated :=
  if m.kind = .operationError then
    match decodeOperationErrorControl package nfc m.body with
    | .error _ => .throws
    | .ok failure =>
      if failure.scope = .peer ∧ isSessionTerminalPeerCode failure.code then .terminates
      else .passes
  else .passes

end Windshare.WebOperation
