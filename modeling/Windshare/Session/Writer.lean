import Windshare.Library.Heap
import Windshare.Library.Transition
import Windshare.Operation.Message

/-!
# The session writer

The model of `SessionWriter` in `writer.ts`. Between two awaits the code runs undisturbed, so a
step is a method call, a timer, or one resumption of a `#drain` call: by its seal, by its send,
or by the `finally` of `#run` once it has returned. Items are cells of a heap in the order of
their acceptance. Traces, error texts and `#onFailure` are left out.
-/

namespace Windshare.Session

open Windshare.Library Windshare.Operation

inductive OutboundPriority where
  | control
  | data
  | terminal
deriving DecidableEq, Repr

inductive OutboundPhase where
  | queued
  | sealing
  | sending
  | sent
  | withdrawn
  | failed
deriving DecidableEq, Repr

/-- How a completion promise is settled. -/
inductive Settlement where
  | resolved
  | rejected
deriving DecidableEq, Repr

/-- `OutboundItem`, with the state of its completion promise. -/
structure OutboundItem where
  kind : MessageKind
  operationId : Option OperationID
  priority : OutboundPriority
  phase : OutboundPhase
  abandoned : Bool
  completion : Option Settlement
deriving DecidableEq

namespace OutboundItem

/-- A promise ignores all but the first settlement. -/
def settle (item : OutboundItem) (outcome : Settlement) : OutboundItem :=
  if item.completion = none then { item with completion := some outcome } else item

def enter (item : OutboundItem) (phase : OutboundPhase) : OutboundItem := { item with phase }

end OutboundItem

/-- Where a call of `#drain` waits. -/
inductive Drain where
  | sealing (item : Ref)
  | sending (item : Ref)
  | returned
deriving DecidableEq, Repr

/-- The item of the iteration. -/
def Drain.item : Drain → Option Ref
  | .sealing item => some item
  | .sending item => some item
  | .returned => none

/-- `SessionWriter`. The calls of `#drain` that are not over, the items whose sealing began and
those whose frames the channel was given are added. -/
structure SessionWriter where
  items : Heap OutboundItem
  control : List Ref
  data : List Ref
  active : Option Ref
  deliveryTimer : Bool
  running : Bool
  terminal : Bool
  aborted : Bool
  drains : List Drain
  sealings : List Ref
  handed : List Ref

/-- The answers of `cancel`. -/
inductive Cancellation where
  | withdrawn
  | committed
deriving DecidableEq, Repr

def sessionControlQueue : Nat := 256

def sessionDataQueue : Nat := 32

namespace SessionWriter

def new : SessionWriter where
  items := ⟨0, fun _ => ⟨.cancel, none, .control, .queued, false, none⟩⟩
  control := []
  data := []
  active := none
  deliveryTimer := false
  running := false
  terminal := false
  aborted := false
  drains := []
  sealings := []
  handed := []

variable (w : SessionWriter) (k : Nat) (i : Ref)

def fail : SessionWriter :=
  if w.aborted then w
  else
    let items := w.active.toList ++ (w.control ++ w.data)
    { w with
      aborted := true
      deliveryTimer := false
      control := []
      data := []
      items := items.foldl
        (fun heap i => heap.modify i fun item => (item.enter .failed).settle .rejected) w.items }

/-- The `finally` of an iteration, and a `return` from `#drain` unless its loop goes on. -/
def leave : SessionWriter :=
  { w with active := none, deliveryTimer := false, drains := w.drains.set k .returned }

/-- An iteration of `#drain` up to its first await. -/
def start : SessionWriter :=
  { w with
    active := some i
    deliveryTimer := true
    items := w.items.modify i (·.enter .sealing)
    drains := w.drains.set k (.sealing i)
    sealings := w.sealings ++ [i] }

/-- The head of the loop of `#drain`. -/
def loop : SessionWriter :=
  if w.aborted then w
  else
    match w.control, w.data with
    | i :: rest, _ => { w with control := rest }.start k i
    | [], i :: rest => { w with data := rest }.start k i
    | [], [] => w

def run : SessionWriter :=
  if w.running then w
  else { w with running := true, drains := w.drains ++ [Drain.returned] }.loop w.drains.length

/-- A call of `#drain` goes on: its promise was fulfilled or, unless `ok`, rejected. A failure
retires the writer, which does nothing if it has failed before. -/
def resume (ok : Bool) : SessionWriter :=
  match w.drains[k]? with
  | none => w
  | some (.sealing i) =>
    if ok ∧ !w.aborted then
      { w with
        items := w.items.modify i (·.enter .sending)
        drains := w.drains.set k (.sending i)
        handed := w.handed ++ [i] }
    else w.fail.leave k
  | some (.sending i) =>
    if ok ∧ !w.aborted then
      ({ w with items := w.items.modify i fun item => (item.enter .sent).settle .resolved }.leave
        k).loop k
    else w.fail.leave k
  | some .returned =>
    let w := { w with running := false, drains := w.drains.eraseIdx k }
    if w.control ≠ [] ∨ w.data ≠ [] then w.run else w

/-- The errors of `enqueue`. -/
inductive EnqueueError where
  | aborted
  | acceptedTerminal
  | queueFull
deriving DecidableEq, Repr

def isFull : OutboundPriority → Bool
  | .data => w.data.length ≥ sessionDataQueue
  | _ => w.control.length ≥ sessionControlQueue

def push (priority : OutboundPriority) (item : OutboundItem) : SessionWriter :=
  { w with
    items := w.items.alloc item
    control := if priority = .data then w.control else w.control ++ [w.items.size]
    data := if priority = .data then w.data ++ [w.items.size] else w.data
    terminal := w.terminal || priority == .terminal }

def enqueue (kind : MessageKind) (operationId : Option OperationID)
    (priority : OutboundPriority) : SessionWriter × Except EnqueueError Ref :=
  if w.aborted then (w, .error .aborted)
  else if w.terminal then (w, .error .acceptedTerminal)
  else if w.isFull priority then (w, .error .queueFull)
  else
    ((w.push priority ⟨kind, operationId, priority, .queued, false, none⟩).run, .ok w.items.size)

/-- An item that is still queued is taken out. -/
def withdraw : SessionWriter :=
  { w with
    control := if (w.items.get i).priority = .data then w.control else w.control.erase i
    data := if (w.items.get i).priority = .data then w.data.erase i else w.data
    items := w.items.modify i fun item => (item.enter .withdrawn).settle .rejected
    terminal := w.terminal && (w.items.get i).priority != .terminal }

def cancel : SessionWriter × Cancellation :=
  let item := w.items.get i
  match item.phase with
  | .withdrawn => (w, .withdrawn)
  | .queued => (w.withdraw i, .withdrawn)
  | phase =>
    if !item.abandoned ∧ phase ≠ .sent ∧ phase ≠ .failed then
      ({ w with
          items := w.items.modify i fun item =>
            { item with abandoned := true }.settle .rejected },
        .committed)
    else (w, .committed)

def cancelPendingMessages (operationId : OperationID) : SessionWriter :=
  (w.active.toList ++ (w.control ++ w.data)).foldl (fun v i =>
    if (w.items.get i).kind ≠ .cancel ∧ (w.items.get i).operationId = some operationId then
      (v.cancel i).1 else v) w

/-- What happens next. A caller can cancel what was accepted. -/
inductive Action where
  | enqueue (kind : MessageKind) (operationId : Option OperationID) (priority : OutboundPriority)
  | cancel (i : Ref)
  | cancelPendingMessages (operationId : OperationID)
  | resume (k : Nat) (ok : Bool)
  | timeout
  | fail

/-- The writer after a step. -/
def act : Action → SessionWriter
  | .enqueue kind operationId priority => (w.enqueue kind operationId priority).1
  | .cancel i => if i < w.items.size then (w.cancel i).1 else w
  | .cancelPendingMessages operationId => w.cancelPendingMessages operationId
  | .resume k ok => w.resume k ok
  | .timeout => if w.deliveryTimer then w.fail else w
  | .fail => w.fail

/-- Every run of a writer. -/
def system : System SessionWriter Action := .ofFunction (· = new) act

end SessionWriter

end Windshare.Session
