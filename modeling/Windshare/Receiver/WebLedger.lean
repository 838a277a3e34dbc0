import Windshare.Library.FiniteMap
import Windshare.Library.Heap
import Windshare.Library.Rotation
import Windshare.Receiver.Counts

/-!
# The receive ledger of the web client

The model of `RelayReceiveLedger`. Flows and receipts are objects, so a flow is a cell of a
heap, and the session and receipt tokens that the ledger hands out name cells. The observer
and the payload storage are left out: the ledger never reads them.
-/

namespace Windshare.Receiver

open Windshare.Library

inductive SettlementState where
  | active
  | retiring
  | draining
  | settled (ackPending : Bool)
deriving DecidableEq, Repr

def SettlementState.isSettled : SettlementState → Bool
  | .settled _ => true
  | _ => false

abbrev WireId := List UInt8

def sessionIdBytes : Nat := 8

structure Flow where
  wireId : WireId
  state : SettlementState
  received : ReceiveCounts
  consumed : ReceiveCounts
  discarded : ReceiveCounts
  consumedPrefix : ReceiveCounts
  completed : ReceiveCounts
  reported : ReceiveCounts
deriving DecidableEq, Repr

namespace Flow

def new (wireId : WireId) : Flow where
  wireId := wireId
  state := .active
  received := .zero
  consumed := .zero
  discarded := .zero
  consumedPrefix := .zero
  completed := .zero
  reported := .zero

def enter (flow : Flow) (state : SettlementState) : Flow := { flow with state := state }

def receive (flow : Flow) (after : ReceiveCounts) : Flow := { flow with received := after }

def report (flow : Flow) : Flow := { flow with reported := flow.consumedPrefix }

/-- The next envelope was discarded. -/
def discard (flow : Flow) (after size : ReceiveCounts) : Flow :=
  { flow with completed := after, discarded := flow.discarded.add size }

/-- The next envelope was consumed. Behind a discarded one it does not extend the prefix. -/
def consume (flow : Flow) (after size : ReceiveCounts) : Flow where
  wireId := flow.wireId
  state := flow.state
  received := flow.received
  consumed := flow.consumed.add size
  discarded := flow.discarded
  consumedPrefix := if flow.discarded.frames = 0 then after else flow.consumedPrefix
  completed := after
  reported := flow.reported

/-- The flow has consumption that was not reported. -/
def unreported (flow : Flow) : Bool :=
  !flow.state.isSettled && flow.consumedPrefix ≠ flow.reported

end Flow

/-- `ReceiptPrefix`; the session is the token that `open` returned. -/
structure ReceiptPrefix where
  session : Ref
  before : ReceiveCounts
  after : ReceiveCounts
deriving DecidableEq, Repr

/-- `RelayDeliveryConsumed` and `RelaySettlementAck` carry the same totals. -/
structure Totals where
  relaySessionId : WireId
  frames : Int
  encodedBytes : Int
deriving DecidableEq, Repr

/-- `RelayReceiveLedger`. -/
structure WebLedger where
  capacity : ReceiveCounts
  maxSessions : Nat
  sessions : FiniteMap Ref Ref
  wireSessions : List WireId
  order : List Ref
  receipts : Heap ReceiptPrefix
  flows : Heap Flow
  held : ReceiveCounts
  outstanding : ReceiveCounts
  pendingConsumed : ReceiveCounts
  cursor : Nat
  closed : Bool

namespace WebLedger

/-- `positiveUint64` in both dimensions. -/
def validCapacity (capacity : ReceiveCounts) : Bool :=
  0 < capacity.frames && 0 < capacity.encodedBytes && capacity.within maxCounts

def empty (capacity : ReceiveCounts) (maxSessions : Nat) : WebLedger where
  capacity := capacity
  maxSessions := maxSessions
  sessions := .empty
  wireSessions := []
  order := []
  receipts := ⟨0, fun _ => ⟨0, .zero, .zero⟩⟩
  flows := ⟨0, fun _ => .new (List.replicate sessionIdBytes 0)⟩
  held := .zero
  outstanding := .zero
  pendingConsumed := .zero
  cursor := 0
  closed := false

/-- The constructor. `Number.isSafeInteger` bounds the session limit. -/
def new (capacity : ReceiveCounts) (maxSessions : Nat) : Except ReceiveFailure WebLedger :=
  if maxSessions = 0 ∨ 2 ^ 53 ≤ maxSessions ∨ validCapacity capacity = false then .error .config
  else .ok (empty capacity maxSessions)

variable (l : WebLedger)

def flow (r : Ref) : Flow := l.flows.get r

def modifyFlow (r : Ref) (f : Flow → Flow) : WebLedger := { l with flows := l.flows.modify r f }

def check (session : Ref) : Except ReceiveFailure Ref :=
  if l.closed then .error .closed
  else
    match l.sessions.get? session with
    | none => .error .session
    | some r => .ok r

/-- Retain a new flow. -/
def addFlow (wireId : WireId) : WebLedger :=
  { l with
    sessions := l.sessions.insert l.flows.size l.flows.size
    wireSessions := wireId :: l.wireSessions
    order := l.order ++ [l.flows.size]
    flows := l.flows.alloc (.new wireId) }

/-- `open`. The token is the number of the new cell. -/
def openSession (wireId : WireId) : WebLedger × Except ReceiveFailure Ref :=
  if l.closed then (l, .error .closed)
  else if wireId.length ≠ sessionIdBytes ∨ wireId.all (· = 0) then (l, .error .session)
  else if wireId ∈ l.wireSessions then (l, .error .session)
  else if l.sessions.size ≥ l.maxSessions then (l, .error .sessionLimit)
  else (l.addFlow wireId, .ok l.flows.size)

/-- Charge an envelope of the flow and hand out its receipt. -/
def charge (session r : Ref) (after size : ReceiveCounts) : WebLedger :=
  { l.modifyFlow r (·.receive after) with
    receipts := l.receipts.alloc ⟨session, (l.flow r).received, after⟩
    held := l.held.add size
    outstanding := l.outstanding.add size }

def receive (session : Ref) (encodedBytes : Nat) : WebLedger × Except ReceiveFailure Ref :=
  match l.check session with
  | .error e => (l, .error e)
  | .ok r =>
    if (l.flow r).state = .draining ∨ (l.flow r).state.isSettled then (l, .error .frozenPrefix)
    else
      match appendEnvelope (l.flow r).received encodedBytes with
      | .error e => (l, .error e)
      | .ok after =>
        if (l.outstanding.add (after.sub (l.flow r).received)).within l.capacity = false then
          (l, .error .capacity)
        else
          (l.charge session r after (after.sub (l.flow r).received), .ok l.receipts.size)

inductive Completion where
  | consume
  | discard
deriving DecidableEq, Repr

/-- The effect of a completion. -/
def settle (r : Ref) (after size : ReceiveCounts) : Completion → WebLedger
  | .discard => { l.modifyFlow r (·.discard after size) with held := l.held.sub size }
  | .consume =>
    { l.modifyFlow r (·.consume after size) with
      held := l.held.sub size
      pendingConsumed :=
        if (l.flow r).discarded.frames = 0 then l.pendingConsumed.add size
        else l.pendingConsumed }

/-- The receipt is checked against what the flow completed. -/
def completeFlow (receipt : ReceiptPrefix) (r : Ref) (action : Completion) :
    WebLedger × Except ReceiveFailure Unit :=
  if receipt.before ≠ (l.flow r).completed then (l, .error .receipt)
  else if action = .discard ∧ (l.flow r).state = .active then (l, .error .retirement)
  else (l.settle r receipt.after (receipt.after.sub receipt.before) action, .ok ())

def complete (receipt : Ref) (action : Completion) : WebLedger × Except ReceiveFailure Unit :=
  if l.closed then (l, .error .closed)
  else if l.receipts.size ≤ receipt then (l, .error .receipt)
  else
    match l.check (l.receipts.get receipt).session with
    | .error e => (l, .error e)
    | .ok r => l.completeFlow (l.receipts.get receipt) r action

def retire (session : Ref) : WebLedger × Except ReceiveFailure Unit :=
  match l.check session with
  | .error e => (l, .error e)
  | .ok r =>
    if (l.flow r).state = .active then (l.modifyFlow r (·.enter .retiring), .ok ())
    else (l, .ok ())

def noticed (state : SettlementState) : SettlementState :=
  if state.isSettled then .settled true else .draining

def notice (session : Ref) (notice : Totals) : WebLedger × Except ReceiveFailure Unit :=
  match l.check session with
  | .error e => (l, .error e)
  | .ok r =>
    if notice.relaySessionId ≠ (l.flow r).wireId ∨ notice.frames ≠ (l.flow r).received.frames ∨
        notice.encodedBytes ≠ (l.flow r).received.encodedBytes then (l, .error .settlement)
    else (l.modifyFlow r fun flow => flow.enter (noticed flow.state), .ok ())

def feedbackReady : Bool := !l.closed && l.pendingConsumed.frames ≠ 0

/-- Report what the flow consumed. -/
def report (r : Ref) (cursor : Nat) : WebLedger :=
  { l.modifyFlow r (·.report) with
    outstanding := l.outstanding.sub ((l.flow r).consumedPrefix.sub (l.flow r).reported)
    pendingConsumed := l.pendingConsumed.sub ((l.flow r).consumedPrefix.sub (l.flow r).reported)
    cursor := cursor }

/-- The loop of `takeConsumed`: the first flow from the cursor on that has unreported
consumption is reported. -/
def takeFlow : WebLedger × Option Ref :=
  if l.feedbackReady = false then (l, none)
  else
    match Rotation.search l.order (fun r => (l.flow r).unreported) l.order.length l.cursor with
    | (cursor, none) => ({ l with cursor := cursor }, none)
    | (cursor, some r) => (l.report r cursor, some r)

def takeConsumed : WebLedger × Option Totals :=
  (l.takeFlow.1, l.takeFlow.2.map fun r => ⟨(l.flow r).wireId, (l.flow r).consumedPrefix.frames,
    (l.flow r).consumedPrefix.encodedBytes⟩)

/-- Refund what a draining flow has not reported. -/
def refund (r : Ref) : WebLedger :=
  { l with
    outstanding := l.outstanding.sub ((l.flow r).received.sub (l.flow r).reported)
    pendingConsumed := l.pendingConsumed.sub ((l.flow r).consumedPrefix.sub (l.flow r).reported) }

/-- The acknowledgement of a flow, when it is due. -/
def acknowledge (r : Ref) : WebLedger × Option Totals :=
  if (l.flow r).completed ≠ (l.flow r).received then (l, none)
  else
    match (l.flow r).state with
    | .active => (l, none)
    | .retiring => (l, none)
    | .settled false => (l, none)
    | .settled true =>
      (l.modifyFlow r (·.enter (.settled false)), some ⟨(l.flow r).wireId,
        (l.flow r).received.frames, (l.flow r).received.encodedBytes⟩)
    | .draining =>
      ((l.refund r).modifyFlow r (·.enter (.settled false)), some ⟨(l.flow r).wireId,
        (l.flow r).received.frames, (l.flow r).received.encodedBytes⟩)

def takeSettlement (session : Ref) : WebLedger × Option Totals :=
  match l.check session with
  | .error _ => (l, none)
  | .ok r => l.acknowledge r

/-- The cursor after the flow at `index` was removed from an order of length `length + 1`. -/
def cursorAfter (cursor index length : Nat) : Nat :=
  if (if cursor > index then cursor - 1 else cursor) ≥ length then 0
  else if cursor > index then cursor - 1 else cursor

/-- Delete the flow. A retained flow is in the order. -/
def remove (session r : Ref) : WebLedger :=
  { l with
    sessions := l.sessions.erase session
    wireSessions := l.wireSessions.filter (· ≠ (l.flow r).wireId)
    order := l.order.eraseIdx (l.order.idxOf r)
    cursor := cursorAfter l.cursor (l.order.idxOf r) (l.order.eraseIdx (l.order.idxOf r)).length }

def forget (session : Ref) : WebLedger × Except ReceiveFailure Unit :=
  match l.check session with
  | .error e => (l, .error e)
  | .ok r =>
    if (l.flow r).state ≠ .settled false then (l, .error .settlementPending)
    else (l.remove session r, .ok ())

def close : WebLedger := { l with closed := true }

end WebLedger

end Windshare.Receiver
