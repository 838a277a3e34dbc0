import Windshare.Receiver.WebLedger

/-!
# The receive ledger of the Go endpoints

The model of the package `receiveledger`. Its counters are 64-bit words that wrap, its session
map is keyed by the wire id, and a receipt is a value that carries the received prefix. A
session token is a pointer to a flow, so it is the number of a cell; a number beyond the heap
stands for the empty token and for a token of another ledger.
-/

namespace Windshare.Receiver

open Windshare.Library

/-- `Counts`. -/
@[ext]
structure GoCounts where
  frames : UInt64
  encodedBytes : UInt64
deriving DecidableEq, Repr

namespace GoCounts

def zero : GoCounts := ⟨0, 0⟩

def add (a b : GoCounts) : GoCounts := ⟨a.frames + b.frames, a.encodedBytes + b.encodedBytes⟩

def subtract (a b : GoCounts) : GoCounts := ⟨a.frames - b.frames, a.encodedBytes - b.encodedBytes⟩

end GoCounts

def maxUint64 : UInt64 := 0xffffffffffffffff

inductive Phase where
  | active
  | retiring
  | draining
  | settled
deriving DecidableEq, Repr

abbrev SessionId := { id : WireId // id.length = sessionIdBytes }

/-- `flow`, with the fields of its `Progress`. -/
structure GoFlow where
  id : SessionId
  phase : Phase
  received : GoCounts
  consumed : GoCounts
  discarded : GoCounts
  consumedPrefix : GoCounts
  completed : GoCounts
  reported : GoCounts
  ackPending : Bool

namespace GoFlow

def new (id : SessionId) : GoFlow where
  id := id
  phase := .active
  received := .zero
  consumed := .zero
  discarded := .zero
  consumedPrefix := .zero
  completed := .zero
  reported := .zero
  ackPending := false

def enter (flow : GoFlow) (phase : Phase) (ackPending : Bool) : GoFlow :=
  { flow with phase := phase, ackPending := ackPending }

def receive (flow : GoFlow) (after : GoCounts) : GoFlow := { flow with received := after }

def report (flow : GoFlow) : GoFlow := { flow with reported := flow.consumedPrefix }

def discard (flow : GoFlow) (after size : GoCounts) : GoFlow :=
  { flow with completed := after, discarded := flow.discarded.add size }

def consume (flow : GoFlow) (after size : GoCounts) : GoFlow where
  id := flow.id
  phase := flow.phase
  received := flow.received
  consumed := flow.consumed.add size
  discarded := flow.discarded
  consumedPrefix := if flow.discarded.frames = 0 then after else flow.consumedPrefix
  completed := after
  reported := flow.reported
  ackPending := flow.ackPending

def unreported (flow : GoFlow) : Bool :=
  flow.phase ≠ .settled && flow.consumedPrefix ≠ flow.reported

end GoFlow

/-- `Receipt`. -/
structure GoReceipt where
  session : Ref
  before : GoCounts
  after : GoCounts
deriving DecidableEq, Repr

/-- `SettlementNotice`, `SettlementAck` and `DeliveryConsumed` carry the same totals. -/
structure GoTotals where
  relaySessionId : SessionId
  totalFrames : UInt64
  totalEncodedBytes : UInt64
deriving DecidableEq

/-- `Ledger`. -/
structure GoLedger where
  capacity : GoCounts
  maxSessions : Nat
  sessions : FiniteMap SessionId Ref
  order : List Ref
  flows : Heap GoFlow
  cursor : Nat
  held : GoCounts
  outstanding : GoCounts
  pendingConsumed : GoCounts
  retainedSessions : Nat
  closed : Bool

namespace GoLedger

def empty (capacity : GoCounts) (maxSessions : Nat) : GoLedger where
  capacity := capacity
  maxSessions := maxSessions
  sessions := .empty
  order := []
  flows := ⟨0, fun _ => .new ⟨List.replicate sessionIdBytes 0, List.length_replicate⟩⟩
  cursor := 0
  held := .zero
  outstanding := .zero
  pendingConsumed := .zero
  retainedSessions := 0
  closed := false

def new (capacity : GoCounts) (maxSessions : Nat) : Except ReceiveFailure GoLedger :=
  if maxSessions = 0 ∨ capacity.frames = 0 ∨ capacity.encodedBytes = 0 then .error .config
  else .ok (empty capacity maxSessions)

variable (l : GoLedger)

def flow (r : Ref) : GoFlow := l.flows.get r

def modifyFlow (r : Ref) (f : GoFlow → GoFlow) : GoLedger :=
  { l with flows := l.flows.modify r f }

def check (session : Ref) : Except ReceiveFailure Unit :=
  if l.closed then .error .closed
  else if l.flows.size ≤ session ∨ l.sessions.get? (l.flow session).id ≠ some session then
    .error .session
  else .ok ()

/-- Retain a new flow. -/
def addFlow (id : SessionId) : GoLedger :=
  { l with
    sessions := l.sessions.insert id l.flows.size
    order := l.order ++ [l.flows.size]
    flows := l.flows.alloc (.new id)
    retainedSessions := l.retainedSessions + 1 }

def openSession (id : SessionId) : GoLedger × Except ReceiveFailure Ref :=
  if l.closed then (l, .error .closed)
  else if id.val.all (· = 0) ∨ (l.sessions.get? id).isSome then (l, .error .session)
  else if l.sessions.size ≥ l.maxSessions then (l, .error .sessionLimit)
  else (l.addFlow id, .ok l.flows.size)

/-- Reserve the capacity of an envelope. -/
def charge (session : Ref) (size : GoCounts) : GoLedger :=
  { l.modifyFlow session (·.receive ((l.flow session).received.add size)) with
    held := l.held.add size
    outstanding := l.outstanding.add size }

def receive (session : Ref) (encodedBytes : UInt64) : GoLedger × Except ReceiveFailure GoReceipt :=
  match l.check session with
  | .error e => (l, .error e)
  | .ok () =>
    if (l.flow session).phase = .draining ∨ (l.flow session).phase = .settled then
      (l, .error .frozenPrefix)
    else if encodedBytes.toNat < minEnvelopeBytes ∨ encodedBytes.toNat > maxEnvelopeBytes then
      (l, .error .frameSize)
    else if (l.flow session).received.frames = maxUint64 ∨
        encodedBytes > maxUint64 - (l.flow session).received.encodedBytes then
      (l, .error .counterExhausted)
    else if l.outstanding.frames = l.capacity.frames ∨
        encodedBytes > l.capacity.encodedBytes - l.outstanding.encodedBytes then
      (l, .error .capacity)
    else
      (l.charge session ⟨1, encodedBytes⟩, .ok ⟨session, (l.flow session).received,
        (l.flow session).received.add ⟨1, encodedBytes⟩⟩)

/-- The effect of a completion. -/
def settle (session : Ref) (after size : GoCounts) : WebLedger.Completion → GoLedger
  | .discard => { l.modifyFlow session (·.discard after size) with held := l.held.subtract size }
  | .consume =>
    { l.modifyFlow session (·.consume after size) with
      held := l.held.subtract size
      pendingConsumed :=
        if (l.flow session).discarded.frames = 0 then l.pendingConsumed.add size
        else l.pendingConsumed }

def complete (receipt : GoReceipt) (action : WebLedger.Completion) :
    GoLedger × Except ReceiveFailure Unit :=
  match l.check receipt.session with
  | .error e => (l, .error e)
  | .ok () =>
    if receipt.before ≠ (l.flow receipt.session).completed ∨
        receipt.after.frames ≤ receipt.before.frames then (l, .error .receipt)
    else if action = .discard ∧ (l.flow receipt.session).phase = .active then
      (l, .error .retirement)
    else
      (l.settle receipt.session receipt.after (receipt.after.subtract receipt.before) action,
        .ok ())

def retire (session : Ref) : GoLedger × Except ReceiveFailure Unit :=
  match l.check session with
  | .error e => (l, .error e)
  | .ok () =>
    if (l.flow session).phase = .active then
      (l.modifyFlow session fun flow => flow.enter .retiring flow.ackPending, .ok ())
    else (l, .ok ())

def noticed (flow : GoFlow) : GoFlow :=
  flow.enter (if flow.phase ≠ .settled then .draining else flow.phase) true

def notice (session : Ref) (notice : GoTotals) : GoLedger × Except ReceiveFailure Unit :=
  match l.check session with
  | .error e => (l, .error e)
  | .ok () =>
    if notice.relaySessionId ≠ (l.flow session).id ∨
        notice.totalFrames ≠ (l.flow session).received.frames ∨
        notice.totalEncodedBytes ≠ (l.flow session).received.encodedBytes then
      (l, .error .settlement)
    else (l.modifyFlow session noticed, .ok ())

def feedbackReady : Bool := !l.closed && l.pendingConsumed.frames ≠ 0

/-- Report what the flow consumed. -/
def report (r : Ref) (cursor : Nat) : GoLedger :=
  { l.modifyFlow r (·.report) with
    outstanding := l.outstanding.subtract ((l.flow r).consumedPrefix.subtract (l.flow r).reported)
    pendingConsumed :=
      l.pendingConsumed.subtract ((l.flow r).consumedPrefix.subtract (l.flow r).reported)
    cursor := cursor }

def takeConsumed : GoLedger × Option GoTotals :=
  if l.feedbackReady = false then (l, none)
  else
    match Rotation.search l.order (fun r => (l.flow r).unreported) l.order.length l.cursor with
    | (cursor, none) => ({ l with cursor := cursor }, none)
    | (cursor, some r) =>
      (l.report r cursor, some ⟨(l.flow r).id, (l.flow r).consumedPrefix.frames,
        (l.flow r).consumedPrefix.encodedBytes⟩)

/-- Refund what the flow has not reported, unless it is settled. -/
def refund (r : Ref) : GoLedger :=
  if (l.flow r).phase ≠ .settled then
    { l with
      outstanding := l.outstanding.subtract ((l.flow r).received.subtract (l.flow r).reported)
      pendingConsumed :=
        l.pendingConsumed.subtract ((l.flow r).consumedPrefix.subtract (l.flow r).reported) }
  else l

def takeSettlement (session : Ref) : GoLedger × Option GoTotals :=
  match l.check session with
  | .error _ => (l, none)
  | .ok () =>
    if (l.flow session).ackPending = false ∨
        (l.flow session).completed ≠ (l.flow session).received then (l, none)
    else
      ((l.refund session).modifyFlow session (·.enter .settled false),
        some ⟨(l.flow session).id, (l.flow session).received.frames,
          (l.flow session).received.encodedBytes⟩)

/-- The cursor after the flow at `index` was taken out of the order. -/
def cursorAfter (cursor index length : Nat) : Nat :=
  if (if cursor > index then cursor - 1 else cursor) ≥ length then 0
  else if cursor > index then cursor - 1 else cursor

/-- Delete the flow. The loop over the order stops at it. -/
def remove (session : Ref) : GoLedger :=
  let index := l.order.idxOf session
  { l with
    sessions := l.sessions.erase (l.flow session).id
    order := l.order.eraseIdx index
    cursor :=
      if index < l.order.length then cursorAfter l.cursor index (l.order.eraseIdx index).length
      else l.cursor
    retainedSessions := l.retainedSessions - 1 }

def forget (session : Ref) : GoLedger × Except ReceiveFailure Unit :=
  match l.check session with
  | .error e => (l, .error e)
  | .ok () =>
    if (l.flow session).phase ≠ .settled ∨ (l.flow session).ackPending then
      (l, .error .settlementPending)
    else (l.remove session, .ok ())

def close : GoLedger := { l with closed := true }

end GoLedger

end Windshare.Receiver
