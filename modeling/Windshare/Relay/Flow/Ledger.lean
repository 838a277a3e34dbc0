import Mathlib.Data.List.MinMax
import Windshare.Library.Slots
import Windshare.Library.Transaction
import Windshare.Relay.Flow.Counts
import Windshare.Relay.Identity

/-!
# The delivery ledger of a connection

`ConnectionLedger` accounts for everything the relay owes one destination: credit granted
to sources, payload received and not submitted, payload submitted and not consumed. Each
operation is a transaction on the ledger, with the statements of the source in their
order. Checked arithmetic, slot indices and debug assertions panic where the source would.
The diagnostic observer and the checkpoint flag are left out.
-/

namespace Windshare.Relay.Flow

open Windshare.Library

/-! ### Accounting -/

structure Usage where
  granted : Counts
  received : Counts
  submitted : Counts
deriving DecidableEq, Repr

namespace Usage

/-- `Usage::default`. -/
def zero : Usage := ⟨.zero, .zero, .zero⟩

def total (u : Usage) : Option Counts := do
  let retained ← u.granted.add u.received
  retained.add u.submitted

def replace (u before after : Usage) : Option Usage := do
  let granted ← (← u.granted.sub before.granted).add after.granted
  let received ← (← u.received.sub before.received).add after.received
  let submitted ← (← u.submitted.sub before.submitted).add after.submitted
  return { granted, received, submitted }

end Usage

/-- A `Duration` in nanoseconds. -/
abbrev Duration := Nat

/-- `saturating_add` of a duration, in whole milliseconds. -/
def deadlineAfter (now : UnixMillis) (d : Duration) : UnixMillis :=
  now.saturatingAdd (d / 1000000)

/-- `Limits` as `Limits::new` accepts them. -/
structure Limits where
  total : Counts
  startupReserve : Counts
  startupGrant : Counts
  settlementTimeout : Duration
  startup_frames : startupGrant.frames ≠ 0
  startup_bytes : maxEncodedBytes ≤ startupGrant.amount .encodedBytes
  total_covers : total.covers startupReserve
  reserve_covers : startupReserve.covers startupGrant
  timeout_pos : settlementTimeout ≠ 0

/-- `ReceiveCapacity`: positive bounds declared by the peer. -/
structure ReceiveCapacity where
  counts : Counts
  positive : counts.frames ≠ 0 ∧ counts.encodedBytes ≠ 0
deriving DecidableEq

/-! ### Deliveries -/

structure FlowKey where
  slot : Nat
  permit : ForwardPermit
deriving DecidableEq, Repr

namespace FlowKey

def session (flow : FlowKey) : SessionKey := flow.permit.session

def destination (flow : FlowKey) : ConnectionRef := flow.permit.destination

end FlowKey

structure Grant where
  flow : FlowKey
  credit : Counts
deriving DecidableEq, Repr

/-- `OpaqueHeader`, the routing metadata of a complete envelope. -/
structure OpaqueHeader where
  session : RelaySessionId
  encodedBytes : UInt64
  bounds : minEncodedBytes ≤ encodedBytes.toNat ∧ encodedBytes.toNat ≤ maxEncodedBytes

/-- `ReceivedFrame`, the receipt of one accepted frame. -/
structure ReceivedFrame where
  flow : FlowKey
  ordinal : UInt64
  encodedBytes : UInt64
deriving DecidableEq, Repr

/-- `Settlement`, the ordered retirement notice. -/
structure Settlement where
  flow : FlowKey
  submitted : Counts
deriving DecidableEq, Repr

/-- `delivery::State`. -/
inductive State where
  | opened
  | discarding (deadline : UnixMillis)
  | settling (deadline : UnixMillis)
deriving DecidableEq, Repr

/-- `Delivery`, one direction of one session. -/
structure Delivery where
  key : FlowKey
  startup : Counts
  granted : Counts
  received : Counts
  submitted : Counts
  consumed : Counts
  state : State
deriving DecidableEq, Repr

namespace Delivery

variable (e : Delivery)

def new (key : FlowKey) (credit startup : Counts) : Delivery where
  key := key
  startup := startup
  granted := credit
  received := .zero
  submitted := .zero
  consumed := .zero
  state := .opened

def deadline : Option UnixMillis :=
  match e.state with
  | .opened => none
  | .discarding deadline => some deadline
  | .settling deadline => some deadline

def usage : Option Usage := do
  let granted ← if e.state = .opened then e.granted.sub e.received else some .zero
  let received ←
    match e.state with
    | .settling _ => some .zero
    | _ => e.received.sub e.submitted
  let submitted ← e.submitted.sub e.consumed
  return { granted, received, submitted }

/-- The end of the prefix that still holds resources. -/
def retained : Counts :=
  match e.state with
  | .opened => e.granted
  | .discarding _ => e.received
  | .settling _ => e.submitted

def startupUsed : Option Counts :=
  (e.retained.min e.startup).sub (e.consumed.min e.startup)

def settlement : Settlement := ⟨e.key, e.submitted⟩

end Delivery

inductive Refusal where
  | capacityUndeclared
  | capacityChanged
  | wrongDestination
  | staleFlow
  | wrongRoute
  | wrongSession
  | alreadyOpen
  | flowCapacity
  | flowAllocation
  | startupCapacity
  | deliveryCapacity
  | emptyGrant
  | counterExhausted
  | insufficientCredit
  | submissionOrder
  | retired
  | notRetired
  | cleanupPending
  | invalidConsumption
  | invalidSettlement
  | closing
  | closed
deriving DecidableEq, Repr

/-! ### Slots -/

/-- `DeliverySlots`. The capacity of the backing vector is left to the allocator. -/
structure DeliverySlots where
  entries : Slots Delivery
  retained : Nat
  limit : Nat

namespace DeliverySlots

variable (slots : DeliverySlots)

def new (limit : Nat) : DeliverySlots := ⟨[], 0, limit⟩

def get (slot : Nat) : Option Delivery := slots.entries.get slot

def iter : List Delivery := slots.entries.reduceOption

/-- `ensure_slot`; `allocates` says whether the allocator can back a new slot. -/
def ensureSlot (slot : Nat) (allocates : Bool) : Except Refusal DeliverySlots :=
  if slot ≥ slots.limit then .error .flowCapacity
  else if slot + 1 > slots.entries.length then
    if allocates then
      .ok { slots with
        entries := slots.entries ++ List.replicate (slot + 1 - slots.entries.length) none }
    else .error .flowAllocation
  else .ok slots

/-- `vacant`: the first free slot, made if there is none. -/
def vacant (allocates : Bool) : Except Refusal (DeliverySlots × Nat) :=
  match slots.entries.findIdx? Option.isNone with
  | some slot => .ok (slots, slot)
  | none => (slots.ensureSlot slots.entries.length allocates).map (·, slots.entries.length)

def clear : DeliverySlots := { slots with entries := [], retained := 0 }

/-- `replace`, `none` for a slot that is not there and for a count below zero. -/
def replace (slot : Nat) (next : Option Delivery) : Option DeliverySlots := do
  let previous ← slots.entries[slot]?
  if slots.retained < previous.toList.length then none
  else
    let retained := slots.retained - previous.toList.length + next.toList.length
    let entries := slots.entries.set slot next
    match next with
    | some _ => some { slots with entries, retained }
    | none =>
      let trimmed := { slots with entries := Slots.trim entries, retained }
      if retained = 0 then some trimmed.clear else some trimmed

end DeliverySlots

/-! ### The ledger -/

structure CloseRequest where
  destination : ConnectionRef
  flow : FlowKey
  deadline : UnixMillis
deriving DecidableEq, Repr

inductive ConnectionState where
  | opened
  | closing (request : CloseRequest)
  | closed
deriving DecidableEq, Repr

structure ConnectionLedger where
  relay : RelayIdentity
  destination : ConnectionRef
  limits : Limits
  receiveCapacity : Option ReceiveCapacity
  entries : DeliverySlots
  usage : Usage
  startupUsed : Counts
  state : ConnectionState
  nextExpiration : Option CloseRequest

structure CapacityPools where
  startup : Counts
  regular : Counts

/-- Operations of the ledger. -/
abbrev LedgerM := Txn ConnectionLedger Refusal

inductive Feedback where
  | stale
  | unchanged
  | released (counts : Counts)
  | settled (counts : Counts)
deriving DecidableEq, Repr

namespace ConnectionLedger

open Txn

/-- `ConnectionLedger::new`, for a positive number of slots. -/
def new (relay : RelayIdentity) (destination : ConnectionRef) (limits : Limits)
    (maxFlows : Nat) : ConnectionLedger where
  relay := relay
  destination := destination
  limits := limits
  receiveCapacity := none
  entries := .new maxFlows
  usage := .zero
  startupUsed := .zero
  state := .opened
  nextExpiration := none

variable (l : ConnectionLedger)

def regularUsed : Option Counts := do
  (← l.usage.total).sub l.startupUsed

def delivery (flow : FlowKey) : Option Delivery :=
  (l.entries.get flow.slot).filter (·.key = flow)

/-- The bound of `capacity_pools`. -/
def effectiveTotal : Counts :=
  match l.receiveCapacity with
  | some capacity => l.limits.total.min capacity.counts
  | none => l.limits.total

def startupPool : Counts :=
  l.limits.startupReserve.min (l.effectiveTotal.saturatingSub l.limits.startupGrant)

def capacityPools : Option CapacityPools := do
  return { startup := l.startupPool, regular := ← l.effectiveTotal.sub l.startupPool }

def expire (now : UnixMillis) : ConnectionLedger :=
  match l.state, l.nextExpiration with
  | .opened, some request =>
    if now ≥ request.deadline then { l with state := .closing request } else l
  | _, _ => l

def checkDestination (flow : FlowKey) (source : ConnectionRef) : LedgerM Unit := do
  let l ← get
  require (flow.session.relay = l.relay ∧ flow.destination = l.destination ∧
    source = l.destination) .wrongDestination

def ensureOpen : LedgerM Unit := do
  let l ← get
  match l.state with
  | .opened => pure ()
  | .closing _ => refuse .closing
  | .closed => refuse .closed

/-- `live_delivery` on a route that is valid now. -/
def liveDelivery (flow : FlowKey) (route : ForwardPermit) : LedgerM Delivery := do
  ensureOpen
  checkDestination flow route.destination
  require (flow.permit = route) .wrongRoute
  let entry ← orRefuse ((← get).delivery flow) .staleFlow
  require (entry.state = .opened) .retired
  return entry

def receiveAvailable : LedgerM Counts := do
  let l ← get
  let capacity ← orRefuse l.receiveCapacity .capacityUndeclared
  let used ← expect l.usage.total
  expect ((capacity.counts.min l.limits.total).sub used)

/-- What `next_expiration` is recomputed to. -/
def earliestExpiration (entries : DeliverySlots) : Option CloseRequest :=
  (entries.iter.filterMap fun entry =>
    entry.deadline.map fun deadline =>
      { destination := l.destination, flow := entry.key, deadline := deadline }).argmin
    CloseRequest.deadline

variable {ρ : Type}

/-- The debug assertions at the end of `replace`. -/
def assertCapacity : Txn ConnectionLedger ρ Unit := do
  let l ← get
  let pools ← expect l.capacityPools
  let regular ← expect l.regularUsed
  let used ← expect l.usage.total
  expect (if pools.startup.covers l.startupUsed then some () else none)
  expect (if pools.regular.covers regular then some () else none)
  expect (if l.receiveCapacity.any (·.counts.covers used) ∨ used = .zero then some () else none)

def replace (slot : Nat) (next : Option Delivery) : Txn ConnectionLedger ρ Unit := do
  let l ← get
  let before := l.entries.get slot
  let usageBefore ← expect (before.elim (some .zero) Delivery.usage)
  let usageNext ← expect (next.elim (some .zero) Delivery.usage)
  let usage ← expect (l.usage.replace usageBefore usageNext)
  let startupBefore ← expect (before.elim (some .zero) Delivery.startupUsed)
  let startupNext ← expect (next.elim (some .zero) Delivery.startupUsed)
  let startupLess ← expect (l.startupUsed.sub startupBefore)
  let startupUsed ← expect (startupLess.add startupNext)
  let entries ← expect (l.entries.replace slot next)
  let nextExpiration :=
    if before.bind Delivery.deadline ≠ next.bind Delivery.deadline then
      l.earliestExpiration entries
    else l.nextExpiration
  set { l with usage, startupUsed, entries, nextExpiration }
  assertCapacity

/-- `run`: time passes before the operation. -/
def run {α : Type} (now : UnixMillis) (apply : LedgerM α) : LedgerM α := do
  modify (expire · now)
  apply

/-! ### Operations -/

def declareCapacity (capacity : ReceiveCapacity) (now : UnixMillis) : LedgerM Unit :=
  run now do
    ensureOpen
    let l ← get
    match l.receiveCapacity with
    | some current => require (current = capacity) .capacityChanged
    | none => set { l with receiveCapacity := some capacity }

def openFlow (route : ForwardPermit) (allocates : Bool) (now : UnixMillis) : LedgerM Grant :=
  run now do
    ensureOpen
    let l ← get
    require (route.session.relay = l.relay ∧ route.destination = l.destination) .wrongDestination
    require (∀ entry ∈ l.entries.iter, entry.key.permit ≠ route) .alreadyOpen
    let credit := l.limits.startupGrant
    let available ← receiveAvailable
    require (available.covers credit) .startupCapacity
    let pools ← expect l.capacityPools
    let spare ← expect (pools.startup.sub l.startupUsed)
    let startup := credit.min spare
    let regularSpare ← expect (pools.regular.sub (← expect l.regularUsed))
    let rest ← expect (credit.sub startup)
    require (regularSpare.covers rest) .startupCapacity
    match l.entries.vacant allocates with
    | .error reason => refuse reason
    | .ok (entries, slot) =>
      set { l with entries }
      let flow : FlowKey := ⟨slot, route⟩
      replace slot (some (.new flow credit startup))
      return { flow, credit }

def grant (flow : FlowKey) (route : ForwardPermit) (credit : Counts) (now : UnixMillis) :
    LedgerM Grant :=
  run now do
    let entry ← liveDelivery flow route
    require (credit ≠ .zero) .emptyGrant
    let granted ← orRefuse (entry.granted.checkedAdd credit) .counterExhausted
    let available ← receiveAvailable
    require (available.covers credit) .deliveryCapacity
    let l ← get
    let pools ← expect l.capacityPools
    let spare ← expect (pools.regular.sub (← expect l.regularUsed))
    require (spare.covers credit) .deliveryCapacity
    replace flow.slot (some { entry with granted })
    return { flow, credit }

def receive (flow : FlowKey) (route : ForwardPermit) (header : OpaqueHeader)
    (now : UnixMillis) : LedgerM ReceivedFrame :=
  run now do
    let entry ← liveDelivery flow route
    require (header.session = flow.session.wireId) .wrongSession
    let cost : Counts := ⟨1, header.encodedBytes⟩
    let credit ← expect (entry.granted.sub entry.received)
    require (credit.covers cost) .insufficientCredit
    let received ← expect (entry.received.add cost)
    replace flow.slot (some { entry with received })
    return { flow, ordinal := received.frames, encodedBytes := cost.encodedBytes }

def submit (route : ForwardPermit) (frame : ReceivedFrame) (now : UnixMillis) : LedgerM Unit :=
  run now do
    let flow := frame.flow
    let entry ← liveDelivery flow route
    require (Counts.checkedAddWord entry.submitted.frames 1 = some frame.ordinal) .submissionOrder
    let submitted ← expect (entry.submitted.add ⟨1, frame.encodedBytes⟩)
    replace flow.slot (some { entry with submitted })

/-- `retire`; of a retirement only the session is read. -/
def retire (session : SessionKey) (now : UnixMillis) : LedgerM (Option FlowKey) :=
  run now do
    let l ← get
    require (session.relay = l.relay) .wrongDestination
    match l.entries.iter.find? (·.key.session = session) with
    | none => return none
    | some entry =>
      if entry.state = .opened then
        let deadline := deadlineAfter now l.limits.settlementTimeout
        replace entry.key.slot (some { entry with state := .discarding deadline })
      return some entry.key

def discarded (flow : FlowKey) (now : UnixMillis) : LedgerM (Option Settlement) :=
  run now do
    checkDestination flow flow.destination
    match (← get).delivery flow with
    | none => return none
    | some entry =>
      match entry.state with
      | .opened => refuse .notRetired
      | .discarding deadline =>
        if entry.submitted = entry.consumed then replace flow.slot none
        else replace flow.slot (some { entry with state := .settling deadline })
        return some entry.settlement
      | .settling _ =>
        if entry.submitted = entry.consumed then replace flow.slot none
        return some entry.settlement

def consume (flow : FlowKey) (source : ConnectionRef) (total : Counts) (now : UnixMillis) :
    LedgerM Feedback :=
  run now do
    checkDestination flow source
    match (← get).delivery flow with
    | none => return .stale
    | some entry =>
      if entry.consumed.covers total then return .unchanged
      else
        require (total.covers entry.consumed ∧ entry.submitted.covers total) .invalidConsumption
        let released ← expect (total.sub entry.consumed)
        let left ← expect (entry.submitted.sub total)
        require (released.isEnvelopeBatch ∧ left.isEnvelopeBatch) .invalidConsumption
        match entry.state with
        | .settling _ =>
          if total = entry.submitted then
            replace flow.slot none
            return .settled released
          else
            replace flow.slot (some { entry with consumed := total })
            return .released released
        | _ =>
          replace flow.slot (some { entry with consumed := total })
          return .released released

def settle (flow : FlowKey) (source : ConnectionRef) (total : Counts) (now : UnixMillis) :
    LedgerM Feedback :=
  run now do
    checkDestination flow source
    match (← get).delivery flow with
    | none => return .stale
    | some entry =>
      match entry.state with
      | .opened => refuse .notRetired
      | .discarding _ => refuse .cleanupPending
      | .settling _ =>
        require (total = entry.submitted) .invalidSettlement
        let released ← expect (entry.submitted.sub entry.consumed)
        replace flow.slot none
        return .settled released

def confirmClosed (destination : ConnectionRef) (now : UnixMillis) : LedgerM Counts :=
  run now do
    let l ← get
    require (destination = l.destination) .wrongDestination
    if l.state = .closed then return .zero
    else
      let reclaimed ← expect l.usage.total
      set { l with
        entries := l.entries.clear
        usage := .zero
        startupUsed := .zero
        state := .closed
        nextExpiration := none }
      return reclaimed

def tick (now : UnixMillis) : LedgerM (Option CloseRequest) := do
  modify (expire · now)
  match (← get).state with
  | .closing request => return some request
  | _ => return none

end ConnectionLedger

end Windshare.Relay.Flow
