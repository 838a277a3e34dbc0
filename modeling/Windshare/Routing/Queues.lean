import Windshare.Operation.Calls

/-!
# The queues of the role router

The model of `RoleRouter` in `router.go`: the control and data queues, the routing of an
admitted message and the dispatcher's side. The other goroutines of the session call the
operation table at any time, so a critical section of the table first lets any of their calls
happen; a schedule says which, and what the clock shows. The router's own methods exclude one
another. Handlers and contexts are left out, except for the generation and the permit that a
context carries.
-/

namespace Windshare.Routing

open Windshare.Library Windshare.Session Windshare.Operation

inductive Role where
  | sender
  | receiver
deriving DecidableEq, Repr

def Role.inboundDirection : Role → Direction
  | .sender => .receiverToSender
  | .receiver => .senderToReceiver

def Role.outboundDirection : Role → Direction
  | .sender => .senderToReceiver
  | .receiver => .receiverToSender

/-- `RouterLimits`, as `NewRoleRouterWithLimits` accepts them. -/
structure RouterLimits where
  controlFrames : Nat
  dataFrames : Nat
  controlFrames_pos : 0 < controlFrames
  controlFrames_le : controlFrames ≤ 256
  dataFrames_pos : 0 < dataFrames
  dataFrames_le : dataFrames ≤ 1024

def controlQueueByteLimit : Int := 4 * 1024 * 1024

def routerMaximumControlBurst : Nat := 8

/-- What a router is made with and never changes. -/
structure RouterConfig where
  role : Role
  table : Config
  limits : RouterLimits

/-- The errors of the router. -/
inductive RouterError where
  | controlFull
  | dataFull
  | operation (e : OperationError)
deriving DecidableEq, Repr

def RouterError.isOperationCapacity : RouterError → Bool
  | .operation .activeOperationBudget => true
  | .operation .trackedOperationBudget => true
  | _ => false

/-- `OperationDisposition`. -/
inductive Disposition where
  | drop
  | deliver
  | sessionTerminal
deriving DecidableEq, Repr

/-- `RouteEvent`. An overflow carries `ErrRouterDataFull` and no message. -/
structure RouteEvent where
  message : Option Message
  operationID : Option OperationID
  generation : Option OperationGeneration := none
  outbound : Option OutboundOperationPermit := none
  tracksData : Bool := false
deriving DecidableEq

/-- A call of another goroutine on the table. Only the router observes inbound messages, and
what is sent goes in the router's outbound direction. -/
inductive OtherCall where
  | admitOutbound (permitAt pruneAt now : Time) (m : Message)
      (permit : Option OutboundOperationPermit)
  | acceptOutboundReplay (pruneAt : Time) (m : Message) (permit : Option OutboundReplayPermit)
  | terminateLocal
  | cancelGeneration (pruneAt now : Time) (generation : Option OperationGeneration)
  | acquireLease (pruneAt : Time) (permit : OutboundOperationPermit)
  | release (now : Time) (pin : Nat)
  | settle (reservation : Nat) (commit : Bool)
  | recordViolation (pruneAt : Time) (m : Message) (code : ViolationCode)
  | capacity (pruneAt now : Time)
  | inspect (pruneAt : Time)

/-- The call as the table sees it. -/
def OtherCall.call (direction : Direction) : OtherCall → Call
  | .admitOutbound permitAt pruneAt now m permit =>
    .admitOutbound permitAt pruneAt now direction m permit
  | .acceptOutboundReplay pruneAt m permit => .acceptOutboundReplay pruneAt direction m permit
  | .terminateLocal => .terminateLocal
  | .cancelGeneration pruneAt now generation => .cancelGeneration pruneAt now generation
  | .acquireLease pruneAt permit => .acquireLease pruneAt permit
  | .release now pin => .release now pin
  | .settle reservation commit => .settle reservation commit
  | .recordViolation pruneAt m code => .recordViolation pruneAt m code
  | .capacity pruneAt now => .capacity pruneAt now
  | .inspect pruneAt => .inspect pruneAt

/-- What happens before a critical section of the table, and the clock's readings in it. -/
structure Moment where
  others : List OtherCall
  pruneAt : Time
  now : Time

/-- The moments of a run, one for each critical section. -/
abbrev Schedule := Nat → Moment

/-- What an observer of the inbox and the queues sees. -/
inductive TraceEvent where
  | deferred (id : OperationID) (m : Message)
  | published (e : RouteEvent)
  | promoted (id : OperationID) (history : List Message)
  | closed
deriving DecidableEq

/-- `RoleRouter`. A deferred event has its message and the identity of it only. The critical
sections so far and the trace are added for the proofs. -/
structure Router where
  operations : Table
  control : List RouteEvent
  data : List RouteEvent
  pendingData : FiniteMap OperationGeneration Nat
  deferred : FiniteMap OperationID (List Message)
  deferredOrder : List OperationID
  deferredFrames : Int
  deferredBytes : Int
  deferredCancelBytes : Int
  admissionWake : Bool
  closed : Bool
  controlBurst : Nat
  sections : Nat
  trace : List TraceEvent

namespace Router

/-- `NewRoleRouterWithLimits` on a new table. -/
def new : Router where
  operations := .new
  control := []
  data := []
  pendingData := .empty
  deferred := .empty
  deferredOrder := []
  deferredFrames := 0
  deferredBytes := 0
  deferredCancelBytes := 0
  admissionWake := false
  closed := false
  controlBurst := 0
  sections := 0
  trace := []

variable (cfg : RouterConfig) (schedule : Schedule) (r : Router)

/-- The table once the others have made their calls. -/
def interrupted : Table :=
  (schedule r.sections).others.foldl
    (fun t c => t.call cfg.table (c.call cfg.role.outboundDirection)) r.operations

/-- One critical section of the table. -/
def withTable {α : Type} (f : Moment → Table → Table × α) : Router × α :=
  let out := f (schedule r.sections) (r.interrupted cfg schedule)
  ({ r with operations := out.1, sections := r.sections + 1 }, out.2)

def observeInbound (m : Message) : Router × InboundAdmission :=
  r.withTable cfg schedule fun moment t =>
    t.observeInbound cfg.table moment.pruneAt moment.now cfg.role.inboundDirection m

/-- `commit` and `rollback` of a reservation, which may be nil. -/
def settle (reservation : Option Nat) (commit : Bool) : Router :=
  match reservation with
  | none => r
  | some index => (r.withTable cfg schedule fun _ t => (t.settle index commit, ())).1

def capacity : Router × Except OperationError OperationCapacity :=
  r.withTable cfg schedule fun moment t => t.capacity cfg.table moment.pruneAt moment.now

/-! ### Queues -/

/-- Send on the control queue if it has room. -/
def sendControl (e : RouteEvent) : Option Router :=
  if r.control.length < cfg.limits.controlFrames then
    some { r with control := r.control ++ [e], trace := r.trace ++ [.published e] }
  else none

/-- Send on the data queue if it has room. -/
def sendData (e : RouteEvent) : Option Router :=
  if r.data.length < cfg.limits.dataFrames then
    some { r with data := r.data ++ [e], trace := r.trace ++ [.published e] }
  else none

/-- The count of a generation's queued data; the zero generation has none. -/
def pendingCount (generation : Option OperationGeneration) : Nat :=
  (generation.bind r.pendingData.get?).getD 0

def incrementPendingData (generation : Option OperationGeneration) : Router :=
  match generation with
  | none => r
  | some g => { r with pendingData := r.pendingData.insert g (r.pendingCount generation + 1) }

def decrementPendingData (generation : Option OperationGeneration) : Router :=
  match generation with
  | none => r
  | some g =>
    if r.pendingCount generation ≤ 1 then { r with pendingData := r.pendingData.erase g }
    else { r with pendingData := r.pendingData.insert g (r.pendingCount generation - 1) }

def handleDataOverflow (id : Option OperationID) (generation : Option OperationGeneration) :
    Router × Except RouterError Disposition :=
  match r.withTable cfg schedule fun moment t =>
      t.cancelGeneration moment.pruneAt moment.now generation with
  | (r, .error e) => (r, .error (.operation e))
  | (r, .ok ()) =>
    match r.sendControl cfg { message := none, operationID := id } with
    | some r => (r, .ok .drop)
    | none => (r, .error .controlFull)

def enqueueData (e : RouteEvent) : Router × Except RouterError Disposition :=
  let e := { e with tracksData := true }
  let r := r.incrementPendingData e.generation
  match r.sendData cfg e with
  | some r => (r, .ok .deliver)
  | none =>
    let r := r.decrementPendingData e.generation
    r.handleDataOverflow cfg schedule e.operationID e.generation

def operationFinalMustFollowData (kind : MessageKind) : Bool :=
  kind == .operationComplete || kind == .operationError

def enqueueFinalAfterData (e : RouteEvent) : Router × Except RouterError Bool :=
  if r.pendingCount e.generation = 0 then (r, .ok false)
  else
    match r.sendData cfg e with
    | some r => (r, .ok true)
    | none => (r, .error .dataFull)

/-- The last select of `routeAdmittedLocked`. -/
def enqueueControl (e : RouteEvent) (reservation : Option Nat) :
    Router × Except RouterError Disposition :=
  match r.sendControl cfg e with
  | some r => (r.settle cfg schedule reservation true, .ok .deliver)
  | none => (r.settle cfg schedule reservation false, .error .controlFull)

/-- The part of `routeAdmittedLocked` for a message that the table delivers. -/
def publish (e : RouteEvent) (m : Message) (reservation : Option Nat) :
    Router × Except RouterError Disposition :=
  if m.kind = .blockFragment then
    match r.enqueueData cfg schedule e with
    | (r, .ok disposition) => (r.settle cfg schedule reservation true, .ok disposition)
    | (r, .error error) => (r.settle cfg schedule reservation false, .error error)
  else if operationFinalMustFollowData m.kind then
    match r.enqueueFinalAfterData cfg e with
    | (r, .error error) => (r.settle cfg schedule reservation false, .error error)
    | (r, .ok true) => (r.settle cfg schedule reservation true, .ok .deliver)
    | (r, .ok false) => r.enqueueControl cfg schedule e reservation
  else r.enqueueControl cfg schedule e reservation

def routeAdmittedLocked (m : Message) : Router × Except RouterError Disposition :=
  match r.observeInbound cfg schedule m with
  | (r, admission) =>
    match admission.verdict with
    | .refused e => (r, .error (.operation e))
    | .dropped => (r, .ok .drop)
    | .sessionTerminal => (r, .ok .sessionTerminal)
    | .delivered reservation =>
      let e : RouteEvent :=
        { message := some m, operationID := m.operationID,
          generation := admission.generation, outbound := admission.outbound }
      r.publish cfg schedule e m reservation

/-! ### Taking events -/

/-- Take the oldest event of the data queue, with `retireQueuedData`. -/
def takeData : Option (Router × RouteEvent) :=
  match r.data with
  | [] => none
  | e :: rest =>
    let r := { r with data := rest, controlBurst := 0 }
    some (if e.tracksData then r.decrementPendingData e.generation else r, e)

def takeControl : Option (Router × RouteEvent) :=
  match r.control with
  | [] => none
  | e :: rest => some ({ r with control := rest, controlBurst := r.controlBurst + 1 }, e)

/-- `nextEvent` in a session that goes on: control first, but data after a long burst. When both
queues are empty it waits, and a pending wake-up is used up. -/
def nextEvent : Router × Except RouterError (Option RouteEvent) :=
  if r.closed then (r, .error (.operation .sessionTerminated))
  else
    let urgent := if r.controlBurst ≥ routerMaximumControlBurst then r.takeData else none
    match urgent.or (r.takeControl.or r.takeData) with
    | some (r, e) => (r, .ok (some e))
    | none => ({ r with admissionWake := false }, .ok none)

end Router

end Windshare.Routing
