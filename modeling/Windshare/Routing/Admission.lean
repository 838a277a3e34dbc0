import Windshare.Routing.Queues

/-!
# The deferred inbox

The model of `router_admission.go` and of `RouteInbound` and `Close`. A sender's router keeps
messages that the operation table has no capacity for, and the dispatcher promotes them, oldest
identity first, once it has. The loop of `promoteDeferred` runs on fuel; without a bound it
would not be clear that it ends, because a history that is not promoted is tried again.
-/

namespace Windshare.Routing

open Windshare.Library Windshare.Session Windshare.Operation

def deferredRequest (kind : MessageKind) : Bool := kind.isRequest || kind == .laneAttach

/-- `deferredConsumesFrame`: a request and its cancellation share one position. -/
def deferredConsumesFrame (pending : List Message) (kind : MessageKind) : Bool :=
  match pending with
  | [] => true
  | first :: _ => kind != .cancel && (first.kind != .cancel || !deferredRequest kind)

def deferredCancelled (events : List Message) : Bool := events.any (·.kind == .cancel)

/-- The first loop of `deferInboundLocked`: the answer to a message that the history of its
identity already has. -/
def pendingVerdict (codec : Codec) (direction : Direction) (m : Message) :
    List Message → Option (Except RouterError Disposition)
  | [] => none
  | event :: rest =>
    if m.kind = .cancel ∧ event.kind = .cancel then some (.ok .drop)
    else if deferredRequest m.kind ∧ deferredRequest event.kind then
      if event.kind = m.kind ∧
          event.operationFingerprint codec direction =
            m.operationFingerprint codec direction then some (.ok .drop)
      else some (.error (.operation .operationIDReused))
    else pendingVerdict codec direction m rest

namespace Router

variable (cfg : RouterConfig) (schedule : Schedule) (r : Router)

def pending (id : OperationID) : List Message := (r.deferred.get? id).getD []

def shouldDeferInbound (m : Message) : Router × Bool :=
  match m.operationID with
  | none => (r, false)
  | some id =>
    if r.deferredOrder.length = 0 then (r, false)
    else
      r.withTable cfg schedule fun moment t =>
        if t.terminal then (t, false)
        else if (r.pending id).length ≠ 0 then (t, true)
        else if !deferredRequest m.kind ∧ m.kind ≠ .cancel then (t, false)
        else
          let t := t.pruneExpired moment.pruneAt
          -- Fresh arrivals do not overtake those that wait for a slot.
          (t, (t.operationAuthority id).isNone)

/-- The bytes that a deferred message of the kind may still use. -/
def roomFor (kind : MessageKind) : Int :=
  if kind = .cancel then controlQueueByteLimit - r.deferredCancelBytes
  else controlQueueByteLimit - r.deferredBytes

/-- Enter the message in the history of its identity and count it. -/
def appendDeferred (id : OperationID) (m : Message) : Router :=
  { r with
    deferredOrder := if (r.pending id).length = 0 then r.deferredOrder ++ [id] else r.deferredOrder
    deferred := r.deferred.insert id (r.pending id ++ [m])
    deferredFrames :=
      if deferredConsumesFrame (r.pending id) m.kind then r.deferredFrames + 1
      else r.deferredFrames
    deferredCancelBytes :=
      if m.kind = .cancel then r.deferredCancelBytes + m.body.length else r.deferredCancelBytes
    deferredBytes := if m.kind = .cancel then r.deferredBytes else r.deferredBytes + m.body.length
    admissionWake := true
    trace := r.trace ++ [.deferred id m] }

def deferInboundLocked (m : Message) : Router × Except RouterError Disposition :=
  if !validKindDirection cfg.role.inboundDirection m.kind then
    (r, .error (.operation (.invalidDirection cfg.role.inboundDirection m.kind)))
  else
    match m.operationID with
    | none => (r, .error (.operation .invalidOperationID))
    | some id =>
      if cfg.role ≠ .sender ∨ m.kind = .blockFragment then
        (r, .error (.operation .invalidOperationID))
      else
        match pendingVerdict cfg.table.codec cfg.role.inboundDirection m (r.pending id) with
        | some verdict => (r, verdict)
        | none =>
          if deferredConsumesFrame (r.pending id) m.kind ∧
              r.deferredFrames ≥ cfg.limits.controlFrames then (r, .error .controlFull)
          else if m.body.length > r.roomFor m.kind then (r, .error .controlFull)
          else (r.appendDeferred id m, .ok .deliver)

def routeInbound (m : Message) : Router × Except RouterError Disposition :=
  if r.closed then (r, .error (.operation .sessionTerminated))
  else
    match r.shouldDeferInbound cfg schedule m with
    | (r, true) => r.deferInboundLocked cfg m
    | (r, false) =>
      match r.routeAdmittedLocked cfg schedule m with
      | (r, .error e) =>
        if e.isOperationCapacity then r.deferInboundLocked cfg m else (r, .error e)
      | (r, .ok disposition) => (r, .ok disposition)

/-! ### Promotion -/

/-- `promoteDeferredEvent`. The table sees an abandoned message, but no queue does. -/
def promoteDeferredEvent (cancelled : Bool) (m : Message) : Router × Except RouterError Unit :=
  if !cancelled ∨ m.kind = .cancel then
    match r.routeAdmittedLocked cfg schedule m with
    | (r, .ok _) => (r, .ok ())
    | (r, .error e) => (r, .error e)
  else
    match r.observeInbound cfg schedule m with
    | (r, admission) =>
      match admission.verdict with
      | .refused e => (r, .error (.operation e))
      | .delivered reservation => (r.settle cfg schedule reservation true, .ok ())
      | _ => (r, .ok ())

/-- `promoteDeferredHistory`, from the event at `index` on. Only the first event may be refused
for want of capacity. -/
def promoteDeferredHistory (cancelled : Bool) (index : Nat) :
    List Message → Router → Router × Except RouterError Bool
  | [], r => (r, .ok true)
  | m :: rest, r =>
    match r.promoteDeferredEvent cfg schedule cancelled m with
    | (r, .error e) =>
      if index = 0 ∧ e.isOperationCapacity then (r, .ok false) else (r, .error e)
    | (r, .ok ()) => promoteDeferredHistory cancelled (index + 1) rest r

/-- The loop of `retireDeferred`: uncount the messages after `before`. -/
def uncount (before : List Message) : List Message → Router → Router
  | [], r => r
  | m :: rest, r =>
    let r :=
      { r with
        deferredFrames :=
          if deferredConsumesFrame before m.kind then r.deferredFrames - 1
          else r.deferredFrames
        deferredCancelBytes :=
          if m.kind = .cancel then r.deferredCancelBytes - m.body.length
          else r.deferredCancelBytes
        deferredBytes :=
          if m.kind = .cancel then r.deferredBytes else r.deferredBytes - m.body.length }
    uncount (before ++ [m]) rest r

def retireDeferred (id : OperationID) (pending : List Message) : Router :=
  uncount [] pending
    { r with
      deferred := r.deferred.erase id
      deferredOrder := r.deferredOrder.drop 1
      trace := r.trace ++ [.promoted id pending] }

/-- The frames that the history needs on the control queue. -/
def dispatchFrames (pending : List Message) : Nat :=
  if deferredCancelled pending then 1 else pending.length

def promoteLoop : Nat → Router → Option (Router × Except RouterError OperationCapacity)
  | 0, _ => none
  | fuel + 1, r =>
    match r.deferredOrder with
    | [] => some (r, .ok { available := false })
    | id :: _ =>
      let pending := r.pending id
      if dispatchFrames pending > cfg.limits.controlFrames - r.control.length then
        some (r, .ok { available := false })
      else
        match r.capacity cfg schedule with
        | (r, .error e) => some (r, .error (.operation e))
        | (r, .ok capacity) =>
          if !capacity.available then some (r, .ok capacity)
          else
            match promoteDeferredHistory cfg schedule (deferredCancelled pending) 0 pending r with
            | (r, .error e) => some (r, .error e)
            | (r, .ok true) => promoteLoop fuel (r.retireDeferred id pending)
            | (r, .ok false) => promoteLoop fuel r

def promoteDeferred (fuel : Nat) : Option (Router × Except RouterError OperationCapacity) :=
  if r.closed then some (r, .error (.operation .sessionTerminated))
  else promoteLoop cfg schedule fuel r

def close : Router :=
  if r.closed then r
  else
    let r := (r.withTable cfg schedule fun _ t => (t.terminateLocal.1, ())).1
    { r with
      closed := true
      deferred := .empty
      deferredOrder := []
      deferredFrames := 0
      deferredBytes := 0
      deferredCancelBytes := 0
      control := []
      data := []
      pendingData := .empty
      trace := r.trace ++ [.closed] }

end Router

end Windshare.Routing
