import Windshare.Routing.Promotion

/-!
# Every run of the router

A run is any sequence of inbound messages, promotions, events taken and closings, with any calls
of other goroutines on the table in between. In every state the counters are exact and bounded,
the trace keeps the contract of the inbox, and a promotion started there ends.
-/

namespace Windshare.Routing

open Windshare.Library Windshare.Session Windshare.Operation

/-- A method call on the router. -/
inductive Action where
  | routeInbound (m : Message)
  | promoteDeferred (fuel : Nat)
  | nextEvent
  | close

namespace Router

/-- The router after an action. A promotion whose fuel does not suffice has not happened yet. -/
def act (cfg : RouterConfig) (schedule : Schedule) (r : Router) : Action → Router
  | .routeInbound m => (r.routeInbound cfg schedule m).1
  | .promoteDeferred fuel =>
    match r.promoteDeferred cfg schedule fuel with
    | none => r
    | some (r, _) => r
  | .nextEvent => r.nextEvent.1
  | .close => r.close cfg schedule

/-- Every sequence of actions on a new router. -/
def system (cfg : RouterConfig) (schedule : Schedule) : System Router Action :=
  .ofFunction (· = new) (act cfg schedule)

variable {cfg : RouterConfig} {schedule : Schedule} {r : Router}

theorem Sound.act (h : Sound cfg r) (action : Action) : Sound cfg (r.act cfg schedule action) := by
  cases action with
  | routeInbound => exact h.routeInbound
  | promoteDeferred fuel =>
    change Sound cfg (match r.promoteDeferred cfg schedule fuel with
      | none => r
      | some (r, _) => r)
    split
    · exact h
    · rename_i r' result heq
      unfold Router.promoteDeferred at heq
      split at heq
      · cases heq
        exact h
      · exact h.promoteLoop heq
  | nextEvent => exact h.nextEvent
  | close => exact h.close

theorem reachable_sound (h : (system cfg schedule).Reachable r) : Sound cfg r := by
  refine h.invariant (fun _ hinit => hinit ▸ sound_new) fun _ action _ hsound hstep => ?_
  exact hstep ▸ hsound.act action

/-- The identity whose bytes are all `n`. -/
def identity (n : UInt8) : OperationID := .filled n

end Router

end Windshare.Routing
