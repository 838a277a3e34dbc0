import Windshare.Library.Fallible
import Windshare.Relay.Flow.Ledger

/-!
# Capacity and retirement policy of a share

What the host configures: how many connections, handshakes and retired generations a share may
have, how fast connections may be attempted, and how long a lost generation is a risk.
-/

namespace Windshare.Relay.Share

open Windshare.Library Windshare.Relay.Flow

/-- `share::Error`, as far as the modelled operations refuse. -/
inductive Error where
  | capacity
  | handshakeRate
  | unknownConnection
  | configuration
  | invalidCheckpoint
  | flow (refusal : Refusal)
deriving DecidableEq, Repr

structure Identity where
  relay : RelayIdentity
  share : ShareId
  incarnation : Incarnation
deriving DecidableEq, Repr

/-! ### Attempts -/

/-- `AttemptRate`: one token per interval, up to the burst. -/
structure AttemptRate where
  burst : Nat
  refill : Duration

structure AttemptState where
  tokens : Nat
  updated : UnixMillis
deriving DecidableEq, Repr

structure AttemptLimiter where
  burst : Nat
  refillMillis : Nat
  state : AttemptState
deriving DecidableEq, Repr

/-- `AttemptLimiter::restore`: a zero or unrepresentable rate is no configuration. -/
def AttemptLimiter.restore (rate : AttemptRate) (state : AttemptState) :
    Except Error AttemptLimiter :=
  let millis := rate.refill / 1000000
  if millis > u64Max ∨ millis = 0 then .error .configuration
  else if rate.burst = 0 ∨ state.tokens > rate.burst then .error .configuration
  else .ok ⟨rate.burst, millis, state⟩

/-! ### Retirement -/

inductive RetirementPolicy where
  | physicalRelease
  | bounded (admissionGrace riskRetention : Duration) (generations : Nat) (residual : Counts)

/-- `Detached`: what a generation without its socket still waits for. -/
inductive Detached where
  | awaitingRelease
  | released
  | quiescing (retireAt riskExpiresAt : UnixMillis)
  | riskRetained (expiresAt : UnixMillis)
deriving DecidableEq, Repr

namespace RetirementPolicy

/-- Both intervals start at the first observed loss. -/
def detached (policy : RetirementPolicy) (now : UnixMillis) : Detached :=
  match policy with
  | .physicalRelease => .awaitingRelease
  | .bounded admissionGrace riskRetention _ _ =>
    .quiescing (deadlineAfter now admissionGrace) (deadlineAfter now riskRetention)

def generations : RetirementPolicy → Nat
  | .physicalRelease => 0
  | .bounded _ _ generations _ => generations

/-- The risk must cover the grace. -/
def validate : RetirementPolicy → Except Error Unit
  | .physicalRelease => .ok ()
  | .bounded admissionGrace riskRetention _ _ =>
    refuse (riskRetention < admissionGrace) .configuration

end RetirementPolicy

namespace Detached

def deadline : Detached → Option UnixMillis
  | .quiescing retireAt _ => some retireAt
  | .riskRetained expiresAt => some expiresAt
  | .awaitingRelease => none
  | .released => none

/-- The states that a policy can bring about. -/
def validate : Detached → RetirementPolicy → Except Error Unit
  | .released, _ => .ok ()
  | .awaitingRelease, .physicalRelease => .ok ()
  | .riskRetained _, .bounded .. => .ok ()
  | .quiescing retireAt riskExpiresAt, .bounded .. =>
    refuse (¬ retireAt ≤ riskExpiresAt) .invalidCheckpoint
  | _, _ => .error .invalidCheckpoint

end Detached

/-! ### Limits -/

structure HandshakeLimits where
  concurrent : Nat
  attempts : AttemptRate

/-- `Limits` of a share. -/
structure ShareLimits where
  businessConnections : Nat
  handshakes : HandshakeLimits
  sessions : Nat
  retainedFlowsPerConnection : Nat
  retirement : RetirementPolicy
  delivery : Limits

/-- `generation_limit`, with the largest value of a machine word. -/
def ShareLimits.generationLimit (usizeMax : Nat) (limits : ShareLimits) : Except Error Nat := do
  limits.retirement.validate
  let admitted := limits.businessConnections + limits.handshakes.concurrent
  refuse (admitted > usizeMax) .configuration
  let total := admitted + limits.retirement.generations
  refuse (total > usizeMax) .configuration
  return total

end Windshare.Relay.Share
