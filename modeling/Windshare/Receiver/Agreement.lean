import Windshare.Library.Word64
import Windshare.Receiver.GoLedger
import Windshare.Receiver.WebRuns

/-!
# Agreement of the two ledgers

A Go ledger and a web ledger agree when they hold the same flows in the same order and their
counters are the same numbers. The sums that the web ledger keeps stay below `2 ^ 64`, so no
operation of the Go ledger wraps and agreement survives every operation.
-/

namespace Windshare.Receiver

open Windshare.Library
open Windshare.Relay.Flow (Dimension)

namespace GoCounts

variable {a b : GoCounts} {d : Dimension}

/-- The same counts as unbounded numbers. -/
def toWeb (c : GoCounts) : ReceiveCounts := ⟨c.frames.toNat, c.encodedBytes.toNat⟩

theorem toWeb_inj : a.toWeb = b.toWeb ↔ a = b := by
  refine ⟨fun h => ?_, fun h => congrArg toWeb h⟩
  have hframes : (a.frames.toNat : Int) = b.frames.toNat := congrArg ReceiveCounts.frames h
  have hbytes : (a.encodedBytes.toNat : Int) = b.encodedBytes.toNat :=
    congrArg ReceiveCounts.encodedBytes h
  exact GoCounts.ext (UInt64.toNat_inj.mp (Int.ofNat.inj hframes))
    (UInt64.toNat_inj.mp (Int.ofNat.inj hbytes))

theorem toWeb_within : a.toWeb.within maxCounts = true := by
  refine ReceiveCounts.within_iff.mpr fun d => ?_
  have hframes := a.frames.toNat_lt
  have hbytes := a.encodedBytes.toNat_lt
  cases d with
  | frames =>
    change (a.frames.toNat : Int) ≤ 2 ^ 64 - 1
    omega
  | encodedBytes =>
    change (a.encodedBytes.toNat : Int) ≤ 2 ^ 64 - 1
    omega

theorem toWeb_add (h : (a.toWeb.add b.toWeb).within maxCounts = true) :
    (a.add b).toWeb = a.toWeb.add b.toWeb := by
  rw [ReceiveCounts.within_iff] at h
  have hframes : (a.frames.toNat : Int) + b.frames.toNat ≤ 2 ^ 64 - 1 := h .frames
  have hbytes : (a.encodedBytes.toNat : Int) + b.encodedBytes.toNat ≤ 2 ^ 64 - 1 := h .encodedBytes
  refine ReceiveCounts.ext ?_ ?_
  · change ((a.frames + b.frames).toNat : Int) = a.frames.toNat + b.frames.toNat
    rw [toNat_add_of_exact (show (Arith.add _ _).Exact from by change _ < _; omega)]
    exact Int.natCast_add _ _
  · change ((a.encodedBytes + b.encodedBytes).toNat : Int) =
      a.encodedBytes.toNat + b.encodedBytes.toNat
    rw [toNat_add_of_exact (show (Arith.add _ _).Exact from by change _ < _; omega)]
    exact Int.natCast_add _ _

theorem toWeb_subtract (h : ∀ d, 0 ≤ (a.toWeb.sub b.toWeb).amount d) :
    (a.subtract b).toWeb = a.toWeb.sub b.toWeb := by
  have hframes : 0 ≤ (a.frames.toNat : Int) - b.frames.toNat := h .frames
  have hbytes : 0 ≤ (a.encodedBytes.toNat : Int) - b.encodedBytes.toNat := h .encodedBytes
  refine ReceiveCounts.ext ?_ ?_
  · change ((a.frames - b.frames).toNat : Int) = a.frames.toNat - b.frames.toNat
    rw [toNat_sub_of_exact (show (Arith.sub _ _).Exact from by change _ ≤ _; omega)]
    omega
  · change ((a.encodedBytes - b.encodedBytes).toNat : Int) =
      a.encodedBytes.toNat - b.encodedBytes.toNat
    rw [toNat_sub_of_exact (show (Arith.sub _ _).Exact from by change _ ≤ _; omega)]
    omega

theorem frames_eq_zero_iff : a.frames = 0 ↔ a.toWeb.frames = 0 := by
  rw [← UInt64.toNat_inj]
  change a.frames.toNat = 0 ↔ (a.frames.toNat : Int) = 0
  omega

end GoCounts

namespace GoFlow

/-- The settlement state that phase and pending acknowledgement stand for. -/
def state (flow : GoFlow) : SettlementState :=
  match flow.phase with
  | .active => .active
  | .retiring => .retiring
  | .draining => .draining
  | .settled => .settled flow.ackPending

def toWeb (flow : GoFlow) : Flow where
  wireId := flow.id.val
  state := flow.state
  received := flow.received.toWeb
  consumed := flow.consumed.toWeb
  discarded := flow.discarded.toWeb
  consumedPrefix := flow.consumedPrefix.toWeb
  completed := flow.completed.toWeb
  reported := flow.reported.toWeb

/-- An acknowledgement is pending in the draining phase, and not before it. -/
def AckInPhase (flow : GoFlow) : Prop :=
  (flow.phase = .active ∨ flow.phase = .retiring → flow.ackPending = false) ∧
  (flow.phase = .draining → flow.ackPending = true)

variable {flow : GoFlow}

theorem settled_iff : flow.phase = .settled ↔ flow.toWeb.state.isSettled = true := by
  change _ ↔ flow.state.isSettled = true
  unfold state
  cases flow.phase <;> simp [SettlementState.isSettled]

theorem active_iff : flow.phase = .active ↔ flow.toWeb.state = .active := by
  change _ ↔ flow.state = .active
  unfold state
  cases flow.phase <;> simp

theorem draining_iff : flow.phase = .draining ↔ flow.toWeb.state = .draining := by
  change _ ↔ flow.state = .draining
  unfold state
  cases flow.phase <;> simp

theorem unreported_toWeb : flow.toWeb.unreported = flow.unreported := by
  unfold Flow.unreported unreported
  have hsettled : (!flow.toWeb.state.isSettled) = decide (flow.phase ≠ .settled) := by
    rw [Bool.eq_iff_iff]
    simp [settled_iff]
  have hreported : decide (flow.toWeb.consumedPrefix ≠ flow.toWeb.reported) =
      decide (flow.consumedPrefix ≠ flow.reported) := by
    rw [decide_eq_decide]
    exact not_congr GoCounts.toWeb_inj
  rw [hsettled, hreported]

end GoFlow

def GoReceipt.toWeb (receipt : GoReceipt) : ReceiptPrefix :=
  ⟨receipt.session, receipt.before.toWeb, receipt.after.toWeb⟩

def GoTotals.toWeb (totals : GoTotals) : Totals :=
  ⟨totals.relaySessionId.val, totals.totalFrames.toNat, totals.totalEncodedBytes.toNat⟩

/-- The ledgers hold the same flows and the same counters. -/
structure Agrees (go : GoLedger) (web : WebLedger) : Prop where
  capacity : web.capacity = go.capacity.toWeb
  maxSessions : web.maxSessions = go.maxSessions
  size : go.flows.size = web.flows.size
  flows : ∀ r, web.flow r = (go.flow r).toWeb
  acks : ∀ r, (go.flow r).AckInPhase
  order : web.order = go.order
  sessions : ∀ id r, go.sessions.get? id = some r ↔ r ∈ go.order ∧ (go.flow r).id = id
  keyed : go.sessions.size = web.sessions.size
  retained : go.retainedSessions = go.sessions.size
  cursor : web.cursor = go.cursor
  closed : web.closed = go.closed
  held : web.held = go.held.toWeb
  outstanding : web.outstanding = go.outstanding.toWeb
  pending : web.pendingConsumed = go.pendingConsumed.toWeb

namespace Agrees

variable {go go' : GoLedger} {web web' : WebLedger} {session r : Ref}

/-- Both ledgers accept or refuse a session token. -/
theorem check (h : Agrees go web) (hsound : web.Sound) (session : Ref) :
    (∃ e, go.check session = .error e ∧ web.check session = .error e) ∨
    (go.check session = .ok () ∧ web.check session = .ok session ∧ session ∈ web.order) := by
  unfold GoLedger.check WebLedger.check
  rw [h.closed]
  cases go.closed with
  | true => exact .inl ⟨.closed, rfl, rfl⟩
  | false =>
    by_cases hmem : session ∈ web.order
    · have hweb : web.sessions.get? session = some session :=
        (hsound.sessions session session).mpr ⟨rfl, hmem⟩
      have hgo : go.sessions.get? (go.flow session).id = some session :=
        (h.sessions _ _).mpr ⟨h.order ▸ hmem, rfl⟩
      have hlt : ¬ go.flows.size ≤ session := by
        rw [h.size]
        exact Nat.not_le.mpr (hsound.allocated session hmem)
      rw [hweb, hgo]
      exact .inr ⟨by simp [hlt], by simp, hmem⟩
    · have hweb : web.sessions.get? session = none := by
        refine Option.eq_none_iff_forall_ne_some.mpr fun r hget => ?_
        obtain ⟨rfl, hr⟩ := (hsound.sessions session r).mp hget
        exact hmem hr
      have hgo : go.sessions.get? (go.flow session).id ≠ some session := by
        intro hget
        exact hmem (h.order ▸ ((h.sessions _ _).mp hget).1)
      rw [hweb, if_neg (by simp), if_pos (.inr hgo)]
      exact .inl ⟨.session, rfl, rfl⟩

/-- The same change of one flow on both sides. -/
theorem change (h : Agrees go web) {f : GoFlow → GoFlow} {g : Flow → Flow}
    (hflow : g (web.flow r) = (f (go.flow r)).toWeb) (hid : (f (go.flow r)).id = (go.flow r).id)
    (hack : (f (go.flow r)).AckInPhase)
    (hgo : go' = { go with
      flows := go.flows.modify r f
      held := go'.held
      outstanding := go'.outstanding
      pendingConsumed := go'.pendingConsumed
      cursor := go'.cursor })
    (hflows : web'.flows = web.flows.modify r g) (hcapacity : web'.capacity = web.capacity)
    (hmax : web'.maxSessions = web.maxSessions) (horder : web'.order = web.order)
    (hsessions : web'.sessions = web.sessions) (hclosed : web'.closed = web.closed)
    (hcursor : web'.cursor = go'.cursor) (hheld : web'.held = go'.held.toWeb)
    (houtstanding : web'.outstanding = go'.outstanding.toWeb)
    (hpending : web'.pendingConsumed = go'.pendingConsumed.toWeb) : Agrees go' web' := by
  have hgoflow : ∀ x, go'.flow x = if x = r then f (go.flow r) else go.flow x := by
    intro x
    rw [hgo]
    exact go.flows.get_modify
  have hwebflow : ∀ x, web'.flow x = if x = r then g (web.flow r) else web.flow x := by
    intro x
    unfold WebLedger.flow
    rw [hflows]
    exact web.flows.get_modify
  have hgoid : ∀ x, (go'.flow x).id = (go.flow x).id := by
    intro x
    rw [hgoflow]
    split
    · rename_i heq
      rw [hid, heq]
    · rfl
  have hgosize : go'.flows.size = go.flows.size := by rw [hgo]; rfl
  have hgoorder : go'.order = go.order := by rw [hgo]
  have hgosessions : go'.sessions = go.sessions := by rw [hgo]
  constructor
  case capacity => rw [hcapacity, h.capacity, hgo]
  case maxSessions => rw [hmax, h.maxSessions, hgo]
  case size =>
    rw [hgosize, h.size, hflows]
    rfl
  case flows =>
    intro x
    rw [hwebflow, hgoflow]
    split
    · exact hflow
    · exact h.flows x
  case acks =>
    intro x
    rw [hgoflow]
    split
    · exact hack
    · exact h.acks x
  case order => rw [horder, h.order, hgoorder]
  case sessions =>
    intro id x
    rw [hgosessions, hgoorder, hgoid]
    exact h.sessions id x
  case keyed => rw [hgosessions, hsessions, h.keyed]
  case retained =>
    rw [hgosessions, ← h.retained, hgo]
  case cursor => exact hcursor
  case closed => rw [hclosed, h.closed, hgo]
  case held => exact hheld
  case outstanding => exact houtstanding
  case pending => exact hpending

end Agrees

end Windshare.Receiver
