import Windshare.Library.Transition
import Windshare.Receiver.WebSteps

/-!
# Runs of the web ledger

Any sequence of calls on one ledger. Beside the ledger the host keeps what was refunded for
each flow: the amount by which a taken control lowered the outstanding total.
-/

namespace Windshare.Receiver

open Windshare.Library
open Windshare.Relay.Flow (Dimension)

/-- The calls of a receive ledger. Sessions and receipts are named by their tokens. -/
inductive LedgerCall where
  | openSession (wireId : WireId)
  | receive (session : Ref) (encodedBytes : Nat)
  | consume (receipt : Ref)
  | discard (receipt : Ref)
  | retire (session : Ref)
  | notice (session : Ref) (notice : Totals)
  | takeConsumed
  | takeSettlement (session : Ref)
  | forget (session : Ref)
  | close
deriving DecidableEq, Repr

namespace WebLedger

variable (l : WebLedger)

def perform : LedgerCall → WebLedger
  | .openSession wireId => (l.openSession wireId).1
  | .receive session encodedBytes => (l.receive session encodedBytes).1
  | .consume receipt => (l.complete receipt .consume).1
  | .discard receipt => (l.complete receipt .discard).1
  | .retire session => (l.retire session).1
  | .notice session notice => (l.notice session notice).1
  | .takeConsumed => l.takeConsumed.1
  | .takeSettlement session => (l.takeSettlement session).1
  | .forget session => (l.forget session).1
  | .close => l.close

def takenFlow : LedgerCall → Option Ref
  | .takeConsumed => l.takeFlow.2
  | .takeSettlement session =>
    if (l.takeSettlement session).2.isSome then l.sessions.get? session else none
  | _ => none

variable {l}

theorem Sound.perform (h : l.Sound) (call : LedgerCall) : (l.perform call).Sound := by
  cases call with
  | openSession wireId => exact h.openSession wireId
  | receive session encodedBytes => exact h.receive session encodedBytes
  | consume receipt => exact h.complete receipt .consume
  | discard receipt => exact h.complete receipt .discard
  | retire session => exact h.retire session
  | notice session notice => exact h.notice session notice
  | takeConsumed => exact h.takeFlow
  | takeSettlement session => exact h.takeSettlement session
  | forget session => exact h.forget session
  | close => exact h.close

/-- What the constructor accepts and returns. -/
theorem new_ok {capacity : ReceiveCounts} {maxSessions : Nat}
    (h : WebLedger.new capacity maxSessions = .ok l) :
    validCapacity capacity = true ∧ l = empty capacity maxSessions := by
  unfold WebLedger.new at h
  split at h
  · cases h
  rename_i hconfig
  simp only [not_or, Bool.not_eq_false] at hconfig
  injection h with hledger
  exact ⟨hconfig.2.2, hledger.symm⟩

theorem sound_empty {capacity : ReceiveCounts} {maxSessions : Nat}
    (hvalid : validCapacity capacity = true) : (empty capacity maxSessions).Sound := by
  unfold validCapacity at hvalid
  simp only [Bool.and_eq_true, decide_eq_true_eq] at hvalid
  have hnone : ∀ {P : Prop} {n : Nat}, n < 0 → P := fun hn => absurd hn (Nat.not_lt_zero _)
  have hzero : ∀ d, ReceiveCounts.zero.amount d = 0 := fun d => ReceiveCounts.amount_zero
  constructor
  case flows => exact fun _ hn => hnone hn
  case nodup => exact List.nodup_nil
  case allocated => exact fun _ hr => absurd hr List.not_mem_nil
  case sessions =>
    intro s r
    constructor
    · intro hget
      cases hget
    · exact fun hr => absurd hr.2 List.not_mem_nil
  case retained => rfl
  case wires => simp [empty]
  case distinct => exact fun _ hr => absurd hr List.not_mem_nil
  case receipts => exact fun _ hn => hnone hn
  case forgotten => exact fun _ hn => hnone hn
  case held => exact hzero
  case outstanding => exact hzero
  case pending => exact hzero
  case capacity =>
    refine ReceiveCounts.within_iff.mpr fun d => (hzero d).trans_le ?_
    cases d with
    | frames => exact Int.le_of_lt hvalid.1.1
    | encodedBytes => exact Int.le_of_lt hvalid.1.2
  case cursor => exact .inr ⟨rfl, rfl⟩

end WebLedger

/-! ### Refunds -/

/-- What was refunded for the flow: its reported prefix, and all of it when it is settled. -/
def Flow.refunded (flow : Flow) : ReceiveCounts :=
  if flow.state.isSettled then flow.received else flow.reported

namespace Flow

variable {flow : Flow} {d : Dimension}

theorem refunded_of_settled (h : flow.state.isSettled = true) : flow.refunded = flow.received :=
  if_pos h

theorem refunded_of_unsettled (h : flow.state.isSettled = false) :
    flow.refunded = flow.reported := by
  unfold refunded
  rw [h]
  rfl

theorem Sound.refunded_le (h : flow.Sound) :
    0 ≤ flow.refunded.amount d ∧ flow.refunded.amount d ≤ flow.received.amount d := by
  have horigin : ReceiveCounts.zero.amount d ≤ flow.reported.amount d := h.origin.amount_le
  have hreported : flow.reported.amount d ≤ flow.received.amount d :=
    ((h.reported.trans h.consumedPrefix).trans h.completed).amount_le
  rw [ReceiveCounts.amount_zero] at horigin
  cases hsettled : flow.state.isSettled with
  | true =>
    rw [refunded_of_settled hsettled]
    exact ⟨horigin.trans hreported, le_rfl⟩
  | false =>
    rw [refunded_of_unsettled hsettled]
    exact ⟨horigin, hreported⟩

/-- No counter of the flow is negative. -/
structure Nonnegative (flow : Flow) : Prop where
  received : ∀ d, 0 ≤ flow.received.amount d
  consumed : ∀ d, 0 ≤ flow.consumed.amount d
  discarded : ∀ d, 0 ≤ flow.discarded.amount d
  consumedPrefix : ∀ d, 0 ≤ flow.consumedPrefix.amount d
  completed : ∀ d, 0 ≤ flow.completed.amount d
  reported : ∀ d, 0 ≤ flow.reported.amount d

theorem Sound.nonnegative (h : flow.Sound) : flow.Nonnegative := by
  have hpos : ∀ {c : ReceiveCounts}, Spans .zero c → ∀ d, 0 ≤ c.amount d := by
    intro c hspan d
    have hle : ReceiveCounts.zero.amount d ≤ c.amount d := hspan.amount_le
    rwa [ReceiveCounts.amount_zero] at hle
  have hconsumed := h.origin.trans h.reported
  have hcompleted := hconsumed.trans h.consumedPrefix
  exact ⟨hpos (hcompleted.trans h.completed), fun d => (h.parts d).1, fun d => (h.parts d).2.1,
    hpos hconsumed, hpos hcompleted, hpos h.origin⟩

end Flow

namespace WebLedger

variable {l : WebLedger} {r session : Ref} {f : Flow → Flow}

theorem Sound.nonneg (h : l.Sound) (d : Dimension) :
    0 ≤ l.held.amount d ∧ 0 ≤ l.outstanding.amount d ∧ 0 ≤ l.pendingConsumed.amount d := by
  rw [h.held, h.outstanding, h.pending]
  refine ⟨total_nonneg fun r hr => (h.flow_sound hr).held_nonneg, total_nonneg fun r hr => ?_,
    total_nonneg fun r hr => (h.flow_sound hr).pending_nonneg⟩
  exact (h.flow_sound hr).pending_nonneg.trans (h.flow_sound hr).pending_le

theorem capacity_perform (call : LedgerCall) : (l.perform call).capacity = l.capacity := by
  cases call with
  | openSession wireId =>
    change (l.openSession wireId).1.capacity = _
    unfold openSession
    repeat' split
    all_goals rfl
  | receive session encodedBytes =>
    change (l.receive session encodedBytes).1.capacity = _
    unfold receive
    repeat' split
    all_goals rfl
  | consume receipt =>
    change (l.complete receipt .consume).1.capacity = _
    unfold complete completeFlow
    repeat' split
    all_goals rfl
  | discard receipt =>
    change (l.complete receipt .discard).1.capacity = _
    unfold complete completeFlow
    repeat' split
    all_goals rfl
  | retire session =>
    change (l.retire session).1.capacity = _
    unfold retire
    repeat' split
    all_goals rfl
  | notice session notice =>
    change (l.notice session notice).1.capacity = _
    unfold WebLedger.notice
    repeat' split
    all_goals rfl
  | takeConsumed =>
    change l.takeFlow.1.capacity = _
    unfold takeFlow
    repeat' split
    all_goals rfl
  | takeSettlement session =>
    change (l.takeSettlement session).1.capacity = _
    unfold takeSettlement acknowledge
    repeat' split
    all_goals rfl
  | forget session =>
    change (l.forget session).1.capacity = _
    unfold forget
    repeat' split
    all_goals rfl
  | close => rfl

theorem refunded_modify (hf : (f (l.flow r)).refunded = (l.flow r).refunded) (x : Ref) :
    ((l.modifyFlow r f).flow x).refunded = (l.flow x).refunded := by
  rw [flow_modify]
  split
  · rename_i heq
    rw [hf, heq]
  · rfl

/-- The call refunds nothing. -/
structure Unrefunded (l l' : WebLedger) : Prop where
  size : l.flows.size ≤ l'.flows.size
  old : ∀ x < l.flows.size, (l'.flow x).refunded = (l.flow x).refunded
  new : ∀ x, l.flows.size ≤ x → x < l'.flows.size → (l'.flow x).refunded = .zero

theorem Unrefunded.of_modify {l' : WebLedger} (hsize : l'.flows.size = l.flows.size)
    (hold : ∀ x, (l'.flow x).refunded = (l.flow x).refunded) : Unrefunded l l' :=
  ⟨hsize ▸ le_rfl, fun x _ => hold x, fun x hle hlt => by omega⟩

theorem Unrefunded.refl (l : WebLedger) : Unrefunded l l := .of_modify rfl fun _ => rfl

theorem unrefunded_openSession (wireId : WireId) : Unrefunded l (l.openSession wireId).1 := by
  unfold openSession
  repeat' split
  any_goals exact .refl l
  refine ⟨Nat.le_succ _, ?_, ?_⟩
  · intro x hx
    rw [flow_addFlow, if_neg (Nat.ne_of_lt hx)]
  · intro x hle hlt
    rw [flow_addFlow, if_pos (Nat.le_antisymm (Nat.le_of_lt_succ hlt) hle)]
    rfl

theorem unrefunded_receive (encodedBytes : Nat) :
    Unrefunded l (l.receive session encodedBytes).1 := by
  unfold receive
  split
  · exact .refl l
  rename_i r _
  split
  · exact .refl l
  rename_i hstate
  rw [not_or] at hstate
  split
  · exact .refl l
  rename_i after _
  split
  · exact .refl l
  refine .of_modify rfl (refunded_modify (f := (·.receive after)) ?_)
  unfold Flow.refunded
  rw [show ((l.flow r).receive after).state = (l.flow r).state from rfl, if_neg hstate.2,
    if_neg hstate.2]
  rfl

theorem unrefunded_complete (receipt : Ref) (action : Completion) :
    Unrefunded l (l.complete receipt action).1 := by
  unfold complete completeFlow
  repeat' split
  any_goals exact .refl l
  cases action with
  | discard => exact .of_modify rfl (refunded_modify (f := (·.discard _ _)) rfl)
  | consume => exact .of_modify rfl (refunded_modify (f := (·.consume _ _)) rfl)

theorem unrefunded_retire : Unrefunded l (l.retire session).1 := by
  unfold retire
  split
  · exact .refl l
  split
  · rename_i hactive
    refine .of_modify rfl (refunded_modify ?_)
    unfold Flow.refunded
    rw [hactive]
    rfl
  · exact .refl l

theorem unrefunded_notice (notice : Totals) : Unrefunded l (l.notice session notice).1 := by
  unfold WebLedger.notice
  split
  · exact .refl l
  rename_i r _
  split
  · exact .refl l
  refine .of_modify rfl (refunded_modify ?_)
  unfold Flow.refunded
  rw [show ((l.flow r).enter (noticed (l.flow r).state)).state.isSettled =
    (l.flow r).state.isSettled from isSettled_noticed _]
  rfl

theorem unrefunded_forget : Unrefunded l (l.forget session).1 := by
  unfold forget
  repeat' split
  all_goals exact .of_modify rfl fun _ => rfl

/-- What a taken control lowers the outstanding total by is what it refunds. -/
structure Refunds (l l' : WebLedger) (r : Ref) : Prop where
  size : l'.flows.size = l.flows.size
  allocated : r < l.flows.size
  taken : (l'.flow r).refunded = (l.flow r).refunded.add (l.outstanding.sub l'.outstanding)
  others : ∀ x, x ≠ r → l'.flow x = l.flow x

theorem refunds_of_modify {l' : WebLedger} {after : ReceiveCounts} (hr : r < l.flows.size)
    (hopen : (l.flow r).state.isSettled = false) (hflows : l'.flows = l.flows.modify r f)
    (hafter : (f (l.flow r)).refunded = after)
    (houtstanding : l'.outstanding = l.outstanding.sub (after.sub (l.flow r).reported)) :
    Refunds l l' r := by
  have hflow : ∀ x, l'.flow x = if x = r then f (l.flow r) else l.flow x := by
    intro x
    unfold flow
    rw [hflows]
    exact l.flows.get_modify
  have hbefore : (l.flow r).refunded = (l.flow r).reported := by
    unfold Flow.refunded
    rw [hopen]
    rfl
  refine ⟨by rw [hflows]; rfl, hr, ?_, fun x hx => by rw [hflow, if_neg hx]⟩
  rw [hflow, if_pos rfl, hafter, hbefore, houtstanding]
  refine ReceiveCounts.ext_amount fun d => ?_
  simp only [ReceiveCounts.amount_add, ReceiveCounts.amount_sub]
  omega

/-- A report refunds up to the consumed prefix. -/
theorem Sound.refunds_takeFlow (h : l.Sound) (htaken : l.takeFlow.2 = some r) :
    Refunds l l.takeFlow.1 r := by
  obtain ⟨-, hnone⟩ | ⟨-, x, hx, cursor, -, hunreported, -, hreport⟩ := h.takeFlow_cases
  · rw [hnone] at htaken
    cases htaken
  rw [hreport] at htaken ⊢
  cases htaken
  unfold Flow.unreported at hunreported
  simp only [Bool.and_eq_true, Bool.not_eq_true'] at hunreported
  refine refunds_of_modify (f := (·.report)) (h.allocated r hx) hunreported.1 rfl ?_ rfl
  unfold Flow.refunded
  rw [show (l.flow r).report.state = (l.flow r).state from rfl, hunreported.1]
  rfl

/-- The first acknowledgement refunds the rest, a repeated one nothing. -/
theorem Sound.refunds_acknowledge (h : l.Sound) (hr : r ∈ l.order)
    (htaken : (l.acknowledge r).2.isSome = true) : Refunds l (l.acknowledge r).1 r := by
  unfold acknowledge at htaken ⊢
  split at htaken
  · cases htaken
  rename_i hdone
  rw [if_neg hdone]
  cases hstate : (l.flow r).state with
  | active | retiring =>
    rw [hstate] at htaken
    cases htaken
  | draining =>
    have hopen : (l.flow r).state.isSettled = false := by rw [hstate]; rfl
    exact refunds_of_modify (f := (·.enter (.settled false))) (h.allocated r hr) hopen rfl rfl rfl
  | settled ackPending =>
    cases ackPending with
    | false =>
      rw [hstate] at htaken
      cases htaken
    | true =>
      refine ⟨rfl, h.allocated r hr, ?_, fun x hx => ?_⟩
      · rw [flow_modify, if_pos rfl]
        refine ReceiveCounts.ext_amount fun d => ?_
        have hsame : ((l.flow r).enter (.settled false)).refunded = (l.flow r).refunded := by
          unfold Flow.refunded
          rw [hstate]
          rfl
        rw [hsame, ReceiveCounts.amount_add, ReceiveCounts.amount_sub,
          show (l.modifyFlow r (·.enter (.settled false))).outstanding = l.outstanding from rfl]
        omega
      · exact (flow_modify x).trans (if_neg hx)

theorem acknowledge_none (h : (l.acknowledge r).2 = none) : (l.acknowledge r).1 = l := by
  unfold acknowledge at h ⊢
  split
  · rfl
  rename_i hdone
  rw [if_neg hdone] at h
  split at h
  all_goals first | rfl | cases h

/-- Every call refunds the flow whose control it takes, and no other. -/
theorem Sound.perform_refunds (h : l.Sound) (call : LedgerCall) :
    match l.takenFlow call with
    | none => Unrefunded l (l.perform call)
    | some r => Refunds l (l.perform call) r := by
  cases call with
  | openSession wireId => exact unrefunded_openSession wireId
  | receive session encodedBytes => exact unrefunded_receive encodedBytes
  | consume receipt => exact unrefunded_complete receipt .consume
  | discard receipt => exact unrefunded_complete receipt .discard
  | retire => exact unrefunded_retire
  | notice session notice => exact unrefunded_notice notice
  | takeConsumed =>
    change match l.takeFlow.2 with
      | none => Unrefunded l l.takeFlow.1
      | some r => Refunds l l.takeFlow.1 r
    cases htaken : l.takeFlow.2 with
    | some => exact h.refunds_takeFlow htaken
    | none =>
      obtain ⟨-, hnone⟩ | ⟨-, x, -, cursor, -, -, -, hreport⟩ := h.takeFlow_cases
      · rw [hnone]
        exact .refl l
      · rw [hreport] at htaken
        cases htaken
  | takeSettlement session =>
    change match if (l.takeSettlement session).2.isSome then l.sessions.get? session else none with
      | none => Unrefunded l (l.takeSettlement session).1
      | some r => Refunds l (l.takeSettlement session).1 r
    unfold WebLedger.takeSettlement
    cases hcheck : l.check session with
    | error => exact .refl l
    | ok =>
      obtain ⟨-, rfl, hr⟩ := h.check_ok hcheck
      cases htaken : (l.acknowledge session).2 with
      | none =>
        rw [acknowledge_none htaken]
        exact .refl l
      | some =>
        have hget : l.sessions.get? session = some session :=
          (h.sessions session session).mpr ⟨rfl, hr⟩
        rw [Option.isSome_some, if_pos rfl, hget]
        exact h.refunds_acknowledge hr (by rw [htaken]; rfl)
  | forget => exact unrefunded_forget
  | close => exact .of_modify rfl fun _ => rfl

end WebLedger

/-! ### Consecutive takes -/

namespace WebLedger

variable {l : WebLedger} {r : Ref}

def takes (l : WebLedger) : Nat → WebLedger
  | 0 => l
  | n + 1 => l.takeConsumed.1.takes n

theorem Sound.feedbackReady_iff (h : l.Sound) :
    l.feedbackReady = true ↔ l.takeConsumed.2.isSome = true := by
  unfold takeConsumed
  rw [Option.isSome_map]
  obtain ⟨hready, hnone⟩ | ⟨hready, x, -, cursor, -, -, -, hreport⟩ := h.takeFlow_cases
  · rw [hready, hnone]
    rfl
  · rw [hready, hreport]
    rfl

theorem flow_report (cursor : Nat) (x : Ref) :
    (l.report r cursor).flow x = if x = r then (l.flow r).report else l.flow x :=
  l.flows.get_modify

/-- After its report a flow has nothing to report, and the others are as before. -/
theorem unreported_report (cursor : Nat) (x : Ref) :
    ((l.report r cursor).flow x).unreported = ((l.flow x).unreported && x ≠ r) := by
  rw [flow_report]
  by_cases hx : x = r
  · subst hx
    rw [if_pos rfl]
    simp [Flow.unreported, Flow.report]
  · rw [if_neg hx]
    simp [hx]

theorem takeConsumed_keeps (x : Ref) :
    (l.takeConsumed.1.flow x).wireId = (l.flow x).wireId ∧
    (l.takeConsumed.1.flow x).consumedPrefix = (l.flow x).consumedPrefix := by
  unfold takeConsumed takeFlow
  split
  · exact ⟨rfl, rfl⟩
  split
  · exact ⟨rfl, rfl⟩
  · rw [flow_report]
    split
    · rename_i heq
      subst heq
      exact ⟨rfl, rfl⟩
    · exact ⟨rfl, rfl⟩

theorem takes_keep (n : Nat) (x : Ref) :
    ((l.takes n).flow x).wireId = (l.flow x).wireId ∧
    ((l.takes n).flow x).consumedPrefix = (l.flow x).consumedPrefix := by
  induction n generalizing l with
  | zero => exact ⟨rfl, rfl⟩
  | succ n ih =>
    have hrest := ih (l := l.takeConsumed.1)
    have hfirst := takeConsumed_keeps (l := l) x
    exact ⟨hrest.1.trans hfirst.1, hrest.2.trans hfirst.2⟩

/-- The takes of an open ledger go round its order as repeated searches do. -/
theorem Sound.takes_nth (h : l.Sound) (hopen : l.closed = false) {n : Nat}
    (hnth : Rotation.nth l.order (fun r => (l.flow r).unreported) l.cursor n = some r) :
    (l.takes n).takeFlow.2 = some r := by
  induction n generalizing l with
  | zero =>
    change l.takeFlow.2 = some r
    obtain ⟨hready, -⟩ | ⟨-, x, -, cursor, -, -, hsearch, hreport⟩ := h.takeFlow_cases
    · -- No flow has unreported consumption, so the search finds none.
      obtain ⟨hr, hunreported⟩ := Rotation.eligible_of_search hnth
      have hpending := h.pending_iff.mpr ⟨r, hr, hunreported⟩
      unfold feedbackReady at hready
      simp [hopen, hpending] at hready
    · unfold Rotation.nth at hnth
      rw [hsearch] at hnth
      rw [hreport]
      exact hnth
  | succ n ih =>
    obtain ⟨hready, -⟩ | ⟨-, x, hx, cursor, hcursor, -, hsearch, hreport⟩ := h.takeFlow_cases
    · unfold Rotation.nth at hnth
      split at hnth
      · cases hnth
      rename_i y hsearch
      obtain ⟨hy, hunreported⟩ := Rotation.eligible_of_search (congrArg Prod.snd hsearch)
      have hpending := h.pending_iff.mpr ⟨y, hy, hunreported⟩
      unfold feedbackReady at hready
      simp [hopen, hpending] at hready
    · unfold Rotation.nth at hnth
      rw [hsearch] at hnth
      have hnext : l.takeConsumed.1 = l.report x cursor := congrArg Prod.fst hreport
      have hsound : l.takeConsumed.1.Sound := h.takeFlow
      change (l.takeConsumed.1.takes n).takeFlow.2 = some r
      rw [hnext] at hsound ⊢
      refine ih hsound hopen ?_
      have heligible : (fun r => ((l.report x cursor).flow r).unreported) =
          fun z => (l.flow z).unreported && z ≠ x := funext (unreported_report cursor)
      rw [heligible]
      exact hnth

theorem takeConsumed_of_closed (hclosed : l.closed = true) : l.takeConsumed = (l, none) := by
  have hready : l.feedbackReady = false := by
    unfold feedbackReady
    rw [hclosed]
    rfl
  unfold takeConsumed takeFlow
  rw [if_pos hready]
  rfl

theorem takes_of_closed (hclosed : l.closed = true) (n : Nat) : l.takes n = l := by
  induction n with
  | zero => rfl
  | succ n ih =>
    unfold takes
    rw [takeConsumed_of_closed hclosed]
    exact ih

/-- Unreported consumption is reported within as many takes as flows are retained. -/
theorem Sound.exists_take (h : l.Sound) (hopen : l.closed = false) (hr : r ∈ l.order)
    (hunreported : (l.flow r).unreported = true) :
    ∃ n < l.order.length, (l.takes n).takeConsumed.2 = some ⟨(l.flow r).wireId,
      (l.flow r).consumedPrefix.frames, (l.flow r).consumedPrefix.encodedBytes⟩ := by
  obtain ⟨n, hn, hnth⟩ : ∃ n < l.order.length,
      Rotation.nth l.order (fun r => (l.flow r).unreported) l.cursor n = some r :=
    Rotation.exists_nth (h.cursor_lt hr) hr hunreported
  refine ⟨n, hn, ?_⟩
  unfold takeConsumed
  rw [h.takes_nth hopen hnth, Option.map_some, (takes_keep n r).1, (takes_keep n r).2]

end WebLedger

/-! ### Runs -/

/-- A ledger and what was refunded for each of its flows. -/
structure WebHost where
  ledger : WebLedger
  refunded : Ref → ReceiveCounts

namespace WebHost

/-- One call. The refund is read off the outstanding total. -/
def perform (host : WebHost) (call : LedgerCall) : WebHost where
  ledger := host.ledger.perform call
  refunded := fun r =>
    if host.ledger.takenFlow call = some r then
      (host.refunded r).add (host.ledger.outstanding.sub (host.ledger.perform call).outstanding)
    else host.refunded r

/-- The hosts of a new ledger. -/
def Starts (capacity : ReceiveCounts) (maxSessions : Nat) (host : WebHost) : Prop :=
  WebLedger.new capacity maxSessions = .ok host.ledger ∧ host.refunded = fun _ => .zero

def runs (capacity : ReceiveCounts) (maxSessions : Nat) : System WebHost LedgerCall :=
  .ofFunction (Starts capacity maxSessions) perform

/-- The refunds of every flow are its reported prefix, or all of it. -/
structure Accounted (host : WebHost) : Prop where
  sound : host.ledger.Sound
  known : ∀ r < host.ledger.flows.size, host.refunded r = (host.ledger.flow r).refunded
  fresh : ∀ r, host.ledger.flows.size ≤ r → host.refunded r = .zero

variable {host : WebHost} {capacity : ReceiveCounts} {maxSessions : Nat}

theorem accounted_of_starts (h : Starts capacity maxSessions host) : host.Accounted := by
  obtain ⟨hvalid, hledger⟩ := WebLedger.new_ok h.1
  refine ⟨hledger ▸ WebLedger.sound_empty hvalid, fun r hr => ?_, fun r _ => by rw [h.2]⟩
  rw [hledger] at hr
  exact absurd hr (Nat.not_lt_zero r)

theorem Accounted.perform (h : host.Accounted) (call : LedgerCall) :
    (host.perform call).Accounted := by
  have hrefunds := h.sound.perform_refunds call
  have hrefunded : ∀ r, (host.perform call).refunded r =
      if host.ledger.takenFlow call = some r then
        (host.refunded r).add (host.ledger.outstanding.sub (host.ledger.perform call).outstanding)
      else host.refunded r := fun _ => rfl
  refine ⟨h.sound.perform call, fun r hr => ?_, fun r hr => ?_⟩
  · change r < (host.ledger.perform call).flows.size at hr
    change _ = ((host.ledger.perform call).flow r).refunded
    rw [hrefunded]
    cases htaken : host.ledger.takenFlow call with
    | none =>
      rw [htaken] at hrefunds
      rw [if_neg nofun]
      obtain hlt | hge := Nat.lt_or_ge r host.ledger.flows.size
      · rw [hrefunds.old r hlt, h.known r hlt]
      · rw [hrefunds.new r hge hr, h.fresh r hge]
    | some x =>
      rw [htaken] at hrefunds
      rw [hrefunds.size] at hr
      by_cases hx : x = r
      · subst hx
        rw [if_pos rfl, hrefunds.taken, h.known x hr]
      · rw [if_neg fun heq => hx (Option.some.inj heq), hrefunds.others r (Ne.symm hx),
          h.known r hr]
  · change (host.ledger.perform call).flows.size ≤ r at hr
    rw [hrefunded]
    cases htaken : host.ledger.takenFlow call with
    | none =>
      rw [htaken] at hrefunds
      rw [if_neg nofun]
      exact h.fresh r (hrefunds.size.trans hr)
    | some x =>
      rw [htaken] at hrefunds
      rw [hrefunds.size] at hr
      have hx : x ≠ r := fun heq => Nat.not_lt.mpr hr (heq ▸ hrefunds.allocated)
      rw [if_neg fun heq => hx (Option.some.inj heq)]
      exact h.fresh r hr

theorem accounted_of_reachable (h : (runs capacity maxSessions).Reachable host) :
    host.Accounted := by
  refine h.invariant (fun _ hstart => accounted_of_starts hstart) ?_
  rintro s call _ hs rfl
  exact hs.perform call

theorem capacity_of_reachable (h : (runs capacity maxSessions).Reachable host) :
    host.ledger.capacity = capacity := by
  refine h.invariant (P := fun host => host.ledger.capacity = capacity) ?_ ?_
  · intro start hstart
    rw [(WebLedger.new_ok hstart.1).2]
    rfl
  · rintro s call _ hs rfl
    exact (WebLedger.capacity_perform call).trans hs

/-- The ledger's totals are the sums of its flows' counters, an open ledger reports in turn, and
every received byte is refunded once. -/
theorem ledger_totals (h : (runs capacity maxSessions).Reachable host) :
    let l := host.ledger
    (∀ d, l.held.amount d =
        total l.order fun r => (l.flow r).received.amount d - (l.flow r).completed.amount d) ∧
    (∀ d, l.outstanding.amount d = total l.order fun r =>
        if (l.flow r).state.isSettled then 0
        else (l.flow r).received.amount d - (l.flow r).reported.amount d) ∧
    l.outstanding.within capacity = true ∧
    (∀ d, l.pendingConsumed.amount d = total l.order fun r =>
        if (l.flow r).state.isSettled then 0
        else (l.flow r).consumedPrefix.amount d - (l.flow r).reported.amount d) ∧
    (∀ d, 0 ≤ l.held.amount d ∧ 0 ≤ l.outstanding.amount d ∧ 0 ≤ l.pendingConsumed.amount d) ∧
    (∀ r < l.flows.size, (l.flow r).Nonnegative) ∧
    (l.feedbackReady = true ↔ l.takeConsumed.2.isSome = true) ∧
    (l.order ≠ [] → l.cursor < l.order.length) ∧
    (l.closed = false → ∀ r ∈ l.order, (l.flow r).unreported = true →
      ∃ n < l.order.length, (l.takes n).takeConsumed.2 = some ⟨(l.flow r).wireId,
        (l.flow r).consumedPrefix.frames, (l.flow r).consumedPrefix.encodedBytes⟩) ∧
    (∀ r < l.flows.size,
      (∀ d, 0 ≤ (host.refunded r).amount d ∧
        (host.refunded r).amount d ≤ (l.flow r).received.amount d) ∧
      ((l.flow r).state.isSettled = true → host.refunded r = (l.flow r).received) ∧
      ((l.flow r).state.isSettled = false → host.refunded r = (l.flow r).reported)) := by
  have hhost := accounted_of_reachable h
  have hsound := hhost.sound
  refine ⟨hsound.held, hsound.outstanding, ?_, hsound.pending, hsound.nonneg, ?_,
    hsound.feedbackReady_iff, ?_, ?_, ?_⟩
  · rw [← capacity_of_reachable h]
    exact hsound.capacity
  · exact fun r hr => (hsound.flows r hr).nonnegative
  · intro hne
    obtain hlt | ⟨hnil, -⟩ := hsound.cursor
    · exact hlt
    · exact absurd hnil hne
  · exact fun hopen r hr hunreported => hsound.exists_take hopen hr hunreported
  · intro r hr
    rw [hhost.known r hr]
    exact ⟨fun d => (hsound.flows r hr).refunded_le, Flow.refunded_of_settled,
      Flow.refunded_of_unsettled⟩

/-- One frame of a session is received and consumed. -/
def consumingRun : List LedgerCall :=
  [.openSession [0, 0, 0, 0, 0, 0, 0, 1], .receive 0 30, .consume 0]

/-- The ledger is closed before the consumption is reported. -/
def closingRun : List LedgerCall := consumingRun ++ [.close]

def fresh : WebHost := ⟨.empty ⟨4, 1000⟩ 2, fun _ => .zero⟩

theorem reachable_fresh (calls : List LedgerCall) :
    (runs ⟨4, 1000⟩ 2).Reachable (calls.foldl perform fresh) :=
  System.reachable_foldl _ _ ⟨rfl, rfl⟩ calls

theorem ledger_totals_consumingRun :
    let l := (consumingRun.foldl perform fresh).ledger
    l.closed = false ∧ l.order = [0] ∧ (l.flow 0).unreported = true ∧
    ∃ n < l.order.length, (l.takes n).takeConsumed.2 = some ⟨(l.flow 0).wireId,
      (l.flow 0).consumedPrefix.frames, (l.flow 0).consumedPrefix.encodedBytes⟩ := by
  obtain ⟨-, -, -, -, -, -, -, -, htakes, -⟩ := ledger_totals (reachable_fresh consumingRun)
  have hopen : (consumingRun.foldl perform fresh).ledger.closed = false := by decide +kernel
  have horder : (consumingRun.foldl perform fresh).ledger.order = [0] := by decide +kernel
  have hunreported : ((consumingRun.foldl perform fresh).ledger.flow 0).unreported = true := by
    decide +kernel
  exact ⟨hopen, horder, hunreported, htakes hopen 0 (by rw [horder]; decide) hunreported⟩

/-- A closed ledger does not report what was consumed before. -/
theorem unreported_after_close :
    let l := (closingRun.foldl perform fresh).ledger
    (runs ⟨4, 1000⟩ 2).Reachable (closingRun.foldl perform fresh) ∧
    0 ∈ l.order ∧ (l.flow 0).state = .active ∧ (l.flow 0).unreported = true ∧
    ∀ n, (l.takes n).takeConsumed.2 = none := by
  refine ⟨reachable_fresh _, by decide +kernel, by decide +kernel, by decide +kernel, ?_⟩
  intro n
  have hclosed : (closingRun.foldl perform fresh).ledger.closed = true := by
    decide +kernel
  rw [WebLedger.takes_of_closed hclosed, WebLedger.takeConsumed_of_closed hclosed]

end WebHost

end Windshare.Receiver
