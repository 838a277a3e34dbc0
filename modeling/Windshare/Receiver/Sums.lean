import Windshare.Receiver.WebLedger

/-!
# The sums of the receive ledger

The ledger keeps three totals beside six counts for each flow. The invariant says what each
total sums up over the retained flows, and how the counts of a flow lie one behind the other.
An operation changes one flow, so a total changes with the weight of that flow.
-/

namespace Windshare.Receiver

open Windshare.Library
open Windshare.Relay.Flow (Dimension)

/-- The counts of a flow are prefixes of what it received, one behind the other. -/
structure Flow.Sound (flow : Flow) : Prop where
  origin : Spans .zero flow.reported
  reported : Spans flow.reported flow.consumedPrefix
  consumedPrefix : Spans flow.consumedPrefix flow.completed
  completed : Spans flow.completed flow.received
  received : flow.received.within maxCounts = true
  unbroken : flow.discarded.frames = 0 → flow.consumedPrefix = flow.completed
  parts : ∀ d, 0 ≤ flow.consumed.amount d ∧ 0 ≤ flow.discarded.amount d ∧
    flow.consumed.amount d + flow.discarded.amount d = flow.completed.amount d
  settled : flow.state.isSettled = true → flow.completed = flow.received

namespace Flow

/-- What the flow holds. -/
def held (flow : Flow) (d : Dimension) : Int := flow.received.amount d - flow.completed.amount d

/-- What the flow has not refunded. -/
def outstanding (flow : Flow) (d : Dimension) : Int :=
  if flow.state.isSettled then 0 else flow.received.amount d - flow.reported.amount d

/-- What the flow consumed and did not report. -/
def pending (flow : Flow) (d : Dimension) : Int :=
  if flow.state.isSettled then 0 else flow.consumedPrefix.amount d - flow.reported.amount d

variable {flow : Flow} {d : Dimension}

theorem Sound.held_nonneg (h : flow.Sound) : 0 ≤ flow.held d :=
  Int.sub_nonneg_of_le h.completed.amount_le

theorem Sound.pending_nonneg (h : flow.Sound) : 0 ≤ flow.pending d := by
  unfold pending
  split
  · exact le_rfl
  · exact Int.sub_nonneg_of_le h.reported.amount_le

theorem Sound.pending_le (h : flow.Sound) : flow.pending d ≤ flow.outstanding d := by
  unfold pending outstanding
  split
  · exact le_rfl
  · have hle : flow.consumedPrefix.amount d ≤ flow.received.amount d :=
      (h.consumedPrefix.trans h.completed).amount_le
    omega

theorem Sound.held_le (h : flow.Sound) : flow.held d ≤ flow.outstanding d := by
  unfold held outstanding
  split
  · rename_i hsettled
    rw [h.settled hsettled]
    omega
  · have hle : flow.reported.amount d ≤ flow.completed.amount d :=
      (h.reported.trans h.consumedPrefix).amount_le
    omega

/-- Unreported consumption shows in the number of frames. -/
theorem Sound.unreported_iff (h : flow.Sound) :
    flow.unreported = true ↔ flow.pending .frames ≠ 0 := by
  unfold unreported pending
  cases hsettled : flow.state.isSettled with
  | true => simp
  | false =>
    simp only [Bool.not_false, Bool.true_and, decide_eq_true_eq, Bool.false_eq_true, if_false]
    constructor
    · intro hne hzero
      have hlt := h.reported.frames_lt (Ne.symm hne)
      simp only [ReceiveCounts.amount] at hzero
      omega
    · intro hne heq
      exact hne (by rw [heq]; omega)

/-! ### Steps of a flow -/

theorem sound_new (wireId : WireId) : (new wireId).Sound where
  origin := .refl _
  reported := .refl _
  consumedPrefix := .refl _
  completed := .refl _
  received := (by decide : ReceiveCounts.zero.within maxCounts = true)
  unbroken := fun _ => rfl
  parts := fun d => by simp [new]
  settled := fun hsettled => by cases hsettled

/-- A flow that can complete another envelope is not settled. -/
theorem Sound.unsettled (h : flow.Sound) {after : ReceiveCounts}
    (hafter : Spans after flow.received) (hlt : flow.completed.frames < after.frames) :
    flow.state.isSettled = false := by
  by_contra hsettled
  have hframes := hafter.frames
  rw [← h.settled (by simpa using hsettled)] at hframes
  omega

theorem Sound.discard (h : flow.Sound) {after : ReceiveCounts}
    (hspan : Spans flow.completed after) (hafter : Spans after flow.received)
    (hlt : flow.completed.frames < after.frames) :
    (flow.discard after (after.sub flow.completed)).Sound := by
  refine ⟨h.origin, h.reported, h.consumedPrefix.trans hspan, hafter, h.received, ?_, ?_, ?_⟩
  · intro hzero
    have hparts := (h.parts .frames).2.1
    simp only [Flow.discard, ReceiveCounts.add, ReceiveCounts.sub, ReceiveCounts.amount] at *
    omega
  · intro d
    obtain ⟨hconsumed, hdiscarded, hsum⟩ := h.parts d
    have hle : flow.completed.amount d ≤ after.amount d := hspan.amount_le
    simp only [Flow.discard, ReceiveCounts.amount_add, ReceiveCounts.amount_sub]
    exact ⟨hconsumed, by omega, by omega⟩
  · intro hsettled
    exact absurd (hsettled.symm.trans (h.unsettled hafter hlt)) (by simp)

theorem Sound.consume (h : flow.Sound) {after : ReceiveCounts}
    (hspan : Spans flow.completed after) (hafter : Spans after flow.received)
    (hlt : flow.completed.frames < after.frames) :
    (flow.consume after (after.sub flow.completed)).Sound := by
  have hparts : ∀ d, 0 ≤ (flow.consume after (after.sub flow.completed)).consumed.amount d ∧
      0 ≤ flow.discarded.amount d ∧
      (flow.consume after (after.sub flow.completed)).consumed.amount d +
        flow.discarded.amount d = after.amount d := by
    intro d
    obtain ⟨hconsumed, hdiscarded, hsum⟩ := h.parts d
    have hle : flow.completed.amount d ≤ after.amount d := hspan.amount_le
    simp only [Flow.consume, ReceiveCounts.amount_add, ReceiveCounts.amount_sub]
    exact ⟨by omega, hdiscarded, by omega⟩
  have hsettled : flow.state.isSettled = true → after = flow.received := fun hsettled =>
    absurd (hsettled.symm.trans (h.unsettled hafter hlt)) (by simp)
  by_cases hdiscarded : flow.discarded.frames = 0
  · have hunbroken := h.unbroken hdiscarded
    have hextended : (flow.consume after (after.sub flow.completed)).consumedPrefix = after :=
      if_pos hdiscarded
    refine ⟨h.origin, ?_, ?_, hafter, h.received, fun _ => hextended, hparts, hsettled⟩
    · rw [hextended]
      exact (hunbroken ▸ h.reported).trans hspan
    · rw [hextended]
      exact .refl _
  · have hextended : (flow.consume after (after.sub flow.completed)).consumedPrefix =
        flow.consumedPrefix := if_neg hdiscarded
    refine ⟨h.origin, ?_, ?_, hafter, h.received, fun hzero => absurd hzero hdiscarded, hparts,
      hsettled⟩
    · rw [hextended]
      exact h.reported
    · rw [hextended]
      exact h.consumedPrefix.trans hspan

end Flow

/-! ### Totals over the order -/

/-- The total of a weight over a list of flows. -/
def total (order : List Ref) (w : Ref → Int) : Int := (order.map w).sum

section Total

variable {order : List Ref} {w v : Ref → Int} {r : Ref}

theorem total_congr (h : ∀ x ∈ order, v x = w x) : total order v = total order w := by
  unfold total
  rw [List.map_congr_left h]

theorem total_append : total (order ++ [r]) w = total order w + w r := by
  simp [total]

theorem total_erase (hr : r ∈ order) : total (order.erase r) w + w r = total order w := by
  unfold total
  rw [← List.sum_map_erase w hr, Int.add_comm]

/-- A total changes with the one weight that changes. -/
theorem total_update (hnodup : order.Nodup) (hr : r ∈ order) (h : ∀ x ∈ order, x ≠ r → v x = w x) :
    total order v = total order w + (v r - w r) := by
  have hrest : total (order.erase r) v = total (order.erase r) w :=
    total_congr fun x hx => h x (List.mem_of_mem_erase hx) (hnodup.mem_erase_iff.mp hx).1
  have hold := total_erase (w := w) hr
  have hnew := total_erase (w := v) hr
  omega

theorem total_nonneg (h : ∀ x ∈ order, 0 ≤ w x) : 0 ≤ total order w := by
  refine List.sum_nonneg fun y hy => ?_
  obtain ⟨x, hx, rfl⟩ := List.mem_map.mp hy
  exact h x hx

theorem total_mono (h : ∀ x ∈ order, w x ≤ v x) : total order w ≤ total order v :=
  List.sum_le_sum h

/-- A total of weights that are not negative is zero only if all are. -/
theorem total_eq_zero_iff (h : ∀ x ∈ order, 0 ≤ w x) :
    total order w = 0 ↔ ∀ x ∈ order, w x = 0 := by
  induction order with
  | nil => simp [total]
  | cons x order ih =>
    have hx := h x List.mem_cons_self
    have hrest : ∀ y ∈ order, 0 ≤ w y := fun y hy => h y (List.mem_cons_of_mem x hy)
    have hnonneg := total_nonneg hrest
    have hcons : total (x :: order) w = w x + total order w := by simp [total]
    rw [hcons, List.forall_mem_cons, ← ih hrest]
    constructor
    · intro hzero
      omega
    · rintro ⟨hx, hrest⟩
      omega

end Total

namespace WebLedger

/-- The receipt is for an envelope that its flow received. -/
structure GoodReceipt (l : WebLedger) (receipt : ReceiptPrefix) : Prop where
  session : receipt.session < l.flows.size
  span : Spans receipt.before receipt.after
  frames : receipt.before.frames < receipt.after.frames
  received : Spans receipt.after (l.flow receipt.session).received

/-- The state of the ledger and its totals fit together. -/
structure Sound (l : WebLedger) : Prop where
  flows : l.flows.All Flow.Sound
  nodup : l.order.Nodup
  allocated : ∀ r ∈ l.order, r < l.flows.size
  sessions : ∀ s r, l.sessions.get? s = some r ↔ r = s ∧ r ∈ l.order
  retained : l.sessions.size = l.order.length
  wires : ∀ w, w ∈ l.wireSessions ↔ ∃ r ∈ l.order, (l.flow r).wireId = w
  distinct : ∀ r ∈ l.order, ∀ r' ∈ l.order, (l.flow r).wireId = (l.flow r').wireId → r = r'
  receipts : l.receipts.All l.GoodReceipt
  forgotten : ∀ r < l.flows.size, r ∉ l.order → (l.flow r).state.isSettled = true
  held : ∀ d, l.held.amount d = total l.order fun r => (l.flow r).held d
  outstanding : ∀ d, l.outstanding.amount d = total l.order fun r => (l.flow r).outstanding d
  pending : ∀ d, l.pendingConsumed.amount d = total l.order fun r => (l.flow r).pending d
  capacity : l.outstanding.within l.capacity = true
  cursor : l.cursor < l.order.length ∨ l.order = [] ∧ l.cursor = 0

variable {l l' : WebLedger} {r : Ref} {f : Flow → Flow}

theorem flow_modify (x : Ref) :
    (l.modifyFlow r f).flow x = if x = r then f (l.flow r) else l.flow x := l.flows.get_modify

theorem Sound.flow_sound (h : l.Sound) (hr : r ∈ l.order) : (l.flow r).Sound :=
  h.flows r (h.allocated r hr)

/-- A session that is accepted names a retained flow. -/
theorem Sound.check_ok (h : l.Sound) {session : Ref} (hcheck : l.check session = .ok r) :
    l.closed = false ∧ session = r ∧ r ∈ l.order := by
  unfold check at hcheck
  split at hcheck
  · cases hcheck
  rename_i hopen
  split at hcheck
  · cases hcheck
  rename_i hget
  cases hcheck
  obtain ⟨rfl, hmem⟩ := (h.sessions session r).mp hget
  exact ⟨by simpa using hopen, rfl, hmem⟩

/-- An operation that changes one retained flow. -/
theorem Sound.change (h : l.Sound) (hr : r ∈ l.order) (hf : (f (l.flow r)).Sound)
    (hwire : (f (l.flow r)).wireId = (l.flow r).wireId)
    (hflows : l'.flows = l.flows.modify r f) (hsessions : l'.sessions = l.sessions)
    (hwires : l'.wireSessions = l.wireSessions) (horder : l'.order = l.order)
    (hreceipts : l'.receipts.All l'.GoodReceipt)
    (hheld : ∀ d, l'.held.amount d = l.held.amount d + ((f (l.flow r)).held d - (l.flow r).held d))
    (houtstanding : ∀ d, l'.outstanding.amount d =
      l.outstanding.amount d + ((f (l.flow r)).outstanding d - (l.flow r).outstanding d))
    (hpending : ∀ d, l'.pendingConsumed.amount d =
      l.pendingConsumed.amount d + ((f (l.flow r)).pending d - (l.flow r).pending d))
    (hcapacity : l'.outstanding.within l'.capacity = true)
    (hcursor : l'.cursor < l.order.length) : l'.Sound := by
  have hflow : ∀ x, l'.flow x = if x = r then f (l.flow r) else l.flow x := by
    intro x
    unfold flow
    rw [hflows]
    exact l.flows.get_modify
  have hself : l'.flow r = f (l.flow r) := by rw [hflow, if_pos rfl]
  have hother : ∀ x, x ≠ r → l'.flow x = l.flow x := fun x hx => by rw [hflow, if_neg hx]
  have hsize : l'.flows.size = l.flows.size := by rw [hflows]; rfl
  have hwireId : ∀ x, (l'.flow x).wireId = (l.flow x).wireId := by
    intro x
    by_cases hx : x = r
    · rw [hx, hself, hwire]
    · rw [hother x hx]
  have htotal : ∀ w : Flow → Int, (total l'.order fun x => w (l'.flow x)) =
      (total l.order fun x => w (l.flow x)) + (w (f (l.flow r)) - w (l.flow r)) := by
    intro w
    rw [horder, ← hself]
    exact total_update h.nodup hr fun x _ hx => by rw [hother x hx]
  constructor
  case flows =>
    intro x hx
    show (l'.flow x).Sound
    rw [hflow]
    split
    · exact hf
    · exact h.flows x (hsize ▸ hx)
  case nodup => exact horder ▸ h.nodup
  case allocated => exact fun x hx => hsize ▸ h.allocated x (horder ▸ hx)
  case sessions => exact fun s x => by rw [hsessions, horder, h.sessions]
  case retained => rw [hsessions, horder, h.retained]
  case wires => exact fun w => by simp only [hwires, horder, hwireId, h.wires]
  case distinct =>
    intro x hx y hy heq
    rw [hwireId, hwireId] at heq
    exact h.distinct x (horder ▸ hx) y (horder ▸ hy) heq
  case receipts => exact hreceipts
  case forgotten =>
    intro x hx hmem
    have hne : x ≠ r := by
      rintro rfl
      exact hmem (horder ▸ hr)
    rw [hother x hne]
    exact h.forgotten x (hsize ▸ hx) (horder ▸ hmem)
  case held => exact fun d => by rw [hheld, h.held, htotal fun flow => flow.held d]
  case outstanding =>
    exact fun d => by rw [houtstanding, h.outstanding, htotal fun flow => flow.outstanding d]
  case pending => exact fun d => by rw [hpending, h.pending, htotal fun flow => flow.pending d]
  case capacity => exact hcapacity
  case cursor => exact .inl (horder ▸ hcursor)

end WebLedger

end Windshare.Receiver
