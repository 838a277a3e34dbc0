import Windshare.Receiver.Sums

/-!
# Operations of the web ledger

Every operation of the web ledger keeps the invariant of its totals.
-/

namespace Windshare.Receiver

open Windshare.Library
open Windshare.Relay.Flow (Dimension)

namespace WebLedger

variable {l l' : WebLedger} {r session : Ref} {f : Flow → Flow}

/-- A total stays when the amount of the changed flow does. -/
theorem amount_kept {total old new : Int} (h : new = old) : total = total + (new - old) := by
  omega

theorem Sound.cursor_lt (h : l.Sound) (hr : r ∈ l.order) : l.cursor < l.order.length := by
  obtain hlt | ⟨hnil, -⟩ := h.cursor
  · exact hlt
  · rw [hnil] at hr
    exact absurd hr List.not_mem_nil

/-- Receipts stay good while a flow receives no less. -/
theorem GoodReceipt.of_modify {receipt : ReceiptPrefix} (h : l.GoodReceipt receipt)
    (hflows : l'.flows = l.flows.modify r f)
    (hreceived : Spans (l.flow r).received (f (l.flow r)).received) : l'.GoodReceipt receipt := by
  have hflow : l'.flow receipt.session =
      if receipt.session = r then f (l.flow r) else l.flow receipt.session := by
    unfold flow
    rw [hflows]
    exact l.flows.get_modify
  refine ⟨by rw [hflows]; exact h.session, h.span, h.frames, h.received.trans ?_⟩
  rw [hflow]
  split
  · rename_i heq
    rw [heq]
    exact hreceived
  · exact .refl _

/-- A change of the state that leaves a flow unsettled or settled as it was. -/
theorem Sound.enter (h : l.Sound) (hr : r ∈ l.order) {state : SettlementState}
    (hsettled : state.isSettled = (l.flow r).state.isSettled) :
    (l.modifyFlow r (·.enter state)).Sound := by
  have hflow := h.flow_sound hr
  refine h.change hr (f := (·.enter state)) ?_ rfl rfl rfl rfl rfl ?_ ?_ ?_ ?_ h.capacity
    (h.cursor_lt hr)
  · exact ⟨hflow.origin, hflow.reported, hflow.consumedPrefix, hflow.completed, hflow.received,
      hflow.unbroken, hflow.parts, fun hs => hflow.settled (hsettled ▸ hs)⟩
  · exact h.receipts.mono fun _ hgood => hgood.of_modify (f := (·.enter state)) rfl (.refl _)
  · exact fun d => amount_kept rfl
  · intro d
    have hsame : ((l.flow r).enter state).outstanding d = (l.flow r).outstanding d := by
      unfold Flow.outstanding
      rw [show ((l.flow r).enter state).state.isSettled = (l.flow r).state.isSettled from hsettled]
      rfl
    exact amount_kept hsame
  · intro d
    have hsame : ((l.flow r).enter state).pending d = (l.flow r).pending d := by
      unfold Flow.pending
      rw [show ((l.flow r).enter state).state.isSettled = (l.flow r).state.isSettled from hsettled]
      rfl
    exact amount_kept hsame

/-! ### Opening -/

variable {after : ReceiveCounts} {wireId : WireId}

theorem flow_addFlow (x : Ref) :
    (l.addFlow wireId).flow x = if x = l.flows.size then .new wireId else l.flow x :=
  l.flows.get_alloc

section

variable (h : l.Sound)

include h

theorem Sound.addFlow (hfresh : wireId ∉ l.wireSessions) : (l.addFlow wireId).Sound := by
  have hnew : l.flows.size ∉ l.order := fun hmem => Nat.lt_irrefl _ (h.allocated _ hmem)
  have hold : ∀ x < l.flows.size, (l.addFlow wireId).flow x = l.flow x :=
    fun x hx => l.flows.get_alloc_of_lt hx
  have hself : (l.addFlow wireId).flow l.flows.size = .new wireId := l.flows.get_alloc_size
  have hkept : ∀ x ∈ l.order, (l.addFlow wireId).flow x = l.flow x :=
    fun x hx => hold x (h.allocated x hx)
  have hmem : ∀ x, x ∈ (l.addFlow wireId).order ↔ x ∈ l.order ∨ x = l.flows.size := by
    intro x
    show x ∈ l.order ++ [l.flows.size] ↔ _
    rw [List.mem_append, List.mem_singleton]
  have htotal : ∀ w : Flow → Int, w (.new wireId) = 0 →
      (total (l.addFlow wireId).order fun x => w ((l.addFlow wireId).flow x)) =
        total l.order fun x => w (l.flow x) := by
    intro w hzero
    show total (l.order ++ [l.flows.size]) _ = _
    rw [total_append, hself, hzero, Int.add_zero]
    exact total_congr fun x hx => by rw [hkept x hx]
  have hsession : l.sessions.get? l.flows.size = none := by
    cases hget : l.sessions.get? l.flows.size with
    | none => rfl
    | some =>
      obtain ⟨rfl, hx⟩ := (h.sessions _ _).mp hget
      exact absurd hx hnew
  have hwire : ∀ x ∈ l.order, (l.flow x).wireId ≠ wireId :=
    fun x hx heq => hfresh ((h.wires wireId).mpr ⟨x, hx, heq⟩)
  constructor
  case flows => exact h.flows.alloc (Flow.sound_new wireId)
  case nodup =>
    refine List.nodup_append.mpr ⟨h.nodup, List.nodup_singleton _, ?_⟩
    intro x hx y hy
    rw [List.mem_singleton.mp hy]
    rintro rfl
    exact hnew hx
  case allocated =>
    intro x hx
    obtain hx | rfl := (hmem x).mp hx
    · exact Nat.lt_succ_of_lt (h.allocated x hx)
    · exact Nat.lt_succ_self _
  case sessions =>
    intro s x
    rw [hmem]
    show (l.sessions.insert l.flows.size l.flows.size).get? s = some x ↔ _
    rw [FiniteMap.get?_insert]
    split
    · rename_i heq
      subst heq
      constructor
      · intro hx
        cases hx
        exact ⟨rfl, .inr rfl⟩
      · rintro ⟨rfl, -⟩
        rfl
    · rename_i hne
      rw [h.sessions]
      constructor
      · rintro ⟨rfl, hx⟩
        exact ⟨rfl, .inl hx⟩
      · rintro ⟨rfl, hx | heq⟩
        · exact ⟨rfl, hx⟩
        · exact absurd heq.symm hne
  case retained =>
    show (l.sessions.insert l.flows.size l.flows.size).size = (l.order ++ [l.flows.size]).length
    rw [FiniteMap.size_insert_of_none hsession, h.retained, List.length_append]
    rfl
  case wires =>
    intro w
    show w ∈ wireId :: l.wireSessions ↔ _
    rw [List.mem_cons, h.wires]
    constructor
    · rintro (rfl | ⟨x, hx, hw⟩)
      · exact ⟨l.flows.size, (hmem _).mpr (.inr rfl), by rw [hself]; rfl⟩
      · exact ⟨x, (hmem x).mpr (.inl hx), by rw [hkept x hx, hw]⟩
    · rintro ⟨x, hx, hw⟩
      obtain hx | rfl := (hmem x).mp hx
      · exact .inr ⟨x, hx, by rw [← hkept x hx, hw]⟩
      · rw [hself] at hw
        exact .inl hw.symm
  case distinct =>
    intro x hx y hy heq
    obtain hx | rfl := (hmem x).mp hx <;> obtain hy | rfl := (hmem y).mp hy
    · rw [hkept x hx, hkept y hy] at heq
      exact h.distinct x hx y hy heq
    · rw [hkept x hx, hself] at heq
      exact absurd heq (hwire x hx)
    · rw [hkept y hy, hself] at heq
      exact absurd heq.symm (hwire y hy)
    · rfl
  case receipts =>
    refine h.receipts.mono fun receipt hgood => ?_
    exact ⟨Nat.lt_succ_of_lt hgood.session, hgood.span, hgood.frames,
      by rw [hold _ hgood.session]; exact hgood.received⟩
  case forgotten =>
    intro x hx hnot
    rw [hmem, not_or] at hnot
    obtain hx | rfl := Nat.lt_succ_iff_lt_or_eq.mp hx
    · rw [hold x hx]
      exact h.forgotten x hx hnot.1
    · exact absurd rfl hnot.2
  case held =>
    intro d
    rw [htotal (fun flow => flow.held d) (by simp [Flow.held, Flow.new])]
    exact h.held d
  case outstanding =>
    intro d
    rw [htotal (fun flow => flow.outstanding d) (by simp [Flow.outstanding, Flow.new])]
    exact h.outstanding d
  case pending =>
    intro d
    rw [htotal (fun flow => flow.pending d) (by simp [Flow.pending, Flow.new])]
    exact h.pending d
  case capacity => exact h.capacity
  case cursor =>
    left
    show l.cursor < (l.order ++ [l.flows.size]).length
    rw [List.length_append]
    obtain hlt | ⟨-, hzero⟩ := h.cursor
    · exact Nat.lt_succ_of_lt hlt
    · rw [hzero]
      exact Nat.succ_pos _

theorem Sound.openSession (wireId : WireId) : (l.openSession wireId).1.Sound := by
  unfold WebLedger.openSession
  split
  · exact h
  split
  · exact h
  split
  · exact h
  rename_i hfresh
  split
  · exact h
  · exact h.addFlow hfresh

/-! ### Receiving and completing -/

theorem Sound.charge (hr : r ∈ l.order) (hopen : (l.flow r).state.isSettled = false)
    (hspan : Spans (l.flow r).received after)
    (hframes : (l.flow r).received.frames < after.frames) (hmax : after.within maxCounts = true)
    (hfits : (l.outstanding.add (after.sub (l.flow r).received)).within l.capacity = true) :
    (l.charge r r after (after.sub (l.flow r).received)).Sound := by
  have hflow := h.flow_sound hr
  have hself : (l.charge r r after (after.sub (l.flow r).received)).flow r =
      (l.flow r).receive after := l.flows.get_modify_self (f := (·.receive after))
  refine h.change hr (f := (·.receive after)) ?_ rfl rfl rfl rfl rfl ?_ ?_ ?_ ?_ hfits
    (h.cursor_lt hr)
  · exact ⟨hflow.origin, hflow.reported, hflow.consumedPrefix, hflow.completed.trans hspan, hmax,
      hflow.unbroken, hflow.parts, fun hsettled => by rw [show ((l.flow r).receive after).state =
        (l.flow r).state from rfl, hopen] at hsettled; cases hsettled⟩
  · refine (h.receipts.mono fun receipt hgood => ?_).alloc ⟨h.allocated r hr, hspan, hframes, ?_⟩
    · exact hgood.of_modify (f := (·.receive after)) rfl hspan
    · rw [hself]
      exact .refl _
  · intro d
    show (l.held.add _).amount d = _
    simp only [Flow.held, Flow.receive, ReceiveCounts.amount_add, ReceiveCounts.amount_sub]
    omega
  · intro d
    show (l.outstanding.add _).amount d = _
    unfold Flow.outstanding
    rw [show ((l.flow r).receive after).state = (l.flow r).state from rfl, hopen]
    simp only [Flow.receive, ReceiveCounts.amount_add, ReceiveCounts.amount_sub,
      Bool.false_eq_true, if_false]
    omega
  · intro d
    have hsame : ((l.flow r).receive after).pending d = (l.flow r).pending d := rfl
    exact amount_kept hsame

theorem Sound.receive (session : Ref) (encodedBytes : Nat) :
    (l.receive session encodedBytes).1.Sound := by
  unfold WebLedger.receive
  split
  · exact h
  rename_i r hcheck
  obtain ⟨-, rfl, hr⟩ := h.check_ok hcheck
  split
  · exact h
  rename_i hstate
  rw [not_or] at hstate
  split
  · exact h
  rename_i after happend
  obtain ⟨-, hspan, hframes, hmax⟩ := appendEnvelope_ok happend
  split
  · exact h
  · rename_i hfits
    exact h.charge hr (by simpa using hstate.2) hspan hframes hmax (by simpa using hfits)

theorem Sound.settle (hr : r ∈ l.order)
    (hspan : Spans (l.flow r).completed after) (hafter : Spans after (l.flow r).received)
    (hlt : (l.flow r).completed.frames < after.frames) (action : Completion) :
    (l.settle r after (after.sub (l.flow r).completed) action).Sound := by
  have hflow := h.flow_sound hr
  have hopen := hflow.unsettled hafter hlt
  cases action with
  | discard =>
    refine h.change hr (f := (·.discard after (after.sub (l.flow r).completed)))
      (hflow.discard hspan hafter hlt) rfl rfl rfl rfl rfl ?_ ?_ ?_ ?_ h.capacity (h.cursor_lt hr)
    · exact h.receipts.mono fun _ hgood => hgood.of_modify
        (f := (·.discard after (after.sub (l.flow r).completed))) rfl (.refl _)
    · intro d
      show (l.held.sub _).amount d = _
      simp only [Flow.held, Flow.discard, ReceiveCounts.amount_sub]
      omega
    · exact fun d => amount_kept rfl
    · exact fun d => amount_kept rfl
  | consume =>
    refine h.change hr (f := (·.consume after (after.sub (l.flow r).completed)))
      (hflow.consume hspan hafter hlt) rfl rfl rfl rfl rfl ?_ ?_ ?_ ?_ h.capacity (h.cursor_lt hr)
    · exact h.receipts.mono fun _ hgood => hgood.of_modify
        (f := (·.consume after (after.sub (l.flow r).completed))) rfl (.refl _)
    · intro d
      show (l.held.sub _).amount d = _
      simp only [Flow.held, Flow.consume, ReceiveCounts.amount_sub]
      omega
    · exact fun d => amount_kept rfl
    · intro d
      show (if (l.flow r).discarded.frames = 0 then l.pendingConsumed.add _
        else l.pendingConsumed).amount d = _
      unfold Flow.pending
      rw [show ((l.flow r).consume after (after.sub (l.flow r).completed)).state =
        (l.flow r).state from rfl, hopen]
      simp only [Flow.consume, Bool.false_eq_true, if_false]
      split
      · rename_i hdiscarded
        rw [hflow.unbroken hdiscarded]
        simp only [ReceiveCounts.amount_add, ReceiveCounts.amount_sub]
        omega
      · omega

theorem Sound.complete (receipt : Ref) (action : Completion) :
    (l.complete receipt action).1.Sound := by
  unfold WebLedger.complete
  split
  · exact h
  split
  · exact h
  rename_i hreceipt
  split
  · exact h
  rename_i r hcheck
  obtain ⟨-, hsession, hr⟩ := h.check_ok hcheck
  have hgood := h.receipts receipt (Nat.not_le.mp hreceipt)
  unfold completeFlow
  split
  · exact h
  rename_i hbefore
  rw [not_not] at hbefore
  split
  · exact h
  have hspan := hgood.span
  have hframes := hgood.frames
  have hreceived := hgood.received
  rw [hbefore] at hspan hframes ⊢
  rw [hsession] at hreceived
  exact h.settle hr hspan hreceived hframes action

/-! ### Retirement and settlement -/

theorem Sound.retire (session : Ref) : (l.retire session).1.Sound := by
  unfold WebLedger.retire
  split
  · exact h
  rename_i r hcheck
  obtain ⟨-, -, hr⟩ := h.check_ok hcheck
  split
  · rename_i hactive
    exact h.enter hr (by rw [hactive]; rfl)
  · exact h

end

theorem isSettled_noticed (state : SettlementState) :
    (noticed state).isSettled = state.isSettled := by
  cases state <;> rfl

theorem Sound.notice (h : l.Sound) (session : Ref) (notice : Totals) :
    (l.notice session notice).1.Sound := by
  unfold WebLedger.notice
  split
  · exact h
  rename_i r hcheck
  obtain ⟨-, -, hr⟩ := h.check_ok hcheck
  split
  · exact h
  · have henter : (l.modifyFlow r fun flow => flow.enter (noticed flow.state)) =
        l.modifyFlow r (·.enter (noticed (l.flow r).state)) := rfl
    rw [henter]
    exact h.enter hr (isSettled_noticed _)

theorem within_sub {a b bound : ReceiveCounts} (ha : a.within bound = true)
    (hb : ∀ d, 0 ≤ b.amount d) : (a.sub b).within bound = true := by
  rw [ReceiveCounts.within_iff] at ha ⊢
  intro d
  have hle := ha d
  have hpos := hb d
  rw [ReceiveCounts.amount_sub]
  omega

section

variable (h : l.Sound)

include h

theorem Sound.refund_within (hafter : Spans (l.flow r).reported after) :
    (l.outstanding.sub (after.sub (l.flow r).reported)).within l.capacity = true := by
  refine within_sub h.capacity fun d => ?_
  have hle : (l.flow r).reported.amount d ≤ after.amount d := hafter.amount_le
  rw [ReceiveCounts.amount_sub]
  omega

theorem Sound.report (hr : r ∈ l.order) (hopen : (l.flow r).state.isSettled = false)
    {cursor : Nat} (hcursor : cursor < l.order.length) : (l.report r cursor).Sound := by
  have hflow := h.flow_sound hr
  refine h.change hr (f := (·.report)) ?_ rfl rfl rfl rfl rfl ?_ ?_ ?_ ?_
    (h.refund_within hflow.reported) hcursor
  · exact ⟨hflow.origin.trans hflow.reported, .refl _, hflow.consumedPrefix, hflow.completed,
      hflow.received, hflow.unbroken, hflow.parts, hflow.settled⟩
  · exact h.receipts.mono fun _ hgood => hgood.of_modify (f := (·.report)) rfl (.refl _)
  · exact fun d => amount_kept rfl
  · intro d
    show (l.outstanding.sub _).amount d = _
    unfold Flow.outstanding
    rw [show (l.flow r).report.state = (l.flow r).state from rfl, hopen]
    simp only [Flow.report, ReceiveCounts.amount_sub, Bool.false_eq_true, if_false]
    omega
  · intro d
    show (l.pendingConsumed.sub _).amount d = _
    unfold Flow.pending
    rw [show (l.flow r).report.state = (l.flow r).state from rfl, hopen]
    simp only [Flow.report, ReceiveCounts.amount_sub, Bool.false_eq_true, if_false]
    omega

/-- A draining flow whose envelopes are all completed is settled. -/
theorem Sound.refund (hr : r ∈ l.order) (hopen : (l.flow r).state.isSettled = false)
    (hdone : (l.flow r).completed = (l.flow r).received) :
    ((l.refund r).modifyFlow r (·.enter (.settled false))).Sound := by
  have hflow := h.flow_sound hr
  have hreported := (hflow.reported.trans hflow.consumedPrefix).trans hflow.completed
  refine h.change hr (f := (·.enter (.settled false))) ?_ rfl rfl rfl rfl rfl ?_ ?_ ?_ ?_
    (h.refund_within hreported) (h.cursor_lt hr)
  · exact ⟨hflow.origin, hflow.reported, hflow.consumedPrefix, hflow.completed, hflow.received,
      hflow.unbroken, hflow.parts, fun _ => hdone⟩
  · exact h.receipts.mono fun _ hgood =>
      hgood.of_modify (f := (·.enter (.settled false))) rfl (.refl _)
  · exact fun d => amount_kept rfl
  · intro d
    show (l.outstanding.sub _).amount d = _
    unfold Flow.outstanding
    rw [show ((l.flow r).enter (.settled false)).state.isSettled = true from rfl, hopen]
    simp only [ReceiveCounts.amount_sub, Bool.false_eq_true, if_false, if_true]
    omega
  · intro d
    show (l.pendingConsumed.sub _).amount d = _
    unfold Flow.pending
    rw [show ((l.flow r).enter (.settled false)).state.isSettled = true from rfl, hopen]
    simp only [ReceiveCounts.amount_sub, Bool.false_eq_true, if_false, if_true]
    omega

theorem Sound.takeSettlement (session : Ref) : (l.takeSettlement session).1.Sound := by
  unfold WebLedger.takeSettlement
  split
  · exact h
  rename_i r hcheck
  obtain ⟨-, -, hr⟩ := h.check_ok hcheck
  unfold acknowledge
  split
  · exact h
  rename_i hdone
  rw [not_not] at hdone
  split
  · exact h
  · exact h
  · exact h
  · rename_i hstate
    exact h.enter hr (by rw [hstate]; rfl)
  · rename_i hstate
    exact h.refund hr (by rw [hstate]; rfl) hdone

/-! ### Feedback -/

/-- Pending consumption shows in some retained flow. -/
theorem Sound.pending_iff :
    l.pendingConsumed.frames ≠ 0 ↔ ∃ r ∈ l.order, (l.flow r).unreported = true := by
  have hsum : l.pendingConsumed.frames = total l.order fun r => (l.flow r).pending .frames :=
    h.pending .frames
  rw [hsum, ne_eq, total_eq_zero_iff fun r hr => (h.flow_sound hr).pending_nonneg]
  push Not
  constructor
  · rintro ⟨r, hr, hne⟩
    exact ⟨r, hr, (h.flow_sound hr).unreported_iff.mpr hne⟩
  · rintro ⟨r, hr, hunreported⟩
    exact ⟨r, hr, (h.flow_sound hr).unreported_iff.mp hunreported⟩

/-- What the loop of `takeConsumed` does. -/
theorem Sound.takeFlow_cases : l.feedbackReady = false ∧ l.takeFlow = (l, none) ∨
    l.feedbackReady = true ∧ ∃ r ∈ l.order, ∃ cursor < l.order.length,
      (l.flow r).unreported = true ∧
      Rotation.search l.order (fun r => (l.flow r).unreported) l.order.length l.cursor =
        (cursor, some r) ∧ l.takeFlow = (l.report r cursor, some r) := by
  unfold takeFlow
  cases hready : l.feedbackReady with
  | false => exact .inl ⟨rfl, rfl⟩
  | true =>
    refine .inr ⟨rfl, ?_⟩
    have hpending : l.pendingConsumed.frames ≠ 0 := by
      unfold feedbackReady at hready
      simp only [Bool.and_eq_true, decide_eq_true_eq] at hready
      exact hready.2
    obtain ⟨x, hx, hunreported⟩ := h.pending_iff.mp hpending
    have hcursor := h.cursor_lt hx
    have hsome : ∃ y, (Rotation.search l.order (fun r => (l.flow r).unreported)
        l.order.length l.cursor).2 = some y := Rotation.search_isSome hcursor hx hunreported
    obtain ⟨y, hfound⟩ := hsome
    have hlt : (Rotation.search l.order (fun r => (l.flow r).unreported) l.order.length
        l.cursor).1 < l.order.length := Rotation.search_lt hcursor
    obtain ⟨hy, heligible⟩ := Rotation.eligible_of_search hfound
    generalize Rotation.search l.order (fun r => (l.flow r).unreported) l.order.length
      l.cursor = out at *
    obtain ⟨cursor, found⟩ := out
    obtain rfl : found = some y := hfound
    exact ⟨y, hy, cursor, hlt, heligible, rfl, rfl⟩

theorem Sound.takeFlow : l.takeFlow.1.Sound := by
  obtain ⟨-, hnone⟩ | ⟨-, r, hr, cursor, hcursor, hunreported, -, hreport⟩ := h.takeFlow_cases
  · rw [hnone]
    exact h
  · rw [hreport]
    unfold Flow.unreported at hunreported
    simp only [Bool.and_eq_true, Bool.not_eq_true'] at hunreported
    exact h.report hr hunreported.1 hcursor

end

/-! ### Forgetting -/

theorem cursorAfter_lt {cursor index length : Nat} (hlength : length ≠ 0) :
    cursorAfter cursor index length < length := by
  unfold cursorAfter
  split <;> split <;> omega

theorem Sound.remove (h : l.Sound) (hr : r ∈ l.order)
    (hsettled : (l.flow r).state.isSettled = true) : (l.remove r r).Sound := by
  have hflow := h.flow_sound hr
  have herase : l.order.eraseIdx (l.order.idxOf r) = l.order.erase r :=
    (List.erase_eq_eraseIdx_of_idxOf rfl).symm
  have horder : (l.remove r r).order = l.order.erase r := herase
  have hmem : ∀ x, x ∈ (l.remove r r).order ↔ x ≠ r ∧ x ∈ l.order := by
    intro x
    rw [horder]
    exact h.nodup.mem_erase_iff
  have htotal : ∀ w : Ref → Int, w r = 0 → total (l.remove r r).order w = total l.order w := by
    intro w hzero
    rw [horder, ← total_erase hr, hzero, Int.add_zero]
  have hlength : (l.remove r r).order.length + 1 = l.order.length := by
    rw [horder, List.length_erase_of_mem hr]
    have hpos := List.length_pos_of_mem hr
    omega
  have hget : l.sessions.get? r = some r := (h.sessions r r).mpr ⟨rfl, hr⟩
  constructor
  case flows => exact h.flows
  case nodup => exact horder ▸ h.nodup.erase r
  case allocated => exact fun x hx => h.allocated x ((hmem x).mp hx).2
  case sessions =>
    intro s x
    rw [hmem]
    show (l.sessions.erase r).get? s = some x ↔ _
    rw [FiniteMap.get?_erase]
    split
    · rename_i heq
      subst heq
      constructor
      · intro hx
        cases hx
      · rintro ⟨rfl, hne, -⟩
        exact absurd rfl hne
    · rename_i hne
      rw [h.sessions]
      constructor
      · rintro ⟨rfl, hx⟩
        exact ⟨rfl, Ne.symm hne, hx⟩
      · rintro ⟨rfl, -, hx⟩
        exact ⟨rfl, hx⟩
  case retained =>
    have hsize : (l.sessions.erase r).size + 1 = l.sessions.size :=
      FiniteMap.size_erase_of_some hget
    show (l.sessions.erase r).size = _
    have hretained := h.retained
    omega
  case wires =>
    intro w
    show w ∈ l.wireSessions.filter (· ≠ (l.flow r).wireId) ↔ ∃ x ∈ _, (l.flow x).wireId = w
    rw [List.mem_filter, h.wires, decide_eq_true_eq]
    constructor
    · rintro ⟨⟨x, hx, rfl⟩, hne⟩
      exact ⟨x, (hmem x).mpr ⟨fun heq => hne (heq ▸ rfl), hx⟩, rfl⟩
    · rintro ⟨x, hx, rfl⟩
      obtain ⟨hne, hx⟩ := (hmem x).mp hx
      exact ⟨⟨x, hx, rfl⟩, fun heq => hne (h.distinct x hx r hr heq)⟩
  case distinct =>
    exact fun x hx y hy heq => h.distinct x ((hmem x).mp hx).2 y ((hmem y).mp hy).2 heq
  case receipts =>
    exact h.receipts.mono fun _ hgood => ⟨hgood.session, hgood.span, hgood.frames, hgood.received⟩
  case forgotten =>
    intro x hx hnot
    by_cases heq : x = r
    · rw [heq]
      exact hsettled
    · exact h.forgotten x hx fun hmem' => hnot ((hmem x).mpr ⟨heq, hmem'⟩)
  case held =>
    intro d
    refine (h.held d).trans (htotal (fun x => (l.flow x).held d) ?_).symm
    unfold Flow.held
    rw [hflow.settled hsettled]
    omega
  case outstanding =>
    intro d
    refine (h.outstanding d).trans (htotal (fun x => (l.flow x).outstanding d) ?_).symm
    unfold Flow.outstanding
    rw [if_pos hsettled]
  case pending =>
    intro d
    refine (h.pending d).trans (htotal (fun x => (l.flow x).pending d) ?_).symm
    unfold Flow.pending
    rw [if_pos hsettled]
  case capacity => exact h.capacity
  case cursor =>
    by_cases hempty : (l.remove r r).order = []
    · refine .inr ⟨hempty, ?_⟩
      show cursorAfter l.cursor _ (l.remove r r).order.length = 0
      rw [hempty]
      exact if_pos (Nat.zero_le _)
    · left
      exact cursorAfter_lt fun hzero => hempty (List.length_eq_zero_iff.mp hzero)

theorem Sound.forget (h : l.Sound) (session : Ref) : (l.forget session).1.Sound := by
  unfold WebLedger.forget
  split
  · exact h
  rename_i r hcheck
  obtain ⟨-, rfl, hr⟩ := h.check_ok hcheck
  split
  · exact h
  · rename_i hstate
    rw [not_not] at hstate
    exact h.remove hr (by rw [hstate]; rfl)

theorem Sound.close (h : l.Sound) : l.close.Sound :=
  ⟨h.flows, h.nodup, h.allocated, h.sessions, h.retained, h.wires, h.distinct,
    h.receipts.mono fun _ hgood => ⟨hgood.session, hgood.span, hgood.frames, hgood.received⟩,
    h.forgotten, h.held, h.outstanding, h.pending, h.capacity, h.cursor⟩

end WebLedger

end Windshare.Receiver
