import Windshare.Receiver.Agreement

/-!
# The operations of agreeing ledgers

Every operation answers alike on ledgers that agree and leaves them in agreement.
-/

namespace Windshare.Receiver

open Windshare.Library
open Windshare.Relay.Flow (Dimension)

namespace WebLedger

variable {l : WebLedger}

theorem within_trans {a b c : ReceiveCounts} (hab : ∀ d, a.amount d ≤ b.amount d)
    (hbc : b.within c = true) : a.within c = true :=
  ReceiveCounts.within_iff.mpr fun d => (hab d).trans (ReceiveCounts.within_iff.mp hbc d)

theorem Sound.within_max (h : l.Sound) (hcapacity : l.capacity.within maxCounts = true) :
    l.held.within maxCounts = true ∧ l.outstanding.within maxCounts = true ∧
    l.pendingConsumed.within maxCounts = true := by
  have houtstanding : l.outstanding.within maxCounts = true :=
    within_trans (ReceiveCounts.within_iff.mp h.capacity) hcapacity
  refine ⟨within_trans (fun d => ?_) houtstanding, houtstanding,
    within_trans (fun d => ?_) houtstanding⟩
  · rw [h.held, h.outstanding]
    exact total_mono fun r hr => (h.flow_sound hr).held_le
  · rw [h.pending, h.outstanding]
    exact total_mono fun r hr => (h.flow_sound hr).pending_le

/-- For an issued receipt the closed ledger is refused with the session. -/
theorem complete_of_issued {receipt : Ref} (h : receipt < l.receipts.size)
    (action : Completion) : l.complete receipt action =
      match l.check (l.receipts.get receipt).session with
      | .error e => (l, .error e)
      | .ok r => l.completeFlow (l.receipts.get receipt) r action := by
  unfold complete
  by_cases hclosed : l.closed = true
  · have hcheck : l.check (l.receipts.get receipt).session = .error .closed := by
      unfold check
      rw [if_pos hclosed]
    rw [if_pos hclosed, hcheck]
  · rw [if_neg hclosed]
    exact if_neg (Nat.not_le.mpr h)

end WebLedger

namespace Flow

variable {flow : Flow}

theorem Sound.parts_within (h : flow.Sound) :
    flow.consumed.within maxCounts = true ∧ flow.discarded.within maxCounts = true := by
  have hle : ∀ d, flow.completed.amount d ≤ flow.received.amount d :=
    fun d => h.completed.amount_le
  refine ⟨WebLedger.within_trans (fun d => ?_) h.received,
    WebLedger.within_trans (fun d => ?_) h.received⟩
  · have hparts := h.parts d
    have hd := hle d
    omega
  · have hparts := h.parts d
    have hd := hle d
    omega

end Flow

namespace Agrees

variable {go : GoLedger} {web : WebLedger} {session : Ref}

theorem capacity_within (h : Agrees go web) : web.capacity.within maxCounts = true := by
  rw [h.capacity]
  exact GoCounts.toWeb_within

/-! ### Opening -/

theorem taken_iff (h : Agrees go web) (hsound : web.Sound) (id : SessionId) :
    (go.sessions.get? id).isSome = true ↔ id.val ∈ web.wireSessions := by
  rw [hsound.wires, Option.isSome_iff_exists]
  constructor
  · rintro ⟨r, hget⟩
    obtain ⟨hr, hid⟩ := (h.sessions id r).mp hget
    refine ⟨r, h.order ▸ hr, ?_⟩
    rw [h.flows, ← hid]
    rfl
  · rintro ⟨r, hr, hwire⟩
    refine ⟨r, (h.sessions id r).mpr ⟨h.order ▸ hr, Subtype.ext ?_⟩⟩
    rw [h.flows] at hwire
    exact hwire

theorem addFlow (h : Agrees go web) (hsound : web.Sound) {id : SessionId}
    (hfresh : go.sessions.get? id = none) : Agrees (go.addFlow id) (web.addFlow id.val) := by
  have hgoflow : ∀ x, (go.addFlow id).flow x = if x = go.flows.size then .new id else go.flow x :=
    fun _ => go.flows.get_alloc
  have hbelow : ∀ x ∈ go.order, x ≠ go.flows.size := by
    intro x hx heq
    have hlt := hsound.allocated x (h.order ▸ hx)
    rw [heq, h.size] at hlt
    exact Nat.lt_irrefl _ hlt
  constructor
  case capacity => exact h.capacity
  case maxSessions => exact h.maxSessions
  case size => exact congrArg Nat.succ h.size
  case flows =>
    intro x
    rw [WebLedger.flow_addFlow, hgoflow, h.size]
    split
    · rfl
    · exact h.flows x
  case acks =>
    intro x
    rw [hgoflow]
    split
    · exact ⟨fun _ => rfl, nofun⟩
    · exact h.acks x
  case order =>
    change web.order ++ [web.flows.size] = go.order ++ [go.flows.size]
    rw [h.order, h.size]
  case sessions =>
    intro id' x
    change (go.sessions.insert id go.flows.size).get? id' = some x ↔
      x ∈ go.order ++ [go.flows.size] ∧ _
    rw [FiniteMap.get?_insert, hgoflow, List.mem_append, List.mem_singleton]
    by_cases hid : id = id'
    · subst hid
      rw [if_pos rfl]
      constructor
      · intro heq
        obtain rfl := Option.some.inj heq
        rw [if_pos rfl]
        exact ⟨.inr rfl, rfl⟩
      · rintro ⟨hx | rfl, hsame⟩
        · -- No retained flow has the new id.
          rw [if_neg (hbelow x hx)] at hsame
          have hget := (h.sessions id x).mpr ⟨hx, hsame⟩
          rw [hfresh] at hget
          cases hget
        · rfl
    · rw [if_neg hid, h.sessions]
      constructor
      · rintro ⟨hx, hsame⟩
        rw [if_neg (hbelow x hx)]
        exact ⟨.inl hx, hsame⟩
      · rintro ⟨hx | rfl, hsame⟩
        · rw [if_neg (hbelow x hx)] at hsame
          exact ⟨hx, hsame⟩
        · rw [if_pos rfl] at hsame
          exact absurd hsame hid
  case keyed =>
    have hnone : web.sessions.get? web.flows.size = none := by
      refine Option.eq_none_iff_forall_ne_some.mpr fun r hget => ?_
      obtain ⟨rfl, hr⟩ := (hsound.sessions _ r).mp hget
      exact Nat.lt_irrefl _ (hsound.allocated _ hr)
    change (go.sessions.insert id go.flows.size).size =
      (web.sessions.insert web.flows.size web.flows.size).size
    rw [FiniteMap.size_insert_of_none hfresh, FiniteMap.size_insert_of_none hnone, h.keyed]
  case retained =>
    change go.retainedSessions + 1 = (go.sessions.insert id go.flows.size).size
    rw [FiniteMap.size_insert_of_none hfresh, h.retained]
  case cursor => exact h.cursor
  case closed => exact h.closed
  case held => exact h.held
  case outstanding => exact h.outstanding
  case pending => exact h.pending

theorem openSession (h : Agrees go web) (hsound : web.Sound) (id : SessionId) :
    (go.openSession id).2 = (web.openSession id.val).2 ∧
    Agrees (go.openSession id).1 (web.openSession id.val).1 := by
  unfold GoLedger.openSession WebLedger.openSession
  rw [h.closed, h.maxSessions, h.keyed]
  by_cases hclosed : go.closed = true
  · rw [if_pos hclosed, if_pos hclosed]
    exact ⟨rfl, h⟩
  rw [if_neg hclosed, if_neg hclosed]
  by_cases hzero : id.val.all (· = 0) = true
  · rw [if_pos (.inl hzero), if_pos (.inr hzero)]
    exact ⟨rfl, h⟩
  have hlength : ¬ (id.val.length ≠ sessionIdBytes ∨ id.val.all (· = 0) = true) := by
    rintro (hlength | hall)
    · exact hlength id.property
    · exact hzero hall
  rw [if_neg hlength]
  by_cases htaken : (go.sessions.get? id).isSome = true
  · rw [if_pos (.inr htaken), if_pos ((h.taken_iff hsound id).mp htaken)]
    exact ⟨rfl, h⟩
  rw [if_neg (not_or.mpr ⟨hzero, htaken⟩), if_neg (mt (h.taken_iff hsound id).mpr htaken)]
  split
  · exact ⟨rfl, h⟩
  · refine ⟨?_, h.addFlow hsound (by simpa using htaken)⟩
    rw [h.size]

/-! ### Receiving -/

/-- The Go tests avoid the addition: they look at the room that is left. -/
theorem full_iff (outstanding capacity : GoCounts)
    (h : outstanding.toWeb.within capacity.toWeb = true) (encodedBytes : UInt64) :
    (outstanding.frames = capacity.frames ∨
        encodedBytes > capacity.encodedBytes - outstanding.encodedBytes) ↔
      (outstanding.toWeb.add (.envelope encodedBytes.toNat)).within capacity.toWeb = false := by
  rw [ReceiveCounts.within_iff] at h
  have hframes : (outstanding.frames.toNat : Int) ≤ capacity.frames.toNat := h .frames
  have hbytes : (outstanding.encodedBytes.toNat : Int) ≤ capacity.encodedBytes.toNat :=
    h .encodedBytes
  have hroom : (capacity.encodedBytes - outstanding.encodedBytes).toNat =
      capacity.encodedBytes.toNat - outstanding.encodedBytes.toNat :=
    toNat_sub_of_exact (show (Arith.sub _ _).Exact from by change _ ≤ _; omega)
  rw [← Bool.not_eq_true, ReceiveCounts.within_iff, ← UInt64.toNat_inj, gt_iff_lt,
    UInt64.lt_iff_toNat_lt, hroom]
  constructor
  · intro hor hwithin
    have hf : (outstanding.frames.toNat : Int) + 1 ≤ capacity.frames.toNat := hwithin .frames
    have hb : (outstanding.encodedBytes.toNat : Int) + encodedBytes.toNat ≤
        capacity.encodedBytes.toNat := hwithin .encodedBytes
    omega
  · intro hnot
    by_contra hor
    refine hnot fun d => ?_
    cases d with
    | frames =>
      change (outstanding.frames.toNat : Int) + 1 ≤ capacity.frames.toNat
      omega
    | encodedBytes =>
      change (outstanding.encodedBytes.toNat : Int) + encodedBytes.toNat ≤
        capacity.encodedBytes.toNat
      omega

theorem exhausted_iff (counts : GoCounts) (encodedBytes : UInt64) :
    (counts.frames = maxUint64 ∨ encodedBytes > maxUint64 - counts.encodedBytes) ↔
      (counts.toWeb.add (.envelope encodedBytes.toNat)).within maxCounts = false :=
  full_iff counts ⟨maxUint64, maxUint64⟩ GoCounts.toWeb_within encodedBytes

theorem add_sub_self (a b : ReceiveCounts) : (a.add b).sub a = b := by
  refine ReceiveCounts.ext_amount fun d => ?_
  rw [ReceiveCounts.amount_sub, ReceiveCounts.amount_add]
  omega

/-- What lies between two prefixes. -/
theorem toWeb_between {before after : GoCounts} (hspan : Spans before.toWeb after.toWeb) :
    (after.subtract before).toWeb = after.toWeb.sub before.toWeb := by
  refine GoCounts.toWeb_subtract fun d => ?_
  rw [ReceiveCounts.amount_sub]
  exact Int.sub_nonneg_of_le hspan.amount_le

/-- Refunding from one prefix up to a later one. -/
theorem toWeb_refund {total before after : GoCounts} {total' before' after' : ReceiveCounts}
    (htotal : total' = total.toWeb) (hbefore : before' = before.toWeb)
    (hafter : after' = after.toWeb) (hspan : Spans before' after')
    (h : ∀ d, 0 ≤ (total'.sub (after'.sub before')).amount d) :
    total'.sub (after'.sub before') = (total.subtract (after.subtract before)).toWeb := by
  subst htotal hbefore hafter
  rw [← toWeb_between hspan] at h ⊢
  exact (GoCounts.toWeb_subtract h).symm

section

variable (h : Agrees go web)

include h

theorem charge (hsound : web.Sound) (hsession : session ∈ web.order)
    (hopen : (web.flow session).state.isSettled = false) {encodedBytes : UInt64}
    (hafter : appendEnvelope (web.flow session).received encodedBytes.toNat =
      .ok ((web.flow session).received.add (.envelope encodedBytes.toNat)))
    (hfits : (web.outstanding.add (.envelope encodedBytes.toNat)).within web.capacity = true) :
    Agrees (go.charge session ⟨1, encodedBytes⟩)
      (web.charge session session ((web.flow session).received.add (.envelope encodedBytes.toNat))
        (.envelope encodedBytes.toNat)) ∧
    ((go.flow session).received.add ⟨1, encodedBytes⟩).toWeb =
      (web.flow session).received.add (.envelope encodedBytes.toNat) := by
  have hsize : ReceiveCounts.envelope encodedBytes.toNat =
      (⟨1, encodedBytes⟩ : GoCounts).toWeb := rfl
  obtain ⟨-, hspan, hlt, hmax⟩ := appendEnvelope_ok hafter
  have hafterSound : (web.charge session session
      ((web.flow session).received.add (.envelope encodedBytes.toNat))
      (.envelope encodedBytes.toNat)).Sound := by
    have hcharge := hsound.charge hsession hopen hspan hlt hmax
    rw [add_sub_self] at hcharge
    exact hcharge hfits
  obtain ⟨hheld, houtstanding, -⟩ := hafterSound.within_max h.capacity_within
  have hflow := h.flows session
  have hreceived : ((go.flow session).received.add ⟨1, encodedBytes⟩).toWeb =
      (web.flow session).received.add (.envelope encodedBytes.toNat) := by
    rw [hflow] at hmax ⊢
    exact GoCounts.toWeb_add hmax
  refine ⟨h.change (r := session)
    (f := (·.receive ((go.flow session).received.add ⟨1, encodedBytes⟩)))
    (g := (·.receive ((web.flow session).received.add (.envelope encodedBytes.toNat))))
    ?_ rfl (h.acks session) rfl rfl rfl rfl rfl rfl rfl h.cursor ?_ ?_ h.pending, hreceived⟩
  · rw [← hreceived, hflow]
    rfl
  · change web.held.add _ = (go.held.add _).toWeb
    change (web.held.add _).within maxCounts = true at hheld
    rw [h.held, hsize] at hheld ⊢
    exact (GoCounts.toWeb_add hheld).symm
  · change web.outstanding.add _ = (go.outstanding.add _).toWeb
    change (web.outstanding.add _).within maxCounts = true at houtstanding
    rw [h.outstanding, hsize] at houtstanding ⊢
    exact (GoCounts.toWeb_add houtstanding).symm

theorem receive (hsound : web.Sound) (session : Ref) (encodedBytes : UInt64) :
    (∃ e, go.receive session encodedBytes = (go, .error e) ∧
      web.receive session encodedBytes.toNat = (web, .error e)) ∨
    ∃ receipt go' web', go.receive session encodedBytes = (go', .ok receipt) ∧
      web.receive session encodedBytes.toNat = (web', .ok web.receipts.size) ∧
      Agrees go' web' ∧ web'.receipts = web.receipts.alloc receipt.toWeb := by
  unfold GoLedger.receive WebLedger.receive
  obtain ⟨e, hgo, hweb⟩ | ⟨hgo, hweb, hsession⟩ := h.check hsound session
  · rw [hgo, hweb]
    exact .inl ⟨e, rfl, rfl⟩
  rw [hgo, hweb]
  dsimp only
  have hflow := h.flows session
  have hfrozen : ((go.flow session).phase = .draining ∨ (go.flow session).phase = .settled) ↔
      ((web.flow session).state = .draining ∨ (web.flow session).state.isSettled = true) := by
    rw [hflow]
    exact or_congr GoFlow.draining_iff GoFlow.settled_iff
  by_cases hstate : (web.flow session).state = .draining ∨ (web.flow session).state.isSettled = true
  · rw [if_pos hstate, if_pos (hfrozen.mpr hstate)]
    exact .inl ⟨_, rfl, rfl⟩
  rw [if_neg hstate, if_neg (mt hfrozen.mp hstate)]
  have hexhausted := exhausted_iff (go.flow session).received encodedBytes
  have hfull := full_iff go.outstanding go.capacity
    (by rw [← h.outstanding, ← h.capacity]; exact hsound.capacity) encodedBytes
  rw [show (go.flow session).received.toWeb = (web.flow session).received from by
    rw [hflow]; rfl] at hexhausted
  rw [← h.outstanding, ← h.capacity] at hfull
  have happend : appendEnvelope (web.flow session).received encodedBytes.toNat =
      if encodedBytes.toNat < minEnvelopeBytes ∨ encodedBytes.toNat > maxEnvelopeBytes then
        .error .frameSize
      else if ((web.flow session).received.add (.envelope encodedBytes.toNat)).within maxCounts =
          false then .error .counterExhausted
      else .ok ((web.flow session).received.add (.envelope encodedBytes.toNat)) := rfl
  by_cases hbytes : encodedBytes.toNat < minEnvelopeBytes ∨ encodedBytes.toNat > maxEnvelopeBytes
  · rw [happend, if_pos hbytes, if_pos hbytes]
    exact .inl ⟨_, rfl, rfl⟩
  rw [if_neg hbytes] at happend ⊢
  by_cases hcounters : ((web.flow session).received.add (.envelope encodedBytes.toNat)).within
      maxCounts = false
  · rw [happend, if_pos hcounters, if_pos (hexhausted.mpr hcounters)]
    exact .inl ⟨_, rfl, rfl⟩
  rw [if_neg hcounters] at happend
  rw [happend, if_neg (mt hexhausted.mp hcounters)]
  dsimp only
  rw [add_sub_self]
  by_cases hcapacity : (web.outstanding.add (.envelope encodedBytes.toNat)).within web.capacity =
      false
  · rw [if_pos hcapacity, if_pos (hfull.mpr hcapacity)]
    exact .inl ⟨_, rfl, rfl⟩
  rw [if_neg hcapacity, if_neg (mt hfull.mp hcapacity)]
  obtain ⟨hagrees, hafter⟩ := h.charge hsound hsession
    (by simpa using (not_or.mp hstate).2) happend (by simpa using hcapacity)
  refine .inr ⟨_, _, _, rfl, rfl, hagrees, ?_⟩
  change web.receipts.alloc _ = web.receipts.alloc ⟨session, _, _⟩
  rw [hafter, hflow]
  rfl

/-! ### Completing -/

theorem settle (hsound : web.Sound) (hsession : session ∈ web.order)
    {after : GoCounts} (hspan : Spans (web.flow session).completed after.toWeb)
    (hafter : Spans after.toWeb (web.flow session).received)
    (hlt : (web.flow session).completed.frames < after.toWeb.frames)
    (action : WebLedger.Completion) :
    Agrees (go.settle session after (after.subtract (go.flow session).completed) action)
      (web.settle session after.toWeb (after.toWeb.sub (web.flow session).completed) action) := by
  have hflow := h.flows session
  have hcompleted : (web.flow session).completed = (go.flow session).completed.toWeb := by
    rw [hflow]
    rfl
  have hsize : (after.subtract (go.flow session).completed).toWeb =
      after.toWeb.sub (web.flow session).completed := by
    rw [hcompleted] at hspan ⊢
    exact toWeb_between hspan
  have hnext := hsound.settle hsession hspan hafter hlt action
  have hheld : (go.held.subtract (after.subtract (go.flow session).completed)).toWeb =
      web.held.sub (after.toWeb.sub (web.flow session).completed) := by
    rw [h.held, ← hsize]
    refine GoCounts.toWeb_subtract fun d => ?_
    rw [hsize, ← h.held]
    cases action with
    | discard | consume => exact (hnext.nonneg d).1
  cases action with
  | discard =>
    have hsame : ((web.flow session).discard after.toWeb
        (after.toWeb.sub (web.flow session).completed)).Sound :=
      (hsound.flow_sound hsession).discard hspan hafter hlt
    refine h.change (f := (·.discard after (after.subtract (go.flow session).completed)))
      (g := (·.discard after.toWeb (after.toWeb.sub (web.flow session).completed)))
      ?_ rfl (h.acks session) rfl rfl rfl rfl rfl rfl rfl h.cursor hheld.symm h.outstanding
      h.pending
    have hdiscarded := hsame.parts_within.2
    rw [← hsize] at hdiscarded ⊢
    rw [hflow] at hdiscarded ⊢
    change Flow.mk _ _ _ _ ((go.flow session).discarded.toWeb.add _) _ _ _ = _
    rw [← GoCounts.toWeb_add hdiscarded]
    rfl
  | consume =>
    have hsame : ((web.flow session).consume after.toWeb
        (after.toWeb.sub (web.flow session).completed)).Sound :=
      (hsound.flow_sound hsession).consume hspan hafter hlt
    have hunbroken : (go.flow session).discarded.frames = 0 ↔
        (web.flow session).discarded.frames = 0 := by
      rw [hflow]
      exact GoCounts.frames_eq_zero_iff
    refine h.change (f := (·.consume after (after.subtract (go.flow session).completed)))
      (g := (·.consume after.toWeb (after.toWeb.sub (web.flow session).completed)))
      ?_ rfl (h.acks session) rfl rfl rfl rfl rfl rfl rfl h.cursor hheld.symm h.outstanding ?_
    · have hconsumed := hsame.parts_within.1
      have hconsume : ((go.flow session).consumed.add
          (after.subtract (go.flow session).completed)).toWeb = (web.flow session).consumed.add
            (after.toWeb.sub (web.flow session).completed) := by
        rw [← hsize] at hconsumed ⊢
        rw [hflow] at hconsumed ⊢
        exact GoCounts.toWeb_add hconsumed
      have hreach : (if (web.flow session).discarded.frames = 0 then after.toWeb
          else (web.flow session).consumedPrefix) =
          (if (go.flow session).discarded.frames = 0 then after
            else (go.flow session).consumedPrefix).toWeb := by
        by_cases hzero : (go.flow session).discarded.frames = 0
        · rw [if_pos hzero, if_pos (hunbroken.mp hzero)]
        · rw [if_neg hzero, if_neg (mt hunbroken.mpr hzero), hflow]
          rfl
      unfold Flow.consume GoFlow.consume GoFlow.toWeb
      rw [hconsume, hreach, hflow]
      rfl
    · change (if (web.flow session).discarded.frames = 0 then web.pendingConsumed.add _
        else web.pendingConsumed) = (if (go.flow session).discarded.frames = 0 then
          go.pendingConsumed.add _ else go.pendingConsumed).toWeb
      by_cases hzero : (go.flow session).discarded.frames = 0
      · rw [if_pos hzero, if_pos (hunbroken.mp hzero)]
        have hpending := (hnext.within_max h.capacity_within).2.2
        change (if (web.flow session).discarded.frames = 0 then web.pendingConsumed.add _
          else web.pendingConsumed).within maxCounts = true at hpending
        rw [if_pos (hunbroken.mp hzero), ← hsize, h.pending] at hpending
        rw [← hsize, h.pending]
        exact (GoCounts.toWeb_add hpending).symm
      · rw [if_neg hzero, if_neg (mt hunbroken.mpr hzero)]
        exact h.pending

/-- A receipt that both ledgers issued completes alike. -/
theorem complete (hsound : web.Sound) {receipt : Ref}
    (hreceipt : receipt < web.receipts.size) {goReceipt : GoReceipt}
    (hsame : web.receipts.get receipt = goReceipt.toWeb) (action : WebLedger.Completion) :
    (go.complete goReceipt action).2 = (web.complete receipt action).2 ∧
    Agrees (go.complete goReceipt action).1 (web.complete receipt action).1 := by
  unfold GoLedger.complete
  have hgood := hsound.receipts receipt hreceipt
  rw [WebLedger.complete_of_issued hreceipt]
  rw [hsame] at hgood ⊢
  change _ = (match web.check goReceipt.session with
      | .error e => (web, Except.error e)
      | .ok r => web.completeFlow goReceipt.toWeb r action).2 ∧
    Agrees _ (match web.check goReceipt.session with
      | .error e => (web, Except.error e)
      | .ok r => web.completeFlow goReceipt.toWeb r action).1
  obtain ⟨e, hgo, hweb⟩ | ⟨hgo, hweb, hsession⟩ := h.check hsound goReceipt.session
  · rw [hgo, hweb]
    exact ⟨rfl, h⟩
  rw [hgo, hweb]
  dsimp only
  unfold WebLedger.completeFlow
  have hflow := h.flows goReceipt.session
  have hbefore : goReceipt.before = (go.flow goReceipt.session).completed ↔
      goReceipt.toWeb.before = (web.flow goReceipt.session).completed := by
    rw [hflow]
    exact GoCounts.toWeb_inj.symm
  have hframes : ¬ goReceipt.after.frames ≤ goReceipt.before.frames := by
    rw [UInt64.le_iff_toNat_le]
    have hlt : (goReceipt.before.frames.toNat : Int) < goReceipt.after.frames.toNat := hgood.frames
    omega
  by_cases hfirst : goReceipt.toWeb.before = (web.flow goReceipt.session).completed
  · rw [if_neg (not_or.mpr ⟨not_not.mpr (hbefore.mpr hfirst), hframes⟩),
      if_neg (not_not.mpr hfirst)]
    have hactive : (go.flow goReceipt.session).phase = .active ↔
        (web.flow goReceipt.session).state = .active := by
      rw [hflow]
      exact GoFlow.active_iff
    simp only [hactive]
    split
    · exact ⟨rfl, h⟩
    · refine ⟨rfl, ?_⟩
      have hspan := hgood.span
      have hlt := hgood.frames
      rw [hfirst] at hspan hlt ⊢
      rw [hbefore.mpr hfirst]
      exact h.settle hsound hsession hspan hgood.received hlt action
  · rw [if_pos (.inl (mt hbefore.mp hfirst)), if_pos hfirst]
    exact ⟨rfl, h⟩

/-- A token of another ledger is refused by both, under different names. -/
theorem complete_foreign {receipt : Ref}
    (hreceipt : web.receipts.size ≤ receipt) (goReceipt : GoReceipt)
    (hforeign : go.flows.size ≤ goReceipt.session) (action : WebLedger.Completion) :
    go.complete goReceipt action = (go, .error (if go.closed then .closed else .session)) ∧
    web.complete receipt action = (web, .error (if go.closed then .closed else .receipt)) := by
  unfold GoLedger.complete GoLedger.check WebLedger.complete
  rw [h.closed]
  cases go.closed with
  | true => exact ⟨rfl, rfl⟩
  | false =>
    rw [if_neg Bool.false_ne_true, if_pos (.inl hforeign), if_neg Bool.false_ne_true,
      if_pos hreceipt]
    exact ⟨rfl, rfl⟩

/-! ### Retirement and settlement -/

theorem retire (hsound : web.Sound) (session : Ref) :
    (go.retire session).2 = (web.retire session).2 ∧
    Agrees (go.retire session).1 (web.retire session).1 := by
  unfold GoLedger.retire WebLedger.retire
  obtain ⟨e, hgo, hweb⟩ | ⟨hgo, hweb, -⟩ := h.check hsound session
  · rw [hgo, hweb]
    exact ⟨rfl, h⟩
  rw [hgo, hweb]
  dsimp only
  have hflow := h.flows session
  by_cases hactive : (go.flow session).phase = .active
  · have hstate : (web.flow session).state = .active := by
      rw [hflow]
      exact GoFlow.active_iff.mp hactive
    rw [if_pos hactive, if_pos hstate]
    refine ⟨rfl, h.change (f := fun flow => flow.enter .retiring flow.ackPending)
      (g := (·.enter .retiring)) ?_ rfl ?_ rfl rfl rfl rfl rfl rfl rfl h.cursor h.held
      h.outstanding h.pending⟩
    · rw [hflow]
      rfl
    · exact ⟨fun _ => (h.acks session).1 (.inl hactive), nofun⟩
  · have hstate : (web.flow session).state ≠ .active := by
      rw [hflow]
      exact mt GoFlow.active_iff.mpr hactive
    rw [if_neg hactive, if_neg hstate]
    exact ⟨rfl, h⟩

theorem notice (hsound : web.Sound) (session : Ref) (totals : GoTotals) :
    (go.notice session totals).2 = (web.notice session totals.toWeb).2 ∧
    Agrees (go.notice session totals).1 (web.notice session totals.toWeb).1 := by
  unfold GoLedger.notice WebLedger.notice
  obtain ⟨e, hgo, hweb⟩ | ⟨hgo, hweb, -⟩ := h.check hsound session
  · rw [hgo, hweb]
    exact ⟨rfl, h⟩
  rw [hgo, hweb]
  dsimp only
  have hflow := h.flows session
  have hnat : ∀ a b : UInt64, a ≠ b ↔ (a.toNat : Int) ≠ b.toNat := by
    intro a b
    rw [ne_eq, ← UInt64.toNat_inj, ← Int.ofNat_inj]
  have hdiffers : (totals.relaySessionId ≠ (go.flow session).id ∨
      totals.totalFrames ≠ (go.flow session).received.frames ∨
      totals.totalEncodedBytes ≠ (go.flow session).received.encodedBytes) ↔
      (totals.toWeb.relaySessionId ≠ (web.flow session).wireId ∨
      totals.toWeb.frames ≠ (web.flow session).received.frames ∨
      totals.toWeb.encodedBytes ≠ (web.flow session).received.encodedBytes) := by
    rw [hflow]
    exact or_congr (not_congr Subtype.ext_iff) (or_congr (hnat _ _) (hnat _ _))
  by_cases hsame : totals.toWeb.relaySessionId ≠ (web.flow session).wireId ∨
      totals.toWeb.frames ≠ (web.flow session).received.frames ∨
      totals.toWeb.encodedBytes ≠ (web.flow session).received.encodedBytes
  · rw [if_pos hsame, if_pos (hdiffers.mpr hsame)]
    exact ⟨rfl, h⟩
  rw [if_neg hsame, if_neg (mt hdiffers.mp hsame)]
  refine ⟨rfl, h.change (f := GoLedger.noticed)
    (g := fun flow => flow.enter (WebLedger.noticed flow.state)) ?_ rfl ?_ rfl rfl rfl rfl rfl rfl
    rfl h.cursor h.held h.outstanding h.pending⟩
  · rw [hflow]
    unfold Flow.enter WebLedger.noticed GoLedger.noticed GoFlow.toWeb GoFlow.state GoFlow.enter
    cases (go.flow session).phase <;> rfl
  · unfold GoFlow.AckInPhase GoLedger.noticed GoFlow.enter
    cases (go.flow session).phase <;> simp

theorem close : Agrees go.close web.close :=
  ⟨h.capacity, h.maxSessions, h.size, h.flows, h.acks, h.order, h.sessions, h.keyed, h.retained,
    h.cursor, rfl, h.held, h.outstanding, h.pending⟩

/-! ### Controls -/

theorem reported : (web.flow session).reported = (go.flow session).reported.toWeb := by
  rw [h.flows]
  rfl

theorem consumedPrefix :
    (web.flow session).consumedPrefix = (go.flow session).consumedPrefix.toWeb := by
  rw [h.flows]
  rfl

theorem feedbackReady : web.feedbackReady = go.feedbackReady := by
  have hpending : web.pendingConsumed.frames = 0 ↔ go.pendingConsumed.frames = 0 := by
    rw [h.pending]
    exact GoCounts.frames_eq_zero_iff.symm
  unfold WebLedger.feedbackReady GoLedger.feedbackReady
  rw [h.closed]
  simp [hpending]

theorem report (hsound : web.Sound) (hsession : session ∈ web.order)
    (hopen : (web.flow session).state.isSettled = false) {cursor : Nat}
    (hcursor : cursor < web.order.length) :
    Agrees (go.report session cursor) (web.report session cursor) := by
  have hnext := hsound.report hsession hopen hcursor
  have hflow := h.flows session
  have hspan := (hsound.flow_sound hsession).reported
  refine h.change (f := (·.report)) (g := (·.report)) ?_ rfl (h.acks session) rfl rfl rfl rfl rfl
    rfl rfl rfl h.held ?_ ?_
  · rw [hflow]
    rfl
  · exact toWeb_refund h.outstanding h.reported h.consumedPrefix hspan fun d => (hnext.nonneg d).2.1
  · exact toWeb_refund h.pending h.reported h.consumedPrefix hspan fun d => (hnext.nonneg d).2.2

theorem takeConsumed (hsound : web.Sound) :
    go.takeConsumed.2.map GoTotals.toWeb = web.takeConsumed.2 ∧
    Agrees go.takeConsumed.1 web.takeConsumed.1 := by
  unfold GoLedger.takeConsumed WebLedger.takeConsumed
  have hsearch : Rotation.search go.order (fun r => (go.flow r).unreported) go.order.length
      go.cursor = Rotation.search web.order (fun r => (web.flow r).unreported) web.order.length
        web.cursor := by
    rw [h.order, h.cursor]
    congr 1
    funext r
    rw [h.flows, GoFlow.unreported_toWeb]
  rw [hsearch, ← h.feedbackReady]
  obtain ⟨hready, hnone⟩ | ⟨hready, r, hr, cursor, hcursor, hunreported, hfound, hreport⟩ :=
    hsound.takeFlow_cases
  · rw [if_pos hready, hnone]
    exact ⟨rfl, h⟩
  · rw [if_neg (by simp [hready]), hfound, hreport]
    unfold Flow.unreported at hunreported
    simp only [Bool.and_eq_true, Bool.not_eq_true'] at hunreported
    refine ⟨?_, h.report hsound hr hunreported.1 hcursor⟩
    change _ = some (Totals.mk (web.flow r).wireId _ _)
    rw [h.flows]
    rfl

theorem takeSettlement (hsound : web.Sound) (session : Ref) :
    (go.takeSettlement session).2.map GoTotals.toWeb = (web.takeSettlement session).2 ∧
    Agrees (go.takeSettlement session).1 (web.takeSettlement session).1 := by
  have hafter := hsound.takeSettlement session
  unfold GoLedger.takeSettlement
  unfold WebLedger.takeSettlement at hafter ⊢
  obtain ⟨e, hgo, hweb⟩ | ⟨hgo, hweb, hsession⟩ := h.check hsound session
  · rw [hgo, hweb]
    exact ⟨rfl, h⟩
  rw [hgo]
  rw [hweb] at hafter ⊢
  dsimp only at hafter ⊢
  unfold WebLedger.acknowledge at hafter ⊢
  have hflow := h.flows session
  have hdone : (go.flow session).completed = (go.flow session).received ↔
      (web.flow session).completed = (web.flow session).received := by
    rw [hflow]
    exact GoCounts.toWeb_inj.symm
  have hacks := h.acks session
  by_cases hcompleted : (web.flow session).completed = (web.flow session).received
  case neg =>
    rw [if_pos (.inr (mt hdone.mp hcompleted)), if_pos hcompleted]
    exact ⟨rfl, h⟩
  rw [if_neg (not_not.mpr hcompleted)] at hafter ⊢
  have hstate : (web.flow session).state = (go.flow session).state := by
    rw [hflow]
    rfl
  have htotals : GoTotals.toWeb ⟨(go.flow session).id, (go.flow session).received.frames,
      (go.flow session).received.encodedBytes⟩ = ⟨(web.flow session).wireId,
      (web.flow session).received.frames, (web.flow session).received.encodedBytes⟩ := by
    rw [hflow]
    rfl
  have hack : ((go.flow session).enter .settled false).AckInPhase := ⟨nofun, nofun⟩
  rw [hstate] at hafter ⊢
  unfold GoFlow.state at hafter ⊢
  cases hphase : (go.flow session).phase with
  | active =>
    rw [if_pos (.inl (hacks.1 (.inl hphase)))]
    exact ⟨rfl, h⟩
  | retiring =>
    rw [if_pos (.inl (hacks.1 (.inr hphase)))]
    exact ⟨rfl, h⟩
  | draining =>
    rw [hphase] at hafter
    rw [if_neg (not_or.mpr ⟨by simp [hacks.2 hphase], not_not.mpr (hdone.mpr hcompleted)⟩)]
    refine ⟨congrArg some htotals, ?_⟩
    unfold GoLedger.refund
    rw [if_pos (by simp [hphase])]
    have hsound' := hsound.flow_sound hsession
    have hreceived := (hsound'.reported.trans hsound'.consumedPrefix).trans hsound'.completed
    refine h.change (f := (·.enter .settled false)) (g := (·.enter (.settled false))) ?_ rfl hack
      rfl rfl rfl rfl rfl rfl rfl h.cursor h.held ?_ ?_
    · rw [hflow]
      rfl
    · exact toWeb_refund h.outstanding h.reported (by rw [hflow]; rfl) hreceived
        fun d => (hafter.nonneg d).2.1
    · exact toWeb_refund h.pending h.reported h.consumedPrefix hsound'.reported
        fun d => (hafter.nonneg d).2.2
  | settled =>
    cases hpending : (go.flow session).ackPending with
    | false =>
      rw [if_pos (.inl rfl)]
      exact ⟨rfl, h⟩
    | true =>
      rw [if_neg (not_or.mpr ⟨by simp, not_not.mpr (hdone.mpr hcompleted)⟩)]
      refine ⟨congrArg some htotals, ?_⟩
      unfold GoLedger.refund
      rw [if_neg (by simp [hphase])]
      refine h.change (f := (·.enter .settled false)) (g := (·.enter (.settled false))) ?_ rfl
        hack rfl rfl rfl rfl rfl rfl rfl h.cursor h.held h.outstanding h.pending
      rw [hflow]
      rfl

/-! ### Forgetting -/

theorem remove (hsound : web.Sound) (hsession : session ∈ web.order) :
    Agrees (go.remove session) (web.remove session session) := by
  have hmem : session ∈ go.order := h.order ▸ hsession
  have hnodup : go.order.Nodup := h.order ▸ hsound.nodup
  have hget : go.sessions.get? (go.flow session).id = some session :=
    (h.sessions _ _).mpr ⟨hmem, rfl⟩
  have hwebget : web.sessions.get? session = some session :=
    (hsound.sessions session session).mpr ⟨rfl, hsession⟩
  have herase : go.order.eraseIdx (go.order.idxOf session) = go.order.erase session :=
    (List.erase_eq_eraseIdx_of_idxOf rfl).symm
  have hgosize := FiniteMap.size_erase_of_some hget
  have hwebsize := FiniteMap.size_erase_of_some hwebget
  constructor
  case capacity => exact h.capacity
  case maxSessions => exact h.maxSessions
  case size => exact h.size
  case flows => exact h.flows
  case acks => exact h.acks
  case order =>
    change web.order.eraseIdx (web.order.idxOf session) = go.order.eraseIdx (go.order.idxOf session)
    rw [h.order]
  case sessions =>
    intro id r
    change (go.sessions.erase (go.flow session).id).get? id = some r ↔
      r ∈ go.order.eraseIdx (go.order.idxOf session) ∧ (go.flow r).id = id
    rw [FiniteMap.get?_erase, herase, hnodup.mem_erase_iff]
    by_cases hid : (go.flow session).id = id
    · -- Ids of retained flows are distinct, so the id names no other flow.
      rw [if_pos hid]
      refine ⟨nofun, ?_⟩
      rintro ⟨⟨hne, hr⟩, hsame⟩
      refine absurd (hsound.distinct r (h.order ▸ hr) session hsession ?_) hne
      rw [h.flows, h.flows]
      exact congrArg Subtype.val (hsame.trans hid.symm)
    · rw [if_neg hid, h.sessions]
      refine ⟨fun hr => ⟨⟨?_, hr.1⟩, hr.2⟩, fun hr => ⟨hr.1.2, hr.2⟩⟩
      rintro rfl
      exact hid hr.2
  case keyed =>
    change (go.sessions.erase (go.flow session).id).size = (web.sessions.erase session).size
    have hkeyed := h.keyed
    omega
  case retained =>
    change go.retainedSessions - 1 = (go.sessions.erase (go.flow session).id).size
    have hretained := h.retained
    omega
  case cursor =>
    change WebLedger.cursorAfter web.cursor (web.order.idxOf session)
      (web.order.eraseIdx (web.order.idxOf session)).length =
      if go.order.idxOf session < go.order.length then _ else _
    rw [if_pos (List.idxOf_lt_length_of_mem hmem), h.order, h.cursor]
    rfl
  case closed => exact h.closed
  case held => exact h.held
  case outstanding => exact h.outstanding
  case pending => exact h.pending

theorem forget (hsound : web.Sound) (session : Ref) :
    (go.forget session).2 = (web.forget session).2 ∧
    Agrees (go.forget session).1 (web.forget session).1 := by
  unfold GoLedger.forget WebLedger.forget
  obtain ⟨e, hgo, hweb⟩ | ⟨hgo, hweb, hsession⟩ := h.check hsound session
  · rw [hgo, hweb]
    exact ⟨rfl, h⟩
  rw [hgo, hweb]
  dsimp only
  have hpending : ((go.flow session).phase ≠ .settled ∨ (go.flow session).ackPending = true) ↔
      (web.flow session).state ≠ .settled false := by
    rw [h.flows session]
    change _ ↔ (go.flow session).state ≠ _
    unfold GoFlow.state
    cases (go.flow session).phase <;> simp
  by_cases hstate : (web.flow session).state ≠ .settled false
  · rw [if_pos hstate, if_pos (hpending.mpr hstate)]
    exact ⟨rfl, h⟩
  · rw [if_neg hstate, if_neg (mt hpending.mp hstate)]
    exact ⟨rfl, h.remove hsound hsession⟩

end

end Agrees

end Windshare.Receiver
