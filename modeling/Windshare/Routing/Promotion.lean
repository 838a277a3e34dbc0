import Windshare.Routing.Capacity
import Windshare.Routing.Publishing

/-!
# Deferring and promoting

Every method of the router keeps it sound, and the promotion loop ends: a history that capacity
was reported for is not refused for want of it, so each round retires the oldest identity.
-/

namespace Windshare.Routing

open Windshare.Library Windshare.Session Windshare.Operation

namespace Router

variable {cfg : RouterConfig} {schedule : Schedule} {r r' : Router} {m : Message} {id : OperationID}

theorem pending_congr (h : r'.inboxState = r.inboxState) : r'.pending = r.pending := by
  obtain ⟨hdeferred, -⟩ := InboxState.mk.inj h
  funext id
  unfold pending
  rw [hdeferred]

theorem deferredOrder_congr (h : r'.inboxState = r.inboxState) :
    r'.deferredOrder = r.deferredOrder := (InboxState.mk.inj h).2.1

theorem Sound.silent (h : Sound cfg r) (hsilent : Silent r r') : Sound cfg r' := by
  have htrace : r'.trace = r.trace ++ List.map .published [] := by
    rw [hsilent.trace, List.map_nil, List.append_nil]
  exact h.publish hsilent.same htrace (by simp)

/-- Publishing is sound where the message's cancellation does not wait. -/
theorem Sound.emits (h : Sound cfg r) (hemits : Emits m r r')
    (hm : ∀ id, m.operationID = some id → deferredCancelled (r.pending id) = true →
      m.kind = .cancel) : Sound cfg r' := by
  obtain ⟨events, htrace, hfor⟩ := hemits.trace
  refine h.publish hemits.same htrace fun e he => ?_
  obtain ⟨hid, hmessage⟩ := hfor e he
  unfold Inbox.admits
  split
  · rename_i id m' heid hem
    obtain rfl := hmessage m' hem
    rw [values_inbox h]
    cases hcancelled : deferredCancelled (r.pending id) with
    | false => rfl
    | true =>
      rw [hm id (hid ▸ heid) hcancelled]
      rfl
  · rfl

/-! ### Routing -/

theorem Sound.deferInboundLocked (h : Sound cfg r)
    (hfirst : ∀ id, m.operationID = some id → r.pending id = [] →
      deferredRequest m.kind = true ∨ m.kind = .cancel) :
    Sound cfg (r.deferInboundLocked cfg m).1 := by
  fun_cases Router.deferInboundLocked cfg r m with
  | case7 _ id hid hrole hverdict hframes hbytes =>
    obtain ⟨hsender, -⟩ := not_or.mp hrole
    exact h.appendDeferred hid (not_not.mp hsender) hverdict (hfirst id hid) hframes hbytes
  | _ => exact h

theorem silent_shouldDeferInbound : Silent r (r.shouldDeferInbound cfg schedule m).1 := by
  unfold shouldDeferInbound
  split
  · exact .refl r
  · split
    · exact .refl r
    · exact silent_withTable _

/-- An identity that does not wait is deferred for a request or a cancellation only. -/
theorem shouldDeferInbound_true (h : (r.shouldDeferInbound cfg schedule m).2 = true)
    (hid : m.operationID = some id) (hpending : r.pending id = []) :
    deferredRequest m.kind = true ∨ m.kind = .cancel := by
  unfold shouldDeferInbound withTable at h
  rw [hid] at h
  dsimp only at h
  split at h
  · cases h
  split at h
  · cases h
  rw [hpending] at h
  split at h
  · rename_i hlength
    exact absurd rfl hlength
  split at h
  · cases h
  · rename_i hkind
    by_cases hrequest : deferredRequest m.kind = true
    · exact .inl hrequest
    · refine .inr (not_not.mp fun hcancel => hkind ⟨by simpa using hrequest, hcancel⟩)

/-- A waiting identity is let through by a terminated table only. -/
theorem shouldDeferInbound_false (h : (r.shouldDeferInbound cfg schedule m).2 = false)
    (hsound : Sound cfg r) (hid : m.operationID = some id) : r.pending id = [] ∨
      (r.shouldDeferInbound cfg schedule m).1.operations.terminal = true := by
  by_cases hpending : r.pending id = []
  · exact .inl hpending
  have horder : r.deferredOrder.length ≠ 0 := fun hlength =>
    List.not_mem_nil (List.length_eq_zero_iff.mp hlength ▸ (hsound.waiting id).mpr hpending)
  have hlength : (r.pending id).length ≠ 0 := fun h => hpending (List.length_eq_zero_iff.mp h)
  unfold shouldDeferInbound withTable at h ⊢
  rw [hid] at h ⊢
  dsimp only at h ⊢
  rw [if_neg horder] at h ⊢
  by_cases hterminal : (r.interrupted cfg schedule).terminal = true
  · rw [if_pos hterminal]
    exact .inr hterminal
  · rw [if_neg hterminal, if_pos hlength] at h
    cases h

/-! ### Refusals for want of capacity -/

theorem observeInbound_full {e : OperationError}
    (h : (r.observeInbound cfg schedule m).2.verdict = .refused e)
    (he : Table.WantsCapacity e) :
    ((r.interrupted cfg schedule).pruneExpired (schedule r.sections).pruneAt).Full cfg.table ∧
      (deferredRequest m.kind = true ∨ m.kind = .cancel) := by
  unfold observeInbound withTable Table.observeInbound at h
  dsimp only at h
  split at h
  · split at h
    · cases h
    · split at h
      · cases h
        exact absurd he Bool.false_ne_true
      · cases h
  · rename_i v hnot heq
    have hrefused : (((r.interrupted cfg schedule).pruneExpired
        (schedule r.sections).pruneAt).observePruned cfg.table (schedule r.sections).now
        cfg.role.inboundDirection m).2 = .refused e := by
      change (Table.observeAdmission cfg.table _ _ _ _ _).2 = _
      rw [heq]
      exact h
    exact Table.observePruned_full hrefused he

variable {e : RouterError} {history : List Message}

theorem handleDataOverflow_error {operationID : Option OperationID}
    {generation : Option OperationGeneration}
    (h : (r.handleDataOverflow cfg schedule operationID generation).2 = .error e) :
    e.isOperationCapacity = false := by
  unfold handleDataOverflow at h
  split at h
  · rename_i heq
    cases h
    have hcancel := congrArg Prod.snd heq
    unfold withTable Table.cancelGeneration at hcancel
    dsimp only at hcancel
    repeat' split at hcancel
    all_goals cases hcancel
    all_goals rfl
  · split at h <;> cases h
    rfl

theorem publish_error {event : RouteEvent} {reservation : Option Nat}
    (h : (r.publish cfg schedule event m reservation).2 = .error e) :
    e.isOperationCapacity = false := by
  have hcontrol {r : Router} (h : (r.enqueueControl cfg schedule event reservation).2 = .error e) :
      e.isOperationCapacity = false := by
    unfold enqueueControl at h
    split at h <;> cases h
    rfl
  unfold publish at h
  split at h
  · split at h <;> rename_i heq <;> cases h
    unfold enqueueData at heq
    dsimp only at heq
    split at heq
    · cases heq
    · exact handleDataOverflow_error (congrArg Prod.snd heq)
  split at h
  · split at h <;> rename_i heq
    · cases h
      unfold enqueueFinalAfterData at heq
      split at heq
      · cases heq
      · split at heq <;> cases heq
        rfl
    · cases h
    · exact hcontrol h
  · exact hcontrol h

theorem routeAdmittedLocked_full (h : (r.routeAdmittedLocked cfg schedule m).2 = .error e)
    (he : e.isOperationCapacity = true) :
    ((r.interrupted cfg schedule).pruneExpired (schedule r.sections).pruneAt).Full cfg.table ∧
      (deferredRequest m.kind = true ∨ m.kind = .cancel) := by
  unfold routeAdmittedLocked at h
  dsimp only at h
  split at h
  · rename_i e' hverdict
    cases h
    exact observeInbound_full hverdict he
  · cases h
  · cases h
  · rw [publish_error h] at he
    cases he

section

variable (h : Sound cfg r)

include h

theorem Sound.routeInbound : Sound cfg (r.routeInbound cfg schedule m).1 := by
  have hsilent : Silent r (r.shouldDeferInbound cfg schedule m).1 := silent_shouldDeferInbound
  have hpending := pending_congr hsilent.same
  have hsound := h.silent hsilent
  unfold Router.routeInbound
  split
  · exact h
  split
  · rename_i r₁ hdefer
    rw [hdefer] at hsound hpending
    refine hsound.deferInboundLocked fun id hid hnil => ?_
    exact shouldDeferInbound_true (congrArg Prod.snd hdefer) hid (hpending ▸ hnil)
  · rename_i r₁ hdefer
    have hthrough : ∀ id, m.operationID = some id → r.pending id = [] ∨
        (r.shouldDeferInbound cfg schedule m).1.operations.terminal = true :=
      fun id => shouldDeferInbound_false (congrArg Prod.snd hdefer) h
    rw [hdefer] at hsound hpending hthrough
    have hrouted : Sound cfg (r₁.routeAdmittedLocked cfg schedule m).1 := by
      by_cases hterminal : r₁.operations.terminal = true
      · exact hsound.silent (silent_routeAdmittedLocked hterminal)
      · refine hsound.emits emits_routeAdmittedLocked fun id hid hcancelled => ?_
        rw [hpending, (hthrough id hid).resolve_right hterminal] at hcancelled
        cases hcancelled
    split <;> rename_i heq <;> rw [heq] at hrouted
    · split
      · rename_i hcapacity
        exact hrouted.deferInboundLocked fun _ _ _ =>
          (routeAdmittedLocked_full (congrArg Prod.snd heq) hcapacity).2
      · exact hrouted
    · exact hrouted

/-! ### Promotion -/

/-- Promoting a message of a waiting history leaves the inbox alone and keeps the contract. -/
theorem Sound.promoteDeferredEvent (schedule : Schedule) (hm : m ∈ r.pending id) :
    Sound cfg (r.promoteDeferredEvent cfg schedule (deferredCancelled (r.pending id)) m).1 ∧
      (r.promoteDeferredEvent cfg schedule (deferredCancelled (r.pending id)) m).1.inboxState =
        r.inboxState := by
  have hrouted : Emits m r (r.routeAdmittedLocked cfg schedule m).1 := emits_routeAdmittedLocked
  have hobserved : Silent r (r.observeInbound cfg schedule m).1 := silent_withTable _
  unfold Router.promoteDeferredEvent
  split
  · rename_i hpublish
    have hsound : Sound cfg (r.routeAdmittedLocked cfg schedule m).1 := by
      refine h.emits hrouted fun id' hid' hcancelled => ?_
      obtain rfl := Option.some.inj ((h.owner id m hm).symm.trans hid')
      exact hpublish.resolve_left (by rw [hcancelled]; exact Bool.false_ne_true)
    have hsame := hrouted.same
    split <;> rename_i heq <;> rw [heq] at hsound hsame <;> exact ⟨hsound, hsame⟩
  · dsimp only
    split
    · exact ⟨h.silent hobserved, hobserved.same⟩
    · rename_i reservation _
      have hsettled : Silent r
          ((r.observeInbound cfg schedule m).1.settle cfg schedule reservation true) :=
        hobserved.trans (silent_settle reservation true)
      exact ⟨h.silent hsettled, hsettled.same⟩
    · exact ⟨h.silent hobserved, hobserved.same⟩

theorem Sound.promoteDeferredHistory (schedule : Schedule) (index : Nat)
    (hhistory : ∀ m ∈ history, m ∈ r.pending id) :
    Sound cfg (Router.promoteDeferredHistory cfg schedule (deferredCancelled (r.pending id)) index
      history r).1 ∧
    (Router.promoteDeferredHistory cfg schedule (deferredCancelled (r.pending id)) index
      history r).1.inboxState = r.inboxState := by
  induction history generalizing r index with
  | nil => exact ⟨h, rfl⟩
  | cons m rest ih =>
    have hevent := h.promoteDeferredEvent schedule (hhistory m List.mem_cons_self)
    unfold Router.promoteDeferredHistory
    split <;> rename_i heq <;> rw [heq] at hevent
    · split <;> exact hevent
    · rename_i r₁
      have hpending := pending_congr hevent.2
      have hrest : ∀ m ∈ rest, m ∈ r₁.pending id := fun m hm =>
        hpending ▸ hhistory m (List.mem_cons_of_mem _ hm)
      have hnext := ih hevent.1 (index + 1) hrest
      rw [hpending] at hnext
      exact ⟨hnext.1, hnext.2.trans hevent.2⟩

theorem Sound.promoteLoop {fuel : Nat} {result : Except RouterError OperationCapacity}
    (hloop : Router.promoteLoop cfg schedule fuel r = some (r', result)) : Sound cfg r' := by
  induction fuel generalizing r with
  | zero => cases hloop
  | succ fuel ih =>
    have hcapacity : Silent r (r.capacity cfg schedule).1 := silent_withTable _
    unfold Router.promoteLoop at hloop
    split at hloop
    · cases hloop
      exact h
    rename_i id rest horder
    dsimp only at hloop
    split at hloop
    · cases hloop
      exact h
    split at hloop <;> rename_i heq <;> rw [heq] at hcapacity
    · cases hloop
      exact h.silent hcapacity
    rename_i r₁ capacity
    split at hloop
    · cases hloop
      exact h.silent hcapacity
    have hsound := (h.silent hcapacity).promoteDeferredHistory schedule 0
      (fun m (hm : m ∈ r₁.pending id) => hm)
    rw [← pending_congr hcapacity.same] at hloop
    split at hloop <;> rename_i heq' <;> rw [heq'] at hsound
    · cases hloop
      exact hsound.1
    · rename_i r₂
      have horder' : r₂.deferredOrder = id :: rest :=
        (deferredOrder_congr (hsound.2.trans hcapacity.same)).trans horder
      rw [← pending_congr hsound.2] at hloop
      exact ih (hsound.1.retireDeferred horder') hloop
    · exact ih hsound.1 hloop

theorem Sound.close : Sound cfg (r.close cfg schedule) := by
  unfold Router.close
  split
  · exact h
  · have hlimit : (0 : Int) ≤ controlQueueByteLimit := by decide
    refine ⟨List.nodup_nil, fun id => ?_, fun id m hm => ?_, fun id => orderly_nil,
      fun hne => absurd rfl hne, rfl, rfl, rfl, Int.natCast_nonneg _, hlimit, hlimit, ?_⟩
    · exact ⟨fun hmem => absurd hmem List.not_mem_nil, fun hne => absurd rfl hne⟩
    · cases hm
    · change Inbox.after (r.trace ++ [.closed]) = _
      rw [Inbox.after_append, h.contract]
      rfl

theorem Sound.nextEvent : Sound cfg r.nextEvent.1 := by
  have hdata {r' : Router} {e : RouteEvent} (hdata : r.takeData = some (r', e)) : Sound cfg r' := by
    unfold takeData at hdata
    split at hdata
    · cases hdata
    · cases hdata
      rename_i rest _
      have htaken : Silent r { r with data := rest, controlBurst := 0 } := ⟨rfl, rfl⟩
      split
      · exact h.silent (htaken.trans (silent_decrementPendingData _))
      · exact h.silent htaken
  have hcontrol {r' : Router} {e : RouteEvent} (hcontrol : r.takeControl = some (r', e)) :
      Sound cfg r' := by
    unfold takeControl at hcontrol
    split at hcontrol <;> cases hcontrol
    exact h.silent ⟨rfl, rfl⟩
  unfold Router.nextEvent
  split
  · exact h
  dsimp only
  split
  · rename_i r' e heq
    obtain hurgent | ⟨-, heq⟩ := Option.or_eq_some_iff.mp heq
    · split at hurgent
      · exact hdata hurgent
      · cases hurgent
    · exact (Option.or_eq_some_iff.mp heq).elim hcontrol fun h => hdata h.2
  · exact h.silent ⟨rfl, rfl⟩

end

/-! ### The loop ends -/

end Router

end Windshare.Routing
