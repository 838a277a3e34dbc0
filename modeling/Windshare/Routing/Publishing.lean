import Windshare.Operation.Retention
import Windshare.Routing.Inbox

/-!
# What routing publishes

Routing an admitted message leaves the inbox alone and publishes the message or its overflow, if
anything. A terminated table publishes nothing.
-/

namespace Windshare.Routing

open Windshare.Library Windshare.Session Windshare.Operation

namespace Router

variable {cfg : RouterConfig} {schedule : Schedule} {r r' r'' : Router} {m : Message}
  {e : RouteEvent}

/-- The event carries the message or stands for its overflow. -/
def IsFor (m : Message) (e : RouteEvent) : Prop :=
  e.operationID = m.operationID ∧ ∀ m', e.message = some m' → m' = m

/-- `r'` has the inbox of `r` and has published events for `m` only. -/
structure Emits (m : Message) (r r' : Router) : Prop where
  same : r'.inboxState = r.inboxState
  trace : ∃ events : List RouteEvent,
    r'.trace = r.trace ++ events.map .published ∧ ∀ e ∈ events, IsFor m e

/-- `r'` has the inbox of `r` and has published nothing. -/
structure Silent (r r' : Router) : Prop where
  same : r'.inboxState = r.inboxState
  trace : r'.trace = r.trace

theorem Silent.refl (r : Router) : Silent r r := ⟨rfl, rfl⟩

theorem Silent.trans (h : Silent r r') (h' : Silent r' r'') : Silent r r'' :=
  ⟨h'.same.trans h.same, h'.trace.trans h.trace⟩

theorem Silent.emits (h : Silent r r') : Emits m r r' :=
  ⟨h.same, [], by rw [h.trace, List.map_nil, List.append_nil], by simp⟩

theorem Emits.trans (h : Emits m r r') (h' : Emits m r' r'') : Emits m r r'' := by
  obtain ⟨events, htrace, hfor⟩ := h.trace
  obtain ⟨events', htrace', hfor'⟩ := h'.trace
  refine ⟨h'.same.trans h.same, events ++ events', ?_, fun e he => ?_⟩
  · rw [htrace', htrace, List.map_append, List.append_assoc]
  · exact (List.mem_append.mp he).elim (hfor e) (hfor' e)

/-! ### The table and the queues -/

theorem silent_withTable {α : Type} (f : Moment → Table → Table × α) :
    Silent r (r.withTable cfg schedule f).1 := ⟨rfl, rfl⟩

theorem silent_settle (reservation : Option Nat) (commit : Bool) :
    Silent r (r.settle cfg schedule reservation commit) := by
  cases reservation with
  | none => exact .refl r
  | some => exact ⟨rfl, rfl⟩

theorem silent_incrementPendingData (generation : Option OperationGeneration) :
    Silent r (r.incrementPendingData generation) := by
  cases generation <;> exact ⟨rfl, rfl⟩

theorem silent_decrementPendingData (generation : Option OperationGeneration) :
    Silent r (r.decrementPendingData generation) := by
  unfold decrementPendingData
  split
  · exact .refl r
  · split <;> exact ⟨rfl, rfl⟩

theorem emits_sendControl (h : r.sendControl cfg e = some r') (he : IsFor m e) : Emits m r r' := by
  unfold sendControl at h
  split at h
  · cases h
    exact ⟨rfl, [e], rfl, by simpa using he⟩
  · cases h

theorem emits_sendData (h : r.sendData cfg e = some r') (he : IsFor m e) : Emits m r r' := by
  unfold sendData at h
  split at h
  · cases h
    exact ⟨rfl, [e], rfl, by simpa using he⟩
  · cases h

theorem emits_handleDataOverflow {id : Option OperationID} (hid : id = m.operationID)
    (generation : Option OperationGeneration) :
    Emits m r (r.handleDataOverflow cfg schedule id generation).1 := by
  have hcancel : Emits m r (r.withTable cfg schedule fun moment t =>
      t.cancelGeneration moment.pruneAt moment.now generation).1 := (silent_withTable _).emits
  unfold handleDataOverflow
  split
  · rename_i heq
    rw [heq] at hcancel
    exact hcancel
  · rename_i heq
    rw [heq] at hcancel
    split
    · rename_i hsend
      exact hcancel.trans (emits_sendControl hsend ⟨hid, by rintro m' ⟨⟩⟩)
    · exact hcancel

theorem emits_enqueueData (he : IsFor m e) : Emits m r (r.enqueueData cfg schedule e).1 := by
  have hincrement := silent_incrementPendingData (r := r) e.generation
  unfold enqueueData
  dsimp only
  split
  · rename_i hsend
    exact hincrement.emits.trans (emits_sendData hsend he)
  · have hdecrement := hincrement.trans (silent_decrementPendingData e.generation)
    exact hdecrement.emits.trans (emits_handleDataOverflow he.1 e.generation)

theorem emits_enqueueFinalAfterData (he : IsFor m e) :
    Emits m r (r.enqueueFinalAfterData cfg e).1 := by
  unfold enqueueFinalAfterData
  split
  · exact (Silent.refl r).emits
  · split
    · rename_i hsend
      exact emits_sendData hsend he
    · exact (Silent.refl r).emits

theorem emits_enqueueControl (he : IsFor m e) (reservation : Option Nat) :
    Emits m r (r.enqueueControl cfg schedule e reservation).1 := by
  unfold enqueueControl
  split
  · rename_i hsend
    exact (emits_sendControl hsend he).trans (silent_settle _ _).emits
  · exact (silent_settle _ _).emits

theorem emits_publish (he : IsFor m e) (reservation : Option Nat) :
    Emits m r (r.publish cfg schedule e m reservation).1 := by
  have hdata : Emits m r (r.enqueueData cfg schedule e).1 := emits_enqueueData he
  have hfinal : Emits m r (r.enqueueFinalAfterData cfg e).1 := emits_enqueueFinalAfterData he
  unfold publish
  split
  · split
    all_goals
      rename_i heq
      rw [heq] at hdata
      exact hdata.trans (silent_settle _ _).emits
  split
  · split
    · rename_i heq
      rw [heq] at hfinal
      exact hfinal.trans (silent_settle _ _).emits
    · rename_i heq
      rw [heq] at hfinal
      exact hfinal.trans (silent_settle _ _).emits
    · rename_i heq
      rw [heq] at hfinal
      exact hfinal.trans (emits_enqueueControl he reservation)
  · exact emits_enqueueControl he reservation

theorem emits_routeAdmittedLocked : Emits m r (r.routeAdmittedLocked cfg schedule m).1 := by
  have hobserve : Emits m r (r.observeInbound cfg schedule m).1 := (silent_withTable _).emits
  unfold routeAdmittedLocked
  dsimp only
  split
  · exact hobserve
  · exact hobserve
  · exact hobserve
  · refine hobserve.trans (emits_publish ⟨rfl, ?_⟩ _)
    rintro m' ⟨⟩
    rfl

/-! ### Terminated tables -/

theorem terminal_interrupted (h : r.operations.terminal = true) :
    (r.interrupted cfg schedule).terminal = true := by
  unfold interrupted
  rw [← List.foldl_map]
  exact Table.terminal_foldl _ h

/-- A terminated table drops every message. -/
theorem silent_routeAdmittedLocked (h : r.operations.terminal = true) :
    Silent r (r.routeAdmittedLocked cfg schedule m).1 := by
  have hdropped : (r.observeInbound cfg schedule m).2.verdict = .dropped := by
    have hterminal : ((r.interrupted cfg schedule).pruneExpired
        (schedule r.sections).pruneAt).terminal = true := terminal_interrupted h
    unfold observeInbound withTable Table.observeInbound Table.observeAdmission Table.observePruned
    dsimp only
    rw [if_pos hterminal]
  unfold routeAdmittedLocked
  dsimp only
  rw [hdropped]
  exact (silent_withTable _ : Silent r (r.observeInbound cfg schedule m).1)

end Router

end Windshare.Routing
