import Mathlib.Algebra.Order.BigOperators.Group.List
import Windshare.Library.KeyedQueue
import Windshare.Routing.Admission

/-!
# What the inbox is for

The abstract inbox is a queue of messages under the identities they belong to. A contract says
which observations of it are allowed: identities leave oldest first and with their whole history,
and while a cancellation waits nothing else of its identity is published. A sound router's
counters are sums over the abstract inbox, and its trace keeps the contract.
-/

namespace Windshare.Routing

open Windshare.Library Windshare.Session Windshare.Operation

/-! ### Weights of a history -/

def framesAfter (before : List Message) : List Message → Int
  | [] => 0
  | m :: rest =>
    (if deferredConsumesFrame before m.kind then 1 else 0) + framesAfter (before ++ [m]) rest

/-- The messages of a history, a request and its cancellation counted once. -/
def positions (history : List Message) : Int :=
  history.length -
    if history.any (fun m => deferredRequest m.kind) ∧ deferredCancelled history then 1 else 0

def messageBytes (history : List Message) : Int :=
  (history.map fun m => if m.kind = .cancel then (0 : Int) else m.body.length).sum

/-- The bytes of the cancellations. -/
def cancelBytes (history : List Message) : Int :=
  (history.map fun m => if m.kind = .cancel then (m.body.length : Int) else 0).sum

theorem framesAfter_append (before history : List Message) (m : Message) :
    framesAfter before (history ++ [m]) = framesAfter before history +
      if deferredConsumesFrame (before ++ history) m.kind then 1 else 0 := by
  induction history generalizing before with
  | nil => simp [framesAfter]
  | cons first rest ih =>
    rw [List.cons_append, framesAfter, framesAfter, ih, List.append_assoc,
      List.singleton_append, add_assoc]

theorem messageBytes_append (history : List Message) (m : Message) :
    messageBytes (history ++ [m]) =
      messageBytes history + if m.kind = .cancel then (0 : Int) else m.body.length := by
  simp [messageBytes]

theorem cancelBytes_append (history : List Message) (m : Message) :
    cancelBytes (history ++ [m]) =
      cancelBytes history + if m.kind = .cancel then (m.body.length : Int) else 0 := by
  simp [cancelBytes]

theorem framesAfter_nonneg (before history : List Message) : 0 ≤ framesAfter before history := by
  induction history generalizing before with
  | nil => exact le_refl 0
  | cons m rest ih =>
    exact add_nonneg (by split <;> decide) (ih _)

theorem messageBytes_nonneg (history : List Message) : 0 ≤ messageBytes history := by
  refine List.sum_nonneg fun x hx => ?_
  obtain ⟨m, -, rfl⟩ := List.mem_map.mp hx
  split <;> omega

theorem cancelBytes_nonneg (history : List Message) : 0 ≤ cancelBytes history := by
  refine List.sum_nonneg fun x hx => ?_
  obtain ⟨m, -, rfl⟩ := List.mem_map.mp hx
  split <;> omega

/-- A history starts with a request or a cancellation and is counted as `positions` says. -/
structure Orderly (history : List Message) : Prop where
  first : ∀ m rest, history = m :: rest → deferredRequest m.kind ∨ m.kind = .cancel
  frames : framesAfter [] history = positions history

theorem orderly_nil : Orderly [] where
  first := by rintro m rest ⟨⟩
  frames := rfl

theorem not_cancel_of_deferredRequest {kind : MessageKind} (h : deferredRequest kind = true) :
    kind ≠ .cancel := by
  rintro rfl
  cases h

variable {codec : Codec} {direction : Direction} {history : List Message}

/-- Where no message of the history answers the new one, it is neither a second request nor a
second cancellation. -/
theorem pendingVerdict_eq_none {m : Message}
    {pending : List Message} (h : pendingVerdict codec direction m pending = none) :
    (m.kind = .cancel → deferredCancelled pending = false) ∧
      (deferredRequest m.kind = true → pending.any (fun m => deferredRequest m.kind) = false) := by
  induction pending with
  | nil => exact ⟨fun _ => rfl, fun _ => rfl⟩
  | cons event rest ih =>
    unfold pendingVerdict at h
    split at h
    · cases h
    rename_i hcancel
    split at h
    · split at h <;> cases h
    rename_i hrequest
    obtain ⟨hcancels, hrequests⟩ := ih h
    refine ⟨fun hm => ?_, fun hm => ?_⟩
    · have hevent : event.kind ≠ .cancel := fun he => hcancel ⟨hm, he⟩
      have hrest : rest.any (·.kind == .cancel) = false := hcancels hm
      unfold deferredCancelled
      rw [List.any_cons, hrest, beq_false_of_ne hevent]
      rfl
    · have hevent : ¬ deferredRequest event.kind = true := fun he => hrequest ⟨hm, he⟩
      rw [List.any_cons, hrequests hm, Bool.eq_false_of_not_eq_true hevent]
      rfl

/-- A history stays orderly when a message joins it that no message of it answers. -/
theorem Orderly.append {m : Message} (h : Orderly history)
    (hverdict : pendingVerdict codec direction m history = none)
    (hfirst : history = [] → deferredRequest m.kind ∨ m.kind = .cancel) :
    Orderly (history ++ [m]) := by
  obtain ⟨hcancels, hrequests⟩ := pendingVerdict_eq_none hverdict
  refine ⟨fun m' rest heq => ?_, ?_⟩
  · cases history with
    | nil =>
      cases heq
      exact hfirst rfl
    | cons first =>
      rw [List.cons_append] at heq
      cases heq
      exact h.first _ _ rfl
  · rw [framesAfter_append, h.frames, List.nil_append]
    cases history with
    | nil =>
      have hone : ¬ (deferredRequest m.kind = true ∧ m.kind = .cancel) := fun hm =>
        not_cancel_of_deferredRequest hm.1 hm.2
      simp only [positions, deferredConsumesFrame, deferredCancelled, List.nil_append,
        List.any_cons, List.any_nil, Bool.or_false, beq_iff_eq, if_neg hone]
      rfl
    | cons first tail =>
      have hstart := h.first first tail rfl
      unfold positions deferredConsumesFrame
      unfold deferredCancelled at hcancels ⊢
      simp only [List.any_cons, List.cons_append, List.any_append, List.any_nil, Bool.or_false,
        List.length_cons, List.length_append, List.length_nil, Bool.or_eq_true,
        beq_iff_eq, Bool.or_eq_false_iff, beq_eq_false_iff_ne] at *
      -- The cases are what the new message is and what the first one is.
      by_cases hcancel : m.kind = .cancel
      · have hrequest : deferredRequest first.kind = true :=
          hstart.resolve_right (hcancels hcancel).1
        simp [hcancel, hrequest, (hcancels hcancel).1, (hcancels hcancel).2]
      · by_cases hrequest : deferredRequest m.kind = true
        · have hfirst : first.kind = .cancel :=
            hstart.resolve_left (by rw [(hrequests hrequest).1]; exact Bool.false_ne_true)
          have hnone : deferredRequest .cancel = false := rfl
          simp [hcancel, hrequest, hfirst, hnone, (hrequests hrequest).2]
        · simp [hcancel, hrequest]
          ring

/-! ### The contract -/

/-- The identities that wait, oldest first, each with its messages. -/
abbrev Inbox := KeyedQueue OperationID Message

namespace Inbox

/-- While the cancellation of an identity waits, no other message of it is published. -/
def admits (inbox : Inbox) (e : RouteEvent) : Bool :=
  match e.operationID, e.message with
  | some id, some m => !deferredCancelled (KeyedQueue.values id inbox) || m.kind == .cancel
  | _, _ => true

/-- What an observation does to the inbox, `none` where it is not allowed. -/
def observe (inbox : Inbox) : TraceEvent → Option Inbox
  | .deferred id m => some (KeyedQueue.push id m inbox)
  | .published e => if inbox.admits e then some inbox else none
  | .promoted id history =>
    match inbox with
    | [] => none
    | (oldest, messages) :: rest =>
      if oldest = id ∧ messages = history then some rest else none
  | .closed => some []

def after (trace : List TraceEvent) : Option Inbox := trace.foldlM observe []

theorem after_append (trace : List TraceEvent) (event : TraceEvent) :
    after (trace ++ [event]) = (after trace).bind (·.observe event) := by
  unfold after
  rw [List.foldlM_append]
  congr 1
  funext inbox
  change (inbox.observe event).bind some = _
  cases inbox.observe event <;> rfl

end Inbox

namespace Router

variable {cfg : RouterConfig} {schedule : Schedule} {r r' : Router} {id : OperationID} {m : Message}

/-- The fields of the inbox. -/
structure InboxState where
  deferred : FiniteMap OperationID (List Message)
  deferredOrder : List OperationID
  deferredFrames : Int
  deferredBytes : Int
  deferredCancelBytes : Int

def inboxState (r : Router) : InboxState :=
  ⟨r.deferred, r.deferredOrder, r.deferredFrames, r.deferredBytes, r.deferredCancelBytes⟩

/-- The inbox that the fields stand for. -/
def inbox (r : Router) : Inbox := KeyedQueue.ofKeys r.deferredOrder r.pending

/-- The counters are sums over the inbox and within their bounds, and the trace keeps the
contract and leads to the inbox. -/
structure Sound (cfg : RouterConfig) (r : Router) : Prop where
  nodup : r.deferredOrder.Nodup
  waiting : ∀ id, id ∈ r.deferredOrder ↔ r.pending id ≠ []
  owner : ∀ id, ∀ m ∈ r.pending id, m.operationID = some id
  orderly : ∀ id, Orderly (r.pending id)
  role : r.deferredOrder ≠ [] → cfg.role = .sender
  frames : r.deferredFrames = KeyedQueue.total (framesAfter []) r.inbox
  bytes : r.deferredBytes = KeyedQueue.total messageBytes r.inbox
  cancelBytes : r.deferredCancelBytes = KeyedQueue.total cancelBytes r.inbox
  frames_le : r.deferredFrames ≤ cfg.limits.controlFrames
  bytes_le : r.deferredBytes ≤ controlQueueByteLimit
  cancelBytes_le : r.deferredCancelBytes ≤ controlQueueByteLimit
  contract : Inbox.after r.trace = some r.inbox

theorem sound_new : Sound cfg new where
  nodup := List.nodup_nil
  waiting id := ⟨fun h => absurd h List.not_mem_nil, fun h => absurd rfl h⟩
  owner id m h := by cases h
  orderly id := orderly_nil
  role h := absurd rfl h
  frames := rfl
  bytes := rfl
  cancelBytes := rfl
  frames_le := Int.natCast_nonneg _
  bytes_le := by decide
  cancelBytes_le := by decide
  contract := rfl

/-- A router that only published what the contract allows stays sound. -/
theorem Sound.publish (h : Sound cfg r) (hsame : r'.inboxState = r.inboxState)
    {events : List RouteEvent} (htrace : r'.trace = r.trace ++ events.map .published)
    (hadmits : ∀ e ∈ events, r.inbox.admits e = true) : Sound cfg r' := by
  obtain ⟨hdeferred, horder, hframes, hbytes, hcancelBytes⟩ := InboxState.mk.inj hsame
  have hpending : r'.pending = r.pending := by
    funext id
    unfold pending
    rw [hdeferred]
  have hinbox : r'.inbox = r.inbox := by
    unfold inbox
    rw [horder, hpending]
  have hafter : Inbox.after (r.trace ++ events.map .published) = some r.inbox := by
    clear htrace
    induction events using List.reverseRecOn with
    | nil => simpa using h.contract
    | append_singleton events e ih =>
      rw [List.map_append, ← List.append_assoc, List.map_singleton, Inbox.after_append,
        ih fun e he => hadmits e (List.mem_append_left _ he)]
      exact if_pos (hadmits e (List.mem_append_right _ (List.mem_singleton_self e)))
  refine ⟨?_, ?_, ?_, ?_, ?_, ?_, ?_, ?_, ?_, ?_, ?_, ?_⟩
  · exact horder ▸ h.nodup
  · rw [horder, hpending]
    exact h.waiting
  · rw [hpending]
    exact h.owner
  · rw [hpending]
    exact h.orderly
  · rw [horder]
    exact h.role
  · rw [hframes, hinbox]
    exact h.frames
  · rw [hbytes, hinbox]
    exact h.bytes
  · rw [hcancelBytes, hinbox]
    exact h.cancelBytes
  · exact hframes ▸ h.frames_le
  · exact hbytes ▸ h.bytes_le
  · exact hcancelBytes ▸ h.cancelBytes_le
  · rw [htrace, hinbox, hafter]

/-! ### Entering and leaving the inbox -/

theorem pending_appendDeferred (r : Router) (id : OperationID) (m : Message)
    (id' : OperationID) : (r.appendDeferred id m).pending id' =
    if id = id' then r.pending id ++ [m] else r.pending id' := by
  unfold pending appendDeferred
  rw [FiniteMap.get?_insert]
  split <;> rfl

theorem inbox_appendDeferred (h : Sound cfg r) :
    (r.appendDeferred id m).inbox = KeyedQueue.push id m r.inbox := by
  have hpending := pending_appendDeferred r id m
  unfold inbox
  by_cases hmem : id ∈ r.deferredOrder
  · have horder : (r.appendDeferred id m).deferredOrder = r.deferredOrder :=
      if_neg fun hlength => (h.waiting id).mp hmem (List.length_eq_zero_iff.mp hlength)
    rw [horder]
    refine (KeyedQueue.push_ofKeys_of_mem h.nodup hmem ?_ ?_).symm
    · rw [hpending, if_pos rfl]
    · intro id' _ hne
      rw [hpending, if_neg (Ne.symm hne)]
  · have hnil : r.pending id = [] := not_not.mp fun hne => hmem ((h.waiting id).mpr hne)
    have horder : (r.appendDeferred id m).deferredOrder = r.deferredOrder ++ [id] :=
      if_pos (by rw [hnil]; rfl)
    rw [horder, KeyedQueue.push_ofKeys_of_not_mem hmem]
    unfold KeyedQueue.ofKeys
    rw [List.map_append, List.map_singleton, hpending, if_pos rfl, hnil]
    refine congrArg (· ++ _) (List.map_congr_left fun id' hid' => ?_)
    rw [hpending, if_neg]
    rintro rfl
    exact hmem hid'

theorem values_inbox (h : Sound cfg r) (id : OperationID) :
    KeyedQueue.values id r.inbox = r.pending id := by
  by_cases hmem : id ∈ r.deferredOrder
  · exact KeyedQueue.values_ofKeys_of_mem hmem
  · have hnil : r.pending id = [] := not_not.mp fun hne => hmem ((h.waiting id).mpr hne)
    rw [hnil]
    exact KeyedQueue.values_ofKeys_of_not_mem hmem

/-- A counter that adds what the message adds to its history stays the sum over the inbox. -/
theorem total_inbox_appendDeferred (h : Sound cfg r) (w : List Message → Int) (hnil : w [] = 0)
    {counter added : Int} (hcounter : counter = KeyedQueue.total w r.inbox)
    (hadded : w (r.pending id ++ [m]) = w (r.pending id) + added) :
    counter + added = KeyedQueue.total w (r.appendDeferred id m).inbox := by
  rw [inbox_appendDeferred h, KeyedQueue.total_push w hnil, values_inbox h, hadded, hcounter]
  ring

/-- A message that the inbox takes in. -/
theorem Sound.appendDeferred (h : Sound cfg r) (hid : m.operationID = some id)
    (hrole : cfg.role = .sender)
    (hverdict : pendingVerdict codec direction m (r.pending id) = none)
    (hfirst : r.pending id = [] → deferredRequest m.kind ∨ m.kind = .cancel)
    (hframes : ¬ (deferredConsumesFrame (r.pending id) m.kind ∧
      r.deferredFrames ≥ cfg.limits.controlFrames))
    (hbytes : ¬ m.body.length > r.roomFor m.kind) : Sound cfg (r.appendDeferred id m) := by
  have hpending := pending_appendDeferred r id m
  have hmem (id' : OperationID) :
      id' ∈ (r.appendDeferred id m).deferredOrder ↔ id' ∈ r.deferredOrder ∨ id' = id := by
    unfold Router.appendDeferred
    split
    · rw [List.mem_append, List.mem_singleton]
    · rename_i hlength
      have hwaits : id ∈ r.deferredOrder :=
        (h.waiting id).mpr fun hnil => hlength (by rw [hnil]; rfl)
      exact ⟨.inl, fun hid' => hid'.elim (fun hid' => hid') (fun heq => heq ▸ hwaits)⟩
  refine ⟨?_, fun id' => ?_, fun id' m' hm' => ?_, fun id' => ?_, fun _ => hrole, ?_, ?_, ?_, ?_,
    ?_, ?_, ?_⟩
  · unfold Router.appendDeferred
    split
    · rename_i hlength
      have hnot : id ∉ r.deferredOrder := fun hwaits =>
        (h.waiting id).mp hwaits (List.length_eq_zero_iff.mp hlength)
      exact List.nodup_append'.mpr ⟨h.nodup, List.nodup_singleton id,
        List.disjoint_singleton.mpr hnot⟩
    · exact h.nodup
  · rw [hmem, hpending, h.waiting]
    by_cases heq : id = id'
    · rw [if_pos heq]
      exact ⟨fun _ => List.append_ne_nil_of_right_ne_nil _ (List.cons_ne_nil m []),
        fun _ => .inr heq.symm⟩
    · rw [if_neg heq]
      exact or_iff_left (Ne.symm heq)
  · rw [hpending] at hm'
    by_cases heq : id = id'
    · rw [if_pos heq, heq] at hm'
      obtain hm' | hm' := List.mem_append.mp hm'
      · exact h.owner id' m' hm'
      · rw [List.mem_singleton.mp hm', hid, heq]
    · rw [if_neg heq] at hm'
      exact h.owner id' m' hm'
  · rw [hpending]
    by_cases heq : id = id'
    · rw [if_pos heq]
      exact (h.orderly id).append hverdict hfirst
    · rw [if_neg heq]
      exact h.orderly id'
  · rw [← total_inbox_appendDeferred h _ rfl h.frames (framesAfter_append [] (r.pending id) m),
      List.nil_append]
    unfold Router.appendDeferred
    dsimp only
    split
    · rfl
    · exact (add_zero _).symm
  · rw [← total_inbox_appendDeferred h _ rfl h.bytes (messageBytes_append (r.pending id) m)]
    unfold Router.appendDeferred
    dsimp only
    split
    · exact (add_zero _).symm
    · rfl
  · rw [← total_inbox_appendDeferred h _ rfl h.cancelBytes (cancelBytes_append (r.pending id) m)]
    unfold Router.appendDeferred
    dsimp only
    split
    · rfl
    · exact (add_zero _).symm
  · have hle := h.frames_le
    unfold Router.appendDeferred
    dsimp only
    split
    · rename_i hconsumes
      have hlt : ¬ r.deferredFrames ≥ cfg.limits.controlFrames :=
        fun hge => hframes ⟨hconsumes, hge⟩
      omega
    · exact hle
  · have hle := h.bytes_le
    unfold roomFor at hbytes
    unfold Router.appendDeferred
    dsimp only
    split
    · exact hle
    · rename_i hkind
      rw [if_neg hkind] at hbytes
      omega
  · have hle := h.cancelBytes_le
    unfold roomFor at hbytes
    unfold Router.appendDeferred
    dsimp only
    split
    · rename_i hkind
      rw [if_pos hkind] at hbytes
      omega
    · exact hle
  · change Inbox.after (r.trace ++ [.deferred id m]) = _
    rw [Inbox.after_append, h.contract, inbox_appendDeferred h]
    rfl

/-- Uncounting takes back what the messages were counted with, and does nothing else. -/
theorem uncount_eq (before history : List Message) (r : Router) : uncount before history r =
    { r with
      deferredFrames := r.deferredFrames - framesAfter before history
      deferredBytes := r.deferredBytes - messageBytes history
      deferredCancelBytes := r.deferredCancelBytes - Routing.cancelBytes history } := by
  induction history generalizing before r with
  | nil => simp [uncount, framesAfter, messageBytes, Routing.cancelBytes]
  | cons m rest ih =>
    rw [uncount, ih]
    unfold messageBytes Routing.cancelBytes
    rw [framesAfter, List.map_cons, List.map_cons, List.sum_cons, List.sum_cons]
    congr 1 <;> dsimp only
    · split <;> ring
    · split <;> ring
    · split <;> ring

theorem pending_retireDeferred (r : Router) (id : OperationID) (history : List Message)
    (id' : OperationID) :
    (r.retireDeferred id history).pending id' = if id = id' then [] else r.pending id' := by
  unfold retireDeferred
  rw [uncount_eq]
  unfold pending
  rw [FiniteMap.get?_erase]
  split <;> rfl

/-- The oldest identity leaves the inbox with its history. -/
theorem Sound.retireDeferred (h : Sound cfg r) {rest : List OperationID}
    (horder : r.deferredOrder = id :: rest) : Sound cfg (r.retireDeferred id (r.pending id)) := by
  have hnodup := h.nodup
  rw [horder] at hnodup
  obtain ⟨hnot, hrest⟩ := List.nodup_cons.mp hnodup
  have hne (id' : OperationID) (hid' : id' ∈ rest) : id ≠ id' := by
    rintro rfl
    exact hnot hid'
  have hpending := pending_retireDeferred r id (r.pending id)
  have horder' : (r.retireDeferred id (r.pending id)).deferredOrder = rest := by
    unfold Router.retireDeferred
    rw [uncount_eq, horder]
    rfl
  have hinbox : r.inbox = (id, r.pending id) :: (r.retireDeferred id (r.pending id)).inbox := by
    unfold inbox
    rw [horder', horder]
    refine congrArg (_ :: ·) (KeyedQueue.ofKeys_congr fun id' hid' => ?_)
    rw [hpending, if_neg (hne id' hid')]
  have htotal (w : List Message → Int) : KeyedQueue.total w r.inbox - w (r.pending id) =
      KeyedQueue.total w (r.retireDeferred id (r.pending id)).inbox := by
    rw [hinbox, KeyedQueue.total_cons]
    ring
  have hframes : (r.retireDeferred id (r.pending id)).deferredFrames =
      r.deferredFrames - framesAfter [] (r.pending id) := by
    unfold Router.retireDeferred
    rw [uncount_eq]
  have hbytes : (r.retireDeferred id (r.pending id)).deferredBytes =
      r.deferredBytes - messageBytes (r.pending id) := by
    unfold Router.retireDeferred
    rw [uncount_eq]
  have hcancelBytes : (r.retireDeferred id (r.pending id)).deferredCancelBytes =
      r.deferredCancelBytes - Routing.cancelBytes (r.pending id) := by
    unfold Router.retireDeferred
    rw [uncount_eq]
  refine ⟨horder' ▸ hrest, fun id' => ?_, fun id' m' hm' => ?_, fun id' => ?_,
    fun _ => h.role (horder ▸ List.cons_ne_nil id rest), ?_, ?_, ?_, ?_, ?_, ?_, ?_⟩
  · rw [horder', hpending]
    have hwaiting := h.waiting id'
    rw [horder, List.mem_cons] at hwaiting
    by_cases heq : id = id'
    · rw [if_pos heq, ← heq]
      exact ⟨fun hid' => absurd hid' hnot, fun hnil => absurd rfl hnil⟩
    · rw [if_neg heq, ← hwaiting]
      exact (or_iff_right (Ne.symm heq)).symm
  · rw [hpending] at hm'
    split at hm'
    · cases hm'
    · exact h.owner id' m' hm'
  · rw [hpending]
    split
    · exact orderly_nil
    · exact h.orderly id'
  · rw [hframes, h.frames, htotal]
  · rw [hbytes, h.bytes, htotal]
  · rw [hcancelBytes, h.cancelBytes, htotal]
  · have hnonneg := framesAfter_nonneg [] (r.pending id)
    have hle := h.frames_le
    rw [hframes]
    omega
  · have hnonneg := messageBytes_nonneg (r.pending id)
    have hle := h.bytes_le
    rw [hbytes]
    omega
  · have hnonneg := cancelBytes_nonneg (r.pending id)
    have hle := h.cancelBytes_le
    rw [hcancelBytes]
    omega
  · have htrace : (r.retireDeferred id (r.pending id)).trace =
        r.trace ++ [.promoted id (r.pending id)] := by
      unfold Router.retireDeferred
      rw [uncount_eq]
    rw [htrace, Inbox.after_append, h.contract, hinbox]
    exact if_pos ⟨rfl, rfl⟩

end Router

end Windshare.Routing
