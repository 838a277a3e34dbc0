import Mathlib.Algebra.Order.Group.Int
import Mathlib.Algebra.Order.Pi
import Mathlib.Tactic.Abel
import Windshare.WebOperation.Queue

/-!
# What the calls on a queue keep

The effects of a queue's calls, in order, are its log. The invariant ties the queue to the log:
messages were delivered in the order in which they were admitted, and every charge was returned
once or belongs to a message that is still queued.
-/

namespace Windshare.WebOperation

open Windshare.Library Windshare.Protocol Windshare.Session Windshare.Operation

/-! ### Counters -/

/-- What some messages add to the counters. -/
def load (messages : List SessionMessage) : SessionQueueAdmission :=
  (messages.map SessionMessage.cost).sum

@[simp] theorem load_nil : load [] = 0 := rfl

@[simp] theorem load_cons (m : SessionMessage) (messages : List SessionMessage) :
    load (m :: messages) = m.cost + load messages :=
  List.sum_cons

@[simp] theorem load_append (ms messages : List SessionMessage) :
    load (ms ++ messages) = load ms + load messages := by
  unfold load
  rw [List.map_append, List.sum_append]

theorem load_control (messages : List SessionMessage) :
    load messages .control = (messages.countP fun m => !m.data : Nat) := by
  induction messages with
  | nil => rfl
  | cons m messages ih =>
    rw [load_cons, List.countP_cons, Pi.add_apply, ih]
    cases hdata : m.data <;> simp [SessionMessage.cost, hdata, Int.add_comm]

theorem load_data (messages : List SessionMessage) :
    load messages .data = (messages.countP fun m => m.data : Nat) := by
  induction messages with
  | nil => rfl
  | cons m messages ih =>
    rw [load_cons, List.countP_cons, Pi.add_apply, ih]
    cases hdata : m.data <;> simp [SessionMessage.cost, hdata, Int.add_comm]

theorem load_plaintextBytes (messages : List SessionMessage) :
    load messages .plaintextBytes = ((messages.map fun m => m.plaintext.length).sum : Nat) := by
  induction messages with
  | nil => rfl
  | cons m messages ih =>
    rw [load_cons, List.map_cons, List.sum_cons, Pi.add_apply, ih, Nat.cast_add]
    rfl

theorem cost_nonneg (m : SessionMessage) : 0 ≤ m.cost := by
  intro counter
  cases counter with
  | control =>
    change (0 : Int) ≤ if m.data then 0 else 1
    split <;> decide
  | data =>
    change (0 : Int) ≤ if m.data then 1 else 0
    split <;> decide
  | plaintextBytes => exact Int.natCast_nonneg _

theorem load_nonneg (messages : List SessionMessage) : 0 ≤ load messages := by
  induction messages with
  | nil => exact le_refl 0
  | cons m messages ih =>
    rw [load_cons]
    exact add_nonneg (cost_nonneg m) ih

theorem load_concat (messages : List SessionMessage) (m : SessionMessage)
    (others : SessionQueueAdmission) :
    load (messages ++ [m]) + others = load messages + others + m.cost := by
  rw [load_append, load_cons, load_nil]
  abel

variable {m : SessionMessage} {readers : List Nat}

theorem charge_eq_some {a a' : SessionQueueAdmission}
    (h : a.charge m = some a') : a' = a + m.cost := by
  dsimp only [SessionQueueAdmission.charge] at h
  split at h
  · cases h
  · exact (Option.some.inj h).symm

theorem not_underflowed {a : SessionQueueAdmission} (h : 0 ≤ a) : ¬a.Underflowed := by
  rintro (hcontrol | hdata | hbytes)
  · exact absurd (h .control) (not_le_of_gt hcontrol)
  · exact absurd (h .data) (not_le_of_gt hdata)
  · exact absurd (h .plaintextBytes) (not_le_of_gt hbytes)

/-- A message that is part of the count is released without an underflow. -/
theorem release_cost_add {others : SessionQueueAdmission} (h : 0 ≤ others) (m : SessionMessage) :
    SessionQueueAdmission.release (m.cost + others) m = (others, false) := by
  have hnext : m.cost + others - m.cost = others := add_sub_cancel_left m.cost others
  unfold SessionQueueAdmission.release
  dsimp only
  rw [hnext, decide_eq_false (not_underflowed h)]

theorem releaseAll_load {others : SessionQueueAdmission} (h : 0 ≤ others)
    (messages : List SessionMessage) :
    releaseAll (load messages + others) messages = (others, messages.map .released, false) := by
  induction messages with
  | nil =>
    rw [load_nil, zero_add]
    rfl
  | cons m messages ih =>
    have hrest : 0 ≤ load messages + others := add_nonneg (load_nonneg messages) h
    rw [load_cons, add_assoc]
    unfold releaseAll
    rw [release_cost_add hrest m, ih]
    rfl

/-! ### Logs -/

def admittedIn (log : List Effect) : List SessionMessage :=
  log.filterMap fun
    | .admitted m => some m
    | _ => none

def chargedIn (log : List Effect) : List SessionMessage :=
  log.filterMap fun
    | .charged m => some m
    | _ => none

def releasedIn (log : List Effect) : List SessionMessage :=
  log.filterMap fun
    | .released m => some m
    | _ => none

/-- The readers that the log says were resolved, each with its message. -/
def resolvedIn (log : List Effect) : List (Nat × SessionMessage) :=
  log.filterMap fun
    | .resolved reader m => some (reader, m)
    | _ => none

section Logs

variable (log log' : List Effect)

@[simp] theorem admittedIn_append : admittedIn (log ++ log') = admittedIn log ++ admittedIn log' :=
  List.filterMap_append

@[simp] theorem chargedIn_append : chargedIn (log ++ log') = chargedIn log ++ chargedIn log' :=
  List.filterMap_append

@[simp] theorem releasedIn_append : releasedIn (log ++ log') = releasedIn log ++ releasedIn log' :=
  List.filterMap_append

@[simp] theorem resolvedIn_append : resolvedIn (log ++ log') = resolvedIn log ++ resolvedIn log' :=
  List.filterMap_append

/-- Effects that only reject readers. -/
structure Quiet (effects : List Effect) : Prop where
  admitted : admittedIn effects = []
  charged : chargedIn effects = []
  released : releasedIn effects = []
  resolved : resolvedIn effects = []

theorem quiet_rejected (readers : List Nat) : Quiet (readers.map .rejected) := by
  constructor
  all_goals
    induction readers with
    | nil => rfl
    | cons reader readers ih => exact ih

/-- Effects that give charges back and nothing else. -/
theorem released_only (messages : List SessionMessage) :
    admittedIn (messages.map .released) = [] ∧ chargedIn (messages.map .released) = [] ∧
    releasedIn (messages.map .released) = messages ∧ resolvedIn (messages.map .released) = [] := by
  induction messages with
  | nil => exact ⟨rfl, rfl, rfl, rfl⟩
  | cons m messages ih =>
    obtain ⟨hadmitted, hcharged, hreleased, hresolved⟩ := ih
    exact ⟨hadmitted, hcharged, congrArg (m :: ·) hreleased, hresolved⟩

end Logs

/-! ### The invariant of one queue -/

/-- The queue after the effects of `log`; `issued` readers have called `next`. -/
structure OperationQueue.Sound (q : OperationQueue) (issued : Nat) (log : List Effect) : Prop where
  exclusive : q.messages = [] ∨ q.readers = []
  no_readers : q.closed = true → q.readers = []
  settled : q.consumerSettled = true ↔ q.closed = true ∧ q.messages = []
  delivered : (resolvedIn log).map Prod.snd ++ q.messages <+: admittedIn log
  complete : q.closed = false → (resolvedIn log).map Prod.snd ++ q.messages = admittedIn log
  charges : chargedIn log = releasedIn log ++ q.messages
  distinct : ((resolvedIn log).map Prod.fst ++ q.readers).Nodup
  known : ∀ reader ∈ (resolvedIn log).map Prod.fst ++ q.readers, reader < issued

namespace OperationQueue.Sound

variable {q q' : OperationQueue} {issued : Nat} {log : List Effect}

theorem new : OperationQueue.new.Sound 0 [] where
  exclusive := .inl rfl
  no_readers := nofun
  settled := ⟨nofun, nofun⟩
  delivered := List.prefix_refl _
  complete := fun _ => rfl
  charges := rfl
  distinct := List.nodup_nil
  known := fun _ h => absurd h List.not_mem_nil

section

variable (h : q.Sound issued log)

include h

/-- A change of fields that the invariant does not read. -/
theorem congr (hmessages : q'.messages = q.messages)
    (hreaders : q'.readers = q.readers) (hclosed : q'.closed = q.closed)
    (hsettled : q'.consumerSettled = q.consumerSettled) : q'.Sound issued log := by
  obtain ⟨hexclusive, hno, hset, hdelivered, hcomplete, hcharges, hdistinct, hknown⟩ := h
  rw [← hmessages] at hexclusive hset hdelivered hcomplete hcharges
  rw [← hreaders] at hexclusive hno hdistinct hknown
  rw [← hclosed] at hno hset hcomplete
  rw [← hsettled] at hset
  exact ⟨hexclusive, hno, hset, hdelivered, hcomplete, hcharges, hdistinct, hknown⟩

theorem quiet {effects : List Effect} (hquiet : Quiet effects) :
    q.Sound issued (log ++ effects) := by
  obtain ⟨hexclusive, hno, hset, hdelivered, hcomplete, hcharges, hdistinct, hknown⟩ := h
  have hadmitted : admittedIn (log ++ effects) = admittedIn log := by
    rw [admittedIn_append, hquiet.admitted, List.append_nil]
  have hcharged : chargedIn (log ++ effects) = chargedIn log := by
    rw [chargedIn_append, hquiet.charged, List.append_nil]
  have hreleased : releasedIn (log ++ effects) = releasedIn log := by
    rw [releasedIn_append, hquiet.released, List.append_nil]
  have hresolved : resolvedIn (log ++ effects) = resolvedIn log := by
    rw [resolvedIn_append, hquiet.resolved, List.append_nil]
  rw [← hadmitted] at hdelivered hcomplete
  rw [← hresolved] at hdelivered hcomplete hdistinct hknown
  rw [← hcharged, ← hreleased] at hcharges
  exact ⟨hexclusive, hno, hset, hdelivered, hcomplete, hcharges, hdistinct, hknown⟩

/-- Fewer readers wait. -/
theorem lessReaders
    (hsublist : readers.Sublist q.readers) : { q with readers }.Sound issued log := by
  have hall := (List.Sublist.refl ((resolvedIn log).map Prod.fst)).append hsublist
  have hnone : q.readers = [] → readers = [] := fun hempty =>
    List.sublist_nil.mp (hempty ▸ hsublist)
  exact { h with
    exclusive := h.exclusive.imp_right hnone
    no_readers := fun hclosed => hnone (h.no_readers hclosed)
    distinct := h.distinct.sublist hall
    known := fun reader hreader => h.known reader (hall.subset hreader) }

/-- The queue closes, every charge is returned, and what was queued is not delivered. -/
theorem cleared (hclosed : q'.closed = true) (hmessages : q'.messages = [])
    (hreaders : q'.readers = []) (hsettled : q'.consumerSettled = true) :
    q'.Sound issued (log ++ q.messages.map .released) := by
  obtain ⟨hadmitted, hcharged, hreleased, hresolved⟩ := released_only q.messages
  have hresolved : resolvedIn (log ++ q.messages.map .released) = resolvedIn log := by
    rw [resolvedIn_append, hresolved, List.append_nil]
  have hnone := h.lessReaders (List.nil_sublist q.readers)
  constructor
  case exclusive => exact .inl hmessages
  case no_readers => exact fun _ => hreaders
  case settled => exact ⟨fun _ => ⟨hclosed, hmessages⟩, fun _ => hsettled⟩
  case delivered =>
    rw [hresolved, admittedIn_append, hadmitted, hmessages, List.append_nil, List.append_nil]
    exact (List.prefix_append _ _).trans h.delivered
  case complete =>
    intro hopen
    cases hopen.symm.trans hclosed
  case charges =>
    rw [chargedIn_append, releasedIn_append, hcharged, hreleased, hmessages, h.charges]
  case distinct => exact hresolved ▸ hreaders ▸ hnone.distinct
  case known => exact hresolved ▸ hreaders ▸ hnone.known

theorem ended (hclosed : q'.closed = true)
    (hmessages : q'.messages = q.messages) (hreaders : q'.readers = [])
    (hsettled : q'.consumerSettled = true ↔ q.messages = []) : q'.Sound issued log := by
  have hnone := h.lessReaders (List.nil_sublist q.readers)
  constructor
  case exclusive => exact .inr hreaders
  case no_readers => exact fun _ => hreaders
  case settled =>
    rw [hsettled, hmessages]
    exact ⟨fun hempty => ⟨hclosed, hempty⟩, fun h => h.2⟩
  case delivered => exact hmessages ▸ h.delivered
  case complete =>
    intro hopen
    cases hopen.symm.trans hclosed
  case charges => exact hmessages ▸ h.charges
  case distinct => exact hreaders ▸ hnone.distinct
  case known => exact hreaders ▸ hnone.known

end

end OperationQueue.Sound

/-! ### Settling -/

namespace OperationQueue

variable (q : OperationQueue)

@[simp] theorem messages_settleConsumer : q.settleConsumer.messages = q.messages := by
  unfold settleConsumer
  split <;> rfl

@[simp] theorem readers_settleConsumer : q.settleConsumer.readers = q.readers := by
  unfold settleConsumer
  split <;> rfl

@[simp] theorem closed_settleConsumer : q.settleConsumer.closed = q.closed := by
  unfold settleConsumer
  split <;> rfl

@[simp] theorem consumerSettled_settleConsumer : q.settleConsumer.consumerSettled = true := by
  unfold settleConsumer
  split
  · assumption
  · rfl

variable (late : Bool) (settlement : Settlement)

@[simp] theorem messages_settle : (q.settle late settlement).messages = q.messages := by
  dsimp only [settle]
  split <;> simp

@[simp] theorem readers_settle : (q.settle late settlement).readers = q.readers := by
  dsimp only [settle]
  split <;> simp

@[simp] theorem closed_settle : (q.settle late settlement).closed = q.closed := by
  dsimp only [settle]
  split <;> simp

theorem consumerSettled_settle_true : (q.settle true settlement).consumerSettled = true := by
  unfold settle
  rw [if_pos (.inl rfl), consumerSettled_settleConsumer]

theorem consumerSettled_settle_false (h : q.consumerSettled = false) :
    (q.settle false settlement).consumerSettled = true ↔ q.messages = [] := by
  unfold settle
  by_cases hempty : q.messages = []
  · rw [if_pos (.inr hempty), consumerSettled_settleConsumer]
    exact ⟨fun _ => hempty, fun _ => rfl⟩
  · rw [if_neg (by simpa using hempty)]
    exact ⟨fun hsettled => absurd (h.symm.trans hsettled) nofun, fun h => absurd h hempty⟩

end OperationQueue

/-! ### Calls -/

/-- After the call, the queue and its log still agree, and the counters count what it keeps
besides the `others`. -/
structure Call.Keeps (c : Call) (issued : Nat) (log : List Effect)
    (others : SessionQueueAdmission) : Prop where
  sound : c.queue.Sound issued (log ++ c.effects)
  admission : c.admission = load c.queue.messages + others

theorem Call.Keeps.after {c : Call} {effects log : List Effect} {issued : Nat}
    {others : SessionQueueAdmission} (h : c.Keeps issued (log ++ effects) others) :
    { c with effects := effects ++ c.effects }.Keeps issued log others :=
  ⟨by rw [← List.append_assoc]; exact h.sound, h.admission⟩

namespace OperationQueue

variable {q : OperationQueue} {issued : Nat} {log : List Effect} {others : SessionQueueAdmission}

theorem Sound.unchanged (h : q.Sound issued log) (thrown : Bool) :
    (⟨q, load q.messages + others, [], thrown⟩ : Call).Keeps issued log others :=
  ⟨by rwa [List.append_nil], rfl⟩

theorem clearMessages_eq (hothers : 0 ≤ others)
    (rest : OperationQueue → OperationQueue × List Effect) :
    q.clearMessages (load q.messages + others) rest =
      ⟨(rest { q with messages := [] }).1, others,
        q.messages.map .released ++ (rest { q with messages := [] }).2, false⟩ := by
  unfold clearMessages
  rw [releaseAll_load hothers]
  rfl

/-- The last part of an exit. -/
structure Exits (rest : OperationQueue → OperationQueue) : Prop where
  messages : ∀ q, (rest q).messages = q.messages
  readers : ∀ q, (rest q).readers = q.readers
  closed : ∀ q, (rest q).closed = q.closed
  consumerSettled : ∀ q, (rest q).consumerSettled = true

theorem exits_settleConsumer : Exits settleConsumer :=
  ⟨messages_settleConsumer, readers_settleConsumer, closed_settleConsumer,
    consumerSettled_settleConsumer⟩

theorem exits_settle (settlement : Settlement) : Exits (·.settle true settlement) :=
  ⟨fun q => q.messages_settle true settlement, fun q => q.readers_settle true settlement,
    fun q => q.closed_settle true settlement, fun q => q.consumerSettled_settle_true settlement⟩

section

variable (h : q.Sound issued log)

include h

theorem Sound.clearMessages (hothers : 0 ≤ others) {q' : OperationQueue}
    (hmessages : q'.messages = q.messages) (hclosed : q'.closed = true)
    {rest : OperationQueue → OperationQueue} (hrest : Exits rest) :
    (q'.clearMessages (load q.messages + others) (·.rejectReaders rest)).Keeps issued log
      others := by
  rw [← hmessages, clearMessages_eq hothers, hmessages]
  refine ⟨?_, ?_⟩
  · dsimp only
    rw [← List.append_assoc]
    refine Sound.quiet ?_ (quiet_rejected _)
    apply h.cleared
    · exact (hrest.closed _).trans hclosed
    · exact hrest.messages _
    · exact hrest.readers _
    · exact hrest.consumerSettled _
  · change others = load (rest _).messages + others
    rw [hrest.messages, load_nil, zero_add]

theorem Sound.rejectConsumer (hothers : 0 ≤ others)
    (reason : Option Reason) (settlement : Settlement) :
    (q.rejectConsumer (load q.messages + others) reason settlement).Keeps issued log others := by
  unfold OperationQueue.rejectConsumer
  split
  · rename_i hclosed
    refine h.clearMessages hothers ?_ ?_ exits_settleConsumer
    · rfl
    · exact hclosed
  · refine h.clearMessages hothers ?_ ?_ (exits_settle settlement)
    · rfl
    · rfl

theorem Sound.fail (hothers : 0 ≤ others) (reason : Option Reason) :
    (q.fail (load q.messages + others) reason).Keeps issued log others := by
  unfold OperationQueue.fail
  split
  · exact h.unchanged false
  · exact h.rejectConsumer hothers reason _

theorem Sound.cancel (hothers : 0 ≤ others) (cause : Option Reason) :
    (q.cancel (load q.messages + others) cause).Keeps issued log others := by
  unfold OperationQueue.cancel
  split
  · exact h.unchanged false
  · exact h.rejectConsumer hothers cause _

theorem Sound.settle (hopen : ¬q.closed = true) {q' : OperationQueue}
    (hmessages : q'.messages = q.messages) (hclosed : q'.closed = true)
    (hsettled : q'.consumerSettled = q.consumerSettled) (settlement : Settlement) :
    (⟨(q'.rejectReaders (·.settle false settlement)).1, load q.messages + others,
      (q'.rejectReaders (·.settle false settlement)).2, false⟩ : Call).Keeps issued log others := by
  have hunsettled : q'.consumerSettled = false := by
    rw [hsettled, ← Bool.not_eq_true, h.settled]
    exact fun hset => hopen hset.1
  unfold OperationQueue.rejectReaders
  refine ⟨?_, ?_⟩
  · refine Sound.quiet ?_ (quiet_rejected _)
    apply h.ended
    · exact (closed_settle ..).trans hclosed
    · exact (messages_settle ..).trans hmessages
    · exact readers_settle ..
    · have hempty := consumerSettled_settle_false { q' with readers := [] } settlement hunsettled
      exact hempty.trans (iff_of_eq (congrArg (· = []) hmessages))
  · change load q.messages + others = load (OperationQueue.settle _ _ _).messages + others
    rw [messages_settle]
    exact congrArg (load · + others) hmessages.symm

theorem Sound.finish (hothers : 0 ≤ others) (late : Bool) :
    (q.finish (load q.messages + others) late).Keeps issued log others := by
  unfold OperationQueue.finish
  split
  · exact h.unchanged false
  · rename_i hopen
    cases late with
    | true =>
      refine h.clearMessages hothers ?_ ?_ (exits_settle _)
      · rfl
      · rfl
    | false =>
      refine h.settle hopen ?_ ?_ ?_ _
      · rfl
      · rfl
      · rfl

theorem Sound.endInput (reason : Option Reason) :
    (q.endInput (load q.messages + others) reason).Keeps issued log others := by
  unfold OperationQueue.endInput
  split
  · exact h.unchanged false
  · rename_i hopen
    refine h.settle hopen ?_ ?_ ?_ _
    · rfl
    · rfl
    · rfl

theorem Sound.close (hothers : 0 ≤ others) :
    (q.close (load q.messages + others)).Keeps issued log others := by
  unfold OperationQueue.close
  split
  · rename_i hclosed
    rw [clearMessages_eq hothers]
    refine ⟨?_, ?_⟩
    · dsimp only
      rw [List.append_nil]
      apply h.cleared
      · exact (closed_settleConsumer _).trans hclosed
      · exact messages_settleConsumer _
      · exact (readers_settleConsumer _).trans (h.no_readers hclosed)
      · exact consumerSettled_settleConsumer _
    · change others = load (settleConsumer _).messages + others
      rw [messages_settleConsumer, load_nil, zero_add]
  · exact h.finish hothers true

theorem Sound.abort (reader : Nat) :
    (q.abort (load q.messages + others) reader).Keeps issued log others := by
  unfold OperationQueue.abort
  split
  · exact ⟨(h.lessReaders List.erase_sublist).quiet (quiet_rejected [reader]), rfl⟩
  · exact h.unchanged false

theorem Sound.issue : q.Sound (issued + 1) log :=
  { h with known := fun reader hreader => Nat.lt_succ_of_lt (h.known reader hreader) }

/-- The next reader is none of the others. -/
theorem Sound.fresh : ((resolvedIn log).map Prod.fst ++ q.readers ++ [issued]).Nodup ∧
      ∀ reader ∈ (resolvedIn log).map Prod.fst ++ q.readers ++ [issued], reader < issued + 1 := by
  constructor
  · refine h.distinct.append (List.nodup_singleton issued) ?_
    intro reader hold hnew
    rw [List.mem_singleton.mp hnew] at hold
    exact Nat.lt_irrefl issued (h.known issued hold)
  · intro reader hreader
    obtain hold | hnew := List.mem_append.mp hreader
    · exact Nat.lt_succ_of_lt (h.known reader hold)
    · rw [List.mem_singleton.mp hnew]
      exact Nat.lt_succ_self issued

/-- A new reader takes the first message. -/
theorem Sound.read {messages : List SessionMessage}
    (hmessages : q.messages = m :: messages) {q' : OperationQueue}
    (hrest : q'.messages = messages) (hreaders : q'.readers = q.readers)
    (hclosed : q'.closed = q.closed)
    (hsettled : q'.consumerSettled = true ↔ q.closed = true ∧ messages = []) :
    q'.Sound (issued + 1) (log ++ [.released m, .resolved issued m]) := by
  have hnone : q.readers = [] := h.exclusive.resolve_left (by rw [hmessages]; nofun)
  have hresolved : resolvedIn (log ++ [.released m, .resolved issued m]) =
      resolvedIn log ++ [(issued, m)] := by
    rw [resolvedIn_append]
    rfl
  have hadmitted : admittedIn (log ++ [.released m, .resolved issued m]) = admittedIn log := by
    rw [admittedIn_append]
    exact List.append_nil _
  have hdelivered : (resolvedIn (log ++ [.released m, .resolved issued m])).map Prod.snd ++
      q'.messages = (resolvedIn log).map Prod.snd ++ q.messages := by
    rw [hresolved, hrest, hmessages, List.map_append, List.append_assoc]
    rfl
  have hids : (resolvedIn (log ++ [.released m, .resolved issued m])).map Prod.fst ++ q'.readers =
      ((resolvedIn log).map Prod.fst ++ q.readers) ++ [issued] := by
    rw [hresolved, hreaders, hnone, List.map_append, List.append_nil, List.append_nil]
    rfl
  constructor
  case exclusive => exact .inr (hreaders.trans hnone)
  case no_readers => exact fun _ => hreaders.trans hnone
  case settled => rw [hsettled, hclosed, hrest]
  case delivered =>
    rw [hdelivered, hadmitted]
    exact h.delivered
  case complete =>
    rw [hdelivered, hadmitted, hclosed]
    exact h.complete
  case charges =>
    rw [chargedIn_append, releasedIn_append, hrest, h.charges, hmessages]
    change (releasedIn log ++ m :: messages) ++ [] = (releasedIn log ++ [m]) ++ messages
    rw [List.append_nil, List.append_assoc]
    rfl
  case distinct => exact hids ▸ h.fresh.1
  case known => exact hids ▸ h.fresh.2

/-- A new reader waits. -/
theorem Sound.wait (hempty : q.messages = []) (hopen : q.closed = false) :
    { q with readers := q.readers ++ [issued] }.Sound (issued + 1) log := by
  refine { h with exclusive := .inl hempty, no_readers := ?_, distinct := ?_, known := ?_ }
  · intro hclosed
    cases hopen.symm.trans hclosed
  · rw [← List.append_assoc]
    exact h.fresh.1
  · rw [← List.append_assoc]
    exact h.fresh.2

theorem Sound.next (hothers : 0 ≤ others) :
    (q.next (load q.messages + others) issued).Keeps (issued + 1) log others := by
  unfold OperationQueue.next
  cases hmessages : q.messages with
  | nil =>
    dsimp only
    split
    · exact ⟨h.issue.quiet (quiet_rejected [issued]), by rw [hmessages]⟩
    · rename_i hended
      have hopen : q.closed = false := Bool.eq_false_iff.mpr fun hclosed => hended (.inl hclosed)
      refine ⟨?_, rfl⟩
      rw [List.append_nil]
      exact (h.wait hmessages hopen).congr hmessages.symm rfl rfl rfl
  | cons m messages =>
    have hrest : 0 ≤ load messages + others := add_nonneg (load_nonneg messages) hothers
    have hunsettled : ¬q.consumerSettled = true := by
      rw [h.settled, hmessages]
      nofun
    dsimp only
    rw [load_cons, add_assoc, release_cost_add hrest, if_neg nofun]
    by_cases hlast : q.closed = true ∧ messages = []
    · rw [if_pos hlast]
      refine ⟨h.read hmessages ?_ ?_ ?_ ?_, ?_⟩
      · exact messages_settleConsumer _
      · exact readers_settleConsumer _
      · exact closed_settleConsumer _
      · exact ⟨fun _ => hlast, fun _ => consumerSettled_settleConsumer _⟩
      · dsimp only
        rw [messages_settleConsumer]
    · rw [if_neg hlast]
      refine ⟨h.read hmessages rfl rfl rfl ?_, rfl⟩
      exact ⟨fun hsettled => absurd hsettled hunsettled, fun hclosed => absurd hclosed hlast⟩

/-- The first reader that waits gets an admitted message. -/
theorem Sound.handOver {reader : Nat} (hreaders : q.readers = reader :: readers) :
    { q with readers }.Sound issued (log ++ [Effect.admitted m, .resolved reader m]) := by
  have hempty : q.messages = [] := h.exclusive.resolve_right (by rw [hreaders]; nofun)
  have hopen : q.closed = false := by
    refine Bool.eq_false_iff.mpr fun hclosed => ?_
    rw [h.no_readers hclosed] at hreaders
    cases hreaders
  have hids : (resolvedIn (log ++ [.admitted m, .resolved reader m])).map Prod.fst ++ readers =
      (resolvedIn log).map Prod.fst ++ q.readers := by
    rw [resolvedIn_append, hreaders, List.map_append, List.append_assoc]
    rfl
  have hcomplete : (resolvedIn (log ++ [.admitted m, .resolved reader m])).map Prod.snd ++
      q.messages = admittedIn (log ++ [.admitted m, .resolved reader m]) := by
    have hbefore := h.complete hopen
    rw [hempty, List.append_nil] at hbefore
    rw [resolvedIn_append, admittedIn_append, List.map_append, hempty, ← hbefore, List.append_nil]
    rfl
  constructor
  case exclusive => exact .inl hempty
  case no_readers =>
    intro hclosed
    cases hopen.symm.trans hclosed
  case settled => exact h.settled
  case delivered => exact hcomplete ▸ List.prefix_refl _
  case complete => exact fun _ => hcomplete
  case charges =>
    rw [chargedIn_append, releasedIn_append]
    change chargedIn log ++ [] = releasedIn log ++ [] ++ q.messages
    rw [List.append_nil, List.append_nil]
    exact h.charges
  case distinct => exact hids ▸ h.distinct
  case known => exact hids ▸ h.known

/-- An admitted message is queued when no reader waits. -/
theorem Sound.enqueue (hreaders : q.readers = []) (hopen : q.closed = false) :
    { q with messages := q.messages ++ [m] }.Sound issued
      (log ++ [Effect.charged m, .admitted m]) := by
  have hresolved : resolvedIn (log ++ [.charged m, .admitted m]) = resolvedIn log := by
    rw [resolvedIn_append]
    exact List.append_nil _
  have hcomplete : (resolvedIn (log ++ [.charged m, .admitted m])).map Prod.snd ++
      (q.messages ++ [m]) = admittedIn (log ++ [.charged m, .admitted m]) := by
    rw [hresolved, admittedIn_append, ← h.complete hopen, List.append_assoc]
    rfl
  constructor
  case exclusive => exact .inr hreaders
  case no_readers => exact fun _ => hreaders
  case settled =>
    rw [h.settled]
    dsimp only
    rw [hopen]
    exact ⟨fun h => absurd h.1 nofun, fun h => absurd h.1 nofun⟩
  case delivered => exact hcomplete ▸ List.prefix_refl _
  case complete => exact fun _ => hcomplete
  case charges =>
    rw [chargedIn_append, releasedIn_append, h.charges]
    change releasedIn log ++ q.messages ++ [m] = releasedIn log ++ [] ++ (q.messages ++ [m])
    rw [List.append_nil, List.append_assoc]
  case distinct => exact hresolved ▸ h.distinct
  case known => exact hresolved ▸ h.known

theorem Sound.finishIf (hothers : 0 ≤ others) (final : Bool) :
    (if final then q.finish (load q.messages + others) false
      else ⟨q, load q.messages + others, [], false⟩ : Call).Keeps issued log others := by
  cases final with
  | true => exact h.finish hothers false
  | false => exact h.unchanged false

theorem Sound.deliver (hothers : 0 ≤ others) (hopen : q.closed = false)
    (m : SessionMessage) (final : Bool) :
    (q.deliver (load q.messages + others) m final).Keeps issued log others := by
  unfold OperationQueue.deliver
  split
  · rename_i reader readers hreaders
    exact ((h.handOver hreaders).finishIf hothers final).after
  · rename_i hreaders
    split
    · exact h.unchanged true
    · split
      · exact h.unchanged true
      · rename_i a hcharge
        rw [charge_eq_some hcharge, ← load_concat]
        exact ((h.enqueue hreaders hopen).finishIf hothers final).after

end

end OperationQueue

end Windshare.WebOperation
