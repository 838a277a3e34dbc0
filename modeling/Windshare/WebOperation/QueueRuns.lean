import Windshare.Library.Transition
import Windshare.WebOperation.QueueCalls

/-!
# The operation queues of a session

The router opens queues, routes messages to them and ends them all when the session ends. Their
consumers read, abort, cancel and close at any time, and pushes go on between any two of these.
-/

namespace Windshare.WebOperation

open Windshare.Library Windshare.Protocol Windshare.Session Windshare.Operation

/-- A queue, the number of readers that called it, and the effects of its calls. -/
structure QueueRecord where
  queue : OperationQueue
  issued : Nat
  log : List Effect

/-- The operation queues of one session. -/
structure QueueSession where
  admission : SessionQueueAdmission
  records : List QueueRecord
  terminal : Bool

/-- Calls on the queue at a position. A reason is `none` when it is `undefined`. -/
inductive QueueEvent where
  | create
  | route (i : Nat) (m : SessionMessage)
  | startPush (i : Nat)
  | answer (i : Nat) (answer : Answer)
  | next (i : Nat) (aborted : Bool)
  | abort (i : Nat) (reader : Nat)
  | endInput (i : Nat) (reason : Option Reason)
  | fail (i : Nat) (reason : Option Reason)
  | cancel (i : Nat) (cause : Option Reason)
  | close (i : Nat)
  | terminate (reason : Option Reason)

namespace QueueRecord

variable (r : QueueRecord)

def new : QueueRecord := ⟨.new, 0, []⟩

def after (c : Call) : QueueRecord := { r with queue := c.queue, log := r.log ++ c.effects }

end QueueRecord

namespace QueueSession

variable (s : QueueSession)

def start : QueueSession := ⟨0, [], false⟩

/-- A call on the queue at a position; whether it threw. -/
def call (i : Nat) (f : OperationQueue → SessionQueueAdmission → Call) : QueueSession × Bool :=
  match s.records[i]? with
  | none => (s, false)
  | some r =>
    let c := f r.queue s.admission
    ({ s with admission := c.admission, records := s.records.set i (r.after c) }, c.thrown)

/-- A change of a queue that no counter and no promise sees. -/
def change (i : Nat) (f : OperationQueue → OperationQueue) : QueueSession :=
  (s.call i fun q a => ⟨f q, a, [], false⟩).1

/-- The operations of one set of the router fail in turn, until one throws. -/
def failAll (place : Place) (reason : Option Reason) :
    List Nat → QueueSession → QueueSession × Bool
  | [], s => (s, false)
  | i :: is, s =>
    match s.records[i]? with
    | none => failAll place reason is s
    | some r =>
      if r.queue.place = place then
        let failed := s.call i fun q a => q.fail a reason
        if failed.2 then failed else failAll place reason is failed.1
      else failAll place reason is s

/-- The router forgets every operation. -/
def clear : QueueSession :=
  { s with records := s.records.map fun r =>
    { r with queue := { r.queue with place := .released } } }

def terminate (reason : Option Reason) : QueueSession :=
  if s.terminal then s
  else
    let positions := List.range s.records.length
    let active := failAll .operations reason positions { s with terminal := true }
    if active.2 then active.1
    else
      let draining := failAll .draining reason positions active.1
      if draining.2 then draining.1 else draining.1.clear

/-- `route`, where the identity of the message names the queue at `i`. -/
def route (i : Nat) (m : SessionMessage) : QueueSession :=
  if s.terminal then s
  else if m.message.kind = .sessionTerminal then s.terminate (some ⟨true⟩)
  else if m.message.kind.isSessionControl then s
  else s.change i fun q => if q.place = .operations then q.push m else q

variable (package : PackageDecoder) (nfc : String → Bool)

/-- The push in progress at `i` gets the answer of the authority. -/
def answer (i : Nat) (answer : Answer) : QueueSession :=
  match (s.records[i]?).bind fun r => r.queue.pushing.map fun p => (r.queue, p) with
  | none => s
  | some (_, .acceptLate, _) => s.change i OperationQueue.endPush
  | some (q, .reserve, m) =>
    match answer with
    | .drop => s.change i OperationQueue.endPush
    | .violation => s.change i OperationQueue.endPush
    | .deliver final =>
      if q.Ended then s.change i fun q => { q with pushing := some (.acceptLate, m) }
      else
        match onAuthenticatedMessage package nfc m.message with
        | .throws => s.change i OperationQueue.endPush
        | .terminates => (s.terminate (some ⟨true⟩)).change i OperationQueue.endPush
        | .passes => (s.call i fun q a => q.endPush.deliver a m final).1

/-- `next` of the queue at `i`, by a new reader. A signal that is already aborted throws. -/
def read (i : Nat) (aborted : Bool) : QueueSession :=
  match s.records[i]? with
  | none => s
  | some r =>
    if aborted then s
    else
      let c := r.queue.next s.admission r.issued
      { s with
        admission := c.admission
        records := s.records.set i { r.after c with issued := r.issued + 1 } }

def step : QueueEvent → QueueSession
  | .create => if s.terminal then s else { s with records := s.records ++ [.new] }
  | .route i m => s.route i m
  | .startPush i => s.change i OperationQueue.startPush
  | .answer i answer => s.answer package nfc i answer
  | .next i aborted => s.read i aborted
  | .abort i reader => (s.call i fun q a => q.abort a reader).1
  | .endInput i reason => (s.call i fun q a => q.endInput a reason).1
  | .fail i reason => (s.call i fun q a => q.fail a reason).1
  | .cancel i cause => (s.call i fun q a => q.cancel a cause).1
  | .close i => (s.call i fun q a => q.close a).1
  | .terminate reason => s.terminate reason

/-- Every sequence of calls on the queues of a session. -/
def system : System QueueSession QueueEvent := .ofFunction (· = start) (step · package nfc)

end QueueSession

/-! ### The invariant -/

/-- What all queues keep. -/
def totalLoad (records : List QueueRecord) : SessionQueueAdmission :=
  (records.map fun r => load r.queue.messages).sum

structure QueueSession.Sound (s : QueueSession) : Prop where
  records : ∀ r ∈ s.records, r.queue.Sound r.issued r.log
  admission : s.admission = totalLoad s.records

theorem totalLoad_nonneg (records : List QueueRecord) : 0 ≤ totalLoad records := by
  induction records with
  | nil => exact le_refl 0
  | cons r records ih =>
    have hcons : totalLoad (r :: records) = load r.queue.messages + totalLoad records :=
      List.sum_cons
    rw [hcons]
    exact add_nonneg (load_nonneg _) ih

theorem totalLoad_middle (before after : List QueueRecord) (r : QueueRecord) :
    totalLoad (before ++ r :: after) =
      load r.queue.messages + (totalLoad before + totalLoad after) := by
  unfold totalLoad
  rw [List.map_append, List.sum_append, List.map_cons, List.sum_cons]
  abel

namespace QueueSession.Sound

variable {s : QueueSession}

theorem start : QueueSession.start.Sound :=
  ⟨fun _ h => absurd h List.not_mem_nil, rfl⟩

section

variable (h : s.Sound)

include h

/-- The rule for one queue: what keeps it, next to the counts of the others, keeps the session. -/
theorem set {i : Nat} {r r' : QueueRecord} {a : SessionQueueAdmission}
    (hr : s.records[i]? = some r)
    (hkeeps : ∀ others, 0 ≤ others → s.admission = load r.queue.messages + others →
      r'.queue.Sound r'.issued r'.log ∧ a = load r'.queue.messages + others) :
    ({ s with admission := a, records := s.records.set i r' } : QueueSession).Sound := by
  have hsplit : ∃ before after, s.records = before ++ r :: after ∧
      s.records.set i r' = before ++ r' :: after := by
    obtain ⟨hi, hget⟩ := List.getElem?_eq_some_iff.mp hr
    obtain ⟨before, after, hrecords, -, hset⟩ := List.exists_of_set hi
    exact ⟨before, after, hget ▸ hrecords, hset⟩
  obtain ⟨before, after, hrecords, hset⟩ := hsplit
  have htotal := h.admission
  rw [hrecords, totalLoad_middle] at htotal
  obtain ⟨hsound, ha⟩ := hkeeps _
    (add_nonneg (totalLoad_nonneg before) (totalLoad_nonneg after)) htotal
  have hold := h.records
  rw [hrecords] at hold
  constructor
  · intro r hr
    rw [hset] at hr
    obtain hr | hr := List.mem_append.mp hr
    · exact hold r (List.mem_append_left _ hr)
    · obtain rfl | hr := List.mem_cons.mp hr
      · exact hsound
      · exact hold r (List.mem_append_right _ (List.mem_cons_of_mem _ hr))
  · rw [hset, totalLoad_middle]
    exact ha

theorem call (i : Nat) {f : OperationQueue → SessionQueueAdmission → Call}
    (hf : ∀ r others, s.records[i]? = some r → r.queue.Sound r.issued r.log → 0 ≤ others →
      (f r.queue (load r.queue.messages + others)).Keeps r.issued r.log others) :
    (s.call i f).1.Sound := by
  unfold QueueSession.call
  split
  · exact h
  · rename_i r hr
    refine h.set hr ?_
    intro others hothers hadmission
    have hkeeps := hf r others hr (h.records r (List.mem_of_getElem? hr)) hothers
    rw [hadmission]
    exact ⟨hkeeps.sound, hkeeps.admission⟩

theorem change (i : Nat) {f : OperationQueue → OperationQueue}
    (hmessages : ∀ q, (f q).messages = q.messages) (hreaders : ∀ q, (f q).readers = q.readers)
    (hclosed : ∀ q, (f q).closed = q.closed)
    (hsettled : ∀ q, (f q).consumerSettled = q.consumerSettled) : (s.change i f).Sound := by
  refine h.call i fun r others _ hr _ => ⟨?_, ?_⟩
  · rw [List.append_nil]
    exact hr.congr (hmessages _) (hreaders _) (hclosed _) (hsettled _)
  · dsimp only
    rw [hmessages]

theorem fail (i : Nat) (reason : Option Reason) : (s.call i fun q a => q.fail a reason).1.Sound :=
  h.call i fun _ _ _ hr hothers => hr.fail hothers reason

theorem failAll (place : Place) (reason : Option Reason) (positions : List Nat) :
    (QueueSession.failAll place reason positions s).1.Sound := by
  induction positions generalizing s with
  | nil => exact h
  | cons i positions ih =>
    unfold QueueSession.failAll
    split
    · exact ih h
    · split
      · dsimp only
        split
        · exact h.fail i reason
        · exact ih (h.fail i reason)
      · exact ih h

theorem clear : s.clear.Sound := by
  constructor
  · intro r' hr'
    obtain ⟨r, hr, rfl⟩ := List.mem_map.mp hr'
    exact (h.records r hr).congr rfl rfl rfl rfl
  · unfold QueueSession.clear totalLoad
    rw [List.map_map]
    exact h.admission

theorem terminate (reason : Option Reason) : (s.terminate reason).Sound := by
  have hterminal : ({ s with terminal := true } : QueueSession).Sound := ⟨h.records, h.admission⟩
  have hactive := hterminal.failAll .operations reason (List.range s.records.length)
  dsimp only [QueueSession.terminate]
  split
  · exact h
  split
  · exact hactive
  split
  · exact hactive.failAll .draining reason _
  · exact (hactive.failAll .draining reason _).clear

theorem route (i : Nat) (m : SessionMessage) : (s.route i m).Sound := by
  unfold QueueSession.route
  split
  · exact h
  split
  · exact h.terminate _
  split
  · exact h
  · apply h.change i
    all_goals
      intro q
      split <;> rfl

theorem startPush (i : Nat) : (s.change i OperationQueue.startPush).Sound := by
  apply h.change i
  all_goals
    intro q
    unfold OperationQueue.startPush
    split <;> rfl

theorem endPush (i : Nat) : (s.change i OperationQueue.endPush).Sound := by
  apply h.change i
  all_goals
    intro q
    rfl

theorem deliver {i : Nat} {r : QueueRecord} (hr : s.records[i]? = some r)
    (hended : ¬r.queue.Ended) (m : SessionMessage) (final : Bool) :
    (s.call i fun q a => q.endPush.deliver a m final).1.Sound := by
  have hopen : r.queue.closed = false :=
    Bool.eq_false_iff.mpr fun hclosed => hended (.inl hclosed)
  refine h.call i ?_
  intro r' others hr' hsound hothers
  cases hr.symm.trans hr'
  have hpushed : r.queue.endPush.Sound r.issued r.log := hsound.congr rfl rfl rfl rfl
  exact hpushed.deliver hothers hopen m final

theorem answer (package : PackageDecoder) (nfc : String → Bool) (i : Nat)
    (answer : Answer) : (s.answer package nfc i answer).Sound := by
  unfold QueueSession.answer
  split
  · exact h
  · exact h.endPush i
  · rename_i q m hpushing
    obtain ⟨r, hr, hp⟩ := Option.bind_eq_some_iff.mp hpushing
    obtain ⟨p, -, hq⟩ := Option.map_eq_some_iff.mp hp
    obtain rfl : r.queue = q := congrArg Prod.fst hq
    split
    · exact h.endPush i
    · exact h.endPush i
    split
    · apply h.change i
      all_goals
        intro q
        rfl
    · rename_i hended
      split
      · exact h.endPush i
      · exact (h.terminate _).endPush i
      · exact h.deliver hr hended m _

theorem read (i : Nat) (aborted : Bool) : (s.read i aborted).Sound := by
  unfold QueueSession.read
  split
  · exact h
  split
  · exact h
  · rename_i r hr _
    refine h.set hr ?_
    intro others hothers hadmission
    have hkeeps := (h.records r (List.mem_of_getElem? hr)).next hothers
    dsimp only
    rw [hadmission]
    exact ⟨hkeeps.sound, hkeeps.admission⟩

theorem create : ({ s with records := s.records ++ [.new] } : QueueSession).Sound := by
  constructor
  · intro r hr
    obtain hr | hr := List.mem_append.mp hr
    · exact h.records r hr
    · rw [List.mem_singleton.mp hr]
      exact OperationQueue.Sound.new
  · rw [totalLoad_middle]
    exact h.admission.trans (by simp [totalLoad, QueueRecord.new, OperationQueue.new])

theorem step (package : PackageDecoder) (nfc : String → Bool) (e : QueueEvent) :
    (s.step package nfc e).Sound := by
  cases e with
  | create =>
    change (if s.terminal then s else _ : QueueSession).Sound
    split
    · exact h
    · exact h.create
  | route i m => exact h.route i m
  | startPush i => exact h.startPush i
  | answer i answer => exact h.answer package nfc i answer
  | next i aborted => exact h.read i aborted
  | abort i reader => exact h.call i fun _ _ _ hr _ => hr.abort reader
  | endInput i reason => exact h.call i fun _ _ _ hr _ => hr.endInput reason
  | fail i reason => exact h.fail i reason
  | cancel i cause => exact h.call i fun _ _ _ hr hothers => hr.cancel hothers cause
  | close i => exact h.call i fun _ _ _ hr hothers => hr.close hothers
  | terminate reason => exact h.terminate reason

end

theorem reachable {package : PackageDecoder} {nfc : String → Bool}
    (hreach : (QueueSession.system package nfc).Reachable s) : s.Sound := by
  refine hreach.invariant ?_ ?_
  · rintro _ rfl
    exact start
  · rintro s e _ hs rfl
    exact hs.step package nfc e

end QueueSession.Sound

/-! ### Every run -/

def QueueSession.queued (s : QueueSession) : List SessionMessage :=
  s.records.flatMap fun r => r.queue.messages

theorem totalLoad_eq_load (records : List QueueRecord) :
    totalLoad records = load (records.flatMap fun r => r.queue.messages) := by
  induction records with
  | nil => rfl
  | cons r records ih =>
    rw [List.flatMap_cons, load_append, ← ih]
    exact List.sum_cons

/-- The counters are those of the queued messages. -/
structure Counts (a : SessionQueueAdmission) (queued : List SessionMessage) : Prop where
  control : a .control = (queued.countP fun m => !m.data : Nat)
  data : a .data = (queued.countP fun m => m.data : Nat)
  plaintextBytes : a .plaintextBytes = ((queued.map fun m => m.plaintext.length).sum : Nat)

theorem counts_load (queued : List SessionMessage) : Counts (load queued) queued :=
  ⟨load_control queued, load_data queued, load_plaintextBytes queued⟩

/-- In every sequence of calls the counters are those of the queued messages, and for each queue:
readers do not wait while messages are queued; what readers got, each once, and what is queued
are the first admitted messages in order; and charges were returned once for all messages but
the queued ones, of which a finished queue has none. -/
theorem operation_queues (package : PackageDecoder) (nfc : String → Bool) {s : QueueSession}
    (hreach : (QueueSession.system package nfc).Reachable s) :
    Counts s.admission s.queued ∧
    ∀ r ∈ s.records,
      (r.queue.readers = [] ∨ r.queue.messages = []) ∧
      (resolvedIn r.log).map Prod.snd ++ r.queue.messages <+: admittedIn r.log ∧
      ((resolvedIn r.log).map Prod.fst).Nodup ∧
      chargedIn r.log = releasedIn r.log ++ r.queue.messages ∧
      (r.queue.consumerSettled = true ↔ r.queue.closed = true ∧ r.queue.messages = []) ∧
      (r.queue.consumerSettled = true → chargedIn r.log = releasedIn r.log) := by
  have hs := QueueSession.Sound.reachable hreach
  constructor
  · rw [hs.admission, totalLoad_eq_load]
    exact counts_load _
  · intro r hr
    have hsound := hs.records r hr
    refine ⟨hsound.exclusive.symm, hsound.delivered, hsound.distinct.of_append_left,
      hsound.charges, hsound.settled, ?_⟩
    intro hsettled
    rw [hsound.charges, (hsound.settled.mp hsettled).2, List.append_nil]

/-! ### A download that is closed early -/

namespace ClosedDownload

def operationID : OperationID := .filled 7

def fragment : SessionMessage := ⟨⟨.blockFragment, some operationID, [1, 2], rfl⟩, [1, 2], true⟩

def complete : SessionMessage := ⟨⟨.operationComplete, some operationID, [3], rfl⟩, [9, 3], false⟩

/-- A fragment and the final message are queued, one of them is read, and the queue is closed. -/
def events : List QueueEvent :=
  [.create, .route 0 fragment, .startPush 0, .answer 0 (.deliver false), .route 0 complete,
    .startPush 0, .answer 0 (.deliver true), .next 0 false, .close 0]

noncomputable def closed : QueueSession :=
  events.foldl (fun s e => s.step default (fun _ => true) e) .start

end ClosedDownload

open ClosedDownload in
/-- The final message was charged and not read; closing the queue returns its charge. -/
theorem operation_queues_closed : Counts closed.admission [] ∧
    ∃ r ∈ closed.records, (resolvedIn r.log) = [(0, fragment)] ∧
      admittedIn r.log = [fragment, complete] ∧
      chargedIn r.log = releasedIn r.log ∧ releasedIn r.log = [fragment, complete] := by
  have hreach : (QueueSession.system default (fun _ => true)).Reachable closed :=
    System.reachable_foldl (· = QueueSession.start)
      (fun s e => s.step default (fun _ => true) e) rfl events
  obtain ⟨hcounts, hrecords⟩ := operation_queues default (fun _ => true) hreach
  refine ⟨hcounts, closed.records.head (by decide +kernel), List.head_mem _, ?_⟩
  obtain ⟨-, -, -, -, -, hreturned⟩ := hrecords _ (List.head_mem (by decide +kernel))
  exact ⟨rfl, rfl, hreturned rfl, rfl⟩

end Windshare.WebOperation
