import Windshare.Receiver.Twins

/-!
# Runs of both ledgers

The same calls on a Go ledger and on a web ledger. A session or receipt is named by its number
among those the ledgers issued; a number that was not issued stands for a token of another
ledger. The caller of the Go ledger keeps the receipts, which are values.
-/

namespace Windshare.Receiver

open Windshare.Library

/-- The calls of both ledgers, with arguments that both can be given. -/
inductive CommonCall where
  | openSession (id : SessionId)
  | receive (session : Ref) (encodedBytes : UInt64)
  | complete (receipt : Ref) (action : WebLedger.Completion)
  | retire (session : Ref)
  | notice (session : Ref) (notice : GoTotals)
  | takeConsumed
  | takeSettlement (session : Ref)
  | forget (session : Ref)
  | close

/-- What a call answers. -/
inductive LedgerAnswer where
  | failed (failure : ReceiveFailure)
  | opened (session : Ref)
  | received (receipt : Ref)
  | done
  | control (totals : Option Totals)
deriving DecidableEq, Repr

namespace LedgerAnswer

def ofOpen : Except ReceiveFailure Ref → LedgerAnswer
  | .error e => .failed e
  | .ok session => .opened session

def ofUnit : Except ReceiveFailure Unit → LedgerAnswer
  | .error e => .failed e
  | .ok () => .done

end LedgerAnswer

/-- What `Usage` and `usage` report. -/
structure Usage where
  held : ReceiveCounts
  outstanding : ReceiveCounts
  pendingConsumed : ReceiveCounts
  retainedSessions : Nat
deriving DecidableEq, Repr

namespace WebLedger

def usage (l : WebLedger) : Usage := ⟨l.held, l.outstanding, l.pendingConsumed, l.sessions.size⟩

def call (l : WebLedger) : CommonCall → WebLedger × LedgerAnswer
  | .openSession id => ((l.openSession id.val).1, .ofOpen (l.openSession id.val).2)
  | .receive session encodedBytes =>
    ((l.receive session encodedBytes.toNat).1,
      match (l.receive session encodedBytes.toNat).2 with
      | .error e => .failed e
      | .ok receipt => .received receipt)
  | .complete receipt action =>
    ((l.complete receipt action).1, .ofUnit (l.complete receipt action).2)
  | .retire session => ((l.retire session).1, .ofUnit (l.retire session).2)
  | .notice session notice =>
    ((l.notice session notice.toWeb).1, .ofUnit (l.notice session notice.toWeb).2)
  | .takeConsumed => (l.takeConsumed.1, .control l.takeConsumed.2)
  | .takeSettlement session => ((l.takeSettlement session).1, .control (l.takeSettlement session).2)
  | .forget session => ((l.forget session).1, .ofUnit (l.forget session).2)
  | .close => (l.close, .done)

end WebLedger

/-- A Go ledger and the receipts it issued. -/
structure GoHost where
  ledger : GoLedger
  issued : Heap GoReceipt

namespace GoHost

variable (host : GoHost)

def usage : Usage :=
  ⟨host.ledger.held.toWeb, host.ledger.outstanding.toWeb, host.ledger.pendingConsumed.toWeb,
    host.ledger.retainedSessions⟩

/-- The receipt of a number. One that was not issued belongs to no flow of the ledger. -/
def receipt (n : Ref) : GoReceipt :=
  if n < host.issued.size then host.issued.get n else ⟨host.ledger.flows.size, .zero, .zero⟩

def call : CommonCall → GoHost × LedgerAnswer
  | .openSession id =>
    (⟨(host.ledger.openSession id).1, host.issued⟩, .ofOpen (host.ledger.openSession id).2)
  | .receive session encodedBytes =>
    match host.ledger.receive session encodedBytes with
    | (ledger, .error e) => (⟨ledger, host.issued⟩, .failed e)
    | (ledger, .ok receipt) => (⟨ledger, host.issued.alloc receipt⟩, .received host.issued.size)
  | .complete receipt action =>
    (⟨(host.ledger.complete (host.receipt receipt) action).1, host.issued⟩,
      .ofUnit (host.ledger.complete (host.receipt receipt) action).2)
  | .retire session =>
    (⟨(host.ledger.retire session).1, host.issued⟩, .ofUnit (host.ledger.retire session).2)
  | .notice session notice =>
    (⟨(host.ledger.notice session notice).1, host.issued⟩,
      .ofUnit (host.ledger.notice session notice).2)
  | .takeConsumed =>
    (⟨host.ledger.takeConsumed.1, host.issued⟩,
      .control (host.ledger.takeConsumed.2.map GoTotals.toWeb))
  | .takeSettlement session =>
    (⟨(host.ledger.takeSettlement session).1, host.issued⟩,
      .control ((host.ledger.takeSettlement session).2.map GoTotals.toWeb))
  | .forget session =>
    (⟨(host.ledger.forget session).1, host.issued⟩, .ofUnit (host.ledger.forget session).2)
  | .close => (⟨host.ledger.close, host.issued⟩, .done)

end GoHost

/-- One ledger of each kind. -/
structure Twins where
  go : GoHost
  web : WebLedger

namespace Twins

variable {twins : Twins}

def perform (twins : Twins) (call : CommonCall) : Twins :=
  ⟨(twins.go.call call).1, (twins.web.call call).1⟩

/-- Both constructors accept the configuration. -/
def Starts (capacity : GoCounts) (maxSessions : Nat) (twins : Twins) : Prop :=
  GoLedger.new capacity maxSessions = .ok twins.go.ledger ∧ twins.go.issued.size = 0 ∧
  WebLedger.new capacity.toWeb maxSessions = .ok twins.web

/-- Any calls on two new ledgers. -/
def runs (capacity : GoCounts) (maxSessions : Nat) : System Twins CommonCall :=
  .ofFunction (Starts capacity maxSessions) perform

def Issued (twins : Twins) : CommonCall → Prop
  | .complete receipt _ => receipt < twins.web.receipts.size
  | _ => True

/-- The ledgers agree and issued the same receipts. -/
structure Alike (twins : Twins) : Prop where
  agrees : Agrees twins.go.ledger twins.web
  sound : twins.web.Sound
  size : twins.go.issued.size = twins.web.receipts.size
  issued : ∀ n < twins.web.receipts.size, twins.web.receipts.get n = (twins.go.issued.get n).toWeb

variable {maxSessions : Nat} {capacity : GoCounts}

theorem alike_of_starts (h : Starts capacity maxSessions twins) : twins.Alike := by
  obtain ⟨hgo, hissued, hweb⟩ := h
  obtain ⟨hvalid, hweb⟩ := WebLedger.new_ok hweb
  have hgo : twins.go.ledger = .empty capacity maxSessions := by
    unfold GoLedger.new at hgo
    split at hgo
    · cases hgo
    · exact (Except.ok.inj hgo).symm
  refine ⟨?_, hweb ▸ WebLedger.sound_empty hvalid, by rw [hissued, hweb]; rfl, ?_⟩
  · rw [hgo, hweb]
    refine ⟨rfl, rfl, rfl, fun _ => rfl, fun _ => ⟨fun _ => rfl, nofun⟩, rfl, fun id r => ?_, rfl,
      rfl, rfl, rfl, rfl, rfl, rfl⟩
    exact ⟨nofun, fun hr => absurd hr.1 List.not_mem_nil⟩
  · intro n hn
    rw [hweb] at hn
    exact absurd hn (Nat.not_lt_zero n)

theorem receipts_call {l : WebLedger} {call : CommonCall}
    (hcall : ∀ session encodedBytes, call ≠ .receive session encodedBytes) :
    (l.call call).1.receipts = l.receipts := by
  cases call with
  | openSession id =>
    change (l.openSession id.val).1.receipts = _
    unfold WebLedger.openSession
    repeat' split
    all_goals rfl
  | receive session encodedBytes => exact absurd rfl (hcall session encodedBytes)
  | complete receipt action =>
    change (l.complete receipt action).1.receipts = _
    unfold WebLedger.complete WebLedger.completeFlow
    repeat' split
    all_goals cases action <;> rfl
  | retire session =>
    change (l.retire session).1.receipts = _
    unfold WebLedger.retire
    repeat' split
    all_goals rfl
  | notice session notice =>
    change (l.notice session notice.toWeb).1.receipts = _
    unfold WebLedger.notice
    repeat' split
    all_goals rfl
  | takeConsumed =>
    change l.takeFlow.1.receipts = _
    unfold WebLedger.takeFlow
    repeat' split
    all_goals rfl
  | takeSettlement session =>
    change (l.takeSettlement session).1.receipts = _
    unfold WebLedger.takeSettlement WebLedger.acknowledge
    repeat' split
    all_goals rfl
  | forget session =>
    change (l.forget session).1.receipts = _
    unfold WebLedger.forget
    repeat' split
    all_goals rfl
  | close => rfl

theorem Alike.receive (h : twins.Alike) (session : Ref) (encodedBytes : UInt64) :
    (twins.go.call (.receive session encodedBytes)).2 =
      (twins.web.call (.receive session encodedBytes)).2 ∧
    (twins.perform (.receive session encodedBytes)).Alike := by
  have hsound := h.sound.receive session encodedBytes.toNat
  obtain ⟨e, hgo, hweb⟩ | ⟨receipt, go', web', hgo, hweb, hagrees, hreceipts⟩ :=
    h.agrees.receive h.sound session encodedBytes
  · unfold perform GoHost.call WebLedger.call
    dsimp only
    rw [hgo, hweb]
    exact ⟨rfl, h⟩
  · unfold perform GoHost.call WebLedger.call
    dsimp only
    rw [hweb] at hsound
    rw [hgo, hweb]
    refine ⟨congrArg LedgerAnswer.received h.size, hagrees, hsound, ?_, ?_⟩
    · change twins.go.issued.size + 1 = web'.receipts.size
      rw [hreceipts, h.size]
      rfl
    · intro n hn
      rw [hreceipts] at hn ⊢
      rw [Heap.get_alloc, Heap.get_alloc, h.size]
      split
      · rfl
      · rename_i hne
        exact h.issued n (Nat.lt_of_le_of_ne (Nat.le_of_lt_succ hn) hne)

/-- A call that issues no receipt, on ledgers that agree after it. -/
theorem Alike.of_agrees (h : twins.Alike) {call : CommonCall}
    (hcall : ∀ session encodedBytes, call ≠ .receive session encodedBytes)
    (hissued : (twins.go.call call).1.issued = twins.go.issued)
    (hagrees : Agrees (twins.go.call call).1.ledger (twins.web.call call).1)
    (hsound : (twins.web.call call).1.Sound) : (twins.perform call).Alike := by
  have hreceipts : (twins.web.call call).1.receipts = twins.web.receipts := receipts_call hcall
  refine ⟨hagrees, hsound, ?_, ?_⟩
  · change (twins.go.call call).1.issued.size = (twins.web.call call).1.receipts.size
    rw [hissued, hreceipts, h.size]
  · intro n hn
    change (twins.web.call call).1.receipts.get n = ((twins.go.call call).1.issued.get n).toWeb
    change n < (twins.web.call call).1.receipts.size at hn
    rw [hreceipts] at hn ⊢
    rw [hissued]
    exact h.issued n hn

theorem Alike.receipt (h : twins.Alike) {n : Ref} (hn : n < twins.web.receipts.size) :
    twins.web.receipts.get n = (twins.go.receipt n).toWeb := by
  unfold GoHost.receipt
  rw [if_pos (h.size ▸ hn)]
  exact h.issued n hn

/-- A receipt that was not issued is refused by both ledgers, which stay as they are. -/
theorem Alike.foreign (h : twins.Alike) {n : Ref} (hn : twins.web.receipts.size ≤ n)
    (action : WebLedger.Completion) :
    twins.go.call (.complete n action) =
      (twins.go, .failed (if twins.go.ledger.closed then .closed else .session)) ∧
    twins.web.call (.complete n action) =
      (twins.web, .failed (if twins.go.ledger.closed then .closed else .receipt)) := by
  have hreceipt : twins.go.receipt n = ⟨twins.go.ledger.flows.size, .zero, .zero⟩ := by
    unfold GoHost.receipt
    rw [if_neg (Nat.not_lt.mpr (h.size ▸ hn))]
  obtain ⟨hgo, hweb⟩ := h.agrees.complete_foreign hn (twins.go.receipt n) (by rw [hreceipt]) action
  unfold GoHost.call WebLedger.call
  dsimp only
  rw [hgo, hweb]
  exact ⟨rfl, rfl⟩

theorem Alike.step (h : twins.Alike) (call : CommonCall) :
    (twins.Issued call → (twins.go.call call).2 = (twins.web.call call).2) ∧
    (twins.perform call).Alike := by
  cases call with
  | openSession id =>
    obtain ⟨hanswer, hagrees⟩ := h.agrees.openSession h.sound id
    exact ⟨fun _ => congrArg LedgerAnswer.ofOpen hanswer,
      h.of_agrees nofun rfl hagrees (h.sound.openSession id.val)⟩
  | receive session encodedBytes =>
    obtain ⟨hanswer, hafter⟩ := h.receive session encodedBytes
    exact ⟨fun _ => hanswer, hafter⟩
  | complete receipt action =>
    obtain hlt | hge := Nat.lt_or_ge receipt twins.web.receipts.size
    · obtain ⟨hanswer, hagrees⟩ := h.agrees.complete h.sound hlt (h.receipt hlt) action
      exact ⟨fun _ => congrArg LedgerAnswer.ofUnit hanswer,
        h.of_agrees nofun rfl hagrees (h.sound.complete receipt action)⟩
    · obtain ⟨hgo, hweb⟩ := h.foreign hge action
      refine ⟨fun hissued => absurd hissued (Nat.not_lt.mpr hge), ?_⟩
      unfold perform
      rw [hgo, hweb]
      exact h
  | retire session =>
    obtain ⟨hanswer, hagrees⟩ := h.agrees.retire h.sound session
    exact ⟨fun _ => congrArg LedgerAnswer.ofUnit hanswer,
      h.of_agrees nofun rfl hagrees (h.sound.retire session)⟩
  | notice session notice =>
    obtain ⟨hanswer, hagrees⟩ := h.agrees.notice h.sound session notice
    exact ⟨fun _ => congrArg LedgerAnswer.ofUnit hanswer,
      h.of_agrees nofun rfl hagrees (h.sound.notice session notice.toWeb)⟩
  | takeConsumed =>
    obtain ⟨hanswer, hagrees⟩ := h.agrees.takeConsumed h.sound
    exact ⟨fun _ => congrArg LedgerAnswer.control hanswer,
      h.of_agrees nofun rfl hagrees h.sound.takeFlow⟩
  | takeSettlement session =>
    obtain ⟨hanswer, hagrees⟩ := h.agrees.takeSettlement h.sound session
    exact ⟨fun _ => congrArg LedgerAnswer.control hanswer,
      h.of_agrees nofun rfl hagrees (h.sound.takeSettlement session)⟩
  | forget session =>
    obtain ⟨hanswer, hagrees⟩ := h.agrees.forget h.sound session
    exact ⟨fun _ => congrArg LedgerAnswer.ofUnit hanswer,
      h.of_agrees nofun rfl hagrees (h.sound.forget session)⟩
  | close => exact ⟨fun _ => rfl, h.of_agrees nofun rfl h.agrees.close h.sound.close⟩

theorem alike_of_reachable (h : (runs capacity maxSessions).Reachable twins) : twins.Alike := by
  refine h.invariant (fun _ hstart => alike_of_starts hstart) ?_
  rintro s call _ hs rfl
  exact (hs.step call).2

theorem Alike.usage (h : twins.Alike) : twins.go.usage = twins.web.usage := by
  unfold GoHost.usage WebLedger.usage
  rw [h.agrees.held, h.agrees.outstanding, h.agrees.pending, h.agrees.retained, h.agrees.keyed]

/-- The constructors accept the same capacities and session limits. The web client's limit is a
safe integer. -/
theorem new_isOk_iff (capacity : GoCounts) (h : maxSessions < 2 ^ 53) :
    (GoLedger.new capacity maxSessions).isOk = (WebLedger.new capacity.toWeb maxSessions).isOk := by
  have hpos : ∀ a : UInt64, a = 0 ↔ ¬ 0 < (a.toNat : Int) := by
    intro a
    rw [← UInt64.toNat_inj]
    change a.toNat = 0 ↔ _
    omega
  have hvalid : WebLedger.validCapacity capacity.toWeb = false ↔
      capacity.frames = 0 ∨ capacity.encodedBytes = 0 := by
    unfold WebLedger.validCapacity
    rw [GoCounts.toWeb_within, Bool.and_true, Bool.and_eq_false_iff, decide_eq_false_iff_not,
      decide_eq_false_iff_not, hpos, hpos]
    rfl
  have hlimit : ¬ 2 ^ 53 ≤ maxSessions := Nat.not_le.mpr h
  unfold GoLedger.new WebLedger.new
  by_cases hbad : maxSessions = 0 ∨ capacity.frames = 0 ∨ capacity.encodedBytes = 0
  · have hweb : maxSessions = 0 ∨ 2 ^ 53 ≤ maxSessions ∨
        WebLedger.validCapacity capacity.toWeb = false := by
      rw [hvalid]
      exact hbad.imp_right .inr
    rw [if_pos hbad, if_pos hweb]
    rfl
  · have hweb : ¬ (maxSessions = 0 ∨ 2 ^ 53 ≤ maxSessions ∨
        WebLedger.validCapacity capacity.toWeb = false) := by
      rw [hvalid]
      rintro (hzero | hle | hcapacity)
      · exact hbad (.inl hzero)
      · exact hlimit hle
      · exact hbad (.inr hcapacity)
    rw [if_neg hbad, if_neg hweb]
    rfl

/-- After any calls both ledgers report the same usage and answer the next call alike; a
receipt of another ledger both refuse. -/
theorem same_answers (capacity : GoCounts) (maxSessions : Nat) :
    (maxSessions < 2 ^ 53 → (GoLedger.new capacity maxSessions).isOk =
      (WebLedger.new capacity.toWeb maxSessions).isOk) ∧
    ∀ twins, (runs capacity maxSessions).Reachable twins →
      twins.go.usage = twins.web.usage ∧
      (∀ call, twins.Issued call → (twins.go.call call).2 = (twins.web.call call).2) ∧
      ∀ n action, twins.web.receipts.size ≤ n →
        (twins.go.call (.complete n action)).1 = twins.go ∧
        (twins.web.call (.complete n action)).1 = twins.web ∧
        (twins.go.call (.complete n action)).2 =
          .failed (if twins.web.closed then .closed else .session) ∧
        (twins.web.call (.complete n action)).2 =
          .failed (if twins.web.closed then .closed else .receipt) := by
  refine ⟨new_isOk_iff capacity, fun twins hreach => ?_⟩
  have halike := alike_of_reachable hreach
  refine ⟨halike.usage, fun call => (halike.step call).1, fun n action hn => ?_⟩
  obtain ⟨hgo, hweb⟩ := halike.foreign hn action
  rw [hgo, hweb, halike.agrees.closed]
  exact ⟨rfl, rfl, rfl, rfl⟩

def fresh : Twins :=
  ⟨⟨.empty ⟨4, 1000⟩ 2, ⟨0, fun _ => ⟨0, .zero, .zero⟩⟩⟩, .empty ⟨4, 1000⟩ 2⟩

theorem reachable_fresh (calls : List CommonCall) :
    (runs ⟨4, 1000⟩ 2).Reachable (calls.foldl perform fresh) :=
  System.reachable_foldl _ _ ⟨rfl, rfl, rfl⟩ calls

/-- A frame of a session is received, consumed and reported by both ledgers. -/
def reportingCalls : List CommonCall :=
  [.openSession ⟨[0, 0, 0, 0, 0, 0, 0, 1], rfl⟩, .receive 0 30, .complete 0 .consume]

theorem same_answers_reportingCalls :
    let twins := reportingCalls.foldl perform fresh
    (GoLedger.new ⟨4, 1000⟩ 2).isOk = (WebLedger.new (GoCounts.toWeb ⟨4, 1000⟩) 2).isOk ∧
    (twins.web.call .takeConsumed).2 = .control (some ⟨[0, 0, 0, 0, 0, 0, 0, 1], 1, 30⟩) ∧
    twins.go.usage = twins.web.usage ∧
    (twins.go.call .takeConsumed).2 = (twins.web.call .takeConsumed).2 := by
  have hall := same_answers ⟨4, 1000⟩ 2
  obtain ⟨husage, hanswers, -⟩ := hall.2 _ (reachable_fresh reportingCalls)
  exact ⟨hall.1 (by decide), by decide +kernel, husage, hanswers .takeConsumed trivial⟩

/-- A receipt of another ledger is a session failure of the Go ledger and a receipt failure of
the web ledger. -/
theorem foreign_receipt_differs :
    (runs ⟨4, 1000⟩ 2).Reachable fresh ∧
    (fresh.go.call (.complete 0 .consume)).2 = .failed .session ∧
    (fresh.web.call (.complete 0 .consume)).2 = .failed .receipt := by
  exact ⟨reachable_fresh [], by decide +kernel, by decide +kernel⟩

end Twins

/-! ### The Go ledger alone -/

def GoLedger.takes (l : GoLedger) : Nat → GoLedger
  | 0 => l
  | n + 1 => l.takeConsumed.1.takes n

theorem Agrees.takes {go : GoLedger} {web : WebLedger} (h : Agrees go web) (hsound : web.Sound)
    (n : Nat) : Agrees (go.takes n) (web.takes n) ∧ (web.takes n).Sound := by
  induction n generalizing go web with
  | zero => exact ⟨h, hsound⟩
  | succ n ih => exact ih (h.takeConsumed hsound).2 hsound.takeFlow

namespace GoHost

variable {host : GoHost} {capacity : GoCounts} {maxSessions : Nat}

def perform (host : GoHost) (call : CommonCall) : GoHost := (host.call call).1

/-- Any calls on a new Go ledger. -/
def runs (capacity : GoCounts) (maxSessions : Nat) : System GoHost CommonCall :=
  .ofFunction (fun host => GoLedger.new capacity maxSessions = .ok host.ledger ∧
    host.issued.size = 0) perform

/-- A web ledger that makes the same calls goes along. -/
theorem exists_twin (hmax : maxSessions < 2 ^ 53) (h : (runs capacity maxSessions).Reachable host) :
    ∃ web, Twins.Alike ⟨host, web⟩ := by
  refine h.invariant (P := fun host => ∃ web, Twins.Alike ⟨host, web⟩) ?_ ?_
  · rintro host ⟨hgo, hissued⟩
    have hok := Twins.new_isOk_iff capacity hmax
    rw [hgo] at hok
    cases hweb : WebLedger.new capacity.toWeb maxSessions with
    | error e =>
      rw [hweb] at hok
      cases hok
    | ok web => exact ⟨web, Twins.alike_of_starts ⟨hgo, hissued, hweb⟩⟩
  · rintro host call _ ⟨web, hweb⟩ rfl
    exact ⟨(web.call call).1, (hweb.step call).2⟩

/-- The wrapping counters of the Go ledger are the exact sums over its flows, the outstanding
ones fit its capacity, and consumption that was not reported is reported in turn. -/
theorem totals_exact (hmax : maxSessions < 2 ^ 53)
    (h : (runs capacity maxSessions).Reachable host) :
    let l := host.ledger
    (∀ d, l.held.toWeb.amount d = total l.order fun r =>
        (l.flow r).received.toWeb.amount d - (l.flow r).completed.toWeb.amount d) ∧
    (∀ d, l.outstanding.toWeb.amount d = total l.order fun r =>
        if (l.flow r).phase = .settled then 0
        else (l.flow r).received.toWeb.amount d - (l.flow r).reported.toWeb.amount d) ∧
    (∀ d, l.pendingConsumed.toWeb.amount d = total l.order fun r =>
        if (l.flow r).phase = .settled then 0
        else (l.flow r).consumedPrefix.toWeb.amount d - (l.flow r).reported.toWeb.amount d) ∧
    (∀ d, l.outstanding.toWeb.amount d ≤ l.capacity.toWeb.amount d) ∧
    (l.closed = false → ∀ r ∈ l.order, (l.flow r).unreported = true → ∃ n < l.order.length,
      (l.takes n).takeConsumed.2.map GoTotals.toWeb =
        some (GoTotals.toWeb ⟨(l.flow r).id, (l.flow r).consumedPrefix.frames,
          (l.flow r).consumedPrefix.encodedBytes⟩)) := by
  intro l
  obtain ⟨web, hagrees, hsound, -, -⟩ := exists_twin hmax h
  have hflow : ∀ r, web.flow r = (l.flow r).toWeb := hagrees.flows
  refine ⟨fun d => ?_, fun d => ?_, fun d => ?_, ?_, fun hopen r hr hunreported => ?_⟩
  · rw [← hagrees.held, hsound.held, hagrees.order]
    refine total_congr fun r _ => ?_
    rw [hflow]
    rfl
  · rw [← hagrees.outstanding, hsound.outstanding, hagrees.order]
    refine total_congr fun r _ => ?_
    rw [hflow, if_congr GoFlow.settled_iff rfl rfl]
    rfl
  · rw [← hagrees.pending, hsound.pending, hagrees.order]
    refine total_congr fun r _ => ?_
    rw [hflow, if_congr GoFlow.settled_iff rfl rfl]
    rfl
  · rw [← hagrees.outstanding, ← hagrees.capacity]
    exact ReceiveCounts.within_iff.mp hsound.capacity
  · have hunreported : (web.flow r).unreported = true := by
      rw [hflow, GoFlow.unreported_toWeb, hunreported]
    obtain ⟨n, hn, htake⟩ := hsound.exists_take (hagrees.closed.trans hopen)
      (hagrees.order ▸ hr) hunreported
    obtain ⟨hagrees', hsound'⟩ := hagrees.takes hsound n
    refine ⟨n, hagrees.order ▸ hn, ?_⟩
    rw [(hagrees'.takeConsumed hsound').1, htake, hflow]
    rfl

theorem totals_exact_reportingCalls :
    let l := (Twins.reportingCalls.foldl perform Twins.fresh.go).ledger
    l.order.length = 1 ∧ ∃ n < l.order.length, (l.takes n).takeConsumed.2.map GoTotals.toWeb =
      some (GoTotals.toWeb ⟨(l.flow 0).id, (l.flow 0).consumedPrefix.frames,
        (l.flow 0).consumedPrefix.encodedBytes⟩) := by
  have hreach : (runs ⟨4, 1000⟩ 2).Reachable (Twins.reportingCalls.foldl perform Twins.fresh.go) :=
    System.reachable_foldl _ _ ⟨rfl, rfl⟩ _
  refine ⟨by decide +kernel, ?_⟩
  exact (totals_exact (by decide) hreach).2.2.2.2 (by decide +kernel) 0 (by decide +kernel)
    (by decide +kernel)

end GoHost

end Windshare.Receiver
