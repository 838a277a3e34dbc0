import Windshare.Relay.Flow.Host

/-!
# Charges and releases

The units of a flow are numbered in the order they are granted. A unit is charged while
it lies between the consumed and the retained prefix of its flow. This file follows single
units along a run: a unit that was released is never charged again, and none is left when
its flow ends.
-/

namespace Windshare.Relay.Flow

open Windshare.Library Txn

/-! ### What the counters say -/

/-- The counters of a ledger, in the terms of the source: each is the total over the
entries, the prefixes of every flow are ordered, a flow is charged for what lies between its
consumed and its retained prefix, and both pools hold. -/
structure ConnectionLedger.Accounted (l : ConnectionLedger) : Prop where
  granted : ∀ d, l.usage.granted.amount d =
    l.entries.tally fun e => (e.usage.getD .zero).granted.amount d
  received : ∀ d, l.usage.received.amount d =
    l.entries.tally fun e => (e.usage.getD .zero).received.amount d
  submitted : ∀ d, l.usage.submitted.amount d =
    l.entries.tally fun e => (e.usage.getD .zero).submitted.amount d
  startup : ∀ d, l.startupUsed.amount d =
    l.entries.tally fun e => (e.startupUsed.getD .zero).amount d
  ordered : ∀ i e, l.entries.get i = some e → ∀ d,
    e.consumed.amount d ≤ e.submitted.amount d ∧ e.submitted.amount d ≤ e.received.amount d ∧
      e.received.amount d ≤ e.granted.amount d
  charged : ∀ i e, l.entries.get i = some e → ∃ u, e.usage = some u ∧ ∀ d,
    u.granted.amount d + u.received.amount d + u.submitted.amount d =
      e.retained.amount d - e.consumed.amount d
  bounded : ∃ total pools regular, l.usage.total = some total ∧ l.capacityPools = some pools ∧
    l.regularUsed = some regular ∧ ∀ d, total.amount d ≤ l.limits.total.amount d ∧
      (∀ capacity, l.receiveCapacity = some capacity → total.amount d ≤ capacity.counts.amount d) ∧
      (l.receiveCapacity = none → total.amount d = 0) ∧
      l.startupUsed.amount d ≤ pools.startup.amount d ∧ regular.amount d ≤ pools.regular.amount d

namespace ConnectionLedger

variable {l : ConnectionLedger}

theorem effectiveTotal_le_limit (l : ConnectionLedger) (d : Dimension) :
    l.effectiveTotal.amount d ≤ l.limits.total.amount d := by
  unfold effectiveTotal
  split
  · rw [Counts.amount_min]
    exact Nat.min_le_left _ _
  · exact Nat.le_refl _

theorem Ready.accounted (h : Ready l) : l.Accounted where
  granted := by
    intro d
    rw [h.books.granted]
    apply Slots.tally_congr
    intro i e he
    obtain ⟨u, hu, hstages⟩ := (h.books.ordered i e he).exists_usage
    rw [hu]
    exact (hstages d).1.symm
  received := by
    intro d
    rw [h.books.received]
    apply Slots.tally_congr
    intro i e he
    obtain ⟨u, hu, hstages⟩ := (h.books.ordered i e he).exists_usage
    rw [hu]
    exact (hstages d).2.1.symm
  submitted := by
    intro d
    rw [h.books.submitted]
    apply Slots.tally_congr
    intro i e he
    obtain ⟨u, hu, hstages⟩ := (h.books.ordered i e he).exists_usage
    rw [hu]
    exact (hstages d).2.2.symm
  startup := by
    intro d
    rw [h.books.startup]
    apply Slots.tally_congr
    intro i e he
    obtain ⟨c, hc, hheld⟩ := (h.books.ordered i e he).exists_startupUsed
    rw [hc]
    exact (hheld d).symm
  ordered := by
    intro i e he d
    have hordered := h.books.ordered i e he
    exact ⟨hordered.consumed_le d, hordered.submitted_le d, hordered.received_le d⟩
  charged := by
    intro i e he
    have hordered := h.books.ordered i e he
    obtain ⟨u, hu, hstages⟩ := hordered.exists_usage
    refine ⟨u, hu, ?_⟩
    intro d
    rw [(hstages d).1, (hstages d).2.1, (hstages d).2.2, ← hordered.held_eq_stages]
    rfl
  bounded := by
    obtain ⟨total, htotal, htotal'⟩ := h.books.exists_total
    obtain ⟨pools, hpools, hpool₁, hpool₂⟩ := l.exists_capacityPools
    obtain ⟨regular, hregular, hregular'⟩ := h.books.exists_regularUsed
    refine ⟨total, pools, regular, htotal, hpools, hregular, ?_⟩
    intro d
    have hheld := h.books.held_le d
    rw [htotal', hpool₁, hregular', h.books.startup]
    refine ⟨hheld.trans (l.effectiveTotal_le_limit d), ?_, ?_, h.books.startup_le d, ?_⟩
    · intro capacity hcapacity
      exact hheld.trans (effectiveTotal_le hcapacity d)
    · intro hnone
      exact Slots.tally_eq_zero_of_holes _ (h.undeclared hnone)
    · have := h.books.regular_le d
      have := hpool₂ d
      omega

end ConnectionLedger

/-! ### Units -/

namespace Host

/-- The `n`-th unit of a flow is charged. -/
def Holds (host : Host) (permit : ForwardPermit) (d : Dimension) (n : Nat) : Prop :=
  ∃ i e, host.ledger.entries.get i = some e ∧ e.key.permit = permit ∧
    e.consumed.amount d < n ∧ n ≤ e.retained.amount d

/-- The ledger has no entry of a flow. -/
def Absent (host : Host) (permit : ForwardPermit) : Prop :=
  ∀ i e, host.ledger.entries.get i = some e → e.key.permit ≠ permit

/-- The unit was released: its flow has passed it, or has ended for good. -/
def Spent (host : Host) (permit : ForwardPermit) (d : Dimension) (n : Nat) : Prop :=
  (∃ i e, host.ledger.entries.get i = some e ∧ e.key.permit = permit ∧
    (n ≤ e.consumed.amount d ∨ e.state ≠ .opened ∧ e.retained.amount d < n)) ∨
  host.Absent permit ∧ (permit.session ∈ host.retired ∨ host.ledger.state = .closed)

variable {host : Host} {permit : ForwardPermit} {d : Dimension} {n : Nat} {call : Call}

theorem Absent.not_holds (h : host.Absent permit) : ¬ host.Holds permit d n := by
  rintro ⟨i, e, he, hpermit, -⟩
  exact h i e he hpermit

section

variable (h : host.Sound)

include h

theorem Sound.not_holds_of_spent (hspent : host.Spent permit d n) : ¬ host.Holds permit d n := by
  rintro ⟨i, e, he, hpermit, hconsumed, hretained⟩
  obtain ⟨j, e', he', hpermit', hpassed⟩ | ⟨habsent, -⟩ := hspent
  · obtain rfl := h.distinct i j e e' he he' (hpermit.trans hpermit'.symm)
    obtain rfl : e = e' := Option.some.inj (he.symm.trans he')
    omega
  · exact habsent i e he hpermit

variable (hallowed : host.Allows call.op)

include hallowed

theorem Sound.slot (i : Nat) :
    (host.ledger.expire call.now).SlotStep (host.perform call).ledger call.op i := by
  obtain ⟨reply, l', hexec, heffect, -⟩ | ⟨reason, hexec⟩ := h.exec_cases call hallowed
  · simp only [Host.perform, hexec]
    exact heffect.slot (h.ready.expire call.now) i
  · simp only [Host.perform, hexec]
    exact .kept rfl

theorem Sound.closed_perform
    (hclosed : host.ledger.state = .closed) : (host.perform call).ledger.state = .closed := by
  have hexpired : (host.ledger.expire call.now).state = .closed := by
    simp only [ConnectionLedger.expire, hclosed]
  obtain ⟨reply, l', hexec, heffect, -⟩ | ⟨reason, hexec⟩ := h.exec_cases call hallowed
  · simp only [Host.perform, hexec]
    exact heffect.frame.2.2.2.1 hexpired
  · simp only [Host.perform, hexec]
    exact hexpired

/-- A flow with a live delivery is not opened again, and one that ended for good is not
either. -/
theorem Sound.absent_perform
    (hgone : ∀ i e, host.ledger.entries.get i = some e → e.key.permit = permit →
      (host.perform call).ledger.entries.get i = none)
    (hended : (∃ i e, host.ledger.entries.get i = some e ∧ e.key.permit = permit) ∨
      permit.session ∈ host.retired ∨ host.ledger.state = .closed) :
    (host.perform call).Absent permit := by
  intro i e' he' hpermit
  obtain ⟨e, he, hevolves⟩ | ⟨-, route, allocates, startup, hop, rfl, hopen, -, hnew, -⟩ :=
    (h.slot hallowed i).origin he'
  · rw [ConnectionLedger.expire_entries] at he
    rw [hevolves.key] at hpermit
    cases (hgone i e he hpermit).symm.trans he'
  · obtain rfl : route = permit := hpermit
    obtain ⟨j, e, he, hpermit⟩ | hretired | hclosed := hended
    · rw [← ConnectionLedger.expire_entries host.ledger call.now] at he
      exact hnew j e he hpermit
    · rw [hop] at hallowed
      exact hallowed hretired
    · simp only [ConnectionLedger.expire, hclosed] at hopen
      cases hopen

/-- A flow whose delivery is removed has ended for good. -/
theorem Sound.ended_perform {i : Nat}
    {e : Delivery} (he : host.ledger.entries.get i = some e) (hpermit : e.key.permit = permit)
    (hnone : (host.perform call).ledger.entries.get i = none)
    (hcause : e.state ≠ .opened ∨ (host.perform call).ledger.state = .closed) :
    (host.perform call).Absent permit ∧ (permit.session ∈ (host.perform call).retired ∨
      (host.perform call).ledger.state = .closed) := by
  constructor
  · apply h.absent_perform hallowed
    · intro j e' he' hpermit'
      obtain rfl := h.distinct i j e e' he he' (hpermit.trans hpermit'.symm)
      exact hnone
    · exact .inl ⟨i, e, he, hpermit⟩
  · obtain hstate | hclosed := hcause
    · refine .inl (List.mem_append_left _ ?_)
      rw [← hpermit]
      exact h.retired i e he hstate
    · exact .inr hclosed

/-- A released unit stays released. -/
theorem Sound.spent_perform
    (hspent : host.Spent permit d n) : (host.perform call).Spent permit d n := by
  obtain ⟨i, e, he, hpermit, hpassed⟩ | ⟨habsent, hended⟩ := hspent
  · have he' := he
    rw [← ConnectionLedger.expire_entries host.ledger call.now] at he'
    obtain ⟨e', he', hevolves⟩ | ⟨hnone, hcause⟩ := (h.slot hallowed i).fate he'
    · refine .inl ⟨i, e', he', hevolves.key ▸ hpermit, ?_⟩
      obtain hconsumed | ⟨hstate, hretained⟩ := hpassed
      · exact .inl (hconsumed.trans (hevolves.consumed_le d))
      · exact .inr ⟨hevolves.retired hstate,
          Nat.lt_of_le_of_lt (hevolves.retained_le hstate d) hretained⟩
    · exact .inr (h.ended_perform hallowed he hpermit hnone hcause)
  · refine .inr ⟨h.absent_perform hallowed ?_ (.inr hended), ?_⟩
    · intro i e he hpermit
      exact absurd hpermit (habsent i e he)
    · obtain hretired | hclosed := hended
      · exact .inl (List.mem_append_left _ hretired)
      · exact .inr (h.closed_perform hallowed hclosed)

/-- A unit that stops being charged was released. -/
theorem Sound.spent_of_released
    (hheld : host.Holds permit d n) (hreleased : ¬ (host.perform call).Holds permit d n) :
    (host.perform call).Spent permit d n := by
  obtain ⟨i, e, he, hpermit, hconsumed, hretained⟩ := hheld
  have he' := he
  rw [← ConnectionLedger.expire_entries host.ledger call.now] at he'
  obtain ⟨e', he', hevolves⟩ | ⟨hnone, hcause⟩ := (h.slot hallowed i).fate he'
  · have hpermit' : e'.key.permit = permit := hevolves.key ▸ hpermit
    refine .inl ⟨i, e', he', hpermit', ?_⟩
    by_cases hpassed : n ≤ e'.consumed.amount d
    · exact .inl hpassed
    have hless : e'.retained.amount d < n := by
      by_contra hle
      exact hreleased ⟨i, e', he', hpermit', Nat.lt_of_not_le hpassed, Nat.le_of_not_lt hle⟩
    refine .inr ⟨?_, hless⟩
    -- The retained prefix of an open flow does not shrink.
    intro hopen
    have := hevolves.le_retained hopen d
    omega
  · exact .inr (h.ended_perform hallowed he hpermit hnone hcause)

end

/-! ### Runs -/

/-- A run, which can always be continued by a `tick`. -/
structure Run where
  host : Nat → Host
  call : Nat → Call
  starts : (host 0).Starts
  step : ∀ k, system.step (host k) (call k) (host (k + 1))

namespace Run

variable (r : Run)

theorem allowed (k : Nat) : (r.host k).Allows (r.call k).op := (r.step k).1

theorem host_succ (k : Nat) : r.host (k + 1) = (r.host k).perform (r.call k) := (r.step k).2.symm

theorem reachable (k : Nat) : system.Reachable (r.host k) := by
  induction k with
  | zero => exact .of_init r.starts
  | succ k ih => exact ih.step (r.step k)

theorem sound (k : Nat) : (r.host k).Sound := reachable_sound (r.reachable k)

/-- The unit is released by the `k`-th call. -/
def Releases (permit : ForwardPermit) (d : Dimension) (n k : Nat) : Prop :=
  (r.host k).Holds permit d n ∧ ¬ (r.host (k + 1)).Holds permit d n

variable {r} {k m : Nat}

theorem Releases.spent (h : r.Releases permit d n k) (hm : k < m) :
    (r.host m).Spent permit d n := by
  induction m, hm using Nat.le_induction with
  | base =>
    rw [r.host_succ]
    refine (r.sound k).spent_of_released (r.allowed k) h.1 ?_
    rw [← r.host_succ]
    exact h.2
  | succ m _ ih =>
    rw [r.host_succ]
    exact (r.sound m).spent_perform (r.allowed m) ih

/-- A unit is released once at most. -/
theorem Releases.unique (h : r.Releases permit d n k) (h' : r.Releases permit d n m) : k = m := by
  by_contra hne
  obtain hlt | hlt := Nat.lt_or_gt_of_ne hne
  · exact (r.sound m).not_holds_of_spent (h.spent hlt) h'.1
  · exact (r.sound k).not_holds_of_spent (h'.spent hlt) h.1

/-- A charged unit is released before it is free. -/
theorem exists_releases (hheld : (r.host k).Holds permit d n) (hkm : k ≤ m)
    (hfree : ¬ (r.host m).Holds permit d n) : ∃ j, r.Releases permit d n j := by
  induction m, hkm using Nat.le_induction with
  | base => exact absurd hheld hfree
  | succ m _ ih =>
    by_cases hm : (r.host m).Holds permit d n
    · exact ⟨m, hm, hfree⟩
    · exact ih hm

/-- A call does not panic, and one that is refused changes no counter. -/
theorem exec_sound (r : Run) (k : Nat) :
    ((r.host k).exec (r.call k)).1 ≠ .error .panicked ∧
      ∀ reason, ((r.host k).exec (r.call k)).1 = .error (.refused reason) →
        (r.host (k + 1)).ledger.entries = (r.host k).ledger.entries ∧
        (r.host (k + 1)).ledger.usage = (r.host k).ledger.usage ∧
        (r.host (k + 1)).ledger.startupUsed = (r.host k).ledger.startupUsed ∧
        (r.host (k + 1)).ledger.receiveCapacity = (r.host k).ledger.receiveCapacity := by
  rw [r.host_succ]
  obtain ⟨reply, l', hexec, -⟩ | ⟨reason, hexec⟩ :=
    (r.sound k).exec_cases (r.call k) (r.allowed k)
  · rw [hexec]
    exact ⟨fun h => (by cases h), fun _ h => by cases h⟩
  · simp only [Host.perform, hexec]
    exact ⟨fun h => (by cases h), fun _ _ => ⟨ConnectionLedger.expire_entries ..,
      ConnectionLedger.expire_usage .., ConnectionLedger.expire_startupUsed ..,
      ConnectionLedger.expire_receiveCapacity ..⟩⟩

end Run

/-- Restoring and every call of every run keep the books: no checked operation fails, the
counters are the totals over the entries and within their bounds, refusals change nothing,
and each charged unit is released exactly once by the time its flow is gone. -/
theorem ledger_accounts_for_every_unit :
    (∀ relay destination limits maxFlows checkpoint allocates,
      ((ConnectionLedger.restore maxFlows checkpoint allocates).exec
        (.new relay destination limits maxFlows)).1 ≠ .error .panicked) ∧
    ∀ r : Run,
      (∀ k, (r.host k).ledger.Accounted ∧
        ((r.host k).exec (r.call k)).1 ≠ .error .panicked ∧
        ∀ reason, ((r.host k).exec (r.call k)).1 = .error (.refused reason) →
          (r.host (k + 1)).ledger.entries = (r.host k).ledger.entries ∧
          (r.host (k + 1)).ledger.usage = (r.host k).ledger.usage ∧
          (r.host (k + 1)).ledger.startupUsed = (r.host k).ledger.startupUsed ∧
          (r.host (k + 1)).ledger.receiveCapacity = (r.host k).ledger.receiveCapacity) ∧
      ∀ permit d n k m, (r.host k).Holds permit d n → k ≤ m → (r.host m).Absent permit →
        ∃! j, r.Releases permit d n j := by
  constructor
  · intro relay destination limits maxFlows checkpoint allocates hpanic
    have hwp := ConnectionLedger.wp_restore relay destination limits maxFlows checkpoint allocates
    obtain ⟨_, _, hexec, -⟩ | ⟨_, _, hexec, -⟩ := wp_cases hwp <;> rw [hexec] at hpanic <;>
      cases hpanic
  · intro r
    refine ⟨fun k => ⟨(r.sound k).ready.accounted, r.exec_sound k⟩, ?_⟩
    intro permit d n k m hheld hkm habsent
    obtain ⟨j, hj⟩ := Run.exists_releases hheld hkm habsent.not_holds
    exact ⟨j, hj, fun j' hj' => hj'.unique hj⟩

/-! One flow from its opening to its settlement. -/

def settledRoute : ForwardPermit :=
  ⟨⟨⟨⟨1⟩, ⟨1⟩, ⟨1⟩, ⟨1, 1⟩⟩, ⟨1⟩, ⟨2, 1⟩, 1, ⟨1⟩, ⟨1⟩⟩, .toReceiver⟩

def settledLimits : Limits where
  total := ⟨4, 300000⟩
  startupReserve := ⟨1, 65556⟩
  startupGrant := ⟨1, 65556⟩
  settlementTimeout := 1000000
  startup_frames := by decide
  startup_bytes := by decide
  total_covers := by decide
  reserve_covers := by decide
  timeout_pos := by decide

def settledOp : Nat → Op
  | 0 => .declareCapacity ⟨⟨4, 300000⟩, by decide⟩
  | 1 => .openFlow settledRoute true
  | 2 => .receive ⟨0, settledRoute⟩ settledRoute ⟨⟨1⟩, 21, by decide⟩
  | 3 => .submit settledRoute ⟨⟨0, settledRoute⟩, 1, 21⟩
  | 4 => .retire settledRoute.session
  | 5 => .discarded ⟨0, settledRoute⟩
  | 6 => .settle ⟨0, settledRoute⟩ ⟨2, 1⟩ ⟨1, 21⟩
  | _ => .tick

def settledHost : Nat → Host
  | 0 => ⟨.new ⟨1⟩ ⟨2, 1⟩ settledLimits 1, [], []⟩
  | k + 1 => (settledHost k).perform ⟨settledOp k, 5⟩

theorem settledHost_allows (k : Nat) : (settledHost k).Allows (settledOp k) := by
  match k with
  | 0 | 4 | 5 | 6 | _ + 7 => trivial
  | 1 => exact (by decide : settledRoute.session ∉ (settledHost 1).retired)
  | 2 => exact (by decide : settledRoute.session ∉ (settledHost 2).retired)
  | 3 => exact ⟨by decide, by decide +kernel⟩

def settledRun : Run where
  host := settledHost
  call := fun k => ⟨settledOp k, 5⟩
  starts := ⟨rfl, rfl, ⟨1⟩, ⟨2, 1⟩, settledLimits, 1, .inl ⟨by decide, rfl⟩⟩
  step := fun k => ⟨settledHost_allows k, rfl⟩

/-- The frame of the run is charged when the flow opens and gone when it is settled. -/
theorem ledger_accounts_for_every_unit_settled :
    (settledRun.host 2).Holds settledRoute .frames 1 ∧ (settledRun.host 7).Absent settledRoute ∧
      ∃! j, settledRun.Releases settledRoute .frames 1 j := by
  have hheld : (settledRun.host 2).Holds settledRoute .frames 1 :=
    ⟨0, .new ⟨0, settledRoute⟩ ⟨1, 65556⟩ ⟨1, 65556⟩, by decide +kernel, rfl, by decide, by decide⟩
  have habsent : (settledRun.host 7).Absent settledRoute := by
    intro i e he
    have hnil : (settledRun.host 7).ledger.entries.entries = [] := by decide +kernel
    rw [DeliverySlots.get, hnil] at he
    cases he
  exact ⟨hheld, habsent,
    (ledger_accounts_for_every_unit.2 settledRun).2 _ _ _ 2 7 hheld (by decide) habsent⟩

end Host

end Windshare.Relay.Flow
