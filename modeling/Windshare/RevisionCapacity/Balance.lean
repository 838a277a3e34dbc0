import Windshare.RevisionCapacity.Exclusive

/-!
# The books of the coordinator

In a run in which no share is registered again under a waiting `Close`, every count is the
number of what it stands for and stays within its limit, reservations and claims are resolved
once, and a call on something that is resolved changes nothing. A share that is registered
again under a waiting `Close` gets two open stores, and then the limit of one of them fails.
-/

namespace Windshare.RevisionCapacity

open Windshare.Library

namespace Host

/-- The books at a state of a run, and what later steps do to its admissions and claims. -/
structure Balanced (S : System Host HostEvent) (host : Host) : Prop where
  used : ∀ scope r, (host.coordinator.counts (.used scope r)).toNat =
    host.coordinator.usedUnits host.phases scope r
  limits : ∀ scope, host.coordinator.Allocated scope → ∀ r,
    (host.coordinator.counts (.used scope r)).toNat ≤ ((host.coordinator.limitsOf scope).of r).toNat
  pending : ∀ scope, (host.coordinator.counts (.pending scope)).toNat =
    host.coordinator.pendingAdmissions scope
  quarantined : ∀ scope, (host.coordinator.counts (.quarantined scope)).toNat =
    host.coordinator.quarantinedUnits host.phases scope
  reclaimable : ∀ scope, (host.coordinator.counts (.reclaimable scope)).toNat =
    host.coordinator.idleCandidates scope
  reclaims : ∀ scope, (host.coordinator.counts (.reclaims scope)).toNat =
    host.coordinator.claimedCandidates scope
  /-- The live charges have no limit of their own, so they are counted in the width of the
  counter. -/
  liveCharges : ∀ scope, host.coordinator.counts (.liveCharges scope) =
    UInt64.ofNat (host.coordinator.liveCharges scope)
  /-- A reservation is resolved when its admission ended, and that is final. -/
  settled : ∀ j < host.coordinator.admissionStates.size,
    (host.coordinator.admission j).settled = (host.phases j).isEnded ∧
    ((host.phases j).isEnded = true → ∀ later, S.Later host later → later.phases j = host.phases j)
  /-- A grant can be resolved either way. -/
  grants : ∀ j < host.coordinator.admissionStates.size, host.phases j = .granted →
    (∃ charges, (host.coordinator.commit j).2 = .ok charges) ∧ (host.coordinator.abort j).2 = .ok ()
  /-- The call of the target ends the claim, whatever it returns. -/
  finished : ∀ j call contextDone next, S.step host (.finishReclaim j call contextDone) next →
    (next.phases j).claim? = none
  /-- A claim that ended does not come back. -/
  claims : ∀ event next j p, S.step host event next → (host.phases j).claim? = some p →
    (next.phases j).claim? ≠ some p → ∀ later, S.Later next later → ∀ i q,
      (later.phases i).claim? = some q → q.claim ≠ p.claim
  /-- A resolved grant refuses every call. -/
  settledGrant : ∀ j < host.coordinator.admissionStates.size,
    (host.coordinator.admission j).settled = true →
    host.coordinator.commit j = (host.coordinator, .error .admissionGrantSettled) ∧
    host.coordinator.abort j = (host.coordinator, .error .admissionGrantSettled) ∧
    host.coordinator.quarantineStableHandle j = (host.coordinator, .error .admissionGrantSettled)
  /-- A resolved charge refuses every call. -/
  resolvedCharge : ∀ i < host.coordinator.chargeStates.size,
    (host.coordinator.charge i).status ≠ .active →
    (∀ expected, ∃ e, host.coordinator.releaseCharge i expected = (host.coordinator, .error e)) ∧
    (∃ e, host.coordinator.quarantineCharge i = (host.coordinator, .error e)) ∧
    ∀ s idle, idle.stableHandle = some i →
      ∃ e, host.coordinator.publishIdle s idle = (host.coordinator, .error e)
  /-- A candidate that is not listed cannot be withdrawn. -/
  unlisted : ∀ s token, host.coordinator.candidates.get?
      ⟨(host.coordinator.store s).storeID, token⟩ = none →
    host.coordinator.withdrawIdle s token = (host.coordinator, false)
  /-- A closed registration stays as it is. -/
  closed : (∀ s listing, (host.coordinator.store s).closed = true →
      host.coordinator.closeStore s listing = (host.coordinator, .closed)) ∧
    ∀ t, (host.coordinator.session t).closed = true →
      host.coordinator.closeSession t = (host.coordinator, .closed)

end Host

namespace Coordinator

variable {c : Coordinator} {phases : Ref → AdmissionPhase} {i j : Ref}

/-! ### Calls on what is resolved -/

theorem settled_refuses (hj : j < c.admissionStates.size)
    (hsettled : (c.admission j).settled = true) :
    c.commit j = (c, .error .admissionGrantSettled) ∧
      c.abort j = (c, .error .admissionGrantSettled) ∧
      c.quarantineStableHandle j = (c, .error .admissionGrantSettled) := by
  have hlt : ¬ c.admissionStates.size ≤ j := Nat.not_le.mpr hj
  refine ⟨?_, ?_, ?_⟩
  · unfold Coordinator.commit
    rw [if_neg hlt, if_pos hsettled]
  · unfold Coordinator.abort
    rw [if_neg hlt, if_pos hsettled]
  · unfold Coordinator.quarantineStableHandle
    rw [if_neg hlt, if_pos hsettled]

theorem resolvedError_of_not_active {status : ChargeStatus} (h : status ≠ .active) :
    ∃ e, resolvedError status = some e := by
  cases status with
  | active => exact absurd rfl h
  | released | transferred | quarantined => exact ⟨_, rfl⟩

section

variable (h : (c.charge i).status ≠ .active)

include h

theorem releaseCharge_refused (expected : ChargeKind) :
    ∃ e, c.releaseCharge i expected = (c, .error e) := by
  obtain ⟨e, he⟩ := resolvedError_of_not_active h
  unfold releaseCharge
  split
  · exact ⟨_, rfl⟩
  split
  · exact ⟨_, rfl⟩
  rw [he]
  exact ⟨_, rfl⟩

theorem quarantineCharge_refused : ∃ e, c.quarantineCharge i = (c, .error e) := by
  obtain ⟨e, he⟩ := resolvedError_of_not_active h
  unfold quarantineCharge
  split
  · exact ⟨_, rfl⟩
  split
  · exact ⟨_, rfl⟩
  rw [he]
  exact ⟨_, rfl⟩

theorem publishIdle_refused (s : Ref) {idle : IdleCandidate}
    (hidle : idle.stableHandle = some i) : ∃ e, c.publishIdle s idle = (c, .error e) := by
  unfold publishIdle
  split
  · exact ⟨_, rfl⟩
  rw [hidle]
  dsimp only
  split
  · exact ⟨_, rfl⟩
  split
  · exact ⟨_, rfl⟩
  split
  · exact ⟨_, rfl⟩
  rw [if_pos (.inr (.inr (.inr h)))]
  exact ⟨_, rfl⟩

end

theorem withdrawIdle_unlisted {s : Ref} {token : CandidateToken}
    (h : c.candidates.get? ⟨(c.store s).storeID, token⟩ = none) :
    c.withdrawIdle s token = (c, false) := by
  unfold withdrawIdle
  split
  · rfl
  · rw [h]

theorem closeStore_closed {s : Ref} (h : (c.store s).closed = true) (listing : List Ref) :
    c.closeStore s listing = (c, .closed) := by
  unfold closeStore
  rw [if_pos h]

theorem closeSession_closed {t : Ref} (h : (c.session t).closed = true) :
    c.closeSession t = (c, .closed) := by
  unfold closeSession
  rw [if_pos h]

/-- A granted admission can be committed and can be aborted. -/
theorem Sound.grant_resolves {good : Prop} (h : c.Sound good phases)
    (hj : j < c.admissionStates.size) (hphase : phases j = .granted) :
    (∃ charges, (c.commit j).2 = .ok charges) ∧ (c.abort j).2 = .ok () := by
  have hlt : ¬ c.admissionStates.size ≤ j := Nat.not_le.mpr hj
  have hopen : (phases j).isEnded = false := by rw [hphase]; rfl
  have hsettled := h.phased.unsettled hj hopen
  have hreserved := h.phased.stableReserved j hj hopen
  rw [hphase] at hreserved
  constructor
  · unfold Coordinator.commit
    rw [if_neg hlt, if_neg (by simp [hsettled]), if_neg (by simp [hreserved])]
    exact ⟨_, rfl⟩
  · unfold Coordinator.abort
    rw [if_neg hlt, if_neg (by simp [hsettled])]

/-! ### Counts -/

/-- In a good run the used units of every scope fit the counter. -/
theorem Sound.usedUnits_lt (h : c.Sound True phases) (scope : Scope) (r : CapacityResource) :
    c.usedUnits phases scope r < 2 ^ 64 := by
  rw [← number_used]
  by_cases hscope : c.Allocated scope
  · exact (h.within scope ⟨hscope, fun _ _ => trivial⟩ r).trans_lt (UInt64.toNat_lt _)
  · rw [h.linked.number_unallocated (x := .used scope r) hscope]
    decide

end Coordinator

namespace Host

variable {host next : Host}

/-! ### Careful runs -/

theorem later_of_careful (h : carefulSystem.Later host next) : system.Later host next := by
  induction h with
  | refl => exact .refl host
  | tail _ hstep ih =>
    obtain ⟨event, hallows, -, hnext⟩ := hstep
    exact ih.tail (e := event) ⟨hallows, hnext⟩

theorem reachable_of_careful (h : carefulSystem.Reachable host) : system.Reachable host := by
  obtain ⟨start, hstart, hlater⟩ := h
  exact ⟨start, hstart, later_of_careful hlater⟩

theorem ended_of_later {j : Ref} (hreach : system.Reachable host)
    (hj : j < host.coordinator.admissionStates.size) (hended : (host.phases j).isEnded = true)
    (hlater : system.Later host next) : next.phases j = host.phases j := by
  refine (hlater.stable_of_reachable hreach (P := fun x =>
    j < x.coordinator.admissionStates.size ∧ x.phases j = host.phases j) ⟨hj, rfl⟩ ?_).2
  rintro x event y hx ⟨hj, hsame⟩ ⟨hallows, rfl⟩
  have hsound := sound_of_reachable hx
  refine ⟨hj.trans_le (hsound.evolves hallows).admissions, ?_⟩
  rw [hsound.ended_perform hallows hj (by rw [hsame]; exact hended), hsame]

theorem Sound.unclaimed_finishReclaim {good : Prop} (h : host.Sound good) {j : Ref}
    {call : TargetCall} {contextDone : Bool}
    (hallows : host.Allows (.finishReclaim j call contextDone)) :
    ((host.perform (.finishReclaim j call contextDone)).phases j).claim? = none := by
  obtain ⟨hj, p, hphase⟩ := hallows
  have hturns : host.Turns (.finishReclaim j call contextDone) j _ :=
    h.turns_finishReclaim hj hphase
  rw [perform_finishReclaim hphase, phases_finish]
  generalize (host.coordinator.finishReclaim j p _ contextDone).2.phase = phase at hturns
  cases hturns <;> rfl

/-- In a run in which no share is registered again under a waiting `Close`, the books of the
coordinator are right. -/
theorem balanced_of_careful (h : carefulSystem.Reachable host) : host.Balanced carefulSystem := by
  have hsound := sound_of_careful h
  have hreach := reachable_of_careful h
  have hc := hsound.coordinator
  have hused : ∀ scope r, (host.coordinator.counts (.used scope r)).toNat =
      host.coordinator.usedUnits host.phases scope r := fun scope r =>
    hc.toNat_counts Coordinator.number_used (hc.usedUnits_lt scope r)
  have hpending : ∀ scope, host.coordinator.pendingAdmissions scope < 2 ^ 64 := fun scope =>
    hc.linked.pendingAdmissions_le.trans_lt hc.usedUnits_process_lt
  constructor
  case used => exact hused
  case limits =>
    intro scope hscope r
    rw [hused, ← Coordinator.number_used]
    exact hc.within scope ⟨hscope, fun _ _ => trivial⟩ r
  case pending => exact fun scope => hc.toNat_counts Coordinator.number_pending (hpending scope)
  case quarantined =>
    intro scope
    exact hc.toNat_counts Coordinator.number_quarantined
      (Coordinator.quarantinedUnits_le.trans_lt hc.usedUnits_process_lt)
  case reclaimable =>
    intro scope
    exact hc.toNat_counts hc.listed.number_reclaimable
      (hc.listed.idleCandidates_le.trans_lt hc.usedUnits_process_lt)
  case reclaims =>
    intro scope
    exact hc.toNat_counts Coordinator.number_reclaims
      (hc.toConsistent.claimedCandidates_le.trans_lt (hpending .process))
  case liveCharges =>
    intro scope
    rw [hc.accounts, Coordinator.number_liveCharges]
  case settled =>
    intro j hj
    exact ⟨hc.phased.settled j hj, fun hended later hlater =>
      ended_of_later hreach hj hended (later_of_careful hlater)⟩
  case grants => exact fun j hj hphase => hc.grant_resolves hj hphase
  case finished =>
    rintro j call contextDone next ⟨hallows, -, rfl⟩
    exact hsound.unclaimed_finishReclaim hallows
  case claims =>
    rintro event next j p ⟨hallows, -, rfl⟩ hp hended later hlater
    have hj := allocated_of_reachable hreach hp
    have hallocated := (hc.phased.inFlight j hj p hp).allocated
    exact claim_over_of_later (hreach.step ⟨hallows, rfl⟩)
      (hallocated.trans_le (hsound.evolves hallows).claims)
      (claim_over_perform hreach hallows hp hended) (later_of_careful hlater)
  case settledGrant => exact fun j hj hsettled => Coordinator.settled_refuses hj hsettled
  case resolvedCharge =>
    intro i _ hstatus
    exact ⟨Coordinator.releaseCharge_refused hstatus,
      Coordinator.quarantineCharge_refused hstatus,
      fun s idle hidle => Coordinator.publishIdle_refused hstatus s hidle⟩
  case unlisted => exact fun s token hnone => Coordinator.withdrawIdle_unlisted hnone
  case closed =>
    exact ⟨fun s listing hclosed => Coordinator.closeStore_closed hclosed listing,
      fun t hclosed => Coordinator.closeSession_closed hclosed⟩

def committingRun : List HostEvent := [
  .registerStore [97] [98] ⟨2, 2⟩,
  .registerSession 0 [99] ⟨2, 2⟩,
  .beginAdmission 0 ⟨.newRevision, [100], 0⟩ false,
  .claimOrResolve 0 false [],
  .commit 0]

theorem balanced_committingRun : ∃ host, carefulSystem.Reachable host ∧
    host.coordinator.counts (.used .process .stableHandle) = 1 ∧
    host.Balanced carefulSystem := by
  have hrun : ((start ⟨1, 4⟩).run committingRun).map (fun host =>
      host.coordinator.counts (.used .process .stableHandle)) = some 1 := by decide +kernel
  obtain ⟨host, hhost, hused⟩ := Option.map_eq_some_iff.mp hrun
  have hreach : carefulSystem.Reachable host :=
    reachable_run_careful (.of_init (starts_start (by decide))) (by simp [committingRun]) hhost
  exact ⟨host, hreach, hused, balanced_of_careful hreach⟩

/-! ### A share that is registered twice -/

/-- Two calls of `Close` wait for store 0. The first one closes it, the share is registered
again as store 1, and the second one deletes that registration, so that the share can be
registered once more as store 2. Store 1 has used its one stable handle when its next
admission claims the idle handle of store 2, which has the same share. -/
def reregisteringRun : List HostEvent := [
  .registerStore [97] [98] ⟨5, 5⟩,
  .registerSession 0 [99] ⟨5, 5⟩,
  .beginAdmission 0 ⟨.newRevision, [100], 0⟩ false,
  .closeStore 0 [],
  .closeStore 0 [],
  .closeSession 0,
  .claimOrResolve 0 false [],
  .wakeCloseSession 0,
  .wakeCloseStore 0,
  .registerStore [97] [98] ⟨1, 5⟩,
  .wakeCloseStore 0,
  .registerStore [97] [98] ⟨1, 5⟩,
  .registerSession 2 [99] ⟨5, 5⟩,
  .beginAdmission 2 ⟨.newRevision, [100], 1⟩ false,
  .claimOrResolve 1 false [],
  .commit 1,
  .publishIdle 2 ⟨[101], [100], 1, 1, some 0⟩,
  .registerSession 1 [99] ⟨5, 5⟩,
  .beginAdmission 1 ⟨.newRevision, [102], 2⟩ false,
  .claimOrResolve 2 false [0],
  .commit 2,
  .beginAdmission 1 ⟨.newRevision, [103], 2⟩ false,
  .claimOrResolve 3 false [0]]

/-- A store then uses more stable handles than its limit allows. -/
theorem limit_exceeded_reregisteringRun : ∃ host, system.Reachable host ∧
    host.coordinator.Allocated (.store 1) ∧
    ((host.coordinator.limitsOf (.store 1)).of .stableHandle).toNat <
      (host.coordinator.counts (.used (.store 1) .stableHandle)).toNat := by
  have hrun : ((start ⟨10, 10⟩).run reregisteringRun).map (fun host =>
      decide (1 < host.coordinator.storeStates.size) &&
        decide (((host.coordinator.limitsOf (.store 1)).of .stableHandle).toNat <
          (host.coordinator.counts (.used (.store 1) .stableHandle)).toNat)) = some true := by
    decide +kernel
  obtain ⟨host, hhost, hexceeds⟩ := Option.map_eq_some_iff.mp hrun
  rw [Bool.and_eq_true, decide_eq_true_eq, decide_eq_true_eq] at hexceeds
  exact ⟨host, reachable_run (.of_init (starts_start (by decide))) hhost, hexceeds.1, hexceeds.2⟩

end Host

end Windshare.RevisionCapacity
