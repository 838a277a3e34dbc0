import Windshare.RevisionCapacity.Totals

/-!
# A reclaimed unit changes hands once

The unit of an idle stable handle is passed on only when the target reported that the handle
is closed. In every interleaving a charge has at most one claim in flight, a claim that ended
in another way gives no grant and does not come back, and the unit of a victim whose state is
uncertain stays charged to the process.
-/

namespace Windshare.RevisionCapacity

open Windshare.Library

namespace Host

/-- What holds of reclaims at a state of a run and over its next step. -/
structure ReclaimSafety (host : Host) : Prop where
  /-- At most one claim is in flight for a charge. -/
  exclusive : ∀ j < host.coordinator.admissionStates.size,
    ∀ j' < host.coordinator.admissionStates.size, ∀ p p', (host.phases j).claim? = some p →
    (host.phases j').claim? = some p' → (host.coordinator.candidate p.candidate).charge =
      (host.coordinator.candidate p'.candidate).charge → j = j' ∧ p = p'
  /-- A grant takes free capacity, or the unit of a victim whose reclaim completed. -/
  granted : ∀ event next j, system.step host event next → next.phases j = .granted →
    host.phases j ≠ .granted →
    (∃ contextDone listing, event = .claimOrResolve j contextDone listing ∧
      host.phases j = .reserving ∧
      ((host.coordinator.admission j).requirements.stableHandle = false ∨
        host.coordinator.shareBlocked (host.coordinator.admission j).store = false ∧
          host.coordinator.processBlocked = false)) ∨
    ∃ call contextDone p, event = .finishReclaim j call contextDone ∧
      host.phases j = .reclaiming p ∧ (invokeReclaimTarget p.claim call).Completes p ∧
      (host.coordinator.victim p.candidate).status = .active ∧
      (next.coordinator.charge (host.coordinator.candidate p.candidate).charge).status =
        .transferred
  /-- A charge is passed on only to the admission whose claim completed. -/
  transferred : ∀ event next, system.step host event next →
    ∀ i < host.coordinator.chargeStates.size, (host.coordinator.charge i).status ≠ .transferred →
    (next.coordinator.charge i).status = .transferred →
    ∃ j call contextDone p, event = .finishReclaim j call contextDone ∧
      host.phases j = .reclaiming p ∧ (host.coordinator.candidate p.candidate).charge = i ∧
      (invokeReclaimTarget p.claim call).Completes p ∧ next.phases j = .granted
  /-- A claim that ends is over, and it gives a grant only when it completed. -/
  resolved : ∀ event next j p, system.step host event next →
    j < host.coordinator.admissionStates.size → (host.phases j).claim? = some p →
    (next.phases j).claim? ≠ some p →
    (next.phases j = .granted → ∃ call contextDone, event = .finishReclaim j call contextDone ∧
      (invokeReclaimTarget p.claim call).Completes p) ∧
    ∀ later, system.Later next later → ∀ i q, (later.phases i).claim? = some q → q.claim ≠ p.claim
  /-- The victim of an uncertain reclaim stays quarantined. -/
  uncertain : ∀ next j call contextDone p,
    system.step host (.finishReclaim j call contextDone) next → host.phases j = .reclaiming p →
    ¬ (invokeReclaimTarget p.claim call).Completes p →
    ¬ (invokeReclaimTarget p.claim call).Declines p → next.phases j = .ended .failed ∧
      ∀ later, system.Later next later →
        (host.coordinator.candidate p.candidate).charge < later.coordinator.chargeStates.size ∧
        (later.coordinator.charge (host.coordinator.candidate p.candidate).charge).status =
          .quarantined
  /-- A panic of the target leaves its claim uncertain. -/
  panicked : ∀ claim message p, ¬ (invokeReclaimTarget claim (.panicked message)).Completes p ∧
    ¬ (invokeReclaimTarget claim (.panicked message)).Declines p
  /-- The process count includes every quarantined charge. -/
  charged : (host.coordinator.counts (.used .process .stableHandle)).toNat =
    host.coordinator.activeCharges .process .stableHandle +
      host.coordinator.reservations .process .stableHandle +
      host.coordinator.quarantinedCharges .process +
      host.coordinator.quarantinedGrants host.phases .process

variable {host next : Host} {event : HostEvent} {good : Prop} {i j : Ref}

/-- A panic of the target neither completes nor declines the claim. -/
theorem invokeReclaimTarget_panicked (claim : Ref) (message : Text) (p : PendingReclaim) :
    ¬ (invokeReclaimTarget claim (.panicked message)).Completes p ∧
      ¬ (invokeReclaimTarget claim (.panicked message)).Declines p := by
  constructor
  · rintro ⟨-, hkind⟩
    cases hkind
  · rintro ⟨-, hkind⟩
    cases hkind

/-! ### Charges -/

theorem Sound.claim_unique (h : host.Sound good) {j' : Ref}
    (hj : j < host.coordinator.admissionStates.size)
    (hj' : j' < host.coordinator.admissionStates.size) {p p' : PendingReclaim}
    (hp : (host.phases j).claim? = some p) (hp' : (host.phases j').claim? = some p')
    (hcharge : (host.coordinator.candidate p.candidate).charge =
      (host.coordinator.candidate p'.candidate).charge) : j = j' ∧ p = p' := by
  have hlisted := h.coordinator.listed
  have hflight := h.coordinator.phased.inFlight j hj p hp
  have hflight' := h.coordinator.phased.inFlight j' hj' p' hp'
  have hvictim := (h.coordinator.toConsistent.victim hj hp).1
  have hvictim' := (h.coordinator.toConsistent.victim hj' hp').1
  have hfirst := (hlisted.byCharge _ _).mpr ⟨hflight.candidate, hvictim, rfl⟩
  have hsecond := (hlisted.byCharge _ _).mpr ⟨hflight'.candidate, hvictim', hcharge.symm⟩
  have hcandidate : p.candidate = p'.candidate := Option.some.inj (hfirst.symm.trans hsecond)
  obtain rfl := h.coordinator.phased.unique j hj j' hj' p p' hp hp' hcandidate
  rw [hp] at hp'
  exact ⟨rfl, Option.some.inj hp'⟩

/-- A charge with a final status keeps it. -/
theorem Sound.charge_perform (h : host.Sound good) (hallows : host.Allows event)
    (hi : i < host.coordinator.chargeStates.size)
    (hstatus : (host.coordinator.charge i).status ≠ .active) :
    (host.perform event).coordinator.charge i = host.coordinator.charge i := by
  obtain hsame | ⟨status, hends, -⟩ := (h.evolves hallows).charge i hi
  · exact hsame
  exfalso
  cases event with
  | release | quarantine => exact hstatus (hends.1 ▸ hends.2.1)
  | finishReclaim =>
    obtain ⟨p, hp, rfl, -⟩ := hends
    exact hstatus (h.coordinator.toConsistent.victim_active hallows.1 hp)
  | _ => exact hends

theorem quarantined_of_later (hreach : system.Reachable host)
    (hi : i < host.coordinator.chargeStates.size)
    (hstatus : (host.coordinator.charge i).status = .quarantined)
    (hlater : system.Later host next) : i < next.coordinator.chargeStates.size ∧
      (next.coordinator.charge i).status = .quarantined := by
  refine hlater.stable_of_reachable hreach (P := fun x => i < x.coordinator.chargeStates.size ∧
    (x.coordinator.charge i).status = .quarantined) ⟨hi, hstatus⟩ ?_
  rintro x event y hx ⟨hi, hstatus⟩ ⟨hallows, rfl⟩
  have hsound := sound_of_reachable hx
  refine ⟨hi.trans_le (hsound.evolves hallows).charges, ?_⟩
  rw [hsound.charge_perform hallows hi (by rw [hstatus]; simp)]
  exact hstatus

/-! ### Claims -/

/-- A claim that no admission holds is not held later. -/
theorem claim_over_of_later (hreach : system.Reachable host) {k : Ref}
    (hk : k < host.coordinator.claimStates.size)
    (hover : ∀ i q, (host.phases i).claim? = some q → q.claim ≠ k)
    (hlater : system.Later host next) : ∀ i q, (next.phases i).claim? = some q → q.claim ≠ k := by
  refine (hlater.stable_of_reachable hreach (P := fun x => k < x.coordinator.claimStates.size ∧
    ∀ i q, (x.phases i).claim? = some q → q.claim ≠ k) ⟨hk, hover⟩ ?_).2
  rintro x event y hx ⟨hk, hover⟩ ⟨hallows, rfl⟩
  have hsound := sound_of_reachable hx
  refine ⟨hk.trans_le (hsound.evolves hallows).claims, fun i q hq => ?_⟩
  obtain hold | ⟨-, hfresh⟩ := hsound.claim_perform hallows hq
  · exact hover i q hold
  · rw [hfresh]
    exact Nat.ne_of_gt hk

variable {p : PendingReclaim} {contextDone : Bool} {call : TargetCall} {result : ReclaimResult}

/-- After the step that ends a claim no admission holds it. -/
theorem claim_over_perform (hreach : system.Reachable host) (hallows : host.Allows event)
    (hp : (host.phases j).claim? = some p)
    (hended : ((host.perform event).phases j).claim? ≠ some p) (i : Ref) (q : PendingReclaim)
    (hq : ((host.perform event).phases i).claim? = some q) : q.claim ≠ p.claim := by
  have hsound := sound_of_reachable hreach
  have hj := allocated_of_reachable hreach hp
  have hflight := hsound.coordinator.phased.inFlight j hj p hp
  obtain hold | ⟨-, hfresh⟩ := hsound.claim_perform hallows hq
  · intro heq
    obtain rfl := claims_distinct hreach hold hp heq
    rw [hp] at hold
    cases hold
    exact hended hq
  · rw [hfresh]
    exact Nat.ne_of_gt hflight.allocated

/-! ### The result -/

theorem claimsAcross_process {c : Coordinator} {phases : Ref → AdmissionPhase}
    {r : CapacityResource} : c.claimsAcross phases .process r = 0 := by
  refine tally_eq_zero fun j _ => ?_
  simp

theorem AdmissionStep.eq_granted {step : AdmissionStep} (h : step.phase = .granted) :
    step = .granted := by
  cases step <;> first | rfl | cases h

theorem Finishes.victim {c c' : Coordinator} {status : ChargeStatus}
    (h : c.Finishes p (some status) c') :
    (c'.charge (c.candidate p.candidate).charge).status = status := by
  unfold Coordinator.charge
  rw [h.charges]
  exact congrArg ChargeState.status (c.chargeStates.get_modify_self (f := (·.resolve status)))

/-- How a claim ends when its target was called. -/
inductive Finish (host next : Host) (j : Ref) (p : PendingReclaim) (result : ReclaimResult) : Prop
  | declined (hdeclines : result.Declines p) (hphase : next.phases j ≠ .granted)
  | transferred (hcompletes : result.Completes p) (hphase : next.phases j = .granted)
      (hvictim : (next.coordinator.charge
        (host.coordinator.candidate p.candidate).charge).status = .transferred)
  | released (hcompletes : result.Completes p) (hphase : next.phases j ≠ .granted)
      (hvictim : (next.coordinator.charge
        (host.coordinator.candidate p.candidate).charge).status = .released)
  | quarantined (hcompletes : ¬ result.Completes p) (hdeclines : ¬ result.Declines p)
      (hphase : next.phases j ≠ .granted)
      (hvictim : (next.coordinator.charge
        (host.coordinator.candidate p.candidate).charge).status = .quarantined)

theorem perform_finishReclaim (hphase : host.phases j = .reclaiming p) :
    host.perform (.finishReclaim j call contextDone) =
      host.finish j p (invokeReclaimTarget p.claim call) contextDone := by
  have hp : (host.phases j).claim? = some p := by rw [hphase]; rfl
  unfold Host.perform
  dsimp only
  rw [hp]

theorem phases_finish : (host.finish j p result contextDone).phases j =
      (host.coordinator.finishReclaim j p result contextDone).2.phase := Function.update_self ..

theorem Sound.finish (h : host.Sound good)
    (hallows : host.Allows (.finishReclaim j call contextDone))
    (hphase : host.phases j = .reclaiming p) :
    host.Finish (host.perform (.finishReclaim j call contextDone)) j p
      (invokeReclaimTarget p.claim call) := by
  have hp : (host.phases j).claim? = some p := by rw [hphase]; rfl
  have hclaim := (h.coordinator.phased.inFlight j hallows.1 p hp).claim
  have hnot : ∀ {step : AdmissionStep}, step ≠ .granted → step.phase ≠ .granted :=
    fun hstep hphase => hstep (AdmissionStep.eq_granted hphase)
  rw [perform_finishReclaim hphase]
  obtain ⟨hdeclines, hstep, -⟩ | ⟨hcompletes, hstep, hends⟩ | ⟨hcompletes, hstep, hends⟩ |
      ⟨hcompletes, hdeclines, hstep, hends⟩ :=
    Coordinator.finishReclaim_cases (j := j) hclaim (invokeReclaimTarget p.claim call) contextDone
  · exact .declined hdeclines (phases_finish ▸ hnot hstep)
  · refine .transferred hcompletes ?_ (Finishes.victim hends)
    rw [phases_finish, hstep]
    rfl
  · exact .released hcompletes (phases_finish ▸ hnot hstep) (Finishes.victim hends)
  · exact .quarantined hcompletes hdeclines (phases_finish ▸ hnot hstep) (Finishes.victim hends)

theorem not_completes_of_declines (h : result.Declines p) : ¬ result.Completes p := by
  rintro ⟨-, hkind⟩
  rw [h.2] at hkind
  cases hkind

theorem Sound.transferred_perform (h : host.Sound good) (hallows : host.Allows event)
    (hi : i < host.coordinator.chargeStates.size)
    (hold : (host.coordinator.charge i).status ≠ .transferred)
    (hnew : ((host.perform event).coordinator.charge i).status = .transferred) :
    ∃ j call contextDone p, event = .finishReclaim j call contextDone ∧
      host.phases j = .reclaiming p ∧ (host.coordinator.candidate p.candidate).charge = i ∧
      (invokeReclaimTarget p.claim call).Completes p ∧
      (host.perform event).phases j = .granted := by
  obtain hsame | ⟨status, hends, hresolve⟩ := (h.evolves hallows).charge i hi
  · rw [hsame] at hnew
    exact absurd hnew hold
  obtain rfl : status = .transferred := by
    rw [hresolve] at hnew
    exact hnew
  cases event with
  | release | quarantine => cases hends.2.2
  | finishReclaim j call contextDone =>
    obtain ⟨p, hp, rfl, hreport⟩ := hends
    obtain ⟨p', hphase⟩ := hallows.2
    rw [hphase] at hp
    cases hp
    refine ⟨j, call, contextDone, p, rfl, hphase, rfl, ?_⟩
    cases h.finish hallows hphase with
    | transferred hcompletes hgranted => exact ⟨hcompletes, hgranted⟩
    | released _ _ hvictim | quarantined _ _ _ hvictim => rw [hnew] at hvictim; cases hvictim
    | declined hdeclines =>
      obtain ⟨hcompletes, -⟩ | ⟨-, hnot, -⟩ := hreport
      · exact absurd hcompletes (not_completes_of_declines hdeclines)
      · exact absurd hdeclines hnot
  | _ => exact hends.elim

/-- Whatever the callers and the targets do, a unit of a stable handle that an idle revision
holds is granted to another requester only after the reclaim of that handle completed. -/
theorem reclaim_safety (h : system.Reachable host) : host.ReclaimSafety := by
  have hsound := sound_of_reachable h
  constructor
  case exclusive =>
    intro j hj j' hj' p p' hp hp' hcharge
    exact hsound.claim_unique hj hj' hp hp' hcharge
  case granted =>
    rintro event next j ⟨hallows, rfl⟩ hnew hold
    obtain hfree | ⟨call, contextDone, p, rfl, hphase, hcompletes⟩ :=
      hsound.granted_perform hallows hnew hold
    · exact .inl hfree
    · refine .inr ⟨call, contextDone, p, rfl, hphase, hcompletes,
        hsound.coordinator.toConsistent.victim_active hallows.1 (by rw [hphase]; rfl), ?_⟩
      cases hsound.finish hallows hphase with
      | transferred _ _ hvictim => exact hvictim
      | declined _ hgranted | released _ hgranted | quarantined _ _ hgranted =>
        exact absurd hnew hgranted
  case transferred =>
    rintro event next ⟨hallows, rfl⟩ i hi hold hnew
    exact hsound.transferred_perform hallows hi hold hnew
  case resolved =>
    rintro event next j p ⟨hallows, rfl⟩ hj hp hended
    constructor
    · intro hgranted
      have hold : host.phases j ≠ .granted := fun hphase => by rw [hphase] at hp; cases hp
      obtain ⟨_, _, _, hphase, -⟩ | ⟨call, contextDone, q, rfl, hphase, hcompletes⟩ :=
        hsound.granted_perform hallows hgranted hold
      · rw [hphase] at hp
        cases hp
      · rw [hphase] at hp
        cases hp
        exact ⟨call, contextDone, rfl, hcompletes⟩
    · intro later hlater
      have hallocated := (hsound.coordinator.phased.inFlight j hj p hp).allocated
      exact claim_over_of_later (h.step ⟨hallows, rfl⟩)
        (hallocated.trans_le (hsound.evolves hallows).claims)
        (claim_over_perform h hallows hp hended) hlater
  case uncertain =>
    rintro next j call contextDone p ⟨hallows, rfl⟩ hphase hcompletes hdeclines
    have hp : (host.phases j).claim? = some p := by rw [hphase]; rfl
    have hlt := (hsound.coordinator.toConsistent.victim hallows.1 hp).2.1
    constructor
    · have hturns : host.Turns (.finishReclaim j call contextDone) j _ :=
        hsound.turns_finishReclaim hallows.1 hphase
      rw [perform_finishReclaim hphase, phases_finish]
      generalize (host.coordinator.finishReclaim j p _ contextDone).2.phase = phase at hturns
      cases hturns with
      | transfer hphase' hcompleted =>
        rw [hphase] at hphase'
        cases hphase'
        exact absurd hcompleted hcompletes
      | retry hphase' hdeclined =>
        rw [hphase] at hphase'
        cases hphase'
        exact absurd hdeclined hdeclines
      | fail => rfl
    · intro later hlater
      cases hsound.finish hallows hphase with
      | declined hdeclined => exact absurd hdeclined hdeclines
      | transferred hcompleted | released hcompleted => exact absurd hcompleted hcompletes
      | quarantined _ _ _ hvictim =>
        exact quarantined_of_later (h.step ⟨hallows, rfl⟩)
          (hlt.trans_le (hsound.evolves hallows).charges) hvictim hlater
  case panicked => exact invokeReclaimTarget_panicked
  case charged =>
    rw [hsound.coordinator.toNat_counts Coordinator.number_used
      hsound.coordinator.usedUnits_process_lt]
    unfold Coordinator.usedUnits Coordinator.quarantinedUnits
    rw [claimsAcross_process, if_pos rfl]
    omega

/-- A process with one stable handle, which one revision keeps idle and another one claims. -/
def claimingRun : List HostEvent := [
  .registerStore [97] [98] ⟨2, 2⟩,
  .registerSession 0 [99] ⟨2, 2⟩,
  .beginAdmission 0 ⟨.newRevision, [100], 0⟩ false,
  .claimOrResolve 0 false [],
  .commit 0,
  .publishIdle 0 ⟨[101], [100], 1, 1, some 0⟩,
  .beginAdmission 0 ⟨.newRevision, [102], 0⟩ false,
  .claimOrResolve 1 false [0]]

theorem reclaim_safety_claimingRun : ∃ host, system.Reachable host ∧
    (host.phases 1).claim?.isSome = true ∧ host.ReclaimSafety := by
  have hrun : ((start ⟨1, 4⟩).run claimingRun).map (fun host => (host.phases 1).claim?.isSome) =
      some true := by decide +kernel
  obtain ⟨host, hhost, hclaim⟩ := Option.map_eq_some_iff.mp hrun
  have hreach : system.Reachable host := reachable_run (.of_init (starts_start (by decide))) hhost
  exact ⟨host, hreach, hclaim, reclaim_safety hreach⟩

/-! ### The end of a charge -/

/-- What becomes of a charge: nothing, or an active one is resolved. -/
def Settles (charge charge' : ChargeState) : Prop :=
  charge' = charge ∨ charge.status = .active ∧ ∃ status ≠ ChargeStatus.active,
    charge' = charge.resolve status

theorem Settles.trans {a b c : ChargeState} (h : Settles a b) (h' : Settles b c) :
    Settles a c := by
  obtain rfl | ⟨hactive, status, hstatus, rfl⟩ := h
  · exact h'
  · obtain rfl | ⟨hagain, -⟩ := h'
    · exact .inr ⟨hactive, status, hstatus, rfl⟩
    · exact absurd hagain hstatus

theorem Sound.settles (h : host.Sound good) (hallows : host.Allows event)
    (hi : i < host.coordinator.chargeStates.size) :
    Settles (host.coordinator.charge i) ((host.perform event).coordinator.charge i) := by
  obtain hsame | ⟨status, hends, hresolve⟩ := (h.evolves hallows).charge i hi
  · exact .inl hsame
  by_cases hactive : (host.coordinator.charge i).status = .active
  · refine .inr ⟨hactive, status, ?_, hresolve⟩
    rintro rfl
    cases event with
    | release | quarantine => cases hends.2.2
    | finishReclaim =>
      obtain ⟨p, -, -, ⟨-, hstatus | hstatus⟩ | ⟨-, -, hstatus⟩⟩ := hends
      all_goals cases hstatus
    | _ => exact hends
  · exact .inl (h.charge_perform hallows hi hactive)

/-- A charge is resolved at most once in a run, and nothing but its status changes then. -/
theorem charge_resolved_once (hreach : system.Reachable host) (hlater : system.Later host next)
    (hi : i < host.coordinator.chargeStates.size) :
    Settles (host.coordinator.charge i) (next.coordinator.charge i) := by
  refine (hlater.stable_of_reachable hreach (P := fun x => i < x.coordinator.chargeStates.size ∧
    Settles (host.coordinator.charge i) (x.coordinator.charge i)) ⟨hi, .inl rfl⟩ ?_).2
  rintro x event y hx ⟨hi, hold⟩ ⟨hallows, rfl⟩
  have hsound := sound_of_reachable hx
  exact ⟨hi.trans_le (hsound.evolves hallows).charges, hold.trans (hsound.settles hallows hi)⟩

/-- The charge of a committed revision is released. -/
theorem charge_resolved_once_released : ∃ host next : Host, system.Reachable host ∧
    (next.coordinator.charge 0).status = .released ∧
    Settles (host.coordinator.charge 0) (next.coordinator.charge 0) := by
  have hrun : ((start ⟨1, 4⟩).run (claimingRun.take 5)).map (fun host =>
      (host.allows (.release 0 .stableHandle), decide (0 < host.coordinator.chargeStates.size),
        ((host.perform (.release 0 .stableHandle)).coordinator.charge 0).status)) =
      some (true, true, .released) := by decide +kernel
  obtain ⟨host, hhost, hfacts⟩ := Option.map_eq_some_iff.mp hrun
  simp only [Prod.mk.injEq, decide_eq_true_eq] at hfacts
  obtain ⟨hallows, hsize, hstatus⟩ := hfacts
  have hreach : system.Reachable host := reachable_run (.of_init (starts_start (by decide))) hhost
  exact ⟨host, _, hreach, hstatus,
    charge_resolved_once hreach (.tail (.refl host) ⟨.of_allows hallows, rfl⟩) hsize⟩

end Host

end Windshare.RevisionCapacity
