import Windshare.RevisionCapacity.Admission

/-!
# What calls do to stores and charges

Records are only added. A store that is closing stays so, and a charge keeps its record until
a call gives it a final status. Each call is stated with the statuses that it can give.
-/

namespace Windshare.RevisionCapacity

open Windshare.Library

namespace Coordinator

/-- The records go from `c` to `c'`, where a charge gets a status only as `resolves` says. -/
structure Evolves (resolves : Ref → ChargeStatus → Prop) (c c' : Coordinator) : Prop where
  stores : c.storeStates.size ≤ c'.storeStates.size
  closing : ∀ s < c.storeStates.size, (c.store s).closing = true → (c'.store s).closing = true
  admissions : c.admissionStates.size ≤ c'.admissionStates.size
  claims : c.claimStates.size ≤ c'.claimStates.size
  charges : c.chargeStates.size ≤ c'.chargeStates.size
  charge : ∀ i < c.chargeStates.size, c'.charge i = c.charge i ∨
    ∃ status, resolves i status ∧ c'.charge i = (c.charge i).resolve status

variable {c c' d : Coordinator} {R Q : Ref → ChargeStatus → Prop} {i j k s t : Ref}

theorem Evolves.of_heaps (hstores : c'.storeStates = c.storeStates)
    (hcharges : c'.chargeStates = c.chargeStates)
    (hadmissions : c.admissionStates.size ≤ c'.admissionStates.size)
    (hclaims : c.claimStates.size ≤ c'.claimStates.size) : Evolves R c c' := by
  refine ⟨hstores ▸ le_rfl, ?_, hadmissions, hclaims, hcharges ▸ le_rfl, ?_⟩
  · intro s _ hclosing
    unfold store
    rw [hstores]
    exact hclosing
  · intro i _
    left
    unfold Coordinator.charge
    rw [hcharges]

theorem Evolves.refl (c : Coordinator) : Evolves R c c := .of_heaps rfl rfl le_rfl le_rfl

theorem Evolves.trans (h : Evolves R c d) (h' : Evolves R d c') : Evolves R c c' := by
  refine ⟨h.stores.trans h'.stores, ?_, h.admissions.trans h'.admissions,
    h.claims.trans h'.claims, h.charges.trans h'.charges, ?_⟩
  · exact fun s hs hclosing => h'.closing s (hs.trans_le h.stores) (h.closing s hs hclosing)
  · intro i hi
    obtain hsame | ⟨status, hstatus, hresolve⟩ := h'.charge i (hi.trans_le h.charges)
    · rw [hsame]
      exact h.charge i hi
    · refine .inr ⟨status, hstatus, ?_⟩
      rw [hresolve]
      obtain hsame | ⟨_, _, hfirst⟩ := h.charge i hi
      · rw [hsame]
      · rw [hfirst]
        rfl

theorem Evolves.down (h : Evolves R c d) (xs : List Counter) : Evolves R c (d.down xs) :=
  h.trans (.of_heaps rfl rfl le_rfl le_rfl)

theorem Evolves.up (h : Evolves R c d) (xs : List Counter) : Evolves R c (d.up xs) :=
  h.trans (.of_heaps rfl rfl le_rfl le_rfl)

theorem Evolves.addCharge (a : ChargeState) : Evolves R c (c.addCharge a) := by
  refine ⟨le_rfl, fun _ _ h => h, le_rfl, le_rfl, Nat.le_succ _, ?_⟩
  intro i hi
  exact .inl (c.chargeStates.get_alloc_of_lt hi)

theorem Evolves.modifyCharge (h : Evolves R c d) {status : ChargeStatus}
    (hR : R i status) : Evolves R c (d.modifyCharge i (·.resolve status)) := by
  refine h.trans ⟨le_rfl, fun _ _ h => h, le_rfl, le_rfl, le_rfl, ?_⟩
  intro k _
  have hget : (d.modifyCharge i (·.resolve status)).charge k =
      if k = i then (d.charge i).resolve status else d.charge k :=
    d.chargeStates.get_modify (f := (·.resolve status))
  rw [hget]
  split
  · rename_i heq
    subst heq
    exact .inr ⟨status, hR, rfl⟩
  · exact .inl rfl

theorem Evolves.modifyStore {f : StoreState → StoreState}
    (hf : ∀ a, a.closing = true → (f a).closing = true) : Evolves R c (c.modifyStore s f) := by
  refine ⟨le_rfl, ?_, le_rfl, le_rfl, le_rfl, fun _ _ => .inl rfl⟩
  intro i _ hclosing
  unfold Coordinator.store Coordinator.modifyStore
  rw [Heap.get_modify]
  split
  · rename_i heq
    subst heq
    exact hf _ hclosing
  · exact hclosing

/-! ### Registration and closing -/

theorem evolves_registerStore (storeID : StoreID) (shareID : ShareID) (limits : CapacityLimits) :
    Evolves R c (c.registerStore storeID shareID limits).1 := by
  unfold registerStore
  repeat' split
  any_goals exact .refl c
  refine ⟨Nat.le_succ _, ?_, le_rfl, le_rfl, le_rfl, fun _ _ => .inl rfl⟩
  intro s hs hclosing
  have hsame : (c.addStore (.new storeID shareID limits)).store s = c.store s :=
    c.storeStates.get_alloc_of_lt hs
  rw [hsame]
  exact hclosing

theorem evolves_registerSession (sessionID : SessionID) (limits : CapacityLimits) :
    Evolves R c (c.registerSession s sessionID limits).1 := by
  unfold registerSession
  repeat' split
  any_goals exact .refl c
  have hsessions := Evolves.modifyStore (R := R) (c := c) (s := s) (f := fun store =>
    store.setSessions (store.sessions.insert sessionID c.sessionStates.size)) fun _ h => h
  exact ⟨hsessions.stores, hsessions.closing, hsessions.admissions, hsessions.claims,
    hsessions.charges, hsessions.charge⟩

theorem evolves_withdraw : Evolves R c (c.withdraw k) := by
  unfold withdraw
  split <;> exact .of_heaps rfl rfl le_rfl le_rfl

theorem evolves_withdrawStoreCandidates (listing : List Ref) :
    Evolves R c (c.withdrawStoreCandidates s listing) := by
  unfold withdrawStoreCandidates
  induction listing generalizing c with
  | nil => exact .refl c
  | cons k listing ih =>
    rw [List.foldl_cons]
    refine Evolves.trans ?_ ih
    split
    · exact .refl c
    · exact evolves_withdraw

theorem evolves_awaitCloseStore : Evolves R c (c.awaitCloseStore s).1 := by
  unfold awaitCloseStore
  repeat' split
  any_goals exact .refl c
  have hfinish := Evolves.modifyStore (R := R) (c := c) (s := s) (f := (·.finishClose)) fun _ h => h
  exact ⟨hfinish.stores, hfinish.closing, hfinish.admissions, hfinish.claims, hfinish.charges,
    hfinish.charge⟩

theorem evolves_closeStore (listing : List Ref) : Evolves R c (c.closeStore s listing).1 := by
  unfold closeStore
  split
  · exact .refl c
  · exact ((Evolves.modifyStore fun _ _ => rfl).trans
      (evolves_withdrawStoreCandidates listing)).trans evolves_awaitCloseStore

/-- A call of `Close` that does not return at once has marked the store. -/
theorem closing_closeStore (hs : s < c.storeStates.size) (hopen : (c.store s).closed = false)
    (listing : List Ref) : ((c.closeStore s listing).1.store s).closing = true := by
  have hlater : Evolves (fun _ _ => False) (c.modifyStore s (·.beginClose))
      (c.closeStore s listing).1 := by
    unfold closeStore
    rw [hopen]
    exact (evolves_withdrawStoreCandidates listing).trans evolves_awaitCloseStore
  refine hlater.closing s hs ?_
  have hget : (c.modifyStore s (·.beginClose)).store s = (c.store s).beginClose :=
    c.storeStates.get_modify_self (f := (·.beginClose))
  rw [hget]
  rfl

theorem evolves_awaitCloseSession : Evolves R c (c.awaitCloseSession t).1 := by
  unfold awaitCloseSession
  split
  · exact .refl c
  split
  · exact .refl c
  · refine Evolves.trans ?_ (Evolves.modifyStore ?_)
    · exact .of_heaps rfl rfl le_rfl le_rfl
    · exact fun _ h => h

theorem evolves_closeSession : Evolves R c (c.closeSession t).1 := by
  unfold closeSession
  split
  · exact .refl c
  · refine Evolves.trans ?_ evolves_awaitCloseSession
    exact .of_heaps rfl rfl le_rfl le_rfl

theorem evolves_closeOwner : Evolves R c c.closeOwner.1 := by
  unfold closeOwner
  repeat' split
  all_goals exact .of_heaps rfl rfl le_rfl le_rfl

/-! ### Candidates -/

theorem evolves_publishIdle (idle : IdleCandidate) : Evolves R c (c.publishIdle s idle).1 := by
  unfold publishIdle
  repeat' split
  all_goals exact .of_heaps rfl rfl le_rfl le_rfl

theorem evolves_withdrawIdle (token : CandidateToken) : Evolves R c (c.withdrawIdle s token).1 := by
  unfold withdrawIdle
  split
  · exact .refl c
  split
  · exact .refl c
  · exact evolves_withdraw

theorem evolves_oldestCandidate (shareBlocked : Bool) (listing : List Ref) :
    Evolves R c (c.oldestCandidate s shareBlocked listing).1 := by
  have hloop : ∀ (listing : List Ref) (d : Coordinator × Option Ref),
      Evolves R d.1 (listing.foldl (fun d k => d.1.consider s shareBlocked d.2 k) d).1 := by
    intro listing
    induction listing with
    | nil => exact fun d => .refl d.1
    | cons k listing ih =>
      intro d
      rw [List.foldl_cons]
      refine Evolves.trans ?_ (ih _)
      unfold consider
      repeat' split
      all_goals exact .of_heaps rfl rfl le_rfl le_rfl
  exact hloop listing (c, none)

/-! ### Admissions -/

theorem evolves_beginAdmission (request : AdmissionRequest) (contextDone : Bool) :
    Evolves R c (c.beginAdmission s request contextDone).1 := by
  unfold beginAdmission
  repeat' split
  any_goals exact .of_heaps rfl rfl le_rfl le_rfl
  exact .of_heaps rfl rfl (Nat.le_succ _) le_rfl

theorem evolves_rollback : Evolves R c (c.rollbackAdmission j) := by
  unfold rollbackAdmission
  split <;> exact .of_heaps rfl rfl le_rfl le_rfl

theorem evolves_grantAvailable : Evolves R c (c.grantAvailable j) := by
  unfold grantAvailable
  split <;> exact .of_heaps rfl rfl le_rfl le_rfl

theorem evolves_claimOrResolve (contextDone : Bool) (listing : List Ref) :
    Evolves R c (c.claimOrResolve j contextDone listing).1 := by
  unfold claimOrResolve
  split
  · exact evolves_rollback
  split
  · exact evolves_grantAvailable
  have holdest := evolves_oldestCandidate (R := R) (c := c) (s := (c.admission j).store)
    (c.shareBlocked (c.admission j).store) listing
  split
  · rename_i c' heq
    rw [heq] at holdest
    exact holdest.trans evolves_rollback
  · rename_i c' k heq
    rw [heq] at holdest
    exact holdest.trans (.of_heaps rfl rfl le_rfl (Nat.le_succ _))

theorem evolves_abandonClaim (p : PendingReclaim) : Evolves R c (c.abandonClaim p) := by
  unfold abandonClaim
  repeat' split
  all_goals exact .of_heaps rfl rfl le_rfl le_rfl

theorem evolves_cancelBeforeReclaim (p : PendingReclaim) (contextDone : Bool) :
    Evolves R c (c.cancelBeforeReclaim j p contextDone).1 := by
  unfold cancelBeforeReclaim
  split
  · exact .refl c
  · exact (evolves_abandonClaim p).trans evolves_rollback

/-! ### Charges -/

theorem evolves_newCharges (a : AdmissionState) : Evolves R c (c.newCharges a).1 := by
  have hnew : ∀ (d : Coordinator) required s session kind,
      Evolves R d (d.newChargeIf required s session kind).1 := by
    intro d required s session kind
    unfold newChargeIf
    split
    · exact (Evolves.addCharge _).up _
    · exact .refl d
  exact ((hnew ..).trans (hnew ..)).trans (hnew ..)

theorem evolves_commit : Evolves R c (c.commit j).1 := by
  unfold commit
  split
  · exact .refl c
  split
  · exact .refl c
  split
  · exact .refl c
  · refine Evolves.trans ?_ (evolves_newCharges _)
    exact .of_heaps rfl rfl le_rfl le_rfl

theorem evolves_abort : Evolves R c (c.abort j).1 := by
  unfold abort
  split
  · exact .refl c
  split
  · exact .refl c
  · exact evolves_rollback

theorem evolves_quarantineStableHandle : Evolves R c (c.quarantineStableHandle j).1 := by
  unfold quarantineStableHandle
  repeat' split
  all_goals exact .of_heaps rfl rfl le_rfl le_rfl

theorem evolves_dropCandidate : Evolves R c (c.dropCandidate i) := by
  unfold dropCandidate
  cases c.byCharge.get? i <;> exact .of_heaps rfl rfl le_rfl le_rfl

theorem evolves_endCharge (h : Evolves R c d) {status : ChargeStatus} (hR : R i status) :
    Evolves R c (d.endCharge i status) :=
  (h.modifyCharge hR).down _

theorem active_of_resolvedError {status : ChargeStatus} (h : resolvedError status = none) :
    status = .active := by
  cases status <;> first | rfl | cases h

/-- The active charge `i` gets the status. -/
def Ends (c : Coordinator) (i : Ref) (status : ChargeStatus) : Ref → ChargeStatus → Prop :=
  fun k new => k = i ∧ (c.charge i).status = .active ∧ new = status

theorem evolves_releaseCharge (expected : ChargeKind) :
    Evolves (c.Ends i .released) c (c.releaseCharge i expected).1 := by
  unfold releaseCharge
  split
  · exact .refl c
  split
  · exact .refl c
  split
  · exact .refl c
  rename_i hactive
  split
  · exact .refl c
  · have hends : c.Ends i .released i .released := ⟨rfl, active_of_resolvedError hactive, rfl⟩
    exact evolves_endCharge (evolves_dropCandidate.down _) hends

theorem evolves_quarantineCharge : Evolves (c.Ends i .quarantined) c (c.quarantineCharge i).1 := by
  unfold quarantineCharge
  split
  · exact .refl c
  split
  · exact .refl c
  split
  · exact .refl c
  rename_i hactive
  split
  · exact .refl c
  · have hends : c.Ends i .quarantined i .quarantined :=
      ⟨rfl, active_of_resolvedError hactive, rfl⟩
    exact (evolves_endCharge evolves_dropCandidate hends).up _

/-! ### Reclaim results -/

section Finish

variable {p : PendingReclaim} {result : ReclaimResult}

section

variable (hclaim : (c.candidate p.candidate).claim = some p.claim)

include hclaim

theorem finishClaim_of_declines
    (h : result.Declines p) (requester : Ref) : c.finishClaim p result requester =
      ((c.dropClaim p.candidate).returnShare p.crossStoreShareReservation requester,
        .declined) := by
  unfold finishClaim
  rw [if_neg (not_not.mpr hclaim), if_neg (not_not.mpr h.1), h.2]

theorem finishClaim_of_completes (h : result.Completes p) (requester : Ref) :
    c.finishClaim p result requester = (c.dropClaim p.candidate, .completed) := by
  unfold finishClaim
  rw [if_neg (not_not.mpr hclaim), if_neg (not_not.mpr h.1), h.2]

/-- Every other result leaves the ownership uncertain. -/
theorem finishClaim_of_uncertain
    (hcompletes : ¬ result.Completes p) (hdeclines : ¬ result.Declines p) (requester : Ref) :
    ∃ cause, c.finishClaim p result requester = (c.dropClaim p.candidate, .uncertain cause) := by
  unfold finishClaim
  rw [if_neg (not_not.mpr hclaim)]
  by_cases hmatches : result.claim = some p.claim
  case neg =>
    rw [if_pos hmatches]
    exact ⟨_, rfl⟩
  case pos =>
    rw [if_neg (not_not.mpr hmatches)]
    cases hkind : result.kind with
    | declined => exact absurd ⟨hmatches, hkind⟩ hdeclines
    | completed => exact absurd ⟨hmatches, hkind⟩ hcompletes
    | uncertain | none => exact ⟨_, rfl⟩

end

/-- The records after `finishReclaim`: the victim gets the status, if there is one. -/
structure Finishes (c : Coordinator) (p : PendingReclaim) (status : Option ChargeStatus)
    (c' : Coordinator) : Prop where
  stores : c'.storeStates = c.storeStates
  admissions : c'.admissionStates.size = c.admissionStates.size
  claims : c'.claimStates = c.claimStates
  charges : c'.chargeStates = status.elim c.chargeStates fun status =>
    c.chargeStates.modify (c.candidate p.candidate).charge (·.resolve status)

variable {status : Option ChargeStatus}

theorem Finishes.evolves (h : c.Finishes p status c')
    (hR : ∀ new, status = some new → R (c.candidate p.candidate).charge new) :
    Evolves R c c' := by
  have hheaps : ∀ {d : Coordinator}, Evolves R c d → d.storeStates = c.storeStates →
      d.chargeStates = c'.chargeStates → d.admissionStates = c.admissionStates →
      d.claimStates = c.claimStates → Evolves R c c' := by
    intro d hd hstores hcharges hadmissions hclaims
    exact hd.trans (.of_heaps (h.stores.trans hstores.symm) hcharges.symm
      (by rw [hadmissions, h.admissions]) (by rw [hclaims, h.claims]))
  cases status with
  | none => exact hheaps (.refl c) rfl h.charges.symm rfl rfl
  | some status =>
    exact hheaps ((Evolves.refl c).modifyCharge (hR status rfl)) rfl h.charges.symm rfl rfl

theorem finishes_resolveVictim (status : ChargeStatus) :
    c.Finishes p (some status) ((c.dropClaim p.candidate).resolveVictim p.candidate status) := by
  have hcandidate : (c.dropClaim p.candidate).candidate p.candidate =
      (c.candidate p.candidate).setClaim none :=
    c.candidateStates.get_modify_self (f := (·.setClaim none))
  have hcharge : ((c.dropClaim p.candidate).candidate p.candidate).charge =
      (c.candidate p.candidate).charge := by
    rw [hcandidate]
    rfl
  refine ⟨rfl, rfl, rfl, ?_⟩
  unfold resolveVictim
  rw [hcharge]
  rfl

theorem Finishes.of_same (h : c.Finishes p status d)
    (hstores : c'.storeStates = d.storeStates)
    (hadmissions : c'.admissionStates.size = d.admissionStates.size)
    (hclaims : c'.claimStates = d.claimStates) (hcharges : c'.chargeStates = d.chargeStates) :
    c.Finishes p status c' :=
  ⟨hstores.trans h.stores, hadmissions.trans h.admissions, hclaims.trans h.claims,
    hcharges.trans h.charges⟩

theorem Finishes.rollback
    (h : c.Finishes p status d) : c.Finishes p status (d.rollbackAdmission j) := by
  unfold rollbackAdmission
  split
  · exact h
  · exact ⟨h.stores, h.admissions, h.claims, h.charges⟩

theorem finishReclaim_cases (hclaim : (c.candidate p.candidate).claim = some p.claim)
    (result : ReclaimResult) (contextDone : Bool) :
    result.Declines p ∧ (c.finishReclaim j p result contextDone).2 ≠ .granted ∧
      c.Finishes p none (c.finishReclaim j p result contextDone).1 ∨
    result.Completes p ∧ (c.finishReclaim j p result contextDone).2 = .granted ∧
      c.Finishes p (some .transferred) (c.finishReclaim j p result contextDone).1 ∨
    result.Completes p ∧ (c.finishReclaim j p result contextDone).2 ≠ .granted ∧
      c.Finishes p (some .released) (c.finishReclaim j p result contextDone).1 ∨
    ¬ result.Completes p ∧ ¬ result.Declines p ∧
      (c.finishReclaim j p result contextDone).2 ≠ .granted ∧
      c.Finishes p (some .quarantined) (c.finishReclaim j p result contextDone).1 := by
  by_cases hdeclines : result.Declines p
  · refine .inl ⟨hdeclines, ?_⟩
    unfold finishReclaim
    rw [finishClaim_of_declines hclaim hdeclines]
    dsimp only
    split
    · exact ⟨by simp, .rollback ⟨rfl, rfl, rfl, rfl⟩⟩
    · exact ⟨by simp, rfl, rfl, rfl, rfl⟩
  by_cases hcompletes : result.Completes p
  · unfold finishReclaim
    rw [finishClaim_of_completes hclaim hcompletes]
    dsimp only
    split
    · refine .inr (.inr (.inl ⟨hcompletes, by simp, .rollback ?_⟩))
      exact (finishes_resolveVictim .released).of_same rfl rfl rfl rfl
    · refine .inr (.inl ⟨hcompletes, rfl, ?_⟩)
      exact (finishes_resolveVictim .transferred).of_same rfl rfl rfl rfl
  · refine .inr (.inr (.inr ⟨hcompletes, hdeclines, ?_⟩))
    obtain ⟨cause, hfinish⟩ :=
      finishClaim_of_uncertain hclaim hcompletes hdeclines (c.admission j).store
    unfold finishReclaim
    rw [hfinish]
    refine ⟨by simp, .rollback ?_⟩
    exact (finishes_resolveVictim .quarantined).of_same rfl rfl rfl rfl

end Finish

end Coordinator

end Windshare.RevisionCapacity
