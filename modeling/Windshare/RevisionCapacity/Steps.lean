import Windshare.RevisionCapacity.Phases

/-!
# Steps of the coordinator

Every method of the coordinator, as far as it changes anything, keeps the invariant.
-/

namespace Windshare.RevisionCapacity

open Windshare.Library

/-! ### What admissions hold -/

open Coordinator

/-- What an open admission holds beside its claim. -/
abbrev AdmissionState.requested (a : AdmissionState) : List Counter :=
  pendings a.store a.session ++ a.reservations

variable {a : AdmissionState} {phase : AdmissionPhase}

theorem holdings_unsettled (hsettled : a.settled = false) (hended : phase ≠ .ended .quarantined) :
    a.holdings phase = a.requested ++ phase.provisional a.store := by
  unfold AdmissionState.holdings
  rw [hsettled, if_neg hended]
  simp

theorem holdings_open (hsettled : a.settled = false) (hclaim : phase.claim? = none)
    (hphase : phase.isEnded = false) :
    a.holdings phase = a.requested := by
  rw [holdings_unsettled hsettled (by rintro rfl; cases hphase)]
  unfold AdmissionPhase.provisional
  rw [hclaim]
  exact List.append_nil _

variable {p : PendingReclaim}

theorem holdings_inFlight (hsettled : a.settled = false) (hclaim : phase.claim? = some p) :
    a.holdings phase = a.requested ++ provisionalShare p.crossStoreShareReservation a.store := by
  rw [holdings_unsettled hsettled (by rintro rfl; cases hclaim)]
  unfold AdmissionPhase.provisional
  rw [hclaim]
  rfl

theorem holdings_ended {outcome : AdmissionEnd} (hsettled : a.settled = true) :
    a.holdings (.ended outcome) =
      if outcome = .quarantined then quarantinedUnits a.store else [] := by
  have hprovisional : (AdmissionPhase.ended outcome).provisional a.store = [] := rfl
  unfold AdmissionState.holdings
  rw [hsettled, hprovisional]
  by_cases houtcome : outcome = .quarantined <;> simp [houtcome]

theorem reservations_of_unreserved (h : a.stableReserved = false) :
    a.reservations = nonStables a.store a.session a.requirements := by
  unfold AdmissionState.reservations
  rw [h]
  simp

theorem reservations_of_reserved (h : a.stableReserved = true) :
    a.reservations = nonStables a.store a.session a.requirements ++ stableHandles a.store := by
  unfold AdmissionState.reservations
  rw [h]
  simp

theorem holdings_granted (hsettled : a.settled = false) (hreserved : a.stableReserved = false) :
    (a.reserve true).holdings .granted =
      pendings a.store a.session ++ (a.reservations ++ stableHandles a.store) := by
  rw [holdings_open (a := a.reserve true) hsettled rfl rfl, AdmissionState.requested,
    reservations_of_reserved rfl, reservations_of_unreserved hreserved]
  rfl

namespace Coordinator

variable {c : Coordinator} {phases : Ref → AdmissionPhase} {j k : Ref} {good : Prop}

theorem Phased.unsettled (h : c.Phased phases) (hj : j < c.admissionStates.size)
    (hopen : (phases j).isEnded = false) : (c.admission j).settled = false :=
  (h.settled j hj).trans hopen

theorem Phased.unreserved (h : c.Phased phases) (hj : j < c.admissionStates.size)
    (hopen : (phases j).isEnded = false) (hgranted : phases j ≠ .granted) :
    (c.admission j).stableReserved = false := by
  rw [h.stableReserved j hj hopen, decide_eq_false hgranted, Bool.false_and]

theorem update_of_ne {new : AdmissionPhase} (i : Ref) (hne : i ≠ j) :
    Function.update phases j new i = phases i := Function.update_of_ne hne _ _

theorem room_of_gain {old new : List Counter} (gain : List Counter) (hnodup : gain.Nodup)
    {scope : Scope} {r : CapacityResource}
    (hfree : Counter.used scope r ∈ gain → c.atLimit scope r = false)
    (hnew : new.count (.used scope r) ≤
      old.count (.used scope r) + gain.count (.used scope r)) :
    new.count (.used scope r) ≤ old.count (.used scope r) ∨
      c.atLimit scope r = false ∧ new.count (.used scope r) ≤ old.count (.used scope r) + 1 := by
  by_cases hmem : Counter.used scope r ∈ gain
  · have hone := List.nodup_iff_count_le_one.mp hnodup (.used scope r)
    exact .inr ⟨hfree hmem, by omega⟩
  · rw [List.count_eq_zero_of_not_mem hmem] at hnew
    exact .inl hnew

theorem stableHandles_free {s : Ref} (hshare : c.atLimit (.store s) .stableHandle = false)
    (hprocess : c.atLimit .process .stableHandle = false) (scope : Scope) (r : CapacityResource)
    (hmem : Counter.used scope r ∈ stableHandles s) : c.atLimit scope r = false := by
  simp only [stableHandles, List.mem_cons, Counter.used.injEq, List.not_mem_nil, or_false] at hmem
  obtain ⟨rfl, rfl⟩ | ⟨rfl, rfl⟩ := hmem
  · exact hprocess
  · exact hshare

/-! ### Admissions without a claim -/

theorem Sound.advance (h : c.Sound good phases) (hj : j < c.admissionStates.size)
    (hopen : (phases j).isEnded = false) (hfree : (phases j).claim? = none)
    (new : AdmissionPhase) (hnew : new.claim? = none) {f : AdmissionState → AdmissionState}
    (hf : ∀ a, (f a).store = a.store ∧ (f a).session = a.session ∧
      (f a).requirements = a.requirements)
    (hsettled : (f (c.admission j)).settled = new.isEnded)
    (hreserved : new.isEnded = false → (f (c.admission j)).stableReserved =
      (decide (new = .granted) && (c.admission j).requirements.stableHandle))
    {c' : Coordinator} (hobjects : Recounts (c.modifyAdmission j f) c') {gain loss : List Counter}
    (hmoves : Moves c c' gain loss)
    (hunits : ∀ x, ((f (c.admission j)).holdings new).count x + loss.count x =
      (c.admission j).requested.count x + gain.count x)
    (hroom : (∀ scope r, gain.count (.used scope r) = 0) ∨ ∀ scope, c.Limited good scope → ∀ r,
      ((f (c.admission j)).holdings new).count (.used scope r) ≤
        (c.admission j).requested.count (.used scope r) ∨
      c.atLimit scope r = false ∧ ((f (c.admission j)).holdings new).count (.used scope r) ≤
        (c.admission j).requested.count (.used scope r) + 1) :
    c'.Sound good (Function.update phases j new) := by
  have hreplaces := replaces_admission (c := c)
    phases (Function.update phases j new) hj (f := f) update_of_ne
  rw [holdings_open (h.phased.unsettled hj hopen) hfree hopen, Function.update_self] at hreplaces
  exact h.step (hroom.elim (fun hgain => .of_units hobjects hreplaces hmoves hunits hgain)
    (.mk hobjects hreplaces hmoves hunits)) rfl rfl rfl rfl
    ⟨h.linked.modifyAdmission hf,
      h.phased.advance hfree new hnew (fun a => ⟨(hf a).1, (hf a).2.2⟩) hsettled hreserved,
      h.listed.of_same rfl rfl rfl rfl rfl⟩

/-- An open admission is rolled back. -/
theorem Sound.rollback (h : c.Sound good phases) (hj : j < c.admissionStates.size)
    (hopen : (phases j).isEnded = false) (hfree : (phases j).claim? = none)
    (outcome : AdmissionEnd) (houtcome : outcome ≠ .quarantined) :
    (c.rollbackAdmission j).Sound good (Function.update phases j (.ended outcome)) := by
  have hsettled := h.phased.unsettled hj hopen
  unfold rollbackAdmission
  rw [if_neg (by simp [hsettled])]
  have hmoves := (((Moves.refl c).down (if (c.admission j).stableReserved then
    stableHandles (c.admission j).store else [])).down (nonStables (c.admission j).store
      (c.admission j).session (c.admission j).requirements)).down
        (pendings (c.admission j).store (c.admission j).session)
  refine h.advance hj hopen hfree (.ended outcome)
    (f := (·.settle false)) rfl
    (fun _ => ⟨rfl, rfl, rfl⟩) rfl (fun hfalse => by cases hfalse) rfl hmoves ?_ (.inl (by simp))
  intro x
  rw [holdings_ended rfl, if_neg houtcome]
  unfold AdmissionState.requested AdmissionState.reservations
  simp only [List.count_append, List.count_nil]
  omega

/-- A grant with nothing to claim. -/
theorem Sound.grantAvailable (h : c.Sound good phases) (hj : j < c.admissionStates.size)
    (hphase : phases j = .reserving)
    (hroom : (c.admission j).requirements.stableHandle = false ∨
      c.shareBlocked (c.admission j).store = false ∧ c.processBlocked = false) :
    (c.grantAvailable j).Sound good (Function.update phases j .granted) := by
  have hopen : (phases j).isEnded = false := by rw [hphase]; rfl
  have hsettled := h.phased.unsettled hj hopen
  have hunreserved := h.phased.unreserved hj hopen (by rw [hphase]; simp)
  have hfree : (phases j).claim? = none := by rw [hphase]; rfl
  unfold Coordinator.grantAvailable
  cases hstable : (c.admission j).requirements.stableHandle with
  | false =>
    refine h.advance hj hopen hfree .granted (f := fun a => a) rfl
      (fun _ => ⟨rfl, rfl, rfl⟩) hsettled (fun _ => ?_) ?_ (Moves.refl c) ?_ (.inl (by simp))
    · rw [hunreserved, hstable]
      rfl
    · unfold Recounts modifyAdmission
      rw [Heap.modify_id]
      rfl
    · intro x
      rw [holdings_open hsettled rfl rfl]
  | true =>
    rw [hstable] at hroom
    obtain hfalse | ⟨hshare, hprocess⟩ := hroom
    · cases hfalse
    have hholdings := holdings_granted hsettled hunreserved
    refine h.advance hj hopen hfree .granted (f := (·.reserve true)) rfl
      (fun _ => ⟨rfl, rfl, rfl⟩) hsettled (fun _ => ?_) rfl
      ((Moves.refl c).up (stableHandles (c.admission j).store)) ?_ (.inr ?_)
    · rw [hstable]
      rfl
    · intro x
      rw [hholdings]
      simp only [List.count_append, List.count_nil]
      omega
    · intro scope _ r
      rw [hholdings]
      refine room_of_gain (stableHandles (c.admission j).store) (by simp [stableHandles])
        (stableHandles_free hshare hprocess scope r) ?_
      simp only [List.count_append]
      omega

theorem Sound.quarantineGrant (h : c.Sound good phases) (hj : j < c.admissionStates.size)
    (hphase : phases j = .granted) (hreserved : (c.admission j).stableReserved = true) :
    (((c.up (quarantines (c.admission j).store)).releaseNonStable j).settle j false).Sound good
      (Function.update phases j (.ended .quarantined)) := by
  have hopen : (phases j).isEnded = false := by rw [hphase]; rfl
  have hfree : (phases j).claim? = none := by rw [hphase]; rfl
  have hmoves := (((Moves.refl c).up (quarantines (c.admission j).store)).down
    (nonStables (c.admission j).store (c.admission j).session (c.admission j).requirements)).down
      (pendings (c.admission j).store (c.admission j).session)
  have hholdings : ((c.admission j).settle false).holdings (.ended .quarantined) =
      stableHandles (c.admission j).store ++ quarantines (c.admission j).store := by
    rw [holdings_ended rfl, if_pos rfl]
    rfl
  refine h.advance hj hopen hfree (.ended .quarantined) (f := (·.settle false)) rfl
    (fun _ => ⟨rfl, rfl, rfl⟩) rfl (fun hfalse => by cases hfalse) rfl hmoves ?_
    (.inl (by simp [quarantines]))
  intro x
  rw [hholdings, AdmissionState.requested, reservations_of_reserved hreserved]
  simp only [List.count_append, List.count_nil]
  omega

/-! ### Claims -/

theorem sameIdentities_clearClaim (k : Ref) : SameIdentities c (c.clearClaim k) := by
  have hsame := sameIdentities_modify (c := c) (k := k) (f := (·.setClaim none))
    fun _ => ⟨rfl, rfl, rfl⟩
  exact ⟨hsame.size, hsame.key, hsame.store, hsame.charge⟩

theorem sameIdentities_unlist (k : Ref) : SameIdentities c (c.unlist k) :=
  ⟨rfl, fun _ => rfl, fun _ => rfl, fun _ => rfl⟩

theorem Sound.claim (h : c.Sound good phases) (hj : j < c.admissionStates.size)
    (hphase : phases j = .reserving) (hk : k < c.candidateStates.size)
    (hlisted : c.listed k = true) (hunclaimed : (c.candidate k).claim = none)
    (hkept : (c.candidate k).withdrawn = false)
    (hopen : (c.store (c.candidate k).store).closing = false)
    (hstable : (c.admission j).requirements.stableHandle = true)
    (hroom : c.crossStore j k = true → good →
      c.atLimit (.store (c.admission j).store) .stableHandle = false) :
    (c.claimFor j k).Sound good (Function.update phases j (.claimed (c.pendingReclaim j k))) := by
  have hphaseOpen : (phases j).isEnded = false := by rw [hphase]; rfl
  have hsettled := h.phased.unsettled hj hphaseOpen
  have hfree : (phases j).claim? = none := by rw [hphase]; rfl
  have hconsistent : (c.claimFor j k).Consistent
      (Function.update phases j (.claimed (c.pendingReclaim j k))) := by
    refine ⟨?_, ?_, ?_⟩
    · have hlinked := h.linked.modifyCandidate (j := k)
        (f := (·.setClaim (some c.claimStates.size))) fun _ => rfl
      exact hlinked.of_same rfl rfl rfl rfl rfl
    · have hphased := h.phased.claim hj hphase hk hunclaimed hstable (p := c.pendingReclaim j k) rfl
      exact hphased.of_same rfl rfl rfl
    · have hlist := h.listed.modifyCandidate (k := k)
        (f := (·.setClaim (some c.claimStates.size))) (fun _ => ⟨rfl, rfl, rfl⟩) hlisted
        (fun _ hnone => by cases hnone)
        (fun hclosing => by rw [hopen] at hclosing; cases hclosing)
      exact hlist.of_same rfl rfl rfl rfl rfl
  have hadmission := replaces_phase (c := c)
    phases (Function.update phases j (.claimed (c.pendingReclaim j k))) hj update_of_ne
  rw [Function.update_self, holdings_open hsettled hfree hphaseOpen,
    holdings_inFlight hsettled rfl] at hadmission
  have hcandidate := replaces_modifyCandidate (c := c)
    (Function.update phases j (.claimed (c.pendingReclaim j k))) hk
    (f := (·.setClaim (some c.claimStates.size))) fun _ => ⟨rfl, rfl, rfl⟩
  rw [holdings_claimed (a := (c.candidate k).setClaim _) (by simp [CandidateState.setClaim]),
    holdings_unclaimed hunclaimed, hlisted, hkept] at hcandidate
  have hmoves := (((Moves.refl c).down (reclaimables (c.candidate k).store)).up
    (claims (c.candidate k).store)).up (provisionalShare (c.crossStore j k) (c.admission j).store)
  refine h.step (d := c.claimFor j k) ⟨rfl, hadmission.trans hcandidate, hmoves, ?_, ?_⟩
    rfl rfl rfl rfl hconsistent
  · intro x
    simp only [List.count_append, List.count_nil, Bool.not_false, Bool.and_self, if_true]
    show _ + List.count x (claims (c.candidate k).store) + _ = _
    unfold pendingReclaim
    dsimp only
    omega
  · intro scope hscope r
    refine room_of_gain (provisionalShare (c.crossStore j k) (c.admission j).store) ?_ ?_ ?_
    · unfold provisionalShare
      split <;> simp
    · intro hmem
      unfold provisionalShare at hmem
      split at hmem
      · rename_i hcross
        obtain ⟨rfl, rfl⟩ : scope = _ ∧ r = _ := by simpa using hmem
        exact hroom hcross (hscope.2 _ rfl)
      · cases hmem
    · have hclaims : (claims (c.candidate k).store).count (.used scope r) = 0 := by simp [claims]
      have hstore : ((c.candidate k).setClaim (some c.claimStates.size)).store =
        (c.candidate k).store := rfl
      simp only [List.count_append]
      rw [hstore, hclaims]
      unfold pendingReclaim
      dsimp only
      omega

theorem sameIdentities_dropClaim (k : Ref) : SameIdentities c (c.dropClaim k) := by
  have hsame := sameIdentities_clearClaim (c := c) k
  exact ⟨hsame.size, hsame.key, hsame.store, hsame.charge⟩

theorem candidates_dropClaim (k : Ref) :
    (c.dropClaim k).candidates = c.candidates.erase (c.candidate k).key :=
  congrArg c.candidates.erase ((sameIdentities_clearClaim k).key k)

theorem byCharge_dropClaim (k : Ref) :
    (c.dropClaim k).byCharge = c.byCharge.erase (c.candidate k).charge :=
  congrArg c.byCharge.erase ((sameIdentities_clearClaim k).charge k)

theorem candidate_dropClaim (k i : Ref) : (c.dropClaim k).candidate i =
    if i = k then (c.candidate k).setClaim none else c.candidate i := candidate_clearClaim k i

section

variable (h : c.Consistent phases) (hj : j < c.admissionStates.size)
  (hp : (phases j).claim? = some p)

include h hj hp

theorem Consistent.victim :
    c.listed p.candidate = true ∧ (c.candidate p.candidate).charge < c.chargeStates.size ∧
      (c.victim p.candidate).holdings = stableHandles (c.candidate p.candidate).store ++
        [.liveCharges (.store (c.candidate p.candidate).store)] ∧
      (c.victim p.candidate).store = (c.candidate p.candidate).store := by
  have hflight := h.phased.inFlight j hj p hp
  have hlisted := h.listed.claimed _ hflight.candidate (by rw [hflight.claim]; simp)
  obtain ⟨hlt, hstatus, hkind, hstore⟩ := h.listed.charge _ hflight.candidate hlisted
  have hsession := (h.linked.charges _ hlt).2.2 hkind
  refine ⟨hlisted, hlt, ?_, hstore⟩
  rw [← hstore]
  unfold ChargeState.holdings chargeUnits
  rw [hstatus, hkind, show (c.victim p.candidate).session = none from hsession]
  rfl

theorem Consistent.victim_active : (c.victim p.candidate).status = .active := by
  have hflight := h.phased.inFlight j hj p hp
  exact (h.listed.charge _ hflight.candidate (h.victim hj hp).1).2.1

theorem Consistent.dropClaim :
    (c.dropClaim p.candidate).Consistent (Function.update phases j .reserving) := by
  have hflight := h.phased.inFlight j hj p hp
  obtain ⟨hlisted, -⟩ := h.victim hj hp
  refine ⟨?_, ?_, ?_⟩
  · have hlinked := h.linked.modifyCandidate (j := p.candidate) (f := (·.setClaim none))
      fun _ => rfl
    exact hlinked.of_same rfl rfl rfl rfl rfl
  · exact (h.phased.unclaim hj hp).of_same rfl rfl rfl
  · refine h.listed.remove (sameIdentities_dropClaim _) hflight.candidate hlisted
      (candidates_dropClaim _) (byCharge_dropClaim _) ?_ ?_ rfl rfl
    · intro i hne
      rw [candidate_dropClaim, if_neg hne]
    · rw [candidate_dropClaim, if_pos rfl]
      rfl

theorem Consistent.holdings_claiming :
    (c.admission j).holdings (phases j) = (c.admission j).requested ++
      provisionalShare p.crossStoreShareReservation (c.admission j).store :=
  holdings_inFlight (h.phased.unsettled hj (AdmissionPhase.isEnded_of_claim hp).1) hp

theorem Consistent.holdings_reserving :
    (c.admission j).holdings .reserving = (c.admission j).requested :=
  holdings_open (h.phased.unsettled hj (AdmissionPhase.isEnded_of_claim hp).1) rfl rfl

/-- Dropping a claim gives up the claim and the provisional unit. -/
theorem Consistent.replaces_dropClaim :
    Replaces c phases (c.dropClaim p.candidate) (Function.update phases j .reserving)
      ((c.admission j).requested ++ provisionalShare p.crossStoreShareReservation
        (c.admission j).store ++ claims (c.candidate p.candidate).store)
      ((c.admission j).requested ++ []) := by
  have hflight := h.phased.inFlight j hj p hp
  obtain ⟨hlisted, -⟩ := h.victim hj hp
  have hadmission := replaces_phase (c := c)
    phases (Function.update phases j .reserving) hj update_of_ne
  rw [Function.update_self, h.holdings_claiming hj hp, h.holdings_reserving hj hp] at hadmission
  have hcandidate := replaces_remove (Function.update phases j .reserving)
    (sameIdentities_dropClaim p.candidate) hflight.candidate hlisted (candidates_dropClaim _)
    (fun i hne => by rw [candidate_dropClaim, if_neg hne])
    (by rw [candidate_dropClaim, if_pos rfl]; rfl) rfl rfl
  rw [holdings_claimed (by rw [hflight.claim]; simp)] at hcandidate
  exact hadmission.trans hcandidate

end

theorem Sound.decline (h : c.Sound good phases) (hj : j < c.admissionStates.size)
    (hp : (phases j).claim? = some p) :
    ((c.dropClaim p.candidate).returnShare p.crossStoreShareReservation
      (c.admission j).store).Sound good (Function.update phases j .reserving) := by
  have hmoves := ((Moves.refl c).down (claims (c.candidate p.candidate).store)).down
    (provisionalShare p.crossStoreShareReservation (c.admission j).store)
  refine h.step (.of_units rfl (h.replaces_dropClaim hj hp) hmoves ?_) rfl rfl rfl rfl
    (h.dropClaim hj hp)
  intro x
  simp only [List.count_append, List.count_nil]
  omega

theorem Sound.abandonClaim (h : c.Sound good phases) (hj : j < c.admissionStates.size)
    (hp : (phases j).claim? = some p) :
    (c.abandonClaim p).Sound good (Function.update phases j .reserving) := by
  have hflight := h.phased.inFlight j hj p hp
  obtain ⟨hlisted, -⟩ := h.victim hj hp
  unfold Coordinator.abandonClaim
  rw [if_neg (by simp [hflight.claim]), hflight.requester]
  split
  · exact h.decline hj hp
  · rename_i hkeeps
    obtain ⟨hkept, hopen⟩ := not_or.mp hkeeps
    have hadmission := replaces_phase (c := c)
      phases (Function.update phases j .reserving) hj update_of_ne
    rw [Function.update_self, h.holdings_claiming hj hp, h.holdings_reserving hj hp] at hadmission
    have hcandidate := replaces_modifyCandidate (c := c)
      (Function.update phases j .reserving) hflight.candidate (f := (·.setClaim none))
      fun _ => ⟨rfl, rfl, rfl⟩
    rw [holdings_claimed (by rw [hflight.claim]; simp), holdings_unclaimed rfl, hlisted]
      at hcandidate
    have hunits : (if true && !((c.candidate p.candidate).setClaim none).withdrawn then
        reclaimables ((c.candidate p.candidate).setClaim none).store else []) =
        reclaimables (c.candidate p.candidate).store :=
      if_pos (by simpa [CandidateState.setClaim] using hkept)
    have hmoves := ((((Moves.refl c).down (claims (c.candidate p.candidate).store)).down
      (provisionalShare p.crossStoreShareReservation (c.admission j).store)).up
        (reclaimables (c.candidate p.candidate).store))
    refine h.step (d := c.modifyCandidate p.candidate (·.setClaim none))
      (.of_units rfl (hadmission.trans hcandidate) hmoves ?_) rfl rfl rfl rfl ⟨?_, ?_, ?_⟩
    · intro x
      rw [hunits]
      simp only [List.count_append, List.count_nil]
      omega
    · exact h.linked.modifyCandidate fun _ => rfl
    · exact (h.phased.unclaim hj hp).of_same rfl rfl rfl
    · exact h.listed.modifyCandidate (fun _ => ⟨rfl, rfl, rfl⟩) hlisted
        (fun hwithdrawn => absurd hwithdrawn hkept) (fun hclosing => absurd hclosing hopen)

abbrev resolveClaim (c : Coordinator) (k : Ref) (status : ChargeStatus) : Coordinator :=
  (c.dropClaim k).modifyCharge (c.candidate k).charge (·.resolve status)

theorem Consistent.resolveVictim (h : c.Consistent phases) (hj : j < c.admissionStates.size)
    (hp : (phases j).claim? = some p) (status : ChargeStatus) :
    (c.resolveClaim p.candidate status).Consistent (Function.update phases j .reserving) := by
  have hdrop := h.dropClaim hj hp
  refine ⟨hdrop.linked.modifyCharge fun _ => ⟨rfl, rfl, rfl⟩,
    hdrop.phased.of_same rfl rfl rfl, hdrop.listed.modifyCharge ?_⟩
  rw [byCharge_dropClaim, FiniteMap.get?_erase_self]

/-- The units that change hands when the target of a claim is resolved. -/
theorem Consistent.replaces_resolveVictim (h : c.Consistent phases)
    (hj : j < c.admissionStates.size) (hp : (phases j).claim? = some p)
    (status : ChargeStatus) :
    Replaces c phases (c.resolveClaim p.candidate status) (Function.update phases j .reserving)
      ((c.admission j).requested ++ provisionalShare p.crossStoreShareReservation
        (c.admission j).store ++ claims (c.candidate p.candidate).store ++
        (stableHandles (c.candidate p.candidate).store ++
          [.liveCharges (.store (c.candidate p.candidate).store)]))
      ((c.admission j).requested ++ [] ++ ((c.victim p.candidate).resolve status).holdings) := by
  obtain ⟨-, hlt, hholdings, -⟩ := h.victim hj hp
  have hcharge := replaces_charge (c := c.dropClaim p.candidate)
    (Function.update phases j .reserving) (i := (c.candidate p.candidate).charge)
    (f := (·.resolve status)) hlt
  have hcell : (c.dropClaim p.candidate).charge (c.candidate p.candidate).charge =
    c.victim p.candidate := rfl
  rw [hcell, hholdings] at hcharge
  exact (h.replaces_dropClaim hj hp).trans hcharge

theorem victim_dropClaim (k : Ref) : (c.dropClaim k).victim k = c.victim k :=
  congrArg c.charge ((sameIdentities_dropClaim k).charge k)

theorem resolveVictim_dropClaim (k : Ref) (status : ChargeStatus) :
    (c.dropClaim k).resolveVictim k status =
      (c.resolveClaim k status).down [.liveCharges (.store (c.victim k).store)] := by
  unfold Coordinator.resolveVictim
  rw [victim_dropClaim, (sameIdentities_dropClaim k).charge]

theorem moves_resolveVictim (k : Ref) (status : ChargeStatus) :
    Moves c ((c.resolveClaim k status).down [.liveCharges (.store (c.candidate k).store)])
      [] ([] ++ claims (c.candidate k).store ++ [.liveCharges (.store (c.candidate k).store)]) := by
  have hdrop : Moves c (c.resolveClaim k status) [] ([] ++ claims (c.candidate k).store) :=
    ((Moves.refl c).down (claims (c.candidate k).store)).same rfl
  exact hdrop.down _

section

variable (h : c.Sound good phases) (hj : j < c.admissionStates.size)
  (hp : (phases j).claim? = some p)

include h hj hp

theorem Sound.releaseVictim :
    ((c.dropClaim p.candidate).releaseTerminalVictim p (c.admission j).store).Sound good
      (Function.update phases j .reserving) := by
  obtain ⟨-, -, -, hstore⟩ := h.victim hj hp
  have hmoves := ((moves_resolveVictim (c := c) p.candidate .released).down
    (stableHandles (c.candidate p.candidate).store)).down
      (provisionalShare p.crossStoreShareReservation (c.admission j).store)
  unfold releaseTerminalVictim
  rw [resolveVictim_dropClaim, victim_dropClaim, hstore]
  refine h.step (d := c.resolveClaim p.candidate .released)
    (.of_units rfl (h.replaces_resolveVictim hj hp .released) hmoves ?_)
    rfl rfl rfl rfl (h.resolveVictim hj hp .released)
  intro x
  simp only [ChargeState.holdings, ChargeState.resolve, List.count_append, List.count_nil]
  omega

/-- A victim that is quarantined with its claim: its unit stays used. -/
theorem Sound.quarantineVictim :
    ((c.dropClaim p.candidate).quarantineVictim p (c.admission j).store).Sound good
      (Function.update phases j .reserving) := by
  obtain ⟨-, -, -, hstore⟩ := h.victim hj hp
  have hmoves := ((moves_resolveVictim (c := c) p.candidate .quarantined).up
    (quarantines (c.candidate p.candidate).store)).down
      (provisionalShare p.crossStoreShareReservation (c.admission j).store)
  have hholdings : ((c.victim p.candidate).resolve .quarantined).holdings =
      stableHandles (c.candidate p.candidate).store ++
        quarantines (c.candidate p.candidate).store := by
    rw [← hstore]
    rfl
  unfold Coordinator.quarantineVictim
  rw [resolveVictim_dropClaim, victim_dropClaim, hstore]
  refine h.step (d := c.resolveClaim p.candidate .quarantined)
    (.of_units rfl (h.replaces_resolveVictim hj hp .quarantined) hmoves ?_)
    rfl rfl rfl rfl (h.resolveVictim hj hp .quarantined)
  intro x
  rw [hholdings]
  simp only [List.count_append, List.count_nil]
  omega

/-- The unit of a victim passes to the admission that claimed it. -/
theorem Sound.transferVictim :
    ((c.dropClaim p.candidate).transferTerminalVictim p j).Sound good
      (Function.update phases j .granted) := by
  obtain ⟨hended, hgranted⟩ := AdmissionPhase.isEnded_of_claim hp
  have hflight := h.phased.inFlight j hj p hp
  obtain ⟨-, -, -, hstore⟩ := h.victim hj hp
  have hsettled := h.phased.unsettled hj hended
  have hunreserved := h.phased.unreserved hj hended hgranted
  have hresolved := h.resolveVictim hj hp .transferred
  have hfree : (Function.update phases j .reserving j).claim? = none := by
    rw [Function.update_self]
    rfl
  have hidem : Function.update (Function.update phases j .reserving) j .granted =
    Function.update phases j .granted := Function.update_idem ..
  have hadmission := replaces_admission (c := c.resolveClaim p.candidate .transferred)
    (Function.update phases j .reserving) (Function.update phases j .granted)
    (f := (·.reserve true)) hj fun i hne => by rw [update_of_ne i hne, update_of_ne i hne]
  have hold : (c.admission j).holdings .reserving = (c.admission j).requested :=
    h.holdings_reserving hj hp
  have hcell : (c.resolveClaim p.candidate .transferred).admission j = c.admission j := rfl
  rw [Function.update_self, Function.update_self, hcell, hold,
    holdings_granted hsettled hunreserved] at hadmission
  have hmoves := (moves_resolveVictim (c := c) p.candidate .transferred).down
    (provisionalShare p.crossStoreShareReservation (c.candidate p.candidate).store)
  -- a claim within one store has no provisional unit, and the requester is the victim's store
  have hshare : ∀ x, (stableHandles (c.admission j).store).count x +
      (provisionalShare p.crossStoreShareReservation (c.candidate p.candidate).store).count x =
      (stableHandles (c.candidate p.candidate).store).count x +
      (provisionalShare p.crossStoreShareReservation (c.admission j).store).count x := by
    intro x
    rw [hflight.crossStore]
    unfold provisionalShare stableHandles
    split
    · simp only [List.count_cons, List.count_nil]
      omega
    · rename_i hsame
      rw [decide_eq_true_iff, not_not] at hsame
      rw [hsame]
  unfold transferTerminalVictim
  rw [resolveVictim_dropClaim, victim_dropClaim, hstore]
  refine h.step (d := (c.resolveClaim p.candidate .transferred).modifyAdmission j (·.reserve true))
    (.of_units rfl ((h.replaces_resolveVictim hj hp .transferred).trans hadmission)
      (hmoves.same rfl) ?_) rfl rfl rfl rfl ⟨?_, ?_, ?_⟩
  · intro x
    have hshare := hshare x
    simp only [ChargeState.holdings, ChargeState.resolve, List.count_append, List.count_nil]
    omega
  · exact hresolved.linked.modifyAdmission fun _ => ⟨rfl, rfl, rfl⟩
  · have hphased := hresolved.phased.advance hfree .granted rfl (f := (·.reserve true))
      (fun _ => ⟨rfl, rfl⟩) hsettled (fun _ => hflight.stableHandle.symm)
    rwa [hidem] at hphased
  · exact hresolved.listed.of_same rfl rfl rfl rfl rfl

end

end Coordinator

end Windshare.RevisionCapacity
