import Windshare.RevisionCapacity.Turns

/-!
# What the counts mean

The used count of a scope is the number of active charges, pending reservations, cross-store
claims in flight and quarantined units that count there. The counts of pending admissions, of
quarantined units and of candidates are the numbers of those. None of these numbers reaches
the width of a counter, so the counters hold the numbers themselves.
-/

namespace Windshare.RevisionCapacity

open Windshare.Library

/-- The scope counts what belongs to the store. -/
def Scope.ofStore (scope : Scope) (s : Ref) : Bool := scope = .process || scope = .store s

def ChargeState.covers (charge : ChargeState) (scope : Scope) (r : CapacityResource) : Bool :=
  match charge.kind, charge.session with
  | .stableHandle, _ => r = .stableHandle && scope.ofStore charge.store
  | .activeLease, some t =>
    r = .activeLease && (scope.ofStore charge.store || scope = .session t)
  | .sessionHandle, some t => r = .stableHandle && scope = .session t
  | _, none => false

def AdmissionState.reserves (admission : AdmissionState) (scope : Scope) (r : CapacityResource) :
    Bool :=
  match r with
  | .activeLease => admission.requirements.activeLease &&
      (scope.ofStore admission.store || scope = .session admission.session)
  | .stableHandle => admission.stableReserved && scope.ofStore admission.store ||
      admission.requirements.sessionHandle && scope = .session admission.session

/-- The admission has a cross-store claim in flight. -/
def AdmissionPhase.claimsAcross (phase : AdmissionPhase) : Bool :=
  phase.claim?.any (·.crossStoreShareReservation)

namespace Coordinator

variable (c : Coordinator) (phases : Ref → AdmissionPhase) (scope : Scope) (r : CapacityResource)

def activeCharges : ℕ := countCells c.chargeStates.size fun i =>
  (c.charge i).status = .active && (c.charge i).covers scope r

def reservations : ℕ := countCells c.admissionStates.size fun j =>
  !(c.admission j).settled && (c.admission j).reserves scope r

/-- The cross-store claims in flight that count at the store of the requester. -/
def claimsAcross : ℕ := countCells c.admissionStates.size fun j =>
  (phases j).claimsAcross && (r = .stableHandle && scope = .store (c.admission j).store)

def quarantinedCharges : ℕ := countCells c.chargeStates.size fun i =>
  (c.charge i).status = .quarantined && scope.ofStore (c.charge i).store

/-- The grants whose stable handle is quarantined. -/
def quarantinedGrants : ℕ := countCells c.admissionStates.size fun j =>
  phases j = .ended .quarantined && scope.ofStore (c.admission j).store

def quarantinedUnits : ℕ := c.quarantinedCharges scope + c.quarantinedGrants phases scope

/-- The units that count at the scope. -/
def usedUnits : ℕ :=
  c.activeCharges scope r + c.reservations scope r + c.claimsAcross phases scope r +
    if r = .stableHandle then c.quarantinedUnits phases scope else 0

def pendingAdmissions : ℕ := countCells c.admissionStates.size fun j =>
  !(c.admission j).settled &&
    (scope.ofStore (c.admission j).store || scope = .session (c.admission j).session)

/-- The idle candidates of active charges that are neither claimed nor withdrawn. -/
def idleCandidates : ℕ := countCells c.candidateStates.size fun k =>
  c.listed k && ((c.candidate k).claim = none && (!(c.candidate k).withdrawn &&
    ((c.victim k).status = .active && scope.ofStore (c.candidate k).store)))

def liveCharges : ℕ := countCells c.chargeStates.size fun i =>
  (c.charge i).status = .active && (scope = .store (c.charge i).store ||
    (c.charge i).session.any fun t => scope = .session t)

def claimedCandidates : ℕ := countCells c.candidateStates.size fun k =>
  (c.candidate k).claim ≠ none && scope.ofStore (c.candidate k).store

end Coordinator

/-! ### Units in lists of counters -/

namespace Coordinator

variable {scope : Scope} {r : CapacityResource} {s t : Ref}

variable {x : Counter}

theorem count_of_nodup {xs : List Counter} {b : Bool} (hnodup : xs.Nodup)
    (hmem : x ∈ xs ↔ b = true) : xs.count x = b.toNat := by
  rw [hnodup.count]
  cases b
  · rw [if_neg (by simp [hmem])]
    rfl
  · rw [if_pos (by simp [hmem])]
    rfl

theorem count_stableHandles : (stableHandles s).count (.used scope r) =
    (decide (r = .stableHandle) && scope.ofStore s).toNat := by
  refine count_of_nodup (by simp [stableHandles]) ?_
  simp only [stableHandles, Scope.ofStore, List.mem_cons, Counter.used.injEq, List.not_mem_nil,
    or_false, Bool.and_eq_true, decide_eq_true_eq, Bool.or_eq_true]
  tauto

theorem count_activeLeases : (activeLeases s t).count (.used scope r) =
    (decide (r = .activeLease) && (scope.ofStore s || scope = .session t)).toNat := by
  refine count_of_nodup (by simp [activeLeases]) ?_
  simp only [activeLeases, Scope.ofStore, List.mem_cons, Counter.used.injEq, List.not_mem_nil,
    or_false, Bool.and_eq_true, decide_eq_true_eq, Bool.or_eq_true]
  tauto

theorem count_sessionHandles : (sessionHandles t).count (.used scope r) =
    (decide (r = .stableHandle) && decide (scope = .session t)).toNat := by
  refine count_of_nodup (by simp [sessionHandles]) ?_
  simp only [sessionHandles, List.mem_cons, Counter.used.injEq, List.not_mem_nil, or_false,
    Bool.and_eq_true, decide_eq_true_eq]
  tauto

theorem count_charge_used (charge : ChargeState) : charge.holdings.count (.used scope r) =
    (decide (charge.status = .active) && charge.covers scope r).toNat +
      (decide (charge.status = .quarantined) &&
        (decide (r = .stableHandle) && scope.ofStore charge.store)).toNat := by
  obtain ⟨store, session, kind, status⟩ := charge
  have hlives : (lives store session).count (.used scope r) = 0 := by
    cases session <;> simp [lives]
  have hquarantines : (quarantines store).count (.used scope r) = 0 := by simp [quarantines]
  cases status with
  | active =>
    simp only [ChargeState.holdings, List.count_append, hlives]
    cases kind <;> cases session <;>
      simp [chargeUnits, ChargeState.covers, count_stableHandles, count_activeLeases,
        count_sessionHandles]
  | quarantined =>
    simp [ChargeState.holdings, RevisionCapacity.quarantinedUnits, count_stableHandles,
      hquarantines]
  | released | transferred => simp [ChargeState.holdings]

theorem count_pendings : (pendings s t).count (.pending scope) =
    (scope.ofStore s || decide (scope = .session t)).toNat := by
  refine count_of_nodup (by simp [pendings]) ?_
  simp only [pendings, Scope.ofStore, List.mem_cons, Counter.pending.injEq, List.not_mem_nil,
    or_false, decide_eq_true_eq, Bool.or_eq_true]
  tauto

theorem count_quarantines : (quarantines s).count (.quarantined scope) =
    (scope.ofStore s).toNat := by
  refine count_of_nodup (by simp [quarantines]) ?_
  simp [quarantines, Scope.ofStore]

theorem count_reclaimables : (reclaimables s).count (.reclaimable scope) =
    (scope.ofStore s).toNat := by
  refine count_of_nodup (by simp [reclaimables]) ?_
  simp [reclaimables, Scope.ofStore]

theorem count_claims : (claims s).count (.reclaims scope) = (scope.ofStore s).toNat := by
  refine count_of_nodup (by simp [claims]) ?_
  simp [claims, Scope.ofStore]

theorem count_provisional (phase : AdmissionPhase) :
    (phase.provisional s).count (.used scope r) =
      (phase.claimsAcross && (decide (r = .stableHandle) && decide (scope = .store s))).toNat := by
  unfold AdmissionPhase.provisional AdmissionPhase.claimsAcross provisionalShare
  cases phase.claim? with
  | none => rfl
  | some p =>
    dsimp only [Option.elim_some, Option.any_some]
    cases p.crossStoreShareReservation
    · rfl
    · refine count_of_nodup (by simp) ?_
      simp only [if_true, List.mem_singleton, Counter.used.injEq, Bool.true_and,
        Bool.and_eq_true, decide_eq_true_eq]
      tauto

theorem count_reservations (a : AdmissionState) :
    a.reservations.count (.used scope r) = (a.reserves scope r).toNat := by
  unfold AdmissionState.reservations nonStables AdmissionState.reserves
  cases r with
  | activeLease =>
    cases a.requirements.activeLease <;> cases a.requirements.sessionHandle <;>
      cases a.stableReserved <;>
      simp [count_activeLeases, count_sessionHandles, count_stableHandles]
  | stableHandle =>
    have hexclusive : scope.ofStore a.store = true → decide (scope = .session a.session) =
        false := by
      intro hstore
      cases scope <;> simp_all [Scope.ofStore]
    cases a.requirements.activeLease <;> cases a.requirements.sessionHandle <;>
      cases a.stableReserved <;>
      simp [count_activeLeases, count_sessionHandles, count_stableHandles]
    all_goals
      cases hstore : scope.ofStore a.store
      · simp
      · simp [hexclusive hstore]

theorem count_admission_used (a : AdmissionState) (phase : AdmissionPhase) :
    (a.holdings phase).count (.used scope r) =
      (!a.settled && a.reserves scope r).toNat +
      (phase.claimsAcross && (decide (r = .stableHandle) &&
        decide (scope = .store a.store))).toNat +
      (decide (phase = .ended .quarantined) &&
        (decide (r = .stableHandle) && scope.ofStore a.store)).toNat := by
  have hpendings : (pendings a.store a.session).count (.used scope r) = 0 := by simp [pendings]
  have hquarantines : (quarantines a.store).count (.used scope r) = 0 := by simp [quarantines]
  unfold AdmissionState.holdings
  simp only [List.count_append, count_provisional]
  congr 1
  · congr 1
    cases a.settled
    · simp [hpendings, count_reservations]
    · simp
  · by_cases hphase : phase = .ended .quarantined
    · simp [hphase, RevisionCapacity.quarantinedUnits, count_stableHandles, hquarantines]
    · simp [hphase]

/-! ### Numbers of units -/

section Numbers

variable {c : Coordinator} {phases : Ref → AdmissionPhase} {good : Prop}

theorem candidateNumber_eq_zero (hidle : ∀ scope, x ≠ .reclaimable scope)
    (hclaimed : ∀ scope, x ≠ .reclaims scope) : c.candidateNumber x = 0 := by
  refine tally_eq_zero fun k _ => ?_
  unfold CandidateState.holdings
  split
  · simp [claims, List.count_eq_zero, hclaimed]
  · split <;> simp [reclaimables, List.count_eq_zero, hidle]

theorem number_used : c.number phases (.used scope r) = c.usedUnits phases scope r := by
  unfold number chargeNumber admissionNumber usedUnits
  simp only [count_charge_used, count_admission_used, tally_add,
    candidateNumber_eq_zero (x := .used scope r) (by simp) (by simp)]
  unfold activeCharges Coordinator.reservations claimsAcross Coordinator.quarantinedUnits
    quarantinedCharges quarantinedGrants countCells
  dsimp only
  cases r with
  | stableHandle =>
    simp only [decide_true, Bool.true_and, if_true]
    omega
  | activeLease =>
    rw [if_neg (by simp), tally_eq_zero (w := fun i => (decide ((c.charge i).status =
      .quarantined) && _).toNat) (by simp), tally_eq_zero (w := fun j => (decide (phases j =
      .ended .quarantined) && _).toNat) (by simp)]
    omega

theorem count_charge_other (charge : ChargeState)
    (hused : ∀ scope r, x ≠ .used scope r) (hlive : ∀ scope, x ≠ .liveCharges scope) :
    charge.holdings.count x = if charge.status = .quarantined then
      (quarantines charge.store).count x else 0 := by
  obtain ⟨store, session, kind, status⟩ := charge
  have hstable : (stableHandles store).count x = 0 := by
    simp [stableHandles, List.count_eq_zero, hused]
  cases status with
  | active =>
    cases kind <;> cases session <;>
      simp [ChargeState.holdings, chargeUnits, lives, stableHandles, activeLeases,
        sessionHandles, List.count_eq_zero, hused, hlive]
  | quarantined =>
    simp [ChargeState.holdings, RevisionCapacity.quarantinedUnits, hstable]
  | released | transferred => simp [ChargeState.holdings]

/-- Besides used units an admission holds its place among the pending ones, and a quarantined
one its unit. -/
theorem count_admission_other (a : AdmissionState) (phase : AdmissionPhase)
    (hused : ∀ scope r, x ≠ .used scope r) : (a.holdings phase).count x =
      (if a.settled then 0 else (pendings a.store a.session).count x) +
        if phase = .ended .quarantined then (quarantines a.store).count x else 0 := by
  have hstable : (stableHandles a.store).count x = 0 := by
    simp [stableHandles, List.count_eq_zero, hused]
  have hreservations : a.reservations.count x = 0 := by
    unfold AdmissionState.reservations nonStables
    cases a.requirements.activeLease <;> cases a.requirements.sessionHandle <;>
      cases a.stableReserved <;>
      simp [stableHandles, activeLeases, sessionHandles, List.count_eq_zero, hused]
  have hprovisional : (phase.provisional a.store).count x = 0 := by
    unfold AdmissionPhase.provisional provisionalShare
    cases phase.claim? with
    | none => rfl
    | some p => cases p.crossStoreShareReservation <;> simp [List.count_eq_zero, hused]
  unfold AdmissionState.holdings
  simp only [List.count_append, hprovisional]
  congr 1
  · cases a.settled
    · simp [hreservations]
    · simp
  · split
    · simp [RevisionCapacity.quarantinedUnits, hstable]
    · rfl

theorem toNat_and_decide (p : Prop) [Decidable p] (b : Bool) :
    (decide p && b).toNat = if p then b.toNat else 0 := by
  split <;> simp_all

theorem chargeNumber_eq_zero (hused : ∀ scope r, x ≠ .used scope r)
    (hlive : ∀ scope, x ≠ .liveCharges scope) (hquarantined : ∀ scope, x ≠ .quarantined scope) :
    c.chargeNumber x = 0 := by
  refine tally_eq_zero fun i _ => ?_
  rw [count_charge_other _ hused hlive]
  simp [quarantines, List.count_eq_zero, hquarantined]

theorem admissionNumber_eq_zero (hused : ∀ scope r, x ≠ .used scope r)
    (hpending : ∀ scope, x ≠ .pending scope) (hquarantined : ∀ scope, x ≠ .quarantined scope) :
    c.admissionNumber phases x = 0 := by
  refine tally_eq_zero fun j _ => ?_
  rw [count_admission_other _ _ hused]
  cases (c.admission j).settled <;> cases (c.admission j).session <;>
    simp [pendings, quarantines, List.count_eq_zero, hpending, hquarantined]

theorem number_pending : c.number phases (.pending scope) = c.pendingAdmissions scope := by
  have hcharges : c.chargeNumber (.pending scope) = 0 :=
    chargeNumber_eq_zero (by simp) (by simp) (by simp)
  have hcandidates : c.candidateNumber (.pending scope) = 0 :=
    candidateNumber_eq_zero (by simp) (by simp)
  have hadmissions : c.admissionNumber phases (.pending scope) = c.pendingAdmissions scope := by
    refine tally_congr fun j _ => ?_
    rw [count_admission_other _ _ (by simp), count_pendings]
    cases hsettled : (c.admission j).settled <;> simp [quarantines, hsettled]
  unfold number
  omega

theorem number_quarantined :
    c.number phases (.quarantined scope) = c.quarantinedUnits phases scope := by
  have hcharges : c.chargeNumber (.quarantined scope) = c.quarantinedCharges scope := by
    refine tally_congr fun i _ => ?_
    rw [count_charge_other _ (by simp) (by simp), count_quarantines, toNat_and_decide]
  have hcandidates : c.candidateNumber (.quarantined scope) = 0 :=
    candidateNumber_eq_zero (by simp) (by simp)
  have hadmissions : c.admissionNumber phases (.quarantined scope) =
      c.quarantinedGrants phases scope := by
    refine tally_congr fun j _ => ?_
    rw [count_admission_other _ _ (by simp), count_quarantines, toNat_and_decide]
    cases (c.admission j).settled <;> simp [pendings]
  unfold number Coordinator.quarantinedUnits
  omega

/-- A listed candidate owns an active charge. -/
theorem Listed.number_reclaimable (h : c.Listed) :
    c.number phases (.reclaimable scope) = c.idleCandidates scope := by
  have hcharges : c.chargeNumber (.reclaimable scope) = 0 :=
    chargeNumber_eq_zero (by simp) (by simp) (by simp)
  have hadmissions : c.admissionNumber phases (.reclaimable scope) = 0 :=
    admissionNumber_eq_zero (by simp) (by simp) (by simp)
  have hcandidates : c.candidateNumber (.reclaimable scope) = c.idleCandidates scope := by
    refine tally_congr fun k hk => ?_
    unfold CandidateState.holdings
    cases hlisted : c.listed k with
    | false => cases (c.candidate k).claim <;> simp [claims, hlisted]
    | true =>
      obtain ⟨-, hactive, -⟩ := h.charge k hk hlisted
      cases hclaim : (c.candidate k).claim with
      | some => simp [claims, hclaim]
      | none =>
        cases hwithdrawn : (c.candidate k).withdrawn <;>
          simp [count_reclaimables, hlisted, hactive, hclaim, hwithdrawn]
  unfold number
  omega

theorem number_reclaims : c.number phases (.reclaims scope) = c.claimedCandidates scope := by
  have hcharges : c.chargeNumber (.reclaims scope) = 0 :=
    chargeNumber_eq_zero (by simp) (by simp) (by simp)
  have hadmissions : c.admissionNumber phases (.reclaims scope) = 0 :=
    admissionNumber_eq_zero (by simp) (by simp) (by simp)
  have hcandidates : c.candidateNumber (.reclaims scope) = c.claimedCandidates scope := by
    refine tally_congr fun k _ => ?_
    unfold CandidateState.holdings
    cases hclaim : (c.candidate k).claim with
    | some => simp [count_claims, hclaim]
    | none =>
      dsimp only
      split <;> simp [reclaimables, hclaim]
  unfold number
  omega

theorem count_charge_live (charge : ChargeState) : charge.holdings.count (.liveCharges scope) =
    (decide (charge.status = .active) && (decide (scope = .store charge.store) ||
      charge.session.any fun t => scope = .session t)).toNat := by
  obtain ⟨store, session, kind, status⟩ := charge
  have hunits : (chargeUnits ⟨store, session, kind, status⟩).count (.liveCharges scope) = 0 := by
    cases kind <;> cases session <;> simp [chargeUnits, stableHandles, activeLeases, sessionHandles]
  have hlives : (lives store session).count (.liveCharges scope) =
      (decide (scope = .store store) || session.any fun t => scope = .session t).toNat := by
    refine count_of_nodup ?_ ?_
    · cases session <;> simp [lives]
    · cases session <;> simp [lives]
  cases status with
  | active => simp [ChargeState.holdings, hunits, hlives]
  | quarantined =>
    simp [ChargeState.holdings, RevisionCapacity.quarantinedUnits, stableHandles, quarantines]
  | released | transferred => simp [ChargeState.holdings]

theorem number_liveCharges : c.number phases (.liveCharges scope) = c.liveCharges scope := by
  have hcharges : c.chargeNumber (.liveCharges scope) = c.liveCharges scope :=
    tally_congr fun i _ => count_charge_live (c.charge i)
  have hadmissions : c.admissionNumber phases (.liveCharges scope) = 0 :=
    admissionNumber_eq_zero (by simp) (by simp) (by simp)
  have hcandidates : c.candidateNumber (.liveCharges scope) = 0 :=
    candidateNumber_eq_zero (by simp) (by simp)
  unfold number
  omega

/-! ### The numbers fit the counters -/

theorem toNat_le_of_imp {a b : Bool} (h : a = true → b = true) : a.toNat ≤ b.toNat := by
  cases a
  · exact Nat.zero_le _
  · rw [h rfl]

theorem Sound.toNat_counts (h : c.Sound good phases) {n : ℕ}
    (hx : c.number phases x = n) (hn : n < 2 ^ 64) : (c.counts x).toNat = n := by
  rw [h.accounts x, hx]
  exact UInt64.toNat_ofNat_of_lt hn

theorem Sound.usedUnits_process (h : c.Sound good phases) :
    c.usedUnits phases .process r ≤ ((c.limitsOf .process).of r).toNat := by
  rw [← number_used]
  exact h.within .process ⟨trivial, fun s hs => by cases hs⟩ r

theorem Sound.usedUnits_process_lt (h : c.Sound good phases) :
    c.usedUnits phases .process r < 2 ^ 64 :=
  h.usedUnits_process.trans_lt (UInt64.toNat_lt _)

theorem Linked.pendingAdmissions_le (h : c.Linked) :
    c.pendingAdmissions scope ≤ c.usedUnits phases .process .activeLease := by
  have hle : c.pendingAdmissions scope ≤ c.reservations .process .activeLease := by
    refine tally_mono fun j hj => toNat_le_of_imp fun hpending => ?_
    have hlease := (h.admissions j hj).2.2
    simp only [Bool.and_eq_true] at hpending ⊢
    exact ⟨hpending.1, by simp [AdmissionState.reserves, Scope.ofStore, admission, hlease]⟩
  unfold usedUnits
  omega

theorem quarantinedUnits_le :
    c.quarantinedUnits phases scope ≤ c.usedUnits phases .process .stableHandle := by
  have hcharges : c.quarantinedCharges scope ≤ c.quarantinedCharges .process := by
    refine tally_mono fun i _ => toNat_le_of_imp fun hquarantined => ?_
    simp only [Bool.and_eq_true] at hquarantined ⊢
    exact ⟨hquarantined.1, by simp [Scope.ofStore]⟩
  have hgrants : c.quarantinedGrants phases scope ≤ c.quarantinedGrants phases .process := by
    refine tally_mono fun j _ => toNat_le_of_imp fun hquarantined => ?_
    simp only [Bool.and_eq_true] at hquarantined ⊢
    exact ⟨hquarantined.1, by simp [Scope.ofStore]⟩
  unfold usedUnits Coordinator.quarantinedUnits
  rw [if_pos rfl]
  omega

theorem Consistent.claimedCandidates_le (h : c.Consistent phases) :
    c.claimedCandidates scope ≤ c.pendingAdmissions .process := by
  have hholder : ∀ k, ∃ j, k < c.candidateStates.size → (c.candidate k).claim ≠ none →
      j < c.admissionStates.size ∧ ∃ p, (phases j).claim? = some p ∧ p.candidate = k := by
    intro k
    by_cases hk : k < c.candidateStates.size ∧ (c.candidate k).claim ≠ none
    · obtain ⟨j, hj, p, hp, hcandidate⟩ := h.phased.holder k hk.1 hk.2
      exact ⟨j, fun _ _ => ⟨hj, p, hp, hcandidate⟩⟩
    · exact ⟨0, fun hlt hclaim => absurd ⟨hlt, hclaim⟩ hk⟩
  choose f hf using hholder
  have hclaim : ∀ k, (decide ((c.candidate k).claim ≠ none) &&
      scope.ofStore (c.candidate k).store) = true → (c.candidate k).claim ≠ none := by
    intro k hk
    simp only [Bool.and_eq_true, decide_eq_true_eq] at hk
    exact hk.1
  refine countCells_le_of_injective f ?_ ?_
  · intro k hk hclaimed
    obtain ⟨hj, p, hp, -⟩ := hf k hk (hclaim k hclaimed)
    refine ⟨hj, ?_⟩
    have hsettled := h.phased.unsettled hj (AdmissionPhase.isEnded_of_claim hp).1
    simp [hsettled, Scope.ofStore]
  · intro k hk i hi hclaimed hclaimed' heq
    obtain ⟨hj, p, hp, hcandidate⟩ := hf k hk (hclaim k hclaimed)
    obtain ⟨-, p', hp', hcandidate'⟩ := hf i hi (hclaim i hclaimed')
    rw [heq, hp'] at hp
    cases hp
    exact hcandidate.symm.trans hcandidate'

/-- Idle candidates own different active stable handles. -/
theorem Listed.idleCandidates_le (h : c.Listed) :
    c.idleCandidates scope ≤ c.usedUnits phases .process .stableHandle := by
  have hle : c.idleCandidates scope ≤ c.activeCharges .process .stableHandle := by
    have hlisted : ∀ k, (c.listed k && (decide ((c.candidate k).claim = none) &&
        (!(c.candidate k).withdrawn && (decide ((c.victim k).status = .active) &&
          scope.ofStore (c.candidate k).store)))) = true → c.listed k = true := by
      intro k hk
      simp only [Bool.and_eq_true] at hk
      exact hk.1
    refine countCells_le_of_injective (fun k => (c.candidate k).charge) ?_ ?_
    · intro k hk hidle
      obtain ⟨hlt, hactive, hkind, -⟩ := h.charge k hk (hlisted k hidle)
      refine ⟨hlt, ?_⟩
      have hcovers : (c.victim k).covers .process .stableHandle = true := by
        unfold ChargeState.covers
        rw [hkind]
        simp [Scope.ofStore]
      exact Bool.and_eq_true_iff.mpr ⟨decide_eq_true hactive, hcovers⟩
    · intro k hk i hi hidle hidle' heq
      have hfirst := (h.byCharge (c.candidate k).charge k).mpr ⟨hk, hlisted k hidle, rfl⟩
      have hsecond := (h.byCharge (c.candidate k).charge i).mpr ⟨hi, hlisted i hidle', heq.symm⟩
      exact Option.some.inj (hfirst.symm.trans hsecond)
  unfold usedUnits
  omega

end Numbers

end Coordinator

end Windshare.RevisionCapacity
