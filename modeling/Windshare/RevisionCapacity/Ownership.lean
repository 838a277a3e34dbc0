import Windshare.RevisionCapacity.Steps

/-!
# Steps of charges and registrations

Committing a grant, ending a charge, publishing and withdrawing candidates, registering and
closing keep the invariant.
-/

namespace Windshare.RevisionCapacity

open Windshare.Library

namespace Coordinator

variable {c c' : Coordinator} {phases : Ref → AdmissionPhase} {i j k s t : Ref} {good : Prop}

/-! ### Beginning -/

theorem nonStables_free {requirements : AdmissionRequirements}
    (h : c.nonStableBoundary s t requirements = none) (scope : Scope) (r : CapacityResource)
    (hmem : Counter.used scope r ∈ nonStables s t requirements) : c.atLimit scope r = false := by
  unfold nonStableBoundary at h
  split at h
  · cases h
  rename_i hsession
  split at h
  · cases h
  rename_i hstore
  split at h
  · cases h
  rename_i hprocess
  split at h
  · cases h
  rename_i hhandle
  obtain hmem | hmem := List.mem_append.mp hmem
  · split at hmem
    · rename_i hlease
      simp only [activeLeases, List.mem_cons, Counter.used.injEq, List.not_mem_nil, or_false]
        at hmem
      simp only [hlease, true_and, Bool.not_eq_true] at hsession hstore hprocess
      obtain ⟨rfl, rfl⟩ | ⟨rfl, rfl⟩ | ⟨rfl, rfl⟩ := hmem
      · exact hprocess
      · exact hstore
      · exact hsession
    · cases hmem
  · split at hmem
    · rename_i hrequired
      simp only [sessionHandles, List.mem_cons, Counter.used.injEq, List.not_mem_nil, or_false]
        at hmem
      simp only [hrequired, true_and, Bool.not_eq_true] at hhandle
      obtain ⟨rfl, rfl⟩ := hmem
      exact hhandle
    · cases hmem

theorem nodup_nonStables (s t : Ref) (requirements : AdmissionRequirements) :
    (nonStables s t requirements).Nodup := by
  unfold nonStables activeLeases sessionHandles
  split <;> split <;> simp

theorem requirementsFor_activeLease (kind : AdmissionKind) :
    (requirementsFor kind).activeLease = true := by
  cases kind <;> rfl

theorem Sound.beginAdmission (h : c.Sound good phases) {a : AdmissionState}
    (hstore : a.store < c.storeStates.size) (hsession : a.session < c.sessionStates.size)
    (hlease : a.requirements.activeLease = true) (hsettled : a.settled = false)
    (hreserved : a.stableReserved = false)
    (hfree : c.nonStableBoundary a.store a.session a.requirements = none) :
    (((c.nextDecisionID.1.up (pendings a.store a.session)).up
      (nonStables a.store a.session a.requirements)).addAdmission a).Sound good
      (Function.update phases c.admissionStates.size .reserving) := by
  have hreplaces := replaces_addAdmission (c := c)
    phases (Function.update phases c.admissionStates.size .reserving) (a := a)
    fun i hi => update_of_ne i (Nat.ne_of_lt hi)
  rw [Function.update_self, holdings_open hsettled rfl rfl, AdmissionState.requested,
    reservations_of_unreserved hreserved] at hreplaces
  have hmoves := ((Moves.refl c).up (pendings a.store a.session)).up
    (nonStables a.store a.session a.requirements)
  refine h.step (d := c.nextDecisionID.1.addAdmission a) ⟨rfl, hreplaces, hmoves.same rfl, ?_, ?_⟩
    rfl rfl rfl rfl ⟨?_, ?_, ?_⟩
  · intro x
    simp only [List.count_append, List.count_nil]
    omega
  · intro scope _ r
    have hnone : (pendings a.store a.session).count (.used scope r) = 0 := by simp [pendings]
    refine room_of_gain _ (nodup_nonStables a.store a.session a.requirements)
      (nonStables_free hfree scope r) ?_
    simp only [List.count_append, List.count_nil]
    omega
  · exact ⟨h.linked.charges, h.linked.admissions.alloc ⟨hstore, hsession, hlease⟩,
      h.linked.candidates⟩
  · exact (h.phased.begin hsettled hreserved).of_same rfl rfl rfl
  · exact h.listed.of_same rfl rfl rfl rfl rfl

/-! ### Charges -/

/-- New objects hold `new`, and the counters went up by `gain`. -/
structure Grows (c : Coordinator) (phases : Ref → AdmissionPhase) (c' : Coordinator)
    (new gain : List Counter) : Prop where
  consistent : c'.Consistent phases
  replaces : Replaces c phases c' phases [] new
  moves : Moves c c' gain []
  stores : c'.storeStates = c.storeStates
  sessions : c'.sessionStates = c.sessionStates
  shares : c'.shares = c.shares
  limits : c'.limits = c.limits

theorem Grows.trans {d : Coordinator} {new₁ gain₁ new₂ gain₂ : List Counter}
    (h₁ : Grows c phases d new₁ gain₁) (h₂ : Grows d phases c' new₂ gain₂) :
    Grows c phases c' (new₁ ++ new₂) (gain₁ ++ gain₂) where
  consistent := h₂.consistent
  replaces := h₁.replaces.trans h₂.replaces
  moves := h₁.moves.trans h₂.moves
  stores := h₂.stores.trans h₁.stores
  sessions := h₂.sessions.trans h₁.sessions
  shares := h₂.shares.trans h₁.shares
  limits := h₂.limits.trans h₁.limits

/-- A charge of an admission, where it requires one. -/
theorem newChargeIf_grows (h : c.Consistent phases) (required : Bool) (session : Option Ref)
    (kind : ChargeKind) (hstore : s < c.storeStates.size)
    (hsession : ∀ t, session = some t → t < c.sessionStates.size)
    (hstable : kind = .stableHandle → session = none) :
    Grows c phases (c.newChargeIf required s session kind).1
      (if required then chargeUnits ⟨s, session, kind, .active⟩ ++ lives s session else [])
      (if required then lives s session else []) := by
  cases required with
  | false => exact ⟨h, .refl c phases, .refl c, rfl, rfl, rfl, rfl⟩
  | true =>
    refine ⟨⟨?_, ?_, ?_⟩, replaces_addCharge, (Moves.refl c).up _, rfl, rfl, rfl, rfl⟩
    · exact ⟨h.linked.charges.alloc ⟨hstore, hsession, hstable⟩, h.linked.admissions,
        h.linked.candidates⟩
    · exact h.phased.of_same rfl rfl rfl
    · exact (h.listed.addCharge (a := ⟨s, session, kind, .active⟩)).of_same rfl rfl rfl rfl rfl

/-- What the charges of an admission hold: its reservations and its live charges. -/
theorem newCharges_grows (h : c.Consistent phases) {a : AdmissionState}
    (hstore : a.store < c.storeStates.size) (hsession : a.session < c.sessionStates.size) :
    ∃ new gain, Grows c phases (c.newCharges a).1 new gain ∧
      (∀ x, new.count x = (nonStables a.store a.session a.requirements).count x +
        (if a.requirements.stableHandle then stableHandles a.store else []).count x +
          gain.count x) ∧
      ∀ scope r, gain.count (.used scope r) = 0 := by
  have hstable := newChargeIf_grows h a.requirements.stableHandle none .stableHandle hstore
    (fun _ hnone => by cases hnone) (fun _ => rfl)
  have hlease := newChargeIf_grows hstable.consistent a.requirements.activeLease
    (some a.session) .activeLease (hstable.stores ▸ hstore)
    (fun t ht => by
      obtain rfl := Option.some.inj ht
      exact hstable.sessions ▸ hsession)
    (fun hkind => by cases hkind)
  have hhandle := newChargeIf_grows hlease.consistent a.requirements.sessionHandle
    (some a.session) .sessionHandle (s := a.store)
    (by rw [hlease.stores, hstable.stores]; exact hstore)
    (fun t ht => by
      obtain rfl := Option.some.inj ht
      rw [hlease.sessions, hstable.sessions]
      exact hsession)
    (fun hkind => by cases hkind)
  refine ⟨_, _, (hstable.trans hlease).trans hhandle, ?_, ?_⟩
  · intro x
    unfold nonStables
    cases a.requirements.stableHandle <;> cases a.requirements.activeLease <;>
      cases a.requirements.sessionHandle <;>
      simp only [chargeUnits, List.count_append, List.count_nil, if_true, if_false,
        Bool.false_eq_true] <;> omega
  · intro scope r
    have hlives : ∀ (required : Bool) (session : Option Ref),
        (if required then lives a.store session else []).count (.used scope r) = 0 := by
      intro required session
      cases required <;> cases session <;> simp [lives]
    rw [List.count_append, List.count_append, hlives, hlives, hlives]

section

variable (h : c.Sound good phases)

include h

theorem Sound.commit (hj : j < c.admissionStates.size) (hphase : phases j = .granted) :
    ((c.settle j (c.admission j).stableReserved).newCharges (c.admission j)).1.Sound good
      (Function.update phases j (.ended .committed)) := by
  have hopen : (phases j).isEnded = false := by rw [hphase]; rfl
  have hfree : (phases j).claim? = none := by rw [hphase]; rfl
  have hsettled := h.phased.unsettled hj hopen
  have hreserved : (c.admission j).stableReserved = (c.admission j).requirements.stableHandle := by
    rw [h.phased.stableReserved j hj hopen, hphase]
    simp
  have hlinks := h.linked.admissions j hj
  have hconsistent : (c.settle j (c.admission j).stableReserved).Consistent
      (Function.update phases j (.ended .committed)) := by
    refine ⟨?_, ?_, ?_⟩
    · have hlinked := h.linked.modifyAdmission (j := j)
        (f := (·.settle (c.admission j).stableReserved)) fun _ => ⟨rfl, rfl, rfl⟩
      exact hlinked.of_same rfl rfl rfl rfl rfl
    · have hphased := h.phased.advance (j := j)
        (f := (·.settle (c.admission j).stableReserved)) hfree (.ended .committed) rfl
        (fun _ => ⟨rfl, rfl⟩) rfl
        (fun hfalse => by cases hfalse)
      exact hphased.of_same rfl rfl rfl
    · exact h.listed.of_same rfl rfl rfl rfl rfl
  have hadmission := replaces_admission (c := c)
    phases (Function.update phases j (.ended .committed)) hj
    (f := (·.settle (c.admission j).stableReserved)) update_of_ne
  rw [holdings_open hsettled hfree hopen, Function.update_self, holdings_ended rfl,
    if_neg (by simp)] at hadmission
  have hsettle : Moves c (c.settle j (c.admission j).stableReserved) []
      ([] ++ pendings (c.admission j).store (c.admission j).session) :=
    ((Moves.refl c).down _).same rfl
  obtain ⟨new, gain, hgrows, hnew, hgain⟩ := newCharges_grows hconsistent (a := c.admission j)
    hlinks.1
    hlinks.2.1
  have hreplaces : Replaces c phases (c.settle j (c.admission j).stableReserved)
    (Function.update phases j (.ended .committed)) _ _ := hadmission
  have hunits : (c.admission j).reservations = nonStables (c.admission j).store
      (c.admission j).session (c.admission j).requirements ++
      if (c.admission j).requirements.stableHandle then stableHandles (c.admission j).store
        else [] := by
    unfold AdmissionState.reservations
    rw [hreserved]
  refine h.step (d := ((c.settle j (c.admission j).stableReserved).newCharges (c.admission j)).1)
    (.of_units rfl (hreplaces.trans hgrows.replaces) (hsettle.trans hgrows.moves) ?_ hgain)
    hgrows.stores hgrows.sessions hgrows.shares hgrows.limits hgrows.consistent
  intro x
  have hnew := hnew x
  rw [AdmissionState.requested, hunits]
  simp only [List.count_append, List.count_nil]
  omega

/-! ### Candidates -/

theorem Sound.removeAvailableCandidate (hk : k < c.candidateStates.size)
    (hlisted : c.listed k = true) (hclaim : (c.candidate k).claim = none) :
    (c.removeAvailableCandidate k).Sound good phases := by
  obtain ⟨-, hactive, -⟩ := h.listed.charge k hk hlisted
  have hkept : (c.candidate k).withdrawn = false := by
    cases hwithdrawn : (c.candidate k).withdrawn with
    | false => rfl
    | true => exact absurd hclaim (h.listed.withdrawn k hk hlisted hwithdrawn)
  have hreclaimable : c.reclaimable k = true := by
    exact decide_eq_true ⟨hclaim, hkept, hactive⟩
  have hreplaces := replaces_remove phases
    (sameIdentities_unlist k) hk hlisted rfl (fun _ _ => rfl) hclaim rfl rfl
  rw [holdings_unclaimed hclaim, hkept] at hreplaces
  have hmoves := ((Moves.refl c).same (d := c.unlist k) rfl).down
    (reclaimables (c.candidate k).store)
  unfold Coordinator.removeAvailableCandidate
  rw [if_pos hreclaimable]
  refine h.step (d := c.unlist k) (.of_units rfl hreplaces hmoves ?_) rfl rfl rfl rfl ⟨?_, ?_, ?_⟩
  · intro x
    simp only [Bool.not_false, Bool.and_self, if_true, List.count_append, List.count_nil]
    omega
  · exact h.linked.of_same rfl rfl rfl rfl rfl
  · exact h.phased.of_same rfl rfl rfl
  · exact h.listed.remove (sameIdentities_unlist k) hk hlisted rfl rfl (fun _ _ => rfl) hclaim
      rfl rfl

theorem Sound.withdraw (hk : k < c.candidateStates.size)
    (hlisted : c.listed k = true) : (c.withdraw k).Sound good phases := by
  unfold Coordinator.withdraw
  split
  · rename_i hclaim
    exact h.removeAvailableCandidate hk hlisted hclaim
  · rename_i hclaim
    have hreplaces := replaces_modifyCandidate (c := c)
      phases hk
      (f := (·.withdraw)) fun _ => ⟨rfl, rfl, rfl⟩
    rw [holdings_claimed hclaim, holdings_claimed (a := (c.candidate k).withdraw) hclaim]
      at hreplaces
    have hmoves := (Moves.refl c).same (d := c.modifyCandidate k (·.withdraw)) rfl
    refine h.step (d := c.modifyCandidate k (·.withdraw))
      (.of_units rfl hreplaces hmoves fun _ => rfl) rfl rfl rfl rfl ⟨?_, ?_, ?_⟩
    · exact h.linked.modifyCandidate fun _ => rfl
    · refine h.phased.of_candidates rfl rfl le_rfl ?_ ?_
      · intro i _
        rw [candidate_modify]
        split
        · rename_i heq
          subst heq
          exact ⟨rfl, rfl⟩
        · exact ⟨rfl, rfl⟩
      · intro i hi hge
        exact absurd hi (Nat.not_lt.mpr hge)
    · exact h.listed.modifyCandidate (fun _ => ⟨rfl, rfl, rfl⟩) hlisted (fun _ => hclaim)
        (fun _ => rfl)

theorem Sound.publish {a : CandidateState}
    (hkey : c.candidates.get? a.key = none) (hfree : c.byCharge.get? a.charge = none)
    (hcharge : a.charge < c.chargeStates.size ∧ (c.charge a.charge).status = .active ∧
      (c.charge a.charge).kind = .stableHandle ∧ (c.charge a.charge).store = a.store)
    (hclaim : a.claim = none) (hwithdrawn : a.withdrawn = false)
    (hstore : a.store < c.storeStates.size) (hopen : (c.store a.store).closing = false) :
    ((c.publish a).up (reclaimables a.store)).Sound good phases := by
  have hmoves := ((Moves.refl c).same (d := c.publish a) rfl).up (reclaimables a.store)
  refine h.step (d := c.publish a)
    (.of_units rfl (replaces_publish hkey hclaim hwithdrawn) hmoves ?_) rfl rfl rfl rfl ⟨?_, ?_, ?_⟩
  · intro x
    simp only [List.count_append, List.count_nil]
    omega
  · exact ⟨h.linked.charges, h.linked.admissions, h.linked.candidates.alloc hstore⟩
  · refine h.phased.of_candidates rfl rfl (Nat.le_succ _) ?_ ?_
    · intro i hi
      rw [candidate_publish_of_lt hi]
      exact ⟨rfl, rfl⟩
    · intro i hi hge
      obtain rfl : i = c.candidateStates.size := Nat.le_antisymm (Nat.le_of_lt_succ hi) hge
      rw [candidate_publish_size]
      exact hclaim
  · exact h.listed.publish hkey hfree hcharge hwithdrawn hopen

/-! ### The end of charges -/

/-- The candidate of an unclaimed charge is dropped, and the charge has none after it. -/
theorem Sound.dropCandidate (hclaimed : c.claimedCharge i = false) :
    (c.dropCandidate i).Sound good phases ∧ (c.dropCandidate i).byCharge.get? i = none ∧
      (c.dropCandidate i).chargeStates = c.chargeStates := by
  unfold Coordinator.dropCandidate
  cases hget : c.byCharge.get? i with
  | none => exact ⟨h, hget, rfl⟩
  | some k =>
    obtain ⟨hk, hlisted, hcharge⟩ := (h.listed.byCharge i k).mp hget
    have hclaim : (c.candidate k).claim = none := by
      unfold claimedCharge at hclaimed
      rw [hget] at hclaimed
      simpa using hclaimed
    refine ⟨h.removeAvailableCandidate hk hlisted hclaim, ?_, rfl⟩
    subst hcharge
    exact FiniteMap.get?_erase_self

theorem Sound.endCharge (hi : i < c.chargeStates.size)
    (hactive : (c.charge i).status = .active) (hfree : c.byCharge.get? i = none)
    (status : ChargeStatus) {gain loss : List Counter}
    (hobjects : Recounts (c.modifyCharge i (·.resolve status)) c') (hmoves : Moves c c' gain loss)
    (hunits : ∀ x, ((c.charge i).resolve status).holdings.count x + loss.count x =
      (chargeUnits (c.charge i)).count x + (lives (c.charge i).store (c.charge i).session).count x +
        gain.count x)
    (hgain : ∀ scope r, gain.count (.used scope r) = 0 := by simp [quarantines]) :
    c'.Sound good phases := by
  have hreplaces := replaces_charge (c := c) phases hi (f := (·.resolve status))
  have hold : (c.charge i).holdings =
      chargeUnits (c.charge i) ++ lives (c.charge i).store (c.charge i).session := by
    unfold ChargeState.holdings
    rw [hactive]
  rw [hold] at hreplaces
  refine h.step (d := c.modifyCharge i (·.resolve status))
    (.of_units hobjects hreplaces hmoves ?_ hgain) rfl rfl rfl rfl ⟨?_, ?_, ?_⟩
  · intro x
    rw [List.count_append]
    exact hunits x
  · exact h.linked.modifyCharge fun _ => ⟨rfl, rfl, rfl⟩
  · exact h.phased.of_same rfl rfl rfl
  · exact h.listed.modifyCharge hfree

theorem Sound.releaseActive (hi : i < c.chargeStates.size)
    (hactive : (c.charge i).status = .active) (hclaimed : c.claimedCharge i = false) :
    (((c.dropCandidate i).down (chargeUnits (c.charge i))).endCharge i .released).Sound
      good phases := by
  obtain ⟨hsound, hfree, hcharges⟩ := h.dropCandidate hclaimed
  have hcharge : (c.dropCandidate i).charge i = c.charge i := by
    unfold Coordinator.charge
    rw [hcharges]
  rw [← hcharge] at hactive ⊢
  rw [← hcharges] at hi
  generalize c.dropCandidate i = d at *
  have hmoves := ((Moves.refl d).down (chargeUnits (d.charge i))).down
    (lives (d.charge i).store (d.charge i).session)
  refine hsound.endCharge hi hactive hfree .released rfl (hmoves.same rfl) ?_
  intro x
  simp only [ChargeState.holdings, ChargeState.resolve, List.count_append, List.count_nil]
  omega

theorem Sound.quarantineActive (hi : i < c.chargeStates.size)
    (hactive : (c.charge i).status = .active) (hkind : (c.charge i).kind = .stableHandle)
    (hclaimed : c.claimedCharge i = false) :
    (((c.dropCandidate i).endCharge i .quarantined).up (quarantines (c.charge i).store)).Sound good
      phases := by
  obtain ⟨hsound, hfree, hcharges⟩ := h.dropCandidate hclaimed
  have hcharge : (c.dropCandidate i).charge i = c.charge i := by
    unfold Coordinator.charge
    rw [hcharges]
  rw [← hcharge] at hactive hkind ⊢
  rw [← hcharges] at hi
  generalize c.dropCandidate i = d at *
  have hunits : chargeUnits (d.charge i) = stableHandles (d.charge i).store := by
    unfold chargeUnits
    rw [hkind]
  have hholdings : ((d.charge i).resolve .quarantined).holdings =
    stableHandles (d.charge i).store ++ quarantines (d.charge i).store := rfl
  have hmoves := (((Moves.refl d).down (lives (d.charge i).store (d.charge i).session)).same
    (d := d.endCharge i .quarantined) rfl).up (quarantines (d.charge i).store)
  refine hsound.endCharge hi hactive hfree .quarantined rfl hmoves ?_
  intro x
  rw [hunits, hholdings]
  simp only [List.count_append, List.count_nil]
  omega

end

end Coordinator

end Windshare.RevisionCapacity
