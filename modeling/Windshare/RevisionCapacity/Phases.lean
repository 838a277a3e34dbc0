import Windshare.RevisionCapacity.Candidates

/-!
# Steps of admissions

How an admission's record and the claim it holds change with the phase of its call.
-/

namespace Windshare.RevisionCapacity

open Windshare.Library

variable {p : PendingReclaim} {c' : Coordinator}

theorem AdmissionPhase.isEnded_of_claim {phase : AdmissionPhase}
    (h : phase.claim? = some p) : phase.isEnded = false ∧ phase ≠ .granted := by
  cases phase with
  | claimed | reclaiming => exact ⟨rfl, by simp⟩
  | reserving | granted | ended => cases h

namespace Coordinator

variable {c : Coordinator} {phases : Ref → AdmissionPhase} {j k : Ref} {new : AdmissionPhase}

theorem candidate_clearClaim (k i : Ref) : (c.clearClaim k).candidate i =
    if i = k then (c.candidate k).setClaim none else c.candidate i :=
  candidate_modify k i (·.setClaim none)

theorem candidate_claimCandidate (decision : CapacityDecisionID) (requester k i : Ref) :
    (c.claimCandidate decision requester k).candidate i =
      if i = k then (c.candidate k).setClaim (some c.claimStates.size) else c.candidate i :=
  candidate_modify k i (·.setClaim (some c.claimStates.size))

/-- The claim of an admission stays in flight while its fields and its candidate stay. -/
theorem InFlight.congr (h : c.InFlight j p)
    (hstore : (c'.admission j).store = (c.admission j).store)
    (hrequirements : (c'.admission j).requirements = (c.admission j).requirements)
    (hsize : c.candidateStates.size ≤ c'.candidateStates.size)
    (hclaim : (c'.candidate p.candidate).claim = (c.candidate p.candidate).claim)
    (hcandidate : (c'.candidate p.candidate).store = (c.candidate p.candidate).store)
    (hclaims : c.claimStates.size ≤ c'.claimStates.size)
    (hcell : c'.claimStates.get p.claim = c.claimStates.get p.claim) : c'.InFlight j p where
  stableHandle := hrequirements ▸ h.stableHandle
  candidate := h.candidate.trans_le hsize
  claim := hclaim.trans h.claim
  allocated := h.allocated.trans_le hclaims
  requester := by rw [hcell, hstore]; exact h.requester
  crossStore := by rw [hcandidate, hstore]; exact h.crossStore

section

variable (h : c.Phased phases)

include h

theorem Phased.advance (hold : (phases j).claim? = none)
    (new : AdmissionPhase) (hnew : new.claim? = none) {f : AdmissionState → AdmissionState}
    (hf : ∀ a, (f a).store = a.store ∧ (f a).requirements = a.requirements)
    (hsettled : (f (c.admission j)).settled = new.isEnded)
    (hreserved : new.isEnded = false → (f (c.admission j)).stableReserved =
      (decide (new = .granted) && (c.admission j).requirements.stableHandle)) :
    (c.modifyAdmission j f).Phased (Function.update phases j new) := by
  have hsame : ∀ i, ((c.modifyAdmission j f).admission i).store = (c.admission i).store ∧
      ((c.modifyAdmission j f).admission i).requirements = (c.admission i).requirements := by
    intro i
    rw [admission_modify]
    split
    · rename_i heq
      subst heq
      exact hf _
    · exact ⟨rfl, rfl⟩
  have hclaim : ∀ i, (Function.update phases j new i).claim? = (phases i).claim? := by
    intro i
    rw [Function.update_apply]
    split
    · rename_i heq
      rw [hnew, heq, hold]
    · rfl
  constructor
  case settled =>
    intro i hi
    rw [admission_modify, Function.update_apply]
    split
    · exact hsettled
    · exact h.settled i hi
  case stableReserved =>
    intro i hi
    rw [(hsame i).2, admission_modify, Function.update_apply]
    split
    · rename_i heq
      rw [heq]
      exact hreserved
    · exact h.stableReserved i hi
  case inFlight =>
    intro i hi p hp
    rw [hclaim] at hp
    exact (h.inFlight i hi p hp).congr (hsame i).1 (hsame i).2 le_rfl rfl rfl le_rfl rfl
  case unique =>
    intro i hi i' hi' p p' hp hp'
    rw [hclaim] at hp hp'
    exact h.unique i hi i' hi' p p' hp hp'
  case holder =>
    intro k hk hclaimed
    obtain ⟨i, hi, p, hp, hcandidate⟩ := h.holder k hk hclaimed
    exact ⟨i, hi, p, by rw [hclaim]; exact hp, hcandidate⟩

/-- The call goes on with its claim. -/
theorem Phased.proceed (hold : (phases j).claim? = some p) (hnew : new.claim? = some p) :
    c.Phased (Function.update phases j new) := by
  have hclaim : ∀ i, (Function.update phases j new i).claim? = (phases i).claim? := by
    intro i
    rw [Function.update_apply]
    split
    · rename_i heq
      rw [hnew, heq, hold]
    · rfl
  obtain ⟨holdEnded, holdGranted⟩ := AdmissionPhase.isEnded_of_claim hold
  obtain ⟨hnewEnded, hnewGranted⟩ := AdmissionPhase.isEnded_of_claim hnew
  constructor
  case settled =>
    intro i hi
    rw [Function.update_apply]
    split
    · rename_i heq
      rw [hnewEnded, h.settled i hi, heq, holdEnded]
    · exact h.settled i hi
  case stableReserved =>
    intro i hi hended
    have hreserved := h.stableReserved i hi
    rw [Function.update_apply] at hended ⊢
    split
    · rename_i heq
      rw [heq, holdEnded, decide_eq_false holdGranted] at hreserved
      rw [decide_eq_false hnewGranted, heq]
      exact hreserved rfl
    · rename_i hne
      rw [if_neg hne] at hended
      exact hreserved hended
  case inFlight =>
    intro i hi q hq
    rw [hclaim] at hq
    exact h.inFlight i hi q hq
  case unique =>
    intro i hi i' hi' q q' hq hq'
    rw [hclaim] at hq hq'
    exact h.unique i hi i' hi' q q' hq hq'
  case holder =>
    intro k hk hclaimed
    obtain ⟨i, hi, q, hq, hcandidate⟩ := h.holder k hk hclaimed
    exact ⟨i, hi, q, by rw [hclaim]; exact hq, hcandidate⟩

/-- The claim of an admission ends, and the call is back to its reservation. -/
theorem Phased.unclaim (hj : j < c.admissionStates.size) (hp : (phases j).claim? = some p) :
    (c.clearClaim p.candidate).Phased (Function.update phases j .reserving) := by
  obtain ⟨hended, hgranted⟩ := AdmissionPhase.isEnded_of_claim hp
  have hcell : ∀ i ≠ p.candidate, (c.clearClaim p.candidate).candidate i = c.candidate i :=
    fun i hne => (candidate_clearClaim _ i).trans (if_neg hne)
  have hself : ((c.clearClaim p.candidate).candidate p.candidate).claim = none := by
    rw [candidate_clearClaim, if_pos rfl]
    rfl
  -- another admission in flight has another candidate
  have hother : ∀ i < c.admissionStates.size, ∀ q,
      (Function.update phases j .reserving i).claim? = some q →
      i ≠ j ∧ (phases i).claim? = some q ∧ q.candidate ≠ p.candidate := by
    intro i hi q hq
    rw [Function.update_apply] at hq
    split at hq
    · cases hq
    · rename_i hne
      exact ⟨hne, hq, fun heq => hne (h.unique i hi j hj q p hq hp heq)⟩
  constructor
  case settled =>
    intro i hi
    have hsettled := h.settled i hi
    rw [Function.update_apply]
    split
    · rename_i heq
      rw [heq, hended] at hsettled
      rw [heq]
      exact hsettled
    · exact hsettled
  case stableReserved =>
    intro i hi
    have hreserved := h.stableReserved i hi
    rw [Function.update_apply]
    split
    · rename_i heq
      rw [heq, decide_eq_false hgranted] at hreserved
      intro _
      rw [heq]
      exact hreserved hended
    · exact hreserved
  case inFlight =>
    intro i hi q hq
    obtain ⟨-, hq, hne⟩ := hother i hi q hq
    exact (h.inFlight i hi q hq).congr rfl rfl le_rfl (congrArg _ (hcell _ hne))
      (congrArg _ (hcell _ hne)) le_rfl rfl
  case unique =>
    intro i hi i' hi' q q' hq hq'
    exact h.unique i hi i' hi' q q' (hother i hi q hq).2.1 (hother i' hi' q' hq').2.1
  case holder =>
    intro k hk hclaimed
    have hne : k ≠ p.candidate := by
      rintro rfl
      exact hclaimed hself
    rw [hcell k hne] at hclaimed
    obtain ⟨i, hi, q, hq, hcandidate⟩ := h.holder k hk hclaimed
    have hij : i ≠ j := by
      rintro rfl
      rw [hp] at hq
      exact hne (hcandidate.symm.trans (congrArg _ (Option.some.inj hq).symm))
    exact ⟨i, hi, q, by rw [Function.update_of_ne hij]; exact hq, hcandidate⟩

theorem Phased.claim (hj : j < c.admissionStates.size)
    (hphase : phases j = .reserving) (hk : k < c.candidateStates.size)
    (hfree : (c.candidate k).claim = none)
    (hstable : (c.admission j).requirements.stableHandle = true)
    (hp : p = ⟨k, c.claimStates.size, decide ((c.candidate k).store ≠ (c.admission j).store)⟩) :
    (c.claimCandidate (c.admission j).decisionID (c.admission j).store k).Phased
      (Function.update phases j (.claimed p)) := by
  have hcell : ∀ i ≠ k, (c.claimCandidate (c.admission j).decisionID (c.admission j).store
      k).candidate i = c.candidate i :=
    fun i hne => (candidate_claimCandidate _ _ k i).trans (if_neg hne)
  have hself : (c.claimCandidate (c.admission j).decisionID (c.admission j).store k).candidate k =
      (c.candidate k).setClaim (some c.claimStates.size) :=
    (candidate_claimCandidate _ _ k k).trans (if_pos rfl)
  -- the candidates in flight before are other ones
  have hbefore : ∀ i < c.admissionStates.size, ∀ q, (phases i).claim? = some q →
      q.candidate ≠ k := by
    rintro i hi q hq rfl
    have hclaim := (h.inFlight i hi q hq).claim
    rw [hfree] at hclaim
    cases hclaim
  have hcases : ∀ i, ∀ q, (Function.update phases j (.claimed p) i).claim? = some q →
      i = j ∧ q = p ∨ i ≠ j ∧ (phases i).claim? = some q := by
    intro i q hq
    rw [Function.update_apply] at hq
    split at hq
    · rename_i heq
      exact .inl ⟨heq, (Option.some.inj hq).symm⟩
    · rename_i hne
      exact .inr ⟨hne, hq⟩
  constructor
  case settled =>
    intro i hi
    have hsettled := h.settled i hi
    rw [Function.update_apply]
    split
    · rename_i heq
      rw [heq, hphase] at hsettled
      rw [heq]
      exact hsettled
    · exact hsettled
  case stableReserved =>
    intro i hi
    have hreserved := h.stableReserved i hi
    rw [Function.update_apply]
    split
    · rename_i heq
      rw [heq, hphase] at hreserved
      intro _
      rw [heq]
      exact hreserved rfl
    · exact hreserved
  case inFlight =>
    intro i hi q hq
    obtain ⟨rfl, rfl⟩ | ⟨-, hq⟩ := hcases i q hq
    · subst hp
      refine ⟨hstable, hk, ?_, Nat.lt_succ_self _, ?_, ?_⟩
      · rw [hself]
        rfl
      · exact congrArg ReclaimState.requester c.claimStates.get_alloc_size
      · rw [hself]
        rfl
    · have hne := hbefore i hi q hq
      have hflight := h.inFlight i hi q hq
      exact hflight.congr rfl rfl le_rfl (congrArg _ (hcell _ hne)) (congrArg _ (hcell _ hne))
        (Nat.le_succ _) (c.claimStates.get_alloc_of_lt hflight.allocated)
  case unique =>
    intro i hi i' hi' q q' hq hq' hcandidate
    have hcandidatep : p.candidate = k := congrArg PendingReclaim.candidate hp
    obtain ⟨hij, rfl⟩ | ⟨-, hold⟩ := hcases i q hq
    · obtain ⟨hij', -⟩ | ⟨-, hold'⟩ := hcases i' q' hq'
      · rw [hij, hij']
      · exact absurd (hcandidate.symm.trans hcandidatep) (hbefore i' hi' q' hold')
    · obtain ⟨-, rfl⟩ | ⟨-, hold'⟩ := hcases i' q' hq'
      · exact absurd (hcandidate.trans hcandidatep) (hbefore i hi q hold)
      · exact h.unique i hi i' hi' q q' hold hold' hcandidate
  case holder =>
    intro i hi hclaimed
    by_cases hik : i = k
    · subst hik
      exact ⟨j, hj, p, by rw [Function.update_self]; rfl, by rw [hp]⟩
    · rw [hcell i hik] at hclaimed
      obtain ⟨i', hi', q, hq, hcandidate⟩ := h.holder i hi hclaimed
      have hne : i' ≠ j := by
        rintro rfl
        rw [hphase] at hq
        cases hq
      exact ⟨i', hi', q, by rw [Function.update_of_ne hne]; exact hq, hcandidate⟩

/-- A new call of `Admit`. -/
theorem Phased.begin {a : AdmissionState} (hsettled : a.settled = false)
    (hreserved : a.stableReserved = false) :
    (c.addAdmission a).Phased (Function.update phases c.admissionStates.size .reserving) := by
  have hcases : ∀ i < c.admissionStates.size + 1, i = c.admissionStates.size ∨
      i < c.admissionStates.size := fun i hi => (Nat.lt_succ_iff_lt_or_eq.mp hi).symm
  have hcell : ∀ i < c.admissionStates.size, (c.addAdmission a).admission i = c.admission i :=
    fun i hi => c.admissionStates.get_alloc_of_lt hi
  have hself : (c.addAdmission a).admission c.admissionStates.size = a :=
    c.admissionStates.get_alloc_size
  have hphase : ∀ i < c.admissionStates.size,
      Function.update phases c.admissionStates.size .reserving i = phases i :=
    fun i hi => Function.update_of_ne (Nat.ne_of_lt hi) _ _
  have hclaim : ∀ i < c.admissionStates.size + 1, ∀ p,
      (Function.update phases c.admissionStates.size .reserving i).claim? = some p →
      i < c.admissionStates.size ∧ (phases i).claim? = some p := by
    intro i hi p hp
    obtain rfl | hi := hcases i hi
    · rw [Function.update_self] at hp
      cases hp
    · rw [hphase i hi] at hp
      exact ⟨hi, hp⟩
  constructor
  case settled =>
    intro i hi
    obtain rfl | hi := hcases i hi
    · rw [hself, Function.update_self]
      exact hsettled
    · rw [hcell i hi, hphase i hi]
      exact h.settled i hi
  case stableReserved =>
    intro i hi
    obtain rfl | hi := hcases i hi
    · rw [hself, Function.update_self]
      intro _
      exact hreserved
    · rw [hcell i hi, hphase i hi]
      exact h.stableReserved i hi
  case inFlight =>
    intro i hi p hp
    obtain ⟨hi, hp⟩ := hclaim i hi p hp
    exact (h.inFlight i hi p hp).congr (congrArg _ (hcell i hi)) (congrArg _ (hcell i hi)) le_rfl
      rfl rfl le_rfl rfl
  case unique =>
    intro i hi i' hi' p p' hp hp'
    obtain ⟨hi, hp⟩ := hclaim i hi p hp
    obtain ⟨hi', hp'⟩ := hclaim i' hi' p' hp'
    exact h.unique i hi i' hi' p p' hp hp'
  case holder =>
    intro k hk hclaimed
    obtain ⟨i, hi, p, hp, hcandidate⟩ := h.holder k hk hclaimed
    exact ⟨i, Nat.lt_succ_of_lt hi, p, by rw [hphase i hi]; exact hp, hcandidate⟩

theorem Phased.of_candidates (hadmissions : c'.admissionStates = c.admissionStates)
    (hclaims : c'.claimStates = c.claimStates)
    (hsize : c.candidateStates.size ≤ c'.candidateStates.size)
    (hold : ∀ k < c.candidateStates.size, (c'.candidate k).claim = (c.candidate k).claim ∧
      (c'.candidate k).store = (c.candidate k).store)
    (hnew : ∀ k < c'.candidateStates.size, c.candidateStates.size ≤ k →
      (c'.candidate k).claim = none) : c'.Phased phases := by
  have hcell : ∀ i, c'.admission i = c.admission i := fun i => by
    unfold admission
    rw [hadmissions]
  constructor
  case settled =>
    intro i hi
    rw [hadmissions] at hi
    rw [hcell]
    exact h.settled i hi
  case stableReserved =>
    intro i hi
    rw [hadmissions] at hi
    rw [hcell]
    exact h.stableReserved i hi
  case inFlight =>
    intro i hi p hp
    rw [hadmissions] at hi
    have hflight := h.inFlight i hi p hp
    obtain ⟨hclaim, hstore⟩ := hold p.candidate hflight.candidate
    exact hflight.congr (congrArg _ (hcell i)) (congrArg _ (hcell i)) hsize hclaim hstore
      (hclaims ▸ le_rfl) (by rw [hclaims])
  case unique =>
    intro i hi i' hi'
    rw [hadmissions] at hi hi'
    exact h.unique i hi i' hi'
  case holder =>
    intro k hk hclaimed
    rw [hadmissions]
    by_cases hlt : k < c.candidateStates.size
    · rw [(hold k hlt).1] at hclaimed
      exact h.holder k hlt hclaimed
    · exact absurd (hnew k hk (Nat.not_lt.mp hlt)) hclaimed

end

end Coordinator

end Windshare.RevisionCapacity
