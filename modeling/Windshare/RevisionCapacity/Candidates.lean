import Windshare.RevisionCapacity.Invariant

/-!
# Steps of candidates

How publishing, withdrawing, claiming and dropping a candidate change the maps and the units
that candidates hold.
-/

namespace Windshare.RevisionCapacity

open Windshare.Library

namespace Coordinator

variable {c c' : Coordinator} {phases : Ref → AdmissionPhase} {k : Ref}

theorem listed_iff : c.listed k = true ↔ c.candidates.get? (c.candidate k).key = some k :=
  decide_eq_true_iff

/-- The keys, stores and charges of candidates never change. -/
structure SameIdentities (c c' : Coordinator) : Prop where
  size : c'.candidateStates.size = c.candidateStates.size
  key : ∀ i, (c'.candidate i).key = (c.candidate i).key
  store : ∀ i, (c'.candidate i).store = (c.candidate i).store
  charge : ∀ i, (c'.candidate i).charge = (c.candidate i).charge

variable {a : CandidateState} {f : CandidateState → CandidateState}

theorem sameIdentities_modify
    (hf : ∀ a, (f a).key = a.key ∧ (f a).store = a.store ∧ (f a).charge = a.charge) :
    SameIdentities c (c.modifyCandidate k f) := by
  have hsame : ∀ i, ((c.modifyCandidate k f).candidate i).key = (c.candidate i).key ∧
      ((c.modifyCandidate k f).candidate i).store = (c.candidate i).store ∧
      ((c.modifyCandidate k f).candidate i).charge = (c.candidate i).charge := by
    intro i
    rw [candidate_modify]
    split
    · rename_i heq
      subst heq
      exact hf _
    · exact ⟨rfl, rfl, rfl⟩
  exact ⟨rfl, fun i => (hsame i).1, fun i => (hsame i).2.1, fun i => (hsame i).2.2⟩

theorem SameIdentities.listed (h : SameIdentities c c') (hmap : c'.candidates = c.candidates)
    (i : Ref) : c'.listed i = c.listed i := by
  unfold Coordinator.listed
  rw [hmap, h.key]

/-- Erasing the entry of a listed candidate unlists it and no other one. -/
theorem SameIdentities.listed_erase (h : SameIdentities c c') (hk : c.listed k = true)
    (hmap : c'.candidates = c.candidates.erase (c.candidate k).key) (i : Ref) :
    c'.listed i = (decide (i ≠ k) && c.listed i) := by
  have hentry := listed_iff.mp hk
  unfold Coordinator.listed
  rw [hmap, h.key, FiniteMap.get?_erase]
  by_cases hkey : (c.candidate k).key = (c.candidate i).key
  · rw [if_pos hkey, ← hkey, hentry]
    by_cases hik : i = k
    · simp [hik]
    · have hki : k ≠ i := fun h => hik h.symm
      simp [hki]
  · have hik : i ≠ k := by
      rintro rfl
      exact hkey rfl
    rw [if_neg hkey]
    simp [hik]

/-! ### The maps -/

/-- A change of a candidate that stays in the maps. -/
theorem Listed.modifyCandidate (h : c.Listed)
    (hf : ∀ a, (f a).key = a.key ∧ (f a).store = a.store ∧ (f a).charge = a.charge)
    (hlisted : c.listed k = true)
    (hwithdrawn : (f (c.candidate k)).withdrawn = true → (f (c.candidate k)).claim ≠ none)
    (hclosing : (c.store (c.candidate k).store).closing = true →
      (f (c.candidate k)).withdrawn = true) :
    (c.modifyCandidate k f).Listed := by
  have hsame : SameIdentities c (c.modifyCandidate k f) := sameIdentities_modify hf
  have hlist : ∀ i, (c.modifyCandidate k f).listed i = c.listed i := hsame.listed rfl
  have hcell := fun i => candidate_modify (c := c) k i f
  constructor
  case entry =>
    intro key i hget
    rw [hsame.key]
    exact h.entry key i hget
  case byCharge =>
    intro i j
    rw [hlist, hsame.charge]
    exact h.byCharge i j
  case charge =>
    intro i hi hlisted
    rw [hlist] at hlisted
    unfold victim
    rw [hsame.charge, hsame.store]
    exact h.charge i hi hlisted
  case claimed =>
    intro i hi hclaim
    rw [hlist]
    rw [hcell] at hclaim
    split at hclaim
    · rename_i heq
      rw [heq]
      exact hlisted
    · exact h.claimed i hi hclaim
  case withdrawn =>
    intro i hi hlisted
    rw [hlist] at hlisted
    rw [hcell]
    split
    · exact hwithdrawn
    · exact h.withdrawn i hi hlisted
  case closing =>
    intro i hi hlisted hstore
    rw [hlist] at hlisted
    rw [hsame.store] at hstore
    rw [hcell]
    split
    · rename_i heq
      rw [heq] at hstore
      exact hclosing hstore
    · exact h.closing i hi hlisted hstore

/-- A listed candidate without a claim leaves the maps. -/
theorem Listed.remove (h : c.Listed) (hsame : SameIdentities c c') (hk : k < c.candidateStates.size)
    (hlisted : c.listed k = true)
    (hmap : c'.candidates = c.candidates.erase (c.candidate k).key)
    (hbyCharge : c'.byCharge = c.byCharge.erase (c.candidate k).charge)
    (hother : ∀ i ≠ k, c'.candidate i = c.candidate i) (hclaim : (c'.candidate k).claim = none)
    (hcharges : c'.chargeStates = c.chargeStates) (hstores : c'.storeStates = c.storeStates) :
    c'.Listed := by
  have hlist := hsame.listed_erase hlisted hmap
  -- what stays listed is not the removed candidate, so its record did not change
  have hstays : ∀ i, c'.listed i = true → i ≠ k ∧ c.listed i = true ∧
      c'.candidate i = c.candidate i := by
    intro i hi
    rw [hlist, Bool.and_eq_true, decide_eq_true_iff] at hi
    exact ⟨hi.1, hi.2, hother i hi.1⟩
  constructor
  case entry =>
    intro key i hget
    rw [hmap, FiniteMap.get?_erase] at hget
    split at hget
    · cases hget
    · rw [hsame.size, hsame.key]
      exact h.entry key i hget
  case byCharge =>
    intro i j
    rw [hbyCharge, FiniteMap.get?_erase, hsame.size, hsame.charge, hlist]
    have hiff := h.byCharge i j
    have hself := (h.byCharge (c.candidate k).charge k).mpr ⟨hk, hlisted, rfl⟩
    split
    · rename_i heq
      constructor
      · intro hnone
        cases hnone
      · rintro ⟨hj, hne, hcharge⟩
        rw [Bool.and_eq_true, decide_eq_true_iff] at hne
        have hentry := (h.byCharge i j).mpr ⟨hj, hne.2, hcharge⟩
        rw [← heq, hself] at hentry
        exact absurd (Option.some.inj hentry).symm hne.1
    · rename_i hcharge
      rw [hiff]
      constructor
      · rintro ⟨hj, hlistedj, hchargej⟩
        have hne : j ≠ k := by
          rintro rfl
          exact hcharge hchargej
        exact ⟨hj, by simp [hne, hlistedj], hchargej⟩
      · rintro ⟨hj, hlistedj, hchargej⟩
        rw [Bool.and_eq_true] at hlistedj
        exact ⟨hj, hlistedj.2, hchargej⟩
  case charge =>
    intro i hi hlistedi
    obtain ⟨-, hlistedi, hcell⟩ := hstays i hlistedi
    rw [hsame.size] at hi
    have hcharge := h.charge i hi hlistedi
    unfold victim Coordinator.charge at hcharge ⊢
    rw [hcell, hcharges]
    exact hcharge
  case claimed =>
    intro i hi hclaimi
    have hne : i ≠ k := by
      rintro rfl
      exact hclaimi hclaim
    rw [hsame.size] at hi
    rw [hother i hne] at hclaimi
    rw [hlist, h.claimed i hi hclaimi, Bool.and_true, decide_eq_true_iff]
    exact hne
  case withdrawn =>
    intro i hi hlistedi
    obtain ⟨-, hlistedi, hcell⟩ := hstays i hlistedi
    rw [hsame.size] at hi
    rw [hcell]
    exact h.withdrawn i hi hlistedi
  case closing =>
    intro i hi hlistedi
    obtain ⟨-, hlistedi, hcell⟩ := hstays i hlistedi
    rw [hsame.size] at hi
    unfold store
    rw [hcell, hstores]
    exact h.closing i hi hlistedi

/-- A charge that no candidate owns changes. -/
theorem Listed.modifyCharge (h : c.Listed) {i : Ref} {f : ChargeState → ChargeState}
    (hfree : c.byCharge.get? i = none) : (c.modifyCharge i f).Listed := by
  refine ⟨h.entry, h.byCharge, ?_, h.claimed, h.withdrawn, h.closing⟩
  intro j hj hlisted
  have hne : (c.candidate j).charge ≠ i := by
    rintro rfl
    rw [(h.byCharge _ j).mpr ⟨hj, hlisted, rfl⟩] at hfree
    cases hfree
  have hcell : (c.modifyCharge i f).victim j = c.victim j := c.chargeStates.get_modify_of_ne hne
  rw [hcell]
  exact h.charge j hj hlisted

/-- More charges do not matter to the candidates. -/
theorem Listed.addCharge (h : c.Listed) {a : ChargeState} : (c.addCharge a).Listed := by
  refine ⟨h.entry, h.byCharge, ?_, h.claimed, h.withdrawn, h.closing⟩
  intro j hj hlisted
  obtain ⟨hlt, hcharge⟩ := h.charge j hj hlisted
  have hcell : (c.addCharge a).victim j = c.victim j := c.chargeStates.get_alloc_of_lt hlt
  rw [hcell]
  exact ⟨Nat.lt_succ_of_lt hlt, hcharge⟩

theorem Listed.of_stores (h : c.Listed) (stores : Heap StoreState)
    (hclosing : ∀ k < c.candidateStates.size, c.listed k = true →
      (stores.get (c.candidate k).store).closing = true → (c.candidate k).withdrawn = true) :
    Listed { c with storeStates := stores } :=
  ⟨h.entry, h.byCharge, h.charge, h.claimed, h.withdrawn, hclosing⟩

theorem candidate_publish_of_lt (hk : k < c.candidateStates.size) :
    (c.publish a).candidate k = c.candidate k := c.candidateStates.get_alloc_of_lt hk

theorem candidate_publish_size :
    (c.publish a).candidate c.candidateStates.size = a := c.candidateStates.get_alloc_size

theorem listed_publish_of_lt (hkey : c.candidates.get? a.key = none)
    (hk : k < c.candidateStates.size) : (c.publish a).listed k = c.listed k := by
  unfold Coordinator.listed
  rw [candidate_publish_of_lt hk]
  unfold publish
  rw [FiniteMap.get?_insert]
  by_cases heq : a.key = (c.candidate k).key
  · have hne : c.candidateStates.size ≠ k := Nat.ne_of_gt hk
    rw [if_pos heq, ← heq, hkey]
    simp [hne]
  · rw [if_neg heq]

theorem listed_publish_size : (c.publish a).listed c.candidateStates.size = true := by
  rw [listed_iff, candidate_publish_size]
  exact FiniteMap.get?_insert_self

theorem Listed.publish (h : c.Listed)
    (hkey : c.candidates.get? a.key = none) (hfree : c.byCharge.get? a.charge = none)
    (hcharge : a.charge < c.chargeStates.size ∧ (c.charge a.charge).status = .active ∧
      (c.charge a.charge).kind = .stableHandle ∧ (c.charge a.charge).store = a.store)
    (hwithdrawn : a.withdrawn = false) (hopen : (c.store a.store).closing = false) :
    (c.publish a).Listed := by
  have hcases : ∀ i < (c.publish a).candidateStates.size, i = c.candidateStates.size ∨
      i < c.candidateStates.size := fun i hi => (Nat.lt_succ_iff_lt_or_eq.mp hi).symm
  constructor
  case entry =>
    intro key i hget
    change (c.candidates.insert a.key c.candidateStates.size).get? key = some i at hget
    rw [FiniteMap.get?_insert] at hget
    split at hget
    · rename_i heq
      obtain rfl := Option.some.inj hget
      exact ⟨Nat.lt_succ_self _, by rw [candidate_publish_size, heq]⟩
    · obtain ⟨hi, hkeyi⟩ := h.entry key i hget
      exact ⟨Nat.lt_succ_of_lt hi, by rw [candidate_publish_of_lt hi, hkeyi]⟩
  case byCharge =>
    intro i j
    change (c.byCharge.insert a.charge c.candidateStates.size).get? i = some j ↔ _
    rw [FiniteMap.get?_insert]
    constructor
    · intro hget
      split at hget
      · rename_i heq
        obtain rfl := Option.some.inj hget
        refine ⟨Nat.lt_succ_self _, listed_publish_size, ?_⟩
        rw [candidate_publish_size, heq]
      · obtain ⟨hj, hlisted, hchargej⟩ := (h.byCharge i j).mp hget
        refine ⟨Nat.lt_succ_of_lt hj, ?_, ?_⟩
        · rw [listed_publish_of_lt hkey hj]
          exact hlisted
        · rw [candidate_publish_of_lt hj]
          exact hchargej
    · rintro ⟨hj, hlisted, hchargej⟩
      obtain rfl | hj := hcases j hj
      · rw [candidate_publish_size] at hchargej
        rw [if_pos hchargej]
      · rw [listed_publish_of_lt hkey hj] at hlisted
        rw [candidate_publish_of_lt hj] at hchargej
        have hget := (h.byCharge i j).mpr ⟨hj, hlisted, hchargej⟩
        have hne : a.charge ≠ i := by
          rintro rfl
          rw [hfree] at hget
          cases hget
        rw [if_neg hne]
        exact hget
  case charge =>
    intro i hi hlisted
    unfold victim
    obtain rfl | hi := hcases i hi
    · rw [candidate_publish_size]
      exact hcharge
    · rw [listed_publish_of_lt hkey hi] at hlisted
      rw [candidate_publish_of_lt hi]
      exact h.charge i hi hlisted
  case claimed =>
    intro i hi hclaimi
    obtain rfl | hi := hcases i hi
    · exact listed_publish_size
    · rw [candidate_publish_of_lt hi] at hclaimi
      rw [listed_publish_of_lt hkey hi]
      exact h.claimed i hi hclaimi
  case withdrawn =>
    intro i hi hlisted
    obtain rfl | hi := hcases i hi
    · rw [candidate_publish_size, hwithdrawn]
      intro hfalse
      cases hfalse
    · rw [listed_publish_of_lt hkey hi] at hlisted
      rw [candidate_publish_of_lt hi]
      exact h.withdrawn i hi hlisted
  case closing =>
    intro i hi hlisted
    obtain rfl | hi := hcases i hi
    · rw [candidate_publish_size]
      intro hclosing
      rw [show (c.publish a).store a.store = c.store a.store from rfl, hopen] at hclosing
      cases hclosing
    · rw [listed_publish_of_lt hkey hi] at hlisted
      rw [candidate_publish_of_lt hi]
      exact h.closing i hi hlisted

/-! ### The units of candidates -/

theorem holdings_claimed {listed : Bool} (h : a.claim ≠ none) :
    a.holdings listed = claims a.store := by
  unfold CandidateState.holdings
  cases hclaim : a.claim with
  | none => exact absurd hclaim h
  | some => rfl

theorem holdings_unclaimed {listed : Bool} (h : a.claim = none) :
    a.holdings listed = if listed && !a.withdrawn then reclaimables a.store else [] := by
  unfold CandidateState.holdings
  rw [h]

/-- A candidate changes in place. -/
theorem replaces_modifyCandidate (phases : Ref → AdmissionPhase) (hk : k < c.candidateStates.size)
    (hf : ∀ a, (f a).key = a.key ∧ (f a).store = a.store ∧ (f a).charge = a.charge) :
    Replaces c phases (c.modifyCandidate k f) phases ((c.candidate k).holdings (c.listed k))
      ((f (c.candidate k)).holdings (c.listed k)) := by
  have hlist := (sameIdentities_modify (c := c) (k := k) hf).listed rfl
  have hreplaces : Replaces c phases (c.modifyCandidate k f) phases _ _ :=
    replaces_candidate phases hk rfl rfl rfl fun i _ hne =>
      ⟨c.candidateStates.get_modify_of_ne hne, hlist i⟩
  rw [hlist, show (c.modifyCandidate k f).candidate k = f (c.candidate k) from
    c.candidateStates.get_modify_self] at hreplaces
  exact hreplaces

/-- A candidate without a claim leaves the maps, and holds nothing. -/
theorem replaces_remove (phases : Ref → AdmissionPhase) (hsame : SameIdentities c c')
    (hk : k < c.candidateStates.size)
    (hlisted : c.listed k = true) (hmap : c'.candidates = c.candidates.erase (c.candidate k).key)
    (hother : ∀ i ≠ k, c'.candidate i = c.candidate i) (hclaim : (c'.candidate k).claim = none)
    (hcharges : c'.chargeStates = c.chargeStates)
    (hadmissions : c'.admissionStates = c.admissionStates) :
    Replaces c phases c' phases ((c.candidate k).holdings true) [] := by
  have hlist := hsame.listed_erase hlisted hmap
  have hreplaces := replaces_candidate phases hk hcharges hadmissions hsame.size
    fun i _ hne => ⟨hother i hne, by rw [hlist i]; simp [hne]⟩
  have hgone : c'.listed k = false := by
    rw [hlist k]
    simp
  rw [holdings_unclaimed hclaim, hgone, hlisted] at hreplaces
  exact hreplaces

theorem replaces_publish (hkey : c.candidates.get? a.key = none)
    (hclaim : a.claim = none) (hwithdrawn : a.withdrawn = false) :
    Replaces c phases (c.publish a) phases [] (reclaimables a.store) := by
  intro x
  have hcandidates : (c.publish a).candidateNumber x =
      c.candidateNumber x + (reclaimables a.store).count x := by
    have hnew : a.holdings ((c.publish a).listed c.candidateStates.size) =
        reclaimables a.store := by
      rw [listed_publish_size, holdings_unclaimed hclaim, hwithdrawn]
      rfl
    have hsum : (c.publish a).candidateNumber x =
        tally c.candidateStates.size (fun k => (((c.publish a).candidate k).holdings
          ((c.publish a).listed k)).count x) +
        (((c.publish a).candidate c.candidateStates.size).holdings
          ((c.publish a).listed c.candidateStates.size)).count x := tally_succ
    rw [hsum, candidate_publish_size, hnew]
    congr 1
    refine tally_congr fun k hk => ?_
    rw [candidate_publish_of_lt hk, listed_publish_of_lt hkey hk]
  have hcharges : (c.publish a).chargeNumber x = c.chargeNumber x := rfl
  have hadmissions : (c.publish a).admissionNumber phases x = c.admissionNumber phases x := rfl
  unfold number
  rw [List.count_nil]
  omega

end Coordinator

end Windshare.RevisionCapacity
