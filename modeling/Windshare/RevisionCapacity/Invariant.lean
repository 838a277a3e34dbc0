import Windshare.RevisionCapacity.Accounts

/-!
# The invariant of the coordinator

Besides the accounts: references point to allocated cells, an admission's record agrees with
where its call stands, a listed candidate owns an active stable handle, a claimed candidate
is held by exactly one admission, a share has at most one open store, and no used count is
above its limit.
-/

namespace Windshare.RevisionCapacity

open Windshare.Library

namespace Coordinator

variable (c : Coordinator) (phases : Ref → AdmissionPhase)

/-- References point to allocated cells. -/
structure Linked : Prop where
  charges : c.chargeStates.All fun charge => charge.store < c.storeStates.size ∧
    (∀ t, charge.session = some t → t < c.sessionStates.size) ∧
    (charge.kind = .stableHandle → charge.session = none)
  admissions : c.admissionStates.All fun admission => admission.store < c.storeStates.size ∧
    admission.session < c.sessionStates.size ∧ admission.requirements.activeLease = true
  candidates : c.candidateStates.All fun candidate => candidate.store < c.storeStates.size

/-- The claim `p` of admission `j` is in flight. -/
structure InFlight (j : Ref) (p : PendingReclaim) : Prop where
  stableHandle : (c.admission j).requirements.stableHandle = true
  candidate : p.candidate < c.candidateStates.size
  claim : (c.candidate p.candidate).claim = some p.claim
  allocated : p.claim < c.claimStates.size
  requester : (c.claimStates.get p.claim).requester = (c.admission j).store
  crossStore : p.crossStoreShareReservation =
    decide ((c.candidate p.candidate).store ≠ (c.admission j).store)

/-- Records of admissions agree with where their calls stand. -/
structure Phased : Prop where
  settled : ∀ j < c.admissionStates.size, (c.admission j).settled = (phases j).isEnded
  stableReserved : ∀ j < c.admissionStates.size, (phases j).isEnded = false →
    (c.admission j).stableReserved =
      (decide (phases j = .granted) && (c.admission j).requirements.stableHandle)
  inFlight : ∀ j < c.admissionStates.size, ∀ p, (phases j).claim? = some p → c.InFlight j p
  unique : ∀ j < c.admissionStates.size, ∀ j' < c.admissionStates.size, ∀ p p',
    (phases j).claim? = some p → (phases j').claim? = some p' → p.candidate = p'.candidate → j = j'
  holder : ∀ k < c.candidateStates.size, (c.candidate k).claim ≠ none →
    ∃ j < c.admissionStates.size, ∃ p, (phases j).claim? = some p ∧ p.candidate = k

/-- What the candidate maps hold. -/
structure Listed : Prop where
  entry : ∀ key k, c.candidates.get? key = some k →
    k < c.candidateStates.size ∧ (c.candidate k).key = key
  byCharge : ∀ i k, c.byCharge.get? i = some k ↔
    k < c.candidateStates.size ∧ c.listed k = true ∧ (c.candidate k).charge = i
  charge : ∀ k < c.candidateStates.size, c.listed k = true →
    (c.candidate k).charge < c.chargeStates.size ∧ (c.victim k).status = .active ∧
      (c.victim k).kind = .stableHandle ∧ (c.victim k).store = (c.candidate k).store
  claimed : ∀ k < c.candidateStates.size, (c.candidate k).claim ≠ none → c.listed k = true
  withdrawn : ∀ k < c.candidateStates.size, c.listed k = true →
    (c.candidate k).withdrawn = true → (c.candidate k).claim ≠ none
  closing : ∀ k < c.candidateStates.size, c.listed k = true →
    (c.store (c.candidate k).store).closing = true → (c.candidate k).withdrawn = true

/-- A closed store was closing, and in a good run a share has one open store. -/
structure Shared (good : Prop) : Prop where
  entry : good → ∀ s < c.storeStates.size, (c.store s).closed = false →
    c.shares.get? (c.store s).shareID = some s
  closing : ∀ s < c.storeStates.size, (c.store s).closed = true → (c.store s).closing = true

/-- The scope belongs to a registered object. -/
def Allocated : Scope → Prop
  | .process => True
  | .store s => s < c.storeStates.size
  | .session t => t < c.sessionStates.size

/-- The scope keeps its limits; a store does in a good run. -/
def Limited (good : Prop) (scope : Scope) : Prop :=
  c.Allocated scope ∧ ∀ s, scope = .store s → good

/-- The used units of every scope are within its limits. -/
def Within (c : Coordinator) (good : Prop) (phases : Ref → AdmissionPhase) : Prop :=
  ∀ scope, c.Limited good scope → ∀ r,
  c.number phases (.used scope r) ≤ ((c.limitsOf scope).of r).toNat

/-- The objects fit together. -/
structure Consistent : Prop where
  linked : c.Linked
  phased : c.Phased phases
  listed : c.Listed

structure Sound (c : Coordinator) (good : Prop) (phases : Ref → AdmissionPhase) : Prop
    extends Consistent c phases where
  shared : c.Shared good
  within : c.Within good phases
  accounts : c.Accounts phases

variable {c phases} {c' : Coordinator} {phases' : Ref → AdmissionPhase} {good : Prop}

/-! ### Cells -/

theorem admission_modify (j i : Ref) (f : AdmissionState → AdmissionState) :
    (c.modifyAdmission j f).admission i =
      if i = j then f (c.admission j) else c.admission i := c.admissionStates.get_modify

theorem candidate_modify (j i : Ref) (f : CandidateState → CandidateState) :
    (c.modifyCandidate j f).candidate i = if i = j then f (c.candidate j) else c.candidate i :=
  c.candidateStates.get_modify

theorem store_modify (j i : Ref) (f : StoreState → StoreState) :
    (c.modifyStore j f).store i = if i = j then f (c.store j) else c.store i :=
  c.storeStates.get_modify

/-! ### Parts that a step does not touch -/

theorem Linked.of_same (h : c.Linked) (hcharges : c'.chargeStates = c.chargeStates)
    (hadmissions : c'.admissionStates = c.admissionStates)
    (hcandidates : c'.candidateStates = c.candidateStates)
    (hstores : c'.storeStates.size = c.storeStates.size)
    (hsessions : c'.sessionStates.size = c.sessionStates.size) : c'.Linked := by
  refine ⟨?_, ?_, ?_⟩
  · rw [hcharges, hstores, hsessions]
    exact h.charges
  · rw [hadmissions, hstores, hsessions]
    exact h.admissions
  · rw [hcandidates, hstores]
    exact h.candidates

theorem Phased.of_same (h : c.Phased phases) (hadmissions : c'.admissionStates = c.admissionStates)
    (hcandidates : c'.candidateStates = c.candidateStates)
    (hclaims : c'.claimStates = c.claimStates) : c'.Phased phases := by
  cases c
  cases c'
  obtain rfl := hadmissions
  obtain rfl := hcandidates
  obtain rfl := hclaims
  refine ⟨h.settled, h.stableReserved, ?_, h.unique, h.holder⟩
  intro j hj p hp
  have hflight := h.inFlight j hj p hp
  exact ⟨hflight.stableHandle, hflight.candidate, hflight.claim, hflight.allocated,
    hflight.requester, hflight.crossStore⟩

theorem Listed.of_same (h : c.Listed) (hmap : c'.candidates = c.candidates)
    (hbyCharge : c'.byCharge = c.byCharge) (hcandidates : c'.candidateStates = c.candidateStates)
    (hcharges : c'.chargeStates = c.chargeStates) (hstores : c'.storeStates = c.storeStates) :
    c'.Listed := by
  cases c
  cases c'
  obtain rfl := hmap
  obtain rfl := hbyCharge
  obtain rfl := hcandidates
  obtain rfl := hcharges
  obtain rfl := hstores
  exact ⟨h.entry, h.byCharge, h.charge, h.claimed, h.withdrawn, h.closing⟩

theorem Consistent.of_same (h : c.Consistent phases) (hcharges : c'.chargeStates = c.chargeStates)
    (hadmissions : c'.admissionStates = c.admissionStates)
    (hcandidates : c'.candidateStates = c.candidateStates)
    (hclaims : c'.claimStates = c.claimStates) (hmap : c'.candidates = c.candidates)
    (hbyCharge : c'.byCharge = c.byCharge) (hstores : c'.storeStates = c.storeStates)
    (hsessions : c'.sessionStates = c.sessionStates) : c'.Consistent phases :=
  ⟨h.linked.of_same hcharges hadmissions hcandidates (by rw [hstores]) (by rw [hsessions]),
    h.phased.of_same hadmissions hcandidates hclaims,
    h.listed.of_same hmap hbyCharge hcandidates hcharges hstores⟩

/-! ### References -/

variable {j : Ref} {d : Coordinator} {old new gain loss : List Counter}

theorem Linked.modifyAdmission (h : c.Linked) {f : AdmissionState → AdmissionState}
    (hf : ∀ a, (f a).store = a.store ∧ (f a).session = a.session ∧
      (f a).requirements = a.requirements) : (c.modifyAdmission j f).Linked := by
  refine ⟨h.charges, h.admissions.modify fun a ha => ?_, h.candidates⟩
  obtain ⟨hstore, hsession, hrequirements⟩ := hf a
  rw [hstore, hsession, hrequirements]
  exact ha

theorem Linked.modifyCharge (h : c.Linked) {f : ChargeState → ChargeState}
    (hf : ∀ a, (f a).store = a.store ∧ (f a).session = a.session ∧ (f a).kind = a.kind) :
    (c.modifyCharge j f).Linked := by
  refine ⟨h.charges.modify fun a ha => ?_, h.admissions, h.candidates⟩
  obtain ⟨hstore, hsession, hkind⟩ := hf a
  rw [hstore, hsession, hkind]
  exact ha

theorem Linked.modifyCandidate (h : c.Linked) {f : CandidateState → CandidateState}
    (hf : ∀ a, (f a).store = a.store) : (c.modifyCandidate j f).Linked := by
  refine ⟨h.charges, h.admissions, h.candidates.modify fun a ha => ?_⟩
  rw [hf a]
  exact ha

/-! ### One step -/

/-- Below its limit, a scope has room for another unit. -/
theorem Sound.room (h : c.Sound good phases) {scope : Scope} (hscope : c.Limited good scope)
    {r : CapacityResource} (hfree : c.atLimit scope r = false) :
    c.number phases (.used scope r) < ((c.limitsOf scope).of r).toNat := by
  have hwithin := h.within scope hscope r
  have hcounts := h.accounts (.used scope r)
  have hlt : c.counts (.used scope r) < (c.limitsOf scope).of r := by
    have hnot := of_decide_eq_false hfree
    exact UInt64.not_le.mp hnot
  rw [hcounts, UInt64.lt_iff_toNat_lt, UInt64.toNat_ofNat_of_lt'] at hlt
  · exact hlt
  · exact hwithin.trans_lt (UInt64.toNat_lt _)

def Recounts (d c' : Coordinator) : Prop := c' = { d with counts := c'.counts }

/-- A step from `c` to `c'`, whose objects are those of `d`: it counts what it moves, and a
scope that gains a unit is below its limit. -/
structure Exchange (good : Prop) (c : Coordinator) (phases : Ref → AdmissionPhase)
    (d c' : Coordinator)
    (phases' : Ref → AdmissionPhase) (old new gain loss : List Counter) : Prop where
  objects : Recounts d c'
  replaces : Replaces c phases d phases' old new
  moves : Moves c c' gain loss
  units : ∀ x, new.count x + loss.count x = old.count x + gain.count x
  room : ∀ scope, c.Limited good scope → ∀ r,
    new.count (.used scope r) ≤ old.count (.used scope r) ∨
      c.atLimit scope r = false ∧ new.count (.used scope r) ≤ old.count (.used scope r) + 1

/-- A step that gains no unit needs no room. -/
theorem Exchange.of_units (hobjects : Recounts d c')
    (hreplaces : Replaces c phases d phases' old new) (hmoves : Moves c c' gain loss)
    (hunits : ∀ x, new.count x + loss.count x = old.count x + gain.count x)
    (hgain : ∀ scope r, gain.count (.used scope r) = 0 := by simp [quarantines, reclaimables]) :
    Exchange good c phases d c' phases' old new gain loss := by
  refine ⟨hobjects, hreplaces, hmoves, hunits, fun scope _ r => .inl ?_⟩
  have hused := hunits (.used scope r)
  rw [hgain] at hused
  omega

theorem Exchange.accounts
    (h : Exchange good c phases d c' phases' old new gain loss) (haccounts : c.Accounts phases) :
    c'.Accounts phases' := by
  have hreplaces : Replaces c phases c' phases' old new := by
    rw [h.objects]
    exact h.replaces
  exact haccounts.exchange hreplaces h.moves h.units

theorem Exchange.within
    (h : Exchange good c phases d c' phases' old new gain loss) (hsound : c.Sound good phases)
    (hstores : d.storeStates = c.storeStates) (hsessions : d.sessionStates = c.sessionStates)
    (hlimits : d.limits = c.limits) : d.Within good phases' := by
  intro scope hscope r
  have hsame : d.limitsOf scope = c.limitsOf scope := by
    cases scope with
    | process => exact hlimits
    | store s => exact congrArg (fun h : Heap StoreState => (h.get s).limits) hstores
    | session t => exact congrArg (fun h : Heap SessionState => (h.get t).limits) hsessions
  have hallocated : c.Limited good scope := by
    refine ⟨?_, hscope.2⟩
    have hscope := hscope.1
    cases scope with
    | process => exact trivial
    | store =>
      unfold Allocated at hscope
      rwa [hstores] at hscope
    | session =>
      unfold Allocated at hscope
      rwa [hsessions] at hscope
  rw [hsame]
  have hwithin := hsound.within scope hallocated r
  have hreplaces := h.replaces (.used scope r)
  obtain hless | ⟨hfree, hless⟩ := h.room scope hallocated r
  · omega
  · have hroom := hsound.room hallocated hfree
    omega

/-- A step that leaves the registrations alone. -/
theorem Sound.step (h : c.Sound good phases)
    (hexchange : Exchange good c phases d c' phases' old new gain loss)
    (hstores : d.storeStates = c.storeStates) (hsessions : d.sessionStates = c.sessionStates)
    (hshares : d.shares = c.shares) (hlimits : d.limits = c.limits)
    (hconsistent : d.Consistent phases') : c'.Sound good phases' := by
  have haccounts := hexchange.accounts h.accounts
  have hwithin := hexchange.within h hstores hsessions hlimits
  have hshared : d.Shared good := by
    refine ⟨?_, ?_⟩
    · unfold store
      rw [hstores, hshares]
      exact h.shared.entry
    · unfold store
      rw [hstores]
      exact h.shared.closing
  rw [hexchange.objects] at haccounts ⊢
  exact ⟨hconsistent.of_same rfl rfl rfl rfl rfl rfl rfl rfl, ⟨hshared.entry, hshared.closing⟩,
    hwithin, haccounts⟩

end Coordinator

end Windshare.RevisionCapacity
