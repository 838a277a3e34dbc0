import Windshare.RevisionCapacity.Admission

/-!
# What the counters count

Every charge, admission and candidate holds units of some counters, depending on its state.
A counter is right when it is the number of units of it that are held. A step moves units:
the counters that it counts down were held before, and those that it counts up are held
after it.
-/

namespace Windshare.RevisionCapacity

open Windshare.Library

/-- How an admission ended. -/
inductive AdmissionEnd where
  | committed
  | aborted
  | quarantined
  | failed
deriving DecidableEq, Repr

/-- Where the call of `Admit` stands, and after it what became of its grant. -/
inductive AdmissionPhase where
  | reserving
  | claimed (p : PendingReclaim)
  | reclaiming (p : PendingReclaim)
  | granted
  | ended (outcome : AdmissionEnd)
deriving DecidableEq

namespace AdmissionPhase

def claim? : AdmissionPhase → Option PendingReclaim
  | .claimed p => some p
  | .reclaiming p => some p
  | _ => none

def isEnded : AdmissionPhase → Bool
  | .ended _ => true
  | _ => false

/-- The provisional share unit of an admission of the store. -/
def provisional (phase : AdmissionPhase) (s : Ref) : List Counter :=
  phase.claim?.elim [] fun p => Coordinator.provisionalShare p.crossStoreShareReservation s

end AdmissionPhase

open Coordinator

def quarantinedUnits (s : Ref) : List Counter := stableHandles s ++ quarantines s

def ChargeState.holdings (charge : ChargeState) : List Counter :=
  match charge.status with
  | .active => chargeUnits charge ++ lives charge.store charge.session
  | .quarantined => quarantinedUnits charge.store
  | .released => []
  | .transferred => []

/-- What an admission reserves besides its place among the pending ones. -/
def AdmissionState.reservations (admission : AdmissionState) : List Counter :=
  nonStables admission.store admission.session admission.requirements ++
    if admission.stableReserved then stableHandles admission.store else []

def AdmissionState.holdings (admission : AdmissionState) (phase : AdmissionPhase) : List Counter :=
  (if admission.settled then []
    else pendings admission.store admission.session ++ admission.reservations) ++
  phase.provisional admission.store ++
  (if phase = .ended .quarantined then quarantinedUnits admission.store else [])

def CandidateState.holdings (candidate : CandidateState) (listed : Bool) : List Counter :=
  match candidate.claim with
  | some _ => claims candidate.store
  | none => if listed && !candidate.withdrawn then reclaimables candidate.store else []

namespace Coordinator

variable (c : Coordinator) (phases : Ref → AdmissionPhase)

/-- The candidate is in the map. -/
def listed (k : Ref) : Bool := c.candidates.get? (c.candidate k).key = some k

def chargeNumber (x : Counter) : ℕ :=
  tally c.chargeStates.size fun i => (c.charge i).holdings.count x

def admissionNumber (x : Counter) : ℕ :=
  tally c.admissionStates.size fun j => ((c.admission j).holdings (phases j)).count x

def candidateNumber (x : Counter) : ℕ :=
  tally c.candidateStates.size fun k => ((c.candidate k).holdings (c.listed k)).count x

/-- The units of a counter that are held. -/
def number (x : Counter) : ℕ :=
  c.chargeNumber x + c.admissionNumber phases x + c.candidateNumber x

/-- Every counter is the number of its units, in the arithmetic of its type. -/
def Accounts : Prop := ∀ x, c.counts x = UInt64.ofNat (c.number phases x)

variable {c phases} {c' : Coordinator} {phases' : Ref → AdmissionPhase}

/-! ### Counting -/

/-- The counters went up by `gain` and down by `loss`. -/
def Moves (c c' : Coordinator) (gain loss : List Counter) : Prop :=
  ∀ x, c'.counts x + UInt64.ofNat (loss.count x) = c.counts x + UInt64.ofNat (gain.count x)

theorem Moves.refl (c : Coordinator) : Moves c c [] [] := fun _ => rfl

variable {d : Coordinator} {gain loss : List Counter}

theorem Moves.same (h : Moves c c' gain loss)
    (hcounts : d.counts = c'.counts) : Moves c d gain loss := by
  unfold Moves
  rw [hcounts]
  exact h

theorem Moves.up (h : Moves c c' gain loss) (xs : List Counter) :
    Moves c (c'.up xs) (gain ++ xs) loss := by
  intro x
  have hx := h x
  unfold Coordinator.up
  rw [List.count_append, UInt64.ofNat_add, ← UInt64.add_assoc, ← hx, UInt64.add_assoc,
    UInt64.add_assoc, UInt64.add_comm (UInt64.ofNat (xs.count x))]

theorem Moves.down (h : Moves c c' gain loss) (xs : List Counter) :
    Moves c (c'.down xs) gain (loss ++ xs) := by
  intro x
  have hx := h x
  unfold Coordinator.down
  rw [List.count_append, UInt64.ofNat_add, UInt64.add_comm (UInt64.ofNat (loss.count x)),
    ← UInt64.add_assoc, UInt64.sub_add_cancel, hx]

theorem Moves.trans {gain₁ loss₁ gain₂ loss₂ : List Counter}
    (h₁ : Moves c d gain₁ loss₁) (h₂ : Moves d c' gain₂ loss₂) :
    Moves c c' (gain₁ ++ gain₂) (loss₁ ++ loss₂) := by
  intro x
  have h₁ := h₁ x
  have h₂ := h₂ x
  rw [List.count_append, List.count_append, UInt64.ofNat_add, UInt64.ofNat_add]
  calc c'.counts x + (UInt64.ofNat (loss₁.count x) + UInt64.ofNat (loss₂.count x))
      = c'.counts x + UInt64.ofNat (loss₂.count x) + UInt64.ofNat (loss₁.count x) := by
        rw [UInt64.add_comm (UInt64.ofNat (loss₁.count x)), UInt64.add_assoc]
    _ = d.counts x + UInt64.ofNat (loss₁.count x) + UInt64.ofNat (gain₂.count x) := by
        rw [h₂, UInt64.add_assoc, UInt64.add_assoc, UInt64.add_comm (UInt64.ofNat (gain₂.count x))]
    _ = c.counts x + (UInt64.ofNat (gain₁.count x) + UInt64.ofNat (gain₂.count x)) := by
        rw [h₁, UInt64.add_assoc]

/-! ### Holding -/

/-- The units `old` were replaced by `new` among those that are held. -/
def Replaces (c : Coordinator) (phases : Ref → AdmissionPhase) (c' : Coordinator)
    (phases' : Ref → AdmissionPhase) (old new : List Counter) : Prop :=
  ∀ x, c'.number phases' x + old.count x = c.number phases x + new.count x

theorem Replaces.refl (c : Coordinator) (phases : Ref → AdmissionPhase) :
    Replaces c phases c phases [] [] := fun _ => rfl

theorem Replaces.trans {middle : Ref → AdmissionPhase}
    {old₁ new₁ old₂ new₂ : List Counter} (h₁ : Replaces c phases d middle old₁ new₁)
    (h₂ : Replaces d middle c' phases' old₂ new₂) :
    Replaces c phases c' phases' (old₁ ++ old₂) (new₁ ++ new₂) := by
  intro x
  have h₁ := h₁ x
  have h₂ := h₂ x
  rw [List.count_append, List.count_append]
  omega

theorem Accounts.exchange (h : c.Accounts phases) {old new gain loss : List Counter}
    (hreplaces : Replaces c phases c' phases' old new) (hmoves : Moves c c' gain loss)
    (hunits : ∀ x, new.count x + loss.count x = old.count x + gain.count x) :
    c'.Accounts phases' := by
  intro x
  have hnumber : c'.number phases' x + loss.count x = c.number phases x + gain.count x := by
    have hreplaces := hreplaces x
    have hunits := hunits x
    omega
  have hcast := congrArg UInt64.ofNat hnumber
  rw [UInt64.ofNat_add, UInt64.ofNat_add, ← h x, ← hmoves x] at hcast
  exact ((UInt64.add_left_inj _).mp hcast).symm

theorem replaces_admission (phases phases' : Ref → AdmissionPhase) {j : Ref}
    (hj : j < c.admissionStates.size)
    {f : AdmissionState → AdmissionState} (hphases : ∀ i ≠ j, phases' i = phases i) :
    Replaces c phases (c.modifyAdmission j f) phases' ((c.admission j).holdings (phases j))
      ((f (c.admission j)).holdings (phases' j)) := by
  intro x
  have hbalance := tally_balance (w := fun i => ((c.admission i).holdings (phases i)).count x)
    (v := fun i => (((c.modifyAdmission j f).admission i).holdings (phases' i)).count x) hj
    fun i _ hne => by
      rw [hphases i hne]
      simp only [admission, modifyAdmission, Heap.get_modify_of_ne _ hne]
  have hself : (c.modifyAdmission j f).admission j = f (c.admission j) :=
    c.admissionStates.get_modify_self
  rw [hself] at hbalance
  have hcharges : (c.modifyAdmission j f).chargeNumber x = c.chargeNumber x := rfl
  have hcandidates : (c.modifyAdmission j f).candidateNumber x = c.candidateNumber x := rfl
  have hadmissions : (c.modifyAdmission j f).admissionNumber phases' x +
      ((c.admission j).holdings (phases j)).count x =
      c.admissionNumber phases x + ((f (c.admission j)).holdings (phases' j)).count x := hbalance
  unfold number
  omega

theorem replaces_phase (phases phases' : Ref → AdmissionPhase) {j : Ref}
    (hj : j < c.admissionStates.size)
    (hphases : ∀ i ≠ j, phases' i = phases i) :
    Replaces c phases c phases' ((c.admission j).holdings (phases j))
      ((c.admission j).holdings (phases' j)) := by
  have hreplaces := replaces_admission (c := c) phases phases' hj (f := fun a => a) hphases
  unfold modifyAdmission at hreplaces
  rwa [Heap.modify_id] at hreplaces

/-- A charge changes. -/
theorem replaces_charge (phases : Ref → AdmissionPhase) {i : Ref} (hi : i < c.chargeStates.size)
    {f : ChargeState → ChargeState} :
    Replaces c phases (c.modifyCharge i f) phases (c.charge i).holdings
      (f (c.charge i)).holdings := by
  intro x
  have hbalance := tally_balance (w := fun i => (c.charge i).holdings.count x)
    (v := fun k => ((c.modifyCharge i f).charge k).holdings.count x) hi
    fun k _ hne => by simp only [charge, modifyCharge, Heap.get_modify_of_ne _ hne]
  have hself : (c.modifyCharge i f).charge i = f (c.charge i) := c.chargeStates.get_modify_self
  rw [hself] at hbalance
  have hadmissions : (c.modifyCharge i f).admissionNumber phases x =
    c.admissionNumber phases x := rfl
  have hcandidates : (c.modifyCharge i f).candidateNumber x = c.candidateNumber x := rfl
  have hcharges : (c.modifyCharge i f).chargeNumber x + (c.charge i).holdings.count x =
    c.chargeNumber x + (f (c.charge i)).holdings.count x := hbalance
  unfold number
  omega

/-- One candidate, or its entry in the map, changes. -/
theorem replaces_candidate (phases : Ref → AdmissionPhase) {k : Ref}
    (hk : k < c.candidateStates.size)
    (hcharges : c'.chargeStates = c.chargeStates)
    (hadmissions : c'.admissionStates = c.admissionStates)
    (hsize : c'.candidateStates.size = c.candidateStates.size)
    (hother : ∀ i < c.candidateStates.size, i ≠ k → c'.candidate i = c.candidate i ∧
      c'.listed i = c.listed i) :
    Replaces c phases c' phases ((c.candidate k).holdings (c.listed k))
      ((c'.candidate k).holdings (c'.listed k)) := by
  intro x
  have hbalance := tally_balance
    (w := fun i => ((c.candidate i).holdings (c.listed i)).count x)
    (v := fun i => ((c'.candidate i).holdings (c'.listed i)).count x) hk
    fun i hi hne => by
      obtain ⟨hcandidate, hlisted⟩ := hother i hi hne
      rw [hcandidate, hlisted]
  have hchargeNumber : c'.chargeNumber x = c.chargeNumber x := by
    unfold chargeNumber charge
    rw [hcharges]
  have hadmissionNumber : c'.admissionNumber phases x = c.admissionNumber phases x := by
    unfold admissionNumber admission
    rw [hadmissions]
  have hcandidateNumber : c'.candidateNumber x + ((c.candidate k).holdings (c.listed k)).count x =
      c.candidateNumber x + ((c'.candidate k).holdings (c'.listed k)).count x := by
    unfold candidateNumber
    rw [hsize]
    exact hbalance
  unfold number
  omega

/-- A new admission. -/
theorem replaces_addAdmission (phases phases' : Ref → AdmissionPhase) {a : AdmissionState}
    (hphases : ∀ j < c.admissionStates.size, phases' j = phases j) :
    Replaces c phases (c.addAdmission a) phases' []
      (a.holdings (phases' c.admissionStates.size)) := by
  intro x
  have hadmissions : (c.addAdmission a).admissionNumber phases' x =
      c.admissionNumber phases x + (a.holdings (phases' c.admissionStates.size)).count x := by
    unfold admissionNumber addAdmission admission
    rw [Heap.size_alloc, tally_succ, Heap.get_alloc_size]
    congr 1
    refine tally_congr fun j hj => ?_
    rw [Heap.get_alloc_of_lt _ hj, hphases j hj]
  have hcharges : (c.addAdmission a).chargeNumber x = c.chargeNumber x := rfl
  have hcandidates : (c.addAdmission a).candidateNumber x = c.candidateNumber x := rfl
  unfold number
  rw [List.count_nil]
  omega

/-- A new charge. -/
theorem replaces_addCharge {a : ChargeState} :
    Replaces c phases (c.addCharge a) phases [] a.holdings := by
  intro x
  have hcharges : (c.addCharge a).chargeNumber x = c.chargeNumber x + a.holdings.count x := by
    unfold chargeNumber addCharge charge
    rw [Heap.size_alloc, tally_succ, Heap.get_alloc_size]
    congr 1
    refine tally_congr fun i hi => ?_
    rw [Heap.get_alloc_of_lt _ hi]
  have hadmissions : (c.addCharge a).admissionNumber phases x = c.admissionNumber phases x := rfl
  have hcandidates : (c.addCharge a).candidateNumber x = c.candidateNumber x := rfl
  unfold number
  rw [List.count_nil]
  omega

end Coordinator

end Windshare.RevisionCapacity
