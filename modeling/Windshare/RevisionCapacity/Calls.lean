import Windshare.RevisionCapacity.Evolution
import Windshare.RevisionCapacity.Registration

/-!
# Calls of the coordinator

One statement for each call: the invariant holds after it with the phase that its answer
stands for.
-/

namespace Windshare.RevisionCapacity

open Windshare.Library

/-- The phase after a part of `Admit`. -/
def AdmissionStep.phase : AdmissionStep → AdmissionPhase
  | .granted => .granted
  | .pending p => .claimed p
  | .retry => .reserving
  | .failed _ => .ended .failed

/-- `Admit` returned a grant. -/
def AdmissionPhase.hasGrant : AdmissionPhase → Bool
  | .granted => true
  | .ended outcome => outcome ≠ .failed
  | _ => false

namespace Coordinator

variable {c : Coordinator} {phases : Ref → AdmissionPhase} {i j k s : Ref} {good : Prop}

/-! ### Admissions -/

theorem Sound.beginAdmission_call (h : c.Sound good phases) (s : Ref) (request : AdmissionRequest)
    (contextDone : Bool) :
    (∃ e, (c.beginAdmission s request contextDone).2 = .error e ∧
      (c.beginAdmission s request contextDone).1.Sound good phases) ∨
    (c.beginAdmission s request contextDone).2 = .ok c.admissionStates.size ∧
      (c.beginAdmission s request contextDone).1.Sound good
        (Function.update phases c.admissionStates.size .reserving) := by
  unfold Coordinator.beginAdmission
  split
  · exact .inl ⟨_, rfl, h⟩
  split
  · exact .inl ⟨_, rfl, h⟩
  rename_i hs
  split
  · exact .inl ⟨_, rfl, h⟩
  rename_i hsession
  split
  · exact .inl ⟨_, rfl, h⟩
  split
  · exact .inl ⟨_, rfl, h⟩
  split
  · exact .inl ⟨_, rfl, h⟩
  split
  · refine .inl ⟨_, rfl, ?_⟩
    exact ⟨⟨h.linked.of_same rfl rfl rfl rfl rfl, h.phased.of_same rfl rfl rfl,
      h.listed.of_same rfl rfl rfl rfl rfl⟩, ⟨h.shared.entry, h.shared.closing⟩, h.within,
      h.accounts⟩
  · rename_i hfree
    have hsession : request.session < c.sessionStates.size := by
      by_contra hle
      exact hsession (.inr (Nat.not_lt.mp hle))
    refine .inr ⟨rfl, ?_⟩
    exact h.beginAdmission (a := .new s request c.nextDecisionID.2) (Nat.not_le.mp hs) hsession
      (requirementsFor_activeLease request.kind) rfl rfl hfree

variable {p : PendingReclaim} {contextDone : Bool} {listing : List Ref}

/-- An admission that is not stopped belongs to open registrations. -/
theorem open_of_admissionStopError (h : c.admissionStopError j contextDone = none) :
    (c.store (c.admission j).store).closed = false := by
  unfold admissionStopError at h
  split at h
  · cases h
  split at h
  · cases h
  · rename_i hopen
    simp only [not_or] at hopen
    simpa using hopen.2.1

theorem Sound.claimOrResolve_call (h : c.Sound good phases) (hj : j < c.admissionStates.size)
    (hphase : phases j = .reserving)
    (hlisting : c.Lists listing) :
    (c.claimOrResolve j contextDone listing).1.Sound good
      (Function.update phases j (c.claimOrResolve j contextDone listing).2.phase) := by
  have hopen : (phases j).isEnded = false := by rw [hphase]; rfl
  have hfree : (phases j).claim? = none := by rw [hphase]; rfl
  have hrollback : (c.rollbackAdmission j).Sound good
      (Function.update phases j (.ended .failed)) := h.rollback hj hopen hfree .failed (by simp)
  unfold claimOrResolve
  split
  · exact hrollback
  rename_i hstop
  split
  · rename_i hroom
    exact h.grantAvailable hj hphase hroom
  rename_i hblocked
  have hstable : (c.admission j).requirements.stableHandle = true := by
    simp only [not_or, Bool.not_eq_false] at hblocked
    exact hblocked.1
  obtain ⟨hsame, hclaimable⟩ := h.oldestCandidate (c.admission j).store
    (c.shareBlocked (c.admission j).store) hlisting
  generalize c.oldestCandidate (c.admission j).store (c.shareBlocked (c.admission j).store)
    listing = out at hsame hclaimable
  obtain ⟨d, oldest⟩ := out
  obtain rfl : d = c := hsame
  cases oldest with
  | none => exact hrollback
  | some k =>
    have hk := hclaimable k rfl
    obtain ⟨hlt, hlisted, havailable, -⟩ := id hk
    have hnot := of_decide_eq_false havailable
    simp only [not_or, not_not, Bool.not_eq_true] at hnot
    obtain ⟨hclaim, hkept, hclosing, -⟩ := hnot
    exact h.claim hj hphase hlt hlisted hclaim hkept hclosing hstable fun hcross hgood =>
      h.claimable_room hj (open_of_admissionStopError hstop) hk hcross hgood

/-- An admission that gave up its claim is rolled back. -/
theorem Sound.rollback_reserving (h : c.Sound good (Function.update phases j .reserving))
    (hj : j < c.admissionStates.size) :
    (c.rollbackAdmission j).Sound good (Function.update phases j (.ended .failed)) := by
  have hphase : Function.update phases j .reserving j = .reserving := Function.update_self ..
  have hrollback := h.rollback hj (by rw [hphase]; rfl) (by rw [hphase]; rfl) .failed (by simp)
  rwa [Function.update_idem] at hrollback

theorem admissionStates_abandonClaim : (c.abandonClaim p).admissionStates = c.admissionStates := by
  unfold Coordinator.abandonClaim
  split
  · rfl
  · split <;> rfl

/-- The admission calls the target of its claim. -/
theorem Sound.proceed (h : c.Sound good phases) (hp : phases j = .claimed p) :
    c.Sound good (Function.update phases j (.reclaiming p)) := by
  have hholdings : ∀ a i, AdmissionState.holdings a (Function.update phases j (.reclaiming p) i) =
      a.holdings (phases i) := by
    intro a i
    rw [Function.update_apply]
    split
    · rename_i heq
      rw [heq, hp]
      rfl
    · rfl
  have hnumber : ∀ x, c.number (Function.update phases j (.reclaiming p)) x =
      c.number phases x := by
    intro x
    unfold number admissionNumber
    simp only [hholdings]
  refine ⟨⟨h.linked, h.phased.proceed (p := p) (by rw [hp]; rfl) rfl, h.listed⟩, h.shared, ?_, ?_⟩
  · intro scope hlimited r
    rw [hnumber]
    exact h.within scope hlimited r
  · intro x
    rw [hnumber]
    exact h.accounts x

theorem Sound.cancelBeforeReclaim_call (h : c.Sound good phases) (hj : j < c.admissionStates.size)
    (hp : (phases j).claim? = some p) (contextDone : Bool) :
    c.cancelBeforeReclaim j p contextDone = (c, none) ∨
    ∃ e, (c.cancelBeforeReclaim j p contextDone).2 = some e ∧
      (c.cancelBeforeReclaim j p contextDone).1.Sound good
        (Function.update phases j (.ended .failed)) := by
  unfold cancelBeforeReclaim
  split
  · exact .inl rfl
  · rename_i e _
    refine .inr ⟨e, rfl, (h.abandonClaim hj hp).rollback_reserving ?_⟩
    rw [admissionStates_abandonClaim]
    exact hj

theorem admission_dropClaim : (c.dropClaim k).admission j = c.admission j := rfl

theorem admissionStates_quarantineVictim :
    (c.quarantineVictim p s).admissionStates = c.admissionStates := rfl

theorem admissionStates_releaseTerminalVictim :
    (c.releaseTerminalVictim p s).admissionStates = c.admissionStates := rfl

/-- A diagnostic of a granted admission changes nothing that is accounted for. -/
theorem Sound.diagnose (h : c.Sound good phases) (hj : j < c.admissionStates.size)
    (hgranted : phases j = .granted) (diagnostic : Option Text) :
    (c.modifyAdmission j (·.diagnose diagnostic)).Sound good phases := by
  have hopen : (phases j).isEnded = false := by rw [hgranted]; rfl
  have hfree : (phases j).claim? = none := by rw [hgranted]; rfl
  have hreserved := h.phased.stableReserved j hj hopen
  have hsettled := h.phased.unsettled hj hopen
  have hsame : ((c.admission j).diagnose diagnostic).holdings .granted =
      pendings (c.admission j).store (c.admission j).session ++ (c.admission j).reservations := by
    refine holdings_open (a := (c.admission j).diagnose diagnostic) ?_ rfl rfl
    exact hsettled
  have hdone : (c.modifyAdmission j (·.diagnose diagnostic)).Sound good
      (Function.update phases j .granted) := by
    refine h.advance hj hopen hfree .granted rfl (f := (·.diagnose diagnostic))
      (fun a => ⟨rfl, rfl, rfl⟩) hsettled ?_ rfl ((Moves.refl c).same rfl) ?_ (.inl (by simp))
    · intro _
      rw [hgranted] at hreserved
      exact hreserved
    · intro x
      rw [hsame]
  rwa [← hgranted, Function.update_eq_self] at hdone

/-- The spec of `finishReclaim`. The claim is in flight, so the target's result decides. -/
theorem Sound.finishReclaim_call (h : c.Sound good phases) (hj : j < c.admissionStates.size)
    (hp : (phases j).claim? = some p) (result : ReclaimResult)
    (contextDone : Bool) :
    (c.finishReclaim j p result contextDone).1.Sound good
      (Function.update phases j (c.finishReclaim j p result contextDone).2.phase) := by
  have hclaim := (h.phased.inFlight j hj p hp).claim
  unfold finishReclaim
  by_cases hdeclines : result.Declines p
  · rw [finishClaim_of_declines hclaim hdeclines]
    dsimp only
    split
    · exact (h.decline hj hp).rollback_reserving hj
    · exact h.decline hj hp
  by_cases hcompletes : result.Completes p
  · rw [finishClaim_of_completes hclaim hcompletes]
    dsimp only
    split
    · rw [admission_dropClaim]
      refine (h.releaseVictim hj hp).rollback_reserving ?_
      rw [admissionStates_releaseTerminalVictim]
      exact hj
    · have hsize : j < ((c.dropClaim p.candidate).transferTerminalVictim p
          j).admissionStates.size := hj
      exact (h.transferVictim hj hp).diagnose hsize (Function.update_self ..) result.diagnostic
  · obtain ⟨cause, hfinish⟩ :=
      finishClaim_of_uncertain hclaim hcompletes hdeclines (c.admission j).store
    rw [hfinish]
    dsimp only
    rw [admission_dropClaim]
    refine (h.quarantineVictim hj hp).rollback_reserving ?_
    rw [admissionStates_quarantineVictim]
    exact hj

/-! ### Grants -/

/-- A call on a grant is refused and changes nothing, or it ends a granted admission. -/
def Resolves (c : Coordinator) (good : Prop) (phases : Ref → AdmissionPhase) (j : Ref)
    (outcome : AdmissionEnd) {α : Type} (answer : Coordinator × Except CapacityError α) : Prop :=
  (∃ e, answer = (c, .error e)) ∨
    phases j = .granted ∧ (∃ a, answer.2 = .ok a) ∧
      answer.1.Sound good (Function.update phases j (.ended outcome))

theorem Phased.granted_of_unsettled (h : c.Phased phases) (hj : j < c.admissionStates.size)
    (hgrant : (phases j).hasGrant = true) (hsettled : ¬ (c.admission j).settled = true) :
    phases j = .granted := by
  rw [h.settled j hj] at hsettled
  cases hphase : phases j with
  | granted => rfl
  | ended => exact absurd (by rw [hphase]; rfl) hsettled
  | reserving | claimed | reclaiming => rw [hphase] at hgrant; cases hgrant

section

variable (h : c.Sound good phases)

include h

section

variable (hj : j < c.admissionStates.size) (hgrant : (phases j).hasGrant = true)

include hj hgrant

theorem Sound.commit_call : c.Resolves good phases j .committed (c.commit j) := by
  unfold Coordinator.commit
  rw [if_neg (Nat.not_le.mpr hj)]
  split
  · exact .inl ⟨_, rfl⟩
  rename_i hsettled
  split
  · exact .inl ⟨_, rfl⟩
  · have hphase := h.phased.granted_of_unsettled hj hgrant hsettled
    exact .inr ⟨hphase, ⟨_, rfl⟩, h.commit hj hphase⟩

theorem Sound.abort_call : c.Resolves good phases j .aborted (c.abort j) := by
  unfold Coordinator.abort
  rw [if_neg (Nat.not_le.mpr hj)]
  split
  · exact .inl ⟨_, rfl⟩
  rename_i hsettled
  have hphase := h.phased.granted_of_unsettled hj hgrant hsettled
  refine .inr ⟨hphase, ⟨_, rfl⟩, h.rollback hj ?_ ?_ .aborted (by simp)⟩
  · rw [hphase]
    rfl
  · rw [hphase]
    rfl

theorem Sound.quarantineStableHandle_call :
    c.Resolves good phases j .quarantined (c.quarantineStableHandle j) := by
  unfold Coordinator.quarantineStableHandle
  rw [if_neg (Nat.not_le.mpr hj)]
  split
  · exact .inl ⟨_, rfl⟩
  rename_i hsettled
  split
  · exact .inl ⟨_, rfl⟩
  rename_i hstable
  simp only [not_or, Bool.not_eq_false] at hstable
  have hphase := h.phased.granted_of_unsettled hj hgrant hsettled
  exact .inr ⟨hphase, ⟨_, rfl⟩, h.quarantineGrant hj hphase hstable.2⟩

/-! ### Charges and candidates -/

end

theorem Sound.releaseCharge_call (i : Ref) (expected : ChargeKind) :
    (c.releaseCharge i expected).1.Sound good phases := by
  unfold Coordinator.releaseCharge
  split
  · exact h
  rename_i hi
  split
  · exact h
  split
  · exact h
  rename_i hactive
  split
  · exact h
  rename_i hclaimed
  exact h.releaseActive (Nat.not_le.mp hi) (active_of_resolvedError hactive)
    (Bool.not_eq_true _ ▸ hclaimed)

theorem Sound.quarantineCharge_call (i : Ref) : (c.quarantineCharge i).1.Sound good phases := by
  unfold Coordinator.quarantineCharge
  split
  · exact h
  rename_i hi
  split
  · exact h
  rename_i hkind
  split
  · exact h
  rename_i hactive
  split
  · exact h
  rename_i hclaimed
  exact h.quarantineActive (Nat.not_le.mp hi) (active_of_resolvedError hactive)
    (not_not.mp hkind) (Bool.not_eq_true _ ▸ hclaimed)

theorem Sound.publishIdle_call (s : Ref) (idle : IdleCandidate) :
    (c.publishIdle s idle).1.Sound good phases := by
  unfold Coordinator.publishIdle
  split
  · exact h
  rename_i hs
  split
  · exact h
  split
  · exact h
  split
  · exact h
  split
  · exact h
  rename_i hopen
  split
  · exact h
  rename_i hcharge
  split
  · split <;> exact h
  rename_i hkey
  split
  · exact h
  rename_i hfree
  simp only [not_or, not_not, Bool.not_eq_true] at hopen hcharge
  refine h.publish hkey ?_ ⟨Nat.not_le.mp hcharge.1, hcharge.2.2.2, hcharge.2.2.1, hcharge.2.1⟩
    rfl rfl (Nat.not_le.mp hs) hopen.1
  simpa using hfree

theorem Sound.withdrawIdle_call (s : Ref) (token : CandidateToken) :
    (c.withdrawIdle s token).1.Sound good phases := by
  unfold Coordinator.withdrawIdle
  split
  · exact h
  split
  · exact h
  rename_i k hget
  obtain ⟨hk, hkey⟩ := h.listed.entry _ k hget
  refine h.withdraw hk ?_
  unfold Coordinator.listed
  rw [hkey]
  exact decide_eq_true hget

/-! ### Closing -/

theorem Sound.closeStore_call (hs : s < c.storeStates.size) (hlisting : c.Lists listing) :
    (c.closeStore s listing).1.Sound good phases := by
  unfold Coordinator.closeStore
  split
  · exact h
  rename_i hopen
  obtain ⟨hsound, hclosing, hclosed⟩ := h.beginClose s hlisting
  refine hsound.awaitCloseStore ?_ hclosing ?_
  · exact hs.trans_le ((Evolves.modifyStore (R := fun _ _ => True) fun _ _ => rfl).trans
      (evolves_withdrawStoreCandidates listing)).stores
  · intro _ htrue
    rw [hclosed] at htrue
    exact absurd htrue hopen

theorem Sound.closeOwner_call : c.closeOwner.1.Sound good phases := by
  unfold Coordinator.closeOwner
  split
  · exact h
  split
  · exact h
  · exact ⟨⟨h.linked.of_same rfl rfl rfl rfl rfl, h.phased.of_same rfl rfl rfl,
      h.listed.of_same rfl rfl rfl rfl rfl⟩, ⟨h.shared.entry, h.shared.closing⟩, h.within,
      h.accounts⟩

end

end Coordinator

end Windshare.RevisionCapacity
