import Windshare.RevisionCapacity.Host

/-!
# The turns of an admission

What an event can do to the phase of an admission, said once. An ended admission makes no
turn, a claim is made with a fresh cell, and a grant comes from free capacity or from a claim
whose target reported that the victim is closed.
-/

namespace Windshare.RevisionCapacity

open Windshare.Library

namespace Host

/-- The event brings admission `j` to the phase. -/
inductive Turns (host : Host) : HostEvent → Ref → AdmissionPhase → Prop
  | begin {s request contextDone} :
      host.Turns (.beginAdmission s request contextDone) host.coordinator.admissionStates.size
        .reserving
  | grant {j contextDone listing} (hphase : host.phases j = .reserving)
      (hfree : (host.coordinator.admission j).requirements.stableHandle = false ∨
        host.coordinator.shareBlocked (host.coordinator.admission j).store = false ∧
          host.coordinator.processBlocked = false) :
      host.Turns (.claimOrResolve j contextDone listing) j .granted
  | claim {j contextDone listing p} (hphase : host.phases j = .reserving)
      (hfresh : p.claim = host.coordinator.claimStates.size) :
      host.Turns (.claimOrResolve j contextDone listing) j (.claimed p)
  | stop {j contextDone listing} (hphase : host.phases j = .reserving) :
      host.Turns (.claimOrResolve j contextDone listing) j (.ended .failed)
  | call {j contextDone p} (hphase : host.phases j = .claimed p) :
      host.Turns (.cancelBeforeReclaim j contextDone) j (.reclaiming p)
  | abandon {j contextDone p} (hphase : host.phases j = .claimed p) :
      host.Turns (.cancelBeforeReclaim j contextDone) j (.ended .failed)
  | transfer {j call contextDone p} (hphase : host.phases j = .reclaiming p)
      (hcompletes : (invokeReclaimTarget p.claim call).Completes p) :
      host.Turns (.finishReclaim j call contextDone) j .granted
  | retry {j call contextDone p} (hphase : host.phases j = .reclaiming p)
      (hdeclines : (invokeReclaimTarget p.claim call).Declines p) :
      host.Turns (.finishReclaim j call contextDone) j .reserving
  | fail {j call contextDone p} (hphase : host.phases j = .reclaiming p) :
      host.Turns (.finishReclaim j call contextDone) j (.ended .failed)
  | commit {j} (hphase : host.phases j = .granted) : host.Turns (.commit j) j (.ended .committed)
  | abort {j} (hphase : host.phases j = .granted) : host.Turns (.abort j) j (.ended .aborted)
  | quarantine {j} (hphase : host.phases j = .granted) :
      host.Turns (.quarantineStableHandle j) j (.ended .quarantined)

variable {host : Host} {event : HostEvent} {good : Prop} {j : Ref}

theorem turns_advance {c : Coordinator} {phase : AdmissionPhase} (h : host.Turns event j phase)
    (i : Ref) : (host.advance c j phase).phases i = host.phases i ∨
      host.Turns event i ((host.advance c j phase).phases i) := by
  unfold advance
  dsimp only
  rw [Function.update_apply]
  split
  · rename_i heq
    rw [heq]
    exact .inr h
  · exact .inl rfl

theorem turns_resolve {α : Type} {outcome : AdmissionEnd}
    {answer : Coordinator × Except CapacityError α}
    (hresolves : host.coordinator.Resolves good host.phases j outcome answer)
    (h : host.phases j = .granted → host.Turns event j (.ended outcome)) (i : Ref) :
    (host.resolve j outcome answer).phases i = host.phases i ∨
      host.Turns event i ((host.resolve j outcome answer).phases i) := by
  obtain ⟨e, rfl⟩ | ⟨hphase, ⟨a, ha⟩, _⟩ := hresolves
  · exact .inl rfl
  · obtain ⟨c, result⟩ := answer
    obtain rfl : result = .ok a := ha
    exact turns_advance (h hphase) i

variable {p : PendingReclaim} {contextDone : Bool}

section

variable (h : host.Sound good)

include h

theorem Sound.turns_claimOrResolve {listing : List Ref}
    (hallows : host.Allows (.claimOrResolve j contextDone listing)) :
    host.Turns (.claimOrResolve j contextDone listing) j
      (host.coordinator.claimOrResolve j contextDone listing).2.phase := by
  obtain ⟨hj, hphase, hlisting⟩ := hallows
  unfold Coordinator.claimOrResolve
  split
  · exact .stop hphase
  split
  · rename_i hfree
    exact .grant hphase hfree
  obtain ⟨hsame, -⟩ := h.coordinator.oldestCandidate (host.coordinator.admission j).store
    (host.coordinator.shareBlocked (host.coordinator.admission j).store) hlisting
  split
  · exact .stop hphase
  · rename_i c k heq
    rw [heq] at hsame
    obtain rfl : c = host.coordinator := hsame
    exact .claim hphase rfl

theorem Sound.turns_finishReclaim {call : TargetCall}
    (hj : j < host.coordinator.admissionStates.size)
    (hphase : host.phases j = .reclaiming p) :
    host.Turns (.finishReclaim j call contextDone) j (host.coordinator.finishReclaim j p
      (invokeReclaimTarget p.claim call) contextDone).2.phase := by
  have hclaim := (h.coordinator.phased.inFlight j hj p (by rw [hphase]; rfl)).claim
  unfold Coordinator.finishReclaim
  by_cases hdeclines : (invokeReclaimTarget p.claim call).Declines p
  · rw [Coordinator.finishClaim_of_declines hclaim hdeclines]
    dsimp only
    split
    · exact .fail hphase
    · exact .retry hphase hdeclines
  by_cases hcompletes : (invokeReclaimTarget p.claim call).Completes p
  · rw [Coordinator.finishClaim_of_completes hclaim hcompletes]
    dsimp only
    split
    · exact .fail hphase
    · exact .transfer hphase hcompletes
  · obtain ⟨cause, hfinish⟩ := Coordinator.finishClaim_of_uncertain hclaim hcompletes hdeclines
      (host.coordinator.admission j).store
    rw [hfinish]
    exact .fail hphase

theorem Sound.turns (hallows : host.Allows event) (i : Ref) :
    (host.perform event).phases i = host.phases i ∨
      host.Turns event i ((host.perform event).phases i) := by
  have hc := h.coordinator
  cases event with
  | beginAdmission s request contextDone =>
    unfold Host.perform
    dsimp only
    obtain ⟨e, herror, -⟩ | ⟨hok, -⟩ := hc.beginAdmission_call s request contextDone
    all_goals
      generalize host.coordinator.beginAdmission s request contextDone = answer at *
      obtain ⟨c, result⟩ := answer
    · obtain rfl : result = .error e := herror
      exact .inl rfl
    · obtain rfl : result = .ok _ := hok
      exact turns_advance .begin i
  | claimOrResolve =>
    exact turns_advance (h.turns_claimOrResolve hallows) i
  | cancelBeforeReclaim j contextDone =>
    obtain ⟨hj, p, hphase⟩ := hallows
    unfold Host.perform
    dsimp only
    rw [hphase]
    dsimp only [AdmissionPhase.claim?]
    obtain ⟨c, _ | e⟩ := host.coordinator.cancelBeforeReclaim j p contextDone
    · exact turns_advance (.call hphase) i
    · exact turns_advance (.abandon hphase) i
  | finishReclaim =>
    obtain ⟨hj, p, hphase⟩ := hallows
    unfold Host.perform
    dsimp only
    rw [hphase]
    exact turns_advance (h.turns_finishReclaim hj hphase) i
  | commit => exact turns_resolve (hc.commit_call hallows.1 hallows.2) .commit i
  | abort => exact turns_resolve (hc.abort_call hallows.1 hallows.2) .abort i
  | quarantineStableHandle =>
    exact turns_resolve (hc.quarantineStableHandle_call hallows.1 hallows.2) .quarantine i
  | closeStore =>
    unfold Host.perform
    rw [phases_waitStore]
    exact .inl rfl
  | wakeCloseStore =>
    unfold Host.perform
    rw [phases_wakeStore]
    exact .inl rfl
  | closeSession =>
    unfold Host.perform
    rw [phases_waitSession]
    exact .inl rfl
  | wakeCloseSession =>
    unfold Host.perform
    rw [phases_wakeSession]
    exact .inl rfl
  | _ => exact .inl rfl

/-! ### What turns do not do -/

theorem Sound.ended_perform (hallows : host.Allows event)
    (hj : j < host.coordinator.admissionStates.size) (hended : (host.phases j).isEnded = true) :
    (host.perform event).phases j = host.phases j := by
  obtain hsame | hturns := h.turns hallows j
  · exact hsame
  generalize (host.perform event).phases j = phase at hturns
  cases hturns with
  | begin => exact absurd hj (Nat.lt_irrefl _)
  | grant hphase | claim hphase | stop hphase | call hphase | abandon hphase | transfer hphase
  | retry hphase | fail hphase | commit hphase | abort hphase | quarantine hphase =>
    rw [hphase] at hended
    cases hended

/-- A claim in flight was in flight before, or its cell is fresh. -/
theorem Sound.claim_perform (hallows : host.Allows event)
    (hp : ((host.perform event).phases j).claim? = some p) :
    (host.phases j).claim? = some p ∨
      (∃ contextDone listing, event = .claimOrResolve j contextDone listing) ∧
        p.claim = host.coordinator.claimStates.size := by
  obtain hsame | hturns := h.turns hallows j
  · rw [hsame] at hp
    exact .inl hp
  generalize (host.perform event).phases j = phase at hturns hp
  cases hturns with
  | claim hphase hfresh =>
    cases hp
    exact .inr ⟨⟨_, _, rfl⟩, hfresh⟩
  | call hphase =>
    cases hp
    rw [hphase]
    exact .inl rfl
  | _ => cases hp

end

/-- A claim belongs to an admission that was made. -/
theorem allocated_of_reachable (h : system.Reachable host)
    (hp : (host.phases j).claim? = some p) : j < host.coordinator.admissionStates.size := by
  have hboth : host.Sound False ∧ ∀ j p, (host.phases j).claim? = some p →
      j < host.coordinator.admissionStates.size := by
    refine h.invariant (P := fun x => x.Sound False ∧ ∀ j p, (x.phases j).claim? = some p →
      j < x.coordinator.admissionStates.size) ?_ ?_
    · intro x hstart
      refine ⟨hstart.sound, ?_⟩
      obtain ⟨_, _, _, _, _, rfl⟩ := hstart
      intro j p hp
      cases hp
    · rintro x event y ⟨hsound, hold⟩ ⟨hallows, rfl⟩
      refine ⟨hsound.perform hallows False.elim, fun j p hp => ?_⟩
      refine lt_of_lt_of_le ?_ (hsound.evolves hallows).admissions
      obtain hsame | hturns := hsound.turns hallows j
      · rw [hsame] at hp
        exact hold j p hp
      generalize (x.perform event).phases j = phase at hturns hp
      cases hturns with
      | claim | call => exact hallows.1
      | _ => cases hp
  exact hboth.2 j p hp

/-- Claims in flight have cells of their own. -/
theorem claims_distinct (h : system.Reachable host) {i : Ref} {p q : PendingReclaim}
    (hp : (host.phases j).claim? = some p) (hq : (host.phases i).claim? = some q)
    (hclaim : p.claim = q.claim) : j = i := by
  have hall : ∀ j i p q, (host.phases j).claim? = some p → (host.phases i).claim? = some q →
      p.claim = q.claim → j = i := by
    obtain ⟨start, hstart, hlater⟩ := h
    refine hlater.stable_of_reachable (.of_init hstart) (P := fun x => ∀ j i p q,
      (x.phases j).claim? = some p → (x.phases i).claim? = some q → p.claim = q.claim → j = i) ?_ ?_
    · obtain ⟨_, _, _, _, _, rfl⟩ := hstart
      intro j i p q hp
      cases hp
    · rintro x event y hx hold ⟨hallows, rfl⟩ j i p q hp hq hclaim
      have hsound := sound_of_reachable hx
      have hallocated : ∀ j p, (x.phases j).claim? = some p →
          p.claim < x.coordinator.claimStates.size := fun j p hp =>
        (hsound.coordinator.phased.inFlight j (allocated_of_reachable hx hp) p hp).allocated
      obtain hp | ⟨⟨_, _, hevent⟩, hfresh⟩ := hsound.claim_perform hallows hp <;>
        obtain hq | ⟨⟨_, _, hevent'⟩, hfresh'⟩ := hsound.claim_perform hallows hq
      · exact hold j i p q hp hq hclaim
      · exact absurd (hclaim.trans hfresh') (Nat.ne_of_lt (hallocated j p hp))
      · exact absurd (hclaim.symm.trans hfresh) (Nat.ne_of_lt (hallocated i q hq))
      · rw [hevent] at hevent'
        cases hevent'
        rfl
  exact hall j i p q hp hq hclaim

/-- A grant comes from free capacity or from a completed claim. -/
theorem Sound.granted_perform (h : host.Sound good) (hallows : host.Allows event)
    (hnew : (host.perform event).phases j = .granted) (hold : host.phases j ≠ .granted) :
    (∃ contextDone listing, event = .claimOrResolve j contextDone listing ∧
      host.phases j = .reserving ∧
      ((host.coordinator.admission j).requirements.stableHandle = false ∨
        host.coordinator.shareBlocked (host.coordinator.admission j).store = false ∧
          host.coordinator.processBlocked = false)) ∨
    ∃ call contextDone p, event = .finishReclaim j call contextDone ∧
      host.phases j = .reclaiming p ∧ (invokeReclaimTarget p.claim call).Completes p := by
  obtain hsame | hturns := h.turns hallows j
  · exact absurd (hsame.symm.trans hnew) hold
  rw [hnew] at hturns
  cases hturns with
  | grant hphase hfree => exact .inl ⟨_, _, rfl, hphase, hfree⟩
  | transfer hphase hcompletes => exact .inr ⟨_, _, _, rfl, hphase, hcompletes⟩

end Host

end Windshare.RevisionCapacity
