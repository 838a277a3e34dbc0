import Windshare.Library.Transition
import Windshare.RevisionCapacity.Calls

/-!
# Runs of the coordinator

Callers admit, commit, release, publish, withdraw and close in any order. A call of `Admit`
gives up the lock around the call of its target, and a call of `Close` gives it up while it
waits, so each of them is several steps, with the steps of other callers in between.
-/

namespace Windshare.RevisionCapacity

open Windshare.Library

/-- The coordinator with the calls that are under way. -/
structure Host where
  coordinator : Coordinator
  /-- Where each call of `Admit` stands. -/
  phases : Ref → AdmissionPhase
  /-- The calls of `StoreRegistration.Close` that wait, for each store. -/
  storeClosers : Ref → Nat
  /-- The calls of `SessionRegistration.Close` that wait, for each session. -/
  sessionClosers : Ref → Nat

/-- A call, or the next part of a call that gave up the lock. A listing is the order in which
Go ranges over the candidates. -/
inductive HostEvent where
  | registerStore (storeID : StoreID) (shareID : ShareID) (limits : CapacityLimits)
  | registerSession (s : Ref) (sessionID : SessionID) (limits : CapacityLimits)
  | beginAdmission (s : Ref) (request : AdmissionRequest) (contextDone : Bool)
  | claimOrResolve (j : Ref) (contextDone : Bool) (listing : List Ref)
  | cancelBeforeReclaim (j : Ref) (contextDone : Bool)
  | finishReclaim (j : Ref) (call : TargetCall) (contextDone : Bool)
  | commit (j : Ref)
  | abort (j : Ref)
  | quarantineStableHandle (j : Ref)
  | release (i : Ref) (expected : ChargeKind)
  | quarantine (i : Ref)
  | publishIdle (s : Ref) (idle : IdleCandidate)
  | withdrawIdle (s : Ref) (token : CandidateToken)
  | closeStore (s : Ref) (listing : List Ref)
  | wakeCloseStore (s : Ref)
  | closeSession (t : Ref)
  | wakeCloseSession (t : Ref)
  | closeOwner

namespace Host

variable (host : Host)

def advance (c : Coordinator) (j : Ref) (phase : AdmissionPhase) : Host :=
  { host with coordinator := c, phases := Function.update host.phases j phase }

/-- A call on a grant resolves it, or is refused. -/
def resolve {α : Type} (j : Ref) (outcome : AdmissionEnd) :
    Coordinator × Except CapacityError α → Host
  | (c, .ok _) => host.advance c j (.ended outcome)
  | (c, .error _) => { host with coordinator := c }

def waitStore (s : Ref) : Coordinator × Coordinator.CloseOutcome → Host
  | (c, .waiting) =>
    { host with
      coordinator := c
      storeClosers := Function.update host.storeClosers s (host.storeClosers s + 1) }
  | (c, _) => { host with coordinator := c }

def wakeStore (s : Ref) : Coordinator × Coordinator.CloseOutcome → Host
  | (c, .waiting) => { host with coordinator := c }
  | (c, _) =>
    { host with
      coordinator := c
      storeClosers := Function.update host.storeClosers s (host.storeClosers s - 1) }

def waitSession (t : Ref) : Coordinator × Coordinator.CloseOutcome → Host
  | (c, .waiting) =>
    { host with
      coordinator := c
      sessionClosers := Function.update host.sessionClosers t (host.sessionClosers t + 1) }
  | (c, _) => { host with coordinator := c }

def wakeSession (t : Ref) : Coordinator × Coordinator.CloseOutcome → Host
  | (c, .waiting) => { host with coordinator := c }
  | (c, _) =>
    { host with
      coordinator := c
      sessionClosers := Function.update host.sessionClosers t (host.sessionClosers t - 1) }

/-- The target is called unless the admission was stopped. -/
def cancel (j : Ref) (p : PendingReclaim) : Coordinator × Option CapacityError → Host
  | (c, none) => host.advance c j (.reclaiming p)
  | (c, some _) => host.advance c j (.ended .failed)

/-- The target's result ends the claim. -/
def finish (j : Ref) (p : PendingReclaim) (result : ReclaimResult) (contextDone : Bool) : Host :=
  host.advance (host.coordinator.finishReclaim j p result contextDone).1 j
    (host.coordinator.finishReclaim j p result contextDone).2.phase

def begin : Coordinator × Except CapacityError Ref → Host
  | (c, .ok j) => host.advance c j .reserving
  | (c, .error _) => { host with coordinator := c }

def perform : HostEvent → Host
  | .registerStore storeID shareID limits =>
    { host with coordinator := (host.coordinator.registerStore storeID shareID limits).1 }
  | .registerSession s sessionID limits =>
    { host with coordinator := (host.coordinator.registerSession s sessionID limits).1 }
  | .beginAdmission s request contextDone =>
    host.begin (host.coordinator.beginAdmission s request contextDone)
  | .claimOrResolve j contextDone listing =>
    host.advance (host.coordinator.claimOrResolve j contextDone listing).1 j
      (host.coordinator.claimOrResolve j contextDone listing).2.phase
  | .cancelBeforeReclaim j contextDone =>
    match (host.phases j).claim? with
    | none => host
    | some p => host.cancel j p (host.coordinator.cancelBeforeReclaim j p contextDone)
  | .finishReclaim j call contextDone =>
    match (host.phases j).claim? with
    | none => host
    | some p => host.finish j p (invokeReclaimTarget p.claim call) contextDone
  | .commit j => host.resolve j .committed (host.coordinator.commit j)
  | .abort j => host.resolve j .aborted (host.coordinator.abort j)
  | .quarantineStableHandle j =>
    host.resolve j .quarantined (host.coordinator.quarantineStableHandle j)
  | .release i expected =>
    { host with coordinator := (host.coordinator.releaseCharge i expected).1 }
  | .quarantine i => { host with coordinator := (host.coordinator.quarantineCharge i).1 }
  | .publishIdle s idle => { host with coordinator := (host.coordinator.publishIdle s idle).1 }
  | .withdrawIdle s token =>
    { host with coordinator := (host.coordinator.withdrawIdle s token).1 }
  | .closeStore s listing => host.waitStore s (host.coordinator.closeStore s listing)
  | .wakeCloseStore s => host.wakeStore s (host.coordinator.awaitCloseStore s)
  | .closeSession t => host.waitSession t (host.coordinator.closeSession t)
  | .wakeCloseSession t => host.wakeSession t (host.coordinator.awaitCloseSession t)
  | .closeOwner => { host with coordinator := host.coordinator.closeOwner.1 }

/-- A part of a call comes after the parts before it, and grants come from `Admit`. -/
def Allows : HostEvent → Prop
  | .claimOrResolve j _ listing => j < host.coordinator.admissionStates.size ∧
      host.phases j = .reserving ∧ host.coordinator.Lists listing
  | .cancelBeforeReclaim j _ => j < host.coordinator.admissionStates.size ∧
      ∃ p, host.phases j = .claimed p
  | .finishReclaim j _ _ => j < host.coordinator.admissionStates.size ∧
      ∃ p, host.phases j = .reclaiming p
  | .commit j => j < host.coordinator.admissionStates.size ∧ (host.phases j).hasGrant = true
  | .abort j => j < host.coordinator.admissionStates.size ∧ (host.phases j).hasGrant = true
  | .quarantineStableHandle j => j < host.coordinator.admissionStates.size ∧
      (host.phases j).hasGrant = true
  | .closeStore s listing => s < host.coordinator.storeStates.size ∧ host.coordinator.Lists listing
  | .wakeCloseStore s => host.storeClosers s ≠ 0
  | .closeSession t => t < host.coordinator.sessionStates.size
  | .wakeCloseSession t => host.sessionClosers t ≠ 0
  | _ => True

/-- A call of `Close` that waited while its store was closed by another call finds no newer
store registered for the share. -/
def Careful : HostEvent → Prop
  | .wakeCloseStore s => (host.coordinator.store s).closed = true →
      host.coordinator.shares.get? (host.coordinator.store s).shareID = none
  | _ => True

/-- A process owner before any call. -/
def Starts : Prop := ∃ ownerID limits retryAfter c,
  newProcessOwner ownerID limits retryAfter = .ok c ∧
    host = ⟨c, fun _ => .ended .failed, fun _ => 0, fun _ => 0⟩

/-- Every interleaving of calls. -/
def system : System Host HostEvent where
  init := Starts
  step host event next := host.Allows event ∧ host.perform event = next

/-- The interleavings in which a share is not registered again under a waiting `Close`. -/
def carefulSystem : System Host HostEvent where
  init := Starts
  step host event next := host.Allows event ∧ host.Careful event ∧ host.perform event = next

/-- The invariant of a run. -/
structure Sound (good : Prop) : Prop where
  coordinator : host.coordinator.Sound good host.phases
  closers : ∀ s, host.storeClosers s ≠ 0 → s < host.coordinator.storeStates.size ∧
    (host.coordinator.store s).closing = true

variable {host} {good : Prop}

theorem Starts.sound (h : host.Starts) : host.Sound good := by
  obtain ⟨ownerID, limits, retryAfter, c, hnew, rfl⟩ := h
  have hc : c = newCoordinator ownerID limits retryAfter := by
    unfold newProcessOwner at hnew
    split at hnew
    · cases hnew
    split at hnew
    · cases hnew
    · exact (Except.ok.inj hnew).symm
  subst hc
  have hnone : ∀ {P : Prop} {n : Nat}, n < 0 → P := fun hn => absurd hn (Nat.not_lt_zero _)
  refine ⟨⟨⟨⟨?_, ?_, ?_⟩, ⟨?_, ?_, ?_, ?_, ?_⟩, ⟨?_, ?_, ?_, ?_, ?_, ?_⟩⟩, ⟨?_, ?_⟩, ?_, ?_⟩, ?_⟩
  any_goals exact fun _ hn => hnone hn
  any_goals exact fun _ _ hn => hnone hn
  · intro key k hget
    cases hget
  · intro i k
    constructor
    · intro hget
      cases hget
    · exact fun hk => hnone hk.1
  · intro scope _ r
    exact Nat.zero_le _
  · exact fun _ => rfl
  · intro s hs
    exact absurd rfl hs

/-! ### One step -/

variable {event : HostEvent} {α : Type} {events : List HostEvent}

theorem coordinator_resolve (j : Ref) (outcome : AdmissionEnd)
    (answer : Coordinator × Except CapacityError α) :
    (host.resolve j outcome answer).coordinator = answer.1 := by
  obtain ⟨c, e | a⟩ := answer <;> rfl

theorem coordinator_waitStore (s : Ref) (answer : Coordinator × Coordinator.CloseOutcome) :
    (host.waitStore s answer).coordinator = answer.1 := by
  obtain ⟨c, _ | _ | _⟩ := answer <;> rfl

theorem coordinator_wakeStore (s : Ref) (answer : Coordinator × Coordinator.CloseOutcome) :
    (host.wakeStore s answer).coordinator = answer.1 := by
  obtain ⟨c, _ | _ | _⟩ := answer <;> rfl

theorem coordinator_waitSession (t : Ref) (answer : Coordinator × Coordinator.CloseOutcome) :
    (host.waitSession t answer).coordinator = answer.1 := by
  obtain ⟨c, _ | _ | _⟩ := answer <;> rfl

theorem coordinator_wakeSession (t : Ref) (answer : Coordinator × Coordinator.CloseOutcome) :
    (host.wakeSession t answer).coordinator = answer.1 := by
  obtain ⟨c, _ | _ | _⟩ := answer <;> rfl

theorem coordinator_begin (answer : Coordinator × Except CapacityError Ref) :
    (host.begin answer).coordinator = answer.1 := by
  obtain ⟨c, e | a⟩ := answer <;> rfl

theorem coordinator_cancel (j : Ref) (p : PendingReclaim)
    (answer : Coordinator × Option CapacityError) :
    (host.cancel j p answer).coordinator = answer.1 := by
  obtain ⟨c, _ | e⟩ := answer <;> rfl

def Ends (host : Host) : HostEvent → Ref → ChargeStatus → Prop
  | .release i _ => host.coordinator.Ends i .released
  | .quarantine i => host.coordinator.Ends i .quarantined
  | .finishReclaim j call _ => fun i status => ∃ p, (host.phases j).claim? = some p ∧
      i = (host.coordinator.candidate p.candidate).charge ∧
      ((invokeReclaimTarget p.claim call).Completes p ∧
          (status = .transferred ∨ status = .released) ∨
        ¬ (invokeReclaimTarget p.claim call).Completes p ∧
          ¬ (invokeReclaimTarget p.claim call).Declines p ∧ status = .quarantined)
  | _ => fun _ _ => False

open Coordinator in
theorem Sound.evolves (h : host.Sound good) (hallows : host.Allows event) :
    Evolves (host.Ends event) host.coordinator (host.perform event).coordinator := by
  cases event with
  | registerStore storeID shareID limits => exact evolves_registerStore storeID shareID limits
  | registerSession s sessionID limits => exact evolves_registerSession sessionID limits
  | beginAdmission s request contextDone =>
    unfold Host.perform
    rw [coordinator_begin]
    exact evolves_beginAdmission request contextDone
  | claimOrResolve j contextDone listing => exact evolves_claimOrResolve contextDone listing
  | cancelBeforeReclaim j contextDone =>
    unfold Host.perform
    dsimp only
    split
    · exact .refl _
    · rw [coordinator_cancel]
      exact evolves_cancelBeforeReclaim _ contextDone
  | finishReclaim j call contextDone =>
    obtain ⟨hj, p, hphase⟩ := hallows
    have hp : (host.phases j).claim? = some p := by rw [hphase]; rfl
    have hclaim := (h.coordinator.phased.inFlight j hj p hp).claim
    unfold Host.perform
    dsimp only
    rw [hp]
    obtain ⟨_, _, hends⟩ | ⟨hcompletes, _, hends⟩ | ⟨hcompletes, _, hends⟩ |
        ⟨hcompletes, hdeclines, _, hends⟩ :=
      finishReclaim_cases (j := j) hclaim (invokeReclaimTarget p.claim call) contextDone
    · exact hends.evolves fun status hstatus => by cases hstatus
    · refine hends.evolves fun status hstatus => ?_
      cases hstatus
      exact ⟨p, hp, rfl, .inl ⟨hcompletes, .inl rfl⟩⟩
    · refine hends.evolves fun status hstatus => ?_
      cases hstatus
      exact ⟨p, hp, rfl, .inl ⟨hcompletes, .inr rfl⟩⟩
    · refine hends.evolves fun status hstatus => ?_
      cases hstatus
      exact ⟨p, hp, rfl, .inr ⟨hcompletes, hdeclines, rfl⟩⟩
  | commit =>
    unfold Host.perform
    rw [coordinator_resolve]
    exact evolves_commit
  | abort =>
    unfold Host.perform
    rw [coordinator_resolve]
    exact evolves_abort
  | quarantineStableHandle =>
    unfold Host.perform
    rw [coordinator_resolve]
    exact evolves_quarantineStableHandle
  | release i expected => exact evolves_releaseCharge expected
  | quarantine => exact evolves_quarantineCharge
  | publishIdle s idle => exact evolves_publishIdle idle
  | withdrawIdle s token => exact evolves_withdrawIdle token
  | closeStore s listing =>
    unfold Host.perform
    rw [coordinator_waitStore]
    exact evolves_closeStore listing
  | wakeCloseStore =>
    unfold Host.perform
    rw [coordinator_wakeStore]
    exact evolves_awaitCloseStore
  | closeSession =>
    unfold Host.perform
    rw [coordinator_waitSession]
    exact evolves_closeSession
  | wakeCloseSession =>
    unfold Host.perform
    rw [coordinator_wakeSession]
    exact evolves_awaitCloseSession
  | closeOwner => exact evolves_closeOwner

theorem phases_waitStore (s : Ref) (answer : Coordinator × Coordinator.CloseOutcome) :
    (host.waitStore s answer).phases = host.phases := by
  obtain ⟨c, _ | _ | _⟩ := answer <;> rfl

theorem phases_wakeStore (s : Ref) (answer : Coordinator × Coordinator.CloseOutcome) :
    (host.wakeStore s answer).phases = host.phases := by
  obtain ⟨c, _ | _ | _⟩ := answer <;> rfl

theorem phases_waitSession (t : Ref) (answer : Coordinator × Coordinator.CloseOutcome) :
    (host.waitSession t answer).phases = host.phases := by
  obtain ⟨c, _ | _ | _⟩ := answer <;> rfl

theorem phases_wakeSession (t : Ref) (answer : Coordinator × Coordinator.CloseOutcome) :
    (host.wakeSession t answer).phases = host.phases := by
  obtain ⟨c, _ | _ | _⟩ := answer <;> rfl

/-- A call on a grant keeps the invariant, whether it is refused or not. -/
theorem Sound.resolve (h : host.Sound good) {j : Ref} {outcome : AdmissionEnd}
    {answer : Coordinator × Except CapacityError α}
    (hresolves : host.coordinator.Resolves good host.phases j outcome answer) :
    (host.resolve j outcome answer).coordinator.Sound good
      (host.resolve j outcome answer).phases := by
  obtain ⟨e, rfl⟩ | ⟨_, ⟨a, ha⟩, hsound⟩ := hresolves
  · exact h.coordinator
  · obtain ⟨c, result⟩ := answer
    obtain rfl : result = .ok a := ha
    exact hsound

theorem Sound.begin (answer : Coordinator × Except CapacityError Ref)
    (hcall : (∃ e, answer.2 = .error e ∧ answer.1.Sound good host.phases) ∨
      ∃ j, answer.2 = .ok j ∧ answer.1.Sound good (Function.update host.phases j .reserving)) :
    (host.begin answer).coordinator.Sound good (host.begin answer).phases := by
  obtain ⟨c, result⟩ := answer
  obtain ⟨e, rfl, hsound⟩ | ⟨j, rfl, hsound⟩ := hcall
  · exact hsound
  · exact hsound

theorem Sound.cancel (h : host.Sound good) {j : Ref} {p : PendingReclaim}
    (hphase : host.phases j = .claimed p) {answer : Coordinator × Option CapacityError}
    (hcall : answer = (host.coordinator, none) ∨ ∃ e, answer.2 = some e ∧
      answer.1.Sound good (Function.update host.phases j (.ended .failed))) :
    (host.cancel j p answer).coordinator.Sound good (host.cancel j p answer).phases := by
  obtain ⟨c, result⟩ := answer
  obtain hnone | ⟨e, rfl, hsound⟩ := hcall
  · cases hnone
    exact h.coordinator.proceed hphase
  · exact hsound

/-- The invariant of the coordinator survives every call. -/
theorem Sound.perform_coordinator (h : host.Sound good)
    (hallows : host.Allows event) (hcareful : good → host.Careful event) :
    (host.perform event).coordinator.Sound good (host.perform event).phases := by
  have hc := h.coordinator
  cases event with
  | registerStore storeID shareID limits => exact hc.registerStore storeID shareID limits
  | registerSession s sessionID limits => exact hc.registerSession s sessionID limits
  | beginAdmission s request contextDone =>
    refine Sound.begin _ ?_
    obtain ⟨e, herror, hsound⟩ | ⟨hok, hsound⟩ := hc.beginAdmission_call s request contextDone
    · exact .inl ⟨e, herror, hsound⟩
    · exact .inr ⟨_, hok, hsound⟩
  | claimOrResolve =>
    obtain ⟨hj, hphase, hlisting⟩ := hallows
    exact hc.claimOrResolve_call hj hphase hlisting
  | cancelBeforeReclaim j contextDone =>
    obtain ⟨hj, p, hphase⟩ := hallows
    have hp : (host.phases j).claim? = some p := by rw [hphase]; rfl
    unfold Host.perform
    dsimp only
    rw [hp]
    exact h.cancel hphase (hc.cancelBeforeReclaim_call hj hp contextDone)
  | finishReclaim j call contextDone =>
    obtain ⟨hj, p, hphase⟩ := hallows
    have hp : (host.phases j).claim? = some p := by rw [hphase]; rfl
    unfold Host.perform
    dsimp only
    rw [hp]
    exact hc.finishReclaim_call hj hp (invokeReclaimTarget p.claim call) contextDone
  | commit => exact h.resolve (hc.commit_call hallows.1 hallows.2)
  | abort => exact h.resolve (hc.abort_call hallows.1 hallows.2)
  | quarantineStableHandle => exact h.resolve (hc.quarantineStableHandle_call hallows.1 hallows.2)
  | release i expected => exact hc.releaseCharge_call i expected
  | quarantine i => exact hc.quarantineCharge_call i
  | publishIdle s idle => exact hc.publishIdle_call s idle
  | withdrawIdle s token => exact hc.withdrawIdle_call s token
  | closeStore =>
    unfold Host.perform
    rw [coordinator_waitStore, phases_waitStore]
    exact hc.closeStore_call hallows.1 hallows.2
  | wakeCloseStore s =>
    unfold Host.perform
    rw [coordinator_wakeStore, phases_wakeStore]
    obtain ⟨hs, hclosing⟩ := h.closers s hallows
    exact hc.awaitCloseStore hs hclosing fun hgood => hcareful hgood
  | closeSession t =>
    unfold Host.perform
    rw [coordinator_waitSession, phases_waitSession]
    exact hc.closeSession t
  | wakeCloseSession t =>
    unfold Host.perform
    rw [coordinator_wakeSession, phases_wakeSession]
    exact hc.awaitCloseSession t
  | closeOwner => exact hc.closeOwner_call

theorem storeClosers_resolve (j : Ref) (outcome : AdmissionEnd)
    (answer : Coordinator × Except CapacityError α) :
    (host.resolve j outcome answer).storeClosers = host.storeClosers := by
  obtain ⟨c, e | a⟩ := answer <;> rfl

theorem storeClosers_waitSession (t : Ref) (answer : Coordinator × Coordinator.CloseOutcome) :
    (host.waitSession t answer).storeClosers = host.storeClosers := by
  obtain ⟨c, _ | _ | _⟩ := answer <;> rfl

theorem storeClosers_wakeSession (t : Ref) (answer : Coordinator × Coordinator.CloseOutcome) :
    (host.wakeSession t answer).storeClosers = host.storeClosers := by
  obtain ⟨c, _ | _ | _⟩ := answer <;> rfl

theorem storeClosers_begin (answer : Coordinator × Except CapacityError Ref) :
    (host.begin answer).storeClosers = host.storeClosers := by
  obtain ⟨c, e | a⟩ := answer <;> rfl

theorem storeClosers_cancel (j : Ref) (p : PendingReclaim)
    (answer : Coordinator × Option CapacityError) :
    (host.cancel j p answer).storeClosers = host.storeClosers := by
  obtain ⟨c, _ | e⟩ := answer <;> rfl

theorem storeClosers_perform (event : HostEvent) (s : Ref)
    (hs : (host.perform event).storeClosers s ≠ 0) : host.storeClosers s ≠ 0 ∨
      ∃ listing, event = .closeStore s listing ∧
        (host.coordinator.closeStore s listing).2 = .waiting := by
  cases event with
  | closeStore s' listing =>
    unfold Host.perform at hs
    dsimp only at hs
    by_cases heq : s = s'
    · subst heq
      cases hanswer : host.coordinator.closeStore s listing with
      | mk c outcome =>
        rw [hanswer] at hs
        cases outcome with
        | waiting => exact .inr ⟨listing, rfl, by rw [hanswer]⟩
        | closed | failed => exact .inl hs
    · left
      generalize host.coordinator.closeStore s' listing = answer at hs
      obtain ⟨c, _ | _ | _⟩ := answer
      · exact (Function.update_of_ne heq (host.storeClosers s' + 1) host.storeClosers) ▸ hs
      · exact hs
      · exact hs
  | wakeCloseStore s' =>
    left
    have hless : Function.update host.storeClosers s' (host.storeClosers s' - 1) s ≠ 0 →
        host.storeClosers s ≠ 0 := by
      rw [Function.update_apply]
      split
      · rename_i heq
        rw [heq]
        omega
      · exact id
    unfold Host.perform at hs
    dsimp only at hs
    generalize host.coordinator.awaitCloseStore s' = answer at hs
    obtain ⟨c, _ | _ | _⟩ := answer
    · exact hs
    · exact hless hs
    · exact hless hs
  | cancelBeforeReclaim =>
    left
    unfold Host.perform at hs
    dsimp only at hs
    split at hs
    · exact hs
    · rwa [storeClosers_cancel] at hs
  | finishReclaim =>
    left
    unfold Host.perform at hs
    dsimp only at hs
    split at hs <;> exact hs
  | beginAdmission => exact .inl (storeClosers_begin _ ▸ hs)
  | commit | abort | quarantineStableHandle => exact .inl (storeClosers_resolve .. ▸ hs)
  | closeSession => exact .inl (storeClosers_waitSession .. ▸ hs)
  | wakeCloseSession => exact .inl (storeClosers_wakeSession .. ▸ hs)
  | _ => exact .inl hs

theorem Sound.perform_closers (h : host.Sound good)
    (hallows : host.Allows event) (s : Ref) (hs : (host.perform event).storeClosers s ≠ 0) :
    s < (host.perform event).coordinator.storeStates.size ∧
      ((host.perform event).coordinator.store s).closing = true := by
  have hevolves := h.evolves hallows
  have hold : host.storeClosers s ≠ 0 →
      s < (host.perform event).coordinator.storeStates.size ∧
        ((host.perform event).coordinator.store s).closing = true := by
    intro hs
    obtain ⟨hlt, hclosing⟩ := h.closers s hs
    exact ⟨hlt.trans_le hevolves.stores, hevolves.closing s hlt hclosing⟩
  obtain hs | ⟨listing, rfl, hwaiting⟩ := storeClosers_perform event s hs
  · exact hold hs
  · refine ⟨hallows.1.trans_le hevolves.stores, ?_⟩
    have hopen : (host.coordinator.store s).closed = false := by
      by_contra hclosed
      unfold Coordinator.closeStore at hwaiting
      rw [if_pos (by simpa using hclosed)] at hwaiting
      cases hwaiting
    unfold Host.perform
    rw [coordinator_waitStore]
    exact Coordinator.closing_closeStore hallows.1 hopen listing

theorem Sound.perform (h : host.Sound good) (hallows : host.Allows event)
    (hcareful : good → host.Careful event) : (host.perform event).Sound good :=
  ⟨h.perform_coordinator hallows hcareful, h.perform_closers hallows⟩

/-! ### Runs -/

/-- The invariant holds in every interleaving, except for the limits of the stores. -/
theorem sound_of_reachable (h : system.Reachable host) : host.Sound False := by
  refine h.invariant (fun host hstart => hstart.sound) ?_
  rintro host event next hsound ⟨hallows, rfl⟩
  exact hsound.perform hallows False.elim

/-- The invariant with the limits of the stores, in careful runs. -/
theorem sound_of_careful (h : carefulSystem.Reachable host) : host.Sound True := by
  refine h.invariant (fun host hstart => hstart.sound) ?_
  rintro host event next hsound ⟨hallows, hcareful, rfl⟩
  exact hsound.perform hallows fun _ => hcareful

/-! ### Computed runs -/

/-- `Allows`, computed. -/
def allows (host : Host) : HostEvent → Bool
  | .claimOrResolve j _ listing => j < host.coordinator.admissionStates.size &&
      (host.phases j = .reserving &&
        listing.isPerm (host.coordinator.candidates.entries.map Prod.snd))
  | .cancelBeforeReclaim j _ => j < host.coordinator.admissionStates.size &&
      match host.phases j with
      | .claimed _ => true
      | _ => false
  | .finishReclaim j _ _ => j < host.coordinator.admissionStates.size &&
      match host.phases j with
      | .reclaiming _ => true
      | _ => false
  | .commit j => j < host.coordinator.admissionStates.size && (host.phases j).hasGrant
  | .abort j => j < host.coordinator.admissionStates.size && (host.phases j).hasGrant
  | .quarantineStableHandle j => j < host.coordinator.admissionStates.size &&
      (host.phases j).hasGrant
  | .closeStore s listing => s < host.coordinator.storeStates.size &&
      listing.isPerm (host.coordinator.candidates.entries.map Prod.snd)
  | .wakeCloseStore s => host.storeClosers s ≠ 0
  | .closeSession t => t < host.coordinator.sessionStates.size
  | .wakeCloseSession t => host.sessionClosers t ≠ 0
  | _ => true

theorem Allows.of_allows (h : host.allows event = true) : host.Allows event := by
  cases event with
  | claimOrResolve =>
    simp only [allows, Bool.and_eq_true, decide_eq_true_eq] at h
    exact ⟨h.1, h.2.1, List.isPerm_iff.mp h.2.2⟩
  | cancelBeforeReclaim | finishReclaim =>
    simp only [allows, Bool.and_eq_true, decide_eq_true_eq] at h
    obtain ⟨hj, hphase⟩ := h
    split at hphase
    · exact ⟨hj, _, ‹_›⟩
    · cases hphase
  | commit j | abort j | quarantineStableHandle j =>
    simp only [allows, Bool.and_eq_true, decide_eq_true_eq] at h
    exact h
  | closeStore =>
    simp only [allows, Bool.and_eq_true, decide_eq_true_eq] at h
    exact ⟨h.1, List.isPerm_iff.mp h.2⟩
  | wakeCloseStore s | closeSession t | wakeCloseSession t =>
    simp only [allows, decide_eq_true_eq] at h
    exact h
  | _ => exact trivial

def run (host : Host) : List HostEvent → Option Host
  | [] => some host
  | event :: events => if host.allows event then (host.perform event).run events else none

theorem reachable_run {next : Host} (h : system.Reachable host)
    (hrun : host.run events = some next) : system.Reachable next := by
  induction events generalizing host with
  | nil =>
    cases hrun
    exact h
  | cons event events ih =>
    unfold run at hrun
    split at hrun
    · rename_i hallows
      exact ih (h.step ⟨.of_allows hallows, rfl⟩) hrun
    · cases hrun

theorem reachable_run_careful {next : Host}
    (h : carefulSystem.Reachable host) (hwakes : ∀ s, .wakeCloseStore s ∉ events)
    (hrun : host.run events = some next) : carefulSystem.Reachable next := by
  induction events generalizing host with
  | nil =>
    cases hrun
    exact h
  | cons event events ih =>
    unfold run at hrun
    split at hrun
    · rename_i hallows
      refine ih (h.step ⟨.of_allows hallows, ?_, rfl⟩) ?_ hrun
      · cases event with
        | wakeCloseStore s => exact absurd List.mem_cons_self (hwakes s)
        | _ => exact trivial
      · exact fun s hmem => hwakes s (List.mem_cons_of_mem event hmem)
    · cases hrun

/-- The host of a new process owner. -/
def start (limits : CapacityLimits) : Host :=
  ⟨newCoordinator 1 limits 1000000, fun _ => .ended .failed, fun _ => 0, fun _ => 0⟩

theorem starts_start {limits : CapacityLimits} (h : validLimits limits = true) :
    (start limits).Starts := by
  refine ⟨1, limits, 1000000, newCoordinator 1 limits 1000000, ?_, rfl⟩
  unfold newProcessOwner
  rw [if_neg (by simp [h]), if_neg (by decide)]

end Host

end Windshare.RevisionCapacity
