import Windshare.Lane.Grants
import Windshare.Library.Transition

/-!
# Admissions over runs of a registry

Lanes and grants come and go: grants expire and are revoked, lanes are reclaimed and issued
again. What keeps admissions apart is the epoch. Each grant has an epoch of its own, and a
lane that ever accepted a candidate keeps its last epoch until the registry is closed.
-/

namespace Windshare.Lane

open Windshare.Library Windshare.Session

/-! ### Runs -/

/-- A registry with its open settlements and what it did so far. -/
structure LaneHost where
  registry : LaneRegistry
  inFlight : List LaneHello
  issued : List LaneGrant
  accepted : List LaneGrant
  closed : Bool

/-- Calls of the registry, by critical section. -/
inductive LaneEvent where
  | issueGrant (requestedLaneID : UInt32) (operationID : Identity) (attachNonce : Bytes)
      (now : Time)
  | revokeGrant (grant : LaneGrant)
  | authenticate (encoded : Bytes)
  | unclaimed (hello : LaneHello)
  | settle (hello : LaneHello) (senderNonce : Bytes) (now : Time)
  | release (laneID laneEpoch : UInt32)
  | stop
  | beginClose
  | finishClose

namespace LaneHost

variable (c : Crypto) (host : LaneHost)

/-- A gate answers for a candidate that waits for it, and `Close` waits for all of them. -/
def Allows : LaneEvent → Prop
  | .unclaimed hello => hello ∈ host.inFlight
  | .settle hello _ _ => hello ∈ host.inFlight
  | .finishClose => host.registry.closing ∧ host.registry.settlementCount = 0
  | _ => True

def perform : LaneEvent → LaneHost
  | .issueGrant requestedLaneID operationID attachNonce now =>
    match host.registry.issueGrant requestedLaneID operationID attachNonce now with
    | (r, .ok grant) => { host with registry := r, issued := host.issued ++ [grant] }
    | (r, .error _) => { host with registry := r }
  | .revokeGrant grant => { host with registry := (host.registry.revokeGrant grant).1 }
  | .authenticate encoded =>
    match host.registry.authenticateCandidate c encoded with
    | (r, .ok hello) => { host with registry := r, inFlight := hello :: host.inFlight }
    | (r, .error _) => { host with registry := r }
  | .unclaimed hello =>
    { host with
      registry := (host.registry.unclaimedCandidate hello).1
      inFlight := host.inFlight.erase hello }
  | .settle hello senderNonce now =>
    let out := host.registry.settleCandidate c hello senderNonce now
    { host with
      registry := out.1
      inFlight := host.inFlight.erase hello
      accepted :=
        if out.2.1.disposition = .accepted then host.accepted ++ [hello.grant]
        else host.accepted }
  | .release laneID laneEpoch =>
    { host with registry := (host.registry.release laneID laneEpoch).1 }
  | .stop => { host with registry := host.registry.stop }
  | .beginClose => { host with registry := host.registry.beginClose }
  | .finishClose => { host with registry := host.registry.finishClose, closed := true }

/-- A new registry. -/
def Starts : Prop :=
  ∃ config, newLaneRegistry config = .ok host.registry ∧ host.inFlight = [] ∧ host.issued = [] ∧
    host.accepted = [] ∧ host.closed = false

def system : System LaneHost LaneEvent where
  init := Starts
  step host event next := host.Allows event ∧ host.perform c event = next

/-- The invariant of a run. -/
structure Sound : Prop where
  active : host.registry.activeCount = host.registry.lanes.count (·.active)
  lanes_le : host.registry.lanes.size ≤ host.registry.maxLogical
  grants_le : host.registry.grants.size ≤ host.registry.maxPending
  placed : ∀ id state, host.registry.grants.get? id = some state →
    state.grant.operationID = id ∧ state.grant ∈ host.issued ∧
      host.registry.lanes.get? state.grant.laneID ≠ none
  numbered : host.issued.length = host.registry.nextEpoch.toNat
  epochs : ∀ i grant, host.issued[i]? = some grant → grant.laneEpoch.toNat = i + 1
  issued : ∀ grant ∈ host.accepted, grant ∈ host.issued
  last : host.closed = false → ∀ grant ∈ host.accepted,
    ∃ lane, host.registry.lanes.get? grant.laneID = some lane ∧ grant.laneEpoch ≤ lane.lastEpoch
  increasing : host.accepted.Pairwise fun g g' => g.laneID = g'.laneID → g.laneEpoch < g'.laneEpoch
  settlements : host.registry.settlementCount = host.inFlight.length
  stopping : host.registry.closing → host.registry.stopping
  shut : host.closed → host.registry.closing ∧ host.inFlight = [] ∧
    ∀ laneID, host.registry.lanes.get? laneID = none

variable {host c}

variable {hello : LaneHello} {now : Time} {grant : LaneGrant} {r : LaneRegistry}
  {state : LaneGrantState}

theorem Sound.epoch_pos (h : host.Sound) (hgrant : grant ∈ host.issued) :
    0 < grant.laneEpoch.toNat := by
  obtain ⟨i, hi⟩ := List.getElem?_of_mem hgrant
  rw [h.epochs i grant hi]
  exact Nat.succ_pos i

/-- Forgetting grants keeps a host sound: a lane that accepted a candidate has an epoch. -/
theorem Sound.cleaned (h : host.Sound) (hr : host.registry.Cleaned r) :
    Sound { host with registry := r }  := by
  obtain ⟨lanes, grants, rfl⟩ : ∃ lanes grants, r = { host.registry with lanes, grants } :=
    ⟨_, _, hr.frame⟩
  have hgrants : ∀ id state, grants.get? id = some state → _ := hr.grants
  have hlanes : ∀ laneID, lanes.get? laneID = _ ∨ lanes.get? laneID = none ∧ _ ∧ _ := hr.lanes
  refine { h with
    active := ?_, lanes_le := ?_, grants_le := ?_, placed := ?_, last := ?_, shut := ?_ }
  · exact h.active.trans (congrArg Nat.cast hr.active.symm)
  · exact (Int.ofNat_le.mpr hr.lanes_size).trans h.lanes_le
  · exact (Int.ofNat_le.mpr hr.grants_size).trans h.grants_le
  · grind [h.placed]
  · intro hopen grant hgrant
    have hpos := h.epoch_pos (h.issued grant hgrant)
    have hle : ¬ grant.laneEpoch ≤ LogicalLaneState.zero.lastEpoch := fun hle =>
      absurd (UInt32.le_iff_toNat_le.mp hle) (Nat.not_le.mpr hpos)
    grind [h.last]
  · grind [h.shut]

/-! ### Issuing -/

theorem toNat_succ_of_ne_max {x : UInt32} (h : x ≠ maxUint32) : (x + 1).toNat = x.toNat + 1 := by
  have hlt := x.toNat_lt
  have hne : x.toNat ≠ 4294967295 := by
    intro heq
    exact h (UInt32.toNat_inj.mp heq)
  rw [UInt32.toNat_add]
  change (x.toNat + 1) % 2 ^ 32 = _
  omega

/-- A lane of its own for a grant. -/
theorem Sound.makeLane (h : host.Sound) {next laneID : UInt32} (hopen : ¬ host.closed)
    (hnone : host.registry.lanes.get? laneID = none)
    (hroom : host.registry.lanes.size < host.registry.maxLogical) :
    Sound { host with registry := { host.registry with
      nextLaneID := next
      lanes := host.registry.lanes.insert laneID .zero } }  := by
  have hsize : (host.registry.lanes.insert laneID .zero).size = _ :=
    FiniteMap.size_insert_of_none hnone
  refine { h with
    active := ?_, lanes_le := ?_, placed := ?_, last := ?_
    shut := fun hclosed => absurd hclosed hopen }
  · have hcount := host.registry.lanes.count_insert laneID .zero (·.active)
    rw [hnone] at hcount
    exact h.active.trans (congrArg Nat.cast hcount.symm)
  · change ((host.registry.lanes.insert laneID .zero).size : Int) ≤ host.registry.maxLogical
    omega
  · grind [h.placed]
  · grind [h.last]

theorem Sound.addGrant (h : host.Sound) (hmax : host.registry.nextEpoch ≠ maxUint32)
    (hepoch : grant.laneEpoch = host.registry.nextEpoch + 1)
    (hlane : host.registry.lanes.get? grant.laneID ≠ none)
    (hnone : host.registry.grants.get? grant.operationID = none)
    (hroom : host.registry.grants.size < host.registry.maxPending) :
    Sound { host with
      registry := host.registry.addGrant grant now
      issued := host.issued ++ [grant] } := by
  have hsucc := toNat_succ_of_ne_max hmax
  refine ⟨h.active, h.lanes_le, ?_, ?_, ?_, ?_, ?_, h.last, h.increasing, h.settlements,
    h.stopping, h.shut⟩
  · have hsize : (host.registry.addGrant grant now).grants.size = _ :=
      FiniteMap.size_insert_of_none hnone
    simp only [hsize]
    change ((host.registry.grants.size + 1 : Nat) : Int) ≤ host.registry.maxPending
    omega
  · intro id state hget
    simp only [LaneRegistry.addGrant, FiniteMap.get?_insert] at hget
    split at hget
    · rename_i hid
      cases hget
      exact ⟨hid, List.mem_append_right _ (List.mem_singleton.mpr rfl), hlane⟩
    · obtain ⟨hid, hissued, hplaced⟩ := h.placed id state hget
      exact ⟨hid, List.mem_append_left _ hissued, hplaced⟩
  · rw [List.length_append, h.numbered]
    exact hsucc.symm
  · intro i other hi
    rw [List.getElem?_append] at hi
    split at hi
    · exact h.epochs i other hi
    · obtain ⟨hlt, rfl⟩ := List.getElem?_eq_some_iff.mp hi
      have hnumbered := h.numbered
      rw [List.length_singleton] at hlt
      rw [List.getElem_singleton, hepoch, hsucc]
      omega
  · intro other hother
    exact List.mem_append_left _ (h.issued other hother)

theorem Sound.issueGrant (h : host.Sound) (requestedLaneID : UInt32) (operationID : Identity)
    (attachNonce : Bytes) (now : Time) :
    (host.perform c (.issueGrant requestedLaneID operationID attachNonce now)).Sound := by
  have hclean := h.cleaned (host.registry.cleaned_cleanup now)
  have hspec := host.registry.issueGrant_spec requestedLaneID operationID attachNonce now
  simp only [perform]
  generalize host.registry.issueGrant requestedLaneID operationID attachNonce now = out at hspec ⊢
  cases hspec with
  | refused => exact h
  | failed =>
    exact { hclean with }
  | existing nonce laneID hroom hnone hmax hsome =>
    exact hclean.addGrant hmax rfl hsome hnone hroom
  | made nonce next laneID hopen hroom hnone hmax hunused hspace =>
    have hopen : ¬ host.closed := fun hclosed => hopen (h.stopping (h.shut hclosed).1)
    refine (hclean.makeLane hopen hunused hspace).addGrant hmax rfl ?_ hnone hroom
    simp

/-! ### Candidates -/

/-- What an admissible candidate holds. -/
theorem rejectionOf_ok (h : r.rejectionOf hello now = .ok state) :
    r.grants.get? hello.operationID = some state ∧ state.grant.laneID = hello.laneID ∧
      state.grant.laneEpoch = hello.laneEpoch ∧ state.grant.attachNonce = hello.attachNonce ∧
      ((r.lanes.get? hello.laneID).getD .zero).lastEpoch < hello.laneEpoch ∧
      ((r.lanes.get? hello.laneID).getD .zero).active = false   := by
  unfold LaneRegistry.rejectionOf at h
  repeat' split at h
  all_goals grind

theorem settleCandidate_cases (c : Crypto) (r : LaneRegistry) (hello : LaneHello)
    (senderNonce : Bytes) (now : Time) :
    (r.settleCandidate c hello senderNonce now).2.1.disposition ≠ .accepted ∧
        (r.settleCandidate c hello senderNonce now).1 = (r.cleanup now).finishSettlement ∨
      (r.settleCandidate c hello senderNonce now).2.1.disposition = .accepted ∧
        ∃ state, (r.cleanup now).rejectionOf hello now = .ok state ∧
          (r.settleCandidate c hello senderNonce now).1 =
            ((r.cleanup now).occupy hello state now).finishSettlement := by
  unfold LaneRegistry.settleCandidate
  dsimp only
  cases hcheck : (r.cleanup now).rejectionOf hello now with
  | error rejection =>
    dsimp only
    cases c.newLaneReject hello rejection (r.cleanup now).senderSigningKey with
    | ok | error => exact .inl ⟨by simp, rfl⟩
  | ok state =>
    cases c.newLaneAccept hello senderNonce (r.cleanup now).senderSigningKey with
    | error => exact .inl ⟨by simp, rfl⟩
    | ok => exact .inr ⟨rfl, state, rfl, rfl⟩

/-- The end of a settlement. -/
theorem Sound.finishSettlement (h : host.Sound) (hmem : hello ∈ host.inFlight) :
    Sound { host with
      registry := host.registry.finishSettlement
      inFlight := host.inFlight.erase hello }  := by
  refine { h with settlements := ?_, shut := ?_ }
  · have hlength := List.length_erase_add_one hmem
    have := h.settlements
    change host.registry.settlementCount - 1 = (host.inFlight.erase hello).length
    omega
  · have hshut := h.shut
    grind

/-- An accepted candidate takes its lane to a new epoch. -/
theorem Sound.occupy (h : host.Sound)
    (hmem : hello ∈ host.inFlight) (hok : host.registry.rejectionOf hello now = .ok state) :
    Sound { host with
      registry := host.registry.occupy hello state now
      accepted := host.accepted ++ [hello.grant] }  := by
  obtain ⟨hfound, hlaneID, hepoch, hnonce, hnewer, hidle⟩ := rejectionOf_ok hok
  obtain ⟨hoperation, hissued, hplaced⟩ := h.placed _ _ hfound
  have hgrant : state.grant = hello.grant := by
    obtain ⟨⟨laneID, laneEpoch, operationID, attachNonce⟩, expiresAt, consumedAt⟩ := state
    subst hlaneID hepoch hnonce hoperation
    rfl
  rw [hlaneID] at hplaced
  obtain ⟨lane, hlane⟩ := Option.ne_none_iff_exists'.mp hplaced
  rw [hlane, Option.getD_some] at hnewer hidle
  have hopen : host.closed = false := by
    have hshut := h.shut
    grind
  -- A candidate of the lane that was accepted before has an older epoch.
  have holder : ∀ grant ∈ host.accepted, grant.laneID = hello.laneID →
      grant.laneEpoch < hello.laneEpoch := by
    intro grant hold hsame
    obtain ⟨lane', hlane', hle⟩ := h.last hopen grant hold
    rw [hsame, hlane] at hlane'
    cases hlane'
    exact UInt32.lt_of_le_of_lt hle hnewer
  refine { h with
    active := ?_, lanes_le := ?_, grants_le := ?_, placed := ?_, issued := ?_, last := ?_
    increasing := ?_, shut := ?_ }
  · have hcount := host.registry.lanes.count_insert state.grant.laneID ⟨state.grant.laneEpoch, true⟩
      (·.active)
    rw [hlaneID, hlane, Option.elim_some, hidle] at hcount
    simp only [LaneRegistry.occupy, h.active]
    rw [hlaneID]
    exact congrArg Nat.cast hcount.symm
  · simp only [LaneRegistry.occupy, hlaneID, FiniteMap.size_insert_of_some hlane]
    exact h.lanes_le
  · simp only [LaneRegistry.occupy, FiniteMap.size_insert_of_some hfound]
    exact h.grants_le
  · grind [LaneRegistry.occupy, h.placed]
  · grind [h.issued]
  · intro _ grant hmem'
    have hle := @UInt32.le_of_lt
    have hrefl := UInt32.le_refl hello.laneEpoch
    have hgrantID : hello.grant.laneID = hello.laneID ∧ hello.grant.laneEpoch = hello.laneEpoch :=
      ⟨rfl, rfl⟩
    grind [LaneRegistry.occupy, h.last]
  · refine List.pairwise_append.mpr ⟨h.increasing, List.pairwise_singleton _ _, ?_⟩
    intro grant hold other hnew hsame
    obtain rfl := List.mem_singleton.mp hnew
    exact holder grant hold hsame
  · exact fun hclosed => absurd (hopen.symm.trans hclosed) (by decide)

theorem Sound.settle (h : host.Sound) (hmem : hello ∈ host.inFlight)
    (senderNonce : Bytes) (now : Time) :
    (host.perform c (.settle hello senderNonce now)).Sound := by
  have hclean := h.cleaned (host.registry.cleaned_cleanup now)
  simp only [perform]
  obtain ⟨hrejected, heq⟩ | ⟨haccepted, state, hok, heq⟩ :=
    settleCandidate_cases c host.registry hello senderNonce now
  · rw [heq, if_neg hrejected]
    exact hclean.finishSettlement hmem
  · rw [heq, if_pos haccepted]
    exact (hclean.occupy hmem hok).finishSettlement hmem

/-! ### Occupants -/

/-- What `release` does: it deactivates the lane of exactly this epoch, or nothing. -/
theorem release_cases (r : LaneRegistry) (laneID laneEpoch : UInt32) :
    r.release laneID laneEpoch = (r, false) ∨
      r.lanes.get? laneID = some ⟨laneEpoch, true⟩ ∧ r.release laneID laneEpoch =
        ({ r with
          lanes := r.lanes.insert laneID ⟨laneEpoch, false⟩
          activeCount := r.activeCount - 1 }, true) := by
  unfold LaneRegistry.release
  cases hlane : r.lanes.get? laneID with
  | none => exact .inl rfl
  | some lane =>
    obtain ⟨lastEpoch, active⟩ := lane
    dsimp only
    split
    · exact .inl rfl
    · rename_i hoccupied
      rw [not_or, Bool.not_eq_false, Decidable.not_not] at hoccupied
      obtain ⟨rfl, rfl⟩ := hoccupied
      exact .inr ⟨rfl, rfl⟩

theorem Sound.release (h : host.Sound) (laneID laneEpoch : UInt32) :
    (host.perform c (.release laneID laneEpoch)).Sound  := by
  simp only [perform]
  obtain heq | ⟨hlane, heq⟩ := release_cases host.registry laneID laneEpoch
  · rw [heq]
    exact h
  rw [heq]
  refine { h with active := ?_, lanes_le := ?_, placed := ?_, last := ?_, shut := ?_ }
  · have hcount := host.registry.lanes.count_insert laneID ⟨laneEpoch, false⟩ (·.active)
    rw [hlane, Option.elim_some] at hcount
    simp only [h.active, Bool.toNat_true, Bool.toNat_false] at hcount ⊢
    omega
  · simp only [FiniteMap.size_insert_of_some hlane]
    exact h.lanes_le
  · grind [h.placed]
  · grind [h.last]
  · grind [h.shut]

/-! ### Every run -/

theorem Starts.sound (h : host.Starts) : host.Sound  := by
  obtain ⟨registry, inFlight, issued, accepted, closed⟩ := host
  obtain ⟨config, hnew, rfl, rfl, rfl, rfl⟩ := h
  unfold newLaneRegistry at hnew
  split at hnew
  · cases hnew
  dsimp only at hnew
  generalize (if config.maxLogicalLanes = 0 then _ else _) = maxLogical at hnew
  generalize (if config.maxPendingGrants = 0 then _ else _) = maxPending at hnew
  split at hnew
  · cases hnew
  rename_i hlimits
  rw [not_or, Int.not_lt, Int.not_lt] at hlimits
  cases hnew
  refine ⟨rfl, hlimits.1, Int.le_trans (Int.le_of_lt Int.zero_lt_one) hlimits.2, nofun, rfl, ?_, ?_,
    ?_, .nil, rfl, id, nofun⟩
  all_goals simp

/-- Every call keeps the invariant. -/
theorem Sound.perform (h : host.Sound) {event : LaneEvent} (hallowed : host.Allows event) :
    (host.perform c event).Sound := by
  cases event with
  | issueGrant requestedLaneID operationID attachNonce now =>
    exact h.issueGrant requestedLaneID operationID attachNonce now
  | revokeGrant =>
    simp only [LaneHost.perform, LaneRegistry.revokeGrant]
    split
    · exact h
    split
    · exact h
    split
    · exact h
    · exact h.cleaned (host.registry.cleaned_forget _ _)
  | authenticate encoded =>
    simp only [LaneHost.perform, LaneRegistry.authenticateCandidate]
    cases c.parseLaneHello encoded host.registry.receiverToSender with
    | error => exact h
    | ok =>
      by_cases hclosing : host.registry.closing = true
      · simp only [if_pos hclosing]
        exact h
      · simp only [if_neg hclosing]
        refine { h with settlements := ?_, shut := ?_ }
        · have := h.settlements
          simp only [List.length_cons]
          omega
        · intro hclosed
          exact absurd (h.shut hclosed).1 hclosing
  | unclaimed => exact h.finishSettlement hallowed
  | settle hello senderNonce now => exact h.settle hallowed senderNonce now
  | release laneID laneEpoch => exact h.release laneID laneEpoch
  | stop => exact { h with stopping := fun _ => rfl }
  | beginClose =>
    exact { h with stopping := fun _ => rfl, shut := fun hclosed => ⟨rfl, (h.shut hclosed).2⟩ }
  | finishClose =>
    obtain ⟨hclosing, hidle⟩ := hallowed
    have hlanes := h.lanes_le
    have hgrants := h.grants_le
    refine { h with
      active := rfl, lanes_le := ?_, grants_le := ?_, placed := nofun, last := nofun
      shut := fun _ => ⟨hclosing, ?_, fun _ => rfl⟩ }
    · change (0 : Int) ≤ host.registry.maxLogical
      omega
    · change (0 : Int) ≤ host.registry.maxPending
      omega
    · exact List.length_eq_zero_iff.mp (Int.ofNat_eq_zero.mp (h.settlements.symm.trans hidle))

theorem reachable_sound (h : (system c).Reachable host) : host.Sound :=
  h.invariant (fun _ => Starts.sound) fun _ event _ hsound hstep => by
    obtain ⟨hallowed, rfl⟩ := hstep
    exact hsound.perform hallowed

theorem Sound.issued_nodup (h : host.Sound) : host.issued.Nodup := by
  rw [List.nodup_iff_injective_get]
  intro i j hij
  have hi := h.epochs i _ (List.getElem?_eq_getElem i.isLt)
  have hj := h.epochs j _ (List.getElem?_eq_getElem j.isLt)
  change host.issued[i.1] = host.issued[j.1] at hij
  rw [hij] at hi
  exact Fin.ext (by omega)

/-- A grant that is accepted is never accepted again. -/
theorem Sound.accepted_nodup (h : host.Sound) : host.accepted.Nodup := by
  refine h.increasing.imp ?_
  intro grant grant' hlt heq
  subst heq
  exact absurd (hlt rfl) (UInt32.lt_irrefl _)

/-- Over every run of a registry: a grant admits one candidate at most and the epochs
accepted on a lane increase, the counts are right and within their limits, releasing with an
epoch that is not the latest does nothing, and a candidate that is not accepted leaves the
registry as a cleanup would. -/
theorem lane_registry_sound (h : (system c).Reachable host) :
    ((∀ grant, host.accepted.count grant ≤ 1) ∧ host.issued.Nodup ∧
      ∀ grant ∈ host.accepted, grant ∈ host.issued) ∧
    host.accepted.Pairwise (fun g g' => g.laneID = g'.laneID → g.laneEpoch < g'.laneEpoch) ∧
    (host.registry.activeCount = host.registry.lanes.count (·.active) ∧
      host.registry.activeCount ≤ host.registry.maxLogical ∧
      host.registry.lanes.size ≤ host.registry.maxLogical ∧
      host.registry.grants.size ≤ host.registry.maxPending ∧
      host.issued.length = host.registry.nextEpoch.toNat ∧
      host.registry.settlementCount = host.inFlight.length) ∧
    (∀ laneID laneEpoch,
      (host.registry.release laneID laneEpoch).2 = false ∧
        (host.registry.release laneID laneEpoch).1 = host.registry ∨
      (∀ grant ∈ host.accepted, grant.laneID = laneID → grant.laneEpoch ≤ laneEpoch) ∧
        ∀ other ≠ laneID, (host.registry.release laneID laneEpoch).1.lanes.get? other =
          host.registry.lanes.get? other) ∧
    (∀ hello, (host.registry.unclaimedCandidate hello).1 =
      { host.registry with settlementCount := host.registry.settlementCount - 1 }) ∧
    (∀ encoded, ∃ count, (host.registry.authenticateCandidate c encoded).1 =
      { host.registry with settlementCount := count }) ∧
    ∀ hello senderNonce now,
      (host.registry.settleCandidate c hello senderNonce now).2.1.disposition ≠ .accepted →
        (host.registry.settleCandidate c hello senderNonce now).1 =
          { host.registry.cleanup now with
            settlementCount := (host.registry.cleanup now).settlementCount - 1 } := by
  have hsound := reachable_sound h
  refine ⟨⟨?_, hsound.issued_nodup, hsound.issued⟩, hsound.increasing,
    ⟨hsound.active, ?_, hsound.lanes_le, hsound.grants_le, hsound.numbered, hsound.settlements⟩,
    ?_, fun _ => rfl, ?_, ?_⟩
  · exact List.nodup_iff_count_le_one.mp hsound.accepted_nodup
  · have hcount := host.registry.lanes.count_le_size (·.active)
    have := hsound.active
    have := hsound.lanes_le
    omega
  · intro laneID laneEpoch
    obtain heq | ⟨hlane, heq⟩ := release_cases host.registry laneID laneEpoch
    · exact .inl (by rw [heq]; exact ⟨rfl, rfl⟩)
    · refine .inr ⟨?_, ?_⟩
      · intro grant hgrant hsame
        have hopen : host.closed = false := by
          rw [← Bool.not_eq_true]
          intro hclosed
          cases hlane.symm.trans ((hsound.shut hclosed).2.2 laneID)
        obtain ⟨lane, hlast, hle⟩ := hsound.last hopen grant hgrant
        rw [hsame, hlane] at hlast
        cases hlast
        exact hle
      · intro other hne
        rw [heq]
        simp only [FiniteMap.get?_insert, if_neg (Ne.symm hne)]
  · intro encoded
    unfold LaneRegistry.authenticateCandidate
    split
    · exact ⟨_, rfl⟩
    · split
      · exact ⟨_, rfl⟩
      · exact ⟨_, rfl⟩
  · intro hello senderNonce now hrejected
    obtain ⟨-, heq⟩ | ⟨haccepted, -⟩ :=
      settleCandidate_cases c host.registry hello senderNonce now
    · exact heq
    · exact absurd haccepted hrejected

/-! One lane granted, attached and released, with digests and signatures that are constant. -/

def plainCrypto : Crypto where
  hmac := fun _ _ => List.replicate 32 7
  sha256 := fun _ => List.replicate 32 0
  sign := fun _ _ => []

def plainIdentity (b : UInt8) : Identity := .filled b

def plainConfig : LaneRegistryConfig where
  shareInstance := plainIdentity 1
  protocolSessionID := plainIdentity 2
  receiverToSender := some []
  senderSigningKey := List.replicate 64 0
  initialLaneID := 1
  maxLogicalLanes := 0
  maxPendingGrants := 0

def plainHello : LaneHello where
  encoded := laneHelloMagic ++ [2] ++ List.replicate 16 1 ++ List.replicate 16 2 ++ [0, 0, 0, 2] ++
    [0, 0, 0, 1] ++ List.replicate 16 3 ++ List.replicate 16 4 ++ List.replicate 32 7
  share := plainIdentity 1
  session := plainIdentity 2
  laneID := 2
  laneEpoch := 1
  operationID := plainIdentity 3
  attachNonce := ⟨List.replicate 16 4, rfl⟩

def plainEvent : Nat → LaneEvent
  | 0 => .issueGrant 0 (plainIdentity 3) (List.replicate 16 4) 5
  | 1 => .authenticate plainHello.encoded
  | 2 => .settle plainHello (List.replicate 16 5) 6
  | _ => .release 2 1

def plainHost (registry : LaneRegistry) : Nat → LaneHost
  | 0 => ⟨registry, [], [], [], false⟩
  | k + 1 => (plainHost registry k).perform plainCrypto (plainEvent k)

theorem lane_registry_sound_plain :
    ∃ registry, newLaneRegistry plainConfig = .ok registry ∧
      (plainHost registry 4).accepted = [plainHello.grant] ∧
      (plainHost registry 4).accepted.count plainHello.grant ≤ 1 := by
  obtain ⟨registry, hnew⟩ : ∃ registry, newLaneRegistry plainConfig = .ok registry := ⟨_, rfl⟩
  have hwaits : plainHello ∈ (plainHost registry 2).inFlight := by
    cases hnew
    decide +kernel
  have hallows (k : Nat) : (plainHost registry k).Allows (plainEvent k) := by
    match k with
    | 0 | 1 | _ + 3 => trivial
    | 2 => exact hwaits
  have hreachable (k : Nat) : (system plainCrypto).Reachable (plainHost registry k) := by
    induction k with
    | zero => exact .of_init ⟨plainConfig, hnew, rfl, rfl, rfl, rfl⟩
    | succ k ih => exact ih.step (e := plainEvent k) ⟨hallows k, rfl⟩
  refine ⟨registry, hnew, ?_, (lane_registry_sound (hreachable 4)).1.1 plainHello.grant⟩
  cases hnew
  decide +kernel

end LaneHost

end Windshare.Lane
