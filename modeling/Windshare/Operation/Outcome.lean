import Windshare.Operation.Moves

/-!
# When a message is delivered

A delivered message begins an operation, cancels one that has not begun, finishes
one, answers a peer offer, or continues an active operation. The inversion lemma
lists these cases with the table each one leaves.
-/

namespace Windshare.Operation

open Windshare.Library Windshare.Session

def Begins (direction : Direction) (m : Message) : Prop :=
  direction = .receiverToSender ∧ (m.kind.isRequest ∨ m.kind = .laneAttach)

/-- A message that ends an operation of the given request kind. -/
def Finishes (requestKind : MessageKind) (m : Message) : Prop :=
  m.kind.isFinal ∨ requestKind = .laneAttach ∧ m.kind = .laneAttach

/-- The result of a reservation attempt that lets a message through. -/
def Reserve.letThrough : Option Nat → Reserve Nat
  | none => .unreserved
  | some index => .reserved index

namespace Table

/-- The ways a message of operation `id` is delivered, with the table and the
reservation it leaves. -/
inductive Delivered (cfg : Config) (t : Table) (now : Time) (direction : Direction) (m : Message)
    (id : OperationID) : Table → Option Nat → Prop
  | begun (hbegins : Begins direction m) (hactive : t.active.get? id = none)
      (htombstone : t.tombstones.get? id = none) (slots : FiniteMap UInt8 PeerSlot)
      (authority : Authority) (hnew : newOperationAuthority cfg m = .ok authority) :
      Delivered cfg t now direction m id
        { t with
          peerSlots := slots
          active := t.active.insert id
            { requestKind := m.kind
              requestFingerprint := m.operationFingerprint cfg.codec direction
              answer := none
              authority := t.authorities.length }
          authorities := t.authorities ++ [authority] } none
  | preempted (hkind : m.kind = .cancel) (hactive : t.active.get? id = none)
      (htombstone : t.tombstones.get? id = none) :
      Delivered cfg t now direction m id
        { t with
          tombstones := t.tombstones.insert id
            (newTombstone cfg now direction m true none zeroDigest t.authorities.length)
          authorities := t.authorities ++ [{}] } none
  | finished (op : ActiveOperation) (hop : t.active.get? id = some op)
      (htombstone : t.tombstones.get? id = none) (hfinishes : Finishes op.requestKind m)
      (hbegins : ¬ Begins direction m) (slots : FiniteMap UInt8 PeerSlot) (cancelled : Bool) :
      Delivered cfg t now direction m id
        ({ t with
          peerSlots := slots
          active := t.active.erase id
          tombstones := t.tombstones.insert id
            (newTombstone cfg now direction m cancelled (some op.requestKind)
              op.requestFingerprint op.authority) }.clearContinuationReplay op.authority) none
  | answered (op : ActiveOperation) (hop : t.active.get? id = some op)
      (htombstone : t.tombstones.get? id = none) (hkind : m.kind = .peerAnswer)
      (hanswer : op.answer = none) :
      Delivered cfg t now direction m id
        { t with
          active := t.active.insert id
            { op with answer := some (m.operationFingerprint cfg.codec direction) } } none
  | continued (op : ActiveOperation) (hop : t.active.get? id = some op)
      (htombstone : t.tombstones.get? id = none) (hbegins : ¬ Begins direction m)
      (hallowed : messageAllowedForOperation op.requestKind m.kind)
      (hfinishes : ¬ Finishes op.requestKind m) (hkind : m.kind ≠ .peerAnswer) (u : Table)
      (reservation : Option Nat)
      (hreserve : t.reserveActiveContinuation cfg op.authority direction m =
        (u, .letThrough reservation)) :
      Delivered cfg t now direction m id u reservation

variable {cfg : Config} {t u : Table} {direction : Direction} {m : Message}

/-- A peer attempt that passes leaves the table alone. -/
theorem validatePeerAttempt_pass {a : Option Nat}
    (h : t.validatePeerAttempt cfg a direction m = (u, none)) : u = t := by
  revert h
  fun_cases validatePeerAttempt cfg t a direction m with
  | case5 => intro h; cases h
  | _ => rintro ⟨⟩; rfl

/-- A message that is no candidate gets no reservation and leaves the table alone. -/
theorem reserveActiveContinuation_of_not_candidate (cfg : Config) (t : Table) (a : Nat)
    (direction : Direction) (hkind : m.kind ≠ .peerCandidate) :
    t.reserveActiveContinuation cfg a direction m = (t, .unreserved) ∨
      t.reserveActiveContinuation cfg a direction m = (t, .refused .schema) := by
  unfold reserveActiveContinuation
  split
  · exact .inl rfl
  rename_i state _
  obtain h | h := state.classify_of_not_candidate cfg.codec direction hkind
  · rw [h]
    exact .inl rfl
  · rw [h]
    exact .inr rfl

variable {id : OperationID} {now : Time} {reservation : Option Nat} {op : ActiveOperation}
  {tombstone : Tombstone} {v : Verdict}

theorem beginOperation_delivered
    (hactive : t.active.get? id = none) (htombstone : t.tombstones.get? id = none)
    (h : t.beginOperation cfg now id direction m = (u, .delivered reservation)) :
    Delivered cfg t now direction m id u reservation := by
  unfold beginOperation at h
  split at h
  · rename_i hkind
    split at h
    · cases h
    rename_i hadd
    cases h
    unfold addTombstone at hadd
    split at hadd
    · cases hadd
    cases hadd
    exact .preempted hkind hactive htombstone
  split at h
  · cases h
  rename_i hdirection
  have hbegins : Begins direction m := by
    refine ⟨?_, ?_⟩
    · by_contra hne
      exact hdirection (.inl hne)
    · by_contra hne
      rw [not_or] at hne
      exact hdirection (.inr ⟨by simpa using hne.1, hne.2⟩)
  split at h
  · cases h
  split at h
  · cases h
  split at h
  · cases h
  rename_i authority hnew
  obtain ⟨slots, hslots⟩ := admitPeerAttempt_eq t authority
  split at h
  · cases h
  rename_i hadmitted
  rw [hadmitted] at hslots
  cases hslots
  cases h
  exact .begun hbegins hactive htombstone slots authority hnew

theorem advanceOperation_delivered
    (h : t.advanceOperation cfg now id op direction m = (u, .delivered reservation)) :
    ¬ Begins direction m ∧
      ((Finishes op.requestKind m ∧
        ∃ cancelled, t.finishOperation cfg now id op direction m cancelled = (u, none)) ∨
      (¬ Finishes op.requestKind m ∧ m.kind = .peerAnswer ∧ op.answer = none ∧
        u = { t with
          active := t.active.insert id
            { op with answer := some (m.operationFingerprint cfg.codec direction) } }) ∨
      (messageAllowedForOperation op.requestKind m.kind ∧ ¬ Finishes op.requestKind m ∧
        m.kind ≠ .peerAnswer ∧ u = t)) := by
  unfold advanceOperation at h
  split at h
  · rename_i hkind
    have hbegins : ¬ Begins direction m := by
      rintro ⟨-, hbegin⟩
      rw [hkind] at hbegin
      simp [MessageKind.isRequest] at hbegin
    have hfinishes : Finishes op.requestKind m := by
      refine .inl ?_
      rw [hkind]
      rfl
    split at h
    · cases h
    · rename_i hfinish
      cases h
      exact ⟨hbegins, .inl ⟨hfinishes, true, hfinish⟩⟩
  split at h
  · split at h <;> cases h
  rename_i hrequest
  split at h
  · cases h
  rename_i hattach
  have hbegins : ¬ Begins direction m := by
    rintro ⟨hdirection, hrequest' | hkind⟩
    · exact hrequest hrequest'
    · exact hattach ⟨hkind, hdirection⟩
  refine ⟨hbegins, ?_⟩
  split at h
  · cases h
  rename_i hallowed
  split at h
  · rename_i hfinishes
    split at h
    · cases h
    · rename_i hfinish
      cases h
      exact .inl ⟨hfinishes, false, hfinish⟩
  rename_i hfinishes
  split at h
  · rename_i hkinds
    unfold observePeerAnswer at h
    dsimp only at h
    split at h
    · rename_i hanswer
      cases h
      exact .inr (.inl ⟨hfinishes, hkinds.2, hanswer, rfl⟩)
    · split at h <;> cases h
  · rename_i hkinds
    cases h
    refine .inr (.inr ⟨by simpa using hallowed, hfinishes, ?_, rfl⟩)
    -- Only a peer offer admits an answer.
    intro hkind
    apply hkinds
    refine ⟨?_, hkind⟩
    rw [hkind] at hallowed
    revert hallowed
    cases op.requestKind <;> simp [messageAllowedForOperation]

theorem finishes_not_candidate {requestKind : MessageKind} (h : Finishes requestKind m) :
    m.kind ≠ .peerCandidate := by
  rintro hkind
  unfold Finishes at h
  rw [hkind] at h
  simp [MessageKind.isFinal] at h

theorem observeActive_delivered (hop : t.active.get? id = some op)
    (htombstone : t.tombstones.get? id = none)
    (h : t.observeActive cfg now id op direction m = (u, .delivered reservation)) :
    Delivered cfg t now direction m id u reservation := by
  unfold observeActive at h
  split at h
  · rename_i w r hadvance
    obtain ⟨hbegins, hcases⟩ := advanceOperation_delivered hadvance
    -- Messages other than candidates pass the reservation untouched.
    have hpass : m.kind ≠ .peerCandidate → u = w ∧ reservation = none := by
      intro hkind
      obtain hres | hres :=
        reserveActiveContinuation_of_not_candidate cfg w op.authority direction hkind
      · rw [hres] at h
        cases h
        exact ⟨rfl, rfl⟩
      · rw [hres] at h
        cases h
    obtain ⟨hfinishes, cancelled, hfinish⟩ | ⟨hfinishes, hkind, hanswer, hw⟩ |
      ⟨hallowed, hfinishes, hkind, hw⟩ := hcases
    · obtain ⟨rfl, rfl⟩ := hpass (finishes_not_candidate hfinishes)
      obtain ⟨slots, heq⟩ := finishOperation_eq cfg hop now direction m cancelled
      rw [heq] at hfinish
      cases hfinish
      exact .finished op hop htombstone hfinishes hbegins slots cancelled
    · obtain ⟨rfl, rfl⟩ := hpass (by rw [hkind]; decide)
      rw [hw]
      exact .answered op hop htombstone hkind hanswer
    · rw [hw] at h
      refine .continued op hop htombstone hbegins hallowed hfinishes hkind u reservation ?_
      split at h <;> rename_i hres <;> cases h <;> exact hres
  · rename_i hnot _
    cases h
    exact (hnot _ rfl).elim

theorem not_delivered_observeTombstone :
    t.observeTombstone cfg id tombstone direction m ≠ (u, .delivered reservation) := by
  intro h
  unfold observeTombstone observeCancelledTombstone bindPreemptivelyCancelledRequest at h
  dsimp only at h
  repeat' split at h
  all_goals cases h

theorem not_delivered_observeRetired :
    t.observeRetired cfg id tombstone direction m ≠ (u, .delivered reservation) := by
  intro h
  unfold observeRetired at h
  dsimp only at h
  split at h
  · split at h <;> cases h
  split at h
  · split at h
    · split at h <;> cases h
    · exact not_delivered_observeTombstone h
  · exact not_delivered_observeTombstone h

/-- The inversion lemma of a delivered message with an operation. -/
theorem observePruned_delivered (hid : m.operationID = some id)
    (h : t.observePruned cfg now direction m = (u, .delivered reservation)) :
    t.terminal = false ∧ Delivered cfg t now direction m id u reservation := by
  unfold observePruned at h
  split at h
  · cases h
  rename_i hterminal
  refine ⟨by simpa using hterminal, ?_⟩
  split at h
  · cases h
  split at h
  · rename_i hcontrol
    have hidentity := m.identity
    simp [validMessageIdentity, hcontrol, hid] at hidentity
  split at h
  · cases h
  rw [hid] at h
  dsimp only at h
  split at h
  · cases h
  rename_i w hvalidate
  obtain rfl := validatePeerAttempt_pass hvalidate
  split at h
  · exact absurd h not_delivered_observeRetired
  rename_i htombstone
  split at h
  · rename_i op hop
    exact observeActive_delivered hop htombstone h
  rename_i hactive
  split at h
  · cases h
  · exact beginOperation_delivered hactive htombstone h

/-! ### The authority of a delivered message -/

theorem operationAuthority_of_active
    (h : t.active.get? id = some op) : t.operationAuthority id = some op.authority := by
  simp [operationAuthority, h]

/-- After a delivery the operation has an authority: a new one without pins, or the one it
had as an active operation, with the pins it had. A message that begins an operation makes
a new one. -/
theorem Delivered.authority (h : Delivered cfg t now direction m id u reservation) :
    ∃ a, u.operationAuthority id = some a ∧
      (a = t.authorities.length ∧ (u.authorityAt a).pins = 0 ∨
        ¬ Begins direction m ∧ (∃ op, t.active.get? id = some op ∧ op.authority = a) ∧
          (u.authorityAt a).pins = (t.authorityAt a).pins) := by
  cases h with
  | begun hbegins hactive htombstone slots authority hnew =>
    refine ⟨t.authorities.length, ?_, .inl ⟨rfl, ?_⟩⟩
    · simp [operationAuthority]
    · simp [authorityAt, newOperationAuthority_pins hnew]
  | preempted hkind hactive =>
    refine ⟨t.authorities.length, ?_, .inl ⟨rfl, ?_⟩⟩
    · simp [operationAuthority, hactive, newTombstone]
    · simp [authorityAt]
  | finished op hop htombstone hfinishes hbegins =>
    refine ⟨op.authority, ?_, .inr ⟨hbegins, ⟨op, hop, rfl⟩, ?_⟩⟩
    · simp [operationAuthority, clearContinuationReplay, modifyAuthority, newTombstone]
    · exact (framed_clearContinuationReplay _ _).counter op.authority
  | answered op hop htombstone hkind =>
    refine ⟨op.authority, ?_, .inr ⟨?_, ⟨op, hop, rfl⟩, rfl⟩⟩
    · simp [operationAuthority]
    · rintro ⟨-, hbegin⟩
      rw [hkind] at hbegin
      simp [MessageKind.isRequest] at hbegin
  | continued op hop htombstone hbegins hallowed hfinishes hkind _ _ hreserve =>
    have hframed := framed_reserveActiveContinuation cfg t op.authority direction m
    rw [hreserve] at hframed
    refine ⟨op.authority, ?_, .inr ⟨hbegins, ⟨op, hop, rfl⟩, hframed.counter op.authority⟩⟩
    exact operationAuthority_of_active (by rw [hframed.active]; exact hop)

/-! ### Finals of the sender -/

/-- The kinds of a sender message that ends an operation. -/
def SenderFinal (m : Message) : Prop := m.kind.isFinal ∨ m.kind = .laneAttach

theorem SenderFinal.not_candidate (h : SenderFinal m) : m.kind ≠ .peerCandidate := by
  intro hkind
  unfold SenderFinal at h
  rw [hkind] at h
  simp [MessageKind.isFinal] at h

theorem SenderFinal.finishes {requestKind : MessageKind} (h : SenderFinal m)
    (hallowed : messageAllowedForOperation requestKind m.kind) : Finishes requestKind m := by
  obtain hfinal | hattach := h
  · exact .inl hfinal
  · refine .inr ⟨?_, hattach⟩
    rw [hattach] at hallowed
    revert hallowed
    cases requestKind <;> simp [messageAllowedForOperation]

def Remembers (cfg : Config) (direction : Direction) (m : Message) (tombstone : Tombstone) : Prop :=
  tombstone.finalKind = m.kind ∧ tombstone.fingerprint = m.operationFingerprint cfg.codec direction

theorem acceptLateContinuation_of_not_candidate (t : Table) (a : Nat) (direction : Direction)
    (hkind : m.kind ≠ .peerCandidate) :
    t.acceptLateContinuation cfg a direction m = (t, none) := by
  unfold acceptLateContinuation
  split
  · rfl
  rename_i state _
  obtain h | h := state.classify_of_not_candidate cfg.codec direction hkind <;> rw [h]

theorem acceptUnboundLateContinuation_of_not_candidate (t : Table) (a : Nat)
    (direction : Direction) (hkind : m.kind ≠ .peerCandidate) :
    t.acceptUnboundLateContinuation cfg a direction m = (t, none) := by
  unfold acceptUnboundLateContinuation
  split
  · rename_i classifier _ _
    split
    · rfl
    · rw [classifier.candidates_only _ _ hkind]
  · rfl

theorem observeTombstone_senderFinal
    (htombstone : t.tombstones.get? id = some tombstone) (hfinal : SenderFinal m)
    (hcancel : m.kind ≠ .cancel)
    (h : t.observeTombstone cfg id tombstone .senderToReceiver m = (u, v))
    (hv : ∀ e, v ≠ .refused e) :
    ∃ kept, u.tombstones.get? id = some kept ∧ Remembers cfg .senderToReceiver m kept := by
  unfold observeTombstone at h
  rw [if_neg hcancel] at h
  split at h
  · unfold observeCancelledTombstone at h
    dsimp only at h
    split at h
    · -- The request is still unknown, so no response is compatible.
      unfold bindPreemptivelyCancelledRequest at h
      simp at h
      exact absurd h.2.symm (hv _)
    rename_i requestKind _
    rw [if_neg (by simp)] at h
    split at h
    · cases h
      exact absurd rfl (hv _)
    rename_i hallowed
    have hfinishes : m.kind.isFinal ∨ requestKind = .laneAttach ∧ m.kind = .laneAttach :=
      hfinal.finishes (by simpa using hallowed)
    rw [if_pos hfinishes] at h
    split at h
    · cases h
      exact ⟨_, FiniteMap.get?_insert_self, rfl, rfl⟩
    split at h
    · cases h
      exact absurd rfl (hv _)
    · rename_i hsame
      cases h
      rw [not_or, not_not, not_not] at hsame
      exact ⟨tombstone, htombstone, hsame⟩
  · rw [if_neg (by simp), if_pos (show m.kind.isFinal ∨ m.kind = .laneAttach from hfinal)] at h
    split at h
    · rename_i hsame
      cases h
      exact ⟨tombstone, htombstone, hsame⟩
    · cases h
      exact absurd rfl (hv _)

theorem SenderFinal.not_request (h : SenderFinal m) : m.kind.isRequest = false := by
  unfold SenderFinal at h
  revert h
  cases m.kind <;> simp [MessageKind.isFinal, MessageKind.isRequest]

/-- An active operation that accepts a final of the sender finishes with it. -/
theorem observeActive_senderFinal (hop : t.active.get? id = some op) (hfinal : SenderFinal m)
    (hcancel : m.kind ≠ .cancel)
    (h : t.observeActive cfg now id op .senderToReceiver m = (u, v))
    (hv : ∀ e, v ≠ .refused e) :
    ∃ kept, u.tombstones.get? id = some kept ∧ Remembers cfg .senderToReceiver m kept := by
  have hfinish (cancelled : Bool) :=
    finishOperation_eq cfg hop now .senderToReceiver m cancelled
  unfold observeActive at h
  split at h
  · rename_i w r hadvance
    obtain ⟨-, hcases⟩ := advanceOperation_delivered hadvance
    obtain ⟨hfinishes, cancelled, hw⟩ | ⟨-, hkind, -⟩ | ⟨hallowed, hfinishes, -⟩ := hcases
    · obtain ⟨slots, heq⟩ := hfinish cancelled
      rw [heq] at hw
      cases hw
      have hpass := reserveActiveContinuation_of_not_candidate cfg
        ({ t with
          peerSlots := slots
          active := t.active.erase id
          tombstones := t.tombstones.insert id
            (newTombstone cfg now .senderToReceiver m cancelled (some op.requestKind)
              op.requestFingerprint op.authority) }.clearContinuationReplay op.authority)
        op.authority .senderToReceiver hfinal.not_candidate
      obtain hres | hres := hpass <;> rw [hres] at h <;> cases h
      · exact ⟨_, FiniteMap.get?_insert_self, rfl, rfl⟩
      · exact absurd rfl (hv _)
    · unfold SenderFinal at hfinal
      rw [hkind] at hfinal
      simp [MessageKind.isFinal] at hfinal
    · exact absurd (hfinal.finishes hallowed) hfinishes
  · rename_i w verdict hnot hadvance
    cases h
    -- Without a delivery the message was refused.
    unfold advanceOperation at hadvance
    rw [if_neg hcancel, if_neg (by simp [hfinal.not_request]), if_neg (by simp)] at hadvance
    split at hadvance
    · cases hadvance
      exact absurd rfl (hv _)
    · rename_i hallowed
      obtain ⟨slots, heq⟩ := hfinish false
      have hfinishes : m.kind.isFinal ∨ op.requestKind = .laneAttach ∧ m.kind = .laneAttach :=
        hfinal.finishes (by simpa using hallowed)
      rw [if_pos hfinishes, heq] at hadvance
      cases hadvance
      exact (hnot _ rfl).elim

theorem observePruned_senderFinal {a : Nat}
    (hid : m.operationID = some id) (hfinal : SenderFinal m)
    (hempty : t.terminal → t.active = .empty ∧ t.tombstones = .empty)
    (h : t.observePruned cfg now .senderToReceiver m = (u, v)) (hv : ∀ e, v ≠ .refused e)
    (howner : u.Owns id a) :
    m.kind ≠ .cancel ∧
      ∃ kept, u.tombstones.get? id = some kept ∧ Remembers cfg .senderToReceiver m kept := by
  unfold observePruned at h
  split at h
  · rename_i hterminal
    cases h
    obtain ⟨hactive, htombstones⟩ := hempty hterminal
    obtain ⟨op, hop, -⟩ | ⟨tombstone, htombstone, -⟩ := howner
    · rw [hactive] at hop
      cases hop
    · rw [htombstones] at htombstone
      cases htombstone
  split at h
  · cases h
    exact absurd rfl (hv _)
  rename_i hvalid
  have hcancel : m.kind ≠ .cancel := by
    intro hkind
    rw [hkind] at hvalid
    exact hvalid rfl
  refine ⟨hcancel, ?_⟩
  have hcontrol : m.kind.isSessionControl = false := by
    unfold SenderFinal at hfinal
    revert hfinal
    cases m.kind <;> simp [MessageKind.isFinal, MessageKind.isSessionControl]
  have hnotTerminal : m.kind ≠ .sessionTerminal := by
    intro hkind
    unfold SenderFinal at hfinal
    rw [hkind] at hfinal
    simp [MessageKind.isFinal] at hfinal
  rw [if_neg (by simp [hcontrol]), if_neg hnotTerminal, hid] at h
  dsimp only at h
  split at h
  · cases h
    exact absurd rfl (hv _)
  rename_i w hvalidate
  obtain rfl := validatePeerAttempt_pass hvalidate
  split at h
  · rename_i tombstone htombstone
    unfold observeRetired at h
    rw [acceptLateContinuation_of_not_candidate _ _ _ hfinal.not_candidate] at h
    dsimp only at h
    rw [acceptUnboundLateContinuation_of_not_candidate _ _ _ hfinal.not_candidate] at h
    split at h <;> exact observeTombstone_senderFinal htombstone hfinal hcancel h hv
  rename_i htombstone
  split at h
  · rename_i op hop
    exact observeActive_senderFinal hop hfinal hcancel h hv
  rename_i hactive
  split at h
  · cases h
    obtain ⟨op, hop, -⟩ | ⟨tombstone, hretired, -⟩ := howner
    · rw [hactive] at hop
      cases hop
    · rw [htombstone] at hretired
      cases hretired
  · unfold beginOperation at h
    rw [if_neg hcancel, if_pos (by simp)] at h
    cases h
    exact absurd rfl (hv _)

end Table

end Windshare.Operation
