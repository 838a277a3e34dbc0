import Windshare.WebOperation.Authority

/-!
# What an authority knows about the accepted messages

While the operation is active its authority holds the fingerprints of exactly the accepted
candidates, and until it is closed the fingerprints of the accepted answer and final. Every call
keeps this, whether its reservation is accepted or rolled back.
-/

namespace Windshare.WebOperation

open Windshare.Library Windshare.Protocol Windshare.Session Windshare.Operation

variable {D : Type}

/-- Contracts that the constructor makes. -/
def Contract.WellFormed (c : Contract D) : Prop :=
  c.requestKind = .peerOffer → c.peerBinding.isSome

/-- A candidate continues an offer only, which has a binding. -/
theorem Contract.WellFormed.peerBinding {c : Contract D} (hc : c.WellFormed) {m : Message}
    (hallows : c.allows m) (hkind : m.kind = .peerCandidate) : c.peerBinding.isSome := by
  unfold Contract.allows at hallows
  rw [Bool.and_eq_true, hkind] at hallows
  apply hc
  revert hallows
  cases c.requestKind <;> simp [isResponseAllowed]

theorem kind_ne_of_replaySlot {kind : MessageKind} {slot : ReplaySlot}
    (h : replaySlot kind = some slot) : kind ≠ .peerCandidate := by
  rintro rfl
  cases h

/-- The fingerprints of the candidates among some messages. -/
def candidatesOf (c : Contract D) (messages : List Message) : List D :=
  (messages.filter fun m => m.kind = .peerCandidate).map c.fingerprint

def filling (slot : ReplaySlot) (messages : List Message) : List Message :=
  messages.filter fun m => replaySlot m.kind = some slot

section Lists

variable {c : Contract D} {m : Message} {messages : List Message} {slot : ReplaySlot}

theorem candidatesOf_cons_of_eq (h : m.kind = .peerCandidate) :
    candidatesOf c (m :: messages) = c.fingerprint m :: candidatesOf c messages := by
  unfold candidatesOf
  rw [List.filter_cons_of_pos (by simp [h]), List.map_cons]

theorem candidatesOf_cons_of_ne (h : m.kind ≠ .peerCandidate) :
    candidatesOf c (m :: messages) = candidatesOf c messages := by
  unfold candidatesOf
  rw [List.filter_cons_of_neg (by simp [h])]

theorem filling_cons_of_eq (h : replaySlot m.kind = some slot) :
    filling slot (m :: messages) = m :: filling slot messages :=
  List.filter_cons_of_pos (by simp [h])

theorem filling_cons_of_ne (h : replaySlot m.kind ≠ some slot) :
    filling slot (m :: messages) = filling slot messages :=
  List.filter_cons_of_neg (by simp [h])

theorem mem_candidatesOf (hm : m ∈ messages) (h : m.kind = .peerCandidate) :
    c.fingerprint m ∈ candidatesOf c messages :=
  List.mem_map_of_mem (List.mem_filter.mpr ⟨hm, decide_eq_true h⟩)

theorem mem_filling (hm : m ∈ messages) (h : replaySlot m.kind = some slot) :
    m ∈ filling slot messages :=
  List.mem_filter.mpr ⟨hm, decide_eq_true h⟩

end Lists

/-- The message may continue the request. -/
structure Contract.Admits (c : Contract D) (m : Message) : Prop where
  allows : c.allows m
  continues : c.continues m

/-- What the authority knows when these messages were accepted. -/
structure Knows (c : Contract D) (a : Authority D) (accepted : List Message) : Prop where
  admits : ∀ m ∈ accepted, c.Admits m
  nodup : (candidatesOf c accepted).Nodup
  bounded : (candidatesOf c accepted).length ≤ maximumPeerCandidates + 1
  candidates : a.state = .active → candidatesOf c accepted = a.overflow.toList ++ a.candidates
  room : a.candidates.length ≤ maximumPeerCandidates
  once : ∀ slot, (filling slot accepted).length ≤ 1
  recorded : a.state ≠ .closed →
    ∀ slot, ∀ m ∈ filling slot accepted, a.fingerprints.get? slot = some (c.fingerprint m)

namespace Knows

variable {c : Contract D} {a : Authority D} {accepted : List Message} {m : Message}
  {slot : ReplaySlot}

theorem new (c : Contract D) : Knows c .new [] where
  admits := fun _ hm => absurd hm List.not_mem_nil
  nodup := List.nodup_nil
  bounded := Nat.zero_le _
  candidates := fun _ => rfl
  room := Nat.zero_le _
  once := fun _ => Nat.zero_le _
  recorded := fun _ _ _ hm => absurd hm List.not_mem_nil

section

variable (h : Knows c a accepted)

include h

theorem interrupt (i : Interruption) : Knows c (a.interrupt i) accepted := by
  cases i with
  | close =>
    exact { h with
      candidates := nofun
      room := Nat.zero_le _
      recorded := fun hopen => absurd rfl hopen }
  | retire reason =>
    change Knows c (a.retire reason) accepted
    by_cases hactive : a.state = .active
    · rw [Authority.retire_of_active hactive]
      refine { h with candidates := ?_, room := Nat.zero_le _, recorded := fun _ => ?_ }
      · cases reason <;> nofun
      · exact h.recorded (by rw [hactive]; nofun)
    · rw [Authority.retire_of_not_active hactive]
      exact h

/-- A message that is neither a candidate nor fills a slot leaves no trace. -/
theorem cons (hm : c.Admits m) (hkind : m.kind ≠ .peerCandidate)
    (hslot : replaySlot m.kind = none) : Knows c a (m :: accepted) := by
  have hcandidates : candidatesOf c (m :: accepted) = candidatesOf c accepted :=
    candidatesOf_cons_of_ne hkind
  have hfilling : ∀ slot, filling slot (m :: accepted) = filling slot accepted := by
    intro slot
    exact filling_cons_of_ne (by rw [hslot]; nofun)
  constructor
  case admits => exact List.forall_mem_cons.mpr ⟨hm, h.admits⟩
  case nodup => exact hcandidates ▸ h.nodup
  case bounded => exact hcandidates ▸ h.bounded
  case candidates => exact hcandidates ▸ h.candidates
  case room => exact h.room
  case once => exact fun slot => hfilling slot ▸ h.once slot
  case recorded => exact fun hopen slot => hfilling slot ▸ h.recorded hopen slot

/-- A new candidate, under the new authority `a'`. -/
theorem consCandidate {a' : Authority D} (hm : c.Admits m)
    (hkind : m.kind = .peerCandidate) (hfingerprints : a'.fingerprints = a.fingerprints)
    (hstate : a'.state = a.state) (hactive : a.state = .active) (hoverflow : a.overflow = none)
    (hnew : c.fingerprint m ∉ a.candidates)
    (hcandidates : a'.overflow.toList ++ a'.candidates = c.fingerprint m :: a.candidates)
    (hroom : a'.candidates.length ≤ maximumPeerCandidates) : Knows c a' (m :: accepted) := by
  have hknown : candidatesOf c accepted = a.candidates := by
    rw [h.candidates hactive, hoverflow]
    rfl
  have hcons : candidatesOf c (m :: accepted) = c.fingerprint m :: a.candidates := by
    rw [candidatesOf_cons_of_eq hkind, hknown]
  have hfilling : ∀ slot, filling slot (m :: accepted) = filling slot accepted := by
    intro slot
    exact filling_cons_of_ne (by rw [hkind]; nofun)
  constructor
  case admits => exact List.forall_mem_cons.mpr ⟨hm, h.admits⟩
  case nodup => exact hcons ▸ List.nodup_cons.mpr ⟨hnew, hknown ▸ h.nodup⟩
  case bounded =>
    rw [hcons, List.length_cons]
    exact Nat.succ_le_succ h.room
  case candidates => exact fun _ => hcons.trans hcandidates.symm
  case room => exact hroom
  case once => exact fun slot => hfilling slot ▸ h.once slot
  case recorded =>
    intro hopen slot
    rw [hfilling slot, hfingerprints]
    exact h.recorded (hstate ▸ hopen) slot

theorem filling_eq_nil (hopen : a.state ≠ .closed)
    (hnone : a.fingerprints.get? slot = none) : filling slot accepted = [] := by
  refine List.eq_nil_iff_forall_not_mem.mpr fun m hm => ?_
  rw [h.recorded hopen slot m hm] at hnone
  cases hnone

theorem record (hopen : a.state ≠ .closed) (hnone : a.fingerprints.get? slot = none) (f : D) :
    Knows c { a with fingerprints := a.fingerprints.insert slot f } accepted := by
  refine { h with recorded := fun _ slot' m hm => ?_ }
  have hold := h.recorded hopen slot' m hm
  have hne : slot ≠ slot' := by
    rintro rfl
    rw [hnone] at hold
    cases hold
  rw [FiniteMap.get?_insert, if_neg hne]
  exact hold

/-- A message that fills a slot for the first time. -/
theorem consReplay (hm : c.Admits m) (hopen : a.state ≠ .closed)
    (hslot : replaySlot m.kind = some slot) (hnone : a.fingerprints.get? slot = none) :
    Knows c { a with fingerprints := a.fingerprints.insert slot (c.fingerprint m) }
      (m :: accepted) := by
  have hkept := h.record hopen hnone (c.fingerprint m)
  have hempty := h.filling_eq_nil hopen hnone
  have hcandidates : candidatesOf c (m :: accepted) = candidatesOf c accepted :=
    candidatesOf_cons_of_ne (kind_ne_of_replaySlot hslot)
  have hself : filling slot (m :: accepted) = [m] := by
    rw [filling_cons_of_eq hslot, hempty]
  have hother : ∀ slot', slot ≠ slot' → filling slot' (m :: accepted) = filling slot' accepted := by
    intro slot' hne
    exact filling_cons_of_ne (by rw [hslot]; simpa using hne)
  constructor
  case admits => exact List.forall_mem_cons.mpr ⟨hm, h.admits⟩
  case nodup => exact hcandidates ▸ h.nodup
  case bounded => exact hcandidates ▸ h.bounded
  case candidates => exact hcandidates ▸ h.candidates
  case room => exact h.room
  case once =>
    intro slot'
    by_cases hne : slot = slot'
    · subst hne
      rw [hself]
      exact Nat.le_refl 1
    · exact hother slot' hne ▸ h.once slot'
  case recorded =>
    intro _ slot' m' hm'
    by_cases hne : slot = slot'
    · subst hne
      rw [hself, List.mem_singleton] at hm'
      rw [hm']
      exact FiniteMap.get?_insert_self
    · rw [hother slot' hne] at hm'
      exact hkept.recorded hopen slot' m' hm'

end

end Knows

/-! ### Calls -/

/-- A call that ended keeps what is known of the accepted messages. When it delivers its message,
this holds with the message accepted, and the rollback gives the authority back as it was. -/
def Ends (c : Contract D) [DecidableEq D] (a : Authority D) (accepted : List Message)
    (m : Message) (a' : Authority D) : Outcome D → Prop
  | .dropped => Knows c a' accepted
  | .violation => Knows c a' accepted
  | .deliver _ u => a'.undo u = a ∧ Knows c a' (m :: accepted)

/-- What the kind of its message and the authority say when a call awaits its digest. -/
def Suspended.Fits (a : Authority D) : Suspended → Prop
  | .candidate m => m.kind = .peerCandidate ∧ (a.state = .active → a.overflow = none)
  | .replay m slot => replaySlot m.kind = some slot
  | .late m slot _ => replaySlot m.kind = some slot

/-- A call that awaits its digest has checked its message. -/
structure Awaits (c : Contract D) (a : Authority D) (m : Message) (call : Suspended) : Prop where
  message : call.message = m
  admits : c.Admits m
  fits : call.Fits a

variable {call : Suspended}

theorem Awaits.interrupt {c : Contract D} {a : Authority D} {m : Message}
    (h : Awaits c a m call) (i : Interruption) : Awaits c (a.interrupt i) m call := by
  refine ⟨h.message, h.admits, ?_⟩
  have hfits := h.fits
  cases call with
  | replay | late => exact hfits
  | candidate =>
    refine ⟨hfits.1, fun hactive => ?_⟩
    cases i with
    | close => rfl
    | retire reason =>
      change (a.retire reason).state = .active at hactive
      change (a.retire reason).overflow = none
      by_cases hold : a.state = .active
      · rw [Authority.retire_of_active hold]
      · rw [Authority.retire_of_not_active hold] at hactive
        exact absurd hactive hold

namespace Knows

variable [DecidableEq D] {c : Contract D} {a : Authority D} {accepted : List Message} {m : Message}
  {slot : ReplaySlot}

theorem reserveCandidate (h : Knows c a accepted) (hm : c.Admits m)
    (hkind : m.kind = .peerCandidate) (hoverflow : a.state = .active → a.overflow = none) :
    Ends c a accepted m (a.reserveCandidate (c.fingerprint m)).1
      (a.reserveCandidate (c.fingerprint m)).2 := by
  unfold Authority.reserveCandidate
  by_cases hactive : a.state = .active
  · have hoverflow := hoverflow hactive
    rw [if_neg (not_not_intro hactive)]
    by_cases hknown : c.fingerprint m ∈ a.candidates
    · rw [if_pos hknown]
      exact h
    · rw [if_neg hknown]
      by_cases hroom : a.candidates.length < maximumPeerCandidates
      · rw [if_pos hroom]
        refine ⟨?_, h.consCandidate hm hkind rfl rfl hactive hoverflow hknown ?_ hroom⟩
        · have hfilter : (c.fingerprint m :: a.candidates).filter
              (fun f => decide (f ≠ c.fingerprint m)) = a.candidates := by
            rw [List.filter_cons_of_neg (by simp)]
            refine List.filter_eq_self.mpr fun f hf => decide_eq_true ?_
            rintro rfl
            exact hknown hf
          change { a with candidates := _ } = a
          rw [hfilter]
        · rw [hoverflow]
          rfl
      · rw [if_neg hroom]
        refine ⟨?_, h.consCandidate hm hkind rfl rfl hactive hoverflow hknown rfl h.room⟩
        refine (if_pos rfl).trans ?_
        rw [← hoverflow]
  · rw [if_pos hactive]
    exact h

theorem acceptFingerprint (h : Knows c a accepted) (f : D) (allowFirst : Bool) :
    Ends c a accepted m (a.acceptFingerprint slot f allowFirst).1
      (a.acceptFingerprint slot f allowFirst).2 := by
  unfold Authority.acceptFingerprint
  by_cases hclosed : a.state = .closed
  · rw [if_pos hclosed]
    exact h
  · rw [if_neg hclosed]
    cases hget : a.fingerprints.get? slot with
    | none =>
      cases allowFirst with
      | true => exact h.record hclosed hget f
      | false => exact h
    | some =>
      dsimp only
      split
      · exact h
      · exact h

theorem reserveReplaySlot (h : Knows c a accepted) (hm : c.Admits m)
    (hslot : replaySlot m.kind = some slot) :
    Ends c a accepted m (a.reserveReplaySlot c m slot (c.fingerprint m)).1
      (a.reserveReplaySlot c m slot (c.fingerprint m)).2 := by
  unfold Authority.reserveReplaySlot
  by_cases hactive : a.state = .active
  · have hopen : a.state ≠ .closed := by
      rw [hactive]
      nofun
    rw [if_neg (not_not_intro hactive)]
    cases hget : a.fingerprints.get? slot with
    | none =>
      refine ⟨?_, h.consReplay hm hopen hslot hget⟩
      refine (if_pos FiniteMap.get?_insert_self).trans ?_
      change { a with fingerprints := _ } = a
      rw [FiniteMap.erase_insert_of_none hget]
    | some =>
      dsimp only
      split
      · exact h
      · exact h
  · rw [if_pos hactive]
    cases a.acceptLateValidated c m with
    | settled accepted =>
      cases accepted with
      | true | false => exact h
    | compare slot allowFirst => exact h.acceptFingerprint (c.fingerprint m) allowFirst

theorem resume (h : Knows c a accepted) (hcall : Awaits c a m call) :
    Ends c a accepted m (a.resume c call).1 (a.resume c call).2 := by
  obtain ⟨rfl, hm, hfits⟩ := hcall
  cases call with
  | candidate => exact h.reserveCandidate hm hfits.1 hfits.2
  | replay => exact h.reserveReplaySlot hm hfits
  | late m slot allowFirst => exact h.acceptFingerprint (c.fingerprint m) allowFirst

end Knows

/-! ### The first part of a call -/

/-- Whether the router finds the operation or its tombstone. -/
inductive Route where
  | operation
  | tombstone
deriving DecidableEq, Repr

def Authority.present (c : Contract D) (a : Authority D) (route : Route) (m : Message) : Turn D :=
  match route with
  | .operation => a.reserve c m
  | .tombstone => a.acceptLate c m

/-- A call that has not checked its message leaves the authority as it is. -/
def Begins (c : Contract D) [DecidableEq D] (a : Authority D) (accepted : List Message)
    (m : Message) : Turn D → Prop
  | .done outcome => Ends c a accepted m a outcome
  | .awaiting call => Awaits c a m call

section Presenting

variable {c : Contract D} {a : Authority D} {accepted : List Message} {m : Message}
  {slot : ReplaySlot}

theorem Contract.admits_iff : c.Admits m ↔ ¬(!c.allows m || !c.continues m) = true := by
  constructor
  · intro h
    simp [h.allows, h.continues]
  · intro h
    simp only [Bool.or_eq_true, Bool.not_eq_true', not_or, Bool.not_eq_false] at h
    exact ⟨h.1, h.2⟩

theorem Authority.acceptLateValidated_slot {allowFirst : Bool}
    (h : a.acceptLateValidated c m = .compare slot allowFirst) : replaySlot m.kind = some slot := by
  unfold Authority.acceptLateValidated at h
  split at h
  · cases h
  split at h
  · cases h
  split at h
  · cases hslot : replaySlot m.kind <;> rw [hslot] at h <;> cases h
    rfl
  split at h
  · rename_i hanswer
    cases h
    rw [hanswer.2.1]
    rfl
  split at h
  · cases h
  · cases hslot : replaySlot m.kind <;> rw [hslot] at h <;> cases h
    rfl

/-- Until it is closed, an authority compares every message that fills a slot. -/
theorem Authority.acceptLateValidated_compare (hopen : a.state ≠ .closed)
    (hslot : replaySlot m.kind = some slot) :
    ∃ allowFirst, a.acceptLateValidated c m = .compare slot allowFirst := by
  have hcandidate : m.kind ≠ .peerCandidate := kind_ne_of_replaySlot hslot
  have hfragment : m.kind ≠ .blockFragment := by
    intro hkind
    rw [hkind] at hslot
    cases hslot
  unfold Authority.acceptLateValidated
  rw [if_neg hopen, if_neg (fun h => hcandidate h.1), hslot]
  by_cases hcancel : a.state = .localCancel
  · rw [if_pos hcancel]
    exact ⟨true, rfl⟩
  rw [if_neg hcancel]
  by_cases hanswer : a.state = .remoteFinal ∧ m.kind = .peerAnswer ∧ c.peerBinding.isSome
  · rw [if_pos hanswer]
    rw [hanswer.2.1] at hslot
    cases hslot
    exact ⟨true, rfl⟩
  · rw [if_neg hanswer, if_neg hfragment]
    exact ⟨false, rfl⟩

variable [DecidableEq D]

section

variable (h : Knows c a accepted)

include h

theorem Knows.late (hm : c.Admits m) :
    Begins c a accepted m (a.late c m) := by
  unfold Authority.late
  cases hlate : a.acceptLateValidated c m with
  | settled settled => cases settled <;> exact h
  | compare => exact ⟨rfl, hm, Authority.acceptLateValidated_slot hlate⟩

theorem Knows.reserve (m : Message) :
    Begins c a accepted m (a.reserve c m) := by
  unfold Authority.reserve
  split
  · exact h
  split
  · exact h
  rename_i hchecks
  have hm := Contract.admits_iff.mpr hchecks
  split
  · exact h.late hm
  split
  · rename_i hkind
    split
    · exact h
    · rename_i hoverflow
      exact ⟨rfl, hm, hkind, fun _ => Option.not_isSome_iff_eq_none.mp hoverflow⟩
  · rename_i hkind
    cases hslot : replaySlot m.kind with
    | none => exact ⟨rfl, h.cons hm hkind hslot⟩
    | some => exact ⟨rfl, hm, hslot⟩

theorem Knows.present (route : Route) (m : Message) :
    Begins c a accepted m (a.present c route m) := by
  cases route with
  | operation => exact h.reserve m
  | tombstone =>
    change Begins c a accepted m (a.acceptLate c m)
    unfold Authority.acceptLate
    split
    · exact h
    split
    · exact h
    · rename_i hchecks
      exact h.late (Contract.admits_iff.mpr hchecks)

/-! ### Repeats and conflicts -/

/-- Messages whose repeats the authority recognises. -/
def Replayable (kind : MessageKind) : Prop := kind = .peerCandidate ∨ (replaySlot kind).isSome

instance (kind : MessageKind) : Decidable (Replayable kind) :=
  inferInstanceAs (Decidable (_ ∨ _))

end

/-- The recorded fingerprint decides about every message of its slot. -/
theorem Authority.acceptFingerprint_recorded {f g : D} (hopen : a.state ≠ .closed)
    (hget : a.fingerprints.get? slot = some f) (allowFirst : Bool) :
    a.acceptFingerprint slot g allowFirst = (a, if f = g then .dropped else .violation) := by
  unfold Authority.acceptFingerprint
  rw [if_neg hopen, hget]
  by_cases heq : f = g
  · rw [if_pos heq]
    exact if_neg (not_not_intro heq)
  · rw [if_neg heq]
    exact if_pos heq

theorem Authority.resume_recorded {f : D} (hcall : Awaits c a m call)
    (hopen : a.state ≠ .closed) (hslot : replaySlot m.kind = some slot)
    (hget : a.fingerprints.get? slot = some f) :
    a.resume c call = (a, if f = c.fingerprint m then .dropped else .violation) := by
  obtain ⟨rfl, -, hfits⟩ := hcall
  cases call with
  | candidate => exact absurd hfits.1 (kind_ne_of_replaySlot hslot)
  | late m slot' allowFirst =>
    cases hslot.symm.trans hfits
    exact Authority.acceptFingerprint_recorded hopen hget allowFirst
  | replay m =>
    cases hslot.symm.trans hfits
    change a.reserveReplaySlot c m slot (c.fingerprint m) =
      (a, if f = c.fingerprint m then .dropped else .violation)
    unfold Authority.reserveReplaySlot
    by_cases hactive : a.state = .active
    · rw [if_neg (not_not_intro hactive), hget]
      dsimp only
      by_cases heq : f = c.fingerprint m
      · rw [if_pos heq, if_pos heq]
      · rw [if_neg heq, if_neg heq]
    · obtain ⟨allowFirst, hcompare⟩ :=
        Authority.acceptLateValidated_compare (c := c) (m := m) hopen hslot
      rw [if_pos hactive, hcompare]
      exact Authority.acceptFingerprint_recorded hopen hget allowFirst

/-- A closed authority drops what it still awaits. -/
theorem Authority.resume_closed (hclosed : a.state = .closed) :
    a.resume c call = (a, .dropped) := by
  have hactive : a.state ≠ .active := by
    rw [hclosed]
    nofun
  cases call with
  | candidate => exact if_pos hactive
  | late => exact if_pos hclosed
  | replay m slot =>
    have hsettled : a.acceptLateValidated c m = .settled true := if_pos hclosed
    change a.reserveReplaySlot c m slot (c.fingerprint m) = _
    unfold Authority.reserveReplaySlot
    rw [if_pos hactive, hsettled]

theorem Knows.resume_repeat (h : Knows c a accepted)
    (hcall : Awaits c a m call) (hm : m ∈ accepted) (hkind : Replayable m.kind) :
    a.resume c call = (a, .dropped) := by
  by_cases hclosed : a.state = .closed
  · exact Authority.resume_closed hclosed
  cases hslot : replaySlot m.kind with
  | some slot =>
    have hget := h.recorded hclosed slot m (mem_filling hm hslot)
    rw [Authority.resume_recorded hcall hclosed hslot hget, if_pos rfl]
  | none =>
    have hcandidate : m.kind = .peerCandidate :=
      hkind.resolve_right fun hsome => by
        rw [hslot] at hsome
        cases hsome
    obtain ⟨rfl, -, hfits⟩ := hcall
    cases call with
    | replay | late => cases hslot.symm.trans hfits
    | candidate m =>
      change a.reserveCandidate (c.fingerprint m) = _
      unfold Authority.reserveCandidate
      by_cases hactive : a.state = .active
      · have hknown := mem_candidatesOf (c := c) hm hcandidate
        rw [h.candidates hactive, hfits.2 hactive] at hknown
        rw [if_neg (not_not_intro hactive)]
        exact if_pos hknown
      · exact if_pos hactive

end Presenting

end Windshare.WebOperation
