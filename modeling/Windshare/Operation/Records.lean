import Windshare.Operation.Invariant

/-!
# The records of continuations

While an operation is active, an open reservation has its uncommitted record in the
direction it was made in, and a committed reservation has its committed record there.
A continuation with a committed record is not reserved again.
-/

namespace Windshare.Operation

open Windshare.Library Windshare.Session

variable {a : Nat} {f : ReserveRule} {next : ContinuationDirection} {committed : Bool}
  {r : Reservation} {state : ContinuationState}

namespace ContinuationDirection

variable {current : ContinuationDirection} {key key' : ContinuationKey} {overflow : Bool}
  {record : ContinuationRecord} {maximum index : Nat}

def Holds (current : ContinuationDirection) (key : ContinuationKey) (overflow : Bool)
    (record : ContinuationRecord) : Prop :=
  if overflow then current.overflow = some (key, record)
  else current.records.get? key = some record

/-- Reserving another continuation leaves a record alone. -/
theorem Holds.reserveActive (h : current.Holds key overflow record) :
    (current.reserveActive maximum key' index).1.Holds key overflow record := by
  unfold ContinuationDirection.reserveActive
  split
  · split <;> exact h
  rename_i hnew
  split
  · exact h
  split
  · split <;> exact h
  rename_i hoverflow
  split
  · cases overflow with
    | true => exact h
    | false =>
      change (current.records.insert key' _).get? key = some record
      rw [FiniteMap.get?_insert, if_neg]
      · exact h
      · rintro rfl
        have hsome : current.records.get? key' = some record := h
        rw [hnew] at hsome
        cases hsome
  · cases overflow with
    | true =>
      have hsome : current.overflow = some (key, record) := h
      rw [hoverflow] at hsome
      cases hsome
    | false => exact h

theorem Holds.reserveReplay (h : current.Holds key overflow record) :
    (current.reserveReplay maximum key' index).1.Holds key overflow record := by
  unfold ContinuationDirection.reserveReplay
  split
  · split <;> exact h
  split
  · exact h
  split
  · split
    · exact h
    split <;> exact h
  · exact h.reserveActive

/-- A new reservation has an uncommitted record. -/
theorem reserveActive_reserved
    (h : current.reserveActive maximum key index = (next, .reserved overflow)) :
    next.Holds key overflow ⟨index, false⟩ := by
  unfold reserveActive at h
  split at h
  · split at h <;> cases h
  split at h
  · cases h
  split at h
  · split at h <;> cases h
  split at h
  · cases h
    exact FiniteMap.get?_insert_self
  · cases h
    rfl

theorem reserveReplay_reserved
    (h : current.reserveReplay maximum key index = (next, .reserved overflow)) :
    next.Holds key overflow ⟨index, false⟩ := by
  unfold reserveReplay at h
  split at h
  · split at h <;> cases h
  split at h
  · cases h
  split at h
  · split at h
    · cases h
    split at h <;> cases h
  · exact reserveActive_reserved h

/-- A continuation with a committed record is neither let through nor reserved. -/
theorem Holds.not_reserved (h : current.Holds key overflow ⟨index, true⟩)
    (maximum record : Nat) :
    (current.reserveActive maximum key record).2 = .repeated ∨
      ∃ e, (current.reserveActive maximum key record).2 = .refused e := by
  unfold ContinuationDirection.reserveActive
  split
  · split
    · exact .inr ⟨_, rfl⟩
    · exact .inl rfl
  rename_i hnew
  split
  · exact .inr ⟨_, rfl⟩
  split
  · split
    · exact .inr ⟨_, rfl⟩
    · exact .inl rfl
  rename_i hoverflow
  cases overflow with
  | true =>
    have hsome : current.overflow = some (key, ⟨index, true⟩) := h
    rw [hoverflow] at hsome
    cases hsome
  | false =>
    have hsome : current.records.get? key = some ⟨index, true⟩ := h
    rw [hnew] at hsome
    cases hsome

theorem holds_clearPending {settled : Nat} :
    (current.clearPending key' settled).Holds key overflow record ↔
      current.Holds key overflow record := by
  unfold clearPending
  split
  · rfl
  · rfl

/-- Committing a reservation commits its record. -/
theorem Holds.commit (h : current.Holds key overflow ⟨index, committed⟩) :
    (current.settle key index overflow true).Holds key overflow ⟨index, true⟩ := by
  unfold settle
  cases overflow with
  | true =>
    have hsome : current.overflow = some (key, ⟨index, committed⟩) := h
    simp only [hsome, if_true, ne_eq, not_true, or_self, if_false]
    exact holds_clearPending.mpr rfl
  | false =>
    have hsome : current.records.get? key = some ⟨index, committed⟩ := h
    simp only [hsome, Bool.false_eq_true, if_false, if_true, ne_eq, not_true]
    exact holds_clearPending.mpr FiniteMap.get?_insert_self

/-- Settling a reservation leaves the records of the others alone. -/
theorem Holds.settle {settledOverflow commit : Bool} (h : current.Holds key overflow record)
    (hne : record.id ≠ index) :
    (current.settle key' index settledOverflow commit).Holds key overflow record := by
  unfold ContinuationDirection.settle
  cases settledOverflow with
  | true =>
    simp only [if_true]
    split
    · rename_i overflowKey r hoverflow
      split
      · exact h
      rename_i hsame
      -- The settled record is the overflow, so the other one is among the records.
      cases overflow with
      | true =>
        have hsome : current.overflow = some (key, record) := h
        rw [hoverflow] at hsome
        cases hsome
        rw [not_or, not_not] at hsame
        exact absurd hsame.1 hne
      | false => split <;> exact holds_clearPending.mpr h
    · exact h
  | false =>
    simp only [Bool.false_eq_true, if_false]
    split
    · rename_i r hr
      split
      · exact h
      rename_i hsame
      cases overflow with
      | true => split <;> exact holds_clearPending.mpr h
      | false =>
        have hsome : current.records.get? key = some record := h
        have hkey : key' ≠ key := by
          rintro rfl
          rw [hr] at hsome
          cases hsome
          exact hsame hne
        split
        · refine holds_clearPending.mpr ?_
          change (current.records.insert key' _).get? key = some record
          rw [FiniteMap.get?_insert, if_neg hkey]
          exact hsome
        · refine holds_clearPending.mpr ?_
          change (current.records.erase key').get? key = some record
          rw [FiniteMap.get?_erase, if_neg hkey]
          exact hsome
    · exact h

end ContinuationDirection

/-- The record a reservation should have: none once it was rolled back. -/
def Reservation.expected (r : Reservation) : Option Bool :=
  match r.settled with
  | none => some false
  | some true => some true
  | some false => none

namespace Table

variable {cfg : Config} {expiry : List Time} {t u : Table}

/-- Authority `a` has `record` for `key` in the given direction. -/
def Recorded (t : Table) (a : Nat) (direction : Direction) (key : ContinuationKey)
    (overflow : Bool) (record : ContinuationRecord) : Prop :=
  ∃ state current, (t.authorityAt a).continuations = some state ∧
    state.directions.get? direction = some current ∧ current.Holds key overflow record

/-- Every reservation of an active operation has the record it should have. -/
structure RecordsOk (t : Table) : Prop where
  lt : ∀ r ∈ t.reservations, r.authority < t.authorities.length
  recorded : ∀ (index : Nat) (r : Reservation), t.reservations[index]? = some r →
    ∀ (id : OperationID) (op : ActiveOperation), t.active.get? id = some op →
      op.authority = r.authority → ∀ committed, r.expected = some committed →
        t.Recorded r.authority r.direction r.key r.overflow ⟨index, committed⟩

theorem RecordsOk.authority_lt (ht : RecordsOk t) {index : Nat}
    (hr : t.reservations[index]? = some r) : r.authority < t.authorities.length :=
  ht.lt r (List.mem_of_getElem? hr)

/-- Records are kept when active operations keep their authorities and these keep their
continuations. -/
theorem RecordsOk.of_same (ht : RecordsOk t) (hreservations : u.reservations = t.reservations)
    (hlength : t.authorities.length ≤ u.authorities.length)
    (hactive : ∀ id op, u.active.get? id = some op → op.authority < t.authorities.length →
      (∃ op', t.active.get? id = some op' ∧ op'.authority = op.authority) ∧
        (u.authorityAt op.authority).continuations =
          (t.authorityAt op.authority).continuations) : RecordsOk u where
  lt r hr := Nat.lt_of_lt_of_le (ht.lt r (hreservations ▸ hr)) hlength
  recorded index r hr id op hop hauthority committed hexpected := by
    rw [hreservations] at hr
    have hlt : op.authority < t.authorities.length := hauthority ▸ ht.authority_lt hr
    obtain ⟨⟨op', hop', hsame⟩, hcontinuations⟩ := hactive id op hop hlt
    have hold := ht.recorded index r hr id op' hop' (hsame.trans hauthority) committed hexpected
    unfold Recorded at hold ⊢
    rw [← hauthority] at hold ⊢
    rw [hcontinuations]
    exact hold

theorem authorityAt_append {authority : Authority}
    (hauthorities : u.authorities = t.authorities ++ [authority])
    (h : a < t.authorities.length) : u.authorityAt a = t.authorityAt a := by
  unfold authorityAt
  rw [hauthorities, List.getElem?_append_left h]

theorem Move.recordsOk_of_same (h : Move cfg expiry t u) (hc : Consistent cfg t)
    (ht : RecordsOk t)
    (hreserve : ∀ a state direction key f, (t.authorityAt a).continuations = some state →
      Reserves f → u = (t.reserveContinuation a state direction key f).1 → RecordsOk u)
    (hsettle : ∀ index commit, u = t.settle index commit → RecordsOk u) : RecordsOk u := by
  cases h with
  | prune | peers | amend id =>
    exact ht.of_same rfl (Nat.le_refl _) fun id op hop _ => ⟨⟨op, hop, rfl⟩, rfl⟩
  | annotate a f hpins hcontinuations =>
    refine ht.of_same rfl (Nat.le_of_eq (List.length_modify ..).symm) fun id op hop _ =>
      ⟨⟨op, hop, rfl⟩, ?_⟩
    exact t.authorityAt_modifyAuthority_of_eq Authority.continuations a _ hcontinuations
  | begin id op authority hterminal hactive htombstone hroom htracked hauthority =>
    refine ht.of_same rfl (by simp) fun id' op' hop' hlt => ⟨?_, ?_⟩
    · rw [FiniteMap.get?_insert] at hop'
      split at hop'
      · -- The new operation has a new authority.
        cases hop'
        exact absurd hauthority (Nat.ne_of_lt hlt)
      · exact ⟨op', hop', rfl⟩
    · rw [authorityAt_append rfl hlt]
  | preempt =>
    refine ht.of_same rfl (by simp) fun id' op' hop' hlt => ⟨⟨op', hop', rfl⟩, ?_⟩
    rw [authorityAt_append rfl hlt]
  | finish id op tombstone hop =>
    have hclear := framed_clearContinuationReplay
      { t with
        active := t.active.erase id
        tombstones := t.tombstones.insert id tombstone } op.authority
    refine ht.of_same rfl (Nat.le_of_eq hclear.length.symm) fun id' op' hop' hlt => ?_
    have herase : (t.active.erase id).get? id' = some op' := hop'
    rw [FiniteMap.get?_erase] at herase
    split at herase
    · cases herase
    rename_i hid
    refine ⟨⟨op', herase, rfl⟩, ?_⟩
    have hne : op.authority ≠ op'.authority := fun heq =>
      hid (hc.owners.unique id id' op'.authority (.inl ⟨op, hop, heq⟩) (.inl ⟨op', herase, rfl⟩))
    unfold clearContinuationReplay
    rw [authorityAt_modifyAuthority, if_neg fun h => hne h.1]
    rfl
  | answer id op digest hop =>
    refine ht.of_same rfl (Nat.le_refl _) fun id' op' hop' _ => ⟨?_, rfl⟩
    rw [FiniteMap.get?_insert] at hop'
    split at hop'
    · rename_i hid
      cases hop'
      exact ⟨op, hid ▸ hop, rfl⟩
    · exact ⟨op', hop', rfl⟩
  | bind id tombstone htombstone =>
    refine ht.of_same rfl (Nat.le_of_eq (List.length_modify ..).symm) fun id' op' hop' _ =>
      ⟨⟨op', hop', rfl⟩, ?_⟩
    -- The tombstone's authority belongs to no active operation.
    have hne : tombstone.authority ≠ op'.authority := by
      intro heq
      obtain rfl := hc.owners.unique id id' op'.authority (.inr ⟨tombstone, htombstone, heq⟩)
        (.inl ⟨op', hop', rfl⟩)
      have hnone := hc.maps.disjoint id op' hop'
      rw [htombstone] at hnone
      cases hnone
    rw [authorityAt_modifyAuthority, if_neg fun h => hne h.1]
  | reserve a state hstate direction key f hf =>
    exact hreserve a state direction key f hstate hf rfl
  | settle index commit => exact hsettle index commit rfl
  | pin id a =>
    refine ht.of_same rfl (Nat.le_of_eq (List.length_modify ..).symm) fun id' op' hop' _ =>
      ⟨⟨op', hop', rfl⟩, ?_⟩
    exact t.authorityAt_modifyAuthority_of_eq Authority.continuations a _ fun _ => rfl

/-! ### Reserving -/

theorem lt_of_continuations
    (h : (t.authorityAt a).continuations = some state) : a < t.authorities.length := by
  by_contra hle
  unfold authorityAt at h
  rw [List.getElem?_eq_none (Nat.not_lt.mp hle)] at h
  cases h

theorem setDirection_continuations (h : a < t.authorities.length)
    (state : ContinuationState) (direction : Direction) (current : ContinuationDirection)
    (b : Nat) :
    ((t.setDirection a state direction current).authorityAt b).continuations =
      if a = b then
        some { state with directions := state.directions.insert direction current }
      else (t.authorityAt b).continuations := by
  unfold setDirection
  rw [authorityAt_modifyAuthority]
  by_cases hab : a = b
  · subst hab
    simp [h]
  · simp [hab]

theorem reserveContinuation_eq (t : Table) (a : Nat) (state : ContinuationState)
    (direction : Direction) (key : ContinuationKey) (f : ReserveRule) :
    (t.reserveContinuation a state direction key f).1.authorities =
        (t.setDirection a state direction
          (f (state.direction direction) state.contract.maximum key
            t.reservations.length).1).authorities ∧
      ((t.reserveContinuation a state direction key f).1.reservations = t.reservations ∨
        ∃ overflow, (f (state.direction direction) state.contract.maximum key
            t.reservations.length).2 = .reserved overflow ∧
          (t.reserveContinuation a state direction key f).1.reservations =
            t.reservations ++ [{ authority := a, direction, key, overflow, settled := none }]) := by
  unfold reserveContinuation
  dsimp only
  split
  · exact ⟨rfl, .inl rfl⟩
  · exact ⟨rfl, .inl rfl⟩
  · exact ⟨rfl, .inl rfl⟩
  · rename_i overflow heq
    exact ⟨rfl, .inr ⟨overflow, heq, rfl⟩⟩

theorem Reserves.holds (hf : Reserves f) {current : ContinuationDirection}
    {key key' : ContinuationKey} {overflow : Bool} {record : ContinuationRecord}
    (h : current.Holds key overflow record) (maximum index : Nat) :
    (f current maximum key' index).1.Holds key overflow record := by
  obtain rfl | rfl := hf
  · exact h.reserveActive
  · exact h.reserveReplay

theorem Reserves.reserved (hf : Reserves f) {current : ContinuationDirection}
    {key : ContinuationKey} {overflow : Bool} {maximum index : Nat}
    (h : (f current maximum key index).2 = .reserved overflow) :
    (f current maximum key index).1.Holds key overflow ⟨index, false⟩ := by
  obtain rfl | rfl := hf
  · exact ContinuationDirection.reserveActive_reserved (Prod.ext rfl h)
  · exact ContinuationDirection.reserveReplay_reserved (Prod.ext rfl h)

theorem RecordsOk.reserve (ht : RecordsOk t)
    (hstate : (t.authorityAt a).continuations = some state) (direction : Direction)
    (key : ContinuationKey) (hf : Reserves f) :
    RecordsOk (t.reserveContinuation a state direction key f).1 := by
  have hframed := framed_reserveContinuation t a state direction key f
  have hlt := lt_of_continuations hstate
  obtain ⟨hauthorities, hreservations⟩ := reserveContinuation_eq t a state direction key f
  generalize houtcome : f (state.direction direction) state.contract.maximum key
    t.reservations.length = outcome at hauthorities hreservations
  generalize (t.reserveContinuation a state direction key f).1 = u at *
  have hcontinuations (b : Nat) : (u.authorityAt b).continuations = if a = b then
      some { state with directions := state.directions.insert direction outcome.1 }
      else (t.authorityAt b).continuations := by
    rw [← setDirection_continuations hlt]
    unfold authorityAt
    rw [hauthorities]
  have hkeep {b : Nat} {d : Direction} {k : ContinuationKey} {overflow : Bool}
      {record : ContinuationRecord} (h : t.Recorded b d k overflow record) :
      u.Recorded b d k overflow record := by
    obtain ⟨state', current, hstate', hcurrent, hholds⟩ := h
    by_cases hab : a = b
    · subst hab
      obtain rfl : state' = state := Option.some.inj (hstate'.symm.trans hstate)
      refine ⟨_, if direction = d then outcome.1 else current, by rw [hcontinuations, if_pos rfl],
        ?_, ?_⟩
      · rw [FiniteMap.get?_insert, hcurrent]
        split <;> rfl
      · split
        · rename_i hd
          subst hd
          have hdirection : state'.direction direction = current := by
            simp [ContinuationState.direction, hcurrent]
          rw [← houtcome, hdirection]
          exact hf.holds hholds _ _
        · exact hholds
    · refine ⟨state', current, ?_, hcurrent, hholds⟩
      rw [hcontinuations, if_neg hab]
      exact hstate'
  obtain hsame | ⟨overflow, hreserved, hnew⟩ := hreservations
  · refine ⟨fun r hr => ?_, fun index r hr id op hop hauthority committed hexpected => ?_⟩
    · rw [hframed.length]
      exact ht.lt r (hsame ▸ hr)
    · rw [hsame] at hr
      rw [hframed.active] at hop
      exact hkeep (ht.recorded index r hr id op hop hauthority committed hexpected)
  · refine ⟨fun r hr => ?_, fun index r hr id op hop hauthority committed hexpected => ?_⟩
    · rw [hframed.length]
      rw [hnew] at hr
      obtain hr | hr := List.mem_append.mp hr
      · exact ht.lt r hr
      · obtain rfl := List.mem_singleton.mp hr
        exact hlt
    · rw [hnew] at hr
      rw [hframed.active] at hop
      by_cases hindex : index < t.reservations.length
      · rw [List.getElem?_append_left hindex] at hr
        exact hkeep (ht.recorded index r hr id op hop hauthority committed hexpected)
      · have hlength := (List.getElem?_eq_some_iff.mp hr).1
        obtain rfl : index = t.reservations.length := by simp at hlength; omega
        rw [List.getElem?_concat_length] at hr
        cases hr
        cases hexpected
        refine ⟨_, outcome.1, by rw [hcontinuations, if_pos rfl], FiniteMap.get?_insert_self, ?_⟩
        rw [← houtcome] at hreserved ⊢
        exact hf.reserved hreserved

/-! ### Settling -/

theorem Recorded.settleDirection {direction : Direction} {key : ContinuationKey}
    {overflow : Bool} {record : ContinuationRecord} (h : t.Recorded a direction key overflow record)
    (index : Nat) (r : Reservation) (commit : Bool)
    (hsettle : ∀ current : ContinuationDirection, current.Holds key overflow record →
      a = r.authority → direction = r.direction →
        (current.settle r.key index r.overflow commit).Holds key overflow record) :
    (t.settleDirection index r commit).Recorded a direction key overflow record := by
  obtain ⟨state, current, hstate, hcurrent, hholds⟩ := h
  have hlt := lt_of_continuations hstate
  unfold Recorded Table.settleDirection
  rw [authorityAt_modifyAuthority]
  by_cases ha : r.authority = a
  · rw [if_pos ⟨ha, hlt⟩, hstate]
    refine ⟨_, if r.direction = direction then current.settle r.key index r.overflow commit
      else current, rfl, ?_, ?_⟩
    · dsimp only
      cases hr : state.directions.get? r.direction with
      | none =>
        have hd : r.direction ≠ direction := by
          rintro rfl
          rw [hcurrent] at hr
          cases hr
        rw [if_neg hd]
        exact hcurrent
      | some =>
        rw [FiniteMap.get?_insert]
        split
        · rename_i hd
          rw [hd, hcurrent] at hr
          cases hr
          rfl
        · exact hcurrent
    · split
      · rename_i hd
        exact hsettle current hholds ha.symm hd.symm
      · exact hholds
  · rw [if_neg fun h => ha h.1]
    exact ⟨state, current, hstate, hcurrent, hholds⟩

theorem Recorded.commit {index : Nat}
    (h : t.Recorded r.authority r.direction r.key r.overflow ⟨index, committed⟩) :
    (t.settleDirection index r true).Recorded r.authority r.direction r.key r.overflow
      ⟨index, true⟩ := by
  obtain ⟨state, current, hstate, hcurrent, hholds⟩ := h
  refine ⟨{ state with
    directions := state.directions.insert r.direction
      (current.settle r.key index r.overflow true) }, _, ?_, FiniteMap.get?_insert_self,
    hholds.commit⟩
  unfold Table.settleDirection
  rw [authorityAt_modifyAuthority, if_pos ⟨rfl, lt_of_continuations hstate⟩, hstate]
  simp [hcurrent]

theorem RecordsOk.settle (ht : RecordsOk t) (index : Nat) (commit : Bool) :
    RecordsOk (t.settle index commit) := by
  unfold Table.settle
  split
  · exact ht
  rename_i r hr
  split
  · exact ht
  rename_i hopen
  have hframed := framed_settleDirection t index r commit
  have hsettled : r.settled = none := by simpa using hopen
  refine ⟨fun r' hr' => ?_, fun index' r' hr' id op hop hauthority committed hexpected => ?_⟩
  · rw [hframed.length]
    obtain hr' | rfl := List.mem_or_eq_of_mem_set hr'
    · exact ht.lt r' hr'
    · have hlt := ht.authority_lt hr
      exact hlt
  · change (t.reservations.set index { r with settled := some commit })[index']? = some r' at hr'
    by_cases hindex : index = index'
    · subst hindex
      have hlt := (List.getElem?_eq_some_iff.mp hr).1
      rw [List.getElem?_set_self hlt] at hr'
      cases hr'
      cases commit with
      | false => cases hexpected
      | true =>
        cases hexpected
        -- The open reservation had an uncommitted record, which is committed now.
        have hrecorded := ht.recorded index r hr id op hop hauthority false
          (by simp [Reservation.expected, hsettled])
        exact hrecorded.commit
    · rw [List.getElem?_set_ne hindex] at hr'
      refine (ht.recorded index' r' hr' id op hop hauthority committed hexpected).settleDirection
        index r commit fun current hholds _ _ => hholds.settle ?_
      exact fun h => hindex h.symm

/-! ### Every reachable table -/

theorem Move.recordsOk (h : Move cfg expiry t u) (hc : Consistent cfg t) (ht : RecordsOk t) :
    RecordsOk u := by
  refine h.recordsOk_of_same hc ht ?_ ?_
  · rintro a state direction key f hstate hf rfl
    exact ht.reserve hstate direction key hf
  · rintro index commit rfl
    exact ht.settle index commit

theorem RecordsOk.unpin (ht : RecordsOk t) (index : Nat) (p : Pin) :
    RecordsOk (t.unpin index p) := by
  refine ht.of_same rfl (Nat.le_of_eq (List.length_modify ..).symm) fun id op hop _ =>
    ⟨⟨op, hop, rfl⟩, ?_⟩
  exact t.authorityAt_modifyAuthority_of_eq Authority.continuations p.authority _ fun _ => rfl

theorem Moves.recordsOk (h : Moves cfg expiry t u) (hc : Consistent cfg t) (ht : RecordsOk t) :
    RecordsOk u := by
  have hboth : Consistent cfg u ∧ RecordsOk u := by
    refine h.stable (P := fun v => Consistent cfg v ∧ RecordsOk v) ⟨hc, ht⟩ ?_
    intro v w hv hmove
    exact ⟨hmove.consistent hv.1, hmove.recordsOk hv.1 hv.2⟩
  exact hboth.2

theorem Effect.recordsOk (h : Effect cfg expiry t u) (hc : Consistent cfg t)
    (ht : RecordsOk t) : RecordsOk u := by
  cases h with
  | moves h => exact h.recordsOk hc ht
  | release h => exact (h.recordsOk hc ht).unpin _ _
  | terminate h =>
    exact (h.recordsOk hc ht).of_same rfl (Nat.le_refl _) fun id op hop _ => by cases hop

theorem reachable_recordsOk (h : (system cfg).Reachable t) : RecordsOk t := by
  have hboth : Consistent cfg t ∧ RecordsOk t := by
    refine h.invariant (P := fun v => Consistent cfg v ∧ RecordsOk v) ?_ ?_
    · rintro t rfl
      refine ⟨new_consistent cfg, ⟨fun r hr => ?_, fun index r hr => ?_⟩⟩
      · exact absurd hr List.not_mem_nil
      · cases hr
    · rintro t c u ht rfl
      exact ⟨(call_effect cfg t c).consistent ht.1, (call_effect cfg t c).recordsOk ht.1 ht.2⟩
  exact hboth.2

end Table

end Windshare.Operation
