import Windshare.Operation.Effects

/-!
# The invariants of the operation table

In every reachable table the two maps share no identity and stay within their
limits, an authority belongs to one identity, and the pin counter of an authority is
the number of its pins that are still held. A tombstone leaves the table only by
expiring without pins or with the session.
-/

namespace Windshare.Operation

open Windshare.Library Windshare.Session

namespace Table

/-- The pins of an authority that are still held. -/
def livePins (t : Table) (a : Nat) : Nat :=
  t.pins.countP fun p => p.authority == a && !p.released

/-- What holds of the two maps. -/
structure MapsOk (cfg : Config) (t : Table) : Prop where
  disjoint : ∀ id op, t.active.get? id = some op → t.tombstones.get? id = none
  active_le : t.active.size ≤ cfg.limits.maxActive
  tracked_le : t.active.size + t.tombstones.size ≤ cfg.limits.maxTracked
  terminal_empty : t.terminal → t.active = .empty ∧ t.tombstones = .empty

/-- What holds of the authorities of the entries. -/
structure OwnersOk (t : Table) : Prop where
  lt : ∀ id a, t.Owns id a → a < t.authorities.length
  unique : ∀ id id' a, t.Owns id a → t.Owns id' a → id = id'

/-- What holds of the pins. -/
structure PinsOk (t : Table) : Prop where
  lt : ∀ p ∈ t.pins, p.authority < t.authorities.length
  counter : ∀ a, a < t.authorities.length → (t.authorityAt a).pins.toNat = t.livePins a

/-- The invariant of the table. -/
structure Consistent (cfg : Config) (t : Table) : Prop where
  maps : MapsOk cfg t
  owners : OwnersOk t
  pins : PinsOk t

variable {cfg : Config} {expiry : List Time} {t u : Table}

/-! ### Moves of the contents of authorities -/

theorem framed_settleDirection (t : Table) (index : Nat) (r : Reservation) (commit : Bool) :
    Framed t (t.settleDirection index r commit) := framed_modifyAuthority t r.authority fun _ => rfl

theorem framed_settle (t : Table) (index : Nat) (commit : Bool) :
    Framed t (t.settle index commit) := by
  unfold settle
  split
  · exact .refl t
  split
  · exact .refl t
  · have hframed := framed_settleDirection t index
    exact ⟨rfl, rfl, rfl, rfl, (hframed _ _).length, (hframed _ _).counter⟩

theorem Framed.mapsOk (h : Framed t u) (ht : MapsOk cfg t) : MapsOk cfg u where
  disjoint := by
    rw [h.active, h.tombstones]
    exact ht.disjoint
  active_le := by
    rw [h.active]
    exact ht.active_le
  tracked_le := by
    rw [h.active, h.tombstones]
    exact ht.tracked_le
  terminal_empty := by
    rw [h.active, h.tombstones, h.terminal]
    exact ht.terminal_empty

theorem Framed.owns (h : Framed t u) (id : OperationID) (a : Nat) : u.Owns id a ↔ t.Owns id a := by
  unfold Owns
  rw [h.active, h.tombstones]

theorem Framed.pinsOk (h : Framed t u) (ht : PinsOk t) : PinsOk u where
  lt := by
    rw [h.pins, h.length]
    exact ht.lt
  counter a ha := by
    rw [h.counter, livePins, h.pins]
    exact ht.counter a (h.length ▸ ha)

/-! ### The maps -/

theorem MapsOk.not_terminal {id : OperationID} {a : Nat} (ht : MapsOk cfg t)
    (h : t.Owns id a) : t.terminal = false := by
  by_contra hterminal
  obtain ⟨hactive, htombstones⟩ := ht.terminal_empty (by simpa using hterminal)
  obtain ⟨op, hop, -⟩ | ⟨tombstone, htombstone, -⟩ := h
  · rw [hactive] at hop
    cases hop
  · rw [htombstones] at htombstone
    cases htombstone

theorem Move.mapsOk (h : Move cfg expiry t u) (ht : MapsOk cfg t) : MapsOk cfg u := by
  cases h with
  | prune now =>
    have hle := t.tombstones.size_filter_le fun _ tombstone =>
      !(tombstone.expiresAt ≤ now && (t.authorityAt tombstone.authority).pins == 0)
    refine ⟨fun id op hop => ?_, ht.active_le, ?_, fun hterminal => ?_⟩
    · simp [pruneExpired, FiniteMap.get?_filter, ht.disjoint id op hop]
    · exact Nat.le_trans (Nat.add_le_add_left hle _) ht.tracked_le
    · obtain ⟨hactive, htombstones⟩ := ht.terminal_empty hterminal
      refine ⟨hactive, ?_⟩
      unfold pruneExpired
      rw [htombstones]
      rfl
  | peers => exact ⟨ht.disjoint, ht.active_le, ht.tracked_le, ht.terminal_empty⟩
  | annotate a f hpins => exact (framed_modifyAuthority t a hpins).mapsOk ht
  | begin id op authority hterminal hactive htombstone hroom =>
    have hsize : (t.active.insert id op).size = t.active.size + 1 :=
      FiniteMap.size_insert_of_none hactive
    refine ⟨fun id' op' hop => ?_, ?_, ?_, fun h => ?_⟩
    · grind [ht.disjoint]
    · exact hsize ▸ hroom
    · dsimp only
      omega
    · rw [hterminal] at h
      cases h
  | preempt id tombstone hterminal hactive htombstone =>
    have hsize : (t.tombstones.insert id tombstone).size = t.tombstones.size + 1 :=
      FiniteMap.size_insert_of_none htombstone
    refine ⟨fun id' op' hop => ?_, ht.active_le, ?_, fun h => ?_⟩
    · grind [ht.disjoint]
    · dsimp only
      omega
    · rw [hterminal] at h
      cases h
  | finish id op tombstone hop htombstone =>
    refine (framed_clearContinuationReplay _ op.authority).mapsOk ?_
    have hactive : (t.active.erase id).size + 1 = t.active.size :=
      FiniteMap.size_erase_of_some hop
    have htombstones : (t.tombstones.insert id tombstone).size = t.tombstones.size + 1 :=
      FiniteMap.size_insert_of_none htombstone
    have hle := ht.active_le
    have htracked := ht.tracked_le
    refine ⟨fun id' op' hop' => ?_, ?_, ?_, fun h => ?_⟩
    · grind [ht.disjoint]
    · dsimp only
      omega
    · dsimp only
      omega
    · rw [ht.not_terminal (.inl ⟨op, hop, rfl⟩)] at h
      cases h
  | answer id op digest hop =>
    have hsize (op' : ActiveOperation) : (t.active.insert id op').size = t.active.size :=
      FiniteMap.size_insert_of_some hop
    refine ⟨fun id' op' hop' => ?_, ?_, ?_, fun h => ?_⟩
    · grind [ht.disjoint]
    · exact (hsize _).symm ▸ ht.active_le
    · exact (hsize _).symm ▸ ht.tracked_le
    · rw [ht.not_terminal (.inl ⟨op, hop, rfl⟩)] at h
      cases h
  | amend id tombstone amended htombstone =>
    have hsize : (t.tombstones.insert id amended).size = t.tombstones.size :=
      FiniteMap.size_insert_of_some htombstone
    refine ⟨fun id' op' hop' => ?_, ht.active_le, ?_, fun h => ?_⟩
    · grind [ht.disjoint]
    · exact hsize.symm ▸ ht.tracked_le
    · rw [ht.not_terminal (.inr ⟨tombstone, htombstone, rfl⟩)] at h
      cases h
  | bind id tombstone =>
    refine (framed_modifyAuthority t tombstone.authority ?_).mapsOk ht
    exact fun _ => rfl
  | reserve a state hstate direction key f =>
    exact (framed_reserveContinuation t a state direction key f).mapsOk ht
  | settle index commit => exact (framed_settle t index commit).mapsOk ht
  | pin =>
    exact ⟨ht.disjoint, ht.active_le, ht.tracked_le, ht.terminal_empty⟩

theorem MapsOk.terminate (cfg : Config) (t : Table) : MapsOk cfg t.terminate :=
  ⟨fun _ _ _ => rfl, Nat.zero_le _, Nat.zero_le _, fun _ => ⟨rfl, rfl⟩⟩

/-- No move ends the session or begins it again. -/
theorem Move.terminal_eq (h : Move cfg expiry t u) : u.terminal = t.terminal := by
  cases h with
  | reserve a state hstate direction key f =>
    exact (framed_reserveContinuation t a state direction key f).terminal
  | settle index commit => exact (framed_settle t index commit).terminal
  | _ => rfl

theorem Moves.terminal_eq (h : Moves cfg expiry t u) : u.terminal = t.terminal :=
  h.stable (P := fun v => v.terminal = t.terminal) rfl
    fun _ _ hv hmove => hmove.terminal_eq.trans hv

/-! ### Owners -/

/-- A move gives at most one identity an authority it did not have, and that authority
is new. -/
theorem Move.owns (h : Move cfg expiry t u) :
    t.authorities.length ≤ u.authorities.length ∧
      ∃ fresh : Option OperationID, ∀ id a, u.Owns id a → t.Owns id a ∨
        fresh = some id ∧ a = t.authorities.length ∧
          t.authorities.length < u.authorities.length := by
  have hframed (hu : Framed t u) : t.authorities.length ≤ u.authorities.length ∧
      ∃ fresh : Option OperationID, ∀ id a, u.Owns id a → t.Owns id a ∨
        fresh = some id ∧ a = t.authorities.length ∧ t.authorities.length < u.authorities.length :=
    ⟨Nat.le_of_eq hu.length.symm, none, fun id a ha => .inl ((hu.owns id a).mp ha)⟩
  cases h with
  | prune =>
    refine ⟨Nat.le_refl _, none, fun id a ha => .inl ?_⟩
    obtain hactive | ⟨tombstone, htombstone, ha⟩ := ha
    · exact .inl hactive
    · rw [pruneExpired, FiniteMap.get?_filter] at htombstone
      exact .inr ⟨tombstone, (Option.filter_eq_some_iff.mp htombstone).1, ha⟩
  | peers => exact ⟨Nat.le_refl _, none, fun id a ha => .inl ha⟩
  | annotate a f hpins => exact hframed (framed_modifyAuthority t a hpins)
  | begin id =>
    refine ⟨by simp, some id, fun id' a ha => ?_⟩
    obtain ⟨op', hop', ha⟩ | hretired := ha
    · rw [FiniteMap.get?_insert] at hop'
      split at hop'
      · grind
      · exact .inl (.inl ⟨op', hop', ha⟩)
    · exact .inl (.inr hretired)
  | preempt id tombstone hterminal hactive =>
    refine ⟨by simp, some id, fun id' a ha => ?_⟩
    obtain hactive | ⟨tombstone', htombstone', ha⟩ := ha
    · exact .inl (.inl hactive)
    · rw [FiniteMap.get?_insert] at htombstone'
      split at htombstone'
      · grind
      · exact .inl (.inr ⟨tombstone', htombstone', ha⟩)
  | finish id op tombstone hop htombstone hauthority =>
    have hclear := framed_clearContinuationReplay
      { t with
        active := t.active.erase id
        tombstones := t.tombstones.insert id tombstone } op.authority
    refine ⟨Nat.le_of_eq hclear.length.symm, none, fun id' a ha => .inl ?_⟩
    obtain ⟨op', hop', ha⟩ | ⟨tombstone', htombstone', ha⟩ := (hclear.owns id' a).mp ha
    · refine .inl ?_
      grind
    · rw [FiniteMap.get?_insert] at htombstone'
      split at htombstone'
      · refine .inl ?_
        grind [hauthority.symm]
      · exact .inr ⟨tombstone', htombstone', ha⟩
  | answer =>
    refine ⟨Nat.le_refl _, none, fun id' a ha => .inl ?_⟩
    obtain ⟨op', hop', ha⟩ | hretired := ha
    · refine .inl ?_
      grind
    · exact .inr hretired
  | amend id tombstone amended htombstone hauthority =>
    refine ⟨Nat.le_refl _, none, fun id' a ha => .inl ?_⟩
    obtain hactive | ⟨tombstone', htombstone', ha⟩ := ha
    · exact .inl hactive
    · rw [FiniteMap.get?_insert] at htombstone'
      split at htombstone'
      · rename_i hid
        cases htombstone'
        exact .inr ⟨tombstone, hid ▸ htombstone, hauthority.symm.trans ha⟩
      · exact .inr ⟨tombstone', htombstone', ha⟩
  | bind id tombstone =>
    refine hframed (framed_modifyAuthority t tombstone.authority ?_)
    exact fun _ => rfl
  | reserve a state hstate direction key f =>
    exact hframed (framed_reserveContinuation t a state direction key f)
  | settle index commit => exact hframed (framed_settle t index commit)
  | pin id a =>
    refine ⟨Nat.le_of_eq ?_, none, fun id a ha => .inl ha⟩
    exact (List.length_modify ..).symm

theorem Move.ownersOk (h : Move cfg expiry t u) (ht : OwnersOk t) : OwnersOk u := by
  obtain ⟨hlength, fresh, howns⟩ := h.owns
  refine ⟨fun id a ha => ?_, fun id id' a ha ha' => ?_⟩
  · obtain hold | ⟨-, rfl, hlt⟩ := howns id a ha
    · exact Nat.lt_of_lt_of_le (ht.lt id a hold) hlength
    · exact hlt
  · obtain hold | ⟨hid, heq, -⟩ := howns id a ha <;>
      obtain hold' | ⟨hid', heq', -⟩ := howns id' a ha'
    · exact ht.unique id id' a hold hold'
    · exact absurd (ht.lt id a hold) (heq' ▸ Nat.lt_irrefl _)
    · exact absurd (ht.lt id' a hold') (heq ▸ Nat.lt_irrefl _)
    · exact Option.some.inj (hid.symm.trans hid')

theorem not_owns_of_empty (hactive : t.active = .empty) (htombstones : t.tombstones = .empty)
    (id : OperationID) (a : Nat) : ¬ t.Owns id a := by
  rintro (⟨op, hop, -⟩ | ⟨tombstone, htombstone, -⟩)
  · rw [hactive] at hop
    cases hop
  · rw [htombstones] at htombstone
    cases htombstone

/-- A table that tracks nothing has no owners to get wrong. -/
theorem OwnersOk.of_empty (hactive : t.active = .empty) (htombstones : t.tombstones = .empty) :
    OwnersOk t := by
  have hnone := not_owns_of_empty hactive htombstones
  exact ⟨fun id a ha => (hnone id a ha).elim, fun id _ a ha _ => (hnone id a ha).elim⟩

/-! ### Pins -/

/-- A new authority without pins has none, and the others keep theirs. -/
theorem PinsOk.append (ht : PinsOk t) (hpins : u.pins = t.pins) {authority : Authority}
    (hauthorities : u.authorities = t.authorities ++ [authority]) (hnew : authority.pins = 0) :
    PinsOk u := by
  have hlength : u.authorities.length = t.authorities.length + 1 := by
    rw [hauthorities, List.length_append, List.length_singleton]
  refine ⟨fun p hp => ?_, fun a ha => ?_⟩
  · have := ht.lt p (hpins ▸ hp)
    omega
  · rw [livePins, hpins, authorityAt, hauthorities]
    by_cases hlt : a < t.authorities.length
    · rw [List.getElem?_append_left hlt]
      exact ht.counter a hlt
    · obtain rfl : a = t.authorities.length := by omega
      rw [List.getElem?_concat_length, Option.getD_some, hnew, eq_comm]
      refine List.countP_eq_zero.mpr fun p hp => ?_
      have hne := Nat.ne_of_lt (ht.lt p hp)
      simp [hne]

theorem PinsOk.pin (ht : PinsOk t) {a : Nat} (ha : a < t.authorities.length)
    (hroom : (t.authorityAt a).pins < maximumOperationPins) (id : OperationID) (refresh : Bool) :
    PinsOk (t.pin id a refresh) := by
  have hlength : (t.pin id a refresh).authorities.length = t.authorities.length :=
    List.length_modify ..
  refine ⟨fun p hp => ?_, fun b hb => ?_⟩
  · rw [hlength]
    obtain hp | hp := List.mem_append.mp hp
    · exact ht.lt p hp
    · obtain rfl := List.mem_singleton.mp hp
      exact ha
  · rw [hlength] at hb
    have hcounter : ((t.pin id a refresh).authorityAt b).pins =
        if a = b then (t.authorityAt b).pins + 1 else (t.authorityAt b).pins := by
      change ((t.modifyAuthority a _).authorityAt b).pins = _
      rw [authorityAt_modifyAuthority]
      by_cases hab : a = b <;> simp [hab, hb]
    have hlive : (t.pin id a refresh).livePins b = t.livePins b + if a = b then 1 else 0 := by
      unfold livePins Table.pin
      rw [List.countP_append]
      by_cases hab : a = b <;> simp [hab, modifyAuthority]
    rw [hcounter, hlive, ← ht.counter b hb]
    split
    · rename_i hab
      rw [hab] at hroom
      have hlt := UInt32.lt_iff_toNat_lt.mp hroom
      have hmax : maximumOperationPins.toNat = 20496 := rfl
      rw [UInt32.toNat_add, UInt32.toNat_one]
      omega
    · rfl

theorem PinsOk.unpin (ht : PinsOk t) {index : Nat} {p : Pin} (hpin : t.pins[index]? = some p)
    (hheld : p.released = false) : PinsOk (t.unpin index p) := by
  have hlength : (t.unpin index p).authorities.length = t.authorities.length :=
    List.length_modify ..
  obtain ⟨hindex, hget⟩ := List.getElem?_eq_some_iff.mp hpin
  refine ⟨fun q hq => ?_, fun b hb => ?_⟩
  · rw [hlength]
    obtain hq | rfl := List.mem_or_eq_of_mem_set hq
    · exact ht.lt q hq
    · exact ht.lt p (hget ▸ List.getElem_mem hindex)
  · rw [hlength] at hb
    have hcounter : ((t.unpin index p).authorityAt b).pins =
        if p.authority = b ∧ (t.authorityAt b).pins > 0 then (t.authorityAt b).pins - 1
        else (t.authorityAt b).pins := by
      change ((t.modifyAuthority p.authority _).authorityAt b).pins = _
      rw [authorityAt_modifyAuthority]
      by_cases hab : p.authority = b <;> simp [hab, hb]
    have hlive : (t.unpin index p).livePins b =
        t.livePins b - if p.authority = b then 1 else 0 := by
      unfold livePins Table.unpin
      rw [List.countP_set hindex, hget]
      simp [hheld]
    rw [hcounter, hlive]
    by_cases hab : p.authority = b
    · -- The pin itself is counted, so the counter is not zero.
      have hpos : 0 < t.livePins b := by
        refine List.countP_pos_iff.mpr ⟨p, hget ▸ List.getElem_mem hindex, ?_⟩
        simp [hab, hheld]
      have hnat := ht.counter b hb
      have hgt : (t.authorityAt b).pins > 0 := by
        rw [gt_iff_lt, UInt32.lt_iff_toNat_lt]
        exact hnat.symm ▸ hpos
      have hone : (1 : UInt32) ≤ (t.authorityAt b).pins := by
        rw [UInt32.le_iff_toNat_le]
        exact hnat.symm ▸ hpos
      rw [if_pos ⟨hab, hgt⟩, if_pos hab, UInt32.toNat_sub_of_le _ _ hone, hnat]
      rfl
    · rw [if_neg (fun h => hab h.1), if_neg hab]
      exact ht.counter b hb

theorem Move.pinsOk (h : Move cfg expiry t u) (howners : OwnersOk t) (ht : PinsOk t) :
    PinsOk u := by
  cases h with
  | prune | peers | answer => exact ⟨ht.lt, ht.counter⟩
  | annotate a f hpins => exact (framed_modifyAuthority t a hpins).pinsOk ht
  | begin id op authority hterminal hactive htombstone hroom htracked hauthority hpins =>
    exact ht.append rfl rfl hpins
  | preempt =>
    exact ht.append rfl rfl rfl
  | finish id op =>
    exact (framed_clearContinuationReplay _ op.authority).pinsOk ⟨ht.lt, ht.counter⟩
  | amend =>
    exact ⟨ht.lt, ht.counter⟩
  | bind id tombstone =>
    refine (framed_modifyAuthority t tombstone.authority ?_).pinsOk ht
    exact fun _ => rfl
  | reserve a state hstate direction key f =>
    exact (framed_reserveContinuation t a state direction key f).pinsOk ht
  | settle index commit => exact (framed_settle t index commit).pinsOk ht
  | pin id a refresh howner hpins => exact ht.pin (howners.lt id a howner) hpins id refresh

/-! ### Whole calls -/

theorem Move.consistent (h : Move cfg expiry t u) (ht : Consistent cfg t) : Consistent cfg u :=
  ⟨h.mapsOk ht.maps, h.ownersOk ht.owners, h.pinsOk ht.owners ht.pins⟩

theorem Moves.consistent (h : Moves cfg expiry t u) (ht : Consistent cfg t) :
    Consistent cfg u := h.stable ht fun _ _ ht hmove => hmove.consistent ht

theorem Effect.consistent (h : Effect cfg expiry t u) (ht : Consistent cfg t) :
    Consistent cfg u := by
  cases h with
  | moves h => exact h.consistent ht
  | release h hpin hheld =>
    have hu := h.consistent ht
    refine ⟨⟨hu.maps.disjoint, hu.maps.active_le, hu.maps.tracked_le, hu.maps.terminal_empty⟩,
      ⟨fun id a ha => ?_, hu.owners.unique⟩, hu.pins.unpin hpin hheld⟩
    exact Nat.lt_of_lt_of_eq (hu.owners.lt id a ha) (List.length_modify ..).symm
  | terminate h =>
    have hu := h.consistent ht
    exact ⟨.terminate cfg _, .of_empty rfl rfl, ⟨hu.pins.lt, hu.pins.counter⟩⟩

theorem new_consistent (cfg : Config) : Consistent cfg new where
  maps := ⟨fun _ _ _ => rfl, Nat.zero_le _, Nat.zero_le _, fun h => absurd h (by decide)⟩
  owners := .of_empty rfl rfl
  pins := ⟨fun p hp => absurd hp List.not_mem_nil, fun a ha => absurd ha (Nat.not_lt_zero a)⟩

theorem reachable_consistent (h : (system cfg).Reachable t) : Consistent cfg t := by
  refine h.invariant ?_ ?_
  · rintro t rfl
    exact new_consistent cfg
  · rintro t c u ht rfl
    exact (call_effect cfg t c).consistent ht

end Table

end Windshare.Operation
