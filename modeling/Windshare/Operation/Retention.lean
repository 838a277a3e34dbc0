import Windshare.Operation.Invariant

/-!
# How long the table remembers

A tombstone stays, with its authority and an expiry that never moves back, until the
clock reaches the expiry while no pin is held, or until the session ends. An
identity with a tombstone is therefore not taken up again before that.
-/

namespace Windshare.Operation

open Windshare.Library Windshare.Library.System Windshare.Session

namespace Table

variable {cfg : Config} {expiry : List Time} {t u : Table} {id : OperationID}
  {tombstone : Tombstone}

/-- The table still has a tombstone of `id` that is at least as good as `tombstone`. -/
def Retains (t : Table) (id : OperationID) (tombstone : Tombstone) : Prop :=
  ∃ kept, t.tombstones.get? id = some kept ∧ kept.authority = tombstone.authority ∧
    tombstone.expiresAt ≤ kept.expiresAt

theorem Framed.retains (h : Framed t u) (ht : t.Retains id tombstone) : u.Retains id tombstone := by
  unfold Retains
  rw [h.tombstones]
  exact ht

/-- A move keeps a tombstone unless it lets the tombstone expire. -/
theorem Move.retains (h : Move cfg expiry t u) (ht : t.Retains id tombstone) :
    u.Retains id tombstone ∨
      ∃ now ∈ expiry, tombstone.expiresAt ≤ now ∧ (t.authorityAt tombstone.authority).pins = 0 := by
  have ⟨kept, hkept, hauthority, hexpires⟩ := ht
  cases h with
  | prune now hnow =>
    by_cases hexpired : kept.expiresAt ≤ now ∧ (t.authorityAt kept.authority).pins = 0
    · refine .inr ⟨now, hnow, Nat.le_trans hexpires hexpired.1, ?_⟩
      rw [← hauthority]
      exact hexpired.2
    · refine .inl ⟨kept, ?_, hauthority, hexpires⟩
      rw [pruneExpired, FiniteMap.get?_filter, hkept, Option.filter_some, if_pos]
      simp only [Bool.not_eq_true', Bool.and_eq_false_iff, decide_eq_false_iff_not,
        beq_eq_false_iff_ne]
      exact not_and_or.mp hexpired
  | peers | begin | answer | pin => exact .inl ht
  | annotate a f hpins => exact .inl ((framed_modifyAuthority t a hpins).retains ht)
  | preempt id' tombstone' hterminal hactive htombstone =>
    refine .inl ⟨kept, ?_, hauthority, hexpires⟩
    rw [FiniteMap.get?_insert, if_neg]
    · exact hkept
    · rintro rfl
      rw [hkept] at htombstone
      cases htombstone
  | finish id' op tombstone' hop htombstone =>
    refine .inl ⟨kept, ?_, hauthority, hexpires⟩
    change (t.tombstones.insert id' tombstone').get? id = some kept
    rw [FiniteMap.get?_insert, if_neg]
    · exact hkept
    · rintro rfl
      rw [hkept] at htombstone
      cases htombstone
  | amend id' tombstone' amended htombstone hauthority' hexpires' =>
    left
    unfold Retains
    rw [FiniteMap.get?_insert]
    split
    · rename_i hid
      rw [hid, hkept] at htombstone
      cases htombstone
      exact ⟨amended, rfl, hauthority'.trans hauthority, Nat.le_trans hexpires hexpires'⟩
    · exact ht
  | bind id' tombstone' =>
    refine .inl ((framed_modifyAuthority t tombstone'.authority ?_).retains ht)
    exact fun _ => rfl
  | reserve a state hstate direction key f =>
    exact .inl ((framed_reserveContinuation t a state direction key f).retains ht)
  | settle index commit => exact .inl ((framed_settle t index commit).retains ht)

variable {p : Pin} {m : Message} {e : OperationError} {direction : Direction} {op : ActiveOperation}

/-- No move gives a pin back. -/
theorem Move.mem_pins (h : Move cfg expiry t u) (hp : p ∈ t.pins) : p ∈ u.pins := by
  cases h with
  | reserve a state hstate direction key f =>
    rw [(framed_reserveContinuation t a state direction key f).pins]
    exact hp
  | settle index commit =>
    rw [(framed_settle t index commit).pins]
    exact hp
  | pin => exact List.mem_append_left _ hp
  | _ => exact hp

/-! ### Termination -/

theorem Effect.terminal (h : Effect cfg expiry t u) (ht : t.terminal) : u.terminal := by
  cases h with
  | moves h | release h => exact h.terminal_eq ▸ ht
  | terminate => rfl

theorem terminal_foldl (calls : List Call) (ht : t.terminal) :
    (calls.foldl (call cfg) t).terminal := by
  induction calls generalizing t with
  | nil => exact ht
  | cons c calls ih => exact ih ((call_effect cfg t c).terminal ht)

/-! ### Pinned tombstones -/

/-- A held pin shows in the counter. -/
theorem Consistent.counter_ne_zero (ht : Consistent cfg t) (hp : p ∈ t.pins)
    (hheld : p.released = false) : (t.authorityAt p.authority).pins ≠ 0 := by
  intro hzero
  have hcounter := ht.pins.counter p.authority (ht.pins.lt p hp)
  rw [hzero] at hcounter
  have hpos : 0 < t.livePins p.authority :=
    List.countP_pos_iff.mpr ⟨p, hp, by simp [hheld]⟩
  rw [← hcounter] at hpos
  exact absurd hpos (by decide)

theorem Moves.retains_pinned (h : Moves cfg expiry t u) (hc : Consistent cfg t)
    (ht : t.Retains id tombstone) (hp : p ∈ t.pins) (hheld : p.released = false)
    (hauthority : p.authority = tombstone.authority) : u.Retains id tombstone := by
  have hstable : (Consistent cfg u ∧ p ∈ u.pins) ∧ u.Retains id tombstone := by
    refine h.stable (P := fun v => (Consistent cfg v ∧ p ∈ v.pins) ∧ v.Retains id tombstone)
      ⟨⟨hc, hp⟩, ht⟩ ?_
    rintro v w ⟨⟨hv, hpv⟩, hretains⟩ hmove
    refine ⟨⟨hmove.consistent hv, hmove.mem_pins hpv⟩, ?_⟩
    obtain hretains | ⟨now, -, -, hzero⟩ := hmove.retains hretains
    · exact hretains
    · exact absurd (hauthority ▸ hzero) (hv.counter_ne_zero hpv hheld)
  exact hstable.2

theorem Effect.retains_pinned (h : Effect cfg expiry t u) (hc : Consistent cfg t)
    (ht : t.Retains id tombstone) (hp : p ∈ t.pins) (hheld : p.released = false)
    (hauthority : p.authority = tombstone.authority) :
    u.terminal ∨ u.Retains id tombstone := by
  cases h with
  | moves h | release h => exact .inr (h.retains_pinned hc ht hp hheld hauthority)
  | terminate => exact .inl rfl

/-! ### Tombstones before their expiry -/

theorem Moves.retains (h : Moves cfg expiry t u)
    (hexpiry : ∀ now ∈ expiry, now < tombstone.expiresAt) (ht : t.Retains id tombstone) :
    u.Retains id tombstone := by
  refine h.stable (P := fun v => v.Retains id tombstone) ht ?_
  intro v w hv hmove
  obtain hretains | ⟨now, hnow, hexpired, -⟩ := hmove.retains hv
  · exact hretains
  · exact absurd (hexpiry now hnow) (Nat.not_lt.mpr hexpired)

theorem Effect.retains (h : Effect cfg expiry t u)
    (hexpiry : ∀ now ∈ expiry, now < tombstone.expiresAt)
    (ht : t.terminal ∨ t.Retains id tombstone) : u.terminal ∨ u.Retains id tombstone := by
  obtain hterminal | hretains := ht
  · exact .inl (h.terminal hterminal)
  cases h with
  | moves h | release h => exact .inr (h.retains hexpiry hretains)
  | terminate => exact .inl rfl

theorem retains_foldl (calls : List Call)
    (hexpiry : ∀ c ∈ calls, ∀ now ∈ c.expiryReadings, now < tombstone.expiresAt)
    (ht : t.terminal ∨ t.Retains id tombstone) :
    (calls.foldl (call cfg) t).terminal ∨ (calls.foldl (call cfg) t).Retains id tombstone := by
  induction calls generalizing t with
  | nil => exact ht
  | cons c calls ih =>
    refine ih (fun c' hc' => hexpiry c' (List.mem_cons_of_mem _ hc')) ?_
    exact (call_effect cfg t c).retains (hexpiry c List.mem_cons_self) ht

/-! ### Room for the tombstone of an active operation -/

theorem validatePeerAttempt_error {a : Option Nat}
    (h : t.validatePeerAttempt cfg a direction m = (u, some e)) :
    e = .schema ∨ e = .conflictingContinuation := by
  revert h
  fun_cases validatePeerAttempt cfg t a direction m with
  | case5 _ _ _ _ e' herror =>
    rintro ⟨⟩
    unfold peerAttemptError at herror
    split at herror
    · cases herror
    · exact .inl (Option.some.inj herror).symm
    · exact .inl (Option.some.inj herror).symm
    · split at herror
      · exact .inr (Option.some.inj herror).symm
      · cases herror
  | _ => rintro ⟨⟩

theorem reserveActive_error (current : ContinuationDirection) (maximum : Nat)
    (key : ContinuationKey) (record : Nat)
    (h : (current.reserveActive maximum key record).2 = .refused e) :
    e = .continuationPending := by
  unfold ContinuationDirection.reserveActive at h
  repeat' split at h
  all_goals first | (cases h; rfl) | cases h

theorem reserveActiveContinuation_error {a : Nat}
    (h : t.reserveActiveContinuation cfg a direction m = (u, .refused e)) :
    e = .schema ∨ e = .continuationPending := by
  unfold reserveActiveContinuation at h
  split at h
  · cases h
  split at h
  · cases h
  · cases h
    exact .inl rfl
  · cases h
    exact .inl rfl
  · unfold reserveContinuation at h
    dsimp only at h
    split at h
    · rename_i hrefused
      cases h
      exact .inr (reserveActive_error _ _ _ _ hrefused)
    all_goals cases h

theorem advanceOperation_room (hop : t.active.get? id = some op)
    (now : Time) (direction : Direction) (m : Message) :
    (t.advanceOperation cfg now id op direction m).2 ≠ .refused .trackedOperationBudget := by
  have hfinish (cancelled : Bool) :
      (t.finishOperation cfg now id op direction m cancelled).2 = none := by
    obtain ⟨slots, heq⟩ := finishOperation_eq cfg hop now direction m cancelled
    rw [heq]
  unfold advanceOperation observePeerAnswer
  dsimp only
  split
  · split
    · rename_i heq
      have hnone := hfinish true
      rw [heq] at hnone
      cases hnone
    · rintro ⟨⟩
  split
  · split <;> rintro ⟨⟩
  split
  · rintro ⟨⟩
  split
  · rintro ⟨⟩
  split
  · split
    · rename_i heq
      have hnone := hfinish false
      rw [heq] at hnone
      cases hnone
    · rintro ⟨⟩
  split
  · split
    · rintro ⟨⟩
    · split <;> rintro ⟨⟩
  · rintro ⟨⟩

theorem observePruned_room (hop : t.active.get? id = some op)
    (htombstone : t.tombstones.get? id = none) (now : Time) (direction : Direction)
    (hid : m.operationID = some id) :
    (t.observePruned cfg now direction m).2 ≠ .refused .trackedOperationBudget := by
  unfold observePruned
  split
  · rintro ⟨⟩
  split
  · rintro ⟨⟩
  split
  · rintro ⟨⟩
  split
  · rintro ⟨⟩
  rw [hid]
  dsimp only
  split
  · rename_i e heq
    obtain rfl | rfl := validatePeerAttempt_error heq <;> rintro ⟨⟩
  rename_i w heq
  obtain rfl := validatePeerAttempt_pass heq
  rw [htombstone, hop]
  unfold observeActive
  dsimp only
  have hadvance : (w.advanceOperation cfg now id op direction m).2 ≠
      .refused .trackedOperationBudget := advanceOperation_room hop now direction m
  split
  · split
    · rename_i hreserve
      obtain rfl | rfl := reserveActiveContinuation_error hreserve <;> rintro ⟨⟩
    all_goals rintro ⟨⟩
  · rename_i heq
    rw [heq] at hadvance
    exact hadvance

theorem cancelGeneration_ok (t : Table) (pruneAt now : Time) (a : Nat) (hid : id.isZero = false) :
    (t.cancelGeneration pruneAt now (some ⟨a, id⟩)).2 = .ok () := by
  unfold cancelGeneration
  dsimp only
  rw [hid, if_neg Bool.false_ne_true]
  repeat' split
  all_goals rfl

/-! ### Every reachable table -/

/-- In every table that any sequence of calls reaches: no identity is both active and
retired; both budgets hold, and an active operation can always be finished or
cancelled; every pin counter counts the pins still held; a pinned tombstone survives
every call short of termination; an identity with a tombstone is not active again
before the clock has reached the tombstone's expiry; and a terminated table stays
terminated and empty. -/
theorem reachable_table_sound (h : (system cfg).Reachable t) :
    (∀ id op, t.active.get? id = some op → t.tombstones.get? id = none) ∧
    t.active.size ≤ cfg.limits.maxActive ∧
    t.active.size + t.tombstones.size ≤ cfg.limits.maxTracked ∧
    (∀ id op, t.active.get? id = some op →
      (∀ now direction m cancelled,
        (t.finishOperation cfg now id op direction m cancelled).2 = none) ∧
      (∀ pruneAt now direction m, m.operationID = some id →
        (t.observeAdmission cfg pruneAt now direction m).2 ≠ .refused .trackedOperationBudget) ∧
      (∀ pruneAt now, id.isZero = false →
        (t.cancelGeneration pruneAt now (some ⟨op.authority, id⟩)).2 = .ok ())) ∧
    (∀ a, a < t.authorities.length → (t.authorityAt a).pins.toNat = t.livePins a) ∧
    (∀ id tombstone, t.tombstones.get? id = some tombstone →
      ∀ p ∈ t.pins, p.released = false → p.authority = tombstone.authority →
        (∀ now, (t.pruneExpired now).tombstones.get? id = some tombstone) ∧
        ∀ c, (t.call cfg c).terminal ∨ (t.call cfg c).Retains id tombstone) ∧
    (∀ id tombstone, t.tombstones.get? id = some tombstone → ∀ calls : List Call,
      (∀ c ∈ calls, ∀ now ∈ c.expiryReadings, now < tombstone.expiresAt) →
        (calls.foldl (call cfg) t).active.get? id = none) ∧
    (t.terminal → ∀ calls : List Call,
      (calls.foldl (call cfg) t).terminal ∧
        (calls.foldl (call cfg) t).active = .empty ∧
        (calls.foldl (call cfg) t).tombstones = .empty) := by
  have ht := reachable_consistent h
  have hlater (calls : List Call) : Consistent cfg (calls.foldl (call cfg) t) := by
    induction calls generalizing t with
    | nil => exact ht
    | cons c calls ih => exact ih (h.step (e := c) rfl) ((call_effect cfg t c).consistent ht)
  refine ⟨ht.maps.disjoint, ht.maps.active_le, ht.maps.tracked_le, ?_, ht.pins.counter, ?_, ?_,
    ?_⟩
  · intro id op hop
    refine ⟨fun now direction m cancelled => ?_, fun pruneAt now direction m hid => ?_,
      fun pruneAt now hid => cancelGeneration_ok t pruneAt now op.authority hid⟩
    · obtain ⟨slots, heq⟩ := finishOperation_eq cfg hop now direction m cancelled
      rw [heq]
    · refine observePruned_room (t := t.pruneExpired pruneAt) hop ?_ now direction hid
      simp [pruneExpired, FiniteMap.get?_filter, ht.maps.disjoint id op hop]
  · intro id tombstone htombstone p hp hheld hauthority
    refine ⟨fun now => ?_, fun c => ?_⟩
    · have hpins := hauthority ▸ ht.counter_ne_zero hp hheld
      rw [pruneExpired, FiniteMap.get?_filter, htombstone]
      simp [hpins]
    · exact (call_effect cfg t c).retains_pinned ht ⟨tombstone, htombstone, rfl, Nat.le_refl _⟩
        hp hheld hauthority
  · intro id tombstone htombstone calls hexpiry
    have hretains : (calls.foldl (call cfg) t).terminal ∨
        (calls.foldl (call cfg) t).Retains id tombstone :=
      retains_foldl calls hexpiry (.inr ⟨tombstone, htombstone, rfl, Nat.le_refl _⟩)
    obtain hterminal | ⟨kept, hkept, -⟩ := hretains
    · rw [((hlater calls).maps.terminal_empty hterminal).1]
      rfl
    · by_contra hactive
      obtain ⟨op, hop⟩ := Option.ne_none_iff_exists'.mp hactive
      have hnone := (hlater calls).maps.disjoint id op hop
      rw [hkept] at hnone
      cases hnone
  · intro hterminal calls
    have hstays : (calls.foldl (call cfg) t).terminal := terminal_foldl calls hterminal
    exact ⟨hstays, (hlater calls).maps.terminal_empty hstays⟩

/-! ### A receiver with one finished and one running request -/

def plainCodec : Codec where
  sha256 bytes := bytes
  decodeSignedControlBody := some
  encodeUnsignedControlWrapper := some
  decodeOperationFailure _ := some none

def receiverConfig : Config where
  limits := ⟨2, 3, by decide, by decide⟩
  codec := plainCodec
  continuations := none

def listingID : OperationID := .filled 1

def revisionsID : OperationID := .filled 2

def listingRequest : Message := ⟨.listChildren, some listingID, [], by decide⟩

/-- The receiver lists a directory, has the result, and asks for revisions. Nothing has
released the writer's pins yet. -/
def receiverCalls : List Call :=
  [.admitOutbound 0 0 0 .receiverToSender listingRequest none,
    .observe 1 1 .senderToReceiver ⟨.catalogResult, some listingID, [7], by decide⟩,
    .admitOutbound 2 2 2 .receiverToSender ⟨.openRevisions, some revisionsID, [], by decide⟩ none]

theorem reachable_table_sound_receiver :
    let t := receiverCalls.foldl (call receiverConfig) new
    (t.tombstones.get? listingID).isSome ∧ (t.active.get? revisionsID).isSome ∧
      t.livePins 0 = 1 ∧ (t.authorityAt 0).pins.toNat = t.livePins 0 := by
  have hsound := reachable_table_sound
    (reachable_foldl (· = new) (call receiverConfig) rfl receiverCalls)
  exact ⟨by decide, by decide, by decide, hsound.2.2.2.2.1 0 (by decide)⟩

end Table

end Windshare.Operation
