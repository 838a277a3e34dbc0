import Windshare.Relay.Flow.Ledger

/-!
# What a ledger accounts for

Each delivery holds a run of units in each dimension, from the end of its consumed prefix
to the end of its retained prefix. The counters of the ledger are the totals of what the
deliveries hold, split by stage and by pool. `replace` is the only write of the counters,
and this file says once when it goes through and what it leaves.
-/

namespace Windshare.Relay.Flow

open Windshare.Library Txn

/-! ### One delivery -/

namespace Delivery

variable (e : Delivery) (d : Dimension)

/-- Credit that the source may still use. -/
def credit : Nat := if e.state = .opened then e.granted.amount d - e.received.amount d else 0

/-- Payload waiting for submission. -/
def queued : Nat :=
  match e.state with
  | .settling _ => 0
  | _ => e.received.amount d - e.submitted.amount d

/-- Payload the destination has not consumed. -/
def inFlight : Nat := e.submitted.amount d - e.consumed.amount d

/-- Units the delivery holds. -/
def held : Nat := e.retained.amount d - e.consumed.amount d

/-- Units held in the startup pool. -/
def startupHeld : Nat :=
  min (e.retained.amount d) (e.startup.amount d) - min (e.consumed.amount d) (e.startup.amount d)

/-- Units held in the regular pool. -/
def regularHeld : Nat :=
  (e.retained.amount d - e.startup.amount d) - (e.consumed.amount d - e.startup.amount d)

/-- The counters of a delivery are prefixes of one another. -/
structure Ordered : Prop where
  consumed_le : ∀ d, e.consumed.amount d ≤ e.submitted.amount d
  submitted_le : ∀ d, e.submitted.amount d ≤ e.received.amount d
  received_le : ∀ d, e.received.amount d ≤ e.granted.amount d
  startup_le : ∀ d, e.startup.amount d ≤ e.granted.amount d

variable {e}

section

variable (h : e.Ordered)

include h

theorem Ordered.consumed_le_retained (d : Dimension) :
    e.consumed.amount d ≤ e.retained.amount d := by
  have h₁ := h.consumed_le d
  have h₂ := h.submitted_le d
  have h₃ := h.received_le d
  unfold retained
  split <;> omega

/-- The two pools make up what a delivery holds. -/
theorem Ordered.held_eq_pools (d : Dimension) : e.held d = e.startupHeld d + e.regularHeld d := by
  have := h.consumed_le_retained d
  unfold startupHeld regularHeld held
  omega

/-- The three stages make up what a delivery holds. -/
theorem Ordered.held_eq_stages (d : Dimension) :
    e.held d = e.credit d + e.queued d + e.inFlight d := by
  have h₁ := h.consumed_le d
  have h₂ := h.submitted_le d
  have h₃ := h.received_le d
  unfold held retained credit queued inFlight
  cases e.state <;> simp <;> omega

theorem Ordered.exists_usage : ∃ u, e.usage = some u ∧ ∀ d, u.granted.amount d = e.credit d ∧
      u.received.amount d = e.queued d ∧ u.submitted.amount d = e.inFlight d := by
  obtain ⟨c, hc, hc'⟩ := Counts.exists_sub h.received_le
  obtain ⟨q, hq, hq'⟩ := Counts.exists_sub h.submitted_le
  obtain ⟨f, hf, hf'⟩ := Counts.exists_sub h.consumed_le
  unfold usage credit queued inFlight
  cases hstate : e.state with
  | opened =>
    refine ⟨⟨c, q, f⟩, by simp [hc, hq, hf], fun d => ?_⟩
    have := hc' d
    have := hq' d
    have := hf' d
    refine ⟨?_, ?_, ?_⟩ <;> simp <;> omega
  | discarding =>
    refine ⟨⟨.zero, q, f⟩, by simp [hq, hf], fun d => ?_⟩
    have := hq' d
    have := hf' d
    refine ⟨?_, ?_, ?_⟩ <;> simp <;> omega
  | settling =>
    refine ⟨⟨.zero, .zero, f⟩, by simp [hf], fun d => ?_⟩
    have := hf' d
    refine ⟨?_, ?_, ?_⟩ <;> simp; omega

theorem Ordered.exists_usage_total :
    ∃ u c, e.usage = some u ∧ u.total = some c ∧ ∀ d, c.amount d = e.held d := by
  obtain ⟨u, hu, hstages⟩ := h.exists_usage
  have hbound (d : Dimension) : u.granted.amount d + u.received.amount d + u.submitted.amount d <
      2 ^ 64 := by
    have hle : e.held d ≤ e.retained.amount d := Nat.sub_le _ _
    have := e.retained.amount_lt d
    rw [(hstages d).1, (hstages d).2.1, (hstages d).2.2, ← h.held_eq_stages]
    omega
  obtain ⟨x, hx, hx'⟩ := Counts.exists_add (fun d => Nat.lt_of_add_right_lt (hbound d))
  obtain ⟨c, hc, hc'⟩ := Counts.exists_add (a := x) (b := u.submitted)
    (fun d => by rw [hx']; exact hbound d)
  refine ⟨u, c, hu, by simp [Usage.total, hx, hc], ?_⟩
  intro d
  rw [hc', hx', (hstages d).1, (hstages d).2.1, (hstages d).2.2, h.held_eq_stages]

theorem Ordered.exists_startupUsed :
    ∃ c, e.startupUsed = some c ∧ ∀ d, c.amount d = e.startupHeld d := by
  have hle (d : Dimension) :
      (e.consumed.min e.startup).amount d ≤ (e.retained.min e.startup).amount d := by
    have := h.consumed_le_retained d
    simp only [Counts.amount_min]
    omega
  obtain ⟨c, hc, hc'⟩ := Counts.exists_sub hle
  refine ⟨c, hc, fun d => ?_⟩
  have := hc' d
  simp only [Counts.amount_min] at this
  unfold startupHeld
  omega

end

end Delivery

/-! ### Optional deliveries -/

def OrderedSlot (o : Option Delivery) : Prop := ∀ e, o = some e → e.Ordered

variable {o : Option Delivery} {slots' : DeliverySlots} {allocates : Bool}

theorem OrderedSlot.exists_usage (h : OrderedSlot o) :
    ∃ u, o.elim (some .zero) Delivery.usage = some u ∧ ∀ d,
      u.granted.amount d = o.elim 0 (·.credit d) ∧ u.received.amount d = o.elim 0 (·.queued d) ∧
        u.submitted.amount d = o.elim 0 (·.inFlight d) := by
  cases o with
  | none => exact ⟨.zero, rfl, fun d => by simp [Usage.zero]⟩
  | some e => exact (h e rfl).exists_usage

theorem OrderedSlot.exists_startupUsed (h : OrderedSlot o) :
    ∃ c, o.elim (some .zero) Delivery.startupUsed = some c ∧
      ∀ d, c.amount d = o.elim 0 (·.startupHeld d) := by
  cases o with
  | none => exact ⟨.zero, rfl, fun d => by simp⟩
  | some e => exact (h e rfl).exists_startupUsed

/-! ### Slots -/

namespace DeliverySlots

variable (slots : DeliverySlots)

/-- The total of a weight over the deliveries. -/
def tally (w : Delivery → Nat) : Nat := slots.entries.tally w

/-- The count of deliveries is right. -/
def Counted : Prop := slots.retained = slots.tally fun _ => 1

variable {slots} {slot : Nat} {next : Option Delivery}

theorem mem_iter {e : Delivery} : e ∈ slots.iter ↔ ∃ i, slots.get i = some e :=
  Slots.mem_reduceOption

theorem elim_le_tally (slots : DeliverySlots) (slot : Nat) (w : Delivery → Nat) :
    (slots.get slot).elim 0 w ≤ slots.tally w := by
  cases hget : slots.get slot with
  | none => exact Nat.zero_le _
  | some => exact Slots.le_tally w hget

theorem exists_replace (h : slots.Counted) (hslot : slot < slots.entries.length)
    (next : Option Delivery) :
    ∃ slots', slots.replace slot next = some slots' ∧ slots'.Counted ∧
      (∀ i, slots'.get i = if i = slot then next else slots.get i) ∧
      ∀ w, slots'.tally w + (slots.get slot).elim 0 w = slots.tally w + next.elim 0 w := by
  have hget : slots.entries[slot]? = some (slots.get slot) := by
    rw [get, Slots.get, List.getElem?_eq_getElem hslot]
    rfl
  have hone (o : Option Delivery) : o.toList.length = o.elim 0 fun _ => 1 := by cases o <;> rfl
  have htally (w : Delivery → Nat) :
      Slots.tally (slots.entries.set slot next) w + (slots.get slot).elim 0 w =
        slots.tally w + next.elim 0 w := Slots.tally_set w hslot next
  have hcount := htally fun _ => 1
  have hroom : ¬ slots.retained < (slots.get slot).toList.length := by
    rw [h, hone]
    exact Nat.not_lt.mpr (slots.elim_le_tally slot _)
  have hretained : slots.retained - (slots.get slot).toList.length + next.toList.length =
      Slots.tally (slots.entries.set slot next) fun _ => 1 := by
    rw [h, hone] at hroom
    rw [h, hone, hone]
    omega
  have hset (i : Nat) : Slots.get (slots.entries.set slot next) i =
      if i = slot then next else slots.get i := Slots.get_set hslot next
  unfold replace
  rw [hget, Option.bind_eq_bind, Option.bind_some, if_neg hroom]
  cases next with
  | some => exact ⟨_, rfl, hretained, hset, htally⟩
  | none =>
    dsimp only
    split
    · -- No record is left, so that clearing the vector drops holes only.
      have hholes (i : Nat) : Slots.get (slots.entries.set slot none) i = none := by
        cases hi : Slots.get (slots.entries.set slot none) i with
        | none => rfl
        | some =>
          have := Slots.le_tally (fun _ => 1) hi
          omega
      refine ⟨_, rfl, rfl, fun i => ?_, fun w => ?_⟩
      · rw [← hset i]
        exact (hholes i).symm
      · rw [← htally w, Slots.tally_eq_zero_of_holes w hholes]
        rfl
    · refine ⟨_, rfl, ?_, fun i => ?_, fun w => ?_⟩
      · exact hretained.trans (Slots.tally_trim _ _).symm
      · exact (Slots.get_trim _).trans (hset i)
      · exact (congrArg (· + _) (Slots.tally_trim w _)).trans (htally w)

/-- Making room for a slot changes no delivery. -/
theorem ensureSlot_spec (h : slots.ensureSlot slot allocates = .ok slots') :
    slot < slots'.entries.length ∧ (∀ i, slots'.get i = slots.get i) ∧
      (∀ w, slots'.tally w = slots.tally w) ∧ slots'.retained = slots.retained := by
  unfold ensureSlot at h
  split at h
  · cases h
  split at h
  · split at h
    · cases h
      refine ⟨?_, fun i => Slots.get_append_holes _, fun w => Slots.tally_append_holes w _, rfl⟩
      simp only [List.length_append, List.length_replicate]
      omega
    · cases h
  · cases h
    exact ⟨by omega, fun _ => rfl, fun _ => rfl, rfl⟩

/-- A vacant slot is there, empty, and finding it changes no delivery. -/
theorem vacant_spec (h : slots.vacant allocates = .ok (slots', slot)) :
    slots'.get slot = none ∧ slot < slots'.entries.length ∧
      (∀ i, slots'.get i = slots.get i) ∧ (∀ w, slots'.tally w = slots.tally w) ∧
      slots'.retained = slots.retained := by
  unfold vacant at h
  split at h
  · rename_i found hfound
    cases h
    obtain ⟨hlt, hnone, -⟩ := List.findIdx?_eq_some_iff_getElem.mp hfound
    refine ⟨?_, hlt, fun _ => rfl, fun _ => rfl, rfl⟩
    rw [get, Slots.get, List.getElem?_eq_getElem hlt, Option.isNone_iff_eq_none.mp hnone]
    rfl
  · cases hensure : slots.ensureSlot slots.entries.length allocates with
    | error =>
      rw [hensure] at h
      cases h
    | ok =>
      rw [hensure] at h
      cases h
      obtain ⟨hlt, hget, htally, hretained⟩ := ensureSlot_spec hensure
      refine ⟨?_, hlt, hget, htally, hretained⟩
      exact (hget _).trans (Slots.get_of_length_le (Nat.le_refl _))

end DeliverySlots

/-! ### The ledger -/

namespace ConnectionLedger

variable {l l' : ConnectionLedger}

theorem startupPool_le (l : ConnectionLedger) (d : Dimension) :
    l.startupPool.amount d ≤ l.effectiveTotal.amount d := by
  simp only [startupPool, Counts.amount_min, Counts.amount_saturatingSub]
  omega

theorem exists_capacityPools (l : ConnectionLedger) :
    ∃ pools, l.capacityPools = some pools ∧ pools.startup = l.startupPool ∧
      ∀ d, pools.regular.amount d + l.startupPool.amount d = l.effectiveTotal.amount d := by
  obtain ⟨c, hc, hc'⟩ := Counts.exists_sub l.startupPool_le
  exact ⟨⟨l.startupPool, c⟩, by simp [capacityPools, hc], rfl, hc'⟩

/-- The counters are the totals over the deliveries, and both pools bound their share. -/
structure Books (l : ConnectionLedger) : Prop where
  counted : l.entries.Counted
  ordered : ∀ i, OrderedSlot (l.entries.get i)
  granted : ∀ d, l.usage.granted.amount d = l.entries.tally (·.credit d)
  received : ∀ d, l.usage.received.amount d = l.entries.tally (·.queued d)
  submitted : ∀ d, l.usage.submitted.amount d = l.entries.tally (·.inFlight d)
  startup : ∀ d, l.startupUsed.amount d = l.entries.tally (·.startupHeld d)
  startup_le : ∀ d, l.entries.tally (·.startupHeld d) ≤ l.startupPool.amount d
  regular_le : ∀ d, l.entries.tally (·.regularHeld d) + l.startupPool.amount d ≤
    l.effectiveTotal.amount d

namespace Books

variable (h : Books l)
include h

theorem held_eq_pools (d : Dimension) :
    l.entries.tally (·.held d) =
      l.entries.tally (·.startupHeld d) + l.entries.tally (·.regularHeld d) := by
  have hpools := Slots.tally_congr (fun e => e.held d)
    fun i e hi => (h.ordered i e hi).held_eq_pools d
  exact hpools.trans (Slots.tally_add ..)

theorem held_eq_stages (d : Dimension) :
    l.entries.tally (·.held d) = l.entries.tally (·.credit d) + l.entries.tally (·.queued d) +
      l.entries.tally (·.inFlight d) := by
  have hstages := Slots.tally_congr (fun e => e.held d)
    fun i e hi => (h.ordered i e hi).held_eq_stages d
  rw [Slots.tally_add, Slots.tally_add] at hstages
  exact hstages

theorem held_le (d : Dimension) : l.entries.tally (·.held d) ≤ l.effectiveTotal.amount d := by
  have := h.held_eq_pools d
  have := h.startup_le d
  have := h.regular_le d
  omega

/-- The total usage is what the deliveries hold. -/
theorem exists_total :
    ∃ c, l.usage.total = some c ∧ ∀ d, c.amount d = l.entries.tally (·.held d) := by
  have hbound (d : Dimension) : l.usage.granted.amount d + l.usage.received.amount d +
      l.usage.submitted.amount d < 2 ^ 64 := by
    have := h.held_le d
    have := h.held_eq_stages d
    have := l.effectiveTotal.amount_lt d
    rw [h.granted, h.received, h.submitted]
    omega
  obtain ⟨x, hx, hx'⟩ := Counts.exists_add (fun d => Nat.lt_of_add_right_lt (hbound d))
  obtain ⟨c, hc, hc'⟩ := Counts.exists_add (a := x) (b := l.usage.submitted)
    (fun d => by rw [hx']; exact hbound d)
  refine ⟨c, by simp [Usage.total, hx, hc], fun d => ?_⟩
  rw [hc', hx', h.granted, h.received, h.submitted, h.held_eq_stages]

theorem exists_regularUsed :
    ∃ c, l.regularUsed = some c ∧ ∀ d, c.amount d = l.entries.tally (·.regularHeld d) := by
  obtain ⟨total, htotal, htotal'⟩ := h.exists_total
  have hle (d : Dimension) : l.startupUsed.amount d ≤ total.amount d := by
    rw [htotal', h.startup, h.held_eq_pools]
    omega
  obtain ⟨c, hc, hc'⟩ := Counts.exists_sub hle
  refine ⟨c, by simp [regularUsed, htotal, hc], fun d => ?_⟩
  have := hc' d
  rw [htotal', h.startup, h.held_eq_pools] at this
  omega

theorem exists_room :
    ∃ pools spare used regularSpare, l.capacityPools = some pools ∧ l.regularUsed = some used ∧
      pools.startup.sub l.startupUsed = some spare ∧
      pools.regular.sub used = some regularSpare ∧
      (∀ d, spare.amount d + l.entries.tally (·.startupHeld d) = l.startupPool.amount d) ∧
      ∀ d, regularSpare.amount d + l.entries.tally (·.regularHeld d) + l.startupPool.amount d =
        l.effectiveTotal.amount d := by
  obtain ⟨pools, hpools, hstartup, hregular⟩ := l.exists_capacityPools
  obtain ⟨used, hused, hused'⟩ := h.exists_regularUsed
  have hle₁ (d : Dimension) : l.startupUsed.amount d ≤ pools.startup.amount d := by
    rw [hstartup, h.startup]
    exact h.startup_le d
  have hle₂ (d : Dimension) : used.amount d ≤ pools.regular.amount d := by
    have := h.regular_le d
    have := hregular d
    rw [hused']
    omega
  obtain ⟨spare, hspare, hspare'⟩ := Counts.exists_sub hle₁
  obtain ⟨regularSpare, hregularSpare, hregularSpare'⟩ := Counts.exists_sub hle₂
  refine ⟨pools, spare, used, regularSpare, hpools, hused, hspare, hregularSpare, fun d => ?_,
    fun d => ?_⟩
  · rw [← h.startup, ← hstartup]
    exact hspare' d
  · rw [← hused', hregularSpare', hregular]

theorem setEntries {entries : DeliverySlots} (hget : ∀ i, entries.get i = l.entries.get i)
    (htally : ∀ w, entries.tally w = l.entries.tally w)
    (hretained : entries.retained = l.entries.retained) :
    Books { l with entries := entries } where
  counted := hretained.trans (h.counted.trans (htally _).symm)
  ordered := fun i => (hget i).symm ▸ h.ordered i
  granted := fun d => (h.granted d).trans (htally _).symm
  received := fun d => (h.received d).trans (htally _).symm
  submitted := fun d => (h.submitted d).trans (htally _).symm
  startup := fun d => (h.startup d).trans (htally _).symm
  startup_le := fun d => (htally _).symm ▸ h.startup_le d
  regular_le := fun d => (htally fun e => e.regularHeld d).symm ▸ h.regular_le d

end Books

/-- `l'` is `l` but for the delivery of one slot and what is derived from it. -/
structure Replaced (l : ConnectionLedger) (slot : Nat) (next : Option Delivery)
    (l' : ConnectionLedger) : Prop where
  relay : l'.relay = l.relay
  destination : l'.destination = l.destination
  limits : l'.limits = l.limits
  receiveCapacity : l'.receiveCapacity = l.receiveCapacity
  state : l'.state = l.state
  get : ∀ i, l'.entries.get i = if i = slot then next else l.entries.get i

theorem effectiveTotal_le {capacity : ReceiveCapacity} (h : l.receiveCapacity = some capacity)
    (d : Dimension) : l.effectiveTotal.amount d ≤ capacity.counts.amount d := by
  simp only [effectiveTotal, h, Counts.amount_min]
  omega

variable {ρ : Type} {Q : Unit → ConnectionLedger → Prop} {E : ρ → ConnectionLedger → Prop}

/-- Sound books pass the debug assertions. -/
theorem wp_assertCapacity (h : Books l) (hdeclared : l.receiveCapacity ≠ none) (hQ : Q () l) :
    wp assertCapacity Q E l := by
  obtain ⟨capacity, hcapacity⟩ := Option.ne_none_iff_exists'.mp hdeclared
  obtain ⟨pools, hpools, hstartup, hregular⟩ := l.exists_capacityPools
  obtain ⟨regular, hused, hregular'⟩ := h.exists_regularUsed
  obtain ⟨total, htotal, htotal'⟩ := h.exists_total
  have hcover₁ : pools.startup.covers l.startupUsed := by
    refine Counts.covers_iff.mpr fun d => ?_
    rw [hstartup, h.startup]
    exact h.startup_le d
  have hcover₂ : pools.regular.covers regular := by
    refine Counts.covers_iff.mpr fun d => ?_
    have := hregular d
    have := h.regular_le d
    rw [hregular']
    omega
  have hcover₃ : capacity.counts.covers total := by
    refine Counts.covers_iff.mpr fun d => ?_
    rw [htotal']
    exact Nat.le_trans (h.held_le d) (effectiveTotal_le hcapacity d)
  unfold assertCapacity
  simp only [wp_bind, wp_get, wp_expect]
  refine ⟨pools, hpools, regular, hused, total, htotal, (), if_pos hcover₁, (), if_pos hcover₂,
    (), if_pos (.inl ?_), hQ⟩
  rw [hcapacity]
  exact hcover₃

/-- `replace` goes through when the new delivery fits the pools. -/
theorem wp_replace {slot : Nat} {next : Option Delivery} (h : Books l)
    (hslot : slot < l.entries.entries.length) (hnext : OrderedSlot next)
    (hdeclared : l.receiveCapacity ≠ none)
    (hstartup : ∀ d, l.entries.tally (·.startupHeld d) + next.elim 0 (·.startupHeld d) ≤
      l.startupPool.amount d + (l.entries.get slot).elim 0 (·.startupHeld d))
    (hregular : ∀ d, l.entries.tally (·.regularHeld d) + next.elim 0 (·.regularHeld d) +
      l.startupPool.amount d ≤
        l.effectiveTotal.amount d + (l.entries.get slot).elim 0 (·.regularHeld d))
    (hQ : ∀ l', Replaced l slot next l' → Books l' → Q () l') :
    wp (replace slot next) Q E l := by
  have hbefore := h.ordered slot
  obtain ⟨usageBefore, husageBefore, hub⟩ := hbefore.exists_usage
  obtain ⟨usageNext, husageNext, hun⟩ := hnext.exists_usage
  obtain ⟨startupBefore, hstartupBefore, hsb⟩ := hbefore.exists_startupUsed
  obtain ⟨startupNext, hstartupNext, hsn⟩ := hnext.exists_startupUsed
  obtain ⟨entries, hentries, hcounted, hget, htally⟩ :=
    DeliverySlots.exists_replace h.counted hslot next
  have hordered (i : Nat) : OrderedSlot (entries.get i) := by
    rw [hget]
    split
    · exact hnext
    · exact h.ordered i
  -- The new totals fit the bound, so that no counter overflows.
  have hheld (d : Dimension) : entries.tally (·.held d) =
      entries.tally (·.startupHeld d) + entries.tally (·.regularHeld d) :=
    (Slots.tally_congr _ fun i e hi => (hordered i e hi).held_eq_pools d).trans (Slots.tally_add ..)
  have hstages (d : Dimension) : entries.tally (·.held d) = entries.tally (·.credit d) +
      entries.tally (·.queued d) + entries.tally (·.inFlight d) := by
    have hsum := Slots.tally_congr (fun e => e.held d)
      fun i e hi => (hordered i e hi).held_eq_stages d
    rw [Slots.tally_add, Slots.tally_add] at hsum
    exact hsum
  have hfits (d : Dimension) : entries.tally (·.startupHeld d) ≤ l.startupPool.amount d ∧
      entries.tally (·.regularHeld d) + l.startupPool.amount d ≤ l.effectiveTotal.amount d := by
    have := htally (·.startupHeld d)
    have := htally (·.regularHeld d)
    have := hstartup d
    have := hregular d
    omega
  have hsmall (w : Dimension → Delivery → Nat)
      (hw : ∀ d, entries.tally (w d) ≤ entries.tally (·.held d)) (d : Dimension) :
      entries.tally (w d) < 2 ^ 64 := by
    have := hw d
    have := hheld d
    have := hfits d
    have := l.effectiveTotal.amount_lt d
    omega
  have hmove {x y z : Counts} (w : Dimension → Delivery → Nat)
      (hx : ∀ d, x.amount d = l.entries.tally (w d))
      (hy : ∀ d, y.amount d = (l.entries.get slot).elim 0 (w d))
      (hz : ∀ d, z.amount d = next.elim 0 (w d))
      (hw : ∀ d, entries.tally (w d) ≤ entries.tally (·.held d)) :
      ∃ less total, x.sub y = some less ∧ less.add z = some total ∧
        ∀ d, total.amount d = entries.tally (w d) := by
    refine Counts.exists_move (fun d => ?_) (fun d => ?_) (hsmall w hw)
    · rw [hx, hy, hz]
      exact htally (w d)
    · rw [hx, hy]
      exact l.entries.elim_le_tally slot (w d)
  obtain ⟨g, granted, hg, hgranted, hgranted'⟩ := hmove (fun d e => e.credit d) h.granted
    (fun d => (hub d).1) (fun d => (hun d).1) (fun d => by have := hstages d; omega)
  obtain ⟨r, received, hr, hreceived, hreceived'⟩ := hmove (fun d e => e.queued d) h.received
    (fun d => (hub d).2.1) (fun d => (hun d).2.1) (fun d => by have := hstages d; omega)
  obtain ⟨s, submitted, hs, hsubmitted, hsubmitted'⟩ := hmove (fun d e => e.inFlight d) h.submitted
    (fun d => (hub d).2.2) (fun d => (hun d).2.2) (fun d => by have := hstages d; omega)
  obtain ⟨less, startupUsed, hless, hadd, hstartup'⟩ := hmove (fun d e => e.startupHeld d) h.startup
    hsb hsn (fun d => by have := hheld d; omega)
  have husage : l.usage.replace usageBefore usageNext = some ⟨granted, received, submitted⟩ := by
    simp [Usage.replace, hg, hgranted, hr, hreceived, hs, hsubmitted]
  unfold replace
  simp only [wp_bind, wp_get, wp_expect]
  refine ⟨usageBefore, husageBefore, usageNext, husageNext, _, husage, startupBefore,
    hstartupBefore, startupNext, hstartupNext, less, hless, startupUsed, hadd, entries, hentries,
    ?_⟩
  rw [wp_set]
  have hbooks (request : Option CloseRequest) : Books { l with
      usage := ⟨granted, received, submitted⟩
      startupUsed := startupUsed
      entries := entries
      nextExpiration := request } := {
    counted := hcounted
    ordered := hordered
    granted := hgranted'
    received := hreceived'
    submitted := hsubmitted'
    startup := hstartup'
    startup_le := fun d => (hfits d).1
    regular_le := fun d => (hfits d).2 }
  exact wp_assertCapacity (hbooks _) hdeclared (hQ _ ⟨rfl, rfl, rfl, rfl, rfl, hget⟩ (hbooks _))

/-- A delivery that holds no more than another in either pool. -/
def NoMore (next before : Option Delivery) : Prop :=
  ∀ d, next.elim 0 (·.startupHeld d) ≤ before.elim 0 (·.startupHeld d) ∧
    next.elim 0 (·.regularHeld d) ≤ before.elim 0 (·.regularHeld d)

theorem noMore_of_le {e e' : Delivery} (hstartup : e'.startup = e.startup)
    (hretained : ∀ d, e'.retained.amount d ≤ e.retained.amount d)
    (hconsumed : ∀ d, e.consumed.amount d ≤ e'.consumed.amount d) :
    NoMore (some e') (some e) := by
  intro d
  have := hretained d
  have := hconsumed d
  simp only [Option.elim_some, Delivery.startupHeld, Delivery.regularHeld, hstartup]
  omega

theorem noMore_none (before : Option Delivery) : NoMore none before :=
  fun _ => ⟨Nat.zero_le _, Nat.zero_le _⟩

/-- `replace` goes through when it frees resources or keeps them. -/
theorem wp_replace_of_noMore {slot : Nat} {e : Delivery} {next : Option Delivery} (h : Books l)
    (he : l.entries.get slot = some e) (hnext : OrderedSlot next)
    (hdeclared : l.receiveCapacity ≠ none) (hless : NoMore next (some e))
    (hQ : ∀ l', Replaced l slot next l' → Books l' → Q () l') :
    wp (replace slot next) Q E l := by
  refine wp_replace h (Slots.lt_length_of_get he) hnext hdeclared (fun d => ?_) (fun d => ?_) hQ
  · have := (hless d).1
    have := h.startup_le d
    rw [he]
    omega
  · have := (hless d).2
    have := h.regular_le d
    rw [he]
    omega

end ConnectionLedger

end Windshare.Relay.Flow
