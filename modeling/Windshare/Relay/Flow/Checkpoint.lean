import Windshare.Relay.Flow.Operations

/-!
# Restoring a ledger

A host that hibernates keeps a checkpoint of each ledger. `restore` rebuilds a ledger from
it entry by entry, under the same pools as live operations.
-/

namespace Windshare.Relay.Flow

open Windshare.Library Txn

structure LedgerCheckpoint where
  relay : RelayIdentity
  destination : ConnectionRef
  entries : List Delivery
  state : ConnectionState
  receiveCapacity : Option ReceiveCapacity

inductive CheckpointError where
  | format
  | capacity
  | storageAllocation
  | identity
  | accounting
  | pendingPayload
deriving DecidableEq, Repr

/-- Transactions that rebuild a ledger. -/
abbrev RestoreM := Txn ConnectionLedger CheckpointError

def validateEntry (entry : Delivery) (relay : RelayIdentity) (destination : ConnectionRef) :
    RestoreM Unit := do
  require (entry.key.session.relay = relay ∧ entry.key.destination = destination) .identity
  require (entry.granted.covers entry.received ∧ entry.received.covers entry.submitted ∧
    entry.submitted.covers entry.consumed ∧ entry.granted.covers entry.startup ∧
    entry.received.isEnvelopeBatch ∧ entry.submitted.isEnvelopeBatch ∧
    entry.consumed.isEnvelopeBatch) .accounting
  let inFlight ← expect (entry.submitted.sub entry.consumed)
  require inFlight.isEnvelopeBatch .accounting
  let usage ← expect entry.usage
  require (usage.received = .zero) .pendingPayload
  require (entry.deadline ≠ some 0) .accounting

namespace ConnectionLedger

/-- One turn of the loop of `restore`; `prior` are the entries before this one. -/
def restoreEntry (maxFlows : Nat) (pools : CapacityPools) (allocates : Bool)
    (prior : List Delivery) (entry : Delivery) : RestoreM Unit := do
  let l ← get
  let slot := entry.key.slot
  require (slot < maxFlows) .capacity
  validateEntry entry l.relay l.destination
  require (∀ p ∈ prior, p.key.slot < slot ∧ p.key.permit ≠ entry.key.permit) .identity
  let used ← expect l.usage.total
  let usage ← expect entry.usage
  let added ← expect usage.total
  let total ← orRefuse (used.checkedAdd added) .accounting
  let startupAdded ← expect entry.startupUsed
  let startup ← orRefuse (l.startupUsed.checkedAdd startupAdded) .accounting
  require (l.receiveCapacity.any (·.counts.covers total)) .capacity
  require (l.limits.total.covers total) .capacity
  require (pools.startup.covers startup) .capacity
  let regular ← expect (total.sub startup)
  require (pools.regular.covers regular) .capacity
  match l.entries.ensureSlot slot allocates with
  | .error _ => refuse .storageAllocation
  | .ok entries =>
    set { l with entries }
    replace slot (some entry)

/-- The loop of `restore`; `allocates` says for each slot whether it can be backed. -/
def restoreEntries (maxFlows : Nat) (pools : CapacityPools) (allocates : Nat → Bool) :
    List Delivery → List Delivery → RestoreM Unit
  | _, [] => pure ()
  | prior, entry :: rest => do
      restoreEntry maxFlows pools (allocates entry.key.slot) prior entry
      restoreEntries maxFlows pools allocates (prior ++ [entry]) rest

/-- Whether a close request in a checkpoint belongs to the ledger. -/
def foreignRequest (maxFlows : Nat) (relay : RelayIdentity) (destination : ConnectionRef)
    (request : CloseRequest) : Prop :=
  request.destination ≠ destination ∨ request.flow.destination ≠ destination ∨
    request.flow.session.relay ≠ relay ∨ request.flow.slot ≥ maxFlows ∨ request.deadline = 0

instance (maxFlows : Nat) (relay : RelayIdentity) (destination : ConnectionRef)
    (request : CloseRequest) : Decidable (foreignRequest maxFlows relay destination request) :=
  inferInstanceAs (Decidable (_ ∨ _))

/-- `restore`, on a ledger that `new` made. -/
def restore (maxFlows : Nat) (checkpoint : LedgerCheckpoint) (allocates : Nat → Bool) :
    RestoreM Unit := do
  let l ← get
  require (checkpoint.relay = l.relay ∧ checkpoint.destination = l.destination) .identity
  require (checkpoint.entries.length ≤ maxFlows) .capacity
  require (maxFlows ≠ 0) .capacity
  modify fun l => { l with receiveCapacity := checkpoint.receiveCapacity }
  let pools ← expect (← get).capacityPools
  restoreEntries maxFlows pools allocates [] checkpoint.entries
  match checkpoint.state with
  | .closing request =>
    require (¬ foreignRequest maxFlows l.relay l.destination request) .identity
  | .closed => require (checkpoint.entries = []) .accounting
  | .opened => pure ()
  modify fun l => { l with state := checkpoint.state }

/-! ### What a restored ledger is -/

/-- A delivery that `validateEntry` accepts. -/
structure ValidEntry (relay : RelayIdentity) (destination : ConnectionRef) (entry : Delivery) :
    Prop where
  routed : entry.key.session.relay = relay ∧ entry.key.destination = destination
  ordered : entry.Ordered
  idle : entry.state = .opened → entry.received = entry.submitted

variable {l : ConnectionLedger} {E : CheckpointError → ConnectionLedger → Prop}

variable {relay : RelayIdentity} {destination : ConnectionRef} {pools : CapacityPools}
  {Q : Unit → ConnectionLedger → Prop} {entry : Delivery} {prior : List Delivery}

theorem wp_validateEntry (hE : ∀ reason, E reason l)
    (hQ : ValidEntry relay destination entry → Q () l) :
    wp (validateEntry entry relay destination) Q E l := by
  unfold validateEntry
  simp only [wp_bind, wp_require]
  refine ⟨fun hrouted => ⟨fun hcovers => ?_, fun _ => hE _⟩, fun _ => hE _⟩
  obtain ⟨hreceived, hsubmitted, hconsumed, hstartup, -⟩ := hcovers
  have hordered : entry.Ordered := ⟨Counts.covers_iff.mp hconsumed,
    Counts.covers_iff.mp hsubmitted, Counts.covers_iff.mp hreceived, Counts.covers_iff.mp hstartup⟩
  obtain ⟨inFlight, hinFlight, -⟩ := Counts.exists_sub hordered.consumed_le
  obtain ⟨usage, husage, hstages⟩ := hordered.exists_usage
  simp only [wp_expect]
  refine ⟨inFlight, hinFlight, fun _ => ⟨usage, husage, fun hzero => ⟨fun _ => ?_, fun _ => hE _⟩,
    fun _ => hE _⟩, fun _ => hE _⟩
  apply hQ
  refine ⟨hrouted, hordered, ?_⟩
  intro hopen
  apply Counts.ext_amount
  intro d
  have hqueued := (hstages d).2.1
  have := hordered.submitted_le d
  rw [hzero, Counts.amount_zero, Delivery.queued, hopen] at hqueued
  simp only at hqueued
  omega

theorem capacityPools_congr {l' : ConnectionLedger} (hlimits : l'.limits = l.limits)
    (hcapacity : l'.receiveCapacity = l.receiveCapacity) :
    l'.capacityPools = l.capacityPools := by
  simp only [capacityPools, startupPool, effectiveTotal, hlimits, hcapacity]

/-- The ledger after the entries of `prior`. -/
structure Restoring (relay : RelayIdentity) (destination : ConnectionRef) (pools : CapacityPools)
    (prior : List Delivery) (l : ConnectionLedger) : Prop where
  relay_eq : l.relay = relay
  destination_eq : l.destination = destination
  pools_eq : l.capacityPools = some pools
  books : Books l
  mem : ∀ i e, l.entries.get i = some e → e ∈ prior ∧ e.key.slot = i
  valid : ∀ e ∈ prior, ValidEntry relay destination e
  distinct : ∀ e ∈ prior, ∀ e' ∈ prior, e.key.permit = e'.key.permit → e.key.slot = e'.key.slot
  declared : prior ≠ [] → l.receiveCapacity ≠ none

/-- The loop invariant over one entry. -/
theorem Restoring.snoc {entries : DeliverySlots}
    {l' : ConnectionLedger} (h : Restoring relay destination pools prior l)
    (hvalid : ValidEntry relay destination entry)
    (hlater : ∀ p ∈ prior, p.key.slot < entry.key.slot ∧ p.key.permit ≠ entry.key.permit)
    (hdeclared : l.receiveCapacity ≠ none) (hsame : ∀ i, entries.get i = l.entries.get i)
    (hreplaced : Replaced { l with entries := entries } entry.key.slot (some entry) l')
    (hbooks : Books l') : Restoring relay destination pools (prior ++ [entry]) l' where
  relay_eq := hreplaced.relay.trans h.relay_eq
  destination_eq := hreplaced.destination.trans h.destination_eq
  pools_eq := (capacityPools_congr (l := l) hreplaced.limits hreplaced.receiveCapacity).trans
    h.pools_eq
  books := hbooks
  mem := by
    intro i e he
    rw [hreplaced.get] at he
    split at he
    · cases he
      exact ⟨List.mem_append_right _ (List.mem_singleton.mpr rfl), Eq.symm ‹_›⟩
    · obtain ⟨hmem, hslot⟩ := h.mem i e ((hsame i).symm.trans he)
      exact ⟨List.mem_append_left _ hmem, hslot⟩
  valid := by
    intro e he
    obtain hold | hnew := List.mem_append.mp he
    · exact h.valid e hold
    · obtain rfl := List.mem_singleton.mp hnew
      exact hvalid
  distinct := by
    intro e he e' he' hpermit
    obtain hold | hnew := List.mem_append.mp he <;> obtain hold' | hnew' := List.mem_append.mp he'
    · exact h.distinct e hold e' hold' hpermit
    · obtain rfl := List.mem_singleton.mp hnew'
      exact absurd hpermit (hlater e hold).2
    · obtain rfl := List.mem_singleton.mp hnew
      exact absurd hpermit.symm (hlater e' hold').2
    · obtain rfl := List.mem_singleton.mp hnew
      obtain rfl := List.mem_singleton.mp hnew'
      rfl
  declared := fun _ => by
    rw [hreplaced.receiveCapacity]
    exact hdeclared

/-- An entry that fits is put in its slot. -/
theorem wp_restoreEntry {maxFlows : Nat}
    {allocates : Bool}
    (h : Restoring relay destination pools prior l) (hE : ∀ reason l, E reason l)
    (hQ : ∀ l', Restoring relay destination pools (prior ++ [entry]) l' → Q () l') :
    wp (restoreEntry maxFlows pools allocates prior entry) Q E l := by
  obtain rfl := h.relay_eq
  obtain rfl := h.destination_eq
  unfold restoreEntry
  simp only [wp_bind, wp_get, wp_require]
  refine ⟨fun _ => ?_, fun _ => hE _ _⟩
  refine wp_validateEntry (fun _ => hE _ _) fun hvalid => ⟨fun hlater => ?_, fun _ => hE _ _⟩
  obtain ⟨used, hused, hused'⟩ := h.books.exists_total
  obtain ⟨usage, added, husage, hadded, hadded'⟩ := hvalid.ordered.exists_usage_total
  obtain ⟨startupAdded, hstartupAdded, hstartupAdded'⟩ := hvalid.ordered.exists_startupUsed
  simp only [wp_expect, wp_orRefuse]
  refine ⟨used, hused, usage, husage, added, hadded, fun total htotal => ?_, fun _ => hE _ _⟩
  refine ⟨startupAdded, hstartupAdded, fun startup hstartup => ?_, fun _ => hE _ _⟩
  refine ⟨fun hcapacity => ⟨fun _ => ⟨fun hcovers₁ => ?_, fun _ => hE _ _⟩, fun _ => hE _ _⟩,
    fun _ => hE _ _⟩
  have htotal := Counts.add_eq_some.mp htotal
  have hstartup := Counts.add_eq_some.mp hstartup
  have hle (d : Dimension) : startup.amount d ≤ total.amount d := by
    have := h.books.held_eq_pools d
    have := hvalid.ordered.held_eq_pools d
    rw [htotal, hstartup, hused', hadded', h.books.startup, hstartupAdded']
    omega
  obtain ⟨regular, hregular, hregular'⟩ := Counts.exists_sub hle
  refine ⟨regular, hregular, fun hcovers₂ => ?_, fun _ => hE _ _⟩
  have hcovers₁ := Counts.covers_iff.mp hcovers₁
  have hcovers₂ := Counts.covers_iff.mp hcovers₂
  obtain ⟨pools', hpools', hpool₁, hpool₂⟩ := l.exists_capacityPools
  obtain rfl : pools' = pools := Option.some.inj (hpools'.symm.trans h.pools_eq)
  have hdeclared : l.receiveCapacity ≠ none := by
    intro hnone
    rw [hnone] at hcapacity
    cases hcapacity
  have hnone : l.entries.get entry.key.slot = none := by
    cases hget : l.entries.get entry.key.slot with
    | none => rfl
    | some e =>
      obtain ⟨hmem, hslot⟩ := h.mem _ e hget
      have := (hlater e hmem).1
      omega
  split
  · exact hE _ _
  rename_i entries hensure
  obtain ⟨hlt, hsame, htally, hretained⟩ := DeliverySlots.ensureSlot_spec hensure
  refine wp_replace (h.books.setEntries hsame htally hretained) hlt ?_ hdeclared (fun d => ?_)
    (fun d => ?_) fun l' hreplaced hbooks => ?_
  · rintro e ⟨⟩
    exact hvalid.ordered
  · have := hcovers₁ d
    rw [hsame, hnone, Option.elim_none, Option.elim_some, htally, ← hstartupAdded',
      ← h.books.startup, ← hstartup]
    change _ ≤ l.startupPool.amount d + 0
    rw [← hpool₁]
    omega
  · have := hcovers₂ d
    have := hregular' d
    have := hpool₂ d
    have := h.books.held_eq_pools d
    have := hvalid.ordered.held_eq_pools d
    have := htotal d
    have := hstartup d
    have := hused' d
    have := hadded' d
    have := h.books.startup d
    have := hstartupAdded' d
    rw [hsame, hnone, Option.elim_none, Option.elim_some, htally]
    change _ + _ + l.startupPool.amount d ≤ l.effectiveTotal.amount d + 0
    omega
  · apply hQ
    exact h.snoc hvalid hlater hdeclared hsame hreplaced hbooks

theorem wp_restoreEntries {maxFlows : Nat} {allocates : Nat → Bool}
    (hE : ∀ reason l, E reason l) (rest : List Delivery) :
    ∀ (prior : List Delivery) (l : ConnectionLedger),
      Restoring relay destination pools prior l →
      (∀ l', Restoring relay destination pools (prior ++ rest) l' → Q () l') →
      wp (restoreEntries maxFlows pools allocates prior rest) Q E l := by
  induction rest with
  | nil =>
    intro prior l h hQ
    apply hQ
    rw [List.append_nil]
    exact h
  | cons entry rest ih =>
    intro prior l h hQ
    rw [restoreEntries, wp_bind]
    apply wp_restoreEntry h hE
    intro l' h'
    apply ih _ _ h'
    rw [List.append_assoc]
    exact hQ

/-- A ledger rebuilt from a checkpoint. -/
structure Restored (l : ConnectionLedger) : Prop where
  ready : Ready l
  routed : ∀ i e, l.entries.get i = some e →
    e.key.session.relay = l.relay ∧ e.key.destination = l.destination
  distinct : ∀ i j e e', l.entries.get i = some e → l.entries.get j = some e' →
    e.key.permit = e'.key.permit → i = j
  idle : ∀ i e, l.entries.get i = some e → e.state = .opened → e.received = e.submitted
  closed : l.state = .closed → ∀ i, l.entries.get i = none

/-- The loop ends in a restored ledger, under any state that is closed only without entries. -/
theorem Restoring.restored {state : ConnectionState}
    (h : Restoring relay destination pools prior l) (hclosed : state = .closed → prior = []) :
    Restored { l with state := state } where
  ready := by
    refine ⟨⟨h.books.counted, h.books.ordered, h.books.granted, h.books.received,
      h.books.submitted, h.books.startup, h.books.startup_le, h.books.regular_le⟩,
      fun i e he => (h.mem i e he).2, ?_⟩
    intro hnone i
    cases he : l.entries.get i with
    | none => rfl
    | some e => exact absurd hnone (h.declared (List.ne_nil_of_mem (h.mem i e he).1))
  routed := by
    intro i e he
    have hrouted := (h.valid e (h.mem i e he).1).routed
    rw [← h.relay_eq, ← h.destination_eq] at hrouted
    exact hrouted
  distinct := by
    intro i j e e' he he' hpermit
    obtain ⟨hmem, rfl⟩ := h.mem i e he
    obtain ⟨hmem', rfl⟩ := h.mem j e' he'
    exact h.distinct e hmem e' hmem' hpermit
  idle := fun i e he => (h.valid e (h.mem i e he).1).idle
  closed := by
    intro hstate i
    cases he : l.entries.get i with
    | none => rfl
    | some e => exact absurd (hclosed hstate) (List.ne_nil_of_mem (h.mem i e he).1)

theorem new_books (relay : RelayIdentity) (destination : ConnectionRef) (limits : Limits)
    (maxFlows : Nat) (capacity : Option ReceiveCapacity) :
    Books { new relay destination limits maxFlows with receiveCapacity := capacity } where
  counted := rfl
  ordered := by
    intro i e he
    cases he
  granted := Counts.amount_zero
  received := Counts.amount_zero
  submitted := Counts.amount_zero
  startup := Counts.amount_zero
  startup_le := fun d => Nat.zero_le _
  regular_le := fun d => (Nat.zero_add _).trans_le (startupPool_le _ d)

theorem Restored.new (relay : RelayIdentity) (destination : ConnectionRef) (limits : Limits)
    (maxFlows : Nat) : Restored (.new relay destination limits maxFlows) where
  ready := ⟨new_books relay destination limits maxFlows none, fun i e he => (by cases he),
    fun _ _ => rfl⟩
  routed := fun i e he => by cases he
  distinct := fun i j e e' he => by cases he
  idle := fun i e he => by cases he
  closed := fun _ _ => rfl

/-- `restore` does not panic, and what it accepts is sound. -/
theorem wp_restore (relay : RelayIdentity) (destination : ConnectionRef) (limits : Limits)
    (maxFlows : Nat) (checkpoint : LedgerCheckpoint) (allocates : Nat → Bool) :
    wp (restore maxFlows checkpoint allocates) (fun _ l => Restored l) (fun _ _ => True)
      (new relay destination limits maxFlows) := by
  unfold restore
  simp only [wp_bind, wp_get, wp_require, wp_modify, wp_expect, implies_true, and_true]
  intro _ _ _
  obtain ⟨pools, hpools, -⟩ := exists_capacityPools
    { new relay destination limits maxFlows with receiveCapacity := checkpoint.receiveCapacity }
  refine ⟨pools, hpools, ?_⟩
  have hstart : Restoring relay destination pools [] { new relay destination limits maxFlows with
      receiveCapacity := checkpoint.receiveCapacity } :=
    ⟨rfl, rfl, hpools, new_books _ _ _ _ _, fun i e he => (by cases he), fun e he => (by cases he),
      fun e he => (by cases he), fun h => absurd rfl h⟩
  apply wp_restoreEntries (fun _ _ => trivial) checkpoint.entries [] _ hstart
  intro l' h'
  split
  · rename_i hstate
    rw [wp_bind, wp_require]
    refine ⟨fun _ => ?_, fun _ => trivial⟩
    exact h'.restored fun hclosed => by rw [hstate] at hclosed; cases hclosed
  · rw [wp_bind, wp_require]
    refine ⟨fun hempty => ?_, fun _ => trivial⟩
    exact h'.restored fun _ => hempty
  · rename_i hstate
    exact h'.restored fun hclosed => by rw [hstate] at hclosed; cases hclosed

end ConnectionLedger

end Windshare.Relay.Flow
