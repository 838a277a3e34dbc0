import Windshare.Capacity.Accounting

/-!
# Ceilings of a ledger tree

Results about whole programs. No call of a program wraps a 64-bit counter, every
counter is what the live holds of its subtree add up to, and closing a ledger
puts a ceiling on every account below it: none of them is charged again.
-/

namespace Windshare.Capacity

open Windshare.Library

namespace Heap

variable (h : Heap)

/-! ## The arithmetic a call performs -/

/-- The records a loop over ledger `l` and its ancestors visits. -/
def accountRecords (l : Nat) : List Ledger := (h.accounts l).filterMap (h.ledgers[·]?)

theorem mem_accountRecords {l : Nat} {a : Ledger} :
    a ∈ h.accountRecords l ↔ ∃ i ∈ h.accounts l, h.ledgers[i]? = some a := by
  simp [accountRecords]

/-- The subtractions of `Available`; its loop stops early at a closed account. -/
def availableArith (l : Nat) : List Arith :=
  (h.accountRecords l).map fun a => .sub a.limit a.used

def releaseArith (hold : Hold) : List Arith :=
  match h.activeState hold with
  | none => []
  | some (_, s) => (h.accountRecords s.ledger).flatMap fun a =>
    [.sub a.used s.units, .sub a.holds 1]

def transferArith (hold : Hold) : List Arith :=
  match h.activeState hold with
  | none => []
  | some (_, s) => if s.generation = maxUint64 then [] else [.add s.generation 1]

def splitArith (hold : Hold) (units : UInt64) : List Arith :=
  match h.activeState hold with
  | none => []
  | some (_, s) =>
    if units = 0 ∨ s.units < units then []
    else if units = s.units then h.transferArith hold
    else .sub s.units units :: (h.accountRecords s.ledger).map fun a => .add a.holds 1

def growArith (hold : Hold) (units : UInt64) : List Arith :=
  match h.activeState hold with
  | none => []
  | some (_, s) => h.availableArith s.ledger ++
      if h.available s.ledger < units then []
      else .add s.units units :: (h.accountRecords s.ledger).map fun a => .add a.used units

def shrinkArith (hold : Hold) (units : UInt64) : List Arith :=
  match h.activeState hold with
  | none => []
  | some (_, s) =>
    if s.units < units then []
    else if units = s.units then h.releaseArith hold
    else .sub s.units units :: (h.accountRecords s.ledger).map fun a => .sub a.used units

/-- Every `uint64` addition and subtraction that a call executes. -/
def arithmetic : Call → List Arith
  | .new _ => []
  | .child _ _ => []
  | .close _ => []
  | .reserve l units => h.availableArith l ++
      if units = 0 ∨ h.available l < units then []
      else (h.accountRecords l).flatMap fun a => [.add a.used units, .add a.holds 1]
  | .release hold => h.releaseArith hold
  | .transfer hold => h.transferArith hold
  | .split hold units => h.splitArith hold units
  | .grow hold units => h.growArith hold units
  | .shrink hold units => h.shrinkArith hold units

namespace Balanced

variable {h} {x : Arith} {hold : Hold} {units : UInt64}

theorem availableArith_exact (hb : h.Balanced) {l : Nat} (hx : x ∈ h.availableArith l) :
    x.Exact := by
  obtain ⟨a, ha, rfl⟩ := List.mem_map.mp hx
  obtain ⟨i, -, hi⟩ := h.mem_accountRecords.mp ha
  exact UInt64.le_iff_toNat_le.mp (hb.used_le hi)

theorem releaseArith_exact (hb : h.Balanced) (hx : x ∈ h.releaseArith hold) : x.Exact := by
  unfold releaseArith at hx
  split at hx
  · simp at hx
  · next k s hs =>
      obtain ⟨a, ha, hx⟩ := List.mem_flatMap.mp hx
      obtain ⟨i, hi, ha⟩ := h.mem_accountRecords.mp ha
      obtain ⟨hunits, hcount⟩ := hb.units_le_used hs hi ha
      rcases List.mem_pair.mp hx with rfl | rfl
      · exact hunits
      · exact hcount

theorem transferArith_exact (hx : x ∈ h.transferArith hold) : x.Exact := by
  unfold transferArith at hx
  split at hx
  · simp at hx
  · next k s hs =>
      split at hx
      · simp at hx
      · next hgen =>
          obtain rfl := List.mem_singleton.mp hx
          have hlt := s.generation.toNat_lt
          have hne : s.generation.toNat ≠ maxUint64.toNat := fun h0 =>
            hgen (UInt64.toNat_inj.mp h0)
          change s.generation.toNat + 1 < 2 ^ 64
          have hmax : maxUint64.toNat = 2 ^ 64 - 1 := rfl
          omega

theorem splitArith_exact (hb : h.Balanced) (hx : x ∈ h.splitArith hold units) : x.Exact := by
  unfold splitArith at hx
  split at hx
  · simp at hx
  · next k s hs =>
      split at hx
      · simp at hx
      · next hguard =>
          rw [not_or] at hguard
          split at hx
          · exact transferArith_exact hx
          · next hpart =>
              have hlt := UInt64.lt_of_le_of_ne (UInt64.not_lt.mp hguard.2) hpart
              rcases List.mem_cons.mp hx with rfl | hx
              · exact (part_exact (UInt64.lt_iff_toNat_lt.mp hlt)).1
              · obtain ⟨a, ha, rfl⟩ := List.mem_map.mp hx
                obtain ⟨i, hi, ha⟩ := h.mem_accountRecords.mp ha
                exact hb.part_holds_exact hs hguard.1 hlt hi ha

theorem growArith_exact (hb : h.Balanced) (hx : x ∈ h.growArith hold units) : x.Exact := by
  unfold growArith at hx
  split at hx
  · simp at hx
  · next k s hs =>
      rcases List.mem_append.mp hx with hx | hx
      · exact hb.availableArith_exact hx
      · split at hx
        · simp at hx
        · next hfits =>
            have hfits := UInt64.not_lt.mp hfits
            rcases List.mem_cons.mp hx with rfl | hx
            · exact hb.grow_units_exact hs hfits
            · obtain ⟨a, ha, rfl⟩ := List.mem_map.mp hx
              obtain ⟨i, hi, ha⟩ := h.mem_accountRecords.mp ha
              exact (hb.grow_exact hs hfits hi ha).1

theorem shrinkArith_exact (hb : h.Balanced) (hx : x ∈ h.shrinkArith hold units) : x.Exact := by
  unfold shrinkArith at hx
  split at hx
  · simp at hx
  · next k s hs =>
      split at hx
      · simp at hx
      · next hle =>
          split at hx
          · exact hb.releaseArith_exact hx
          · next hpart =>
              have hlt := UInt64.lt_iff_toNat_lt.mp
                (UInt64.lt_of_le_of_ne (UInt64.not_lt.mp hle) hpart)
              rcases List.mem_cons.mp hx with rfl | hx
              · exact hlt.le
              · obtain ⟨a, ha, rfl⟩ := List.mem_map.mp hx
                obtain ⟨i, hi, ha⟩ := h.mem_accountRecords.mp ha
                exact hlt.le.trans (hb.units_le_used hs hi ha).1

/-- No call of a balanced heap wraps a counter. -/
theorem arithmetic_exact (hb : h.Balanced) (c : Call) (hx : x ∈ h.arithmetic c) : x.Exact := by
  cases c with
  | new | child | close => simp [arithmetic] at hx
  | reserve =>
    rcases List.mem_append.mp hx with hx | hx
    · exact hb.availableArith_exact hx
    · split at hx
      · simp at hx
      · next hguard =>
          rw [not_or] at hguard
          obtain ⟨a, ha, hx⟩ := List.mem_flatMap.mp hx
          obtain ⟨i, hi, ha⟩ := h.mem_accountRecords.mp ha
          have hexact := hb.reserve_exact hguard.1 (UInt64.not_lt.mp hguard.2) hi ha
          rcases List.mem_pair.mp hx with rfl | rfl
          · exact hexact.1
          · exact hexact.2
  | release => exact hb.releaseArith_exact hx
  | transfer => exact transferArith_exact hx
  | split => exact hb.splitArith_exact hx
  | grow => exact hb.growArith_exact hx
  | shrink => exact hb.shrinkArith_exact hx

end Balanced

/-! ## Closed subtrees -/

/-- The `used` counter of ledger `i`, zero before the ledger exists. -/
def usedOf (i : Nat) : ℕ := ((h.ledgers[i]?.map Ledger.used).getD 0).toNat

/-- Ledger `l` exists and is closed. -/
def IsClosed (l : Nat) : Prop := ∃ a, h.ledgers[l]? = some a ∧ a.closed = true

section Closing

variable {h} {c : Call} {h' : Heap} {r : Reply} {l i : Nat}

/-- A loop over accounts that does not raise the counters it visits raises none. -/
theorem usedOf_updateAccounts_le {used holds : UInt64 → UInt64}
    (hle : ∀ a, i ∈ h.accounts l → h.ledgers[i]? = some a → (used a.used).toNat ≤ a.used.toNat) :
    (h.updateAccounts l used holds).usedOf i ≤ h.usedOf i := by
  simp only [usedOf, ledgers_updateAccounts]
  split
  · next hi =>
      cases ha : h.ledgers[i]? with
      | none => exact le_rfl
      | some a => exact hle a hi ha
  · exact le_rfl

/-- Ledgers only ever appear; the ancestors of an old one never change. -/
theorem Effect.accounts_eq (he : h.Effect c h' r) (hi : i < h.ledgers.length) :
    i < h'.ledgers.length ∧ h'.accounts i = h.accounts i := by
  cases he with
  | refused => exact ⟨hi, rfl⟩
  | allocated => exact ⟨by simp [allocLedger]; omega, accounts_allocLedger hi⟩
  | closed => exact ⟨by simpa [setClosed] using hi, accounts_setClosed⟩
  | reserved | released | transferred | parted | grown | shrunk =>
    exact ⟨by simpa using hi, by simp⟩

theorem isClosed_updateAccounts {used holds : UInt64 → UInt64} (hl : h.IsClosed i) :
    (h.updateAccounts l used holds).IsClosed i := by
  obtain ⟨a, ha, hclosed⟩ := hl
  by_cases hi : i ∈ h.accounts l
  · exact ⟨Ledger.update used holds a, by simp [ledgers_updateAccounts, hi, ha], hclosed⟩
  · exact ⟨a, by simp [ledgers_updateAccounts, hi, ha], hclosed⟩

theorem Effect.isClosed (he : h.Effect c h' r) (hl : h.IsClosed l) : h'.IsClosed l := by
  cases he with
  | refused | transferred => exact hl
  | allocated =>
    obtain ⟨b, hb, hclosed⟩ := hl
    have hlt := (List.getElem?_eq_some_iff.mp hb).1
    exact ⟨b, by simpa only [allocLedger, List.getElem?_append_left hlt] using hb, hclosed⟩
  | closed j =>
    obtain ⟨b, hb, hclosed⟩ := hl
    by_cases hj : j = l
    · exact ⟨b.close, by simp [setClosed, hj, hb], rfl⟩
    · exact ⟨b, by simp [setClosed, hj, hb], hclosed⟩
  | reserved | released | grown | shrunk => exact isClosed_updateAccounts hl
  | parted => exact isClosed_updateAccounts (h := h.setState _ _ _) hl

/-- A closed account admits no units. -/
theorem eq_zero_of_isClosed {u : UInt64} (hl : h.IsClosed l) (hmem : l ∈ h.accounts i)
    (hle : u ≤ h.available i) : u = 0 := by
  by_contra hu
  obtain ⟨a, ha, hclosed⟩ := hl
  have := (h.le_available hu hle hmem ha).1
  simp [hclosed] at this

/-- What is charged below a closed ledger does not grow in one call. -/
theorem Effect.usedOf_le (hb : h.Balanced) (he : h.Effect c h' r) (hl : h.IsClosed l)
    (hmem : l ∈ h'.accounts i) : h'.usedOf i ≤ h.usedOf i := by
  cases he with
  | refused | transferred => exact le_rfl
  | allocated =>
    simp only [usedOf, allocLedger, List.getElem?_append, List.getElem?_singleton]
    grind
  | closed j =>
    simp only [usedOf, setClosed, List.getElem?_modify]
    cases h.ledgers[i]? with
    | none => simp
    | some => by_cases hj : j = i <;> simp [hj, Ledger.close]
  | @reserved j units _ hpos hfits =>
    refine usedOf_updateAccounts_le fun a hi _ => ?_
    rw [accounts_allocState, accounts_updateAccounts] at hmem
    exact absurd (eq_zero_of_isClosed hl (h.parents.mem_chain_trans hi hmem) hfits) hpos
  | released _ hactive =>
    refine usedOf_updateAccounts_le fun a hi ha => ?_
    rw [toNat_sub_of_exact (hb.units_le_used hactive hi ha).1]
    exact Nat.sub_le _ _
  | parted => exact usedOf_updateAccounts_le (h := h.setState _ _ _) fun a _ _ => le_rfl
  | grown hactive hfits =>
    refine usedOf_updateAccounts_le fun a hi _ => ?_
    rw [accounts_setState, accounts_updateAccounts] at hmem
    rw [eq_zero_of_isClosed hl (h.parents.mem_chain_trans hi hmem) hfits, UInt64.add_zero]
  | shrunk hactive hlt =>
    refine usedOf_updateAccounts_le fun a hi ha => ?_
    have hle := (UInt64.lt_iff_toNat_lt.mp hlt).le
    rw [toNat_sub_of_exact (hle.trans (hb.units_le_used hactive hi ha).1)]
    exact Nat.sub_le _ _

end Closing

/-! ## Whole programs -/

/-- The live holds reserved in the subtree of ledger `i`. -/
def liveHolds (i : Nat) : List HoldState :=
  h.states.filter fun s => s.units ≠ 0 ∧ i ∈ h.accounts s.ledger

theorem sum_liveHolds (i : Nat) :
    ((h.liveHolds i).map fun s => s.units.toNat).sum = h.tally UInt64.toNat i := by
  rw [liveHolds, sum_map_filter]
  refine congrArg List.sum (List.map_congr_left fun s _ => ?_)
  by_cases hu : s.units = 0 <;> simp [hu]

theorem length_liveHolds (i : Nat) : (h.liveHolds i).length = h.tally liveCount i := by
  have hlen : (h.liveHolds i).length = ((h.liveHolds i).map fun _ => 1).sum := by simp
  rw [hlen, liveHolds, sum_map_filter]
  refine congrArg List.sum (List.map_congr_left fun s _ => ?_)
  by_cases hu : s.units = 0 <;> simp [hu, liveCount]

end Heap

theorem reachable_balanced {h : Heap} (hr : program.Reachable h) : h.Balanced := by
  refine hr.invariant ?_ ?_
  · rintro _ rfl
    exact Heap.empty_balanced
  · rintro s c _ hb rfl
    exact hb.effect (s.call_effect c)

/-- Below a closed ledger no counter grows over any further calls. -/
theorem usedOf_le_of_later {h h' : Heap} {l : Nat} (hr : program.Reachable h) (hl : h.IsClosed l)
    (hrun : program.Later h h') :
    ∀ i, l ∈ h'.accounts i → h'.usedOf i ≤ h.usedOf i := by
  refine (hrun.stable_of_reachable (P := fun t => t.IsClosed l ∧
    ∀ i, l ∈ t.accounts i → t.usedOf i ≤ h.usedOf i) hr ⟨hl, fun i _ => le_rfl⟩ ?_).2
  rintro t c _ ht ⟨hclosed, hle⟩ rfl
  have he : t.Effect c (t.next c) (t.call c).2 := t.call_effect c
  refine ⟨he.isClosed hclosed, fun i hi => ?_⟩
  have hstep := he.usedOf_le (reachable_balanced ht) hclosed hi
  rcases Nat.lt_or_ge i t.ledgers.length with hlt | hge
  · rw [(he.accounts_eq hlt).2] at hi
    exact hstep.trans (hle i hi)
  · -- A ledger created by this call starts with nothing charged to it.
    have hzero : t.usedOf i = 0 := by simp [Heap.usedOf, List.getElem?_eq_none hge]
    exact hstep.trans (hzero.le.trans (Nat.zero_le _))

/-- In every state a program reaches, counters are the totals of the live holds
below them and respect their limits, no call wraps, and closed subtrees are
never charged again. -/
theorem program_accounts {h : Heap} (hr : program.Reachable h) :
    (∀ i a, h.ledgers[i]? = some a →
      a.used.toNat = ((h.liveHolds i).map fun s => s.units.toNat).sum ∧
      a.holds.toNat = (h.liveHolds i).length ∧
      a.used ≤ a.limit ∧
      ∀ p b, a.parent = some p → h.ledgers[p]? = some b → a.limit ≤ b.limit) ∧
    (∀ c, ∀ x ∈ h.arithmetic c, x.Exact) ∧
    (∀ l, h.IsClosed l → ∀ h', program.Later h h' →
      ∀ i, l ∈ h'.accounts i → h'.usedOf i ≤ h.usedOf i) := by
  have hb := reachable_balanced hr
  refine ⟨fun i a ha => ?_, fun c x hx => hb.arithmetic_exact c hx, fun l hl h' hrun =>
    usedOf_le_of_later hr hl hrun⟩
  rw [h.sum_liveHolds, h.length_liveHolds]
  exact ⟨hb.used_eq ha, hb.holds_eq ha, hb.used_le ha, fun p b hp hbp => hb.limit_le ha hp hbp⟩

/-- A parent of limit 10 with a closed child that still holds 4 units. -/
def closedChildHeap : Heap :=
  [Call.new 10, .child 0 20, .reserve 1 4, .close 1].foldl Heap.next Heap.empty

theorem program_accounts_closedChild :
    closedChildHeap.usedOf 0 = 4 ∧
      ∀ h', program.Later closedChildHeap h' →
        ∀ i, 1 ∈ h'.accounts i → h'.usedOf i ≤ closedChildHeap.usedOf i :=
  ⟨by decide, (program_accounts (reachable_calls _)).2.2 1
    ⟨⟨some 0, 10, 4, 1, true⟩, by decide, rfl⟩⟩

end Windshare.Capacity
