import Windshare.Capacity.Program
import Windshare.Library.Word64

/-!
# Ledger accounting

Counters are replicated along every ancestor of a ledger, while the truth they
describe is the list of hold records. `tally` reads that truth directly: it sums
a weight over the records charged to an account. `Balanced` says that every
counter agrees with its tally and respects its limit, and it is kept by every
call of a program.
-/

namespace Windshare.Capacity

open Windshare.Library

/-- One for a record that still has units, zero for a spent one. -/
def liveCount (units : UInt64) : ℕ := if units = 0 then 0 else 1

@[simp] theorem liveCount_zero : liveCount 0 = 0 := rfl

theorem liveCount_of_ne {u : UInt64} (h : u ≠ 0) : liveCount u = 1 := if_neg h

theorem liveCount_le (u : UInt64) : liveCount u ≤ u.toNat := by
  unfold liveCount
  split
  · exact Nat.zero_le _
  · next hu => exact toNat_pos_of_ne_zero hu

namespace Heap

variable (h : Heap)

/-- The sum of a weight over the hold records charged to account `i`, that is,
reserved in the subtree of ledger `i`. -/
def tally (w : UInt64 → ℕ) (i : Nat) : ℕ :=
  (h.states.map fun s => if i ∈ h.accounts s.ledger then w s.units else 0).sum

variable {h' : Heap} {used holds : UInt64 → UInt64}

section Tally

variable {h} {w : UInt64 → ℕ} {i k l : Nat} {u g : UInt64} {s : HoldState}

/-- Tallies look at the records and at the tree, not at counters. -/
theorem tally_congr (hstates : h'.states = h.states)
    (haccounts : ∀ s ∈ h.states, h'.accounts s.ledger = h.accounts s.ledger) :
    h'.tally w i = h.tally w i := by
  unfold tally
  rw [hstates]
  refine congrArg List.sum (List.map_congr_left fun s hs => ?_)
  rw [haccounts s hs]

@[simp] theorem tally_updateAccounts : (h.updateAccounts l used holds).tally w i = h.tally w i :=
  tally_congr rfl fun _ _ => accounts_updateAccounts

@[simp] theorem tally_setClosed : (h.setClosed l).tally w i = h.tally w i :=
  tally_congr rfl fun _ _ => accounts_setClosed

@[simp] theorem tally_updateAccounts_setState :
    ((h.updateAccounts l used holds).setState k u g).tally w i = (h.setState k u g).tally w i :=
  tally_congr rfl fun _ _ => accounts_updateAccounts

theorem tally_setState_of_mem (hs : h.states[k]? = some s) (hi : i ∈ h.accounts s.ledger) :
    (h.setState k u g).tally w i + w s.units = h.tally w i + w u := by
  have hsum := sum_map_modify (fun s => if i ∈ h.accounts s.ledger then w s.units else 0)
    (fun s => { s with units := u, generation := g }) hs
  rw [if_pos hi, if_pos hi] at hsum
  exact hsum

theorem tally_setState_of_not_mem (hs : h.states[k]? = some s) (hi : i ∉ h.accounts s.ledger) :
    (h.setState k u g).tally w i = h.tally w i := by
  have hsum := sum_map_modify (fun s => if i ∈ h.accounts s.ledger then w s.units else 0)
    (fun s => { s with units := u, generation := g }) hs
  rw [if_neg hi, if_neg hi] at hsum
  exact hsum

theorem tally_allocState {hl : l < h.ledgers.length} :
    (h.allocState l u hl).tally w i = h.tally w i + if i ∈ h.accounts l then w u else 0 := by
  simp only [tally, states_allocState, accounts_allocState, List.map_append, List.sum_append,
    List.map_cons, List.map_nil, List.sum_cons, List.sum_nil]
  rfl

theorem tally_allocLedger {a : Ledger} {ha : ∀ p, a.parent = some p → p < h.ledgers.length} :
    (h.allocLedger a ha).tally w i = h.tally w i :=
  tally_congr rfl fun s hs => accounts_allocLedger (h.ledger_lt s hs)

/-- No record is charged to a ledger that does not exist yet. -/
theorem tally_eq_zero (hi : h.ledgers.length ≤ i) : h.tally w i = 0 := by
  refine List.sum_eq_zero fun n hn => ?_
  obtain ⟨s, hs, rfl⟩ := List.mem_map.mp hn
  refine if_neg fun hmem => ?_
  have hle := le_of_mem_accounts hmem
  have hlt := h.ledger_lt s hs
  omega

theorem le_tally (hs : h.states[k]? = some s) (hi : i ∈ h.accounts s.ledger) :
    w s.units ≤ h.tally w i := by
  have hle := le_sum_map (fun s => if i ∈ h.accounts s.ledger then w s.units else 0) hs
  rw [if_pos hi] at hle
  exact hle

/-- Live records have at least one unit each. -/
theorem tally_liveCount_le : h.tally liveCount i ≤ h.tally UInt64.toNat i := by
  refine List.sum_le_sum fun s _ => ?_
  split
  · exact liveCount_le s.units
  · exact le_rfl

end Tally

/-! ## Admission -/

/-- Nonzero units that are available along a list of accounts fit every one of
them, and none of them is closed. -/
theorem le_availableAlong {is : List Nat} {u acc : UInt64}
    (hvalid : ∀ i ∈ is, i < h.ledgers.length) (hu : u ≠ 0) (hle : u ≤ h.availableAlong is acc) :
    u ≤ acc ∧ ∀ i ∈ is, ∀ a, h.ledgers[i]? = some a → a.closed = false ∧ u ≤ a.limit - a.used := by
  induction is generalizing acc with
  | nil => exact ⟨hle, by simp⟩
  | cons j js ih =>
    have hj : j < h.ledgers.length := hvalid j List.mem_cons_self
    have hjs : ∀ i ∈ js, i < h.ledgers.length := fun i hi => hvalid i (List.mem_cons_of_mem j hi)
    simp only [availableAlong, List.getElem?_eq_getElem hj] at hle
    split at hle
    · -- A closed account leaves nothing available.
      exact absurd (UInt64.le_antisymm hle UInt64.zero_le) hu
    · next hopen =>
        obtain ⟨hmin, hrest⟩ := ih hjs hle
        refine ⟨Std.le_trans hmin Std.min_le_left, fun i hi a ha => ?_⟩
        rcases List.mem_cons.mp hi with rfl | hi
        · obtain rfl : h.ledgers[i] = a :=
            Option.some.inj ((List.getElem?_eq_getElem hj).symm.trans ha)
          exact ⟨by simpa using hopen, Std.le_trans hmin Std.min_le_right⟩
        · exact hrest i hi a ha

theorem le_available {l i : Nat} {u : UInt64} {a : Ledger} (hu : u ≠ 0) (hle : u ≤ h.available l)
    (hi : i ∈ h.accounts l) (ha : h.ledgers[i]? = some a) :
    a.closed = false ∧ u ≤ a.limit - a.used := by
  unfold available at hle
  split at hle
  · exact absurd (UInt64.le_antisymm hle UInt64.zero_le) hu
  · next b hb =>
      have hl := (List.getElem?_eq_some_iff.mp hb).1
      have hvalid : ∀ j ∈ h.accounts l, j < h.ledgers.length :=
        fun j hj => (le_of_mem_accounts hj).trans_lt hl
      exact (h.le_availableAlong hvalid hu hle).2 i hi a ha

/-! ## The invariant -/

/-- Every counter agrees with the hold records and respects its limit. -/
structure Balanced : Prop where
  used_eq : ∀ {i : Nat} {a : Ledger}, h.ledgers[i]? = some a → a.used.toNat = h.tally UInt64.toNat i
  holds_eq : ∀ {i : Nat} {a : Ledger}, h.ledgers[i]? = some a → a.holds.toNat = h.tally liveCount i
  used_le : ∀ {i : Nat} {a : Ledger}, h.ledgers[i]? = some a → a.used ≤ a.limit
  limit_le : ∀ {i p : Nat} {a b : Ledger}, h.ledgers[i]? = some a → a.parent = some p →
    h.ledgers[p]? = some b → a.limit ≤ b.limit

theorem empty_balanced : empty.Balanced := by
  constructor <;> simp [empty]

namespace Balanced

variable {h} {i k l : Nat} {a : Ledger} {s : HoldState} {hold : Hold} {u : UInt64}

section

variable (hb : h.Balanced)

include hb

theorem holds_le_used (ha : h.ledgers[i]? = some a) : a.holds.toNat ≤ a.used.toNat := by
  rw [hb.holds_eq ha, hb.used_eq ha]
  exact tally_liveCount_le

/-- Available units fit below the limit of every account they would be charged to. -/
theorem used_add_le (hle : u ≤ h.available l) (hi : i ∈ h.accounts l)
    (ha : h.ledgers[i]? = some a) : a.used.toNat + u.toNat ≤ a.limit.toNat := by
  have hlimit := UInt64.le_iff_toNat_le.mp (hb.used_le ha)
  by_cases hu : u = 0
  · simpa [hu] using hlimit
  · have hroom := UInt64.le_iff_toNat_le.mp (h.le_available hu hle hi ha).2
    rw [toNat_sub_of_exact hlimit] at hroom
    omega

/-- An active hold is part of every counter it is charged to. -/
theorem units_le_used (hs : h.activeState hold = some (k, s))
    (hi : i ∈ h.accounts s.ledger) (ha : h.ledgers[i]? = some a) :
    s.units.toNat ≤ a.used.toNat ∧ 1 ≤ a.holds.toNat := by
  obtain ⟨-, hs, hlive, -⟩ := h.activeState_eq_some.mp hs
  rw [hb.used_eq ha, hb.holds_eq ha, ← liveCount_of_ne hlive]
  exact ⟨le_tally hs hi, le_tally hs hi⟩

/-! ### Exactness

The additions and subtractions of each method stay inside 64 bits. -/

theorem reserve_exact (hpos : u ≠ 0) (hfits : u ≤ h.available l)
    (hi : i ∈ h.accounts l) (ha : h.ledgers[i]? = some a) :
    (Arith.add a.used u).Exact ∧ (Arith.add a.holds 1).Exact := by
  have hlimit := hb.used_add_le hfits hi ha
  have hlt := a.limit.toNat_lt
  have hcount := hb.holds_le_used ha
  have hu := toNat_pos_of_ne_zero hpos
  constructor
  · change a.used.toNat + u.toNat < 2 ^ 64
    omega
  · change a.holds.toNat + 1 < 2 ^ 64
    omega

theorem grow_exact (hs : h.activeState hold = some (k, s))
    (hfits : u ≤ h.available s.ledger) (hi : i ∈ h.accounts s.ledger)
    (ha : h.ledgers[i]? = some a) :
    (Arith.add a.used u).Exact ∧ (Arith.add s.units u).Exact := by
  have hlimit := hb.used_add_le hfits hi ha
  have hlt := a.limit.toNat_lt
  have hcharged := (hb.units_le_used hs hi ha).1
  constructor
  · change a.used.toNat + u.toNat < 2 ^ 64
    omega
  · change s.units.toNat + u.toNat < 2 ^ 64
    omega

theorem grow_units_exact (hs : h.activeState hold = some (k, s))
    (hfits : u ≤ h.available s.ledger) : (Arith.add s.units u).Exact := by
  have hl := h.ledger_lt s (List.mem_of_getElem? (h.activeState_eq_some.mp hs).2.1)
  exact (hb.grow_exact hs hfits mem_accounts_self (List.getElem?_eq_getElem hl)).2

end

theorem part_exact {u v : UInt64} (hlt : u.toNat < v.toNat) :
    (Arith.sub v u).Exact ∧ v - u ≠ 0 := by
  have hexact : (Arith.sub v u).Exact := hlt.le
  refine ⟨hexact, fun h0 => ?_⟩
  have hzero := congrArg UInt64.toNat h0
  rw [toNat_sub_of_exact hexact, UInt64.toNat_zero] at hzero
  omega

section

variable (hb : h.Balanced)

include hb

/-- What other units of a live record do to the tallies of its accounts. -/
theorem tally_setState (hs : h.activeState hold = some (k, s))
    (hi : i ∈ h.accounts s.ledger) (ha : h.ledgers[i]? = some a) {v : UInt64} (hv : v ≠ 0) :
    (h.setState k v s.generation).tally UInt64.toNat i + s.units.toNat =
        a.used.toNat + v.toNat ∧
      (h.setState k v s.generation).tally liveCount i + 1 = a.holds.toNat + 1 := by
  obtain ⟨-, hk, hlive, -⟩ := h.activeState_eq_some.mp hs
  have hsum := tally_setState_of_mem (w := UInt64.toNat) (u := v) (g := s.generation) hk hi
  have hcount := tally_setState_of_mem (w := liveCount) (u := v) (g := s.generation) hk hi
  rw [← hb.used_eq ha] at hsum
  rw [← hb.holds_eq ha, liveCount_of_ne hv, liveCount_of_ne hlive] at hcount
  exact ⟨hsum, hcount⟩

/-- After a proper split the two parts are two live records within the same units. -/
theorem part_holds_exact (hs : h.activeState hold = some (k, s)) (hpos : u ≠ 0)
    (hlt : u < s.units) (hi : i ∈ h.accounts s.ledger) (ha : h.ledgers[i]? = some a) :
    (Arith.add a.holds 1).Exact := by
  obtain ⟨-, hk, hlive, -⟩ := h.activeState_eq_some.mp hs
  have hle := UInt64.lt_iff_toNat_lt.mp hlt
  obtain ⟨hunits, hlive'⟩ := part_exact hle
  have hu := toNat_pos_of_ne_zero hpos
  obtain ⟨hsum, hcount⟩ := hb.tally_setState hs hi ha hlive'
  rw [toNat_sub_of_exact hunits] at hsum
  have hbound := tally_liveCount_le (h := h.setState k (s.units - u) s.generation) (i := i)
  have hlt := a.used.toNat_lt
  change a.holds.toNat + 1 < 2 ^ 64
  omega

/-- Updating the counters along one chain of accounts keeps the balance when the
new counters are the new tallies. -/
theorem recharge (hledgers : h'.ledgers = (h.updateAccounts l used holds).ledgers)
    (inside : ∀ i a, h.ledgers[i]? = some a → i ∈ h.accounts l →
      (used a.used).toNat = h'.tally UInt64.toNat i ∧
        (holds a.holds).toNat = h'.tally liveCount i ∧ used a.used ≤ a.limit)
    (outside : ∀ w i, i ∉ h.accounts l → h'.tally w i = h.tally w i) : h'.Balanced := by
  have split : ∀ {i a}, h'.ledgers[i]? = some a → ∃ b, h.ledgers[i]? = some b ∧
      (i ∈ h.accounts l ∧ a = Ledger.update used holds b ∨ i ∉ h.accounts l ∧ a = b) := by
    intro i a ha
    rw [hledgers, ledgers_updateAccounts] at ha
    by_cases hi : i ∈ h.accounts l
    · rw [if_pos hi] at ha
      obtain ⟨b, hb, rfl⟩ := Option.map_eq_some_iff.mp ha
      exact ⟨b, hb, .inl ⟨hi, rfl⟩⟩
    · rw [if_neg hi] at ha
      exact ⟨a, ha, .inr ⟨hi, rfl⟩⟩
  constructor
  · intro i a ha
    obtain ⟨b, hbi, ⟨hi, rfl⟩ | ⟨hi, rfl⟩⟩ := split ha
    · exact (inside i b hbi hi).1
    · rw [outside _ i hi, hb.used_eq hbi]
  · intro i a ha
    obtain ⟨b, hbi, ⟨hi, rfl⟩ | ⟨hi, rfl⟩⟩ := split ha
    · exact (inside i b hbi hi).2.1
    · rw [outside _ i hi, hb.holds_eq hbi]
  · intro i a ha
    obtain ⟨b, hbi, ⟨hi, rfl⟩ | ⟨hi, rfl⟩⟩ := split ha
    · exact (inside i b hbi hi).2.2
    · exact hb.used_le hbi
  · intro i p a c ha hp hc
    obtain ⟨b, hbi, hab⟩ := split ha
    obtain ⟨d, hdp, hcd⟩ := split hc
    have hparent : a.parent = b.parent ∧ a.limit = b.limit := by
      rcases hab with ⟨-, rfl⟩ | ⟨-, rfl⟩ <;> exact ⟨rfl, rfl⟩
    have hlimit : c.limit = d.limit := by
      rcases hcd with ⟨-, rfl⟩ | ⟨-, rfl⟩ <;> rfl
    rw [hparent.2, hlimit]
    exact hb.limit_le hbi (hparent.1 ▸ hp) hdp

theorem allocLedger (ha : ∀ p, a.parent = some p → p < h.ledgers.length)
    (hused : a.used = 0) (hholds : a.holds = 0)
    (hlimit : ∀ p b, a.parent = some p → h.ledgers[p]? = some b → a.limit ≤ b.limit) :
    (h.allocLedger a ha).Balanced := by
  have split : ∀ {i b}, (h.allocLedger a ha).ledgers[i]? = some b →
      h.ledgers[i]? = some b ∨ i = h.ledgers.length ∧ b = a := by
    intro i b hi
    simp only [Heap.allocLedger, List.getElem?_append, List.getElem?_singleton] at hi
    grind
  constructor
  · intro i b hi
    rw [tally_allocLedger]
    rcases split hi with hi | ⟨rfl, rfl⟩
    · exact hb.used_eq hi
    · rw [hused, tally_eq_zero le_rfl]
      rfl
  · intro i b hi
    rw [tally_allocLedger]
    rcases split hi with hi | ⟨rfl, rfl⟩
    · exact hb.holds_eq hi
    · rw [hholds, tally_eq_zero le_rfl]
      rfl
  · intro i b hi
    rcases split hi with hi | ⟨rfl, rfl⟩
    · exact hb.used_le hi
    · rw [hused]
      exact UInt64.zero_le
  · intro i p b c hi hp hc
    have hparent : p < h.ledgers.length := by
      rcases split hi with hi | ⟨-, rfl⟩
      · have := (List.getElem?_eq_some_iff.mp hi).1
        have := h.parent_lt i p (by simpa [hi] using hp)
        omega
      · exact ha p hp
    have hold : h.ledgers[p]? = some c := by
      rcases split hc with hc | ⟨rfl, -⟩
      · exact hc
      · omega
    rcases split hi with hi | ⟨-, rfl⟩
    · exact hb.limit_le hi hp hold
    · exact hlimit p c hp hold

theorem setClosed : (h.setClosed l).Balanced := by
  have split : ∀ {i : Nat} {b : Ledger}, (h.setClosed l).ledgers[i]? = some b →
      ∃ c : Ledger, h.ledgers[i]? = some c ∧ b.parent = c.parent ∧ b.limit = c.limit ∧
        b.used = c.used ∧ b.holds = c.holds := by
    intro i b hi
    simp only [Heap.setClosed, List.getElem?_modify] at hi
    obtain ⟨c, hc, rfl⟩ := Option.map_eq_some_iff.mp hi
    refine ⟨c, hc, ?_⟩
    by_cases hl : l = i <;> simp [hl, Ledger.close]
  constructor
  · intro i b hi
    obtain ⟨c, hc, -, -, hu, -⟩ := split hi
    rw [tally_setClosed, hu, hb.used_eq hc]
  · intro i b hi
    obtain ⟨c, hc, -, -, -, hh⟩ := split hi
    rw [tally_setClosed, hh, hb.holds_eq hc]
  · intro i b hi
    obtain ⟨c, hc, -, hl, hu, -⟩ := split hi
    rw [hl, hu]
    exact hb.used_le hc
  · intro i p b c hi hp hc
    obtain ⟨b', hb', hparent, hl, -, -⟩ := split hi
    obtain ⟨c', hc', -, hl', -, -⟩ := split hc
    rw [hl, hl']
    exact hb.limit_le hb' (hparent ▸ hp) hc'

/-! ### Recharging effects

Each lemma computes both tallies of the new heap and compares them with the new
counters. -/

theorem reserve (hpos : u ≠ 0) (hfits : u ≤ h.available l)
    (hl : l < (h.updateAccounts l (· + u) (· + 1)).ledgers.length) :
    ((h.updateAccounts l (· + u) (· + 1)).allocState l u hl).Balanced := by
  refine hb.recharge rfl (fun i a ha hi => ?_) fun w i hi => ?_
  · have hlimit := hb.used_add_le hfits hi ha
    obtain ⟨hused, hholds⟩ := hb.reserve_exact hpos hfits hi ha
    rw [UInt64.le_iff_toNat_le, toNat_add_of_exact hused, toNat_add_of_exact hholds,
      tally_allocState, tally_allocState, tally_updateAccounts, tally_updateAccounts,
      accounts_updateAccounts, if_pos hi, if_pos hi, liveCount_of_ne hpos, ← hb.used_eq ha,
      ← hb.holds_eq ha, UInt64.toNat_one]
    exact ⟨rfl, rfl, hlimit⟩
  · simp [tally_allocState, hi]

section

variable (hs : h.activeState hold = some (k, s))

include hs

theorem release :
    ((h.updateAccounts s.ledger (· - s.units) (· - 1)).setState k 0 s.generation).Balanced := by
  obtain ⟨-, hk, hlive, -⟩ := h.activeState_eq_some.mp hs
  refine hb.recharge rfl (fun i a ha hi => ?_) fun w i hi => ?_
  · have hused : (Arith.sub a.used s.units).Exact := (hb.units_le_used hs hi ha).1
    have hholds : (Arith.sub a.holds 1).Exact := (hb.units_le_used hs hi ha).2
    have hlimit := UInt64.le_iff_toNat_le.mp (hb.used_le ha)
    have hsum := tally_setState_of_mem (w := UInt64.toNat) (u := 0) (g := s.generation) hk hi
    have hcount := tally_setState_of_mem (w := liveCount) (u := 0) (g := s.generation) hk hi
    rw [← hb.used_eq ha, UInt64.toNat_zero] at hsum
    rw [← hb.holds_eq ha, liveCount_zero, liveCount_of_ne hlive] at hcount
    rw [UInt64.le_iff_toNat_le, toNat_sub_of_exact hused, toNat_sub_of_exact hholds,
      tally_updateAccounts_setState, tally_updateAccounts_setState, UInt64.toNat_one]
    omega
  · rw [tally_updateAccounts_setState, tally_setState_of_not_mem hk hi]

theorem transfer {g : UInt64} : (h.setState k s.units g).Balanced := by
  obtain ⟨-, hk, -, -⟩ := h.activeState_eq_some.mp hs
  have htally : ∀ w i, (h.setState k s.units g).tally w i = h.tally w i := by
    intro w i
    by_cases hi : i ∈ h.accounts s.ledger
    · have := tally_setState_of_mem (w := w) (u := s.units) (g := g) hk hi
      omega
    · exact tally_setState_of_not_mem hk hi
  constructor
  · intro i a ha
    rw [htally, hb.used_eq ha]
  · intro i a ha
    rw [htally, hb.holds_eq ha]
  · exact hb.used_le
  · exact hb.limit_le

theorem grow (hfits : u ≤ h.available s.ledger) :
    ((h.updateAccounts s.ledger (· + u) id).setState k (s.units + u) s.generation).Balanced := by
  obtain ⟨-, hk, hlive, -⟩ := h.activeState_eq_some.mp hs
  refine hb.recharge rfl (fun i a ha hi => ?_) fun w i hi => ?_
  · have hlimit := hb.used_add_le hfits hi ha
    obtain ⟨hused, hunits⟩ := hb.grow_exact hs hfits hi ha
    have hlive' : s.units + u ≠ 0 := by
      intro h0
      have hzero := congrArg UInt64.toNat h0
      rw [toNat_add_of_exact hunits, UInt64.toNat_zero] at hzero
      have := toNat_pos_of_ne_zero hlive
      omega
    obtain ⟨hsum, hcount⟩ := hb.tally_setState hs hi ha hlive'
    rw [toNat_add_of_exact hunits] at hsum
    rw [UInt64.le_iff_toNat_le, toNat_add_of_exact hused, id, tally_updateAccounts_setState,
      tally_updateAccounts_setState]
    omega
  · rw [tally_updateAccounts_setState, tally_setState_of_not_mem hk hi]

theorem shrink (hlt : u < s.units) :
    ((h.updateAccounts s.ledger (· - u) id).setState k (s.units - u) s.generation).Balanced := by
  obtain ⟨-, hk, hlive, -⟩ := h.activeState_eq_some.mp hs
  have hlt := UInt64.lt_iff_toNat_lt.mp hlt
  obtain ⟨hunits, hlive'⟩ := part_exact hlt
  refine hb.recharge rfl (fun i a ha hi => ?_) fun w i hi => ?_
  · have hcharged := (hb.units_le_used hs hi ha).1
    have hlimit := UInt64.le_iff_toNat_le.mp (hb.used_le ha)
    have hused : (Arith.sub a.used u).Exact := hlt.le.trans hcharged
    obtain ⟨hsum, hcount⟩ := hb.tally_setState hs hi ha hlive'
    rw [toNat_sub_of_exact hunits] at hsum
    rw [UInt64.le_iff_toNat_le, toNat_sub_of_exact hused, id, tally_updateAccounts_setState,
      tally_updateAccounts_setState]
    omega
  · rw [tally_updateAccounts_setState, tally_setState_of_not_mem hk hi]

theorem part (hpos : u ≠ 0) (hlt : u < s.units)
    (hl : s.ledger < ((h.setState k (s.units - u) s.generation).updateAccounts s.ledger id
      (· + 1)).ledgers.length) :
    (((h.setState k (s.units - u) s.generation).updateAccounts s.ledger id
      (· + 1)).allocState s.ledger u hl).Balanced := by
  obtain ⟨-, hk, hlive, -⟩ := h.activeState_eq_some.mp hs
  obtain ⟨hunits, hlive'⟩ := part_exact (UInt64.lt_iff_toNat_lt.mp hlt)
  have hledgers : (((h.setState k (s.units - u) s.generation).updateAccounts s.ledger id
      (· + 1)).allocState s.ledger u hl).ledgers =
      (h.updateAccounts s.ledger id (· + 1)).ledgers := rfl
  refine hb.recharge hledgers (fun i a ha hi => ?_) fun w i hi => ?_
  · have hholds := hb.part_holds_exact hs hpos hlt hi ha
    have hlimit := UInt64.le_iff_toNat_le.mp (hb.used_le ha)
    obtain ⟨hsum, hcount⟩ := hb.tally_setState hs hi ha hlive'
    rw [toNat_sub_of_exact hunits] at hsum
    have hle := UInt64.lt_iff_toNat_lt.mp hlt
    rw [UInt64.le_iff_toNat_le, toNat_add_of_exact hholds, id, tally_allocState,
      tally_allocState, tally_updateAccounts, tally_updateAccounts, accounts_updateAccounts,
      accounts_setState, if_pos hi, if_pos hi, liveCount_of_ne hpos, UInt64.toNat_one]
    omega
  · rw [tally_allocState, tally_updateAccounts, tally_setState_of_not_mem hk hi,
      accounts_updateAccounts, accounts_setState, if_neg hi]
    rfl

end

theorem effect {c : Call} {r : Reply} (he : h.Effect c h' r) : h'.Balanced := by
  cases he with
  | refused => exact hb
  | allocated a ha _ hused hholds hlimit => exact hb.allocLedger ha hused hholds hlimit
  | closed => exact hb.setClosed
  | reserved hl hpos hfits => exact hb.reserve hpos hfits hl
  | released _ hactive => exact hb.release hactive
  | transferred _ hactive => exact hb.transfer hactive
  | parted hactive hpos hlt hl => exact hb.part hactive hpos hlt hl
  | grown hactive hfits => exact hb.grow hactive hfits
  | shrunk hactive hlt => exact hb.shrink hactive hlt

end

end Balanced

end Heap

end Windshare.Capacity
