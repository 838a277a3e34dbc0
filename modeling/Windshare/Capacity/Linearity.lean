import Windshare.Capacity.Accounting

/-!
# Holds are linear

A hold is a value, so a program can keep any number of copies of it. A copy has
authority only while its generation is the one of the record it points to and
the record still has units. `History` runs a program and remembers every hold
value that was handed out and every unit that was reserved, grown and released;
the results say what the remembered copies can still do.
-/

namespace Windshare.Capacity

open Windshare.Library

def Call.target : Call → Option Hold
  | .release hold => some hold
  | .transfer hold => some hold
  | .split hold _ => some hold
  | .grow hold _ => some hold
  | .shrink hold _ => some hold
  | _ => none

namespace Heap

variable (h : Heap)

/-- A copy without authority: it reports no units, no ledger owns it and each of
its methods fails and leaves the heap alone. -/
structure Inert (copy : Hold) : Prop where
  units_eq : h.units copy = 0
  not_owned : ∀ l, h.owns l copy = false
  call_eq : ∀ c, c.target = some copy → h.call c = (h, .failed)

variable {h} {c : Call} {h' : Heap} {r : Reply} {k : Nat} {s : HoldState} {copy hold : Hold}

theorem inert_of_activeState (hnone : h.activeState copy = none) : h.Inert copy := by
  refine ⟨by simp [units, hnone], fun l => by simp [owns, hnone], fun c hc => ?_⟩
  cases c with
  | new | child | reserve | close => cases hc
  | release =>
    obtain rfl := Option.some.inj hc
    simp [call, release, hnone, Reply.ofFlag]
  | transfer =>
    obtain rfl := Option.some.inj hc
    simp [call, transfer, hnone, Reply.ofHold]
  | split =>
    obtain rfl := Option.some.inj hc
    simp [call, split, hnone, Reply.ofHold]
  | grow =>
    obtain rfl := Option.some.inj hc
    simp [call, grow, hnone, Reply.ofFlag]
  | shrink =>
    obtain rfl := Option.some.inj hc
    simp [call, shrink, hnone, Reply.ofFlag]

/-- The record of a spent copy is empty or has moved on to a later generation. -/
def Spent (h : Heap) (copy : Hold) : Prop :=
  ∃ k s, copy.state = some k ∧ h.states[k]? = some s ∧
    (s.units = 0 ∨ copy.generation < s.generation)

theorem Spent.inert (hspent : h.Spent copy) : h.Inert copy := by
  obtain ⟨k, s, hk, hs, hdead⟩ := hspent
  apply inert_of_activeState
  simp only [activeState, hk, hs, Option.bind_some]
  refine if_neg ?_
  rintro ⟨hlive, hgen⟩
  rcases hdead with hzero | hlt
  · exact hlive hzero
  · exact UInt64.lt_irrefl _ (hgen ▸ hlt)

theorem states_setState_of_eq {u g : UInt64} (hs : h.states[k]? = some s) :
    (h.setState k u g).states[k]? = some { s with units := u, generation := g } := by
  simp [setState, hs]

/-- Writing a live record without lowering its generation moves no record back. -/
theorem setState_mono {j : Nat} {t : HoldState} {u g : UInt64} (hs : h.states[k]? = some s)
    (hlive : s.units ≠ 0) (hgen : s.generation ≤ g) (ht : h.states[j]? = some t) :
    ∃ t', (h.setState k u g).states[j]? = some t' ∧ t.generation ≤ t'.generation ∧
      (t.units = 0 → t'.units = 0) := by
  by_cases hj : k = j
  · subst hj
    obtain rfl : s = t := Option.some.inj (hs.symm.trans ht)
    exact ⟨_, states_setState_of_eq hs, hgen, fun hzero => absurd hzero hlive⟩
  · exact ⟨t, by simpa [setState, hj] using ht, UInt64.le_refl _, id⟩

theorem generation_lt_succ {g : UInt64} (hg : g ≠ maxUint64) : g < g + 1 := by
  have hlt := g.toNat_lt
  have hne : g.toNat ≠ maxUint64.toNat := fun h0 => hg (UInt64.toNat_inj.mp h0)
  have hmax : maxUint64.toNat = 2 ^ 64 - 1 := rfl
  have hexact : (Arith.add g 1).Exact := by
    change g.toNat + 1 < 2 ^ 64
    omega
  rw [UInt64.lt_iff_toNat_lt, toNat_add_of_exact hexact]
  exact Nat.lt_succ_self _

/-- Records stay allocated, generations never go back and an empty record stays
empty. -/
theorem Effect.state_mono (he : h.Effect c h' r) {t : HoldState} (ht : h.states[k]? = some t) :
    ∃ t', h'.states[k]? = some t' ∧ t.generation ≤ t'.generation ∧
      (t.units = 0 → t'.units = 0) := by
  have hlt := (List.getElem?_eq_some_iff.mp ht).1
  cases he with
  | refused | allocated | closed => exact ⟨t, ht, UInt64.le_refl _, id⟩
  | reserved =>
    refine ⟨t, ?_, UInt64.le_refl _, id⟩
    rw [states_allocState, states_updateAccounts, List.getElem?_append_left hlt, ht]
  | released _ hactive | grown hactive | shrunk hactive =>
    obtain ⟨-, hs, hlive, -⟩ := h.activeState_eq_some.mp hactive
    exact setState_mono hs hlive (UInt64.le_refl _) ht
  | transferred _ hactive hgen =>
    obtain ⟨-, hs, hlive, -⟩ := h.activeState_eq_some.mp hactive
    exact setState_mono hs hlive (UInt64.le_of_lt (generation_lt_succ hgen)) ht
  | parted hactive =>
    obtain ⟨-, hs, hlive, -⟩ := h.activeState_eq_some.mp hactive
    obtain ⟨t', ht', hmono⟩ := setState_mono hs hlive (UInt64.le_refl _) ht
    refine ⟨t', ?_, hmono⟩
    rw [states_allocState, states_updateAccounts, List.getElem?_append_left, ht']
    exact (List.getElem?_eq_some_iff.mp ht').1

theorem Effect.spent (he : h.Effect c h' r) (hspent : h.Spent copy) : h'.Spent copy := by
  obtain ⟨k, s, hk, hs, hdead⟩ := hspent
  obtain ⟨s', hs', hgen, hzero⟩ := he.state_mono hs
  refine ⟨k, s', hk, hs', ?_⟩
  rcases hdead with hempty | hlt
  · exact .inl (hzero hempty)
  · exact .inr (UInt64.lt_of_lt_of_le hlt hgen)

/-- A copy that was handed out has a generation its record has reached. -/
def Genuine (h : Heap) (copy : Hold) : Prop :=
  ∃ k s, copy.state = some k ∧ h.states[k]? = some s ∧ copy.generation ≤ s.generation

theorem Effect.genuine (he : h.Effect c h' r) (hcopy : h.Genuine copy) : h'.Genuine copy := by
  obtain ⟨k, s, hk, hs, hle⟩ := hcopy
  obtain ⟨s', hs', hgen, -⟩ := he.state_mono hs
  exact ⟨k, s', hk, hs', UInt64.le_trans hle hgen⟩

/-- The hold a call returns is genuine. -/
theorem Effect.genuine_reply (he : h.Effect c h' r) (hr : r = .hold copy) : h'.Genuine copy := by
  cases he with
  | refused | allocated | closed | released | grown | shrunk => cases hr
  | @reserved l units =>
    obtain rfl := Reply.hold.inj hr
    exact ⟨_, ⟨l, units, 0⟩, rfl, by simp, UInt64.le_refl _⟩
  | transferred _ hactive =>
    obtain rfl := Reply.hold.inj hr
    obtain ⟨-, hs, -, -⟩ := h.activeState_eq_some.mp hactive
    exact ⟨_, _, rfl, states_setState_of_eq hs, UInt64.le_refl _⟩
  | @parted hold units k s =>
    obtain rfl := Reply.hold.inj hr
    exact ⟨_, ⟨s.ledger, units, 0⟩, rfl, by simp, UInt64.le_refl _⟩

/-- The calls that end the authority of the copies made so far. -/
def Consumes (h : Heap) (hold : Hold) : Call → Prop
  | .transfer x => x = hold
  | .release x => x = hold
  | .split x units => x = hold ∧ units = h.units hold
  | .shrink x units => x = hold ∧ units = h.units hold
  | _ => False

theorem units_of_active (hactive : h.activeState hold = some (k, s)) : h.units hold = s.units := by
  simp [units, hactive]

theorem Effect.spent_of_consumes (he : h.Effect c h' r) (hc : h.Consumes hold c)
    (hr : r ≠ .failed) (hcopy : h.Genuine copy) (hsame : copy.state = hold.state) :
    h'.Spent copy := by
  obtain ⟨k, s, hk, hs, hle⟩ := hcopy
  -- An active copy of the consumed hold points to the same record.
  have hrecord : ∀ {j t}, h.activeState hold = some (j, t) → j = k ∧ t = s := by
    intro j t hactive
    obtain ⟨hj, ht, -, -⟩ := h.activeState_eq_some.mp hactive
    obtain rfl : j = k := Option.some.inj (hj.symm.trans (hsame.symm.trans hk))
    exact ⟨rfl, Option.some.inj (ht.symm.trans hs)⟩
  cases he with
  | refused => exact absurd rfl hr
  | allocated _ _ hcall =>
    rcases hcall with ⟨limit, rfl⟩ | ⟨l, limit, rfl⟩ <;> exact hc.elim
  | closed | reserved | grown => exact hc.elim
  | @released _ x j t hcall hactive =>
    obtain rfl : x = hold := by
      rcases hcall with rfl | rfl
      · exact hc
      · exact hc.1
    obtain ⟨rfl, rfl⟩ := hrecord hactive
    exact ⟨_, _, hk, states_setState_of_eq hs, .inl rfl⟩
  | @transferred _ x j t hcall hactive hgen =>
    obtain rfl : x = hold := by
      rcases hcall with rfl | rfl
      · exact hc
      · exact hc.1
    obtain ⟨rfl, rfl⟩ := hrecord hactive
    exact ⟨_, _, hk, states_setState_of_eq hs,
      .inr (Std.lt_of_le_of_lt hle (generation_lt_succ hgen))⟩
  | parted hactive _ hlt | shrunk hactive hlt =>
    obtain ⟨rfl, hunits⟩ := hc
    rw [hunits, units_of_active hactive] at hlt
    exact absurd hlt (UInt64.lt_irrefl _)

/-- A failing call changes no ledger and no hold. -/
theorem call_failed (hr : (h.call c).2 = .failed) : (h.call c).1 = h := by
  have he := h.call_effect c
  rw [hr] at he
  generalize (h.call c).1 = h' at he
  cases he
  rfl

/-! ## Conservation of units -/

/-- The units of all hold records. -/
def total (h : Heap) : ℕ := (h.states.map fun s => s.units.toNat).sum

/-- Units a call added by a reservation. -/
def reservedBy : Call → Reply → ℕ
  | .reserve _ units, .hold _ => units.toNat
  | _, _ => 0

/-- Units a call added to an existing hold. -/
def grownBy : Call → Reply → ℕ
  | .grow _ units, .done => units.toNat
  | _, _ => 0

/-- Units a call gave back: what a released hold reported just before, or what a
shrink was asked for. -/
def releasedBy (h : Heap) : Call → Reply → ℕ
  | .release hold, .done => (h.units hold).toNat
  | .shrink _ units, .done => units.toNat
  | _, _ => 0

theorem total_setState {u g : UInt64} (hs : h.states[k]? = some s) :
    (h.setState k u g).total + s.units.toNat = h.total + u.toNat :=
  sum_map_modify (fun s => s.units.toNat) _ hs

theorem total_allocState {l : Nat} {u : UInt64} {hl : l < h.ledgers.length} :
    (h.allocState l u hl).total = h.total + u.toNat := by
  simp [total]

theorem Effect.conserves (hb : h.Balanced) (he : h.Effect c h' r) :
    h'.total + h.releasedBy c r = h.total + (reservedBy c r + grownBy c r) := by
  cases he with
  | refused => cases c <;> rfl
  | allocated _ _ hcall => rcases hcall with ⟨limit, rfl⟩ | ⟨l, limit, rfl⟩ <;> rfl
  | closed => rfl
  | reserved => exact total_allocState
  | @released _ x j t hcall hactive =>
    obtain ⟨-, hs, -, -⟩ := h.activeState_eq_some.mp hactive
    have hsum := total_setState (u := 0) (g := t.generation) hs
    rcases hcall with rfl | rfl
    · rw [releasedBy, units_of_active hactive]
      exact hsum
    · exact hsum
  | @transferred _ x j t hcall hactive _ =>
    obtain ⟨-, hs, -, -⟩ := h.activeState_eq_some.mp hactive
    have hsum := total_setState (u := t.units) (g := t.generation + 1) hs
    rcases hcall with rfl | rfl <;> exact Nat.add_right_cancel hsum
  | @parted x u j t hactive _ hlt hl =>
    obtain ⟨-, hs, -, -⟩ := h.activeState_eq_some.mp hactive
    have hle := UInt64.lt_iff_toNat_lt.mp hlt
    have hsum := total_setState (u := t.units - u) (g := t.generation) hs
    rw [toNat_sub_of_exact hle.le] at hsum
    have hpart : ((h.setState j (t.units - u) t.generation).total + u.toNat) = h.total := by omega
    exact total_allocState.trans hpart
  | @grown x u j t hactive hfits =>
    obtain ⟨-, hs, -, -⟩ := h.activeState_eq_some.mp hactive
    have hsum := total_setState (u := t.units + u) (g := t.generation) hs
    rw [toNat_add_of_exact (hb.grow_units_exact hactive hfits)] at hsum
    have hmore : (h.setState j (t.units + u) t.generation).total = h.total + u.toNat := by omega
    simp only [releasedBy, reservedBy, grownBy, Nat.zero_add, Nat.add_zero]
    exact hmore
  | @shrunk x u j t hactive hlt =>
    obtain ⟨-, hs, -, -⟩ := h.activeState_eq_some.mp hactive
    have hle := UInt64.lt_iff_toNat_lt.mp hlt
    have hsum := total_setState (u := t.units - u) (g := t.generation) hs
    rw [toNat_sub_of_exact hle.le] at hsum
    have hless : (h.setState j (t.units - u) t.generation).total + u.toNat = h.total := by omega
    exact hless

end Heap

/-! ## Histories -/

/-- A run of a program: its heap, the hold values it was handed and the units
that were reserved, grown and released so far. -/
structure History where
  heap : Heap
  issued : List Hold
  reserved : ℕ
  grown : ℕ
  released : ℕ

def Reply.issued : Reply → List Hold
  | .hold copy => [copy]
  | _ => []

namespace History

def start : History := ⟨Heap.empty, [], 0, 0, 0⟩

/-- Make a call and remember what it did. -/
def next (H : History) (c : Call) : History where
  heap := (H.heap.call c).1
  issued := (H.heap.call c).2.issued ++ H.issued
  reserved := H.reserved + Heap.reservedBy c (H.heap.call c).2
  grown := H.grown + Heap.grownBy c (H.heap.call c).2
  released := H.released + H.heap.releasedBy c (H.heap.call c).2

def program : System History Call := .ofFunction (· = start) next

/-- What a history keeps true: the heap balances, every copy handed out is
genuine, and units are only ever moved. -/
structure Consistent (H : History) : Prop where
  balanced : H.heap.Balanced
  genuine : ∀ copy ∈ H.issued, H.heap.Genuine copy
  conserved : H.heap.total + H.released = H.reserved + H.grown

theorem start_consistent : start.Consistent :=
  ⟨Heap.empty_balanced, by simp [start], rfl⟩

theorem Consistent.next {H : History} (hH : H.Consistent) (c : Call) : (H.next c).Consistent := by
  have he := H.heap.call_effect c
  refine ⟨hH.balanced.effect he, fun copy hcopy => ?_, ?_⟩
  · rcases List.mem_append.mp hcopy with hnew | hold
    · refine he.genuine_reply ?_
      cases hr : (H.heap.call c).2 with
      | hold =>
        rw [hr, Reply.issued, List.mem_singleton] at hnew
        rw [hnew]
      | failed | done | ledger | closed => simp [hr, Reply.issued] at hnew
    · exact he.genuine (hH.genuine copy hold)
  · have hstep := he.conserves hH.balanced
    have hbefore := hH.conserved
    simp only [History.next]
    omega

theorem reachable_consistent {H : History} (hr : program.Reachable H) : H.Consistent := by
  refine hr.invariant ?_ ?_
  · rintro _ rfl
    exact start_consistent
  · rintro H c _ hH rfl
    exact hH.next c

end History

namespace Heap

variable {h : Heap} {c : Call} {hold : Hold}

/-- Only an active copy can be consumed. -/
theorem genuine_of_consumes (hc : h.Consumes hold c) (hr : (h.call c).2 ≠ .failed) :
    h.Genuine hold := by
  have htarget : c.target = some hold := by
    cases c with
    | new | child | reserve | close | grow => exact hc.elim
    | release | transfer => exact congrArg some hc
    | split | shrink => exact congrArg some hc.1
  cases hactive : h.activeState hold with
  | none =>
    have hfail := (inert_of_activeState hactive).call_eq c htarget
    exact absurd (congrArg Prod.snd hfail) hr
  | some ks =>
    obtain ⟨k, s⟩ := ks
    obtain ⟨hk, hs, -, hgen⟩ := h.activeState_eq_some.mp hactive
    exact ⟨k, s, hk, hs, hgen ▸ UInt64.le_refl _⟩

end Heap

namespace History

/-- Holds are linear. Once a hold is transferred, split whole, released or shrunk
to zero, every copy of it made before is inert in every later state; a failing
call changes nothing; and no unit is released that was not reserved or grown. -/
theorem holds_linear {H : History} (hr : program.Reachable H) :
    (∀ c hold, H.heap.Consumes hold c → (H.heap.call c).2 ≠ .failed →
      ∀ copy, copy ∈ H.issued ∨ copy = hold → copy.state = hold.state →
        ∀ H', program.Later (H.next c) H' → H'.heap.Inert copy) ∧
    (∀ c, (H.heap.call c).2 = .failed → (H.heap.call c).1 = H.heap) ∧
    H.released ≤ H.reserved + H.grown := by
  have hH := reachable_consistent hr
  refine ⟨fun c hold hc hok copy hcopy hsame H' hrun => ?_, fun c hfail => Heap.call_failed hfail,
    ?_⟩
  · have hgenuine : H.heap.Genuine copy := by
      rcases hcopy with hissued | rfl
      · exact hH.genuine copy hissued
      · exact Heap.genuine_of_consumes hc hok
    have hspent : (H.next c).heap.Spent copy :=
      (H.heap.call_effect c).spent_of_consumes hc hok hgenuine hsame
    have hlater : H'.heap.Spent copy := by
      refine hrun.stable (P := fun t => t.heap.Spent copy) hspent ?_
      rintro t e _ ht rfl
      exact (t.heap.call_effect e).spent ht
    exact hlater.inert
  · have hsum := hH.conserved
    omega

/-- A hold of 5 units in a ledger of 8 that was transferred once. -/
def transferred : History :=
  [Call.new 8, .reserve 0 5, .transfer ⟨some 0, 0⟩].foldl next start

theorem reachable_transferred : program.Reachable transferred :=
  System.reachable_foldl (· = start) next rfl _

theorem holds_linear_transferred :
    transferred.heap.units ⟨some 0, 1⟩ = 5 ∧
      ∀ H', program.Later (transferred.next (.release ⟨some 0, 1⟩)) H' →
        H'.heap.Inert ⟨some 0, 0⟩ ∧ H'.heap.Inert ⟨some 0, 1⟩ := by
  refine ⟨by decide, fun H' hrun => ?_⟩
  have hlinear := (holds_linear reachable_transferred).1 (.release ⟨some 0, 1⟩) ⟨some 0, 1⟩ rfl
    (by decide)
  exact ⟨hlinear ⟨some 0, 0⟩ (.inl (by decide)) rfl H' hrun, hlinear _ (.inr rfl) rfl H' hrun⟩

end History

end Windshare.Capacity
