import Windshare.Library.ListUpdate
import Windshare.Library.ParentChain
import Windshare.Library.Transition

/-!
# Capacity ledgers and holds

The model of package `capacityledger`. Ledgers and the records that holds point
to live in a heap addressed by creation order, counters are `UInt64` and wrap as
they do in the source, and every method returns the heap it leaves behind next
to its reply, also when it fails.

A loop `for account := l; account != nil; account = account.parent` is
`updateAccounts`, which visits `accounts l`. A ledger's parent is fixed when it
is created, so the heap carries the fact that parents precede their children.
-/

namespace Windshare.Capacity

open Windshare.Library

/-- A `Ledger`; its parent is the position of another ledger in the heap. -/
structure Ledger where
  parent : Option Nat
  limit : UInt64
  used : UInt64
  holds : UInt64
  closed : Bool
deriving DecidableEq, Repr

namespace Ledger

/-- The counters after one turn of a loop over a ledger and its ancestors. -/
def update (used holds : UInt64 → UInt64) (a : Ledger) : Ledger :=
  { a with used := used a.used, holds := holds a.holds }

def close (a : Ledger) : Ledger := { a with closed := true }

section

variable (used holds : UInt64 → UInt64) (a : Ledger)

@[simp] theorem update_parent : (update used holds a).parent = a.parent := rfl

@[simp] theorem update_limit : (update used holds a).limit = a.limit := rfl

@[simp] theorem update_used : (update used holds a).used = used a.used := rfl

@[simp] theorem update_holds : (update used holds a).holds = holds a.holds := rfl

@[simp] theorem update_closed : (update used holds a).closed = a.closed := rfl

end

end Ledger

/-- The `holdState` that copies of one hold share. -/
structure HoldState where
  ledger : Nat
  units : UInt64
  generation : UInt64
deriving DecidableEq, Repr

/-- A copy of a `Hold`; the zero value points to no state. -/
structure Hold where
  state : Option Nat
  generation : UInt64
deriving DecidableEq, Repr

def Hold.zero : Hold := ⟨none, 0⟩

/-- In-place updates leave the tree structure alone when the update does. -/
private theorem bind_parent_modify {f : Ledger → Ledger} (hf : ∀ a, (f a).parent = a.parent)
    (xs : List Ledger) (l i : Nat) :
    (xs.modify l f)[i]?.bind Ledger.parent = xs[i]?.bind Ledger.parent := by
  rw [List.getElem?_modify]
  cases xs[i]? with
  | none => simp
  | some => by_cases hl : l = i <;> simp [hl, hf]

private theorem bind_parent_modifyAll {f : Ledger → Ledger} (hf : ∀ a, (f a).parent = a.parent)
    (is : List Nat) (xs : List Ledger) (i : Nat) :
    (modifyAll f is xs)[i]?.bind Ledger.parent = xs[i]?.bind Ledger.parent := by
  induction is generalizing xs with
  | nil => rfl
  | cons l is ih => rw [modifyAll_cons, ih, bind_parent_modify hf]

/-- Every ledger and every hold record that has been allocated. -/
structure Heap where
  ledgers : List Ledger
  states : List HoldState
  parent_lt : ∀ i p, ledgers[i]?.bind Ledger.parent = some p → p < i
  ledger_lt : ∀ s ∈ states, s.ledger < ledgers.length

namespace Heap

/-- The heap of a program that has made no ledger yet. -/
def empty : Heap where
  ledgers := []
  states := []
  parent_lt := by simp
  ledger_lt := by simp

variable (h : Heap)

/-- The tree structure of the ledgers. -/
def parents : ParentMap where
  parent i := h.ledgers[i]?.bind Ledger.parent
  parent_lt := h.parent_lt

/-- A ledger and its ancestors. -/
def accounts (l : Nat) : List Nat := h.parents.chain l

/-- Update the counters of ledger `l` and of each of its ancestors. -/
def updateAccounts (l : Nat) (used holds : UInt64 → UInt64) : Heap where
  ledgers := modifyAll (Ledger.update used holds) (h.accounts l) h.ledgers
  states := h.states
  parent_lt i p hp := h.parent_lt i p (by
    rwa [bind_parent_modifyAll (f := Ledger.update used holds) fun _ => rfl] at hp)
  ledger_lt s hs := by simpa using h.ledger_lt s hs

theorem parent_lt_concat (a : Ledger) (ha : ∀ p, a.parent = some p → p < h.ledgers.length)
    (i p : Nat) (hp : (h.ledgers ++ [a])[i]?.bind Ledger.parent = some p) : p < i := by
  rcases lt_trichotomy i h.ledgers.length with hi | rfl | hi
  · rw [List.getElem?_append_left hi] at hp
    exact h.parent_lt i p hp
  · exact ha p (by simpa using hp)
  · rw [List.getElem?_eq_none (by simp; omega)] at hp
    simp at hp

theorem ledger_lt_concat (a : Ledger) : ∀ s ∈ h.states, s.ledger < (h.ledgers ++ [a]).length :=
  fun s hs => (h.ledger_lt s hs).trans (by simp)

/-- Allocate a ledger. Its parent, if any, is already in the heap. -/
def allocLedger (a : Ledger) (ha : ∀ p, a.parent = some p → p < h.ledgers.length) : Heap where
  ledgers := h.ledgers ++ [a]
  states := h.states
  parent_lt := h.parent_lt_concat a ha
  ledger_lt := h.ledger_lt_concat a

/-- Allocate a `holdState` of generation zero. -/
def allocState (l : Nat) (units : UInt64) (hl : l < h.ledgers.length) : Heap where
  ledgers := h.ledgers
  states := h.states ++ [⟨l, units, 0⟩]
  parent_lt := h.parent_lt
  ledger_lt s hs := by
    rcases List.mem_append.mp hs with hs | hs
    · exact h.ledger_lt s hs
    · obtain rfl := List.mem_singleton.mp hs
      exact hl

/-- Write the units and the generation of hold record `k`. -/
def setState (k : Nat) (units generation : UInt64) : Heap where
  ledgers := h.ledgers
  states := h.states.modify k fun s => { s with units := units, generation := generation }
  parent_lt := h.parent_lt
  ledger_lt s hs := by
    obtain ⟨j, hj⟩ := List.mem_iff_getElem?.mp hs
    rw [List.getElem?_modify] at hj
    obtain ⟨r, hr, rfl⟩ := Option.map_eq_some_iff.mp hj
    have := h.ledger_lt r (List.mem_of_getElem? hr)
    split <;> exact this

def setClosed (l : Nat) : Heap where
  ledgers := h.ledgers.modify l Ledger.close
  states := h.states
  parent_lt i p hp := h.parent_lt i p (by
    rwa [bind_parent_modify (f := Ledger.close) fun _ => rfl] at hp)
  ledger_lt s hs := by simpa using h.ledger_lt s hs

section Access

variable {h} {l k i : Nat} {used holds : UInt64 → UInt64} {u g : UInt64}

@[simp] theorem parents_updateAccounts : (h.updateAccounts l used holds).parents = h.parents := by
  simp only [parents, ParentMap.mk.injEq]
  funext i
  exact bind_parent_modifyAll (f := Ledger.update used holds) (fun _ => rfl) _ _ _

@[simp] theorem parents_setClosed : (h.setClosed l).parents = h.parents := by
  simp only [parents, ParentMap.mk.injEq]
  funext i
  exact bind_parent_modify (f := Ledger.close) (fun _ => rfl) _ _ _

@[simp] theorem accounts_updateAccounts :
    (h.updateAccounts l used holds).accounts i = h.accounts i := by
  simp [accounts]

@[simp] theorem accounts_setClosed : (h.setClosed l).accounts i = h.accounts i := by
  simp [accounts]

@[simp] theorem accounts_setState : (h.setState k u g).accounts i = h.accounts i := rfl

@[simp] theorem accounts_allocState {hl : l < h.ledgers.length} :
    (h.allocState l u hl).accounts i = h.accounts i := rfl

/-- A new ledger does not change the ancestors of the ledgers before it. -/
theorem accounts_allocLedger {a : Ledger} {ha : ∀ p, a.parent = some p → p < h.ledgers.length}
    (hi : i < h.ledgers.length) : (h.allocLedger a ha).accounts i = h.accounts i := by
  refine ParentMap.chain_congr fun j hj => ?_
  simp only [parents, allocLedger]
  rw [List.getElem?_append_left (by omega)]

theorem ledgers_updateAccounts :
    (h.updateAccounts l used holds).ledgers[i]? =
      if i ∈ h.accounts l then h.ledgers[i]?.map (Ledger.update used holds) else h.ledgers[i]? :=
  getElem?_modifyAll _ (h.parents.nodup_chain l) _ _

@[simp] theorem states_updateAccounts : (h.updateAccounts l used holds).states = h.states := rfl

@[simp] theorem states_setState :
    (h.setState k u g).states =
      h.states.modify k fun s => { s with units := u, generation := g } := rfl

@[simp] theorem ledgers_setState : (h.setState k u g).ledgers = h.ledgers := rfl

@[simp] theorem ledgers_allocState {hl : l < h.ledgers.length} :
    (h.allocState l u hl).ledgers = h.ledgers := rfl

@[simp] theorem states_allocState {hl : l < h.ledgers.length} :
    (h.allocState l u hl).states = h.states ++ [⟨l, u, 0⟩] := rfl

@[simp] theorem states_setClosed : (h.setClosed l).states = h.states := rfl

@[simp] theorem length_updateAccounts :
    (h.updateAccounts l used holds).ledgers.length = h.ledgers.length := by
  simp [updateAccounts]

theorem mem_accounts_self : l ∈ h.accounts l := h.parents.mem_chain_self

theorem le_of_mem_accounts (hi : i ∈ h.accounts l) : i ≤ l := h.parents.le_of_mem_chain hi

end Access

/-! ## Methods of a ledger -/

def new (limit : UInt64) : Heap × Nat :=
  (h.allocLedger ⟨none, limit, 0, 0, false⟩ (by simp), h.ledgers.length)

/-- `Ledger.Child`: the child's limit is cut to its parent's. -/
def child (l : Nat) (limit : UInt64) : Heap × Option Nat :=
  match hl : h.ledgers[l]? with
  | none => (h, none)
  | some a =>
    (h.allocLedger ⟨some l, min limit a.limit, 0, 0, false⟩ (by
      rintro p ⟨⟩
      exact (List.getElem?_eq_some_iff.mp hl).1), some h.ledgers.length)

/-- The loop of `Available` over the remaining accounts. -/
def availableAlong : List Nat → UInt64 → UInt64
  | [], available => available
  | i :: rest, available =>
    match h.ledgers[i]? with
    | none => available
    | some a => if a.closed then 0 else availableAlong rest (min available (a.limit - a.used))

/-- `Ledger.Available`: every ancestor's ceiling and admission boundary counts. -/
def available (l : Nat) : UInt64 :=
  match h.ledgers[l]? with
  | none => 0
  | some a => h.availableAlong (h.accounts l) (a.limit - a.used)

def reserve (l : Nat) (units : UInt64) : Heap × Option Hold :=
  if units = 0 ∨ h.available l < units then (h, none)
  else if hl : l < h.ledgers.length then
    (((h.updateAccounts l (· + units) (· + 1)).allocState l units (by simpa)),
      some ⟨some h.states.length, 0⟩)
  else (h, none)

/-- The counters an `UnreleasedError` reports. -/
structure Unreleased where
  used : UInt64
  holds : UInt64
deriving DecidableEq, Repr

/-- `Ledger.Close`: admission ends, live holds keep their capacity. -/
def close (l : Nat) : Heap × Option Unreleased :=
  match h.ledgers[l]? with
  | none => (h, none)
  | some a => (h.setClosed l, if a.holds ≠ 0 then some ⟨a.used, a.holds⟩ else none)

/-! ## Methods of a hold -/

/-- The record an active copy points to, with its position. A copy is active when
the record still has units and the copy has the record's generation. -/
def activeState (hold : Hold) : Option (Nat × HoldState) :=
  hold.state.bind fun k => h.states[k]?.bind fun s =>
    if s.units ≠ 0 ∧ hold.generation = s.generation then some (k, s) else none

def units (hold : Hold) : UInt64 :=
  match h.activeState hold with
  | none => 0
  | some (_, s) => s.units

def owns (l : Nat) (hold : Hold) : Bool :=
  match h.activeState hold with
  | none => false
  | some (_, s) => s.ledger == l

def release (hold : Hold) : Heap × Bool :=
  match h.activeState hold with
  | none => (h, false)
  | some (k, s) =>
    ((h.updateAccounts s.ledger (· - s.units) (· - 1)).setState k 0 s.generation, true)

def maxUint64 : UInt64 := 0xffffffffffffffff

/-- `Hold.Transfer`: the new generation invalidates every older copy. -/
def transfer (hold : Hold) : Heap × Option Hold :=
  match h.activeState hold with
  | none => (h, none)
  | some (k, s) =>
    if s.generation = maxUint64 then (h, none)
    else (h.setState k s.units (s.generation + 1), some ⟨some k, s.generation + 1⟩)

/-- `Hold.Split`: splitting the whole hold is a transfer. -/
def split (hold : Hold) (units : UInt64) : Heap × Option Hold :=
  match h.activeState hold with
  | none => (h, none)
  | some (k, s) =>
    if units = 0 ∨ s.units < units then (h, none)
    else if units = s.units then h.transfer hold
    else if hl : s.ledger < h.ledgers.length then
      (((h.setState k (s.units - units) s.generation).updateAccounts s.ledger id (· + 1)).allocState
        s.ledger units (by simpa), some ⟨some h.states.length, 0⟩)
    else (h, none)

def grow (hold : Hold) (units : UInt64) : Heap × Bool :=
  match h.activeState hold with
  | none => (h, false)
  | some (k, s) =>
    if h.available s.ledger < units then (h, false)
    else ((h.updateAccounts s.ledger (· + units) id).setState k (s.units + units) s.generation,
      true)

/-- `Hold.Shrink`: shrinking to zero is a release. -/
def shrink (hold : Hold) (units : UInt64) : Heap × Bool :=
  match h.activeState hold with
  | none => (h, false)
  | some (k, s) =>
    if s.units < units then (h, false)
    else if units = s.units then h.release hold
    else ((h.updateAccounts s.ledger (· - units) id).setState k (s.units - units) s.generation,
      true)

end Heap

end Windshare.Capacity
