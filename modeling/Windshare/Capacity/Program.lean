import Windshare.Capacity.Ledger

/-!
# Programs over capacity ledgers

A program builds ledger trees and calls their methods in any order, on any hold
value it likes. `Call` and `Reply` name the calls and what they return, and
`Effect` says once and for all what a call can do to the heap: either it is
refused and the heap stays as it was, or it is one of the listed updates, under
the listed guards. Every later result about runs goes through `call_effect`.
-/

namespace Windshare.Capacity

open Windshare.Library

/-- One call of the package's interface. -/
inductive Call where
  | new (limit : UInt64)
  | child (l : Nat) (limit : UInt64)
  | reserve (l : Nat) (units : UInt64)
  | close (l : Nat)
  | release (hold : Hold)
  | transfer (hold : Hold)
  | split (hold : Hold) (units : UInt64)
  | grow (hold : Hold) (units : UInt64)
  | shrink (hold : Hold) (units : UInt64)
deriving DecidableEq, Repr

/-- What a call returns. A method that returns `false` has `failed`. -/
inductive Reply where
  | failed
  | done
  | ledger (l : Nat)
  | hold (hold : Hold)
  | closed (unreleased : Option Heap.Unreleased)
deriving DecidableEq, Repr

namespace Reply

/-- The reply of a method that returns a hold and a success flag. -/
def ofHold : Option Hold → Reply
  | none => failed
  | some copy => hold copy

/-- The reply of a method that returns a success flag only. -/
def ofFlag : Bool → Reply
  | false => failed
  | true => done

end Reply

namespace Heap

variable (h : Heap)

/-- Run one call. A ledger that was never created has no methods to call. -/
def call : Call → Heap × Reply
  | .new limit => ((h.new limit).1, .ledger (h.new limit).2)
  | .child l limit => ((h.child l limit).1, ((h.child l limit).2.map .ledger).getD .failed)
  | .reserve l units => ((h.reserve l units).1, .ofHold (h.reserve l units).2)
  | .close l =>
    if l < h.ledgers.length then ((h.close l).1, .closed (h.close l).2) else (h, .failed)
  | .release hold => ((h.release hold).1, .ofFlag (h.release hold).2)
  | .transfer hold => ((h.transfer hold).1, .ofHold (h.transfer hold).2)
  | .split hold units => ((h.split hold units).1, .ofHold (h.split hold units).2)
  | .grow hold units => ((h.grow hold units).1, .ofFlag (h.grow hold units).2)
  | .shrink hold units => ((h.shrink hold units).1, .ofFlag (h.shrink hold units).2)

/-- An active copy points to a live record of its own generation. -/
theorem activeState_eq_some {hold : Hold} {k : Nat} {s : HoldState} :
    h.activeState hold = some (k, s) ↔
      hold.state = some k ∧ h.states[k]? = some s ∧ s.units ≠ 0 ∧
        hold.generation = s.generation := by
  simp only [activeState, Option.bind_eq_some_iff, Option.ite_none_right_eq_some,
    Option.some.injEq, Prod.mk.injEq]
  constructor
  · rintro ⟨k', hk', s', hs', ⟨hu, hg⟩, rfl, rfl⟩
    exact ⟨hk', hs', hu, hg⟩
  · rintro ⟨hk, hs, hu, hg⟩
    exact ⟨k, hk, s, hs, ⟨hu, hg⟩, rfl, rfl⟩

/-- What a call can do, with the guards under which it does it. -/
inductive Effect : Call → Heap → Reply → Prop
  | refused (c : Call) : Effect c h .failed
  | allocated {c : Call} (a : Ledger) (ha : ∀ p, a.parent = some p → p < h.ledgers.length)
      (hcall : (∃ limit, c = .new limit) ∨ ∃ l limit, c = .child l limit)
      (hused : a.used = 0) (hholds : a.holds = 0)
      (hlimit : ∀ p b, a.parent = some p → h.ledgers[p]? = some b → a.limit ≤ b.limit) :
      Effect c (h.allocLedger a ha) (.ledger h.ledgers.length)
  | closed (l : Nat) (reply : Option Unreleased) : Effect (.close l) (h.setClosed l) (.closed reply)
  | reserved {l : Nat} {units : UInt64}
      (hl : l < (h.updateAccounts l (· + units) (· + 1)).ledgers.length)
      (hpos : units ≠ 0) (hfits : units ≤ h.available l) :
      Effect (.reserve l units) ((h.updateAccounts l (· + units) (· + 1)).allocState l units hl)
        (.hold ⟨some h.states.length, 0⟩)
  | released {c : Call} {hold : Hold} {k : Nat} {s : HoldState}
      (hcall : c = .release hold ∨ c = .shrink hold s.units)
      (hactive : h.activeState hold = some (k, s)) :
      Effect c ((h.updateAccounts s.ledger (· - s.units) (· - 1)).setState k 0 s.generation) .done
  | transferred {c : Call} {hold : Hold} {k : Nat} {s : HoldState}
      (hcall : c = .transfer hold ∨ c = .split hold s.units)
      (hactive : h.activeState hold = some (k, s)) (hgen : s.generation ≠ maxUint64) :
      Effect c (h.setState k s.units (s.generation + 1)) (.hold ⟨some k, s.generation + 1⟩)
  | parted {hold : Hold} {units : UInt64} {k : Nat} {s : HoldState}
      (hactive : h.activeState hold = some (k, s)) (hpos : units ≠ 0) (hlt : units < s.units)
      (hl : s.ledger < ((h.setState k (s.units - units) s.generation).updateAccounts s.ledger id
        (· + 1)).ledgers.length) :
      Effect (.split hold units)
        (((h.setState k (s.units - units) s.generation).updateAccounts s.ledger id
          (· + 1)).allocState s.ledger units hl)
        (.hold ⟨some h.states.length, 0⟩)
  | grown {hold : Hold} {units : UInt64} {k : Nat} {s : HoldState}
      (hactive : h.activeState hold = some (k, s)) (hfits : units ≤ h.available s.ledger) :
      Effect (.grow hold units)
        ((h.updateAccounts s.ledger (· + units) id).setState k (s.units + units) s.generation) .done
  | shrunk {hold : Hold} {units : UInt64} {k : Nat} {s : HoldState}
      (hactive : h.activeState hold = some (k, s)) (hlt : units < s.units) :
      Effect (.shrink hold units)
        ((h.updateAccounts s.ledger (· - units) id).setState k (s.units - units) s.generation) .done

section Effects

variable {h}

theorem child_effect (l : Nat) (limit : UInt64) :
    h.Effect (.child l limit) (h.child l limit).1
      (((h.child l limit).2.map .ledger).getD .failed) := by
  unfold child
  split
  · exact .refused _
  · next a hl =>
      have hparent : ∀ p, some l = some p → p < h.ledgers.length := by
        rintro p ⟨⟩
        exact (List.getElem?_eq_some_iff.mp hl).1
      refine .allocated _ hparent (.inr ⟨l, limit, rfl⟩) rfl rfl ?_
      rintro p b ⟨⟩ hb
      obtain rfl : a = b := Option.some.inj (hl.symm.trans hb)
      exact Std.min_le_right

theorem reserve_effect (l : Nat) (units : UInt64) :
    h.Effect (.reserve l units) (h.reserve l units).1 (.ofHold (h.reserve l units).2) := by
  unfold reserve
  split
  · exact .refused _
  · next hguard =>
      rw [not_or] at hguard
      split
      · exact .reserved (by simpa) hguard.1 (UInt64.not_lt.mp hguard.2)
      · exact .refused _

theorem release_effect {c : Call} {hold : Hold}
    (hc : c = .release hold ∨ ∃ k s, h.activeState hold = some (k, s) ∧ c = .shrink hold s.units) :
    h.Effect c (h.release hold).1 (.ofFlag (h.release hold).2) := by
  unfold release
  split
  · exact .refused _
  · next k s hactive =>
      refine .released ?_ hactive
      rcases hc with hc | ⟨k', s', hactive', hc⟩
      · exact .inl hc
      · obtain ⟨rfl, rfl⟩ : k = k' ∧ s = s' := by simpa [hactive] using hactive'
        exact .inr hc

theorem transfer_effect {c : Call} {hold : Hold}
    (hc : c = .transfer hold ∨ ∃ k s, h.activeState hold = some (k, s) ∧ c = .split hold s.units) :
    h.Effect c (h.transfer hold).1 (.ofHold (h.transfer hold).2) := by
  unfold transfer
  split
  · exact .refused _
  · next k s hactive =>
      split
      · exact .refused _
      · next hgen =>
          refine .transferred ?_ hactive hgen
          rcases hc with hc | ⟨k', s', hactive', hc⟩
          · exact .inl hc
          · obtain ⟨rfl, rfl⟩ : k = k' ∧ s = s' := by simpa [hactive] using hactive'
            exact .inr hc

theorem split_effect (hold : Hold) (units : UInt64) :
    h.Effect (.split hold units) (h.split hold units).1 (.ofHold (h.split hold units).2) := by
  unfold split
  split
  · exact .refused _
  · next k s hactive =>
      split
      · exact .refused _
      · next hguard =>
          rw [not_or] at hguard
          split
          · next hwhole => exact transfer_effect (.inr ⟨k, s, hactive, by rw [hwhole]⟩)
          · next hpart =>
              split
              · exact .parted hactive hguard.1
                  (UInt64.lt_of_le_of_ne (UInt64.not_lt.mp hguard.2) hpart) (by simpa)
              · exact .refused _

theorem grow_effect (hold : Hold) (units : UInt64) :
    h.Effect (.grow hold units) (h.grow hold units).1 (.ofFlag (h.grow hold units).2) := by
  unfold grow
  split
  · exact .refused _
  · next k s hactive =>
      split
      · exact .refused _
      · next hfits => exact .grown hactive (UInt64.not_lt.mp hfits)

theorem shrink_effect (hold : Hold) (units : UInt64) :
    h.Effect (.shrink hold units) (h.shrink hold units).1 (.ofFlag (h.shrink hold units).2) := by
  unfold shrink
  split
  · exact .refused _
  · next k s hactive =>
      split
      · exact .refused _
      · next hle =>
          split
          · next hwhole => exact release_effect (.inr ⟨k, s, hactive, by rw [hwhole]⟩)
          · next hpart => exact .shrunk hactive (UInt64.lt_of_le_of_ne (UInt64.not_lt.mp hle) hpart)

theorem call_effect (h : Heap) (c : Call) : h.Effect c (h.call c).1 (h.call c).2 := by
  cases c with
  | new limit => exact .allocated _ (by simp) (.inl ⟨limit, rfl⟩) rfl rfl (by simp)
  | child l limit => exact child_effect l limit
  | reserve l units => exact reserve_effect l units
  | close l =>
    simp only [call]
    split
    · next hl =>
        simp only [close, List.getElem?_eq_getElem hl]
        exact .closed l _
    · exact .refused _
  | release => exact release_effect (.inl rfl)
  | transfer => exact transfer_effect (.inl rfl)
  | split hold units => exact split_effect hold units
  | grow hold units => exact grow_effect hold units
  | shrink hold units => exact shrink_effect hold units

end Effects

end Heap

def Heap.next (h : Heap) (c : Call) : Heap := (h.call c).1

/-- Programs start with no ledger and make calls one after another. -/
def program : System Heap Call := .ofFunction (· = Heap.empty) Heap.next

theorem reachable_calls (calls : List Call) :
    program.Reachable (calls.foldl Heap.next Heap.empty) :=
  System.reachable_foldl (· = Heap.empty) Heap.next rfl calls

end Windshare.Capacity
