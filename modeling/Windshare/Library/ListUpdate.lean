import Mathlib.Algebra.Order.BigOperators.Group.List
import Mathlib.Algebra.Order.Ring.Nat
import Mathlib.Data.List.Basic

/-!
# Updating records of a list in place

A store of records is a list indexed by position. This file has the two facts
about in-place updates that accounting proofs need: what a loop over distinct
positions leaves at each position, and how a total over all records changes when
one of them does.
-/

namespace Windshare.Library

variable {α : Type*}

/-- Apply `f` to the record at each listed position, in order. -/
def modifyAll (f : α → α) (positions : List Nat) (xs : List α) : List α :=
  positions.foldl (fun xs i => xs.modify i f) xs

@[simp] theorem modifyAll_nil (f : α → α) (xs : List α) : modifyAll f [] xs = xs := rfl

@[simp] theorem modifyAll_cons (f : α → α) (i : Nat) (is : List Nat) (xs : List α) :
    modifyAll f (i :: is) xs = modifyAll f is (xs.modify i f) := rfl

@[simp] theorem length_modifyAll (f : α → α) (is : List Nat) (xs : List α) :
    (modifyAll f is xs).length = xs.length := by
  induction is generalizing xs with
  | nil => rfl
  | cons i is ih => simp [ih]

/-- A loop over distinct positions updates each of them exactly once. -/
theorem getElem?_modifyAll (f : α → α) {is : List Nat} (hnd : is.Nodup) (xs : List α) (j : Nat) :
    (modifyAll f is xs)[j]? = if j ∈ is then xs[j]?.map f else xs[j]? := by
  induction is generalizing xs with
  | nil => simp
  | cons i is ih =>
    obtain ⟨hi, hnd⟩ := List.nodup_cons.mp hnd
    rw [modifyAll_cons, ih hnd, List.getElem?_modify]
    by_cases hij : i = j
    · subst hij
      simp [hi]
    · have hji : j ≠ i := fun h => hij h.symm
      simp [hij, hji]

/-- Changing one record changes a total by the difference of its weights. -/
theorem sum_map_modify (w : α → ℕ) (f : α → α) {xs : List α} {k : Nat} {x : α}
    (hx : xs[k]? = some x) :
    ((xs.modify k f).map w).sum + w x = (xs.map w).sum + w (f x) := by
  induction xs generalizing k with
  | nil => simp at hx
  | cons y ys ih =>
    cases k with
    | zero =>
      obtain rfl : y = x := by simpa using hx
      simp only [List.modify_zero_cons, List.map_cons, List.sum_cons]
      omega
    | succ k =>
      have := ih (k := k) (by simpa using hx)
      simp only [List.modify_succ_cons, List.map_cons, List.sum_cons]
      omega

/-- A record's weight is part of the total. -/
theorem le_sum_map (w : α → ℕ) {xs : List α} {k : Nat} {x : α} (hx : xs[k]? = some x) :
    w x ≤ (xs.map w).sum :=
  List.le_sum_of_mem (List.mem_map_of_mem (List.mem_of_getElem? hx))

theorem sum_map_filter (p : α → Bool) (w : α → ℕ) (xs : List α) :
    ((xs.filter p).map w).sum = (xs.map fun x => if p x then w x else 0).sum := by
  induction xs with
  | nil => rfl
  | cons x xs ih => cases hp : p x <;> simp [hp, ih]

end Windshare.Library
