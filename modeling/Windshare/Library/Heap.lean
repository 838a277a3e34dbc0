import Mathlib.Algebra.BigOperators.Intervals
import Mathlib.Algebra.Order.BigOperators.Group.Finset

/-!
# Heaps of records

Objects that are shared by pointer are cells of a heap, and a pointer is the number of its
cell. Cells are allocated in order and never freed. A total over the cells changes with the
one cell that an update touches.
-/

namespace Windshare.Library

/-- The number of a cell. -/
abbrev Ref := Nat

structure Heap (α : Type*) where
  size : Nat
  cell : Ref → α

namespace Heap

variable {α : Type*} (h : Heap α) {i j : Ref} {a : α} {f : α → α}

def get (i : Ref) : α := h.cell i

def modify (i : Ref) (f : α → α) : Heap α := ⟨h.size, Function.update h.cell i (f (h.cell i))⟩

def alloc (a : α) : Heap α := ⟨h.size + 1, Function.update h.cell h.size a⟩

@[simp, grind =] theorem size_modify : (h.modify i f).size = h.size := rfl

@[simp, grind =] theorem size_alloc : (h.alloc a).size = h.size + 1 := rfl

@[grind =] theorem get_modify : (h.modify i f).get j = if j = i then f (h.get i) else h.get j :=
  Function.update_apply h.cell i (f (h.cell i)) j

@[simp] theorem get_modify_self : (h.modify i f).get i = f (h.get i) := by
  rw [get_modify, if_pos rfl]

theorem get_modify_of_ne (hne : j ≠ i) : (h.modify i f).get j = h.get j := by
  rw [get_modify, if_neg hne]

@[simp] theorem modify_id : h.modify i (fun a => a) = h := by
  unfold modify
  rw [Function.update_eq_self]

@[grind =] theorem get_alloc : (h.alloc a).get j = if j = h.size then a else h.get j :=
  Function.update_apply h.cell h.size a j

@[simp] theorem get_alloc_size : (h.alloc a).get h.size = a := by rw [get_alloc, if_pos rfl]

theorem get_alloc_of_lt (hlt : j < h.size) : (h.alloc a).get j = h.get j := by
  rw [get_alloc, if_neg (Nat.ne_of_lt hlt)]

/-- Every allocated cell satisfies `P`. -/
def All (P : α → Prop) : Prop := ∀ i < h.size, P (h.get i)

variable {h} {P Q : α → Prop}

theorem All.mono (hall : h.All P) (hPQ : ∀ a, P a → Q a) : h.All Q :=
  fun i hi => hPQ _ (hall i hi)

theorem All.modify (hall : h.All P) (hf : ∀ a, P a → P (f a)) : (h.modify i f).All P := by
  intro j hj
  rw [get_modify]
  split
  · rename_i heq
    subst heq
    exact hf _ (hall j hj)
  · exact hall j hj

theorem All.alloc (hall : h.All P) (ha : P a) : (h.alloc a).All P := by
  intro j hj
  obtain hj | rfl := Nat.lt_succ_iff_lt_or_eq.mp hj
  · rw [h.get_alloc_of_lt hj]
    exact hall j hj
  · rw [h.get_alloc_size]
    exact ha

end Heap

/-! ### Totals over the cells -/

/-- The total of a weight over the first `size` cells. -/
def tally (size : Nat) (w : Ref → ℕ) : ℕ := ∑ i ∈ Finset.range size, w i

variable {size : Nat} {w v : Ref → ℕ} {i : Ref}

@[simp] theorem tally_succ : tally (size + 1) w = tally size w + w size :=
  Finset.sum_range_succ w size

theorem tally_congr (h : ∀ i < size, w i = v i) : tally size w = tally size v :=
  Finset.sum_congr rfl fun i hi => h i (Finset.mem_range.mp hi)

/-- A total changes with the one cell whose weight changes. -/
theorem tally_balance (hi : i < size) (h : ∀ j < size, j ≠ i → v j = w j) :
    tally size v + w i = tally size w + v i := by
  have hmem : i ∈ Finset.range size := Finset.mem_range.mpr hi
  have hrest : ∀ j ∈ (Finset.range size).erase i, v j = w j := by
    intro j hj
    obtain ⟨hne, hj⟩ := Finset.mem_erase.mp hj
    exact h j (Finset.mem_range.mp hj) hne
  have hold := Finset.add_sum_erase (Finset.range size) w hmem
  have hnew := Finset.add_sum_erase (Finset.range size) v hmem
  rw [Finset.sum_congr rfl hrest] at hnew
  unfold tally
  rw [← hold, ← hnew]
  exact Nat.add_right_comm (v i) _ (w i) |>.trans (by rw [Nat.add_comm (v i), Nat.add_right_comm])

theorem tally_mono (h : ∀ i < size, w i ≤ v i) : tally size w ≤ tally size v :=
  Finset.sum_le_sum fun i hi => h i (Finset.mem_range.mp hi)

theorem tally_eq_zero (h : ∀ i < size, w i = 0) : tally size w = 0 :=
  Finset.sum_eq_zero fun i hi => h i (Finset.mem_range.mp hi)

theorem tally_add : (tally size fun i => w i + v i) = tally size w + tally size v :=
  Finset.sum_add_distrib

/-- The number of the first `size` cells that meet the condition. -/
def countCells (size : Nat) (p : Ref → Bool) : ℕ := tally size fun i => (p i).toNat

theorem countCells_eq_card {p : Ref → Bool} :
    countCells size p = ((Finset.range size).filter fun i => p i = true).card := by
  unfold countCells tally
  rw [Finset.card_filter]
  refine Finset.sum_congr rfl fun i _ => ?_
  dsimp only
  cases p i <;> rfl

/-- Cells that map to different cells are at most as many. -/
theorem countCells_le_of_injective {p q : Ref → Bool} {m n : Nat} (f : Ref → Ref)
    (hf : ∀ i < m, p i = true → f i < n ∧ q (f i) = true)
    (hinj : ∀ i < m, ∀ j < m, p i = true → p j = true → f i = f j → i = j) :
    countCells m p ≤ countCells n q := by
  rw [countCells_eq_card, countCells_eq_card]
  refine Finset.card_le_card_of_injOn f ?_ ?_
  · intro i hi
    obtain ⟨hm, hp⟩ := Finset.mem_filter.mp hi
    obtain ⟨hn, hq⟩ := hf i (Finset.mem_range.mp hm) hp
    exact Finset.mem_filter.mpr ⟨Finset.mem_range.mpr hn, hq⟩
  · intro i hi j hj heq
    obtain ⟨hi, hp⟩ := Finset.mem_filter.mp hi
    obtain ⟨hj, hq⟩ := Finset.mem_filter.mp hj
    exact hinj i (Finset.mem_range.mp hi) j (Finset.mem_range.mp hj) hp hq heq

end Windshare.Library
