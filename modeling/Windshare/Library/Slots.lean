import Mathlib.Data.List.DropRight
import Mathlib.Data.List.ReduceOption
import Windshare.Library.ListUpdate

/-!
# Slot vectors

A slot vector keeps records at stable positions. A removed record leaves a hole, and the
holes at the end may be trimmed. Growing and trimming are invisible to lookups and to
totals over the records, which is all that accounting over the slots needs.
-/

namespace Windshare.Library

/-- Positions that hold a record or a hole. -/
abbrev Slots (α : Type*) := List (Option α)

namespace Slots

variable {α : Type*} (xs : Slots α) (w : α → ℕ)

/-- The record at a position. -/
def get (i : Nat) : Option α := xs[i]?.join

/-- The total of a weight over the records. -/
def tally : ℕ := (xs.map (·.elim 0 w)).sum

/-- Drop the holes at the end. -/
def trim : Slots α := xs.rdropWhile Option.isNone

variable {xs} {i j : Nat} {a : α}

theorem getElem?_of_get (h : xs.get i = some a) : xs[i]? = some (some a) := by
  unfold get at h
  cases hi : xs[i]? with
  | none =>
    rw [hi] at h
    cases h
  | some =>
    rw [hi] at h
    exact congrArg some h

theorem lt_length_of_get (h : xs.get i = some a) : i < xs.length :=
  (List.getElem?_eq_some_iff.mp (getElem?_of_get h)).1

theorem get_of_length_le (h : xs.length ≤ i) : xs.get i = none := by
  rw [get, List.getElem?_eq_none h]
  rfl

theorem get_set (h : i < xs.length) (next : Option α) :
    Slots.get (xs.set i next) j = if j = i then next else xs.get j := by
  unfold get
  by_cases hij : j = i
  · subst hij
    rw [List.getElem?_set_self h, if_pos rfl]
    rfl
  · rw [List.getElem?_set_ne (Ne.symm hij), if_neg hij]

theorem get_append_holes (n : Nat) : Slots.get (xs ++ List.replicate n none) j = xs.get j := by
  unfold get
  by_cases hj : j < xs.length
  · rw [List.getElem?_append_left hj]
  · rw [List.getElem?_append_right (Nat.not_lt.mp hj), List.getElem?_replicate,
      List.getElem?_eq_none (Nat.not_lt.mp hj)]
    split <;> rfl

/-- The holes that trimming drops. -/
theorem trim_append (xs : Slots α) : ∃ n, xs.trim ++ List.replicate n none = xs := by
  refine ⟨(xs.rtakeWhile Option.isNone).length, ?_⟩
  have hholes : xs.rtakeWhile Option.isNone =
      List.replicate (xs.rtakeWhile Option.isNone).length none := by
    refine List.eq_replicate_iff.mpr ⟨rfl, fun o ho => ?_⟩
    exact Option.isNone_iff_eq_none.mp (List.mem_rtakeWhile_imp ho)
  rw [← hholes]
  exact List.rdropWhile_append_rtakeWhile

theorem get_trim (xs : Slots α) : xs.trim.get j = xs.get j := by
  obtain ⟨n, hn⟩ := trim_append xs
  conv_rhs => rw [← hn]
  exact (get_append_holes n).symm

/-! ### Totals -/

theorem tally_append_holes (n : Nat) : tally (xs ++ List.replicate n none) w = xs.tally w := by
  simp [tally]

theorem tally_trim (xs : Slots α) : xs.trim.tally w = xs.tally w := by
  obtain ⟨n, hn⟩ := trim_append xs
  conv_rhs => rw [← hn]
  exact (tally_append_holes w n).symm

theorem tally_set (h : i < xs.length) (next : Option α) :
    tally (xs.set i next) w + (xs.get i).elim 0 w = xs.tally w + next.elim 0 w := by
  have hget : xs[i]? = some xs[i] := List.getElem?_eq_getElem h
  have hsum := sum_map_modify (fun o : Option α => o.elim 0 w) (fun _ => next) hget
  rw [← List.set_eq_modify] at hsum
  unfold tally get
  rw [hget]
  exact hsum

theorem le_tally (h : xs.get i = some a) : w a ≤ xs.tally w :=
  le_sum_map (fun o : Option α => o.elim 0 w) (getElem?_of_get h)

theorem tally_eq_zero_of_holes (h : ∀ i, xs.get i = none) : xs.tally w = 0 := by
  refine List.sum_eq_zero fun n hn => ?_
  obtain ⟨o, ho, rfl⟩ := List.mem_map.mp hn
  obtain ⟨i, hi⟩ := List.mem_iff_getElem?.mp ho
  have hnone := h i
  rw [get, hi] at hnone
  obtain rfl : o = none := hnone
  rfl

theorem tally_congr {w' : α → ℕ} (h : ∀ i a, xs.get i = some a → w a = w' a) :
    xs.tally w = xs.tally w' := by
  unfold tally
  congr 1
  refine List.map_congr_left fun o ho => ?_
  cases o with
  | none => rfl
  | some a =>
    obtain ⟨i, hi⟩ := List.mem_iff_getElem?.mp ho
    exact h i a (by rw [get, hi]; rfl)

theorem tally_add (xs : Slots α) (w w' : α → ℕ) :
    xs.tally (fun a => w a + w' a) = xs.tally w + xs.tally w' := by
  induction xs with
  | nil => rfl
  | cons o xs ih =>
    simp only [tally, List.map_cons, List.sum_cons] at ih ⊢
    cases o <;> simp only [Option.elim_none, Option.elim_some] <;> omega

theorem mem_reduceOption : a ∈ xs.reduceOption ↔ ∃ i, xs.get i = some a := by
  rw [List.reduceOption_mem_iff, List.mem_iff_getElem?]
  constructor
  · rintro ⟨i, hi⟩
    exact ⟨i, by rw [get, hi]; rfl⟩
  · rintro ⟨i, hi⟩
    exact ⟨i, getElem?_of_get hi⟩

end Slots

end Windshare.Library
