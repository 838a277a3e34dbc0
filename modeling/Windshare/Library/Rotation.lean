import Mathlib.Data.List.Basic
import Mathlib.Data.Nat.ModEq

/-!
# Rotating lists

A cursor goes round a list and stops behind the first element that is eligible. When every
element that was found stops to be eligible, each eligible element is found within as many
searches as the list is long: the distance from the cursor to it falls with every search that
finds another one.
-/

namespace Windshare.Library.Rotation

variable {α : Type*} (order : List α)

/-- Look at most `n` elements on from the cursor for an eligible one. The cursor stops behind
the last element that was looked at. -/
def search (eligible : α → Bool) : Nat → Nat → Nat × Option α
  | 0, cursor => (cursor, none)
  | n + 1, cursor =>
    match order[cursor]? with
    | none => (cursor, none)
    | some x =>
      if eligible x then ((cursor + 1) % order.length, some x)
      else search eligible n ((cursor + 1) % order.length)

variable {order} {eligible : α → Bool} {n cursor : Nat} {x : α}

theorem search_lt (hcursor : cursor < order.length) :
    (search order eligible n cursor).1 < order.length := by
  induction n generalizing cursor with
  | zero => exact hcursor
  | succ n ih =>
    have hnext : (cursor + 1) % order.length < order.length :=
      Nat.mod_lt _ (Nat.zero_lt_of_lt hcursor)
    unfold search
    split
    · exact hcursor
    · split
      · exact hnext
      · exact ih hnext

theorem eligible_of_search (h : (search order eligible n cursor).2 = some x) :
    x ∈ order ∧ eligible x = true := by
  induction n generalizing cursor with
  | zero => cases h
  | succ n ih =>
    unfold search at h
    split at h
    · cases h
    · rename_i y hy
      split at h
      · rename_i heligible
        cases h
        exact ⟨List.mem_of_getElem? hy, heligible⟩
      · exact ih h

section

variable (hcursor : cursor < order.length)

include hcursor

/-- An eligible element at distance `d` is found, or one on the way to it. -/
theorem search_at {d : Nat} (hd : d < n)
    (hx : order[(cursor + d) % order.length]? = some x) (heligible : eligible x = true) :
    ∃ e ≤ d, ∃ y, order[(cursor + e) % order.length]? = some y ∧ eligible y = true ∧
      search order eligible n cursor = ((cursor + e + 1) % order.length, some y) := by
  induction n generalizing cursor d with
  | zero => exact absurd hd (Nat.not_lt_zero d)
  | succ n ih =>
    have hnext : (cursor + 1) % order.length < order.length :=
      Nat.mod_lt _ (Nat.zero_lt_of_lt hcursor)
    obtain ⟨z, hz⟩ : ∃ z, order[cursor]? = some z :=
      ⟨order[cursor], List.getElem?_eq_getElem hcursor⟩
    have hsearch : search order eligible (n + 1) cursor = if eligible z then
        ((cursor + 1) % order.length, some z)
      else search order eligible n ((cursor + 1) % order.length) := by
      conv => lhs; unfold search
      rw [hz]
    by_cases hstop : eligible z = true
    · refine ⟨0, Nat.zero_le d, z, ?_, hstop, ?_⟩
      · rw [Nat.add_zero, Nat.mod_eq_of_lt hcursor]
        exact hz
      · rw [hsearch, if_pos hstop, Nat.add_zero]
    · -- The element at the cursor is skipped, so it is not `x`.
      cases d with
      | zero =>
        rw [Nat.add_zero, Nat.mod_eq_of_lt hcursor, hz] at hx
        cases hx
        exact absurd heligible hstop
      | succ d =>
        have hshift : ∀ e, ((cursor + 1) % order.length + e) % order.length =
            (cursor + (e + 1)) % order.length := by
          intro e
          rw [Nat.mod_add_mod, Nat.add_right_comm, Nat.add_assoc]
        rw [← hshift d] at hx
        obtain ⟨e, he, y, hy, hyes, hfound⟩ := ih hnext (Nat.lt_of_succ_lt_succ hd) hx
        refine ⟨e + 1, Nat.succ_le_succ he, y, ?_, hyes, ?_⟩
        · rw [← hshift e]
          exact hy
        · rw [hsearch, if_neg hstop, hfound, Nat.add_assoc, hshift, Nat.add_assoc, Nat.add_assoc]

/-- Every element lies at some distance below the length. -/
theorem exists_distance (hx : x ∈ order) :
    ∃ d < order.length, order[(cursor + d) % order.length]? = some x := by
  obtain ⟨i, hi, rfl⟩ := List.mem_iff_getElem.mp hx
  obtain hle | hgt := Nat.le_total cursor i
  · refine ⟨i - cursor, by omega, ?_⟩
    rw [Nat.add_sub_cancel' hle, Nat.mod_eq_of_lt hi, List.getElem?_eq_getElem hi]
  · by_cases heq : i = cursor
    · subst heq
      exact ⟨0, Nat.zero_lt_of_lt hi, by
        rw [Nat.add_zero, Nat.mod_eq_of_lt hi, List.getElem?_eq_getElem hi]⟩
    · refine ⟨i + order.length - cursor, by omega, ?_⟩
      have hsum : cursor + (i + order.length - cursor) = i + order.length := by omega
      rw [hsum, Nat.add_mod_right, Nat.mod_eq_of_lt hi, List.getElem?_eq_getElem hi]

theorem search_isSome (hx : x ∈ order)
    (heligible : eligible x = true) :
    ∃ y, (search order eligible order.length cursor).2 = some y := by
  obtain ⟨d, hd, hat⟩ := exists_distance hcursor hx
  obtain ⟨_, _, y, _, _, hfound⟩ := search_at hcursor hd hat heligible
  exact ⟨y, by rw [hfound]⟩

/-! ### Repeated searches -/

variable [DecidableEq α] (order)

/-- What search number `n` finds, when everything found before is no more eligible. -/
def nth (eligible : α → Bool) (cursor : Nat) : Nat → Option α
  | 0 => (search order eligible order.length cursor).2
  | n + 1 =>
    match search order eligible order.length cursor with
    | (_, none) => none
    | (cursor, some y) => nth (fun z => eligible z && z ≠ y) cursor n

variable {order}

/-- An eligible element is found within as many searches as the list is long. -/
theorem exists_nth (hx : x ∈ order)
    (heligible : eligible x = true) : ∃ k < order.length, nth order eligible cursor k = some x := by
  obtain ⟨d, hd, hat⟩ := exists_distance hcursor hx
  suffices h : ∃ k ≤ d, nth order eligible cursor k = some x by
    obtain ⟨k, hk, hfound⟩ := h
    exact ⟨k, Nat.lt_of_le_of_lt hk hd, hfound⟩
  -- The distance falls with every search that finds another element.
  induction d using Nat.strong_induction_on generalizing eligible cursor with
  | _ d ih =>
    obtain ⟨e, he, y, hy, _, hfound⟩ := search_at hcursor hd hat heligible
    by_cases hxy : x = y
    · subst hxy
      exact ⟨0, Nat.zero_le d, by unfold nth; rw [hfound]⟩
    · have hne : e ≠ d := by
        rintro rfl
        rw [hat] at hy
        exact hxy (Option.some.inj hy)
      have hlt : e < d := by omega
      have hlength : 0 < order.length := Nat.zero_lt_of_lt hcursor
      have hnext : (cursor + e + 1) % order.length < order.length := Nat.mod_lt _ hlength
      have hrest : order[((cursor + e + 1) % order.length + (d - e - 1)) % order.length]? =
          some x := by
        have hsum : cursor + e + 1 + (d - e - 1) = cursor + d := by omega
        rw [Nat.mod_add_mod, hsum]
        exact hat
      have hstill : (eligible x && decide (x ≠ y)) = true := by simp [heligible, hxy]
      have hless : ∃ k ≤ d - e - 1, nth order (fun z => eligible z && z ≠ y)
          ((cursor + e + 1) % order.length) k = some x :=
        ih (d - e - 1) (by omega) hnext hstill (by omega) hrest
      obtain ⟨k, hk, hnth⟩ := hless
      refine ⟨k + 1, by omega, ?_⟩
      unfold nth
      rw [hfound]
      exact hnth

end

end Windshare.Library.Rotation
