import Mathlib.Logic.Basic

/-!
# Watermarks

Numbers are admitted in ascending order and retired in any order. What was admitted and what was
retired are unbounded sets; a watermark keeps the greatest number of each and the numbers that
are still active. It answers exactly what the two sets would: a retired number is below the
retired watermark and not active, an admitted one that is not retired is active, and no admitted
number lies above the issued watermark.
-/

namespace Windshare.Library

/-- The greatest of some numbers, zero if there are none. -/
def greatest (ns : List Nat) : Nat := ns.foldr max 0

theorem le_greatest {ns : List Nat} {n : Nat} (h : n ∈ ns) : n ≤ greatest ns := by
  induction ns with
  | nil => cases h
  | cons m ns ih =>
    obtain rfl | h := List.mem_cons.mp h
    · exact Nat.le_max_left _ _
    · exact Nat.le_trans (ih h) (Nat.le_max_right _ _)

structure Watermark where
  issuedThrough : Nat
  retiredThrough : Nat
  active : List Nat

namespace Watermark

/-- The watermark of the numbers that were admitted and of those of them that were retired. -/
structure Represents (w : Watermark) (admitted retired : List Nat) : Prop where
  issuedThrough : w.issuedThrough = greatest admitted
  retiredThrough : w.retiredThrough = greatest retired
  active : ∀ n, n ∈ w.active ↔ n ∈ admitted ∧ n ∉ retired
  retired : ∀ n ∈ retired, n ∈ admitted

variable {w w' : Watermark} {admitted retired : List Nat} {n : Nat}

theorem represents_nothing : Represents ⟨0, 0, []⟩ [] [] where
  issuedThrough := rfl
  retiredThrough := rfl
  active := fun _ => ⟨nofun, nofun⟩
  retired := nofun

namespace Represents

section

variable (h : w.Represents admitted retired)

include h

theorem admitted_le (hn : n ∈ admitted) : n ≤ w.issuedThrough := by
  rw [h.issuedThrough]
  exact le_greatest hn

/-- The next number is admitted. -/
theorem admits (hn : w.issuedThrough < n)
    (hissued : w'.issuedThrough = n) (hretired : w'.retiredThrough = w.retiredThrough)
    (hactive : ∀ m, m ∈ w'.active ↔ m = n ∨ m ∈ w.active) :
    w'.Represents (n :: admitted) retired where
  issuedThrough := by
    have hbelow := h.issuedThrough
    rw [hissued]
    exact (Nat.max_eq_left (by unfold greatest at hbelow; omega)).symm
  retiredThrough := hretired.trans h.retiredThrough
  active := by
    intro m
    rw [hactive, h.active, List.mem_cons]
    constructor
    · rintro (rfl | ⟨hm, hactive⟩)
      · refine ⟨.inl rfl, fun hm => ?_⟩
        exact Nat.not_lt.mpr (h.admitted_le (h.retired m hm)) hn
      · exact ⟨.inr hm, hactive⟩
    · rintro ⟨rfl | hm, hactive⟩
      · exact .inl rfl
      · exact .inr ⟨hm, hactive⟩
  retired := fun m hm => List.mem_cons_of_mem n (h.retired m hm)

theorem retire (hn : n ∈ admitted) (hissued : w'.issuedThrough = w.issuedThrough)
    (hretired : w'.retiredThrough = max n w.retiredThrough)
    (hactive : ∀ m, m ∈ w'.active ↔ m ∈ w.active ∧ m ≠ n) :
    w'.Represents admitted (n :: retired) where
  issuedThrough := hissued.trans h.issuedThrough
  retiredThrough := by
    rw [hretired, h.retiredThrough]
    rfl
  active := by
    intro m
    rw [hactive, h.active, List.mem_cons, not_or, and_assoc, and_comm (a := m ≠ n)]
  retired := by
    intro m hm
    obtain rfl | hm := List.mem_cons.mp hm
    · exact hn
    · exact h.retired m hm

end

end Represents

end Watermark

end Windshare.Library
