import Mathlib.Algebra.Group.Nat.Defs

/-!
# Exact 64-bit arithmetic

`UInt64` arithmetic wraps. An operation is exact when it computes what the same
operation on natural numbers computes; a program whose operations are all exact
can be reasoned about with unbounded counters.
-/

namespace Windshare.Library

/-- An addition or a subtraction of 64-bit words that a program performs. -/
inductive Arith where
  | add (a b : UInt64)
  | sub (a b : UInt64)

/-- The operation does not wrap. -/
def Arith.Exact : Arith → Prop
  | .add a b => a.toNat + b.toNat < 2 ^ 64
  | .sub a b => b.toNat ≤ a.toNat

theorem toNat_add_of_exact {a b : UInt64} (h : (Arith.add a b).Exact) :
    (a + b).toNat = a.toNat + b.toNat := by
  rw [UInt64.toNat_add]
  exact Nat.mod_eq_of_lt h

theorem toNat_sub_of_exact {a b : UInt64} (h : (Arith.sub a b).Exact) :
    (a - b).toNat = a.toNat - b.toNat :=
  UInt64.toNat_sub_of_le a b (UInt64.le_iff_toNat_le.mpr h)

/-- Counting up from any word but the last one is exact. -/
theorem toNat_succ_of_ne_max {a : UInt64} (h : a ≠ 0xffffffffffffffff) :
    (a + 1).toNat = a.toNat + 1 := by
  refine toNat_add_of_exact ?_
  have hlt := a.toNat_lt
  have hne : a.toNat ≠ 2 ^ 64 - 1 := fun h0 => h (UInt64.toNat_inj.mp h0)
  change a.toNat + 1 < 2 ^ 64
  omega

theorem toNat_pos_of_ne_zero {a : UInt64} (h : a ≠ 0) : 0 < a.toNat := by
  rw [Nat.pos_iff_ne_zero]
  intro h0
  exact h (UInt64.toNat_inj.mp h0)

end Windshare.Library
