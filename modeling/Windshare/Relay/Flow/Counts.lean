import Mathlib.Algebra.Group.Nat.Defs
import Mathlib.Data.Nat.Basic
import Mathlib.Order.Lattice

/-!
# Delivery counts

Frames and encoded bytes are two independent resource dimensions. Arithmetic on them is
checked: `add` and `sub` are `none` where the source fails an `expect`. A statement
about counts is a statement about their amount in each dimension.
-/

namespace Windshare.Relay.Flow

inductive Dimension where
  | frames
  | encodedBytes
deriving DecidableEq, Repr

@[ext]
structure Counts where
  frames : UInt64
  encodedBytes : UInt64
deriving DecidableEq, Repr

/-- Bounds of the charge of one envelope, from `OpaqueHeader`. -/
def minEncodedBytes : Nat := 21
def maxEncodedBytes : Nat := 20 + 65536

namespace Counts

def amount (c : Counts) : Dimension → Nat
  | .frames => c.frames.toNat
  | .encodedBytes => c.encodedBytes.toNat

def zero : Counts := ⟨0, 0⟩

/-- The totals of an envelope batch: as many envelopes as frames fit the bytes. -/
def isEnvelopeBatch (c : Counts) : Bool :=
  c.frames.toNat ≤ c.encodedBytes.toNat / minEncodedBytes &&
    (c.encodedBytes.toNat + maxEncodedBytes - 1) / maxEncodedBytes ≤ c.frames.toNat

def covers (c other : Counts) : Bool :=
  c.frames ≥ other.frames && c.encodedBytes ≥ other.encodedBytes

def min (c other : Counts) : Counts where
  frames := if c.frames < other.frames then c.frames else other.frames
  encodedBytes := if c.encodedBytes < other.encodedBytes then c.encodedBytes else other.encodedBytes

def checkedAddWord (a b : UInt64) : Option UInt64 :=
  if a.toNat + b.toNat < 2 ^ 64 then some (a + b) else none

def checkedSubWord (a b : UInt64) : Option UInt64 :=
  if b ≤ a then some (a - b) else none

def saturatingSubWord (a b : UInt64) : UInt64 := if b ≤ a then a - b else 0

def checkedAdd (c other : Counts) : Option Counts := do
  let frames ← checkedAddWord c.frames other.frames
  let encodedBytes ← checkedAddWord c.encodedBytes other.encodedBytes
  return ⟨frames, encodedBytes⟩

/-- `add`, `none` where the sum is not bounded. -/
def add (c other : Counts) : Option Counts := c.checkedAdd other

/-- `sub`, `none` where more is taken than is accounted. -/
def sub (c other : Counts) : Option Counts := do
  let frames ← checkedSubWord c.frames other.frames
  let encodedBytes ← checkedSubWord c.encodedBytes other.encodedBytes
  return ⟨frames, encodedBytes⟩

def saturatingSub (c other : Counts) : Counts where
  frames := saturatingSubWord c.frames other.frames
  encodedBytes := saturatingSubWord c.encodedBytes other.encodedBytes

/-! ### Amounts -/

variable {a b c : Counts}

theorem amount_lt (c : Counts) (d : Dimension) : c.amount d < 2 ^ 64 := by
  cases d
  · exact c.frames.toNat_lt
  · exact c.encodedBytes.toNat_lt

@[simp] theorem amount_zero (d : Dimension) : zero.amount d = 0 := by cases d <;> rfl

theorem ext_amount (h : ∀ d, a.amount d = b.amount d) : a = b := by
  obtain ⟨f, e⟩ := a
  obtain ⟨f', e'⟩ := b
  obtain rfl := UInt64.toNat_inj.mp (h .frames)
  obtain rfl := UInt64.toNat_inj.mp (h .encodedBytes)
  rfl

theorem covers_iff : a.covers b ↔ ∀ d, b.amount d ≤ a.amount d := by
  constructor
  · intro h d
    simp only [covers, ge_iff_le, Bool.and_eq_true, decide_eq_true_eq, UInt64.le_iff_toNat_le] at h
    cases d
    · exact h.1
    · exact h.2
  · intro h
    simp only [covers, ge_iff_le, Bool.and_eq_true, decide_eq_true_eq, UInt64.le_iff_toNat_le]
    exact ⟨h .frames, h .encodedBytes⟩

@[simp] theorem amount_min (a b : Counts) (d : Dimension) :
    (a.min b).amount d = Min.min (a.amount d) (b.amount d) := by
  have hword (x y : UInt64) : (if x < y then x else y).toNat = Min.min x.toNat y.toNat := by
    split
    · rename_i h
      exact (Nat.min_eq_left (Nat.le_of_lt (UInt64.lt_iff_toNat_lt.mp h))).symm
    · rename_i h
      exact (Nat.min_eq_right (UInt64.le_iff_toNat_le.mp (UInt64.not_lt.mp h))).symm
  cases d <;> exact hword _ _

@[simp] theorem amount_saturatingSub (a b : Counts) (d : Dimension) :
    (a.saturatingSub b).amount d = a.amount d - b.amount d := by
  have hword (x y : UInt64) : (saturatingSubWord x y).toNat = x.toNat - y.toNat := by
    unfold saturatingSubWord
    split
    · rename_i h
      exact UInt64.toNat_sub_of_le _ _ h
    · rename_i h
      have := UInt64.lt_iff_toNat_lt.mp (UInt64.not_le.mp h)
      simp only [UInt64.toNat_zero]
      omega
  cases d <;> exact hword _ _

theorem checkedAddWord_eq_some {x y z : UInt64} :
    checkedAddWord x y = some z ↔ z.toNat = x.toNat + y.toNat := by
  unfold checkedAddWord
  split
  · rename_i h
    rw [Option.some.injEq, ← UInt64.toNat_inj, UInt64.toNat_add, Nat.mod_eq_of_lt h, eq_comm]
  · have hz := z.toNat_lt
    simp only [reduceCtorEq, false_iff]
    omega

theorem checkedSubWord_eq_some {x y z : UInt64} :
    checkedSubWord x y = some z ↔ z.toNat + y.toNat = x.toNat := by
  unfold checkedSubWord
  split
  · rename_i h
    have hle := UInt64.le_iff_toNat_le.mp h
    rw [Option.some.injEq, ← UInt64.toNat_inj, UInt64.toNat_sub_of_le _ _ h]
    omega
  · rename_i h
    have hlt := UInt64.lt_iff_toNat_lt.mp (UInt64.not_le.mp h)
    simp only [reduceCtorEq, false_iff]
    omega

/-- A checked sum is the sum. -/
theorem add_eq_some : a.add b = some c ↔ ∀ d, c.amount d = a.amount d + b.amount d := by
  have hsplit : (∀ d, c.amount d = a.amount d + b.amount d) ↔
      c.frames.toNat = a.frames.toNat + b.frames.toNat ∧
        c.encodedBytes.toNat = a.encodedBytes.toNat + b.encodedBytes.toNat :=
    ⟨fun h => ⟨h .frames, h .encodedBytes⟩, fun h d => by cases d; exacts [h.1, h.2]⟩
  rw [hsplit, ← checkedAddWord_eq_some, ← checkedAddWord_eq_some]
  cases hf : checkedAddWord a.frames b.frames <;>
    cases he : checkedAddWord a.encodedBytes b.encodedBytes <;>
      simp [add, checkedAdd, hf, he, Counts.ext_iff]

/-- A checked difference gives back what was taken. -/
theorem sub_eq_some : a.sub b = some c ↔ ∀ d, c.amount d + b.amount d = a.amount d := by
  have hsplit : (∀ d, c.amount d + b.amount d = a.amount d) ↔
      c.frames.toNat + b.frames.toNat = a.frames.toNat ∧
        c.encodedBytes.toNat + b.encodedBytes.toNat = a.encodedBytes.toNat :=
    ⟨fun h => ⟨h .frames, h .encodedBytes⟩, fun h d => by cases d; exacts [h.1, h.2]⟩
  rw [hsplit, ← checkedSubWord_eq_some, ← checkedSubWord_eq_some]
  cases hf : checkedSubWord a.frames b.frames <;>
    cases he : checkedSubWord a.encodedBytes b.encodedBytes <;> simp [sub, hf, he, Counts.ext_iff]

theorem exists_amount {f : Dimension → Nat} (h : ∀ d, f d < 2 ^ 64) :
    ∃ c : Counts, ∀ d, c.amount d = f d := by
  refine ⟨⟨.ofNat (f .frames), .ofNat (f .encodedBytes)⟩, fun d => ?_⟩
  cases d <;> exact (UInt64.toNat_ofNat').trans (Nat.mod_eq_of_lt (h _))

/-- A checked sum is there when it fits its words. -/
theorem exists_add (h : ∀ d, a.amount d + b.amount d < 2 ^ 64) :
    ∃ c, a.add b = some c ∧ ∀ d, c.amount d = a.amount d + b.amount d := by
  obtain ⟨c, hc⟩ := exists_amount h
  exact ⟨c, add_eq_some.mpr hc, hc⟩

/-- A checked difference is there when no more is taken than there is. -/
theorem exists_sub (h : ∀ d, b.amount d ≤ a.amount d) :
    ∃ c, a.sub b = some c ∧ ∀ d, c.amount d + b.amount d = a.amount d := by
  have hlt (d : Dimension) : a.amount d - b.amount d < 2 ^ 64 :=
    Nat.lt_of_le_of_lt (Nat.sub_le ..) (a.amount_lt d)
  obtain ⟨c, hc⟩ := exists_amount hlt
  have hsum (d : Dimension) : c.amount d + b.amount d = a.amount d := by
    rw [hc, Nat.sub_add_cancel (h d)]
  exact ⟨c, sub_eq_some.mpr hsum, hsum⟩

/-- Taking one part of a bounded total out and putting another part in. -/
theorem exists_move {t : Dimension → Nat}
    (h : ∀ d, t d + b.amount d = a.amount d + c.amount d)
    (hle : ∀ d, b.amount d ≤ a.amount d) (hlt : ∀ d, t d < 2 ^ 64) :
    ∃ less total, a.sub b = some less ∧ less.add c = some total ∧ ∀ d, total.amount d = t d := by
  obtain ⟨less, hless, hless'⟩ := exists_sub hle
  have hsum (d : Dimension) : less.amount d + c.amount d = t d := by
    have := hless' d
    have := h d
    omega
  obtain ⟨total, htotal, htotal'⟩ := exists_add (fun d => (hsum d).symm ▸ hlt d)
  exact ⟨less, total, hless, htotal, fun d => (htotal' d).trans (hsum d)⟩

end Counts

end Windshare.Relay.Flow
