import Mathlib.Algebra.Order.BigOperators.Group.List
import Mathlib.Algebra.Order.Ring.Nat
import Windshare.Library.Fallible
import Windshare.Relay.Flow.Counts

/-!
# Delivery totals in both runtimes

The relay tests totals by division, the web client by multiplication. Both ask whether the bytes
are a sum of as many envelope sizes as there are frames.
-/

namespace Windshare.Relay.Flow

open Windshare.Library

structure RelayDeliveryTotals where
  relaySessionId : List UInt8
  totalFrames : Int
  totalEncodedBytes : Int

/-- The codes of `RelayProtocolError` that `validate` throws. -/
inductive RelayProtocolCode where
  | identity
  | malformed

def relaySessionIdBytes : Nat := 8

def RelayDeliveryTotals.validate (totals : RelayDeliveryTotals) :
    Except (RelayProtocolCode × String) Unit := do
  refuse (totals.relaySessionId.length ≠ relaySessionIdBytes ∨
      ¬ totals.relaySessionId.any (· ≠ 0))
    (.identity, "Delivery totals require a relay session ID")
  refuse (totals.totalFrames < 0 ∨ totals.totalFrames > 2 ^ 64 - 1 ∨
      totals.totalEncodedBytes < 0 ∨ totals.totalEncodedBytes > 2 ^ 64 - 1)
    (.malformed, "Delivery totals are outside the unsigned 64-bit domain")
  refuse (totals.totalEncodedBytes < totals.totalFrames * minEncodedBytes ∨
      totals.totalEncodedBytes > totals.totalFrames * maxEncodedBytes)
    (.malformed, "Delivery totals must describe complete WS2O envelopes")

/-- A number is a sum of `n` parts between the bounds if it lies between the sums of the bounds. -/
theorem exists_parts {least most : Nat} (hle : least ≤ most) (n total : Nat) :
    (∃ sizes : List Nat, sizes.length = n ∧ (∀ size ∈ sizes, least ≤ size ∧ size ≤ most) ∧
      sizes.sum = total) ↔ n * least ≤ total ∧ total ≤ n * most := by
  constructor
  · rintro ⟨sizes, rfl, hsizes, rfl⟩
    exact ⟨List.card_nsmul_le_sum sizes least fun size hsize => (hsizes size hsize).1,
      List.sum_le_card_nsmul sizes most fun size hsize => (hsizes size hsize).2⟩
  · induction n generalizing total with
    | zero =>
      rintro ⟨-, htotal⟩
      exact ⟨[], rfl, nofun, by simp at htotal; simp [htotal]⟩
    | succ n ih =>
      rintro ⟨hleast, hmost⟩
      rw [Nat.succ_mul] at hleast hmost
      -- the first part is as large as the others leave it
      obtain ⟨sizes, hlength, hsizes, hsum⟩ := ih (total - min most (total - n * least))
        (by have := Nat.mul_le_mul_left n hle; omega)
      refine ⟨min most (total - n * least) :: sizes, by simp [hlength], ?_, ?_⟩
      · rintro size (_ | ⟨_, hsize⟩)
        · omega
        · exact hsizes size hsize
      · rw [List.sum_cons, hsum]
        omega

theorem isEnvelopeBatch_iff (c : Counts) : c.isEnvelopeBatch ↔
    c.frames.toNat * minEncodedBytes ≤ c.encodedBytes.toNat ∧
      c.encodedBytes.toNat ≤ c.frames.toNat * maxEncodedBytes := by
  unfold Counts.isEnvelopeBatch minEncodedBytes maxEncodedBytes
  rw [Bool.and_eq_true, decide_eq_true_iff, decide_eq_true_iff]
  omega

/-- Both runtimes accept the same totals, and those are the totals of envelopes. -/
theorem delivery_totals_agree (c : Counts) (session : List UInt8) :
    (RelayDeliveryTotals.validate ⟨session, c.frames.toNat, c.encodedBytes.toNat⟩ = .ok () ↔
      (session.length = relaySessionIdBytes ∧ session.any (· ≠ 0)) ∧ c.isEnvelopeBatch) ∧
    (c.isEnvelopeBatch ↔ ∃ sizes : List Nat, sizes.length = c.frames.toNat ∧
      (∀ size ∈ sizes, minEncodedBytes ≤ size ∧ size ≤ maxEncodedBytes) ∧
      sizes.sum = c.encodedBytes.toNat) := by
  refine ⟨?_, ?_⟩
  · have hframes := c.frames.toNat_lt
    have hbytes := c.encodedBytes.toNat_lt
    unfold RelayDeliveryTotals.validate
    simp only [bind_eq_ok, refuse_eq_ok]
    rw [isEnvelopeBatch_iff]
    constructor
    · rintro ⟨-, hsession, -, -, htotals⟩
      rw [not_or, not_not, not_not] at hsession
      exact ⟨hsession, by omega⟩
    · rintro ⟨hsession, hbatch⟩
      refine ⟨(), ?_, (), by omega, by omega⟩
      rw [not_or, not_not, not_not]
      exact hsession
  · rw [isEnvelopeBatch_iff, exists_parts (by decide)]

end Windshare.Relay.Flow
