import Mathlib.Algebra.Ring.Int.Defs
import Windshare.Relay.Flow.Counts

/-!
# Counts of received envelopes

The model of `receive-ledger/counts.ts`. Counts are bigints, so subtraction does not stop at
zero. Prefixes of a flow are compared by their counts alone. That is enough because every
envelope has a positive size within fixed bounds, so counts that agree in frames agree.
-/

namespace Windshare.Receiver

open Windshare.Relay.Flow (Dimension)

/-- `ReceiveFailure`, and the errors of the Go ledger under the same names. -/
inductive ReceiveFailure where
  | config
  | closed
  | session
  | sessionLimit
  | capacity
  | frameSize
  | counterExhausted
  | receipt
  | retirement
  | frozenPrefix
  | settlement
  | settlementPending
deriving DecidableEq, Repr

/-- The bounds of a full `WS2O` envelope: a route header and a ciphertext. -/
def minEnvelopeBytes : Nat := 20 + 1
def maxEnvelopeBytes : Nat := 20 + 65536

@[ext]
structure ReceiveCounts where
  frames : Int
  encodedBytes : Int
deriving DecidableEq, Repr

namespace ReceiveCounts

def amount (c : ReceiveCounts) : Dimension → Int
  | .frames => c.frames
  | .encodedBytes => c.encodedBytes

def zero : ReceiveCounts := ⟨0, 0⟩

def add (left right : ReceiveCounts) : ReceiveCounts :=
  ⟨left.frames + right.frames, left.encodedBytes + right.encodedBytes⟩

/-- `subtractCounts`. -/
def sub (left right : ReceiveCounts) : ReceiveCounts :=
  ⟨left.frames - right.frames, left.encodedBytes - right.encodedBytes⟩

def envelope (encodedBytes : Nat) : ReceiveCounts := ⟨1, encodedBytes⟩

/-- No dimension exceeds the other counts. -/
def within (c bound : ReceiveCounts) : Bool :=
  c.frames ≤ bound.frames && c.encodedBytes ≤ bound.encodedBytes

variable {a b c : ReceiveCounts} {d : Dimension}

@[simp] theorem amount_zero : zero.amount d = 0 := by cases d <;> rfl

@[simp] theorem amount_add : (a.add b).amount d = a.amount d + b.amount d := by cases d <;> rfl

@[simp] theorem amount_sub : (a.sub b).amount d = a.amount d - b.amount d := by cases d <;> rfl

theorem ext_amount (h : ∀ d, a.amount d = b.amount d) : a = b :=
  ReceiveCounts.ext (h .frames) (h .encodedBytes)

theorem within_iff : a.within b = true ↔ ∀ d, a.amount d ≤ b.amount d := by
  unfold within
  rw [Bool.and_eq_true, decide_eq_true_eq, decide_eq_true_eq]
  constructor
  · rintro ⟨hframes, hbytes⟩ d
    cases d with
    | frames => exact hframes
    | encodedBytes => exact hbytes
  · exact fun h => ⟨h .frames, h .encodedBytes⟩

end ReceiveCounts

/-- `MAX_UINT64` in both dimensions. -/
def maxCounts : ReceiveCounts := ⟨2 ^ 64 - 1, 2 ^ 64 - 1⟩

def appendEnvelope (counts : ReceiveCounts) (encodedBytes : Nat) :
    Except ReceiveFailure ReceiveCounts :=
  if encodedBytes < minEnvelopeBytes ∨ encodedBytes > maxEnvelopeBytes then .error .frameSize
  else if (counts.add (.envelope encodedBytes)).within maxCounts = false then
    .error .counterExhausted
  else .ok (counts.add (.envelope encodedBytes))

/-! ### Prefixes -/

/-- From `a` to `b` a flow received whole envelopes. -/
structure Spans (a b : ReceiveCounts) : Prop where
  frames : a.frames ≤ b.frames
  min : minEnvelopeBytes * (b.frames - a.frames) ≤ b.encodedBytes - a.encodedBytes
  max : b.encodedBytes - a.encodedBytes ≤ maxEnvelopeBytes * (b.frames - a.frames)

namespace Spans

variable {a b c : ReceiveCounts} {d : Dimension}

theorem refl (a : ReceiveCounts) : Spans a a := ⟨le_rfl, by simp, by simp⟩

theorem trans (h : Spans a b) (h' : Spans b c) : Spans a c := by
  have hmin := h.min
  have hmax := h.max
  have hmin' := h'.min
  have hmax' := h'.max
  have hframes := h.frames.trans h'.frames
  refine ⟨hframes, ?_, ?_⟩
  · simp only [minEnvelopeBytes] at *
    omega
  · simp only [maxEnvelopeBytes] at *
    omega

theorem amount_le (h : Spans a b) : a.amount d ≤ b.amount d := by
  have hframes := h.frames
  have hmin := h.min
  cases d with
  | frames => exact hframes
  | encodedBytes =>
    simp only [minEnvelopeBytes, ReceiveCounts.amount] at *
    omega

/-- Prefixes with the same number of envelopes are the same. -/
theorem eq_of_frames (h : Spans a b) (hframes : a.frames = b.frames) : a = b := by
  have hmin := h.min
  have hmax := h.max
  rw [hframes, Int.sub_self, Int.mul_zero] at hmin hmax
  exact ReceiveCounts.ext hframes (by omega)

/-- Different prefixes differ in frames. -/
theorem frames_lt (h : Spans a b) (hne : a ≠ b) : a.frames < b.frames := by
  have hframes := h.frames
  have hneq : a.frames ≠ b.frames := fun heq => hne (h.eq_of_frames heq)
  omega

end Spans

theorem appendEnvelope_ok {counts after : ReceiveCounts} {encodedBytes : Nat}
    (h : appendEnvelope counts encodedBytes = .ok after) :
    after = counts.add (.envelope encodedBytes) ∧ Spans counts after ∧
      counts.frames < after.frames ∧ after.within maxCounts = true := by
  unfold appendEnvelope at h
  split at h
  · cases h
  rename_i hsize
  split at h
  · cases h
  rename_i hfits
  cases h
  refine ⟨rfl, ⟨?_, ?_, ?_⟩, ?_, by simpa using hfits⟩
  all_goals
    simp only [ReceiveCounts.add, ReceiveCounts.envelope]
    omega

end Windshare.Receiver
