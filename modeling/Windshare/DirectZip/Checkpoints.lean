import Mathlib.Algebra.Ring.Int.Defs
import Windshare.Library.Fallible

/-!
# Automatic checkpoints of a Direct ZIP archive

A checkpoint closes an epoch, and the next epoch copies the whole durable prefix again before it
appends. The policy lets an automatic checkpoint through only when the archive has doubled since
the last durable length. A run of the writer is modelled by the lengths it keeps and by the
automatic cuts it makes. What those cuts have copied stays below twice the archive.
-/

namespace Windshare.DirectZip

open Windshare.Library

/-! ### The policy -/

structure AutomaticEpochPolicy where
  minimumAdvanceBytes : Int

inductive DeclineReason where
  | policyUnavailable
  | insufficientProgress

inductive AutomaticCheckpointDecision where
  | admitted (additionalTemporaryBytesUpperBound : Int)
  | declined (reason : DeclineReason) (additionalTemporaryBytesUpperBound : Int)

def requireOffset (value : Int) (label : String) : Except String Unit :=
  -- `Number.MAX_SAFE_INTEGER`
  refuse (value < 0 ∨ value > 2 ^ 53 - 1) (label ++ " exceeds the positioned target bound")

def requirePolicy (policy : AutomaticEpochPolicy) : Except String Unit := do
  requireOffset policy.minimumAdvanceBytes "direct ZIP automatic minimum advance"
  refuse (policy.minimumAdvanceBytes = 0) "direct ZIP automatic minimum advance must be positive"

def decideAutomaticCheckpoint (archiveOffset committedLength : Int)
    (policy : Option AutomaticEpochPolicy) : Except String AutomaticCheckpointDecision := do
  requireOffset committedLength "direct ZIP committed length"
  requireOffset archiveOffset "direct ZIP archive offset"
  refuse (archiveOffset < committedLength)
    "direct ZIP archive offset precedes its durable checkpoint"
  match policy with
  | none => return .declined .policyUnavailable archiveOffset
  | some policy =>
    requirePolicy policy
    let requiredAdvance := if committedLength > policy.minimumAdvanceBytes then committedLength
      else policy.minimumAdvanceBytes
    if archiveOffset - committedLength < requiredAdvance then
      return .declined .insufficientProgress archiveOffset
    return .admitted archiveOffset

theorem doubled_of_admitted {archiveOffset committedLength bound : Int}
    {policy : Option AutomaticEpochPolicy}
    (h : decideAutomaticCheckpoint archiveOffset committedLength policy = .ok (.admitted bound)) :
    2 * committedLength ≤ archiveOffset ∧ 0 < archiveOffset := by
  unfold decideAutomaticCheckpoint requireOffset at h
  simp only [bind_eq_ok, refuse_eq_ok] at h
  obtain ⟨-, hcommitted, -, -, -, -, h⟩ := h
  cases policy with
  | none => cases h
  | some policy =>
    unfold requirePolicy requireOffset at h
    simp only [bind_eq_ok, refuse_eq_ok] at h
    obtain ⟨-, ⟨-, hbound, hpositive⟩, h⟩ := h
    by_cases hless : archiveOffset - committedLength < (if committedLength >
        policy.minimumAdvanceBytes then committedLength else policy.minimumAdvanceBytes)
    · rw [if_pos hless] at h
      cases h
    · split at hless <;> omega

/-! ### The writer -/

/-- The lengths in a durable checkpoint. -/
structure Checkpoint where
  archiveOffset : Int
  committedLength : Int

structure Writer where
  checkpoint : Checkpoint
  archiveOffset : Int
  automaticPolicy : Option AutomaticEpochPolicy

/-- How the candidate of a closed epoch is resolved. -/
inductive Resolution where
  | promoted
  | replay
  | gated

/-- An automatic checkpoint that was promoted: the archive it closed, and the prefix that the next
epoch opens with. -/
structure Cut where
  archiveOffset : Int
  copied : Int

namespace Writer

def adoptCheckpoint (w : Writer) (checkpoint : Checkpoint) : Writer :=
  { w with checkpoint := checkpoint, archiveOffset := checkpoint.archiveOffset }

def checkpointEpoch (w : Writer) (resolution : Resolution) : Writer :=
  if w.archiveOffset = w.checkpoint.committedLength then w
  else match resolution with
    | .promoted => w.adoptCheckpoint ⟨w.archiveOffset, w.archiveOffset⟩
    | .replay => w.adoptCheckpoint w.checkpoint
    | .gated => w

def automaticCheckpoint (w : Writer) (resolution : Resolution) : Writer × List Cut :=
  match decideAutomaticCheckpoint w.archiveOffset w.checkpoint.committedLength
      w.automaticPolicy with
  | .ok (.admitted _) =>
    let next := w.checkpointEpoch resolution
    (next, match resolution with
      | .promoted => [⟨w.archiveOffset, next.checkpoint.committedLength⟩]
      | _ => [])
  | _ => (w, [])

def writeArchive (w : Writer) (bytes : Nat) : Writer :=
  -- `checkedZipAdd` throws outside uint64
  if 0 ≤ w.archiveOffset ∧ w.archiveOffset + bytes ≤ 2 ^ 64 - 1 then
    { w with archiveOffset := w.archiveOffset + bytes }
  else w

/-- What happens to a writer. `reopen` is a writer made on a stored checkpoint. -/
inductive Action where
  | write (bytes : Nat)
  | automaticCheckpoint (resolution : Resolution)
  | pause (resolution : Resolution)
  | discardUncommitted
  | reopen (checkpoint : Checkpoint) (policy : Option AutomaticEpochPolicy)

def step (w : Writer) : Action → Writer × List Cut
  | .write bytes => (w.writeArchive bytes, [])
  | .automaticCheckpoint resolution => w.automaticCheckpoint resolution
  | .pause resolution => (w.checkpointEpoch resolution, [])
  | .discardUncommitted => (w.adoptCheckpoint w.checkpoint, [])
  | .reopen checkpoint policy => (⟨checkpoint, checkpoint.archiveOffset, policy⟩, [])

/-- The automatic cuts of a run. -/
def cuts (w : Writer) : List Action → List Cut
  | [] => []
  | action :: actions => (w.step action).2 ++ (w.step action).1.cuts actions

/-- The committed length never decreases. -/
def Forward (w : Writer) : List Action → Prop
  | [] => True
  | action :: actions =>
    w.checkpoint.committedLength ≤ (w.step action).1.checkpoint.committedLength ∧
      (w.step action).1.Forward actions

/-! ### What the cuts have copied -/

variable {w : Writer} {made : List Cut} {committed : Int}

/-- An automatic checkpoint makes no cut, or it makes the doubled archive durable. -/
theorem automaticCheckpoint_cases (w : Writer) (resolution : Resolution) :
    (w.automaticCheckpoint resolution).2 = [] ∨
      2 * w.checkpoint.committedLength ≤ w.archiveOffset ∧ 0 < w.archiveOffset ∧
        (w.automaticCheckpoint resolution).1.checkpoint.committedLength = w.archiveOffset ∧
        (w.automaticCheckpoint resolution).2 = [⟨w.archiveOffset, w.archiveOffset⟩] := by
  unfold automaticCheckpoint
  split
  · rename_i bound hdecision
    cases resolution with
    | promoted =>
      obtain ⟨hdoubled, hpositive⟩ := doubled_of_admitted hdecision
      have hopen : w.archiveOffset ≠ w.checkpoint.committedLength := by omega
      have hnext : w.checkpointEpoch .promoted =
          w.adoptCheckpoint ⟨w.archiveOffset, w.archiveOffset⟩ := if_neg hopen
      rw [hnext]
      exact .inr ⟨hdoubled, hpositive, rfl, rfl⟩
    | replay | gated => exact .inl rfl
  · exact .inl rfl

/-- The cuts so far are paid for by the last one, which is durable. -/
def Paid (made : List Cut) (committed : Int) : Prop :=
  ∀ earlier last, made = earlier ++ [last] →
    (made.map Cut.copied).sum < 2 * last.archiveOffset ∧ last.archiveOffset ≤ committed

/-- The cuts so far copied less than an archive that has doubled. -/
theorem Paid.sum_lt {archive : Int} (h : Paid made committed) (hdoubled : 2 * committed ≤ archive)
    (hpositive : 0 < archive) : (made.map Cut.copied).sum < archive := by
  obtain rfl | ⟨earlier, last, hmade⟩ := made.eq_nil_or_concat
  · exact hpositive
  · obtain ⟨hsum, hlast⟩ := h earlier last (hmade.trans List.concat_eq_append)
    omega

theorem Paid.step (h : Paid made w.checkpoint.committedLength) (action : Action)
    (hforward : w.checkpoint.committedLength ≤ (w.step action).1.checkpoint.committedLength) :
    Paid (made ++ (w.step action).2) (w.step action).1.checkpoint.committedLength := by
  have hnone (hcuts : (w.step action).2 = []) :
      Paid (made ++ (w.step action).2) (w.step action).1.checkpoint.committedLength := by
    rw [hcuts, List.append_nil]
    intro earlier last hmade
    obtain ⟨hsum, hlast⟩ := h earlier last hmade
    exact ⟨hsum, Int.le_trans hlast hforward⟩
  cases action with
  | automaticCheckpoint resolution =>
    obtain hcuts | ⟨hdoubled, hpositive, hcommitted, hcuts⟩ :=
      automaticCheckpoint_cases w resolution
    · exact hnone hcuts
    · have hsum := h.sum_lt hdoubled hpositive
      change Paid (made ++ (w.automaticCheckpoint resolution).2)
        (w.automaticCheckpoint resolution).1.checkpoint.committedLength
      rw [hcommitted, hcuts]
      intro earlier last hmade
      obtain rfl : _ = last := List.singleton_inj.mp (List.append_inj_right' hmade rfl)
      refine ⟨?_, Int.le_refl _⟩
      rw [List.map_append, List.sum_append]
      change _ + (w.archiveOffset + 0) < 2 * w.archiveOffset
      omega
  | _ => exact hnone rfl

theorem Paid.run (h : Paid made w.checkpoint.committedLength) {actions : List Action}
    (hforward : w.Forward actions) : ∃ committed, Paid (made ++ w.cuts actions) committed := by
  induction actions generalizing w made with
  | nil =>
    refine ⟨w.checkpoint.committedLength, ?_⟩
    rw [cuts, List.append_nil]
    exact h
  | cons action actions ih =>
    obtain ⟨hstep, hrest⟩ := hforward
    rw [cuts, ← List.append_assoc]
    exact ih (h.step action hstep) hrest

end Writer

end Windshare.DirectZip
