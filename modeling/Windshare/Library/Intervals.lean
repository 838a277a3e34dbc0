import Mathlib.Data.Set.Basic
import Mathlib.Order.Basic
import Mathlib.Order.Defs.LinearOrder

/-!
# Lists of intervals

Half-open intervals kept in the order of their starts. Whether one list contains another is
decided by a scan that stops at the first start beyond the wanted one; on an ordered list the
scan misses nothing, so containment is a preorder and grows the set of points.
-/

namespace Windshare.Library

variable {α : Type*} [LinearOrder α]

/-- The points from `offset` up to, not including, `stop`. -/
structure HalfOpen (α : Type*) where
  offset : α
  stop : α
deriving DecidableEq, Repr

namespace HalfOpen

/-- The first interval reaches over the second. -/
def covers (outer inner : HalfOpen α) : Prop :=
  outer.offset ≤ inner.offset ∧ inner.stop ≤ outer.stop

instance (outer inner : HalfOpen α) : Decidable (outer.covers inner) :=
  inferInstanceAs (Decidable (_ ∧ _))

theorem covers.trans {a b c : HalfOpen α} (hab : a.covers b) (hbc : b.covers c) : a.covers c :=
  ⟨hab.1.trans hbc.1, hbc.2.trans hab.2⟩

def points (ranges : List (HalfOpen α)) : Set α :=
  fun p => ∃ r ∈ ranges, r.offset ≤ p ∧ p < r.stop

/-- Starts in strictly increasing order. -/
def Ascending (ranges : List (HalfOpen α)) : Prop :=
  ranges.Pairwise fun earlier later => earlier.offset < later.offset

/-- Scan for an interval that covers the wanted one, up to the first start beyond it. -/
def finds (wanted : HalfOpen α) : List (HalfOpen α) → Bool
  | [] => false
  | r :: rest =>
    if r.covers wanted then true
    else if wanted.offset < r.offset then false
    else finds wanted rest

/-- Every wanted interval is found. -/
def contains (container required : List (HalfOpen α)) : Bool :=
  required.all fun wanted => finds wanted container

theorem finds_iff {wanted : HalfOpen α} {ranges : List (HalfOpen α)} (h : Ascending ranges) :
    finds wanted ranges = true ↔ ∃ r ∈ ranges, r.covers wanted := by
  induction ranges with
  | nil => simp [finds]
  | cons r rest ih =>
    obtain ⟨hafter, hrest⟩ := List.pairwise_cons.mp h
    unfold finds
    by_cases hcovers : r.covers wanted
    · simp [hcovers]
    by_cases hbeyond : wanted.offset < r.offset
    · -- Later intervals start even further on, so none of them can cover it.
      have hnone : ∀ r' ∈ rest, ¬ r'.covers wanted := fun r' hr' hcovers' =>
        absurd (hafter r' hr') (not_lt.mpr (hcovers'.1.trans hbeyond.le))
      simpa [hcovers, hbeyond] using hnone
    · simp [hcovers, hbeyond, ih hrest]

theorem contains_iff {container required : List (HalfOpen α)} (h : Ascending container) :
    contains container required = true ↔ ∀ wanted ∈ required, ∃ r ∈ container, r.covers wanted := by
  unfold contains
  rw [List.all_eq_true]
  exact forall₂_congr fun wanted _ => finds_iff h

theorem contains_trans {a b c : List (HalfOpen α)} (ha : Ascending a) (hb : Ascending b)
    (hab : contains a b = true) (hbc : contains b c = true) : contains a c = true := by
  rw [contains_iff ha]
  intro wanted hwanted
  obtain ⟨middle, hmiddle, hcovers⟩ := (contains_iff hb).mp hbc wanted hwanted
  obtain ⟨outer, houter, hcovers'⟩ := (contains_iff ha).mp hab middle hmiddle
  exact ⟨outer, houter, hcovers'.trans hcovers⟩

theorem points_subset {container required : List (HalfOpen α)} (h : Ascending container)
    (hcontains : contains container required = true) : points required ⊆ points container := by
  rintro p ⟨wanted, hwanted, hoffset, hstop⟩
  obtain ⟨r, hr, hcovers⟩ := (contains_iff h).mp hcontains wanted hwanted
  exact ⟨r, hr, hcovers.1.trans hoffset, hstop.trans_le hcovers.2⟩

end HalfOpen

end Windshare.Library
