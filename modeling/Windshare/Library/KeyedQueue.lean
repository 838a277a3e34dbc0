import Mathlib.Algebra.BigOperators.Group.List.Basic
import Mathlib.Tactic.Ring

/-!
# Queues of values under keys

A queue in which a key enters with its first value, further values of a waiting key join the
first ones, and the oldest key leaves with all of its values. A weight of value lists is summed
over the queue.
-/

namespace Windshare.Library

/-- The keys in order of arrival, each with its values in order of arrival. -/
abbrev KeyedQueue (κ α : Type*) := List (κ × List α)

namespace KeyedQueue

variable {κ α : Type*} [DecidableEq κ] {k : κ} {a : α} {keys : List κ} {f : κ → List α}

def push (k : κ) (a : α) : KeyedQueue κ α → KeyedQueue κ α
  | [] => [(k, [a])]
  | (k', values) :: rest =>
    if k' = k then (k', values ++ [a]) :: rest else (k', values) :: push k a rest

/-- The values that wait under a key. -/
def values (k : κ) : KeyedQueue κ α → List α
  | [] => []
  | (k', values) :: rest => if k' = k then values else KeyedQueue.values k rest

/-- The sum of a weight over the keys. -/
def total (w : List α → Int) (q : KeyedQueue κ α) : Int := (q.map fun entry => w entry.2).sum

omit [DecidableEq κ] in
@[simp] theorem total_nil (w : List α → Int) : total w ([] : KeyedQueue κ α) = 0 := rfl

omit [DecidableEq κ] in
@[simp] theorem total_cons (w : List α → Int) (entry : κ × List α) (q : KeyedQueue κ α) :
    total w (entry :: q) = w entry.2 + total w q := by
  unfold total
  rw [List.map_cons, List.sum_cons]

theorem total_push (w : List α → Int) (hnil : w [] = 0) (k : κ) (a : α) (q : KeyedQueue κ α) :
    total w (push k a q) = total w q + (w (values k q ++ [a]) - w (values k q)) := by
  induction q with
  | nil => simp [push, values, hnil]
  | cons entry rest ih =>
    obtain ⟨k', as⟩ := entry
    unfold push values
    by_cases h : k' = k
    · rw [if_pos h, if_pos h, total_cons, total_cons]
      ring
    · rw [if_neg h, if_neg h, total_cons, total_cons, ih]
      ring

/-! ### Queues given by their keys -/

/-- The queue of some keys and the values of each. -/
def ofKeys (keys : List κ) (f : κ → List α) : KeyedQueue κ α := keys.map fun k => (k, f k)

omit [DecidableEq κ] in
theorem ofKeys_congr {g : κ → List α} (h : ∀ k ∈ keys, f k = g k) : ofKeys keys f = ofKeys keys g :=
  List.map_congr_left fun k hk => by rw [h k hk]

theorem values_ofKeys_of_mem (hk : k ∈ keys) : values k (ofKeys keys f) = f k := by
  induction keys with
  | nil => cases hk
  | cons k' keys ih =>
    change (if k' = k then f k' else values k (ofKeys keys f)) = f k
    by_cases h : k' = k
    · rw [if_pos h, h]
    · rw [if_neg h]
      exact ih ((List.mem_cons.mp hk).resolve_left (Ne.symm h))

theorem values_ofKeys_of_not_mem (hk : k ∉ keys) : values k (ofKeys keys f) = [] := by
  induction keys with
  | nil => rfl
  | cons k' keys ih =>
    obtain ⟨hne, hrest⟩ := List.ne_and_not_mem_of_not_mem_cons hk
    change (if k' = k then f k' else values k (ofKeys keys f)) = []
    rw [if_neg (Ne.symm hne)]
    exact ih hrest

/-- A key that does not wait enters at the end. -/
theorem push_ofKeys_of_not_mem (hk : k ∉ keys) :
    push k a (ofKeys keys f) = ofKeys keys f ++ [(k, [a])] := by
  induction keys with
  | nil => rfl
  | cons k' keys ih =>
    obtain ⟨hne, hrest⟩ := List.ne_and_not_mem_of_not_mem_cons hk
    change (if k' = k then (k', f k' ++ [a]) :: ofKeys keys f
      else (k', f k') :: push k a (ofKeys keys f)) = _
    rw [if_neg (Ne.symm hne), ih hrest]
    rfl

/-- A value of a waiting key joins the others. -/
theorem push_ofKeys_of_mem (hnodup : keys.Nodup) (hk : k ∈ keys) {g : κ → List α}
    (hg : g k = f k ++ [a]) (hother : ∀ k' ∈ keys, k' ≠ k → g k' = f k') :
    push k a (ofKeys keys f) = ofKeys keys g := by
  induction keys with
  | nil => cases hk
  | cons k' keys ih =>
    obtain ⟨hnot, hnodup⟩ := List.nodup_cons.mp hnodup
    change (if k' = k then (k', f k' ++ [a]) :: ofKeys keys f
      else (k', f k') :: push k a (ofKeys keys f)) = (k', g k') :: ofKeys keys g
    by_cases h : k' = k
    · subst h
      rw [if_pos rfl, hg]
      congr 1
      refine ofKeys_congr fun k'' hk'' => (hother k'' (List.mem_cons_of_mem _ hk'') ?_).symm
      rintro rfl
      exact hnot hk''
    · rw [if_neg h, hother k' List.mem_cons_self h,
        ih hnodup ((List.mem_cons.mp hk).resolve_left (Ne.symm h))
          (fun k'' hk'' => hother k'' (List.mem_cons_of_mem _ hk''))]

end KeyedQueue

end Windshare.Library
