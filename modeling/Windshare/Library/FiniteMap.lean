import Mathlib.Algebra.BigOperators.Group.List.Basic
import Mathlib.Algebra.GroupWithZero.Nat
import Mathlib.Data.List.Nodup

/-!
# Finite maps

A finite map is a list of entries without a repeated key. The order of the
entries is not part of the interface: lookups and the size are, and the lemmas
say how each operation changes them.
-/

namespace Windshare.Library

/-- A finite map from `K` to `V`. -/
structure FiniteMap (K V : Type*) where
  entries : List (K × V)
  nodup : (entries.map Prod.fst).Nodup

namespace FiniteMap

variable {K V : Type*}

def empty : FiniteMap K V := ⟨[], List.nodup_nil⟩

/-- The number of keys. -/
def size (m : FiniteMap K V) : Nat := m.entries.length

/-- The total of a weight over the entries. -/
def total (m : FiniteMap K V) (w : K → V → Nat) : Nat := (m.entries.map fun e => w e.1 e.2).sum

/-- The number of entries whose value satisfies `p`. -/
def count (m : FiniteMap K V) (p : V → Bool) : Nat := m.total fun _ v => (p v).toNat

/-- Keep the entries that satisfy `p`. -/
def filter (p : K → V → Bool) (m : FiniteMap K V) : FiniteMap K V where
  entries := m.entries.filter fun e => p e.1 e.2
  nodup := m.nodup.sublist (List.filter_sublist.map Prod.fst)

@[simp] theorem size_empty : (empty : FiniteMap K V).size = 0 := rfl

theorem ext_entries {m m' : FiniteMap K V} (h : m.entries = m'.entries) : m = m' := by
  cases m
  cases m'
  subst h
  rfl

theorem size_filter_le (m : FiniteMap K V) (p : K → V → Bool) : (m.filter p).size ≤ m.size :=
  List.length_filter_le _ _

theorem count_le_size (m : FiniteMap K V) (p : V → Bool) : m.count p ≤ m.size := by
  have hlist (entries : List (K × V)) :
      (entries.map fun e => (p e.2).toNat).sum ≤ entries.length := by
    induction entries with
    | nil => exact Nat.le_refl 0
    | cons e =>
      have hle : (p e.2).toNat ≤ 1 := Bool.toNat_le _
      rw [List.map_cons, List.sum_cons, List.length_cons]
      omega
  exact hlist m.entries

variable [DecidableEq K]

def get? (m : FiniteMap K V) (k : K) : Option V :=
  (m.entries.find? fun e => e.1 = k).map Prod.snd

def erase (m : FiniteMap K V) (k : K) : FiniteMap K V := m.filter fun k' _ => k' ≠ k

/-- Bind `k` to `v`, replacing an older binding. -/
def insert (m : FiniteMap K V) (k : K) (v : V) : FiniteMap K V where
  entries := (k, v) :: (m.erase k).entries
  nodup := by
    rw [List.map_cons, List.nodup_cons]
    refine ⟨fun hmem => ?_, (m.erase k).nodup⟩
    obtain ⟨e, he, hk⟩ := List.mem_map.mp hmem
    have := (List.mem_filter.mp he).2
    simp [hk] at this

variable {m : FiniteMap K V} {k k' : K} {v : V}

@[simp] theorem get?_empty : (empty : FiniteMap K V).get? k = none := rfl

theorem mem_entries_iff : (k, v) ∈ m.entries ↔ m.get? k = some v := by
  obtain ⟨entries, hnodup⟩ := m
  induction entries with
  | nil => simp [get?]
  | cons e entries ih =>
    obtain ⟨hne, htail⟩ := List.nodup_cons.mp (by simpa only [List.map_cons] using hnodup)
    have ih := ih htail
    by_cases hk : e.1 = k
    · have hnot : (k, v) ∉ entries := fun h => hne (List.mem_map.mpr ⟨(k, v), h, hk.symm⟩)
      simp only [get?, List.find?_cons, hk, decide_true, Option.map_some, Option.some.injEq,
        List.mem_cons, hnot, or_false]
      constructor
      · rintro rfl
        rfl
      · intro hv
        rw [← hk, ← hv]
    · have hne' : (k, v) ≠ e := fun h => hk (by rw [← h])
      simp only [get?, List.find?_cons, hk, decide_false, List.mem_cons, hne', false_or]
      exact ih

@[grind =] theorem get?_filter (p : K → V → Bool) :
    (m.filter p).get? k = (m.get? k).filter (p k) := by
  apply Option.ext
  intro v
  rw [← mem_entries_iff, Option.filter_eq_some_iff, ← mem_entries_iff]
  exact List.mem_filter

@[grind =] theorem get?_erase : (m.erase k).get? k' = if k = k' then none else m.get? k' := by
  rw [erase, get?_filter]
  by_cases hk : k = k'
  · subst hk
    cases m.get? k <;> simp
  · have hk' : k' ≠ k := fun h => hk h.symm
    cases m.get? k' <;> simp [hk, hk']

@[grind =] theorem get?_insert : (m.insert k v).get? k' = if k = k' then some v else m.get? k' := by
  have hrest : (m.erase k).get? k' = if k = k' then none else m.get? k' := get?_erase
  by_cases hk : k = k'
  · simp [get?, insert, hk]
  · simp only [hk, if_false] at hrest ⊢
    rw [← hrest]
    simp [get?, insert, hk]

@[simp] theorem get?_insert_self : (m.insert k v).get? k = some v := by
  rw [get?_insert, if_pos rfl]

@[simp] theorem get?_erase_self : (m.erase k).get? k = none := by
  rw [get?_erase, if_pos rfl]

theorem erase_of_none (h : m.get? k = none) : m.erase k = m := by
  refine ext_entries (List.filter_eq_self.mpr ?_)
  rintro ⟨k', v⟩ hmem
  have hsome := mem_entries_iff.mp hmem
  have hne : k' ≠ k := by
    rintro rfl
    rw [h] at hsome
    cases hsome
  simpa using hne

theorem size_erase_of_none (h : m.get? k = none) : (m.erase k).size = m.size := by
  rw [erase_of_none h]

/-- A key that was not bound is bound and erased again. -/
theorem erase_insert_of_none (h : m.get? k = none) : (m.insert k v).erase k = m := by
  have hrest : ((m.erase k).erase k) = m := by
    rw [erase_of_none h, erase_of_none h]
  refine (ext_entries ?_).trans hrest
  change ((k, v) :: (m.erase k).entries).filter (fun e => decide (e.1 ≠ k)) = _
  rw [List.filter_cons_of_neg (by simp)]
  rfl

/-- Erasing a key takes its entry from every total. -/
theorem total_erase (m : FiniteMap K V) (k : K) (w : K → V → Nat) :
    (m.erase k).total w + (m.get? k).elim 0 (w k) = m.total w := by
  obtain ⟨entries, hnodup⟩ := m
  induction entries with
  | nil => rfl
  | cons e entries ih =>
    obtain ⟨hne, htail⟩ := List.nodup_cons.mp (by simpa only [List.map_cons] using hnodup)
    have ih := ih htail
    change ((entries.filter fun e => decide (e.1 ≠ k)).map fun e => w e.1 e.2).sum + _ =
      (entries.map fun e => w e.1 e.2).sum at ih
    change (((e :: entries).filter fun e => decide (e.1 ≠ k)).map fun e => w e.1 e.2).sum + _ =
      ((e :: entries).map fun e => w e.1 e.2).sum
    rw [List.map_cons, List.sum_cons]
    by_cases hk : e.1 = k
    · have hrest : ∀ e' ∈ entries, decide (e'.1 ≠ k) = true := by
        intro e' he'
        refine decide_eq_true fun hk' => hne (List.mem_map.mpr ⟨e', he', ?_⟩)
        exact hk'.trans hk.symm
      rw [List.filter_cons_of_neg (by simp [hk]), List.filter_eq_self.mpr hrest]
      simp [get?, hk, Nat.add_comm]
    · rw [List.filter_cons_of_pos (by simp [hk]), List.map_cons, List.sum_cons]
      have hget : (⟨e :: entries, hnodup⟩ : FiniteMap K V).get? k =
          (⟨entries, htail⟩ : FiniteMap K V).get? k := by
        simp [get?, hk]
      rw [hget]
      omega

theorem size_erase_of_some (h : m.get? k = some v) : (m.erase k).size + 1 = m.size := by
  have hsize (m : FiniteMap K V) : m.total (fun _ _ => 1) = m.size := by simp [total, size]
  have herase := total_erase m k fun _ _ => 1
  rw [hsize, hsize, h] at herase
  exact herase

@[grind =] theorem size_insert_of_none (h : m.get? k = none) :
    (m.insert k v).size = m.size + 1 := by
  have hsize := size_erase_of_none h
  exact congrArg (· + 1) hsize

theorem size_insert_of_some {w : V} (h : m.get? k = some w) : (m.insert k v).size = m.size :=
  size_erase_of_some h

theorem total_insert (m : FiniteMap K V) (k : K) (v : V) (w : K → V → Nat) :
    (m.insert k v).total w + (m.get? k).elim 0 (w k) = m.total w + w k v := by
  have herase := total_erase m k w
  have hcons : (m.insert k v).total w = w k v + (m.erase k).total w := List.sum_cons
  omega

theorem count_erase (m : FiniteMap K V) (k : K) (p : V → Bool) :
    (m.erase k).count p + ((m.get? k).elim 0 fun v => (p v).toNat) = m.count p :=
  total_erase m k _

theorem count_insert (m : FiniteMap K V) (k : K) (v : V) (p : V → Bool) :
    (m.insert k v).count p + ((m.get? k).elim 0 fun v => (p v).toNat) = m.count p + (p v).toNat :=
  total_insert m k v _

end FiniteMap

end Windshare.Library
