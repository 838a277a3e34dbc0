import Mathlib.Data.List.Basic
import Mathlib.Data.List.Nodup
import Mathlib.Order.Nat

/-!
# Chains of parents

Nodes of a forest are numbered in the order they are created, so a parent always
has a smaller number than its children. `ParentMap.chain` lists a node followed
by its ancestors, which is the order in which a loop of the form
`for node != nil { ...; node = node.parent }` visits them.
-/

namespace Windshare.Library

/-- A forest given by the parent of each node, with every parent created before
its children. -/
structure ParentMap where
  parent : Nat → Option Nat
  parent_lt : ∀ i p, parent i = some p → p < i

namespace ParentMap

/-- Follow parents for at most `fuel` nodes. -/
def walk (parent : Nat → Option Nat) : Nat → Nat → List Nat
  | 0, _ => []
  | fuel + 1, i => i :: ((parent i).map (walk parent fuel)).getD []

variable (t : ParentMap) {i j k p : Nat}

/-- A node followed by its ancestors up to its root. -/
def chain (i : Nat) : List Nat := walk t.parent (i + 1) i

theorem walk_eq_chain {fuel : Nat} (h : i < fuel) : walk t.parent fuel i = t.chain i := by
  induction i using Nat.strongRecOn generalizing fuel with
  | ind i ih =>
    obtain ⟨fuel, rfl⟩ : ∃ f, fuel = f + 1 := ⟨fuel - 1, by omega⟩
    unfold chain
    cases hp : t.parent i with
    | none => simp [walk, hp]
    | some p =>
      have hlt := t.parent_lt i p hp
      simp only [walk, hp, Option.map_some, Option.getD_some]
      rw [ih p hlt (show p < fuel by omega), ih p hlt hlt]

/-- One turn of the loop over a node and its ancestors. -/
theorem chain_eq (i : Nat) : t.chain i = i :: ((t.parent i).map t.chain).getD [] := by
  cases hp : t.parent i with
  | none => simp [chain, walk, hp]
  | some p =>
    have hlt := t.parent_lt i p hp
    simp only [chain, walk, hp, Option.map_some, Option.getD_some]
    rw [walk_eq_chain t hlt]
    rfl

@[simp] theorem mem_chain_self : i ∈ t.chain i := by
  rw [chain_eq]
  exact List.mem_cons_self

theorem chain_of_parent (hp : t.parent i = some p) : t.chain i = i :: t.chain p := by
  rw [chain_eq, hp]
  rfl

theorem chain_of_root (hp : t.parent i = none) : t.chain i = [i] := by
  rw [chain_eq, hp]
  rfl

theorem le_of_mem_chain (h : j ∈ t.chain i) : j ≤ i := by
  induction i using Nat.strongRecOn with
  | ind i ih =>
    cases hp : t.parent i with
    | none => simp_all [chain_of_root]
    | some p =>
      have hlt := t.parent_lt i p hp
      rw [t.chain_of_parent hp, List.mem_cons] at h
      rcases h with rfl | h
      · exact le_rfl
      · exact (ih p hlt h).trans hlt.le

theorem nodup_chain (i : Nat) : (t.chain i).Nodup := by
  induction i using Nat.strongRecOn with
  | ind i ih =>
    cases hp : t.parent i with
    | none => simp [t.chain_of_root hp]
    | some p =>
      have hlt := t.parent_lt i p hp
      rw [t.chain_of_parent hp, List.nodup_cons]
      refine ⟨fun hmem => ?_, ih p hlt⟩
      have := t.le_of_mem_chain hmem
      omega

theorem mem_chain_trans (hij : j ∈ t.chain i) (hjk : k ∈ t.chain j) : k ∈ t.chain i := by
  induction i using Nat.strongRecOn with
  | ind i ih =>
    cases hp : t.parent i with
    | none =>
      rw [t.chain_of_root hp, List.mem_singleton] at hij
      exact hij ▸ hjk
    | some p =>
      rw [t.chain_of_parent hp, List.mem_cons] at hij ⊢
      rcases hij with rfl | hij
      · rw [t.chain_of_parent hp, List.mem_cons] at hjk
        exact hjk
      · exact .inr (ih p (t.parent_lt i p hp) hij)

/-- A chain only depends on the parents of nodes up to its start. -/
theorem chain_congr {t u : ParentMap} (h : ∀ j ≤ i, t.parent j = u.parent j) :
    t.chain i = u.chain i := by
  induction i using Nat.strongRecOn with
  | ind i ih =>
    have hi := h i le_rfl
    cases hp : t.parent i with
    | none => rw [t.chain_of_root hp, u.chain_of_root (hi ▸ hp)]
    | some p =>
      have hlt := t.parent_lt i p hp
      rw [t.chain_of_parent hp, u.chain_of_parent (hi ▸ hp),
        ih p hlt fun j hj => h j (hj.trans hlt.le)]

end ParentMap

end Windshare.Library
