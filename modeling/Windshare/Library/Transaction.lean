import Mathlib.Logic.Basic

/-!
# Transactions that can be refused or panic

A transaction reads and writes a state and then returns, is refused for a reason, or
panics. The state stays as the transaction left it in each case, so that a refusal
after a write is a visible fault of the program and not hidden by the model.

Programs are reasoned about by weakest preconditions. `wp x Q E s` says that from `s`
the transaction does not panic, that `Q` holds of what it returns and leaves, and that
`E` holds of the reason and the state it leaves when it is refused.
-/

namespace Windshare.Library

/-- How a transaction fails. A failed `expect` is a panic. -/
inductive Fault (ρ : Type) where
  | refused (reason : ρ)
  | panicked
deriving DecidableEq, Repr

/-- Transactions on states `σ` with refusals `ρ`. -/
abbrev Txn (σ ρ : Type) := ExceptT (Fault ρ) (StateM σ)

namespace Txn

variable {σ ρ α β : Type}

/-- Run a transaction. -/
def exec (x : Txn σ ρ α) (s : σ) : Except (Fault ρ) α × σ := (ExceptT.run x).run s

def refuse (reason : ρ) : Txn σ ρ α := throw (.refused reason)

/-- Go on only under a condition. -/
def require (c : Prop) [Decidable c] (reason : ρ) : Txn σ ρ Unit :=
  if c then pure () else refuse reason

/-- The value of a checked computation, which the program takes for granted. -/
def expect (o : Option α) : Txn σ ρ α :=
  match o with
  | some a => pure a
  | none => throw .panicked

/-- The value of a computation that may be missing. -/
def orRefuse (o : Option α) (reason : ρ) : Txn σ ρ α :=
  match o with
  | some a => pure a
  | none => refuse reason

/-! ### Weakest preconditions -/

def wp (x : Txn σ ρ α) (Q : α → σ → Prop) (E : ρ → σ → Prop) (s : σ) : Prop :=
  match x.exec s with
  | (.ok a, t) => Q a t
  | (.error (.refused reason), t) => E reason t
  | (.error .panicked, _) => False

variable {Q Q' : α → σ → Prop} {E E' : ρ → σ → Prop} {s t : σ}

@[simp] theorem wp_pure (a : α) : wp (pure a : Txn σ ρ α) Q E s ↔ Q a s := Iff.rfl

@[simp] theorem wp_refuse (reason : ρ) : wp (refuse reason : Txn σ ρ α) Q E s ↔ E reason s :=
  Iff.rfl

@[simp] theorem wp_get {Q : σ → σ → Prop} : wp (get : Txn σ ρ σ) Q E s ↔ Q s s := Iff.rfl

@[simp] theorem wp_set {Q : PUnit → σ → Prop} : wp (set t : Txn σ ρ PUnit) Q E s ↔ Q ⟨⟩ t :=
  Iff.rfl

@[simp] theorem wp_modify {Q : PUnit → σ → Prop} (f : σ → σ) :
    wp (modify f : Txn σ ρ PUnit) Q E s ↔ Q ⟨⟩ (f s) := Iff.rfl

theorem exec_bind (x : Txn σ ρ α) (f : α → Txn σ ρ β) (s : σ) :
    (x >>= f).exec s =
      match x.exec s with
      | (.ok a, t) => (f a).exec t
      | (.error e, t) => (.error e, t) := by
  simp only [exec, ExceptT.run_bind, StateT.run_bind]
  rcases h : (ExceptT.run x).run s with ⟨_ | _, t⟩ <;> rfl

@[simp] theorem wp_bind (x : Txn σ ρ α) (f : α → Txn σ ρ β) {Q : β → σ → Prop} :
    wp (x >>= f) Q E s ↔ wp x (fun a t => wp (f a) Q E t) E s := by
  unfold wp
  rw [exec_bind]
  rcases x.exec s with ⟨(_ | _) | _, t⟩ <;> rfl

@[simp] theorem wp_map (f : α → β) (x : Txn σ ρ α) {Q : β → σ → Prop} :
    wp (f <$> x) Q E s ↔ wp x (fun a t => Q (f a) t) E s := by
  rw [← bind_pure_comp, wp_bind]
  simp only [wp_pure]

@[simp] theorem wp_require (c : Prop) [Decidable c] (reason : ρ) {Q : Unit → σ → Prop} :
    wp (require c reason : Txn σ ρ Unit) Q E s ↔ (c → Q () s) ∧ (¬ c → E reason s) := by
  by_cases h : c <;> simp [require, h]

@[simp] theorem wp_expect (o : Option α) :
    wp (expect o : Txn σ ρ α) Q E s ↔ ∃ a, o = some a ∧ Q a s := by
  cases o with
  | none => exact ⟨False.elim, fun ⟨_, h, _⟩ => by cases h⟩
  | some => simp [expect]

@[simp] theorem wp_orRefuse (o : Option α) (reason : ρ) :
    wp (orRefuse o reason : Txn σ ρ α) Q E s ↔
      (∀ a, o = some a → Q a s) ∧ (o = none → E reason s) := by
  cases o <;> simp [orRefuse]

theorem wp_ite (c : Prop) [Decidable c] (x y : Txn σ ρ α) :
    wp (if c then x else y) Q E s ↔ (c → wp x Q E s) ∧ (¬ c → wp y Q E s) := by
  by_cases h : c <;> simp [h]

/-- What a transaction comes to: it returns or is refused. -/
theorem wp_cases {x : Txn σ ρ α} (h : wp x Q E s) :
    (∃ a t, x.exec s = (.ok a, t) ∧ Q a t) ∨
      ∃ reason t, x.exec s = (.error (.refused reason), t) ∧ E reason t := by
  unfold wp at h
  split at h
  · rename_i a t heq
    exact .inl ⟨a, t, heq, h⟩
  · rename_i reason t heq
    exact .inr ⟨reason, t, heq, h⟩
  · exact h.elim

end Txn

end Windshare.Library
