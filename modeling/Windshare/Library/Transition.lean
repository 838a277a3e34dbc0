import Mathlib.Logic.Relation

/-!
# Transition systems

A system is a set of start states together with a labelled step relation.
Safety results about a whole run all have the same shape: a predicate that
holds at the start and survives every step holds in every reachable state, and
a predicate that survives every step holds in every later state. Both rules are
proved here once.
-/

namespace Windshare.Library

/-- A labelled transition system: `step s e t` says that event `e` can take the
system from `s` to `t`. -/
structure System (σ ε : Type*) where
  init : σ → Prop
  step : σ → ε → σ → Prop

namespace System

variable {σ ε : Type*}

/-- The system of a function that computes the next state. -/
def ofFunction (init : σ → Prop) (next : σ → ε → σ) : System σ ε where
  init := init
  step s e t := next s e = t

variable (S : System σ ε)

/-- One step under some event. -/
def Next (s t : σ) : Prop := ∃ e, S.step s e t

/-- `t` is `s` or a state that some run passes after `s`. -/
def Later : σ → σ → Prop := Relation.ReflTransGen S.Next

/-- States that some run from a start state passes. -/
def Reachable (t : σ) : Prop := ∃ s, S.init s ∧ S.Later s t

variable {S} {s t u : σ}

theorem Later.refl (s : σ) : S.Later s s := Relation.ReflTransGen.refl

theorem Later.tail {e : ε} (h : S.Later s t) (hstep : S.step t e u) : S.Later s u :=
  Relation.ReflTransGen.tail h ⟨e, hstep⟩

/-- A predicate kept by every step holds in every later state. -/
theorem Later.stable {P : σ → Prop} (h : S.Later s t) (hs : P s)
    (keep : ∀ s e t, P s → S.step s e t → P t) : P t := by
  induction h with
  | refl => exact hs
  | tail _ hstep ih =>
    obtain ⟨e, hstep⟩ := hstep
    exact keep _ e _ ih hstep

theorem Reachable.of_init (h : S.init s) : S.Reachable s := ⟨s, h, .refl s⟩

theorem Reachable.step {e : ε} (h : S.Reachable s) (hstep : S.step s e t) : S.Reachable t := by
  obtain ⟨start, hinit, hlater⟩ := h
  exact ⟨start, hinit, hlater.tail hstep⟩

/-- A functional system can be run on any list of events. -/
theorem reachable_foldl (init : σ → Prop) (next : σ → ε → σ) (h : init s) (events : List ε) :
    (ofFunction init next).Reachable (events.foldl next s) := by
  have hrun : ∀ t, (ofFunction init next).Reachable t →
      (ofFunction init next).Reachable (events.foldl next t) := by
    induction events with
    | nil => exact fun t ht => ht
    | cons e events ih => exact fun t ht => ih _ (ht.step (e := e) rfl)
  exact hrun s (.of_init h)

/-- The invariant rule. -/
theorem Reachable.invariant {P : σ → Prop} (h : S.Reachable t) (base : ∀ s, S.init s → P s)
    (keep : ∀ s e t, P s → S.step s e t → P t) : P t := by
  obtain ⟨start, hinit, hrun⟩ := h
  exact hrun.stable (base start hinit) keep

/-- The rule for a predicate kept by the steps of reachable states. -/
theorem Later.stable_of_reachable {P : σ → Prop} (h : S.Later s t) (hreach : S.Reachable s)
    (hs : P s) (keep : ∀ s e t, S.Reachable s → P s → S.step s e t → P t) : P t := by
  have both : S.Reachable t ∧ P t := by
    refine h.stable (P := fun x => S.Reachable x ∧ P x) ⟨hreach, hs⟩ ?_
    intro s e t ⟨hr, hp⟩ hstep
    exact ⟨hr.step hstep, keep s e t hr hp hstep⟩
  exact both.2

end System

end Windshare.Library
