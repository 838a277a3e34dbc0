import Windshare.Library.Transition
import Windshare.WebOperation.Replay

/-!
# Messages presented to an authority

Messages are presented one after another, to the operation or to its tombstone. The reservation
of one is accepted or rolled back before the next is presented. The authority may be retired or
closed at any time in between.
-/

namespace Windshare.WebOperation

open Windshare.Library Windshare.Protocol Windshare.Session Windshare.Operation

variable {D : Type}

/-- How the call for a message ended. -/
inductive Verdict where
  | dropped
  | violation
  | delivered
deriving DecidableEq, Repr

/-- An authority with the call or the reservation that is outstanding, the verdict on the last
message and, newest first, the messages accepted for delivery. -/
structure Host (D : Type) where
  authority : Authority D
  call : Option Suspended
  reservation : Option (Message × Undo D)
  verdict : Option Verdict
  accepted : List Message

/-- `accept` and `rollback` settle the outstanding reservation, if there is one. -/
inductive HostEvent where
  | present (route : Route) (m : Message)
  | digest
  | interrupt (i : Interruption)
  | accept
  | rollback

namespace Host

variable [DecidableEq D] (c : Contract D) (h : Host D)

def start : Host D := ⟨.new, none, none, none, []⟩

/-- The call for `m` ends. -/
def conclude (m : Message) (a : Authority D) : Outcome D → Host D
  | .dropped => ⟨a, none, none, some .dropped, h.accepted⟩
  | .violation => ⟨a, none, none, some .violation, h.accepted⟩
  | .deliver _ u => ⟨a, none, some (m, u), some .delivered, h.accepted⟩

/-- No message is outstanding. -/
def Idle : Prop := h.call = none ∧ h.reservation = none

instance : Decidable h.Idle := inferInstanceAs (Decidable (_ ∧ _))

def present (route : Route) (m : Message) : Host D :=
  match h.authority.present c route m with
  | .done outcome => h.conclude m h.authority outcome
  | .awaiting call => { h with call := some call, verdict := none }

def next : HostEvent → Host D
  | .present route m => if h.Idle then h.present c route m else h
  | .digest =>
    match h.call with
    | none => h
    | some call =>
      h.conclude call.message (h.authority.resume c call).1 (h.authority.resume c call).2
  | .interrupt i => { h with authority := h.authority.interrupt i }
  | .accept =>
    match h.reservation with
    | none => h
    | some (m, _) => { h with reservation := none, accepted := m :: h.accepted }
  | .rollback =>
    match h.reservation with
    | none => h
    | some (_, u) => { h with authority := h.authority.undo u, reservation := none }

def run (events : List HostEvent) : Host D := events.foldl (next c) h

/-- Every order of messages, interruptions and settlements. -/
def system : System (Host D) HostEvent := .ofFunction (· = start) (next c)

end Host

/-- Both ways to settle the outstanding reservation leave an authority that knows the accepted
messages. -/
structure Host.Sound [DecidableEq D] (c : Contract D) (h : Host D) : Prop where
  knows : h.reservation = none → Knows c h.authority h.accepted
  reserved : ∀ m u, h.reservation = some (m, u) → h.call = none ∧
    Knows c h.authority (m :: h.accepted) ∧ Knows c (h.authority.undo u) h.accepted
  awaits : ∀ call, h.call = some call → Awaits c h.authority call.message call

variable {slot : ReplaySlot} {f : D} {without : Host D} {a : Authority D} {call : Suspended}
  {outcome : Outcome D} {before : Host D}

namespace Host.Sound

variable [DecidableEq D] {c : Contract D} {h : Host D}

theorem start (c : Contract D) : Host.Sound c (.start : Host D) where
  knows := fun _ => .new c
  reserved := nofun
  awaits := nofun

theorem reservation_eq_none (hs : h.Sound c) (hcall : h.call = some call) :
    h.reservation = none := by
  cases hreservation : h.reservation with
  | none => rfl
  | some r =>
    obtain ⟨m, u⟩ := r
    have hnone := (hs.reserved m u hreservation).1
    rw [hcall] at hnone
    cases hnone

theorem conclude {m : Message} (hknows : Knows c h.authority h.accepted)
    (hends : Ends c h.authority h.accepted m a outcome) : (h.conclude m a outcome).Sound c := by
  cases outcome with
  | dropped | violation => exact ⟨fun _ => hends, nofun, nofun⟩
  | deliver =>
    obtain ⟨hundo, hdelivered⟩ := hends
    refine ⟨nofun, ?_, nofun⟩
    rintro _ _ ⟨⟩
    exact ⟨rfl, hdelivered, hundo.symm ▸ hknows⟩

theorem present (hs : h.Sound c) (hidle : h.Idle) (route : Route) (m : Message) :
    (h.present c route m).Sound c := by
  have hknows := hs.knows hidle.2
  have hbegins := hknows.present route m
  unfold Host.present
  cases hturn : h.authority.present c route m with
  | done =>
    rw [hturn] at hbegins
    exact conclude hknows hbegins
  | awaiting =>
    rw [hturn] at hbegins
    refine ⟨fun _ => hknows, ?_, ?_⟩
    · intro m u hreservation
      rw [hidle.2] at hreservation
      cases hreservation
    · rintro _ ⟨⟩
      exact ⟨rfl, hbegins.message ▸ hbegins.admits, hbegins.fits⟩

theorem digest (hs : h.Sound c) : (h.next c .digest).Sound c := by
  unfold Host.next
  cases hcall : h.call with
  | none => exact hs
  | some call =>
    have hknows := hs.knows (hs.reservation_eq_none hcall)
    exact conclude hknows (hknows.resume (hs.awaits call hcall))

theorem interrupt (hs : h.Sound c) (i : Interruption) : (h.next c (.interrupt i)).Sound c := by
  refine ⟨fun hnone => (hs.knows hnone).interrupt i, ?_, fun call hcall =>
    (hs.awaits call hcall).interrupt i⟩
  intro m u hreservation
  obtain ⟨hcall, haccepted, hundone⟩ := hs.reserved m u hreservation
  refine ⟨hcall, haccepted.interrupt i, ?_⟩
  change Knows c ((h.authority.interrupt i).undo u) h.accepted
  rw [Authority.undo_interrupt]
  exact hundone.interrupt i

theorem next (hs : h.Sound c) (e : HostEvent) : (h.next c e).Sound c := by
  cases e with
  | digest => exact hs.digest
  | interrupt i => exact hs.interrupt i
  | present route m =>
    change (if h.Idle then h.present c route m else h).Sound c
    split
    · rename_i hidle
      exact hs.present hidle route m
    · exact hs
  | accept =>
    unfold Host.next
    cases hreservation : h.reservation with
    | none => exact hs
    | some r =>
      obtain ⟨m, u⟩ := r
      obtain ⟨hcall, haccepted, -⟩ := hs.reserved m u hreservation
      exact ⟨fun _ => haccepted, nofun, fun call h => by cases hcall.symm.trans h⟩
  | rollback =>
    unfold Host.next
    cases hreservation : h.reservation with
    | none => exact hs
    | some r =>
      obtain ⟨m, u⟩ := r
      obtain ⟨hcall, -, hundone⟩ := hs.reserved m u hreservation
      exact ⟨fun _ => hundone, nofun, fun call h => by cases hcall.symm.trans h⟩

theorem reachable (hreach : (Host.system c).Reachable h) : h.Sound c := by
  refine hreach.invariant ?_ ?_
  · rintro _ rfl
    exact start c
  · rintro h e _ hs rfl
    exact hs.next e

end Host.Sound

/-! ### One outstanding message -/

namespace Host

variable [DecidableEq D] {c : Contract D} {h : Host D} {route : Route} {m : Message}
  {events : List HostEvent}

theorem next_digest_of_some (hcall : h.call = some call) : h.next c .digest =
      h.conclude call.message (h.authority.resume c call).1 (h.authority.resume c call).2 := by
  unfold next
  rw [hcall]

theorem next_digest_of_none (hcall : h.call = none) : h.next c .digest = h := by
  unfold next
  rw [hcall]

/-- The repeat of an accepted message was dropped, or is being compared. -/
structure Repeats (c : Contract D) (before : Host D) (m : Message) (h : Host D) : Prop where
  sound : h.Sound c
  accepted : h.accepted = before.accepted
  reservation : h.reservation = none
  message : ∀ call, h.call = some call → call.message = m
  verdict : h.call = none → h.verdict = some .dropped

theorem Repeats.digest (h' : Repeats c before m h) (hm : m ∈ before.accepted)
    (hkind : Replayable m.kind) : Repeats c before m (h.next c .digest) := by
  cases hcall : h.call with
  | none => exact (next_digest_of_none (c := c) hcall).symm ▸ h'
  | some call =>
    have hknows := h'.sound.knows h'.reservation
    have hawaits := h'.sound.awaits call hcall
    rw [h'.message call hcall] at hawaits
    have hdropped := hknows.resume_repeat hawaits (h'.accepted ▸ hm) hkind
    have hsound := h'.sound.digest
    rw [next_digest_of_some hcall, hdropped] at hsound ⊢
    exact ⟨hsound, h'.accepted, rfl, nofun, fun _ => rfl⟩

theorem Repeats.interrupt (h' : Repeats c before m h) (i : Interruption) :
    Repeats c before m (h.next c (.interrupt i)) :=
  ⟨h'.sound.interrupt i, h'.accepted, h'.reservation, h'.message, h'.verdict⟩

/-- The message conflicts with the recorded one: it was refused, or is being compared. -/
structure Conflicts (c : Contract D) (slot : ReplaySlot) (f : D) (m : Message) (h : Host D) :
    Prop where
  recorded : h.authority.fingerprints.get? slot = some f
  awaits : ∀ call, h.call = some call → Awaits c h.authority m call
  verdict : h.call = none → h.verdict = some .violation

theorem Conflicts.digest (h' : Conflicts c slot f m h)
    (hopen : h.authority.state ≠ .closed) (hslot : replaySlot m.kind = some slot)
    (hne : f ≠ c.fingerprint m) : Conflicts c slot f m (h.next c .digest) := by
  cases hcall : h.call with
  | none => exact (next_digest_of_none (c := c) hcall).symm ▸ h'
  | some call =>
    have hresume := Authority.resume_recorded (h'.awaits call hcall) hopen hslot h'.recorded
    rw [if_neg hne] at hresume
    rw [next_digest_of_some hcall, hresume]
    exact ⟨h'.recorded, nofun, fun _ => rfl⟩

theorem Conflicts.retire (h' : Conflicts c slot f m h)
    (reason : RetireReason) : Conflicts c slot f m (h.next c (.interrupt (.retire reason))) := by
  refine ⟨?_, fun call hcall => (h'.awaits call hcall).interrupt (.retire reason), h'.verdict⟩
  change (h.authority.retire reason).fingerprints.get? slot = some f
  unfold Authority.retire
  split
  · exact h'.recorded
  · exact h'.recorded

/-- Besides the outstanding message, `h` is `without`, to which it was not presented. -/
structure Without (c : Contract D) (h without : Host D) : Prop where
  sound : h.Sound c
  idle : without.Idle
  accepted : h.accepted = without.accepted
  awaiting : h.call.isSome → h.authority = without.authority
  reserved : ∀ m u, h.reservation = some (m, u) → h.authority.undo u = without.authority

theorem conclude_without (hs : (h.conclude m a outcome).Sound c) (hidle : without.Idle)
    (haccepted : h.accepted = without.accepted) (hauthority : h.authority = without.authority)
    (hends : Ends c h.authority h.accepted m a outcome) :
    Without c (h.conclude m a outcome) without := by
  cases outcome with
  | dropped | violation => exact ⟨hs, hidle, haccepted, nofun, nofun⟩
  | deliver =>
    refine ⟨hs, hidle, haccepted, nofun, ?_⟩
    rintro _ _ ⟨⟩
    exact hends.1.trans hauthority

theorem Without.digest (h' : Without c h without) :
    Without c (h.next c .digest) (without.next c .digest) := by
  rw [next_digest_of_none h'.idle.1]
  cases hcall : h.call with
  | none => exact (next_digest_of_none (c := c) hcall).symm ▸ h'
  | some call =>
    have hknows := h'.sound.knows (h'.sound.reservation_eq_none hcall)
    have hsound := h'.sound.digest
    rw [next_digest_of_some hcall] at hsound ⊢
    exact conclude_without hsound h'.idle h'.accepted (h'.awaiting (by rw [hcall]; rfl))
      (hknows.resume (h'.sound.awaits call hcall))

theorem Without.interrupt (h' : Without c h without) (i : Interruption) :
    Without c (h.next c (.interrupt i)) (without.next c (.interrupt i)) := by
  refine ⟨h'.sound.interrupt i, h'.idle, h'.accepted, ?_, ?_⟩
  · exact fun hcall => congrArg (·.interrupt i) (h'.awaiting hcall)
  · intro m u hreservation
    change (h.authority.interrupt i).undo u = without.authority.interrupt i
    rw [Authority.undo_interrupt, h'.reserved m u hreservation]

/-- A rollback undoes the presentation, whatever happened in between. -/
theorem Without.rollback (h' : Without c h without) (hreserved : h.reservation.isSome) :
    (h.next c .rollback).Idle ∧ (h.next c .rollback).authority = without.authority ∧
      (h.next c .rollback).accepted = without.accepted := by
  obtain ⟨⟨m, u⟩, hreservation⟩ := Option.isSome_iff_exists.mp hreserved
  have hcall := (h'.sound.reserved m u hreservation).1
  unfold next
  rw [hreservation]
  exact ⟨⟨hcall, rfl⟩, h'.reserved m u hreservation, h'.accepted⟩

end Host

/-! ### Accepted messages -/

namespace Listing

noncomputable def contract : Contract (List UInt8) :=
  ⟨default, fun _ => true, id, .listChildren, none⟩

def operationID : OperationID := .filled 7

def page : Message := ⟨.catalogResult, some operationID, [1, 2, 3], rfl⟩

def listing : List HostEvent := [.present .operation page, .digest, .accept]

/-- The final page was accepted. -/
noncomputable def listed : Host (List UInt8) := Host.start.run contract listing

/-- The operation retires while the digest of the next message is awaited. -/
def retiring : List HostEvent := [.interrupt (.retire .remoteFinal), .digest]

end Listing

end Windshare.WebOperation
