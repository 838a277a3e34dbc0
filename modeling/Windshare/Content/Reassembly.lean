import Windshare.Content.Assembler
import Windshare.Library.Transition

/-!
# Slots and bytes of the assembler

Every live assembly is to hold the slot of the tombstone it will leave. This file follows
slots and bytes through the operations. The byte counts are always right. The slots are
kept by every step but one: ending an operation that has no live assembly takes a slot
without asking whether one is free.
-/

namespace Windshare.Content

open Windshare.Library Windshare.Session

namespace Assembler

variable {a a' : Assembler} {op : Identity} {key : AssemblyKey} {now : Time}

/-- Live assemblies and tombstones. -/
def slots (a : Assembler) : Nat :=
  a.records.size + a.recordTombstones.size + a.operationTombs.size

/-- The sizes of the live assemblies of an operation. -/
def liveBytes (a : Assembler) (op : Identity) : Nat :=
  a.records.total fun key state => if key.operation = op then state.total.toNat else 0

/-- The operation has a live assembly. -/
def Live (a : Assembler) (op : Identity) : Prop :=
  ∃ key state, a.records.get? key = some state ∧ key.operation = op

/-- The byte count of every operation is the total over its live assemblies. -/
def BytesOk (a : Assembler) : Prop :=
  ∀ op, (a.bytesOf op).toNat = a.liveBytes op ∧ a.liveBytes op ≤ maxOperationReassemblyBytes.toNat

/-! ### Release -/

theorem liveBytes_erase (a : Assembler) (key : AssemblyKey) (op : Identity) :
    (a.records.erase key).total (fun key state => if key.operation = op then state.total.toNat
      else 0) +
      ((a.records.get? key).elim 0 fun state =>
        if key.operation = op then state.total.toNat else 0) = a.liveBytes op :=
  a.records.total_erase key _

theorem BytesOk.releaseRecord (h : a.BytesOk) (key : AssemblyKey) :
    (a.releaseRecord key).BytesOk := by
  unfold Assembler.releaseRecord
  split
  · exact h
  rename_i state hstate
  intro op
  have herase := a.liveBytes_erase key op
  rw [hstate, Option.elim_some] at herase
  obtain ⟨hexact, hbound⟩ := h op
  refine ⟨?_, (Nat.le_of_add_right_le (Nat.le_of_eq herase)).trans hbound⟩
  change _ = (a.records.erase key).total _
  have hsmall : state.total.toUInt64.toNat = state.total.toNat := UInt32.toNat_toUInt64 _
  by_cases hop : key.operation = op
  · subst hop
    rw [if_pos rfl] at herase
    have hle : state.total.toUInt64 ≤ a.bytesOf key.operation := by
      rw [UInt64.le_iff_toNat_le, hsmall, hexact]
      omega
    have hsub := UInt64.toNat_sub_of_le _ _ hle
    rw [hsmall, hexact] at hsub
    unfold bytesOf at hsub ⊢
    split
    · rename_i hzero
      rw [hzero] at hsub
      rw [FiniteMap.get?_erase_self]
      change 0 = _
      have : (0 : UInt64).toNat = 0 := rfl
      omega
    · rw [FiniteMap.get?_insert_self, Option.getD_some, hsub]
      omega
  · rw [if_neg hop] at herase
    unfold bytesOf at hexact ⊢
    split
    · rw [FiniteMap.get?_erase, if_neg hop, hexact]
      omega
    · rw [FiniteMap.get?_insert, if_neg hop, hexact]
      omega

/-- What releasing records leaves as it is, and what it takes. -/
structure Released (a : Assembler) (gone : AssemblyKey → Prop) (a' : Assembler) : Prop where
  closed : a'.closed = a.closed
  recordTombstones : a'.recordTombstones = a.recordTombstones
  operationTombs : a'.operationTombs = a.operationTombs
  kept : ∀ key, ¬ gone key → a'.records.get? key = a.records.get? key
  dropped : ∀ key, gone key → a'.records.get? key = none
  size_le : a'.records.size ≤ a.records.size
  size_lt : (∃ key state, gone key ∧ a.records.get? key = some state) →
    a'.records.size < a.records.size
  bytes : a.BytesOk → a'.BytesOk

theorem released_releaseRecord (a : Assembler) (key : AssemblyKey) :
    a.Released (· = key) (a.releaseRecord key) := by
  have hbytes (h : a.BytesOk) := h.releaseRecord key
  unfold releaseRecord at hbytes ⊢
  cases hstate : a.records.get? key with
  | none =>
    refine ⟨rfl, rfl, rfl, fun _ _ => rfl, ?_, Nat.le_refl _, ?_, id⟩
    · rintro _ rfl
      exact hstate
    · rintro ⟨_, state, rfl, hsome⟩
      cases hstate.symm.trans hsome
  | some =>
    rw [hstate] at hbytes
    have hsize := FiniteMap.size_erase_of_some hstate
    refine ⟨rfl, rfl, rfl, ?_, ?_, ?_, ?_, hbytes⟩
    · intro other hne
      exact FiniteMap.get?_erase.trans (if_neg fun h => hne h.symm)
    · rintro _ rfl
      exact FiniteMap.get?_erase_self
    · change (a.records.erase key).size ≤ _
      omega
    · intro _
      change (a.records.erase key).size < _
      omega

theorem Released.refl (a : Assembler) {gone : AssemblyKey → Prop} (h : ∀ key, ¬ gone key) :
    a.Released gone a :=
  ⟨rfl, rfl, rfl, fun _ _ => rfl, fun key hkey => absurd hkey (h key), Nat.le_refl _,
    fun ⟨key, _, hkey, _⟩ => absurd hkey (h key), id⟩

variable {gone gone' : AssemblyKey → Prop} {state : AssemblyState}

theorem Released.trans {a'' : Assembler}
    (h : a.Released gone a') (h' : a'.Released gone' a'') :
    a.Released (fun key => gone key ∨ gone' key) a'' where
  closed := h'.closed.trans h.closed
  recordTombstones := h'.recordTombstones.trans h.recordTombstones
  operationTombs := h'.operationTombs.trans h.operationTombs
  kept := by
    intro key hkey
    rw [not_or] at hkey
    exact (h'.kept key hkey.2).trans (h.kept key hkey.1)
  dropped := by
    intro key hkey
    by_cases hgone : gone' key
    · exact h'.dropped key hgone
    · exact (h'.kept key hgone).trans (h.dropped key (hkey.resolve_right hgone))
  size_le := h'.size_le.trans h.size_le
  size_lt := by
    rintro ⟨key, state, hkey, hstate⟩
    by_cases hgone : gone key
    · exact Nat.lt_of_le_of_lt h'.size_le (h.size_lt ⟨key, state, hgone, hstate⟩)
    · have hstill := (h.kept key hgone).trans hstate
      exact Nat.lt_of_lt_of_le (h'.size_lt ⟨key, state, hkey.resolve_left hgone, hstill⟩) h.size_le
  bytes := fun hbytes => h'.bytes (h.bytes hbytes)

theorem Released.congr (h : a.Released gone a')
    (hiff : ∀ key, gone key ↔ gone' key) : a.Released gone' a' := by
  have heq : gone = gone' := funext fun key => propext (hiff key)
  exact heq ▸ h

/-- A loop releases what it passes of the records it is for. -/
theorem released_releaseWhere (p : AssemblyKey → Bool)
    (listing : List (AssemblyKey × AssemblyState)) :
    ∀ a : Assembler, a.Released (fun key => p key ∧ ∃ state, (key, state) ∈ listing)
      (a.releaseWhere p listing) := by
  induction listing with
  | nil =>
    intro a
    exact .refl a fun key ⟨_, _, hmem⟩ => by cases hmem
  | cons entry listing ih =>
    intro a
    obtain ⟨key, state⟩ := entry
    change a.Released _ (Assembler.releaseWhere (if p key then a.releaseRecord key else a) p
      listing)
    split
    · rename_i hkey
      refine ((released_releaseRecord a key).trans (ih _)).congr ?_
      intro other
      simp only [List.mem_cons, Prod.mk.injEq]
      constructor
      · rintro (rfl | ⟨hother, state', hmem⟩)
        · exact ⟨hkey, state, .inl ⟨rfl, rfl⟩⟩
        · exact ⟨hother, state', .inr hmem⟩
      · rintro ⟨hother, state', ⟨rfl, -⟩ | hmem⟩
        · exact .inl rfl
        · exact .inr ⟨hother, state', hmem⟩
    · rename_i hkey
      refine (ih a).congr ?_
      intro other
      simp only [List.mem_cons, Prod.mk.injEq]
      constructor
      · rintro ⟨hother, state', hmem⟩
        exact ⟨hother, state', .inr hmem⟩
      · rintro ⟨hother, state', ⟨rfl, -⟩ | hmem⟩
        · exact absurd hother hkey
        · exact ⟨hother, state', hmem⟩

/-- Over all records, a loop releases the live ones it is for. -/
theorem released_all (a : Assembler) (p : AssemblyKey → Bool) :
    a.Released (fun key => p key ∧ a.records.get? key ≠ none)
      (a.releaseWhere p a.records.entries) := by
  refine (released_releaseWhere p a.records.entries a).congr ?_
  intro key
  simp only [FiniteMap.mem_entries_iff, Option.ne_none_iff_exists']

/-! ### Termination -/

/-- The ways a termination comes out. -/
theorem terminateOperation_cases (a : Assembler) (op : Identity) (now : Time) :
    ∃ b, a.Released (fun key => key.operation = op ∧ a.records.get? key ≠ none) b ∧
      (a.terminateOperation op now = ({ b with
          operationTombs := a.operationTombs.insert op (now + fragmentTombstone) }, .ok ()) ∧
        (a.operationTombs.get? op ≠ none ∨
          a.recordTombstones.size + a.operationTombs.size < maxFragmentTombstones) ∨
      a.terminateOperation op now = (b, .error .reassemblyBudget) ∧
        a.operationTombs.get? op = none ∧
        maxFragmentTombstones ≤ a.recordTombstones.size + a.operationTombs.size) := by
  have hreleased : a.Released (fun key => key.operation = op ∧ a.records.get? key ≠ none)
      (a.releaseWhere (fun key => key.operation = op) a.records.entries) :=
    (a.released_all _).congr fun key => by rw [decide_eq_true_iff]
  refine ⟨_, hreleased, ?_⟩
  unfold terminateOperation
  dsimp only
  rw [hreleased.operationTombs, hreleased.recordTombstones]
  split
  · rename_i hfull
    exact .inr ⟨rfl, hfull⟩
  · rename_i hroom
    refine .inl ⟨rfl, ?_⟩
    by_cases hnone : a.operationTombs.get? op = none
    · exact .inr (Nat.lt_of_not_le fun hfull => hroom ⟨hnone, hfull⟩)
    · exact .inl hnone

theorem BytesOk.terminateOperation (h : a.BytesOk) (op : Identity) (now : Time) :
    (a.terminateOperation op now).1.BytesOk := by
  obtain ⟨b, hreleased, ⟨heq, -⟩ | ⟨heq, -, -⟩⟩ := a.terminateOperation_cases op now
  · rw [heq]
    exact hreleased.bytes h
  · rw [heq]
    exact hreleased.bytes h

/-- Ending an operation finds a slot: its own tombstone, the slot of a live assembly, or a
free one. -/
def Reserves (a : Assembler) (op : Identity) : Prop :=
  a.Live op ∨ a.operationTombs.get? op ≠ none ∨ a.slots < maxFragmentTombstones

/-- With a slot reserved, a termination installs its tombstone within the bound. -/
theorem terminateOperation_installs (hslots : a.slots ≤ maxFragmentTombstones)
    (h : a.Reserves op) (now : Time) :
    (a.terminateOperation op now).2 = .ok () ∧
      (a.terminateOperation op now).1.slots ≤ maxFragmentTombstones ∧
      (a.terminateOperation op now).1.operationTombs.get? op = some (now + fragmentTombstone) := by
  obtain ⟨b, hreleased, hcases⟩ := a.terminateOperation_cases op now
  have hle := hreleased.size_le
  have hlt : a.Live op → b.records.size < a.records.size := by
    rintro ⟨key, state, hstate, hop⟩
    refine hreleased.size_lt ⟨key, state, ⟨hop, ?_⟩, hstate⟩
    rw [hstate]
    exact Option.some_ne_none state
  have hfree : a.operationTombs.get? op = none → b.records.size + a.recordTombstones.size +
      a.operationTombs.size < maxFragmentTombstones := by
    intro hnone
    unfold slots at hslots
    obtain hlive | hsome | hroom := h
    · have := hlt hlive
      omega
    · exact absurd hnone hsome
    · unfold slots at hroom
      omega
  obtain ⟨heq, -⟩ | ⟨-, hnone, hfull⟩ := hcases
  · rw [heq]
    refine ⟨rfl, ?_, FiniteMap.get?_insert_self⟩
    unfold slots at hslots ⊢
    dsimp only
    rw [hreleased.recordTombstones]
    cases hget : a.operationTombs.get? op with
    | none =>
      have := hfree hget
      rw [FiniteMap.size_insert_of_none hget]
      omega
    | some =>
      rw [FiniteMap.size_insert_of_some hget]
      omega
  · have := hfree hnone
    omega

/-! ### Fragments -/

theorem prune_slots_le (a : Assembler) (now : Time) : (a.prune now).slots ≤ a.slots := by
  have h₁ := a.recordTombstones.size_filter_le fun _ expiry => decide (now < expiry)
  have h₂ := a.operationTombs.size_filter_le fun _ expiry => decide (now < expiry)
  unfold slots prune
  dsimp only
  omega

theorem live_of_timedOut (h : a.timedOut op now) : a.Live op := by
  obtain ⟨⟨key, state⟩, hmem, hlate⟩ := List.any_eq_true.mp h
  exact ⟨key, state, FiniteMap.mem_entries_iff.mp hmem, (of_decide_eq_true hlate).1⟩

/-- Replacing an assembly by one of the same size. -/
theorem BytesOk.progress (h : a.BytesOk) {state state' : AssemblyState}
    (hstate : a.records.get? key = some state) (htotal : state'.total = state.total) :
    BytesOk { a with records := a.records.insert key state' } := by
  intro op
  have hinsert := a.records.total_insert key state' fun key state =>
    if key.operation = op then state.total.toNat else 0
  rw [hstate, Option.elim_some, htotal] at hinsert
  have hsame : liveBytes { a with records := a.records.insert key state' } op = a.liveBytes op :=
    Nat.add_right_cancel hinsert
  rw [hsame]
  exact h op

/-- Admitting an assembly of an operation that has room for it. -/
theorem BytesOk.admit (h : a.BytesOk) (hnone : a.records.get? key = none)
    (hroom : ¬ state.total.toUInt64 > maxOperationReassemblyBytes - a.bytesOf key.operation) :
    BytesOk { a with
      records := a.records.insert key state
      operationBytes := a.operationBytes.insert key.operation
        (a.bytesOf key.operation + state.total.toUInt64) } := by
  intro op
  have hinsert := a.records.total_insert key state fun key state =>
    if key.operation = op then state.total.toNat else 0
  rw [hnone, Option.elim_none] at hinsert
  have hlive (bytes : FiniteMap Identity UInt64) :
      liveBytes { a with records := a.records.insert key state, operationBytes := bytes } op =
        a.liveBytes op + if key.operation = op then state.total.toNat else 0 := hinsert
  rw [hlive]
  obtain ⟨hexact, hbound⟩ := h op
  by_cases hop : key.operation = op
  · subst hop
    rw [if_pos rfl]
    have hsmall : state.total.toUInt64.toNat = state.total.toNat := UInt32.toNat_toUInt64 _
    have hle : a.bytesOf key.operation ≤ maxOperationReassemblyBytes := by
      rw [UInt64.le_iff_toNat_le, hexact]
      exact hbound
    have hroom := UInt64.le_iff_toNat_le.mp (UInt64.not_lt.mp hroom)
    rw [UInt64.toNat_sub_of_le _ _ hle, hsmall, hexact] at hroom
    have hmax : maxOperationReassemblyBytes.toNat = 4194816 := rfl
    rw [bytesOf, FiniteMap.get?_insert_self, Option.getD_some, UInt64.toNat_add, hsmall, hexact]
    omega
  · rw [if_neg hop, bytesOf, FiniteMap.get?_insert, if_neg hop]
    exact ⟨hexact, hbound⟩

/-- What accepting a fragment leaves: right byte counts and, from slots within the bound,
slots within the bound and the tombstones of what it ended. -/
structure Accepts (a : Assembler) (fragment : Fragment) (now : Time)
    (out : Assembler × Except FragmentError AssemblyResult) : Prop where
  bytes : out.1.BytesOk
  slots_le : a.slots ≤ maxFragmentTombstones → out.1.slots ≤ maxFragmentTombstones
  completed : ∀ key object received, out.2 = .ok ⟨key, .recordComplete object received⟩ →
    out.1.recordTombstones.get? key = some (now + fragmentTombstone)
  terminated : a.slots ≤ maxFragmentTombstones →
    ∀ e, out.2 = .error e → e = .conflict ∨ e = .inactivity ∨ e = .recordDigest →
      out.1.operationTombs.get? fragment.operationID = some (now + fragmentTombstone)

variable {fragment : Fragment}

/-- A step before, that keeps to the bound. -/
theorem Accepts.after {out : Assembler × Except FragmentError AssemblyResult}
    (h : a'.Accepts fragment now out)
    (hslots : a.slots ≤ maxFragmentTombstones → a'.slots ≤ maxFragmentTombstones) :
    a.Accepts fragment now out :=
  ⟨h.bytes, fun hle => h.slots_le (hslots hle), h.completed, fun hle => h.terminated (hslots hle)⟩

/-- A fragment that changes nothing and ends nothing. -/
theorem accepts_idle (hbytes : a.BytesOk) {result : Except FragmentError AssemblyResult}
    (hcompleted : ∀ key object received, result ≠ .ok ⟨key, .recordComplete object received⟩)
    (hterminated : ∀ e, result = .error e →
      ¬ (e = .conflict ∨ e = .inactivity ∨ e = .recordDigest)) :
    a.Accepts fragment now (a, result) :=
  ⟨hbytes, id, fun key object received h => absurd h (hcompleted key object received),
    fun _ e h hends => absurd hends (hterminated e h)⟩

theorem accepts_terminate (hbytes : a.BytesOk) (h : a.Reserves fragment.operationID)
    (e : FragmentError) :
    a.Accepts fragment now ((a.terminateOperation fragment.operationID now).1, .error e) :=
  ⟨hbytes.terminateOperation _ now, fun hle => (terminateOperation_installs hle h now).2.1,
    fun _ _ _ h => (by cases h), fun hle _ _ _ => (terminateOperation_installs hle h now).2.2⟩

theorem place_accepts (sha256 : Bytes → Bytes) (hbytes : a.BytesOk)
    (hop : key.operation = fragment.operationID) (hstate : a.records.get? key = some state) :
    a.Accepts fragment now (a.place sha256 key fragment state now) := by
  have hlive : a.Reserves fragment.operationID := .inl ⟨key, state, hstate, hop⟩
  unfold place
  dsimp only
  split
  · exact accepts_terminate hbytes hlive _
  split
  · split
    · exact accepts_terminate hbytes hlive _
    · exact accepts_idle hbytes (fun _ _ _ h => by cases h) fun _ h => by cases h
  have htotal : (state.receive fragment now).total = state.total := rfl
  generalize state.receive fragment now = state' at htotal ⊢
  have hbytes' := hbytes.progress hstate htotal
  have hslots' : slots { a with records := a.records.insert key state' } = a.slots := by
    unfold slots
    rw [FiniteMap.size_insert_of_some hstate]
  have hstate' : (a.records.insert key state').get? key = some state' :=
    FiniteMap.get?_insert_self
  split
  · refine (accepts_idle hbytes' (fun _ _ _ h => by cases h) fun _ h => by cases h).after ?_
    exact fun hle => hslots'.trans_le hle
  split
  · refine (accepts_terminate hbytes' (.inl ⟨key, state', hstate', hop⟩) _).after ?_
    exact fun hle => hslots'.trans_le hle
  · have hreleased := released_releaseRecord { a with records := a.records.insert key state' } key
    have hlt := hreleased.size_lt ⟨key, state', rfl, hstate'⟩
    refine ⟨hreleased.bytes hbytes', ?_, ?_, fun _ _ h => by cases h⟩
    · intro hle
      rw [← hslots'] at hle
      unfold slots at hle ⊢
      dsimp only at hle hlt ⊢
      rw [hreleased.recordTombstones, hreleased.operationTombs]
      dsimp only
      cases hget : a.recordTombstones.get? key with
      | none =>
        rw [FiniteMap.size_insert_of_none hget]
        omega
      | some =>
        rw [FiniteMap.size_insert_of_some hget]
        omega
    · intro other object received heq
      cases heq
      exact FiniteMap.get?_insert_self

/-- Finding or admitting the assembly of a fragment. -/
theorem assembly_cases (hbytes : a.BytesOk) (key : AssemblyKey)
    (hop : key.operation = fragment.operationID) (hasCapacity : Bool)
    (reserve : Except ReserveError Unit) (now : Time) :
    let out := a.assembly key fragment hasCapacity reserve now
    (∃ state, out.2 = .ok state ∧ out.1.BytesOk ∧
      (a.slots ≤ maxFragmentTombstones → out.1.slots ≤ maxFragmentTombstones) ∧
      out.1.records.get? key = some state) ∨
    ∃ e, out.2 = .error e ∧ a.Accepts fragment now (out.1, .error e) := by
  intro out
  unfold out assembly
  split
  · rename_i state hstate
    split
    · exact .inr ⟨_, rfl, accepts_terminate hbytes (.inl ⟨key, state, hstate, hop⟩) _⟩
    · exact .inl ⟨state, rfl, hbytes, id, hstate⟩
  rename_i hnone
  split
  · refine .inr ⟨_, rfl, accepts_idle hbytes (fun _ _ _ h => by cases h) ?_⟩
    rintro _ ⟨⟩ (h | h | h) <;> cases h
  rename_i hfree
  have hfree : a.slots < maxFragmentTombstones := Nat.lt_of_not_le hfree
  split
  · exact .inr ⟨_, rfl, accepts_terminate hbytes (.inr (.inr hfree)) _⟩
  rename_i hroom
  split
  · rename_i e
    refine .inr ⟨_, rfl, accepts_idle hbytes (fun _ _ _ h => by cases h) ?_⟩
    cases e <;> rintro _ ⟨⟩ (h | h | h) <;> cases h
  · refine .inl ⟨_, rfl, ?_, ?_, FiniteMap.get?_insert_self⟩
    · rw [← hop] at hroom ⊢
      exact hbytes.admit hnone hroom
    · intro _
      unfold slots at hfree ⊢
      dsimp only
      rw [FiniteMap.size_insert_of_none hnone]
      omega

theorem acceptFragment_accepts (sha256 : Bytes → Bytes) (hbytes : a.BytesOk)
    (fragment : Fragment) (hasCapacity : Bool) (reserve : Except ReserveError Unit) (now : Time) :
    a.Accepts fragment now (a.acceptFragment sha256 fragment hasCapacity reserve now) := by
  have hbytes' : (a.prune now).BytesOk := hbytes
  have hslots' := a.prune_slots_le now
  unfold acceptFragment
  generalize a.prune now = b at hbytes' hslots' ⊢
  suffices h : b.Accepts fragment now _ from h.after hslots'.trans
  dsimp only
  split
  · rename_i hlate
    exact accepts_terminate hbytes' (.inl (live_of_timedOut hlate)) _
  split
  · exact accepts_idle hbytes' (fun _ _ _ h => by cases h) fun _ h => by cases h
  split
  · exact accepts_idle hbytes' (fun _ _ _ h => by cases h) fun _ h => by cases h
  have hcases := assembly_cases hbytes' ⟨fragment.operationID, fragment.recordID⟩ rfl hasCapacity
    reserve now
  generalize b.assembly ⟨fragment.operationID, fragment.recordID⟩ fragment hasCapacity reserve now =
    out at hcases ⊢
  obtain ⟨c, result⟩ := out
  obtain ⟨state, hok, hbytes'', hslots'', hstate⟩ | ⟨e, herror, haccepts⟩ := hcases
  · obtain rfl : result = .ok state := hok
    exact (place_accepts sha256 hbytes'' rfl hstate).after hslots''
  · obtain rfl : result = .error e := herror
    exact haccepts

/-! ### Ending operations -/

/-- Terminations leave the assemblies of other operations. -/
theorem live_terminateOperation {other : Identity} (h : a.Live other) (hne : other ≠ op) :
    (a.terminateOperation op now).1.Live other := by
  obtain ⟨key, state, hstate, rfl⟩ := h
  obtain ⟨b, hreleased, ⟨heq, -⟩ | ⟨heq, -, -⟩⟩ := a.terminateOperation_cases op now
  · rw [heq]
    exact ⟨key, state, (hreleased.kept key fun hgone => hne hgone.1).trans hstate, rfl⟩
  · rw [heq]
    exact ⟨key, state, (hreleased.kept key fun hgone => hne hgone.1).trans hstate, rfl⟩

theorem BytesOk.sweep (h : a.BytesOk) (timedOut : List Identity) (now : Time) :
    (timedOut.foldl (fun a op => (a.terminateOperation op now).1) a).BytesOk := by
  induction timedOut generalizing a with
  | nil => exact h
  | cons op timedOut ih => exact ih (h.terminateOperation op now)

theorem sweep_slots_le (timedOut : List Identity) (now : Time) (hnodup : timedOut.Nodup)
    (hlive : ∀ op ∈ timedOut, a.Live op) (hslots : a.slots ≤ maxFragmentTombstones) :
    (timedOut.foldl (fun a op => (a.terminateOperation op now).1) a).slots ≤
      maxFragmentTombstones := by
  induction timedOut generalizing a with
  | nil => exact hslots
  | cons op timedOut ih =>
    obtain ⟨hnot, hnodup⟩ := List.nodup_cons.mp hnodup
    apply ih hnodup
    · intro other hother
      refine live_terminateOperation (hlive other (List.mem_cons_of_mem _ hother)) ?_
      rintro rfl
      exact hnot hother
    · exact (terminateOperation_installs hslots (.inl (hlive op List.mem_cons_self)) now).2.1

theorem close_sound (hbytes : a.BytesOk) : a.close.BytesOk ∧ a.close.slots ≤ a.slots := by
  unfold close
  split
  · exact ⟨hbytes, Nat.le_refl _⟩
  have hreleased := a.released_all fun _ => true
  generalize a.releaseWhere (fun _ => true) a.records.entries = b at hreleased ⊢
  have hnone (key : AssemblyKey) : b.records.get? key = none := by
    by_cases hget : a.records.get? key = none
    · exact (hreleased.kept key fun hgone => hgone.2 hget).trans hget
    · exact hreleased.dropped key ⟨rfl, hget⟩
  have hempty : b.records.entries = [] := by
    rw [List.eq_nil_iff_forall_not_mem]
    rintro ⟨key, state⟩ hmem
    cases (hnone key).symm.trans (FiniteMap.mem_entries_iff.mp hmem)
  constructor
  · intro op
    have hzero : b.records.total (fun key state =>
        if key.operation = op then state.total.toNat else 0) = 0 := by
      rw [FiniteMap.total, hempty]
      rfl
    exact ⟨hzero.symm, hzero.trans_le (Nat.zero_le _)⟩
  · have hle := hreleased.size_le
    unfold slots
    simp only [FiniteMap.size_empty]
    omega

end Assembler

end Windshare.Content
