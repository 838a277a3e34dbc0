import Windshare.Library.FiniteMap
import Windshare.Operation.Message

/-!
# Issued operations

The model of `IssuedOperations` in `issued-operations.ts`, which keeps one counter for each kind of
request. A kind is its wire value. A run remembers every identity it issued, and the counters
answer for exactly these.
-/

namespace Windshare.WebOperation

open Windshare.Library Windshare.Operation

def requestKinds : List UInt8 :=
  [.listChildren, .openRevisions, .renewLease, .releaseLease, .requestBlocks, .laneAttach,
    .peerOffer].map MessageKind.byte

def maximumSequence : Nat := (1 <<< 56) - 1

inductive ErrorScope where
  | operation
  | session

structure SessionRuntimeError where
  scope : ErrorScope
  message : String

structure IssuedOperations where
  issued : FiniteMap UInt8 Nat
  idPrefix : Option (List UInt8)

namespace IssuedOperations

/-- `#newPrefix`, where `draws` are the answers of the random source. -/
def newPrefix (draws : Nat → List UInt8) : Except SessionRuntimeError (List UInt8) :=
  match ((List.range 4).map draws).find? fun draw => draw.length = 8 ∧ draw.any (· ≠ 0) with
  | some draw => .ok draw
  | none => .error ⟨.session, "Random identity source returned invalid bytes"⟩

/-- The identity of the `sequence`th request of a kind. -/
def identity (first : List UInt8) (kind : UInt8) (sequence : Nat) : List UInt8 :=
  first ++ bigEndian 8 (kind.toNat <<< 56 ||| sequence)

variable (ops : IssuedOperations)

/-- The last sequence of a kind, 0 before its first request. -/
def counter (kind : UInt8) : Nat := (ops.issued.get? kind).getD 0

/-- The record after an issue under a prefix. -/
def issuedAs (first : List UInt8) (kind : UInt8) : IssuedOperations :=
  ⟨ops.issued.insert kind (ops.counter kind + 1), some first⟩

def issue (kind : UInt8) (draws : Nat → List UInt8) :
    Except SessionRuntimeError (IssuedOperations × List UInt8) :=
  if kind ∉ requestKinds then
    .error ⟨.operation, "Message kind cannot begin a receiver operation"⟩
  else if ops.counter kind + 1 > maximumSequence then
    .error ⟨.session, "Operation identity space is exhausted"⟩
  else do
    let first ← ops.idPrefix.elim (newPrefix draws) .ok
    .ok (ops.issuedAs first kind, identity first kind (ops.counter kind + 1))

def encodedKind (id : List UInt8) : UInt8 := UInt8.ofNat (ofBigEndian (id.drop 8) >>> 56)

def encodedSequence (id : List UInt8) : Nat := ofBigEndian (id.drop 8) &&& maximumSequence

def requestKind (id : List UInt8) : Option UInt8 :=
  if id.length = 16 ∧ ops.idPrefix = some (id.take 8) ∧ 0 < encodedSequence id ∧
      encodedSequence id ≤ ops.counter (encodedKind id) then some (encodedKind id)
  else none

end IssuedOperations

/-- A call of `issue`. -/
structure Issue where
  kind : UInt8
  draws : Nat → List UInt8

/-- A session's record with every identity it issued, latest first. -/
structure IssueRun where
  record : IssuedOperations
  history : List (List UInt8 × UInt8)

namespace IssueRun

def start : IssueRun := ⟨⟨.empty, none⟩, []⟩

def next (r : IssueRun) (call : Issue) : IssueRun :=
  match r.record.issue call.kind call.draws with
  | .ok (record, id) => ⟨record, (id, call.kind) :: r.history⟩
  | .error _ => r

def run (calls : List Issue) : IssueRun := calls.foldl next start

end IssueRun

namespace IssuedOperations

variable {ops : IssuedOperations} {first id : List UInt8} {kind : UInt8} {sequence : Nat}

theorem encoded_eq (h : sequence ≤ maximumSequence) :
    kind.toNat <<< 56 ||| sequence = kind.toNat * 2 ^ 56 + sequence := by
  rw [← Nat.shiftLeft_add_eq_or_of_lt (Nat.lt_succ_of_le h), Nat.shiftLeft_eq]

theorem identity_iff (hfirst : first.length = 8) :
    sequence ≤ maximumSequence ∧ id = identity first kind sequence ↔
      id.length = 16 ∧ id.take 8 = first ∧ encodedKind id = kind ∧
        encodedSequence id = sequence := by
  have hmask (n : Nat) : n &&& maximumSequence = n % 2 ^ 56 := Nat.and_two_pow_sub_one_eq_mod n 56
  have hmax : maximumSequence = 2 ^ 56 - 1 := rfl
  simp only [encodedKind, encodedSequence, hmask, Nat.shiftRight_eq_div_pow]
  constructor
  · rintro ⟨hle, rfl⟩
    have hkind := kind.toNat_lt
    have hread : ofBigEndian (bigEndian 8 (kind.toNat <<< 56 ||| sequence)) =
        kind.toNat * 2 ^ 56 + sequence := by
      rw [encoded_eq hle, ofBigEndian_bigEndian]
      omega
    have hhigh : (kind.toNat * 2 ^ 56 + sequence) / 2 ^ 56 = kind.toNat := by omega
    have hlow : (kind.toNat * 2 ^ 56 + sequence) % 2 ^ 56 = sequence := by omega
    simp only [identity, List.take_left' hfirst, List.drop_left' hfirst, hread, hhigh, hlow,
      UInt8.ofNat_toNat, List.length_append, length_bigEndian, hfirst, and_self]
  · rintro ⟨hlength, htake, hkind, hsequence⟩
    have hdrop : (id.drop 8).length = 8 := by simp [hlength]
    have hlt := ofBigEndian_lt (id.drop 8)
    have hread := bigEndian_ofBigEndian (id.drop 8)
    rw [hdrop] at hlt hread
    have hle : sequence ≤ maximumSequence := by omega
    have hencoded : kind.toNat * 2 ^ 56 + sequence = ofBigEndian (id.drop 8) := by
      rw [← hkind, UInt8.toNat_ofNat']
      omega
    refine ⟨hle, ?_⟩
    rw [identity, encoded_eq hle, hencoded, hread, ← htake, List.take_append_drop]

theorem issue_cases {draws : Nat → List UInt8} {ops' : IssuedOperations}
    (h : ops.issue kind draws = .ok (ops', id)) :
    ops.counter kind < maximumSequence ∧ ∃ first,
      (ops.idPrefix = some first ∨ ops.idPrefix = none ∧ first.length = 8) ∧
        ops' = ops.issuedAs first kind ∧ id = identity first kind (ops.counter kind + 1) := by
  unfold issue at h
  split at h
  · cases h
  split at h
  · cases h
  rename_i hroom
  refine ⟨Nat.lt_of_succ_le (Nat.le_of_not_lt hroom), ?_⟩
  cases hfirst : ops.idPrefix with
  | some first =>
    rw [hfirst] at h
    cases h
    exact ⟨first, .inl rfl, rfl, rfl⟩
  | none =>
    rw [hfirst, Option.elim_none, newPrefix] at h
    split at h
    · rename_i first hfind
      have hvalid := List.find?_some hfind
      cases h
      exact ⟨first, .inr ⟨rfl, (of_decide_eq_true hvalid).1⟩, rfl, rfl⟩
    · cases h

theorem requestKind_iff : ops.requestKind id = some kind ↔
    id.length = 16 ∧ ops.idPrefix = some (id.take 8) ∧ 0 < encodedSequence id ∧
      encodedSequence id ≤ ops.counter kind ∧ encodedKind id = kind := by
  grind [requestKind]

theorem counter_issuedAs (kind' : UInt8) : (ops.issuedAs first kind).counter kind' =
    if kind = kind' then ops.counter kind + 1 else ops.counter kind' := by
  simp only [counter, issuedAs, FiniteMap.get?_insert]
  split <;> rfl

/-- An issue makes the record answer for one identity more, the new one. -/
theorem requestKind_issuedAs {kind' : UInt8} (hfirst : first.length = 8)
    (hchosen : ops.idPrefix = some first ∨ ops.idPrefix = none ∧ ∀ kind, ops.counter kind = 0)
    (hlt : ops.counter kind < maximumSequence) :
    (ops.issuedAs first kind).requestKind id = some kind' ↔
      (id, kind') = (identity first kind (ops.counter kind + 1), kind) ∨
        ops.requestKind id = some kind' := by
  have hnew := @identity_iff first id kind (ops.counter kind + 1) hfirst
  rw [requestKind_iff, requestKind_iff, counter_issuedAs]
  by_cases hlast : encodedSequence id = ops.counter kind + 1 ∧ encodedKind id = kind
  · grind [issuedAs]
  · grind [issuedAs]

end IssuedOperations

/-! ### Runs -/

namespace IssueRun

open IssuedOperations

variable {r : IssueRun}

structure Recorded (r : IssueRun) : Prop where
  length : ∀ first, r.record.idPrefix = some first → first.length = 8
  counter_le : ∀ kind, r.record.counter kind ≤ maximumSequence
  requestKind_iff : ∀ id kind, r.record.requestKind id = some kind ↔ (id, kind) ∈ r.history
  nodup : (r.history.map Prod.fst).Nodup
  count : ∀ kind, r.record.counter kind = r.history.countP (·.2 = kind)

theorem Recorded.start : Recorded start := by
  refine ⟨nofun, fun _ => Nat.zero_le _, fun id kind => ?_, List.nodup_nil, fun _ => rfl⟩
  simp [IssueRun.start, requestKind]

/-- A record without a prefix has issued nothing. -/
theorem Recorded.counter_eq_zero (h : Recorded r) (hnone : r.record.idPrefix = none)
    (kind : UInt8) : r.record.counter kind = 0 := by
  have hempty : r.history = [] := List.eq_nil_iff_forall_not_mem.2 fun e he => by
    simpa [requestKind, hnone] using (h.requestKind_iff e.1 e.2).2 he
  rw [h.count, hempty]
  rfl

theorem Recorded.next (h : Recorded r) (call : Issue) : Recorded (r.next call) := by
  unfold IssueRun.next
  split
  · rename_i record id hissue
    obtain ⟨hlt, first, hfirst, rfl, rfl⟩ := issue_cases hissue
    have hlength : first.length = 8 := hfirst.elim (h.length first) And.right
    have hknows (id kind) := @requestKind_issuedAs r.record first id call.kind kind hlength
      (hfirst.imp_right fun hnone => ⟨hnone.1, h.counter_eq_zero hnone.1⟩) hlt
    refine ⟨?_, fun kind => ?_, fun id kind => ?_, ?_, fun kind => ?_⟩
    · rintro _ ⟨⟩
      exact hlength
    · rw [counter_issuedAs]
      split
      · exact hlt
      · exact h.counter_le kind
    · rw [hknows, h.requestKind_iff, List.mem_cons]
    · -- The record before the call does not answer for the new identity.
      refine List.nodup_cons.2 ⟨fun hissued => ?_, h.nodup⟩
      obtain ⟨⟨id, kind⟩, hold, hid⟩ := List.mem_map.1 hissued
      rw [← h.requestKind_iff, IssuedOperations.requestKind_iff] at hold
      obtain ⟨-, -, -, hle, hkind⟩ := hold
      obtain ⟨-, -, hnew, hsequence⟩ := (identity_iff hlength).1 ⟨hlt, hid⟩
      rw [hsequence, ← hkind, hnew] at hle
      exact absurd hle (Nat.not_succ_le_self _)
    · rw [counter_issuedAs, List.countP_cons, ← h.count]
      by_cases hkind : call.kind = kind
      · simp [hkind]
      · simp [hkind]
  · exact h

/-- The run lemma, with what a run remembers of an earlier one. -/
theorem Recorded.foldl (h : Recorded r) (calls : List Issue) :
    Recorded (calls.foldl IssueRun.next r) ∧ r.history ⊆ (calls.foldl IssueRun.next r).history := by
  induction calls generalizing r with
  | nil => exact ⟨h, List.Subset.refl _⟩
  | cons call calls ih =>
    obtain ⟨hrecorded, hsubset⟩ := ih (h.next call)
    refine ⟨hrecorded, List.Subset.trans ?_ hsubset⟩
    unfold IssueRun.next
    split
    · exact List.subset_cons_self _ _
    · exact List.Subset.refl _

/-- After any calls the record answers for exactly the identities that were issued, no identity
was issued twice, each counter is the number of its issues and fits its field, and the identities
of earlier calls are still known. -/
theorem requestKind_run (earlier later : List Issue) :
    let r := run (earlier ++ later)
    (∀ id kind, r.record.requestKind id = some kind ↔ (id, kind) ∈ r.history) ∧
      (r.history.map Prod.fst).Nodup ∧
      (∀ kind, r.record.counter kind = r.history.countP (·.2 = kind) ∧
        r.record.counter kind ≤ maximumSequence) ∧
      ∀ e ∈ (run earlier).history, r.record.requestKind e.1 = some e.2 := by
  obtain ⟨hrun, hsubset⟩ := (Recorded.start.foldl earlier).1.foldl later
  rw [← List.foldl_append] at hrun hsubset
  exact ⟨hrun.requestKind_iff, hrun.nodup, fun kind => ⟨hrun.count kind, hrun.counter_le kind⟩,
    fun e he => (hrun.requestKind_iff e.1 e.2).2 (hsubset he)⟩

end IssueRun

end Windshare.WebOperation
