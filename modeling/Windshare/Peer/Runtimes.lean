import Windshare.Peer.Retired

/-!
# Both runtimes over one pool

The attempts that a pool numbers are admitted and retired in both runtimes. Both tables of slots
represent the same attempts, so both runtimes admitAttempt, refuse and drop alike.
-/

namespace Windshare.Peer

open Windshare.Library Windshare.Session Windshare.Operation

/-- One peer attempt as the two runtimes know it: the authority of its operation, and the
binding that the web client decoded from the same offer. -/
structure Attempt where
  authority : Authority
  binding : PeerAttemptBinding
  web : PeerBinding
  owns : operationPeerAttempt authority = some binding
  valid : binding.valid = true
  peerSlot_eq : web.peerSlot = binding.peerSlot.toNat
  attemptSequence_eq : web.attemptSequence = binding.attemptSequence.toNat

def PeerBinding.ordinal (b : PeerBinding) : PeerAttemptOrdinal := ⟨b.peerSlot, b.attemptSequence⟩

def Attempt.ordinal (a : Attempt) : PeerAttemptOrdinal := a.web.ordinal

/-- `admit` and `retire` of the web client keep track of the attempts. -/
abbrev WebTracks (web : RetiredPeerContinuations) (admitted retired : List PeerAttemptOrdinal) :
    Prop :=
  Tracks id RetiredSlot.watermark web.slots admitted retired

abbrev TableTracks (t : Table) (admitted retired : List PeerAttemptOrdinal) : Prop :=
  Tracks UInt8.toNat slotWatermark t.peerSlots admitted retired

variable {web : RetiredPeerContinuations} {t : Table} {admitted retired : List PeerAttemptOrdinal}

theorem watermark_getD (entry : Option RetiredSlot) :
    (entry.getD {}).watermark = watermarkOf RetiredSlot.watermark entry := by
  cases entry <;> rfl

theorem slotWatermark_getD (entry : Option PeerSlot) :
    slotWatermark (entry.getD {}) = watermarkOf slotWatermark entry := by
  cases entry <;> rfl

variable {s : Runtimes} {b : PeerBinding} {o : PeerAttemptOrdinal}

namespace RetiredPeerContinuations

/-- The attempts of a slot are admitted in ascending order, and no others. -/
theorem admit_cases (h : WebTracks web admitted retired)
    (hslot : b.peerSlot < peerContinuationSlots) :
    (greatest (sequencesOf b.peerSlot admitted) < b.attemptSequence ∧
      (web.admitAttempt (some b)).2 = none ∧
      WebTracks (web.admitAttempt (some b)).1 (b.ordinal :: admitted) retired) ∨
    (b.attemptSequence ≤ greatest (sequencesOf b.peerSlot admitted) ∧
      (web.admitAttempt (some b)).2 = some .sequenceReused ∧
      WebTracks (web.admitAttempt (some b)).1 admitted retired) := by
  have hissued := (h b.peerSlot).issuedThrough
  rw [← watermark_getD] at hissued
  unfold admitAttempt
  dsimp only
  rw [if_neg (Nat.not_le.mpr hslot)]
  by_cases hreused : b.attemptSequence ≤ ((web.slots.get? b.peerSlot).getD {}).issuedThrough
  · rw [if_pos hreused]
    exact .inr ⟨hissued ▸ hreused, rfl, h.keep (watermark_getD _)⟩
  · rw [if_neg hreused]
    refine .inl ⟨hissued ▸ Nat.lt_of_not_le hreused, rfl, ?_⟩
    refine h.admitAttempt (o := b.ordinal) (fun _ _ heq => heq) rfl ?_ rfl ?_ ?_
    · rw [← watermark_getD]
      exact Nat.lt_of_not_le hreused
    · rw [← watermark_getD]
      rfl
    · intro m
      rw [← watermark_getD]
      exact List.mem_cons

theorem retire_tracks (h : WebTracks web admitted retired)
    (hadmitted : b.ordinal ∈ admitted) (hactive : b.ordinal ∉ retired) :
    WebTracks (web.retire (some b)) admitted (b.ordinal :: retired) := by
  have hpresent : b.attemptSequence ∈
      (watermarkOf RetiredSlot.watermark (web.slots.get? b.peerSlot)).active :=
    ((h b.peerSlot).active _).mpr ⟨mem_sequencesOf.mpr hadmitted,
      fun hretired => hactive (mem_sequencesOf.mp hretired)⟩
  unfold retire
  dsimp only
  cases hget : web.slots.get? b.peerSlot with
  | none =>
    rw [hget] at hpresent
    cases hpresent
  | some slot =>
    rw [hget] at hpresent
    have hcontains : slot.active.contains b.attemptSequence = true :=
      List.contains_iff_mem.mpr hpresent
    dsimp only
    rw [hcontains]
    refine h.retire (o := b.ordinal) (fun _ _ heq => heq) rfl hadmitted ?_ ?_ ?_
    · rw [hget]
      rfl
    · rw [hget]
      change (if b.attemptSequence > slot.retiredThrough then _ else _) =
        max b.attemptSequence slot.retiredThrough
      split <;> omega
    · intro m
      rw [hget]
      change m ∈ slot.active.filter (· != b.attemptSequence) ↔ m ∈ slot.active ∧ _
      rw [List.mem_filter, bne_iff_ne]
      rfl

end RetiredPeerContinuations

namespace Attempt

variable (a : Attempt)

theorem peerSlot_lt : a.web.peerSlot < peerContinuationSlots := by
  have hvalid := a.valid
  unfold PeerAttemptBinding.valid at hvalid
  simp only [Bool.and_eq_true, decide_eq_true_eq] at hvalid
  rw [a.peerSlot_eq]
  exact UInt8.lt_iff_toNat_lt.mp hvalid.1.1.1

theorem attemptSequence_pos : 0 < a.web.attemptSequence := by
  have hvalid := a.valid
  unfold PeerAttemptBinding.valid at hvalid
  simp only [Bool.and_eq_true, bne_iff_ne, ne_eq] at hvalid
  rw [a.attemptSequence_eq]
  refine Nat.pos_of_ne_zero fun hzero => hvalid.2 ?_
  exact UInt64.toNat_inj.mp hzero

end Attempt

theorem uint8_toNat_inj : ∀ k k' : UInt8, k.toNat = k'.toNat → k = k' :=
  fun _ _ => UInt8.toNat_inj.mp

/-- The operation table decides alike. -/
theorem admitPeerAttempt_cases (h : TableTracks t admitted retired) (a : Attempt) :
    (greatest (sequencesOf a.web.peerSlot admitted) < a.web.attemptSequence ∧
      (t.admitPeerAttempt a.authority).2 = none ∧
      TableTracks (t.admitPeerAttempt a.authority).1 (a.ordinal :: admitted) retired) ∨
    (a.web.attemptSequence ≤ greatest (sequencesOf a.web.peerSlot admitted) ∧
      (t.admitPeerAttempt a.authority).2 = some .operationIDReused ∧
      TableTracks (t.admitPeerAttempt a.authority).1 admitted retired) := by
  have hissued := (h a.binding.peerSlot).issuedThrough
  rw [← slotWatermark_getD, ← a.peerSlot_eq] at hissued
  rw [← hissued, a.attemptSequence_eq]
  unfold Table.admitPeerAttempt
  rw [a.owns]
  dsimp only
  rw [a.valid]
  by_cases hreused : a.binding.attemptSequence ≤
      ((t.peerSlots.get? a.binding.peerSlot).getD {}).issuedThrough
  · rw [if_pos hreused]
    exact .inr ⟨UInt64.le_iff_toNat_le.mp hreused, rfl, h.keep (slotWatermark_getD _)⟩
  · rw [if_neg hreused]
    have hlater := Nat.lt_of_not_le fun hle => hreused (UInt64.le_iff_toNat_le.mpr hle)
    refine .inl ⟨hlater, rfl, ?_⟩
    refine h.admitAttempt (o := a.ordinal) uint8_toNat_inj a.peerSlot_eq ?_
      a.attemptSequence_eq.symm
      ?_ ?_
    · rw [← slotWatermark_getD]
      change _ < a.web.attemptSequence
      rw [a.attemptSequence_eq]
      exact hlater
    · rw [← slotWatermark_getD]
      rfl
    · intro m
      rw [← slotWatermark_getD]
      change m ∈ (_ :: _ : List UInt64).map UInt64.toNat ↔ m = a.web.attemptSequence ∨ _
      rw [List.map_cons, List.mem_cons, a.attemptSequence_eq]
      rfl

theorem retirePeerAttempt_tracks (h : TableTracks t admitted retired) (a : Attempt)
    (hadmitted : a.ordinal ∈ admitted) :
    TableTracks (t.retirePeerAttempt a.authority) admitted (a.ordinal :: retired) := by
  have hsome := h.isSome (k := a.binding.peerSlot) (o := a.ordinal) a.peerSlot_eq
    a.attemptSequence_pos hadmitted
  unfold Table.retirePeerAttempt
  rw [a.owns]
  dsimp only
  cases hget : t.peerSlots.get? a.binding.peerSlot with
  | none =>
    rw [hget] at hsome
    cases hsome
  | some slot =>
    refine h.retire (o := a.ordinal) uint8_toNat_inj a.peerSlot_eq hadmitted ?_ ?_ ?_
    · rw [hget]
      rfl
    · rw [hget]
      change (if a.binding.attemptSequence > slot.retiredThrough then a.binding.attemptSequence
        else slot.retiredThrough).toNat = max a.web.attemptSequence slot.retiredThrough.toNat
      rw [a.attemptSequence_eq]
      split
      · rename_i hgt
        have hlt := UInt64.lt_iff_toNat_lt.mp hgt
        omega
      · rename_i hle
        have hnot : ¬ slot.retiredThrough.toNat < a.binding.attemptSequence.toNat :=
          fun hlt => hle (UInt64.lt_iff_toNat_lt.mpr hlt)
        omega
    · intro m
      rw [hget]
      change m ∈ (slot.active.filter (· != a.binding.attemptSequence)).map UInt64.toNat ↔
        m ∈ slot.active.map UInt64.toNat ∧ m ≠ a.web.attemptSequence
      rw [a.attemptSequence_eq, List.mem_map, List.mem_map]
      constructor
      · rintro ⟨n, hn, rfl⟩
        obtain ⟨hactive, hne⟩ := List.mem_filter.mp hn
        exact ⟨⟨n, hactive, rfl⟩, fun heq => bne_iff_ne.mp hne (UInt64.toNat_inj.mp heq)⟩
      · rintro ⟨⟨n, hactive, rfl⟩, hne⟩
        exact ⟨n, List.mem_filter.mpr ⟨hactive, bne_iff_ne.mpr fun heq => hne (heq ▸ rfl)⟩, rfl⟩

/-! ### Which slots have an entry -/

theorem admit_isSome (web : RetiredPeerContinuations)
    (hslot : b.peerSlot < peerContinuationSlots) (k : Nat) :
    ((web.admitAttempt (some b)).1.slots.get? k).isSome =
      (b.peerSlot == k || (web.slots.get? k).isSome) := by
  have hinsert : ∀ v : RetiredSlot, ((web.slots.insert b.peerSlot v).get? k).isSome =
      (b.peerSlot == k || (web.slots.get? k).isSome) := by
    intro v
    rw [FiniteMap.get?_insert]
    by_cases hk : b.peerSlot = k <;> simp [hk]
  unfold RetiredPeerContinuations.admitAttempt
  dsimp only
  rw [if_neg (Nat.not_le.mpr hslot)]
  split
  · exact hinsert _
  · exact hinsert _

theorem retire_isSome (web : RetiredPeerContinuations) (b : PeerBinding) (k : Nat) :
    ((web.retire (some b)).slots.get? k).isSome = (web.slots.get? k).isSome := by
  unfold RetiredPeerContinuations.retire
  dsimp only
  split
  · rfl
  · rename_i slot hslot
    split
    · rfl
    · rw [FiniteMap.get?_insert]
      by_cases hk : b.peerSlot = k
      · rw [if_pos hk, ← hk, hslot]
        rfl
      · rw [if_neg hk]

theorem admitPeerAttempt_isSome (t : Table) (a : Attempt) (k : UInt8) :
    ((t.admitPeerAttempt a.authority).1.peerSlots.get? k).isSome =
      (a.binding.peerSlot == k || (t.peerSlots.get? k).isSome) := by
  have hinsert : ∀ v : PeerSlot, ((t.peerSlots.insert a.binding.peerSlot v).get? k).isSome =
      (a.binding.peerSlot == k || (t.peerSlots.get? k).isSome) := by
    intro v
    rw [FiniteMap.get?_insert]
    by_cases hk : a.binding.peerSlot = k <;> simp [hk]
  unfold Table.admitPeerAttempt
  rw [a.owns]
  dsimp only
  rw [a.valid]
  by_cases hreused : a.binding.attemptSequence ≤
      ((t.peerSlots.get? a.binding.peerSlot).getD {}).issuedThrough
  · rw [if_pos hreused]
    exact hinsert _
  · rw [if_neg hreused]
    exact hinsert _

theorem retirePeerAttempt_isSome (t : Table) (a : Attempt) (k : UInt8) :
    ((t.retirePeerAttempt a.authority).peerSlots.get? k).isSome = (t.peerSlots.get? k).isSome := by
  unfold Table.retirePeerAttempt
  rw [a.owns]
  dsimp only
  split
  · rfl
  · rename_i slot hslot
    rw [FiniteMap.get?_insert]
    by_cases hk : a.binding.peerSlot = k
    · rw [if_pos hk, ← hk, hslot]
      rfl
    · rw [if_neg hk]

/-! ### Runs -/

/-- The pool, both runtimes, and what each admitted and both retired, latest first. -/
structure Runtimes where
  pool : PoolHost
  table : Table
  web : RetiredPeerContinuations
  tableAdmitted : List PeerAttemptOrdinal
  webAdmitted : List PeerAttemptOrdinal
  retired : List PeerAttemptOrdinal

inductive PeerEvent where
  | pool (call : PoolCall)
  | admitAttempt (attempt : Attempt)
  | retire (attempt : Attempt)

namespace Runtimes

def new : Runtimes := ⟨.new, .new, .new, [], [], []⟩

def Allowed (s : Runtimes) : PeerEvent → Prop
  | .pool _ => True
  | .admitAttempt a => a.ordinal ∈ s.pool.handed
  | .retire a => (a.ordinal ∈ s.tableAdmitted ∨ a.ordinal ∈ s.webAdmitted) ∧ a.ordinal ∉ s.retired

def next (s : Runtimes) : PeerEvent → Runtimes
  | .pool call => { s with pool := s.pool.call call }
  | .admitAttempt a =>
    { s with
      table := (s.table.admitPeerAttempt a.authority).1
      web := (s.web.admitAttempt (some a.web)).1
      tableAdmitted :=
        if (s.table.admitPeerAttempt a.authority).2.isNone then a.ordinal :: s.tableAdmitted
        else s.tableAdmitted
      webAdmitted :=
        if (s.web.admitAttempt (some a.web)).2.isNone then a.ordinal :: s.webAdmitted
        else s.webAdmitted }
  | .retire a =>
    { s with
      table := s.table.retirePeerAttempt a.authority
      web := s.web.retire (some a.web)
      retired := a.ordinal :: s.retired }

def system : System Runtimes PeerEvent where
  init s := s = new
  step s e t := s.Allowed e ∧ s.next e = t

/-- Both runtimes represent the same attempts. -/
structure Sound (s : Runtimes) : Prop where
  pool : s.pool.Ascending
  admitted : s.webAdmitted = s.tableAdmitted
  positive : ∀ o ∈ s.tableAdmitted, 0 < o.attemptSequence
  table : TableTracks s.table s.tableAdmitted s.retired
  web : WebTracks s.web s.tableAdmitted s.retired
  entries : ∀ k : UInt8, (s.table.peerSlots.get? k).isSome = (s.web.slots.get? k.toNat).isSome

theorem sound_new : Sound new where
  pool := PoolHost.ascending_new
  admitted := rfl
  positive := nofun
  table := Tracks.empty
  web := Tracks.empty
  entries := fun _ => rfl

theorem Sound.admitAttempt (h : s.Sound) (a : Attempt) : (s.next (.admitAttempt a)).Sound := by
  have hentries : ∀ k : UInt8, ((s.table.admitPeerAttempt a.authority).1.peerSlots.get? k).isSome =
      ((s.web.admitAttempt (some a.web)).1.slots.get? k.toNat).isSome := by
    intro k
    rw [admitPeerAttempt_isSome, admit_isSome _ a.peerSlot_lt, h.entries, a.peerSlot_eq]
    congr 1
    exact Bool.eq_iff_iff.mpr (by rw [beq_iff_eq, beq_iff_eq, UInt8.toNat_inj])
  obtain ⟨hnew, htable, htableTracks⟩ | ⟨hold, htable, htableTracks⟩ :=
    admitPeerAttempt_cases h.table a
  · obtain ⟨-, hweb, hwebTracks⟩ | ⟨hold, -, -⟩ :=
      RetiredPeerContinuations.admit_cases h.web a.peerSlot_lt
    · unfold next
      dsimp only
      rw [htable, hweb]
      refine ⟨h.pool, congrArg _ h.admitted, ?_, htableTracks, hwebTracks, hentries⟩
      intro o ho
      obtain rfl | ho := List.mem_cons.mp ho
      · exact a.attemptSequence_pos
      · exact h.positive o ho
    · exact absurd hnew (Nat.not_lt.mpr hold)
  · obtain ⟨hnew, -, -⟩ | ⟨-, hweb, hwebTracks⟩ :=
      RetiredPeerContinuations.admit_cases h.web a.peerSlot_lt
    · exact absurd hnew (Nat.not_lt.mpr hold)
    · unfold next
      dsimp only
      rw [htable, hweb]
      exact ⟨h.pool, h.admitted, h.positive, htableTracks, hwebTracks, hentries⟩

theorem Sound.retire (h : s.Sound) {a : Attempt}
    (ha : s.Allowed (.retire a)) : (s.next (.retire a)).Sound := by
  obtain ⟨hadmitted, hactive⟩ := ha
  rw [h.admitted, or_self] at hadmitted
  refine ⟨h.pool, h.admitted, h.positive, retirePeerAttempt_tracks h.table a hadmitted,
    RetiredPeerContinuations.retire_tracks h.web hadmitted hactive, ?_⟩
  intro k
  exact (retirePeerAttempt_isSome _ a k).trans
    ((h.entries k).trans (retire_isSome _ a.web k.toNat).symm)

theorem sound_of_reachable (h : system.Reachable s) : s.Sound := by
  apply h.invariant
  · rintro s rfl
    exact sound_new
  · rintro s e t hs ⟨hallowed, rfl⟩
    cases e with
    | pool call =>
      exact ⟨hs.pool.call call, hs.admitted, hs.positive, hs.table, hs.web, hs.entries⟩
    | admitAttempt a => exact hs.admitAttempt a
    | retire => exact hs.retire hallowed

end Runtimes

/-! ### What both runtimes drop -/

namespace Continuation

variable {cfg : Config} {decoders : WebDecoders} {direction : Direction} {m w : Message}

end Continuation

namespace RetiredAttempt

def identity : Identity := .filled 1

def binding : PeerAttemptBinding := ⟨0, identity, identity, 1⟩

def contract : ContinuationContract where
  classify := fun _ _ => .untracked
  scope := List.replicate 32 1
  maximum := 64
  peerAttempt := some binding
  candidates_only := fun _ _ _ => rfl

def attempt : Attempt where
  authority := { continuations := some ⟨contract, .empty⟩ }
  binding := binding
  web := ⟨0, 0, identity, identity, 1⟩
  owns := rfl
  valid := by decide
  peerSlot_eq := rfl
  attemptSequence_eq := rfl

def classifier : ContinuationClassifier where
  begin := fun _ _ => .untracked
  classifyUnbound := fun _ _ => .untracked
  classifyPeerAttempt := some fun _ _ => .tracked binding
  candidates_only := fun _ _ _ => rfl

def config : Config where
  limits := ⟨2, 4, Nat.zero_lt_two, by decide⟩
  codec := ⟨fun bytes => bytes, some, some, fun _ => some none⟩
  continuations := some classifier

def answer : Message := ⟨.peerAnswer, some identity, [], by decide⟩

/-- A lease numbers an attempt, which is admitted and retired. -/
def events : List PeerEvent :=
  [.pool .acquire, .pool (.next 0), .admitAttempt attempt, .retire attempt]

theorem reachable : Runtimes.system.Reachable (events.foldl Runtimes.next .new) := by
  have hleased := (System.Reachable.of_init (S := Runtimes.system) rfl).step
    (e := PeerEvent.pool .acquire) ⟨trivial, rfl⟩
  have hnumbered := hleased.step (e := PeerEvent.pool (.next 0)) ⟨trivial, rfl⟩
  have hadmitted := hnumbered.step (e := PeerEvent.admitAttempt attempt)
    ⟨List.mem_singleton.mpr rfl, rfl⟩
  exact hadmitted.step (e := PeerEvent.retire attempt)
    ⟨⟨.inl (List.mem_singleton.mpr rfl), List.not_mem_nil⟩, rfl⟩

end RetiredAttempt

end Windshare.Peer
