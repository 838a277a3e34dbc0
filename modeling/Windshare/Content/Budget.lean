import Windshare.Content.Reassembly

/-!
# Runs of the assembler

Fragments arrive, operations are cancelled, completed and swept, and capacities are taken
and released, in any order. The slot of a tombstone is there for every step that ends an
operation with a live assembly. A step that ends another operation takes a slot that may be
reserved, and after it the bound does not hold.
-/

namespace Windshare.Content

open Windshare.Library Windshare.Session

/-- An assembler with the capacities that were taken from it. -/
structure AssemblerHost where
  assembler : Assembler
  capacities : List AssemblyCapacity

/-- Calls of an assembler. A capacity is named by its position. -/
inductive AssemblerEvent where
  | acceptAuthenticated (plaintext : Bytes) (reserve : Except ReserveError Unit) (now : Time)
  | tryReserve (bytes : UInt64)
  | acceptFor (index : Nat) (plaintext : Bytes) (now : Time)
  | releaseCapacity (index : Nat) (now : Time)
  | cancelOperation (operationID : Identity) (now : Time)
  | completeOperation (operationID : Identity) (now : Time)
  | sweepTimeouts (timedOut : List Identity) (now : Time)
  | close

namespace AssemblerHost

variable (sha256 : Bytes → Bytes) (host : AssemblerHost)

/-- A sweep passes the operations that timed out, each once. -/
def Allows : AssemblerEvent → Prop
  | .sweepTimeouts timedOut now => timedOut.Nodup ∧
      ∀ op, op ∈ timedOut ↔ (host.assembler.prune now).timedOut op now
  | _ => True

def perform : AssemblerEvent → AssemblerHost
  | .acceptAuthenticated plaintext reserve now =>
    { host with
      assembler := (host.assembler.acceptAuthenticated sha256 plaintext reserve now).1 }
  | .tryReserve bytes =>
    if host.assembler.closed then host
    else { host with capacities := host.capacities ++ [⟨bytes, .zero, .zero, false⟩] }
  | .acceptFor index plaintext now =>
    match host.capacities[index]? with
    | none => host
    | some capacity =>
      let out := capacity.acceptAuthenticated host.assembler sha256 plaintext now
      ⟨out.2.1, host.capacities.set index out.1⟩
  | .releaseCapacity index now =>
    match host.capacities[index]? with
    | none => host
    | some capacity =>
      let out := capacity.release host.assembler now
      ⟨out.2, host.capacities.set index out.1⟩
  | .cancelOperation operationID now =>
    { host with assembler := (host.assembler.cancelOperation operationID now).1 }
  | .completeOperation operationID now =>
    { host with assembler := (host.assembler.completeOperation operationID now).1 }
  | .sweepTimeouts timedOut now =>
    { host with assembler := (host.assembler.sweepTimeouts timedOut now).1 }
  | .close => { host with assembler := host.assembler.close }

/-- The step ends no operation without a slot for its tombstone. -/
def Reserves : AssemblerEvent → Prop
  | .cancelOperation operationID now => (host.assembler.prune now).Reserves operationID
  | .completeOperation operationID now => (host.assembler.prune now).Reserves operationID
  | .releaseCapacity index _ => ∀ capacity, host.capacities[index]? = some capacity →
      capacity.released = false → host.assembler.Reserves capacity.operation
  | _ => True

def system : System AssemblerHost AssemblerEvent where
  init host := host = ⟨newAssembler, []⟩
  step host event next := host.Allows event ∧ host.perform sha256 event = next

/-- The runs in which every step finds its slot. -/
def reservingSystem : System AssemblerHost AssemblerEvent where
  init host := host = ⟨newAssembler, []⟩
  step host event next := host.Allows event ∧ host.Reserves event ∧ host.perform sha256 event = next

variable {sha256 host}

theorem newAssembler_bytesOk : newAssembler.BytesOk := fun _ => ⟨rfl, Nat.zero_le _⟩

/-- What a call does to the assembler. -/
inductive Changes (sha256 : Bytes → Bytes) (host : AssemblerHost) (event : AssemblerEvent) :
    Assembler → Prop
  | kept : Changes sha256 host event host.assembler
  | pruned (now : Time) : Changes sha256 host event (host.assembler.prune now)
  | accepted (fragment : Fragment) (hasCapacity : Bool) (reserve : Except ReserveError Unit)
      (now : Time) : Changes sha256 host event
        (host.assembler.acceptFragment sha256 fragment hasCapacity reserve now).1
  | terminated (op : Identity) (now : Time)
      (hslot : host.Reserves event → host.assembler.Reserves op) :
      Changes sha256 host event (host.assembler.terminateOperation op now).1
  | cancelled (op : Identity) (now : Time)
      (hslot : host.Reserves event → (host.assembler.prune now).Reserves op) :
      Changes sha256 host event ((host.assembler.prune now).terminateOperation op now).1
  | swept (timedOut : List Identity) (now : Time) (hnodup : timedOut.Nodup)
      (hlive : ∀ op ∈ timedOut, (host.assembler.prune now).Live op) :
      Changes sha256 host event (timedOut.foldl
        (fun a op => (a.terminateOperation op now).1) (host.assembler.prune now))
  | closed : Changes sha256 host event host.assembler.close

variable {a : Assembler} {event : AssemblerEvent} {k : Nat}

theorem cancelOperation_changes {op : Identity} {now : Time}
    (hslot : host.Reserves event → (host.assembler.prune now).Reserves op) :
    Changes sha256 host event (host.assembler.cancelOperation op now).1 := by
  unfold Assembler.cancelOperation
  split
  · exact .kept
  split
  · exact .kept
  · exact .cancelled op now hslot

theorem perform_changes (hallowed : host.Allows event) :
    Changes sha256 host event (host.perform sha256 event).assembler := by
  cases event with
  | acceptAuthenticated plaintext reserve now =>
    simp only [perform, Assembler.acceptAuthenticated]
    split
    · exact .kept
    split
    · exact .kept
    · exact .accepted _ false reserve now
  | tryReserve =>
    simp only [perform]
    split <;> exact .kept
  | acceptFor index plaintext now =>
    simp only [perform]
    split
    · exact .kept
    simp only [AssemblyCapacity.acceptAuthenticated]
    split
    · exact .kept
    split
    · exact .kept
    split
    · exact .kept
    · exact .accepted _ true (.ok ()) now
  | releaseCapacity index now =>
    simp only [perform]
    split
    · exact .kept
    rename_i capacity hcapacity
    simp only [AssemblyCapacity.release]
    split
    · exact .kept
    rename_i hheld
    split
    · exact .terminated _ now fun h => h capacity hcapacity (Bool.eq_false_iff.mpr hheld)
    · exact .kept
  | cancelOperation | completeOperation => exact cancelOperation_changes id
  | sweepTimeouts timedOut now =>
    obtain ⟨hnodup, hlisted⟩ := hallowed
    simp only [perform, Assembler.sweepTimeouts]
    split
    · exact .pruned now
    · refine .swept timedOut now hnodup ?_
      intro op hop
      exact Assembler.live_of_timedOut ((hlisted op).mp hop)
  | close => exact .closed

/-- The byte counts stay right over every call. -/
theorem Changes.bytesOk
    (h : Changes sha256 host event a) (hbytes : host.assembler.BytesOk) : a.BytesOk := by
  cases h with
  | kept | pruned => exact hbytes
  | accepted fragment hasCapacity reserve now =>
    exact (Assembler.acceptFragment_accepts sha256 hbytes fragment hasCapacity reserve now).bytes
  | terminated op now => exact hbytes.terminateOperation op now
  | cancelled op now =>
    exact Assembler.BytesOk.terminateOperation (a := host.assembler.prune now) hbytes op now
  | swept timedOut now =>
    exact Assembler.BytesOk.sweep (a := host.assembler.prune now) hbytes timedOut now
  | closed => exact (Assembler.close_sound hbytes).1

/-- The slots stay within the bound over every call that finds its slot. -/
theorem Changes.slots_le (h : Changes sha256 host event a) (hbytes : host.assembler.BytesOk)
    (hslots : host.assembler.slots ≤ maxFragmentTombstones) (hreserves : host.Reserves event) :
    a.slots ≤ maxFragmentTombstones := by
  have hpruned (now : Time) := (host.assembler.prune_slots_le now).trans hslots
  cases h with
  | kept => exact hslots
  | pruned now => exact hpruned now
  | accepted fragment hasCapacity reserve now =>
    exact (Assembler.acceptFragment_accepts sha256 hbytes fragment hasCapacity reserve
      now).slots_le hslots
  | terminated op now hslot =>
    exact (Assembler.terminateOperation_installs hslots (hslot hreserves) now).2.1
  | cancelled op now hslot =>
    exact (Assembler.terminateOperation_installs (hpruned now) (hslot hreserves) now).2.1
  | swept timedOut now hnodup hlive =>
    exact Assembler.sweep_slots_le timedOut now hnodup hlive (hpruned now)
  | closed => exact (Assembler.close_sound hbytes).2.trans hslots

theorem reachable_bytesOk (h : (system sha256).Reachable host) : host.assembler.BytesOk := by
  refine h.invariant (P := fun host => host.assembler.BytesOk) ?_ ?_
  · rintro _ rfl
    exact newAssembler_bytesOk
  · rintro host event _ hbytes ⟨hallowed, rfl⟩
    exact (perform_changes hallowed).bytesOk hbytes

/-- In the runs that find their slots, the bound holds. -/
theorem reachable_slots_le (h : (reservingSystem sha256).Reachable host) :
    host.assembler.BytesOk ∧ host.assembler.slots ≤ maxFragmentTombstones := by
  refine h.invariant (P := fun host => host.assembler.BytesOk ∧
    host.assembler.slots ≤ maxFragmentTombstones) ?_ ?_
  · rintro _ rfl
    exact ⟨newAssembler_bytesOk, Nat.zero_le _⟩
  · rintro host event _ ⟨hbytes, hslots⟩ ⟨hallowed, hreserves, rfl⟩
    have hchanges : Changes sha256 host event _ := perform_changes hallowed
    exact ⟨hchanges.bytesOk hbytes, hchanges.slots_le hbytes hslots hreserves⟩

/-- Byte counts are right in every run. In the runs whose steps find a slot for the
operation they end, the slots stay within the bound; a completed record, a fragment that
ends its operation, and a cancelled operation with a slot leave their tombstones, and
cancelling does not fail. -/
theorem tombstones_fit_reserved_slots :
    (∀ host, (system sha256).Reachable host → ∀ op,
      (host.assembler.bytesOf op).toNat = host.assembler.liveBytes op ∧
        host.assembler.liveBytes op ≤ maxOperationReassemblyBytes.toNat) ∧
    ∀ host, (reservingSystem sha256).Reachable host →
      host.assembler.slots ≤ maxFragmentTombstones ∧
      (∀ fragment hasCapacity reserve now,
        let out := host.assembler.acceptFragment sha256 fragment hasCapacity reserve now
        (∀ key object received, out.2 = .ok ⟨key, .recordComplete object received⟩ →
          out.1.recordTombstones.get? key = some (now + fragmentTombstone)) ∧
        ∀ e, out.2 = .error e → e = .conflict ∨ e = .inactivity ∨ e = .recordDigest →
          out.1.operationTombs.get? fragment.operationID = some (now + fragmentTombstone)) ∧
      ∀ op now, op.isZero = false → host.assembler.closed = false →
        (host.assembler.prune now).Reserves op →
          (host.assembler.cancelOperation op now).2 = .ok () ∧
          (host.assembler.cancelOperation op now).1.operationTombs.get? op =
            some (now + fragmentTombstone) := by
  refine ⟨fun host h => reachable_bytesOk h, ?_⟩
  intro host h
  obtain ⟨hbytes, hslots⟩ := reachable_slots_le h
  refine ⟨hslots, ?_, ?_⟩
  · intro fragment hasCapacity reserve now
    have haccepts := Assembler.acceptFragment_accepts sha256 hbytes fragment hasCapacity reserve now
    exact ⟨haccepts.completed, haccepts.terminated hslots⟩
  · intro op now hnonzero hopen hreserves
    have hinstalls := Assembler.terminateOperation_installs
      ((host.assembler.prune_slots_le now).trans hslots) hreserves now
    unfold Assembler.cancelOperation
    rw [if_neg (by simp [hnonzero]), if_neg (by simp [hopen])]
    exact ⟨hinstalls.1, hinstalls.2.2⟩

/-! ### A slot taken twice

One record is being assembled. Operations without an assembly are cancelled until their
tombstones fill the table, and the slot of the record's operation is gone. -/

def numberedID (n : Nat) : Identity := ⟨bigEndian 16 n, length_bigEndian 16 n⟩

theorem numberedID_inj {n m : Nat} (hn : n < 2 ^ 64) (hm : m < 2 ^ 64)
    (h : numberedID n = numberedID m) : n = m :=
  bigEndian_inj (hn.trans_le (by decide)) (hm.trans_le (by decide)) (congrArg Identity.bytes h)

theorem numberedID_nonzero {n : Nat} (hn : n < 2 ^ 64) (hpos : 0 < n) :
    ¬ (numberedID n).isZero := by
  intro hzero
  have heq : numberedID n = numberedID 0 := eq_of_beq hzero
  exact absurd (numberedID_inj hn (by decide) heq) (Nat.ne_of_gt hpos)

def liveFragment : Fragment where
  operationID := numberedID 1
  recordID := numberedID 1
  index := 1
  count := 2
  totalLength := 65441
  last := true
  payload := [0]

def livePlaintext : Bytes :=
  [1, 8, 1, 0] ++ bigEndian 16 1 ++ bigEndian 16 1 ++ bigEndian 4 1 ++ bigEndian 4 2 ++
    bigEndian 4 65441 ++ bigEndian 4 1 ++ [0]

def liveKey : AssemblyKey := ⟨numberedID 1, numberedID 1⟩

def plainDigest : Bytes → Bytes := fun _ => []

/-- The host after the fragment and the cancellation of `k` other operations. -/
def crowdedHost : Nat → AssemblerHost
  | 0 => perform plainDigest ⟨newAssembler, []⟩ (.acceptAuthenticated livePlaintext (.ok ()) 0)
  | k + 1 => (crowdedHost k).perform plainDigest (.cancelOperation (numberedID (k + 2)) 0)

theorem crowdedHost_succ (k : Nat) : (crowdedHost (k + 1)).assembler =
    ((crowdedHost k).assembler.cancelOperation (numberedID (k + 2)) 0).1 := by
  simp only [crowdedHost, perform]

theorem crowdedHost_reachable (k : Nat) : (system plainDigest).Reachable (crowdedHost k) := by
  induction k with
  | zero =>
    have hstart : (system plainDigest).Reachable ⟨newAssembler, []⟩ := .of_init rfl
    exact hstart.step (e := .acceptAuthenticated livePlaintext (.ok ()) 0) ⟨trivial, rfl⟩
  | succ k ih => exact ih.step (e := .cancelOperation (numberedID (k + 2)) 0) ⟨trivial, rfl⟩

/-- One live record and the tombstones of `k` operations. -/
structure Crowded (k : Nat) (a : Assembler) : Prop where
  closed : a.closed = false
  live : ∃ state, a.records.get? liveKey = some state
  recordTombstones : a.recordTombstones = .empty
  size : a.operationTombs.size = k
  tombs : ∀ op expiry, a.operationTombs.get? op = some expiry →
    0 < expiry ∧ ∃ n < k, op = numberedID (n + 2)

theorem place_live (a : Assembler) :
    a.place plainDigest liveKey liveFragment (.new liveFragment 0) 0 =
      ({ a with
        records := a.records.insert liveKey
          ((AssemblyState.new liveFragment 0).receive liveFragment 0) },
        .ok ⟨liveKey, .fragmentAccepted 1⟩) := by
  have hlength : (AssemblyState.new liveFragment 0).buffer.length = 65441 :=
    List.length_replicate
  have hfits : ¬ liveFragment.index.toNat * maxFragmentPayloadBytes +
      liveFragment.payload.length > (AssemblyState.new liveFragment 0).buffer.length := by
    rw [hlength]
    decide
  unfold Assembler.place
  rw [if_neg hfits, if_neg (by decide), if_pos (by decide)]
  rfl

theorem crowdedHost_zero : Crowded 0 (crowdedHost 0).assembler := by
  have hdecode : decodeAuthenticatedFragment livePlaintext = .ok liveFragment := by decide +kernel
  have hassembly : newAssembler.assembly liveKey liveFragment false (.ok ()) 0 =
      ({ newAssembler with
        records := FiniteMap.empty.insert liveKey (.new liveFragment 0)
        operationBytes := FiniteMap.empty.insert (numberedID 1) 65441 },
        .ok (.new liveFragment 0)) := rfl
  have haccept : newAssembler.acceptFragment plainDigest liveFragment false (.ok ()) 0 =
      (newAssembler.assembly liveKey liveFragment false (.ok ()) 0).1.place plainDigest liveKey
        liveFragment (.new liveFragment 0) 0 := by
    have hprune : newAssembler.prune 0 = newAssembler := rfl
    have htimedOut : newAssembler.timedOut liveFragment.operationID 0 = false := rfl
    have htomb : newAssembler.operationTombs.get? liveFragment.operationID = none := rfl
    have hrecord : newAssembler.recordTombstones.get? ⟨liveFragment.operationID,
      liveFragment.recordID⟩ = none := rfl
    unfold Assembler.acceptFragment
    rw [hprune]
    rw [if_neg (by simp [htimedOut]), if_neg (not_not.mpr htomb), if_neg (not_not.mpr hrecord)]
    rfl
  have hassembler : (crowdedHost 0).assembler = (newAssembler.acceptFragment plainDigest
      liveFragment false (.ok ()) 0).1 := by
    simp only [crowdedHost, perform, Assembler.acceptAuthenticated, hdecode]
    rw [if_neg (by decide)]
  rw [hassembler, haccept, hassembly, place_live]
  refine ⟨rfl, ⟨_, FiniteMap.get?_insert_self⟩, rfl, rfl, ?_⟩
  intro op expiry hget
  cases hget

theorem Crowded.prune (h : Crowded k a) : a.prune 0 = a := by
  have htombs : a.operationTombs.filter (fun _ expiry => decide (0 < expiry)) =
      a.operationTombs := by
    have hentries : a.operationTombs.entries.filter (fun e => decide (0 < e.2)) =
        a.operationTombs.entries := by
      rw [List.filter_eq_self]
      rintro ⟨op, expiry⟩ hmem
      exact decide_eq_true (h.tombs op expiry (FiniteMap.mem_entries_iff.mp hmem)).1
    cases hmap : a.operationTombs
    rw [hmap] at hentries
    simp only [FiniteMap.filter, FiniteMap.mk.injEq]
    exact hentries
  unfold Assembler.prune
  rw [htombs, h.recordTombstones]
  cases a
  obtain rfl := h.recordTombstones
  rfl

/-- Cancelling one more operation takes one more slot. -/
theorem Crowded.cancel (h : Crowded k a) (hk : k < maxFragmentTombstones) :
    Crowded (k + 1) (a.cancelOperation (numberedID (k + 2)) 0).1 := by
  have hsmall : k + 2 < 2 ^ 64 := by
    unfold maxFragmentTombstones at hk
    omega
  have hnew : a.operationTombs.get? (numberedID (k + 2)) = none := by
    cases hget : a.operationTombs.get? (numberedID (k + 2)) with
    | none => rfl
    | some expiry =>
      obtain ⟨-, n, hn, heq⟩ := h.tombs _ expiry hget
      have := numberedID_inj hsmall (by omega) heq
      omega
  obtain ⟨state, hlive⟩ := h.live
  unfold Assembler.cancelOperation
  rw [if_neg (numberedID_nonzero hsmall (Nat.succ_pos _)), if_neg (by simp [h.closed]), h.prune]
  obtain ⟨b, hreleased, ⟨heq, -⟩ | ⟨-, -, hfull⟩⟩ :=
    a.terminateOperation_cases (numberedID (k + 2)) 0
  · rw [heq]
    refine ⟨hreleased.closed.trans h.closed, ⟨state, ?_⟩,
      hreleased.recordTombstones.trans h.recordTombstones, ?_, ?_⟩
    · refine (hreleased.kept liveKey fun hgone => ?_).trans hlive
      have := numberedID_inj (by decide) hsmall hgone.1
      omega
    · rw [FiniteMap.size_insert_of_none hnew, h.size]
    · intro op expiry hget
      rw [FiniteMap.get?_insert] at hget
      split at hget
      · rename_i hop
        cases hget
        exact ⟨by decide, k, Nat.lt_succ_self k, hop.symm⟩
      · obtain ⟨hpos, n, hn, rfl⟩ := h.tombs op expiry hget
        exact ⟨hpos, n, Nat.lt_succ_of_lt hn, rfl⟩
  · rw [h.recordTombstones, h.size] at hfull
    exact absurd hfull (by rw [FiniteMap.size_empty]; omega)

theorem crowdedHost_crowded (hk : k ≤ maxFragmentTombstones) :
    Crowded k (crowdedHost k).assembler := by
  induction k with
  | zero => exact crowdedHost_zero
  | succ k ih =>
    have hcancel := (ih (Nat.le_of_succ_le hk)).cancel (Nat.lt_of_succ_le hk)
    rwa [crowdedHost_succ]

/-- In the full table the operation of the live record gets no tombstone. -/
theorem Crowded.refuses (h : Crowded k a) (hk : k = maxFragmentTombstones) :
    maxFragmentTombstones < a.slots ∧ a.Live (numberedID 1) ∧
      (a.cancelOperation (numberedID 1) 0).2 = .error .reassemblyBudget ∧
      (a.cancelOperation (numberedID 1) 0).1.operationTombs.get? (numberedID 1) = none := by
  obtain ⟨state, hlive⟩ := h.live
  have hnone : a.operationTombs.get? (numberedID 1) = none := by
    cases hget : a.operationTombs.get? (numberedID 1) with
    | none => rfl
    | some expiry =>
      obtain ⟨-, n, hn, heq⟩ := h.tombs _ expiry hget
      have hsmall : n + 2 < 2 ^ 64 := by
        unfold maxFragmentTombstones at hk
        omega
      have := numberedID_inj (by decide) hsmall heq
      omega
  refine ⟨?_, ⟨liveKey, state, hlive, rfl⟩, ?_⟩
  · have hsize := FiniteMap.size_erase_of_some hlive
    unfold Assembler.slots
    rw [h.size, hk]
    omega
  unfold Assembler.cancelOperation
  rw [if_neg (numberedID_nonzero (by decide) (by decide)), if_neg (by simp [h.closed]), h.prune]
  obtain ⟨b, hreleased, ⟨-, hsome | hroom⟩ | ⟨heq, -, -⟩⟩ :=
    a.terminateOperation_cases (numberedID 1) 0
  · exact absurd hnone hsome
  · rw [h.recordTombstones, h.size, hk, FiniteMap.size_empty, Nat.zero_add] at hroom
    exact absurd hroom (Nat.lt_irrefl _)
  · rw [heq]
    exact ⟨rfl, hreleased.operationTombs ▸ hnone⟩

/-- A run reaches a state beyond the bound, in which an operation with a live assembly
cannot be cancelled. -/
theorem tombstone_slot_taken :
    ∃ host, (system plainDigest).Reachable host ∧
      maxFragmentTombstones < host.assembler.slots ∧
      host.assembler.Live (numberedID 1) ∧
      (host.assembler.cancelOperation (numberedID 1) 0).2 = .error .reassemblyBudget ∧
      (host.assembler.cancelOperation (numberedID 1) 0).1.operationTombs.get? (numberedID 1) =
        none := by
  obtain ⟨k, hk⟩ : ∃ k, k = maxFragmentTombstones := ⟨_, rfl⟩
  exact ⟨crowdedHost k, crowdedHost_reachable k, (crowdedHost_crowded hk.le).refuses hk⟩

/-- The live record alone has its slot, and its operation is cancelled. -/
theorem tombstones_fit_reserved_slots_live :
    (crowdedHost 0).assembler.slots ≤ maxFragmentTombstones ∧
      ((crowdedHost 0).assembler.cancelOperation (numberedID 1) 0).2 = .ok () := by
  have hstart : (reservingSystem plainDigest).Reachable ⟨newAssembler, []⟩ := .of_init rfl
  have hreachable : (reservingSystem plainDigest).Reachable (crowdedHost 0) :=
    hstart.step (e := .acceptAuthenticated livePlaintext (.ok ()) 0) ⟨trivial, trivial, rfl⟩
  obtain ⟨hslots, -, hcancel⟩ := tombstones_fit_reserved_slots.2 _ hreachable
  obtain ⟨state, hlive⟩ := crowdedHost_zero.live
  have hreserves : ((crowdedHost 0).assembler.prune 0).Reserves (numberedID 1) := by
    rw [crowdedHost_zero.prune]
    exact .inl ⟨liveKey, state, hlive, rfl⟩
  have hnonzero : (numberedID 1).isZero = false := by decide
  exact ⟨hslots, (hcancel (numberedID 1) 0 hnonzero crowdedHost_zero.closed hreserves).1⟩

end AssemblerHost

end Windshare.Content
