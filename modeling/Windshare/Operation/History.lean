import Windshare.Operation.Records

/-!
# Histories of the operation table

A run of the table is a list of calls. Some of its calls observe a message: those of
`Observe` and `ObserveInbound`, and those of `AdmitOutbound` that pass the permit
check. Two observations of one run are compared by the generation they belong to,
which is the authority the operation has after the call.

What an observation leaves in the table and no move takes back is stated here as a
predicate of the table that every move keeps.
-/

namespace Windshare.Operation

open Windshare.Library Windshare.Session

namespace Table

/-- The operation is active or has a tombstone. -/
def Tracks (t : Table) (id : OperationID) : Prop := ∃ a, t.Owns id a

def generationOf (t : Table) (m : Message) : Option OperationGeneration :=
  m.operationID.bind fun id => (t.operationAuthority id).map fun a => ⟨a, id⟩

end Table

/-- A call that observed a message: the table it found after expiry, the message, the
verdict it returned and the generation afterwards. -/
structure Observation where
  before : Table
  direction : Direction
  message : Message
  verdict : Verdict
  generation : Option OperationGeneration

namespace Observation

variable (o : Observation)

def Delivered : Prop := ∃ reservation, o.verdict = .delivered reservation

def Refused : Prop := ∃ e, o.verdict = .refused e

/-- The message asks for an operation. -/
def IsRequest : Prop :=
  o.message.kind.isRequest ∨ o.message.kind = .laneAttach ∧ o.direction = .receiverToSender

/-- The message ends an operation. -/
def IsFinal : Prop :=
  o.message.kind.isFinal ∨ o.message.kind = .laneAttach ∧ o.direction = .senderToReceiver

/-- The name the operation's contract has for the message, if it is a continuation. -/
def continuation (cfg : Config) : Option ContinuationKey :=
  (o.before.generationOf o.message).bind fun generation =>
    (o.before.authorityAt generation.authority).continuations.bind fun state =>
      match state.classify cfg.codec o.direction o.message with
      | .tracked key => some key
      | _ => none

end Observation

namespace Table

def observation (cfg : Config) (t : Table) (c : Call) : Option Observation :=
  let observed (direction : Direction) (m : Message) (verdict : Verdict) : Observation :=
    { before := t.pruned c
      direction, message := m, verdict
      generation := (t.call cfg c).generationOf m }
  match c with
  | .observe pruneAt now direction m =>
    some (observed direction m (t.observe cfg pruneAt now direction m).2)
  | .observeInbound pruneAt now direction m =>
    some (observed direction m (t.observeInbound cfg pruneAt now direction m).2.verdict)
  | .admitOutbound permitAt pruneAt now direction m permit =>
    if requiresPermit direction m.kind ∧
        ((t.pruneExpired permitAt).permitVerdict direction m permit).isSome then none
    else
      some (observed direction m
        (t.admitOutbound cfg permitAt pruneAt now direction m permit).2.verdict)
  | _ => none

def stateAt (cfg : Config) (calls : List Call) (k : Nat) : Table :=
  (calls.take k).foldl (call cfg) new

/-- The table that call `k` finds after expiry. -/
def prunedAt (cfg : Config) (calls : List Call) (k : Nat) : Table :=
  match calls[k]? with
  | none => stateAt cfg calls k
  | some c => (stateAt cfg calls k).pruned c

def observedAt (cfg : Config) (calls : List Call) (k : Nat) : Option Observation :=
  calls[k]?.bind ((stateAt cfg calls k).observation cfg)

/-- The reservation was committed. -/
def Committed (t : Table) (index : Nat) : Prop :=
  ∃ r, t.reservations[index]? = some r ∧ r.settled = some true

variable {cfg : Config} {expiry : List Time} {t u : Table} {direction : Direction} {m : Message}

/-! ### The table after an observation -/

/-- `w` is `u` but for a pin or the settlement of a reservation. -/
structure Trails (u w : Table) : Prop where
  active : w.active = u.active
  tombstones : w.tombstones = u.tombstones
  length : w.authorities.length = u.authorities.length
  reservations : ∀ (index : Nat) (r : Reservation), u.reservations[index]? = some r →
    ∃ settled, w.reservations[index]? = some { r with settled := settled }

theorem Trails.refl (u : Table) : Trails u u := ⟨rfl, rfl, rfl, fun _ r hr => ⟨r.settled, hr⟩⟩

theorem trails_settle (u : Table) (index : Nat) (commit : Bool) :
    Trails u (u.settle index commit) := by
  have hframed := framed_settle u index commit
  refine ⟨hframed.active, hframed.tombstones, hframed.length, fun index' r' hr' => ?_⟩
  unfold settle
  split
  · exact ⟨r'.settled, hr'⟩
  rename_i r hr
  split
  · exact ⟨r'.settled, hr'⟩
  · by_cases hindex : index = index'
    · subst hindex
      obtain rfl : r' = r := Option.some.inj (hr'.symm.trans hr)
      exact ⟨some commit, List.getElem?_set_self (List.getElem?_eq_some_iff.mp hr).1⟩
    · rw [List.getElem?_set_ne hindex]
      exact ⟨r'.settled, hr'⟩

theorem trails_pin (u : Table) (id : OperationID) (a : Nat) (refresh : Bool) :
    Trails u (u.pin id a refresh) :=
  ⟨rfl, rfl, List.length_modify .., fun _ r hr => ⟨r.settled, hr⟩⟩

/-- The verdict of an admitted message is that of the observation. -/
theorem admitPermitted_spec (cfg : Config) (t : Table) (pruneAt now : Time) (direction : Direction)
    (m : Message) :
    ∃ u, (t.pruneExpired pruneAt).observePruned cfg now direction m =
        (u, (t.admitPermitted cfg pruneAt now direction m).2.verdict) ∧
      Trails u (t.admitPermitted cfg pruneAt now direction m).1 := by
  unfold admitPermitted
  split
  · rename_i u reservation heq
    split
    · exact ⟨u, heq, .refl u⟩
    rename_i id hid
    obtain ⟨-, hdelivered⟩ := observePruned_delivered hid heq
    obtain ⟨a, ha, -⟩ := hdelivered.authority
    rw [ha]
    exact ⟨u, heq, trails_pin u _ _ _⟩
  · rename_i u verdict hnot heq
    exact ⟨u, heq, .refl u⟩

theorem observeInbound_spec (cfg : Config) (t : Table) (pruneAt now : Time) (direction : Direction)
    (m : Message) :
    ∃ u, (t.pruneExpired pruneAt).observePruned cfg now direction m =
        (u, (t.observeInbound cfg pruneAt now direction m).2.verdict) ∧
      Trails u (t.observeInbound cfg pruneAt now direction m).1 := by
  unfold observeInbound
  split
  · rename_i u reservation heq
    split
    · exact ⟨u, heq, .refl u⟩
    rename_i id hid
    obtain ⟨-, hdelivered⟩ := observePruned_delivered hid heq
    obtain ⟨a, ha, -⟩ := hdelivered.authority
    rw [ha]
    exact ⟨u, heq, .refl u⟩
  · rename_i u verdict hnot heq
    exact ⟨u, heq, .refl u⟩

theorem observe_spec (cfg : Config) (t : Table) (pruneAt now : Time) (direction : Direction)
    (m : Message) :
    ∃ u, (t.pruneExpired pruneAt).observePruned cfg now direction m =
        (u, (t.observe cfg pruneAt now direction m).2) ∧
      Trails u (t.observe cfg pruneAt now direction m).1 := by
  unfold observe
  split
  · rename_i u index heq
    exact ⟨u, heq, trails_settle u index true⟩
  · rename_i u verdict hnot heq
    exact ⟨u, heq, .refl u⟩

/-- What an observation says: the message met the expired table, and the call left the
table that the observation led to. -/
theorem observation_spec {c : Call} {o : Observation} (h : t.observation cfg c = some o) :
    o.before = t.pruned c ∧ o.generation = (t.call cfg c).generationOf o.message ∧
      ∃ now u, o.before.observePruned cfg now o.direction o.message = (u, o.verdict) ∧
        Trails u (t.call cfg c) := by
  cases c with
  | observe pruneAt now direction m =>
    cases h
    obtain ⟨u, hu⟩ := observe_spec cfg t pruneAt now direction m
    exact ⟨rfl, rfl, now, u, hu⟩
  | observeInbound pruneAt now direction m =>
    cases h
    obtain ⟨u, hu⟩ := observeInbound_spec cfg t pruneAt now direction m
    exact ⟨rfl, rfl, now, u, hu⟩
  | admitOutbound permitAt pruneAt now direction m permit =>
    unfold observation at h
    dsimp only at h
    split at h
    · cases h
    rename_i hpass
    cases h
    refine ⟨rfl, rfl, now, ?_⟩
    dsimp only [call]
    unfold pruned admitOutbound
    dsimp only
    by_cases hpermit : requiresPermit direction m.kind = true
    · rw [if_pos hpermit, if_pos hpermit]
      cases hverdict : (t.pruneExpired permitAt).permitVerdict direction m permit with
      | some => exact absurd ⟨hpermit, by rw [hverdict]; rfl⟩ hpass
      | none => exact admitPermitted_spec cfg _ pruneAt now direction m
    · rw [if_neg hpermit, if_neg hpermit]
      exact admitPermitted_spec cfg t pruneAt now direction m
  | _ => cases h

/-! ### What an entry can become -/

variable {id : OperationID} {calls : List Call} {P : Table → Prop} {k : Nat}

theorem Move.active_cases (h : Move cfg expiry t u) {op : ActiveOperation}
    (hop : u.active.get? id = some op) :
    (∃ old, t.active.get? id = some old ∧ old.authority = op.authority ∧
      old.requestKind = op.requestKind ∧ (old.answer ≠ none → op.answer ≠ none)) ∨
      op.authority = t.authorities.length := by
  have hsame (hold : t.active.get? id = some op) :
      ∃ old, t.active.get? id = some old ∧ old.authority = op.authority ∧
        old.requestKind = op.requestKind ∧ (old.answer ≠ none → op.answer ≠ none) :=
    ⟨op, hold, rfl, rfl, fun h => h⟩
  cases h with
  | begin id' op' authority hterminal hactive htombstone hroom htracked hauthority =>
    rw [FiniteMap.get?_insert] at hop
    split at hop
    · cases hop
      exact .inr hauthority
    · exact .inl (hsame hop)
  | finish id' =>
    have herase : (t.active.erase id').get? id = some op := hop
    rw [FiniteMap.get?_erase] at herase
    split at herase
    · cases herase
    · exact .inl (hsame herase)
  | answer id' op' digest hop' =>
    rw [FiniteMap.get?_insert] at hop
    split at hop
    · rename_i hid
      cases hop
      exact .inl ⟨op', hid ▸ hop', rfl, rfl, fun _ h => by cases h⟩
    · exact .inl (hsame hop)
  | reserve a state hstate direction key f =>
    exact .inl (hsame ((framed_reserveContinuation t a state direction key f).active ▸ hop))
  | settle index commit => exact .inl (hsame ((framed_settle t index commit).active ▸ hop))
  | _ => exact .inl (hsame hop)

/-- A tombstone after a move was there before with the same final, unless that was a
cancellation; or it was an active operation; or it has a new authority. -/
theorem Move.tombstone_cases (h : Move cfg expiry t u) {tombstone : Tombstone}
    (htombstone : u.tombstones.get? id = some tombstone) :
    (∃ old, t.tombstones.get? id = some old ∧ old.authority = tombstone.authority ∧
      (old.finalKind = .cancel ∨ tombstone.finalKind = old.finalKind ∧
        tombstone.fingerprint = old.fingerprint)) ∨
    (∃ op, t.active.get? id = some op ∧ op.authority = tombstone.authority) ∨
    tombstone.authority = t.authorities.length := by
  have hsame (hold : t.tombstones.get? id = some tombstone) :
      ∃ old, t.tombstones.get? id = some old ∧ old.authority = tombstone.authority ∧
        (old.finalKind = .cancel ∨ tombstone.finalKind = old.finalKind ∧
          tombstone.fingerprint = old.fingerprint) :=
    ⟨tombstone, hold, rfl, .inr ⟨rfl, rfl⟩⟩
  cases h with
  | prune =>
    rw [pruneExpired, FiniteMap.get?_filter] at htombstone
    exact .inl (hsame (Option.filter_eq_some_iff.mp htombstone).1)
  | preempt id' tombstone' hterminal hactive hnone htracked hauthority =>
    rw [FiniteMap.get?_insert] at htombstone
    split at htombstone
    · cases htombstone
      exact .inr (.inr hauthority)
    · exact .inl (hsame htombstone)
  | finish id' op tombstone' hop hnone hauthority =>
    have hinsert : (t.tombstones.insert id' tombstone').get? id = some tombstone := htombstone
    rw [FiniteMap.get?_insert] at hinsert
    split at hinsert
    · rename_i hid
      cases hinsert
      exact .inr (.inl ⟨op, hid ▸ hop, hauthority.symm⟩)
    · exact .inl (hsame hinsert)
  | amend id' old amended hold hauthority hexpires hfinal =>
    rw [FiniteMap.get?_insert] at htombstone
    split at htombstone
    · rename_i hid
      cases htombstone
      exact .inl ⟨old, hid ▸ hold, hauthority.symm, hfinal⟩
    · exact .inl (hsame htombstone)
  | reserve a state hstate direction key f =>
    have hframed := framed_reserveContinuation t a state direction key f
    exact .inl (hsame (hframed.tombstones ▸ htombstone))
  | settle index commit =>
    exact .inl (hsame ((framed_settle t index commit).tombstones ▸ htombstone))
  | _ => exact .inl (hsame htombstone)

/-! ### Facts that no call takes back -/

/-- A fact about the table that no call takes back. -/
structure Lasting (cfg : Config) (P : Table → Prop) : Prop where
  move : ∀ {expiry : List Time} {v w : Table}, P v → Move cfg expiry v w → P w
  unpin : ∀ {v : Table} (index : Nat) (p : Pin), P v → P (v.unpin index p)
  terminate : ∀ {v : Table}, P v → P v.terminate

theorem Lasting.moves (hP : Lasting cfg P) (h : Moves cfg expiry t u)
    (ht : P t) : P u := h.stable ht fun _ _ => hP.move

theorem Lasting.effect (hP : Lasting cfg P) (h : Effect cfg expiry t u) (ht : P t) : P u := by
  cases h with
  | moves h => exact hP.moves h ht
  | release h => exact hP.unpin _ _ (hP.moves h ht)
  | terminate h => exact hP.terminate (hP.moves h ht)

/-- The generation is not active, now or later. -/
def Finished (generation : OperationGeneration) (t : Table) : Prop :=
  generation.authority < t.authorities.length ∧
    ∀ op, t.active.get? generation.operationID = some op → op.authority ≠ generation.authority

/-- Should the generation be active, it has its peer answer. -/
def Answered (generation : OperationGeneration) (t : Table) : Prop :=
  generation.authority < t.authorities.length ∧
    ∀ op, t.active.get? generation.operationID = some op →
      op.authority = generation.authority → op.answer ≠ none

/-- The generation ended, and its tombstone remembers the final. -/
def FinalKnown (generation : OperationGeneration) (kind : MessageKind) (fingerprint : Digest)
    (t : Table) : Prop :=
  Finished generation t ∧
    ∀ tombstone, t.tombstones.get? generation.operationID = some tombstone →
      tombstone.authority = generation.authority →
        tombstone.finalKind = kind ∧ tombstone.fingerprint = fingerprint

/-- The reservation belongs to the generation. -/
def Reserved (index : Nat) (a : Nat) (direction : Direction) (key : ContinuationKey)
    (t : Table) : Prop :=
  ∃ r, t.reservations[index]? = some r ∧ r.authority = a ∧ r.direction = direction ∧ r.key = key

variable {generation : OperationGeneration}

theorem unpin_length (t : Table) (index : Nat) (p : Pin) :
    (t.unpin index p).authorities.length = t.authorities.length := List.length_modify ..

theorem lasting_length (cfg : Config) (a : Nat) :
    Lasting cfg fun t => a < t.authorities.length where
  move := fun ht h => Nat.lt_of_lt_of_le ht h.owns.1
  unpin := fun index p ht => by rw [unpin_length]; exact ht
  terminate := fun ht => ht

theorem Finished.move (ht : Finished generation t) (h : Move cfg expiry t u) :
    Finished generation u := by
  refine ⟨Nat.lt_of_lt_of_le ht.1 h.owns.1, fun op hop => ?_⟩
  obtain ⟨old, hold, hauthority, -⟩ | hfresh := h.active_cases hop
  · exact hauthority ▸ ht.2 old hold
  · exact fun heq => absurd ht.1 (by rw [← heq, hfresh]; exact Nat.lt_irrefl _)

theorem Finished.lasting (cfg : Config) (generation : OperationGeneration) :
    Lasting cfg (Finished generation) where
  move := Finished.move
  unpin := fun index p ht => ⟨by rw [unpin_length]; exact ht.1, ht.2⟩
  terminate := fun ht => ⟨ht.1, fun op hop => by cases hop⟩

theorem Answered.move (ht : Answered generation t) (h : Move cfg expiry t u) :
    Answered generation u := by
  refine ⟨Nat.lt_of_lt_of_le ht.1 h.owns.1, fun op hop hauthority => ?_⟩
  obtain ⟨old, hold, hsame, -, hanswer⟩ | hfresh := h.active_cases hop
  · exact hanswer (ht.2 old hold (hsame.trans hauthority))
  · exact absurd ht.1 (by rw [← hauthority, hfresh]; exact Nat.lt_irrefl _)

theorem Answered.lasting (cfg : Config) (generation : OperationGeneration) :
    Lasting cfg (Answered generation) where
  move := Answered.move
  unpin := fun index p ht => ⟨by rw [unpin_length]; exact ht.1, ht.2⟩
  terminate := fun ht => ⟨ht.1, fun op hop => by cases hop⟩

theorem FinalKnown.move {kind : MessageKind} {fingerprint : Digest} (hkind : kind ≠ .cancel)
    (ht : FinalKnown generation kind fingerprint t) (h : Move cfg expiry t u) :
    FinalKnown generation kind fingerprint u := by
  refine ⟨ht.1.move h, fun tombstone htombstone hauthority => ?_⟩
  obtain ⟨old, hold, hsame, hfinal⟩ | ⟨op, hop, hsame⟩ | hfresh := h.tombstone_cases htombstone
  · obtain ⟨hk, hf⟩ := ht.2 old hold (hsame.trans hauthority)
    obtain hcancel | ⟨hk', hf'⟩ := hfinal
    · exact absurd (hk.symm.trans hcancel) hkind
    · exact ⟨hk'.trans hk, hf'.trans hf⟩
  · exact absurd (hsame.trans hauthority) (ht.1.2 op hop)
  · exact absurd ht.1.1 (by rw [← hauthority, hfresh]; exact Nat.lt_irrefl _)

theorem FinalKnown.lasting (cfg : Config) (generation : OperationGeneration) {kind : MessageKind}
    (fingerprint : Digest) (hkind : kind ≠ .cancel) :
    Lasting cfg (FinalKnown generation kind fingerprint) where
  move := FinalKnown.move hkind
  unpin := fun index p ht => ⟨(Finished.lasting cfg generation).unpin index p ht.1, ht.2⟩
  terminate := fun ht =>
    ⟨(Finished.lasting cfg generation).terminate ht.1, fun tombstone htombstone => by
      cases htombstone⟩

theorem Reserved.move {index a : Nat} {key : ContinuationKey}
    (ht : Reserved index a direction key t) (h : Move cfg expiry t u) :
    Reserved index a direction key u := by
  obtain ⟨r, hr, hfields⟩ := ht
  cases h with
  | reserve a' state hstate direction' key' f =>
    obtain ⟨-, hsame | ⟨overflow, -, hnew⟩⟩ := reserveContinuation_eq t a' state direction' key' f
    · exact ⟨r, by rw [hsame]; exact hr, hfields⟩
    · refine ⟨r, ?_, hfields⟩
      rw [hnew, List.getElem?_append_left (List.getElem?_eq_some_iff.mp hr).1]
      exact hr
  | settle index' commit =>
    obtain ⟨settled, hsettled⟩ := (trails_settle t index' commit).reservations index r hr
    exact ⟨_, hsettled, hfields⟩
  | _ => exact ⟨r, hr, hfields⟩

theorem Reserved.lasting (cfg : Config) (index a : Nat) (direction : Direction)
    (key : ContinuationKey) : Lasting cfg (Reserved index a direction key) where
  move := Reserved.move
  unpin := fun _ _ ht => ht
  terminate := fun ht => ht

/-! ### Runs -/

theorem stateAt_succ {c : Call} (h : calls[k]? = some c) :
    stateAt cfg calls (k + 1) = (stateAt cfg calls k).call cfg c := by
  unfold stateAt
  rw [List.take_add_one, h, Option.toList_some, List.foldl_append]
  rfl

theorem stateAt_succ_of_none (h : calls[k]? = none) :
    stateAt cfg calls (k + 1) = stateAt cfg calls k := by
  unfold stateAt
  rw [List.take_add_one, h, Option.toList_none, List.append_nil]

theorem stateAt_reachable (cfg : Config) (calls : List Call) (k : Nat) :
    (system cfg).Reachable (stateAt cfg calls k) :=
  System.reachable_foldl (· = new) (call cfg) rfl (calls.take k)

/-- A lasting fact holds from one state of a run on. -/
theorem Lasting.later (hP : Lasting cfg P) {i j : Nat}
    (hij : i ≤ j) (h : P (stateAt cfg calls i)) : P (stateAt cfg calls j) := by
  induction j, hij using Nat.le_induction with
  | base => exact h
  | succ k _ ih =>
    cases hcall : calls[k]? with
    | none =>
      rw [stateAt_succ_of_none hcall]
      exact ih
    | some c =>
      rw [stateAt_succ hcall]
      exact hP.effect (call_effect cfg _ c) ih

theorem prunedAt_stable (hmove : ∀ expiry v w, P v → Move cfg expiry v w → P w)
    (h : P (stateAt cfg calls k)) : P (prunedAt cfg calls k) := by
  unfold prunedAt
  split
  · exact h
  · exact (moves_pruned cfg _ _).stable h (hmove _)

/-- A lasting fact holds where a later call observes. -/
theorem Lasting.observed (hP : Lasting cfg P) {i j : Nat}
    (hij : i < j) (h : P (stateAt cfg calls (i + 1))) : P (prunedAt cfg calls j) :=
  prunedAt_stable (fun _ _ _ => hP.move) (hP.later hij h)

/-- An observation of a run happens in the table its call finds. -/
theorem observedAt_spec {o : Observation} (h : observedAt cfg calls k = some o) :
    o.before = prunedAt cfg calls k ∧
      o.generation = (stateAt cfg calls (k + 1)).generationOf o.message ∧
      ∃ now u, o.before.observePruned cfg now o.direction o.message = (u, o.verdict) ∧
        Trails u (stateAt cfg calls (k + 1)) := by
  unfold observedAt at h
  cases hcall : calls[k]? with
  | none =>
    rw [hcall] at h
    cases h
  | some =>
    rw [hcall, Option.bind_some] at h
    rw [stateAt_succ hcall]
    unfold prunedAt
    rw [hcall]
    exact observation_spec h

theorem prunedAt_consistent (cfg : Config) (calls : List Call) (k : Nat) :
    Consistent cfg (prunedAt cfg calls k) :=
  prunedAt_stable (P := Consistent cfg) (fun _ _ _ hv hmove => hmove.consistent hv)
    (reachable_consistent (stateAt_reachable cfg calls k))

theorem prunedAt_recordsOk (cfg : Config) (calls : List Call) (k : Nat) :
    RecordsOk (prunedAt cfg calls k) := by
  have hreach := stateAt_reachable cfg calls k
  have hboth : Consistent cfg (prunedAt cfg calls k) ∧ RecordsOk (prunedAt cfg calls k) := by
    refine prunedAt_stable (P := fun v => Consistent cfg v ∧ RecordsOk v) ?_
      ⟨reachable_consistent hreach, reachable_recordsOk hreach⟩
    exact fun _ _ _ hv hmove => ⟨hmove.consistent hv.1, hmove.recordsOk hv.1 hv.2⟩
  exact hboth.2

theorem prunedAt_reservations (cfg : Config) (calls : List Call) (k : Nat) :
    (prunedAt cfg calls k).reservations = (stateAt cfg calls k).reservations := by
  unfold prunedAt
  split
  · rfl
  · exact (pruned_frame _ _).2.1

/-! ### Generations -/

theorem generationOf_eq_some (hid : m.operationID = some id)
    {generation : OperationGeneration} :
    t.generationOf m = some generation ↔
      generation.operationID = id ∧ t.operationAuthority id = some generation.authority := by
  unfold generationOf
  rw [hid, Option.bind_some, Option.map_eq_some_iff]
  constructor
  · rintro ⟨a, ha, rfl⟩
    exact ⟨rfl, ha⟩
  · rintro ⟨rfl, ha⟩
    exact ⟨_, ha, rfl⟩

theorem MapsOk.operationAuthority (ht : MapsOk cfg t) {a : Nat} :
    t.operationAuthority id = some a ↔ t.Owns id a := by
  refine ⟨owns_of_operationAuthority, fun h => ?_⟩
  obtain ⟨op, hop, rfl⟩ | ⟨tombstone, htombstone, rfl⟩ := h
  · exact operationAuthority_of_active hop
  · unfold Table.operationAuthority
    cases hactive : t.active.get? id with
    | none => rw [htombstone]; rfl
    | some op =>
      have hnone := ht.disjoint id op hactive
      rw [htombstone] at hnone
      cases hnone

/-- Without expiry, an operation keeps its authority. -/
theorem Move.keeps_owner (h : Move cfg [] t u) {a : Nat} (ho : t.Owns id a) : u.Owns id a := by
  cases h with
  | prune now hnow => exact absurd hnow List.not_mem_nil
  | peers | pin => exact ho
  | annotate a' f hpins =>
    exact ((framed_modifyAuthority t a' hpins).owns id a).mpr ho
  | begin id' op' authority hterminal hactive =>
    obtain ⟨op, hop, ha⟩ | hretired := ho
    · refine .inl ⟨op, ?_, ha⟩
      rw [FiniteMap.get?_insert, if_neg]
      · exact hop
      · rintro rfl
        rw [hactive] at hop
        cases hop
    · exact .inr hretired
  | preempt id' tombstone' hterminal hactive htombstone =>
    obtain hactive | ⟨tombstone, hold, ha⟩ := ho
    · exact .inl hactive
    · refine .inr ⟨tombstone, ?_, ha⟩
      rw [FiniteMap.get?_insert, if_neg]
      · exact hold
      · rintro rfl
        rw [htombstone] at hold
        cases hold
  | finish id' op' tombstone' hop' htombstone hauthority =>
    refine ((framed_clearContinuationReplay _ op'.authority).owns id a).mpr ?_
    unfold Owns
    rw [FiniteMap.get?_erase, FiniteMap.get?_insert]
    split
    · rename_i hid
      subst hid
      obtain ⟨op, hop, ha⟩ | ⟨tombstone, hold, -⟩ := ho
      · obtain rfl : op = op' := Option.some.inj (hop.symm.trans hop')
        exact .inr ⟨tombstone', rfl, hauthority.trans ha⟩
      · rw [htombstone] at hold
        cases hold
    · exact ho
  | answer id' op' digest hop' =>
    obtain ⟨op, hop, ha⟩ | hretired := ho
    · unfold Owns
      rw [FiniteMap.get?_insert]
      split
      · rename_i hid
        subst hid
        obtain rfl : op = op' := Option.some.inj (hop.symm.trans hop')
        exact .inl ⟨_, rfl, ha⟩
      · exact .inl ⟨op, hop, ha⟩
    · exact .inr hretired
  | amend id' old amended hold hauthority =>
    obtain hactive | ⟨tombstone, htombstone, ha⟩ := ho
    · exact .inl hactive
    · unfold Owns
      rw [FiniteMap.get?_insert]
      split
      · rename_i hid
        subst hid
        obtain rfl : tombstone = old := Option.some.inj (htombstone.symm.trans hold)
        exact .inr ⟨amended, rfl, hauthority.trans ha⟩
      · exact .inr ⟨tombstone, htombstone, ha⟩
  | bind id' tombstone =>
    refine ((framed_modifyAuthority t tombstone.authority ?_).owns id a).mpr ho
    exact fun _ => rfl
  | reserve a' state hstate direction key f =>
    exact ((framed_reserveContinuation t a' state direction key f).owns id a).mpr ho
  | settle index commit => exact ((framed_settle t index commit).owns id a).mpr ho

theorem Moves.keeps_owner (h : Moves cfg [] t u) {a : Nat} (ho : t.Owns id a) : u.Owns id a :=
  h.stable (P := fun v => v.Owns id a) ho fun _ _ hv hmove => hmove.keeps_owner hv

end Table

end Windshare.Operation
