import Windshare.Operation.History
import Windshare.Operation.Retention

/-!
# What is delivered, and how often

Two observations of one run that belong to one generation are compared. Each fact
about the later one rests on something the earlier one left in the table.
-/

namespace Windshare.Operation

open Windshare.Library Windshare.Session

namespace Table

variable {cfg : Config} {t u : Table} {direction : Direction} {m : Message} {id : OperationID}
  {calls : List Call}

/-! ### Generations while an operation is tracked -/

theorem Trails.owns {w : Table} {a : Nat} (h : Trails u w) (ho : u.Owns id a) : w.Owns id a := by
  unfold Owns
  rw [h.active, h.tombstones]
  exact ho

theorem pruned_owns {c : Call} {a : Nat} (h : (t.pruned c).Owns id a) : t.Owns id a := by
  obtain ⟨hactive, -, htombstones⟩ := pruned_frame t c
  obtain ⟨op, hop, ha⟩ | ⟨tombstone, htombstone, ha⟩ := h
  · exact .inl ⟨op, by rw [← hactive]; exact hop, ha⟩
  · exact .inr ⟨tombstone, htombstones id tombstone htombstone, ha⟩

variable {o : Observation} {key : ContinuationKey} {k a : Nat} {now : Time}
  {reservation : Option Nat} {op : ActiveOperation} {index : Nat}

theorem prunedAt_owns (h : (prunedAt cfg calls k).Owns id a) : (stateAt cfg calls k).Owns id a := by
  unfold prunedAt at h
  split at h
  · exact h
  · exact pruned_owns h

/-- An operation that expiry leaves tracked keeps its authority. -/
theorem prunedAt_owns_of_tracks (h : (stateAt cfg calls k).Owns id a)
    (htracks : (prunedAt cfg calls k).Tracks id) : (prunedAt cfg calls k).Owns id a := by
  obtain ⟨b, hb⟩ := htracks
  have hmaps := (reachable_consistent (stateAt_reachable cfg calls k)).maps
  have hsame := (hmaps.operationAuthority.mpr h).symm.trans
    (hmaps.operationAuthority.mpr (prunedAt_owns hb))
  exact Option.some.inj hsame ▸ hb

/-- The authority of an operation stays while the operation is tracked. -/
theorem owns_of_tracks {i j a : Nat} (hij : i + 1 ≤ j) (h : (stateAt cfg calls (i + 1)).Owns id a)
    (htracks : ∀ k, i < k → k ≤ j → (prunedAt cfg calls k).Tracks id) :
    (prunedAt cfg calls j).Owns id a := by
  induction j, hij using Nat.le_induction with
  | base => exact prunedAt_owns_of_tracks h (htracks _ (Nat.lt_succ_self i) (Nat.le_refl _))
  | succ k hk ih =>
    have howns := ih fun k' hlt hle => htracks k' hlt (Nat.le_succ_of_le hle)
    have hnext := htracks (k + 1) (Nat.lt_succ_of_lt hk) (Nat.le_refl _)
    refine prunedAt_owns_of_tracks ?_ hnext
    cases hcall : calls[k]? with
    | none =>
      rw [stateAt_succ_of_none hcall]
      exact prunedAt_owns howns
    | some c =>
      rw [stateAt_succ hcall]
      have hpruned : (stateAt cfg calls k).pruned c = prunedAt cfg calls k := by
        unfold prunedAt
        rw [hcall]
      have heffect := call_effect_pruned cfg (stateAt cfg calls k) c
      rw [hpruned] at heffect
      generalize hcalled : (stateAt cfg calls k).call cfg c = w at heffect ⊢
      cases heffect with
      | moves h | release h => exact h.keeps_owner howns
      | terminate =>
        -- A terminated table tracks nothing at the next call.
        obtain ⟨b, hb⟩ := hnext
        have hopen := prunedAt_owns hb
        rw [stateAt_succ hcall, hcalled] at hopen
        exact absurd hopen (not_owns_of_empty rfl rfl id b)

/-- An observation keeps the authority its operation has. -/
theorem generation_of_owns (h : observedAt cfg calls k = some o)
    (hid : o.message.operationID = some id) (howns : (prunedAt cfg calls k).Owns id a) :
    o.generation = some ⟨a, id⟩ := by
  obtain ⟨hbefore, hgeneration, now, u, hobserve, htrails⟩ := observedAt_spec h
  have hmoves : Moves cfg [] o.before (o.before.observePruned cfg now o.direction o.message).1 :=
    moves_observePruned o.before now o.direction hid
  rw [hobserve, hbefore] at hmoves
  have hmaps := (reachable_consistent (stateAt_reachable cfg calls (k + 1))).maps
  rw [hgeneration, generationOf_eq_some hid, hmaps.operationAuthority]
  exact ⟨rfl, htrails.owns (hmoves.keeps_owner howns)⟩

/-! ### What a delivery leaves -/

/-- A delivered message of one run: how it was delivered and what it left. -/
theorem observedAt_delivered {k : Nat} (h : observedAt cfg calls k = some o)
    (hid : o.message.operationID = some id) (hdelivered : o.Delivered) :
    ∃ now u reservation, o.verdict = .delivered reservation ∧
      Delivered cfg (prunedAt cfg calls k) now o.direction o.message id u reservation ∧
      Trails u (stateAt cfg calls (k + 1)) := by
  obtain ⟨hbefore, -, now, u, hobserve, htrails⟩ := observedAt_spec h
  obtain ⟨reservation, hverdict⟩ := hdelivered
  rw [hverdict, hbefore] at hobserve
  exact ⟨now, u, reservation, hverdict, (observePruned_delivered hid hobserve).2, htrails⟩

theorem operationAuthority_of_generation
    (h : observedAt cfg calls k = some o) (hid : o.message.operationID = some id)
    (hgeneration : o.generation = some ⟨a, id⟩) :
    (stateAt cfg calls (k + 1)).operationAuthority id = some a := by
  obtain ⟨-, hsame, -⟩ := observedAt_spec h
  rw [hgeneration, eq_comm, generationOf_eq_some hid] at hsame
  exact hsame.2

/-- A delivered message belongs to a new generation or to an active operation. -/
theorem Delivered.fresh_or_active {a : Nat}
    (h : Delivered cfg t now direction m id u reservation) (ha : u.operationAuthority id = some a) :
    a = t.authorities.length ∨
      ¬ Begins direction m ∧ ∃ op, t.active.get? id = some op ∧ op.authority = a := by
  obtain ⟨b, hb, hcases⟩ := h.authority
  obtain rfl : b = a := Option.some.inj (hb.symm.trans ha)
  obtain ⟨hfresh, -⟩ | ⟨hbegins, hactive, -⟩ := hcases
  · exact .inl hfresh
  · exact .inr ⟨hbegins, hactive⟩

theorem Trails.operationAuthority {w : Table} (h : Trails u w) (id : OperationID) :
    w.operationAuthority id = u.operationAuthority id := by
  unfold Table.operationAuthority
  rw [h.active, h.tombstones]

theorem generation_of_delivered {k : Nat} (h : observedAt cfg calls k = some o)
    (hid : o.message.operationID = some id) (hdelivered : o.Delivered) :
    ∃ a, o.generation = some ⟨a, id⟩ := by
  obtain ⟨-, hsame, -⟩ := observedAt_spec h
  obtain ⟨now, u, reservation, -, hcases, htrails⟩ := observedAt_delivered h hid hdelivered
  obtain ⟨a, ha, -⟩ := hcases.authority
  refine ⟨a, ?_⟩
  rw [hsame, generationOf_eq_some hid, htrails.operationAuthority]
  exact ⟨rfl, ha⟩

section

variable (h : Delivered cfg t now direction m id u reservation)

include h

theorem Delivered.inactive_of_final
    (hfinal : m.kind.isFinal ∨ m.kind = .laneAttach ∧ direction = .senderToReceiver) :
    u.active.get? id = none := by
  cases h with
  | begun hbegins =>
    obtain ⟨rfl, hkind⟩ := hbegins
    exfalso
    obtain hfinal | ⟨-, hdirection⟩ := hfinal
    · revert hfinal hkind
      cases m.kind <;> simp [MessageKind.isFinal, MessageKind.isRequest]
    · cases hdirection
  | preempted hkind hactive => exact hactive
  | finished => exact FiniteMap.get?_erase_self
  | answered op hop htombstone hkind =>
    rw [hkind] at hfinal
    simp [MessageKind.isFinal] at hfinal
  | continued op hop htombstone hbegins hallowed hfinishes =>
    refine absurd ?_ hfinishes
    exact SenderFinal.finishes (hfinal.imp_right And.left) hallowed

theorem Delivered.not_request_of_active (hop : t.active.get? id = some op) :
    ¬ (m.kind.isRequest ∨ m.kind = .laneAttach ∧ direction = .receiverToSender) := by
  have hbegins_of (hdirection : m.kind = .laneAttach ∧ direction = .receiverToSender) :
      Begins direction m := ⟨hdirection.2, .inr hdirection.1⟩
  cases h with
  | begun hbegins hactive | preempted hkind hactive =>
    rw [hactive] at hop
    cases hop
  | finished op hop htombstone hfinishes hbegins =>
    rintro (hrequest | hattach)
    · unfold Finishes at hfinishes
      revert hrequest hfinishes
      cases m.kind <;> simp [MessageKind.isFinal, MessageKind.isRequest]
    · exact hbegins (hbegins_of hattach)
  | answered op hop htombstone hkind =>
    rw [hkind]
    simp [MessageKind.isRequest]
  | continued op hop htombstone hbegins hallowed =>
    rintro (hrequest | hattach)
    · revert hrequest hallowed
      cases op.requestKind <;> cases m.kind <;>
        simp [MessageKind.isRequest, messageAllowedForOperation]
    · exact hbegins (hbegins_of hattach)

theorem Delivered.answered_of_answer (hkind : m.kind = .peerAnswer) :
    (∃ op, t.active.get? id = some op ∧ op.answer = none) ∧
      ∀ op, u.active.get? id = some op → op.answer ≠ none := by
  cases h with
  | begun hbegins =>
    obtain ⟨-, hbegin⟩ := hbegins
    rw [hkind] at hbegin
    simp [MessageKind.isRequest] at hbegin
  | preempted hcancel =>
    rw [hkind] at hcancel
    cases hcancel
  | finished op hop htombstone hfinishes =>
    unfold Finishes at hfinishes
    rw [hkind] at hfinishes
    simp [MessageKind.isFinal] at hfinishes
  | answered op hop htombstone _ hanswer =>
    refine ⟨⟨op, hop, hanswer⟩, fun op' hop' => ?_⟩
    rw [FiniteMap.get?_insert_self] at hop'
    cases hop'
    exact fun h => by cases h
  | continued op hop htombstone hbegins hallowed hfinishes hne =>
    exact absurd hkind hne

end

/-! ### Later observations -/

/-- The generation of an observation is one of the table's authorities. -/
theorem generation_lt (h : (stateAt cfg calls k).operationAuthority id = some a) :
    a < (stateAt cfg calls k).authorities.length := by
  have hc := reachable_consistent (stateAt_reachable cfg calls k)
  exact hc.owners.lt id a (hc.maps.operationAuthority.mp h)

variable {i j a : Nat} {o₁ o₂ : Observation}

/-- Two observations of a run, one after the other, that belong to one generation. -/
structure SameGeneration (cfg : Config) (calls : List Call) (id : OperationID) (a i j : Nat)
    (o₁ o₂ : Observation) : Prop where
  lt : i < j
  earlier : observedAt cfg calls i = some o₁
  later : observedAt cfg calls j = some o₂
  id_earlier : o₁.message.operationID = some id
  id_later : o₂.message.operationID = some id
  generation_earlier : o₁.generation = some ⟨a, id⟩
  generation_later : o₂.generation = some ⟨a, id⟩

namespace SameGeneration

theorem authority_lt (h : SameGeneration cfg calls id a i j o₁ o₂) :
    a < (stateAt cfg calls (i + 1)).authorities.length :=
  generation_lt (operationAuthority_of_generation h.earlier h.id_earlier h.generation_earlier)

/-- A later delivery in the generation finds the operation active. -/
theorem active (h : SameGeneration cfg calls id a i j o₁ o₂) (hdelivered : o₂.Delivered) :
    ∃ now u reservation, o₂.verdict = .delivered reservation ∧
      Delivered cfg (prunedAt cfg calls j) now o₂.direction o₂.message id u reservation ∧
      ¬ Begins o₂.direction o₂.message ∧
      ∃ op, (prunedAt cfg calls j).active.get? id = some op ∧ op.authority = a := by
  have hlt := (lasting_length cfg a).observed h.lt h.authority_lt
  obtain ⟨now, u, reservation, hverdict, hcases, htrails⟩ :=
    observedAt_delivered h.later h.id_later hdelivered
  have ha := operationAuthority_of_generation h.later h.id_later h.generation_later
  rw [htrails.operationAuthority] at ha
  obtain hfresh | ⟨hbegins, hactive⟩ := hcases.fresh_or_active ha
  · exact absurd hlt (hfresh ▸ Nat.lt_irrefl _)
  · exact ⟨now, u, reservation, hverdict, hcases, hbegins, hactive⟩

end SameGeneration

section

variable (h : SameGeneration cfg calls id a i j o₁ o₂)

include h

theorem not_delivered_after_final (hdelivered : o₁.Delivered)
    (hfinal : o₁.IsFinal) : ¬ o₂.Delivered := by
  intro hdelivered₂
  obtain ⟨now, u, reservation, -, hcases, htrails⟩ :=
    observedAt_delivered h.earlier h.id_earlier hdelivered
  have hinactive := hcases.inactive_of_final hfinal
  have hfinished : Finished ⟨a, id⟩ (stateAt cfg calls (i + 1)) := by
    refine ⟨h.authority_lt, fun op hop => ?_⟩
    rw [htrails.active, hinactive] at hop
    cases hop
  have hlater : Finished ⟨a, id⟩ (prunedAt cfg calls j) :=
    (Finished.lasting cfg _).observed h.lt hfinished
  obtain ⟨-, -, -, -, -, -, op, hop, hauthority⟩ := h.active hdelivered₂
  exact hlater.2 op hop hauthority

/-- A generation has one request. -/
theorem not_requested_again (hdelivered₂ : o₂.Delivered) : ¬ o₂.IsRequest := by
  obtain ⟨_, _, _, -, hcases, -, op, hop, -⟩ := h.active hdelivered₂
  exact hcases.not_request_of_active hop

theorem not_answered_again (hdelivered : o₁.Delivered)
    (hdelivered₂ : o₂.Delivered) (hanswer : o₁.message.kind = .peerAnswer) :
    o₂.message.kind ≠ .peerAnswer := by
  intro hanswer₂
  obtain ⟨now, u, reservation, -, hcases, htrails⟩ :=
    observedAt_delivered h.earlier h.id_earlier hdelivered
  have hanswered : Answered ⟨a, id⟩ (stateAt cfg calls (i + 1)) := by
    refine ⟨h.authority_lt, fun op hop _ => ?_⟩
    rw [htrails.active] at hop
    exact (hcases.answered_of_answer hanswer).2 op hop
  have hlater : Answered ⟨a, id⟩ (prunedAt cfg calls j) :=
    (Answered.lasting cfg _).observed h.lt hanswered
  obtain ⟨now', u', reservation', -, hcases', -, op, hop, hauthority⟩ := h.active hdelivered₂
  obtain ⟨⟨op', hop', hnone⟩, -⟩ := hcases'.answered_of_answer hanswer₂
  obtain rfl : op = op' := Option.some.inj (hop.symm.trans hop')
  exact hlater.2 op hop hauthority hnone

end

/-! ### Continuations -/

theorem reserveActiveContinuation_reserved
    (h : t.reserveActiveContinuation cfg a direction m = (u, .reserved index)) :
    ∃ state key overflow, (t.authorityAt a).continuations = some state ∧
      state.classify cfg.codec direction m = .tracked key ∧
      u.reservations[index]? =
        some { authority := a, direction, key, overflow, settled := none } := by
  unfold reserveActiveContinuation at h
  split at h
  · cases h
  rename_i state hstate
  split at h
  · cases h
  · cases h
  · cases h
  rename_i key hkey
  unfold reserveContinuation at h
  dsimp only at h
  split at h
  · cases h
  · cases h
  · cases h
  rename_i overflow _
  cases h
  refine ⟨state, key, overflow, hstate, hkey, ?_⟩
  exact List.getElem?_concat_length

/-- An active operation with a committed record of the continuation does not let it
through again. -/
theorem reserveActiveContinuation_committed {state : ContinuationState}
    {overflow : Bool} (hstate : (t.authorityAt a).continuations = some state)
    (hkey : state.classify cfg.codec direction m = .tracked key)
    (hrecorded : t.Recorded a direction key overflow ⟨index, true⟩) :
    (t.reserveActiveContinuation cfg a direction m).2 = .repeated ∨
      ∃ e, (t.reserveActiveContinuation cfg a direction m).2 = .refused e := by
  obtain ⟨state', current, hstate', hcurrent, hholds⟩ := hrecorded
  obtain rfl : state' = state := Option.some.inj (hstate'.symm.trans hstate)
  have hdirection : state'.direction direction = current := by
    simp [ContinuationState.direction, hcurrent]
  have hrule := hholds.not_reserved state'.contract.maximum t.reservations.length
  unfold reserveActiveContinuation
  rw [hstate]
  dsimp only
  rw [hkey]
  unfold reserveContinuation
  dsimp only
  rw [hdirection]
  obtain hrepeated | ⟨e, hrefused⟩ := hrule
  · rw [hrepeated]
    exact .inl rfl
  · rw [hrefused]
    exact .inr ⟨e, rfl⟩

theorem Delivered.continued_of_tracked {state : ContinuationState}
    (h : Delivered cfg t now direction m id u reservation) (hop : t.active.get? id = some op)
    (hkey : state.classify cfg.codec direction m = .tracked key) :
    t.reserveActiveContinuation cfg op.authority direction m = (u, .letThrough reservation) := by
  have hcandidate : m.kind = .peerCandidate := by
    by_contra hkind
    obtain h | h := state.classify_of_not_candidate cfg.codec direction hkind <;>
      rw [hkey] at h <;> cases h
  cases h with
  | begun hbegins hactive | preempted hkind hactive =>
    rw [hactive] at hop
    cases hop
  | finished op hop htombstone hfinishes =>
    exact absurd hcandidate (finishes_not_candidate hfinishes)
  | answered op hop htombstone hkind =>
    rw [hkind] at hcandidate
    cases hcandidate
  | continued op' hop' htombstone hbegins hallowed hfinishes hkind _ _ hreserve =>
    obtain rfl : op = op' := Option.some.inj (hop.symm.trans hop')
    exact hreserve

theorem continuation_eq_some (h : o.continuation cfg = some key) :
    ∃ generation state, o.before.generationOf o.message = some generation ∧
      (o.before.authorityAt generation.authority).continuations = some state ∧
      state.classify cfg.codec o.direction o.message = .tracked key := by
  obtain ⟨generation, hgeneration, h⟩ := Option.bind_eq_some_iff.mp h
  obtain ⟨state, hstate, h⟩ := Option.bind_eq_some_iff.mp h
  refine ⟨generation, state, hgeneration, hstate, ?_⟩
  split at h
  · rename_i key' hkey
    cases h
    exact hkey
  · cases h

/-- The contract that names a message at an active operation is that operation's. -/
theorem continuation_of_active {k : Nat} (h : observedAt cfg calls k = some o)
    (hid : o.message.operationID = some id) (hkey : o.continuation cfg = some key)
    (hop : (prunedAt cfg calls k).active.get? id = some op) :
    ∃ state, ((prunedAt cfg calls k).authorityAt op.authority).continuations = some state ∧
      state.classify cfg.codec o.direction o.message = .tracked key := by
  obtain ⟨hbefore, -, -⟩ := observedAt_spec h
  obtain ⟨generation, state, hgeneration, hstate, hclassify⟩ := continuation_eq_some hkey
  rw [hbefore, generationOf_eq_some hid, operationAuthority_of_active hop] at hgeneration
  rw [hbefore, ← Option.some.inj hgeneration.2] at hstate
  exact ⟨state, hstate, hclassify⟩

/-- A delivery with a reservation leaves the reservation under its generation, direction
and key. -/
theorem reserved_of_delivered {k index : Nat}
    (h : observedAt cfg calls k = some o) (hid : o.message.operationID = some id)
    (hgeneration : o.generation = some ⟨a, id⟩) (hverdict : o.verdict = .delivered (some index))
    (hkey : o.continuation cfg = some key) :
    Reserved index a o.direction key (stateAt cfg calls (k + 1)) := by
  have ha := operationAuthority_of_generation h hid hgeneration
  obtain ⟨now, u, reservation, hsame, hcases, htrails⟩ := observedAt_delivered h hid ⟨_, hverdict⟩
  obtain rfl : reservation = some index := by
    rw [hverdict] at hsame
    cases hsame
    rfl
  cases hcases with
  | continued op hop htombstone hbegins hallowed hfinishes hkind _ _ hreserve =>
    obtain ⟨state, hstate, hclassify⟩ := continuation_of_active h hid hkey hop
    obtain ⟨state', key', overflow, hstate', hclassify', hmade⟩ :=
      reserveActiveContinuation_reserved hreserve
    rw [hstate'] at hstate
    cases hstate
    rw [hclassify'] at hclassify
    cases hclassify
    obtain ⟨settled, hnow⟩ := htrails.reservations index _ hmade
    have hframed := framed_reserveActiveContinuation cfg (prunedAt cfg calls k) op.authority
      o.direction o.message
    rw [hreserve] at hframed
    have hauthority : (stateAt cfg calls (k + 1)).operationAuthority id = some op.authority := by
      rw [htrails.operationAuthority]
      exact operationAuthority_of_active (by rw [hframed.active]; exact hop)
    exact ⟨_, hnow, Option.some.inj (hauthority.symm.trans ha), rfl, rfl⟩

theorem not_continued_again (h : SameGeneration cfg calls id a i j o₁ o₂)
    (hverdict : o₁.verdict = .delivered (some index))
    (hkey₁ : o₁.continuation cfg = some key) (hcommitted : (stateAt cfg calls j).Committed index)
    (hdirection : o₂.direction = o₁.direction) (hkey₂ : o₂.continuation cfg = some key) :
    ¬ o₂.Delivered := by
  intro hdelivered₂
  have hlater : Reserved index a o₁.direction key (prunedAt cfg calls j) :=
    (Reserved.lasting cfg index a o₁.direction key).observed h.lt
      (reserved_of_delivered h.earlier h.id_earlier h.generation_earlier hverdict hkey₁)
  obtain ⟨now, u, reservation, -, hcases, -, op, hop, hauthority⟩ := h.active hdelivered₂
  -- The commit left a record that is still there.
  obtain ⟨r, hr, hra, hrd, hrk⟩ := hlater
  obtain ⟨r', hr', hsettled⟩ := hcommitted
  rw [prunedAt_reservations, hr'] at hr
  cases hr
  have hrecorded := (prunedAt_recordsOk cfg calls j).recorded index r
    (by rw [prunedAt_reservations]; exact hr') id op hop (hauthority.trans hra.symm) true
    (by simp [Reservation.expected, hsettled])
  rw [hra, hrd, hrk, ← hdirection, ← hauthority] at hrecorded
  obtain ⟨state, hstate, hclassify⟩ := continuation_of_active h.later h.id_later hkey₂ hop
  have hstop := reserveActiveContinuation_committed hstate hclassify hrecorded
  rw [hcases.continued_of_tracked hop hclassify] at hstop
  obtain hrepeated | ⟨e, hrefused⟩ := hstop
  · cases reservation <;> cases hrepeated
  · cases reservation <;> cases hrefused

/-! ### Finals of the sender -/

theorem remembers_of_accepted {k : Nat} (h : observedAt cfg calls k = some o)
    (hid : o.message.operationID = some id) (hgeneration : o.generation = some ⟨a, id⟩)
    (hdirection : o.direction = .senderToReceiver) (hfinal : SenderFinal o.message)
    (haccepted : ¬ o.Refused) :
    o.message.kind ≠ .cancel ∧
      ∃ kept, (stateAt cfg calls (k + 1)).tombstones.get? id = some kept ∧
        kept.authority = a ∧ Remembers cfg .senderToReceiver o.message kept := by
  have hc := reachable_consistent (stateAt_reachable cfg calls (k + 1))
  have ha := operationAuthority_of_generation h hid hgeneration
  obtain ⟨hbefore, -, now, u, hobserve, htrails⟩ := observedAt_spec h
  rw [hbefore, hdirection] at hobserve
  have howns : u.Owns id a := owns_of_operationAuthority (htrails.operationAuthority id ▸ ha)
  obtain ⟨hcancel, kept, hkept, hremembers⟩ := observePruned_senderFinal hid hfinal
    (prunedAt_consistent cfg calls k).maps.terminal_empty hobserve
    (fun e he => haccepted ⟨e, he⟩) howns
  rw [← htrails.tombstones] at hkept
  refine ⟨hcancel, kept, hkept, ?_, hremembers⟩
  have hkept' := hc.maps.operationAuthority.mpr (.inr ⟨kept, hkept, rfl⟩)
  exact Option.some.inj (hkept'.symm.trans ha)

theorem refused_of_other_final (h : SameGeneration cfg calls id a i j o₁ o₂)
    (hdirection₁ : o₁.direction = .senderToReceiver)
    (hdirection₂ : o₂.direction = .senderToReceiver) (hfinal₁ : SenderFinal o₁.message)
    (hfinal₂ : SenderFinal o₂.message) (haccepted : ¬ o₁.Refused)
    (hother : o₂.message.kind ≠ o₁.message.kind ∨
      o₂.message.operationFingerprint cfg.codec .senderToReceiver ≠
        o₁.message.operationFingerprint cfg.codec .senderToReceiver) : o₂.Refused := by
  by_contra haccepted₂
  obtain ⟨hcancel, kept, hkept, hauthority, hremembers₁⟩ :=
    remembers_of_accepted h.earlier h.id_earlier h.generation_earlier hdirection₁ hfinal₁ haccepted
  have hc := reachable_consistent (stateAt_reachable cfg calls (i + 1))
  have hknown : FinalKnown ⟨a, id⟩ o₁.message.kind
      (o₁.message.operationFingerprint cfg.codec .senderToReceiver)
      (stateAt cfg calls (i + 1)) := by
    refine ⟨⟨h.authority_lt, fun op hop => ?_⟩, fun tombstone htombstone _ => ?_⟩
    · have hnone := hc.maps.disjoint id op hop
      rw [hkept] at hnone
      cases hnone
    · obtain rfl : kept = tombstone := Option.some.inj (hkept.symm.trans htombstone)
      exact hremembers₁
  have hlater := (FinalKnown.lasting cfg ⟨a, id⟩ _ hcancel).later
    (Nat.succ_le_succ (Nat.le_of_lt h.lt)) hknown
  obtain ⟨-, kept₂, hkept₂, hauthority₂, hremembers₂⟩ :=
    remembers_of_accepted h.later h.id_later h.generation_later hdirection₂ hfinal₂ haccepted₂
  obtain ⟨hkind, hfingerprint⟩ := hlater.2 kept₂ hkept₂ hauthority₂
  obtain hne | hne := hother
  · exact hne (hremembers₂.1.symm.trans hkind)
  · exact hne (hremembers₂.2.symm.trans hfingerprint)

/-! ### Deliveries of a run -/

/-- Two observations of one operation in a run of the table. A delivered message has a
generation, and the generation lasts while the operation is active or tombstoned. Within a
generation nothing is delivered after a final, no request and no peer answer is delivered
again, nor is a continuation whose first delivery was committed, and a final of the sender
other than the first accepted one is refused. A cancellation keeps everything of its operation
from delivery, the request included, while the operation is tracked. -/
theorem delivered_exactly_once (cfg : Config) (calls : List Call) (id : OperationID) (hij : i < j)
    (h₁ : observedAt cfg calls i = some o₁) (h₂ : observedAt cfg calls j = some o₂)
    (hid₁ : o₁.message.operationID = some id) (hid₂ : o₂.message.operationID = some id) :
    (o₁.Delivered → o₁.generation ≠ none) ∧
    ((∀ k, i < k → k ≤ j → (prunedAt cfg calls k).Tracks id) →
      (o₁.generation ≠ none → o₂.generation = o₁.generation) ∧
      (o₁.Delivered → o₁.message.kind = .cancel → ¬ o₂.Delivered)) ∧
    (o₁.generation ≠ none → o₂.generation = o₁.generation →
      (o₁.Delivered → o₁.IsFinal → ¬ o₂.Delivered) ∧
      (o₂.Delivered → ¬ o₂.IsRequest) ∧
      (o₁.Delivered → o₁.message.kind = .peerAnswer → o₂.message.kind = .peerAnswer →
        ¬ o₂.Delivered) ∧
      (∀ index key, o₁.verdict = .delivered (some index) → o₁.continuation cfg = some key →
        (stateAt cfg calls j).Committed index → o₂.direction = o₁.direction →
        o₂.continuation cfg = some key → ¬ o₂.Delivered) ∧
      (o₁.direction = .senderToReceiver → o₂.direction = .senderToReceiver →
        SenderFinal o₁.message → SenderFinal o₂.message → ¬ o₁.Refused →
        (o₂.message.kind ≠ o₁.message.kind ∨
          o₂.message.operationFingerprint cfg.codec .senderToReceiver ≠
            o₁.message.operationFingerprint cfg.codec .senderToReceiver) → o₂.Refused)) := by
  have hsame (hsome : o₁.generation ≠ none) :
      ∃ a, o₁.generation = some ⟨a, id⟩ ∧ (stateAt cfg calls (i + 1)).Owns id a := by
    obtain ⟨generation, hgeneration⟩ := Option.ne_none_iff_exists'.mp hsome
    obtain ⟨-, hafter, -⟩ := observedAt_spec h₁
    rw [hgeneration, eq_comm, generationOf_eq_some hid₁] at hafter
    obtain ⟨rfl, hauthority⟩ := hafter
    exact ⟨_, hgeneration, owns_of_operationAuthority hauthority⟩
  have hdelivered_generation (hdelivered : o₁.Delivered) : o₁.generation ≠ none := by
    obtain ⟨a, ha⟩ := generation_of_delivered h₁ hid₁ hdelivered
    rw [ha]
    exact Option.some_ne_none _
  have htracked (htracks : ∀ k, i < k → k ≤ j → (prunedAt cfg calls k).Tracks id)
      (hsome : o₁.generation ≠ none) : o₂.generation = o₁.generation := by
    obtain ⟨a, ha, howns⟩ := hsame hsome
    rw [ha]
    exact generation_of_owns h₂ hid₂ (owns_of_tracks hij howns htracks)
  have hpair (hsome : o₁.generation ≠ none) (heq : o₂.generation = o₁.generation) :
      ∃ a, SameGeneration cfg calls id a i j o₁ o₂ := by
    obtain ⟨a, ha, -⟩ := hsame hsome
    exact ⟨a, hij, h₁, h₂, hid₁, hid₂, ha, heq.trans ha⟩
  refine ⟨hdelivered_generation, fun htracks => ⟨htracked htracks, fun hdelivered hcancel => ?_⟩,
    fun hsome heq => ?_⟩
  · have hsome := hdelivered_generation hdelivered
    obtain ⟨a, h⟩ := hpair hsome (htracked htracks hsome)
    refine not_delivered_after_final h hdelivered (.inl ?_)
    rw [hcancel]
    rfl
  · obtain ⟨a, h⟩ := hpair hsome heq
    exact ⟨not_delivered_after_final h, not_requested_again h,
      fun hdelivered hanswer hanswer₂ hdelivered₂ =>
        not_answered_again h hdelivered hdelivered₂ hanswer hanswer₂,
      fun index key => not_continued_again h, refused_of_other_final h⟩

/-- The sender hears of the cancellation before the request. -/
def preemptedCalls : List Call :=
  [.observeInbound 0 0 .receiverToSender ⟨.cancel, some listingID, [], by decide⟩,
    .observeInbound 1 1 .receiverToSender listingRequest]

theorem delivered_exactly_once_preempted :
    ∃ o₁ o₂, observedAt receiverConfig preemptedCalls 0 = some o₁ ∧
      observedAt receiverConfig preemptedCalls 1 = some o₂ ∧ o₁.Delivered ∧
      o₂.IsRequest ∧ ¬ o₂.Delivered := by
  refine ⟨_, _, rfl, rfl, ⟨none, rfl⟩, .inl rfl, ?_⟩
  have honce := delivered_exactly_once receiverConfig preemptedCalls listingID
    Nat.zero_lt_one rfl rfl rfl rfl
  refine (honce.2.1 fun k hlt hle => ?_).2 ⟨none, rfl⟩ rfl
  obtain rfl : k = 1 := Nat.le_antisymm hle hlt
  exact ⟨0, .inr ⟨_, rfl, rfl⟩⟩

end Table

end Windshare.Operation
