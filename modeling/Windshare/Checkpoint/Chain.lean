import Windshare.Checkpoint.Reducer

/-!
# Chains of records

Records that replace one another: what each replacement can change, and what therefore holds
between any two records of a chain, however far apart.
-/

namespace Windshare.Checkpoint

open Windshare.Library

variable {env : Environment}

/-! ### One replacement -/

/-- What an accepted replacement does. -/
inductive Cut (previous next : Record) : Prop where
  /-- The image of a candidate is committed as it is. -/
  | promoted (candidate : previous.commitState = .candidate)
      (commit : next.commitState = .verified ∨ next.commitState = .published)
      (state : next.stateGeneration = previous.stateGeneration)
      (checkpoint : next.checkpointGeneration = previous.checkpointGeneration)
      (ranges : next.verifiedRanges = previous.verifiedRanges)
  /-- A committed record moves to another phase. -/
  | moved (committed : previous.commitState ≠ .candidate)
      (phase : next.phase ∈ previous.phase.successors)
      (state : previous.stateGeneration < next.stateGeneration)
      (checkpoint : next.checkpointGeneration = previous.checkpointGeneration)
      (ranges : next.verifiedRanges = previous.verifiedRanges)
  /-- A verified record is followed by one of the next range generation. -/
  | extended (verified : previous.commitState = .verified)
      (state : previous.stateGeneration < next.stateGeneration)
      (checkpoint : next.checkpointGeneration.toNat = previous.checkpointGeneration.toNat + 1)

/-- An accepted replacement. -/
structure Replaces (env : Environment) (previous next : Record) : Prop where
  previous_valid : previous.Valid env
  next_valid : next.Valid env
  identity : next.identity = previous.identity
  cut : Cut previous next
  mutable : previous.commitState ≠ .published
  contains : rangesContain next.verifiedRanges previous.verifiedRanges = true

theorem toNat_succ_of_le {a b : UInt64} (hle : a ≤ b) (h : b = a + 1) : b.toNat = a.toNat + 1 := by
  subst h
  have hle' : a.toNat ≤ (a + 1).toNat := hle
  rw [UInt64.toNat_add] at hle' ⊢
  have hlt := a.toNat_lt
  have hone : (1 : UInt64).toNat = 1 := rfl
  rw [hone] at hle' ⊢
  omega

/-- A promoted candidate cannot be quarantined: its phase is kept or becomes published. -/
theorem commit_of_promotion {previous next : Record} (hprevious : previous.Valid env)
    (hnext : next.Valid env) (hcandidate : previous.commitState = .candidate)
    (h : validateCandidatePromotion previous next = .ok ()) :
    next.commitState = .verified ∨ next.commitState = .published := by
  have hrefuse := refuse_eq_ok.mp h
  simp only [not_or, not_and_or, not_not] at hrefuse
  obtain ⟨hcommit, -, -, hphase⟩ := hrefuse
  have hpreviousPhase := hprevious.phase
  have hnextPhase := hnext.phase
  rw [hcandidate] at hcommit hpreviousPhase
  cases hstate : next.commitState with
  | candidate =>
    rw [hstate] at hcommit
    exact absurd (by decide) hcommit
  | verified => exact .inl rfl
  | published => exact .inr rfl
  | quarantined =>
    rw [hstate] at hnextPhase
    have hquarantined : next.phase = .quarantined := List.mem_singleton.mp hnextPhase
    obtain hsame | hpublished := hphase
    · rw [hsame, hquarantined] at hpreviousPhase
      exact absurd hpreviousPhase (by decide)
    · rw [hquarantined] at hpublished
      cases hpublished.2

theorem cut_of_validateGenerationCut {previous next : Record} (hprevious : previous.Valid env)
    (hnext : next.Valid env) (hstate : previous.stateGeneration ≤ next.stateGeneration)
    (hcheckpoint : previous.checkpointGeneration ≤ next.checkpointGeneration)
    (h : validateGenerationCut previous next = .ok ()) : Cut previous next := by
  unfold validateGenerationCut validateStateCut at h
  by_cases hsame : next.checkpointGeneration = previous.checkpointGeneration
  · rw [if_pos hsame] at h
    by_cases hcandidate : previous.commitState = .candidate
    · rw [if_pos hcandidate] at h
      have hcommit := commit_of_promotion hprevious hnext hcandidate h
      have hrefuse := refuse_eq_ok.mp h
      simp only [not_or, not_not] at hrefuse
      exact .promoted hcandidate hcommit hrefuse.2.1 hsame hrefuse.2.2.1.symm
    · rw [if_neg hcandidate] at h
      have hrefuse := refuse_eq_ok.mp h
      simp only [not_or, not_not] at hrefuse
      exact .moved hcandidate hrefuse.2.2.2.2 (UInt64.not_le.mp hrefuse.1) hsame hrefuse.2.1.symm
  · rw [if_neg hsame] at h
    have hrefuse := refuse_eq_ok.mp h
    simp only [not_or, not_not] at hrefuse
    obtain ⟨hverified, hcheckpoint', hstate', -⟩ := hrefuse
    refine .extended hverified ?_ (toNat_succ_of_le hcheckpoint hcheckpoint')
    have hsucc := toNat_succ_of_le hstate hstate'
    exact UInt64.lt_iff_toNat_lt.mpr (by omega)

theorem replaces_of_validateTransition {previous next : Record}
    (h : validateTransition env previous next = .ok ()) : Replaces env previous next := by
  obtain ⟨_, hprevious, h⟩ := bind_eq_ok.mp h
  obtain ⟨_, hnext, h⟩ := bind_eq_ok.mp h
  obtain ⟨_, hidentity, h⟩ := bind_eq_ok.mp h
  obtain ⟨_, hgenerations, h⟩ := bind_eq_ok.mp h
  obtain ⟨_, hcut, h⟩ := bind_eq_ok.mp h
  obtain ⟨_, hmutable, hcontains⟩ := bind_eq_ok.mp h
  obtain ⟨hstate, hcheckpoint⟩ := not_or.mp (refuse_eq_ok.mp hgenerations)
  have hpreviousValid := Record.valid_of_validate hprevious
  have hnextValid := Record.valid_of_validate hnext
  exact ⟨hpreviousValid, hnextValid, (not_not.mp (refuse_eq_ok.mp hidentity)).symm,
    cut_of_validateGenerationCut hpreviousValid hnextValid (UInt64.not_lt.mp hstate)
      (UInt64.not_lt.mp hcheckpoint) hcut,
    (not_or.mp (refuse_eq_ok.mp hmutable)).1, not_not.mp (refuse_eq_ok.mp hcontains)⟩

namespace Replaces

variable {previous next : Record} (h : Replaces env previous next)

include h

theorem not_quarantined : previous.commitState ≠ .quarantined := by
  intro hquarantined
  cases h.cut with
  | promoted candidate => rw [hquarantined] at candidate; cases candidate
  | moved committed phase =>
    have hphase := h.previous_valid.phase
    rw [hquarantined] at hphase
    rw [List.mem_singleton.mp hphase] at phase
    cases phase
  | extended verified => rw [hquarantined] at verified; cases verified

theorem state_le : previous.stateGeneration ≤ next.stateGeneration := by
  cases h.cut with
  | promoted _ _ state => exact UInt64.le_of_eq state.symm
  | moved _ _ state | extended _ state => exact UInt64.le_of_lt state

theorem checkpoint_le : previous.checkpointGeneration ≤ next.checkpointGeneration := by
  cases h.cut with
  | promoted _ _ _ checkpoint | moved _ _ _ checkpoint => exact UInt64.le_of_eq checkpoint.symm
  | extended => exact UInt64.le_iff_toNat_le.mpr (by omega)

theorem state_lt (hcommitted : previous.commitState ≠ .candidate) :
    previous.stateGeneration < next.stateGeneration := by
  cases h.cut with
  | promoted candidate => exact absurd candidate hcommitted
  | moved _ _ state | extended _ state => exact state

theorem bytes_subset : previous.verifiedBytes ⊆ next.verifiedBytes :=
  HalfOpen.points_subset h.next_valid.ascending h.contains

theorem bytes_changed (hchanged : next.verifiedBytes ≠ previous.verifiedBytes) :
    next.checkpointGeneration.toNat = previous.checkpointGeneration.toNat + 1 := by
  cases h.cut with
  | promoted _ _ _ _ ranges | moved _ _ _ _ ranges =>
    exact absurd (congrArg HalfOpen.points ranges) hchanged
  | extended _ _ checkpoint => exact checkpoint

end Replaces

/-! ### Any two records of a chain -/

/-- What a later record of a chain owes an earlier one. -/
structure Follows (env : Environment) (earlier later : Record) : Prop where
  earlier_valid : earlier.Valid env
  later_valid : later.Valid env
  identity : later.identity = earlier.identity
  state_le : earlier.stateGeneration ≤ later.stateGeneration
  checkpoint_le : earlier.checkpointGeneration ≤ later.checkpointGeneration
  state_lt : earlier.commitState ≠ .candidate → earlier.stateGeneration < later.stateGeneration
  contains : rangesContain later.verifiedRanges earlier.verifiedRanges = true

theorem Replaces.follows {previous next : Record} (h : Replaces env previous next) :
    Follows env previous next :=
  ⟨h.previous_valid, h.next_valid, h.identity, h.state_le, h.checkpoint_le, h.state_lt, h.contains⟩

theorem Follows.trans {a b c : Record} (hab : Follows env a b) (hbc : Follows env b c) :
    Follows env a c where
  earlier_valid := hab.earlier_valid
  later_valid := hbc.later_valid
  identity := hbc.identity.trans hab.identity
  state_le := UInt64.le_trans hab.state_le hbc.state_le
  checkpoint_le := UInt64.le_trans hab.checkpoint_le hbc.checkpoint_le
  state_lt := fun hcommitted => UInt64.lt_of_lt_of_le (hab.state_lt hcommitted) hbc.state_le
  contains := HalfOpen.contains_trans hbc.later_valid.ascending hab.later_valid.ascending
    hbc.contains hab.contains

instance : IsTrans Record (Follows env) := ⟨fun _ _ _ => Follows.trans⟩

namespace Follows

variable {earlier later : Record}

section

variable (h : Follows env earlier later)

include h

theorem supersedes (hlater : later.commitState = .verified ∨ later.commitState = .published)
    (hearlier : earlier.commitState = .candidate ∨ earlier.commitState = .verified) :
    SupersedesCheckpoint env later earlier := by
  have hcommitted : Committed later := by
    obtain hverified | hpublished := hlater
    · rw [Committed, hverified]
      decide
    · rw [Committed, hpublished]
      decide
  exact ⟨h.later_valid.validated, h.earlier_valid.validated, hcommitted, hearlier, h.identity,
    h.state_le, h.checkpoint_le, h.contains⟩

/-- The header of a payload is the identity, so only what comes after it can differ. -/
theorem payloadHeader_eq : earlier.payloadHeader = later.payloadHeader := by
  unfold Record.payloadHeader
  rw [h.identity, h.earlier_valid.marker, h.later_valid.marker, h.earlier_valid.space,
    h.later_valid.space]

theorem payload_ne (hstate : earlier.stateGeneration < later.stateGeneration) :
    earlier.canonicalPayload ≠ later.canonicalPayload := by
  intro hpayload
  unfold Record.canonicalPayload at hpayload
  rw [h.payloadHeader_eq] at hpayload
  have hframes := List.append_cancel_left hpayload
  obtain ⟨hframe, -⟩ := List.append_inj hframes (by simp only [length_framedU64])
  have heq := framedU64_inj earlier.stateGeneration.toNat_lt later.stateGeneration.toNat_lt hframe
  exact absurd heq (Nat.ne_of_lt hstate)

end

theorem selectVerified_singleton (hvalid : later.Valid env)
    (hlater : later.commitState = .verified ∨ later.commitState = .published) :
    selectVerified env [later] = .ok later := by
  have hskip : ¬ (later.commitState ≠ .verified ∧ later.commitState ≠ .published) := by
    rintro ⟨hverified, hpublished⟩
    exact hlater.elim hverified hpublished
  unfold selectVerified selectVerifiedFrom
  rw [hvalid.validated]
  rw [if_neg hskip]
  rfl

theorem recovers (h : Follows env earlier later)
    (hlater : later.commitState = .verified ∨ later.commitState = .published) :
    recover env (some later) (some earlier) = .ok later := by
  have hselect := selectVerified_singleton h.later_valid hlater
  have hadmissible : ¬ (¬ (earlier.validate env = .ok ()) ∨ ¬ IdentityEqual later earlier) :=
    not_or.mpr ⟨not_not_intro h.earlier_valid.validated, not_not_intro h.identity⟩
  refine bind_eq_ok.mpr ⟨later, hselect, ?_⟩
  change (if _ then _ else _) = _
  rw [if_neg hadmissible]
  by_cases hcandidate : earlier.commitState = .candidate
  · exact if_pos hcandidate
  rw [if_neg hcandidate]
  by_cases hlower : earlier.checkpointGeneration < later.checkpointGeneration
  · exact if_pos hlower
  rw [if_neg hlower]
  -- A verified record of the same range generation has an older state, so its payload differs.
  have hsame : earlier.checkpointGeneration = later.checkpointGeneration :=
    UInt64.le_antisymm h.checkpoint_le (UInt64.not_lt.mp hlower)
  exact if_pos ⟨hsame, h.payload_ne (h.state_lt hcandidate)⟩

end Follows

/-! ### Chains -/

/-- What one replacement of a chain can and cannot do. -/
structure Advances (previous next : Record) : Prop where
  identity : next.identity = previous.identity
  state_le : previous.stateGeneration ≤ next.stateGeneration
  checkpoint_le : previous.checkpointGeneration ≤ next.checkpointGeneration
  /-- Only a promotion keeps the state generation. -/
  state_lt : previous.commitState ≠ .candidate → previous.stateGeneration < next.stateGeneration
  bytes_subset : previous.verifiedBytes ⊆ next.verifiedBytes
  bytes_changed : next.verifiedBytes ≠ previous.verifiedBytes →
    next.checkpointGeneration.toNat = previous.checkpointGeneration.toNat + 1
  /-- A candidate is followed by its promotion. -/
  promotion : previous.commitState = .candidate →
    (next.commitState = .verified ∨ next.commitState = .published) ∧
      next.stateGeneration = previous.stateGeneration ∧
      next.checkpointGeneration = previous.checkpointGeneration ∧
      next.verifiedRanges = previous.verifiedRanges
  not_published : previous.commitState ≠ .published
  not_quarantined : previous.commitState ≠ .quarantined

theorem Replaces.advances {previous next : Record} (h : Replaces env previous next) :
    Advances previous next where
  identity := h.identity
  state_le := h.state_le
  checkpoint_le := h.checkpoint_le
  state_lt := h.state_lt
  bytes_subset := h.bytes_subset
  bytes_changed := h.bytes_changed
  promotion := by
    intro hcandidate
    cases h.cut with
    | promoted _ commit state checkpoint ranges => exact ⟨commit, state, checkpoint, ranges⟩
    | moved committed => exact absurd hcandidate committed
    | extended verified =>
      rw [hcandidate] at verified
      cases verified
  not_published := h.mutable
  not_quarantined := h.not_quarantined

/-- What holds between a record of a chain and a later one. -/
structure Precedes (env : Environment) (earlier later : Record) : Prop where
  identity : later.identity = earlier.identity
  state_le : earlier.stateGeneration ≤ later.stateGeneration
  checkpoint_le : earlier.checkpointGeneration ≤ later.checkpointGeneration
  bytes_subset : earlier.verifiedBytes ⊆ later.verifiedBytes
  /-- The later record covers the earlier one and survives a crash beside it. -/
  superseded : later.commitState = .verified ∨ later.commitState = .published →
    earlier.commitState = .candidate ∨ earlier.commitState = .verified →
      SupersedesCheckpoint env later earlier ∧ recover env (some later) (some earlier) = .ok later

theorem Follows.precedes {earlier later : Record} (h : Follows env earlier later) :
    Precedes env earlier later where
  identity := h.identity
  state_le := h.state_le
  checkpoint_le := h.checkpoint_le
  bytes_subset := HalfOpen.points_subset h.later_valid.ascending h.contains
  superseded := fun hlater hearlier => ⟨h.supersedes hlater hearlier, h.recovers hlater⟩

/-- Every chain of accepted replacements advances step by step, and each of its records precedes
all later ones. -/
theorem checkpoint_chain (env : Environment) (chain : List Record)
    (h : chain.IsChain fun previous next => validateTransition env previous next = .ok ()) :
    chain.IsChain Advances ∧ chain.Pairwise (Precedes env) := by
  have hreplaces : chain.IsChain (Replaces env) :=
    h.imp fun _ _ haccepted => replaces_of_validateTransition haccepted
  have hfollows : chain.Pairwise (Follows env) :=
    List.isChain_iff_pairwise.mp (hreplaces.imp fun _ _ hstep => hstep.follows)
  exact ⟨hreplaces.imp fun _ _ hstep => hstep.advances, hfollows.imp fun hpair => hpair.precedes⟩

/-! A candidate of one byte, its promotion, and the next range generation. -/

def openEnvironment : Environment := ⟨some, fun _ => 7⟩

def firstCandidate : Record where
  ownershipMarker := ownershipMarkerText
  namespaceName := namespaceText
  identity := ⟨7, 1, 2, 3, 4, 5, [97], 10, .nativeTree, 6, 8⟩
  stateGeneration := 1
  checkpointGeneration := 1
  verifiedRanges := [⟨0, 1⟩]
  phase := .active
  commitState := .candidate
  quarantineReason := none
  quarantineOrigin := none
  retirementReason := none
  checksum := 0

def promotedRecord : Record := { firstCandidate with commitState := .verified }

def extendedRecord : Record :=
  { promotedRecord with
    stateGeneration := 2
    checkpointGeneration := 2
    verifiedRanges := [⟨0, 4⟩, ⟨6, 9⟩] }

theorem checkpoint_chain_extended :
    [firstCandidate, promotedRecord, extendedRecord].IsChain Advances ∧
      recover openEnvironment (some extendedRecord) (some firstCandidate) =
        .ok extendedRecord := by
  have haccepted : [firstCandidate, promotedRecord, extendedRecord].IsChain
      fun previous next => validateTransition openEnvironment previous next = .ok () := by
    exact .cons_cons (by decide +kernel) (.cons_cons (by decide +kernel) (.singleton _))
  obtain ⟨hadvances, hprecedes⟩ := checkpoint_chain openEnvironment _ haccepted
  refine ⟨hadvances, ?_⟩
  have hfirst := (List.pairwise_cons.mp hprecedes).1 extendedRecord (by simp)
  exact (hfirst.superseded (.inl rfl) (.inl rfl)).2

end Windshare.Checkpoint
