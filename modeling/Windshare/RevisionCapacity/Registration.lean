import Windshare.RevisionCapacity.Ownership

/-!
# Steps of registrations

Registering a store or a session adds an object that nothing refers to yet. Closing a store
withdraws its candidates, and when nothing is pending frees its share. The share is freed
for the right store only if the store was not closed before.
-/

namespace Windshare.RevisionCapacity

open Windshare.Library

namespace Coordinator

variable {c : Coordinator} {phases : Ref → AdmissionPhase} {k s t : Ref} {good : Prop}

/-! ### New objects -/

theorem count_eq_zero_of_scope {xs : List Counter} {x : Counter} {P : Scope → Prop}
    (hxs : ∀ y ∈ xs, P y.scope) (hx : ¬ P x.scope) : xs.count x = 0 :=
  List.count_eq_zero_of_not_mem fun hmem => hx (hxs x hmem)

theorem Linked.charge_scope (h : c.Linked) {i : Ref} (hi : i < c.chargeStates.size) :
    ∀ x ∈ (c.charge i).holdings, c.Allocated x.scope := by
  obtain ⟨hstore, hsession, -⟩ := h.charges i hi
  have hstore : c.Allocated (.store (c.charge i).store) := hstore
  have hstable : ∀ x ∈ stableHandles (c.charge i).store, c.Allocated x.scope := by
    intro x hx
    simp only [stableHandles, List.mem_cons, List.not_mem_nil, or_false] at hx
    obtain rfl | rfl := hx
    · exact trivial
    · exact hstore
  intro x hx
  unfold ChargeState.holdings at hx
  split at hx
  · unfold chargeUnits lives at hx
    obtain hx | hx := List.mem_append.mp hx
    · split at hx
      · exact hstable x hx
      · rename_i t _ ht
        simp only [activeLeases, List.mem_cons, List.not_mem_nil, or_false] at hx
        obtain rfl | rfl | rfl := hx
        · exact trivial
        · exact hstore
        · exact hsession t ht
      · rename_i t _ ht
        obtain rfl := List.mem_singleton.mp hx
        exact hsession t ht
      · cases hx
    · obtain rfl | hx := List.mem_cons.mp hx
      · exact hstore
      · cases ht : (c.charge i).session with
        | none =>
          rw [ht] at hx
          cases hx
        | some t =>
          rw [ht] at hx
          obtain rfl := List.mem_singleton.mp hx
          exact hsession t ht
  · obtain hx | hx := List.mem_append.mp hx
    · exact hstable x hx
    · simp only [quarantines, List.mem_cons, List.not_mem_nil, or_false] at hx
      obtain rfl | rfl := hx
      · exact trivial
      · exact hstore
  · cases hx
  · cases hx

theorem Linked.admission_scope (h : c.Linked) {j : Ref} (hj : j < c.admissionStates.size) :
    ∀ x ∈ (c.admission j).holdings (phases j), c.Allocated x.scope := by
  obtain ⟨hstore, hsession, -⟩ := h.admissions j hj
  have hstore : c.Allocated (.store (c.admission j).store) := hstore
  have hsession : c.Allocated (.session (c.admission j).session) := hsession
  have hprocess : c.Allocated .process := trivial
  intro x hx
  simp only [AdmissionState.holdings, AdmissionState.reservations, AdmissionPhase.provisional,
    nonStables, pendings, activeLeases, sessionHandles, stableHandles, quarantinedUnits,
    quarantines, List.mem_append, List.mem_ite_nil_right, List.mem_cons, List.not_mem_nil,
    or_false, List.mem_ite_nil_left] at hx
  obtain (⟨-, (rfl | rfl | rfl) | (⟨-, rfl | rfl | rfl⟩ | ⟨-, rfl⟩) | ⟨-, rfl | rfl⟩⟩ | hx) |
    ⟨-, (rfl | rfl) | (rfl | rfl)⟩ := hx
  all_goals first
    | exact hstore
    | exact hsession
    | exact hprocess
    | skip
  cases hclaim : (phases j).claim? with
  | none =>
    rw [hclaim] at hx
    cases hx
  | some =>
    rw [hclaim] at hx
    simp only [Option.elim_some, provisionalShare, List.mem_ite_nil_right, List.mem_singleton] at hx
    obtain ⟨-, rfl⟩ := hx
    exact hstore

theorem Linked.candidate_scope (h : c.Linked) (hk : k < c.candidateStates.size) :
    ∀ x ∈ (c.candidate k).holdings (c.listed k), c.Allocated x.scope := by
  have hstore : c.Allocated (.store (c.candidate k).store) := h.candidates k hk
  intro x hx
  unfold CandidateState.holdings at hx
  split at hx
  · simp only [claims, List.mem_cons, List.not_mem_nil, or_false] at hx
    obtain rfl | rfl := hx
    · exact trivial
    · exact hstore
  · simp only [reclaimables, List.mem_ite_nil_right, List.mem_cons, List.not_mem_nil,
      or_false] at hx
    obtain ⟨-, rfl | rfl⟩ := hx
    · exact trivial
    · exact hstore

/-- Nothing holds units of an object that is not allocated. -/
theorem Linked.number_unallocated (h : c.Linked) {x : Counter} (hx : ¬ c.Allocated x.scope) :
    c.number phases x = 0 := by
  have hcharges : c.chargeNumber x = 0 :=
    tally_eq_zero fun i hi => count_eq_zero_of_scope (h.charge_scope hi) hx
  have hadmissions : c.admissionNumber phases x = 0 :=
    tally_eq_zero fun j hj => count_eq_zero_of_scope (h.admission_scope hj) hx
  have hcandidates : c.candidateNumber x = 0 :=
    tally_eq_zero fun k hk => count_eq_zero_of_scope (h.candidate_scope hk) hx
  unfold number
  rw [hcharges, hadmissions, hcandidates]

/-- The counters of a new object are zero already. -/
theorem Sound.counts_reset (h : c.Sound good phases) {scope : Scope}
    (hscope : ¬ c.Allocated scope) :
    (c.reset scope).counts = c.counts := by
  funext x
  unfold reset
  dsimp only
  split
  · rename_i heq
    rw [h.accounts x, h.linked.number_unallocated (by rw [heq]; exact hscope)]
    rfl
  · rfl

variable {listing : List Ref} {c' : Coordinator} {store : StoreState} {f : StoreState → StoreState}

/-- A step that changes registrations only. -/
theorem Sound.register (h : c.Sound good phases) (hcounts : c'.counts = c.counts)
    (hcharges : c'.chargeStates = c.chargeStates)
    (hadmissions : c'.admissionStates = c.admissionStates)
    (hcandidates : c'.candidateStates = c.candidateStates)
    (hclaims : c'.claimStates = c.claimStates) (hmap : c'.candidates = c.candidates)
    (hbyCharge : c'.byCharge = c.byCharge) (hlimits : c'.limits = c.limits)
    (hstores : c.storeStates.size ≤ c'.storeStates.size)
    (hsessions : c.sessionStates.size ≤ c'.sessionStates.size)
    (hstore : ∀ s < c.storeStates.size, (c'.store s).limits = (c.store s).limits)
    (hsession : ∀ t < c.sessionStates.size, (c'.session t).limits = (c.session t).limits)
    (hclosing : ∀ k < c.candidateStates.size, c.listed k = true →
      (c'.store (c.candidate k).store).closing = true → (c.candidate k).withdrawn = true)
    (hshared : c'.Shared good) : c'.Sound good phases := by
  have hlinked : c'.Linked := by
    refine ⟨?_, ?_, ?_⟩
    · rw [hcharges]
      exact h.linked.charges.mono fun a ha => ⟨ha.1.trans_le hstores,
        fun t ht => (ha.2.1 t ht).trans_le hsessions, ha.2.2⟩
    · rw [hadmissions]
      exact h.linked.admissions.mono fun a ha => ⟨ha.1.trans_le hstores,
        ha.2.1.trans_le hsessions, ha.2.2⟩
    · rw [hcandidates]
      exact h.linked.candidates.mono fun a ha => ha.trans_le hstores
  have hlisted : c'.Listed := by
    have hlist := h.listed.of_stores c'.storeStates hclosing
    exact hlist.of_same hmap hbyCharge hcandidates hcharges rfl
  have hnumber : ∀ x, c'.number phases x = c.number phases x := by
    intro x
    unfold number chargeNumber admissionNumber candidateNumber Coordinator.listed charge admission
      candidate
    rw [hcharges, hadmissions, hcandidates, hmap]
  refine ⟨⟨hlinked, h.phased.of_same hadmissions hcandidates hclaims, hlisted⟩, hshared, ?_, ?_⟩
  · intro scope hscope r
    by_cases hold : c.Allocated scope
    · have hsame : c'.limitsOf scope = c.limitsOf scope := by
        cases scope with
        | process => exact hlimits
        | store s => exact hstore s hold
        | session t => exact hsession t hold
      rw [hnumber, hsame]
      exact h.within scope ⟨hold, hscope.2⟩ r
    · rw [hnumber, h.linked.number_unallocated (x := .used scope r) hold]
      exact Nat.zero_le _
  · intro x
    rw [hcounts, hnumber]
    exact h.accounts x

theorem store_addStore_of_lt (hs : s < c.storeStates.size) :
    (c.addStore store).store s = c.store s := c.storeStates.get_alloc_of_lt hs

theorem store_addStore_size :
    (c.addStore store).store c.storeStates.size = store := c.storeStates.get_alloc_size

/-- The share of a new store was free. -/
theorem Shared.addStore (h : c.Shared good) (hopen : store.closed = false)
    (hfree : c.shares.get? store.shareID = none) : (c.addStore store).Shared good := by
  have hcases : ∀ s < c.storeStates.size + 1, s = c.storeStates.size ∨ s < c.storeStates.size :=
    fun s hs => (Nat.lt_succ_iff_lt_or_eq.mp hs).symm
  constructor
  case entry =>
    intro hgood s hs hclosed
    change (c.shares.insert store.shareID c.storeStates.size).get? _ = some s
    rw [FiniteMap.get?_insert]
    obtain rfl | hs := hcases s hs
    · rw [store_addStore_size, if_pos rfl]
    · rw [store_addStore_of_lt hs] at hclosed ⊢
      have hentry := h.entry hgood s hs hclosed
      have hne : store.shareID ≠ (c.store s).shareID := by
        intro heq
        rw [← heq, hfree] at hentry
        cases hentry
      rw [if_neg hne]
      exact hentry
  case closing =>
    intro s hs hclosed
    obtain rfl | hs := hcases s hs
    · rw [store_addStore_size, hopen] at hclosed
      cases hclosed
    · rw [store_addStore_of_lt hs] at hclosed ⊢
      exact h.closing s hs hclosed

theorem Sound.registerStore (h : c.Sound good phases) (storeID : StoreID) (shareID : ShareID)
    (limits : CapacityLimits) : (c.registerStore storeID shareID limits).1.Sound good phases := by
  unfold Coordinator.registerStore
  split
  · exact h
  split
  · exact h
  split
  · exact h
  split
  · exact h
  split
  · exact h
  rename_i hfree
  have hfree : c.shares.get? shareID = none := by simpa using hfree
  refine h.register (h.counts_reset (Nat.lt_irrefl _)) rfl rfl rfl rfl rfl rfl rfl (Nat.le_succ _)
    le_rfl (fun s hs => congrArg _ (store_addStore_of_lt hs)) (fun _ _ => rfl) ?_
    (h.shared.addStore rfl hfree)
  intro k hk hlisted hclosing
  have hstore : (c.candidate k).store < c.storeStates.size := h.linked.candidates k hk
  rw [store_addStore_of_lt hstore] at hclosing
  exact h.listed.closing k hk hlisted hclosing

/-- Changes of stores that keep limits, shares and flags. -/
theorem Shared.of_stores (h : c.Shared good) (hshares : c'.shares = c.shares)
    (hsize : c'.storeStates.size = c.storeStates.size)
    (hstore : ∀ s, (c'.store s).shareID = (c.store s).shareID ∧
      (c'.store s).closed = (c.store s).closed ∧ ((c.store s).closing = true →
        (c'.store s).closing = true)) : c'.Shared good := by
  constructor
  case entry =>
    intro hgood s hs hclosed
    obtain ⟨hshare, hsame, -⟩ := hstore s
    rw [hshares, hshare]
    exact h.entry hgood s (hsize ▸ hs) (hsame ▸ hclosed)
  case closing =>
    intro s hs hclosed
    obtain ⟨-, hsame, hclosing⟩ := hstore s
    exact hclosing (h.closing s (hsize ▸ hs) (hsame ▸ hclosed))

theorem Sound.registerSession (h : c.Sound good phases) (s : Ref) (sessionID : SessionID)
    (limits : CapacityLimits) : (c.registerSession s sessionID limits).1.Sound good phases := by
  unfold Coordinator.registerSession
  split
  · exact h
  split
  · exact h
  split
  · exact h
  split
  · exact h
  split
  · exact h
  split
  · exact h
  have hstore : ∀ i, ((c.addSession (.new s sessionID limits)).store i).limits =
      (c.store i).limits ∧ ((c.addSession (.new s sessionID limits)).store i).shareID =
      (c.store i).shareID ∧ ((c.addSession (.new s sessionID limits)).store i).closed =
      (c.store i).closed ∧ ((c.addSession (.new s sessionID limits)).store i).closing =
      (c.store i).closing := by
    intro i
    have hcell : (c.addSession (.new s sessionID limits)).store i = if i = s then
        (c.store s).setSessions ((c.store s).sessions.insert sessionID c.sessionStates.size)
        else c.store i := store_modify s i fun store =>
      store.setSessions (store.sessions.insert sessionID c.sessionStates.size)
    rw [hcell]
    split
    · rename_i heq
      subst heq
      exact ⟨rfl, rfl, rfl, rfl⟩
    · exact ⟨rfl, rfl, rfl, rfl⟩
  refine h.register (h.counts_reset (Nat.lt_irrefl _)) rfl rfl rfl rfl rfl rfl rfl le_rfl
    (Nat.le_succ _) (fun i _ => (hstore i).1)
    (fun t ht => congrArg SessionState.limits (c.sessionStates.get_alloc_of_lt ht)) ?_
    (h.shared.of_stores rfl rfl fun i => ⟨(hstore i).2.1, (hstore i).2.2.1,
      fun hclosing => (hstore i).2.2.2.trans hclosing⟩)
  intro k hk hlisted hclosing
  rw [(hstore _).2.2.2] at hclosing
  exact h.listed.closing k hk hlisted hclosing

/-! ### Closing -/

theorem candidate_withdraw_of_ne {i : Ref} (hne : i ≠ k) :
    (c.withdraw k).candidate i = c.candidate i := by
  unfold Coordinator.withdraw
  split
  · rfl
  · exact c.candidateStates.get_modify_of_ne hne

theorem size_withdraw : (c.withdraw k).candidateStates.size = c.candidateStates.size := by
  unfold Coordinator.withdraw
  split <;> rfl

/-- Withdrawing leaves the registrations alone. -/
theorem withdraw_stores : (c.withdraw k).storeStates = c.storeStates ∧
    (c.withdraw k).sessionStates = c.sessionStates ∧ (c.withdraw k).shares = c.shares := by
  unfold Coordinator.withdraw
  split <;> exact ⟨rfl, rfl, rfl⟩

/-- The listing of the candidates is not changed by withdrawing another one. -/
theorem listed_withdraw_of_ne (hlisted : c.listed k = true) {i : Ref} (hne : i ≠ k) :
    (c.withdraw k).listed i = c.listed i := by
  unfold Coordinator.withdraw
  split
  · have hlist := (sameIdentities_unlist (c := c) k).listed_erase hlisted rfl i
    have hsame : (c.removeAvailableCandidate k).listed i = (c.unlist k).listed i := rfl
    rw [hsame, hlist]
    simp [hne]
  · have hsame := sameIdentities_modify (c := c) (k := k) (f := (·.withdraw))
      fun _ => ⟨rfl, rfl, rfl⟩
    exact hsame.listed rfl i

theorem withdrawn_of_listed_withdraw (hlisted : c.listed k = true)
    (hstays : (c.withdraw k).listed k = true) : ((c.withdraw k).candidate k).withdrawn = true := by
  unfold Coordinator.withdraw at hstays ⊢
  split
  · rename_i hclaim
    rw [if_pos hclaim] at hstays
    have hlist := (sameIdentities_unlist (c := c) k).listed_erase hlisted rfl k
    have hsame : (c.removeAvailableCandidate k).listed k = (c.unlist k).listed k := rfl
    rw [hsame, hlist] at hstays
    simp at hstays
  · exact congrArg CandidateState.withdrawn c.candidateStates.get_modify_self

theorem Sound.withdrawStoreCandidates (h : c.Sound good phases) (s : Ref)
    (hnodup : listing.Nodup)
    (hlisted : ∀ k ∈ listing, k < c.candidateStates.size ∧ c.listed k = true) :
    (c.withdrawStoreCandidates s listing).Sound good phases ∧
      (c.withdrawStoreCandidates s listing).storeStates = c.storeStates ∧
      (c.withdrawStoreCandidates s listing).sessionStates = c.sessionStates ∧
      (c.withdrawStoreCandidates s listing).shares = c.shares ∧
      (c.withdrawStoreCandidates s listing).candidateStates.size = c.candidateStates.size ∧
      (∀ k ∉ listing, (c.withdrawStoreCandidates s listing).listed k = c.listed k ∧
        (c.withdrawStoreCandidates s listing).candidate k = c.candidate k) ∧
      ∀ k ∈ listing, (c.withdrawStoreCandidates s listing).listed k = true →
        ((c.withdrawStoreCandidates s listing).candidate k).store = s →
          ((c.withdrawStoreCandidates s listing).candidate k).withdrawn = true := by
  induction listing generalizing c with
  | nil => exact ⟨h, rfl, rfl, rfl, rfl, fun _ _ => ⟨rfl, rfl⟩, fun _ hk => by cases hk⟩
  | cons k listing ih =>
    obtain ⟨hk, hrest⟩ := List.forall_mem_cons.mp hlisted
    obtain ⟨hnot, hnodup⟩ := List.nodup_cons.mp hnodup
    have hne : ∀ i ∈ listing, i ≠ k := by
      rintro i hi rfl
      exact hnot hi
    by_cases hstore : (c.candidate k).store = s
    · have hstep : c.withdrawStoreCandidates s (k :: listing) =
          (c.withdraw k).withdrawStoreCandidates s listing := by
        unfold Coordinator.withdrawStoreCandidates
        rw [List.foldl_cons, if_neg (not_not.mpr hstore)]
      obtain ⟨hstores, hsessions, hshares⟩ := withdraw_stores (c := c) (k := k)
      obtain ⟨hsound, hstores', hsessions', hshares', hsize, hkept, hmarked⟩ :=
        ih (h.withdraw hk.1 hk.2) hnodup fun i hi => by
          rw [size_withdraw, listed_withdraw_of_ne hk.2 (hne i hi)]
          exact hrest i hi
      rw [hstep]
      refine ⟨hsound, hstores'.trans hstores, hsessions'.trans hsessions,
        hshares'.trans hshares, hsize.trans size_withdraw, ?_, ?_⟩
      · intro i hi
        obtain ⟨hik, hi⟩ := not_or.mp (mt List.mem_cons.mpr hi)
        obtain ⟨hlist, hcell⟩ := hkept i hi
        rw [hlist, hcell, listed_withdraw_of_ne hk.2 hik, candidate_withdraw_of_ne hik]
        exact ⟨rfl, rfl⟩
      · intro i hi hlist hs
        obtain rfl | hi := List.mem_cons.mp hi
        · obtain ⟨hlist', hcell⟩ := hkept i hnot
          rw [hcell]
          rw [hlist'] at hlist
          exact withdrawn_of_listed_withdraw hk.2 hlist
        · exact hmarked i hi hlist hs
    · have hstep : c.withdrawStoreCandidates s (k :: listing) =
          c.withdrawStoreCandidates s listing := by
        unfold Coordinator.withdrawStoreCandidates
        rw [List.foldl_cons, if_pos hstore]
      obtain ⟨hsound, hstores, hsessions, hshares, hsize, hkept, hmarked⟩ := ih h hnodup hrest
      rw [hstep]
      refine ⟨hsound, hstores, hsessions, hshares, hsize,
        fun i hi => hkept i fun hmem => hi (List.mem_cons_of_mem _ hmem), ?_⟩
      intro i hi hlist hs
      obtain rfl | hi := List.mem_cons.mp hi
      · rw [(hkept i hnot).2] at hs
        exact absurd hs hstore
      · exact hmarked i hi hlist hs

/-- The order in which Go ranges over the candidates. -/
def Lists (c : Coordinator) (listing : List Ref) : Prop :=
  listing.Perm (c.candidates.entries.map Prod.snd)

theorem Listed.mem_listing (h : c.Listed) (hlisting : c.Lists listing) :
    k ∈ listing ↔ k < c.candidateStates.size ∧ c.listed k = true := by
  rw [hlisting.mem_iff, List.mem_map]
  constructor
  · rintro ⟨⟨key, i⟩, hmem, rfl⟩
    obtain ⟨hi, hkey⟩ := h.entry key i (FiniteMap.mem_entries_iff.mp hmem)
    refine ⟨hi, listed_iff.mpr ?_⟩
    rw [hkey]
    exact FiniteMap.mem_entries_iff.mp hmem
  · rintro ⟨-, hlisted⟩
    exact ⟨((c.candidate k).key, k), FiniteMap.mem_entries_iff.mpr (listed_iff.mp hlisted), rfl⟩

theorem Listed.nodup_listing (h : c.Listed) (hlisting : c.Lists listing) : listing.Nodup := by
  rw [hlisting.nodup_iff]
  refine List.Nodup.map_on ?_ (List.Nodup.of_map Prod.fst c.candidates.nodup)
  rintro ⟨key, i⟩ hmem ⟨key', i'⟩ hmem' heq
  obtain rfl : i = i' := heq
  obtain ⟨-, hkey⟩ := h.entry key i (FiniteMap.mem_entries_iff.mp hmem)
  obtain ⟨-, hkey'⟩ := h.entry key' i (FiniteMap.mem_entries_iff.mp hmem')
  rw [← hkey, ← hkey']

theorem withdraw_modifyStore : (c.modifyStore s f).withdraw k = (c.withdraw k).modifyStore s f := by
  have hcell : (c.modifyStore s f).candidate k = c.candidate k := rfl
  unfold Coordinator.withdraw
  rw [hcell]
  split <;> rfl

/-- Marking the store first or last makes no difference to the loop. -/
theorem withdrawStoreCandidates_modifyStore (listing : List Ref) :
    (c.modifyStore s f).withdrawStoreCandidates s listing =
      (c.withdrawStoreCandidates s listing).modifyStore s f := by
  induction listing generalizing c with
  | nil => rfl
  | cons k listing ih =>
    have hcell : ((c.modifyStore s f).candidate k).store = (c.candidate k).store := rfl
    unfold Coordinator.withdrawStoreCandidates at ih ⊢
    rw [List.foldl_cons, List.foldl_cons, hcell, withdraw_modifyStore]
    split
    · exact ih
    · exact ih

section

variable (h : c.Sound good phases)

include h

theorem Sound.beginClose (s : Ref) (hlisting : c.Lists listing) :
    ((c.modifyStore s (·.beginClose)).withdrawStoreCandidates s listing).Sound good phases ∧
      (((c.modifyStore s (·.beginClose)).withdrawStoreCandidates s listing).store s).closing =
        true ∧
      (((c.modifyStore s (·.beginClose)).withdrawStoreCandidates s listing).store s).closed =
        (c.store s).closed := by
  have hmem : ∀ k, k ∈ listing ↔ k < c.candidateStates.size ∧ c.listed k = true :=
    fun k => h.listed.mem_listing hlisting
  obtain ⟨hsound, hstores, hsessions, hshares, hsize, hkept, hmarked⟩ :=
    h.withdrawStoreCandidates s (h.listed.nodup_listing hlisting) fun k hk => (hmem k).mp hk
  rw [withdrawStoreCandidates_modifyStore]
  generalize c.withdrawStoreCandidates s listing = d at *
  have hstore : ∀ i, (d.modifyStore s (·.beginClose)).store i =
      if i = s then (d.store s).beginClose else d.store i := fun i => store_modify s i _
  refine ⟨?_, ?_, ?_⟩
  · refine hsound.register rfl rfl rfl rfl rfl rfl rfl rfl le_rfl le_rfl ?_ (fun _ _ => rfl) ?_
      (hsound.shared.of_stores rfl rfl ?_)
    · intro i _
      rw [hstore]
      split
      · rename_i heq
        rw [heq]
        rfl
      · rfl
    · intro k hk hlisted hclosing
      rw [hstore] at hclosing
      split at hclosing
      · rename_i heq
        by_cases hin : k ∈ listing
        · exact hmarked k hin hlisted heq
        · rw [(hkept k hin).1] at hlisted
          exact absurd ((hmem k).mpr ⟨hsize ▸ hk, hlisted⟩) hin
      · exact hsound.listed.closing k hk hlisted hclosing
    · intro i
      rw [hstore]
      split
      · rename_i heq
        rw [heq]
        exact ⟨rfl, rfl, fun _ => rfl⟩
      · exact ⟨rfl, rfl, id⟩
  · rw [hstore, if_pos rfl]
    rfl
  · rw [hstore, if_pos rfl]
    exact congrArg (fun stores : Heap StoreState => (stores.get s).closed) hstores

/-- A store that is closing frees its share. No newer store of the share may be registered
when the store was closed before. -/
theorem Sound.awaitCloseStore (hs : s < c.storeStates.size)
    (hclosing : (c.store s).closing = true)
    (hfirst : good → (c.store s).closed = true → c.shares.get? (c.store s).shareID = none) :
    (c.awaitCloseStore s).1.Sound good phases := by
  unfold Coordinator.awaitCloseStore
  split
  · exact h
  split
  · exact h
  split
  · exact h
  have hstore : ∀ i, (c.storeStates.modify s (·.finishClose)).get i =
      if i = s then (c.store s).finishClose else c.store i := fun i => store_modify s i _
  refine h.register rfl rfl rfl rfl rfl rfl rfl rfl le_rfl le_rfl ?_ (fun _ _ => rfl) ?_ ⟨?_, ?_⟩
  · intro i _
    refine (congrArg StoreState.limits (hstore i)).trans ?_
    split
    · rename_i heq
      rw [heq]
      rfl
    · rfl
  · intro k hk hlisted hclosing'
    refine h.listed.closing k hk hlisted ?_
    by_cases heq : (c.candidate k).store = s
    · rw [heq]
      exact hclosing
    · exact (congrArg StoreState.closing ((hstore _).trans (if_neg heq))).symm.trans hclosing'
  · intro hgood i hi hopen
    by_cases heq : i = s
    · cases (congrArg StoreState.closed ((hstore i).trans (if_pos heq))).symm.trans hopen
    · have hcell := (hstore i).trans (if_neg heq)
      have hentry := h.shared.entry hgood i hi ((congrArg StoreState.closed hcell).symm.trans hopen)
      have hshare := congrArg StoreState.shareID hcell
      refine (congrArg (c.shares.erase (c.store s).shareID).get? hshare).trans ?_
      rw [FiniteMap.get?_erase, if_neg ?_]
      · exact hentry
      intro hsame
      rw [← hsame] at hentry
      cases hclosed : (c.store s).closed with
      | true =>
        rw [hfirst hgood hclosed] at hentry
        cases hentry
      | false =>
        rw [h.shared.entry hgood s hs hclosed] at hentry
        exact heq (Option.some.inj hentry).symm
  · intro i hi hclosed
    by_cases heq : i = s
    · refine (congrArg StoreState.closing ((hstore i).trans (if_pos heq))).trans hclosing
    · have hcell := (hstore i).trans (if_neg heq)
      exact (congrArg StoreState.closing hcell).trans
        (h.shared.closing i hi ((congrArg StoreState.closed hcell).symm.trans hclosed))

theorem Sound.modifySessions
    {g : SessionState → SessionState} (hobjects : c' = (c.modifySession t g).modifyStore s f)
    (hf : ∀ a, (f a).limits = a.limits ∧ (f a).shareID = a.shareID ∧ (f a).closed = a.closed ∧
      (f a).closing = a.closing) (hg : ∀ a, (g a).limits = a.limits) : c'.Sound good phases := by
  subst hobjects
  have hstore : ∀ i, (((c.modifySession t g).modifyStore s f).store i).limits =
      (c.store i).limits ∧ (((c.modifySession t g).modifyStore s f).store i).shareID =
      (c.store i).shareID ∧ (((c.modifySession t g).modifyStore s f).store i).closed =
      (c.store i).closed ∧ (((c.modifySession t g).modifyStore s f).store i).closing =
      (c.store i).closing := by
    intro i
    rw [store_modify]
    split
    · rename_i heq
      rw [heq]
      exact hf _
    · exact ⟨rfl, rfl, rfl, rfl⟩
  refine h.register rfl rfl rfl rfl rfl rfl rfl rfl le_rfl le_rfl (fun i _ => (hstore i).1) ?_ ?_
    (h.shared.of_stores rfl rfl fun i => ⟨(hstore i).2.1, (hstore i).2.2.1,
      fun hclosing => (hstore i).2.2.2.trans hclosing⟩)
  · intro i _
    refine (congrArg SessionState.limits (c.sessionStates.get_modify (f := g))).trans ?_
    split
    · rename_i heq
      rw [heq]
      exact hg _
    · rfl
  · intro k hk hlisted hclosing
    rw [(hstore _).2.2.2] at hclosing
    exact h.listed.closing k hk hlisted hclosing

theorem Sound.awaitCloseSession (t : Ref) : (c.awaitCloseSession t).1.Sound good phases := by
  unfold Coordinator.awaitCloseSession
  split
  · exact h
  split
  · exact h
  · exact h.modifySessions rfl (fun _ => ⟨rfl, rfl, rfl, rfl⟩) fun _ => rfl

theorem Sound.closeSession (t : Ref) : (c.closeSession t).1.Sound good phases := by
  unfold Coordinator.closeSession
  split
  · exact h
  · refine Sound.awaitCloseSession (h.modifySessions (s := 0) (f := fun a => a)
      (t := t) (g := fun session => { session with closing := true }) ?_
      (fun _ => ⟨rfl, rfl, rfl, rfl⟩) fun _ => rfl) t
    unfold modifyStore
    rw [Heap.modify_id]

/-! ### The choice of a candidate -/

theorem Sound.claimed_of_unavailable (hk : k < c.candidateStates.size)
    (hlisted : c.listed k = true) (hunavailable : c.unavailable k = true) :
    (c.candidate k).claim ≠ none := by
  have hstore : (c.candidate k).store < c.storeStates.size := h.linked.candidates k hk
  have hactive : (c.charge (c.candidate k).charge).status = .active :=
    (h.listed.charge k hk hlisted).2.1
  have hclosing : (c.store (c.candidate k).store).closing = true →
      (c.candidate k).claim ≠ none := fun hclosing =>
    h.listed.withdrawn k hk hlisted (h.listed.closing k hk hlisted hclosing)
  obtain hclaim | hwithdrawn | hstoreClosing | hclosed | hstatus :=
    of_decide_eq_true hunavailable
  · exact hclaim
  · exact h.listed.withdrawn k hk hlisted hwithdrawn
  · exact hclosing hstoreClosing
  · exact hclosing (h.shared.closing _ hstore hclosed)
  · exact absurd hactive hstatus

/-- What `oldestCandidateLocked` may answer. -/
def Claimable (c : Coordinator) (requester : Ref) (shareBlocked : Bool) (k : Ref) : Prop :=
  k < c.candidateStates.size ∧ c.listed k = true ∧ c.unavailable k = false ∧
    (shareBlocked = true → (c.store (c.candidate k).store).shareID = (c.store requester).shareID)

theorem Sound.oldestCandidate (requester : Ref) (shareBlocked : Bool)
    (hlisting : c.Lists listing) :
    (c.oldestCandidate requester shareBlocked listing).1 = c ∧
      ∀ k, (c.oldestCandidate requester shareBlocked listing).2 = some k →
        c.Claimable requester shareBlocked k := by
  have hloop : ∀ (ks : List Ref) (oldest : Option Ref),
      (∀ k ∈ ks, k < c.candidateStates.size ∧ c.listed k = true) →
      (∀ k, oldest = some k → c.Claimable requester shareBlocked k) →
      let found := ks.foldl (fun d k => d.1.consider requester shareBlocked d.2 k) (c, oldest)
      found.1 = c ∧ ∀ k, found.2 = some k → c.Claimable requester shareBlocked k := by
    intro ks
    induction ks with
    | nil => exact fun oldest _ holdest => ⟨rfl, holdest⟩
    | cons k ks ih =>
      intro oldest hks holdest
      obtain ⟨⟨hk, hlisted⟩, hks⟩ := List.forall_mem_cons.mp hks
      dsimp only
      rw [List.foldl_cons]
      unfold consider
      split
      · rename_i hunavailable
        rw [if_neg (h.claimed_of_unavailable hk hlisted hunavailable)]
        exact ih oldest hks holdest
      rename_i havailable
      split
      · exact ih oldest hks holdest
      rename_i hshare
      refine ih _ hks fun i hi => ?_
      obtain rfl := Option.some.inj hi
      have hself : c.Claimable requester shareBlocked k := by
        refine ⟨hk, hlisted, Bool.eq_false_iff.mpr havailable, fun hblocked => ?_⟩
        by_contra hne
        exact hshare ⟨hblocked, hne⟩
      unfold older
      cases oldest with
      | none => exact hself
      | some o =>
        dsimp only
        split
        · exact hself
        · exact holdest o rfl
  exact hloop listing none (fun k hk => (h.listed.mem_listing hlisting).mp hk)
    (fun k hk => by cases hk)

/-- A blocked share claims from its own store only, so a claim across stores leaves the
share below its limit. -/
theorem Sound.claimable_room {j : Ref}
    (hj : j < c.admissionStates.size) (hopen : (c.store (c.admission j).store).closed = false)
    (hclaimable : c.Claimable (c.admission j).store (c.shareBlocked (c.admission j).store) k)
    (hcross : c.crossStore j k = true) (hgood : good) :
    c.atLimit (.store (c.admission j).store) .stableHandle = false := by
  obtain ⟨hk, hlisted, havailable, hshare⟩ := hclaimable
  by_contra hblocked
  have hblocked : c.shareBlocked (c.admission j).store = true := by
    unfold shareBlocked
    simpa using hblocked
  have hstoreOpen : (c.store (c.candidate k).store).closed = false := by
    have hnot := of_decide_eq_false havailable
    simp only [not_or] at hnot
    simpa using hnot.2.2.2.1
  have hvictim := h.shared.entry hgood _ (h.linked.candidates k hk) hstoreOpen
  have hrequester := h.shared.entry hgood _ (h.linked.admissions j hj).1 hopen
  have hshares : (c.storeStates.get (c.candidate k).store).shareID =
    (c.store (c.admission j).store).shareID := hshare hblocked
  refine of_decide_eq_true hcross ?_
  have heq := hvictim.symm.trans ((congrArg c.shares.get? hshares).trans hrequester)
  exact Option.some.inj heq

end

end Coordinator

end Windshare.RevisionCapacity
