import Windshare.Session.Envelope
import Mathlib.Data.List.Nodup
import Mathlib.Data.List.Perm.Subperm

/-!
# Chains of directory failures

The model of `validateFailureChain` in `failure.go`. Each failure of a directory names the attempt
that failed before it. The check counts roots, forks and tails and walks back from the tail; it
accepts the records of one chain in any order, and nothing else.
-/

namespace Windshare.Catalog

open Windshare.Session (Identity)

structure DirectoryFailureRecord where
  share : Identity
  directory : Identity
  attempt : Identity
  generation : Identity
  previousAttempt : Identity
  kind : UInt8
  retryAfter : Int

def failureKindTransientIO : UInt8 := 7

/-- `time.Millisecond`, in nanoseconds. -/
def millisecond : Int := 1000000

namespace DirectoryFailureRecord

def retryable (r : DirectoryFailureRecord) : Bool := r.kind = failureKindTransientIO

def valid (r : DirectoryFailureRecord) : Except String Unit :=
  if r.share = .zero ∨ r.directory = .zero ∨ r.attempt = .zero ∨ r.generation = .zero ∨
      r.kind = 0 ∨ r.kind > failureKindTransientIO then
    .error "catalog failure record has invalid identity or kind"
  else if r.retryable ∧ (r.retryAfter < 250 * millisecond ∨ r.retryAfter > 30000 * millisecond ∨
      r.retryAfter.tmod millisecond ≠ 0) then
    .error "catalog transient failure has an invalid retry delay"
  else if !r.retryable ∧ r.retryAfter ≠ 0 then
    .error "catalog permanent failure carries a retry delay"
  else if r.previousAttempt = r.attempt then .error "catalog failure attempt points to itself"
  else .ok ()

theorem attempt_ne_zero (r : DirectoryFailureRecord) (h : r.valid = .ok ()) :
    r.attempt ≠ .zero := by
  intro hzero
  simp [valid, hzero] at h

end DirectoryFailureRecord

abbrev Records := List DirectoryFailureRecord

/-- What the first loop collects. The maps are lists of records, `byAttempt` under their attempts
and `successors` under their predecessors. -/
structure FailureLinks where
  byAttempt : Records
  successors : Records
  roots : Nat

namespace FailureLinks

def add (links : FailureLinks) (r : DirectoryFailureRecord) : Option FailureLinks :=
  if r.valid ≠ .ok () ∨ r.attempt ∈ links.byAttempt.map (·.attempt) then none
  else if r.previousAttempt = .zero then
    some { links with byAttempt := r :: links.byAttempt, roots := links.roots + 1 }
  else if r.previousAttempt ∈ links.successors.map (·.previousAttempt) then none
  else some { links with byAttempt := r :: links.byAttempt, successors := r :: links.successors }

/-- The attempts without a successor. -/
def tails (links : FailureLinks) : List Identity :=
  (links.byAttempt.map (·.attempt)).filter (· ∉ links.successors.map (·.previousAttempt))

end FailureLinks

/-- The last loop, at most `limit` records back. -/
def walk (byAttempt : Records) (limit : Nat) (current : Identity) (visited : Nat) : Option Nat :=
  if current = .zero then some visited
  else
    match byAttempt.find? (·.attempt = current) with
    | none => none
    | some r =>
      if visited + 1 > limit then none
      else walk byAttempt limit r.previousAttempt (visited + 1)
termination_by limit - visited

/-- `validateFailureChain`, with `none` for `ErrCorruptCatalogStorage`. -/
def validateFailureChain (records : Records) : Option Identity :=
  if records = [] then some .zero
  else do
    let links ← records.foldlM FailureLinks.add ⟨[], [], 0⟩
    match links.tails with
    | [tail] =>
      if links.roots = 1 ∧ walk links.byAttempt records.length tail 0 = some records.length then
        some tail
      else none
    | _ => none

/-! ### Chains -/

/-- Each record names the attempt before it, the first one `previous`. -/
def LinksFrom : Identity → Records → Prop
  | _, [] => True
  | previous, r :: rest => r.previousAttempt = previous ∧ LinksFrom r.attempt rest

def lastAttempt : Identity → Records → Identity
  | previous, [] => previous
  | _, r :: rest => lastAttempt r.attempt rest

/-- Distinct attempts, the first without a predecessor. -/
structure LinearChain (chain : Records) : Prop where
  distinct : (chain.map (·.attempt)).Nodup
  linked : LinksFrom .zero chain

variable {r : DirectoryFailureRecord} {records chain rs p : Records} {c : Identity}

theorem linksFrom_concat : LinksFrom c (rs ++ [r]) ↔
    LinksFrom c rs ∧ r.previousAttempt = lastAttempt c rs := by
  induction rs generalizing c with
  | nil => simp [LinksFrom, lastAttempt]
  | cons s rs ih => simp [LinksFrom, lastAttempt, ih, and_assoc]

theorem lastAttempt_concat : lastAttempt c (rs ++ [r]) = r.attempt := by
  induction rs generalizing c with
  | nil => rfl
  | cons s rs ih => exact ih

/-- The predecessors of a chain are its attempts, one place later. -/
theorem LinksFrom.shift (h : LinksFrom c chain) :
    c :: chain.map (·.attempt) = chain.map (·.previousAttempt) ++ [lastAttempt c chain] := by
  induction chain generalizing c with
  | nil => rfl
  | cons r rest ih =>
    obtain ⟨rfl, hrest⟩ := h
    simp [lastAttempt, ih hrest]

/-- Only the last element of the later list is not in the earlier one. -/
theorem filter_of_shift {a z : Identity} {xs ys : List Identity} (h : a :: xs = ys ++ [z])
    (ha : a ∈ ys) (hz : z ∉ ys) : xs.filter (· ∉ ys) = [z] := by
  have hfilter := congrArg (List.filter (· ∉ ys)) h
  have hnone : ys.filter (· ∉ ys) = [] := by simp [List.filter_eq_nil_iff]
  rw [List.filter_cons_of_neg (by simpa using ha), List.filter_append, hnone,
    List.filter_cons_of_pos (by simpa using hz)] at hfilter
  exact hfilter

/-! ### The first loop -/

def linksOf (p : Records) : FailureLinks :=
  ⟨p, p.filter (·.previousAttempt ≠ .zero), p.countP (·.previousAttempt = .zero)⟩

/-- What the first loop checks of the records it has seen. -/
@[mk_iff]
structure Collected (p : Records) : Prop where
  valid : ∀ r ∈ p, r.valid = .ok ()
  distinct : (p.map (·.attempt)).Nodup
  unforked : ((p.filter (·.previousAttempt ≠ .zero)).map (·.previousAttempt)).Nodup

theorem Collected.of_append (h : Collected (rs ++ p)) : Collected p := by
  refine ⟨fun r hr => h.valid r (List.mem_append_right _ hr), ?_, ?_⟩
  · exact h.distinct.sublist ((List.sublist_append_right rs p).map _)
  · exact h.unforked.sublist (((List.sublist_append_right rs p).filter _).map _)

theorem Collected.add_eq_some (h : Collected p) {links : FailureLinks} :
    (linksOf p).add r = some links ↔ Collected (r :: p) ∧ links = linksOf (r :: p) := by
  have hvalid := h.valid
  have hdistinct := h.distinct
  have hunforked := h.unforked
  rw [collected_iff, FailureLinks.add]
  by_cases hroot : r.previousAttempt = .zero
  · simp [linksOf, hroot]
    grind
  · simp [linksOf, hroot]
    grind

theorem Collected.foldlM_eq_some (h : Collected p) {links : FailureLinks} :
    records.foldlM FailureLinks.add (linksOf p) = some links ↔
      Collected (records.reverse ++ p) ∧ links = linksOf (records.reverse ++ p) := by
  induction records generalizing p with
  | nil => simp [h, eq_comm]
  | cons r records ih =>
    rw [List.foldlM_cons, Option.bind_eq_bind, Option.bind_eq_some_iff, List.reverse_cons,
      List.append_assoc]
    constructor
    · rintro ⟨next, hadd, hrest⟩
      obtain ⟨hnext, rfl⟩ := h.add_eq_some.1 hadd
      exact (ih hnext).1 hrest
    · intro hrest
      have hnext := hrest.1.of_append
      exact ⟨_, h.add_eq_some.2 ⟨hnext, rfl⟩, (ih hnext).2 hrest⟩

/-! ### The walk -/

/-- The records a walk from `c` visits. -/
def Path (p : Records) : Identity → Records → Prop
  | c, [] => c = .zero
  | c, r :: rs => c ≠ .zero ∧ p.find? (·.attempt = c) = some r ∧ Path p r.previousAttempt rs

theorem path_of_walk {limit visited n : Nat} (h : walk p limit c visited = some n) :
    ∃ rs, Path p c rs ∧ n = visited + rs.length := by
  fun_induction walk p limit c visited with
  | case1 visited => exact ⟨[], rfl, (Option.some.inj h).symm⟩
  | case2 | case3 => cases h
  | case4 c visited hc r hr hlt ih =>
    obtain ⟨rs, hpath, rfl⟩ := ih h
    exact ⟨r :: rs, ⟨hc, hr, hpath⟩, by rw [List.length_cons]; omega⟩

theorem Path.walk_eq {limit visited : Nat} (h : Path p c rs) (hle : visited + rs.length ≤ limit) :
    walk p limit c visited = some (visited + rs.length) := by
  induction rs generalizing c visited with
  | nil =>
    obtain rfl : c = .zero := h
    rw [walk, if_pos rfl]
    rfl
  | cons r rs ih =>
    rw [List.length_cons] at hle ⊢
    rw [walk, if_neg h.1, h.2.1]
    simp only []
    rw [if_neg (by omega), ih h.2.2 (by omega), Nat.add_right_comm]
    rfl

theorem mem_of_find (h : p.find? (·.attempt = c) = some r) : r ∈ p ∧ r.attempt = c :=
  ⟨List.mem_of_find?_eq_some h, by simpa using List.find?_some h⟩

theorem Path.of_append {s t : Records} (h : Path p c (s ++ t)) :
    ∃ c', Path p c' t := by
  induction s generalizing c with
  | nil => exact ⟨c, h⟩
  | cons r s ih => exact ih h.2.2

/-- A record that is visited again would begin walks of two lengths. -/
theorem Path.nodup (h : Path p c rs) : rs.Nodup := by
  induction rs generalizing c with
  | nil => exact List.nodup_nil
  | cons r rs ih =>
    refine List.nodup_cons.2 ⟨fun hmem => ?_, ih h.2.2⟩
    obtain ⟨s, t, rfl⟩ := List.append_of_mem hmem
    obtain ⟨c', htail⟩ := h.2.2.of_append
    obtain rfl : c' = c := (mem_of_find htail.2.1).2.symm.trans (mem_of_find h.2.1).2
    have hwalk := h.walk_eq (Nat.le_refl (0 + _))
    rw [htail.walk_eq (by simp; omega)] at hwalk
    simp at hwalk
    omega

theorem Path.subset (h : Path p c rs) : rs ⊆ p := by
  induction rs generalizing c with
  | nil => exact List.nil_subset p
  | cons r rs ih => exact List.cons_subset.2 ⟨(mem_of_find h.2.1).1, ih h.2.2⟩

/-- Read backwards, a walk follows a chain. -/
theorem Path.linksFrom (h : Path p c rs) :
    LinksFrom .zero rs.reverse ∧ lastAttempt .zero rs.reverse = c := by
  induction rs generalizing c with
  | nil => exact ⟨trivial, h.symm⟩
  | cons r rs ih =>
    obtain ⟨hlinks, hlast⟩ := ih h.2.2
    rw [List.reverse_cons, linksFrom_concat, lastAttempt_concat]
    exact ⟨⟨hlinks, hlast.symm⟩, (mem_of_find h.2.1).2⟩

theorem Collected.find_attempt (h : Collected p) (hr : r ∈ p) :
    p.find? (·.attempt = r.attempt) = some r := by
  cases hfind : p.find? (·.attempt = r.attempt) with
  | none => simpa using List.find?_eq_none.1 hfind r hr
  | some s =>
    obtain ⟨hs, hsame⟩ := mem_of_find hfind
    rw [List.inj_on_of_nodup_map h.distinct hs hr hsame]

theorem Collected.path (h : Collected p) (hsubset : chain ⊆ p) (hlinks : LinksFrom c chain)
    (hpath : Path p c rs) : Path p (lastAttempt c chain) (chain.reverse ++ rs) := by
  induction chain generalizing c rs with
  | nil => exact hpath
  | cons r rest ih =>
    obtain ⟨rfl, hrest⟩ := hlinks
    obtain ⟨hr, hsubset⟩ := List.cons_subset.1 hsubset
    rw [List.reverse_cons, List.append_assoc]
    exact ih hsubset hrest
      ⟨r.attempt_ne_zero (h.valid r hr), h.find_attempt hr, hpath⟩

theorem Collected.chain_of_walk (h : Collected p) (hwalk : walk p p.length c 0 = some p.length) :
    ∃ chain, chain.Perm p ∧ LinearChain chain ∧ c = lastAttempt .zero chain := by
  obtain ⟨rs, hpath, hlength⟩ := path_of_walk hwalk
  have hperm : rs.Perm p :=
    (List.subperm_of_subset hpath.nodup hpath.subset).perm_of_length_le (by omega)
  obtain ⟨hlinks, hlast⟩ := hpath.linksFrom
  have hchain := (List.reverse_perm rs).trans hperm
  exact ⟨rs.reverse, hchain, ⟨(hchain.map _).nodup_iff.2 h.distinct, hlinks⟩, hlast.symm⟩

/-! ### Linear chains are accepted -/

section

variable (hchain : LinearChain chain) (hp : chain.Perm p) (hvalid : ∀ r ∈ p, r.valid = .ok ())

include hchain hp hvalid

theorem LinearChain.nodup_shift :
    (chain.map (·.previousAttempt) ++ [lastAttempt .zero chain]).Nodup := by
  rw [← hchain.linked.shift, List.nodup_cons]
  refine ⟨fun hzero => ?_, hchain.distinct⟩
  obtain ⟨r, hr, hzero⟩ := List.mem_map.1 hzero
  exact r.attempt_ne_zero (hvalid r (hp.subset hr)) hzero

theorem LinearChain.collected : Collected p := by
  refine ⟨hvalid, (hp.map _).nodup_iff.1 hchain.distinct, ?_⟩
  have hnodup := (List.nodup_append.1 (hchain.nodup_shift hp hvalid)).1
  exact ((hp.filter _).map _).nodup_iff.1 (hnodup.sublist (List.filter_sublist.map _))

theorem LinearChain.roots_and_tails (hne : chain ≠ []) :
    (linksOf p).roots = 1 ∧ (linksOf p).tails = [lastAttempt .zero chain] := by
  have hzero : Identity.zero ∈ chain.map (·.previousAttempt) := by
    cases chain with
    | nil => exact absurd rfl hne
    | cons r rest => exact List.mem_cons.2 (.inl hchain.linked.1.symm)
  obtain ⟨hnodup, -, hdisjoint⟩ := List.nodup_append.1 (hchain.nodup_shift hp hvalid)
  constructor
  · rw [← List.count_eq_one_of_mem hnodup hzero, List.count, List.countP_map, hp.countP_eq]
    rfl
  · have htails := filter_of_shift hchain.linked.shift hzero fun hmem =>
      hdisjoint _ hmem _ (List.mem_singleton_self _) rfl
    have hsuccessors (a : Identity) (ha : a ∈ p.map (·.attempt)) :
        decide (a ∉ (linksOf p).successors.map (·.previousAttempt)) =
          decide (a ∉ chain.map (·.previousAttempt)) := by
      obtain ⟨r, hr, rfl⟩ := List.mem_map.1 ha
      have hne := r.attempt_ne_zero (hvalid r hr)
      simp [linksOf, hp.mem_iff]
      grind
    refine List.perm_singleton.1 ?_
    rw [← htails, FailureLinks.tails]
    exact (List.filter_congr hsuccessors) ▸ (hp.symm.map _).filter _

end

/-- The check accepts the records of a linear chain, in any order, and returns its last attempt. -/
theorem validateFailureChain_eq_some {tail : Identity} :
    validateFailureChain records = some tail ↔ (∀ r ∈ records, r.valid = .ok ()) ∧
      ∃ chain, chain.Perm records ∧ LinearChain chain ∧ tail = lastAttempt .zero chain := by
  unfold validateFailureChain
  split
  · rename_i hnil
    subst hnil
    constructor
    · rintro ⟨⟩
      exact ⟨nofun, [], .nil, ⟨List.nodup_nil, trivial⟩, rfl⟩
    · rintro ⟨-, chain, hperm, -, rfl⟩
      rw [hperm.eq_nil]
      rfl
  rename_i hne
  have hempty : Collected [] := ⟨nofun, List.nodup_nil, List.nodup_nil⟩
  have hcollect (links : FailureLinks) : records.foldlM FailureLinks.add ⟨[], [], 0⟩ = some links ↔
      Collected records.reverse ∧ links = linksOf records.reverse :=
    (List.append_nil records.reverse) ▸ hempty.foldlM_eq_some
  have hperm := List.reverse_perm records
  rw [Option.bind_eq_bind, Option.bind_eq_some_iff]
  constructor
  · rintro ⟨links, hlinks, haccepts⟩
    obtain ⟨hcollected, rfl⟩ := (hcollect links).1 hlinks
    split at haccepts
    · split at haccepts
      · rename_i hwalk
        obtain rfl := Option.some.inj haccepts
        rw [← records.length_reverse] at hwalk
        obtain ⟨chain, hchain, hlinear⟩ := hcollected.chain_of_walk hwalk.2
        exact ⟨fun r hr => hcollected.valid r (hperm.mem_iff.2 hr), chain, hchain.trans hperm,
          hlinear⟩
      · cases haccepts
    · cases haccepts
  · rintro ⟨hvalid, chain, hchain, hlinear, rfl⟩
    have hp := hchain.trans hperm.symm
    replace hvalid : ∀ r ∈ records.reverse, r.valid = .ok () := fun r hr =>
      hvalid r (hperm.mem_iff.1 hr)
    have hcollected := hlinear.collected hp hvalid
    obtain ⟨hroots, htails⟩ := hlinear.roots_and_tails hp hvalid fun hnil =>
      hne (hnil ▸ hchain).symm.eq_nil
    refine ⟨_, (hcollect _).2 ⟨hcollected, rfl⟩, ?_⟩
    rw [htails]
    refine if_pos ⟨hroots, ?_⟩
    have hpath : Path _ _ (chain.reverse ++ []) := hcollected.path hp.subset hlinear.linked rfl
    have hwalk : walk _ records.length _ 0 = _ := hpath.walk_eq (by simp [hchain.length_eq])
    simpa [linksOf, hchain.length_eq] using hwalk

end Windshare.Catalog
