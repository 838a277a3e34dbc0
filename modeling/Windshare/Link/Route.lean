import Mathlib.Data.List.TakeWhile

/-!
# The route segment of a link

The model of `routeSegment` in `link.go`, and what a browser does with the same path: it resolves
dot segments from left to right with a stack. The scan from the end finds the same segment.
-/

namespace Windshare.Link

abbrev Text := List UInt8

def slash : UInt8 := 0x2f

def dot : UInt8 := 0x2e

def percent : UInt8 := 0x25

/-! ### The scan -/

/-- `unhex`, of a hexadecimal digit. -/
def unhex (b : UInt8) : Option UInt8 :=
  if 0x30 ≤ b ∧ b ≤ 0x39 then some (b - 0x30)
  else if 0x61 ≤ b ∧ b ≤ 0x66 then some (b - 0x61 + 10)
  else if 0x41 ≤ b ∧ b ≤ 0x46 then some (b - 0x41 + 10)
  else none

def pathUnescape : Text → Option Text
  | [] => some []
  | b :: rest =>
    if b = percent then
      match rest with
      | high :: low :: rest => do
          let high ← unhex high
          let low ← unhex low
          let decoded ← pathUnescape rest
          return (high * 16 + low) :: decoded
      | _ => none
    else (b :: ·) <$> pathUnescape rest

def lower (b : UInt8) : UInt8 := if 0x41 ≤ b ∧ b ≤ 0x5a then b + 0x20 else b

/-- `strings.EqualFold` with an ASCII text that has no letter `k` or `s`. -/
def equalFold (s t : Text) : Bool := s.map lower = t.map lower

/-- `"%2e"`. -/
def escapedDot : Text := [percent, 0x32, 0x65]

def isSingleDotSegment (s : Text) : Bool := s = [dot] || equalFold s escapedDot

def isDoubleDotSegment (s : Text) : Bool :=
  s = [dot, dot] || equalFold s (dot :: escapedDot) || equalFold s (escapedDot ++ [dot]) ||
    equalFold s (escapedDot ++ escapedDot)

/-- `rest[i+1:]` for the last slash `i`. -/
def lastSegment (rest : Text) : Text := (rest.reverse.takeWhile (· != slash)).reverse

/-- `rest[:max(i, 0)]` for the last slash `i`. -/
def beforeSegment (rest : Text) : Text := (rest.reverse.dropWhile (· != slash)).tail.reverse

theorem segment_cases (rest : Text) :
    slash ∉ lastSegment rest ∧
      (rest = lastSegment rest ∧ beforeSegment rest = [] ∨
        rest = beforeSegment rest ++ slash :: lastSegment rest) := by
  have hparts := List.takeWhile_append_dropWhile (p := (· != slash)) (l := rest.reverse)
  refine ⟨fun h => by simpa using List.mem_takeWhile_imp (List.mem_reverse.1 h), ?_⟩
  cases hback : rest.reverse.dropWhile (· != slash) with
  | nil =>
    rw [hback, List.append_nil] at hparts
    exact .inl ⟨by rw [lastSegment, hparts, List.reverse_reverse], by simp [beforeSegment, hback]⟩
  | cons first back =>
    have hfirst := List.head_dropWhile_not (· != slash) (l := rest.reverse) (by simp [hback])
    obtain rfl : first = slash := by simpa [hback] using hfirst
    rw [hback] at hparts
    refine .inr (List.reverse_inj.1 ?_)
    rw [← hparts]
    simp [lastSegment, beforeSegment, hback]

theorem length_beforeSegment (h : rest ≠ []) : (beforeSegment rest).length < rest.length := by
  obtain ⟨-, ⟨-, hbefore⟩ | hrest⟩ := segment_cases rest
  · rw [hbefore]
    exact List.length_pos_iff.2 h
  · have hlength := congrArg List.length hrest
    simp at hlength
    omega

/-- The loop of `routeSegment`. -/
def scan (removed : Nat) (rest : Text) : Text :=
  if h : rest = [] then []
  else if isSingleDotSegment (lastSegment rest) then scan removed (beforeSegment rest)
  else if isDoubleDotSegment (lastSegment rest) then scan (removed + 1) (beforeSegment rest)
  else if removed > 0 then scan (removed - 1) (beforeSegment rest)
  else if lastSegment rest ≠ [] then (pathUnescape (lastSegment rest)).getD []
  else scan removed (beforeSegment rest)
termination_by rest.length
decreasing_by all_goals exact length_beforeSegment h

def routeSegment (escaped : Text) : Text := scan 0 escaped

/-! ### What browsers do -/

/-- The spellings of a dot, letter case apart. -/
def dotSpellings : List Text := [[dot], escapedDot]

def doubleDotSpellings : List Text :=
  dotSpellings.flatMap fun first => dotSpellings.map (first ++ ·)

/-- The segments of a path, after its root. -/
def segments : Text → List Text
  | [] => []
  | b :: rest => if b = slash then rest.splitOn slash else (b :: rest).splitOn slash

/-- One segment is resolved. The last segment of the resolved path is the head of the stack. -/
def resolve (stack : List Text) (segment : Text) : List Text :=
  if dotSpellings.contains (segment.map lower) then stack
  else if doubleDotSpellings.contains (segment.map lower) then stack.tail
  else segment :: stack

def resolved (escaped : Text) : List Text := (segments escaped).foldl resolve []

/-- The first non-empty segment of a stack, decoded. -/
def readSegment (stack : List Text) : Text :=
  ((stack.find? (· ≠ [])).bind pathUnescape).getD []

/-! ### Agreement -/

theorem lower_eq_dot (b : UInt8) : lower b = dot ↔ b = dot := by
  unfold lower dot
  split
  · simp only [UInt8.le_iff_toNat_le, ← UInt8.toNat_inj, UInt8.toNat_add] at *
    simp at *
    omega
  · rfl

theorem map_lower_eq_dots (s : Text) (n : Nat) :
    s.map lower = List.replicate n dot ↔ s = List.replicate n dot := by
  simp [List.eq_replicate_iff, lower_eq_dot]

theorem isSingleDotSegment_iff (s : Text) : isSingleDotSegment s ↔ s.map lower ∈ dotSpellings := by
  have hdot : s.map lower = [dot] ↔ s = [dot] := map_lower_eq_dots s 1
  have hescaped : escapedDot.map lower = escapedDot := rfl
  simp [isSingleDotSegment, dotSpellings, equalFold, hdot, hescaped]

theorem isDoubleDotSegment_iff (s : Text) :
    isDoubleDotSegment s ↔ s.map lower ∈ doubleDotSpellings := by
  have hdots : s.map lower = [dot, dot] ↔ s = [dot, dot] := map_lower_eq_dots s 2
  have hescaped : escapedDot.map lower = escapedDot := rfl
  have hdot : lower dot = dot := rfl
  simp [isDoubleDotSegment, doubleDotSpellings, dotSpellings, equalFold, hdots, hescaped, hdot,
    or_assoc]

theorem segments_snoc (h : rest ≠ []) :
    segments rest = segments (beforeSegment rest) ++ [lastSegment rest] := by
  obtain ⟨hlast, ⟨hrest, hbefore⟩ | hrest⟩ := segment_cases rest
  · rw [← hrest] at hlast ⊢
    rw [hbefore]
    cases rest with
    | nil => exact absurd rfl h
    | cons b rest =>
      have hb : b ≠ slash := fun hb => hlast (by simp [hb])
      simp [segments, hb, List.splitOn_eq_singleton hlast]
  · generalize beforeSegment rest = before at hrest ⊢
    generalize lastSegment rest = last at hrest hlast ⊢
    subst hrest
    cases before with
    | nil => simp [segments, List.splitOn_eq_singleton hlast]
    | cons b before =>
      by_cases hb : b = slash
      · simp [segments, hb, List.splitOn_append_cons_self, List.splitOn_eq_singleton hlast]
      · simp only [segments, hb, List.cons_append, if_false]
        rw [← List.cons_append, List.splitOn_append_cons_self, List.splitOn_eq_singleton hlast]

theorem resolved_snoc (h : rest ≠ []) :
    resolved rest =
      if isSingleDotSegment (lastSegment rest) then resolved (beforeSegment rest)
      else if isDoubleDotSegment (lastSegment rest) then (resolved (beforeSegment rest)).tail
      else lastSegment rest :: resolved (beforeSegment rest) := by
  simp only [resolved, segments_snoc h, List.foldl_append, List.foldl_cons, List.foldl_nil, resolve,
    isSingleDotSegment_iff, isDoubleDotSegment_iff, List.contains_iff_mem]

/-- A scan that still has segments to drop reads a stack without its latest ones. -/
theorem scan_eq (removed : Nat) (rest : Text) :
    scan removed rest = readSegment ((resolved rest).drop removed) := by
  fun_induction scan removed rest with
  | case1 removed => simp [resolved, segments, readSegment]
  | case2 removed rest h hsingle ih => rw [ih, resolved_snoc h, if_pos hsingle]
  | case3 removed rest h hsingle hdouble ih =>
    rw [ih, resolved_snoc h, if_neg hsingle, if_pos hdouble, List.drop_tail]
  | case4 removed rest h hsingle hdouble hremoved ih =>
    rw [ih, resolved_snoc h, if_neg hsingle, if_neg hdouble]
    rw [List.drop_cons hremoved]
  | case5 removed rest h hsingle hdouble hremoved hsegment =>
    obtain rfl : removed = 0 := by omega
    rw [resolved_snoc h, if_neg hsingle, if_neg hdouble]
    simp [readSegment, hsegment]
  | case6 removed rest h hsingle hdouble hremoved hsegment ih =>
    obtain rfl : removed = 0 := by omega
    rw [ih, resolved_snoc h, if_neg hsingle, if_neg hdouble]
    simp [readSegment, not_not.1 hsegment]

/-- The scan from the end returns the last non-empty segment of the resolved path, decoded. -/
theorem routeSegment_eq_readSegment (escaped : Text) :
    routeSegment escaped = readSegment (resolved escaped) :=
  scan_eq 0 escaped

/-! ### Detours -/

/-- A segment is resolved after the path before it. -/
theorem resolved_append {escaped segment : Text} (h : slash ∉ segment) :
    resolved (escaped ++ slash :: segment) = resolve (resolved escaped) segment := by
  have hstop : ∀ b ∈ segment.reverse, (b != slash) = true := by
    intro b hb
    exact bne_iff_ne.mpr fun heq => h (heq ▸ List.mem_reverse.mp hb)
  have hback : (escaped ++ slash :: segment).reverse =
      segment.reverse ++ slash :: escaped.reverse := by simp
  have hlast : lastSegment (escaped ++ slash :: segment) = segment := by
    rw [lastSegment, hback, List.takeWhile_append_of_pos hstop]
    simp
  have hbefore : beforeSegment (escaped ++ slash :: segment) = escaped := by
    rw [beforeSegment, hback, List.dropWhile_append_of_pos hstop]
    simp
  rw [resolved, segments_snoc (by simp), hlast, hbefore, List.foldl_append]
  rfl

/-- A slash, a dot segment or a detour at the end of a path does not change its route. -/
theorem routeSegment_append_detour {escaped segment : Text} (hslash : slash ∉ segment)
    (hsingle : isSingleDotSegment segment = false) (hdouble : isDoubleDotSegment segment = false) :
    routeSegment (escaped ++ [slash]) = routeSegment escaped ∧
    routeSegment (escaped ++ [slash, dot]) = routeSegment escaped ∧
    routeSegment (escaped ++ slash :: segment ++ [slash, dot, dot]) = routeSegment escaped := by
  have hpush : resolve (resolved escaped) segment = segment :: resolved escaped := by
    rw [← Bool.not_eq_true, isSingleDotSegment_iff] at hsingle
    rw [← Bool.not_eq_true, isDoubleDotSegment_iff] at hdouble
    simp [resolve, hsingle, hdouble]
  unfold routeSegment
  simp only [scan_eq, List.drop_zero]
  refine ⟨?_, ?_, ?_⟩
  · rw [resolved_append List.not_mem_nil]
    rfl
  · rw [resolved_append (by decide)]
    rfl
  · rw [resolved_append (by decide), resolved_append hslash, hpush]
    rfl

/-- `/a/b/..` and `/a`. -/
theorem routeSegment_append_detour_sample :
    routeSegment ([slash, 0x61] ++ slash :: [0x62] ++ [slash, dot, dot]) =
      routeSegment [slash, 0x61] :=
  (routeSegment_append_detour (by decide) (by decide) (by decide)).2.2

end Windshare.Link
