import Windshare.Relay.Share.Policy

/-!
# Connection attempts of a share

A limiter keeps its tokens and the time up to which it has refilled them. What is left of an
interval stays in that time, so that it moves by whole intervals only. A run is any sequence of
attempts, at any times, and of restores from the state that the limiter checkpoints.
-/

namespace Windshare.Relay.Share.AttemptLimiter

def u32Max : Nat := 2 ^ 32 - 1

def new (rate : AttemptRate) (now : UnixMillis) : Except Error AttemptLimiter :=
  restore rate ⟨rate.burst, now⟩

def refilled (limiter : AttemptLimiter) (now : UnixMillis) : AttemptState :=
  let elapsed := now - limiter.state.updated
  let refill := elapsed / limiter.refillMillis
  if refill ≠ 0 then
    ⟨min (min (limiter.state.tokens + min refill u32Max) u32Max) limiter.burst,
      now - elapsed % limiter.refillMillis⟩
  else limiter.state

def attempt (limiter : AttemptLimiter) (now : UnixMillis) : AttemptLimiter × Bool :=
  let state := limiter.refilled now
  if state.tokens = 0 then ({ limiter with state := state }, false)
  else ({ limiter with state := { state with tokens := state.tokens - 1 } }, true)

/-! ### Runs -/

inductive Event where
  | attempt (now : UnixMillis)
  | restore

/-- A limiter with the attempts it has accepted and the largest time it has seen. -/
structure History where
  limiter : AttemptLimiter
  accepted : Nat
  largest : UnixMillis

def History.step (rate : AttemptRate) (h : History) : Event → Except Error History
  | .attempt now =>
    let (limiter, accepted) := h.limiter.attempt now
    .ok ⟨limiter, h.accepted + accepted.toNat, max h.largest now⟩
  | .restore => do
      let limiter ← restore rate h.limiter.state
      return { h with limiter := limiter }

def History.run (rate : AttemptRate) (h : History) (events : List Event) : Except Error History :=
  events.foldlM (History.step rate) h

/-! ### The bound -/

/-- Every refilled token has cost a whole interval since the start. -/
structure Within (rate : AttemptRate) (start : UnixMillis) (h : History) : Prop where
  restored : restore rate h.limiter.state = .ok h.limiter
  updated_le : h.limiter.state.updated ≤ h.largest
  paid : ∃ refills, h.limiter.state.updated = start + refills * h.limiter.refillMillis ∧
    h.accepted + h.limiter.state.tokens ≤ rate.burst + refills

variable {rate : AttemptRate} {start : UnixMillis} {limiter : AttemptLimiter}
  {state : AttemptState} {h : History}

theorem restore_eq_ok : restore rate state = .ok limiter ↔
    (0 < rate.refill / 1000000 ∧ rate.refill / 1000000 ≤ u64Max ∧ 0 < rate.burst) ∧
      state.tokens ≤ rate.burst ∧ limiter = ⟨rate.burst, rate.refill / 1000000, state⟩ := by
  unfold restore
  dsimp only
  split
  · rename_i hbad
    refine ⟨nofun, ?_⟩
    rintro ⟨⟨hpos, hle, -⟩, -⟩
    exact (hbad.elim (Nat.not_lt.mpr hle) (Nat.ne_of_gt hpos)).elim
  rename_i hmillis
  split
  · exact ⟨nofun, fun h => by omega⟩
  · rw [not_or, Nat.not_lt] at hmillis
    rw [Except.ok.injEq, eq_comm]
    refine ⟨fun h => ⟨⟨Nat.pos_of_ne_zero hmillis.2, hmillis.1, by omega⟩, by omega, h⟩, ?_⟩
    exact fun h => h.2.2

theorem sub_mod_eq {now updated : Nat} (interval : Nat) (h : updated < now) :
    now - (now - updated) % interval = updated + (now - updated) / interval * interval := by
  have hwhole := Nat.div_mul_self_eq_mod_sub_self (x := now - updated) (k := interval)
  have hrest := Nat.mod_le (now - updated) interval
  omega

/-- A refill adds at most one token for each whole interval it moves the time by. -/
theorem refilled_spec (now : UnixMillis) (htokens : limiter.state.tokens ≤ limiter.burst) :
    ∃ refills, (limiter.refilled now).updated =
        limiter.state.updated + refills * limiter.refillMillis ∧
      (limiter.refilled now).updated ≤ max limiter.state.updated now ∧
      (limiter.refilled now).tokens ≤ limiter.state.tokens + refills ∧
      (limiter.refilled now).tokens ≤ limiter.burst := by
  unfold refilled
  dsimp only
  split
  · rename_i hrefill
    -- the clock has gone on, or nothing would be refilled
    have hlater : limiter.state.updated < now := by
      by_contra hback
      rw [Nat.sub_eq_zero_of_le (Nat.not_lt.mp hback), Nat.zero_div] at hrefill
      exact hrefill rfl
    refine ⟨(now - limiter.state.updated) / limiter.refillMillis, sub_mod_eq _ hlater,
      (Nat.sub_le _ _).trans (Nat.le_max_right _ _), ?_, Nat.min_le_right _ _⟩
    exact ((Nat.min_le_left _ _).trans (Nat.min_le_left _ _)).trans
      (Nat.add_le_add_left (Nat.min_le_left _ _) _)
  · exact ⟨0, by simp, Nat.le_max_left _ _, Nat.le_refl _, htokens⟩

/-- An accepted attempt takes one of the tokens. -/
theorem attempt_spec (limiter : AttemptLimiter) (now : UnixMillis) :
    ∃ tokens, (limiter.attempt now).1 =
        { limiter with state := ⟨tokens, (limiter.refilled now).updated⟩ } ∧
      (limiter.attempt now).2.toNat + tokens = (limiter.refilled now).tokens := by
  unfold attempt
  dsimp only
  split
  · exact ⟨_, rfl, Nat.zero_add _⟩
  · refine ⟨_, rfl, ?_⟩
    dsimp only [Bool.toNat_true]
    omega

theorem within_new (hnew : new rate start = .ok limiter) :
    Within rate start ⟨limiter, 0, start⟩ := by
  obtain ⟨-, -, rfl⟩ := restore_eq_ok.mp hnew
  exact ⟨hnew, Nat.le_refl _, 0, by simp, by simp⟩

/-- A step keeps the bound and moves the time of the refill by whole intervals. -/
theorem Within.step (hw : Within rate start h) (event : Event) :
    ∃ h', h.step rate event = .ok h' ∧ Within rate start h' ∧
      h'.limiter.refillMillis = h.limiter.refillMillis ∧ ∃ refills,
        h'.limiter.state.updated = h.limiter.state.updated + refills * h.limiter.refillMillis := by
  cases event with
  | restore =>
    refine ⟨h, ?_, hw, rfl, 0, by simp⟩
    unfold History.step
    rw [hw.restored]
    rfl
  | attempt now =>
    obtain ⟨paid, hupdated, hpaid⟩ := hw.paid
    obtain ⟨hrate, htokens, hlimiter⟩ := restore_eq_ok.mp hw.restored
    have hburst : h.limiter.burst = rate.burst := by rw [hlimiter]
    obtain ⟨refills, htime, hlargest, hmore, hless⟩ := refilled_spec now (hburst ▸ htokens)
    obtain ⟨tokens, hnext, htaken⟩ := attempt_spec h.limiter now
    refine ⟨⟨(h.limiter.attempt now).1, h.accepted + (h.limiter.attempt now).2.toNat,
      max h.largest now⟩, rfl, ⟨?_, ?_, paid + refills, ?_, ?_⟩, ?_, refills, ?_⟩
    all_goals rw [hnext]
    · refine restore_eq_ok.mpr ⟨hrate, ?_, by rw [hlimiter]⟩
      exact (Nat.le_add_left _ _).trans (htaken.trans_le (hburst ▸ hless))
    · exact hlargest.trans (max_le_max_right now hw.updated_le)
    · rw [Nat.add_mul, ← Nat.add_assoc, ← hupdated]
      exact htime
    · dsimp only
      omega
    · exact htime

theorem Within.run (hw : Within rate start h) (events : List Event) :
    ∃ h', h.run rate events = .ok h' ∧ Within rate start h' ∧
      h'.limiter.refillMillis = h.limiter.refillMillis := by
  induction events generalizing h with
  | nil => exact ⟨h, rfl, hw, rfl⟩
  | cons event events ih =>
    obtain ⟨next, hstep, hnext, hsame, -⟩ := hw.step event
    obtain ⟨h', hrun, hw', hsame'⟩ := ih hnext
    refine ⟨h', ?_, hw', hsame'.trans hsame⟩
    unfold History.run
    rw [List.foldlM_cons, hstep]
    exact hrun

/-- Accepted attempts are paid by the burst and by the whole intervals that have passed. -/
theorem accepted_le (hnew : new rate start = .ok limiter) (events : List Event) :
    ∃ h, History.run rate ⟨limiter, 0, start⟩ events = .ok h ∧
      h.accepted ≤ rate.burst + (h.largest - start) / limiter.refillMillis ∧
      h.limiter.state.tokens ≤ rate.burst ∧ h.limiter.state.updated ≤ h.largest ∧
      ∀ event h', h.step rate event = .ok h' → ∃ refills, h'.limiter.state.updated =
        h.limiter.state.updated + refills * limiter.refillMillis := by
  obtain ⟨h, hrun, hw, hsame⟩ := (within_new hnew).run events
  obtain ⟨paid, hupdated, hpaid⟩ := hw.paid
  obtain ⟨hrate, htokens, hlimiter⟩ := restore_eq_ok.mp hw.restored
  have hintervals : paid ≤ (h.largest - start) / limiter.refillMillis := by
    rw [← hsame, Nat.le_div_iff_mul_le (by rw [hlimiter]; exact hrate.1)]
    exact Nat.le_sub_of_add_le' (hupdated ▸ hw.updated_le)
  have haccepted := (Nat.le_add_right _ _).trans (hpaid.trans (Nat.add_le_add_left hintervals _))
  refine ⟨h, hrun, haccepted, htokens, hw.updated_le, fun event h' hstep => ?_⟩
  obtain ⟨next, hnext, -, -, hmoved⟩ := hw.step event
  rw [hstep] at hnext
  cases hnext
  exact hsame ▸ hmoved

/-- Two tokens at time 100, five milliseconds each, and a clock that goes back. -/
theorem accepted_le_twoTokens : ∃ h, History.run ⟨2, 5000000⟩ ⟨⟨2, 5, ⟨2, 100⟩⟩, 0, 100⟩
      [.attempt 100, .attempt 90, .restore, .attempt 107] = .ok h ∧
    h.accepted ≤ 2 + (h.largest - 100) / 5 := by
  obtain ⟨h, hrun, haccepted, -⟩ := accepted_le
    (show new ⟨2, 5000000⟩ 100 = .ok ⟨2, 5, ⟨2, 100⟩⟩ from rfl)
    [.attempt 100, .attempt 90, .restore, .attempt 107]
  exact ⟨h, hrun, haccepted⟩

theorem refilled_pos {now : UnixMillis} (hinterval : 0 < limiter.refillMillis)
    (hburst : 0 < limiter.burst)
    (hnow : limiter.state.updated + limiter.refillMillis ≤ now) :
    0 < (limiter.refilled now).tokens := by
  have hrefill : 0 < (now - limiter.state.updated) / limiter.refillMillis :=
    Nat.div_pos (Nat.le_sub_of_add_le' hnow) hinterval
  unfold refilled
  dsimp only
  rw [if_pos (Nat.ne_of_gt hrefill)]
  have hmax : 0 < u32Max := by decide
  exact lt_min (lt_min (Nat.add_pos_right _ (lt_min hrefill hmax)) hmax) hburst

/-- Nobody is locked out: after any run the attempts that come one interval after the latest
time are accepted, whatever was refused before. -/
theorem attempt_accepted_after_interval (hnew : new rate start = .ok limiter)
    (events : List Event) :
    ∃ h, History.run rate ⟨limiter, 0, start⟩ events = .ok h ∧
      ∀ now, h.largest + limiter.refillMillis ≤ now → (h.limiter.attempt now).2 = true := by
  obtain ⟨h, hrun, hw, hsame⟩ := (within_new hnew).run events
  obtain ⟨⟨hinterval, -, hburst⟩, -, hlimiter⟩ := restore_eq_ok.mp hw.restored
  refine ⟨h, hrun, fun now hnow => ?_⟩
  have hpos : 0 < (h.limiter.refilled now).tokens := by
    refine refilled_pos (by rwa [hlimiter]) (by rwa [hlimiter]) ?_
    exact (Nat.add_le_add hw.updated_le (Nat.le_of_eq hsame)).trans hnow
  unfold attempt
  dsimp only
  rw [if_neg (Nat.ne_of_gt hpos)]

/-- One token, and three attempts at once of which two are refused. -/
theorem attempt_accepted_after_interval_refused :
    History.run ⟨1, 5000000⟩ ⟨⟨1, 5, ⟨1, 100⟩⟩, 0, 100⟩ [.attempt 100, .attempt 100, .attempt 100] =
      .ok ⟨⟨1, 5, ⟨0, 100⟩⟩, 1, 100⟩ ∧ (attempt ⟨1, 5, ⟨0, 100⟩⟩ 105).2 = true := by
  obtain ⟨h, hrun, hnext⟩ := attempt_accepted_after_interval
    (show new ⟨1, 5000000⟩ 100 = .ok ⟨1, 5, ⟨1, 100⟩⟩ from rfl)
    [.attempt 100, .attempt 100, .attempt 100]
  obtain rfl : ⟨⟨1, 5, ⟨0, 100⟩⟩, 1, 100⟩ = h := Except.ok.inj hrun
  exact ⟨hrun, hnext 105 (by decide)⟩

end Windshare.Relay.Share.AttemptLimiter
