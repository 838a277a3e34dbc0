import Windshare.Session.Writer

/-!
# Runs of the session writer

One invariant says where every item is, and one relation what a step leaves as it was. Each
change that a step can make is shown to keep both; a step is a chain of such changes.
-/

namespace Windshare.Session

open Windshare.Library Windshare.Operation

/-- The item is being sealed or sent. -/
@[grind] def OutboundPhase.isBusy : OutboundPhase → Bool
  | .sealing => true
  | .sending => true
  | _ => false

attribute [local grind] OutboundItem.enter OutboundItem.settle Drain.item

namespace SessionWriter

/-- The item that a call of `#drain` has sealed. -/
@[grind] def inSealing : List Drain → List Ref
  | [.sealing i] => [i]
  | _ => []

/-- The invariant. -/
structure Sound (w : SessionWriter) : Prop where
  drains : w.drains = [] ∧ w.running = false ∧ w.active = none ∨
    ∃ d, w.drains = [d] ∧ w.running = true ∧ w.active = d.item
  queued : ∀ i, i ∈ w.control ∨ i ∈ w.data ↔ i < w.items.size ∧ (w.items.get i).phase = .queued
  control : ∀ i ∈ w.control, (w.items.get i).priority ≠ .data
  data : ∀ i ∈ w.data, (w.items.get i).priority = .data
  ordered : w.control.Pairwise (· < ·) ∧ w.data.Pairwise (· < ·)
  busy : ∀ i, i < w.items.size ∧ (w.items.get i).phase.isBusy = true ↔
    w.active = some i ∧ w.aborted = false
  active : ∀ i, w.active = some i → i < w.items.size ∧
    (w.aborted = true → (w.items.get i).phase = .failed)
  settled : ∀ i < w.items.size, (w.items.get i).completion = none →
    (w.items.get i).phase = .queued ∨ (w.items.get i).phase.isBusy = true
  begun : ∀ i ∈ w.sealings, i < w.items.size ∧ (w.items.get i).phase ≠ .queued ∧
    (w.items.get i).phase ≠ .withdrawn
  placed : w.aborted = false → ∀ i < w.items.size, (w.items.get i).phase ≠ .queued →
    (w.items.get i).phase ≠ .withdrawn → i ∈ w.sealings
  sealings : w.aborted = false → w.sealings = w.handed ++ inSealing w.drains
  handed : w.handed <+: w.sealings
  distinct : w.sealings.Nodup
  failed : w.aborted = true → w.control = [] ∧ w.data = []

/-- What is settled, withdrawn or over stays so. -/
structure Extends (w v : SessionWriter) : Prop where
  size : w.items.size ≤ v.items.size
  settled : ∀ i < w.items.size, (w.items.get i).completion ≠ none →
    (v.items.get i).completion = (w.items.get i).completion
  withdrawn : ∀ i < w.items.size, (w.items.get i).phase = .withdrawn →
    (v.items.get i).phase = .withdrawn
  ceased : w.aborted = true → v.aborted = true ∧ v.sealings = w.sealings ∧ v.handed = w.handed

/-- A terminal that was not withdrawn was accepted last and no data waits. Once it is being
sealed nothing waits, and all that was accepted before it has been sealed. -/
def Closing (w : SessionWriter) : Prop :=
  ∀ t < w.items.size, (w.items.get t).priority = .terminal → (w.items.get t).phase ≠ .withdrawn →
    t + 1 = w.items.size ∧ w.terminal = true ∧ w.data = [] ∧
    (t ∈ w.sealings → w.control = [] ∧ ∃ before, w.sealings = before ++ [t] ∧
      ∀ i < t, (w.items.get i).phase ≠ .withdrawn → i ∈ before)

/-- The new writer is sound and extends the old one, and in a careful run the terminal stays
last. -/
structure Leads (c : Prop) (w v : SessionWriter) : Prop where
  sound : v.Sound
  extends' : w.Extends v
  closing : c → w.Closing → v.Closing

variable {c : Prop} {w v u : SessionWriter} {i : Ref}

theorem sound_new : new.Sound := by
  constructor <;> simp [new, inSealing]

theorem Leads.trans (h : w.Leads c v) (h' : v.Leads c u) : w.Leads c u := by
  obtain ⟨-, ⟨hsize, hsettled, hwithdrawn, hover⟩, hclosing⟩ := h
  obtain ⟨hsound, ⟨hsize', hsettled', hwithdrawn', hover'⟩, hclosing'⟩ := h'
  refine ⟨hsound, ?_, fun hgood hw => hclosing' hgood (hclosing hgood hw)⟩
  constructor <;> grind

/-- A change that seals and withdraws nothing. -/
theorem Closing.of_same (h : w.Closing) (hsize : v.items.size = w.items.size)
    (hitems : ∀ j, (v.items.get j).priority = (w.items.get j).priority ∧
      ((v.items.get j).phase = .withdrawn ↔ (w.items.get j).phase = .withdrawn))
    (hterminal : v.terminal = w.terminal) (hcontrol : w.control = [] → v.control = [])
    (hdata : w.data = [] → v.data = []) (hsealings : v.sealings = w.sealings) : v.Closing := by
  intro t ht hpriority hphase
  rw [(hitems t).1] at hpriority
  rw [Ne, (hitems t).2] at hphase
  obtain ⟨hlast, hflag, hnone, hsealed⟩ := h t (hsize ▸ ht) hpriority hphase
  refine ⟨hsize ▸ hlast, hterminal ▸ hflag, hdata hnone, fun hmem => ?_⟩
  obtain ⟨hempty, before, hbefore, hall⟩ := hsealed (hsealings ▸ hmem)
  exact ⟨hcontrol hempty, before, hsealings ▸ hbefore,
    fun i hi hkept => hall i hi (mt (hitems i).2.mpr hkept)⟩

/-- A change of the calls of `#drain` only. -/
theorem Sound.shift (h : v.Sound) (hitems : v.items = w.items) (hcontrol : v.control = w.control)
    (hdata : v.data = w.data) (hterminal : v.terminal = w.terminal)
    (haborted : v.aborted = w.aborted) (hsealings : v.sealings = w.sealings)
    (hhanded : v.handed = w.handed) : w.Leads c v := by
  refine ⟨h, ?_, fun _ hw => hw.of_same (by rw [hitems])
    (fun _ => by rw [hitems]; exact ⟨rfl, .rfl⟩)
    hterminal (hcontrol ▸ id) (hdata ▸ id) hsealings⟩
  constructor
  · rw [hitems]
  · intro _ _ _
    rw [hitems]
  · intro _ _ hphase
    rwa [hitems]
  · intro ha
    exact ⟨haborted.trans ha, hsealings, hhanded⟩

theorem Sound.refl (h : w.Sound) : w.Leads c w := h.shift rfl rfl rfl rfl rfl rfl rfl

/-! ### The changes -/

theorem Sound.seal (h : w.Sound) (hd : w.drains = [.sealing i]) (ha : w.aborted = false) :
    w.Leads c { w with
      items := w.items.modify i (·.enter .sending)
      drains := w.drains.set 0 (.sending i)
      handed := w.handed ++ [i] } := by
  cases h
  refine ⟨by constructor <;> grind, by constructor <;> grind,
    fun _ hw => hw.of_same rfl ?_ rfl id id rfl⟩
  grind

theorem Sound.deliver (h : w.Sound) (hd : w.drains = [.sending i]) (ha : w.aborted = false) :
    w.Leads c ({ w with
      items := w.items.modify i fun item => (item.enter .sent).settle .resolved }.leave 0) := by
  unfold leave
  cases h
  refine ⟨by constructor <;> grind, by constructor <;> grind,
    fun _ hw => hw.of_same rfl ?_ rfl id id rfl⟩
  grind

variable {d : Drain} {f : OutboundItem → OutboundItem}

theorem get_foldl_modify (hf : ∀ a, f (f a) = f a)
    (is : List Ref) (items : Heap OutboundItem) (j : Ref) :
    (is.foldl (fun heap i => heap.modify i f) items).get j =
      if j ∈ is then f (items.get j) else items.get j := by
  induction is generalizing items with
  | nil => rfl
  | cons i is ih =>
    rw [List.foldl_cons, ih, Heap.get_modify]
    grind

theorem size_foldl_modify (is : List Ref) (items : Heap OutboundItem) :
    (is.foldl (fun heap i => heap.modify i f) items).size = items.size := by
  induction is generalizing items with
  | nil => rfl
  | cons i is ih => exact ih _

section

variable (h : w.Sound)

include h

theorem Sound.fail : w.Leads c w.fail := by
  unfold SessionWriter.fail
  split
  · exact h.refl
  have hget := get_foldl_modify (f := fun item => (item.enter .failed).settle .rejected)
    (fun a => by grind) (w.active.toList ++ (w.control ++ w.data)) w.items
  have hsize := size_foldl_modify (f := fun item => (item.enter .failed).settle .rejected)
    (w.active.toList ++ (w.control ++ w.data)) w.items
  cases h
  exact ⟨by constructor <;> grind, by constructor <;> grind,
    fun _ hw => hw.of_same hsize (by grind) rfl (fun _ => rfl) (fun _ => rfl) rfl⟩

theorem Sound.leave (ha : w.aborted = true) (hd : w.drains = [d]) : w.Leads c (w.leave 0) := by
  refine Sound.shift { h with
    drains := .inr ⟨.returned, by simp [SessionWriter.leave, hd], ?_, rfl⟩
    busy := ?_, active := nofun
    sealings := fun hlive => absurd (ha.symm.trans hlive) nofun } rfl rfl rfl rfl rfl rfl rfl
  · have hdrains := h.drains
    grind [SessionWriter.leave]
  · intro i
    have hbusy := h.busy i
    grind [SessionWriter.leave]

theorem Sound.start (hd : w.drains = [.returned]) (ha : w.aborted = false)
    {control data : List Ref}
    (htake : w.control = i :: control ∧ data = w.data ∨
      w.control = [] ∧ control = [] ∧ w.data = i :: data) :
    w.Leads c ({ w with control, data }.start 0 i) := by
  have hfresh : i ∉ control ∧ i ∉ data ∧ control.Pairwise (· < ·) ∧ data.Pairwise (· < ·) := by
    have hordered := h.ordered
    obtain ⟨hcontrol, rfl⟩ | ⟨hcontrol, rfl, hdata⟩ := htake
    · have hi : i ∈ w.control := hcontrol ▸ List.mem_cons_self
      rw [hcontrol, List.pairwise_cons] at hordered
      exact ⟨fun hmem => Nat.lt_irrefl i (hordered.1.1 i hmem),
        fun hmem => h.control i hi (h.data i hmem), hordered.1.2, hordered.2⟩
    · rw [hdata, List.pairwise_cons] at hordered
      exact ⟨List.not_mem_nil, fun hmem => Nat.lt_irrefl i (hordered.2.1 i hmem), .nil,
        hordered.2.2⟩
  have hclosing : w.Closing → ({ w with control, data }.start 0 i).Closing := by
    intro hclosing t ht hterminal hphase
    unfold SessionWriter.start at hterminal hphase ⊢
    change t < w.items.size at ht
    have hi := (h.queued i).mp (by grind)
    obtain ⟨hlast, hflag, hdata, hsealed⟩ := hclosing t ht (by grind) (by grind)
    obtain ⟨hcontrol, rfl⟩ | ⟨-, -, hnone⟩ := htake
    · refine ⟨hlast, hflag, hdata, fun hmem => ?_⟩
      obtain hmem | hmem := List.mem_append.mp hmem
      · -- The terminal was not sealed while another item waited.
        exact absurd ((hsealed hmem).1.symm.trans hcontrol) (by simp)
      · obtain rfl := List.mem_singleton.mp hmem
        -- Nothing that waits was accepted after the terminal.
        have hrest : control = [] := by
          refine List.eq_nil_iff_forall_not_mem.mpr fun j hj => ?_
          have hlt := (List.pairwise_cons.mp (hcontrol ▸ h.ordered.1)).1 j hj
          have hsize := ((h.queued j).mp (.inl (hcontrol ▸ List.mem_cons_of_mem t hj))).1
          grind
        refine ⟨hrest, w.sealings, rfl, fun j hj hkept => h.placed ha j (by grind) ?_ (by grind)⟩
        intro hwaits
        have hmem := (h.queued j).mpr ⟨by grind, hwaits⟩
        grind
    · rw [hdata] at hnone
      cases hnone
  refine ⟨?_, ?_, fun _ => hclosing⟩ <;> clear hclosing <;> unfold SessionWriter.start <;>
    cases h <;> constructor <;> grind

theorem Sound.loop (hd : w.drains = [.returned]) : w.Leads c (w.loop 0) := by
  unfold SessionWriter.loop
  split
  · exact h.refl
  rename_i ha
  have ha : w.aborted = false := by simpa using ha
  split
  · rename_i hcontrol
    exact h.start hd ha (.inl ⟨hcontrol, rfl⟩)
  · rename_i hcontrol hdata
    have hstart := h.start (c := c) hd ha (.inr ⟨hcontrol, rfl, hdata⟩)
    rwa [← hcontrol] at hstart
  · exact h.refl

theorem Sound.run : w.Leads c w.run := by
  unfold SessionWriter.run
  split
  · exact h.refl
  rename_i hrunning
  have hd : w.drains = [] := by cases h; grind
  have hbegin : w.Leads c { w with running := true, drains := [Drain.returned] } := by
    refine Sound.shift { h with drains := .inr ⟨.returned, rfl, rfl, ?_⟩, sealings := ?_ }
      rfl rfl rfl rfl rfl rfl rfl
    · have hdrains := h.drains
      grind
    · intro ha
      rw [h.sealings ha, hd]
      rfl
  rw [hd]
  exact hbegin.trans (hbegin.sound.loop rfl)

theorem Sound.stop (hd : w.drains = [.returned]) :
    w.Leads c { w with running := false, drains := [] } := by
  refine Sound.shift { h with drains := .inl ⟨rfl, rfl, ?_⟩, sealings := ?_ }
    rfl rfl rfl rfl rfl rfl rfl
  · have hdrains := h.drains
    grind
  · intro ha
    rw [h.sealings ha, hd]
    rfl

/-- There is one call of `#drain` at most. -/
theorem Sound.single {k : Nat} (hk : w.drains[k]? = some d) : k = 0 ∧ w.drains = [d] := by
  have hdrains := h.drains
  grind

/-- The writer is retired. -/
theorem Sound.retire (hd : w.drains = [d]) : w.Leads c (w.fail.leave 0) := by
  refine h.fail.trans ((h.fail (c := c)).sound.leave (d := d) ?_ ?_) <;> grind [SessionWriter.fail]

theorem Sound.resume (k : Nat) (ok : Bool) : w.Leads c (w.resume k ok) := by
  unfold SessionWriter.resume
  split
  · exact h.refl
  all_goals
    rename_i hk
    obtain ⟨rfl, hd⟩ := h.single hk
  · split
    · exact h.seal hd (by grind)
    · exact h.retire hd
  · split
    · have hdeliver := h.deliver (c := c) hd (by grind)
      exact hdeliver.trans (hdeliver.sound.loop (by simp [SessionWriter.leave, hd]))
    · exact h.retire hd
  · have hstop := h.stop (c := c) hd
    rw [hd]
    dsimp only [List.eraseIdx]
    split
    · exact hstop.trans hstop.sound.run
    · exact hstop

/-! ### Calls -/

theorem Sound.enqueue (kind : MessageKind) (operationId : Option OperationID)
    (priority : OutboundPriority) (hcareful : c → priority = .terminal → w.data = []) :
    w.Leads c (w.enqueue kind operationId priority).1 := by
  unfold SessionWriter.enqueue
  split
  · exact h.refl
  split
  · exact h.refl
  split
  · exact h.refl
  have hpush : w.Leads c (w.push priority ⟨kind, operationId, priority, .queued, false, none⟩) := by
    refine ⟨?_, ?_, fun hc hclosing t ht hterminal hkept => ?_⟩
    · cases h
      constructor <;> grind [push]
    · constructor <;> grind [push]
    · -- A terminal that was accepted before has been withdrawn, so this is the new item.
      obtain rfl : t = w.items.size := by
        by_contra hne
        have hlt : t < w.items.size := Nat.lt_of_le_of_ne (Nat.le_of_lt_succ ht) hne
        have hold := hclosing t hlt
        grind [push]
      have hfresh : w.items.size ∉ w.sealings := fun hmem =>
        Nat.lt_irrefl _ (h.begun _ hmem).1
      grind [push]
  exact hpush.trans hpush.sound.run

theorem Sound.withdraw (hi : i < w.items.size)
    (hphase : (w.items.get i).phase = .queued) : w.Leads c (w.withdraw i) := by
  have herase {queue : List Ref} (hqueue : queue.Pairwise (· < ·)) :
      (queue.erase i).Pairwise (· < ·) ∧ ∀ j, j ∈ queue.erase i ↔ j ≠ i ∧ j ∈ queue :=
    ⟨hqueue.sublist List.erase_sublist, fun _ => List.Nodup.mem_erase_iff (hqueue.imp Nat.ne_of_lt)⟩
  have hcontrol := herase h.ordered.1
  have hdata := herase h.ordered.2
  refine ⟨?_, ?_, fun hc hclosing t ht hterminal hkept => ?_⟩
  · unfold SessionWriter.withdraw
    cases h
    constructor <;> grind
  · constructor <;> grind [SessionWriter.withdraw]
  · have hne : t ≠ i := by
      rintro rfl
      grind [SessionWriter.withdraw]
    have hother := hclosing i hi
    obtain ⟨hlast, hflag, hnone, hsealed⟩ := hclosing t ht (by grind [SessionWriter.withdraw])
      (by grind [SessionWriter.withdraw])
    have hpriority : (w.items.get i).priority ≠ .terminal := by grind
    refine ⟨hlast, by simp [SessionWriter.withdraw, hflag, hpriority], ?_, fun hmem => ?_⟩
    · grind [SessionWriter.withdraw]
    · obtain ⟨hempty, before, hbefore, hall⟩ := hsealed hmem
      exact ⟨by grind [SessionWriter.withdraw], before, hbefore,
        fun j hj hstays => hall j hj (by grind [SessionWriter.withdraw])⟩

theorem Sound.cancel (hi : i < w.items.size) : w.Leads c (w.cancel i).1 := by
  unfold SessionWriter.cancel
  dsimp only
  split
  · exact h.refl
  · rename_i hphase
    exact h.withdraw hi hphase
  · split
    · cases h
      refine ⟨by constructor <;> grind, by constructor <;> grind,
        fun _ hw => hw.of_same rfl ?_ rfl id id rfl⟩
      grind
    · exact h.refl

theorem Sound.cancelPendingMessages (operationId : OperationID) :
    w.Leads c (w.cancelPendingMessages operationId) := by
  have hfold : ∀ is : List Ref, (∀ i ∈ is, i < w.items.size) → ∀ v, w.Leads c v →
      w.Leads c (is.foldl (fun v i => if (w.items.get i).kind ≠ .cancel ∧
        (w.items.get i).operationId = some operationId then (v.cancel i).1 else v) v) := by
    intro is
    induction is with
    | nil => exact fun _ v hv => hv
    | cons i is ih =>
      intro his v hv
      refine ih (fun j hj => his j (List.mem_cons_of_mem i hj)) _ ?_
      dsimp only
      split
      · have hi := his i List.mem_cons_self
        exact hv.trans (hv.sound.cancel (Nat.lt_of_lt_of_le hi hv.extends'.size))
      · exact hv
  refine hfold _ (fun i hi => ?_) w h.refl
  have hqueued := h.queued i
  have hactive := h.active i
  grind

/-- The terminal is enqueued only while no data waits. -/
def Action.Careful (w : SessionWriter) : Action → Prop
  | .enqueue _ _ priority => priority = .terminal → w.data = []
  | _ => True

theorem Sound.act (action : Action) (hcareful : c → action.Careful w) :
    w.Leads c (w.act action) := by
  cases action with
  | enqueue kind operationId priority => exact h.enqueue kind operationId priority hcareful
  | cancel =>
    change w.Leads c (if _ then _ else _)
    split
    · exact h.cancel ‹_›
    · exact h.refl
  | cancelPendingMessages operationId => exact h.cancelPendingMessages operationId
  | resume k ok => exact h.resume k ok
  | timeout =>
    change w.Leads c (if _ then _ else _)
    split
    · exact h.fail
    · exact h.refl
  | fail => exact h.fail

end

/-! ### Runs -/

theorem sound_of_reachable (h : system.Reachable w) : w.Sound := by
  refine h.invariant (fun _ hinit => hinit ▸ sound_new) fun _ action _ hsound hstep => ?_
  exact hstep ▸ (hsound.act (c := False) action False.elim).sound

theorem Sound.later (h : w.Sound) (hlater : system.Later w v) : w.Leads False v :=
  hlater.stable h.refl fun _ action _ hleads hstep =>
    hleads.trans (hstep ▸ hleads.sound.act action False.elim)

/-- Nothing waits and nothing is being sealed or sent. -/
def Idle (w : SessionWriter) : Prop := w.control = [] ∧ w.data = [] ∧ w.active = none

/-- The session writer in every state of every run. At most one item is being sealed or sent.
The channel is given frames in the order of their sealing and, unless the writer has failed,
every frame but that of the item being sealed. A writer that has failed seals and sends nothing
more. An item whose cancellation answers that it is withdrawn is never sealed. A completion is
settled once the writer is idle or has failed, and for good. -/
theorem ordered_delivery (h : system.Reachable w) :
    (∀ i < w.items.size, (w.items.get i).phase.isBusy = true → w.active = some i) ∧
      w.drains.length ≤ 1 ∧
    w.handed <+: w.sealings ∧
    (w.aborted = false → w.sealings = w.handed ∨
      ∃ i, w.active = some i ∧ w.sealings = w.handed ++ [i]) ∧
    (w.aborted = true → ∀ v, system.Later w v →
      v.sealings = w.sealings ∧ v.handed = w.handed) ∧
    (∀ i < w.items.size, (w.cancel i).2 = .withdrawn →
      ∀ v, system.Later (w.cancel i).1 v → i ∉ v.sealings) ∧
    (w.Idle ∨ w.aborted = true → ∀ i < w.items.size, (w.items.get i).completion ≠ none) ∧
    ∀ v, system.Later w v → ∀ i < w.items.size, (w.items.get i).completion ≠ none →
      (v.items.get i).completion = (w.items.get i).completion := by
  have hsound := sound_of_reachable h
  refine ⟨fun i hi hbusy => ((hsound.busy i).mp ⟨hi, hbusy⟩).1, ?_, hsound.handed, ?_, ?_, ?_, ?_,
    ?_⟩
  · have hdrains := hsound.drains
    grind
  · intro ha
    rw [hsound.sealings ha]
    obtain ⟨hd, -, -⟩ | ⟨d, hd, -, hactive⟩ := hsound.drains
    · exact .inl (by simp [hd, inSealing])
    · rw [hd, hactive]
      cases d with
      | sealing i => exact .inr ⟨i, rfl, rfl⟩
      | sending | returned => exact .inl (List.append_nil _)
  · intro ha v hlater
    exact ((hsound.later hlater).extends'.ceased ha).2
  · intro i hi hanswer v hlater hmem
    have hcancel := hsound.cancel (c := False) hi
    have hwithdrawn : ((w.cancel i).1.items.get i).phase = .withdrawn := by
      unfold SessionWriter.cancel SessionWriter.withdraw at hanswer ⊢
      grind
    have hleads := hcancel.sound.later hlater
    have hi' := Nat.lt_of_lt_of_le hi hcancel.extends'.size
    exact (hleads.sound.begun i hmem).2.2 (hleads.extends'.withdrawn i hi' hwithdrawn)
  · intro hover i hi hnone
    have hsettled := hsound.settled i hi hnone
    have hqueued := hsound.queued i
    have hbusy := hsound.busy i
    have hfailed := hsound.failed
    unfold Idle at hover
    grind
  · intro v hlater
    exact (hsound.later hlater).extends'.settled

/-- A request is being sealed, a second one waits, and the channel fails. -/
def retiredRun : SessionWriter :=
  [.enqueue .listChildren none .control, .enqueue .listChildren none .control, .resume 0 true,
    .resume 0 false].foldl act new

theorem retiredRun_reachable : system.Reachable retiredRun :=
  System.reachable_foldl (· = new) act rfl _

/-- Both requests are rejected, and only the first was given to the channel. -/
theorem ordered_delivery_retiredRun : retiredRun.handed = [0] ∧ retiredRun.aborted = true ∧
    ∀ i < 2, (retiredRun.items.get i).completion ≠ none :=
  ⟨rfl, rfl, (ordered_delivery retiredRun_reachable).2.2.2.2.2.2.1 (.inr rfl)⟩

/-! ### The terminal frame -/

/-- The runs in which no data waits when the terminal is enqueued. -/
def carefulSystem : System SessionWriter Action where
  init := (· = new)
  step w action v := action.Careful w ∧ w.act action = v

/-- In a careful run, once the terminal is being sealed it is the last frame, for the channel
too, and everything accepted before it was sealed before it unless it was withdrawn. -/
theorem terminal_last (h : carefulSystem.Reachable w) {t : Ref} (ht : t ∈ w.sealings)
    (hterminal : (w.items.get t).priority = .terminal) :
    ∃ before, w.sealings = before ++ [t] ∧ t ∉ before ∧ w.handed <+: before ++ [t] ∧
      ∀ i < t, (w.items.get i).phase ≠ .withdrawn → i ∈ before := by
  have hboth : w.Sound ∧ w.Closing := by
    refine h.invariant (P := fun v => v.Sound ∧ v.Closing) (fun v hinit => ?_)
      fun v action u ⟨hsound, hclosing⟩ ⟨hcareful, hstep⟩ => ?_
    · obtain rfl : v = new := hinit
      exact ⟨sound_new, fun _ hlt => absurd hlt (Nat.not_lt_zero _)⟩
    · have hleads := hsound.act (c := True) action fun _ => hcareful
      rw [hstep] at hleads
      exact ⟨hleads.sound, hleads.closing trivial hclosing⟩
  obtain ⟨hsound, hclosing⟩ := hboth
  obtain ⟨hlt, -, hkept⟩ := hsound.begun t ht
  obtain ⟨-, before, hsealings, hall⟩ := (hclosing t hlt hterminal hkept).2.2.2 ht
  have hdistinct := hsound.distinct
  rw [hsealings, List.nodup_append] at hdistinct
  exact ⟨before, hsealings, fun hmem => hdistinct.2.2 t hmem t List.mem_cons_self rfl,
    hsealings ▸ hsound.handed, hall⟩

/-- Two frames of data and the terminal are enqueued while the first is being sealed. -/
def overtakingRun : SessionWriter :=
  [.enqueue .blockFragment none .data, .enqueue .blockFragment none .data,
    .enqueue .sessionTerminal none .terminal, .resume 0 true, .resume 0 true, .resume 0 true,
    .resume 0 true, .resume 0 true, .resume 0 true].foldl act new

/-- The terminal overtakes the data that waits: the second frame is sealed and handed to the
channel after it. -/
theorem data_after_terminal : system.Reachable overtakingRun ∧
    (overtakingRun.items.get 2).priority = .terminal ∧ (overtakingRun.items.get 1).phase = .sent ∧
    overtakingRun.sealings = [0, 2, 1] ∧ overtakingRun.handed = [0, 2, 1] :=
  ⟨System.reachable_foldl (· = new) act rfl _, by
    simp [overtakingRun, act, enqueue, push, run, loop, SessionWriter.start,
      SessionWriter.resume, SessionWriter.leave, new, isFull, sessionDataQueue,
      sessionControlQueue, Heap.get_modify, Heap.get_alloc, OutboundItem.enter,
      OutboundItem.settle]⟩

theorem careful_act (h : carefulSystem.Reachable w) (action : Action) (ha : action.Careful w) :
    carefulSystem.Reachable (w.act action) := h.step (e := action) ⟨ha, rfl⟩

/-- A request and then the terminal, which is sealed last. -/
theorem terminal_last_request : ∃ w, carefulSystem.Reachable w ∧
    ∃ before, w.sealings = before ++ [1] ∧ 0 ∈ before := by
  have hreach := careful_act (careful_act (careful_act (careful_act (.of_init rfl)
    (.enqueue .listChildren none .control) nofun)
    (.enqueue .sessionTerminal none .terminal) fun _ => rfl)
    (.resume 0 true) trivial) (.resume 0 true) trivial
  obtain ⟨before, hsealings, -, -, hall⟩ := terminal_last (t := 1) hreach (by decide) rfl
  exact ⟨_, hreach, before, hsealings, hall 0 (by decide) (by decide)⟩

/-! ### The order of the queues -/

/-- The items whose sealing began and, behind them, those that wait. -/
def line (w : SessionWriter) : List Ref := w.sealings ++ (w.control ++ w.data)

/-- Items of one queue stand in the order in which they were accepted. -/
def InTurn (w : SessionWriter) (is : List Ref) : Prop :=
  is.Pairwise fun i j =>
    ((w.items.get i).priority = .data ↔ (w.items.get j).priority = .data) → i < j

/-- Nobody joins the line or changes places. -/
structure Thins (w v : SessionWriter) : Prop where
  line : v.line.Sublist w.line
  priority : ∀ i, (v.items.get i).priority = (w.items.get i).priority

namespace Thins

theorem refl (w : SessionWriter) : w.Thins w := ⟨.refl _, fun _ => rfl⟩

theorem inTurn (h : w.Thins v) (hw : w.InTurn w.line) : v.InTurn v.line := by
  unfold InTurn
  simp only [h.priority]
  exact List.Pairwise.sublist h.line hw

variable (h : w.Thins v)

include h

theorem fail : w.Thins v.fail := by
  unfold SessionWriter.fail
  split
  · exact h
  refine ⟨(List.Sublist.append_left (List.nil_sublist _) _).trans h.line, fun j => ?_⟩
  rw [← h.priority j]
  have hget := get_foldl_modify (f := fun item => (item.enter .failed).settle .rejected)
    (fun a => by grind) (v.active.toList ++ (v.control ++ v.data)) v.items j
  grind

theorem loop (k : Nat) : w.Thins (v.loop k) := by
  obtain ⟨hline, hpriority⟩ := h
  unfold SessionWriter.loop
  split
  · exact ⟨hline, hpriority⟩
  split
  · rename_i hcontrol
    rw [SessionWriter.line, hcontrol] at hline
    refine ⟨by simpa [SessionWriter.line, start] using hline, ?_⟩
    clear hline
    grind [start]
  · rename_i hcontrol hdata
    rw [SessionWriter.line, hcontrol, hdata] at hline
    refine ⟨by simpa [SessionWriter.line, start, hcontrol] using hline, ?_⟩
    clear hline
    grind [start]
  · exact ⟨hline, hpriority⟩

theorem run : w.Thins v.run := by
  unfold SessionWriter.run
  split
  · exact h
  · apply loop
    exact ⟨h.line, h.priority⟩

theorem resume (k : Nat) (ok : Bool) : w.Thins (v.resume k ok) := by
  have hretire : w.Thins (v.fail.leave k) := ⟨h.fail.line, h.fail.priority⟩
  have hpriority := h.priority
  unfold SessionWriter.resume
  split
  · exact h
  · split
    · exact ⟨h.line, by grind⟩
    · exact hretire
  · split
    · apply loop
      exact ⟨h.line, by grind [leave]⟩
    · exact hretire
  · dsimp only
    split
    · exact run ⟨h.line, h.priority⟩
    · exact ⟨h.line, h.priority⟩

theorem cancel (i : Ref) : w.Thins (v.cancel i).1 := by
  have hpriority := h.priority
  unfold SessionWriter.cancel
  dsimp only
  split
  · exact h
  · refine ⟨(List.Sublist.append_left (.append ?_ ?_) _).trans h.line, by grind [withdraw]⟩
    all_goals
      unfold withdraw
      dsimp only
      split
      all_goals first | exact .refl _ | exact List.erase_sublist
  · split
    · exact ⟨h.line, by grind⟩
    · exact h

end Thins

theorem Sound.inTurn_push (h : w.Sound) (hw : w.InTurn w.line) (item : OutboundItem) :
    (w.push item.priority item).InTurn (w.push item.priority item).line := by
  have hlt : ∀ i ∈ w.line, i < w.items.size := by
    intro i hi
    obtain hi | hi := List.mem_append.mp hi
    · exact (h.begun i hi).1
    · exact ((h.queued i).mp (List.mem_append.mp hi)).1
  have hold : (w.push item.priority item).InTurn w.line := by
    refine List.Pairwise.imp_of_mem (fun {i j} hi hj hij => ?_) hw
    have hi := hlt i hi
    have hj := hlt j hj
    grind [push]
  have hcontrol := h.control
  have hdata := h.data
  unfold InTurn line at hold ⊢
  simp only [List.pairwise_append] at hold ⊢
  grind [push, line]

theorem Sound.inTurn_act (h : w.Sound) (hw : w.InTurn w.line) (action : Action) :
    (w.act action).InTurn (w.act action).line := by
  cases action with
  | enqueue kind operationId priority =>
    change InTurn (SessionWriter.enqueue _ _ _ _).1 (SessionWriter.enqueue _ _ _ _).1.line
    unfold SessionWriter.enqueue
    split
    · exact hw
    split
    · exact hw
    split
    · exact hw
    refine (Thins.refl _).run.inTurn ?_
    exact h.inTurn_push hw ⟨kind, operationId, priority, .queued, false, none⟩
  | cancel i =>
    change InTurn (if _ then _ else _) (SessionWriter.line (if _ then _ else _))
    split
    · exact ((Thins.refl w).cancel i).inTurn hw
    · exact hw
  | cancelPendingMessages operationId =>
    refine Thins.inTurn (List.foldlRecOn _ _ (Thins.refl w) fun v hv i _ => ?_) hw
    split
    · exact hv.cancel i
    · exact hv
  | resume k ok => exact ((Thins.refl w).resume k ok).inTurn hw
  | timeout =>
    change InTurn (if _ then _ else _) (SessionWriter.line (if _ then _ else _))
    split
    · exact (Thins.refl w).fail.inTurn hw
    · exact hw
  | fail => exact (Thins.refl w).fail.inTurn hw

/-- Items of one queue are sealed, and given to the channel, in the order in which they were
accepted, and those that wait will be. -/
theorem sealed_in_turn (h : system.Reachable w) :
    w.InTurn (w.sealings ++ (w.control ++ w.data)) ∧ w.InTurn w.handed := by
  have hboth : w.Sound ∧ w.InTurn w.line := by
    refine h.invariant (P := fun v => v.Sound ∧ v.InTurn v.line) (fun v hinit => ?_) ?_
    · obtain rfl : v = new := hinit
      exact ⟨sound_new, .nil⟩
    · rintro v action _ ⟨hsound, hturn⟩ rfl
      exact ⟨(hsound.act (c := False) action False.elim).sound, hsound.inTurn_act hturn action⟩
  refine ⟨hboth.2, List.Pairwise.sublist ?_ hboth.2⟩
  exact hboth.1.handed.sublist.trans (List.sublist_append_left _ _)

/-- The terminal overtakes data only. -/
theorem sealed_in_turn_overtaking : overtakingRun.InTurn overtakingRun.handed :=
  (sealed_in_turn (System.reachable_foldl (· = new) act rfl _)).2

end SessionWriter

end Windshare.Session
