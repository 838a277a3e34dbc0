import Windshare.Library.Transition
import Windshare.Relay.Flow.Checkpoint

/-!
# Runs of a ledger

A host calls the operations of a ledger in any order and at any times, with any totals
its peer reports. It keeps the receipts the ledger issued, and it has the retirements of
sessions. Once a session is retired its routes are not validated again; that and the
origin of receipts is all a run assumes of its host.
-/

namespace Windshare.Relay.Flow

open Windshare.Library Txn

/-- A ledger with the receipts its host keeps and the sessions that were retired. -/
structure Host where
  ledger : ConnectionLedger
  receipts : List ReceivedFrame
  retired : List SessionKey

/-- A call and its time. -/
structure Call where
  op : Op
  now : UnixMillis

namespace Host

variable (host : Host)

def Allows : Op → Prop
  | .openFlow route _ => route.session ∉ host.retired
  | .grant _ route _ => route.session ∉ host.retired
  | .receive _ route _ => route.session ∉ host.retired
  | .submit route frame => route.session ∉ host.retired ∧ frame ∈ host.receipts
  | _ => True

/-- What a call returns and the ledger it leaves. -/
def exec (call : Call) : Except (Fault Refusal) Reply × ConnectionLedger :=
  (call.op.run call.now).exec host.ledger

/-- The receipts a reply hands to the host. -/
def issuedBy : Except (Fault Refusal) Reply → List ReceivedFrame
  | .ok (.received frame) => [frame]
  | _ => []

/-- The sessions whose retirement an operation brings. -/
def retiredBy : Op → List SessionKey
  | .retire session => [session]
  | _ => []

def perform (call : Call) : Host where
  ledger := (host.exec call).2
  receipts := host.receipts ++ issuedBy (host.exec call).1
  retired := host.retired ++ retiredBy call.op

/-- A connection that is opened, or that a checkpoint restores. Entries restored as retired
are of retired sessions; receipts are not kept by a checkpoint. -/
def Starts : Prop :=
  host.receipts = [] ∧
    host.retired = (host.ledger.entries.iter.filter (·.state ≠ .opened)).map (·.key.session) ∧
    ∃ relay destination limits maxFlows,
      (maxFlows ≠ 0 ∧ host.ledger = .new relay destination limits maxFlows) ∨
        ∃ checkpoint allocates, (ConnectionLedger.restore maxFlows checkpoint allocates).exec
          (.new relay destination limits maxFlows) = (.ok (), host.ledger)

def system : System Host Call where
  init := Starts
  step host call next := host.Allows call.op ∧ host.perform call = next

end Host

/-! ### Slots over an operation -/

/-- What happens to a delivery that stays: its consumed prefix grows, and once it is
retired its retained prefix shrinks, which grows before. -/
structure Delivery.Evolves (e : Delivery) (op : Op) (e' : Delivery) : Prop where
  key : e'.key = e.key
  consumed_le : ∀ d, e.consumed.amount d ≤ e'.consumed.amount d
  retired : e.state ≠ .opened → e'.state ≠ .opened
  retained_le : e.state ≠ .opened → ∀ d, e'.retained.amount d ≤ e.retained.amount d
  le_retained : e'.state = .opened → ∀ d, e.retained.amount d ≤ e'.retained.amount d
  by_retire : e.state = .opened → e'.state ≠ .opened → op = .retire e.key.session

theorem Delivery.Evolves.refl (op : Op) (e : Delivery) : e.Evolves op e :=
  ⟨rfl, fun _ => Nat.le_refl _, fun h => h, fun _ _ => Nat.le_refl _, fun _ _ => Nat.le_refl _,
    fun h h' => absurd h h'⟩

variable {op : Op} {reply : Reply} {e : Delivery} {l' : ConnectionLedger} {next : Option Delivery}
  {e' : Delivery} {receipts : List ReceivedFrame}

theorem Delivery.Evolves.of_opened {e e' : Delivery} (hkey : e'.key = e.key)
    (hopen : e.state = .opened) (hopen' : e'.state = .opened) (hconsumed : e'.consumed = e.consumed)
    (hgranted : ∀ d, e.granted.amount d ≤ e'.granted.amount d) : e.Evolves op e' where
  key := hkey
  consumed_le := fun d => hconsumed ▸ Nat.le_refl _
  retired := fun h => absurd hopen h
  retained_le := fun h => absurd hopen h
  le_retained := fun _ d => by
    simp only [Delivery.retained, hopen, hopen']
    exact hgranted d
  by_retire := fun _ h => absurd hopen' h

namespace ConnectionLedger

/-- What an operation does to one slot. -/
inductive SlotStep (l l' : ConnectionLedger) (op : Op) (i : Nat) : Prop
  | kept (h : l'.entries.get i = l.entries.get i)
  | evolved (e e' : Delivery) (he : l.entries.get i = some e) (he' : l'.entries.get i = some e')
      (h : e.Evolves op e')
  | removed (e : Delivery) (he : l.entries.get i = some e) (hnone : l'.entries.get i = none)
      (h : e.state ≠ .opened ∨ l'.state = .closed)
  | opened (route : ForwardPermit) (allocates : Bool) (startup : Counts)
      (hop : op = .openFlow route allocates) (hnone : l.entries.get i = none)
      (he : l'.entries.get i = some (.new ⟨i, route⟩ l.limits.startupGrant startup))
      (hopen : l.state = .opened)
      (hroute : route.session.relay = l.relay ∧ route.destination = l.destination)
      (hnew : ∀ j e, l.entries.get j = some e → e.key.permit ≠ route)
      (hdeclared : l.receiveCapacity ≠ none)

variable {l : ConnectionLedger}

/-- The delivery a write finds and the one it leaves. -/
theorem Write.evolves {slot : Nat} (h : Write l op reply slot next)
    (hready : Ready l) (he : l.entries.get slot = some e) :
    (∃ e', next = some e' ∧ e.Evolves op e') ∨ next = none ∧ e.state ≠ .opened := by
  cases h with
  | opened route allocates slot startup hopen hroute hnew hvacant =>
    rw [hvacant] at he
    cases he
  | granted flow route credit total e₀ hroute he₀ hopen htotal =>
    rw [(delivery_eq_some.mp he₀).1] at he
    cases he
    refine .inl ⟨_, rfl, .of_opened rfl hopen hopen rfl ?_⟩
    intro d
    have := Counts.add_eq_some.mp htotal d
    simp only
    omega
  | received flow route header total e₀ hroute he₀ hopen
  | submitted frame route total e₀ hroute he₀ hopen =>
    rw [(delivery_eq_some.mp he₀).1] at he
    cases he
    exact .inl ⟨_, rfl, .of_opened rfl hopen hopen rfl fun _ => Nat.le_refl _⟩
  | retired session deadline e₀ he₀ hopen hsession =>
    rw [(delivery_eq_some.mp he₀).1] at he
    cases he
    exact .inl ⟨_, rfl, rfl, fun _ => Nat.le_refl _, fun h => absurd hopen h,
      fun h => absurd hopen h, fun h => (by cases h), fun _ _ => by rw [hsession]⟩
  | discarded flow deadline e₀ he₀ hstate =>
    have hordered := hready.ordered he₀
    rw [(delivery_eq_some.mp he₀).1] at he
    cases he
    refine .inl ⟨_, rfl, rfl, fun _ => Nat.le_refl _, fun _ h => (by cases h),
      fun _ d => ?_, fun h => (by cases h), fun h => ?_⟩
    · simp only [Delivery.retained, hstate]
      exact hordered.submitted_le d
    · rw [hstate] at h
      cases h
  | discardedAll flow e₀ he₀ hstate =>
    rw [(delivery_eq_some.mp he₀).1] at he
    cases he
    exact .inr ⟨rfl, hstate⟩
  | consumed flow source total released e₀ he₀ hreleased =>
    rw [(delivery_eq_some.mp he₀).1] at he
    cases he
    refine .inl ⟨_, rfl, rfl, fun d => ?_, fun h => h, fun _ _ => Nat.le_refl _,
      fun _ _ => Nat.le_refl _, fun h h' => absurd h h'⟩
    have := Counts.sub_eq_some.mp hreleased d
    simp only
    omega
  | consumedAll flow source released e₀ deadline he₀ hstate =>
    rw [(delivery_eq_some.mp he₀).1] at he
    cases he
    exact .inr ⟨rfl, by rw [hstate]; exact fun h => by cases h⟩
  | settled flow source released e₀ deadline he₀ hstate =>
    rw [(delivery_eq_some.mp he₀).1] at he
    cases he
    exact .inr ⟨rfl, by rw [hstate]; exact fun h => by cases h⟩

/-- A write finds a delivery, or opens one. -/
theorem Write.opens {slot : Nat} (h : Write l op reply slot next)
    (hnone : l.entries.get slot = none) :
    ∃ route allocates startup, op = .openFlow route allocates ∧
      next = some (.new ⟨slot, route⟩ l.limits.startupGrant startup) ∧ l.state = .opened ∧
      (route.session.relay = l.relay ∧ route.destination = l.destination) ∧
      (∀ j e, l.entries.get j = some e → e.key.permit ≠ route) ∧ l.receiveCapacity ≠ none := by
  have hfound {flow : FlowKey} {e : Delivery} (he : l.delivery flow = some e)
      (hslot : l.entries.get flow.slot = none) : False := by
    rw [(delivery_eq_some.mp he).1] at hslot
    cases hslot
  cases h with
  | opened route allocates slot startup hopen hroute hnew hvacant hdeclared =>
    exact ⟨route, allocates, startup, rfl, rfl, hopen, hroute, hnew, hdeclared⟩
  | granted flow route credit total e hroute he | received flow route header total e hroute he
  | submitted frame route total e hroute he | retired session deadline e he
  | discarded flow deadline e he | discardedAll flow e he
  | consumed flow source total released e he | consumedAll flow source released e deadline he
  | settled flow source released e deadline he =>
    exact (hfound he hnone).elim

theorem Effect.slot (h : Effect l op reply l') (hready : Ready l) (i : Nat) :
    SlotStep l l' op i := by
  cases h with
  | idle | declared => exact .kept rfl
  | closed =>
    cases he : l.entries.get i with
    | none => exact .kept (by rw [he]; rfl)
    | some e => exact .removed e he rfl (.inr rfl)
  | @wrote op reply slot next l' hwrite hreplaced =>
    by_cases hi : i = slot
    · subst hi
      have hnext : l'.entries.get i = next := by rw [hreplaced.get, if_pos rfl]
      cases he : l.entries.get i with
      | none =>
        obtain ⟨route, allocates, startup, hop, rfl, hopen, hroute, hnew, hdeclared⟩ :=
          hwrite.opens he
        exact .opened route allocates startup hop he hnext hopen hroute hnew hdeclared
      | some e =>
        obtain ⟨e', rfl, hevolves⟩ | ⟨rfl, hstate⟩ := hwrite.evolves hready he
        · exact .evolved e e' he hnext hevolves
        · exact .removed e he hnext (.inl hstate)
    · exact .kept (by rw [hreplaced.get, if_neg hi])

/-- Where a delivery comes from. -/
theorem SlotStep.origin {i : Nat} (h : SlotStep l l' op i)
    (he' : l'.entries.get i = some e') :
    (∃ e, l.entries.get i = some e ∧ e.Evolves op e') ∨
      l.entries.get i = none ∧ ∃ route allocates startup, op = .openFlow route allocates ∧
        e' = .new ⟨i, route⟩ l.limits.startupGrant startup ∧ l.state = .opened ∧
        (route.session.relay = l.relay ∧ route.destination = l.destination) ∧
        (∀ j e, l.entries.get j = some e → e.key.permit ≠ route) ∧ l.receiveCapacity ≠ none := by
  cases h with
  | kept h => exact .inl ⟨e', h ▸ he', .refl op e'⟩
  | evolved e e₁ he he₁ h =>
    obtain rfl : e₁ = e' := Option.some.inj (he₁.symm.trans he')
    exact .inl ⟨e, he, h⟩
  | removed e he hnone =>
    rw [hnone] at he'
    cases he'
  | opened route allocates startup hop hnone he hopen hroute hnew hdeclared =>
    exact .inr ⟨hnone, route, allocates, startup, hop, Option.some.inj (he'.symm.trans he),
      hopen, hroute, hnew, hdeclared⟩

/-- What becomes of a delivery. -/
theorem SlotStep.fate {i : Nat} (h : SlotStep l l' op i) (he : l.entries.get i = some e) :
    (∃ e', l'.entries.get i = some e' ∧ e.Evolves op e') ∨
      l'.entries.get i = none ∧ (e.state ≠ .opened ∨ l'.state = .closed) := by
  cases h with
  | kept h => exact .inl ⟨e, h.trans he, .refl op e⟩
  | evolved e₁ e' he₁ he' h =>
    obtain rfl : e₁ = e := Option.some.inj (he₁.symm.trans he)
    exact .inl ⟨e', he', h⟩
  | removed e₁ he₁ hnone h =>
    obtain rfl : e₁ = e := Option.some.inj (he₁.symm.trans he)
    exact .inr ⟨hnone, h⟩
  | opened route allocates startup hop hnone =>
    rw [hnone] at he
    cases he

/-- What an effect leaves as it is. -/
theorem Effect.frame (h : Effect l op reply l') :
    l'.relay = l.relay ∧ l'.destination = l.destination ∧ l'.limits = l.limits ∧
      (l.state = .closed → l'.state = .closed) ∧
      (l'.state = .closed → l.state = .closed ∨ ∀ i, l'.entries.get i = none) ∧
      (l'.receiveCapacity = none → l.receiveCapacity = none) := by
  cases h with
  | idle => exact ⟨rfl, rfl, rfl, fun h => h, .inl, fun h => h⟩
  | declared => exact ⟨rfl, rfl, rfl, fun h => h, .inl, fun h => by cases h⟩
  | closed =>
    exact ⟨rfl, rfl, rfl, fun _ => rfl, fun _ => .inr fun _ => rfl, fun h => h⟩
  | wrote hwrite hreplaced =>
    exact ⟨hreplaced.relay, hreplaced.destination, hreplaced.limits,
      fun h => hreplaced.state.trans h, fun h => .inl (hreplaced.state.symm.trans h),
      fun h => hreplaced.receiveCapacity.symm.trans h⟩

end ConnectionLedger

/-! ### Soundness -/

/-- The receipts of the unsubmitted frames of a flow: their sizes in order make up what was
received and not submitted. -/
def Pending (receipts : List ReceivedFrame) (e : Delivery) : Prop :=
  ∃ sizes : List Nat,
    e.received.frames.toNat = e.submitted.frames.toNat + sizes.length ∧
    e.received.encodedBytes.toNat = e.submitted.encodedBytes.toNat + sizes.sum ∧
    ∀ frame ∈ receipts, frame.flow = e.key →
      frame.ordinal.toNat ≤ e.submitted.frames.toNat ∨
        sizes[frame.ordinal.toNat - e.submitted.frames.toNat - 1]? = some frame.encodedBytes.toNat

theorem Pending.append (h : Pending receipts e)
    {frames : List ReceivedFrame} (hother : ∀ frame ∈ frames, frame.flow ≠ e.key) :
    Pending (receipts ++ frames) e := by
  obtain ⟨sizes, hframes, hbytes, hreceipts⟩ := h
  refine ⟨sizes, hframes, hbytes, fun frame hframe hkey => ?_⟩
  obtain hold | hnew := List.mem_append.mp hframe
  · exact hreceipts frame hold hkey
  · exact absurd hkey (hother frame hnew)

/-- A received frame joins the end of its queue. -/
theorem Pending.received {total : Counts} {bytes : UInt64} (h : Pending receipts e)
    (htotal : e.received.add ⟨1, bytes⟩ = some total) :
    Pending (receipts ++ [⟨e.key, total.frames, bytes⟩]) { e with received := total } := by
  obtain ⟨sizes, hframes, hbytes, hreceipts⟩ := h
  have hsum := Counts.add_eq_some.mp htotal
  have hsum₁ : total.frames.toNat = e.received.frames.toNat + 1 := hsum .frames
  have hsum₂ : total.encodedBytes.toNat = e.received.encodedBytes.toNat + bytes.toNat :=
    hsum .encodedBytes
  refine ⟨sizes ++ [bytes.toNat], ?_, ?_, fun frame hframe hkey => ?_⟩
  · simp only [List.length_append, List.length_singleton]
    omega
  · simp only [List.sum_append, List.sum_singleton]
    omega
  obtain hold | hnew := List.mem_append.mp hframe
  · obtain hdone | hsize := hreceipts frame hold hkey
    · exact .inl hdone
    · refine .inr ?_
      rw [List.getElem?_append_left (List.getElem?_eq_some_iff.mp hsize).1]
      exact hsize
  · obtain rfl := List.mem_singleton.mp hnew
    refine .inr ?_
    have hindex : total.frames.toNat - e.submitted.frames.toNat - 1 = sizes.length := by omega
    simp only [hindex]
    exact List.getElem?_concat_length

/-- A submitted frame leaves the front of its queue. -/
theorem Pending.submitted {total : Counts}
    {frame : ReceivedFrame} (h : Pending receipts e) (hframe : frame ∈ receipts)
    (hkey : frame.flow = e.key) (horder : frame.ordinal.toNat = e.submitted.frames.toNat + 1)
    (htotal : e.submitted.add ⟨1, frame.encodedBytes⟩ = some total) :
    Pending receipts { e with submitted := total } := by
  obtain ⟨sizes, hframes, hbytes, hreceipts⟩ := h
  have hsum := Counts.add_eq_some.mp htotal
  have hsum₁ : total.frames.toNat = e.submitted.frames.toNat + 1 := hsum .frames
  have hsum₂ : total.encodedBytes.toNat =
    e.submitted.encodedBytes.toNat + frame.encodedBytes.toNat := hsum .encodedBytes
  obtain hold | hsize := hreceipts frame hframe hkey
  · omega
  have hindex : frame.ordinal.toNat - e.submitted.frames.toNat - 1 = 0 := by omega
  rw [hindex] at hsize
  cases sizes with
  | nil => cases hsize
  | cons size rest =>
    obtain rfl : size = frame.encodedBytes.toNat := by simpa using hsize
    simp only [List.length_cons, List.sum_cons] at hframes hbytes
    refine ⟨rest, ?_, ?_, fun other hother hother' => ?_⟩
    · simp only
      omega
    · simp only
      omega
    obtain hdone | hsize := hreceipts other hother hother'
    · exact .inl (by simp only; omega)
    · by_cases hlast : other.ordinal.toNat ≤ total.frames.toNat
      · exact .inl hlast
      · refine .inr ?_
        have hnext : other.ordinal.toNat - e.submitted.frames.toNat - 1 =
            other.ordinal.toNat - total.frames.toNat - 1 + 1 := by omega
        rw [hnext, List.getElem?_cons_succ] at hsize
        exact hsize

namespace Host

/-- The invariant of a run. -/
structure Sound (host : Host) : Prop where
  ready : host.ledger.Ready
  routed : ∀ i e, host.ledger.entries.get i = some e →
    e.key.session.relay = host.ledger.relay ∧ e.key.destination = host.ledger.destination
  distinct : ∀ i j e e', host.ledger.entries.get i = some e →
    host.ledger.entries.get j = some e' → e.key.permit = e'.key.permit → i = j
  retired : ∀ i e, host.ledger.entries.get i = some e → e.state ≠ .opened →
    e.key.session ∈ host.retired
  closed : host.ledger.state = .closed → ∀ i, host.ledger.entries.get i = none
  pending : ∀ i e, host.ledger.entries.get i = some e → e.state = .opened → Pending host.receipts e
  issued : ∀ frame ∈ host.receipts, (∃ e, host.ledger.delivery frame.flow = some e) ∨
    frame.flow.session ∈ host.retired ∨ host.ledger.state = .closed

variable {host : Host}

theorem Starts.restored (h : host.Starts) : host.ledger.Restored := by
  obtain ⟨-, -, relay, destination, limits, maxFlows, hmade⟩ := h
  obtain ⟨-, hnew⟩ | ⟨checkpoint, allocates, hexec⟩ := hmade
  · rw [hnew]
    exact .new relay destination limits maxFlows
  · have hwp := ConnectionLedger.wp_restore relay destination limits maxFlows checkpoint allocates
    unfold wp at hwp
    rw [hexec] at hwp
    exact hwp

theorem Starts.sound (h : host.Starts) : host.Sound := by
  have hrestored := h.restored
  obtain ⟨hreceipts, hretired, -⟩ := h
  refine ⟨hrestored.ready, hrestored.routed, hrestored.distinct, ?_, hrestored.closed, ?_, ?_⟩
  · intro i e he hstate
    rw [hretired]
    apply List.mem_map_of_mem
    rw [List.mem_filter]
    exact ⟨DeliverySlots.mem_iter.mpr ⟨i, he⟩, decide_eq_true hstate⟩
  · intro i e he hopen
    have hidle := hrestored.idle i e he hopen
    refine ⟨[], by rw [hidle]; rfl, by rw [hidle]; rfl, ?_⟩
    intro frame hframe
    rw [hreceipts] at hframe
    cases hframe
  · intro frame hframe
    rw [hreceipts] at hframe
    cases hframe

/-- Time passing keeps a host sound. -/
theorem Sound.expire (h : host.Sound) (now : UnixMillis) :
    Sound { host with ledger := host.ledger.expire now } := by
  obtain ⟨state, heq, hstate, hclosed⟩ := host.ledger.expire_eq now
  have hready := h.ready.expire now
  rw [heq] at hready ⊢
  refine ⟨hready, h.routed, h.distinct, h.retired, fun hs => h.closed (hclosed hs), h.pending,
    fun frame hframe => ?_⟩
  obtain hlive | hretired | hs := h.issued frame hframe
  · exact .inl hlive
  · exact .inr (.inl hretired)
  · refine .inr (.inr ?_)
    rw [hs] at hstate
    exact hstate (by decide)

/-- A receipt continues the submitted prefix of its flow. -/
theorem Sound.queued (h : host.Sound) {frame : ReceivedFrame} (hframe : frame ∈ host.receipts) :
    host.ledger.Queued frame := by
  intro e he hopen horder d
  obtain ⟨hget, hkey⟩ := ConnectionLedger.delivery_eq_some.mp he
  obtain ⟨sizes, hframes, hbytes, hreceipts⟩ := h.pending _ e hget hopen
  obtain hold | hsize := hreceipts frame hframe hkey.symm
  · omega
  have hindex : frame.ordinal.toNat - e.submitted.frames.toNat - 1 = 0 := by omega
  rw [hindex] at hsize
  obtain ⟨rest, rfl⟩ : ∃ rest, sizes = frame.encodedBytes.toNat :: rest := by
    cases sizes with
    | nil => cases hsize
    | cons size rest =>
      obtain rfl : size = frame.encodedBytes.toNat := by simpa using hsize
      exact ⟨rest, rfl⟩
  simp only [List.length_cons, List.sum_cons] at hframes hbytes
  cases d with
  | frames =>
    change e.submitted.frames.toNat + 1 ≤ e.received.frames.toNat
    omega
  | encodedBytes =>
    change e.submitted.encodedBytes.toNat + frame.encodedBytes.toNat ≤ e.received.encodedBytes.toNat
    omega

/-- A call of a sound host returns with an effect, or is refused and changes nothing but
what time changes. -/
theorem Sound.exec_cases (h : host.Sound) (call : Call) (hallowed : host.Allows call.op) :
    (∃ reply l', host.exec call = (.ok reply, l') ∧
      (host.ledger.expire call.now).Effect call.op reply l' ∧ l'.Books) ∨
      ∃ reason, host.exec call = (.error (.refused reason), host.ledger.expire call.now) := by
  have hwp : ConnectionLedger.Performs (fun _ l' => l' = host.ledger.expire call.now)
      host.ledger call.now call.op := by
    refine ConnectionLedger.performs call.now h.ready (by exact fun _ => rfl) call.op ?_
    intro route frame hop
    rw [hop] at hallowed
    exact h.queued hallowed.2
  obtain ⟨reply, l', hexec, heffect, hbooks⟩ | ⟨reason, l', hexec, rfl⟩ := wp_cases hwp
  · exact .inl ⟨reply, l', hexec, heffect, hbooks⟩
  · exact .inr ⟨reason, hexec⟩

theorem Sound.ready_of_effect (h : host.Sound)
    (heffect : host.ledger.Effect op reply l') (hbooks : l'.Books) : l'.Ready := by
  refine ⟨hbooks, fun i e' he' => ?_, fun hnone i => ?_⟩
  · obtain ⟨e, he, hevolves⟩ | ⟨-, route, allocates, startup, -, rfl, -⟩ :=
      (heffect.slot h.ready i).origin he'
    · rw [hevolves.key]
      exact h.ready.placed i e he
    · rfl
  · have hbefore := heffect.frame.2.2.2.2.2 hnone
    cases he' : l'.entries.get i with
    | none => rfl
    | some =>
      obtain ⟨e, he, -⟩ | ⟨-, _, _, _, -, -, -, -, -, hdeclared⟩ :=
        (heffect.slot h.ready i).origin he'
      · rw [h.ready.undeclared hbefore i] at he
        cases he
      · exact absurd hbefore hdeclared

theorem issuedBy_of_idle (h : host.ledger.Idle op reply) : issuedBy (.ok reply) = [] := by
  cases reply with
  | received => cases op <;> exact h.elim
  | _ => rfl

theorem slot_of_issuedBy {slot : Nat}
    (h : host.ledger.Write op reply slot next) {frame : ReceivedFrame}
    (hframe : frame ∈ issuedBy (.ok reply)) : frame.flow.slot = slot := by
  cases h with
  | received =>
    obtain rfl := List.mem_singleton.mp hframe
    rfl
  | _ => cases hframe

/-- A write keeps the queue of an open flow. -/
theorem Sound.pending_of_write (h : host.Sound) {slot : Nat} (hallowed : host.Allows op)
    (hwrite : host.ledger.Write op reply slot (some e')) (hstate : e'.state = .opened) :
    Pending (host.receipts ++ issuedBy (.ok reply)) e' := by
  have hpending {flow : FlowKey} {e : Delivery} (he : host.ledger.delivery flow = some e)
      (hopen : e.state = .opened) : Pending host.receipts e :=
    h.pending _ e (ConnectionLedger.delivery_eq_some.mp he).1 hopen
  generalize hnext : some e' = next at hwrite
  cases hwrite with
  | opened route allocates slot startup hopen hroute hnew hvacant =>
    cases hnext
    refine ⟨[], rfl, rfl, fun frame hframe hkey => ?_⟩
    -- A receipt of this key would be of a flow that is gone, and then of a retired session.
    exfalso
    simp only [issuedBy, List.append_nil] at hframe
    obtain ⟨e, he⟩ | hretired | hclosed := h.issued frame hframe
    · rw [hkey] at he
      have := (ConnectionLedger.delivery_eq_some.mp he).1
      rw [Delivery.new, hvacant] at this
      cases this
    · rw [hkey] at hretired
      exact hallowed hretired
    · rw [hopen] at hclosed
      cases hclosed
  | granted flow route credit total e hroute he hopen =>
    cases hnext
    exact (hpending he hopen).append fun frame hframe => by cases hframe
  | received flow route header total e hroute he hopen hsession htotal =>
    cases hnext
    obtain rfl := (ConnectionLedger.delivery_eq_some.mp he).2
    exact (hpending he hopen).received htotal
  | submitted frame route total e hroute he hopen horder htotal =>
    cases hnext
    simp only [issuedBy, List.append_nil]
    exact (hpending he hopen).submitted hallowed.2
      (ConnectionLedger.delivery_eq_some.mp he).2.symm horder htotal
  | retired | discarded =>
    cases hnext
    cases hstate
  | discardedAll | consumedAll | settled => cases hnext
  | consumed flow source total released e he =>
    cases hnext
    exact (hpending he hstate).append fun frame hframe => by cases hframe

/-- An operation opens one slot at most. -/
theorem opened_unique {l l' : ConnectionLedger}
    (heffect : l.Effect op reply l') {i j : Nat} {e₁ e₂ : Delivery}
    (hi : l.entries.get i = none) (hi' : l'.entries.get i = some e₁)
    (hj : l.entries.get j = none) (hj' : l'.entries.get j = some e₂) : i = j := by
  cases heffect with
  | idle | declared => cases hi.symm.trans hi'
  | closed => cases hi'
  | @wrote op reply slot next l' hwrite hreplaced =>
    rw [hreplaced.get] at hi' hj'
    split at hi'
    · split at hj'
      · rename_i hi hj
        exact hi.trans hj.symm
      · cases hj.symm.trans hj'
    · cases hi.symm.trans hi'

/-- The queues of the open flows over an effect. -/
theorem Sound.pending_of_effect (h : host.Sound)
    (hallowed : host.Allows op) (heffect : host.ledger.Effect op reply l')
    {i : Nat} (he' : l'.entries.get i = some e') (hstate : e'.state = .opened) :
    Pending (host.receipts ++ issuedBy (.ok reply)) e' := by
  cases heffect with
  | idle hidle =>
    rw [issuedBy_of_idle hidle, List.append_nil]
    exact h.pending i e' he' hstate
  | declared =>
    exact (h.pending i e' he' hstate).append fun frame hframe => by cases hframe
  | closed => cases he'
  | @wrote op reply slot next l' hwrite hreplaced =>
    rw [hreplaced.get] at he'
    split at he'
    · subst he'
      exact h.pending_of_write hallowed hwrite hstate
    · rename_i hi
      refine (h.pending i e' he' hstate).append fun frame hframe hkey => hi ?_
      rw [← slot_of_issuedBy hwrite hframe, hkey]
      exact (h.ready.placed i e' he').symm

theorem live_of_issuedBy (heffect : host.ledger.Effect op reply l') {frame : ReceivedFrame}
    (hframe : frame ∈ issuedBy (.ok reply)) : ∃ e, l'.delivery frame.flow = some e := by
  cases heffect with
  | idle hidle =>
    rw [issuedBy_of_idle hidle] at hframe
    cases hframe
  | declared | closed => cases hframe
  | wrote hwrite hreplaced =>
    cases hwrite with
    | received flow route header total e hroute he =>
      obtain rfl := List.mem_singleton.mp hframe
      refine ⟨{ e with received := total }, ConnectionLedger.delivery_eq_some.mpr ⟨?_, ?_⟩⟩
      · rw [hreplaced.get, if_pos rfl]
      · exact (ConnectionLedger.delivery_eq_some.mp he).2
    | _ => cases hframe

/-- Receipts stay accounted for over an effect. -/
theorem Sound.issued_of_effect (h : host.Sound)
    (heffect : host.ledger.Effect op reply l') {frame : ReceivedFrame}
    (hframe : frame ∈ host.receipts ++ issuedBy (.ok reply)) :
    (∃ e, l'.delivery frame.flow = some e) ∨
      frame.flow.session ∈ host.retired ++ retiredBy op ∨ l'.state = .closed := by
  obtain hold | hnew := List.mem_append.mp hframe
  · obtain ⟨e, he⟩ | hretired | hclosed := h.issued frame hold
    · obtain ⟨hget, hkey⟩ := ConnectionLedger.delivery_eq_some.mp he
      obtain ⟨e', he', hevolves⟩ | ⟨-, hstate | hclosed⟩ :=
        (heffect.slot h.ready frame.flow.slot).fate hget
      · exact .inl ⟨e', ConnectionLedger.delivery_eq_some.mpr ⟨he', hevolves.key.trans hkey⟩⟩
      · refine .inr (.inl (List.mem_append_left _ ?_))
        rw [← hkey]
        exact h.retired _ e hget hstate
      · exact .inr (.inr hclosed)
    · exact .inr (.inl (List.mem_append_left _ hretired))
    · exact .inr (.inr (heffect.frame.2.2.2.1 hclosed))
  · exact .inl (live_of_issuedBy heffect hnew)

/-- The invariant is kept by every effect. -/
theorem Sound.effect (h : host.Sound)
    (hallowed : host.Allows op) (heffect : host.ledger.Effect op reply l') (hbooks : l'.Books) :
    Sound ⟨l', host.receipts ++ issuedBy (.ok reply), host.retired ++ retiredBy op⟩ := by
  obtain ⟨hrelay, hdestination, -, hclosed, hcleared, -⟩ := heffect.frame
  have hslot := heffect.slot h.ready
  refine ⟨h.ready_of_effect heffect hbooks, fun i e' he' => ?_, fun i j e₁ e₂ he₁ he₂ hsame => ?_,
    fun i e' he' hstate => ?_, fun hstate i => ?_, fun i e' he' hstate => ?_,
    fun frame hframe => ?_⟩
  · rw [hrelay, hdestination]
    obtain ⟨e, he, hevolves⟩ | ⟨-, route, allocates, startup, -, rfl, -, hroute, -⟩ :=
      (hslot i).origin he'
    · rw [hevolves.key]
      exact h.routed i e he
    · exact hroute
  · obtain ⟨e, he, hevolves⟩ | ⟨hnone, route, allocates, startup, hop, rfl, -, -, hnew, -⟩ :=
      (hslot i).origin he₁ <;>
    obtain ⟨e', he', hevolves'⟩ |
        ⟨hnone', route', allocates', startup', hop', rfl, -, -, hnew', -⟩ :=
      (hslot j).origin he₂
    · rw [hevolves.key, hevolves'.key] at hsame
      exact h.distinct i j e e' he he' hsame
    · rw [hevolves.key] at hsame
      exact absurd hsame (hnew' i e he)
    · rw [hevolves'.key] at hsame
      exact absurd hsame.symm (hnew j e' he')
    · exact opened_unique heffect hnone he₁ hnone' he₂
  · obtain ⟨e, he, hevolves⟩ | ⟨-, route, allocates, startup, -, rfl, -⟩ := (hslot i).origin he'
    · rw [hevolves.key]
      by_cases hopen : e.state = .opened
      · rw [hevolves.by_retire hopen hstate]
        exact List.mem_append_right _ (List.mem_singleton.mpr rfl)
      · exact List.mem_append_left _ (h.retired i e he hopen)
    · exact absurd rfl hstate
  · obtain hbefore | hnone := hcleared hstate
    · cases he' : l'.entries.get i with
      | none => rfl
      | some =>
        obtain ⟨e, he, -⟩ | ⟨-, _, _, _, -, -, hopen, -⟩ := (hslot i).origin he'
        · cases (h.closed hbefore i).symm.trans he
        · cases hbefore.symm.trans hopen
    · exact hnone i
  · exact h.pending_of_effect hallowed heffect he' hstate
  · exact h.issued_of_effect heffect hframe

/-- More retirements weaken what the invariant says. -/
theorem Sound.retire (h : host.Sound) (sessions : List SessionKey) :
    Sound { host with retired := host.retired ++ sessions } := by
  refine ⟨h.ready, h.routed, h.distinct, fun i e he hstate => ?_, h.closed, h.pending,
    fun frame hframe => ?_⟩
  · exact List.mem_append_left _ (h.retired i e he hstate)
  · obtain hlive | hretired | hclosed := h.issued frame hframe
    · exact .inl hlive
    · exact .inr (.inl (List.mem_append_left _ hretired))
    · exact .inr (.inr hclosed)

theorem Sound.perform (h : host.Sound) {call : Call} (hallowed : host.Allows call.op) :
    (host.perform call).Sound := by
  obtain ⟨reply, l', hexec, heffect, hbooks⟩ | ⟨reason, hexec⟩ := h.exec_cases call hallowed
  · simp only [Host.perform, hexec]
    have hexpired := h.expire call.now
    refine hexpired.effect ?_ heffect hbooks
    exact hallowed
  · simp only [Host.perform, hexec, issuedBy, List.append_nil]
    exact (h.expire call.now).retire _

theorem reachable_sound (h : system.Reachable host) : host.Sound :=
  h.invariant (fun _ => Starts.sound) fun _ call _ hsound hstep => by
    obtain ⟨hallowed, rfl⟩ := hstep
    exact hsound.perform hallowed

end Host

end Windshare.Relay.Flow
