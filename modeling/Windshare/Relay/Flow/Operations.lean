import Windshare.Relay.Flow.Accounting

/-!
# What the operations of a ledger do

`Op` lists the operations with the arguments a host gives them. `Effect` says once, for
each operation that is not refused, what it leaves and what it replies. From sound books
no operation panics, and one that is refused leaves the ledger as time left it.
-/

namespace Windshare.Relay.Flow

open Windshare.Library Txn

/-- Operations of a ledger. A route is a permit that the session authority has just
validated. -/
inductive Op where
  | declareCapacity (capacity : ReceiveCapacity)
  | openFlow (route : ForwardPermit) (allocates : Bool)
  | grant (flow : FlowKey) (route : ForwardPermit) (credit : Counts)
  | receive (flow : FlowKey) (route : ForwardPermit) (header : OpaqueHeader)
  | submit (route : ForwardPermit) (frame : ReceivedFrame)
  | retire (session : SessionKey)
  | discarded (flow : FlowKey)
  | consume (flow : FlowKey) (source : ConnectionRef) (total : Counts)
  | settle (flow : FlowKey) (source : ConnectionRef) (total : Counts)
  | confirmClosed (destination : ConnectionRef)
  | tick

inductive Reply where
  | done
  | granted (grant : Grant)
  | received (frame : ReceivedFrame)
  | retiring (flow : Option FlowKey)
  | settlement (notice : Option Settlement)
  | feedback (feedback : Feedback)
  | reclaimed (counts : Counts)
  | closing (request : Option CloseRequest)
deriving DecidableEq

/-- The operation at a time. -/
def Op.run (now : UnixMillis) : Op → LedgerM Reply
  | .declareCapacity capacity => do
      ConnectionLedger.declareCapacity capacity now
      return .done
  | .openFlow route allocates => .granted <$> ConnectionLedger.openFlow route allocates now
  | .grant flow route credit => .granted <$> ConnectionLedger.grant flow route credit now
  | .receive flow route header => .received <$> ConnectionLedger.receive flow route header now
  | .submit route frame => do
      ConnectionLedger.submit route frame now
      return .done
  | .retire session => .retiring <$> ConnectionLedger.retire session now
  | .discarded flow => .settlement <$> ConnectionLedger.discarded flow now
  | .consume flow source total => .feedback <$> ConnectionLedger.consume flow source total now
  | .settle flow source total => .feedback <$> ConnectionLedger.settle flow source total now
  | .confirmClosed destination => .reclaimed <$> ConnectionLedger.confirmClosed destination now
  | .tick => .closing <$> ConnectionLedger.tick now

namespace ConnectionLedger

/-- The replies of an operation that finds nothing to do. -/
def Idle (l : ConnectionLedger) : Op → Reply → Prop
  | .declareCapacity capacity, .done => l.receiveCapacity = some capacity
  | .retire session, .retiring none => ∀ e ∈ l.entries.iter, e.key.session ≠ session
  | .retire session, .retiring (some flow) =>
    ∃ e, l.delivery flow = some e ∧ e.key.session = session ∧ e.state ≠ .opened
  | .discarded flow, .settlement none => l.delivery flow = none
  | .discarded flow, .settlement (some notice) =>
    ∃ e deadline, l.delivery flow = some e ∧ e.state = .settling deadline ∧
      e.submitted ≠ e.consumed ∧ notice = e.settlement
  | .consume flow _ _, .feedback .stale => l.delivery flow = none
  | .consume flow _ total, .feedback .unchanged =>
    ∃ e, l.delivery flow = some e ∧ e.consumed.covers total
  | .settle flow _ _, .feedback .stale => l.delivery flow = none
  | .confirmClosed _, .reclaimed counts => l.state = .closed ∧ counts = .zero
  | .tick, .closing _ => True
  | _, _ => False

/-- What an operation writes into a slot, and its reply. -/
inductive Write (l : ConnectionLedger) : Op → Reply → Nat → Option Delivery → Prop
  | opened (route : ForwardPermit) (allocates : Bool) (slot : Nat) (startup : Counts)
      (hopen : l.state = .opened)
      (hroute : route.session.relay = l.relay ∧ route.destination = l.destination)
      (hnew : ∀ i e, l.entries.get i = some e → e.key.permit ≠ route)
      (hvacant : l.entries.get slot = none) (hdeclared : l.receiveCapacity ≠ none) :
      Write l (.openFlow route allocates) (.granted ⟨⟨slot, route⟩, l.limits.startupGrant⟩) slot
        (some (.new ⟨slot, route⟩ l.limits.startupGrant startup))
  | granted (flow : FlowKey) (route : ForwardPermit) (credit total : Counts) (e : Delivery)
      (hroute : flow.permit = route) (he : l.delivery flow = some e) (hopen : e.state = .opened)
      (htotal : e.granted.add credit = some total) :
      Write l (.grant flow route credit) (.granted ⟨flow, credit⟩) flow.slot
        (some { e with granted := total })
  | received (flow : FlowKey) (route : ForwardPermit) (header : OpaqueHeader) (total : Counts)
      (e : Delivery) (hroute : flow.permit = route) (he : l.delivery flow = some e)
      (hopen : e.state = .opened) (hsession : header.session = flow.session.wireId)
      (htotal : e.received.add ⟨1, header.encodedBytes⟩ = some total) :
      Write l (.receive flow route header)
        (.received ⟨flow, total.frames, header.encodedBytes⟩) flow.slot
        (some { e with received := total })
  | submitted (frame : ReceivedFrame) (route : ForwardPermit) (total : Counts) (e : Delivery)
      (hroute : frame.flow.permit = route) (he : l.delivery frame.flow = some e)
      (hopen : e.state = .opened) (horder : frame.ordinal.toNat = e.submitted.frames.toNat + 1)
      (htotal : e.submitted.add ⟨1, frame.encodedBytes⟩ = some total) :
      Write l (.submit route frame) .done frame.flow.slot (some { e with submitted := total })
  | retired (session : SessionKey) (deadline : UnixMillis) (e : Delivery)
      (he : l.delivery e.key = some e) (hopen : e.state = .opened)
      (hsession : e.key.session = session) :
      Write l (.retire session) (.retiring (some e.key)) e.key.slot
        (some { e with state := .discarding deadline })
  | discarded (flow : FlowKey) (deadline : UnixMillis) (e : Delivery)
      (he : l.delivery flow = some e) (hstate : e.state = .discarding deadline) :
      Write l (.discarded flow) (.settlement (some e.settlement)) flow.slot
        (some { e with state := .settling deadline })
  | discardedAll (flow : FlowKey) (e : Delivery) (he : l.delivery flow = some e)
      (hstate : e.state ≠ .opened) (hconsumed : e.submitted = e.consumed) :
      Write l (.discarded flow) (.settlement (some e.settlement)) flow.slot none
  | consumed (flow : FlowKey) (source : ConnectionRef) (total released : Counts) (e : Delivery)
      (he : l.delivery flow = some e) (hreleased : total.sub e.consumed = some released)
      (hfits : e.submitted.covers total) :
      Write l (.consume flow source total) (.feedback (.released released)) flow.slot
        (some { e with consumed := total })
  | consumedAll (flow : FlowKey) (source : ConnectionRef) (released : Counts) (e : Delivery)
      (deadline : UnixMillis) (he : l.delivery flow = some e)
      (hstate : e.state = .settling deadline)
      (hreleased : e.submitted.sub e.consumed = some released) :
      Write l (.consume flow source e.submitted) (.feedback (.settled released)) flow.slot none
  | settled (flow : FlowKey) (source : ConnectionRef) (released : Counts) (e : Delivery)
      (deadline : UnixMillis) (he : l.delivery flow = some e)
      (hstate : e.state = .settling deadline)
      (hreleased : e.submitted.sub e.consumed = some released) :
      Write l (.settle flow source e.submitted) (.feedback (.settled released)) flow.slot none

/-- What an operation does to a ledger whose time is up to date. -/
inductive Effect (l : ConnectionLedger) : Op → Reply → ConnectionLedger → Prop
  | idle {op : Op} {reply : Reply} (hidle : Idle l op reply) : Effect l op reply l
  | declared (capacity : ReceiveCapacity) (hfirst : l.receiveCapacity = none) :
      Effect l (.declareCapacity capacity) .done { l with receiveCapacity := some capacity }
  | wrote {op : Op} {reply : Reply} {slot : Nat} {next : Option Delivery} {l' : ConnectionLedger}
      (hwrite : Write l op reply slot next) (hreplaced : Replaced l slot next l') :
      Effect l op reply l'
  | closed (reclaimed : Counts) (hreclaimed : l.usage.total = some reclaimed) :
      Effect l (.confirmClosed l.destination) (.reclaimed reclaimed)
        { l with
          entries := l.entries.clear
          usage := .zero
          startupUsed := .zero
          state := .closed
          nextExpiration := none }

/-! ### Time -/

section Expire

variable (l : ConnectionLedger) (now : UnixMillis)

theorem expire_eq : ∃ state, l.expire now = { l with state := state } ∧
    (l.state ≠ .opened → state = l.state) ∧ (state = .closed → l.state = .closed) := by
  unfold expire
  split
  · split
    · rename_i hopen _ _
      exact ⟨_, rfl, fun h => absurd hopen h, fun h => by cases h⟩
    · exact ⟨l.state, rfl, fun _ => rfl, fun h => h⟩
  · exact ⟨l.state, rfl, fun _ => rfl, fun h => h⟩

@[simp] theorem expire_entries : (l.expire now).entries = l.entries := by
  obtain ⟨state, h, -⟩ := l.expire_eq now
  rw [h]

@[simp] theorem expire_usage : (l.expire now).usage = l.usage := by
  obtain ⟨state, h, -⟩ := l.expire_eq now
  rw [h]

@[simp] theorem expire_startupUsed : (l.expire now).startupUsed = l.startupUsed := by
  obtain ⟨state, h, -⟩ := l.expire_eq now
  rw [h]

@[simp] theorem expire_receiveCapacity : (l.expire now).receiveCapacity = l.receiveCapacity := by
  obtain ⟨state, h, -⟩ := l.expire_eq now
  rw [h]

variable {l}

theorem Books.expire (h : Books l) : Books (l.expire now) := by
  obtain ⟨state, heq, -⟩ := l.expire_eq now
  rw [heq]
  exact ⟨h.counted, h.ordered, h.granted, h.received, h.submitted, h.startup, h.startup_le,
    h.regular_le⟩

end Expire

/-! ### Checks -/

section Checks

variable {l : ConnectionLedger} {α : Type} {Q : α → ConnectionLedger → Prop}
  {E : Refusal → ConnectionLedger → Prop} {flow : FlowKey}

theorem delivery_eq_some {e : Delivery} :
    l.delivery flow = some e ↔ l.entries.get flow.slot = some e ∧ e.key = flow := by
  unfold delivery
  rw [Option.filter_eq_some_iff]
  simp

theorem wp_run (now : UnixMillis) (x : LedgerM α) :
    wp (run now x) Q E l ↔ wp x Q E (l.expire now) := by
  unfold run
  rw [wp_bind, wp_modify]

theorem wp_ensureOpen {Q : Unit → ConnectionLedger → Prop} (hE : ∀ reason, E reason l)
    (hQ : l.state = .opened → Q () l) : wp ensureOpen Q E l := by
  unfold ensureOpen
  rw [wp_bind, wp_get]
  split
  · rename_i hstate
    exact hQ hstate
  · exact hE _
  · exact hE _

theorem wp_checkDestination {Q : Unit → ConnectionLedger → Prop} {source : ConnectionRef}
    (hE : ∀ reason, E reason l) (hQ : Q () l) : wp (checkDestination flow source) Q E l := by
  unfold checkDestination
  simp only [wp_bind, wp_get, wp_require]
  exact ⟨fun _ => hQ, fun _ => hE _⟩

theorem wp_liveDelivery {Q : Delivery → ConnectionLedger → Prop} {route : ForwardPermit}
    (hE : ∀ reason, E reason l)
    (hQ : ∀ e, l.state = .opened → flow.permit = route → l.delivery flow = some e →
      e.state = .opened → Q e l) : wp (liveDelivery flow route) Q E l := by
  unfold liveDelivery
  rw [wp_bind]
  refine wp_ensureOpen hE fun hopen => ?_
  rw [wp_bind]
  refine wp_checkDestination hE ?_
  simp only [wp_bind, wp_require, wp_get, wp_orRefuse, wp_pure]
  refine ⟨fun hroute => ⟨fun e he => ⟨fun hstate => ?_, fun _ => hE _⟩, fun _ => hE _⟩,
    fun _ => hE _⟩
  exact hQ e hopen hroute he hstate

/-- The room the peer's capacity and the limit leave. -/
theorem wp_receiveAvailable {Q : Counts → ConnectionLedger → Prop} (h : Books l)
    (hE : ∀ reason, E reason l)
    (hQ : ∀ available, l.receiveCapacity ≠ none →
      (∀ d, available.amount d + l.entries.tally (·.held d) = l.effectiveTotal.amount d) →
      Q available l) : wp receiveAvailable Q E l := by
  obtain ⟨total, htotal, htotal'⟩ := h.exists_total
  unfold receiveAvailable
  simp only [wp_bind, wp_get, wp_orRefuse, wp_expect]
  refine ⟨fun capacity hcapacity => ⟨total, htotal, ?_⟩, fun _ => hE _⟩
  have hmin (d : Dimension) :
      (capacity.counts.min l.limits.total).amount d = l.effectiveTotal.amount d := by
    simp only [effectiveTotal, hcapacity, Counts.amount_min]
    omega
  have hle (d : Dimension) : total.amount d ≤ (capacity.counts.min l.limits.total).amount d := by
    rw [htotal', hmin]
    exact h.held_le d
  obtain ⟨available, havailable, havailable'⟩ := Counts.exists_sub hle
  refine ⟨available, havailable, hQ available (by simp [hcapacity]) fun d => ?_⟩
  rw [← htotal', ← hmin]
  exact havailable' d

end Checks

/-! ### Operations -/

/-- What the operations rely on: sound books, deliveries in the slots their keys name, and
none before the peer declared a capacity. -/
structure Ready (l : ConnectionLedger) : Prop where
  books : Books l
  placed : ∀ i e, l.entries.get i = some e → e.key.slot = i
  undeclared : l.receiveCapacity = none → ∀ i, l.entries.get i = none

namespace Ready

variable {l : ConnectionLedger} {flow : FlowKey} {e : Delivery}

theorem expire (h : Ready l) (now : UnixMillis) : Ready (l.expire now) := by
  refine ⟨h.books.expire now, ?_, ?_⟩
  · simpa using h.placed
  · simpa using h.undeclared

theorem ordered (h : Ready l) (he : l.delivery flow = some e) : e.Ordered :=
  h.books.ordered _ e (delivery_eq_some.mp he).1

theorem declared (h : Ready l) (he : l.delivery flow = some e) : l.receiveCapacity ≠ none := by
  intro hnone
  have := h.undeclared hnone flow.slot
  rw [(delivery_eq_some.mp he).1] at this
  cases this

theorem wp_replace {Q : Unit → ConnectionLedger → Prop} {E : Refusal → ConnectionLedger → Prop}
    {next : Option Delivery} (h : Ready l) (he : l.delivery flow = some e)
    (hnext : OrderedSlot next) (hless : NoMore next (some e))
    (hQ : ∀ l', Replaced l flow.slot next l' → Books l' → Q () l') :
    wp (replace flow.slot next) Q E l :=
  wp_replace_of_noMore h.books (delivery_eq_some.mp he).1 hnext (h.declared he) hless hQ

end Ready

/-! ### Updates of a delivery -/

section Updates

variable {e : Delivery} {total : Counts}

theorem ordered_new {key : FlowKey} {credit startup : Counts}
    (h : ∀ d, startup.amount d ≤ credit.amount d) :
    (Delivery.new key credit startup).Ordered := by
  refine ⟨?_, ?_, ?_, h⟩ <;> intro d <;> simp [Delivery.new]

section

variable (h : e.Ordered)

include h

theorem ordered_granted (hle : ∀ d, e.granted.amount d ≤ total.amount d) :
    { e with granted := total : Delivery }.Ordered :=
  ⟨h.consumed_le, h.submitted_le, fun d => Nat.le_trans (h.received_le d) (hle d),
    fun d => Nat.le_trans (h.startup_le d) (hle d)⟩

theorem ordered_received (hle : ∀ d, e.received.amount d ≤ total.amount d)
    (hfits : ∀ d, total.amount d ≤ e.granted.amount d) :
    { e with received := total : Delivery }.Ordered :=
  ⟨h.consumed_le, fun d => Nat.le_trans (h.submitted_le d) (hle d), hfits, h.startup_le⟩

theorem ordered_submitted (hle : ∀ d, e.submitted.amount d ≤ total.amount d)
    (hfits : ∀ d, total.amount d ≤ e.received.amount d) :
    { e with submitted := total : Delivery }.Ordered :=
  ⟨fun d => Nat.le_trans (h.consumed_le d) (hle d), hfits, h.received_le, h.startup_le⟩

theorem ordered_consumed (hfits : ∀ d, total.amount d ≤ e.submitted.amount d) :
    { e with consumed := total : Delivery }.Ordered :=
  ⟨hfits, h.submitted_le, h.received_le, h.startup_le⟩

theorem ordered_state (state : State) : { e with state := state : Delivery }.Ordered :=
  ⟨h.consumed_le, h.submitted_le, h.received_le, h.startup_le⟩

theorem granted_held {credit : Counts} (hstate : e.state = .opened)
    (htotal : ∀ d, total.amount d = e.granted.amount d + credit.amount d) (d : Dimension) :
    { e with granted := total : Delivery }.startupHeld d = e.startupHeld d ∧
      { e with granted := total : Delivery }.regularHeld d ≤ e.regularHeld d + credit.amount d := by
  have := h.startup_le d
  have := htotal d
  simp only [Delivery.startupHeld, Delivery.regularHeld, Delivery.retained, hstate]
  omega

end

/-- A new delivery splits its credit between the pools. -/
theorem new_held (key : FlowKey) (credit startup : Counts) (d : Dimension) :
    (Delivery.new key credit startup).startupHeld d = min (credit.amount d) (startup.amount d) ∧
      (Delivery.new key credit startup).regularHeld d = credit.amount d - startup.amount d := by
  simp [Delivery.startupHeld, Delivery.regularHeld, Delivery.retained, Delivery.new]

end Updates

/-! ### Operations -/

section Operations

variable {l : ConnectionLedger} (now : UnixMillis) {E : Refusal → ConnectionLedger → Prop}

/-- A receipt that continues the submitted prefix is part of what was received. -/
def Queued (l : ConnectionLedger) (frame : ReceivedFrame) : Prop :=
  ∀ e, l.delivery frame.flow = some e → e.state = .opened →
    frame.ordinal.toNat = e.submitted.frames.toNat + 1 →
    ∀ d, e.submitted.amount d + (⟨1, frame.encodedBytes⟩ : Counts).amount d ≤ e.received.amount d

/-- The operation does not panic, it returns with an effect that keeps the books, and `E` holds
when it is refused. -/
def Performs (E : Refusal → ConnectionLedger → Prop) (l : ConnectionLedger) (now : UnixMillis)
    (op : Op) : Prop :=
  wp (op.run now) (fun reply l' => Effect (l.expire now) op reply l' ∧ Books l') E l

section

variable (h : Ready l) (hE : ∀ reason, E reason (l.expire now))

include h hE

theorem performs_declareCapacity (capacity : ReceiveCapacity) :
    Performs E l now (.declareCapacity capacity) := by
  have h := h.expire now
  unfold Performs Op.run declareCapacity
  rw [wp_bind, wp_run]
  generalize l.expire now = l at *
  rw [wp_bind]
  refine wp_ensureOpen hE fun hopen => ?_
  rw [wp_bind, wp_get]
  split
  · rename_i current hcurrent
    rw [wp_require]
    exact ⟨fun hsame => ⟨.idle (hsame ▸ hcurrent), h.books⟩, fun _ => hE _⟩
  · rename_i hnone
    rw [wp_set]
    refine ⟨.declared capacity hnone, ?_⟩
    -- Nothing is held before the declaration, so that every pool has room.
    have hholes (w : Delivery → Nat) : l.entries.tally w = 0 :=
      Slots.tally_eq_zero_of_holes w (h.undeclared hnone)
    refine ⟨h.books.counted, h.books.ordered, h.books.granted, h.books.received,
      h.books.submitted, h.books.startup, fun d => ?_, fun d => ?_⟩
    · exact (hholes _).symm ▸ Nat.zero_le _
    · have := startupPool_le { l with receiveCapacity := some capacity } d
      exact (hholes fun e => e.regularHeld d).symm ▸ (by omega)

theorem performs_grant (flow : FlowKey) (route : ForwardPermit) (credit : Counts) :
    Performs E l now (.grant flow route credit) := by
  have h := h.expire now
  unfold Performs Op.run grant
  rw [wp_map, wp_run]
  generalize l.expire now = l at *
  rw [wp_bind]
  refine wp_liveDelivery hE fun e hopen hroute he hstate => ?_
  simp only [wp_bind, wp_require, wp_orRefuse]
  refine ⟨fun _ => ⟨fun total htotal => ?_, fun _ => hE _⟩, fun _ => hE _⟩
  refine wp_receiveAvailable h.books hE fun available hdeclared havailable => ?_
  obtain ⟨pools, -, used, spare, hpools, hused, -, hspare, -, hroom⟩ := h.books.exists_room
  simp only [wp_get, wp_expect]
  refine ⟨fun _ => ⟨pools, hpools, used, hused, spare, hspare, fun hcovers => ?_, fun _ => hE _⟩,
    fun _ => hE _⟩
  have hcovers := Counts.covers_iff.mp hcovers
  have htotal' := Counts.add_eq_some.mp htotal
  have hordered := h.ordered he
  have hheld := granted_held hordered hstate htotal'
  have hget := (delivery_eq_some.mp he).1
  refine wp_replace h.books (Slots.lt_length_of_get hget) ?_ (h.declared he) (fun d => ?_)
    (fun d => ?_) fun l' hreplaced hbooks => ?_
  · rintro e' ⟨⟩
    exact ordered_granted hordered fun d => by rw [htotal']; omega
  · have := h.books.startup_le d
    rw [hget, Option.elim_some, Option.elim_some, (hheld d).1]
    omega
  · have := hroom d
    have := hcovers d
    have := (hheld d).2
    rw [hget, Option.elim_some, Option.elim_some]
    omega
  · exact ⟨.wrote (.granted flow route credit total e hroute he hstate htotal) hreplaced, hbooks⟩

theorem performs_openFlow (route : ForwardPermit) (allocates : Bool) :
    Performs E l now (.openFlow route allocates) := by
  have h := h.expire now
  unfold Performs Op.run openFlow
  rw [wp_map, wp_run]
  generalize l.expire now = l at *
  rw [wp_bind]
  refine wp_ensureOpen hE fun hopen => ?_
  simp only [wp_bind, wp_get, wp_require]
  refine ⟨fun hroute => ⟨fun hnew => ?_, fun _ => hE _⟩, fun _ => hE _⟩
  refine wp_receiveAvailable h.books hE fun available hdeclared havailable => ?_
  refine ⟨fun _ => ?_, fun _ => hE _⟩
  obtain ⟨pools, spare, used, regularSpare, hpools, hused, hspare, hregularSpare, hroom₁, hroom₂⟩ :=
    h.books.exists_room
  generalize hcredit : l.limits.startupGrant = credit at *
  have hstartup (d : Dimension) : (credit.min spare).amount d ≤ credit.amount d := by
    rw [Counts.amount_min]
    omega
  obtain ⟨rest, hrest, hrest'⟩ := Counts.exists_sub hstartup
  simp only [wp_expect]
  refine ⟨pools, hpools, spare, hspare, used, hused, regularSpare, hregularSpare, rest, hrest,
    fun hcovers => ?_, fun _ => hE _⟩
  have hcovers := Counts.covers_iff.mp hcovers
  split
  · exact hE _
  rename_i entries slot hvacant
  obtain ⟨hnone, hlt, hsame, htally, hretained⟩ := DeliverySlots.vacant_spec hvacant
  simp only [wp_bind, wp_set, wp_pure]
  have hheld := new_held ⟨slot, route⟩ credit (credit.min spare)
  refine wp_replace (h.books.setEntries hsame htally hretained) hlt ?_ hdeclared (fun d => ?_)
    (fun d => ?_) fun l' hreplaced hbooks => ?_
  · rintro e' ⟨⟩
    exact ordered_new hstartup
  · have := hroom₁ d
    have : (credit.min spare).amount d ≤ spare.amount d := by
      rw [Counts.amount_min]
      omega
    rw [hnone, Option.elim_none, Option.elim_some, (hheld d).1, htally]
    change _ ≤ l.startupPool.amount d + 0
    omega
  · have := hroom₂ d
    have := hcovers d
    have := hrest' d
    rw [hnone, Option.elim_none, Option.elim_some, (hheld d).2, htally]
    change _ + _ + l.startupPool.amount d ≤ l.effectiveTotal.amount d + 0
    omega
  · subst hcredit
    have hreplaced' : Replaced l slot
        (some (.new ⟨slot, route⟩ l.limits.startupGrant (l.limits.startupGrant.min spare))) l' :=
      ⟨hreplaced.relay, hreplaced.destination, hreplaced.limits, hreplaced.receiveCapacity,
        hreplaced.state, fun i => by rw [hreplaced.get, ← hsame]⟩
    refine ⟨.wrote (.opened route allocates slot _ hopen hroute ?_ ?_ hdeclared) hreplaced', hbooks⟩
    · exact fun i e he => hnew e (DeliverySlots.mem_iter.mpr ⟨i, he⟩)
    · exact (hsame slot).symm.trans hnone

theorem performs_receive (flow : FlowKey) (route : ForwardPermit) (header : OpaqueHeader) :
    Performs E l now (.receive flow route header) := by
  have h := h.expire now
  unfold Performs Op.run receive
  rw [wp_map, wp_run]
  generalize l.expire now = l at *
  rw [wp_bind]
  refine wp_liveDelivery hE fun e hopen hroute he hstate => ?_
  have hordered := h.ordered he
  obtain ⟨credit, hcredit, hcredit'⟩ := Counts.exists_sub hordered.received_le
  simp only [wp_bind, wp_require, wp_expect]
  refine ⟨fun hsession => ⟨credit, hcredit, fun hcovers => ?_, fun _ => hE _⟩, fun _ => hE _⟩
  have hcovers := Counts.covers_iff.mp hcovers
  have hfits (d : Dimension) :
      e.received.amount d + (⟨1, header.encodedBytes⟩ : Counts).amount d ≤ e.granted.amount d := by
    have := hcovers d
    have := hcredit' d
    omega
  obtain ⟨total, htotal, htotal'⟩ :=
    Counts.exists_add fun d => Nat.lt_of_le_of_lt (hfits d) (e.granted.amount_lt d)
  refine ⟨total, htotal, h.wp_replace he ?_ ?_ fun l' hreplaced hbooks => ?_⟩
  · rintro e' ⟨⟩
    refine ordered_received hordered (fun d => ?_) (fun d => ?_) <;> rw [htotal']
    · omega
    · exact hfits d
  · refine noMore_of_le rfl (fun d => ?_) fun d => Nat.le_refl _
    simp only [Delivery.retained, hstate]
    exact Nat.le_refl _
  · exact ⟨.wrote (.received flow route header total e hroute he hstate hsession htotal) hreplaced,
      hbooks⟩

theorem performs_submit (route : ForwardPermit) (frame : ReceivedFrame) (hqueued : Queued l frame) :
    Performs E l now (.submit route frame) := by
  have h := h.expire now
  have hqueued : Queued (l.expire now) frame := by
    simpa [Queued, delivery] using hqueued
  unfold Performs Op.run submit
  rw [wp_bind, wp_run]
  generalize l.expire now = l at *
  rw [wp_bind]
  refine wp_liveDelivery hE fun e hopen hroute he hstate => ?_
  have hordered := h.ordered he
  simp only [wp_bind, wp_require, wp_expect]
  refine ⟨fun horder => ?_, fun _ => hE _⟩
  have horder : frame.ordinal.toNat = e.submitted.frames.toNat + 1 :=
    Counts.checkedAddWord_eq_some.mp horder
  have hfits := hqueued e he hstate horder
  obtain ⟨total, htotal, htotal'⟩ :=
    Counts.exists_add fun d => Nat.lt_of_le_of_lt (hfits d) (e.received.amount_lt d)
  refine ⟨total, htotal, h.wp_replace he ?_ ?_ fun l' hreplaced hbooks => ?_⟩
  · rintro e' ⟨⟩
    refine ordered_submitted hordered (fun d => ?_) (fun d => ?_) <;> rw [htotal']
    · omega
    · exact hfits d
  · refine noMore_of_le rfl (fun d => ?_) fun d => Nat.le_refl _
    simp only [Delivery.retained, hstate]
    exact Nat.le_refl _
  · exact ⟨.wrote (.submitted frame route total e hroute he hstate horder htotal) hreplaced, hbooks⟩

theorem performs_retire (session : SessionKey) : Performs E l now (.retire session) := by
  have h := h.expire now
  unfold Performs Op.run retire
  rw [wp_map, wp_run]
  generalize l.expire now = l at *
  simp only [wp_bind, wp_get, wp_require]
  refine ⟨fun hrelay => ?_, fun _ => hE _⟩
  split
  · rename_i hnone
    rw [wp_pure]
    refine ⟨.idle fun e he => ?_, h.books⟩
    simpa using List.find?_eq_none.mp hnone e he
  rename_i e hfound
  have hsession : e.key.session = session := by simpa using List.find?_some hfound
  obtain ⟨i, hi⟩ := DeliverySlots.mem_iter.mp (List.mem_of_find?_eq_some hfound)
  have he : l.delivery e.key = some e := by
    rw [delivery_eq_some, h.placed i e hi]
    exact ⟨hi, rfl⟩
  have hordered := h.ordered he
  simp only [wp_bind, wp_ite, wp_pure]
  refine ⟨fun hstate => h.wp_replace he ?_ ?_ fun l' hreplaced hbooks => ?_, fun hstate => ?_⟩
  · rintro e' ⟨⟩
    exact ordered_state hordered _
  · refine noMore_of_le rfl (fun d => ?_) fun d => Nat.le_refl _
    simp only [Delivery.retained, hstate]
    exact hordered.received_le d
  · exact ⟨.wrote (.retired session _ e he hstate hsession) hreplaced, hbooks⟩
  · exact ⟨.idle ⟨e, he, hsession, hstate⟩, h.books⟩

theorem performs_discarded (flow : FlowKey) : Performs E l now (.discarded flow) := by
  have h := h.expire now
  unfold Performs Op.run discarded
  rw [wp_map, wp_run]
  generalize l.expire now = l at *
  rw [wp_bind]
  refine wp_checkDestination hE ?_
  rw [wp_bind, wp_get]
  split
  · rename_i hnone
    exact ⟨.idle hnone, h.books⟩
  rename_i e he
  have hordered := h.ordered he
  split
  · exact hE _
  · rename_i deadline hstate
    simp only [wp_bind, wp_ite, wp_pure]
    refine ⟨fun hsame => h.wp_replace he ?_ (noMore_none _) fun l' hreplaced hbooks => ?_,
      fun hsame => h.wp_replace he ?_ ?_ fun l' hreplaced hbooks => ?_⟩
    · exact fun e' he' => by cases he'
    · have hretired : e.state ≠ .opened := by rw [hstate]; exact fun h => by cases h
      exact ⟨.wrote (.discardedAll flow e he hretired hsame) hreplaced, hbooks⟩
    · rintro e' ⟨⟩
      exact ordered_state hordered _
    · refine noMore_of_le rfl (fun d => ?_) fun d => Nat.le_refl _
      simp only [Delivery.retained, hstate]
      exact hordered.submitted_le d
    · exact ⟨.wrote (.discarded flow deadline e he hstate) hreplaced, hbooks⟩
  · rename_i deadline hstate
    simp only [wp_bind, wp_ite, wp_pure]
    refine ⟨fun hsame => h.wp_replace he ?_ (noMore_none _) fun l' hreplaced hbooks => ?_,
      fun hsame => ?_⟩
    · exact fun e' he' => by cases he'
    · have hretired : e.state ≠ .opened := by rw [hstate]; exact fun h => by cases h
      exact ⟨.wrote (.discardedAll flow e he hretired hsame) hreplaced, hbooks⟩
    · exact ⟨.idle ⟨e, deadline, he, hstate, hsame, rfl⟩, h.books⟩

theorem performs_consume (flow : FlowKey) (source : ConnectionRef) (total : Counts) :
    Performs E l now (.consume flow source total) := by
  have h := h.expire now
  unfold Performs Op.run consume
  rw [wp_map, wp_run]
  generalize l.expire now = l at *
  rw [wp_bind]
  refine wp_checkDestination hE ?_
  rw [wp_bind, wp_get]
  split
  · rename_i hnone
    exact ⟨.idle hnone, h.books⟩
  rename_i e he
  have hordered := h.ordered he
  rw [wp_ite]
  refine ⟨fun hold => ⟨.idle ⟨e, he, hold⟩, h.books⟩, fun _ => ?_⟩
  simp only [wp_bind, wp_require, wp_expect]
  refine ⟨fun hvalid => ?_, fun _ => hE _⟩
  have hmore := Counts.covers_iff.mp hvalid.1
  have hfits := Counts.covers_iff.mp hvalid.2
  obtain ⟨released, hreleased, hreleased'⟩ := Counts.exists_sub hmore
  obtain ⟨left, hleft, -⟩ := Counts.exists_sub hfits
  refine ⟨released, hreleased, left, hleft, fun _ => ?_, fun _ => hE _⟩
  have hpart : wp (do
      replace flow.slot (some { e with consumed := total })
      return Feedback.released released)
      (fun feedback l' => Effect l (.consume flow source total) (.feedback feedback) l' ∧ Books l')
      E l := by
    simp only [wp_bind, wp_pure]
    refine h.wp_replace he ?_ (noMore_of_le rfl (fun d => Nat.le_refl _) hmore)
      fun l' hreplaced hbooks => ?_
    · rintro e' ⟨⟩
      exact ordered_consumed hordered hfits
    · exact ⟨.wrote (.consumed flow source total released e he hreleased hvalid.2) hreplaced,
        hbooks⟩
  split
  · rename_i deadline hstate
    rw [wp_ite]
    refine ⟨fun hall => ?_, fun _ => hpart⟩
    subst hall
    simp only [wp_bind, wp_pure]
    refine h.wp_replace he ?_ (noMore_none _) fun l' hreplaced hbooks => ?_
    · exact fun e' he' => by cases he'
    · exact ⟨.wrote (.consumedAll flow source released e deadline he hstate hreleased) hreplaced,
        hbooks⟩
  · exact hpart

theorem performs_settle (flow : FlowKey) (source : ConnectionRef) (total : Counts) :
    Performs E l now (.settle flow source total) := by
  have h := h.expire now
  unfold Performs Op.run settle
  rw [wp_map, wp_run]
  generalize l.expire now = l at *
  rw [wp_bind]
  refine wp_checkDestination hE ?_
  rw [wp_bind, wp_get]
  split
  · rename_i hnone
    exact ⟨.idle hnone, h.books⟩
  rename_i e he
  split
  · exact hE _
  · exact hE _
  rename_i deadline hstate
  obtain ⟨released, hreleased, -⟩ := Counts.exists_sub (h.ordered he).consumed_le
  simp only [wp_bind, wp_require, wp_expect, wp_pure]
  refine ⟨fun hall => ⟨released, hreleased, h.wp_replace he ?_ (noMore_none _)
    fun l' hreplaced hbooks => ?_⟩, fun _ => hE _⟩
  · exact fun e' he' => by cases he'
  · subst hall
    exact ⟨.wrote (.settled flow source released e deadline he hstate hreleased) hreplaced, hbooks⟩

theorem performs_confirmClosed (destination : ConnectionRef) :
    Performs E l now (.confirmClosed destination) := by
  have h := h.expire now
  unfold Performs Op.run confirmClosed
  rw [wp_map, wp_run]
  generalize l.expire now = l at *
  simp only [wp_bind, wp_get, wp_require, wp_ite, wp_pure, wp_expect, wp_set]
  refine ⟨fun hsame => ⟨fun hclosed => ?_, fun _ => ?_⟩, fun _ => hE _⟩
  · exact ⟨.idle ⟨hclosed, rfl⟩, h.books⟩
  · subst hsame
    obtain ⟨reclaimed, hreclaimed, -⟩ := h.books.exists_total
    refine ⟨reclaimed, hreclaimed, .closed reclaimed hreclaimed, ?_⟩
    refine ⟨rfl, fun i e he => ?_, fun d => ?_, fun d => ?_, fun d => ?_, fun d => ?_, fun d => ?_,
      fun d => ?_⟩
    · cases he
    · exact Counts.amount_zero d
    · exact Counts.amount_zero d
    · exact Counts.amount_zero d
    · exact Counts.amount_zero d
    · exact Nat.zero_le _
    · exact (Nat.zero_add _).trans_le (startupPool_le _ d)

omit hE in
theorem performs_tick : Performs E l now .tick := by
  have h := h.expire now
  simp only [Performs, Op.run, wp_map, tick, wp_bind, wp_modify, wp_get]
  split <;> exact ⟨.idle trivial, h.books⟩

theorem performs (op : Op)
    (hqueued : ∀ route frame, op = .submit route frame → Queued l frame) : Performs E l now op := by
  cases op with
  | declareCapacity capacity => exact performs_declareCapacity now h hE capacity
  | openFlow route allocates => exact performs_openFlow now h hE route allocates
  | grant flow route credit => exact performs_grant now h hE flow route credit
  | receive flow route header => exact performs_receive now h hE flow route header
  | submit route frame => exact performs_submit now h hE route frame (hqueued route frame rfl)
  | retire session => exact performs_retire now h hE session
  | discarded flow => exact performs_discarded now h hE flow
  | consume flow source total => exact performs_consume now h hE flow source total
  | settle flow source total => exact performs_settle now h hE flow source total
  | confirmClosed destination => exact performs_confirmClosed now h hE destination
  | tick => exact performs_tick now h

end

end Operations

end ConnectionLedger

end Windshare.Relay.Flow
