import Windshare.Relay.Handshake.Signed

/-!
# Runs of a control handshake

A run is any sequence of calls: frames of the peer, admissions of the host and timers, at any
times. What a handshake waits for is explained by the exchanges that brought it there, so an
authority outcome ends a complete ceremony: an admissible request, the challenge issued for it,
and the proof that answers exactly that challenge.
-/

namespace Windshare.Relay

open Windshare.Library Flow

/-- One call on a handshake. -/
inductive HandshakeInput where
  | frame (bytes : List UInt8) (now : UnixMillis)
  | admission (admission : Admission) (seed : ChallengeSeed) (now : UnixMillis)
  | expire (now : UnixMillis)
deriving DecidableEq

/-- What the call returns. -/
inductive HandshakeReply where
  | step (step : Step)
  | expired (ended : Bool)
deriving DecidableEq

structure Exchange where
  input : HandshakeInput
  reply : HandshakeReply
deriving DecidableEq

/-- A timer that fired before the deadline. -/
def Exchange.isIdle : Exchange → Bool
  | ⟨_, .expired false⟩ => true
  | _ => false

/-- The exchanges without the timers that did nothing. -/
def effective (exchanges : List Exchange) : List Exchange :=
  exchanges.filter fun x => !x.isIdle

namespace ControlHandshake

variable (crypto : Crypto)

def step (h : ControlHandshake) : HandshakeInput → HandshakeReply × ControlHandshake
  | .frame bytes now => ((.step (h.receive crypto bytes now).1), (h.receive crypto bytes now).2)
  | .admission admission seed now =>
    (.step (h.admitInitiation admission seed now).1, (h.admitInitiation admission seed now).2)
  | .expire now => (.expired (h.expire now).1, (h.expire now).2)

def run (h : ControlHandshake) : List HandshakeInput → List Exchange × ControlHandshake
  | [] => ([], h)
  | input :: inputs =>
    let rest := run (h.step crypto input).2 inputs
    (⟨input, (h.step crypto input).1⟩ :: rest.1, rest.2)

end ControlHandshake

/-! ### Ceremonies -/

namespace SenderRequest

/-- The key hash that a proof of this request must match. -/
def pkHash : SenderRequest → PkHash
  | .registration init _ => init.registration.route.pkHash
  | .stop init => init.route.pkHash

def IsProof (crypto : Crypto) (frame : List UInt8) (proof : SenderProof) : SenderRequest → Prop
  | .registration init _ => RegisterProof.decode crypto frame = .ok ⟨init.mode, proof⟩
  | .stop _ => StopProof.decode crypto frame = .ok proof

def ProvedBy (crypto : Crypto) (challenge : Challenge) (frame key : List UInt8)
    (request : SenderRequest) : Prop :=
  ∃ signature, request.IsProof crypto frame ⟨key, signature⟩ ∧
    PkHash.of crypto key = request.pkHash ∧
    crypto.verify key (request.preimage challenge) signature = true

end SenderRequest

namespace Ceremony

section

variable (crypto : Crypto) (relay : RelayIdentity) (connection : ConnectionRef)
  (opened : UnixMillis)

/-- A first frame in time asks for this registration. -/
def Registers (init : RegisterInit) (deadline : UnixMillis) (x : Exchange) : Prop :=
  ∃ frame now, x.input = .frame frame now ∧ now < opened.saturatingAdd firstFrameTimeout ∧
    Initiation.decode crypto frame = .ok (.register init) ∧
    deadline = now.saturatingAdd registrationTimeout

/-- A first frame in time asks for this STOP of this relay. -/
def Stops (init : StopInit) (deadline : UnixMillis) (x : Exchange) : Prop :=
  ∃ frame now, x.input = .frame frame now ∧ now < opened.saturatingAdd firstFrameTimeout ∧
    Initiation.decode crypto frame = .ok (.stop init) ∧ init.relay = relay ∧
    deadline = now.saturatingAdd stopTimeout

/-- A frame in time presents the token that the registration committed. -/
def Presents (init : RegisterInit) (deadline : UnixMillis) (x : Exchange) : Prop :=
  ∃ frame now token, x.input = .frame frame now ∧ now < deadline ∧
    ResumeCredential.decode frame = .ok token ∧
    ResumeTokenHash.of crypto token = init.registration.resumeTokenHash

/-- The exchanges of an admissible request. -/
inductive Requested : SenderRequest → UnixMillis → List Exchange → Prop
  | fresh {init : RegisterInit} {deadline : UnixMillis} {x : Exchange}
      (hmode : init.mode = .fresh) (h : Registers crypto opened init deadline x) :
      Requested (.registration init relay) deadline [x]
  | resume {init : RegisterInit} {deadline : UnixMillis} {x y : Exchange}
      (hmode : init.mode = .resume) (h : Registers crypto opened init deadline x)
      (hcredential : Presents crypto init deadline y) :
      Requested (.registration init relay) deadline [x, y]
  | stop {init : StopInit} {deadline : UnixMillis} {x : Exchange}
      (h : Stops crypto relay opened init deadline x) : Requested (.stop init) deadline [x]

/-- The host admits this request, of this connection and with this deadline. -/
def Admits (request : SenderRequest) (deadline : UnixMillis) (admission : Admission) : Prop :=
  match request, admission with
  | .registration init _, .fresh reservation =>
    init.mode = .fresh ∧ reservation.init = init ∧ reservation.id.relay = relay ∧
      reservation.id.connection = connection ∧ reservation.deadline = deadline
  | .registration init _, .resume attempt =>
    init.mode = .resume ∧ attempt.init = init ∧ attempt.id.relay = relay ∧
      attempt.id.connection = connection ∧ attempt.deadline = deadline
  | .stop _, .stop => True
  | _, _ => False

def Issues (request : SenderRequest) (deadline : UnixMillis) (admission : Admission)
    (challenge : Challenge) (x : Exchange) : Prop :=
  ∃ seed now, x = ⟨.admission admission seed now, .step (.sendChallenge challenge.encode)⟩ ∧
    now < deadline ∧ Admits relay connection request deadline admission ∧
    challenge = Challenge.issue request.purpose seed deadline

/-- A frame in time proves the request under this challenge. -/
def Proves (request : SenderRequest) (deadline : UnixMillis) (challenge : Challenge)
    (key : List UInt8) (x : Exchange) : Prop :=
  ∃ frame now, x.input = .frame frame now ∧ now < deadline ∧
    request.ProvedBy crypto challenge frame key

/-- A frame in time uploads the descriptor that the registration committed. -/
def Uploads (init : RegisterInit) (deadline : UnixMillis) (object : List UInt8) (x : Exchange) :
    Prop :=
  ∃ frame now, x.input = .frame frame now ∧ now < deadline ∧
    DescriptorUpload.decode frame = .ok object ∧
    DescriptorDigest.of crypto object = init.registration.descriptorDigest

/-- The outcome of a proved request; a fresh registration uploads its descriptor first. -/
inductive Concludes : SenderRequest → UnixMillis → Admission → List Exchange → Outcome → Prop
  | publish {init : RegisterInit} {deadline : UnixMillis} {reservation : FreshReservation}
      {object : List UInt8} {x : Exchange} (h : Uploads crypto init deadline object x) :
      Concludes (.registration init relay) deadline (.fresh reservation) [x]
        (.publish ⟨reservation.id, deadline, init, object⟩)
  | resume {init : RegisterInit} {deadline : UnixMillis} {attempt : ResumeAttempt} :
      Concludes (.registration init relay) deadline (.resume attempt) [] (.resume attempt)
  | stop {init : StopInit} {deadline : UnixMillis} :
      Concludes (.stop init) deadline .stop [] (.stop init)

/-- A request, its challenge and its proof, and what they conclude. -/
def Complete (request : SenderRequest) (challenge : Challenge) (key : List UInt8)
    (exchanges : List Exchange) (outcome : Outcome) : Prop :=
  ∃ deadline admission asked issued proved rest,
    exchanges = asked ++ issued :: proved :: rest ∧
    Requested crypto relay opened request deadline asked ∧
    Issues relay connection request deadline admission challenge issued ∧
    Proves crypto request deadline challenge key proved ∧
    Concludes crypto relay request deadline admission rest outcome

end

end Ceremony

/-! ### What explains a pending handshake -/

/-- The request that waits for the decision of this relay. -/
def AdmissionRequest.on (relay : RelayIdentity) : AdmissionRequest → SenderRequest
  | .registration init => .registration init relay
  | .stop init => .stop init

def RegistrationAdmission.granted : RegistrationAdmission → Admission
  | .fresh reservation => .fresh reservation
  | .resume attempt => .resume attempt

namespace ControlHandshake

open Ceremony

variable (crypto : Crypto) (opened : UnixMillis)

/-- The effective exchanges are the part of a ceremony that leads to what is awaited. -/
def Explained (h : ControlHandshake) (xs : List Exchange) : Prop :=
  match h.progress with
  | .finished => True
  | .pending .firstFrame deadline =>
    xs = [] ∧ deadline = opened.saturatingAdd firstFrameTimeout
  | .pending (.resumeCredential init) deadline =>
    ∃ x, xs = [x] ∧ init.mode = .resume ∧ Registers crypto opened init deadline x
  | .pending (.admission request) deadline =>
    Requested crypto h.relay opened (request.on h.relay) deadline xs
  | .pending (.registrationProof admission challenge) deadline =>
    ∃ asked issued, xs = asked ++ [issued] ∧
      Requested crypto h.relay opened (.registration admission.init h.relay) deadline asked ∧
      Issues h.relay h.connection (.registration admission.init h.relay) deadline
        admission.granted challenge issued
  | .pending (.descriptor init id) deadline =>
    ∃ asked issued proved reservation challenge key, xs = asked ++ [issued, proved] ∧
      reservation.id = id ∧
      Requested crypto h.relay opened (.registration init h.relay) deadline asked ∧
      Issues h.relay h.connection (.registration init h.relay) deadline (.fresh reservation)
        challenge issued ∧
      Proves crypto (.registration init h.relay) deadline challenge key proved
  | .pending (.stopProof init challenge) deadline =>
    ∃ asked issued, xs = asked ++ [issued] ∧
      Requested crypto h.relay opened (.stop init) deadline asked ∧
      Issues h.relay h.connection (.stop init) deadline .stop challenge issued

/-- What one exchange leaves behind: a handshake it explains, and a complete ceremony if it
yields authority. -/
structure Continues (h' : ControlHandshake) (xs : List Exchange) (step : Step) : Prop where
  explained : h'.Explained crypto opened xs
  complete : ∀ outcome, step = .complete outcome → outcome.IsAuthority →
    ∃ request challenge key,
      Complete crypto h'.relay h'.connection opened request challenge key xs outcome

variable {crypto opened} {h : ControlHandshake}

variable {xs : List Exchange} {init : RegisterInit} {challenge : Challenge} {asked : List Exchange}

/-- A handshake that finished without an outcome. -/
theorem Continues.of_finished {step : Step}
    (hfinished : h.progress = .finished) (hstep : ∀ outcome, step ≠ .complete outcome) :
    h.Continues crypto opened xs step where
  explained := by
    unfold Explained
    rw [hfinished]
    trivial
  complete := fun outcome houtcome _ => absurd houtcome (hstep outcome)

theorem Continues.of_pending {step : Step}
    (hexplained : h.Explained crypto opened xs) (hstep : ∀ outcome, step ≠ .complete outcome) :
    h.Continues crypto opened xs step where
  explained := hexplained
  complete := fun outcome houtcome _ => absurd houtcome (hstep outcome)

theorem Continues.of_complete {outcome : Outcome} (hfinished : h.progress = .finished)
    (hcomplete : outcome.IsAuthority → ∃ request challenge key,
      Complete crypto h.relay h.connection opened request challenge key xs outcome) :
    h.Continues crypto opened xs (.complete outcome) where
  explained := by
    unfold Explained
    rw [hfinished]
    trivial
  complete := by
    rintro _ ⟨⟩ hauthority
    exact hcomplete hauthority

section Frames

variable {frame : List UInt8} {deadline now : UnixMillis} {step : Step} {progress : Progress}

theorem registration_fresh (hmode : init.mode = .fresh) : registration init now =
      requestAdmission (.registration init) (now.saturatingAdd registrationTimeout) := by
  simp only [registration, hmode]

theorem registration_resume (hmode : init.mode = .resume) :
    registration init now = (.awaitFrame,
      .pending (.resumeCredential init) (now.saturatingAdd registrationTimeout)) := by
  simp only [registration, hmode]

theorem firstFrame_continues (hnow : now < opened.saturatingAdd firstFrameTimeout)
    (hr : h.firstFrame crypto frame now = .ok (step, progress)) :
    Continues crypto opened { h with progress } [⟨.frame frame now, .step step⟩] step := by
  obtain ⟨initiation, hdecode, hr⟩ := bind_eq_ok.mp hr
  rw [mapError_eq_ok] at hdecode
  cases initiation with
  | register init =>
    replace hr := Except.ok.inj hr
    have hregisters : Registers crypto opened init (now.saturatingAdd registrationTimeout)
        ⟨.frame frame now, .step step⟩ := ⟨frame, now, rfl, hnow, hdecode, rfl⟩
    cases hmode : init.mode with
    | fresh =>
      rw [registration_fresh hmode] at hr
      cases hr
      exact .of_pending (Requested.fresh hmode hregisters) nofun
    | resume =>
      rw [registration_resume hmode] at hr
      cases hr
      exact .of_pending ⟨_, rfl, hmode, hregisters⟩ nofun
  | stop init =>
    obtain ⟨_, hrelay, hr⟩ := bind_eq_ok.mp hr
    have haddressed : init.relay = h.relay := Decidable.not_not.mp (refuse_eq_ok.mp hrelay)
    cases hr
    exact .of_pending (Requested.stop ⟨frame, now, rfl, hnow, hdecode, haddressed, rfl⟩) nofun
  | join =>
    cases hr
    exact .of_complete rfl nofun

theorem resumeCredential_continues {x : Exchange} (hnow : now < deadline)
    (hmode : init.mode = .resume) (hx : Registers crypto opened init deadline x)
    (hr : resumeCredential crypto init frame deadline = .ok (step, progress)) :
    Continues crypto opened { h with progress } [x, ⟨.frame frame now, .step step⟩] step := by
  obtain ⟨token, hdecode, hr⟩ := bind_eq_ok.mp hr
  rw [mapError_eq_ok] at hdecode
  by_cases htoken : ResumeTokenHash.of crypto token ≠ init.registration.resumeTokenHash
  · rw [if_pos htoken] at hr
    cases hr
    exact .of_finished rfl nofun
  · rw [if_neg htoken] at hr
    cases hr
    exact .of_pending (Requested.resume hmode hx
      ⟨frame, now, token, rfl, hnow, hdecode, Decidable.not_not.mp htoken⟩) nofun

theorem authenticate_eq_ok {proof : SenderProof} {pkHash : PkHash} {preimage : List UInt8}
    {u : Unit} (h : proof.authenticate crypto pkHash preimage = .ok u) :
    PkHash.of crypto proof.sender = pkHash ∧
      crypto.verify proof.sender preimage proof.signature = true := by
  obtain ⟨_, hkey, hsignature⟩ := bind_eq_ok.mp h
  exact ⟨Decidable.not_not.mp (refuse_eq_ok.mp hkey),
    Bool.eq_true_of_not_eq_false (refuse_eq_ok.mp hsignature)⟩

theorem provedBy_registration
    {relay : RelayIdentity} {proof : RegisterProof} {mode : RegistrationMode}
    (hdecode : RegisterProof.decode crypto frame = .ok proof)
    (h : authenticateRegistration crypto init challenge relay proof now = .ok mode) :
    ∃ key, (SenderRequest.registration init relay).ProvedBy crypto challenge frame key := by
  obtain ⟨claimed, sender, signature⟩ := proof
  obtain ⟨_, -, h⟩ := bind_eq_ok.mp h
  obtain ⟨_, hmode, h⟩ := bind_eq_ok.mp h
  obtain ⟨_, -, h⟩ := bind_eq_ok.mp h
  obtain ⟨_, hproof, -⟩ := bind_eq_ok.mp h
  obtain ⟨hkey, hverify⟩ := authenticate_eq_ok hproof
  have hclaimed : claimed = init.mode := Decidable.not_not.mp (refuse_eq_ok.mp hmode)
  rw [hclaimed] at hdecode
  exact ⟨sender, signature, hdecode, hkey, hverify⟩

theorem provedBy_stop {init : StopInit} {relay : RelayIdentity}
    {proof : SenderProof} {u : Unit} (hdecode : StopProof.decode crypto frame = .ok proof)
    (h : authenticateStop crypto init challenge relay proof now = .ok u) :
    ∃ key, (SenderRequest.stop init).ProvedBy crypto challenge frame key := by
  obtain ⟨_, -, h⟩ := bind_eq_ok.mp h
  obtain ⟨_, -, h⟩ := bind_eq_ok.mp h
  obtain ⟨_, -, h⟩ := bind_eq_ok.mp h
  obtain ⟨hkey, hverify⟩ := authenticate_eq_ok h
  exact ⟨proof.sender, proof.signature, hdecode, hkey, hverify⟩

theorem registrationProof_continues {admission : RegistrationAdmission}
    {issued : Exchange} (hnow : now < deadline)
    (hasked : Requested crypto h.relay opened (.registration admission.init h.relay) deadline asked)
    (hissued : Issues h.relay h.connection (.registration admission.init h.relay) deadline
      admission.granted challenge issued)
    (hr : h.registrationProof crypto admission challenge frame deadline now =
      .ok (step, progress)) :
    Continues crypto opened { h with progress }
      (asked ++ [issued, ⟨.frame frame now, .step step⟩]) step := by
  obtain ⟨proof, hdecode, hr⟩ := bind_eq_ok.mp hr
  obtain ⟨mode, hauthentic, hr⟩ := bind_eq_ok.mp hr
  rw [mapError_eq_ok] at hdecode hauthentic
  obtain ⟨key, hproved⟩ := provedBy_registration hdecode hauthentic
  have hproves : Proves crypto (.registration admission.init h.relay) deadline challenge key
      ⟨.frame frame now, .step step⟩ := ⟨frame, now, rfl, hnow, hproved⟩
  cases admission with
  | fresh reservation =>
    cases mode with
    | fresh =>
      cases hr
      exact .of_pending ⟨asked, issued, _, reservation, challenge, key, rfl, rfl, hasked,
        hissued, hproves⟩ nofun
    | resume => cases hr
  | resume attempt =>
    cases mode with
    | fresh => cases hr
    | resume =>
      cases hr
      exact .of_complete rfl fun _ => ⟨_, challenge, key, deadline, .resume attempt, asked,
        issued, _, [], rfl, hasked, hissued, hproves, .resume⟩

theorem descriptor_continues {reservation : FreshReservation}
    {key : List UInt8} {issued proved : Exchange}
    (hnow : now < deadline)
    (hasked : Requested crypto h.relay opened (.registration init h.relay) deadline asked)
    (hissued : Issues h.relay h.connection (.registration init h.relay) deadline
      (.fresh reservation) challenge issued)
    (hproved : Proves crypto (.registration init h.relay) deadline challenge key proved)
    (hr : descriptor crypto init reservation.id deadline frame = .ok (step, progress)) :
    Continues crypto opened { h with progress }
      (asked ++ [issued, proved, ⟨.frame frame now, .step step⟩]) step := by
  obtain ⟨object, hdecode, hr⟩ := bind_eq_ok.mp hr
  obtain ⟨_, hdigest, hr⟩ := bind_eq_ok.mp hr
  rw [mapError_eq_ok] at hdecode
  have hcommitted := Decidable.not_not.mp (refuse_eq_ok.mp hdigest)
  cases hr
  exact .of_complete rfl fun _ => ⟨_, challenge, key, deadline, .fresh reservation, asked, issued,
    proved, _, rfl, hasked, hissued, hproved, .publish ⟨frame, now, rfl, hnow, hdecode, hcommitted⟩⟩

theorem stopProof_continues {init : StopInit} {issued : Exchange} (hnow : now < deadline)
    (hasked : Requested crypto h.relay opened (.stop init) deadline asked)
    (hissued : Issues h.relay h.connection (.stop init) deadline .stop challenge issued)
    (hr : h.stopProof crypto init challenge frame now = .ok (step, progress)) :
    Continues crypto opened { h with progress }
      (asked ++ [issued, ⟨.frame frame now, .step step⟩]) step := by
  obtain ⟨proof, hdecode, hr⟩ := bind_eq_ok.mp hr
  obtain ⟨_, hauthentic, hr⟩ := bind_eq_ok.mp hr
  rw [mapError_eq_ok] at hdecode hauthentic
  obtain ⟨key, hproved⟩ := provedBy_stop hdecode hauthentic
  cases hr
  exact .of_complete rfl fun _ => ⟨_, challenge, key, deadline, .stop, asked, issued, _, [], rfl,
    hasked, hissued, ⟨frame, now, rfl, hnow, hproved⟩, .stop⟩

theorem respond_continues {awaiting : Awaiting} (hpending : h.progress = .pending awaiting deadline)
    (hx : h.Explained crypto opened xs) (hnow : now < deadline)
    (hr : h.respond crypto awaiting deadline frame now = .ok (step, progress)) :
    Continues crypto opened { h with progress } (xs ++ [⟨.frame frame now, .step step⟩]) step := by
  unfold Explained at hx
  rw [hpending] at hx
  cases awaiting with
  | firstFrame =>
    obtain ⟨rfl, hdeadline⟩ := hx
    rw [hdeadline] at hnow
    exact firstFrame_continues hnow hr
  | resumeCredential =>
    obtain ⟨x, rfl, hmode, hregisters⟩ := hx
    exact resumeCredential_continues hnow hmode hregisters hr
  | admission => cases hr
  | registrationProof =>
    obtain ⟨asked, issued, rfl, hasked, hissued⟩ := hx
    rw [List.append_assoc]
    exact registrationProof_continues hnow hasked hissued hr
  | descriptor =>
    obtain ⟨asked, issued, proved, reservation, challenge, key, rfl, rfl, hasked, hissued,
      hproved⟩ := hx
    rw [List.append_assoc]
    exact descriptor_continues hnow hasked hissued hproved hr
  | stopProof =>
    obtain ⟨asked, issued, rfl, hasked, hissued⟩ := hx
    rw [List.append_assoc]
    exact stopProof_continues hnow hasked hissued hr

end Frames

/-! ### Calls -/

/-- A call closes the connection, or it was in time and did what its phase does. -/
theorem consume_cases (h : ControlHandshake) (now : UnixMillis) (whenFinished : CloseReason)
    (act : Awaiting → UnixMillis → Except CloseReason (Step × Progress)) :
    (∃ reason, h.consume now whenFinished act = (.close reason, { h with progress := .finished })) ∨
    ∃ awaiting deadline step progress, h.progress = .pending awaiting deadline ∧ now < deadline ∧
      act awaiting deadline = .ok (step, progress) ∧
      h.consume now whenFinished act = (step, { h with progress }) := by
  unfold consume takePending
  cases h.progress with
  | finished => exact .inl ⟨whenFinished, rfl⟩
  | pending awaiting deadline =>
    dsimp only
    by_cases hnow : now ≥ deadline
    · rw [if_pos hnow]
      exact .inl ⟨.expired, rfl⟩
    · rw [if_neg hnow]
      dsimp only
      cases hact : act awaiting deadline with
      | error reason => exact .inl ⟨reason, rfl⟩
      | ok result =>
        obtain ⟨step, progress⟩ := result
        exact .inr ⟨awaiting, deadline, step, progress, rfl, Nat.lt_of_not_ge hnow, hact, rfl⟩

theorem receive_continues (frame : List UInt8) (now : UnixMillis)
    (hx : h.Explained crypto opened xs) :
    Continues crypto opened (h.receive crypto frame now).2
      (xs ++ [⟨.frame frame now, .step (h.receive crypto frame now).1⟩])
      (h.receive crypto frame now).1 := by
  unfold receive
  obtain ⟨reason, hclose⟩ | ⟨awaiting, deadline, step, progress, hpending, hnow, hact, hstep⟩ :=
    h.consume_cases now .unexpectedFrame (fun awaiting deadline =>
      h.respond crypto awaiting deadline frame now)
  · rw [hclose]
    exact .of_finished rfl nofun
  · rw [hstep]
    exact respond_continues hpending hx hnow hact

theorem grant_continues {request : AdmissionRequest} {admission : Admission}
    {seed : ChallengeSeed} {deadline now : UnixMillis} {step : Step} {progress : Progress}
    (hnow : now < deadline)
    (hasked : Requested crypto h.relay opened (request.on h.relay) deadline xs)
    (hr : h.grant request admission seed deadline = .ok (step, progress)) :
    Continues crypto opened { h with progress }
      (xs ++ [⟨.admission admission seed now, .step step⟩]) step := by
  unfold grant at hr
  cases request with
  | registration init =>
    cases admission with
    | fresh | resume =>
      dsimp only at hr
      split at hr
      · rename_i hmatch
        obtain ⟨hmode, rfl, -⟩ := id hmatch
        cases hr
        exact .of_pending ⟨xs, _, rfl, hasked, seed, now, rfl, hnow, hmatch,
          by rw [SenderRequest.purpose, RegistrationAdmission.init, hmode]; rfl⟩ nofun
      · cases hr
    | stop => cases hr
  | stop =>
    cases admission with
    | fresh | resume => cases hr
    | stop =>
      cases hr
      exact .of_pending ⟨xs, _, rfl, hasked, seed, now, rfl, hnow, trivial, rfl⟩ nofun

theorem admitInitiation_continues (admission : Admission) (seed : ChallengeSeed) (now : UnixMillis)
    (hx : h.Explained crypto opened xs) :
    Continues crypto opened (h.admitInitiation admission seed now).2
      (xs ++ [⟨.admission admission seed now, .step (h.admitInitiation admission seed now).1⟩])
      (h.admitInitiation admission seed now).1 := by
  unfold admitInitiation
  obtain ⟨reason, hclose⟩ | ⟨awaiting, deadline, step, progress, hpending, hnow, hact, hstep⟩ :=
    h.consume_cases now .noPendingAdmission (h.answer admission seed)
  · rw [hclose]
    exact .of_finished rfl nofun
  · rw [hstep]
    unfold Explained at hx
    rw [hpending] at hx
    cases awaiting with
    | admission => exact grant_continues hnow hx hact
    | _ => cases hact

end ControlHandshake

end Windshare.Relay
