import Windshare.Relay.Handshake.Exchange

/-!
# Authority of a handshake

An authority outcome in any run of a handshake ends a complete ceremony on its connection, the
proof of which signs the issued challenge and no other. A frame that the phase does not expect,
or that comes too late, finishes the handshake without an outcome, and a finished handshake
yields none.
-/

namespace Windshare.Relay

open Windshare.Library Codec Flow Ceremony

/-! ### Valid ceremonies -/

variable {xs : List Exchange} {input : HandshakeInput} {outcome : Outcome} {init : RegisterInit}
  {x : Exchange}

section

variable {crypto : Crypto} {relay : RelayIdentity} {connection : ConnectionRef}
  {opened deadline : UnixMillis} {request : SenderRequest}

theorem map_eq_ok {ε α β : Type} {f : α → β} {x : Except ε α} {b : β} (h : x.map f = .ok b) :
    ∃ a, x = .ok a ∧ f a = b := by
  cases x with
  | error => cases h
  | ok a => exact ⟨a, rfl, Except.ok.inj h⟩

theorem Initiation.valid_of_decode {frame : List UInt8} {initiation : Initiation}
    (h : Initiation.decode crypto frame = .ok initiation) :
    (∀ init, initiation = .register init → init.registration.Valid crypto.derived) ∧
      ∀ init, initiation = .stop init → init.Valid crypto := by
  unfold Initiation.decode at h
  split at h
  · obtain ⟨init, hdecode, rfl⟩ := map_eq_ok h
    refine ⟨?_, nofun⟩
    rintro _ ⟨⟩
    exact (RegisterInit.of_decode hdecode).1
  · obtain ⟨join, -, rfl⟩ := map_eq_ok h
    exact ⟨nofun, nofun⟩
  · obtain ⟨init, hdecode, rfl⟩ := map_eq_ok h
    refine ⟨nofun, ?_⟩
    rintro _ ⟨⟩
    exact StopInit.of_decode hdecode
  · cases h

theorem Ceremony.Registers.valid (h : Registers crypto opened init deadline x) :
    init.registration.Valid crypto.derived ∧ deadline ≤ u64Max := by
  obtain ⟨frame, now, -, -, hdecode, hdeadline⟩ := h
  rw [hdeadline]
  exact ⟨(Initiation.valid_of_decode hdecode).1 init rfl, saturatingAdd_le _ _⟩

theorem Ceremony.Requested.valid (hrelay : Nonzero 32 relay.value)
    (h : Requested crypto relay opened request deadline xs) :
    request.Valid crypto ∧ deadline ≤ u64Max := by
  cases h with
  | fresh _ hregisters | resume _ hregisters =>
    obtain ⟨hinit, hdeadline⟩ := Registers.valid hregisters
    exact ⟨⟨hinit, hrelay⟩, hdeadline⟩
  | stop hstops =>
    obtain ⟨frame, now, -, -, hdecode, -, hdeadline⟩ := hstops
    rw [hdeadline]
    exact ⟨(Initiation.valid_of_decode hdecode).2 _ rfl, saturatingAdd_le _ _⟩

theorem Ceremony.Issues.valid {admission : Admission} {challenge : Challenge}
    (hdeadline : deadline ≤ u64Max)
    (h : Issues relay connection request deadline admission challenge x) : challenge.Valid := by
  obtain ⟨seed, now, -, -, -, rfl⟩ := h
  exact Challenge.valid_issue hdeadline

end

/-! ### Runs -/

namespace ControlHandshake

variable {crypto : Crypto} {opened : UnixMillis} {h : ControlHandshake}

theorem consume_identity (h : ControlHandshake) (now : UnixMillis) (whenFinished : CloseReason)
    (act : Awaiting → UnixMillis → Except CloseReason (Step × Progress)) :
    (h.consume now whenFinished act).2.relay = h.relay ∧
      (h.consume now whenFinished act).2.connection = h.connection := by
  obtain ⟨reason, hclose⟩ | ⟨_, _, _, _, -, -, -, hstep⟩ := h.consume_cases now whenFinished act
  · rw [hclose]
    exact ⟨rfl, rfl⟩
  · rw [hstep]
    exact ⟨rfl, rfl⟩

/-- A timer does nothing before the deadline and finishes the handshake from then on. -/
theorem expire_cases (h : ControlHandshake) (now : UnixMillis) :
    h.expire now = (false, h) ∨ h.expire now = (true, { h with progress := .finished }) := by
  unfold expire
  split
  · split
    · exact .inr rfl
    · exact .inl rfl
  · exact .inl rfl

theorem step_identity (h : ControlHandshake) (crypto : Crypto) (input : HandshakeInput) :
    (h.step crypto input).2.relay = h.relay ∧
      (h.step crypto input).2.connection = h.connection := by
  cases input with
  | frame | admission => exact h.consume_identity _ _ _
  | expire now =>
    obtain hidle | hended := h.expire_cases now
    · exact ⟨congrArg (fun r => r.2.relay) hidle, congrArg (fun r => r.2.connection) hidle⟩
    · exact ⟨congrArg (fun r => r.2.relay) hended, congrArg (fun r => r.2.connection) hended⟩

theorem effective_append_step {step : Step} :
    effective (xs ++ [⟨input, .step step⟩]) = effective xs ++ [⟨input, .step step⟩] := by
  unfold effective
  rw [List.filter_append]
  rfl

/-- One call keeps the explanation of the handshake by its effective exchanges. -/
theorem step_explained (hx : h.Explained crypto opened (effective xs))
    (input : HandshakeInput) :
    (h.step crypto input).2.Explained crypto opened
      (effective (xs ++ [⟨input, (h.step crypto input).1⟩])) := by
  cases input with
  | frame bytes now =>
    change Explained crypto opened (h.receive crypto bytes now).2 (effective (xs ++ [⟨_, .step _⟩]))
    rw [effective_append_step]
    exact (receive_continues bytes now hx).explained
  | admission admission seed now =>
    change Explained crypto opened (h.admitInitiation admission seed now).2
      (effective (xs ++ [⟨_, .step _⟩]))
    rw [effective_append_step]
    exact (admitInitiation_continues admission seed now hx).explained
  | expire now =>
    change Explained crypto opened (h.expire now).2 (effective (xs ++ [⟨_, .expired _⟩]))
    obtain hidle | hended := h.expire_cases now
    · have heffective : effective (xs ++ [⟨.expire now, .expired false⟩]) = effective xs := by
        unfold effective
        rw [List.filter_append]
        exact List.append_nil _
      rw [hidle, heffective]
      exact hx
    · rw [hended]
      trivial

theorem step_complete (hx : h.Explained crypto opened (effective xs))
    (hauthority : outcome.IsAuthority)
    (hreply : (h.step crypto input).1 = .step (.complete outcome)) :
    ∃ request challenge key, Complete crypto h.relay h.connection opened request challenge key
      (effective xs ++ [⟨input, (h.step crypto input).1⟩]) outcome := by
  obtain ⟨hrelay, hconnection⟩ := h.step_identity crypto input
  cases input with
  | frame bytes now =>
    have hcomplete := (receive_continues bytes now hx).complete outcome
      (HandshakeReply.step.inj hreply) hauthority
    exact hrelay ▸ hconnection ▸ hcomplete
  | admission admission seed now =>
    have hcomplete := (admitInitiation_continues admission seed now hx).complete outcome
      (HandshakeReply.step.inj hreply) hauthority
    exact hrelay ▸ hconnection ▸ hcomplete
  | expire => cases hreply

theorem run_complete {inputs : List HandshakeInput} {xs before after : List Exchange}
    (hx : h.Explained crypto opened (effective xs))
    (hauthority : outcome.IsAuthority)
    (hrun : (h.run crypto inputs).1 = before ++ ⟨input, .step (.complete outcome)⟩ :: after) :
    ∃ request challenge key, Complete crypto h.relay h.connection opened request challenge key
      (effective (xs ++ before) ++ [⟨input, .step (.complete outcome)⟩]) outcome := by
  induction inputs generalizing h xs before with
  | nil => cases before <;> cases hrun
  | cons next inputs ih =>
    cases before with
    | nil =>
      obtain ⟨hhead, -⟩ := List.cons.inj hrun
      obtain ⟨rfl, hreply⟩ := Exchange.mk.inj hhead
      have hcomplete := step_complete hx hauthority hreply
      rw [hreply] at hcomplete
      rw [List.append_nil]
      exact hcomplete
    | cons =>
      obtain ⟨rfl, htail⟩ := List.cons.inj hrun
      obtain ⟨hrelay, hconnection⟩ := h.step_identity crypto next
      have hcomplete := ih (step_explained hx next) htail
      rw [hrelay, hconnection, List.append_assoc] at hcomplete
      exact hcomplete

end ControlHandshake

/-! ### Frames that are not expected -/

/-- The frame that the phase waits for. Nothing is expected while the host decides. -/
def Awaiting.Expects (crypto : Crypto) (relay : RelayIdentity) (frame : List UInt8) :
    Awaiting → Prop
  | .firstFrame => ∃ initiation, Initiation.decode crypto frame = .ok initiation ∧
      ∀ init, initiation = .stop init → init.relay = relay
  | .resumeCredential init => ∃ token, ResumeCredential.decode frame = .ok token ∧
      ResumeTokenHash.of crypto token = init.registration.resumeTokenHash
  | .admission _ => False
  | .registrationProof granted challenge =>
    ∃ key, (SenderRequest.registration granted.init relay).ProvedBy crypto challenge frame key
  | .descriptor init _ => ∃ object, DescriptorUpload.decode frame = .ok object ∧
      DescriptorDigest.of crypto object = init.registration.descriptorDigest
  | .stopProof init challenge =>
    ∃ key, (SenderRequest.stop init).ProvedBy crypto challenge frame key

/-- The handshake is over, the time is, or the phase waits for another frame. -/
def ControlHandshake.Unexpected (crypto : Crypto) (h : ControlHandshake) (frame : List UInt8)
    (now : UnixMillis) : Prop :=
  ∀ awaiting deadline, h.progress = .pending awaiting deadline →
    deadline ≤ now ∨ ¬ awaiting.Expects crypto h.relay frame

namespace ControlHandshake

variable {crypto : Crypto} {h : ControlHandshake} {frame : List UInt8}
  {deadline now : UnixMillis} {step : Step} {progress : Progress}

theorem firstFrame_expects (hr : h.firstFrame crypto frame now = .ok (step, progress)) :
    Awaiting.firstFrame.Expects crypto h.relay frame := by
  obtain ⟨initiation, hdecode, hr⟩ := bind_eq_ok.mp hr
  refine ⟨initiation, mapError_eq_ok.mp hdecode, ?_⟩
  rintro init rfl
  obtain ⟨_, hrelay, -⟩ := bind_eq_ok.mp hr
  exact Decidable.not_not.mp (refuse_eq_ok.mp hrelay)

theorem resumeCredential_expects
    (hr : resumeCredential crypto init frame deadline = .ok (step, progress)) :
    (Awaiting.resumeCredential init).Expects crypto h.relay frame ∨
      step = .refuseInvalidProof ∧ progress = .finished := by
  obtain ⟨token, hdecode, hr⟩ := bind_eq_ok.mp hr
  by_cases htoken : ResumeTokenHash.of crypto token ≠ init.registration.resumeTokenHash
  · rw [if_pos htoken] at hr
    cases hr
    exact .inr ⟨rfl, rfl⟩
  · exact .inl ⟨token, mapError_eq_ok.mp hdecode, Decidable.not_not.mp htoken⟩

/-- A phase acts on the frame it expects; it refuses only a token that does not match. -/
theorem respond_expects {awaiting : Awaiting}
    (hr : h.respond crypto awaiting deadline frame now = .ok (step, progress)) :
    awaiting.Expects crypto h.relay frame ∨ step = .refuseInvalidProof ∧ progress = .finished := by
  cases awaiting with
  | firstFrame => exact .inl (firstFrame_expects hr)
  | resumeCredential => exact resumeCredential_expects hr
  | admission => cases hr
  | registrationProof =>
    obtain ⟨proof, hdecode, hr⟩ := bind_eq_ok.mp hr
    obtain ⟨mode, hauthentic, -⟩ := bind_eq_ok.mp hr
    rw [mapError_eq_ok] at hdecode hauthentic
    exact .inl (provedBy_registration hdecode hauthentic)
  | descriptor =>
    obtain ⟨object, hdecode, hr⟩ := bind_eq_ok.mp hr
    obtain ⟨_, hdigest, -⟩ := bind_eq_ok.mp hr
    exact .inl ⟨object, mapError_eq_ok.mp hdecode, Decidable.not_not.mp (refuse_eq_ok.mp hdigest)⟩
  | stopProof =>
    obtain ⟨proof, hdecode, hr⟩ := bind_eq_ok.mp hr
    obtain ⟨_, hauthentic, -⟩ := bind_eq_ok.mp hr
    rw [mapError_eq_ok] at hdecode hauthentic
    exact .inl (provedBy_stop hdecode hauthentic)

/-- Any other frame, and any frame after the deadline, finishes the handshake. -/
theorem receive_unexpected (hother : h.Unexpected crypto frame now) :
    (h.receive crypto frame now).2.progress = .finished ∧
      ∀ outcome, (h.receive crypto frame now).1 ≠ .complete outcome := by
  unfold receive
  obtain ⟨reason, hclose⟩ | ⟨awaiting, deadline, step, progress, hpending, hnow, hact, hstep⟩ :=
    h.consume_cases now .unexpectedFrame (fun awaiting deadline =>
      h.respond crypto awaiting deadline frame now)
  · rw [hclose]
    exact ⟨rfl, nofun⟩
  · rw [hstep]
    obtain hlate | hunexpected := hother awaiting deadline hpending
    · exact absurd hnow (Nat.not_lt.mpr hlate)
    · obtain hexpects | ⟨rfl, rfl⟩ := respond_expects hact
      · exact absurd hexpects hunexpected
      · exact ⟨rfl, nofun⟩

/-! ### Finished handshakes -/

theorem consume_finished (hfinished : h.progress = .finished) (whenFinished : CloseReason)
    (act : Awaiting → UnixMillis → Except CloseReason (Step × Progress)) :
    h.consume now whenFinished act = (.close whenFinished, { h with progress := .finished }) := by
  unfold consume takePending
  rw [hfinished]

theorem step_finished (crypto : Crypto) (hfinished : h.progress = .finished)
    (input : HandshakeInput) :
    (h.step crypto input).2.progress = .finished ∧
      ∀ outcome, (h.step crypto input).1 ≠ .step (.complete outcome) := by
  cases input with
  | frame | admission =>
    change (h.consume _ _ _).2.progress = _ ∧ ∀ outcome, HandshakeReply.step (h.consume _ _ _).1 ≠ _
    rw [consume_finished hfinished]
    exact ⟨rfl, nofun⟩
  | expire now =>
    refine ⟨?_, nofun⟩
    change (h.expire now).2.progress = _
    obtain hidle | hended := h.expire_cases now
    · rw [hidle]
      exact hfinished
    · rw [hended]

/-- A finished handshake stays finished and yields nothing. -/
theorem run_finished (hfinished : h.progress = .finished) (inputs : List HandshakeInput) :
    (h.run crypto inputs).2.progress = .finished ∧
      ∀ x ∈ (h.run crypto inputs).1, ∀ outcome, x.reply ≠ .step (.complete outcome) := by
  induction inputs generalizing h with
  | nil => exact ⟨hfinished, fun x hx => absurd hx List.not_mem_nil⟩
  | cons input inputs ih =>
    obtain ⟨hnext, hreply⟩ := step_finished crypto hfinished input
    obtain ⟨hlast, hreplies⟩ := ih hnext
    refine ⟨hlast, ?_⟩
    intro x hx
    obtain rfl | hx := List.mem_cons.mp hx
    · exact hreply
    · exact hreplies x hx

end ControlHandshake

/-! ### Every run -/

/-- The sender of the key signed this request under this challenge, and what was signed is
neither another request nor a request under another challenge. -/
def SignedExactly (crypto : Crypto) (signed : List UInt8 → List UInt8 → Prop) (key : List UInt8)
    (request : SenderRequest) (challenge : Challenge) : Prop :=
  signed key (request.preimage challenge) ∧
    ∀ request' challenge', request'.Valid crypto → challenge'.Valid →
      request'.preimage challenge' = request.preimage challenge →
      request' = request ∧ challenge'.id = challenge.id ∧ challenge'.nonce = challenge.nonce ∧
        challenge'.expiresAt = challenge.expiresAt

theorem Ceremony.Complete.signedExactly {crypto : Crypto} {signed : List UInt8 → List UInt8 → Prop}
    (hunforgeable : ∀ key message signature, crypto.verify key message signature = true →
      signed key message) {relay : RelayIdentity} (hrelay : Nonzero 32 relay.value)
    {connection : ConnectionRef} {opened : UnixMillis} {request : SenderRequest}
    {challenge : Challenge} {key : List UInt8}
    (h : Complete crypto relay connection opened request challenge key xs outcome) :
    SignedExactly crypto signed key request challenge := by
  obtain ⟨deadline, admission, asked, issued, proved, rest, -, hasked, hissued, hproved, -⟩ := h
  obtain ⟨hrequest, hdeadline⟩ := hasked.valid hrelay
  have hchallenge := Ceremony.Issues.valid hdeadline hissued
  obtain ⟨frame, now, -, -, signature, -, -, hverify⟩ := hproved
  refine ⟨hunforgeable key _ signature hverify, ?_⟩
  intro request' challenge' hrequest' hchallenge' hpreimage
  exact SenderRequest.preimage_inj hrequest' hrequest hchallenge' hchallenge hpreimage

/-- In every run of a handshake: an authority outcome ends a ceremony of this connection, made of
an admissible request, its challenge and a proof of exactly that challenge, each in time; any
other or late frame finishes the handshake without an outcome; and so it stays. -/
theorem handshake_authority (crypto : Crypto) (signed : List UInt8 → List UInt8 → Prop)
    (hunforgeable : ∀ key message signature, crypto.verify key message signature = true →
      signed key message) (relay : RelayIdentity) (hrelay : Nonzero 32 relay.value)
    (connection : ConnectionRef) (opened : UnixMillis) (inputs : List HandshakeInput) :
    let run := (ControlHandshake.opened relay connection opened).run crypto inputs
    (∀ before input outcome after,
      run.1 = before ++ ⟨input, .step (.complete outcome)⟩ :: after → outcome.IsAuthority →
      ∃ request challenge key,
        Complete crypto relay connection opened request challenge key
          (effective before ++ [⟨input, .step (.complete outcome)⟩]) outcome ∧
        SignedExactly crypto signed key request challenge) ∧
    (∀ frame now, run.2.Unexpected crypto frame now →
      (run.2.receive crypto frame now).2.progress = .finished ∧
        ∀ outcome, (run.2.receive crypto frame now).1 ≠ .complete outcome) ∧
    (run.2.progress = .finished → ∀ later,
      (run.2.run crypto later).2.progress = .finished ∧
        ∀ x ∈ (run.2.run crypto later).1, ∀ outcome, x.reply ≠ .step (.complete outcome)) := by
  intro run
  refine ⟨?_, fun frame now => ControlHandshake.receive_unexpected,
    fun hfinished later => ControlHandshake.run_finished hfinished later⟩
  intro before input outcome after hrun hauthority
  have hstart : (ControlHandshake.opened relay connection opened).Explained crypto opened
      (effective []) := ⟨rfl, rfl⟩
  obtain ⟨request, challenge, key, hcomplete⟩ :=
    ControlHandshake.run_complete hstart hauthority hrun
  exact ⟨request, challenge, key, hcomplete, hcomplete.signedExactly hunforgeable hrelay⟩

/-! ### A run that stops a share -/

namespace StopSample

/-- A constant digest, and signatures that repeat the start of the message. -/
def crypto : Crypto where
  sha256 := fun _ => List.replicate 32 1
  acceptsKey := fun _ => true
  verify := fun _ message signature => signature == message.take 64

def relay : RelayIdentity := ⟨1⟩

def stopInit : StopInit where
  route := ⟨⟨ofBigEndian (List.replicate 12 1)⟩, ⟨ofBigEndian (List.replicate 16 1)⟩⟩
  shareInstance := ⟨5⟩
  relay := relay
  stopId := ⟨7⟩

def request : List UInt8 :=
  StopInitFields.encode ⟨stopInit.route.shareId.value, 5, stopInit.route.pkHash.value, 1, 7⟩

def seed : ChallengeSeed := ⟨⟨3⟩, ⟨4⟩, ⟨by decide, by decide⟩, ⟨by decide, by decide⟩⟩

def challenge : Challenge := Challenge.issue .stop seed 11000

def proof : List UInt8 :=
  [putHeader stopProofMagic 0, List.replicate 32 9, (stopInit.preimage challenge).take 64].flatten

/-- A timer that fires early, the request, its admission and the proof. -/
def inputs : List HandshakeInput :=
  [.expire 500, .frame request 1000, .admission .stop seed 2000, .frame proof 3000]

def before : List Exchange :=
  [⟨.expire 500, .expired false⟩,
    ⟨.frame request 1000, .step (.requestAdmission (.stop stopInit))⟩,
    ⟨.admission .stop seed 2000, .step (.sendChallenge challenge.encode)⟩]

end StopSample

theorem handshake_authority_stop :
    ∃ request challenge key,
      Complete StopSample.crypto StopSample.relay ⟨1, 1⟩ 0 request challenge key
        (effective StopSample.before ++
          [⟨.frame StopSample.proof 3000, .step (.complete (.stop StopSample.stopInit))⟩])
        (.stop StopSample.stopInit) ∧
      SignedExactly StopSample.crypto
        (fun key message => ∃ signature, StopSample.crypto.verify key message signature = true)
        key request challenge :=
  (handshake_authority StopSample.crypto _ (fun _ _ signature hverify => ⟨signature, hverify⟩)
    StopSample.relay (by decide) ⟨1, 1⟩ 0 StopSample.inputs).1 StopSample.before _ _ []
    (by decide +kernel) trivial

end Windshare.Relay
