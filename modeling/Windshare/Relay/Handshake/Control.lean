import Windshare.Relay.Handshake.Frames

/-!
# The control handshake

From the first frame of a connection to the authority, refusal or close that ends its control
phase. Taking the pending input leaves the handshake finished, so a path that installs no
successor fails closed. A call returns what the host does next together with the handshake.
-/

namespace Windshare.Relay

open Windshare.Library Flow

/-! ### First frames -/

inductive FrameKind where
  | opaqueFrame
  | registerInit
  | registerProof
  | resumeCredential
  | descriptorUpload
  | stopInit
  | stopProof
  | join
  | sessionAdmitted
  | connectionProbe
  | deliveryConsumed
  | settlementAck
  | unsupported
deriving DecidableEq, Repr

def FrameKind.classify (bytes : List UInt8) : FrameKind :=
  let magic := bytes.take 4
  if magic = [87, 83, 50, 79] then .opaqueFrame
  else if magic = registerInitMagic then .registerInit
  else if magic = registerProofMagic then .registerProof
  else if magic = resumeCredentialMagic then .resumeCredential
  else if magic = descriptorUploadMagic then .descriptorUpload
  else if magic = stopInitMagic then .stopInit
  else if magic = stopProofMagic then .stopProof
  else if magic = joinMagic then .join
  else if magic = [87, 83, 50, 77] then .sessionAdmitted
  else if magic = [87, 83, 50, 72] then .connectionProbe
  else if magic = [87, 83, 50, 66] then .deliveryConsumed
  else if magic = [87, 83, 50, 83] then .settlementAck
  else .unsupported

/-- `Initiation`: what a first frame can ask for. -/
inductive Initiation where
  | register (init : RegisterInit)
  | join (join : Join)
  | stop (init : StopInit)
deriving DecidableEq

def Initiation.decode (crypto : Crypto) (frame : List UInt8) : Except FrameError Initiation :=
  match FrameKind.classify frame with
  | .registerInit => (RegisterInit.decode crypto frame).map .register
  | .join => (Join.decode frame).map .join
  | .stopInit => (StopInit.decode crypto frame).map .stop
  | _ => .error .header

/-! ### Authentication -/

inductive AuthenticationError where
  | purposeMismatch
  | modeMismatch
  | challengeExpired
  | relayMismatch
  | senderKeyMismatch
  | invalidSignature
deriving DecidableEq, Repr

def SenderProof.authenticate (crypto : Crypto) (proof : SenderProof) (pkHash : PkHash)
    (preimage : List UInt8) : Except AuthenticationError Unit := do
  refuse (PkHash.of crypto proof.sender ≠ pkHash) .senderKeyMismatch
  refuse (crypto.verify proof.sender preimage proof.signature = false) .invalidSignature

def authenticateRegistration (crypto : Crypto) (init : RegisterInit) (challenge : Challenge)
    (relay : RelayIdentity) (proof : RegisterProof) (now : UnixMillis) :
    Except AuthenticationError RegistrationMode := do
  refuse (challenge.purpose ≠ init.mode.challengePurpose) AuthenticationError.purposeMismatch
  refuse (proof.mode ≠ init.mode) AuthenticationError.modeMismatch
  refuse (challenge.isLiveAt now = false) AuthenticationError.challengeExpired
  proof.proof.authenticate crypto init.registration.route.pkHash (init.preimage challenge relay)
  return init.mode

def authenticateStop (crypto : Crypto) (init : StopInit) (challenge : Challenge)
    (relay : RelayIdentity) (proof : SenderProof) (now : UnixMillis) :
    Except AuthenticationError Unit := do
  refuse (challenge.purpose ≠ .stop) .purposeMismatch
  refuse (init.relay ≠ relay) .relayMismatch
  refuse (challenge.isLiveAt now = false) .challengeExpired
  proof.authenticate crypto init.route.pkHash (init.preimage challenge)

/-! ### Steps -/

/-- `Reservation`, the admission of one fresh handshake. -/
structure FreshReservation where
  id : OperationId
  init : RegisterInit
  attribution : Attribution
  deadline : UnixMillis
deriving DecidableEq

/-- `ResumeAttempt`, the admission of one resume with the ownership it observed. -/
structure ResumeAttempt where
  id : OperationId
  init : RegisterInit
  deadline : UnixMillis
  ownership : Option OwnershipId
deriving DecidableEq

inductive AdmissionRequest where
  | registration (init : RegisterInit)
  | stop (init : StopInit)
deriving DecidableEq

/-- `Admission`, the decision of the share's lifecycle. -/
inductive Admission where
  | fresh (reservation : FreshReservation)
  | resume (attempt : ResumeAttempt)
  | stop
deriving DecidableEq

/-- `Publication`: the attempt, its deadline, and the registration with its descriptor. -/
structure Publication where
  id : OperationId
  deadline : UnixMillis
  registration : RegisterInit
  object : List UInt8
deriving DecidableEq

structure JoinRequest where
  relay : RelayIdentity
  connection : ConnectionRef
  share : ShareId
  deadline : UnixMillis
  receiveCapacity : ReceiveCapacity
deriving DecidableEq

inductive Outcome where
  | publish (publication : Publication)
  | resume (attempt : ResumeAttempt)
  | stop (init : StopInit)
  | join (request : JoinRequest)
deriving DecidableEq

/-- Every outcome but a JOIN carries sender authority. -/
def Outcome.IsAuthority : Outcome → Prop
  | .join _ => False
  | _ => True

inductive CloseReason where
  | expired
  | malformed (error : FrameError)
  | unexpectedFrame
  | noPendingAdmission
  | admissionMismatch
  | misaddressedStop
  | unauthenticated (error : AuthenticationError)
  | descriptorMismatch
deriving DecidableEq, Repr

/-- `Step`. The only refusal of a handshake is `InvalidProof`. -/
inductive Step where
  | awaitFrame
  | requestAdmission (request : AdmissionRequest)
  | sendChallenge (encoded : List UInt8)
  | complete (outcome : Outcome)
  | refuseInvalidProof
  | close (reason : CloseReason)
deriving DecidableEq

/-! ### State -/

inductive RegistrationAdmission where
  | fresh (reservation : FreshReservation)
  | resume (attempt : ResumeAttempt)
deriving DecidableEq

def RegistrationAdmission.init : RegistrationAdmission → RegisterInit
  | .fresh reservation => reservation.init
  | .resume attempt => attempt.init

inductive Awaiting where
  | firstFrame
  | resumeCredential (init : RegisterInit)
  | admission (request : AdmissionRequest)
  | registrationProof (admission : RegistrationAdmission) (challenge : Challenge)
  | descriptor (registration : RegisterInit) (id : OperationId)
  | stopProof (init : StopInit) (challenge : Challenge)
deriving DecidableEq

inductive Progress where
  | pending (awaiting : Awaiting) (deadline : UnixMillis)
  | finished
deriving DecidableEq

structure ControlHandshake where
  relay : RelayIdentity
  connection : ConnectionRef
  progress : Progress
deriving DecidableEq

def firstFrameTimeout : Nat := 10000
def registrationTimeout : Nat := 5000
def stopTimeout : Nat := 10000
def sessionAdmissionTimeout : Nat := 30000

namespace ControlHandshake

def opened (relay : RelayIdentity) (connection : ConnectionRef) (now : UnixMillis) :
    ControlHandshake :=
  ⟨relay, connection, .pending .firstFrame (now.saturatingAdd firstFrameTimeout)⟩

def expire (h : ControlHandshake) (now : UnixMillis) : Bool × ControlHandshake :=
  match h.progress with
  | .pending _ deadline =>
    if now ≥ deadline then (true, { h with progress := .finished }) else (false, h)
  | .finished => (false, h)

def takePending (h : ControlHandshake) (now : UnixMillis) (whenFinished : CloseReason) :
    Except CloseReason (Awaiting × UnixMillis) :=
  match h.progress with
  | .finished => .error whenFinished
  | .pending awaiting deadline =>
    if now ≥ deadline then .error .expired else .ok (awaiting, deadline)

def requestAdmission (request : AdmissionRequest) (deadline : UnixMillis) : Step × Progress :=
  (.requestAdmission request, .pending (.admission request) deadline)

def registration (init : RegisterInit) (now : UnixMillis) : Step × Progress :=
  let deadline := now.saturatingAdd registrationTimeout
  match init.mode with
  | .fresh => requestAdmission (.registration init) deadline
  | .resume => (.awaitFrame, .pending (.resumeCredential init) deadline)

variable (crypto : Crypto) (h : ControlHandshake)

def stop (init : StopInit) (now : UnixMillis) : Except CloseReason (Step × Progress) := do
  refuse (init.relay ≠ h.relay) .misaddressedStop
  return requestAdmission (.stop init) (now.saturatingAdd stopTimeout)

def firstFrame (frame : List UInt8) (now : UnixMillis) : Except CloseReason (Step × Progress) := do
  match ← (Initiation.decode crypto frame).mapError .malformed with
  | .register init => return registration init now
  | .stop init => h.stop init now
  | .join join => return (.complete (.join {
      relay := h.relay
      connection := h.connection
      share := join.shareId
      deadline := now.saturatingAdd sessionAdmissionTimeout
      receiveCapacity := join.receiveCapacity }), .finished)

def resumeCredential (init : RegisterInit) (frame : List UInt8) (deadline : UnixMillis) :
    Except CloseReason (Step × Progress) := do
  let token ← (ResumeCredential.decode frame).mapError .malformed
  if ResumeTokenHash.of crypto token ≠ init.registration.resumeTokenHash then
    return (.refuseInvalidProof, .finished)
  else return requestAdmission (.registration init) deadline

def registrationProof (admission : RegistrationAdmission) (challenge : Challenge)
    (frame : List UInt8) (deadline now : UnixMillis) :
    Except CloseReason (Step × Progress) := do
  let proof ← (RegisterProof.decode crypto frame).mapError .malformed
  let authority ← (authenticateRegistration crypto admission.init challenge h.relay proof
    now).mapError .unauthenticated
  match admission, authority with
  | .fresh reservation, .fresh =>
    return (.awaitFrame, .pending (.descriptor reservation.init reservation.id) deadline)
  | .resume attempt, .resume => return (.complete (.resume attempt), .finished)
  | _, _ => throw .admissionMismatch

def descriptor (registration : RegisterInit) (id : OperationId) (deadline : UnixMillis)
    (frame : List UInt8) : Except CloseReason (Step × Progress) := do
  let object ← (DescriptorUpload.decode frame).mapError .malformed
  refuse (DescriptorDigest.of crypto object ≠ registration.registration.descriptorDigest)
    .descriptorMismatch
  return (.complete (.publish ⟨id, deadline, registration, object⟩), .finished)

def stopProof (init : StopInit) (challenge : Challenge) (frame : List UInt8) (now : UnixMillis) :
    Except CloseReason (Step × Progress) := do
  let proof ← (StopProof.decode crypto frame).mapError .malformed
  let _ ← (authenticateStop crypto init challenge h.relay proof now).mapError .unauthenticated
  return (.complete (.stop init), .finished)

/-- The frame that the phase waits for. -/
def respond (awaiting : Awaiting) (deadline : UnixMillis) (frame : List UInt8)
    (now : UnixMillis) : Except CloseReason (Step × Progress) :=
  match awaiting with
  | .firstFrame => h.firstFrame crypto frame now
  | .resumeCredential init => resumeCredential crypto init frame deadline
  | .admission _ => .error .unexpectedFrame
  | .registrationProof admission challenge =>
    h.registrationProof crypto admission challenge frame deadline now
  | .descriptor registration id => descriptor crypto registration id deadline frame
  | .stopProof init challenge => h.stopProof crypto init challenge frame now

/-- One call: take the pending input, act on it, and install what it leads to. -/
def consume (now : UnixMillis) (whenFinished : CloseReason)
    (act : Awaiting → UnixMillis → Except CloseReason (Step × Progress)) :
    Step × ControlHandshake :=
  match h.takePending now whenFinished with
  | .error reason => (.close reason, { h with progress := .finished })
  | .ok (awaiting, deadline) =>
    match act awaiting deadline with
    | .error reason => (.close reason, { h with progress := .finished })
    | .ok (step, progress) => (step, { h with progress })

def receive (frame : List UInt8) (now : UnixMillis) : Step × ControlHandshake :=
  h.consume now .unexpectedFrame fun awaiting deadline =>
    h.respond crypto awaiting deadline frame now

/-- The challenge that an admission of the pending request issues. -/
def grant (request : AdmissionRequest) (admission : Admission) (seed : ChallengeSeed)
    (deadline : UnixMillis) : Except CloseReason (Step × Progress) :=
  match request, admission with
  | .registration init, .fresh reservation =>
    if init.mode = .fresh ∧ reservation.init = init ∧ reservation.id.relay = h.relay ∧
        reservation.id.connection = h.connection ∧ reservation.deadline = deadline then
      let challenge := Challenge.issue .register seed deadline
      .ok (.sendChallenge challenge.encode,
        .pending (.registrationProof (.fresh reservation) challenge) deadline)
    else .error .admissionMismatch
  | .registration init, .resume attempt =>
    if init.mode = .resume ∧ attempt.init = init ∧ attempt.id.relay = h.relay ∧
        attempt.id.connection = h.connection ∧ attempt.deadline = deadline then
      let challenge := Challenge.issue .resume seed deadline
      .ok (.sendChallenge challenge.encode,
        .pending (.registrationProof (.resume attempt) challenge) deadline)
    else .error .admissionMismatch
  | .stop init, .stop =>
    let challenge := Challenge.issue .stop seed deadline
    .ok (.sendChallenge challenge.encode, .pending (.stopProof init challenge) deadline)
  | _, _ => .error .admissionMismatch

/-- What an admission does in each phase. -/
def answer (admission : Admission) (seed : ChallengeSeed) (awaiting : Awaiting)
    (deadline : UnixMillis) : Except CloseReason (Step × Progress) :=
  match awaiting with
  | .admission request => h.grant request admission seed deadline
  | _ => .error .noPendingAdmission

def admitInitiation (admission : Admission) (seed : ChallengeSeed) (now : UnixMillis) :
    Step × ControlHandshake :=
  h.consume now .noPendingAdmission (h.answer admission seed)

end ControlHandshake

end Windshare.Relay
