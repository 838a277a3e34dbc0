import Windshare.Relay.Handshake.Control

/-!
# What a sender signs

A request frame that decodes is well formed, and no frame decodes to two requests. The bytes a
sender signs for a request under a challenge determine both: the domains tell the operations
apart, and after the domain every field has a fixed width. A signature for one challenge is
therefore never a signature for another.
-/

namespace Windshare.Relay

open Windshare.Library Layout Codec Flow

/-! ### Well-formed requests -/

/-- A STOP whose frame can be decoded. -/
structure StopInit.Valid (crypto : Crypto) (init : StopInit) : Prop where
  route : init.route.Valid crypto.derived
  shareInstance : Nonzero 16 init.shareInstance.value
  relay : Nonzero 32 init.relay.value
  stopId : Nonzero 16 init.stopId.value

/-- A challenge that `Challenge::issue` makes within a deadline of 64 bits. -/
structure Challenge.Valid (c : Challenge) : Prop where
  id : Nonzero 16 c.id.value
  nonce : Nonzero 32 c.nonce.value
  expiresAt : Fits 8 c.expiresAt

theorem saturatingAdd_le (now : UnixMillis) (millis : Nat) : now.saturatingAdd millis ≤ u64Max :=
  Nat.min_le_right _ _

theorem Challenge.valid_issue {purpose : ChallengePurpose} {seed : ChallengeSeed}
    {deadline : UnixMillis} (h : deadline ≤ u64Max) :
    (Challenge.issue purpose seed deadline).Valid where
  id := seed.id_nonzero
  nonce := seed.nonce_nonzero
  expiresAt := by
    have hseconds : ∀ at' : Nat, at' ≤ 2 ^ 64 - 1 → (at' + 999) / 1000 < 256 ^ 8 := by
      intro at' hat
      omega
    exact hseconds deadline h

theorem discriminatorOf_eq_some {magic header : List UInt8} (hmagic : magic.length = 4)
    (hlength : header.length = 8) {d : UInt8} :
    discriminatorOf magic header = some d ↔ True ∧ putHeader magic d = header := by
  match header, hlength with
  | [a, b, c, e, version, discriminator, r, r'], _ =>
    match magic, hmagic with
    | [m, m', m'', m'''], _ =>
      unfold discriminatorOf putHeader
      simp
      grind

variable {magic : List UInt8} {frame : List UInt8}

theorem reads_openDiscriminated (hmagic : magic.length = 4) :
    Reads (openDiscriminated magic) (fun _ => True) (putHeader magic) :=
  reads_block (fun d _ => by simp [putHeader, hmagic])
    (fun _ _ hlength => discriminatorOf_eq_some hmagic hlength)

theorem reads_openReserved (hmagic : magic.length = 4) :
    Reads (openReserved magic) (fun _ => True) (fun _ => putHeader magic 0) := by
  apply (reads_openDiscriminated hmagic).convert
  · exact fun _ => ⟨fun _ => ⟨0, trivial, if_pos rfl⟩, fun _ => trivial⟩
  · intro d u _ hd
    by_cases hzero : d = 0
    · rw [hzero]
    · rw [if_neg hzero] at hd
      cases hd

theorem RegistrationMode.fromWire_eq_some {d : UInt8} {mode : RegistrationMode} :
    fromWire d = some mode ↔ mode.wire = d := by
  unfold fromWire
  cases mode <;> simp [wire] <;> grind

theorem reads_mode (hmagic : magic.length = 4) :
    Reads (convert (openDiscriminated magic) RegistrationMode.fromWire .discriminator)
      (fun _ => True) (fun mode => putHeader magic mode.wire) := by
  apply (reads_openDiscriminated hmagic).convert
  · exact fun mode =>
      ⟨fun _ => ⟨mode.wire, trivial, RegistrationMode.fromWire_eq_some.mpr rfl⟩, fun _ => trivial⟩
  · intro d mode _ hmode
    rw [RegistrationMode.fromWire_eq_some.mp hmode]

theorem reads_readReceiveCapacity :
    Reads readReceiveCapacity (fun _ => True) (fun capacity => putCounts capacity.counts) :=
  reads_positive FrameError.length .field

/-- The fields that a `WS2R` frame can carry. -/
structure RegisterInitFields.Valid (fields : RegisterInitFields) : Prop where
  shareId : Fits 12 fields.shareId
  shareInstance : Fits 16 fields.shareInstance
  pkHash : Fits 16 fields.pkHash
  descriptorDigest : Fits 32 fields.descriptorDigest
  resumeTokenHash : Fits 32 fields.resumeTokenHash

def RegisterInitFields.encode (fields : RegisterInitFields) : List UInt8 :=
  [putHeader registerInitMagic fields.mode.wire, bigEndian 12 fields.shareId,
    bigEndian 16 fields.shareInstance, bigEndian 16 fields.pkHash,
    bigEndian 32 fields.descriptorDigest, bigEndian 32 fields.resumeTokenHash,
    putCounts fields.receiveCapacity.counts].flatten

theorem RegisterInit.reads_readFields :
    Reads RegisterInit.readFields RegisterInitFields.Valid RegisterInitFields.encode := by
  apply Reads.of_nothing
  apply Reads.bind RegisterInitFields.mode (reads_mode (by decide)) (fun _ _ _ => trivial)
  intro mode _
  apply Reads.bind RegisterInitFields.shareId (reads_number 12 _) (fun _ _ h => h.shareId)
  intro shareId hshareId
  apply Reads.bind RegisterInitFields.shareInstance (reads_number 16 _)
    (fun _ _ h => h.shareInstance)
  intro shareInstance hinstance
  apply Reads.bind RegisterInitFields.pkHash (reads_number 16 _) (fun _ _ h => h.pkHash)
  intro pkHash hpkHash
  apply Reads.bind RegisterInitFields.descriptorDigest (reads_number 32 _)
    (fun _ _ h => h.descriptorDigest)
  intro descriptorDigest hdigest
  apply Reads.bind RegisterInitFields.resumeTokenHash (reads_number 32 _)
    (fun _ _ h => h.resumeTokenHash)
  intro resumeTokenHash hresume
  apply Reads.bind RegisterInitFields.receiveCapacity reads_readReceiveCapacity
    (fun _ _ _ => trivial)
  intro receiveCapacity _
  apply reads_pure rfl
  intro fields
  constructor
  · rintro ⟨⟨rfl, rfl, rfl, rfl, rfl, rfl, rfl, -⟩, -⟩
    rfl
  · rintro rfl
    exact ⟨⟨rfl, rfl, rfl, rfl, rfl, rfl, rfl, trivial⟩,
      ⟨hshareId, hinstance, hpkHash, hdigest, hresume⟩⟩

/-- The fields that a `WS2X` frame can carry. -/
structure StopInitFields.Valid (fields : StopInitFields) : Prop where
  shareId : Fits 12 fields.shareId
  shareInstance : Fits 16 fields.shareInstance
  pkHash : Fits 16 fields.pkHash
  relay : Fits 32 fields.relay
  stopId : Fits 16 fields.stopId

def StopInitFields.encode (fields : StopInitFields) : List UInt8 :=
  [putHeader stopInitMagic 0, bigEndian 12 fields.shareId, bigEndian 16 fields.shareInstance,
    bigEndian 16 fields.pkHash, bigEndian 32 fields.relay, bigEndian 16 fields.stopId].flatten

theorem StopInit.reads_readFields :
    Reads StopInit.readFields StopInitFields.Valid StopInitFields.encode := by
  apply Reads.of_nothing
  apply Reads.bind (fun _ : StopInitFields => ()) (reads_openReserved (by decide))
    (fun _ _ _ => trivial)
  intro _ _
  apply Reads.bind StopInitFields.shareId (reads_number 12 _) (fun _ _ h => h.shareId)
  intro shareId hshareId
  apply Reads.bind StopInitFields.shareInstance (reads_number 16 _) (fun _ _ h => h.shareInstance)
  intro shareInstance hinstance
  apply Reads.bind StopInitFields.pkHash (reads_number 16 _) (fun _ _ h => h.pkHash)
  intro pkHash hpkHash
  apply Reads.bind StopInitFields.relay (reads_number 32 _) (fun _ _ h => h.relay)
  intro relay hrelay
  apply Reads.bind StopInitFields.stopId (reads_number 16 _) (fun _ _ h => h.stopId)
  intro stopId hstopId
  apply reads_pure rfl
  intro fields
  constructor
  · rintro ⟨⟨rfl, rfl, rfl, rfl, rfl, -⟩, -⟩
    rfl
  · rintro rfl
    exact ⟨⟨rfl, rfl, rfl, rfl, rfl, rfl, trivial⟩, ⟨hshareId, hinstance, hpkHash, hrelay, hstopId⟩⟩

/-! ### Decoded requests -/

variable {crypto : Crypto}

theorem elim_eq_ok {ε α : Type} {o : Option α} {e : ε} {a : α} :
    o.elim (Except.error e) Except.ok = .ok a ↔ o = some a := by
  cases o with
  | none => exact ⟨nofun, nofun⟩
  | some => exact ⟨fun h => congrArg some (Except.ok.inj h), fun h => by cases h; rfl⟩

def RegisterInit.encode (init : RegisterInit) : List UInt8 :=
  [putHeader registerInitMagic init.mode.wire,
    bigEndian 12 init.registration.route.shareId.value,
    bigEndian 16 init.registration.shareInstance.value,
    bigEndian 16 init.registration.route.pkHash.value,
    bigEndian 32 init.registration.descriptorDigest.value,
    bigEndian 32 init.registration.resumeTokenHash.value,
    putCounts init.receiveCapacity.counts].flatten

theorem RegisterInit.of_decode {init : RegisterInit}
    (h : RegisterInit.decode crypto frame = .ok init) :
    init.registration.Valid crypto.derived ∧ init.encode = frame := by
  obtain ⟨fields, hfields, h⟩ := bind_eq_ok.mp h
  obtain ⟨route, hroute, h⟩ := bind_eq_ok.mp h
  obtain ⟨_, hinstance, h⟩ := bind_eq_ok.mp h
  obtain ⟨hvalid, rfl⟩ := reads_readFields.decode_eq_ok.mp hfields
  obtain ⟨hshare, hderives, rfl⟩ :=
    (ShareRoute.fromWire_eq_some crypto.derived).mp (elim_eq_ok.mp hroute)
  obtain rfl := Except.ok.inj h
  exact ⟨⟨⟨⟨Nat.pos_of_ne_zero hshare, hvalid.shareId⟩, hvalid.pkHash, hderives⟩,
    ⟨Nat.pos_of_ne_zero (refuse_eq_ok.mp hinstance), hvalid.shareInstance⟩,
    hvalid.descriptorDigest, hvalid.resumeTokenHash⟩, rfl⟩

theorem StopInit.of_decode {init : StopInit}
    (h : StopInit.decode crypto frame = .ok init) : init.Valid crypto := by
  obtain ⟨fields, hfields, h⟩ := bind_eq_ok.mp h
  obtain ⟨route, hroute, h⟩ := bind_eq_ok.mp h
  obtain ⟨_, hinstance, h⟩ := bind_eq_ok.mp h
  obtain ⟨_, hrelay, h⟩ := bind_eq_ok.mp h
  obtain ⟨_, hstop, h⟩ := bind_eq_ok.mp h
  obtain ⟨hvalid, -⟩ := reads_readFields.decode_eq_ok.mp hfields
  obtain ⟨hshare, hderives, rfl⟩ :=
    (ShareRoute.fromWire_eq_some crypto.derived).mp (elim_eq_ok.mp hroute)
  obtain rfl := Except.ok.inj h
  exact ⟨⟨⟨Nat.pos_of_ne_zero hshare, hvalid.shareId⟩, hvalid.pkHash, hderives⟩,
    ⟨Nat.pos_of_ne_zero (refuse_eq_ok.mp hinstance), hvalid.shareInstance⟩,
    ⟨Nat.pos_of_ne_zero (refuse_eq_ok.mp hrelay), hvalid.relay⟩,
    ⟨Nat.pos_of_ne_zero (refuse_eq_ok.mp hstop), hvalid.stopId⟩⟩

/-! ### Preimages -/

/-- A request together with the relay it is made to. -/
inductive SenderRequest where
  | registration (init : RegisterInit) (relay : RelayIdentity)
  | stop (init : StopInit)
deriving DecidableEq

def ChallengePurpose.domain : ChallengePurpose → List UInt8
  | .register => registerDomain
  | .resume => resumeDomain
  | .stop => stopDomain

/-- No domain continues another: they differ in their first bytes. -/
theorem ChallengePurpose.domain_append_inj {p p' : ChallengePurpose} {rest rest' : List UInt8}
    (h : p.domain ++ rest = p'.domain ++ rest') : p = p' := by
  have hstart : ∀ (p : ChallengePurpose) (rest : List UInt8),
      (p.domain ++ rest).take 24 = p.domain.take 24 := by
    intro p rest
    cases p <;> rfl
  have htake : p.domain.take 24 = p'.domain.take 24 := by
    rw [← hstart p rest, ← hstart p' rest', h]
  revert htake
  cases p <;> cases p' <;> decide

namespace SenderRequest

/-- The bytes that the sender signs. -/
def preimage : SenderRequest → Challenge → List UInt8
  | .registration init relay, challenge => init.preimage challenge relay
  | .stop init, challenge => init.preimage challenge

def purpose : SenderRequest → ChallengePurpose
  | .registration init _ => init.mode.challengePurpose
  | .stop _ => .stop

def Valid (crypto : Crypto) : SenderRequest → Prop
  | .registration init relay => init.registration.Valid crypto.derived ∧ Nonzero 32 relay.value
  | .stop init => init.Valid crypto

/-- The preimage after its domain. -/
def fields : SenderRequest → Challenge → List (List UInt8)
  | .registration init relay, challenge =>
    [bigEndian 12 init.registration.route.shareId.value,
      bigEndian 16 init.registration.shareInstance.value,
      bigEndian 16 init.registration.route.pkHash.value,
      bigEndian 32 init.registration.descriptorDigest.value,
      bigEndian 32 init.registration.resumeTokenHash.value, bigEndian 32 relay.value,
      challenge.putBody, putCounts init.receiveCapacity.counts]
  | .stop init, challenge =>
    [bigEndian 12 init.route.shareId.value, bigEndian 16 init.shareInstance.value,
      bigEndian 16 init.route.pkHash.value, bigEndian 32 init.relay.value,
      bigEndian 16 init.stopId.value, challenge.putBody]

theorem preimage_eq (r : SenderRequest) (c : Challenge) :
    r.preimage c = r.purpose.domain ++ (r.fields c).flatten := by
  cases r with
  | registration init =>
    change (init.mode.domain :: _).flatten = init.mode.challengePurpose.domain ++ _
    cases init.mode <;> rfl
  | stop => rfl

end SenderRequest

theorem Challenge.length_putBody (c : Challenge) : c.putBody.length = 56 := by
  simp [putBody]

theorem Challenge.putBody_inj {c c' : Challenge} (h : c.Valid) (h' : c'.Valid)
    (hbody : c.putBody = c'.putBody) :
    c.id = c'.id ∧ c.nonce = c'.nonce ∧ c.expiresAt = c'.expiresAt := by
  obtain ⟨purpose, ⟨id⟩, ⟨nonce⟩, expiresAt⟩ := c
  obtain ⟨purpose', ⟨id'⟩, ⟨nonce'⟩, expiresAt'⟩ := c'
  have hfields := List.eq_iff_flatten_eq.mpr ⟨hbody, by simp⟩
  simp only [List.cons.injEq, and_true] at hfields
  obtain ⟨hid, hnonce, hexpires⟩ := hfields
  obtain rfl : id = id' := bigEndian_inj h.id.fits h'.id.fits hid
  obtain rfl : nonce = nonce' := bigEndian_inj h.nonce.fits h'.nonce.fits hnonce
  exact ⟨rfl, rfl, bigEndian_inj h.expiresAt h'.expiresAt hexpires⟩

theorem putCounts_capacity_inj {c c' : ReceiveCapacity}
    (h : putCounts c.counts = putCounts c'.counts) : c = c' :=
  reads_readReceiveCapacity.write_inj trivial trivial h

namespace SenderRequest

variable {c c' : Challenge}

theorem registration_inj {init init' : RegisterInit} {relay relay' : RelayIdentity}
    (hr : (registration init relay).Valid crypto) (hr' : (registration init' relay').Valid crypto)
    (hc : c.Valid) (hc' : c'.Valid) (hmode : init.mode = init'.mode)
    (h : ((registration init relay).fields c).flatten =
      ((registration init' relay').fields c').flatten) :
    registration init relay = registration init' relay' ∧
      c.id = c'.id ∧ c.nonce = c'.nonce ∧ c.expiresAt = c'.expiresAt := by
  have hfields := List.eq_iff_flatten_eq.mpr
    ⟨h, by simp [fields, Challenge.length_putBody, putCounts]⟩
  obtain ⟨mode, ⟨⟨⟨share⟩, ⟨pk⟩⟩, ⟨inst⟩, ⟨digest⟩, ⟨token⟩⟩, capacity⟩ := init
  obtain ⟨mode', ⟨⟨⟨share'⟩, ⟨pk'⟩⟩, ⟨inst'⟩, ⟨digest'⟩, ⟨token'⟩⟩, capacity'⟩ := init'
  obtain ⟨relay⟩ := relay
  obtain ⟨relay'⟩ := relay'
  simp only [fields, List.cons.injEq, and_true] at hfields
  obtain ⟨hshare, hinst, hpk, hdigest, htoken, hrelay, hbody, hcapacity⟩ := hfields
  obtain ⟨hregistration, hrelayValid⟩ := hr
  obtain ⟨hregistration', hrelayValid'⟩ := hr'
  obtain rfl : mode = mode' := hmode
  obtain rfl : share = share' :=
    bigEndian_inj hregistration.route.shareId.fits hregistration'.route.shareId.fits hshare
  obtain rfl : pk = pk' :=
    bigEndian_inj hregistration.route.pkHash hregistration'.route.pkHash hpk
  obtain rfl : inst = inst' :=
    bigEndian_inj hregistration.shareInstance.fits hregistration'.shareInstance.fits hinst
  obtain rfl : digest = digest' :=
    bigEndian_inj hregistration.descriptorDigest hregistration'.descriptorDigest hdigest
  obtain rfl : token = token' :=
    bigEndian_inj hregistration.resumeTokenHash hregistration'.resumeTokenHash htoken
  obtain rfl : relay = relay' := bigEndian_inj hrelayValid.fits hrelayValid'.fits hrelay
  obtain rfl : capacity = capacity' := putCounts_capacity_inj hcapacity
  exact ⟨rfl, Challenge.putBody_inj hc hc' hbody⟩

theorem stop_inj {init init' : StopInit} (hr : (stop init).Valid crypto)
    (hr' : (stop init').Valid crypto) (hc : c.Valid) (hc' : c'.Valid)
    (h : ((stop init).fields c).flatten = ((stop init').fields c').flatten) :
    stop init = stop init' ∧ c.id = c'.id ∧ c.nonce = c'.nonce ∧ c.expiresAt = c'.expiresAt := by
  have hfields := List.eq_iff_flatten_eq.mpr ⟨h, by simp [fields, Challenge.length_putBody]⟩
  obtain ⟨⟨⟨share⟩, ⟨pk⟩⟩, ⟨inst⟩, ⟨relay⟩, ⟨stopId⟩⟩ := init
  obtain ⟨⟨⟨share'⟩, ⟨pk'⟩⟩, ⟨inst'⟩, ⟨relay'⟩, ⟨stopId'⟩⟩ := init'
  simp only [fields, List.cons.injEq, and_true] at hfields
  obtain ⟨hshare, hinst, hpk, hrelay, hstopId, hbody⟩ := hfields
  obtain rfl : share = share' := bigEndian_inj hr.route.shareId.fits hr'.route.shareId.fits hshare
  obtain rfl : pk = pk' := bigEndian_inj hr.route.pkHash hr'.route.pkHash hpk
  obtain rfl : inst = inst' := bigEndian_inj hr.shareInstance.fits hr'.shareInstance.fits hinst
  obtain rfl : relay = relay' := bigEndian_inj hr.relay.fits hr'.relay.fits hrelay
  obtain rfl : stopId = stopId' := bigEndian_inj hr.stopId.fits hr'.stopId.fits hstopId
  exact ⟨rfl, Challenge.putBody_inj hc hc' hbody⟩

/-- What is signed names the request, the relay and the challenge. -/
theorem preimage_inj {r r' : SenderRequest} (hr : r.Valid crypto) (hr' : r'.Valid crypto)
    (hc : c.Valid) (hc' : c'.Valid) (h : r.preimage c = r'.preimage c') :
    r = r' ∧ c.id = c'.id ∧ c.nonce = c'.nonce ∧ c.expiresAt = c'.expiresAt := by
  rw [preimage_eq, preimage_eq] at h
  have hpurpose : r.purpose = r'.purpose := ChallengePurpose.domain_append_inj h
  rw [hpurpose] at h
  have hflatten := List.append_cancel_left h
  cases r with
  | registration init =>
    cases r' with
    | registration init' =>
      refine registration_inj hr hr' hc hc' ?_ hflatten
      change init.mode.challengePurpose = init'.mode.challengePurpose at hpurpose
      revert hpurpose
      cases init.mode <;> cases init'.mode <;> decide
    | stop =>
      change init.mode.challengePurpose = .stop at hpurpose
      revert hpurpose
      cases init.mode <;> nofun
  | stop =>
    cases r' with
    | registration init' =>
      change .stop = init'.mode.challengePurpose at hpurpose
      revert hpurpose
      cases init'.mode <;> nofun
    | stop => exact stop_inj hr hr' hc hc' hflatten

end SenderRequest

end Windshare.Relay
