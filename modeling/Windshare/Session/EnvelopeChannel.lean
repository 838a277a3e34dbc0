import Mathlib.Data.List.Nodup
import Windshare.Library.Transition
import Windshare.Library.Word64
import Windshare.Session.Envelope

/-!
# Envelopes under an adversarial schedule

All sealers of a session share two directional keys; they differ in the binding
of their lane, epoch and direction. The system below runs any number of such
sealers and one opener. Frames reach the opener in the hands of an adversary who
may drop, repeat, reorder and invent them. The only thing the adversary cannot do
is forge: a ciphertext that opens was produced by a sealing call of the run.

Each sealer carries a record of what it sealed and the opener a record of what it
accepted, so that the two can be compared in every reachable state.
-/

namespace Windshare.Session

open Windshare.Library

variable {K : Type}

/-- A plaintext together with the envelope it was sealed into. -/
structure Sent where
  sequence : UInt64
  plaintext : List UInt8
  frame : List UInt8

/-- A sealer, the key and binding it was made with, and what it sealed. -/
structure Writer (K : Type) where
  key : K
  binding : EnvelopeBinding
  sealer : EnvelopeSealer K
  sent : List Sent

/-- An opener, the key and binding it was made with, and the plaintexts it accepted. -/
structure Reader (K : Type) where
  key : K
  binding : EnvelopeBinding
  opener : EnvelopeOpener K
  accepted : List (List UInt8)

/-- The session: its sealers, one opener and the log of the cipher's sealing calls. -/
structure Channel (K : Type) where
  writers : List (Writer K)
  reader : Reader K
  log : List (SealCall K)

namespace Writer

variable (w : Writer K)

def Feeds (r : Reader K) : Prop := w.key = r.key ∧ w.binding = r.binding

/-- Seal a plaintext and remember it when that succeeds. -/
def write (aead : Aead K) (plaintext : List UInt8) (read : NonceRead) : Writer K :=
  match w.sealer.sealEnvelope aead plaintext read with
  | (s, .error _) => { w with sealer := s }
  | (s, .ok e) => { w with sealer := s, sent := w.sent ++ [⟨e.sequence, plaintext, e.frame⟩] }

/-- The sealing call `write` makes on the cipher, if it gets that far. -/
def calls (aead : Aead K) (plaintext : List UInt8) (read : NonceRead) : List (SealCall K) :=
  match (w.sealer.prepare aead plaintext read).2 with
  | .error _ => []
  | .ok (_, _, call) => [call]

end Writer

namespace Reader

variable (r : Reader K)

/-- Hand a frame to the opener and remember what it accepts. -/
def receive (aead : Aead K) (frame : List UInt8) : Reader K :=
  match r.opener.openEnvelope aead frame with
  | (o, .error _) => { r with opener := o }
  | (o, .ok e) => { r with opener := o, accepted := r.accepted ++ [e.plaintext] }

/-- The frame does not contain a forgery: should the cipher open it under the
reader's key, a logged call sealed it. -/
def Genuine (aead : Aead K) (log : List (SealCall K)) (frame : List UInt8) : Prop :=
  ∀ header, parseEnvelopeHeader frame r.binding.direction = .ok header →
    aead.Unforged log r.key header.nonce (frame.drop envelopeHeaderBytes)
      (envelopeAAD r.binding header.sequence header.ciphertextLength)

end Reader

/-- What can happen in a session. -/
inductive ChannelEvent (K : Type) where
  | attach (key : TrafficKey K) (binding : EnvelopeBinding)
  | preflight (i : Nat) (read : NonceRead)
  | write (i : Nat) (plaintext : List UInt8) (read : NonceRead)
  | stopWriter (i : Nat)
  | destroyWriter (i : Nat)
  | deliver (frame : List UInt8)
  | stopReader
  | destroyReader

namespace Channel

/-- One step of a session. A lane and epoch get one sealer, so a new sealer never
repeats the key and binding of another; frames handed to the opener are arbitrary
byte strings that hold no forgery. -/
inductive Step (aead : Aead K) (c : Channel K) : ChannelEvent K → Channel K → Prop
  | attach {key : TrafficKey K} {binding : EnvelopeBinding} {sealer : EnvelopeSealer K}
      (hnew : newEnvelopeSealer key binding true = .ok sealer)
      (hfresh : ∀ w ∈ c.writers, w.key = key.value → w.binding ≠ binding) :
      Step aead c (.attach key binding)
        { c with writers := c.writers ++ [⟨key.value, binding, sealer, []⟩] }
  | preflight {i : Nat} {read : NonceRead} {w : Writer K} (hw : c.writers[i]? = some w) :
      Step aead c (.preflight i read)
        { c with writers := c.writers.set i { w with sealer := (w.sealer.nextSequence read).1 } }
  | write {i : Nat} {plaintext : List UInt8} {read : NonceRead} {w : Writer K}
      (hw : c.writers[i]? = some w) :
      Step aead c (.write i plaintext read)
        { c with
          writers := c.writers.set i (w.write aead plaintext read)
          log := c.log ++ w.calls aead plaintext read }
  | stopWriter {i : Nat} {w : Writer K} (hw : c.writers[i]? = some w) :
      Step aead c (.stopWriter i)
        { c with writers := c.writers.set i { w with sealer := w.sealer.stop } }
  | destroyWriter {i : Nat} {w : Writer K} (hw : c.writers[i]? = some w) :
      Step aead c (.destroyWriter i)
        { c with writers := c.writers.set i { w with sealer := .destroy } }
  | deliver {frame : List UInt8} (hgenuine : c.reader.Genuine aead c.log frame) :
      Step aead c (.deliver frame) { c with reader := c.reader.receive aead frame }
  | stopReader :
      Step aead c .stopReader { c with reader := { c.reader with opener := c.reader.opener.stop } }
  | destroyReader :
      Step aead c .destroyReader { c with reader := { c.reader with opener := .destroy } }

/-- Sessions start with a fresh opener and no sealer. -/
def system (aead : Aead K) : System (Channel K) (ChannelEvent K) where
  init c := ∃ key binding opener, newEnvelopeOpener key binding = .ok opener ∧
    c = ⟨[], ⟨key.value, binding, opener, []⟩, []⟩
  step := Step aead

end Channel

/-! ## What a writer keeps -/

variable {frame : List UInt8} {i : Nat} {s : EnvelopeSealer K} {log : List (SealCall K)}

namespace Writer

variable {w : Writer K}

/-- The numbers used so far are `0, 1, 2, …` and stand in the frames, and a sealer in
use still has its own key and binding and knows how many numbers are gone. -/
structure Sound (w : Writer K) : Prop where
  sequences : w.sent.map (fun m => m.sequence.toNat) = List.range w.sent.length
  framed : ∀ m ∈ w.sent, slice m.frame 4 12 = bigEndian 8 m.sequence.toNat
  live : w.sealer.stopped = false → w.sealer.aead = some w.key ∧ w.sealer.binding = w.binding ∧
    (w.sealer.exhausted = false → w.sealer.next.toNat = w.sent.length)

theorem Sound.sequence_eq (hw : w.Sound) {j : Nat} {m : Sent} (hm : w.sent[j]? = some m) :
    m.sequence.toNat = j := by
  have hmap : (w.sent.map fun m => m.sequence.toNat)[j]? = some m.sequence.toNat := by
    rw [List.getElem?_map, hm]
    rfl
  rw [hw.sequences, List.getElem?_range (List.getElem?_eq_some_iff.mp hm).1] at hmap
  exact (Option.some.inj hmap).symm

/-- There are only as many numbers as words. -/
theorem Sound.length_le (hw : w.Sound) : w.sent.length ≤ 2 ^ 64 := by
  by_contra hlong
  have hj : 2 ^ 64 < w.sent.length := by omega
  have heq := hw.sequence_eq (List.getElem?_eq_getElem hj)
  have hlt := (w.sent[2 ^ 64]).sequence.toNat_lt
  omega

/-- No number is used twice. -/
theorem Sound.nodup (hw : w.Sound) : (w.sent.map Sent.sequence).Nodup := by
  have hnodup : (w.sent.map fun m => m.sequence.toNat).Nodup := by
    rw [hw.sequences]
    exact List.nodup_range
  have hcomp : (w.sent.map fun m => m.sequence.toNat) =
      (w.sent.map Sent.sequence).map UInt64.toNat := by
    rw [List.map_map]
    rfl
  rw [hcomp] at hnodup
  exact List.Nodup.of_map _ hnodup

/-- Changing the sealer without using a number. -/
theorem Sound.idle (hw : w.Sound)
    (h : s.stopped = true ∨ ∃ nonce, s = { w.sealer with nonce := nonce }) :
    Sound { w with sealer := s } := by
  refine ⟨hw.sequences, hw.framed, fun hlive => ?_⟩
  rcases h with hstopped | ⟨nonce, rfl⟩
  · exact absurd hstopped (by simpa using hlive)
  · exact hw.live hlive

/-- What a writer does to its records: nothing, or one more plaintext under the
next number with one logged call for it. -/
theorem write_cases (w : Writer K) (aead : Aead K) (plaintext : List UInt8) (read : NonceRead) :
    (∃ s, w.write aead plaintext read = { w with sealer := s } ∧
      w.calls aead plaintext read = [] ∧
      (s.stopped = true ∨ ∃ nonce, s = { w.sealer with nonce := nonce })) ∨
    (w.sealer.stopped = false ∧ w.sealer.exhausted = false ∧
      ∃ call frame nonce n, w.sealer.aead = some call.key ∧ call.plaintext = plaintext ∧
        call.aad = envelopeAAD w.sealer.binding w.sealer.next n ∧
        w.calls aead plaintext read = [call] ∧
        slice frame 4 12 = bigEndian 8 w.sealer.next.toNat ∧
        w.write aead plaintext read =
          { w with
            sealer := EnvelopeSealer.advance { w.sealer with nonce := nonce } w.sealer.next
            sent := w.sent ++ [⟨w.sealer.next, plaintext, frame⟩] }) := by
  have hstate := w.sealer.prepare_state aead plaintext read
  unfold write calls EnvelopeSealer.sealEnvelope
  rcases hprep : w.sealer.prepare aead plaintext read with ⟨s, e | ⟨sequence, hdr, call⟩⟩
  · rw [hprep] at hstate
    refine .inl ⟨s, rfl, rfl, ?_⟩
    rcases hstate with rfl | hnonce
    · exact .inl rfl
    · exact .inr hnonce
  · obtain ⟨hstopped, hexhausted, rfl, hkey, hplain, haad, nonce, rfl, rfl⟩ :=
      EnvelopeSealer.prepare_ok hprep
    exact .inr ⟨hstopped, hexhausted, call, _, some nonce, _, hkey, hplain, haad, rfl,
      EnvelopeSealer.slice_header _ _ _ _ _, rfl⟩

/-- Using the next number leaves the sealer with the one after it, unless it was
the last. -/
theorem Sound.sent_next (hw : w.Sound) (hstopped : w.sealer.stopped = false)
    (hexhausted : w.sealer.exhausted = false) {nonce : Option Nonce} {plaintext frame : List UInt8}
    (hframe : slice frame 4 12 = bigEndian 8 w.sealer.next.toNat) :
    Sound { w with
      sealer := EnvelopeSealer.advance { w.sealer with nonce := nonce } w.sealer.next
      sent := w.sent ++ [⟨w.sealer.next, plaintext, frame⟩] } := by
  obtain ⟨hkey, hbinding, hnext⟩ := hw.live hstopped
  have hlength := hnext hexhausted
  refine ⟨?_, fun m hm => ?_, fun _ => ?_⟩
  · simp only [List.map_append, List.map_cons, List.map_nil, List.length_append, List.length_cons,
      List.length_nil, Nat.zero_add, hw.sequences, hlength, List.range_succ]
  · rcases List.mem_append.mp hm with hm | hm
    · exact hw.framed m hm
    · obtain rfl := List.mem_singleton.mp hm
      exact hframe
  · unfold EnvelopeSealer.advance
    split
    · exact ⟨hkey, hbinding, by simp⟩
    · next hmax =>
        refine ⟨hkey, hbinding, fun _ => ?_⟩
        rw [toNat_succ_of_ne_max hmax, hlength, List.length_append]
        rfl

theorem Sound.write (hw : w.Sound) (aead : Aead K) (plaintext : List UInt8) (read : NonceRead) :
    (w.write aead plaintext read).Sound := by
  rcases w.write_cases aead plaintext read with ⟨s, heq, -, hidle⟩ |
    ⟨hstopped, hexhausted, call, frame, nonce, n, -, -, -, -, hframe, heq⟩
  · rw [heq]
    exact hw.idle hidle
  · rw [heq]
    exact hw.sent_next hstopped hexhausted hframe

end Writer

/-! ## What a reader keeps -/

namespace Reader

variable {r : Reader K}

/-- An opener in use has its own key and binding and has counted what it accepted. -/
structure Sound (r : Reader K) : Prop where
  live : r.opener.stopped = false → r.opener.aead = some r.key ∧ r.opener.binding = r.binding ∧
    (r.opener.exhausted = false → r.opener.next.toNat = r.accepted.length)

/-- What a delivered frame does: nothing, or the next plaintext is accepted and a
logged call sealed it under the reader's key, binding and next number. -/
theorem receive_cases (hr : r.Sound) {aead : Aead K} (hgenuine : r.Genuine aead log frame) :
    (r.receive aead frame = r) ∨
    (r.opener.stopped = false ∧ r.opener.exhausted = false ∧
      ∃ call ∈ log, ∃ n, call.key = r.key ∧
        call.aad = envelopeAAD r.binding r.opener.next n ∧
        r.receive aead frame =
          { r with
            opener := r.opener.advance r.opener.next
            accepted := r.accepted ++ [call.plaintext] }) := by
  rcases hopen : r.opener.openEnvelope aead frame with ⟨o, e | e⟩
  · have hsame : o = r.opener := by
      have herror : (r.opener.openEnvelope aead frame).2 = .error e := by rw [hopen]
      have := EnvelopeOpener.openEnvelope_error herror
      rwa [hopen] at this
    refine .inl ?_
    unfold receive
    rw [hopen, hsame]
  · obtain ⟨hstopped, hexhausted, rfl, -, header, key, hheader, hsequence, hkey, htext⟩ :=
      EnvelopeOpener.openEnvelope_ok hopen
    obtain ⟨hkey', hbinding, -⟩ := hr.live hstopped
    obtain rfl : r.key = key := Option.some.inj (hkey'.symm.trans hkey)
    rw [hbinding] at hheader htext
    obtain ⟨call, hmem, hcall, haad, hplain⟩ := (hgenuine header hheader).exists_call htext
    refine .inr ⟨hstopped, hexhausted, call, hmem, header.ciphertextLength, hcall, ?_, ?_⟩
    · rw [haad, hsequence]
    · unfold receive
      rw [hopen, hplain]

theorem Sound.receive (hr : r.Sound) {aead : Aead K} (hgenuine : r.Genuine aead log frame) :
    (r.receive aead frame).Sound := by
  rcases receive_cases hr hgenuine with heq | ⟨hstopped, hexhausted, call, -, n, -, -, heq⟩
  · rwa [heq]
  · obtain ⟨hkey, hbinding, hnext⟩ := hr.live hstopped
    rw [heq]
    refine ⟨fun _ => ?_⟩
    unfold EnvelopeOpener.advance
    split
    · exact ⟨hkey, hbinding, by simp⟩
    · next hmax =>
        refine ⟨hkey, hbinding, fun _ => ?_⟩
        rw [toNat_succ_of_ne_max hmax, hnext hexhausted, List.length_append]
        rfl

end Reader

/-! ## The session -/

namespace Channel

variable {c : Channel K} {aead : Aead K}

/-- The call that was logged is one of the plaintexts the writer sent. -/
def Records (w : Writer K) (call : SealCall K) : Prop :=
  call.key = w.key ∧ ∃ m ∈ w.sent, m.plaintext = call.plaintext ∧
    ∃ n, call.aad = envelopeAAD w.binding m.sequence n

/-- The invariant of a session: one writer for each key and binding, every sealing
call is recorded by a writer, and the `i`-th accepted plaintext is the `i`-th that
the reader's own writer sent. -/
structure Sound (c : Channel K) : Prop where
  writers : ∀ w ∈ c.writers, w.Sound
  reader : c.reader.Sound
  unique : ∀ (i j : Nat) (w v : Writer K), c.writers[i]? = some w → c.writers[j]? = some v →
    w.key = v.key → w.binding = v.binding → i = j
  logged : ∀ call ∈ c.log, ∃ w ∈ c.writers, Records w call
  traced : ∀ (i : Nat) (p : List UInt8), c.reader.accepted[i]? = some p →
    ∃ w ∈ c.writers, w.Feeds c.reader ∧ ∃ m : Sent, w.sent[i]? = some m ∧ m.plaintext = p

/-- A writer's later self: the same lane, with more sent. -/
def Continues (w w' : Writer K) : Prop :=
  w'.key = w.key ∧ w'.binding = w.binding ∧ w.sent <+: w'.sent

theorem Records.continues {w w' : Writer K} {call : SealCall K} (h : Records w call)
    (hw : Continues w w') : Records w' call := by
  obtain ⟨hkey, m, hm, hplain, haad⟩ := h
  exact ⟨hkey.trans hw.1.symm, m, hw.2.2.subset hm, hplain, by rwa [hw.2.1]⟩

section

variable (hc : c.Sound)

include hc

/-- Replacing a writer by its later self keeps the invariant, when the new calls
are recorded. -/
theorem Sound.update {w w' : Writer K} {calls : List (SealCall K)}
    (hw : c.writers[i]? = some w) (hcont : Continues w w') (hsound : w'.Sound)
    (hcalls : ∀ call ∈ calls, Records w' call) :
    Sound { c with writers := c.writers.set i w', log := c.log ++ calls } := by
  have hlt := (List.getElem?_eq_some_iff.mp hw).1
  have hmem : w' ∈ c.writers.set i w' := List.mem_set hlt _
  have hself : ∀ v ∈ c.writers, ∃ v' ∈ c.writers.set i w', Continues v v' := by
    intro v hv
    obtain ⟨j, hj⟩ := List.mem_iff_getElem?.mp hv
    by_cases hij : i = j
    · subst hij
      obtain rfl : w = v := Option.some.inj (hw.symm.trans hj)
      exact ⟨w', hmem, hcont⟩
    · refine ⟨v, List.mem_iff_getElem?.mpr ⟨j, ?_⟩, rfl, rfl, List.prefix_refl _⟩
      rw [List.getElem?_set_ne hij, hj]
  have hback : ∀ (j : Nat) (v : Writer K), (c.writers.set i w')[j]? = some v →
      ∃ u : Writer K, c.writers[j]? = some u ∧ v.key = u.key ∧ v.binding = u.binding := by
    intro j v hv
    by_cases hij : i = j
    · subst hij
      rw [List.getElem?_set_self hlt] at hv
      obtain rfl := Option.some.inj hv
      exact ⟨w, hw, hcont.1, hcont.2.1⟩
    · rw [List.getElem?_set_ne hij] at hv
      exact ⟨v, hv, rfl, rfl⟩
  refine ⟨fun v hv => ?_, hc.reader, fun j k u v hu hv hkey hbinding => ?_, fun call hcall => ?_,
    fun j p hp => ?_⟩
  · rcases List.mem_or_eq_of_mem_set hv with hv | rfl
    · exact hc.writers v hv
    · exact hsound
  · obtain ⟨u', hu', huk, hub⟩ := hback j u hu
    obtain ⟨v', hv', hvk, hvb⟩ := hback k v hv
    exact hc.unique j k u' v' hu' hv' (huk.symm.trans (hkey.trans hvk))
      (hub.symm.trans (hbinding.trans hvb))
  · rcases List.mem_append.mp hcall with hcall | hcall
    · obtain ⟨v, hv, hrec⟩ := hc.logged call hcall
      obtain ⟨v', hv', hcont'⟩ := hself v hv
      exact ⟨v', hv', hrec.continues hcont'⟩
    · exact ⟨w', hmem, hcalls call hcall⟩
  · obtain ⟨v, hv, hfeeds, m, hm, hplain⟩ := hc.traced j p hp
    obtain ⟨v', hv', hkey, hbinding, hprefix⟩ := hself v hv
    refine ⟨v', hv', ⟨hkey.trans hfeeds.1, hbinding.trans hfeeds.2⟩, m, ?_, hplain⟩
    obtain ⟨hj, hmj⟩ := List.getElem?_eq_some_iff.mp hm
    rw [List.prefix_iff_getElem?.mp hprefix j hj, hmj]

theorem Sound.idle {w : Writer K} (hw : c.writers[i]? = some w)
    (h : s.stopped = true ∨ ∃ nonce, s = { w.sealer with nonce := nonce }) :
    Sound { c with writers := c.writers.set i { w with sealer := s } } := by
  have hsound := (hc.writers w (List.mem_of_getElem? hw)).idle h
  have hcont : Continues w { w with sealer := s } := ⟨rfl, rfl, List.prefix_refl _⟩
  have hnone : ∀ call ∈ ([] : List (SealCall K)), Records { w with sealer := s } call := by simp
  simpa using hc.update hw hcont hsound hnone

theorem Sound.attach {key : TrafficKey K} {binding : EnvelopeBinding}
    {sealer : EnvelopeSealer K} (hnew : newEnvelopeSealer key binding true = .ok sealer)
    (hfresh : ∀ w ∈ c.writers, w.key = key.value → w.binding ≠ binding) :
    Sound { c with writers := c.writers ++ [⟨key.value, binding, sealer, []⟩] } := by
  have hsealer := newEnvelopeSealer_ok hnew
  have hkeep : ∀ w ∈ c.writers, w ∈ c.writers ++ [⟨key.value, binding, sealer, []⟩] :=
    fun w hw => List.mem_append_left _ hw
  have hsplit : ∀ (i : Nat) (w : Writer K), (c.writers ++ [⟨key.value, binding, sealer, []⟩])[i]? =
      some w →
      c.writers[i]? = some w ∨ i = c.writers.length ∧ w = ⟨key.value, binding, sealer, []⟩ := by
    intro i w hw
    rw [List.getElem?_append] at hw
    split at hw
    · exact .inl hw
    · rw [List.getElem?_singleton] at hw
      split at hw
      · exact .inr ⟨by omega, (Option.some.inj hw).symm⟩
      · cases hw
  refine ⟨fun w hw => ?_, hc.reader, fun i j w v hw hv hkey hbinding => ?_, fun call hcall => ?_,
    fun i p hp => ?_⟩
  · rcases List.mem_append.mp hw with hw | hw
    · exact hc.writers w hw
    · obtain rfl := List.mem_singleton.mp hw
      exact ⟨rfl, by simp, fun _ => by simp [hsealer]⟩
  · rcases hsplit i w hw with hw | ⟨rfl, rfl⟩ <;> rcases hsplit j v hv with hv | ⟨rfl, rfl⟩
    · exact hc.unique i j w v hw hv hkey hbinding
    · exact absurd hbinding (hfresh w (List.mem_of_getElem? hw) hkey)
    · exact absurd hbinding.symm (hfresh v (List.mem_of_getElem? hv) hkey.symm)
    · rfl
  · obtain ⟨w, hw, hrec⟩ := hc.logged call hcall
    exact ⟨w, hkeep w hw, hrec⟩
  · obtain ⟨w, hw, htrace⟩ := hc.traced i p hp
    exact ⟨w, hkeep w hw, htrace⟩

theorem Sound.write {w : Writer K} (hw : c.writers[i]? = some w)
    (plaintext : List UInt8) (read : NonceRead) :
    Sound { c with
      writers := c.writers.set i (w.write aead plaintext read)
      log := c.log ++ w.calls aead plaintext read } := by
  have hsound := hc.writers w (List.mem_of_getElem? hw)
  have hwrite := hsound.write aead plaintext read
  rcases w.write_cases aead plaintext read with ⟨s, heq, hcalls, hidle⟩ |
    ⟨hstopped, hexhausted, call, frame, nonce, n, hkey, hplain, haad, hcalls, hframe, heq⟩
  · rw [heq] at hwrite ⊢
    rw [hcalls]
    exact hc.update hw ⟨rfl, rfl, List.prefix_refl _⟩ hwrite (by simp)
  · obtain ⟨hkey', hbinding, -⟩ := hsound.live hstopped
    rw [heq] at hwrite ⊢
    rw [hcalls]
    refine hc.update hw ⟨rfl, rfl, List.prefix_append _ _⟩ hwrite fun x hx => ?_
    obtain rfl := List.mem_singleton.mp hx
    refine ⟨(Option.some.inj (hkey'.symm.trans hkey)).symm, _, List.mem_append_right _
      (List.mem_singleton.mpr rfl), hplain.symm, n, ?_⟩
    rw [haad, hbinding]

/-- The opener's next number picks out one plaintext of one writer. -/
theorem Sound.deliver (hgenuine : c.reader.Genuine aead c.log frame) :
    Sound { c with reader := c.reader.receive aead frame } := by
  have hreader := hc.reader.receive hgenuine
  rcases Reader.receive_cases hc.reader hgenuine with heq |
    ⟨hstopped, hexhausted, call, hcall, n, hkey, haad, heq⟩
  · rwa [heq]
  · obtain ⟨w, hw, hwkey, m, hm, hplain, k, hwaad⟩ := hc.logged call hcall
    obtain ⟨hbinding, hsequence, -⟩ := envelopeAAD_inj (hwaad.symm.trans haad)
    have hfeeds : w.Feeds c.reader := ⟨hwkey.symm.trans hkey, hbinding⟩
    -- The position of the plaintext in the writer's record is its number.
    obtain ⟨j, hj⟩ := List.mem_iff_getElem?.mp hm
    have hposition : j = c.reader.accepted.length := by
      rw [← (hc.writers w hw).sequence_eq hj, hsequence, (hc.reader.live hstopped).2.2 hexhausted]
    refine ⟨hc.writers, hreader, hc.unique, hc.logged, fun i p hp => ?_⟩
    rw [heq] at hp ⊢
    simp only [List.getElem?_append, List.getElem?_singleton] at hp
    split at hp
    · exact hc.traced i p hp
    · split at hp
      · obtain rfl : i = j := by omega
        obtain rfl := Option.some.inj hp
        exact ⟨w, hw, hfeeds, m, hj, hplain⟩
      · cases hp

theorem Sound.step {e : ChannelEvent K} {c' : Channel K} (h : Step aead c e c') : c'.Sound := by
  cases h with
  | attach hnew hfresh => exact hc.attach hnew hfresh
  | @preflight i read w hw =>
    refine hc.idle hw ?_
    rcases w.sealer.nextSequence_state read with heq | hnonce
    · exact .inl (by rw [heq]; rfl)
    · exact .inr hnonce
  | write hw => exact hc.write hw _ _
  | stopWriter hw | destroyWriter hw => exact hc.idle hw (.inl rfl)
  | deliver hgenuine => exact hc.deliver hgenuine
  | stopReader =>
    exact ⟨hc.writers, ⟨by simp [EnvelopeOpener.stop]⟩, hc.unique, hc.logged, hc.traced⟩
  | destroyReader =>
    exact ⟨hc.writers, ⟨by simp [EnvelopeOpener.destroy]⟩, hc.unique, hc.logged, hc.traced⟩

end

theorem reachable_sound (hr : (system aead).Reachable c) : c.Sound := by
  refine hr.invariant ?_ fun c e c' hc hstep => hc.step hstep
  rintro _ ⟨key, binding, opener, hnew, rfl⟩
  exact ⟨by simp, ⟨fun _ => by simp [newEnvelopeOpener_ok hnew]⟩, by simp, by simp, by simp⟩

/-- Whatever the adversary hands to the opener, it accepts exactly a prefix of what
the sealer with its key and binding sealed; rejected frames leave no trace; and no
sealer puts two frames under one number. -/
theorem accepted_in_order (hr : (system aead).Reachable c) :
    (∀ w ∈ c.writers, w.Feeds c.reader → c.reader.accepted <+: w.sent.map Sent.plaintext) ∧
    ((∀ w ∈ c.writers, ¬ w.Feeds c.reader) → c.reader.accepted = []) ∧
    (∀ frame e, (c.reader.opener.openEnvelope aead frame).2 = .error e →
      (c.reader.opener.openEnvelope aead frame).1 = c.reader.opener) ∧
    (∀ w ∈ c.writers, (w.sent.map Sent.sequence).Nodup ∧ w.sent.length ≤ 2 ^ 64 ∧
      ∀ m ∈ w.sent, slice m.frame 4 12 = bigEndian 8 m.sequence.toNat) := by
  have hc := reachable_sound hr
  refine ⟨fun w hw hfeeds => ?_, fun hnone => ?_, fun frame e he =>
    EnvelopeOpener.openEnvelope_error he, fun w hw => ?_⟩
  · rw [List.prefix_iff_getElem?]
    intro i hi
    obtain ⟨v, hv, hvfeeds, m, hm, hplain⟩ := hc.traced i _ (List.getElem?_eq_getElem hi)
    -- Only one writer has this key and binding.
    obtain ⟨j, hj⟩ := List.mem_iff_getElem?.mp hw
    obtain ⟨k, hk⟩ := List.mem_iff_getElem?.mp hv
    obtain rfl : j = k := hc.unique j k w v hj hk (hfeeds.1.trans hvfeeds.1.symm)
      (hfeeds.2.trans hvfeeds.2.symm)
    obtain rfl : w = v := Option.some.inj (hj.symm.trans hk)
    rw [List.getElem?_map, hm, Option.map_some, hplain]
  · rw [List.eq_nil_iff_forall_not_mem]
    intro p hp
    obtain ⟨i, hi⟩ := List.mem_iff_getElem?.mp hp
    obtain ⟨v, hv, hvfeeds, -⟩ := hc.traced i p hi
    exact hnone v hv hvfeeds
  · have hsound := hc.writers w hw
    exact ⟨hsound.nodup, hsound.length_le, hsound.framed⟩

/-! ### A concrete session -/

/-- A cipher that only appends a tag of zeros. -/
def plainCipher : Aead Unit where
  overhead := 16
  sealText _ _ plaintext _ := plaintext ++ List.replicate 16 0
  openText _ _ ciphertext _ := some (ciphertext.take (ciphertext.length - 16))
  length_sealText := by simp
  open_seal := by simp

def plainKey : TrafficKey Unit := ⟨(), .senderToReceiver, true⟩

def plainBinding : EnvelopeBinding :=
  ⟨.filled 1, .filled 2, 1, 0, .senderToReceiver⟩

def plainNonce : NonceRead := .full ⟨List.replicate 12 9, rfl⟩ false

def plainWriter : Writer Unit :=
  ⟨(), plainBinding, ⟨some (), plainBinding, none, 0, false, false⟩, []⟩

def plainReader : Reader Unit :=
  ⟨(), plainBinding, ⟨some (), plainBinding, 0, false, false⟩, []⟩

def plainCall : SealCall Unit := ⟨(), List.replicate 12 9, [7], envelopeAAD plainBinding 0 17⟩

def plainFrame : List UInt8 :=
  EnvelopeSealer.header .senderToReceiver 0 17 (List.replicate 12 9) ++ 7 :: List.replicate 16 0

/-- One plaintext sealed and delivered. -/
def plainSession : Channel Unit :=
  ⟨[plainWriter.write plainCipher [7] plainNonce], plainReader.receive plainCipher plainFrame,
    [plainCall]⟩

theorem plainFrame_genuine : plainReader.Genuine plainCipher [plainCall] plainFrame := by
  intro header hheader _
  have hparse : parseEnvelopeHeader plainFrame .senderToReceiver =
      .ok ⟨0, 17, List.replicate 12 9⟩ := rfl
  obtain rfl := Except.ok.inj (hparse.symm.trans hheader)
  exact ⟨plainCall, List.mem_singleton.mpr rfl, rfl, rfl, rfl, rfl⟩

theorem plainSession_reachable : (system plainCipher).Reachable plainSession := by
  have hstart : (system plainCipher).Reachable ⟨[], plainReader, []⟩ :=
    .of_init ⟨plainKey, plainBinding, _, rfl, rfl⟩
  have hattach : Step plainCipher ⟨[], plainReader, []⟩ (.attach plainKey plainBinding)
      ⟨[plainWriter], plainReader, []⟩ := Step.attach rfl (by simp)
  have hwrite : Step plainCipher ⟨[plainWriter], plainReader, []⟩ (.write 0 [7] plainNonce)
      ⟨[plainWriter.write plainCipher [7] plainNonce], plainReader, [plainCall]⟩ := Step.write rfl
  have hdeliver : Step plainCipher
      ⟨[plainWriter.write plainCipher [7] plainNonce], plainReader, [plainCall]⟩
      (.deliver plainFrame) plainSession := Step.deliver plainFrame_genuine
  exact ((hstart.step hattach).step hwrite).step hdeliver

theorem accepted_in_order_plainSession :
    plainSession.reader.accepted = [[7]] ∧
      plainSession.reader.accepted <+:
        (plainWriter.write plainCipher [7] plainNonce).sent.map Sent.plaintext :=
  ⟨rfl, (accepted_in_order plainSession_reachable).1 _ (List.mem_singleton.mpr rfl) ⟨rfl, rfl⟩⟩

end Channel

end Windshare.Session
