import Windshare.Session.Envelope

/-!
# Block fragments

The model of `contentflow/fragment.go`. A record travels as fragments of a fixed payload
size, and every header is checked before any of its lengths is used.
-/

namespace Windshare.Content

open Windshare.Library Windshare.Session

abbrev Bytes := List UInt8

/-- Nanoseconds. -/
abbrev Time := Nat

def fragmentCodecVersion : UInt8 := 1
def fragmentHeaderBytes : Nat := 52
def maxFragmentPayloadBytes : Nat := 65440
def maxFragmentCount : Nat := 128
def maxBlockRecordObjectBytes : Nat := 4 * 1048576 + 512
def maxOperationReassemblyBytes : UInt64 := UInt64.ofNat maxBlockRecordObjectBytes
def fragmentInactivityTimeout : Time := 15 * 1000000000
def fragmentTombstone : Time := 30 * 1000000000
def maxFragmentTombstones : Nat := 4096

/-- `byte(protocolsession.MessageBlockFragment)`. -/
def messageBlockFragment : UInt8 := 8

/-- The errors of fragments and of their assembly. -/
inductive FragmentError where
  | malformed
  | conflict
  | inactivity
  | recordDigest
  | assemblerClosed
  | reassemblyBudget
  | reassemblyClosed
deriving DecidableEq, Repr

structure Fragment where
  operationID : Identity
  recordID : Identity
  index : UInt32
  count : UInt32
  totalLength : UInt32
  last : Bool
  payload : Bytes
deriving DecidableEq

def decodeAuthenticatedFragment (plaintext : Bytes) : Except FragmentError Fragment :=
  if plaintext.length < fragmentHeaderBytes ∨ plaintext.length > maxEnvelopePlaintextBytes then
    .error .malformed
  else
    match plaintext.take 4, identityAt plaintext 4, identityAt plaintext 20 with
    | [version, kind, flags, reserved], some operationID, some recordID =>
      if version ≠ fragmentCodecVersion ∨ kind ≠ messageBlockFragment ∨ flags > 1 ∨
          reserved ≠ 0 ∨ operationID.isZero ∨ recordID.isZero then .error .malformed
      else
        let index := uint32At plaintext 36
        let count := uint32At plaintext 40
        let total := uint32At plaintext 44
        let payloadLength := uint32At plaintext 48
        let last : Bool := flags = 1
        let expectedCount := (total.toNat + maxFragmentPayloadBytes - 1) / maxFragmentPayloadBytes
        let expectedPayload :=
          if last then total.toNat - (count.toNat - 1) * maxFragmentPayloadBytes
          else maxFragmentPayloadBytes
        if count = 0 ∨ count.toNat > maxFragmentCount ∨ index ≥ count ∨ total = 0 ∨
            total.toNat > maxBlockRecordObjectBytes ∨ count.toNat ≠ expectedCount ∨
            payloadLength.toNat ≠ plaintext.length - fragmentHeaderBytes ∨
            last ≠ decide (index.toNat = count.toNat - 1) ∨
            payloadLength.toNat ≠ expectedPayload then .error .malformed
        else
          .ok {
            operationID, recordID, index, count
            totalLength := total
            last
            payload := plaintext.drop fragmentHeaderBytes }
    | _, _, _ => .error .malformed

def recordDigestMatches (sha256 : Bytes → Bytes) (id : Identity) (object : Bytes) : Bool :=
  id.bytes = (sha256 object).take 16

end Windshare.Content
