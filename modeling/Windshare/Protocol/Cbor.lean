import Windshare.Protocol.CborCanonical

/-!
# Schema values of the web client

The model of `protocol/cbor.ts` as far as decoding goes. The decoder of the CBOR package is a
parameter: it returns the value that a valid encoding denotes. So is the test for text in
Unicode normal form C, which the runtimes share.
-/

namespace Windshare.Protocol

open Windshare.Library
open Windshare.Library.Cbor

/-- The errors of `protocol/cbor.ts`, without their labels. -/
inductive CborError where
  | boundary
  | strict
  | depth
  | text
  | arrayLimit
  | mapLimit
  | schemaKey
  | fields
  | boundedArray
  | byteWidth
  | unsigned
  | boolean
deriving DecidableEq, Repr

/-- The decoder of the package, which is called on validated encodings only. -/
structure PackageDecoder where
  decode : List UInt8 → Option Value
  decode_encode : ∀ v, Allowed v → decode (encode v) = some v

/-- `validateValue`, where `r` more levels are allowed. A decoded number that is not a safe
integer is a bigint, so numbers pass. -/
def validateValue (nfc : String → Bool) : Nat → Value → Except CborError Unit
  | 0, _ => .error .depth
  | _ + 1, .text content => if nfc content then .ok () else .error .text
  | r + 1, .array items =>
    if items.length > maximumCborArrayItems then .error .arrayLimit
    else items.forM (validateValue nfc r)
  | r + 1, .map fields =>
    if fields.length > maximumCborMapFields then .error .mapLimit
    else fields.forM fun f =>
      if f.1 > maxSafeInteger then .error .schemaKey else validateValue nfc r f.2
  | _ + 1, _ => .ok ()

/-- `decodeCanonicalCbor`; the byte limit is a positive safe integer. -/
def decodeCanonicalCbor (package : PackageDecoder) (nfc : String → Bool) (encoded : List UInt8)
    (maximumBytes : Nat) : Except CborError Value :=
  if encoded.length = 0 ∨ encoded.length > maximumBytes then .error .boundary
  else
    match validateCanonicalEncoding encoded, package.decode encoded with
    | .ok (), some v =>
      match validateValue nfc (maximumCborDepth + 1) v with
      | .error e => .error e
      | .ok () => .ok v
    | _, _ => .error .strict

def requireNumericMap (v : Value) (keys : List Nat) : Except CborError (List (Nat × Value)) :=
  match v with
  | .map fields =>
    if fields.length ≠ keys.length then .error .fields
    else if fields.all (fun f => decide (f.1 ∈ keys)) then .ok fields
    else .error .fields
  | _ => .error .fields

def requireArray (v : Value) (maximumItems : Nat) : Except CborError (List Value) :=
  match v with
  | .array items => if items.length > maximumItems then .error .boundedArray else .ok items
  | _ => .error .boundedArray

def requireBytes (v : Value) (exactBytes : Nat) (nonzero : Bool) : Except CborError (List UInt8) :=
  match v with
  | .bytes content =>
    if content.length ≠ exactBytes ∨ nonzero = true ∧ content.all (· = 0) = true then
      .error .byteWidth
    else .ok content
  | _ => .error .byteWidth

def requireUnsigned (v : Value) : Except CborError Nat :=
  match v with
  | .unsigned n => .ok n
  | _ => .error .unsigned

def requireText (nfc : String → Bool) (v : Value) : Except CborError String :=
  match v with
  | .text content => if nfc content then .ok content else .error .text
  | _ => .error .text

def requireBoolean (v : Value) : Except CborError Bool :=
  match v with
  | .bool b => .ok b
  | _ => .error .boolean

/-! ### What the helpers accept -/

variable {v : Value} {nfc : String → Bool}

end Windshare.Protocol
