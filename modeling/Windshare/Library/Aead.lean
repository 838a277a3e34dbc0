import Mathlib.Data.List.Basic

/-!
# Authenticated encryption

The interface of an AEAD cipher, with the two facts any such cipher has: it opens
what it sealed and it adds a fixed number of bytes. Its security is not a
property of the functions but of a run: `Unforged` says that a ciphertext was not
made outside the sealing calls recorded in a log. An ideal cipher is one in whose
runs every ciphertext that opens is unforged.
-/

namespace Windshare.Library

/-- An AEAD cipher over keys `K`. -/
structure Aead (K : Type*) where
  overhead : Nat
  sealText : K → (nonce plaintext aad : List UInt8) → List UInt8
  openText : K → (nonce ciphertext aad : List UInt8) → Option (List UInt8)
  length_sealText : ∀ k nonce plaintext aad,
    (sealText k nonce plaintext aad).length = plaintext.length + overhead
  open_seal : ∀ k nonce plaintext aad,
    openText k nonce (sealText k nonce plaintext aad) aad = some plaintext

/-- The arguments of one sealing call. -/
structure SealCall (K : Type*) where
  key : K
  nonce : List UInt8
  plaintext : List UInt8
  aad : List UInt8

namespace Aead

variable {K : Type*} (aead : Aead K)

/-- If the ciphertext opens, one of the logged calls produced it under the same
key, nonce and additional data. -/
def Unforged (log : List (SealCall K)) (k : K) (nonce ciphertext aad : List UInt8) : Prop :=
  (aead.openText k nonce ciphertext aad).isSome →
    ∃ call ∈ log, call.key = k ∧ call.nonce = nonce ∧ call.aad = aad ∧
      aead.sealText k nonce call.plaintext aad = ciphertext

variable {aead} {log : List (SealCall K)} {k : K} {nonce ciphertext aad plaintext : List UInt8}

theorem Unforged.exists_call (h : aead.Unforged log k nonce ciphertext aad)
    (hopen : aead.openText k nonce ciphertext aad = some plaintext) :
    ∃ call ∈ log, call.key = k ∧ call.aad = aad ∧ call.plaintext = plaintext := by
  obtain ⟨call, hmem, hkey, -, haad, hct⟩ := h (by rw [hopen]; rfl)
  refine ⟨call, hmem, hkey, haad, ?_⟩
  rw [← hct, aead.open_seal] at hopen
  exact Option.some.inj hopen

end Aead

end Windshare.Library
