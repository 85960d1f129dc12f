import Mathlib.Data.Vector.Basic
import Mathlib.Logic.Function.Basic

/-! # The `sw::crypto` interface

AES-256-GCM, ML-KEM-768 and SHAKE-256 are called through thin wrappers over libsodium, liboqs and
OpenSSL, none of which is part of the repository. They are parameters here: a record of functions and, apart
from it, the properties of them that a proof may use. Randomness that a wrapper draws internally
(`randombytes_buf`, `mlkem_keygen`, `mlkem_encapsulate`) is an explicit argument.

The carriers are parameters too. `wire` fixes them to the byte arrays of `types.hpp`, and the
protocol results hold for any carriers, so that an ideal key derivation (injective, hence not of 32 bytes) is possible. -/
namespace ScatterWeb.Crypto
set_option autoImplicit false

/-- `sw::Bytes`. -/
abbrev Bytes := List UInt8

/-- `std::array<uint8_t, n>`. -/
abbrev ByteArr (n : ℕ) := List.Vector UInt8 n

/-! ## Authenticated encryption -/

/-- AES-256-GCM with a detached tag. `decrypt` is `none` on authentication failure. -/
structure Aead (Key Nonce Tag : Type) where
  encrypt : Key → Nonce → (plaintext ad : Bytes) → Bytes × Tag
  decrypt : Key → Nonce → (ciphertext : Bytes) → Tag → (ad : Bytes) → Option Bytes

/-- Decryption inverts encryption, and a ciphertext is as long as its plaintext. -/
structure Aead.Correct {Key Nonce Tag : Type} (A : Aead Key Nonce Tag) : Prop where
  decrypt_encrypt : ∀ k n p ad, A.decrypt k n (A.encrypt k n p ad).1 (A.encrypt k n p ad).2 ad = some p
  length_encrypt : ∀ k n p ad, (A.encrypt k n p ad).1.length = p.length

/-- A ciphertext and tag are accepted only under the key, nonce and associated data they were made with. -/
structure Aead.Binding {Key Nonce Tag : Type} (A : Aead Key Nonce Tag) : Prop where
  same_inputs : ∀ {k n p ad k' n' ad' p'},
    A.decrypt k' n' (A.encrypt k n p ad).1 (A.encrypt k n p ad).2 ad' = some p' → k' = k ∧ n' = n ∧ ad' = ad

/-- A tag other than the one that was made for a ciphertext is rejected. -/
def Aead.TagAuthentic {Key Nonce Tag : Type} (A : Aead Key Nonce Tag) : Prop :=
  ∀ k n p ad t, t ≠ (A.encrypt k n p ad).2 → A.decrypt k n (A.encrypt k n p ad).1 t ad = none

/-! ## Key encapsulation and key derivation -/

structure KemKeyPair (Pub Priv : Type) where
  pub : Pub
  priv : Priv
  deriving DecidableEq

/-- ML-KEM-768. -/
structure Kem (Pub Priv Ct SS Coin : Type) where
  keygen : Coin → KemKeyPair Pub Priv
  encapsulate : Pub → Coin → Ct × SS
  decapsulate : Priv → Ct → SS

/-- Decapsulation with the matching private key inverts encapsulation. -/
def Kem.Correct {Pub Priv Ct SS Coin : Type} (K : Kem Pub Priv Ct SS Coin) : Prop :=
  ∀ r r', K.decapsulate (K.keygen r).priv (K.encapsulate (K.keygen r).pub r').1 =
    (K.encapsulate (K.keygen r).pub r').2

/-- One argument of a multi-part `shake256_32` call. The wrapper hashes the concatenation; every
call of the ratchet has fixed-width parts and ends in a label, so the parts are kept apart here. -/
inductive Part (Key Pub SS : Type)
  | key (k : Key)
  | pub (p : Pub)
  | ss (s : SS)
  | label (l : String)
  deriving DecidableEq

/-- The types of key material. -/
structure Carriers where
  Key : Type
  Pub : Type
  Priv : Type
  Ct : Type
  SS : Type
  Nonce : Type
  Tag : Type
  Coin : Type

/-- The byte arrays of `types.hpp`, `aes_gcm.hpp` and `mlkem.hpp`; a coin is a 32-byte seed. -/
def wire : Carriers where
  Key := ByteArr 32
  Pub := ByteArr 1184
  Priv := ByteArr 2400
  Ct := ByteArr 1088
  SS := ByteArr 32
  Nonce := ByteArr 12
  Tag := ByteArr 16
  Coin := ByteArr 32

/-- The primitives over given carriers. -/
structure Primitives (C : Carriers) where
  aes : Aead C.Key C.Nonce C.Tag
  kem : Kem C.Pub C.Priv C.Ct C.SS C.Coin
  /-- `shake256_32(parts)`. -/
  kdf : List (Part C.Key C.Pub C.SS) → C.Key

/-- What a receiver relies on to read a message. -/
structure Primitives.Correct {C : Carriers} (P : Primitives C) : Prop where
  aes : P.aes.Correct
  kem : P.kem.Correct

/-- What in addition keeps keys apart: distinct KDF inputs give distinct keys, and AES-GCM accepts
only what was produced under the same key, nonce and associated data. -/
structure Primitives.Ideal {C : Carriers} (P : Primitives C) : Prop extends P.Correct where
  kdf_injective : Function.Injective P.kdf
  aes_binding : P.aes.Binding

end ScatterWeb.Crypto
