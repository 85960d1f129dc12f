import ScatterWeb.Crypto.Primitives
import ScatterWeb.Lib.Bytes

/-! # ML-DSA-65

The wrappers of `mldsa.cpp` over liboqs, again as parameters. `Sig` stands for the array of 3309 bytes: `ofBytes` is the size
check and the copy that every parser makes before it verifies, and `arraySig` is that check for the array itself. A
signature from which the message can be read back is longer than that, so the ideal instance has another `Sig`. -/
namespace ScatterWeb.Crypto
open Lib
set_option autoImplicit false

structure DsaKeyPair where
  pub : ByteArr 1952
  priv : ByteArr 4032
  deriving DecidableEq

/-- The bytes of a signature and back. -/
structure SigFormat (Sig : Type) where
  toBytes : Sig → Bytes
  ofBytes : Bytes → Option Sig

/-- `sizeof` is checked, then the bytes are copied. -/
def arraySig : SigFormat (ByteArr 3309) where
  toBytes sig := sig.toList
  ofBytes b := if h : b.length = 3309 then some (toArr b h) else none

/-- `keygen` and `sign` are given the seed they draw. -/
structure Dsa (Sig : Type) extends SigFormat Sig where
  keygen : (seed : ByteArr 32) → DsaKeyPair
  sign : (priv : ByteArr 4032) → (msg : Bytes) → (seed : ByteArr 32) → Sig
  verify : (pub : ByteArr 1952) → (msg : Bytes) → Sig → Bool

variable {Sig : Type}

structure Dsa.Correct (D : Dsa Sig) : Prop where
  verify_sign : ∀ r msg c, D.verify (D.keygen r).pub msg (D.sign (D.keygen r).priv msg c) = true
  ofBytes_toBytes : ∀ sig, D.ofBytes (D.toBytes sig) = some sig

/-- A signature is accepted for no other message and under no other key than it was made for. -/
structure Dsa.Exact (D : Dsa Sig) : Prop extends D.Correct where
  same_inputs : ∀ {r r' msg msg' c}, D.verify (D.keygen r).pub msg (D.sign (D.keygen r').priv msg' c) = true →
    (D.keygen r).pub = (D.keygen r').pub ∧ msg = msg'

/-! ## An ideal instance -/

/-- A signature is the public key and the message. -/
def idealDsa : Dsa (ByteArr 1952 × Bytes) where
  toBytes sig := sig.1.toList ++ sig.2
  ofBytes b := if 1952 ≤ b.length then some (fit 1952 b, b.drop 1952) else none
  keygen seed := ⟨fit 1952 seed.toList, fit 4032 seed.toList⟩
  sign priv msg _ := (fit 1952 (fit 32 priv.toList).toList, msg)
  verify pub msg sig := decide (sig = (pub, msg))

theorem idealDsa_sign (r c : ByteArr 32) (msg : Bytes) : idealDsa.sign (idealDsa.keygen r).priv msg c = ((idealDsa.keygen r).pub, msg) := by
  change (fit 1952 (fit 32 (fit 4032 r.toList).toList).toList, msg) = (fit 1952 r.toList, msg)
  rw [fit_fit (by decide)]

theorem idealDsa_exact : idealDsa.Exact where
  verify_sign r msg c := by
    rw [idealDsa_sign]
    exact decide_eq_true rfl
  ofBytes_toBytes sig := by
    obtain ⟨pub, msg⟩ := sig
    have hlen : 1952 ≤ (pub.toList ++ msg).length := by simp
    change (if 1952 ≤ (pub.toList ++ msg).length then some (fit 1952 (pub.toList ++ msg), (pub.toList ++ msg).drop 1952) else none) = some (pub, msg)
    rw [if_pos hlen, fit_append, List.drop_left' pub.toList_length]
  same_inputs := by
    intro r r' msg msg' c h
    rw [idealDsa_sign] at h
    obtain ⟨hpub, hmsg⟩ := Prod.mk.inj (of_decide_eq_true h)
    exact ⟨hpub.symm, hmsg.symm⟩

end ScatterWeb.Crypto
