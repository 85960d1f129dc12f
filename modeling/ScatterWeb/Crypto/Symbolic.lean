import ScatterWeb.Crypto.Primitives
import ScatterWeb.Lib.Bytes

/-! # Instances of the primitives

In the symbolic instance key material is a term, every operation is a constructor, and decapsulation and
decryption match on the term they are given. All the assumed properties hold, so results stated for ideal
primitives are not about an empty class, and sessions over it can be evaluated. The other instance is over
the byte arrays of the source. -/
namespace ScatterWeb.Crypto
open Lib
set_option autoImplicit false

inductive Term
  | coin (n : ℕ)
  | pub (secret : Term)
  | kemCt (pub coin : Term)
  | kemSs (pub coin : Term)
  | reject (secret ct : Term)
  | nil
  | cons (kind : ℕ) (head tail : Term)
  | label (l : String)
  | hash (input : Term)
  | mac (key nonce : Term) (plaintext ad : Bytes)
  deriving DecidableEq

def symbols : Carriers where
  Key := Term
  Pub := Term
  Priv := Term
  Ct := Term
  SS := Term
  Nonce := Term
  Tag := Term
  Coin := Term

def kdfInput : List (Part Term Term Term) → Term
  | [] => .nil
  | .key k :: ps => .cons 0 k (kdfInput ps)
  | .pub p :: ps => .cons 1 p (kdfInput ps)
  | .ss s :: ps => .cons 2 s (kdfInput ps)
  | .label l :: ps => .cons 3 (.label l) (kdfInput ps)

theorem kdfInput_injective : Function.Injective kdfInput := by
  intro ps
  induction ps with
  | nil =>
    intro qs h
    cases qs with
    | nil => rfl
    | cons q qs => cases q <;> simp [kdfInput] at h
  | cons p ps ih =>
    intro qs h
    cases qs with
    | nil => cases p <;> simp [kdfInput] at h
    | cons q qs =>
      cases p <;> cases q <;> simp only [kdfInput, Term.cons.injEq, Term.label.injEq] at h
      all_goals first
        | exact absurd h.1 (by decide)
        | rw [h.2.1, ih h.2.2]

/-- The ciphertext is the plaintext; the tag names everything that was encrypted. -/
def symbolicAes : Aead Term Term Term where
  encrypt k n p ad := (p, .mac k n p ad)
  decrypt k n c t ad := if t = .mac k n c ad then some c else none

/-- A public key names its private key; a foreign ciphertext is rejected implicitly. -/
def symbolicKem : Kem Term Term Term Term Term where
  keygen r := ⟨.pub r, r⟩
  encapsulate p r := (.kemCt p r, .kemSs p r)
  decapsulate s ct :=
    match ct with
    | .kemCt p r => if p = .pub s then .kemSs p r else .reject s ct
    | ct => .reject s ct

def symbolic : Primitives symbols where
  aes := symbolicAes
  kem := symbolicKem
  kdf ps := .hash (kdfInput ps)

theorem symbolicAes_correct : symbolicAes.Correct :=
  ⟨fun k n p ad => by simp [symbolicAes], fun k n p ad => rfl⟩

theorem symbolicAes_binding : symbolicAes.Binding := by
  refine ⟨?_⟩
  intro k n p ad k' n' ad' p' h
  simp only [symbolicAes, Term.mac.injEq, true_and] at h
  split at h
  · next heq => exact ⟨heq.1.symm, heq.2.1.symm, heq.2.2.symm⟩
  · cases h

theorem symbolicKem_correct : symbolicKem.Correct := fun r r' => by simp [symbolicKem]

theorem symbolic_ideal : symbolic.Ideal where
  aes := symbolicAes_correct
  kem := symbolicKem_correct
  kdf_injective := fun _ _ h => kdfInput_injective (Term.hash.inj h)
  aes_binding := symbolicAes_binding

/-! ## Bytes -/

def checksum (k : ByteArr 32) (n : ByteArr 12) (p ad : Bytes) : ByteArr 16 :=
  List.Vector.replicate 16 ((k.toList ++ n.toList ++ p ++ ad).foldl (fun acc b => 31 * acc + b) 0)

/-- The ciphertext is the plaintext, and a wrong tag is rejected. -/
def checksumAes : Aead (ByteArr 32) (ByteArr 12) (ByteArr 16) where
  encrypt k n p ad := (p, checksum k n p ad)
  decrypt k n c t ad := if t = checksum k n c ad then some c else none

/-- A ciphertext is the coin it was made with, padded, and so is a public key. -/
def paddingKem : Kem (ByteArr 1184) (ByteArr 2400) (ByteArr 1088) (ByteArr 32) (ByteArr 32) where
  keygen r := ⟨fit 1184 r.toList, fit 2400 r.toList⟩
  encapsulate _ r := (fit 1088 r.toList, r)
  decapsulate _ ct := fit 32 ct.toList

/-- The primitives over byte arrays; a derived key is the front of what it is derived from. -/
def padding : Primitives wire where
  aes := checksumAes
  kem := paddingKem
  kdf ps := fit 32 (ps.flatMap (fun part => match part with
    | .key k => k.toList
    | .pub p => p.toList
    | .ss s => s.toList
    | .label l => ascii l))

theorem checksumAes_correct : checksumAes.Correct :=
  ⟨fun _ _ _ _ => if_pos rfl, fun _ _ _ _ => rfl⟩

theorem checksumAes_tagAuthentic : checksumAes.TagAuthentic := fun _ _ _ _ _ h => if_neg h

end ScatterWeb.Crypto
