import ScatterWeb.Crypto.Symbolic

/-! # Hashing a concatenation

`shake256_32(parts)` hashes the bytes of its parts one after another, with nothing between them. Keys, public keys and shared secrets
have fixed widths, a label is its characters. What is idealised is only the hash: equal outputs come from equal concatenations. Bytes
are of any type, since 32 of the real ones cannot tell all inputs apart. -/
namespace ScatterWeb.Crypto
open Lib
set_option autoImplicit false

/-- How key material is laid out for hashing. Nothing is said about how the bytes of different kinds of material relate. -/
structure Layout (C : Carriers) (B : Type) where
  key : C.Key → List B
  pub : C.Pub → List B
  ss : C.SS → List B
  char : UInt8 → B
  key_length : ∀ k, (key k).length = 32
  pub_length : ∀ p, (pub p).length = 1184
  ss_length : ∀ s, (ss s).length = 32
  key_injective : Function.Injective key
  ss_injective : Function.Injective ss
  char_injective : Function.Injective char

namespace Layout
variable {C : Carriers} {B : Type} (L : Layout C B)

def part : Part C.Key C.Pub C.SS → List B
  | .key k => L.key k
  | .pub p => L.pub p
  | .ss s => L.ss s
  | .label l => (ascii l).map L.char

def concat (parts : List (Part C.Key C.Pub C.SS)) : List B := parts.flatMap L.part

theorem concat_cons (p : Part C.Key C.Pub C.SS) (ps : List (Part C.Key C.Pub C.SS)) : L.concat (p :: ps) = L.part p ++ L.concat ps := rfl

theorem concat_key_inj {a b : C.Key} {ps qs : List (Part C.Key C.Pub C.SS)} (h : L.concat (.key a :: ps) = L.concat (.key b :: qs)) :
    a = b ∧ L.concat ps = L.concat qs := by
  obtain ⟨hkey, hrest⟩ := List.append_inj h ((L.key_length a).trans (L.key_length b).symm)
  exact ⟨L.key_injective hkey, hrest⟩

theorem concat_ss_inj {x y : C.SS} {ps qs : List (Part C.Key C.Pub C.SS)} (h : L.concat (.ss x :: ps) = L.concat (.ss y :: qs)) :
    x = y ∧ L.concat ps = L.concat qs := by
  obtain ⟨hss, hrest⟩ := List.append_inj h ((L.ss_length x).trans (L.ss_length y).symm)
  exact ⟨L.ss_injective hss, hrest⟩

theorem concat_label (l : String) : L.concat [.label l] = (ascii l).map L.char := by
  simp [concat, part]

theorem label_injective {l l' : String} (h : L.concat [.label l] = L.concat [.label l']) : l = l' := by
  rw [concat_label, concat_label] at h
  exact ascii_inj.mp (L.char_injective.list_map h)

end Layout

/-- The key derivation hashes the concatenation of its parts, without collisions. -/
def Primitives.HashesConcat {C : Carriers} (P : Primitives C) : Prop :=
  ∃ (B : Type) (L : Layout C B) (hash : List B → C.Key), Function.Injective hash ∧ ∀ parts, P.kdf parts = hash (L.concat parts)

/-! ## Terms as bytes -/

/-- The bytes of a term. -/
def pieces (n : ℕ) (t : Term) : List Term := (List.range n).map (fun i => .cons i t .nil)

theorem length_pieces (n : ℕ) (t : Term) : (pieces n t).length = n := by
  rw [pieces, List.length_map, List.length_range]

theorem pieces_injective (n : ℕ) : Function.Injective (pieces (n + 1)) := by
  intro t t' h
  have hlast : pieces n t ++ [.cons n t .nil] = pieces n t' ++ [.cons n t' .nil] := by
    simpa [pieces, List.range_succ] using h
  have htail := (List.append_inj' hlast rfl).2
  simpa using htail

def spelling : Layout symbols Term where
  key := pieces 32
  pub := pieces 1184
  ss := pieces 32
  char c := .coin c.toNat
  key_length := length_pieces 32
  pub_length := length_pieces 1184
  ss_length := length_pieces 32
  key_injective := pieces_injective 31
  ss_injective := pieces_injective 31
  char_injective := by
    intro c c' h
    exact UInt8.toNat.inj (Term.coin.inj h)

def termOf : List Term → Term
  | [] => .nil
  | t :: ts => .cons 0 t (termOf ts)

theorem termOf_injective : Function.Injective termOf := by
  intro ts
  induction ts with
  | nil =>
    intro ts' h
    cases ts' with
    | nil => rfl
    | cons t' ts' => cases h
  | cons t ts ih =>
    intro ts' h
    cases ts' with
    | nil => cases h
    | cons t' ts' =>
      obtain ⟨_, hhead, htail⟩ := Term.cons.inj h
      rw [hhead, ih htail]

/-- The symbolic primitives, with a key derivation that sees a concatenation only. -/
def spelled : Primitives symbols where
  aes := symbolicAes
  kem := symbolicKem
  kdf parts := .hash (termOf (spelling.concat parts))

theorem spelled_hashesConcat : spelled.HashesConcat :=
  ⟨Term, spelling, fun bytes => .hash (termOf bytes), fun _ _ h => termOf_injective (Term.hash.inj h), fun _ => rfl⟩

theorem spelled_correct : spelled.Correct := ⟨symbolicAes_correct, symbolicKem_correct⟩

end ScatterWeb.Crypto
