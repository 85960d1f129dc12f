import Mathlib.Data.Set.Basic
import ScatterWeb.Crypto.Symbolic

/-! # What an attacker can compute

The attacker of the symbolic instance has a set of terms, may write down constants and concatenations, and may call every primitive on what it has:
the key derivation, key generation, encapsulation, decapsulation, and the tag of AES-GCM. It cannot undo a hash, and it learns nothing about a private key from what is
made with the public one.

`Known` bounds this from above by recursion on the term. It is given the coins that are secret and the hashes and tags that were handed out, and reads off a
term whether it could be derived from these; so that a term is out of reach is shown by evaluating `Known` and not by induction on derivations. -/
namespace ScatterWeb.Crypto
set_option autoImplicit false

inductive Derives (given : Set Term) : Term → Prop
  | given {t : Term} (h : t ∈ given) : Derives given t
  | nil : Derives given .nil
  | label (l : String) : Derives given (.label l)
  | cons (kind : ℕ) {head tail : Term} (hhead : Derives given head) (htail : Derives given tail) : Derives given (.cons kind head tail)
  | hash {input : Term} (h : Derives given input) : Derives given (.hash input)
  | keygen {r : Term} (h : Derives given r) : Derives given (symbolic.kem.keygen r).pub
  | ciphertext {p r : Term} (hp : Derives given p) (hr : Derives given r) : Derives given (symbolic.kem.encapsulate p r).1
  | encapsulate {p r : Term} (hp : Derives given p) (hr : Derives given r) : Derives given (symbolic.kem.encapsulate p r).2
  | decapsulate {s ct : Term} (hs : Derives given s) (hct : Derives given ct) : Derives given (symbolic.kem.decapsulate s ct)
  | tag {key nonce : Term} (plaintext ad : Bytes) (hkey : Derives given key) (hnonce : Derives given nonce) :
      Derives given (symbolic.aes.encrypt key nonce plaintext ad).2

/-- The term that stands for an argument of the key derivation. -/
def Part.term : Part Term Term Term → Term
  | .key k => k
  | .pub p => p
  | .ss s => s
  | .label l => .label l

section Derivations
variable {given more : Set Term} {t : Term}

theorem Derives.mono (hsub : given ⊆ more) (h : Derives given t) : Derives more t := by
  induction h with
  | given h => exact .given (hsub h)
  | nil => exact .nil
  | label l => exact .label l
  | cons kind _ _ ihhead ihtail => exact .cons kind ihhead ihtail
  | hash _ ih => exact .hash ih
  | keygen _ ih => exact .keygen ih
  | ciphertext _ _ ihp ihr => exact .ciphertext ihp ihr
  | encapsulate _ _ ihp ihr => exact .encapsulate ihp ihr
  | decapsulate _ _ ihs ihct => exact .decapsulate ihs ihct
  | tag plaintext ad _ _ ihkey ihnonce => exact .tag plaintext ad ihkey ihnonce

/-- The key derivation of what can be derived can be derived. -/
theorem Derives.kdf {ps : List (Part Term Term Term)} (h : ∀ part ∈ ps, Derives given part.term) : Derives given (symbolic.kdf ps) := by
  refine .hash ?_
  induction ps with
  | nil => exact .nil
  | cons part ps ih =>
    have hpart := h part List.mem_cons_self
    have hrest := ih (fun part' hmem => h part' (List.mem_cons_of_mem part hmem))
    cases part with
    | key k => exact .cons 0 hpart hrest
    | pub p => exact .cons 1 hpart hrest
    | ss s => exact .cons 2 hpart hrest
    | label l => exact .cons 3 (.label l) hrest

end Derivations

/-- The coin was used to make the term. -/
def Occurs (n : ℕ) : Term → Prop
  | .coin m => m = n
  | .pub s => Occurs n s
  | .kemCt p r => Occurs n p ∨ Occurs n r
  | .kemSs p r => Occurs n p ∨ Occurs n r
  | .reject s ct => Occurs n s ∨ Occurs n ct
  | .nil => False
  | .cons _ head tail => Occurs n head ∨ Occurs n tail
  | .label _ => False
  | .hash input => Occurs n input
  | .mac key nonce _ _ => Occurs n key ∨ Occurs n nonce

theorem occurs_kdf {n : ℕ} {ps : List (Part Term Term Term)} {part : Part Term Term Term} (hmem : part ∈ ps) (h : Occurs n part.term) :
    Occurs n (symbolic.kdf ps) := by
  change Occurs n (kdfInput ps)
  induction ps with
  | nil => exact absurd hmem List.not_mem_nil
  | cons first ps ih =>
    rcases List.mem_cons.mp hmem with rfl | hrest
    · cases part with
      | key k => exact Or.inl h
      | pub p => exact Or.inl h
      | ss s => exact Or.inl h
      | label l => exact Or.inl h
    · have hin := ih hrest
      cases first with
      | key k => exact Or.inr hin
      | pub p => exact Or.inr hin
      | ss s => exact Or.inr hin
      | label l => exact Or.inr hin

/-! ## A bound on what is derived -/

/-- `secret` are the coins the attacker does not have, `given` the hashes and tags it was handed. -/
def Known (secret : Set ℕ) (given : Set Term) : Term → Prop
  | .coin n => n ∉ secret
  | .pub _ => True
  | .kemCt _ _ => True
  | .kemSs p r => Known secret given r ∨ (match p with
    | .pub s => Known secret given s
    | _ => False)
  | .reject s _ => Known secret given s
  | .nil => True
  | .cons _ head tail => Known secret given head ∧ Known secret given tail
  | .label _ => True
  | .hash input => .hash input ∈ given ∨ Known secret given input
  | .mac key nonce plaintext ad => .mac key nonce plaintext ad ∈ given ∨ Known secret given key

section Bound
variable {secret : Set ℕ} {given : Set Term}

theorem known_kemSs {p r : Term} : Known secret given (.kemSs p r) ↔ Known secret given r ∨ ∃ s, p = .pub s ∧ Known secret given s := by
  cases p <;> simp [Known]

/-- More hashes and tags only make more known. -/
theorem Known.mono {more : Set Term} (hsub : given ⊆ more) {t : Term} (h : Known secret given t) : Known secret more t := by
  induction t using Known.induct with
  | case1 n => exact h
  | case2 s => exact trivial
  | case3 p r => exact trivial
  | case4 p r ihr ihp =>
    rcases known_kemSs.mp h with hr | ⟨s, rfl, hs⟩
    · exact known_kemSs.mpr (Or.inl (ihr hr))
    · exact known_kemSs.mpr (Or.inr ⟨s, rfl, ihp hs⟩)
  | case5 s ct ih => exact ih h
  | case6 => exact trivial
  | case7 kind head tail ihhead ihtail => exact ⟨ihhead h.1, ihtail h.2⟩
  | case8 l => exact trivial
  | case9 input ih => exact h.imp (fun hin => hsub hin) ih
  | case10 key nonce plaintext ad ih => exact h.imp (fun hin => hsub hin) ih

/-- A secret that was encapsulated is known to who knows the coin or the private key. -/
theorem known_decapsulate {s ct : Term} (hs : Known secret given s) : Known secret given (symbolic.kem.decapsulate s ct) := by
  cases ct with
  | kemCt p r =>
    change Known secret given (if p = .pub s then .kemSs p r else .reject s (.kemCt p r))
    by_cases hp : p = .pub s
    · rw [if_pos hp]
      exact known_kemSs.mpr (Or.inr ⟨s, hp, hs⟩)
    · rw [if_neg hp]
      exact hs
  | coin => exact hs
  | pub => exact hs
  | kemSs => exact hs
  | reject => exact hs
  | nil => exact hs
  | cons => exact hs
  | label => exact hs
  | hash => exact hs
  | mac => exact hs

theorem Derives.known {view : Set Term} (hview : ∀ t ∈ view, Known secret given t) {t : Term} (h : Derives view t) : Known secret given t := by
  induction h with
  | given h => exact hview _ h
  | nil => exact trivial
  | label l => exact trivial
  | cons kind _ _ ihhead ihtail => exact ⟨ihhead, ihtail⟩
  | hash _ ih => exact Or.inr ih
  | keygen _ _ => exact trivial
  | ciphertext _ _ _ _ => exact trivial
  | encapsulate _ _ _ ihr => exact known_kemSs.mpr (Or.inl ihr)
  | decapsulate _ _ ihs _ => exact known_decapsulate ihs
  | tag plaintext ad _ _ ihkey _ => exact Or.inr ihkey

/-- All arguments of a hash that is known, and was not handed out, are known. -/
theorem known_kdf {ps : List (Part Term Term Term)} (h : Known secret given (symbolic.kdf ps)) (hnot : symbolic.kdf ps ∉ given) :
    ∀ part ∈ ps, Known secret given part.term := by
  have hinput : Known secret given (kdfInput ps) := h.resolve_left hnot
  clear h hnot
  induction ps with
  | nil => exact fun part hmem => absurd hmem List.not_mem_nil
  | cons first ps ih =>
    have hboth : Known secret given first.term ∧ Known secret given (kdfInput ps) := by
      cases first with
      | key k => exact hinput
      | pub p => exact hinput
      | ss s => exact hinput
      | label l => exact hinput
    intro part hmem
    rcases List.mem_cons.mp hmem with rfl | hrest
    · exact hboth.1
    · exact ih hboth.2 part hrest

/-- A tag that is known was handed out, or its key is known. -/
theorem known_tag {key nonce : Term} {plaintext ad : Bytes} (h : Known secret given (.mac key nonce plaintext ad)) (hkey : ¬Known secret given key) :
    .mac key nonce plaintext ad ∈ given := h.resolve_right hkey

end Bound

end ScatterWeb.Crypto
