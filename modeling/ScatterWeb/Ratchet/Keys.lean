import ScatterWeb.Crypto.Concat
import ScatterWeb.Ratchet.Invariant

/-! # Keys are apart

The keys of the ratchet are hashes of three shapes: a key and a label, a root key with a shared secret and a label, and the first root key.
The inputs are plain concatenations, told apart by their lengths and, where these agree, by the label behind the first 32 bytes.
`KeysApart` is what is used of that. It gives every key a place: how many KEM steps lead to its root key, and how many chain steps follow. -/
namespace ScatterWeb.Ratchet
open Crypto Lib
set_option autoImplicit false
variable {C : Carriers} {P : Primitives C}

/-- Different inputs of the key derivation, of the shapes that the ratchet uses, give different keys. -/
structure KeysApart (P : Primitives C) : Prop where
  labelled_inj : ∀ {a b : C.Key} {l l' : String}, P.kdf [.key a, .label l] = P.kdf [.key b, .label l'] → a = b ∧ l = l'
  step_inj : ∀ {a b : C.Key} {x y : C.SS}, ratchetStep P a x = ratchetStep P b y → a = b ∧ x = y
  labelled_ne_step : ∀ {a b : C.Key} {x : C.SS} {l : String}, (ascii l).length < 44 → P.kdf [.key a, .label l] ≠ ratchetStep P b x
  labelled_ne_init : ∀ {a : C.Key} {x : C.SS} {p q : C.Pub} {l : String}, (ascii l).length < 44 →
    P.kdf [.key a, .label l] ≠ ratchetInit P x p q
  step_ne_init : ∀ {a : C.Key} {x y : C.SS} {p q : C.Pub}, ratchetStep P a x ≠ ratchetInit P y p q

theorem keysApart_of_ideal (hP : P.Ideal) : KeysApart P where
  labelled_inj h := by simpa using hP.kdf_injective h
  step_inj h := by simpa using hP.kdf_injective h
  labelled_ne_step _ h := by simpa using hP.kdf_injective h
  labelled_ne_init _ h := by simpa using hP.kdf_injective h
  step_ne_init h := by simpa using hP.kdf_injective h

/-- The concatenations are unambiguous. -/
theorem keysApart_of_hashesConcat (hP : P.HashesConcat) : KeysApart P := by
  obtain ⟨B, L, hash, hinj, hkdf⟩ := hP
  have hlabel : ∀ (a : C.Key) (l : String), (L.concat [.key a, .label l]).length = 32 + (ascii l).length := by
    intro a l
    rw [L.concat_cons, List.length_append, L.concat_label, List.length_map]
    exact congrArg (· + (ascii l).length) (L.key_length a)
  have hstep : ∀ (a : C.Key) (x : C.SS), (L.concat [.key a, .ss x, .label "ratchet_step"]).length = 76 := by
    intro a x
    have hlen : (ascii "ratchet_step").length = 12 := by decide
    simp [Layout.concat, Layout.part, L.key_length, L.ss_length, hlen]
  have hinit : ∀ (x : C.SS) (p q : C.Pub), (L.concat [.ss x, .pub p, .pub q, .label "ratchet_init"]).length = 2412 := by
    intro x p q
    have hlen : (ascii "ratchet_init").length = 12 := by decide
    simp [Layout.concat, Layout.part, L.ss_length, L.pub_length, hlen]
  have hconcat : ∀ {ps qs}, P.kdf ps = P.kdf qs → L.concat ps = L.concat qs := by
    intro ps qs h
    rw [hkdf, hkdf] at h
    exact hinj h
  refine ⟨?_, ?_, ?_, ?_, ?_⟩
  · intro a b l l' h
    obtain ⟨hkey, hrest⟩ := L.concat_key_inj (hconcat h)
    exact ⟨hkey, L.label_injective hrest⟩
  · intro a b x y h
    obtain ⟨hkey, hrest⟩ := L.concat_key_inj (hconcat h)
    exact ⟨hkey, (L.concat_ss_inj hrest).1⟩
  · intro a b x l hl h
    have hlen := congrArg List.length (hconcat h)
    rw [hlabel, hstep] at hlen
    omega
  · intro a x p q l hl h
    have hlen := congrArg List.length (hconcat h)
    rw [hlabel, hinit] at hlen
    omega
  · intro a x y p q h
    have hlen := congrArg List.length (hconcat h)
    rw [hstep, hinit] at hlen
    omega

/-! ## Chains -/

def ChainHead (P : Primitives C) (ck : C.Key) : Prop := ∃ root, ck = sendChain P root ∨ ck = recvChain P root

section Chains
variable (hk : KeysApart P)
include hk

theorem messageKey_inj {a b : C.Key} (h : messageKey P a = messageKey P b) : a = b := (hk.labelled_inj h).1

theorem nextChainKey_inj {a b : C.Key} (h : nextChainKey P a = nextChainKey P b) : a = b := (hk.labelled_inj h).1

theorem sendChain_inj {a b : C.Key} (h : sendChain P a = sendChain P b) : a = b := (hk.labelled_inj h).1

theorem sendChain_ne_recvChain (a b : C.Key) : sendChain P a ≠ recvChain P b := by
  intro h
  exact absurd (hk.labelled_inj h).2 (by decide)

theorem nextChainKey_ne_head {a b : C.Key} (hb : ChainHead P b) : nextChainKey P a ≠ b := by
  obtain ⟨root, rfl | rfl⟩ := hb
  · intro h
    exact absurd (hk.labelled_inj h).2 (by decide)
  · intro h
    exact absurd (hk.labelled_inj h).2 (by decide)

theorem chainAt_inj {c c' : C.Key} (hc : ChainHead P c) (hc' : ChainHead P c') {n n' : ℕ} :
    chainAt P c n = chainAt P c' n' ↔ c = c' ∧ n = n' := by
  induction n generalizing n' with
  | zero =>
    cases n' with
    | zero => simp [chainAt]
    | succ n' => exact iff_of_false (fun h => nextChainKey_ne_head hk hc h.symm) (by simp)
  | succ n ih =>
    cases n' with
    | zero => exact iff_of_false (nextChainKey_ne_head hk hc') (by simp)
    | succ n' =>
      rw [Nat.succ_inj, ← ih]
      exact ⟨nextChainKey_inj hk, congrArg (nextChainKey P)⟩

/-! ## Root keys -/

/-- The first root key of a session. -/
def IsInit (P : Primitives C) (root0 : C.Key) : Prop := ∃ x p q, root0 = ratchetInit P x p q

theorem ratchetStep_ne_root {root0 : C.Key} (h0 : IsInit P root0) (a : C.Key) (x : C.SS) : ratchetStep P a x ≠ root0 := by
  obtain ⟨y, p, q, rfl⟩ := h0
  exact hk.step_ne_init

/-- The number of KEM steps can be read off a root key, whatever the secrets were. -/
theorem rootAt_inj {root0 : C.Key} (h0 : IsInit P root0) {secret secret' : ℕ → C.SS} {i j : ℕ}
    (h : rootAt P root0 secret i = rootAt P root0 secret' j) : i = j := by
  induction i generalizing j with
  | zero =>
    cases j with
    | zero => rfl
    | succ j => exact absurd h.symm (ratchetStep_ne_root hk h0 _ _)
  | succ i ih =>
    cases j with
    | zero => exact absurd h (ratchetStep_ne_root hk h0 _ _)
    | succ j => rw [ih (hk.step_inj h).1]

omit hk in
theorem Setup.root_isInit (u : Setup C) : IsInit P (u.root P) := ⟨_, _, _, rfl⟩

omit hk in
theorem chainOf_head (root0 : C.Key) (secret : ℕ → C.SS) (p : Side) (e : ℕ) : ChainHead P (chainOf P root0 secret p e) := by
  cases p with
  | alice => exact ⟨_, Or.inl rfl⟩
  | bob =>
    cases e with
    | zero => exact ⟨_, Or.inr rfl⟩
    | succ e => exact ⟨_, Or.inl rfl⟩

/-- Alice's epochs hang on the even roots, Bob's on the odd ones or on another label. -/
theorem chainOf_inj {root0 : C.Key} (h0 : IsInit P root0) {secret secret' : ℕ → C.SS} {p p' : Side} {e e' : ℕ}
    (h : chainOf P root0 secret p e = chainOf P root0 secret' p' e') : p = p' ∧ e = e' := by
  have hroot : ∀ {i j}, sendChain P (rootAt P root0 secret i) = sendChain P (rootAt P root0 secret' j) → i = j :=
    fun hij => rootAt_inj hk h0 (sendChain_inj hk hij)
  cases p with
  | alice =>
    cases p' with
    | alice =>
      have := hroot h
      simp only [stepIndex] at this
      exact ⟨rfl, by omega⟩
    | bob =>
      cases e' with
      | zero => exact absurd h (sendChain_ne_recvChain hk _ _)
      | succ e' =>
        have := hroot h
        simp only [stepIndex] at this
        omega
  | bob =>
    cases e with
    | zero =>
      cases p' with
      | alice => exact absurd h.symm (sendChain_ne_recvChain hk _ _)
      | bob =>
        cases e' with
        | zero => exact ⟨rfl, rfl⟩
        | succ e' => exact absurd h.symm (sendChain_ne_recvChain hk _ _)
    | succ e =>
      cases p' with
      | alice =>
        have := hroot h
        simp only [stepIndex] at this
        omega
      | bob =>
        cases e' with
        | zero => exact absurd h (sendChain_ne_recvChain hk _ _)
        | succ e' =>
          have := hroot h
          simp only [stepIndex] at this
          exact ⟨rfl, by omega⟩

end Chains

end ScatterWeb.Ratchet
