import ScatterWeb.Crypto.Symbolic
import ScatterWeb.Keystore.Model

/-! # The nonces of the keystore file

`write_to_disk` takes the nonce from the file that the write before it has left, plus one. As long as each write leaves the
twelve bytes of its nonce, the nonces of a run are consecutive numbers, and differ up to 2^96 of them, whatever the
keys are. A write that leaves less, or a file that cannot be opened after the database was encrypted, turns the counter
back. -/
namespace ScatterWeb.Keystore
open Crypto Lib
set_option autoImplicit false

section Steps
variable {Db : Type} (V : Vault Db) (s : State Db)

/-- The number that the first twelve bytes of the file stand for. -/
def fileNonce : ℕ :=
  match s.file with
  | none => 0
  | some bytes => ofBe (fit 12 bytes).toList

theorem ofBe_nextNonce : ofBe (nextNonce s).toList = (fileNonce s + 1) % 256 ^ 12 := by
  unfold nextNonce fileNonce
  cases s.file with
  | none => rfl
  | some bytes =>
    have h := ofBe_increment (fit 12 bytes).toList
    rw [List.Vector.toList_length] at h
    exact h

theorem nextNonce_congr {s s' : State Db} (h : s'.file = s.file) : nextNonce s' = nextNonce s := by
  unfold nextNonce
  rw [h]

/-- The file that the event would write. -/
def Event.write? : Event Db → Option Write
  | .unlock env _ => some env.keystore
  | .save env => some env.keystore
  | .lock env => some env.keystore
  | .changePassphrase env _ _ => some env.keystore
  | .edit _ => none
  | .restart => none

/-- The event leaves the file and encrypts nothing, or encrypts under the next nonce and writes the file. -/
def WritesAtMost (s : State Db) (w : Write) (r : Outcome Db) : Prop :=
  (r.encrypted = [] ∧ r.state.file = s.file) ∨ ∃ mk plaintext, r.encrypted = [(mk, nextNonce s)] ∧
    r.state.file = (w.content (encodeFile V mk (nextNonce s) plaintext)).or s.file

variable {V s}

theorem file_deriveKey {e : SaltEnv} {passphrase : Bytes} {s' : State Db} {r : Except KeystoreError Key32}
    (h : deriveKey V s e passphrase = (s', r)) : s'.file = s.file := by
  unfold deriveKey at h
  split at h
  · cases h
    rfl
  · split at h
    · cases h
      rfl
    · cases h
      rfl

theorem writesAtMost_writeToDisk {s' : State Db} (hfile : s'.file = s.file) (env : Env) (db : Db) (mk : Key32) :
    WritesAtMost V s env.keystore (writeToDisk V env s' db mk) := by
  refine Or.inr ⟨mk, V.sqlite.serialize db, ?_⟩
  unfold writeToDisk
  rw [nextNonce_congr hfile]
  cases env.keystore.content (encodeFile V mk (nextNonce s) (V.sqlite.serialize db)) with
  | none => exact ⟨rfl, hfile⟩
  | some bytes => exact ⟨rfl, rfl⟩

/-- What is done after the write does not touch the file. -/
theorem WritesAtMost.congr {w : Write} {r r' : Outcome Db} (h : WritesAtMost V s w r) (henc : r'.encrypted = r.encrypted)
    (hfile : r'.state.file = r.state.file) : WritesAtMost V s w r' := by
  unfold WritesAtMost
  rw [henc, hfile]
  exact h

theorem writesAtMost_loadFromDisk {s' : State Db} (hfile : s'.file = s.file) (env : Env) (mk : Key32) :
    WritesAtMost V s env.keystore (loadFromDisk V env s' mk) := by
  unfold loadFromDisk
  split
  · have hfile' : ({ s' with db := some V.sqlite.create } : State Db).file = s.file := hfile
    exact writesAtMost_writeToDisk hfile' env _ mk
  · split
    · exact Or.inl ⟨rfl, hfile⟩
    · exact Or.inl ⟨rfl, hfile⟩

theorem writesAtMost_unlock (env : Env) (passphrase : Bytes) : WritesAtMost V s env.keystore (unlock V env s passphrase) := by
  unfold unlock
  split
  · exact Or.inl ⟨rfl, rfl⟩
  · split
    · rename_i s' e hkey
      exact Or.inl ⟨rfl, file_deriveKey hkey⟩
    · rename_i s' mk hkey
      have hload := writesAtMost_loadFromDisk (V := V) (file_deriveKey hkey) env mk
      dsimp only
      split
      · exact hload
      · exact hload.congr rfl rfl

theorem writesAtMost_save (env : Env) : WritesAtMost V s env.keystore (save V env s) := by
  unfold save
  split
  · exact Or.inl ⟨rfl, rfl⟩
  · split
    · exact writesAtMost_writeToDisk rfl env _ _
    · exact Or.inl ⟨rfl, rfl⟩

theorem writesAtMost_lock (env : Env) : WritesAtMost V s env.keystore (lock V env s) := by
  unfold lock
  split
  · dsimp only
    split
    · exact writesAtMost_save env
    · exact (writesAtMost_save env).congr rfl rfl
  · exact Or.inl ⟨rfl, rfl⟩

theorem writesAtMost_changePassphrase (env : Env) (oldPass newPass : Bytes) :
    WritesAtMost V s env.keystore (changePassphrase V env s oldPass newPass) := by
  unfold changePassphrase
  split
  · exact Or.inl ⟨rfl, rfl⟩
  · split
    · rename_i s' e hkey
      exact Or.inl ⟨rfl, file_deriveKey hkey⟩
    · rename_i s' oldMk hkey
      have hold : s'.file = s.file := file_deriveKey hkey
      split
      · exact Or.inl ⟨rfl, hold⟩
      · split
        · rename_i s'' e hkey'
          have hfile := file_deriveKey hkey'
          exact Or.inl ⟨rfl, hfile.trans hold⟩
        · rename_i s'' newMk hkey'
          have hfile := file_deriveKey hkey'
          have hwrite := writesAtMost_writeToDisk (V := V) (hfile.trans hold) env
          dsimp only
          split
          · exact hwrite _ newMk
          · exact (hwrite _ newMk).congr rfl rfl

/-- What a step can do to the file. -/
theorem step_file (V : Vault Db) (s : State Db) (e : Event Db) : ((step V s e).encrypted = [] ∧ (next V s e).file = s.file) ∨
    ∃ w, e.write? = some w ∧ WritesAtMost V s w (step V s e) := by
  cases e with
  | unlock env passphrase => exact Or.inr ⟨_, rfl, writesAtMost_unlock env passphrase⟩
  | save env => exact Or.inr ⟨_, rfl, writesAtMost_save env⟩
  | lock env => exact Or.inr ⟨_, rfl, writesAtMost_lock env⟩
  | changePassphrase env oldPass newPass => exact Or.inr ⟨_, rfl, writesAtMost_changePassphrase env oldPass newPass⟩
  | edit f => exact Or.inl ⟨rfl, rfl⟩
  | restart => exact Or.inl ⟨rfl, rfl⟩

end Steps

/-! ## Runs -/

section Runs
variable {Db : Type} (V : Vault Db)

/-- What `write_to_disk` encrypts with in the course of a run. -/
def encryptions : State Db → List (Event Db) → List (Key32 × AesNonce)
  | _, [] => []
  | s, e :: es => (step V s e).encrypted ++ encryptions (next V s e) es

/-- The file is opened, and at least the nonce is written. -/
def Write.KeepsNonce : Write → Prop
  | .fails => False
  | .cut n => 12 ≤ n
  | .whole => True

def KeepsNonce (e : Event Db) : Prop := ∀ w, e.write? = some w → w.KeepsNonce

variable {V} {s : State Db} {es : List (Event Db)}

theorem take_encodeFile (mk : Key32) (nonce : AesNonce) (plaintext : Bytes) {n : ℕ} (hn : 12 ≤ n) :
    fit 12 ((encodeFile V mk nonce plaintext).take n) = nonce := by
  have hlen : nonce.toList.length ≤ n := by
    rw [List.Vector.toList_length]
    exact hn
  unfold encodeFile
  rw [List.take_append, List.take_of_length_le hlen]
  exact fit_append nonce _

/-- A write that keeps the nonce counts the file on. -/
theorem fileNonce_of_keepsNonce {w : Write} {r : Outcome Db} (hw : w.KeepsNonce) {mk : Key32} {plaintext : Bytes}
    (hfile : r.state.file = (w.content (encodeFile V mk (nextNonce s) plaintext)).or s.file) :
    fileNonce r.state = (fileNonce s + 1) % 256 ^ 12 := by
  rw [← ofBe_nextNonce]
  unfold fileNonce
  rw [hfile]
  cases w with
  | fails => exact absurd hw id
  | cut n =>
    rw [Write.content, Option.some_or]
    dsimp only
    rw [take_encodeFile mk (nextNonce s) plaintext hw]
  | whole =>
    rw [Write.content, Option.some_or]
    dsimp only
    unfold encodeFile
    rw [fit_append]

/-- What one step does to the counter: it encrypts nothing and keeps it, or uses the next number and keeps that. -/
theorem step_nonce (e : Event Db) (hkeeps : KeepsNonce e) :
    ((step V s e).encrypted = [] ∧ fileNonce (next V s e) = fileNonce s) ∨
      ∃ mk, (step V s e).encrypted = [(mk, nextNonce s)] ∧ fileNonce (next V s e) = (fileNonce s + 1) % 256 ^ 12 := by
  have hsame : ∀ s' : State Db, s'.file = s.file → fileNonce s' = fileNonce s := by
    intro s' h
    unfold fileNonce
    rw [h]
  rcases step_file V s e with ⟨hnone, hfile⟩ | ⟨w, hw, ⟨hnone, hfile⟩ | ⟨mk, plaintext, henc, hfile⟩⟩
  · exact Or.inl ⟨hnone, hsame _ hfile⟩
  · exact Or.inl ⟨hnone, hsame _ hfile⟩
  · exact Or.inr ⟨mk, henc, fileNonce_of_keepsNonce (hkeeps w hw) hfile⟩

/-- What a whole run does: the nonces are consecutive. -/
theorem nonce_of_mem_encryptions (h : Along (next V) (fun _ e => KeepsNonce e) s es) {i : ℕ} {x : Key32 × AesNonce}
    (hx : (encryptions V s es)[i]? = some x) : ofBe x.2.toList = (fileNonce s + i + 1) % 256 ^ 12 := by
  induction es generalizing s i with
  | nil => simp [encryptions] at hx
  | cons e es ih =>
    obtain ⟨hkeeps, hrest⟩ := h
    rw [encryptions] at hx
    rcases step_nonce (V := V) (s := s) e hkeeps with ⟨hnone, hsame⟩ | ⟨mk, hone, hnext⟩
    · rw [hnone, List.nil_append] at hx
      rw [ih hrest hx, hsame]
    · rw [hone, List.singleton_append] at hx
      cases i with
      | zero =>
        rw [List.getElem?_cons_zero] at hx
        cases hx
        exact ofBe_nextNonce s
      | succ i =>
        rw [List.getElem?_cons_succ] at hx
        rw [ih hrest hx, hnext]
        omega

/-- In every run of fewer than 2^96 writes, each of which leaves its nonce in the file, no key is used twice with a nonce. -/
theorem encryptions_nodup_of_keepsNonce (V : Vault Db) (s : State Db) {es : List (Event Db)}
    (h : Along (next V) (fun _ e => KeepsNonce e) s es) (hlen : (encryptions V s es).length < 2 ^ 96) :
    (encryptions V s es).Nodup := by
  rw [List.nodup_iff_getElem?_ne_getElem?]
  intro i j hij hj heq
  have hi : i < (encryptions V s es).length := lt_trans hij hj
  have hxi := nonce_of_mem_encryptions h (List.getElem?_eq_getElem hi)
  have hxj := nonce_of_mem_encryptions h (heq.symm.trans (List.getElem?_eq_getElem hi))
  rw [hxi] at hxj
  omega

end Runs

/-! ## A small vault -/

/-- The key is the sum of the bytes of the passphrase and the salt, and a database is its file. -/
def smallVault : Vault Bytes where
  argon2id passphrase salt := fit 32 [(passphrase ++ salt.toList).foldl (fun acc b => acc + b) 0]
  aes := checksumAes
  sqlite := ⟨[], id, some⟩

def onDisk (w : Write) : Env := ⟨⟨fit 16 [1], .whole⟩, ⟨fit 16 [2], .whole⟩, w⟩

theorem encryptions_nodup_of_keepsNonce_whole :
    (encryptions smallVault {} [.unlock (onDisk .whole) [1], .save (onDisk (.cut 12)), .lock (onDisk .whole)]).Nodup := by
  refine encryptions_nodup_of_keepsNonce smallVault {} ⟨?_, ?_, ?_, trivial⟩ (by decide)
  · rintro w ⟨⟩
    exact trivial
  · rintro w ⟨⟩
    exact le_refl 12
  · rintro w ⟨⟩
    exact trivial

/-- The second of three writes leaves an empty file, and the third has the nonce of the first. -/
theorem not_encryptions_nodup_cut : ¬ ∀ es : List (Event Bytes), (∀ e ∈ es, ∀ w, e.write? = some w → w ≠ .fails) →
    (encryptions smallVault {} es).length < 2 ^ 96 → (encryptions smallVault {} es).Nodup := by
  intro h
  have hnodup := h [.unlock (onDisk .whole) [1], .save (onDisk (.cut 0)), .save (onDisk .whole)] (by
    intro e he w hw
    simp only [List.mem_cons, List.not_mem_nil, or_false] at he
    rcases he with rfl | rfl | rfl
    · cases hw
      decide
    · cases hw
      decide
    · cases hw
      decide) (by decide)
  exact absurd hnodup (by decide)

end ScatterWeb.Keystore
