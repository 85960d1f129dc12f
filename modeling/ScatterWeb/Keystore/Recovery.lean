import ScatterWeb.Keystore.Nonces

/-! # What a new process can read

The passphrase in force is that of the first call of `unlock` that returned, or of the last call of `change_passphrase` that
did. A run is followed together with it and with the database of the last write that was completed. `change_passphrase`
removes the salt before it has written anything else, and the first launch puts the database into place before the file is
written; if neither meets a file that cannot be opened, the passphrase always opens the last database. -/
namespace ScatterWeb.Keystore
open Crypto Lib
set_option autoImplicit false

/-- Encryption and serialization are undone, and the file of one derived key is opened by no other. -/
structure Vault.Sound {Db : Type} (V : Vault Db) : Prop where
  aes : V.aes.Correct
  reload : ∀ db, V.sqlite.deserialize (V.sqlite.serialize db) = some db
  authentic : ∀ p salt p' salt' nonce plaintext plaintext',
    V.aes.decrypt (V.argon2id p' salt') nonce (V.aes.encrypt (V.argon2id p salt) nonce plaintext []).1
      (V.aes.encrypt (V.argon2id p salt) nonce plaintext []).2 [] = some plaintext' → V.argon2id p' salt' = V.argon2id p salt

section Files
variable {Db : Type} {V : Vault Db}

theorem slices_encodeFile (mk : Key32) (nonce : AesNonce) (plaintext : Bytes) :
    slice 0 12 (encodeFile V mk nonce plaintext) = nonce ∧
      slice 12 16 (encodeFile V mk nonce plaintext) = (V.aes.encrypt mk nonce plaintext []).2 ∧
      (encodeFile V mk nonce plaintext).drop 28 = (V.aes.encrypt mk nonce plaintext []).1 ∧
      ¬(encodeFile V mk nonce plaintext).length < 28 := by
  unfold encodeFile
  refine ⟨fit_append nonce _, slice_append nonce.toList_length _ _, ?_, ?_⟩
  · dsimp only
    rw [← List.append_assoc]
    exact List.drop_left' (by rw [List.length_append, List.Vector.toList_length, List.Vector.toList_length])
  · simp only [List.length_append, List.Vector.toList_length]
    omega

theorem decodeFile_encodeFile (hV : V.Sound) (mk : Key32) (nonce : AesNonce) (db : Db) :
    decodeFile V mk (encodeFile V mk nonce (V.sqlite.serialize db)) = .ok db := by
  obtain ⟨hnonce, htag, hct, hlen⟩ := slices_encodeFile (V := V) mk nonce (V.sqlite.serialize db)
  unfold decodeFile
  rw [if_neg hlen, hnonce, htag, hct, hV.aes.decrypt_encrypt]
  dsimp only
  rw [hV.reload]

/-- A passphrase that opens the file derives its key. -/
theorem key_of_decodeFile (hV : V.Sound) {p p' : Bytes} {salt salt' : ByteArr 16} {nonce : AesNonce} {plaintext : Bytes} {db : Db}
    (h : decodeFile V (V.argon2id p' salt') (encodeFile V (V.argon2id p salt) nonce plaintext) = .ok db) :
    V.argon2id p' salt' = V.argon2id p salt := by
  obtain ⟨hnonce, htag, hct, hlen⟩ := slices_encodeFile (V := V) (V.argon2id p salt) nonce plaintext
  unfold decodeFile at h
  rw [if_neg hlen, hnonce, htag, hct] at h
  cases hdec : V.aes.decrypt (V.argon2id p' salt') nonce (V.aes.encrypt (V.argon2id p salt) nonce plaintext []).1
      (V.aes.encrypt (V.argon2id p salt) nonce plaintext []).2 [] with
  | none =>
    rw [hdec] at h
    cases h
  | some plaintext' => exact hV.authentic p salt p' salt' nonce plaintext plaintext' hdec

end Files

/-! ## Following a run -/

structure Tracked (Db : Type) where
  state : State Db := {}
  passphrase : Option Bytes := none
  written : Option Db := none

/-- What the keystore is for: a database in memory, and the one that a new process would read. -/
structure Cell (Db : Type) where
  mem : Option Db
  disk : Option Db

/-- A call does this to the cell or, if it throws, nothing. -/
def CellStep {Db : Type} (create : Db) : Event Db → Cell Db → Cell Db → Prop
  | .unlock _ _, c, c' => c' = c ∨ (c.mem = none ∧ c' = ⟨some (c.disk.getD create), some (c.disk.getD create)⟩)
  | .save _, c, c' => c' = c ∨ ∃ db, c.mem = some db ∧ c' = ⟨some db, some db⟩
  | .lock _, c, c' => c' = c ∨ ∃ db, c.mem = some db ∧ c' = ⟨none, some db⟩
  | .changePassphrase _ _ _, c, c' => c' = c ∨ ∃ db, c.mem = some db ∧ c' = ⟨some db, some db⟩
  | .edit f, c, c' => c' = ⟨c.mem.map f, c.disk⟩
  | .restart, c, c' => c' = ⟨none, c.disk⟩

def Tracked.cell {Db : Type} (t : Tracked Db) : Cell Db := ⟨t.state.db, t.written⟩

/-- The database in memory, or the one that would be if the keystore were unlocked. -/
def Cell.current {Db : Type} (create : Db) (c : Cell Db) : Db := c.mem.getD (c.disk.getD create)

/-- The calls of the keystore itself. -/
def Event.IsCall {Db : Type} : Event Db → Prop
  | .edit _ => False
  | .restart => False
  | _ => True

/-- Locking and unlocking does not change the current database, and only that is ever written. -/
theorem CellStep.current_eq {Db : Type} {create : Db} {e : Event Db} {c c' : Cell Db} (h : CellStep create e c c') (he : e.IsCall) :
    c'.current create = c.current create ∧ (c'.disk = c.disk ∨ c'.disk = some (c.current create)) := by
  have hsame : c' = c → c'.current create = c.current create ∧ (c'.disk = c.disk ∨ c'.disk = some (c.current create)) := by
    rintro rfl
    exact ⟨rfl, Or.inl rfl⟩
  obtain ⟨mem, disk⟩ := c
  cases e with
  | unlock env p =>
    rcases h with h | ⟨hmem, rfl⟩
    · exact hsame h
    · cases hmem
      exact ⟨rfl, Or.inr rfl⟩
  | save env =>
    rcases h with h | ⟨db, hmem, rfl⟩
    · exact hsame h
    · cases hmem
      exact ⟨rfl, Or.inr rfl⟩
  | lock env =>
    rcases h with h | ⟨db, hmem, rfl⟩
    · exact hsame h
    · cases hmem
      exact ⟨rfl, Or.inr rfl⟩
  | changePassphrase env oldPass newPass =>
    rcases h with h | ⟨db, hmem, rfl⟩
    · exact hsame h
    · cases hmem
      exact ⟨rfl, Or.inr rfl⟩
  | edit f => exact absurd he id
  | restart => exact absurd he id

section Runs
variable {Db : Type} (V : Vault Db)

/-- The passphrase in force after a call that returned. -/
def inForce (old : Option Bytes) : Event Db → Option Bytes
  | .unlock _ passphrase => old.or (some passphrase)
  | .changePassphrase _ _ newPass => some newPass
  | _ => old

def track (t : Tracked Db) (e : Event Db) : Tracked Db where
  state := next V t.state e
  passphrase :=
    match (step V t.state e).result with
    | .ok () => inForce t.passphrase e
    | .error _ => t.passphrase
  written := (step V t.state e).written.or t.written

/-- A new process can unlock with the passphrase in force, and has the database that was written last. -/
def Recoverable (t : Tracked Db) : Prop :=
  ∀ p, t.passphrase = some p → ∃ db, t.written = some db ∧ ∀ env,
    (unlock V env t.state.restart p).result = .ok () ∧ (unlock V env t.state.restart p).state.db = some db

/-- A call that throws leaves the keystore locked or unlocked as it was, and what was written stays within reach. -/
def FailsSafely (t : Tracked Db) (e : Event Db) : Prop :=
  (∀ err, (step V t.state e).result = .error err → (next V t.state e).isUnlocked = t.state.isUnlocked) ∧
    Recoverable V (track V t e)

/-- Writes do not stop half way; it is only that files cannot be opened. -/
def Uncut : Event Db → Prop
  | .unlock env _ => (∀ n, env.salt.write ≠ .cut n) ∧ ∀ n, env.keystore ≠ .cut n
  | .save env => ∀ n, env.keystore ≠ .cut n
  | .lock env => ∀ n, env.keystore ≠ .cut n
  | .changePassphrase env _ _ =>
    (∀ n, env.salt.write ≠ .cut n) ∧ (∀ n, env.newSalt.write ≠ .cut n) ∧ ∀ n, env.keystore ≠ .cut n
  | .edit _ => True
  | .restart => True

/-- The file of the first launch cannot be opened, or a file that is needed after the old salt was removed. -/
def LosesTrack (s : State Db) : Event Db → Prop
  | .unlock env _ => s.db = none ∧ s.file = none ∧ (s.salt = none → env.salt.write ≠ .fails) ∧ env.keystore = .fails
  | .changePassphrase env oldPass _ => s.db ≠ none ∧ (∃ salt, s.salt = some salt ∧ V.argon2id oldPass (fit 16 salt) = s.masterKey) ∧
    (env.newSalt.write = .fails ∨ env.keystore = .fails)
  | _ => False

/-- Nothing is written yet, or the file is that of the passphrase in force and the database that was written last. -/
inductive Intact (t : Tracked Db) : Prop
  | empty (hfile : t.state.file = none) (hdb : t.state.db = none) (hpass : t.passphrase = none) (hwritten : t.written = none)
  | stored {salt : Bytes} {p : Bytes} {db : Db} {nonce : AesNonce} (hsalt : t.state.salt = some salt)
      (hfile : t.state.file = some (encodeFile V (V.argon2id p (fit 16 salt)) nonce (V.sqlite.serialize db)))
      (hpass : t.passphrase = some p) (hwritten : t.written = some db)
      (hkey : t.state.db ≠ none → t.state.masterKey = V.argon2id p (fit 16 salt) ∧ t.state.haveMasterKey = true)

variable {V} {t : Tracked Db}

/-! ## What the calls do -/

variable {s : State Db} {env : Env}

theorem isUnlocked_eq_false (h : s.db = none) : s.isUnlocked = false := by
  unfold State.isUnlocked
  rw [h]
  rfl

theorem isUnlocked_eq_true {db : Db} (h : s.db = some db) : s.isUnlocked = true := by
  unfold State.isUnlocked
  rw [h]
  rfl

theorem deriveKey_of_salt {salt : Bytes} (h : s.salt = some salt) (e : SaltEnv) (p : Bytes) :
    deriveKey V s e p = (s, .ok (V.argon2id p (fit 16 salt))) := by
  unfold deriveKey
  rw [h]

/-- With both files there, `unlock` writes nothing. -/
theorem unlock_of_file (env : Env) {salt bytes : Bytes} (p : Bytes) (hdb : s.db = none) (hsalt : s.salt = some salt) (hfile : s.file = some bytes) :
    unlock V env s p =
      match decodeFile V (V.argon2id p (fit 16 salt)) bytes with
      | .error e => ⟨s, [], none, .error e⟩
      | .ok db => ⟨⟨s.salt, s.file, some db, V.argon2id p (fit 16 salt), true⟩, [], none, .ok ()⟩ := by
  unfold unlock
  rw [isUnlocked_eq_false hdb, deriveKey_of_salt hsalt]
  simp only [Bool.false_eq_true, if_false]
  unfold loadFromDisk
  rw [hfile]
  dsimp only
  cases decodeFile V (V.argon2id p (fit 16 salt)) bytes with
  | error e => rfl
  | ok db => rfl

theorem recoverable_of_intact (hV : V.Sound) (h : Intact V t) : Recoverable V t := by
  intro p hp
  cases h with
  | empty _ _ hpass _ =>
    rw [hpass] at hp
    cases hp
  | @stored salt p' db nonce hsalt hfile hpass hwritten _ =>
    rw [hpass] at hp
    cases hp
    refine ⟨db, hwritten, ?_⟩
    intro env
    have hunlock := unlock_of_file (V := V) (s := t.state.restart) env p rfl hsalt hfile
    rw [decodeFile_encodeFile hV] at hunlock
    rw [hunlock]
    exact ⟨rfl, rfl⟩

/-- A write under the key of a passphrase makes that the file of the passphrase, or changes nothing. -/
theorem writeToDisk_uncut (s : State Db) (db : Db) (mk : Key32) (huncut : ∀ n, env.keystore ≠ .cut n) :
    (env.keystore = .fails ∧ writeToDisk V env s db mk = ⟨s, [(mk, nextNonce s)], none, .error .cannotWriteKeystore⟩) ∨
      (env.keystore = .whole ∧ writeToDisk V env s db mk =
        ⟨{ s with file := some (encodeFile V mk (nextNonce s) (V.sqlite.serialize db)) }, [(mk, nextNonce s)], some db, .ok ()⟩) := by
  unfold writeToDisk
  cases hw : env.keystore with
  | fails => exact Or.inl ⟨rfl, rfl⟩
  | cut n => exact absurd hw (huncut n)
  | whole => exact Or.inr ⟨rfl, rfl⟩

/-- The salt cannot be written, or it is in the file afterwards. -/
theorem deriveKey_uncut {e : SaltEnv} (huncut : ∀ n, e.write ≠ .cut n) (p : Bytes) :
    (s.salt = none ∧ e.write = .fails ∧ deriveKey V s e p = (s, .error .cannotWriteSalt)) ∨
      ∃ salt, (s.salt = none → e.write ≠ .fails) ∧
        deriveKey V s e p = ({ s with salt := some salt }, .ok (V.argon2id p (fit 16 salt))) := by
  cases hsalt : s.salt with
  | some salt =>
    refine Or.inr ⟨salt, fun h => absurd h (Option.some_ne_none _), ?_⟩
    rw [deriveKey_of_salt hsalt, ← hsalt]
  | none =>
    unfold deriveKey
    rw [hsalt]
    cases hw : e.write with
    | fails => exact Or.inl ⟨rfl, rfl, rfl⟩
    | cut n => exact absurd hw (huncut n)
    | whole =>
      refine Or.inr ⟨e.newSalt.toList, ?_, ?_⟩
      · intro _ h
        cases h
      · rw [fit_toList]
        rfl

/-! ## Steps -/

/-- What a step keeps: it fails with the keystore as locked as before, the files stay in order, and the cell takes a step. -/
structure Keeps (V : Vault Db) (t : Tracked Db) (e : Event Db) : Prop where
  locked : ∀ err, (step V t.state e).result = .error err → (next V t.state e).isUnlocked = t.state.isUnlocked
  intact : Intact V (track V t e)
  cell : CellStep V.sqlite.create e t.cell (track V t e).cell

/-- A call that throws and changes nothing. -/
theorem keeps_of_error {e : Event Db} {err : KeystoreError} {encrypted : List (Key32 × AesNonce)} (h : Intact V t)
    (hstep : step V t.state e = ⟨t.state, encrypted, none, .error err⟩) (hcell : CellStep V.sqlite.create e t.cell t.cell) :
    Keeps V t e := by
  have htrack : track V t e = t := by
    unfold track next
    rw [hstep]
    rfl
  refine ⟨?_, htrack.symm ▸ h, htrack.symm ▸ hcell⟩
  intro _ _
  unfold next
  rw [hstep]

theorem keeps_of_ok {e : Event Db} {s' : State Db} {encrypted : List (Key32 × AesNonce)} {written : Option Db}
    (hstep : step V t.state e = ⟨s', encrypted, written, .ok ()⟩) (h : Intact V ⟨s', inForce t.passphrase e, written.or t.written⟩)
    (hcell : CellStep V.sqlite.create e t.cell ⟨s'.db, written.or t.written⟩) : Keeps V t e := by
  have htrack : track V t e = ⟨s', inForce t.passphrase e, written.or t.written⟩ := by
    unfold track next
    rw [hstep]
  refine ⟨?_, htrack.symm ▸ h, htrack.symm ▸ hcell⟩
  intro err herr
  rw [hstep] at herr
  cases herr

theorem keeps_unlock_empty (hfile : t.state.file = none) (hdb : t.state.db = none) (hpass : t.passphrase = none)
    (hwritten : t.written = none) {p : Bytes}
    (huncut : Uncut (Event.unlock env p : Event Db)) (hfree : ¬LosesTrack V t.state (.unlock env p)) : Keeps V t (.unlock env p) := by
  have hunlock : step V t.state (.unlock env p) = unlock V env t.state p := rfl
  unfold unlock at hunlock
  rw [isUnlocked_eq_false hdb] at hunlock
  rcases deriveKey_uncut (V := V) (s := t.state) huncut.1 p with ⟨_, _, hkey⟩ | ⟨salt, hopens, hkey⟩
  · rw [hkey] at hunlock
    exact keeps_of_error (.empty hfile hdb hpass hwritten) hunlock (Or.inl rfl)
  · rw [hkey] at hunlock
    dsimp only at hunlock
    unfold loadFromDisk at hunlock
    dsimp only at hunlock
    rw [hfile] at hunlock
    dsimp only at hunlock
    rcases writeToDisk_uncut (V := V) ⟨some salt, none, some V.sqlite.create, t.state.masterKey, t.state.haveMasterKey⟩
      V.sqlite.create (V.argon2id p (fit 16 salt)) huncut.2 with ⟨hfails, _⟩ | ⟨_, hwrite⟩
    · exact absurd ⟨hdb, hfile, hopens, hfails⟩ hfree
    · rw [hwrite] at hunlock
      have hforce : inForce t.passphrase (.unlock env p : Event Db) = some p := by
        rw [hpass]
        rfl
      have hdisk : t.cell.disk.getD V.sqlite.create = V.sqlite.create := by
        show t.written.getD V.sqlite.create = V.sqlite.create
        rw [hwritten, Option.getD_none]
      refine keeps_of_ok hunlock (.stored rfl rfl hforce rfl (fun _ => ⟨rfl, rfl⟩)) (Or.inr ⟨hdb, ?_⟩)
      rw [hdisk]
      rfl

theorem keeps_unlock (hV : V.Sound) (h : Intact V t) {p : Bytes} (huncut : Uncut (Event.unlock env p : Event Db))
    (hfree : ¬LosesTrack V t.state (.unlock env p)) : Keeps V t (.unlock env p) := by
  cases h with
  | empty hfile hdb hpass hwritten => exact keeps_unlock_empty hfile hdb hpass hwritten huncut hfree
  | @stored salt p' db nonce hsalt hfile hpass hwritten hkey =>
    have hintact : Intact V t := .stored hsalt hfile hpass hwritten hkey
    cases hdb : t.state.db with
    | some _ =>
      have hunlock : step V t.state (.unlock env p) = unlock V env t.state p := rfl
      unfold unlock at hunlock
      rw [isUnlocked_eq_true hdb] at hunlock
      exact keeps_of_error hintact hunlock (Or.inl rfl)
    | none =>
      have hunlock : step V t.state (.unlock env p) = _ := unlock_of_file env p hdb hsalt hfile
      cases hdec : decodeFile V (V.argon2id p (fit 16 salt))
          (encodeFile V (V.argon2id p' (fit 16 salt)) nonce (V.sqlite.serialize db)) with
      | error e =>
        rw [hdec] at hunlock
        exact keeps_of_error hintact hunlock (Or.inl rfl)
      | ok db' =>
        rw [hdec] at hunlock
        have hmk := key_of_decodeFile hV hdec
        rw [hmk, decodeFile_encodeFile hV] at hdec
        cases hdec
        refine keeps_of_ok hunlock (.stored hsalt hfile ?_ hwritten (fun _ => ⟨hmk, rfl⟩)) (Or.inr ⟨hdb, ?_⟩)
        · rw [hpass]
          rfl
        · show (⟨some db, t.written⟩ : Cell Db) = ⟨some (t.written.getD V.sqlite.create), some (t.written.getD V.sqlite.create)⟩
          rw [hwritten, Option.getD_some]

/-- What `save` does when the keystore is unlocked. -/
theorem save_of_db (env : Env) {db : Db} {mk : Key32} (hdb : s.db = some db) (hkey : s.masterKey = mk ∧ s.haveMasterKey = true) :
    save V env s = writeToDisk V env s db mk := by
  unfold save
  rw [hdb, hkey.1, hkey.2]
  rfl

theorem keeps_save (h : Intact V t) (huncut : Uncut (Event.save env : Event Db)) : Keeps V t (.save env) := by
  cases hdb : t.state.db with
  | none =>
    have hsave : step V t.state (.save env) = save V env t.state := rfl
    unfold save at hsave
    rw [hdb] at hsave
    exact keeps_of_ok hsave h (Or.inl rfl)
  | some d =>
    cases h with
    | empty _ hnone _ _ => exact absurd (hdb.symm.trans hnone) (Option.some_ne_none _)
    | @stored salt p db nonce hsalt hfile hpass hwritten hkey =>
      have hmk := hkey (by rw [hdb]; exact Option.some_ne_none _)
      have hsave : step V t.state (.save env) = _ := save_of_db (V := V) env hdb hmk
      rcases writeToDisk_uncut (V := V) t.state d (V.argon2id p (fit 16 salt)) huncut with
        ⟨_, hwrite⟩ | ⟨_, hwrite⟩
      · exact keeps_of_error (.stored hsalt hfile hpass hwritten hkey) (hsave.trans hwrite) (Or.inl rfl)
      · have hcell : (⟨t.state.db, some d⟩ : Cell Db) = ⟨some d, some d⟩ := by rw [hdb]
        exact keeps_of_ok (hsave.trans hwrite) (.stored hsalt rfl hpass rfl hkey) (Or.inr ⟨d, hdb, hcell⟩)

theorem keeps_lock (h : Intact V t) (huncut : Uncut (Event.lock env : Event Db)) : Keeps V t (.lock env) := by
  have hlock : step V t.state (.lock env) = lock V env t.state := rfl
  unfold lock at hlock
  cases hdb : t.state.db with
  | none =>
    rw [isUnlocked_eq_false hdb] at hlock
    exact keeps_of_ok hlock h (Or.inl rfl)
  | some d =>
    rw [isUnlocked_eq_true hdb, if_pos rfl] at hlock
    cases h with
    | empty _ hnone _ _ => exact absurd (hdb.symm.trans hnone) (Option.some_ne_none _)
    | @stored salt p db nonce hsalt hfile hpass hwritten hkey =>
      have hmk := hkey (by rw [hdb]; exact Option.some_ne_none _)
      rw [save_of_db env hdb hmk] at hlock
      rcases writeToDisk_uncut (V := V) t.state d (V.argon2id p (fit 16 salt)) huncut with
        ⟨_, hwrite⟩ | ⟨_, hwrite⟩
      · rw [hwrite] at hlock
        exact keeps_of_error (.stored hsalt hfile hpass hwritten hkey) hlock (Or.inl rfl)
      · rw [hwrite] at hlock
        exact keeps_of_ok hlock (.stored hsalt rfl hpass rfl (fun hne => absurd rfl hne)) (Or.inr ⟨d, hdb, rfl⟩)

theorem keeps_changePassphrase (h : Intact V t) {oldPass newPass : Bytes}
    (huncut : Uncut (Event.changePassphrase env oldPass newPass : Event Db))
    (hfree : ¬LosesTrack V t.state (.changePassphrase env oldPass newPass)) :
    Keeps V t (.changePassphrase env oldPass newPass) := by
  have hchange : step V t.state (.changePassphrase env oldPass newPass) = changePassphrase V env t.state oldPass newPass := rfl
  unfold changePassphrase at hchange
  cases hdb : t.state.db with
  | none =>
    rw [hdb] at hchange
    exact keeps_of_error h hchange (Or.inl rfl)
  | some d =>
    cases h with
    | empty _ hnone _ _ => exact absurd (hdb.symm.trans hnone) (Option.some_ne_none _)
    | @stored salt p db nonce hsalt hfile hpass hwritten hkey =>
      have hsome : t.state.db ≠ none := by
        rw [hdb]
        exact Option.some_ne_none _
      rw [hdb, deriveKey_of_salt hsalt] at hchange
      dsimp only at hchange
      by_cases hold : V.argon2id oldPass (fit 16 salt) = t.state.masterKey
      · rw [if_neg (not_not_intro hold)] at hchange
        rcases deriveKey_uncut (V := V) (s := { t.state with salt := none }) huncut.2.1 newPass with
          ⟨_, hfails, _⟩ | ⟨salt', _, hnew⟩
        · exact absurd ⟨hsome, ⟨salt, hsalt, hold⟩, Or.inl hfails⟩ hfree
        · rw [hnew] at hchange
          dsimp only at hchange
          rcases writeToDisk_uncut (V := V) { t.state with salt := some salt' } d (V.argon2id newPass (fit 16 salt'))
            huncut.2.2 with ⟨hfails, _⟩ | ⟨_, hwrite⟩
          · exact absurd ⟨hsome, ⟨salt, hsalt, hold⟩, Or.inr hfails⟩ hfree
          · rw [hwrite] at hchange
            have hmk := hkey hsome
            have hcell : (⟨t.state.db, some d⟩ : Cell Db) = ⟨some d, some d⟩ := by rw [hdb]
            exact keeps_of_ok hchange (.stored rfl rfl rfl rfl (fun _ => ⟨rfl, hmk.2⟩)) (Or.inr ⟨d, hdb, hcell⟩)
      · rw [if_pos hold] at hchange
        exact keeps_of_error (.stored hsalt hfile hpass hwritten hkey) hchange (Or.inl rfl)

theorem keeps_edit (h : Intact V t) (f : Db → Db) : Keeps V t (.edit f) := by
  refine keeps_of_ok rfl ?_ rfl
  cases h with
  | empty hfile hdb hpass hwritten =>
    refine .empty hfile ?_ hpass hwritten
    show t.state.db.map f = none
    rw [hdb, Option.map_none]
  | stored hsalt hfile hpass hwritten hkey =>
    refine .stored hsalt hfile hpass hwritten ?_
    intro hsome
    refine hkey ?_
    intro hdb
    refine hsome ?_
    show t.state.db.map f = none
    rw [hdb, Option.map_none]

theorem keeps_restart (h : Intact V t) : Keeps V t .restart := by
  refine keeps_of_ok rfl ?_ rfl
  cases h with
  | empty hfile _ hpass hwritten => exact .empty hfile rfl hpass hwritten
  | stored hsalt hfile hpass hwritten _ => exact .stored hsalt hfile hpass hwritten (fun hne => absurd rfl hne)

theorem keeps_step (hV : V.Sound) (h : Intact V t) (e : Event Db) (huncut : Uncut e) (hfree : ¬LosesTrack V t.state e) :
    Keeps V t e := by
  cases e with
  | unlock env p => exact keeps_unlock hV h huncut hfree
  | save env => exact keeps_save h huncut
  | lock env => exact keeps_lock h huncut
  | changePassphrase env oldPass newPass => exact keeps_changePassphrase h huncut hfree
  | edit f => exact keeps_edit h f
  | restart => exact keeps_restart h

/-! ## Runs -/

/-- In every run in which files may not open, but none of those that `LosesTrack` names, each call that throws leaves the keystore
as locked as it was, and a new process can unlock with the passphrase in force and has the last database that was written. -/
theorem failsSafely_of_not_losesTrack (hV : V.Sound) {es : List (Event Db)}
    (h : Along (track V) (fun t e => Uncut e ∧ ¬LosesTrack V t.state e) {} es) : Along (track V) (FailsSafely V) {} es := by
  refine along_of_invariant (Intact V) ?_ (.empty rfl rfl rfl rfl) h
  rintro t e hintact ⟨huncut, hfree⟩
  obtain ⟨hlocked, hnext, _⟩ := keeps_step hV hintact e huncut hfree
  exact ⟨⟨hlocked, recoverable_of_intact hV hnext⟩, hnext⟩

end Runs

/-! ## The small vault -/

theorem checksum_step_injective {a b x : UInt8} (h : 31 * a + x = 31 * b + x) : a = b := by
  grind

theorem checksum_step_zero {a b : UInt8} (h : 31 * 0 + a = 31 * 0 + b) : a = b := by
  grind

theorem checksum_fold_injective {xs : Bytes} {a b : UInt8}
    (h : xs.foldl (fun acc x => 31 * acc + x) a = xs.foldl (fun acc x => 31 * acc + x) b) : a = b := by
  induction xs generalizing a b with
  | nil => exact h
  | cons x xs ih => exact checksum_step_injective (ih h)

/-- Keys that differ in the first byte only have different checksums. -/
theorem checksum_fit_injective {a b : UInt8} {n : ByteArr 12} {p ad : Bytes}
    (h : checksum (fit 32 [a]) n p ad = checksum (fit 32 [b]) n p ad) : a = b := by
  have hkey : ∀ c : UInt8, (fit 32 [c]).toList = c :: List.replicate 31 0 := fun _ => rfl
  have hhead := congrArg List.Vector.head h
  unfold checksum at hhead
  simp only [hkey, List.Vector.replicate_succ, List.Vector.head_cons, List.cons_append, List.foldl_cons] at hhead
  exact checksum_step_zero (checksum_fold_injective hhead)

theorem smallVault_authentic (p : Bytes) (salt : ByteArr 16) (p' : Bytes) (salt' : ByteArr 16) (nonce : AesNonce)
    (plaintext plaintext' : Bytes)
    (h : checksumAes.decrypt (smallVault.argon2id p' salt') nonce (checksumAes.encrypt (smallVault.argon2id p salt) nonce plaintext []).1
      (checksumAes.encrypt (smallVault.argon2id p salt) nonce plaintext []).2 [] = some plaintext') :
    smallVault.argon2id p' salt' = smallVault.argon2id p salt := by
  have hdec : (if checksum (smallVault.argon2id p salt) nonce plaintext [] = checksum (smallVault.argon2id p' salt') nonce plaintext []
    then some plaintext else none) = some plaintext' := h
  split at hdec
  · rename_i hsum
    unfold smallVault
    dsimp only
    rw [checksum_fit_injective hsum]
  · cases hdec

theorem smallVault_sound : smallVault.Sound where
  aes := checksumAes_correct
  reload _ := rfl
  authentic := smallVault_authentic

theorem uncut_of_onDisk {w : Write} (hw : ∀ n, w ≠ .cut n) (p p' : Bytes) :
    Uncut (Event.unlock (onDisk w) p : Event Bytes) ∧ Uncut (Event.changePassphrase (onDisk w) p p' : Event Bytes) := by
  have hsalt : ∀ n, Write.whole ≠ .cut n := by
    intro n h
    cases h
  exact ⟨⟨hsalt, hw⟩, hsalt, hsalt, hw⟩

theorem fails_ne_cut (n : ℕ) : Write.fails ≠ .cut n := by
  intro h
  cases h

theorem whole_ne_cut (n : ℕ) : Write.whole ≠ .cut n := by
  intro h
  cases h

theorem failsSafely_of_not_losesTrack_offline : Along (track smallVault) (FailsSafely smallVault) {}
    [.unlock (onDisk .whole) [1], .edit (fun _ => [7]), .save (onDisk .fails), .changePassphrase (onDisk .whole) [1] [2], .restart,
      .unlock (onDisk .fails) [1], .unlock (onDisk .fails) [2], .changePassphrase (onDisk .fails) [1] [3], .lock (onDisk .whole)] := by
  refine failsSafely_of_not_losesTrack smallVault_sound ⟨⟨?_, ?_⟩, ⟨trivial, id⟩, ⟨?_, id⟩, ⟨?_, ?_⟩, ⟨trivial, id⟩, ⟨?_, ?_⟩, ⟨?_, ?_⟩,
    ⟨?_, ?_⟩, ⟨?_, id⟩, trivial⟩
  · exact (uncut_of_onDisk whole_ne_cut [1] [1]).1
  · rintro ⟨_, _, _, h⟩
    cases h
  · exact fails_ne_cut
  · exact (uncut_of_onDisk whole_ne_cut [1] [2]).2
  · rintro ⟨_, _, h | h⟩
    · cases h
    · cases h
  · exact (uncut_of_onDisk fails_ne_cut [1] [1]).1
  · rintro ⟨_, hfile, _⟩
    exact absurd hfile (by decide +kernel)
  · exact (uncut_of_onDisk fails_ne_cut [2] [1]).1
  · rintro ⟨_, hfile, _⟩
    exact absurd hfile (by decide +kernel)
  · exact (uncut_of_onDisk fails_ne_cut [1] [3]).2
  · rintro ⟨_, ⟨salt, hsalt, hkey⟩, _⟩
    have hnew : some salt = some (fit 16 [2]).toList := hsalt.symm.trans (by decide +kernel)
    rw [Option.some.inj hnew] at hkey
    exact absurd hkey (by decide +kernel)
  · exact whole_ne_cut

/-- The new salt is on the disk, the database under the new key is not: the passphrase that is still in force opens neither. -/
theorem not_failsSafely_changePassphrase :
    ¬ ∀ es : List (Event Bytes), (∀ e ∈ es, Uncut e) → Along (track smallVault) (FailsSafely smallVault) {} es := by
  intro h
  obtain ⟨_, ⟨_, hlost⟩, _⟩ := h [.unlock (onDisk .whole) [1], .changePassphrase (onDisk .fails) [1] [2]] (by
    intro e he
    simp only [List.mem_cons, List.not_mem_nil, or_false] at he
    rcases he with rfl | rfl
    · exact (uncut_of_onDisk whole_ne_cut [1] [1]).1
    · exact (uncut_of_onDisk fails_ne_cut [1] [2]).2)
  obtain ⟨_, _, hopen⟩ := hlost [1] (by decide +kernel)
  exact absurd (hopen (onDisk .whole)).1 (by decide +kernel)

end ScatterWeb.Keystore
