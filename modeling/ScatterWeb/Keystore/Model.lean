import ScatterWeb.Crypto.Primitives
import ScatterWeb.Lib.Bytes
import ScatterWeb.Lib.Transition

/-! # The keystore of `client/src/keystore.cpp`

An SQLite database that is kept in memory and written, encrypted under a key that Argon2id derives from the passphrase and a
salt, to a file of 12 bytes of nonce, 16 bytes of tag and the ciphertext. The salt has a file of its own. A state is the
contents of the two files and what the process has in memory; a crash or the end of the process keeps the files.

Opening a file for writing may fail, and then it stays as it was. The result of a write is not checked, so of a file that
was opened only the beginning may be written. Argon2id, AES-GCM and SQLite are not part of the repository. A database has its
schema here, so `init_schema` changes none; SQLite running out of memory is left out. -/
namespace ScatterWeb.Keystore
open Crypto Lib
set_option autoImplicit false

abbrev Key32 := ByteArr 32

abbrev AesNonce := ByteArr 12

abbrev AesTag := ByteArr 16

/-- An in-memory database, as a file and back. -/
structure Sqlite (Db : Type) where
  create : Db
  serialize : Db → Bytes
  deserialize : Bytes → Option Db

structure Vault (Db : Type) where
  argon2id : (passphrase : Bytes) → (salt : ByteArr 16) → Key32
  aes : Aead Key32 AesNonce AesTag
  sqlite : Sqlite Db

inductive KeystoreError
  | alreadyUnlocked
  | locked
  | wrongPassphrase
  | tooSmall
  | corrupt
  | deserialize
  | cannotWriteSalt
  | cannotWriteKeystore
  deriving DecidableEq

def KeystoreError.what (keystorePath saltPath : String) : KeystoreError → String
  | .alreadyUnlocked => "already unlocked"
  | .locked => "keystore locked"
  | .wrongPassphrase => "wrong passphrase"
  | .tooSmall => "keystore file too small"
  | .corrupt => "wrong passphrase or corrupt keystore"
  | .deserialize => "sqlite3_deserialize failed"
  | .cannotWriteSalt => "cannot write salt: " ++ saltPath
  | .cannotWriteKeystore => "cannot write keystore: " ++ keystorePath

/-- What becomes of a file that is opened to be overwritten. -/
inductive Write
  /-- It cannot be opened. -/
  | fails
  /-- Only so many bytes reach the disk. -/
  | cut (n : ℕ)
  | whole
  deriving DecidableEq

/-- The file afterwards, if it was opened. -/
def Write.content (bytes : Bytes) : Write → Option Bytes
  | .fails => none
  | .cut n => some (bytes.take n)
  | .whole => some bytes

/-- A call of `derive_key`: the salt that is drawn and the file it goes to, where there is none yet. -/
structure SaltEnv where
  newSalt : ByteArr 16
  write : Write

structure Env where
  salt : SaltEnv
  /-- The second call of `derive_key` in `change_passphrase`. -/
  newSalt : SaltEnv
  keystore : Write

structure State (Db : Type) where
  salt : Option Bytes := none
  file : Option Bytes := none
  db : Option Db := none
  masterKey : Key32 := fit 32 []
  haveMasterKey : Bool := false

/-- A call: the state after it, the keys and nonces it encrypted with, the database that it has written to the end, and what it
returns or throws. -/
structure Outcome (Db : Type) where
  state : State Db
  encrypted : List (Key32 × AesNonce) := []
  written : Option Db := none
  result : Except KeystoreError Unit

section Operations
variable {Db : Type} (V : Vault Db) (env : Env) (s : State Db)

def State.isUnlocked : Bool := s.db.isSome

/-- A new process. -/
def State.restart : State Db := { s with db := none, masterKey := fit 32 [], haveMasterKey := false }

/-! ## Files -/

/-- A salt file that is too short is filled up with zeros. -/
def deriveKey (e : SaltEnv) (passphrase : Bytes) : State Db × Except KeystoreError Key32 :=
  match s.salt with
  | some bytes => (s, .ok (V.argon2id passphrase (fit 16 bytes)))
  | none =>
    match e.write.content e.newSalt.toList with
    | none => (s, .error .cannotWriteSalt)
    | some bytes => ({ s with salt := some bytes }, .ok (V.argon2id passphrase e.newSalt))

/-- The nonce in the file plus one. A file that is too short is filled up with zeros. -/
def nextNonce : AesNonce :=
  match s.file with
  | none => ⟨List.replicate 11 0 ++ [1], rfl⟩
  | some bytes => ⟨increment (fit 12 bytes).toList, by simp⟩

def encodeFile (mk : Key32) (nonce : AesNonce) (plaintext : Bytes) : Bytes :=
  let enc := V.aes.encrypt mk nonce plaintext []
  nonce.toList ++ (enc.2.toList ++ enc.1)

/-- The file is encrypted before it is opened. -/
def writeToDisk (db : Db) (mk : Key32) : Outcome Db :=
  match env.keystore.content (encodeFile V mk (nextNonce s) (V.sqlite.serialize db)) with
  | none => { state := s, encrypted := [(mk, nextNonce s)], result := .error .cannotWriteKeystore }
  | some bytes =>
    { state := { s with file := some bytes }
      encrypted := [(mk, nextNonce s)]
      written := if env.keystore = .whole then some db else none
      result := .ok () }

/-- The database in a file. -/
def decodeFile (mk : Key32) (bytes : Bytes) : Except KeystoreError Db :=
  if bytes.length < 28 then .error .tooSmall
  else
    match V.aes.decrypt mk (slice 0 12 bytes) (bytes.drop 28) (slice 12 16 bytes) [] with
    | none => .error .corrupt
    | some plaintext =>
      match V.sqlite.deserialize plaintext with
      | none => .error .deserialize
      | some db => .ok db

/-- On the first launch the database is there before the file is. -/
def loadFromDisk (mk : Key32) : Outcome Db :=
  match s.file with
  | none => writeToDisk V env { s with db := some V.sqlite.create } V.sqlite.create mk
  | some bytes =>
    match decodeFile V mk bytes with
    | .error e => { state := s, result := .error e }
    | .ok db => { state := { s with db := some db }, result := .ok () }

/-! ## Calls -/

def unlock (passphrase : Bytes) : Outcome Db :=
  if s.isUnlocked then { state := s, result := .error .alreadyUnlocked }
  else
    match deriveKey V s env.salt passphrase with
    | (s, .error e) => { state := s, result := .error e }
    | (s, .ok mk) =>
      let r := loadFromDisk V env s mk
      match r.result with
      | .error _ => r
      | .ok () => { r with state := { r.state with masterKey := mk, haveMasterKey := true } }

def save : Outcome Db :=
  match s.db with
  | none => { state := s, result := .ok () }
  | some db => if s.haveMasterKey then writeToDisk V env s db s.masterKey else { state := s, result := .ok () }

def lock : Outcome Db :=
  if s.isUnlocked then
    let r := save V env s
    match r.result with
    | .error _ => r
    | .ok () => { r with state := r.state.restart }
  else { state := s, result := .ok () }

/-- The old salt is removed before the new one is written. -/
def changePassphrase (oldPass newPass : Bytes) : Outcome Db :=
  match s.db with
  | none => { state := s, result := .error .locked }
  | some db =>
    match deriveKey V s env.salt oldPass with
    | (s, .error e) => { state := s, result := .error e }
    | (s, .ok oldMk) =>
      if oldMk ≠ s.masterKey then { state := s, result := .error .wrongPassphrase }
      else
        match deriveKey V { s with salt := none } env.newSalt newPass with
        | (s, .error e) => { state := s, result := .error e }
        | (s, .ok newMk) =>
          let r := writeToDisk V env s db newMk
          match r.result with
          | .error _ => r
          | .ok () => { r with state := { r.state with masterKey := newMk } }

/-! ## Runs -/

inductive Event (Db : Type)
  | unlock (env : Env) (passphrase : Bytes)
  | save (env : Env)
  | lock (env : Env)
  | changePassphrase (env : Env) (oldPass newPass : Bytes)
  /-- The other functions work on the database in memory. -/
  | edit (f : Db → Db)
  /-- The process ends or crashes, and a new one starts. -/
  | restart

def step : Event Db → Outcome Db
  | .unlock env passphrase => unlock V env s passphrase
  | .save env => save V env s
  | .lock env => lock V env s
  | .changePassphrase env oldPass newPass => changePassphrase V env s oldPass newPass
  | .edit f => { state := { s with db := s.db.map f }, result := .ok () }
  | .restart => { state := s.restart, result := .ok () }

def next (e : Event Db) : State Db := (step V s e).state

end Operations

end ScatterWeb.Keystore
