import ScatterWeb.Keystore.Model
import ScatterWeb.Ratchet.Persistence
import ScatterWeb.Ratchet.Run

/-! # `RatchetManager` over the keystore

One ratchet state for each conversation, in a cache and as bytes in the table `key_e_ratchet` of the keystore. The statements
on the table fail without effect while the keystore is locked, and the cache outlives a lock. They take the id of the
conversation as a C string. What `encrypt` and `decrypt` of `ratchet.cpp` change, they change in the cache; the
table is written only after they have returned. -/
namespace ScatterWeb.Client
open Crypto Lib Lib.Cbor Ratchet
set_option autoImplicit false

/-- The tables of the keystore; only `key_e_ratchet` is looked into here. -/
structure Database (R : Type) where
  keyERatchet : AList (fun _ : Bytes => Bytes)
  rest : R

section Tables
variable {R : Type}

def Database.ratchetState (db : Database R) (convId : Bytes) : Bytes := (db.keyERatchet.lookup (cStr convId)).getD []

def Database.setRatchetState (convId state : Bytes) (db : Database R) : Database R :=
  { db with keyERatchet := db.keyERatchet.insert (cStr convId) state }

def getRatchetState (ks : Keystore.State (Database R)) (convId : Bytes) : Bytes :=
  match ks.db with
  | none => []
  | some db => db.ratchetState convId

def setRatchetState (ks : Keystore.State (Database R)) (convId state : Bytes) : Keystore.State (Database R) :=
  { ks with db := ks.db.map (Database.setRatchetState convId state) }

end Tables

/-! ## The manager -/

structure Session (R : Type) where
  keystore : Keystore.State (Database R) := {}
  cache : AList (fun _ : Bytes => Ratchet.State wire) := ∅

inductive ManagerError
  | noState (convId : Bytes)
  | deserialize (e : PersistError)
  | ratchet (e : RatchetError)
  deriving DecidableEq

def ManagerError.what : ManagerError → Bytes
  | .noState convId => ascii "no ratchet state for conversation: " ++ convId
  | .deserialize e => ascii e.what
  | .ratchet e => ascii e.what

section Manager
variable {R : Type} (P : Primitives wire) (load : Bytes → Option Item) (s : Session R)

def Session.put (convId : Bytes) (st : Ratchet.State wire) : Session R := { s with cache := s.cache.insert convId st }

def Session.persist (convId : Bytes) (st : Ratchet.State wire) : Session R :=
  { s with keystore := setRatchetState s.keystore convId (serialize st) }

/-- The state in the cache, or the one in the table, which goes into the cache. -/
def loadState (convId : Bytes) : Session R × Except ManagerError (Ratchet.State wire) :=
  match s.cache.lookup convId with
  | some st => (s, .ok st)
  | none =>
    match getRatchetState s.keystore convId with
    | [] => (s, .error (.noState convId))
    | data =>
      match deserialize load data with
      | .error e => (s, .error (.deserialize e))
      | .ok st => (s.put convId st, .ok st)

/-- What the functions return. -/
inductive Reply
  | prekeyCt (ct : ByteArr 1088)
  | done
  | message (msg : Message wire)
  | plaintext (b : Bytes)

/-- A call; `Coins` and the seeds are what it draws. -/
inductive Op
  | initAsSender (convId : Bytes) (peerPrekeyPub myKeyBPub peerKeyBPub : ByteArr 1184) (encapCoin keygenCoin : ByteArr 32)
  | initAsReceiver (convId : Bytes) (myPrekeyPriv : ByteArr 2400) (prekeyCt : ByteArr 1088)
      (senderKeyBPub myKeyBPub senderRatchetPub : ByteArr 1184) (keygenCoin : ByteArr 32)
  | encrypt (convId : Bytes) (coins : Coins wire) (plaintext : Bytes)
  | decrypt (convId : Bytes) (msg : Message wire)

def Op.convId : Op → Bytes
  | .initAsSender convId _ _ _ _ _ => convId
  | .initAsReceiver convId _ _ _ _ _ _ => convId
  | .encrypt convId _ _ => convId
  | .decrypt convId _ => convId

def initAsSender (convId : Bytes) (peerPrekeyPub myKeyBPub peerKeyBPub : ByteArr 1184) (encapCoin keygenCoin : ByteArr 32) :
    Session R × Except ManagerError Reply :=
  let result := Ratchet.initAsSender P peerPrekeyPub myKeyBPub peerKeyBPub encapCoin keygenCoin
  ((s.put convId result.state).persist convId result.state, .ok (.prekeyCt result.prekeyCt))

def initAsReceiver (convId : Bytes) (myPrekeyPriv : ByteArr 2400) (prekeyCt : ByteArr 1088)
    (senderKeyBPub myKeyBPub senderRatchetPub : ByteArr 1184) (keygenCoin : ByteArr 32) : Session R × Except ManagerError Reply :=
  let st := Ratchet.initAsReceiver P myPrekeyPriv prekeyCt senderKeyBPub myKeyBPub senderRatchetPub keygenCoin
  ((s.put convId st).persist convId st, .ok .done)

def encrypt (convId : Bytes) (coins : Coins wire) (plaintext : Bytes) : Session R × Except ManagerError Reply :=
  match loadState load s convId with
  | (s, .error e) => (s, .error e)
  | (s, .ok st) =>
    let r := Ratchet.encrypt P st coins plaintext
    ((s.put convId r.1).persist convId r.1, .ok (.message r.2))

/-- A throw of the ratchet leaves its changes in the cache. -/
def decrypt (convId : Bytes) (msg : Message wire) : Session R × Except ManagerError Reply :=
  match loadState load s convId with
  | (s, .error e) => (s, .error e)
  | (s, .ok st) =>
    match (Ratchet.decrypt P msg).run st with
    | .ok plain st' => ((s.put convId st').persist convId st', .ok (.plaintext plain))
    | .error e st' => (s.put convId st', .error (.ratchet e))

def perform : Op → Session R × Except ManagerError Reply
  | .initAsSender convId peerPrekeyPub myKeyBPub peerKeyBPub encapCoin keygenCoin =>
    initAsSender P s convId peerPrekeyPub myKeyBPub peerKeyBPub encapCoin keygenCoin
  | .initAsReceiver convId myPrekeyPriv prekeyCt senderKeyBPub myKeyBPub senderRatchetPub keygenCoin =>
    initAsReceiver P s convId myPrekeyPriv prekeyCt senderKeyBPub myKeyBPub senderRatchetPub keygenCoin
  | .encrypt convId coins plaintext => encrypt P load s convId coins plaintext
  | .decrypt convId msg => decrypt P load s convId msg

/-! ## Runs -/

inductive SessionEvent (R : Type)
  | op (o : Op)
  | unlock (env : Keystore.Env) (passphrase : Bytes)
  | save (env : Keystore.Env)
  | lock (env : Keystore.Env)
  | changePassphrase (env : Keystore.Env) (oldPass newPass : Bytes)
  /-- The other tables. -/
  | other (f : R → R)
  /-- The process ends or crashes, and a new one starts. -/
  | restart

def nextSession (V : Keystore.Vault (Database R)) (s : Session R) : SessionEvent R → Session R
  | .op o => (perform P load s o).1
  | .unlock env passphrase => { s with keystore := Keystore.next V s.keystore (.unlock env passphrase) }
  | .save env => { s with keystore := Keystore.next V s.keystore (.save env) }
  | .lock env => { s with keystore := Keystore.next V s.keystore (.lock env) }
  | .changePassphrase env oldPass newPass => { s with keystore := Keystore.next V s.keystore (.changePassphrase env oldPass newPass) }
  | .other f => { s with keystore := Keystore.next V s.keystore (.edit (fun db => { db with rest := f db.rest })) }
  | .restart => { keystore := Keystore.next V s.keystore .restart, cache := ∅ }

end Manager

end ScatterWeb.Client
