import ScatterWeb.Crypto.Signature
import ScatterWeb.Mailbox.Frames

/-! # DHT records

`record.cpp` of the common library: guard records of version 1 (signed with Key A) and version 2 (signed with a Key C and a delegation
certificate of Key A), the certificate itself, and prekey records. All of them are CBOR maps; a parser reads them by `find_key`,
which returns the first pair with the key, and throws at the first field that is missing or has a wrong size. -/
namespace ScatterWeb.Dht
open Crypto Lib Lib.Cbor Client Mailbox
set_option autoImplicit false

/-- What the library calls. Hashes are of the concatenation of their parts. -/
structure Library (Sig : Type) where
  dsa : Dsa Sig
  aes : Aead (ByteArr 32) (ByteArr 12) (ByteArr 16)
  sha3 : Bytes → ByteArr 32
  shake : Bytes → ByteArr 32
  load : Bytes → Option Item
  /-- What `cbor_get_uint64` reads from an item that is not an integer of 64 bits. -/
  peek : Item → UInt64

structure Library.Correct {Sig : Type} (L : Library Sig) : Prop where
  dsa : L.dsa.Correct
  aes : L.aes.Correct
  load : Loads L.load

/-- The clock and what is drawn while a record is built. -/
structure BuildEnv where
  now : UInt64
  nonce : ByteArr 12
  seed : ByteArr 32

/-- The clock while a record is parsed, and what `inbox_auth_expiry` holds before it is set. -/
structure ParseEnv where
  now : UInt64
  junk : UInt64

inductive RecordError
  | cborParse
  | notMap
  | bstr (field : String)
  | noEndpoint
  | tokenSize
  | keyCSize
  | ownerSize
  | noScope
  | scope
  | noTimes
  | certSigSize
  | certSig
  | certExpired
  | noVersion
  | noTimeslot
  | timeslot
  | noCiphertext
  | ivSize
  | tagSize
  | sigSize
  | sig
  /-- `aes_decrypt` throws. -/
  | aead
  | noTimestamp
  | noPrekeys
  | prekeySigSize
  | prekeySig
  | prekeySize
  deriving DecidableEq

def RecordError.what : RecordError → String
  | .cborParse => "CBOR parse error"
  | .notMap => "Expected top-level map"
  | .bstr field => "Missing/invalid bstr: " ++ field
  | .noEndpoint => "Missing guard_endpoint"
  | .tokenSize => "session_token must be 32 bytes"
  | .keyCSize => "Bad key_c_pubkey size"
  | .ownerSize => "Bad owner_key_a_pubkey size"
  | .noScope => "Missing scope"
  | .scope => "Delegation cert scope must be 'inbox'"
  | .noTimes => "Missing issued_at/expires_at"
  | .certSigSize => "Bad delegation cert signature size"
  | .certSig => "Delegation cert signature invalid"
  | .certExpired => "Delegation cert expired"
  | .noVersion => "Guard record missing version"
  | .noTimeslot => "Missing timeslot"
  | .timeslot => "Guard record timeslot mismatch"
  | .noCiphertext => "Missing ciphertext map"
  | .ivSize => "iv must be 12 bytes"
  | .tagSize => "tag must be 16 bytes"
  | .sigSize => "Bad signature length"
  | .sig => "Guard record signature invalid"
  | .aead => "AES-256-GCM authentication failed"
  | .noTimestamp => "Missing timestamp"
  | .noPrekeys => "Missing prekeys array"
  | .prekeySigSize => "Bad sig len"
  | .prekeySig => "Prekey record signature invalid"
  | .prekeySize => "Invalid prekey size"

/-! ## CBOR helpers -/

def mapAddBstr (m : DefMap) (k : String) (v : Bytes) : DefMap := mapAddBytes m k v

def mapAddBool (m : DefMap) (k : String) (v : Bool) : DefMap := m.add (.text (ascii k)) (.bool v)

def mapAddItem (m : DefMap) (k : String) (v : Item) : DefMap := m.add (.text (ascii k)) v

def findKey (kvs : List (Item × Item)) (key : String) : Option Item := getField textKey some kvs key

def cborGetUint64 (peek : Item → UInt64) : Item → UInt64
  | .uint (.a64 n) => n
  | .negint (.a64 n) => n
  | item => peek item

/-- `cbor_is_bool(item) && cbor_get_bool(item)`. -/
def cborIsTrue : Item → Bool
  | .prim (.bool b) => b
  | _ => false

def asUint : Item → Option Item
  | .uint a => some (.uint a)
  | _ => none

def asArray : Item → Option (List Item)
  | .array items => some items
  | _ => none

def asMap : Item → Option (List (Item × Item))
  | .map kvs => some kvs
  | _ => none

def bstrOrThrow (item : Option Item) (field : String) : Except RecordError Bytes := orThrow (item.bind asBytes) (.bstr field)

/-- The copy into an array of the right size. -/
def sized (n : ℕ) (b : Bytes) : Option (ByteArr n) := if h : b.length = n then some (toArr b h) else none

section Library
variable {Sig : Type} (L : Library Sig)

def loadMap (data : Bytes) : Except RecordError (List (Item × Item)) := do
  let root ← orThrow (L.load data) .cborParse
  orThrow (asMap root) .notMap

/-! ## Keys and signed bytes -/

def guardDhtKey (keyBPub : ByteArr 1184) (timeslot : UInt64) : ByteArr 32 := L.sha3 (keyBPub.toList ++ be 8 timeslot.toNat)

def guardAeadKey (keyBPub : ByteArr 1184) (timeslot : UInt64) : ByteArr 32 :=
  L.shake (keyBPub.toList ++ be 8 timeslot.toNat ++ ascii "guard_record")

/-- The key of version 2. -/
def inboxAeadKey (keyBPub : ByteArr 1184) (timeslot : UInt64) : ByteArr 32 :=
  L.shake (keyBPub.toList ++ be 8 timeslot.toNat ++ ascii "inbox_dht_record")

def prekeyDhtKey (keyBPub : ByteArr 1184) : ByteArr 32 := L.sha3 (ascii "prekeys" ++ keyBPub.toList)

def signPayloadV1 (timeslot timestamp : UInt64) (iv : ByteArr 12) (ct : Bytes) (tag : ByteArr 16) : Bytes :=
  be 8 timeslot.toNat ++ be 8 timestamp.toNat ++ iv.toList ++ ct ++ tag.toList

def signPayloadV2 (timeslot timestamp : UInt64) (keyBPub : ByteArr 1184) (iv : ByteArr 12) (ct : Bytes) (tag : ByteArr 16) : Bytes :=
  be 8 timeslot.toNat ++ be 8 timestamp.toNat ++ keyBPub.toList ++ iv.toList ++ ct ++ tag.toList

def delegationSignPayload (keyCPub keyAPub : ByteArr 1952) (issuedAt expiresAt : UInt64) : Bytes :=
  keyCPub.toList ++ keyAPub.toList ++ ascii "inbox" ++ be 8 issuedAt.toNat ++ be 8 expiresAt.toNat

/-! ## The plaintext of a guard record -/

structure GuardPlaintext where
  guardNodeId : Bytes
  guardEndpoint : Bytes
  sessionToken : ByteArr 32
  prekeyAvailable : Bool
  inboxAuthKey : Bytes
  inboxAuthExpiry : UInt64

def plaintextMap (p : GuardPlaintext) : DefMap :=
  let m := DefMap.new 6
  let m := mapAddBstr m "guard_node_id" p.guardNodeId
  let m := mapAddStr m "guard_endpoint" p.guardEndpoint
  let m := mapAddBstr m "session_token" p.sessionToken.toList
  let m := mapAddBool m "prekey_available" p.prekeyAvailable
  let m := mapAddBstr m "inbox_auth_key" p.inboxAuthKey
  mapAddUint m "inbox_auth_expiry" p.inboxAuthExpiry

def encodePlaintext (p : GuardPlaintext) : Bytes := cborSer (plaintextMap p)

/-- The last three fields are optional. -/
def decodePlaintext (env : ParseEnv) (data : Bytes) : Except RecordError GuardPlaintext := do
  let m ← loadMap L data
  let guardNodeId ← bstrOrThrow (findKey m "guard_node_id") "guard_node_id"
  let guardEndpoint ← orThrow ((findKey m "guard_endpoint").bind asText) .noEndpoint
  let token ← bstrOrThrow (findKey m "session_token") "session_token"
  let sessionToken ← orThrow (sized 32 token) .tokenSize
  let prekeyAvailable := (findKey m "prekey_available").elim false cborIsTrue
  let inboxAuthKey := ((findKey m "inbox_auth_key").bind asBytes).getD []
  let inboxAuthExpiry := ((findKey m "inbox_auth_expiry").bind asUint).elim env.junk (cborGetUint64 L.peek)
  return { guardNodeId, guardEndpoint, sessionToken, prekeyAvailable, inboxAuthKey, inboxAuthExpiry }

/-! ## Delegation certificates -/

structure DelegationCert where
  keyCPubkey : ByteArr 1952
  ownerKeyAPubkey : ByteArr 1952
  issuedAt : UInt64
  expiresAt : UInt64

def delegationCertMap (cert : DelegationCert) (sig : Sig) : DefMap :=
  let root := DefMap.new 6
  let root := mapAddBstr root "key_c_pubkey" cert.keyCPubkey.toList
  let root := mapAddBstr root "owner_key_a_pubkey" cert.ownerKeyAPubkey.toList
  let root := mapAddStr root "scope" (ascii "inbox")
  let root := mapAddUint root "issued_at" cert.issuedAt
  let root := mapAddUint root "expires_at" cert.expiresAt
  mapAddBstr root "signature" (L.dsa.toBytes sig)

def buildDelegationCert (cert : DelegationCert) (keyAPriv : ByteArr 4032) (seed : ByteArr 32) : Bytes :=
  let payload := delegationSignPayload cert.keyCPubkey cert.ownerKeyAPubkey cert.issuedAt cert.expiresAt
  cborSer (delegationCertMap L cert (L.dsa.sign keyAPriv payload seed))

/-- The owner's key in the certificate is read and not compared. -/
def verifyDelegationCert (now : UInt64) (certCbor : Bytes) (keyAPub : ByteArr 1952) : Except RecordError (ByteArr 1952) := do
  let m ← loadMap L certCbor
  let kc ← bstrOrThrow (findKey m "key_c_pubkey") "key_c_pubkey"
  let keyCPub ← orThrow (sized 1952 kc) .keyCSize
  let ka ← bstrOrThrow (findKey m "owner_key_a_pubkey") "owner_key_a_pubkey"
  let _owner ← orThrow (sized 1952 ka) .ownerSize
  let scope ← orThrow ((findKey m "scope").bind asText) .noScope
  check (scope = ascii "inbox") .scope
  let ia ← orThrow (findKey m "issued_at") .noTimes
  let ea ← orThrow (findKey m "expires_at") .noTimes
  let issuedAt := cborGetUint64 L.peek ia
  let expiresAt := cborGetUint64 L.peek ea
  let sigBytes ← bstrOrThrow (findKey m "signature") "signature"
  let sig ← orThrow (L.dsa.ofBytes sigBytes) .certSigSize
  check (L.dsa.verify keyAPub (delegationSignPayload keyCPub keyAPub issuedAt expiresAt) sig) .certSig
  check (now ≤ expiresAt) .certExpired
  return keyCPub

/-! ## Guard records -/

/-- The ciphertext with its nonce and tag. -/
def ciphertextMap (iv : ByteArr 12) (ct : Bytes) (tag : ByteArr 16) : DefMap :=
  let m := DefMap.new 3
  let m := mapAddBstr m "iv" iv.toList
  let m := mapAddBstr m "ciphertext" ct
  mapAddBstr m "tag" tag.toList

def guardRecordV1Map (timeslot timestamp : UInt64) (ctMap : Item) (sig : Sig) : DefMap :=
  let root := DefMap.new 5
  let root := mapAddUint root "version" 1
  let root := mapAddUint root "timeslot" timeslot
  let root := mapAddUint root "timestamp" timestamp
  let root := mapAddItem root "ciphertext" ctMap
  mapAddBstr root "signature" (L.dsa.toBytes sig)

def guardRecordV2Map (keyBPub : ByteArr 1184) (timeslot timestamp : UInt64) (ctMap : Item) (sig : Sig) (cert : Bytes) : DefMap :=
  let root := DefMap.new 7
  let root := mapAddUint root "version" 2
  let root := mapAddUint root "timeslot" timeslot
  let root := mapAddUint root "timestamp" timestamp
  let root := mapAddBstr root "target_key_b_pubkey" keyBPub.toList
  let root := mapAddItem root "ciphertext" ctMap
  let root := mapAddBstr root "signature" (L.dsa.toBytes sig)
  mapAddBstr root "dht_delegation_cert" cert

def buildGuardRecordV1 (env : BuildEnv) (keyBPub : ByteArr 1184) (timeslot : UInt64) (plaintext : GuardPlaintext) (keyAPriv : ByteArr 4032) :
    Bytes :=
  let enc := L.aes.encrypt (guardAeadKey L keyBPub timeslot) env.nonce (encodePlaintext plaintext) []
  let sig := L.dsa.sign keyAPriv (signPayloadV1 timeslot env.now env.nonce enc.1 enc.2) env.seed
  cborSer (guardRecordV1Map L timeslot env.now (ciphertextMap env.nonce enc.1 enc.2).item sig)

def buildGuardRecordV2 (env : BuildEnv) (keyBPub : ByteArr 1184) (timeslot : UInt64) (plaintext : GuardPlaintext) (keyCPriv : ByteArr 4032)
    (cert : Bytes) : Bytes :=
  let enc := L.aes.encrypt (inboxAeadKey L keyBPub timeslot) env.nonce (encodePlaintext plaintext) []
  let sig := L.dsa.sign keyCPriv (signPayloadV2 timeslot env.now keyBPub env.nonce enc.1 enc.2) env.seed
  cborSer (guardRecordV2Map L keyBPub timeslot env.now (ciphertextMap env.nonce enc.1 enc.2).item sig cert)

/-- What `parse_guard_record` reads before it looks at the version. -/
structure GuardFields (Sig : Type) where
  version : UInt64
  timestamp : UInt64
  iv : ByteArr 12
  ct : Bytes
  tag : ByteArr 16
  sig : Sig

def readGuardFields (m : List (Item × Item)) (timeslot : UInt64) : Except RecordError (GuardFields Sig) := do
  let ver ← orThrow ((findKey m "version").bind asUint) .noVersion
  let version := cborGetUint64 L.peek ver
  let ts ← orThrow (findKey m "timeslot") .noTimeslot
  check (cborGetUint64 L.peek ts = timeslot) .timeslot
  let timestamp := (findKey m "timestamp").elim 0 (cborGetUint64 L.peek)
  let ctM ← orThrow ((findKey m "ciphertext").bind asMap) .noCiphertext
  let ivB ← bstrOrThrow (findKey ctM "iv") "iv"
  let iv ← orThrow (sized 12 ivB) .ivSize
  let ct ← bstrOrThrow (findKey ctM "ciphertext") "ciphertext"
  let tagB ← bstrOrThrow (findKey ctM "tag") "tag"
  let tag ← orThrow (sized 16 tagB) .tagSize
  let sigBytes ← bstrOrThrow (findKey m "signature") "signature"
  let sig ← orThrow (L.dsa.ofBytes sigBytes) .sigSize
  return { version, timestamp, iv, ct, tag, sig }

/-- Version 2 asks for a certificate; every other version is signed with Key A. -/
def signingPub (now : UInt64) (m : List (Item × Item)) (version : UInt64) (keyAPub : ByteArr 1952) : Except RecordError (ByteArr 1952) :=
  if version = 2 then do
    let cert ← bstrOrThrow (findKey m "dht_delegation_cert") "dht_delegation_cert"
    verifyDelegationCert L now cert keyAPub
  else .ok keyAPub

/-- Version 1 has its own layout; every other version has that of version 2. -/
def signedPayload (f : GuardFields Sig) (keyBPub : ByteArr 1184) (timeslot : UInt64) : Bytes :=
  if f.version = 1 then signPayloadV1 timeslot f.timestamp f.iv f.ct f.tag
  else signPayloadV2 timeslot f.timestamp keyBPub f.iv f.ct f.tag

def aeadKey (version : UInt64) (keyBPub : ByteArr 1184) (timeslot : UInt64) : ByteArr 32 :=
  if version = 1 then guardAeadKey L keyBPub timeslot else inboxAeadKey L keyBPub timeslot

def parseGuardRecord (env : ParseEnv) (record : Bytes) (keyBPub : ByteArr 1184) (keyAPub : ByteArr 1952) (timeslot : UInt64) :
    Except RecordError GuardPlaintext := do
  let m ← loadMap L record
  let f ← readGuardFields L m timeslot
  let pub ← signingPub L env.now m f.version keyAPub
  check (L.dsa.verify pub (signedPayload f keyBPub timeslot) f.sig) .sig
  let plaintext ← orThrow (L.aes.decrypt (aeadKey L f.version keyBPub timeslot) f.iv f.ct f.tag []) .aead
  decodePlaintext L env plaintext

/-! ## Prekey records -/

structure PrekeyRecord where
  timestamp : UInt64
  prekeys : List (ByteArr 1184)

def prekeyArray (prekeys : List (ByteArr 1184)) : Item := .array (prekeys.map (fun pk => .bytes pk.toList))

def prekeySigned (timestamp : UInt64) (arr : Item) : Bytes := be 8 timestamp.toNat ++ encode arr

def prekeyRecordMap (timestamp : UInt64) (arr : Item) (sig : Sig) : DefMap :=
  let root := DefMap.new 3
  let root := mapAddUint root "timestamp" timestamp
  let root := mapAddItem root "prekeys" arr
  mapAddBstr root "signature" (L.dsa.toBytes sig)

/-- Key B is a parameter and is not used. -/
def buildPrekeyRecord (_keyBPub : ByteArr 1184) (rec : PrekeyRecord) (keyAPriv : ByteArr 4032) (seed : ByteArr 32) : Bytes :=
  let arr := prekeyArray rec.prekeys
  cborSer (prekeyRecordMap L rec.timestamp arr (L.dsa.sign keyAPriv (prekeySigned rec.timestamp arr) seed))

def decodePrekey (item : Item) : Except RecordError (ByteArr 1184) := orThrow ((asBytes item).bind (sized 1184)) .prekeySize

/-- Nor here. -/
def parsePrekeyRecord (record : Bytes) (_keyBPub : ByteArr 1184) (keyAPub : ByteArr 1952) : Except RecordError PrekeyRecord := do
  let m ← loadMap L record
  let ts ← orThrow (findKey m "timestamp") .noTimestamp
  let timestamp := cborGetUint64 L.peek ts
  let items ← orThrow ((findKey m "prekeys").bind asArray) .noPrekeys
  let sigBytes ← bstrOrThrow (findKey m "signature") "signature"
  let sig ← orThrow (L.dsa.ofBytes sigBytes) .prekeySigSize
  check (L.dsa.verify keyAPub (prekeySigned timestamp (.array items)) sig) .prekeySig
  let prekeys ← items.mapM decodePrekey
  return { timestamp, prekeys }

end Library

end ScatterWeb.Dht
