import ScatterWeb.Dht.RoundTrip

/-! # The records that the Client publishes

`dht_pub.cpp` has builders of its own. Its prekey records are those of the common library. Its guard records are found under the
right key, but they have no version, and `parse_guard_record` asks for one first. -/
namespace ScatterWeb.Client
open Crypto Lib Lib.Cbor Dht
set_option autoImplicit false

structure GuardInfo where
  guardNodeId : Bytes
  guardEndpoint : Bytes
  sessionToken : Bytes
  outboxKeyCPubkey : Bytes
  outboxAuthExpiry : Int64

section Publish
variable {Sig : Type} (L : Dht.Library Sig)

/-- The node id is a text here. -/
def guardPlainMap (guard : GuardInfo) : DefMap :=
  let m := DefMap.new 6
  let m := mapAddStr m "guard_node_id" guard.guardNodeId
  let m := mapAddStr m "guard_endpoint" guard.guardEndpoint
  let m := mapAddBytes m "session_token" guard.sessionToken
  let m := mapAddBool m "prekey_available" (!guard.outboxKeyCPubkey.isEmpty)
  let m := mapAddBytes m "inbox_auth_key" guard.outboxKeyCPubkey
  mapAddUint m "inbox_auth_expiry" guard.outboxAuthExpiry.toUInt64

def guardOuterMap (timeslot now : UInt64) (ct : Item) (sig : Sig) : DefMap :=
  let m := DefMap.new 4
  let m := mapAddUint m "timeslot" timeslot
  let m := mapAddUint m "timestamp" now
  let m := m.add (.text (ascii "ciphertext")) ct
  mapAddBytes m "signature" (L.dsa.toBytes sig)

/-- The ciphertext map is written and loaded again; it is `none` where `cbor_load` gives a null pointer. -/
def buildGuardRecord (env : BuildEnv) (keyBKemPub : ByteArr 1184) (keyAPriv : ByteArr 4032) (timeslot : UInt64) (guard : GuardInfo) :
    Option (ByteArr 32 × Bytes) :=
  let tsBytes := be 8 timeslot.toNat
  let dhtKey := L.sha3 (keyBKemPub.toList ++ tsBytes)
  let aeadKey := L.shake (keyBKemPub.toList ++ tsBytes ++ ascii "guard_record")
  let enc := L.aes.encrypt aeadKey env.nonce (cborSer (guardPlainMap guard)) []
  let ctBytes := cborSer (ciphertextMap env.nonce enc.1 enc.2)
  let toSign := tsBytes ++ be 8 env.now.toNat ++ env.nonce.toList ++ enc.1 ++ enc.2.toList
  let sig := L.dsa.sign keyAPriv toSign env.seed
  (L.load ctBytes).map (fun ct => (dhtKey, cborSer (guardOuterMap L timeslot env.now ct sig)))

def prekeyMap (timestamp : UInt64) (prekeys : Item) (sig : Sig) : DefMap :=
  let m := DefMap.new 3
  let m := mapAddUint m "timestamp" timestamp
  let m := m.add (.text (ascii "prekeys")) prekeys
  mapAddBytes m "signature" (L.dsa.toBytes sig)

def buildPrekeyRecord (seed : ByteArr 32) (keyBKemPub : ByteArr 1184) (keyAPriv : ByteArr 4032) (prekeys : List (ByteArr 1184)) (nowS : Int64) :
    Option (ByteArr 32 × Bytes) :=
  let dhtKey := L.sha3 (ascii "prekeys" ++ keyBKemPub.toList)
  let prekeysCbor := encode (.array (prekeys.map (fun pk => .bytes pk.toList)))
  let toSign := be 8 nowS.toUInt64.toNat ++ prekeysCbor
  let sig := L.dsa.sign keyAPriv toSign seed
  (L.load prekeysCbor).map (fun arr => (dhtKey, cborSer (prekeyMap L nowS.toUInt64 arr sig)))

/-! ## Guard records -/

variable {L}

theorem guardOuterMap_pairs (timeslot now : UInt64) (ct : Item) (sig : Sig) : (guardOuterMap L timeslot now ct sig).pairs =
    ([(.text (ascii "timeslot"), .uint (.a64 timeslot)), (.text (ascii "timestamp"), .uint (.a64 now)), (.text (ascii "ciphertext"), ct),
      (.text (ascii "signature"), .bytes (L.dsa.toBytes sig))] : List (Item × Item)) := by
  simp [guardOuterMap, mapAddBytes, mapAddUint, DefMap.add_pairs]

theorem guardOuterMap_noVersion (timeslot now : UInt64) (ct : Item) (sig : Sig) :
    findKey (guardOuterMap L timeslot now ct sig).pairs "version" = none := by
  rw [guardOuterMap_pairs]
  simp [findKey_cons]
  rfl

theorem parseGuardRecord_noVersion (hload : Loads L.load) {m : DefMap} (hm : findKey m.pairs "version" = none) (env : ParseEnv)
    (keyB : ByteArr 1184) (keyA : ByteArr 1952) (timeslot : UInt64) : parseGuardRecord L env (cborSer m) keyB keyA timeslot = .error .noVersion := by
  unfold parseGuardRecord readGuardFields
  rw [loadMap_cborSer hload, ok_bind, hm]
  rfl

/-- The key is the one a contact looks up, and the value is turned away. -/
theorem buildGuardRecord_unreadable (hload : Loads L.load) (env : BuildEnv) (keyB : ByteArr 1184) (keyAPriv : ByteArr 4032) (timeslot : UInt64)
    (guard : GuardInfo) : ∃ value, buildGuardRecord L env keyB keyAPriv timeslot guard = some (guardDhtKey L keyB timeslot, value) ∧
      ∀ env' keyA, parseGuardRecord L env' value keyB keyA timeslot = .error .noVersion := by
  unfold buildGuardRecord
  dsimp only
  unfold cborSer
  rw [hload.load_encode, Option.map_some]
  refine ⟨_, rfl, ?_⟩
  intro env' keyA
  exact parseGuardRecord_noVersion hload (guardOuterMap_noVersion _ _ _ _) env' keyB keyA timeslot

/-! ## Prekey records -/

/-- The two libraries build the same record. -/
theorem buildPrekeyRecord_eq (hload : Loads L.load) (seed : ByteArr 32) (keyB : ByteArr 1184) (keyAPriv : ByteArr 4032)
    (prekeys : List (ByteArr 1184)) (nowS : Int64) : buildPrekeyRecord L seed keyB keyAPriv prekeys nowS =
      some (prekeyDhtKey L keyB, Dht.buildPrekeyRecord L keyB ⟨nowS.toUInt64, prekeys⟩ keyAPriv seed) := by
  unfold buildPrekeyRecord
  dsimp only
  rw [hload.load_encode]
  rfl

/-! ## Publishing -/

/-- The plaintext says what the Client knows about its guard. -/
def PublishedAs (guard : GuardInfo) (p : GuardPlaintext) : Prop :=
  p.guardNodeId = guard.guardNodeId ∧ p.guardEndpoint = guard.guardEndpoint ∧ p.sessionToken.toList = guard.sessionToken ∧
    p.prekeyAvailable = !guard.outboxKeyCPubkey.isEmpty ∧ p.inboxAuthKey = guard.outboxKeyCPubkey ∧ p.inboxAuthExpiry = guard.outboxAuthExpiry.toUInt64

/-- A guard record is found under its key and read back. -/
def GuardReadable (L : Dht.Library Sig) (env : BuildEnv) (env' : ParseEnv) (a : ByteArr 32) (keyB : ByteArr 1184) (timeslot : UInt64)
    (guard : GuardInfo) : Prop :=
  ∃ value, buildGuardRecord L env keyB (L.dsa.keygen a).priv timeslot guard = some (guardDhtKey L keyB timeslot, value) ∧
    ∃ p, parseGuardRecord L env' value keyB (L.dsa.keygen a).pub timeslot = .ok p ∧ PublishedAs guard p

/-- A prekey record is found under its key and read back. -/
def PrekeysReadable (L : Dht.Library Sig) (seed a : ByteArr 32) (keyB : ByteArr 1184) (prekeys : List (ByteArr 1184)) (nowS : Int64) : Prop :=
  ∃ value, buildPrekeyRecord L seed keyB (L.dsa.keygen a).priv prekeys nowS = some (prekeyDhtKey L keyB, value) ∧
    parsePrekeyRecord L value keyB (L.dsa.keygen a).pub = .ok ⟨nowS.toUInt64, prekeys⟩

theorem not_guardReadable (hload : Loads L.load) (env : BuildEnv) (env' : ParseEnv) (a : ByteArr 32) (keyB : ByteArr 1184) (timeslot : UInt64)
    (guard : GuardInfo) : ¬GuardReadable L env env' a keyB timeslot guard := by
  intro h
  obtain ⟨value, hvalue, p, hp, _⟩ := h
  obtain ⟨value', hvalue', hrejected⟩ := buildGuardRecord_unreadable hload env keyB (L.dsa.keygen a).priv timeslot guard
  rw [hvalue] at hvalue'
  cases hvalue'
  rw [hrejected] at hp
  cases hp

/-- No guard record of a Client is readable; the prekey records are, and both are stored under the keys that are looked up. -/
theorem published_records (hL : L.Correct) (env : BuildEnv) (env' : ParseEnv) (a : ByteArr 32) (keyB : ByteArr 1184) (timeslot : UInt64)
    (guard : GuardInfo) (prekeys : List (ByteArr 1184)) (nowS : Int64) :
    ¬GuardReadable L env env' a keyB timeslot guard ∧
      (∃ value, buildGuardRecord L env keyB (L.dsa.keygen a).priv timeslot guard = some (guardDhtKey L keyB timeslot, value) ∧
        parseGuardRecord L env' value keyB (L.dsa.keygen a).pub timeslot = .error .noVersion) ∧
      PrekeysReadable L env.seed a keyB prekeys nowS := by
  refine ⟨not_guardReadable hL.load env env' a keyB timeslot guard, ?_, ?_⟩
  · obtain ⟨value, hvalue, hrejected⟩ := buildGuardRecord_unreadable hL.load env keyB (L.dsa.keygen a).priv timeslot guard
    exact ⟨value, hvalue, hrejected env' _⟩
  · exact ⟨_, buildPrekeyRecord_eq hL.load env.seed keyB _ prekeys nowS, parsePrekeyRecord_buildPrekeyRecord hL keyB keyB _ a env.seed⟩

end Publish

def sampleInfo : GuardInfo := ⟨ascii "guard", ascii "10.0.0.1:443", List.replicate 32 9, [], 1000⟩

theorem published_records_sample :
    ¬GuardReadable sampleLibrary ⟨90, fit 12 [4], fit 32 [5]⟩ ⟨100, 0⟩ (fit 32 [1]) (fit 1184 [3]) 50 sampleInfo ∧
      PrekeysReadable sampleLibrary (fit 32 [5]) (fit 32 [1]) (fit 1184 [3]) [fit 1184 [7]] 80 := by
  obtain ⟨hguard, _, hprekeys⟩ := published_records sampleLibrary_correct ⟨90, fit 12 [4], fit 32 [5]⟩ ⟨100, 0⟩ (fit 32 [1]) (fit 1184 [3]) 50
    sampleInfo [fit 1184 [7]] 80
  exact ⟨hguard, hprekeys⟩

/-- A Client's guard record, ten seconds after it was published. -/
theorem not_guardReadable_sample :
    ¬GuardReadable sampleLibrary ⟨90, fit 12 [4], fit 32 [5]⟩ ⟨100, 0⟩ (fit 32 [1]) (fit 1184 [3]) 50 sampleInfo :=
  not_guardReadable load_loads _ _ _ _ _ _

end ScatterWeb.Client
