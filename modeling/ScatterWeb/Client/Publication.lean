import ScatterWeb.Client.DhtPub
import ScatterWeb.Client.Establish
import ScatterWeb.Ipc.Call
import ScatterWeb.Lib.Table

/-! # Records on their way to the router

`publish_dht_records` sends each record in a request `dht.publish` with the key as a hexadecimal text under `"key"`. The router asks
for 32 bytes under `"dht_key"` and answers with an error, which the Client drops. So the router's store stays as it was. -/
namespace ScatterWeb.AnonRouter
open Crypto Lib Lib.Cbor Ipc Ipc.CborValue Mailbox
set_option autoImplicit false

/-- The records of `DhtClient` under the hexadecimal form of their keys. -/
abbrev DhtStore := Bytes → Option Bytes

def getBytes (p : Ipc.CborMap) (key : String) : Except Bytes Bytes :=
  match p.find key with
  | none => .error (ascii ("missing param: " ++ key))
  | some (.bytes b) => .ok b
  | some _ => .error (ascii ("param not bytes: " ++ key))

def dhtKey (keyBytes : Bytes) : Except Bytes (ByteArr 32) :=
  if h : keyBytes.length = 32 then .ok (toArr keyBytes h) else .error (ascii "dht_key must be 32 bytes")

def dhtLookup (store : DhtStore) (p : Ipc.CborMap) : Except Bytes Ipc.CborMap := do
  let keyBytes ← getBytes p "dht_key"
  let k ← dhtKey keyBytes
  match store (bytesToHex k.toList) with
  | none => .ok (Ipc.CborMap.empty.set "found" (.bool false) (keyed_bool _))
  | some val => .ok ((Ipc.CborMap.empty.set "found" (.bool true) (keyed_bool _)).set "value" (.bytes val) (keyed_bytes _))

def dhtPublish (store : DhtStore) (p : Ipc.CborMap) : Except Bytes (DhtStore × Ipc.CborMap) := do
  let keyBytes ← getBytes p "dht_key"
  let value ← getBytes p "value"
  let k ← dhtKey keyBytes
  let hex := bytesToHex k.toList
  .ok (Function.update store hex (some value), Ipc.CborMap.empty.set "dht_key" (.string hex) (keyed_string _))

/-- The methods of the DHT; the others have nothing to do with the store. -/
def handleDht : Handler DhtStore := fun store method params _ =>
  if method = ascii "dht.lookup" then (dhtLookup store params).map (fun result => (store, result))
  else if method = ascii "dht.publish" then dhtPublish store params
  else .error (ascii "unknown method: " ++ method)

end ScatterWeb.AnonRouter

namespace ScatterWeb.Client
open Crypto Lib Lib.Cbor Dht Ipc Ipc.CborValue Mailbox AnonRouter
set_option autoImplicit false

structure KeyDPrekey where
  id : Bytes
  keyBId : Bytes
  kemPubkey : ByteArr 1184
  consumed : Bool := false

/-- The keys that are published for, and the private Key A that signs. -/
structure PublishKeys where
  keyAPriv : Option (ByteArr 4032)
  keyBs : Table KeyB.id
  prekeys : Table KeyDPrekey.id

def PublishKeys.listPrekeys (ks : PublishKeys) (keyBId : Bytes) : List KeyDPrekey :=
  ks.prekeys.rows.filter (fun pk => decide (pk.keyBId = keyBId) && !pk.consumed)

def PublishKeys.countPrekeys (ks : PublishKeys) (keyBId : Bytes) : ℕ := (ks.listPrekeys keyBId).length

/-- What is drawn for one Key B, the clock, and the ids of its two requests. -/
structure PublishDraw where
  guardEnv : BuildEnv
  guardId : UInt64
  prekeySeed : ByteArr 32
  prekeyNow : Int64
  prekeyId : UInt64

section Publish
variable {Sig : Type} (L : Dht.Library Sig) (draw : Bytes → PublishDraw) (junk : UInt64) (timeslot : UInt64) (guard : GuardInfo)
  (ks : PublishKeys)

def publishParams (dhtKey : ByteArr 32) (dhtVal : Bytes) (ttlSeconds : UInt64) : Ipc.CborMap :=
  let params := Ipc.CborMap.empty.set "key" (.string (bytesToHex dhtKey.toList)) (keyed_string _)
  let params := params.set "value" (.bytes dhtVal) (keyed_bytes _)
  params.set "ttl_seconds" (.uint ttlSeconds) (keyed_uint _)

/-- The call for a record; its result and its exceptions are dropped. -/
def publishRecord (store : DhtStore) (id : UInt64) (ttlSeconds : UInt64) : Option (ByteArr 32 × Bytes) → DhtStore
  | none => store
  | some (key, val) => (call L.load handleDht junk store ⟨id, ascii "client", ascii "dht.publish", publishParams key val ttlSeconds⟩).1

def guardRecordFor (priv : ByteArr 4032) (kb : KeyB) : Option (ByteArr 32 × Bytes) :=
  buildGuardRecord L (draw kb.id).guardEnv kb.kem.pub priv timeslot guard

def prekeyRecordFor (priv : ByteArr 4032) (kb : KeyB) : Option (ByteArr 32 × Bytes) :=
  buildPrekeyRecord L (draw kb.id).prekeySeed kb.kem.pub priv ((ks.listPrekeys kb.id).map KeyDPrekey.kemPubkey) (draw kb.id).prekeyNow

def publishKeyB (priv : ByteArr 4032) (store : DhtStore) (kb : KeyB) : DhtStore :=
  let store := publishRecord L junk store (draw kb.id).guardId 3600 (guardRecordFor L draw timeslot guard priv kb)
  if 0 < ks.countPrekeys kb.id then publishRecord L junk store (draw kb.id).prekeyId 604800 (prekeyRecordFor L draw ks priv kb)
  else store

/-- `guard` is what `get_guard_info` gives, which throws nothing. -/
def publishDhtRecords (connected : Bool) (store : DhtStore) : DhtStore :=
  if connected = false then store
  else
    match ks.keyAPriv with
    | none => store
    | some priv => ks.keyBs.rows.foldl (publishKeyB L draw junk timeslot guard ks priv) store

/-- The answer of `dht.lookup` to a call with the key. -/
def LookupReturns (store : DhtStore) (key : ByteArr 32) (value : Bytes) : Prop :=
  ∀ id, ∃ r, (call L.load handleDht junk store
      ⟨id, ascii "client", ascii "dht.lookup", Ipc.CborMap.empty.set "dht_key" (.bytes key.toList) (keyed_bytes _)⟩).2 = .ok r ∧
    r.find "found" = some (.bool true) ∧ r.find "value" = some (.bytes value)

/-- What the Client built for its Key Bs is found in the router, the guard records and the prekey records. -/
structure Published (store : DhtStore) : Prop where
  guard : ∀ priv, ks.keyAPriv = some priv → ∀ kb ∈ ks.keyBs.rows, ∀ key value,
    guardRecordFor L draw timeslot guard priv kb = some (key, value) → LookupReturns L junk store (guardDhtKey L kb.kem.pub timeslot) value
  prekeys : ∀ priv, ks.keyAPriv = some priv → ∀ kb ∈ ks.keyBs.rows, ks.listPrekeys kb.id ≠ [] → ∀ key value,
    prekeyRecordFor L draw ks priv kb = some (key, value) → LookupReturns L junk store (prekeyDhtKey L kb.kem.pub) value

variable {L draw junk timeslot guard ks}

/-! ## What the router makes of the requests -/

theorem keysNulFree_publishParams (dhtKey : ByteArr 32) (dhtVal : Bytes) (ttlSeconds : UInt64) :
    (publishParams dhtKey dhtVal ttlSeconds).KeysNulFree := by
  unfold publishParams
  refine CborMap.KeysNulFree.set (CborMap.KeysNulFree.set (CborMap.KeysNulFree.set CborMap.keysNulFree_empty ?_ _ _) ?_ _ _) ?_ _ _
  all_goals decide +kernel

/-- The router misses the key. -/
theorem dhtPublish_publishParams (store : DhtStore) (dhtKey : ByteArr 32) (dhtVal : Bytes) (ttlSeconds : UInt64) :
    dhtPublish store (publishParams dhtKey dhtVal ttlSeconds).received = .error (ascii "missing param: dht_key") := by
  have hfind : (publishParams dhtKey dhtVal ttlSeconds).received.find "dht_key" = none := by
    rw [CborMap.find_received (keysNulFree_publishParams dhtKey dhtVal ttlSeconds)]
    simp [publishParams]
  unfold dhtPublish getBytes
  rw [hfind]
  rfl

theorem publishRecord_eq (hload : Loads L.load) (store : DhtStore) (id ttlSeconds : UInt64) (built : Option (ByteArr 32 × Bytes)) :
    publishRecord L junk store id ttlSeconds built = store := by
  cases built with
  | none => rfl
  | some built =>
    have hmethod : cStr (ascii "dht.publish") = ascii "dht.publish" := cStr_of_nulFree (by decide +kernel)
    have hne : ascii "dht.publish" ≠ ascii "dht.lookup" := by decide +kernel
    have hhandle : handleDht store (cStr (ascii "dht.publish")) (publishParams built.1 built.2 ttlSeconds).received (cStr (ascii "client")) =
        .error (ascii "missing param: dht_key") := by
      rw [hmethod, handleDht, if_neg hne, if_pos rfl]
      exact dhtPublish_publishParams store built.1 built.2 ttlSeconds
    have hcall : call L.load handleDht junk store ⟨id, ascii "client", ascii "dht.publish", publishParams built.1 built.2 ttlSeconds⟩ = (store, _) :=
      call_of_error hload hhandle
    rw [publishRecord, hcall]

/-- Nothing is published. -/
theorem publishDhtRecords_eq (hload : Loads L.load) (connected : Bool) (store : DhtStore) :
    publishDhtRecords L draw junk timeslot guard ks connected store = store := by
  have hkeyB : ∀ priv kb, publishKeyB L draw junk timeslot guard ks priv store kb = store := by
    intro priv kb
    unfold publishKeyB
    simp [publishRecord_eq hload]
  have hfold : ∀ priv (kbs : List KeyB), kbs.foldl (publishKeyB L draw junk timeslot guard ks priv) store = store := by
    intro priv kbs
    induction kbs with
    | nil => rfl
    | cons kb kbs ih => rw [List.foldl_cons, hkeyB, ih]
  unfold publishDhtRecords
  split
  · rfl
  · split
    · rfl
    · exact hfold _ _

/-- The result of `dht.lookup`. -/
def lookupResult : Option Bytes → Ipc.CborMap
  | none => Ipc.CborMap.empty.set "found" (.bool false) (keyed_bool _)
  | some val => (Ipc.CborMap.empty.set "found" (.bool true) (keyed_bool _)).set "value" (.bytes val) (keyed_bytes _)

theorem keysNulFree_lookupResult (val : Option Bytes) : (lookupResult val).KeysNulFree := by
  have hfound : (0 : UInt8) ∉ ascii "found" := by decide +kernel
  cases val with
  | none => exact CborMap.keysNulFree_empty.set hfound _ (keyed_bool _)
  | some val => exact (CborMap.keysNulFree_empty.set hfound _ (keyed_bool _)).set (by decide +kernel) _ (keyed_bytes _)

theorem dhtLookup_eq (store : DhtStore) (key : ByteArr 32) {p : Ipc.CborMap} (hp : p.find "dht_key" = some (.bytes key.toList)) :
    dhtLookup store p = .ok (lookupResult (store (bytesToHex key.toList))) := by
  have hlen : key.toList.length = 32 := key.toList_length
  unfold dhtLookup getBytes
  rw [hp]
  simp only [ok_bind, dhtKey, dif_pos hlen, toArr_toList]
  cases store (bytesToHex key.toList) with
  | none => rfl
  | some val => rfl

theorem call_lookup (hload : Loads L.load) (store : DhtStore) (key : ByteArr 32) (id : UInt64) :
    call L.load handleDht junk store
      ⟨id, ascii "client", ascii "dht.lookup", Ipc.CborMap.empty.set "dht_key" (.bytes key.toList) (keyed_bytes _)⟩ =
        (store, .ok (lookupResult (store (bytesToHex key.toList))).received) := by
  have hkeys : (Ipc.CborMap.empty.set "dht_key" (.bytes key.toList) (keyed_bytes _)).KeysNulFree :=
    CborMap.keysNulFree_empty.set (by decide +kernel) _ _
  have hfind : (Ipc.CborMap.empty.set "dht_key" (.bytes key.toList) (keyed_bytes _)).received.find "dht_key" = some (.bytes key.toList) := by
    rw [CborMap.find_received hkeys]
    simp [CborValue.received]
  have hmethod : cStr (ascii "dht.lookup") = ascii "dht.lookup" := cStr_of_nulFree (by decide +kernel)
  refine call_of_ok hload ?_
  dsimp only
  rw [hmethod, handleDht, if_pos rfl, dhtLookup_eq store key hfind]
  rfl

theorem lookupReturns_iff (hload : Loads L.load) {store : DhtStore} {key : ByteArr 32} {value : Bytes} :
    LookupReturns L junk store key value ↔ store (bytesToHex key.toList) = some value := by
  unfold LookupReturns
  simp only [call_lookup hload, Except.ok.injEq, exists_eq_left', CborMap.find_received (keysNulFree_lookupResult _)]
  cases store (bytesToHex key.toList) with
  | none => simp [lookupResult, CborValue.received]
  | some val => simp [lookupResult, CborValue.received]

/-! ## When the records reach the router -/

theorem published_of_nothing {store : DhtStore} (h : ks.keyAPriv = none ∨ ks.keyBs.rows = []) : Published L draw junk timeslot guard ks store := by
  constructor
  · intro priv hpriv kb hkb
    obtain hnone | hnil := h
    · rw [hnone] at hpriv
      cases hpriv
    · rw [hnil] at hkb
      cases hkb
  · intro priv hpriv kb hkb
    obtain hnone | hnil := h
    · rw [hnone] at hpriv
      cases hpriv
    · rw [hnil] at hkb
      cases hkb

theorem not_published_empty (hload : Loads L.load) {priv : ByteArr 4032} (hpriv : ks.keyAPriv = some priv) {kb : KeyB} (hkb : kb ∈ ks.keyBs.rows) :
    ¬Published L draw junk timeslot guard ks (fun _ => none) := by
  intro h
  obtain ⟨value, hbuilt, _⟩ := buildGuardRecord_unreadable hload (draw kb.id).guardEnv kb.kem.pub priv timeslot guard
  have hfound := (lookupReturns_iff hload).mp (h.guard priv hpriv kb hkb _ value hbuilt)
  cases hfound

/-- Publishing leaves every router as it was. So the records are in the router after it, whatever was there before, exactly if there
is nothing to publish. -/
theorem published_iff (L : Dht.Library Sig) (hload : Loads L.load) (draw : Bytes → PublishDraw) (junk timeslot : UInt64) (guard : GuardInfo)
    (ks : PublishKeys) :
    (∀ store, publishDhtRecords L draw junk timeslot guard ks true store = store) ∧
      ((∀ store, Published L draw junk timeslot guard ks (publishDhtRecords L draw junk timeslot guard ks true store)) ↔
        ks.keyAPriv = none ∨ ks.keyBs.rows = []) := by
  refine ⟨publishDhtRecords_eq hload true, ?_⟩
  constructor
  · intro h
    have hempty := h (fun _ => none)
    rw [publishDhtRecords_eq hload] at hempty
    by_contra hsome
    obtain ⟨hpriv, hrows⟩ := not_or.mp hsome
    obtain ⟨priv, hpriv⟩ := Option.ne_none_iff_exists'.mp hpriv
    obtain ⟨kb, hkb⟩ := List.exists_mem_of_ne_nil _ hrows
    exact not_published_empty hload hpriv hkb hempty
  · intro h store
    exact published_of_nothing h

end Publish

/-- A keystore with a Key A and one Key B, which has one prekey. -/
def oneKeyB : PublishKeys where
  keyAPriv := some (Dht.sampleLibrary.dsa.keygen (fit 32 [1])).priv
  keyBs := ⟨[⟨ascii "b1", ascii "cr", ⟨fit 1184 [3], fit 2400 [4]⟩, Dht.sampleLibrary.dsa.keygen (fit 32 [2]), 80⟩], List.nodup_singleton _⟩
  prekeys := ⟨[⟨ascii "d1", ascii "b1", fit 1184 [7], false⟩], List.nodup_singleton _⟩

def sampleDraw (_ : Bytes) : PublishDraw := ⟨⟨90, fit 12 [4], fit 32 [5]⟩, 1, fit 32 [6], 90, 2⟩

theorem published_iff_noKeyB : Published Dht.sampleLibrary sampleDraw 0 50 sampleInfo { oneKeyB with keyBs := .empty }
    (publishDhtRecords Dht.sampleLibrary sampleDraw 0 50 sampleInfo { oneKeyB with keyBs := .empty } true (fun _ => none)) :=
  (published_iff Dht.sampleLibrary load_loads sampleDraw 0 50 sampleInfo { oneKeyB with keyBs := .empty }).2.mpr (Or.inr rfl) (fun _ => none)

/-- A router that has nothing has nothing after the call either. -/
theorem not_published_oneKeyB : ¬Published Dht.sampleLibrary sampleDraw 0 50 sampleInfo oneKeyB
    (publishDhtRecords Dht.sampleLibrary sampleDraw 0 50 sampleInfo oneKeyB true (fun _ => none)) := by
  rw [publishDhtRecords_eq load_loads]
  exact not_published_empty load_loads rfl (List.mem_singleton.mpr rfl)

end ScatterWeb.Client
