import ScatterWeb.Client.Fields
import ScatterWeb.Ratchet.Model

/-! # Ratchet states as bytes

`serialize` puts a state into a CBOR map, `deserialize` reads one back. The map has room for twelve pairs, and the
skipped keys are the thirteenth, so they are not among the bytes. `cbor_load` is a parameter. -/
namespace ScatterWeb.Ratchet
open Crypto Lib Lib.Cbor Client
set_option autoImplicit false

/-! ## Writing -/

def skippedPair (packed : UInt64) (mk : ByteArr 32) : Item := .array [.uint (.a64 packed), .bytes mk.toList]

def stateMap (s : State wire) : DefMap :=
  let root := DefMap.new 12
  let root := mapAddBytes root "root_key" s.rootKey.toList
  let root := mapAddBytes root "send_chain" s.sendChainKey.toList
  let root := mapAddBytes root "recv_chain" s.recvChainKey.toList
  let root := mapAddUint root "send_epoch" s.sendEpoch.toUInt64
  let root := mapAddUint root "recv_epoch" s.recvEpoch.toUInt64
  let root := mapAddUint root "send_msg_num" s.sendMsgNum.toUInt64
  let root := mapAddUint root "recv_msg_num" s.recvMsgNum.toUInt64
  let root := mapAddUint root "prev_send_count" s.prevSendCount.toUInt64
  let root := root.add (.text (ascii "need_kem_step")) (.bool s.needKemStep)
  let root := mapAddBytes root "my_ratchet_pub" s.myRatchetKem.pub.toList
  let root := mapAddBytes root "my_ratchet_priv" s.myRatchetKem.priv.toList
  let root := mapAddBytes root "peer_ratchet_pub" s.peerRatchetPub.toList
  root.add (.text (ascii "skipped_keys")) (.array (s.skippedKeys.entries.map (fun e => skippedPair e.1 e.2)))

def serialize (s : State wire) : Bytes := cborSer (stateMap s)

/-! ## Reading -/

inductive PersistError
  | parse
  | notMap
  | missing (key : String)
  | notBytes (key : String)
  | wrongSize (key : String)
  /-- `cbor_get_uint64` or `cbor_bytestring_length` of an item of another type: undefined. -/
  | wrongType
  deriving DecidableEq

def PersistError.what : PersistError → String
  | .parse => "ratchet::deserialize: CBOR parse error"
  | .notMap => "ratchet::deserialize: expected map"
  | .missing key => "missing key: " ++ key
  | .notBytes key => "expected bstr for " ++ key
  | .wrongSize key => "wrong size for " ++ key
  | .wrongType => ""

section Reading
variable (kvs : List (Item × Item))

def firstField (key : String) : Option Item := (kvs.find? (fun kv => textKey kv.1 key)).map Prod.snd

def getBstr (key : String) (expected : ℕ) : Except PersistError (ByteArr expected) :=
  match firstField kvs key with
  | none => .error (.missing key)
  | some (.bytes b) => if h : b.length = expected then .ok ⟨b, h⟩ else .error (.wrongSize key)
  | some _ => .error (.notBytes key)

def getUint (key : String) : Except PersistError UInt64 :=
  match firstField kvs key with
  | none => .error (.missing key)
  | some (.uint (.a64 n)) => .ok n
  | some _ => .error .wrongType

def getBool (key : String) : Except PersistError Bool :=
  match firstField kvs key with
  | none => .error (.missing key)
  | some (.prim (.bool b)) => .ok b
  | some _ => .ok false

/-- A pair that is too short or has a key of another length is passed over. -/
def readSkippedPair (keys : AList (fun _ : UInt64 => ByteArr 32)) : Item → Except PersistError (AList (fun _ : UInt64 => ByteArr 32))
  | .array (.uint (.a64 packed) :: .bytes b :: _) => if h : b.length = 32 then .ok (keys.insert packed ⟨b, h⟩) else .ok keys
  | .array (_ :: _ :: _) => .error .wrongType
  | _ => .ok keys

def readSkippedKeys : Except PersistError (AList (fun _ : UInt64 => ByteArr 32)) :=
  match firstField kvs "skipped_keys" with
  | some (.array pairs) => pairs.foldlM readSkippedPair ∅
  | _ => .ok ∅

def readState : Except PersistError (State wire) := do
  let rootKey ← getBstr kvs "root_key" 32
  let sendChainKey ← getBstr kvs "send_chain" 32
  let recvChainKey ← getBstr kvs "recv_chain" 32
  let sendEpoch ← getUint kvs "send_epoch"
  let recvEpoch ← getUint kvs "recv_epoch"
  let sendMsgNum ← getUint kvs "send_msg_num"
  let recvMsgNum ← getUint kvs "recv_msg_num"
  let prevSendCount ← getUint kvs "prev_send_count"
  let needKemStep ← getBool kvs "need_kem_step"
  let pub ← getBstr kvs "my_ratchet_pub" 1184
  let priv ← getBstr kvs "my_ratchet_priv" 2400
  let peerRatchetPub ← getBstr kvs "peer_ratchet_pub" 1184
  let skippedKeys ← readSkippedKeys kvs
  return ⟨rootKey, sendChainKey, recvChainKey, sendEpoch.toUInt32, recvEpoch.toUInt32, sendMsgNum.toUInt32, recvMsgNum.toUInt32,
    prevSendCount.toUInt32, needKemStep, ⟨pub, priv⟩, peerRatchetPub, skippedKeys⟩

end Reading

def deserialize (load : Bytes → Option Item) (data : Bytes) : Except PersistError (State wire) :=
  match load data with
  | none => .error .parse
  | some (.map kvs) => readState kvs
  | some _ => .error .notMap

/-! ## What comes back -/

theorem stateMap_pairs (s : State wire) : (stateMap s).pairs =
    [(.text (ascii "root_key"), .bytes s.rootKey.toList), (.text (ascii "send_chain"), .bytes s.sendChainKey.toList),
      (.text (ascii "recv_chain"), .bytes s.recvChainKey.toList), (.text (ascii "send_epoch"), .uint (.a64 s.sendEpoch.toUInt64)),
      (.text (ascii "recv_epoch"), .uint (.a64 s.recvEpoch.toUInt64)),
      (.text (ascii "send_msg_num"), .uint (.a64 s.sendMsgNum.toUInt64)),
      (.text (ascii "recv_msg_num"), .uint (.a64 s.recvMsgNum.toUInt64)),
      (.text (ascii "prev_send_count"), .uint (.a64 s.prevSendCount.toUInt64)),
      (.text (ascii "need_kem_step"), .bool s.needKemStep), (.text (ascii "my_ratchet_pub"), .bytes s.myRatchetKem.pub.toList),
      (.text (ascii "my_ratchet_priv"), .bytes s.myRatchetKem.priv.toList),
      (.text (ascii "peer_ratchet_pub"), .bytes s.peerRatchetPub.toList)] := by
  simp [stateMap, mapAddUint, mapAddBytes, DefMap.add_pairs]

theorem firstField_nil (key : String) : firstField [] key = none := rfl

theorem firstField_cons (k key : String) (v : Item) (rest : List (Item × Item)) :
    firstField ((.text (ascii k), v) :: rest) key = if k = key then some v else firstField rest key := by
  unfold firstField
  rw [List.find?_cons, textKey_ascii]
  by_cases h : k = key
  · simp [h]
  · simp [h]

section Fields
variable (kvs : List (Item × Item)) (key : String)

theorem getBstr_of_field {n : ℕ} (v : ByteArr n) (h : firstField kvs key = some (.bytes v.toList)) : getBstr kvs key n = .ok v := by
  unfold getBstr
  rw [h]
  dsimp only
  rw [dif_pos v.toList_length]
  rfl

theorem getUint_of_field (n : UInt64) (h : firstField kvs key = some (.uint (.a64 n))) : getUint kvs key = .ok n := by
  unfold getUint
  rw [h]

theorem getBool_of_field (b : Bool) (h : firstField kvs key = some (.bool b)) : getBool kvs key = .ok b := by
  unfold getBool
  rw [h]
  cases b <;> rfl

end Fields

theorem readState_stateMap (s : State wire) : readState (stateMap s).pairs = .ok { s with skippedKeys := ∅ } := by
  have hpairs := stateMap_pairs s
  have hroot := getBstr_of_field (stateMap s).pairs "root_key" s.rootKey (by simp [hpairs, firstField_cons])
  have hsend := getBstr_of_field (stateMap s).pairs "send_chain" s.sendChainKey (by simp [hpairs, firstField_cons])
  have hrecv := getBstr_of_field (stateMap s).pairs "recv_chain" s.recvChainKey (by simp [hpairs, firstField_cons])
  have hpub := getBstr_of_field (stateMap s).pairs "my_ratchet_pub" s.myRatchetKem.pub (by simp [hpairs, firstField_cons])
  have hpriv := getBstr_of_field (stateMap s).pairs "my_ratchet_priv" s.myRatchetKem.priv (by simp [hpairs, firstField_cons])
  have hpeer := getBstr_of_field (stateMap s).pairs "peer_ratchet_pub" s.peerRatchetPub (by simp [hpairs, firstField_cons])
  have hse := getUint_of_field (stateMap s).pairs "send_epoch" s.sendEpoch.toUInt64 (by simp [hpairs, firstField_cons])
  have hre := getUint_of_field (stateMap s).pairs "recv_epoch" s.recvEpoch.toUInt64 (by simp [hpairs, firstField_cons])
  have hsn := getUint_of_field (stateMap s).pairs "send_msg_num" s.sendMsgNum.toUInt64 (by simp [hpairs, firstField_cons])
  have hrn := getUint_of_field (stateMap s).pairs "recv_msg_num" s.recvMsgNum.toUInt64 (by simp [hpairs, firstField_cons])
  have hpc := getUint_of_field (stateMap s).pairs "prev_send_count" s.prevSendCount.toUInt64 (by simp [hpairs, firstField_cons])
  have hneed := getBool_of_field (stateMap s).pairs "need_kem_step" s.needKemStep (by simp [hpairs, firstField_cons])
  have hskip : readSkippedKeys (stateMap s).pairs = .ok ∅ := by
    unfold readSkippedKeys
    simp [hpairs, firstField_cons, firstField_nil]
  unfold readState
  rw [hroot, hsend, hrecv, hse, hre, hsn, hrn, hpc, hneed, hpub, hpriv, hpeer, hskip]
  show (Except.ok ⟨s.rootKey, s.sendChainKey, s.recvChainKey, s.sendEpoch.toUInt64.toUInt32, s.recvEpoch.toUInt64.toUInt32,
    s.sendMsgNum.toUInt64.toUInt32, s.recvMsgNum.toUInt64.toUInt32, s.prevSendCount.toUInt64.toUInt32, s.needKemStep, s.myRatchetKem,
    s.peerRatchetPub, ∅⟩ : Except PersistError (State wire)) = _
  rw [UInt32.toUInt32_toUInt64, UInt32.toUInt32_toUInt64, UInt32.toUInt32_toUInt64, UInt32.toUInt32_toUInt64,
    UInt32.toUInt32_toUInt64]

/-- The skipped keys are lost, and nothing else. -/
theorem deserialize_serialize {load : Bytes → Option Item} (hload : Loads load) (s : State wire) :
    deserialize load (serialize s) = .ok { s with skippedKeys := ∅ } := by
  have hmap : load (serialize s) = some (.map (stateMap s).pairs) := hload.load_encode _
  unfold deserialize
  rw [hmap]
  exact readState_stateMap s

/-- A state comes back as it was exactly when no message key is waiting for a late message. -/
theorem deserialize_serialize_iff {load : Bytes → Option Item} (hload : Loads load) (s : State wire) :
    deserialize load (serialize s) = .ok s ↔ s.skippedKeys = ∅ := by
  rw [deserialize_serialize hload]
  constructor
  · intro h
    have hkeys := congrArg State.skippedKeys (Except.ok.inj h)
    exact hkeys.symm
  · intro h
    rw [← h]

/-- Nothing was skipped yet. -/
def blankState : State wire where
  rootKey := fit 32 [1]
  sendChainKey := fit 32 [2]
  recvChainKey := fit 32 [3]
  sendEpoch := 1
  recvEpoch := 2
  sendMsgNum := 3
  recvMsgNum := 4
  prevSendCount := 5
  needKemStep := true
  myRatchetKem := ⟨fit 1184 [6], fit 2400 [7]⟩
  peerRatchetPub := fit 1184 [8]
  skippedKeys := ∅

theorem deserialize_serialize_iff_blankState : deserialize load (serialize blankState) = .ok blankState ↔ blankState.skippedKeys = ∅ :=
  deserialize_serialize_iff load_loads blankState

/-- One message was passed over, and its key is kept. -/
def waitingState : State wire := { blankState with skippedKeys := AList.singleton (skipKey 2 3) (fit 32 [9]) }

def Persistent (load : Bytes → Option Item) : Prop := ∀ s : State wire, deserialize load (serialize s) = .ok s

theorem not_persistent_waitingState : ¬ Persistent load := by
  intro h
  have hs := h waitingState
  rw [deserialize_serialize load_loads] at hs
  have hkeys := congrArg (fun s => s.skippedKeys.entries.length) (Except.ok.inj hs)
  exact absurd hkeys (by decide)

end ScatterWeb.Ratchet
