import Mathlib.Data.List.TakeWhile
import ScatterWeb.Ipc.Codec

/-! # What arrives

`received v` is the value on the other side: every string and every key is cut at its first NUL, and keys that become equal by that
fall together. So a message arrives as it was sent exactly if it has no NUL in a string or a key. A non-negative signed integer
arrives as the equal unsigned one; `norm` identifies the two. -/
namespace ScatterWeb.Ipc
open Crypto Lib Lib.Cbor Lib.SortedMap Client
set_option autoImplicit false

namespace CborValue

mutual

def norm : CborValue → CborValue
  | .int i => if 0 ≤ i then .uint i.toUInt64 else .int i
  | .array xs => .array (normAll xs)
  | .map m => .map (normPairs m)
  | v => v

def normAll : List CborValue → List CborValue
  | [] => []
  | x :: xs => x.norm :: normAll xs

def normPairs : List (Bytes × CborValue) → List (Bytes × CborValue)
  | [] => []
  | (k, v) :: m => (k, v.norm) :: normPairs m

end

mutual

def NulFree : CborValue → Prop
  | .string s => 0 ∉ s
  | .array xs => NulFreeAll xs
  | .map m => NulFreePairs m
  | _ => True

def NulFreeAll : List CborValue → Prop
  | [] => True
  | x :: xs => x.NulFree ∧ NulFreeAll xs

def NulFreePairs : List (Bytes × CborValue) → Prop
  | [] => True
  | (k, v) :: m => 0 ∉ k ∧ v.NulFree ∧ NulFreePairs m

end

mutual

def received : CborValue → CborValue
  | .int i => if 0 ≤ i then .uint i.toUInt64 else .int i
  | .string s => .string (cStr s)
  | .array xs => .array (receivedAll xs)
  | .map m => .map (putAll (receivedPairs m) [])
  | v => v

def receivedAll : List CborValue → List CborValue
  | [] => []
  | x :: xs => x.received :: receivedAll xs

/-- The pairs as they are read, before they are put in a map. -/
def receivedPairs : List (Bytes × CborValue) → List (Bytes × CborValue)
  | [] => []
  | (k, v) :: m => (cStr k, v.received) :: receivedPairs m

end

/-! ## The value that is read -/

mutual

theorem itemToValue_valueToItem (v : CborValue) : itemToValue (valueToItem v) = .ok v.received := by
  match v with
  | .null => simp [valueToItem, Item.null, itemToValue, received]
  | .bool b => cases b <;> simp [valueToItem, Item.bool, itemToValue, received]
  | .uint u => simp [valueToItem, itemToValue, Arg.toNat, received]
  | .int i =>
    by_cases hi : 0 ≤ i
    · simp [valueToItem, hi, itemToValue, Arg.toNat, received]
    · have hback : -1 - (-1 - i) = i := by grind
      simp [valueToItem, hi, itemToValue, Arg.toNat, received, hback]
  | .string s => simp [valueToItem, itemToValue, received]
  | .bytes b => simp [valueToItem, itemToValue, received]
  | .array xs =>
    rw [valueToItem, itemToValue, itemsToValues_valuesToItems xs, received]
    rfl
  | .map m =>
    rw [valueToItem, itemToValue, pairsToValues_pairsToItems m [], received]
    rfl

theorem itemsToValues_valuesToItems (xs : List CborValue) : itemsToValues (valuesToItems xs) = .ok (receivedAll xs) := by
  match xs with
  | [] => rfl
  | x :: xs =>
    rw [valuesToItems, itemsToValues, itemToValue_valueToItem x, itemsToValues_valuesToItems xs, receivedAll]
    rfl

theorem pairsToValues_pairsToItems (m acc : List (Bytes × CborValue)) :
    pairsToValues (pairsToItems m) acc = .ok (putAll (receivedPairs m) acc) := by
  match m with
  | [] => rfl
  | (k, v) :: m =>
    rw [pairsToItems, pairsToValues, itemToValue_valueToItem v, ok_bind, pairsToValues_pairsToItems m, receivedPairs]
    rfl

end

/-! ## When it is the value that was sent -/

theorem zero_notMem_cStr (b : Bytes) : 0 ∉ cStr b := by
  intro h
  have hne := List.mem_takeWhile_imp h
  simp at hne

theorem cStr_eq_self_iff {b : Bytes} : cStr b = b ↔ 0 ∉ b := by
  refine ⟨?_, cStr_of_nulFree⟩
  intro h
  rw [← h]
  exact zero_notMem_cStr b

theorem keys_normPairs (m : List (Bytes × CborValue)) : (normPairs m).map Prod.fst = m.map Prod.fst := by
  induction m with
  | nil => rfl
  | cons e m ih => simp [normPairs, ih]

theorem keys_receivedPairs (m : List (Bytes × CborValue)) : (receivedPairs m).map Prod.fst = m.map (fun e => cStr e.1) := by
  induction m with
  | nil => rfl
  | cons e m ih => simp [receivedPairs, ih]

theorem putAll_receivedPairs {m : List (Bytes × CborValue)} (hsorted : Sorted m) (hkeys : ∀ e ∈ m, 0 ∉ e.1) :
    putAll (receivedPairs m) [] = receivedPairs m := by
  refine putAll_of_sorted ?_
  have hsame : (receivedPairs m).map Prod.fst = m.map Prod.fst := by
    rw [keys_receivedPairs]
    exact List.map_congr_left (fun e he => cStr_of_nulFree (hkeys e he))
  rw [List.nil_append, Sorted, hsame]
  exact hsorted

/-- A key that comes back is the C string of some key. -/
theorem nulFree_keys_of_received {m : List (Bytes × CborValue)} (h : normPairs (putAll (receivedPairs m) []) = normPairs m) :
    ∀ e ∈ m, 0 ∉ e.1 := by
  intro e he
  have hkeys : (putAll (receivedPairs m) []).map Prod.fst = m.map Prod.fst := by
    rw [← keys_normPairs, h, keys_normPairs]
  have hmem : e.1 ∈ (putAll (receivedPairs m) []).map Prod.fst := hkeys ▸ List.mem_map_of_mem he
  obtain ⟨e', he', hkey⟩ := List.mem_map.mp hmem
  obtain hread | hnil := mem_putAll he'
  · have hcut : e'.1 ∈ m.map (fun e => cStr e.1) := keys_receivedPairs m ▸ List.mem_map_of_mem hread
    obtain ⟨e'', _, heq⟩ := List.mem_map.mp hcut
    rw [← hkey, ← heq]
    exact zero_notMem_cStr e''.1
  · cases hnil

theorem nulFreePairs_keys {m : List (Bytes × CborValue)} (h : NulFreePairs m) : ∀ e ∈ m, 0 ∉ e.1 := by
  induction m with
  | nil => simp
  | cons e m ih =>
    obtain ⟨hk, _, hrest⟩ := h
    simpa using ⟨hk, fun k v => ih hrest (k, v)⟩

mutual

theorem norm_received_iff (v : CborValue) (hv : v.Keyed) : v.received.norm = v.norm ↔ v.NulFree := by
  match v with
  | .null | .bool _ | .uint _ | .bytes _ => simp [received, norm, NulFree]
  | .int i =>
    by_cases hi : 0 ≤ i
    · simp [received, norm, NulFree, hi]
    · simp [received, norm, NulFree, hi]
  | .string s => simpa [received, norm, NulFree] using cStr_eq_self_iff
  | .array xs => simpa [received, norm, NulFree] using normAll_received_iff xs hv
  | .map m =>
    obtain ⟨hsorted, hpairs⟩ := hv
    have hiff := normPairs_received_iff m hpairs
    simp only [received, norm, NulFree, map.injEq]
    constructor
    · intro h
      rw [putAll_receivedPairs hsorted (nulFree_keys_of_received h)] at h
      exact hiff.mp h
    · intro h
      rw [putAll_receivedPairs hsorted (nulFreePairs_keys h)]
      exact hiff.mpr h

theorem normAll_received_iff (xs : List CborValue) (hxs : KeyedAll xs) : normAll (receivedAll xs) = normAll xs ↔ NulFreeAll xs := by
  match xs with
  | [] => simp [receivedAll, NulFreeAll]
  | x :: xs =>
    have hx := norm_received_iff x hxs.1
    have hrest := normAll_received_iff xs hxs.2
    simp [receivedAll, normAll, NulFreeAll, hx, hrest]

/-- Pair by pair, with the keys. -/
theorem normPairs_received_iff (m : List (Bytes × CborValue)) (hm : KeyedPairs m) :
    normPairs (receivedPairs m) = normPairs m ↔ NulFreePairs m := by
  match m with
  | [] => simp [receivedPairs, NulFreePairs]
  | (k, v) :: m =>
    have hv := norm_received_iff v hm.1
    have hrest := normPairs_received_iff m hm.2
    simp [receivedPairs, normPairs, NulFreePairs, hv, hrest, cStr_eq_self_iff, and_assoc]

end

end CborValue

/-! ## Messages -/

open CborValue

def CborMap.Same (m m' : CborMap) : Prop := normPairs m.entries = normPairs m'.entries

structure Request.Same (r r' : Request) : Prop where
  id : r.id = r'.id
  caller : r.caller = r'.caller
  method : r.method = r'.method
  params : r.params.Same r'.params

/-- The result counts if the response is a good one, and the error if it is not. -/
structure Response.Same (s s' : Response) : Prop where
  id : s.id = s'.id
  ok : s.ok = s'.ok
  result : s'.ok = true → s.result.Same s'.result
  error : s'.ok = false → s.error = s'.error

structure Push.Same (p p' : Push) : Prop where
  event : p.event = p'.event
  payload : p.payload.Same p'.payload

def CborMap.NulFree (m : CborMap) : Prop := (CborValue.map m.entries).NulFree

def Request.NulFree (r : Request) : Prop := 0 ∉ r.caller ∧ 0 ∉ r.method ∧ r.params.NulFree

def Response.NulFree (s : Response) : Prop := (s.ok = true → s.result.NulFree) ∧ (s.ok = false → 0 ∉ s.error.message)

def Push.NulFree (p : Push) : Prop := 0 ∉ p.event ∧ p.payload.NulFree

namespace CborMap

def received (m : CborMap) : CborMap where
  entries := putAll (receivedPairs m.entries) []
  keyed := keyed_of_pairsToValues (pairsToValues_pairsToItems m.entries []) empty.keyed

theorem received_same_iff (m : CborMap) : m.received.Same m ↔ m.NulFree := by
  have h := norm_received_iff (.map m.entries) m.keyed
  rw [CborValue.received, CborValue.norm, CborValue.norm, map.injEq] at h
  exact h

theorem parseTopMap_encode {load : Bytes → Option Item} (hload : Loads load) (m : CborMap) :
    parseTopMap load (encode (mapToItem m)) = .ok m.received := by
  unfold parseTopMap
  rw [hload.load_encode, mapToItem]
  dsimp only
  unfold topMap
  split
  · rename_i entries h
    rw [pairsToValues_pairsToItems] at h
    cases h
    rfl
  · rename_i e h
    rw [pairsToValues_pairsToItems] at h
    cases h

/-! ### What is found -/

@[simp] theorem find_empty (k : String) : empty.find k = none := rfl

@[simp] theorem find_set (m : CborMap) (k : String) (v : CborValue) (h : v.Keyed) (k' : String) :
    (m.set k v h).find k' = if k = k' then some v else m.find k' := by
  unfold find set
  dsimp only
  rw [find_put]
  by_cases hk : k = k'
  · simp [hk]
  · rw [if_neg hk, if_neg (fun h => hk (ascii_inj.mp h))]

def KeysNulFree (m : CborMap) : Prop := ∀ e ∈ m.entries, 0 ∉ e.1

theorem keysNulFree_empty : empty.KeysNulFree := by
  intro e he
  cases he

theorem KeysNulFree.set {m : CborMap} (hm : m.KeysNulFree) {k : String} (hk : 0 ∉ ascii k) (v : CborValue) (h : v.Keyed) :
    (m.set k v h).KeysNulFree := by
  intro e he
  obtain rfl | hold := mem_put he
  · exact hk
  · exact hm e hold

theorem find_receivedPairs {m : List (Bytes × CborValue)} (hkeys : ∀ e ∈ m, 0 ∉ e.1) (k : Bytes) :
    ((receivedPairs m).find? (fun e => decide (e.1 = k))).map Prod.snd =
      ((m.find? (fun e => decide (e.1 = k))).map Prod.snd).map CborValue.received := by
  induction m with
  | nil => rfl
  | cons e m ih =>
    obtain ⟨k', v⟩ := e
    have hk' : cStr k' = k' := cStr_of_nulFree (hkeys _ List.mem_cons_self)
    rw [receivedPairs, hk']
    by_cases h : k' = k
    · simp [h]
    · simpa [List.find?_cons, h] using ih (fun e he => hkeys e (List.mem_cons_of_mem _ he))

theorem find_received {m : CborMap} (hkeys : m.KeysNulFree) (k : String) : m.received.find k = (m.find k).map CborValue.received := by
  unfold find received
  dsimp only
  rw [putAll_receivedPairs m.keyed.1 hkeys, find_receivedPairs hkeys]

theorem findMap_of_find {m m' : CborMap} {k : String} (h : m.find k = some (.map m'.entries)) : m.findMap k = m' := by
  unfold findMap
  split
  · rename_i entries hfind
    rw [h] at hfind
    cases hfind
    rfl
  · rename_i hne
    exact absurd h (hne _)

theorem findMap_received {m m' : CborMap} (hkeys : m.KeysNulFree) {k : String} (h : m.find k = some (.map m'.entries)) :
    m.received.findMap k = m'.received := by
  refine findMap_of_find ?_
  rw [find_received hkeys, h, Option.map_some, CborValue.received]
  rfl

end CborMap

theorem keysNulFree_requestMap (r : Request) : (requestMap r).KeysNulFree := by
  unfold requestMap
  refine CborMap.KeysNulFree.set (CborMap.KeysNulFree.set (CborMap.KeysNulFree.set (CborMap.KeysNulFree.set CborMap.keysNulFree_empty ?_ _ _)
    ?_ _ _) ?_ _ _) ?_ _ _
  all_goals decide +kernel

theorem keysNulFree_faultMap (f : IpcFault) : (faultMap f).KeysNulFree := by
  unfold faultMap
  refine CborMap.KeysNulFree.set (CborMap.KeysNulFree.set CborMap.keysNulFree_empty ?_ _ _) ?_ _ _
  all_goals decide +kernel

theorem keysNulFree_responseMap (s : Response) : (responseMap s).KeysNulFree := by
  unfold responseMap
  dsimp only
  split
  · refine CborMap.KeysNulFree.set (CborMap.KeysNulFree.set (CborMap.KeysNulFree.set CborMap.keysNulFree_empty ?_ _ _) ?_ _ _) ?_ _ _
    all_goals decide +kernel
  · refine CborMap.KeysNulFree.set (CborMap.KeysNulFree.set (CborMap.KeysNulFree.set CborMap.keysNulFree_empty ?_ _ _) ?_ _ _) ?_ _ _
    all_goals decide +kernel

theorem keysNulFree_pushMap (p : Push) : (pushMap p).KeysNulFree := by
  unfold pushMap
  refine CborMap.KeysNulFree.set (CborMap.KeysNulFree.set CborMap.keysNulFree_empty ?_ _ _) ?_ _ _
  all_goals decide +kernel

section Messages
variable {load : Bytes → Option Item}

theorem decodeRequest_encodeRequest (hload : Loads load) (r : Request) :
    decodeRequest load (encodeRequest r) = .ok ⟨r.id, cStr r.caller, cStr r.method, r.params.received⟩ := by
  have hfind := CborMap.find_received (keysNulFree_requestMap r)
  have hparams : (requestMap r).received.findMap "params" = r.params.received :=
    CborMap.findMap_received (keysNulFree_requestMap r) (by simp [requestMap])
  unfold decodeRequest encodeRequest
  rw [CborMap.parseTopMap_encode hload, ok_bind, hparams]
  simp only [requireUint, requireString, hfind]
  simp [requestMap, CborValue.received, ok_bind]

theorem decodePush_encodePush (hload : Loads load) (p : Push) :
    decodePush load (encodePush p) = .ok ⟨cStr p.event, p.payload.received⟩ := by
  have hfind := CborMap.find_received (keysNulFree_pushMap p)
  have hpayload : (pushMap p).received.findMap "payload" = p.payload.received :=
    CborMap.findMap_received (keysNulFree_pushMap p) (by simp [pushMap])
  unfold decodePush encodePush
  rw [CborMap.parseTopMap_encode hload, ok_bind, hpayload]
  simp only [requireString, hfind]
  simp [pushMap, CborValue.received, ok_bind]

theorem readFault_faultMap (f : IpcFault) : readFault (faultMap f).received = ⟨f.code, cStr f.message⟩ := by
  have hfind := CborMap.find_received (keysNulFree_faultMap f)
  simp only [readFault, hfind]
  simp [faultMap, CborValue.received]

theorem decodeResponse_encodeResponse (hload : Loads load) (s : Response) :
    decodeResponse load (encodeResponse s) =
      .ok (if s.ok then ⟨s.id, true, s.result.received, ⟨0, []⟩⟩ else ⟨s.id, false, .empty, ⟨s.error.code, cStr s.error.message⟩⟩) := by
  have hkeys := keysNulFree_responseMap s
  have hfind := CborMap.find_received hkeys
  unfold decodeResponse encodeResponse
  rw [CborMap.parseTopMap_encode hload, ok_bind]
  cases hok : s.ok with
  | true =>
    have hresult : (responseMap s).received.findMap "result" = s.result.received :=
      CborMap.findMap_received hkeys (by simp [responseMap, hok])
    rw [hresult]
    simp only [requireUint, hfind]
    simp [responseMap, hok, CborValue.received, ok_bind]
  | false =>
    have herror : (responseMap s).received.findMap "error" = (faultMap s.error).received :=
      CborMap.findMap_received hkeys (by simp [responseMap, hok])
    rw [herror, readFault_faultMap]
    simp only [requireUint, hfind]
    simp [responseMap, hok, CborValue.received, ok_bind]

/-! ### What is detected -/

theorem detect_encodeRequest (hload : Loads load) (r : Request) : detect load (encodeRequest r) = .request := by
  have hfind := CborMap.find_received (keysNulFree_requestMap r)
  unfold detect encodeRequest
  rw [CborMap.parseTopMap_encode hload]
  simp only [hfind]
  simp [requestMap]

theorem detect_encodeResponse (hload : Loads load) (s : Response) : detect load (encodeResponse s) = .response := by
  have hfind := CborMap.find_received (keysNulFree_responseMap s)
  unfold detect encodeResponse
  rw [CborMap.parseTopMap_encode hload]
  simp only [hfind]
  cases hok : s.ok with
  | true => simp [responseMap, hok]
  | false => simp [responseMap, hok]

theorem detect_encodePush (hload : Loads load) (p : Push) : detect load (encodePush p) = .push := by
  have hfind := CborMap.find_received (keysNulFree_pushMap p)
  unfold detect encodePush
  rw [CborMap.parseTopMap_encode hload]
  simp only [hfind]
  simp [pushMap]

/-! ### Which messages come back -/

inductive Message
  | request (r : Request)
  | response (s : Response)
  | push (p : Push)

namespace Message

def kind : Message → MsgType
  | request _ => .request
  | response _ => .response
  | push _ => .push

def encode : Message → Bytes
  | request r => encodeRequest r
  | response s => encodeResponse s
  | push p => encodePush p

/-- The decoder for the kind of message gives it back. -/
def ComesBack (load : Bytes → Option Item) : Message → Prop
  | request r => ∃ r', decodeRequest load (encodeRequest r) = .ok r' ∧ r'.Same r
  | response s => ∃ s', decodeResponse load (encodeResponse s) = .ok s' ∧ s'.Same s
  | push p => ∃ p', decodePush load (encodePush p) = .ok p' ∧ p'.Same p

def NulFree : Message → Prop
  | request r => r.NulFree
  | response s => s.NulFree
  | push p => p.NulFree

theorem request_comesBack_iff (hload : Loads load) (r : Request) : (request r).ComesBack load ↔ r.NulFree := by
  rw [ComesBack, decodeRequest_encodeRequest hload]
  constructor
  · intro ⟨r', hr', hsame⟩
    cases hr'
    exact ⟨cStr_eq_self_iff.mp hsame.caller, cStr_eq_self_iff.mp hsame.method, r.params.received_same_iff.mp hsame.params⟩
  · intro ⟨hcaller, hmethod, hparams⟩
    exact ⟨_, rfl, rfl, cStr_eq_self_iff.mpr hcaller, cStr_eq_self_iff.mpr hmethod, r.params.received_same_iff.mpr hparams⟩

theorem response_comesBack_iff (hload : Loads load) (s : Response) : (response s).ComesBack load ↔ s.NulFree := by
  rw [ComesBack, decodeResponse_encodeResponse hload]
  obtain ⟨id, ok, result, error⟩ := s
  cases ok with
  | true =>
    constructor
    · intro ⟨s', hs', hsame⟩
      cases hs'
      exact ⟨fun _ => result.received_same_iff.mp (hsame.result rfl), fun h => Bool.noConfusion h⟩
    · intro ⟨hresult, _⟩
      exact ⟨_, rfl, rfl, rfl, fun _ => result.received_same_iff.mpr (hresult rfl), fun h => Bool.noConfusion h⟩
  | false =>
    constructor
    · intro ⟨s', hs', hsame⟩
      cases hs'
      have hmessage : cStr error.message = error.message := congrArg IpcFault.message (hsame.error rfl)
      exact ⟨fun h => Bool.noConfusion h, fun _ => cStr_eq_self_iff.mp hmessage⟩
    · intro ⟨_, hmessage⟩
      have herror : (⟨error.code, cStr error.message⟩ : IpcFault) = error := by rw [cStr_eq_self_iff.mpr (hmessage rfl)]
      exact ⟨_, rfl, rfl, rfl, fun h => Bool.noConfusion h, fun _ => herror⟩

theorem push_comesBack_iff (hload : Loads load) (p : Push) : (push p).ComesBack load ↔ p.NulFree := by
  rw [ComesBack, decodePush_encodePush hload]
  constructor
  · intro ⟨p', hp', hsame⟩
    cases hp'
    exact ⟨cStr_eq_self_iff.mp hsame.event, p.payload.received_same_iff.mp hsame.payload⟩
  · intro ⟨hevent, hpayload⟩
    exact ⟨_, rfl, cStr_eq_self_iff.mpr hevent, p.payload.received_same_iff.mpr hpayload⟩

end Message

/-- Every message is detected as what it is, and it comes back exactly if none of its strings and keys, at any depth, has a NUL. -/
theorem message_comesBack_iff (load : Bytes → Option Item) (hload : Loads load) (msg : Message) :
    detect load msg.encode = msg.kind ∧ (msg.ComesBack load ↔ msg.NulFree) := by
  cases msg with
  | request r => exact ⟨detect_encodeRequest hload r, Message.request_comesBack_iff hload r⟩
  | response s => exact ⟨detect_encodeResponse hload s, Message.response_comesBack_iff hload s⟩
  | push p => exact ⟨detect_encodePush hload p, Message.push_comesBack_iff hload p⟩

/-- The push for a message that was edited; the new text is as the application frame has it. -/
def editedPush (newText : Bytes) : Push where
  event := ascii "message.edited"
  payload :=
    let ev := CborMap.empty.set "conversation_id" (.string (ascii "c1")) (keyed_string _)
    let ev := ev.set "message_id" (.string (ascii "m1")) (keyed_string _)
    ev.set "new_text" (.string newText) (keyed_string _)

theorem editedPush_entries (newText : Bytes) : (editedPush newText).payload.entries =
    [(ascii "conversation_id", .string (ascii "c1")), (ascii "message_id", .string (ascii "m1")), (ascii "new_text", .string newText)] := by
  have hmessage : ascii "conversation_id" < ascii "message_id" := by decide +kernel
  have htext : ascii "message_id" < ascii "new_text" := by decide +kernel
  have hfirst := hmessage.trans htext
  simp [editedPush, CborMap.set, CborMap.empty, put, hmessage.asymm, hmessage.ne', htext.asymm, htext.ne', hfirst.asymm, hfirst.ne']

theorem message_comesBack_iff_edited : (Message.push (editedPush (ascii "hello"))).ComesBack Cbor.load := by
  refine (message_comesBack_iff Cbor.load load_loads (.push (editedPush (ascii "hello")))).2.mpr ⟨by decide +kernel, ?_⟩
  rw [CborMap.NulFree, editedPush_entries]
  simp only [CborValue.NulFree, NulFreePairs]
  decide +kernel

/-- The text comes back without what follows the NUL. -/
theorem not_comesBack_edited : ¬(Message.push (editedPush [65, 0, 66])).ComesBack Cbor.load := by
  rw [Message.push_comesBack_iff load_loads]
  intro ⟨_, h⟩
  rw [CborMap.NulFree, editedPush_entries] at h
  simp [CborValue.NulFree, NulFreePairs] at h

end Messages

end ScatterWeb.Ipc
