import ScatterWeb.Client.Fields
import ScatterWeb.Lib.SortedMap
import ScatterWeb.Lib.Validate

/-! # The IPC codec

Requests, responses and pushes between the daemons are CBOR maps of dynamic values, `codec.cpp`. A `CborMap` is a `std::map`: its keys
are in the order of their bytes, each once, at every depth. Strings and keys are handed to libcbor as C strings and read back with
their lengths; `cbor_load` is a parameter of the functions that read. -/
namespace ScatterWeb.Ipc
open Crypto Lib Lib.Cbor Lib.SortedMap Client
set_option autoImplicit false

inductive CborValue
  | null
  | bool (b : Bool)
  | uint (u : UInt64)
  | int (i : Int64)
  | string (s : Bytes)
  | bytes (b : Bytes)
  | array (xs : List CborValue)
  | map (m : List (Bytes × CborValue))

namespace CborValue

mutual

/-- Every map in the value has its keys in order. -/
def Keyed : CborValue → Prop
  | .array xs => KeyedAll xs
  | .map m => Sorted m ∧ KeyedPairs m
  | _ => True

def KeyedAll : List CborValue → Prop
  | [] => True
  | x :: xs => x.Keyed ∧ KeyedAll xs

def KeyedPairs : List (Bytes × CborValue) → Prop
  | [] => True
  | (_, v) :: m => v.Keyed ∧ KeyedPairs m

end

theorem keyedPairs_iff {m : List (Bytes × CborValue)} : KeyedPairs m ↔ ∀ e ∈ m, e.2.Keyed := by
  induction m with
  | nil => simp [KeyedPairs]
  | cons e m ih => simp [KeyedPairs, ih]

theorem keyed_array {xs : List CborValue} (h : ∀ x ∈ xs, x.Keyed) : (array xs).Keyed := by
  rw [Keyed]
  induction xs with
  | nil => simp [KeyedAll]
  | cons x xs ih => exact ⟨h x List.mem_cons_self, ih (fun x hx => h x (List.mem_cons_of_mem _ hx))⟩

theorem keyed_bool (b : Bool) : (bool b).Keyed := trivial

theorem keyed_uint (u : UInt64) : (uint u).Keyed := trivial

theorem keyed_string (s : Bytes) : (string s).Keyed := trivial

theorem keyed_bytes (b : Bytes) : (bytes b).Keyed := trivial

end CborValue

open CborValue

structure CborMap where
  entries : List (Bytes × CborValue)
  keyed : (CborValue.map entries).Keyed

namespace CborMap

@[ext] theorem ext {m m' : CborMap} (h : m.entries = m'.entries) : m = m' := by
  cases m
  cases m'
  cases h
  rfl

def empty : CborMap := ⟨[], by simp [Keyed, KeyedPairs, Sorted]⟩

/-- `map[key] = value`. -/
def set (m : CborMap) (k : String) (v : CborValue) (h : v.Keyed) : CborMap where
  entries := put (ascii k) v m.entries
  keyed := by
    obtain ⟨hsorted, hpairs⟩ := m.keyed
    refine ⟨hsorted.put _ _, keyedPairs_iff.mpr ?_⟩
    intro e he
    rcases mem_put he with rfl | hold
    · exact h
    · exact keyedPairs_iff.mp hpairs e hold

def find (m : CborMap) (k : String) : Option CborValue := (m.entries.find? (fun e => e.1 = ascii k)).map Prod.snd

theorem keyed_of_find {m : CborMap} {k : String} {v : CborValue} (h : m.find k = some v) : v.Keyed := by
  obtain ⟨e, he, rfl⟩ := Option.map_eq_some_iff.mp h
  exact keyedPairs_iff.mp m.keyed.2 e (List.mem_of_find?_eq_some he)

/-- `it->second.as_map()` if the key is there with a map, and the empty map if not. -/
def findMap (m : CborMap) (k : String) : CborMap :=
  match h : m.find k with
  | some (.map entries) => ⟨entries, keyed_of_find h⟩
  | _ => empty

end CborMap

/-! ## Items and values -/

mutual

def valueToItem : CborValue → Item
  | .null => .null
  | .bool b => .bool b
  | .uint u => .uint (.a64 u)
  | .int i => if 0 ≤ i then .uint (.a64 i.toUInt64) else .negint (.a64 (-1 - i).toUInt64)
  | .string s => .text (cStr s)
  | .bytes b => .bytes b
  | .array xs => .array (valuesToItems xs)
  | .map m => .map (pairsToItems m)

def valuesToItems : List CborValue → List Item
  | [] => []
  | x :: xs => valueToItem x :: valuesToItems xs

def pairsToItems : List (Bytes × CborValue) → List (Item × Item)
  | [] => []
  | (k, v) :: m => (.text (cStr k), valueToItem v) :: pairsToItems m

end

mutual

def itemToValue : Item → Except String CborValue
  | .uint a => .ok (.uint (UInt64.ofNat a.toNat))
  | .negint a => .ok (.int (-1 - (UInt64.ofNat a.toNat).toInt64))
  | .bytes b => .ok (.bytes b)
  | .text b => .ok (.string b)
  | .array xs => do
    let arr ← itemsToValues xs
    .ok (.array arr)
  | .map kvs => do
    let m ← pairsToValues kvs []
    .ok (.map m)
  | .tag _ _ => .error "Unsupported CBOR type"
  | .prim (.bool b) => .ok (.bool b)
  | .prim .null => .ok .null
  | .prim _ => .error "Unsupported CBOR type"

def itemsToValues : List Item → Except String (List CborValue)
  | [] => .ok []
  | x :: xs => do
    let v ← itemToValue x
    let vs ← itemsToValues xs
    .ok (v :: vs)

/-- The loop over the pairs of a map, with the map filled so far. -/
def pairsToValues : List (Item × Item) → List (Bytes × CborValue) → Except String (List (Bytes × CborValue))
  | [], acc => .ok acc
  | (.text k, v) :: kvs, acc => do
    let v ← itemToValue v
    pairsToValues kvs (put k v acc)
  | _ :: _, _ => .error "CBOR map key must be text string"

end

theorem pairsToValues_cons {e : Item × Item} {kvs : List (Item × Item)} {acc m : List (Bytes × CborValue)}
    (h : pairsToValues (e :: kvs) acc = .ok m) :
    ∃ k v, e.1 = .text k ∧ itemToValue e.2 = .ok v ∧ pairsToValues kvs (put k v acc) = .ok m := by
  obtain ⟨key, i⟩ := e
  cases key with
  | text k =>
    obtain ⟨v, hv, hrest⟩ := bind_eq_ok.mp h
    exact ⟨k, v, rfl, hv, hrest⟩
  | uint _ | negint _ | bytes _ | array _ | map _ | tag _ _ | prim _ => cases h

mutual

theorem keyed_of_itemToValue {i : Item} {v : CborValue} (h : itemToValue i = .ok v) : v.Keyed := by
  match i with
  | .uint a | .negint a | .bytes b | .text b =>
    cases h
    trivial
  | .array xs =>
    obtain ⟨arr, harr, hv⟩ := bind_eq_ok.mp h
    cases hv
    exact keyedAll_of_itemsToValues harr
  | .map kvs =>
    obtain ⟨m, hm, hv⟩ := bind_eq_ok.mp h
    cases hv
    exact keyed_of_pairsToValues hm ⟨List.Pairwise.nil, trivial⟩
  | .tag n i => cases h
  | .prim (.bool b) =>
    cases h
    trivial
  | .prim .null =>
    cases h
    trivial
  | .prim .undefined | .prim (.float16 _) | .prim (.float32 _) | .prim (.float64 _) => cases h

theorem keyedAll_of_itemsToValues {xs : List Item} {vs : List CborValue} (h : itemsToValues xs = .ok vs) : KeyedAll vs := by
  match xs with
  | [] =>
    cases h
    trivial
  | x :: xs =>
    obtain ⟨v, hv, hrest⟩ := bind_eq_ok.mp h
    obtain ⟨rest, hvs, hcons⟩ := bind_eq_ok.mp hrest
    cases hcons
    exact ⟨keyed_of_itemToValue hv, keyedAll_of_itemsToValues hvs⟩

theorem keyed_of_pairsToValues {kvs : List (Item × Item)} {acc m : List (Bytes × CborValue)} (h : pairsToValues kvs acc = .ok m)
    (hacc : (CborValue.map acc).Keyed) : (CborValue.map m).Keyed := by
  match kvs with
  | [] =>
    cases h
    exact hacc
  | (key, i) :: kvs =>
    obtain ⟨k, v, _, hv, hrest⟩ := pairsToValues_cons h
    have hkeyed := keyed_of_itemToValue hv
    refine keyed_of_pairsToValues hrest ⟨hacc.1.put k v, keyedPairs_iff.mpr ?_⟩
    intro e he
    rcases mem_put he with rfl | hold
    · exact hkeyed
    · exact keyedPairs_iff.mp hacc.2 e hold

end

/-! ## Messages -/

structure Request where
  id : UInt64
  caller : Bytes
  method : Bytes
  params : CborMap

structure IpcFault where
  code : Int32
  message : Bytes
  deriving DecidableEq

structure Response where
  id : UInt64
  ok : Bool
  result : CborMap
  error : IpcFault

structure Push where
  event : Bytes
  payload : CborMap

def mapToItem (m : CborMap) : Item := .map (pairsToItems m.entries)

def requestMap (req : Request) : CborMap :=
  let m := CborMap.empty.set "id" (.uint req.id) (keyed_uint _)
  let m := m.set "caller" (.string req.caller) (keyed_string _)
  let m := m.set "method" (.string req.method) (keyed_string _)
  m.set "params" (.map req.params.entries) req.params.keyed

def encodeRequest (req : Request) : Bytes := encode (mapToItem (requestMap req))

/-- The code is an `int`, widened with its sign before it is taken as unsigned. -/
def faultMap (error : IpcFault) : CborMap :=
  let err := CborMap.empty.set "code" (.uint error.code.toInt64.toUInt64) (keyed_uint _)
  err.set "message" (.string error.message) (keyed_string _)

def responseMap (resp : Response) : CborMap :=
  let m := CborMap.empty.set "id" (.uint resp.id) (keyed_uint _)
  let m := m.set "ok" (.bool resp.ok) (keyed_bool _)
  if resp.ok then m.set "result" (.map resp.result.entries) resp.result.keyed
  else m.set "error" (.map (faultMap resp.error).entries) (faultMap resp.error).keyed

def encodeResponse (resp : Response) : Bytes := encode (mapToItem (responseMap resp))

def pushMap (push : Push) : CborMap :=
  let m := CborMap.empty.set "event" (.string push.event) (keyed_string _)
  m.set "payload" (.map push.payload.entries) push.payload.keyed

def encodePush (push : Push) : Bytes := encode (mapToItem (pushMap push))

section Decode
variable (load : Bytes → Option Item)

def topMap (kvs : List (Item × Item)) : Except String CborMap :=
  match h : pairsToValues kvs [] with
  | .ok m => .ok ⟨m, keyed_of_pairsToValues h ⟨List.Pairwise.nil, trivial⟩⟩
  | .error e => .error e

def parseTopMap (data : Bytes) : Except String CborMap :=
  match load data with
  | some (.map kvs) => topMap kvs
  | some _ => .error "Expected top-level CBOR map"
  | none => .error "CBOR parse error"

def requireString (m : CborMap) (key : String) : Except String Bytes :=
  match m.find key with
  | some (.string s) => .ok s
  | _ => .error ("Missing/invalid field: " ++ key)

def requireUint (m : CborMap) (key : String) : Except String UInt64 :=
  match m.find key with
  | some (.uint u) => .ok u
  | _ => .error ("Missing/invalid field: " ++ key)

inductive MsgType
  | request
  | response
  | push
  | unknown
  deriving DecidableEq

def detect (data : Bytes) : MsgType :=
  match parseTopMap load data with
  | .ok m =>
    if (m.find "method").isSome then .request
    else if (m.find "ok").isSome then .response
    else if (m.find "event").isSome then .push
    else .unknown
  | .error _ => .unknown

def decodeRequest (data : Bytes) : Except String Request := do
  let m ← parseTopMap load data
  let id ← requireUint m "id"
  let caller ← requireString m "caller"
  let method ← requireString m "method"
  .ok { id := id, caller := caller, method := method, params := m.findMap "params" }

/-- The fields of an error that are missing or of another type keep their defaults, 0 and the empty string. -/
def readFault (em : CborMap) : IpcFault where
  code := match em.find "code" with
    | some (.uint u) => u.toInt64.toInt32
    | some (.int i) => i.toInt32
    | _ => 0
  message := match em.find "message" with
    | some (.string s) => s
    | _ => []

def decodeResponse (data : Bytes) : Except String Response := do
  let m ← parseTopMap load data
  let id ← requireUint m "id"
  match m.find "ok" with
  | some (.bool true) => .ok { id := id, ok := true, result := m.findMap "result", error := ⟨0, []⟩ }
  | some (.bool false) => .ok { id := id, ok := false, result := .empty, error := readFault (m.findMap "error") }
  | _ => .error "Response missing 'ok' bool"

def decodePush (data : Bytes) : Except String Push := do
  let m ← parseTopMap load data
  let event ← requireString m "event"
  .ok { event := event, payload := m.findMap "payload" }

end Decode

end ScatterWeb.Ipc
