import ScatterWeb.Ipc.RoundTrip
import ScatterWeb.Mailbox.Frames

/-! # Calls

A call of `ipc::Client` that is answered: the request is encoded, the server decodes it and hands it to its handler, and the result
comes back in a response. A handler that throws leaves its state alone, and the caller gets an exception for it. The parameters
that a handler sees are those that were `received`. -/
namespace ScatterWeb.Ipc
open Crypto Lib Lib.Cbor Lib.SortedMap Client CborValue
set_option autoImplicit false

/-- Method, parameters and caller. The error is the text of the exception. -/
abbrev Handler (σ : Type) := σ → Bytes → CborMap → Bytes → Except Bytes (σ × CborMap)

section Calls
variable {σ : Type} (load : Bytes → Option Item) (handler : Handler σ)

/-- One turn of `conn_loop`. The id is not set where the request could not be decoded. -/
def connLoop (junk : UInt64) (s : σ) (payload : Bytes) : σ × Response :=
  match decodeRequest load payload with
  | .error what => (s, { id := junk, ok := false, result := .empty, error := ⟨500, ascii what⟩ })
  | .ok req =>
    match handler s req.method req.params req.caller with
    | .error what => (s, { id := req.id, ok := false, result := .empty, error := ⟨500, what⟩ })
    | .ok (s', result) => (s', { id := req.id, ok := true, result, error := ⟨0, []⟩ })

def callError (error : IpcFault) : Bytes := ascii ("IPC error " ++ toString error.code.toInt ++ ": ") ++ error.message

/-- `Client::call` with the response that the server gives. -/
def call (junk : UInt64) (s : σ) (req : Request) : σ × Except Bytes CborMap :=
  let (s', resp) := connLoop load handler junk s (encodeRequest req)
  match decodeResponse load (encodeResponse resp) with
  | .error what => (s', .error (ascii what))
  | .ok resp => if resp.ok then (s', .ok resp.result) else (s', .error (callError resp.error))

variable {load handler} {junk : UInt64} {s : σ}

/-! ### A turn of `conn_loop` with a request of the client -/

theorem connLoop_of_error (hload : Loads load) {req : Request} {what : Bytes}
    (h : handler s (cStr req.method) req.params.received (cStr req.caller) = .error what) :
    connLoop load handler junk s (encodeRequest req) = (s, ⟨req.id, false, .empty, ⟨500, what⟩⟩) := by
  unfold connLoop
  rw [decodeRequest_encodeRequest hload]
  dsimp only
  rw [h]

theorem connLoop_of_ok (hload : Loads load) {req : Request} {s' : σ} {result : CborMap}
    (h : handler s (cStr req.method) req.params.received (cStr req.caller) = .ok (s', result)) :
    connLoop load handler junk s (encodeRequest req) = (s', ⟨req.id, true, result, ⟨0, []⟩⟩) := by
  unfold connLoop
  rw [decodeRequest_encodeRequest hload]
  dsimp only
  rw [h]

/-! ### The whole call -/

theorem call_of_error (hload : Loads load) {req : Request} {what : Bytes}
    (h : handler s (cStr req.method) req.params.received (cStr req.caller) = .error what) :
    call load handler junk s req = (s, .error (callError ⟨500, cStr what⟩)) := by
  unfold call
  rw [connLoop_of_error hload h]
  dsimp only
  rw [decodeResponse_encodeResponse hload]
  rfl

theorem call_of_ok (hload : Loads load) {req : Request} {s' : σ} {result : CborMap}
    (h : handler s (cStr req.method) req.params.received (cStr req.caller) = .ok (s', result)) :
    call load handler junk s req = (s', .ok result.received) := by
  unfold call
  rw [connLoop_of_ok hload h]
  dsimp only
  rw [decodeResponse_encodeResponse hload]
  rfl

end Calls

/-! ## Handlers over items

The inbox and the outbox are modelled over the pairs of a loaded map, which are the entries of a `CborMap` as items. -/

/-- The method as a name; names that are not UTF-8 are no method's. -/
def nameOf (method : Bytes) : String := (String.fromUTF8? ⟨method.toArray⟩).getD ""

theorem nameOf_ascii (s : String) : nameOf (ascii s) = s := by
  have hbytes : (⟨(ascii s).toArray⟩ : ByteArray) = s.toUTF8 := by
    unfold ascii
    rw [Array.toArray_toList]
  unfold nameOf
  rw [hbytes, String.fromUTF8?, String.toUTF8_eq_toByteArray, dif_pos s.isValidUTF8]
  rfl

/-- The map that a handler returns. -/
def replyMap : Mailbox.Reply → CborMap
  | [] => .empty
  | (k, i) :: reply =>
    match h : itemToValue i with
    | .ok v => (replyMap reply).set k v (keyed_of_itemToValue h)
    | .error _ => replyMap reply

/-- `dbError` is the text of the exception for a violated constraint. -/
def itemHandler {σ : Type} (dbError : Bytes) (handle : σ → String → Mailbox.CborMap → Except Mailbox.IpcError (σ × Mailbox.Reply)) : Handler σ :=
  fun s method params _ =>
    match handle s (nameOf method) (pairsToItems params.entries) with
    | .error (.runtime what) => .error what
    | .error .constraint => .error dbError
    | .ok (s', reply) => .ok (s', replyMap reply)

/-! ### What a handler finds -/

theorem lastField_pairsToItems {entries : List (Bytes × CborValue)} (hsorted : Sorted entries) (hkeys : ∀ e ∈ entries, 0 ∉ e.1) (k : String) :
    Mailbox.lastField some (pairsToItems entries) k =
      ((entries.find? (fun e => decide (e.1 = ascii k))).map Prod.snd).map valueToItem := by
  -- no two pairs have the key, so the last one with it is the first one
  have hfold : ∀ (entries : List (Bytes × CborValue)) (cur : Option Item), Sorted entries → (∀ e ∈ entries, 0 ∉ e.1) →
      (pairsToItems entries).foldl (fun cur kv => if textKey kv.1 k then (some kv.2).or cur else cur) cur =
        (((entries.find? (fun e => decide (e.1 = ascii k))).map Prod.snd).map valueToItem).or cur := by
    intro entries
    induction entries with
    | nil => simp [pairsToItems]
    | cons e entries ih =>
      obtain ⟨k', v⟩ := e
      intro cur hsorted hkeys
      obtain ⟨hfirst, hrest⟩ := sorted_cons.mp hsorted
      have hk' : cStr k' = k' := cStr_of_nulFree (hkeys _ List.mem_cons_self)
      have hih := fun cur => ih cur hrest (fun e he => hkeys e (List.mem_cons_of_mem _ he))
      rw [pairsToItems, List.foldl_cons, hih, hk']
      by_cases heq : k' = ascii k
      · have hnone : entries.find? (fun e => decide (e.1 = ascii k)) = none := by
          rw [List.find?_eq_none]
          intro e he hfound
          have hlt := hfirst e he
          rw [of_decide_eq_true hfound, heq] at hlt
          exact lt_irrefl _ hlt
        simp [hnone, heq, textKey]
      · simp [heq, textKey]
  simpa [Mailbox.lastField, lastWith] using hfold entries none hsorted hkeys

theorem keysNulFree_received (m : CborMap) : m.received.KeysNulFree := by
  intro e he
  obtain hread | hnil := mem_putAll he
  · have hcut : e.1 ∈ m.entries.map (fun e => cStr e.1) := keys_receivedPairs m.entries ▸ List.mem_map_of_mem hread
    obtain ⟨e', _, heq⟩ := List.mem_map.mp hcut
    rw [← heq]
    exact zero_notMem_cStr e'.1
  · cases hnil

theorem find_pairsToItems {m : CborMap} (hkeys : m.KeysNulFree) (k : String) :
    Mailbox.CborMap.find (pairsToItems m.entries) k = (m.find k).map valueToItem :=
  lastField_pairsToItems m.keyed.1 hkeys k

/-- What a handler finds among the parameters of a request. -/
theorem find_received_items {m : CborMap} (hkeys : m.KeysNulFree) (k : String) :
    Mailbox.CborMap.find (pairsToItems m.received.entries) k = ((m.find k).map CborValue.received).map valueToItem := by
  rw [find_pairsToItems (keysNulFree_received m), CborMap.find_received hkeys]

/-- A request that a handler over items turns down. -/
theorem call_items_of_error {σ : Type} {load : Bytes → Option Item} (hload : Loads load) {dbError : Bytes}
    {handle : σ → String → Mailbox.CborMap → Except Mailbox.IpcError (σ × Mailbox.Reply)} {s : σ} {params : CborMap} {method : String}
    (hmethod : 0 ∉ ascii method) {what : Bytes} (h : handle s method (pairsToItems params.received.entries) = .error (.runtime what))
    (junk id : UInt64) (caller : Bytes) :
    call load (itemHandler dbError handle) junk s ⟨id, caller, ascii method, params⟩ = (s, .error (callError ⟨500, cStr what⟩)) := by
  refine call_of_error hload ?_
  dsimp only
  rw [cStr_of_nulFree hmethod, itemHandler, nameOf_ascii, h]

/-- A request that a handler over items answers. -/
theorem call_items_of_ok {σ : Type} {load : Bytes → Option Item} (hload : Loads load) {dbError : Bytes}
    {handle : σ → String → Mailbox.CborMap → Except Mailbox.IpcError (σ × Mailbox.Reply)} {s s' : σ} {params : CborMap} {method : String}
    (hmethod : 0 ∉ ascii method) {reply : Mailbox.Reply} (h : handle s method (pairsToItems params.received.entries) = .ok (s', reply))
    (junk id : UInt64) (caller : Bytes) :
    call load (itemHandler dbError handle) junk s ⟨id, caller, ascii method, params⟩ = (s', .ok (replyMap reply).received) := by
  refine call_of_ok hload ?_
  dsimp only
  rw [cStr_of_nulFree hmethod, itemHandler, nameOf_ascii, h]

/-- The elements of an array among the parameters. -/
theorem mem_received_array {xs : List CborValue} {i : Item} (h : i ∈ valuesToItems (receivedAll xs)) : ∃ x ∈ xs, i = valueToItem x.received := by
  induction xs with
  | nil => cases h
  | cons x xs ih =>
    rw [receivedAll, valuesToItems] at h
    obtain rfl | hrest := List.mem_cons.mp h
    · exact ⟨x, List.mem_cons_self, rfl⟩
    · obtain ⟨x', hx', hi⟩ := ih hrest
      exact ⟨x', List.mem_cons_of_mem _ hx', hi⟩

/-! ### What a caller finds -/

theorem keysNulFree_replyMap {reply : Mailbox.Reply} (h : ∀ e ∈ reply, 0 ∉ ascii e.1) : (replyMap reply).KeysNulFree := by
  induction reply with
  | nil => exact CborMap.keysNulFree_empty
  | cons e reply ih =>
    have hrest := ih (fun e he => h e (List.mem_cons_of_mem _ he))
    unfold replyMap
    split
    · exact hrest.set (h e List.mem_cons_self) _ _
    · exact hrest

theorem find_replyMap_none {reply : Mailbox.Reply} {k : String} (h : ∀ e ∈ reply, e.1 ≠ k) : (replyMap reply).find k = none := by
  induction reply with
  | nil => rfl
  | cons e reply ih =>
    have hrest := ih (fun e he => h e (List.mem_cons_of_mem _ he))
    unfold replyMap
    split
    · rw [CborMap.find_set, if_neg (h e List.mem_cons_self), hrest]
    · exact hrest

end ScatterWeb.Ipc
