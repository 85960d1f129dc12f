import ScatterWeb.Client.Contacts
import ScatterWeb.Inbox.Model
import ScatterWeb.Ipc.Call

/-! # The allowlist of the inbox

`push_sender_allowlist` sends the ids of the active contacts as maps with byte strings under `"allowed_senders"`. The inbox asks for
texts under `"sender_ids"` and answers with an error, which the Client drops. `decline_contact_request` and `block_contact` push
nothing. So the allowlist is never written, and it is right only as long as the active contacts are those it has. -/
namespace ScatterWeb.Client
open Crypto Lib Lib.Cbor Lib.SortedMap Ratchet Mailbox Ipc.CborValue
set_option autoImplicit false

/-- The client and its inbox. -/
structure Linked where
  client : ClientState
  inbox : Inbox.InboxStore

/-- The inbox while it answers a call, and the id of the request. -/
structure Answer where
  env : Inbox.Env
  id : UInt64
  junk : UInt64
  dbError : Bytes

def senderEntry (senderId : Bytes) : Ipc.CborMap := Ipc.CborMap.empty.set "sender_id" (.bytes senderId) (keyed_bytes _)

def allowlistParams (senders : List Bytes) : Ipc.CborMap :=
  Ipc.CborMap.empty.set "allowed_senders" (.array (senders.map (fun sid => .map (senderEntry sid).entries))) (keyed_array (by
    intro x hx
    obtain ⟨sid, _, rfl⟩ := List.mem_map.mp hx
    exact (senderEntry sid).keyed))

section Link
variable (load : Bytes → Option Item) (sha3 : Bytes → ByteArr 32)

/-- `push_sender_allowlist` up to the inbox. -/
def pushAllowlist (a : Answer) (l : Linked) : Linked :=
  { l with inbox := (Ipc.call load (Ipc.itemHandler a.dbError (Inbox.handle a.env)) a.junk l.inbox
      ⟨a.id, ascii "client", ascii "inbox.update_sender_allowlist", allowlistParams (pushSenderAllowlist sha3 l.client)⟩).1 }

inductive StatusOp
  | accept (a : Answer) (contactId : Bytes)
  | decline (contactId : Bytes)
  | block (contactId : Bytes)

def nextLinked (l : Linked) : StatusOp → Linked
  | .accept a contactId =>
    match acceptContactRequest sha3 l.client contactId with
    | .error _ => l
    | .ok (c, _) => pushAllowlist load sha3 a ⟨c, l.inbox⟩
  | .decline contactId => ⟨declineContactRequest l.client contactId, l.inbox⟩
  | .block contactId => ⟨blockContact l.client contactId, l.inbox⟩

/-- The operation returns without an exception. -/
def Returns (l : Linked) : StatusOp → Prop
  | .accept _ contactId => ∃ r, acceptContactRequest sha3 l.client contactId = .ok r
  | _ => True

/-- The id of a contact is that of its key, and no two contacts have the same. -/
structure ContactTable (c : ClientState) : Prop where
  ids : ∀ k ∈ c.contacts, k.id = bytesToHex (sha3 k.keyAPubkey).toList
  nodup : (c.contacts.map Contact.id).Nodup

def Active (c : ClientState) (id : Bytes) : Prop :=
  ∃ k ∈ c.contacts, k.status = ascii "active" ∧ id = bytesToHex (sha3 k.keyAPubkey).toList

/-- The inbox lets in exactly the active contacts. -/
def InSync (l : Linked) : Prop := ∀ id, l.inbox.isAllowedSender id = true ↔ Active sha3 l.client id

/-- The operation makes nobody active, and nobody who is active stops to be so. -/
def LeavesActive (l : Linked) : StatusOp → Prop
  | .accept _ contactId => ∀ k ∈ l.client.contacts, k.id = contactId → k.status ≠ ascii "pending"
  | .decline contactId | .block contactId => ∀ k ∈ l.client.contacts, k.id = contactId → k.status ≠ ascii "active"

variable {load sha3} {l : Linked}

/-! ## The push -/

theorem keysNulFree_allowlistParams (senders : List Bytes) : (allowlistParams senders).KeysNulFree :=
  Ipc.CborMap.keysNulFree_empty.set (by decide +kernel) _ _

theorem updateSenderAllowlist_params (s : Inbox.InboxStore) (senders : List Bytes) :
    Inbox.updateSenderAllowlist s (Ipc.pairsToItems (allowlistParams senders).received.entries) =
      .error (.runtime (ascii "sender_ids must be an array")) := by
  have hfind : CborMap.find (Ipc.pairsToItems (allowlistParams senders).received.entries) "sender_ids" = none := by
    rw [Ipc.find_received_items (keysNulFree_allowlistParams senders)]
    simp [allowlistParams]
  unfold Inbox.updateSenderAllowlist
  rw [hfind]

/-- The inbox stays as it was. -/
theorem pushAllowlist_eq (hload : Loads load) (a : Answer) (l : Linked) : pushAllowlist load sha3 a l = l := by
  have hhandle : Inbox.handle a.env l.inbox "inbox.update_sender_allowlist"
      (Ipc.pairsToItems (allowlistParams (pushSenderAllowlist sha3 l.client)).received.entries) =
        .error (.runtime (ascii "sender_ids must be an array")) := by
    rw [← updateSenderAllowlist_params l.inbox (pushSenderAllowlist sha3 l.client)]
    simp [Inbox.handle]
  unfold pushAllowlist
  rw [Ipc.call_items_of_error hload (by decide +kernel) hhandle]

/-! ## The operations -/

theorem ContactTable.setStatus {c : ClientState} (h : ContactTable sha3 c) (id status : Bytes) :
    ContactTable sha3 { c with contacts := setContactStatus c.contacts id status } := by
  have hkeep : ∀ k : Contact, (if k.id = id then { k with status := status } else k).id = k.id := by
    intro k
    by_cases hk : k.id = id
    · simp [hk]
    · simp [hk]
  constructor
  · intro k hk
    obtain ⟨hold, _⟩ | ⟨k', hk', _, rfl⟩ := mem_setContactStatus hk
    · exact h.ids k hold
    · exact h.ids k' hk'
  · have hids : (setContactStatus c.contacts id status).map Contact.id = c.contacts.map Contact.id := by
      simp [setContactStatus, hkeep]
    dsimp only
    rw [hids]
    exact h.nodup

theorem ContactTable.step (hload : Loads load) (h : ContactTable sha3 l.client) (op : StatusOp) :
    ContactTable sha3 (nextLinked load sha3 l op).client := by
  cases op with
  | accept a contactId =>
    unfold nextLinked
    dsimp only
    cases hr : acceptContactRequest sha3 l.client contactId with
    | error e => exact h
    | ok r =>
      dsimp only
      rw [pushAllowlist_eq hload, (acceptContactRequest_ok hr).2.1]
      exact h.setStatus contactId (ascii "active")
  | decline contactId => exact h.setStatus contactId (ascii "blocked")
  | block contactId => exact h.setStatus contactId (ascii "blocked")

/-- One contact for one id. -/
theorem ContactTable.eq_of_id {c : ClientState} (h : ContactTable sha3 c) {k k' : Contact} (hk : k ∈ c.contacts) (hk' : k' ∈ c.contacts)
    (hid : k.id = k'.id) : k = k' := List.inj_on_of_nodup_map h.nodup hk hk' hid

/-- Who is accepted is active, and was not before. -/
theorem accepted_not_active (htable : ContactTable sha3 l.client) {contactId : Bytes} {r : ClientState × List Bytes × Push}
    (hr : acceptContactRequest sha3 l.client contactId = .ok r) : Active sha3 r.1 contactId ∧ ¬Active sha3 l.client contactId := by
  obtain ⟨⟨k, hk, hid, hpending⟩, hstate, _⟩ := acceptContactRequest_ok hr
  constructor
  · rw [hstate]
    refine ⟨{ k with status := ascii "active" }, List.mem_map.mpr ⟨k, hk, if_pos hid⟩, rfl, ?_⟩
    rw [← hid]
    exact htable.ids k hk
  · intro ⟨k', hk', hactive, hhash⟩
    have hsame : k = k' := htable.eq_of_id hk hk' (by rw [hid, hhash, htable.ids k' hk'])
    rw [hsame, hactive] at hpending
    exact absurd hpending (by decide +kernel)

theorem active_blocked (c : ClientState) (contactId id : Bytes) :
    Active sha3 { c with contacts := setContactStatus c.contacts contactId (ascii "blocked") } id ↔
      ∃ k ∈ c.contacts, k.id ≠ contactId ∧ k.status = ascii "active" ∧ id = bytesToHex (sha3 k.keyAPubkey).toList := by
  have hne : ascii "blocked" ≠ ascii "active" := by decide +kernel
  constructor
  · intro ⟨k, hk, hactive, hhash⟩
    obtain ⟨hold, hid⟩ | ⟨k', _, _, rfl⟩ := mem_setContactStatus hk
    · exact ⟨k, hold, hid, hactive, hhash⟩
    · exact absurd hactive hne
  · intro ⟨k, hk, hid, hactive, hhash⟩
    exact ⟨k, List.mem_map.mpr ⟨k, hk, if_neg hid⟩, hactive, hhash⟩

/-- Blocking keeps the inbox in step exactly if no active contact is blocked. -/
theorem InSync.block_iff (h : InSync sha3 l) (htable : ContactTable sha3 l.client) (contactId : Bytes) :
    InSync sha3 ⟨{ l.client with contacts := setContactStatus l.client.contacts contactId (ascii "blocked") }, l.inbox⟩ ↔
      ∀ k ∈ l.client.contacts, k.id = contactId → k.status ≠ ascii "active" := by
  constructor
  · intro hafter k hk hid hactive
    have hbefore : Active sha3 l.client contactId := ⟨k, hk, hactive, by rw [← hid, htable.ids k hk]⟩
    have hstill := (hafter contactId).mp ((h contactId).mpr hbefore)
    obtain ⟨k', hk', hother, _, hhash⟩ := (active_blocked _ _ _).mp hstill
    exact hother (by rw [htable.ids k' hk', hhash])
  · intro hnone id
    refine (h id).trans (Iff.trans ?_ (active_blocked _ _ _).symm)
    constructor
    · intro ⟨k, hk, hactive, hhash⟩
      exact ⟨k, hk, fun hid => hnone k hk hid hactive, hactive, hhash⟩
    · intro ⟨k, hk, _, hactive, hhash⟩
      exact ⟨k, hk, hactive, hhash⟩

theorem accept_returns_iff (htable : ContactTable sha3 l.client) {contactId : Bytes} :
    (∃ r, acceptContactRequest sha3 l.client contactId = .ok r) ↔ ∃ k ∈ l.client.contacts, k.id = contactId ∧ k.status = ascii "pending" := by
  constructor
  · intro ⟨r, hr⟩
    exact (acceptContactRequest_ok hr).1
  · intro ⟨k, hk, hid, hpending⟩
    have hfind : getContact l.client contactId = some k := by
      cases hf : getContact l.client contactId with
      | none =>
        have hne := List.find?_eq_none.mp hf k hk
        simp [hid] at hne
      | some k' =>
        have hid' : k'.id = contactId := by simpa using List.find?_some hf
        rw [htable.eq_of_id (List.mem_of_find?_eq_some hf) hk (hid'.trans hid.symm)]
    unfold acceptContactRequest
    rw [hfind]
    dsimp only
    rw [if_neg (not_not.mpr hpending)]
    exact ⟨_, rfl⟩

/-- What an operation has to be for the inbox to stay in step. -/
theorem InSync.step_iff (hload : Loads load) (h : InSync sha3 l) (htable : ContactTable sha3 l.client) (op : StatusOp) :
    (Returns sha3 l op → InSync sha3 (nextLinked load sha3 l op)) ↔ LeavesActive l op := by
  cases op with
  | accept a contactId =>
    have hreturns : Returns sha3 l (.accept a contactId) ↔ ¬LeavesActive l (.accept a contactId) := by
      simp [Returns, LeavesActive, accept_returns_iff htable]
    constructor
    · intro hsync
      by_contra hpending
      obtain ⟨r, hr⟩ := hreturns.mpr hpending
      obtain ⟨hnow, hbefore⟩ := accepted_not_active htable hr
      have hafter := hsync ⟨r, hr⟩
      unfold nextLinked at hafter
      dsimp only at hafter
      rw [hr] at hafter
      dsimp only at hafter
      rw [pushAllowlist_eq hload] at hafter
      exact hbefore ((h contactId).mp ((hafter contactId).mpr hnow))
    · intro hleaves hr
      exact absurd hleaves (hreturns.mp hr)
  | decline contactId =>
    rw [← show _ ↔ LeavesActive l (.decline contactId) from h.block_iff htable contactId]
    exact ⟨fun hsync => hsync trivial, fun hsync _ => hsync⟩
  | block contactId =>
    rw [← show _ ↔ LeavesActive l (.block contactId) from h.block_iff htable contactId]
    exact ⟨fun hsync => hsync trivial, fun hsync _ => hsync⟩

/-- Where the operation throws, nothing changes. -/
theorem InSync.next (h : InSync sha3 l) (op : StatusOp) (hstep : Returns sha3 l op → InSync sha3 (nextLinked load sha3 l op)) :
    InSync sha3 (nextLinked load sha3 l op) := by
  cases op with
  | accept a contactId =>
    cases hr : acceptContactRequest sha3 l.client contactId with
    | error e =>
      unfold nextLinked
      dsimp only
      rw [hr]
      exact h
    | ok r => exact hstep ⟨r, hr⟩
  | decline contactId => exact hstep trivial
  | block contactId => exact hstep trivial

end Link

/-- The inbox is in step with the contacts after a push and after all operations that follow exactly if it was so before the push and
no operation changes who is active. -/
theorem allowlist_inSync_iff (load : Bytes → Option Item) (hload : Loads load) (sha3 : Bytes → ByteArr 32) (l : Linked)
    (htable : ContactTable sha3 l.client) (a : Answer) (ops : List StatusOp) :
    (InSync sha3 (pushAllowlist load sha3 a l) ∧
      Along (nextLinked load sha3) (fun l op => Returns sha3 l op → InSync sha3 (nextLinked load sha3 l op)) (pushAllowlist load sha3 a l) ops) ↔
    InSync sha3 l ∧ Along (nextLinked load sha3) LeavesActive l ops := by
  rw [pushAllowlist_eq hload]
  refine and_congr_right ?_
  intro hsync
  refine along_iff (fun l => InSync sha3 l ∧ ContactTable sha3 l.client) ?_ ?_ ⟨hsync, htable⟩ ops
  · intro l op h
    exact h.1.step_iff hload h.2 op
  · intro l op h hstep
    exact ⟨h.1.next op hstep, h.2.step hload op⟩

def anAnswer : Answer := ⟨⟨0, 0, fun _ => none, []⟩, 1, 0, []⟩

/-- A client with one contact, and an inbox that has heard of nobody. -/
def newLink (status : String) : Linked :=
  ⟨⟨⟨[], []⟩, [⟨bytesToHex (fit 32 [1]).toList, ascii "Alice", [1], ascii status⟩], [], {}⟩, .empty⟩

theorem contactTable_newLink (status : String) : ContactTable (fit 32) (newLink status).client := by
  refine ⟨?_, List.nodup_singleton _⟩
  intro k hk
  rw [List.mem_singleton.mp hk]

theorem inSync_newLink : InSync (fit 32) (newLink "pending") := by
  intro id
  constructor
  · intro h
    cases h
  · intro ⟨k, hk, hactive, _⟩
    rw [List.mem_singleton.mp hk] at hactive
    exact absurd hactive (by decide +kernel)

/-- A request is declined that was never accepted. -/
theorem allowlist_inSync_iff_declined : Along (nextLinked Cbor.load (fit 32)) (fun l op => Returns (fit 32) l op →
    InSync (fit 32) (nextLinked Cbor.load (fit 32) l op)) (pushAllowlist Cbor.load (fit 32) anAnswer (newLink "pending"))
      [.decline (bytesToHex (fit 32 [1]).toList)] := by
  refine ((allowlist_inSync_iff Cbor.load load_loads (fit 32) (newLink "pending") (contactTable_newLink _) anAnswer
    [.decline (bytesToHex (fit 32 [1]).toList)]).mpr ⟨inSync_newLink, ?_, trivial⟩).2
  intro k hk _
  rw [List.mem_singleton.mp hk]
  decide +kernel

/-- Alice is accepted, and the inbox does not let her in. -/
theorem not_allowlist_inSync_accepted : ¬(InSync (fit 32) (pushAllowlist Cbor.load (fit 32) anAnswer (newLink "pending")) ∧
    Along (nextLinked Cbor.load (fit 32)) (fun l op => Returns (fit 32) l op → InSync (fit 32) (nextLinked Cbor.load (fit 32) l op))
      (pushAllowlist Cbor.load (fit 32) anAnswer (newLink "pending")) [.accept anAnswer (bytesToHex (fit 32 [1]).toList)]) := by
  rw [pushAllowlist_eq load_loads]
  intro ⟨hsync, hstep, _⟩
  have hleaves := (hsync.step_iff load_loads (contactTable_newLink _) _).mp hstep
  exact hleaves _ (List.mem_singleton.mpr rfl) rfl rfl

end ScatterWeb.Client
