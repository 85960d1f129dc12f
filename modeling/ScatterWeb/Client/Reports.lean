import ScatterWeb.AnonRouter.ChannelIds
import ScatterWeb.AnonRouter.Tft
import ScatterWeb.Client.Devices
import ScatterWeb.Client.DhtPub
import ScatterWeb.Client.Pending
import ScatterWeb.Outbox.Model

/-! # What a Client learns of its daemons

`get_guard_info` asks the inbox, which passes on the router's list of channels, where there is no guard. The statuses look for counts
under keys that the daemons do not use, but for the number of peers that the router knows. A call that throws leaves the defaults. -/
namespace ScatterWeb.Client.Reports
open Crypto Lib Lib.Cbor Mailbox Client AnonRouter Ipc.CborValue
set_option autoImplicit false

/-! ## The daemons -/

structure RouterView where
  channels : Channels
  tft : TftEngine
  roundNumber : UInt64

def stateText : ChannelState → String
  | .opening => "opening"
  | .opened => "open"
  | .upgrading => "upgrading"
  | .closed => "closed"

/-- A mode that a cell has brought need not be one of the three. -/
def modeText (mode : ChannelMode) : String :=
  if mode = .datagram then "datagram" else if mode = .message then "message" else if mode = .stream then "stream" else ""

def channelEntry (ci : ChannelInfo) : Ipc.CborMap :=
  let entry := Ipc.CborMap.empty.set "channel_id" (.string (chanIdHex ci.channelId)) (keyed_string _)
  let entry := entry.set "remote_pubkey" (.string (ascii ci.remotePubkeyHex)) (keyed_string _)
  let entry := entry.set "state" (.string (ascii (stateText ci.state))) (keyed_string _)
  entry.set "mode" (.string (ascii (modeText ci.mode))) (keyed_string _)

theorem keyed_entries {α : Type} (xs : List α) (f : α → Ipc.CborMap) : (Ipc.CborValue.array (xs.map (fun x => .map (f x).entries))).Keyed := by
  refine keyed_array ?_
  intro v hv
  obtain ⟨x, _, rfl⟩ := List.mem_map.mp hv
  exact (f x).keyed

def channelList (m : Channels) : Ipc.CborMap :=
  Ipc.CborMap.empty.set "channels" (.array (m.list.map (fun ci => .map (channelEntry ci).entries))) (keyed_entries _ _)

def peerEntry (c : ℤ ×ₗ Bytes) : Ipc.CborMap :=
  (Ipc.CborMap.empty.set "peer_id" (.string (ofLex c).2) (keyed_string _)).set "credits" (.int (Int64.ofInt (ofLex c).1)) trivial

/-- The first five of `top_peers` are those with the lowest credits. -/
def tftStatus (v : RouterView) : Ipc.CborMap :=
  let result := Ipc.CborMap.empty.set "known_peers" (.uint (UInt64.ofNat v.tft.ledger.rows.length)) (keyed_uint _)
  let result := result.set "unchoked_peer_count" (.uint (UInt64.ofNat v.tft.unchoked.card)) (keyed_uint _)
  let result := result.set "opt_unchoked_peer" (.string v.tft.optUnchoked) (keyed_string _)
  let result := result.set "round_number" (.uint v.roundNumber) (keyed_uint _)
  result.set "top_peers" (.array ((smallest 5 (v.tft.ledger.rows.map byCredit)).map (fun c => .map (peerEntry c).entries))) (keyed_entries _ _)

/-- The two methods of the router that report. -/
def handleReports : Ipc.Handler RouterView := fun v method _ _ =>
  if method = ascii "channel.list" then .ok (v, channelList v.channels)
  else if method = ascii "tft.status" then .ok (v, tftStatus v)
  else .error (ascii "unknown method: " ++ method)

section Daemons
variable (load : Bytes → Option Item) (a : Answer) (v : RouterView) (up : Bool)

/-- `Inbox::guard_info`; `up` says that the inbox is connected to the router, without which the call throws. -/
def guardInfo : Ipc.CborMap :=
  let unavailable := Ipc.CborMap.empty.set "error" (.string (ascii "anonrouter unavailable")) (keyed_string _)
  if up = false then unavailable
  else
    match (Ipc.call load handleReports a.junk v ⟨a.id, ascii "inbox", ascii "channel.list", .empty⟩).2 with
    | .ok channels => channels
    | .error _ => unavailable

/-- The inbox, with its call of the router. -/
def handleInbox : Ipc.Handler Inbox.InboxStore := fun s method params caller =>
  if method = ascii "inbox.guard_info" then .ok (s, guardInfo load a v up) else Ipc.itemHandler a.dbError (Inbox.handle a.env) s method params caller

/-- What the outbox does with a request that is worked off at once. -/
def handleOutbox (env : Outbox.Env) (s : Outbox.OutboxStore) (method : String) (p : CborMap) :
    Except IpcError (Outbox.OutboxStore × Mailbox.Reply) :=
  match Outbox.handle load env s method p with
  | .ok (.done s reply) => .ok (s, reply)
  | .ok (.started s _) => .ok (s, [])
  | .error e => .error e

end Daemons

/-! ## The Client -/

def textOf (r : Ipc.CborMap) (key : String) : Bytes :=
  match r.find key with
  | some (.string s) => s
  | _ => []

def blobOf (r : Ipc.CborMap) (key : String) : Bytes :=
  match r.find key with
  | some (.bytes b) => b
  | _ => []

/-- `result[to] = r[from]`, if it is an unsigned integer. -/
def copyUint (r : Ipc.CborMap) (source target : String) (result : Ipc.CborMap) : Ipc.CborMap :=
  match r.find source with
  | some (.uint u) => result.set target (.uint u) (keyed_uint u)
  | _ => result

section Client
variable (load : Bytes → Option Item) (a : Answer) (v : RouterView) (up : Bool) (inbox : Inbox.InboxStore) (connected : Bool)

def noGuard : GuardInfo := ⟨[], [], [], [], 0⟩

/-- The Key C of the first outbox that is not revoked. -/
def withOutboxKey (keyC : List KeyCIssued) (g : GuardInfo) : GuardInfo :=
  match keyC.find? (fun kc => decide (kc.deviceType = .outbox) && !kc.revoked) with
  | none => g
  | some kc => { g with outboxKeyCPubkey := kc.keyCPubkey.toList, outboxAuthExpiry := kc.expiresAt }

def getGuardInfo (keyC : List KeyCIssued) : GuardInfo :=
  if connected = false then noGuard
  else
    match (Ipc.call load (handleInbox load a v up) a.junk inbox ⟨a.id, ascii "client", ascii "inbox.guard_info", .empty⟩).2 with
    | .error _ => noGuard
    | .ok r => withOutboxKey keyC { noGuard with
        guardNodeId := textOf r "guard_node_id"
        guardEndpoint := textOf r "guard_endpoint"
        sessionToken := blobOf r "session_token" }

def networkStatus : Ipc.CborMap :=
  let result := Ipc.CborMap.empty.set "anonrouter_connected" (.bool connected) (keyed_bool _)
  let result := result.set "relay_count" (.uint 0) (keyed_uint _)
  let result := result.set "known_peers" (.uint 0) (keyed_uint _)
  let result := result.set "unchoked_peers" (.uint 0) (keyed_uint _)
  let result := result.set "net_credit_bytes" (.int 0) trivial
  result.set "dht_peers" (.uint 0) (keyed_uint _)

def getNetworkStatus : Ipc.CborMap :=
  if connected = false then networkStatus connected
  else
    match (Ipc.call load handleReports a.junk v ⟨a.id, ascii "client", ascii "tft.status", .empty⟩).2 with
    | .error _ => networkStatus connected
    | .ok r => copyUint r "unchoked_count" "unchoked_peers" (copyUint r "known_peers" "known_peers" (networkStatus connected))

def inboxStatus : Ipc.CborMap :=
  let result := Ipc.CborMap.empty.set "stored_undelivered" (.uint 0) (keyed_uint _)
  result.set "sibling_count" (.uint 0) (keyed_uint _)

/-- `low` says that a Key B has too few prekeys. -/
def getInboxStatus (low : Bool) : Ipc.CborMap :=
  let result :=
    if connected = false then inboxStatus
    else
      match (Ipc.call load (handleInbox load a v up) a.junk inbox ⟨a.id, ascii "client", ascii "inbox.status", .empty⟩).2 with
      | .error _ => inboxStatus
      | .ok r => copyUint r "sibling_count" "sibling_count" (copyUint r "stored_count" "stored_undelivered" inboxStatus)
  result.set "prekeys_low" (.bool low) (keyed_bool _)

def outboxStatus : Ipc.CborMap :=
  (Ipc.CborMap.empty.set "pending" (.uint 0) (keyed_uint _)).set "delivering" (.uint 0) (keyed_uint _)

def getOutboxStatus (env : Outbox.Env) (outbox : Outbox.OutboxStore) : Ipc.CborMap :=
  if connected = false then outboxStatus
  else
    match (Ipc.call load (Ipc.itemHandler a.dbError (handleOutbox load env)) a.junk outbox ⟨a.id, ascii "client", ascii "outbox.stats", .empty⟩).2 with
    | .error _ => outboxStatus
    | .ok r => copyUint r "pending" "pending" outboxStatus

end Client

/-! ## What comes of it -/

section Calls
variable {load : Bytes → Option Item} (hload : Loads load) (a : Answer) (v : RouterView) (up : Bool) (inbox : Inbox.InboxStore)
include hload

theorem guardInfo_up : guardInfo load a v true = (channelList v.channels).received := by
  have hcall : Ipc.call load handleReports a.junk v ⟨a.id, ascii "inbox", ascii "channel.list", .empty⟩ =
      (v, .ok (channelList v.channels).received) := by
    refine Ipc.call_of_ok hload ?_
    have hname : cStr (ascii "channel.list") = ascii "channel.list" := by decide +kernel
    dsimp only
    rw [handleReports, hname, if_pos rfl]
  unfold guardInfo
  rw [if_neg (by decide), hcall]

theorem call_tftStatus : Ipc.call load handleReports a.junk v ⟨a.id, ascii "client", ascii "tft.status", .empty⟩ =
    (v, .ok (tftStatus v).received) := by
  refine Ipc.call_of_ok hload ?_
  have hname : cStr (ascii "tft.status") = ascii "tft.status" := by decide +kernel
  have hother : ascii "tft.status" ≠ ascii "channel.list" := by decide +kernel
  dsimp only
  rw [handleReports, hname, if_neg hother, if_pos rfl]

theorem call_guardInfo : Ipc.call load (handleInbox load a v up) a.junk inbox ⟨a.id, ascii "client", ascii "inbox.guard_info", .empty⟩ =
    (inbox, .ok (guardInfo load a v up).received) := by
  refine Ipc.call_of_ok hload ?_
  have hname : cStr (ascii "inbox.guard_info") = ascii "inbox.guard_info" := by decide +kernel
  dsimp only
  rw [handleInbox, hname, if_pos rfl]

theorem call_inboxStatus : Ipc.call load (handleInbox load a v up) a.junk inbox ⟨a.id, ascii "client", ascii "inbox.status", .empty⟩ =
    (inbox, .ok (Ipc.replyMap (Inbox.status inbox)).received) := by
  refine Ipc.call_of_ok hload ?_
  have hname : cStr (ascii "inbox.status") = ascii "inbox.status" := by decide +kernel
  have hother : ascii "inbox.status" ≠ ascii "inbox.guard_info" := by decide +kernel
  dsimp only
  rw [handleInbox, hname, if_neg hother, Ipc.itemHandler, Ipc.nameOf_ascii]
  simp [Inbox.handle]

theorem call_outboxStats (env : Outbox.Env) (outbox : Outbox.OutboxStore) :
    Ipc.call load (Ipc.itemHandler a.dbError (handleOutbox load env)) a.junk outbox ⟨a.id, ascii "client", ascii "outbox.stats", .empty⟩ =
      (outbox, .ok (Ipc.replyMap [("pending_count", Outbox.uintItem outbox.listPending.length)]).received) := by
  refine Ipc.call_items_of_ok hload (by decide +kernel) ?_ a.junk a.id (ascii "client")
  simp [handleOutbox, Outbox.handle]

end Calls

/-- What is not under any key of a reply is not found by the caller. -/
theorem find_received_replyMap {reply : Mailbox.Reply} (hkeys : ∀ e ∈ reply, 0 ∉ ascii e.1) {key : String}
    (hkey : ∀ e ∈ reply, e.1 ≠ key) : (Ipc.replyMap reply).received.find key = none := by
  rw [Ipc.CborMap.find_received (Ipc.keysNulFree_replyMap hkeys), Ipc.find_replyMap_none hkey, Option.map_none]

/-- The answer on the guard has the channels or an error, and nothing else. -/
theorem find_guardInfo {load : Bytes → Option Item} (hload : Loads load) (a : Answer) (v : RouterView) (up : Bool) {key : String}
    (hchannels : "channels" ≠ key) (herror : "error" ≠ key) : (guardInfo load a v up).received.find key = none := by
  cases up with
  | false =>
    have hkeys : (guardInfo load a v false).KeysNulFree := Ipc.CborMap.keysNulFree_empty.set (by decide +kernel) _ (keyed_string _)
    rw [Ipc.CborMap.find_received hkeys, guardInfo, if_pos rfl, Ipc.CborMap.find_set, if_neg herror]
    rfl
  | true =>
    have hkeys : (channelList v.channels).KeysNulFree := Ipc.CborMap.keysNulFree_empty.set (by decide +kernel) _ _
    rw [guardInfo_up hload, Ipc.CborMap.find_received (Ipc.keysNulFree_received _), Ipc.CborMap.find_received hkeys, channelList,
      Ipc.CborMap.find_set, if_neg hchannels]
    rfl

theorem keysNulFree_tftStatus (v : RouterView) : (tftStatus v).KeysNulFree := by
  unfold tftStatus
  refine Ipc.CborMap.KeysNulFree.set ?_ (by decide +kernel) _ _
  refine Ipc.CborMap.KeysNulFree.set ?_ (by decide +kernel) _ _
  refine Ipc.CborMap.KeysNulFree.set ?_ (by decide +kernel) _ _
  refine Ipc.CborMap.KeysNulFree.set ?_ (by decide +kernel) _ _
  exact Ipc.CborMap.keysNulFree_empty.set (by decide +kernel) _ _

theorem copyUint_none {r : Ipc.CborMap} {source : String} (h : r.find source = none) (target : String) (result : Ipc.CborMap) :
    copyUint r source target result = result := by
  unfold copyUint
  rw [h]

theorem copyUint_some {r : Ipc.CborMap} {source : String} {u : UInt64} (h : r.find source = some (.uint u)) (target : String)
    (result : Ipc.CborMap) : copyUint r source target result = result.set target (.uint u) (keyed_uint u) := by
  unfold copyUint
  rw [h]

section Defaults
variable {load : Bytes → Option Item} (hload : Loads load) (a : Answer) (v : RouterView) (up : Bool) (inbox : Inbox.InboxStore)
include hload

theorem getGuardInfo_connected (keyC : List KeyCIssued) : getGuardInfo load a v up inbox true keyC = withOutboxKey keyC noGuard := by
  have hid := find_guardInfo hload a v up (by decide : "channels" ≠ "guard_node_id") (by decide)
  have hendpoint := find_guardInfo hload a v up (by decide : "channels" ≠ "guard_endpoint") (by decide)
  have htoken := find_guardInfo hload a v up (by decide : "channels" ≠ "session_token") (by decide)
  unfold getGuardInfo
  rw [if_neg (by decide), call_guardInfo hload]
  simp only [textOf, blobOf, hid, hendpoint, htoken]
  rfl

theorem getNetworkStatus_connected : getNetworkStatus load a v true =
    (networkStatus true).set "known_peers" (.uint (UInt64.ofNat v.tft.ledger.rows.length)) (keyed_uint _) := by
  have hkeys := keysNulFree_tftStatus v
  have hknown : (tftStatus v).received.find "known_peers" = some (.uint (UInt64.ofNat v.tft.ledger.rows.length)) := by
    rw [Ipc.CborMap.find_received hkeys]
    simp [tftStatus, Ipc.CborValue.received]
  have hunchoked : (tftStatus v).received.find "unchoked_count" = none := by
    rw [Ipc.CborMap.find_received hkeys]
    simp [tftStatus]
  unfold getNetworkStatus
  rw [if_neg (by decide), call_tftStatus hload]
  dsimp only
  rw [copyUint_none hunchoked, copyUint_some hknown]

theorem getInboxStatus_eq (connected low : Bool) :
    getInboxStatus load a v up inbox connected low = inboxStatus.set "prekeys_low" (.bool low) (keyed_bool _) := by
  have hkeys : ∀ e ∈ Inbox.status inbox, 0 ∉ ascii e.1 := by
    simp only [Inbox.status, List.forall_mem_cons]
    exact ⟨by decide +kernel, by decide +kernel, by decide +kernel, by simp⟩
  have hstored : (Ipc.replyMap (Inbox.status inbox)).received.find "stored_count" = none :=
    find_received_replyMap hkeys (by simp [Inbox.status])
  have hsiblings : (Ipc.replyMap (Inbox.status inbox)).received.find "sibling_count" = none :=
    find_received_replyMap hkeys (by simp [Inbox.status])
  unfold getInboxStatus
  cases connected with
  | false => rw [if_pos rfl]
  | true =>
    rw [if_neg (by decide), call_inboxStatus hload]
    dsimp only
    rw [copyUint_none hstored, copyUint_none hsiblings]

theorem getOutboxStatus_eq (connected : Bool) (env : Outbox.Env) (outbox : Outbox.OutboxStore) :
    getOutboxStatus load a connected env outbox = outboxStatus := by
  have hpending : (Ipc.replyMap [("pending_count", Outbox.uintItem outbox.listPending.length)]).received.find "pending" = none := by
    refine find_received_replyMap ?_ (by simp)
    simp only [List.forall_mem_singleton]
    decide +kernel
  unfold getOutboxStatus
  cases connected with
  | false => rw [if_pos rfl]
  | true =>
    rw [if_neg (by decide), call_outboxStats hload]
    dsimp only
    rw [copyUint_none hpending]

end Defaults

/-- Whatever the daemons hold, a Client knows of no guard, and what it shows of its inbox and its outbox is what it shows without them. Of
the router it shows the number of peers in the ledger. -/
theorem reports_constant (load : Bytes → Option Item) (hload : Loads load) (a : Answer) (v : RouterView) (inbox : Inbox.InboxStore)
    (env : Outbox.Env) (outbox : Outbox.OutboxStore) (up connected low : Bool) (keyC : List KeyCIssued) :
    getGuardInfo load a v up inbox connected keyC = (if connected then withOutboxKey keyC noGuard else noGuard) ∧
      getInboxStatus load a v up inbox connected low = getInboxStatus load a v up inbox false low ∧
      getOutboxStatus load a connected env outbox = getOutboxStatus load a false env outbox ∧
      getNetworkStatus load a v connected = (if connected
        then (networkStatus true).set "known_peers" (.uint (UInt64.ofNat v.tft.ledger.rows.length)) (keyed_uint _)
        else networkStatus false) := by
  refine ⟨?_, ?_, ?_, ?_⟩
  · cases connected with
    | false => rfl
    | true => exact getGuardInfo_connected hload a v up inbox keyC
  · rw [getInboxStatus_eq hload, getInboxStatus_eq hload]
  · rw [getOutboxStatus_eq hload, getOutboxStatus_eq hload]
  · cases connected with
    | false => rfl
    | true => exact getNetworkStatus_connected hload a v

/-- A router that has forwarded for one peer. -/
def aRouter : RouterView := ⟨.empty, TftEngine.recordForwardedFor { decayed := id } {} (ascii "peer") 10, 1⟩

/-- A message waits, and the status is the one without an inbox. -/
theorem reports_constant_waiting : getGuardInfo Cbor.load anAnswer aRouter true (waitingInbox false) true [] = noGuard ∧
    getInboxStatus Cbor.load anAnswer aRouter true (waitingInbox false) true false =
      getInboxStatus Cbor.load anAnswer aRouter true (waitingInbox false) false false := by
  obtain ⟨hguard, hinbox, _⟩ := reports_constant Cbor.load load_loads anAnswer aRouter (waitingInbox false) ⟨0, fun _ => none, false⟩
    Outbox.OutboxStore.empty true true false []
  exact ⟨hguard, hinbox⟩

end ScatterWeb.Client.Reports
