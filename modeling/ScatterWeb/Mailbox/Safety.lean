import Mathlib.Logic.Function.Basic
import ScatterWeb.Inbox.Retention
import ScatterWeb.Outbox.Steps

/-! # An outbox and the inboxes it delivers to

One outbox, and inboxes each with a key of its own. The network loses, delays, reorders and duplicates: a frame that an
inbox has sent may reach the outbox any number of times or never, and to the inboxes any bytes may come. A message that the
outbox calls delivered has then been stored by one of its recipients. The invariant is about the acknowledgements on the
way: each names a message that its inbox has stored. -/
namespace ScatterWeb.Mailbox
open Crypto Lib Lib.Cbor Client Inbox
set_option autoImplicit false

/-! ## What an inbox sends -/

section Sending

/-- A frame that no outbox takes for an acknowledgement. -/
def NoAck (payload : Bytes) : Prop :=
  ∃ kvs, payload = encode (.map kvs) ∧ frameType (.map kvs) ≠ ascii "delivery_ack" ∧ frameType (.map kvs) ≠ ascii "outbox_poll_ack"

theorem frameType_cons (type : Bytes) (rest : List (Item × Item)) :
    frameType (.map ((.text (ascii "type"), .text type) :: rest)) = type := by
  simp [frameType, getField]

theorem noAck_of_pairs {m : DefMap} {type : Bytes} {rest : List (Item × Item)}
    (hpairs : m.pairs = (.text (ascii "type"), .text type) :: rest) (hack : type ≠ ascii "delivery_ack")
    (hpoll : type ≠ ascii "outbox_poll_ack") : NoAck (cborSer m) := by
  refine ⟨m.pairs, rfl, ?_, ?_⟩
  · rw [hpairs, frameType_cons]
    exact hack
  · rw [hpairs, frameType_cons]
    exact hpoll

theorem noAck_of_mem_replicateToSiblings {env : Env} {s : InboxStore} {id : Bytes} {c : Bytes × Bytes}
    (h : c ∈ replicateToSiblings env s id) : NoAck c.2 := by
  unfold replicateToSiblings at h
  split at h
  · cases h
  · rename_i msg _
    obtain ⟨sib, _, hsib⟩ := List.mem_filterMap.mp h
    obtain ⟨chan, _, rfl⟩ := Option.map_eq_some_iff.mp hsib
    have hpairs : (mapAddBytes (mapAddStr (mapAddStr (DefMap.new 3) "type" (ascii "inbox_replication_frame")) "message_id" id)
        "delivery_frame" msg.deliveryFrame).pairs = (.text (ascii "type"), .text (cStr (ascii "inbox_replication_frame"))) ::
          [(.text (ascii "message_id"), .text (cStr id)), (.text (ascii "delivery_frame"), .bytes msg.deliveryFrame)] := by
      simp [mapAddStr, mapAddBytes, DefMap.add_pairs]
    exact noAck_of_pairs hpairs (by decide) (by decide)

theorem noAck_of_mem_handleOutboxPoll {s : InboxStore} {channelId : Bytes} {c : Bytes × Bytes}
    (h : c ∈ handleOutboxPoll s channelId) : NoAck c.2 := by
  rw [handleOutboxPoll, List.mem_singleton] at h
  subst h
  have hpairs : ((mapAddStr (DefMap.new 2) "type" (ascii "outbox_poll_response")).add (.text (ascii "messages"))
      (.array ((s.getPending true).map pollEntry))).pairs =
        (.text (ascii "type"), .text (cStr (ascii "outbox_poll_response"))) ::
          [(.text (ascii "messages"), .array ((s.getPending true).map pollEntry))] := by
    simp [mapAddStr, DefMap.add_pairs]
  exact noAck_of_pairs hpairs (by decide) (by decide)

theorem eq_outboxPoll_of_mem {env : Env} {s : InboxStore} {c : Bytes × Bytes} (h : c ∈ pollKnownOutboxes env s) :
    ∃ creds, s.dhtCredentials = some creds ∧ c.2 = outboxPoll creds.keyCPubkey := by
  unfold pollKnownOutboxes at h
  split at h
  · cases h
  · rename_i creds hcreds
    obtain ⟨ob, _, hob⟩ := List.mem_filterMap.mp h
    obtain ⟨chan, _, rfl⟩ := Option.map_eq_some_iff.mp hob
    exact ⟨creds, hcreds, rfl⟩

theorem noAck_of_mem_pollKnownOutboxes {env : Env} {s : InboxStore} {c : Bytes × Bytes}
    (h : c ∈ pollKnownOutboxes env s) : NoAck c.2 := by
  obtain ⟨creds, _, hc⟩ := eq_outboxPoll_of_mem h
  have hpairs : (mapAddBytes (mapAddBytes (mapAddStr (DefMap.new 3) "type" (ascii "outbox_poll")) "inbox_key_c_pubkey"
      creds.keyCPubkey) "nonce" (creds.keyCPubkey.take 8)).pairs = (.text (ascii "type"), .text (cStr (ascii "outbox_poll"))) ::
        [(.text (ascii "inbox_key_c_pubkey"), .bytes creds.keyCPubkey),
          (.text (ascii "nonce"), .bytes (creds.keyCPubkey.take 8))] := by
    simp [mapAddStr, mapAddBytes, DefMap.add_pairs]
  rw [hc]
  exact noAck_of_pairs hpairs (by decide) (by decide)

variable {load : Bytes → Option Item} {cfg : Inbox.Config} {s : InboxStore}

theorem zero_notMem_messageId {body : Bytes} {hdr : FrameHeader} (h : deliveryOf load body = some hdr) : 0 ∉ hdr.messageId := by
  have hparse := parseFrameHeader_of_deliveryOf h
  unfold parseFrameHeader at hparse
  split at hparse
  · rename_i kvs _
    dsimp only at hparse
    split at hparse
    · cases hparse
    · rename_i hne
      cases hparse
      dsimp only at hne ⊢
      cases hfield : lastField (asHex 16) kvs "message_id" with
      | none =>
        rw [hfield] at hne
        exact absurd (Or.inl rfl) hne
      | some id =>
        obtain ⟨kv, _, _, hread⟩ := mem_of_lastField hfield
        exact zero_notMem_of_asHex hread
  · cases hparse

/-- An acknowledgement by the inbox for a message that is in its store. -/
def AckOf (s s' : InboxStore) (payload : Bytes) : Prop :=
  ∃ id creds, s.dhtCredentials = some creds ∧ payload = deliveryAck id creds.keyCPubkey ∧ 0 ∉ id ∧ s'.messageExists id = true

theorem ackOf_of_mem_sendAck {s' : InboxStore} {channelId id : Bytes} {c : Bytes × Bytes} (h : c ∈ sendAck s channelId id)
    (hid : 0 ∉ id) (hexists : s'.messageExists id = true) : AckOf s s' c.2 := by
  unfold sendAck at h
  split at h
  · cases h
  · rename_i creds hcreds
    rw [List.mem_singleton] at h
    subst h
    exact ⟨id, creds, hcreds, rfl, hid, hexists⟩

theorem mem_sent_frame {env : Env} {channelId body : Bytes} {c : Bytes × Bytes}
    (h : c ∈ (processDeliveryFrame load cfg env s channelId body).2.sent) :
    NoAck c.2 ∨ AckOf s (processDeliveryFrame load cfg env s channelId body).1 c.2 := by
  cases hd : deliveryOf load body with
  | some hdr =>
    have hid := zero_notMem_messageId hd
    by_cases hallowed : s.isAllowedSender hdr.senderId = true
    · cases hfind : s.messages.find hdr.messageId with
      | none =>
        have hexists : (processDeliveryFrame load cfg env s channelId body).1.messageExists hdr.messageId = true :=
          InboxStore.messageExists_of_find _ (find_processDeliveryFrame_new hd hallowed hfind)
        obtain ⟨sent, hstore, hreplication⟩ : ∃ sent, storeDelivery cfg env s channelId body hdr = _ ∧ _ := storeDelivery_new hfind
        have hsent : (processDeliveryFrame load cfg env s channelId body).2.sent = sendAck s channelId hdr.messageId ++ sent := by
          rw [processDeliveryFrame_delivery hd, if_pos hallowed, hstore]
        rw [hsent] at h
        rcases List.mem_append.mp h with hack | hrep
        · exact Or.inr (ackOf_of_mem_sendAck hack hid hexists)
        · obtain ⟨s', hmem⟩ := hreplication c hrep
          exact Or.inl (noAck_of_mem_replicateToSiblings hmem)
      | some m =>
        rw [processDeliveryFrame_old hd hallowed hfind] at h ⊢
        exact Or.inr (ackOf_of_mem_sendAck h hid (s.messageExists_of_find hfind))
    · rw [processDeliveryFrame_delivery hd, if_neg hallowed] at h
      cases h
  | none =>
    cases hr : replicationOf load body with
    | some rep =>
      rw [processDeliveryFrame_replication hr] at h
      split at h
      · cases h
      · cases h
    | none =>
      obtain ⟨sent, hother, hpoll⟩ : ∃ sent, processDeliveryFrame load cfg env s channelId body = (s, { sent }) ∧ _ :=
        processDeliveryFrame_other hd hr
      rw [hother] at h
      exact Or.inl (noAck_of_mem_handleOutboxPoll (hpoll c h))

/-- All that an inbox ever sends. -/
theorem mem_sent_step {e : Inbox.Event} {c : Bytes × Bytes} (h : c ∈ (Inbox.step load cfg s e).2.sent) :
    NoAck c.2 ∨ AckOf s (Inbox.next load cfg s e) c.2 := by
  cases e with
  | frame env channelId body => exact mem_sent_frame h
  | ipc env method p =>
    rw [Inbox.step] at h
    split at h
    · cases h
    · cases h
  | tick env =>
    obtain ⟨m, _, hm⟩ := List.mem_flatMap.mp h
    exact Or.inl (noAck_of_mem_replicateToSiblings hm)
  | restart env => exact Or.inl (noAck_of_mem_pollKnownOutboxes h)

end Sending

/-! ## What the outbox makes of it -/

section Receiving
variable {load : Bytes → Option Item}

theorem deliveredIds_noAck (hload : Loads load) (s : Outbox.OutboxStore) {payload : Bytes} (h : NoAck payload) :
    Outbox.deliveredIds load s payload = [] := by
  obtain ⟨kvs, rfl, hack, hpoll⟩ := h
  unfold Outbox.deliveredIds
  rw [hload.load_encode]
  dsimp only
  rw [if_neg hack, if_neg hpoll]

theorem load_deliveryAck (hload : Loads load) {id : Bytes} (hid : 0 ∉ id) (key : Bytes) : load (deliveryAck id key) = some (.map
    [(.text (ascii "type"), .text (ascii "delivery_ack")), (.text (ascii "message_id"), .text id),
      (.text (ascii "inbox_key_c_pubkey"), .bytes key)]) := by
  have htype : cStr (ascii "delivery_ack") = ascii "delivery_ack" := by decide
  unfold deliveryAck cborSer
  rw [hload.load_encode]
  simp [DefMap.item, mapAddStr, mapAddBytes, DefMap.add_pairs, htype, cStr_of_nulFree hid]

/-- An acknowledgement counts for its message, if its key is a recipient's. -/
theorem mem_deliveredIds_deliveryAck (hload : Loads load) {s : Outbox.OutboxStore} {id id' key : Bytes} (hid : 0 ∉ id)
    (h : id' ∈ Outbox.deliveredIds load s (deliveryAck id key)) : id' = id ∧ s.isValidRecipientInbox id key = true := by
  unfold Outbox.deliveredIds at h
  rw [load_deliveryAck hload hid] at h
  dsimp only at h
  rw [frameType_cons, if_pos rfl] at h
  unfold Outbox.ackedIds at h
  simp only [lastField, lastWith, List.foldl_cons, List.foldl_nil, textKey_ascii, asText, asBytes] at h
  simp only [String.reduceEq, decide_true, decide_false, if_true, Bool.false_eq_true, if_false, Option.some_or,
    Option.getD_some] at h
  split at h
  · rename_i hvalid
    exact ⟨List.mem_singleton.mp h, hvalid.2.2⟩
  · cases h

end Receiving

/-! ## The system -/

section System
variable {I : Type} [DecidableEq I] (load : Bytes → Option Item) (inboxCfg : Inbox.Config) (outboxCfg : Outbox.Config)
  (key : I → Bytes)

/-- The processes, every payload that an inbox has sent, and the ids that each inbox has stored so far. -/
structure World (I : Type) where
  outbox : Outbox.Process
  inbox : I → InboxStore
  net : List Bytes
  stored : I → List Bytes

def World.initial : World I := ⟨.initial, fun _ => .empty, [], fun _ => []⟩

/-- The ids that are in the second store and not in the first. -/
def newIds (s s' : InboxStore) : List Bytes := (s'.messages.rows.map StoredMessage.messageId).filter (fun id => !s.messageExists id)

def World.inboxStep (w : World I) (i : I) (e : Inbox.Event) : World I :=
  { w with
    inbox := Function.update w.inbox i (Inbox.next load inboxCfg (w.inbox i) e)
    net := w.net ++ (Inbox.step load inboxCfg (w.inbox i) e).2.sent.map Prod.snd
    stored := Function.update w.stored i (w.stored i ++ newIds (w.inbox i) (Inbox.next load inboxCfg (w.inbox i) e)) }

inductive WorldEvent (I : Type)
  | inbox (i : I) (e : Inbox.Event)
  | outbox (e : Outbox.Event)

/-- An inbox may receive anything, and its Client gives it no key but its own. The outbox receives what an inbox sent. -/
inductive WorldStep (w : World I) : WorldEvent I → World I → Prop
  | inbox (i : I) (e : Inbox.Event)
      (hkey : ∀ creds, (Inbox.next load inboxCfg (w.inbox i) e).dhtCredentials = some creds → creds.keyCPubkey = key i) :
      WorldStep w (.inbox i e) (w.inboxStep load inboxCfg i e)
  | outbox (e : Outbox.Event) (hnet : ∀ channelId body, e = .frame channelId body → body ∈ w.net) :
      WorldStep w (.outbox e) { w with outbox := Outbox.next load outboxCfg w.outbox e }

/-- Every message that the outbox calls delivered was stored by an inbox whose key is among its recipients. -/
def DeliverySafe (w : World I) : Prop :=
  ∀ id m, w.outbox.store.messages.find id = some m → m.status = .delivered →
    ∃ i, w.outbox.store.isValidRecipientInbox id (key i) = true ∧ id ∈ w.stored i

structure WorldInv (w : World I) : Prop where
  keys : ∀ i creds, (w.inbox i).dhtCredentials = some creds → creds.keyCPubkey = key i
  rows : ∀ i id, (w.inbox i).messageExists id = true → id ∈ w.stored i
  acks : ∀ body ∈ w.net, NoAck body ∨ ∃ i id, body = deliveryAck id (key i) ∧ 0 ∉ id ∧ id ∈ w.stored i
  safe : DeliverySafe key w

variable {load inboxCfg outboxCfg key} {w : World I}

omit [DecidableEq I] in
theorem worldInv_initial : WorldInv key (World.initial : World I) where
  keys := fun _ _ h => nomatch h
  rows := fun _ _ h => nomatch h
  acks := fun _ h => nomatch h
  safe := fun _ _ h => nomatch h

theorem mem_newIds {s s' : InboxStore} {id : Bytes} (hnew : s.messageExists id = false) (h : s'.messageExists id = true) :
    id ∈ newIds s s' := by
  obtain ⟨m, hm⟩ := exists_find_of_messageExists h
  obtain rfl := Table.key_of_find hm
  refine List.mem_filter.mpr ⟨List.mem_map_of_mem (Table.mem_of_find hm), ?_⟩
  rw [hnew]
  rfl

theorem inboxStep_inbox (w : World I) (i : I) (e : Inbox.Event) :
    (w.inboxStep load inboxCfg i e).inbox i = Inbox.next load inboxCfg (w.inbox i) e := by
  unfold World.inboxStep
  dsimp only
  rw [Function.update_self]

theorem inboxStep_inbox_of_ne {i j : I} (h : j ≠ i) (e : Inbox.Event) : (w.inboxStep load inboxCfg i e).inbox j = w.inbox j := by
  unfold World.inboxStep
  dsimp only
  rw [Function.update_of_ne h]

theorem inboxStep_stored (w : World I) (i : I) (e : Inbox.Event) : (w.inboxStep load inboxCfg i e).stored i =
    w.stored i ++ newIds (w.inbox i) (Inbox.next load inboxCfg (w.inbox i) e) := by
  unfold World.inboxStep
  dsimp only
  rw [Function.update_self]

theorem inboxStep_stored_of_ne {i j : I} (h : j ≠ i) (e : Inbox.Event) :
    (w.inboxStep load inboxCfg i e).stored j = w.stored j := by
  unfold World.inboxStep
  dsimp only
  rw [Function.update_of_ne h]

/-- What an inbox has stored stays on record. -/
theorem mem_stored_inboxStep {i j : I} {e : Inbox.Event} {id : Bytes} (h : id ∈ w.stored j) :
    id ∈ (w.inboxStep load inboxCfg i e).stored j := by
  by_cases hj : j = i
  · subst hj
    rw [inboxStep_stored]
    exact List.mem_append_left _ h
  · rw [inboxStep_stored_of_ne hj]
    exact h

theorem rows_inboxStep (hinv : WorldInv key w) (i : I) (e : Inbox.Event) {id : Bytes}
    (h : (Inbox.next load inboxCfg (w.inbox i) e).messageExists id = true) : id ∈ (w.inboxStep load inboxCfg i e).stored i := by
  rw [inboxStep_stored]
  cases hold : (w.inbox i).messageExists id with
  | true => exact List.mem_append_left _ (hinv.rows i id hold)
  | false => exact List.mem_append_right _ (mem_newIds hold h)

theorem worldInv_inboxStep (hinv : WorldInv key w) (i : I) (e : Inbox.Event)
    (hkey : ∀ creds, (Inbox.next load inboxCfg (w.inbox i) e).dhtCredentials = some creds → creds.keyCPubkey = key i) :
    WorldInv key (w.inboxStep load inboxCfg i e) where
  keys := by
    intro j creds h
    by_cases hj : j = i
    · subst hj
      rw [inboxStep_inbox] at h
      exact hkey creds h
    · rw [inboxStep_inbox_of_ne hj] at h
      exact hinv.keys j creds h
  rows := by
    intro j id h
    by_cases hj : j = i
    · subst hj
      rw [inboxStep_inbox] at h
      exact rows_inboxStep hinv j e h
    · rw [inboxStep_inbox_of_ne hj] at h
      exact mem_stored_inboxStep (hinv.rows j id h)
  acks := by
    intro body hbody
    rcases List.mem_append.mp hbody with hold | hnew
    · rcases hinv.acks body hold with hno | ⟨j, id, hack, hid, hstored⟩
      · exact Or.inl hno
      · exact Or.inr ⟨j, id, hack, hid, mem_stored_inboxStep hstored⟩
    · obtain ⟨c, hc, rfl⟩ := List.mem_map.mp hnew
      rcases mem_sent_step hc with hno | ⟨id, creds, hcreds, hack, hid, hexists⟩
      · exact Or.inl hno
      · refine Or.inr ⟨i, id, ?_, hid, rows_inboxStep hinv i e hexists⟩
        rw [hack, hinv.keys i creds hcreds]
  safe := by
    intro id m hm hstatus
    obtain ⟨j, hvalid, hstored⟩ := hinv.safe id m hm hstatus
    exact ⟨j, hvalid, mem_stored_inboxStep hstored⟩

omit [DecidableEq I] in
/-- A status is set to delivered by a frame that is on the network, and that is an acknowledgement. -/
theorem stored_of_statusWrites (hload : Loads load) (hinv : WorldInv key w) {e : Outbox.Event}
    (hnet : ∀ channelId body, e = .frame channelId body → body ∈ w.net) {id : Bytes}
    (h : (id, Outbox.MsgStatus.delivered) ∈ Outbox.statusWrites load w.outbox.store e) :
    ∃ i, w.outbox.store.isValidRecipientInbox id (key i) = true ∧ id ∈ w.stored i := by
  cases e with
  | frame channelId body =>
    obtain ⟨id', hid', heq⟩ := List.mem_map.mp h
    cases heq
    rcases hinv.acks body (hnet channelId body rfl) with hno | ⟨i, id', rfl, hnul, hstored⟩
    · rw [deliveredIds_noAck hload _ hno] at hid'
      cases hid'
    · obtain ⟨rfl, hvalid⟩ := mem_deliveredIds_deliveryAck hload hnul hid'
      exact ⟨i, hvalid, hstored⟩
  | ipc env method p =>
    rw [Outbox.statusWrites] at h
    split at h
    · split at h
      · cases List.mem_singleton.mp h
      · cases h
    · cases h
  | maintenance env =>
    obtain ⟨m, _, heq⟩ := List.mem_map.mp h
    cases heq
  | retry env => cases h
  | work env index => cases h
  | restart => cases h

omit [DecidableEq I] in
theorem deliverySafe_outboxStep (hload : Loads load) (hinv : WorldInv key w) (e : Outbox.Event)
    (hnet : ∀ channelId body, e = .frame channelId body → body ∈ w.net) :
    DeliverySafe key { w with outbox := Outbox.next load outboxCfg w.outbox e } := by
  have hfollows := Outbox.step_follows load outboxCfg w.outbox e
  intro id m hm hstatus
  cases hbefore : w.outbox.store.messages.find id with
  | none =>
    have hpending := hfollows.fresh id m hbefore hm
    rw [hpending] at hstatus
    cases hstatus
  | some m0 =>
    obtain ⟨m', hm', hcase⟩ := hfollows.status id m0 hbefore
    obtain rfl : m' = m := Option.some.inj (hm'.symm.trans hm)
    have hfound : ∃ i, w.outbox.store.isValidRecipientInbox id (key i) = true ∧ id ∈ w.stored i := by
      rcases hcase with hsame | hwritten
      · exact hinv.safe id m0 hbefore (hsame.symm.trans hstatus)
      · rw [hstatus] at hwritten
        exact stored_of_statusWrites hload hinv hnet hwritten
    obtain ⟨i, hvalid, hstored⟩ := hfound
    exact ⟨i, hfollows.recipients id (key i) hvalid, hstored⟩

theorem worldInv_step (hload : Loads load) {e : WorldEvent I} {w' : World I} (hinv : WorldInv key w)
    (hstep : WorldStep load inboxCfg outboxCfg key w e w') : WorldInv key w' := by
  cases hstep with
  | inbox i e hkey => exact worldInv_inboxStep hinv i e hkey
  | outbox e hnet => exact ⟨hinv.keys, hinv.rows, hinv.acks, deliverySafe_outboxStep hload hinv e hnet⟩

theorem delivered_stored_by_recipient (hload : Loads load)
    (hreach : Reachable (WorldStep load inboxCfg outboxCfg key) World.initial w) : DeliverySafe key w :=
  (hreach.invariant (WorldInv key) worldInv_initial (fun _ _ _ hinv hstep => worldInv_step hload hinv hstep)).safe

end System

/-! ## A message on its way -/

section Delivery
variable {load : Bytes → Option Item} {inboxCfg : Inbox.Config} {outboxCfg : Outbox.Config} {key : Unit → Bytes} {w : World Unit}

/-- The acknowledgement of a new frame goes onto the network. -/
theorem mem_net_of_new {env : Env} {channelId body : Bytes} {hdr : FrameHeader} {creds : DhtCredentials}
    (hframe : deliveryOf load body = some hdr) (hallowed : (w.inbox ()).isAllowedSender hdr.senderId = true)
    (hnew : (w.inbox ()).messages.find hdr.messageId = none) (hcreds : (w.inbox ()).dhtCredentials = some creds) :
    deliveryAck hdr.messageId creds.keyCPubkey ∈ (w.inboxStep load inboxCfg () (.frame env channelId body)).net := by
  obtain ⟨sent, hstore, _⟩ : ∃ sent, storeDelivery inboxCfg env (w.inbox ()) channelId body hdr = _ ∧ _ := storeDelivery_new hnew
  have hack : sendAck (w.inbox ()) channelId hdr.messageId = [(channelId, deliveryAck hdr.messageId creds.keyCPubkey)] := by
    unfold sendAck
    rw [hcreds]
  refine List.mem_append_right _ (List.mem_map.mpr ⟨(channelId, deliveryAck hdr.messageId creds.keyCPubkey), ?_, rfl⟩)
  rw [Inbox.step, processDeliveryFrame_delivery hframe, if_pos hallowed, hstore, hack]
  exact List.mem_cons_self

theorem find_next_ack (outboxCfg : Outbox.Config) (hload : Loads load) {p : Outbox.Process} {channelId id k : Bytes}
    {m : Outbox.QueuedMessage} (hid : 0 ∉ id) (hne : id ≠ []) (hk : k ≠ []) (hm : p.store.messages.find id = some m)
    (hvalid : p.store.isValidRecipientInbox id k = true) :
    (Outbox.next load outboxCfg p (.frame channelId (deliveryAck id k))).store.messages.find id =
      some { m with status := .delivered } := by
  have hmem : id ∈ Outbox.deliveredIds load p.store (deliveryAck id k) := by
    unfold Outbox.deliveredIds
    rw [load_deliveryAck hload hid]
    dsimp only
    rw [frameType_cons, if_pos rfl]
    simp [Outbox.ackedIds, lastField, lastWith, asText, asBytes, hne, hk, hvalid]
  have hfind := Outbox.find_onFrame load p.store channelId (deliveryAck id k) id
  rw [if_pos hmem, hm, Option.map_some] at hfind
  exact hfind

/-- A frame that an inbox takes comes back to the outbox as an acknowledgement. -/
theorem exists_delivered (hload : Loads load) (env : Env) {body : Bytes} {hdr : FrameHeader} {creds : DhtCredentials}
    {m : Outbox.QueuedMessage} (hreach : Reachable (WorldStep load inboxCfg outboxCfg key) World.initial w)
    (hframe : deliveryOf load body = some hdr) (hallowed : (w.inbox ()).isAllowedSender hdr.senderId = true)
    (hnew : (w.inbox ()).messages.find hdr.messageId = none) (hcreds : (w.inbox ()).dhtCredentials = some creds)
    (hkey : creds.keyCPubkey = key ()) (hne : hdr.messageId ≠ []) (hpub : key () ≠ [])
    (hm : w.outbox.store.messages.find hdr.messageId = some m)
    (hvalid : w.outbox.store.isValidRecipientInbox hdr.messageId (key ()) = true) :
    ∃ w', Reachable (WorldStep load inboxCfg outboxCfg key) World.initial w' ∧
      w'.outbox.store.messages.find hdr.messageId = some { m with status := .delivered } := by
  have hstored : Reachable (WorldStep load inboxCfg outboxCfg key) World.initial
      (w.inboxStep load inboxCfg () (.frame env [] body)) := by
    refine hreach.tail (WorldStep.inbox () (.frame env [] body) ?_)
    intro creds' h
    obtain ⟨t, heq, _⟩ : ∃ t, Inbox.next load inboxCfg (w.inbox ()) (.frame env [] body) = { w.inbox () with messages := t } ∧ _ :=
      next_frame_new hframe hallowed hnew
    rw [heq] at h
    rw [← Option.some.inj (hcreds.symm.trans h)]
    exact hkey
  have hnet : deliveryAck hdr.messageId (key ()) ∈ (w.inboxStep load inboxCfg () (.frame env [] body)).net := by
    rw [← hkey]
    exact mem_net_of_new hframe hallowed hnew hcreds
  refine ⟨_, hstored.tail (WorldStep.outbox (.frame [] (deliveryAck hdr.messageId (key ()))) ?_), ?_⟩
  · intro channelId body' h
    cases h
    exact hnet
  · exact find_next_ack outboxCfg hload (zero_notMem_messageId hframe) hne hpub hm hvalid

/-- An outbox that has accepted one call and an inbox that has been set up by two. -/
theorem exists_prepared {oenv : Outbox.Env} {env : Env} {op dp ap : CborMap} {delegated prepared : InboxStore}
    (hdelegated : Inbox.next load inboxCfg .empty (.ipc env "inbox.update_dht_delegation" dp) = delegated)
    (hprepared : Inbox.next load inboxCfg delegated (.ipc env "inbox.update_sender_allowlist" ap) = prepared)
    (hkey : ∀ creds, delegated.dhtCredentials = some creds → creds.keyCPubkey = key ())
    (hkey' : ∀ creds, prepared.dhtCredentials = some creds → creds.keyCPubkey = key ()) :
    ∃ w, Reachable (WorldStep load inboxCfg outboxCfg key) World.initial w ∧ w.inbox () = prepared ∧
      w.outbox = Outbox.next load outboxCfg .initial (.ipc oenv "outbox.enqueue" op) := by
  have hqueued : Reachable (WorldStep load inboxCfg outboxCfg key) World.initial
      { World.initial with outbox := Outbox.next load outboxCfg .initial (.ipc oenv "outbox.enqueue" op) } :=
    (Reachable.refl _ _).tail (WorldStep.outbox (.ipc oenv "outbox.enqueue" op) (fun _ _ h => nomatch h))
  have hfirst := hqueued.tail (WorldStep.inbox () (.ipc env "inbox.update_dht_delegation" dp) (by
    intro creds h
    exact hkey creds (hdelegated ▸ h)))
  refine ⟨_, hfirst.tail (WorldStep.inbox () (.ipc env "inbox.update_sender_allowlist" ap) ?_), ?_, rfl⟩
  · intro creds h
    rw [inboxStep_inbox] at h
    refine hkey' creds ?_
    rw [← hprepared, ← hdelegated]
    exact h
  · rw [inboxStep_inbox, inboxStep_inbox, ← hprepared, ← hdelegated]
    rfl

end Delivery

/-- The inbox has its key, and not yet its allowlist. -/
def delegated : InboxStore := Inbox.next load {} .empty (.ipc clockZero "inbox.update_dht_delegation" credentialParams)

theorem delegated_eq : Inbox.next load {} .empty (.ipc clockZero "inbox.update_dht_delegation" credentialParams) = delegated := rfl

theorem key_delegated : delegated.dhtCredentials.map DhtCredentials.keyCPubkey = some [9] := by decide

theorem key_ready : ready.dhtCredentials.map DhtCredentials.keyCPubkey = some [9] := by decide

theorem key_of_map {k : Bytes} {o : Option DhtCredentials} (h : o.map DhtCredentials.keyCPubkey = some k) (creds : DhtCredentials)
    (hcreds : o = some creds) : creds.keyCPubkey = k := by
  rw [hcreds] at h
  exact Option.some.inj h

theorem isValidRecipientInbox_queued : Outbox.queued.store.isValidRecipientInbox frameId [9] = true := by
  rw [Outbox.queued_eq]
  unfold Outbox.enqueuedStore
  decide

/-- A message comes all the way: it is called delivered, and the inbox has stored it. -/
theorem delivered_stored_by_recipient_queued :
    ∃ w : World Unit, Reachable (WorldStep load {} {} (fun _ => [9])) World.initial w ∧
      (∃ m, w.outbox.store.messages.find frameId = some m ∧ m.status = .delivered) ∧ DeliverySafe (fun _ => [9]) w := by
  obtain ⟨w, hreach, hinbox, houtbox⟩ : ∃ w : World Unit, Reachable (WorldStep load {} {} (fun _ => [9])) World.initial w ∧
      w.inbox () = ready ∧ w.outbox = Outbox.queued :=
    exists_prepared delegated_eq rfl (key_of_map key_delegated) (key_of_map key_ready)
  obtain ⟨creds, hcreds, hkey⟩ := Option.map_eq_some_iff.mp key_ready
  obtain ⟨_, hallowed, _, hnew⟩ := ready_facts
  have hm := Outbox.find_queued
  have hvalid := isValidRecipientInbox_queued
  rw [← houtbox] at hm hvalid
  rw [← hinbox] at hcreds hallowed hnew
  obtain ⟨w', hreach', hdelivered⟩ := exists_delivered load_loads clockZero hreach
    (deliveryOf_frameFrom 1 zero_notMem_store) hallowed hnew hcreds hkey (by decide) (by decide) hm hvalid
  exact ⟨w', hreach', ⟨_, hdelivered, rfl⟩, delivered_stored_by_recipient load_loads hreach'⟩

end ScatterWeb.Mailbox
