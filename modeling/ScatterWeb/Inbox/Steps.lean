import ScatterWeb.Client.DeliveryFrame
import ScatterWeb.Inbox.Model

/-! # What a step of the inbox does to the stored messages

`deliveryOf` and `replicationOf` say what a frame is taken for, from its bytes alone. `Change` lists what a step can do to the
table of messages and which pushes it makes, and `step_change` says that there is nothing else. -/
namespace ScatterWeb.Inbox
open Crypto Lib Lib.Cbor Client Mailbox
set_option autoImplicit false

section Frames
variable (load : Bytes → Option Item)

/-- The header of a frame that is taken for a delivery frame. -/
def deliveryOf (body : Bytes) : Option FrameHeader :=
  match load body with
  | none => none
  | some root =>
    if frameType root = ascii "inbox_replication_frame" ∨ frameType root = ascii "outbox_poll" ∨ isIgnored (frameType root) then none
    else parseFrameHeader load body

structure Replication where
  repMessageId : Bytes
  innerFrame : Bytes
  hdr : FrameHeader

/-- What a frame of a sibling carries, where it carries a message. -/
def replicationOf (body : Bytes) : Option Replication :=
  match load body with
  | some (.map kvs) =>
    let innerFrame := (lastField asBytes kvs "delivery_frame").getD []
    let repMessageId := (lastField asText kvs "message_id").getD []
    if frameType (.map kvs) = ascii "inbox_replication_frame" ∧ innerFrame ≠ [] then
      (parseFrameHeader load innerFrame).map (fun hdr => ⟨repMessageId, innerFrame, hdr⟩)
    else none
  | _ => none

variable {load} {cfg : Config} {env : Env} {s : InboxStore} {channelId body : Bytes}

theorem admit_false (nowS : ℤ) (s : InboxStore) (senderId : Bytes) :
    admitSender cfg false nowS s senderId = if s.isAllowedSender senderId then some s else none := rfl

theorem processDeliveryFrame_delivery {hdr : FrameHeader} (h : deliveryOf load body = some hdr) :
    processDeliveryFrame load cfg env s channelId body =
      if s.isAllowedSender hdr.senderId then storeDelivery cfg env s channelId body hdr else (s, {}) := by
  unfold deliveryOf at h
  unfold processDeliveryFrame
  cases hload : load body with
  | none =>
    rw [hload] at h
    cases h
  | some root =>
    simp only [hload] at h ⊢
    by_cases htype : frameType root = ascii "inbox_replication_frame" ∨ frameType root = ascii "outbox_poll" ∨
        isIgnored (frameType root)
    · rw [if_pos htype] at h
      cases h
    · rw [if_neg htype] at h
      obtain ⟨hrep, hpoll, hign⟩ : ¬_ ∧ ¬_ ∧ ¬_ := by
        rw [not_or, not_or] at htype
        exact htype
      rw [if_neg hrep, if_neg hpoll, if_neg hign, h]
      dsimp only
      rw [admit_false]
      by_cases hallowed : s.isAllowedSender hdr.senderId
      · rw [if_pos hallowed, if_pos hallowed]
      · rw [if_neg hallowed, if_neg hallowed]

theorem processDeliveryFrame_replication {rep : Replication} (h : replicationOf load body = some rep) :
    processDeliveryFrame load cfg env s channelId body =
      if s.messageExists rep.repMessageId then (s, {})
      else ({ s with messages := (s.messages.insertNew (replicatedMessage env rep.innerFrame rep.hdr)).1 },
        { pushes := [(rep.hdr.messageId, rep.hdr.senderId)] }) := by
  unfold replicationOf at h
  split at h
  · rename_i kvs hload
    dsimp only at h
    split at h
    · rename_i hcond
      obtain ⟨hdr, hhdr, rfl⟩ := Option.map_eq_some_iff.mp h
      unfold processDeliveryFrame handleReplicationFrame
      simp only [hload, if_pos hcond.1]
      by_cases hex : s.messageExists ((lastField asText kvs "message_id").getD [])
      · rw [if_pos (Or.inr hex), if_pos hex]
      · rw [if_neg (not_or.mpr ⟨hcond.2, hex⟩), if_neg hex, hhdr]
        rfl
    · cases h
  · cases h

/-- A frame that is neither is answered with a list of the pending messages, or ignored. -/
theorem processDeliveryFrame_other (hd : deliveryOf load body = none) (hr : replicationOf load body = none) :
    ∃ sent, processDeliveryFrame load cfg env s channelId body = (s, { sent }) ∧ ∀ c ∈ sent, c ∈ handleOutboxPoll s channelId := by
  unfold deliveryOf at hd
  unfold replicationOf at hr
  unfold processDeliveryFrame handleReplicationFrame
  cases hload : load body with
  | none => exact ⟨[], rfl, fun _ h => (nomatch h)⟩
  | some root =>
    simp only [hload] at hd hr ⊢
    by_cases hrep : frameType root = ascii "inbox_replication_frame"
    · rw [if_pos hrep]
      cases root with
      | map kvs =>
        simp only at hr ⊢
        by_cases hinner : (lastField asBytes kvs "delivery_frame").getD [] = []
        · rw [if_pos (Or.inl hinner)]
          exact ⟨[], rfl, fun _ h => (nomatch h)⟩
        · rw [if_pos ⟨hrep, hinner⟩] at hr
          rw [Option.map_eq_none_iff] at hr
          rw [hr]
          split
          · exact ⟨[], rfl, fun _ h => (nomatch h)⟩
          · exact ⟨[], rfl, fun _ h => (nomatch h)⟩
      | _ => exact ⟨[], rfl, fun _ h => (nomatch h)⟩
    · rw [if_neg hrep]
      by_cases hpoll : frameType root = ascii "outbox_poll"
      · rw [if_pos hpoll]
        exact ⟨_, rfl, fun _ h => h⟩
      · rw [if_neg hpoll]
        by_cases hign : isIgnored (frameType root) = true
        · rw [if_pos hign]
          exact ⟨[], rfl, fun _ h => (nomatch h)⟩
        · rw [if_neg hign]
          rw [if_neg (not_or.mpr ⟨hrep, not_or.mpr ⟨hpoll, hign⟩⟩)] at hd
          rw [hd]
          exact ⟨[], rfl, fun _ h => (nomatch h)⟩

theorem storeDelivery_new {hdr : FrameHeader} (h : s.messages.find hdr.messageId = none) :
    ∃ sent, storeDelivery cfg env s channelId body hdr =
      ({ s with messages := (s.messages.insertNew (deliveredMessage cfg env body hdr)).1 },
        { sent := sendAck s channelId hdr.messageId ++ sent, pushes := [(hdr.messageId, hdr.senderId)] }) ∧
      ∀ c ∈ sent, ∃ s', c ∈ replicateToSiblings env s' hdr.messageId := by
  have hins : (s.messages.insertNew (deliveredMessage cfg env body hdr)).2 = true := Table.insertNew_of_find_none h
  have hexists : ¬s.messageExists hdr.messageId = true := by
    unfold InboxStore.messageExists
    rw [h]
    simp
  unfold storeDelivery InboxStore.insertMessage
  rw [if_neg hexists]
  dsimp only
  rw [hins]
  refine ⟨_, rfl, ?_⟩
  intro c hc
  split at hc
  · cases hc
  · exact ⟨_, hc⟩

theorem storeDelivery_old {hdr : FrameHeader} (h : s.messageExists hdr.messageId = true) :
    storeDelivery cfg env s channelId body hdr = (s, { sent := sendAck s channelId hdr.messageId }) := by
  unfold storeDelivery
  rw [if_pos h]

/-- A frame changes no other table. -/
theorem processDeliveryFrame_eq : (processDeliveryFrame load cfg env s channelId body).1 =
    { s with messages := (processDeliveryFrame load cfg env s channelId body).1.messages } := by
  cases hd : deliveryOf load body with
  | some hdr =>
    rw [processDeliveryFrame_delivery hd]
    split
    · cases hfind : s.messages.find hdr.messageId with
      | none =>
        obtain ⟨sent, hstore, _⟩ : ∃ sent, storeDelivery cfg env s channelId body hdr = _ ∧ _ := storeDelivery_new hfind
        rw [hstore]
      | some m => rw [storeDelivery_old (s.messageExists_of_find hfind)]
    · rfl
  | none =>
    cases hr : replicationOf load body with
    | some rep =>
      rw [processDeliveryFrame_replication hr]
      split
      · rfl
      · rfl
    | none =>
      obtain ⟨sent, hother, _⟩ : ∃ sent, processDeliveryFrame load cfg env s channelId body = (s, { sent }) ∧ _ :=
        processDeliveryFrame_other hd hr
      rw [hother]

/-! ## Frames of the Client and of a sibling -/

theorem deliveryOf_encodeDeliveryFrame (hload : Loads load) (f : DeliveryFrame) (hid : f.messageId.length = 16)
    (hsender : f.senderId.length = 32) :
    deliveryOf load (encodeDeliveryFrame f) = some ⟨bytesToHex f.messageId, bytesToHex f.senderId, cStr f.persistence⟩ := by
  have hroot : load (encodeDeliveryFrame f) = some (.map (deliveryFrameMap f).pairs) := hload.load_encode _
  have htype : frameType (.map (deliveryFrameMap f).pairs) = [] := by
    rw [deliveryFrameMap_pairs]
    by_cases hcert : f.senderOutboxCert = []
    · simp [frameType, getField, hcert]
    · simp [frameType, getField, hcert]
  have hne : bytesToHex f.messageId ≠ [] ∧ bytesToHex f.senderId ≠ [] := by
    constructor
    · intro h
      have := length_bytesToHex f.messageId
      simp [h, hid] at this
    · intro h
      have := length_bytesToHex f.senderId
      simp [h, hsender] at this
  have hparse : parseFrameHeader load (encodeDeliveryFrame f) =
      some ⟨bytesToHex f.messageId, bytesToHex f.senderId, cStr f.persistence⟩ := by
    unfold parseFrameHeader
    rw [hroot, deliveryFrameMap_pairs]
    by_cases hcert : f.senderOutboxCert = []
    · simp [lastField, lastWith, asHex, asText, hcert, hid, hsender, hne]
    · simp [lastField, lastWith, asHex, asText, hcert, hid, hsender, hne]
  unfold deliveryOf
  rw [hroot]
  dsimp only
  rw [htype, hparse]
  exact if_neg (by decide)

theorem replicationOf_replicationFrame (hload : Loads load) {id inner : Bytes} {hdr : FrameHeader} (hid : 0 ∉ id)
    (hinner : inner ≠ []) (hparse : parseFrameHeader load inner = some hdr) :
    replicationOf load (replicationFrame id inner) = some ⟨id, inner, hdr⟩ := by
  have hroot : load (replicationFrame id inner) = some (.map
      [(.text (ascii "type"), .text (cStr (ascii "inbox_replication_frame"))), (.text (ascii "message_id"), .text (cStr id)),
        (.text (ascii "delivery_frame"), .bytes inner)]) := by
    unfold replicationFrame cborSer
    rw [hload.load_encode]
    simp [DefMap.item, mapAddStr, mapAddBytes, DefMap.add_pairs]
  have htype : cStr (ascii "inbox_replication_frame") = ascii "inbox_replication_frame" := by decide
  unfold replicationOf
  rw [hroot, cStr_of_nulFree hid, htype]
  simp [lastField, lastWith, asText, asBytes, frameType, getField, hinner, hparse]

end Frames

/-! ## Requests -/

section Requests
variable {env : Env} {s s' : InboxStore} {p : CborMap} {r : Reply}

theorem ack_ok (h : ack env s p = .ok (s', r)) :
    ∃ id msg, reqString p "message_id" = .ok id ∧ s.getMessage id = some msg ∧ s' = ackMessage env s id msg := by
  obtain ⟨id, hid, h⟩ := bind_eq_ok.mp h
  cases hmsg : s.getMessage id with
  | none =>
    rw [hmsg] at h
    cases h
  | some msg =>
    rw [hmsg] at h
    cases h
    exact ⟨id, msg, hid, hmsg, rfl⟩

/-- A request that leaves the messages and the retention as they are. -/
structure Untouched (s s' : InboxStore) : Prop where
  messages : s'.messages = s.messages
  retentionDays : s'.retentionDays = s.retentionDays

theorem untouched_updateDhtDelegation (h : updateDhtDelegation s p = .ok (s', r)) : Untouched s s' := by
  obtain ⟨pub, _, h⟩ := bind_eq_ok.mp h
  obtain ⟨priv, _, h⟩ := bind_eq_ok.mp h
  obtain ⟨cert, _, h⟩ := bind_eq_ok.mp h
  obtain ⟨delegation, _, h⟩ := bind_eq_ok.mp h
  obtain ⟨s1, hset, h⟩ := bind_eq_ok.mp h
  cases h
  unfold InboxStore.setDhtCredentials at hset
  split at hset
  · cases hset
  · cases hset
    exact ⟨rfl, rfl⟩

theorem untouched_updateContactOutboxes (h : updateContactOutboxes s p = .ok (s', r)) : Untouched s s' := by
  unfold updateContactOutboxes at h
  split at h
  · obtain ⟨s1, hset, h⟩ := bind_eq_ok.mp h
    cases h
    obtain ⟨t, _, rfl⟩ := map_ok hset
    exact ⟨rfl, rfl⟩
  · cases h

theorem untouched_updateSenderAllowlist (h : updateSenderAllowlist s p = .ok (s', r)) : Untouched s s' := by
  unfold updateSenderAllowlist at h
  split at h
  · obtain ⟨s1, hset, h⟩ := bind_eq_ok.mp h
    cases h
    obtain ⟨t, _, rfl⟩ := map_ok hset
    exact ⟨rfl, rfl⟩
  · cases h

theorem untouched_addSibling (h : addSibling s p = .ok (s', r)) : Untouched s s' := by
  obtain ⟨pub, _, h⟩ := bind_eq_ok.mp h
  obtain ⟨cert, _, h⟩ := bind_eq_ok.mp h
  obtain ⟨s1, hset, h⟩ := bind_eq_ok.mp h
  cases h
  unfold InboxStore.upsertSibling at hset
  split at hset
  · cases hset
  · cases hset
    exact ⟨rfl, rfl⟩

theorem untouched_removeSibling (h : removeSibling s p = .ok (s', r)) : Untouched s s' := by
  obtain ⟨id, _, h⟩ := bind_eq_ok.mp h
  cases h
  exact ⟨rfl, rfl⟩

theorem messages_setRetentionDays (h : setRetentionDays s p = .ok (s', r)) : s'.messages = s.messages := by
  unfold setRetentionDays at h
  split at h
  · dsimp only at h
    split at h
    · cases h
    · cases h
      rfl
  · cases h

/-- Only `inbox.ack` changes the messages, and only `inbox.set_retention_days` the retention. -/
theorem handle_cases {method : String} (h : handle env s method p = .ok (s', r)) :
    Untouched s s' ∨ (method = "inbox.ack" ∧ ack env s p = .ok (s', r)) ∨
      (method = "inbox.set_retention_days" ∧ setRetentionDays s p = .ok (s', r)) := by
  unfold handle at h
  obtain ⟨_, h⟩ | ⟨_, h⟩ := ite_eq_iff.mp h
  · cases h
    exact Or.inl ⟨rfl, rfl⟩
  obtain ⟨_, h⟩ | ⟨_, h⟩ := ite_eq_iff.mp h
  · obtain ⟨reply, _, hs⟩ := map_ok h
    cases hs
    exact Or.inl ⟨rfl, rfl⟩
  obtain ⟨hack, h⟩ | ⟨_, h⟩ := ite_eq_iff.mp h
  · exact Or.inr (Or.inl ⟨hack, h⟩)
  obtain ⟨_, h⟩ | ⟨_, h⟩ := ite_eq_iff.mp h
  · cases h
    exact Or.inl ⟨rfl, rfl⟩
  obtain ⟨_, h⟩ | ⟨_, h⟩ := ite_eq_iff.mp h
  · exact Or.inl (untouched_updateDhtDelegation h)
  obtain ⟨_, h⟩ | ⟨_, h⟩ := ite_eq_iff.mp h
  · exact Or.inl (untouched_updateContactOutboxes h)
  obtain ⟨_, h⟩ | ⟨_, h⟩ := ite_eq_iff.mp h
  · exact Or.inl (untouched_updateSenderAllowlist h)
  obtain ⟨_, h⟩ | ⟨_, h⟩ := ite_eq_iff.mp h
  · exact Or.inl (untouched_addSibling h)
  obtain ⟨_, h⟩ | ⟨_, h⟩ := ite_eq_iff.mp h
  · exact Or.inl (untouched_removeSibling h)
  obtain ⟨hset, h⟩ | ⟨_, h⟩ := ite_eq_iff.mp h
  · exact Or.inr (Or.inr ⟨hset, h⟩)
  obtain ⟨_, h⟩ | ⟨_, h⟩ := ite_eq_iff.mp h
  · cases h
    exact Or.inl ⟨rfl, rfl⟩
  · cases h

end Requests

/-! ## Steps -/

section Steps
variable (load : Bytes → Option Item) (cfg : Config)

/-- The messages after a step and its pushes. -/
inductive Change (s : InboxStore) : Event → Table StoredMessage.messageId → List (Bytes × Bytes) → Prop
  | none {e : Event} : Change s e s.messages []
  | delivery {env : Env} {channelId body : Bytes} {hdr : FrameHeader} (hframe : deliveryOf load body = some hdr)
      (hallowed : s.isAllowedSender hdr.senderId = true) (hnew : s.messages.find hdr.messageId = .none) :
      Change s (.frame env channelId body) (s.messages.insertNew (deliveredMessage cfg env body hdr)).1
        [(hdr.messageId, hdr.senderId)]
  | replication {env : Env} {channelId body : Bytes} {rep : Replication} (hframe : replicationOf load body = some rep)
      (hwrapper : s.messageExists rep.repMessageId = false) :
      Change s (.frame env channelId body) (s.messages.insertNew (replicatedMessage env rep.innerFrame rep.hdr)).1
        [(rep.hdr.messageId, rep.hdr.senderId)]
  | ack {env : Env} {p : CborMap} {id : Bytes} {msg : StoredMessage} (hid : reqString p "message_id" = .ok id)
      (hmsg : s.getMessage id = some msg) : Change s (.ipc env "inbox.ack" p) (ackMessage env s id msg).messages []
  | sweep {env : Env} : Change s (.tick env) (s.deleteExpired env.nowS).messages []
  | start {env : Env} : Change s (.restart env) s.messages ((s.getPending true).map (fun m => (m.messageId, m.senderId)))

variable {load cfg} (s : InboxStore)

theorem frame_change (env : Env) (channelId body : Bytes) :
    Change load cfg s (.frame env channelId body) (processDeliveryFrame load cfg env s channelId body).1.messages
      (processDeliveryFrame load cfg env s channelId body).2.pushes := by
  cases hd : deliveryOf load body with
  | some hdr =>
    rw [processDeliveryFrame_delivery hd]
    by_cases hallowed : s.isAllowedSender hdr.senderId = true
    · rw [if_pos hallowed]
      cases hfind : s.messages.find hdr.messageId with
      | none =>
        obtain ⟨sent, hstore, _⟩ : ∃ sent, storeDelivery cfg env s channelId body hdr = _ ∧ _ := storeDelivery_new hfind
        rw [hstore]
        exact Change.delivery hd hallowed hfind
      | some m =>
        rw [storeDelivery_old (s.messageExists_of_find hfind)]
        exact Change.none
    · rw [if_neg hallowed]
      exact Change.none
  | none =>
    cases hr : replicationOf load body with
    | some rep =>
      rw [processDeliveryFrame_replication hr]
      by_cases hwrapper : s.messageExists rep.repMessageId = true
      · rw [if_pos hwrapper]
        exact Change.none
      · rw [if_neg hwrapper]
        exact Change.replication hr (Bool.eq_false_of_not_eq_true hwrapper)
    | none =>
      obtain ⟨sent, hother, _⟩ : ∃ sent, processDeliveryFrame load cfg env s channelId body = (s, { sent }) ∧ _ :=
        processDeliveryFrame_other hd hr
      rw [hother]
      exact Change.none

theorem step_change (e : Event) : Change load cfg s e (step load cfg s e).1.messages (step load cfg s e).2.pushes := by
  cases e with
  | frame env channelId body => exact frame_change s env channelId body
  | ipc env method p =>
    cases hhandle : handle env s method p with
    | error e =>
      simp only [step, hhandle]
      exact Change.none
    | ok res =>
      obtain ⟨s', r⟩ := res
      simp only [step, hhandle]
      obtain hsame | ⟨rfl, hack⟩ | ⟨rfl, hset⟩ := handle_cases hhandle
      · rw [hsame.messages]
        exact Change.none
      · obtain ⟨id, msg, hid, hmsg, rfl⟩ := ack_ok hack
        exact Change.ack hid hmsg
      · rw [messages_setRetentionDays hset]
        exact Change.none
  | tick env => exact Change.sweep
  | restart env => exact Change.start

end Steps

end ScatterWeb.Inbox
