import ScatterWeb.Inbox.Steps
import ScatterWeb.Lib.Transition

/-! # Who gets into the inbox, and what is acknowledged

The allowlist is checked for delivery frames and not for frames of siblings, which are not authenticated either. An
acknowledgement is sent for every frame of an allowed sender whose id is stored, whether or not the stored message is that
frame. -/
namespace ScatterWeb.Inbox
open Crypto Lib Lib.Cbor Client Mailbox
set_option autoImplicit false

section Allowlist
variable (load : Bytes → Option Item) (cfg : Config)

def next (s : InboxStore) (e : Event) : InboxStore := (step load cfg s e).1

def Steps (s : InboxStore) (e : Event) (t : InboxStore) : Prop := t = next load cfg s e

/-- The event stores the message. -/
def Inserts (s : InboxStore) (e : Event) (m : StoredMessage) : Prop :=
  s.messages.find m.messageId = none ∧ (next load cfg s e).messages.find m.messageId = some m

def InsertsAllowed (s : InboxStore) (e : Event) : Prop := ∀ m, Inserts load cfg s e m → s.isAllowedSender m.senderId = true

/-- A frame of a sibling with a new message of a sender that is not allowed. -/
def ForeignReplication (s : InboxStore) : Event → Prop
  | .frame _ _ body => ∃ rep, replicationOf load body = some rep ∧ s.messageExists rep.repMessageId = false ∧
      s.messageExists rep.hdr.messageId = false ∧ s.isAllowedSender rep.hdr.senderId = false
  | _ => False

variable {load cfg} {s : InboxStore} {e : Event}

theorem eq_of_find_insertNew {m msg : StoredMessage} (hnone : s.messages.find m.messageId = none)
    (hsome : (s.messages.insertNew msg).1.find m.messageId = some m) : m = msg := by
  rw [Table.find_insertNew, hnone] at hsome
  split at hsome
  · exact (Option.some.inj hsome).symm
  · cases hsome

/-- A message gets into the store in two ways. -/
theorem inserts_cases {m : StoredMessage} (h : Inserts load cfg s e m) :
    (∃ env channelId body hdr, e = .frame env channelId body ∧ deliveryOf load body = some hdr ∧
      s.isAllowedSender hdr.senderId = true ∧ m = deliveredMessage cfg env body hdr) ∨
    (∃ env channelId body rep, e = .frame env channelId body ∧ replicationOf load body = some rep ∧
      s.messageExists rep.repMessageId = false ∧ m = replicatedMessage env rep.innerFrame rep.hdr) := by
  obtain ⟨hnone, hsome⟩ := h
  have hchange : Change load cfg s e _ _ := step_change s e
  unfold next at hsome
  generalize (step load cfg s e).1.messages = table at hchange hsome
  generalize (step load cfg s e).2.pushes = pushes at hchange
  cases hchange with
  | none => rw [hnone] at hsome; cases hsome
  | delivery hframe hallowed hnew =>
    exact Or.inl ⟨_, _, _, _, rfl, hframe, hallowed, eq_of_find_insertNew hnone hsome⟩
  | replication hframe hwrapper =>
    exact Or.inr ⟨_, _, _, _, rfl, hframe, hwrapper, eq_of_find_insertNew hnone hsome⟩
  | ack hid hmsg =>
    unfold ackMessage at hsome
    split at hsome
    · rw [s.find_deleteMessage, hnone, ite_self] at hsome
      cases hsome
    · rw [s.find_markDelivered, hnone, Option.map_none, ite_self] at hsome
      cases hsome
  | sweep =>
    rw [s.find_deleteExpired, hnone, Option.filter_none] at hsome
    cases hsome
  | start => rw [hnone] at hsome; cases hsome

theorem inserts_replicated {env : Env} {channelId body : Bytes} {rep : Replication} (hframe : replicationOf load body = some rep)
    (hwrapper : s.messageExists rep.repMessageId = false) (hnew : s.messageExists rep.hdr.messageId = false) :
    Inserts load cfg s (.frame env channelId body) (replicatedMessage env rep.innerFrame rep.hdr) := by
  have hfind := s.messageExists_eq_false_iff.mp hnew
  refine ⟨hfind, ?_⟩
  unfold next step
  dsimp only
  rw [processDeliveryFrame_replication hframe, if_neg (by rw [hwrapper]; exact Bool.false_ne_true)]
  dsimp only
  rw [Table.find_insertNew, if_pos ⟨rfl, hfind⟩]

theorem insertsAllowed_iff (s : InboxStore) (e : Event) : InsertsAllowed load cfg s e ↔ ¬ForeignReplication load s e := by
  constructor
  · intro hall hforeign
    cases e with
    | frame env channelId body =>
      obtain ⟨rep, hframe, hwrapper, hnew, hsender⟩ := hforeign
      have hallowed := hall _ (inserts_replicated hframe hwrapper hnew)
      exact Bool.false_ne_true (hsender.symm.trans hallowed)
    | ipc => exact hforeign
    | tick => exact hforeign
    | restart => exact hforeign
  · intro hforeign m hm
    rcases inserts_cases hm with ⟨env, channelId, body, hdr, rfl, hframe, hallowed, rfl⟩ |
        ⟨env, channelId, body, rep, rfl, hframe, hwrapper, rfl⟩
    · exact hallowed
    · by_contra hsender
      exact hforeign ⟨rep, hframe, hwrapper, s.messageExists_eq_false_iff.mpr hm.1, Bool.eq_false_of_not_eq_true hsender⟩

/-- In a run every stored message is of a sender allowed at that moment exactly when no sibling frame brings in another. -/
theorem insertions_allowed_iff (load : Bytes → Option Item) (cfg : Config) (s : InboxStore) (es : List Event) :
    Along (next load cfg) (InsertsAllowed load cfg) s es ↔ Along (next load cfg) (fun s e => ¬ForeignReplication load s e) s es :=
  along_iff (fun _ => True) (fun s e _ => insertsAllowed_iff s e) (fun _ _ _ _ => trivial) trivial es

end Allowlist

/-! ## A message from nowhere -/

def clockZero : Env := ⟨0, 0, fun _ => none, []⟩

/-- A frame as the Client of the sender `c, c, …` makes it. -/
def frameFrom (c : UInt8) (persistence : Bytes) : Bytes :=
  encodeDeliveryFrame { messageId := List.replicate 16 7, persistence, senderId := List.replicate 32 c }

def frameId : Bytes := bytesToHex (List.replicate 16 7)

def senderHex (c : UInt8) : Bytes := bytesToHex (List.replicate 32 c)

theorem deliveryOf_frameFrom (c : UInt8) {persistence : Bytes} (h : 0 ∉ persistence) :
    deliveryOf load (frameFrom c persistence) = some ⟨frameId, senderHex c, persistence⟩ := by
  unfold frameFrom
  rw [deliveryOf_encodeDeliveryFrame load_loads _ (by simp) (by simp), cStr_of_nulFree h]
  rfl

theorem parseFrameHeader_of_deliveryOf {load : Bytes → Option Item} {body : Bytes} {hdr : FrameHeader}
    (h : deliveryOf load body = some hdr) : parseFrameHeader load body = some hdr := by
  unfold deliveryOf at h
  split at h
  · cases h
  · split at h
    · cases h
    · exact h

theorem ne_nil_of_deliveryOf {body : Bytes} {hdr : FrameHeader} (h : deliveryOf load body = some hdr) : body ≠ [] := by
  rintro rfl
  cases h

def forgedReplication (persistence : Bytes) : Bytes := replicationFrame frameId (frameFrom 1 persistence)

theorem replicationOf_forgedReplication {persistence : Bytes} (h : 0 ∉ persistence) :
    replicationOf load (forgedReplication persistence) =
      some ⟨frameId, frameFrom 1 persistence, ⟨frameId, senderHex 1, persistence⟩⟩ :=
  replicationOf_replicationFrame load_loads (zero_notMem_bytesToHex _) (ne_nil_of_deliveryOf (deliveryOf_frameFrom 1 h))
    (parseFrameHeader_of_deliveryOf (deliveryOf_frameFrom 1 h))

theorem zero_notMem_store : (0 : UInt8) ∉ ascii "store" := by decide

/-- Nobody is allowed, and the message of a frame that claims to come from a sibling is stored. -/
theorem not_insertsAllowed_forgedReplication :
    ¬ ∀ es, Along (next load {}) (InsertsAllowed load {}) InboxStore.empty es := by
  intro h
  have hrun := h [.frame clockZero [] (forgedReplication (ascii "store"))]
  exact (insertsAllowed_iff _ _).mp hrun.1 ⟨_, replicationOf_forgedReplication zero_notMem_store, rfl, rfl, rfl⟩

/-! ## Acknowledgements -/

section Acknowledgements
variable (load : Bytes → Option Item) (cfg : Config) (env : Env) (s : InboxStore) (channelId body : Bytes) (hdr : FrameHeader)

/-- If the frame is acknowledged, it is in the store afterwards. -/
def AcksOnlyHeld : Prop :=
  ∀ key, (channelId, deliveryAck hdr.messageId key) ∈ (processDeliveryFrame load cfg env s channelId body).2.sent →
    ∃ m, (processDeliveryFrame load cfg env s channelId body).1.messages.find hdr.messageId = some m ∧
      m.senderId = hdr.senderId ∧ m.deliveryFrame = body

/-- The inbox has a key to acknowledge with, and another message under the id of the frame. -/
def Clashes : Prop :=
  s.dhtCredentials.isSome = true ∧
    ∃ m, s.messages.find hdr.messageId = some m ∧ ¬(m.senderId = hdr.senderId ∧ m.deliveryFrame = body)

variable {load cfg env s channelId body hdr}

theorem find_processDeliveryFrame_new (hframe : deliveryOf load body = some hdr) (hallowed : s.isAllowedSender hdr.senderId = true)
    (hnew : s.messages.find hdr.messageId = none) :
    (processDeliveryFrame load cfg env s channelId body).1.messages.find hdr.messageId =
      some (deliveredMessage cfg env body hdr) := by
  obtain ⟨sent, hstore, _⟩ : ∃ sent, storeDelivery cfg env s channelId body hdr = _ ∧ _ := storeDelivery_new hnew
  rw [processDeliveryFrame_delivery hframe, if_pos hallowed, hstore]
  dsimp only
  rw [Table.find_insertNew, if_pos ⟨rfl, hnew⟩]

theorem next_frame_new (hframe : deliveryOf load body = some hdr) (hallowed : s.isAllowedSender hdr.senderId = true)
    (hnew : s.messages.find hdr.messageId = none) : ∃ t, next load cfg s (.frame env channelId body) = { s with messages := t } ∧
      t.find hdr.messageId = some (deliveredMessage cfg env body hdr) :=
  ⟨_, processDeliveryFrame_eq, find_processDeliveryFrame_new hframe hallowed hnew⟩

theorem processDeliveryFrame_old {m : StoredMessage} (hframe : deliveryOf load body = some hdr)
    (hallowed : s.isAllowedSender hdr.senderId = true) (hold : s.messages.find hdr.messageId = some m) :
    processDeliveryFrame load cfg env s channelId body = (s, { sent := sendAck s channelId hdr.messageId }) := by
  rw [processDeliveryFrame_delivery hframe, if_pos hallowed, storeDelivery_old (s.messageExists_of_find hold)]

theorem not_acksOnlyHeld_of_clashes (hframe : deliveryOf load body = some hdr) (hallowed : s.isAllowedSender hdr.senderId = true)
    (hclash : Clashes s body hdr) : ¬AcksOnlyHeld load cfg env s channelId body hdr := by
  obtain ⟨hcreds, m, hm, hother⟩ := hclash
  obtain ⟨creds, hcreds⟩ := Option.isSome_iff_exists.mp hcreds
  intro hheld
  unfold AcksOnlyHeld at hheld
  rw [processDeliveryFrame_old hframe hallowed hm] at hheld
  dsimp only at hheld
  unfold sendAck at hheld
  rw [hcreds, hm] at hheld
  obtain ⟨m', hm', hsame⟩ := hheld creds.keyCPubkey (List.mem_singleton.mpr rfl)
  cases hm'
  exact hother hsame

theorem acksOnlyHeld_of_not_clashes (hframe : deliveryOf load body = some hdr) (hallowed : s.isAllowedSender hdr.senderId = true)
    (hclash : ¬Clashes s body hdr) : AcksOnlyHeld load cfg env s channelId body hdr := by
  unfold AcksOnlyHeld
  cases hfind : s.messages.find hdr.messageId with
  | none =>
    rw [find_processDeliveryFrame_new hframe hallowed hfind]
    exact fun key _ => ⟨_, rfl, rfl, rfl⟩
  | some m =>
    rw [processDeliveryFrame_old hframe hallowed hfind]
    dsimp only
    intro key hack
    refine ⟨m, hfind, ?_⟩
    by_contra hother
    refine hclash ⟨?_, m, hfind, hother⟩
    unfold sendAck at hack
    cases hcreds : s.dhtCredentials with
    | none =>
      rw [hcreds] at hack
      cases hack
    | some creds => rfl

theorem acks_only_held_iff (hframe : deliveryOf load body = some hdr) (hallowed : s.isAllowedSender hdr.senderId = true) :
    AcksOnlyHeld load cfg env s channelId body hdr ↔ ¬Clashes s body hdr :=
  ⟨fun hheld hclash => not_acksOnlyHeld_of_clashes hframe hallowed hclash hheld, acksOnlyHeld_of_not_clashes hframe hallowed⟩

end Acknowledgements

def credentialParams : CborMap :=
  [(.text (ascii "key_c_pubkey"), .bytes [9]), (.text (ascii "key_c_privkey"), .bytes [9]),
    (.text (ascii "auth_cert"), .bytes [9]), (.text (ascii "delegation_cert"), .bytes [9])]

def allowParams : CborMap := [(.text (ascii "sender_ids"), .array [.text (senderHex 1), .text (senderHex 2)])]

/-- A Client has set the key and allowed two senders. -/
def ready : InboxStore :=
  next load {} (next load {} .empty (.ipc clockZero "inbox.update_dht_delegation" credentialParams))
    (.ipc clockZero "inbox.update_sender_allowlist" allowParams)

theorem ready_facts : ready.dhtCredentials.isSome = true ∧ ready.isAllowedSender (senderHex 1) = true ∧
    ready.isAllowedSender (senderHex 2) = true ∧ ready.messages.find frameId = none := by
  decide

theorem acks_only_held_iff_ready :
    AcksOnlyHeld load {} clockZero ready [] (frameFrom 1 (ascii "store")) ⟨frameId, senderHex 1, ascii "store"⟩ ↔
      ¬Clashes ready (frameFrom 1 (ascii "store")) ⟨frameId, senderHex 1, ascii "store"⟩ :=
  acks_only_held_iff (deliveryOf_frameFrom 1 zero_notMem_store) ready_facts.2.1

/-- The first sender's frame is stored. -/
def takenEvent : Event := .frame clockZero [] (frameFrom 1 (ascii "store"))

def taken : InboxStore := next load {} ready takenEvent

def takenRow : StoredMessage :=
  deliveredMessage {} clockZero (frameFrom 1 (ascii "store")) ⟨frameId, senderHex 1, ascii "store"⟩

theorem taken_facts : taken.dhtCredentials.isSome = true ∧ taken.isAllowedSender (senderHex 2) = true ∧
    taken.messages.find frameId = some takenRow := by
  obtain ⟨hcreds, hfirst, hsecond, hnone⟩ := ready_facts
  obtain ⟨t, heq, hfind⟩ := next_frame_new (deliveryOf_frameFrom 1 zero_notMem_store) hfirst hnone
  unfold taken takenEvent
  rw [heq]
  exact ⟨hcreds, hsecond, hfind⟩

theorem senderHex_one_ne_two : senderHex 1 ≠ senderHex 2 := by decide

def Reached (load : Bytes → Option Item) (cfg : Config) (s : InboxStore) : Prop :=
  Reachable (Steps load cfg) InboxStore.empty s

theorem reached_taken : Reached load {} taken := (((Reachable.refl _ _).tail rfl).tail rfl).tail rfl

/-- The second sender uses the id again: its frame is dropped and acknowledged. -/
theorem not_acksOnlyHeld_taken :
    ¬ ∀ s env channelId body hdr, Reached load {} s → deliveryOf load body = some hdr →
      s.isAllowedSender hdr.senderId = true → AcksOnlyHeld load {} env s channelId body hdr := by
  intro h
  obtain ⟨hcreds, hallowed, hfind⟩ := taken_facts
  have hframe := deliveryOf_frameFrom 2 zero_notMem_store
  refine not_acksOnlyHeld_of_clashes hframe hallowed ⟨hcreds, _, hfind, ?_⟩ (h taken clockZero [] _ _ reached_taken hframe hallowed)
  rintro ⟨hsender, _⟩
  exact senderHex_one_ne_two hsender

end ScatterWeb.Inbox
