import ScatterWeb.Inbox.Steps
import ScatterWeb.Ipc.ReceiveThread

/-! # The inbox on its receive thread

`on_ar_push` runs on the thread that reads the connection to the AnonRouter, and its acknowledgements, replications and answers to
polls are calls on this connection. Here they are calls that wait. With answers for them the scripts do what the handlers of
`Model` do; on the receive thread there are no answers, and `Answered` says which frames make it call. -/
namespace ScatterWeb.Inbox.OnRecv
open Crypto Lib Lib.Cbor Lib.HandlerThread Lib.HandlerThread.Prog Client Mailbox Ipc Ipc.CborValue
set_option autoImplicit false

/-- The store and the pushes to the Client. -/
structure Daemon where
  store : InboxStore
  pushes : List (Bytes × Bytes) := []

/-! ## Channels -/

def channelsOf (result : Ipc.CborMap) : List CborValue :=
  match result.find "channels" with
  | some (.array xs) => xs
  | _ => []

/-- An open channel to the key; its id has to be a text, else `as_string` throws. -/
def channelEntry (keyHex : Bytes) : CborValue → Option (Option Bytes)
  | .map m =>
    let field k := (m.find? (fun e => e.1 = ascii k)).map Prod.snd
    match field "remote_pubkey", field "state", field "channel_id" with
    | some (.string rp), some (.string st), some ci =>
      if rp = keyHex ∧ st = ascii "open" then
        match ci with
        | .string chan => some (some chan)
        | _ => some none
      else none
    | _, _, _ => none
  | _ => none

def channelOpenParams (keyHex : Bytes) : Ipc.CborMap :=
  let m := Ipc.CborMap.empty.set "remote_pubkey" (.string keyHex) (keyed_string _)
  let m := m.set "anon_level" (.uint 2) (keyed_uint _)
  m.set "mode" (.string (ascii "message")) (keyed_string _)

section Scripts
variable {σ : Type}

/-- `none` where it throws. -/
def ensureChannel (keyHex : Bytes) : Script σ (Option Bytes) := do
  match ← callMethod "channel.list" .empty with
  | .error _ => pure none
  | .ok result =>
    match (channelsOf result).findSome? (channelEntry keyHex) with
    | some chan => pure chan
    | none =>
      match ← callMethod "channel.open" (channelOpenParams keyHex) with
      | .error _ => pure none
      | .ok r =>
        match r.find "channel_id" with
        | some (.string chan) => pure (some chan)
        | _ => pure none

end Scripts

/-! ## Frames -/

section Frames
variable (load : Bytes → Option Item) (cfg : Config) (env : Env)

def sendAck (channelId messageId : Bytes) : Script Daemon Unit := do
  let d ← get
  match d.store.dhtCredentials with
  | none => pure ()
  | some creds => sendFrame channelId (deliveryAck messageId creds.keyCPubkey)

/-- One turn of the loop over the siblings. -/
def replicateTo (payload : Bytes) (sib : SiblingInbox) : Script Daemon Unit := do
  match ← ensureChannel (bytesToHex sib.keyCPubkey) with
  | none => pure ()
  | some chan => sendFrame chan payload

def replicateToSiblings (messageId : Bytes) : Script Daemon Unit := do
  let d ← get
  match d.store.getMessage messageId with
  | none => pure ()
  | some msg => forEach (replicateTo (replicationFrame messageId msg.deliveryFrame)) d.store.siblings.rows

def pushAvailable (hdr : FrameHeader) : Script Daemon Unit :=
  modify (fun d => { d with pushes := d.pushes ++ [(hdr.messageId, hdr.senderId)] })

/-- What follows once the message is stored. -/
def announce (channelId : Bytes) (hdr : FrameHeader) (persistence : Bytes) : Script Daemon Unit := do
  sendAck channelId hdr.messageId
  pushAvailable hdr
  if isPassThrough persistence then pure () else replicateToSiblings hdr.messageId

def storeDelivery (channelId body : Bytes) (hdr : FrameHeader) : Script Daemon Unit := do
  let d ← get
  if d.store.messageExists hdr.messageId then sendAck channelId hdr.messageId
  else
    let msg := deliveredMessage cfg env body hdr
    modify (fun d => { d with store := (d.store.insertMessage msg).1 })
    if (d.store.insertMessage msg).2 then announce channelId hdr msg.persistence else pure ()

def handleReplicationFrame (body : Bytes) : Script Daemon Unit :=
  modify (fun d =>
    let (store, out) := Inbox.handleReplicationFrame load env d.store body
    { store := store, pushes := d.pushes ++ out.pushes })

def handleOutboxPoll (channelId : Bytes) : Script Daemon Unit := do
  let d ← get
  forEach (fun f => sendFrame f.1 f.2) (Inbox.handleOutboxPoll d.store channelId)

/-- The check of the sender reads the store and, with no guard channels, leaves it as it is. -/
def processDeliveryFrame (channelId body : Bytes) : Script Daemon Unit :=
  match load body with
  | none => pure ()
  | some root =>
    if frameType root = ascii "inbox_replication_frame" then handleReplicationFrame load env body
    else if frameType root = ascii "outbox_poll" then handleOutboxPoll channelId
    else if isIgnored (frameType root) then pure ()
    else
      match parseFrameHeader load body with
      | none => pure ()
      | some hdr => do
        let d ← get
        match admitSender cfg false env.nowS d.store hdr.senderId with
        | none => pure ()
        | some s => do
          modify (fun d => { d with store := s })
          storeDelivery cfg env channelId body hdr

def onArPush (p : Ipc.Push) : Script Daemon Unit :=
  match frameRecv p with
  | none => pure ()
  | some (channelId, body) => processDeliveryFrame load cfg env channelId body

end Frames

/-! ## With answers -/

section Answers
variable (answers : CallArgs → Except Bytes Ipc.CborMap)

/-- The channel that `ensure_channel` gets with these answers. -/
def channelFrom (keyHex : Bytes) : Option Bytes :=
  ((ensureChannel keyHex : Script Unit (Option Bytes)).replay (fun _ c => ((), answers c)) () ()).2.2

/-- The script does to the daemon what a handler of `Model` returns. -/
def Does (script : Script Daemon Unit) (d : Daemon) (result : InboxStore × Output) : Prop :=
  ∀ log, ∃ log', script.replay (answering answers) d log = (⟨result.1, d.pushes ++ result.2.pushes⟩, log', ()) ∧
    sentFrames log' = sentFrames log ++ result.2.sent

variable {answers} {load : Bytes → Option Item} {cfg : Config} {env : Env} {d : Daemon}

theorem replay_ensureChannel {σ : Type} (keyHex : Bytes) (s : σ) (log : List CallArgs) :
    ∃ log', (ensureChannel keyHex).replay (answering answers) s log = (s, log', channelFrom answers keyHex) ∧
      sentFrames log' = sentFrames log := by
  have hlist : sentFrames (log ++ [⟨"channel.list", .empty⟩]) = sentFrames log := sentFrames_concat_of_ne (by decide) log
  have hopen : sentFrames (log ++ [⟨"channel.list", .empty⟩] ++ [⟨"channel.open", channelOpenParams keyHex⟩]) = sentFrames log :=
    (sentFrames_concat_of_ne (show "channel.open" ≠ "frame.send" by decide) _).trans hlist
  unfold channelFrom ensureChannel
  simp only [callMethod, bind_eq, request_bind, replay, answering]
  cases answers ⟨"channel.list", .empty⟩ with
  | error what => exact ⟨_, rfl, hlist⟩
  | ok result =>
    dsimp only
    cases (channelsOf result).findSome? (channelEntry keyHex) with
    | some chan => exact ⟨_, rfl, hlist⟩
    | none =>
      simp only [replay, answering]
      cases answers ⟨"channel.open", channelOpenParams keyHex⟩ with
      | error what => exact ⟨_, rfl, hopen⟩
      | ok r =>
        dsimp only
        split
        · exact ⟨_, rfl, hopen⟩
        · exact ⟨_, rfl, hopen⟩

theorem does_done : Does answers (.done ()) d (d.store, {}) := by
  intro log
  refine ⟨log, ?_, by simp⟩
  rw [replay, List.append_nil]

theorem does_get {f : Daemon → Script Daemon Unit} {result : InboxStore × Output} (h : Does answers (f d) d result) :
    Does answers (get.bind f) d result := h

theorem does_modify {g : Daemon → InboxStore} {f : Unit → Script Daemon Unit} {result : InboxStore × Output}
    (h : Does answers (f ()) ⟨g d, d.pushes⟩ result) : Does answers ((Prog.modify (fun d => ⟨g d, d.pushes⟩)).bind f) d result := h

theorem does_bind {p : Script Daemon Unit} {f : Unit → Script Daemon Unit} {store store' : InboxStore} {out out' : Output}
    (hp : Does answers p d (store, out)) (hf : Does answers (f ()) ⟨store, d.pushes ++ out.pushes⟩ (store', out')) :
    Does answers (p.bind f) d (store', { sent := out.sent ++ out'.sent, pushes := out.pushes ++ out'.pushes }) := by
  intro log
  obtain ⟨log₁, hp, hsent⟩ := hp log
  obtain ⟨log₂, hf, hsent'⟩ := hf log₁
  refine ⟨log₂, ?_, ?_⟩
  · rw [bind_replay, hp]
    dsimp only
    rw [hf, List.append_assoc]
  · rw [hsent', hsent, List.append_assoc]

theorem does_sendFrame (channelId payload : Bytes) :
    Does answers (sendFrame channelId payload) d (d.store, { sent := [(channelId, payload)] }) := by
  intro log
  obtain ⟨log', hreplay, hsent⟩ := replay_sendFrame answers channelId payload d log
  refine ⟨log', ?_, hsent⟩
  rw [hreplay, List.append_nil]

theorem does_sendAck (channelId messageId : Bytes) :
    Does answers (sendAck channelId messageId) d (d.store, { sent := Inbox.sendAck d.store channelId messageId }) := by
  unfold sendAck Inbox.sendAck
  refine does_get ?_
  cases d.store.dhtCredentials with
  | none => exact does_done
  | some creds => exact does_sendFrame _ _

theorem does_replicateTo (payload : Bytes) (sib : SiblingInbox) :
    Does answers (replicateTo payload sib) d
      (d.store, { sent := ((channelFrom answers (bytesToHex sib.keyCPubkey)).map (fun chan => (chan, payload))).toList }) := by
  intro log
  obtain ⟨log₁, hchan, hsent⟩ := replay_ensureChannel (bytesToHex sib.keyCPubkey) d log
  unfold replicateTo
  rw [bind_eq, bind_replay, hchan]
  dsimp only
  cases channelFrom answers (bytesToHex sib.keyCPubkey) with
  | none =>
    obtain ⟨log₂, hrest, hsent'⟩ := does_done log₁
    exact ⟨log₂, hrest, by simpa [hsent] using hsent'⟩
  | some chan =>
    obtain ⟨log₂, hrest, hsent'⟩ := does_sendFrame chan payload log₁
    exact ⟨log₂, hrest, by simpa [hsent] using hsent'⟩

theorem does_forEach_replicateTo (payload : Bytes) (sibs : List SiblingInbox) :
    Does answers (forEach (replicateTo payload) sibs) d (d.store, { sent := sibs.filterMap (fun sib =>
      (channelFrom answers (bytesToHex sib.keyCPubkey)).map (fun chan => (chan, payload))) }) := by
  induction sibs with
  | nil => exact does_done
  | cons sib sibs ih =>
    have hnil : (⟨d.store, d.pushes ++ []⟩ : Daemon) = d := by rw [List.append_nil]
    have h := does_bind (f := fun _ => forEach (replicateTo payload) sibs) (does_replicateTo payload sib) (hnil ▸ ih)
    cases hchan : channelFrom answers (bytesToHex sib.keyCPubkey) with
    | none => simpa [forEach, hchan] using h
    | some chan => simpa [forEach, hchan] using h

theorem does_replicateToSiblings (henv : env.ensureChannel = channelFrom answers) (messageId : Bytes) :
    Does answers (replicateToSiblings messageId) d (d.store, { sent := Inbox.replicateToSiblings env d.store messageId }) := by
  unfold replicateToSiblings Inbox.replicateToSiblings
  rw [henv]
  refine does_get ?_
  cases d.store.getMessage messageId with
  | none => exact does_done
  | some msg => exact does_forEach_replicateTo _ _

theorem does_announce (henv : env.ensureChannel = channelFrom answers) (channelId : Bytes) (hdr : FrameHeader) (persistence : Bytes) :
    Does answers (announce channelId hdr persistence) d (d.store,
      { sent := Inbox.sendAck d.store channelId hdr.messageId ++
          (if isPassThrough persistence then [] else Inbox.replicateToSiblings env d.store hdr.messageId)
        pushes := [(hdr.messageId, hdr.senderId)] }) := by
  have hpush : Does answers (pushAvailable hdr) ⟨d.store, d.pushes ++ []⟩ (d.store, { pushes := [(hdr.messageId, hdr.senderId)] }) :=
    fun log => ⟨log, rfl, by simp⟩
  have hrest : ∀ d : Daemon, Does answers (if isPassThrough persistence then pure () else replicateToSiblings hdr.messageId) d
      (d.store, { sent := if isPassThrough persistence then [] else Inbox.replicateToSiblings env d.store hdr.messageId }) := by
    intro d
    cases isPassThrough persistence with
    | true => exact does_done
    | false => exact does_replicateToSiblings henv hdr.messageId
  let rest : Script Daemon Unit := if isPassThrough persistence then pure () else replicateToSiblings hdr.messageId
  exact does_bind (f := fun _ => (pushAvailable hdr).bind (fun _ => rest)) (does_sendAck channelId hdr.messageId)
    (does_bind (f := fun _ => rest) hpush (hrest ⟨d.store, _⟩))

theorem does_storeDelivery (henv : env.ensureChannel = channelFrom answers) (channelId body : Bytes) (hdr : FrameHeader) :
    Does answers (storeDelivery cfg env channelId body hdr) d (Inbox.storeDelivery cfg env d.store channelId body hdr) := by
  unfold storeDelivery Inbox.storeDelivery
  refine does_get ?_
  cases d.store.messageExists hdr.messageId with
  | true => exact does_sendAck channelId hdr.messageId
  | false =>
    cases hins : d.store.insertMessage (deliveredMessage cfg env body hdr) with
    | mk store inserted =>
      refine does_modify (g := fun d => (d.store.insertMessage (deliveredMessage cfg env body hdr)).1) ?_
      simp only [hins]
      cases inserted with
      | true => exact does_announce henv channelId hdr _
      | false => exact does_done

theorem handleReplicationFrame_sent (s : InboxStore) (body : Bytes) : (Inbox.handleReplicationFrame load env s body).2.sent = [] := by
  unfold Inbox.handleReplicationFrame
  split
  · dsimp only
    split_ifs
    · rfl
    · split
      · rfl
      · rfl
  · rfl

/-- With answers to its calls, the receive thread handles a frame as the inbox of `Model` does. -/
theorem does_processDeliveryFrame (henv : env.ensureChannel = channelFrom answers) (channelId body : Bytes) :
    Does answers (processDeliveryFrame load cfg env channelId body) d (Inbox.processDeliveryFrame load cfg env d.store channelId body) := by
  unfold processDeliveryFrame Inbox.processDeliveryFrame
  cases load body with
  | none => exact does_done
  | some root =>
    dsimp only
    split_ifs with hrep hpoll hign
    · refine fun log => ⟨log, rfl, ?_⟩
      rw [handleReplicationFrame_sent, List.append_nil]
    · intro log
      obtain ⟨log', hreplay, hsent⟩ := replay_sendFrames answers (Inbox.handleOutboxPoll d.store channelId) d log
      refine ⟨log', ?_, hsent⟩
      rw [List.append_nil]
      exact hreplay
    · exact does_done
    · cases parseFrameHeader load body with
      | none => exact does_done
      | some hdr =>
        refine does_get ?_
        simp only [admit_false]
        by_cases hallowed : d.store.isAllowedSender hdr.senderId = true
        · simp only [hallowed, if_true]
          exact does_storeDelivery henv channelId body hdr
        · simp only [hallowed]
          exact does_done

end Answers

/-! ## On the receive thread -/

section Waiting
variable {load : Bytes → Option Item} {cfg : Config} {env : Env} {channelId body : Bytes} {hdr : FrameHeader}

/-- A poll is answered with a call, and a delivery of an allowed sender with one if there are credentials for an acknowledgement, or if it
is new, to be stored, and there are siblings for it. -/
def Answered (load : Bytes → Option Item) (s : InboxStore) (body : Bytes) : Prop :=
  (∃ root, load body = some root ∧ frameType root = ascii "outbox_poll") ∨
  ∃ hdr, deliveryOf load body = some hdr ∧ s.isAllowedSender hdr.senderId = true ∧
    (s.dhtCredentials.isSome = true ∨
      (s.messageExists hdr.messageId = false ∧ isPassThrough (orStore hdr.persistence) = false ∧ s.siblings.rows ≠ []))

theorem sendAck_bind_pauses_iff (d : Daemon) (messageId : Bytes) (f : Unit → Script Daemon Unit) :
    ((sendAck channelId messageId).bind f).Pauses (fun _ => none) d ↔
      d.store.dhtCredentials.isSome = true ∨ (f ()).Pauses (fun _ => none) d := by
  unfold sendAck
  simp only [bind_eq, get_bind, Prog.bind, step_pauses]
  cases d.store.dhtCredentials with
  | none => simp
  | some creds => simp [sendFrame, callMethod, Prog.bind]

theorem sendAck_pauses_iff (d : Daemon) (messageId : Bytes) :
    (sendAck channelId messageId).Pauses (fun _ => none) d ↔ d.store.dhtCredentials.isSome = true := by
  unfold sendAck
  simp only [bind_eq, get_bind, step_pauses]
  cases d.store.dhtCredentials with
  | none => simp
  | some creds => simp [sendFrame, callMethod]

theorem replicateToSiblings_pauses_iff (d : Daemon) (messageId : Bytes) :
    (replicateToSiblings messageId).Pauses (fun _ => none) d ↔
      (d.store.getMessage messageId).isSome = true ∧ d.store.siblings.rows ≠ [] := by
  unfold replicateToSiblings
  simp only [bind_eq, get_bind, step_pauses]
  cases d.store.getMessage messageId with
  | none => simp
  | some msg =>
    cases hrows : d.store.siblings.rows with
    | nil => simp [forEach]
    | cons sib rows => simp [forEach, bind_pauses, replicateTo, ensureChannel, callMethod]

theorem announce_pauses_iff {d : Daemon} (hget : (d.store.getMessage hdr.messageId).isSome = true) (persistence : Bytes) :
    (announce channelId hdr persistence).Pauses (fun _ => none) d ↔
      d.store.dhtCredentials.isSome = true ∨ (isPassThrough persistence = false ∧ d.store.siblings.rows ≠ []) := by
  unfold announce
  rw [bind_eq, sendAck_bind_pauses_iff]
  refine or_congr_right ?_
  simp only [pushAvailable, bind_eq, modify_bind, step_pauses]
  cases isPassThrough persistence with
  | true => simp
  | false => simpa [replicateToSiblings_pauses_iff] using fun _ => hget

theorem storeDelivery_pauses_iff (d : Daemon) :
    (storeDelivery cfg env channelId body hdr).Pauses (fun _ => none) d ↔ d.store.dhtCredentials.isSome = true ∨
      (d.store.messageExists hdr.messageId = false ∧ isPassThrough (orStore hdr.persistence) = false ∧ d.store.siblings.rows ≠ []) := by
  unfold storeDelivery
  simp only [bind_eq, get_bind, step_pauses]
  cases hexists : d.store.messageExists hdr.messageId with
  | true => simp [sendAck_pauses_iff]
  | false =>
    have hnone := d.store.messageExists_eq_false_iff.mp hexists
    have hins : (d.store.insertMessage (deliveredMessage cfg env body hdr)).2 = true := Table.insertNew_of_find_none hnone
    have hfind : (d.store.insertMessage (deliveredMessage cfg env body hdr)).1.messages.find hdr.messageId =
        some (deliveredMessage cfg env body hdr) := (Table.find_insertNew _ _ _).trans (if_pos ⟨rfl, hnone⟩)
    have hget := congrArg Option.isSome (InboxStore.getMessage_of_find _ hfind)
    simp only [Bool.false_eq_true, if_false, modify_bind, step_pauses, hins, if_true, id, true_and]
    exact announce_pauses_iff hget _

theorem processDeliveryFrame_pauses_iff (d : Daemon) :
    (processDeliveryFrame load cfg env channelId body).Pauses (fun _ => none) d ↔ Answered load d.store body := by
  unfold processDeliveryFrame Answered deliveryOf
  cases hload : load body with
  | none => simp
  | some root =>
    have hne : ascii "inbox_replication_frame" ≠ ascii "outbox_poll" := by decide +kernel
    by_cases hrep : frameType root = ascii "inbox_replication_frame"
    · simp [hrep, hne, handleReplicationFrame, Prog.modify]
    · by_cases hpoll : frameType root = ascii "outbox_poll"
      · simp [hpoll, hne.symm, handleOutboxPoll, Inbox.handleOutboxPoll, forEach, sendFrame, callMethod, Prog.bind]
      · by_cases hign : isIgnored (frameType root) = true
        · simp [hrep, hpoll, hign]
        · cases hparse : parseFrameHeader load body with
          | none => simp [hrep, hpoll, hign]
          | some hdr =>
            by_cases hallowed : d.store.isAllowedSender hdr.senderId = true
            · simp [hrep, hpoll, hign, admit_false, hallowed, storeDelivery_pauses_iff]
            · simp [hrep, hpoll, hign, admit_false, hallowed]

/-- The pushes for which the inbox calls. -/
def Calls (load : Bytes → Option Item) (d : Daemon) (p : Ipc.Push) : Prop := ∃ channelId body, frameRecv p = some (channelId, body) ∧ Answered load d.store body

theorem onArPush_pauses_iff (d : Daemon) (p : Ipc.Push) :
    (onArPush load cfg env p).Pauses (fun _ => none) d ↔ Calls load d p := by
  unfold onArPush Calls
  cases frameRecv p with
  | none => simp
  | some f =>
    obtain ⟨channelId, body⟩ := f
    simp [processDeliveryFrame_pauses_iff]

end Waiting

end ScatterWeb.Inbox.OnRecv
