import ScatterWeb.Ipc.ReceiveThread
import ScatterWeb.Outbox.Model

/-! # The outbox on its receive thread

Of the frames that the AnonRouter pushes only a poll is answered, with a call on the connection that it came over. -/
namespace ScatterWeb.Outbox.OnRecv
open Crypto Lib Lib.Cbor Lib.HandlerThread Lib.HandlerThread.Prog Client Mailbox Ipc
set_option autoImplicit false

/-- The store and the ids announced to the Client. -/
structure Daemon where
  store : OutboxStore
  pushes : List Bytes := []

section Frames
variable (load : Bytes → Option Item)

/-- What a handler without a call does. -/
def apply (handle : OutboxStore → OutboxStore × Output) : Script Daemon Unit :=
  Prog.modify (fun d =>
    let (store, out) := handle d.store
    { store := store, pushes := d.pushes ++ out.pushes })

def handlePoll (channelId : Bytes) (kvs : List (Item × Item)) : Script Daemon Unit := do
  let d ← get
  forEach (fun f => sendFrame f.1 f.2) (Outbox.handlePoll d.store channelId kvs)

def onFrame (channelId body : Bytes) : Script Daemon Unit :=
  match load body with
  | some (.map kvs) =>
    if frameType (.map kvs) = ascii "delivery_ack" then apply (fun s => handleDeliveryAck s kvs)
    else if frameType (.map kvs) = ascii "outbox_poll" then handlePoll channelId kvs
    else if frameType (.map kvs) = ascii "outbox_poll_ack" then apply (fun s => handlePollAck s kvs)
    else pure ()
  | _ => pure ()

def onArPush (p : Ipc.Push) : Script Daemon Unit :=
  match frameRecv p with
  | none => pure ()
  | some (channelId, body) => onFrame load channelId body

end Frames

/-! ## With answers -/

section Answers
variable {load : Bytes → Option Item} (answers : CallArgs → Except Bytes Ipc.CborMap)

theorem handleDeliveryAck_sent (s : OutboxStore) (kvs : List (Item × Item)) : (handleDeliveryAck s kvs).2.sent = [] := by
  unfold handleDeliveryAck
  dsimp only
  split_ifs
  · rfl
  · rfl
  · rfl

/-- With an answer to its call, the receive thread handles a frame as the outbox of `Model` does. -/
theorem replay_onFrame (channelId body : Bytes) (d : Daemon) (log : List CallArgs) :
    ∃ log', (onFrame load channelId body).replay (answering answers) d log =
        (⟨(Outbox.onFrame load d.store channelId body).1, d.pushes ++ (Outbox.onFrame load d.store channelId body).2.pushes⟩, log', ()) ∧
      sentFrames log' = sentFrames log ++ (Outbox.onFrame load d.store channelId body).2.sent := by
  have hnothing : ∃ log', (Prog.done () : Script Daemon Unit).replay (answering answers) d log = (⟨d.store, d.pushes ++ []⟩, log', ()) ∧
      sentFrames log' = sentFrames log ++ [] := ⟨log, by simp [replay], by simp⟩
  unfold onFrame Outbox.onFrame
  cases load body with
  | none => exact hnothing
  | some root =>
    cases root with
    | map kvs =>
      dsimp only
      split_ifs with hack hpoll hpollAck
      · refine ⟨log, rfl, ?_⟩
        rw [handleDeliveryAck_sent, List.append_nil]
      · obtain ⟨log', hreplay, hsent⟩ := replay_sendFrames answers (Outbox.handlePoll d.store channelId kvs) d log
        refine ⟨log', ?_, hsent⟩
        rw [List.append_nil]
        exact hreplay
      · exact ⟨log, rfl, (List.append_nil _).symm⟩
      · exact hnothing
    | _ => exact hnothing

end Answers

/-! ## On the receive thread -/

section Waiting
variable {load : Bytes → Option Item} {channelId body : Bytes}

/-- A poll with a key. -/
def Answered (load : Bytes → Option Item) (body : Bytes) : Prop :=
  ∃ kvs, load body = some (.map kvs) ∧ frameType (.map kvs) = ascii "outbox_poll" ∧
    (lastField asBytes kvs "inbox_key_c_pubkey").getD [] ≠ []

theorem handlePoll_pauses_iff (kvs : List (Item × Item)) (d : Daemon) :
    (handlePoll channelId kvs).Pauses (fun _ => none) d ↔ (lastField asBytes kvs "inbox_key_c_pubkey").getD [] ≠ [] := by
  unfold handlePoll Outbox.handlePoll
  by_cases hkey : (lastField asBytes kvs "inbox_key_c_pubkey").getD [] = []
  · simp [hkey, forEach]
  · simp [hkey, forEach, sendFrame, callMethod, Prog.bind]

theorem onFrame_pauses_iff (d : Daemon) : (onFrame load channelId body).Pauses (fun _ => none) d ↔ Answered load body := by
  have hne : ascii "delivery_ack" ≠ ascii "outbox_poll" := by decide +kernel
  unfold onFrame Answered
  split
  · rename_i kvs hload
    rw [hload]
    by_cases hack : frameType (.map kvs) = ascii "delivery_ack"
    · simp [hack, hne, apply, Prog.modify]
    · by_cases hpoll : frameType (.map kvs) = ascii "outbox_poll"
      · simp [hpoll, hne.symm, handlePoll_pauses_iff]
      · by_cases hpollAck : frameType (.map kvs) = ascii "outbox_poll_ack"
        · rw [if_neg hack, if_neg hpoll, if_pos hpollAck]
          simp [hpoll, apply, Prog.modify]
        · simp [hack, hpoll, hpollAck]
  · rename_i hother
    simp only [pure_eq, done_pauses, false_iff]
    rintro ⟨kvs, hload, _⟩
    exact hother kvs hload

/-- The pushes for which the outbox calls. -/
def Calls (load : Bytes → Option Item) (_ : Daemon) (p : Ipc.Push) : Prop := ∃ channelId body, frameRecv p = some (channelId, body) ∧ Answered load body

theorem onArPush_pauses_iff (d : Daemon) (p : Ipc.Push) : (onArPush load p).Pauses (fun _ => none) d ↔ Calls load d p := by
  unfold onArPush Calls
  cases frameRecv p with
  | none => simp
  | some f =>
    obtain ⟨channelId, body⟩ := f
    simp [onFrame_pauses_iff]

end Waiting

end ScatterWeb.Outbox.OnRecv
