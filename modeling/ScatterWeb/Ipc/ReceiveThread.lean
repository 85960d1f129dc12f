import ScatterWeb.Ipc.Call
import ScatterWeb.Lib.HandlerThread

/-! # The receive thread of an `ipc::Client`

`recv_loop` reads the responses and the pushes of a connection and runs the push handler. A script is what a daemon does with a push;
its calls are those of `Client::call` on the same connection, which end with a result or an exception. -/
namespace ScatterWeb.Ipc
open Crypto Lib Lib.Cbor Lib.HandlerThread Client CborValue
set_option autoImplicit false

structure CallArgs where
  method : String
  params : CborMap

abbrev Script (σ β : Type) := Prog σ CallArgs (Except Bytes CborMap) β

def callFailures : Failures CallArgs (Except Bytes CborMap) where
  notConnected c := .error (ascii ("IPC client not connected: " ++ c.method))
  timedOut c := .error (ascii ("IPC call timed out: " ++ c.method))

section Scripts
variable {σ : Type}

def callMethod (method : String) (params : CborMap) : Script σ (Except Bytes CborMap) := .request ⟨method, params⟩

def frameParams (channelId payload : Bytes) : CborMap :=
  let m := CborMap.empty.set "channel_id" (.string channelId) (keyed_string _)
  m.set "payload" (.bytes payload) (keyed_bytes _)

/-- `frame.send` inside a `try`; its result is not used. -/
def sendFrame (channelId payload : Bytes) : Script σ Unit := do
  let _ ← callMethod "frame.send" (frameParams channelId payload)
  pure ()

end Scripts

/-- What `on_ar_push` of the inbox and of the outbox looks for. -/
def frameRecv (p : Push) : Option (Bytes × Bytes) :=
  if p.event = ascii "frame.recv" then
    match p.payload.find "channel_id", p.payload.find "payload" with
    | some (.string channelId), some (.bytes body) => some (channelId, body)
    | _, _ => none
  else none

/-! ## Scripts with answers -/

/-- Every call is answered, and written down. -/
def answering (answers : CallArgs → Except Bytes CborMap) (log : List CallArgs) (c : CallArgs) : List CallArgs × Except Bytes CborMap :=
  (log ++ [c], answers c)

/-- What goes to `frame.send`: the channel and the payload. -/
def sentFrame (c : CallArgs) : Option (Bytes × Bytes) :=
  if c.method = "frame.send" then
    match c.params.find "channel_id", c.params.find "payload" with
    | some (.string channelId), some (.bytes payload) => some (channelId, payload)
    | _, _ => none
  else none

def sentFrames (log : List CallArgs) : List (Bytes × Bytes) := log.filterMap sentFrame

theorem sentFrames_concat_of_ne {c : CallArgs} (h : c.method ≠ "frame.send") (log : List CallArgs) :
    sentFrames (log ++ [c]) = sentFrames log := by
  simp [sentFrames, sentFrame, h]

variable {σ : Type} (answers : CallArgs → Except Bytes CborMap)

theorem replay_sendFrame (channelId payload : Bytes) (s : σ) (log : List CallArgs) :
    ∃ log', (sendFrame channelId payload).replay (answering answers) s log = (s, log', ()) ∧
      sentFrames log' = sentFrames log ++ [(channelId, payload)] := by
  refine ⟨_, rfl, ?_⟩
  simp [answering, sentFrames, sentFrame, frameParams]

theorem replay_sendFrames (frames : List (Bytes × Bytes)) (s : σ) (log : List CallArgs) :
    ∃ log', (Prog.forEach (fun f => sendFrame f.1 f.2) frames).replay (answering answers) s log = (s, log', ()) ∧
      sentFrames log' = sentFrames log ++ frames := by
  induction frames generalizing log with
  | nil => exact ⟨log, rfl, (List.append_nil _).symm⟩
  | cons f frames ih =>
    obtain ⟨log₁, hfirst, hsent₁⟩ := replay_sendFrame answers f.1 f.2 s log
    obtain ⟨log₂, hrest, hsent₂⟩ := ih log₁
    refine ⟨log₂, ?_, ?_⟩
    · rw [Prog.forEach, Prog.bind_replay, hfirst]
      exact hrest
    · rw [hsent₂, hsent₁, List.append_assoc]
      rfl

end ScatterWeb.Ipc
