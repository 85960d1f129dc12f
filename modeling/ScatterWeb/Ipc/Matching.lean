import ScatterWeb.Ipc.Call
import ScatterWeb.Ipc.Framing

/-! # Calls and their responses

Any number of threads call on one connection of an `ipc::Client`. A call takes an id, puts its promise under that id into `pending_`,
writes its request and waits; the receive thread takes the promise out again when a response with the id comes, and so does the
call when it gives up. The server handles one request after another. Frames arrive whole and in order: a socket is the list of
the messages written to it, and a reader takes them one by one.

A call that returns has the result that the handler gave to its request, wherever in between other calls, timeouts and pushes
fall. -/
namespace ScatterWeb.Ipc
open Crypto Lib Lib.Cbor Client
set_option autoImplicit false

/-! ## One connection -/

/-- What makes a future ready: a response, with the number of the frame that it came in, `disconnect`, or the end of a promise
without a value. -/
inductive Answer
  | response (frame : ℕ) (resp : Response)
  | disconnected
  | broken

/-- How far `call` has come. -/
inductive CallPhase
  | numbered
  | registered
  | waiting
  /-- `wait_for` has given up, and the id is still in `pending_`, or was. -/
  | expired
  | returned (result : CborMap)
  | threw (what : Bytes)

structure CallRecord where
  req : Request
  phase : CallPhase := .numbered
  answer : Option Answer := none

/-- A request that the handler was called for, and the state that it found. -/
structure Served (σ : Type) where
  state : σ
  req : Request

/-- The calls are in the order of their ids. Of the requests written to the server the first ones, as many as are `served`, are read;
of the messages to the client the first `received`. -/
structure Exchange (σ : Type) where
  running : Bool
  /-- `disconnect` has begun and not yet failed the calls in `pending_`. -/
  closing : Bool
  nextId : UInt64
  calls : List CallRecord
  pending : List (UInt64 × ℕ)
  toServer : List Request
  server : σ
  served : List (Served σ)
  toClient : List ServerMsg
  received : ℕ

namespace CallRecord

/-- `set_value`, which throws inside a `try` where there is a value. -/
def setValue (a : Answer) (c : CallRecord) : CallRecord := { c with answer := c.answer.or (some a) }

def goTo (phase : CallPhase) (c : CallRecord) : CallRecord := { c with phase }

/-- The request is written. -/
def Sent (c : CallRecord) : Prop := c.phase ≠ .numbered ∧ c.phase ≠ .registered

end CallRecord

namespace Exchange
variable {σ : Type} (load : Bytes → Option Item) (handler : Handler σ)

def initial (s : σ) : Exchange σ := ⟨true, false, 1, [], [], [], s, [], [], 0⟩

def atCall (x : Exchange σ) (n : ℕ) (f : CallRecord → CallRecord) : Exchange σ := { x with calls := x.calls.modify n f }

def eraseId (x : Exchange σ) (id : UInt64) : Exchange σ := { x with pending := x.pending.filter (fun e => decide (e.1 ≠ id)) }

/-- `pending_[id] = std::move(promise)`. A promise that is replaced leaves its future broken. -/
def register (x : Exchange σ) (n : ℕ) (id : UInt64) : Exchange σ :=
  let x' := match x.pending.find? (fun e => decide (e.1 = id)) with
    | some e => x.atCall e.2 (.setValue .broken)
    | none => x
  { (x'.eraseId id).atCall n (.goTo .registered) with pending := (id, n) :: (x'.eraseId id).pending }

/-- `recv_loop` with a response. -/
def complete (x : Exchange σ) (resp : Response) : Exchange σ :=
  match x.pending.find? (fun e => decide (e.1 = resp.id)) with
  | some e => (x.eraseId resp.id).atCall e.2 (.setValue (.response x.received resp))
  | none => x

/-- One turn of `recv_loop`. -/
def receive (x : Exchange σ) (msg : ServerMsg) : Except String (Exchange σ) := do
  match ← recvLoop load msg.encode with
  | some (.response resp) => .ok { x.complete resp with received := x.received + 1 }
  | _ => .ok { x with received := x.received + 1 }

/-- The end of `disconnect`. -/
def failPending (x : Exchange σ) : Exchange σ :=
  { x with calls := x.pending.foldl (fun calls e => calls.modify e.2 (.setValue .disconnected)) x.calls, pending := [], closing := false }

/-- One turn of `conn_loop`. The threads of other connections have changed the state to `s`. -/
def serve (x : Exchange σ) (junk : UInt64) (s : σ) (req : Request) : Exchange σ :=
  let (s', resp) := connLoop load handler junk s (encodeRequest req)
  { x with server := s', served := x.served ++ [⟨s, req⟩], toClient := x.toClient ++ [.response resp] }

end Exchange

/-- What a call comes to when its future is ready. -/
def Answer.outcome : Answer → CallPhase
  | .response _ resp => if resp.ok then .returned resp.result else .threw (callError resp.error)
  | .disconnected => .threw (callError ⟨-1, ascii "disconnected"⟩)
  | .broken => .threw (ascii "Broken promise")

inductive ExchangeEvent (σ : Type)
  | call (method : Bytes) (params : CborMap) (caller : Bytes)
  | register (n : ℕ)
  | write (n : ℕ)
  | writeFails (n : ℕ)
  /-- `wait_for` ends without a value. -/
  | expire (n : ℕ)
  | erase (n : ℕ)
  /-- The future is ready. -/
  | finish (n : ℕ)
  | serve (junk : UInt64) (meanwhile : σ → σ)
  | push (p : Push)
  | receive
  /-- `recv_loop` ends. -/
  | hangUp
  /-- `disconnect` sets `running_` to false, unless it is false already. -/
  | disconnect
  | failPending

section Steps
variable {σ : Type} (load : Bytes → Option Item) (handler : Handler σ)

/-- The steps of the calls, of the two loops and of the threads that push come in any order. A turn of `recv_loop` that has begun ends
also after `disconnect`. -/
inductive ExchangeStep (x : Exchange σ) : ExchangeEvent σ → Exchange σ → Prop
  | call {method : Bytes} {params : CborMap} {caller : Bytes} (hrunning : x.running = true) : ExchangeStep x (.call method params caller)
      { x with nextId := x.nextId + 1, calls := x.calls ++ [{ req := ⟨x.nextId, caller, method, params⟩ }] }
  | register {n : ℕ} {c : CallRecord} (hc : x.calls[n]? = some c) (hphase : c.phase = .numbered) :
      ExchangeStep x (.register n) (x.register n c.req.id)
  | write {n : ℕ} {c : CallRecord} (hc : x.calls[n]? = some c) (hphase : c.phase = .registered) :
      ExchangeStep x (.write n) { x.atCall n (.goTo .waiting) with toServer := x.toServer ++ [c.req] }
  | writeFails {n : ℕ} {c : CallRecord} (hc : x.calls[n]? = some c) (hphase : c.phase = .registered) :
      ExchangeStep x (.writeFails n) (x.atCall n (.goTo (.threw (ascii "write_frame: write failed"))))
  | expire {n : ℕ} {c : CallRecord} (hc : x.calls[n]? = some c) (hphase : c.phase = .waiting) (hanswer : c.answer = none) :
      ExchangeStep x (.expire n) (x.atCall n (.goTo .expired))
  | erase {n : ℕ} {c : CallRecord} (hc : x.calls[n]? = some c) (hphase : c.phase = .expired) : ExchangeStep x (.erase n)
      ((x.eraseId c.req.id).atCall n (.goTo (.threw (ascii "IPC call timed out: " ++ c.req.method))))
  | finish {n : ℕ} {c : CallRecord} {a : Answer} (hc : x.calls[n]? = some c) (hphase : c.phase = .waiting)
      (hanswer : c.answer = some a) : ExchangeStep x (.finish n) (x.atCall n (.goTo a.outcome))
  | serve {junk : UInt64} {meanwhile : σ → σ} {req : Request} (hreq : x.toServer[x.served.length]? = some req) :
      ExchangeStep x (.serve junk meanwhile) (x.serve load handler junk (meanwhile x.server) req)
  | push {p : Push} : ExchangeStep x (.push p) { x with toClient := x.toClient ++ [.push p] }
  | receive {msg : ServerMsg} {x' : Exchange σ} (hmsg : x.toClient[x.received]? = some msg) (hx' : x.receive load msg = .ok x') :
      ExchangeStep x .receive x'
  | hangUp : ExchangeStep x .hangUp { x with running := false }
  | disconnect (hrunning : x.running = true) : ExchangeStep x .disconnect { x with running := false, closing := true }
  | failPending (hclosing : x.closing = true) : ExchangeStep x .failPending x.failPending

end Steps

/-! ## What a step does -/

section Evolution
variable {σ : Type} {load : Bytes → Option Item} {x : Exchange σ}

/-- The frame with the number is on its way to the client, and is read as the response. -/
def Exchange.Carries (load : Bytes → Option Item) (x : Exchange σ) (frame : ℕ) (resp : Response) : Prop :=
  ∃ msg : ServerMsg, x.toClient[frame]? = some msg ∧ recvLoop load msg.encode = .ok (some (.response resp))

/-- A response completes a call only out of `pending_`, and a call returns only with the response that completed it. -/
structure Evolves (load : Bytes → Option Item) (x : Exchange σ) (n : ℕ) (c c' : CallRecord) : Prop where
  req : c'.req = c.req
  sent : c.Sent → c'.Sent
  keeps : ∀ a, c.answer = some a → c'.answer = some a
  answer : ∀ frame resp, c'.answer = some (.response frame resp) → c.answer = some (.response frame resp) ∨
    (resp.id, n) ∈ x.pending ∧ x.Carries load frame resp
  returned : ∀ r, c'.phase = .returned r → c.phase = .returned r ∨
    ∃ frame resp, c'.answer = some (.response frame resp) ∧ resp.ok = true ∧ resp.result = r

theorem Evolves.refl (n : ℕ) (c : CallRecord) : Evolves load x n c c where
  req := rfl
  sent := id
  keeps := fun _ h => h
  answer := fun _ _ h => Or.inl h
  returned := fun _ h => Or.inl h

theorem Evolves.trans {n : ℕ} {c c' c'' : CallRecord} (h : Evolves load x n c c') (h' : Evolves load x n c' c'') :
    Evolves load x n c c'' where
  req := h'.req.trans h.req
  sent := fun hs => h'.sent (h.sent hs)
  keeps := fun a ha => h'.keeps a (h.keeps a ha)
  answer := by
    intro frame resp ha
    rcases h'.answer frame resp ha with hold | hnew
    · exact h.answer frame resp hold
    · exact Or.inr hnew
  returned := by
    intro r hr
    rcases h'.returned r hr with hold | hnew
    · rcases h.returned r hold with hold | ⟨frame, resp, ha, hresult⟩
      · exact Or.inl hold
      · exact Or.inr ⟨frame, resp, h'.keeps _ ha, hresult⟩
    · exact Or.inr hnew

/-- A value that is no response, or the response that comes for the call. -/
theorem evolves_setValue {n : ℕ} (c : CallRecord) {a : Answer}
    (ha : ∀ frame resp, a = .response frame resp → (resp.id, n) ∈ x.pending ∧ x.Carries load frame resp) :
    Evolves load x n c (c.setValue a) where
  req := rfl
  sent := id
  keeps := by
    intro a' ha'
    simp [CallRecord.setValue, ha']
  answer := by
    intro frame resp h
    rcases Option.or_eq_some_iff.mp h with hold | ⟨_, hnew⟩
    · exact Or.inl hold
    · exact Or.inr (ha frame resp (Option.some.inj hnew))
  returned := fun _ h => Or.inl h

/-- A call that goes on, and does not return yet. -/
theorem evolves_goTo {n : ℕ} {c : CallRecord} {phase : CallPhase} (hsent : c.Sent → (c.goTo phase).Sent)
    (hreturned : ∀ r, phase ≠ .returned r) : Evolves load x n c (c.goTo phase) where
  req := rfl
  sent := hsent
  keeps := fun _ h => h
  answer := fun _ _ h => Or.inl h
  returned := fun r h => absurd h (hreturned r)

theorem evolves_finish {n : ℕ} {c : CallRecord} {a : Answer} (ha : c.answer = some a) : Evolves load x n c (c.goTo a.outcome) where
  req := rfl
  sent := by
    intro _
    unfold CallRecord.Sent CallRecord.goTo
    cases a with
    | response frame resp =>
      rw [Answer.outcome]
      split <;> simp
    | disconnected => simp [Answer.outcome]
    | broken => simp [Answer.outcome]
  keeps := fun _ h => h
  answer := fun _ _ h => Or.inl h
  returned := by
    intro r hr
    have hphase : a.outcome = .returned r := hr
    cases a with
    | response frame resp =>
      rw [Answer.outcome] at hphase
      split at hphase
      · rename_i hok
        cases hphase
        exact Or.inr ⟨frame, resp, ha, hok, rfl⟩
      · cases hphase
    | disconnected => cases hphase
    | broken => cases hphase

/-- All calls are still there, and each has evolved. -/
structure Evolve (load : Bytes → Option Item) (x : Exchange σ) (calls calls' : List CallRecord) : Prop where
  length : calls'.length = calls.length
  each : ∀ n c, calls[n]? = some c → ∃ c', calls'[n]? = some c' ∧ Evolves load x n c c'

theorem Evolve.refl (calls : List CallRecord) : Evolve load x calls calls where
  length := rfl
  each := fun n c hc => ⟨c, hc, .refl n c⟩

theorem Evolve.trans {calls calls' calls'' : List CallRecord} (h : Evolve load x calls calls') (h' : Evolve load x calls' calls'') :
    Evolve load x calls calls'' where
  length := h'.length.trans h.length
  each := by
    intro n c hc
    obtain ⟨c', hc', hevolves⟩ := h.each n c hc
    obtain ⟨c'', hc'', hevolves'⟩ := h'.each n c' hc'
    exact ⟨c'', hc'', hevolves.trans hevolves'⟩

theorem evolve_modify {calls : List CallRecord} {n : ℕ} {f : CallRecord → CallRecord}
    (hf : ∀ c, calls[n]? = some c → Evolves load x n c (f c)) : Evolve load x calls (calls.modify n f) where
  length := by simp
  each := by
    intro m c hc
    by_cases hm : n = m
    · subst hm
      exact ⟨f c, by rw [List.getElem?_modify_eq, hc]; rfl, hf c hc⟩
    · exact ⟨c, by simp [hm, hc], .refl m c⟩

/-- From a later call back to the one before the step. -/
theorem Evolve.back {calls calls' : List CallRecord} (h : Evolve load x calls calls') {n : ℕ} {c' : CallRecord}
    (hc' : calls'[n]? = some c') : ∃ c, calls[n]? = some c ∧ Evolves load x n c c' := by
  have hlt : n < calls.length := h.length ▸ (List.getElem?_eq_some_iff.mp hc').1
  obtain ⟨c'', hc'', hevolves⟩ := h.each n calls[n] (List.getElem?_eq_getElem hlt)
  rw [hc'] at hc''
  cases hc''
  exact ⟨calls[n], List.getElem?_eq_getElem hlt, hevolves⟩

theorem evolve_foldl_setValue {a : Answer} (ha : ∀ frame resp, a ≠ .response frame resp) (entries : List (UInt64 × ℕ))
    (calls : List CallRecord) :
    Evolve load x calls (entries.foldl (fun calls e => calls.modify e.2 (.setValue a)) calls) := by
  induction entries generalizing calls with
  | nil => exact .refl calls
  | cons e entries ih =>
    refine .trans (evolve_modify ?_) (ih _)
    intro c _
    exact evolves_setValue c (fun frame resp h => absurd h (ha frame resp))

end Evolution

section Moves
variable {σ : Type} {load : Bytes → Option Item} {handler : Handler σ} {x x' : Exchange σ}

/-- All that a step can do that is not the beginning of a call. -/
structure Moves (load : Bytes → Option Item) (handler : Handler σ) (x x' : Exchange σ) : Prop where
  nextId : x'.nextId = x.nextId
  calls : Evolve load x x.calls x'.calls
  pending : ∀ e ∈ x'.pending, e ∈ x.pending ∨ ∃ c, x.calls[e.2]? = some c ∧ c.req.id = e.1
  toServer : x'.toServer = x.toServer ∨ ∃ (n : ℕ) (c c' : CallRecord), x.calls[n]? = some c ∧ ¬c.Sent ∧ x'.calls[n]? = some c' ∧ c'.Sent ∧
    x'.toServer = x.toServer ++ [c.req]
  toClient : (x'.served = x.served ∧ x'.toClient = x.toClient) ∨
    (x'.served = x.served ∧ ∃ p, x'.toClient = x.toClient ++ [.push p]) ∨
    ∃ junk s req, x.toServer[x.served.length]? = some req ∧ x'.served = x.served ++ [⟨s, req⟩] ∧
      x'.toClient = x.toClient ++ [.response (connLoop load handler junk s (encodeRequest req)).2]

/-- A step inside the client. -/
theorem moves_of_calls (hnext : x'.nextId = x.nextId) (hcalls : Evolve load x x.calls x'.calls)
    (hpending : ∀ e ∈ x'.pending, e ∈ x.pending ∨ ∃ c, x.calls[e.2]? = some c ∧ c.req.id = e.1)
    (htoServer : x'.toServer = x.toServer) (hserved : x'.served = x.served) (htoClient : x'.toClient = x.toClient) :
    Moves load handler x x' where
  nextId := hnext
  calls := hcalls
  pending := hpending
  toServer := Or.inl htoServer
  toClient := Or.inl ⟨hserved, htoClient⟩

theorem mem_of_mem_eraseId {id : UInt64} {e : UInt64 × ℕ} (h : e ∈ (x.eraseId id).pending) : e ∈ x.pending := (List.mem_filter.mp h).1

theorem mem_pending_of_find {id : UInt64} {e : UInt64 × ℕ} (h : x.pending.find? (fun e => decide (e.1 = id)) = some e) :
    (id, e.2) ∈ x.pending := by
  have hkey : e.1 = id := by simpa using List.find?_some h
  rw [← hkey]
  exact List.mem_of_find?_eq_some h

theorem evolve_goTo {n : ℕ} {phase : CallPhase} (hsent : phase ≠ .numbered ∧ phase ≠ .registered)
    (hreturned : ∀ r, phase ≠ .returned r) (calls : List CallRecord) :
    Evolve load x calls (calls.modify n (.goTo phase)) :=
  evolve_modify (fun _ _ => evolves_goTo (fun _ => hsent) hreturned)

theorem moves_register {n : ℕ} {c : CallRecord} (hc : x.calls[n]? = some c) (hphase : c.phase = .numbered) :
    Moves load handler x (x.register n c.req.id) := by
  have hgo : ∀ calls : List CallRecord, (∀ c', calls[n]? = some c' → c'.phase = .numbered) →
      Evolve load x calls (calls.modify n (.goTo .registered)) := by
    intro calls hnumbered
    refine evolve_modify ?_
    intro c' hc'
    exact evolves_goTo (fun hsent => absurd (hnumbered c' hc') hsent.1) (by simp)
  unfold Exchange.register
  cases hfind : x.pending.find? (fun e => decide (e.1 = c.req.id)) with
  | none =>
    refine moves_of_calls rfl (hgo _ ?_) ?_ rfl rfl rfl
    · intro c' hc'
      have hc' : x.calls[n]? = some c' := hc'
      rw [hc] at hc'
      cases hc'
      exact hphase
    · intro e he
      rcases List.mem_cons.mp he with rfl | hold
      · exact Or.inr ⟨c, hc, rfl⟩
      · exact Or.inl (mem_of_mem_eraseId hold)
  | some entry =>
    refine moves_of_calls rfl (.trans (evolve_modify (n := entry.2) (f := .setValue .broken) ?_) (hgo _ ?_)) ?_ rfl rfl rfl
    · intro c' _
      exact evolves_setValue c' (fun _ _ h => nomatch h)
    · intro c' hc'
      rw [List.getElem?_modify, hc] at hc'
      cases hc'
      dsimp only
      split
      · exact hphase
      · exact hphase
    · intro e he
      rcases List.mem_cons.mp he with rfl | hold
      · exact Or.inr ⟨c, hc, rfl⟩
      · exact Or.inl (mem_of_mem_eraseId hold)

theorem moves_receive {msg : ServerMsg} (hmsg : x.toClient[x.received]? = some msg) (hx' : x.receive load msg = .ok x') :
    Moves load handler x x' := by
  unfold Exchange.receive at hx'
  obtain ⟨got, hgot, hx'⟩ := bind_eq_ok.mp hx'
  have hsame : ∀ k, Moves load handler x { x with received := k } :=
    fun _ => moves_of_calls rfl (.refl _) (fun _ h => Or.inl h) rfl rfl rfl
  split at hx'
  · rename_i resp
    cases hx'
    unfold Exchange.complete
    cases hfind : x.pending.find? (fun e => decide (e.1 = resp.id)) with
    | none => exact hsame _
    | some entry =>
      refine moves_of_calls rfl (evolve_modify ?_) (fun _ h => Or.inl (mem_of_mem_eraseId h)) rfl rfl rfl
      intro c' _
      refine evolves_setValue c' ?_
      rintro frame resp' ⟨⟩
      exact ⟨mem_pending_of_find hfind, msg, hmsg, hgot⟩
  · cases hx'
    exact hsame _

theorem step_moves {e : ExchangeEvent σ} (h : ExchangeStep load handler x e x') :
    (∃ method params caller, x' =
      { x with nextId := x.nextId + 1, calls := x.calls ++ [{ req := ⟨x.nextId, caller, method, params⟩ }] }) ∨
    Moves load handler x x' := by
  cases h with
  | call hrunning => exact Or.inl ⟨_, _, _, rfl⟩
  | register hc hphase => exact Or.inr (moves_register hc hphase)
  | @write n c hc hphase =>
    refine Or.inr ⟨rfl, evolve_goTo (by simp) (by simp) _, fun _ h => Or.inl h, Or.inr ⟨n, c, c.goTo .waiting, hc, ?_, ?_, ?_, rfl⟩,
      Or.inl ⟨rfl, rfl⟩⟩
    · exact fun hsent => hsent.2 hphase
    · simp [Exchange.atCall, hc]
    · simp [CallRecord.Sent, CallRecord.goTo]
  | writeFails hc hphase =>
    exact Or.inr (moves_of_calls rfl (evolve_goTo (by simp) (by simp) _) (fun _ h => Or.inl h) rfl rfl rfl)
  | expire hc hphase hanswer =>
    exact Or.inr (moves_of_calls rfl (evolve_goTo (by simp) (by simp) _) (fun _ h => Or.inl h) rfl rfl rfl)
  | erase hc hphase =>
    exact Or.inr (moves_of_calls rfl (evolve_goTo (by simp) (by simp) _) (fun _ h => Or.inl (mem_of_mem_eraseId h)) rfl rfl rfl)
  | finish hc hphase hanswer =>
    refine Or.inr (moves_of_calls rfl (evolve_modify ?_) (fun _ h => Or.inl h) rfl rfl rfl)
    intro c' hc'
    rw [hc] at hc'
    cases hc'
    exact evolves_finish hanswer
  | @serve junk meanwhile req hreq =>
    exact Or.inr ⟨rfl, .refl _, fun _ h => Or.inl h, Or.inl rfl, Or.inr (Or.inr ⟨junk, meanwhile x.server, req, hreq, rfl, rfl⟩)⟩
  | @push p => exact Or.inr ⟨rfl, .refl _, fun _ h => Or.inl h, Or.inl rfl, Or.inr (Or.inl ⟨rfl, p, rfl⟩)⟩
  | receive hmsg hx' => exact Or.inr (moves_receive hmsg hx')
  | hangUp => exact Or.inr (moves_of_calls rfl (.refl _) (fun _ h => Or.inl h) rfl rfl rfl)
  | disconnect hrunning => exact Or.inr (moves_of_calls rfl (.refl _) (fun _ h => Or.inl h) rfl rfl rfl)
  | failPending hclosing =>
    exact Or.inr (moves_of_calls rfl (evolve_foldl_setValue (by simp) _ _) (fun _ h => absurd h List.not_mem_nil) rfl rfl rfl)

end Moves

/-! ## The invariant -/

section Invariant
variable {σ : Type} {load : Bytes → Option Item} {handler : Handler σ} {x x' : Exchange σ}

/-- Ids count the calls, each request is written at most once and handled in its turn, and a response that completes a call is the
answer to a request with its id. -/
structure Matched (load : Bytes → Option Item) (handler : Handler σ) (x : Exchange σ) : Prop where
  nextId : x.nextId = UInt64.ofNat (x.calls.length + 1)
  ids : ∀ (n : ℕ) (c : CallRecord), x.calls[n]? = some c → c.req.id = UInt64.ofNat (n + 1)
  pending : ∀ e ∈ x.pending, ∃ c, x.calls[e.2]? = some c ∧ c.req.id = e.1
  written : ∀ req ∈ x.toServer, ∃ (n : ℕ) (c : CallRecord), x.calls[n]? = some c ∧ c.Sent ∧ c.req = req
  once : (x.toServer.map Request.id).Nodup
  served : x.served.map Served.req <+: x.toServer
  messages : ∀ msg ∈ x.toClient, (∃ p, msg = .push p) ∨
    ∃ junk, ∃ e ∈ x.served, msg = .response (connLoop load handler junk e.state (encodeRequest e.req)).2
  answers : ∀ (n : ℕ) (c : CallRecord) (frame : ℕ) (resp : Response), x.calls[n]? = some c → c.answer = some (.response frame resp) →
    resp.id = c.req.id ∧ x.Carries load frame resp
  returned : ∀ (n : ℕ) (c : CallRecord) (r : CborMap), x.calls[n]? = some c → c.phase = .returned r →
    ∃ frame resp, c.answer = some (.response frame resp) ∧ resp.ok = true ∧ resp.result = r

theorem matched_initial (s : σ) : Matched load handler (Exchange.initial s) where
  nextId := rfl
  ids := by simp [Exchange.initial]
  pending := by simp [Exchange.initial]
  written := by simp [Exchange.initial]
  once := List.nodup_nil
  served := List.nil_prefix
  messages := by simp [Exchange.initial]
  answers := by simp [Exchange.initial]
  returned := by simp [Exchange.initial]

theorem Matched.eq_of_id_eq (h : Matched load handler x) (hlen : x.calls.length < 2 ^ 64) {m n : ℕ} {c c' : CallRecord}
    (hc : x.calls[m]? = some c) (hc' : x.calls[n]? = some c') (hid : c.req.id = c'.req.id) : m = n := by
  have hm := (List.getElem?_eq_some_iff.mp hc).1
  have hn := (List.getElem?_eq_some_iff.mp hc').1
  rw [h.ids m c hc, h.ids n c' hc'] at hid
  have hnat := congrArg UInt64.toNat hid
  rw [UInt64.toNat_ofNat', UInt64.toNat_ofNat', Nat.mod_eq_of_lt (by omega), Nat.mod_eq_of_lt (by omega)] at hnat
  omega

theorem prefix_concat_of_getElem? {α : Type} {l t : List α} {a : α} (h : l <+: t) (ha : t[l.length]? = some a) : l ++ [a] <+: t := by
  have htake := List.prefix_iff_eq_take.mp h
  rw [List.prefix_iff_eq_take, List.length_append, List.length_singleton, List.take_add_one, ← htake, ha]
  rfl

/-- A new call has an id of its own and nothing else. -/
theorem matched_call (h : Matched load handler x) (req : Request) (hid : req.id = x.nextId) :
    Matched load handler { x with nextId := x.nextId + 1, calls := x.calls ++ [{ req := req }] } := by
  have hcases : ∀ {n : ℕ} {c : CallRecord}, (x.calls ++ [{ req := req }])[n]? = some c →
      x.calls[n]? = some c ∨ n = x.calls.length ∧ c = { req := req } := by
    intro n c hc
    rcases lt_trichotomy n x.calls.length with hlt | rfl | hgt
    · exact Or.inl (by rwa [List.getElem?_append_left hlt] at hc)
    · exact Or.inr ⟨rfl, by simpa using hc.symm⟩
    · rw [List.getElem?_eq_none (by simp; omega)] at hc
      cases hc
  have hold : ∀ {n : ℕ} {c : CallRecord}, x.calls[n]? = some c → (x.calls ++ [{ req := req }])[n]? = some c := by
    intro n c hc
    rw [List.getElem?_append_left (List.getElem?_eq_some_iff.mp hc).1]
    exact hc
  refine ⟨?_, ?_, ?_, ?_, h.once, h.served, h.messages, ?_, ?_⟩
  · have hlength : (x.calls ++ [({ req := req } : CallRecord)]).length = x.calls.length + 1 := by simp
    dsimp only
    rw [hlength, h.nextId, UInt64.ofNat_add (x.calls.length + 1) 1]
    rfl
  · intro n c hc
    rcases hcases hc with hc | ⟨rfl, rfl⟩
    · exact h.ids n c hc
    · exact hid.trans h.nextId
  · intro e he
    obtain ⟨c, hc, hkey⟩ := h.pending e he
    exact ⟨c, hold hc, hkey⟩
  · intro r hr
    obtain ⟨n, c, hc, hsent⟩ := h.written r hr
    exact ⟨n, c, hold hc, hsent⟩
  · intro n c frame resp hc ha
    rcases hcases hc with hc | ⟨_, rfl⟩
    · exact h.answers n c frame resp hc ha
    · cases ha
  · intro n c r hc hr
    rcases hcases hc with hc | ⟨_, rfl⟩
    · exact h.returned n c r hc hr
    · cases hr

theorem Moves.toServer_prefix (hm : Moves load handler x x') : x.toServer <+: x'.toServer := by
  rcases hm.toServer with heq | ⟨_, c, _, _, _, _, _, heq⟩
  · rw [heq]
  · exact ⟨[c.req], heq.symm⟩

theorem Moves.toClient_prefix (hm : Moves load handler x x') : x.toClient <+: x'.toClient := by
  rcases hm.toClient with ⟨_, heq⟩ | ⟨_, p, heq⟩ | ⟨_, _, _, _, _, heq⟩
  · rw [heq]
  · exact ⟨_, heq.symm⟩
  · exact ⟨_, heq.symm⟩

theorem Moves.carries (hm : Moves load handler x x') {frame : ℕ} {resp : Response} (h : x.Carries load frame resp) :
    x'.Carries load frame resp := by
  obtain ⟨msg, hmsg, hrecv⟩ := h
  obtain ⟨more, heq⟩ := hm.toClient_prefix
  refine ⟨msg, ?_, hrecv⟩
  rw [← heq, List.getElem?_append_left (List.getElem?_eq_some_iff.mp hmsg).1]
  exact hmsg

theorem Matched.written_moves (h : Matched load handler x) (hm : Moves load handler x x') {req : Request} (hreq : req ∈ x'.toServer) :
    ∃ (n : ℕ) (c : CallRecord), x'.calls[n]? = some c ∧ c.Sent ∧ c.req = req := by
  have hold : req ∈ x.toServer → ∃ (n : ℕ) (c : CallRecord), x'.calls[n]? = some c ∧ c.Sent ∧ c.req = req := by
    intro hmem
    obtain ⟨n, c, hc, hsent, hreq⟩ := h.written req hmem
    obtain ⟨c', hc', hevolves⟩ := hm.calls.each n c hc
    exact ⟨n, c', hc', hevolves.sent hsent, hevolves.req.trans hreq⟩
  rcases hm.toServer with heq | ⟨n, c, c', hc, _, hc', hsent, heq⟩
  · exact hold (heq ▸ hreq)
  · rw [heq, List.mem_append, List.mem_singleton] at hreq
    rcases hreq with hmem | rfl
    · exact hold hmem
    · obtain ⟨c'', hc'', hevolves⟩ := hm.calls.each n c hc
      rw [hc'] at hc''
      cases hc''
      exact ⟨n, c', hc', hsent, hevolves.req⟩

/-- A request with the id of one that is written now would be one of the same call, which has not written yet. -/
theorem Matched.once_moves (hlen : x.calls.length < 2 ^ 64) (h : Matched load handler x) (hm : Moves load handler x x') :
    (x'.toServer.map Request.id).Nodup := by
  rcases hm.toServer with heq | ⟨n, c, _, hc, hunsent, _, _, heq⟩
  · rw [heq]
    exact h.once
  · rw [heq, List.map_append, List.nodup_append]
    refine ⟨h.once, List.nodup_singleton _, ?_⟩
    intro id hid id' hid' hsame
    obtain ⟨req, hreq, rfl⟩ := List.mem_map.mp hid
    obtain ⟨n', c', hc', hsent', rfl⟩ := h.written req hreq
    rw [List.map_singleton, List.mem_singleton] at hid'
    obtain rfl := h.eq_of_id_eq hlen hc' hc (hsame.trans hid')
    rw [hc] at hc'
    cases hc'
    exact hunsent hsent'

theorem Matched.served_moves (h : Matched load handler x) (hm : Moves load handler x x') :
    x'.served.map Served.req <+: x'.toServer := by
  rcases hm.toClient with ⟨heq, _⟩ | ⟨heq, _⟩ | ⟨_, s, req, hreq, heq, _⟩
  · rw [heq]
    exact h.served.trans hm.toServer_prefix
  · rw [heq]
    exact h.served.trans hm.toServer_prefix
  · rw [heq, List.map_append]
    refine (prefix_concat_of_getElem? h.served ?_).trans hm.toServer_prefix
    rw [List.length_map]
    exact hreq

theorem Moves.served_subset (hm : Moves load handler x x') : x.served ⊆ x'.served := by
  rcases hm.toClient with ⟨heq, _⟩ | ⟨heq, _⟩ | ⟨_, _, _, _, heq, _⟩
  · rw [heq]
    exact List.Subset.refl _
  · rw [heq]
    exact List.Subset.refl _
  · rw [heq]
    exact List.subset_append_left _ _

theorem Matched.messages_moves (h : Matched load handler x) (hm : Moves load handler x x') {msg : ServerMsg} (hmsg : msg ∈ x'.toClient) :
    (∃ p, msg = .push p) ∨ ∃ junk, ∃ e ∈ x'.served, msg = .response (connLoop load handler junk e.state (encodeRequest e.req)).2 := by
  have hold : msg ∈ x.toClient → (∃ p, msg = .push p) ∨
      ∃ junk, ∃ e ∈ x'.served, msg = .response (connLoop load handler junk e.state (encodeRequest e.req)).2 := by
    intro hmem
    rcases h.messages msg hmem with hpush | ⟨junk, e, he, hresp⟩
    · exact Or.inl hpush
    · exact Or.inr ⟨junk, e, hm.served_subset he, hresp⟩
  rcases hm.toClient with ⟨_, heq⟩ | ⟨_, p, heq⟩ | ⟨junk, s, req, _, hserved, heq⟩
  · exact hold (heq ▸ hmsg)
  · rw [heq, List.mem_append, List.mem_singleton] at hmsg
    rcases hmsg with hmem | rfl
    · exact hold hmem
    · exact Or.inl ⟨p, rfl⟩
  · rw [heq, List.mem_append, List.mem_singleton] at hmsg
    rcases hmsg with hmem | rfl
    · exact hold hmem
    · refine Or.inr ⟨junk, ⟨s, req⟩, ?_, rfl⟩
      rw [hserved]
      exact List.mem_append_right _ (List.mem_singleton_self _)

theorem Matched.answers_moves (h : Matched load handler x) (hm : Moves load handler x x') {n : ℕ} {c' : CallRecord} {frame : ℕ}
    {resp : Response} (hc' : x'.calls[n]? = some c') (ha : c'.answer = some (.response frame resp)) :
    resp.id = c'.req.id ∧ x'.Carries load frame resp := by
  obtain ⟨c, hc, hevolves⟩ := hm.calls.back hc'
  have hanswer : resp.id = c.req.id ∧ x.Carries load frame resp := by
    rcases hevolves.answer frame resp ha with hold | ⟨hpending, hcarries⟩
    · exact h.answers n c frame resp hc hold
    · obtain ⟨c'', hc'', hkey⟩ := h.pending _ hpending
      rw [hc] at hc''
      cases hc''
      exact ⟨hkey.symm, hcarries⟩
  exact ⟨by rw [hevolves.req, hanswer.1], hm.carries hanswer.2⟩

theorem matched_moves (hlen : x.calls.length < 2 ^ 64) (h : Matched load handler x) (hm : Moves load handler x x') :
    Matched load handler x' where
  nextId := by rw [hm.nextId, hm.calls.length, h.nextId]
  ids := by
    intro n c' hc'
    obtain ⟨c, hc, hevolves⟩ := hm.calls.back hc'
    rw [hevolves.req]
    exact h.ids n c hc
  pending := by
    intro e he
    have hold : ∃ c, x.calls[e.2]? = some c ∧ c.req.id = e.1 := by
      rcases hm.pending e he with hmem | hnew
      · exact h.pending e hmem
      · exact hnew
    obtain ⟨c, hc, hkey⟩ := hold
    obtain ⟨c', hc', hevolves⟩ := hm.calls.each e.2 c hc
    exact ⟨c', hc', by rw [hevolves.req, hkey]⟩
  written := fun _ => h.written_moves hm
  once := h.once_moves hlen hm
  served := h.served_moves hm
  messages := fun _ => h.messages_moves hm
  answers := fun _ _ _ _ => h.answers_moves hm
  returned := by
    intro n c' r hc' hr
    obtain ⟨c, hc, hevolves⟩ := hm.calls.back hc'
    rcases hevolves.returned r hr with hold | hnew
    · obtain ⟨frame, resp, ha, hresult⟩ := h.returned n c r hc hold
      exact ⟨frame, resp, hevolves.keeps _ ha, hresult⟩
    · exact hnew

theorem length_calls_le {e : ExchangeEvent σ} (h : ExchangeStep load handler x e x') : x.calls.length ≤ x'.calls.length := by
  rcases step_moves h with ⟨method, params, caller, rfl⟩ | hm
  · simp
  · exact hm.calls.length.ge

theorem matched_of_reachable {s : σ} (hreach : Reachable (ExchangeStep load handler) (Exchange.initial s) x)
    (hlen : x.calls.length < 2 ^ 64) : Matched load handler x := by
  refine hreach.invariant (fun x => x.calls.length < 2 ^ 64 → Matched load handler x) (fun _ => matched_initial s) ?_ hlen
  intro t e u ih hstep hu
  have ht : t.calls.length < 2 ^ 64 := (length_calls_le hstep).trans_lt hu
  rcases step_moves hstep with ⟨method, params, caller, rfl⟩ | hm
  · exact matched_call (ih ht) _ rfl
  · exact matched_moves ht (ih ht) hm

end Invariant

/-! ## A call and its handler -/

section Match
variable {σ : Type} {load : Bytes → Option Item} {handler : Handler σ} {x : Exchange σ}

theorem recvLoop_response (hload : Loads load) (resp : Response) : recvLoop load (ServerMsg.response resp).encode =
    .ok (some (.response (if resp.ok then ⟨resp.id, true, resp.result.received, ⟨0, []⟩⟩
      else ⟨resp.id, false, .empty, ⟨resp.error.code, cStr resp.error.message⟩⟩))) := by
  unfold recvLoop ServerMsg.encode
  rw [detect_encodeResponse hload, decodeResponse_encodeResponse hload]
  rfl

theorem recvLoop_push_ne (hload : Loads load) (p : Push) (resp : Response) :
    recvLoop load (ServerMsg.push p).encode ≠ .ok (some (.response resp)) := by
  unfold recvLoop ServerMsg.encode
  rw [detect_encodePush hload, decodePush_encodePush hload]
  intro h
  cases h

/-- What the client reads is the answer of the handler, under the id of the request. -/
theorem response_of_connLoop (hload : Loads load) {junk : UInt64} {s : σ} {req : Request} {resp : Response}
    (h : recvLoop load (ServerMsg.response (connLoop load handler junk s (encodeRequest req)).2).encode = .ok (some (.response resp))) :
    resp.id = req.id ∧ (resp.ok = true → ∃ s' result, handler s (cStr req.method) req.params.received (cStr req.caller) = .ok (s', result) ∧
      resp.result = result.received) := by
  rw [recvLoop_response hload] at h
  cases hresult : handler s (cStr req.method) req.params.received (cStr req.caller) with
  | error what =>
    rw [connLoop_of_error hload hresult] at h
    cases h
    exact ⟨rfl, fun hok => nomatch hok⟩
  | ok res =>
    obtain ⟨s', result⟩ := res
    rw [connLoop_of_ok hload hresult] at h
    cases h
    exact ⟨rfl, fun _ => ⟨s', result, rfl, rfl⟩⟩

/-- The response in a frame that completed a call is the answer to its request. -/
theorem Matched.served_of_carries (hload : Loads load) (h : Matched load handler x) (hlen : x.calls.length < 2 ^ 64) {n : ℕ} {c : CallRecord}
    {frame : ℕ} {resp : Response} (hc : x.calls[n]? = some c) (ha : c.answer = some (.response frame resp)) :
    ∃ (k : ℕ) (s : σ), x.served[k]? = some ⟨s, c.req⟩ ∧ (resp.ok = true → ∃ s' result,
      handler s (cStr c.req.method) c.req.params.received (cStr c.req.caller) = .ok (s', result) ∧ resp.result = result.received) := by
  obtain ⟨hid, msg, hmsg, hrecv⟩ := h.answers n c frame resp hc ha
  rcases h.messages msg (List.mem_of_getElem? hmsg) with ⟨p, rfl⟩ | ⟨junk, e, he, rfl⟩
  · exact absurd hrecv (recvLoop_push_ne hload p resp)
  · obtain ⟨hreqid, hresult⟩ := response_of_connLoop hload hrecv
    obtain ⟨n', c', hc', _, hreq⟩ := h.written e.req (h.served.subset (List.mem_map_of_mem he))
    have hsame : c'.req.id = c.req.id := by rw [hreq, ← hreqid, hid]
    obtain rfl := h.eq_of_id_eq hlen hc' hc hsame
    rw [hc] at hc'
    cases hc'
    obtain ⟨k, hk⟩ := List.getElem?_of_mem he
    obtain ⟨s, req⟩ := e
    cases hreq
    exact ⟨k, s, hk, hresult⟩

theorem Matched.served_once (h : Matched load handler x) {k k' : ℕ} {e e' : Served σ} (he : x.served[k]? = some e)
    (he' : x.served[k']? = some e') (hid : e.req.id = e'.req.id) : k = k' := by
  have hnodup : (x.served.map (fun e => e.req.id)).Nodup := by
    have hmap : x.served.map (fun e => e.req.id) = (x.served.map Served.req).map Request.id := by rw [List.map_map]; rfl
    rw [hmap]
    exact h.once.sublist (h.served.map _).sublist
  have hlt : k < (x.served.map (fun e => e.req.id)).length := by
    rw [List.length_map]
    exact (List.getElem?_eq_some_iff.mp he).1
  refine (List.getElem?_inj hlt hnodup).mp ?_
  rw [List.getElem?_map, List.getElem?_map, he, he', Option.map_some, Option.map_some, hid]

end Match

/-- The codec gives the map back as it is. -/
def CborMap.RoundTrips (m : CborMap) : Prop := m.received = m

structure Request.RoundTrips (r : Request) : Prop where
  caller : cStr r.caller = r.caller
  method : cStr r.method = r.method
  params : r.params.RoundTrips

/-- Calls and their handler, in a state of the connection. -/
structure CallsMatch {σ : Type} (handler : Handler σ) (x : Exchange σ) : Prop where
  /-- A call that returned has the map that the handler made for its request. -/
  result : ∀ (n : ℕ) (c : CallRecord) (r : CborMap), x.calls[n]? = some c → c.phase = .returned r →
    ∃ (k : ℕ) (s s' : σ), x.served[k]? = some ⟨s, c.req⟩ ∧ handler s c.req.method c.req.params c.req.caller = .ok (s', r)
  /-- The handler was not called twice for it. -/
  once : ∀ (n : ℕ) (c : CallRecord) (k k' : ℕ) (s s' : σ), x.calls[n]? = some c → x.served[k]? = some ⟨s, c.req⟩ →
    x.served[k']? = some ⟨s', c.req⟩ → k = k'
  /-- A call for which it threw does not return. -/
  thrown : ∀ (n : ℕ) (c : CallRecord) (k : ℕ) (s : σ) (what : Bytes), x.calls[n]? = some c → x.served[k]? = some ⟨s, c.req⟩ →
    handler s c.req.method c.req.params c.req.caller = .error what → ∀ r, c.phase ≠ .returned r
  /-- No frame completes two calls. -/
  single : ∀ (m n : ℕ) (c c' : CallRecord) (frame : ℕ) (resp resp' : Response), x.calls[m]? = some c → x.calls[n]? = some c' →
    c.answer = some (.response frame resp) → c'.answer = some (.response frame resp') → m = n

/-- Whatever the order of the steps, calls get what the handler made for their requests. -/
theorem calls_match_handler {σ : Type} {load : Bytes → Option Item} (hload : Loads load) {handler : Handler σ} {s : σ} {x : Exchange σ}
    (hreach : Reachable (ExchangeStep load handler) (Exchange.initial s) x) (hlen : x.calls.length < 2 ^ 64)
    (hrequests : ∀ c ∈ x.calls, c.req.RoundTrips)
    (hresults : ∀ s method params caller s' result, handler s method params caller = .ok (s', result) → result.RoundTrips) :
    CallsMatch handler x := by
  have h := matched_of_reachable hreach hlen
  have hresult : ∀ (n : ℕ) (c : CallRecord) (r : CborMap), x.calls[n]? = some c → c.phase = .returned r →
      ∃ (k : ℕ) (s s' : σ), x.served[k]? = some ⟨s, c.req⟩ ∧ handler s c.req.method c.req.params c.req.caller = .ok (s', r) := by
    intro n c r hc hr
    obtain ⟨frame, resp, ha, hok, rfl⟩ := h.returned n c r hc hr
    obtain ⟨k, s, hserved, hhandled⟩ := h.served_of_carries hload hlen hc ha
    obtain ⟨s', result, hhandler, heq⟩ := hhandled hok
    obtain ⟨hcaller, hmethod, hparams⟩ := hrequests c (List.mem_of_getElem? hc)
    rw [hcaller, hmethod, hparams] at hhandler
    have htrip : result.received = result := hresults _ _ _ _ _ _ hhandler
    rw [heq, htrip]
    exact ⟨k, s, s', hserved, hhandler⟩
  refine ⟨hresult, ?_, ?_, ?_⟩
  · intro n c k k' s s' _ hk hk'
    exact h.served_once hk hk' rfl
  · intro n c k s what hc hk hthrow r hr
    obtain ⟨k', s', s'', hk', hhandler⟩ := hresult n c r hc hr
    obtain rfl := h.served_once hk hk' rfl
    rw [hk] at hk'
    cases hk'
    rw [hthrow] at hhandler
    cases hhandler
  · intro m n c c' frame resp resp' hc hc' ha ha'
    obtain ⟨hid, msg, hmsg, hrecv⟩ := h.answers m c frame resp hc ha
    obtain ⟨hid', msg', hmsg', hrecv'⟩ := h.answers n c' frame resp' hc' ha'
    rw [hmsg] at hmsg'
    cases hmsg'
    rw [hrecv] at hrecv'
    cases hrecv'
    exact h.eq_of_id_eq hlen hc hc' (hid.symm.trans hid')

/-! ### A late response -/

def countMap (n : ℕ) : CborMap := CborMap.empty.set "count" (.uint (UInt64.ofNat n)) trivial

/-- A handler that counts its calls. -/
def counting : Handler ℕ := fun n _ _ _ => .ok (n + 1, countMap n)

theorem roundTrips_countMap (n : ℕ) : (countMap n).RoundTrips := rfl

def statusRequest (id : UInt64) : Request := ⟨id, ascii "client", ascii "inbox.status", .empty⟩

theorem roundTrips_statusRequest (id : UInt64) : (statusRequest id).RoundTrips where
  caller := cStr_of_nulFree (show 0 ∉ ascii "client" by decide)
  method := cStr_of_nulFree (show 0 ∉ ascii "inbox.status" by decide)
  params := rfl

def counted (id : UInt64) (n : ℕ) : Response := ⟨id, true, countMap n, ⟨0, []⟩⟩

def timedOut : CallRecord := ⟨statusRequest 1, .threw (ascii "IPC call timed out: " ++ ascii "inbox.status"), none⟩

section Late
variable {load : Bytes → Option Item}

/-- The server handles the next request. -/
theorem reachable_serve (hload : Loads load) {x : Exchange ℕ} (h : Reachable (ExchangeStep load counting) (Exchange.initial 0) x) (id : UInt64)
    (hreq : x.toServer[x.served.length]? = some (statusRequest id)) :
    Reachable (ExchangeStep load counting) (Exchange.initial 0) { x with
      server := x.server + 1, served := x.served ++ [⟨x.server, statusRequest id⟩],
      toClient := x.toClient ++ [.response (counted id x.server)] } := by
  have hstep : ExchangeStep load counting x (.serve 0 (fun n => n)) (x.serve load counting 0 x.server (statusRequest id)) := .serve hreq
  have hhandler : counting x.server (cStr (statusRequest id).method) (statusRequest id).params.received
      (cStr (statusRequest id).caller) = .ok (x.server + 1, countMap x.server) := rfl
  unfold Exchange.serve at hstep
  rw [connLoop_of_ok hload hhandler] at hstep
  exact h.tail hstep

/-- The client reads the next response. -/
theorem reachable_receive (hload : Loads load) {x : Exchange ℕ} (h : Reachable (ExchangeStep load counting) (Exchange.initial 0) x)
    (id : UInt64) (n : ℕ) (hmsg : x.toClient[x.received]? = some (.response (counted id n))) :
    Reachable (ExchangeStep load counting) (Exchange.initial 0) { x.complete (counted id n) with received := x.received + 1 } := by
  refine h.tail (.receive hmsg ?_)
  unfold Exchange.receive
  rw [recvLoop_response hload]
  rfl

/-- The first call has timed out, and the server has handled it. -/
def afterTimeout : Exchange ℕ :=
  ⟨true, false, 2, [timedOut], [], [statusRequest 1], 1, [⟨0, statusRequest 1⟩], [.response (counted 1 0)], 0⟩

theorem reachable_afterTimeout (hload : Loads load) : Reachable (ExchangeStep load counting) (Exchange.initial 0) afterTimeout := by
  let sent : Exchange ℕ := ⟨true, false, 2, [⟨statusRequest 1, .waiting, none⟩], [(1, 0)], [statusRequest 1], 0, [], [], 0⟩
  have hcall : Reachable (ExchangeStep load counting) (Exchange.initial 0) ⟨true, false, 2, [⟨statusRequest 1, .numbered, none⟩], [], [], 0, [], [], 0⟩ :=
    (Reachable.refl _ _).tail (.call rfl)
  have hwritten := (hcall.tail (.register (n := 0) rfl rfl)).tail (.write (n := 0) (c := ⟨statusRequest 1, .registered, none⟩) rfl rfl)
  have hsent : Reachable (ExchangeStep load counting) (Exchange.initial 0) sent := hwritten
  have herased := (hsent.tail (.expire (n := 0) rfl rfl rfl)).tail (.erase (n := 0) (c := ⟨statusRequest 1, .expired, none⟩) rfl rfl)
  have hgivenUp : Reachable (ExchangeStep load counting) (Exchange.initial 0) { sent with calls := [timedOut], pending := [] } := herased
  exact reachable_serve hload hgivenUp 1 rfl

/-- The response to the first call has come too late, and the second call has returned. -/
def afterBoth : Exchange ℕ :=
  ⟨true, false, 3, [timedOut, ⟨statusRequest 2, .returned (countMap 1), some (.response 1 (counted 2 1))⟩], [],
    [statusRequest 1, statusRequest 2], 2, [⟨0, statusRequest 1⟩, ⟨1, statusRequest 2⟩], [.response (counted 1 0), .response (counted 2 1)], 2⟩

theorem reachable_afterBoth (hload : Loads load) : Reachable (ExchangeStep load counting) (Exchange.initial 0) afterBoth := by
  let sent : Exchange ℕ := ⟨true, false, 3, [timedOut, ⟨statusRequest 2, .waiting, none⟩], [(2, 1)], [statusRequest 1, statusRequest 2], 1,
    [⟨0, statusRequest 1⟩], [.response (counted 1 0)], 0⟩
  have hcall : Reachable (ExchangeStep load counting) (Exchange.initial 0) { sent with
      calls := [timedOut, ⟨statusRequest 2, .numbered, none⟩], pending := [], toServer := [statusRequest 1] } :=
    (reachable_afterTimeout hload).tail (.call rfl)
  have hwritten := (hcall.tail (.register (n := 1) rfl rfl)).tail (.write (n := 1) (c := ⟨statusRequest 2, .registered, none⟩) rfl rfl)
  have hsent : Reachable (ExchangeStep load counting) (Exchange.initial 0) sent := hwritten
  have hserved := reachable_serve hload hsent 2 rfl
  have hlate := reachable_receive hload hserved 1 0 rfl
  have hdone := reachable_receive hload hlate 2 1 rfl
  have hfinished := hdone.tail (.finish (n := 1) (c := ⟨statusRequest 2, .waiting, some (.response 1 (counted 2 1))⟩) rfl rfl rfl)
  exact hfinished

end Late

/-- A call returns after a response that came too late for another one. -/
theorem calls_match_handler_afterBoth : Reachable (ExchangeStep Cbor.load counting) (Exchange.initial 0) afterBoth ∧
    CallsMatch counting afterBoth := by
  refine ⟨reachable_afterBoth load_loads, calls_match_handler load_loads (reachable_afterBoth load_loads) (by decide) ?_ ?_⟩
  · intro c hc
    simp only [afterBoth, List.mem_cons, List.not_mem_nil, or_false] at hc
    rcases hc with rfl | rfl
    · exact roundTrips_statusRequest 1
    · exact roundTrips_statusRequest 2
  · rintro n method params caller n' result ⟨⟩
    exact roundTrips_countMap n

end ScatterWeb.Ipc
