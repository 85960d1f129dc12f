import ScatterWeb.Ipc.RoundTrip
import ScatterWeb.Lib.SharedStream

/-! # Frames on a shared socket

A message goes over a socket as a frame, four bytes of length and the payload, that `write_frame` puts out in a loop of partial writes.
Both ends of a connection have several threads that write to it. `Server` holds `clients_mu_` around the loop; `Client::call` takes
no lock. -/
namespace ScatterWeb.Ipc
open Crypto Lib Lib.Cbor Lib.SortedMap Lib.SharedStream Client
set_option autoImplicit false

/-- The length as it is cast to 32 bits. -/
def frame (payload : Bytes) : Bytes := be 4 (payload.length % 2 ^ 32) ++ payload

def maxFrame : ℕ := 64 * 1024 * 1024

/-- What is read from the bytes on the socket: the payload and the bytes after it, or nothing if the frame is not there as a whole. -/
def readFrame (b : Bytes) : Except String (Option (Bytes × Bytes)) :=
  match takeBe 4 b with
  | none => .ok none
  | some (len, rest) =>
    if len = 0 ∨ maxFrame < len then .error ("read_frame: invalid length " ++ toString len)
    else if rest.length < len then .ok none
    else .ok (some (rest.take len, rest.drop len))

theorem length_frame (payload : Bytes) : (frame payload).length = 4 + payload.length := by simp [frame]

section Read
variable {payload : Bytes}

theorem length_lt_of_le_maxFrame (hmax : payload.length ≤ maxFrame) : payload.length < 2 ^ 32 := by
  unfold maxFrame at hmax
  omega

theorem length_valid (hpos : payload ≠ []) (hmax : payload.length ≤ maxFrame) : ¬(payload.length = 0 ∨ maxFrame < payload.length) := by
  rw [List.length_eq_zero_iff]
  rintro (h | h)
  · exact hpos h
  · omega

theorem takeBe_frame (hmax : payload.length ≤ maxFrame) (rest : Bytes) : takeBe 4 (be 4 payload.length ++ rest) = some (payload.length, rest) :=
  takeBe_be (length_lt_of_le_maxFrame hmax) rest

theorem readFrame_frame (hpos : payload ≠ []) (hmax : payload.length ≤ maxFrame) (rest : Bytes) :
    readFrame (frame payload ++ rest) = .ok (some (payload, rest)) := by
  unfold readFrame frame
  rw [Nat.mod_eq_of_lt (length_lt_of_le_maxFrame hmax), List.append_assoc, takeBe_frame hmax]
  dsimp only
  rw [if_neg (length_valid hpos hmax)]
  simp

/-- A frame that is not there as a whole is waited for. -/
theorem readFrame_take (hpos : payload ≠ []) (hmax : payload.length ≤ maxFrame) {d : ℕ} (hd : d < (frame payload).length) :
    readFrame ((frame payload).take d) = .ok none := by
  rw [length_frame] at hd
  unfold readFrame frame
  rw [Nat.mod_eq_of_lt (length_lt_of_le_maxFrame hmax)]
  by_cases hhead : d < 4
  · have hshort : ((be 4 payload.length ++ payload).take d).length < 4 := by
      rw [List.length_take]
      omega
    rw [takeBe, if_neg (by omega)]
  · obtain ⟨k, rfl⟩ : ∃ k, d = 4 + k := ⟨d - 4, by omega⟩
    have htake : (be 4 payload.length ++ payload).take (4 + k) = be 4 payload.length ++ payload.take k := by
      rw [List.take_append]
      simp
    have hrest : (payload.take k).length < payload.length := by
      rw [List.length_take]
      omega
    rw [htake, takeBe_frame hmax]
    dsimp only
    rw [if_neg (length_valid hpos hmax), if_pos hrest]

end Read

/-! ## The loops that read -/

/-- One direction of a connection: `receive` is what the loop at the other end makes of a payload, nothing if it goes on to the next. -/
structure Direction (μ : Type) where
  encode : μ → Bytes
  receive : Bytes → Except String (Option μ)
  Same : μ → μ → Prop

section Loop
variable {μ : Type}

/-- The messages read from the bytes on the socket, until the rest is not a whole frame. -/
def readLoop (receive : Bytes → Except String (Option μ)) : ℕ → Bytes → Except String (List μ)
  | 0, _ => .ok []
  | fuel + 1, b =>
    match readFrame b with
    | .error e => .error e
    | .ok none => .ok []
    | .ok (some (payload, rest)) => do
      let m ← receive payload
      let ms ← readLoop receive fuel rest
      .ok (m.toList ++ ms)

variable (dir : Direction μ)

/-- A frame has at least one byte, so the loop does not go round more often than this. -/
def Direction.reads (b : Bytes) : Except String (List μ) := readLoop dir.receive b.length b

def Direction.chunk (m : μ) : Bytes := frame (dir.encode m)

structure Direction.Arrives (m : μ) : Prop where
  nonempty : dir.encode m ≠ []
  fits : (dir.encode m).length ≤ maxFrame
  back : ∃ m', dir.receive (dir.encode m) = .ok (some m') ∧ dir.Same m' m

variable {dir}

theorem readLoop_chunks {ms : List μ} (hms : ∀ m ∈ ms, dir.Arrives m) {part : Bytes} (hpart : readFrame part = .ok none) {fuel : ℕ}
    (hfuel : (chunks dir.chunk ms ++ part).length ≤ fuel) :
    ∃ ms', readLoop dir.receive fuel (chunks dir.chunk ms ++ part) = .ok ms' ∧ List.Forall₂ dir.Same ms' ms := by
  induction ms generalizing fuel with
  | nil =>
    refine ⟨[], ?_, .nil⟩
    cases fuel with
    | zero => rfl
    | succ fuel =>
      have hnil : chunks dir.chunk [] ++ part = part := rfl
      rw [hnil, readLoop, hpart]
  | cons m ms ih =>
    have hm := hms m List.mem_cons_self
    obtain ⟨m', hm', hsame⟩ := hm.back
    have hsplit : chunks dir.chunk (m :: ms) ++ part = frame (dir.encode m) ++ (chunks dir.chunk ms ++ part) := by
      simp [chunks, Direction.chunk]
    rw [hsplit] at hfuel ⊢
    rw [List.length_append, length_frame] at hfuel
    cases fuel with
    | zero => omega
    | succ fuel =>
      have hrest : (chunks dir.chunk ms ++ part).length ≤ fuel := by omega
      obtain ⟨ms', hread, hall⟩ := ih (fun m hm => hms m (List.mem_cons_of_mem _ hm)) hrest
      refine ⟨m' :: ms', ?_, .cons hsame hall⟩
      rw [readLoop, readFrame_frame hm.nonempty hm.fits]
      dsimp only
      rw [hm', hread]
      rfl

theorem reads_chunks {ms : List μ} (hms : ∀ m ∈ ms, dir.Arrives m) {part : Bytes} (hpart : readFrame part = .ok none) :
    ∃ ms', dir.reads (chunks dir.chunk ms ++ part) = .ok ms' ∧ List.Forall₂ dir.Same ms' ms :=
  readLoop_chunks hms hpart le_rfl

/-- On the socket are the frames of the messages that are sent, each as a whole, and the beginning of at most one more; what is read are
the messages that are sent. -/
structure FramesIntact {ι : Type} (dir : Direction μ) (s : State ι μ UInt8) : Prop where
  stream : ∃ order part, List.Perm order s.done ∧ s.out = chunks dir.chunk order ++ part ∧
    (part = [] ∨ ∃ t m d, s.cur t = some (m, d) ∧ d < (dir.chunk m).length ∧ part = (dir.chunk m).take d)
  decoded : ∃ order ms, List.Perm order s.done ∧ dir.reads s.out = .ok ms ∧ List.Forall₂ dir.Same ms order

theorem framesIntact_of_clear {ι : Type} [DecidableEq ι] {s : State ι μ UInt8}
    (h : Reachable (ClearStep dir.chunk dir.Arrives) State.initial s) : FramesIntact dir s := by
  have hkept := kept_of_reachable h
  cases orderly_of_reachable h with
  | between hout _ =>
    have hempty : readFrame [] = .ok none := rfl
    obtain ⟨ms, hread, hall⟩ := reads_chunks hkept.done hempty
    rw [List.append_nil] at hread
    exact ⟨⟨s.done, [], .refl _, by rw [hout, List.append_nil], .inl rfl⟩, ⟨s.done, ms, .refl _, hout ▸ hread, hall⟩⟩
  | @inside t m d hcur hd hout _ =>
    have hm := hkept.cur t m d hcur
    obtain ⟨ms, hread, hall⟩ := reads_chunks hkept.done (readFrame_take hm.nonempty hm.fits hd)
    exact ⟨⟨s.done, _, .refl _, hout, .inr ⟨t, m, d, hcur, hd, rfl⟩⟩, ⟨s.done, ms, .refl _, hout ▸ hread, hall⟩⟩

end Loop

/-! ## The two directions -/

section Directions
variable (load : Bytes → Option Item)

/-- What `conn_loop` makes of a payload: a request that it cannot decode is answered with an error. -/
def toServer : Direction Request where
  encode := encodeRequest
  receive payload := .ok (decodeRequest load payload).toOption
  Same := Request.Same

inductive ServerMsg
  | response (s : Response)
  | push (p : Push)

namespace ServerMsg

def encode : ServerMsg → Bytes
  | response s => encodeResponse s
  | push p => encodePush p

def Same : ServerMsg → ServerMsg → Prop
  | response s, response s' => s.Same s'
  | push p, push p' => p.Same p'
  | _, _ => False

def NulFree : ServerMsg → Prop
  | response s => s.NulFree
  | push p => p.NulFree

end ServerMsg

/-- What `recv_loop` makes of a payload, with a push handler: only a push is decoded inside a `try`. -/
def recvLoop (payload : Bytes) : Except String (Option ServerMsg) :=
  match detect load payload with
  | .response => do
    let resp ← decodeResponse load payload
    .ok (some (.response resp))
  | .push => .ok ((decodePush load payload).toOption.map .push)
  | _ => .ok none

def toClient : Direction ServerMsg where
  encode := ServerMsg.encode
  receive := recvLoop load
  Same := ServerMsg.Same

end Directions

structure Request.Sendable (r : Request) : Prop where
  fits : (encodeRequest r).length ≤ maxFrame
  nulFree : r.NulFree

structure ServerMsg.Sendable (m : ServerMsg) : Prop where
  fits : m.encode.length ≤ maxFrame
  nulFree : m.NulFree

section Arrival
variable {load : Bytes → Option Item}

theorem arrives_toServer (hload : Loads load) {r : Request} (h : r.Sendable) : (toServer load).Arrives r where
  nonempty := encode_ne_nil _
  fits := h.fits
  back := by
    obtain ⟨r', hr', hsame⟩ := (Message.request_comesBack_iff hload r).mpr h.nulFree
    refine ⟨r', ?_, hsame⟩
    simp only [toServer, hr']
    rfl

theorem arrives_toClient (hload : Loads load) {m : ServerMsg} (h : m.Sendable) : (toClient load).Arrives m := by
  refine ⟨?_, h.fits, ?_⟩
  · cases m with
    | response s => exact encode_ne_nil _
    | push p => exact encode_ne_nil _
  · cases m with
    | response s =>
      obtain ⟨s', hs', hsame⟩ := (Message.response_comesBack_iff hload s).mpr h.nulFree
      refine ⟨.response s', ?_, hsame⟩
      simp only [toClient, ServerMsg.encode, recvLoop, detect_encodeResponse hload, hs']
      rfl
    | push p =>
      obtain ⟨p', hp', hsame⟩ := (Message.push_comesBack_iff hload p).mpr h.nulFree
      refine ⟨.push p', ?_, hsame⟩
      simp only [toClient, ServerMsg.encode, recvLoop, detect_encodePush hload, hp']
      rfl

end Arrival

/-! ## The calls of one client -/

/-- `call` of the thread `t` has taken its id and built its frame; `write` is one system call of its loop. -/
inductive CallEvent (ι : Type)
  | call (t : ι) (method : Bytes) (params : CborMap) (caller : Bytes)
  | write (t : ι) (n : ℕ)

structure Calls (ι : Type) where
  nextId : UInt64
  socket : State ι Request UInt8

def Calls.initial {ι : Type} : Calls ι := ⟨1, .initial⟩

section Calls
variable {ι : Type} [DecidableEq ι]

def requestFrame (r : Request) : Bytes := frame (encodeRequest r)

inductive CallStep : Calls ι → CallEvent ι → Calls ι → Prop
  | call {c : Calls ι} {t : ι} {method : Bytes} {params : CborMap} {caller : Bytes} (hidle : c.socket.cur t = none) :
      CallStep c (.call t method params caller) ⟨c.nextId + 1, c.socket.start t ⟨c.nextId, caller, method, params⟩⟩
  | write {c : Calls ι} {t : ι} {r : Request} {d n : ℕ} (hcur : c.socket.cur t = some (r, d)) (hpos : 0 < n)
      (hn : d + n ≤ (requestFrame r).length) : CallStep c (.write t n) { c with socket := c.socket.write requestFrame t r d n }

/-- No thread writes while another is inside a frame, and every request is one that a frame can carry. -/
def CallEvent.Clear (c : Calls ι) : CallEvent ι → Prop
  | .call _ method params caller => Request.Sendable ⟨c.nextId, caller, method, params⟩
  | .write t _ => ∀ t' r d, t' ≠ t → c.socket.cur t' = some (r, d) → d = 0

theorem clear_of_calls {c : Calls ι} (h : Reachable (fun c e c' => CallStep c e c' ∧ e.Clear c) Calls.initial c) :
    Reachable (ClearStep requestFrame Request.Sendable) State.initial c.socket := by
  refine h.invariant (fun c => Reachable (ClearStep requestFrame Request.Sendable) State.initial c.socket) (Reachable.refl _ _) ?_
  rintro c e c' hreach ⟨hstep, hclear⟩
  cases hstep with
  | call hidle => exact hreach.tail ⟨.start hidle, trivial, hclear⟩
  | write hcur hpos hn => exact hreach.tail ⟨.write hcur hpos hn, hclear, trivial⟩

end Calls

/-! ## Whole frames -/

def serverFrame (m : ServerMsg) : Bytes := frame m.encode

/-- To the server, the frames are intact if no thread writes while another is inside a frame. To a client they are by the lock, which
`push` and `conn_loop` hold around their loops. In both directions a payload has to be short enough and without a NUL in its strings. -/
theorem frames_intact (load : Bytes → Option Item) (hload : Loads load) (ι : Type) [DecidableEq ι] :
    (∀ c : Calls ι, Reachable (fun c e c' => CallStep c e c' ∧ e.Clear c) Calls.initial c → FramesIntact (toServer load) c.socket) ∧
    (∀ s : LockedState ι ServerMsg UInt8, Reachable (fun s e s' => LockedStep serverFrame s e s' ∧ LockedOnly ServerMsg.Sendable e)
      LockedState.initial s → FramesIntact (toClient load) s.stream) := by
  constructor
  · intro c hreach
    have hclear := clear_of_calls hreach
    exact framesIntact_of_clear (hclear.mono (fun _ _ _ h => h.mono (fun _ hr => arrives_toServer hload hr)))
  · intro s hreach
    have hclear := clear_of_locked hreach
    exact framesIntact_of_clear (hclear.mono (fun _ _ _ h => h.mono (fun _ hm => arrives_toClient hload hm)))

/-! ### Two calls of the client daemon -/

def getPendingCall : Request := ⟨1, ascii "client", ascii "inbox.get_pending", .empty⟩

def statusCall : Request := ⟨2, ascii "client", ascii "inbox.status", .empty⟩

theorem length_getPendingFrame : (requestFrame getPendingCall).length = 64 := by decide +kernel

theorem length_statusFrame : (requestFrame statusCall).length = 59 := by decide +kernel

theorem sendable_getPendingCall : getPendingCall.Sendable where
  fits := by decide +kernel
  nulFree := ⟨by decide +kernel, by decide +kernel, trivial⟩

theorem sendable_statusCall : statusCall.Sendable where
  fits := by decide +kernel
  nulFree := ⟨by decide +kernel, by decide +kernel, trivial⟩

/-- Both threads have built their frames. -/
def bothCalled : Calls ℕ := ⟨3, (State.initial.start 0 getPendingCall).start 1 statusCall⟩

theorem bothCalled_zero {t : ℕ} {r : Request} {d : ℕ} (h : bothCalled.socket.cur t = some (r, d)) : d = 0 := by
  refine forall_update (Q := fun _ _ d => d = 0) ?_ (fun t' m d _ => ?_) t r d h
  · rintro m d ⟨⟩
    rfl
  · refine forall_update (Q := fun _ _ d => d = 0) ?_ (by simp [State.initial]) t' m d
    rintro m d ⟨⟩
    rfl

theorem reachable_bothCalled : Reachable (fun c e c' => CallStep c e c' ∧ e.Clear c) Calls.initial bothCalled := by
  let one : Calls ℕ := ⟨2, State.initial.start 0 getPendingCall⟩
  have hfirst : CallStep .initial (.call 0 (ascii "inbox.get_pending") .empty (ascii "client")) one := .call rfl
  have hsecond : CallStep one (.call 1 (ascii "inbox.status") .empty (ascii "client")) bothCalled := .call rfl
  exact ((Reachable.refl _ _).tail ⟨hfirst, sendable_getPendingCall⟩).tail ⟨hsecond, sendable_statusCall⟩

/-- The second thread writes its frame in two parts. -/
theorem frames_intact_twoParts : ∃ c : Calls ℕ, Reachable (fun c e c' => CallStep c e c' ∧ e.Clear c) Calls.initial c ∧
    c.socket.done = [statusCall] ∧ FramesIntact (toServer Cbor.load) c.socket := by
  let half : Calls ℕ := ⟨3, bothCalled.socket.write requestFrame 1 statusCall 0 20⟩
  let sent : Calls ℕ := ⟨3, half.socket.write requestFrame 1 statusCall 20 39⟩
  have hhalf : half.socket.cur = Function.update bothCalled.socket.cur 1 (some (statusCall, 20)) := by
    simp [half, State.write, length_statusFrame]
  have hothers : ∀ t r d, t ≠ 1 → half.socket.cur t = some (r, d) → d = 0 := by
    intro t r d ht h
    rw [hhalf, Function.update_of_ne ht] at h
    exact bothCalled_zero h
  have hfirst : CallStep bothCalled (.write 1 20) half := .write rfl (by omega) (by rw [length_statusFrame]; omega)
  have hsecond : CallStep half (.write 1 39) sent :=
    .write (by rw [hhalf, Function.update_self]) (by omega) (by rw [length_statusFrame])
  have hreach : Reachable (fun c e c' => CallStep c e c' ∧ e.Clear c) Calls.initial sent :=
    (reachable_bothCalled.tail ⟨hfirst, fun _ _ _ _ h => bothCalled_zero h⟩).tail ⟨hsecond, hothers⟩
  refine ⟨sent, hreach, ?_, (frames_intact Cbor.load load_loads ℕ).1 sent hreach⟩
  simp [sent, half, State.write, length_statusFrame, bothCalled, State.start, State.initial]

/-! ### One byte too early -/

theorem readFrame_zero (rest : Bytes) : readFrame (0 :: 0 :: 0 :: 0 :: rest) = .error "read_frame: invalid length 0" := by
  have htake : takeBe 4 (0 :: 0 :: 0 :: 0 :: rest) = some (0, rest) := by simp [takeBe, ofBe]
  rw [readFrame, htake]
  rfl

/-- The first thread writes one byte of its frame and the second all of its own: the length that the server reads is 0. -/
theorem not_intact_oneByte : ¬∀ c : Calls ℕ, Reachable CallStep Calls.initial c → FramesIntact (toServer Cbor.load) c.socket := by
  intro hall
  let one : Calls ℕ := ⟨3, bothCalled.socket.write requestFrame 0 getPendingCall 0 1⟩
  let mixed : Calls ℕ := ⟨3, one.socket.write requestFrame 1 statusCall 0 59⟩
  have hone : one.socket.cur = Function.update bothCalled.socket.cur 0 (some (getPendingCall, 1)) := by
    simp [one, State.write, length_getPendingFrame]
  have hfirst : CallStep bothCalled (.write 0 1) one := .write rfl (by omega) (by rw [length_getPendingFrame]; omega)
  have hsecond : CallStep one (.write 1 59) mixed := .write (by rw [hone]; rfl) (by omega) (by rw [length_statusFrame])
  have hreach : Reachable CallStep Calls.initial mixed := ((reachable_bothCalled.mono (fun _ _ _ h => h.1)).tail hfirst).tail hsecond
  have hout : mixed.socket.out = (requestFrame getPendingCall).take 1 ++ (requestFrame statusCall).take 59 := by
    simp [mixed, one, State.write, length_statusFrame, length_getPendingFrame, bothCalled, State.start, State.initial]
  have hbytes : (requestFrame getPendingCall).take 1 ++ (requestFrame statusCall).take 59 = 0 :: 0 :: 0 :: 0 :: (requestFrame statusCall).drop 3 := by
    decide +kernel
  obtain ⟨_, ms, _, hread, _⟩ := (hall mixed hreach).decoded
  rw [hout, hbytes, Direction.reads, List.length_cons, readLoop, readFrame_zero] at hread
  cases hread

end ScatterWeb.Ipc
