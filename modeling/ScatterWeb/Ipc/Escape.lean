import ScatterWeb.Ipc.Call
import ScatterWeb.Ipc.Framing

/-! # Exceptions that end a daemon

`conn_loop` and `recv_loop` are the functions of threads: an exception that leaves one of them terminates the process. `read_frame`
throws on a length that it does not take, and neither loop calls it inside a `try`; of the decoders only `decode_response` is
called outside one. This file finds the bytes of a peer that come to such a place. -/
namespace ScatterWeb.Ipc
open Crypto Lib Lib.Cbor Client
set_option autoImplicit false

/-! ## A thread that reads frames -/

section Thread
variable {τ σ : Type} (running : τ → Bool) (turn : τ → σ → Bytes → Except String (σ × Bool))

/-- One `τ` for each time around the loop. `turn` says whether it goes on after a payload; an error is an exception that leaves
the thread. Where a frame is not there as a whole, the thread waits for the rest, or ends because there is none. -/
def readThread : List τ → σ → Bytes → Except String σ
  | [], s, _ => .ok s
  | t :: ts, s, b =>
    if running t then
      match readFrame b with
      | .error what => .error what
      | .ok none => .ok s
      | .ok (some (payload, rest)) =>
        match turn t s payload with
        | .error what => .error what
        | .ok (s', true) => readThread ts s' rest
        | .ok (s', false) => .ok s'
    else .ok s

/-- Whatever happens around the thread, no exception leaves it. -/
def Survives (s : σ) (b : Bytes) : Prop := ∀ ts, ∃ s', readThread running turn ts s b = .ok s'

/-- A length that `read_frame` takes. -/
def ValidLength (len : ℕ) : Prop := 0 < len ∧ len ≤ maxFrame

/-- The bytes begin with a length that `read_frame` does not take. -/
def InvalidHeader (b : Bytes) : Prop := ∃ len rest, takeBe 4 b = some (len, rest) ∧ ¬ValidLength len

/-- After some whole frames there is an invalid header, or a whole frame with a payload that is bad. -/
def Breaks (bad : Bytes → Prop) (b : Bytes) : Prop :=
  ∃ (payloads : List Bytes) (rest : Bytes), (∀ p ∈ payloads, ValidLength p.length) ∧ b = payloads.flatMap frame ++ rest ∧
    (InvalidHeader rest ∨ ∃ payload tail, ValidLength payload.length ∧ rest = frame payload ++ tail ∧ bad payload)

theorem not_validLength_iff {len : ℕ} : ¬ValidLength len ↔ len = 0 ∨ maxFrame < len := by
  unfold ValidLength
  omega

theorem readFrame_eq_error_iff {b : Bytes} : (∃ what, readFrame b = .error what) ↔ InvalidHeader b := by
  unfold readFrame InvalidHeader
  cases takeBe 4 b with
  | none => simp
  | some r =>
    obtain ⟨len, rest⟩ := r
    simp only [Option.some.injEq, Prod.mk.injEq, not_validLength_iff]
    constructor
    · rintro ⟨what, h⟩
      split at h
      · rename_i hlen
        exact ⟨len, rest, ⟨rfl, rfl⟩, hlen⟩
      · split at h <;> cases h
    · rintro ⟨len', rest', ⟨rfl, rfl⟩, hlen⟩
      exact ⟨_, if_pos hlen⟩

theorem readFrame_eq_some_iff {b payload rest : Bytes} :
    readFrame b = .ok (some (payload, rest)) ↔ ValidLength payload.length ∧ b = frame payload ++ rest := by
  constructor
  · intro h
    unfold readFrame at h
    split at h
    · cases h
    · rename_i len tail htake
      split at h
      · cases h
      · rename_i hlen
        rw [← not_validLength_iff, not_not] at hlen
        split at h
        · cases h
        · rename_i hwhole
          cases h
          have hlength : (tail.take len).length = len := by
            rw [List.length_take]
            omega
          have hmod : len % 2 ^ 32 = len := Nat.mod_eq_of_lt (by
            have hmax := hlen.2
            unfold maxFrame at hmax
            omega)
          refine ⟨by rw [hlength]; exact hlen, ?_⟩
          rw [eq_of_takeBe htake, frame, hlength, hmod, List.append_assoc, List.take_append_drop]
  · rintro ⟨⟨hpos, hmax⟩, rfl⟩
    exact readFrame_frame (List.length_pos_iff.mp hpos) hmax rest

theorem breaks_at_once {bad : Bytes → Prop} {b : Bytes}
    (h : InvalidHeader b ∨ ∃ payload tail, ValidLength payload.length ∧ b = frame payload ++ tail ∧ bad payload) : Breaks bad b :=
  ⟨[], b, by simp, rfl, h⟩

theorem breaks_frame {bad : Bytes → Prop} {payload rest : Bytes} (hlen : ValidLength payload.length) (h : Breaks bad rest) :
    Breaks bad (frame payload ++ rest) := by
  obtain ⟨payloads, rest', hvalid, rfl, hend⟩ := h
  refine ⟨payload :: payloads, rest', ?_, ?_, hend⟩
  · intro p hp
    rcases List.mem_cons.mp hp with rfl | hp
    · exact hlen
    · exact hvalid p hp
  · rw [List.flatMap_cons, List.append_assoc]

variable {running turn} {bad : Bytes → Prop}

theorem breaks_of_escapes (hturn : ∀ {t s p what}, turn t s p = .error what → bad p) {ts : List τ} {s : σ} {b : Bytes} {what : String}
    (h : readThread running turn ts s b = .error what) : Breaks bad b := by
  induction ts generalizing s b with
  | nil => cases h
  | cons t ts ih =>
    rw [readThread] at h
    split at h
    · split at h
      · rename_i what' hread
        exact breaks_at_once (Or.inl (readFrame_eq_error_iff.mp ⟨what', hread⟩))
      · cases h
      · rename_i payload rest hread
        obtain ⟨hlen, rfl⟩ := readFrame_eq_some_iff.mp hread
        split at h
        · rename_i what' hthrow
          exact breaks_at_once (Or.inr ⟨payload, rest, hlen, rfl, hturn hthrow⟩)
        · exact breaks_frame hlen (ih h)
        · cases h
    · cases h

/-- With turns that go on wherever they can, the thread comes to the place. -/
theorem escapes_of_breaks {t : τ} (hrunning : running t = true)
    (hturn : ∀ s p, (∃ s', turn t s p = .ok (s', true)) ∨ ∃ what, turn t s p = .error what)
    (hbad : ∀ s p, bad p → ∃ what, turn t s p = .error what) {b : Bytes} (h : Breaks bad b) (s : σ) :
    ∃ ts what, readThread running turn ts s b = .error what := by
  obtain ⟨payloads, rest, hvalid, rfl, hend⟩ := h
  induction payloads generalizing s with
  | nil =>
    refine ⟨[t], ?_⟩
    rw [List.flatMap_nil, List.nil_append]
    simp only [readThread, hrunning, if_true]
    rcases hend with hheader | ⟨payload, tail, hlen, rfl, hpayload⟩
    · obtain ⟨what, hread⟩ := readFrame_eq_error_iff.mpr hheader
      exact ⟨what, by rw [hread]⟩
    · obtain ⟨what, hthrow⟩ := hbad s payload hpayload
      rw [readFrame_eq_some_iff.mpr ⟨hlen, rfl⟩]
      exact ⟨what, by dsimp only; rw [hthrow]⟩
  | cons p payloads ih =>
    have hlen := hvalid p List.mem_cons_self
    have hread : readFrame ((p :: payloads).flatMap frame ++ rest) = .ok (some (p, payloads.flatMap frame ++ rest)) :=
      readFrame_eq_some_iff.mpr ⟨hlen, by rw [List.flatMap_cons, List.append_assoc]⟩
    rcases hturn s p with ⟨s', hgo⟩ | ⟨what, hthrow⟩
    · obtain ⟨ts, what, hts⟩ := ih s' (fun p hp => hvalid p (List.mem_cons_of_mem _ hp))
      refine ⟨t :: ts, what, ?_⟩
      rw [readThread, if_pos hrunning, hread]
      dsimp only
      rw [hgo]
      exact hts
    · refine ⟨[t], what, ?_⟩
      rw [readThread, if_pos hrunning, hread]
      dsimp only
      rw [hthrow]

/-- `t` is a turn in which the thread is running and nothing but a payload that is bad keeps it from going on. -/
theorem survives_iff_not_breaks {t : τ} (hrunning : running t = true)
    (hturn : ∀ s p, (∃ s', turn t s p = .ok (s', true)) ∨ ∃ what, turn t s p = .error what)
    (hbad : ∀ t s p, (∃ what, turn t s p = .error what) ↔ bad p) (s : σ) (b : Bytes) :
    Survives running turn s b ↔ ¬Breaks bad b := by
  constructor
  · intro hsurvives hbreaks
    obtain ⟨ts, what, hescapes⟩ := escapes_of_breaks hrunning hturn (fun s p hp => (hbad t s p).mpr hp) hbreaks s
    obtain ⟨s', hends⟩ := hsurvives ts
    rw [hescapes] at hends
    cases hends
  · intro hbreaks ts
    cases hrun : readThread running turn ts s b with
    | ok s' => exact ⟨s', rfl⟩
    | error what => exact absurd (breaks_of_escapes (fun {t s p what} h => (hbad t s p).mp ⟨what, h⟩) hrun) hbreaks

end Thread

/-! ## The two loops -/

section Server
variable {σ : Type} (load : Bytes → Option Item) (handler : Handler σ)

/-- What the other threads have done to the state, what is in the memory of an id that is not set, and whether the response can
be written. -/
structure ServerTurn (σ : Type) where
  running : Bool
  meanwhile : σ → σ
  junk : UInt64
  writes : Bool

/-- `decode_request` and the handler are inside a `try`, and so is the writing of the response, which ends the loop if it fails. A write to a
connection that the peer has closed fails with an error, as it does where SIGPIPE is ignored, and libcbor is a release build without
assertions. -/
def connTurn (t : ServerTurn σ) (s : σ) (payload : Bytes) : Except String (σ × Bool) :=
  .ok ((connLoop load handler t.junk (t.meanwhile s) payload).1, t.writes)

def ServerSurvives (s : σ) (b : Bytes) : Prop := Survives ServerTurn.running (connTurn load handler) s b

theorem serverSurvives_iff (s : σ) (b : Bytes) : ServerSurvives load handler s b ↔ ¬Breaks (fun _ => False) b := by
  refine survives_iff_not_breaks (t := ⟨true, id, 0, true⟩) rfl ?_ ?_ s b
  · intro s p
    exact Or.inl ⟨_, rfl⟩
  · intro t s p
    constructor
    · rintro ⟨what, h⟩
      cases h
    · exact False.elim

end Server

section Client
variable (load : Bytes → Option Item)

/-- What the threads that call have done to `pending_`. -/
structure ClientTurn where
  running : Bool
  meanwhile : List UInt64 → List UInt64

/-- The state is the ids in `pending_`. The push handler is called inside a `try`, and so is `set_value`. -/
def recvTurn (t : ClientTurn) (pending : List UInt64) (payload : Bytes) : Except String (List UInt64 × Bool) :=
  match recvLoop load payload with
  | .error what => .error what
  | .ok (some (.response resp)) => .ok ((t.meanwhile pending).filter (fun id => decide (id ≠ resp.id)), true)
  | .ok _ => .ok (t.meanwhile pending, true)

def ClientSurvives (pending : List UInt64) (b : Bytes) : Prop := Survives ClientTurn.running (recvTurn load) pending b

/-- A map with `"ok"`, and so taken for a response, of which one of the two fields that `decode_response` requires is missing or of
another type. -/
def BadResponse (payload : Bytes) : Prop :=
  ∃ m, parseTopMap load payload = .ok m ∧ m.find "method" = none ∧ (m.find "ok").isSome = true ∧
    ¬((∃ id, m.find "id" = some (.uint id)) ∧ ∃ ok, m.find "ok" = some (.bool ok))

variable {load}

theorem requireUint_eq_ok_iff {m : CborMap} {key : String} {u : UInt64} : requireUint m key = .ok u ↔ m.find key = some (.uint u) := by
  unfold requireUint
  split
  · rename_i u' hfind
    rw [hfind, Except.ok.injEq, Option.some.injEq, CborValue.uint.injEq]
  · rename_i hother
    constructor
    · intro h
      cases h
    · intro h
      exact absurd h (hother u)

theorem detect_eq_response_iff {payload : Bytes} : detect load payload = .response ↔
    ∃ m, parseTopMap load payload = .ok m ∧ m.find "method" = none ∧ (m.find "ok").isSome = true := by
  unfold detect
  cases parseTopMap load payload with
  | error what => simp
  | ok m =>
    dsimp only
    split_ifs with hmethod hok hevent
    · simp [Option.isSome_iff_ne_none.mp hmethod]
    · simp at hmethod
      simp [hmethod, hok]
    · simp [hok]
    · simp [hok]

theorem decodeResponse_eq_error_iff {payload : Bytes} {m : CborMap} (h : parseTopMap load payload = .ok m) :
    (∃ what, decodeResponse load payload = .error what) ↔
      ¬((∃ id, m.find "id" = some (.uint id)) ∧ ∃ ok, m.find "ok" = some (.bool ok)) := by
  unfold decodeResponse
  rw [h]
  simp only [bind, Except.bind]
  cases hid : requireUint m "id" with
  | error what =>
    have hnone : ¬∃ id, m.find "id" = some (.uint id) := by
      rintro ⟨id, hfind⟩
      rw [requireUint_eq_ok_iff.mpr hfind] at hid
      cases hid
    simp [hnone]
  | ok id =>
    have hsome : ∃ id, m.find "id" = some (.uint id) := ⟨id, requireUint_eq_ok_iff.mp hid⟩
    simp only [hsome, true_and]
    split
    · rename_i hok
      simp [hok]
    · rename_i hok
      simp [hok]
    · rename_i htrue hfalse
      constructor
      · rintro _ ⟨ok, hok⟩
        cases ok with
        | true => exact htrue hok
        | false => exact hfalse hok
      · exact fun _ => ⟨_, rfl⟩

theorem recvLoop_eq_error_iff {payload : Bytes} : (∃ what, recvLoop load payload = .error what) ↔ BadResponse load payload := by
  unfold recvLoop
  split
  · rename_i hdetect
    obtain ⟨m, hm, hmethod, hok⟩ := detect_eq_response_iff.mp hdetect
    have hbad : BadResponse load payload ↔ ∃ what, decodeResponse load payload = .error what := by
      rw [decodeResponse_eq_error_iff hm]
      constructor
      · rintro ⟨m', hm', _, _, hfields⟩
        rw [hm] at hm'
        cases hm'
        exact hfields
      · exact fun hfields => ⟨m, hm, hmethod, hok, hfields⟩
    rw [hbad]
    cases decodeResponse load payload with
    | error what => simp [bind, Except.bind]
    | ok resp => simp [bind, Except.bind]
  · rename_i hdetect
    constructor
    · rintro ⟨what, h⟩
      cases h
    · rintro ⟨m, hm, hmethod, hok, _⟩
      rw [detect_eq_response_iff.mpr ⟨m, hm, hmethod, hok⟩] at hdetect
      cases hdetect
  · rename_i hresponse _
    constructor
    · rintro ⟨what, h⟩
      cases h
    · rintro ⟨m, hm, hmethod, hok, _⟩
      exact absurd (detect_eq_response_iff.mpr ⟨m, hm, hmethod, hok⟩) hresponse

theorem recvTurn_eq_error_iff (t : ClientTurn) (pending : List UInt64) (payload : Bytes) :
    (∃ what, recvTurn load t pending payload = .error what) ↔ BadResponse load payload := by
  rw [← recvLoop_eq_error_iff]
  unfold recvTurn
  split <;> simp_all

theorem clientSurvives_iff (pending : List UInt64) (b : Bytes) : ClientSurvives load pending b ↔ ¬Breaks (BadResponse load) b := by
  refine survives_iff_not_breaks (t := ⟨true, id⟩) rfl ?_ recvTurn_eq_error_iff pending b
  intro s p
  unfold recvTurn
  split
  · exact Or.inr ⟨_, rfl⟩
  · exact Or.inl ⟨_, rfl⟩
  · exact Or.inl ⟨_, rfl⟩

end Client

/-- No exception leaves the two loops if every length that the peer announces is valid, and no payload that the client takes for a
response lacks a field. -/
theorem survives_peer_iff {σ : Type} (load : Bytes → Option Item) (handler : Handler σ) (s : σ) (pending : List UInt64) (b : Bytes) :
    (ServerSurvives load handler s b ↔ ¬Breaks (fun _ => False) b) ∧
    (ClientSurvives load pending b ↔ ¬Breaks (BadResponse load) b) :=
  ⟨serverSurvives_iff load handler s b, clientSurvives_iff pending b⟩

/-- Four bytes end either daemon. -/
theorem not_survives_zeroLength :
    ¬∀ (σ : Type) (load : Bytes → Option Item) (handler : Handler σ) (s : σ) (pending : List UInt64) (b : Bytes),
      ServerSurvives load handler s b ∧ ClientSurvives load pending b := by
  intro h
  obtain ⟨hserver, _⟩ := h Unit Cbor.load (fun _ _ _ _ => .error []) () [] [0, 0, 0, 0]
  obtain ⟨s', hends⟩ := hserver [⟨true, id, 0, true⟩]
  rw [readThread, if_pos rfl, readFrame_zero] at hends
  cases hends

end ScatterWeb.Ipc
