import ScatterWeb.Outbox.Steps

/-! # When a message expires

`outbox.enqueue` adds the `ttl_ms` of the request, an unsigned integer cast to `int64_t`, to the clock, and `expire_messages` compares the sum
with the clock later. The sum is what was asked for as long as it fits: above, the addition overflows, and a lifetime of 2^63 or more counts as
negative, so that the message has expired before it was queued or, where the sum is not positive, never does. -/
namespace ScatterWeb.Outbox
open Crypto Lib Lib.Cbor Client Mailbox
set_option autoImplicit false

/-- What a row says of its message. -/
def QueuedMessage.content (m : QueuedMessage) : Bytes × Bytes × ℤ × ℤ :=
  (m.recipientKeyBKemPubkeyHex, m.deliveryFrame, m.enqueuedAtMs, m.expiresAtMs)

/-- Rows stay, with what they say of their messages. -/
def Keeps (s s' : OutboxStore) : Prop :=
  ∀ id m, s.messages.find id = some m → ∃ m', s'.messages.find id = some m' ∧ m'.content = m.content

namespace Keeps
variable {s s' s'' : OutboxStore}

theorem of_messages (h : s'.messages = s.messages) : Keeps s s' := by
  intro id m hm
  rw [h]
  exact ⟨m, hm, rfl⟩

theorem trans (h : Keeps s s') (h' : Keeps s' s'') : Keeps s s'' := by
  intro id m hm
  obtain ⟨m', hm', hsame⟩ := h id m hm
  obtain ⟨m'', hm'', hsame'⟩ := h' id m' hm'
  exact ⟨m'', hm'', hsame'.trans hsame⟩

/-- Writes that change the rest of a row. -/
theorem of_map {f : Bytes → QueuedMessage → QueuedMessage} (hfind : ∀ id, s'.messages.find id = (s.messages.find id).map (f id))
    (hcontent : ∀ id m, (f id m).content = m.content) : Keeps s s' := by
  intro id m hm
  refine ⟨f id m, ?_, hcontent id m⟩
  rw [hfind, hm]
  rfl

theorem insertMessage (s : OutboxStore) (msg : QueuedMessage) : Keeps s (s.insertMessage msg).1 :=
  fun _ m hm => ⟨m, Table.find_insertNew_of_some hm, rfl⟩

theorem setStatus (s : OutboxStore) (id : Bytes) (st : MsgStatus) : Keeps s (s.setStatus id st) := by
  refine of_map (f := fun i m => if id = i then { m with status := st } else m) ?_ ?_
  · intro i
    rw [s.find_setStatus]
    split
    · rfl
    · rw [Option.map_id']
  · intro i m
    split
    · rfl
    · rfl

theorem updateAttempt (s : OutboxStore) (id : Bytes) (count nextAt : ℤ) : Keeps s (s.updateAttempt id count nextAt) := by
  refine of_map (f := fun i m => if id = i then { m with attemptCount := count, nextAttemptAt := nextAt } else m) ?_ ?_
  · intro i
    rw [s.find_updateAttempt]
    split
    · rfl
    · rw [Option.map_id']
  · intro i m
    split
    · rfl
    · rfl

theorem expireMessages (s : OutboxStore) (nowMs : ℤ) : Keeps s (s.expireMessages nowMs) := by
  refine of_map (s.find_expireMessages nowMs) ?_
  intro id m
  split
  · rfl
  · rfl

end Keeps

/-! ## Steps -/

section Steps
variable {load : Bytes → Option Item} {cfg : Config} {env : Env} {s s' : OutboxStore} {p : CborMap}

theorem keeps_onFrame (load : Bytes → Option Item) (s : OutboxStore) (channelId body : Bytes) : Keeps s (onFrame load s channelId body).1 := by
  refine Keeps.of_map (f := fun id m => if id ∈ deliveredIds load s body then { m with status := .delivered } else m) ?_ ?_
  · intro id
    rw [find_onFrame]
    split
    · rfl
    · rw [Option.map_id']
  · intro id m
    split
    · rfl
    · rfl

theorem keeps_broadcastNext (s : OutboxStore) (b : Broadcast) : Keeps s (broadcastNext s b).1 := by
  obtain hnext | ⟨rest, hnext⟩ | ⟨rest, kb, inbox, _, hnext⟩ := broadcastNext_cases s b
  · rw [hnext]
    exact .of_messages rfl
  · rw [hnext]
    exact .of_messages rfl
  · rw [hnext]
    exact (Keeps.insertMessage s _).trans (.of_messages (addInbox_messages _ _ _))

theorem keeps_work (cfg : Config) (env : Env) (s : OutboxStore) (task : Task) : Keeps s (work cfg env s task).1 := by
  obtain hstore | ⟨origin, msg, nextAt, _, hstore⟩ | ⟨b, _, hstore⟩ := store_work_cases cfg env s task
  · rw [hstore]
    exact .of_messages rfl
  · rw [hstore]
    exact .updateAttempt s _ _ _
  · rw [hstore]
    exact keeps_broadcastNext s b

theorem enqueue_eq {task : Task} (h : enqueue load env s p = .ok (s', task)) : ∃ frame hdr, s.messages.find hdr.messageId = none ∧
    s' = enqueuedStore env s frame hdr p ∧ task = .read hdr.messageId none := by
  obtain ⟨frame, hframe, h⟩ := bind_eq_ok.mp h
  obtain ⟨hdr, hparse, h⟩ := bind_eq_ok.mp h
  split at h
  · cases h
  · rename_i s1 hins
    cases h
    obtain ⟨hstore, hnew⟩ := Prod.ext_iff.mp hins
    refine ⟨frame, hdr, Table.find_none_of_insertNew hnew, ?_, rfl⟩
    unfold enqueuedStore
    rw [hstore]

theorem keeps_handle {method : String} {out : Outcome} (h : handle load env s method p = .ok out) : Keeps s out.store := by
  cases handled_of_handle h with
  | enqueue hr =>
    obtain ⟨frame, hdr, _, rfl, _⟩ := enqueue_eq hr
    exact (Keeps.insertMessage s _).trans (.of_messages (foldl_addRecipientInbox_messages _ _))
  | broadcast b => exact .of_messages rfl
  | cancel hr =>
    obtain ⟨id, _, hr⟩ := bind_eq_ok.mp hr
    split at hr
    · cases hr
      exact .setStatus s id .cancelled
    · cases hr
  | keeps hkeeps => exact .of_messages hkeeps.1

theorem keeps_next (load : Bytes → Option Item) (cfg : Config) (q : Process) (e : Event) : Keeps q.store (next load cfg q e).store := by
  obtain hstore | ⟨channelId, body, rfl, hstore⟩ | ⟨env, method, p, out, rfl, hhandle, hstore⟩ | ⟨env, rfl, hstore⟩ |
    ⟨env, index, task, rfl, _, hstore⟩ := store_next_cases load cfg q e
  · rw [hstore]
    exact .of_messages rfl
  · rw [hstore]
    exact keeps_onFrame load q.store channelId body
  · rw [hstore]
    exact keeps_handle hhandle
  · rw [hstore]
    exact .expireMessages q.store env.nowMs
  · rw [hstore]
    exact keeps_work cfg env q.store task

/-- Whatever happens, a row keeps what it says of its message. -/
theorem keeps_foldl (load : Bytes → Option Item) (cfg : Config) (q : Process) (es : List Event) :
    Keeps q.store (es.foldl (next load cfg) q).store := by
  induction es generalizing q with
  | nil => exact .of_messages rfl
  | cons e es ih => exact (keeps_next load cfg q e).trans (ih (next load cfg q e))

end Steps

/-! ## The deadline -/

def InInt64 (i : ℤ) : Prop := -2 ^ 63 ≤ i ∧ i < 2 ^ 63

/-- The message that the request queues expires when it should. `ttl` is what the request asks for. -/
structure ExpiryRight (load : Bytes → Option Item) (cfg : Config) (env : Env) (p : CborMap) (ttl : UInt64) (q : Process) (id : Bytes) : Prop where
  noOverflow : InInt64 (env.nowMs + ttlMs p)
  stored : ∃ m, (next load cfg q (.ipc env "outbox.enqueue" p)).store.messages.find id = some m ∧
    m.expiresAtMs = env.nowMs + ttlMs p ∧ env.nowMs ≤ m.expiresAtMs
  expires : ∀ (es : List Event) (q' : Process) (m : QueuedMessage) (now : ℤ),
    q' = es.foldl (next load cfg) (next load cfg q (.ipc env "outbox.enqueue" p)) →
    q'.store.messages.find id = some m → m.status = .pending →
    ((q'.store.expireMessages now).messages.find id = some { m with status := .expired } ↔ env.nowMs + ttl.toNat < now)

section Deadline
variable {load : Bytes → Option Item} {cfg : Config} {env : Env} {s' : OutboxStore} {p : CborMap} {q : Process} {id : Bytes} {a : Arg}

theorem ttlMs_of_uint (h : p.find "ttl_ms" = some (.uint a)) :
    ttlMs p = if (UInt64.ofNat a.toNat).toNat < 2 ^ 63 then ((UInt64.ofNat a.toNat).toNat : ℤ) else (UInt64.ofNat a.toNat).toNat - 2 ^ 64 := by
  unfold ttlMs
  rw [h]
  dsimp only
  have hlt := (UInt64.ofNat a.toNat).toNat_lt
  have hcast := toInt_toInt64 (UInt64.ofNat a.toNat).toNat
  rw [UInt64.ofNat_toNat, Int.bmod_def] at hcast
  rw [hcast]
  split
  · rw [if_pos (by omega)]
    omega
  · rw [if_neg (by omega)]
    omega

theorem find_expireMessages_eq_iff {s : OutboxStore} {m : QueuedMessage} {now : ℤ} (hm : s.messages.find id = some m) (hpending : m.status = .pending) :
    (s.expireMessages now).messages.find id = some { m with status := .expired } ↔ 0 < m.expiresAtMs ∧ m.expiresAtMs < now := by
  rw [s.find_expireMessages, hm, Option.map_some, Option.some_inj]
  by_cases hexpired : OutboxStore.isExpired now m = true
  · rw [if_pos hexpired]
    exact iff_of_true rfl (of_decide_eq_true hexpired).2
  · rw [if_neg hexpired]
    refine iff_of_false ?_ ?_
    · intro hsame
      rw [congrArg QueuedMessage.status hsame] at hpending
      cases hpending
    · intro h
      exact hexpired (decide_eq_true ⟨hpending, h⟩)

theorem next_of_enqueue (cfg : Config) (h : enqueue load env q.store p = .ok (s', .read id none)) :
    ∃ m, (next load cfg q (.ipc env "outbox.enqueue" p)).store.messages.find id = some m ∧ m.expiresAtMs = env.nowMs + ttlMs p := by
  have hhandle : handle load env q.store "outbox.enqueue" p = .ok (.started s' (.read id none)) := by
    change (enqueue load env q.store p).map _ = _
    rw [h]
    rfl
  have hstore : (next load cfg q (.ipc env "outbox.enqueue" p)).store = s' := by
    unfold next
    rw [step, hhandle]
  obtain ⟨frame, hdr, hnew, rfl, htask⟩ := enqueue_eq h
  obtain rfl : id = hdr.messageId := (Task.read.inj htask).1
  rw [hstore]
  exact ⟨_, find_enqueuedStore hnew, rfl⟩

/-- The deadline is right if and only if it fits into 64 bits. -/
theorem expiry_right_iff (hlow : 1 ≤ env.nowMs) (hhigh : env.nowMs < 2 ^ 62) (httl : p.find "ttl_ms" = some (.uint a))
    (h : enqueue load env q.store p = .ok (s', .read id none)) :
    ExpiryRight load cfg env p (UInt64.ofNat a.toNat) q id ↔ env.nowMs + (UInt64.ofNat a.toNat).toNat < 2 ^ 63 := by
  have hlt := (UInt64.ofNat a.toNat).toNat_lt
  have hcast := ttlMs_of_uint httl
  obtain ⟨m₀, hm₀, hexpires₀⟩ := next_of_enqueue cfg h
  constructor
  · rintro ⟨⟨_, hover⟩, ⟨m, hm, hexpires, hle⟩, _⟩
    rw [hexpires] at hle
    split at hcast
    · omega
    · omega
  · intro hfits
    rw [if_pos (by omega)] at hcast
    refine ⟨⟨by omega, by omega⟩, ⟨m₀, hm₀, hexpires₀, by omega⟩, ?_⟩
    rintro es q' m now rfl hm hpending
    obtain ⟨m', hm', hcontent⟩ := keeps_foldl load cfg _ es id m₀ hm₀
    rw [hm] at hm'
    cases hm'
    have hexpires : m.expiresAtMs = m₀.expiresAtMs := congrArg (fun c => c.2.2.2) hcontent
    rw [find_expireMessages_eq_iff hm hpending, hexpires, hexpires₀, hcast]
    omega

end Deadline

def ttlParams (a : Arg) : CborMap := (.text (ascii "ttl_ms"), .uint a) :: enqueueParams

def clockTen : Env := { clockZero with nowMs := 10 }

theorem find_ttlParams (a : Arg) : (ttlParams a).find "ttl_ms" = some (.uint a) := by
  simp [CborMap.find, lastField, lastWith, ttlParams, enqueueParams]

theorem enqueue_ttlParams (a : Arg) : enqueue load clockTen .empty (ttlParams a) =
    .ok (enqueuedStore clockTen .empty queuedFrame { messageId := queuedId } (ttlParams a), .read queuedId none) := by
  have hframe : reqBytes (ttlParams a) "delivery_frame" = .ok queuedFrame := by
    simp [reqBytes, CborMap.find, lastField, lastWith, ttlParams, enqueueParams]
  exact enqueue_ok hframe parseDeliveryFrame_queuedFrame rfl

theorem clockTen_nowMs : clockTen.nowMs = 10 := rfl

/-- A lifetime of five milliseconds. -/
theorem expiryRight_five : ExpiryRight load {} clockTen (ttlParams (.a8 5)) (UInt64.ofNat (Arg.a8 5).toNat) Process.initial queuedId := by
  have hlow : 1 ≤ clockTen.nowMs := by
    rw [clockTen_nowMs]
    omega
  have hhigh : clockTen.nowMs < 2 ^ 62 := by
    rw [clockTen_nowMs]
    omega
  have hfive : (UInt64.ofNat (Arg.a8 5).toNat).toNat = 5 := rfl
  refine (expiry_right_iff (q := Process.initial) hlow hhigh (find_ttlParams _) (enqueue_ttlParams _)).mpr ?_
  rw [clockTen_nowMs, hfive]
  norm_num

theorem ttlMs_max : ttlMs (ttlParams (.a64 18446744073709551615)) = -1 := by
  rw [ttlMs_of_uint (find_ttlParams _)]
  rfl

/-- The largest lifetime is over a millisecond before it starts. -/
theorem not_expiryRight_max :
    ¬∀ (env : Env) (p : CborMap) (a : Arg) (s' : OutboxStore) (q : Process) (id : Bytes), 1 ≤ env.nowMs → env.nowMs < 2 ^ 62 →
      p.find "ttl_ms" = some (.uint a) → enqueue load env q.store p = .ok (s', .read id none) →
      ExpiryRight load {} env p (UInt64.ofNat a.toNat) q id := by
  intro h
  obtain ⟨_, ⟨m, _, hexpires, hle⟩, _⟩ := h clockTen (ttlParams (.a64 18446744073709551615)) (.a64 18446744073709551615) _ Process.initial queuedId
    (by decide) (by decide) (find_ttlParams _) (enqueue_ttlParams _)
  rw [hexpires, ttlMs_max] at hle
  omega

end ScatterWeb.Outbox
