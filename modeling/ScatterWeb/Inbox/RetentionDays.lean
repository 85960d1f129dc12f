import ScatterWeb.Inbox.Retention

/-! # The retention in force

`inbox.set_retention_days` casts the days to 32 bits before it looks at them. The value goes to a member of the process and to
`inbox_config`; only the member is read, and a new process starts with 7, which is also not the configured default. So the days that
`inbox.ack` uses are those of the last call as long as no call has more than 32 bits and each process gets a call of its own. -/
namespace ScatterWeb.Inbox.RetentionDays
open Crypto Lib Lib.Cbor Client Mailbox Inbox
set_option autoImplicit false

/-- The days of a call that is accepted. -/
def accepted (s : InboxStore) : Event → Option ℕ
  | .ipc _ method p =>
    if method = "inbox.set_retention_days" then
      match p.find "days", setRetentionDays s p with
      | some (.uint a), .ok _ => some a.toNat
      | _, _ => none
    else none
  | _ => none

def isRestart : Event → Bool
  | .restart _ => true
  | _ => false

/-- The store with the row `retention_days` of `inbox_config`. -/
structure State where
  store : InboxStore
  row : Option Bytes
  /-- The days of the last accepted call. -/
  last : Option ℕ
  /-- A call was accepted since the process started. -/
  here : Bool

/-- A process on a database in which the retention was never set. -/
def initial (s : InboxStore) : State := ⟨s.setRetentionDays 7, none, none, false⟩

/-- The days that were asked for. -/
def State.days (q : State) (defaultRetentionDays : ℤ) : ℤ := (q.last.map Nat.cast).getD defaultRetentionDays

/-- The Client acknowledges a message that is stored. -/
def AcksStored (s : InboxStore) (e : Event) (env : Env) (id : Bytes) : Prop :=
  ∃ p msg, e = .ipc env "inbox.ack" p ∧ reqString p "message_id" = .ok id ∧ s.getMessage id = some msg ∧ isPassThrough msg.persistence = false

/-- A call with a number of days. -/
def Sets (e : Event) (env : Env) (p : CborMap) (a : Arg) : Prop := e = .ipc env "inbox.set_retention_days" p ∧ p.find "days" = some (.uint a)

section Runs
variable (load : Bytes → Option Item) (cfg : Config) (defaultRetentionDays : ℤ)

def next (q : State) (e : Event) : State :=
  let store := Inbox.next load cfg q.store e
  match accepted q.store e with
  | some days => ⟨store, some (ascii (toString store.retentionDays)), some days, true⟩
  | none => ⟨store, q.row, q.last, q.here && !isRestart e⟩

/-- Calls are accepted by the number of days, and an acknowledged message expires after the days that were asked for. -/
structure RightRetention (q : State) (e : Event) : Prop where
  accepts : ∀ env p a, Sets e env p a → ((∃ r, handle env q.store "inbox.set_retention_days" p = .ok r) ↔ 1 ≤ a.toNat ∧ a.toNat ≤ 365)
  uses : ∀ env id, AcksStored q.store e env id →
    ((next load cfg q e).store.messages.find id).map StoredMessage.expiresAt = some (env.nowS + q.days defaultRetentionDays * 86400)

/-- The days of a call do not become valid by the cast. -/
def Fits (days : ℕ) : Prop := 2 ^ 32 ≤ days → ¬(1 ≤ days % 2 ^ 32 ∧ days % 2 ^ 32 ≤ 365)

/-- The call fits, and at an acknowledgement the process has had a call, or 7 days were asked for. -/
structure KeepsDays (q : State) (e : Event) : Prop where
  fits : ∀ env p a, Sets e env p a → Fits a.toNat
  inForce : ∀ env id, AcksStored q.store e env id → q.here = true ∨ q.days defaultRetentionDays = 7

variable {load cfg defaultRetentionDays}

/-! ## One call -/

theorem narrowed_range (n : ℕ) : (¬((UInt64.ofNat n).toUInt32.toInt32.toInt < 1 ∨ 365 < (UInt64.ofNat n).toUInt32.toInt32.toInt)) ↔
    1 ≤ n % 2 ^ 32 ∧ n % 2 ^ 32 ≤ 365 := by
  rw [toInt_toInt32, Int.bmod_def]
  split <;> omega

theorem narrowed_eq {n : ℕ} (h : n % 2 ^ 32 ≤ 365) : (UInt64.ofNat n).toUInt32.toInt32.toInt = (n % 2 ^ 32 : ℕ) := by
  rw [toInt_toInt32, Int.bmod_def]
  split <;> omega

section Calls
variable {s : InboxStore} {p : CborMap} {a : Arg}

theorem setRetentionDays_ok (hfind : p.find "days" = some (.uint a)) (hrange : 1 ≤ a.toNat % 2 ^ 32 ∧ a.toNat % 2 ^ 32 ≤ 365) :
    setRetentionDays s p = .ok (s.setRetentionDays (a.toNat % 2 ^ 32 : ℕ), [("ok", .bool true)]) := by
  unfold setRetentionDays
  rw [hfind]
  dsimp only
  rw [if_neg ((narrowed_range a.toNat).mpr hrange), narrowed_eq hrange.2]

theorem setRetentionDays_error (hfind : p.find "days" = some (.uint a)) (hrange : ¬(1 ≤ a.toNat % 2 ^ 32 ∧ a.toNat % 2 ^ 32 ≤ 365)) :
    setRetentionDays s p = .error (.runtime (ascii "days out of range")) := by
  unfold setRetentionDays
  rw [hfind]
  dsimp only
  rw [if_pos (not_not.mp (mt (narrowed_range a.toNat).mp hrange))]

theorem find_of_setRetentionDays {r : InboxStore × Reply} (h : setRetentionDays s p = .ok r) : ∃ a, p.find "days" = some (.uint a) := by
  unfold setRetentionDays at h
  split at h
  · rename_i a hfind
    exact ⟨a, hfind⟩
  · cases h

theorem handle_set (env : Env) : handle env s "inbox.set_retention_days" p = setRetentionDays s p := rfl

theorem handle_ok_iff (env : Env) (hfind : p.find "days" = some (.uint a)) :
    (∃ r, handle env s "inbox.set_retention_days" p = .ok r) ↔ 1 ≤ a.toNat % 2 ^ 32 ∧ a.toNat % 2 ^ 32 ≤ 365 := by
  rw [handle_set]
  constructor
  · rintro ⟨r, hok⟩
    by_contra hrange
    rw [setRetentionDays_error hfind hrange] at hok
    cases hok
  · intro hrange
    exact ⟨_, setRetentionDays_ok hfind hrange⟩

/-- A call is accepted by its low 32 bits. -/
theorem accepts_iff (env : Env) (hfind : p.find "days" = some (.uint a)) :
    ((∃ r, handle env s "inbox.set_retention_days" p = .ok r) ↔ 1 ≤ a.toNat ∧ a.toNat ≤ 365) ↔ Fits a.toNat := by
  rw [handle_ok_iff env hfind]
  unfold Fits
  omega

end Calls

/-! ## One step -/

theorem next_set {s : InboxStore} {env : Env} {p : CborMap} {s' : InboxStore} {r : Reply} (hok : setRetentionDays s p = .ok (s', r)) :
    Inbox.next load cfg s (.ipc env "inbox.set_retention_days" p) = s' := by
  simp only [Inbox.next, step, handle_set, hok]

theorem accepted_eq_some {s : InboxStore} {e : Event} {days : ℕ} (h : accepted s e = some days) : ∃ env p a, Sets e env p a ∧
    days = a.toNat ∧ (1 ≤ days % 2 ^ 32 ∧ days % 2 ^ 32 ≤ 365) ∧ (Inbox.next load cfg s e).retentionDays = (days % 2 ^ 32 : ℕ) := by
  cases e with
  | ipc env method p =>
    unfold accepted at h
    dsimp only at h
    split_ifs at h with hmethod
    · subst hmethod
      split at h
      · rename_i a r hfind hok
        cases h
        have hrange : 1 ≤ a.toNat % 2 ^ 32 ∧ a.toNat % 2 ^ 32 ≤ 365 := (handle_ok_iff env hfind).mp ⟨_, hok⟩
        rw [next_set (setRetentionDays_ok hfind hrange)]
        exact ⟨env, p, a, ⟨rfl, hfind⟩, rfl, hrange, rfl⟩
      · cases h
  | frame env channelId body => cases h
  | tick env => cases h
  | restart env => cases h

theorem retentionDays_next {s : InboxStore} {e : Event} (h : accepted s e = none) (hrestart : isRestart e = false) :
    (Inbox.next load cfg s e).retentionDays = s.retentionDays := by
  cases e with
  | ipc env method p =>
    cases hhandle : handle env s method p with
    | error err => simp only [Inbox.next, step, hhandle]
    | ok res =>
      obtain ⟨s', r⟩ := res
      simp only [Inbox.next, step, hhandle]
      obtain hsame | ⟨_, hack⟩ | ⟨rfl, hset⟩ := handle_cases hhandle
      · exact hsame.retentionDays
      · obtain ⟨id, msg, _, _, rfl⟩ := ack_ok hack
        unfold ackMessage
        split_ifs <;> rfl
      · obtain ⟨a, hfind⟩ := find_of_setRetentionDays hset
        unfold accepted at h
        dsimp only at h
        rw [if_pos rfl, hset, hfind] at h
        cases h
  | frame env channelId body =>
    have hframe : Inbox.next load cfg s (.frame env channelId body) =
        { s with messages := (processDeliveryFrame load cfg env s channelId body).1.messages } := processDeliveryFrame_eq
    rw [hframe]
  | tick env => rfl
  | restart env => cases hrestart

/-- The member holds the days of the last call if there was one in this process, and 7 otherwise. -/
structure InForce (q : State) : Prop where
  here : q.here = true → q.last.map Nat.cast = some q.store.retentionDays
  fresh : q.here = false → q.store.retentionDays = 7
  row : q.row = q.last.map (fun days => ascii (toString days))

theorem inForce_next {q : State} {e : Event} (h : InForce q) (hfits : ∀ env p a, Sets e env p a → Fits a.toNat) :
    InForce (next load cfg q e) := by
  unfold next
  cases haccepted : accepted q.store e with
  | some days =>
    obtain ⟨env, p, a, hsets, rfl, hrange, hdays⟩ : ∃ env p a, Sets e env p a ∧ days = a.toNat ∧ _ ∧
      (Inbox.next load cfg q.store e).retentionDays = _ := accepted_eq_some haccepted
    have hsmall : a.toNat % 2 ^ 32 = a.toNat := Nat.mod_eq_of_lt (not_le.mp (fun hge => hfits env p a hsets hge hrange))
    rw [hsmall] at hdays
    dsimp only
    refine ⟨fun _ => ?_, fun hhere => (nomatch hhere), ?_⟩
    · rw [hdays, Option.map_some]
    · rw [hdays]
      rfl
  | none =>
    cases hrestart : isRestart e with
    | true =>
      cases e with
      | restart env => exact ⟨fun hhere => absurd hhere (by simp), fun _ => rfl, h.row⟩
      | _ => cases hrestart
    | false =>
      have hsame : (Inbox.next load cfg q.store e).retentionDays = q.store.retentionDays := retentionDays_next haccepted hrestart
      refine ⟨fun hhere => ?_, fun hhere => ?_, h.row⟩
      · dsimp only at hhere ⊢
        rw [hsame]
        exact h.here (by simpa using hhere)
      · dsimp only at hhere ⊢
        rw [hsame]
        exact h.fresh (by simpa using hhere)

theorem next_store (q : State) (e : Event) : (next load cfg q e).store = Inbox.next load cfg q.store e := by
  unfold next
  dsimp only
  split <;> rfl

/-- An acknowledged message expires after the days that the member holds. -/
theorem expiresAt_next {q : State} {e : Event} {env : Env} {id : Bytes} (h : AcksStored q.store e env id) :
    ((next load cfg q e).store.messages.find id).map StoredMessage.expiresAt = some (env.nowS + q.store.retentionDays * 86400) := by
  obtain ⟨p, msg, rfl, hid, hmsg, hpass⟩ := h
  obtain ⟨m, hfind, rfl⟩ := Option.map_eq_some_iff.mp hmsg
  have hpass' : ¬isPassThrough (cStr m.persistence) = true := Bool.not_eq_true _ ▸ hpass
  rw [next_store, next_ack hid hmsg, find_ackMessage hfind, if_neg hpass']
  rfl

theorem rightRetention_iff {q : State} (h : InForce q) (e : Event) :
    RightRetention load cfg defaultRetentionDays q e ↔ KeepsDays defaultRetentionDays q e := by
  have hhere : q.here = true → q.days defaultRetentionDays = q.store.retentionDays := by
    intro hhere
    unfold State.days
    rw [h.here hhere, Option.getD_some]
  constructor
  · rintro ⟨haccepts, huses⟩
    constructor
    · rintro env p a hsets
      exact (accepts_iff env hsets.2).mp (haccepts env p a hsets)
    · intro env id hacks
      have huse := huses env id hacks
      rw [expiresAt_next hacks, Option.some.injEq] at huse
      cases hq : q.here with
      | true => exact Or.inl rfl
      | false =>
        have hfresh := h.fresh hq
        exact Or.inr (by omega)
  · rintro ⟨hfits, hinForce⟩
    constructor
    · intro env p a hsets
      exact (accepts_iff env hsets.2).mpr (hfits env p a hsets)
    · intro env id hacks
      rw [expiresAt_next hacks]
      cases hq : q.here with
      | true => rw [hhere hq]
      | false =>
        have hseven : q.days defaultRetentionDays = 7 := (hinForce env id hacks).resolve_left (by simp [hq])
        rw [h.fresh hq, hseven]

theorem inForce_initial (s : InboxStore) : InForce (initial s) := ⟨fun h => (nomatch h), fun _ => rfl, rfl⟩

/-- The table has the days of the last call, which nothing reads. -/
theorem row_of_fits (s : InboxStore) {es : List Event}
    (h : Along (next load cfg) (fun _ e => ∀ env p a, Sets e env p a → Fits a.toNat) (initial s) es) :
    (es.foldl (next load cfg) (initial s)).row =
      (es.foldl (next load cfg) (initial s)).last.map (fun days => ascii (toString days)) :=
  (along_foldl InForce (fun _ _ hq hfits => inForce_next hq hfits) (inForce_initial s) h).row

/-- In every run: calls are accepted by their days and every acknowledgement uses the days of the last one, exactly if the calls fit, and
no acknowledgement comes before the first call of its process unless it is of 7 days. -/
theorem retention_days_right_iff (load : Bytes → Option Item) (cfg : Config) (defaultRetentionDays : ℤ) (s : InboxStore) (es : List Event) :
    Along (next load cfg) (RightRetention load cfg defaultRetentionDays) (initial s) es ↔
      Along (next load cfg) (KeepsDays defaultRetentionDays) (initial s) es :=
  along_iff InForce (fun _ e hq => rightRetention_iff hq e)
    (fun _ e hq hright => inForce_next hq ((rightRetention_iff hq e).mp hright).fits) (inForce_initial s) es

end Runs

/-! ## A call with 33 bits -/

def wideParams : CborMap := [(.text (ascii "days"), .uint (.a64 4294967303))]

theorem not_rightRetention_wideParams : ¬ ∀ es, Along (next load {}) (RightRetention load {} 7) (initial .empty) es := by
  intro h
  obtain ⟨hright, _⟩ := h [.ipc clockZero "inbox.set_retention_days" wideParams]
  have haccepted : ∃ r, handle clockZero (initial .empty).store "inbox.set_retention_days" wideParams = .ok r :=
    (handle_ok_iff clockZero rfl).mpr (by decide)
  have hrange := (hright.accepts clockZero wideParams (.a64 4294967303) ⟨rfl, rfl⟩).mp haccepted
  exact absurd hrange.2 (by decide)

end ScatterWeb.Inbox.RetentionDays
