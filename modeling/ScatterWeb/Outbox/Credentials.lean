import ScatterWeb.Lib.Connection
import ScatterWeb.Lib.Transition
import ScatterWeb.Outbox.Acks

/-! # The credentials of the outbox

`set_auth_cert` writes three rows of `outbox_config` by three statements, each on its own. A call that is cut short leaves rows of two calls,
and `get_auth_creds` puts them together as one. A renewal changes all three, so only a call that leaves them all, or finds no certificate, is
safe to cut short. -/
namespace ScatterWeb.Outbox
open Crypto Lib Lib.Cbor Client Mailbox
set_option autoImplicit false

structure AuthCreds where
  keyCPubkey : Bytes
  keyCPrivkey : Bytes
  authCert : Bytes
  deriving DecidableEq

abbrev OutboxConfig := Table (Prod.fst : String × Bytes → String)

/-- `INSERT OR REPLACE` into a column that takes no null, which is what an empty value is bound as. -/
def putConfig (row : String × Bytes) : Statement OutboxConfig := fun t => if row.2 = [] then none else some (t.upsert row)

def AuthCreds.rows (creds : AuthCreds) : List (String × Bytes) :=
  [("key_c_pubkey", creds.keyCPubkey), ("key_c_privkey", creds.keyCPrivkey), ("auth_cert", creds.authCert)]

def setAuthCert (conn : Conn OutboxConfig) (creds : AuthCreds) (fates : List Fate) : Conn OutboxConfig × Option Exit :=
  (conn.execAll (creds.rows.map putConfig) fates).1

def fetch (t : OutboxConfig) (key : String) : Bytes := ((t.find key).map Prod.snd).getD []

def fetched (t : OutboxConfig) : AuthCreds := ⟨fetch t "key_c_pubkey", fetch t "key_c_privkey", fetch t "auth_cert"⟩

def getAuthCreds (t : OutboxConfig) : Option AuthCreds :=
  if (fetched t).keyCPubkey = [] ∨ (fetched t).authCert = [] then none else some (fetched t)

/-- The parameters of `outbox.update_auth_cert`. -/
def passedCreds (p : CborMap) : Except IpcError AuthCreds := do
  let keyCPubkey ← reqBytes p "key_c_pubkey"
  let keyCPrivkey ← reqBytes p "key_c_privkey"
  let authCert ← reqBytes p "auth_cert"
  return { keyCPubkey, keyCPrivkey, authCert }

/-! ## A call that is cut short -/

/-- How many of the rows are written. -/
def writtenCount : List (String × Bytes) → List Fate → ℕ
  | [], _ => 0
  | row :: rows, fates => if row.2 = [] ∨ fates.headD .done ≠ .done then 0 else writtenCount rows fates.tail + 1

section Writes
variable {t : OutboxConfig} {creds : AuthCreds} {fates : List Fate}

theorem exec_putConfig (t : OutboxConfig) (row : String × Bytes) (fate : Fate) : Conn.exec ⟨t, none⟩ (putConfig row) fate =
    if row.2 = [] ∨ fate ≠ .done then (⟨t, none⟩, some (if fate = .stopped then .stopped else .threw)) else (⟨t.upsert row, none⟩, none) := by
  unfold Conn.exec putConfig
  by_cases hrow : row.2 = []
  · cases fate <;> simp [Conn.call, Conn.reopened, hrow]
  · cases fate <;> simp [Conn.call, Conn.reopened, Conn.write, Conn.view, hrow]

/-- The rows are written up to the first that cannot be. -/
theorem execAll_putConfig (t : OutboxConfig) (rows : List (String × Bytes)) (fates : List Fate) :
    (Conn.execAll ⟨t, none⟩ (rows.map putConfig) fates).1.1 = ⟨(rows.take (writtenCount rows fates)).foldl Table.upsert t, none⟩ := by
  induction rows generalizing t fates with
  | nil => rfl
  | cons row rows ih =>
    rw [List.map_cons, Conn.execAll, exec_putConfig, writtenCount]
    by_cases hcut : row.2 = [] ∨ fates.headD .done ≠ .done
    · rw [if_pos hcut, if_pos hcut]
      rfl
    · rw [if_neg hcut, if_neg hcut]
      exact ih (t.upsert row) fates.tail

/-- No row with an empty value is written. -/
theorem ne_nil_of_written {rows : List (String × Bytes)} {fates : List Fate} {row : String × Bytes}
    (h : row ∈ rows.take (writtenCount rows fates)) : row.2 ≠ [] := by
  induction rows generalizing fates with
  | nil => cases h
  | cons row' rows ih =>
    rw [writtenCount] at h
    by_cases hcut : row'.2 = [] ∨ fates.headD .done ≠ .done
    · rw [if_pos hcut] at h
      cases h
    · rw [if_neg hcut, List.take_succ_cons] at h
      obtain rfl | hmem := List.mem_cons.mp h
      · exact fun hnil => hcut (.inl hnil)
      · exact ih hmem

theorem fetch_upsert (t : OutboxConfig) (row : String × Bytes) (key : String) :
    fetch (t.upsert row) key = if row.1 = key then row.2 else fetch t key := by
  unfold fetch
  rw [Table.find_upsert]
  split
  · rfl
  · rfl

/-- What is stored when the first `n` rows are written. -/
theorem fetched_writes (t : OutboxConfig) (creds : AuthCreds) (n : ℕ) : fetched ((creds.rows.take n).foldl Table.upsert t) =
    ⟨if n = 0 then (fetched t).keyCPubkey else creds.keyCPubkey, if n ≤ 1 then (fetched t).keyCPrivkey else creds.keyCPrivkey,
      if n ≤ 2 then (fetched t).authCert else creds.authCert⟩ := by
  match n with
  | 0 => rfl
  | 1 => simp [fetched, AuthCreds.rows, fetch_upsert]
  | 2 => simp [fetched, AuthCreds.rows, fetch_upsert]
  | n + 3 => simp [fetched, AuthCreds.rows, fetch_upsert]

/-- The call is not cut short where it shows: no certificate is stored, or what it writes is stored already, or what it leaves out. -/
def LeavesWhole (t : OutboxConfig) (creds : AuthCreds) (fates : List Fate) : Prop :=
  fetch t "auth_cert" = [] ∨ (∀ row ∈ creds.rows.take (writtenCount creds.rows fates), fetch t row.1 = row.2) ∨
    ∀ row ∈ creds.rows.drop (writtenCount creds.rows fates), fetch t row.1 = row.2

theorem setAuthCert_conn (t : OutboxConfig) (creds : AuthCreds) (fates : List Fate) : (setAuthCert ⟨t, none⟩ creds fates).1 =
    ⟨(creds.rows.take (writtenCount creds.rows fates)).foldl Table.upsert t, none⟩ := execAll_putConfig t creds.rows fates

theorem getAuthCreds_eq_some_iff {c : AuthCreds} : getAuthCreds t = some c ↔ fetched t = c ∧ c.keyCPubkey ≠ [] ∧ c.authCert ≠ [] := by
  unfold getAuthCreds
  constructor
  · intro h
    split at h
    · cases h
    · rename_i hne
      cases h
      exact ⟨rfl, not_or.mp hne⟩
  · rintro ⟨rfl, hne⟩
    exact if_neg (not_or.mpr hne)

theorem getAuthCreds_eq_none_iff : getAuthCreds t = none ↔ (fetched t).keyCPubkey = [] ∨ (fetched t).authCert = [] := by
  unfold getAuthCreds
  split
  · rename_i h
    exact iff_of_true rfl h
  · rename_i h
    exact iff_of_false (fun hnone => nomatch hnone) h

theorem fetched_writes_eq_passed_iff (t : OutboxConfig) (creds : AuthCreds) (n : ℕ) :
    fetched ((creds.rows.take n).foldl Table.upsert t) = creds ↔ ∀ row ∈ creds.rows.drop n, fetch t row.1 = row.2 := by
  obtain ⟨pub, priv, cert⟩ := creds
  rw [fetched_writes]
  match n with
  | 0 => simp [fetched, AuthCreds.rows]
  | 1 => simp [fetched, AuthCreds.rows]
  | 2 => simp [fetched, AuthCreds.rows]
  | n + 3 => simp [AuthCreds.rows]

theorem fetched_writes_eq_fetched_iff (t : OutboxConfig) (creds : AuthCreds) (n : ℕ) :
    fetched ((creds.rows.take n).foldl Table.upsert t) = fetched t ↔ ∀ row ∈ creds.rows.take n, fetch t row.1 = row.2 := by
  obtain ⟨pub, priv, cert⟩ := creds
  rw [fetched_writes]
  match n with
  | 0 => simp [AuthCreds.rows, fetched]
  | 1 => simp [fetched, AuthCreds.rows, eq_comm]
  | 2 => simp [fetched, AuthCreds.rows, eq_comm]
  | n + 3 => simp [fetched, AuthCreds.rows, eq_comm]

theorem getAuthCreds_of_fetched {c : AuthCreds} (h : fetched t = c) : getAuthCreds t = none ∨ getAuthCreds t = some c := by
  unfold getAuthCreds
  split
  · exact .inl rfl
  · rw [h]
    exact .inr rfl

/-- Without credentials after the call there was no certificate before it, or nothing was written. -/
theorem leavesWhole_of_none (h : getAuthCreds (setAuthCert ⟨t, none⟩ creds fates).1.disk = none) : LeavesWhole t creds fates := by
  have hwritten : ∀ row ∈ creds.rows.take (writtenCount creds.rows fates), row.2 ≠ [] := fun _ => ne_nil_of_written
  rw [setAuthCert_conn, getAuthCreds_eq_none_iff, fetched_writes] at h
  rw [LeavesWhole]
  generalize writtenCount creds.rows fates = n at hwritten h ⊢
  dsimp only at h
  obtain hpub | hcert := h
  · right
    left
    by_cases hn : n = 0
    · rw [hn]
      intro row hrow
      cases hrow
    · obtain ⟨m, rfl⟩ := Nat.exists_eq_succ_of_ne_zero hn
      rw [if_neg hn] at hpub
      exact absurd hpub (hwritten ("key_c_pubkey", creds.keyCPubkey) List.mem_cons_self)
  · left
    by_cases hn : n ≤ 2
    · rwa [if_pos hn] at hcert
    · obtain ⟨m, rfl⟩ := Nat.exists_eq_add_of_lt (Nat.lt_of_not_le hn)
      rw [if_neg hn] at hcert
      refine absurd hcert (hwritten ("auth_cert", creds.authCert) ?_)
      rw [List.take_of_length_le (by change 3 ≤ _; omega)]
      simp [AuthCreds.rows]

/-- After the call there are no credentials, or the old ones, or the new ones: that is what the condition comes to. -/
theorem getAuthCreds_setAuthCert_iff (t : OutboxConfig) (creds : AuthCreds) (fates : List Fate) :
    (getAuthCreds (setAuthCert ⟨t, none⟩ creds fates).1.disk = none ∨
      getAuthCreds (setAuthCert ⟨t, none⟩ creds fates).1.disk = getAuthCreds t ∨
      getAuthCreds (setAuthCert ⟨t, none⟩ creds fates).1.disk = some creds) ↔ LeavesWhole t creds fates := by
  have hnone : getAuthCreds (setAuthCert ⟨t, none⟩ creds fates).1.disk = none → LeavesWhole t creds fates := leavesWhole_of_none
  have hnew := fetched_writes_eq_passed_iff t creds (writtenCount creds.rows fates)
  have hold := fetched_writes_eq_fetched_iff t creds (writtenCount creds.rows fates)
  constructor
  · rintro (h | hsame | hsome)
    · exact hnone h
    · cases hbefore : getAuthCreds t with
      | none => exact hnone (hsame.trans hbefore)
      | some c =>
        rw [hbefore, setAuthCert_conn] at hsame
        have hfetched := (getAuthCreds_eq_some_iff.mp hsame).1.trans (getAuthCreds_eq_some_iff.mp hbefore).1.symm
        exact .inr (.inl (hold.mp hfetched))
    · rw [setAuthCert_conn] at hsome
      exact .inr (.inr (hnew.mp (getAuthCreds_eq_some_iff.mp hsome).1))
  · rw [setAuthCert_conn]
    rintro (hcert | hstored | hstored)
    · by_cases hn : writtenCount creds.rows fates ≤ 2
      · left
        rw [getAuthCreds_eq_none_iff, fetched_writes, if_pos hn]
        exact .inr hcert
      · have hall : creds.rows.drop (writtenCount creds.rows fates) = [] := List.drop_of_length_le (by change 3 ≤ _; omega)
        have hfetched := hnew.mpr (by simp [hall])
        exact (getAuthCreds_of_fetched hfetched).imp_right .inr
    · right
      left
      unfold getAuthCreds
      rw [hold.mpr hstored]
    · exact (getAuthCreds_of_fetched (hnew.mpr hstored)).imp_right .inr

end Writes

/-- A call that nothing cuts short is answered as the handler answers it. -/
theorem updateAuthCert_eq (p : CborMap) (t : OutboxConfig) : updateAuthCert p = (passedCreds p).bind (fun creds =>
    if (setAuthCert ⟨t, none⟩ creds []).2 = none then .ok [("ok", .bool true)] else .error .constraint) := by
  unfold updateAuthCert passedCreds
  cases reqBytes p "key_c_pubkey" with
  | error e => rfl
  | ok pub =>
    cases reqBytes p "key_c_privkey" with
    | error e => rfl
    | ok priv =>
      cases reqBytes p "auth_cert" with
      | error e => rfl
      | ok cert =>
        change (if _ then _ else _) = (if (setAuthCert ⟨t, none⟩ ⟨pub, priv, cert⟩ []).2 = none then _ else _)
        by_cases hpub : pub = []
        · simp [setAuthCert, AuthCreds.rows, Conn.execAll, exec_putConfig, hpub]
        · by_cases hpriv : priv = []
          · simp [setAuthCert, AuthCreds.rows, Conn.execAll, exec_putConfig, hpub, hpriv]
          · by_cases hcert : cert = []
            · simp [setAuthCert, AuthCreds.rows, Conn.execAll, exec_putConfig, hpub, hpriv, hcert]
            · simp [setAuthCert, AuthCreds.rows, Conn.execAll, exec_putConfig, hpub, hpriv, hcert]

/-! ## Runs -/

structure AuthCertCall where
  params : CborMap
  fates : List Fate

/-- The table and everything that was ever passed to `outbox.update_auth_cert`. -/
structure CredsRun where
  config : OutboxConfig
  passed : List AuthCreds

def CredsRun.initial : CredsRun := ⟨.empty, []⟩

/-- A call, and after a stop a new process on the same database. -/
def renew (r : CredsRun) (e : AuthCertCall) : CredsRun :=
  match passedCreds e.params with
  | .error _ => r
  | .ok creds => ⟨(setAuthCert ⟨r.config, none⟩ creds e.fates).1.disk, r.passed ++ [creds]⟩

/-- What the outbox signs with was passed in one call. -/
def PassedTogether (r : CredsRun) : Prop := ∀ creds, getAuthCreds r.config = some creds → creds ∈ r.passed

def CallLeavesWhole (r : CredsRun) (e : AuthCertCall) : Prop :=
  ∀ creds, passedCreds e.params = .ok creds → LeavesWhole r.config creds e.fates

theorem passedTogether_renew {r : CredsRun} {e : AuthCertCall} (h : PassedTogether r) (hwhole : CallLeavesWhole r e) : PassedTogether (renew r e) := by
  unfold renew
  cases hpassed : passedCreds e.params with
  | error err => exact h
  | ok new =>
    intro creds hcreds
    refine List.mem_append.mpr ?_
    dsimp only at hcreds
    obtain hnone | hold | hnew := (getAuthCreds_setAuthCert_iff r.config new e.fates).mpr (hwhole new hpassed)
    · rw [hnone] at hcreds
      cases hcreds
    · exact .inl (h creds (hold.symm.trans hcreds))
    · rw [hnew] at hcreds
      cases hcreds
      exact .inr (List.mem_singleton.mpr rfl)

/-- Where no call leaves a mixture, all that `get_auth_creds` ever returns was passed together. -/
theorem creds_passed_together {es : List AuthCertCall} (h : Along renew CallLeavesWhole CredsRun.initial es) :
    Along renew (fun r e => PassedTogether r ∧ PassedTogether (renew r e)) CredsRun.initial es := by
  refine along_of_invariant PassedTogether ?_ ?_ h
  · intro r e hr hwhole
    have hnext := passedTogether_renew hr hwhole
    exact ⟨⟨hr, hnext⟩, hnext⟩
  · intro creds hcreds
    cases hcreds

def authCertParams (creds : AuthCreds) : CborMap :=
  [(.text (ascii "key_c_pubkey"), .bytes creds.keyCPubkey), (.text (ascii "key_c_privkey"), .bytes creds.keyCPrivkey),
    (.text (ascii "auth_cert"), .bytes creds.authCert)]

theorem passedCreds_authCertParams (creds : AuthCreds) : passedCreds (authCertParams creds) = .ok creds := by
  simp [passedCreds, reqBytes, CborMap.find, lastField, lastWith, authCertParams, bind, Except.bind, pure, Except.pure]

theorem renew_authCertParams (r : CredsRun) (creds : AuthCreds) (fates : List Fate) : renew r ⟨authCertParams creds, fates⟩ =
    ⟨(creds.rows.take (writtenCount creds.rows fates)).foldl Table.upsert r.config, r.passed ++ [creds]⟩ := by
  rw [renew, passedCreds_authCertParams]
  dsimp only
  rw [setAuthCert_conn]

theorem callLeavesWhole_authCertParams {r : CredsRun} {creds : AuthCreds} {fates : List Fate} (h : LeavesWhole r.config creds fates) :
    CallLeavesWhole r ⟨authCertParams creds, fates⟩ := by
  intro creds' hpassed
  cases (passedCreds_authCertParams creds).symm.trans hpassed
  exact h

def firstCreds : AuthCreds := ⟨[1], [2], [3]⟩

def renewedCreds : AuthCreds := ⟨[4], [5], [6]⟩

/-- A call that the process does not survive, before there is a certificate, and one that it does. -/
theorem creds_passed_together_firstCreds : Along renew (fun r e => PassedTogether r ∧ PassedTogether (renew r e)) CredsRun.initial
    [⟨authCertParams firstCreds, [.done, .stopped]⟩, ⟨authCertParams renewedCreds, []⟩] := by
  apply creds_passed_together
  refine ⟨callLeavesWhole_authCertParams (.inl rfl), callLeavesWhole_authCertParams (.inl ?_), trivial⟩
  rw [renew_authCertParams]
  rfl

/-- A renewal that stops after its first statement. -/
theorem not_passedTogether_renewedCreds :
    ¬∀ es, Along renew (fun r e => PassedTogether r ∧ PassedTogether (renew r e)) CredsRun.initial es := by
  intro h
  have hmixed := (h [⟨authCertParams firstCreds, []⟩, ⟨authCertParams renewedCreds, [.done, .stopped]⟩]).2.1.2
  rw [renew_authCertParams, renew_authCertParams] at hmixed
  exact absurd (hmixed ⟨[4], [2], [3]⟩ rfl) (by decide)

end ScatterWeb.Outbox
