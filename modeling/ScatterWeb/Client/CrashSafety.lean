import ScatterWeb.Client.Coherence
import ScatterWeb.Ratchet.Track

/-! # Messages and crashes

`enqueue_dm` is the only caller of `RatchetManager::encrypt` and gives what it returns to the Outbox. The state after it is in
the database in memory; it reaches the file when something else calls `save`. A run is followed together with the messages
that were handed out and the database of the last write that was completed: no two messages have the same number under the
same send chain key, unless a new process starts from a state that is behind the messages that were sent on its chain. -/
namespace ScatterWeb.Client
open Crypto Lib Lib.Cbor Ratchet
set_option autoImplicit false

/-- A message that was handed out: what its header says, and the chain key that its key is derived from. -/
structure Sent where
  convId : Bytes
  epoch : UInt32
  msgNum : UInt32
  sendChainKey : ByteArr 32
  deriving DecidableEq

structure History (R : Type) where
  session : Session R := {}
  written : Option (Database R) := none
  sent : List Sent := []

section Following
variable {R : Type} (P : Primitives wire) (load : Bytes → Option Item) (V : Keystore.Vault (Database R))

/-- The state that the message is sent from, after the KEM step if one is due. -/
def sendState (st : Ratchet.State wire) (coins : Coins wire) : Ratchet.State wire :=
  if st.needKemStep then (kemStepSend P st coins).1 else st

def sentBy (convId : Bytes) (st : Ratchet.State wire) (coins : Coins wire) (plaintext : Bytes) : Sent :=
  let msg := (Ratchet.encrypt P st coins plaintext).2
  ⟨convId, msg.header.epoch, msg.header.msgNum, (sendState P st coins).sendChainKey⟩

def handed (s : Session R) : SessionEvent R → List Sent
  | .op (.encrypt convId coins plaintext) =>
    match (loadState load s convId).2 with
    | .ok st => [sentBy P convId st coins plaintext]
    | .error _ => []
  | _ => []

def writtenBy (s : Session R) : SessionEvent R → Option (Database R)
  | .unlock env p => (Keystore.step V s.keystore (.unlock env p)).written
  | .save env => (Keystore.step V s.keystore (.save env)).written
  | .lock env => (Keystore.step V s.keystore (.lock env)).written
  | .changePassphrase env oldPass newPass => (Keystore.step V s.keystore (.changePassphrase env oldPass newPass)).written
  | _ => none

def nextHistory (h : History R) (e : SessionEvent R) : History R where
  session := nextSession P load V h.session e
  written := (writtenBy V h.session e).or h.written
  sent := h.sent ++ handed P load h.session e

end Following

/-! ## Chains that are not used up -/

section Chains
variable (P : Primitives wire) (sent : List Sent) (convId : Bytes) (st : Ratchet.State wire)

/-- No message was handed out on the send chain of the state, from where the state is on it. -/
def Unused : Prop :=
  ∀ m : ℕ, ∀ x ∈ sent, x.convId = convId → x.epoch = st.sendEpoch → x.msgNum.toNat = st.sendMsgNum.toNat + m →
    x.sendChainKey ≠ chainAt P st.sendChainKey m

def Clear : Prop := st.needKemStep = true ∨ Unused P sent convId st

variable {P sent convId st}

theorem Unused.append {xs : List Sent} (h : Unused P sent convId st) (hxs : ∀ x ∈ xs, x.convId ≠ convId) :
    Unused P (sent ++ xs) convId st := by
  intro m x hx hconv
  rcases List.mem_append.mp hx with hx | hx
  · exact h m x hx hconv
  · exact absurd hconv (hxs x hx)

theorem Clear.append {xs : List Sent} (h : Clear P sent convId st) (hxs : ∀ x ∈ xs, x.convId ≠ convId) :
    Clear P (sent ++ xs) convId st := by
  rcases h with hkem | hunused
  · exact Or.inl hkem
  · exact Or.inr (hunused.append hxs)

theorem Clear.keepsSending {st' : Ratchet.State wire} (h : Clear P sent convId st) (hst : KeepsSending st st') :
    Clear P sent convId st' := by
  rcases hst with hkem | ⟨hneed, hepoch, hnum, hkey⟩
  · exact Or.inl hkem
  · rcases h with hkem | hunused
    · exact Or.inl (hneed.trans hkem)
    · refine Or.inr ?_
      unfold Unused
      rw [hepoch, hnum, hkey]
      exact hunused

/-- What `encrypt` returns, from the state it is sent from. -/
theorem encrypt_sendState (st : Ratchet.State wire) (coins : Coins wire) (plaintext : Bytes) :
    ∃ kemCt, Ratchet.encrypt P st coins plaintext = encryptStep P (sendState P st coins) kemCt coins.nonce plaintext ∧
      (sendState P st coins).needKemStep = false := by
  unfold Ratchet.encrypt sendState
  cases hneed : st.needKemStep with
  | true => exact ⟨some (kemStepSend P st coins).2, rfl, rfl⟩
  | false => exact ⟨none, rfl, hneed⟩

theorem sentBy_eq (st : Ratchet.State wire) (coins : Coins wire) (plaintext : Bytes) : sentBy P convId st coins plaintext =
    ⟨convId, (sendState P st coins).sendEpoch, (sendState P st coins).sendMsgNum, (sendState P st coins).sendChainKey⟩ := by
  obtain ⟨kemCt, henc, _⟩ := encrypt_sendState (P := P) st coins plaintext
  unfold sentBy
  rw [henc]
  rfl

theorem sendState_of_not_need {st : Ratchet.State wire} (h : st.needKemStep = false) (coins : Coins wire) :
    sendState P st coins = st := by
  unfold sendState
  rw [h]
  rfl

/-- The message is not among those handed out, and the state after it is behind none of them. -/
theorem Unused.encrypt {coins : Coins wire} (plaintext : Bytes) (h : Unused P sent convId (sendState P st coins))
    (hlast : (sendState P st coins).sendMsgNum.toNat + 1 < 2 ^ 32) :
    sentBy P convId st coins plaintext ∉ sent ∧
      Clear P (sent ++ [sentBy P convId st coins plaintext]) convId (Ratchet.encrypt P st coins plaintext).1 := by
  obtain ⟨kemCt, henc, hneed⟩ := encrypt_sendState (P := P) st coins plaintext
  rw [sentBy_eq, henc]
  generalize sendState P st coins = st1 at h hlast
  constructor
  · intro hmem
    exact h 0 _ hmem rfl rfl rfl rfl
  · refine Or.inr ?_
    intro m x hx hconv hepoch hnum
    have hsucc : (st1.sendMsgNum + 1).toNat = st1.sendMsgNum.toNat + 1 := toNat_succ hlast
    have hnum' : x.msgNum.toNat = st1.sendMsgNum.toNat + (m + 1) := by
      rw [hnum]
      show (st1.sendMsgNum + 1).toNat + m = _
      omega
    show x.sendChainKey ≠ chainAt P (nextChainKey P st1.sendChainKey) m
    rw [chainAt_next]
    rcases List.mem_append.mp hx with hx | hx
    · exact h (m + 1) x hx hconv hepoch hnum'
    · rw [List.mem_singleton.mp hx] at hnum'
      dsimp only at hnum'
      omega

end Chains

/-! ## Steps -/

section Steps
variable {R : Type} (P : Primitives wire) (load : Bytes → Option Item) (V : Keystore.Vault (Database R))

/-- A new send chain has keys of its own, and the message numbers do not wrap. -/
def DrawsFresh (h : History R) : Op → Prop
  | .initAsSender convId peerPrekeyPub myKeyBPub peerKeyBPub encapCoin keygenCoin =>
    Unused P h.sent convId (Ratchet.initAsSender P peerPrekeyPub myKeyBPub peerKeyBPub encapCoin keygenCoin).state
  | .encrypt convId coins _ => ∀ st, (loadState load h.session convId).2 = .ok st →
    (st.needKemStep = true → Unused P h.sent convId (sendState P st coins)) ∧ (sendState P st coins).sendMsgNum.toNat + 1 < 2 ^ 32
  | _ => True

/-- A process ends only when the file that was written last is not behind the messages that were sent on its chains. -/
def CrashSafe (h : History R) : SessionEvent R → Prop
  | .op o => 0 ∉ o.convId ∧ DrawsFresh P load h o
  | .restart => ∀ db, h.written = some db → ∀ convId st, 0 ∉ convId → deserialize load (db.ratchetState convId) = .ok st →
    Clear P h.sent convId st
  | e => FilesHold V h.session e

/-- The keystore is in order, and every state that can be loaded is ahead of the messages. -/
structure Guarded (h : History R) (t : Keystore.Tracked (Database R)) : Prop where
  state : t.state = h.session.keystore
  written : t.written = h.written
  intact : Keystore.Intact V t
  nodup : h.sent.Nodup
  cached : ∀ convId st, h.session.cache.lookup convId = some st → Clear P h.sent convId st
  uncached : ∀ convId st, 0 ∉ convId → h.session.cache.lookup convId = none →
    (t.cell.current V.sqlite.create).ratchetState convId ≠ [] →
    deserialize load ((t.cell.current V.sqlite.create).ratchetState convId) = .ok st → Clear P h.sent convId st

variable {P load V} {h : History R} {t : Keystore.Tracked (Database R)}

theorem loadState_ok_cases {s : Session R} {convId : Bytes} {st : Ratchet.State wire} (h : (loadState load s convId).2 = .ok st) :
    s.cache.lookup convId = some st ∨ (s.cache.lookup convId = none ∧ ∃ db, s.keystore.db = some db ∧
      db.ratchetState convId ≠ [] ∧ deserialize load (db.ratchetState convId) = .ok st) := by
  unfold loadState at h
  cases hcache : s.cache.lookup convId with
  | some st' =>
    rw [hcache] at h
    cases h
    exact Or.inl rfl
  | none =>
    rw [hcache] at h
    unfold getRatchetState at h
    cases hdb : s.keystore.db with
    | none =>
      rw [hdb] at h
      cases h
    | some db =>
      rw [hdb] at h
      dsimp only at h
      cases hrow : db.ratchetState convId with
      | nil =>
        rw [hrow] at h
        cases h
      | cons b data =>
        rw [hrow] at h
        dsimp only at h
        refine Or.inr ⟨rfl, db, rfl, ?_, ?_⟩
        · rw [hrow]
          exact List.cons_ne_nil b data
        · rw [hrow]
          cases hdec : deserialize load (b :: data) with
          | error e =>
            rw [hdec] at h
            cases h
          | ok st' =>
            rw [hdec] at h
            cases h
            rfl

theorem Guarded.current_eq (hg : Guarded P load V h t) {db : Database R} (hdb : h.session.keystore.db = some db) :
    t.cell.current V.sqlite.create = db := by
  have hmem : t.cell.mem = some db := (congrArg Keystore.State.db hg.state).trans hdb
  unfold Keystore.Cell.current
  rw [hmem, Option.getD_some]

theorem Guarded.clear_of_loadState (hg : Guarded P load V h t) {convId : Bytes} (hid : 0 ∉ convId) {st : Ratchet.State wire}
    (hst : (loadState load h.session convId).2 = .ok st) : Clear P h.sent convId st := by
  rcases loadState_ok_cases hst with hcached | ⟨hnone, db, hdb, hne, hdec⟩
  · exact hg.cached convId st hcached
  · rw [← hg.current_eq hdb] at hne hdec
    exact hg.uncached convId st hid hnone hne hdec

theorem Guarded.call (hV : V.Sound) (hg : Guarded P load V h t) {e : Keystore.Event (Database R)} (he : e.IsCall)
    (huncut : Keystore.Uncut e) (hfree : ¬Keystore.LosesTrack V h.session.keystore e) :
    Guarded P load V ⟨{ h.session with keystore := Keystore.next V h.session.keystore e },
      (Keystore.step V h.session.keystore e).written.or h.written, h.sent ++ []⟩ (Keystore.track V t e) := by
  have hkeeps := Keystore.keeps_step hV hg.intact e huncut (hg.state.symm ▸ hfree)
  obtain ⟨hcurrent, _⟩ := hkeeps.cell.current_eq he
  rw [List.append_nil]
  refine ⟨?_, ?_, hkeeps.intact, hg.nodup, hg.cached, ?_⟩
  · rw [← hg.state]
    rfl
  · rw [← hg.state, ← hg.written]
    rfl
  · rw [hcurrent]
    exact hg.uncached

/-- Writing the state of one conversation does not change the rows of the others. -/
theorem ratchetState_current_edit (t : Keystore.Tracked (Database R)) {convId convId' : Bytes} (hid : 0 ∉ convId) (hid' : 0 ∉ convId')
    (hne : convId' ≠ convId) (data : Bytes) :
    ((Keystore.track V t (.edit (Database.setRatchetState convId data))).cell.current V.sqlite.create).ratchetState convId' =
      (t.cell.current V.sqlite.create).ratchetState convId' := by
  have hcell : (Keystore.track V t (.edit (Database.setRatchetState convId data))).cell =
    ⟨t.cell.mem.map (Database.setRatchetState convId data), t.cell.disk⟩ := rfl
  rw [hcell]
  unfold Keystore.Cell.current
  cases t.cell.mem with
  | none => rfl
  | some db => exact ratchetState_set_of_ne db hid hid' hne data

/-- A state that goes into the cache must be ahead of the messages; the other conversations stay as they were. -/
theorem Guarded.put (hg : Guarded P load V h t) {convId : Bytes} (hid : 0 ∉ convId) {st : Ratchet.State wire} {xs : List Sent}
    (hconv : ∀ x ∈ xs, x.convId = convId) (hnodup : (h.sent ++ xs).Nodup) (hclear : Clear P (h.sent ++ xs) convId st)
    {t' : Keystore.Tracked (Database R)} {ks : Keystore.State (Database R)} (hstate : t'.state = ks) (hwritten : t'.written = h.written)
    (hintact : Keystore.Intact V t')
    (hrows : ∀ convId', 0 ∉ convId' → convId' ≠ convId → (t'.cell.current V.sqlite.create).ratchetState convId' =
      (t.cell.current V.sqlite.create).ratchetState convId') :
    Guarded P load V ⟨⟨ks, h.session.cache.insert convId st⟩, h.written, h.sent ++ xs⟩ t' := by
  have hother : ∀ convId', convId' ≠ convId → ∀ x ∈ xs, x.convId ≠ convId' := by
    intro convId' hne x hx heq
    exact hne (heq.symm.trans (hconv x hx))
  refine ⟨hstate, hwritten, hintact, hnodup, ?_, ?_⟩
  · intro convId' st' hst'
    by_cases hne : convId' = convId
    · subst hne
      rw [AList.lookup_insert] at hst'
      cases hst'
      exact hclear
    · rw [AList.lookup_insert_ne hne] at hst'
      exact (hg.cached convId' st' hst').append (hother convId' hne)
  · intro convId' st' hid' hnone hrow hdec
    obtain ⟨hne, hnone⟩ := AList.lookup_insert_eq_none.mp hnone
    rw [hrows convId' hid' hne] at hrow hdec
    exact (hg.uncached convId' st' hid' hnone hrow hdec).append (hother convId' hne)

theorem Guarded.apply (hg : Guarded P load V h t) {convId : Bytes} (hid : 0 ∉ convId) (eff : Effect) {xs : List Sent}
    (hconv : ∀ x ∈ xs, x.convId = convId) (hnodup : (h.sent ++ xs).Nodup) (hnothing : eff = .nothing → xs = [])
    (hclear : ∀ st, eff = .written st ∨ eff = .cached st → Clear P (h.sent ++ xs) convId st) :
    ∃ t', Guarded P load V ⟨Effect.apply h.session convId eff, h.written, h.sent ++ xs⟩ t' := by
  cases eff with
  | nothing =>
    rw [hnothing rfl, List.append_nil]
    exact ⟨t, hg⟩
  | cached st =>
    exact ⟨t, hg.put hid hconv hnodup (hclear st (Or.inr rfl)) hg.state hg.written hg.intact (fun _ _ _ => rfl)⟩
  | written st =>
    refine ⟨Keystore.track V t (.edit (Database.setRatchetState convId (serialize st))),
      hg.put hid hconv hnodup (hclear st (Or.inl rfl)) ?_ hg.written (Keystore.keeps_edit hg.intact _).intact ?_⟩
    · show Keystore.next V t.state (.edit (Database.setRatchetState convId (serialize st))) =
        setRatchetState h.session.keystore convId (serialize st)
      rw [hg.state]
      rfl
    · intro convId' hid' hne
      exact ratchetState_current_edit t hid hid' hne (serialize st)

theorem nextHistory_op (h : History R) (o : Op) : nextHistory P load V h (.op o) =
    ⟨Effect.apply h.session o.convId (act P (loadState load h.session o.convId).2 o).1, h.written,
      h.sent ++ handed P load h.session (.op o)⟩ := by
  unfold nextHistory nextSession
  dsimp only
  rw [perform_eq]
  rfl

theorem handed_encrypt (s : Session R) (convId : Bytes) (coins : Coins wire) (plaintext : Bytes) :
    handed P load s (.op (.encrypt convId coins plaintext)) =
      match (loadState load s convId).2 with
      | .ok st => [sentBy P convId st coins plaintext]
      | .error _ => [] := rfl

/-- A call that hands nothing out. -/
theorem Guarded.quiet (hg : Guarded P load V h t) {o : Op} (hid : 0 ∉ o.convId) (hquiet : handed P load h.session (.op o) = [])
    (hclear : ∀ st, (act P (loadState load h.session o.convId).2 o).1 = .written st ∨
      (act P (loadState load h.session o.convId).2 o).1 = .cached st → Clear P h.sent o.convId st) :
    ∃ t', Guarded P load V (nextHistory P load V h (.op o)) t' := by
  rw [nextHistory_op, hquiet]
  refine hg.apply hid _ ?_ ?_ (fun _ => rfl) ?_
  · intro x hx
    exact absurd hx List.not_mem_nil
  · rw [List.append_nil]
    exact hg.nodup
  · rw [List.append_nil]
    exact hclear

theorem Guarded.encrypt (hg : Guarded P load V h t) {convId : Bytes} {coins : Coins wire} {plaintext : Bytes} (hid : 0 ∉ convId)
    (hfresh : DrawsFresh P load h (.encrypt convId coins plaintext)) :
    ∃ t', Guarded P load V (nextHistory P load V h (.op (.encrypt convId coins plaintext))) t' := by
  cases hst : (loadState load h.session convId).2 with
  | error e =>
    refine hg.quiet hid ?_ ?_
    · rw [handed_encrypt, hst]
    · rw [Op.convId, hst]
      rintro st (h | h)
      · cases h
      · cases h
  | ok st =>
    obtain ⟨hnew, hlast⟩ := hfresh st hst
    have hunused : Unused P h.sent convId (sendState P st coins) := by
      cases hneed : st.needKemStep with
      | true => exact hnew hneed
      | false =>
        rw [sendState_of_not_need hneed]
        refine (hg.clear_of_loadState hid hst).resolve_left ?_
        rw [hneed]
        exact Bool.false_ne_true
    obtain ⟨hnotMem, hclear⟩ := hunused.encrypt plaintext hlast
    have hhanded : handed P load h.session (.op (.encrypt convId coins plaintext)) = [sentBy P convId st coins plaintext] := by
      rw [handed_encrypt, hst]
    rw [nextHistory_op, hhanded, Op.convId, hst]
    refine hg.apply hid _ ?_ ?_ ?_ ?_
    · intro x hx
      rw [List.mem_singleton.mp hx]
      rfl
    · exact List.nodup_append_comm.mp (List.nodup_cons.mpr ⟨hnotMem, hg.nodup⟩)
    · intro h
      cases h
    · rintro st' (h | h)
      · cases h
        exact hclear
      · cases h

theorem Guarded.decrypt (hg : Guarded P load V h t) {convId : Bytes} {msg : Message wire} (hid : 0 ∉ convId) :
    ∃ t', Guarded P load V (nextHistory P load V h (.op (.decrypt convId msg))) t' := by
  refine hg.quiet hid rfl ?_
  rw [Op.convId]
  cases hst : (loadState load h.session convId).2 with
  | error e =>
    rintro st (h | h)
    · cases h
    · cases h
  | ok st =>
    have hclear := hg.clear_of_loadState hid hst
    have hkeeps := keepsSending_decrypt (P := P) msg st
    unfold act
    dsimp only
    cases hrun : (Ratchet.decrypt P msg).run st with
    | ok plain st' =>
      rw [hrun] at hkeeps
      rintro st'' (h | h)
      · cases h
        exact hclear.keepsSending hkeeps
      · cases h
    | error e st' =>
      rw [hrun] at hkeeps
      rintro st'' (h | h)
      · cases h
      · cases h
        exact hclear.keepsSending hkeeps

/-- One case for each call. -/
theorem Guarded.op (hg : Guarded P load V h t) (o : Op) (hid : 0 ∉ o.convId) (hfresh : DrawsFresh P load h o) :
    ∃ t', Guarded P load V (nextHistory P load V h (.op o)) t' := by
  cases o with
  | initAsSender convId peerPrekeyPub myKeyBPub peerKeyBPub encapCoin keygenCoin =>
    refine hg.quiet hid rfl ?_
    rintro st (hst | hst)
    · cases hst
      exact Or.inr hfresh
    · cases hst
  | initAsReceiver convId myPrekeyPriv prekeyCt senderKeyBPub myKeyBPub senderRatchetPub keygenCoin =>
    refine hg.quiet hid rfl ?_
    rintro st (hst | hst)
    · cases hst
      exact Or.inl rfl
    · cases hst
  | encrypt convId coins plaintext => exact hg.encrypt hid hfresh
  | decrypt convId msg => exact hg.decrypt hid

theorem Guarded.other (hg : Guarded P load V h t) (f : R → R) :
    Guarded P load V (nextHistory P load V h (.other f)) (Keystore.track V t (.edit (fun db => { db with rest := f db.rest }))) := by
  have hcell : (Keystore.track V t (.edit (fun db => { db with rest := f db.rest }))).cell =
    ⟨t.cell.mem.map (fun db => { db with rest := f db.rest }), t.cell.disk⟩ := rfl
  have hrows : ∀ convId, ((Keystore.track V t (.edit (fun db => { db with rest := f db.rest }))).cell.current
      V.sqlite.create).ratchetState convId = (t.cell.current V.sqlite.create).ratchetState convId := by
    intro convId
    rw [hcell]
    unfold Keystore.Cell.current
    cases t.cell.mem with
    | none => rfl
    | some db => rfl
  have hsent : (nextHistory P load V h (.other f)).sent = h.sent := List.append_nil _
  refine ⟨?_, hg.written, (Keystore.keeps_edit hg.intact _).intact, ?_, ?_, ?_⟩
  · show Keystore.next V t.state (.edit _) = _
    rw [hg.state]
    rfl
  · rw [hsent]
    exact hg.nodup
  · rw [hsent]
    exact hg.cached
  · intro convId st hid hnone
    rw [hsent, hrows]
    exact hg.uncached convId st hid hnone

theorem Guarded.restart (hcreate : V.sqlite.create.keyERatchet = ∅) (hg : Guarded P load V h t)
    (hsafe : CrashSafe P load V h .restart) : Guarded P load V (nextHistory P load V h .restart) (Keystore.track V t .restart) := by
  have hcell : (Keystore.track V t .restart).cell = ⟨none, t.written⟩ := rfl
  have hsent : (nextHistory P load V h .restart).sent = h.sent := List.append_nil _
  refine ⟨?_, hg.written, (Keystore.keeps_restart hg.intact).intact, ?_, ?_, ?_⟩
  · show Keystore.next V t.state .restart = _
    rw [hg.state]
    rfl
  · rw [hsent]
    exact hg.nodup
  · intro convId st hst
    cases hst
  · intro convId st hid _ hne hdec
    rw [hsent]
    rw [hcell] at hne hdec
    cases hwritten : t.written with
    | none =>
      rw [hwritten] at hne
      refine absurd ?_ hne
      show V.sqlite.create.ratchetState convId = []
      unfold Database.ratchetState
      rw [hcreate]
      rfl
    | some db =>
      rw [hwritten] at hdec
      exact hsafe db (hg.written.symm.trans hwritten) convId st hid hdec

theorem Guarded.step (hV : V.Sound) (hcreate : V.sqlite.create.keyERatchet = ∅) (hg : Guarded P load V h t) (e : SessionEvent R)
    (he : CrashSafe P load V h e) : ∃ t', Guarded P load V (nextHistory P load V h e) t' := by
  cases e with
  | op o => exact hg.op o he.1 he.2
  | unlock env p => exact ⟨_, hg.call hV trivial he.1 he.2⟩
  | save env => exact ⟨_, hg.call hV trivial he id⟩
  | lock env => exact ⟨_, hg.call hV trivial he id⟩
  | changePassphrase env oldPass newPass => exact ⟨_, hg.call hV trivial he.1 he.2⟩
  | other f => exact ⟨_, hg.other f⟩
  | restart => exact ⟨_, hg.restart hcreate he⟩

end Steps

/-! ## A crash before the file is written -/

end ScatterWeb.Client
