import ScatterWeb.Client.Envelope
import ScatterWeb.Client.RatchetManager
import ScatterWeb.Keystore.Recovery

/-! # The cache and the table

While the keystore is unlocked, the table has the bytes of every cached state and a process that starts from the table goes on
as one that has the cache, as long as each message that is decrypted is the next one or is turned away before anything was
changed, and nothing reaches the cache while the keystore is locked. -/
namespace ScatterWeb.Client
open Crypto Lib Lib.Cbor Ratchet
set_option autoImplicit false

/-! ## What a call does -/

/-- Where the state of the conversation goes. -/
inductive Effect
  | nothing
  | written (st : Ratchet.State wire)
  | cached (st : Ratchet.State wire)

section Calls
variable {R : Type} (P : Primitives wire) (load : Bytes → Option Item) (s : Session R)

def Effect.apply (convId : Bytes) : Effect → Session R
  | .nothing => s
  | .written st => (s.put convId st).persist convId st
  | .cached st => s.put convId st

/-- A call as a function of the state that is loaded. -/
def act (loaded : Except ManagerError (Ratchet.State wire)) : Op → Effect × Except ManagerError Reply
  | .initAsSender _ peerPrekeyPub myKeyBPub peerKeyBPub encapCoin keygenCoin =>
    let result := Ratchet.initAsSender P peerPrekeyPub myKeyBPub peerKeyBPub encapCoin keygenCoin
    (.written result.state, .ok (.prekeyCt result.prekeyCt))
  | .initAsReceiver _ myPrekeyPriv prekeyCt senderKeyBPub myKeyBPub senderRatchetPub keygenCoin =>
    (.written (Ratchet.initAsReceiver P myPrekeyPriv prekeyCt senderKeyBPub myKeyBPub senderRatchetPub keygenCoin), .ok .done)
  | .encrypt _ coins plaintext =>
    match loaded with
    | .error e => (.nothing, .error e)
    | .ok st => (.written (Ratchet.encrypt P st coins plaintext).1, .ok (.message (Ratchet.encrypt P st coins plaintext).2))
  | .decrypt _ msg =>
    match loaded with
    | .error e => (.nothing, .error e)
    | .ok st =>
      match (Ratchet.decrypt P msg).run st with
      | .ok plain st' => (.written st', .ok (.plaintext plain))
      | .error e st' => (.cached st', .error (.ratchet e))

variable {s}

theorem put_put (convId : Bytes) (st st' : Ratchet.State wire) : (s.put convId st).put convId st' = s.put convId st' := by
  unfold Session.put
  rw [AList.insert_insert]

/-- After a load the cache has the state; without one nothing has changed. -/
theorem loadState_cases (convId : Bytes) :
    (∃ e, loadState load s convId = (s, .error e)) ∨
      ∃ st s', loadState load s convId = (s', .ok st) ∧ (s' = s ∨ s' = s.put convId st) := by
  unfold loadState
  split
  · rename_i st _
    exact Or.inr ⟨st, s, rfl, Or.inl rfl⟩
  · split
    · exact Or.inl ⟨_, rfl⟩
    · split
      · exact Or.inl ⟨_, rfl⟩
      · rename_i st _
        exact Or.inr ⟨st, _, rfl, Or.inr rfl⟩

theorem put_of_loaded {convId : Bytes} {s' : Session R} {st : Ratchet.State wire} (h : s' = s ∨ s' = s.put convId st)
    (st' : Ratchet.State wire) : s'.put convId st' = s.put convId st' := by
  rcases h with rfl | rfl
  · rfl
  · exact put_put convId st st'

theorem perform_eq (s : Session R) (o : Op) : perform P load s o =
    (Effect.apply s o.convId (act P (loadState load s o.convId).2 o).1, (act P (loadState load s o.convId).2 o).2) := by
  cases o with
  | initAsSender => rfl
  | initAsReceiver => rfl
  | encrypt convId coins plaintext =>
    show encrypt P load s convId coins plaintext = _
    unfold encrypt
    rcases loadState_cases (s := s) load convId with ⟨e, hload⟩ | ⟨st, s', hload, hs'⟩
    · simp only [Op.convId, act, hload, Effect.apply]
    · simp only [Op.convId, act, hload, Effect.apply, put_of_loaded hs']
  | decrypt convId msg =>
    show decrypt P load s convId msg = _
    unfold decrypt
    rcases loadState_cases (s := s) load convId with ⟨e, hload⟩ | ⟨st, s', hload, hs'⟩
    · simp only [Op.convId, act, hload, Effect.apply]
    · cases hrun : (Ratchet.decrypt P msg).run st with
      | ok plain st' => simp only [Op.convId, act, hload, hrun, Effect.apply, put_of_loaded hs']
      | error e st' => simp only [Op.convId, act, hload, hrun, Effect.apply, put_of_loaded hs']

end Calls

/-! ## What the cache and the table agree on -/

section Agreement
variable {R : Type}

/-- Every row is the bytes of a state, and those of a cached conversation are the bytes of the cached state. -/
structure Mirrors (cache : AList (fun _ : Bytes => Ratchet.State wire)) (db : Database R) : Prop where
  rows : ∀ id data, db.keyERatchet.lookup id = some data → ∃ st, data = serialize st
  cached : ∀ convId st, cache.lookup convId = some st →
    0 ∉ convId ∧ st.skippedKeys = ∅ ∧ db.keyERatchet.lookup convId = some (serialize st)

theorem serialize_ne_nil (st : Ratchet.State wire) : serialize st ≠ [] := by
  unfold serialize cborSer DefMap.item
  rw [encode, stateMap_pairs]
  exact List.cons_ne_nil _ _

theorem mirrors_empty {db : Database R} (h : ∀ id data, db.keyERatchet.lookup id = some data → ∃ st, data = serialize st) :
    Mirrors ∅ db := by
  refine ⟨h, ?_⟩
  intro convId st hst
  rw [AList.lookup_empty] at hst
  cases hst

/-- A state without skipped keys that goes to both keeps them in agreement. -/
theorem Mirrors.written {cache : AList (fun _ : Bytes => Ratchet.State wire)} {db : Database R} (h : Mirrors cache db)
    {convId : Bytes} (hid : 0 ∉ convId) {st : Ratchet.State wire} (hst : st.skippedKeys = ∅) :
    Mirrors (cache.insert convId st) (db.setRatchetState convId (serialize st)) := by
  have hrow : (db.setRatchetState convId (serialize st)).keyERatchet = db.keyERatchet.insert convId (serialize st) := by
    unfold Database.setRatchetState
    rw [cStr_of_nulFree hid]
  constructor
  · intro id data hdata
    rw [hrow] at hdata
    by_cases heq : id = convId
    · subst heq
      rw [AList.lookup_insert] at hdata
      exact ⟨st, (Option.some.inj hdata).symm⟩
    · rw [AList.lookup_insert_ne heq] at hdata
      exact h.rows id data hdata
  · intro convId' st' hst'
    rw [hrow]
    by_cases heq : convId' = convId
    · subst heq
      rw [AList.lookup_insert] at hst' ⊢
      cases hst'
      exact ⟨hid, hst, rfl⟩
    · rw [AList.lookup_insert_ne heq] at hst' ⊢
      exact h.cached convId' st' hst'

/-- Loading from the table puts a state into the cache that has the same bytes. -/
theorem Mirrors.loaded {cache : AList (fun _ : Bytes => Ratchet.State wire)} {db : Database R} (h : Mirrors cache db)
    {convId : Bytes} (hid : 0 ∉ convId) {st : Ratchet.State wire} (hst : st.skippedKeys = ∅)
    (hrow : db.keyERatchet.lookup convId = some (serialize st)) : Mirrors (cache.insert convId st) db := by
  refine ⟨h.rows, ?_⟩
  intro convId' st' hst'
  by_cases heq : convId' = convId
  · subst heq
    rw [AList.lookup_insert] at hst'
    cases hst'
    exact ⟨hid, hst, hrow⟩
  · rw [AList.lookup_insert_ne heq] at hst'
    exact h.cached convId' st' hst'

variable {load : Bytes → Option Item} {s : Session R} {db : Database R}

theorem serialize_withoutSkipped (st : Ratchet.State wire) : serialize { st with skippedKeys := ∅ } = serialize st := by
  unfold serialize cborSer DefMap.item
  rw [stateMap_pairs, stateMap_pairs]

theorem withoutSkipped_eq {st : Ratchet.State wire} (h : st.skippedKeys = ∅) : { st with skippedKeys := ∅ } = st := by
  rw [← h]

/-- States with the same bytes differ in the skipped keys only. -/
theorem withoutSkipped_of_serialize (hload : Loads load) {st st' : Ratchet.State wire} (h : serialize st' = serialize st) :
    ({ st' with skippedKeys := ∅ } : Ratchet.State wire) = { st with skippedKeys := ∅ } := by
  have hst' := deserialize_serialize hload st'
  rw [h, deserialize_serialize hload st] at hst'
  exact (Except.ok.inj hst').symm

theorem getRatchetState_eq (hdb : s.keystore.db = some db) {convId : Bytes} (hid : 0 ∉ convId) :
    getRatchetState s.keystore convId = (db.keyERatchet.lookup convId).getD [] := by
  unfold getRatchetState Database.ratchetState
  rw [hdb, cStr_of_nulFree hid]

theorem loadState_of_cached (load : Bytes → Option Item) {convId : Bytes} {st : Ratchet.State wire} (h : s.cache.lookup convId = some st) :
    loadState load s convId = (s, .ok st) := by
  unfold loadState
  rw [h]

theorem loadState_of_none (load : Bytes → Option Item) {convId : Bytes} (h : s.cache.lookup convId = none) (hrow : getRatchetState s.keystore convId = []) :
    loadState load s convId = (s, .error (.noState convId)) := by
  unfold loadState
  rw [h, hrow]

theorem loadState_of_row (hload : Loads load) {convId : Bytes} (h : s.cache.lookup convId = none) {st : Ratchet.State wire}
    (hrow : getRatchetState s.keystore convId = serialize st) :
    loadState load s convId = (s.put convId { st with skippedKeys := ∅ }, .ok { st with skippedKeys := ∅ }) := by
  have hback := deserialize_serialize hload st
  unfold loadState
  rw [h, hrow]
  -- the bytes themselves do not matter, only that there are some
  generalize hdata : serialize st = data at hback
  cases data with
  | nil => exact absurd hdata (serialize_ne_nil st)
  | cons b data =>
    dsimp only
    rw [hback]

/-- What is loaded has the bytes of the table and no skipped keys. -/
theorem Mirrors.of_loadState (hload : Loads load) (h : Mirrors s.cache db) (hdb : s.keystore.db = some db) {convId : Bytes}
    (hid : 0 ∉ convId) {st : Ratchet.State wire} (hst : (loadState load s convId).2 = .ok st) :
    st.skippedKeys = ∅ ∧ db.keyERatchet.lookup convId = some (serialize st) := by
  cases hcache : s.cache.lookup convId with
  | some st' =>
    rw [loadState_of_cached load hcache] at hst
    cases hst
    exact (h.cached convId st hcache).2
  | none =>
    have hget := getRatchetState_eq hdb hid
    cases hrow : db.keyERatchet.lookup convId with
    | none =>
      rw [hrow, Option.getD_none] at hget
      rw [loadState_of_none load hcache hget] at hst
      cases hst
    | some data =>
      obtain ⟨st', hdata⟩ := h.rows convId data hrow
      rw [hrow, Option.getD_some, hdata] at hget
      rw [loadState_of_row hload hcache hget] at hst
      cases hst
      rw [serialize_withoutSkipped, hdata]
      exact ⟨rfl, rfl⟩

/-- With and without the cache the same state is loaded. -/
theorem Mirrors.loadState_reload (hload : Loads load) (h : Mirrors s.cache db) (hdb : s.keystore.db = some db) {convId : Bytes}
    (hid : 0 ∉ convId) : (loadState load { s with cache := ∅ } convId).2 = (loadState load s convId).2 := by
  have hnone : ({ s with cache := ∅ } : Session R).cache.lookup convId = none := AList.lookup_empty convId
  have hget := getRatchetState_eq hdb hid
  cases hrow : db.keyERatchet.lookup convId with
  | none =>
    rw [hrow, Option.getD_none] at hget
    cases hcache : s.cache.lookup convId with
    | some st =>
      have hst := (h.cached convId st hcache).2.2
      rw [hrow] at hst
      cases hst
    | none => rw [loadState_of_none load hcache hget, loadState_of_none load hnone hget]
  | some data =>
    obtain ⟨st', hdata⟩ := h.rows convId data hrow
    rw [hrow, Option.getD_some, hdata] at hget
    rw [loadState_of_row hload hnone hget]
    cases hcache : s.cache.lookup convId with
    | none => rw [loadState_of_row hload hcache hget]
    | some st =>
      obtain ⟨_, hskipped, hst⟩ := h.cached convId st hcache
      have hbytes : serialize st' = serialize st := by
        rw [← hdata]
        exact Option.some.inj (hrow.symm.trans hst)
      rw [loadState_of_cached load hcache, withoutSkipped_of_serialize hload hbytes]
      exact congrArg Except.ok (withoutSkipped_eq hskipped)

end Agreement

/-! ## Continuing -/

section Continuing
variable {R : Type} (P : Primitives wire) (load : Bytes → Option Item)

def replies : Session R → List Op → List (Except ManagerError Reply)
  | _, [] => []
  | s, o :: os => (perform P load s o).2 :: replies (perform P load s o).1 os

/-- While the keystore is unlocked, the table has the bytes of the cached states, and calls give the same without the cache. -/
def Session.Coherent (s : Session R) : Prop :=
  s.keystore.isUnlocked = true →
    (∀ convId st, s.cache.lookup convId = some st → getRatchetState s.keystore convId = serialize st) ∧
      ∀ os : List Op, (∀ o ∈ os, 0 ∉ o.convId) → replies P load { s with cache := ∅ } os = replies P load s os

variable {P load} {s s' : Session R}

theorem loadState_snd_congr {convId : Bytes} (hcache : s'.cache.lookup convId = s.cache.lookup convId)
    (hget : getRatchetState s'.keystore convId = getRatchetState s.keystore convId) :
    (loadState load s' convId).2 = (loadState load s convId).2 := by
  unfold loadState
  rw [hcache, hget]
  cases s.cache.lookup convId with
  | some st => rfl
  | none =>
    cases getRatchetState s.keystore convId with
    | nil => rfl
    | cons b data =>
      dsimp only
      cases deserialize load (b :: data) with
      | error e => rfl
      | ok st => rfl

theorem ratchetState_set_of_ne (db : Database R) {convId convId' : Bytes} (hid : 0 ∉ convId) (hid' : 0 ∉ convId')
    (hne : convId' ≠ convId) (data : Bytes) : (db.setRatchetState convId data).ratchetState convId' = db.ratchetState convId' := by
  unfold Database.ratchetState Database.setRatchetState
  dsimp only
  rw [cStr_of_nulFree hid, cStr_of_nulFree hid', AList.lookup_insert_ne hne]

theorem getRatchetState_set_of_ne (ks : Keystore.State (Database R)) {convId convId' : Bytes} (hid : 0 ∉ convId) (hid' : 0 ∉ convId')
    (hne : convId' ≠ convId) (data : Bytes) : getRatchetState (setRatchetState ks convId data) convId' = getRatchetState ks convId' := by
  unfold setRatchetState getRatchetState
  cases ks.db with
  | none => rfl
  | some db => exact ratchetState_set_of_ne db hid hid' hne data

/-- The other conversations do not see a call. -/
theorem loadState_apply_of_ne {convId convId' : Bytes} (hid : 0 ∉ convId) (hid' : 0 ∉ convId') (hne : convId' ≠ convId)
    (eff : Effect) : (loadState load (Effect.apply s convId eff) convId').2 = (loadState load s convId').2 := by
  cases eff with
  | nothing => rfl
  | cached st => exact loadState_snd_congr (AList.lookup_insert_ne hne) rfl
  | written st =>
    exact loadState_snd_congr (AList.lookup_insert_ne hne) (getRatchetState_set_of_ne s.keystore hid hid' hne (serialize st))

theorem loadState_apply_self {convId : Bytes} {st : Ratchet.State wire} {eff : Effect} (h : eff = .written st ∨ eff = .cached st) :
    (loadState load (Effect.apply s convId eff) convId).2 = .ok st := by
  have hcache : (Effect.apply s convId eff).cache.lookup convId = some st := by
    rcases h with rfl | rfl
    · exact AList.lookup_insert s.cache
    · exact AList.lookup_insert s.cache
  rw [loadState_of_cached load hcache]

/-- Two sessions that load the same states. -/
def LoadsAlike (load : Bytes → Option Item) (s s' : Session R) : Prop :=
  ∀ convId, 0 ∉ convId → (loadState load s' convId).2 = (loadState load s convId).2

theorem LoadsAlike.apply (h : LoadsAlike load s s') {convId : Bytes} (hid : 0 ∉ convId) (eff : Effect) :
    LoadsAlike load (Effect.apply s convId eff) (Effect.apply s' convId eff) := by
  intro convId' hid'
  by_cases heq : convId' = convId
  · subst heq
    cases eff with
    | nothing => exact h convId' hid
    | written st => rw [loadState_apply_self (Or.inl rfl), loadState_apply_self (Or.inl rfl)]
    | cached st => rw [loadState_apply_self (Or.inr rfl), loadState_apply_self (Or.inr rfl)]
  · rw [loadState_apply_of_ne hid hid' heq, loadState_apply_of_ne hid hid' heq]
    exact h convId' hid'

theorem LoadsAlike.replies_eq (h : LoadsAlike load s s') {os : List Op} (hids : ∀ o ∈ os, 0 ∉ o.convId) :
    replies P load s' os = replies P load s os := by
  induction os generalizing s s' with
  | nil => rfl
  | cons o os ih =>
    have hid : 0 ∉ o.convId := hids o List.mem_cons_self
    have hrest := ih (h.apply hid (act P (loadState load s o.convId).2 o).1) (fun o' ho' => hids o' (List.mem_cons_of_mem o ho'))
    unfold replies
    rw [perform_eq P load s', perform_eq P load s, h o.convId hid]
    exact congrArg _ hrest

theorem Mirrors.coherent (hload : Loads load) {db : Database R} (h : Mirrors s.cache db) (hdb : s.keystore.db = some db) :
    s.Coherent P load := by
  intro _
  constructor
  · intro convId st hst
    obtain ⟨hid, _, hrow⟩ := h.cached convId st hst
    rw [getRatchetState_eq hdb hid, hrow, Option.getD_some]
  · intro os hids
    exact LoadsAlike.replies_eq (fun convId hid => h.loadState_reload hload hdb hid) hids

end Continuing

/-! ## Runs -/

section Runs
variable {R : Type} (P : Primitives wire) (load : Bytes → Option Item) (V : Keystore.Vault (Database R))

/-- While the keystore is unlocked: a message is turned away at once, or it is the next one. -/
def KeepsInStep (s : Session R) : Op → Prop
  | .decrypt convId msg => ∀ st, (loadState load s convId).2 = .ok st → Rejected st msg ∨ NextInLine P st msg
  | _ => True

/-- While the keystore is locked: nothing reaches the cache. -/
def LeavesCache (s : Session R) : Op → Prop
  | .encrypt convId _ _ => s.cache.lookup convId = none
  | .decrypt convId msg => ∀ st, s.cache.lookup convId = some st → Rejected st msg
  | _ => False

/-- Files that cannot be opened are not those the passphrase depends on, and writes do not stop half way. -/
def FilesHold (s : Session R) : SessionEvent R → Prop
  | .unlock env p => Keystore.Uncut (.unlock env p : Keystore.Event (Database R)) ∧ ¬Keystore.LosesTrack V s.keystore (.unlock env p)
  | .save env => Keystore.Uncut (.save env : Keystore.Event (Database R))
  | .lock env => Keystore.Uncut (.lock env : Keystore.Event (Database R))
  | .changePassphrase env oldPass newPass => Keystore.Uncut (.changePassphrase env oldPass newPass : Keystore.Event (Database R)) ∧
    ¬Keystore.LosesTrack V s.keystore (.changePassphrase env oldPass newPass)
  | _ => True

def Undisturbed (s : Session R) : SessionEvent R → Prop
  | .op o => 0 ∉ o.convId ∧ if s.keystore.isUnlocked then KeepsInStep P load s o else LeavesCache s o
  | e => FilesHold V s e

/-- The keystore is in order, and the cache agrees with the database that is in memory or would be opened. -/
structure Consistent (s : Session R) (t : Keystore.Tracked (Database R)) : Prop where
  state : t.state = s.keystore
  intact : Keystore.Intact V t
  disk : ∀ db, t.written = some db → ∀ id data, db.keyERatchet.lookup id = some data → ∃ st, data = serialize st
  mirrors : Mirrors s.cache (t.cell.current V.sqlite.create)

variable {P load V} {s : Session R} {t : Keystore.Tracked (Database R)}

theorem Consistent.current_eq (h : Consistent V s t) {db : Database R} (hdb : s.keystore.db = some db) :
    t.cell.current V.sqlite.create = db := by
  have hmem : t.cell.mem = some db := (congrArg Keystore.State.db h.state).trans hdb
  unfold Keystore.Cell.current
  rw [hmem, Option.getD_some]

/-- A call of the keystore. -/
theorem Consistent.call (hV : V.Sound) (h : Consistent V s t) {e : Keystore.Event (Database R)} (he : e.IsCall)
    (huncut : Keystore.Uncut e) (hfree : ¬Keystore.LosesTrack V s.keystore e) :
    Consistent V { s with keystore := Keystore.next V s.keystore e } (Keystore.track V t e) := by
  have hkeeps := Keystore.keeps_step hV h.intact e huncut (h.state.symm ▸ hfree)
  obtain ⟨hcurrent, hdisk⟩ := hkeeps.cell.current_eq he
  refine ⟨?_, hkeeps.intact, ?_, ?_⟩
  · rw [← h.state]
    rfl
  · intro db hdb
    have hwritten : (Keystore.track V t e).cell.disk = some db := hdb
    rcases hdisk with hold | hnew
    · exact h.disk db (hold.symm.trans hwritten)
    · cases hnew.symm.trans hwritten
      exact h.mirrors.rows
  · rw [hcurrent]
    exact h.mirrors

/-- A change of the database in memory, with the cache that goes with it. -/
theorem Consistent.edit (h : Consistent V s t) (f : Database R → Database R)
    {cache : AList (fun _ : Bytes => Ratchet.State wire)} (hunlocked : ∀ db, s.keystore.db = some db → Mirrors cache (f db))
    (hlocked : s.keystore.db = none → cache = s.cache) :
    Consistent V ⟨{ s.keystore with db := s.keystore.db.map f }, cache⟩ (Keystore.track V t (.edit f)) := by
  have hmirrors := h.mirrors
  refine ⟨?_, (Keystore.keeps_edit h.intact f).intact, h.disk, ?_⟩
  · rw [← h.state]
    rfl
  · have hcell : (Keystore.track V t (.edit f)).cell = ⟨t.state.db.map f, t.written⟩ := rfl
    unfold Keystore.Cell.current at hmirrors ⊢
    rw [hcell]
    cases hdb : s.keystore.db with
    | none =>
      have hmem : t.cell.mem = none := (congrArg Keystore.State.db h.state).trans hdb
      rw [hlocked hdb, h.state, hdb]
      rw [hmem] at hmirrors
      exact hmirrors
    | some db =>
      rw [h.state, hdb]
      exact hunlocked db hdb

/-- The state that goes to both has no skipped keys, and one that goes to the cache only is the one of the table. -/
def Effect.Agrees (db : Database R) (convId : Bytes) : Effect → Prop
  | .nothing => True
  | .written st => st.skippedKeys = ∅
  | .cached st => st.skippedKeys = ∅ ∧ db.keyERatchet.lookup convId = some (serialize st)

/-- What is only cached while the database in memory or on the disk has its bytes. -/
theorem Consistent.cached (h : Consistent V s t) {convId : Bytes} (hid : 0 ∉ convId) {st : Ratchet.State wire}
    (hst : Effect.Agrees (t.cell.current V.sqlite.create) convId (.cached st)) : Consistent V (s.put convId st) t :=
  ⟨h.state, h.intact, h.disk, h.mirrors.loaded hid hst.1 hst.2⟩

theorem Consistent.apply (h : Consistent V s t) {db : Database R} (hdb : s.keystore.db = some db) {convId : Bytes}
    (hid : 0 ∉ convId) {eff : Effect} (heff : eff.Agrees db convId) : ∃ t', Consistent V (Effect.apply s convId eff) t' := by
  have hcurrent := h.current_eq hdb
  cases eff with
  | nothing => exact ⟨t, h⟩
  | cached st =>
    rw [← hcurrent] at heff
    exact ⟨t, h.cached hid heff⟩
  | written st =>
    have hmirrors : Mirrors s.cache db := hcurrent ▸ h.mirrors
    refine ⟨_, h.edit (Database.setRatchetState convId (serialize st)) ?_ ?_⟩
    · intro db' hdb'
      cases hdb.symm.trans hdb'
      exact hmirrors.written hid heff
    · intro hnone
      cases hdb.symm.trans hnone

theorem encrypt_skippedKeys (st : Ratchet.State wire) (coins : Coins wire) (plaintext : Bytes) :
    (Ratchet.encrypt P st coins plaintext).1.skippedKeys = st.skippedKeys := by
  unfold Ratchet.encrypt
  split
  · rfl
  · rfl

/-- One case for each call, with the keystore unlocked. -/
theorem act_agrees (hload : Loads load) {db : Database R} (hdb : s.keystore.db = some db) (h : Mirrors s.cache db) (o : Op)
    (hid : 0 ∉ o.convId) (hop : KeepsInStep P load s o) :
    (act P (loadState load s o.convId).2 o).1.Agrees db o.convId := by
  cases o with
  | initAsSender convId peerPrekeyPub myKeyBPub peerKeyBPub encapCoin keygenCoin => exact (rfl : (∅ : AList _) = ∅)
  | initAsReceiver convId myPrekeyPriv prekeyCt senderKeyBPub myKeyBPub senderRatchetPub keygenCoin => exact (rfl : (∅ : AList _) = ∅)
  | encrypt convId coins plaintext =>
    cases hst : (loadState load s convId).2 with
    | error e =>
      rw [Op.convId, hst]
      exact trivial
    | ok st =>
      rw [Op.convId, hst]
      exact (encrypt_skippedKeys st coins plaintext).trans (h.of_loadState hload hdb hid hst).1
  | decrypt convId msg =>
    cases hst : (loadState load s convId).2 with
    | error e =>
      rw [Op.convId, hst]
      exact trivial
    | ok st =>
      obtain ⟨hskipped, hrow⟩ := h.of_loadState hload hdb hid hst
      rw [Op.convId, hst]
      unfold act
      dsimp only
      rcases hop st hst with hrejected | hnext
      · have hc : st.skippedKeys.lookup (skipKey msg.header.epoch msg.header.msgNum) = none := by
          rw [hskipped, AList.lookup_empty]
        obtain ⟨e, hrun⟩ := decrypt_rejected (P := P) hc hrejected
        rw [hrun]
        exact ⟨hskipped, hrow⟩
      · obtain ⟨plaintext, st', hrun, hskipped'⟩ := decrypt_nextInLine hskipped hnext
        rw [hrun]
        exact hskipped'

/-- With the keystore locked, a call that leaves the cache alone leaves everything. -/
theorem Consistent.op_locked (h : Consistent V s t) (hdb : s.keystore.db = none) (o : Op) (hid : 0 ∉ o.convId)
    (hop : LeavesCache s o) : Consistent V (perform P load s o).1 t := by
  have hget : ∀ convId, getRatchetState s.keystore convId = [] := by
    intro convId
    unfold getRatchetState
    rw [hdb]
  rw [perform_eq]
  cases o with
  | initAsSender => exact absurd hop id
  | initAsReceiver => exact absurd hop id
  | encrypt convId coins plaintext =>
    have hst := loadState_of_none load hop (hget convId)
    rw [Op.convId, hst]
    exact h
  | decrypt convId msg =>
    cases hcache : s.cache.lookup convId with
    | none =>
      have hst := loadState_of_none load hcache (hget convId)
      rw [Op.convId, hst]
      exact h
    | some st =>
      have hst := loadState_of_cached load hcache
      obtain ⟨_, hskipped, hrow⟩ := h.mirrors.cached convId st hcache
      have hc : st.skippedKeys.lookup (skipKey msg.header.epoch msg.header.msgNum) = none := by
        rw [hskipped, AList.lookup_empty]
      obtain ⟨e, hrun⟩ := decrypt_rejected (P := P) hc (hop st hcache)
      rw [Op.convId, hst]
      unfold act
      dsimp only
      rw [hrun]
      exact h.cached hid ⟨hskipped, hrow⟩

theorem Consistent.op (hload : Loads load) (h : Consistent V s t) (o : Op) (hid : 0 ∉ o.convId)
    (hop : if s.keystore.isUnlocked then KeepsInStep P load s o else LeavesCache s o) :
    ∃ t', Consistent V (perform P load s o).1 t' := by
  cases hdb : s.keystore.db with
  | none =>
    rw [Keystore.isUnlocked_eq_false hdb] at hop
    exact ⟨t, h.op_locked hdb o hid hop⟩
  | some db =>
    rw [Keystore.isUnlocked_eq_true hdb] at hop
    have hmirrors : Mirrors s.cache db := h.current_eq hdb ▸ h.mirrors
    rw [perform_eq]
    exact h.apply hdb hid (act_agrees hload hdb hmirrors o hid hop)

theorem rows_of_empty {db : Database R} (h : db.keyERatchet = ∅) (id data : Bytes) (hdata : db.keyERatchet.lookup id = some data) :
    ∃ st, data = serialize st := by
  rw [h, AList.lookup_empty] at hdata
  cases hdata

theorem Consistent.restart (hcreate : V.sqlite.create.keyERatchet = ∅) (h : Consistent V s t) :
    Consistent V (nextSession P load V s .restart) (Keystore.track V t .restart) := by
  refine ⟨?_, (Keystore.keeps_restart h.intact).intact, h.disk, mirrors_empty ?_⟩
  · rw [nextSession, ← h.state]
    rfl
  · have hcell : (Keystore.track V t .restart).cell = ⟨none, t.written⟩ := rfl
    unfold Keystore.Cell.current
    rw [hcell]
    cases hwritten : t.written with
    | none => exact rows_of_empty hcreate
    | some db => exact h.disk db hwritten

theorem Consistent.coherent (hload : Loads load) (h : Consistent V s t) : s.Coherent P load := by
  intro hunlocked
  cases hdb : s.keystore.db with
  | none =>
    rw [Keystore.isUnlocked_eq_false hdb] at hunlocked
    cases hunlocked
  | some db =>
    have hmirrors : Mirrors s.cache db := h.current_eq hdb ▸ h.mirrors
    exact hmirrors.coherent hload hdb hunlocked

theorem Consistent.step (hload : Loads load) (hV : V.Sound) (hcreate : V.sqlite.create.keyERatchet = ∅) (h : Consistent V s t) (e : SessionEvent R)
    (he : Undisturbed P load V s e) : ∃ t', Consistent V (nextSession P load V s e) t' := by
  cases e with
  | op o => exact h.op hload o he.1 he.2
  | unlock env p => exact ⟨_, h.call hV trivial he.1 he.2⟩
  | save env => exact ⟨_, h.call hV trivial he id⟩
  | lock env => exact ⟨_, h.call hV trivial he id⟩
  | changePassphrase env oldPass newPass => exact ⟨_, h.call hV trivial he.1 he.2⟩
  | other f =>
    refine ⟨_, h.edit (fun db => { db with rest := f db.rest }) ?_ (fun _ => rfl)⟩
    intro db hdb
    have hmirrors : Mirrors s.cache db := h.current_eq hdb ▸ h.mirrors
    exact ⟨hmirrors.rows, hmirrors.cached⟩
  | restart => exact ⟨_, h.restart hcreate⟩

/-- In every undisturbed run the cache and the table stay coherent. -/
theorem coherent_of_undisturbed (P : Primitives wire) {load : Bytes → Option Item} (hload : Loads load)
    {V : Keystore.Vault (Database R)} (hV : V.Sound) (hcreate : V.sqlite.create.keyERatchet = ∅) {es : List (SessionEvent R)}
    (h : Along (nextSession P load V) (Undisturbed P load V) {} es) :
    Along (nextSession P load V) (fun s e => (nextSession P load V s e).Coherent P load) {} es := by
  refine along_of_invariant (fun s => ∃ t, Consistent V s t) ?_ ⟨{}, rfl, .empty rfl rfl rfl rfl, ?_, ?_⟩ h
  · rintro s e ⟨t, ht⟩ he
    obtain ⟨t', ht'⟩ := ht.step hload hV hcreate e he
    exact ⟨ht'.coherent hload, t', ht'⟩
  · intro db hdb
    cases hdb
  · exact mirrors_empty (rows_of_empty hcreate)

/-- A message that is turned away too late leaves the table behind the cache. -/
theorem not_coherent_of_torn (hload : Loads load) {convId : Bytes} {st st' : Ratchet.State wire} {msg : Message wire} {err : RatchetError}
    (hunlocked : s.keystore.isUnlocked = true) (hcache : s.cache.lookup convId = some st)
    (hrow : getRatchetState s.keystore convId = serialize st) (hrun : (Ratchet.decrypt P msg).run st = .error err st')
    (hne : st'.recvMsgNum ≠ st.recvMsgNum) : ¬(nextSession P load V s (.op (.decrypt convId msg))).Coherent P load := by
  have hnext : nextSession P load V s (.op (.decrypt convId msg)) = s.put convId st' := by
    show (perform P load s (.decrypt convId msg)).1 = _
    rw [perform_eq, Op.convId, loadState_of_cached load hcache]
    unfold act
    dsimp only
    rw [hrun]
    rfl
  rw [hnext]
  intro hcoherent
  have hbytes := (hcoherent hunlocked).1 convId st' (AList.lookup_insert _)
  have hsame := withoutSkipped_of_serialize hload (hbytes.symm.trans hrow)
  have hnum := congrArg Ratchet.State.recvMsgNum hsame
  exact hne hnum

theorem getRatchetState_persist_self (s : Session R) {convId : Bytes} (hid : 0 ∉ convId) {db : Database R} {st : Ratchet.State wire}
    (hdb : s.keystore.db = some db) : getRatchetState ((s.put convId st).persist convId st).keystore convId = serialize st := by
  have hdb' : ((s.put convId st).persist convId st).keystore.db = some (db.setRatchetState convId (serialize st)) := by
    show s.keystore.db.map _ = _
    rw [hdb, Option.map_some]
  rw [getRatchetState_eq hdb' hid]
  unfold Database.setRatchetState
  rw [cStr_of_nulFree hid, AList.lookup_insert, Option.getD_some]

end Runs

/-! ## A vault with a table -/

def tableItem (db : Database Unit) : Item := .map (db.keyERatchet.entries.map (fun e => (.bytes e.1, .bytes e.2)))

def readRow : Item × Item → Option (Sigma (fun _ : Bytes => Bytes))
  | (.bytes id, .bytes data) => some ⟨id, data⟩
  | _ => none

def readTable : Item → Option (Database Unit)
  | .map kvs =>
    let rows := kvs.filterMap readRow
    if h : (rows.map Sigma.fst).Nodup then some ⟨⟨rows, h⟩, ()⟩ else none
  | _ => none

theorem readTable_tableItem (db : Database Unit) : readTable (tableItem db) = some db := by
  obtain ⟨⟨entries, hkeys⟩, rest⟩ := db
  have hrows : (entries.map (fun e => ((.bytes e.1, .bytes e.2) : Item × Item))).filterMap readRow = entries := by
    rw [List.filterMap_map]
    exact List.filterMap_some
  unfold readTable tableItem
  dsimp only
  rw [hrows, dif_pos (show (entries.map Sigma.fst).Nodup from hkeys)]

/-- The small vault for the table of ratchet states. -/
def tableVault : Keystore.Vault (Database Unit) where
  argon2id := Keystore.smallVault.argon2id
  aes := checksumAes
  sqlite := ⟨⟨∅, ()⟩, fun db => encode (tableItem db), fun b => (Cbor.load b).bind readTable⟩

theorem tableVault_sound : tableVault.Sound where
  aes := checksumAes_correct
  reload db := by
    show (Cbor.load (encode (tableItem db))).bind readTable = some db
    rw [load_loads.load_encode]
    exact readTable_tableItem db
  authentic := Keystore.smallVault_authentic

/-- The next message for `bobState`, and one with a wrong tag. -/
def nextForBob : Message wire :=
  let enc := checksumAes.encrypt (messageKey padding bobState.recvChainKey) (fit 12 [1]) [10] []
  ⟨⟨0, 0, 0, fit 1184 [5], none⟩, fit 12 [1], enc.1, enc.2⟩

def badForBob : Message wire := ⟨⟨0, 0, 0, fit 1184 [5], none⟩, fit 12 [1], [10], fit 16 [1]⟩

def bobInit : Op := .initAsReceiver [99] (fit 2400 [1]) (fit 1088 [2]) (fit 1184 [3]) (fit 1184 [4]) (fit 1184 [5]) (fit 32 [6])

theorem coherent_of_undisturbed_bob :
    Along (nextSession padding Cbor.load tableVault)
      (fun s e => (nextSession padding Cbor.load tableVault s e).Coherent padding Cbor.load) {}
      [.unlock (Keystore.onDisk .whole) [1], .op bobInit, .op (.decrypt [99] nextForBob), .lock (Keystore.onDisk .whole),
        .unlock (Keystore.onDisk .whole) [1]] := by
  have hunlock : ∀ s : Session Unit, Undisturbed padding Cbor.load tableVault s (.unlock (Keystore.onDisk .whole) [1]) := by
    intro s
    refine ⟨(Keystore.uncut_of_onDisk Keystore.whole_ne_cut [1] [1]).1, ?_⟩
    rintro ⟨_, _, _, h⟩
    cases h
  refine coherent_of_undisturbed padding load_loads tableVault_sound rfl
    ⟨hunlock _, ⟨by decide, trivial⟩, ⟨by decide, ?_⟩, Keystore.whole_ne_cut, hunlock _, trivial⟩
  intro st hst
  have hcache : (nextSession padding Cbor.load tableVault (nextSession padding Cbor.load tableVault {}
      (.unlock (Keystore.onDisk .whole) [1])) (.op bobInit)).cache.lookup [99] = some bobState := AList.lookup_insert _
  rw [loadState_of_cached Cbor.load hcache] at hst
  cases hst
  exact Or.inr (Or.inl ⟨rfl, UInt32.le_refl _, [10], checksumAes_correct.decrypt_encrypt _ _ _ _⟩)

theorem checksum_ne_badTag (k : ByteArr 32) (n : ByteArr 12) (p : Bytes) : fit 16 [1] ≠ checksum k n p [] := by
  intro h
  have h0 := congrArg (fun v : ByteArr 16 => v.toList.head?) h
  have h1 := congrArg (fun v : ByteArr 16 => v.toList.tail.head?) h
  have hbyte : some (1 : UInt8) = some 0 := h0.trans h1.symm
  cases hbyte

theorem checksumAes_badTag (k : ByteArr 32) (n : ByteArr 12) (c : Bytes) : checksumAes.decrypt k n c (fit 16 [1]) [] = none :=
  if_neg (checksum_ne_badTag k n c)

theorem decrypt_badForBob : (Ratchet.decrypt padding badForBob).run bobState = .error .authFailed (takeKey padding bobState) := by
  have hreached : badForBob.header.msgNum ≤ bobState.recvMsgNum := UInt32.le_refl _
  have hdec : padding.aes.decrypt (messageKey padding bobState.recvChainKey) badForBob.nonce badForBob.ciphertext badForBob.tag [] = none :=
    checksumAes_badTag _ _ _
  exact decrypt_authFailed (AList.lookup_empty _) rfl hreached hdec

/-- A message with a wrong tag moves the cached state on, and the table stays behind. -/
theorem not_coherent_badForBob :
    ¬Along (nextSession padding Cbor.load tableVault)
      (fun s e => (nextSession padding Cbor.load tableVault s e).Coherent padding Cbor.load) {}
      [.unlock (Keystore.onDisk .whole) [1], .op bobInit, .op (.decrypt [99] badForBob)] := by
  rintro ⟨_, _, hcoherent, _⟩
  refine not_coherent_of_torn load_loads ?_ ?_ ?_ decrypt_badForBob (by decide) hcoherent
  · rfl
  · exact AList.lookup_insert _
  · exact getRatchetState_persist_self _ (by decide) rfl

end ScatterWeb.Client
