import ScatterWeb.Client.Publication
import ScatterWeb.Lib.Transition

/-! # The one-time prekeys of a Client

`replenish_prekeys` looks at one Key B after another. Where fewer unconsumed prekeys than the threshold are left it draws a batch, sends
the list of all of them to the router and saves the keystore. `publish_dht_records` sends the same list again, and the bundle of a
contact request has it too. Nothing calls `consume_prekey`. What the router makes of a record is left out, and so are exceptions of
`mlkem_keygen`. A process that dies begins again with what was saved. -/
namespace ScatterWeb.Client.Prekeys
open Crypto Lib Mailbox
set_option autoImplicit false

/-! ## The keystore -/

/-- A row of `key_d_prekeys`. -/
structure StoredPrekey extends KeyDPrekey where
  kemPrivkey : ByteArr 2400
  createdAt : Int64

structure PrekeyKeys where
  keyAPriv : Option (ByteArr 4032) := none
  keyBs : Table KeyB.id := .empty
  prekeys : Table (fun pk : StoredPrekey => pk.id) := .empty

/-- A list of prekeys that is given away for a Key B. -/
structure Offer where
  keyBId : Bytes
  prekeys : List (ByteArr 1184)

namespace PrekeyKeys
variable (ks : PrekeyKeys)

def insertPrekey (pk : StoredPrekey) : PrekeyKeys := { ks with prekeys := (ks.prekeys.insertNew pk).1 }

def listPrekeys (keyBId : Bytes) : List StoredPrekey := ks.prekeys.rows.filter (fun pk => decide (pk.keyBId = keyBId) && !pk.consumed)

def countPrekeys (keyBId : Bytes) : ℕ := (ks.listPrekeys keyBId).length

def pubs (keyBId : Bytes) : List (ByteArr 1184) := (ks.listPrekeys keyBId).map (fun pk => pk.kemPubkey)

def offer (keyBId : Bytes) : Offer := ⟨keyBId, ks.pubs keyBId⟩

end PrekeyKeys

/-! ## The Client -/

structure PrekeyConfig where
  prekeyLowThreshold : ℤ := 5
  prekeyBatchSize : ℤ := 20

/-- How the turn for a Key B ends. -/
inductive Ending
  | saved
  /-- `save` throws. -/
  | threw
  /-- The process is gone before `save`. -/
  | died
  deriving DecidableEq

/-- The clock, the draws, whether the request gets to the router, and the end of a turn. -/
structure Turn (Coin : Type) where
  nowS : Int64
  draws : ℕ → Coin
  sent : Bool
  ending : Ending

/-- The keystore in memory, the saved one, and what has been given away so far. -/
structure Holding where
  mem : PrekeyKeys := {}
  disk : PrekeyKeys := {}
  offers : List Offer := []

section Steps
variable {Ct SS Coin : Type} (sha3 : Bytes → ByteArr 32) (kem : Kem (ByteArr 1184) (ByteArr 2400) Ct SS Coin) (cfg : PrekeyConfig)

def newPrekey (t : Turn Coin) (keyBId : Bytes) (i : ℕ) : StoredPrekey where
  id := bytesToHex (sha3 (kem.keygen (t.draws i)).pub.toList).toList
  keyBId := keyBId
  kemPubkey := (kem.keygen (t.draws i)).pub
  kemPrivkey := (kem.keygen (t.draws i)).priv
  createdAt := t.nowS

def insertBatch (t : Turn Coin) (keyBId : Bytes) (n : ℕ) (ks : PrekeyKeys) : PrekeyKeys :=
  (List.range n).foldl (fun ks i => ks.insertPrekey (newPrekey sha3 kem t keyBId i)) ks

/-- One turn of the loop of `replenish_prekeys`, and whether there is a next one. -/
def replenishKeyB (t : Turn Coin) (s : Holding) (keyBId : Bytes) : Holding × Bool :=
  if cfg.prekeyLowThreshold ≤ s.mem.countPrekeys keyBId then (s, true)
  else
    let mem := insertBatch sha3 kem t keyBId cfg.prekeyBatchSize.toNat s.mem
    let offers := if mem.keyAPriv.isSome ∧ t.sent = true then s.offers ++ [mem.offer keyBId] else s.offers
    match t.ending with
    | .saved => (⟨mem, mem, offers⟩, true)
    | .threw => (⟨mem, s.disk, offers⟩, false)
    | .died => (⟨s.disk, s.disk, offers⟩, false)

def replenishPrekeys (turn : Bytes → Turn Coin) : Holding → List KeyB → Holding
  | s, [] => s
  | s, kb :: kbs =>
    match replenishKeyB sha3 kem cfg (turn kb.id) s kb.id with
    | (s, true) => replenishPrekeys turn s kbs
    | (s, false) => s

/-- The prekey records of `publish_dht_records`; `sent` says which of the requests get to the router. -/
def publishPrekeys (sent : Bytes → Bool) (s : Holding) : Holding :=
  if s.mem.keyAPriv.isSome then
    { s with offers := s.offers ++
        (s.mem.keyBs.rows.filter (fun kb => decide (0 < s.mem.countPrekeys kb.id) && sent kb.id)).map (fun kb => s.mem.offer kb.id) }
  else s

inductive PrekeyEvent (Coin : Type)
  | setKeyA (priv : ByteArr 4032)
  | insertKeyB (kb : KeyB)
  | replenish (turn : Bytes → Turn Coin)
  | publish (sent : Bytes → Bool)
  /-- The bundle of a contact request. -/
  | bundle (keyBId : Bytes)
  /-- Any other `save`. -/
  | save
  | die

def next (s : Holding) : PrekeyEvent Coin → Holding
  | .setKeyA priv => { s with mem := { s.mem with keyAPriv := some priv } }
  | .insertKeyB kb => { s with mem := { s.mem with keyBs := (s.mem.keyBs.insertNew kb).1 } }
  | .replenish turn => replenishPrekeys sha3 kem cfg turn s s.mem.keyBs.rows
  | .publish sent => publishPrekeys sent s
  | .bundle keyBId => { s with offers := s.offers ++ [s.mem.offer keyBId] }
  | .save => { s with disk := s.mem }
  | .die => { s with mem := s.disk }

end Steps

/-! ## What is meant -/

section Meaning
variable {Coin : Type}

/-- The process may die in a turn only before anything is sent, and where all earlier prekeys are saved. -/
def Turn.Harmless (t : Turn Coin) (s : Holding) : Prop := t.ending = .died → t.sent = false ∧ s.mem.prekeys = s.disk.prekeys

/-- An event with which no prekey is lost. -/
def NothingLost (s : Holding) : PrekeyEvent Coin → Prop
  | .replenish turn => ∀ kb ∈ s.mem.keyBs.rows, (turn kb.id).Harmless s
  | .die => s.mem.prekeys = s.disk.prekeys
  | _ => True

/-- The later list goes on where the earlier one ends, and not at all once the threshold is reached. -/
def Precedes (low : ℤ) (xs ys : List (ByteArr 1184)) : Prop := xs <+: ys ∧ (low ≤ xs.length → ys = xs)

end Meaning

/-! ## The records -/

section Records
variable {Sig : Type} (L : Dht.Library Sig) (draw : Bytes → PublishDraw) (ks : PrekeyKeys)

/-- What of the keystore the records are made from. -/
def PrekeyKeys.publishKeys : PublishKeys where
  keyAPriv := ks.keyAPriv
  keyBs := ks.keyBs
  prekeys := ⟨ks.prekeys.rows.map StoredPrekey.toKeyDPrekey, by
    rw [List.map_map]
    exact ks.prekeys.nodup⟩

theorem listPrekeys_publishKeys (keyBId : Bytes) : ks.publishKeys.listPrekeys keyBId = (ks.listPrekeys keyBId).map StoredPrekey.toKeyDPrekey := by
  unfold PublishKeys.listPrekeys PrekeyKeys.listPrekeys PrekeyKeys.publishKeys
  rw [List.filter_map]
  rfl

/-- A prekey record lists what is offered. -/
theorem prekeyRecordFor_publishKeys (priv : ByteArr 4032) (kb : KeyB) : prekeyRecordFor L draw ks.publishKeys priv kb =
    buildPrekeyRecord L (draw kb.id).prekeySeed kb.kem.pub priv (ks.offer kb.id).prekeys (draw kb.id).prekeyNow := by
  unfold prekeyRecordFor PrekeyKeys.offer PrekeyKeys.pubs
  rw [listPrekeys_publishKeys, List.map_map]
  rfl

end Records

/-! ## Batches -/

section Batches
variable {Ct SS Coin : Type} {sha3 : Bytes → ByteArr 32} {kem : Kem (ByteArr 1184) (ByteArr 2400) Ct SS Coin} {t : Turn Coin}
  {ks ks' : PrekeyKeys} {pk : StoredPrekey} {keyBId k : Bytes} {low : ℤ} {xs ys zs : List (ByteArr 1184)}

theorem rows_insertPrekey (ks : PrekeyKeys) (pk : StoredPrekey) :
    (ks.insertPrekey pk).prekeys.rows = ks.prekeys.rows ∨ (ks.insertPrekey pk).prekeys.rows = ks.prekeys.rows ++ [pk] := by
  unfold PrekeyKeys.insertPrekey
  dsimp only
  cases hfind : ks.prekeys.find pk.id with
  | none => exact Or.inr (Table.rows_insertNew hfind)
  | some pk' =>
    rw [Table.insertNew_of_find_some hfind]
    exact Or.inl rfl

theorem pubs_insertPrekey (ks : PrekeyKeys) (pk : StoredPrekey) (k : Bytes) :
    ∃ more, (ks.insertPrekey pk).pubs k = ks.pubs k ++ more ∧ more.length ≤ 1 ∧ (pk.keyBId ≠ k → more = []) := by
  unfold PrekeyKeys.pubs PrekeyKeys.listPrekeys
  obtain hrows | hrows := rows_insertPrekey ks pk
  · rw [hrows]
    exact ⟨[], (List.append_nil _).symm, Nat.zero_le 1, fun _ => rfl⟩
  · rw [hrows, List.filter_append, List.map_append]
    refine ⟨_, rfl, ?_, ?_⟩
    · rw [List.length_map]
      exact List.length_filter_le _ [pk]
    · intro hne
      rw [List.filter_singleton, decide_eq_false hne]
      rfl

theorem insertBatch_succ (t : Turn Coin) (keyBId : Bytes) (n : ℕ) (ks : PrekeyKeys) : insertBatch sha3 kem t keyBId (n + 1) ks =
    (insertBatch sha3 kem t keyBId n ks).insertPrekey (newPrekey sha3 kem t keyBId n) := by
  unfold insertBatch
  rw [List.range_succ, List.foldl_append]
  rfl

theorem pubs_insertBatch (sha3 : Bytes → ByteArr 32) (kem : Kem (ByteArr 1184) (ByteArr 2400) Ct SS Coin) (t : Turn Coin) (keyBId : Bytes) (n : ℕ)
    (ks : PrekeyKeys) (k : Bytes) :
    ∃ more, (insertBatch sha3 kem t keyBId n ks).pubs k = ks.pubs k ++ more ∧ more.length ≤ n ∧ (keyBId ≠ k → more = []) := by
  induction n with
  | zero => exact ⟨[], (List.append_nil _).symm, Nat.le_refl 0, fun _ => rfl⟩
  | succ n ih =>
    obtain ⟨more, hmore, hlength, hother⟩ := ih
    obtain ⟨last, hlast, hone, hlastother⟩ := pubs_insertPrekey (insertBatch sha3 kem t keyBId n ks) (newPrekey sha3 kem t keyBId n) k
    rw [insertBatch_succ, hlast, hmore, List.append_assoc]
    refine ⟨more ++ last, rfl, ?_, ?_⟩
    · rw [List.length_append]
      omega
    · intro hne
      rw [hother hne, hlastother hne, List.append_nil]

theorem mem_insertBatch {n : ℕ} (h : pk ∈ (insertBatch sha3 kem t keyBId n ks).prekeys.rows) :
    pk ∈ ks.prekeys.rows ∨ ∃ i, pk = newPrekey sha3 kem t keyBId i := by
  induction n with
  | zero => exact Or.inl h
  | succ n ih =>
    rw [insertBatch_succ] at h
    obtain hrows | hrows := rows_insertPrekey (insertBatch sha3 kem t keyBId n ks) (newPrekey sha3 kem t keyBId n)
    · rw [hrows] at h
      exact ih h
    · rw [hrows, List.mem_append, List.mem_singleton] at h
      obtain hold | hnew := h
      · exact ih hold
      · exact Or.inr ⟨n, hnew⟩

theorem keyAPriv_insertBatch (n : ℕ) : (insertBatch sha3 kem t keyBId n ks).keyAPriv = ks.keyAPriv := by
  induction n with
  | zero => rfl
  | succ n ih =>
    rw [insertBatch_succ]
    exact ih

theorem Precedes.refl (low : ℤ) (xs : List (ByteArr 1184)) : Precedes low xs xs := ⟨List.prefix_rfl, fun _ => rfl⟩

theorem Precedes.trans (h : Precedes low xs ys) (h' : Precedes low ys zs) : Precedes low xs zs := by
  refine ⟨h.1.trans h'.1, ?_⟩
  intro hlow
  have hys := h.2 hlow
  rw [h'.2 (hys ▸ hlow), hys]

theorem Precedes.of_append {more : List (ByteArr 1184)} (hshort : (xs.length : ℤ) < low) : Precedes low xs (xs ++ more) :=
  ⟨List.prefix_append xs more, fun hlow => absurd hshort (not_lt.mpr hlow)⟩

/-- A batch for a Key B with too few prekeys. -/
theorem precedes_insertBatch (n : ℕ) (hlow : (ks.countPrekeys keyBId : ℤ) < low) (k : Bytes) :
    Precedes low (ks.pubs k) ((insertBatch sha3 kem t keyBId n ks).pubs k) := by
  obtain ⟨more, hmore, _, hother⟩ := pubs_insertBatch sha3 kem t keyBId n ks k
  rw [hmore]
  by_cases hk : keyBId = k
  · refine Precedes.of_append ?_
    rw [← hk, PrekeyKeys.pubs, List.length_map]
    exact hlow
  · rw [hother hk, List.append_nil]
    exact Precedes.refl low _

end Batches

/-! ## What every run keeps -/

section Runs
variable {Ct SS Coin : Type} {sha3 : Bytes → ByteArr 32} {kem : Kem (ByteArr 1184) (ByteArr 2400) Ct SS Coin} {cfg : PrekeyConfig}
  {s s' : Holding} {t : Turn Coin} {keyBId : Bytes}

structure Settled (kem : Kem (ByteArr 1184) (ByteArr 2400) Ct SS Coin) (cfg : PrekeyConfig) (s : Holding) : Prop where
  ordered : s.offers.Pairwise (fun o o' => o.keyBId = o'.keyBId → Precedes cfg.prekeyLowThreshold o.prekeys o'.prekeys)
  held : ∀ o ∈ s.offers, Precedes cfg.prekeyLowThreshold o.prekeys (s.mem.pubs o.keyBId)
  bounded : ∀ k, ((s.mem.pubs k).length : ℤ) < cfg.prekeyLowThreshold + cfg.prekeyBatchSize ∨ s.mem.pubs k = []
  paired : ∀ pk ∈ s.mem.prekeys.rows, ∃ coin, kem.keygen coin = ⟨pk.kemPubkey, pk.kemPrivkey⟩

theorem settled_initial : Settled kem cfg {} where
  ordered := List.Pairwise.nil
  held _ ho := nomatch ho
  bounded _ := Or.inr rfl
  paired _ hpk := nomatch hpk

/-- Only the prekeys in memory and what was given away matter. -/
theorem Settled.congr (h : Settled kem cfg s) (hprekeys : s'.mem.prekeys = s.mem.prekeys) (hoffers : s'.offers = s.offers) :
    Settled kem cfg s' := by
  have hpubs : ∀ k, s'.mem.pubs k = s.mem.pubs k := by
    intro k
    unfold PrekeyKeys.pubs PrekeyKeys.listPrekeys
    rw [hprekeys]
  constructor
  · rw [hoffers]
    exact h.ordered
  · intro o ho
    rw [hpubs]
    exact h.held o (hoffers ▸ ho)
  · intro k
    rw [hpubs]
    exact h.bounded k
  · rw [hprekeys]
    exact h.paired

theorem Settled.offer (h : Settled kem cfg s) (k : Bytes) : Settled kem cfg { s with offers := s.offers ++ [s.mem.offer k] } where
  ordered := by
    refine List.pairwise_append.mpr ⟨h.ordered, List.pairwise_singleton _ _, ?_⟩
    intro o ho o' ho' hk
    rw [List.mem_singleton.mp ho'] at hk ⊢
    change Precedes _ o.prekeys (s.mem.pubs k)
    change o.keyBId = k at hk
    rw [← hk]
    exact h.held o ho
  held o ho := by
    obtain hold | hnew := List.mem_append.mp ho
    · exact h.held o hold
    · rw [List.mem_singleton.mp hnew]
      exact Precedes.refl _ _
  bounded := h.bounded
  paired := h.paired

theorem Settled.offers (h : Settled kem cfg s) (ids : List Bytes) : Settled kem cfg { s with offers := s.offers ++ ids.map s.mem.offer } := by
  induction ids using List.reverseRecOn with
  | nil =>
    rw [List.map_nil, List.append_nil]
    exact h
  | append_singleton ids k ih =>
    rw [List.map_append, ← List.append_assoc]
    exact ih.offer k

theorem Settled.insertBatch (h : Settled kem cfg s) (t : Turn Coin) (hlow : (s.mem.countPrekeys keyBId : ℤ) < cfg.prekeyLowThreshold) :
    Settled kem cfg { s with mem := insertBatch sha3 kem t keyBId cfg.prekeyBatchSize.toNat s.mem } where
  ordered := h.ordered
  held o ho := (h.held o ho).trans (precedes_insertBatch _ hlow o.keyBId)
  bounded k := by
    obtain ⟨more, hmore, hlength, hother⟩ := pubs_insertBatch sha3 kem t keyBId cfg.prekeyBatchSize.toNat s.mem k
    dsimp only
    rw [hmore]
    by_cases hk : keyBId = k
    · by_cases hnone : more = []
      · rw [hnone, List.append_nil]
        exact h.bounded k
      · have hbatch := List.length_pos_iff.mpr hnone
        have hcount : (s.mem.pubs k).length = s.mem.countPrekeys keyBId := by
          rw [← hk, PrekeyKeys.pubs, List.length_map]
          rfl
        rw [List.length_append, hcount]
        omega
    · rw [hother hk, List.append_nil]
      exact h.bounded k
  paired pk hpk := by
    obtain hold | ⟨i, rfl⟩ := mem_insertBatch hpk
    · exact h.paired pk hold
    · exact ⟨t.draws i, rfl⟩

/-- What a turn with too few prekeys leaves, unless the process dies in it. -/
theorem Settled.batch (h : Settled kem cfg s) (t : Turn Coin) (hlow : (s.mem.countPrekeys keyBId : ℤ) < cfg.prekeyLowThreshold)
    (disk : PrekeyKeys) (p : Prop) [Decidable p] : Settled kem cfg
      ⟨Prekeys.insertBatch sha3 kem t keyBId cfg.prekeyBatchSize.toNat s.mem, disk,
        if p then s.offers ++ [(Prekeys.insertBatch sha3 kem t keyBId cfg.prekeyBatchSize.toNat s.mem).offer keyBId] else s.offers⟩ := by
  have hbatch : Settled kem cfg { s with mem := Prekeys.insertBatch sha3 kem t keyBId cfg.prekeyBatchSize.toNat s.mem } := h.insertBatch t hlow
  split
  · exact (hbatch.offer keyBId).congr rfl rfl
  · exact hbatch.congr rfl rfl

theorem Settled.replenishKeyB (h : Settled kem cfg s) (ht : t.Harmless s) : Settled kem cfg (replenishKeyB sha3 kem cfg t s keyBId).1 := by
  unfold Prekeys.replenishKeyB
  split
  · exact h
  · rename_i hlow
    rw [not_le] at hlow
    cases hending : t.ending with
    | saved => exact h.batch t hlow _ _
    | threw => exact h.batch t hlow _ _
    | died =>
      obtain ⟨hsent, hdisk⟩ := ht hending
      refine h.congr hdisk.symm (if_neg ?_)
      rw [hsent]
      rintro ⟨_, hsent⟩
      cases hsent

/-- After a turn that is not the last one, all prekeys are saved that were before. -/
theorem harmless_replenishKeyB {t' : Turn Coin} (hs : replenishKeyB sha3 kem cfg t s keyBId = (s', true)) (h : t'.Harmless s) : t'.Harmless s' := by
  unfold replenishKeyB at hs
  split at hs
  · cases hs
    exact h
  · cases hending : t.ending with
    | saved =>
      rw [hending] at hs
      cases hs
      intro hdied
      exact ⟨(h hdied).1, rfl⟩
    | threw | died =>
      rw [hending] at hs
      cases hs

theorem Settled.replenishPrekeys {turn : Bytes → Turn Coin} {kbs : List KeyB} (h : Settled kem cfg s) (ht : ∀ kb ∈ kbs, (turn kb.id).Harmless s) :
    Settled kem cfg (replenishPrekeys sha3 kem cfg turn s kbs) := by
  induction kbs generalizing s with
  | nil => exact h
  | cons kb kbs ih =>
    have hturn : Settled kem cfg (Prekeys.replenishKeyB sha3 kem cfg (turn kb.id) s kb.id).1 := h.replenishKeyB (ht kb List.mem_cons_self)
    unfold Prekeys.replenishPrekeys
    split
    · rename_i s' hs
      rw [hs] at hturn
      exact ih hturn (fun kb' hkb' => harmless_replenishKeyB hs (ht kb' (List.mem_cons_of_mem kb hkb')))
    · rename_i s' hs
      rw [hs] at hturn
      exact hturn

theorem Settled.publishPrekeys (h : Settled kem cfg s) (sent : Bytes → Bool) : Settled kem cfg (publishPrekeys sent s) := by
  unfold Prekeys.publishPrekeys
  split
  · have hoffers := h.offers
      ((s.mem.keyBs.rows.filter (fun kb => decide (0 < s.mem.countPrekeys kb.id) && sent kb.id)).map (fun kb => kb.id))
    rw [List.map_map] at hoffers
    exact hoffers
  · exact h

theorem settled_next {e : PrekeyEvent Coin} (h : Settled kem cfg s) (he : NothingLost s e) : Settled kem cfg (next sha3 kem cfg s e) := by
  cases e with
  | setKeyA priv => exact h.congr rfl rfl
  | insertKeyB kb => exact h.congr rfl rfl
  | replenish turn => exact h.replenishPrekeys he
  | publish sent => exact h.publishPrekeys sent
  | bundle keyBId => exact h.offer keyBId
  | save => exact h.congr rfl rfl
  | die => exact h.congr (Eq.symm he) rfl

end Runs

/-- As long as no prekey is lost, the lists that are given away for one Key B only ever grow, and not any more once they have as many as the
threshold; they never have a whole batch more than it; and of each key in them the keystore has the private half. -/
theorem offers_settle {Ct SS Coin : Type} (sha3 : Bytes → ByteArr 32) (kem : Kem (ByteArr 1184) (ByteArr 2400) Ct SS Coin) (cfg : PrekeyConfig)
    (es : List (PrekeyEvent Coin)) (h : Along (next sha3 kem cfg) NothingLost {} es) :
    let s := es.foldl (next sha3 kem cfg) {}
    s.offers.Pairwise (fun o o' => o.keyBId = o'.keyBId → Precedes cfg.prekeyLowThreshold o.prekeys o'.prekeys) ∧
    ∀ o ∈ s.offers, ((o.prekeys.length : ℤ) < cfg.prekeyLowThreshold + cfg.prekeyBatchSize ∨ o.prekeys = []) ∧
      ∀ pub ∈ o.prekeys, ∃ pk ∈ s.mem.prekeys.rows, pk.keyBId = o.keyBId ∧ pk.consumed = false ∧ ∃ coin, kem.keygen coin = ⟨pub, pk.kemPrivkey⟩ := by
  have hsettled : Settled kem cfg (es.foldl (next sha3 kem cfg) {}) := along_foldl (Settled kem cfg) (fun _ _ => settled_next) settled_initial h
  refine ⟨hsettled.ordered, ?_⟩
  intro o ho
  obtain ⟨hinitial, _⟩ := hsettled.held o ho
  constructor
  · obtain hlt | hnone := hsettled.bounded o.keyBId
    · exact Or.inl (lt_of_le_of_lt (Int.ofNat_le.mpr hinitial.length_le) hlt)
    · rw [hnone] at hinitial
      exact Or.inr (List.prefix_nil.mp hinitial)
  · intro pub hpub
    obtain ⟨pk, hpk, rfl⟩ := List.mem_map.mp (hinitial.subset hpub)
    obtain ⟨hrow, hkey⟩ := List.mem_filter.mp hpk
    rw [Bool.and_eq_true, decide_eq_true_iff, Bool.not_eq_true'] at hkey
    obtain ⟨coin, hcoin⟩ := hsettled.paired pk hrow
    exact ⟨pk, hrow, hkey.1, hkey.2, coin, hcoin⟩

def firstKeyB : KeyB := ⟨[1], ascii "dm", ⟨fit 1184 [], fit 2400 []⟩, ⟨fit 1952 [], fit 4032 []⟩, 0⟩

def firstTurn (sent : Bool) (ending : Ending) : Turn (ByteArr 32) := ⟨0, fun i => fit 32 [UInt8.ofNat i], sent, ending⟩

def firstPublications : List (PrekeyEvent (ByteArr 32)) :=
  [.setKeyA (fit 4032 []), .insertKeyB firstKeyB, .replenish (fun _ => firstTurn true .saved), .publish (fun _ => true), .die, .bundle [1]]

/-- A first batch, a record, a restart and a contact request. -/
theorem offers_settle_restart : (firstPublications.foldl (next (fit 32) paddingKem {}) {}).offers.Pairwise
    (fun o o' => o.keyBId = o'.keyBId → Precedes 5 o.prekeys o'.prekeys) := by
  have hharmless : ∀ s, ∀ kb ∈ s.mem.keyBs.rows, (firstTurn true .saved).Harmless s := fun _ _ _ h => nomatch h
  have hrun : Along (next (fit 32) paddingKem {}) NothingLost {} firstPublications :=
    ⟨trivial, trivial, hharmless _, trivial, rfl, trivial, trivial⟩
  exact (offers_settle (fit 32) paddingKem {} firstPublications hrun).1

/-! ## A process that dies before it saves -/

section Lost
variable {Ct SS Coin : Type} {sha3 : Bytes → ByteArr 32} {kem : Kem (ByteArr 1184) (ByteArr 2400) Ct SS Coin} {cfg : PrekeyConfig}
  {s s' : Holding} {t : Turn Coin} {keyBId : Bytes} {pub : ByteArr 1184}

/-- No keystore has the key. -/
def Missing (pub : ByteArr 1184) (s : Holding) : Prop := (∀ pk ∈ s.mem.prekeys.rows, pk.kemPubkey ≠ pub) ∧ ∀ pk ∈ s.disk.prekeys.rows, pk.kemPubkey ≠ pub

def NeverDraws (kem : Kem (ByteArr 1184) (ByteArr 2400) Ct SS Coin) (pub : ByteArr 1184) : PrekeyEvent Coin → Prop
  | .replenish turn => ∀ keyBId i, (kem.keygen ((turn keyBId).draws i)).pub ≠ pub
  | _ => True

def Due (cfg : PrekeyConfig) (s : Holding) (kb : KeyB) : Prop := (s.mem.countPrekeys kb.id : ℤ) < cfg.prekeyLowThreshold

theorem missing_insertBatch {ks : PrekeyKeys} {n : ℕ} (h : ∀ pk ∈ ks.prekeys.rows, pk.kemPubkey ≠ pub)
    (hdraws : ∀ i, (kem.keygen (t.draws i)).pub ≠ pub) : ∀ pk ∈ (insertBatch sha3 kem t keyBId n ks).prekeys.rows, pk.kemPubkey ≠ pub := by
  intro pk hpk
  obtain hold | ⟨i, rfl⟩ := mem_insertBatch hpk
  · exact h pk hold
  · exact hdraws i

theorem missing_replenishKeyB (h : Missing pub s) (hdraws : ∀ i, (kem.keygen (t.draws i)).pub ≠ pub) :
    Missing pub (replenishKeyB sha3 kem cfg t s keyBId).1 := by
  unfold replenishKeyB
  split
  · exact h
  · have hbatch : ∀ pk ∈ (insertBatch sha3 kem t keyBId cfg.prekeyBatchSize.toNat s.mem).prekeys.rows, pk.kemPubkey ≠ pub :=
      missing_insertBatch h.1 hdraws
    cases t.ending with
    | saved => exact ⟨hbatch, hbatch⟩
    | threw => exact ⟨hbatch, h.2⟩
    | died => exact ⟨h.2, h.2⟩

theorem missing_replenishPrekeys {turn : Bytes → Turn Coin} {kbs : List KeyB} (h : Missing pub s)
    (hdraws : ∀ keyBId i, (kem.keygen ((turn keyBId).draws i)).pub ≠ pub) : Missing pub (replenishPrekeys sha3 kem cfg turn s kbs) := by
  induction kbs generalizing s with
  | nil => exact h
  | cons kb kbs ih =>
    have hturn : Missing pub (replenishKeyB sha3 kem cfg (turn kb.id) s kb.id).1 := missing_replenishKeyB h (hdraws kb.id)
    unfold replenishPrekeys
    split
    · rename_i s' hs
      rw [hs] at hturn
      exact ih hturn
    · rename_i s' hs
      rw [hs] at hturn
      exact hturn

theorem missing_next {e : PrekeyEvent Coin} (h : Missing pub s) (he : NeverDraws kem pub e) : Missing pub (next sha3 kem cfg s e) := by
  cases e with
  | replenish turn => exact missing_replenishPrekeys h he
  | publish sent =>
    change Missing pub (publishPrekeys sent s)
    unfold publishPrekeys
    split
    · exact h
    · exact h
  | save => exact ⟨h.1, h.1⟩
  | die => exact ⟨h.2, h.2⟩
  | setKeyA priv | insertKeyB kb | bundle keyBId => exact h

theorem missing_foldl {es : List (PrekeyEvent Coin)} (h : Missing pub s) (hes : ∀ e ∈ es, NeverDraws kem pub e) :
    Missing pub (es.foldl (next sha3 kem cfg) s) := by
  induction es generalizing s with
  | nil => exact h
  | cons e es ih => exact ih (missing_next h (hes e List.mem_cons_self)) (fun e' he' => hes e' (List.mem_cons_of_mem e he'))

theorem replenishPrekeys_skip {turn : Bytes → Turn Coin} {kbs kbs' : List KeyB} (h : ∀ kb ∈ kbs, ¬Due cfg s kb) :
    replenishPrekeys sha3 kem cfg turn s (kbs ++ kbs') = replenishPrekeys sha3 kem cfg turn s kbs' := by
  induction kbs with
  | nil => rfl
  | cons kb kbs ih =>
    have hturn : replenishKeyB sha3 kem cfg (turn kb.id) s kb.id = (s, true) := if_pos (not_lt.mp (h kb List.mem_cons_self))
    rw [List.cons_append, replenishPrekeys, hturn]
    exact ih (fun kb' hkb' => h kb' (List.mem_cons_of_mem kb hkb'))

theorem replenishKeyB_died (hdue : (s.mem.countPrekeys keyBId : ℤ) < cfg.prekeyLowThreshold) (hdied : t.ending = .died) (hsent : t.sent = true)
    (hkeyA : s.mem.keyAPriv.isSome = true) : replenishKeyB sha3 kem cfg t s keyBId =
      (⟨s.disk, s.disk, s.offers ++ [(insertBatch sha3 kem t keyBId cfg.prekeyBatchSize.toNat s.mem).offer keyBId]⟩, false) := by
  unfold replenishKeyB
  rw [if_neg (not_le.mpr hdue)]
  dsimp only
  rw [hdied, keyAPriv_insertBatch, if_pos ⟨hkeyA, hsent⟩]

theorem first_mem_insertBatch {ks : PrekeyKeys} {n : ℕ} (hnew : ks.prekeys.find (newPrekey sha3 kem t keyBId 0).id = none) (hn : 0 < n) :
    newPrekey sha3 kem t keyBId 0 ∈ (insertBatch sha3 kem t keyBId n ks).prekeys.rows := by
  induction n, hn using Nat.le_induction with
  | base =>
    change _ ∈ (ks.prekeys.insertNew (newPrekey sha3 kem t keyBId 0)).1.rows
    rw [Table.rows_insertNew hnew]
    exact List.mem_append_right _ (List.mem_singleton_self _)
  | succ n _ ih =>
    rw [insertBatch_succ]
    obtain hrows | hrows := rows_insertPrekey (insertBatch sha3 kem t keyBId n ks) (newPrekey sha3 kem t keyBId n)
    · rw [hrows]
      exact ih
    · rw [hrows]
      exact List.mem_append_left _ ih

end Lost

/-- Where the process dies in a turn after the request, the first key of the batch has been given away, and no keystore ever has it again. -/
theorem died_turn_loses_key {Ct SS Coin : Type} (sha3 : Bytes → ByteArr 32) (kem : Kem (ByteArr 1184) (ByteArr 2400) Ct SS Coin) (cfg : PrekeyConfig)
    (s : Holding) (turn : Bytes → Turn Coin) (kbs : List KeyB) (kb : KeyB) (kbs' : List KeyB) (hrows : s.mem.keyBs.rows = kbs ++ kb :: kbs')
    (hskip : ∀ kb' ∈ kbs, ¬Due cfg s kb') (hdue : Due cfg s kb) (hkeyA : s.mem.keyAPriv.isSome = true) (hbatch : 0 < cfg.prekeyBatchSize)
    (hdied : (turn kb.id).ending = .died) (hsent : (turn kb.id).sent = true)
    (hnew : s.mem.prekeys.find (newPrekey sha3 kem (turn kb.id) kb.id 0).id = none)
    (hdisk : ∀ pk ∈ s.disk.prekeys.rows, pk.kemPubkey ≠ (kem.keygen ((turn kb.id).draws 0)).pub) :
    let pub := (kem.keygen ((turn kb.id).draws 0)).pub
    let s' := next sha3 kem cfg s (.replenish turn)
    (∃ o ∈ s'.offers, o.keyBId = kb.id ∧ pub ∈ o.prekeys) ∧
    ∀ es : List (PrekeyEvent Coin), (∀ e ∈ es, NeverDraws kem pub e) → Missing pub (es.foldl (next sha3 kem cfg) s') := by
  intro pub s'
  have hs' : s' = ⟨s.disk, s.disk,
      s.offers ++ [(insertBatch sha3 kem (turn kb.id) kb.id cfg.prekeyBatchSize.toNat s.mem).offer kb.id]⟩ := by
    change replenishPrekeys sha3 kem cfg turn s s.mem.keyBs.rows = _
    rw [hrows, replenishPrekeys_skip hskip, replenishPrekeys, replenishKeyB_died hdue hdied hsent hkeyA]
  rw [hs']
  constructor
  · refine ⟨_, List.mem_append_right _ (List.mem_singleton_self _), rfl, ?_⟩
    have hfirst := first_mem_insertBatch hnew (Int.lt_toNat.mpr hbatch)
    refine List.mem_map.mpr ⟨_, List.mem_filter.mpr ⟨hfirst, ?_⟩, rfl⟩
    exact Bool.and_eq_true_iff.mpr ⟨decide_eq_true rfl, rfl⟩
  · intro es hes
    exact missing_foldl ⟨hdisk, hdisk⟩ hes

def newKeys : PrekeyKeys := { keyAPriv := some (fit 4032 []), keyBs := Table.empty.insert firstKeyB rfl }

/-- The process dies in the first turn and starts again. -/
theorem died_turn_loses_key_first : Missing (paddingKem.keygen (fit 32 [0])).pub
    (next (fit 32) paddingKem {} (next (fit 32) paddingKem {} { mem := newKeys } (.replenish (fun _ => firstTurn true .died))) .save) := by
  have hlost := died_turn_loses_key (fit 32) paddingKem {} { mem := newKeys } (fun _ => firstTurn true .died) [] firstKeyB [] rfl
    (fun _ h => nomatch h) (show ((0 : ℕ) : ℤ) < 5 by decide) rfl (by decide) rfl rfl rfl (fun _ h => nomatch h)
  exact hlost.2 [.save] (fun e he => List.mem_singleton.mp he ▸ trivial)

end ScatterWeb.Client.Prekeys
