import ScatterWeb.Client.Publication
import ScatterWeb.Lib.Transition

/-! # Guard records in time

A guard record is for one timeslot of 1800 seconds. The records of the current slot and of the next one are published at unlock, and
again by `dht_loop` when it sees a new slot. `insert_key_b` publishes nothing, so a new Key B has no record until then. The clock
moves between any two steps of the thread, so a slot can also begin before the thread is ready for it. -/
namespace ScatterWeb.Client.Coverage
open Crypto Lib Lib.Cbor Dht Client AnonRouter
set_option autoImplicit false

def currentTimeslot (now : UInt64) : UInt64 := now / 1800

/-- What one call of `publish_dht_records` draws, and what `get_guard_info` gives it. -/
structure PublishTry where
  draw : Bytes → PublishDraw
  guard : GuardInfo

section Publish
variable {Sig : Type} (L : Dht.Library Sig) {τ : Type} (send : τ → UInt64 → UInt64 → Option (ByteArr 32 × Bytes) → τ) (p : PublishTry)
  (timeslot : UInt64) (ks : PublishKeys)

def publishKeyB (priv : ByteArr 4032) (sent : τ) (kb : KeyB) : τ :=
  let sent := send sent (p.draw kb.id).guardId 3600 (guardRecordFor L p.draw timeslot p.guard priv kb)
  if 0 < ks.countPrekeys kb.id then send sent (p.draw kb.id).prekeyId 604800 (prekeyRecordFor L p.draw ks priv kb) else sent

/-- `publish_dht_records` of a Client that is connected, for any way to send a record. -/
def publishDhtRecords (sent : τ) : τ :=
  match ks.keyAPriv with
  | none => sent
  | some priv => ks.keyBs.rows.foldl (publishKeyB L send p timeslot ks priv) sent

/-- With the requests to the router it is the function that publishes nothing. -/
theorem publishDhtRecords_router (junk : UInt64) (store : DhtStore) : publishDhtRecords L (publishRecord L junk) p timeslot ks store =
    Client.publishDhtRecords L p.draw junk timeslot p.guard ks true store := rfl

end Publish

/-- A publish that succeeds. -/
def taken (published : List (ByteArr 32 × Bytes)) (_id _ttlSeconds : UInt64) : Option (ByteArr 32 × Bytes) → List (ByteArr 32 × Bytes)
  | none => published
  | some record => published ++ [record]

/-- Where the thread of `dht_loop` is. -/
inductive Loop
  /-- `last_slot` has not been read, and unlock has published for the slot. -/
  | starting (ts : UInt64)
  | waiting (lastSlot : UInt64)
  /-- Before the first of the two calls of `publish_dht_records`. -/
  | publishing (nowSlot : UInt64)
  /-- Before the second one. -/
  | publishingNext (nowSlot : UInt64)

/-- The slot that was last read or published for. -/
def Loop.slot : Loop → UInt64
  | .starting ts => ts
  | .waiting lastSlot => lastSlot
  | .publishing nowSlot => nowSlot
  | .publishingNext nowSlot => nowSlot

/-- An unlocked Client. `iterated` is when the loop last read the clock. -/
structure State where
  now : UInt64
  keyBs : Table KeyB.id
  prekeys : Table KeyDPrekey.id
  published : List (ByteArr 32 × Bytes)
  loop : Loop
  iterated : UInt64

inductive Event
  | tick (now : UInt64)
  /-- A contact request or a new group. -/
  | insertKeyB (kb : KeyB)
  /-- Prekeys are added or consumed. -/
  | setPrekeys (prekeys : Table KeyDPrekey.id)
  /-- The thread reads `last_slot`. -/
  | start
  /-- The thread wakes and reads the clock. -/
  | iterate
  /-- The next call of `publish_dht_records`. -/
  | publish (p : PublishTry)

section Run
variable {Sig : Type} (L : Dht.Library Sig) (priv : ByteArr 4032)

def State.publish (s : State) (p : PublishTry) (timeslot : UInt64) : State :=
  { s with published := publishDhtRecords L taken p timeslot ⟨some priv, s.keyBs, s.prekeys⟩ s.published }

/-- `connect_services` has published for the slot of the clock and the next one. -/
def unlocked (now : UInt64) (keyBs : Table KeyB.id) (prekeys : Table KeyDPrekey.id) (earlier : List (ByteArr 32 × Bytes)) (p p' : PublishTry) :
    State :=
  let ts := currentTimeslot now
  ((State.mk now keyBs prekeys earlier (.starting ts) now).publish L priv p ts).publish L priv p' (ts + 1)

def next (s : State) : Event → State
  | .tick now => { s with now := now }
  | .insertKeyB kb => { s with keyBs := (s.keyBs.insertNew kb).1 }
  | .setPrekeys prekeys => { s with prekeys := prekeys }
  | .start =>
    match s.loop with
    | .starting _ => { s with loop := .waiting (currentTimeslot s.now), iterated := s.now }
    | _ => s
  | .iterate =>
    match s.loop with
    | .waiting lastSlot =>
      let nowSlot := currentTimeslot s.now
      { s with loop := if nowSlot ≠ lastSlot then .publishing nowSlot else .waiting lastSlot, iterated := s.now }
    | _ => s
  | .publish p =>
    match s.loop with
    | .publishing nowSlot => { s.publish L priv p nowSlot with loop := .publishingNext nowSlot }
    | .publishingNext nowSlot => { s.publish L priv p (nowSlot + 1) with loop := .waiting nowSlot }
    | _ => s

/-- The clock does not go back, and does not pass 1800 seconds without the loop reading it. -/
def Timely (s : State) : Event → Prop
  | .tick now => s.now ≤ now ∧ ((∀ ts, s.loop ≠ .starting ts) → now.toNat < s.iterated.toNat + 1800)
  | _ => True

/-- A guard record of the Key B for the slot has been published. -/
def HasRecord (published : List (ByteArr 32 × Bytes)) (timeslot : UInt64) (kb : KeyB) : Prop :=
  ∃ env guard record, buildGuardRecord L env kb.kem.pub priv timeslot guard = some record ∧ record ∈ published

def HaveRecords (s : State) (timeslot : UInt64) : Prop := ∀ kb ∈ s.keyBs.rows, HasRecord L priv s.published timeslot kb

/-- Every Key B has a record for the current slot. -/
def Covered (s : State) : Prop := HaveRecords L priv s (currentTimeslot s.now)

/-- No Key B is new, and a slot begins only when the loop waits. -/
def Prepared (s : State) : Event → Prop
  | .insertKeyB kb => ∃ kb' ∈ s.keyBs.rows, kb'.id = kb.id
  | .tick now => (∀ lastSlot, s.loop ≠ .waiting lastSlot) → currentTimeslot now = s.loop.slot
  | _ => True

variable {L priv}

/-! ## What a publication leaves -/

section Records
variable {published : List (ByteArr 32 × Bytes)} {record : ByteArr 32 × Bytes}

theorem mem_taken (h : record ∈ published) (id ttlSeconds : UInt64) (r : Option (ByteArr 32 × Bytes)) :
    record ∈ taken published id ttlSeconds r := by
  cases r with
  | none => exact h
  | some r => exact List.mem_append_left _ h

theorem mem_publishKeyB (h : record ∈ published) (p : PublishTry) (timeslot : UInt64) (ks : PublishKeys) (kb : KeyB) :
    record ∈ publishKeyB L taken p timeslot ks priv published kb := by
  unfold publishKeyB
  dsimp only
  split_ifs
  · exact mem_taken (mem_taken h _ _ _) _ _ _
  · exact mem_taken h _ _ _

theorem mem_foldl_publishKeyB (h : record ∈ published) (p : PublishTry) (timeslot : UInt64) (ks : PublishKeys) (kbs : List KeyB) :
    record ∈ kbs.foldl (publishKeyB L taken p timeslot ks priv) published := by
  induction kbs generalizing published with
  | nil => exact h
  | cons kb kbs ih => exact ih (mem_publishKeyB h p timeslot ks kb)

theorem mem_publishKeyB_guard (hload : Loads L.load) (p : PublishTry) (timeslot : UInt64) (ks : PublishKeys) (kb : KeyB) :
    ∃ record, buildGuardRecord L (p.draw kb.id).guardEnv kb.kem.pub priv timeslot p.guard = some record ∧
      record ∈ publishKeyB L taken p timeslot ks priv published kb := by
  obtain ⟨value, hbuilt, _⟩ := buildGuardRecord_unreadable hload (p.draw kb.id).guardEnv kb.kem.pub priv timeslot p.guard
  refine ⟨_, hbuilt, ?_⟩
  have hmem : (guardDhtKey L kb.kem.pub timeslot, value) ∈
      taken published (p.draw kb.id).guardId 3600 (guardRecordFor L p.draw timeslot p.guard priv kb) := by
    unfold guardRecordFor
    rw [hbuilt]
    exact List.mem_append_right _ (List.mem_singleton.mpr rfl)
  unfold publishKeyB
  dsimp only
  split_ifs
  · exact mem_taken hmem _ _ _
  · exact hmem

theorem hasRecord_foldl_publishKeyB (hload : Loads L.load) (p : PublishTry) (timeslot : UInt64) (ks : PublishKeys) {kbs : List KeyB} {kb : KeyB}
    (hkb : kb ∈ kbs) : HasRecord L priv (kbs.foldl (publishKeyB L taken p timeslot ks priv) published) timeslot kb := by
  induction kbs generalizing published with
  | nil => cases hkb
  | cons kb' kbs ih =>
    rw [List.foldl_cons]
    obtain rfl | hkb := List.mem_cons.mp hkb
    · obtain ⟨record, hbuilt, hmem⟩ := mem_publishKeyB_guard hload p timeslot ks kb
      exact ⟨_, _, record, hbuilt, mem_foldl_publishKeyB hmem p timeslot ks kbs⟩
    · exact ih hkb

end Records

section Publication
variable {s : State} {p : PublishTry} {timeslot timeslot' : UInt64}

theorem haveRecords_publish (hload : Loads L.load) : HaveRecords L priv (s.publish L priv p timeslot) timeslot :=
  fun _ hkb => hasRecord_foldl_publishKeyB hload p timeslot _ hkb

theorem HaveRecords.publish (h : HaveRecords L priv s timeslot) : HaveRecords L priv (s.publish L priv p timeslot') timeslot := by
  intro kb hkb
  obtain ⟨env, guard, record, hbuilt, hmem⟩ := h kb hkb
  exact ⟨env, guard, record, hbuilt, mem_foldl_publishKeyB hmem p timeslot' _ _⟩

end Publication

/-! ## What is ready for the next slot -/

theorem currentTimeslot_cases {t t' : UInt64} (hle : t ≤ t') (hlt : t'.toNat < t.toNat + 1800) :
    currentTimeslot t' = currentTimeslot t ∨ currentTimeslot t' = currentTimeslot t + 1 := by
  have hle' : t.toNat ≤ t'.toNat := UInt64.le_iff_toNat_le.mp hle
  have hbound := t'.toNat_lt
  have hdiv : ∀ t : UInt64, (currentTimeslot t).toNat = t.toNat / 1800 := fun t => UInt64.toNat_div t 1800
  have hnext : (currentTimeslot t + 1).toNat = t.toNat / 1800 + 1 := by
    rw [UInt64.toNat_add, hdiv]
    exact Nat.mod_eq_of_lt (by change t.toNat / 1800 + 1 < 2 ^ 64; omega)
  rw [← UInt64.toNat_inj, ← UInt64.toNat_inj, hdiv, hdiv, hnext]
  omega

/-- There are records for the slot the loop is in, for the next one unless they are being published, and the clock is in step. -/
structure Ready (L : Dht.Library Sig) (priv : ByteArr 4032) (s : State) : Prop where
  records : HaveRecords L priv s s.loop.slot
  following : (∀ slot, s.loop ≠ .publishing slot) → (∀ slot, s.loop ≠ .publishingNext slot) → HaveRecords L priv s (s.loop.slot + 1)
  within : (∀ slot, s.loop ≠ .waiting slot) → currentTimeslot s.now = s.loop.slot
  iterated : (∀ slot, s.loop ≠ .starting slot) →
    currentTimeslot s.iterated = s.loop.slot ∧ s.iterated ≤ s.now ∧ s.now.toNat < s.iterated.toNat + 1800

section Steps
variable {s : State}

theorem Ready.covered (h : Ready L priv s) : Covered L priv s := by
  unfold Covered
  cases hloop : s.loop with
  | waiting lastSlot =>
    obtain ⟨hslot, hle, hlt⟩ := h.iterated (by simp [hloop])
    obtain hnow | hnow := currentTimeslot_cases hle hlt
    · rw [hnow, hslot]
      exact h.records
    · rw [hnow, hslot]
      exact h.following (by simp [hloop]) (by simp [hloop])
  | _ =>
    rw [h.within (by simp [hloop])]
    exact h.records

theorem ready_unlocked (hload : Loads L.load) (now : UInt64) (keyBs : Table KeyB.id) (prekeys : Table KeyDPrekey.id)
    (earlier : List (ByteArr 32 × Bytes)) (p p' : PublishTry) : Ready L priv (unlocked L priv now keyBs prekeys earlier p p') where
  records := (haveRecords_publish hload).publish
  following := fun _ _ => haveRecords_publish hload
  within := fun _ => rfl
  iterated := fun h => absurd rfl (h (currentTimeslot now))

/-- The thread reads the clock in a slot that has records. -/
theorem ready_read (h : Covered L priv s) {loop : Loop} (hslot : loop.slot = currentTimeslot s.now)
    (hfollowing : (∀ slot, loop ≠ .publishing slot) → HaveRecords L priv s (loop.slot + 1)) :
    Ready L priv { s with loop := loop, iterated := s.now } where
  records := by
    dsimp only
    rw [hslot]
    exact h
  following := fun hne _ => hfollowing hne
  within := fun _ => hslot.symm
  iterated := fun _ => ⟨hslot.symm, UInt64.le_refl _, Nat.lt_add_of_pos_right (by decide)⟩

theorem ready_start (h : Ready L priv s) : Ready L priv (next L priv s .start) := by
  cases hloop : s.loop with
  | starting ts =>
    have hnext : next L priv s .start = { s with loop := .waiting (currentTimeslot s.now), iterated := s.now } := by
      unfold next
      rw [hloop]
    have hnow : currentTimeslot s.now = s.loop.slot := h.within (by simp [hloop])
    have hfollowing := h.following (by simp [hloop]) (by simp [hloop])
    rw [← hnow] at hfollowing
    rw [hnext]
    exact ready_read h.covered rfl (fun _ => hfollowing)
  | _ =>
    have hnext : next L priv s .start = s := by
      unfold next
      rw [hloop]
    rw [hnext]
    exact h

theorem ready_iterate (h : Ready L priv s) : Ready L priv (next L priv s .iterate) := by
  cases hloop : s.loop with
  | waiting lastSlot =>
    by_cases hlast : currentTimeslot s.now = lastSlot
    · have hnext : next L priv s .iterate = { s with loop := .waiting lastSlot, iterated := s.now } := by
        unfold next
        rw [hloop]
        dsimp only
        rw [if_neg (not_ne_iff.mpr hlast)]
      have hfollowing := h.following (by simp [hloop]) (by simp [hloop])
      rw [hloop] at hfollowing
      rw [hnext]
      exact ready_read h.covered hlast.symm (fun _ => hfollowing)
    · have hnext : next L priv s .iterate = { s with loop := .publishing (currentTimeslot s.now), iterated := s.now } := by
        unfold next
        rw [hloop]
        dsimp only
        rw [if_pos hlast]
      rw [hnext]
      exact ready_read h.covered rfl (fun hne => absurd rfl (hne (currentTimeslot s.now)))
  | _ =>
    have hnext : next L priv s .iterate = s := by
      unfold next
      rw [hloop]
    rw [hnext]
    exact h

theorem ready_publish (hload : Loads L.load) (h : Ready L priv s) (p : PublishTry) : Ready L priv (next L priv s (.publish p)) := by
  cases hloop : s.loop with
  | publishing nowSlot =>
    have hnext : next L priv s (.publish p) = { s.publish L priv p nowSlot with loop := .publishingNext nowSlot } := by
      unfold next
      rw [hloop]
    have hwithin := h.within (by simp [hloop])
    have hiterated := h.iterated (by simp [hloop])
    rw [hloop] at hwithin hiterated
    have hnew : HaveRecords L priv (s.publish L priv p nowSlot) nowSlot := haveRecords_publish hload
    rw [hnext]
    exact ⟨hnew, fun _ hne => absurd rfl (hne nowSlot), fun _ => hwithin, fun _ => hiterated⟩
  | publishingNext nowSlot =>
    have hnext : next L priv s (.publish p) = { s.publish L priv p (nowSlot + 1) with loop := .waiting nowSlot } := by
      unfold next
      rw [hloop]
    have hrecords := h.records
    have hiterated := h.iterated (by simp [hloop])
    rw [hloop] at hrecords hiterated
    have hnew : HaveRecords L priv (s.publish L priv p (nowSlot + 1)) (nowSlot + 1) := haveRecords_publish hload
    rw [hnext]
    exact ⟨hrecords.publish, fun _ _ => hnew, fun hne => absurd rfl (hne nowSlot), fun _ => hiterated⟩
  | _ =>
    have hnext : next L priv s (.publish p) = s := by
      unfold next
      rw [hloop]
    rw [hnext]
    exact h

/-- Each step of the loop, and each step beside it. -/
theorem ready_step (hload : Loads L.load) {e : Event} (h : Ready L priv s) (htimely : Timely s e) (hprepared : Prepared s e) :
    Ready L priv (next L priv s e) := by
  cases e with
  | tick now =>
    refine ⟨h.records, h.following, hprepared, ?_⟩
    intro hloop
    obtain ⟨hslot, hle, _⟩ := h.iterated hloop
    exact ⟨hslot, UInt64.le_trans hle htimely.1, htimely.2 hloop⟩
  | insertKeyB kb =>
    obtain ⟨kb', hmem, hid⟩ := hprepared
    have hfind : s.keyBs.find kb.id = some kb' := hid ▸ Table.find_of_mem hmem
    have hsame : next L priv s (.insertKeyB kb) = s := by
      unfold next
      dsimp only
      rw [Table.insertNew_of_find_some hfind]
    rw [hsame]
    exact h
  | setPrekeys prekeys => exact ⟨h.records, h.following, h.within, h.iterated⟩
  | start => exact ready_start h
  | iterate => exact ready_iterate h
  | publish p => exact ready_publish hload h p

end Steps

/-- A Key B under a new id is left without a record, if nothing is stored under its key. -/
theorem not_covered_insertKeyB {s : State} {kb : KeyB} (hload : Loads L.load) (hfind : s.keyBs.find kb.id = none)
    (hfresh : ∀ record ∈ s.published, record.1 ≠ guardDhtKey L kb.kem.pub (currentTimeslot s.now)) :
    ¬Covered L priv (next L priv s (.insertKeyB kb)) := by
  intro h
  have hmem : kb ∈ (s.keyBs.insertNew kb).1.rows := by
    rw [Table.rows_insertNew hfind]
    exact List.mem_append_right _ (List.mem_singleton.mpr rfl)
  obtain ⟨env, guard, record, hbuilt, hpublished⟩ := h kb hmem
  obtain ⟨value, hrecord, _⟩ := buildGuardRecord_unreadable hload env kb.kem.pub priv (currentTimeslot s.now) guard
  refine hfresh record hpublished ?_
  have hsame := hbuilt.symm.trans hrecord
  cases hsame
  rfl

/-- In every run without new Key Bs in which a slot begins only when the loop waits, every Key B has a record at every moment. -/
theorem covered_of_prepared (hload : Loads L.load) (now : UInt64) (keyBs : Table KeyB.id) (prekeys : Table KeyDPrekey.id)
    (earlier : List (ByteArr 32 × Bytes)) (p p' : PublishTry) {es : List Event}
    (h : Along (next L priv) (fun s e => Timely s e ∧ Prepared s e) (unlocked L priv now keyBs prekeys earlier p p') es) :
    Covered L priv (es.foldl (next L priv) (unlocked L priv now keyBs prekeys earlier p p')) := by
  have hready : Ready L priv (es.foldl (next L priv) (unlocked L priv now keyBs prekeys earlier p p')) :=
    along_foldl (Ready L priv) (fun s e hs he => ready_step hload hs he.1 he.2) (ready_unlocked hload now keyBs prekeys earlier p p') h
  exact hready.covered

end Run

/-! ## Two runs -/

def samplePriv : ByteArr 4032 := (Dht.sampleLibrary.dsa.keygen (fit 32 [1])).priv

def sampleTry : PublishTry := ⟨sampleDraw, sampleInfo⟩

/-- The loop starts, and publishes soon after the next slot has begun. -/
def nextSlot : List Event :=
  [.start, .tick 1799, .iterate, .tick 1810, .iterate, .publish sampleTry, .tick 1812, .publish sampleTry, .tick 3605]

theorem covered_of_prepared_nextSlot : Covered Dht.sampleLibrary samplePriv
    (nextSlot.foldl (next Dht.sampleLibrary samplePriv) (unlocked Dht.sampleLibrary samplePriv 5 oneKeyB.keyBs .empty [] sampleTry sampleTry)) := by
  refine covered_of_prepared load_loads 5 oneKeyB.keyBs .empty [] sampleTry sampleTry ?_
  have hread : ∀ {s : State} {lastSlot now : UInt64}, s.loop = .waiting lastSlot → s.now ≤ now → now.toNat < s.iterated.toNat + 1800 →
      Timely s (.tick now) ∧ Prepared s (.tick now) :=
    fun hloop hle hlt => ⟨⟨hle, fun _ => hlt⟩, fun hne => absurd hloop (hne _)⟩
  refine ⟨⟨trivial, trivial⟩, hread rfl (by decide) (by decide), ⟨trivial, trivial⟩, hread rfl (by decide) (by decide),
    ⟨trivial, trivial⟩, ⟨trivial, trivial⟩, ⟨⟨by decide, fun _ => by decide⟩, fun _ => by decide⟩, ⟨trivial, trivial⟩,
    hread rfl (by decide) (by decide), trivial⟩

/-- The first contact request after unlock. -/
theorem not_covered_contactRequest : ¬ ∀ (keyBs : Table KeyB.id) (es : List Event),
    Along (next Dht.sampleLibrary samplePriv) Timely (unlocked Dht.sampleLibrary samplePriv 5 keyBs .empty [] sampleTry sampleTry) es →
      Covered Dht.sampleLibrary samplePriv
        (es.foldl (next Dht.sampleLibrary samplePriv) (unlocked Dht.sampleLibrary samplePriv 5 keyBs .empty [] sampleTry sampleTry)) := by
  intro h
  let kb : KeyB := ⟨ascii "b1", ascii "dm:b1", ⟨fit 1184 [3], fit 2400 [4]⟩, Dht.sampleLibrary.dsa.keygen (fit 32 [2]), 80⟩
  refine not_covered_insertKeyB load_loads rfl ?_ (h .empty [.insertKeyB kb] ⟨trivial, trivial⟩)
  intro record hrecord
  cases hrecord

end ScatterWeb.Client.Coverage
