import Mathlib.Data.List.TakeWhile
import ScatterWeb.Client.Numbering
import ScatterWeb.Lib.Paging
import ScatterWeb.Mailbox.Frames

/-! # The history of a conversation, page by page

`list_messages` returns the latest messages before a number; 0 asks for the latest of all. The pages together are the rows of the
conversation as they are read, each once; a row that has a NUL in a text is read as another one. `messages_get` takes the number and
the size of a page from a request, where both are unsigned 64-bit integers, and narrows them first. -/
namespace ScatterWeb.Client
open Crypto Lib Lib.Cbor Mailbox ScatterWeb.Client.Numbering
set_option autoImplicit false

/-- `ORDER BY seq DESC`. -/
def Later (a b : StoredMessage) : Prop := b.seq ≤ a.seq

instance : DecidableRel Later := fun a b => inferInstanceAs (Decidable (b.seq ≤ a.seq))

instance : Std.Total Later := ⟨fun a b => le_total b.seq a.seq⟩

instance : IsTrans StoredMessage Later := ⟨fun _ _ _ hab hbc => le_trans hbc hab⟩

namespace Store
variable (db : Store)

/-- The rows of the conversation before the number. -/
def rowsBefore (convId : Bytes) (beforeSeq : ℤ) : List StoredMessage :=
  db.messages.filter (fun m => decide (m.conversationId = convId ∧ (0 < beforeSeq → m.seq < beforeSeq)))

/-- A negative `LIMIT` is none. -/
def listMessages (convId : Bytes) (beforeSeq limit : ℤ) : List StoredMessage :=
  let rows := (db.rowsBefore convId beforeSeq).insertionSort Later
  (if limit < 0 then rows else rows.take limit.toNat).map StoredMessage.read

def rowsOf (convId : Bytes) : List StoredMessage := db.messages.filter (fun m => decide (m.conversationId = convId))

/-- All messages of a conversation, the latest first. -/
def history (convId : Bytes) : List StoredMessage := (db.rowsBefore convId 0).insertionSort Later

end Store

/-- No text of the row has a NUL. -/
def StoredMessage.NulFree (m : StoredMessage) : Prop :=
  0 ∉ m.id ∧ 0 ∉ m.conversationId ∧ 0 ∉ m.contentType ∧ 0 ∉ m.text ∧ 0 ∉ m.status ∧ 0 ∉ m.replyToId

/-- The stores that insertions with the next number and deletions lead to. Other columns may change too. -/
inductive Built : Store → Prop
  | start (conversations : List Conversation) : Built ⟨[], conversations⟩
  | insert {db db' : Store} {m : StoredMessage} {inserted : Bool} (h : Built db) (hseq : m.seq = db.nextSeq m.conversationId)
      (hins : db.insertMessage m = .ok (db', inserted)) : Built db'
  | delete {db : Store} (h : Built db) (id : Bytes) : Built (db.deleteMessage id)
  | update {db : Store} (h : Built db) (id : Bytes) {f : StoredMessage → StoredMessage} (hf : ∀ m, numberOf (f m) = numberOf m) :
      Built (db.updateMessage id f)

/-- The numbers of a conversation are positive and differ from each other. -/
structure Distinct (db : Store) : Prop where
  pos : ∀ m ∈ db.messages, 1 ≤ m.seq
  unique : db.messages.Pairwise (fun a b => numberOf a ≠ numberOf b)

section Numbers
variable {db : Store}

theorem distinct_insert {db' : Store} {m : StoredMessage} {inserted : Bool} (h : Distinct db) (hseq : m.seq = db.nextSeq m.conversationId)
    (hins : db.insertMessage m = .ok (db', inserted)) : Distinct db' := by
  unfold Store.insertMessage at hins
  split_ifs at hins
  · cases hins
    exact h
  · cases hins
    refine ⟨?_, List.pairwise_append.mpr ⟨h.unique, List.pairwise_singleton _ _, ?_⟩⟩
    · intro m' hm'
      obtain hold | hnew := List.mem_append.mp hm'
      · exact h.pos m' hold
      · rw [List.mem_singleton.mp hnew, hseq]
        exact one_le_nextSeq h.pos m.conversationId
    · intro a ha b hb heq
      rw [List.mem_singleton.mp hb] at heq
      have hlt := db.seq_lt_nextSeq ha
      rw [show a.conversationId = m.conversationId from congrArg Prod.fst heq, ← hseq] at hlt
      exact absurd (congrArg Prod.snd heq : a.seq = m.seq) hlt.ne

theorem distinct_of_built (h : Built db) : Distinct db := by
  induction h with
  | start conversations => exact ⟨fun m hm => (nomatch hm), List.Pairwise.nil⟩
  | insert _ hseq hins ih => exact distinct_insert ih hseq hins
  | delete _ id ih => exact ⟨fun m hm => ih.pos m (List.mem_of_mem_filter hm), ih.unique.filter _⟩
  | @update db _ id f hf ih =>
    have hsame : ∀ m, numberOf (if m.id = id then f m else m) = numberOf m := by
      intro m
      split_ifs
      · exact hf m
      · rfl
    refine ⟨?_, List.pairwise_map.mpr (ih.unique.imp ?_)⟩
    · intro m hm
      obtain ⟨old, hold, rfl⟩ := List.mem_map.mp hm
      have hseq := congrArg Prod.snd (hsame old)
      exact le_of_le_of_eq (ih.pos old hold) hseq.symm
    · intro a b hab
      rw [hsame, hsame]
      exact hab

/-! ## A page -/

theorem mem_rowsBefore {convId : Bytes} {beforeSeq : ℤ} {m : StoredMessage} :
    m ∈ db.rowsBefore convId beforeSeq ↔ m ∈ db.messages ∧ m.conversationId = convId ∧ (0 < beforeSeq → m.seq < beforeSeq) := by
  unfold Store.rowsBefore
  rw [List.mem_filter, decide_eq_true_iff]

theorem descending_rowsBefore (h : Distinct db) (convId : Bytes) (beforeSeq : ℤ) :
    Descending StoredMessage.seq ((db.rowsBefore convId beforeSeq).insertionSort Later) := by
  have hdistinct : ((db.rowsBefore convId beforeSeq).insertionSort Later).Pairwise (fun a b => numberOf a ≠ numberOf b) :=
    (List.perm_insertionSort Later _).symm.pairwise (h.unique.filter _) (fun hab => Ne.symm hab)
  have hconv : ∀ m ∈ (db.rowsBefore convId beforeSeq).insertionSort Later, m.conversationId = convId :=
    fun m hm => (mem_rowsBefore.mp ((List.mem_insertionSort Later).mp hm)).2.1
  refine ((List.pairwise_insertionSort Later (db.rowsBefore convId beforeSeq)).and hdistinct).imp_of_mem ?_
  rintro a b ha hb ⟨hlater, hne⟩
  refine lt_of_le_of_ne hlater ?_
  intro hseq
  exact hne (Prod.ext ((hconv a ha).trans (hconv b hb).symm) hseq.symm)

/-- What is left of the history before a number, as it is read. -/
def Store.left (db : Store) (convId : Bytes) (beforeSeq : ℤ) : List StoredMessage :=
  ((db.history convId).filter (fun m => decide (0 < beforeSeq → m.seq < beforeSeq))).map StoredMessage.read

theorem listMessages_eq (h : Distinct db) (convId : Bytes) (beforeSeq : ℤ) {limit : ℤ} (hlimit : 0 ≤ limit) :
    db.listMessages convId beforeSeq limit = (db.left convId beforeSeq).take limit.toNat := by
  have hperm : ((db.rowsBefore convId beforeSeq).insertionSort Later).Perm
      ((db.history convId).filter (fun m => decide (0 < beforeSeq → m.seq < beforeSeq))) := by
    have hfilter : (db.rowsBefore convId 0).filter (fun m => decide (0 < beforeSeq → m.seq < beforeSeq)) = db.rowsBefore convId beforeSeq := by
      unfold Store.rowsBefore
      rw [List.filter_filter]
      refine List.filter_congr ?_
      intro m _
      simp [Bool.and_comm]
    refine (List.perm_insertionSort Later _).trans ?_
    rw [← hfilter]
    exact ((List.perm_insertionSort Later _).symm).filter _
  unfold Store.listMessages Store.left
  dsimp only
  rw [if_neg (by omega), (descending_rowsBefore h convId beforeSeq).eq_of_perm ((descending_rowsBefore h convId 0).filter _) hperm,
    List.map_take]
  rfl

/-! ## All pages -/

/-- The number that the next page is asked for with. -/
def smallestSeq (page : List StoredMessage) : ℤ := ((page.map StoredMessage.seq).min?).getD 0

theorem smallestSeq_spec {page : List StoredMessage} (h : page ≠ []) : ∃ m ∈ page, smallestSeq page = m.seq ∧ ∀ m' ∈ page, m.seq ≤ m'.seq := by
  unfold smallestSeq
  cases hmin : (page.map StoredMessage.seq).min? with
  | none =>
    rw [List.min?_eq_none_iff, List.map_eq_nil_iff] at hmin
    exact absurd hmin h
  | some n =>
    obtain ⟨hmem, hle⟩ := List.min?_eq_some_iff.mp hmin
    obtain ⟨m, hm, rfl⟩ := List.mem_map.mp hmem
    exact ⟨m, hm, rfl, fun m' hm' => hle _ (List.mem_map_of_mem hm')⟩

/-- Reading from 0 until a page is empty ends, and gives every message of the conversation once, in descending order, and no other. -/
def HistoryExact (db : Store) (convId : Bytes) (limit : ℤ) : Prop :=
  ∃ ps, scroll (fun beforeSeq => db.listMessages convId beforeSeq limit) smallestSeq (db.messages.length + 1) 0 = some ps ∧
    Descending StoredMessage.seq ps.flatten ∧ ps.flatten.Perm (db.rowsOf convId)

theorem descending_read {rows : List StoredMessage} (h : Descending StoredMessage.seq rows) :
    Descending StoredMessage.seq (rows.map StoredMessage.read) := List.pairwise_map.mpr h

/-- Behind a page, the rows that are left are those behind its smallest number. -/
theorem left_smallestSeq (h : Distinct db) {convId : Bytes} {beforeSeq limit : ℤ} (hlimit : 1 ≤ limit)
    (hne : db.listMessages convId beforeSeq limit ≠ []) :
    db.left convId (smallestSeq (db.listMessages convId beforeSeq limit)) = (db.left convId beforeSeq).drop limit.toNat := by
  have hdesc : Descending StoredMessage.seq (db.history convId) := descending_rowsBefore h convId 0
  obtain ⟨last, hlast, hsmallest, hmin⟩ := smallestSeq_spec hne
  rw [listMessages_eq h convId beforeSeq (by omega), Store.left, ← List.map_take] at hlast hmin
  obtain ⟨row, hrow, rfl⟩ := List.mem_map.mp hlast
  have hmem := List.mem_filter.mp (List.mem_of_mem_take hrow)
  have hpos : 0 < row.seq := h.pos row (mem_rowsBefore.mp ((List.mem_insertionSort Later).mp hmem.1)).1
  have hrest := (hdesc.filter (fun m => decide (0 < beforeSeq → m.seq < beforeSeq))).filter_lt hrow
    (fun m hm => hmin m.read (List.mem_map_of_mem hm))
  have hseq : smallestSeq (db.listMessages convId beforeSeq limit) = row.seq := hsmallest
  unfold Store.left
  rw [hseq, ← List.map_drop, ← hrest, List.filter_filter]
  refine congrArg (List.map StoredMessage.read) (List.filter_congr ?_)
  intro m _
  have hbefore := of_decide_eq_true hmem.2
  by_cases hlt : m.seq < row.seq
  · have hm : decide (0 < beforeSeq → m.seq < beforeSeq) = true := decide_eq_true (fun hb => hlt.trans (hbefore hb))
    rw [decide_eq_true (fun _ : 0 < row.seq => hlt), decide_eq_true hlt, hm]
    rfl
  · simp [hlt, hpos]

/-- Reading page by page ends, and the pages are the rows of the conversation as they are read, each once and in descending order. -/
theorem history_pages (h : Built db) (convId : Bytes) {limit : ℤ} (hlimit : 1 ≤ limit) :
    ∃ (ps : List (List StoredMessage)) (rows : List StoredMessage),
      scroll (fun beforeSeq => db.listMessages convId beforeSeq limit) smallestSeq (db.messages.length + 1) 0 = some ps ∧
      Descending StoredMessage.seq ps.flatten ∧ ps.flatten = rows.map StoredMessage.read ∧ rows.Perm (db.rowsOf convId) := by
  have hdistinct := distinct_of_built h
  have hperm : (db.history convId).Perm (db.rowsOf convId) := by
    refine (List.perm_insertionSort Later _).trans (List.Perm.of_eq ?_)
    unfold Store.rowsBefore Store.rowsOf
    simp
  have hall : db.left convId 0 = (db.history convId).map StoredMessage.read := by
    unfold Store.left
    rw [List.filter_eq_self.mpr (fun m _ => by simp)]
  have hfuel : (db.left convId 0).length < db.messages.length + 1 := by
    rw [hall, List.length_map, hperm.length_eq]
    exact Nat.lt_succ_of_le (List.length_filter_le _ _)
  obtain ⟨ps, hps, hflat⟩ := scroll_spec (n := limit.toNat) (by omega) (fun c => listMessages_eq hdistinct convId c (by omega))
    (fun c hne => left_smallestSeq hdistinct hlimit hne) hfuel
  rw [hall] at hflat
  refine ⟨ps, db.history convId, hps, ?_, hflat, hperm⟩
  rw [hflat]
  exact descending_read (descending_rowsBefore hdistinct convId 0)

/-! ## Rows that come back -/

theorem length_cStr_le (b : Bytes) : (cStr b).length ≤ b.length := (List.takeWhile_prefix _).length_le

theorem cStr_eq_of_length {b : Bytes} (h : (cStr b).length = b.length) : cStr b = b := (List.takeWhile_prefix _).eq_of_length h

theorem cStr_eq_self_iff {b : Bytes} : cStr b = b ↔ 0 ∉ b := by
  refine ⟨?_, cStr_of_nulFree⟩
  intro h hzero
  rw [← h] at hzero
  have hne := List.mem_takeWhile_imp hzero
  simp at hne

namespace StoredMessage

theorem read_eq_self_iff {m : StoredMessage} : m.read = m ↔ m.NulFree := by
  obtain ⟨id, conv, sender, seq, kind, text, ct, sent, received, status, reply⟩ := m
  simp only [read, NulFree, mk.injEq, cStr_eq_self_iff, true_and]

/-- What the texts of a row take up. -/
def textSize (m : StoredMessage) : ℕ :=
  m.id.length + m.conversationId.length + m.contentType.length + m.text.length + m.status.length + m.replyToId.length

theorem textSize_read_le (m : StoredMessage) : m.read.textSize ≤ m.textSize := by
  have hle := length_cStr_le
  unfold textSize read
  have h₁ := hle m.id
  have h₂ := hle m.conversationId
  have h₃ := hle m.contentType
  have h₄ := hle m.text
  have h₅ := hle m.status
  have h₆ := hle m.replyToId
  dsimp only
  omega

theorem read_eq_of_textSize {m : StoredMessage} (h : m.read.textSize = m.textSize) : m.read = m := by
  have hle := length_cStr_le
  unfold textSize at h
  have h₁ := hle m.id
  have h₂ := hle m.conversationId
  have h₃ := hle m.contentType
  have h₄ := hle m.text
  have h₅ := hle m.status
  have h₆ := hle m.replyToId
  unfold read at h ⊢
  dsimp only at h
  rw [cStr_eq_of_length (b := m.id) (by omega), cStr_eq_of_length (b := m.conversationId) (by omega),
    cStr_eq_of_length (b := m.contentType) (by omega), cStr_eq_of_length (b := m.text) (by omega),
    cStr_eq_of_length (b := m.status) (by omega), cStr_eq_of_length (b := m.replyToId) (by omega)]

end StoredMessage

/-- The rows as they are read are the rows only if every one is. -/
theorem perm_read_iff {rows : List StoredMessage} : (rows.map StoredMessage.read).Perm rows ↔ ∀ m ∈ rows, m.NulFree := by
  constructor
  · intro h m hm
    exact StoredMessage.read_eq_self_iff.mp
      (eq_self_of_perm_map StoredMessage.textSize_read_le (fun _ => StoredMessage.read_eq_of_textSize) h m hm)
  · intro h
    have hself : rows.map StoredMessage.read = rows.map id :=
      List.map_congr_left (fun m hm => StoredMessage.read_eq_self_iff.mpr (h m hm))
    rw [hself, List.map_id]

/-- The pages are the messages of the conversation exactly when no text of such a message has a NUL. -/
theorem history_exact_iff (h : Built db) (convId : Bytes) {limit : ℤ} (hlimit : 1 ≤ limit) :
    HistoryExact db convId limit ↔ ∀ m ∈ db.messages, m.conversationId = convId → m.NulFree := by
  obtain ⟨ps, rows, hps, hdesc, hflat, hperm⟩ := history_pages h convId hlimit
  have hrows : (∀ m ∈ rows, m.NulFree) ↔ ∀ m ∈ db.messages, m.conversationId = convId → m.NulFree := by
    constructor
    · intro hfree m hm hconv
      exact hfree m (hperm.mem_iff.mpr (List.mem_filter.mpr ⟨hm, decide_eq_true hconv⟩))
    · intro hfree m hm
      obtain ⟨hmem, hconv⟩ := List.mem_filter.mp (hperm.mem_iff.mp hm)
      exact hfree m hmem (of_decide_eq_true hconv)
  rw [← hrows, ← perm_read_iff]
  constructor
  · rintro ⟨ps', hps', _, hperm'⟩
    obtain rfl := Option.some.inj (hps.symm.trans hps')
    rw [hflat] at hperm'
    exact hperm'.trans hperm.symm
  · intro hread
    refine ⟨ps, hps, hdesc, ?_⟩
    rw [hflat]
    exact hread.trans hperm

end Numbers

def numberedRow (id : Bytes) (seq : ℤ) : StoredMessage := ⟨id, [5], [8], seq, ascii "text", [10], [11], 0, 0, ascii "pending", []⟩

/-- Two messages, read one by one. -/
def twoRows : Store := ⟨[numberedRow [1] 1, numberedRow [2] 2], []⟩

theorem built_pair {id id' : Bytes} (hne : id ≠ id') : Built ⟨[numberedRow id 1, numberedRow id' 2], []⟩ := by
  have hone : Built ⟨[numberedRow id 1], []⟩ := .insert (m := numberedRow id 1) (.start []) rfl rfl
  refine .insert (m := numberedRow id' 2) hone rfl (Store.insertMessage_nextSeq _ ?_ rfl (List.cons_ne_nil 8 []) (List.cons_ne_nil 11 []))
  intro m hm
  rw [List.mem_singleton.mp hm]
  exact hne

theorem history_exact_iff_twoRows : HistoryExact twoRows [5] 1 ↔ ∀ m ∈ twoRows.messages, m.conversationId = [5] → m.NulFree :=
  history_exact_iff (built_pair (by decide)) [5] (le_refl 1)

/-- Two messages whose ids are the same up to a NUL. -/
def cutRows : Store := ⟨[numberedRow [1, 0, 2] 1, numberedRow [1, 0, 3] 2], []⟩

theorem not_historyExact_cutRows : ¬ ∀ db, Built db → ∀ (convId : Bytes) (limit : ℤ), 1 ≤ limit → HistoryExact db convId limit := by
  intro h
  have hbuilt : Built cutRows := built_pair (by decide)
  have hfree := (history_exact_iff hbuilt [5] (le_refl 1)).mp (h cutRows hbuilt [5] 1 (le_refl 1)) (numberedRow [1, 0, 2] 1)
    List.mem_cons_self rfl
  exact hfree.1 (by decide)

/-! ## Requests -/

/-- `before_id`, as a signed integer of the same size. -/
def beforeSeqOf (p : CborMap) : ℤ :=
  match p.find "before_id" with
  | some (.uint a) => (UInt64.ofNat a.toNat).toInt64.toInt
  | _ => 0

/-- `limit`, as an `int`. -/
def limitOf (p : CborMap) : ℤ :=
  match p.find "limit" with
  | some (.uint a) => (UInt64.ofNat a.toNat).toUInt32.toInt32.toInt
  | _ => 50

def pageLimit (p : CborMap) : ℤ := if 100 < limitOf p then 100 else limitOf p

def historyItem (m : StoredMessage) : Item :=
  .map [(.text (ascii "id"), .text m.id), (.text (ascii "conversation_id"), .text m.conversationId),
    (.text (ascii "seq"), .uint (.a64 (Int64.ofInt m.seq).toUInt64)), (.text (ascii "content_type"), .text m.contentType),
    (.text (ascii "text"), .text m.text), (.text (ascii "sender_id"), .text (bytesToHex m.senderId)),
    (.text (ascii "sent_at"), .uint (.a64 m.sentAt.toUInt64)), (.text (ascii "status"), .text m.status)]

def messagesReply (page : List StoredMessage) : Reply := [("messages", .array (page.map historyItem))]

def messagesGet (db : Store) (p : CborMap) : Except IpcError Reply :=
  match p.find "conversation_id" with
  | some (.text convId) => .ok (messagesReply (db.listMessages convId (beforeSeqOf p) (pageLimit p)))
  | _ => .error (.runtime (ascii "missing conversation_id"))

/-- At most a hundred messages, all before the number that was given. -/
structure Bounded (p : CborMap) (page : List StoredMessage) : Prop where
  size : page.length ≤ 100
  before : ∀ a, p.find "before_id" = some (.uint a) → 0 < a.toNat → ∀ m ∈ page, m.seq < a.toNat

section Requests
variable {db : Store} {p : CborMap} {convId : Bytes}

/-- The limit stays positive where bit 31 is not set. -/
theorem limitOf_nonneg_iff : 0 ≤ limitOf p ↔ ∀ a, p.find "limit" = some (.uint a) → a.toNat % 2 ^ 32 < 2 ^ 31 := by
  unfold limitOf
  split
  · rename_i a ha
    rw [toInt_toInt32, Int.bmod_def]
    constructor
    · intro hle a' ha'
      rw [ha] at ha'
      cases ha'
      omega
    · intro h
      have hlt := h a ha
      omega
  · rename_i hnone
    exact iff_of_true (by decide) (fun a ha => absurd ha (hnone a))

theorem mem_listMessages {beforeSeq limit : ℤ} {m : StoredMessage} (h : m ∈ db.listMessages convId beforeSeq limit) :
    ∃ row ∈ db.rowsBefore convId beforeSeq, m = row.read := by
  unfold Store.listMessages at h
  obtain ⟨row, hrow, rfl⟩ := List.mem_map.mp h
  refine ⟨row, ?_, rfl⟩
  split_ifs at hrow
  · exact (List.mem_insertionSort Later).mp hrow
  · exact (List.mem_insertionSort Later).mp (List.mem_of_mem_take hrow)

theorem length_listMessages_le_iff :
    (db.listMessages convId (beforeSeqOf p) (pageLimit p)).length ≤ 100 ↔ 0 ≤ limitOf p ∨ (db.rowsBefore convId (beforeSeqOf p)).length ≤ 100 := by
  unfold Store.listMessages pageLimit
  rw [List.length_map]
  by_cases hlimit : 0 ≤ limitOf p
  · refine iff_of_true ?_ (Or.inl hlimit)
    by_cases hlarge : 100 < limitOf p
    · rw [if_pos hlarge, if_neg (by omega), List.length_take]
      omega
    · rw [if_neg hlarge, if_neg (by omega), List.length_take]
      omega
  · have hsmall : ¬100 < limitOf p := by omega
    rw [if_neg hsmall, if_pos (not_le.mp hlimit), List.length_insertionSort]
    exact (or_iff_right hlimit).symm

/-- A number of 2^63 or more becomes negative, which is no filter; every message has a smaller number anyway. -/
theorem before_listMessages (hseq : ∀ m ∈ db.messages, m.seq < 2 ^ 63) {a : Arg} (ha : p.find "before_id" = some (.uint a)) (hpos : 0 < a.toNat)
    {m : StoredMessage} {limit : ℤ} (hm : m ∈ db.listMessages convId (beforeSeqOf p) limit) : m.seq < a.toNat := by
  obtain ⟨row, hrow, rfl⟩ := mem_listMessages hm
  obtain ⟨hmem, _, hbefore⟩ := mem_rowsBefore.mp hrow
  have hlt := hseq row hmem
  change row.seq < a.toNat
  have hcast : beforeSeqOf p = (a.toNat : ℤ).bmod (2 ^ 64) := by
    unfold beforeSeqOf
    rw [ha]
    exact toInt_toInt64 a.toNat
  rw [hcast, Int.bmod_def] at hbefore
  omega

/-- `messages.get` returns at most a hundred messages, all before the given number, if and only if the limit has not become negative or
there are no more than a hundred to return. -/
theorem messages_get_bounded_iff (hseq : ∀ m ∈ db.messages, m.seq < 2 ^ 63) (hconv : p.find "conversation_id" = some (.text convId)) :
    messagesGet db p = .ok (messagesReply (db.listMessages convId (beforeSeqOf p) (pageLimit p))) ∧
      (Bounded p (db.listMessages convId (beforeSeqOf p) (pageLimit p)) ↔
        (∀ a, p.find "limit" = some (.uint a) → a.toNat % 2 ^ 32 < 2 ^ 31) ∨ (db.rowsBefore convId (beforeSeqOf p)).length ≤ 100) := by
  constructor
  · unfold messagesGet
    rw [hconv]
  · rw [← limitOf_nonneg_iff, ← length_listMessages_le_iff]
    constructor
    · exact Bounded.size
    · intro hsize
      exact ⟨hsize, fun a ha hpos m hm => before_listMessages hseq ha hpos hm⟩

end Requests

/-- A request for the conversation of `numberedRow`. -/
def pageParams (limit : UInt64) : CborMap :=
  [(.text (ascii "conversation_id"), .text [5]), (.text (ascii "limit"), .uint (.a64 limit))]

theorem find_conversation_pageParams (limit : UInt64) : (pageParams limit).find "conversation_id" = some (.text [5]) := by
  simp [CborMap.find, lastField, lastWith, pageParams]

theorem find_limit_pageParams (limit : UInt64) : (pageParams limit).find "limit" = some (.uint (.a64 limit)) := by
  simp [CborMap.find, lastField, lastWith, pageParams]

theorem messages_get_bounded_iff_twoRows :
    Bounded (pageParams 10) (twoRows.listMessages [5] (beforeSeqOf (pageParams 10)) (pageLimit (pageParams 10))) := by
  refine (messages_get_bounded_iff ?_ (find_conversation_pageParams 10)).2.mpr (Or.inl ?_)
  · intro m hm
    obtain rfl | rfl : m = numberedRow [1] 1 ∨ m = numberedRow [2] 2 := by simpa [twoRows] using hm
    · decide
    · decide
  · intro a ha
    rw [find_limit_pageParams] at ha
    cases ha
    decide

/-- A conversation with 101 messages. -/
def manyRows : Store := ⟨(List.range 101).map (fun i => numberedRow [UInt8.ofNat i] (i + 1)), []⟩

/-- A limit of 2^31 is none. -/
theorem not_bounded_manyRows : ¬ ∀ (db : Store) (p : CborMap) (convId : Bytes), (∀ m ∈ db.messages, m.seq < 2 ^ 63) →
    p.find "conversation_id" = some (.text convId) → Bounded p (db.listMessages convId (beforeSeqOf p) (pageLimit p)) := by
  intro h
  have hseq : ∀ m ∈ manyRows.messages, m.seq < 2 ^ 63 := by
    intro m hm
    obtain ⟨i, hi, rfl⟩ := List.mem_map.mp hm
    have hlt := List.mem_range.mp hi
    change (i : ℤ) + 1 < 2 ^ 63
    omega
  have hsize := (h manyRows (pageParams 2147483648) [5] hseq (find_conversation_pageParams _)).size
  obtain hlimit | hrows := length_listMessages_le_iff.mp hsize
  · have hlt := limitOf_nonneg_iff.mp hlimit _ (find_limit_pageParams _)
    exact absurd hlt (by decide)
  · have hbefore : beforeSeqOf (pageParams 2147483648) = 0 := by
      have hnone : (pageParams 2147483648).find "before_id" = none := by
        simp [CborMap.find, lastField, lastWith, pageParams]
      unfold beforeSeqOf
      rw [hnone]
    have hall : manyRows.rowsBefore [5] 0 = manyRows.messages := by
      refine List.filter_eq_self.mpr ?_
      intro m hm
      obtain ⟨i, _, rfl⟩ := List.mem_map.mp hm
      simp [numberedRow]
    rw [hbefore, hall, manyRows, List.length_map, List.length_range] at hrows
    omega

end ScatterWeb.Client
