import ScatterWeb.Client.AppFrame
import ScatterWeb.Lib.Register
import ScatterWeb.Lib.Transition

/-! # The status of an outgoing message

`on_outbox_status` and a `read_receipt` frame both write the column `status`, whatever is in it. So the status is that of the
event that was processed last, and the order of the events is without consequence only when they all write the same. A status
update that comes after the receipt takes the message from read back to delivered. -/
namespace ScatterWeb.Client
open Crypto Lib Lib.Cbor
set_option autoImplicit false

/-- News of one message: `outbox.status_update`, or a `read_receipt` frame. -/
inductive StatusEvent
  | outbox (status : Bytes) (updatedAt : Int64)
  | receipt (d : Delivery) (appFrameBytes : Bytes)

section Events
variable (load : Bytes → Option Item) (id : Bytes)

def processStatus (db : Store) : StatusEvent → Store
  | .outbox status updatedAt => (onOutboxStatus db id status updatedAt).1
  | .receipt d appFrameBytes =>
    match dispatchAppFrame load d (ascii "read_receipt") appFrameBytes db with
    | .ok (db', _) => db'
    | .error _ => db

/-- A receipt names the message that was read. -/
def StatusEvent.IsFor : StatusEvent → Prop
  | .outbox _ _ => True
  | .receipt _ appFrameBytes => id ≠ [] ∧ ∃ kvs, load appFrameBytes = some (.map kvs) ∧ cborGetFieldStr kvs "up_to_message_id" = id

def StatusEvent.written : StatusEvent → Bytes
  | .outbox status _ => messageStatus status
  | .receipt _ _ => ascii "read"

def storedStatus (db : Store) : Option Bytes := (db.getMessage id).map StoredMessage.status

/-- From read to delivered or pending, or from delivered to pending. -/
def MovesBack (old new : Bytes) : Prop :=
  (old = ascii "read" ∧ (new = ascii "delivered" ∨ new = ascii "pending")) ∨ (old = ascii "delivered" ∧ new = ascii "pending")

/-- The stored status does not move back in this step. -/
def KeepsUp (db : Store) (e : StatusEvent) : Prop :=
  ∀ old new, storedStatus id db = some old → storedStatus id (processStatus load id db e) = some new → ¬MovesBack old new

/-- In whatever order the events are processed, the status at the end is the same, and it never moves back. -/
structure OrderFree (db : Store) (E : Multiset StatusEvent) : Prop where
  sameEnd : ∀ es es' : List StatusEvent, (es : Multiset StatusEvent) = E → (es' : Multiset StatusEvent) = E →
    storedStatus id (es.foldl (processStatus load id) db) = storedStatus id (es'.foldl (processStatus load id) db)
  keepsUp : ∀ es : List StatusEvent, (es : Multiset StatusEvent) = E → Along (processStatus load id) (KeepsUp load id) db es

variable {load id} {db : Store} {m : StoredMessage} {E : Multiset StatusEvent}

/-! ## One event -/

theorem storedStatus_updateMessageStatus (db : Store) (id status : Bytes) :
    storedStatus id (db.updateMessageStatus id status) = (storedStatus id db).map (fun _ => cStr status) := by
  unfold storedStatus
  rw [db.getMessage_updateMessageStatus, Option.map_map, Option.map_map]
  rfl

/-- The texts that are written have no NUL. -/
theorem cStr_written (e : StatusEvent) : cStr e.written = e.written := by
  cases e with
  | outbox status updatedAt =>
    show cStr (messageStatus status) = messageStatus status
    unfold messageStatus
    split_ifs <;> decide
  | receipt d appFrameBytes => exact cStr_of_nulFree (show 0 ∉ ascii "read" by decide)

theorem storedStatus_processStatus {e : StatusEvent} (he : e.IsFor load id) (db : Store) :
    storedStatus id (processStatus load id db e) = (storedStatus id db).map (fun _ => e.written) := by
  rw [← cStr_written e]
  cases e with
  | outbox status updatedAt => exact storedStatus_updateMessageStatus db id (messageStatus status)
  | receipt d appFrameBytes =>
    obtain ⟨hne, kvs, hload, hid⟩ := he
    have hdispatch : processStatus load id db (.receipt d appFrameBytes) = db.updateMessageStatus id (ascii "read") := by
      have hstored : ascii "read_receipt" ∉ storedKinds.map ascii := by decide
      unfold processStatus dispatchAppFrame dispatchPairs
      dsimp only
      rw [hload]
      dsimp only
      rw [if_neg (by decide), if_neg (by decide), if_neg hstored, if_neg (by decide), if_pos rfl, hid, if_neg hne]
    rw [hdispatch, storedStatus_updateMessageStatus]
    rfl

/-! ## All orders -/

/-- The status is a register that every event overwrites. -/
theorem storedStatus_foldl {es : List StatusEvent} (hes : ∀ e ∈ es, e.IsFor load id) {old : Bytes} (hold : storedStatus id db = some old) :
    storedStatus id (es.foldl (processStatus load id) db) = some (overwrite StatusEvent.written old es) := by
  induction es generalizing db old with
  | nil => exact hold
  | cons e es ih =>
    have hnext : storedStatus id (processStatus load id db e) = some e.written := by
      rw [storedStatus_processStatus (hes e List.mem_cons_self), hold]
      rfl
    exact ih (fun e' he' => hes e' (List.mem_cons_of_mem e he')) hnext

/-- A status that all events agree on moves back in the first step or not at all. -/
theorem along_keepsUp {es : List StatusEvent} (hes : ∀ e ∈ es, e.IsFor load id) {old new : Bytes} (hold : storedStatus id db = some old)
    (hnew : ∀ e ∈ es, e.written = new) (hback : es ≠ [] → ¬MovesBack old new) : Along (processStatus load id) (KeepsUp load id) db es := by
  induction es generalizing db old with
  | nil => exact trivial
  | cons e es ih =>
    have he := hes e List.mem_cons_self
    have hnext : storedStatus id (processStatus load id db e) = some new := by
      rw [storedStatus_processStatus he, hold, Option.map_some, hnew e List.mem_cons_self]
    refine ⟨?_, ?_⟩
    · intro old' new' hold' hnew'
      rw [hold] at hold'
      rw [hnext] at hnew'
      cases hold'
      cases hnew'
      exact hback (List.cons_ne_nil e es)
    · refine ih (fun e' he' => hes e' (List.mem_cons_of_mem e he')) hnext (fun e' he' => hnew e' (List.mem_cons_of_mem e he')) ?_
      rintro _ (⟨hread, hless | hless⟩ | ⟨hread, hless⟩)
      all_goals
        rw [hread] at hless
        exact absurd hless (by decide)

/-- The order of the events does not matter, and the status never moves back, exactly when all events write one status and it is
not behind the one that is stored. -/
theorem status_orderFree_iff (hm : db.getMessage id = some m) (hE : ∀ e ∈ E, e.IsFor load id) :
    OrderFree load id db E ↔
      (∀ e ∈ E, ∀ e' ∈ E, e.written = e'.written) ∧ ∀ e ∈ E, ¬MovesBack m.status e.written := by
  have hstored : storedStatus id db = some m.status := congrArg (Option.map StoredMessage.status) hm
  have hend : ∀ es : List StatusEvent, (es : Multiset StatusEvent) = E →
      storedStatus id (es.foldl (processStatus load id) db) = some (overwrite StatusEvent.written m.status es) := by
    intro es hes
    refine storedStatus_foldl ?_ hstored
    intro e he
    exact hE e (hes ▸ he)
  constructor
  · rintro ⟨hsame, hkeeps⟩
    refine ⟨?_, ?_⟩
    · refine (overwrite_order_free_iff (a := m.status)).mp ?_
      intro es es' hes hes'
      have h := hsame es es' hes hes'
      rw [hend es hes, hend es' hes'] at h
      exact Option.some.inj h
    · intro e he
      obtain ⟨rest, rfl⟩ := Multiset.exists_cons_of_mem he
      induction rest using Quotient.inductionOn with
      | h rest =>
        obtain ⟨hfirst, _⟩ := hkeeps (e :: rest) rfl
        refine hfirst m.status e.written hstored ?_
        rw [storedStatus_processStatus (hE e he), hstored]
        rfl
  · rintro ⟨hwritten, hback⟩
    refine ⟨?_, ?_⟩
    · intro es es' hes hes'
      rw [hend es hes, hend es' hes']
      exact congrArg some (overwrite_order_free_iff.mpr hwritten es es' hes hes')
    · rintro es rfl
      cases es with
      | nil => exact trivial
      | cons e es =>
        have hall : ∀ e' ∈ e :: es, e'.written = e.written := fun e' he' => hwritten e' he' e List.mem_cons_self
        exact along_keepsUp hE hstored hall (fun _ => hback e List.mem_cons_self)

end Events

/-! ## A late status update -/

/-- A message that was sent and that the outbox still has. -/
def sentMessage : StoredMessage := ⟨ascii "07", [1], [8], 1, ascii "text", [10], [11], 0, 0, ascii "pending", []⟩

def readReceipt : Bytes := encode (.map [(.text (ascii "type"), .text (ascii "read_receipt")),
  (.text (ascii "up_to_message_id"), .text (ascii "07"))])

def lateReceipt : StatusEvent := .receipt ⟨[1], [9], [0], 0, fun _ => 0⟩ readReceipt

def lateDelivered : StatusEvent := .outbox (ascii "delivered") 0

def lateUpdate : Multiset StatusEvent := ([lateReceipt, lateDelivered] : List StatusEvent)

theorem lateUpdate_isFor : ∀ e ∈ lateUpdate, e.IsFor Cbor.load (ascii "07") := by
  intro e he
  rcases List.mem_cons.mp he with rfl | he
  · exact ⟨by decide, _, load_loads.load_encode _, rfl⟩
  · rw [List.mem_singleton.mp he]
    exact trivial

theorem status_orderFree_iff_lateUpdate :
    Store.getMessage ⟨[sentMessage], []⟩ (ascii "07") = some sentMessage ∧ (OrderFree Cbor.load (ascii "07") ⟨[sentMessage], []⟩ lateUpdate ↔
      (∀ e ∈ lateUpdate, ∀ e' ∈ lateUpdate, e.written = e'.written) ∧ ∀ e ∈ lateUpdate, ¬MovesBack sentMessage.status e.written) :=
  ⟨rfl, status_orderFree_iff rfl lateUpdate_isFor⟩

/-- A message that was read ends as delivered when the outbox is late with its news. -/
theorem not_orderFree_lateUpdate : ¬OrderFree Cbor.load (ascii "07") ⟨[sentMessage], []⟩ lateUpdate := by
  rintro ⟨hsame, _⟩
  have hswap : (([lateDelivered, lateReceipt] : List StatusEvent) : Multiset StatusEvent) = lateUpdate :=
    Multiset.coe_eq_coe.mpr (List.Perm.swap lateReceipt lateDelivered [])
  have hend : ∀ es : List StatusEvent, (es : Multiset StatusEvent) = lateUpdate →
      storedStatus (ascii "07") (es.foldl (processStatus Cbor.load (ascii "07")) ⟨[sentMessage], []⟩) =
        some (overwrite StatusEvent.written sentMessage.status es) := by
    intro es hes
    exact storedStatus_foldl (fun e he => lateUpdate_isFor e (hes ▸ he)) rfl
  have h := hsame [lateReceipt, lateDelivered] [lateDelivered, lateReceipt] rfl hswap
  rw [hend _ rfl, hend _ hswap] at h
  exact absurd h (by decide)

end ScatterWeb.Client
