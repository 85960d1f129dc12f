import ScatterWeb.Inbox.Store
import ScatterWeb.Lib.Connection

/-! # Replacing a table

`replace_known_outboxes` and `replace_allowed_senders` delete all rows and insert the new ones in a transaction, whose guard rolls back what was
not committed. They differ in the table and in what a row needs beside a new key: both blobs of an outbox must not be empty. -/
namespace ScatterWeb.Inbox
open Crypto Lib Client Mailbox
set_option autoImplicit false

/-! ## One table of a database -/

/-- Where a table is in a database. -/
structure TableIn (δ : Type) {ρ κ : Type} (key : ρ → κ) where
  get : δ → Table key
  put : Table key → δ → δ
  get_put : ∀ t d, get (put t d) = t
  put_put : ∀ t t' d, put t (put t' d) = put t d

section Replace
variable {δ ρ κ : Type} [DecidableEq κ] {key : ρ → κ} (place : TableIn δ key) (ok : ρ → Bool)

/-- `DELETE FROM` without a condition. -/
def deleteRows : Statement δ := fun d => some (place.put .empty d)

/-- `INSERT INTO`, refused for a key that is taken and for a row that the columns do not take. -/
def insertRow (r : ρ) : Statement δ :=
  fun d => if h : (place.get d).find (key r) = none ∧ ok r then some (place.put ((place.get d).insert r h.1) d) else none

def replaceRows (list : List ρ) : List (Statement δ) := deleteRows place :: list.map (insertRow place ok)

variable {place ok} {t t' : Table key} {list : List ρ} {d : δ}

theorem applyAll_insertRow (list : List ρ) (d : δ) :
    applyAll (list.map (insertRow place ok)) (place.put t d) = (InboxStore.insertAll ok t list).toOption.map (fun t' => place.put t' d) := by
  induction list generalizing t with
  | nil => rfl
  | cons r list ih =>
    rw [List.map_cons, applyAll_cons, InboxStore.insertAll]
    by_cases h : t.find (key r) = none ∧ ok r
    · have hrow : insertRow place ok r (place.put t d) = some (place.put (t.insert r h.1) d) := by
        unfold insertRow
        simp only [place.get_put, place.put_put]
        rw [dif_pos h]
      rw [hrow, Option.bind_some, ih, dif_pos h]
    · have hrow : insertRow place ok r (place.put t d) = none := by
        unfold insertRow
        simp only [place.get_put]
        rw [dif_neg h]
      rw [hrow, Option.bind_none, dif_neg h]
      rfl

/-- The statements put the new table in the place of the old one. -/
theorem applyAll_replaceRows (list : List ρ) (d : δ) : applyAll (replaceRows place ok list) d =
    (InboxStore.insertAll ok .empty list).toOption.map (fun t => place.put t d) := applyAll_insertRow list d

theorem rows_insertAll (h : InboxStore.insertAll ok t list = .ok t') : t'.rows = t.rows ++ list := by
  induction list generalizing t with
  | nil =>
    cases h
    exact (List.append_nil _).symm
  | cons r list ih =>
    rw [InboxStore.insertAll] at h
    split at h
    · rename_i hr
      rw [ih h]
      exact List.append_assoc t.rows [r] list
    · cases h

/-- Rows with new keys that the columns take are all inserted. -/
theorem exists_insertAll (hkeys : ((t.rows ++ list).map key).Nodup) (hok : ∀ r ∈ list, ok r = true) :
    ∃ t', InboxStore.insertAll ok t list = .ok t' := by
  induction list generalizing t with
  | nil => exact ⟨t, rfl⟩
  | cons r list ih =>
    have hnew : t.find (key r) = none := by
      rw [Table.find_eq_none_iff]
      intro r' hr' heq
      rw [List.map_append, List.map_cons] at hkeys
      exact (List.nodup_append.mp hkeys).2.2 (key r') (List.mem_map_of_mem hr') (key r) List.mem_cons_self heq
    rw [InboxStore.insertAll, dif_pos ⟨hnew, hok r List.mem_cons_self⟩]
    refine ih ?_ (fun r' hr' => hok r' (List.mem_cons_of_mem r hr'))
    change ((t.rows ++ [r] ++ list).map key).Nodup
    rwa [List.append_assoc]

/-- A replacement that returns has put exactly the list there, and one that does not has changed nothing. -/
structure AllOrNothing (place : TableIn δ key) (ok : ρ → Bool) (d : δ) (list : List ρ) (fates : List Fate) (r : Conn δ × Option Exit) : Prop where
  returned : r.2 = none → ∃ t : Table key, t.rows = list ∧ r.1 = ⟨place.put t d, none⟩
  kept : r.2 ≠ none → r.1 = ⟨d, none⟩
  threw : r.2 = some .threw → ¬(list.map key).Nodup ∨ (∃ row ∈ list, ok row = false) ∨ Fails fates
  stopped : r.2 = some .stopped → Fails fates

theorem allOrNothing_transaction (place : TableIn δ key) (ok : ρ → Bool) (d : δ) (list : List ρ) (fates : List Fate) :
    AllOrNothing place ok d list fates (Conn.transaction ⟨d, none⟩ (replaceRows place ok list) fates) := by
  have hend := transacted_of_transaction d (replaceRows place ok list) fates
  revert hend
  generalize Conn.transaction ⟨d, none⟩ (replaceRows place ok list) fates = r
  rintro (happly | hwhy | hfails)
  · rw [applyAll_replaceRows] at happly
    obtain ⟨t, ht, rfl⟩ := Option.map_eq_some_iff.mp happly
    refine ⟨fun _ => ⟨t, ?_, rfl⟩, fun h => absurd rfl h, fun h => (nomatch h), fun h => (nomatch h)⟩
    cases hall : InboxStore.insertAll ok (Table.empty : Table key) list with
    | error e =>
      rw [hall] at ht
      cases ht
    | ok t' =>
      rw [hall] at ht
      cases ht
      exact rows_insertAll hall
  · refine ⟨fun h => (nomatch h), fun _ => rfl, fun _ => ?_, fun h => (nomatch h)⟩
    by_contra hno
    rw [not_or, not_or, not_not] at hno
    obtain ⟨hkeys, hok, hfails⟩ := hno
    have hall : ∀ row ∈ list, ok row = true := by
      intro row hrow
      by_contra hrefused
      exact hok ⟨row, hrow, Bool.eq_false_iff.mpr hrefused⟩
    obtain ⟨t', ht'⟩ := exists_insertAll (t := .empty) hkeys hall
    rw [applyAll_replaceRows, ht'] at hwhy
    obtain hnone | hfails' := hwhy
    · cases hnone
    · exact hfails hfails'
  · exact ⟨fun h => (nomatch h), fun _ => rfl, fun h => (nomatch h), fun _ => hfails⟩

end Replace

/-! ## The two tables of the inbox -/

def knownOutboxesIn : TableIn InboxStore KnownOutbox.keyCPubkey where
  get s := s.knownOutboxes
  put t s := { s with knownOutboxes := t }
  get_put _ _ := rfl
  put_put _ _ _ := rfl

def allowedSendersIn : TableIn InboxStore (id : Bytes → Bytes) where
  get s := s.allowedSenders
  put t s := { s with allowedSenders := t }
  get_put _ _ := rfl
  put_put _ _ _ := rfl

/-- Both blobs are there. -/
def hasBlobs (o : KnownOutbox) : Bool := o.keyCPubkey ≠ [] ∧ o.authCert ≠ []

/-- `replace_known_outboxes`, with what becomes of each call of the database. -/
def replaceKnownOutboxesOn (conn : Conn InboxStore) (list : List KnownOutbox) (fates : List Fate) : Conn InboxStore × Option Exit :=
  conn.transaction (replaceRows knownOutboxesIn hasBlobs list) fates

def replaceAllowedSendersOn (conn : Conn InboxStore) (ids : List Bytes) (fates : List Fate) : Conn InboxStore × Option Exit :=
  conn.transaction (replaceRows allowedSendersIn (fun _ => true) ids) fates

/-- Either replacement does all or nothing. -/
theorem replace_all_or_nothing (s : InboxStore) (list : List KnownOutbox) (ids : List Bytes) (fates : List Fate) :
    AllOrNothing knownOutboxesIn hasBlobs s list fates (replaceKnownOutboxesOn ⟨s, none⟩ list fates) ∧
      AllOrNothing allowedSendersIn (fun _ => true) s ids fates (replaceAllowedSendersOn ⟨s, none⟩ ids fates) :=
  ⟨allOrNothing_transaction knownOutboxesIn hasBlobs s list fates, allOrNothing_transaction allowedSendersIn (fun _ => true) s ids fates⟩

theorem map_eq_ok_iff {ε α β : Type} {x : Except ε α} {f : α → β} {b : β} : x.map f = .ok b ↔ x.toOption.map f = some b := by
  cases x with
  | error e => exact iff_of_false (fun h => nomatch h) (fun h => nomatch h)
  | ok a =>
    constructor
    · intro h
      cases h
      rfl
    · intro h
      cases h
      rfl

/-- Where the database does its part, a replacement is what the request makes of it. -/
theorem replaceKnownOutboxes_ok_iff {s s' : InboxStore} {list : List KnownOutbox} :
    s.replaceKnownOutboxes list = .ok s' ↔ replaceKnownOutboxesOn ⟨s, none⟩ list [] = (⟨s', none⟩, none) := by
  unfold replaceKnownOutboxesOn InboxStore.replaceKnownOutboxes
  rw [transaction_returned_iff, applyAll_replaceRows]
  exact map_eq_ok_iff

theorem replaceAllowedSenders_ok_iff {s s' : InboxStore} {ids : List Bytes} :
    s.replaceAllowedSenders ids = .ok s' ↔ replaceAllowedSendersOn ⟨s, none⟩ ids [] = (⟨s', none⟩, none) := by
  unfold replaceAllowedSendersOn InboxStore.replaceAllowedSenders
  rw [transaction_returned_iff, applyAll_replaceRows]
  exact map_eq_ok_iff

/-- An outbox without a certificate is refused though no key occurs twice and the database does its part; and where the disk is full and the
transaction is gone with the statement that failed, the rollback throws in a destructor, so that the process ends. -/
theorem replace_throws_and_ends :
    (¬∀ (s : InboxStore) (list : List KnownOutbox) (fates : List Fate), (replaceKnownOutboxesOn ⟨s, none⟩ list fates).2 = some .threw →
      ¬(list.map KnownOutbox.keyCPubkey).Nodup ∨ Fails fates) ∧
    ¬∀ (s : InboxStore) (ids : List Bytes) (fates : List Fate), Fate.stopped ∉ fates →
      (replaceAllowedSendersOn ⟨s, none⟩ ids fates).2 = none ∨ (replaceAllowedSendersOn ⟨s, none⟩ ids fates).2 = some .threw := by
  constructor
  · intro h
    obtain hkeys | hfails := h .empty [⟨[1], [], 0⟩] [] rfl
    · exact hkeys (List.nodup_singleton _)
    · exact not_fails_nil hfails
  · intro h
    have hends : (replaceAllowedSendersOn ⟨.empty, none⟩ [] [.done, .failedRolledBack]).2 = some .stopped := rfl
    have hexit := h .empty [] [.done, .failedRolledBack] (by decide)
    rw [hends] at hexit
    exact absurd hexit (by decide)

end ScatterWeb.Inbox
