import Mathlib.Data.List.Basic

/-! # A connection to a database

Statements run one after another, each on its own or in a transaction, and any of them can be refused: a constraint refuses it for what is
stored, and the database for reasons of its own, which `Fate` lists. `transacted_of_transaction` is what a guard promises that begins a
transaction and rolls it back unless it was committed. -/
namespace ScatterWeb.Lib
set_option autoImplicit false

/-- What becomes of one call of the database. -/
inductive Fate
  | done
  /-- An error after which a transaction is still open. -/
  | failed
  /-- An error that takes the transaction with it, such as a full disk. -/
  | failedRolledBack
  /-- The process stops first. -/
  | stopped
  deriving DecidableEq

/-- How a call ends that does not return. -/
inductive Exit
  | threw
  | stopped
  deriving DecidableEq

/-- The contents on disk, and those that an open transaction sees. -/
structure Conn (δ : Type) where
  disk : δ
  pending : Option δ

/-- A statement, `none` where a constraint refuses it. -/
abbrev Statement (δ : Type) := δ → Option δ

namespace Conn
variable {δ : Type}

def view (c : Conn δ) : δ := c.pending.getD c.disk

def write (c : Conn δ) (d : δ) : Conn δ :=
  match c.pending with
  | none => ⟨d, none⟩
  | some _ => ⟨c.disk, some d⟩

def reopened (c : Conn δ) : Conn δ := ⟨c.disk, none⟩

/-- A call that would take the connection to `c'`, or that is refused. -/
def call (c : Conn δ) (c' : Option (Conn δ)) : Fate → Conn δ × Option Exit
  | .done =>
    match c' with
    | some c' => (c', none)
    | none => (c, some .threw)
  | .failed => (c, some .threw)
  | .failedRolledBack => (c.reopened, some .threw)
  | .stopped => (c.reopened, some .stopped)

def exec (c : Conn δ) (stmt : Statement δ) (fate : Fate) : Conn δ × Option Exit := c.call ((stmt c.view).map c.write) fate

def begin (c : Conn δ) (fate : Fate) : Conn δ × Option Exit :=
  c.call (if c.pending.isSome then none else some ⟨c.disk, some c.disk⟩) fate

def commit (c : Conn δ) (fate : Fate) : Conn δ × Option Exit := c.call (c.pending.map (fun d => ⟨d, none⟩)) fate

def rollback (c : Conn δ) (fate : Fate) : Conn δ × Option Exit := c.call (c.pending.map (fun _ => c.reopened)) fate

/-- Statements up to the first that does not return, and the fates of what comes after. -/
def execAll (c : Conn δ) : List (Statement δ) → List Fate → (Conn δ × Option Exit) × List Fate
  | [], fates => ((c, none), fates)
  | stmt :: stmts, fates =>
    match c.exec stmt (fates.headD .done) with
    | (c', none) => c'.execAll stmts fates.tail
    | (c', some e) => ((c', some e), fates.tail)

/-- The destructor of the guard, which must not throw: a rollback that does ends the process. -/
def unwind (c : Conn δ) (fate : Fate) : Conn δ × Option Exit :=
  match c.rollback fate with
  | (c', none) => (c', some .threw)
  | (c', some _) => (c'.reopened, some .stopped)

/-- What follows a call inside the guard. -/
def guarded (r : Conn δ × Option Exit) (fate : Fate) : Conn δ × Option Exit :=
  match r with
  | (c, some .threw) => c.unwind fate
  | (c, e) => (c, e)

/-- The statements in a transaction that is committed in the end. -/
def transaction (c : Conn δ) (stmts : List (Statement δ)) (fates : List Fate) : Conn δ × Option Exit :=
  match c.begin (fates.headD .done) with
  | (c', some e) => (c', some e)
  | (c', none) =>
    match c'.execAll stmts fates.tail with
    | ((c', some e), fates) => guarded (c', some e) (fates.headD .done)
    | ((c', none), fates) => guarded (c'.commit (fates.headD .done)) (fates.tail.headD .done)

end Conn

/-- All the statements, if none is refused for what is stored. -/
def applyAll {δ : Type} (stmts : List (Statement δ)) (d : δ) : Option δ := stmts.foldlM (fun d stmt => stmt d) d

/-- The database has refused a call, or the process has stopped. -/
def Fails (fates : List Fate) : Prop := ∃ fate ∈ fates, fate ≠ .done

/-- The end of a transaction over the contents `d`. -/
inductive Transacted {δ : Type} (d : δ) (stmts : List (Statement δ)) (fates : List Fate) : Conn δ × Option Exit → Prop
  | returned {d' : δ} : applyAll stmts d = some d' → Transacted d stmts fates (⟨d', none⟩, none)
  | threw : applyAll stmts d = none ∨ Fails fates → Transacted d stmts fates (⟨d, none⟩, some .threw)
  | stopped : Fails fates → Transacted d stmts fates (⟨d, none⟩, some .stopped)

section Fates
variable {fates rest : List Fate}

theorem Fails.of_head (h : fates.headD .done ≠ .done) : Fails fates := by
  cases fates with
  | nil => exact absurd rfl h
  | cons fate fates => exact ⟨fate, List.mem_cons_self, h⟩

theorem Fails.of_suffix (h : Fails rest) (hsuffix : rest <:+ fates) : Fails fates := by
  obtain ⟨fate, hmem, hne⟩ := h
  exact ⟨fate, hsuffix.mem hmem, hne⟩

theorem Fails.of_tail (h : Fails fates.tail) : Fails fates := h.of_suffix (List.tail_suffix fates)

theorem not_fails_nil : ¬Fails [] := by
  rintro ⟨fate, hmem, _⟩
  cases hmem

end Fates

section Guard
variable {δ : Type} {d : δ} {stmts : List (Statement δ)} {fates rest : List Fate} {fate : Fate}

theorem applyAll_cons (stmt : Statement δ) (stmts : List (Statement δ)) (d : δ) : applyAll (stmt :: stmts) d = (stmt d).bind (applyAll stmts) := rfl

/-- How a call inside a transaction over `disk` leaves the connection, where it would go on to `goes`. -/
inductive Called (disk : δ) (d : δ) (goes : Option (Conn δ)) (fate : Fate) : Conn δ × Option Exit → Prop
  | returned {c' : Conn δ} : goes = some c' → Called disk d goes fate (c', none)
  | refused : goes = none → Called disk d goes fate (⟨disk, some d⟩, some .threw)
  | failed : fate ≠ .done → Called disk d goes fate (⟨disk, some d⟩, some .threw)
  | rolledBack : fate ≠ .done → Called disk d goes fate (⟨disk, none⟩, some .threw)
  | stopped : fate ≠ .done → Called disk d goes fate (⟨disk, none⟩, some .stopped)

theorem called_call (disk d : δ) (goes : Option (Conn δ)) (fate : Fate) : Called disk d goes fate (Conn.call ⟨disk, some d⟩ goes fate) := by
  cases fate with
  | done =>
    cases goes with
    | none => exact .refused rfl
    | some c' => exact .returned rfl
  | failed => exact .failed (fun h => nomatch h)
  | failedRolledBack => exact .rolledBack (fun h => nomatch h)
  | stopped => exact .stopped (fun h => nomatch h)

/-- How the statements leave the transaction. -/
inductive Executed (disk d : δ) (stmts : List (Statement δ)) (fates : List Fate) : (Conn δ × Option Exit) × List Fate → Prop
  | returned {d' : δ} {rest : List Fate} : applyAll stmts d = some d' → rest <:+ fates →
      Executed disk d stmts fates ((⟨disk, some d'⟩, none), rest)
  | threw {d' : δ} {rest : List Fate} : applyAll stmts d = none ∨ Fails fates → rest <:+ fates →
      Executed disk d stmts fates ((⟨disk, some d'⟩, some .threw), rest)
  | ended {e : Exit} {rest : List Fate} : Fails fates → rest <:+ fates → Executed disk d stmts fates ((⟨disk, none⟩, some e), rest)

theorem executed_execAll (disk d : δ) (stmts : List (Statement δ)) (fates : List Fate) :
    Executed disk d stmts fates (Conn.execAll ⟨disk, some d⟩ stmts fates) := by
  induction stmts generalizing d fates with
  | nil => exact .returned rfl List.suffix_rfl
  | cons stmt stmts ih =>
    have hcall := called_call disk d ((stmt d).map (Conn.write ⟨disk, some d⟩)) (fates.headD .done)
    have htail : fates.tail <:+ fates := List.tail_suffix fates
    rw [Conn.execAll, show Conn.exec ⟨disk, some d⟩ stmt (fates.headD .done) =
      Conn.call ⟨disk, some d⟩ ((stmt d).map (Conn.write ⟨disk, some d⟩)) (fates.headD .done) from rfl]
    revert hcall
    generalize Conn.call ⟨disk, some d⟩ ((stmt d).map (Conn.write ⟨disk, some d⟩)) (fates.headD .done) = r
    rintro (hgoes | hgoes | hfate | hfate | hfate)
    · obtain ⟨d₁, hstmt, rfl⟩ := Option.map_eq_some_iff.mp hgoes
      have happly : applyAll (stmt :: stmts) d = applyAll stmts d₁ := by rw [applyAll_cons, hstmt, Option.bind_some]
      have hrest := ih d₁ fates.tail
      change Executed disk d (stmt :: stmts) fates (Conn.execAll ⟨disk, some d₁⟩ stmts fates.tail)
      revert hrest
      generalize Conn.execAll ⟨disk, some d₁⟩ stmts fates.tail = r
      rintro (⟨hd, hsuffix⟩ | ⟨hwhy, hsuffix⟩ | ⟨hfails, hsuffix⟩)
      · exact .returned (happly.trans hd) (hsuffix.trans htail)
      · exact .threw (hwhy.imp happly.trans Fails.of_tail) (hsuffix.trans htail)
      · exact .ended hfails.of_tail (hsuffix.trans htail)
    · refine .threw (.inl ?_) htail
      rw [applyAll_cons, Option.map_eq_none_iff.mp hgoes, Option.bind_none]
    · exact .threw (.inr (.of_head hfate)) htail
    · exact .ended (.of_head hfate) htail
    · exact .ended (.of_head hfate) htail

/-- After an exception the contents are the old ones again, whether the rollback works or ends the process. -/
theorem transacted_unwind (hwhy : applyAll stmts d = none ∨ Fails fates) (hsuffix : rest <:+ fates) (d' : δ) :
    Transacted d stmts fates (Conn.unwind ⟨d, some d'⟩ (rest.headD .done)) := by
  have hcall := called_call d d' (some ⟨d, none⟩) (rest.headD .done)
  unfold Conn.unwind
  rw [show Conn.rollback ⟨d, some d'⟩ (rest.headD .done) = Conn.call ⟨d, some d'⟩ (some ⟨d, none⟩) (rest.headD .done) from rfl]
  revert hcall
  generalize Conn.call ⟨d, some d'⟩ (some ⟨d, none⟩) (rest.headD .done) = r
  rintro (hgoes | hgoes | hfate | hfate | hfate)
  · cases hgoes
    exact .threw hwhy
  · cases hgoes
  · exact .stopped ((Fails.of_head hfate).of_suffix hsuffix)
  · exact .stopped ((Fails.of_head hfate).of_suffix hsuffix)
  · exact .stopped ((Fails.of_head hfate).of_suffix hsuffix)

/-- The same where there is no transaction any more. -/
theorem transacted_guarded_ended (hfails : Fails fates) (e : Exit) : Transacted d stmts fates (Conn.guarded (⟨d, none⟩, some e) fate) := by
  cases e with
  | threw =>
    cases fate with
    | done => exact .stopped hfails
    | failed => exact .stopped hfails
    | failedRolledBack => exact .stopped hfails
    | stopped => exact .stopped hfails
  | stopped => exact .stopped hfails

/-- A transaction does all of its statements or none. -/
theorem transacted_of_transaction (d : δ) (stmts : List (Statement δ)) (fates : List Fate) :
    Transacted d stmts fates (Conn.transaction ⟨d, none⟩ stmts fates) := by
  unfold Conn.transaction
  cases hfate : fates.headD .done with
  | failed => exact .threw (.inr (.of_head (hfate ▸ fun h => nomatch h)))
  | failedRolledBack => exact .threw (.inr (.of_head (hfate ▸ fun h => nomatch h)))
  | stopped => exact .stopped (.of_head (hfate ▸ fun h => nomatch h))
  | done =>
    have hexec := executed_execAll d d stmts fates.tail
    have htail : fates.tail <:+ fates := List.tail_suffix fates
    change Transacted d stmts fates (match Conn.execAll ⟨d, some d⟩ stmts fates.tail with
      | ((c', some e), fates) => Conn.guarded (c', some e) (fates.headD .done)
      | ((c', none), fates) => Conn.guarded (c'.commit (fates.headD .done)) (fates.tail.headD .done))
    revert hexec
    generalize Conn.execAll ⟨d, some d⟩ stmts fates.tail = r
    rintro (⟨happly, hsuffix⟩ | ⟨hwhy, hsuffix⟩ | ⟨hfails, hsuffix⟩)
    · rename_i d' rest
      have hrest : rest <:+ fates := hsuffix.trans htail
      have hcall := called_call d d' (some ⟨d', none⟩) (rest.headD .done)
      change Transacted d stmts fates (Conn.guarded (Conn.call ⟨d, some d'⟩ (some ⟨d', none⟩) (rest.headD .done)) (rest.tail.headD .done))
      revert hcall
      generalize Conn.call ⟨d, some d'⟩ (some ⟨d', none⟩) (rest.headD .done) = r
      rintro (hgoes | hgoes | hfate | hfate | hfate)
      · cases hgoes
        exact .returned happly
      · cases hgoes
      · exact transacted_unwind (.inr ((Fails.of_head hfate).of_suffix hrest)) ((List.tail_suffix rest).trans hrest) d'
      · exact transacted_guarded_ended ((Fails.of_head hfate).of_suffix hrest) _
      · exact transacted_guarded_ended ((Fails.of_head hfate).of_suffix hrest) _
    · exact transacted_unwind (hwhy.imp_right Fails.of_tail) (hsuffix.trans htail) _
    · exact transacted_guarded_ended hfails.of_tail _

/-- Where the database does its part, only what is stored decides. -/
theorem transaction_returned_iff {d' : δ} : Conn.transaction ⟨d, none⟩ stmts [] = (⟨d', none⟩, none) ↔ applyAll stmts d = some d' := by
  have hend := transacted_of_transaction d stmts []
  revert hend
  generalize Conn.transaction ⟨d, none⟩ stmts [] = r
  rintro (happly | hwhy | hfails)
  · rw [happly, Option.some_inj]
    constructor
    · intro h
      exact congrArg (fun r => r.1.disk) h
    · rintro rfl
      rfl
  · rw [hwhy.resolve_right not_fails_nil]
    exact iff_of_false (fun h => nomatch congrArg Prod.snd h) (fun h => nomatch h)
  · exact absurd hfails not_fails_nil

end Guard

end ScatterWeb.Lib
