import ScatterWeb.AnonRouter.Handshake
import ScatterWeb.AnonRouter.Tft

/-! # Guards, tunnels and their accounts

The guard table of `anonrouter/src/guard.cpp`, the table of tunnels of `tunnel.cpp`, and the ledger of the TFT engine that both
charge: a cell that is relayed is put on the account of the one who recruited the guard, a cell that is sent through a tunnel is taken off
the account of its guard. The order of the hash maps matters nowhere. Sums that leave their types are not modelled, and of a tunnel the
key, the type and the times are left out, which nothing reads. -/
namespace ScatterWeb.AnonRouter.Guard
open Crypto Lib
set_option autoImplicit false

/-! ## The tables -/

inductive GuardType
  | inboundPublic
  | inboundPrivate
  | outbound
  | rendezvous
  deriving DecidableEq

structure GuardEntry where
  sessionTok : SessionToken := fit 32 []
  forwardAddr : String := ""
  recruiterNodeId : Bytes := []
  type : GuardType := .inboundPrivate
  bytesFwd : ℤ := 0
  createdAtS : ℤ := 0
  /-- -1 is for ever. -/
  ttlS : ℤ := 1800
  deriving DecidableEq

structure GuardTable where
  maxSlots : ℕ
  table : Table GuardEntry.sessionTok := .empty

def GuardEntry.expired (e : GuardEntry) (nowS : ℤ) : Bool := decide (0 ≤ e.ttlS ∧ e.ttlS < nowS - e.createdAtS)

def GuardEntry.charge (e : GuardEntry) (n : ℤ) : GuardEntry := { e with bytesFwd := e.bytesFwd + n }

namespace GuardTable
variable (t : GuardTable)

def size : ℕ := t.table.rows.length

/-- A full table refuses every entry, also one for a token that it has. -/
def add (entry : GuardEntry) : GuardTable × Bool :=
  if t.maxSlots ≤ t.size then (t, false) else ({ t with table := t.table.upsert entry }, true)

def remove (tok : SessionToken) : GuardTable := { t with table := t.table.filter (fun e => decide (e.sessionTok ≠ tok)) }

def lookup (tok : SessionToken) : Option GuardEntry := t.table.find tok

def addForwarded (tok : SessionToken) (n : ℤ) : GuardTable := { t with table := t.table.update tok (fun e => e.charge n) (fun _ => rfl) }

/-- The table, and how many entries were removed. -/
def evictExpired (nowS : ℤ) : GuardTable × ℕ :=
  ({ t with table := t.table.filter (fun e => !e.expired nowS) }, (t.table.rows.filter (fun e => e.expired nowS)).length)

end GuardTable

structure TunnelInfo where
  sessionTok : SessionToken
  guardEndpoint : String
  guardNodeId : Bytes
  deriving DecidableEq

abbrev TunnelTable := Table TunnelInfo.sessionTok

/-! ## The node -/

/-- A cell that went out, and why. -/
inductive Passage
  | relayed (entry : GuardEntry) (cell : Cell)
  | tunnelled (tunnel : TunnelInfo) (cell : Cell)

def Passage.datagram : Passage → Datagram
  | .relayed entry cell => ⟨entry.forwardAddr, cell.toList⟩
  | .tunnelled tunnel cell => ⟨tunnel.guardEndpoint, cell.toList⟩

structure Node where
  guards : GuardTable
  tunnels : TunnelTable := .empty
  tft : TftEngine := {}

section Steps
variable (cfg : TftConfig) (n : Node)

/-- The node after a cell was relayed. -/
def Node.relayed (entry : GuardEntry) (tok : SessionToken) : Node :=
  { n with
    guards := n.guards.addForwarded tok 557
    tft := if entry.recruiterNodeId = [] then n.tft else n.tft.recordForwardedFor cfg entry.recruiterNodeId 557 }

/-- `relay_cell`; a cell without an entry is dropped. -/
def relayCell (cell : Cell) : Except TransportError (Node × List Passage) :=
  match n.guards.lookup (cellSessionTok cell) with
  | none => .ok (n, [])
  | some entry =>
    (transportSend entry.forwardAddr cell.toList).map (fun _ => (n.relayed cfg entry (cellSessionTok cell), [.relayed entry cell]))

def forwardViaOutbound (outTok : SessionToken) (cell : Cell) : Except TransportError (Node × List Passage) :=
  match n.tunnels.find outTok with
  | none => .ok (n, [])
  | some info =>
    (transportSend info.guardEndpoint cell.toList).map (fun _ =>
      ({ n with tft := n.tft.recordUsedFrom cfg info.guardNodeId 557 }, [.tunnelled info cell]))

/-- The flag of `add` is what the call returns. -/
inductive NodeEvent
  | add (entry : GuardEntry) (added : Bool)
  | remove (tok : SessionToken)
  | evict (nowS : ℤ)
  | addTunnel (info : TunnelInfo)
  | removeTunnel (tok : SessionToken)
  | relay (cell : Cell)
  | forward (outTok : SessionToken) (cell : Cell)
  | round (order : HashOrder)
  | decay

inductive Posting
  | passage (p : Passage)
  | decay

/-- The node, with what has been posted to its ledger, the last first. -/
structure Watched where
  node : Node
  log : List Posting := []

/-- A call of the transport that throws has changed nothing before, so it is no step. -/
def NodeStep (w : Watched) : NodeEvent → Watched → Prop
  | .add entry added, w' => (w.node.guards.add entry).2 = added ∧ w' = { w with node := { w.node with guards := (w.node.guards.add entry).1 } }
  | .remove tok, w' => w' = { w with node := { w.node with guards := w.node.guards.remove tok } }
  | .evict nowS, w' => w' = { w with node := { w.node with guards := (w.node.guards.evictExpired nowS).1 } }
  | .addTunnel info, w' => w' = { w with node := { w.node with tunnels := w.node.tunnels.upsert info } }
  | .removeTunnel tok, w' => w' = { w with node := { w.node with tunnels := w.node.tunnels.filter (fun i => decide (i.sessionTok ≠ tok)) } }
  | .relay cell, w' => ∃ node out, relayCell cfg w.node cell = .ok (node, out) ∧ w' = ⟨node, out.map .passage ++ w.log⟩
  | .forward outTok cell, w' =>
    ∃ node out, forwardViaOutbound cfg w.node outTok cell = .ok (node, out) ∧ w' = ⟨node, out.map .passage ++ w.log⟩
  | .round order, w' => w' = { w with node := { w.node with tft := w.node.tft.runRound cfg order } }
  | .decay, w' => w' = ⟨{ w.node with tft := w.node.tft.decayCredits cfg }, .decay :: w.log⟩

def Watched.start (maxSlots : ℕ) : Watched := { node := { guards := { maxSlots } } }

end Steps

/-! ## What is meant -/

/-- What a passage puts on the account of a peer. -/
def Passage.booked (peer : Bytes) : Passage → Option ℤ
  | .relayed entry _ => if entry.recruiterNodeId = peer ∧ peer ≠ [] then some 557 else none
  | .tunnelled tunnel _ => if tunnel.guardNodeId = peer then some (-557) else none

/-- The account of a peer, from the postings that concern it alone. -/
def account (cfg : TftConfig) (peer : Bytes) : List Posting → Option ℤ
  | [] => none
  | .passage p :: log =>
    match p.booked peer with
    | none => account cfg peer log
    | some n => some ((account cfg peer log).getD cfg.newPeerBalance + n)
  | .decay :: log => ((account cfg peer log).map cfg.decayed).filter (fun c => !decide (|c| < cfg.creditPruneMinBytes))

/-- An event that leaves the entry in the table. -/
def Survives (e : GuardEntry) : NodeEvent → Prop
  | .add e' added => added = true → e'.sessionTok ≠ e.sessionTok
  | .remove tok => tok ≠ e.sessionTok
  | .evict nowS => e.expired nowS = false
  | _ => True

def isCellFor (tok : SessionToken) : NodeEvent → Bool
  | .relay cell => decide (cellSessionTok cell = tok)
  | _ => false

/-- The entry was added as `e₀`, has survived since, and has been charged with the cells that came for it. -/
def Held (tok : SessionToken) (e : GuardEntry) (es : List NodeEvent) : Prop :=
  ∃ before e₀ after, es = before ++ .add e₀ true :: after ∧ e₀.sessionTok = tok ∧ (∀ ev ∈ after, Survives e₀ ev) ∧
    e = e₀.charge (557 * (after.countP (isCellFor tok) : ℕ))

/-! ## What a cell does -/

section Cells
variable {cfg : TftConfig} {n n' : Node} {cell : Cell} {outTok : SessionToken} {out : List Passage} {entry : GuardEntry} {sent : List Datagram}

theorem relayCell_of_send (he : n.guards.lookup (cellSessionTok cell) = some entry)
    (hsend : transportSend entry.forwardAddr cell.toList = .ok sent) :
    relayCell cfg n cell = .ok (n.relayed cfg entry (cellSessionTok cell), [.relayed entry cell]) := by
  unfold relayCell
  rw [he]
  dsimp only
  rw [hsend]
  rfl

theorem relayCell_cases (h : relayCell cfg n cell = .ok (n', out)) :
    (n.guards.lookup (cellSessionTok cell) = none ∧ n' = n ∧ out = []) ∨
    ∃ entry, n.guards.lookup (cellSessionTok cell) = some entry ∧
      transportSend entry.forwardAddr cell.toList = .ok [⟨entry.forwardAddr, cell.toList⟩] ∧
      n' = n.relayed cfg entry (cellSessionTok cell) ∧ out = [.relayed entry cell] := by
  cases he : n.guards.lookup (cellSessionTok cell) with
  | none =>
    unfold relayCell at h
    rw [he] at h
    cases h
    exact Or.inl ⟨rfl, rfl, rfl⟩
  | some entry =>
    cases hsend : transportSend entry.forwardAddr cell.toList with
    | error err =>
      unfold relayCell at h
      rw [he] at h
      dsimp only at h
      rw [hsend] at h
      cases h
    | ok sent =>
      rw [relayCell_of_send he hsend] at h
      cases h
      obtain ⟨rfl, _⟩ := transportSend_ok hsend
      exact Or.inr ⟨entry, rfl, hsend, rfl, rfl⟩

theorem forwardViaOutbound_cases (h : forwardViaOutbound cfg n outTok cell = .ok (n', out)) : (n' = n ∧ out = []) ∨
    ∃ info, n' = { n with tft := n.tft.recordUsedFrom cfg info.guardNodeId 557 } ∧ out = [.tunnelled info cell] := by
  unfold forwardViaOutbound at h
  split at h
  · cases h
    exact Or.inl ⟨rfl, rfl⟩
  · rename_i info _
    cases hsend : transportSend info.guardEndpoint cell.toList with
    | error err =>
      rw [hsend] at h
      cases h
    | ok sent =>
      rw [hsend] at h
      cases h
      exact Or.inr ⟨info, rfl, rfl⟩

end Cells

/-! ## The table of guards -/

section Held
variable {tok : SessionToken} {e e₀ : GuardEntry} {es : List NodeEvent} {ev : NodeEvent} {n m : ℤ}

theorem charge_charge : (e.charge n).charge m = e.charge (n + m) := by
  unfold GuardEntry.charge
  dsimp only
  rw [add_assoc]

theorem charge_zero : e.charge 0 = e := by
  unfold GuardEntry.charge
  rw [add_zero]

/-- Whether an entry stays does not depend on what it has been charged with. -/
theorem survives_charge : Survives (e.charge n) ev ↔ Survives e ev := by
  cases ev <;> exact Iff.rfl

theorem not_held_nil : ¬Held tok e [] := by
  rintro ⟨before, e₀, after, h, _⟩
  cases before <;> cases h

theorem charge_snoc (after : List NodeEvent) : (e₀.charge (557 * (after.countP (isCellFor tok) : ℕ))).charge
    (if isCellFor tok ev = true then 557 else 0) = e₀.charge (557 * ((after ++ [ev]).countP (isCellFor tok) : ℕ)) := by
  rw [charge_charge, List.countP_append, List.countP_singleton]
  congr 1
  split
  · push_cast
    omega
  · push_cast
    omega

theorem held_snoc : Held tok e (es ++ [ev]) ↔ (ev = .add e true ∧ e.sessionTok = tok) ∨
    ∃ e', Held tok e' es ∧ Survives e' ev ∧ e = e'.charge (if isCellFor tok ev = true then 557 else 0) := by
  constructor
  · rintro ⟨before, e₀, after, h, htok, hsurvives, rfl⟩
    rcases List.eq_nil_or_concat after with rfl | ⟨after, last, rfl⟩
    · obtain ⟨_, hev⟩ := List.append_inj' h rfl
      cases hev
      refine Or.inl ⟨?_, htok⟩
      simp [charge_zero]
    · rw [List.concat_eq_append] at h hsurvives ⊢
      rw [← List.cons_append, ← List.append_assoc] at h
      obtain ⟨hes, hev⟩ := List.append_inj' h rfl
      cases hev
      refine Or.inr ⟨_, ⟨before, e₀, after, hes, htok, fun ev' h' => hsurvives ev' (by simp [h']), rfl⟩, ?_, ?_⟩
      · exact survives_charge.mpr (hsurvives ev (by simp))
      · rw [charge_snoc]
  · rintro (⟨rfl, htok⟩ | ⟨e', ⟨before, e₀, after, rfl, htok, hsurvives, rfl⟩, hlast, rfl⟩)
    · refine ⟨es, e, [], rfl, htok, fun _ h => (nomatch h), ?_⟩
      simp [charge_zero]
    · refine ⟨before, e₀, after ++ [ev], by simp, htok, ?_, charge_snoc after⟩
      intro ev' h'
      rcases List.mem_append.mp h' with h' | h'
      · exact hsurvives ev' h'
      · rw [List.mem_singleton.mp h']
        exact survives_charge.mp hlast

end Held

section Table
variable {cfg : TftConfig} {t : GuardTable} {tok : SessionToken} {e entry : GuardEntry} {w w' : Watched} {ev : NodeEvent} {maxSlots : ℕ}

theorem lookup_add (h : (t.add entry).2 = true) :
    (t.add entry).1.lookup tok = if entry.sessionTok = tok then some entry else t.lookup tok := by
  unfold GuardTable.add at h ⊢
  split at h
  · cases h
  · rename_i hfull
    rw [if_neg hfull]
    exact t.table.find_upsert entry tok

theorem add_refused (h : (t.add entry).2 = false) : (t.add entry).1 = t := by
  unfold GuardTable.add at h ⊢
  split at h
  · rename_i hfull
    rw [if_pos hfull]
  · cases h

theorem lookup_addForwarded {n : ℤ} (cell : SessionToken) :
    (t.addForwarded cell n).lookup tok = if cell = tok then (t.lookup tok).map (fun e => e.charge n) else t.lookup tok := by
  exact t.table.find_update cell (fun e => e.charge n) (fun _ => rfl) tok

theorem lookup_filter {p : GuardEntry → Bool} : (t.table.filter p).find tok = some e ↔ t.lookup tok = some e ∧ p e = true := by
  rw [Table.find_filter, Option.filter_eq_some_iff]
  exact Iff.rfl

theorem guards_relayCell {n n' : Node} {cell : Cell} {out : List Passage} (h : relayCell cfg n cell = .ok (n', out)) :
    n'.guards.lookup tok = if cellSessionTok cell = tok then (n.guards.lookup tok).map (fun e => e.charge 557) else n.guards.lookup tok := by
  obtain ⟨hnone, rfl, _⟩ | ⟨entry, _, _, rfl, _⟩ := relayCell_cases h
  · split
    · rename_i htok
      rw [← htok, hnone]
      rfl
    · rfl
  · exact lookup_addForwarded (cellSessionTok cell)

theorem guards_forwardViaOutbound {n n' : Node} {outTok : SessionToken} {cell : Cell} {out : List Passage}
    (h : forwardViaOutbound cfg n outTok cell = .ok (n', out)) : n'.guards = n.guards := by
  obtain ⟨rfl, _⟩ | ⟨info, rfl, _⟩ := forwardViaOutbound_cases h
  · rfl
  · rfl

/-- A step that leaves the table as it is. -/
theorem lookup_same (h : w'.node.guards = w.node.guards) (hadd : ev ≠ .add e true) (hsurvives : ∀ e', Survives e' ev)
    (hcell : isCellFor tok ev = false) : w'.node.guards.lookup tok = some e ↔ (ev = .add e true ∧ e.sessionTok = tok) ∨
      ∃ e', w.node.guards.lookup tok = some e' ∧ Survives e' ev ∧ e = e'.charge (if isCellFor tok ev = true then 557 else 0) := by
  rw [h]
  constructor
  · intro he
    refine Or.inr ⟨e, he, hsurvives e, ?_⟩
    rw [if_neg (by simp [hcell]), charge_zero]
  · rintro (⟨hev, _⟩ | ⟨e', he', _, rfl⟩)
    · exact absurd hev hadd
    · rw [if_neg (by simp [hcell]), charge_zero]
      exact he'

/-- A step that takes entries out of the table. -/
theorem lookup_taken {p : GuardEntry → Bool} (h : w'.node.guards.table = w.node.guards.table.filter p) (hadd : ev ≠ .add e true)
    (hp : ∀ e', e'.sessionTok = tok → (p e' = true ↔ Survives e' ev)) (hcell : isCellFor tok ev = false) :
    w'.node.guards.lookup tok = some e ↔ (ev = .add e true ∧ e.sessionTok = tok) ∨
      ∃ e', w.node.guards.lookup tok = some e' ∧ Survives e' ev ∧ e = e'.charge (if isCellFor tok ev = true then 557 else 0) := by
  have hfind : w'.node.guards.lookup tok = (w.node.guards.table.filter p).find tok := by rw [← h]; rfl
  rw [hfind, lookup_filter]
  constructor
  · rintro ⟨he, hpe⟩
    refine Or.inr ⟨e, he, (hp e (Table.key_of_find he)).mp hpe, ?_⟩
    rw [if_neg (by simp [hcell]), charge_zero]
  · rintro (⟨hev, _⟩ | ⟨e', he', hsurvives, rfl⟩)
    · exact absurd hev hadd
    · rw [if_neg (by simp [hcell]), charge_zero]
      exact ⟨he', (hp e' (Table.key_of_find he')).mpr hsurvives⟩

theorem lookup_step (h : NodeStep cfg w ev w') : w'.node.guards.lookup tok = some e ↔ (ev = .add e true ∧ e.sessionTok = tok) ∨
    ∃ e', w.node.guards.lookup tok = some e' ∧ Survives e' ev ∧ e = e'.charge (if isCellFor tok ev = true then 557 else 0) := by
  cases ev with
  | add entry added =>
    obtain ⟨hadded, rfl⟩ := h
    cases added with
    | false => exact lookup_same (add_refused hadded) nofun (fun _ h => (nomatch h)) rfl
    | true =>
      dsimp only
      rw [lookup_add hadded]
      by_cases htok : entry.sessionTok = tok
      · rw [if_pos htok]
        constructor
        · intro he
          cases he
          exact Or.inl ⟨rfl, htok⟩
        · rintro (⟨hev, _⟩ | ⟨e', he', hsurvives, _⟩)
          · cases hev
            rfl
          · exact absurd (htok.trans (Table.key_of_find he').symm) (hsurvives rfl)
      · rw [if_neg htok]
        constructor
        · intro he
          refine Or.inr ⟨e, he, fun _ heq => htok (heq.trans (Table.key_of_find he)), ?_⟩
          exact charge_zero.symm
        · rintro (⟨hev, htok'⟩ | ⟨e', he', _, rfl⟩)
          · cases hev
            exact absurd htok' htok
          · exact (congrArg some charge_zero).symm ▸ he'
  | remove gone =>
    obtain rfl := h
    refine lookup_taken (p := fun e => decide (e.sessionTok ≠ gone)) rfl nofun ?_ rfl
    intro e' _
    rw [decide_eq_true_iff]
    exact ne_comm
  | evict nowS =>
    obtain rfl := h
    refine lookup_taken (p := fun e => !e.expired nowS) rfl nofun ?_ rfl
    intro e' _
    rw [Bool.not_eq_true']
    exact Iff.rfl
  | addTunnel info =>
    obtain rfl := h
    exact lookup_same rfl nofun (fun _ => trivial) rfl
  | removeTunnel gone =>
    obtain rfl := h
    exact lookup_same rfl nofun (fun _ => trivial) rfl
  | relay cell =>
    obtain ⟨node, out, hrelay, rfl⟩ := h
    dsimp only
    rw [guards_relayCell hrelay]
    by_cases htok : cellSessionTok cell = tok
    · have hcell : isCellFor tok (.relay cell) = true := decide_eq_true htok
      rw [if_pos htok, if_pos hcell, Option.map_eq_some_iff]
      constructor
      · rintro ⟨e', he', rfl⟩
        exact Or.inr ⟨e', he', trivial, rfl⟩
      · rintro (⟨hev, _⟩ | ⟨e', he', _, rfl⟩)
        · cases hev
        · exact ⟨e', he', rfl⟩
    · have hcell : isCellFor tok (.relay cell) = false := decide_eq_false htok
      rw [if_neg htok]
      exact lookup_same rfl nofun (fun _ => trivial) hcell
  | forward outTok cell =>
    obtain ⟨node, out, hforward, rfl⟩ := h
    exact lookup_same (guards_forwardViaOutbound hforward) nofun (fun _ => trivial) rfl
  | round order =>
    obtain rfl := h
    exact lookup_same rfl nofun (fun _ => trivial) rfl
  | decay =>
    obtain rfl := h
    exact lookup_same rfl nofun (fun _ => trivial) rfl

/-- The table has what the events say. -/
theorem lookup_iff_held {es : List NodeEvent} (h : Run (NodeStep cfg) (Watched.start maxSlots) es w) (tok : SessionToken) (e : GuardEntry) :
    w.node.guards.lookup tok = some e ↔ Held tok e es := by
  induction h generalizing e with
  | nil =>
    constructor
    · intro he
      cases he
    · intro hheld
      exact absurd hheld not_held_nil
  | snoc _ hs ih =>
    rw [lookup_step hs, held_snoc]
    refine or_congr_right (exists_congr ?_)
    intro e'
    rw [ih e']

end Table

/-! ## Its bound -/

section Bound
variable {cfg : TftConfig} {t : GuardTable} {w w' : Watched} {ev : NodeEvent} {maxSlots : ℕ}

/-- The table has no more than its slots. -/
def GuardTable.Fits (t : GuardTable) (maxSlots : ℕ) : Prop := t.maxSlots = maxSlots ∧ t.size ≤ maxSlots

theorem fits_add (entry : GuardEntry) (h : t.Fits maxSlots) : (t.add entry).1.Fits maxSlots := by
  unfold GuardTable.add
  split
  · exact h
  · rename_i hfull
    obtain ⟨hslots, _⟩ := h
    refine ⟨hslots, ?_⟩
    have hkept := List.length_filter_le (fun e : GuardEntry => decide (e.sessionTok ≠ entry.sessionTok)) t.table.rows
    have hrows : (t.table.upsert entry).rows.length = (t.table.filter (fun e => decide (e.sessionTok ≠ entry.sessionTok))).rows.length + 1 :=
      List.length_append
    change (t.table.upsert entry).rows.length ≤ maxSlots
    rw [hrows, ← hslots]
    rw [not_le] at hfull
    exact (Nat.succ_le_succ hkept).trans hfull

theorem fits_filter (p : GuardEntry → Bool) (h : t.Fits maxSlots) : GuardTable.Fits { t with table := t.table.filter p } maxSlots :=
  ⟨h.1, (List.length_filter_le p t.table.rows).trans h.2⟩

theorem fits_relayCell {n n' : Node} {cell : Cell} {out : List Passage} (hrelay : relayCell cfg n cell = .ok (n', out))
    (h : n.guards.Fits maxSlots) : n'.guards.Fits maxSlots := by
  obtain ⟨_, rfl, _⟩ | ⟨entry, _, _, rfl, _⟩ := relayCell_cases hrelay
  · exact h
  · obtain ⟨hslots, hsize⟩ := h
    refine ⟨hslots, ?_⟩
    change (n.guards.table.rows.map _).length ≤ maxSlots
    rw [List.length_map]
    exact hsize

theorem fits_step (hs : NodeStep cfg w ev w') (h : w.node.guards.Fits maxSlots) : w'.node.guards.Fits maxSlots := by
  cases ev with
  | add entry added =>
    obtain ⟨_, rfl⟩ := hs
    exact fits_add entry h
  | remove gone =>
    obtain rfl := hs
    exact fits_filter _ h
  | evict nowS =>
    obtain rfl := hs
    exact fits_filter _ h
  | relay cell =>
    obtain ⟨node, out, hrelay, rfl⟩ := hs
    exact fits_relayCell hrelay h
  | forward outTok cell =>
    obtain ⟨node, out, hforward, rfl⟩ := hs
    dsimp only
    rw [guards_forwardViaOutbound hforward]
    exact h
  | addTunnel info | removeTunnel gone | round order | decay =>
    obtain rfl := hs
    exact h

end Bound

/-! ## The accounts -/

section Accounts
variable {cfg : TftConfig} {s : TftEngine} {w w' : Watched} {ev : NodeEvent} {peer : Bytes} {maxSlots : ℕ}

def balance (s : TftEngine) (peer : Bytes) : Option ℤ := (s.ledger.find peer).map Prod.snd

theorem balance_upsert (ledger : Ledger) (id : Bytes) (credit : ℤ) :
    ((ledger.upsert (id, credit)).find peer).map Prod.snd = if id = peer then some credit else (ledger.find peer).map Prod.snd := by
  rw [Table.find_upsert]
  split
  · rfl
  · rfl

theorem balance_recordForwardedFor (id : Bytes) (n : ℤ) : balance (s.recordForwardedFor cfg id n) peer =
    if id = peer then some ((balance s peer).getD cfg.newPeerBalance + n) else balance s peer := by
  refine (balance_upsert s.ledger id _).trans ?_
  split
  · rename_i hid
    rw [hid]
    rfl
  · rfl

theorem balance_recordUsedFrom (id : Bytes) (n : ℤ) : balance (s.recordUsedFrom cfg id n) peer =
    if id = peer then some ((balance s peer).getD cfg.newPeerBalance + -n) else balance s peer := by
  refine (balance_upsert s.ledger id _).trans ?_
  split
  · rename_i hid
    rw [hid]
    rfl
  · rfl

theorem balance_decayCredits : balance (s.decayCredits cfg) peer =
    ((balance s peer).map cfg.decayed).filter (fun c => !decide (|c| < cfg.creditPruneMinBytes)) := by
  unfold balance TftEngine.decayCredits
  dsimp only
  rw [Table.find_filter, Table.find_map]
  cases s.ledger.find peer with
  | none => rfl
  | some e =>
    dsimp only [Option.map_some, Option.filter_some]
    split
    · rfl
    · rfl

theorem account_booked {p : Passage} {n : ℤ} (log : List Posting) (h : p.booked peer = some n) :
    account cfg peer (.passage p :: log) = some ((account cfg peer log).getD cfg.newPeerBalance + n) := by
  rw [account, h]

theorem account_unbooked {p : Passage} (log : List Posting) (h : p.booked peer = none) :
    account cfg peer (.passage p :: log) = account cfg peer log := by
  rw [account, h]

theorem balance_relayCell {n n' : Node} {cell : Cell} {out : List Passage} (h : relayCell cfg n cell = .ok (n', out)) (log : List Posting)
    (hlog : balance n.tft peer = account cfg peer log) : balance n'.tft peer = account cfg peer (out.map .passage ++ log) := by
  obtain ⟨_, rfl, rfl⟩ | ⟨entry, _, _, rfl, rfl⟩ := relayCell_cases h
  · exact hlog
  · change balance (if entry.recruiterNodeId = [] then n.tft else _) peer = account cfg peer (.passage (.relayed entry cell) :: log)
    by_cases hempty : entry.recruiterNodeId = []
    · have hbooked : (Passage.relayed entry cell).booked peer = none := if_neg (fun hpeer => hpeer.2 (hpeer.1.symm.trans hempty))
      rw [if_pos hempty, account_unbooked log hbooked, hlog]
    · rw [if_neg hempty, balance_recordForwardedFor, hlog]
      by_cases hid : entry.recruiterNodeId = peer
      · have hbooked : (Passage.relayed entry cell).booked peer = some 557 := if_pos ⟨hid, hid ▸ hempty⟩
        rw [if_pos hid, account_booked log hbooked]
      · have hbooked : (Passage.relayed entry cell).booked peer = none := if_neg (not_and_of_not_left _ hid)
        rw [if_neg hid, account_unbooked log hbooked]

theorem balance_forwardViaOutbound {n n' : Node} {outTok : SessionToken} {cell : Cell} {out : List Passage}
    (h : forwardViaOutbound cfg n outTok cell = .ok (n', out)) (log : List Posting) (hlog : balance n.tft peer = account cfg peer log) :
    balance n'.tft peer = account cfg peer (out.map .passage ++ log) := by
  obtain ⟨rfl, rfl⟩ | ⟨info, rfl, rfl⟩ := forwardViaOutbound_cases h
  · exact hlog
  · change balance (n.tft.recordUsedFrom cfg info.guardNodeId 557) peer = account cfg peer (.passage (.tunnelled info cell) :: log)
    rw [balance_recordUsedFrom, hlog]
    by_cases hid : info.guardNodeId = peer
    · have hbooked : (Passage.tunnelled info cell).booked peer = some (-557) := if_pos hid
      rw [if_pos hid, account_booked log hbooked]
    · have hbooked : (Passage.tunnelled info cell).booked peer = none := if_neg hid
      rw [if_neg hid, account_unbooked log hbooked]

theorem balance_step (hs : NodeStep cfg w ev w') (h : balance w.node.tft peer = account cfg peer w.log) :
    balance w'.node.tft peer = account cfg peer w'.log := by
  cases ev with
  | add entry added =>
    obtain ⟨_, rfl⟩ := hs
    exact h
  | relay cell =>
    obtain ⟨node, out, hrelay, rfl⟩ := hs
    exact balance_relayCell hrelay w.log h
  | forward outTok cell =>
    obtain ⟨node, out, hforward, rfl⟩ := hs
    exact balance_forwardViaOutbound hforward w.log h
  | round order =>
    obtain rfl := hs
    dsimp only
    unfold balance
    rw [ledger_runRound]
    exact h
  | decay =>
    obtain rfl := hs
    refine balance_decayCredits.trans ?_
    rw [h]
    rfl
  | remove gone | evict nowS | addTunnel info | removeTunnel gone =>
    obtain rfl := hs
    exact h

/-- Between two decays, an account moves by what is booked on it. -/
theorem account_passages (cfg : TftConfig) (peer : Bytes) (passages : List Passage) (log : List Posting) :
    account cfg peer (passages.map .passage ++ log) = if passages.filterMap (Passage.booked peer) = [] then account cfg peer log
      else some ((account cfg peer log).getD cfg.newPeerBalance + (passages.filterMap (Passage.booked peer)).sum) := by
  induction passages with
  | nil => rfl
  | cons p passages ih =>
    rw [List.map_cons, List.cons_append]
    cases hp : p.booked peer with
    | none => rw [account_unbooked _ hp, ih, List.filterMap_cons_none hp]
    | some n =>
      rw [account_booked _ hp, ih, List.filterMap_cons_some hp, if_neg (List.cons_ne_nil _ _), List.sum_cons]
      split
      · rename_i hnil
        rw [hnil, List.sum_nil, add_zero]
      · rw [Option.getD_some, add_assoc, add_comm n]

end Accounts

/-- In every run, the table of guards never has more entries than slots; it has an entry just when the entry was accepted and has been neither
replaced nor removed nor found expired since, charged with 557 bytes for every cell that came for it; and the balance of a peer is
what its own passages and the decays make of it. -/
theorem traffic_accounts (cfg : TftConfig) (maxSlots : ℕ) (es : List NodeEvent) (w : Watched)
    (h : Run (NodeStep cfg) (Watched.start maxSlots) es w) : w.node.guards.size ≤ maxSlots ∧
    (∀ tok e, w.node.guards.lookup tok = some e ↔ Held tok e es) ∧ (∀ peer, balance w.node.tft peer = account cfg peer w.log) ∧
    ∀ (peer : Bytes) (passages : List Passage) (log : List Posting), w.log = passages.map .passage ++ log → balance w.node.tft peer =
      if passages.filterMap (Passage.booked peer) = [] then account cfg peer log
      else some ((account cfg peer log).getD cfg.newPeerBalance + (passages.filterMap (Passage.booked peer)).sum) := by
  have hfits : w.node.guards.Fits maxSlots :=
    h.invariant (fun w => w.node.guards.Fits maxSlots) ⟨rfl, Nat.zero_le maxSlots⟩ (fun _ _ _ ht hs => fits_step hs ht)
  have hbalance : ∀ peer, balance w.node.tft peer = account cfg peer w.log := by
    intro peer
    exact h.invariant (fun w => balance w.node.tft peer = account cfg peer w.log) rfl (fun _ _ _ ht hs => balance_step hs ht)
  refine ⟨hfits.2, lookup_iff_held h, hbalance, ?_⟩
  intro peer passages log hlog
  rw [hbalance, hlog, account_passages]

def relayedCell : Cell := fit 557 []

def relayedEntry : GuardEntry := { sessionTok := cellSessionTok relayedCell, forwardAddr := "10.0.0.2:9000", recruiterNodeId := [1] }

def guardedNode : Node := { guards := ((GuardTable.mk 1 .empty).add relayedEntry).1 }

def relayedNode : Node := guardedNode.relayed { decayed := id } relayedEntry (cellSessionTok relayedCell)

/-- One slot, one guard, one cell. -/
theorem traffic_accounts_once : Held (cellSessionTok relayedCell) (relayedEntry.charge 557) [.add relayedEntry true, .relay relayedCell] ∧
    balance relayedNode.tft [1] = some (-10485203) := by
  have hparse : parseAddr "10.0.0.2:9000" = .ok ("10.0.0.2", 9000) := rfl
  have hguarded : guardedNode.guards.lookup (cellSessionTok relayedCell) = some relayedEntry := (lookup_add rfl).trans (if_pos rfl)
  have hrelay : relayCell { decayed := id } guardedNode relayedCell = .ok (relayedNode, [.relayed relayedEntry relayedCell]) :=
    relayCell_of_send hguarded (transportSend_of_parse hparse relayedCell.toList)
  have hadd : NodeStep { decayed := id } (Watched.start 1) (.add relayedEntry true) ⟨guardedNode, []⟩ := ⟨rfl, rfl⟩
  have hstep : NodeStep { decayed := id } ⟨guardedNode, []⟩ (.relay relayedCell) ⟨relayedNode, [.passage (.relayed relayedEntry relayedCell)]⟩ :=
    ⟨_, _, hrelay, rfl⟩
  have hrun := (Run.nil.snoc hadd).snoc hstep
  obtain ⟨_, hheld, hbalance, _⟩ := traffic_accounts { decayed := id } 1 _ _ hrun
  refine ⟨(hheld _ _).mp ?_, hbalance [1]⟩
  exact (lookup_addForwarded _).trans ((if_pos rfl).trans (congrArg _ hguarded))

/-! ## The router that keeps less of a guard -/

section Router
variable {cfg : TftConfig} {n n' : Node} {r : Router} {cell : Cell} {out : List Passage} {entry : AnonRouter.GuardEntry}

def GuardEntry.short (e : GuardEntry) : AnonRouter.GuardEntry := ⟨e.forwardAddr, Int64.ofInt e.bytesFwd⟩

/-- The router has the same entries as the node, with less in each. -/
def Shows (n : Node) (r : Router) : Prop := ∀ tok, r.guards.lookup tok = (n.guards.lookup tok).map GuardEntry.short

theorem relayCell_shows (h : Shows n r) (hentry : r.guards.lookup (cellSessionTok cell) = some entry)
    (hrelay : relayCell cfg n cell = .ok (n', out)) :
    ∃ r', AnonRouter.relayCell r entry cell = .ok (r', { sent := out.map Passage.datagram }) ∧ Shows n' r' := by
  have hlookup : ∀ tok, n'.guards.lookup tok = _ := fun tok => guards_relayCell hrelay
  rw [h, Option.map_eq_some_iff] at hentry
  obtain ⟨e, he, rfl⟩ := hentry
  obtain ⟨hnone, _⟩ | ⟨entry, he', hsend, rfl, rfl⟩ := relayCell_cases hrelay
  · rw [he] at hnone
    cases hnone
  · rw [he] at he'
    cases he'
    unfold AnonRouter.relayCell
    change transportSend e.short.forwardAddr cell.toList = _ at hsend
    rw [hsend]
    refine ⟨_, rfl, ?_⟩
    intro tok
    rw [hlookup]
    by_cases htok : cellSessionTok cell = tok
    · rw [if_pos htok, ← htok, AList.lookup_insert, he]
      refine congrArg some ?_
      unfold GuardEntry.short GuardEntry.charge
      rw [Int64.ofInt_add]
      rfl
    · rw [if_neg htok, AList.lookup_insert_ne (Ne.symm htok)]
      exact h tok

end Router

end ScatterWeb.AnonRouter.Guard
