import ScatterWeb.Crypto.Primitives
import ScatterWeb.Lib.Smallest
import ScatterWeb.Lib.SortedMap
import ScatterWeb.Lib.Table
import ScatterWeb.Lib.Transition
import Mathlib.Data.List.Find
import Mathlib.Data.Prod.Lex

/-! # The rounds of `anonrouter/src/tft.cpp`

Every round unchokes the peers with the lowest credits, and from time to time one more, the first in the order of the hash map that is
not among them. The order of the map is a parameter of a round, and the product with the decay factor one of the configuration. Balances
and counters that leave their types are not modelled; the number of the round and the report of the state are left out. -/
namespace ScatterWeb.AnonRouter
open Crypto Lib Lib.SortedMap
set_option autoImplicit false

structure TftConfig where
  unchokeSlots : ℕ := 19
  maxDebtBytes : ℤ := 52428800
  newPeerBalance : ℤ := -10485760
  optUnchokeInterval : ℤ := 3
  creditPruneMinBytes : ℤ := 1024
  /-- The product with `credit_decay_factor`, cut off to an integer. -/
  decayed : ℤ → ℤ

abbrev Ledger := Table (Prod.fst : Bytes × ℤ → Bytes)

/-- An order in which the hash map is walked through. -/
structure HashOrder where
  walk : Ledger → List (Bytes × ℤ)
  perm : ∀ ledger, (walk ledger).Perm ledger.rows

structure TftEngine where
  ledger : Ledger := .empty
  unchoked : Finset Bytes := ∅
  optUnchoked : Bytes := []
  optRoundsLeft : ℤ := 0

/-- A pair as the candidates are sorted. -/
def byCredit (e : Bytes × ℤ) : ℤ ×ₗ Bytes := toLex (e.2, e.1)

namespace TftEngine
variable (cfg : TftConfig) (s : TftEngine)

def recordForwardedFor (peer : Bytes) (bytes : ℤ) : TftEngine :=
  { s with ledger := s.ledger.upsert (peer, ((s.ledger.find peer).map Prod.snd).getD cfg.newPeerBalance + bytes) }

def recordUsedFrom (peer : Bytes) (bytes : ℤ) : TftEngine :=
  { s with ledger := s.ledger.upsert (peer, ((s.ledger.find peer).map Prod.snd).getD cfg.newPeerBalance - bytes) }

def isUnchoked (peer : Bytes) : Bool := decide (peer ∈ s.unchoked ∨ peer = s.optUnchoked)

def isChokedPermanent (peer : Bytes) : Bool :=
  match s.ledger.find peer with
  | none => false
  | some e => decide (cfg.maxDebtBytes < e.2)

def candidates (entries : List (Bytes × ℤ)) : List (ℤ ×ₗ Bytes) :=
  (entries.filter (fun e => decide (e.2 ≤ cfg.maxDebtBytes))).map byCredit

/-- The peers in the regular slots. -/
def lowestPeers (entries : List (Bytes × ℤ)) : Finset Bytes :=
  ((smallest cfg.unchokeSlots (candidates cfg entries)).map (fun c => (ofLex c).2)).toFinset

def pickOptUnchoke (order : HashOrder) (unchoked : Finset Bytes) : Bytes :=
  (((order.walk s.ledger).find? (fun e => decide (e.1 ∉ unchoked ∧ e.1 ≠ s.optUnchoked))).map Prod.fst).getD []

def runRound (order : HashOrder) : TftEngine :=
  let unchoked := lowestPeers cfg (order.walk s.ledger)
  if s.optRoundsLeft - 1 ≤ 0 then
    { s with unchoked, optUnchoked := s.pickOptUnchoke order unchoked, optRoundsLeft := cfg.optUnchokeInterval }
  else { s with unchoked, optRoundsLeft := s.optRoundsLeft - 1 }

def decayCredits : TftEngine :=
  { s with
    ledger := (s.ledger.map (fun e => (e.1, cfg.decayed e.2)) (fun _ => rfl)).filter (fun e => !decide (|e.2| < cfg.creditPruneMinBytes)) }

end TftEngine

/-! ## The regular slots -/

section Regular
variable {cfg : TftConfig} {ledger : Ledger} {order : HashOrder} {entries entries' : List (Bytes × ℤ)} {peer : Bytes} {credit : ℤ}
open TftEngine

theorem byCredit_injective : Function.Injective byCredit := by
  rintro ⟨peer, credit⟩ ⟨peer', credit'⟩ h
  cases congrArg ofLex h
  rfl

theorem mem_candidates {e : Bytes × ℤ} : byCredit e ∈ candidates cfg entries ↔ e ∈ entries ∧ e.2 ≤ cfg.maxDebtBytes := by
  unfold candidates
  rw [List.mem_map_of_injective byCredit_injective, List.mem_filter, decide_eq_true_iff]

theorem map_snd_candidates (cfg : TftConfig) (entries : List (Bytes × ℤ)) :
    (candidates cfg entries).map (fun c => (ofLex c).2) = (entries.filter (fun e => decide (e.2 ≤ cfg.maxDebtBytes))).map Prod.fst := by
  rw [candidates, List.map_map]
  rfl

theorem nodup_map_snd_candidates (cfg : TftConfig) (ledger : Ledger) : ((candidates cfg ledger.rows).map (fun c => (ofLex c).2)).Nodup := by
  rw [map_snd_candidates]
  exact (List.filter_sublist.map Prod.fst).nodup ledger.nodup

theorem nodup_candidates (cfg : TftConfig) (ledger : Ledger) : (candidates cfg ledger.rows).Nodup := (nodup_map_snd_candidates cfg ledger).of_map _

theorem lowestPeers_eq_of_perm (cfg : TftConfig) (h : entries.Perm entries') : lowestPeers cfg entries = lowestPeers cfg entries' := by
  unfold lowestPeers candidates
  rw [smallest_eq_of_perm ((h.filter _).map byCredit)]

theorem unchoked_runRound (cfg : TftConfig) (order : HashOrder) (s : TftEngine) : (s.runRound cfg order).unchoked = lowestPeers cfg s.ledger.rows := by
  rw [← lowestPeers_eq_of_perm cfg (order.perm s.ledger), runRound]
  split
  · rfl
  · rfl

theorem mem_lowestPeers : peer ∈ lowestPeers cfg entries ↔ ∃ credit, byCredit (peer, credit) ∈ smallest cfg.unchokeSlots (candidates cfg entries) := by
  rw [lowestPeers, List.mem_toFinset, List.mem_map]
  constructor
  · rintro ⟨c, hc, rfl⟩
    exact ⟨(ofLex c).1, hc⟩
  · rintro ⟨credit, hc⟩
    exact ⟨_, hc, rfl⟩

theorem card_lowestPeers (cfg : TftConfig) (ledger : Ledger) :
    (lowestPeers cfg ledger.rows).card = min cfg.unchokeSlots (ledger.rows.filter (fun e => decide (e.2 ≤ cfg.maxDebtBytes))).length := by
  have hnodup : ((smallest cfg.unchokeSlots (candidates cfg ledger.rows)).map (fun c => (ofLex c).2)).Nodup := by
    refine (nodup_smallest (nodup_candidates cfg ledger)).map_on ?_
    intro c hc c' hc' hid
    exact List.inj_on_of_nodup_map (nodup_map_snd_candidates cfg ledger) (mem_of_mem_smallest hc) (mem_of_mem_smallest hc') hid
  rw [lowestPeers, List.toFinset_card_of_nodup hnodup, List.length_map, length_smallest, candidates, List.length_map]

/-- What a round selects for the regular slots. -/
structure RoundSelects (cfg : TftConfig) (ledger : Ledger) (unchoked : Finset Bytes) : Prop where
  card : unchoked.card = min cfg.unchokeSlots (ledger.rows.filter (fun e => decide (e.2 ≤ cfg.maxDebtBytes))).length
  eligible : ∀ peer ∈ unchoked, ∃ credit, ledger.find peer = some (peer, credit) ∧ credit ≤ cfg.maxDebtBytes
  lowest : ∀ peer ∈ unchoked, ∀ peer' ∉ unchoked, ∀ credit credit', ledger.find peer = some (peer, credit) →
    ledger.find peer' = some (peer', credit') → credit' ≤ cfg.maxDebtBytes → toLex (credit, peer) ≤ toLex (credit', peer')

theorem find_of_mem_lowestPeers (h : byCredit (peer, credit) ∈ smallest cfg.unchokeSlots (candidates cfg ledger.rows)) :
    ledger.find peer = some (peer, credit) ∧ credit ≤ cfg.maxDebtBytes := by
  obtain ⟨hmem, hle⟩ := mem_candidates.mp (mem_of_mem_smallest h)
  exact ⟨Table.find_of_mem hmem, hle⟩

theorem roundSelects_lowestPeers (cfg : TftConfig) (ledger : Ledger) : RoundSelects cfg ledger (lowestPeers cfg ledger.rows) where
  card := card_lowestPeers cfg ledger
  eligible := by
    intro peer hpeer
    obtain ⟨credit, hc⟩ := mem_lowestPeers.mp hpeer
    exact ⟨credit, find_of_mem_lowestPeers hc⟩
  lowest := by
    intro peer hpeer peer' hpeer' credit credit' hfind hfind' hle
    obtain ⟨c, hc⟩ := mem_lowestPeers.mp hpeer
    obtain ⟨hfindc, _⟩ := find_of_mem_lowestPeers hc
    cases hfind.symm.trans hfindc
    refine le_of_mem_smallest hc (mem_candidates (e := (peer', credit')).mpr ⟨Table.mem_of_find hfind', hle⟩) ?_
    intro hin
    exact hpeer' (mem_lowestPeers.mpr ⟨credit', hin⟩)

/-- The regular slots go to the lowest eligible credits, in whatever order the map is walked through. -/
theorem run_round_selects (cfg : TftConfig) (s : TftEngine) (order : HashOrder) :
    RoundSelects cfg s.ledger (s.runRound cfg order).unchoked ∧
      ∀ order' : HashOrder, (s.runRound cfg order').unchoked = (s.runRound cfg order).unchoked := by
  constructor
  · rw [unchoked_runRound]
    exact roundSelects_lowestPeers cfg s.ledger
  · intro order'
    rw [unchoked_runRound, unchoked_runRound]

end Regular

/-! ## The optimistic slot -/

/-- The entry gets a regular slot: it is eligible, and there are slots left after those before it. -/
def GetsSlot (cfg : TftConfig) (ledger : Ledger) (e : Bytes × ℤ) : Prop :=
  e.2 ≤ cfg.maxDebtBytes ∧
    (ledger.rows.filter (fun e' => decide (e'.2 ≤ cfg.maxDebtBytes ∧ toLex (e'.2, e'.1) < toLex (e.2, e.1)))).length < cfg.unchokeSlots

instance decidableGetsSlot (cfg : TftConfig) (ledger : Ledger) (e : Bytes × ℤ) : Decidable (GetsSlot cfg ledger e) :=
  inferInstanceAs (Decidable (_ ∧ _))

/-- The peer that is in the optimistic slot after a round in this state may be there. -/
structure SlotAllowed (cfg : TftConfig) (order : HashOrder) (s : TftEngine) : Prop where
  kept : 1 < s.optRoundsLeft → s.isChokedPermanent cfg s.optUnchoked = false
  rotated : s.optRoundsLeft ≤ 1 → ∀ e,
    (order.walk s.ledger).find? (fun e => decide (¬GetsSlot cfg s.ledger e ∧ e.1 ≠ s.optUnchoked)) = some e → e.2 ≤ cfg.maxDebtBytes
  emptied : s.optRoundsLeft ≤ 1 → (∀ e ∈ s.ledger.rows, GetsSlot cfg s.ledger e ∨ e.1 = s.optUnchoked) → s.isChokedPermanent cfg [] = false

inductive TftEvent
  | forwardedFor (peer : Bytes) (bytes : ℤ)
  | usedFrom (peer : Bytes) (bytes : ℤ)
  | decay
  | round (order : HashOrder)

def TftEngine.next (cfg : TftConfig) (s : TftEngine) : TftEvent → TftEngine
  | .forwardedFor peer bytes => s.recordForwardedFor cfg peer bytes
  | .usedFrom peer bytes => s.recordUsedFrom cfg peer bytes
  | .decay => s.decayCredits cfg
  | .round order => s.runRound cfg order

/-- After the event, if it is a round, nobody is unchoked and choked for good. -/
def RoundExcludes (cfg : TftConfig) (s : TftEngine) (e : TftEvent) : Prop :=
  ∀ order, e = .round order → ∀ peer, ¬((s.next cfg e).isUnchoked peer = true ∧ (s.next cfg e).isChokedPermanent cfg peer = true)

def RoundAllowed (cfg : TftConfig) (s : TftEngine) (e : TftEvent) : Prop := ∀ order, e = .round order → SlotAllowed cfg order s

section Optimistic
variable {cfg : TftConfig} {order : HashOrder} {s : TftEngine} {peer : Bytes} {e : Bytes × ℤ}
open TftEngine

theorem isChokedPermanent_of_find {s : TftEngine} (h : s.ledger.find peer = some e) : s.isChokedPermanent cfg peer = decide (cfg.maxDebtBytes < e.2) := by
  unfold isChokedPermanent
  rw [h]

theorem ledger_runRound (cfg : TftConfig) (order : HashOrder) (s : TftEngine) : (s.runRound cfg order).ledger = s.ledger := by
  unfold runRound
  dsimp only
  split
  · rfl
  · rfl

theorem isChokedPermanent_runRound : (s.runRound cfg order).isChokedPermanent cfg peer = s.isChokedPermanent cfg peer := by
  unfold isChokedPermanent
  rw [ledger_runRound]

theorem filter_candidates (cfg : TftConfig) (ledger : Ledger) (e : Bytes × ℤ) :
    ((candidates cfg ledger.rows).filter (fun c => decide (c < byCredit e))).length =
      (ledger.rows.filter (fun e' => decide (e'.2 ≤ cfg.maxDebtBytes ∧ toLex (e'.2, e'.1) < toLex (e.2, e.1)))).length := by
  rw [candidates, List.filter_map, List.length_map, List.filter_filter]
  congr 2
  funext e'
  rw [Function.comp_apply, ← Bool.decide_and, Bool.decide_congr and_comm]
  rfl

theorem mem_lowestPeers_iff (cfg : TftConfig) (he : e ∈ s.ledger.rows) : e.1 ∈ lowestPeers cfg s.ledger.rows ↔ GetsSlot cfg s.ledger e := by
  have hiff := mem_smallest_iff (k := cfg.unchokeSlots) (a := byCredit e) (nodup_candidates cfg s.ledger)
  rw [mem_candidates, filter_candidates] at hiff
  obtain ⟨peer, credit⟩ := e
  constructor
  · intro hpeer
    obtain ⟨credit', hc⟩ := mem_lowestPeers.mp hpeer
    have hfind := (find_of_mem_lowestPeers hc).1
    rw [Table.find_of_mem he] at hfind
    cases hfind
    obtain ⟨⟨_, hle⟩, hrank⟩ := hiff.mp hc
    exact ⟨hle, hrank⟩
  · rintro ⟨hle, hrank⟩
    exact mem_lowestPeers.mpr ⟨credit, hiff.mpr ⟨⟨he, hle⟩, hrank⟩⟩

theorem not_isChokedPermanent_of_lowest (h : peer ∈ lowestPeers cfg s.ledger.rows) : s.isChokedPermanent cfg peer = false := by
  obtain ⟨credit, hfind, hle⟩ := (roundSelects_lowestPeers cfg s.ledger).eligible peer h
  rw [isChokedPermanent_of_find hfind]
  exact decide_eq_false (not_lt.mpr hle)

/-- Only the optimistic slot can be wrong. -/
theorem roundExcludes_iff_opt (cfg : TftConfig) (order : HashOrder) (s : TftEngine) :
    RoundExcludes cfg s (.round order) ↔ s.isChokedPermanent cfg (s.runRound cfg order).optUnchoked = false := by
  constructor
  · intro h
    rw [← Bool.not_eq_true]
    intro hchoked
    refine h order rfl _ ⟨decide_eq_true (.inr rfl), ?_⟩
    exact isChokedPermanent_runRound.trans hchoked
  · rintro h order' horder peer ⟨hunchoked, hchoked⟩
    have hchoked' : s.isChokedPermanent cfg peer = true := isChokedPermanent_runRound.symm.trans hchoked
    obtain hmem | rfl := of_decide_eq_true hunchoked
    · change peer ∈ (s.runRound cfg order).unchoked at hmem
      rw [unchoked_runRound] at hmem
      rw [not_isChokedPermanent_of_lowest hmem] at hchoked'
      cases hchoked'
    · change s.isChokedPermanent cfg (s.runRound cfg order).optUnchoked = true at hchoked'
      rw [h] at hchoked'
      cases hchoked'

theorem optUnchoked_runRound_kept (h : 1 < s.optRoundsLeft) : (s.runRound cfg order).optUnchoked = s.optUnchoked := by
  unfold runRound
  dsimp only
  rw [if_neg (by omega)]

theorem optUnchoked_runRound_rotated (h : s.optRoundsLeft ≤ 1) : (s.runRound cfg order).optUnchoked =
    (((order.walk s.ledger).find? (fun e => decide (¬GetsSlot cfg s.ledger e ∧ e.1 ≠ s.optUnchoked))).map Prod.fst).getD [] := by
  unfold runRound
  dsimp only
  rw [if_pos (by omega)]
  change s.pickOptUnchoke order _ = _
  rw [pickOptUnchoke, lowestPeers_eq_of_perm cfg (order.perm s.ledger)]
  congr 2
  refine List.find?_congr ?_
  intro e he
  have hiff := mem_lowestPeers_iff cfg ((order.perm s.ledger).mem_iff.mp he)
  exact Bool.decide_congr (and_congr_left' (not_congr hiff))

theorem roundExcludes_iff (cfg : TftConfig) (order : HashOrder) (s : TftEngine) : RoundExcludes cfg s (.round order) ↔ SlotAllowed cfg order s := by
  rw [roundExcludes_iff_opt]
  by_cases hleft : s.optRoundsLeft ≤ 1
  · rw [optUnchoked_runRound_rotated hleft]
    cases hfind : (order.walk s.ledger).find? (fun e => decide (¬GetsSlot cfg s.ledger e ∧ e.1 ≠ s.optUnchoked)) with
    | none =>
      have hall : ∀ e ∈ s.ledger.rows, GetsSlot cfg s.ledger e ∨ e.1 = s.optUnchoked := by
        intro e he
        have hno := List.find?_eq_none.mp hfind e ((order.perm s.ledger).mem_iff.mpr he)
        rwa [decide_eq_true_iff, not_and_or, not_not, not_ne_iff] at hno
      constructor
      · intro hempty
        exact ⟨fun h => absurd hleft (not_le.mpr h), fun _ e he => (nomatch hfind.symm.trans he), fun _ _ => hempty⟩
      · intro h
        exact h.emptied hleft hall
    | some e =>
      have hmem := List.mem_of_find?_eq_some hfind
      have hout := List.find?_some hfind
      rw [decide_eq_true_iff] at hout
      have hrow := (order.perm s.ledger).mem_iff.mp hmem
      change s.isChokedPermanent cfg e.1 = false ↔ _
      rw [isChokedPermanent_of_find (Table.find_of_mem hrow), decide_eq_false_iff_not, not_lt]
      constructor
      · intro hle
        refine ⟨fun h => absurd hleft (not_le.mpr h), ?_, ?_⟩
        · intro _ e' he'
          cases hfind.symm.trans he'
          exact hle
        · intro _ hall
          exact absurd (hall e hrow) (not_or.mpr hout)
      · intro h
        exact h.rotated hleft e hfind
  · rw [optUnchoked_runRound_kept (not_le.mp hleft)]
    constructor
    · intro hkept
      exact ⟨fun _ => hkept, fun h => absurd h hleft, fun h => absurd h hleft⟩
    · intro h
      exact h.kept (not_le.mp hleft)

/-- A run never unchokes a peer that is choked for good if and only if every round finds an optimistic slot that it may fill. -/
theorem never_unchoked_iff (cfg : TftConfig) (es : List TftEvent) :
    Along (TftEngine.next cfg) (RoundExcludes cfg) {} es ↔ Along (TftEngine.next cfg) (RoundAllowed cfg) {} es := by
  refine along_iff (fun _ => True) ?_ (fun _ _ _ _ => trivial) trivial es
  intro s e _
  constructor
  · rintro h order rfl
    exact (roundExcludes_iff cfg order s).mp h
  · rintro h order rfl
    exact (roundExcludes_iff cfg order s).mpr (h order rfl) order rfl

end Optimistic

def insertionOrder : HashOrder := ⟨Table.rows, fun _ => .refl _⟩

/-- One peer, for which 70 MiB are forwarded, and a round. -/
theorem not_roundExcludes_debtor : ¬∀ es, Along (TftEngine.next { decayed := id }) (RoundExcludes { decayed := id }) {} es := by
  intro h
  have hround := (h [.forwardedFor [1] 73400320, .round insertionOrder]).2.1
  have hallowed := (roundExcludes_iff _ _ _).mp hround
  exact absurd (hallowed.rotated (by decide) ([1], 62914560) (by decide)) (by decide)

end ScatterWeb.AnonRouter
