import ScatterWeb.AnonRouter.Tft

/-! # The rotation of the optimistic slot

`pick_opt_unchoke` is to take a random peer of those outside the unchoked set. It takes the first one in the order of the hash map, other than
the one in the slot. While the ledger stays as it is the order does too, so the slot goes to and fro between the first two of the
peers that are left over, and the others never get it. -/
namespace ScatterWeb.AnonRouter
open Crypto Lib
set_option autoImplicit false

/-- The peers without a regular slot, in the order of the hash map. -/
def leftOver (cfg : TftConfig) (order : HashOrder) (ledger : Ledger) : List Bytes :=
  ((order.walk ledger).map Prod.fst).filter (fun peer => decide (peer ∉ TftEngine.lowestPeers cfg (order.walk ledger)))

def rounds (cfg : TftConfig) (order : HashOrder) (n : ℕ) (s : TftEngine) : TftEngine := (fun t : TftEngine => t.runRound cfg order)^[n] s

section Rotation
variable {cfg : TftConfig} {order : HashOrder} {s : TftEngine} {a b : Bytes} {rest : List Bytes}

theorem rounds_succ (cfg : TftConfig) (order : HashOrder) (n : ℕ) (s : TftEngine) :
    rounds cfg order (n + 1) s = (rounds cfg order n s).runRound cfg order := Function.iterate_succ_apply' _ n s

theorem ledger_rounds (cfg : TftConfig) (order : HashOrder) (n : ℕ) (s : TftEngine) : (rounds cfg order n s).ledger = s.ledger := by
  induction n with
  | zero => rfl
  | succ n ih => rw [rounds_succ, ledger_runRound, ih]

theorem nodup_leftOver (cfg : TftConfig) (order : HashOrder) (ledger : Ledger) : (leftOver cfg order ledger).Nodup :=
  (((order.perm ledger).map Prod.fst).nodup_iff.mpr ledger.nodup).filter _

theorem leftOver_eq (cfg : TftConfig) (order : HashOrder) (s : TftEngine) :
    leftOver cfg order s.ledger = ((order.walk s.ledger).filter (fun e => decide (¬GetsSlot cfg s.ledger e))).map Prod.fst := by
  unfold leftOver
  rw [List.filter_map, lowestPeers_eq_of_perm cfg (order.perm s.ledger)]
  congr 1
  apply List.filter_congr
  intro e he
  exact Bool.decide_congr (not_congr (mem_lowestPeers_iff cfg ((order.perm s.ledger).mem_iff.mp he)))

/-- The pick is the first that is left over and not in the slot. -/
theorem pickOptUnchoke_eq (cfg : TftConfig) (order : HashOrder) (s : TftEngine) :
    s.pickOptUnchoke order (TftEngine.lowestPeers cfg (order.walk s.ledger)) =
      ((leftOver cfg order s.ledger).find? (fun peer => decide (peer ≠ s.optUnchoked))).getD [] := by
  unfold TftEngine.pickOptUnchoke leftOver
  rw [List.find?_filter, List.find?_map]
  congr 3
  funext e
  simp

theorem pickOptUnchoke_two (hleft : leftOver cfg order s.ledger = a :: b :: rest) :
    s.pickOptUnchoke order (TftEngine.lowestPeers cfg (order.walk s.ledger)) = if s.optUnchoked = a then b else a := by
  have hnodup := nodup_leftOver cfg order s.ledger
  rw [hleft] at hnodup
  have hne : a ≠ b := fun h => (List.nodup_cons.mp hnodup).1 (h ▸ List.mem_cons_self)
  rw [pickOptUnchoke_eq, hleft]
  by_cases hcur : s.optUnchoked = a
  · rw [if_pos hcur, List.find?_cons_of_neg (by simp [hcur]), List.find?_cons_of_pos (by simp [hcur, hne.symm])]
    rfl
  · rw [if_neg hcur, List.find?_cons_of_pos (by simp [Ne.symm hcur])]
    rfl

/-- One round: the slot changes hands when its rounds are up. -/
theorem runRound_slot (hleft : leftOver cfg order s.ledger = a :: b :: rest) :
    (s.optRoundsLeft ≤ 1 → (s.runRound cfg order).optUnchoked = (if s.optUnchoked = a then b else a) ∧
        (s.runRound cfg order).optRoundsLeft = cfg.optUnchokeInterval) ∧
      (1 < s.optRoundsLeft → (s.runRound cfg order).optUnchoked = s.optUnchoked ∧
        (s.runRound cfg order).optRoundsLeft = s.optRoundsLeft - 1) := by
  have hpick := pickOptUnchoke_two hleft
  unfold TftEngine.runRound
  dsimp only
  constructor
  · intro hdue
    rw [if_pos (by omega)]
    exact ⟨hpick, rfl⟩
  · intro hkeep
    rw [if_neg (by omega)]
    exact ⟨rfl, rfl⟩

/-- Who has the slot after `k` changes of hands, if `cur` had it before the first. -/
def holder (cur a b : Bytes) (k : ℕ) : Bytes := if cur = a then (if k % 2 = 0 then b else a) else (if k % 2 = 0 then a else b)

theorem holder_zero (cur a b : Bytes) : holder cur a b 0 = if cur = a then b else a := rfl

theorem holder_succ (cur : Bytes) (hne : a ≠ b) (k : ℕ) : holder cur a b (k + 1) = if holder cur a b k = a then b else a := by
  unfold holder
  rcases Nat.mod_two_eq_zero_or_one k with heven | hodd
  · have hnext : (k + 1) % 2 = 1 := by omega
    simp only [heven, hnext]
    split <;> simp [hne.symm]
  · have hnext : (k + 1) % 2 = 0 := by omega
    simp only [hodd, hnext]
    split <;> simp [hne.symm]

theorem succ_div_mod_of_last {n i : ℕ} (hi : 0 < i) (h : n % i + 1 = i) : (n + 1) / i = n / i + 1 ∧ (n + 1) % i = 0 := by
  have hn := Nat.mod_add_div n i
  refine (Nat.div_mod_unique hi).mpr ⟨?_, hi⟩
  rw [Nat.mul_add, Nat.mul_one]
  omega

theorem succ_div_mod_of_lt {n i : ℕ} (hi : 0 < i) (h : n % i + 1 < i) : (n + 1) / i = n / i ∧ (n + 1) % i = n % i + 1 := by
  have hn := Nat.mod_add_div n i
  refine (Nat.div_mod_unique hi).mpr ⟨?_, h⟩
  omega

/-- After round `n + 1` the slot has changed hands `n / i` times more, and has been held for `n % i` rounds. -/
theorem rounds_slot {i : ℕ} (hi : 0 < i) (hcfg : cfg.optUnchokeInterval = i) (hdue : s.optRoundsLeft ≤ 1)
    (hleft : leftOver cfg order s.ledger = a :: b :: rest) (n : ℕ) :
    (rounds cfg order (n + 1) s).optUnchoked = holder s.optUnchoked a b (n / i) ∧
      (rounds cfg order (n + 1) s).optRoundsLeft = (i : ℤ) - (n % i : ℕ) := by
  have hnodup := nodup_leftOver cfg order s.ledger
  rw [hleft] at hnodup
  have hne : a ≠ b := fun h => (List.nodup_cons.mp hnodup).1 (h ▸ List.mem_cons_self)
  induction n with
  | zero =>
    obtain ⟨hslot, hrounds⟩ := (runRound_slot hleft).1 hdue
    rw [Nat.zero_div, Nat.zero_mod, holder_zero, rounds_succ]
    exact ⟨hslot, hrounds.trans (by rw [hcfg]; simp)⟩
  | succ n ih =>
    obtain ⟨ihslot, ihrounds⟩ := ih
    have hstep := runRound_slot (s := rounds cfg order (n + 1) s) (by rw [ledger_rounds]; exact hleft)
    have hmod := Nat.mod_lt n hi
    rw [rounds_succ]
    by_cases hlast : n % i + 1 = i
    · obtain ⟨hdiv, hrem⟩ := succ_div_mod_of_last hi hlast
      obtain ⟨hslot, hrounds⟩ := hstep.1 (by omega)
      rw [hslot, hrounds, ihslot, hdiv, hrem, hcfg, holder_succ _ hne]
      exact ⟨rfl, by simp⟩
    · obtain ⟨hdiv, hrem⟩ := succ_div_mod_of_lt hi (show n % i + 1 < i by omega)
      obtain ⟨hslot, hrounds⟩ := hstep.2 (by omega)
      rw [hslot, hrounds, ihslot, ihrounds, hdiv, hrem]
      refine ⟨rfl, ?_⟩
      push_cast
      omega

/-- While the ledger stays as it is, the optimistic slot changes hands every `opt_unchoke_interval` rounds, always between the first two
peers that are left over, and no other peer ever gets it. -/
theorem optimistic_slot_alternates {i : ℕ} (hi : 0 < i) (hcfg : cfg.optUnchokeInterval = i) (hdue : s.optRoundsLeft ≤ 1)
    (hleft : leftOver cfg order s.ledger = a :: b :: rest) (n : ℕ) :
    (rounds cfg order (n + 1) s).optUnchoked = holder s.optUnchoked a b (n / i) ∧
      ∀ c ∈ rest, (rounds cfg order (n + 1) s).isUnchoked c = false := by
  have hslot := (rounds_slot hi hcfg hdue hleft n).1
  have hnodup := nodup_leftOver cfg order s.ledger
  rw [hleft] at hnodup
  refine ⟨hslot, ?_⟩
  intro c hc
  have hout : c ∉ TftEngine.lowestPeers cfg (order.walk s.ledger) := by
    have hmem : c ∈ leftOver cfg order s.ledger := by
      rw [hleft]
      exact List.mem_cons_of_mem a (List.mem_cons_of_mem b hc)
    simpa using (List.mem_filter.mp hmem).2
  have hregular : (rounds cfg order (n + 1) s).unchoked = TftEngine.lowestPeers cfg (order.walk s.ledger) := by
    rw [rounds_succ, unchoked_runRound, ledger_rounds, lowestPeers_eq_of_perm cfg (order.perm s.ledger)]
  have hca : c ≠ a := fun h => (List.nodup_cons.mp hnodup).1 (h ▸ List.mem_cons_of_mem b hc)
  have hcb : c ≠ b := fun h => (List.nodup_cons.mp (List.nodup_cons.mp hnodup).2).1 (h ▸ hc)
  have hholder : c ≠ holder s.optUnchoked a b (n / i) := by
    unfold holder
    split_ifs
    · exact hcb
    · exact hca
    · exact hca
    · exact hcb
  unfold TftEngine.isUnchoked
  rw [hregular, hslot]
  exact decide_eq_false (not_or.mpr ⟨hout, hholder⟩)

end Rotation

/-- Four peers and one regular slot: of the three that are left over the last is never served. -/
theorem optimistic_slot_alternates_four :
    let cfg : TftConfig := { unchokeSlots := 1, decayed := id }
    let s : TftEngine := { ledger := ⟨[([1], 0), ([2], 1), ([3], 2), ([4], 3)], by decide⟩ }
    ∀ n, (rounds cfg insertionOrder (n + 1) s).isUnchoked [4] = false := by
  intro cfg s n
  have hleft : leftOver cfg insertionOrder s.ledger = [[2], [3], [4]] := by
    rw [leftOver_eq]
    decide
  exact (optimistic_slot_alternates (i := 3) (by decide) rfl (by decide) hleft n).2 [4] List.mem_cons_self

end ScatterWeb.AnonRouter
