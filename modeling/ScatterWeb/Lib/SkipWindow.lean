import Mathlib.Data.Finset.Card
import Mathlib.Order.Interval.Finset.Nat

/-! # A receive window with a bounded set of skipped positions

The receiver of an ordered stream stands at position `next`. Reading a later position passes over
the positions in between; these are kept in `cache`, and a cached position can still be read once.
At most `cap` positions are kept: skipping beyond that stops where the cache is full and fails.

`Accounts w used` ties a window to the set of positions read so far: the cache is exactly what was
passed over and not read. Under it a position is readable exactly when at most `cap` positions
before it are unread (`receive_ok_iff`). -/
namespace ScatterWeb.Lib
set_option autoImplicit false

/-- A window that keeps at most `cap` skipped positions, all of them behind `next`. -/
structure Window (cap : ℕ) where
  next : ℕ
  cache : Finset ℕ
  below : ∀ i ∈ cache, i < next
  card_le : cache.card ≤ cap

namespace Window
variable {cap : ℕ}

/-! ## Operations -/

def empty (cap : ℕ) : Window cap := ⟨0, ∅, by simp, by simp⟩

theorem next_notMem (w : Window cap) : w.next ∉ w.cache := fun h => lt_irrefl _ (w.below _ h)

def skipOne (w : Window cap) (room : w.cache.card < cap) : Window cap where
  next := w.next + 1
  cache := insert w.next w.cache
  below := by
    intro i hi
    rcases Finset.mem_insert.mp hi with rfl | hi
    · exact Nat.lt_succ_self _
    · exact Nat.lt_succ_of_lt (w.below i hi)
  card_le := by
    rw [Finset.card_insert_of_notMem w.next_notMem]
    exact room

/-- Pass over `n` positions; stops and fails when the cache is full. -/
def skip : ℕ → Window cap → Window cap × Bool
  | 0, w => (w, true)
  | n + 1, w => if room : w.cache.card < cap then skip n (w.skipOne room) else (w, false)

def take (w : Window cap) : Window cap where
  next := w.next + 1
  cache := w.cache
  below := fun i hi => Nat.lt_succ_of_lt (w.below i hi)
  card_le := w.card_le

def use (w : Window cap) (i : ℕ) : Window cap where
  next := w.next
  cache := w.cache.erase i
  below := fun j hj => w.below j (Finset.mem_of_mem_erase hj)
  card_le := (Finset.card_erase_le).trans w.card_le

/-- Read position `i`: from the cache, or by passing over everything before it. -/
def receive (w : Window cap) (i : ℕ) : Window cap × Bool :=
  if i ∈ w.cache then (w.use i, true)
  else if w.next ≤ i then
    match skip (i - w.next) w with
    | (w', true) => (w'.take, true)
    | (w', false) => (w', false)
  else (w, false)

@[simp] theorem skipOne_next (w : Window cap) (room : w.cache.card < cap) :
    (w.skipOne room).next = w.next + 1 := rfl

@[simp] theorem skipOne_cache (w : Window cap) (room : w.cache.card < cap) :
    (w.skipOne room).cache = insert w.next w.cache := rfl

@[simp] theorem take_next (w : Window cap) : w.take.next = w.next + 1 := rfl

@[simp] theorem take_cache (w : Window cap) : w.take.cache = w.cache := rfl

@[simp] theorem use_next (w : Window cap) (i : ℕ) : (w.use i).next = w.next := rfl

@[simp] theorem use_cache (w : Window cap) (i : ℕ) : (w.use i).cache = w.cache.erase i := rfl

theorem skipOne_card (w : Window cap) (room : w.cache.card < cap) :
    (w.skipOne room).cache.card = w.cache.card + 1 :=
  Finset.card_insert_of_notMem w.next_notMem

/-! ## Skipping -/

theorem skip_ok_iff (n : ℕ) (w : Window cap) : (skip n w).2 = true ↔ w.cache.card + n ≤ cap := by
  induction n generalizing w with
  | zero => simpa [skip] using w.card_le
  | succ n ih =>
    by_cases room : w.cache.card < cap
    · simp only [skip, dif_pos room]
      rw [ih, skipOne_card]
      omega
    · simp only [skip, dif_neg room]
      simp
      omega

theorem skip_next (n : ℕ) (w : Window cap) (h : (skip n w).2 = true) :
    (skip n w).1.next = w.next + n := by
  induction n generalizing w with
  | zero => rfl
  | succ n ih =>
    by_cases room : w.cache.card < cap
    · simp only [skip, dif_pos room] at h ⊢
      rw [ih _ h, skipOne_next]
      omega
    · simp [skip, dif_neg room] at h

/-! ## Accounting -/

/-- The cache is what was passed over and not read, and everything read was passed. -/
structure Accounts (w : Window cap) (used : Finset ℕ) : Prop where
  used_lt : ∀ i ∈ used, i < w.next
  cache_eq : w.cache = Finset.range w.next \ used

variable {w : Window cap} {used : Finset ℕ}

theorem Accounts.empty (cap : ℕ) : Accounts (Window.empty cap) ∅ :=
  ⟨by simp, by simp [Window.empty]⟩

theorem Accounts.mem_cache (h : Accounts w used) {i : ℕ} : i ∈ w.cache ↔ i < w.next ∧ i ∉ used := by
  rw [h.cache_eq, Finset.mem_sdiff, Finset.mem_range]

theorem Accounts.skipOne (h : Accounts w used) (room : w.cache.card < cap) :
    Accounts (w.skipOne room) used := by
  have hnext : w.next ∉ used := fun hm => lt_irrefl _ (h.used_lt _ hm)
  refine ⟨fun i hi => Nat.lt_succ_of_lt (h.used_lt i hi), ?_⟩
  rw [skipOne_cache, skipOne_next, Finset.range_add_one, Finset.insert_sdiff_of_notMem _ hnext, h.cache_eq]

theorem Accounts.skip (n : ℕ) (h : Accounts w used) : Accounts (skip n w).1 used := by
  induction n generalizing w with
  | zero => exact h
  | succ n ih =>
    by_cases room : w.cache.card < cap
    · simp only [Window.skip, dif_pos room]
      exact ih (h.skipOne room)
    · simpa only [Window.skip, dif_neg room] using h

theorem Accounts.take (h : Accounts w used) : Accounts w.take (insert w.next used) := by
  refine ⟨?_, ?_⟩
  · intro i hi
    rcases Finset.mem_insert.mp hi with rfl | hi
    · exact Nat.lt_succ_self _
    · exact Nat.lt_succ_of_lt (h.used_lt i hi)
  · rw [take_cache, take_next, Finset.range_add_one, Finset.insert_sdiff_insert,
      Finset.sdiff_insert_of_notMem (by simp) used, h.cache_eq]

theorem Accounts.use (h : Accounts w used) {i : ℕ} (hi : i ∈ w.cache) :
    Accounts (w.use i) (insert i used) := by
  refine ⟨?_, ?_⟩
  · intro j hj
    rcases Finset.mem_insert.mp hj with rfl | hj
    · exact w.below _ hi
    · exact h.used_lt j hj
  · rw [use_cache, use_next, h.cache_eq]
    ext j
    simp only [Finset.mem_erase, Finset.mem_sdiff, Finset.mem_range, Finset.mem_insert]
    tauto

/-- The positions skipped and to be skipped on the way to `i` are the unread ones before `i`. -/
theorem Accounts.card_add_gap (h : Accounts w used) {i : ℕ} (hi : w.next ≤ i) :
    w.cache.card + (i - w.next) = (Finset.range i \ used).card := by
  have hsub : used ⊆ Finset.range w.next := fun j hj => Finset.mem_range.mpr (h.used_lt j hj)
  have hle := Finset.card_le_card hsub
  have hsub' : used ⊆ Finset.range i := hsub.trans (Finset.range_subset_range.mpr hi)
  rw [h.cache_eq, Finset.card_sdiff_of_subset hsub, Finset.card_sdiff_of_subset hsub']
  simp only [Finset.card_range] at hle ⊢
  omega

/-! ## Reading -/

theorem receive_cached {i : ℕ} (hi : i ∈ w.cache) : w.receive i = (w.use i, true) := by
  simp [receive, hi]

theorem receive_ahead {i : ℕ} (hi : w.next ≤ i) :
    w.receive i = if (skip (i - w.next) w).2 then ((skip (i - w.next) w).1.take, true)
      else ((skip (i - w.next) w).1, false) := by
  have hnot : i ∉ w.cache := fun hm => absurd (w.below i hm) (by omega)
  simp only [receive, if_neg hnot, if_pos hi]
  rcases skip (i - w.next) w with ⟨w', ok⟩
  cases ok <;> rfl

/-- A position ahead of the window is readable exactly when at most `cap` before it are unread. -/
theorem receive_ok_iff (h : Accounts w used) {i : ℕ} (hi : w.next ≤ i) :
    (w.receive i).2 = true ↔ (Finset.range i \ used).card ≤ cap := by
  rw [receive_ahead hi, ← h.card_add_gap hi, ← skip_ok_iff]
  by_cases hok : (skip (i - w.next) w).2 = true
  · simp [hok]
  · simp [hok]

theorem receive_accounts (h : Accounts w used) {i : ℕ} (hok : (w.receive i).2 = true) :
    Accounts (w.receive i).1 (insert i used) := by
  by_cases hc : i ∈ w.cache
  · rw [receive_cached hc]
    exact h.use hc
  · have hi : w.next ≤ i := by
      by_contra hlt
      simp [receive, hc, hlt] at hok
    rw [receive_ahead hi] at hok ⊢
    by_cases hs : (Window.skip (i - w.next) w).2 = true
    · have hn := skip_next _ w hs
      rw [if_pos hs]
      have ht := (h.skip (i - w.next)).take
      rw [hn, Nat.add_sub_cancel' hi] at ht
      exact ht
    · simp [hs] at hok

theorem receive_accounts_of_fail (h : Accounts w used) {i : ℕ} (hok : (w.receive i).2 = false) :
    Accounts (w.receive i).1 used := by
  by_cases hc : i ∈ w.cache
  · simp [receive_cached hc] at hok
  · by_cases hi : w.next ≤ i
    · rw [receive_ahead hi] at hok ⊢
      by_cases hs : (Window.skip (i - w.next) w).2 = true
      · simp [hs] at hok
      · rw [if_neg hs]
        exact h.skip _
    · simpa [receive, hc, hi] using h

end Window

end ScatterWeb.Lib
