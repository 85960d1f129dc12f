import Mathlib.Data.List.Nodup

/-! # Tables with a primary key

The rows of a table in the order of their insertion, no two with the same key. A change of rows keeps their
keys, so a table is determined by what `find` returns, and each operation has one equation for it. -/
namespace ScatterWeb.Lib
set_option autoImplicit false

structure Table {ρ κ : Type} (key : ρ → κ) where
  rows : List ρ
  nodup : (rows.map key).Nodup

namespace Table
variable {ρ κ : Type} [DecidableEq κ] {key : ρ → κ}

def empty : Table key := ⟨[], List.nodup_nil⟩

def find (t : Table key) (k : κ) : Option ρ := t.rows.find? (fun r => decide (key r = k))

theorem key_of_find {t : Table key} {k : κ} {r : ρ} (h : t.find k = some r) : key r = k := by
  unfold find at h
  simpa using List.find?_some h

theorem mem_of_find {t : Table key} {k : κ} {r : ρ} (h : t.find k = some r) : r ∈ t.rows := List.mem_of_find?_eq_some h

theorem find_of_mem {t : Table key} {r : ρ} (h : r ∈ t.rows) : t.find (key r) = some r := by
  cases hfind : t.find (key r) with
  | none =>
    unfold find at hfind
    have hne := List.find?_eq_none.mp hfind r h
    simp at hne
  | some r' => rw [List.inj_on_of_nodup_map t.nodup (mem_of_find hfind) h (key_of_find hfind)]

theorem find_eq_none_iff {t : Table key} {k : κ} : t.find k = none ↔ ∀ r ∈ t.rows, key r ≠ k := by
  unfold find
  rw [List.find?_eq_none]
  simp

/-- A key selects the row that `find` returns and no other. -/
theorem filter_key_eq_toList (t : Table key) (k : κ) : t.rows.filter (fun r => decide (key r = k)) = (t.find k).toList := by
  obtain ⟨rows, hnodup⟩ := t
  unfold find
  dsimp only
  induction rows with
  | nil => rfl
  | cons r rows ih =>
    rw [List.map_cons, List.nodup_cons] at hnodup
    by_cases hk : key r = k
    · have hrest : rows.filter (fun r => decide (key r = k)) = [] := by
        rw [List.filter_eq_nil_iff]
        intro r' hr' hkey
        have hkey' : key r' = key r := (of_decide_eq_true hkey).trans hk.symm
        exact hnodup.1 (hkey' ▸ List.mem_map_of_mem hr')
      rw [List.filter_cons_of_pos (by simpa using hk), List.find?_cons_of_pos (by simpa using hk), hrest]
      rfl
    · rw [List.filter_cons_of_neg (by simpa using hk), List.find?_cons_of_neg (by simpa using hk)]
      exact ih hnodup.2

/-- Rows are counted by their keys. -/
theorem length_filter_keys (t : Table key) {p sel : ρ → Bool} {ks : List κ} (hks : ks.Nodup)
    (hsel : ∀ r ∈ t.rows, sel r = true ↔ p r = true ∧ key r ∈ ks) :
    (t.rows.filter sel).length = (ks.filter (fun k => (t.find k).any p)).length := by
  rw [← List.length_map (f := key)]
  refine List.Perm.length_eq ((List.perm_ext_iff_of_nodup ?_ (hks.filter _)).mpr ?_)
  · exact (List.filter_sublist.map key).nodup t.nodup
  · intro k
    rw [List.mem_map, List.mem_filter, Option.any_eq_true]
    constructor
    · rintro ⟨r, hr, rfl⟩
      obtain ⟨hmem, hr⟩ := List.mem_filter.mp hr
      obtain ⟨hp, hk⟩ := (hsel r hmem).mp hr
      exact ⟨hk, r, find_of_mem hmem, hp⟩
    · rintro ⟨hk, r, hfind, hp⟩
      obtain rfl := key_of_find hfind
      have hmem := mem_of_find hfind
      exact ⟨r, List.mem_filter.mpr ⟨hmem, (hsel r hmem).mpr ⟨hp, hk⟩⟩, rfl⟩

/-! ## Insertion -/

def insert (t : Table key) (r : ρ) (h : t.find (key r) = none) : Table key where
  rows := t.rows ++ [r]
  nodup := by
    rw [List.map_append, List.nodup_append]
    refine ⟨t.nodup, List.nodup_singleton _, ?_⟩
    intro k hk k' hk'
    obtain ⟨r', hr', rfl⟩ := List.mem_map.mp hk
    rw [List.mem_singleton.mp hk']
    exact find_eq_none_iff.mp h r' hr'

theorem find_insert (t : Table key) (r : ρ) (h : t.find (key r) = none) (k : κ) :
    (t.insert r h).find k = if key r = k then some r else t.find k := by
  have hsplit : (t.insert r h).find k = (t.find k).or (if key r = k then some r else none) := by
    unfold find insert
    rw [List.find?_append]
    congr 1
    by_cases hk : key r = k
    · simp [hk]
    · simp [hk]
  rw [hsplit]
  by_cases hk : key r = k
  · rw [if_pos hk, if_pos hk, ← hk, h, Option.none_or]
  · rw [if_neg hk, if_neg hk, Option.or_none]

/-! ## Changes and deletions -/

/-- Change every row. -/
def map (t : Table key) (f : ρ → ρ) (hf : ∀ r, key (f r) = key r) : Table key where
  rows := t.rows.map f
  nodup := by
    rw [List.map_map, show key ∘ f = key from funext hf]
    exact t.nodup

theorem find_map (t : Table key) (f : ρ → ρ) (hf : ∀ r, key (f r) = key r) (k : κ) :
    (t.map f hf).find k = (t.find k).map f := by
  unfold find map
  rw [List.find?_map]
  congr 2
  funext r
  exact congrArg (fun x => decide (x = k)) (hf r)

/-- Change the row with the given key. -/
def update (t : Table key) (k : κ) (f : ρ → ρ) (hf : ∀ r, key (f r) = key r) : Table key :=
  t.map (fun r => if key r = k then f r else r) (by
    intro r
    split
    · exact hf r
    · rfl)

theorem find_update (t : Table key) (k : κ) (f : ρ → ρ) (hf : ∀ r, key (f r) = key r) (k' : κ) :
    (t.update k f hf).find k' = if k = k' then (t.find k').map f else t.find k' := by
  unfold update
  rw [find_map]
  cases hfind : t.find k' with
  | none => rw [Option.map_none, Option.map_none, ite_self]
  | some r =>
    rw [Option.map_some, Option.map_some, key_of_find hfind]
    by_cases hk : k = k'
    · rw [if_pos hk.symm, if_pos hk]
    · rw [if_neg (Ne.symm hk), if_neg hk]

def filter (t : Table key) (p : ρ → Bool) : Table key where
  rows := t.rows.filter p
  nodup := (List.filter_sublist.map key).nodup t.nodup

theorem find_filter (t : Table key) (p : ρ → Bool) (k : κ) : (t.filter p).find k = (t.find k).filter p := by
  cases hfind : t.find k with
  | none =>
    rw [find_eq_none_iff] at hfind
    rw [Option.filter_none, find_eq_none_iff]
    intro r hr
    exact hfind r (List.mem_of_mem_filter hr)
  | some r =>
    obtain rfl := key_of_find hfind
    by_cases hp : p r = true
    · have hmem : r ∈ (t.filter p).rows := List.mem_filter.mpr ⟨mem_of_find hfind, hp⟩
      rw [find_of_mem hmem, Option.filter_some, if_pos hp]
    · rw [Option.filter_some, if_neg hp, find_eq_none_iff]
      intro r' hr' hkey
      obtain ⟨hmem, hp'⟩ := List.mem_filter.mp hr'
      have hsome := find_of_mem hmem
      rw [hkey, hfind] at hsome
      cases hsome
      exact hp hp'

/-! ## Insertion where there may be a row already -/

/-- Insert the row unless there is one with its key; the flag tells. -/
def insertNew (t : Table key) (r : ρ) : Table key × Bool :=
  if h : t.find (key r) = none then (t.insert r h, true) else (t, false)

theorem find_insertNew (t : Table key) (r : ρ) (k : κ) :
    (t.insertNew r).1.find k = if key r = k ∧ t.find k = none then some r else t.find k := by
  unfold insertNew
  by_cases h : t.find (key r) = none
  · rw [dif_pos h, find_insert]
    by_cases hk : key r = k
    · rw [if_pos hk, if_pos ⟨hk, hk ▸ h⟩]
    · rw [if_neg hk, if_neg (not_and_of_not_left _ hk)]
  · rw [dif_neg h]
    refine (if_neg ?_).symm
    rintro ⟨rfl, hnone⟩
    exact h hnone

theorem find_insertNew_of_some {t : Table key} {r r' : ρ} {k : κ} (h : t.find k = some r') :
    (t.insertNew r).1.find k = some r' := by
  rw [find_insertNew, h, if_neg]
  rintro ⟨_, hnone⟩
  cases hnone

theorem find_insertNew_of_ne {t : Table key} {r : ρ} {k : κ} (h : key r ≠ k) : (t.insertNew r).1.find k = t.find k := by
  rw [find_insertNew, if_neg (not_and_of_not_left _ h)]

theorem insertNew_of_find_none {t : Table key} {r : ρ} (h : t.find (key r) = none) : (t.insertNew r).2 = true := by
  unfold insertNew
  rw [dif_pos h]

theorem rows_insertNew {t : Table key} {r : ρ} (h : t.find (key r) = none) : (t.insertNew r).1.rows = t.rows ++ [r] := by
  unfold insertNew
  rw [dif_pos h]
  rfl

theorem insertNew_of_find_some {t : Table key} {r r' : ρ} (h : t.find (key r) = some r') : t.insertNew r = (t, false) := by
  unfold insertNew
  rw [dif_neg (h ▸ Option.some_ne_none r')]

theorem find_none_of_insertNew {t : Table key} {r : ρ} (h : (t.insertNew r).2 = true) : t.find (key r) = none := by
  unfold insertNew at h
  split at h
  · assumption
  · cases h

theorem mem_insertNew {t : Table key} {r r' : ρ} (h : r' ∈ (t.insertNew r).1.rows) : r' ∈ t.rows ∨ r' = r := by
  unfold insertNew at h
  split at h
  · obtain hold | hnew := List.mem_append.mp h
    · exact Or.inl hold
    · exact Or.inr (List.mem_singleton.mp hnew)
  · exact Or.inl h

/-- Insert the row in place of the one with its key. -/
def upsert (t : Table key) (r : ρ) : Table key :=
  (t.filter (fun r' => decide (key r' ≠ key r))).insert r (by
    rw [find_eq_none_iff]
    intro r' hr'
    exact of_decide_eq_true (List.mem_filter.mp hr').2)

theorem find_upsert (t : Table key) (r : ρ) (k : κ) : (t.upsert r).find k = if key r = k then some r else t.find k := by
  unfold upsert
  rw [find_insert, find_filter]
  by_cases hk : key r = k
  · rw [if_pos hk, if_pos hk]
  · rw [if_neg hk, if_neg hk]
    cases hfind : t.find k with
    | none => rfl
    | some r' =>
      obtain rfl := key_of_find hfind
      exact Option.filter_some_pos (decide_eq_true (Ne.symm hk))

theorem mem_upsert {t : Table key} {r r' : ρ} : r' ∈ (t.upsert r).rows ↔ (r' ∈ t.rows ∧ key r' ≠ key r) ∨ r' = r := by
  change r' ∈ t.rows.filter (fun r' => decide (key r' ≠ key r)) ++ [r] ↔ _
  rw [List.mem_append, List.mem_filter, List.mem_singleton, decide_eq_true_iff]

theorem mem_foldl_upsert {α : Type} {f : α → ρ} {xs : List α} {t : Table key} {r : ρ} (h : r ∈ (xs.foldl (fun t x => t.upsert (f x)) t).rows) :
    r ∈ t.rows ∨ ∃ x ∈ xs, r = f x := by
  induction xs generalizing t with
  | nil => exact Or.inl h
  | cons x xs ih =>
    rcases ih h with hold | ⟨x', hx', heq⟩
    · rcases mem_upsert.mp hold with ⟨hmem, _⟩ | heq
      · exact Or.inl hmem
      · exact Or.inr ⟨x, List.mem_cons_self, heq⟩
    · exact Or.inr ⟨x', List.mem_cons_of_mem x hx', heq⟩

end Table

end ScatterWeb.Lib
