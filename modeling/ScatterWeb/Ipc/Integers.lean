import ScatterWeb.Ipc.Codec

/-! # The integers of a decoded map

`item_to_value` keeps an unsigned item whole. A negative item is computed in 64 bits, `-1 - static_cast<int64_t>(n)`, and for `n` from
`2^63` on the cast has already turned the sign: the integers below `-2^63`, which CBOR can write, come out as numbers that are not negative. -/
namespace ScatterWeb.Ipc
open Crypto Lib Lib.Cbor Lib.SortedMap Client
set_option autoImplicit false

/-! ## Places -/

inductive PathStep
  | index (n : ℕ)
  | key (k : Bytes)

/-- The value of the last pair under a key; a map that is decoded keeps that one. -/
def lastEntry (k : Bytes) : List (Item × Item) → Option Item
  | [] => none
  | (.text k', i) :: kvs => (lastEntry k kvs).or (if k' = k then some i else none)
  | _ :: kvs => lastEntry k kvs

def itemChild : Item → PathStep → Option Item
  | .array xs, .index n => xs[n]?
  | .map kvs, .key k => lastEntry k kvs
  | _, _ => none

def valueChild : CborValue → PathStep → Option CborValue
  | .array vs, .index n => vs[n]?
  | .map m, .key k => (m.find? (fun e => e.1 = k)).map Prod.snd
  | _, _ => none

/-- The item at a place of another one. -/
def itemAt (i : Item) (path : List PathStep) : Option Item := path.foldlM itemChild i

def valueAt (v : CborValue) (path : List PathStep) : Option CborValue := path.foldlM valueChild v

def CborValue.integer : CborValue → Option ℤ
  | .uint u => some u.toNat
  | .int i => some i.toInt
  | _ => none

/-- What the decoder made of an item, if anything is there. -/
abbrev Decoded : Option Item → Option CborValue → Prop := Option.Rel (fun i v => itemToValue i = .ok v)

theorem decoded_getElem {xs : List Item} {vs : List CborValue} (h : itemsToValues xs = .ok vs) (n : ℕ) : Decoded xs[n]? vs[n]? := by
  induction xs generalizing vs n with
  | nil =>
    cases h
    exact .none
  | cons x xs ih =>
    obtain ⟨v, hv, hrest⟩ := bind_eq_ok.mp h
    obtain ⟨rest, hvs, hcons⟩ := bind_eq_ok.mp hrest
    cases hcons
    cases n with
    | zero => exact .some hv
    | succ n => exact ih hvs n

/-- A key that is among the pairs has the value of the last of them, and the others have what they had. -/
theorem find_pairsToValues {kvs : List (Item × Item)} {acc m : List (Bytes × CborValue)} (h : pairsToValues kvs acc = .ok m) (k : Bytes) :
    (∀ i, lastEntry k kvs = some i → ∃ v, m.find? (fun e => e.1 = k) = some (k, v) ∧ itemToValue i = .ok v) ∧
    (lastEntry k kvs = none → m.find? (fun e => e.1 = k) = acc.find? (fun e => e.1 = k)) := by
  induction kvs generalizing acc with
  | nil =>
    cases h
    refine ⟨?_, fun _ => rfl⟩
    intro i hi
    cases hi
  | cons e kvs ih =>
    obtain ⟨k', v, hkey, hv, hrest⟩ := pairsToValues_cons h
    obtain ⟨key, i⟩ := e
    cases hkey
    obtain ⟨hsome, hnone⟩ := ih hrest
    rw [lastEntry]
    cases hlast : lastEntry k kvs with
    | some j =>
      rw [Option.some_or]
      constructor
      · intro i hi
        cases hi
        exact hsome j hlast
      · intro hi
        cases hi
    | none =>
      have hfind := hnone hlast
      rw [find_put] at hfind
      rw [Option.none_or]
      by_cases hk : k' = k
      · rw [if_pos hk] at hfind ⊢
        constructor
        · intro j hj
          cases hj
          exact ⟨v, hk ▸ hfind, hv⟩
        · intro hj
          cases hj
      · rw [if_neg hk] at hfind ⊢
        refine ⟨?_, fun _ => hfind⟩
        intro j hj
        cases hj

theorem decoded_lastEntry {kvs : List (Item × Item)} {m : List (Bytes × CborValue)} (h : pairsToValues kvs [] = .ok m) (k : Bytes) :
    Decoded (lastEntry k kvs) ((m.find? (fun e => e.1 = k)).map Prod.snd) := by
  obtain ⟨hsome, hnone⟩ := find_pairsToValues h k
  cases hlast : lastEntry k kvs with
  | none =>
    rw [hnone hlast]
    exact .none
  | some i =>
    obtain ⟨v, hfind, hv⟩ := hsome i hlast
    rw [hfind]
    exact .some hv

theorem decoded_child {j : Item} {w : CborValue} (h : itemToValue j = .ok w) (st : PathStep) : Decoded (itemChild j st) (valueChild w st) := by
  cases j with
  | array xs =>
    obtain ⟨vs, hvs, heq⟩ := bind_eq_ok.mp h
    cases heq
    cases st with
    | index n => exact decoded_getElem hvs n
    | key k => exact .none
  | map kvs =>
    obtain ⟨m, hm, heq⟩ := bind_eq_ok.mp h
    cases heq
    cases st with
    | index n => exact .none
    | key k => exact decoded_lastEntry hm k
  | uint _ | negint _ | bytes _ | text _ =>
    cases h
    exact .none
  | tag _ _ => cases h
  | prim p =>
    cases p with
    | bool _ | null =>
      cases h
      exact .none
    | undefined | float16 _ | float32 _ | float64 _ => cases h

/-- At every place the result has what the decoder makes of the item there. -/
theorem decoded_at {j : Item} {w : CborValue} (h : itemToValue j = .ok w) (path : List PathStep) :
    Decoded (itemAt j path) (valueAt w path) := by
  induction path generalizing j w with
  | nil => exact .some h
  | cons st path ih =>
    unfold itemAt valueAt
    rw [List.foldlM_cons, List.foldlM_cons]
    have hchild := decoded_child h st
    revert hchild
    generalize itemChild j st = child
    generalize valueChild w st = child'
    intro hchild
    cases hchild with
    | none => exact .none
    | some hdecoded => exact ih hdecoded

/-! ## The 64-bit arithmetic -/

/-- The difference never overflows; the cast has lost the sign before it, or has not. -/
theorem toInt_negint {k : ℕ} (hk : k < 2 ^ 64) :
    (-1 - (UInt64.ofNat k).toInt64).toInt = if k < 2 ^ 63 then -1 - (k : ℤ) else 2 ^ 64 - 1 - k := by
  have hcast : (UInt64.ofNat k).toInt64.toInt = if k < 2 ^ 63 then (k : ℤ) else k - 2 ^ 64 := by
    rw [toInt_toInt64, Int.bmod_def]
    split_ifs <;> omega
  have hone : (-1 : Int64).toInt = -1 := rfl
  rw [Int64.toInt_sub, hone, hcast, Int.bmod_def]
  split_ifs <;> omega

theorem itemToValue_integer {i : Item} {n : ℤ} (hi : i.integer = some n) (hlow : -2 ^ 64 ≤ n) (hhigh : n < 2 ^ 64) :
    ∃ v k, itemToValue i = .ok v ∧ v.integer = some k ∧ (k = n ↔ -2 ^ 63 ≤ n) := by
  cases i with
  | uint a =>
    obtain rfl := Option.some.inj hi
    refine ⟨_, _, rfl, rfl, ?_⟩
    have ha : (UInt64.ofNat a.toNat).toNat = a.toNat := by
      rw [UInt64.toNat_ofNat']
      omega
    rw [ha]
    omega
  | negint a =>
    obtain rfl := Option.some.inj hi
    refine ⟨_, _, rfl, rfl, ?_⟩
    rw [toInt_negint (by omega)]
    split_ifs <;> omega
  | bytes _ | text _ | array _ | map _ | tag _ _ | prim _ => cases hi

/-! ## The whole map -/

/-- Each integer in the map that was read, wherever it stands, decodes to itself, and the map that came out has at every place what the item
there decodes to. -/
structure DecodesIntegers (kvs : List (Item × Item)) (m : CborMap) : Prop where
  items : ∀ (i : Item) (n : ℤ), i.Within (.map kvs) → i.integer = some n → -2 ^ 64 ≤ n → n < 2 ^ 64 →
    ∃ v, itemToValue i = .ok v ∧ v.integer = some n
  places : ∀ path, Decoded (itemAt (.map kvs) path) (valueAt (.map m.entries) path)

theorem itemToValue_of_parseTopMap {load : Bytes → Option Item} {data : Bytes} {kvs : List (Item × Item)} {m : CborMap}
    (hload : load data = some (.map kvs)) (hm : parseTopMap load data = .ok m) : itemToValue (.map kvs) = .ok (.map m.entries) := by
  unfold parseTopMap at hm
  rw [hload] at hm
  change topMap kvs = .ok m at hm
  unfold topMap at hm
  split at hm
  · next entries hpairs =>
    cases hm
    exact bind_eq_ok.mpr ⟨entries, hpairs, rfl⟩
  · cases hm

theorem integers_decoded_iff {load : Bytes → Option Item} {data : Bytes} {kvs : List (Item × Item)} {m : CborMap}
    (hload : load data = some (.map kvs)) (hm : parseTopMap load data = .ok m) :
    DecodesIntegers kvs m ↔ ∀ (i : Item) (n : ℤ), i.Within (.map kvs) → i.integer = some n → -2 ^ 64 ≤ n → -2 ^ 63 ≤ n := by
  have hmap := itemToValue_of_parseTopMap hload hm
  constructor
  · intro h i n hwithin hi hlow
    by_contra hn
    have hhigh : n < 2 ^ 64 := by omega
    obtain ⟨v, k, hv, hk, hiff⟩ := itemToValue_integer hi hlow hhigh
    obtain ⟨w, hw, hwn⟩ := h.items i n hwithin hi hlow hhigh
    obtain rfl := Except.ok.inj (hv.symm.trans hw)
    exact hn (hiff.mp (Option.some.inj (hk.symm.trans hwn)))
  · intro h
    refine ⟨?_, decoded_at hmap⟩
    intro i n hwithin hi hlow hhigh
    obtain ⟨v, k, hv, hk, hiff⟩ := itemToValue_integer hi hlow hhigh
    obtain rfl := hiff.mpr (h i n hwithin hi hlow)
    exact ⟨v, hv, hk⟩

theorem parseTopMap_encode {load : Bytes → Option Item} (hload : Loads load) (kvs : List (Item × Item)) {entries : List (Bytes × CborValue)}
    (h : pairsToValues kvs [] = .ok entries) : ∃ m, parseTopMap load (encode (.map kvs)) = .ok m ∧ m.entries = entries := by
  unfold parseTopMap
  rw [hload.load_encode]
  change ∃ m, topMap kvs = .ok m ∧ m.entries = entries
  unfold topMap
  split
  · next m hm =>
    rw [h] at hm
    cases hm
    exact ⟨_, rfl, rfl⟩
  · next e he =>
    rw [h] at he
    cases he

/-- The largest integer of the format, and inside an array the smallest one that a signed 64-bit integer holds. -/
def limits : List (Item × Item) :=
  [(.text (ascii "max"), .uint (.a64 18446744073709551615)), (.text (ascii "min"), .array [.negint (.a64 9223372036854775807)])]

theorem integers_decoded_limits : ∃ m, parseTopMap Cbor.load (encode (.map limits)) = .ok m ∧ DecodesIntegers limits m := by
  obtain ⟨m, hm, -⟩ := parseTopMap_encode load_loads limits rfl
  refine ⟨m, hm, (integers_decoded_iff (load_loads.load_encode _) hm).mpr ?_⟩
  intro i n hwithin hi _
  cases hwithin with
  | self => cases hi
  | key he h =>
    obtain rfl | rfl := List.mem_pair.mp he
    all_goals
      cases h
      cases hi
  | entry he h =>
    obtain rfl | rfl := List.mem_pair.mp he
    · cases h
      cases hi
      decide
    · cases h with
      | self => cases hi
      | element hx h =>
        obtain rfl := List.mem_singleton.mp hx
        cases h
        cases hi
        decide

def belowMin : List (Item × Item) := [(.text (ascii "x"), .negint (.a64 9223372036854775808))]

/-- `-2^63 - 1` comes out as the largest signed integer. -/
theorem not_decodesIntegers_belowMin : ∃ m, parseTopMap Cbor.load (encode (.map belowMin)) = .ok m ∧
    m.entries = [(ascii "x", .int 9223372036854775807)] ∧ ¬DecodesIntegers belowMin m := by
  obtain ⟨m, hm, hentries⟩ := parseTopMap_encode load_loads belowMin rfl
  refine ⟨m, hm, hentries, ?_⟩
  intro h
  obtain ⟨v, hv, hvn⟩ := h.items (.negint (.a64 9223372036854775808)) (-9223372036854775809) (.entry List.mem_cons_self .self) rfl
    (by decide) (by decide)
  cases hv
  exact absurd hvn (by decide)

end ScatterWeb.Ipc
