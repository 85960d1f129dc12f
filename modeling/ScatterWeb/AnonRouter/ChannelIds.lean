import ScatterWeb.AnonRouter.Handshake
import ScatterWeb.Ipc.Codec
import ScatterWeb.Lib.Numeral
import ScatterWeb.Mailbox.Frames

/-! # Channel ids in requests

Requests name a channel by 32 hexadecimal digits. `Router::dispatch_ipc` reads them itself for `channel.accept`, `IpcHandler` for all
other methods. The handler refuses texts of another length; the router makes the zero id of a short one and ignores the end of a long
one, and a `CHAN_OPEN` without an id has registered a channel under the zero id. Both leave the digits to `std::stoi`, which is also
content with a blank or a sign before a digit and with a digit before anything. -/
namespace ScatterWeb.AnonRouter
open Crypto Lib Lib.Numeral Ipc
open Mailbox (bytesToHex hexDigit)
set_option autoImplicit false

inductive RequestError
  | runtime (what : String)
  | conversion (e : ConversionError)
  | router (e : RouterError)
  deriving DecidableEq

def RequestError.what : RequestError → String
  | .runtime what => what
  | .conversion _ => "stoi"
  | .router e => e.what

def chanIdHex (id : MessageId) : Bytes := bytesToHex id.toList

/-- The loop over the pairs of characters. -/
def readPairs : ℕ → Bytes → Except ConversionError Bytes
  | 0, _ => .ok []
  | n + 1, h => do
    let i ← Numeral.stoi 16 (h.take 2)
    let rest ← readPairs n (h.drop 2)
    .ok (UInt8.ofInt i :: rest)

def idOfPairs (h : Bytes) : Except RequestError MessageId := ((readPairs 16 h).map (fit 16)).mapError .conversion

/-- The function of the router. -/
def chanIdFromHex (h : Bytes) : Except RequestError MessageId := if h.length < 32 then .ok (fit 16 []) else idOfPairs h

/-- The function of the handler. -/
def fromHex (h : Bytes) : Except RequestError MessageId :=
  if h.length ≠ 32 then .error (.runtime "channel_id hex must be 32 chars") else idOfPairs h

def getString (p : CborMap) (key : String) : Except RequestError Bytes :=
  match p.find key with
  | none => .error (.runtime ("missing param: " ++ key))
  | some (.string s) => .ok s
  | some _ => .error (.runtime ("param not string: " ++ key))

def requireChannelId (p : CborMap) : Except RequestError MessageId := getString p "channel_id" >>= fromHex

section Requests
variable (A : Aes) (r : Router) (p : CborMap) (newKey : AesKey)

/-- `channel_accept` of the handler. -/
def channelAccept : Router × Output × Except RequestError Reply :=
  match requireChannelId p with
  | .error e => (r, {}, .error e)
  | .ok id => ({ r with channels := (accept r.channels id newKey).1 }, {}, .ok (.ok id (accept r.channels id newKey).2.isSome))

/-- `dispatch_ipc` for `channel.accept`. -/
def dispatchAccept : Router × Output × Except RequestError Reply :=
  match p.find "channel_id" with
  | some (.string h) =>
    match chanIdFromHex h with
    | .error e => (r, {}, .error e)
    | .ok id =>
      let (r, out, reply) := dispatchIpc A r (.channelAccept id newKey)
      (r, out, reply.mapError .router)
  | _ => channelAccept r p newKey

end Requests

/-- A text that an id is written as. -/
def IsChannelHex (h : Bytes) : Prop := h.length = 32 ∧ ∀ c ∈ h, isHexDigit c = true

structure ParsesId (h : Bytes) : Prop where
  agree : ∀ id, chanIdFromHex h = .ok id ↔ fromHex h = .ok id
  accepts : (∃ id, fromHex h = .ok id) ↔ IsChannelHex h
  unchanged : ¬IsChannelHex h → ∀ (A : Aes) (r : Router) (p : CborMap) (newKey : AesKey), p.find "channel_id" = some (.string h) →
    (dispatchAccept A r p newKey).1.channels = r.channels

/-- `std::stoi` throws at the pair. -/
def RefusedAt (h : Bytes) (i : ℕ) : Prop := ∃ a b, h[2 * i]? = some a ∧ h[2 * i + 1]? = some b ∧ ¬ReadsPair a b

/-! ## Pairs -/

theorem readPairs_ok_iff {n : ℕ} {h : Bytes} (hlen : 2 * n ≤ h.length) : (∃ bs, readPairs n h = .ok bs) ↔ ¬∃ i < n, RefusedAt h i := by
  induction n generalizing h with
  | zero => simp [readPairs]
  | succ n ih =>
    obtain ⟨a, b, h, rfl⟩ : ∃ a b h', h = a :: b :: h' := by
      match h, hlen with
      | a :: b :: h, _ => exact ⟨a, b, h, rfl⟩
    have hrest := ih (h := h) (by simp only [List.length_cons] at hlen; omega)
    have hfirst := stoi_pair_ok_iff a b
    have hcons : (∃ bs, readPairs (n + 1) (a :: b :: h) = .ok bs) ↔ ReadsPair a b ∧ ∃ bs, readPairs n h = .ok bs := by
      rw [← hfirst]
      constructor
      · rintro ⟨bs, hbs⟩
        obtain ⟨i, hi, hbs⟩ := bind_eq_ok.mp hbs
        obtain ⟨rest, hrest, _⟩ := bind_eq_ok.mp hbs
        exact ⟨⟨i, hi⟩, rest, hrest⟩
      · rintro ⟨⟨i, hi⟩, rest, hrest⟩
        exact ⟨UInt8.ofInt i :: rest, bind_eq_ok.mpr ⟨i, hi, bind_eq_ok.mpr ⟨rest, hrest, rfl⟩⟩⟩
    rw [hcons, hrest]
    constructor
    · rintro ⟨hreads, hnone⟩ ⟨i, hi, a', b', ha, hb, hrefused⟩
      cases i with
      | zero =>
        cases ha
        cases hb
        exact hrefused hreads
      | succ i => exact hnone ⟨i, by omega, a', b', ha, hb, hrefused⟩
    · intro hnone
      refine ⟨?_, ?_⟩
      · by_contra hrefused
        exact hnone ⟨0, by omega, a, b, rfl, rfl, hrefused⟩
      · rintro ⟨i, hi, a', b', ha, hb, hrefused⟩
        exact hnone ⟨i + 1, by omega, a', b', ha, hb, hrefused⟩

theorem idOfPairs_ok_iff {h : Bytes} (hlen : 32 ≤ h.length) : (∃ id, idOfPairs h = .ok id) ↔ ¬∃ i < 16, RefusedAt h i := by
  rw [← readPairs_ok_iff hlen]
  unfold idOfPairs
  cases readPairs 16 h with
  | error e => simp [Except.map, Except.mapError]
  | ok bs => simp [Except.map, Except.mapError]

theorem chanIdFromHex_ok_iff (h : Bytes) : (∃ id, chanIdFromHex h = .ok id) ↔ h.length < 32 ∨ ¬∃ i < 16, RefusedAt h i := by
  unfold chanIdFromHex
  split_ifs with hlen
  · exact iff_of_true ⟨_, rfl⟩ (Or.inl hlen)
  · rw [idOfPairs_ok_iff (not_lt.mp hlen), or_iff_right hlen]

theorem fromHex_eq_idOfPairs {h : Bytes} (hlen : h.length = 32) : fromHex h = idOfPairs h := if_neg (not_not.mpr hlen)

theorem chanIdFromHex_eq_idOfPairs {h : Bytes} (hlen : 32 ≤ h.length) : chanIdFromHex h = idOfPairs h := if_neg (not_lt.mpr hlen)

theorem fromHex_ok_iff (h : Bytes) : (∃ id, fromHex h = .ok id) ↔ h.length = 32 ∧ ¬∃ i < 16, RefusedAt h i := by
  by_cases hlen : h.length = 32
  · rw [fromHex_eq_idOfPairs hlen, idOfPairs_ok_iff hlen.ge, and_iff_right hlen]
  · have herror : fromHex h = .error (.runtime "channel_id hex must be 32 chars") := if_pos hlen
    rw [herror]
    simp [hlen]

theorem not_refusedAt_of_isChannelHex {h : Bytes} (hhex : IsChannelHex h) (i : ℕ) : ¬RefusedAt h i := by
  rintro ⟨a, b, ha, _, hrefused⟩
  exact hrefused (Or.inl (hhex.2 a (List.mem_of_getElem? ha)))

/-! ## Ids that are written out -/

theorem digitIn_hexDigit {n : ℕ} (h : n < 16) : digitIn 16 (hexDigit n) = some n := by
  interval_cases n <;> rfl

theorem readPairs_bytesToHex (bs : Bytes) : readPairs bs.length (bytesToHex bs) = .ok bs := by
  induction bs with
  | nil => rfl
  | cons c bs ih =>
    have hlt := c.toNat_lt
    have hpair : Numeral.stoi 16 [hexDigit (c.toNat / 16), hexDigit (c.toNat % 16)] = .ok c.toNat := by
      rw [stoi_pair_of_digits (digitIn_hexDigit (by omega)) (digitIn_hexDigit (by omega)), Nat.div_add_mod]
    have hbyte : UInt8.ofInt c.toNat = c := by
      have hmod : ((c.toNat : ℤ) % 2 ^ 8).toNat = c.toNat := by omega
      rw [UInt8.ofInt, hmod, UInt8.ofNat_toNat]
    refine bind_eq_ok.mpr ⟨c.toNat, hpair, bind_eq_ok.mpr ⟨bs, ih, ?_⟩⟩
    rw [hbyte]

theorem idOfPairs_chanIdHex (id : MessageId) : idOfPairs (chanIdHex id) = .ok id := by
  have hread := readPairs_bytesToHex id.toList
  rw [id.toList_length] at hread
  unfold idOfPairs chanIdHex
  rw [hread]
  change Except.ok (fit 16 id.toList) = _
  rw [fit_toList]

theorem length_chanIdHex (id : MessageId) : (chanIdHex id).length = 32 := by
  rw [chanIdHex, Mailbox.length_bytesToHex, id.toList_length]

/-! ## Requests -/

section Accept
variable {A : Aes} {r : Router} {p : CborMap} {newKey : AesKey} {h : Bytes}

theorem dispatchAccept_of_error {e : RequestError} (hp : p.find "channel_id" = some (.string h)) (he : chanIdFromHex h = .error e) :
    dispatchAccept A r p newKey = (r, {}, .error e) := by
  unfold dispatchAccept
  rw [hp]
  dsimp only
  rw [he]

theorem entry_dispatchAccept {id : MessageId} (hp : p.find "channel_id" = some (.string h)) (hid : chanIdFromHex h = .ok id) :
    (dispatchAccept A r p newKey).1.channels.get id = (r.channels.get id).map (fun ci => { ci with channelKey := newKey, state := .opened }) := by
  unfold dispatchAccept
  rw [hp]
  dsimp only
  rw [hid]
  exact entry_channelAccept A r id newKey

/-- The zero channel is accepted under every short text. -/
theorem entry_dispatchAccept_of_short (hp : p.find "channel_id" = some (.string h)) (hlen : h.length < 32) :
    (dispatchAccept A r p newKey).1.channels.get (fit 16 []) =
      (r.channels.get (fit 16 [])).map (fun ci => { ci with channelKey := newKey, state := .opened }) :=
  entry_dispatchAccept hp (if_pos hlen)

/-- A request that names no channel at all changes nothing. -/
theorem dispatchAccept_of_not_string (hp : ∀ h, p.find "channel_id" ≠ some (.string h)) : (dispatchAccept A r p newKey).1 = r := by
  have herror : ∃ e, requireChannelId p = .error e := by
    unfold requireChannelId getString
    split
    · exact ⟨_, rfl⟩
    · rename_i s hs
      exact absurd hs (hp s)
    · exact ⟨_, rfl⟩
  obtain ⟨e, he⟩ := herror
  have haccept : channelAccept r p newKey = (r, {}, .error e) := by
    unfold channelAccept
    rw [he]
  unfold dispatchAccept
  split
  · rename_i s hs
    exact absurd hs (hp s)
  · rw [haccept]

end Accept

theorem parsesId_of_isChannelHex {h : Bytes} (hhex : IsChannelHex h) : ParsesId h := by
  refine ⟨?_, ?_, fun hnot => absurd hhex hnot⟩
  · intro id
    rw [chanIdFromHex_eq_idOfPairs hhex.1.ge, fromHex_eq_idOfPairs hhex.1]
  · rw [fromHex_ok_iff]
    refine iff_of_true ⟨hhex.1, ?_⟩ hhex
    rintro ⟨i, _, hrefused⟩
    exact not_refusedAt_of_isChannelHex hhex i hrefused

/-- Both functions throw. -/
theorem parsesId_of_refusedAt {h : Bytes} {i : ℕ} (hlen : 32 ≤ h.length) (hi : i < 16) (hrefused : RefusedAt h i) : ParsesId h := by
  have hchan : ¬∃ id, chanIdFromHex h = .ok id := by
    rw [chanIdFromHex_ok_iff]
    rintro (hshort | hnone)
    · omega
    · exact hnone ⟨i, hi, hrefused⟩
  have hfrom : ¬∃ id, fromHex h = .ok id := by
    rw [fromHex_ok_iff]
    exact fun hok => hok.2 ⟨i, hi, hrefused⟩
  refine ⟨?_, ?_, ?_⟩
  · intro id
    exact iff_of_false (fun hok => hchan ⟨id, hok⟩) (fun hok => hfrom ⟨id, hok⟩)
  · exact iff_of_false hfrom (fun hhex => not_refusedAt_of_isChannelHex hhex i hrefused)
  · intro _ A r p newKey hp
    cases he : chanIdFromHex h with
    | ok id => exact absurd ⟨id, he⟩ hchan
    | error e => rw [dispatchAccept_of_error hp he]

/-- The two functions read back every id, and agree on the texts of ids and on those that both throw for, and no others. -/
theorem channel_ids_parse_iff (id : MessageId) (h : Bytes) : (chanIdFromHex (chanIdHex id) = .ok id ∧ fromHex (chanIdHex id) = .ok id) ∧
    (ParsesId h ↔ IsChannelHex h ∨ (32 ≤ h.length ∧ ∃ i < 16, RefusedAt h i)) := by
  constructor
  · rw [chanIdFromHex_eq_idOfPairs (length_chanIdHex id).ge, fromHex_eq_idOfPairs (length_chanIdHex id)]
    exact ⟨idOfPairs_chanIdHex id, idOfPairs_chanIdHex id⟩
  · constructor
    · intro hparses
      by_contra hnot
      obtain ⟨hhex, hrefused⟩ := not_or.mp hnot
      have haccepted : h.length < 32 ∨ ¬∃ i < 16, RefusedAt h i := by
        by_cases hlen : h.length < 32
        · exact Or.inl hlen
        · exact Or.inr (fun hexists => hrefused ⟨not_lt.mp hlen, hexists⟩)
      obtain ⟨id, hid⟩ := (chanIdFromHex_ok_iff h).mpr haccepted
      exact hhex (hparses.accepts.mp ⟨id, (hparses.agree id).mp hid⟩)
    · rintro (hhex | ⟨hlen, i, hi, hrefused⟩)
      · exact parsesId_of_isChannelHex hhex
      · exact parsesId_of_refusedAt hlen hi hrefused

/-- A router that has had a `CHAN_OPEN` without an id. -/
def zeroOpening : Router :=
  { Router.initial with channels := registerIncoming .empty (readChanOpen []).channelId "198.51.100.7:9000" .direct .message }

theorem onChanOpenCell_without_id {A : Aes} {load : Bytes → Option Cbor.Item} {cell : Cell} (h : handshakePairs A load cell = some []) :
    (onChanOpenCell A load Router.initial "198.51.100.7:9000" cell).1 = zeroOpening := by
  unfold onChanOpenCell
  rw [h]
  rfl

def emptyIdParams : CborMap := CborMap.empty.set "channel_id" (.string []) (CborValue.keyed_string _)

/-- The empty text is refused by the handler and accepts the zero channel in the router. -/
theorem not_parsesId_empty : fromHex [] = .error (.runtime "channel_id hex must be 32 chars") ∧ chanIdFromHex [] = .ok (fit 16 []) ∧
    ((zeroOpening.channels.get (fit 16 [])).map ChannelInfo.state = some .opening ∧
      ((dispatchAccept checksumAes zeroOpening emptyIdParams (fit 32 [1])).1.channels.get (fit 16 [])).map ChannelInfo.state = some .opened) ∧
    ¬ParsesId [] := by
  have hget : zeroOpening.channels.get (fit 16 []) = some ⟨fit 16 [], "", .direct, .message, .opening, fit 32 [], 0, "198.51.100.7:9000", none, none⟩ :=
    Channels.get_put _ _
  have hfrom : fromHex [] = .error (.runtime "channel_id hex must be 32 chars") := rfl
  have hchan : chanIdFromHex [] = .ok (fit 16 []) := rfl
  have hentry : (dispatchAccept checksumAes zeroOpening emptyIdParams (fit 32 [1])).1.channels.get (fit 16 []) =
      (zeroOpening.channels.get (fit 16 [])).map (fun ci => { ci with channelKey := fit 32 [1], state := .opened }) :=
    entry_dispatchAccept_of_short rfl (show ([] : Bytes).length < 32 by decide)
  refine ⟨hfrom, hchan, ⟨?_, ?_⟩, ?_⟩
  · rw [hget]
    rfl
  · rw [hentry, hget]
    rfl
  · intro hparses
    have hok := (hparses.agree (fit 16 [])).mp hchan
    rw [hfrom] at hok
    cases hok

end ScatterWeb.AnonRouter
