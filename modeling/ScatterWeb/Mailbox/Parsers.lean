import ScatterWeb.Client.Receive
import ScatterWeb.Inbox.Model
import ScatterWeb.Outbox.Model

/-! # Three parsers of one frame

The inbox, the outbox and the Client each have a parser for delivery frames. All take the last value under a key that fits, but the inbox
and the outbox pass over an id of the wrong size and a key that is not a text, where the Client takes both. So the Client can see other
ids than the inbox did, which checked the sender against its allowlist. A key without data ends the Client's process. -/
namespace ScatterWeb.Mailbox
open Crypto Lib Lib.Cbor Client
set_option autoImplicit false

/-- The three parsers read the same from a frame that the inbox accepts. -/
structure ParsersAgree (load : Bytes → Option Item) (junk : Uninit) (frame : Bytes) (hdr : Inbox.FrameHeader) : Prop where
  outbox : ∃ out, Outbox.parseDeliveryFrame load frame = some out ∧ out.messageId = hdr.messageId
  client : ∃ f, decodeDeliveryFrame load junk frame = .ok f ∧ bytesToHex f.messageId = hdr.messageId ∧
    bytesToHex f.senderId = hdr.senderId ∧ f.persistence = hdr.persistence

/-! ## Pairs and who takes them -/

/-- A pair of the map, with the memory of its key if there is any. -/
structure FramePair where
  handle : Option Bytes
  key : Item
  value : Item

def framePairs (junk : Uninit) : ℕ → List (Item × Item) → List FramePair
  | _, [] => []
  | i, kv :: kvs => ⟨keyHandle junk i kv.1, kv.1, kv.2⟩ :: framePairs junk (i + 1) kvs

/-- What the Client takes from the pair under a name, and what the inbox takes. -/
def clientTakes (name : String) (read : Item → Option Bytes) (p : FramePair) : Option Bytes :=
  if p.handle.any (fun k => strcmpEq k name) then read p.value else none

def inboxTakes (name : String) (read : Item → Option Bytes) (p : FramePair) : Option Bytes := if textKey p.key name then read p.value else none

/-- The last pair that is taken gives this value, or it is empty and none is taken. -/
def LastGives (take : FramePair → Option Bytes) (ps : List FramePair) (b : Bytes) : Prop :=
  (∃ pre p post, ps = pre ++ p :: post ∧ take p = some b ∧ ∀ q ∈ post, take q = none) ∨ (b = [] ∧ ∀ q ∈ ps, take q = none)

/-- The last pair that the one takes is taken by the other as well, or it repeats what the other has taken before. -/
def Unopposed (take take' : FramePair → Option Bytes) (ps : List FramePair) : Prop :=
  ∀ pre p post b, ps = pre ++ p :: post → take p = some b → (∀ q ∈ post, take q = none) → take' p = some b ∨ LastGives take' pre b

/-- In hex, as the daemons keep ids. -/
def asAnyHex (v : Item) : Option Bytes := (asBytes v).map bytesToHex

/-- Every key has memory, and for none of the three names the Client follows another pair than the inbox. -/
structure Unambiguous (ps : List FramePair) : Prop where
  handled : ∀ p ∈ ps, p.handle ≠ none
  messageId : Unopposed (clientTakes "message_id" asAnyHex) (inboxTakes "message_id" (asHex 16)) ps
  senderId : Unopposed (clientTakes "sender_id" asAnyHex) (inboxTakes "sender_id" (asHex 32)) ps
  persistence : Unopposed (clientTakes "persistence" asText) (inboxTakes "persistence" asText) ps

/-- In memory a text is taken for the name that it is, and for no other. -/
def TextsByContent (ps : List FramePair) : Prop :=
  ∀ p ∈ ps, ∀ b, p.key = .text b → ∀ name ∈ ["message_id", "sender_id", "persistence"],
    p.handle.any (fun k => strcmpEq k name) = decide (b = ascii name)

section Pairs
variable {junk : Uninit} {ps : List FramePair} {take take' : FramePair → Option Bytes}

theorem keyedPairs_eq_some (junk : Uninit) (kvs : List (Item × Item)) (i : ℕ) (pairs : List (Bytes × Item)) :
    keyedPairs junk i kvs = some pairs ↔
      (∀ p ∈ framePairs junk i kvs, p.handle ≠ none) ∧ pairs = (framePairs junk i kvs).map (fun p => (p.handle.getD [], p.value)) := by
  induction kvs generalizing i pairs with
  | nil => simp [keyedPairs, framePairs, eq_comm]
  | cons kv kvs ih =>
    unfold keyedPairs framePairs
    cases hkey : keyHandle junk i kv.1 with
    | none => simp
    | some k =>
      simp only [Option.bind_some, Option.map_eq_some_iff, ih, List.forall_mem_cons, List.map_cons, Option.getD_some]
      constructor
      · rintro ⟨rest, ⟨hhandled, rfl⟩, rfl⟩
        exact ⟨⟨Option.some_ne_none k, hhandled⟩, rfl⟩
      · rintro ⟨⟨_, hhandled⟩, rfl⟩
        exact ⟨_, ⟨hhandled, rfl⟩, rfl⟩

theorem map_framePairs (junk : Uninit) (i : ℕ) (kvs : List (Item × Item)) : (framePairs junk i kvs).map (fun p => (p.key, p.value)) = kvs := by
  induction kvs generalizing i with
  | nil => rfl
  | cons kv kvs ih =>
    unfold framePairs
    rw [List.map_cons, ih]

theorem lastField_framePairs (junk : Uninit) (kvs : List (Item × Item)) (name : String) (read : Item → Option Bytes) :
    lastField read kvs name = (framePairs junk 0 kvs).reverse.findSome? (inboxTakes name read) := by
  unfold lastField
  rw [lastWith_eq_findSome?]
  conv_lhs => rw [← map_framePairs junk 0 kvs]
  rw [← List.map_reverse, List.findSome?_map]
  rfl

theorem frameField_map (ps : List FramePair) (name : String) (read : Item → Option Bytes) :
    frameField read (ps.map (fun p => (p.handle.getD [], p.value))) name = ps.reverse.findSome? (clientTakes name read) := by
  have hnil : strcmpEq [] name = false := by
    unfold strcmpEq
    cases ascii name <;> rfl
  have hsame : (fun kv : Bytes × Item => if strcmpEq kv.1 name then read kv.2 else none) ∘ (fun p : FramePair => (p.handle.getD [], p.value)) =
      clientTakes name read := by
    funext p
    unfold clientTakes
    cases hhandle : p.handle with
    | none => simp [hhandle, hnil]
    | some k => simp [hhandle]
  unfold frameField
  rw [lastWith_eq_findSome?, ← List.map_reverse, List.findSome?_map, hsame]

/-! ## Which pair is the last -/

theorem findSome?_reverse_append {pre post : List FramePair} {p : FramePair} (h : ∀ q ∈ post, take q = none) :
    (pre ++ p :: post).reverse.findSome? take = (take p).or (pre.reverse.findSome? take) := by
  have hpost : post.reverse.findSome? take = none :=
    List.findSome?_eq_none_iff.mpr (fun q hq => h q (List.mem_reverse.mp hq))
  rw [List.reverse_append, List.reverse_cons, List.append_assoc, List.findSome?_append, hpost, Option.none_or, List.singleton_append,
    List.findSome?_cons]
  cases take p with
  | none => rfl
  | some b => rfl

theorem exists_last_of_findSome? {b : Bytes} (h : ps.reverse.findSome? take = some b) :
    ∃ pre p post, ps = pre ++ p :: post ∧ take p = some b ∧ ∀ q ∈ post, take q = none := by
  obtain ⟨front, p, back, heq, hp, hnone⟩ := List.findSome?_eq_some_iff.mp h
  refine ⟨back.reverse, p, front.reverse, ?_, hp, fun q hq => hnone q (List.mem_reverse.mp hq)⟩
  have hrev := congrArg List.reverse heq
  rw [List.reverse_reverse] at hrev
  rw [hrev, List.reverse_append, List.reverse_cons, List.append_assoc, List.singleton_append]

theorem lastGives_iff (take : FramePair → Option Bytes) (ps : List FramePair) (b : Bytes) :
    LastGives take ps b ↔ (ps.reverse.findSome? take).getD [] = b := by
  constructor
  · rintro (⟨pre, p, post, rfl, hp, hpost⟩ | ⟨rfl, hnone⟩)
    · rw [findSome?_reverse_append hpost, hp]
      rfl
    · rw [List.findSome?_eq_none_iff.mpr (fun q hq => hnone q (List.mem_reverse.mp hq))]
      rfl
  · intro h
    cases hlast : ps.reverse.findSome? take with
    | none =>
      rw [hlast] at h
      exact Or.inr ⟨h.symm, fun q hq => List.findSome?_eq_none_iff.mp hlast q (List.mem_reverse.mpr hq)⟩
    | some b' =>
      rw [hlast] at h
      obtain rfl : b' = b := h
      exact Or.inl (exists_last_of_findSome? hlast)

/-- Whoever takes more reads the same exactly if the last of its pairs is unopposed. -/
theorem unopposed_iff (hle : ∀ p ∈ ps, ∀ b, take' p = some b → take p = some b) :
    Unopposed take take' ps ↔ (ps.reverse.findSome? take).getD [] = (ps.reverse.findSome? take').getD [] := by
  have hsplit : ∀ {pre p post b}, ps = pre ++ p :: post → take p = some b → (∀ q ∈ post, take q = none) →
      ((ps.reverse.findSome? take).getD [] = (ps.reverse.findSome? take').getD [] ↔ take' p = some b ∨ LastGives take' pre b) := by
    intro pre p post b heq hp hpost
    have hpost' : ∀ q ∈ post, take' q = none := by
      intro q hq
      rw [Option.eq_none_iff_forall_ne_some]
      intro a ha
      have hmem : q ∈ ps := heq ▸ List.mem_append_right _ (List.mem_cons_of_mem _ hq)
      have htaken := hle q hmem a ha
      rw [hpost q hq] at htaken
      cases htaken
    rw [heq, findSome?_reverse_append hpost, findSome?_reverse_append hpost', hp, Option.some_or, Option.getD_some, lastGives_iff]
    cases hp' : take' p with
    | none =>
      rw [Option.none_or, eq_comm]
      exact ⟨Or.inr, fun h => h.resolve_left (Option.some_ne_none b).symm⟩
    | some b' =>
      have hmem : p ∈ ps := heq ▸ List.mem_append_right _ List.mem_cons_self
      have hsame := hle p hmem b' hp'
      rw [hp] at hsame
      cases hsame
      rw [Option.some_or, Option.getD_some]
      exact ⟨fun _ => Or.inl rfl, fun _ => rfl⟩
  constructor
  · intro h
    cases hlast : ps.reverse.findSome? take with
    | none =>
      have hnone : ps.reverse.findSome? take' = none := by
        rw [List.findSome?_eq_none_iff]
        intro q hq
        rw [Option.eq_none_iff_forall_ne_some]
        intro a ha
        have htaken := hle q (List.mem_reverse.mp hq) a ha
        rw [List.findSome?_eq_none_iff.mp hlast q hq] at htaken
        cases htaken
      rw [hnone]
    | some b =>
      obtain ⟨pre, p, post, heq, hp, hpost⟩ := exists_last_of_findSome? hlast
      rw [← hlast]
      exact (hsplit heq hp hpost).mpr (h pre p post b heq hp hpost)
  · intro h pre p post b heq hp hpost
    exact (hsplit heq hp hpost).mp h

theorem clientTakes_of_inboxTakes {p : FramePair} {name : String} {read read' : Item → Option Bytes} {b : Bytes}
    (hkey : ∀ t, p.key = .text t → p.handle.any (fun k => strcmpEq k name) = decide (t = ascii name))
    (hread : ∀ v, read' v = some b → read v = some b) (h : inboxTakes name read' p = some b) : clientTakes name read p = some b := by
  unfold inboxTakes at h
  unfold clientTakes
  split_ifs at h with htext
  have hhandle : p.handle.any (fun k => strcmpEq k name) = true := by
    cases hk : p.key with
    | text t =>
      rw [hk, textKey_text] at htext
      rw [hkey t hk, htext]
    | _ =>
      rw [hk] at htext
      cases htext
  rw [if_pos hhandle]
  exact hread p.value h

theorem asAnyHex_of_asHex {n : ℕ} {v : Item} {b : Bytes} (h : asHex n v = some b) : asAnyHex v = some b := by
  unfold asHex at h
  split at h
  · split at h
    · exact h
    · cases h
  · cases h

theorem map_clientTakes (read : Item → Option Bytes) (f : Bytes → Bytes) (name : String) :
    Option.map f ∘ clientTakes name read = clientTakes name (fun v => (read v).map f) := by
  funext p
  rw [Function.comp_apply]
  unfold clientTakes
  split_ifs <;> rfl

end Pairs

/-! ## The frame -/

section Frame
variable {load : Bytes → Option Item} {junk : Uninit} {frame : Bytes} {hdr : Inbox.FrameHeader}

theorem exists_field {o : Option Bytes} (h : o.getD [] ≠ []) : o = some (o.getD []) := by
  cases o with
  | none => exact absurd rfl h
  | some b => rfl

theorem parseFrameHeader_some (h : Inbox.parseFrameHeader load frame = some hdr) : ∃ kvs, load frame = some (.map kvs) ∧
    lastField (asHex 16) kvs "message_id" = some hdr.messageId ∧ lastField (asHex 32) kvs "sender_id" = some hdr.senderId ∧
    hdr.persistence = (lastField asText kvs "persistence").getD [] ∧ hdr.messageId ≠ [] := by
  unfold Inbox.parseFrameHeader at h
  split at h
  · rename_i kvs hload
    dsimp only at h
    split at h
    · cases h
    · rename_i hne
      obtain ⟨hid, hsender⟩ := not_or.mp hne
      cases h
      exact ⟨kvs, hload, exists_field hid, exists_field hsender, rfl, hid⟩
  · cases h

/-- The outbox reads the same message id from every frame that the inbox accepts. -/
theorem outbox_reads_same_id (h : Inbox.parseFrameHeader load frame = some hdr) :
    ∃ out, Outbox.parseDeliveryFrame load frame = some out ∧ out.messageId = hdr.messageId := by
  obtain ⟨kvs, hload, hid, _, _, hne⟩ := parseFrameHeader_some h
  unfold Outbox.parseDeliveryFrame
  rw [hload]
  dsimp only
  rw [hid, Option.getD_some, if_neg hne]
  exact ⟨_, rfl, rfl⟩

variable (junk) in
/-- What the Client reads, by the pairs that it takes. -/
theorem decodeDeliveryFrame_framePairs {kvs : List (Item × Item)} (hload : load frame = some (.map kvs)) :
    (∀ f, decodeDeliveryFrame load junk frame = .ok f → (∀ p ∈ framePairs junk 0 kvs, p.handle ≠ none) ∧
      bytesToHex f.messageId = ((framePairs junk 0 kvs).reverse.findSome? (clientTakes "message_id" asAnyHex)).getD [] ∧
      bytesToHex f.senderId = ((framePairs junk 0 kvs).reverse.findSome? (clientTakes "sender_id" asAnyHex)).getD [] ∧
      f.persistence = ((framePairs junk 0 kvs).reverse.findSome? (clientTakes "persistence" asText)).getD []) ∧
    ((∀ p ∈ framePairs junk 0 kvs, p.handle ≠ none) → ∃ f, decodeDeliveryFrame load junk frame = .ok f) := by
  have hhex : ∀ name, bytesToHex ((frameField asBytes ((framePairs junk 0 kvs).map (fun p => (p.handle.getD [], p.value))) name).getD []) =
      ((framePairs junk 0 kvs).reverse.findSome? (clientTakes name asAnyHex)).getD [] := by
    intro name
    have hmap : clientTakes name asAnyHex = Option.map bytesToHex ∘ clientTakes name asBytes := (map_clientTakes asBytes bytesToHex name).symm
    rw [frameField_map, hmap, ← List.map_findSome?]
    cases (framePairs junk 0 kvs).reverse.findSome? (clientTakes name asBytes) <;> rfl
  unfold decodeDeliveryFrame
  rw [hload]
  dsimp only
  constructor
  · intro f hf
    cases hpairs : keyedPairs junk 0 kvs with
    | none =>
      rw [hpairs] at hf
      cases hf
    | some pairs =>
      rw [hpairs] at hf
      cases hf
      obtain ⟨hhandled, rfl⟩ := (keyedPairs_eq_some junk kvs 0 pairs).mp hpairs
      refine ⟨hhandled, hhex "message_id", hhex "sender_id", ?_⟩
      exact congrArg (fun found => found.getD []) (frameField_map _ _ _)
  · intro hhandled
    rw [(keyedPairs_eq_some junk kvs 0 _).mpr ⟨hhandled, rfl⟩]
    exact ⟨_, rfl⟩

/-- Where texts are compared by content, the parsers agree exactly on the frames in which no pair misleads the Client. -/
theorem parsers_agree_iff (h : Inbox.parseFrameHeader load frame = some hdr) {kvs : List (Item × Item)} (hload : load frame = some (.map kvs))
    (htexts : TextsByContent (framePairs junk 0 kvs)) :
    ParsersAgree load junk frame hdr ↔ Unambiguous (framePairs junk 0 kvs) := by
  obtain ⟨kvs', hload', hid, hsender, hpersistence, _⟩ := parseFrameHeader_some h
  obtain rfl : kvs' = kvs := by
    rw [hload] at hload'
    cases hload'
    rfl
  obtain ⟨hreads, hdecodes⟩ := decodeDeliveryFrame_framePairs junk hload
  rw [lastField_framePairs junk] at hid hsender hpersistence
  have hunopposed : ∀ name ∈ ["message_id", "sender_id", "persistence"], ∀ (read read' : Item → Option Bytes),
      (∀ v b, read' v = some b → read v = some b) → (Unopposed (clientTakes name read) (inboxTakes name read') (framePairs junk 0 kvs') ↔
        ((framePairs junk 0 kvs').reverse.findSome? (clientTakes name read)).getD [] =
          ((framePairs junk 0 kvs').reverse.findSome? (inboxTakes name read')).getD []) := by
    intro name hname read read' hread
    refine unopposed_iff ?_
    intro p hp b hb
    exact clientTakes_of_inboxTakes (fun t ht => htexts p hp t ht name hname) (fun v hv => hread v b hv) hb
  have hm := hunopposed "message_id" (by decide) asAnyHex (asHex 16) (fun v b hv => asAnyHex_of_asHex hv)
  have hs := hunopposed "sender_id" (by decide) asAnyHex (asHex 32) (fun v b hv => asAnyHex_of_asHex hv)
  have hp := hunopposed "persistence" (by decide) asText asText (fun v b hv => hv)
  rw [hid, Option.getD_some] at hm
  rw [hsender, Option.getD_some] at hs
  rw [← hpersistence] at hp
  constructor
  · rintro ⟨_, f, hf, hfm, hfs, hfp⟩
    obtain ⟨hhandled, hmEq, hsEq, hpEq⟩ := hreads f hf
    exact ⟨hhandled, hm.mpr (hmEq ▸ hfm), hs.mpr (hsEq ▸ hfs), hp.mpr (hpEq ▸ hfp)⟩
  · rintro ⟨hhandled, hmU, hsU, hpU⟩
    obtain ⟨f, hf⟩ := hdecodes hhandled
    obtain ⟨_, hmEq, hsEq, hpEq⟩ := hreads f hf
    exact ⟨outbox_reads_same_id h, f, hf, hmEq.trans (hm.mp hmU), hsEq.trans (hs.mp hsU), hpEq.trans (hp.mp hpU)⟩

/-- So they are if a NUL follows each key and none is in it. -/
theorem textsByContent_of_plain (hjunk : junk.EndsKeys) {kvs : List (Item × Item)} (hplain : ∀ kv ∈ kvs, plainKey kv.1 = true) (i : ℕ) :
    TextsByContent (framePairs junk i kvs) := by
  have hnames : ∀ name ∈ ["message_id", "sender_id", "persistence"], 0 ∉ ascii name := by decide
  induction kvs generalizing i with
  | nil => exact fun p hp => absurd hp List.not_mem_nil
  | cons kv kvs ih =>
    intro p hp t ht name hname
    rcases List.mem_cons.mp hp with rfl | hrest
    · obtain ⟨b, hb, hnul⟩ := plainKey_iff.mp (hplain kv List.mem_cons_self)
      have hsame : Item.text b = .text t := hb.symm.trans ht
      cases hsame
      rw [hb]
      exact strcmpEq_of_endsKeys hjunk i hnul (hnames name hname)
    · exact ih (fun kv hkv => hplain kv (List.mem_cons_of_mem _ hkv)) (i + 1) p hrest t ht name hname

end Frame

/-! ## A repeated key -/

def storedPairs : List (Item × Item) :=
  [(.text (ascii "message_id"), .bytes (List.replicate 16 7)), (.text (ascii "sender_id"), .bytes (List.replicate 32 1)),
    (.text (ascii "persistence"), .text (ascii "store"))]

/-- The message id comes again, with one byte. -/
def repeatedPairs : List (Item × Item) := storedPairs ++ [(.text (ascii "message_id"), .bytes [5])]

def pairsFrame (kvs : List (Item × Item)) : Bytes := encode (.map kvs)

theorem load_pairsFrame (kvs : List (Item × Item)) : load (pairsFrame kvs) = some (.map kvs) := load_loads.load_encode _

def storedHeader : Inbox.FrameHeader :=
  { messageId := bytesToHex (List.replicate 16 7), senderId := bytesToHex (List.replicate 32 1), persistence := ascii "store" }

theorem parseFrameHeader_storedPairs : Inbox.parseFrameHeader load (pairsFrame storedPairs) = some storedHeader := by
  unfold Inbox.parseFrameHeader
  rw [load_pairsFrame]
  simp [storedPairs, lastField, lastWith, asHex, storedHeader, bytesToHex]

theorem parseFrameHeader_repeatedPairs : Inbox.parseFrameHeader load (pairsFrame repeatedPairs) = some storedHeader := by
  unfold Inbox.parseFrameHeader
  rw [load_pairsFrame]
  simp [repeatedPairs, storedPairs, lastField, lastWith, asHex, storedHeader, bytesToHex]

theorem plain_repeatedPairs : ∀ kv ∈ repeatedPairs, plainKey kv.1 = true := by
  unfold repeatedPairs storedPairs
  simpa [plainKey] using by decide

theorem parsers_agree_iff_storedPairs :
    ParsersAgree load zeroed (pairsFrame storedPairs) storedHeader ↔ Unambiguous (framePairs zeroed 0 storedPairs) :=
  parsers_agree_iff parseFrameHeader_storedPairs (load_pairsFrame storedPairs)
    (textsByContent_of_plain endsKeys_zeroed (fun kv hkv => plain_repeatedPairs kv (List.mem_append_left _ hkv)) 0)

theorem not_parsersAgree_repeatedPairs :
    ¬∀ (junk : Uninit) frame hdr kvs, Inbox.parseFrameHeader load frame = some hdr → load frame = some (.map kvs) →
      TextsByContent (framePairs junk 0 kvs) → ParsersAgree load junk frame hdr := by
  intro h
  have htexts := textsByContent_of_plain endsKeys_zeroed plain_repeatedPairs 0
  obtain ⟨_, f, hf, hm, _⟩ := h zeroed _ _ _ parseFrameHeader_repeatedPairs (load_pairsFrame repeatedPairs) htexts
  rw [decodeDeliveryFrame_of_plain endsKeys_zeroed (load_pairsFrame repeatedPairs) plain_repeatedPairs] at hf
  cases hf
  have hlast : lastField asBytes repeatedPairs "message_id" = some [5] := by
    simp [repeatedPairs, storedPairs, lastField, lastWith]
  have hlen := congrArg List.length hm
  unfold frameOfTexts at hlen
  rw [hlast, Option.getD_some, length_bytesToHex, storedHeader, length_bytesToHex] at hlen
  cases hlen

end ScatterWeb.Mailbox
