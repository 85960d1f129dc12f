import ScatterWeb.AnonRouter.Handshake

/-! # Datagrams that end the process

`UdpTransport::recv_loop` calls `on_datagram` from a thread that catches nothing. The handshake handlers catch what
`cell_decode` throws; `relay_cell` and `on_cell` do not, so a bad forward address of a guard entry ends the process, and so
does a cell with the token of an open channel that was not built under its key.

The accessors of libcbor are undefined on items of the wrong type. The model gives each of them a value; here a datagram counts
as survived only if none of them is called that way. -/
namespace ScatterWeb.AnonRouter
open Crypto Lib Lib.Cbor
set_option autoImplicit false

/-! ## What the accessors are called on -/

/-- libcbor keeps text and byte strings alike. -/
def isString : Item → Bool
  | .text _ => true
  | .bytes _ => true
  | _ => false

def isInteger : Item → Bool
  | .uint _ => true
  | .negint _ => true
  | _ => false

/-- The integers that `garlic_decode` reads of a clove. -/
def cloveIntegers : Item → List Item
  | .array (type :: _ :: hasFrag :: frag :: _ :: _) =>
    type :: (match cborTrue hasFrag, frag with
      | true, .array [cloveId, idx, total] => [cloveId, idx, total]
      | _, _ => [])
  | _ => []

def garlicIntegers (load : Bytes → Option Item) (blob : Bytes) : List Item :=
  match load blob with
  | some (.array items) => items.flatMap cloveIntegers
  | _ => []

section Survival
variable (A : Aes) (load : Bytes → Option Item)

def isHandshake (cell : Cell) : Bool :=
  decide ((⟨byteAt 1 cell.toList⟩ : CellType) = .chanOpen) || decide ((⟨byteAt 1 cell.toList⟩ : CellType) = .chanAccept)

/-- The channel that takes the cell: no guard entry has its token, and the first channel that owns it does. -/
def taker (r : Router) (cell : Cell) : Option ChannelInfo :=
  match r.guards.lookup (cellSessionTok cell) with
  | some _ => none
  | none => r.channels.list.find? (ownsCell (cellSessionTok cell))

/-- Map keys are read as strings, and fields of a clove as integers. -/
structure AccessesDefined (r : Router) (cell : Cell) : Prop where
  keys : isHandshake cell = true → ∀ kvs, handshakePairs A load cell = some kvs → ∀ kv ∈ kvs, isString kv.1 = true
  integers : isHandshake cell = false → ∀ ci dc, taker r cell = some ci → cellDecode A cell ci.channelKey = .ok dc →
    ∀ item ∈ garlicIntegers load dc.garlicData, isInteger item = true

/-- `on_datagram` returns. -/
def Survives (r : Router) (peerAddr : String) (data : Bytes) : Prop :=
  (data.length = 557 → AccessesDefined A load r (fit 557 data)) ∧ ∃ res, onDatagram A load r peerAddr data = .ok res

/-- The cells that a router does not survive. -/
inductive Fatal (r : Router) (cell : Cell) : Prop
  | badForward (entry : GuardEntry) (e : TransportError) (htype : isHandshake cell = false)
      (hentry : r.guards.lookup (cellSessionTok cell) = some entry) (haddr : parseAddr entry.forwardAddr = .error e)
  | notAuthentic (ci : ChannelInfo) (htype : isHandshake cell = false) (htaker : taker r cell = some ci)
      (htag : A.decrypt ci.channelKey (cellNonce (cellReadHeader cell).sessionTok (cellReadHeader cell).seqNum)
        (slice 45 496 cell.toList : ByteArr 496).toList (slice 541 16 cell.toList) (cell.toList.take 45) = none)
  | badLength (ci : ChannelInfo) (htype : isHandshake cell = false) (htaker : taker r cell = some ci)
      (hlen : 496 < (cellReadHeader cell).garlicLen.toNat)
  | badKey (kvs : List (Item × Item)) (htype : isHandshake cell = true) (hpairs : handshakePairs A load cell = some kvs)
      (kv : Item × Item) (hkv : kv ∈ kvs) (hkey : isString kv.1 = false)
  | badInteger (ci : ChannelInfo) (dc : DecodedCell) (htype : isHandshake cell = false) (htaker : taker r cell = some ci)
      (hdecode : cellDecode A cell ci.channelKey = .ok dc) (item : Item) (hitem : item ∈ garlicIntegers load dc.garlicData)
      (hint : isInteger item = false)

variable {A load}

/-! ## When a call returns -/

theorem cellDecode_ok_iff (cell : Cell) (key : AesKey) : (∃ dc, cellDecode A cell key = .ok dc) ↔
    A.decrypt key (cellNonce (cellReadHeader cell).sessionTok (cellReadHeader cell).seqNum)
      (slice 45 496 cell.toList : ByteArr 496).toList (slice 541 16 cell.toList) (cell.toList.take 45) ≠ none ∧
      (cellReadHeader cell).garlicLen.toNat ≤ 496 := by
  unfold cellDecode
  dsimp only
  cases A.decrypt key (cellNonce (cellReadHeader cell).sessionTok (cellReadHeader cell).seqNum)
      (slice 45 496 cell.toList : ByteArr 496).toList (slice 541 16 cell.toList) (cell.toList.take 45) with
  | none =>
    constructor
    · rintro ⟨dc, h⟩
      cases h
    · rintro ⟨h, _⟩
      exact absurd rfl h
  | some plaintext =>
    dsimp only
    by_cases hlen : 496 < (cellReadHeader cell).garlicLen.toNat
    · rw [if_pos hlen]
      constructor
      · rintro ⟨dc, h⟩
        cases h
      · rintro ⟨_, h⟩
        omega
    · rw [if_neg hlen]
      exact ⟨fun _ => ⟨(fun h => nomatch h), Nat.le_of_not_lt hlen⟩, fun _ => ⟨_, rfl⟩⟩

theorem relayCell_ok_iff (r : Router) (entry : GuardEntry) (cell : Cell) :
    (∃ res, relayCell r entry cell = .ok res) ↔ ∃ host, parseAddr entry.forwardAddr = .ok host := by
  unfold relayCell transportSend
  cases parseAddr entry.forwardAddr with
  | error e =>
    constructor
    · rintro ⟨res, h⟩
      cases h
    · rintro ⟨host, h⟩
      cases h
  | ok host => exact ⟨fun _ => ⟨host, rfl⟩, fun _ => ⟨_, rfl⟩⟩

theorem onCell_ok_iff (m : Channels) (cell : Cell) : (∃ frames, onCell A load m cell = .ok frames) ↔
    ∀ ci, m.list.find? (ownsCell (cellSessionTok cell)) = some ci → ∃ dc, cellDecode A cell ci.channelKey = .ok dc := by
  unfold onCell
  cases m.list.find? (ownsCell (cellSessionTok cell)) with
  | none => exact ⟨(fun _ _ h => nomatch h), fun _ => ⟨_, rfl⟩⟩
  | some ci =>
    dsimp only
    constructor
    · rintro ⟨frames, h⟩ ci' hci
      obtain rfl := Option.some.inj hci
      cases hd : cellDecode A cell ci.channelKey with
      | error e =>
        rw [hd] at h
        cases h
      | ok dc => exact ⟨dc, rfl⟩
    · intro h
      obtain ⟨dc, hdc⟩ := h ci rfl
      rw [hdc]
      exact ⟨_, rfl⟩

/-- Handshake cells are handled without an exception; of the others, those for a guard go by its address and those for a
channel by its key. -/
theorem onDatagram_ok_iff (r : Router) (peerAddr : String) (cell : Cell) :
    (∃ res, onDatagram A load r peerAddr cell.toList = .ok res) ↔ (isHandshake cell = false →
      (∀ entry, r.guards.lookup (cellSessionTok cell) = some entry → ∃ host, parseAddr entry.forwardAddr = .ok host) ∧
      (∀ ci, taker r cell = some ci → ∃ dc, cellDecode A cell ci.channelKey = .ok dc)) := by
  unfold onDatagram isHandshake taker
  rw [if_neg (not_not.mpr cell.toList_length), fit_cell]
  dsimp only
  by_cases hopen : (⟨byteAt 1 cell.toList⟩ : CellType) = .chanOpen
  · rw [if_pos hopen]
    refine ⟨fun _ h => ?_, fun _ => ⟨_, rfl⟩⟩
    simp [hopen] at h
  rw [if_neg hopen]
  by_cases hacc : (⟨byteAt 1 cell.toList⟩ : CellType) = .chanAccept
  · rw [if_pos hacc]
    refine ⟨fun _ h => ?_, fun _ => ⟨_, rfl⟩⟩
    simp [hacc] at h
  rw [if_neg hacc]
  have htype : (decide ((⟨byteAt 1 cell.toList⟩ : CellType) = .chanOpen) ||
      decide ((⟨byteAt 1 cell.toList⟩ : CellType) = .chanAccept)) = false := by
    simp [hopen, hacc]
  rw [htype]
  cases r.guards.lookup (cellSessionTok cell) with
  | some entry =>
    dsimp only
    rw [relayCell_ok_iff]
    constructor
    · rintro hhost _
      refine ⟨?_, (fun _ h => nomatch h)⟩
      intro entry' h
      rw [← Option.some.inj h]
      exact hhost
    · intro h
      exact (h rfl).1 entry rfl
  | none =>
    dsimp only
    have hcall : (∃ frames, onCell A load r.channels cell = .ok frames) ↔ _ := onCell_ok_iff r.channels cell
    cases honcell : onCell A load r.channels cell with
    | error e =>
      rw [honcell] at hcall
      constructor
      · rintro ⟨res, h⟩
        cases h
      · intro h
        obtain ⟨frames, herror⟩ := hcall.mpr (h rfl).2
        cases herror
    | ok frames =>
      rw [honcell] at hcall
      exact ⟨fun _ _ => ⟨(fun _ h => nomatch h), hcall.mp ⟨frames, rfl⟩⟩, fun _ => ⟨_, rfl⟩⟩

/-! ## The cells that are survived -/

theorem survives_cell_iff (r : Router) (peerAddr : String) (cell : Cell) :
    Survives A load r peerAddr cell.toList ↔ ¬Fatal A load r cell := by
  unfold Survives
  rw [onDatagram_ok_iff, fit_cell]
  constructor
  · rintro ⟨hdefined, hok⟩ hfatal
    have hdefined := hdefined cell.toList_length
    cases hfatal with
    | badForward entry e htype hentry haddr =>
      obtain ⟨host, hhost⟩ := (hok htype).1 entry hentry
      rw [haddr] at hhost
      cases hhost
    | notAuthentic ci htype htaker htag =>
      exact ((cellDecode_ok_iff cell ci.channelKey).mp ((hok htype).2 ci htaker)).1 htag
    | badLength ci htype htaker hlen =>
      have hle := ((cellDecode_ok_iff cell ci.channelKey).mp ((hok htype).2 ci htaker)).2
      omega
    | badKey kvs htype hpairs kv hkv hkey =>
      rw [hdefined.keys htype kvs hpairs kv hkv] at hkey
      cases hkey
    | badInteger ci dc htype htaker hdecode item hitem hint =>
      rw [hdefined.integers htype ci dc htaker hdecode item hitem] at hint
      cases hint
  · intro hnot
    refine ⟨fun _ => ⟨?_, ?_⟩, ?_⟩
    · intro htype kvs hpairs kv hkv
      by_contra hkey
      exact hnot (.badKey kvs htype hpairs kv hkv (Bool.eq_false_iff.mpr hkey))
    · intro htype ci dc htaker hdecode item hitem
      by_contra hint
      exact hnot (.badInteger ci dc htype htaker hdecode item hitem (Bool.eq_false_iff.mpr hint))
    · intro htype
      constructor
      · intro entry hentry
        cases haddr : parseAddr entry.forwardAddr with
        | ok host => exact ⟨host, rfl⟩
        | error e => exact absurd (Fatal.badForward entry e htype hentry haddr) hnot
      · intro ci htaker
        refine (cellDecode_ok_iff cell ci.channelKey).mpr ⟨?_, ?_⟩
        · intro htag
          exact hnot (.notAuthentic ci htype htaker htag)
        · by_contra hlen
          exact hnot (.badLength ci htype htaker (Nat.lt_of_not_le hlen))

/-- In every state the router survives a datagram exactly if it is not a fatal cell. -/
theorem survives_iff_not_fatal (r : Router) (peerAddr : String) (data : Bytes) :
    Survives A load r peerAddr data ↔ ¬(data.length = 557 ∧ Fatal A load r (fit 557 data)) := by
  by_cases hlen : data.length = 557
  · have hdata : (fit 557 data).toList = data := toList_fit hlen
    have h : Survives A load r peerAddr (fit 557 data).toList ↔ _ := survives_cell_iff r peerAddr (fit 557 data)
    rw [hdata] at h
    rw [h]
    exact ⟨fun hnot hfatal => hnot hfatal.2, fun hnot hfatal => hnot ⟨hlen, hfatal⟩⟩
  · refine ⟨fun _ h => hlen h.1, fun _ => ⟨fun h => absurd h hlen, (r, {}), ?_⟩⟩
    unfold onDatagram
    exact if_pos hlen

def NeverCrashes (A : Aes) (load : Bytes → Option Item) : Prop :=
  ∀ (r : Router) (peerAddr : String) (data : Bytes), Reachable (Steps A load) Router.initial r → Survives A load r peerAddr data

/-! ## A cell with a wrong tag -/

/-- Made without the channel key: the channel id is in the header of every cell on the channel. -/
def forgedCell (id : MessageId) (tag : AesTag) : Cell :=
  ⟨(cellWriteHeader { sessionTok := fit 32 id.toList }).toList ++ ((fit 496 [] : ByteArr 496).toList ++ tag.toList), by simp⟩

theorem cellReadHeader_forgedCell (id : MessageId) (tag : AesTag) :
    cellReadHeader (forgedCell id tag) = { sessionTok := fit 32 id.toList } :=
  cellReadHeader_of_header rfl

theorem tag_forgedCell (id : MessageId) (tag : AesTag) : slice 541 16 (forgedCell id tag).toList = tag := by
  change slice 541 16 ((cellWriteHeader { sessionTok := fit 32 id.toList }).toList ++
    ((fit 496 [] : ByteArr 496).toList ++ tag.toList)) = tag
  rw [← List.append_assoc, ← List.append_nil tag.toList]
  exact slice_append (by rw [List.length_append, List.Vector.toList_length, List.Vector.toList_length]) _ _

theorem taker_forgedCell {r : Router} (hwf : r.Wf) {id : MessageId} {ci : ChannelInfo} (hget : r.channels.get id = some ci)
    (hdirect : ci.anonLevel = .direct) (hopen : ci.state = .opened) (tag : AesTag) : taker r (forgedCell id tag) = some ci := by
  have htok : cellSessionTok (forgedCell id tag) = fit 32 id.toList :=
    congrArg CellHeader.sessionTok (cellReadHeader_forgedCell id tag)
  unfold taker
  rw [hwf.guards, AList.lookup_empty]
  dsimp only
  rw [find_ownsCell hwf.noGuards, htok, fit_fit (by omega), hget]
  simp [Option.filter, hdirect, hopen]

theorem fatal_forgedCell {r : Router} (hwf : r.Wf) {id : MessageId} {ci : ChannelInfo} (hget : r.channels.get id = some ci)
    (hdirect : ci.anonLevel = .direct) (hopen : ci.state = .opened) {tag : AesTag}
    (htag : ∀ n c ad, A.decrypt ci.channelKey n c tag ad = none) : Fatal A load r (forgedCell id tag) := by
  refine .notAuthentic ci ?_ (taker_forgedCell hwf hget hdirect hopen tag) ?_
  · have htype : byteAt 1 (forgedCell id tag).toList = CellType.data.toByte :=
      congrArg (fun h => h.cellType.toByte) (cellReadHeader_forgedCell id tag)
    unfold isHandshake
    rw [htype]
    decide
  · rw [tag_forgedCell]
    exact htag _ _ _

/-- An acceptor with an open channel does not survive it. -/
theorem not_neverCrashes (hA : A.Correct) (hload : Loads load) (id : MessageId) (key : AesKey) {tag : AesTag}
    (htag : ∀ n c ad, A.decrypt key n c tag ad = none) : ¬NeverCrashes A load := by
  intro h
  obtain ⟨r, hreach, hget⟩ := reachable_acceptor hA hload id key "10.0.0.1:9000"
  have hfatal : Fatal A load r (forgedCell id tag) := fatal_forgedCell (Router.wf_of_reachable hreach) hget rfl rfl htag
  exact (survives_cell_iff r "10.0.0.3:9000" (forgedCell id tag)).mp (h r _ _ hreach) hfatal

end Survival

theorem checksum_ne (k : ByteArr 32) (n : ByteArr 12) (p ad : Bytes) : fit 16 [1] ≠ checksum k n p ad := by
  intro h
  have hlist : [1, 0] = List.replicate 2 ((k.toList ++ n.toList ++ p ++ ad).foldl (fun acc b => 31 * acc + b) 0) :=
    congrArg (fun t : ByteArr 16 => t.toList.take 2) h
  obtain ⟨h1, h0⟩ := List.cons.inj hlist
  rw [← h1] at h0
  cases h0

theorem not_neverCrashes_wrongTag : ¬NeverCrashes checksumAes load :=
  not_neverCrashes checksumAes_correct load_loads (fit 16 [7]) (fit 32 [1]) (fun n c ad => if_neg (checksum_ne _ n c ad))

end ScatterWeb.AnonRouter
