import ScatterWeb.Ratchet.Authenticity

/-! # What a captured state reads

At some moment of an attack the attacker also gets the whole state of one side. The root key is part of the state, and both chains of an
epoch hang on it, so every message on these chains can be read again, however long ago its key was deleted. Nothing else that the side has
sent or accepted can: earlier root keys are behind a hash, and what the state keeps of other chains is ahead of the keys used.

The bound on what is derived is evaluated along the line of root keys and down a chain. A chain key is known only if it, or one before it on its chain, is
in the state, and these the keys in use have left behind. -/
namespace ScatterWeb.Ratchet
open Crypto Lib Relation
set_option autoImplicit false

/-- The key material of a state. -/
def State.terms (s : State symbols) : List Term :=
  s.myRatchetKem.pub :: s.myRatchetKem.priv :: s.peerRatchetPub :: s.rootKey :: s.sendChainKey :: s.recvChainKey :: cachedKeys s

theorem State.mem_terms (s : State symbols) :
    s.myRatchetKem.priv ∈ s.terms ∧ s.rootKey ∈ s.terms ∧ s.sendChainKey ∈ s.terms ∧ s.recvChainKey ∈ s.terms :=
  ⟨.tail _ (.head _), .tail _ (.tail _ (.tail _ (.head _))), .tail _ (.tail _ (.tail _ (.tail _ (.head _)))),
    .tail _ (.tail _ (.tail _ (.tail _ (.tail _ (.head _)))))⟩

/-- All that the attacker had, and the state of `p`. -/
def seized (secret : Set ℕ) (u : Setup symbols) (s : Exposed symbols) (p : Side) : Set Term :=
  {t | t ∈ view secret u s ∨ t ∈ (s.st p).terms}

def CanRead (given : Set Term) (msg : Message symbols) : Prop :=
  ∃ key plaintext, Derives given key ∧ symbolic.aes.decrypt key msg.nonce msg.ciphertext msg.tag [] = some plaintext

/-- A message key of one of the two chains that start from a root key. -/
def HangsOn {C : Carriers} (P : Primitives C) (root mk : C.Key) : Prop :=
  ∃ n, mk = messageKey P (chainAt P (sendChain P root) n) ∨ mk = messageKey P (chainAt P (recvChain P root) n)

/-! ## The shapes of keys -/

section Shapes
variable {C : Carriers} {P : Primitives C} {o : Origins C} (secret : ℕ → C.SS)

/-- Every chain starts from the root key of its step. -/
theorem mine_labelled (ho : o.Apart P) (j : ℕ) : headAt P o.root o.mine secret j = sendChain P (rootAt P o.root secret j) ∨
    headAt P o.root o.mine secret j = recvChain P (rootAt P o.root secret j) := by
  cases j with
  | zero => exact ho.labels.imp (fun h => h.1) (fun h => h.1)
  | succ j => exact Or.inl rfl

theorem theirs_labelled (ho : o.Apart P) (j : ℕ) : headAt P o.root o.theirs secret j = sendChain P (rootAt P o.root secret j) ∨
    headAt P o.root o.theirs secret j = recvChain P (rootAt P o.root secret j) := by
  cases j with
  | zero => exact (ho.labels.imp (fun h => h.2) (fun h => h.2)).symm
  | succ j => exact Or.inl rfl

theorem rootAt_ne_labelled (hk : KeysApart P) {root0 : C.Key} (h0 : IsInit P root0) {k : C.Key} {l : String} (hl : (ascii l).length < 44) (i : ℕ) :
    rootAt P root0 secret i ≠ P.kdf [.key k, .label l] := by
  intro h
  cases i with
  | zero =>
    obtain ⟨x, p, q, hinit⟩ := h0
    exact hk.labelled_ne_init hl (h.symm.trans hinit)
  | succ i => exact hk.labelled_ne_step hl h.symm

/-- A chain key is derived under a label, which is not the one of message keys. -/
theorem chainAt_labelled {root : C.Key} {head : C.Key} (hhead : head = sendChain P root ∨ head = recvChain P root) (n : ℕ) :
    ∃ k l, chainAt P head n = P.kdf [.key k, .label l] ∧ (ascii l).length < 44 ∧ l ≠ "message_key" := by
  cases n with
  | zero =>
    rcases hhead with rfl | rfl
    · exact ⟨_, _, rfl, by decide, by decide⟩
    · exact ⟨_, _, rfl, by decide, by decide⟩
  | succ n => exact ⟨_, _, rfl, by decide, by decide⟩

end Shapes

/-! ## The keys in a state -/

/-- The keys of a state. -/
def State.keys {C : Carriers} (s : State C) : List C.Key := s.rootKey :: s.sendChainKey :: s.recvChainKey :: cachedKeys s

theorem mem_keys {C : Carriers} {s : State C} {t : C.Key} (h : t ∈ s.keys) :
    t = s.rootKey ∨ t = s.sendChainKey ∨ t = s.recvChainKey ∨ t ∈ cachedKeys s := by
  unfold State.keys at h
  simpa only [List.mem_cons] using h

section Held
variable {C : Carriers} {P : Primitives C} {o : Origins C} {c : Course C} {used tried : List C.Key} {s : State C} (hk : KeysApart P)
  (ho : o.Apart P) (hw : Walk P o c used tried s)
include hk ho hw

/-- Of the root keys so far a state holds the last. -/
theorem Walk.root_not_held {i : ℕ} (hi : i < c.steps) : rootAt P o.root c.secret i ∉ s.keys := by
  intro hmem
  rcases mem_keys hmem with heq | heq | heq | hcached
  · have hsame := rootAt_inj hk ho.root (heq.trans hw.root)
    omega
  · obtain ⟨k, l, hlabel, hl, _⟩ := chainAt_labelled (mine_labelled c.secret ho c.sendStep) c.sendNum
    exact rootAt_ne_labelled c.secret hk ho.root hl i (heq.trans (hw.send_eq.trans hlabel))
  · obtain ⟨k, l, hlabel, hl, _⟩ := chainAt_labelled (theirs_labelled c.secret ho c.recvStep) c.recvNum
    exact rootAt_ne_labelled c.secret hk ho.root hl i (heq.trans (hw.recv_eq.trans hlabel))
  · obtain ⟨j, n, hkey, _⟩ := hw.tried_at _ (List.mem_append_right tried hcached)
    exact rootAt_ne_labelled c.secret hk ho.root (by decide) i hkey

/-- The chain keys it holds are the ends of its two chains. -/
theorem Walk.chain_held {head : C.Key} {j : ℕ} (hhead : head = sendChain P (rootAt P o.root c.secret j) ∨ head = recvChain P (rootAt P o.root c.secret j))
    {n : ℕ} (hmem : chainAt P head n ∈ s.keys) : chainAt P head n = s.sendChainKey ∨ chainAt P head n = s.recvChainKey := by
  obtain ⟨k, l, hlabel, hl, hne⟩ := chainAt_labelled hhead n
  rcases mem_keys hmem with heq | heq | heq | hcached
  · exact absurd (hw.root.symm.trans (heq.symm.trans hlabel)) (rootAt_ne_labelled c.secret hk ho.root hl c.steps)
  · exact Or.inl heq
  · exact Or.inr heq
  · obtain ⟨i, m, hkey, _⟩ := hw.tried_at _ (List.mem_append_right tried hcached)
    exact absurd (hk.labelled_inj (hlabel.symm.trans hkey)).2 hne

/-- The message keys it holds are those of the cache. -/
theorem Walk.message_held {ck : C.Key} (hmem : messageKey P ck ∈ s.keys) : messageKey P ck ∈ cachedKeys s := by
  rcases mem_keys hmem with heq | heq | heq | hcached
  · exact absurd (hw.root.symm.trans heq.symm) (rootAt_ne_labelled c.secret hk ho.root (by decide) c.steps)
  · obtain ⟨k, l, hlabel, _, hne⟩ := chainAt_labelled (mine_labelled c.secret ho c.sendStep) c.sendNum
    exact absurd (hk.labelled_inj (heq.trans (hw.send_eq.trans hlabel))).2.symm hne
  · obtain ⟨k, l, hlabel, _, hne⟩ := chainAt_labelled (theirs_labelled c.secret ho c.recvStep) c.recvNum
    exact absurd (hk.labelled_inj (heq.trans (hw.recv_eq.trans hlabel))).2.symm hne
  · exact hcached

end Held

/-! ## What is known after the capture -/

/-- The first root key was made from a shared secret that nobody else has. -/
def SecretRoot (coins : Set ℕ) (root : symbols.Key) : Prop := ∃ x p q, root = ratchetInit symbolic x p q ∧ ∀ given, ¬Known coins given x

/-- Tags, and keys that were taken from a state. -/
def handedOut (given : Set Term) (s : State symbols) : Set Term := {t | t ∈ given ∨ t ∈ s.keys}

section Capture
variable {coins : Set ℕ} {given : Set Term} {o : Origins symbols} {c : Course symbols} {used tried : List symbols.Key}
  {s : State symbols} (hgiven : OnlyTags given) (ho : o.Apart symbolic) (hw : Walk symbolic o c used tried s)

theorem kdf_held (hgiven : OnlyTags given) {ps : List (Part Term Term Term)} (h : symbolic.kdf ps ∈ handedOut given s) : symbolic.kdf ps ∈ s.keys := by
  rcases h with htag | hkey
  · obtain ⟨key, nonce, plaintext, ad, heq⟩ := hgiven _ htag
    cases heq
  · exact hkey

include hgiven ho hw

/-- The root keys before the last are behind a hash, back to the secret of the first. -/
theorem Walk.root_unknown (hroot : SecretRoot coins o.root) {i : ℕ} (hi : i < c.steps) :
    ¬Known coins (handedOut given s) (rootAt symbolic o.root c.secret i) := by
  have hk := keysApart_of_ideal symbolic_ideal
  induction i with
  | zero =>
    intro hknown
    have hnot := hw.root_not_held hk ho hi
    obtain ⟨x, p, q, heq, hx⟩ := hroot
    rw [rootAt] at hknown hnot
    rw [heq] at hknown hnot
    exact hx _ (known_kdf hknown (fun hin => hnot (kdf_held hgiven hin)) (.ss x) List.mem_cons_self)
  | succ i ih =>
    intro hknown
    have hnot := hw.root_not_held hk ho hi
    refine ih (by omega) ?_
    exact known_kdf hknown (fun hin => hnot (kdf_held hgiven hin)) (.key (rootAt symbolic o.root c.secret i)) List.mem_cons_self

/-- A chain key is known if the state has it or one before it, and not otherwise. -/
theorem Walk.chain_known (hroot : SecretRoot coins o.root) {head : symbols.Key} {j : ℕ} (hj : j < c.steps)
    (hhead : head = sendChain symbolic (rootAt symbolic o.root c.secret j) ∨ head = recvChain symbolic (rootAt symbolic o.root c.secret j)) {n : ℕ}
    (hknown : Known coins (handedOut given s) (chainAt symbolic head n)) :
    ∃ m ≤ n, chainAt symbolic head m = s.sendChainKey ∨ chainAt symbolic head m = s.recvChainKey := by
  have hk := keysApart_of_ideal symbolic_ideal
  induction n with
  | zero =>
    by_cases hmem : chainAt symbolic head 0 ∈ s.keys
    · exact ⟨0, le_rfl, hw.chain_held hk ho hhead hmem⟩
    · refine absurd ?_ (hw.root_unknown hgiven ho hroot hj)
      rw [chainAt] at hknown hmem
      rcases hhead with rfl | rfl
      · exact known_kdf hknown (fun hin => hmem (kdf_held hgiven hin)) (.key (rootAt symbolic o.root c.secret j)) List.mem_cons_self
      · exact known_kdf hknown (fun hin => hmem (kdf_held hgiven hin)) (.key (rootAt symbolic o.root c.secret j)) List.mem_cons_self
  | succ n ih =>
    by_cases hmem : chainAt symbolic head (n + 1) ∈ s.keys
    · exact ⟨n + 1, le_rfl, hw.chain_held hk ho hhead hmem⟩
    · have hbefore := known_kdf hknown (fun hin => hmem (kdf_held hgiven hin)) (.key (chainAt symbolic head n)) List.mem_cons_self
      obtain ⟨m, hm, hheld⟩ := ih hbefore
      exact ⟨m, Nat.le_succ_of_le hm, hheld⟩

theorem Walk.message_known (hroot : SecretRoot coins o.root) {head : symbols.Key} {j : ℕ} (hj : j < c.steps)
    (hhead : head = sendChain symbolic (rootAt symbolic o.root c.secret j) ∨ head = recvChain symbolic (rootAt symbolic o.root c.secret j)) {n : ℕ}
    (hknown : Known coins (handedOut given s) (messageKey symbolic (chainAt symbolic head n))) :
    messageKey symbolic (chainAt symbolic head n) ∈ cachedKeys s ∨
      ∃ m ≤ n, chainAt symbolic head m = s.sendChainKey ∨ chainAt symbolic head m = s.recvChainKey := by
  have hk := keysApart_of_ideal symbolic_ideal
  by_cases hmem : messageKey symbolic (chainAt symbolic head n) ∈ s.keys
  · exact Or.inl (hw.message_held hk ho hmem)
  · refine Or.inr (hw.chain_known hgiven ho hroot hj hhead ?_)
    exact known_kdf hknown (fun hin => hmem (kdf_held hgiven hin)) (.key (chainAt symbolic head n)) List.mem_cons_self

/-- Of the keys that a side encrypted with, only those of the last root key are known. -/
theorem Walk.sealed_hangsOn (hroot : SecretRoot coins o.root) {mk : symbols.Key} (hmem : mk ∈ used) (hknown : Known coins (handedOut given s) mk) :
    HangsOn symbolic s.rootKey mk := by
  have hk := keysApart_of_ideal symbolic_ideal
  obtain ⟨j, n, hkey, hown, hearlier⟩ := hw.sealed_at mk hmem
  have hhead := mine_labelled (P := symbolic) c.secret ho j
  have hstart := headAt_chainHead ho c.secret
  rcases Nat.lt_or_eq_of_le (hw.sealed_le hown) with hlt | rfl
  · rw [hkey] at hknown
    rcases hw.message_known hgiven ho hroot hlt hhead hknown with hcached | ⟨m, hm, hsend | hrecv⟩
    · rw [show messageKey symbolic _ = mk from hkey.symm] at hcached
      exact (hw.apart hk ho hmem (List.mem_append_right tried hcached)).elim
    · -- the sending chain is already past the key
      obtain ⟨hsame, rfl⟩ := (chainAt_inj hk (hstart j).1 (hstart c.sendStep).1).mp (hsend.trans hw.send_eq)
      have hstep := (recvHead_headAt (P := symbolic) o.root o.mine c.secret j).unique ho.mine_origin hk
        (hsame ▸ recvHead_headAt (P := symbolic) o.root o.mine c.secret c.sendStep)
      unfold Earlier at hearlier
      omega
    · obtain ⟨hsame, _⟩ := (chainAt_inj hk (hstart j).1 (hstart c.recvStep).2).mp (hrecv.trans hw.recv_eq)
      obtain ⟨rfl, hpos⟩ := headAt_cross hk ho hsame
      exact absurd (hown.resolve_left hpos) hw.recv_not_own
  · refine ⟨n, ?_⟩
    rw [hkey, hw.root]
    exact hhead.imp (fun h => congrArg (fun ck => messageKey symbolic (chainAt symbolic ck n)) h)
      (fun h => congrArg (fun ck => messageKey symbolic (chainAt symbolic ck n)) h)

/-- And the same of the keys with which it opened a message. -/
theorem Walk.opened_hangsOn (hroot : SecretRoot coins o.root) {mk : symbols.Key} (hmem : mk ∈ tried) (hknown : Known coins (handedOut given s) mk) :
    HangsOn symbolic s.rootKey mk := by
  have hk := keysApart_of_ideal symbolic_ideal
  obtain ⟨j, n, hkey, hnot, hearlier⟩ := hw.tried_at mk (List.mem_append_left _ hmem)
  have hhead := theirs_labelled (P := symbolic) c.secret ho j
  have hstart := headAt_chainHead ho c.secret
  rcases Nat.lt_or_eq_of_le (hw.tried_le hearlier) with hlt | rfl
  · rw [hkey] at hknown
    rcases hw.message_known hgiven ho hroot hlt hhead hknown with hcached | ⟨m, hm, hsend | hrecv⟩
    · rw [show messageKey symbolic _ = mk from hkey.symm] at hcached
      exact absurd rfl ((List.nodup_append.mp hw.nodup).2.2 mk hmem mk hcached)
    · obtain ⟨hsame, _⟩ := (chainAt_inj hk (hstart j).2 (hstart c.sendStep).1).mp (hsend.trans hw.send_eq)
      obtain ⟨rfl, hpos⟩ := headAt_cross hk ho hsame.symm
      exact absurd (hw.send_own.resolve_left hpos) hnot
    · -- the receiving chain is already past the key
      obtain ⟨hsame, rfl⟩ := (chainAt_inj hk (hstart j).2 (hstart c.recvStep).2).mp (hrecv.trans hw.recv_eq)
      have hstep := (recvHead_headAt (P := symbolic) o.root o.theirs c.secret j).unique ho.theirs_origin hk
        (hsame ▸ recvHead_headAt (P := symbolic) o.root o.theirs c.secret c.recvStep)
      unfold Earlier at hearlier
      omega
  · refine ⟨n, ?_⟩
    rw [hkey, hw.root]
    exact hhead.imp (fun h => congrArg (fun ck => messageKey symbolic (chainAt symbolic ck n)) h)
      (fun h => congrArg (fun ck => messageKey symbolic (chainAt symbolic ck n)) h)

end Capture

/-! ## What is read -/

theorem Derives.labelled {given : Set Term} {k : symbols.Key} (h : Derives given k) (l : String) : Derives given (symbolic.kdf [.key k, .label l]) := by
  refine Derives.kdf ?_
  intro part hmem
  rcases List.mem_cons.mp hmem with rfl | hlabel
  · exact h
  · rw [List.mem_singleton.mp hlabel]
    exact .label l

theorem Derives.chainAt {given : Set Term} {ck : symbols.Key} (h : Derives given ck) (n : ℕ) : Derives given (chainAt symbolic ck n) := by
  induction n with
  | zero => exact h
  | succ n ih => exact Derives.labelled ih _

theorem HangsOn.derives {given : Set Term} {root mk : symbols.Key} (h : Derives given root) (hm : HangsOn symbolic root mk) : Derives given mk := by
  obtain ⟨n, rfl | rfl⟩ := hm
  · exact Derives.labelled (Derives.chainAt (Derives.labelled h _) n) _
  · exact Derives.labelled (Derives.chainAt (Derives.labelled h _) n) _

section Reading
variable {secret : Set ℕ} {u : Setup symbols} {l : Ledger} {s : Exposed symbols} {p : Side}

theorem Handshake.secretRoot (hu : Handshake u secret) (p : Side) : SecretRoot secret (originsOf symbolic u p).root := by
  obtain ⟨a, ha, hprekey⟩ := hu.prekey
  obtain ⟨b, hb, hencap⟩ := hu.encap
  have hroot : (originsOf symbolic u p).root = u.root symbolic := by
    cases p with
    | alice => rfl
    | bob => exact u.bob_root (P := symbolic) symbolicKem_correct
  refine ⟨.kemSs (.pub u.prekey) u.encap, u.aliceKeyB, u.bobKeyB, hroot, ?_⟩
  intro given hknown
  rw [hprekey, hencap] at hknown
  rcases known_kemSs.mp hknown with hcoin | ⟨r, hr, hcoin⟩
  · exact hcoin hb
  · cases hr
    exact hcoin ha

/-- The keys of a state are hashes. -/
theorem Walk.key_hash {o : Origins symbols} {c : Course symbols} {used tried : List symbols.Key} {st : State symbols} (ho : o.Apart symbolic)
    (hw : Walk symbolic o c used tried st) {t : Term} (hmem : t ∈ st.keys) : ∃ input, t = .hash input := by
  rcases mem_keys hmem with heq | heq | heq | hcached
  · rw [heq, hw.root]
    cases c.steps with
    | zero =>
      obtain ⟨x, a, b, hinit⟩ := ho.root
      exact ⟨_, hinit⟩
    | succ k => exact ⟨_, rfl⟩
  · obtain ⟨k, label, hlabel, _⟩ := chainAt_labelled (mine_labelled (P := symbolic) c.secret ho c.sendStep) c.sendNum
    exact ⟨_, heq.trans (hw.send_eq.trans hlabel)⟩
  · obtain ⟨k, label, hlabel, _⟩ := chainAt_labelled (theirs_labelled (P := symbolic) c.secret ho c.recvStep) c.recvNum
    exact ⟨_, heq.trans (hw.recv_eq.trans hlabel)⟩
  · obtain ⟨j, n, hkey, _⟩ := hw.tried_at t (List.mem_append_right tried hcached)
    exact ⟨_, hkey⟩

/-- All that was seized is known from the tags and the keys of the state. -/
theorem Secure.seized_known (h : Secure secret u l s) (hpriv : ∃ n, n ∉ secret ∧ (s.st p).myRatchetKem.priv = .coin n) {t : Term}
    (ht : Derives (seized secret u s p) t) : Known secret (handedOut (tags s) (s.st p)) t := by
  refine ht.known ?_
  have hsub : tags s ⊆ handedOut (tags s) (s.st p) := fun t hmem => Or.inl hmem
  obtain ⟨n, hn, hcoin⟩ := hpriv
  obtain ⟨r, hr⟩ := (h.confined p).generated
  obtain ⟨c, hc⟩ := h.walks p
  rintro t' (hseen | hstate)
  · exact (h.known t' hseen).mono hsub
  · rcases List.mem_cons.mp hstate with rfl | hstate
    · rw [hr]
      exact trivial
    · rcases List.mem_cons.mp hstate with rfl | hstate
      · rw [hcoin]
        exact hn
      · rcases List.mem_cons.mp hstate with rfl | hkeys
        · exact (h.confined p).peer.mono hsub
        · obtain ⟨input, rfl⟩ := hc.key_hash (originsOf_apart symbolic u p) hkeys
          exact Or.inl (Or.inr hkeys)

/-- What opens a message is the key that it was sealed under. -/
theorem opens_unique {mk mk' : symbols.Key} {msg : Message symbols} {plaintext plaintext' : Bytes}
    (h : symbolic.aes.decrypt mk msg.nonce msg.ciphertext msg.tag [] = some plaintext)
    (h' : symbolic.aes.decrypt mk' msg.nonce msg.ciphertext msg.tag [] = some plaintext') : mk' = mk := by
  simp only [symbolic, symbolicAes] at h h'
  split at h
  · next heq =>
    split at h'
    · next heq' => exact (Term.mac.inj (heq'.symm.trans heq)).1
    · cases h'
  · cases h

theorem mem_of_accepted {xs : List (symbols.Key × Bytes)} {rs : List (Message symbols × Bytes)} (h : List.Forall₂ OpenedUnder xs rs)
    {r : Message symbols × Bytes} (hmem : r ∈ rs) : ∃ x ∈ xs, OpenedUnder x r := by
  induction h with
  | nil => exact absurd hmem List.not_mem_nil
  | cons hhead _ ih =>
    rcases List.mem_cons.mp hmem with rfl | hrest
    · exact ⟨_, List.mem_cons_self, hhead⟩
    · obtain ⟨x, hx, hopened⟩ := ih hrest
      exact ⟨x, List.mem_cons_of_mem _ hx, hopened⟩

/-- A message that a side sent or accepted was opened by one key, which is known after the capture only on the last root key. -/
theorem Secure.key_of (h : Secure secret u l s) (hu : Handshake u secret) {msg : Message symbols}
    (hmsg : msg ∈ s.sent p ∨ ∃ plaintext, (msg, plaintext) ∈ s.accepted p) : ∃ mk plaintext,
      symbolic.aes.decrypt mk msg.nonce msg.ciphertext msg.tag [] = some plaintext ∧
        (Known secret (handedOut (tags s) (s.st p)) mk → HangsOn symbolic (s.st p).rootKey mk) := by
  have ho := originsOf_apart symbolic u p
  have hroot := hu.secretRoot p
  obtain ⟨c, hc⟩ := h.walks p
  rcases hmsg with hsent | ⟨plaintext, haccepted⟩
  · obtain ⟨x, hx, hsealed⟩ := mem_of_sent (h.sent p) hsent
    refine ⟨x.1, x.2, ?_, hc.sealed_hangsOn h.onlyTags ho hroot (List.mem_map_of_mem hx)⟩
    have hdec := symbolic_ideal.aes.decrypt_encrypt x.1 msg.nonce x.2 []
    rw [← show (msg.ciphertext, msg.tag) = _ from hsealed] at hdec
    exact hdec
  · obtain ⟨x, hx, hopened, _⟩ := mem_of_accepted (h.accepted p) haccepted
    exact ⟨x.1, x.2, hopened, hc.opened_hangsOn h.onlyTags ho hroot (List.mem_map_of_mem hx)⟩

end Reading

/-- Of what a side sent or accepted, its captured state reads the messages on the chains of the current root key, and no others. -/
theorem captured_state_reads_iff {secret : Set ℕ} {u : Setup symbols} (hu : Handshake u secret) {events : List (Intrusion symbols)}
    (h : Attack secret u events) {p : Side} (hpriv : ∃ n, n ∉ secret ∧ ((Exposed.run symbolic u events).st p).myRatchetKem.priv = .coin n)
    {msg : Message symbols}
    (hmsg : msg ∈ (Exposed.run symbolic u events).sent p ∨ ∃ plaintext, (msg, plaintext) ∈ (Exposed.run symbolic u events).accepted p) :
    CanRead (seized secret u (Exposed.run symbolic u events) p) msg ↔
      ∃ mk plaintext, HangsOn symbolic ((Exposed.run symbolic u events).st p).rootKey mk ∧
        symbolic.aes.decrypt mk msg.nonce msg.ciphertext msg.tag [] = some plaintext := by
  obtain ⟨l, hl, _⟩ := (Secure.start hu).run h
  constructor
  · rintro ⟨key, plaintext, hderives, hdec⟩
    obtain ⟨mk, plaintext', hopen, hhangs⟩ := hl.key_of hu hmsg
    obtain rfl := opens_unique hopen hdec
    exact ⟨key, plaintext, hhangs (hl.seized_known hpriv hderives), hdec⟩
  · rintro ⟨mk, plaintext, hhangs, hdec⟩
    exact ⟨mk, plaintext, hhangs.derives (.given (Or.inr (State.mem_terms _).2.1)), hdec⟩

/-- Alice deleted the key of Bob's first message when she opened it, and her state still reads the message. -/
theorem captured_state_reads_iff_mirrored : CanRead (seized {2, 3} published (Exposed.run symbolic published mirrored) .alice) firstReply := by
  refine (captured_state_reads_iff handshake_published attack_mirrored ⟨4, by simp, ?_⟩ (Or.inr ⟨[1], ?_⟩)).mpr ?_
  · rfl
  · have haccepted : (Exposed.run symbolic published mirrored).accepted .alice = [(firstReply, [1])] := rfl
    rw [haccepted]
    exact List.mem_cons_self
  · exact ⟨encryptKey symbolic (published.bob symbolic) (demoCoins 0), [1], ⟨0, Or.inl rfl⟩, rfl⟩

end ScatterWeb.Ratchet
