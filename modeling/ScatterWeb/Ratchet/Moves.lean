import Mathlib.Logic.Relation
import ScatterWeb.Ratchet.Track

/-! # The assignments of `encrypt` and `decrypt`

A call changes the state in a few groups of assignments: a KEM step on either side, a step of the sending chain, a skipped key, a key that is
taken off the receiving chain or out of the cache. Every call, whether it returns or throws, is a sequence of these, so what each of them keeps holds at every moment of a
session, also in the middle of a call. -/
namespace ScatterWeb.Ratchet
open Crypto Relation
set_option autoImplicit false
variable {C : Carriers} {P : Primitives C}

/-- What `decrypt` may do before it has a key. -/
inductive Prepares (P : Primitives C) : State C → State C → Prop
  | skip (epoch : UInt32) (s : State C) : Prepares P s (skipOne P epoch s)
  | kemStep (ct : C.Ct) (pub : C.Pub) (epoch : UInt32) (s : State C) : Prepares P s (kemStepRecv P ct pub epoch s)

/-- The key comes off the chain, or out of the cache; it is gone from there when it is tried. -/
inductive Takes (P : Primitives C) : State C → C.Key → State C → Prop
  | chain (s : State C) : Takes P s (messageKey P s.recvChainKey) (takeKey P s)
  | cache (slot : UInt64) (mk : C.Key) (s : State C) (cached : s.skippedKeys.lookup slot = some mk) :
      Takes P s mk { s with skippedKeys := s.skippedKeys.erase slot }

inductive Assigns (P : Primitives C) : State C → State C → Prop
  | prepare {s s' : State C} (h : Prepares P s s') : Assigns P s s'
  | take {s s' : State C} {mk : C.Key} (h : Takes P s mk s') : Assigns P s s'
  | kemStep (coins : Coins C) (s : State C) : Assigns P s (kemStepSend P s coins).1
  | chainStep (s : State C) : Assigns P s { s with sendChainKey := nextChainKey P s.sendChainKey, sendMsgNum := s.sendMsgNum + 1 }

theorem encrypt_assigns (P : Primitives C) (s : State C) (coins : Coins C) (plaintext : Bytes) :
    ReflTransGen (Assigns P) s (encrypt P s coins plaintext).1 := by
  unfold encrypt
  split_ifs
  · exact (ReflTransGen.single (.kemStep coins s)).tail (.chainStep _)
  · exact ReflTransGen.single (.chainStep s)

/-! ## `decrypt` -/

theorem advanceLoop_prepares (epoch : UInt32) (n : ℕ) (s : State C) :
    ReflTransGen (Prepares P) s (endState ((advanceLoop P epoch n).run s)) := by
  induction n generalizing s with
  | zero => exact ReflTransGen.refl
  | succ n ih =>
    rw [advanceLoop_succ]
    split
    · exact ReflTransGen.refl
    · exact ReflTransGen.head (.skip epoch s) (ih (skipOne P epoch s))

/-- How a call can go: it throws before it has a key, or it takes one and AES-GCM decides. -/
inductive DecryptPath (P : Primitives C) (msg : Message C) (s : State C) (r : EStateM.Result RatchetError (State C) Bytes) : Prop
  | stops (s₁ : State C) (e : RatchetError) (prepared : ReflTransGen (Prepares P) s s₁) (result : r = .error e s₁)
  | tries (s₁ s₂ : State C) (mk : C.Key) (prepared : ReflTransGen (Prepares P) s s₁) (taken : Takes P s₁ mk s₂)
      (result : r = (aesOpen P mk msg).run s₂)

theorem DecryptPath.of_prepared {msg : Message C} {s s' : State C} {r : EStateM.Result RatchetError (State C) Bytes}
    (hprep : ReflTransGen (Prepares P) s s') (h : DecryptPath P msg s' r) : DecryptPath P msg s r := by
  cases h with
  | stops s₁ e hp hr => exact .stops s₁ e (hprep.trans hp) hr
  | tries s₁ s₂ mk hp ht hr => exact .tries s₁ s₂ mk (hprep.trans hp) ht hr

theorem openAt_path (msg : Message C) (s : State C) : DecryptPath P msg s (openAt P msg s) := by
  have hloop := advanceLoop_prepares (P := P) msg.header.epoch (msg.header.msgNum.toNat - s.recvMsgNum.toNat) s
  unfold openAt
  rw [advanceRecvChain_run]
  cases hrun : (advanceLoop P msg.header.epoch (msg.header.msgNum.toNat - s.recvMsgNum.toNat)).run s with
  | error e s' =>
    rw [hrun] at hloop
    exact .stops s' e hloop rfl
  | ok u s' =>
    rw [hrun] at hloop
    exact .tries s' (takeKey P s') _ hloop (.chain s') rfl

theorem decrypt_path (P : Primitives C) (msg : Message C) (s : State C) : DecryptPath P msg s ((decrypt P msg).run s) := by
  cases hc : s.skippedKeys.lookup (skipKey msg.header.epoch msg.header.msgNum) with
  | some mk =>
    rw [decrypt_cached hc]
    exact .tries s _ mk ReflTransGen.refl (.cache _ mk s hc) rfl
  | none =>
    rcases lt_trichotomy msg.header.epoch.toNat s.recvEpoch.toNat with hpast | heq | hnew
    · rw [decrypt_past hc (UInt32.lt_iff_toNat_lt.mpr hpast)]
      exact .stops s _ ReflTransGen.refl rfl
    · rw [decrypt_current hc (UInt32.toNat.inj heq)]
      exact openAt_path msg s
    · have hlt := UInt32.lt_iff_toNat_lt.mpr hnew
      cases hk : msg.header.kemCt with
      | none =>
        rw [decrypt_noKemCt hc hlt hk]
        exact .stops s _ ReflTransGen.refl rfl
      | some ct =>
        have hloop := advanceLoop_prepares (P := P) s.recvEpoch (msg.header.prevCount.toNat - s.recvMsgNum.toNat) s
        rw [decrypt_newEpoch hc hlt hk, advanceRecvChain_run]
        cases hrun : (advanceLoop P s.recvEpoch (msg.header.prevCount.toNat - s.recvMsgNum.toNat)).run s with
        | error e s' =>
          rw [hrun] at hloop
          exact .stops s' e hloop rfl
        | ok u s' =>
          rw [hrun] at hloop
          exact .of_prepared (hloop.tail (.kemStep ct msg.header.senderRatchetPub msg.header.epoch s')) (openAt_path msg _)

theorem decrypt_assigns (P : Primitives C) (msg : Message C) (s : State C) :
    ReflTransGen (Assigns P) s (endState ((decrypt P msg).run s)) := by
  have hlift : ∀ {s₁}, ReflTransGen (Prepares P) s s₁ → ReflTransGen (Assigns P) s s₁ :=
    fun h => ReflTransGen.mono (fun _ _ => Assigns.prepare) _ _ h
  cases decrypt_path P msg s with
  | stops s₁ e hp hr =>
    rw [hr]
    exact hlift hp
  | tries s₁ s₂ mk hp ht hr =>
    rw [hr, endState_aesOpen]
    exact (hlift hp).tail (.take ht)

end ScatterWeb.Ratchet
