import Mathlib.Data.List.Basic
import Mathlib.Logic.Function.Basic
import ScatterWeb.Lib.Transition

/-! # One stream, many writers

Every writer puts the chunk of a message on the stream by a loop of writes, each of which takes any non-empty part of what is left; the
loops of different writers interleave. If nobody writes while somebody else is inside a chunk, the stream is the chunks of the messages
that are finished and the beginning of at most one more. A lock that is held around the loop gives this. -/
namespace ScatterWeb.Lib.SharedStream
set_option autoImplicit false

/-- `cur t` is the message that `t` is writing and how much of its chunk is done; `done` has the messages in the order in which their
loops ended. -/
structure State (ι μ β : Type) where
  out : List β
  cur : ι → Option (μ × ℕ)
  done : List μ

def State.initial {ι μ β : Type} : State ι μ β := ⟨[], fun _ => none, []⟩

inductive Event (ι μ : Type)
  | start (t : ι) (m : μ)
  | write (t : ι) (n : ℕ)

section Steps
variable {ι μ β : Type} [DecidableEq ι] (chunk : μ → List β)

def State.start (s : State ι μ β) (t : ι) (m : μ) : State ι μ β := { s with cur := Function.update s.cur t (some (m, 0)) }

/-- The next `n` of the chunk of `m`, of which `d` are written. -/
def State.write (s : State ι μ β) (t : ι) (m : μ) (d n : ℕ) : State ι μ β :=
  let out := s.out ++ ((chunk m).drop d).take n
  if d + n < (chunk m).length then { s with out := out, cur := Function.update s.cur t (some (m, d + n)) }
  else { out := out, cur := Function.update s.cur t none, done := s.done ++ [m] }

inductive Step : State ι μ β → Event ι μ → State ι μ β → Prop
  | start {s : State ι μ β} {t : ι} {m : μ} (hidle : s.cur t = none) : Step s (.start t m) (s.start t m)
  | write {s : State ι μ β} {t : ι} {m : μ} {d n : ℕ} (hcur : s.cur t = some (m, d)) (hpos : 0 < n) (hn : d + n ≤ (chunk m).length) :
      Step s (.write t n) (s.write chunk t m d n)

/-- Nobody writes while another is inside a chunk. -/
def Clear (s : State ι μ β) : Event ι μ → Prop
  | .start _ _ => True
  | .write t _ => ∀ t' m d, t' ≠ t → s.cur t' = some (m, d) → d = 0

def Only (P : μ → Prop) : Event ι μ → Prop
  | .start _ m => P m
  | .write _ _ => True

def ClearStep (P : μ → Prop) (s : State ι μ β) (e : Event ι μ) (s' : State ι μ β) : Prop := Step chunk s e s' ∧ Clear s e ∧ Only P e

def chunks (ms : List μ) : List β := (ms.map chunk).flatten

variable {chunk}

theorem ClearStep.mono {P Q : μ → Prop} (hPQ : ∀ m, P m → Q m) {s s' : State ι μ β} {e : Event ι μ} (h : ClearStep chunk P s e s') :
    ClearStep chunk Q s e s' := by
  obtain ⟨hstep, hclear, honly⟩ := h
  refine ⟨hstep, hclear, ?_⟩
  cases e with
  | start t m => exact hPQ m honly
  | write t n => exact trivial

theorem chunks_concat (ms : List μ) (m : μ) : chunks chunk (ms ++ [m]) = chunks chunk ms ++ chunk m := by simp [chunks]

/-! ## The invariant -/

/-- Nobody is inside a chunk, or exactly one. -/
inductive Orderly (chunk : μ → List β) (s : State ι μ β) : Prop
  | between (hout : s.out = chunks chunk s.done) (hnone : ∀ t m d, s.cur t = some (m, d) → d = 0)
  | inside {t : ι} {m : μ} {d : ℕ} (hcur : s.cur t = some (m, d)) (hd : d < (chunk m).length)
      (hout : s.out = chunks chunk s.done ++ (chunk m).take d) (hothers : ∀ t' m' d', t' ≠ t → s.cur t' = some (m', d') → d' = 0)

/-- What holds of the messages being written, when one of them is changed. -/
theorem forall_update {cur : ι → Option (μ × ℕ)} {t : ι} {w : Option (μ × ℕ)} {Q : ι → μ → ℕ → Prop}
    (hnew : ∀ m d, w = some (m, d) → Q t m d) (hold : ∀ t' m d, t' ≠ t → cur t' = some (m, d) → Q t' m d) :
    ∀ t' m d, Function.update cur t w t' = some (m, d) → Q t' m d := by
  intro t' m d h
  by_cases ht : t' = t
  · subst ht
    rw [Function.update_self] at h
    exact hnew m d h
  · rw [Function.update_of_ne ht] at h
    exact hold t' m d ht h

theorem orderly_start {s : State ι μ β} {t : ι} {m : μ} (h : Orderly chunk s) (hidle : s.cur t = none) : Orderly chunk (s.start t m) := by
  have hzero : ∀ m' d', some (m, 0) = some (m', d') → d' = 0 := by
    rintro m' d' ⟨⟩
    rfl
  cases h with
  | between hout hnone => exact .between hout (forall_update hzero (fun t' m' d' _ => hnone t' m' d'))
  | @inside t₀ m₀ d₀ hcur hd hout hothers =>
    have hne : t₀ ≠ t := by
      rintro rfl
      rw [hidle] at hcur
      cases hcur
    refine .inside (t := t₀) (m := m₀) (d := d₀) ((Function.update_of_ne hne ..).trans hcur) hd hout ?_
    intro t' m' d' ht' h'
    exact forall_update (Q := fun t' _ d' => t' ≠ t₀ → d' = 0) (fun m' d' h _ => hzero m' d' h)
      (fun t' m' d' _ h ht' => hothers t' m' d' ht' h) t' m' d' h' ht'

/-- Before a write that nobody else stands in the way of, the stream ends with what is written of the chunk. -/
theorem Orderly.out_of_clear {s : State ι μ β} {t : ι} {m : μ} {d n : ℕ} (h : Orderly chunk s) (hcur : s.cur t = some (m, d))
    (hclear : Clear s (.write t n)) : s.out = chunks chunk s.done ++ (chunk m).take d := by
  cases h with
  | between hout hnone =>
    rw [hout, hnone t m d hcur]
    simp
  | @inside t₀ m₀ d₀ hcur₀ hd hout hothers =>
    by_cases ht : t₀ = t
    · subst ht
      rw [hcur] at hcur₀
      cases hcur₀
      exact hout
    · have hd₀ := hclear t₀ m₀ d₀ ht hcur₀
      have hd' := hothers t m d (Ne.symm ht) hcur
      rw [hout, hd₀, hd']
      simp

theorem orderly_write {s : State ι μ β} {t : ι} {m : μ} {d n : ℕ} (h : Orderly chunk s) (hcur : s.cur t = some (m, d))
    (hn : d + n ≤ (chunk m).length) (hclear : Clear s (.write t n)) : Orderly chunk (s.write chunk t m d n) := by
  have hout : s.out ++ ((chunk m).drop d).take n = chunks chunk s.done ++ (chunk m).take (d + n) := by
    rw [h.out_of_clear hcur hclear, List.append_assoc, List.take_add]
  unfold State.write
  dsimp only
  split
  · rename_i hlt
    refine .inside (t := t) (m := m) (d := d + n) (Function.update_self ..) hlt hout ?_
    intro t' m' d' ht h'
    exact hclear t' m' d' ht ((Function.update_of_ne ht ..).symm.trans h')
  · rename_i hge
    have hall : d + n = (chunk m).length := by omega
    refine .between ?_ (forall_update (fun _ _ h => nomatch h) hclear)
    rw [hout, hall, List.take_length, chunks_concat]

theorem orderly_of_reachable {P : μ → Prop} {s : State ι μ β} (h : Reachable (ClearStep chunk P) State.initial s) : Orderly chunk s := by
  refine h.invariant (Orderly chunk) ?_ ?_
  · exact .between rfl (by simp [State.initial])
  · rintro t e u hinv ⟨hstep, hclear, _⟩
    cases hstep with
    | start hidle => exact orderly_start hinv hidle
    | write hcur _ hn => exact orderly_write hinv hcur hn hclear

/-- What was asked of the messages at their start. -/
structure Kept (P : μ → Prop) (s : State ι μ β) : Prop where
  done : ∀ m ∈ s.done, P m
  cur : ∀ t m d, s.cur t = some (m, d) → P m

theorem kept_of_reachable {P : μ → Prop} {s : State ι μ β} (h : Reachable (ClearStep chunk P) State.initial s) : Kept P s := by
  refine h.invariant (Kept P) ⟨by simp [State.initial], by simp [State.initial]⟩ ?_
  rintro s e u hinv ⟨hstep, _, honly⟩
  have hold : ∀ t t' m d, t' ≠ t → s.cur t' = some (m, d) → P m := fun _ t' m d _ => hinv.cur t' m d
  cases hstep with
  | @start t m hidle =>
    refine ⟨hinv.done, forall_update ?_ (hold t)⟩
    rintro m' d' ⟨⟩
    exact honly
  | @write t m d n hcur _ hn =>
    have hm := hinv.cur t m d hcur
    unfold State.write
    dsimp only
    split
    · refine ⟨hinv.done, forall_update ?_ (hold t)⟩
      rintro m' d' ⟨⟩
      exact hm
    · refine ⟨?_, forall_update (fun _ _ h => nomatch h) (hold t)⟩
      intro m' hm'
      rcases List.mem_append.mp hm' with hm' | hm'
      · exact hinv.done m' hm'
      · rw [List.mem_singleton.mp hm']
        exact hm

end Steps

/-! ## With a lock -/

structure LockedState (ι μ β : Type) where
  holder : Option ι
  stream : State ι μ β

def LockedState.initial {ι μ β : Type} : LockedState ι μ β := ⟨none, .initial⟩

inductive LockedEvent (ι μ : Type)
  | lock (t : ι)
  | unlock (t : ι)
  | stream (e : Event ι μ)

section Locked
variable {ι μ β : Type}

def Event.by : Event ι μ → ι
  | .start t _ => t
  | .write t _ => t

/-- Only the holder of the lock has a message. -/
def HolderOnly (s : LockedState ι μ β) : Prop := ∀ t, s.stream.cur t ≠ none → s.holder = some t

theorem clear_of_holder {s : LockedState ι μ β} {e : Event ι μ} (h : HolderOnly s) (hheld : s.holder = some e.by) : Clear s.stream e := by
  cases e with
  | start t m => exact trivial
  | write t n =>
    intro t' m d hne hcur
    have hheld' : s.holder = some t' := h t' (by simp [hcur])
    rw [hheld] at hheld'
    cases hheld'
    exact absurd rfl hne

variable [DecidableEq ι] (chunk : μ → List β)

/-- The lock is not released inside a loop. -/
inductive LockedStep : LockedState ι μ β → LockedEvent ι μ → LockedState ι μ β → Prop
  | lock {s : LockedState ι μ β} {t : ι} (hfree : s.holder = none) : LockedStep s (.lock t) { s with holder := some t }
  | unlock {s : LockedState ι μ β} {t : ι} (hheld : s.holder = some t) (hidle : s.stream.cur t = none) :
      LockedStep s (.unlock t) { s with holder := none }
  | stream {s : LockedState ι μ β} {e : Event ι μ} {stream : State ι μ β} (hheld : s.holder = some e.by) (hstep : Step chunk s.stream e stream) :
      LockedStep s (.stream e) { s with stream := stream }

def LockedOnly (P : μ → Prop) : LockedEvent ι μ → Prop
  | .stream e => Only P e
  | _ => True

variable {chunk}

theorem holderOnly_step {s s' : LockedState ι μ β} {e : LockedEvent ι μ} (h : HolderOnly s) (hstep : LockedStep chunk s e s') :
    HolderOnly s' := by
  cases hstep with
  | lock hfree =>
    intro t ht
    have hheld := h t ht
    rw [hfree] at hheld
    cases hheld
  | unlock hheld hidle =>
    intro t ht
    have hheld' := h t ht
    rw [hheld] at hheld'
    cases hheld'
    exact absurd hidle ht
  | @stream e stream hheld hstep =>
    -- a step changes the message of the writer whose event it is, and that is the holder
    have hothers : ∀ t, t ≠ e.by → stream.cur t = s.stream.cur t := by
      intro t ht
      cases hstep with
      | start _ => exact Function.update_of_ne ht ..
      | write _ _ _ =>
        unfold State.write
        dsimp only
        split
        · exact Function.update_of_ne ht ..
        · exact Function.update_of_ne ht ..
    intro t ht
    by_cases hby : t = e.by
    · rw [hby]
      exact hheld
    · refine h t ?_
      rw [← hothers t hby]
      exact ht

/-- With the lock, the stream is written as if nobody ever stood in the way. -/
theorem clear_of_locked {P : μ → Prop} {s : LockedState ι μ β}
    (h : Reachable (fun s e s' => LockedStep chunk s e s' ∧ LockedOnly P e) LockedState.initial s) :
    Reachable (ClearStep chunk P) State.initial s.stream := by
  have hinv := h.invariant (fun s => Reachable (ClearStep chunk P) State.initial s.stream ∧ HolderOnly s)
    ⟨Reachable.refl _ _, fun _ h => absurd rfl h⟩ ?_
  · exact hinv.1
  · rintro s e s' ⟨hreach, hholder⟩ ⟨hstep, honly⟩
    refine ⟨?_, holderOnly_step hholder hstep⟩
    cases hstep with
    | lock _ => exact hreach
    | unlock _ _ => exact hreach
    | stream hheld hstep => exact hreach.tail ⟨hstep, clear_of_holder hholder hheld, honly⟩

end Locked

end ScatterWeb.Lib.SharedStream
