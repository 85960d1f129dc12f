import Mathlib.Data.List.Basic

/-! # Transfers in pieces

A system call moves a part of what it is asked to move, and at least one element if there is one. `ready k` of an end says how much
more than one element the `k`-th of its next calls is ready for, so every way to split a stream is some `ready`. The loops around the
calls do not depend on it: the reader gets the number of elements that it asks for, or nothing if the stream ends before, and the
writer puts everything on the stream. -/
namespace ScatterWeb.Lib.Pieces
set_option autoImplicit false

variable {β : Type}

/-- The end that reads; `rest` is all that will come before the end of the stream. -/
structure Source (β : Type) where
  rest : List β
  ready : ℕ → ℕ

def Source.read (s : Source β) (n : ℕ) : List β × Source β :=
  (s.rest.take (min n (s.ready 0 + 1)), ⟨s.rest.drop (min n (s.ready 0 + 1)), fun k => s.ready (k + 1)⟩)

/-- A read of nothing is the end of the stream. -/
def readExact (n : ℕ) (buf : List β) (s : Source β) : Option (List β) × Source β :=
  if buf.length < n then
    let r := s.read (n - buf.length)
    if r.1 = [] then (none, r.2) else readExact n (buf ++ r.1) r.2
  else (some buf, s)
termination_by n - buf.length
decreasing_by
  rename_i hmore hgot
  have hpos : 0 < (s.read (n - buf.length)).1.length := List.length_pos_iff.mpr hgot
  rw [List.length_append]
  omega

/-- The end that writes. -/
structure Sink (β : Type) where
  out : List β
  ready : ℕ → ℕ

def Sink.write (s : Sink β) (b : List β) : ℕ × Sink β :=
  let w := min b.length (s.ready 0 + 1)
  (w, ⟨s.out ++ b.take w, fun k => s.ready (k + 1)⟩)

def writeAll (b : List β) (done : ℕ) (s : Sink β) : Sink β :=
  if done < b.length then
    let r := s.write (b.drop done)
    writeAll b (done + r.1) r.2
  else s
termination_by b.length - done
decreasing_by
  simp only [Sink.write, List.length_drop]
  omega

theorem Source.read_fst_ne_nil {s : Source β} {n : ℕ} (hn : 0 < n) (hrest : s.rest ≠ []) : (s.read n).1 ≠ [] := by
  unfold Source.read
  dsimp only
  rw [Ne, List.take_eq_nil_iff]
  rintro (hzero | hnil)
  · omega
  · exact hrest hnil

theorem Source.read_append (s : Source β) (n : ℕ) : (s.read n).1 ++ (s.read n).2.rest = s.rest := List.take_append_drop _ _

theorem Source.length_read_le (s : Source β) (n : ℕ) : (s.read n).1.length ≤ n := by
  unfold Source.read
  dsimp only
  rw [List.length_take]
  omega

theorem Source.eq_nil_of_read {s : Source β} {n : ℕ} (hn : 0 < n) (h : (s.read n).1 = []) : s.rest = [] := by
  by_contra hrest
  exact Source.read_fst_ne_nil hn hrest h

/-- A stream that is long enough. -/
theorem readExact_of_le {n : ℕ} {buf : List β} {s : Source β} (hbuf : buf.length ≤ n) (hrest : n - buf.length ≤ s.rest.length) :
    ∃ ready, readExact n buf s = (some (buf ++ s.rest.take (n - buf.length)), ⟨s.rest.drop (n - buf.length), ready⟩) := by
  induction buf, s using readExact.induct n with
  | case1 buf s hmore r hgot =>
    have hnil := Source.eq_nil_of_read (by omega) hgot
    rw [hnil, List.length_nil] at hrest
    omega
  | case2 buf s hmore r hgot ih =>
    have hsplit : r.1 ++ r.2.rest = s.rest := s.read_append _
    have hle : r.1.length ≤ n - buf.length := s.length_read_le _
    have hmissing : n - (buf ++ r.1).length = n - buf.length - r.1.length := by
      rw [List.length_append]
      omega
    have hlength : r.1.length + r.2.rest.length = s.rest.length := by rw [← hsplit, List.length_append]
    obtain ⟨ready, hread⟩ := ih (by rw [List.length_append]; omega) (by omega)
    refine ⟨ready, ?_⟩
    rw [readExact, if_pos hmore, if_neg hgot]
    rw [hread, hmissing, ← hsplit, List.take_append, List.drop_append, List.take_of_length_le hle, List.drop_of_length_le hle,
      List.append_assoc, List.nil_append]
  | case3 buf s hmore =>
    have hzero : n - buf.length = 0 := by omega
    refine ⟨s.ready, ?_⟩
    rw [readExact, if_neg hmore, hzero]
    simp

/-- A stream that ends before. -/
theorem readExact_of_lt {n : ℕ} {buf : List β} {s : Source β} (hrest : s.rest.length < n - buf.length) :
    ∃ ready, readExact n buf s = (none, ⟨[], ready⟩) := by
  induction buf, s using readExact.induct n with
  | case1 buf s hmore r hgot =>
    have hnil := Source.eq_nil_of_read (by omega) hgot
    have hsplit : r.1 ++ r.2.rest = s.rest := s.read_append _
    rw [hgot, List.nil_append, hnil] at hsplit
    refine ⟨r.2.ready, ?_⟩
    rw [readExact, if_pos hmore, if_pos hgot, ← hsplit]
  | case2 buf s hmore r hgot ih =>
    have hsplit : r.1 ++ r.2.rest = s.rest := s.read_append _
    have hlength : r.1.length + r.2.rest.length = s.rest.length := by rw [← hsplit, List.length_append]
    rw [readExact, if_pos hmore, if_neg hgot]
    exact ih (by rw [List.length_append]; omega)
  | case3 buf s hmore => omega

theorem out_writeAll (b : List β) (done : ℕ) (s : Sink β) : (writeAll b done s).out = s.out ++ b.drop done := by
  induction done, s using writeAll.induct b with
  | case1 done s hmore r ih =>
    have hout : r.2.out = s.out ++ (b.drop done).take r.1 := rfl
    rw [writeAll, if_pos hmore]
    rw [ih, hout, List.append_assoc, ← List.drop_drop, List.take_append_drop]
  | case2 done s hmore =>
    rw [writeAll, if_neg hmore, List.drop_of_length_le (by omega), List.append_nil]

end ScatterWeb.Lib.Pieces
