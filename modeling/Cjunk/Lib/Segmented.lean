import Mathlib.Data.List.Basic
import Mathlib.Order.MinMax
import Mathlib.Data.Nat.Notation

/-!
# Reading a segmented stream

A byte stream arrives in segments, and a read of at most `n` elements takes no more than
what is left of the first one.  What a reader got, and how it left the stream, is
`Advances segs out segs'`: the elements `out` are gone, and the boundaries of the
segments that follow have not moved.  Reads compose (`Advances.trans`), so what several
reads do is known from their output alone.

The one thing that a single read depends on is `read_full_iff`: it returns all the `n`
elements it asks for if and only if no boundary lies strictly between them.
-/

namespace Cjunk.Segmented

universe u

variable {α : Type u}

/-- A read of at most `n` elements, and what it leaves. -/
def read (n : ℕ) : List (List α) → List α × List (List α)
  | [] => ([], [])
  | seg :: rest => (seg.take n, if seg.length ≤ n then rest else seg.drop n :: rest)

/-- No segment is empty. -/
def Proper (segs : List (List α)) : Prop := ∀ seg ∈ segs, seg ≠ []

instance [DecidableEq α] (segs : List (List α)) : Decidable (Proper segs) :=
  inferInstanceAs (Decidable (∀ seg ∈ segs, seg ≠ []))

/-- The positions at which a segment begins, and the end of the last one. -/
def boundaries : List (List α) → List ℕ
  | [] => [0]
  | seg :: rest => 0 :: (boundaries rest).map (seg.length + ·)

/-- A reader took `out` from `segs` and left `segs'`. -/
structure Advances (segs : List (List α)) (out : List α) (segs' : List (List α)) : Prop where
  flatten : segs.flatten = out ++ segs'.flatten
  proper : Proper segs → Proper segs'
  boundary : ∀ b, 0 < b → (b ∈ boundaries segs' ↔ out.length + b ∈ boundaries segs)

theorem Proper.tail {seg : List α} {rest : List (List α)} (h : Proper (seg :: rest)) :
    Proper rest :=
  fun s hs => h s (List.mem_cons_of_mem seg hs)

theorem Proper.length_pos {seg : List α} {rest : List (List α)} (h : Proper (seg :: rest)) :
    0 < seg.length :=
  List.length_pos_of_ne_nil (h seg List.mem_cons_self)

/-- A stream that is at its end has no segments left. -/
theorem Proper.eq_nil {segs : List (List α)} (h : Proper segs) (ended : segs.flatten = []) :
    segs = [] := by
  cases segs with
  | nil => rfl
  | cons seg rest =>
      rw [List.flatten_cons, List.append_eq_nil_iff] at ended
      exact absurd ended.1 (h seg List.mem_cons_self)

/-- The next element of a stream is the head of its first segment. -/
theorem Proper.eq_cons {segs : List (List α)} (h : Proper segs) {a : α} {stream : List α}
    (next : segs.flatten = a :: stream) : ∃ seg rest, segs = (a :: seg) :: rest := by
  cases segs with
  | nil => cases next
  | cons seg rest =>
      cases seg with
      | nil => exact absurd rfl (h [] List.mem_cons_self)
      | cons b seg =>
          cases next
          exact ⟨seg, rest, rfl⟩

/-! ## Boundaries -/

theorem zero_mem_boundaries (segs : List (List α)) : 0 ∈ boundaries segs := by
  cases segs with
  | nil => exact List.mem_singleton_self 0
  | cons seg rest => exact List.mem_cons_self

theorem mem_boundaries_cons {seg : List α} {rest : List (List α)} {b : ℕ} :
    b ∈ boundaries (seg :: rest) ↔ b = 0 ∨ ∃ c ∈ boundaries rest, seg.length + c = b := by
  rw [boundaries, List.mem_cons, List.mem_map]

/-- Past the first segment a boundary is one of the others. -/
theorem add_mem_boundaries_cons {seg : List α} {rest : List (List α)} {b : ℕ} (pos : 0 < b) :
    seg.length + b ∈ boundaries (seg :: rest) ↔ b ∈ boundaries rest := by
  rw [mem_boundaries_cons]
  constructor
  · rintro (zero | ⟨c, hc, same⟩)
    · omega
    · have : c = b := Nat.add_left_cancel same
      exact this ▸ hc
  · intro h
    exact Or.inr ⟨b, h, rfl⟩

/-- There is no boundary inside the first segment. -/
theorem length_le_of_mem_boundaries {seg : List α} {rest : List (List α)} {b : ℕ}
    (pos : 0 < b) (h : b ∈ boundaries (seg :: rest)) : seg.length ≤ b := by
  rcases mem_boundaries_cons.mp h with zero | ⟨c, -, rfl⟩
  · omega
  · exact Nat.le_add_right seg.length c

/-! ## Reads -/

theorem Advances.refl (segs : List (List α)) : Advances segs [] segs := by
  refine ⟨rfl, id, ?_⟩
  intro b _
  rw [List.length_nil, Nat.zero_add]

theorem Advances.trans {segs segs' segs'' : List (List α)} {out out' : List α}
    (h : Advances segs out segs') (h' : Advances segs' out' segs'') :
    Advances segs (out ++ out') segs'' := by
  refine ⟨?_, h'.proper ∘ h.proper, ?_⟩
  · rw [h.flatten, h'.flatten, List.append_assoc]
  · intro b pos
    rw [h'.boundary b pos, h.boundary _ (Nat.add_pos_right _ pos), List.length_append,
      Nat.add_assoc]

theorem read_advances (n : ℕ) (segs : List (List α)) :
    Advances segs (read n segs).1 (read n segs).2 := by
  cases segs with
  | nil => exact Advances.refl []
  | cons seg rest =>
      simp only [read]
      split
      · rename_i whole
        rw [List.take_of_length_le whole]
        refine ⟨rfl, Proper.tail, ?_⟩
        intro b pos
        exact (add_mem_boundaries_cons pos).symm
      · rename_i part
        have shorter : n < seg.length := Nat.lt_of_not_le part
        have taken : (seg.take n).length = n := List.length_take_of_le (Nat.le_of_lt shorter)
        refine ⟨?_, ?_, ?_⟩
        · rw [List.flatten_cons, List.flatten_cons, ← List.append_assoc, List.take_append_drop]
        · intro proper s hs
          rcases List.mem_cons.mp hs with rfl | old
          · exact List.ne_nil_of_length_pos (by rw [List.length_drop]; omega)
          · exact proper.tail s old
        · intro b pos
          rw [taken, mem_boundaries_cons, mem_boundaries_cons, List.length_drop]
          refine or_congr (by omega) (exists_congr fun c => and_congr_right fun _ => ?_)
          omega

theorem length_read_le (n : ℕ) (segs : List (List α)) : (read n segs).1.length ≤ n := by
  cases segs with
  | nil => exact Nat.zero_le n
  | cons seg rest => exact List.length_take_le n seg

/-- A read from a stream that is not at its end returns something. -/
theorem length_read_pos {n : ℕ} {segs : List (List α)} (proper : Proper segs)
    (more : segs.flatten ≠ []) (pos : 0 < n) : 0 < (read n segs).1.length := by
  cases segs with
  | nil => exact absurd rfl more
  | cons seg rest =>
      rw [read, List.length_take]
      exact Nat.lt_min.mpr ⟨pos, proper.length_pos⟩

/-- A read returns all it asks for iff no boundary lies strictly between. -/
theorem read_full_iff {n : ℕ} {segs : List (List α)} (proper : Proper segs)
    (enough : n ≤ segs.flatten.length) (pos : 0 < n) :
    (read n segs).1.length = n ↔ ∀ b, 0 < b → b < n → b ∉ boundaries segs := by
  cases segs with
  | nil =>
      rw [List.flatten_nil, List.length_nil] at enough
      omega
  | cons seg rest =>
      rw [read, List.length_take, min_eq_left_iff]
      constructor
      · intro whole b bpos below h
        have := length_le_of_mem_boundaries bpos h
        omega
      · intro uncut
        by_contra short
        apply uncut seg.length proper.length_pos (Nat.lt_of_not_le short)
        exact mem_boundaries_cons.mpr (Or.inr ⟨0, zero_mem_boundaries rest, rfl⟩)

namespace Advances

variable {segs segs' : List (List α)} {out rest : List α}

/-- What is left, when the stream is known. -/
theorem rest_eq (h : Advances segs out segs') (stream : segs.flatten = out ++ rest) :
    segs'.flatten = rest :=
  List.append_cancel_left (h.flatten.symm.trans stream)

/-- What was read is the beginning of the stream. -/
theorem out_eq_take (h : Advances segs out segs') : out = segs.flatten.take out.length := by
  rw [h.flatten, List.take_left]

end Advances

/-! ## Reads one after the other -/

/-- What reads of at most `n` elements get, up to `k` of them; they stop at the end. -/
def reads (n : ℕ) : ℕ → List (List α) → List (List α)
  | 0, _ => []
  | k + 1, segs =>
    if (read n segs).1.isEmpty then [] else (read n segs).1 :: reads n k (read n segs).2

/-- Each read has got something. -/
theorem length_reads_le (n k : ℕ) (segs : List (List α)) :
    (reads n k segs).length ≤ (reads n k segs).flatten.length := by
  induction k generalizing segs with
  | zero => exact Nat.le_refl _
  | succ k ih =>
      rw [reads]
      split
      · exact Nat.le_refl _
      · rename_i some
        have pos := List.length_pos_of_ne_nil (mt List.isEmpty_iff.mpr some)
        have := ih (read n segs).2
        rw [List.length_cons, List.flatten_cons, List.length_append]
        omega

end Cjunk.Segmented
