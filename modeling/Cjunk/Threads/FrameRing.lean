import Cjunk.Lib.RingBuffer
import Cjunk.Lib.Run

/-!
# The ring between frame grabber and command handler

`writer` and `reader` of `pthreads.c`, which `log4c/pointers.c` has once more: two
threads that share the ring of `MAX` frames and its pointers `wp` and `rp`, without a
lock.  Each read or write of a pointer or of a frame is one step, and the steps of the
two threads come in any order.  The tracing and the threads' own `testwp` and `testrp`,
which nothing depends on, are left out.

An increment and the wrap to 0 are two steps, so both pointers pass through `MAX`.  The
writer's test for a full ring takes no harm from that.  The reader's test for an empty
one does: with `rp = 0` it takes a `wp` that is about to be wrapped for a pointer that is
ahead.  `frames_in_order` says that there is no other harm, and `empty_ring_is_read` that
this one is real.
-/

namespace Cjunk.Threads

open Run RingBuffer

universe u

variable {α : Type u}

/-- `MAX`: the number of frames in the ring. -/
def maxFrames : ℕ := 8

/-! ## The two threads -/

/-- Where the writer is, by its next access. -/
inductive WriterPc where
  /-- `wp+1==rp || (wp+1==MAX && !rp)`, in the order of its four reads. -/
  | fullWp
  | fullRp
  | lastWp
  | lastRp
  /-- The frame is stored in `arrays[wp]`. -/
  | slotWp
  | store
  /-- `wp++` -/
  | incReadWp
  | incWp
  /-- `if (wp == MAX) wp = 0` -/
  | testWp
  | wrapWp
  deriving DecidableEq

/-- Where the reader is, by its next access. -/
inductive ReaderPc where
  /-- `if (rp == MAX) rp = 0` -/
  | testRp
  | wrapRp
  /-- `rp == wp` -/
  | emptyRp
  | emptyWp
  /-- The frame is taken from `arrays[rp]`. -/
  | slotRp
  | take
  /-- `rp++` -/
  | incReadRp
  | incRp
  deriving DecidableEq

/-- Between the store and the increment, the writer has stored a frame it has not counted. -/
def WriterPc.storing : WriterPc → ℕ
  | .incReadWp | .incWp => 1
  | .fullWp | .fullRp | .lastWp | .lastRp | .slotWp | .store | .testWp | .wrapWp => 0

/-- Between the take and the increment, the reader has taken a frame it has not counted. -/
def ReaderPc.taking : ReaderPc → ℕ
  | .incReadRp | .incRp => 1
  | .testRp | .wrapRp | .emptyRp | .emptyWp | .slotRp | .take => 0

/-- The memory the threads share, and each thread with what it has read last. -/
structure FrameRing (α : Type u) where
  wp : ℕ := 0
  rp : ℕ := 0
  arrays : ℕ → α
  writer : WriterPc := .fullWp
  writerRead : ℕ := 0
  reader : ReaderPc := .testRp
  readerRead : ℕ := 0
  /-- The frames the writer has stored, and those the reader has taken. -/
  stored : List α := []
  taken : List α := []
  /-- The slots with a frame that was stored and has not been taken yet. -/
  waiting : ℕ → Bool := fun _ => false
  /-- The writer has stored a frame in a slot that was waiting. -/
  overwrote : Bool := false

namespace FrameRing

/-- The writer's next access; `frame` is what the device delivers if it is the store. -/
def writerStep (s : FrameRing α) (frame : α) : FrameRing α :=
  match s.writer with
  | .fullWp => { s with writerRead := s.wp, writer := .fullRp }
  | .fullRp =>
      if s.writerRead + 1 = s.rp then { s with writer := .fullWp } else { s with writer := .lastWp }
  | .lastWp =>
      if s.wp + 1 = maxFrames then { s with writer := .lastRp } else { s with writer := .slotWp }
  | .lastRp => if s.rp = 0 then { s with writer := .fullWp } else { s with writer := .slotWp }
  | .slotWp => { s with writerRead := s.wp, writer := .store }
  | .store =>
      { s with
        arrays := Function.update s.arrays s.writerRead frame
        writer := .incReadWp
        stored := s.stored ++ [frame]
        waiting := Function.update s.waiting s.writerRead true
        overwrote := s.overwrote || s.waiting s.writerRead }
  | .incReadWp => { s with writerRead := s.wp, writer := .incWp }
  | .incWp => { s with wp := s.writerRead + 1, writer := .testWp }
  | .testWp =>
      if s.wp = maxFrames then { s with writer := .wrapWp } else { s with writer := .fullWp }
  | .wrapWp => { s with wp := 0, writer := .fullWp }

/-- The reader's next access. -/
def readerStep (s : FrameRing α) : FrameRing α :=
  match s.reader with
  | .testRp =>
      if s.rp = maxFrames then { s with reader := .wrapRp } else { s with reader := .emptyRp }
  | .wrapRp => { s with rp := 0, reader := .emptyRp }
  | .emptyRp => { s with readerRead := s.rp, reader := .emptyWp }
  | .emptyWp =>
      if s.readerRead = s.wp then { s with reader := .testRp } else { s with reader := .slotRp }
  | .slotRp => { s with readerRead := s.rp, reader := .take }
  | .take =>
      { s with
        reader := .incReadRp
        taken := s.taken ++ [s.arrays s.readerRead]
        waiting := Function.update s.waiting s.readerRead false }
  | .incReadRp => { s with readerRead := s.rp, reader := .incRp }
  | .incRp => { s with rp := s.readerRead + 1, reader := .testRp }

/-- Whose turn it is. -/
inductive Turn (α : Type u) where
  | writer (frame : α)
  | reader

def step (s : FrameRing α) : Turn α → Option (FrameRing α)
  | .writer frame => some (s.writerStep frame)
  | .reader => some s.readerStep

/-- The frames are taken in the order they were stored, each once, and none is
overwritten before it is taken. -/
def InOrder (s : FrameRing α) : Prop := s.taken <+: s.stored ∧ s.overwrote = false

instance [DecidableEq α] (s : FrameRing α) : Decidable s.InOrder := by
  unfold InOrder
  infer_instance

/-- The reader does not hold an `rp` of 0 against a `wp` that is about to be wrapped. -/
def WrapNotSeen (s : FrameRing α) : Turn α → Prop
  | .writer _ => True
  | .reader => s.reader = .emptyWp → ¬ (s.rp = 0 ∧ s.wp = maxFrames)

instance (s : FrameRing α) : (t : Turn α) → Decidable (s.WrapNotSeen t)
  | .writer _ => .isTrue trivial
  | .reader => inferInstanceAs (Decidable (_ → _))

/-! ## The invariant

`w` and `r` count the increments of `wp` and `rp`. -/

/-- What the writer knows at each of its accesses. -/
def WriterAt (s : FrameRing α) (w r : ℕ) : Prop :=
  match s.writer with
  | .fullWp => s.wp = w % 8
  | .fullRp => s.wp = w % 8 ∧ s.writerRead = w % 8
  -- not full, or the second half of the test will say so
  | .lastWp => s.wp = w % 8 ∧ (w % 8 ≠ 7 → w < r + 7) ∧ (w = r + 7 → s.rp = 0)
  | .lastRp => s.wp = w % 8 ∧ w % 8 = 7 ∧ (w = r + 7 → s.rp = 0)
  | .slotWp => s.wp = w % 8 ∧ w < r + 7
  | .store => s.wp = w % 8 ∧ s.writerRead = w % 8 ∧ w < r + 7
  | .incReadWp => s.wp = w % 8 ∧ w < r + 7
  | .incWp => s.wp = w % 8 ∧ s.writerRead = w % 8 ∧ w < r + 7
  | .testWp => s.wp = w % 8 ∨ s.wp = 8 ∧ w % 8 = 0
  | .wrapWp => s.wp = 8 ∧ w % 8 = 0

/-- What the reader knows at each of its accesses. -/
def ReaderAt (s : FrameRing α) (w r : ℕ) : Prop :=
  match s.reader with
  | .testRp => s.rp = r % 8 ∨ s.rp = 8 ∧ r % 8 = 0
  | .wrapRp => s.rp = 8 ∧ r % 8 = 0
  | .emptyRp => s.rp = r % 8
  | .emptyWp => s.rp = r % 8 ∧ s.readerRead = r % 8
  | .slotRp => s.rp = r % 8 ∧ r < w
  | .take => s.rp = r % 8 ∧ s.readerRead = r % 8 ∧ r < w
  | .incReadRp => s.rp = r % 8 ∧ r < w
  | .incRp => s.rp = r % 8 ∧ s.readerRead = r % 8 ∧ r < w

structure Inv (s : FrameRing α) (w r : ℕ) : Prop where
  le : r ≤ w
  room : w ≤ r + 7
  writer : s.WriterAt w r
  reader : s.ReaderAt w r
  stored : s.stored.length = w + s.writer.storing
  taken : s.taken.length = r + s.reader.taking
  ordered : s.taken <+: s.stored
  holds : Holds 8 s.arrays r (s.stored.drop r)
  /-- The waiting slots are those of the frames stored and not taken. -/
  waiting : ∀ p < 8, s.waiting p = true ↔
    ∃ k, s.taken.length ≤ k ∧ k < s.stored.length ∧ k % 8 = p
  kept : s.overwrote = false

/-- The frames and what became of them. -/
def frames (s : FrameRing α) : (ℕ → α) × List α × List α × (ℕ → Bool) × Bool :=
  (s.arrays, s.stored, s.taken, s.waiting, s.overwrote)

section

variable {s t : FrameRing α} {w r : ℕ}

/-- A step that touches no frame keeps the invariant if the threads know enough after it. -/
theorem Inv.of_frames (h : s.Inv w r) (same : t.frames = s.frames) (writer : t.WriterAt w r)
    (reader : t.ReaderAt w r) (storing : t.writer.storing = s.writer.storing)
    (taking : t.reader.taking = s.reader.taking) : t.Inv w r := by
  have stored : t.stored = s.stored := congrArg (fun f => f.2.1) same
  have taken : t.taken = s.taken := congrArg (fun f => f.2.2.1) same
  have arrays : t.arrays = s.arrays := congrArg Prod.fst same
  have waiting : t.waiting = s.waiting := congrArg (fun f => f.2.2.2.1) same
  have overwrote : t.overwrote = s.overwrote := congrArg (fun f => f.2.2.2.2) same
  refine ⟨h.le, h.room, writer, reader, ?_, ?_, ?_, ?_, ?_, ?_⟩
  · rw [stored, storing, h.stored]
  · rw [taken, taking, h.taken]
  · rw [stored, taken]
    exact h.ordered
  · rw [stored, arrays]
    exact h.holds
  · rw [stored, taken, waiting]
    exact h.waiting
  · rw [overwrote]
    exact h.kept

/-- The writer's pointer is its count, or has yet to be wrapped. -/
theorem WriterAt.wp_eq (h : s.WriterAt w r) : s.wp = w % 8 ∨ s.wp = 8 ∧ w % 8 = 0 := by
  unfold WriterAt at h
  cases pc : s.writer <;> rw [pc] at h <;> dsimp only at h <;> omega

/-- The reader's pointer is its count, or has yet to be wrapped. -/
theorem ReaderAt.rp_eq (h : s.ReaderAt w r) : s.rp = r % 8 ∨ s.rp = 8 ∧ r % 8 = 0 := by
  unfold ReaderAt at h
  cases pc : s.reader <;> rw [pc] at h <;> dsimp only at h <;> omega

/-- What the reader knows stays true when the writer moves on. -/
theorem ReaderAt.mono {w' : ℕ} (h : s.ReaderAt w r) (more : w ≤ w') : s.ReaderAt w' r := by
  unfold ReaderAt at h ⊢
  cases pc : s.reader <;> rw [pc] at h <;> dsimp only at h ⊢ <;> omega

/-- What the writer knows stays true when the reader moves on. -/
theorem WriterAt.mono {rp : ℕ} {r' : ℕ} (h : s.WriterAt w r) (more : r ≤ r')
    (full : w = r' + 7 → s.rp = 0 → rp = 0) (room : w ≤ r + 7) :
    ({ s with rp := rp } : FrameRing α).WriterAt w r' := by
  unfold WriterAt at h ⊢
  cases pc : s.writer <;> rw [pc] at h <;> dsimp only at h ⊢ <;> omega

/-! ## The steps -/

/-- The store: the slot of `w` is free, because the ring is not full. -/
theorem Inv.store (h : s.Inv w r) (pc : s.writer = .store) (frame : α) :
    (s.writerStep frame).Inv w r := by
  have knows := h.writer
  unfold WriterAt at knows
  rw [pc] at knows
  obtain ⟨wp, slot, free⟩ := knows
  have length : s.stored.length = w := by
    rw [h.stored, pc]
    rfl
  have taken := h.taken
  have low : r ≤ s.taken.length := by omega
  have le : s.taken.length ≤ s.stored.length := h.ordered.length_le
  have vacant : s.waiting (w % 8) = false := by
    rw [← Bool.not_eq_true, h.waiting (w % 8) (Nat.mod_lt _ (by decide))]
    rintro ⟨k, from_, below, same⟩
    have := eq_of_mod_eq (r := r) (N := 8) (x := k) (y := w) (by omega) (by omega) h.le (by omega)
      same
    omega
  unfold FrameRing.writerStep
  rw [pc, slot]
  dsimp only
  refine ⟨h.le, h.room, ?_, h.reader, ?_, h.taken, ?_, ?_, ?_, ?_⟩
  · exact ⟨wp, free⟩
  · rw [List.length_append, length]
    rfl
  · exact h.ordered.trans (List.prefix_append _ _)
  · rw [List.drop_append_of_le_length (by omega)]
    have queued : (s.stored.drop r).length = w - r := by rw [List.length_drop, length]
    have position : r + (s.stored.drop r).length = w := by
      have := h.le
      omega
    apply h.holds.push (by decide) (by omega)
    · intro p _ other
      rw [position] at other
      exact Function.update_of_ne other _ _
    · rw [position]
      exact Function.update_self _ _ _
  · intro p lt
    dsimp only
    rw [List.length_append, length, List.length_singleton]
    by_cases here : p = w % 8
    · subst here
      rw [Function.update_self]
      exact ⟨fun _ => ⟨w, by omega, by omega, rfl⟩, fun _ => rfl⟩
    · rw [Function.update_of_ne here, h.waiting p lt]
      constructor
      · rintro ⟨k, from_, below, same⟩
        exact ⟨k, from_, by omega, same⟩
      · rintro ⟨k, from_, below, same⟩
        have ne : k ≠ w := by
          rintro rfl
          exact here same.symm
        exact ⟨k, from_, by omega, same⟩
  · rw [vacant, Bool.or_false]
    exact h.kept

/-- Wherever it is, the writer keeps the invariant. -/
theorem Inv.writerStep (h : s.Inv w r) (frame : α) : ∃ w', (s.writerStep frame).Inv w' r := by
  have knows := h.writer
  have room := h.room
  have reads := h.reader
  unfold WriterAt at knows
  cases pc : s.writer with
  | store => exact ⟨w, h.store pc frame⟩
  | fullWp =>
      rw [pc] at knows
      unfold FrameRing.writerStep
      rw [pc]
      exact ⟨w, h.of_frames rfl ⟨knows, knows⟩ reads (by rw [pc]; rfl) rfl⟩
  | fullRp =>
      rw [pc] at knows
      obtain ⟨wp, read⟩ := knows
      unfold FrameRing.writerStep
      rw [pc]
      dsimp only
      split
      · exact ⟨w, h.of_frames rfl wp reads (by rw [pc]; rfl) rfl⟩
      · rename_i different
        rw [read] at different
        -- a full ring has `rp` one ahead, or both pointers at the seam
        have cursor := reads.rp_eq
        refine ⟨w, h.of_frames rfl ⟨wp, ?_, ?_⟩ reads (by rw [pc]; rfl) rfl⟩
        · intro inside
          omega
        · intro full
          show s.rp = 0
          omega
  | lastWp =>
      rw [pc] at knows
      obtain ⟨wp, inside, seam⟩ := knows
      unfold FrameRing.writerStep maxFrames
      rw [pc]
      dsimp only
      split
      · exact ⟨w, h.of_frames rfl ⟨wp, by omega, seam⟩ reads (by rw [pc]; rfl) rfl⟩
      · exact ⟨w, h.of_frames rfl ⟨wp, inside (by omega)⟩ reads (by rw [pc]; rfl) rfl⟩
  | lastRp =>
      rw [pc] at knows
      obtain ⟨wp, last, seam⟩ := knows
      unfold FrameRing.writerStep
      rw [pc]
      dsimp only
      split
      · exact ⟨w, h.of_frames rfl wp reads (by rw [pc]; rfl) rfl⟩
      · rename_i notFull
        refine ⟨w, h.of_frames rfl ⟨wp, ?_⟩ reads (by rw [pc]; rfl) rfl⟩
        exact Nat.lt_of_le_of_ne room fun full => notFull (seam full)
  | slotWp =>
      rw [pc] at knows
      unfold FrameRing.writerStep
      rw [pc]
      exact ⟨w, h.of_frames rfl ⟨knows.1, knows.1, knows.2⟩ reads (by rw [pc]; rfl) rfl⟩
  | incReadWp =>
      rw [pc] at knows
      unfold FrameRing.writerStep
      rw [pc]
      exact ⟨w, h.of_frames rfl ⟨knows.1, knows.1, knows.2⟩ reads (by rw [pc]; rfl) rfl⟩
  | incWp =>
      rw [pc] at knows
      obtain ⟨wp, read, free⟩ := knows
      unfold FrameRing.writerStep
      rw [pc, read]
      have stored := h.stored
      rw [pc] at stored
      have le := h.le
      refine ⟨w + 1, by omega, by omega, ?_, reads.mono (Nat.le_succ w), stored, h.taken,
        h.ordered, h.holds, h.waiting, h.kept⟩
      show w % 8 + 1 = (w + 1) % 8 ∨ w % 8 + 1 = 8 ∧ (w + 1) % 8 = 0
      omega
  | testWp =>
      rw [pc] at knows
      unfold FrameRing.writerStep maxFrames
      rw [pc]
      dsimp only at knows ⊢
      split
      · exact ⟨w, h.of_frames rfl ⟨by assumption, by omega⟩ reads (by rw [pc]; rfl) rfl⟩
      · exact ⟨w, h.of_frames rfl (by show s.wp = w % 8; omega) reads (by rw [pc]; rfl) rfl⟩
  | wrapWp =>
      rw [pc] at knows
      unfold FrameRing.writerStep
      rw [pc]
      exact ⟨w, h.of_frames rfl knows.2.symm reads (by rw [pc]; rfl) rfl⟩

/-- The take: the slot of `r` holds the next frame. -/
theorem Inv.take (h : s.Inv w r) (pc : s.reader = .take) : s.readerStep.Inv w r := by
  have knows := h.reader
  unfold ReaderAt at knows
  rw [pc] at knows
  obtain ⟨rp, slot, some⟩ := knows
  have length : s.taken.length = r := by
    rw [h.taken, pc]
    rfl
  have stored := h.stored
  have inside : r < s.stored.length := by omega
  have next : s.stored.drop r = s.stored[r] :: s.stored.drop (r + 1) :=
    List.drop_eq_getElem_cons inside
  have found : s.arrays (r % 8) = s.stored[r] := by
    have holds := h.holds
    rw [next] at holds
    exact holds.tail.1
  have most : s.stored.length ≤ r + 8 := by
    have := h.room
    have writer := h.writer
    unfold WriterAt at writer
    cases at_ : s.writer <;> rw [at_] at writer stored <;> dsimp only [WriterPc.storing] at * <;>
      omega
  unfold FrameRing.readerStep
  rw [pc, slot]
  dsimp only
  refine ⟨h.le, h.room, h.writer, ⟨rp, some⟩, h.stored, ?_, ?_, h.holds, ?_, h.kept⟩
  · rw [List.length_append, length]
    rfl
  · have so_far := List.prefix_iff_eq_take.mp h.ordered
    rw [length] at so_far
    rw [found, so_far, List.take_append_getElem inside]
    exact List.take_prefix _ _
  · intro p lt
    dsimp only
    rw [List.length_append, length, List.length_singleton]
    by_cases here : p = r % 8
    · subst here
      rw [Function.update_self]
      refine ⟨fun h => Bool.noConfusion h, ?_⟩
      rintro ⟨k, from_, below, same⟩
      have := eq_of_mod_eq (r := r) (N := 8) (x := k) (y := r) (by omega) (by omega) le_rfl
        (by omega) same
      omega
    · rw [Function.update_of_ne here, h.waiting p lt, length]
      constructor
      · rintro ⟨k, from_, below, same⟩
        have ne : k ≠ r := by
          rintro rfl
          exact here same.symm
        exact ⟨k, by omega, below, same⟩
      · rintro ⟨k, from_, below, same⟩
        exact ⟨k, by omega, below, same⟩

/-- Unless it compares `rp = 0` with `wp = MAX`, the reader keeps the invariant. -/
theorem Inv.readerStep (h : s.Inv w r)
    (ok : s.reader = .emptyWp → ¬ (s.rp = 0 ∧ s.wp = maxFrames)) :
    ∃ r', s.readerStep.Inv w r' := by
  have knows := h.reader
  have writes := h.writer
  unfold ReaderAt at knows
  cases pc : s.reader with
  | take => exact ⟨r, h.take pc⟩
  | testRp =>
      rw [pc] at knows
      unfold FrameRing.readerStep maxFrames
      rw [pc]
      dsimp only at knows ⊢
      split
      · exact ⟨r, h.of_frames rfl writes ⟨by assumption, by omega⟩ rfl (by rw [pc]; rfl)⟩
      · exact ⟨r, h.of_frames rfl writes (by show s.rp = r % 8; omega) rfl (by rw [pc]; rfl)⟩
  | wrapRp =>
      rw [pc] at knows
      unfold FrameRing.readerStep
      rw [pc]
      refine ⟨r, h.of_frames rfl ?_ knows.2.symm rfl (by rw [pc]; rfl)⟩
      exact writes.mono le_rfl (fun _ _ => rfl) h.room
  | emptyRp =>
      rw [pc] at knows
      unfold FrameRing.readerStep
      rw [pc]
      exact ⟨r, h.of_frames rfl writes ⟨knows, knows⟩ rfl (by rw [pc]; rfl)⟩
  | emptyWp =>
      rw [pc] at knows
      obtain ⟨rp, read⟩ := knows
      have settled := ok pc
      unfold FrameRing.readerStep
      rw [pc]
      dsimp only
      split
      · exact ⟨r, h.of_frames rfl writes (Or.inl rp) rfl (by rw [pc]; rfl)⟩
      · rename_i different
        refine ⟨r, h.of_frames rfl writes ⟨rp, ?_⟩ rfl (by rw [pc]; rfl)⟩
        rw [read] at different
        -- an empty ring has equal pointers, or both at the seam and `wp` not wrapped
        have cursor := writes.wp_eq
        have le := h.le
        unfold maxFrames at settled
        apply Nat.lt_of_le_of_ne le
        rintro rfl
        omega
  | slotRp =>
      rw [pc] at knows
      unfold FrameRing.readerStep
      rw [pc]
      exact ⟨r, h.of_frames rfl writes ⟨knows.1, knows.1, knows.2⟩ rfl (by rw [pc]; rfl)⟩
  | incReadRp =>
      rw [pc] at knows
      unfold FrameRing.readerStep
      rw [pc]
      exact ⟨r, h.of_frames rfl writes ⟨knows.1, knows.1, knows.2⟩ rfl (by rw [pc]; rfl)⟩
  | incRp =>
      rw [pc] at knows
      obtain ⟨rp, read, some⟩ := knows
      unfold FrameRing.readerStep
      rw [pc, read]
      have taken := h.taken
      rw [pc] at taken
      have room := h.room
      have inside : r < s.stored.length := by
        have := h.stored
        omega
      have next : s.stored.drop r = s.stored[r] :: s.stored.drop (r + 1) :=
        List.drop_eq_getElem_cons inside
      have holds := h.holds
      rw [next] at holds
      refine ⟨r + 1, some, by omega, ?_, ?_, h.stored, taken, h.ordered, holds.tail.2, h.waiting,
        h.kept⟩
      · exact writes.mono (Nat.le_succ r) (fun full _ => by omega) room
      · show r % 8 + 1 = (r + 1) % 8 ∨ r % 8 + 1 = 8 ∧ (r + 1) % 8 = 0
        omega

/-- A ring that nothing has been stored in, with both threads at their beginning. -/
def Fresh (s : FrameRing α) : Prop :=
  s.wp = 0 ∧ s.rp = 0 ∧ s.writer = .fullWp ∧ s.reader = .testRp ∧ s.stored = [] ∧ s.taken = [] ∧
    s.waiting = (fun _ => false) ∧ s.overwrote = false

theorem Fresh.inv (h : s.Fresh) : s.Inv 0 0 := by
  obtain ⟨wp, rp, writer, reader, stored, taken, waiting, overwrote⟩ := h
  refine ⟨le_rfl, Nat.zero_le _, ?_, ?_, ?_, ?_, ?_, ?_, ?_, overwrote⟩
  · unfold WriterAt
    rw [writer, wp]
  · unfold ReaderAt
    rw [reader, rp]
    exact Or.inl rfl
  · rw [stored, writer]
    rfl
  · rw [taken, reader]
    rfl
  · rw [taken]
    exact List.nil_prefix
  · rw [stored]
    exact holds_nil _ _
  · intro p _
    rw [waiting, stored]
    refine ⟨fun h => Bool.noConfusion h, ?_⟩
    rintro ⟨k, -, below, -⟩
    exact absurd below (Nat.not_lt_zero k)

theorem Inv.keeps {turn : Turn α} (h : ∃ w r, s.Inv w r) (ok : s.WrapNotSeen turn)
    (taken : s.step turn = some t) : ∃ w r, t.Inv w r := by
  obtain ⟨w, r, inv⟩ := h
  cases turn with
  | writer frame =>
      cases taken
      obtain ⟨w', inv⟩ := inv.writerStep frame
      exact ⟨w', r, inv⟩
  | reader =>
      cases taken
      obtain ⟨r', inv⟩ := inv.readerStep ok
      exact ⟨w, r', inv⟩

/-- A reader that goes on from the comparison of 0 with `MAX` takes a frame from an empty
ring. -/
theorem Inv.overtakes (h : s.Inv w r) {turn : Turn α} (seen : ¬ s.WrapNotSeen turn) :
    ¬ Throughout step InOrder s [.reader, .reader, .reader] := by
  obtain ⟨rfl, pc, zero, top⟩ : turn = .reader ∧ s.reader = .emptyWp ∧ s.rp = 0 ∧
      s.wp = maxFrames := by
    cases turn with
    | writer frame => exact absurd trivial seen
    | reader =>
        obtain ⟨pc, pointers⟩ := Classical.not_imp.mp seen
        obtain ⟨zero, top⟩ := not_not.mp pointers
        exact ⟨rfl, pc, zero, top⟩
  have knows := h.reader
  have writes := h.writer
  have stored := h.stored
  have taken := h.taken
  have le := h.le
  have room := h.room
  unfold ReaderAt at knows
  rw [pc] at knows taken
  obtain ⟨rp, read⟩ := knows
  have empty : s.stored.length = s.taken.length := by
    unfold WriterAt at writes
    unfold maxFrames at top
    dsimp only [ReaderPc.taking] at taken
    cases at_ : s.writer <;> rw [at_] at writes stored <;>
      dsimp only [WriterPc.storing] at writes stored <;> omega
  have first : s.step .reader = some { s with reader := .slotRp } := by
    have different : ¬ s.readerRead = s.wp := by
      rw [top, read, ← rp, zero]
      decide
    unfold step FrameRing.readerStep
    rw [pc]
    exact congrArg some (if_neg different)
  intro all
  have last := ((all.2 _ first).2 _ rfl).2 _ rfl
  have length := last.1.length_le
  rw [show ({ s with reader := .slotRp } : FrameRing α).readerStep.readerStep.taken =
    s.taken ++ [s.arrays s.rp] from rfl, List.length_append, List.length_singleton] at length
  have length : s.taken.length + 1 ≤ s.stored.length := length
  omega

end

def emptyRing : FrameRing ℕ := { arrays := fun _ => 0 }

/-- **The ring of frames.**  If the reader never compares an `rp` of 0 with a `wp` of `MAX`,
the frames are taken in order, each once, and none is overwritten.  Where it does compare
them, it goes on to take a frame that was not stored. -/
theorem frames_in_order {s : FrameRing α} (fresh : s.Fresh) :
    (∀ turns, Meets step WrapNotSeen s turns → Throughout step InOrder s turns) ∧
    ∀ turns t turn, Meets step WrapNotSeen s turns → exec step s turns = some t →
      ¬ t.WrapNotSeen turn →
        ¬ Throughout step InOrder s (turns ++ [.reader, .reader, .reader]) := by
  have keeps : ∀ turns, Meets step WrapNotSeen s turns →
      Throughout step (fun t => ∃ w r, t.Inv w r) s turns := fun turns ok =>
    ok.throughout (fun _ _ _ h ok taken => Inv.keeps h ok taken) (fun _ h => h)
      ⟨0, 0, fresh.inv⟩
  constructor
  · intro turns ok
    rw [throughout_iff_forall_exec]
    intro pre post whole t run
    obtain ⟨w, r, inv⟩ := throughout_iff_forall_exec.mp (keeps turns ok) pre post whole t run
    exact ⟨inv.ordered, inv.kept⟩
  · intro turns t turn ok run seen all
    obtain ⟨w, r, inv⟩ := throughout_iff_forall_exec.mp (keeps turns ok) turns []
      (List.append_nil _) t run
    exact inv.overtakes seen (all.of_exec run)

/-- The two threads, one frame after the other.  The writer wraps `wp` behind the eighth
frame, and the reader wraps `rp` before the ninth. -/
theorem frames_in_order_alternating : Throughout step InOrder emptyRing
    ((List.range 10).flatMap fun frame =>
      List.replicate (if frame = 7 then 10 else 8) (.writer (frame + 1)) ++
        List.replicate (if frame = 8 then 8 else 7) .reader) :=
  (frames_in_order (s := emptyRing) (by simp [Fresh, emptyRing])).1 _ (by decide +kernel)

/-- The reader follows closely: seven frames are stored and taken, then the eighth is
stored, and taken before the writer has wrapped `wp`.  The reader wraps `rp`, finds it
different from `wp`, and takes the first frame a second time. -/
def followClosely : List (Turn ℕ) :=
  ((List.range 8).flatMap fun frame =>
    List.replicate 8 (.writer (frame + 1)) ++ List.replicate 7 .reader) ++
  List.replicate 6 .reader

theorem empty_ring_is_read : ¬ Throughout step InOrder emptyRing followClosely ∧
    (exec step emptyRing followClosely).any fun s =>
      s.stored = [1, 2, 3, 4, 5, 6, 7, 8] ∧ s.taken = [1, 2, 3, 4, 5, 6, 7, 8, 1] :=
  ⟨by decide +kernel, by decide +kernel⟩

end FrameRing

end Cjunk.Threads
