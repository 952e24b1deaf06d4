import Cjunk.Lib.OpenFile
import Cjunk.Lib.Refinement
import Cjunk.Lib.Segmented
import Mathlib.Data.BitVec

/-!
# Copying with other block sizes

`tdd` reads blocks of `ibs` bytes, as many as a read gives it, and writes blocks of `obs` bytes out
of one buffer; what is left in it at the end is written last.  With `conv=swab` each block is
swapped as it was read.  With `conv=sparse` a block of zeros is not written, but the file is
extended over it.  At the end the bytes are divided by the block sizes.

`main_copies_iff`: if all is written that is to be written, the output is the input, whether it is
sparse or not, exactly if the sizes can be used, the buffer is large enough for each read, and each
block can be swapped.  A short read may break the last two: a buffer for `ibs` bytes has no room
for a whole block behind what is left of it, and the loop that swaps bytes runs past its end.
`main_writes_front`: whatever is not written, the output is the front of the input.
-/

namespace Cjunk.Tdd

open Segmented WhileLoop Refinement OpenFile

abbrev Byte := BitVec 8

/-- The options of the command line, with sizes and places that are not negative. -/
structure Options where
  ibs : ℕ := 512
  obs : ℕ := 512
  iseek : ℕ := 0
  skip : ℕ := 0
  count : ℤ := -1
  bswap : Bool := false
  sparseWrites : Bool := false
  /-- `int` -/
  sizes : ibs < 2 ^ 31 ∧ obs < 2 ^ 31 := by decide
  /-- `off_t` -/
  places : iseek * obs < 2 ^ 63 ∧ skip * obs < 2 ^ 63 := by decide

/-- How the loop is left before all blocks are read. -/
inductive Out where
  | endOfInput
  | readFailure
  | writeFailure
  deriving DecidableEq

/-- What is printed about it. -/
def Out.message : Out → String
  | endOfInput => ""
  | readFailure => "read failure"
  | writeFailure => "write failure\n"

/-- What is read, in the segments in which it arrives; behind them is the end of the input, or
`broken`, which no read gets past. -/
structure Input where
  segs : List (List Byte)
  seekable : Bool
  broken : Bool := false

/-- How many bytes a write takes at most, and whether the file can be extended, for each call. -/
structure Device where
  accepts : ℕ → ℕ
  truncates : ℕ → Bool
  /-- There is memory for the buffer, both files can be opened, and the output can be
  positioned. -/
  granted : Bool := true

structure State where
  segs : List (List Byte)
  /-- The first `n` bytes of the buffer. -/
  buf : List Byte := []
  file : OpenFile Byte
  writes : ℕ := 0
  totalIn : ℕ := 0
  totalOut : ℕ := 0
  bytesIn : ℕ := 0
  bytesOut : ℕ := 0
  out : Option Out := none
  printed : List String := []

/-- `swap_bytes`, which counts down by two to zero; from an odd number it does not get there. -/
def swapBytes : List Byte → Except Stop (List Byte)
  | [] => .ok []
  | [_] => .error .fault
  | a :: b :: p => do
      let swapped ← swapBytes p
      return b :: a :: swapped

def allZero (buf : List Byte) : Bool := buf.all (· == 0)

section Tdd

variable (o : Options) (input : Input) (dev : Device)

/-- The size of the buffer. -/
def bufSize : ℕ := if o.ibs = o.obs then o.ibs else o.ibs + o.obs

/-- `write_sparse`. -/
def writeSparse (buf : List Byte) (s : State) : ℤ × State :=
  if !o.sparseWrites || !allZero buf then
    let k := min buf.length (dev.accepts s.writes)
    (if k = 0 then -1 else k, { s with file := s.file.write (buf.take k), writes := s.writes + 1 })
  else
    let ofs := s.file.offset + buf.length
    if dev.truncates s.writes then
      (buf.length, { s with file := (s.file.truncate ofs).seek ofs, writes := s.writes + 1 })
    else (-1, { s with writes := s.writes + 1 })

/-- The bytes that were written are counted. -/
def writeCounted (buf : List Byte) (s : State) : ℤ × State :=
  let (nwritten, s) := writeSparse o dev buf s
  (nwritten, if nwritten > 0 then { s with bytesOut := s.bytesOut + nwritten.toNat } else s)

/-- A block of `obs` bytes. -/
def writeBlock (s : State) : Except Stop State :=
  let (nwritten, s) := writeCounted o dev (s.buf.take o.obs) s
  if nwritten ≠ o.obs then .ok { s with out := some .writeFailure }
  else .ok { s with buf := s.buf.drop o.obs, totalOut := s.totalOut + 1 }

/-- The bytes of a block, swapped with `conv=swab`. -/
def swapped (got : List Byte) : Except Stop (List Byte) :=
  if o.bswap then swapBytes got else .ok got

/-- A block is read, and what can be written is written. -/
def copyBlock (fuel : ℕ) (s : State) : Except Stop State :=
  let got := (read o.ibs s.segs).1
  if got.isEmpty then
    .ok { s with out := some (if input.broken then .readFailure else .endOfInput) }
  else if bufSize o < s.buf.length + got.length then .error .fault
  else do
    let got' ← swapped o got
    whileLoop (fun s => .ok (s.out.isNone && decide (o.obs ≤ s.buf.length))) (writeBlock o dev) fuel
      { s with
        segs := (read o.ibs s.segs).2
        buf := s.buf ++ got'
        totalIn := s.totalIn + 1
        bytesIn := s.bytesIn + got.length }

def copy (fuel : ℕ) : State → Except Stop State :=
  whileLoop (fun s => .ok (s.out.isNone && (o.count == -1 || o.count != s.totalIn)))
    (copyBlock o input dev fuel) fuel

/-- Blocks that are read and not copied; the input has to have them. -/
def skipBlocks : ℕ → List (List Byte) → Except Stop (List (List Byte))
  | 0, segs => .ok segs
  | k + 1, segs =>
    if (read o.ibs segs).1.isEmpty then .error .exit else skipBlocks k (read o.ibs segs).2

/-- What is left of the input when `skip` blocks are skipped.  Where it can seek, it goes on by
blocks of `obs` bytes. -/
def skipInput : Except Stop (List (List Byte)) :=
  if o.skip = 0 then .ok input.segs
  else if input.seekable then
    let rest := input.segs.flatten.drop (o.skip * o.obs)
    .ok (if rest.isEmpty then [] else [rest])
  else skipBlocks o o.skip input.segs

/-- A line about records: how many are whole, and whether there is part of one. -/
def recordsLine (bytes bs : ℕ) (name : String) : String :=
  (bytes / bs).repr ++ "+" ++ (if bytes % bs = 0 then 0 else 1 : ℕ).repr ++ " records " ++ name ++
    "\n"

/-- The line is printed, if its bytes can be divided. -/
def records (bytes bs : ℕ) (name : String) : Except Stop String :=
  if bs = 0 then .error .fault else .ok (recordsLine bytes bs name)

/-- What is printed at the end. -/
def report (s : State) : Except Stop (List String) := do
  let recordsIn ← records s.bytesIn o.ibs "in"
  let recordsOut ← records s.bytesOut o.obs "out"
  return [(s.out.map Out.message).getD "", recordsIn, recordsOut]

/-- What is left in the buffer is written, unless a write has failed. -/
def writeRest (s : State) : State :=
  if s.out != some .writeFailure && !s.buf.isEmpty then (writeCounted o dev s.buf s).2 else s

/-- `main`, with what it returns; the output is a new file. -/
def main (fuel : ℕ) : Except Stop (ℤ × State) :=
  if o.bswap ∧ o.ibs % 2 = 1 then .error .exit
  else if o.ibs ≠ o.obs ∧ 2 ^ 31 ≤ o.ibs + o.obs then .error .fault -- the sum is no `int`
  else if !dev.granted then .error .exit
  else do
    let segs ← skipInput o input
    let s ← copy o input dev fuel { segs := segs, file := OpenFile.seek {} (o.iseek * o.obs) }
    let s := writeRest o dev s
    let printed ← report o s
    return (if s.out = none then 0 else -1, { s with printed := printed })

/-! ## What is to be written -/

/-- The bytes two by two, the other way round. -/
def swab : List Byte → List Byte
  | a :: b :: p => b :: a :: swab p
  | p => p

/-- The bytes that are read, as they are to be written. -/
def convert (data : List Byte) : List Byte := if o.bswap then swab data else data

/-- As many reads as are made at most. -/
def limit (segs : List (List Byte)) : ℕ :=
  if o.count < 0 then segs.flatten.length else o.count.toNat

/-- The blocks that are read. -/
def blocks (segs : List (List Byte)) : List (List Byte) := reads o.ibs (limit o segs) segs

/-- The buffer has room for a block, when so many bytes were read before, and the block can be
swapped. -/
def Fits (before : ℕ) (got : List Byte) : Prop :=
  (o.ibs = o.obs → before % o.obs + got.length ≤ o.ibs) ∧ (o.bswap → got.length % 2 = 0)

def AllFit : ℕ → List (List Byte) → Prop
  | _, [] => True
  | before, got :: later => Fits o before got ∧ AllFit (before + got.length) later

/-- The sizes can be used: the buffer has a size, and bytes can be swapped and be divided. -/
structure Options.Usable : Prop where
  even : o.bswap → o.ibs % 2 = 0
  room : o.ibs ≠ o.obs → o.ibs + o.obs < 2 ^ 31
  some : 0 < o.ibs

/-- No write of a block is refused. -/
def Device.Accepting : Prop := ∀ i, o.obs ≤ dev.accepts i ∧ dev.truncates i

instance (before : ℕ) (got : List Byte) : Decidable (Fits o before got) :=
  inferInstanceAs (Decidable ((_ → _) ∧ (_ → _)))

instance decidableAllFit : ∀ before cs, Decidable (AllFit o before cs)
  | _, [] => instDecidableTrue
  | before, got :: later =>
    have := decidableAllFit (before + got.length) later
    inferInstanceAs (Decidable (_ ∧ _))

end Tdd

/-! ## Swapping -/

theorem swapBytes_eq (p : List Byte) :
    swapBytes p = if p.length % 2 = 0 then .ok (swab p) else .error .fault := by
  induction p using swab.induct with
  | case1 a b p ih =>
      have parity : (a :: b :: p).length % 2 = p.length % 2 := Nat.add_mod_right p.length 2
      rw [swapBytes, ih, parity]
      split
      · rfl
      · rfl
  | case2 p short =>
      rcases p with _ | ⟨a, _ | ⟨b, p⟩⟩
      · rfl
      · rfl
      · exact absurd rfl (short a b p)

theorem swab_append {xs : List Byte} (even : xs.length % 2 = 0) (ys : List Byte) :
    swab (xs ++ ys) = swab xs ++ swab ys := by
  induction xs using swab.induct with
  | case1 a b p ih =>
      have even' : p.length % 2 = 0 := (Nat.add_mod_right p.length 2).symm.trans even
      rw [List.cons_append, List.cons_append, swab, swab, ih even']
      rfl
  | case2 p short =>
      rcases p with _ | ⟨a, _ | ⟨b, p⟩⟩
      · rfl
      · cases even
      · exact absurd rfl (short a b p)

theorem length_swab (p : List Byte) : (swab p).length = p.length := by
  induction p using swab.induct with
  | case1 a b p ih => rw [swab, List.length_cons, List.length_cons, ih]; rfl
  | case2 p short => rw [swab]; exact short

variable {o : Options} {input : Input} {dev : Device} {base fuel : ℕ} {data : List Byte}
  {s t : State}

theorem convert_append {xs : List Byte} (even : o.bswap → xs.length % 2 = 0) (ys : List Byte) :
    convert o (xs ++ ys) = convert o xs ++ convert o ys := by
  unfold convert
  split
  · rename_i swap
    exact swab_append (even swap) ys
  · rfl

theorem length_convert (o : Options) (xs : List Byte) : (convert o xs).length = xs.length := by
  unfold convert
  split
  · exact length_swab xs
  · rfl

theorem swapped_eq (o : Options) (got : List Byte) :
    swapped o got =
      if o.bswap → got.length % 2 = 0 then .ok (convert o got) else .error .fault := by
  unfold swapped convert
  by_cases swap : o.bswap = true
  · rw [if_pos swap, if_pos swap, swapBytes_eq]
    exact if_congr ⟨fun even _ => even, fun even => even swap⟩ rfl rfl
  · rw [if_neg swap, if_neg swap, if_pos fun same => absurd same swap]

/-! ## Writing -/

/-- The front of the data is written, in whole blocks, and the rest is in the buffer. -/
structure Holding (o : Options) (base : ℕ) (data : List Byte) (s : State) : Prop where
  written : ∃ w, s.file = image base w ∧ w ++ s.buf = data ∧ w.length = o.obs * s.totalOut ∧
    s.bytesOut = w.length

/-- Only the front of the data is written, and no more will be. -/
structure Failed (base : ℕ) (data : List Byte) (s : State) : Prop where
  out : s.out = some .writeFailure
  written : ∃ w, s.file = image base w ∧ w <+: data ∧ s.bytesOut = w.length

/-- It is the front of more data, too. -/
theorem Failed.append (h : Failed base (convert o data) s) (even : o.bswap → data.length % 2 = 0)
    (more : List Byte) : Failed base (convert o (data ++ more)) s := by
  obtain ⟨out, w, file, front, counted⟩ := h
  refine ⟨out, w, file, front.trans ?_, counted⟩
  rw [convert_append even]
  exact List.prefix_append _ _

/-- As much was read. -/
structure SameInput (s t : State) : Prop where
  segs : t.segs = s.segs
  totalIn : t.totalIn = s.totalIn
  bytesIn : t.bytesIn = s.bytesIn

/-- The front of the bytes is written, whether they are or the file is extended. -/
theorem writeSparse_eq (o : Options) (dev : Device) {w buf : List Byte}
    (file : s.file = image base w) (more : buf ≠ []) :
    ∃ k ≤ buf.length, writeSparse o dev buf s = (if k = 0 then -1 else (k : ℤ), { s with
      file := image base (w ++ buf.take k)
      writes := s.writes + 1 }) ∧ (dev.Accepting o → buf.length ≤ o.obs → k = buf.length) := by
  unfold writeSparse
  split
  · refine ⟨min buf.length (dev.accepts s.writes), Nat.min_le_left _ _, ?_,
      fun accepting fits => ?_⟩
    · rw [← write_image, ← file]
    · exact Nat.min_eq_left (fits.trans (accepting s.writes).1)
  · rename_i hole
    simp only [Bool.or_eq_true, Bool.not_eq_true', not_or, Bool.not_eq_false] at hole
    have zeros : ∀ x ∈ buf, x = 0 := by
      have zeros := hole.2
      simp only [allZero, List.all_eq_true, beq_iff_eq] at zeros
      exact zeros
    have some : buf.length ≠ 0 := mt List.eq_nil_of_length_eq_zero more
    dsimp only
    split
    · refine ⟨buf.length, Nat.le_refl _, ?_, fun _ _ => rfl⟩
      have ends : s.file.contents.length ≤ s.file.offset := by
        rw [file]
        exact length_image_le base w
      rw [if_neg some, truncate_seek_eq_write ends zeros more, List.take_length, file, write_image]
    · rename_i refused
      refine ⟨0, Nat.zero_le _, ?_, fun accepting _ => absurd (accepting s.writes).2 refused⟩
      rw [List.take_zero, List.append_nil, ← file]
      rfl

/-- A block is written, or a write has failed. -/
inductive Wrote (o : Options) (dev : Device) (base : ℕ) (data : List Byte) (t : State) : Prop where
  | going (out : t.out = none) (holds : Holding o base data t)
  | failed (refused : ¬ dev.Accepting o) (failed : Failed base data t)

theorem writeCounted_eq (o : Options) (dev : Device) {w buf : List Byte}
    (file : s.file = image base w) (more : buf ≠ []) :
    ∃ k ≤ buf.length, writeCounted o dev buf s = (if k = 0 then -1 else (k : ℤ), { s with
      file := image base (w ++ buf.take k)
      writes := s.writes + 1
      bytesOut := s.bytesOut + k }) ∧
      (dev.Accepting o → buf.length ≤ o.obs → k = buf.length) := by
  obtain ⟨k, most, wrote, all⟩ := writeSparse_eq o dev file more
  refine ⟨k, most, ?_, all⟩
  rw [writeCounted, wrote]
  rcases Nat.eq_zero_or_pos k with rfl | pos
  · rfl
  · dsimp only
    rw [if_neg (Nat.ne_of_gt pos), if_pos (Int.natCast_pos.mpr pos)]
    rfl

theorem writeBlock_eq (dev : Device) (h : Holding o base data s) (going : s.out = none)
    (pos : 0 < o.obs) (full : o.obs ≤ s.buf.length) :
    ∃ t, writeBlock o dev s = .ok t ∧ SameInput s t ∧ Wrote o dev base data t ∧
      (t.out = none → t.buf.length + o.obs = s.buf.length) := by
  obtain ⟨w, file, split, blocks, counted⟩ := h.written
  have length : (s.buf.take o.obs).length = o.obs := List.length_take_of_le full
  have more : s.buf.take o.obs ≠ [] := List.ne_nil_of_length_pos (by omega)
  obtain ⟨k, most, wrote, all⟩ := writeCounted_eq o dev file more
  rw [length] at most all
  rw [List.take_take, Nat.min_eq_left most] at wrote
  rw [writeBlock, wrote]
  dsimp only
  by_cases whole : k = o.obs
  · have full : ¬ (if k = 0 then -1 else (k : ℤ)) ≠ o.obs := by
      rw [if_neg (by omega), whole]
      exact not_not_intro rfl
    rw [if_neg full]
    refine ⟨_, rfl, ⟨rfl, rfl, rfl⟩, .going going ⟨_, rfl, ?_, ?_, ?_⟩, fun _ => ?_⟩
    · rw [whole, List.append_assoc, List.take_append_drop, split]
    · show (w ++ s.buf.take k).length = o.obs * (s.totalOut + 1)
      rw [whole, List.length_append, length, blocks, Nat.mul_succ]
    · rw [whole, List.length_append, length, counted]
    · rw [List.length_drop]
      omega
  · have part : (if k = 0 then -1 else (k : ℤ)) ≠ o.obs := by
      split <;> omega
    rw [if_pos part]
    have refused : ¬ dev.Accepting o := fun accepting => whole (all accepting (Nat.le_refl _))
    refine ⟨_, rfl, ⟨rfl, rfl, rfl⟩, .failed refused ⟨rfl, _, rfl, ?_, ?_⟩,
      fun none => absurd none (Option.some_ne_none _)⟩
    · rw [← split]
      exact (List.prefix_append_right_inj w).mpr (List.take_prefix k s.buf)
    · rw [List.length_append, List.length_take_of_le (by omega), counted]

/-- Whole blocks are written until there is none left in the buffer. -/
theorem drain_ends (h : Holding o base data s) (going : s.out = none) (pos : 0 < o.obs) :
    Ends (s.buf.length < fuel) (whileLoop
      (fun s => .ok (s.out.isNone && decide (o.obs ≤ s.buf.length))) (writeBlock o dev) fuel s)
      fun t => SameInput s t ∧ Wrote o dev base data t ∧ (t.out = none → t.buf.length < o.obs) := by
  let left (t : State) : ℕ := if t.out = none then t.buf.length else 0
  refine (whileLoop_ends (fun s => s.out.isNone && decide (o.obs ≤ s.buf.length))
    (fun n t => SameInput s t ∧ Wrote o dev base data t ∧ left t = n) id
    (fun _ _ _ => rfl) ?_ ⟨⟨rfl, rfl, rfl⟩, .going going h, if_pos going⟩ id).mono ?_
  · rintro n t ⟨same, wrote, rfl⟩ more
    rw [Bool.and_eq_true, Option.isNone_iff_eq_none, decide_eq_true_eq] at more
    obtain ⟨going, full⟩ := more
    cases wrote with
    | failed _ failed => cases going.symm.trans failed.out
    | going _ holds =>
        obtain ⟨u, ran, same', wrote, less⟩ := writeBlock_eq dev holds going pos full
        have same : SameInput s u := ⟨same'.segs.trans same.segs,
          same'.totalIn.trans same.totalIn, same'.bytesIn.trans same.bytesIn⟩
        refine .inl ⟨u, ran, left u, ⟨same, wrote, rfl⟩, fun _ => ?_⟩
        show left u < left t
        rw [show left t = t.buf.length from if_pos going]
        by_cases going' : u.out = none
        · rw [show left u = u.buf.length from if_pos going']
          have := less going'
          omega
        · rw [show left u = 0 from if_neg going']
          omega
  · rintro t ⟨n, ⟨same, wrote, rfl⟩, done⟩
    refine ⟨same, wrote, fun going => ?_⟩
    rw [going] at done
    exact Nat.lt_of_not_le fun full => by simp [full] at done

/-! ## Copying -/

/-- So much of the input was read, and all of it was written but less than a block. -/
structure Copied (o : Options) (base : ℕ) (data : List Byte) (s : State) : Prop where
  holds : Holding o base (convert o data) s
  short : s.buf.length < o.obs
  even : o.bswap → data.length % 2 = 0
  counted : s.bytesIn = data.length

theorem Copied.length_buf (h : Copied o base data s) : s.buf.length = data.length % o.obs := by
  obtain ⟨w, -, split, blocks, -⟩ := h.holds.written
  have length := congrArg List.length split
  rw [List.length_append, length_convert, blocks] at length
  rw [← length, Nat.mul_add_mod, Nat.mod_eq_of_lt h.short]

/-- A block that fits is copied, or a write fails. -/
theorem copyBlock_ends (h : Copied o base data s) (going : s.out = none) (pos : 0 < o.obs)
    (more : (read o.ibs s.segs).1 ≠ []) (fits : Fits o data.length (read o.ibs s.segs).1) :
    Ends ((data ++ (read o.ibs s.segs).1).length < fuel) (copyBlock o input dev fuel s) fun t =>
      t.segs = (read o.ibs s.segs).2 ∧ t.totalIn = s.totalIn + 1 ∧
        (t.out = none ∧ Copied o base (data ++ (read o.ibs s.segs).1) t ∨
          ¬ dev.Accepting o ∧ Failed base (convert o (data ++ (read o.ibs s.segs).1)) t) := by
  have most := length_read_le o.ibs s.segs
  unfold copyBlock
  generalize (read o.ibs s.segs).1 = got, (read o.ibs s.segs).2 = rest at *
  obtain ⟨room, even⟩ := fits
  have inside : ¬ bufSize o < s.buf.length + got.length := by
    have short := h.short
    rw [h.length_buf] at short ⊢
    unfold bufSize
    split
    · rename_i same
      exact Nat.not_lt.mpr (room same)
    · omega
  obtain ⟨w, file, split, blocks, counted⟩ := h.holds.written
  have all : convert o (data ++ got) = convert o data ++ convert o got :=
    convert_append h.even got
  -- What was read joins what was left of the last block.
  let u : State := { s with
    segs := rest
    buf := s.buf ++ convert o got
    totalIn := s.totalIn + 1
    bytesIn := s.bytesIn + got.length }
  have start : Holding o base (convert o (data ++ got)) u :=
    ⟨w, file, by rw [all, ← split, List.append_assoc], blocks, counted⟩
  rw [if_neg (by rwa [List.isEmpty_iff]), if_neg inside, swapped_eq, if_pos even]
  show Ends _ (whileLoop _ (writeBlock o dev) fuel u) _
  -- The buffer gets shorter with every block that is written.
  refine ((drain_ends start going pos).of_imp fun enough => ?_).mono ?_
  · have length := congrArg List.length split
    rw [List.length_append, length_convert] at length
    rw [List.length_append] at enough
    show (s.buf ++ convert o got).length < fuel
    rw [List.length_append, length_convert]
    omega
  · rintro t ⟨same, wrote, drained⟩
    refine ⟨same.segs, same.totalIn, ?_⟩
    cases wrote with
    | failed refused failed => exact .inr ⟨refused, failed⟩
    | going going holds =>
        refine .inl ⟨going, holds, drained going, fun swap => ?_, ?_⟩
        · have := h.even swap
          have := even swap
          rw [List.length_append]
          omega
        · rw [same.bytesIn, List.length_append, ← h.counted]

theorem copyBlock_fault (h : Copied o base data s) (more : (read o.ibs s.segs).1 ≠ [])
    (misfits : ¬ Fits o data.length (read o.ibs s.segs).1) :
    copyBlock o input dev fuel s = .error .fault := by
  unfold copyBlock
  generalize (read o.ibs s.segs).1 = got, (read o.ibs s.segs).2 = rest at *
  rw [if_neg (by rwa [List.isEmpty_iff])]
  split
  · rfl
  · rename_i inside
    rw [h.length_buf] at inside
    have odd : ¬ (o.bswap → got.length % 2 = 0) := by
      refine fun even => misfits ⟨fun same => ?_, even⟩
      rw [bufSize, if_pos same] at inside
      exact Nat.le_of_not_lt inside
    rw [swapped_eq, if_neg odd]
    rfl

/-- All is copied: the loop has counted its blocks or come to the end of the input. -/
structure Complete (o : Options) (base : ℕ) (data : List Byte) (n : ℕ) (t : State) : Prop where
  copied : Copied o base data t
  read : t.totalIn = n
  out : t.out ≠ some .writeFailure
  counts : t.out = none ↔ o.count = n

/-- What becomes of a run that is to copy blocks which fit, or some which do not. -/
inductive Outcome (enough accepting fits : Prop) (complete failed : State → Prop) :
    Except Stop State → Prop
  | unfinished (short : ¬ enough) : Outcome _ _ _ _ _ (.error .unfinished)
  | complete {t : State} (fit : fits) (all : complete t) : Outcome _ _ _ _ _ (.ok t)
  | failed {t : State} (refused : ¬ accepting) (part : fits → failed t) : Outcome _ _ _ _ _ (.ok t)
  | fault (misfit : ¬ fits) : Outcome _ _ _ _ _ (.error .fault)

theorem Outcome.imp {enough enough' accepting fits fits' : Prop} {complete failed : State → Prop}
    {r : Except Stop State} (h : Outcome enough accepting fits complete failed r)
    (less : enough' → enough) (same : fits' ↔ fits) :
    Outcome enough' accepting fits' complete failed r := by
  cases h with
  | unfinished short => exact .unfinished (mt less short)
  | complete fit all => exact .complete (same.mpr fit) all
  | failed refused part => exact .failed refused fun fit => part (same.mp fit)
  | fault misfit => exact .fault (mt same.mp misfit)

/-- So many reads are left at most. -/
def Bounded (o : Options) (s : State) (k : ℕ) : Prop :=
  o.count < 0 ∧ s.segs.flatten.length ≤ k ∨ o.count = s.totalIn + k

/-- The test of the loop. -/
abbrev goesOn (o : Options) (s : State) : Bool :=
  s.out.isNone && (o.count == -1 || o.count != s.totalIn)

/-- The loop, with the fuel of the inner one apart. -/
abbrev copyLoop (o : Options) (input : Input) (dev : Device) (inner : ℕ) :
    ℕ → State → Except Stop State :=
  whileLoop (fun s => .ok (goesOn o s)) (copyBlock o input dev inner)

section Copy

variable {inner k : ℕ}

theorem goesOn_iff (going : s.out = none) : goesOn o s = true ↔ o.count ≠ s.totalIn := by
  rw [goesOn, going, Option.isNone_none, Bool.true_and, Bool.or_eq_true, beq_iff_eq, bne_iff_ne]
  omega

theorem copyLoop_turn (goes : goesOn o s = true) :
    copyLoop o input dev inner (fuel + 1) s =
      copyBlock o input dev inner s >>= copyLoop o input dev inner fuel := by
  apply whileLoop_turn
  rw [goes]

theorem copyLoop_end (ends : goesOn o s = false) :
    copyLoop o input dev inner (fuel + 1) s = .ok s := by
  apply whileLoop_end
  rw [ends]

/-- A loop that has been left does not go on. -/
theorem copyLoop_left (left : s.out ≠ none) :
    copyLoop o input dev inner (fuel + 1) s = .ok s := by
  apply copyLoop_end
  rw [goesOn, Bool.eq_false_iff.mpr fun none => left (Option.isNone_iff_eq_none.mp none),
    Bool.false_and]

/-- At the end of the input the loop is left in its next turn. -/
theorem copyLoop_ended {failed : State → Prop} (h : Copied o base data s) (going : s.out = none)
    (goes : goesOn o s) (ended : (read o.ibs s.segs).1 = []) :
    Outcome (2 ≤ fuel) (dev.Accepting o) True (Complete o base data s.totalIn) failed
      (copyLoop o input dev inner fuel s) := by
  rcases fuel with _ | fuel
  · exact .unfinished (by omega)
  · have body : copyBlock o input dev inner s =
        .ok { s with out := some (if input.broken then .readFailure else .endOfInput) } := by
      rw [copyBlock, ended]
      rfl
    rw [copyLoop_turn goes, body]
    -- One more turn is needed, for the test that ends the loop.
    show Outcome _ _ _ _ _ (copyLoop o input dev inner fuel _)
    rcases fuel with _ | fuel
    · exact .unfinished (by omega)
    · rw [copyLoop_left (Option.some_ne_none _)]
      refine .complete trivial ⟨⟨⟨h.holds.written⟩, h.short, h.even, h.counted⟩, rfl, ?_, ?_⟩
      · dsimp only
        split
        · decide
        · decide
      · exact iff_of_false (Option.some_ne_none _) ((goesOn_iff going).mp goes)

/-- The loop copies the blocks that are left. -/
theorem copyLoop_outcome (obs : 0 < o.obs) (h : Copied o base data s) (going : s.out = none)
    (proper : Proper s.segs) (bound : Bounded o s k) :
    Outcome ((data ++ (reads o.ibs k s.segs).flatten).length < inner ∧
        (reads o.ibs k s.segs).length + 2 ≤ fuel)
      (dev.Accepting o) (AllFit o data.length (reads o.ibs k s.segs))
      (Complete o base (data ++ (reads o.ibs k s.segs).flatten)
        (s.totalIn + (reads o.ibs k s.segs).length))
      (Failed base (convert o (data ++ (reads o.ibs k s.segs).flatten)))
      (copyLoop o input dev inner fuel s) := by
  -- The induction is on the reads that are left.  Without a count the input bounds them.
  induction k generalizing data s fuel with
  | zero =>
      rw [reads, List.flatten_nil, List.append_nil]
      rcases bound with ⟨negative, few⟩ | count
      · have none := proper.eq_nil (List.eq_nil_of_length_eq_zero (Nat.le_zero.mp few))
        have goes : goesOn o s = true := (goesOn_iff going).mpr (by omega)
        refine (copyLoop_ended h going goes (by rw [none]; rfl)).imp ?_ Iff.rfl
        exact fun enough => enough.2
      · rcases fuel with _ | fuel
        · exact .unfinished fun enough => by simpa using enough.2
        · have ends : goesOn o s = false := by
            rw [Bool.eq_false_iff, ne_eq, goesOn_iff going]
            exact not_not_intro count
          rw [copyLoop_end ends]
          have out : s.out ≠ some .writeFailure := by
            rw [going]
            exact (Option.some_ne_none _).symm
          exact .complete trivial ⟨h, rfl, out, iff_of_true going count⟩
  | succ k ih =>
      have goes : goesOn o s = true := (goesOn_iff going).mpr (by
        rcases bound with ⟨negative, -⟩ | count
        · omega
        · omega)
      rw [reads]
      by_cases ended : (read o.ibs s.segs).1 = []
      · rw [ended]
        simp only [List.isEmpty_nil, if_true, List.flatten_nil, List.append_nil]
        exact (copyLoop_ended h going goes ended).imp (fun enough => enough.2) Iff.rfl
      have advances := read_advances o.ibs s.segs
      have most := advances.flatten
      rw [if_neg (by rwa [List.isEmpty_iff]), List.flatten_cons, ← List.append_assoc,
        List.length_cons, AllFit]
      rcases fuel with _ | fuel
      · exact .unfinished fun enough => by simpa using enough.2
      rw [copyLoop_turn goes]
      by_cases fits : Fits o data.length (read o.ibs s.segs).1
      · have some := List.length_pos_of_ne_nil ended
        have length := congrArg List.length most
        rw [List.length_append] at length
        have block : Ends _ (copyBlock o input dev inner s) _ :=
          copyBlock_ends h going obs ended fits
        obtain ⟨t, ran, segs, total, ⟨going', copied⟩ | ⟨refused, failed⟩⟩ | ⟨unfinished, short⟩ :=
          block
        · -- the block is copied
          have proper' : Proper t.segs := segs ▸ advances.proper proper
          have bound' : Bounded o t k := by
            rw [Bounded, segs, total]
            rcases bound with ⟨negative, few⟩ | count
            · exact .inl ⟨negative, by omega⟩
            · exact .inr (by omega)
          have later := @ih fuel _ _ copied going' proper' bound'
          rw [segs, total, Nat.add_assoc, Nat.add_comm 1] at later
          rw [ran]
          refine later.imp (fun enough => ⟨enough.1, by omega⟩) ?_
          rw [List.length_append]
          exact and_iff_right fits
        · -- a write has failed
          rw [ran]
          show Outcome _ _ _ _ _ (copyLoop o input dev inner fuel t)
          rcases fuel with _ | fuel
          · exact .unfinished (by omega)
          rw [copyLoop_left (by rw [failed.out]; exact Option.some_ne_none _)]
          refine .failed refused fun _ => failed.append (fun swap => ?_) _
          have := h.even swap
          have := fits.2 swap
          rw [List.length_append]
          omega
        · rw [unfinished]
          refine .unfinished fun enough => short ?_
          rw [List.length_append] at enough
          omega
      · rw [copyBlock_fault h ended fits]
        exact .fault fun all => fits all.1

end Copy

/-! ## The whole program -/

theorem skipBlocks_proper {k : ℕ} {segs rest : List (List Byte)} (proper : Proper segs)
    (skipped : skipBlocks o k segs = .ok rest) : Proper rest := by
  induction k generalizing segs with
  | zero =>
      cases skipped
      exact proper
  | succ k ih =>
      rw [skipBlocks] at skipped
      split at skipped
      · cases skipped
      · exact ih ((read_advances o.ibs segs).proper proper) skipped

theorem skipInput_proper {rest : List (List Byte)} (proper : Proper input.segs)
    (skipped : skipInput o input = .ok rest) : Proper rest := by
  unfold skipInput at skipped
  split at skipped
  · cases skipped
    exact proper
  split at skipped
  · cases skipped
    split
    · exact fun seg none => absurd none List.not_mem_nil
    · rename_i some
      intro seg mem
      rw [List.mem_singleton.mp mem]
      exact mt List.isEmpty_iff.mpr some
  · exact skipBlocks_proper proper skipped

/-- The front of what is to be written is.  Where `main` returns 0, it is all but part of a
block. -/
structure Front (o : Options) (cs : List (List Byte)) (r : ℤ × State) : Prop where
  written : ∃ w, r.2.file = image (o.iseek * o.obs) w ∧ w <+: convert o cs.flatten ∧
    r.2.bytesOut = w.length ∧ (r.1 = 0 → cs.flatten.length < w.length + o.obs)

/-- What is printed, where it can be. -/
def reported (o : Options) (s : State) : List String :=
  [(s.out.map Out.message).getD "", recordsLine s.bytesIn o.ibs "in",
    recordsLine s.bytesOut o.obs "out"]

theorem report_eq (obs : 0 < o.obs) (s : State) :
    report o s = if o.ibs = 0 then .error .fault else .ok (reported o s) := by
  unfold report records
  by_cases ibs : o.ibs = 0
  · rw [if_pos ibs, if_pos ibs]
    rfl
  · rw [if_neg ibs, if_neg ibs, if_neg (Nat.ne_of_gt obs)]
    rfl

/-- What is done behind the loop. -/
abbrev finish (o : Options) (dev : Device) (s : State) : ℤ × State :=
  (if (writeRest o dev s).out = none then 0 else -1,
    { writeRest o dev s with printed := reported o (writeRest o dev s) })

/-- After a write has failed nothing more is written. -/
theorem Failed.writeRest_eq (h : Failed base data s) (o : Options) (dev : Device) :
    writeRest o dev s = s := by
  rw [writeRest, h.out]
  rfl

theorem Complete.writeRest_eq {cs : List (List Byte)}
    (h : Complete o (o.iseek * o.obs) cs.flatten cs.length s) (dev : Device) :
    ∃ w k, k ≤ s.buf.length ∧ w ++ s.buf = convert o cs.flatten ∧
      (writeRest o dev s).file = image (o.iseek * o.obs) (w ++ s.buf.take k) ∧
      (writeRest o dev s).bytesOut = (w ++ s.buf.take k).length ∧
      SameInput s (writeRest o dev s) ∧ (writeRest o dev s).out = s.out ∧
      (dev.Accepting o → k = s.buf.length) := by
  obtain ⟨w, file, split, -, counted⟩ := h.copied.holds.written
  by_cases none : s.buf = []
  · have same : writeRest o dev s = s := by
      have rest : ¬ (s.out != some .writeFailure && !s.buf.isEmpty) = true := by
        rw [none, List.isEmpty_nil, Bool.not_true, Bool.and_false]
        exact Bool.false_ne_true
      exact if_neg rest
    refine ⟨w, 0, Nat.zero_le _, split, ?_⟩
    rw [same, List.take_zero, List.append_nil]
    exact ⟨file, counted, ⟨rfl, rfl, rfl⟩, rfl, fun _ => by rw [none]; rfl⟩
  · obtain ⟨k, most, wrote, all⟩ := writeCounted_eq o dev file none
    have rest : (s.out != some .writeFailure && !s.buf.isEmpty) = true := by
      rw [bne_iff_ne.mpr h.out, Bool.true_and, Bool.not_eq_true', List.isEmpty_eq_false_iff]
      exact none
    refine ⟨w, k, most, split, ?_⟩
    rw [writeRest, if_pos rest, wrote]
    refine ⟨rfl, ?_, ⟨rfl, rfl, rfl⟩, rfl,
      fun accepting => all accepting (Nat.le_of_lt h.copied.short)⟩
    rw [List.length_append, List.length_take_of_le most]
    exact congrArg (· + k) counted

section Main

variable {segs : List (List Byte)} (obs : 0 < o.obs) (proper : Proper input.segs)
  (skipped : skipInput o input = .ok segs) (granted : dev.granted = true)

include obs skipped granted in
/-- What becomes of `main` after the loop. -/
theorem main_eq (even : o.bswap → o.ibs % 2 = 0) (room : o.ibs ≠ o.obs → o.ibs + o.obs < 2 ^ 31)
    (fuel : ℕ) : main o input dev fuel =
      (copy o input dev fuel { segs := segs, file := OpenFile.seek {} (o.iseek * o.obs) }).bind
        fun s => if o.ibs = 0 then .error .fault else .ok (finish o dev s) := by
  have odd : ¬ (o.bswap ∧ o.ibs % 2 = 1) := fun ⟨swap, odd⟩ => by
    rw [even swap] at odd
    cases odd
  have sum : ¬ (o.ibs ≠ o.obs ∧ 2 ^ 31 ≤ o.ibs + o.obs) := fun ⟨differ, large⟩ =>
    Nat.not_lt.mpr large (room differ)
  have there : ¬ (!dev.granted) = true := by
    rw [granted]
    exact Bool.false_ne_true
  rw [main, if_neg odd, if_neg sum, if_neg there, skipped]
  show (copy o input dev fuel _).bind _ = _
  congr 1
  funext s
  show (report o (writeRest o dev s)).bind _ = _
  rw [report_eq obs]
  split
  · rfl
  · rfl

include obs proper skipped

theorem copy_outcome (dev : Device) (fuel : ℕ) :
    Outcome ((blocks o segs).flatten.length + 2 ≤ fuel) (dev.Accepting o)
      (AllFit o 0 (blocks o segs))
      (Complete o (o.iseek * o.obs) (blocks o segs).flatten (blocks o segs).length)
      (Failed (o.iseek * o.obs) (convert o (blocks o segs).flatten))
      (copy o input dev fuel { segs := segs, file := OpenFile.seek {} (o.iseek * o.obs) }) := by
  let s : State := { segs := segs, file := OpenFile.seek {} (o.iseek * o.obs) }
  have start : Copied o (o.iseek * o.obs) [] s := by
    refine ⟨⟨[], rfl, ?_, rfl, rfl⟩, obs, fun _ => rfl, rfl⟩
    unfold convert
    split <;> rfl
  have bound : Bounded o s (limit o segs) := by
    unfold Bounded limit
    split
    · rename_i negative
      exact .inl ⟨negative, Nat.le_refl _⟩
    · exact .inr (by show o.count = ((0 : ℕ) : ℤ) + _; omega)
  have outcome : Outcome _ _ _ _ _ (copyLoop o input dev fuel fuel s) :=
    copyLoop_outcome obs start rfl (skipInput_proper proper skipped) bound
  have count := length_reads_le o.ibs (limit o segs) segs
  rw [List.nil_append, show s.totalIn = 0 from rfl, Nat.zero_add] at outcome
  refine outcome.imp (fun enough => ⟨?_, (Nat.add_le_add_right count 2).trans enough⟩) Iff.rfl
  exact Nat.lt_of_lt_of_le (Nat.lt_add_of_pos_right Nat.two_pos) enough

include granted

/-- **The front of a copy.**  Whatever writes are refused, if the sizes can be used and the blocks
fit, the output is the front of what was to be written, and it is all but part of a block where
`main` returns 0. -/
theorem main_writes_front (usable : o.Usable) (fit : AllFit o 0 (blocks o segs)) :
    Ends ((blocks o segs).flatten.length + 2 ≤ fuel) (main o input dev fuel)
      (Front o (blocks o segs)) := by
  have result := main_eq obs skipped granted usable.even usable.room fuel
  have outcome := copy_outcome obs proper skipped dev fuel
  simp only [if_neg (Nat.ne_of_gt usable.some)] at result
  rw [result]
  generalize copy o input dev fuel _ = r at outcome
  cases outcome with
  | unfinished short => exact .inr ⟨rfl, short⟩
  | fault misfit => exact absurd fit misfit
  | failed _ part =>
      obtain ⟨out, w, file, front, counted⟩ := part fit
      refine .ok ?_
      rw [finish, (part fit).writeRest_eq, out]
      exact ⟨w, file, front, counted, fun zero => absurd (show (-1 : ℤ) = 0 from zero) (by decide)⟩
  | complete _ complete =>
      obtain ⟨w, k, most, split, file, counted, -, -, -⟩ := complete.writeRest_eq dev
      refine .ok ⟨_, file, ?_, counted, fun _ => ?_⟩
      · rw [← split]
        exact (List.prefix_append_right_inj w).mpr (List.take_prefix k _)
      · have length := congrArg List.length split
        have short := complete.copied.short
        rw [List.length_append, length_convert] at length
        rw [List.length_append, List.length_take_of_le most]
        omega

end Main

/-- An input that comes in pieces. -/
def pieces : Input := { segs := [[1, 2, 0], [0], [0, 6, 7]], seekable := false }

def swabOptions : Options := { ibs := 2, obs := 2, bswap := true }

def wholeFile : Input := { segs := [[1, 2, 3, 4, 5, 6]], seekable := true }

/-- The second block is refused. -/
theorem main_writes_front_refused :
    Ends True (main swabOptions wholeFile
        { accepts := fun i => if i = 1 then 1 else 2, truncates := fun _ => true } 20)
      (Front swabOptions [[1, 2], [3, 4], [5, 6]]) := by
  have proper : Proper wholeFile.segs := by decide
  have started : skipInput swabOptions wholeFile = .ok wholeFile.segs := rfl
  have fit : AllFit swabOptions 0 (blocks swabOptions wholeFile.segs) := by decide
  have fuelled : (blocks swabOptions wholeFile.segs).flatten.length + 2 ≤ 20 := by decide
  have usable : swabOptions.Usable := ⟨fun _ => rfl, nofun, by decide⟩
  exact (main_writes_front Nat.two_pos proper started rfl usable fit).of_imp fun _ => fuelled

/-- Two short reads into a buffer for one block. -/
example : main { ibs := 4, obs := 4 } { segs := [[1, 2, 3], [4, 5]], seekable := false }
    { accepts := fun _ => 4, truncates := fun _ => true } 20 = .error .fault := rfl

end Cjunk.Tdd
