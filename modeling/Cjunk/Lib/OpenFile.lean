import Mathlib.Data.List.Basic
import Mathlib.Data.Nat.Notation

/-!
# An open file

The contents of a file and the offset at which it is written.  What is written past the end leaves
zeros between, and so does a truncation to more than there is: a file may have a hole.

`truncate_seek_eq_write` is what programs make use of that write sparse files: zeros at the end of a
file need not be written.  `image base data` is the file that a program has after it went to `base`
in an empty file and wrote `data`, in whatever pieces (`write_image`).
-/

namespace Cjunk

universe u

structure OpenFile (α : Type u) where
  contents : List α := []
  offset : ℕ := 0
  deriving DecidableEq

namespace OpenFile

variable {α : Type u} [Zero α]

/-- As much of a list as that, or zeros behind it. -/
def resize (n : ℕ) (xs : List α) : List α := xs.take n ++ List.replicate (n - xs.length) 0

/-- `write`; writing nothing does not extend the file. -/
def write (f : OpenFile α) (data : List α) : OpenFile α where
  contents :=
    if data.isEmpty then f.contents
    else resize f.offset f.contents ++ data ++ f.contents.drop (f.offset + data.length)
  offset := f.offset + data.length

/-- `ftruncate`, which leaves the offset alone. -/
def truncate (f : OpenFile α) (n : ℕ) : OpenFile α := { f with contents := resize n f.contents }

/-- `lseek` with `SEEK_SET`. -/
def seek (f : OpenFile α) (n : ℕ) : OpenFile α := { f with offset := n }

/-- The file with `data` from `base` on. -/
def image (base : ℕ) (data : List α) : OpenFile α where
  contents := if data.isEmpty then [] else List.replicate base 0 ++ data
  offset := base + data.length

theorem resize_of_length_le {n : ℕ} {xs : List α} (short : xs.length ≤ n) :
    resize n xs = xs ++ List.replicate (n - xs.length) 0 := by
  rw [resize, List.take_of_length_le short]

@[simp] theorem write_nil (f : OpenFile α) : f.write [] = f := rfl

/-- Zeros behind the end of a file need not be written. -/
theorem truncate_seek_eq_write {f : OpenFile α} {data : List α}
    (ends : f.contents.length ≤ f.offset) (zeros : ∀ x ∈ data, x = 0) (some : data ≠ []) :
    (f.truncate (f.offset + data.length)).seek (f.offset + data.length) = f.write data := by
  have data_eq : data = List.replicate data.length 0 := List.eq_replicate_iff.mpr ⟨rfl, zeros⟩
  have length : f.offset + data.length - f.contents.length =
      (f.offset - f.contents.length) + data.length := by omega
  rw [truncate, seek, write, if_neg (by rwa [List.isEmpty_iff]), resize_of_length_le ends,
    resize_of_length_le (by omega), List.drop_eq_nil_of_le (by omega), length,
    ← List.replicate_append_replicate, ← data_eq, List.append_nil, List.append_assoc]

theorem length_image_le (base : ℕ) (data : List α) :
    (image base data).contents.length ≤ (image base data).offset := by
  rw [image]
  split
  · exact Nat.zero_le _
  · exact Nat.le_of_eq (by rw [List.length_append, List.length_replicate])

/-- A file is written in pieces as in one go. -/
theorem write_image (base : ℕ) (data more : List α) :
    (image base data).write more = image base (data ++ more) := by
  by_cases none : more = []
  · rw [none, write_nil, List.append_nil]
  · have ends := length_image_le base data
    have all : data ++ more ≠ [] := List.append_ne_nil_of_right_ne_nil data none
    have offset : (image base data).offset = base + data.length := rfl
    have front : resize (base + data.length) (image base data).contents =
        List.replicate base 0 ++ data := by
      rw [offset] at ends
      rw [resize_of_length_le ends, image]
      dsimp only
      split
      · rename_i empty
        rw [List.isEmpty_iff.mp empty]
        simp
      · simp
    rw [write, offset, if_neg (by rwa [List.isEmpty_iff]), front,
      List.drop_eq_nil_of_le (by rw [← offset]; omega), image, if_neg (by rwa [List.isEmpty_iff]),
      List.length_append, List.append_nil, List.append_assoc, Nat.add_assoc]

end OpenFile

end Cjunk
