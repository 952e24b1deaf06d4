import Mathlib.Data.Nat.Notation

/-!
# Machine words and their bits

The unsigned integers of C at their fixed widths, and `bit n`, the mask
`1 << n` that code sets, clears and tests registers with.  With
`getLsbD_bit` in the simp set, a bit of a read-modify-write
`(v | set) & ~clear` is computed by `simp`.
-/

namespace Cjunk

/-- `unsigned char`. -/
abbrev U8 := BitVec 8

/-- `unsigned short`. -/
abbrev U16 := BitVec 16

/-- `unsigned int`. -/
abbrev U32 := BitVec 32

namespace Words

variable {w : ℕ}

/-- The word with only bit `n` set: `1 << n`. -/
def bit (n : ℕ) : BitVec w := 1#w <<< n

@[simp] theorem getLsbD_bit (n i : ℕ) :
    (bit n : BitVec w).getLsbD i = (decide (i < w) && decide (i = n)) := by
  unfold bit
  rw [BitVec.getLsbD_shiftLeft]
  by_cases below : i < w
  · by_cases same : i = n
    · subst same
      simp [below]
      omega
    · by_cases lt : i < n
      · simp [lt, same]
      · have : i - n ≠ 0 := by omega
        simp [below, same, lt, BitVec.getLsbD_one, this]
  · simp [below]

@[simp] theorem getElem_bit (n i : ℕ) (h : i < w) :
    (bit n : BitVec w)[i] = decide (i = n) := by
  rw [← BitVec.getLsbD_eq_getElem, getLsbD_bit]
  simp [h]

end Words

end Cjunk
