import Cjunk.Lib.Words

/-!
# The PLX 8311 driver: the frame rate of the proc file

`plx_read_procmem` computes the frames per second from the three registers of the frame
measurement timer, which it has read into `temp`, `temp1` and `temp2`.  A division by zero
is a fault in the kernel.

`framesPerSecond_isSome_iff` is the result: it divides by zero for two times of a frame, zero
although `temp` is not, and exactly one second.
-/

namespace Cjunk.Plx.Proc

/-- `a / b`, or a fault. -/
def divide (a b : U32) : Option U32 := if b = 0 then none else some (a / b)

theorem divide_zero (a : U32) : divide a 0 = none := if_pos rfl

theorem divide_of_ne {a b : U32} (ne : b ≠ 0) : divide a b = some (a / b) := if_neg ne

/-- The time of a frame in microseconds, as both divisors have it. -/
def frameTime (temp temp1 temp2 : U32) : U32 := temp * 65536 + temp1 * 256 + temp2

/-- "Compute Frames per millisecond": the line that is printed. -/
def framesPerSecond (temp temp1 temp2 : U32) : Option String :=
  if temp ≠ 0 then do
    let secs ← divide 1000000 (frameTime temp temp1 temp2)
    let _msecs ← divide 1000 (frameTime temp temp1 temp2 - secs * 1000000)
    some ("\napprox: " ++ toString secs.toNat ++ "frames/sec\n")
  else some ""

/-! ## The two divisors -/

/-- A product that wraps is never the number that it is computed from. -/
theorem wrapped_ne : ∀ d < 1000, 0 < d → 1000000 / d * 1000000 % 4294967296 ≠ d := by
  decide +kernel

/-- Of all times only a second is a whole number of times a second, as that is computed. -/
theorem whole_seconds_iff {d : ℕ} (positive : 0 < d) :
    1000000 / d * 1000000 % 4294967296 = d ↔ d = 1000000 := by
  constructor
  · intro whole
    by_cases short : d < 1000
    · exact absurd whole (wrapped_ne d short positive)
    have rate : 1000000 / d ≤ 1000 := by
      calc 1000000 / d ≤ 1000000 / 1000 := Nat.div_le_div_left (by omega) (by omega)
        _ = 1000 := rfl
    -- The product does not wrap, so the time is a multiple of a second.
    rw [Nat.mod_eq_of_lt (by omega)] at whole
    have one : 1000000 / d = 1 := by
      have least : 1000000 ≤ d := by omega
      have most : 1000000 / d ≤ 1 := by
        calc 1000000 / d ≤ 1000000 / 1000000 := Nat.div_le_div_left least (by omega)
          _ = 1 := rfl
      omega
    omega
  · rintro rfl
    rfl

/-- The second divisor is zero for one second only. -/
theorem rest_eq_zero_iff {time : U32} (positive : time ≠ 0) :
    time - 1000000 / time * 1000000 = 0 ↔ time = 1000000 := by
  have product : (1000000 / time * 1000000 : U32).toNat =
      1000000 / time.toNat * 1000000 % 4294967296 := by
    rw [BitVec.toNat_mul, BitVec.toNat_udiv]
    rfl
  have same : time - 1000000 / time * 1000000 = 0 ↔ time = 1000000 / time * 1000000 := by
    rw [BitVec.sub_eq_iff_eq_add]
    exact iff_of_eq (congrArg _ (BitVec.zero_add _))
  rw [same, ← BitVec.toNat_inj, ← BitVec.toNat_inj, product, eq_comm]
  exact whole_seconds_iff (by
    have : time.toNat ≠ 0 := fun zero => positive (BitVec.eq_of_toNat_eq zero)
    omega)

/-- **The frame rate.**  There is no fault exactly if `temp` is zero, so that nothing is
divided, or the time is neither zero nor a second. -/
theorem framesPerSecond_isSome_iff (temp temp1 temp2 : U32) :
    (framesPerSecond temp temp1 temp2).isSome ↔ temp = 0 ∨
      frameTime temp temp1 temp2 ≠ 0 ∧ frameTime temp temp1 temp2 ≠ 1000000 := by
  by_cases unused : temp = 0
  · simp [framesPerSecond, unused]
  unfold framesPerSecond
  rw [if_pos unused, or_iff_right unused]
  show ((divide 1000000 (frameTime temp temp1 temp2)).bind fun secs =>
    (divide 1000 (frameTime temp temp1 temp2 - secs * 1000000)).bind fun _ => some _).isSome ↔ _
  by_cases zero : frameTime temp temp1 temp2 = 0
  · rw [zero, divide_zero, Option.bind_none]
    exact iff_of_false Bool.false_ne_true fun both => both.1 rfl
  have rest := rest_eq_zero_iff zero
  rw [divide_of_ne zero, Option.bind_some]
  by_cases second : frameTime temp temp1 temp2 = 1000000
  · rw [rest.mpr second, divide_zero]
    simp [second]
  · rw [divide_of_ne (mt rest.mp second), Option.bind_some]
    exact ⟨fun _ => ⟨zero, second⟩, fun _ => rfl⟩

/-- A timer of exactly one second divides by zero. -/
theorem one_second_faults : ¬ ∀ temp temp1 temp2 : U32, temp ≠ 0 →
    (framesPerSecond temp temp1 temp2).isSome := by
  intro never
  have := never 15 66 64 (by decide)
  revert this
  decide

end Cjunk.Plx.Proc
