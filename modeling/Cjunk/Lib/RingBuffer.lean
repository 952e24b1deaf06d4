import Mathlib.Data.Nat.ModEq
import Mathlib.Logic.Function.Basic

/-!
# Ring buffers and their cursors

A ring of `N` slots is addressed by cursors that count `0, 1, …, N - 1` and
wrap.  Code compares cursors with each other; proofs want the *unwrapped*
counters they stand for.  This file has both sides:

* `next`, `RightBehind`, `ahead` — what code computes on cursors: advance and
  wrap, the full test "right behind", and the distance modulo `N`;
* the bridge — for counters `r ≤ x < r + N` these are `x + 1`, `x + 1 = r + N`
  and `x - r` (`next_mod`, `rightBehind_mod_iff`, `ahead_mod`);
* `Holds N mem r xs` — the slots from counter `r` on hold the list `xs`, so a
  ring is a queue: `Holds.push`, `Holds.tail`, and `Holds.write_outside` for a
  slot that the queue does not use.
-/

namespace Cjunk.RingBuffer

universe u

variable {α : Type u} {N : ℕ}

/-- Advance a cursor: increment, then wrap from the last slot to slot `0`. -/
def next (N p : ℕ) : ℕ := if p + 1 = N then 0 else p + 1

/-- Cursor `p` is right behind cursor `q`: advancing `p` would make it meet `q`.
A writer reads this as "full". -/
def RightBehind (N p q : ℕ) : Prop := p + 1 = q ∨ p + 1 = N ∧ q = 0

instance (N p q : ℕ) : Decidable (RightBehind N p q) :=
  inferInstanceAs (Decidable (p + 1 = q ∨ p + 1 = N ∧ q = 0))

/-- How far cursor `q` is ahead of cursor `p`: `(q - p) mod N`. -/
def ahead (N p q : ℕ) : ℕ := (q + N - p) % N

/-! ## Cursors and the counters they stand for -/

/-- Counters less than one revolution apart are equal when their slots are. -/
theorem eq_of_mod_eq {r x y : ℕ} (hx : r ≤ x) (hxN : x < r + N) (hy : r ≤ y)
    (hyN : y < r + N) (h : x % N = y % N) : x = y := by
  wlog le : x ≤ y with symmetric
  · exact (symmetric hy hyN hx hxN h.symm (Nat.le_of_not_le le)).symm
  · have dvd : N ∣ y - x := (Nat.modEq_iff_dvd' le).mp h
    have zero : y - x = 0 := Nat.eq_zero_of_dvd_of_lt dvd (by omega)
    omega

theorem next_mod (hN : 0 < N) (x : ℕ) : next N (x % N) = (x + 1) % N := by
  have lt : x % N < N := Nat.mod_lt x hN
  have key : (x + 1) % N = (x % N + 1) % N := (Nat.mod_add_mod x N 1).symm
  unfold next
  split
  · rename_i wrap
    rw [key, wrap, Nat.mod_self]
  · rename_i noWrap
    have small : x % N + 1 < N := by omega
    exact (Nat.mod_eq_of_lt small).symm.trans key.symm

theorem rightBehind_mod_iff (hN : 0 < N) {r x : ℕ} (hx : r ≤ x) (hxN : x < r + N) :
    RightBehind N (x % N) (r % N) ↔ x + 1 = r + N := by
  have lt : x % N < N := Nat.mod_lt x hN
  have rlt : r % N < N := Nat.mod_lt r hN
  have meets : RightBehind N (x % N) (r % N) ↔ next N (x % N) = r % N := by
    unfold RightBehind next
    split <;> omega
  rw [meets, next_mod hN]
  constructor
  · intro h
    -- one revolution from `r` is the only counter above `x` with `r`'s slot
    have same : (x + 1) % N = (r + N) % N := by rw [h, Nat.add_mod_right]
    exact eq_of_mod_eq (r := r + 1) (by omega) (by omega) (by omega) (by omega) same
  · intro h
    rw [h, Nat.add_mod_right]

theorem ahead_mod (hN : 0 < N) {r x : ℕ} (hx : r ≤ x) (hxN : x < r + N) :
    ahead N (r % N) (x % N) = x - r := by
  have lt : r % N < N := Nat.mod_lt r hN
  unfold ahead
  have same : (x % N + N - r % N) % N = (x - r) % N := by
    have whole : (x % N + N - r % N) + r ≡ (x - r) + r [MOD N] := by
      have left : (x % N + N - r % N) + r = x % N + N * (r / N + 1) := by
        have := Nat.mod_add_div r N
        rw [Nat.mul_add, Nat.mul_one]
        omega
      rw [left, Nat.sub_add_cancel hx]
      exact (Nat.add_mul_mod_self_left _ _ _).trans (Nat.mod_mod x N)
    exact Nat.ModEq.add_right_cancel' r whole
  rw [same, Nat.mod_eq_of_lt (by omega)]

/-! ## A ring is a queue -/

/-- The slots from counter `r` on hold the elements of `xs`, in order. -/
def Holds (N : ℕ) (mem : ℕ → α) (r : ℕ) (xs : List α) : Prop :=
  ∀ j (h : j < xs.length), mem ((r + j) % N) = xs[j]

@[simp] theorem holds_nil (mem : ℕ → α) (r : ℕ) : Holds N mem r [] := by
  intro j h
  simp at h

/-- A slot outside the queue can be written without disturbing it. -/
theorem Holds.write_outside {mem mem' : ℕ → α} {r i : ℕ} {xs : List α}
    (h : Holds N mem r xs) (hN : 0 < N) (low : r + xs.length ≤ i) (high : i < r + N)
    (same : ∀ p < N, p ≠ i % N → mem' p = mem p) : Holds N mem' r xs := by
  intro j hj
  rw [same _ (Nat.mod_lt _ hN), h j hj]
  intro clash
  have := eq_of_mod_eq (r := r) (by omega) (by omega) (by omega) high clash
  omega

/-- The element written behind the last one is queued. -/
theorem Holds.push {mem mem' : ℕ → α} {r : ℕ} {xs : List α} {x : α}
    (h : Holds N mem r xs) (hN : 0 < N) (room : xs.length < N)
    (same : ∀ p < N, p ≠ (r + xs.length) % N → mem' p = mem p)
    (written : mem' ((r + xs.length) % N) = x) : Holds N mem' r (xs ++ [x]) := by
  have old := h.write_outside hN le_rfl (by omega) same
  intro j hj
  rw [List.length_append, List.length_singleton] at hj
  rcases Nat.lt_or_ge j xs.length with inside | last
  · rw [List.getElem_append_left inside]
    exact old j inside
  · obtain rfl : j = xs.length := by omega
    simpa using written

/-- What is queued behind `xs` is in the slots behind those of `xs`. -/
theorem Holds.right {mem : ℕ → α} {r : ℕ} {xs ys : List α} (h : Holds N mem r (xs ++ ys)) :
    Holds N mem (r + xs.length) ys := by
  intro j hj
  have step := h (xs.length + j) (by rw [List.length_append]; omega)
  rw [List.getElem_append_right (Nat.le_add_right _ _), ← Nat.add_assoc] at step
  simpa using step

/-- The oldest element is in the slot of `r`, and the rest is queued behind it. -/
theorem Holds.tail {mem : ℕ → α} {r : ℕ} {x : α} {xs : List α}
    (h : Holds N mem r (x :: xs)) : mem (r % N) = x ∧ Holds N mem (r + 1) xs := by
  refine ⟨h 0 (by simp), fun j hj => ?_⟩
  have step : mem ((r + (j + 1)) % N) = xs[j] := h (j + 1) (by simpa using hj)
  rwa [Nat.add_comm j 1, ← Nat.add_assoc] at step

end Cjunk.RingBuffer
