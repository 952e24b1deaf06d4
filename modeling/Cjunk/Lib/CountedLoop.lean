import Mathlib.Algebra.Order.Group.Nat
import Mathlib.Algebra.Ring.Nat

/-!
# Counted loops

`upTo n body` is `for (i = 0; i < n; i++)` on an explicit state, and
`forLoop lo hi step body` is `for (i = lo; i < hi; i += step)`.

A loop is understood through what its turns do to a part of the state, a `view`.
`upTo_view` is the general rule: if every turn acts on the view, whatever else it
changes, so does the loop; in `upTo_simulates` it acts so under an invariant.
`upTo_keeps` and `upTo_only` are its two special cases for loops over places: a view that
no turn touches, and a view that a single turn touches; `forLoop` has them too, also for
two loops one in the other.  `upTo_invariant` is the rule for everything else; the invariant
is indexed by the number of turns done.
-/

namespace Cjunk.CountedLoop

universe u v

variable {σ : Type u} {τ : Type v}

/-- `for (i = 0; i < n; i++) body` -/
def upTo (n : ℕ) (body : ℕ → σ → σ) (s : σ) : σ := n.fold (fun i _ => body i) s

/-- `for (i = lo; i < hi; i += step) body` -/
def forLoop (lo hi step : ℕ) (body : ℕ → σ → σ) : σ → σ :=
  upTo ((hi - lo + (step - 1)) / step) fun t => body (lo + step * t)

section Rules

variable {n : ℕ} {body : ℕ → σ → σ}

@[simp] theorem upTo_zero (body : ℕ → σ → σ) (s : σ) : upTo 0 body s = s := rfl

@[simp] theorem upTo_succ (n : ℕ) (body : ℕ → σ → σ) (s : σ) :
    upTo (n + 1) body s = body n (upTo n body s) := rfl

/-- What holds at the start, and after each turn if it holds before it. -/
theorem upTo_invariant (I : ℕ → σ → Prop) {s : σ} (start : I 0 s)
    (turn : ∀ i < n, ∀ t, I i t → I (i + 1) (body i t)) : I n (upTo n body s) := by
  induction n with
  | zero => exact start
  | succ n ih =>
      have before : I n (upTo n body s) := ih fun i below => turn i (by omega)
      exact turn n n.lt_succ_self _ before

/-- If turn `i` acts on the view as `act i`, so does the loop. -/
theorem upTo_view (view : σ → τ) {act : ℕ → τ → τ}
    (turn : ∀ i < n, ∀ s, view (body i s) = act i (view s)) (s : σ) :
    view (upTo n body s) = upTo n act (view s) := by
  induction n with
  | zero => rfl
  | succ n ih =>
      rw [upTo_succ, upTo_succ, turn n n.lt_succ_self, ih fun i below => turn i (by omega)]

/-- The same where the turns act so under an invariant, which they keep. -/
theorem upTo_simulates (view : σ → τ) {act : ℕ → τ → τ} (I : ℕ → σ → Prop) {s : σ} (start : I 0 s)
    (turn : ∀ i < n, ∀ t, I i t → I (i + 1) (body i t) ∧ view (body i t) = act i (view t)) :
    I n (upTo n body s) ∧ view (upTo n body s) = upTo n act (view s) := by
  apply upTo_invariant (fun i t => I i t ∧ view t = upTo i act (view s)) ⟨start, rfl⟩
  rintro i below t ⟨inv, same⟩
  obtain ⟨next, acts⟩ := turn i below t inv
  exact ⟨next, by rw [acts, same, upTo_succ]⟩

/-- A view that no turn changes. -/
theorem upTo_keeps (view : σ → τ) (turn : ∀ i < n, ∀ s, view (body i s) = view s) (s : σ) :
    view (upTo n body s) = view s :=
  upTo_invariant (fun _ t => view t = view s) rfl fun i below t same => (turn i below t).trans same

/-- A view that turn `i` alone changes. -/
theorem upTo_only (view : σ → τ) {f : τ → τ} {i : ℕ} (below : i < n)
    (turn : ∀ s, view (body i s) = f (view s))
    (others : ∀ j < n, j ≠ i → ∀ s, view (body j s) = view s) (s : σ) :
    view (upTo n body s) = f (view s) := by
  induction n with
  | zero => exact absurd below (Nat.not_lt_zero i)
  | succ n ih =>
      rw [upTo_succ]
      by_cases last : i = n
      · subst last
        rw [turn, upTo_keeps view fun j before => others j (by omega) (by omega)]
      · rw [others n n.lt_succ_self (Ne.symm last)]
        exact ih (by omega) fun j before => others j (by omega)

/-- A loop after a loop. -/
theorem upTo_add (m n : ℕ) (body : ℕ → σ → σ) (s : σ) :
    upTo (m + n) body s = upTo n (fun i => body (m + i)) (upTo m body s) := by
  induction n with
  | zero => rfl
  | succ n ih => rw [← add_assoc, upTo_succ, upTo_succ, ih]

end Rules

section ForLoop

/-- `i` is a value of the counter. -/
def IsTurn (lo hi step i : ℕ) : Prop := ∃ t, i = lo + step * t ∧ i < hi

variable {lo hi step i : ℕ} {body : ℕ → σ → σ}

theorem turn_lt_iff (positive : 0 < step) (t : ℕ) :
    t < (hi - lo + (step - 1)) / step ↔ lo + step * t < hi := by
  rw [Nat.lt_iff_add_one_le, Nat.le_div_iff_mul_le positive, add_mul, one_mul, mul_comm t]
  omega

/-- If turn `i` acts on the view as `f i`, so does the loop. -/
theorem forLoop_view (view : σ → τ) {f : ℕ → τ → τ}
    (turn : ∀ i s, view (body i s) = f i (view s)) (s : σ) :
    view (forLoop lo hi step body s) = forLoop lo hi step f (view s) :=
  upTo_view view (fun t _ => turn (lo + step * t)) s

/-- A view that no turn changes. -/
theorem forLoop_keeps (view : σ → τ)
    (turn : ∀ i, IsTurn lo hi step i → ∀ s, view (body i s) = view s) (s : σ) :
    view (forLoop lo hi step body s) = view s := by
  apply upTo_keeps
  intro t below
  apply turn
  rcases Nat.eq_zero_or_pos step with rfl | positive
  · simp at below
  · exact ⟨t, rfl, (turn_lt_iff positive t).mp below⟩

/-- A view that turn `i` alone changes. -/
theorem forLoop_only (view : σ → τ) {f : τ → τ} (positive : 0 < step)
    (isTurn : IsTurn lo hi step i) (turn : ∀ s, view (body i s) = f (view s))
    (others : ∀ j, IsTurn lo hi step j → j ≠ i → ∀ s, view (body j s) = view s) (s : σ) :
    view (forLoop lo hi step body s) = f (view s) := by
  obtain ⟨t, rfl, below⟩ := isTurn
  apply upTo_only view ((turn_lt_iff positive t).mpr below) turn
  intro u before ne
  have : step * u ≠ step * t := fun same => ne (Nat.eq_of_mul_eq_mul_left positive same)
  exact others _ ⟨u, rfl, (turn_lt_iff positive u).mp before⟩ (by omega)

/-- A loop over all blocks of a range. -/
theorem forLoop_blocks (positive : 0 < step) (m : ℕ) (s : σ) :
    forLoop 0 (step * m) step body s = upTo m (fun t => body (step * t)) s := by
  have turns : (step * m - 0 + (step - 1)) / step = m := by
    rw [Nat.sub_zero, Nat.mul_add_div positive, Nat.div_eq_of_lt (by omega), add_zero]
  unfold forLoop
  simp only [turns, zero_add]

/-- A loop that takes a range one by one. -/
theorem forLoop_one (n : ℕ) (s : σ) :
    forLoop lo (lo + n) 1 body s = upTo n (fun t => body (lo + t)) s := by
  unfold forLoop
  simp

end ForLoop

section Nested

variable {lo hi step lo' hi' step' i j : ℕ} {body : ℕ → ℕ → σ → σ}

/-- A view that no turn of two nested loops changes. -/
theorem nested_keeps (view : σ → τ)
    (turn : ∀ i j, IsTurn lo hi step i → IsTurn lo' hi' step' j →
      ∀ s, view (body i j s) = view s) (s : σ) :
    view (forLoop lo hi step (fun i => forLoop lo' hi' step' (body i)) s) = view s :=
  forLoop_keeps view (fun i outer => forLoop_keeps view fun j inner => turn i j outer inner) s

/-- A view that one turn of two nested loops changes. -/
theorem nested_only (view : σ → τ) {f : τ → τ} (positive : 0 < step) (positive' : 0 < step')
    (outer : IsTurn lo hi step i) (inner : IsTurn lo' hi' step' j)
    (turn : ∀ s, view (body i j s) = f (view s))
    (others : ∀ k l, IsTurn lo hi step k → IsTurn lo' hi' step' l → ¬ (k = i ∧ l = j) →
      ∀ s, view (body k l s) = view s) (s : σ) :
    view (forLoop lo hi step (fun i => forLoop lo' hi' step' (body i)) s) = f (view s) := by
  apply forLoop_only view positive outer
  · exact forLoop_only view positive' inner turn fun l isTurn ne =>
      others i l outer isTurn fun same => ne same.2
  · exact fun k isTurn ne => forLoop_keeps view fun l isTurn' =>
      others k l isTurn isTurn' fun same => ne same.1

end Nested

end Cjunk.CountedLoop
