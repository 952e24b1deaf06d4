import Mathlib.Data.List.Basic

/-!
# One pass of a merge sort from the bottom up

`mergePass le k xs` merges each run of `k` elements of `xs` with the run behind it, as
`List.merge` does.  It permutes the list, and where all runs of `k` elements are sorted it
leaves sorted runs of twice as many (`RunsSorted.mergePass`).

`Progress le k xs ys` says that passes over `xs` have come as far as `ys`.  When a single run is
left, it is `xs.mergeSort le` (`Progress.done`), so the sort is stable.
-/

namespace Cjunk.MergePass

universe u

variable {α : Type u} (le : α → α → Bool) {k : ℕ} {xs ys : List α}

/-- Each two neighbouring runs of `k` elements are merged. -/
def mergePass (k : ℕ) (xs : List α) : List α :=
  if k = 0 ∨ xs = [] then xs
  else List.merge (xs.take k) ((xs.drop k).take k) le ++ mergePass k (xs.drop (2 * k))
termination_by xs.length
decreasing_by
  rename_i more
  have := List.length_pos_of_ne_nil (not_or.mp more).2
  rw [List.length_drop]
  omega

/-- All runs of `k` elements are sorted. -/
def RunsSorted (k : ℕ) (xs : List α) : Prop :=
  ∀ j, ((xs.drop (k * j)).take k).Pairwise fun x y => le x y = true

theorem mergePass_nil (k : ℕ) : mergePass le k [] = [] := by
  rw [mergePass, if_pos (.inr rfl)]

/-- The first two runs; without elements in a run it is true for another reason. -/
theorem mergePass_eq (more : xs ≠ []) : mergePass le k xs =
    List.merge (xs.take k) ((xs.drop k).take k) le ++ mergePass le k (xs.drop (2 * k)) := by
  by_cases empty : k = 0
  · subst empty
    simp
  · rw [mergePass, if_neg (by simp [empty, more])]

/-- The first two runs of a list and what is behind them. -/
theorem take_append_runs (k : ℕ) (xs : List α) :
    xs.take k ++ (xs.drop k).take k ++ xs.drop (2 * k) = xs := by
  rw [Nat.two_mul, ← List.drop_drop, List.append_assoc, List.take_append_drop,
    List.take_append_drop]

theorem mergePass_perm (k : ℕ) (xs : List α) : (mergePass le k xs).Perm xs := by
  induction xs using mergePass.induct (k := k) with
  | case1 xs done => rw [mergePass, if_pos done]
  | case2 xs more ih =>
      rw [mergePass_eq le (not_or.mp more).2]
      calc (List.merge (xs.take k) ((xs.drop k).take k) le ++
              mergePass le k (xs.drop (2 * k))).Perm
            (xs.take k ++ (xs.drop k).take k ++ xs.drop (2 * k)) :=
              (List.merge_perm_append le).append ih
        _ = xs := take_append_runs k xs

theorem length_mergePass (k : ℕ) (xs : List α) : (mergePass le k xs).length = xs.length :=
  (mergePass_perm le k xs).length_eq

/-! ## Sorted runs -/

variable {le}

theorem runsSorted_one (xs : List α) : RunsSorted le 1 xs := by
  intro j
  cases xs.drop (1 * j) with
  | nil => exact List.Pairwise.nil
  | cons x xs => exact List.pairwise_singleton _ x

/-- A list of a single run. -/
theorem RunsSorted.pairwise (h : RunsSorted le k xs) (short : xs.length ≤ k) :
    xs.Pairwise fun x y => le x y = true := by
  have first := h 0
  rwa [Nat.mul_zero, List.drop_zero, List.take_of_length_le short] at first

theorem RunsSorted.drop (h : RunsSorted le k xs) (i : ℕ) : RunsSorted le k (xs.drop (k * i)) := by
  intro j
  rw [List.drop_drop, ← Nat.mul_add]
  exact h (i + j)

/-- A pass leaves sorted runs that are twice as long. -/
theorem RunsSorted.mergePass (trans : ∀ x y z, le x y = true → le y z = true → le x z = true)
    (total : ∀ x y, (le x y || le y x) = true) (positive : 0 < k) (h : RunsSorted le k xs) :
    RunsSorted le (2 * k) (mergePass le k xs) := by
  induction xs using mergePass.induct (k := k) with
  | case1 xs done =>
      obtain rfl := done.resolve_left (Nat.ne_of_gt positive)
      rw [mergePass_nil]
      intro j
      simp
  | case2 xs more ih =>
      have first : (List.merge (xs.take k) ((xs.drop k).take k) le).Pairwise
          fun x y => le x y = true := by
        refine List.pairwise_merge trans total _ _ ?_ ?_
        · simpa using h 0
        · simpa using h 1
      have rest : RunsSorted le k (xs.drop (2 * k)) := by
        rw [Nat.mul_comm]
        exact h.drop 2
      have length : (List.merge (xs.take k) ((xs.drop k).take k) le).length =
          min (2 * k) xs.length := by
        rw [List.length_merge, List.length_take, List.length_take, List.length_drop]
        omega
      rw [mergePass_eq le (not_or.mp more).2]
      intro j
      by_cases long : 2 * k ≤ xs.length
      · rw [Nat.min_eq_left long] at length
        cases j with
        | zero => rwa [Nat.mul_zero, List.drop_zero, List.take_left' length]
        | succ j =>
            have split : 2 * k * (j + 1) = 2 * k + 2 * k * j := by rw [Nat.mul_succ, Nat.add_comm]
            rw [split, ← List.drop_drop, List.drop_left' length]
            exact ih rest j
      · -- There is nothing behind the two runs.
        have behind : xs.drop (2 * k) = [] := List.drop_eq_nil_of_le (Nat.le_of_not_le long)
        rw [behind, mergePass_nil, List.append_nil]
        exact (first.sublist (List.drop_sublist _ _)).sublist (List.take_sublist _ _)

/-! ## Stability -/

/-- The first elements of a pass are those of the list, if they make whole pairs of runs. -/
theorem take_mergePass_perm (k i : ℕ) (xs : List α) :
    ((mergePass le k xs).take (2 * k * i)).Perm (xs.take (2 * k * i)) := by
  induction i generalizing xs with
  | zero => simp
  | succ i ih =>
      by_cases nil : xs = []
      · simp [nil, mergePass_nil]
      by_cases long : 2 * k ≤ xs.length
      · have length : (List.merge (xs.take k) ((xs.drop k).take k) le).length = 2 * k := by
          rw [List.length_merge, List.length_take, List.length_take, List.length_drop]
          omega
        have first : (List.merge (xs.take k) ((xs.drop k).take k) le).Perm
            (xs.take k ++ (xs.drop k).take k) := List.merge_perm_append le
        have split : (xs.take k ++ (xs.drop k).take k) = xs.take (2 * k) := by
          rw [Nat.two_mul, List.take_add]
        rw [mergePass_eq le nil, Nat.mul_succ, Nat.add_comm, List.take_add,
          List.take_left' length, List.drop_left' length, List.take_add]
        exact (split ▸ first).append (ih _)
      · have all : xs.length ≤ 2 * k * (i + 1) := by
          rw [Nat.mul_succ]
          omega
        rw [List.take_of_length_le (by rwa [length_mergePass]), List.take_of_length_le all]
        exact mergePass_perm le k xs

/-- What comes behind them is behind them in the list. -/
theorem drop_mergePass_perm (k i : ℕ) (xs : List α) :
    ((mergePass le k xs).drop (2 * k * i)).Perm (xs.drop (2 * k * i)) := by
  refine (List.perm_append_left_iff ((mergePass le k xs).take (2 * k * i))).mp ?_
  rw [List.take_append_drop]
  refine (mergePass_perm le k xs).trans ?_
  conv_lhs => rw [← List.take_append_drop (2 * k * i) xs]
  exact (take_mergePass_perm k i xs).symm.append_right _

/-- The elements of each run of `k` are numbered before those of the runs behind it. -/
def Numbered (k : ℕ) (zs : List (α × ℕ)) : Prop :=
  ∀ i, ∀ x ∈ zs.take (k * i), ∀ y ∈ zs.drop (k * i), x.2 ≤ y.2

theorem Numbered.drop {zs : List (α × ℕ)} (h : Numbered k zs) (i : ℕ) :
    Numbered k (zs.drop (k * i)) := by
  intro j x before y behind
  refine h (i + j) x ?_ y ?_
  · rw [Nat.mul_add, List.take_add]
    exact List.mem_append_right _ before
  · rwa [Nat.mul_add, ← List.drop_drop]

theorem Numbered.mergePass {zs : List (α × ℕ)} (h : Numbered k zs) (le : α × ℕ → α × ℕ → Bool) :
    Numbered (2 * k) (mergePass le k zs) := by
  intro i x before y behind
  refine h (2 * i) x ?_ y ?_
  · rw [Nat.mul_left_comm, ← Nat.mul_assoc]
    exact (take_mergePass_perm k i zs).mem_iff.mp before
  · rw [Nat.mul_left_comm, ← Nat.mul_assoc]
    exact (drop_mergePass_perm k i zs).mem_iff.mp behind

/-- Of equal elements a pass puts those first that have the smaller numbers. -/
theorem map_mergePass {zs : List (α × ℕ)} (h : Numbered k zs) :
    (mergePass (List.zipIdxLE le) k zs).map Prod.fst = mergePass le k (zs.map Prod.fst) := by
  induction zs using mergePass.induct (k := k) with
  | case1 zs done =>
      rw [mergePass, if_pos done, mergePass, if_pos (by simpa using done)]
  | case2 zs more ih =>
      have some_z := (not_or.mp more).2
      rw [mergePass_eq _ some_z, mergePass_eq le (by simpa using some_z), List.map_append,
        ih (by simpa [Nat.mul_comm] using h.drop 2), List.merge_stable]
      · simp only [List.map_take, List.map_drop]
      · intro x y first second
        exact h 1 x (by simpa using first) y (by simpa using List.mem_of_mem_take second)

/-- `ys` is `xs` after some passes, the last of which has left sorted runs of `k` elements. -/
def Progress (le : α → α → Bool) (k : ℕ) (xs ys : List α) : Prop :=
  ∃ zs : List (α × ℕ), zs.map Prod.fst = ys ∧ zs.Perm xs.zipIdx ∧
    RunsSorted (List.zipIdxLE le) k zs ∧ Numbered k zs

/-- The numbers of the elements grow. -/
theorem pairwise_zipIdx (xs : List α) : xs.zipIdx.Pairwise fun x y => x.2 < y.2 := by
  have numbers : (xs.zipIdx.map Prod.snd).Pairwise (· < ·) := by
    rw [List.zipIdx_map_snd]
    exact List.pairwise_lt_range'
  exact List.pairwise_map.mp numbers

theorem Progress.start (le : α → α → Bool) (xs : List α) : Progress le 1 xs xs := by
  refine ⟨xs.zipIdx, List.zipIdx_map_fst 0 xs, .refl _, runsSorted_one _, ?_⟩
  intro i x before y behind
  have split := pairwise_zipIdx xs
  rw [← List.take_append_drop (1 * i) xs.zipIdx, List.pairwise_append] at split
  exact Nat.le_of_lt (split.2.2 x before y behind)

section Order

variable (trans : ∀ x y z, le x y = true → le y z = true → le x z = true)
  (total : ∀ x y, (le x y || le y x) = true)
include trans total

/-- One more pass. -/
theorem Progress.pass (positive : 0 < k) (h : Progress le k xs ys) :
    Progress le (2 * k) xs (mergePass le k ys) := by
  obtain ⟨zs, rfl, perm, sorted, numbered⟩ := h
  exact ⟨mergePass (List.zipIdxLE le) k zs, map_mergePass numbered,
    (mergePass_perm _ k zs).trans perm,
    sorted.mergePass (List.zipIdxLE_trans trans) (List.zipIdxLE_total total) positive,
    numbered.mergePass _⟩

/-- When a single run is left, the list is sorted, and equal elements are in the order in which
they were. -/
theorem Progress.done (h : Progress le k xs ys) (short : ys.length ≤ k) :
    ys = xs.mergeSort le := by
  obtain ⟨zs, rfl, perm, sorted, -⟩ := h
  have ordered := sorted.pairwise (by simpa using short)
  have same : zs = xs.zipIdx.mergeSort (List.zipIdxLE le) := by
    refine List.Perm.eq_of_pairwise ?_ ordered
      (List.pairwise_mergeSort (List.zipIdxLE_trans trans) (List.zipIdxLE_total total) _)
      (perm.trans (List.mergeSort_perm _ _).symm)
    -- Elements that are on either side of each other have the same number.
    intro x y inside inside' xy yx
    have number : x.2 = y.2 := by
      simp only [List.zipIdxLE] at xy yx
      grind
    have place := List.mem_zipIdx_iff_getElem?.mp (perm.mem_iff.mp inside)
    have place' := List.mem_zipIdx_iff_getElem?.mp
      (List.mem_mergeSort.mp inside')
    rw [number, place', Option.some_inj] at place
    exact Prod.ext place.symm number
  rw [same, List.mergeSort_zipIdx]

end Order

end Cjunk.MergePass
