import Mathlib.Data.Int.Notation
import Mathlib.Data.List.Basic
import Mathlib.Data.List.Induction
import Mathlib.Data.List.Pairwise
import Mathlib.Data.List.Perm.Basic
import Mathlib.Data.Tree.Basic

/-!
# Binary search trees

Trees of values that are searched for their keys, with a comparison function as `qsort` takes one.
A value whose key compares as equal to that of one that is there is not put in.

`find_ofList` says that a search finds in the tree of a list what a search of the list finds.
-/

namespace Cjunk.SearchTree

open BinaryTree

variable {κ α : Type}

/-- A comparison function. -/
structure Compare (κ : Type) where
  cmp : κ → κ → ℤ
  swap : ∀ a b, 0 < cmp a b ↔ cmp b a < 0
  trans : ∀ {a b c}, cmp a b ≤ 0 → cmp b c ≤ 0 → cmp a c ≤ 0

namespace Compare

variable (c : Compare κ) {a b x : κ}

theorem symm (h : c.cmp a b = 0) : c.cmp b a = 0 := by
  have := c.swap a b
  have := c.swap b a
  omega

theorem lt_of_le_of_lt (h : c.cmp a b ≤ 0) (h' : c.cmp b x < 0) : c.cmp a x < 0 := by
  by_contra more
  have back : c.cmp x a ≤ 0 := by
    have := c.swap x a
    omega
  have := c.trans back h
  have := c.swap x b
  omega

theorem eq_of_eq (h : c.cmp x a = 0) (h' : c.cmp x b = 0) : c.cmp a b = 0 := by
  have := c.trans (Int.le_of_eq (c.symm h)) (Int.le_of_eq h')
  have := c.trans (Int.le_of_eq (c.symm h')) (Int.le_of_eq h)
  have := c.swap b a
  omega

end Compare

/-! ## Trees -/

/-- The values, those of a node before those of its subtrees. -/
def preorder : BinaryTree α → List α
  | nil => []
  | node a l r => a :: (preorder l ++ preorder r)

variable (c : Compare κ) (key : α → κ)

/-- A value is put in, if there is none that compares as equal. -/
def insert (x : α) : BinaryTree α → BinaryTree α
  | nil => node x nil nil
  | node a l r =>
      if c.cmp (key x) (key a) = 0 then node a l r
      else if 0 < c.cmp (key x) (key a) then node a l (insert x r)
      else node a (insert x l) r

/-- The value with a key that compares as equal. -/
def find (k : κ) : BinaryTree α → Option α
  | nil => none
  | node a l r =>
      if c.cmp k (key a) = 0 then some a
      else if 0 < c.cmp k (key a) then find k r
      else find k l

/-- What is left of a node is less, and what is right of it is more. -/
def Ordered : BinaryTree α → Prop
  | nil => True
  | node a l r =>
      (∀ b ∈ preorder l, c.cmp (key b) (key a) < 0) ∧
        (∀ b ∈ preorder r, 0 < c.cmp (key b) (key a)) ∧ Ordered l ∧ Ordered r

variable {c key} {k : κ} {x : α} {t : BinaryTree α}

theorem length_preorder (t : BinaryTree α) : (preorder t).length = t.numNodes := by
  induction t with
  | nil => rfl
  | node a l r ihl ihr =>
      rw [preorder, List.length_cons, List.length_append, ihl, ihr, numNodes]

/-- A search goes the way of the value. -/
theorem Ordered.find_eq (h : Ordered c key t) (k : κ) :
    find c key k t = (preorder t).find? fun a => c.cmp k (key a) = 0 := by
  induction t with
  | nil => rfl
  | node a l r ihl ihr =>
      obtain ⟨less, more, left, right⟩ := h
      rw [find, preorder, List.find?_cons]
      by_cases here : c.cmp k (key a) = 0
      · rw [if_pos here, decide_eq_true here]
      · rw [if_neg here, decide_eq_false here, List.find?_append]
        by_cases up : 0 < c.cmp k (key a)
        · have misses : (preorder l).find? (fun b => decide (c.cmp k (key b) = 0)) = none := by
            refine List.find?_eq_none.mpr fun b mem same => ?_
            have same : c.cmp k (key b) = 0 := of_decide_eq_true same
            have := c.lt_of_le_of_lt (Int.le_of_eq same) (less b mem)
            omega
          rw [if_pos up, ihr right, misses, Option.none_or]
        · have misses : (preorder r).find? (fun b => decide (c.cmp k (key b) = 0)) = none := by
            refine List.find?_eq_none.mpr fun b mem same => ?_
            have same : c.cmp k (key b) = 0 := of_decide_eq_true same
            have := c.trans (Int.le_of_eq (c.symm same)) (Int.not_lt.mp up)
            have := more b mem
            omega
          rw [if_neg up, ihl left, misses, Option.or_none]

/-- A value that compares as equal to one that is there is not put in. -/
theorem insert_of_find (found : (find c key (key x) t).isSome) : insert c key x t = t := by
  induction t with
  | nil => cases found
  | node a l r ihl ihr =>
      rw [find] at found
      rw [insert]
      split
      · rfl
      · rename_i other
        rw [if_neg other] at found
        split
        · rename_i up
          rw [if_pos up] at found
          rw [ihr found]
        · rename_i up
          rw [if_neg up] at found
          rw [ihl found]

/-- Any other is one more. -/
theorem preorder_insert (absent : find c key (key x) t = none) :
    (preorder (insert c key x t)).Perm (preorder t ++ [x]) := by
  induction t with
  | nil => exact .refl _
  | node a l r ihl ihr =>
      rw [find] at absent
      rw [insert]
      split
      · rename_i here
        rw [if_pos here] at absent
        cases absent
      · rename_i other
        rw [if_neg other] at absent
        split
        · rename_i up
          rw [if_pos up] at absent
          simpa only [preorder, List.cons_append, List.append_assoc] using
            ((ihr absent).append_left (preorder l)).cons a
        · rename_i up
          rw [if_neg up] at absent
          have between :
              (preorder l ++ [x] ++ preorder r).Perm (preorder l ++ preorder r ++ [x]) := by
            rw [List.append_assoc, List.append_assoc]
            exact List.perm_append_comm.append_left (preorder l)
          exact (((ihl absent).append_right (preorder r)).trans between).cons a

theorem mem_preorder_insert {b : α} (mem : b ∈ preorder (insert c key x t)) :
    b = x ∨ b ∈ preorder t := by
  cases found : find c key (key x) t with
  | none =>
      have inside := (preorder_insert found).mem_iff.mp mem
      rw [List.mem_append, List.mem_singleton] at inside
      exact inside.symm
  | some y =>
      rw [insert_of_find (by rw [found]; rfl)] at mem
      exact .inr mem

theorem Ordered.insert (h : Ordered c key t) (x : α) : Ordered c key (insert c key x t) := by
  induction t with
  | nil => exact ⟨nofun, nofun, trivial, trivial⟩
  | node a l r ihl ihr =>
      obtain ⟨less, more, left, right⟩ := h
      rw [SearchTree.insert]
      split
      · exact ⟨less, more, left, right⟩
      · split
        · rename_i up
          refine ⟨less, fun b mem => ?_, left, ihr right⟩
          rcases mem_preorder_insert mem with rfl | old
          · exact up
          · exact more b old
        · rename_i other up
          refine ⟨fun b mem => ?_, more, ihl left, right⟩
          rcases mem_preorder_insert mem with rfl | old
          · omega
          · exact less b old

/-- No two values compare as equal. -/
theorem Ordered.pairwise (h : Ordered c key t) :
    (preorder t).Pairwise fun a b => c.cmp (key a) (key b) ≠ 0 := by
  induction t with
  | nil => exact .nil
  | node a l r ihl ihr =>
      obtain ⟨less, more, left, right⟩ := h
      refine List.pairwise_cons.mpr ⟨fun b mem same => ?_, List.pairwise_append.mpr
        ⟨ihl left, ihr right, fun b mem b' mem' same => ?_⟩⟩
      · rcases List.mem_append.mp mem with mem | mem
        · have := less b mem
          have := c.symm same
          omega
        · have := more b mem
          have := c.symm same
          omega
      · have := c.lt_of_le_of_lt (Int.le_of_eq (c.symm same)) (less b mem)
        have := more b' mem'
        omega

/-! ## Trees of lists -/

/-- The values of a list are put in, one after the other. -/
def ofList (c : Compare κ) (key : α → κ) (xs : List α) : BinaryTree α :=
  xs.foldl (fun t x => insert c key x t) nil

theorem ofList_append (xs : List α) : ofList c key (xs ++ [x]) = insert c key x (ofList c key xs) :=
  List.foldl_append

theorem ordered_ofList (xs : List α) : Ordered c key (ofList c key xs) := by
  induction xs using List.reverseRecOn with
  | nil => trivial
  | append_singleton xs x ih =>
      rw [ofList_append]
      exact ih.insert x

/-- A search of the tree finds what a search of the list finds. -/
theorem find_ofList {xs : List α} (perm : (preorder (ofList c key xs)).Perm xs) (k : κ) :
    find c key k (ofList c key xs) = xs.find? fun a => c.cmp k (key a) = 0 := by
  have ordered : Ordered c key (ofList c key xs) := ordered_ofList xs
  rw [ordered.find_eq]
  cases found : xs.find? fun a => c.cmp k (key a) = 0 with
  | none =>
      rw [List.find?_eq_none] at found ⊢
      exact fun a mem => found a (perm.mem_iff.mp mem)
  | some a =>
      have inside := perm.mem_iff.mpr (List.mem_of_find?_eq_some found)
      have same : c.cmp k (key a) = 0 := by simpa using List.find?_some found
      cases first : (preorder (ofList c key xs)).find? fun a => c.cmp k (key a) = 0 with
      | none => exact absurd (decide_eq_true same) (List.find?_eq_none.mp first a inside)
      | some b =>
          have same' : c.cmp k (key b) = 0 := by simpa using List.find?_some first
          have : Std.Symm fun a b => c.cmp (key a) (key b) ≠ 0 :=
            ⟨fun p q ne back => ne (c.symm back)⟩
          by_contra other
          exact ordered.pairwise.forall (List.mem_of_find?_eq_some first) inside
            (fun eq => other (by rw [eq])) (c.eq_of_eq same' same)

/-- A list of values no two of which compare as equal is in the tree as it is. -/
theorem perm_ofList_append {xs : List α} (perm : (preorder (ofList c key xs)).Perm xs)
    (absent : xs.find? (fun a => c.cmp (key x) (key a) = 0) = none) :
    (preorder (ofList c key (xs ++ [x]))).Perm (xs ++ [x]) := by
  rw [ofList_append]
  exact (preorder_insert (by rw [find_ofList perm, absent])).trans (perm.append_right [x])

end Cjunk.SearchTree
