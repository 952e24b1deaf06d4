import Mathlib.Data.List.Basic
import Mathlib.Data.List.Nodup
import Mathlib.Logic.Function.Basic

/-!
# Doubly linked lists

Nodes linked by two partial functions, `prev` and `next`: `Linked prev next xs` says that
the nodes `xs` form a list in this order, with no link before the first and after the
last.  It is stated by position: whichever way `xs` splits at a node, the node's `prev` is
the last node before it and its `next` the first node after it.

`Linked.unlink` takes a node out, in the way it is done in memory: the links of its
neighbours are changed and its own are left alone.  `Linked.pushFront` and
`Linked.pushBack` add a node.
-/

namespace Cjunk.LinkedList

universe u

variable {α : Type u} {prev next prev' next' : α → Option α} {xs pre post : List α} {x y : α}

/-- The nodes `xs` are linked, in this order. -/
def Linked (prev next : α → Option α) (xs : List α) : Prop :=
  ∀ pre x post, xs = pre ++ x :: post → prev x = pre.getLast? ∧ next x = post.head?

theorem Linked.nil : Linked prev next [] := by
  intro pre x post split
  cases pre <;> cases split

/-- Only the links of the nodes themselves count. -/
theorem Linked.congr (h : Linked prev next xs) (hprev : ∀ x ∈ xs, prev' x = prev x)
    (hnext : ∀ x ∈ xs, next' x = next x) : Linked prev' next' xs := by
  rintro pre x post rfl
  have mem : x ∈ pre ++ x :: post := by simp
  rw [hprev x mem, hnext x mem]
  exact h pre x post rfl

theorem Linked.prev_getElem (h : Linked prev next xs) {i : ℕ} (inside : i < xs.length) :
    prev xs[i] = (xs.take i).getLast? :=
  (h (xs.take i) xs[i] (xs.drop (i + 1)) (by rw [List.getElem_cons_drop, List.take_append_drop])).1

/-- No node comes twice: the first one does not, and a node that did would have one before it that
does. -/
theorem Linked.nodup (h : Linked prev next xs) : xs.Nodup := by
  have before (i : ℕ) (inside : i + 1 < xs.length) : prev xs[i + 1] = some xs[i] := by
    rw [h.prev_getElem inside, List.take_succ_eq_append_getElem (Nat.lt_of_succ_lt inside),
      List.getLast?_concat]
  have first (inside : 0 < xs.length) : prev xs[0] = none := h.prev_getElem inside
  have once : ∀ i j (hi : i < xs.length) (hj : j < xs.length), xs[i] = xs[j] → i = j := by
    intro i
    induction i with
    | zero =>
        intro j hi hj same
        cases j with
        | zero => rfl
        | succ j => simpa [first hi, before j hj] using congrArg prev same
    | succ i ih =>
        intro j hi hj same
        cases j with
        | zero => simpa [first hj, before i hi] using congrArg prev same
        | succ j =>
            have back := congrArg prev same
            rw [before i hi, before j hj] at back
            rw [ih j _ _ (Option.some.inj back)]
  exact List.nodup_iff_injective_getElem.mpr fun i j same =>
    Fin.ext (once i j i.isLt j.isLt same)

/-- A node of two joined lists is in one of them. -/
theorem split_append {front back : List α} (h : pre ++ post = front ++ x :: back) :
    (∃ mid, pre = front ++ x :: mid ∧ back = mid ++ post) ∨
      ∃ mid, post = mid ++ x :: back ∧ front = pre ++ mid := by
  rw [List.append_eq_append_iff] at h
  obtain ⟨mid, front, post⟩ | ⟨mid, left, right⟩ := h
  · exact .inr ⟨mid, post, front⟩
  · cases mid with
    | nil =>
        rw [List.append_nil] at left
        exact .inr ⟨[], right.symm, by rw [List.append_nil, left]⟩
    | cons z mid =>
        cases right
        exact .inl ⟨mid, left, rfl⟩

/-- Where the list starts without `y`. -/
theorem Linked.head_without (h : Linked prev next (pre ++ y :: post)) :
    (if (prev y).isSome then (pre ++ y :: post).head? else next y) = (pre ++ post).head? := by
  obtain ⟨before, after⟩ := h pre y post rfl
  rw [before, after]
  cases pre with
  | nil => rfl
  | cons x pre => simp

/-- A node with another behind it is not the last. -/
theorem getLast?_middle_ne (nodup : (pre ++ y :: x :: post).Nodup) :
    (pre ++ y :: x :: post).getLast? ≠ some y := by
  intro same
  obtain ⟨l, last⟩ := Option.isSome_iff_exists.mp
    (List.getLast?_isSome.mpr (List.cons_ne_nil x post))
  rw [List.getLast?_append, List.getLast?_cons_cons, last, Option.some_or] at same
  have apart := (List.nodup_cons.mp (List.nodup_middle.mp nodup)).1
  exact apart (List.mem_append_right _ (List.mem_of_getLast? (last.trans same)))

/-! ## Following a list -/

/-- From `p`, reached from `key`, the nodes `xs` lead one to the next and back, and then nowhere. -/
def Chained (prev next : α → Option α) : Option α → Option α → List α → Prop
  | _, p, [] => p = none
  | key, p, x :: xs => p = some x ∧ prev x = key ∧ Chained prev next (some x) (next x) xs

theorem chained_iff {key p : Option α} : Chained prev next key p xs ↔
    p = xs.head? ∧
      ∀ pre x post, xs = pre ++ x :: post → prev x = pre.getLast?.or key ∧ next x = post.head? := by
  induction xs generalizing key p with
  | nil =>
      refine ⟨fun none => ⟨none, fun pre x post split => ?_⟩, And.left⟩
      cases pre <;> cases split
  | cons y xs ih =>
      unfold Chained
      rw [ih]
      constructor
      · rintro ⟨rfl, back, forth, rest⟩
        refine ⟨rfl, fun pre x post split => ?_⟩
        cases pre with
        | nil =>
            cases split
            exact ⟨back, forth⟩
        | cons z pre =>
            cases split
            obtain ⟨before, after⟩ := rest pre x post rfl
            refine ⟨before.trans ?_, after⟩
            rw [List.getLast?_cons]
            cases pre.getLast? <;> rfl
      · rintro ⟨rfl, all⟩
        obtain ⟨back, forth⟩ := all [] y xs rfl
        refine ⟨rfl, back, forth, ?_⟩
        rintro pre x post rfl
        obtain ⟨before, after⟩ := all (y :: pre) x post rfl
        refine ⟨before.trans ?_, after⟩
        rw [List.getLast?_cons]
        cases pre.getLast? <;> rfl

/-- A list that is followed from its head. -/
theorem chained_none_iff {p : Option α} :
    Chained prev next none p xs ↔ p = xs.head? ∧ Linked prev next xs := by
  rw [chained_iff]
  simp only [Option.or_none]
  rfl

/-! ## Setting links -/

section Set

variable [DecidableEq α]

/-- Set the link of a node, if there is one. -/
def setLink (link : α → Option α) (node target : Option α) : α → Option α :=
  match node with
  | none => link
  | some x => Function.update link x target

theorem setLink_self (link : α → Option α) (target : Option α) :
    setLink link (some x) target x = target := Function.update_self _ _ _

theorem setLink_of_ne (link : α → Option α) {node : Option α} (target : Option α)
    (h : node ≠ some x) : setLink link node target x = link x := by
  cases node with
  | none => rfl
  | some y => exact Function.update_of_ne (fun same => h (congrArg some same.symm)) _ _

end Set

/-! ## Adding a node -/

section Push

variable [DecidableEq α]

/-- A node before the first. -/
theorem Linked.pushFront (h : Linked prev next xs) (nodup : xs.Nodup) (new : y ∉ xs) :
    Linked (setLink (Function.update prev y none) xs.head? (some y))
      (Function.update next y xs.head?) (y :: xs) := by
  rintro pre x post split
  cases pre with
  | nil =>
      cases split
      constructor
      · rw [setLink_of_ne, Function.update_self]
        · rfl
        · exact fun same => new (List.mem_of_head? same)
      · exact Function.update_self _ _ _
  | cons z pre =>
      cases split
      have other : x ≠ y := by
        rintro rfl
        exact new (by simp)
      obtain ⟨hprev, hnext⟩ := h pre x post rfl
      rw [Function.update_of_ne other, hnext]
      refine ⟨?_, rfl⟩
      cases pre with
      | nil => exact setLink_self _ _
      | cons w pre =>
          have inner : x ≠ w := by
            rintro rfl
            simp at nodup
          rw [setLink_of_ne, Function.update_of_ne other, hprev]
          · simp
          · simpa using inner.symm

/-- A node behind the last. -/
theorem Linked.pushBack (h : Linked prev next xs) (nodup : xs.Nodup) (new : y ∉ xs) :
    Linked (Function.update prev y xs.getLast?)
      (setLink (Function.update next y none) xs.getLast? (some y)) (xs ++ [y]) := by
  intro pre x post split
  obtain ⟨mid, rfl, rfl⟩ | ⟨mid, single, rfl⟩ := split_append split
  · have other : x ≠ y := by
      rintro rfl
      exact new (by simp)
    obtain ⟨hprev, hnext⟩ := h pre x mid rfl
    refine ⟨by rw [Function.update_of_ne other, hprev], ?_⟩
    cases mid with
    | nil =>
        have last : (pre ++ [x]).getLast? = some x := by simp
        rw [last, setLink_self]
        rfl
    | cons z mid =>
        have inner : (pre ++ x :: z :: mid).getLast? ≠ some x := by
          intro same
          have last : (z :: mid).getLast? = some x := by simpa using same
          have apart := (List.nodup_cons.mp (List.nodup_middle.mp nodup)).1
          exact apart (List.mem_append_right _ (List.mem_of_getLast? last))
        rw [setLink_of_ne _ _ inner, Function.update_of_ne other, hnext]
        rfl
  · obtain ⟨rfl, rfl, rfl⟩ : mid = [] ∧ x = y ∧ post = [] := by
      cases mid with
      | nil =>
          cases single
          exact ⟨rfl, rfl, rfl⟩
      | cons z mid => simp at single
    rw [Function.update_self, setLink_of_ne, Function.update_self]
    · simp
    · exact fun same => new (List.mem_of_getLast? same)

end Push

/-! ## Taking a node out -/

section Unlink

variable [DecidableEq α]

variable (prev next y)

/-- The `next` links after the node `y` is unlinked. -/
def unlinkNext : α → Option α := setLink next (prev y) (next y)

/-- The `prev` links after the node `y` is unlinked. -/
def unlinkPrev : α → Option α := setLink prev (next y) (prev y)

variable {prev next y}

/-- Unlinking a node leaves the others, in their order. -/
theorem Linked.unlink (h : Linked prev next (pre ++ y :: post))
    (nodup : (pre ++ y :: post).Nodup) :
    Linked (unlinkPrev prev next y) (unlinkNext prev next y) (pre ++ post) := by
  obtain ⟨before, after⟩ := h pre y post rfl
  intro front x back split
  obtain ⟨mid, rfl, rfl⟩ | ⟨mid, rfl, rfl⟩ := split_append split
  · -- `x` is before `y`
    obtain ⟨hprev, hnext⟩ := h front x (mid ++ y :: post) (by simp)
    have outside : x ∉ post ∧ x ∉ mid := by
      simp only [List.append_assoc, List.cons_append, List.nodup_append, List.nodup_cons,
        List.mem_append, List.mem_cons] at nodup
      tauto
    constructor
    · rw [unlinkPrev, setLink_of_ne, hprev]
      rw [after]
      exact fun same => outside.1 (List.mem_of_head? same)
    · cases mid with
      | nil =>
          have last : prev y = some x := by
            rw [before]
            simp
          rw [unlinkNext, last, setLink_self, after]
          rfl
      | cons z mid =>
          rw [unlinkNext, setLink_of_ne, hnext]
          · rfl
          · rw [before]
            intro same
            have last : (z :: mid).getLast? = some x := by simpa using same
            exact outside.2 (List.mem_of_getLast? last)
  · -- `x` is behind `y`
    obtain ⟨hprev, hnext⟩ := h (pre ++ y :: mid) x back (by simp)
    have outside : x ∉ pre ∧ x ∉ mid := by
      simp only [List.nodup_append, List.nodup_cons, List.mem_append, List.mem_cons] at nodup
      obtain ⟨-, ⟨-, -, -, inner⟩, outer⟩ := nodup
      exact ⟨fun mem => outer x mem x (.inr (.inr (.inl rfl))) rfl,
        fun mem => inner x mem x (.inl rfl) rfl⟩
    constructor
    · cases mid with
      | nil =>
          have first : next y = some x := after
          rw [unlinkPrev, first, setLink_self, before, List.append_nil]
      | cons z mid =>
          rw [unlinkPrev, setLink_of_ne, hprev]
          · simp
          · rw [after]
            exact fun same => outside.2 (List.mem_of_head? same)
    · rw [unlinkNext, setLink_of_ne, hnext]
      rw [before]
      exact fun same => outside.1 (List.mem_of_getLast? same)

/-- The list without its first node. -/
theorem Linked.tail (h : Linked prev next (y :: xs)) (nodup : xs.Nodup) :
    Linked (setLink prev xs.head? none) next xs := by
  rintro pre x post rfl
  obtain ⟨before, after⟩ := h (y :: pre) x post rfl
  refine ⟨?_, after⟩
  cases pre with
  | nil => exact setLink_self prev none
  | cons z pre =>
      have other : z ≠ x := by
        rintro rfl
        simp at nodup
      rw [setLink_of_ne, before]
      · simp
      · simpa using other

/-- The list without `y`. -/
theorem filter_ne_middle (nodup : (pre ++ y :: post).Nodup) :
    (pre ++ y :: post).filter (fun x => decide (x ≠ y)) = pre ++ post := by
  have apart := (List.nodup_cons.mp (List.nodup_middle.mp nodup)).1
  rw [List.mem_append, not_or] at apart
  have keeps {zs : List α} (outside : y ∉ zs) : zs.filter (fun x => decide (x ≠ y)) = zs := by
    rw [List.filter_eq_self]
    intro x mem
    exact decide_eq_true fun same => outside (same ▸ mem)
  rw [List.filter_append, List.filter_cons_of_neg (by simp), keeps apart.1, keeps apart.2]

/-- Where the list ends without `y`. -/
theorem Linked.getLast_without (h : Linked prev next (pre ++ y :: post))
    (nodup : (pre ++ y :: post).Nodup) :
    (if (pre ++ y :: post).getLast? = some y then prev y else (pre ++ y :: post).getLast?) =
      (pre ++ post).getLast? := by
  rw [(h pre y post rfl).1]
  cases post with
  | nil => simp
  | cons x post =>
      have other : (pre ++ y :: x :: post).getLast? ≠ some y := by
        intro same
        have last : (x :: post).getLast? = some y := by simpa using same
        have apart := (List.nodup_cons.mp (List.nodup_middle.mp nodup)).1
        exact apart (List.mem_append_right _ (List.mem_of_getLast? last))
      rw [if_neg other]
      simp

end Unlink

end Cjunk.LinkedList
