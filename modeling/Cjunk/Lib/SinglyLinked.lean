import Mathlib.Data.List.Basic
import Mathlib.Logic.Function.Basic

/-!
# Singly linked lists

Nodes with one link each: `link x` is `none` if there is no node `x`, and otherwise where the
node leads, which may be nowhere.  `Segment link p xs q` says that from `p` the nodes `xs` come
in this order and that the last of them leads to `q`; a list is a segment that leads nowhere.

`Open link head tail xs` is a list that is being built: where its last node leads is not yet
settled.  `Open.push` adds a node behind the last, and `Open.lead` settles it.
-/

namespace Cjunk.SinglyLinked

universe u

variable {α : Type u} {link link' : α → Option (Option α)} {p q r : Option α} {xs ys : List α}
  {x y : α}

/-- From `p` come the nodes `xs`, and then `q`. -/
def Segment (link : α → Option (Option α)) : Option α → List α → Option α → Prop
  | p, [], q => p = q
  | p, x :: xs, q => p = some x ∧ ∃ r, link x = some r ∧ Segment link r xs q

/-- Only the nodes of the segment count. -/
theorem Segment.congr (h : Segment link p xs q) (same : ∀ x ∈ xs, link' x = link x) :
    Segment link' p xs q := by
  induction xs generalizing p with
  | nil => exact h
  | cons x xs ih =>
      obtain ⟨here, r, leads, rest⟩ := h
      refine ⟨here, r, ?_, ih rest fun y mem => same y (List.mem_cons_of_mem x mem)⟩
      rw [same x List.mem_cons_self, leads]

/-- The pointers are seen through `f`, which leaves those to the nodes of the segment. -/
theorem Segment.map {f : Option α → Option α} (h : Segment link p xs q)
    (fixes : ∀ x ∈ xs, f (some x) = some x) :
    Segment (fun x => (link x).map f) (f p) xs (f q) := by
  induction xs generalizing p with
  | nil => exact congrArg f h
  | cons x xs ih =>
      obtain ⟨rfl, r, leads, rest⟩ := h
      exact ⟨fixes x List.mem_cons_self, f r, congrArg (Option.map f) leads,
        ih rest fun y mem => fixes y (List.mem_cons_of_mem x mem)⟩

theorem segment_append :
    Segment link p (xs ++ ys) q ↔ ∃ r, Segment link p xs r ∧ Segment link r ys q := by
  induction xs generalizing p with
  | nil =>
      constructor
      · exact fun h => ⟨p, rfl, h⟩
      · rintro ⟨r, rfl, h⟩
        exact h
  | cons x xs ih =>
      constructor
      · rintro ⟨here, r, leads, rest⟩
        obtain ⟨r', first, last⟩ := ih.mp rest
        exact ⟨r', ⟨here, r, leads, first⟩, last⟩
      · rintro ⟨r', ⟨here, r, leads, first⟩, last⟩
        exact ⟨here, r, leads, ih.mpr ⟨r', first, last⟩⟩

/-- A segment with one more node. -/
theorem Segment.snoc (h : Segment link p xs (some x)) (leads : link x = some q) :
    Segment link p (xs ++ [x]) q :=
  segment_append.mpr ⟨some x, h, rfl, q, leads, rfl⟩

/-- A list starts at its first node. -/
theorem Segment.head (h : Segment link p xs none) : p = xs.head? := by
  cases xs with
  | nil => exact h
  | cons x xs => exact h.1

/-- Where a node of a segment leads: to the one behind it, or out of the segment. -/
theorem Segment.leads_or (h : Segment link p (xs ++ x :: ys) q) :
    link x = some (ys.head?.or q) := by
  obtain ⟨r, -, -, r', leads, rest⟩ := segment_append.mp h
  rw [leads]
  cases ys with
  | nil => exact congrArg some rest
  | cons y ys => exact congrArg some rest.1

/-- Nodes that lead one to the next. -/
theorem segment_of_leads
    (leads : ∀ pre x post, xs = pre ++ x :: post → link x = some (post.head?.or q)) :
    Segment link (xs.head?.or q) xs q := by
  induction xs with
  | nil => rfl
  | cons x xs ih =>
      refine ⟨rfl, _, leads [] x xs rfl, ih fun pre y post split => ?_⟩
      exact leads (x :: pre) y post (congrArg (x :: ·) split)

/-- A segment starts at its first node, if it has one. -/
theorem Segment.start (h : Segment link p xs q) : p = xs.head?.or q := by
  cases xs with
  | nil => exact h
  | cons x xs => exact h.1

/-- Where a node of a list leads: to the one behind it. -/
theorem Segment.leads (h : Segment link p (xs ++ x :: ys) none) : link x = some ys.head? := by
  rw [h.leads_or, Option.or_none]

/-- The nodes of a segment exist. -/
theorem Segment.isSome (h : Segment link p xs q) : ∀ x ∈ xs, (link x).isSome := by
  induction xs generalizing p with
  | nil => exact fun x mem => absurd mem List.not_mem_nil
  | cons x xs ih =>
      obtain ⟨-, r, leads, rest⟩ := h
      intro y mem
      rcases List.mem_cons.mp mem with rfl | mem
      · exact Option.isSome_of_eq_some leads
      · exact ih rest y mem

theorem Segment.eq_nil_iff (h : Segment link p xs none) : p = none ↔ xs = [] := by
  rw [h.head, List.head?_eq_none_iff]

/-! ## Lists that are built -/

/-- The nodes `xs`, the last of which leads somewhere or other. -/
def Open (link : α → Option (Option α)) (head tail : Option α) (xs : List α) : Prop :=
  (xs = [] ∧ head = none ∧ tail = none) ∨
    ∃ front x, xs = front ++ [x] ∧ tail = some x ∧ (link x).isSome ∧
      Segment link head front (some x)

theorem Open.nil (link : α → Option (Option α)) : Open link none none [] := .inl ⟨rfl, rfl, rfl⟩

/-- Where a list that is being built ends. -/
theorem Open.tail_eq {head tail : Option α} (h : Open link head tail xs) :
    tail = xs.getLast? := by
  obtain ⟨rfl, -, rfl⟩ | ⟨front, x, rfl, rfl, -, -⟩ := h
  · rfl
  · rw [List.getLast?_concat]

theorem Open.isSome {head tail : Option α} (h : Open link head tail xs) :
    ∀ x ∈ xs, (link x).isSome := by
  obtain ⟨rfl, -, -⟩ | ⟨front, x, rfl, -, there, segment⟩ := h
  · exact fun x mem => absurd mem List.not_mem_nil
  · intro y mem
    rcases List.mem_append.mp mem with mem | mem
    · exact segment.isSome y mem
    · exact List.mem_singleton.mp mem ▸ there

theorem Open.tail_isSome {head tail : Option α} (h : Open link head tail xs) :
    ∀ t ∈ tail, (link t).isSome := by
  intro t last
  exact h.isSome t (List.mem_of_getLast? (h.tail_eq ▸ last))

/-- Where it starts. -/
theorem Open.head_eq {head tail : Option α} (h : Open link head tail xs) : head = xs.head? := by
  obtain ⟨rfl, rfl, -⟩ | ⟨front, x, rfl, -, -, segment⟩ := h
  · rfl
  · cases front with
    | nil => exact segment
    | cons y front => exact segment.1

/-- The links where the last node, if there is one, leads to `q`. -/
def setLast [DecidableEq α] (link : α → Option (Option α)) (tail q : Option α) :
    α → Option (Option α) :=
  match tail with
  | none => link
  | some x => Function.update link x (some q)

section Open

variable [DecidableEq α] {head tail : Option α}

theorem setLast_of_notMem (h : Open link head tail xs) (q : Option α) (other : y ∉ xs) :
    setLast link tail q y = link y := by
  obtain ⟨-, -, rfl⟩ | ⟨front, x, rfl, rfl, -, -⟩ := h
  · rfl
  · exact Function.update_of_ne (by rintro rfl; simp at other) _ _

/-- The last node is made to lead to `q`. -/
theorem Segment.lead (h : Segment link p xs (some x)) (nodup : (xs ++ [x]).Nodup)
    (q : Option α) : Segment (Function.update link x (some q)) p (xs ++ [x]) q := by
  refine Segment.snoc (h.congr fun z mem => Function.update_of_ne ?_ _ _) (Function.update_self ..)
  rintro rfl
  exact (List.nodup_append.mp nodup).2.2 z mem z List.mem_cons_self rfl

/-- The last node leads to one more. -/
theorem Open.push (h : Open link head tail xs) (nodup : xs.Nodup) (new : y ∉ xs)
    (there : (link y).isSome) :
    Open (setLast link tail (some y)) (if tail.isSome then head else some y) (some y)
      (xs ++ [y]) := by
  refine .inr ⟨xs, y, rfl, rfl, by rwa [setLast_of_notMem h _ new], ?_⟩
  obtain ⟨rfl, -, rfl⟩ | ⟨front, x, rfl, rfl, -, segment⟩ := h
  · rfl
  · exact segment.lead nodup _

/-- The last node, if there is one, leads to `q`. -/
theorem Open.lead (h : Open link head tail xs) (nodup : xs.Nodup) (more : xs ≠ [])
    (q : Option α) : Segment (setLast link tail q) head xs q := by
  obtain ⟨rfl, -, -⟩ | ⟨front, x, rfl, rfl, -, segment⟩ := h
  · exact absurd rfl more
  · exact segment.lead nodup q

end Open

end Cjunk.SinglyLinked
