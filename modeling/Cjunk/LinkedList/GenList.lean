import Mathlib.Data.List.Nodup
import Mathlib.Logic.Function.Basic
import Cjunk.Lib.Run

/-!
# Iterating generic lists

`gen_list.c`: lists that are built with `add_2_list`, shortened with `del_node_in_list` and
iterated with `get_next_node`, which keeps its position in static variables.  A program has
any number of lists; an iteration calls `get_next_node` until it returns `NULL`.

`iterations_right_iff` is the result.  The variable `first` is never set again, and an
iteration ends with `n` at `NULL`, so every iteration returns the elements of its list
exactly if the first one is of a list that is not empty and all later ones are of empty
lists.

An address is a number, and `NULL` is `none`.  `malloc` returns any address that is not in
use.  The destructors, which belong to the user, are called but do nothing to the lists.
-/

namespace Cjunk.GenList

open Run

universe u

variable {α : Type u}

/-! ## The functions -/

/-- A node with its data behind it. -/
structure Node (α : Type u) where
  destructFunc : ℕ
  next : Option ℕ
  data : α

/-- The memory, with the static variables of `get_next_node`. -/
structure Memory (α : Type u) where
  heap : ℕ → Option (Node α) := fun _ => none
  first : Bool := true
  h : Option ℕ := none
  n : Option ℕ := none
  /-- The calls of destructors: which, and for which node. -/
  destructed : List (ℕ × ℕ) := []

/-- `add_2_list`, when `malloc` returns `newlist`. -/
def add2List (head : Option ℕ) (data : α) (destructor newlist : ℕ) (m : Memory α) :
    Option ℕ × Memory α :=
  (some newlist, { m with heap := Function.update m.heap newlist (some ⟨destructor, head, data⟩) })

/-- `get_next_node`: the node whose data is returned.  Without a result a pointer is followed
that is `NULL` or dangling. -/
def getNextNode (head : Option ℕ) (m : Memory α) : Option (Option ℕ × Memory α) :=
  if m.first then do
    let node ← head.bind m.heap
    some (head, { m with first := false, n := node.next })
  else
    match m.n with
    | none => some (none, { m with h := m.n })
    | some a => do
        let node ← m.heap a
        some (m.n, { m with h := m.n, n := node.next })

/-- `del_node_in_list`. -/
def delNodeInList (head : Option ℕ) (m : Memory α) : Option (Option ℕ × Memory α) :=
  match head with
  | none => some (none, m)
  | some a => do
      let node ← m.heap a
      some (node.next,
        { m with
          heap := Function.update m.heap a none
          destructed := m.destructed ++ [(node.destructFunc, a)] })

/-! ## Iterations -/

/-- How an iteration ends. -/
inductive Ending where
  /-- `get_next_node` has returned `NULL`. -/
  | null
  | crashed
  /-- It has not returned `NULL` in as many calls as were made. -/
  | unfinished
  deriving DecidableEq

/-- At most so many calls of `get_next_node`, until it returns `NULL`: the data that are
returned. -/
def iterate : ℕ → Option ℕ → Memory α → (List α × Ending) × Memory α
  | 0, _, m => (([], .unfinished), m)
  | calls + 1, head, m =>
      match getNextNode head m with
      | none => (([], .crashed), m)
      | some (none, m) => (([], .null), m)
      | some (some a, m) =>
          match m.heap a with
          | none => (([], .crashed), m)
          | some node =>
              let (result, m) := iterate calls head m
              ((node.data :: result.1, result.2), m)

/-! ## A program with lists -/

/-- The variables of the lists, and what their elements are. -/
structure Program (α : Type u) where
  memory : Memory α := {}
  head : ℕ → Option ℕ := fun _ => none
  elements : ℕ → List α := fun _ => []
  /-- For each iteration so far the elements of its list, what it has returned and how it
  has ended. -/
  iterations : List (List α × List α × Ending) := []
  crashed : Bool := false

inductive Action (α : Type u) where
  /-- An element is added to a list, in a node at an address. -/
  | add (l : ℕ) (data : α) (destructor newlist : ℕ)
  | del (l : ℕ)
  | iterate (l : ℕ)

/-- A complete iteration makes one call for each element and one more. -/
def step (s : Program α) : Action α → Option (Program α)
  | .add l data destructor newlist =>
      if s.crashed ∨ (s.memory.heap newlist).isSome then none
      else
        let (head, memory) := add2List (s.head l) data destructor newlist s.memory
        some { s with
          memory := memory
          head := Function.update s.head l head
          elements := Function.update s.elements l (data :: s.elements l) }
  | .del l =>
      if s.crashed then none
      else
        match delNodeInList (s.head l) s.memory with
        | none => some { s with crashed := true }
        | some (head, memory) =>
            some { s with
              memory := memory
              head := Function.update s.head l head
              elements := Function.update s.elements l (s.elements l).tail }
  | .iterate l =>
      if s.crashed then none
      else
        let (result, memory) := iterate ((s.elements l).length + 1) (s.head l) s.memory
        some { s with
          memory := memory
          iterations := s.iterations ++ [(s.elements l, result)]
          crashed := result.2 = .crashed }

/-- Nothing has crashed, and every iteration has returned the elements of its list, from the
head to the tail, and then `NULL`. -/
def Right (s : Program α) : Prop :=
  s.crashed = false ∧ ∀ it ∈ s.iterations, it.2 = (it.1, .null)

/-- The first iteration is of a list that is not empty, a later one of an empty list. -/
def Fits (s : Program α) : Action α → Prop
  | .iterate l => if s.iterations = [] then s.elements l ≠ [] else s.elements l = []
  | _ => True

/-! ## Lists in memory -/

/-- The nodes from a pointer on: their addresses and their data. -/
def Chain (heap : ℕ → Option (Node α)) : Option ℕ → List (ℕ × α) → Prop
  | p, [] => p = none
  | p, x :: xs => p = some x.1 ∧ ∃ node, heap x.1 = some node ∧ node.data = x.2 ∧
      Chain heap node.next xs

section

variable {heap heap' : ℕ → Option (Node α)} {p : Option ℕ} {xs : List (ℕ × α)} {m : Memory α}

/-- Only the nodes of a list count. -/
theorem Chain.congr (h : Chain heap p xs) (same : ∀ x ∈ xs, heap' x.1 = heap x.1) :
    Chain heap' p xs := by
  induction xs generalizing p with
  | nil => exact h
  | cons x xs ih =>
      obtain ⟨here, node, stored, data, rest⟩ := h
      refine ⟨here, node, ?_, data, ih rest fun y mem => same y (List.mem_cons_of_mem x mem)⟩
      rw [same x List.mem_cons_self, stored]

/-- The nodes of a list are allocated. -/
theorem Chain.allocated (h : Chain heap p xs) : ∀ x ∈ xs, (heap x.1).isSome := by
  induction xs generalizing p with
  | nil => exact fun x mem => absurd mem List.not_mem_nil
  | cons x xs ih =>
      obtain ⟨-, node, stored, -, rest⟩ := h
      rintro y mem
      rcases List.mem_cons.mp mem with rfl | mem
      · rw [stored]
        rfl
      · exact ih rest y mem

/-- A call that returns an element. -/
theorem iterate_some {calls a : ℕ} {head : Option ℕ} {m' : Memory α} {node : Node α}
    (returns : getNextNode head m = some (some a, m')) (stored : m'.heap a = some node) :
    iterate (calls + 1) head m =
      ((node.data :: (iterate calls head m').1.1, (iterate calls head m').1.2),
        (iterate calls head m').2) := by
  rw [iterate, returns]
  simp only [stored]

/-- The iteration is over, and the static variables are at its end. -/
def Ended (m m' : Memory α) : Prop := m'.heap = m.heap ∧ m'.first = false ∧ m'.n = none

/-- At the end of a list `get_next_node` returns `NULL`, whatever list it is called for. -/
theorem iterate_null (first : m.first = false) (ended : m.n = none) (calls : ℕ)
    (head : Option ℕ) : ∃ m', iterate (calls + 1) head m = (([], .null), m') ∧ Ended m m' := by
  have returns : getNextNode head m = some (none, { m with h := m.n }) := by
    unfold getNextNode
    simp [first, ended]
  refine ⟨{ m with h := m.n }, ?_, rfl, first, ended⟩
  rw [iterate, returns]

/-- From a position in a list, it returns what is left of it. -/
theorem iterate_rest (first : m.first = false) (h : Chain m.heap m.n xs) (head : Option ℕ) :
    ∃ m', iterate (xs.length + 1) head m = ((xs.map Prod.snd, .null), m') ∧ Ended m m' := by
  induction xs generalizing m with
  | nil => exact iterate_null first h 0 head
  | cons x xs ih =>
      obtain ⟨here, node, stored, data, rest⟩ := h
      have returns : getNextNode head m = some (some x.1, { m with
          h := m.n
          n := node.next }) := by
        unfold getNextNode
        simp [first, here, stored]
      obtain ⟨m', result, ended⟩ := ih (m := { m with
        h := m.n
        n := node.next }) first rest
      refine ⟨m', ?_, ended⟩
      rw [List.length_cons, iterate_some returns stored, result, data]
      rfl

/-- The first iteration ever returns a list that is not empty. -/
theorem iterate_first {head : Option ℕ} {x : ℕ × α} (first : m.first = true)
    (h : Chain m.heap head (x :: xs)) : ∃ m',
      iterate (xs.length + 1 + 1) head m = (((x :: xs).map Prod.snd, .null), m') ∧ Ended m m' := by
  obtain ⟨rfl, node, stored, data, rest⟩ := h
  have returns : getNextNode (some x.1) m = some (some x.1, { m with
      first := false
      n := node.next }) := by
    unfold getNextNode
    simp [first, stored]
  obtain ⟨m', result, ended⟩ := iterate_rest (m := { m with
    first := false
    n := node.next }) rfl rest (some x.1)
  refine ⟨m', ?_, ended⟩
  rw [iterate_some returns stored, result, data]
  rfl

end

/-! ## The invariant -/

/-- Every list has its elements in memory, in nodes of its own. -/
structure Stored (heap : ℕ → Option (Node α)) (head : ℕ → Option ℕ) (elements : ℕ → List α)
    (nodes : ℕ → List (ℕ × α)) : Prop where
  chain : ∀ l, Chain heap (head l) (nodes l)
  elements_eq : ∀ l, (nodes l).map Prod.snd = elements l
  nodup : ∀ l, ((nodes l).map Prod.fst).Nodup
  own : ∀ l l' x x', x ∈ nodes l → x' ∈ nodes l' → x.1 = x'.1 → l = l'

section

variable {heap : ℕ → Option (Node α)} {head : ℕ → Option ℕ} {elements : ℕ → List α}
  {nodes : ℕ → List (ℕ × α)}

/-- One list is changed, in nodes that belong to no other. -/
theorem Stored.change (h : Stored heap head elements nodes) {heap' : ℕ → Option (Node α)}
    {l : ℕ} {p : Option ℕ} {xs : List (ℕ × α)} {ys : List α}
    (others : ∀ k ≠ l, ∀ x ∈ nodes k, heap' x.1 = heap x.1) (chain : Chain heap' p xs)
    (data : xs.map Prod.snd = ys) (nodup : (xs.map Prod.fst).Nodup)
    (apart : ∀ x ∈ xs, ∀ k ≠ l, ∀ y ∈ nodes k, x.1 ≠ y.1) :
    Stored heap' (Function.update head l p) (Function.update elements l ys)
      (Function.update nodes l xs) := by
  refine ⟨fun k => ?_, fun k => ?_, fun k => ?_, fun k k' x x' mem mem' same => ?_⟩
  · by_cases here : k = l
    · subst here
      simpa only [Function.update_self] using chain
    · simpa only [Function.update_of_ne here] using (h.chain k).congr (others k here)
  · by_cases here : k = l
    · subst here
      simpa only [Function.update_self] using data
    · simpa only [Function.update_of_ne here] using h.elements_eq k
  · by_cases here : k = l
    · subst here
      simpa only [Function.update_self] using nodup
    · simpa only [Function.update_of_ne here] using h.nodup k
  · by_cases here : k = l <;> by_cases there : k' = l
    · rw [here, there]
    · rw [here, Function.update_self] at mem
      rw [Function.update_of_ne there] at mem'
      exact absurd same (apart x mem k' there x' mem')
    · rw [Function.update_of_ne here] at mem
      rw [there, Function.update_self] at mem'
      exact absurd same.symm (apart x' mem' k here x mem)
    · rw [Function.update_of_ne here] at mem
      rw [Function.update_of_ne there] at mem'
      exact h.own k k' x x' mem mem' same

/-- A node at a new address is put before a list. -/
theorem Stored.add (h : Stored heap head elements nodes) {a : ℕ} (fresh : ¬ (heap a).isSome)
    (l : ℕ) (data : α) (destructor : ℕ) :
    Stored (Function.update heap a (some ⟨destructor, head l, data⟩))
      (Function.update head l (some a)) (Function.update elements l (data :: elements l))
      (Function.update nodes l ((a, data) :: nodes l)) := by
  have other : ∀ k, ∀ x ∈ nodes k, x.1 ≠ a := by
    rintro k x mem rfl
    exact fresh ((h.chain k).allocated x mem)
  have kept : ∀ k, ∀ x ∈ nodes k,
      Function.update heap a (some ⟨destructor, head l, data⟩) x.1 = heap x.1 :=
    fun k x mem => Function.update_of_ne (other k x mem) _ _
  refine h.change (fun k _ => kept k) ?_ ?_ ?_ ?_
  · exact ⟨rfl, _, Function.update_self .., rfl, (h.chain l).congr (kept l)⟩
  · rw [List.map_cons, h.elements_eq]
  · rw [List.map_cons, List.nodup_cons]
    refine ⟨fun mem => ?_, h.nodup l⟩
    obtain ⟨x, mem, same⟩ := List.mem_map.mp mem
    exact other l x mem same
  · intro x mem k ne y mem' same
    rcases List.mem_cons.mp mem with rfl | mem
    · exact other k y mem' same.symm
    · exact ne (h.own k l y x mem' mem same.symm)

/-- The first node of a list is freed. -/
theorem Stored.del (h : Stored heap head elements nodes) {l a : ℕ} {node : Node α}
    (here : head l = some a) (stored : heap a = some node) :
    Stored (Function.update heap a none) (Function.update head l node.next)
      (Function.update elements l (elements l).tail) (Function.update nodes l (nodes l).tail) := by
  obtain ⟨x, xs, split⟩ : ∃ x xs, nodes l = x :: xs := by
    cases split : nodes l with
    | nil =>
        have := h.chain l
        rw [split, here] at this
        cases this
    | cons x xs => exact ⟨x, xs, rfl⟩
  obtain ⟨same, node', stored', -, rest⟩ : Chain heap (head l) (x :: xs) := split ▸ h.chain l
  obtain rfl : a = x.1 := Option.some.inj (here.symm.trans same)
  obtain rfl : node = node' := Option.some.inj (stored.symm.trans stored')
  have nodup : x.1 ∉ xs.map Prod.fst ∧ (xs.map Prod.fst).Nodup := by
    have := h.nodup l
    rwa [split, List.map_cons, List.nodup_cons] at this
  have first : x ∈ nodes l := split ▸ List.mem_cons_self
  rw [split, List.tail_cons]
  refine h.change (fun k ne y mem => ?_) ?_ ?_ nodup.2 ?_
  · exact Function.update_of_ne (fun same => ne (h.own k l y x mem first same)) _ _
  · refine rest.congr fun y mem => Function.update_of_ne (fun same => ?_) _ _
    exact nodup.1 (same ▸ List.mem_map_of_mem mem)
  · rw [← h.elements_eq, split, List.map_cons, List.tail_cons]
  · intro y mem k ne z mem' same
    exact ne (h.own k l z y mem' (split ▸ List.mem_cons_of_mem x mem) same.symm)

end

/-- The lists are in memory, and the static variables are as at the start or at the end of an
iteration. -/
structure Inv (s : Program α) : Prop where
  right : Right s
  lists : ∃ nodes, Stored s.memory.heap s.head s.elements nodes
  start : s.iterations = [] → s.memory.first = true
  later : s.iterations ≠ [] → s.memory.first = false ∧ s.memory.n = none

section

variable {s t : Program α} {l : ℕ}

theorem inv_start : Inv ({} : Program α) where
  right := ⟨rfl, fun _ mem => absurd mem List.not_mem_nil⟩
  lists := ⟨fun _ => [], fun _ => rfl, fun _ => rfl, fun _ => List.nodup_nil,
    fun _ _ _ _ mem => absurd mem List.not_mem_nil⟩
  start _ := rfl
  later ne := absurd rfl ne

theorem Inv.after_add (h : Inv s) {data : α} {destructor newlist : ℕ}
    (added : step s (.add l data destructor newlist) = some t) : Inv t := by
  have enabled : ¬ (s.crashed ∨ (s.memory.heap newlist).isSome) := fun disabled => by
    rw [step, if_pos disabled] at added
    cases added
  rw [step, if_neg enabled] at added
  cases added
  obtain ⟨nodes, stored⟩ := h.lists
  exact ⟨h.right, ⟨_, stored.add (not_or.mp enabled).2 l data destructor⟩, h.start, h.later⟩

theorem Inv.after_del (h : Inv s) (deleted : step s (.del l) = some t) : Inv t := by
  obtain ⟨nodes, stored⟩ := h.lists
  rw [step, if_neg (by simp [h.right.1])] at deleted
  have chain := stored.chain l
  cases here : s.head l with
  | none =>
      rw [here] at deleted chain
      cases deleted
      have empty : nodes l = [] := by
        cases split : nodes l with
        | nil => rfl
        | cons x xs =>
            rw [split] at chain
            cases chain.1
      have none_left : s.elements l = [] := by rw [← stored.elements_eq, empty, List.map_nil]
      have sameHead : Function.update s.head l none = s.head := by
        rw [← here, Function.update_eq_self]
      have sameElements : Function.update s.elements l (s.elements l).tail = s.elements := by
        rw [none_left, List.tail_nil, ← none_left, Function.update_eq_self]
      refine ⟨h.right, ⟨nodes, ?_⟩, h.start, h.later⟩
      simpa only [sameHead, sameElements] using stored
  | some a =>
      obtain ⟨node, allocated⟩ : ∃ node, s.memory.heap a = some node := by
        cases split : nodes l with
        | nil =>
            rw [split, here] at chain
            cases chain
        | cons x xs =>
            rw [split, here] at chain
            obtain ⟨same, node, allocated, -⟩ := chain
            cases same
            exact ⟨node, allocated⟩
      rw [here, delNodeInList, allocated] at deleted
      cases deleted
      exact ⟨h.right, ⟨_, stored.del here allocated⟩, h.start, h.later⟩

/-- An iteration that returns what it should. -/
theorem Inv.iterated (h : Inv s) {m : Memory α}
    (result : iterate ((s.elements l).length + 1) (s.head l) s.memory =
      ((s.elements l, .null), m)) (ended : Ended s.memory m)
    (taken : step s (.iterate l) = some t) : Inv t := by
  obtain ⟨heap, first, n⟩ := ended
  rw [step, if_neg (by simp [h.right.1]), result] at taken
  cases taken
  refine ⟨⟨rfl, ?_⟩, ?_, fun none => by simp at none, fun _ => ⟨first, n⟩⟩
  · intro it mem
    rcases List.mem_append.mp mem with mem | mem
    · exact h.right.2 it mem
    · rw [List.mem_singleton.mp mem]
  · obtain ⟨nodes, stored⟩ := h.lists
    rw [← heap] at stored
    exact ⟨nodes, stored⟩

theorem Inv.after_iterate (h : Inv s) (fits : Fits s (.iterate l))
    (taken : step s (.iterate l) = some t) : Inv t := by
  obtain ⟨nodes, stored⟩ := h.lists
  have chain := stored.chain l
  have elements := stored.elements_eq l
  have fits : if s.iterations = [] then s.elements l ≠ [] else s.elements l = [] := fits
  by_cases start : s.iterations = []
  · rw [if_pos start] at fits
    cases split : nodes l with
    | nil =>
        rw [split] at elements
        exact absurd elements.symm fits
    | cons x xs =>
        rw [split] at chain elements
        obtain ⟨m, result, ended⟩ := iterate_first (h.start start) chain
        rw [elements] at result
        refine h.iterated ?_ ended taken
        rw [← result, ← elements, List.length_map, List.length_cons]
  · rw [if_neg start] at fits
    obtain ⟨first, n⟩ := h.later start
    obtain ⟨m, result, ended⟩ := iterate_null first n (s.elements l).length (s.head l)
    refine h.iterated ?_ ended taken
    rwa [← fits] at result

/-- The other way: an iteration that does not fit goes wrong. -/
theorem Inv.fits (h : Inv s) {a : Action α} (taken : step s a = some t) (right : Right t) :
    Fits s a := by
  cases a with
  | add l data destructor newlist => trivial
  | del l => trivial
  | iterate l =>
      obtain ⟨nodes, stored⟩ := h.lists
      have chain := stored.chain l
      rw [step, if_neg (by simp [h.right.1])] at taken
      show if s.iterations = [] then s.elements l ≠ [] else s.elements l = []
      by_cases start : s.iterations = []
      · rw [if_pos start]
        intro empty
        have head : s.head l = none := by
          have none_left := (stored.elements_eq l).trans empty
          rwa [List.map_eq_nil_iff.mp none_left] at chain
        have crashes : iterate (0 + 1) none s.memory = (([], .crashed), s.memory) := by
          rw [iterate, getNextNode, if_pos (h.start start)]
          rfl
        rw [empty, List.length_nil, head, crashes] at taken
        cases taken
        cases right.1
      · rw [if_neg start]
        obtain ⟨first, n⟩ := h.later start
        obtain ⟨m, result, -⟩ := iterate_null first n (s.elements l).length (s.head l)
        rw [result] at taken
        cases taken
        have last := right.2 (s.elements l, ([], .null)) (by simp)
        exact (congrArg Prod.fst last).symm

end

/-- **Iterating generic lists.**  Whatever lists are built, shortened and iterated, all
iterations return the elements of their lists exactly if the first is of a list that is not
empty and all later ones are of empty lists. -/
theorem iterations_right_iff (as : List (Action α)) :
    Throughout step Right {} as ↔ Meets step Fits {} as := by
  refine throughout_iff_meets (I := Inv) (fun s h => h.right) ?_
    (fun s a t h taken right => h.fits taken right) inv_start
  intro s a t h fits taken
  cases a with
  | add l data destructor newlist => exact h.after_add taken
  | del l => exact h.after_del taken
  | iterate l => exact h.after_iterate fits taken

/-- A list of one element is iterated twice. -/
def twice : List (Action ℕ) := [.add 0 7 0 1, .iterate 0, .iterate 0]

/-- The second iteration returns nothing. -/
theorem twice_not_right : ¬ Throughout step Right {} twice := by
  intro h
  have run : (exec step {} twice).map Program.iterations =
      some [([7], ([7], .null)), ([7], ([], .null))] := rfl
  obtain ⟨t, taken, iterations⟩ := Option.map_eq_some_iff.mp run
  have right := throughout_iff_forall_exec.mp h twice [] (List.append_nil _) t taken
  have second := right.2 ([7], ([], .null)) (by simp [iterations])
  cases second

end Cjunk.GenList
