import Mathlib.Data.Int.Notation
import Mathlib.Data.List.Induction
import Mathlib.Data.List.InsertIdx
import Mathlib.Data.List.TakeDrop
import Cjunk.Lib.Refinement
import Cjunk.Lib.SinglyLinked

/-!
# A list that is changed where a pointer is

`linked_list.c`: its functions get the address of a pointer, that of the caller to the first node
or the `next` of a node, and add and remove nodes there.  A `Place` is such an address.

## Main results

* `places_runAll_refines` — in every run of calls the list in memory is the list of numbers under
  insertion and removal at positions, and just the calls on a place that is not there fault
-/

namespace Cjunk.Llist

open SinglyLinked WhileLoop Run Refinement

/-! ## The functions -/

/-- `LLIST` -/
structure Node where
  data : ℤ
  next : Option ℕ

abbrev Heap := ℕ → Option Node

/-- `LLIST **`: where the caller keeps the list, or the `next` of a node. -/
inductive Place where
  | root
  | next (node : ℕ)

/-- What `list_print` prints: that there is nothing, or `n`, `n->next` and `n->data`. -/
inductive Line where
  | empty
  | print (n : ℕ) (next : Option ℕ) (data : ℤ)
  deriving DecidableEq

/-- The memory, with the variable of the caller. -/
structure Memory where
  heap : Heap := fun _ => none
  root : Option ℕ := none
  /-- The nodes that were freed, the first one first. -/
  freed : List ℕ := []
  printed : List Line := []

/-- What `malloc` returns: a node with something or other in it, or `NULL`. -/
abbrev Allocation := Option (ℕ × Node)

/-- The node at an address. -/
def follow (a : ℕ) (m : Memory) : Except Stop Node :=
  match m.heap a with
  | none => .error .fault
  | some node => .ok node

/-- `*p` -/
def get (p : Place) (m : Memory) : Except Stop (Option ℕ) :=
  match p with
  | .root => .ok m.root
  | .next a => do return (← follow a m).next

/-- `*p = q` -/
def set (p : Place) (q : Option ℕ) (m : Memory) : Except Stop Memory :=
  match p with
  | .root => .ok { m with root := q }
  | .next a => do
      let node ← follow a m
      return { m with heap := Function.update m.heap a (some { node with next := q }) }

/-- `list_add`. -/
def listAdd (p : Place) (i : ℤ) (n : Allocation) (m : Memory) : Except Stop (Option ℕ × Memory) :=
  match n with
  | none => .ok (none, m)
  | some (n, node) => do
      let next ← get p m
      let m := { m with heap := Function.update m.heap n (some { node with next := next }) }
      let m ← set p (some n) m
      let node ← follow n m
      let m := { m with heap := Function.update m.heap n (some { node with data := i }) }
      return (← get p m, m)

/-- `free` -/
def free (a : ℕ) (m : Memory) : Except Stop Memory := do
  let _ ← follow a m
  return { m with heap := Function.update m.heap a none, freed := m.freed ++ [a] }

/-- `list_remove`, which follows its argument if that is `NULL` too. -/
def listRemove (p : Option Place) (m : Memory) : Except Stop Memory :=
  match p with
  | none => .error .fault
  | some p => do
      match ← get p m with
      | none => return m
      | some n =>
          let node ← follow n m
          let m ← set p node.next m
          free n m

/-- `list_search`. -/
def listSearch : ℕ → Place → ℤ → Memory → Except Stop (Option Place)
  | 0, _, _, _ => .error .unfinished
  | fuel + 1, n, i, m => do
      match ← get n m with
      | none => return none
      | some a =>
          let node ← follow a m
          if node.data = i then return some n else listSearch fuel (.next a) i m

/-- The loop of `list_print`. -/
def printNodes : ℕ → Option ℕ → Memory → Except Stop Memory
  | 0, _, _ => .error .unfinished
  | _ + 1, none, m => .ok m
  | fuel + 1, some n, m => do
      let node ← follow n m
      printNodes fuel node.next { m with printed := m.printed ++ [.print n node.next node.data] }

/-- `list_print`. -/
def listPrint (fuel : ℕ) (n : Option ℕ) (m : Memory) : Except Stop Memory :=
  printNodes fuel n (if n = none then { m with printed := m.printed ++ [.empty] } else m)

/-- The place that a program comes to from its variable: `&n`, `&n->next`, `&n->next->next`. -/
def place : ℕ → Memory → Except Stop Place
  | 0, _ => .ok .root
  | k + 1, m => do
      let p ← place k m
      match ← get p m with
      | none => .error .fault
      | some a => return .next a

inductive Call where
  | add (k : ℕ) (i : ℤ) (n : Allocation)
  | remove (k : ℕ)
  /-- `list_remove(list_search(&n, i))` -/
  | removeFound (i : ℤ)
  | print

def Call.run (fuel : ℕ) : Call → Memory → Except Stop Memory
  | .add k i n, m => do
      let p ← place k m
      let (_, m) ← listAdd p i n m
      return m
  | .remove k, m => do
      let p ← place k m
      listRemove (some p) m
  | .removeFound i, m => do
      let p ← listSearch fuel .root i m
      listRemove p m
  | .print, m => listPrint fuel m.root m

/-! ## Places in a list -/

/-- The place behind some nodes. -/
def placeBehind (pre : List ℕ) : Place :=
  match pre.getLast? with
  | none => .root
  | some a => .next a

/-- Where the nodes lead. -/
def links (heap : Heap) : ℕ → Option (Option ℕ) := fun a => (heap a).map Node.next

section Places

variable {m m' : Memory} {pre post xs : List ℕ} {p q : Option ℕ} {a k : ℕ} {node : Node}

theorem follow_ok (stored : m.heap a = some node) : follow a m = .ok node := by
  rw [follow, stored]

theorem follow_of_links (leads : links m.heap a = some q) :
    ∃ node, follow a m = .ok node ∧ node.next = q ∧ m.heap a = some node := by
  obtain ⟨node, stored, next⟩ := Option.map_eq_some_iff.mp leads
  exact ⟨node, follow_ok stored, next, stored⟩

theorem links_update (heap : Heap) (a : ℕ) (node : Node) :
    links (Function.update heap a (some node)) =
      Function.update (links heap) a (some node.next) := by
  funext b
  unfold links
  rw [Function.update_apply, Function.update_apply]
  split <;> rfl

/-- The numbers stay where a node is made to lead elsewhere. -/
theorem data_update {heap : Heap} (stored : heap a = some node) (q : Option ℕ) (b : ℕ) :
    (Function.update heap a (some { node with next := q }) b).map Node.data =
      (heap b).map Node.data := by
  rw [Function.update_apply]
  split
  · rename_i here
    rw [here, stored]
    rfl
  · rfl

theorem placeBehind_concat (pre : List ℕ) (a : ℕ) : placeBehind (pre ++ [a]) = .next a := by
  rw [placeBehind, List.getLast?_concat]

/-- What is at a place. -/
theorem get_placeBehind (h : Segment (links m.heap) m.root (pre ++ post) none) :
    get (placeBehind pre) m = .ok post.head? := by
  induction pre using List.reverseRecOn with
  | nil => exact congrArg Except.ok h.head
  | append_singleton pre a _ =>
      rw [List.append_assoc] at h
      obtain ⟨node, followed, next, -⟩ := follow_of_links h.leads
      rw [placeBehind_concat, get, followed]
      exact congrArg Except.ok next

/-- A program comes to each place in a list and to no other. -/
theorem place_ok (h : Segment (links m.heap) m.root xs none) (fits : k ≤ xs.length) :
    place k m = .ok (placeBehind (xs.take k)) := by
  induction k with
  | zero => rfl
  | succ k ih =>
      have split := List.take_append_drop k xs
      rw [List.drop_eq_getElem_cons fits] at split
      rw [place, ih (Nat.le_of_succ_le fits)]
      show get _ m >>= _ = _
      rw [← split] at h
      rw [get_placeBehind h, List.take_succ_eq_append_getElem fits, placeBehind_concat]
      rfl

theorem place_fault (h : Segment (links m.heap) m.root xs none) (long : xs.length < k) :
    place k m = .error .fault := by
  induction k with
  | zero => exact absurd long (Nat.not_lt_zero _)
  | succ k ih =>
      rw [place]
      rcases Nat.lt_succ_iff_lt_or_eq.mp long with long | rfl
      · rw [ih long]
        rfl
      · rw [place_ok h (Nat.le_refl _), List.take_length]
        show get _ m >>= _ = _
        rw [← List.append_nil xs] at h
        rw [get_placeBehind h]
        rfl

/-- What is put at a place comes behind the nodes before it. -/
theorem set_placeBehind (h : Segment (links m.heap) m.root pre p) (distinct : pre.Nodup)
    (q : Option ℕ) :
    ∃ m', set (placeBehind pre) q m = .ok m' ∧ Segment (links m'.heap) m'.root pre q ∧
      (∀ a, a ∉ pre → m'.heap a = m.heap a) ∧
      (∀ a, (m'.heap a).map Node.data = (m.heap a).map Node.data) ∧
      m'.freed = m.freed ∧ m'.printed = m.printed := by
  induction pre using List.reverseRecOn with
  | nil => exact ⟨_, rfl, rfl, fun _ _ => rfl, fun _ => rfl, rfl, rfl⟩
  | append_singleton pre a _ =>
      obtain ⟨r, before, rfl, p', leads, rfl⟩ := segment_append.mp h
      obtain ⟨node, followed, -, stored⟩ := follow_of_links leads
      refine ⟨{ m with heap := Function.update m.heap a (some { node with next := q }) }, ?_, ?_,
        ?_, ?_, rfl, rfl⟩
      · rw [placeBehind_concat, set, followed]
        rfl
      · show Segment (links (Function.update m.heap a _)) m.root _ q
        rw [links_update]
        exact before.lead distinct q
      · intro b other
        exact Function.update_of_ne (fun here => other (by simp [here])) _ _
      · exact fun b => data_update stored q b

end Places

/-! ## Runs -/

/-- What the calls are about: the nodes with their numbers, those that were freed, and what was
printed. -/
structure Numbers where
  nodes : List (ℕ × ℤ) := []
  freed : List ℕ := []
  printed : List Line := []

/-- What is printed of a list. -/
def lines : List (ℕ × ℤ) → List Line
  | [] => []
  | p :: ps => .print p.1 (ps.head?.map Prod.fst) p.2 :: lines ps

/-- A number is inserted at a position, if there is memory for it. -/
def Numbers.insert (l : Numbers) (k : ℕ) (i : ℤ) (n : Allocation) : Numbers :=
  match n with
  | none => l
  | some (n, _) => { l with nodes := l.nodes.insertIdx k (n, i) }

/-- The node at a position is removed. -/
def Numbers.erase (l : Numbers) (k : ℕ) : Numbers :=
  { l with nodes := l.nodes.eraseIdx k, freed := l.freed ++ (l.nodes[k]?.map Prod.fst).toList }

/-- What a call does.  A place is at the position of the node behind it, if there is one. -/
def Numbers.call (l : Numbers) : Call → Option Numbers
  | .add k i n => if k ≤ l.nodes.length then some (l.insert k i n) else none
  | .remove k => if k ≤ l.nodes.length then some (l.erase k) else none
  | .removeFound i => (l.nodes.findIdx? fun p => p.2 = i).map l.erase
  | .print => some { l with
      printed := l.printed ++ if l.nodes = [] then [.empty] else lines l.nodes }

/-- `malloc` gives an address that is not in use, or `NULL`. -/
def Call.Allowed (l : Numbers) : Call → Prop
  | .add _ _ n => ∀ new ∈ n, new.1 ∉ l.nodes.map Prod.fst
  | .remove _ | .removeFound _ | .print => True

/-- The memory is that of the list. -/
structure IsList (m : Memory) (l : Numbers) : Prop where
  segment : Segment (links m.heap) m.root (l.nodes.map Prod.fst) none
  distinct : (l.nodes.map Prod.fst).Nodup
  numbers : ∀ p ∈ l.nodes, (m.heap p.1).map Node.data = some p.2
  allocated : ∀ a, (m.heap a).isSome ↔ a ∈ l.nodes.map Prod.fst
  freed : m.freed = l.freed
  printed : m.printed = l.printed

section Calls

variable {m m' : Memory} {l : Numbers} {c : Call} {fuel k n : ℕ} {i : ℤ} {node : Node}

theorem isList_nil : IsList {} {} := ⟨rfl, .nil, nofun, fun _ => ⟨nofun, nofun⟩, rfl, rfl⟩

theorem insertIdx_eq {α : Type} {xs : List α} {x : α} (fits : k ≤ xs.length) :
    xs.insertIdx k x = xs.take k ++ x :: xs.drop k := by
  induction xs generalizing k with
  | nil =>
      obtain rfl := Nat.le_zero.mp fits
      rfl
  | cons y ys ih =>
      cases k with
      | zero => rfl
      | succ k => exact congrArg (y :: ·) (ih (Nat.le_of_succ_le_succ fits))

theorem isSome_of_data (data : ∀ a, (m'.heap a).map Node.data = (m.heap a).map Node.data) (a : ℕ) :
    (m'.heap a).isSome = (m.heap a).isSome := by
  rw [← Option.isSome_map (f := Node.data), data, Option.isSome_map]

/-- The memory where a node is new, or gone. -/
theorem IsList.of_data (h : IsList m l) {nodes : List (ℕ × ℤ)} {freed : List ℕ}
    (segment : Segment (links m'.heap) m'.root (nodes.map Prod.fst) none)
    (distinct : (nodes.map Prod.fst).Nodup)
    (numbers : ∀ p ∈ nodes, (m'.heap p.1).map Node.data = some p.2)
    (rest : ∀ a, (m'.heap a).isSome → a ∈ nodes.map Prod.fst) (gone : m'.freed = freed)
    (printed : m'.printed = m.printed) :
    IsList m' { l with nodes := nodes, freed := freed } := by
  refine ⟨segment, distinct, numbers, fun a => ⟨rest a, fun mem => ?_⟩, gone,
    printed.trans h.printed⟩
  obtain ⟨p, inside, rfl⟩ := List.mem_map.mp mem
  exact Option.isSome_map.symm.trans (Option.isSome_of_eq_some (numbers p inside))

/-- A node is added at a place. -/
theorem IsList.add_ok {pre post : List (ℕ × ℤ)} (h : IsList m l) (split : l.nodes = pre ++ post)
    (unused : n ∉ l.nodes.map Prod.fst) (i : ℤ) (node : Node) :
    ∃ m', listAdd (placeBehind (pre.map Prod.fst)) i (some (n, node)) m = .ok (some n, m') ∧
      IsList m' { l with nodes := pre ++ (n, i) :: post } := by
  have segment := h.segment
  have distinct := h.distinct
  rw [split, List.map_append] at segment distinct unused
  obtain ⟨offPre, offPost⟩ := not_or.mp (mt List.mem_append.mpr unused)
  obtain ⟨distinctPre, -, apart⟩ := List.nodup_append.mp distinct
  have whole := segment
  obtain ⟨r, before, behind⟩ := segment_append.mp segment
  obtain rfl := behind.head
  -- the memory when the node leads to the rest of the list
  let m₁ : Memory := { m with
    heap := Function.update m.heap n (some { node with next := (post.map Prod.fst).head? }) }
  have old (a : ℕ) (other : a ≠ n) : m₁.heap a = m.heap a := Function.update_of_ne other ..
  have before : Segment (links m₁.heap) m₁.root (pre.map Prod.fst) _ := before.congr fun a mem =>
    congrArg _ (old a (ne_of_mem_of_not_mem mem offPre))
  obtain ⟨m₂, written, first, same, data, freed, printed⟩ :=
    set_placeBehind before distinctPre (some n)
  have there : m₂.heap n = some { node with next := (post.map Prod.fst).head? } :=
    (same n offPre).trans (Function.update_self ..)
  -- The number is stored through the place, which leads to the node by then.
  let m₃ : Memory := { m₂ with
    heap := Function.update m₂.heap n (some ⟨i, (post.map Prod.fst).head?⟩) }
  have kept (a : ℕ) (other : a ≠ n) : m₃.heap a = m₂.heap a := Function.update_of_ne other ..
  have segment : Segment (links m₃.heap) m₃.root ((pre ++ (n, i) :: post).map Prod.fst) none := by
    rw [List.map_append, List.map_cons]
    refine segment_append.mpr ⟨some n, first.congr fun a mem => ?_, rfl, _, ?_,
      behind.congr fun a mem => ?_⟩
    · exact congrArg _ (kept a (ne_of_mem_of_not_mem mem offPre))
    · exact congrArg _ (Function.update_self ..)
    · have other : a ≠ n := ne_of_mem_of_not_mem mem offPost
      refine congrArg _ ((kept a other).trans ((same a fun mem' => ?_).trans (old a other)))
      exact apart a mem' a mem rfl
  refine ⟨m₃, ?_, h.of_data segment ?_ (fun q mem => ?_) (fun a used => ?_)
    (freed.trans h.freed) printed⟩
  · rw [listAdd, get_placeBehind whole]
    show set _ _ m₁ >>= _ = _
    rw [written]
    show follow n m₂ >>= _ = _
    rw [follow_ok there]
    show get _ m₃ >>= _ = _
    rw [List.map_append] at segment
    rw [get_placeBehind segment]
    rfl
  · rw [List.map_append, List.map_cons]
    exact List.perm_middle.nodup_iff.mpr (List.nodup_cons.mpr ⟨unused, distinct⟩)
  · obtain rfl | inside := List.mem_cons.mp (List.perm_middle.mem_iff.mp mem)
    · have new : m₃.heap n = some ⟨i, (post.map Prod.fst).head?⟩ := Function.update_self ..
      rw [new]
      rfl
    · have other : q.1 ≠ n := by
        rw [← List.map_append] at unused
        exact ne_of_mem_of_not_mem (List.mem_map_of_mem inside) unused
      rw [kept _ other, data, old _ other, h.numbers q (split ▸ inside)]
  · by_cases new : a = n
    · simp [new]
    · rw [kept _ new, isSome_of_data data, old _ new, h.allocated, split] at used
      rw [List.map_append, List.mem_append] at used ⊢
      exact used.imp_right (List.mem_cons_of_mem n)

/-- The node at a place is removed. -/
theorem IsList.remove_ok {pre post : List (ℕ × ℤ)} {p : ℕ × ℤ} (h : IsList m l)
    (split : l.nodes = pre ++ p :: post) :
    ∃ m', listRemove (some (placeBehind (pre.map Prod.fst))) m = .ok m' ∧
      IsList m' { l with nodes := pre ++ post, freed := l.freed ++ [p.1] } := by
  have segment := h.segment
  have distinct := h.distinct
  rw [split, List.map_append, List.map_cons] at segment distinct
  obtain ⟨distinctPre, distinctPost, apart⟩ := List.nodup_append.mp distinct
  obtain ⟨offPost, distinctPost⟩ := List.nodup_cons.mp distinctPost
  obtain ⟨r, before, behind⟩ := segment_append.mp segment
  obtain ⟨rfl, next, leads, behind⟩ := behind
  obtain ⟨node, followed, rfl, stored⟩ := follow_of_links leads
  obtain ⟨m₁, written, first, same, data, freed, printed⟩ :=
    set_placeBehind before distinctPre node.next
  -- The place is not inside the node that is freed.
  have offPre : p.1 ∉ pre.map Prod.fst := fun mem => apart _ mem p.1 List.mem_cons_self rfl
  have there : m₁.heap p.1 = some node := (same p.1 offPre).trans stored
  let m₂ : Memory :=
    { m₁ with heap := Function.update m₁.heap p.1 none, freed := m₁.freed ++ [p.1] }
  refine ⟨m₂, ?_, ?_⟩
  · rw [listRemove, get_placeBehind segment]
    show follow p.1 m >>= _ = _
    rw [followed]
    show set _ _ m >>= _ = _
    rw [written]
    show free p.1 m₁ = _
    rw [free, follow_ok there]
    rfl
  · have kept (a : ℕ) (other : a ≠ p.1) : m₂.heap a = m₁.heap a := Function.update_of_ne other ..
    have gone : m₂.heap p.1 = none := Function.update_self ..
    have other (q : ℕ × ℤ) (mem : q ∈ pre ++ post) : q.1 ≠ p.1 := by
      rcases List.mem_append.mp mem with mem | mem
      · exact ne_of_mem_of_not_mem (List.mem_map_of_mem mem) offPre
      · exact ne_of_mem_of_not_mem (List.mem_map_of_mem mem) offPost
    refine h.of_data ?_ ?_ (fun q mem => ?_) (fun a there => ?_)
      (by rw [← h.freed, ← freed]) printed
    · rw [List.map_append]
      refine segment_append.mpr ⟨_, first.congr fun a mem => ?_, behind.congr fun a mem => ?_⟩
      · exact congrArg _ (kept a (ne_of_mem_of_not_mem mem offPre))
      · refine congrArg _
          ((kept a (ne_of_mem_of_not_mem mem offPost)).trans (same a fun mem' => ?_))
        exact apart a mem' a (List.mem_cons_of_mem _ mem) rfl
    · rw [List.map_append]
      exact List.nodup_append.mpr ⟨distinctPre, distinctPost, fun a mem b mem' =>
        apart a mem b (List.mem_cons_of_mem _ mem')⟩
    · have inside : q ∈ l.nodes := by
        rw [split]
        exact List.perm_middle.mem_iff.mpr (List.mem_cons_of_mem p mem)
      rw [kept _ (other q mem), data, h.numbers q inside]
    · have elsewhere : a ≠ p.1 := by
        rintro rfl
        rw [gone] at there
        cases there
      rw [kept a elsewhere, isSome_of_data data, h.allocated, split] at there
      have inside := (List.perm_middle.map Prod.fst).mem_iff.mp there
      exact (List.mem_cons.mp inside).resolve_left elsewhere

/-- The node at any place is removed, if there is one. -/
theorem IsList.remove_place (h : IsList m l) (fits : k ≤ l.nodes.length) :
    Ends (l.nodes.length < fuel)
      (listRemove (some (placeBehind ((l.nodes.take k).map Prod.fst))) m)
      (IsList · (l.erase k)) := by
  rcases Nat.lt_or_eq_of_le fits with more | rfl
  · have split : l.nodes = l.nodes.take k ++ l.nodes[k] :: l.nodes.drop (k + 1) := by
      rw [← List.drop_eq_getElem_cons more, List.take_append_drop]
    obtain ⟨m', removed, isList⟩ := h.remove_ok split
    rw [removed]
    refine .ok ?_
    rw [Numbers.erase, List.eraseIdx_eq_take_drop_succ, List.getElem?_eq_getElem more]
    exact isList
  · have segment := h.segment
    rw [← List.append_nil (l.nodes.map Prod.fst)] at segment
    rw [List.take_length, listRemove, get_placeBehind segment]
    refine .ok ?_
    rw [Numbers.erase, List.eraseIdx_of_length_le (Nat.le_refl _),
      List.getElem?_eq_none (Nat.le_refl _)]
    exact ⟨h.segment, h.distinct, h.numbers, h.allocated, by simp [h.freed], h.printed⟩

theorem IsList.follow_ok {pre post : List (ℕ × ℤ)} {p : ℕ × ℤ} (h : IsList m l)
    (split : l.nodes = pre ++ p :: post) :
    follow p.1 m = .ok ⟨p.2, post.head?.map Prod.fst⟩ := by
  have segment := h.segment
  rw [split, List.map_append, List.map_cons] at segment
  obtain ⟨node, followed, next, stored⟩ := follow_of_links segment.leads
  have number := h.numbers p (by simp [split])
  rw [stored] at number
  obtain ⟨data, next'⟩ := node
  cases number
  rw [followed, ← List.head?_map]
  cases next
  rfl

/-- The search goes on from any place. -/
theorem IsList.search_from {pre post : List (ℕ × ℤ)} (h : IsList m l)
    (split : l.nodes = pre ++ post) (i : ℤ) :
    Ends (post.length < fuel) (listSearch fuel (placeBehind (pre.map Prod.fst)) i m)
      (· = (post.findIdx? fun p => p.2 = i).map fun k =>
        placeBehind ((pre ++ post.take k).map Prod.fst)) := by
  induction post generalizing pre fuel with
  | nil =>
      cases fuel with
      | zero => exact .inr ⟨rfl, Nat.not_lt_zero _⟩
      | succ fuel =>
          have segment := h.segment
          rw [split, List.map_append] at segment
          rw [listSearch, get_placeBehind segment]
          exact .ok rfl
  | cons p post ih =>
      cases fuel with
      | zero => exact .inr ⟨rfl, Nat.not_lt_zero _⟩
      | succ fuel =>
          have segment := h.segment
          rw [split, List.map_append] at segment
          rw [listSearch, get_placeBehind segment]
          show Ends _ (follow p.1 m >>= _) _
          rw [h.follow_ok split, List.findIdx?_cons]
          show Ends _ (if p.2 = i then _ else _) _
          by_cases here : p.2 = i
          · rw [if_pos here, if_pos (by simpa using here)]
            exact .ok (by simp)
          · rw [if_neg here, if_neg (by simpa using here)]
            have rest {n : ℕ} := @ih n (pre ++ [p]) (by rw [split, List.append_assoc]; rfl)
            simp only [List.map_append, List.map_singleton, placeBehind_concat] at rest
            refine (rest.of_imp Nat.lt_of_succ_lt_succ).mono fun r found => ?_
            rw [found, Option.map_map]
            congr 1
            funext k
            simp

/-- The first place where a number is. -/
theorem IsList.search_ends (h : IsList m l) (i : ℤ) :
    Ends (l.nodes.length < fuel) (listSearch fuel .root i m)
      (· = (l.nodes.findIdx? fun p => p.2 = i).map fun k =>
        placeBehind ((l.nodes.take k).map Prod.fst)) :=
  h.search_from (List.nil_append _).symm i

theorem IsList.printNodes_ends {pre post : List (ℕ × ℤ)} (h : IsList m l)
    (split : l.nodes = pre ++ post) (more : List Line) :
    Ends (post.length < fuel)
      (printNodes fuel (post.map Prod.fst).head? { m with printed := more })
      (· = { m with printed := more ++ lines post }) := by
  induction post generalizing pre fuel more with
  | nil =>
      cases fuel with
      | zero => exact .inr ⟨rfl, Nat.not_lt_zero _⟩
      | succ fuel => exact .ok (by rw [lines, List.append_nil])
  | cons p post ih =>
      cases fuel with
      | zero => exact .inr ⟨rfl, Nat.not_lt_zero _⟩
      | succ fuel =>
          have followed : follow p.1 { m with printed := more } = _ := h.follow_ok split
          rw [List.map_cons, List.head?_cons, printNodes, followed, lines]
          have later : l.nodes = pre ++ [p] ++ post := by rw [split, List.append_assoc]; rfl
          have rest {n : ℕ} := @ih n (pre ++ [p]) later
            (more ++ [.print p.1 (post.head?.map Prod.fst) p.2])
          simp only [List.head?_map, List.append_assoc, List.singleton_append] at rest
          exact rest.of_imp Nat.lt_of_succ_lt_succ

theorem IsList.print_ends {p : Option ℕ} (h : IsList m l)
    (start : p = (l.nodes.map Prod.fst).head?) :
    Ends (l.nodes.length < fuel) (listPrint fuel p m) (· =
      { m with printed := m.printed ++ if l.nodes = [] then [.empty] else lines l.nodes }) := by
  rw [listPrint, start]
  cases nodes : l.nodes with
  | nil =>
      have rest := @IsList.printNodes_ends _ _ fuel _ _ h (List.append_nil _).symm
        (m.printed ++ [.empty])
      rw [lines, List.append_nil] at rest
      exact rest
  | cons p post => exact h.printNodes_ends (nodes.trans (List.nil_append _).symm) m.printed

/-- A call does to the list in memory what it does to the numbers. -/
theorem IsList.call (h : IsList m l) (allowed : c.Allowed l) :
    Agrees (l.nodes.length < fuel) IsList (c.run fuel m) (l.call c) := by
  have addresses : (l.nodes.map Prod.fst).length = l.nodes.length := List.length_map _
  cases c with
  | add k i n =>
      rw [Numbers.call]
      split
      · rename_i fits
        have there : place k m = .ok (placeBehind ((l.nodes.take k).map Prod.fst)) := by
          rw [List.map_take]
          exact place_ok h.segment (by rwa [addresses])
        rw [Call.run, there]
        cases n with
        | none => exact .ok h
        | some new =>
            obtain ⟨m', added, isList⟩ :=
              h.add_ok (List.take_append_drop k l.nodes).symm (allowed new rfl) i new.2
            show Ends _ (listAdd _ i (some (new.1, new.2)) m >>= _) _
            rw [added]
            refine .ok ?_
            rw [Numbers.insert, insertIdx_eq fits]
            exact isList
      · rename_i long
        rw [Call.run, place_fault h.segment (by omega)]
        exact .inl rfl
  | remove k =>
      rw [Numbers.call]
      split
      · rename_i fits
        rw [Call.run, place_ok h.segment (by rwa [addresses]), ← List.map_take]
        exact h.remove_place fits
      · rename_i long
        rw [Call.run, place_fault h.segment (by omega)]
        exact .inl rfl
  | removeFound i =>
      -- For a number that is not found there is no place, and `list_remove` does not ask.
      have searched : Ends _ (listSearch fuel .root i m) _ := h.search_ends i
      rw [Numbers.call]
      cases found : l.nodes.findIdx? fun p => p.2 = i with
      | none =>
          rw [found] at searched
          obtain ⟨p, ends, rfl⟩ | ⟨unfinished, short⟩ := searched
          · rw [Call.run, ends]
            exact .inl rfl
          · rw [Call.run, unfinished]
            exact .inr ⟨rfl, short⟩
      | some k =>
          rw [found] at searched
          refine searched.bind fun p place => ?_
          rw [place]
          exact h.remove_place (Nat.le_of_lt (List.findIdx?_eq_some_iff_getElem.mp found).1)
  | print =>
      refine (h.print_ends h.segment.head).mono fun m' printed => ?_
      rw [printed]
      exact ⟨h.segment, h.distinct, h.numbers, h.allocated, h.freed, by rw [h.printed]⟩

/-- **A list that is changed at places.**  In every run of calls the list in memory, what is printed
and what is freed is that of the list of numbers, into which numbers are inserted and from which
they are removed at positions.  Just the calls fault that go beyond the last place or remove a
number that is not there. -/
theorem places_runAll_refines {cs : List Call} (h : IsList m l)
    (allowed : Along Numbers.call Call.Allowed l cs) :
    Agrees (l.nodes.length + cs.length ≤ fuel) IsList (runAll (Call.run fuel) cs m)
      (exec Numbers.call l cs) := by
  refine runAll_agrees (fun l => l.nodes.length) (fun m l c => IsList.call) ?_ h allowed
  intro l c l' allowed result
  have erase (k : ℕ) : (l.erase k).nodes.length ≤ l.nodes.length + 1 :=
    Nat.le_succ_of_le (List.eraseIdx_sublist ..).length_le
  cases c with
  | add k i n =>
      rw [Numbers.call] at result
      split at result
      · cases result
        cases n with
        | none => exact Nat.le_succ _
        | some new => exact List.length_insertIdx_le_succ
      · cases result
  | remove k =>
      rw [Numbers.call] at result
      split at result
      · cases result
        exact erase k
      · cases result
  | removeFound i =>
      obtain ⟨k, -, rfl⟩ := Option.map_eq_some_iff.mp result
      exact erase k
  | print =>
      cases result
      exact Nat.le_succ _

/-- The calls of the test program, and one more that finds nothing to remove. -/
def testCalls : List Call :=
  [.add 0 0 (some (10, ⟨7, none⟩)), .add 0 1 (some (11, ⟨7, none⟩)),
    .add 0 2 (some (12, ⟨7, none⟩)), .add 0 3 (some (13, ⟨7, none⟩)),
    .add 0 4 (some (14, ⟨7, none⟩)), .print, .remove 0, .remove 1,
    .removeFound 1, .remove 1, .remove 0, .print, .removeFound 5]

theorem allowed_testCalls : Along Numbers.call Call.Allowed {} testCalls := by
  simp [testCalls, Along, Numbers.call, Numbers.insert, Numbers.erase, Call.Allowed]

theorem places_runAll_refines_testCalls :
    Agrees (0 + 13 ≤ 13) IsList (runAll (Call.run 13) testCalls {})
      (exec Numbers.call {} testCalls) :=
  places_runAll_refines isList_nil allowed_testCalls

end Calls

end Cjunk.Llist
