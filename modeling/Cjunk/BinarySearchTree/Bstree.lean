import Cjunk.Lib.Refinement
import Cjunk.Lib.SearchTree
import Mathlib.Logic.Function.Basic

/-!
# Binary search trees in memory

`bstree.c`: a tree of nodes with pointers to data, ordered by a comparison function of the caller.
A node is allocated for each datum that `bstree_add` gets, and if the tree has a datum already that
compares as equal, the node is neither put in nor freed.

## Main results

* `bstree_runAll_refines` — in every run of `bstree_add`, `bstree_search` and `bstree_walk` the
  tree answers as the list of the data that were taken does
* `bstreeFree_releases` — `bstree_free` after a run frees each node of the tree once and reads
  none after that, and just the nodes that `bstree_add` has lost are left
-/

namespace Cjunk.Bstree

open WhileLoop Run Refinement SearchTree

variable {α : Type}

/-! ## The functions -/

/-- `struct bstree_node` -/
structure Node (α : Type) where
  data : α
  left : Option ℕ
  right : Option ℕ

abbrev Heap (α : Type) := ℕ → Option (Node α)

/-- The pointer that `dn` points to: `&node->right` for a positive `d`, else `&node->left`. -/
def Node.dn (node : Node α) (d : ℤ) : Option ℕ := if 0 < d then node.right else node.left

/-- The node when `*dn` is `p`. -/
def Node.setDn (node : Node α) (d : ℤ) (p : Option ℕ) : Node α :=
  if 0 < d then { node with right := p } else { node with left := p }

/-- What the caller sees of the calls: what they return, the data that `action` gets, and the
nodes that are freed. -/
inductive Event (α : Type) where
  | added (result : ℤ)
  | found (result : Option α)
  | action (data : α)
  | free (node : ℕ)
  deriving DecidableEq

/-- The memory, with the pointer to the root that the caller keeps. -/
structure Memory (α : Type) where
  heap : Heap α := fun _ => none
  root : Option ℕ := none
  trace : List (Event α) := []

/-- What `malloc` returns: a node with something or other in it, or `NULL`. -/
abbrev Allocation (α : Type) := Option (ℕ × Node α)

/-- The node at an address. -/
def follow (heap : Heap α) (a : ℕ) : Except Stop (Node α) :=
  match heap a with
  | none => .error .fault
  | some node => .ok node

/-- `alloc_bstree_node`; it aborts without memory. -/
def allocBstreeNode (r : Allocation α) : Except Stop (ℕ × Node α) :=
  match r with
  | none => .error .exit
  | some new => .ok new

section Functions

variable (cmp : α → α → ℤ)

/-- `bstree_insert`: what it returns, and the memory. -/
def bstreeInsert : ℕ → Heap α → ℕ → ℕ → Except Stop (ℤ × Heap α)
  | 0, _, _, _ => .error .unfinished
  | fuel + 1, heap, treeNode, node => do
      let new ← follow heap node
      let here ← follow heap treeNode
      let d := cmp new.data here.data
      if d = 0 then
        return (-1, heap)
      else
        match here.dn d with
        | none =>
            let heap := Function.update heap treeNode (some (here.setDn d (some node)))
            return (0, Function.update heap node (some { new with left := none, right := none }))
        | some next => bstreeInsert fuel heap next node

/-- `bstree_add`. -/
def bstreeAdd (fuel : ℕ) (data : Option α) (node : Allocation α) (m : Memory α) :
    Except Stop (ℤ × Memory α) :=
  match data with
  | none => .ok (-1, m)
  | some data => do
      let (node, contents) ← allocBstreeNode node
      let new := { contents with data := data }
      match m.root with
      | none =>
          let new := { new with left := none, right := none }
          return (0, { m with heap := Function.update m.heap node (some new), root := some node })
      | some root => do
          let (r, heap) ← bstreeInsert cmp fuel (Function.update m.heap node (some new)) root node
          return (r, { m with heap := heap })

/-- `bstree_search_recursive`. -/
def bstreeSearchRecursive : ℕ → Heap α → ℕ → α → Except Stop (Option α)
  | 0, _, _, _ => .error .unfinished
  | fuel + 1, heap, treeNode, needle => do
      let here ← follow heap treeNode
      let d := cmp needle here.data
      if d = 0 then
        return some here.data
      else
        match here.dn d with
        | none => return none
        | some next => bstreeSearchRecursive fuel heap next needle

/-- `bstree_search`. -/
def bstreeSearch (fuel : ℕ) (needle : α) (m : Memory α) : Except Stop (Option α) :=
  match m.root with
  | none => .ok none
  | some root => bstreeSearchRecursive cmp fuel m.heap root needle

end Functions

/-- Something is seen. -/
def Memory.log (m : Memory α) (e : Event α) : Memory α := { m with trace := m.trace ++ [e] }

/-- `bstree_walk`. -/
def bstreeWalk : ℕ → Option ℕ → Memory α → Except Stop (Memory α)
  | 0, _, _ => .error .unfinished
  | _ + 1, none, m => .ok m
  | fuel + 1, some node, m => do
      let here ← follow m.heap node
      let m := m.log (.action here.data)
      let here ← follow m.heap node
      let m ← bstreeWalk fuel here.left m
      let here ← follow m.heap node
      bstreeWalk fuel here.right m

/-- `free` -/
def free (node : ℕ) (m : Memory α) : Except Stop (Memory α) := do
  let _ ← follow m.heap node
  return { m with
    heap := Function.update m.heap node none
    trace := m.trace ++ [.free node] }

/-- `bstree_free`, with an `action` that is not `NULL` or without one. -/
def bstreeFree (action : Bool) : ℕ → Option ℕ → Memory α → Except Stop (Memory α)
  | 0, _, _ => .error .unfinished
  | _ + 1, none, m => .ok m
  | fuel + 1, some node, m => do
      let here ← follow m.heap node
      let m := if action then m.log (.action here.data) else m
      let m ← bstreeFree action fuel here.left m
      let here ← follow m.heap node
      let m ← bstreeFree action fuel here.right m
      free node m

/-! ## Trees in memory -/

/-- The memory has a tree of nodes with their data at `p`. -/
def Shape (heap : Heap α) : Option ℕ → BinaryTree (ℕ × α) → Prop
  | p, .nil => p = none
  | p, .node q l r =>
      p = some q.1 ∧ ∃ left right, heap q.1 = some ⟨q.2, left, right⟩ ∧ Shape heap left l ∧
        Shape heap right r

/-- The addresses of a tree. -/
abbrev nodes (t : BinaryTree (ℕ × α)) : List ℕ := (preorder t).map Prod.fst

section Trees

variable {heap heap' : Heap α} {p : Option ℕ} {a n fuel : ℕ} {t l r : BinaryTree (ℕ × α)}
  {q : ℕ × α} {new : Node α} {m : Memory α} {c : Compare α}

theorem Shape.eq_nil (h : Shape heap none t) : t = .nil := by
  cases t with
  | nil => rfl
  | node q l r => cases h.1

/-- A tree is where it was if its nodes are not written. -/
theorem Shape.congr (h : Shape heap p t) (same : ∀ a ∈ nodes t, heap' a = heap a) :
    Shape heap' p t := by
  induction t generalizing p with
  | nil => exact h
  | node q l r ihl ihr =>
      obtain ⟨here, left, right, stored, onLeft, onRight⟩ := h
      simp only [nodes, preorder, List.map_cons, List.map_append, List.forall_mem_cons,
        List.forall_mem_append] at same
      obtain ⟨root, inLeft, inRight⟩ := same
      exact ⟨here, left, right, root.trans stored, ihl onLeft inLeft, ihr onRight inRight⟩

theorem follow_ok (stored : heap a = some new) : follow heap a = .ok new := by
  rw [follow, stored]

/-- The nodes of a tree are those of its root and its subtrees, which differ. -/
theorem nodup_node (distinct : (nodes (.node q l r)).Nodup) :
    q.1 ∉ nodes l ∧ q.1 ∉ nodes r ∧ (∀ a ∈ nodes l, a ∉ nodes r) ∧ (nodes l).Nodup ∧
      (nodes r).Nodup := by
  rw [nodes, preorder, List.map_cons, List.map_append, List.nodup_cons, List.nodup_append,
    List.mem_append, not_or] at distinct
  obtain ⟨⟨offLeft, offRight⟩, left, right, apart⟩ := distinct
  exact ⟨offLeft, offRight, fun a mem mem' => apart a mem a mem' rfl, left, right⟩

theorem Shape.search_ends (h : Shape heap (some a) t) (needle : α) :
    Ends (t.numNodes ≤ fuel) (bstreeSearchRecursive c.cmp fuel heap a needle)
      (· = (find c Prod.snd needle t).map Prod.snd) := by
  induction t generalizing a fuel with
  | nil => cases h
  | node q l r ihl ihr =>
      obtain ⟨here, left, right, stored, onLeft, onRight⟩ := h
      obtain rfl : a = q.1 := Option.some.inj here
      rw [BinaryTree.numNodes]
      cases fuel with
      | zero => exact .inr ⟨rfl, by omega⟩
      | succ fuel =>
          rw [bstreeSearchRecursive, follow_ok stored, find]
          show Ends _ (if c.cmp needle q.2 = 0 then _ else _) _
          split
          · exact .ok rfl
          · by_cases up : 0 < c.cmp needle q.2
            · simp only [Node.dn, if_pos up]
              cases right with
              | none =>
                  rw [onRight.eq_nil]
                  exact .ok rfl
              | some b => exact (ihr onRight).of_imp fun fits => by omega
            · simp only [Node.dn, if_neg up]
              cases left with
              | none =>
                  rw [onLeft.eq_nil]
                  exact .ok rfl
              | some b => exact (ihl onLeft).of_imp fun fits => by omega

/-- What `bstree_insert` does to a tree: it puts the new node in, or leaves all as it is. -/
def Inserted (c : Compare α) (heap : Heap α) (a n : ℕ) (x : α) (t : BinaryTree (ℕ × α))
    (result : ℤ × Heap α) : Prop :=
  if (find c Prod.snd x t).isSome then
    result = (-1, heap)
  else
    result.1 = 0 ∧ Shape result.2 (some a) (insert c Prod.snd (n, x) t) ∧
      (∀ b, (result.2 b).isSome = (heap b).isSome) ∧
      ∀ b, b ∉ nodes t → b ≠ n → result.2 b = heap b

theorem mem_nodes {b : ℕ} : b ∈ nodes (.node q l r) ↔ b = q.1 ∨ b ∈ nodes l ∨ b ∈ nodes r := by
  simp only [nodes, preorder, List.map_cons, List.map_append, List.mem_cons, List.mem_append]

/-- The new node is put at a pointer of the root, or in the tree that is there already. -/
theorem insert_at {sub : BinaryTree (ℕ × α)} (setChild : Option ℕ → Node α)
    (stored : heap n = some new) (storedHere : heap a = some (setChild p))
    (below : Shape heap p sub) (other : n ≠ a) (off : a ∉ nodes sub) (root : a ∈ nodes t)
    (part : ∀ b, b ∉ nodes t → b ∉ nodes sub)
    (finds : find c Prod.snd new.data t = find c Prod.snd new.data sub)
    (shape : ∀ heap' p', heap' a = some (setChild p') →
      Shape heap' p' (insert c Prod.snd (n, new.data) sub) →
      (∀ b, b ∉ nodes sub → b ≠ a → b ≠ n → heap' b = heap b) →
      Shape heap' (some a) (insert c Prod.snd (n, new.data) t))
    (ih : ∀ b, Shape heap (some b) sub →
      Ends (sub.numNodes ≤ fuel) (bstreeInsert c.cmp fuel heap b n)
        (Inserted c heap b n new.data sub)) :
    Ends (sub.numNodes ≤ fuel)
      (match p with
        | none => .ok (0, Function.update (Function.update heap a (some (setChild (some n)))) n
            (some { new with left := none, right := none }))
        | some next => bstreeInsert c.cmp fuel heap next n : Except Stop (ℤ × Heap α))
      (Inserted c heap a n new.data t) := by
  cases p with
  | none =>
      obtain rfl := below.eq_nil
      have rest (b : ℕ) (offRoot : b ≠ a) (offNew : b ≠ n) :
          Function.update (Function.update heap a (some (setChild (some n)))) n
            (some { new with left := none, right := none }) b = heap b := by
        rw [Function.update_of_ne offNew, Function.update_of_ne offRoot]
      have allocated (b : ℕ) :
          (Function.update (Function.update heap a (some (setChild (some n)))) n
            (some { new with left := none, right := none }) b).isSome = (heap b).isSome := by
        by_cases atNew : b = n
        · rw [atNew, stored, Function.update_self]
          rfl
        · by_cases atRoot : b = a
          · rw [Function.update_of_ne atNew, atRoot, storedHere, Function.update_self]
            rfl
          · rw [rest b atRoot atNew]
      refine .ok ?_
      unfold Inserted
      rw [finds]
      refine ⟨rfl, shape _ (some n) ?_ ⟨rfl, none, none, Function.update_self .., rfl, rfl⟩
        fun b _ => rest b, allocated, fun b off offNew => ?_⟩
      · exact (Function.update_of_ne other.symm ..).trans (Function.update_self ..)
      · exact rest b (ne_of_mem_of_not_mem root off).symm offNew
  | some b =>
      refine (ih b below).mono fun result put => ?_
      unfold Inserted at put ⊢
      rw [finds]
      split
      · rwa [if_pos ‹_›] at put
      · rw [if_neg ‹_›] at put
        obtain ⟨zero, inSub, allocated, rest⟩ := put
        refine ⟨zero, shape _ (some b) ?_ inSub fun b off _ => rest b off, allocated,
          fun b off => rest b (part b off)⟩
        exact (rest a off other.symm).trans storedHere

theorem Shape.insert_ends (h : Shape heap (some a) t) (stored : heap n = some new)
    (fresh : n ∉ nodes t) (distinct : (nodes t).Nodup) :
    Ends (t.numNodes ≤ fuel) (bstreeInsert c.cmp fuel heap a n)
      (Inserted c heap a n new.data t) := by
  induction t generalizing a fuel with
  | nil => cases h
  | node q l r ihl ihr =>
      obtain ⟨here, left, right, storedHere, onLeft, onRight⟩ := h
      obtain rfl : a = q.1 := Option.some.inj here
      obtain ⟨offLeft, offRight, apart, distinctLeft, distinctRight⟩ := nodup_node distinct
      rw [mem_nodes, not_or, not_or] at fresh
      obtain ⟨other, freshLeft, freshRight⟩ := fresh
      have root : q.1 ∈ nodes (.node q l r) := mem_nodes.mpr (.inl rfl)
      rw [BinaryTree.numNodes]
      cases fuel with
      | zero => exact .inr ⟨rfl, by omega⟩
      | succ fuel =>
          rw [bstreeInsert, follow_ok stored, follow_ok storedHere]
          show Ends _ (if c.cmp new.data q.2 = 0 then _ else _) _
          split
          · have same : c.cmp new.data q.2 = 0 := ‹_›
            refine .ok ?_
            unfold Inserted
            rw [find, if_pos same]
            rfl
          · have ways : ¬ c.cmp new.data q.2 = 0 := ‹_›
            -- One of the subtrees takes the new node, and the other is not written.
            by_cases up : 0 < c.cmp new.data q.2
            · simp only [Node.dn, Node.setDn, if_pos up]
              have inRight : Ends (r.numNodes ≤ fuel) _ (Inserted c heap q.1 n new.data _) :=
                insert_at (fun p => ⟨q.2, left, p⟩) stored storedHere onRight other offRight root
                  (fun b off => (not_or.mp (not_or.mp (mt mem_nodes.mpr off)).2).2)
                  (by rw [find, if_neg ways, if_pos up])
                  (fun heap' p' atRoot below rest => by
                    rw [SearchTree.insert, if_neg ways, if_pos up]
                    refine ⟨rfl, left, p', atRoot, onLeft.congr fun b mem => ?_, below⟩
                    exact rest b (apart b mem) (ne_of_mem_of_not_mem mem offLeft)
                      (ne_of_mem_of_not_mem mem freshLeft))
                  fun b onRight => ihr onRight freshRight distinctRight
              exact inRight.of_imp (by omega)
            · simp only [Node.dn, Node.setDn, if_neg up]
              have inLeft : Ends (l.numNodes ≤ fuel) _ (Inserted c heap q.1 n new.data _) :=
                insert_at (fun p => ⟨q.2, p, right⟩) stored storedHere onLeft other offLeft root
                  (fun b off => (not_or.mp (not_or.mp (mt mem_nodes.mpr off)).2).1)
                  (by rw [find, if_neg ways, if_neg up])
                  (fun heap' p' atRoot below rest => by
                    rw [SearchTree.insert, if_neg ways, if_neg up]
                    refine ⟨rfl, p', right, atRoot, below, onRight.congr fun b mem => ?_⟩
                    exact rest b (fun mem' => apart b mem' mem) (ne_of_mem_of_not_mem mem offRight)
                      (ne_of_mem_of_not_mem mem freshRight))
                  fun b onLeft => ihl onLeft freshLeft distinctLeft
              exact inLeft.of_imp (by omega)

theorem Shape.walk_ends (h : Shape m.heap p t) :
    Ends (t.numNodes < fuel) (bstreeWalk fuel p m)
      (· = { m with trace := m.trace ++ (preorder t).map (Event.action ·.2) }) := by
  induction t generalizing p fuel m with
  | nil =>
      obtain rfl : p = none := h
      cases fuel with
      | zero => exact .inr ⟨rfl, Nat.not_lt_zero _⟩
      | succ fuel => exact .ok (by simp [preorder])
  | node q l r ihl ihr =>
      obtain ⟨rfl, left, right, stored, onLeft, onRight⟩ := h
      rw [BinaryTree.numNodes]
      cases fuel with
      | zero => exact .inr ⟨rfl, Nat.not_lt_zero _⟩
      | succ fuel =>
          rw [bstreeWalk, follow_ok stored]
          show Ends _ (follow m.heap q.1 >>= _) _
          rw [follow_ok stored]
          have first : Ends (l.numNodes < fuel)
              (bstreeWalk fuel left (m.log (.action q.2))) _ := ihl onLeft
          refine (first.of_imp (by omega)).bind fun m₁ seen => ?_
          have heap : m₁.heap = m.heap := by
            rw [seen]
            rfl
          rw [heap, follow_ok stored]
          have second : Ends (r.numNodes < fuel) (bstreeWalk fuel right m₁) _ :=
            ihr (by rwa [heap])
          refine (second.of_imp (by omega)).mono fun m' seen' => ?_
          rw [seen', seen]
          simp [Memory.log, preorder]

/-- What is seen when a tree is freed. -/
def teardown (action : Bool) : BinaryTree (ℕ × α) → List (Event α)
  | .nil => []
  | .node q l r =>
      (if action then [.action q.2] else []) ++ teardown action l ++ teardown action r ++
        [.free q.1]

/-- The nodes are freed, and the rest of the memory is as it was. -/
structure Freed (action : Bool) (t : BinaryTree (ℕ × α)) (m m' : Memory α) : Prop where
  gone : ∀ a ∈ nodes t, m'.heap a = none
  kept : ∀ a, a ∉ nodes t → m'.heap a = m.heap a
  trace : m'.trace = m.trace ++ teardown action t

theorem Shape.free_ends {action : Bool} (h : Shape m.heap p t) (distinct : (nodes t).Nodup) :
    Ends (t.numNodes < fuel) (bstreeFree action fuel p m) (Freed action t m) := by
  induction t generalizing p fuel m with
  | nil =>
      obtain rfl : p = none := h
      cases fuel with
      | zero => exact .inr ⟨rfl, Nat.not_lt_zero _⟩
      | succ fuel => exact .ok ⟨nofun, fun a _ => rfl, (List.append_nil _).symm⟩
  | node q l r ihl ihr =>
      obtain ⟨rfl, left, right, stored, onLeft, onRight⟩ := h
      obtain ⟨offLeft, offRight, apart, distinctLeft, distinctRight⟩ := nodup_node distinct
      rw [BinaryTree.numNodes]
      cases fuel with
      | zero => exact .inr ⟨rfl, Nat.not_lt_zero _⟩
      | succ fuel =>
          rw [bstreeFree, follow_ok stored]
          show Ends _ (bstreeFree action fuel left
            (if action then m.log (.action q.2) else m) >>= _) _
          -- The action gets the datum before anything is freed.
          obtain ⟨m₁, eq, heap, trace⟩ : ∃ m₁, (if action then m.log (.action q.2) else m) = m₁ ∧
              m₁.heap = m.heap ∧
              m₁.trace = m.trace ++ (if action then [.action q.2] else []) := by
            refine ⟨_, rfl, ?_⟩
            cases action
            · exact ⟨rfl, (List.append_nil _).symm⟩
            · exact ⟨rfl, rfl⟩
          rw [eq]
          rw [← heap] at onLeft onRight stored
          refine Ends.bind ((ihl onLeft distinctLeft).of_imp (by omega)) fun m₂ freed => ?_
          rw [follow_ok ((freed.kept q.1 offLeft).trans stored)]
          have second : Ends (r.numNodes < fuel) (bstreeFree action fuel right m₂) _ :=
            ihr (onRight.congr fun a mem => freed.kept a fun mem' => apart a mem' mem) distinctRight
          refine (second.of_imp (by omega)).bind fun m₃ freed' => ?_
          -- The node outlives its subtrees.
          have root : m₃.heap q.1 = some ⟨q.2, left, right⟩ := by
            rw [freed'.kept q.1 offRight, freed.kept q.1 offLeft, stored]
          rw [free, follow_ok root]
          refine .ok ⟨fun a mem => ?_, fun a off => ?_, ?_⟩
          · by_cases here : a = q.1
            · rw [here]
              exact Function.update_self ..
            · refine (Function.update_of_ne here ..).trans ?_
              obtain rfl | inLeft | inRight := mem_nodes.mp mem
              · exact absurd rfl here
              · rw [freed'.kept a (apart a inLeft), freed.gone a inLeft]
              · exact freed'.gone a inRight
          · rw [mem_nodes, not_or, not_or] at off
            refine (Function.update_of_ne off.1 ..).trans ?_
            rw [freed'.kept a off.2.2, freed.kept a off.2.1, heap]
          · simp [freed'.trace, freed.trace, trace, teardown]

end Trees

/-! ## Runs -/

inductive Call (α : Type) where
  | add (data : Option α) (node : Allocation α)
  | search (needle : α)
  | walk

/-- A call, and what it returns is seen. -/
def Call.run (cmp : α → α → ℤ) (fuel : ℕ) : Call α → Memory α → Except Stop (Memory α)
  | .add data node, m => do
      let (r, m) ← bstreeAdd cmp fuel data node m
      return m.log (.added r)
  | .search needle, m => do
      let r ← bstreeSearch cmp fuel needle m
      return m.log (.found r)
  | .walk, m => bstreeWalk fuel m.root m

/-- What the calls are about: the data that were taken with their nodes, the first one first, the
nodes that were lost, and what was seen. -/
structure Content (α : Type) where
  taken : List (ℕ × α) := []
  lost : List ℕ := []
  trace : List (Event α) := []

/-- The addresses in use. -/
abbrev Content.inUse (l : Content α) : List ℕ := l.taken.map Prod.fst ++ l.lost

/-- What a call does.  The order of a walk is that of the tree that the data were put in. -/
def Content.call (c : Compare α) (l : Content α) : Call α → Content α
  | .add (some x) (some new) =>
      if (l.taken.find? fun q => c.cmp x q.2 = 0).isSome then
        { l with lost := l.lost ++ [new.1], trace := l.trace ++ [.added (-1)] }
      else
        { l with taken := l.taken ++ [(new.1, x)], trace := l.trace ++ [.added 0] }
  | .add (some _) none => l -- the program aborts
  | .add none _ => { l with trace := l.trace ++ [.added (-1)] }
  | .search needle =>
      let q := l.taken.find? fun q => c.cmp needle q.2 = 0
      { l with trace := l.trace ++ [.found (q.map Prod.snd)] }
  | .walk =>
      let seen := (preorder (ofList c Prod.snd l.taken)).map (Event.action ·.2)
      { l with trace := l.trace ++ seen }

/-- `malloc` gives an address that is not in use. -/
def Call.Allowed (l : Content α) : Call α → Prop
  | .add (some _) node => ∃ new ∈ node, new.1 ∉ l.inUse
  | .add none _ | .search _ | .walk => True

/-- The memory holds the tree of the data that were taken, and the nodes that were lost. -/
structure Holds (c : Compare α) (m : Memory α) (l : Content α) : Prop where
  shape : Shape m.heap m.root (ofList c Prod.snd l.taken)
  perm : (preorder (ofList c Prod.snd l.taken)).Perm l.taken
  distinct : l.inUse.Nodup
  allocated : ∀ a, (m.heap a).isSome ↔ a ∈ l.inUse
  trace : m.trace = l.trace

section Calls

variable {c : Compare α} {m : Memory α} {l : Content α} {fuel : ℕ} {cs : List (Call α)}

theorem holds_nil (c : Compare α) : Holds c {} {} :=
  ⟨rfl, .nil, .nil, fun _ => ⟨nofun, nofun⟩, rfl⟩

namespace Holds

variable (h : Holds c m l)

include h

theorem numNodes : (ofList c Prod.snd l.taken).numNodes = l.taken.length := by
  rw [← length_preorder, h.perm.length_eq]

theorem mem_nodes {a : ℕ} : a ∈ nodes (ofList c Prod.snd l.taken) ↔ a ∈ l.taken.map Prod.fst :=
  (h.perm.map Prod.fst).mem_iff

theorem nodup_nodes : (nodes (ofList c Prod.snd l.taken)).Nodup :=
  (h.perm.map Prod.fst).nodup_iff.mpr (List.nodup_append.mp h.distinct).1

theorem find (needle : α) : find c Prod.snd needle (ofList c Prod.snd l.taken) =
    l.taken.find? fun q => c.cmp needle q.2 = 0 :=
  find_ofList h.perm needle

theorem log (e : Event α) : Holds c (m.log e) { l with trace := l.trace ++ [e] } :=
  ⟨h.shape, h.perm, h.distinct, h.allocated, congrArg (· ++ [e]) h.trace⟩

/-- The memory when `malloc` has given a node. -/
theorem allocated_update {a : ℕ} (node : Node α) (b : ℕ) :
    (Function.update m.heap a (some node) b).isSome ↔ b ∈ l.inUse ∨ b = a := by
  by_cases new : b = a
  · simp [new]
  · rw [Function.update_of_ne new, h.allocated]
    exact (or_iff_left new).symm

/-- What becomes of a datum that `bstree_add` gets. -/
theorem add_ends {a : ℕ} (x : α) (contents : Node α) (unused : a ∉ l.inUse) :
    Ends (l.taken.length ≤ fuel) (bstreeAdd c.cmp fuel (some x) (some (a, contents)) m)
      fun result =>
        if (l.taken.find? fun q => c.cmp x q.2 = 0).isSome then
          result.1 = -1 ∧ Holds c result.2 { l with lost := l.lost ++ [a] }
        else result.1 = 0 ∧ Holds c result.2 { l with taken := l.taken ++ [(a, x)] } := by
  obtain ⟨offTaken, offLost⟩ := not_or.mp (mt List.mem_append.mpr unused)
  have offTree := mt h.mem_nodes.mp offTaken
  have apart : (l.inUse ++ [a]).Nodup :=
    (List.perm_append_singleton a l.inUse).nodup_iff.mpr (List.nodup_cons.mpr ⟨unused, h.distinct⟩)
  have reordered : ((l.taken ++ [(a, x)]).map Prod.fst ++ l.lost).Perm (l.inUse ++ [a]) := by
    rw [List.map_append, List.append_assoc, List.append_assoc]
    exact List.perm_append_comm.append_left _
  have lost : Content.inUse { l with lost := l.lost ++ [a] } = l.inUse ++ [a] :=
    (List.append_assoc ..).symm
  -- the tree and the addresses when the datum is taken
  have taken {m' : Memory α} (absent : (l.taken.find? fun q => c.cmp x q.2 = 0) = none)
      (shape : Shape m'.heap m'.root (insert c Prod.snd (a, x) (ofList c Prod.snd l.taken)))
      (allocated : ∀ b, (m'.heap b).isSome ↔ b ∈ l.inUse ∨ b = a) (trace : m'.trace = m.trace) :
      Holds c m' { l with taken := l.taken ++ [(a, x)] } := by
    refine ⟨by rwa [ofList_append], perm_ofList_append h.perm absent,
      reordered.nodup_iff.mpr apart, fun b => ?_, trace.trans h.trace⟩
    rw [allocated, reordered.mem_iff, List.mem_append (s := l.inUse), List.mem_singleton]
  have fuelled := h.numNodes
  have shape := h.shape
  unfold bstreeAdd
  cases root : m.root with
  | none =>
      rw [root] at shape
      have empty : l.taken = [] := by
        rw [← List.length_eq_zero_iff, ← fuelled, shape.eq_nil]
        rfl
      have absent : (l.taken.find? fun q => c.cmp x q.2 = 0) = none := by
        rw [empty]
        rfl
      refine .ok ?_
      rw [absent]
      refine ⟨rfl, taken absent ?_ (h.allocated_update _) rfl⟩
      rw [shape.eq_nil]
      exact ⟨rfl, none, none, Function.update_self .., rfl, rfl⟩
  | some b =>
      rw [root] at shape
      -- The new node is written before the tree is asked for its datum.
      have before : Shape (Function.update m.heap a (some { contents with data := x })) (some b)
          (ofList c Prod.snd l.taken) :=
        shape.congr fun b mem => Function.update_of_ne (ne_of_mem_of_not_mem mem offTree) ..
      have inserted : Ends _ (bstreeInsert c.cmp fuel _ b a) _ :=
        before.insert_ends (Function.update_self ..) offTree h.nodup_nodes
      refine (inserted.of_imp fun fits => by rwa [fuelled]).bind fun result put => ?_
      obtain ⟨r, heap⟩ := result
      unfold Inserted at put
      rw [h.find] at put
      refine .ok ?_
      cases found : l.taken.find? fun q => c.cmp x q.2 = 0 with
      | none =>
          rw [found, Option.isSome_none, if_neg Bool.false_ne_true] at put
          obtain ⟨rfl, shape, same, -⟩ := put
          refine ⟨rfl, taken found shape (fun b => ?_) rfl⟩
          rw [same, h.allocated_update]
      | some q =>
          rw [found, Option.isSome_some, if_pos rfl] at put
          cases put
          refine ⟨rfl, before, h.perm, ?_, fun b => ?_, h.trace⟩
          · rwa [lost]
          · rw [h.allocated_update, lost, List.mem_append (s := l.inUse), List.mem_singleton]

/-- A call does to the tree in memory what it does to the data. -/
theorem call {call : Call α} (allowed : call.Allowed l) :
    Ends (l.taken.length < fuel) (call.run c.cmp fuel m) (Holds c · (l.call c call)) := by
  cases call with
  | add data node =>
      cases data with
      | none => exact .ok (h.log _)
      | some x =>
          obtain ⟨⟨a, contents⟩, rfl, unused⟩ := allowed
          refine ((h.add_ends x contents unused).of_imp Nat.le_of_lt).bind ?_
          rintro ⟨r, m'⟩ added
          rw [Content.call]
          cases found : l.taken.find? fun q => c.cmp x q.2 = 0 with
          | none =>
              rw [found] at added
              obtain ⟨rfl, holds⟩ := added
              exact .ok (holds.log _)
          | some q =>
              rw [found] at added
              obtain ⟨rfl, holds⟩ := added
              exact .ok (holds.log _)
  | search needle =>
      have found : Ends (l.taken.length < fuel) (bstreeSearch c.cmp fuel needle m)
          (· = (l.taken.find? fun q => c.cmp needle q.2 = 0).map Prod.snd) := by
        rw [← h.find, bstreeSearch]
        have shape := h.shape
        cases root : m.root with
        | none =>
            rw [root] at shape
            rw [shape.eq_nil]
            exact .ok rfl
        | some a =>
            rw [root] at shape
            refine (shape.search_ends needle).of_imp fun fits => ?_
            rw [h.numNodes]
            exact Nat.le_of_lt fits
      refine found.bind fun r result => ?_
      rw [result]
      exact .ok (h.log _)
  | walk =>
      refine (h.shape.walk_ends.of_imp fun fits => by rwa [h.numNodes]).mono fun m' seen => ?_
      rw [seen]
      exact ⟨h.shape, h.perm, h.distinct, h.allocated, congrArg (· ++ _) h.trace⟩

end Holds

/-- A call takes one datum at most. -/
theorem length_taken (c : Compare α) (l : Content α) (call : Call α) :
    (l.call c call).taken.length ≤ l.taken.length + 1 := by
  unfold Content.call
  split
  · split
    · exact Nat.le_succ _
    · exact Nat.le_of_eq List.length_append
  all_goals exact Nat.le_succ _

theorem length_taken_foldl (c : Compare α) (l : Content α) (cs : List (Call α)) :
    (cs.foldl (Content.call c) l).taken.length ≤ l.taken.length + cs.length := by
  induction cs generalizing l with
  | nil => exact Nat.le_refl _
  | cons call cs ih =>
      have := ih (l.call c call)
      have := length_taken c l call
      rw [List.foldl_cons, List.length_cons]
      omega

/-- Calls that are allowed. -/
abbrev Allowed (c : Compare α) (l : Content α) (cs : List (Call α)) : Prop :=
  Along (fun l call => some (l.call c call)) Call.Allowed l cs

/-- Calls do to the tree in memory what they do to the data. -/
theorem Holds.run (h : Holds c m l) (allowed : Allowed c l cs) :
    Ends (l.taken.length + cs.length ≤ fuel) (runAll (Call.run c.cmp fuel) cs m)
      (Holds c · (cs.foldl (Content.call c) l)) := by
  have calls (m : Memory α) (l : Content α) (call : Call α) (h : Holds c m l)
      (here : call.Allowed l) : Agrees (l.taken.length < fuel) (Holds c)
        (call.run c.cmp fuel m) (some (l.call c call)) := h.call here
  have runs := runAll_agrees (fun l : Content α => l.taken.length) calls ?_ h allowed
  · rwa [exec_some] at runs
  · intro l call l' here result
    cases result
    exact length_taken c l call

/-- **The tree is a set of data.**  In every run of calls `bstree_add` takes the data that are not
`NULL` and do not compare as equal to one that was taken, `bstree_search` finds the one that
compares as equal if there is one, and `bstree_walk` shows each datum that was taken once, in the
order of the tree that they were put in.  No call faults. -/
theorem bstree_runAll_refines (c : Compare α) (allowed : Allowed c {} cs) :
    Ends (cs.length ≤ fuel) (runAll (Call.run c.cmp fuel) cs {})
      (Holds c · (cs.foldl (Content.call c) {})) :=
  ((holds_nil c).run allowed).of_imp fun fits => by simpa using fits

/-- The numbers of the test program, which are compared as `my_cmp` does. -/
def myCmp : Compare (ℤ × String) where
  cmp p q := p.1 - q.1
  swap _ _ := by omega
  trans := by omega

/-- The calls of the test program, with a number that is there already. -/
def testBstree : List (Call (ℤ × String)) :=
  [.add (some (3, "three")) (some (0, ⟨(0, ""), none, none⟩)),
    .add (some (1, "one")) (some (1, ⟨(0, ""), some 0, none⟩)),
    .add (some (5, "five")) (some (2, ⟨(0, ""), none, some 7⟩)),
    .add (some (4, "four")) (some (3, ⟨(0, ""), none, none⟩)),
    .add (some (1, "uno")) (some (4, ⟨(0, ""), none, none⟩)),
    .add none none,
    .add (some (2, "two")) (some (5, ⟨(0, ""), none, none⟩)),
    .walk,
    .search (2, "")]

theorem allowed_testBstree : Allowed myCmp {} testBstree := by
  simp [testBstree, Allowed, Along, Content.call, Call.Allowed, myCmp]

theorem bstree_runAll_refines_testBstree :
    Ends (9 ≤ 9) (runAll (Call.run myCmp.cmp 9) testBstree {})
      (Holds myCmp · (testBstree.foldl (Content.call myCmp) {})) :=
  bstree_runAll_refines myCmp allowed_testBstree

/-- The node that is freed. -/
def Event.freed : Event α → Option ℕ
  | .free node => some node
  | _ => none

/-- The datum that `action` gets. -/
def Event.datum : Event α → Option α
  | .action data => some data
  | _ => none

theorem freed_teardown (action : Bool) (t : BinaryTree (ℕ × α)) :
    ((teardown action t).filterMap Event.freed).Perm (nodes t) := by
  induction t with
  | nil => exact .nil
  | node q l r ihl ihr =>
      have first : (if action then [Event.action q.2] else []).filterMap Event.freed = [] := by
        cases action <;> rfl
      rw [teardown, nodes, preorder, List.filterMap_append, List.filterMap_append,
        List.filterMap_append, first, List.nil_append, List.map_cons, List.map_append]
      exact (List.perm_append_singleton q.1 _).trans ((ihl.append ihr).cons q.1)

theorem datum_teardown (action : Bool) (t : BinaryTree (ℕ × α)) :
    (teardown action t).filterMap Event.datum =
      if action then (preorder t).map Prod.snd else [] := by
  induction t with
  | nil => cases action <;> rfl
  | node q l r ihl ihr =>
      rw [teardown, List.filterMap_append, List.filterMap_append, List.filterMap_append, ihl, ihr]
      cases action <;> simp [preorder, Event.datum]

/-- **The tree is released.**  After any run of calls `bstree_free` frees each node of the tree
once, and reads none that was freed.  If there is an `action` it gets each datum once, before the
node is freed and in the order of a walk.  Just the nodes that `bstree_add` has lost stay
allocated. -/
theorem bstreeFree_releases (c : Compare α) (action : Bool)
    (allowed : Allowed c {} cs) :
    Ends (cs.length < fuel)
      (runAll (Call.run c.cmp fuel) cs {} >>= fun m => bstreeFree action fuel m.root m) fun m =>
        let l := cs.foldl (Content.call c) {}
        (∀ a, (m.heap a).isSome ↔ a ∈ l.lost) ∧
          ∃ seen, m.trace = l.trace ++ seen ∧
            (seen.filterMap Event.freed).Perm (l.taken.map Prod.fst) ∧
            seen.filterMap Event.datum =
              if action then (preorder (ofList c Prod.snd l.taken)).map Prod.snd else [] := by
  have runs : Ends (cs.length < fuel) _ _ := ((holds_nil c).run allowed).of_imp fun fits => by
    simpa using Nat.le_of_lt fits
  refine runs.bind fun m h => ?_
  have size := length_taken_foldl c {} cs
  rw [← h.numNodes] at size
  refine ((h.shape.free_ends h.nodup_nodes).of_imp fun fits => ?_).mono fun m' freed => ?_
  · exact Nat.lt_of_le_of_lt size (by simpa using fits)
  · refine ⟨fun a => ?_, _, by rw [freed.trace, h.trace], (freed_teardown action _).trans
      (h.perm.map Prod.fst), datum_teardown action _⟩
    have apart := (List.nodup_append.mp h.distinct).2.2
    by_cases inTree : a ∈ nodes (ofList c Prod.snd (cs.foldl (Content.call c) {}).taken)
    · rw [freed.gone a inTree]
      exact ⟨nofun, fun lost => absurd rfl (apart a (h.mem_nodes.mp inTree) a lost)⟩
    · rw [freed.kept a inTree, h.allocated, List.mem_append]
      exact or_iff_right (mt h.mem_nodes.mpr inTree)

theorem bstreeFree_releases_testBstree :
    Ends (9 < 10)
      (runAll (Call.run myCmp.cmp 10) testBstree {} >>= fun m => bstreeFree true 10 m.root m)
      fun m =>
        let l := testBstree.foldl (Content.call myCmp) {}
        (∀ a, (m.heap a).isSome ↔ a ∈ l.lost) ∧
          ∃ seen, m.trace = l.trace ++ seen ∧
            (seen.filterMap Event.freed).Perm (l.taken.map Prod.fst) ∧
            seen.filterMap Event.datum =
              if true then (preorder (ofList myCmp Prod.snd l.taken)).map Prod.snd else [] :=
  bstreeFree_releases myCmp true allowed_testBstree

end Calls

end Cjunk.Bstree
