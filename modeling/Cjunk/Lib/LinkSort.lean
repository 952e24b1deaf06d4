import Mathlib.Data.Int.Notation
import Cjunk.Lib.LinkedList
import Cjunk.Lib.MergePass
import Cjunk.Lib.SinglyLinked
import Cjunk.Lib.WhileLoop

/-!
# Sorting linked nodes by merging

A merge sort from the bottom up that only relinks: a pass takes two runs of nodes at a time off
the list, and puts them in order behind the tail of a new one.

What a program has for the statements of the sort is a `Code`: how it steps along the list, how it
compares two nodes, how it puts one behind another, and how it counts.  `Lawful` says what these
statements do to the links.  The list may be circular, and then a node that leads to the head is
the last; it may be linked backwards too.

`sort_ends` is the result: whenever the sort ends, the nodes are in a list again, and it does
nothing wrong.  If they can be counted it ends, and `List.mergeSort` gives their order.
-/

namespace Cjunk.LinkSort

open SinglyLinked WhileLoop MergePass

/-! ## The sort -/

/-- The statements of a sort on memory `M`, where a null pointer is `none`. -/
structure Code (M α : Type) where
  /-- Step from a node of the list that began at `oldhead`. -/
  next : M → Option α → Option α → Except Stop (Option α)
  cmp : M → Option α → Option α → Except Stop ℤ
  /-- Put a node behind the tail, if there is one. -/
  put : M → Option α → Option α → Except Stop M
  /-- What is done to the list and its tail after a pass. -/
  close : M → Option α → Option α → Except Stop M
  /-- The value of a counter. -/
  wrap : ℤ → ℤ
  /-- `i++` -/
  up : ℤ → ℤ
  /-- `i < insize` -/
  below : ℤ → ℤ → Bool

/-- The variables of the loop that steps along. -/
structure Stepping (α : Type) where
  q : Option α
  psize : ℤ := 0
  i : ℤ := 0
  /-- The loop has been left with `break`. -/
  broken : Bool := false

/-- The variables of the loop that merges two runs. -/
structure Merging (M α : Type) where
  mem : M
  list : Option α
  tail : Option α
  p : Option α
  q : Option α
  psize : ℤ
  qsize : ℤ

/-- The variables of a pass over the list. -/
structure Passing (M α : Type) where
  mem : M
  list : Option α := none
  tail : Option α := none
  p : Option α
  nmerges : ℤ := 0

/-- The variables of the sort. -/
structure Sorting (M α : Type) where
  mem : M
  list : Option α
  tail : Option α := none
  insize : ℤ := 1
  looping : Bool := true

namespace Code

variable {M α : Type} (C : Code M α) (fuel : ℕ) (oldhead : Option α)

/-- Step `insize` places along from `p`, to `q`. -/
def stepOff (m : M) (insize : ℤ) (p : Option α) : Except Stop (Stepping α) :=
  whileLoop (fun s => .ok (!s.broken && C.below s.i insize))
    (fun s => do
      let psize := C.wrap (s.psize + 1)
      let q ← C.next m oldhead s.q
      if q.isSome then
        return { q := q, psize := psize, i := C.up s.i }
      else
        return { q := q, psize := psize, i := s.i, broken := true })
    fuel { q := p }

/-- `e = p; p = p->next; psize--;` -/
def takeP (s : Merging M α) : Except Stop (Option α × Merging M α) := do
  let p ← C.next s.mem oldhead s.p
  return (s.p, { s with p := p, psize := C.wrap (s.psize - 1) })

/-- `e = q; q = q->next; qsize--;` -/
def takeQ (s : Merging M α) : Except Stop (Option α × Merging M α) := do
  let q ← C.next s.mem oldhead s.q
  return (s.q, { s with q := q, qsize := C.wrap (s.qsize - 1) })

/-- The node `e` that comes next. -/
def choose (s : Merging M α) : Except Stop (Option α × Merging M α) := do
  if s.psize = 0 then
    C.takeQ oldhead s
  else if s.qsize = 0 ∨ s.q = none then
    C.takeP oldhead s
  else if (← C.cmp s.mem s.p s.q) ≤ 0 then
    C.takeP oldhead s
  else
    C.takeQ oldhead s

/-- `e` is put behind the tail. -/
def append (s : Merging M α) (e : Option α) : Except Stop (Merging M α) := do
  let mem ← C.put s.mem s.tail e
  return { s with mem := mem, list := if s.tail.isSome then s.list else e, tail := e }

/-- `while (psize > 0 || (qsize > 0 && q))` -/
def merge (s : Merging M α) : Except Stop (Merging M α) :=
  whileLoop (fun s => .ok (decide (s.psize > 0) || decide (s.qsize > 0) && s.q.isSome))
    (fun s => do
      let chosen ← C.choose oldhead s
      C.append chosen.2 chosen.1)
    fuel s

/-- The body of `while (p)`: two runs are merged. -/
def mergeRuns (insize : ℤ) (s : Passing M α) : Except Stop (Passing M α) := do
  let nmerges := C.wrap (s.nmerges + 1)
  let stepped ← C.stepOff fuel oldhead s.mem insize s.p
  let merged ← C.merge fuel oldhead
    { mem := s.mem, list := s.list, tail := s.tail, p := s.p, q := stepped.q,
      psize := stepped.psize, qsize := insize }
  return { mem := merged.mem, list := merged.list, tail := merged.tail, p := merged.q,
           nmerges := nmerges }

/-- The body of `while (looping)`: a pass over the list. -/
def pass (s : Sorting M α) : Except Stop (Sorting M α) := do
  let passed ← whileLoop (fun t => .ok t.p.isSome) (C.mergeRuns fuel s.list s.insize) fuel
    { mem := s.mem, p := s.list }
  let mem ← C.close passed.mem passed.list passed.tail
  let looping := if passed.nmerges ≤ 1 then false else s.looping
  return { mem := mem, list := passed.list, tail := passed.tail, insize := C.wrap (s.insize * 2),
           looping := looping }

/-- The sort of a list. -/
def sort (list : Option α) (m : M) : Except Stop (Sorting M α) := do
  if list.isSome then
    whileLoop (fun s => .ok s.looping) (C.pass fuel) fuel { mem := m, list := list }
  else
    return { mem := m, list := list }

end Code

/-! ## What the statements do -/

section Meaning

variable {M α : Type} [DecidableEq α]

/-- Where a node leads to, if the node that leads back to the head of a circular list is the
last. -/
def cut (circular : Bool) (oldhead r : Option α) : Option α :=
  if circular = true ∧ r = oldhead then none else r

/-- The links in memory, and what the statements of a sort do to them. -/
structure Lawful (C : Code M α) where
  links : M → α → Option (Option α)
  /-- The links backwards, if there are any. -/
  prevs : M → α → Option α
  le : M → α → α → Bool
  /-- What is never changed. -/
  Same : M → M → Prop
  circular : Bool
  double : Bool
  /-- What the counters stay below. -/
  limit : ℤ
  same_refl : ∀ m, Same m m
  same_trans : ∀ {m m' m''}, Same m m' → Same m' m'' → Same m m''
  same_le : ∀ {m m'}, Same m m' → le m' = le m
  next_ok : ∀ {m x r} oldhead, links m x = some r →
    C.next m oldhead (some x) = .ok (cut circular oldhead r)
  cmp_ok : ∀ {m x y}, (links m x).isSome → (links m y).isSome →
    ∃ sign, C.cmp m (some x) (some y) = .ok sign ∧ (sign ≤ 0 ↔ le m x y = true)
  put_ok : ∀ {m tail e}, (∀ t ∈ tail, (links m t).isSome) → (links m e).isSome →
    ∃ m', C.put m tail (some e) = .ok m' ∧ links m' = setLast (links m) tail (some e) ∧
      (double = true → prevs m' = Function.update (prevs m) e tail) ∧ Same m m'
  close_ok : ∀ {m x t}, (links m x).isSome → (links m t).isSome →
    ∃ m', C.close m (some x) (some t) = .ok m' ∧
      links m' = Function.update (links m) t (some (if circular then some x else none)) ∧
      (double = true → prevs m' =
        if circular then Function.update (prevs m) x (some t) else prevs m) ∧ Same m m'
  one_lt : 1 < limit
  wrap_lt : ∀ z, C.wrap z < limit
  wrap_eq : ∀ {z}, 0 ≤ z → z < limit → C.wrap z = z
  up_eq : ∀ {z}, 0 ≤ z → z + 1 < limit → C.up z = z + 1
  below_eq : ∀ i {n}, 0 ≤ n → n < limit → C.below i n = decide (i < n)

/-- Negative numbers count nothing for the loop that steps along. -/
def Code.Signed (C : Code M α) : Prop := ∀ i n, C.below i n = decide (i < n)

variable {C : Code M α} (L : Lawful C)

namespace Lawful

/-- Where the nodes lead for a sort that steps along a list that began at `oldhead`. -/
def seen (oldhead : Option α) (m : M) (x : α) : Option (Option α) :=
  (L.links m x).map (cut L.circular oldhead)

/-- Where the last node of a list leads. -/
def endOf (xs : List α) : Option α := if L.circular then xs.head? else none

/-- Each of the nodes of a list leads back to the one before it, and the first one of a circular
list to the last. -/
def BackLinked (m : M) (xs : List α) : Prop :=
  L.double = true → ∀ pre x post, xs = pre ++ x :: post →
    L.prevs m x = if L.circular = true ∧ pre = [] then xs.getLast? else pre.getLast?

/-- Each of the nodes that are put leads back to the one before it. -/
def Backed (m : M) (xs : List α) : Prop :=
  L.double = true → ∀ pre x post, xs = pre ++ x :: post → L.prevs m x = pre.getLast?

variable {L} {m m' : M} {oldhead r : Option α} {x : α} {xs : List α}

theorem next_of_seen (leads : L.seen oldhead m x = some r) :
    C.next m oldhead (some x) = .ok r := by
  obtain ⟨q, links, rfl⟩ := Option.map_eq_some_iff.mp leads
  exact L.next_ok oldhead links

theorem isSome_seen (m : M) (x : α) : (L.seen oldhead m x).isSome = (L.links m x).isSome :=
  Option.isSome_map

/-- Of a list, the sort sees each node once. -/
theorem segment_seen {list : Option α} (h : Segment (L.links m) list xs (L.endOf xs))
    (nodup : xs.Nodup) (more : xs ≠ []) : Segment (L.seen list m) list xs none := by
  obtain ⟨x, xs, rfl⟩ := List.exists_cons_of_ne_nil more
  obtain ⟨rfl, r, leads, rest⟩ := h
  have inner : ∀ y ∈ xs, cut L.circular (some x) (some y) = some y := by
    intro y mem
    refine if_neg fun head => ?_
    obtain rfl := Option.some.inj head.2
    exact (List.nodup_cons.mp nodup).1 mem
  have last : cut L.circular (some x) (L.endOf (x :: xs)) = none := by
    unfold cut endOf
    cases L.circular <;> simp
  refine ⟨rfl, cut L.circular (some x) r, ?_, ?_⟩
  · rw [seen, leads, Option.map_some]
  · exact last ▸ rest.map inner

theorem Backed.nil : L.Backed m [] := by
  rintro - pre x post split
  cases pre <;> cases split

/-- One more node that leads back to the one before it. -/
theorem Backed.push {tail : Option α} {e : α} (h : L.Backed m xs) (last : tail = xs.getLast?)
    (new : e ∉ xs) (set : L.double = true → L.prevs m' = Function.update (L.prevs m) e tail) :
    L.Backed m' (xs ++ [e]) := by
  intro double pre x post split
  rw [set double]
  obtain ⟨mid, rfl, rfl⟩ | ⟨mid, single, rfl⟩ := LinkedList.split_append split
  · rw [Function.update_of_ne (by rintro rfl; exact new (by simp))]
    exact h double pre x mid rfl
  · obtain ⟨rfl, rfl, rfl⟩ : mid = [] ∧ x = e ∧ post = [] := by
      cases mid with
      | nil =>
          cases single
          exact ⟨rfl, rfl, rfl⟩
      | cons z mid => simp at single
    rw [Function.update_self, last, List.append_nil]

end Lawful

/-! ## Stepping along -/

section Stepping

variable {L} {m : M} {oldhead p : Option α} {insize : ℤ} {rest : List α} {fuel j : ℕ}
  {enough : Prop}

/-- `q` is `j` places behind `p`. -/
structure Stepped (L : Lawful C) (m : M) (oldhead : Option α) (insize : ℤ) (p : Option α)
    (rest : List α) (j : ℕ) (s : Stepping α) : Prop where
  psize : s.psize = j
  run : Segment (L.seen oldhead m) p (rest.take j) s.q
  behind : Segment (L.seen oldhead m) s.q (rest.drop j) none
  below : j ≤ insize.toNat
  place : if s.broken then j = rest.length else s.i = j ∧ j < rest.length

theorem stepOff_ends (h : Segment (L.seen oldhead m) p rest none) (more : rest ≠ [])
    (most : insize < L.limit) (signed : 0 ≤ insize ∨ C.Signed)
    (fits : enough → rest.length < fuel) :
    Ends enough (C.stepOff fuel oldhead m insize p) fun s =>
      s.psize = (rest.take insize.toNat).length ∧
      Segment (L.seen oldhead m) p (rest.take insize.toNat) s.q ∧
      Segment (L.seen oldhead m) s.q (rest.drop insize.toNat) none := by
  have positive := List.length_pos_of_ne_nil more
  have below (i : ℤ) : C.below i insize = decide (i < insize) :=
    signed.elim (fun natural => L.below_eq i natural most) fun all => all i insize
  have start : Stepped L m oldhead insize p rest 0 { q := p } :=
    ⟨rfl, by simp [Segment], by simpa using h, Nat.zero_le _, rfl, positive⟩
  -- The turns are counted by `j`, whatever the type of `i` makes of large numbers.
  refine (whileLoop_ends (fun s => !s.broken && C.below s.i insize)
    (Stepped L m oldhead insize p rest) (fun j => rest.length - j) (fun j s _ => rfl) ?_ start
    fits).mono ?_
  · intro j s inv goes
    obtain ⟨on, less⟩ : s.broken = false ∧ s.i < insize := by simpa [below] using goes
    obtain ⟨place, inside⟩ : s.i = j ∧ j < rest.length := by simpa [on] using inv.place
    have split : rest.drop j = rest[j] :: rest.drop (j + 1) := List.drop_eq_getElem_cons inside
    obtain ⟨here, r, leads, behind⟩ := split ▸ inv.behind
    have run : Segment (L.seen oldhead m) p (rest.take (j + 1)) r := by
      rw [List.take_succ_eq_append_getElem inside]
      exact (here ▸ inv.run).snoc leads
    have size : C.wrap (s.psize + 1) = (j + 1 : ℕ) := by
      rw [inv.psize, L.wrap_eq (by omega) (by omega)]
      rfl
    have next_i : C.up s.i = (j + 1 : ℕ) := by
      rw [place, L.up_eq (by omega) (by omega)]
      rfl
    show Ends enough (C.next m oldhead s.q >>= _) _
    rw [here, Lawful.next_of_seen leads]
    show Ends enough (if r.isSome = true then _ else _) _
    -- At the end of the list the loop is broken off.
    cases r with
    | none =>
        have last : rest.drop (j + 1) = [] := behind.eq_nil_iff.mp rfl
        rw [if_neg (by simp)]
        refine .ok ⟨j + 1, ⟨size, run, behind, by omega, ?_⟩, fun _ => by omega⟩
        rw [if_pos rfl]
        rw [List.drop_eq_nil_iff] at last
        omega
    | some y =>
        have more : rest.drop (j + 1) ≠ [] := mt behind.eq_nil_iff.mpr (Option.some_ne_none y)
        rw [if_pos Option.isSome_some]
        refine .ok ⟨j + 1, ⟨size, run, behind, by omega, ?_⟩, fun _ => by omega⟩
        rw [ne_eq, List.drop_eq_nil_iff] at more
        rw [if_neg Bool.false_ne_true]
        exact ⟨next_i, by omega⟩
  · rintro s ⟨j, inv, done⟩
    have place := inv.place
    have inside := inv.below
    -- The loop ends at the end of the run or of the list.
    obtain ⟨taken, dropped⟩ : rest.take insize.toNat = rest.take j ∧
        rest.drop insize.toNat = rest.drop j := by
      by_cases broken : s.broken = true
      · rw [if_pos broken] at place
        rw [List.take_of_length_le (by omega), List.take_of_length_le (Nat.le_of_eq place.symm),
          List.drop_of_length_le (by omega), List.drop_of_length_le (Nat.le_of_eq place.symm)]
        exact ⟨rfl, rfl⟩
      · rw [if_neg broken] at place
        have stop : ¬ s.i < insize := by simpa [below, Bool.eq_false_iff.mpr broken] using done
        have same : insize.toNat = j := by omega
        rw [same]
        exact ⟨rfl, rfl⟩
    rw [taken, dropped]
    refine ⟨?_, inv.run, inv.behind⟩
    rw [inv.psize, List.length_take]
    split at place <;> omega

end Stepping

/-! ## Merging two runs -/

/-- What is in order is put behind the tail; `merged` and `left` are what that and the rest will
be in the end. -/
structure Merges (L : Lawful C) (m₀ : M) (oldhead : Option α) (merged left : List α)
    (s : Merging M α) (out ps qs : List α) : Prop where
  same : L.Same m₀ s.mem
  put : Open (L.links s.mem) s.list s.tail out
  backed : L.Backed s.mem out
  fromP : ∃ r, Segment (L.seen oldhead s.mem) s.p ps r
  fromQ : Segment (L.seen oldhead s.mem) s.q qs none
  nodup : (out ++ (ps ++ qs)).Nodup
  psize : s.psize = ps.length
  psize_lt : s.psize < L.limit
  qsize : ps = [] ∨ 0 ≤ s.qsize
  qsize_lt : s.qsize < L.limit
  merged_eq : out ++ List.merge ps (qs.take s.qsize.toNat) (L.le m₀) = merged
  left_eq : qs.drop s.qsize.toNat = left

section Merge

variable {L} {m₀ : M} {oldhead : Option α} {merged left out ps qs : List α} {s : Merging M α}
  {x y : α} {fuel : ℕ} {enough : Prop}

theorem append_ok (h : Open (L.links s.mem) s.list s.tail out) (backed : L.Backed s.mem out)
    (nodup : out.Nodup) (new : y ∉ out) (there : (L.links s.mem y).isSome) :
    ∃ mem list, C.append s (some y) = .ok { s with mem := mem, list := list, tail := some y } ∧
      Open (L.links mem) list (some y) (out ++ [y]) ∧ L.Backed mem (out ++ [y]) ∧
      (∀ oldhead x, x ∉ out → L.seen oldhead mem x = L.seen oldhead s.mem x) ∧
      L.Same s.mem mem := by
  obtain ⟨mem, stored, leads, back, same⟩ := L.put_ok h.tail_isSome there
  have pushed := h.push nodup new there
  refine ⟨mem, if s.tail.isSome then s.list else some y, ?_, ?_, ?_, fun oldhead x other => ?_,
    same⟩
  · unfold Code.append
    rw [stored]
    rfl
  · rw [leads]
    exact pushed
  · exact backed.push h.tail_eq new back
  · unfold Lawful.seen
    rw [leads, setLast_of_notMem h _ other]

/-- A node that is not in order yet. -/
theorem Merges.notMem (h : Merges L m₀ oldhead merged left s out ps qs) (mem : x ∈ ps ++ qs) :
    x ∉ out :=
  fun mem' => (List.nodup_append.mp h.nodup).2.2 x mem' x mem rfl

/-- The first node of the first run is taken. -/
theorem Merges.takeP (h : Merges L m₀ oldhead merged left s out (x :: ps) qs)
    (first : List.merge (x :: ps) (qs.take s.qsize.toNat) (L.le m₀) =
      x :: List.merge ps (qs.take s.qsize.toNat) (L.le m₀)) :
    ∃ t, (C.takeP oldhead s >>= fun chosen => C.append chosen.2 chosen.1) = .ok t ∧
      Merges L m₀ oldhead merged left t (out ++ [x]) ps qs := by
  obtain ⟨r, here, p, leads, rest⟩ := h.fromP
  have psize : s.psize = ps.length + 1 := by simpa using h.psize
  have psize_lt := h.psize_lt
  have size : C.wrap (s.psize - 1) = ps.length := by
    rw [L.wrap_eq (by omega) (by omega)]
    omega
  have new : x ∉ out := h.notMem (by simp)
  have there : (L.links s.mem x).isSome :=
    Lawful.isSome_seen (L := L) s.mem x ▸ Option.isSome_of_eq_some leads
  obtain ⟨mem, list, appended, out', backed, others, same⟩ :=
    append_ok (s := { s with p := p, psize := C.wrap (s.psize - 1) }) h.put
      h.backed (List.nodup_append.mp h.nodup).1 new there
  have taken : C.takeP oldhead s =
      .ok (some x, { s with p := p, psize := C.wrap (s.psize - 1) }) := by
    unfold Code.takeP
    rw [here, Lawful.next_of_seen leads]
    rfl
  rw [taken]
  refine ⟨_, appended, L.same_trans h.same same, out', backed, ⟨r, ?_⟩, ?_, ?_, size, ?_, .inr ?_,
    h.qsize_lt, ?_, h.left_eq⟩
  · exact rest.congr fun z mem => others _ z (h.notMem (by simp [mem]))
  · exact h.fromQ.congr fun z mem => others _ z (h.notMem (by simp [mem]))
  · simpa using h.nodup
  · exact L.wrap_lt _
  · exact h.qsize.resolve_left (List.cons_ne_nil _ _)
  · rw [List.append_assoc, List.singleton_append, ← first]
    exact h.merged_eq

/-- The first node of the second run is taken. -/
theorem Merges.takeQ (h : Merges L m₀ oldhead merged left s out ps (y :: qs))
    (positive : 0 < s.qsize)
    (first : List.merge ps (y :: qs.take (s.qsize - 1).toNat) (L.le m₀) =
      y :: List.merge ps (qs.take (s.qsize - 1).toNat) (L.le m₀)) :
    ∃ t, (C.takeQ oldhead s >>= fun chosen => C.append chosen.2 chosen.1) = .ok t ∧
      Merges L m₀ oldhead merged left t (out ++ [y]) ps qs := by
  obtain ⟨r, p⟩ := h.fromP
  obtain ⟨here, q, leads, rest⟩ := h.fromQ
  have size : C.wrap (s.qsize - 1) = s.qsize - 1 := by
    have := h.qsize_lt
    exact L.wrap_eq (by omega) (by omega)
  have count : s.qsize.toNat = (s.qsize - 1).toNat + 1 := by omega
  have new : y ∉ out := h.notMem (by simp)
  have there : (L.links s.mem y).isSome :=
    Lawful.isSome_seen (L := L) s.mem y ▸ Option.isSome_of_eq_some leads
  obtain ⟨mem, list, appended, put, backed, others, same⟩ :=
    append_ok (s := { s with q := q, qsize := C.wrap (s.qsize - 1) }) h.put
      h.backed (List.nodup_append.mp h.nodup).1 new there
  have taken : C.takeQ oldhead s =
      .ok (some y, { s with q := q, qsize := C.wrap (s.qsize - 1) }) := by
    unfold Code.takeQ
    rw [here, Lawful.next_of_seen leads]
    rfl
  rw [taken]
  refine ⟨_, appended, L.same_trans h.same same, put, backed, ⟨r, ?_⟩, ?_, ?_, h.psize, h.psize_lt,
    .inr ?_, L.wrap_lt _, ?_, ?_⟩
  · exact p.congr fun z mem => others _ z (h.notMem (by simp [mem]))
  · exact rest.congr fun z mem => others _ z (h.notMem (by simp [mem]))
  · refine h.nodup.perm ?_
    rw [List.append_assoc]
    exact List.Perm.append_left out List.perm_middle
  · show 0 ≤ C.wrap _
    omega
  · have := h.merged_eq
    rw [count, List.take_succ_cons, first] at this
    show _ ++ List.merge _ (qs.take (C.wrap _).toNat) _ = _
    rw [size, List.append_assoc, List.singleton_append, this]
  · have := h.left_eq
    rw [count, List.drop_succ_cons] at this
    show qs.drop (C.wrap _).toNat = _
    rw [size, this]

/-- Which node is chosen, if there are two. -/
theorem Merges.choose_eq (h : Merges L m₀ oldhead merged left s out (x :: ps) (y :: qs))
    (positive : 0 < s.qsize) :
    C.choose oldhead s = if L.le m₀ x y then C.takeP oldhead s else C.takeQ oldhead s := by
  obtain ⟨_, hereP, _, leadsP, -⟩ := h.fromP
  obtain ⟨hereQ, _, leadsQ, -⟩ := h.fromQ
  have size : s.psize ≠ 0 := by
    rw [h.psize, List.length_cons]
    omega
  have thereP : (L.links s.mem x).isSome :=
    Lawful.isSome_seen (L := L) s.mem x ▸ Option.isSome_of_eq_some leadsP
  have thereQ : (L.links s.mem y).isSome :=
    Lawful.isSome_seen (L := L) s.mem y ▸ Option.isSome_of_eq_some leadsQ
  obtain ⟨sign, compared, order⟩ := L.cmp_ok thereP thereQ
  rw [L.same_le h.same] at order
  have two : ¬ (s.qsize = 0 ∨ s.q = none) := by
    rw [hereQ]
    simp
    omega
  unfold Code.choose
  rw [if_neg size, if_neg two, hereP, hereQ, compared]
  exact if_congr order rfl rfl

/-- A turn puts a node behind the tail. -/
theorem Merges.turn (h : Merges L m₀ oldhead merged left s out ps qs)
    (more : s.psize > 0 ∨ s.qsize > 0 ∧ s.q.isSome = true) :
    ∃ t, (C.choose oldhead s >>= fun chosen => C.append chosen.2 chosen.1) = .ok t ∧
      ∃ out ps' qs', Merges L m₀ oldhead merged left t out ps' qs' ∧
        ps'.length + qs'.length < ps.length + qs.length := by
  have size := h.psize
  have headQ := h.fromQ.head
  -- The run at `p` is used up, or that at `q` is, or their heads are compared.
  cases ps with
  | nil =>
      obtain ⟨positive, there⟩ := more.resolve_left (by rw [size]; simp)
      have chosen : C.choose oldhead s = C.takeQ oldhead s := by
        unfold Code.choose
        exact if_pos size
      rw [chosen]
      cases qs with
      | nil => simp [headQ] at there
      | cons y qs =>
          obtain ⟨t, taken, inv⟩ := h.takeQ positive (by simp)
          exact ⟨t, taken, _, _, _, inv, by simp⟩
  | cons x ps =>
      have nonzero : s.psize ≠ 0 := by
        rw [size, List.length_cons]
        omega
      by_cases single : s.qsize = 0 ∨ s.q = none
      · have chosen : C.choose oldhead s = C.takeP oldhead s := by
          unfold Code.choose
          rw [if_neg nonzero, if_pos single]
        have empty : qs.take s.qsize.toNat = [] := by
          rcases single with zero | none
          · rw [zero]
            rfl
          · rw [h.fromQ.eq_nil_iff.mp none, List.take_nil]
        obtain ⟨t, taken, inv⟩ := h.takeP (by simp [empty])
        rw [chosen]
        exact ⟨t, taken, _, _, _, inv, by simp⟩
      · obtain ⟨qsize, there⟩ := not_or.mp single
        have positive : 0 < s.qsize := by
          have := h.qsize.resolve_left (List.cons_ne_nil _ _)
          omega
        cases qs with
        | nil => exact absurd headQ there
        | cons y qs =>
            rw [h.choose_eq positive]
            by_cases order : L.le m₀ x y = true
            · have count : s.qsize.toNat = (s.qsize - 1).toNat + 1 := by omega
              obtain ⟨t, taken, inv⟩ := h.takeP (by
                rw [count, List.take_succ_cons, List.cons_merge_cons_pos _ _ _ order])
              rw [if_pos order]
              exact ⟨t, taken, _, _, _, inv, by simp⟩
            · obtain ⟨t, taken, inv⟩ :=
                h.takeQ positive (List.cons_merge_cons_neg _ _ _ order)
              rw [if_neg order]
              exact ⟨t, taken, _, _, _, inv, by simp⟩

/-- The loop leaves the merged run behind the tail, and at `q` what was not to be merged. -/
theorem merge_ends (h : Merges L m₀ oldhead merged left s out ps qs)
    (fits : enough → ps.length + qs.length < fuel) :
    Ends enough (C.merge fuel oldhead s) fun t => L.Same m₀ t.mem ∧
      Open (L.links t.mem) t.list t.tail merged ∧ L.Backed t.mem merged ∧
      Segment (L.seen oldhead t.mem) t.q left none ∧ (merged ++ left).Nodup := by
  refine (whileLoop_ends (fun s => decide (s.psize > 0) || decide (s.qsize > 0) && s.q.isSome)
    (fun g s => Merges L m₀ oldhead merged left s g.1 g.2.1 g.2.2)
    (fun g => g.2.1.length + g.2.2.length) (fun g s _ => rfl) ?_ (g := (out, ps, qs)) h
    fits).mono ?_
  · rintro ⟨out, ps, qs⟩ s inv more
    obtain ⟨t, taken, out', ps', qs', inv', less⟩ := inv.turn (by simpa using more)
    rw [taken]
    exact .ok ⟨(out', ps', qs'), inv', fun _ => less⟩
  · rintro t ⟨⟨out, ps, qs⟩, inv, done⟩
    have inv : Merges L m₀ oldhead merged left t out ps qs := inv
    obtain ⟨psize, last⟩ : t.psize ≤ 0 ∧ (0 < t.qsize → t.q = none) := by simpa using done
    obtain rfl : ps = [] := by
      have := inv.psize
      exact List.length_eq_zero_iff.mp (by omega)
    have empty : qs.take t.qsize.toNat = [] ∧ qs.drop t.qsize.toNat = qs := by
      by_cases positive : 0 < t.qsize
      · rw [inv.fromQ.eq_nil_iff.mp (last positive)]
        exact ⟨List.take_nil, List.drop_nil⟩
      · rw [Int.toNat_of_nonpos (by omega)]
        exact ⟨List.take_zero, List.drop_zero⟩
    have merged_eq : out = merged := by simpa [empty.1] using inv.merged_eq
    have left_eq : qs = left := by simpa [empty.2] using inv.left_eq
    rw [← merged_eq, ← left_eq]
    exact ⟨inv.same, inv.put, inv.backed, inv.fromQ, inv.nodup⟩

end Merge

/-! ## A pass -/

section Pass

variable {L} {m₀ : M} {oldhead : Option α} {insize : ℤ} {xs out rest : List α} {fuel j : ℕ}
  {enough : Prop}

/-- The nodes `out` are in order, and `rest` is what is left of the list. -/
structure Passes (L : Lawful C) (m₀ : M) (oldhead : Option α) (s : Passing M α)
    (out rest : List α) : Prop where
  same : L.Same m₀ s.mem
  put : Open (L.links s.mem) s.list s.tail out
  backed : L.Backed s.mem out
  left : Segment (L.seen oldhead s.mem) s.p rest none
  nodup : (out ++ rest).Nodup

/-- The first two runs of the rest are merged. -/
theorem mergeRuns_ends {s : Passing M α} (h : Passes L m₀ oldhead s out rest) (more : rest ≠ [])
    (most : insize < L.limit) (signed : 0 ≤ insize ∨ C.Signed)
    (fits : enough → rest.length < fuel) :
    Ends enough (C.mergeRuns fuel oldhead insize s) fun t =>
      Passes L m₀ oldhead t
        (out ++ List.merge (rest.take insize.toNat)
          ((rest.drop insize.toNat).take insize.toNat) (L.le m₀))
        (rest.drop (2 * insize.toNat)) ∧ t.nmerges = C.wrap (s.nmerges + 1) := by
  refine (stepOff_ends h.left more most signed fits).bind fun stepped ⟨psize, run, behind⟩ => ?_
  have start : Merges L m₀ oldhead
      (out ++ List.merge (rest.take insize.toNat)
        ((rest.drop insize.toNat).take insize.toNat) (L.le m₀))
      (rest.drop (2 * insize.toNat))
      { mem := s.mem, list := s.list, tail := s.tail, p := s.p, q := stepped.q,
        psize := stepped.psize, qsize := insize }
      out (rest.take insize.toNat) (rest.drop insize.toNat) := by
    refine ⟨h.same, h.put, h.backed, ⟨_, run⟩, behind, ?_, psize, ?_, ?_, most, rfl, ?_⟩
    · rw [List.take_append_drop]
      exact h.nodup
    · show stepped.psize < _
      have := L.one_lt
      rw [psize, List.length_take]
      omega
    · by_cases positive : 0 ≤ insize
      · exact .inr positive
      · left
        rw [Int.toNat_of_nonpos (by omega), List.take_zero]
    · rw [List.drop_drop, Nat.two_mul]
  refine (merge_ends start fun holds => ?_).bind fun merged ⟨same, put, backed, left, nodup⟩ => ?_
  · rw [← List.length_append, List.take_append_drop]
    exact fits holds
  · exact .ok ⟨⟨same, put, backed, left, nodup⟩, rfl⟩

/-- After `j` turns of a pass over `xs`. -/
structure Passed (L : Lawful C) (m₀ : M) (oldhead : Option α) (insize : ℤ) (xs : List α) (j : ℕ)
    (out rest : List α) (s : Passing M α) : Prop extends Passes L m₀ oldhead s out rest where
  pass_eq : out ++ mergePass (L.le m₀) insize.toNat rest = mergePass (L.le m₀) insize.toNat xs
  rest_eq : rest = xs.drop (2 * insize.toNat * j)
  inside : j = 0 ∨ 2 * insize.toNat * (j - 1) < xs.length
  nmerges : xs.length ≤ L.limit → 0 < insize → s.nmerges = j

theorem Passed.turn {s : Passing M α} (h : Passed L m₀ oldhead insize xs j out rest s)
    (more : rest ≠ []) (most : insize < L.limit) (signed : 0 ≤ insize ∨ C.Signed)
    (fits : enough → rest.length < fuel) :
    Ends enough (C.mergeRuns fuel oldhead insize s) fun t => ∃ out,
      Passed L m₀ oldhead insize xs (j + 1) out (rest.drop (2 * insize.toNat)) t := by
  have inside : 2 * insize.toNat * j < xs.length := by
    have := h.rest_eq ▸ more
    rwa [ne_eq, List.drop_eq_nil_iff, Nat.not_le] at this
  refine (mergeRuns_ends h.toPasses more most signed fits).mono
    fun t ⟨passes, nmerges⟩ => ⟨_, passes, ?_, ?_, .inr inside, fun short positive => ?_⟩
  · rw [List.append_assoc, ← mergePass_eq _ more]
    exact h.pass_eq
  · rw [h.rest_eq, List.drop_drop, Nat.mul_succ]
  · have : 2 * j ≤ 2 * insize.toNat * j := Nat.mul_le_mul_right j (by omega)
    have := L.one_lt
    rw [nmerges, h.nmerges short positive, L.wrap_eq (by omega) (by omega)]
    rfl

/-- A list that is being built can be closed, if there is something in it. -/
theorem close_ok {m : M} {list tail : Option α} (h : Open (L.links m) list tail xs)
    (backed : L.Backed m xs) (nodup : xs.Nodup) (more : xs ≠ []) :
    ∃ m', C.close m list tail = .ok m' ∧ Segment (L.links m') list xs (L.endOf xs) ∧
      L.BackLinked m' xs ∧ L.Same m m' := by
  have closed := h.lead nodup more (L.endOf xs)
  have first := h.head_eq
  have last := h.tail_eq
  have there := h.isSome
  obtain ⟨x, ys, rfl⟩ := List.exists_cons_of_ne_nil more
  obtain ⟨t, last_t⟩ := Option.isSome_iff_exists.mp (List.getLast?_isSome.mpr more)
  obtain rfl : list = some x := first
  obtain rfl : tail = some t := last.trans last_t
  obtain ⟨m', stored, leads, back, same⟩ :=
    L.close_ok (there x List.mem_cons_self) (there t (List.mem_of_getLast? last_t))
  refine ⟨m', stored, ?_, fun double pre y post split => ?_, same⟩
  · rw [leads]
    exact closed
  · have before := backed double pre y post split
    rw [back double]
    cases L.circular with
    | false => simpa using before
    | true =>
        cases pre with
        | nil =>
            cases split
            simp [last_t]
        | cons z pre =>
            cases split
            have other : y ≠ x := by
              rintro rfl
              simp at nodup
            simpa [Function.update_of_ne other] using before

/-- A pass is the last one unless there are more than two runs. -/
theorem pass_ends {s : Sorting M α} (same : L.Same m₀ s.mem)
    (h : Segment (L.links s.mem) s.list xs (L.endOf xs)) (nodup : xs.Nodup) (more : xs ≠ [])
    (most : s.insize < L.limit) (signed : 0 ≤ s.insize ∨ C.Signed)
    (fits : enough → 0 < s.insize ∧ xs.length < fuel) :
    Ends enough (C.pass fuel s) fun t => L.Same m₀ t.mem ∧
      Segment (L.links t.mem) t.list (mergePass (L.le m₀) s.insize.toNat xs)
        (L.endOf (mergePass (L.le m₀) s.insize.toNat xs)) ∧
      L.BackLinked t.mem (mergePass (L.le m₀) s.insize.toNat xs) ∧
      t.tail = (mergePass (L.le m₀) s.insize.toNat xs).getLast? ∧
      t.insize = C.wrap (s.insize * 2) ∧ (xs.length ≤ L.limit →
        t.looping = (s.looping && decide (2 * s.insize.toNat < xs.length))) := by
  have start : Passed L m₀ s.list s.insize xs 0 [] xs { mem := s.mem, p := s.list } :=
    ⟨⟨same, .nil _, .nil, Lawful.segment_seen h nodup more, nodup⟩, rfl, rfl, .inl rfl,
      fun _ _ => rfl⟩
  refine (whileLoop_ends (fun s => s.p.isSome)
    (fun g t => Passed L m₀ s.list s.insize xs g.1 g.2.1 g.2.2 t) (fun g => g.2.2.length)
    (fun g t _ => rfl) ?_ (g := (0, [], xs)) start fun holds => (fits holds).2).bind ?_
  · rintro ⟨j, out, rest⟩ t inv goes
    have inv : Passed L m₀ s.list s.insize xs j out rest t := inv
    have more : rest ≠ [] := mt inv.left.eq_nil_iff.mpr (Option.isSome_iff_ne_none.mp goes)
    have short : rest.length ≤ xs.length := by
      rw [inv.rest_eq, List.length_drop]
      omega
    refine (inv.turn more most signed fun holds =>
      Nat.lt_of_le_of_lt short (fits holds).2).mono ?_
    rintro t ⟨out, inv⟩
    refine ⟨(j + 1, out, _), inv, fun holds => ?_⟩
    have := (fits holds).1
    have := List.length_pos_of_ne_nil more
    show (rest.drop _).length < rest.length
    rw [List.length_drop]
    omega
  -- Nothing is left: the list is closed behind the last of the merged runs.
  · rintro t ⟨⟨j, out, rest⟩, inv, done⟩
    have inv : Passed L m₀ s.list s.insize xs j out rest t := inv
    obtain rfl : rest = [] := inv.left.eq_nil_iff.mp (by simpa using done)
    obtain rfl : out = mergePass (L.le m₀) s.insize.toNat xs := by
      simpa [mergePass_nil] using inv.pass_eq
    have nodup : (mergePass (L.le m₀) s.insize.toNat xs).Nodup := by simpa using inv.nodup
    obtain ⟨mem, stored, closed, back, same'⟩ := close_ok inv.put inv.backed nodup (by
      rw [ne_eq, ← List.length_eq_zero_iff, length_mergePass, List.length_eq_zero_iff]
      exact more)
    rw [stored]
    refine .ok ⟨L.same_trans inv.same same', closed, back, inv.put.tail_eq, rfl, fun short => ?_⟩
    have reached : xs.length ≤ 2 * s.insize.toNat * j := List.drop_eq_nil_iff.mp inv.rest_eq.symm
    have some_x := List.length_pos_of_ne_nil more
    have positive : 0 < s.insize := by
      by_contra none
      rw [Int.toNat_of_nonpos (by omega)] at reached
      omega
    have count := inv.nmerges short positive
    show (if t.nmerges ≤ 1 then false else s.looping) = _
    -- One merge is all there is to do exactly if the list is no longer than two runs.
    by_cases last : j ≤ 1
    · have : 2 * s.insize.toNat * j ≤ 2 * s.insize.toNat * 1 := Nat.mul_le_mul_left _ last
      rw [if_pos (by omega), decide_eq_false (by omega), Bool.and_false]
    · have inside := inv.inside.resolve_left (by omega)
      have : 2 * s.insize.toNat * 1 ≤ 2 * s.insize.toNat * (j - 1) :=
        Nat.mul_le_mul_left _ (by omega)
      rw [if_neg (by omega), decide_eq_true (by omega), Bool.and_true]

end Pass

/-! ## The whole sort -/

section Whole

variable {L} {m : M} {list : Option α} {xs ys : List α} {fuel left : ℕ}

/-- The comparison is an order, in which nodes may be equal. -/
structure Lawful.Ordered (L : Lawful C) (m : M) : Prop where
  trans : ∀ x y z, L.le m x y = true → L.le m y z = true → L.le m x z = true
  total : ∀ x y, (L.le m x y || L.le m y x) = true

/-- A list that has been relinked: it has the nodes `ys`. -/
structure Relinked (L : Lawful C) (m : M) (xs ys : List α) (s : Sorting M α) : Prop where
  same : L.Same m s.mem
  list : Segment (L.links s.mem) s.list ys (L.endOf ys)
  perm : ys.Perm xs

/-- What the sort leaves of the list `xs`. -/
structure Sorted (L : Lawful C) (m : M) (xs ys : List α) (s : Sorting M α) : Prop
    extends Relinked L m xs ys s where
  back : L.BackLinked s.mem ys
  tail : s.tail = ys.getLast?
  ordered : xs.length ≤ L.limit → L.Ordered m → ys = xs.mergeSort (L.le m)

/-- Between the passes; `left` bounds how many are to come. -/
structure Sorts (L : Lawful C) (m : M) (xs ys : List α) (left : ℕ) (s : Sorting M α) : Prop
    extends Relinked L m xs ys s where
  insize_lt : s.insize < L.limit
  passed : s.looping = false → L.BackLinked s.mem ys ∧ s.tail = ys.getLast?
  order : xs.length ≤ L.limit →
    if s.looping then
      0 < s.insize ∧ s.insize + left = xs.length + 1 ∧ 0 < left ∧
        (L.Ordered m → Progress (L.le m) s.insize.toNat xs ys)
    else L.Ordered m → ys = xs.mergeSort (L.le m)

theorem Sorts.turn {s : Sorting M α} (h : Sorts L m xs ys left s) (goes : s.looping = true)
    (nodup : xs.Nodup) (more : xs ≠ []) (signed : xs.length ≤ L.limit ∨ C.Signed) :
    Ends (xs.length < fuel ∧ xs.length ≤ L.limit) (C.pass fuel s) fun t => ∃ ys left',
      Sorts L m xs ys left' t ∧ (xs.length ≤ L.limit → left' < left) := by
  have length := h.perm.length_eq
  have some_x := List.length_pos_of_ne_nil more
  have more' : ys ≠ [] := List.ne_nil_of_length_pos (by omega)
  have natural : xs.length ≤ L.limit → 0 < s.insize := by
    intro short
    have order := h.order short
    rw [if_pos goes] at order
    exact order.1
  refine (pass_ends h.same h.list (h.perm.nodup_iff.mpr nodup) more' h.insize_lt
    (signed.imp_left fun short => Int.le_of_lt (natural short))
    fun ⟨enough, short⟩ => ⟨natural short, length ▸ enough⟩).mono ?_
  rintro t ⟨same, list, back, tail, insize, looping⟩
  have perm := (mergePass_perm (L.le m) s.insize.toNat ys).trans h.perm
  have insize_lt : t.insize < L.limit := insize ▸ L.wrap_lt _
  have relinked : Relinked L m xs (mergePass (L.le m) s.insize.toNat ys) t := ⟨same, list, perm⟩
  rw [goes, Bool.true_and, length] at looping
  by_cases short : xs.length ≤ L.limit
  · have order := h.order short
    rw [if_pos goes] at order
    obtain ⟨positive, left_eq, some_left, progress⟩ := order
    have progress' (ordered : L.Ordered m) :=
      (progress ordered).pass ordered.trans ordered.total (by omega)
    by_cases again : 2 * s.insize.toNat < xs.length
    · have twice : t.insize = 2 * s.insize := by
        rw [insize, L.wrap_eq (by omega) (by omega)]
        omega
      refine ⟨_, xs.length + 1 - 2 * s.insize.toNat,
        ⟨relinked, insize_lt, fun _ => ⟨back, tail⟩, fun _ => ?_⟩, fun _ => by omega⟩
      rw [if_pos (by rw [looping short, decide_eq_true again]), twice]
      refine ⟨by omega, by omega, by omega, ?_⟩
      rwa [show (2 * s.insize).toNat = 2 * s.insize.toNat by omega]
    · refine ⟨_, 0, ⟨relinked, insize_lt, fun _ => ⟨back, tail⟩, fun _ => ?_⟩,
        fun _ => some_left⟩
      rw [if_neg (by rw [looping short, decide_eq_false again]; exact Bool.false_ne_true)]
      intro ordered
      exact (progress' ordered).done ordered.trans ordered.total
        (by rw [length_mergePass]; omega)
  · exact ⟨_, left, ⟨relinked, insize_lt, fun _ => ⟨back, tail⟩, fun h => absurd h short⟩,
      fun h => absurd h short⟩

/-- What the sort does to a list. -/
theorem sort_ends (fuel : ℕ) (h : Segment (L.links m) list xs (L.endOf xs)) (nodup : xs.Nodup)
    (signed : xs.length ≤ L.limit ∨ C.Signed) :
    Ends (xs.length < fuel ∧ xs.length ≤ L.limit) (C.sort fuel list m) fun s =>
      ∃ ys, Sorted L m xs ys s := by
  unfold Code.sort
  by_cases nil : xs = []
  · subst nil
    have none_list : list = none := by
      have empty : list = L.endOf [] := h
      rw [empty, Lawful.endOf, List.head?_nil, ite_self]
    subst none_list
    refine .ok ⟨[], ⟨L.same_refl m, h, .refl _⟩, ?_, rfl, fun _ _ => List.mergeSort_nil.symm⟩
    rintro - pre x post split
    cases pre <;> cases split
  · have some_list : list.isSome = true := by
      obtain ⟨x, xs, rfl⟩ := List.exists_cons_of_ne_nil nil
      rw [h.1]
      rfl
    rw [if_pos some_list]
    have start : Sorts L m xs xs xs.length { mem := m, list := list } := by
      refine ⟨⟨L.same_refl m, h, .refl xs⟩, L.one_lt, nofun, fun _ => ?_⟩
      show (0 : ℤ) < 1 ∧ (1 : ℤ) + xs.length = xs.length + 1 ∧ 0 < xs.length ∧
        (_ → Progress _ 1 xs xs)
      exact ⟨by omega, by omega, List.length_pos_of_ne_nil nil, fun _ => .start _ xs⟩
    refine (whileLoop_ends (fun s => s.looping) (fun g s => Sorts L m xs g.1 g.2 s)
      (fun g => g.2) (fun g s _ => rfl) ?_ (g := (xs, xs.length)) start And.left).mono ?_
    · rintro ⟨ys, left⟩ s inv goes
      have inv : Sorts L m xs ys left s := inv
      refine (inv.turn goes nodup nil signed).mono fun t ⟨ys', left', inv', less⟩ => ?_
      exact ⟨(ys', left'), inv', fun holds => less holds.2⟩
    · rintro s ⟨⟨ys, left⟩, inv, done⟩
      have inv : Sorts L m xs ys left s := inv
      obtain ⟨back, tail⟩ := inv.passed done
      refine ⟨ys, inv.toRelinked, back, tail, fun short => ?_⟩
      have order := inv.order short
      rwa [if_neg (Bool.eq_false_iff.mp done)] at order

end Whole

end Meaning

/-! ## Doubly linked lists -/

section Double

open LinkedList

variable {α : Type} {links : α → Option (Option α)} {prev next : α → Option α} {xs : List α}

/-- A doubly linked list is a segment that leads nowhere. -/
theorem segment_of_linked (h : Linked prev next xs) (leads : ∀ x ∈ xs, links x = some (next x)) :
    Segment links xs.head? xs none := by
  have list : Segment links (xs.head?.or none) xs none := by
    refine segment_of_leads fun pre x post split => ?_
    rw [leads x (by simp [split]), (h pre x post split).2, Option.or_none]
  rwa [Option.or_none] at list

/-- A segment that leads nowhere, and back from each node to the one before it. -/
theorem linked_of_segment {p : Option α} (h : Segment links p xs none)
    (leads : ∀ x ∈ xs, links x = some (next x))
    (back : ∀ pre x post, xs = pre ++ x :: post → prev x = pre.getLast?) :
    Linked prev next xs := by
  rintro pre x post rfl
  refine ⟨back pre x post rfl, Option.some.inj ?_⟩
  rw [← leads x (by simp), h.leads]

end Double

end Cjunk.LinkSort
