import Cjunk.Lib.LinkSort
import Cjunk.LinkedList.Utlist

/-!
# `LISTSORT` of `utlist.h`

The macro behind `LL_SORT`, a merge sort from the bottom up that relinks the elements.  Its
numbers are of type `int` and wrap.

It is the sort of `Lib.LinkSort` with the statements `llCode` (`llSort_eq`).  `llSort_ends` is the
result: whenever the sort of a list ends, its elements are in a list again, and it does nothing
wrong.  With up to 2^31 elements it ends, and they are in order.
-/

namespace Cjunk.Utlist

open SinglyLinked WhileLoop LinkSort

/-- The value of an `int`. -/
def int (z : ℤ) : ℤ := z.bmod 4294967296

theorem int_eq {z : ℤ} (least : -2147483648 ≤ z) (most : z < 2147483648) : int z = z := by
  show (if z % 4294967296 < 2147483648 then z % 4294967296 else z % 4294967296 - 4294967296) = z
  split <;> omega

theorem int_range (z : ℤ) : -2147483648 ≤ int z ∧ int z < 2147483648 := by
  show _ ≤ (if z % 4294967296 < 2147483648 then z % 4294967296 else z % 4294967296 - 4294967296) ∧
    (if z % 4294967296 < 2147483648 then z % 4294967296 else z % 4294967296 - 4294967296) < _
  split <;> omega

/-! An `int` counts up to `INT_MAX`. -/

theorem int_lt (z : ℤ) : int z < 2147483648 := (int_range z).2

theorem int_count {z : ℤ} (least : 0 ≤ z) (most : z < 2147483648) : int z = z :=
  int_eq (by omega) most

theorem int_succ {z : ℤ} (least : 0 ≤ z) (most : z + 1 < 2147483648) : int (z + 1) = z + 1 :=
  int_eq (by omega) most

theorem one_lt_limit : (1 : ℤ) < 2147483648 := by decide

/-! ## The macro

The list is neither circular nor double, so `_ls_oldhead` is never read and no `prev` is set. -/

/-- `numbercmp`. -/
def numbercmp (heap : Heap) (a b : Option ℕ) : Except Stop ℤ := do
  return if (← foo heap a) > (← foo heap b) then 1 else 0

/-- The variables of the loop that steps along. -/
structure Stepping where
  q : Option ℕ
  psize : ℤ := 0
  i : ℤ := 0
  /-- The loop has been left with `break`. -/
  broken : Bool := false

/-- `for (i = 0; i < insize; i++)`: step `insize` places along from `p`, to `q`. -/
def stepOff (fuel : ℕ) (heap : Heap) (insize : ℤ) (p : Option ℕ) : Except Stop Stepping :=
  whileLoop (fun s => .ok (!s.broken && decide (s.i < insize)))
    (fun s => do
      let psize := int (s.psize + 1)
      let q ← next heap s.q
      if q.isSome then
        return { q := q, psize := psize, i := int (s.i + 1) }
      else
        return { q := q, psize := psize, i := s.i, broken := true })
    fuel { q := p }

/-- The variables of the loop that merges two runs. -/
structure Merging where
  heap : Heap
  list : Option ℕ
  tail : Option ℕ
  p : Option ℕ
  q : Option ℕ
  psize : ℤ
  qsize : ℤ

namespace Merging

/-- `e = p; p = p->next; psize--;` -/
def takeP (s : Merging) : Except Stop (Option ℕ × Merging) := do
  let p ← next s.heap s.p
  return (s.p, { s with p := p, psize := int (s.psize - 1) })

/-- `e = q; q = q->next; qsize--;` -/
def takeQ (s : Merging) : Except Stop (Option ℕ × Merging) := do
  let q ← next s.heap s.q
  return (s.q, { s with q := q, qsize := int (s.qsize - 1) })

/-- The element `e` that comes next. -/
def choose (s : Merging) : Except Stop (Option ℕ × Merging) := do
  if s.psize = 0 then
    s.takeQ
  else if s.qsize = 0 ∨ s.q = none then
    s.takeP
  else if (← numbercmp s.heap s.p s.q) ≤ 0 then
    s.takeP
  else
    s.takeQ

/-- `e` is put behind the tail. -/
def append (s : Merging) (e : Option ℕ) : Except Stop Merging := do
  if s.tail.isSome then
    let heap ← setNext s.heap s.tail e
    return { s with heap := heap, tail := e }
  else
    return { s with list := e, tail := e }

/-- `while (psize > 0 || (qsize > 0 && q))` -/
def run (fuel : ℕ) (s : Merging) : Except Stop Merging :=
  whileLoop (fun s => .ok (decide (s.psize > 0) || decide (s.qsize > 0) && s.q.isSome))
    (fun s => do
      let chosen ← s.choose
      chosen.2.append chosen.1)
    fuel s

end Merging

/-- The variables of a pass over the list. -/
structure Passing where
  heap : Heap
  list : Option ℕ := none
  tail : Option ℕ := none
  p : Option ℕ
  nmerges : ℤ := 0

/-- The body of `while (p)`: two runs are merged. -/
def mergeRuns (fuel : ℕ) (insize : ℤ) (s : Passing) : Except Stop Passing := do
  let nmerges := int (s.nmerges + 1)
  let stepped ← stepOff fuel s.heap insize s.p
  let merged ← Merging.run fuel
    { heap := s.heap, list := s.list, tail := s.tail, p := s.p, q := stepped.q,
      psize := stepped.psize, qsize := insize }
  return { heap := merged.heap, list := merged.list, tail := merged.tail, p := merged.q,
           nmerges := nmerges }

/-- The variables of the sort. -/
structure Sorting where
  heap : Heap
  list : Option ℕ
  insize : ℤ := 1
  looping : Bool := true

/-- The body of `while (looping)`: a pass over the list. -/
def Sorting.pass (fuel : ℕ) (s : Sorting) : Except Stop Sorting := do
  let passed ← whileLoop (fun s => .ok s.p.isSome) (mergeRuns fuel s.insize) fuel
    { heap := s.heap, p := s.list }
  let heap ← setNext passed.heap passed.tail none
  let looping := if passed.nmerges ≤ 1 then false else s.looping
  return { heap := heap, list := passed.list, insize := int (s.insize * 2), looping := looping }

/-- `LL_SORT`. -/
def llSort (fuel : ℕ) (list : Option ℕ) (heap : Heap) : Except Stop (Option ℕ × Heap) := do
  if list.isSome then
    let s ← whileLoop (fun s => .ok s.looping) (Sorting.pass fuel) fuel
      { heap := heap, list := list }
    return (s.list, s.heap)
  else
    return (list, heap)

/-! ## The order -/

/-- The number of an element. -/
def number (heap : Heap) (a : ℕ) : ℤ := ((heap a).map El.foo).getD 0

/-- What comes first, or may do so. -/
def le (heap : Heap) (a b : ℕ) : Bool := number heap a ≤ number heap b

section Order

variable {heap heap' : Heap} {a b : ℕ}

theorem foo_ok (there : (heap a).isSome) : foo heap (some a) = .ok (number heap a) := by
  obtain ⟨el, stored⟩ := Option.isSome_iff_exists.mp there
  simp [foo, number, stored]

theorem SameElements.number_eq (h : SameElements heap heap') : number heap' = number heap :=
  funext fun a => by rw [number, h a, number]

theorem SameElements.le_eq (h : SameElements heap heap') : le heap' = le heap := by
  funext a b
  rw [le, le, h.number_eq]

theorem numbercmp_ok (there : (heap a).isSome) (there' : (heap b).isSome) :
    ∃ sign, numbercmp heap (some a) (some b) = .ok sign ∧ (sign ≤ 0 ↔ le heap a b = true) := by
  unfold numbercmp
  rw [foo_ok there, foo_ok there']
  refine ⟨_, rfl, ?_⟩
  unfold le
  split <;> simp <;> omega

end Order

/-! ## The sort is the one of linked nodes -/

/-- The statements of `LL_SORT`. -/
def llCode : Code Heap ℕ where
  next heap _ p := next heap p
  cmp := numbercmp
  put heap tail e := if tail.isSome then setNext heap tail e else .ok heap
  close heap _ tail := setNext heap tail none
  wrap := int
  up i := int (i + 1)
  below i insize := decide (i < insize)

/-- What they do: there is no link backwards. -/
def llLawful : Lawful llCode where
  links := links
  prevs _ _ := none
  le := le
  Same := SameElements
  circular := false
  double := false
  limit := 2147483648
  same_refl := .refl
  same_trans := .trans
  same_le := SameElements.le_eq
  next_ok := fun _ leads => next_of_links leads
  cmp_ok := by
    intro heap x y there there'
    exact numbercmp_ok (links_isSome heap x ▸ there) (links_isSome heap y ▸ there')
  put_ok := by
    intro heap tail e there _
    cases tail with
    | none => exact ⟨heap, rfl, rfl, nofun, .refl _⟩
    | some t =>
        obtain ⟨heap', stored, leads, same⟩ :=
          setNext_ok (links_isSome heap t ▸ there t rfl) (some e)
        exact ⟨heap', stored, leads, nofun, same⟩
  close_ok := by
    intro heap x t _ there
    obtain ⟨heap', stored, leads, same⟩ := setNext_ok (links_isSome heap t ▸ there) none
    exact ⟨heap', stored, leads, nofun, same⟩
  one_lt := one_lt_limit
  wrap_lt := int_lt
  wrap_eq := int_count
  up_eq := int_succ
  below_eq _ _ _ _ := rfl

def Stepping.of (s : LinkSort.Stepping ℕ) : Stepping := ⟨s.q, s.psize, s.i, s.broken⟩

theorem stepOff_eq (fuel : ℕ) (oldhead : Option ℕ) (heap : Heap) (insize : ℤ) (p : Option ℕ) :
    stepOff fuel heap insize p =
      (llCode.stepOff fuel oldhead heap insize p).map Stepping.of := by
  unfold stepOff Code.stepOff
  refine whileLoop_map Stepping.of (fun s => rfl) (fun s => ?_) fuel { q := p }
  show (next heap s.q >>= _) = Except.map _ (next heap s.q >>= _)
  rcases next heap s.q with stop | _ | q <;> rfl

/-- The variables of `LL_SORT`'s inner loop. -/
def Merging.of (s : LinkSort.Merging Heap ℕ) : Merging :=
  ⟨s.mem, s.list, s.tail, s.p, s.q, s.psize, s.qsize⟩

theorem choose_eq (oldhead : Option ℕ) (s : LinkSort.Merging Heap ℕ) :
    (Merging.of s).choose = (llCode.choose oldhead s).map fun r => (r.1, Merging.of r.2) := by
  have takeP : (Merging.of s).takeP =
      (llCode.takeP oldhead s).map fun r => (r.1, Merging.of r.2) := by
    show (next s.mem s.p >>= _) = Except.map _ (next s.mem s.p >>= _)
    rcases next s.mem s.p with stop | p <;> rfl
  have takeQ : (Merging.of s).takeQ =
      (llCode.takeQ oldhead s).map fun r => (r.1, Merging.of r.2) := by
    show (next s.mem s.q >>= _) = Except.map _ (next s.mem s.q >>= _)
    rcases next s.mem s.q with stop | q <;> rfl
  unfold Merging.choose Code.choose
  rw [takeP, takeQ]
  show (if s.psize = 0 then _ else if s.qsize = 0 ∨ s.q = none then _ else
    numbercmp s.mem s.p s.q >>= _) = Except.map _ (if s.psize = 0 then _ else
      if s.qsize = 0 ∨ s.q = none then _ else numbercmp s.mem s.p s.q >>= _)
  split
  · rfl
  · split
    · rfl
    · rcases numbercmp s.mem s.p s.q with stop | sign
      · rfl
      · show (if sign ≤ 0 then _ else _) = Except.map _ (if sign ≤ 0 then _ else _)
        split <;> rfl

theorem append_eq (s : LinkSort.Merging Heap ℕ) (e : Option ℕ) :
    (Merging.of s).append e = (llCode.append s e).map Merging.of := by
  unfold Merging.append Code.append
  show (if s.tail.isSome = true then _ else _) = Except.map _
    ((if s.tail.isSome = true then setNext s.mem s.tail e else .ok s.mem) >>= _)
  split
  · show (setNext s.mem s.tail e >>= _) = Except.map _ (setNext s.mem s.tail e >>= _)
    rcases setNext s.mem s.tail e with stop | heap
    · rfl
    · simp [Merging.of, *]
      rfl
  · simp [Merging.of, *]
    rfl

theorem run_eq (fuel : ℕ) (oldhead : Option ℕ) (s : LinkSort.Merging Heap ℕ) :
    (Merging.of s).run fuel = (llCode.merge fuel oldhead s).map Merging.of := by
  refine whileLoop_map Merging.of (fun s => rfl) (fun s => ?_) fuel s
  show ((Merging.of s).choose >>= _) = Except.map _ (llCode.choose oldhead s >>= _)
  rw [choose_eq oldhead]
  rcases llCode.choose oldhead s with stop | ⟨e, t⟩
  · rfl
  · exact append_eq t e

def Passing.of (s : LinkSort.Passing Heap ℕ) : Passing := ⟨s.mem, s.list, s.tail, s.p, s.nmerges⟩

theorem mergeRuns_eq (fuel : ℕ) (oldhead : Option ℕ) (insize : ℤ) (s : LinkSort.Passing Heap ℕ) :
    mergeRuns fuel insize (Passing.of s) =
      (llCode.mergeRuns fuel oldhead insize s).map Passing.of := by
  unfold mergeRuns Code.mergeRuns
  show (stepOff fuel s.mem insize s.p >>= _) = Except.map _ (_ >>= _)
  rw [stepOff_eq fuel oldhead]
  rcases llCode.stepOff fuel oldhead s.mem insize s.p with stop | stepped
  · rfl
  · show (Merging.run fuel (Merging.of
      ⟨s.mem, s.list, s.tail, s.p, stepped.q, stepped.psize, insize⟩) >>= _) =
        Except.map _ (_ >>= _)
    rw [run_eq fuel oldhead]
    show _ = Except.map _ (llCode.merge fuel oldhead
      ⟨s.mem, s.list, s.tail, s.p, stepped.q, stepped.psize, insize⟩ >>= _)
    rcases llCode.merge fuel oldhead _ with stop | merged <;> rfl

def Sorting.of (s : LinkSort.Sorting Heap ℕ) : Sorting := ⟨s.mem, s.list, s.insize, s.looping⟩

theorem pass_eq (fuel : ℕ) (s : LinkSort.Sorting Heap ℕ) :
    (Sorting.of s).pass fuel = (llCode.pass fuel s).map Sorting.of := by
  unfold Sorting.pass Code.pass
  have loop : whileLoop (fun s => .ok s.p.isSome) (mergeRuns fuel s.insize) fuel
      (Passing.of { mem := s.mem, p := s.list }) =
      (whileLoop (fun s => .ok s.p.isSome) (llCode.mergeRuns fuel s.list s.insize) fuel
        { mem := s.mem, p := s.list }).map Passing.of :=
    whileLoop_map Passing.of (fun s => rfl) (fun t => mergeRuns_eq fuel s.list s.insize t) fuel _
  show (whileLoop _ _ fuel (Passing.of { mem := s.mem, p := s.list }) >>= _) =
    Except.map _ (_ >>= _)
  rw [show (Sorting.of s).insize = s.insize from rfl, loop]
  rcases whileLoop _ (llCode.mergeRuns fuel s.list s.insize) fuel _ with stop | passed
  · rfl
  · show (setNext passed.mem passed.tail none >>= _) =
      Except.map _ (setNext passed.mem passed.tail none >>= _)
    rcases setNext passed.mem passed.tail none with stop | heap <;> rfl

theorem llSort_eq (fuel : ℕ) (list : Option ℕ) (heap : Heap) :
    llSort fuel list heap = (llCode.sort fuel list heap).map fun s => (s.list, s.mem) := by
  unfold llSort Code.sort
  split
  · have loop : whileLoop (fun s => .ok s.looping) (Sorting.pass fuel) fuel
        (Sorting.of { mem := heap, list := list }) =
        (whileLoop (fun s => .ok s.looping) (llCode.pass fuel) fuel
          { mem := heap, list := list }).map Sorting.of :=
      whileLoop_map Sorting.of (fun s => rfl) (pass_eq fuel) fuel _
    show (whileLoop _ _ fuel (Sorting.of { mem := heap, list := list }) >>= _) = _
    rw [loop]
    rcases whileLoop _ (llCode.pass fuel) fuel _ with stop | s <;> rfl
  · rfl

/-! ## What it does to a list -/

section Whole

variable {heap : Heap} {list : Option ℕ} {xs : List ℕ} {fuel : ℕ}

theorem le_trans (heap : Heap) (a b c : ℕ) (h : le heap a b = true) (h' : le heap b c = true) :
    le heap a c = true := by
  simp only [le, decide_eq_true_eq] at *
  omega

theorem le_total (heap : Heap) (a b : ℕ) : (le heap a b || le heap b a) = true := by
  simp only [le, Bool.or_eq_true, decide_eq_true_eq]
  omega

/-- Elements with the same number stay in the order in which they were. -/
theorem llSort_stable (h : Segment (links heap) list xs none) (nodup : xs.Nodup) :
    Ends (xs.length < fuel ∧ xs.length ≤ 2147483648) (llSort fuel list heap) fun r => ∃ ys,
      Segment (links r.2) r.1 ys none ∧ ys.Perm xs ∧ SameElements heap r.2 ∧
        (xs.length ≤ 2147483648 → ys = xs.mergeSort (le heap)) := by
  have sorts := sort_ends (L := llLawful) fuel h nodup (.inr fun _ _ => rfl)
  have limit : xs.length ≤ 2147483648 → (xs.length : ℤ) ≤ llLawful.limit := Int.ofNat_le.mpr
  rw [llSort_eq]
  exact (sorts.of_imp fun holds => ⟨holds.1, limit holds.2⟩).map fun s ⟨ys, sorted⟩ =>
    ⟨ys, sorted.list, sorted.perm, sorted.same, fun short =>
      sorted.ordered (limit short) ⟨le_trans heap, le_total heap⟩⟩

/-- What the sort does to a list. -/
theorem llSort_ends (h : Segment (links heap) list xs none) (nodup : xs.Nodup) :
    Ends (xs.length < fuel ∧ xs.length ≤ 2147483648) (llSort fuel list heap) fun r => ∃ ys,
      Segment (links r.2) r.1 ys none ∧ ys.Perm xs ∧ SameElements heap r.2 ∧
        (xs.length ≤ 2147483648 → ys.Pairwise fun a b => number heap a ≤ number heap b) := by
  refine (llSort_stable h nodup).mono fun r ⟨ys, list, perm, same, sorted⟩ =>
    ⟨ys, list, perm, same, fun short => ?_⟩
  rw [sorted short]
  refine (List.pairwise_mergeSort (le_trans heap) (le_total heap) xs).imp fun h => ?_
  simpa only [le, decide_eq_true_eq] using h

end Whole

end Cjunk.Utlist
