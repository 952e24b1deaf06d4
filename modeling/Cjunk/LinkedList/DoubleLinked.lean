import Cjunk.Lib.LinkSort
import Cjunk.Lib.Words
import Cjunk.LinkedList.ListSort

/-!
# The doubly linked lists of `utlist.h`

The macros `DL_PREPEND`, `DL_APPEND`, `DL_DELETE`, `DL_SORT` and `DL_FOREACH` on the elements of
`double_linked.c`.  The `prev` of the head is the last element, so that the end of a list is found
without a walk.

`DL_SORT` does not set it: after the sort the `prev` of the head is `NULL`.  `Holds` is a list in
memory of which is known whether its head knows the last element.

## Main results

* `Holds.prepend`, `Holds.append`, `Holds.delete`, `Holds.sort` — what a macro does to a list
-/

namespace Cjunk.Utlist.Double

open WhileLoop LinkedList

/-- `el`. -/
structure El where
  /-- The bytes of `bname` before the first `NUL`. -/
  bname : List U8
  next : Option ℕ := none
  prev : Option ℕ := none

abbrev Heap := ℕ → Option El

/-! ## The macros -/

/-- `p->next`. -/
def next (heap : Heap) (p : Option ℕ) : Except Stop (Option ℕ) :=
  match p.bind heap with
  | some el => .ok el.next
  | none => .error .fault

/-- `p->prev`. -/
def prev (heap : Heap) (p : Option ℕ) : Except Stop (Option ℕ) :=
  match p.bind heap with
  | some el => .ok el.prev
  | none => .error .fault

/-- `p->bname`. -/
def bname (heap : Heap) (p : Option ℕ) : Except Stop (List U8) :=
  match p.bind heap with
  | some el => .ok el.bname
  | none => .error .fault

/-- A store into a field of `*p`. -/
def set (heap : Heap) (p : Option ℕ) (store : El → El) : Except Stop Heap :=
  match p with
  | none => .error .fault
  | some a =>
      match heap a with
      | some el => .ok (Function.update heap a (some (store el)))
      | none => .error .fault

/-- `p->next = q`. -/
def setNext (heap : Heap) (p q : Option ℕ) : Except Stop Heap :=
  set heap p fun el => { el with next := q }

/-- `p->prev = q`. -/
def setPrev (heap : Heap) (p q : Option ℕ) : Except Stop Heap :=
  set heap p fun el => { el with prev := q }

/-- `DL_PREPEND`. -/
def dlPrepend (head : Option ℕ) (add : ℕ) (heap : Heap) : Except Stop (Option ℕ × Heap) := do
  let heap ← setNext heap (some add) head
  if head.isSome then
    let heap ← setPrev heap (some add) (← prev heap head)
    let heap ← setPrev heap head (some add)
    return (some add, heap)
  else
    let heap ← setPrev heap (some add) (some add)
    return (some add, heap)

/-- `DL_APPEND`. -/
def dlAppend (head : Option ℕ) (add : ℕ) (heap : Heap) : Except Stop (Option ℕ × Heap) := do
  if head.isSome then
    let heap ← setPrev heap (some add) (← prev heap head)
    let heap ← setNext heap (← prev heap head) (some add)
    let heap ← setPrev heap head (some add)
    let heap ← setNext heap (some add) none
    return (head, heap)
  else
    let heap ← setPrev heap (some add) (some add)
    let heap ← setNext heap (some add) none
    return (some add, heap)

/-- `DL_DELETE`. -/
def dlDelete (head del : Option ℕ) (heap : Heap) : Except Stop (Option ℕ × Heap) := do
  if (← prev heap del) = del then
    return (none, heap)
  else if del = head then
    let heap ← setPrev heap (← next heap del) (← prev heap del)
    return (← next heap del, heap)
  else
    let heap ← setNext heap (← prev heap del) (← next heap del)
    if (← next heap del).isSome then
      let heap ← setPrev heap (← next heap del) (← prev heap del)
      return (head, heap)
    else
      let heap ← setPrev heap head (← prev heap del)
      return (head, heap)

/-- `strcmp`, on the bytes before the first `NUL`. -/
def strcmp : List U8 → List U8 → ℤ
  | [], [] => 0
  | [], _ :: _ => -1
  | _ :: _, [] => 1
  | a :: as, b :: bs => if a = b then strcmp as bs else a.toNat - b.toNat

/-- `namecmp`. -/
def namecmp (heap : Heap) (a b : Option ℕ) : Except Stop ℤ := do
  return strcmp (← bname heap a) (← bname heap b)

/-- `if (_ls_tail) _ls_tail->next = _ls_e; _ls_e->prev = _ls_tail;` -/
def put (heap : Heap) (tail e : Option ℕ) : Except Stop Heap := do
  if tail.isSome then
    let heap ← setNext heap tail e
    setPrev heap e tail
  else
    setPrev heap e tail

/-- The statements of `DL_SORT`. -/
def dlCode : LinkSort.Code Heap ℕ where
  next heap _ p := next heap p
  cmp := namecmp
  put := put
  close heap _ tail := setNext heap tail none
  wrap := int
  up i := int (i + 1)
  below i insize := decide (i < insize)

/-- `DL_SORT`. -/
def dlSort (fuel : ℕ) (list : Option ℕ) (heap : Heap) : Except Stop (Option ℕ × Heap) := do
  let s ← dlCode.sort fuel list heap
  return (s.list, s.mem)

/-! ## What the statements do -/

/-- Where the elements lead. -/
def links (heap : Heap) : ℕ → Option (Option ℕ) := fun a => (heap a).map El.next

def nextOf (heap : Heap) : ℕ → Option ℕ := fun a => (heap a).bind El.next

def prevOf (heap : Heap) : ℕ → Option ℕ := fun a => (heap a).bind El.prev

/-- The elements and their names are the same, whatever they are linked to. -/
def SameNames (heap heap' : Heap) : Prop := ∀ a, (heap' a).map El.bname = (heap a).map El.bname

theorem SameNames.refl (heap : Heap) : SameNames heap heap := fun _ => rfl

theorem SameNames.trans {heap heap' heap'' : Heap} (h : SameNames heap heap')
    (h' : SameNames heap' heap'') : SameNames heap heap'' := fun a => (h' a).trans (h a)

theorem SameNames.isSome {heap heap' : Heap} (h : SameNames heap heap') (a : ℕ) :
    (heap' a).isSome = (heap a).isSome := by
  rw [← Option.isSome_map (f := El.bname), h a, Option.isSome_map]

section Statements

variable {heap : Heap} {a : ℕ} {enough : Prop}

theorem links_isSome (heap : Heap) (a : ℕ) : (links heap a).isSome = (heap a).isSome :=
  Option.isSome_map

theorem links_eq (there : (heap a).isSome) : links heap a = some (nextOf heap a) := by
  obtain ⟨el, stored⟩ := Option.isSome_iff_exists.mp there
  simp [links, nextOf, stored]

theorem next_ends (there : (heap a).isSome) :
    Ends enough (next heap (some a)) (· = nextOf heap a) := by
  obtain ⟨el, stored⟩ := Option.isSome_iff_exists.mp there
  simp only [next, nextOf, Option.bind_some, stored]
  exact .ok rfl

theorem prev_ends (there : (heap a).isSome) :
    Ends enough (prev heap (some a)) (· = prevOf heap a) := by
  obtain ⟨el, stored⟩ := Option.isSome_iff_exists.mp there
  simp only [prev, prevOf, Option.bind_some, stored]
  exact .ok rfl

/-- The memory after some stores into links. -/
structure Stored (heap : Heap) (nexts prevs : ℕ → Option ℕ) (heap' : Heap) : Prop where
  next_eq : nextOf heap' = nexts
  prev_eq : prevOf heap' = prevs
  same : SameNames heap heap'

theorem Stored.refl (heap : Heap) : Stored heap (nextOf heap) (prevOf heap) heap :=
  ⟨rfl, rfl, .refl heap⟩

/-- A store into a field of an element, as it is seen in another. -/
theorem set_kept (view : El → Option ℕ) {store : El → El}
    (keeps : ∀ el, view (store el) = view el) (heap : Heap) (a : ℕ) :
    (fun b => (Function.update heap a ((heap a).map store) b).bind view) =
      fun b => (heap b).bind view := by
  funext b
  by_cases here : b = a
  · subst here
    cases heap b <;> simp [keeps]
  · rw [Function.update_of_ne here]

/-- A store into a field of an element, as it is seen there. -/
theorem set_changed {view : El → Option ℕ} {store : El → El} {q : Option ℕ}
    (sets : ∀ el, view (store el) = q) (there : (heap a).isSome) :
    (fun b => (Function.update heap a ((heap a).map store) b).bind view) =
      Function.update (fun b => (heap b).bind view) a q := by
  funext b
  by_cases here : b = a
  · subst here
    obtain ⟨el, stored⟩ := Option.isSome_iff_exists.mp there
    simp [stored, sets]
  · rw [Function.update_of_ne here, Function.update_of_ne here]

theorem set_ok (there : (heap a).isSome) (store : El → El)
    (keeps : ∀ el, (store el).bname = el.bname) :
    set heap (some a) store = .ok (Function.update heap a ((heap a).map store)) ∧
      SameNames heap (Function.update heap a ((heap a).map store)) := by
  obtain ⟨el, stored⟩ := Option.isSome_iff_exists.mp there
  refine ⟨by simp only [set, stored, Option.map_some], fun b => ?_⟩
  by_cases here : b = a
  · subst here
    simp [stored, keeps]
  · rw [Function.update_of_ne here]

variable {nexts prevs : ℕ → Option ℕ} {heap' : Heap}

theorem Stored.setNext (h : Stored heap nexts prevs heap') (there : (heap a).isSome)
    (q : Option ℕ) :
    Ends enough (setNext heap' (some a) q) (Stored heap (Function.update nexts a q) prevs) := by
  have there' : (heap' a).isSome := h.same.isSome a ▸ there
  obtain ⟨stored, same⟩ := set_ok there' (fun el => { el with next := q }) fun _ => rfl
  unfold Double.setNext
  rw [stored]
  exact .ok ⟨h.next_eq ▸ set_changed (fun _ => rfl) there',
    h.prev_eq ▸ set_kept El.prev (fun _ => by rfl) heap' a, h.same.trans same⟩

theorem Stored.setPrev (h : Stored heap nexts prevs heap') (there : (heap a).isSome)
    (q : Option ℕ) :
    Ends enough (setPrev heap' (some a) q) (Stored heap nexts (Function.update prevs a q)) := by
  have there' : (heap' a).isSome := h.same.isSome a ▸ there
  obtain ⟨stored, same⟩ := set_ok there' (fun el => { el with prev := q }) fun _ => rfl
  unfold Double.setPrev
  rw [stored]
  exact .ok ⟨h.next_eq ▸ set_kept El.next (fun _ => by rfl) heap' a,
    h.prev_eq ▸ set_changed (fun _ => rfl) there', h.same.trans same⟩

theorem Stored.next (h : Stored heap nexts prevs heap') (there : (heap a).isSome) :
    Ends enough (next heap' (some a)) (· = nexts a) :=
  h.next_eq ▸ next_ends (h.same.isSome a ▸ there)

theorem Stored.prev (h : Stored heap nexts prevs heap') (there : (heap a).isSome) :
    Ends enough (prev heap' (some a)) (· = prevs a) :=
  h.prev_eq ▸ prev_ends (h.same.isSome a ▸ there)

end Statements

/-! ## Lists in memory -/

/-- The links backwards, but for that of the head. -/
def inner (head : Option ℕ) (prevs : ℕ → Option ℕ) (a : ℕ) : Option ℕ :=
  if head = some a then none else prevs a

/-- The list from `head` has the elements `xs`.  The `prev` of its head is the last element if
`ring`, and else `NULL`. -/
structure Holds (heap : Heap) (head : Option ℕ) (xs : List ℕ) (ring : Bool) : Prop where
  nodup : xs.Nodup
  start : head = xs.head?
  there : ∀ x ∈ xs, (heap x).isSome
  linked : Linked (inner head (prevOf heap)) (nextOf heap) xs
  first : ∀ x, head = some x → prevOf heap x = if ring then xs.getLast? else none

section Macros

variable {heap : Heap} {head : Option ℕ} {xs : List ℕ} {ring : Bool} {a : ℕ} {enough : Prop}

theorem Holds.prepend (h : Holds heap head xs ring) (there : (heap a).isSome) (new : a ∉ xs) :
    Ends enough (dlPrepend head a heap) fun r =>
      Holds r.2 r.1 (a :: xs) (ring || xs.isEmpty) ∧ SameNames heap r.2 := by
  have nodup : (a :: xs).Nodup := List.nodup_cons.mpr ⟨new, h.nodup⟩
  have exist : ∀ {heap'}, SameNames heap heap' → ∀ x ∈ a :: xs, (heap' x).isSome := by
    intro heap' same x mem
    rw [same.isSome]
    rcases List.mem_cons.mp mem with rfl | mem
    · exact there
    · exact h.there x mem
  have pushed := h.linked.pushFront h.nodup new
  refine ((Stored.refl heap).setNext there head).bind fun heap₁ s₁ => ?_
  cases xs with
  | nil =>
      obtain rfl : head = none := h.start
      refine (s₁.setPrev there (some a)).bind fun heap₂ s₂ => ?_
      refine .ok ⟨⟨nodup, rfl, exist s₂.same, ?_, ?_⟩, s₂.same⟩
      · rw [s₂.next_eq, s₂.prev_eq]
        refine pushed.congr (fun x mem => ?_) fun _ _ => rfl
        obtain rfl := List.mem_singleton.mp mem
        simp [inner, setLink]
      · rintro x ⟨⟩
        rw [s₂.prev_eq, Function.update_self]
        simp
  | cons y ys =>
      obtain rfl : head = some y := h.start
      have there_y := h.there y List.mem_cons_self
      have other : a ≠ y := fun same => new (same ▸ List.mem_cons_self)
      refine (s₁.prev there_y).bind fun _ last => ?_
      subst last
      refine (s₁.setPrev there _).bind fun heap₂ s₂ => ?_
      refine (s₂.setPrev there_y (some a)).bind fun heap₃ s₃ => ?_
      refine .ok ⟨⟨nodup, rfl, exist s₃.same, ?_, ?_⟩, s₃.same⟩
      · rw [s₃.next_eq, s₃.prev_eq]
        refine pushed.congr (fun x mem => ?_) fun _ _ => rfl
        simp only [inner, setLink, List.head?_cons, Function.update_apply]
        grind
      · rintro x ⟨⟩
        rw [s₃.prev_eq, Function.update_of_ne other, Function.update_self, h.first y rfl]
        simp

theorem Holds.append (h : Holds heap head xs ring) (there : (heap a).isSome) (new : a ∉ xs)
    (knows : xs = [] ∨ ring = true) :
    Ends enough (dlAppend head a heap) fun r =>
      Holds r.2 r.1 (xs ++ [a]) true ∧ SameNames heap r.2 := by
  have nodup : (xs ++ [a]).Nodup := by
    simpa [List.nodup_append, h.nodup] using fun x mem => by rintro rfl; exact new mem
  have exist : ∀ {heap'}, SameNames heap heap' → ∀ x ∈ xs ++ [a], (heap' x).isSome := by
    intro heap' same x mem
    rw [same.isSome]
    rcases List.mem_append.mp mem with mem | mem
    · exact h.there x mem
    · exact List.mem_singleton.mp mem ▸ there
  have pushed := h.linked.pushBack h.nodup new
  cases xs with
  | nil =>
      obtain rfl : head = none := h.start
      refine ((Stored.refl heap).setPrev there (some a)).bind fun heap₁ s₁ => ?_
      refine (s₁.setNext there none).bind fun heap₂ s₂ => ?_
      refine .ok ⟨⟨nodup, rfl, exist s₂.same, ?_, ?_⟩, s₂.same⟩
      · rw [s₂.next_eq, s₂.prev_eq]
        refine pushed.congr (fun x mem => ?_) fun _ _ => rfl
        obtain rfl := List.mem_singleton.mp mem
        simp [inner]
      · rintro x ⟨⟩
        rw [s₂.prev_eq, Function.update_self]
        rfl
  | cons y ys =>
      obtain rfl : head = some y := h.start
      obtain rfl := knows.resolve_left (List.cons_ne_nil y ys)
      obtain ⟨l, last⟩ := Option.isSome_iff_exists.mp
        (List.getLast?_isSome.mpr (List.cons_ne_nil y ys))
      have inside : l ∈ y :: ys := List.mem_of_getLast? last
      have there_y := h.there y List.mem_cons_self
      have known : prevOf heap y = some l := (h.first y rfl).trans last
      have other_y : a ≠ y := fun same => new (same ▸ List.mem_cons_self)
      have other_l : a ≠ l := fun same => new (same ▸ inside)
      -- The `prev` of the head is read twice before it is written.
      refine (prev_ends there_y).bind fun _ read => ?_
      subst read
      refine ((Stored.refl heap).setPrev there _).bind fun heap₁ s₁ => ?_
      refine (s₁.prev there_y).bind fun _ read => ?_
      rw [Function.update_of_ne other_y.symm, known] at read
      subst read
      refine (s₁.setNext (h.there l inside) (some a)).bind fun heap₂ s₂ => ?_
      refine (s₂.setPrev there_y (some a)).bind fun heap₃ s₃ => ?_
      refine (s₃.setNext there none).bind fun heap₄ s₄ => ?_
      refine .ok ⟨⟨nodup, rfl, exist s₄.same, ?_, ?_⟩, s₄.same⟩
      · rw [s₄.next_eq, s₄.prev_eq, known]
        refine pushed.congr (fun x mem => ?_) fun x mem => ?_
        · simp only [inner, last, Function.update_apply]
          grind
        · simp only [last, setLink, Function.update_apply]
          grind
      · rintro x ⟨⟩
        rw [s₄.prev_eq, Function.update_self, if_pos rfl, List.getLast?_concat]

/-- Without the last element nothing can be appended. -/
theorem Holds.append_faults (h : Holds heap head xs false) (there : (heap a).isSome) (new : a ∉ xs)
    (more : xs ≠ []) : dlAppend head a heap = .error .fault := by
  obtain ⟨y, ys, rfl⟩ := List.exists_cons_of_ne_nil more
  obtain rfl : head = some y := h.start
  have there_y := h.there y List.mem_cons_self
  have known : prevOf heap y = none := h.first y rfl
  have other : y ≠ a := fun same => new (same ▸ List.mem_cons_self)
  refine (prev_ends there_y).bind_eq fun _ read => ?_
  refine ((Stored.refl heap).setPrev there _).bind_eq fun heap₁ s₁ => ?_
  refine (s₁.prev there_y).bind_eq fun _ read => ?_
  rw [Function.update_of_ne other, known] at read
  subst read
  rfl

/-- The only element is its own `prev`. -/
theorem Holds.delete_only (h : Holds heap head [a] true) :
    dlDelete head (some a) heap = .ok (none, heap) := by
  obtain rfl : head = some a := h.start
  refine (prev_ends (h.there a List.mem_cons_self)).bind_eq fun _ read => ?_
  rw [read, h.first a rfl]
  exact if_pos rfl

/-- Without the last element there is no telling that it is the only one. -/
theorem Holds.delete_only_faults (h : Holds heap head [a] false) :
    dlDelete head (some a) heap = .error .fault := by
  obtain rfl : head = some a := h.start
  have there := h.there a List.mem_cons_self
  have known : prevOf heap a = none := h.first a rfl
  refine (prev_ends there).bind_eq fun _ read => ?_
  rw [read, known, if_neg (Option.some_ne_none a).symm, if_pos rfl]
  refine (next_ends there).bind_eq fun _ read => ?_
  refine (prev_ends there).bind_eq fun _ _ => ?_
  rw [read, (h.linked [] a [] rfl).2]
  rfl

/-- The second element becomes the head, and keeps what the head knew. -/
theorem Holds.delete_first {y : ℕ} (h : Holds heap head (a :: y :: xs) ring) :
    Ends enough (dlDelete head (some a) heap) fun r =>
      Holds r.2 r.1 (y :: xs) ring ∧ SameNames heap r.2 := by
  obtain rfl : head = some a := h.start
  have there := h.there a List.mem_cons_self
  have there_y := h.there y (List.mem_cons_of_mem a List.mem_cons_self)
  obtain ⟨apart, nodup⟩ := List.nodup_cons.mp h.nodup
  have after : nextOf heap a = some y := (h.linked [] a (y :: xs) rfl).2
  have known : prevOf heap a = if ring then (y :: xs).getLast? else none := by
    simpa using h.first a rfl
  have self : prevOf heap a ≠ some a := by
    rw [known]
    cases ring
    · exact (Option.some_ne_none a).symm
    · exact fun same => apart (List.mem_of_getLast? same)
  refine (prev_ends there).bind fun _ read => ?_
  rw [read, if_neg self, if_pos rfl]
  refine (next_ends there).bind fun _ read => ?_
  rw [after] at read
  subst read
  refine (prev_ends there).bind fun _ read => ?_
  subst read
  refine ((Stored.refl heap).setPrev there_y _).bind fun heap₁ s₁ => ?_
  refine (s₁.next there).bind fun _ read => ?_
  rw [after] at read
  subst read
  refine .ok ⟨⟨nodup, rfl, fun x mem => ?_, ?_, ?_⟩, s₁.same⟩
  · rw [s₁.same.isSome]
    exact h.there x (List.mem_cons_of_mem a mem)
  · rw [s₁.next_eq, s₁.prev_eq]
    refine (h.linked.tail nodup).congr (fun x mem => ?_) fun _ _ => rfl
    have other : x ≠ a := fun same => apart (same ▸ mem)
    simp only [inner, setLink, List.head?_cons, Function.update_apply]
    grind
  · rintro x ⟨⟩
    rw [s₁.prev_eq, Function.update_self, known]

/-- An element behind the head is unlinked.  If it is the last, the head learns what the last
element is. -/
theorem Holds.delete_behind {z : ℕ} {pre post : List ℕ}
    (h : Holds heap head (z :: pre ++ a :: post) ring) :
    Ends enough (dlDelete head (some a) heap) fun r =>
      Holds r.2 r.1 (z :: pre ++ post) (ring || post.isEmpty) ∧ SameNames heap r.2 := by
  obtain rfl : head = some z := h.start
  obtain ⟨l, last⟩ := Option.isSome_iff_exists.mp
    (List.getLast?_isSome.mpr (List.cons_ne_nil z pre))
  have inside : l ∈ z :: pre := List.mem_of_getLast? last
  obtain ⟨before, after⟩ := h.linked (z :: pre) a post rfl
  have linked := h.linked.unlink h.nodup
  obtain ⟨apart, nodup⟩ := List.nodup_cons.mp (List.nodup_middle.mp h.nodup)
  have there := h.there a (by simp)
  have there_l := h.there l (List.mem_append_left _ inside)
  have other_z : z ≠ a := fun same => apart (by simp [same])
  have other_l : l ≠ a := fun same => apart (List.mem_append_left _ (same ▸ inside))
  -- As the element is not the head, its `prev` is its neighbour.
  have known : prevOf heap a = some l := by
    rw [← last, ← before, inner, if_neg (by simpa using other_z)]
  refine (prev_ends there).bind fun _ read => ?_
  rw [read, known, if_neg (by simpa using other_l), if_neg (by simpa using other_z.symm)]
  refine (prev_ends there).bind fun _ read => ?_
  rw [known] at read
  subst read
  refine (next_ends there).bind fun _ read => ?_
  subst read
  refine ((Stored.refl heap).setNext there_l _).bind fun heap₁ s₁ => ?_
  refine (s₁.next there).bind fun _ read => ?_
  rw [Function.update_of_ne other_l.symm, after] at read
  subst read
  have exist : ∀ {heap'}, SameNames heap heap' → ∀ x ∈ z :: pre ++ post, (heap' x).isSome := by
    intro heap' same x mem
    rw [same.isSome]
    exact h.there x (by simp at mem ⊢; tauto)
  -- The `prev` of the next element is set, or that of the head if there is none.
  cases post with
  | nil =>
      rw [if_neg (by simp)]
      refine (s₁.prev there).bind fun _ read => ?_
      rw [known] at read
      subst read
      refine (s₁.setPrev (h.there z (by simp)) (some l)).bind fun heap₂ s₂ => ?_
      refine .ok ⟨⟨nodup, rfl, exist s₂.same, ?_, ?_⟩, s₂.same⟩
      · rw [s₂.next_eq, s₂.prev_eq]
        refine linked.congr (fun x _ => ?_) fun x _ => ?_
        · simp only [unlinkPrev, inner, setLink, after, List.head?_nil, Function.update_apply]
          grind
        · rw [unlinkNext, before, last, after]
          rfl
      · rintro x ⟨⟩
        rw [s₂.prev_eq, Function.update_self, List.isEmpty_nil, Bool.or_true, if_pos rfl,
          List.append_nil, last]
  | cons y post =>
      rw [if_pos (by simp)]
      have there_y := h.there y (by simp)
      have other_y : y ≠ z := by
        rintro rfl
        simp at nodup
      refine (s₁.next there).bind fun _ read => ?_
      rw [Function.update_of_ne other_l.symm, after] at read
      subst read
      refine (s₁.prev there).bind fun _ read => ?_
      rw [known] at read
      subst read
      refine (s₁.setPrev there_y (some l)).bind fun heap₂ s₂ => ?_
      refine .ok ⟨⟨nodup, rfl, exist s₂.same, ?_, ?_⟩, s₂.same⟩
      · rw [s₂.next_eq, s₂.prev_eq]
        refine linked.congr (fun x _ => ?_) fun x _ => ?_
        · simp only [unlinkPrev, inner, setLink, after, List.head?_cons, Function.update_apply]
          grind
        · rw [unlinkNext, before, last, after]
          rfl
      · rintro x ⟨⟩
        rw [s₂.prev_eq, Function.update_of_ne other_y.symm, h.first z rfl, List.getLast?_append,
          List.getLast?_append, List.getLast?_cons_cons, List.isEmpty_cons, Bool.or_false]

/-- An element is deleted.  The head learns what the last element is when that is deleted. -/
theorem Holds.delete (h : Holds heap head xs ring) (inside : a ∈ xs)
    (knows : xs ≠ [a] ∨ ring = true) :
    Ends enough (dlDelete head (some a) heap) fun r =>
      Holds r.2 r.1 (xs.erase a) (ring || decide (xs.getLast? = some a)) ∧
        SameNames heap r.2 := by
  obtain ⟨pre, post, rfl⟩ := List.append_of_mem inside
  have apart := (List.nodup_cons.mp (List.nodup_middle.mp h.nodup)).1
  rw [List.mem_append, not_or] at apart
  have last : decide ((pre ++ a :: post).getLast? = some a) = post.isEmpty := by
    cases post with
    | nil => simp
    | cons y post =>
        rw [List.isEmpty_cons]
        exact decide_eq_false (getLast?_middle_ne h.nodup)
  rw [last, List.erase_append_right _ apart.1, List.erase_cons_head]
  cases pre with
  | nil =>
      cases post with
      | nil =>
          obtain rfl := knows.resolve_left (by simp)
          rw [h.delete_only]
          exact .ok ⟨⟨.nil, rfl, nofun, .nil, nofun⟩, .refl heap⟩
      | cons y post =>
          rw [List.isEmpty_cons, Bool.or_false]
          exact h.delete_first
  | cons z pre => exact h.delete_behind

end Macros

/-! ## The order of the names -/

/-- The name of an element. -/
def nameOf (heap : Heap) (a : ℕ) : List U8 := ((heap a).map El.bname).getD []

/-- What comes first, or may do so. -/
def nameLe (heap : Heap) (a b : ℕ) : Bool := strcmp (nameOf heap a) (nameOf heap b) ≤ 0

theorem strcmp_neg (a b : List U8) : strcmp b a = -strcmp a b := by
  induction a, b using strcmp.induct with
  | case1 => rfl
  | case2 b bs => simp [strcmp]
  | case3 a as => simp [strcmp]
  | case4 as b bs ih =>
      rw [strcmp, strcmp, if_pos rfl, if_pos rfl]
      exact ih
  | case5 a as b bs other =>
      rw [strcmp, strcmp, if_neg other, if_neg (Ne.symm other)]
      omega

theorem strcmp_trans {a b c : List U8} (h : strcmp a b ≤ 0) (h' : strcmp b c ≤ 0) :
    strcmp a c ≤ 0 := by
  induction a generalizing b c with
  | nil =>
      cases c with
      | nil => exact Int.le_refl 0
      | cons z c => simp [strcmp]
  | cons x a ih =>
      obtain ⟨y, b, rfl⟩ : ∃ y b', b = y :: b' := by
        cases b with
        | nil => simp [strcmp] at h
        | cons y b => exact ⟨y, b, rfl⟩
      obtain ⟨z, c, rfl⟩ : ∃ z c', c = z :: c' := by
        cases c with
        | nil => simp [strcmp] at h'
        | cons z c => exact ⟨z, c, rfl⟩
      have number {u v : U8} (other : u ≠ v) : u.toNat ≠ v.toNat := mt BitVec.eq_of_toNat_eq other
      unfold strcmp at h h' ⊢
      split at h <;> split at h' <;> split <;> grind

/-! ## The sort -/

section Sorts

open LinkSort SinglyLinked

variable {heap heap' : Heap} {head : Option ℕ} {xs : List ℕ} {ring : Bool} {a b : ℕ}
  {nexts prevs : ℕ → Option ℕ} {q : Option ℕ}

theorem bname_ok (there : (heap a).isSome) : bname heap (some a) = .ok (nameOf heap a) := by
  obtain ⟨el, stored⟩ := Option.isSome_iff_exists.mp there
  simp [bname, nameOf, stored]

theorem namecmp_ok (there : (heap a).isSome) (there' : (heap b).isSome) :
    ∃ sign, namecmp heap (some a) (some b) = .ok sign ∧
      (sign ≤ 0 ↔ nameLe heap a b = true) := by
  unfold namecmp
  rw [bname_ok there, bname_ok there']
  exact ⟨_, rfl, decide_eq_true_iff.symm⟩

theorem SameNames.nameOf_eq (h : SameNames heap heap') : nameOf heap' = nameOf heap :=
  funext fun a => by rw [nameOf, h a, nameOf]

theorem SameNames.nameLe_eq (h : SameNames heap heap') : nameLe heap' = nameLe heap := by
  funext a b
  rw [nameLe, nameLe, h.nameOf_eq]

theorem Stored.links_kept (h : Stored heap (nextOf heap) prevs heap') :
    links heap' = links heap := by
  funext b
  by_cases there : (heap b).isSome = true
  · rw [links_eq there, links_eq (h.same.isSome b ▸ there), h.next_eq]
  · have absent : links heap b = none := by
      rwa [← Option.not_isSome_iff_eq_none, links_isSome]
    rw [absent, ← Option.not_isSome_iff_eq_none, links_isSome, h.same.isSome]
    exact there

theorem Stored.links_changed (h : Stored heap (Function.update (nextOf heap) a q) prevs heap')
    (there : (heap a).isSome) : links heap' = Function.update (links heap) a (some q) := by
  funext b
  by_cases here : b = a
  · subst here
    rw [links_eq (h.same.isSome b ▸ there), h.next_eq, Function.update_self, Function.update_self]
  · rw [Function.update_of_ne here]
    by_cases there_b : (heap b).isSome = true
    · rw [links_eq there_b, links_eq (h.same.isSome b ▸ there_b), h.next_eq,
        Function.update_of_ne here]
    · have absent : links heap b = none := by
        rwa [← Option.not_isSome_iff_eq_none, links_isSome]
      rw [absent, ← Option.not_isSome_iff_eq_none, links_isSome, h.same.isSome]
      exact there_b

theorem cmp_lawful (there : (links heap a).isSome) (there' : (links heap b).isSome) :
    ∃ sign, namecmp heap (some a) (some b) = .ok sign ∧ (sign ≤ 0 ↔ nameLe heap a b = true) :=
  namecmp_ok (links_isSome heap a ▸ there) (links_isSome heap b ▸ there')

theorem put_lawful {tail : Option ℕ} (there : ∀ t ∈ tail, (links heap t).isSome)
    (there_a : (links heap a).isSome) :
    ∃ heap', put heap tail (some a) = .ok heap' ∧
      links heap' = setLast (links heap) tail (some a) ∧
      (true = true → prevOf heap' = Function.update (prevOf heap) a tail) ∧
        SameNames heap heap' := by
  rw [links_isSome] at there_a
  cases tail with
  | none =>
      obtain ⟨heap₁, stored, s₁⟩ := ((Stored.refl heap).setPrev there_a none).finished trivial
      exact ⟨heap₁, stored, s₁.links_kept, fun _ => s₁.prev_eq, s₁.same⟩
  | some t =>
      have there_t : (heap t).isSome := links_isSome heap t ▸ there t rfl
      obtain ⟨heap₁, stored₁, s₁⟩ := ((Stored.refl heap).setNext there_t (some a)).finished trivial
      obtain ⟨heap₂, stored₂, s₂⟩ := (s₁.setPrev there_a (some t)).finished trivial
      refine ⟨heap₂, ?_, s₂.links_changed there_t, fun _ => s₂.prev_eq, s₂.same⟩
      show (setNext heap (some t) (some a) >>= _) = _
      rw [stored₁]
      exact stored₂

/-- What the statements of `DL_SORT` do. -/
def dlLawful : Lawful dlCode where
  links := links
  prevs := prevOf
  le := nameLe
  Same := SameNames
  circular := false
  double := true
  limit := 2147483648
  same_refl := .refl
  same_trans := .trans
  same_le := SameNames.nameLe_eq
  next_ok := by
    intro heap x r _ leads
    have there : (heap x).isSome := links_isSome heap x ▸ Option.isSome_of_eq_some leads
    rw [links_eq there, Option.some_inj] at leads
    subst leads
    obtain ⟨q, read, rfl⟩ := (next_ends there).finished trivial
    exact read
  cmp_ok := cmp_lawful
  put_ok := put_lawful
  close_ok := by
    intro heap x t _ there
    rw [links_isSome] at there
    obtain ⟨heap₁, stored, s₁⟩ := ((Stored.refl heap).setNext there none).finished trivial
    exact ⟨heap₁, stored, s₁.links_changed there, fun _ => s₁.prev_eq, s₁.same⟩
  one_lt := one_lt_limit
  wrap_lt := int_lt
  wrap_eq := int_count
  up_eq := int_succ
  below_eq _ _ _ _ := rfl

theorem nameLe_ordered (heap : Heap) : dlLawful.Ordered heap where
  trans x y z xy yz := by
    simp only [dlLawful, nameLe, decide_eq_true_eq] at *
    exact strcmp_trans xy yz
  total x y := by
    have neg := strcmp_neg (nameOf heap x) (nameOf heap y)
    simp only [dlLawful, nameLe, Bool.or_eq_true, decide_eq_true_eq]
    omega

/-- The sort leaves the elements in order, those with the same name as they were before.  The
head does not know the last of them. -/
theorem Holds.sort (h : Holds heap head xs ring) (fuel : ℕ) :
    Ends (xs.length < fuel ∧ xs.length ≤ 2147483648) (dlSort fuel head heap) fun r => ∃ ys,
      Holds r.2 r.1 ys false ∧ SameNames heap r.2 ∧ ys.Perm xs ∧
        (xs.length ≤ 2147483648 → ys = xs.mergeSort (nameLe heap)) := by
  have list : Segment (links heap) head xs none :=
    h.start ▸ segment_of_linked h.linked fun x mem => links_eq (h.there x mem)
  have limit : xs.length ≤ 2147483648 → (xs.length : ℤ) ≤ dlLawful.limit := Int.ofNat_le.mpr
  have sorts := sort_ends (L := dlLawful) fuel list h.nodup (.inr fun _ _ => rfl)
  refine Ends.bind (sorts.of_imp fun holds => ⟨holds.1, limit holds.2⟩) fun s ⟨ys, sorted⟩ =>
    .ok ⟨ys, ?_, sorted.same, sorted.perm, fun short =>
      sorted.ordered (limit short) (nameLe_ordered heap)⟩
  have nodup : ys.Nodup := sorted.perm.nodup_iff.mpr h.nodup
  have list' : Segment (links s.mem) s.list ys none := sorted.list
  have back : ∀ pre x post, ys = pre ++ x :: post → prevOf s.mem x = pre.getLast? := by
    intro pre x post split
    exact (sorted.back rfl pre x post split).trans (if_neg fun both => Bool.noConfusion both.1)
  have there : ∀ x ∈ ys, (s.mem x).isSome := fun x mem =>
    links_isSome s.mem x ▸ list'.isSome x mem
  refine ⟨nodup, list'.head, there, ?_, fun x first => ?_⟩
  · refine (linked_of_segment list' (fun x mem => links_eq (there x mem)) back).congr
      (fun x mem => ?_) fun _ _ => rfl
    unfold inner
    split
    · rename_i first
      obtain ⟨rest, split⟩ := List.head?_eq_some_iff.mp (list'.head.symm.trans first)
      exact (back [] x rest split).symm
    · rfl
  · obtain ⟨rest, split⟩ := List.head?_eq_some_iff.mp (list'.head.symm.trans first)
    exact back [] x rest split

end Sorts

end Cjunk.Utlist.Double
