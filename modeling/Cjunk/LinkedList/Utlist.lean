import Mathlib.Data.Int.Notation
import Cjunk.Lib.SinglyLinked
import Cjunk.Lib.WhileLoop

/-!
# The singly linked lists of `utlist.h`

The macros `LL_PREPEND`, `LL_APPEND`, `LL_DELETE` and `LL_FOREACH` on the elements of `list.c`.
An address is a number, and `NULL` is `none`; the heap has an element at the addresses that are
allocated.  The fields `bname` and `prev`, which nothing reads, are left out.
-/

namespace Cjunk.Utlist

open SinglyLinked WhileLoop

/-- `el`. -/
structure El where
  foo : ℤ
  next : Option ℕ

abbrev Heap := ℕ → Option El

/-- Where the elements lead. -/
def links (heap : Heap) : ℕ → Option (Option ℕ) := fun a => (heap a).map El.next

/-- `p->next`. -/
def next (heap : Heap) (p : Option ℕ) : Except Stop (Option ℕ) :=
  match p.bind heap with
  | some el => .ok el.next
  | none => .error .fault

/-- `p->foo`. -/
def foo (heap : Heap) (p : Option ℕ) : Except Stop ℤ :=
  match p.bind heap with
  | some el => .ok el.foo
  | none => .error .fault

/-- `p->next = q`. -/
def setNext (heap : Heap) (p q : Option ℕ) : Except Stop Heap :=
  match p with
  | none => .error .fault
  | some a =>
      match heap a with
      | some el => .ok (Function.update heap a (some { el with next := q }))
      | none => .error .fault

/-! ## The macros -/

/-- `LL_PREPEND`, which leaves a new head. -/
def llPrepend (head : Option ℕ) (add : ℕ) (heap : Heap) : Except Stop (Option ℕ × Heap) := do
  let heap ← setNext heap (some add) head
  return (some add, heap)

/-- `LL_APPEND`. -/
def llAppend (fuel : ℕ) (head : Option ℕ) (add : ℕ) (heap : Heap) :
    Except Stop (Option ℕ × Heap) := do
  let heap ← setNext heap (some add) none
  if head.isSome then
    let tmp ← whileLoop (fun tmp => do return (← next heap tmp).isSome) (next heap) fuel head
    let heap ← setNext heap tmp (some add)
    return (head, heap)
  else
    return (some add, heap)

/-- `LL_DELETE`. -/
def llDelete (fuel : ℕ) (head del : Option ℕ) (heap : Heap) :
    Except Stop (Option ℕ × Heap) := do
  if head = del then
    return (← next heap head, heap)
  else
    let tmp ← whileLoop
      (fun tmp => do
        let behind ← next heap tmp
        return behind.isSome && behind ≠ del)
      (next heap) fuel head
    if (← next heap tmp).isSome then
      let heap ← setNext heap tmp (← next heap del)
      return (head, heap)
    else
      return (head, heap)

section Foreach

variable {σ : Type}

/-- `LL_FOREACH`.  Where an element leads is read after the body has run. -/
def llForeach (fuel : ℕ) (head : Option ℕ) (heap : σ → Heap)
    (body : Option ℕ → σ → Except Stop σ) (s : σ) : Except Stop σ := do
  let r ← whileLoop (fun r => .ok r.1.isSome)
    (fun r => do
      let s ← body r.1 r.2
      let el ← next (heap s) r.1
      return (el, s))
    fuel (head, s)
  return r.2

end Foreach

/-! ## What they do -/

section Macros

variable {heap heap' : Heap} {head p q : Option ℕ} {a : ℕ} {el : El} {xs : List ℕ} {fuel : ℕ}

/-- The elements are the same, whatever they are linked to. -/
def SameElements (heap heap' : Heap) : Prop := ∀ a, (heap' a).map El.foo = (heap a).map El.foo

theorem SameElements.refl (heap : Heap) : SameElements heap heap := fun _ => rfl

theorem SameElements.trans {heap'' : Heap} (h : SameElements heap heap')
    (h' : SameElements heap' heap'') : SameElements heap heap'' := fun a => (h' a).trans (h a)

theorem SameElements.isSome (h : SameElements heap heap') (a : ℕ) :
    (heap' a).isSome = (heap a).isSome := by
  rw [← Option.isSome_map (f := El.foo), h a, Option.isSome_map]

theorem links_isSome (heap : Heap) (a : ℕ) : (links heap a).isSome = (heap a).isSome :=
  Option.isSome_map

theorem next_of_links (leads : links heap a = some q) : next heap (some a) = .ok q := by
  obtain ⟨el, stored, rfl⟩ := Option.map_eq_some_iff.mp leads
  unfold next
  rw [Option.bind_some, stored]

/-- An element that exists can be made to lead anywhere. -/
theorem setNext_ok (there : (heap a).isSome) (q : Option ℕ) :
    ∃ heap', setNext heap (some a) q = .ok heap' ∧
      links heap' = Function.update (links heap) a (some q) ∧ SameElements heap heap' := by
  obtain ⟨el, stored⟩ := Option.isSome_iff_exists.mp there
  refine ⟨Function.update heap a (some { el with next := q }), ?_, ?_, fun b => ?_⟩
  · simp only [setNext, stored]
  · funext b
    by_cases here : b = a
    · subst here
      simp [links]
    · simp [links, Function.update_of_ne here]
  · by_cases here : b = a
    · subst here
      simp [stored]
    · rw [Function.update_of_ne here]

/-- The head is deleted. -/
theorem llDelete_head (leads : links heap a = some q) :
    llDelete fuel (some a) (some a) heap = .ok (q, heap) := by
  unfold llDelete
  rw [if_pos rfl, next_of_links leads]
  rfl

theorem llPrepend_ends (h : Segment (links heap) head xs none) (there : (heap a).isSome)
    (new : a ∉ xs) : ∃ heap', llPrepend head a heap = .ok (some a, heap') ∧
      Segment (links heap') (some a) (a :: xs) none ∧ SameElements heap heap' := by
  obtain ⟨heap', stored, leads, same⟩ := setNext_ok there head
  refine ⟨heap', ?_, ⟨rfl, head, ?_, ?_⟩, same⟩
  · unfold llPrepend
    rw [stored]
    rfl
  · rw [leads, Function.update_self]
  · rw [leads]
    exact h.congr fun x mem => Function.update_of_ne (by rintro rfl; exact new mem) _ _

/-- The last element is found, and made to lead to the new one. -/
theorem llAppend_ends (h : Segment (links heap) head xs none) (nodup : xs.Nodup)
    (there : (heap a).isSome) (new : a ∉ xs) :
    Ends (xs.length < fuel) (llAppend fuel head a heap) fun r =>
      Segment (links r.2) r.1 (xs ++ [a]) none ∧ SameElements heap r.2 := by
  obtain ⟨heap₁, stored, leads, same⟩ := setNext_ok there none
  have alone : links heap₁ a = some none := by rw [leads, Function.update_self]
  have others : ∀ x ∈ xs, links heap₁ x = links heap x := by
    intro x mem
    rw [leads, Function.update_of_ne (by rintro rfl; exact new mem)]
  have before : Segment (links heap₁) head xs none := h.congr others
  unfold llAppend
  rw [stored]
  show Ends _ (if head.isSome = true then _ else _) _
  cases xs with
  | nil =>
      obtain rfl : head = none := before.head
      exact .ok ⟨⟨rfl, none, alone, rfl⟩, same⟩
  | cons x xs =>
      obtain rfl : head = some x := before.1
      rw [if_pos Option.isSome_some]
      -- `tmp` is an element of the list, and what is behind it is left to do.
      refine (whileLoop_ends (fun tmp => ((tmp.bind (links heap₁)).bind id).isSome)
        (fun behind tmp => ∃ front y, x :: xs = front ++ y :: behind ∧ tmp = some y) List.length
        ?_ ?_ (g := xs) ⟨[], x, rfl, rfl⟩ ?_).bind ?_
      · rintro behind - ⟨front, y, split, rfl⟩
        have leads : links heap₁ y = some behind.head? := (split ▸ before).leads
        rw [next_of_links leads, Option.bind_some, leads]
        rfl
      · rintro behind - ⟨front, y, split, rfl⟩ more
        have leads : links heap₁ y = some behind.head? := (split ▸ before).leads
        rw [next_of_links leads]
        cases behind with
        | nil => simp [leads] at more
        | cons z behind =>
            exact .ok ⟨behind, ⟨front ++ [y], z, by simp [split], rfl⟩,
              fun _ => Nat.lt_succ_self _⟩
      · exact fun enough => Nat.lt_of_succ_lt enough
      · rintro - ⟨behind, ⟨front, y, split, rfl⟩, done⟩
        have leads : links heap₁ y = some behind.head? := (split ▸ before).leads
        obtain rfl : behind = [] := by
          cases behind with
          | nil => rfl
          | cons z behind => simp [leads] at done
        rw [split] at before new nodup ⊢
        have last : (heap₁ y).isSome := by
          rw [← links_isSome, leads]
          rfl
        obtain ⟨heap₂, stored, leads₂, same₂⟩ := setNext_ok last (some a)
        rw [stored]
        refine .ok ⟨?_, same.trans same₂⟩
        obtain ⟨r, first, rfl, -⟩ := segment_append.mp before
        show Segment (links heap₂) (some x) _ none
        rw [leads₂]
        refine (first.lead nodup (some a)).snoc ?_
        rw [Function.update_of_ne (by rintro rfl; simp at new), alone]

end Macros

/-- The rule for `LL_FOREACH`: the body may change the list as it likes, if only the element that
it is called for still leads to the rest afterwards. -/
theorem llForeach_ends {σ : Type} {fuel : ℕ} {head : Option ℕ} {heap : σ → Heap}
    {body : Option ℕ → σ → Except Stop σ} {s : σ} {xs : List ℕ} {enough : Prop}
    (I : List ℕ → List ℕ → σ → Prop) (first : head = xs.head?)
    (turn : ∀ front x rest s, xs = front ++ x :: rest → I front (x :: rest) s →
      Ends enough (body (some x) s) fun t =>
        links (heap t) x = some rest.head? ∧ I (front ++ [x]) rest t)
    (start : I [] xs s) (fits : enough → xs.length < fuel) :
    Ends enough (llForeach fuel head heap body s) (I xs []) := by
  show Ends enough (walk (fun t => next (heap t)) body fuel head s) (I xs [])
  refine walk_ends I first (fun front x rest s split inv => ?_) start fits
  exact (turn front x rest s split inv).mono fun t ⟨leads, inv'⟩ => ⟨next_of_links leads, inv'⟩

end Cjunk.Utlist
