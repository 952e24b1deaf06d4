import Cjunk.Lib.Refinement
import Cjunk.LinkedList.NumberList

/-!
# What `list.c` does to its list of numbers

`Listing` is what the calls of `list.c` are about: the elements with their numbers, those that
were freed, and what was printed.  The memory of the program has just that in every run.

## Main results

* `numbers_runAll_refines` — in every run of calls the list in memory, what is printed and what is
  freed is what the calls describe
-/

namespace Cjunk.Utlist

open SinglyLinked WhileLoop Run Refinement

/-- The elements with their numbers, those that were freed, and what was printed. -/
structure Listing where
  xs : List (ℕ × ℤ) := []
  freed : List ℕ := []
  stdout : List String := []

/-- What comes first, or may do so. -/
def inOrder (p q : ℕ × ℤ) : Bool := p.2 ≤ q.2

/-- What a call does.  There is no head to read if the list is empty. -/
def Listing.call (l : Listing) : Call → Option Listing
  | .addNumber num number =>
      number.map fun new => { l with xs := l.xs ++ [(new.1, num)] }
  | .addPreNumber num number =>
      number.map fun new => { l with xs := (new.1, num) :: l.xs }
  | .printSorted =>
      let sorted := l.xs.mergeSort inOrder
      some { l with
        xs := sorted
        stdout := l.stdout ++ ["before sort...\n"] ++ l.xs.map (fun p => toString p.2 ++ " ") ++
          ["\nafter sort...\n"] ++ sorted.map fun p => toString p.2 ++ " " }
  | .getHeadAndDel =>
      match l.xs with
      | [] => none
      | p :: xs => some {
          xs := xs
          freed := l.freed ++ [p.1]
          stdout := l.stdout ++ ["head->foo:" ++ toString p.2 ++ "\n"] }
  | .deleteAll => some {
      xs := []
      freed := l.freed ++ l.xs.map Prod.fst
      stdout := l.stdout ++ l.xs.map fun p => "deleting: " ++ toString p.2 ++ "\n" }

/-- `malloc` gives an address that is not in use, and the elements that are sorted can be
counted. -/
def Call.Allowed (l : Listing) : Call → Prop
  | .addNumber _ number | .addPreNumber _ number => ∃ new ∈ number, new.1 ∉ l.xs.map Prod.fst
  | .printSorted => l.xs.length ≤ 2147483648
  | .getHeadAndDel | .deleteAll => True

/-- The memory is that of a listing. -/
structure IsListing (m : Memory) (l : Listing) : Prop where
  listed : Listed (l.xs.map Prod.fst) m
  numbers : ∀ p ∈ l.xs, number m.heap p.1 = p.2
  freed : m.freed = l.freed
  stdout : m.stdout = l.stdout

section Calls

variable {m m' : Memory} {l : Listing} {c : Call} {fuel : ℕ}

theorem isListing_nil : IsListing {} {} := ⟨listed_nil, nofun, rfl, rfl⟩

/-- What is printed of the numbers that are stored is what is printed of those of a listing. -/
theorem map_number {heap : Heap} {xs : List (ℕ × ℤ)} (known : ∀ p ∈ xs, number heap p.1 = p.2)
    (text : ℤ → String) :
    (xs.map Prod.fst).map (fun a => text (number heap a)) = xs.map fun p => text p.2 := by
  rw [List.map_map]
  exact List.map_congr_left fun p mem => congrArg text (known p mem)

/-- The sort of the elements by the numbers that are stored is that of the listing. -/
theorem IsListing.map_mergeSort (h : IsListing m l) :
    (l.xs.map Prod.fst).mergeSort (le m.heap) = (l.xs.mergeSort inOrder).map Prod.fst := by
  refine (List.map_mergeSort fun p mem q mem' => ?_).symm
  rw [inOrder, le, h.numbers p mem, h.numbers q mem']

/-- The listing with one more element. -/
theorem IsListing.added {a : ℕ} {num : ℤ} {xs : List (ℕ × ℤ)} (h : IsListing m l)
    (new : a ∉ l.xs.map Prod.fst) (listed : Listed (xs.map Prod.fst) m') (added : Added m a num m')
    (either : ∀ p ∈ xs, p = (a, num) ∨ p ∈ l.xs) : IsListing m' { l with xs := xs } := by
  refine ⟨listed, fun p mem => ?_, added.freed.trans h.freed, added.stdout.trans h.stdout⟩
  rw [added.numbers]
  rcases either p mem with rfl | old
  · exact Function.update_self ..
  · rw [Function.update_of_ne, h.numbers p old]
    exact ne_of_mem_of_not_mem (List.mem_map_of_mem old) new

/-- An address that is not in the list is not in use. -/
theorem IsListing.unused {a : ℕ} (h : IsListing m l) (new : a ∉ l.xs.map Prod.fst) :
    m.heap a = none := by
  rwa [← h.listed.allocated, Option.not_isSome_iff_eq_none] at new

/-- A call does to the list in memory what it does to the listing. -/
theorem IsListing.call (h : IsListing m l) (allowed : c.Allowed l) :
    Agrees (l.xs.length < fuel) IsListing (c.run fuel m) (l.call c) := by
  have size : (l.xs.map Prod.fst).length = l.xs.length := List.length_map _
  cases c with
  | addNumber num number =>
      obtain ⟨⟨a, el⟩, rfl, new⟩ := allowed
      refine ((h.listed.addNumber_ends (h.unused new)).of_imp fun fits => by rwa [size]).mono ?_
      rintro m' ⟨listed, added⟩
      rw [← List.map_singleton (f := Prod.fst) (a := (a, num)), ← List.map_append] at listed
      exact h.added new listed added fun p mem => by simpa [or_comm] using mem
  | addPreNumber num number =>
      obtain ⟨⟨a, el⟩, rfl, new⟩ := allowed
      obtain ⟨m', ran, listed, added⟩ := h.listed.addPreNumber_ok (h.unused new)
      exact .inl ⟨m', ran, h.added new listed added fun p mem => List.mem_cons.mp mem⟩
  | printSorted =>
      have short : (l.xs.map Prod.fst).length ≤ 2147483648 := by rwa [size]
      refine (h.listed.printSorted_ends.of_imp fun fits => ⟨by rwa [size], short⟩).mono ?_
      rintro m' ⟨ys, listed, sorted, numbers, freed, stdout⟩
      obtain rfl := (sorted short).trans h.map_mergeSort
      have numbered : ∀ p ∈ l.xs.mergeSort inOrder, number m.heap p.1 = p.2 := fun p mem =>
        h.numbers p (List.mem_mergeSort.mp mem)
      refine ⟨listed, fun p mem => ?_, freed.trans h.freed, ?_⟩
      · rw [numbers, numbered p mem]
      · rw [stdout, h.stdout, shown, shown, map_number h.numbers fun n => toString n ++ " ",
          map_number numbered fun n => toString n ++ " "]
  | getHeadAndDel =>
      obtain ⟨xs, freed, stdout⟩ := l
      cases xs with
      | nil => exact .inl (getHeadAndDel_none h.listed.list.head)
      | cons p xs =>
          obtain ⟨m', ran, listed, numbers, gone, printed⟩ := h.listed.getHeadAndDel_ok
          refine .inl ⟨m', ran, listed, fun q mem => ?_, ?_, ?_⟩
          · rw [numbers q.1 (List.mem_map_of_mem mem), h.numbers q (List.mem_cons_of_mem p mem)]
          · rw [gone, h.freed]
          · rw [printed, h.stdout, h.numbers p List.mem_cons_self]
  | deleteAll =>
      refine (h.listed.deleteAll_ends.of_imp fun fits => by rwa [size]).mono ?_
      rintro m' ⟨empty, gone, stdout⟩
      refine ⟨⟨empty, .nil, fun a => ?_⟩, fun p mem => absurd mem List.not_mem_nil, ?_, ?_⟩
      · simp [gone.heap_eq_none h.listed]
      · rw [gone.freed, h.freed]
      · rw [stdout, h.stdout, deletions,
          map_number h.numbers fun n => "deleting: " ++ toString n ++ "\n"]

/-- **`list.c` keeps a list of numbers.**  In every run of calls the list in memory, what is
printed and what is freed is what the calls describe, and just the calls that read the head of an
empty list fault. -/
theorem numbers_runAll_refines {cs : List Call} (h : IsListing m l)
    (allowed : Along Listing.call Call.Allowed l cs) :
    Agrees (l.xs.length + cs.length ≤ fuel) IsListing (runAll (Call.run fuel) cs m)
      (exec Listing.call l cs) := by
  refine runAll_agrees (fun l => l.xs.length) (fun m l c => IsListing.call) ?_ h allowed
  intro l c l' allowed result
  cases c with
  | addNumber num number =>
      obtain ⟨new, -, rfl⟩ := Option.map_eq_some_iff.mp result
      simp
  | addPreNumber num number =>
      obtain ⟨new, -, rfl⟩ := Option.map_eq_some_iff.mp result
      exact Nat.le_refl _
  | printSorted =>
      cases result
      simp
  | getHeadAndDel =>
      obtain ⟨xs, freed, stdout⟩ := l
      cases xs <;> cases result
      exact Nat.le_add_right_of_le (Nat.le_succ _)
  | deleteAll =>
      cases result
      exact Nat.zero_le _

/-- Two numbers are sorted, and one more head is deleted than there is. -/
def twoNumbers : List Call :=
  [.addNumber 13 (some (0, ⟨5, none⟩)), .addPreNumber 91 (some (1, ⟨6, some 5⟩)), .printSorted,
    .getHeadAndDel, .getHeadAndDel, .getHeadAndDel]

theorem numbers_runAll_refines_twoNumbers :
    Agrees (0 + 6 ≤ 6) IsListing (runAll (Call.run 6) twoNumbers {})
      (exec Listing.call {} twoNumbers) :=
  numbers_runAll_refines isListing_nil (by simp [twoNumbers, Along, Listing.call, Call.Allowed])

end Calls

end Cjunk.Utlist
