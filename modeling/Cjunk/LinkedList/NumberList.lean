import Cjunk.Lib.Run
import Cjunk.LinkedList.ListSort

/-!
# A list of numbers

`list.c`: numbers are added to a list in front and behind, sorted and printed, and the elements
are allocated and freed.  What `malloc` does is not known except that it gives an address that is
not in use, or `NULL`; what is stored there is left over from before.

## Main results

* `Listed.run_ends` — a call on a list leaves a list, of the elements that are allocated
* `calls_fault_iff` — only the head of an empty list is read where there is nothing
* `deleteAll_safe` — every element is freed once and none is read after that
-/

namespace Cjunk.Utlist

open SinglyLinked WhileLoop Run

/-- The memory of the program and what it has printed. -/
structure Memory where
  heap : Heap := fun _ => none
  head : Option ℕ := none
  /-- The addresses that were freed, the first one first. -/
  freed : List ℕ := []
  stdout : List String := []

/-- What `malloc` returns: an element with something or other in it, or `NULL`. -/
abbrev Allocation := Option (ℕ × El)

/-! ## The functions -/

/-- `free`; nothing is done for `NULL`. -/
def free (p : Option ℕ) (m : Memory) : Except Stop Memory :=
  match p with
  | none => .ok m
  | some a =>
      if (m.heap a).isSome then
        .ok { m with heap := Function.update m.heap a none, freed := m.freed ++ [a] }
      else
        .error .fault

/-- `printf` -/
def printf (m : Memory) (text : String) : Memory := { m with stdout := m.stdout ++ [text] }

/-- `add_number`. -/
def addNumber (fuel : ℕ) (num : ℤ) (number : Allocation) (m : Memory) : Except Stop Memory :=
  match number with
  | none => .error .exit
  | some (a, el) => do
      let heap := Function.update m.heap a (some { el with foo := num })
      let (head, heap) ← llAppend fuel m.head a heap
      return { m with heap := heap, head := head }

/-- `add_pre_number`. -/
def addPreNumber (num : ℤ) (number : Allocation) (m : Memory) : Except Stop Memory :=
  match number with
  | none => .error .exit
  | some (a, el) => do
      let heap := Function.update m.heap a (some { el with foo := num })
      let (head, heap) ← llPrepend m.head a heap
      return { m with heap := heap, head := head }

/-- `LL_FOREACH(head,tmp) printf("%d ", tmp->foo);` -/
def printNumbers (fuel : ℕ) (m : Memory) : Except Stop Memory :=
  llForeach fuel m.head Memory.heap
    (fun tmp m => do return printf m (toString (← foo m.heap tmp) ++ " ")) m

/-- `print_sorted`. -/
def printSorted (fuel : ℕ) (m : Memory) : Except Stop Memory := do
  let m ← printNumbers fuel (printf m "before sort...\n")
  let (head, heap) ← llSort fuel m.head m.heap
  printNumbers fuel (printf { m with head := head, heap := heap } "\nafter sort...\n")

/-- `get_head_and_del`. -/
def getHeadAndDel (fuel : ℕ) (m : Memory) : Except Stop Memory := do
  let m := printf m ("head->foo:" ++ toString (← foo m.heap m.head) ++ "\n")
  let nisse := m.head
  let (head, heap) ← llDelete fuel m.head m.head m.heap
  free nisse { m with head := head, heap := heap }

/-- `if (del) free(del);` -/
def freeDel (del : Option ℕ) (m : Memory) : Except Stop Memory :=
  if del.isSome then free del m else .ok m

/-- The body of the loop of `delete_all`, for the element `tmp`.  The element before it, which
the loop has left by now, is freed. -/
def deleting (fuel : ℕ) (tmp : Option ℕ) (s : Memory × Option ℕ) :
    Except Stop (Memory × Option ℕ) := do
  let (m, del) := s
  let m ← freeDel del m
  let m := printf m ("deleting: " ++ toString (← foo m.heap tmp) ++ "\n")
  let del := tmp
  let (head, heap) ← llDelete fuel m.head tmp m.heap
  return ({ m with head := head, heap := heap }, del)

/-- `delete_all`. -/
def deleteAll (fuel : ℕ) (m : Memory) : Except Stop Memory := do
  let (m, del) ← llForeach fuel m.head (fun s => s.1.heap) (deleting fuel) (m, none)
  freeDel del m

/-! ## The program -/

inductive Call where
  | addNumber (num : ℤ) (number : Allocation)
  | addPreNumber (num : ℤ) (number : Allocation)
  | printSorted
  | getHeadAndDel
  | deleteAll

/-- A call. -/
def Call.run (fuel : ℕ) : Call → Memory → Except Stop Memory
  | .addNumber num number => Utlist.addNumber fuel num number
  | .addPreNumber num number => Utlist.addPreNumber num number
  | .printSorted => Utlist.printSorted fuel
  | .getHeadAndDel => Utlist.getHeadAndDel fuel
  | .deleteAll => Utlist.deleteAll fuel

/-- What `malloc` returned. -/
def Call.allocation : Call → Allocation
  | .addNumber _ number => number
  | .addPreNumber _ number => number
  | _ => none

/-- `malloc` does not give an address that is in use. -/
def Call.Possible (call : Call) (m : Memory) : Prop :=
  ∀ new ∈ call.allocation, m.heap new.1 = none

instance (call : Call) (m : Memory) : Decidable (call.Possible m) :=
  match h : call.allocation with
  | none => .isTrue fun new mem => by simp [h] at mem
  | some new => decidable_of_iff (m.heap new.1 = none) (by simp [Call.Possible, h])

/-- A call, with fuel for its loops.  There is no step if it stops, or if its fuel runs out. -/
def step (m : Memory) (call : ℕ × Call) : Option Memory :=
  if call.2.Possible m then (call.2.run call.1 m).toOption else none

/-! ## Lists that are built -/

/-- The list is `xs`, and its elements are those that are allocated. -/
structure Listed (xs : List ℕ) (m : Memory) : Prop where
  list : Segment (links m.heap) m.head xs none
  nodup : xs.Nodup
  allocated : ∀ a, (m.heap a).isSome ↔ a ∈ xs

theorem listed_nil : Listed [] {} := ⟨rfl, List.nodup_nil, by simp⟩

section Calls

variable {m m' : Memory} {xs : List ℕ} {a x : ℕ} {el : El} {fuel : ℕ} {num : ℤ} {call : Call}
  {enough : Prop}

/-- An address that is not in use is put to use. -/
theorem Listed.malloc (h : Listed xs m) (unused : m.heap a = none) (el : El) :
    a ∉ xs ∧ Segment (links (Function.update m.heap a (some el))) m.head xs none ∧
      ∀ b, (Function.update m.heap a (some el) b).isSome ↔ b = a ∨ b ∈ xs := by
  have new : a ∉ xs := by simp [← h.allocated, unused]
  refine ⟨new, h.list.congr fun x mem => ?_, fun b => ?_⟩
  · unfold links
    rw [Function.update_of_ne (by rintro rfl; exact new mem)]
  · by_cases here : b = a
    · subst here
      simp
    · rw [Function.update_of_ne here, h.allocated]
      simp [here]

/-- One more element, and nothing else. -/
structure Added (m : Memory) (a : ℕ) (num : ℤ) (m' : Memory) : Prop where
  numbers : number m'.heap = Function.update (number m.heap) a num
  freed : m'.freed = m.freed
  stdout : m'.stdout = m.stdout

/-- The numbers after an element has been put where there was none. -/
theorem SameElements.added {heap : Heap} (same : SameElements
    (Function.update m.heap a (some { el with foo := num })) heap) :
    number heap = Function.update (number m.heap) a num := by
  funext b
  rw [number, same b]
  by_cases here : b = a
  · subst here
    simp
  · rw [Function.update_of_ne here, Function.update_of_ne here, number]

theorem Listed.addNumber_ends (h : Listed xs m) (unused : m.heap a = none) :
    Ends (xs.length < fuel) (addNumber fuel num (some (a, el)) m) fun m' =>
      Listed (xs ++ [a]) m' ∧ Added m a num m' := by
  obtain ⟨new, list, allocated⟩ := h.malloc unused { el with foo := num }
  have there := (allocated a).mpr (.inl rfl)
  refine (llAppend_ends list h.nodup there new).bind fun r ⟨list', same⟩ =>
    .ok ⟨⟨list', ?_, ?_⟩, same.added, rfl, rfl⟩
  · simpa [List.nodup_append, h.nodup] using fun x mem => by rintro rfl; exact new mem
  · intro b
    rw [same.isSome, allocated, List.mem_append, List.mem_singleton]
    exact or_comm

theorem Listed.addPreNumber_ok (h : Listed xs m) (unused : m.heap a = none) :
    ∃ m', addPreNumber num (some (a, el)) m = .ok m' ∧ Listed (a :: xs) m' ∧
      Added m a num m' := by
  obtain ⟨new, list, allocated⟩ := h.malloc unused { el with foo := num }
  have there := (allocated a).mpr (.inl rfl)
  obtain ⟨heap, prepended, list', same⟩ := llPrepend_ends list there new
  refine ⟨{ m with heap := heap, head := some a }, ?_,
    ⟨list', List.nodup_cons.mpr ⟨new, h.nodup⟩, fun b => ?_⟩, same.added, rfl, rfl⟩
  · show (llPrepend m.head a _ >>= _) = _
    rw [prepended]
    rfl
  · rw [same.isSome, allocated, List.mem_cons]

/-- What is printed for the elements of a list. -/
def shown (heap : Heap) (xs : List ℕ) : List String :=
  xs.map fun a => toString (number heap a) ++ " "

theorem printNumbers_ends (h : Segment (links m.heap) m.head xs none)
    (fits : enough → xs.length < fuel) :
    Ends enough (printNumbers fuel m) fun m' =>
      m' = { m with stdout := m.stdout ++ shown m.heap xs } := by
  refine llForeach_ends (fun front _ s => s =
    { m with stdout := m.stdout ++ shown m.heap front })
    (s := m) h.head ?_ (by simp [shown]) fits
  rintro front x rest - split rfl
  have leads : links m.heap x = some rest.head? := (split ▸ h).leads
  rw [foo_ok (links_isSome m.heap x ▸ Option.isSome_of_eq_some leads)]
  exact .ok ⟨leads, by simp [printf, shown]⟩

/-- The list is in order after the sort, if it is not too long. -/
theorem Listed.printSorted_ends (h : Listed xs m) :
    Ends (xs.length < fuel ∧ xs.length ≤ 2147483648) (printSorted fuel m) fun m' => ∃ ys,
      Listed ys m' ∧ (xs.length ≤ 2147483648 → ys = xs.mergeSort (le m.heap)) ∧
        number m'.heap = number m.heap ∧ m'.freed = m.freed ∧
        m'.stdout = m.stdout ++ ["before sort...\n"] ++ shown m.heap xs ++
          ["\nafter sort...\n"] ++ shown m.heap ys := by
  refine (printNumbers_ends (m := printf m "before sort...\n") h.list And.left).bind ?_
  rintro - rfl
  refine (llSort_stable h.list h.nodup).bind ?_
  rintro ⟨head, heap⟩ ⟨ys, list, perm, same, order⟩
  have numbers : number heap = number m.heap := same.number_eq
  refine (printNumbers_ends (m := printf { m with head := head, heap := heap, stdout := _ } _) list
    fun holds => ?_).mono ?_
  · rw [perm.length_eq]
    exact holds.1
  · rintro - rfl
    refine ⟨ys, ⟨list, perm.nodup_iff.mpr h.nodup, fun a => ?_⟩, order, numbers, rfl, ?_⟩
    · show (heap a).isSome ↔ _
      rw [perm.mem_iff, ← h.allocated, same.isSome]
    · have later : shown heap ys = shown m.heap ys := by rw [shown, shown, numbers]
      rw [← later]
      rfl

theorem free_ok (there : (m.heap a).isSome) : free (some a) m =
    .ok { m with heap := Function.update m.heap a none, freed := m.freed ++ [a] } :=
  if_pos there

/-- Without an element there is no head to read. -/
theorem getHeadAndDel_none (empty : m.head = none) : getHeadAndDel fuel m = .error .fault := by
  unfold getHeadAndDel
  rw [empty]
  rfl

/-- The first element is freed after it has been taken out of the list. -/
theorem Listed.getHeadAndDel_ok (h : Listed (x :: xs) m) :
    ∃ m', getHeadAndDel fuel m = .ok m' ∧ Listed xs m' ∧
      (∀ a ∈ xs, number m'.heap a = number m.heap a) ∧ m'.freed = m.freed ++ [x] ∧
      m'.stdout = m.stdout ++ ["head->foo:" ++ toString (number m.heap x) ++ "\n"] := by
  obtain ⟨first, q, leads, rest⟩ := h.list
  obtain ⟨new, nodup⟩ := List.nodup_cons.mp h.nodup
  have there : (m.heap x).isSome := (h.allocated x).mpr List.mem_cons_self
  let text := "head->foo:" ++ toString (number m.heap x) ++ "\n"
  refine ⟨⟨Function.update m.heap x none, q, m.freed ++ [x], m.stdout ++ [text]⟩, ?_,
    ⟨rest.congr fun a mem => ?_, nodup, fun a => ?_⟩, fun a mem => ?_, rfl, rfl⟩
  · unfold getHeadAndDel
    rw [first, foo_ok there]
    show (llDelete fuel m.head m.head m.heap >>= _) = _
    rw [first, llDelete_head leads]
    show free m.head { m with head := q, stdout := m.stdout ++ [text] } = _
    rw [first]
    exact free_ok there
  · show (Function.update m.heap x none a).map El.next = _
    rw [Function.update_of_ne (by rintro rfl; exact new mem)]
    rfl
  · show (Function.update m.heap x none a).isSome ↔ _
    by_cases here : a = x
    · subst here
      simpa using new
    · rw [Function.update_of_ne here, h.allocated, List.mem_cons]
      simp [here]
  · show ((Function.update m.heap x none a).map El.foo).getD 0 = _
    rw [Function.update_of_ne (ne_of_mem_of_not_mem mem new)]
    rfl

/-! ## Deleting all -/

/-- Just the elements `gone` have been freed since `m`, each of them once. -/
structure Freed (m : Memory) (gone : List ℕ) (m' : Memory) : Prop where
  heap : ∀ a, m'.heap a = if a ∈ gone then none else m.heap a
  freed : m'.freed = m.freed ++ gone

/-- Nothing is left if all elements are freed. -/
theorem Freed.heap_eq_none (h : Freed m xs m') (listed : Listed xs m) (a : ℕ) :
    m'.heap a = none := by
  rw [h.heap]
  by_cases mem : a ∈ xs
  · rw [if_pos mem]
  · rw [if_neg mem, ← Option.not_isSome_iff_eq_none, listed.allocated]
    exact mem

/-- What is printed for the elements that are deleted. -/
def deletions (heap : Heap) (xs : List ℕ) : List String :=
  xs.map fun a => "deleting: " ++ toString (number heap a) ++ "\n"

/-- Before the loop of `delete_all` comes to `rest`: the list is what is left of it, and all
elements before have been freed but for the last, which is put off. -/
structure Deletes (m : Memory) (front rest : List ℕ) (s : Memory × Option ℕ) : Prop where
  head : s.1.head = rest.head?
  del : s.2 = front.getLast?
  freed : Freed m front.dropLast s.1
  stdout : s.1.stdout = m.stdout ++ deletions m.heap front

/-- The element that was put off is freed. -/
theorem Freed.last (h : Freed m xs.dropLast m') (nodup : xs.Nodup)
    (there : ∀ a ∈ xs, (m.heap a).isSome) :
    ∃ t, freeDel xs.getLast? m' = .ok t ∧ Freed m xs t ∧ t.head = m'.head ∧
      t.stdout = m'.stdout := by
  rcases List.eq_nil_or_concat xs with rfl | ⟨front, a, rfl⟩
  · exact ⟨m', rfl, h, rfl, rfl⟩
  · rw [List.concat_eq_append, List.dropLast_concat] at h
    rw [List.concat_eq_append] at nodup there ⊢
    have later : a ∉ front := by
      intro mem
      exact (List.nodup_append.mp nodup).2.2 a mem a List.mem_cons_self rfl
    have kept : m'.heap a = m.heap a := by rw [h.heap, if_neg later]
    have there' : (m'.heap a).isSome := by
      rw [kept]
      exact there a (by simp)
    rw [List.getLast?_concat]
    refine ⟨_, free_ok there', ⟨fun b => ?_, ?_⟩, rfl, rfl⟩
    · show Function.update m'.heap a none b = _
      by_cases here : b = a
      · subst here
        simp
      · rw [Function.update_of_ne here, h.heap]
        simp [here]
    · show m'.freed ++ [a] = _
      rw [h.freed, List.append_assoc]

/-- A turn of the loop: `tmp` is out of the list, but it still leads to the rest. -/
theorem Deletes.turn {front rest : List ℕ} {s : Memory × Option ℕ} (h : Listed xs m)
    (split : xs = front ++ x :: rest) (inv : Deletes m front (x :: rest) s) :
    ∃ t, deleting fuel (some x) s = .ok t ∧ links t.1.heap x = some rest.head? ∧
      Deletes m (front ++ [x]) rest t := by
  obtain ⟨before, del⟩ := s
  obtain ⟨head, rfl, freed, stdout⟩ := inv
  have nodup := split ▸ h.nodup
  have before_nodup := (List.nodup_append.mp nodup).1
  obtain ⟨m', done, freed', head', stdout'⟩ := freed.last before_nodup fun a mem =>
    (h.allocated a).mpr (by simp [split, mem])
  have later : x ∉ front := by
    intro mem
    exact (List.nodup_append.mp nodup).2.2 x mem x List.mem_cons_self rfl
  have kept : m'.heap x = m.heap x := by rw [freed'.heap, if_neg later]
  have there : (m'.heap x).isSome := by
    rw [kept, h.allocated, split]
    simp
  have leads : links m'.heap x = some rest.head? := by
    rw [links, kept]
    exact (split ▸ h.list).leads
  have first : m'.head = some x := head'.trans head
  refine ⟨({ printf m' ("deleting: " ++ toString (number m'.heap x) ++ "\n") with
    head := rest.head? }, some x), ?_, leads, rfl, ?_, ?_, ?_⟩
  · show (freeDel front.getLast? before >>= _) = _
    rw [done]
    show (foo m'.heap (some x) >>= _) = _
    rw [foo_ok there]
    show (llDelete fuel m'.head (some x) m'.heap >>= _) = _
    rw [first, llDelete_head leads]
    rfl
  · rw [List.getLast?_concat]
  · rw [List.dropLast_concat]
    exact ⟨freed'.heap, freed'.freed⟩
  · have same : number m'.heap x = number m.heap x := by rw [number, kept, number]
    rw [deletions, List.map_append, ← List.append_assoc, ← deletions, ← stdout, ← stdout']
    simp [printf, same]

/-- All elements are freed, each of them once. -/
theorem Listed.deleteAll_ends (h : Listed xs m) :
    Ends (xs.length < fuel) (deleteAll fuel m) fun m' => m'.head = none ∧ Freed m xs m' ∧
      m'.stdout = m.stdout ++ deletions m.heap xs := by
  have start : Deletes m [] xs (m, none) :=
    ⟨h.list.head, rfl, ⟨by simp, by simp⟩, by simp [deletions]⟩
  refine (llForeach_ends (Deletes m) h.list.head (fun front x rest s split inv => ?_) start
    id).bind ?_
  · obtain ⟨t, ran, leads, inv'⟩ := inv.turn h split
    exact .inl ⟨t, ran, leads, inv'⟩
  · rintro ⟨m', del⟩ ⟨head, rfl, freed, stdout⟩
    obtain ⟨t, done, freed', head', stdout'⟩ := freed.last h.nodup fun a mem =>
      (h.allocated a).mpr mem
    exact .inl ⟨t, done, head'.trans head, freed', stdout'.trans stdout⟩

/-! ## The calls of a run -/

/-- The calls that stop: `malloc` has nothing to give, or there is no head to read. -/
def Call.Stops (call : Call) (m : Memory) : Prop :=
  match call with
  | .addNumber _ number => number = none
  | .addPreNumber _ number => number = none
  | .getHeadAndDel => m.head = none
  | .printSorted | .deleteAll => False

/-- Every other call leaves a list, if it ends.  It does if the list is not too long. -/
theorem Listed.run_ends (h : Listed xs m) (possible : call.Possible m) (goes : ¬ call.Stops m) :
    Ends (xs.length < fuel ∧ xs.length ≤ 2147483648) (call.run fuel m) fun m' =>
      ∃ ys, Listed ys m' := by
  cases call with
  | addNumber num number =>
      obtain ⟨⟨a, el⟩, rfl⟩ := Option.ne_none_iff_exists'.mp goes
      exact ((h.addNumber_ends (possible _ rfl)).of_imp And.left).mono fun m' added =>
        ⟨_, added.1⟩
  | addPreNumber num number =>
      obtain ⟨⟨a, el⟩, rfl⟩ := Option.ne_none_iff_exists'.mp goes
      obtain ⟨m', ran, listed, -⟩ := h.addPreNumber_ok (possible _ rfl)
      exact .inl ⟨m', ran, _, listed⟩
  | printSorted => exact h.printSorted_ends.mono fun m' ⟨ys, listed, _⟩ => ⟨ys, listed⟩
  | getHeadAndDel =>
      cases xs with
      | nil => exact absurd h.list.head goes
      | cons x xs =>
          obtain ⟨m', ran, listed, -⟩ := h.getHeadAndDel_ok
          exact .inl ⟨m', ran, xs, listed⟩
  | deleteAll =>
      refine (h.deleteAll_ends.of_imp And.left).mono fun m' ⟨empty, freed, _⟩ => ⟨[], empty,
        List.nodup_nil, fun a => ?_⟩
      simp [freed.heap_eq_none h]

theorem Call.run_stops (fuel : ℕ) (stops : call.Stops m) : call.run fuel m = .error .exit ∨
    (call = .getHeadAndDel ∧ m.head = none) ∧ call.run fuel m = .error .fault := by
  cases call with
  | addNumber num number =>
      obtain rfl : number = none := stops
      exact .inl rfl
  | addPreNumber num number =>
      obtain rfl : number = none := stops
      exact .inl rfl
  | getHeadAndDel => exact .inr ⟨⟨rfl, stops⟩, getHeadAndDel_none stops⟩
  | printSorted => cases stops
  | deleteAll => cases stops

/-- A call faults only if there is no head to read. -/
theorem Listed.run_fault_iff (h : Listed xs m) (possible : call.Possible m) :
    call.run fuel m = .error .fault ↔ call = .getHeadAndDel ∧ m.head = none := by
  constructor
  · intro faults
    by_cases stops : call.Stops m
    · obtain exits | ⟨headless, -⟩ := Call.run_stops fuel stops
      · rw [faults] at exits
        cases exits
      · exact headless
    · exact absurd faults (h.run_ends possible stops).ne_fault
  · rintro ⟨rfl, empty⟩
    exact getHeadAndDel_none empty

theorem step_eq_some_iff {turn : ℕ × Call} :
    step m turn = some m' ↔ turn.2.Possible m ∧ turn.2.run turn.1 m = .ok m' := by
  unfold step
  by_cases possible : turn.2.Possible m
  · rw [if_pos possible]
    cases turn.2.run turn.1 m <;> simp [Except.toOption, possible]
  · simp [possible]

/-- Every step leaves a list. -/
theorem Listed.step {turn : ℕ × Call} (h : Listed xs m) (taken : step m turn = some m') :
    ∃ ys, Listed ys m' := by
  obtain ⟨possible, ran⟩ := step_eq_some_iff.mp taken
  have goes : ¬ turn.2.Stops m := by
    intro stops
    obtain exits | ⟨-, faults⟩ := Call.run_stops turn.1 stops
    · rw [ran] at exits
      cases exits
    · rw [ran] at faults
      cases faults
  have ends : Ends _ (turn.2.run turn.1 m) _ := h.run_ends possible goes
  rw [ran] at ends
  exact ends.of_ok

/-- What is true of every list is true throughout a run. -/
theorem throughout_of_listed {P : Memory → Prop} (holds : ∀ m xs, Listed xs m → P m)
    (calls : List (ℕ × Call)) : Throughout Utlist.step P {} calls :=
  throughout_of_keeps (I := fun m => ∃ xs, Listed xs m) (fun _ _ _ ⟨_, h⟩ taken => h.step taken)
    (fun m ⟨xs, h⟩ => holds m xs h) ⟨[], listed_nil⟩ calls

end Calls

/-! ## The result -/

/-- Deleting all ends, for a list of whatever length, and is safe: just the elements of the list
are allocated, and each of them is freed once.  To read one of them after that would be a
fault. -/
def DeletedSafely (m : Memory) : Prop :=
  ∃ xs, Listed xs m ∧ (∀ fuel, deleteAll fuel m ≠ .error .fault) ∧
    ∀ fuel, xs.length < fuel → ∃ m', deleteAll fuel m = .ok m' ∧ m'.head = none ∧
      m'.freed = m.freed ++ xs ∧ ∀ a, m'.heap a = none

theorem Listed.deletedSafely {xs : List ℕ} {m : Memory} (h : Listed xs m) : DeletedSafely m := by
  refine ⟨xs, h, fun fuel => h.deleteAll_ends.ne_fault, fun fuel enough => ?_⟩
  obtain ⟨m', ran, empty, freed, -⟩ := h.deleteAll_ends.finished enough
  exact ⟨m', ran, empty, freed.freed, freed.heap_eq_none h⟩

/-- Whatever was done to the list, a call faults only if there is no head to read. -/
theorem calls_fault_iff (calls : List (ℕ × Call)) :
    Throughout step (fun m => ∀ fuel (call : Call), call.Possible m →
      (call.run fuel m = .error .fault ↔ call = .getHeadAndDel ∧ m.head = none)) {} calls :=
  throughout_of_listed (fun _ _ h _ _ possible => h.run_fault_iff possible) calls

/-- Whatever was done to the list, deleting all is safe. -/
theorem deleteAll_safe (calls : List (ℕ × Call)) : Throughout step DeletedSafely {} calls :=
  throughout_of_listed (fun _ _ h => h.deletedSafely) calls

/-- The sort leaves 8, 13 and 91 in this order, and 8 has been freed before the others. -/
example (el : El) : (exec step {} [(5, .addNumber 13 (some (100, el))),
    (5, .addNumber 8 (some (101, el))), (5, .addPreNumber 91 (some (102, el))), (5, .printSorted),
    (5, .getHeadAndDel), (5, .deleteAll)]).map (fun m => (m.head, m.freed)) =
      some (none, [101, 100, 102]) := rfl

end Cjunk.Utlist
