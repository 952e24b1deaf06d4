import Cjunk.Lib.Refinement
import Cjunk.LinkedList.DoubleLinked

/-!
# Runs of the doubly linked macros, and `double_linked.c`

`DList` is what the macros are about: a list, and whether its head knows the last element, which
it does not after `DL_SORT`.

`double_linked.c` reads a file into a list of names, sorts it and prints it.

## Main results

* `runAll_refines` — the list in memory is the one that the calls describe, and just the calls that
  need the last element fault without it
* `main_prints_sorted` — the program prints the pieces of its file in order
-/

namespace Cjunk.Utlist.Double

open WhileLoop Run Refinement

/-! ## Calls of the macros -/

/-- A list, and whether its head knows the last element. -/
structure DList where
  xs : List ℕ := []
  ring : Bool := true
  deriving DecidableEq

inductive Call where
  | prepend (add : ℕ)
  | append (add : ℕ)
  | delete (del : ℕ)
  | sort

/-- What a call does, with elements in the order `le`. -/
def DList.call (le : ℕ → ℕ → Bool) (l : DList) : Call → Option DList
  | .prepend add => some { xs := add :: l.xs, ring := l.ring || l.xs.isEmpty }
  | .append add =>
      if l.xs = [] ∨ l.ring = true then some { xs := l.xs ++ [add], ring := true } else none
  | .delete del =>
      if l.xs ≠ [del] ∨ l.ring = true then
        some { xs := l.xs.erase del, ring := l.ring || decide (l.xs.getLast? = some del) }
      else none
  | .sort => some { xs := l.xs.mergeSort le, ring := false }

/-- What a caller has to see to: an element is added that exists and is not in the list, one is
deleted that is in it, and the elements that are sorted can be counted. -/
def Call.Allowed (heap : Heap) (l : DList) : Call → Prop
  | .prepend add => (heap add).isSome ∧ add ∉ l.xs
  | .append add => (heap add).isSome ∧ add ∉ l.xs
  | .delete del => del ∈ l.xs
  | .sort => l.xs.length ≤ 2147483648

instance Call.decidableAllowed (heap : Heap) (l : DList) (call : Call) :
    Decidable (call.Allowed heap l) := by
  cases call <;> unfold Call.Allowed <;> infer_instance

/-- The memory of a list. -/
structure Memory where
  heap : Heap
  head : Option ℕ := none

/-- The macro of a call. -/
def Call.expand (fuel : ℕ) (head : Option ℕ) (heap : Heap) :
    Call → Except Stop (Option ℕ × Heap)
  | .prepend add => dlPrepend head add heap
  | .append add => dlAppend head add heap
  | .delete del => dlDelete head (some del) heap
  | .sort => dlSort fuel head heap

/-- A call on the list in memory. -/
def Call.run (fuel : ℕ) (call : Call) (m : Memory) : Except Stop Memory := do
  let (head, heap) ← call.expand fuel m.head m.heap
  return { heap := heap, head := head }

/-- The memory, in which the elements have the names that they had in `heap`, has the list. -/
def Represents (heap : Heap) (m : Memory) (l : DList) : Prop :=
  Holds m.heap m.head l.xs l.ring ∧ SameNames heap m.heap

section Calls

variable {heap : Heap} {m : Memory} {l : DList} {c : Call} {fuel : ℕ}

theorem represents_nil (heap : Heap) : Represents heap { heap := heap } {} :=
  ⟨⟨.nil, rfl, nofun, .nil, nofun⟩, .refl heap⟩

/-- A macro does to the list in memory what its call does. -/
theorem Represents.call (h : Represents heap m l) (allowed : c.Allowed heap l) :
    Agrees (l.xs.length < fuel) (Represents heap) (c.run fuel m)
      (l.call (nameLe heap) c) := by
  obtain ⟨holds, same⟩ := h
  cases c with
  | prepend add =>
      obtain ⟨there, new⟩ := allowed
      exact (holds.prepend (same.isSome add ▸ there) new).bind fun r ⟨holds', same'⟩ =>
        .ok ⟨holds', same.trans same'⟩
  | append add =>
      obtain ⟨there, new⟩ := allowed
      rw [← same.isSome] at there
      show Agrees _ _ _ (if l.xs = [] ∨ l.ring = true then _ else _)
      by_cases knows : l.xs = [] ∨ l.ring = true
      · rw [if_pos knows]
        exact (holds.append there new knows).bind fun r ⟨holds', same'⟩ =>
          .ok ⟨holds', same.trans same'⟩
      · rw [if_neg knows]
        obtain ⟨more, loose⟩ := not_or.mp knows
        rw [Bool.eq_false_iff.mpr loose] at holds
        left
        show (dlAppend m.head add m.heap >>= _) = _
        rw [holds.append_faults there new more]
        rfl
  | delete del =>
      show Agrees _ _ _ (if l.xs ≠ [del] ∨ l.ring = true then _ else _)
      by_cases knows : l.xs ≠ [del] ∨ l.ring = true
      · rw [if_pos knows]
        exact (holds.delete allowed knows).bind fun r ⟨holds', same'⟩ =>
          .ok ⟨holds', same.trans same'⟩
      · rw [if_neg knows]
        obtain ⟨only, loose⟩ := not_or.mp knows
        rw [not_not.mp only, Bool.eq_false_iff.mpr loose] at holds
        left
        show (dlDelete m.head (some del) m.heap >>= _) = _
        rw [holds.delete_only_faults]
        rfl
  | sort =>
      refine ((holds.sort fuel).of_imp fun holds => ⟨holds, allowed⟩).bind ?_
      rintro r ⟨ys, holds', same', perm, sorted⟩
      refine .ok ⟨?_, same.trans same'⟩
      rw [sorted allowed, same.nameLe_eq] at holds'
      exact holds'

/-- **The macros implement a list.**  In every run of allowed calls, the list in memory is the one
that the calls describe, and just the calls that need the last element fault without it. -/
theorem runAll_refines {cs : List Call} (h : Represents heap m l)
    (allowed : Along (DList.call (nameLe heap)) (Call.Allowed heap) l cs) :
    Agrees (l.xs.length + cs.length ≤ fuel) (Represents heap) (runAll (Call.run fuel) cs m)
      (exec (DList.call (nameLe heap)) l cs) := by
  refine runAll_agrees (fun l => l.xs.length) (fun m l c => Represents.call) ?_ h allowed
  intro l c l' allowed result
  cases c with
  | prepend add =>
      cases result
      exact Nat.le_refl _
  | append add =>
      obtain ⟨-, added⟩ := Option.ite_none_right_eq_some.mp result
      cases added
      simp
  | delete del =>
      obtain ⟨-, deleted⟩ := Option.ite_none_right_eq_some.mp result
      cases deleted
      have := List.length_erase_le (a := del) (l := l.xs)
      show (l.xs.erase del).length ≤ _
      omega
  | sort =>
      cases result
      simp

/-- Two elements with the same name. -/
def namesakes : Heap := fun a => if a < 2 then some { bname := [0x61] } else none

/-- After a sort nothing can be appended. -/
theorem runAll_refines_namesakes :
    Agrees (0 + 3 ≤ 3) (Represents namesakes)
      (runAll (Call.run 3) [.append 0, .sort, .append 1] { heap := namesakes })
      (exec (DList.call (nameLe namesakes)) {} [.append 0, .sort, .append 1]) ∧
    exec (DList.call (nameLe namesakes)) {} [.append 0, .sort, .append 1] = none :=
  ⟨runAll_refines (represents_nil _) (by simp [Along, DList.call, Call.Allowed, namesakes]),
    by simp [DList.call]⟩

end Calls

/-! ## `double_linked.c` -/

/-- `'\n'` -/
def newline : U8 := 10

/-- Up to `n` characters of a line, and what is left of the file. -/
def fgetsLoop : ℕ → List U8 → List U8 × List U8
  | 0, file => ([], file)
  | _ + 1, [] => ([], [])
  | n + 1, c :: file =>
      if c = newline then ([c], file)
      else
        let (line, file) := fgetsLoop n file
        (c :: line, file)

/-- `fgets(linebuf, BUFLEN, file)`: there is nothing to read at the end of the file. -/
def fgets (file : List U8) : Option (List U8 × List U8) :=
  if file = [] then none else some (fgetsLoop 19 file)

/-- What a string has before its first `NUL`. -/
def cString (bytes : List U8) : List U8 := bytes.takeWhile (· ≠ 0)

/-- What the calls of `malloc` return, one after the other: an element with something or other in
it, or `NULL`. -/
abbrev Malloc := ℕ → Option (ℕ × El)

/-- The variables of the loop of `main`. -/
structure Reading where
  file : List U8
  m : Memory
  /-- How often `malloc` has been called. -/
  calls : ℕ := 0

/-- The body of `while (fgets(linebuf,BUFLEN,file) != NULL)`. -/
def readName (malloc : Malloc) (s : Reading) : Except Stop Reading :=
  match fgets s.file with
  | none => .ok s
  | some (linebuf, file) =>
      match malloc s.calls with
      | none => .error .exit
      | some (name, el) => do
          -- `strncpy` fills up with `NUL` what is left of `bname`.
          let heap := Function.update s.m.heap name (some { el with bname := cString linebuf })
          let (head, heap) ← dlAppend s.m.head name heap
          return { file := file, m := { heap := heap, head := head }, calls := s.calls + 1 }

/-- `DL_FOREACH(head,tmp) printf("%s", tmp->bname);` -/
def printNames (fuel : ℕ) (m : Memory) : Except Stop (List U8) := do
  let s ← walk (fun s => next s.1) (fun tmp s => do return (s.1, s.2 ++ (← bname s.1 tmp)))
    fuel m.head (m.heap, [])
  return s.2

/-- `main`, and what it prints. -/
def main (fuel : ℕ) (malloc : Malloc) (file : Option (List U8)) : Except Stop (List U8) :=
  match file with
  | none => .error .exit
  | some file => do
      let s ← whileLoop (fun s => .ok (fgets s.file).isSome) (readName malloc) fuel
        { file := file, m := { heap := fun _ => none } }
      let (head, heap) ← dlSort fuel s.m.head s.m.heap
      printNames fuel { heap := heap, head := head }

/-! ## What the program prints -/

section Main

variable {file : List U8}

/-- A character is read, unless there is none. -/
theorem length_fgetsLoop (n : ℕ) (more : file ≠ []) :
    (fgetsLoop (n + 1) file).2.length < file.length := by
  have rest_le : ∀ (n : ℕ) (file : List U8), (fgetsLoop n file).2.length ≤ file.length := by
    intro n
    induction n with
    | zero => exact fun _ => Nat.le_refl _
    | succ n ih =>
        intro file
        cases file with
        | nil => exact Nat.le_refl _
        | cons c file =>
            have := ih file
            unfold fgetsLoop
            split
            · exact Nat.le_succ _
            · exact Nat.le_succ_of_le this
  obtain ⟨c, file, rfl⟩ := List.exists_cons_of_ne_nil more
  have := rest_le n file
  unfold fgetsLoop
  split <;> simp
  omega

/-- The pieces of a file that `fgets` reads: its lines, cut after 19 characters. -/
def pieces (file : List U8) : List (List U8) :=
  if file = [] then [] else (fgetsLoop 19 file).1 :: pieces (fgetsLoop 19 file).2
termination_by file.length
decreasing_by exact length_fgetsLoop 18 ‹_›

/-- Nothing is lost between the pieces. -/
theorem flatten_pieces (file : List U8) : (pieces file).flatten = file := by
  have split : ∀ (n : ℕ) (file : List U8),
      (fgetsLoop n file).1 ++ (fgetsLoop n file).2 = file := by
    intro n
    induction n with
    | zero => exact fun _ => rfl
    | succ n ih =>
        intro file
        cases file with
        | nil => rfl
        | cons c file =>
            unfold fgetsLoop
            split
            · rfl
            · exact congrArg (c :: ·) (ih file)
  induction file using pieces.induct with
  | case1 => rw [pieces, if_pos rfl, List.flatten_nil]
  | case2 file more ih =>
      rw [pieces, if_neg more, List.flatten_cons, ih, split]

/-- Each of them has a character. -/
theorem length_pieces_le (file : List U8) : (pieces file).length ≤ file.length := by
  induction file using pieces.induct with
  | case1 =>
      rw [pieces, if_pos rfl]
      exact Nat.le_refl 0
  | case2 file more ih =>
      rw [pieces, if_neg more]
      exact Nat.lt_of_le_of_lt ih (length_fgetsLoop 18 more)

/-- Only the elements of a list count. -/
theorem Holds.congr {heap heap' : Heap} {head : Option ℕ} {xs : List ℕ} {ring : Bool}
    (h : Holds heap head xs ring) (same : ∀ x ∈ xs, heap' x = heap x) :
    Holds heap' head xs ring := by
  have prevs : ∀ x ∈ xs, prevOf heap' x = prevOf heap x := fun x mem => by
    rw [prevOf, same x mem, prevOf]
  refine ⟨h.nodup, h.start, fun x mem => same x mem ▸ h.there x mem,
    h.linked.congr (fun x mem => ?_) fun x mem => ?_, fun x first => ?_⟩
  · rw [inner, prevs x mem, inner]
  · rw [nextOf, same x mem, nextOf]
  · rw [prevs x (List.mem_of_head? (h.start.symm.trans first))]
    exact h.first x first

/-- `malloc` does not return `NULL`, and never an element again, as none is freed. -/
structure Malloc.Succeeds (malloc : Malloc) : Prop where
  isSome : ∀ n, (malloc n).isSome
  fresh : ∀ i j, i ≠ j → (malloc i).map Prod.fst ≠ (malloc j).map Prod.fst

/-- Before the loop comes to `rest`: the names before are in the list `xs`. -/
structure Reads (malloc : Malloc) (file rest : List U8) (s : Reading) (xs : List ℕ) : Prop where
  file_eq : s.file = rest
  holds : Holds s.m.heap s.m.head xs true
  names : xs.map (nameOf s.m.heap) ++ (pieces rest).map cString = (pieces file).map cString
  allocated : ∀ x ∈ xs, ∃ i < s.calls, (malloc i).map Prod.fst = some x

variable {malloc : Malloc} {rest : List U8} {s : Reading} {enough : Prop} {fuel : ℕ}

theorem fgets_isSome : (fgets file).isSome = true ↔ file ≠ [] := by
  unfold fgets
  split <;> simp_all

theorem Reads.turn {xs : List ℕ} (h : Reads malloc file rest s xs) (more : rest ≠ [])
    (succeeds : malloc.Succeeds) :
    Ends enough (readName malloc s) fun t =>
      ∃ xs, Reads malloc file (fgetsLoop 19 rest).2 t xs := by
  obtain ⟨rfl, holds, names, allocated⟩ := h
  obtain ⟨⟨a, el⟩, returned⟩ := Option.isSome_iff_exists.mp (succeeds.isSome s.calls)
  have address : (malloc s.calls).map Prod.fst = some a := by rw [returned, Option.map_some]
  have new : a ∉ xs := by
    intro mem
    obtain ⟨i, before, same⟩ := allocated a mem
    exact succeeds.fresh i s.calls (Nat.ne_of_lt before) (same.trans address.symm)
  let el' : El := { el with bname := cString (fgetsLoop 19 s.file).1 }
  have kept : ∀ x ∈ xs, Function.update s.m.heap a (some el') x = s.m.heap x := fun x mem =>
    Function.update_of_ne (ne_of_mem_of_not_mem mem new) _ _
  have there : (Function.update s.m.heap a (some el') a).isSome := by simp
  have read : fgets s.file = some (fgetsLoop 19 s.file) := if_neg more
  unfold readName
  rw [read]
  show Ends enough (match malloc s.calls with | none => _ | some (name, el) => _) _
  rw [returned]
  refine ((holds.congr kept).append there new (.inr rfl)).bind fun r ⟨holds', same⟩ =>
    .ok ⟨_, rfl, holds', ?_, fun x mem => ?_⟩
  · rw [pieces, if_neg more, List.map_cons] at names
    rw [← names, List.map_append, List.append_assoc]
    refine congrArg₂ (· ++ ·) (List.map_congr_left fun x mem => ?_) ?_
    · rw [nameOf, same x, kept x mem, nameOf]
    · rw [List.map_singleton, List.singleton_append, nameOf, same a, Function.update_self]
      rfl
  · rcases List.mem_append.mp mem with old | last
    · obtain ⟨i, before, same⟩ := allocated x old
      exact ⟨i, Nat.lt_succ_of_lt before, same⟩
    · rw [List.mem_singleton.mp last]
      exact ⟨s.calls, Nat.lt_succ_self _, address⟩

theorem printNames_ends {m : Memory} {xs : List ℕ} {ring : Bool}
    (h : Holds m.heap m.head xs ring) (fits : enough → xs.length < fuel) :
    Ends enough (printNames fuel m) (· = (xs.map (nameOf m.heap)).flatten) := by
  refine Ends.bind (walk_ends (fun front _ s => s =
    (m.heap, (front.map (nameOf m.heap)).flatten)) (s := (m.heap, [])) h.start ?_ rfl fits) ?_
  · rintro front x rest - split rfl
    have there := h.there x (by simp [split])
    show Ends enough (bname m.heap (some x) >>= _) _
    rw [bname_ok there]
    refine .ok ⟨?_, by simp⟩
    obtain ⟨q, read, rfl⟩ := (next_ends there).finished trivial
    rw [← (h.linked front x rest split).2]
    exact read
  · rintro - rfl
    exact .ok rfl

/-- **The program sorts its file.**  What it prints are the pieces of the file, each up to its
first `NUL`, in the order of `strcmp`; equal ones stay in their order. -/
theorem main_prints_sorted (succeeds : malloc.Succeeds)
    (short : (pieces file).length ≤ 2147483648) :
    Ends ((pieces file).length < fuel) (main fuel malloc (some file)) fun out =>
      out = (((pieces file).map cString).mergeSort fun a b => strcmp a b ≤ 0).flatten := by
  have start : Reads malloc file file { file := file, m := { heap := fun _ => none } } [] :=
    ⟨rfl, ⟨.nil, rfl, nofun, .nil, nofun⟩, rfl, nofun⟩
  refine (whileLoop_ends (fun s => (fgets s.file).isSome)
    (fun rest s => ∃ xs, Reads malloc file rest s xs)
    (fun rest => (pieces rest).length) (fun _ _ _ => rfl) ?_ ⟨[], start⟩ id).bind ?_
  · rintro rest s ⟨xs, reads⟩ goes
    have more : rest ≠ [] := reads.file_eq ▸ fgets_isSome.mp goes
    refine (reads.turn more succeeds).mono fun t reads' => ⟨_, reads', fun _ => ?_⟩
    conv_rhs => rw [pieces, if_neg more]
    exact Nat.lt_succ_self _
  · rintro s ⟨rest, ⟨xs, same_file, holds, names, -⟩, done⟩
    obtain rfl : rest = [] := by
      by_contra more
      rw [fgets_isSome.mpr (same_file ▸ more)] at done
      cases done
    rw [pieces, if_pos rfl, List.map_nil, List.append_nil] at names
    have length : xs.length = (pieces file).length := by simpa using congrArg List.length names
    refine ((holds.sort fuel).of_imp fun enough => by omega).bind ?_
    rintro r ⟨ys, sorted, same, perm, order⟩
    refine (printNames_ends (m := { heap := r.2, head := r.1 }) sorted fun enough => ?_).mono ?_
    · rw [perm.length_eq, length]
      exact enough
    · rintro out rfl
      rw [← names, order (by omega), same.nameOf_eq]
      exact congrArg List.flatten (List.map_mergeSort fun _ _ _ _ => rfl)

/-- Two lines. -/
theorem main_prints_sorted_twoLines :
    Ends ((pieces [0x62, 10, 0x61]).length < 3)
      (main 3 (fun n => some (n, { bname := [] })) (some [0x62, 10, 0x61])) fun out =>
        out = (((pieces [0x62, 10, 0x61]).map cString).mergeSort fun a b =>
          strcmp a b ≤ 0).flatten := by
  refine main_prints_sorted ⟨fun _ => rfl, fun i j other same => other ?_⟩ ?_
  · simpa using same
  · exact Nat.le_trans (length_pieces_le _) (by decide)

end Main

end Cjunk.Utlist.Double
