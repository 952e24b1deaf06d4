import Cjunk.Hash.Adding
import Cjunk.LinkedList.ListSort

/-!
# Sorting a hash table

`HASH_SORT` puts the elements of a table in the order of a comparison function.  It merges runs of
elements as the macros of `utlist.h` do, on the links `next` and `prev`; the buckets are left as
they are.

## Main results

* `UtHash.Holds.sort` — the table has the same elements, in order, those that compare as equal as
  they were before, and every search finds what it found
-/

namespace Cjunk.Hash

open LinkedList SinglyLinked LinkSort WhileLoop

/-- A comparison function, of what the elements store. -/
structure Comparison where
  cmpfcn : Assoc2Socket → Assoc2Socket → ℤ
  trans : ∀ {a b c}, cmpfcn a b ≤ 0 → cmpfcn b c ≤ 0 → cmpfcn a c ≤ 0
  total : ∀ a b, cmpfcn a b ≤ 0 ∨ cmpfcn b a ≤ 0

/-- What comes first, or may do so. -/
def Comparison.le (cmp : Comparison) (a b : Assoc2Socket) : Bool := cmp.cmpfcn a b ≤ 0

/-! ## The macro -/

/-- `q->next`, on the memory of the elements. -/
def nextElement (mem : ℕ → Element) (q : Option ℕ) : Except Stop (Option ℕ) :=
  match q with
  | some a => .ok (nexts mem a)
  | none => .error .fault

/-- `cmpfcn(p->elmt, q->elmt)` -/
def compare (cmp : Comparison) (mem : ℕ → Element) (p q : Option ℕ) : Except Stop ℤ :=
  match p, q with
  | some a, some b => .ok (cmp.cmpfcn (assoc mem a) (assoc mem b))
  | _, _ => .error .fault

/-- `if (tale) tale->next = e; e->prev = tale;` -/
def putElement (mem : ℕ → Element) (tale e : Option ℕ) : Except Stop (ℕ → Element) :=
  match e with
  | some _ =>
      let mem := setHandle mem tale fun hh => { hh with next := e }
      .ok (setHandle mem e fun hh => { hh with prev := tale })
  | none => .error .fault

/-- `tale->next = NULL;` -/
def closeElements (mem : ℕ → Element) (tale : Option ℕ) : Except Stop (ℕ → Element) :=
  match tale with
  | some _ => .ok (setHandle mem tale fun hh => { hh with next := none })
  | none => .error .fault

/-- The statements of `HASH_SORT`.  `i` is unsigned and `insize` is not. -/
def sortCode (cmp : Comparison) : Code (ℕ → Element) ℕ where
  next mem _ q := nextElement mem q
  cmp := compare cmp
  put := putElement
  close mem _ tale := closeElements mem tale
  wrap := Utlist.int
  up i := (i + 1) % 4294967296
  below i insize := decide (i < insize % 4294967296)

/-- `HASH_SORT`. -/
def hashSort (cmp : Comparison) (fuel : ℕ) (s : UtHash) : Except Stop UtHash :=
  match s.head, s.tbl with
  | none, _ => .ok s
  | some _, none => .error .fault
  | some _, some tbl => do
      let sorted ← (sortCode cmp).sort fuel s.head s.mem
      let tbl := { tbl with tail := sorted.tail }
      return { mem := sorted.mem, head := sorted.list, tbl := some tbl }

/-! ## What the statements do -/

/-- The elements store the same, and are in the same buckets. -/
structure SameBuckets (mem mem' : ℕ → Element) : Prop where
  data : assoc mem' = assoc mem
  hhPrevs : hhPrevs mem' = hhPrevs mem
  hhNexts : hhNexts mem' = hhNexts mem

theorem SameBuckets.refl (mem : ℕ → Element) : SameBuckets mem mem := ⟨rfl, rfl, rfl⟩

theorem SameBuckets.trans {mem mem' mem'' : ℕ → Element} (h : SameBuckets mem mem')
    (h' : SameBuckets mem' mem'') : SameBuckets mem mem'' :=
  ⟨h'.data.trans h.data, h'.hhPrevs.trans h.hhPrevs, h'.hhNexts.trans h.hhNexts⟩

section Sorts

variable {cmp : Comparison} {mem : ℕ → Element} {tale : Option ℕ} {a : ℕ}

/-- Elements are put one behind the other. -/
theorem nexts_setLast (mem : ℕ → Element) (tale v : Option ℕ) :
    (fun a => some (setLink (nexts mem) tale v a)) =
      setLast (fun a => some (nexts mem a)) tale v := by
  cases tale with
  | none => rfl
  | some t =>
      funext a
      simp only [setLink, setLast, Function.update_apply]
      split <;> rfl

/-- What the statements of `HASH_SORT` do. -/
def sortLawful (cmp : Comparison) : Lawful (sortCode cmp) where
  links mem a := some (nexts mem a)
  prevs := prevs
  le mem a b := cmp.le (assoc mem a) (assoc mem b)
  Same := SameBuckets
  circular := false
  double := true
  limit := 2147483648
  same_refl := .refl
  same_trans := .trans
  same_le same := by
    funext a b
    rw [same.data]
  next_ok := by
    rintro mem a _ - ⟨⟩
    rfl
  cmp_ok _ _ := ⟨_, rfl, decide_eq_true_iff.symm⟩
  put_ok := by
    intro mem tale e _ _
    refine ⟨_, rfl, ?_, fun _ => ?_, ?_, ?_, ?_⟩
    · rw [← nexts_setLast, nexts_setPrev, nexts_setNext]
    · rw [prevs_setPrev, prevs_setNext]
      rfl
    · rw [assoc_setHandle, assoc_setHandle]
    · rw [hhPrevs_setPrev, hhPrevs_setNext]
    · rw [hhNexts_setPrev, hhNexts_setNext]
  close_ok := by
    intro mem x t _ _
    refine ⟨_, rfl, ?_, fun _ => ?_, ?_, ?_, ?_⟩
    · rw [nexts_setNext, nexts_setLast]
      rfl
    · rw [prevs_setNext]
      rfl
    · rw [assoc_setHandle]
    · rw [hhPrevs_setNext]
    · rw [hhNexts_setNext]
  one_lt := Utlist.one_lt_limit
  wrap_lt := Utlist.int_lt
  wrap_eq := Utlist.int_count
  up_eq := fun least most => Int.emod_eq_of_lt (by omega) (by omega)
  below_eq i n least most := by
    show decide _ = _
    rw [Int.emod_eq_of_lt least (by omega)]

theorem sortLawful_ordered (cmp : Comparison) (mem : ℕ → Element) :
    (sortLawful cmp).Ordered mem where
  trans a b c ab bc := by
    simp only [sortLawful, Comparison.le, decide_eq_true_eq] at *
    exact cmp.trans ab bc
  total a b := by
    simp only [sortLawful, Comparison.le, Bool.or_eq_true, decide_eq_true_eq]
    exact cmp.total _ _

variable {hashFcn : U32 → ℕ → ℕ} {s t : UtHash} {xs ys : List ℕ} {chain : ℕ → List ℕ}

/-- A table whose elements have been put in another order. -/
theorem UtHash.Holds.reorder {tbl : UtHashTable} {mem : ℕ → Element} {head : Option ℕ}
    (h : s.Holds hashFcn xs chain) (allocated : s.tbl = some tbl) (more : xs ≠ [])
    (perm : ys.Perm xs) (same : SameBuckets s.mem mem) (start : head = ys.head?)
    (linked : Linked (prevs mem) (nexts mem) ys) :
    UtHash.Holds hashFcn
      { mem := mem, head := head, tbl := some { tbl with tail := ys.getLast? } } ys chain := by
  refine ⟨perm.nodup_iff.mpr h.nodup, start, linked, fun nil => ?_, fun _ => ⟨_, rfl, ?_⟩⟩
  · subst nil
    exact absurd (List.nil_perm.mp perm) more
  · obtain ⟨tbl', allocated', table⟩ := h.table more
    obtain rfl : tbl = tbl' := Option.some.inj (allocated.symm.trans allocated')
    have buckets := table.toBucketsHold.congr same.hhPrevs same.hhNexts same.data
    refine ⟨⟨buckets.nodup, buckets.bucket, fun i a => ?_⟩, rfl, ?_, table.numBuckets⟩
    · rw [buckets.mem_chain, perm.mem_iff]
    · exact table.numItems.trans perm.length_eq.symm

/-- The table has the same elements after the sort, in order, if they can be counted. -/
theorem UtHash.Holds.sort (h : s.Holds hashFcn xs chain) (cmp : Comparison) (fuel : ℕ)
    (short : xs.length ≤ 2147483648) :
    Ends (xs.length < fuel) (hashSort cmp fuel s) fun t =>
      t.Holds hashFcn (xs.mergeSort fun a b => cmp.le (assoc s.mem a) (assoc s.mem b)) chain ∧
        SameBuckets s.mem t.mem := by
  by_cases nil : xs = []
  · subst nil
    have empty : hashSort cmp fuel s = .ok s := by rw [hashSort, h.head]; rfl
    rw [empty, List.mergeSort_nil]
    exact .ok ⟨h, .refl s.mem⟩
  · obtain ⟨tbl, allocated, table⟩ := h.table nil
    obtain ⟨x, rest, rfl⟩ := List.exists_cons_of_ne_nil nil
    have run : hashSort cmp fuel s = (sortCode cmp).sort fuel s.head s.mem >>= fun r =>
        .ok { mem := r.mem, head := r.list, tbl := some { tbl with tail := r.tail } } := by
      rw [hashSort, h.head, allocated]
      rfl
    have list : Segment (fun a => some (nexts s.mem a)) s.head (x :: rest) none :=
      h.head ▸ segment_of_linked h.linked fun _ _ => rfl
    have limit : ((x :: rest).length : ℤ) ≤ (sortLawful cmp).limit := Int.ofNat_le.mpr short
    have sorts := sort_ends (L := sortLawful cmp) fuel list h.nodup (.inl limit)
    rw [run]
    refine Ends.bind (sorts.of_imp fun fits => ⟨fits, limit⟩) fun r ⟨ys, sorted⟩ => .ok ?_
    have list' : Segment (fun a => some (nexts r.mem a)) r.list ys none := sorted.list
    have linked : Linked (prevs r.mem) (nexts r.mem) ys :=
      linked_of_segment list' (fun _ _ => rfl) fun pre a post split =>
        (sorted.back rfl pre a post split).trans (if_neg fun both => Bool.noConfusion both.1)
    have holds := h.reorder allocated nil sorted.perm sorted.same list'.head linked
    rw [← sorted.tail] at holds
    exact ⟨sorted.ordered limit (sortLawful_ordered cmp s.mem) ▸ holds, sorted.same⟩

end Sorts

end Cjunk.Hash
