import Cjunk.Lib.Refinement
import Cjunk.LinkedList.DoubleLinked

/-!
# The circular lists of `utlist.h`

The macros `CDL_PREPEND`, `CDL_DELETE`, `CDL_SORT` and `CDL_FOREACH`, on elements with a name.  The
last element leads to the head, and the head back to the last.

## Main results

* `circular_runAll_refines` — in every run of allowed calls the list in memory is the one that the
  calls describe; no call faults, and `CDL_FOREACH` comes to each element once
-/

namespace Cjunk.Utlist.Double

open WhileLoop LinkedList SinglyLinked LinkSort Run Refinement

/-! ## The macros -/

/-- `CDL_PREPEND`. -/
def cdlPrepend (head : Option ℕ) (add : ℕ) (heap : Heap) : Except Stop (Option ℕ × Heap) := do
  if head.isSome then
    let heap ← setPrev heap (some add) (← prev heap head)
    let heap ← setNext heap (some add) head
    let heap ← setPrev heap head (some add)
    let heap ← setNext heap (← prev heap (some add)) (some add)
    return (some add, heap)
  else
    let heap ← setPrev heap (some add) (some add)
    let heap ← setNext heap (some add) (some add)
    return (some add, heap)

/-- What `CDL_DELETE` does to an element that is not the only one. -/
def cdlUnlink (head del : Option ℕ) (heap : Heap) : Except Stop (Option ℕ × Heap) := do
  let heap ← setPrev heap (← next heap del) (← prev heap del)
  let heap ← setNext heap (← prev heap del) (← next heap del)
  if del = head then
    return (← next heap del, heap)
  else
    return (head, heap)

/-- `CDL_DELETE`. -/
def cdlDelete (head del : Option ℕ) (heap : Heap) : Except Stop (Option ℕ × Heap) := do
  if head = del then
    if (← next heap head) = head then
      return (none, heap)
    else
      cdlUnlink head del heap
  else
    cdlUnlink head del heap

/-- `if (p == _ls_oldhead) { p = NULL; }`, where `p` is what the element leads to. -/
def nextUnless (heap : Heap) (oldhead p : Option ℕ) : Except Stop (Option ℕ) := do
  let q ← next heap p
  return if q = oldhead then none else q

/-- `_ls_tail->next = list; list->prev = _ls_tail;` -/
def closeRing (heap : Heap) (list tail : Option ℕ) : Except Stop Heap := do
  let heap ← setNext heap tail list
  setPrev heap list tail

/-- The statements of `CDL_SORT`. -/
def cdlCode : Code Heap ℕ where
  next := nextUnless
  cmp := namecmp
  put := put
  close := closeRing
  wrap := int
  up i := int (i + 1)
  below i insize := decide (i < insize)

/-- `CDL_SORT`. -/
def cdlSort (fuel : ℕ) (list : Option ℕ) (heap : Heap) : Except Stop (Option ℕ × Heap) := do
  let s ← cdlCode.sort fuel list heap
  return (s.list, s.mem)

/-- `CDL_FOREACH(head,el) printf("%s", el->bname);` -/
def cdlPrint (fuel : ℕ) (head : Option ℕ) (heap : Heap) : Except Stop (List U8) := do
  let s ← walk (fun s el => nextUnless s.1 head el)
    (fun el s => do return (s.1, s.2 ++ (← bname s.1 el))) fuel head (heap, [])
  return s.2

/-! ## Circular lists in memory -/

/-- The circular list from `head` has the elements `xs`. -/
structure Ring (heap : Heap) (head : Option ℕ) (xs : List ℕ) : Prop where
  nodup : xs.Nodup
  start : head = xs.head?
  there : ∀ x ∈ xs, (heap x).isSome
  linked : Linked (inner xs.head? (prevOf heap)) (inner xs.getLast? (nextOf heap)) xs
  first : ∀ x, xs.head? = some x → prevOf heap x = xs.getLast?
  last : ∀ x, xs.getLast? = some x → nextOf heap x = xs.head?

theorem ring_nil (heap : Heap) : Ring heap none [] :=
  ⟨.nil, rfl, nofun, .nil, nofun, nofun⟩

section Macros

variable {heap : Heap} {head : Option ℕ} {xs pre post : List ℕ} {a l : ℕ} {enough : Prop}

theorem Ring.prepend (h : Ring heap head xs) (there : (heap a).isSome) (new : a ∉ xs) :
    Ends enough (cdlPrepend head a heap) fun r =>
      Ring r.2 r.1 (a :: xs) ∧ SameNames heap r.2 := by
  have nodup : (a :: xs).Nodup := List.nodup_cons.mpr ⟨new, h.nodup⟩
  have exist : ∀ {heap'}, SameNames heap heap' → ∀ x ∈ a :: xs, (heap' x).isSome := by
    intro heap' same x mem
    rw [same.isSome]
    rcases List.mem_cons.mp mem with rfl | mem
    · exact there
    · exact h.there x mem
  have pushed := h.linked.pushFront h.nodup new
  cases xs with
  | nil =>
      obtain rfl : head = none := h.start
      refine ((Stored.refl heap).setPrev there (some a)).bind fun heap₁ s₁ => ?_
      refine (s₁.setNext there (some a)).bind fun heap₂ s₂ => ?_
      refine .ok ⟨⟨nodup, rfl, exist s₂.same, ?_, ?_, ?_⟩, s₂.same⟩
      · refine pushed.congr (fun x mem => ?_) fun x mem => ?_
        all_goals
          obtain rfl := List.mem_singleton.mp mem
          simp [inner, setLink]
      · rintro x ⟨⟩
        rw [s₂.prev_eq, Function.update_self]
        rfl
      · intro x last
        obtain rfl : a = x := by simpa using last
        rw [s₂.next_eq, Function.update_self]
        rfl
  | cons y ys =>
      obtain rfl : head = some y := h.start
      obtain ⟨l, last⟩ := Option.isSome_iff_exists.mp
        (List.getLast?_isSome.mpr (List.cons_ne_nil y ys))
      have inside : l ∈ y :: ys := List.mem_of_getLast? last
      have there_y := h.there y List.mem_cons_self
      have known : prevOf heap y = some l := (h.first y rfl).trans last
      have other_y : a ≠ y := fun same => new (same ▸ List.mem_cons_self)
      have other_l : a ≠ l := fun same => new (same ▸ inside)
      -- Only the old head knows the last element, until the new one has taken that over.
      refine (prev_ends there_y).bind fun _ read => ?_
      rw [known] at read
      subst read
      refine ((Stored.refl heap).setPrev there _).bind fun heap₁ s₁ => ?_
      refine (s₁.setNext there _).bind fun heap₂ s₂ => ?_
      refine (s₂.setPrev there_y (some a)).bind fun heap₃ s₃ => ?_
      refine (s₃.prev there).bind fun _ read => ?_
      rw [Function.update_of_ne other_y, Function.update_self] at read
      subst read
      refine (s₃.setNext (h.there l inside) (some a)).bind fun heap₄ s₄ => ?_
      refine .ok ⟨⟨nodup, rfl, exist s₄.same, ?_, ?_, ?_⟩, s₄.same⟩
      · rw [s₄.next_eq, s₄.prev_eq]
        refine pushed.congr (fun x mem => ?_) fun x mem => ?_
        · simp only [inner, setLink, List.head?_cons, Function.update_apply]
          grind
        · rw [List.getLast?_cons_cons, last]
          simp only [inner, List.head?_cons, Function.update_apply]
          grind
      · rintro x ⟨⟩
        rw [s₄.prev_eq, Function.update_of_ne other_y, Function.update_self,
          List.getLast?_cons_cons, last]
      · intro x last'
        rw [List.getLast?_cons_cons, last] at last'
        cases last'
        rw [s₄.next_eq, Function.update_self]
        rfl

/-- The neighbours `p` and `n` of an element are linked to each other. -/
theorem cdlUnlink_ends {p n : ℕ} (there : (heap a).isSome) (there_p : (heap p).isSome)
    (there_n : (heap n).isSome) (before : prevOf heap a = some p) (after : nextOf heap a = some n)
    (other_p : p ≠ a) (other_n : n ≠ a) :
    Ends enough (cdlUnlink head (some a) heap) fun r =>
      r.1 = (if some a = head then some n else head) ∧
        Stored heap (Function.update (nextOf heap) p (some n))
          (Function.update (prevOf heap) n (some p)) r.2 := by
  refine (next_ends there).bind fun _ read => ?_
  rw [after] at read
  subst read
  refine (prev_ends there).bind fun _ read => ?_
  rw [before] at read
  subst read
  refine ((Stored.refl heap).setPrev there_n (some p)).bind fun heap₁ s₁ => ?_
  refine (s₁.prev there).bind fun _ read => ?_
  rw [Function.update_of_ne other_n.symm, before] at read
  subst read
  refine (s₁.next there).bind fun _ read => ?_
  rw [after] at read
  subst read
  refine (s₁.setNext there_p (some n)).bind fun heap₂ s₂ => ?_
  by_cases first : some a = head
  · rw [if_pos first, if_pos first]
    refine (s₂.next there).bind fun _ read => ?_
    rw [Function.update_of_ne other_p.symm, after] at read
    exact .ok ⟨read, s₂⟩
  · rw [if_neg first, if_neg first]
    exact .ok ⟨rfl, s₂⟩

/-- The only element leads to itself. -/
theorem Ring.delete_only (h : Ring heap head [a]) :
    Ends enough (cdlDelete head (some a) heap) fun r => r = (none, heap) := by
  obtain rfl : head = some a := h.start
  unfold cdlDelete
  rw [if_pos rfl]
  refine (next_ends (h.there a List.mem_cons_self)).bind fun _ read => ?_
  rw [read, h.last a rfl]
  show Ends enough (if some a = some a then _ else _) _
  rw [if_pos rfl]
  exact .ok rfl

/-- The link of an element whose link is not left out. -/
theorem of_inner {p : Option ℕ} {links : ℕ → Option ℕ} {x y : ℕ} (h : inner p links x = some y) :
    links x = some y := by
  unfold inner at h
  split at h
  · cases h
  · exact h

/-- Behind the last element comes the first. -/
theorem Ring.next_eq (h : Ring heap head (pre ++ a :: post)) :
    nextOf heap a = (post ++ pre ++ [a]).head? := by
  cases post with
  | nil =>
      rw [h.last a List.getLast?_concat]
      rfl
  | cons y post => exact of_inner (h.linked pre a (y :: post) rfl).2

/-- Before the first element comes the last. -/
theorem Ring.prev_eq (h : Ring heap head (pre ++ a :: post)) :
    prevOf heap a = (a :: (post ++ pre)).getLast? := by
  rcases pre.eq_nil_or_concat with rfl | ⟨pre, p, rfl⟩
  · rw [List.append_nil]
    exact h.first a rfl
  · have last : (pre.concat p).getLast? = some p := by simp
    rw [← List.cons_append, List.getLast?_append, last]
    exact of_inner ((h.linked _ a post rfl).1.trans last)

/-- The neighbours of an element that is not the only one. -/
theorem Ring.neighbours (h : Ring heap head (pre ++ a :: post)) (more : post ++ pre ≠ []) :
    ∃ p ∈ pre ++ post, ∃ n ∈ pre ++ post, prevOf heap a = some p ∧ nextOf heap a = some n ∧
      (post ++ pre).getLast? = some p ∧ (post ++ pre).head? = some n := by
  obtain ⟨p, last⟩ := Option.isSome_iff_exists.mp (List.getLast?_isSome.mpr more)
  obtain ⟨n, first⟩ := Option.isSome_iff_exists.mp (List.isSome_head?.mpr more)
  refine ⟨p, ?_, n, ?_, ?_, ?_, last, first⟩
  · exact List.perm_append_comm.mem_iff.mp (List.mem_of_getLast? last)
  · exact List.perm_append_comm.mem_iff.mp (List.mem_of_head? first)
  · rw [h.prev_eq, List.getLast?_cons, last]
    rfl
  · rw [h.next_eq, List.head?_append, first]
    rfl

/-- The ring without an element whose neighbours have been linked to each other. -/
theorem Ring.unlinked {p n : ℕ} {heap' : Heap} (h : Ring heap head (pre ++ a :: post))
    (before : (post ++ pre).getLast? = some p) (after : (post ++ pre).head? = some n)
    (stored : Stored heap (Function.update (nextOf heap) p (some n))
      (Function.update (prevOf heap) n (some p)) heap') :
    Ring heap' (if some a = head then some n else head) (pre ++ post) := by
  obtain ⟨apart, nodup⟩ := List.nodup_cons.mp (List.nodup_middle.mp h.nodup)
  rw [List.getLast?_append] at before
  rw [List.head?_append] at after
  have linked := h.linked.unlink h.nodup
  obtain ⟨before_a, after_a⟩ := h.linked pre a post rfl
  refine ⟨nodup, ?_, fun x mem => ?_, ?_, ?_, ?_⟩
  -- The head moves on only if it is the element.
  · rw [h.start]
    cases pre with
    | nil =>
        cases post with
        | nil => cases after
        | cons y post => simpa using after.symm
    | cons z pre =>
        have other : ¬ some a = (z :: pre ++ a :: post).head? := by
          rintro ⟨⟩
          simp at apart
        rw [if_neg other]
        rfl
  · rw [stored.same.isSome]
    exact h.there x (by simp at mem ⊢; tauto)
  · rw [stored.next_eq, stored.prev_eq]
    refine linked.congr (fun x mem => ?_) fun x mem => ?_
    · have other : x ≠ a := ne_of_mem_of_not_mem mem apart
      rw [unlinkPrev, after_a, before_a]
      -- Where there is nothing on one side, the neighbour is at the other end of the list.
      cases pre <;> cases post <;>
        simp only [List.nil_append, List.cons_append, List.head?_nil, List.head?_cons,
          List.append_nil, List.getLast?_nil, inner, setLink, Function.update_apply] at * <;> grind
    · have other : x ≠ a := ne_of_mem_of_not_mem mem apart
      have inside : ∀ l, post.getLast? = some l → l ∈ post := fun _ => List.mem_of_getLast?
      rw [unlinkNext, after_a, before_a]
      rcases pre.eq_nil_or_concat with rfl | ⟨pre, l, rfl⟩ <;> cases post <;>
        simp only [List.concat_eq_append, List.nil_append, List.append_nil, List.head?_nil,
          List.head?_cons, List.getLast?_nil, List.getLast?_cons_cons, List.getLast?_append,
          List.getLast?_singleton, Option.some_or, Option.none_or, Option.or_none, inner, setLink,
          Function.update_apply] at * <;> grind
  · intro x start
    rw [stored.prev_eq, Function.update_apply]
    cases pre <;> cases post <;>
      simp only [List.nil_append, List.cons_append, List.append_nil, List.head?_nil,
        List.head?_cons] at * <;> grind [h.first]
  -- What leads to the head is the old last element, or the neighbour before it.
  · intro x stop
    rw [stored.next_eq, Function.update_apply]
    cases post with
    | nil =>
        rw [List.append_nil] at stop ⊢
        rw [List.getLast?_nil, Option.or_none, stop, Option.some_inj] at before
        rw [if_pos before, ← after]
        rfl
    | cons y post =>
        have last : (y :: post).getLast? = some x := by simpa [List.getLast?_append] using stop
        have inside : x ∈ y :: post := List.mem_of_getLast? last
        cases pre with
        | nil =>
            rw [if_pos (Option.some_inj.mp (last.symm.trans before)), ← after]
            rfl
        | cons z pre =>
            have other : x ≠ p := by
              rintro rfl
              have front : x ∈ z :: pre := List.mem_of_getLast? (by simpa using before)
              exact (List.nodup_append.mp nodup).2.2 x front x inside rfl
            rw [if_neg other]
            refine h.last x ?_
            rw [List.getLast?_append, List.getLast?_cons_cons, last, Option.some_or]

theorem Ring.delete (h : Ring heap head xs) (inside : a ∈ xs) :
    Ends enough (cdlDelete head (some a) heap) fun r =>
      Ring r.2 r.1 (xs.erase a) ∧ SameNames heap r.2 := by
  obtain ⟨pre, post, rfl⟩ := List.append_of_mem inside
  obtain ⟨apart, -⟩ := List.nodup_cons.mp (List.nodup_middle.mp h.nodup)
  have there := h.there a inside
  have others : ∀ x ∈ pre ++ post, (heap x).isSome := fun x mem =>
    h.there x (by simp at mem ⊢; tauto)
  rw [List.erase_append_right _ (by simp_all), List.erase_cons_head]
  by_cases only : post ++ pre = []
  · obtain ⟨rfl, rfl⟩ := List.append_eq_nil_iff.mp only
    exact h.delete_only.mono fun r same => same ▸ ⟨ring_nil heap, .refl heap⟩
  · obtain ⟨p, p_in, n, n_in, prev_a, next_a, before, after⟩ := h.neighbours only
    have other_p : p ≠ a := ne_of_mem_of_not_mem p_in apart
    have other_n : n ≠ a := ne_of_mem_of_not_mem n_in apart
    have unlinks : Ends enough (cdlUnlink head (some a) heap) fun r =>
        Ring r.2 r.1 (pre ++ post) ∧ SameNames heap r.2 :=
      (cdlUnlink_ends there (others p p_in) (others n n_in) prev_a next_a other_p other_n).mono
        fun r ⟨start, stored⟩ => ⟨start ▸ h.unlinked before after stored, stored.same⟩
    unfold cdlDelete
    by_cases first : head = some a
    · rw [if_pos first]
      refine (first ▸ next_ends there).bind fun _ read => ?_
      rw [read, next_a, if_neg (by simpa [first] using other_n)]
      exact unlinks
    · rw [if_neg first]
      exact unlinks

end Macros

/-! ## The sort -/

section Sorts

variable {heap : Heap} {head : Option ℕ} {xs : List ℕ}

theorem nextUnless_ok {x : ℕ} {r : Option ℕ} (oldhead : Option ℕ) (leads : links heap x = some r) :
    nextUnless heap oldhead (some x) = .ok (cut true oldhead r) := by
  refine (next_ends (links_isSome heap x ▸ Option.isSome_of_eq_some leads)).bind_eq fun _ read => ?_
  rw [links_eq (links_isSome heap x ▸ Option.isSome_of_eq_some leads), Option.some_inj] at leads
  rw [read, leads]
  simp [cut, pure, Except.pure]

/-- What the statements of `CDL_SORT` do. -/
def cdlLawful : Lawful cdlCode where
  links := links
  prevs := prevOf
  le := nameLe
  Same := SameNames
  circular := true
  double := true
  limit := 2147483648
  same_refl := .refl
  same_trans := .trans
  same_le := SameNames.nameLe_eq
  next_ok := nextUnless_ok
  cmp_ok := cmp_lawful
  put_ok := put_lawful
  close_ok := by
    intro heap x t there_x there_t
    rw [links_isSome] at there_x there_t
    obtain ⟨heap₁, stored₁, s₁⟩ := ((Stored.refl heap).setNext there_t (some x)).finished trivial
    obtain ⟨heap₂, stored₂, s₂⟩ := (s₁.setPrev there_x (some t)).finished trivial
    refine ⟨heap₂, ?_, s₂.links_changed there_t, fun _ => s₂.prev_eq, s₂.same⟩
    show (setNext heap (some t) (some x) >>= _) = _
    rw [stored₁]
    exact stored₂
  one_lt := one_lt_limit
  wrap_lt := int_lt
  wrap_eq := int_count
  up_eq := int_succ
  below_eq _ _ _ _ := rfl

/-- A ring, by its links. -/
theorem ring_of_links (nodup : xs.Nodup) (start : head = xs.head?)
    (there : ∀ x ∈ xs, (heap x).isSome)
    (nexts : ∀ pre x post, xs = pre ++ x :: post → nextOf heap x = post.head?.or xs.head?)
    (prevs : ∀ pre x post, xs = pre ++ x :: post →
      prevOf heap x = if pre = [] then xs.getLast? else pre.getLast?) : Ring heap head xs := by
  refine ⟨nodup, start, there, ?_, fun x first => ?_, fun x last => ?_⟩
  · rintro pre x post rfl
    obtain ⟨apart, -⟩ := List.nodup_cons.mp (List.nodup_middle.mp nodup)
    rw [List.mem_append, not_or] at apart
    constructor
    · unfold inner
      cases pre with
      | nil => exact if_pos rfl
      | cons z pre =>
          have other : z ≠ x := fun same => apart.1 (same ▸ List.mem_cons_self)
          rw [if_neg (by simpa using other), prevs (z :: pre) x post rfl]
          rfl
    · unfold inner
      cases post with
      | nil => exact if_pos List.getLast?_concat
      | cons y post =>
          rw [if_neg (getLast?_middle_ne nodup), nexts pre x (y :: post) rfl]
          rfl
  · obtain ⟨rest, split⟩ := List.head?_eq_some_iff.mp first
    exact prevs [] x rest split
  · obtain ⟨front, split⟩ := List.getLast?_eq_some_iff.mp last
    exact nexts front x [] split

/-- The sort leaves the elements in order, those with the same name as they were before. -/
theorem Ring.sort (h : Ring heap head xs) (fuel : ℕ) :
    Ends (xs.length < fuel ∧ xs.length ≤ 2147483648) (cdlSort fuel head heap) fun r => ∃ ys,
      Ring r.2 r.1 ys ∧ SameNames heap r.2 ∧ ys.Perm xs ∧
        (xs.length ≤ 2147483648 → ys = xs.mergeSort (nameLe heap)) := by
  have list : Segment (links heap) head xs xs.head? := by
    have ring : Segment (links heap) (xs.head?.or xs.head?) xs xs.head? := by
      refine segment_of_leads ?_
      rintro pre x post rfl
      rw [links_eq (h.there x (by simp)), h.next_eq]
      cases post <;> cases pre <;> rfl
    rw [Option.or_self] at ring
    exact h.start ▸ ring
  have limit : xs.length ≤ 2147483648 → (xs.length : ℤ) ≤ cdlLawful.limit := Int.ofNat_le.mpr
  have ordered : cdlLawful.Ordered heap :=
    ⟨(nameLe_ordered heap).trans, (nameLe_ordered heap).total⟩
  have sorts := sort_ends (L := cdlLawful) fuel list h.nodup (.inr fun _ _ => rfl)
  refine Ends.bind (sorts.of_imp fun holds => ⟨holds.1, limit holds.2⟩) fun s ⟨ys, sorted⟩ =>
    .ok ⟨ys, ?_, sorted.same, sorted.perm, fun short => sorted.ordered (limit short) ordered⟩
  have list' : Segment (links s.mem) s.list ys ys.head? := sorted.list
  have there : ∀ x ∈ ys, (s.mem x).isSome := fun x mem =>
    links_isSome s.mem x ▸ list'.isSome x mem
  refine ring_of_links (sorted.perm.nodup_iff.mpr h.nodup) ?_ there ?_ ?_
  · rw [list'.start, Option.or_self]
  · rintro pre x post rfl
    rw [← Option.some_inj, ← links_eq (there x (by simp)), list'.leads_or]
  · rintro pre x post split
    refine (sorted.back rfl pre x post split).trans ?_
    simp [cdlLawful]

end Sorts

/-! ## Runs -/

/-- `CDL_FOREACH` comes to each element once. -/
theorem Ring.print {heap : Heap} {head : Option ℕ} {xs : List ℕ} (h : Ring heap head xs)
    (fuel : ℕ) :
    Ends (xs.length < fuel) (cdlPrint fuel head heap) (· = (xs.map (nameOf heap)).flatten) := by
  refine Ends.bind (walk_ends (fun front _ s => s = (heap, (front.map (nameOf heap)).flatten))
    (s := (heap, [])) h.start ?_ rfl id) ?_
  · rintro front x rest - rfl rfl
    have there := h.there x (by simp)
    show Ends _ (bname heap (some x) >>= _) _
    rw [bname_ok there]
    refine .ok ⟨?_, by simp⟩
    show nextUnless heap head (some x) = _
    rw [nextUnless_ok head (links_eq there), h.next_eq, h.start, cut]
    have nodup := h.nodup
    cases rest with
    | nil =>
        rw [List.nil_append, if_pos]
        · rfl
        · exact ⟨rfl, by cases front <;> rfl⟩
    | cons y rest =>
        rw [if_neg]
        · rfl
        · rintro ⟨-, first⟩
          cases front with
          | nil =>
              obtain rfl : y = x := Option.some.inj first
              simp at nodup
          | cons z front =>
              obtain rfl : y = z := Option.some.inj first
              simp at nodup
  · rintro - rfl
    exact .ok rfl

/-- A list, and what has been printed. -/
structure Circle where
  xs : List ℕ := []
  out : List U8 := []

inductive CircleCall where
  | prepend (add : ℕ)
  | delete (del : ℕ)
  | sort
  | print

/-- What a call does, with elements that have their names in `heap`. -/
def Circle.call (heap : Heap) (c : Circle) : CircleCall → Circle
  | .prepend add => { c with xs := add :: c.xs }
  | .delete del => { c with xs := c.xs.erase del }
  | .sort => { c with xs := c.xs.mergeSort (nameLe heap) }
  | .print => { c with out := c.out ++ (c.xs.map (nameOf heap)).flatten }

/-- What a caller has to see to: an element is added that exists and is not in the list, one is
deleted that is in it, and the elements that are sorted can be counted. -/
def CircleCall.Allowed (heap : Heap) (c : Circle) : CircleCall → Prop
  | .prepend add => (heap add).isSome ∧ add ∉ c.xs
  | .delete del => del ∈ c.xs
  | .sort => c.xs.length ≤ 2147483648
  | .print => True

instance CircleCall.decidableAllowed (heap : Heap) (c : Circle) (op : CircleCall) :
    Decidable (op.Allowed heap c) := by
  cases op <;> unfold CircleCall.Allowed <;> infer_instance

/-- The memory of a circular list, and what has been printed. -/
structure CircleMemory where
  heap : Heap
  head : Option ℕ := none
  out : List U8 := []

/-- The macro of a call. -/
def CircleCall.run (fuel : ℕ) (op : CircleCall) (m : CircleMemory) : Except Stop CircleMemory :=
  match op with
  | .prepend add => do
      let (head, heap) ← cdlPrepend m.head add m.heap
      return { m with heap := heap, head := head }
  | .delete del => do
      let (head, heap) ← cdlDelete m.head (some del) m.heap
      return { m with heap := heap, head := head }
  | .sort => do
      let (head, heap) ← cdlSort fuel m.head m.heap
      return { m with heap := heap, head := head }
  | .print => do
      let out ← cdlPrint fuel m.head m.heap
      return { m with out := m.out ++ out }

/-- The memory has the list, of elements that have the names that they had in `heap`. -/
structure IsCircle (heap : Heap) (m : CircleMemory) (c : Circle) : Prop where
  ring : Ring m.heap m.head c.xs
  same : SameNames heap m.heap
  out : m.out = c.out

section Runs

variable {heap : Heap} {m : CircleMemory} {c : Circle} {fuel : ℕ}

theorem isCircle_nil (heap : Heap) : IsCircle heap { heap := heap } {} :=
  ⟨ring_nil heap, .refl heap, rfl⟩

/-- A macro does to the circular list in memory what its call does. -/
theorem IsCircle.call {op : CircleCall} (h : IsCircle heap m c) (allowed : op.Allowed heap c) :
    Ends (c.xs.length < fuel) (op.run fuel m) (IsCircle heap · (c.call heap op)) := by
  obtain ⟨ring, same, out⟩ := h
  cases op with
  | prepend add =>
      obtain ⟨there, new⟩ := allowed
      exact (ring.prepend (same.isSome add ▸ there) new).bind fun r ⟨ring', same'⟩ =>
        .ok ⟨ring', same.trans same', out⟩
  | delete del =>
      exact (ring.delete allowed).bind fun r ⟨ring', same'⟩ =>
        .ok ⟨ring', same.trans same', out⟩
  | sort =>
      refine ((ring.sort fuel).of_imp fun holds => ⟨holds, allowed⟩).bind ?_
      rintro r ⟨ys, ring', same', -, sorted⟩
      rw [sorted allowed, same.nameLe_eq] at ring'
      exact .ok ⟨ring', same.trans same', out⟩
  | print =>
      refine (ring.print fuel).bind ?_
      rintro _ rfl
      exact .ok ⟨ring, same, by rw [out, same.nameOf_eq]; rfl⟩

/-- **The circular macros implement a list.**  In every run of allowed calls, the circular list in
memory is the one that the calls describe, and `CDL_FOREACH` prints each element once. -/
theorem circular_runAll_refines {calls : List CircleCall} (h : IsCircle heap m c)
    (allowed : Along (fun c op => some (c.call heap op)) (CircleCall.Allowed heap) c calls) :
    Ends (c.xs.length + calls.length ≤ fuel) (runAll (CircleCall.run fuel) calls m)
      (IsCircle heap · (calls.foldl (Circle.call heap) c)) := by
  have agrees : Agrees (c.xs.length + calls.length ≤ fuel) (IsCircle heap)
      (runAll (CircleCall.run fuel) calls m)
      (exec (fun c op => some (c.call heap op)) c calls) := by
    refine runAll_agrees (fun c => c.xs.length) (fun m c op => IsCircle.call) ?_ h allowed
    rintro c op _ - ⟨⟩
    cases op with
    | prepend add => exact Nat.le_refl _
    | delete del => exact Nat.le_succ_of_le List.length_erase_le
    | sort => exact Nat.le_succ_of_le (Nat.le_of_eq (List.length_mergeSort _))
    | print => exact Nat.le_succ _
  rwa [exec_some] at agrees

/-- Three elements; one of them is deleted before the list is printed. -/
def threeNames : Heap := fun a =>
  if a = 0 then some { bname := [0x62] }
  else if a = 1 then some { bname := [0x61] }
  else if a = 2 then some { bname := [0x63] }
  else none

theorem circular_runAll_refines_threeNames :
    Ends (0 + 6 ≤ 6)
      (runAll (CircleCall.run 6)
        [.prepend 0, .prepend 1, .prepend 2, .delete 1, .sort, .print] { heap := threeNames })
      (IsCircle threeNames ·
        ([.prepend 0, .prepend 1, .prepend 2, .delete 1, .sort, .print].foldl
          (Circle.call threeNames) {})) :=
  circular_runAll_refines (isCircle_nil _) (by
    simp [Along, Circle.call, CircleCall.Allowed, threeNames])

end Runs

end Cjunk.Utlist.Double
