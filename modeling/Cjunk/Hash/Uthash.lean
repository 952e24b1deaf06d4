import Mathlib.Data.List.Perm.Subperm
import Cjunk.Hash.Tag
import Cjunk.Lib.LinkedList

/-!
# The tag table in memory

`uthash` keeps the elements of a table in two kinds of doubly linked lists: all of them in
the order in which they were added, from `ptr_2_hash` on, and those of one bucket from the
bucket's `hh_head` on.  Here are the macros as they change these links, on a memory of
elements, and the two loops of `tag.c` that delete elements while they iterate.

`Holds s xs chain` is the invariant of the macros: the table `s` has the elements `xs`, in
this order, and bucket `i` has the elements `chain i`.

A pointer to a handle is the address of its element, since `elmt` leads from the one to
the other; `hh.tbl` is the same for all elements of a table.  The hash function, which
`HASH_FUNCTION` may replace, is a parameter.  A result `none` stands for a pointer that is
followed although it is `NULL`, and for a loop that has not ended when its fuel has.
-/

namespace Cjunk.Hash

open LinkedList

/-! ## Memory -/

/-- The links of a `UT_hash_handle`. -/
structure UtHashHandle where
  /-- The neighbours in the order in which the elements were added. -/
  prev : Option ℕ := none
  next : Option ℕ := none
  /-- The neighbours in the bucket. -/
  hhPrev : Option ℕ := none
  hhNext : Option ℕ := none

/-- A `struct assoc_2_socket` in memory. -/
structure Element where
  cmdTag : U32
  socket : ℤ
  time : ℤ
  hh : UtHashHandle := {}

/-- `UT_hash_bucket`. -/
structure UtHashBucket where
  hhHead : Option ℕ := none
  count : ℕ := 0
  expandMult : ℕ := 0

/-- `UT_hash_table`, without what `HASH_SORT` uses. -/
structure UtHashTable where
  buckets : ℕ → UtHashBucket := fun _ => {}
  numBuckets : ℕ := 32
  numItems : ℕ := 0
  /-- The element of `tail`. -/
  tail : Option ℕ := none
  noexpand : Bool := false
  /-- `hash_q < 0.5`. -/
  hashQLow : Bool := false

/-- The memory that `ptr_2_hash` leads to. -/
structure UtHash where
  mem : ℕ → Element
  /-- `ptr_2_hash`. -/
  head : Option ℕ := none
  /-- `ptr_2_hash->hh.tbl`, while it is allocated. -/
  tbl : Option UtHashTable := none

/-- `if (p) p->hh. ... = ...;` -/
def setHandle (mem : ℕ → Element) (p : Option ℕ) (f : UtHashHandle → UtHashHandle) :
    ℕ → Element :=
  match p with
  | none => mem
  | some a => Function.update mem a { mem a with hh := f (mem a).hh }

section Links

variable (mem : ℕ → Element)

/-- The links of one kind. -/
def links (kind : UtHashHandle → Option ℕ) : ℕ → Option ℕ := fun a => kind (mem a).hh

abbrev prevs : ℕ → Option ℕ := links mem UtHashHandle.prev
abbrev nexts : ℕ → Option ℕ := links mem UtHashHandle.next
abbrev hhPrevs : ℕ → Option ℕ := links mem UtHashHandle.hhPrev
abbrev hhNexts : ℕ → Option ℕ := links mem UtHashHandle.hhNext

/-- What an element stores, with its address. -/
def assoc (a : ℕ) : Assoc2Socket :=
  { ptr := a, cmdTag := (mem a).cmdTag, socket := (mem a).socket, time := (mem a).time }

end Links

/-! ## Deleting -/

/-- Link the neighbours of an element to each other, in the list of `next` and `prev`. -/
def unlinkBy (next prev : UtHashHandle → Option ℕ)
    (setNext setPrev : Option ℕ → UtHashHandle → UtHashHandle) (mem : ℕ → Element)
    (delptr : ℕ) : ℕ → Element :=
  let mem := setHandle mem (links mem prev delptr) (setNext (links mem next delptr))
  setHandle mem (links mem next delptr) (setPrev (links mem prev delptr))

/-- Link the neighbours of an element in the order of the table to each other. -/
def unlinkElement : (ℕ → Element) → ℕ → ℕ → Element :=
  unlinkBy UtHashHandle.next UtHashHandle.prev (fun v hh => { hh with next := v })
    fun v hh => { hh with prev := v }

/-- Link the neighbours of an element in its bucket to each other. -/
def unlinkInBkt : (ℕ → Element) → ℕ → ℕ → Element :=
  unlinkBy UtHashHandle.hhNext UtHashHandle.hhPrev (fun v hh => { hh with hhNext := v })
    fun v hh => { hh with hhPrev := v }

/-- `HASH_DEL_IN_BKT`. -/
def hashDelInBkt (mem : ℕ → Element) (bkt : UtHashBucket) (delptr : ℕ) :
    Option (UtHashBucket × (ℕ → Element)) := do
  let first ← bkt.hhHead
  let bkt := { bkt with count := bkt.count - 1 }
  let bkt := if first = delptr then { bkt with hhHead := hhNexts mem delptr } else bkt
  return (bkt, unlinkInBkt mem delptr)

section Macros

variable (hashFcn : U32 → ℕ → ℕ)

/-- `HASH_DELETE`. -/
def hashDelete (s : UtHash) (delptr : ℕ) : Option UtHash := do
  let _ ← s.head
  if prevs s.mem delptr = none ∧ nexts s.mem delptr = none then
    return { s with head := none, tbl := none }
  else
    let tbl ← s.tbl
    let tbl := if tbl.tail = some delptr then { tbl with tail := prevs s.mem delptr } else tbl
    let head := if (prevs s.mem delptr).isSome then s.head else nexts s.mem delptr
    let mem := unlinkElement s.mem delptr
    let _ ← head
    let bkt := hashFcn (mem delptr).cmdTag tbl.numBuckets
    let (bucket, mem) ← hashDelInBkt mem (tbl.buckets bkt) delptr
    return { mem := mem, head := head, tbl := some { tbl with
      buckets := Function.update tbl.buckets bkt bucket, numItems := tbl.numItems - 1 } }

/-- `for (s = ptr_2_hash; s != NULL; s = s->hh.next)`, deleting the elements of which `p`
holds. -/
def deleteLoop (p : Assoc2Socket → Bool) : ℕ → Option ℕ → UtHash → Option UtHash
  | _, none, s => some s
  | 0, some _, _ => none
  | fuel + 1, some a, s =>
      (if p (assoc s.mem a) then hashDelete hashFcn s a else some s).bind fun t =>
        deleteLoop p fuel (nexts t.mem a) t

namespace UtHash

/-- `delete_tags_assocs_to_socket`. -/
def deleteTagsAssocsToSocket (fuel : ℕ) (s : UtHash) (socket : ℤ) : Option UtHash :=
  deleteLoop hashFcn (fun a => socket = a.socket) fuel s.head s

/-- `purge_hash`, at time `now`. -/
def purgeHash (fuel : ℕ) (s : UtHash) (now : ℤ) : Option UtHash :=
  deleteLoop hashFcn (fun a => a.time + timeoutCmdTag ≤ now) fuel s.head s

end UtHash

/-! ## Finding -/

/-- `HASH_FIND_IN_BKT`. -/
def hashFindInBkt (mem : ℕ → Element) (cmdTag : U32) : ℕ → Option ℕ → Option (Option ℕ)
  | _, none => some none
  | 0, some _ => none
  | fuel + 1, some out =>
      if (mem out).cmdTag = cmdTag then some (some out)
      else hashFindInBkt mem cmdTag fuel (hhNexts mem out)

/-- `HASH_FIND_INT`. -/
def hashFind (fuel : ℕ) (s : UtHash) (cmdTag : U32) : Option (Option ℕ) :=
  match s.head with
  | none => some none
  | some _ => do
      let tbl ← s.tbl
      hashFindInBkt s.mem cmdTag fuel (tbl.buckets (hashFcn cmdTag tbl.numBuckets)).hhHead

/-! ## The invariant -/

/-- A bucket has the elements `xs`, in this order. -/
structure UtHashBucket.Holds (mem : ℕ → Element) (bkt : UtHashBucket) (xs : List ℕ) :
    Prop where
  head : bkt.hhHead = xs.head?
  count : bkt.count = xs.length
  linked : Linked (hhPrevs mem) (hhNexts mem) xs

/-- The elements that `live` holds of are in the buckets of their keys; bucket `i` has the
elements `chain i`. -/
structure BucketsHold (mem : ℕ → Element) (buckets : ℕ → UtHashBucket) (index : U32 → ℕ)
    (live : ℕ → Prop) (chain : ℕ → List ℕ) : Prop where
  nodup : ∀ i, (chain i).Nodup
  bucket : ∀ i, (buckets i).Holds mem (chain i)
  mem_chain : ∀ i a, a ∈ chain i ↔ live a ∧ index (mem a).cmdTag = i

/-- A table that is allocated has the elements `xs`, and its buckets those of `chain`. -/
structure UtHashTable.Holds (mem : ℕ → Element) (tbl : UtHashTable) (xs : List ℕ)
    (chain : ℕ → List ℕ) : Prop extends
    BucketsHold mem tbl.buckets (fun key => hashFcn key tbl.numBuckets) (· ∈ xs) chain where
  tail : tbl.tail = xs.getLast?
  numItems : tbl.numItems = xs.length
  numBuckets : 0 < tbl.numBuckets

/-- The table has the elements `xs`, in this order, and bucket `i` has the elements
`chain i`.  There is a table while there are elements. -/
structure UtHash.Holds (s : UtHash) (xs : List ℕ) (chain : ℕ → List ℕ) : Prop where
  nodup : xs.Nodup
  head : s.head = xs.head?
  linked : Linked (prevs s.mem) (nexts s.mem) xs
  empty : xs = [] → s.tbl = none ∧ ∀ i, chain i = []
  table : xs ≠ [] → ∃ tbl, s.tbl = some tbl ∧ tbl.Holds hashFcn s.mem xs chain

end Macros

/-! ## What a deletion changes in memory -/

section SetHandle

variable (mem : ℕ → Element) (p : Option ℕ) (a : ℕ)
variable {f : UtHashHandle → UtHashHandle} {kind : UtHashHandle → Option ℕ} {v : Option ℕ}

/-- A store into a handle leaves what it leaves in the element. -/
theorem view_setHandle {α : Type} (view : ℕ → Element → α)
    (keeps : ∀ b e, view b { e with hh := f e.hh } = view b e) :
    (fun b => view b (setHandle mem p f b)) = fun b => view b (mem b) := by
  cases p with
  | none => rfl
  | some c =>
      funext b
      by_cases same : b = c
      · subst same
        simp [setHandle, keeps]
      · simp [setHandle, same]

/-- A store into a handle leaves what the elements store. -/
@[simp] theorem assoc_setHandle : assoc (setHandle mem p f) = assoc mem :=
  view_setHandle mem p (fun b e => assoc (fun _ => e) b) fun _ _ => rfl

theorem links_setHandle (sets : ∀ hh, kind (f hh) = v) :
    links (setHandle mem p f) kind = setLink (links mem kind) p v := by
  cases p with
  | none => rfl
  | some c =>
      funext b
      by_cases same : b = c
      · subst same
        simp [links, setHandle, setLink, sets]
      · simp [links, setHandle, setLink, same]

/-- A store into a handle leaves its links of the other kinds. -/
theorem links_setHandle_other (keeps : ∀ hh, kind (f hh) = kind hh) :
    links (setHandle mem p f) kind = links mem kind :=
  view_setHandle mem p (fun _ e => kind e.hh) fun _ e => keeps e.hh

end SetHandle

section Unlink

variable {mem : ℕ → Element} {a : ℕ} {next prev : UtHashHandle → Option ℕ}
variable {setNext setPrev : Option ℕ → UtHashHandle → UtHashHandle}

theorem assoc_unlinkBy : assoc (unlinkBy next prev setNext setPrev mem a) = assoc mem := by
  rw [unlinkBy, assoc_setHandle, assoc_setHandle]

/-- Links of another list are left alone. -/
theorem links_unlinkBy_other {kind : UtHashHandle → Option ℕ}
    (hnext : ∀ v hh, kind (setNext v hh) = kind hh)
    (hprev : ∀ v hh, kind (setPrev v hh) = kind hh) :
    links (unlinkBy next prev setNext setPrev mem a) kind = links mem kind := by
  rw [unlinkBy, links_setHandle_other _ _ (hprev _), links_setHandle_other _ _ (hnext _)]

/-- The links that `unlinkBy` sets are those of a list without the element. -/
theorem links_unlinkBy (self : links mem prev a ≠ some a)
    (next_set : ∀ v hh, next (setNext v hh) = v) (next_kept : ∀ v hh, next (setPrev v hh) = next hh)
    (prev_set : ∀ v hh, prev (setPrev v hh) = v)
    (prev_kept : ∀ v hh, prev (setNext v hh) = prev hh) :
    links (unlinkBy next prev setNext setPrev mem a) next =
        unlinkNext (links mem prev) (links mem next) a ∧
      links (unlinkBy next prev setNext setPrev mem a) prev =
        unlinkPrev (links mem prev) (links mem next) a := by
  have forward (v : Option ℕ) : links (setHandle mem (links mem prev a) (setNext v)) next =
      setLink (links mem next) (links mem prev a) v := links_setHandle _ _ (next_set v)
  have before (v : Option ℕ) : links (setHandle mem (links mem prev a) (setNext v)) prev =
      links mem prev := links_setHandle_other _ _ (prev_kept v)
  unfold unlinkBy
  constructor
  · rw [links_setHandle_other _ _ (next_kept _), forward, unlinkNext]
  · rw [links_setHandle _ _ (prev_set _), before, forward, setLink_of_ne _ _ self, unlinkPrev]

theorem links_unlinkElement (self : prevs mem a ≠ some a) :
    nexts (unlinkElement mem a) = unlinkNext (prevs mem) (nexts mem) a ∧
      prevs (unlinkElement mem a) = unlinkPrev (prevs mem) (nexts mem) a :=
  links_unlinkBy self (fun _ _ => rfl) (fun _ _ => rfl) (fun _ _ => rfl) fun _ _ => rfl

theorem links_unlinkInBkt (self : hhPrevs mem a ≠ some a) :
    hhNexts (unlinkInBkt mem a) = unlinkNext (hhPrevs mem) (hhNexts mem) a ∧
      hhPrevs (unlinkInBkt mem a) = unlinkPrev (hhPrevs mem) (hhNexts mem) a :=
  links_unlinkBy self (fun _ _ => rfl) (fun _ _ => rfl) (fun _ _ => rfl) fun _ _ => rfl

theorem cmdTag_eq {mem' : ℕ → Element} (same : assoc mem' = assoc mem) (b : ℕ) :
    (mem' b).cmdTag = (mem b).cmdTag := congrArg Assoc2Socket.cmdTag (congrFun same b)

end Unlink

/-! ## Deleting an element -/

section Delete

variable {hashFcn : U32 → ℕ → ℕ} {s : UtHash} {xs : List ℕ} {chain : ℕ → List ℕ} {a : ℕ}

/-- The elements other than `a`. -/
abbrev without (a : ℕ) (xs : List ℕ) : List ℕ := xs.filter fun b => decide (b ≠ a)

/-- An element is not its own neighbour. -/
theorem prev_ne_self {prev next : ℕ → Option ℕ} (linked : Linked prev next xs)
    (nodup : xs.Nodup) (mem : a ∈ xs) : prev a ≠ some a ∧ next a ≠ some a := by
  obtain ⟨pre, post, rfl⟩ := List.append_of_mem mem
  have apart := (List.nodup_cons.mp (List.nodup_middle.mp nodup)).1
  obtain ⟨before, after⟩ := linked pre a post rfl
  rw [before, after]
  exact ⟨fun same => apart (List.mem_append_left _ (List.mem_of_getLast? same)),
    fun same => apart (List.mem_append_right _ (List.mem_of_head? same))⟩

theorem UtHashBucket.Holds.congr {mem mem' : ℕ → Element} {bkt : UtHashBucket}
    (h : bkt.Holds mem xs) (hprev : ∀ b ∈ xs, hhPrevs mem' b = hhPrevs mem b)
    (hnext : ∀ b ∈ xs, hhNexts mem' b = hhNexts mem b) : bkt.Holds mem' xs :=
  ⟨h.head, h.count, h.linked.congr hprev hnext⟩

/-- The bucket of the element loses it, and keeps the others in their order. -/
theorem UtHashBucket.Holds.delete {mem : ℕ → Element} {bkt : UtHashBucket}
    (h : bkt.Holds mem xs) (nodup : xs.Nodup) (live : a ∈ xs) :
    ∃ bkt', hashDelInBkt mem bkt a = some (bkt', unlinkInBkt mem a) ∧
      bkt'.Holds (unlinkInBkt mem a) (without a xs) := by
  have self := (prev_ne_self h.linked nodup live).1
  obtain ⟨hnext, hprev⟩ := links_unlinkInBkt self
  obtain ⟨pre, post, rfl⟩ := List.append_of_mem live
  obtain ⟨first, hfirst⟩ : ∃ first, (pre ++ a :: post).head? = some first := by
    cases pre <;> exact ⟨_, rfl⟩
  refine ⟨_, by rw [hashDelInBkt, h.head, hfirst]; rfl, ?_⟩
  rw [without, filter_ne_middle nodup]
  have linked := h.linked.unlink nodup
  rw [← hnext, ← hprev] at linked
  have count : bkt.count - 1 = (pre ++ post).length := by
    rw [h.count]
    simp
  cases pre with
  | nil =>
      cases hfirst
      rw [if_pos rfl]
      exact ⟨(h.linked [] a post rfl).2, count, linked⟩
  | cons b pre =>
      cases hfirst
      have other : first ≠ a := by
        rintro rfl
        simp at nodup
      rw [if_neg other]
      exact ⟨rfl, count, linked⟩

/-- The other buckets lose nothing. -/
theorem UtHashBucket.Holds.delete_other {mem : ℕ → Element} {bkt other : UtHashBucket}
    {ys : List ℕ} (h : bkt.Holds mem xs) (nodup : xs.Nodup) (live : a ∈ xs)
    (hother : other.Holds mem ys) (apart : ∀ b ∈ ys, b ∉ xs) :
    other.Holds (unlinkInBkt mem a) ys := by
  have self := (prev_ne_self h.linked nodup live).1
  obtain ⟨hnext, hprev⟩ := links_unlinkInBkt self
  obtain ⟨pre, post, rfl⟩ := List.append_of_mem live
  obtain ⟨before, after⟩ := h.linked pre a post rfl
  refine hother.congr (fun b mem => ?_) fun b mem => ?_
  · rw [hprev, unlinkPrev, setLink_of_ne]
    intro same
    have inside := List.mem_of_head? (after.symm.trans same)
    exact apart b mem (by simp [inside])
  · rw [hnext, unlinkNext, setLink_of_ne]
    intro same
    have inside := List.mem_of_getLast? (before.symm.trans same)
    exact apart b mem (by simp [inside])

/-- A bucket has no more elements than the table. -/
theorem UtHashTable.Holds.length_le {mem : ℕ → Element} {tbl : UtHashTable}
    (h : tbl.Holds hashFcn mem xs chain) (i : ℕ) : (chain i).length ≤ xs.length :=
  ((h.nodup i).subperm fun b inside => ((h.mem_chain i b).mp inside).1).length_le

/-- All buckets of a table, when an element is deleted from its own. -/
theorem UtHashTable.Holds.delete {mem : ℕ → Element} {tbl : UtHashTable}
    (h : tbl.Holds hashFcn mem xs chain) (live : a ∈ xs) :
    ∃ bkt', hashDelInBkt mem (tbl.buckets (hashFcn (mem a).cmdTag tbl.numBuckets)) a =
        some (bkt', unlinkInBkt mem a) ∧
      ∀ i, (Function.update tbl.buckets (hashFcn (mem a).cmdTag tbl.numBuckets) bkt' i).Holds
        (unlinkInBkt mem a) (without a (chain i)) := by
  have here : a ∈ chain (hashFcn (mem a).cmdTag tbl.numBuckets) :=
    (h.mem_chain _ a).mpr ⟨live, rfl⟩
  obtain ⟨bkt', delete, holds⟩ := (h.bucket _).delete (h.nodup _) here
  refine ⟨bkt', delete, fun i => ?_⟩
  by_cases same : i = hashFcn (mem a).cmdTag tbl.numBuckets
  · rw [same, Function.update_self]
    exact holds
  · have kept : without a (chain i) = chain i := by
      rw [without, List.filter_eq_self]
      intro b inside
      refine decide_eq_true ?_
      rintro rfl
      exact same ((h.mem_chain i b).mp inside).2.symm
    rw [Function.update_of_ne same, kept]
    refine (h.bucket _).delete_other (h.nodup _) here (h.bucket i) fun b inside => ?_
    intro there
    exact same (((h.mem_chain i b).mp inside).2.symm.trans ((h.mem_chain _ b).mp there).2)

theorem UtHashTable.Holds.congr {mem mem' : ℕ → Element} {tbl : UtHashTable}
    (h : tbl.Holds hashFcn mem xs chain) (hprev : hhPrevs mem' = hhPrevs mem)
    (hnext : hhNexts mem' = hhNexts mem) (data : assoc mem' = assoc mem) :
    tbl.Holds hashFcn mem' xs chain where
  tail := h.tail
  numItems := h.numItems
  numBuckets := h.numBuckets
  nodup := h.nodup
  bucket := fun i => (h.bucket i).congr (fun _ _ => by rw [hprev]) fun _ _ => by rw [hnext]
  mem_chain := fun i b => by rw [cmdTag_eq data, h.mem_chain i b]

/-- `HASH_DEL` of the last remaining element frees the table. -/
theorem UtHash.Holds.delete_last (h : s.Holds hashFcn [a] chain) :
    ∃ t, hashDelete hashFcn s a = some t ∧
      t.Holds hashFcn [] (fun i => without a (chain i)) ∧ t.mem = s.mem := by
  obtain ⟨tbl, -, table⟩ := h.table (List.cons_ne_nil a [])
  have buckets (i : ℕ) : without a (chain i) = [] := by
    rw [without, List.filter_eq_nil_iff]
    intro b inside
    have same := List.mem_singleton.mp ((table.mem_chain i b).mp inside).1
    simp [same]
  obtain ⟨before, after⟩ := h.linked [] a [] rfl
  refine ⟨{ s with head := none, tbl := none }, ?_, ?_, rfl⟩
  · rw [hashDelete, h.head, before, after]
    rfl
  · exact ⟨List.nodup_nil, rfl, .nil, fun _ => ⟨rfl, buckets⟩, fun some => absurd rfl some⟩

/-- `HASH_DEL_IN_BKT` does not touch the links of the order of the table. -/
theorem links_unlinkInBkt_order (mem : ℕ → Element) (a : ℕ) :
    nexts (unlinkInBkt mem a) = nexts mem ∧ prevs (unlinkInBkt mem a) = prevs mem :=
  ⟨links_unlinkBy_other (fun _ _ => rfl) fun _ _ => rfl,
    links_unlinkBy_other (fun _ _ => rfl) fun _ _ => rfl⟩

/-- A table whose buckets have lost `a` has the other elements, once its count and its tail
are set. -/
theorem UtHashTable.Holds.takenOut {pre post : List ℕ} {mem mem' : ℕ → Element}
    {tbl : UtHashTable} (table : tbl.Holds hashFcn mem (pre ++ a :: post) chain)
    (nodup : (pre ++ a :: post).Nodup) (data : assoc mem' = assoc mem)
    {buckets : ℕ → UtHashBucket}
    (bucket : ∀ i, (buckets i).Holds mem' (without a (chain i))) :
    UtHashTable.Holds hashFcn mem'
      { tbl with
        buckets := buckets
        numItems := tbl.numItems - 1
        tail := (pre ++ post).getLast? } (pre ++ post) fun i => without a (chain i) := by
  refine ⟨⟨fun i => (table.nodup i).filter _, bucket, fun i b => ?_⟩, rfl, ?_,
    table.numBuckets⟩
  · rw [without, ← filter_ne_middle nodup, List.mem_filter, List.mem_filter,
      table.mem_chain i b, cmdTag_eq data]
    exact and_right_comm
  · show tbl.numItems - 1 = (pre ++ post).length
    rw [table.numItems]
    simp

/-- `HASH_DEL` of one of several elements links its neighbours to each other. -/
theorem UtHash.Holds.delete_among {pre post : List ℕ}
    (h : s.Holds hashFcn (pre ++ a :: post) chain) (left : pre ++ post ≠ []) :
    ∃ t, hashDelete hashFcn s a = some t ∧
      t.Holds hashFcn (pre ++ post) (fun i => without a (chain i)) ∧
      assoc t.mem = assoc s.mem ∧ nexts t.mem a = nexts s.mem a := by
  have live : a ∈ pre ++ a :: post := by simp
  have selfPrev := (prev_ne_self h.linked h.nodup live).1
  obtain ⟨tbl, allocated, table⟩ := h.table (List.ne_nil_of_mem live)
  obtain ⟨hnext, hprev⟩ := links_unlinkElement selfPrev
  have data : assoc (unlinkElement s.mem a) = assoc s.mem := assoc_unlinkBy
  -- the buckets are linked as before, until `HASH_DEL_IN_BKT`
  have table₁ : tbl.Holds hashFcn (unlinkElement s.mem a) (pre ++ a :: post) chain :=
    table.congr (links_unlinkBy_other (fun _ _ => rfl) fun _ _ => rfl)
      (links_unlinkBy_other (fun _ _ => rfl) fun _ _ => rfl) data
  obtain ⟨bkt', inBkt, buckets⟩ := table₁.delete live
  have others : ¬ (prevs s.mem a = none ∧ nexts s.mem a = none) := by
    obtain ⟨before, after⟩ := h.linked pre a post rfl
    rw [before, after, List.getLast?_eq_none_iff, List.head?_eq_none_iff]
    exact fun sole => left (List.append_eq_nil_iff.mpr sole)
  have head : (if (prevs s.mem a).isSome then s.head else nexts s.mem a) =
      (pre ++ post).head? := by
    rw [h.head]
    exact h.linked.head_without
  have tail : (if tbl.tail = some a then { tbl with tail := prevs s.mem a } else tbl) =
      { tbl with tail := (pre ++ post).getLast? } := by
    rw [← h.linked.getLast_without h.nodup, ← table.tail]
    split <;> rfl
  obtain ⟨first, hfirst⟩ : ∃ first, (pre ++ post).head? = some first := by
    cases split : pre ++ post with
    | nil => exact absurd split left
    | cons first rest => exact ⟨first, rfl⟩
  obtain ⟨before, hbefore⟩ : ∃ before, s.head = some before := by
    rw [h.head]
    cases pre <;> exact ⟨_, rfl⟩
  have inOrder := links_unlinkInBkt_order (unlinkElement s.mem a) a
  have linked := h.linked.unlink h.nodup
  rw [← hnext, ← hprev, ← inOrder.1, ← inOrder.2] at linked
  have data₂ : assoc (unlinkInBkt (unlinkElement s.mem a) a) = assoc s.mem :=
    assoc_unlinkBy.trans data
  have table₂ := table.takenOut h.nodup data₂ buckets
  refine ⟨⟨unlinkInBkt (unlinkElement s.mem a) a, (pre ++ post).head?, some _⟩, ?_,
    ⟨?_, rfl, linked, fun nil => absurd nil left, fun _ => ⟨_, rfl, table₂⟩⟩, data₂, ?_⟩
  · rw [hashDelete, hbefore]
    show (if _ then _ else _) = _
    rw [if_neg others, allocated, ← hbefore]
    show Option.bind (some tbl) _ = _
    rw [Option.bind_some, tail, head, hfirst]
    dsimp only
    show Option.bind (hashDelInBkt _ _ _) _ = _
    rw [inBkt]
    rfl
  · exact (List.nodup_cons.mp (List.nodup_middle.mp h.nodup)).2
  · rw [inOrder.1, hnext, unlinkNext, setLink_of_ne _ _ selfPrev]

/-- `HASH_DEL` of an element takes it out of the table, and leaves its own `hh.next`. -/
theorem UtHash.Holds.delete (h : s.Holds hashFcn xs chain) (live : a ∈ xs) :
    ∃ t, hashDelete hashFcn s a = some t ∧
      t.Holds hashFcn (without a xs) (fun i => without a (chain i)) ∧
      assoc t.mem = assoc s.mem ∧ nexts t.mem a = nexts s.mem a := by
  obtain ⟨pre, post, rfl⟩ := List.append_of_mem live
  rw [without, filter_ne_middle h.nodup]
  by_cases sole : pre = [] ∧ post = []
  · obtain ⟨rfl, rfl⟩ := sole
    obtain ⟨t, deleted, holds, same⟩ := h.delete_last
    exact ⟨t, deleted, holds, by rw [same], by rw [same]⟩
  · exact h.delete_among fun nil => sole (List.append_eq_nil_iff.mp nil)

/-! ## The loops -/

/-- The elements that a loop leaves: those of which `p` does not hold. -/
abbrev kept (data : ℕ → Assoc2Socket) (p : Assoc2Socket → Bool) (xs : List ℕ) : List ℕ :=
  xs.filter fun b => !p (data b)

/-- The loop from the first of `rest` on; the elements before it have been visited. -/
theorem deleteLoop_spec (p : Assoc2Socket → Bool) (visited : List ℕ) {rest : List ℕ} {fuel : ℕ}
    (h : s.Holds hashFcn (visited ++ rest) chain) (enough : rest.length < fuel) :
    ∃ t, deleteLoop hashFcn p fuel rest.head? s = some t ∧
      t.Holds hashFcn (visited ++ kept (assoc s.mem) p rest)
        (fun i => (chain i).filter fun b => !(p (assoc s.mem b) && decide (b ∈ rest))) ∧
      assoc t.mem = assoc s.mem := by
  induction rest generalizing visited fuel s chain with
  | nil =>
      refine ⟨s, ?_, ?_, rfl⟩
      · cases fuel <;> rfl
      · simpa using h
  | cons a rest ih =>
      obtain ⟨n, rfl⟩ : ∃ n, fuel = n + 1 := ⟨fuel - 1, by omega⟩
      have enough : rest.length < n := Nat.lt_of_succ_lt_succ enough
      have live : a ∈ visited ++ a :: rest := by simp
      have after : nexts s.mem a = rest.head? := (h.linked visited a rest rfl).2
      show ∃ t, Option.bind (if p (assoc s.mem a) then _ else _) _ = some t ∧ _
      cases hit : p (assoc s.mem a) with
      | true =>
          obtain ⟨t, deleted, holds, data, link⟩ := h.delete live
          rw [without, filter_ne_middle h.nodup] at holds
          obtain ⟨u, loop, holds, data'⟩ := ih visited holds enough
          refine ⟨u, ?_, ?_, data'.trans data⟩
          · rw [if_pos rfl, deleted, Option.bind_some, link, after]
            exact loop
          · rw [data] at holds
            rw [kept, List.filter_cons_of_neg (by simp [hit])]
            have chains : (fun i => (chain i).filter fun b =>
                !(p (assoc s.mem b) && decide (b ∈ a :: rest))) = fun i =>
                (without a (chain i)).filter fun b =>
                  !(p (assoc s.mem b) && decide (b ∈ rest)) := by
              funext i
              rw [List.filter_filter]
              refine List.filter_congr fun b _ => ?_
              by_cases here : b = a
              · simp [here, hit]
              · simp [here]
            rw [chains]
            exact holds
      | false =>
          rw [List.append_cons] at h
          obtain ⟨u, loop, holds, data⟩ := ih (visited ++ [a]) h enough
          refine ⟨u, ?_, ?_, data⟩
          · rw [if_neg Bool.false_ne_true, Option.bind_some, after]
            exact loop
          · rw [kept, List.filter_cons_of_pos (by simp [hit]), List.append_cons]
            have chains : (fun i => (chain i).filter fun b =>
                !(p (assoc s.mem b) && decide (b ∈ a :: rest))) = fun i =>
                (chain i).filter fun b => !(p (assoc s.mem b) && decide (b ∈ rest)) := by
              funext i
              refine List.filter_congr fun b _ => ?_
              by_cases here : b = a
              · simp [here, hit]
              · simp [here]
            rw [chains]
            exact holds

theorem UtHash.Holds.live (h : s.Holds hashFcn xs chain) {i b : ℕ} (inside : b ∈ chain i) :
    b ∈ xs := by
  by_cases nil : xs = []
  · rw [(h.empty nil).2 i] at inside
    exact absurd inside List.not_mem_nil
  · obtain ⟨tbl, -, table⟩ := h.table nil
    exact ((table.mem_chain i b).mp inside).1

/-- An element is in one bucket. -/
theorem UtHash.Holds.chain_unique (h : s.Holds hashFcn xs chain) {i j b : ℕ}
    (hi : b ∈ chain i) (hj : b ∈ chain j) : i = j := by
  obtain ⟨tbl, -, table⟩ := h.table (List.ne_nil_of_mem (h.live hi))
  exact ((table.mem_chain i b).mp hi).2.symm.trans ((table.mem_chain j b).mp hj).2

/-- A loop over the whole table. -/
theorem UtHash.Holds.deleteLoop (h : s.Holds hashFcn xs chain) (p : Assoc2Socket → Bool)
    {fuel : ℕ} (enough : xs.length < fuel) :
    ∃ t, deleteLoop hashFcn p fuel s.head s = some t ∧
      t.Holds hashFcn (kept (assoc s.mem) p xs) (fun i => kept (assoc s.mem) p (chain i)) ∧
      assoc t.mem = assoc s.mem := by
  obtain ⟨t, loop, holds, data⟩ := deleteLoop_spec p [] h enough
  refine ⟨t, ?_, ?_, data⟩
  · rw [h.head]
    exact loop
  · have chains : (fun i => kept (assoc s.mem) p (chain i)) = fun i =>
        (chain i).filter fun b => !(p (assoc s.mem b) && decide (b ∈ xs)) := by
      funext i
      refine List.filter_congr fun b inside => ?_
      simp [h.live inside]
    rw [chains]
    exact holds

end Delete

/-! ## Searches -/

section Find

variable {hashFcn : U32 → ℕ → ℕ} {s t : UtHash} {xs : List ℕ} {chain : ℕ → List ℕ}
variable {fuel : ℕ}

theorem hashFindInBkt_spec {mem : ℕ → Element} {cmdTag : U32} (visited : List ℕ) {rest : List ℕ}
    (linked : Linked (hhPrevs mem) (hhNexts mem) (visited ++ rest)) (enough : rest.length ≤ fuel) :
    hashFindInBkt mem cmdTag fuel rest.head? =
      some (rest.find? fun b => decide ((mem b).cmdTag = cmdTag)) := by
  induction rest generalizing visited fuel with
  | nil => cases fuel <;> rfl
  | cons b rest ih =>
      obtain ⟨n, rfl⟩ : ∃ n, fuel = n + 1 := by
        cases fuel with
        | zero => simp at enough
        | succ n => exact ⟨n, rfl⟩
      have after : hhNexts mem b = rest.head? := (linked visited b rest rfl).2
      rw [List.append_cons] at linked
      rw [List.head?_cons, hashFindInBkt, List.find?_cons]
      by_cases hit : (mem b).cmdTag = cmdTag
      · rw [if_pos hit, decide_eq_true hit]
      · rw [if_neg hit, decide_eq_false hit, after]
        exact ih (visited ++ [b]) linked (Nat.le_of_succ_le_succ enough)

/-- A search goes through the bucket of the tag. -/
theorem UtHash.Holds.hashFind (h : s.Holds hashFcn xs chain) (cmdTag : U32)
    (enough : xs.length ≤ fuel) :
    ∃ i, hashFind hashFcn fuel s cmdTag =
        some ((chain i).find? fun b => decide ((s.mem b).cmdTag = cmdTag)) ∧
      ∀ b ∈ xs, (s.mem b).cmdTag = cmdTag → b ∈ chain i := by
  by_cases nil : xs = []
  · refine ⟨0, ?_, ?_⟩
    · rw [Hash.hashFind, h.head, nil, (h.empty nil).2]
      rfl
    · intro b live
      rw [nil] at live
      exact absurd live List.not_mem_nil
  · obtain ⟨tbl, allocated, table⟩ := h.table nil
    have bucket := table.bucket (hashFcn cmdTag tbl.numBuckets)
    refine ⟨hashFcn cmdTag tbl.numBuckets, ?_, ?_⟩
    · obtain ⟨first, hfirst⟩ : ∃ first, s.head = some first := by
        rw [h.head]
        cases xs with
        | nil => exact absurd rfl nil
        | cons first rest => exact ⟨first, rfl⟩
      have short : (chain (hashFcn cmdTag tbl.numBuckets)).length ≤ fuel :=
        Nat.le_trans (table.length_le _) enough
      rw [Hash.hashFind, hfirst, allocated]
      show hashFindInBkt s.mem cmdTag fuel _ = _
      rw [bucket.head]
      exact hashFindInBkt_spec [] bucket.linked short
    · intro b live same
      rw [← same, table.mem_chain]
      exact ⟨live, rfl⟩

/-- The first hit of a search that remains is the first hit among what remains. -/
theorem find?_filter_of_kept {α : Type} {p q : α → Bool} {xs : List α} {a : α}
    (found : xs.find? q = some a) (remains : p a = true) : (xs.filter p).find? q = some a := by
  induction xs with
  | nil => exact found
  | cons x xs ih =>
      rw [List.find?_cons] at found
      cases hit : q x with
      | true =>
          rw [hit] at found
          cases found
          rw [List.filter_cons_of_pos remains, List.find?_cons, hit]
      | false =>
          rw [hit] at found
          cases keep : p x with
          | true =>
              rw [List.filter_cons_of_pos keep, List.find?_cons, hit]
              exact ih found
          | false =>
              rw [List.filter_cons_of_neg (by simp [keep])]
              exact ih found

/-- From the table `s` of `xs`, exactly the elements that `p` holds of have been removed:
the others are in their previous order, store what they did, and are found by their tag;
a search that found one of them still finds it. -/
structure Removed (hashFcn : U32 → ℕ → ℕ) (p : Assoc2Socket → Bool) (s : UtHash)
    (xs : List ℕ) (chain : ℕ → List ℕ) (t : UtHash) : Prop where
  holds : t.Holds hashFcn (kept (assoc s.mem) p xs) fun i => kept (assoc s.mem) p (chain i)
  data : assoc t.mem = assoc s.mem
  found : ∀ fuel, xs.length ≤ fuel → ∀ a ∈ kept (assoc s.mem) p xs,
    ∃ b ∈ kept (assoc s.mem) p xs, Hash.hashFind hashFcn fuel t (s.mem a).cmdTag = some (some b) ∧
      (s.mem b).cmdTag = (s.mem a).cmdTag
  still : ∀ fuel, xs.length ≤ fuel → ∀ cmdTag, ∀ a ∈ kept (assoc s.mem) p xs,
    Hash.hashFind hashFcn fuel s cmdTag = some (some a) →
      Hash.hashFind hashFcn fuel t cmdTag = some (some a)

theorem UtHash.Holds.removed (h : s.Holds hashFcn xs chain) (p : Assoc2Socket → Bool)
    (enough : xs.length < fuel) :
    ∃ t, Hash.deleteLoop hashFcn p fuel s.head s = some t ∧ Removed hashFcn p s xs chain t := by
  obtain ⟨t, loop, holds, data⟩ := h.deleteLoop p enough
  have short : (kept (assoc s.mem) p xs).length ≤ xs.length := List.length_filter_le _ _
  refine ⟨t, loop, holds, data, ?_, ?_⟩
  · intro fuel enough a live
    obtain ⟨i, search, inside⟩ := holds.hashFind (s.mem a).cmdTag (Nat.le_trans short enough)
    have here := inside a live (cmdTag_eq data a)
    have hit : ((kept (assoc s.mem) p (chain i)).find? fun b =>
        decide ((t.mem b).cmdTag = (s.mem a).cmdTag)).isSome :=
      List.find?_isSome.mpr ⟨a, here, decide_eq_true (cmdTag_eq data a)⟩
    obtain ⟨b, found⟩ := Option.isSome_iff_exists.mp hit
    have tag := List.find?_some found
    refine ⟨b, holds.live (List.mem_of_find?_eq_some found), by rw [search, found], ?_⟩
    rw [← cmdTag_eq data b]
    exact of_decide_eq_true tag
  · intro fuel enough cmdTag a live before
    obtain ⟨i, search, -⟩ := h.hashFind cmdTag enough
    obtain ⟨j, search', inside⟩ := holds.hashFind cmdTag (Nat.le_trans short enough)
    rw [before, Option.some.injEq] at search
    have hit := List.find?_some search.symm
    have tag : (s.mem a).cmdTag = cmdTag := of_decide_eq_true hit
    have here := (List.mem_filter.mp (inside a live ((cmdTag_eq data a).trans tag))).1
    obtain rfl := h.chain_unique (List.mem_of_find?_eq_some search.symm) here
    have same : (fun b => decide ((t.mem b).cmdTag = cmdTag)) =
        fun b => decide ((s.mem b).cmdTag = cmdTag) := by
      funext b
      rw [cmdTag_eq data b]
    rw [search', same, find?_filter_of_kept search.symm (List.mem_filter.mp live).2]

/-- The loops do to the associations in memory what `deleteWalk` does to their list. -/
theorem Removed.table_eq {p : Assoc2Socket → Bool} (h : Removed hashFcn p s xs chain t) :
    (kept (assoc s.mem) p xs).map (assoc t.mem) =
      deleteWalk p (xs.map (assoc s.mem)) (xs.map (assoc s.mem)) := by
  have unique : ∀ a ∈ xs.map (assoc s.mem), ∀ b ∈ xs.map (assoc s.mem),
      a.ptr = b.ptr → a = b := by
    intro a ha b hb same
    obtain ⟨x, -, rfl⟩ := List.mem_map.mp ha
    obtain ⟨y, -, rfl⟩ := List.mem_map.mp hb
    exact congrArg (assoc s.mem) same
  have walk : deleteWalk p (xs.map (assoc s.mem)) (xs.map (assoc s.mem)) =
      (xs.map (assoc s.mem)).filter fun a => !p a := by
    rw [deleteWalk_eq_filter p _ _ unique]
    refine List.filter_congr fun a live => ?_
    rw [decide_eq_true live, Bool.and_true]
  rw [walk, h.data, List.filter_map]
  rfl

end Find

end Cjunk.Hash
