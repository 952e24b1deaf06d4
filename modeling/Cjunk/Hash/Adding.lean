import Cjunk.Hash.Uthash

/-!
# The tag table in memory: adding

`HASH_ADD_INT` appends an element to the order of the table and puts it in front of its
bucket.  A bucket that has grown long makes `HASH_EXPAND_BUCKETS` double the number of
buckets: it walks through each old bucket and moves every element to the front of its new
one.

Both keep the invariant `Holds`, so it holds of every table that `HASH_ADD_INT` and
`HASH_DEL` build.  Of the hash function the expansion needs that it stays below the
number of buckets.
-/

namespace Cjunk.Hash

open LinkedList

/-! ## The macros -/

/-- The links that `HASH_ADD_TO_BKT` sets. -/
def pushInBkt (mem : ℕ → Element) (bkt : UtHashBucket) (add : ℕ) :
    UtHashBucket × (ℕ → Element) :=
  let mem := setHandle mem (some add) fun hh => { hh with hhNext := bkt.hhHead, hhPrev := none }
  let mem := setHandle mem bkt.hhHead fun hh => { hh with hhPrev := some add }
  ({ bkt with count := bkt.count + 1, hhHead := some add }, mem)

/-- The state of `HASH_EXPAND_BUCKETS`. -/
structure Expansion where
  mem : ℕ → Element
  newBuckets : ℕ → UtHashBucket := fun _ => {}
  sumOfDeltas : ℕ := 0

section Macros

variable (hashFcn : U32 → ℕ → ℕ)

/-- Move the element `hh` to one of `numBuckets` new buckets, where `bktIdeal` elements
would be in each if they were spread evenly. -/
def Expansion.move (numBuckets bktIdeal : ℕ) (st : Expansion) (hh : ℕ) : Expansion :=
  let bkt := hashFcn (st.mem hh).cmdTag numBuckets
  let newbkt := st.newBuckets bkt
  let crowded := bktIdeal < newbkt.count + 1
  let newbkt :=
    if crowded then { newbkt with expandMult := (newbkt.count + 1) / bktIdeal } else newbkt
  let (newbkt, mem) := pushInBkt st.mem newbkt hh
  { mem := mem
    newBuckets := Function.update st.newBuckets bkt newbkt
    sumOfDeltas := if crowded then st.sumOfDeltas + 1 else st.sumOfDeltas }

/-- Move the elements of an old bucket, from `hh` on. -/
def Expansion.moveBkt (numBuckets bktIdeal : ℕ) : ℕ → Option ℕ → Expansion → Option Expansion
  | _, none, st => some st
  | 0, some _, _ => none
  | fuel + 1, some hh, st =>
      let hhNxt := hhNexts st.mem hh
      Expansion.moveBkt numBuckets bktIdeal fuel hhNxt (st.move hashFcn numBuckets bktIdeal hh)

/-- `HASH_EXPAND_BUCKETS`.  `hash_q` is `1 - sum_of_deltas / num_items`. -/
def hashExpandBuckets (fuel : ℕ) (mem : ℕ → Element) (tbl : UtHashTable) :
    Option (UtHashTable × (ℕ → Element)) := do
  let bktIdeal := tbl.numItems / tbl.numBuckets * 2 +
    if tbl.numItems % (tbl.numBuckets * 2) = 0 then 0 else 1
  let st ← (List.range tbl.numBuckets).foldlM
    (fun st i => Expansion.moveBkt hashFcn (2 * tbl.numBuckets) bktIdeal fuel
      (tbl.buckets i).hhHead st) { mem := mem }
  let low := decide (tbl.numItems < 2 * st.sumOfDeltas)
  return ({ tbl with
    numBuckets := 2 * tbl.numBuckets
    buckets := st.newBuckets
    noexpand := tbl.noexpand || (tbl.hashQLow && low)
    hashQLow := low }, st.mem)

/-- The part of `HASH_ADD` that appends `add` to the order of the table. -/
def appendElement (s : UtHash) (add : ℕ) : Option UtHash := do
  let mem := setHandle s.mem (some add) fun hh => { hh with next := none }
  match s.head with
  | none =>
      let mem := setHandle mem (some add) fun hh => { hh with prev := none }
      return { mem := mem, head := some add, tbl := some { tail := some add } }
  | some head =>
      let tbl ← s.tbl
      let tail ← tbl.tail
      let mem := setHandle mem (some tail) fun hh => { hh with next := some add }
      let mem := setHandle mem (some add) fun hh => { hh with prev := some tail }
      return { mem := mem, head := some head, tbl := some { tbl with tail := some add } }

/-- `HASH_ADD_TO_BKT`, for the bucket of the key of `add`. -/
def hashAddToBkt (fuel : ℕ) (mem : ℕ → Element) (tbl : UtHashTable) (add : ℕ) :
    Option (UtHashTable × (ℕ → Element)) :=
  let bkt := hashFcn (mem add).cmdTag tbl.numBuckets
  let pushed := pushInBkt mem (tbl.buckets bkt) add
  let tbl := { tbl with buckets := Function.update tbl.buckets bkt pushed.1 }
  if (pushed.1.expandMult + 1) * 10 ≤ pushed.1.count ∧ tbl.noexpand = false then
    hashExpandBuckets hashFcn fuel pushed.2 tbl
  else some (tbl, pushed.2)

/-- `HASH_ADD_INT` of the element at `add`. -/
def hashAddInt (fuel : ℕ) (s : UtHash) (add : ℕ) : Option UtHash := do
  let s ← appendElement s add
  let tbl ← s.tbl
  let (tbl, mem) ← hashAddToBkt hashFcn fuel s.mem { tbl with numItems := tbl.numItems + 1 } add
  return { s with mem := mem, tbl := some tbl }

end Macros

/-! ## Pushing an element in front of a bucket -/

section Push

variable {mem : ℕ → Element} {buckets : ℕ → UtHashBucket} {index : U32 → ℕ} {live : ℕ → Prop}
variable {chain : ℕ → List ℕ} {bkt : UtHashBucket} {add : ℕ} {xs : List ℕ}

theorem assoc_pushInBkt : assoc (pushInBkt mem bkt add).2 = assoc mem := by
  rw [pushInBkt, assoc_setHandle, assoc_setHandle]

theorem hhNexts_pushInBkt : hhNexts (pushInBkt mem bkt add).2 =
    Function.update (hhNexts mem) add bkt.hhHead := by
  have own : hhNexts (setHandle mem (some add) fun hh =>
      { hh with hhNext := bkt.hhHead, hhPrev := none }) =
        setLink (hhNexts mem) (some add) bkt.hhHead := links_setHandle _ _ fun _ => rfl
  have after : hhNexts (pushInBkt mem bkt add).2 = hhNexts (setHandle mem (some add) fun hh =>
      { hh with hhNext := bkt.hhHead, hhPrev := none }) := links_setHandle_other _ _ fun _ => rfl
  exact after.trans own

theorem hhPrevs_pushInBkt : hhPrevs (pushInBkt mem bkt add).2 =
    setLink (Function.update (hhPrevs mem) add none) bkt.hhHead (some add) := by
  have own : hhPrevs (setHandle mem (some add) fun hh =>
      { hh with hhNext := bkt.hhHead, hhPrev := none }) =
        setLink (hhPrevs mem) (some add) none := links_setHandle _ _ fun _ => rfl
  have after : hhPrevs (pushInBkt mem bkt add).2 = setLink (hhPrevs (setHandle mem (some add)
      fun hh => { hh with hhNext := bkt.hhHead, hhPrev := none })) bkt.hhHead (some add) :=
    links_setHandle _ _ fun _ => rfl
  rw [after, own]
  rfl

/-- The links of the order of the table are not those of the buckets. -/
theorem links_pushInBkt {kind : UtHashHandle → Option ℕ}
    (keeps : ∀ hh n p, kind { hh with hhNext := n, hhPrev := p } = kind hh) :
    links (pushInBkt mem bkt add).2 kind = links mem kind :=
  (links_setHandle_other _ _ fun hh => keeps hh hh.hhNext _).trans
    (links_setHandle_other _ _ fun hh => keeps hh _ _)

theorem UtHashBucket.Holds.push (h : bkt.Holds mem xs) (nodup : xs.Nodup) (new : add ∉ xs) :
    (pushInBkt mem bkt add).1.Holds (pushInBkt mem bkt add).2 (add :: xs) := by
  refine ⟨rfl, congrArg (· + 1) h.count, ?_⟩
  rw [hhNexts_pushInBkt, hhPrevs_pushInBkt, h.head]
  exact h.linked.pushFront nodup new

/-- The other buckets do not change. -/
theorem UtHashBucket.Holds.push_other {other : UtHashBucket} {ys : List ℕ}
    (h : bkt.Holds mem xs) (hother : other.Holds mem ys) (new : add ∉ ys)
    (apart : ∀ b ∈ ys, b ∉ xs) : other.Holds (pushInBkt mem bkt add).2 ys := by
  refine hother.congr (fun b inside => ?_) fun b inside => ?_
  · have notAdd : b ≠ add := fun same => new (same ▸ inside)
    rw [hhPrevs_pushInBkt, setLink_of_ne, Function.update_of_ne notAdd]
    rw [h.head]
    exact fun same => apart b inside (List.mem_of_head? same)
  · have notAdd : b ≠ add := fun same => new (same ▸ inside)
    rw [hhNexts_pushInBkt, Function.update_of_ne notAdd]

/-- A new element in front of the bucket of its key. -/
theorem BucketsHold.push (h : BucketsHold mem buckets index live chain) (new : ¬ live add)
    (hbkt : bkt.Holds mem (chain (index (mem add).cmdTag))) :
    BucketsHold (pushInBkt mem bkt add).2
      (Function.update buckets (index (mem add).cmdTag) (pushInBkt mem bkt add).1) index
      (fun a => live a ∨ a = add)
      (Function.update chain (index (mem add).cmdTag)
        (add :: chain (index (mem add).cmdTag))) := by
  have outside (i : ℕ) : add ∉ chain i := fun inside => new ((h.mem_chain i add).mp inside).1
  constructor
  · intro i
    by_cases same : i = index (mem add).cmdTag
    · rw [same, Function.update_self]
      exact List.nodup_cons.mpr ⟨outside _, h.nodup _⟩
    · rw [Function.update_of_ne same]
      exact h.nodup i
  · intro i
    by_cases same : i = index (mem add).cmdTag
    · rw [same, Function.update_self, Function.update_self]
      exact hbkt.push (h.nodup _) (outside _)
    · rw [Function.update_of_ne same, Function.update_of_ne same]
      refine hbkt.push_other (h.bucket i) (outside i) fun b inside there => ?_
      exact same (((h.mem_chain i b).mp inside).2.symm.trans ((h.mem_chain _ b).mp there).2)
  · intro i a
    rw [cmdTag_eq assoc_pushInBkt]
    by_cases same : i = index (mem add).cmdTag
    · rw [same, Function.update_self, List.mem_cons, h.mem_chain]
      constructor
      · rintro (rfl | ⟨old, key⟩)
        · exact ⟨.inr rfl, rfl⟩
        · exact ⟨.inl old, key⟩
      · rintro ⟨old | rfl, key⟩
        · exact .inr ⟨old, key⟩
        · exact .inl rfl
    · rw [Function.update_of_ne same, h.mem_chain]
      constructor
      · rintro ⟨old, key⟩
        exact ⟨.inl old, key⟩
      · rintro ⟨old | rfl, key⟩
        · exact ⟨old, key⟩
        · exact absurd key.symm same

end Push

/-! ## Expanding -/

section Expand

variable {hashFcn : U32 → ℕ → ℕ} {n fuel : ℕ} {st : Expansion} {live : ℕ → Prop}
variable {chain : ℕ → List ℕ} {rest : List ℕ}

/-- What an expansion does not change. -/
structure SameOrder (mem mem' : ℕ → Element) : Prop where
  data : assoc mem' = assoc mem
  prevs : prevs mem' = prevs mem
  nexts : nexts mem' = nexts mem

theorem SameOrder.refl (mem : ℕ → Element) : SameOrder mem mem := ⟨rfl, rfl, rfl⟩

theorem SameOrder.trans {mem mem' mem'' : ℕ → Element} (h : SameOrder mem mem')
    (h' : SameOrder mem' mem'') : SameOrder mem mem'' :=
  ⟨h'.data.trans h.data, h'.prevs.trans h.prevs, h'.nexts.trans h.nexts⟩

theorem SameOrder.pushInBkt (mem : ℕ → Element) (bkt : UtHashBucket) (add : ℕ) :
    SameOrder mem (pushInBkt mem bkt add).2 :=
  ⟨assoc_pushInBkt, links_pushInBkt fun _ _ _ => rfl, links_pushInBkt fun _ _ _ => rfl⟩

/-- Behind each of `rest`, `hh_next` leads to the next of `rest`. -/
def Leads (mem : ℕ → Element) (rest : List ℕ) : Prop :=
  ∀ pre x post, rest = pre ++ x :: post → hhNexts mem x = post.head?

theorem Expansion.move_spec (ideal : ℕ)
    (h : BucketsHold st.mem st.newBuckets (hashFcn · n) live chain) {hh : ℕ} (new : ¬ live hh) :
    ∃ chain', BucketsHold (st.move hashFcn n ideal hh).mem
        (st.move hashFcn n ideal hh).newBuckets (hashFcn · n) (fun a => live a ∨ a = hh) chain' ∧
      SameOrder st.mem (st.move hashFcn n ideal hh).mem ∧
      ∀ b, b ≠ hh → hhNexts (st.move hashFcn n ideal hh).mem b = hhNexts st.mem b := by
  have bucket := h.bucket (hashFcn (st.mem hh).cmdTag n)
  refine ⟨_, h.push new ?_, SameOrder.pushInBkt _ _ _, fun b other => ?_⟩
  · split
    · exact ⟨bucket.head, bucket.count, bucket.linked⟩
    · exact bucket
  · show hhNexts (pushInBkt _ _ hh).2 b = hhNexts st.mem b
    rw [hhNexts_pushInBkt, Function.update_of_ne other]

/-- Moving the elements of an old bucket. -/
theorem Expansion.moveBkt_spec (ideal : ℕ)
    (h : BucketsHold st.mem st.newBuckets (hashFcn · n) live chain) (nodup : rest.Nodup)
    (new : ∀ b ∈ rest, ¬ live b) (leads : Leads st.mem rest) (enough : rest.length ≤ fuel) :
    ∃ st' chain', Expansion.moveBkt hashFcn n ideal fuel rest.head? st = some st' ∧
      BucketsHold st'.mem st'.newBuckets (hashFcn · n) (fun a => live a ∨ a ∈ rest) chain' ∧
      SameOrder st.mem st'.mem ∧ ∀ b ∉ rest, hhNexts st'.mem b = hhNexts st.mem b := by
  induction rest generalizing st live chain fuel with
  | nil =>
      refine ⟨st, chain, ?_, ?_, .refl _, fun _ _ => rfl⟩
      · cases fuel <;> rfl
      · simpa using h
  | cons a rest ih =>
      obtain ⟨m, rfl⟩ : ∃ m, fuel = m + 1 := ⟨fuel - 1, by simp at enough; omega⟩
      obtain ⟨outside, nodup⟩ := List.nodup_cons.mp nodup
      obtain ⟨chain₁, moved, order, kept⟩ :=
        Expansion.move_spec ideal h (new a List.mem_cons_self)
      have after : hhNexts st.mem a = rest.head? := leads [] a rest rfl
      have new₁ : ∀ b ∈ rest, ¬ (live b ∨ b = a) := by
        rintro b later (old | rfl)
        · exact new b (List.mem_cons_of_mem a later) old
        · exact outside later
      have leads₁ : Leads (st.move hashFcn n ideal a).mem rest := by
        rintro pre x post rfl
        rw [kept x]
        · exact leads (a :: pre) x post rfl
        · rintro rfl
          exact outside (by simp)
      obtain ⟨st', chain', loop, holds, order', kept'⟩ :=
        ih moved nodup new₁ leads₁ (Nat.le_of_succ_le_succ enough)
      refine ⟨st', chain', ?_, ?_, order.trans order', fun b absent => ?_⟩
      · show Expansion.moveBkt hashFcn n ideal m (hhNexts st.mem a) _ = some st'
        rw [after]
        exact loop
      · have same : (fun b => (live b ∨ b = a) ∨ b ∈ rest) = fun b => live b ∨ b ∈ a :: rest := by
          funext b
          rw [List.mem_cons, or_assoc]
        rw [← same]
        exact holds
      · rw [List.mem_cons, not_or] at absent
        rw [kept' b absent.2, kept b absent.1]

/-- Moving the elements of several old buckets. -/
theorem Expansion.moveBkts_spec (ideal : ℕ) (st : Expansion) {buckets : ℕ → UtHashBucket}
    {old : ℕ → List ℕ} {is : List ℕ}
    (once : is.Nodup) (h : BucketsHold st.mem st.newBuckets (hashFcn · n) live chain)
    (heads : ∀ i, (buckets i).hhHead = (old i).head?) (nodup : ∀ i, (old i).Nodup)
    (apart : ∀ i j b, b ∈ old i → b ∈ old j → i = j)
    (new : ∀ i ∈ is, ∀ b ∈ old i, ¬ live b) (leads : ∀ i ∈ is, Leads st.mem (old i))
    (enough : ∀ i, (old i).length ≤ fuel) :
    ∃ st' chain', is.foldlM (fun st i =>
        Expansion.moveBkt hashFcn n ideal fuel (buckets i).hhHead st) st = some st' ∧
      BucketsHold st'.mem st'.newBuckets (hashFcn · n)
        (fun a => live a ∨ ∃ i ∈ is, a ∈ old i) chain' ∧
      SameOrder st.mem st'.mem := by
  induction is generalizing st live chain with
  | nil =>
      refine ⟨st, chain, rfl, ?_, .refl _⟩
      simpa using h
  | cons i is ih =>
      obtain ⟨outside, once⟩ := List.nodup_cons.mp once
      obtain ⟨st₁, chain₁, moved, holds, order, kept⟩ :=
        Expansion.moveBkt_spec ideal h (nodup i) (new i List.mem_cons_self)
          (leads i List.mem_cons_self) (enough i)
      have other : ∀ j ∈ is, ∀ b ∈ old j, b ∉ old i := by
        intro j later b there here
        exact outside (apart i j b here there ▸ later)
      have new₁ : ∀ j ∈ is, ∀ b ∈ old j, ¬ (live b ∨ b ∈ old i) := by
        rintro j later b there (before | here)
        · exact new j (List.mem_cons_of_mem i later) b there before
        · exact other j later b there here
      have leads₁ : ∀ j ∈ is, Leads st₁.mem (old j) := by
        intro j later pre x post split
        rw [kept x (other j later x (by rw [split]; simp))]
        exact leads j (List.mem_cons_of_mem i later) pre x post split
      obtain ⟨st', chain', fold, holds', order'⟩ := ih st₁ once holds new₁ leads₁
      refine ⟨st', chain', ?_, ?_, order.trans order'⟩
      · rw [List.foldlM_cons, heads i, moved]
        exact fold
      · have same : (fun a => (live a ∨ a ∈ old i) ∨ ∃ j ∈ is, a ∈ old j) =
            fun a => live a ∨ ∃ j ∈ i :: is, a ∈ old j := by
          funext a
          simp [or_assoc]
        rw [← same]
        exact holds'

/-- `HASH_EXPAND_BUCKETS` keeps the elements, in their order. -/
theorem hashExpandBuckets_spec {mem : ℕ → Element} {tbl : UtHashTable} {xs : List ℕ}
    (below : ∀ key n, 0 < n → hashFcn key n < n) (h : tbl.Holds hashFcn mem xs chain)
    (enough : xs.length ≤ fuel) :
    ∃ tbl' mem' chain', hashExpandBuckets hashFcn fuel mem tbl = some (tbl', mem') ∧
      tbl'.Holds hashFcn mem' xs chain' ∧ SameOrder mem mem' := by
  have empty : BucketsHold mem (fun _ => {}) (hashFcn · (2 * tbl.numBuckets)) (fun _ => False)
      fun _ => [] :=
    ⟨fun _ => List.nodup_nil, fun _ => ⟨rfl, rfl, .nil⟩, fun _ _ => by simp⟩
  have apart : ∀ i j b, b ∈ chain i → b ∈ chain j → i = j := fun i j b hi hj =>
    ((h.mem_chain i b).mp hi).2.symm.trans ((h.mem_chain j b).mp hj).2
  obtain ⟨st, chain', fold, holds, order⟩ :=
    Expansion.moveBkts_spec (tbl.numItems / tbl.numBuckets * 2 +
        if tbl.numItems % (tbl.numBuckets * 2) = 0 then 0 else 1)
      { mem := mem } (List.nodup_range (n := tbl.numBuckets)) empty
      (fun i => (h.bucket i).head) h.nodup apart (fun _ _ _ _ => not_false)
      (fun i _ pre x post split => ((h.bucket i).linked pre x post split).2)
      fun i => Nat.le_trans (h.length_le i) enough
  have all : (fun a => False ∨ ∃ i ∈ List.range tbl.numBuckets, a ∈ chain i) = (· ∈ xs) := by
    funext a
    rw [false_or, eq_iff_iff]
    constructor
    · rintro ⟨i, -, inside⟩
      exact ((h.mem_chain i a).mp inside).1
    · intro live
      refine ⟨hashFcn (mem a).cmdTag tbl.numBuckets, ?_, (h.mem_chain _ a).mpr ⟨live, rfl⟩⟩
      exact List.mem_range.mpr (below _ _ h.numBuckets)
  rw [all] at holds
  have run : hashExpandBuckets hashFcn fuel mem tbl = some ({ tbl with
      numBuckets := 2 * tbl.numBuckets
      buckets := st.newBuckets
      noexpand := tbl.noexpand || (tbl.hashQLow && decide (tbl.numItems < 2 * st.sumOfDeltas))
      hashQLow := decide (tbl.numItems < 2 * st.sumOfDeltas) }, st.mem) := by
    unfold hashExpandBuckets
    show Option.bind (List.foldlM _ _ _) _ = _
    rw [fold]
    rfl
  exact ⟨_, st.mem, chain', run,
    ⟨holds, h.tail, h.numItems, Nat.mul_pos (by decide) h.numBuckets⟩, order⟩

end Expand

/-! ## Adding an element -/

section Add

variable {hashFcn : U32 → ℕ → ℕ} {s : UtHash} {xs : List ℕ} {chain : ℕ → List ℕ} {fuel add : ℕ}

section Append

variable (mem : ℕ → Element) (p v : Option ℕ)

@[simp] theorem nexts_setNext : nexts (setHandle mem p fun hh => { hh with next := v }) =
    setLink (nexts mem) p v := links_setHandle _ _ fun _ => rfl
@[simp] theorem prevs_setNext : prevs (setHandle mem p fun hh => { hh with next := v }) =
    prevs mem := links_setHandle_other _ _ fun _ => rfl
@[simp] theorem hhNexts_setNext : hhNexts (setHandle mem p fun hh => { hh with next := v }) =
    hhNexts mem := links_setHandle_other _ _ fun _ => rfl
@[simp] theorem hhPrevs_setNext : hhPrevs (setHandle mem p fun hh => { hh with next := v }) =
    hhPrevs mem := links_setHandle_other _ _ fun _ => rfl
@[simp] theorem nexts_setPrev : nexts (setHandle mem p fun hh => { hh with prev := v }) =
    nexts mem := links_setHandle_other _ _ fun _ => rfl
@[simp] theorem prevs_setPrev : prevs (setHandle mem p fun hh => { hh with prev := v }) =
    setLink (prevs mem) p v := links_setHandle _ _ fun _ => rfl
@[simp] theorem hhNexts_setPrev : hhNexts (setHandle mem p fun hh => { hh with prev := v }) =
    hhNexts mem := links_setHandle_other _ _ fun _ => rfl
@[simp] theorem hhPrevs_setPrev : hhPrevs (setHandle mem p fun hh => { hh with prev := v }) =
    hhPrevs mem := links_setHandle_other _ _ fun _ => rfl

end Append

/-- A table to whose order `add` has been appended, but to no bucket yet. -/
structure Appended (hashFcn : U32 → ℕ → ℕ) (s : UtHash) (xs : List ℕ) (chain : ℕ → List ℕ)
    (add : ℕ) (t : UtHash) (tbl : UtHashTable) : Prop where
  head : t.head = (xs ++ [add]).head?
  allocated : t.tbl = some tbl
  tail : tbl.tail = some add
  numItems : tbl.numItems = xs.length
  numBuckets : 0 < tbl.numBuckets
  linked : Linked (prevs t.mem) (nexts t.mem) (xs ++ [add])
  buckets : BucketsHold t.mem tbl.buckets (hashFcn · tbl.numBuckets) (· ∈ xs) chain
  data : assoc t.mem = assoc s.mem

theorem BucketsHold.congr {mem mem' : ℕ → Element} {buckets : ℕ → UtHashBucket}
    {index : U32 → ℕ} {live : ℕ → Prop} (h : BucketsHold mem buckets index live chain)
    (hprev : hhPrevs mem' = hhPrevs mem) (hnext : hhNexts mem' = hhNexts mem)
    (data : assoc mem' = assoc mem) : BucketsHold mem' buckets index live chain :=
  ⟨h.nodup, fun i => (h.bucket i).congr (fun _ _ => by rw [hprev]) fun _ _ => by rw [hnext],
    fun i b => by rw [cmdTag_eq data, h.mem_chain i b]⟩

/-- The first element of a table, for which `HASH_MAKE_TABLE` allocates the buckets. -/
theorem appendElement_first (h : s.Holds hashFcn [] chain) (add : ℕ) :
    ∃ t tbl, appendElement s add = some t ∧ Appended hashFcn s [] chain add t tbl := by
  have pushed := h.linked.pushBack h.nodup (List.not_mem_nil (a := add))
  have run : appendElement s add = some
      { mem := setHandle (setHandle s.mem (some add) fun hh => { hh with next := none })
          (some add) fun hh => { hh with prev := none }
        head := some add
        tbl := some { tail := some add } } := by
    unfold appendElement
    rw [h.head]
    rfl
  refine ⟨_, { tail := some add }, run, ?_⟩
  exact {
    head := rfl
    allocated := rfl
    tail := rfl
    numItems := rfl
    numBuckets := (by decide : 0 < 32)
    linked := by
      rw [nexts_setPrev, nexts_setNext, prevs_setPrev, prevs_setNext]
      exact pushed
    buckets := by
      have empty := (h.empty rfl).2
      constructor
      · intro i
        rw [empty i]
        exact List.nodup_nil
      · intro i
        rw [empty i]
        exact ⟨rfl, rfl, .nil⟩
      · intro i a
        simp [empty i]
    data := by rw [assoc_setHandle, assoc_setHandle] }

/-- An element that comes after others. -/
theorem appendElement_more {first : ℕ} {rest : List ℕ}
    (h : s.Holds hashFcn (first :: rest) chain) (new : add ∉ first :: rest) :
    ∃ t tbl, appendElement s add = some t ∧
      Appended hashFcn s (first :: rest) chain add t tbl := by
  have pushed := h.linked.pushBack h.nodup new
  obtain ⟨tbl, allocated, table⟩ := h.table (List.cons_ne_nil first rest)
  obtain ⟨tail, htail⟩ : ∃ tail, (first :: rest).getLast? = some tail :=
    ⟨_, List.getLast?_cons⟩
  have run : appendElement s add = some
      { mem := setHandle (setHandle
          (setHandle s.mem (some add) fun hh => { hh with next := none }) (some tail)
            fun hh => { hh with next := some add }) (some add) fun hh =>
              { hh with prev := some tail }
        head := some first
        tbl := some { tbl with tail := some add } } := by
    have atTail := table.tail
    rw [htail] at atTail
    unfold appendElement
    rw [h.head, List.head?_cons, allocated]
    show Option.bind tbl.tail _ = _
    rw [atTail]
    rfl
  rw [htail] at pushed
  refine ⟨_, { tbl with tail := some add }, run, ?_⟩
  exact {
    head := rfl
    allocated := rfl
    tail := rfl
    numItems := table.numItems
    numBuckets := table.numBuckets
    linked := by
      rw [nexts_setPrev, nexts_setNext, nexts_setNext, prevs_setPrev, prevs_setNext,
        prevs_setNext]
      exact pushed
    buckets := by
      refine table.toBucketsHold.congr ?_ ?_ ?_
      · rw [hhPrevs_setPrev, hhPrevs_setNext, hhPrevs_setNext]
      · rw [hhNexts_setPrev, hhNexts_setNext, hhNexts_setNext]
      · rw [assoc_setHandle, assoc_setHandle, assoc_setHandle]
    data := by rw [assoc_setHandle, assoc_setHandle, assoc_setHandle] }

theorem appendElement_spec (h : s.Holds hashFcn xs chain) (new : add ∉ xs) :
    ∃ t tbl, appendElement s add = some t ∧ Appended hashFcn s xs chain add t tbl := by
  cases xs with
  | nil => exact appendElement_first h add
  | cons first rest => exact appendElement_more h new

/-- `HASH_ADD_TO_BKT` gives the last element of a table its bucket. -/
theorem hashAddToBkt_spec (below : ∀ key n, 0 < n → hashFcn key n < n) {mem : ℕ → Element}
    (tbl : UtHashTable)
    (h : BucketsHold mem tbl.buckets (hashFcn · tbl.numBuckets) (· ∈ xs) chain) (new : add ∉ xs)
    (tail : tbl.tail = some add) (numItems : tbl.numItems = xs.length + 1)
    (numBuckets : 0 < tbl.numBuckets) (enough : xs.length < fuel) :
    ∃ tbl' mem' chain', hashAddToBkt hashFcn fuel mem tbl add = some (tbl', mem') ∧
      tbl'.Holds hashFcn mem' (xs ++ [add]) chain' ∧ SameOrder mem mem' := by
  have pushed := h.push new (h.bucket _)
  have all : (fun a => a ∈ xs ∨ a = add) = (· ∈ xs ++ [add]) := by
    funext a
    simp
  rw [all] at pushed
  have length : xs.length + 1 = (xs ++ [add]).length := by simp
  have enough : (xs ++ [add]).length ≤ fuel := length ▸ enough
  have last : (xs ++ [add]).getLast? = some add := by simp
  have bucketed : UtHashTable.Holds hashFcn _ { tbl with
      buckets := Function.update tbl.buckets _ _ } (xs ++ [add]) _ :=
    ⟨pushed, tail.trans last.symm, numItems.trans length, numBuckets⟩
  unfold hashAddToBkt
  dsimp only
  split
  · obtain ⟨tbl', mem', chain', expanded, holds, order⟩ :=
      hashExpandBuckets_spec below bucketed enough
    exact ⟨tbl', mem', chain', expanded, holds, (SameOrder.pushInBkt _ _ _).trans order⟩
  · exact ⟨_, _, _, rfl, bucketed, .pushInBkt _ _ _⟩

/-- `HASH_ADD_INT` of a new element appends it to the table. -/
theorem hashAddInt_spec (below : ∀ key n, 0 < n → hashFcn key n < n)
    (h : s.Holds hashFcn xs chain) (new : add ∉ xs) (enough : xs.length < fuel) :
    ∃ t chain', hashAddInt hashFcn fuel s add = some t ∧
      t.Holds hashFcn (xs ++ [add]) chain' ∧ assoc t.mem = assoc s.mem := by
  obtain ⟨t, tbl, appended, at_⟩ := appendElement_spec h new
  have nodup : (xs ++ [add]).Nodup := by
    rw [List.nodup_append]
    refine ⟨h.nodup, List.nodup_singleton _, ?_⟩
    rintro a live b single rfl
    exact new (List.mem_singleton.mp single ▸ live)
  obtain ⟨tbl', mem', chain', bucketed, holds, order⟩ :=
    hashAddToBkt_spec below { tbl with numItems := tbl.numItems + 1 } at_.buckets new at_.tail
      (congrArg (· + 1) at_.numItems) at_.numBuckets enough
  have linked := at_.linked
  rw [← order.nexts, ← order.prevs] at linked
  have notNil : xs ++ [add] ≠ [] := by simp
  refine ⟨⟨mem', t.head, some tbl'⟩, chain', ?_,
    ⟨nodup, at_.head, linked, fun nil => absurd nil notNil, fun _ => ⟨tbl', rfl, holds⟩⟩,
    order.data.trans at_.data⟩
  unfold hashAddInt
  rw [appended]
  show Option.bind t.tbl _ = _
  rw [at_.allocated]
  show Option.bind (hashAddToBkt _ _ _ _ _) _ = _
  rw [bucketed]
  rfl

end Add

end Cjunk.Hash
