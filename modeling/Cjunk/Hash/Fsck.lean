import Cjunk.Hash.Adding
import Cjunk.Lib.WhileLoop

/-!
# The check of a hash table

`HASH_FSCK` checks a table after each change of it, if `HASH_DEBUG` is defined: that the buckets
and the order of the table are linked forwards and backwards, and that the counts are right.

## Main results

* `hashFsck_eq_ok_iff` — what the check accepts
* `UtHash.Holds.fsck` — it accepts what the macros build
-/

namespace Cjunk.Hash

open LinkedList WhileLoop

/-! ## The macro -/

/-- The variables of a loop along a list. -/
structure Checking where
  hh : Option ℕ
  /-- The element before. -/
  key : Option ℕ := none
  count : ℕ := 0

/-- The body of `while (hh)`, which ends the program where an element does not lead back to the
one before. -/
def checkElement (next prev : ℕ → Option ℕ) (c : Checking) : Except Stop Checking :=
  match c.hh with
  | none => .error .fault
  | some a =>
      if c.key ≠ prev a then .error .exit
      else .ok { hh := next a, key := some a, count := c.count + 1 }

/-- How many elements there are from `head` on. -/
def checkList (next prev : ℕ → Option ℕ) (fuel : ℕ) (head : Option ℕ) : Except Stop ℕ := do
  let c ← whileLoop (fun c => .ok c.hh.isSome) (checkElement next prev) fuel { hh := head }
  return c.count

/-- The items of a bucket are counted. -/
def checkBkt (fuel : ℕ) (mem : ℕ → Element) (bkt : UtHashBucket) : Except Stop ℕ := do
  let bktIdeal ← checkList (hhNexts mem) (hhPrevs mem) fuel bkt.hhHead
  if bkt.count ≠ bktIdeal then .error .exit else .ok bktIdeal

/-- The items of the first `n` buckets are counted. -/
def checkBkts (fuel : ℕ) (mem : ℕ → Element) (buckets : ℕ → UtHashBucket) :
    ℕ → Except Stop ℕ
  | 0 => .ok 0
  | n + 1 => do
      let keylen ← checkBkts fuel mem buckets n
      let bktIdeal ← checkBkt fuel mem (buckets n)
      return keylen + bktIdeal

/-- `HASH_FSCK`. -/
def hashFsck (fuel : ℕ) (s : UtHash) : Except Stop Unit :=
  match s.head, s.tbl with
  | none, _ => .ok ()
  | some _, none => .error .fault
  | some head, some tbl => do
      let keylen ← checkBkts fuel s.mem tbl.buckets tbl.numBuckets
      if keylen ≠ tbl.numItems then .error .exit
      else
        let keylen ← checkList (nexts s.mem) (prevs s.mem) fuel (some head)
        if keylen ≠ tbl.numItems then .error .exit else .ok ()

/-! ## What the check accepts -/

section Accepts

variable {next prev : ℕ → Option ℕ} {fuel n : ℕ} {c c' : Checking} {mem : ℕ → Element}
  {bkt : UtHashBucket} {buckets : ℕ → UtHashBucket}

/-- The loop ends at the end of a list that is linked both ways. -/
theorem checking_ends_iff {key hh : Option ℕ} {count : ℕ} :
    (∃ c, whileLoop (fun c => .ok c.hh.isSome) (checkElement next prev) fuel ⟨hh, key, count⟩ =
      .ok c ∧ c.count = n) ↔
    ∃ xs, Chained prev next key hh xs ∧ xs.length < fuel ∧ count + xs.length = n := by
  induction fuel generalizing key hh count with
  | zero => exact ⟨nofun, fun ⟨_, _, short, _⟩ => absurd short (Nat.not_lt_zero _)⟩
  | succ fuel ih =>
      rw [whileLoop]
      cases hh with
      | none =>
          constructor
          · rintro ⟨c, ⟨⟩, rfl⟩
            exact ⟨[], rfl, Nat.succ_pos _, rfl⟩
          · rintro ⟨xs, chained, -, rfl⟩
            cases xs with
            | nil => exact ⟨_, rfl, rfl⟩
            | cons x xs => cases chained.1
      | some a =>
          show (∃ c, ((if key ≠ prev a then Except.error Stop.exit else _) >>= _) = _ ∧ _) ↔ _
          by_cases back : prev a = key
          · rw [if_neg (not_not.mpr back.symm)]
            refine Iff.trans ih ?_
            constructor
            · rintro ⟨xs, chained, short, rfl⟩
              refine ⟨a :: xs, ⟨rfl, back, chained⟩, Nat.succ_lt_succ short, ?_⟩
              exact (Nat.succ_add_eq_add_succ count xs.length).symm
            · rintro ⟨xs, chained, short, rfl⟩
              cases xs with
              | nil => cases chained
              | cons x xs =>
                  obtain ⟨⟨⟩, -, rest⟩ := chained
                  refine ⟨xs, rest, Nat.lt_of_succ_lt_succ short, ?_⟩
                  exact Nat.succ_add_eq_add_succ count xs.length
          · rw [if_pos (Ne.symm back)]
            constructor
            · rintro ⟨c, ⟨⟩, -⟩
            · rintro ⟨xs, chained, -, -⟩
              cases xs with
              | nil => cases chained
              | cons x xs =>
                  obtain ⟨⟨⟩, back', -⟩ := chained
                  exact absurd back' back

theorem checkList_eq_ok_iff {head : Option ℕ} : checkList next prev fuel head = .ok n ↔
    ∃ xs, head = xs.head? ∧ Linked prev next xs ∧ xs.length < fuel ∧ xs.length = n := by
  refine bind_eq_ok_iff.trans ?_
  have ends : (∃ c, whileLoop (fun c => .ok c.hh.isSome) (checkElement next prev) fuel
      { hh := head } = .ok c ∧ c.count = n) ↔ _ := checking_ends_iff
  simp only [chained_none_iff, Nat.zero_add, and_assoc] at ends
  rw [← ends]
  refine exists_congr fun c => and_congr_right fun _ => ?_
  exact ⟨fun same => Except.ok.inj same, fun same => congrArg Except.ok same⟩

theorem checkBkt_eq_ok_iff : checkBkt fuel mem bkt = .ok n ↔
    ∃ xs, bkt.Holds mem xs ∧ xs.length < fuel ∧ xs.length = n := by
  refine bind_eq_ok_iff.trans ?_
  simp only [checkList_eq_ok_iff]
  constructor
  · rintro ⟨m, ⟨xs, head, linked, short, rfl⟩, counted⟩
    split at counted
    · cases counted
    · rename_i same
      cases counted
      exact ⟨xs, ⟨head, not_not.mp same, linked⟩, short, rfl⟩
  · rintro ⟨xs, holds, short, rfl⟩
    exact ⟨_, ⟨xs, holds.head, holds.linked, short, rfl⟩, if_neg (not_not.mpr holds.count)⟩

theorem checkBkts_eq_ok_iff {total : ℕ} : checkBkts fuel mem buckets n = .ok total ↔
    ∃ chain : ℕ → List ℕ, (∀ i < n, (buckets i).Holds mem (chain i) ∧ (chain i).length < fuel) ∧
      ((List.range n).flatMap chain).length = total := by
  induction n generalizing total with
  | zero =>
      constructor
      · rintro ⟨⟩
        exact ⟨fun _ => [], nofun, rfl⟩
      · rintro ⟨chain, -, rfl⟩
        rfl
  | succ n ih =>
      refine bind_eq_ok_iff.trans ?_
      constructor
      · rintro ⟨keylen, counted, last⟩
        obtain ⟨m, here, sum⟩ := bind_eq_ok_iff.mp last
        obtain ⟨chain, holds, rfl⟩ := ih.mp counted
        obtain ⟨xs, holds', short, rfl⟩ := checkBkt_eq_ok_iff.mp here
        cases sum
        refine ⟨Function.update chain n xs, fun i below => ?_, ?_⟩
        · by_cases here : i = n
          · subst here
            rw [Function.update_self]
            exact ⟨holds', short⟩
          · rw [Function.update_of_ne here]
            exact holds i (Nat.lt_of_le_of_ne (Nat.le_of_lt_succ below) here)
        · have before : (List.range n).flatMap (Function.update chain n xs) =
              (List.range n).flatMap chain := List.flatMap_congr fun i mem =>
            Function.update_of_ne (Nat.ne_of_lt (List.mem_range.mp mem)) _ _
          rw [List.range_succ, List.flatMap_append, List.length_append, before]
          simp
      · rintro ⟨chain, holds, rfl⟩
        refine ⟨_, ih.mpr ⟨chain, fun i below => holds i (Nat.lt_succ_of_lt below), rfl⟩, ?_⟩
        obtain ⟨holds', short⟩ := holds n (Nat.lt_succ_self n)
        refine bind_eq_ok_iff.mpr ⟨_, checkBkt_eq_ok_iff.mpr ⟨_, holds', short, rfl⟩, ?_⟩
        rw [List.range_succ, List.flatMap_append, List.length_append]
        simp [pure, Except.pure]

/-- What `HASH_FSCK` accepts: the order of the table and its buckets are linked both ways, no
element comes twice in one of them, and the counts are right. -/
structure Checked (fuel : ℕ) (s : UtHash) (tbl : UtHashTable) (xs : List ℕ)
    (chain : ℕ → List ℕ) : Prop where
  head : s.head = xs.head?
  linked : Linked (prevs s.mem) (nexts s.mem) xs
  nodup : xs.Nodup
  numItems : xs.length = tbl.numItems
  buckets : ∀ i < tbl.numBuckets,
    (tbl.buckets i).Holds s.mem (chain i) ∧ (chain i).length < fuel
  nodups : ∀ i < tbl.numBuckets, (chain i).Nodup
  bktItems : ((List.range tbl.numBuckets).flatMap chain).length = tbl.numItems
  short : xs.length < fuel

/-- The check passes just for the tables that are linked and counted as they should be. -/
theorem hashFsck_eq_ok_iff {s : UtHash} : hashFsck fuel s = .ok () ↔
    s.head = none ∨ ∃ tbl xs chain, s.tbl = some tbl ∧ s.head ≠ none ∧
      Checked fuel s tbl xs chain := by
  unfold hashFsck
  cases head : s.head with
  | none => exact ⟨fun _ => .inl rfl, fun _ => rfl⟩
  | some a =>
      cases allocated : s.tbl with
      | none =>
          refine ⟨nofun, ?_⟩
          rintro (⟨⟨⟩⟩ | ⟨tbl, -, -, ⟨⟩, -⟩)
      | some tbl =>
          -- The buckets are counted first, and then the elements in their order.
          refine bind_eq_ok_iff.trans ?_
          constructor
          · rintro ⟨keylen, counted, checked⟩
            split at checked
            · cases checked
            · rename_i same
              obtain rfl := not_not.mp same
              obtain ⟨_, follows, last⟩ := bind_eq_ok_iff.mp checked
              obtain ⟨xs, first, linked, short, rfl⟩ := checkList_eq_ok_iff.mp follows
              obtain ⟨chain, buckets, total⟩ := checkBkts_eq_ok_iff.mp counted
              split at last
              · cases last
              · rename_i same'
                exact .inr ⟨tbl, xs, chain, rfl, Option.some_ne_none a, head.trans first, linked,
                  linked.nodup, not_not.mp same', buckets,
                  fun i below => (buckets i below).1.linked.nodup, total, short⟩
          · rintro (⟨⟨⟩⟩ | ⟨_, xs, chain, ⟨⟩, -, checked⟩)
            refine ⟨_, checkBkts_eq_ok_iff.mpr ⟨chain, checked.buckets, checked.bktItems⟩, ?_⟩
            rw [if_neg (not_not.mpr rfl)]
            refine bind_eq_ok_iff.mpr ⟨_, checkList_eq_ok_iff.mpr ⟨xs, head ▸ checked.head,
              checked.linked, checked.short, checked.numItems⟩, ?_⟩
            exact if_neg (not_not.mpr rfl)

end Accepts

/-! ## What the macros build -/

section Builds

variable {hashFcn : U32 → ℕ → ℕ} {s : UtHash} {xs : List ℕ} {chain : ℕ → List ℕ} {fuel : ℕ}

/-- Each element is in one of the buckets. -/
theorem UtHashTable.Holds.perm_flatMap {mem : ℕ → Element} {tbl : UtHashTable}
    (h : tbl.Holds hashFcn mem xs chain) (nodup : xs.Nodup)
    (below : ∀ key n, 0 < n → hashFcn key n < n) :
    ((List.range tbl.numBuckets).flatMap chain).Perm xs := by
  refine (List.perm_ext_iff_of_nodup ?_ nodup).mpr fun a => ?_
  · rw [List.nodup_flatMap]
    refine ⟨fun i _ => h.nodup i, List.nodup_range.imp ?_⟩
    intro i j other a here there
    exact other (((h.mem_chain i a).mp here).2.symm.trans ((h.mem_chain j a).mp there).2)
  · rw [List.mem_flatMap]
    constructor
    · rintro ⟨i, -, inside⟩
      exact ((h.mem_chain i a).mp inside).1
    · intro live
      exact ⟨_, List.mem_range.mpr (below _ _ h.numBuckets), (h.mem_chain _ a).mpr ⟨live, rfl⟩⟩

/-- The check passes for what the macros build. -/
theorem UtHash.Holds.fsck (h : s.Holds hashFcn xs chain)
    (below : ∀ key n, 0 < n → hashFcn key n < n) (enough : xs.length < fuel) :
    hashFsck fuel s = .ok () := by
  rw [hashFsck_eq_ok_iff]
  by_cases nil : xs = []
  · left
    rw [h.head, nil]
    rfl
  · right
    obtain ⟨tbl, allocated, table⟩ := h.table nil
    refine ⟨tbl, xs, chain, allocated, ?_, h.head, h.linked, h.nodup, table.numItems.symm,
      fun i _ => ⟨table.bucket i, Nat.lt_of_le_of_lt (table.length_le i) enough⟩,
      fun i _ => table.nodup i, ?_, enough⟩
    · rw [h.head]
      exact fun none => nil (List.head?_eq_none_iff.mp none)
    · rw [(table.perm_flatMap h.nodup below).length_eq, table.numItems]

end Builds

end Cjunk.Hash
