import Cjunk.Hash.Fsck
import Cjunk.Hash.Sorting
import Cjunk.Hash.TagMemory
import Cjunk.Lib.Refinement

/-!
# Runs of the macros of `uthash.h`

`Ordered` is what the macros are about: associations in an order, and what searches found.  A run
of `HASH_ADD_INT`, `HASH_DEL`, `HASH_FIND_INT`, `HASH_SORT` and `HASH_FSCK` on a table in memory
does just what it does there, if no key is added twice.

## Main results

* `macros_refine` — the table in memory is the one that the calls describe
-/

namespace Cjunk.Hash

open LinkedList Refinement Run

/-! ## The calls -/

/-- The associations in their order, and what the searches have found. -/
structure Ordered where
  table : List Assoc2Socket := []
  found : List (Option Assoc2Socket) := []

inductive MacroCall where
  | add (ptr : ℕ) (cmdTag : U32) (socket time : ℤ)
  | del (ptr : ℕ)
  | find (cmdTag : U32)
  | sort (cmp : Comparison)
  | fsck

/-- What a call does. -/
def Ordered.call (o : Ordered) : MacroCall → Ordered
  | .add ptr cmdTag socket time =>
      { o with table := o.table ++ [⟨ptr, cmdTag, socket, time⟩] }
  | .del ptr => { o with table := o.table.filter fun a => a.ptr ≠ ptr }
  | .find cmdTag => { o with found := o.found ++ [o.table.find? fun a => a.cmdTag = cmdTag] }
  | .sort cmp => { o with table := o.table.mergeSort cmp.le }
  | .fsck => o

/-- What a caller has to see to: an element is added that is not in the table, under a key that is
not, one is deleted that is, and the elements that are sorted can be counted. -/
def MacroCall.Allowed (o : Ordered) : MacroCall → Prop
  | .add ptr cmdTag _ _ => ∀ a ∈ o.table, a.ptr ≠ ptr ∧ a.cmdTag ≠ cmdTag
  | .del ptr => ∃ a ∈ o.table, a.ptr = ptr
  | .sort _ => o.table.length ≤ 2147483648
  | .find _ | .fsck => True

instance (o : Ordered) (c : MacroCall) : Decidable (c.Allowed o) := by
  cases c <;> unfold MacroCall.Allowed <;> infer_instance

/-- A table in memory, and what the searches have found. -/
structure HashMemory where
  hash : UtHash
  found : List (Option Assoc2Socket) := []

section Calls

variable (hashFcn : U32 → ℕ → ℕ) (fuel : ℕ)

/-- A call on the memory.  There is no result if the check of the table fails either. -/
def HashMemory.call (s : HashMemory) : MacroCall → Option HashMemory
  | .add ptr cmdTag socket time =>
      (s.hash.tieTag2Socket hashFcn fuel ptr cmdTag socket time).map fun t => { s with hash := t }
  | .del ptr => (hashDelete hashFcn s.hash ptr).map fun t => { s with hash := t }
  | .find cmdTag => (hashFind hashFcn fuel s.hash cmdTag).map fun found =>
      { s with found := s.found ++ [found.map (assoc s.hash.mem)] }
  | .sort cmp => (hashSort cmp fuel s.hash).toOption.map fun t => { s with hash := t }
  | .fsck => (hashFsck fuel s.hash).toOption.map fun _ => s

end Calls

/-- The table in memory has the associations in their order, under different keys. -/
structure IsOrdered (hashFcn : U32 → ℕ → ℕ) (s : HashMemory) (o : Ordered) (xs : List ℕ)
    (chain : ℕ → List ℕ) : Prop where
  holds : s.hash.Holds hashFcn xs chain
  table : o.table = xs.map (assoc s.hash.mem)
  keys : (o.table.map Assoc2Socket.cmdTag).Nodup
  found : s.found = o.found

section Step

variable {hashFcn : U32 → ℕ → ℕ} {s : HashMemory} {o : Ordered} {xs : List ℕ}
  {chain : ℕ → List ℕ} {fuel : ℕ}

theorem IsOrdered.length (h : IsOrdered hashFcn s o xs chain) : xs.length = o.table.length := by
  rw [h.table, List.length_map]

theorem IsOrdered.add (h : IsOrdered hashFcn s o xs chain)
    (below : ∀ key n, 0 < n → hashFcn key n < n) {ptr : ℕ} {cmdTag : U32} {socket time : ℤ}
    (new : ∀ a ∈ o.table, a.ptr ≠ ptr ∧ a.cmdTag ≠ cmdTag) (enough : o.table.length < fuel) :
    ∃ t xs' chain', s.call hashFcn fuel (.add ptr cmdTag socket time) = some t ∧
      IsOrdered hashFcn t (o.call (.add ptr cmdTag socket time)) xs' chain' := by
  have outside : ptr ∉ xs := fun live =>
    (new (assoc s.hash.mem ptr) (h.table ▸ List.mem_map_of_mem live)).1 rfl
  obtain ⟨t, chain', added, holds, data⟩ := hashAddInt_spec below
    (h.holds.write outside { cmdTag := cmdTag, socket := socket, time := time }) outside
    (h.length ▸ enough)
  refine ⟨{ s with hash := t }, xs ++ [ptr], chain', congrArg (Option.map _) added, holds, ?_, ?_,
    h.found⟩
  · show o.table ++ [_] = (xs ++ [ptr]).map (assoc t.mem)
    rw [data, List.map_append, h.table]
    refine congrArg₂ _ (List.map_congr_left fun a live => ?_) (by simp [assoc])
    have other : a ≠ ptr := ne_of_mem_of_not_mem live outside
    simp [assoc, other]
  · show ((o.table ++ [_]).map Assoc2Socket.cmdTag).Nodup
    rw [List.map_append, List.map_singleton, List.nodup_append]
    refine ⟨h.keys, List.nodup_singleton _, fun key mem key' last => ?_⟩
    obtain ⟨a, live, rfl⟩ := List.mem_map.mp mem
    exact List.mem_singleton.mp last ▸ (new a live).2

theorem IsOrdered.del (h : IsOrdered hashFcn s o xs chain) {ptr : ℕ}
    (there : ∃ a ∈ o.table, a.ptr = ptr) :
    ∃ t xs' chain', s.call hashFcn fuel (.del ptr) = some t ∧
      IsOrdered hashFcn t (o.call (.del ptr)) xs' chain' := by
  obtain ⟨a, inside, rfl⟩ := there
  rw [h.table] at inside
  obtain ⟨x, live, rfl⟩ := List.mem_map.mp inside
  obtain ⟨t, deleted, holds, data, -⟩ := h.holds.delete live
  refine ⟨{ s with hash := t }, _, _, congrArg (Option.map _) deleted, holds, ?_,
    h.keys.sublist (List.filter_sublist.map _), h.found⟩
  show o.table.filter _ = (without x xs).map (assoc t.mem)
  rw [data, h.table, List.filter_map]
  rfl

/-- Under different keys there is one association to find. -/
theorem IsOrdered.find_eq (h : IsOrdered hashFcn s o xs chain) {cmdTag : U32} {ys : List ℕ}
    (live : ∀ b ∈ ys, b ∈ xs) (inside : ∀ b ∈ xs, (s.hash.mem b).cmdTag = cmdTag → b ∈ ys) :
    (ys.find? fun b => decide ((s.hash.mem b).cmdTag = cmdTag)).map (assoc s.hash.mem) =
      o.table.find? fun a => decide (a.cmdTag = cmdTag) := by
  rw [h.table, List.find?_map]
  have unique : ∀ a ∈ xs, ∀ b ∈ xs, (s.hash.mem a).cmdTag = (s.hash.mem b).cmdTag → a = b := by
    have keys := h.keys
    rw [h.table, List.map_map] at keys
    exact fun a ha b hb same => List.inj_on_of_nodup_map keys ha hb same
  refine congrArg (Option.map _) ?_
  show _ = xs.find? fun b => decide ((s.hash.mem b).cmdTag = cmdTag)
  cases found : xs.find? fun b => decide ((s.hash.mem b).cmdTag = cmdTag) with
  | none =>
      rw [List.find?_eq_none] at found ⊢
      exact fun b mem => found b (live b mem)
  | some a =>
      have tag : (s.hash.mem a).cmdTag = cmdTag := by simpa using List.find?_some found
      have there := List.mem_of_find?_eq_some found
      have some : (ys.find? fun b => decide ((s.hash.mem b).cmdTag = cmdTag)).isSome :=
        List.find?_isSome.mpr ⟨a, inside a there tag, decide_eq_true tag⟩
      obtain ⟨b, hit⟩ := Option.isSome_iff_exists.mp some
      have tag' : (s.hash.mem b).cmdTag = cmdTag := by simpa using List.find?_some hit
      rw [hit, unique b (live b (List.mem_of_find?_eq_some hit)) a there (tag'.trans tag.symm)]

theorem IsOrdered.find (h : IsOrdered hashFcn s o xs chain) (cmdTag : U32)
    (enough : o.table.length < fuel) :
    ∃ t, s.call hashFcn fuel (.find cmdTag) = some t ∧
      IsOrdered hashFcn t (o.call (.find cmdTag)) xs chain := by
  obtain ⟨i, search, inside⟩ := h.holds.hashFind cmdTag (h.length ▸ Nat.le_of_lt enough)
  refine ⟨_, congrArg (Option.map _) search, h.holds, h.table, h.keys, ?_⟩
  show s.found ++ [_] = o.found ++ [_]
  rw [h.found, h.find_eq (fun b mem => h.holds.live mem) inside]

theorem IsOrdered.sort (h : IsOrdered hashFcn s o xs chain) (cmp : Comparison)
    (short : o.table.length ≤ 2147483648) (enough : o.table.length < fuel) :
    ∃ t xs', s.call hashFcn fuel (.sort cmp) = some t ∧
      IsOrdered hashFcn t (o.call (.sort cmp)) xs' chain := by
  obtain ⟨t, sorted, holds, same⟩ :=
    (h.holds.sort cmp fuel (h.length ▸ short)).finished (h.length ▸ enough)
  refine ⟨{ s with hash := t }, _, ?_, holds, ?_, ?_, h.found⟩
  · show (hashSort cmp fuel s.hash).toOption.map _ = _
    rw [sorted]
    rfl
  · show o.table.mergeSort cmp.le = _
    rw [same.data, h.table]
    symm
    exact List.map_mergeSort fun _ _ _ _ => rfl
  · exact ((List.mergeSort_perm _ _).map _).nodup_iff.mpr h.keys

/-- A call on the memory does what it does to the associations. -/
theorem IsOrdered.call (below : ∀ key n, 0 < n → hashFcn key n < n) {c : MacroCall}
    (h : IsOrdered hashFcn s o xs chain) (allowed : c.Allowed o) (enough : o.table.length < fuel) :
    ∃ t, s.call hashFcn fuel c = some t ∧
      ∃ xs' chain', IsOrdered hashFcn t (o.call c) xs' chain' := by
  cases c with
  | add ptr cmdTag socket time =>
      obtain ⟨t, xs', chain', ran, ordered⟩ := h.add below allowed enough
      exact ⟨t, ran, xs', chain', ordered⟩
  | del ptr =>
      obtain ⟨t, xs', chain', ran, ordered⟩ := h.del allowed
      exact ⟨t, ran, xs', chain', ordered⟩
  | find cmdTag =>
      obtain ⟨t, ran, ordered⟩ := h.find cmdTag enough
      exact ⟨t, ran, xs, chain, ordered⟩
  | sort cmp =>
      obtain ⟨t, xs', ran, ordered⟩ := h.sort cmp allowed enough
      exact ⟨t, ran, xs', chain, ordered⟩
  | fsck =>
      refine ⟨s, ?_, xs, chain, h⟩
      rw [HashMemory.call, h.holds.fsck below (h.length ▸ enough)]
      rfl

/-- A table without elements. -/
theorem isOrdered_nil (mem : ℕ → Element) :
    IsOrdered hashFcn { hash := { mem := mem } } {} [] fun _ => [] where
  holds := ⟨.nil, rfl, .nil, fun _ => ⟨rfl, fun _ => rfl⟩, fun some => absurd rfl some⟩
  table := rfl
  keys := .nil
  found := rfl

/-- **The macros implement an ordered map.**  From a table without elements, every run of allowed
calls leaves the table that the calls describe, every search finds what there is to find, and
every check passes. -/
theorem macros_refine (below : ∀ key n, 0 < n → hashFcn key n < n) (mem : ℕ → Element)
    {calls : List MacroCall} (enough : calls.length ≤ fuel)
    (allowed : Along (fun o c => some (Ordered.call o c)) (fun o c => c.Allowed o) {} calls) :
    ∃ t, exec (HashMemory.call hashFcn fuel) { hash := { mem := mem } } calls = some t ∧
      ∃ xs chain, IsOrdered hashFcn t (calls.foldl Ordered.call {}) xs chain := by
  have start : ∃ xs chain, IsOrdered hashFcn { hash := { mem := mem } } {} xs chain :=
    ⟨[], _, isOrdered_nil mem⟩
  refine exec_refines (R := fun s o => ∃ xs chain, IsOrdered hashFcn s o xs chain)
    fuel (fun o => o.table.length) ?_ ?_ start allowed ?_
  · rintro s o c ⟨xs, chain, h⟩ allowed enough
    exact h.call below allowed enough
  · intro o c _
    cases c with
    | add ptr cmdTag socket time => simp [Ordered.call]
    | del ptr => exact Nat.le_succ_of_le (List.length_filter_le _ _)
    | find cmdTag => exact Nat.le_succ _
    | sort cmp => exact Nat.le_succ_of_le (Nat.le_of_eq (List.length_mergeSort _))
    | fsck => exact Nat.le_succ _
  · rwa [List.length_nil, Nat.zero_add]

/-- Elements in the order of their sockets. -/
def bySocket : Comparison where
  cmpfcn a b := a.socket - b.socket
  trans ab bc := by omega
  total a b := by omega

/-- Two elements are sorted, one of them is deleted, and the other is found. -/
def sortedTags : List MacroCall :=
  [.add 0 5 4 0, .add 1 37 3 0, .sort bySocket, .fsck, .del 0, .find 37]

theorem macros_refine_sortedTags :
    ∃ t, exec (HashMemory.call (fun key n => key.toNat % n) 6) { hash := TagMemory.start.hash }
        sortedTags = some t ∧
      ∃ xs chain, IsOrdered (fun key n => key.toNat % n) t (sortedTags.foldl Ordered.call {}) xs
        chain :=
  macros_refine (fun _ _ => Nat.mod_lt _) _ (Nat.le_refl _)
    (by simp [sortedTags, Along, Ordered.call, MacroCall.Allowed])

end Step

end Cjunk.Hash
