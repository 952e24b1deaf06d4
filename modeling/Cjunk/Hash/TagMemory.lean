import Cjunk.Hash.Adding
import Cjunk.Hash.TagMap

/-!
# The calls of `tag.c` on the table in memory

`Represents s tags` says that the table `s` in memory has the associations of `tags`, in
their order.  Each call into `tag.c`, made on the memory, does what the call of `TagMap`
does to the list of associations, with the search that `HASH_FIND_INT` makes; where the
latter dereferences `NULL`, so does the former.  It follows that the table in memory keeps
the invariant of the macros in every run.
-/

namespace Cjunk.Hash

open KeyedTable Run

/-! ## The calls -/

section Calls

variable (hashFcn : U32 → ℕ → ℕ) (fuel : ℕ)

namespace UtHash

/-- `tie_tag_2_socket`, with the address that `malloc` returns. -/
def tieTag2Socket (s : UtHash) (ptr : ℕ) (cmdTag : U32) (socket now : ℤ) : Option UtHash :=
  let mem := Function.update s.mem ptr { cmdTag := cmdTag, socket := socket, time := now }
  hashAddInt hashFcn fuel { s with mem := mem } ptr

/-- `untie_tag_2_socket`. -/
def untieTag2Socket (s : UtHash) (cmdTag : U32) : Option UtHash := do
  let found ← hashFind hashFcn fuel s cmdTag
  let ptr ← found -- `HASH_DEL` dereferences it
  hashDelete hashFcn s ptr

/-- `delete_multi_cmd_tag`, at time `now`. -/
def deleteMultiCmdTag (s : UtHash) (cmdTag : U32) (oldTime now : ℤ) : Option UtHash :=
  if oldTime + timeoutCmdTag ≤ now then do
    let found ← hashFind hashFcn fuel s cmdTag
    match found with
    | none => return s
    | some ptr => hashDelete hashFcn s ptr
  else some s

end UtHash

/-- The memory and the next address of `malloc`. -/
structure TagMemory where
  hash : UtHash
  nextPtr : ℕ := 0

def TagMemory.call (s : TagMemory) : TagCall → Option TagMemory
  | .tie cmdTag socket now =>
      (s.hash.tieTag2Socket hashFcn fuel s.nextPtr cmdTag socket now).map fun t =>
        { hash := t, nextPtr := s.nextPtr + 1 }
  | .untie cmdTag => (s.hash.untieTag2Socket hashFcn fuel cmdTag).map fun t => { s with hash := t }
  | .deleteSocket socket =>
      (s.hash.deleteTagsAssocsToSocket hashFcn fuel socket).map fun t => { s with hash := t }
  | .purge now => (s.hash.purgeHash hashFcn fuel now).map fun t => { s with hash := t }
  | .deleteMulti cmdTag oldTime now =>
      (s.hash.deleteMultiCmdTag hashFcn fuel cmdTag oldTime now).map fun t => { s with hash := t }

end Calls

/-- The table in memory has the elements `xs`, and they are the associations of `tags`. -/
structure RepresentedBy (hashFcn : U32 → ℕ → ℕ) (s : TagMemory) (tags : Tags) (xs : List ℕ)
    (chain : ℕ → List ℕ) : Prop where
  holds : s.hash.Holds hashFcn xs chain
  table : tags.table = xs.map (assoc s.hash.mem)
  below : ∀ a ∈ xs, a < s.nextPtr
  nextPtr : tags.nextPtr = s.nextPtr

/-- The table in memory has the associations of `tags`. -/
def Represents (hashFcn : U32 → ℕ → ℕ) (s : TagMemory) (tags : Tags) : Prop :=
  ∃ xs chain, RepresentedBy hashFcn s tags xs chain

section Step

variable {hashFcn : U32 → ℕ → ℕ} {s : TagMemory} {tags : Tags} {xs : List ℕ}
variable {chain : ℕ → List ℕ} {fuel : ℕ} {cmdTag : U32}

/-- Memory outside the table can be written. -/
theorem UtHash.Holds.write {s : UtHash} (h : s.Holds hashFcn xs chain) {ptr : ℕ}
    (outside : ptr ∉ xs) (e : Element) :
    UtHash.Holds hashFcn { s with mem := Function.update s.mem ptr e } xs chain := by
  have same : ∀ b ∈ xs, Function.update s.mem ptr e b = s.mem b := by
    intro b live
    exact Function.update_of_ne (ne_of_mem_of_not_mem live outside) _ _
  have link (kind : UtHashHandle → Option ℕ) : ∀ b ∈ xs,
      links (Function.update s.mem ptr e) kind b = links s.mem kind b := by
    intro b live
    rw [links, same b live, links]
  refine ⟨h.nodup, h.head, h.linked.congr (link _) (link _), h.empty, fun some => ?_⟩
  obtain ⟨tbl, allocated, table⟩ := h.table some
  refine ⟨tbl, allocated, ⟨⟨table.nodup, fun i => ?_, fun i a => ?_⟩, table.tail,
    table.numItems, table.numBuckets⟩⟩
  · exact (table.bucket i).congr (fun b inside => link _ b (h.live inside))
      fun b inside => link _ b (h.live inside)
  · rw [table.mem_chain]
    refine and_congr_right fun live => ?_
    show _ ↔ hashFcn (Function.update s.mem ptr e a).cmdTag _ = i
    rw [same a live]

theorem RepresentedBy.length (h : RepresentedBy hashFcn s tags xs chain) :
    xs.length = tags.table.length := by
  rw [h.table, List.length_map]

theorem RepresentedBy.tie (h : RepresentedBy hashFcn s tags xs chain)
    (below : ∀ key n, 0 < n → hashFcn key n < n) (enough : tags.table.length < fuel)
    (cmdTag : U32) (socket now : ℤ) :
    ∃ t, s.call hashFcn fuel (.tie cmdTag socket now) = some t ∧
      Represents hashFcn t (tieTag2Socket tags cmdTag socket now) := by
  have new : s.nextPtr ∉ xs := fun live => Nat.lt_irrefl _ (h.below _ live)
  obtain ⟨t, chain', added, holds, data⟩ := hashAddInt_spec below
    (h.holds.write new { cmdTag := cmdTag, socket := socket, time := now }) new
    (h.length ▸ enough)
  refine ⟨{ hash := t, nextPtr := s.nextPtr + 1 }, ?_, xs ++ [s.nextPtr], chain', holds,
    ?_, ?_, congrArg (· + 1) h.nextPtr⟩
  · exact congrArg (Option.map _) added
  · show tags.table ++ [_] = (xs ++ [s.nextPtr]).map (assoc t.mem)
    rw [data, List.map_append, h.table, h.nextPtr]
    refine congrArg₂ _ (List.map_congr_left fun a live => ?_) ?_
    · have other : a ≠ s.nextPtr := Nat.ne_of_lt (h.below a live)
      simp [assoc, other]
    · simp [assoc]
  · intro a live
    rcases List.mem_append.mp live with old | last
    · exact Nat.lt_succ_of_lt (h.below a old)
    · rw [List.mem_singleton.mp last]
      exact Nat.lt_succ_self _

/-- What `HASH_FIND_INT` finds: some association with the tag, or none. -/
theorem RepresentedBy.hashFind (h : RepresentedBy hashFcn s tags xs chain)
    (enough : tags.table.length < fuel) (cmdTag : U32) :
    ∃ found, hashFind hashFcn fuel s.hash cmdTag = some found ∧ (∀ a ∈ found, a ∈ xs) ∧
      Finds Assoc2Socket.cmdTag tags.table cmdTag (found.map (assoc s.hash.mem)) := by
  obtain ⟨i, search, inside⟩ :=
    h.holds.hashFind cmdTag (h.length ▸ Nat.le_of_lt enough)
  refine ⟨_, search, fun a found => h.holds.live (List.mem_of_find?_eq_some found), ?_⟩
  rw [h.table]
  cases found : (chain i).find? fun b => decide ((s.hash.mem b).cmdTag = cmdTag) with
  | none =>
      intro a mem same
      obtain ⟨b, live, rfl⟩ := List.mem_map.mp mem
      have misses := List.find?_eq_none.mp found b (inside b live same)
      exact misses (decide_eq_true same)
  | some a =>
      have hit := List.find?_some found
      have live := h.holds.live (List.mem_of_find?_eq_some found)
      exact ⟨List.mem_map_of_mem live, of_decide_eq_true hit⟩

theorem RepresentedBy.hashDelete (h : RepresentedBy hashFcn s tags xs chain) {a : ℕ}
    (live : a ∈ xs) :
    ∃ t, hashDelete hashFcn s.hash a = some t ∧ Represents hashFcn { s with hash := t }
      { tags with table := hashDel tags.table (assoc s.hash.mem a) } := by
  obtain ⟨t, deleted, holds, data, -⟩ := h.holds.delete live
  refine ⟨t, deleted, _, _, holds, ?_, fun b later => h.below b (List.mem_filter.mp later).1,
    h.nextPtr⟩
  show hashDel tags.table (assoc s.hash.mem a) = (without a xs).map (assoc t.mem)
  rw [data, hashDel, h.table, List.filter_map]
  rfl

theorem RepresentedBy.removed (h : RepresentedBy hashFcn s tags xs chain)
    (enough : tags.table.length < fuel) (p : Assoc2Socket → Bool) :
    ∃ t, deleteLoop hashFcn p fuel s.hash.head s.hash = some t ∧
      Represents hashFcn { s with hash := t }
        { tags with table := deleteWalk p tags.table tags.table } := by
  obtain ⟨t, loop, removed⟩ := h.holds.removed p (h.length ▸ enough)
  refine ⟨t, loop, _, _, removed.holds, ?_,
    fun b later => h.below b (List.mem_filter.mp later).1, h.nextPtr⟩
  show deleteWalk p tags.table tags.table = _
  rw [h.table]
  exact removed.table_eq.symm

/-! ## Each call does what it does to the list -/

/-- The search that finds `found` in `table`. -/
def findThere (table : List Assoc2Socket) (cmdTag : U32) (found : Option Assoc2Socket) : Find :=
  fun table' cmdTag' =>
    if table' = table ∧ cmdTag' = cmdTag then found else findNewest table' cmdTag'

theorem findThere_findsLive {table : List Assoc2Socket} {found : Option Assoc2Socket}
    (h : Finds Assoc2Socket.cmdTag table cmdTag found) :
    FindsLive (findThere table cmdTag found) := by
  intro table' cmdTag'
  unfold findThere
  split
  · rename_i same
    rw [same.1, same.2]
    exact h
  · exact findNewest_findsLive table' cmdTag'

theorem findThere_self (table : List Assoc2Socket) (cmdTag : U32) (found : Option Assoc2Socket) :
    findThere table cmdTag found table cmdTag = found :=
  if_pos ⟨rfl, rfl⟩

/-- A call on the memory: with a search that finds live associations, either both the
memory and the list meet `NULL`, or both go on and still correspond. -/
theorem Represents.call (h : Represents hashFcn s tags)
    (below : ∀ key n, 0 < n → hashFcn key n < n) (enough : tags.table.length < fuel)
    (call : TagCall) :
    ∃ find, FindsLive find ∧
      ((s.call hashFcn fuel call = none ∧ tags.call find call = none) ∨
        ∃ t tags', s.call hashFcn fuel call = some t ∧ tags.call find call = some tags' ∧
          Represents hashFcn t tags') := by
  obtain ⟨xs, chain, h⟩ := h
  cases call with
  | tie cmdTag socket now =>
      obtain ⟨t, run, represents⟩ := h.tie below enough cmdTag socket now
      exact ⟨findNewest, findNewest_findsLive, .inr ⟨t, _, run, rfl, represents⟩⟩
  | deleteSocket socket =>
      obtain ⟨t, run, represents⟩ := h.removed enough fun a => socket = a.socket
      exact ⟨findNewest, findNewest_findsLive,
        .inr ⟨_, _, congrArg (Option.map _) run, rfl, represents⟩⟩
  | purge now =>
      obtain ⟨t, run, represents⟩ := h.removed enough fun a => a.time + timeoutCmdTag ≤ now
      exact ⟨findNewest, findNewest_findsLive,
        .inr ⟨_, _, congrArg (Option.map _) run, rfl, represents⟩⟩
  | untie cmdTag =>
      obtain ⟨found, search, inside, finds⟩ := h.hashFind enough cmdTag
      have there := findThere_self tags.table cmdTag (found.map (assoc s.hash.mem))
      refine ⟨_, findThere_findsLive finds, ?_⟩
      simp only [TagMemory.call, UtHash.untieTag2Socket, Tags.call, untieTag2Socket, search, there]
      cases found with
      | none => exact .inl ⟨rfl, rfl⟩
      | some a =>
          obtain ⟨t, deleted, represents⟩ := h.hashDelete (inside a rfl)
          exact .inr ⟨_, _, congrArg (Option.map _) deleted, rfl, represents⟩
  | deleteMulti cmdTag oldTime now =>
      obtain ⟨found, search, inside, finds⟩ := h.hashFind enough cmdTag
      have there := findThere_self tags.table cmdTag (found.map (assoc s.hash.mem))
      refine ⟨_, findThere_findsLive finds, .inr ?_⟩
      simp only [TagMemory.call, UtHash.deleteMultiCmdTag, Tags.call, deleteMultiCmdTag, search,
        there]
      by_cases old : oldTime + timeoutCmdTag ≤ now
      · rw [if_pos old, if_pos old]
        cases found with
        | none => exact ⟨_, _, rfl, rfl, xs, chain, h⟩
        | some a =>
            obtain ⟨t, deleted, represents⟩ := h.hashDelete (inside a rfl)
            exact ⟨_, _, congrArg (Option.map _) deleted, rfl, represents⟩
      · rw [if_neg old, if_neg old]
        exact ⟨_, _, rfl, rfl, xs, chain, h⟩

/-! ## Runs -/

/-- The memory before the first call, in which nothing has been written yet. -/
def TagMemory.start : TagMemory where
  hash := { mem := fun _ => { cmdTag := 0, socket := 0, time := 0 } }

theorem RepresentedBy.start : RepresentedBy hashFcn .start {} [] fun _ => [] where
  holds := ⟨.nil, rfl, .nil, fun _ => ⟨rfl, fun _ => rfl⟩, fun some => absurd rfl some⟩
  table := rfl
  below := nofun
  nextPtr := rfl

/-- There are at most as many associations as have been allocated. -/
theorem RepresentedBy.length_le (h : RepresentedBy hashFcn s tags xs chain) :
    xs.length ≤ s.nextPtr := by
  have inside : xs ⊆ List.range s.nextPtr := fun a live => List.mem_range.mpr (h.below a live)
  have short := (List.subperm_of_subset h.holds.nodup inside).length_le
  rwa [List.length_range] at short

/-- The next state, where every loop may visit each association once. -/
def TagMemory.step (hashFcn : U32 → ℕ → ℕ) (s : TagMemory) (call : TagCall) : Option TagMemory :=
  s.call hashFcn (s.nextPtr + 1) call

theorem Represents.step (below : ∀ key n, 0 < n → hashFcn key n < n) {t : TagMemory}
    {call : TagCall} (h : Represents hashFcn s tags) (taken : s.step hashFcn call = some t) :
    ∃ tags', Represents hashFcn t tags' := by
  have enough : tags.table.length < s.nextPtr + 1 := by
    obtain ⟨xs, chain, by_xs⟩ := h
    exact by_xs.length ▸ Nat.lt_succ_of_le by_xs.length_le
  obtain ⟨find, -, ⟨fails, -⟩ | ⟨t', tags', run, -, represents⟩⟩ := h.call below enough call
  · rw [TagMemory.step, fails] at taken
    cases taken
  · rw [TagMemory.step, run] at taken
    cases taken
    exact ⟨tags', represents⟩

/-- In every state of every run, the table in memory has the elements of a list, linked as
the macros link them, and deleting while iterating is exact. -/
theorem TagMemory.throughout_removed (below : ∀ key n, 0 < n → hashFcn key n < n)
    (calls : List TagCall) :
    Throughout (TagMemory.step hashFcn)
      (fun s => ∃ xs chain, s.hash.Holds hashFcn xs chain ∧
        ∀ p, ∃ t, deleteLoop hashFcn p (s.nextPtr + 1) s.hash.head s.hash = some t ∧
          Removed hashFcn p s.hash xs chain t) .start calls := by
  refine throughout_of_keeps (I := fun s => ∃ tags, Represents hashFcn s tags) ?_ ?_
    ⟨{}, _, _, .start⟩ calls
  · rintro s call t ⟨tags, h⟩ taken
    exact h.step below taken
  · rintro s ⟨tags, xs, chain, h⟩
    exact ⟨xs, chain, h.holds, fun p => h.holds.removed p (Nat.lt_succ_of_le h.length_le)⟩

/-- **Deleting while iterating.**  From every table, `delete_tags_assocs_to_socket` removes
exactly the associations to the socket, and `purge_hash` exactly those that have timed
out. -/
theorem UtHash.Holds.deletes_exactly {s : UtHash} (h : s.Holds hashFcn xs chain)
    (enough : xs.length < fuel) :
    (∀ socket, ∃ t, s.deleteTagsAssocsToSocket hashFcn fuel socket = some t ∧
      Removed hashFcn (fun a => socket = a.socket) s xs chain t) ∧
    ∀ now, ∃ t, s.purgeHash hashFcn fuel now = some t ∧
      Removed hashFcn (fun a => a.time + timeoutCmdTag ≤ now) s xs chain t :=
  ⟨fun _ => h.removed _ enough, fun _ => h.removed _ enough⟩

/-- A table of two associations, with a hash function that keeps the low bits. -/
theorem deletes_exactly_twoTags :
    ∃ s xs chain, exec (TagMemory.step fun key n => key.toNat % n) .start
        [.tie 5 3 0, .tie 37 3 1] = some s ∧ xs.length = 2 ∧
      (∀ socket, ∃ t, s.hash.deleteTagsAssocsToSocket (fun key n => key.toNat % n) 3 socket
          = some t ∧ Removed (fun key n => key.toNat % n) (fun a => socket = a.socket) s.hash xs
            chain t) ∧
      ∀ now, ∃ t, s.hash.purgeHash (fun key n => key.toNat % n) 3 now = some t ∧
        Removed (fun key n => key.toNat % n) (fun a => a.time + timeoutCmdTag ≤ now) s.hash xs
          chain t := by
  have below : ∀ (key : U32) (n : ℕ), 0 < n → key.toNat % n < n := fun _ _ => Nat.mod_lt _
  have start : RepresentedBy (fun key n => key.toNat % n) .start {} [] fun _ => [] := .start
  obtain ⟨s, first, xs, chain, one⟩ := start.tie below Nat.one_pos 5 3 0
  obtain ⟨t, second, ys, chain', two⟩ := one.tie below (Nat.lt_succ_self 1) 37 3 1
  have next : s.nextPtr = 1 := one.nextPtr.symm
  refine ⟨t, ys, chain', ?_, two.length,
    two.holds.deletes_exactly (two.length ▸ Nat.lt_succ_self 2)⟩
  have step₁ : TagMemory.step (fun key n => key.toNat % n) .start (.tie 5 3 0) = some s := first
  have step₂ : TagMemory.step (fun key n => key.toNat % n) s (.tie 37 3 1) = some t := by
    rw [TagMemory.step, next]
    exact second
  rw [exec_cons, step₁, Option.bind_some, exec_cons, step₂, Option.bind_some, exec_nil]

end Step

end Cjunk.Hash
