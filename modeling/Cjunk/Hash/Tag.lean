import Mathlib.Data.Int.Notation
import Cjunk.Lib.KeyedTable
import Cjunk.Lib.Words

/-!
# Command tags and sockets

`hash/tag.c` remembers which socket a command came from, so that the reply can be sent
there: a table of associations from command tags to sockets, on top of `uthash`.

Of `uthash` the model uses what its macros are for.  `HASH_ADD_INT` appends an element
in the order that iteration follows, `HASH_DEL` unlinks the element it is given and
leaves that element's own `hh.next` alone, and `HASH_FIND_INT` is a parameter `find`:
some live element with the key, or `NULL` if there is none (`FindsLive`).  The keys are
the 32 bits that `HASH_ADD_INT` hashes.

`malloc` does not fail, and an element that was deleted is not freed: each tie gets an
address of its own.
-/

namespace Cjunk.Hash

open KeyedTable

/-- `TIMEOUT_CMD_TAG`, in seconds. -/
def timeoutCmdTag : ℤ := 10

/-- `struct assoc_2_socket`, with the address it is allocated at. -/
structure Assoc2Socket where
  ptr : ℕ
  cmdTag : U32
  socket : ℤ
  time : ℤ
  deriving DecidableEq

/-- The hash table that `ptr_2_hash` heads, and the next address of `malloc`. -/
structure Tags where
  table : List Assoc2Socket := []
  nextPtr : ℕ := 0

/-- `HASH_DEL`. -/
def hashDel (table : List Assoc2Socket) (s : Assoc2Socket) : List Assoc2Socket :=
  table.filter fun a => a.ptr ≠ s.ptr

/-- A `HASH_FIND_INT`. -/
abbrev Find := List Assoc2Socket → U32 → Option Assoc2Socket

/-- It returns some live element whose key matches, or `NULL` if there is none. -/
def FindsLive (find : Find) : Prop :=
  ∀ table cmdTag, Finds Assoc2Socket.cmdTag table cmdTag (find table cmdTag)

/-- `tie_tag_2_socket`, at time `now`. -/
def tieTag2Socket (s : Tags) (cmdTag : U32) (socket now : ℤ) : Tags :=
  { table := s.table ++ [{ ptr := s.nextPtr, cmdTag := cmdTag, socket := socket, time := now }]
    nextPtr := s.nextPtr + 1 }

/-- The loop `for (s = ptr_2_hash; s != NULL; s = s->hh.next)` that deletes the elements
`p` holds of, with the elements from `s` on still to visit.  A deleted element keeps its
`hh.next`, so the loop goes on with the element that followed it. -/
def deleteWalk (p : Assoc2Socket → Bool) :
    List Assoc2Socket → List Assoc2Socket → List Assoc2Socket
  | [], table => table
  | s :: rest, table => deleteWalk p rest (if p s then hashDel table s else table)

/-- `delete_tags_assocs_to_socket`. -/
def deleteTagsAssocsToSocket (s : Tags) (socket : ℤ) : Tags :=
  { s with table := deleteWalk (fun a => socket = a.socket) s.table s.table }

/-- `purge_hash`, at time `now`. -/
def purgeHash (s : Tags) (now : ℤ) : Tags :=
  { s with table := deleteWalk (fun a => a.time + timeoutCmdTag ≤ now) s.table s.table }

section Find

variable (find : Find)

/-- `get_socket_in_hash`. -/
def getSocketInHash (s : Tags) (cmdTag : U32) : ℤ :=
  match find s.table cmdTag with
  | none => 0
  | some a => a.socket

/-- `untie_tag_2_socket`; `none` where it passes `NULL` to `HASH_DEL`, which dereferences
it. -/
def untieTag2Socket (s : Tags) (cmdTag : U32) : Option Tags :=
  match find s.table cmdTag with
  | none => none
  | some a => some { s with table := hashDel s.table a }

/-- `delete_multi_cmd_tag`, at time `now`. -/
def deleteMultiCmdTag (s : Tags) (cmdTag : U32) (oldTime now : ℤ) : Tags :=
  if oldTime + timeoutCmdTag ≤ now then
    match find s.table cmdTag with
    | none => s
    | some a => { s with table := hashDel s.table a }
  else s

end Find

/-! ## Deleting -/

/-- Addresses are unique, and below the next one of `malloc`. -/
structure Tags.Allocated (s : Tags) : Prop where
  unique : ∀ a ∈ s.table, ∀ b ∈ s.table, a.ptr = b.ptr → a = b
  below : ∀ a ∈ s.table, a.ptr < s.nextPtr

theorem Tags.Allocated.sublist {s : Tags} (h : s.Allocated) {table : List Assoc2Socket}
    (sub : ∀ a ∈ table, a ∈ s.table) : Tags.Allocated { s with table := table } :=
  ⟨fun a ha b hb => h.unique a (sub a ha) b (sub b hb), fun a ha => h.below a (sub a ha)⟩

theorem Tags.Allocated.tie {s : Tags} (h : s.Allocated) (cmdTag : U32) (socket now : ℤ) :
    (tieTag2Socket s cmdTag socket now).Allocated := by
  have last : ∀ a ∈ (tieTag2Socket s cmdTag socket now).table,
      a ∈ s.table ∨ a = ⟨s.nextPtr, cmdTag, socket, now⟩ := by
    intro a live
    exact (List.mem_append.mp live).imp_right List.mem_singleton.mp
  constructor
  · intro a ha b hb same
    rcases last a ha with old | rfl <;> rcases last b hb with old' | rfl
    · exact h.unique a old b old' same
    · exact absurd same (Nat.ne_of_lt (h.below a old))
    · exact absurd same.symm (Nat.ne_of_lt (h.below b old'))
    · rfl
  · intro a ha
    rcases last a ha with old | rfl
    · exact Nat.lt_succ_of_lt (h.below a old)
    · exact Nat.lt_succ_self s.nextPtr

/-- Deleting an element removes that element and nothing else. -/
theorem hashDel_eq {table : List Assoc2Socket} {s : Assoc2Socket}
    (unique : ∀ a ∈ table, a.ptr = s.ptr → a = s) :
    hashDel table s = table.filter fun a => a ≠ s := by
  refine List.filter_congr fun a live => ?_
  rw [decide_eq_decide]
  exact not_congr ⟨unique a live, congrArg Assoc2Socket.ptr⟩

/-- The walk deletes the elements it visits for which `p` holds. -/
theorem deleteWalk_eq_filter (p : Assoc2Socket → Bool) (visit table : List Assoc2Socket)
    (unique : ∀ a ∈ table, ∀ b ∈ visit, a.ptr = b.ptr → a = b) :
    deleteWalk p visit table = table.filter fun a => !(p a && decide (a ∈ visit)) := by
  induction visit generalizing table with
  | nil => simp [deleteWalk]
  | cons s rest ih =>
      have same : ∀ a ∈ table, a.ptr = s.ptr → a = s :=
        fun a live => unique a live s List.mem_cons_self
      have later : ∀ a ∈ table, ∀ b ∈ rest, a.ptr = b.ptr → a = b :=
        fun a live b visited => unique a live b (List.mem_cons_of_mem s visited)
      rw [deleteWalk]
      cases hit : p s with
      | true =>
          rw [if_pos rfl, hashDel_eq same, ih _ fun a live => later a (List.mem_filter.mp live).1,
            List.filter_filter]
          refine List.filter_congr fun a _ => ?_
          by_cases here : a = s
          · simp [here, hit]
          · simp [here]
      | false =>
          rw [if_neg Bool.false_ne_true, ih table later]
          refine List.filter_congr fun a _ => ?_
          by_cases here : a = s
          · simp [here, hit]
          · simp [here]

/-- Walking the whole table deletes exactly the elements for which `p` holds. -/
theorem Tags.Allocated.deleteWalk {s : Tags} (h : s.Allocated) (p : Assoc2Socket → Bool) :
    deleteWalk p s.table s.table = s.table.filter fun a => !p a := by
  rw [deleteWalk_eq_filter p s.table s.table h.unique]
  refine List.filter_congr fun a live => ?_
  rw [decide_eq_true live, Bool.and_true]

end Cjunk.Hash
