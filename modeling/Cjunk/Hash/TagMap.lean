import Cjunk.Hash.Tag
import Cjunk.Lib.Run

/-!
# The tag table as a map

Seen from outside, the table should be a partial map from tags to sockets: a tie sets the
socket of a tag, an untie and the clean-up calls remove it.  `Trace` runs that map next to
the table.

The table follows the map as long as no tag is tied while it has a live association, since
`tie_tag_2_socket` adds an element without looking for one, and no tag is untied without
one, since `untie_tag_2_socket` hands whatever it found to `HASH_DEL`.  `isTagMap_iff`
says that this is exactly when it does.
-/

namespace Cjunk.Hash

open KeyedTable Run

/-- The calls into `tag.c`, with the time at which they are made. -/
inductive TagCall where
  | tie (cmdTag : U32) (socket now : ℤ)
  | untie (cmdTag : U32)
  | deleteSocket (socket : ℤ)
  | purge (now : ℤ)
  | deleteMulti (cmdTag : U32) (oldTime now : ℤ)

/-- The map that the calls describe: the socket of a tag and when it was tied. -/
abbrev TagMap := U32 → Option (ℤ × ℤ)

def TagMap.call (m : TagMap) : TagCall → TagMap
  | .tie cmdTag socket now => Function.update m cmdTag (some (socket, now))
  | .untie cmdTag => Function.update m cmdTag none
  | .deleteSocket socket => fun t => (m t).filter fun v => !decide (socket = v.1)
  | .purge now => fun t => (m t).filter fun v => !decide (v.2 + timeoutCmdTag ≤ now)
  | .deleteMulti cmdTag oldTime now =>
      if oldTime + timeoutCmdTag ≤ now then Function.update m cmdTag none else m

/-- A run of the program so far, and the map it should have computed. -/
structure Trace where
  tags : Tags := {}
  /-- A null pointer was dereferenced. -/
  crashed : Bool := false
  map : TagMap := fun _ => none

section Calls

variable (find : Find)

/-- What a call does to the table. -/
def Tags.call (s : Tags) : TagCall → Option Tags
  | .tie cmdTag socket now => some (tieTag2Socket s cmdTag socket now)
  | .untie cmdTag => untieTag2Socket find s cmdTag
  | .deleteSocket socket => some (deleteTagsAssocsToSocket s socket)
  | .purge now => some (purgeHash s now)
  | .deleteMulti cmdTag oldTime now => some (deleteMultiCmdTag find s cmdTag oldTime now)

def Trace.step (s : Trace) (call : TagCall) : Option Trace :=
  if s.crashed then none
  else
    match s.tags.call find call with
    | some tags => some { s with tags := tags, map := s.map.call call }
    | none => some { s with crashed := true }

/-- The table is a map, and it is the right one: nothing crashed, no tag has two live
associations, and every lookup returns the socket of the last tie that was not removed,
and 0 if there is none. -/
def IsTagMap (s : Trace) : Prop :=
  s.crashed = false ∧ (s.tags.table.map Assoc2Socket.cmdTag).Nodup ∧
    ∀ t, getSocketInHash find s.tags t = ((s.map t).map Prod.fst).getD 0

/-- A tag is tied only without a live association, and untied only with one. -/
def TagsPaired (s : Trace) : TagCall → Prop
  | .tie cmdTag _ _ => ∀ a ∈ s.tags.table, a.cmdTag ≠ cmdTag
  | .untie cmdTag => ∃ a ∈ s.tags.table, a.cmdTag = cmdTag
  | .deleteSocket _ | .purge _ | .deleteMulti _ _ _ => True

instance (s : Trace) : (c : TagCall) → Decidable (TagsPaired s c)
  | .tie _ _ _ => inferInstanceAs (Decidable (∀ a ∈ s.tags.table, _))
  | .untie _ => inferInstanceAs (Decidable (∃ a ∈ s.tags.table, _))
  | .deleteSocket _ | .purge _ | .deleteMulti _ _ _ => .isTrue trivial

/-! ## The invariant -/

/-- Socket and time of an association. -/
def Assoc2Socket.value (a : Assoc2Socket) : ℤ × ℤ := (a.socket, a.time)

/-- The table represents the map. -/
structure Follows (s : Trace) : Prop where
  alive : s.crashed = false
  allocated : s.tags.Allocated
  table : Represents Assoc2Socket.cmdTag Assoc2Socket.value s.tags.table s.map

variable {find}

theorem Follows.start : Follows {} :=
  ⟨rfl, ⟨by simp, by simp⟩, .nil⟩

theorem Follows.isTagMap (finds : FindsLive find) {s : Trace} (h : Follows s) :
    IsTagMap find s := by
  refine ⟨h.alive, h.table.unique, fun t => ?_⟩
  have found := h.table.lookup (finds s.tags.table t)
  rw [← found, getSocketInHash]
  cases find s.tags.table t with
  | none => rfl
  | some a => rfl

/-- Deleting the association that was found removes the tag. -/
theorem Follows.hashDel {s : Trace} (h : Follows s) {cmdTag : U32} {a : Assoc2Socket}
    (live : a ∈ s.tags.table) (tag : a.cmdTag = cmdTag) :
    Represents Assoc2Socket.cmdTag Assoc2Socket.value (hashDel s.tags.table a)
      (Function.update s.map cmdTag none) := by
  have same : Hash.hashDel s.tags.table a =
      s.tags.table.filter fun b => b.cmdTag ≠ cmdTag := by
    rw [hashDel_eq fun b liveb => h.allocated.unique b liveb a live]
    refine List.filter_congr fun b liveb => ?_
    rw [decide_eq_decide]
    refine not_congr ⟨fun same => same ▸ tag, fun same => ?_⟩
    exact h.table.eq_of_key liveb live (same.trans tag.symm)
  rw [same]
  exact h.table.erase cmdTag

/-- Removing the tags whose values pass a test, by a walk through the table. -/
theorem Follows.walk {s : Trace} (h : Follows s) (p : ℤ × ℤ → Bool) :
    Represents Assoc2Socket.cmdTag Assoc2Socket.value
      (deleteWalk (fun a => p a.value) s.tags.table s.tags.table)
      (fun t => (s.map t).filter fun v => !p v) := by
  rw [h.allocated.deleteWalk]
  exact h.table.filter fun v => !p v

theorem mem_of_mem_filter {p : Assoc2Socket → Bool} {table : List Assoc2Socket} :
    ∀ a ∈ table.filter p, a ∈ table := fun _ h => (List.mem_filter.mp h).1

theorem Follows.step (finds : FindsLive find) {s t : Trace} {call : TagCall}
    (h : Follows s) (ok : TagsPaired s call) (taken : s.step find call = some t) :
    Follows t := by
  unfold Trace.step at taken
  rw [h.alive, if_neg Bool.false_ne_true] at taken
  cases call with
  | tie cmdTag socket now =>
      cases taken
      exact ⟨rfl, h.allocated.tie cmdTag socket now,
        h.table.push (a := ⟨s.tags.nextPtr, cmdTag, socket, now⟩) ok⟩
  | untie cmdTag =>
      obtain ⟨b, live, tag⟩ := ok
      have found := finds s.tags.table cmdTag
      dsimp only [Tags.call, untieTag2Socket] at taken
      cases search : find s.tags.table cmdTag with
      | none =>
          rw [search] at found
          exact absurd tag (found b live)
      | some a =>
          rw [search] at found taken
          cases taken
          exact ⟨rfl, h.allocated.sublist mem_of_mem_filter, h.hashDel found.1 found.2⟩
  | deleteSocket socket =>
      cases taken
      refine ⟨rfl, ?_, h.walk fun v => decide (socket = v.1)⟩
      apply h.allocated.sublist
      rw [h.allocated.deleteWalk]
      exact mem_of_mem_filter
  | purge now =>
      cases taken
      refine ⟨rfl, ?_, h.walk fun v => decide (v.2 + timeoutCmdTag ≤ now)⟩
      apply h.allocated.sublist
      rw [h.allocated.deleteWalk]
      exact mem_of_mem_filter
  | deleteMulti cmdTag oldTime now =>
      have found := finds s.tags.table cmdTag
      dsimp only [Tags.call, deleteMultiCmdTag, TagMap.call] at taken
      by_cases old : oldTime + timeoutCmdTag ≤ now
      · rw [if_pos old, if_pos old] at taken
        cases search : find s.tags.table cmdTag with
        | none =>
            rw [search] at found taken
            cases taken
            -- there is nothing to remove, and the map has no such tag either
            have absent : Function.update s.map cmdTag none = s.map := by
              rw [Function.update_eq_self_iff]
              have nothing : Finds Assoc2Socket.cmdTag s.tags.table cmdTag none := found
              exact h.table.lookup nothing
            exact ⟨rfl, h.allocated, absent.symm ▸ h.table⟩
        | some a =>
            rw [search] at found taken
            cases taken
            exact ⟨rfl, h.allocated.sublist mem_of_mem_filter, h.hashDel found.1 found.2⟩
      · rw [if_neg old, if_neg old] at taken
        cases taken
        exact ⟨rfl, h.allocated, h.table⟩

/-- A call that leaves the table a map was paired. -/
theorem Follows.tagsPaired (finds : FindsLive find) {s t : Trace} {call : TagCall}
    (h : Follows s) (taken : s.step find call = some t) (after : IsTagMap find t) :
    TagsPaired s call := by
  unfold Trace.step at taken
  rw [h.alive, if_neg Bool.false_ne_true] at taken
  cases call with
  | tie cmdTag socket now =>
      cases taken
      intro a live same
      have unique : ((s.tags.table ++ [_]).map Assoc2Socket.cmdTag).Nodup := after.2.1
      rw [List.map_append, List.nodup_append] at unique
      exact unique.2.2 _ (List.mem_map_of_mem live) _ (List.mem_singleton_self _) same
  | untie cmdTag =>
      have found := finds s.tags.table cmdTag
      dsimp only [Tags.call, untieTag2Socket] at taken
      cases search : find s.tags.table cmdTag with
      | none =>
          rw [search] at taken
          cases taken
          exact absurd after.1 (Bool.false_ne_true ∘ Eq.symm)
      | some a =>
          rw [search] at found
          exact ⟨a, found⟩
  | deleteSocket socket => trivial
  | purge now => trivial
  | deleteMulti cmdTag oldTime now => trivial

/-- **The tag table as a map.**  In every run from the empty table, the table is the map
that the calls describe throughout the run exactly if every tie is of a tag without a live
association and every untie of a tag with one. -/
theorem isTagMap_iff (finds : FindsLive find) (calls : List TagCall) :
    Throughout (Trace.step find) (IsTagMap find) {} calls ↔
      Meets (Trace.step find) TagsPaired {} calls :=
  throughout_iff_meets (I := Follows) (fun _ h => h.isTagMap finds)
    (fun _ _ _ h ok taken => h.step finds ok taken)
    (fun _ _ _ h taken after => h.tagsPaired finds taken after) .start

/-! ## Untying -/

/-- An untie is of a tag that has a live association. -/
def UntiesLive (s : Trace) : TagCall → Prop
  | .untie cmdTag => ∃ a ∈ s.tags.table, a.cmdTag = cmdTag
  | .tie _ _ _ | .deleteSocket _ | .purge _ | .deleteMulti _ _ _ => True

/-- Without a live association the search finds `NULL`, and `HASH_DEL` dereferences it. -/
theorem untieTag2Socket_eq_none_iff (finds : FindsLive find) (s : Tags) (cmdTag : U32) :
    untieTag2Socket find s cmdTag = none ↔ ∀ a ∈ s.table, a.cmdTag ≠ cmdTag := by
  have found := finds s.table cmdTag
  unfold untieTag2Socket
  cases search : find s.table cmdTag with
  | none =>
      rw [search] at found
      exact iff_of_true rfl found
  | some a =>
      rw [search] at found
      refine iff_of_false nofun fun absent => ?_
      exact absent a found.1 found.2

theorem call_eq_none_iff (finds : FindsLive find) (s : Trace) (call : TagCall) :
    s.tags.call find call = none ↔ ¬ UntiesLive s call := by
  cases call with
  | untie cmdTag =>
      show untieTag2Socket find s.tags cmdTag = none ↔
        ¬ ∃ a ∈ s.tags.table, a.cmdTag = cmdTag
      rw [untieTag2Socket_eq_none_iff finds]
      simp
  | tie cmdTag socket now => exact iff_of_false nofun fun h => h trivial
  | deleteSocket socket => exact iff_of_false nofun fun h => h trivial
  | purge now => exact iff_of_false nofun fun h => h trivial
  | deleteMulti cmdTag oldTime now => exact iff_of_false nofun fun h => h trivial

theorem step_crashed_iff (finds : FindsLive find) {s t : Trace} {call : TagCall}
    (taken : s.step find call = some t) : t.crashed = false ↔ UntiesLive s call := by
  have fails := call_eq_none_iff finds s call
  unfold Trace.step at taken
  split at taken
  · cases taken
  · rename_i alive
    cases result : s.tags.call find call with
    | none =>
        rw [result] at taken fails
        cases taken
        exact iff_of_false nofun (fails.mp rfl)
    | some tags =>
        rw [result] at taken fails
        cases taken
        refine iff_of_true (Bool.eq_false_iff.mpr alive) ?_
        by_contra dead
        exact absurd (fails.mpr dead) nofun

/-- A run passes no `NULL` to `HASH_DEL` if and only if every untie is of a tag that has a
live association; in every state of every run, an untie of any other tag does pass one. -/
theorem untie_safe_iff (finds : FindsLive find) (calls : List TagCall) :
    (Throughout (Trace.step find) (fun s => s.crashed = false) {} calls ↔
        Meets (Trace.step find) UntiesLive {} calls) ∧
      Throughout (Trace.step find)
        (fun s => ∀ cmdTag, (∀ a ∈ s.tags.table, a.cmdTag ≠ cmdTag) →
          untieTag2Socket find s.tags cmdTag = none) {} calls := by
  constructor
  · have start : Trace.crashed {} = false := rfl
    exact throughout_iff_meets (I := fun s => s.crashed = false) (fun _ h => h)
      (fun _ _ _ _ ok taken => (step_crashed_iff finds taken).mpr ok)
      (fun _ _ _ _ taken after => (step_crashed_iff finds taken).mp after) start
  · -- no invariant is needed: the search is right for every table
    exact throughout_of_keeps (I := fun _ => True) (fun _ _ _ _ _ => trivial)
      (fun s _ cmdTag => (untieTag2Socket_eq_none_iff finds s.tags cmdTag).mpr) trivial calls

end Calls

/-! ## The search of the vendored macros -/

/-- `HASH_FIND_INT` meets the newest element of a bucket first. -/
def findNewest : Find := fun table cmdTag => table.reverse.find? fun a => a.cmdTag = cmdTag

theorem findNewest_findsLive : FindsLive findNewest := by
  intro table cmdTag
  unfold Finds
  cases search : findNewest table cmdTag with
  | none =>
      intro a live same
      have misses := List.find?_eq_none.mp search a (List.mem_reverse.mpr live)
      exact misses (decide_eq_true same)
  | some a =>
      have hit := List.find?_some search
      exact ⟨List.mem_reverse.mp (List.mem_of_find?_eq_some search), of_decide_eq_true hit⟩

/-- The tag 5 is purged after ten seconds, and its reply arrives after that. -/
theorem late_reply_crashes :
    ¬ ∀ calls, Throughout (Trace.step findNewest) (fun s => s.crashed = false) {} calls := by
  intro safe
  have run := safe [.tie 5 3 0, .purge 10, .untie 5]
  exact absurd run (by decide +kernel)

theorem untie_safe_iff_sample :
    (Throughout (Trace.step findNewest) (fun s => s.crashed = false) {}
          [.tie 5 3 0, .untie 5, .purge 10] ↔
        Meets (Trace.step findNewest) UntiesLive {} [.tie 5 3 0, .untie 5, .purge 10]) ∧
      Throughout (Trace.step findNewest)
        (fun s => ∀ cmdTag, (∀ a ∈ s.tags.table, a.cmdTag ≠ cmdTag) →
          untieTag2Socket findNewest s.tags cmdTag = none) {} [.tie 5 3 0, .untie 5, .purge 10] :=
  untie_safe_iff findNewest_findsLive _

/-- Two tags, one of them untied and tied again. -/
theorem isTagMap_retied :
    Throughout (Trace.step findNewest) (IsTagMap findNewest) {}
      [.tie 5 3 0, .tie 6 4 1, .untie 5, .tie 5 4 2, .deleteSocket 4] :=
  (isTagMap_iff findNewest_findsLive _).mpr (by decide +kernel)

/-- Tag 5 is tied to socket 3 and then to socket 4.  After `untie_tag_2_socket(5)` the
older association is back, and a reply would go to socket 3. -/
theorem shadowed_tag_resurfaces :
    ¬ Throughout (Trace.step findNewest) (IsTagMap findNewest) {}
        [.tie 5 3 0, .tie 5 4 1, .untie 5] ∧
      (exec (Trace.step findNewest) {} [.tie 5 3 0, .tie 5 4 1, .untie 5]).any fun s =>
        getSocketInHash findNewest s.tags 5 = 3 ∧ s.map 5 = none := by
  refine ⟨fun all => ?_, by decide +kernel⟩
  obtain ⟨-, second⟩ := all
  have unique := (second _ rfl).2 _ rfl |>.head.2.1
  exact absurd unique (by decide +kernel)

end Cjunk.Hash
