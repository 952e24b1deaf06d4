import Cjunk.Hash.Fsck
import Cjunk.Hash.TagMemory

/-!
# Runs of `tag.c` in memory

A run of calls into `tag.c` on the table in memory is a run on the list of associations, whatever
tags are tied twice, and stops just where a tag is untied that has no association.

## Main results

* `tagMemory_refines` — what a run on the memory comes to
-/

namespace Cjunk.Hash

open KeyedTable Run

/-- What calls may make of the list of associations, where each search finds one that is live. -/
inductive Tags.Runs : Tags → List TagCall → Tags → Prop
  | nil (tags : Tags) : Tags.Runs tags [] tags
  | cons {find : Find} {tags tags' tags'' : Tags} {call : TagCall} {calls : List TagCall}
      (finds : FindsLive find) (result : tags.call find call = some tags')
      (rest : Tags.Runs tags' calls tags'') : Tags.Runs tags (call :: calls) tags''

/-- `get_socket_in_hash`. -/
def UtHash.getSocketInHash (hashFcn : U32 → ℕ → ℕ) (fuel : ℕ) (s : UtHash) (cmdTag : U32) :
    Option ℤ := do
  let found ← hashFind hashFcn fuel s cmdTag
  match found with
  | none => return 0
  | some ptr => return (s.mem ptr).socket

/-- Every search of the table in memory finds the socket of a live association, and 0 if there is
none. -/
def Answers (hashFcn : U32 → ℕ → ℕ) (s : TagMemory) (tags : Tags) : Prop :=
  ∀ cmdTag, ∃ found : Option Assoc2Socket,
    Finds Assoc2Socket.cmdTag tags.table cmdTag found ∧
      s.hash.getSocketInHash hashFcn (s.nextPtr + 1) cmdTag =
        some ((found.map Assoc2Socket.socket).getD 0)

section Runs

variable {hashFcn : U32 → ℕ → ℕ} {s t : TagMemory} {tags : Tags} {calls : List TagCall}

theorem Represents.enough (h : Represents hashFcn s tags) :
    tags.table.length < s.nextPtr + 1 := by
  obtain ⟨xs, chain, h⟩ := h
  exact h.length ▸ Nat.lt_succ_of_le h.length_le

theorem Represents.answers (h : Represents hashFcn s tags) : Answers hashFcn s tags := by
  intro cmdTag
  have enough := h.enough
  obtain ⟨xs, chain, h⟩ := h
  obtain ⟨found, search, -, finds⟩ := h.hashFind enough cmdTag
  refine ⟨_, finds, ?_⟩
  rw [UtHash.getSocketInHash, search]
  cases found <;> rfl

theorem Represents.fsck (below : ∀ key n, 0 < n → hashFcn key n < n)
    (h : Represents hashFcn s tags) : hashFsck (s.nextPtr + 1) s.hash = .ok () := by
  obtain ⟨xs, chain, h⟩ := h
  exact h.holds.fsck below (Nat.lt_succ_of_le h.length_le)

/-- What a run comes to: a table that the calls describe, in which every search is answered and
which passes the check, or a call that unties a tag with no association. -/
def RunsTo (hashFcn : U32 → ℕ → ℕ) (tags : Tags) (calls : List TagCall) :
    Option TagMemory → Prop
  | some t => ∃ tags', tags.Runs calls tags' ∧ Represents hashFcn t tags' ∧
      Answers hashFcn t tags' ∧ hashFsck (t.nextPtr + 1) t.hash = .ok ()
  | none => ∃ pre cmdTag post tags', calls = pre ++ .untie cmdTag :: post ∧
      tags.Runs pre tags' ∧ ∀ a ∈ tags'.table, a.cmdTag ≠ cmdTag

theorem Represents.runsTo (below : ∀ key n, 0 < n → hashFcn key n < n)
    (h : Represents hashFcn s tags) (calls : List TagCall) :
    RunsTo hashFcn tags calls (exec (TagMemory.step hashFcn) s calls) := by
  induction calls generalizing s tags with
  | nil => exact ⟨tags, .nil tags, h, h.answers, h.fsck below⟩
  | cons call calls ih =>
      obtain ⟨find, finds, ⟨fails, fails'⟩ | ⟨t, tags', ran, result, represents⟩⟩ :=
        h.call below h.enough call
      · have step : s.step hashFcn call = none := fails
        rw [exec_cons, step, Option.bind_none]
        cases call with
        | untie cmdTag =>
            exact ⟨[], cmdTag, calls, tags, rfl, .nil tags,
              (untieTag2Socket_eq_none_iff finds tags cmdTag).mp fails'⟩
        | tie cmdTag socket now => cases fails'
        | deleteSocket socket => cases fails'
        | purge now => cases fails'
        | deleteMulti cmdTag oldTime now => cases fails'
      · have step : s.step hashFcn call = some t := ran
        rw [exec_cons, step, Option.bind_some]
        have later := ih represents
        revert later
        cases exec (TagMemory.step hashFcn) t calls with
        | none =>
            rintro ⟨pre, cmdTag, post, tags'', rfl, runs, absent⟩
            exact ⟨call :: pre, cmdTag, post, tags'', rfl, .cons finds result runs, absent⟩
        | some u =>
            rintro ⟨tags'', runs, holds⟩
            exact ⟨tags'', .cons finds result runs, holds⟩

/-- **The table of `tag.c`.**  Every run of calls on the memory leaves a table that the calls on
the list of associations describe, and it stops just where a tag is untied that has no
association. -/
theorem tagMemory_refines (below : ∀ key n, 0 < n → hashFcn key n < n) (calls : List TagCall) :
    RunsTo hashFcn {} calls (exec (TagMemory.step hashFcn) .start calls) :=
  Represents.runsTo below ⟨_, _, .start⟩ calls

/-- A tag that is tied twice can be untied twice. -/
theorem tagMemory_refines_tiedTwice :
    RunsTo (fun key n => key.toNat % n) {} [.tie 5 3 0, .tie 5 4 1, .untie 5, .untie 5, .untie 5]
      (exec (TagMemory.step fun key n => key.toNat % n) .start
        [.tie 5 3 0, .tie 5 4 1, .untie 5, .untie 5, .untie 5]) :=
  tagMemory_refines (fun _ _ => Nat.mod_lt _) _

end Runs

end Cjunk.Hash
