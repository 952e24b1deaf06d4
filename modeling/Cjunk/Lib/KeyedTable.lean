import Mathlib.Data.List.Nodup
import Mathlib.Logic.Function.Basic

/-!
# Tables of keyed elements

A table is a list of elements, each with a key and a value.  `Represents` says that
it is a partial map: no key occurs twice, and the elements are the graph of the map.
Appending an element with a new key, filtering by value and removing a key are the
map operations one expects.  A table that represents a map needs no particular
search: any procedure that finds *some* element with the key finds its value
(`Represents.lookup`).
-/

namespace Cjunk.KeyedTable

universe u v w

variable {α : Type u} {κ : Type v} {ν : Type w} {key : α → κ} {val : α → ν}
variable {table : List α} {m : κ → Option ν}

/-- The elements of `table` are the graph of the partial map `m`. -/
structure Represents (key : α → κ) (val : α → ν) (table : List α) (m : κ → Option ν) :
    Prop where
  unique : (table.map key).Nodup
  sound : ∀ a ∈ table, m (key a) = some (val a)
  complete : ∀ k v, m k = some v → ∃ a ∈ table, key a = k ∧ val a = v

/-- A search that returns an element with the key if there is one. -/
def Finds (key : α → κ) (table : List α) (k : κ) (found : Option α) : Prop :=
  match found with
  | some a => a ∈ table ∧ key a = k
  | none => ∀ a ∈ table, key a ≠ k

namespace Represents

theorem nil : Represents key val [] fun _ => none := by
  refine ⟨List.nodup_nil, ?_, ?_⟩
  · intro a h
    exact absurd h List.not_mem_nil
  · intro k v h
    exact absurd h (by simp)

/-- An element is determined by its key. -/
theorem eq_of_key (h : Represents key val table m) {a b : α} (ha : a ∈ table)
    (hb : b ∈ table) (same : key a = key b) : a = b :=
  List.inj_on_of_nodup_map h.unique ha hb same

theorem lookup (h : Represents key val table m) {k : κ} {found : Option α}
    (finds : Finds key table k found) : found.map val = m k := by
  cases found with
  | some a =>
      obtain ⟨live, rfl⟩ := finds
      exact (h.sound a live).symm
  | none =>
      cases value : m k with
      | none => rfl
      | some v =>
          obtain ⟨a, live, same, -⟩ := h.complete k v value
          exact absurd same (finds a live)

theorem push [DecidableEq κ] (h : Represents key val table m) {a : α}
    (new : ∀ b ∈ table, key b ≠ key a) :
    Represents key val (table ++ [a]) (Function.update m (key a) (some (val a))) := by
  refine ⟨?_, ?_, ?_⟩
  · rw [List.map_append, List.map_singleton, List.nodup_append]
    refine ⟨h.unique, List.nodup_singleton _, ?_⟩
    intro k known k' last
    obtain ⟨b, live, rfl⟩ := List.mem_map.mp known
    rw [List.mem_singleton.mp last]
    exact new b live
  · intro b live
    rcases List.mem_append.mp live with old | last
    · rw [Function.update_of_ne (new b old)]
      exact h.sound b old
    · rw [List.mem_singleton.mp last, Function.update_self]
  · intro k v value
    by_cases same : k = key a
    · subst same
      rw [Function.update_self, Option.some.injEq] at value
      exact ⟨a, List.mem_append_right _ (List.mem_singleton_self a), rfl, value⟩
    · rw [Function.update_of_ne same] at value
      obtain ⟨b, live, found⟩ := h.complete k v value
      exact ⟨b, List.mem_append_left _ live, found⟩

/-- Removing the elements whose value fails a test. -/
theorem filter (h : Represents key val table m) (p : ν → Bool) :
    Represents key val (table.filter fun a => p (val a)) fun k => (m k).filter p := by
  refine ⟨h.unique.sublist (List.filter_sublist.map key), ?_, ?_⟩
  · intro a live
    obtain ⟨live, kept⟩ := List.mem_filter.mp live
    rw [h.sound a live]
    exact Option.filter_some_pos kept
  · intro k v value
    obtain ⟨value, kept⟩ := Option.filter_eq_some_iff.mp value
    obtain ⟨a, live, same, rfl⟩ := h.complete k v value
    exact ⟨a, List.mem_filter.mpr ⟨live, kept⟩, same, rfl⟩

/-- Removing the element with a key. -/
theorem erase [DecidableEq κ] (h : Represents key val table m) (k : κ) :
    Represents key val (table.filter fun a => key a ≠ k) (Function.update m k none) := by
  refine ⟨h.unique.sublist (List.filter_sublist.map key), ?_, ?_⟩
  · intro a live
    obtain ⟨live, other⟩ := List.mem_filter.mp live
    rw [Function.update_of_ne (of_decide_eq_true other)]
    exact h.sound a live
  · intro k' v value
    by_cases same : k' = k
    · subst same
      rw [Function.update_self] at value
      exact absurd value (by simp)
    · rw [Function.update_of_ne same] at value
      obtain ⟨a, live, rfl, found⟩ := h.complete k' v value
      exact ⟨a, List.mem_filter.mpr ⟨live, decide_eq_true same⟩, rfl, found⟩

end Represents

end Cjunk.KeyedTable
