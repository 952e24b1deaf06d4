import Mathlib.Data.List.Basic
import Mathlib.Data.Nat.Notation

/-!
# Labelled trees and their places

A tree whose inner nodes are lists of elements or groups of named members.  A place is the
list of steps that lead to a node.  Code that looks nodes up and changes them through
pointers looks up places and changes what is there: `get` and `modify`.

What a change is for the rest of the tree is `Frame`: it leaves every place `Apart` from its
own as it was.  Frames compose, so the effect of a long program on one place is that of the
few operations that are not apart from it.
-/

namespace Cjunk.LabelledTree

universe u v

/-- A tree with leaves in `α` and members named by `κ`. -/
inductive NamedTree (κ : Type u) (α : Type v) where
  | leaf (value : α)
  | list (elems : List (NamedTree κ α))
  | group (members : List (κ × NamedTree κ α))

/-- A step to a member or to an element. -/
inductive Step (κ : Type u) where
  | member (name : κ)
  | elem (index : ℕ)
  deriving DecidableEq

variable {κ : Type u} {α : Type v} [DecidableEq κ]

/-- The members with the first one of the name replaced. -/
def replaceMember (name : κ) (x : NamedTree κ α) :
    List (κ × NamedTree κ α) → List (κ × NamedTree κ α)
  | [] => []
  | m :: ms => if name == m.1 then (m.1, x) :: ms else m :: replaceMember name x ms

namespace NamedTree

/-- The node that a step leads to. -/
def child : NamedTree κ α → Step κ → Option (NamedTree κ α)
  | group members, .member name => members.lookup name
  | list elems, .elem index => elems[index]?
  | _, _ => none

/-- The tree with another node where the step leads to. -/
def replace : NamedTree κ α → Step κ → NamedTree κ α → NamedTree κ α
  | group members, .member name, x => group (replaceMember name x members)
  | list elems, .elem index, x => list (elems.set index x)
  | s, _, _ => s

/-- The node at a place. -/
def get : NamedTree κ α → List (Step κ) → Option (NamedTree κ α)
  | s, [] => some s
  | s, a :: p => (s.child a).bind fun x => x.get p

/-- The tree with the node at a place changed by `f`, if there is one and `f` allows it. -/
def modify (f : NamedTree κ α → Option (NamedTree κ α)) :
    NamedTree κ α → List (Step κ) → Option (NamedTree κ α)
  | s, [] => f s
  | s, a :: p => (s.child a).bind fun x => (modify f x p).map (s.replace a)

/-- Add a member at the end of a group that has none of the name. -/
def appendMember (name : κ) (x : NamedTree κ α) : NamedTree κ α → Option (NamedTree κ α)
  | group members =>
    if (members.lookup name).isNone then some (group (members ++ [(name, x)])) else none
  | _ => none

/-- Add an element at the end of a list. -/
def appendElem (x : NamedTree κ α) : NamedTree κ α → Option (NamedTree κ α)
  | list elems => some (list (elems ++ [x]))
  | _ => none

end NamedTree

open NamedTree

/-- The places lead to different nodes, neither of which is below the other. -/
def Apart : List (Step κ) → List (Step κ) → Prop
  | a :: p, b :: q => a ≠ b ∨ Apart p q
  | _, _ => False

/-- Every place apart from `base` is as it was. -/
def Frame (base : List (Step κ)) (s t : NamedTree κ α) : Prop :=
  ∀ q, Apart base q → t.get q = s.get q

/-! ## Places -/

instance decidableApart : ∀ p q : List (Step κ), Decidable (Apart p q)
  | a :: p, b :: q =>
    have := decidableApart p q
    inferInstanceAs (Decidable (a ≠ b ∨ Apart p q))
  | [], _ => instDecidableFalse
  | _ :: _, [] => instDecidableFalse

omit [DecidableEq κ] in
theorem Apart.symm {p q : List (Step κ)} (h : Apart p q) : Apart q p := by
  induction p generalizing q with
  | nil => exact h.elim
  | cons a p ih =>
      cases q with
      | nil => exact h.elim
      | cons b q => exact h.imp Ne.symm ih

omit [DecidableEq κ] in
theorem Apart.append_left {p q : List (Step κ)} (h : Apart p q) (r : List (Step κ)) :
    Apart (p ++ r) q := by
  induction p generalizing q with
  | nil => exact h.elim
  | cons a p ih =>
      cases q with
      | nil => exact h.elim
      | cons b q => exact h.imp_right ih

omit [DecidableEq κ] in
theorem Apart.append_right {p q : List (Step κ)} (h : Apart p q) (r : List (Step κ)) :
    Apart p (q ++ r) :=
  (h.symm.append_left r).symm

omit [DecidableEq κ] in
/-- Below one place, what counts is the rest of the way. -/
theorem apart_append_iff (base p q : List (Step κ)) :
    Apart (base ++ p) (base ++ q) ↔ Apart p q := by
  induction base with
  | nil => exact Iff.rfl
  | cons a base ih =>
      show a ≠ a ∨ Apart (base ++ p) (base ++ q) ↔ Apart p q
      rw [ih]
      exact or_iff_right fun differ => differ rfl

omit [DecidableEq κ] in
/-- What is apart from a place below `p` is apart from `p`, or below it as well. -/
theorem Apart.of_append {p q r : List (Step κ)} (h : Apart (p ++ r) q) :
    Apart p q ∨ ∃ q', q = p ++ q' ∧ Apart r q' := by
  induction p generalizing q with
  | nil => exact Or.inr ⟨q, rfl, h⟩
  | cons a p ih =>
      cases q with
      | nil => exact h.elim
      | cons b q =>
          by_cases same : a = b
          · subst same
            rcases ih (h.resolve_left fun differ => differ rfl) with apart | ⟨q', rfl, apart⟩
            · exact Or.inl (Or.inr apart)
            · exact Or.inr ⟨q', rfl, apart⟩
          · exact Or.inl (Or.inl same)

theorem Frame.refl (base : List (Step κ)) (s : NamedTree κ α) : Frame base s s :=
  fun _ _ => rfl

theorem Frame.trans {base : List (Step κ)} {s t u : NamedTree κ α} (h : Frame base s t)
    (h' : Frame base t u) : Frame base s u :=
  fun q apart => (h' q apart).trans (h q apart)

/-- What happens below a place happens at it. -/
theorem Frame.of_append {base r : List (Step κ)} {s t : NamedTree κ α} (h : Frame (base ++ r) s t) :
    Frame base s t :=
  fun q apart => h q (apart.append_left r)

/-! ## Children -/

theorem lookup_replaceMember_self (name : κ) (x : NamedTree κ α)
    {members : List (κ × NamedTree κ α)} (there : (members.lookup name).isSome) :
    (replaceMember name x members).lookup name = some x := by
  induction members with
  | nil => exact absurd there (by simp)
  | cons m ms ih =>
      rw [replaceMember]
      cases hit : name == m.1 with
      | true => rw [if_pos rfl, List.lookup_cons, hit]
      | false =>
          rw [if_neg Bool.false_ne_true, List.lookup_cons, hit]
          rw [List.lookup_cons, hit] at there
          exact ih there

theorem lookup_replaceMember_ne {name other : κ} (differ : name ≠ other) (x : NamedTree κ α)
    (members : List (κ × NamedTree κ α)) :
    (replaceMember name x members).lookup other = members.lookup other := by
  induction members with
  | nil => rfl
  | cons m ms ih =>
      rw [replaceMember]
      cases hit : name == m.1 with
      | true =>
          have miss : (other == m.1) = false := by
            rw [beq_eq_false_iff_ne, ← eq_of_beq hit]
            exact differ.symm
          rw [if_pos rfl, List.lookup_cons, List.lookup_cons, miss]
      | false => rw [if_neg Bool.false_ne_true, List.lookup_cons, List.lookup_cons, ih]

theorem lookup_append_ne {name other : κ} (differ : name ≠ other) (x : NamedTree κ α)
    (members : List (κ × NamedTree κ α)) :
    (members ++ [(name, x)]).lookup other = members.lookup other := by
  have miss : (other == name) = false := by
    rw [beq_eq_false_iff_ne]
    exact differ.symm
  have none_ : ([(name, x)] : List (κ × NamedTree κ α)).lookup other = none := by
    rw [List.lookup_cons, miss]
    rfl
  rw [List.lookup_append, none_, Option.or_none]

namespace NamedTree

theorem child_replace_self {s : NamedTree κ α} {a : Step κ} (there : (s.child a).isSome)
    (x : NamedTree κ α) : (s.replace a x).child a = some x := by
  cases s with
  | leaf value => exact absurd there (by simp [child])
  | list elems =>
      cases a with
      | member name => exact absurd there (by simp [child])
      | elem index =>
          obtain ⟨below, -⟩ := List.getElem?_eq_some_iff.mp (Option.some_get there).symm
          exact List.getElem?_set_self below
  | group members =>
      cases a with
      | member name => exact lookup_replaceMember_self name x there
      | elem index => exact absurd there (by simp [child])

theorem child_replace_ne {a b : Step κ} (differ : a ≠ b) (s x : NamedTree κ α) :
    (s.replace a x).child b = s.child b := by
  cases s with
  | leaf value => rfl
  | list elems =>
      cases a with
      | member name => rfl
      | elem index =>
          cases b with
          | member name => rfl
          | elem other => exact List.getElem?_set_ne fun same => differ (congrArg Step.elem same)
  | group members =>
      cases a with
      | elem index => rfl
      | member name =>
          cases b with
          | elem index => rfl
          | member other =>
              exact lookup_replaceMember_ne (fun same => differ (congrArg Step.member same)) x
                members

/-! ## Reading and changing -/

@[simp] theorem get_nil (s : NamedTree κ α) : s.get [] = some s := rfl

theorem get_append (s : NamedTree κ α) (p q : List (Step κ)) :
    s.get (p ++ q) = (s.get p).bind fun x => x.get q := by
  induction p generalizing s with
  | nil => rfl
  | cons a p ih =>
      show ((s.child a).bind fun x => x.get (p ++ q)) = _
      cases next : s.child a with
      | none => simp [get, next]
      | some x => simp [get, next, ih]

/-- There is a node on the way to a node. -/
theorem isSome_get_of_append {s : NamedTree κ α} {p q : List (Step κ)}
    (h : (s.get (p ++ q)).isSome) : (s.get p).isSome := by
  rw [get_append] at h
  exact Option.isSome_of_isSome_bind h

theorem modify_append (f : NamedTree κ α → Option (NamedTree κ α)) (s : NamedTree κ α)
    (p q : List (Step κ)) : modify f s (p ++ q) = modify (fun x => modify f x q) s p := by
  induction p generalizing s with
  | nil => rfl
  | cons a p ih =>
      show ((s.child a).bind fun x => (modify f x (p ++ q)).map (s.replace a)) = _
      simp only [ih]
      rfl

/-- A change happens at its place and nowhere else. -/
theorem of_modify {f : NamedTree κ α → Option (NamedTree κ α)} {s t : NamedTree κ α}
    {p : List (Step κ)} (h : modify f s p = some t) :
    ∃ x y, s.get p = some x ∧ f x = some y ∧ t.get p = some y ∧ Frame p s t := by
  induction p generalizing s t with
  | nil => exact ⟨s, t, rfl, h, rfl, fun q apart => apart.elim⟩
  | cons a p ih =>
      obtain ⟨x, next, h⟩ := Option.bind_eq_some_iff.mp h
      obtain ⟨y, changed, rfl⟩ := Option.map_eq_some_iff.mp h
      obtain ⟨x', y', old, allowed, new, frame⟩ := ih changed
      have self : (s.replace a y).child a = some y :=
        child_replace_self (by rw [next]; rfl) y
      refine ⟨x', y', ?_, allowed, ?_, ?_⟩
      · rw [get, next]
        exact old
      · rw [get, self]
        exact new
      · intro q apart
        cases q with
        | nil => exact apart.elim
        | cons b q =>
            by_cases same : a = b
            · subst same
              rw [get, get, self, next]
              exact frame q (apart.resolve_left fun differ => differ rfl)
            · rw [get, get, child_replace_ne same]

/-- A new member leads to no other place. -/
theorem child_append_ne {name : κ} {b : Step κ} (differ : .member name ≠ b)
    (x : NamedTree κ α) (members : List (κ × NamedTree κ α)) :
    (group (members ++ [(name, x)])).child b = (group members).child b := by
  cases b with
  | elem index => rfl
  | member other =>
      exact lookup_append_ne (fun same => differ (congrArg Step.member same)) x members

/-- A new member is a change at its own place. -/
theorem of_appendMember {name : κ} {x s t : NamedTree κ α} {p : List (Step κ)}
    (h : modify (appendMember name x) s p = some t) :
    s.get (p ++ [.member name]) = none ∧ t.get (p ++ [.member name]) = some x ∧
      Frame (p ++ [.member name]) s t := by
  obtain ⟨old, new, before, added, after, frame⟩ := of_modify h
  cases old with
  | leaf value => exact absurd added (by simp [appendMember])
  | list elems => exact absurd added (by simp [appendMember])
  | group members =>
      rw [appendMember] at added
      split at added
      · rename_i fresh
        cases added
        have fresh := Option.isNone_iff_eq_none.mp fresh
        refine ⟨?_, ?_, ?_⟩
        · rw [get_append, before]
          show ((members.lookup name).bind _) = none
          rw [fresh]
          rfl
        · rw [get_append, after]
          show (((members ++ [(name, x)]).lookup name).bind _) = some x
          rw [List.lookup_append, fresh, Option.none_or, List.lookup_cons_self]
          rfl
        · intro q apart
          rcases apart.of_append with outside | ⟨q', rfl, other⟩
          · exact frame q outside
          · -- below the group, but another member
            cases q' with
            | nil => exact other.elim
            | cons b r =>
                have differ := other.resolve_right fun none => none.elim
                rw [get_append, get_append, before, after]
                show (child _ b).bind _ = (child _ b).bind _
                rw [child_append_ne differ]
      · exact absurd added (by simp)

/-- A new element makes its list longer. -/
theorem of_appendElem {x s t : NamedTree κ α} {p : List (Step κ)}
    (h : modify (appendElem x) s p = some t) :
    ∃ elems, s.get p = some (list elems) ∧ t.get p = some (list (elems ++ [x])) ∧
      Frame p s t := by
  obtain ⟨old, new, before, added, after, frame⟩ := of_modify h
  cases old with
  | leaf value => exact absurd added (by simp [appendElem])
  | group members => exact absurd added (by simp [appendElem])
  | list elems =>
      cases added
      exact ⟨elems, before, after, frame⟩

end NamedTree

end Cjunk.LabelledTree
