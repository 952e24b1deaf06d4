import Mathlib.Data.List.Basic

/-!
# Runs of a labelled machine

A machine is a labelled step function `step : σ → α → Option σ`; `none` says
that the action is not enabled.  A *schedule* is a list of actions, and a run is
the sequence of states a schedule passes through until it is exhausted or meets
an action that is not enabled.

Two predicates on a schedule carry every result about runs:

* `Throughout P` — `P` holds in **every** state the run passes through;
* `Meets ok` — every step the run takes is allowed by `ok`, a condition on the
  state *before* the step and on its action.

The rules are `Meets.throughout` (an invariant that allowed steps preserve
holds throughout a run of allowed steps), `throughout_of_keeps` (the same where
every step is allowed) and `Meets.throughout_iff` and `throughout_iff_meets` (if `ok` is
exactly what one step needs to keep `P`, then it is exactly what a run needs).

`foldl_eq_iff` tells from the actions which state a machine without disabled actions is in.
-/

namespace Cjunk.Run

universe u v

variable {σ : Type u} {α : Type v}

/-- The state a schedule ends in, if each of its actions is enabled in turn. -/
def exec (step : σ → α → Option σ) : σ → List α → Option σ
  | s, [] => some s
  | s, a :: as => (step s a).bind fun t => exec step t as

/-- `P` holds in every state that the run of a schedule passes through. -/
def Throughout (step : σ → α → Option σ) (P : σ → Prop) : σ → List α → Prop
  | s, [] => P s
  | s, a :: as => P s ∧ ∀ t, step s a = some t → Throughout step P t as

/-- Every step that the run of a schedule takes is allowed by `ok`. -/
def Meets (step : σ → α → Option σ) (ok : σ → α → Prop) : σ → List α → Prop
  | _, [] => True
  | s, a :: as => ∀ t, step s a = some t → ok s a ∧ Meets step ok t as

variable {step : σ → α → Option σ} {P I : σ → Prop} {ok : σ → α → Prop}

@[simp] theorem exec_nil (s : σ) : exec step s [] = some s := rfl

@[simp] theorem exec_cons (s : σ) (a : α) (as : List α) :
    exec step s (a :: as) = (step s a).bind fun t => exec step t as := rfl

/-- Where each action is enabled, a run folds the schedule. -/
theorem exec_some (f : σ → α → σ) (s : σ) (as : List α) :
    exec (fun s a => some (f s a)) s as = some (as.foldl f s) := by
  induction as generalizing s with
  | nil => rfl
  | cons a as ih => exact ih (f s a)

/-- A state that no action leads out of. -/
theorem foldl_eq_self {f : σ → α → σ} {t : σ} {as : List α} (kept : ∀ a ∈ as, f t a = t) :
    as.foldl f t = t := by
  induction as with
  | nil => rfl
  | cons a as ih =>
      obtain ⟨first, rest⟩ := List.forall_mem_cons.mp kept
      rw [List.foldl_cons, first]
      exact ih rest

/-- Where each action is enabled, a machine is in a state exactly if it was from the beginning, or
an action led there from another state, and no action has led away since. -/
theorem foldl_eq_iff {f : σ → α → σ} {s t : σ} {as : List α} :
    as.foldl f s = t ↔
      (s = t ∧ ∀ a ∈ as, f t a = t) ∨
        ∃ before a since, as = before ++ a :: since ∧ before.foldl f s ≠ t ∧
          f (before.foldl f s) a = t ∧ ∀ b ∈ since, f t b = t := by
  constructor
  · intro arrives
    induction as generalizing s with
    | nil => exact .inl ⟨arrives, List.forall_mem_nil _⟩
    | cons a as ih =>
        obtain ⟨led, kept⟩ | ⟨before, b, since, rfl, other, led, kept⟩ := ih arrives
        · by_cases start : s = t
          · rw [start] at led
            exact .inl ⟨start, List.forall_mem_cons.mpr ⟨led, kept⟩⟩
          · exact .inr ⟨[], a, as, rfl, start, led, kept⟩
        · exact .inr ⟨a :: before, b, since, rfl, other, led, kept⟩
  · rintro (⟨rfl, kept⟩ | ⟨before, a, since, rfl, -, led, kept⟩)
    · exact foldl_eq_self kept
    · rw [List.foldl_append, List.foldl_cons, led]
      exact foldl_eq_self kept

/-- A predicate that can be decided in each state can be decided along a run. -/
instance decidableThroughout [DecidablePred P] :
    ∀ s as, Decidable (Throughout step P s as)
  | s, [] => inferInstanceAs (Decidable (P s))
  | s, a :: as =>
      match h : step s a with
      | none => decidable_of_iff (P s) (by simp [Throughout, h])
      | some t =>
          have := decidableThroughout t as
          decidable_of_iff (P s ∧ Throughout step P t as) (by simp [Throughout, h])

instance decidableMeets [∀ s a, Decidable (ok s a)] :
    ∀ s as, Decidable (Meets step ok s as)
  | _, [] => .isTrue trivial
  | s, a :: as =>
      match h : step s a with
      | none => .isTrue (by simp [Meets, h])
      | some t =>
          have := decidableMeets t as
          decidable_of_iff (ok s a ∧ Meets step ok t as) (by simp [Meets, h])

/-- The first state of a run is one of its states. -/
theorem Throughout.head {s : σ} {as : List α} (h : Throughout step P s as) : P s := by
  cases as with
  | nil => exact h
  | cons a as => exact h.1

/-- The state that any part of a schedule ends in is a state of the run. -/
theorem Throughout.of_exec {s t : σ} {as bs : List α}
    (h : Throughout step P s (as ++ bs)) (run : exec step s as = some t) :
    Throughout step P t bs := by
  induction as generalizing s with
  | nil =>
      cases run
      exact h
  | cons a as ih =>
      cases enabled : step s a with
      | none => simp [enabled] at run
      | some u =>
          rw [exec_cons, enabled, Option.bind_some] at run
          exact ih (h.2 u enabled) run

/-- `Throughout` says of a run what it seems to: every state reached by a part
of the schedule satisfies `P`. -/
theorem throughout_iff_forall_exec {s : σ} {as : List α} :
    Throughout step P s as ↔
      ∀ pre post, pre ++ post = as → ∀ t, exec step s pre = some t → P t := by
  constructor
  · rintro h pre post rfl t run
    exact (h.of_exec run).head
  · intro h
    induction as generalizing s with
    | nil => exact h [] [] rfl s rfl
    | cons a as ih =>
        refine ⟨h [] (a :: as) rfl s rfl, fun t enabled => ih ?_⟩
        rintro pre post rfl u run
        exact h (a :: pre) post rfl u (by simp [enabled, run])

/-- A condition that every action of a schedule meets in any state. -/
theorem Meets.of_forall_mem {s : σ} {as : List α} (h : ∀ a ∈ as, ∀ s, ok s a) :
    Meets step ok s as := by
  induction as generalizing s with
  | nil => trivial
  | cons a as ih =>
      intro t _
      exact ⟨h a List.mem_cons_self s, ih fun b later => h b (List.mem_cons_of_mem a later)⟩

/-- The invariant rule: what allowed steps preserve holds throughout every run
of allowed steps. -/
theorem Meets.throughout (keep : ∀ s a t, I s → ok s a → step s a = some t → I t)
    (weaken : ∀ s, I s → P s) {s : σ} {as : List α} (start : I s)
    (h : Meets step ok s as) : Throughout step P s as := by
  induction as generalizing s with
  | nil => exact weaken s start
  | cons a as ih =>
      refine ⟨weaken s start, fun t enabled => ?_⟩
      obtain ⟨allowed, rest⟩ := h t enabled
      exact ih (keep s a t start allowed enabled) rest

/-- The invariant rule without a condition: what every step preserves holds throughout every
run. -/
theorem throughout_of_keeps (keep : ∀ s a t, I s → step s a = some t → I t)
    (weaken : ∀ s, I s → P s) {s : σ} (start : I s) (as : List α) :
    Throughout step P s as := by
  have free : Meets step (fun _ _ => True) s as := .of_forall_mem fun _ _ _ => trivial
  exact free.throughout (fun s a t h _ taken => keep s a t h taken) weaken start

/-- **From one step to a run, exactly.**  If under the invariant `I` a step that meets `pre`
keeps `P` precisely when `ok` allows it, then a run whose steps meet `pre` keeps `P`
precisely when `ok` allows each of them. -/
theorem Meets.throughout_iff {pre : σ → α → Prop} (weaken : ∀ s, I s → P s)
    (keep : ∀ s a t, I s → pre s a → ok s a → step s a = some t → I t)
    (exact_step : ∀ s a t, I s → pre s a → step s a = some t → P t → ok s a)
    {s : σ} {as : List α} (start : I s) (given : Meets step pre s as) :
    Throughout step P s as ↔ Meets step ok s as := by
  induction as generalizing s with
  | nil => exact iff_of_true (weaken s start) trivial
  | cons a as ih =>
      constructor
      · intro h t enabled
        obtain ⟨met, given⟩ := given t enabled
        have rest := h.2 t enabled
        have allowed := exact_step s a t start met enabled rest.head
        exact ⟨allowed, (ih (keep s a t start met allowed enabled) given).mp rest⟩
      · intro h
        refine ⟨weaken s start, fun t enabled => ?_⟩
        obtain ⟨met, given⟩ := given t enabled
        obtain ⟨allowed, rest⟩ := h t enabled
        exact (ih (keep s a t start met allowed enabled) given).mpr rest

/-- The exact rule without a condition on the run. -/
theorem throughout_iff_meets (weaken : ∀ s, I s → P s)
    (keep : ∀ s a t, I s → ok s a → step s a = some t → I t)
    (exact_step : ∀ s a t, I s → step s a = some t → P t → ok s a)
    {s : σ} {as : List α} (start : I s) :
    Throughout step P s as ↔ Meets step ok s as := by
  have free : Meets step (fun _ _ => True) s as := .of_forall_mem fun _ _ _ => trivial
  exact free.throughout_iff weaken (fun s a t h _ allowed taken => keep s a t h allowed taken)
    (fun s a t h _ taken kept => exact_step s a t h taken kept) start

/-- Two conditions on steps that agree on an invariant agree on runs, if the steps that one
of them allows keep the invariant. -/
theorem meets_congr {ok' : σ → α → Prop} (keep : ∀ s a t, I s → ok s a → step s a = some t → I t)
    (same : ∀ s a t, I s → step s a = some t → (ok s a ↔ ok' s a)) {s : σ} {as : List α}
    (start : I s) : Meets step ok s as ↔ Meets step ok' s as := by
  induction as generalizing s with
  | nil => exact Iff.rfl
  | cons a as ih =>
      refine forall_congr' fun t => forall_congr' fun enabled => ?_
      rw [← same s a t start enabled]
      exact and_congr_right fun allowed => ih (keep s a t start allowed enabled)

end Cjunk.Run
