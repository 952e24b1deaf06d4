import Mathlib.Data.Int.Notation
import Mathlib.Data.List.Basic

/-!
# Routines that return error codes

C functions that return 0 or a negative error code, and that may have to wait for
hardware: a `Routine σ α` takes a state to a result and a state, or to `none` if the
inputs it has been given end before it returns.  A failing routine ends the routine that
called it, in the state it has reached; nothing is undone.

`Appends log m xs` is the partial specification of a routine that leaves a trace: when
`m` succeeds, its log has grown by exactly `xs`.  `Succeeds enough m` is its total
counterpart: from every state with `enough` the routine returns without an error, and
`Returns a m` says that it returns `a` from any state.
Two specifications hold whatever becomes of the routine: `Tries log m xs`, that the log has
grown by `xs` or that `m` has failed and left nothing in it, and `Keeps view m`, that a
part of the state is as it was.
`Passes m` says that the routine does not fail, if it returns.
`Relates R m R'` is about two runs: from states that `R` relates, `m` gives one result
and leaves states that `R'` relates.  With "the same up to what the routine may not
depend on" for `R`, it says what the routine does not depend on.
-/

namespace Cjunk

universe u v

/-- A routine on the state `σ` with a result in `α`; errors are numbers. -/
def Routine (σ : Type u) (α : Type) : Type u := σ → Option (Except ℤ α × σ)

namespace Routine

variable {σ : Type u} {α β : Type}

protected def pure (a : α) : Routine σ α := fun s => some (.ok a, s)

/-- `m`, and if it succeeds `f` on its result. -/
protected def bind (m : Routine σ α) (f : α → Routine σ β) : Routine σ β := fun s =>
  match m s with
  | none => none
  | some (.error e, t) => some (.error e, t)
  | some (.ok a, t) => f a t

instance : Monad (Routine σ) where
  pure := Routine.pure
  bind := Routine.bind

/-- `return e`, for an error `e`. -/
def fail (e : ℤ) : Routine σ α := fun s => some (.error e, s)

/-- `if (m) return e;` -/
def orFail (e : ℤ) (m : Routine σ α) : Routine σ α := fun s =>
  match m s with
  | none => none
  | some (.error _, t) => some (.error e, t)
  | some (.ok a, t) => some (.ok a, t)

/-- `m` for what it does, whatever it returns. -/
def attempt (m : Routine σ α) : Routine σ Unit := fun s =>
  match m s with
  | none => none
  | some (_, t) => some (.ok (), t)

/-- Change the state. -/
def modify (f : σ → σ) : Routine σ Unit := fun s => some (.ok (), f s)

/-- Look at the state. -/
def asks (f : σ → α) : Routine σ α := fun s => some (.ok (f s), s)

/-- A routine on a part of the state. -/
def onPart {τ : Type v} (part : σ → τ) (put : τ → σ → σ) (m : Routine τ α) : Routine σ α :=
  fun s =>
    match m (part s) with
    | none => none
    | some (r, u) => some (r, put u s)

/-- What becomes of a sequence: the first part has failed, or the rest has run after it. -/
theorem bind_cases {m : Routine σ α} {f : α → Routine σ β} {s t : σ} {r : Except ℤ β}
    (run : (m >>= f) s = some (r, t)) :
    (∃ e, m s = some (.error e, t) ∧ r = .error e) ∨
      ∃ a u, m s = some (.ok a, u) ∧ f a u = some (r, t) := by
  change Routine.bind m f s = _ at run
  unfold Routine.bind at run
  split at run
  · cases run
  · rename_i e u failed
    cases run
    exact .inl ⟨e, failed, rfl⟩
  · rename_i a u ok
    exact .inr ⟨a, u, ok, run⟩

/-- What becomes of a checked routine: it has failed, whatever its error was, or it has not. -/
theorem orFail_cases {e : ℤ} {m : Routine σ α} {s t : σ} {r : Except ℤ α}
    (run : orFail e m s = some (r, t)) :
    (∃ e', m s = some (.error e', t) ∧ r = .error e) ∨ ∃ a, m s = some (.ok a, t) ∧ r = .ok a := by
  unfold Routine.orFail at run
  split at run
  · cases run
  · rename_i failed
    cases run
    exact .inl ⟨_, failed, rfl⟩
  · rename_i ok
    cases run
    exact .inr ⟨_, ok, rfl⟩

/-- The value and the state of a routine that succeeds from `s`. -/
theorem bind_ok {m : Routine σ α} {f : α → Routine σ β} {s t : σ} {b : β} :
    (m >>= f) s = some (.ok b, t) ↔ ∃ a u, m s = some (.ok a, u) ∧ f a u = some (.ok b, t) := by
  constructor
  · intro h
    obtain ⟨e, -, error⟩ | outcome := bind_cases h
    · cases error
    · exact outcome
  · rintro ⟨a, u, first, second⟩
    show Routine.bind m f s = _
    rw [Routine.bind, first]
    exact second

theorem orFail_ok {e : ℤ} {m : Routine σ α} {s t : σ} {a : α} :
    orFail e m s = some (.ok a, t) ↔ m s = some (.ok a, t) := by
  constructor
  · intro h
    obtain ⟨e', -, error⟩ | ⟨b, ok, same⟩ := orFail_cases h
    · cases error
    · cases same
      exact ok
  · intro h
    rw [orFail, h]

/-! ## Running a routine from a state -/

section Run

variable (s : σ)

theorem pure_run (a : α) : (pure a : Routine σ α) s = some (.ok a, s) := rfl

theorem pure_bind_run (a : α) (f : α → Routine σ β) : (pure a >>= f) s = f a s := rfl

theorem asks_bind_run (g : σ → α) (f : α → Routine σ β) : (asks g >>= f) s = f (g s) s := rfl

theorem modify_bind_run (g : σ → σ) (f : Unit → Routine σ β) :
    (modify g >>= f) s = f () (g s) := rfl

theorem ite_run (c : Prop) [Decidable c] (m n : Routine σ α) :
    (if c then m else n) s = if c then m s else n s := by
  split <;> rfl

end Run

/-! ## What a routine leaves in its log -/

section Log

variable {γ : Type v} {log : σ → List γ} {xs ys : List γ}

/-- A routine that succeeds has appended `xs` to the log. -/
def Appends (log : σ → List γ) (m : Routine σ α) (xs : List γ) : Prop :=
  ∀ s t a, m s = some (.ok a, t) → log t = log s ++ xs

theorem Appends.pure (a : α) : Appends log (Routine.pure a) [] := by
  rintro s t b ⟨⟩
  exact (List.append_nil _).symm

theorem Appends.bind {m : Routine σ α} {f : α → Routine σ β} (first : Appends log m xs)
    (rest : ∀ a, Appends log (f a) ys) : Appends log (m >>= f) (xs ++ ys) := by
  intro s t b h
  obtain ⟨a, u, one, two⟩ := bind_ok.mp h
  rw [rest a u t b two, first s u a one, List.append_assoc]

/-- A first part that leaves nothing in the log. -/
theorem Appends.after {m : Routine σ α} {f : α → Routine σ β} (first : Appends log m [])
    (rest : ∀ a, Appends log (f a) xs) : Appends log (m >>= f) xs :=
  first.bind rest

theorem Appends.orFail {m : Routine σ α} (e : ℤ) (h : Appends log m xs) :
    Appends log (orFail e m) xs :=
  fun s t a ok => h s t a (orFail_ok.mp ok)

end Log

/-! ## What a routine leaves, whatever becomes of it -/

section Tries

variable {γ : Type v} {log : σ → List γ} {xs : List γ} {s t : σ} {r : Except ℤ α}

/-- When the routine returns, its errors are negative, and it has appended `xs` to the log
or has failed and left the log as it was. -/
def Tries (log : σ → List γ) (m : Routine σ α) (xs : List γ) : Prop :=
  ∀ s r t, m s = some (r, t) →
    (∀ e, r = .error e → e < 0) ∧
      (log t = log s ++ xs ∨ (∃ e, r = .error e) ∧ log t = log s)

/-- A routine that leaves nothing. -/
theorem Tries.log_eq {m : Routine σ α} (h : Tries log m []) (run : m s = some (r, t)) :
    log t = log s := by
  obtain ⟨-, appended | ⟨-, same⟩⟩ := h s r t run
  · rw [appended, List.append_nil]
  · exact same

theorem Tries.modify {f : σ → σ} (grows : ∀ s, log (f s) = log s ++ xs) :
    Tries log (Routine.modify f) xs := by
  rintro s r t ⟨⟩
  exact ⟨by simp, .inl (grows s)⟩

/-- A first part that leaves nothing. -/
theorem Tries.after {m : Routine σ α} {f : α → Routine σ β} (first : Tries log m [])
    (rest : ∀ a, Tries log (f a) xs) : Tries log (m >>= f) xs := by
  intro s r t run
  obtain ⟨e, failed, rfl⟩ | ⟨a, u, ok, run⟩ := bind_cases run
  · refine ⟨?_, .inr ⟨⟨e, rfl⟩, first.log_eq failed⟩⟩
    rintro e' ⟨⟩
    exact (first s _ _ failed).1 e rfl
  · have := rest a u r t run
    rwa [first.log_eq ok] at this

/-- A rest that leaves nothing. -/
theorem Tries.before {m : Routine σ α} {f : α → Routine σ β} (first : Tries log m xs)
    (rest : ∀ a, Tries log (f a) []) : Tries log (m >>= f) xs := by
  intro s r t run
  obtain ⟨e, failed, rfl⟩ | ⟨a, u, ok, run⟩ := bind_cases run
  · obtain ⟨negative, outcome⟩ := first s _ _ failed
    refine ⟨?_, outcome.imp_right fun h => ⟨⟨e, rfl⟩, h.2⟩⟩
    rintro e' ⟨⟩
    exact negative e rfl
  · rw [(rest a).log_eq run]
    obtain ⟨-, appended | ⟨⟨e, error⟩, -⟩⟩ := first s _ u ok
    · exact ⟨((rest a) u r t run).1, .inl appended⟩
    · cases error

theorem Tries.orFail {m : Routine σ α} {e : ℤ} (negative : e < 0) (h : Tries log m xs) :
    Tries log (orFail e m) xs := by
  intro s r t run
  obtain ⟨e', failed, rfl⟩ | ⟨a, ok, rfl⟩ := orFail_cases run
  · refine ⟨?_, (h s _ _ failed).2.imp_right fun h => ⟨⟨e, rfl⟩, h.2⟩⟩
    rintro e' ⟨⟩
    exact negative
  · exact h s _ _ ok

/-- A routine on the part of the state that the log is in. -/
theorem Tries.onPart {τ : Type v} {part : σ → τ} {put : τ → σ → σ} {logOf : τ → List γ}
    {m : Routine τ α} (held : ∀ s, log s = logOf (part s))
    (got : ∀ u s, log (put u s) = logOf u) (h : Tries logOf m xs) :
    Tries log (onPart part put m) xs := by
  intro s r t run
  unfold Routine.onPart at run
  split at run
  · cases run
  · rename_i r' u ran
    cases run
    rw [held s, got]
    exact h _ _ _ ran

end Tries

/-! ## What a routine leaves as it is -/

section Keeps

variable {τ : Type v} {view : σ → τ}

/-- A view of the state that is the same before and after, whatever becomes of the routine. -/
def Keeps (view : σ → τ) (m : Routine σ α) : Prop := ∀ s r t, m s = some (r, t) → view t = view s

theorem Keeps.pure (a : α) : Keeps view (Routine.pure a) := by
  rintro s r t ⟨⟩
  rfl

theorem Keeps.asks (f : σ → α) : Keeps view (Routine.asks f) := by
  rintro s r t ⟨⟩
  rfl

theorem Keeps.modify {f : σ → σ} (same : ∀ s, view (f s) = view s) :
    Keeps view (Routine.modify f) := by
  rintro s r t ⟨⟩
  exact same s

theorem Keeps.bind {m : Routine σ α} {f : α → Routine σ β} (first : Keeps view m)
    (rest : ∀ a, Keeps view (f a)) : Keeps view (m >>= f) := by
  intro s r t run
  obtain ⟨e, failed, -⟩ | ⟨a, u, ok, run⟩ := bind_cases run
  · exact first s _ _ failed
  · exact (rest a u r t run).trans (first s _ u ok)

theorem Keeps.orFail {m : Routine σ α} (e : ℤ) (h : Keeps view m) : Keeps view (orFail e m) := by
  intro s r t run
  obtain ⟨e', failed, -⟩ | ⟨a, ok, -⟩ := orFail_cases run
  · exact h s _ _ failed
  · exact h s _ _ ok

/-- A routine on a part of the state that does not show in the view. -/
theorem Keeps.onPart {ρ : Type v} (part : σ → ρ) (put : ρ → σ → σ)
    (apart : ∀ u s, view (put u s) = view s) (m : Routine ρ α) :
    Keeps view (onPart part put m) := by
  intro s r t run
  unfold Routine.onPart at run
  split at run
  · cases run
  · cases run
    exact apart _ s

theorem Keeps.forM {γ : Type} {f : γ → Routine σ PUnit} (body : ∀ x, Keeps view (f x)) :
    ∀ xs : List γ, Keeps view (xs.forM f)
  | [] => Keeps.pure _
  | x :: xs => (body x).bind fun _ => Keeps.forM body xs

end Keeps

/-! ## When a routine succeeds -/

section Succeeds

variable {enough : ℕ → σ → Prop} {k n : ℕ}

/-- From a state with inputs for `k` more than `n` waits, the routine uses up `k` and
returns without an error. -/
def Succeeds (enough : ℕ → σ → Prop) (k : ℕ) (m : Routine σ α) : Prop :=
  ∀ n s, enough (k + n) s → ∃ a t, m s = some (.ok a, t) ∧ enough n t

theorem Succeeds.pure (a : α) : Succeeds enough 0 (Routine.pure a : Routine σ α) := by
  intro n s h
  rw [Nat.zero_add] at h
  exact ⟨a, s, rfl, h⟩

theorem Succeeds.bind {m : Routine σ α} {f : α → Routine σ β} (first : Succeeds enough k m)
    (rest : ∀ a, Succeeds enough n (f a)) : Succeeds enough (k + n) (m >>= f) := by
  intro l s h
  rw [Nat.add_assoc] at h
  obtain ⟨a, u, one, left⟩ := first (n + l) s h
  obtain ⟨b, t, two, left⟩ := rest a l u left
  exact ⟨b, t, bind_ok.mpr ⟨a, u, one, two⟩, left⟩

theorem Succeeds.orFail {m : Routine σ α} (e : ℤ) (h : Succeeds enough k m) :
    Succeeds enough k (orFail e m) := by
  intro n s h'
  obtain ⟨a, t, ok, left⟩ := h n s h'
  exact ⟨a, t, orFail_ok.mpr ok, left⟩

end Succeeds

/-! ## When a routine succeeds from every state -/

section Returns

variable {a : α} {b : β}

/-- From every state the routine returns `a`. -/
def Returns (a : α) (m : Routine σ α) : Prop := ∀ s, ∃ t, m s = some (.ok a, t)

theorem Returns.pure (a : α) : Returns a (Routine.pure a : Routine σ α) := fun s => ⟨s, rfl⟩

theorem Returns.modify (f : σ → σ) : Returns () (Routine.modify f) := fun s => ⟨f s, rfl⟩

theorem Returns.bind {m : Routine σ α} {f : α → Routine σ β} (first : Returns a m)
    (rest : Returns b (f a)) : Returns b (m >>= f) := by
  intro s
  obtain ⟨u, one⟩ := first s
  obtain ⟨t, two⟩ := rest u
  exact ⟨t, bind_ok.mpr ⟨a, u, one, two⟩⟩

/-- A first part that succeeds with some value or other. -/
theorem Returns.after {m : Routine σ α} {f : α → Routine σ β}
    (first : ∀ s, ∃ a t, m s = some (.ok a, t)) (rest : ∀ a, Returns b (f a)) :
    Returns b (m >>= f) := by
  intro s
  obtain ⟨a, u, one⟩ := first s
  obtain ⟨t, two⟩ := rest a u
  exact ⟨t, bind_ok.mpr ⟨a, u, one, two⟩⟩

/-- A routine on a part of the state. -/
theorem Returns.onPart {τ : Type v} {m : Routine τ α} (part : σ → τ) (put : τ → σ → σ)
    (h : Returns a m) : Returns a (onPart part put m) := by
  intro s
  obtain ⟨u, ran⟩ := h (part s)
  refine ⟨put u s, ?_⟩
  unfold Routine.onPart
  rw [ran]

/-- A loop whose body succeeds from every state. -/
theorem Returns.forM {γ : Type} {f : γ → Routine σ PUnit} (body : ∀ x, Returns ⟨⟩ (f x)) :
    ∀ xs : List γ, Returns ⟨⟩ (xs.forM f)
  | [] => Returns.pure _
  | x :: xs => (body x).bind (Returns.forM body xs)

end Returns

/-! ## When a routine never fails -/

section Passes

/-- If the routine returns it has succeeded. -/
def Passes (m : Routine σ α) : Prop := ∀ s r t, m s = some (r, t) → ∃ a, r = .ok a

theorem Passes.modify (f : σ → σ) : Passes (Routine.modify f) := by
  rintro s r t ⟨⟩
  exact ⟨(), rfl⟩

theorem Passes.attempt (m : Routine σ α) : Passes (Routine.attempt m) := by
  intro s r t run
  unfold Routine.attempt at run
  split at run
  · cases run
  · cases run
    exact ⟨(), rfl⟩

theorem Passes.bind {m : Routine σ α} {f : α → Routine σ β} (first : Passes m)
    (rest : ∀ a, Passes (f a)) : Passes (m >>= f) := by
  intro s r t run
  obtain ⟨e, failed, -⟩ | ⟨a, u, ok, run⟩ := bind_cases run
  · obtain ⟨a, error⟩ := first s _ _ failed
    cases error
  · exact rest a u r t run

/-- A routine on a part of the state. -/
theorem Passes.onPart {τ : Type v} {m : Routine τ α} (part : σ → τ) (put : τ → σ → σ)
    (h : Passes m) : Passes (onPart part put m) := by
  intro s r t run
  unfold Routine.onPart at run
  split at run
  · cases run
  · rename_i r' u ran
    cases run
    exact h _ _ _ ran

end Passes

/-! ## What a routine does not depend on -/

section Relates

variable {R R' M : σ → σ → Prop}

/-- From states that `R` relates `m` gives one result, and if it succeeds it leaves
states that `R'` relates. -/
def Relates (R : σ → σ → Prop) (m : Routine σ α) (R' : σ → σ → Prop) : Prop :=
  ∀ s t, R s t →
    (m s = none ∧ m t = none) ∨
    (∃ e u v, m s = some (.error e, u) ∧ m t = some (.error e, v)) ∨
    ∃ a u v, m s = some (.ok a, u) ∧ m t = some (.ok a, v) ∧ R' u v

theorem Relates.pure (a : α) : Relates R (Routine.pure a : Routine σ α) R :=
  fun s t h => .inr (.inr ⟨a, s, t, rfl, rfl, h⟩)

theorem Relates.fail (e : ℤ) : Relates R (fail e : Routine σ α) R' :=
  fun s t _ => .inr (.inl ⟨e, s, t, rfl, rfl⟩)

theorem Relates.modify {f : σ → σ} (keeps : ∀ s t, R s t → R' (f s) (f t)) :
    Relates R (modify f) R' :=
  fun s t h => .inr (.inr ⟨(), f s, f t, rfl, rfl, keeps s t h⟩)

theorem Relates.asks {f : σ → α} (same : ∀ s t, R s t → f s = f t) : Relates R (asks f) R := by
  intro s t h
  refine .inr (.inr ⟨f s, s, t, rfl, ?_, h⟩)
  rw [same s t h]
  rfl

theorem Relates.bind {m : Routine σ α} {f : α → Routine σ β} (first : Relates R m M)
    (rest : ∀ a, Relates M (f a) R') : Relates R (m >>= f) R' := by
  intro s t h
  show (Routine.bind m f s = none ∧ Routine.bind m f t = none) ∨
    (∃ e u v, Routine.bind m f s = some (.error e, u) ∧
      Routine.bind m f t = some (.error e, v)) ∨
    ∃ b u v, Routine.bind m f s = some (.ok b, u) ∧ Routine.bind m f t = some (.ok b, v) ∧
      R' u v
  unfold Routine.bind
  obtain ⟨one, two⟩ | ⟨e, u, v, one, two⟩ | ⟨a, u, v, one, two, related⟩ := first s t h
  · rw [one, two]
    exact .inl ⟨rfl, rfl⟩
  · rw [one, two]
    exact .inr (.inl ⟨e, u, v, rfl, rfl⟩)
  · rw [one, two]
    exact rest a u v related

theorem Relates.orFail {m : Routine σ α} (e : ℤ) (h : Relates R m R') :
    Relates R (orFail e m) R' := by
  intro s t related
  unfold Routine.orFail
  obtain ⟨one, two⟩ | ⟨_, u, v, one, two⟩ | ⟨a, u, v, one, two, related⟩ := h s t related
  · rw [one, two]
    exact .inl ⟨rfl, rfl⟩
  · rw [one, two]
    exact .inr (.inl ⟨e, u, v, rfl, rfl⟩)
  · rw [one, two]
    exact .inr (.inr ⟨a, u, v, rfl, rfl, related⟩)

/-- A routine on a part that related states have in common sees no difference. -/
theorem Relates.onPart {τ : Type v} {part : σ → τ} {put : τ → σ → σ}
    (same : ∀ s t, R s t → part s = part t) (keeps : ∀ s t w, R s t → R (put w s) (put w t))
    (m : Routine τ α) : Relates R (onPart part put m) R := by
  intro s t h
  unfold Routine.onPart
  rw [same s t h]
  rcases m (part t) with _ | ⟨e | a, w⟩
  · exact .inl ⟨rfl, rfl⟩
  · exact .inr (.inl ⟨e, put w s, put w t, rfl, rfl⟩)
  · exact .inr (.inr ⟨a, put w s, put w t, rfl, rfl, keeps s t w h⟩)

/-- A loop whose body keeps `R`. -/
theorem Relates.forM {γ : Type} {f : γ → Routine σ PUnit} (body : ∀ x, Relates R (f x) R) :
    ∀ xs : List γ, Relates R (xs.forM f) R
  | [] => Relates.pure _
  | x :: xs => (body x).bind fun _ => Relates.forM body xs

end Relates

end Routine

end Cjunk
