import Mathlib.Data.Nat.Notation

/-!
# While loops that may fault

Code that works on an explicit state ends in one, or it stops: it faults, it exits, or a loop
has not ended when its fuel has.

`Ends enough r Q` is the specification of an outcome: it is a state with `Q`, or it is
unfinished, and this only without `enough`.  It is the partial specification and the total one
in a single statement: with `enough` the code ends, and without it does nothing wrong.
`whileLoop_ends` is the rule for loops.  The invariant is indexed by what changes from turn to
turn, and `left` is the measure of what is left to do.
-/

namespace Cjunk.WhileLoop

universe w

/-- Why code stops before its end. -/
inductive Stop where
  /-- A pointer is followed or freed that points to nothing. -/
  | fault
  | exit
  | unfinished
  deriving DecidableEq

variable {σ τ : Type} {γ : Type w}

/-- Code that ends has ended each of its parts. -/
theorem bind_eq_ok_iff {r : Except Stop σ} {f : σ → Except Stop τ} {t : τ} :
    (r >>= f) = .ok t ↔ ∃ s, r = .ok s ∧ f s = .ok t := by
  cases r with
  | error stop => exact ⟨nofun, nofun⟩
  | ok s => exact ⟨fun ends => ⟨s, rfl, ends⟩, fun ⟨_, same, ends⟩ => by cases same; exact ends⟩

/-- `while (test) body`, for at most so many tests. -/
def whileLoop (test : σ → Except Stop Bool) (body : σ → Except Stop σ) :
    ℕ → σ → Except Stop σ
  | 0, _ => .error .unfinished
  | fuel + 1, s => do
      if ← test s then
        let t ← body s
        whileLoop test body fuel t
      else
        return s

theorem whileLoop_turn {test : σ → Except Stop Bool} {s : σ} (goes : test s = .ok true)
    (body : σ → Except Stop σ) (fuel : ℕ) :
    whileLoop test body (fuel + 1) s = body s >>= whileLoop test body fuel := by
  rw [whileLoop, goes]
  rfl

theorem whileLoop_end {test : σ → Except Stop Bool} {s : σ} (ends : test s = .ok false)
    (body : σ → Except Stop σ) (fuel : ℕ) : whileLoop test body (fuel + 1) s = .ok s := by
  rw [whileLoop, ends]
  rfl

/-- Loops do the same on states that correspond, if their tests and bodies do. -/
theorem whileLoop_map {test : σ → Except Stop Bool} {body : σ → Except Stop σ}
    {test' : τ → Except Stop Bool} {body' : τ → Except Stop τ} (f : σ → τ)
    (tests : ∀ s, test' (f s) = test s) (bodies : ∀ s, body' (f s) = (body s).map f)
    (fuel : ℕ) (s : σ) :
    whileLoop test' body' fuel (f s) = (whileLoop test body fuel s).map f := by
  induction fuel generalizing s with
  | zero => rfl
  | succ fuel ih =>
      rw [whileLoop, whileLoop, tests]
      rcases test s with stop | goes
      · rfl
      · cases goes
        · rfl
        · show (body' (f s) >>= _) = Except.map f (body s >>= _)
          rw [bodies]
          rcases body s with stop | t
          · rfl
          · exact ih t

/-- The outcome is a state with `Q`; with `enough` it is not left unfinished. -/
def Ends (enough : Prop) (r : Except Stop σ) (Q : σ → Prop) : Prop :=
  (∃ s, r = .ok s ∧ Q s) ∨ r = .error .unfinished ∧ ¬ enough

section Rules

variable {enough : Prop} {r : Except Stop σ} {P Q : σ → Prop} {s : σ}

theorem Ends.ok (h : Q s) : Ends enough (.ok s) Q := .inl ⟨s, rfl, h⟩

theorem Ends.mono (h : Ends enough r P) (weaken : ∀ s, P s → Q s) : Ends enough r Q := by
  obtain ⟨s, ok, holds⟩ | unfinished := h
  · exact .inl ⟨s, ok, weaken s holds⟩
  · exact .inr unfinished

theorem Ends.of_imp {enough' : Prop} (h : Ends enough r Q) (fits : enough' → enough) :
    Ends enough' r Q :=
  h.imp_right fun unfinished => ⟨unfinished.1, mt fits unfinished.2⟩

theorem Ends.bind {f : σ → Except Stop τ} {R : τ → Prop} (first : Ends enough r P)
    (rest : ∀ s, P s → Ends enough (f s) R) : Ends enough (r >>= f) R := by
  obtain ⟨s, rfl, holds⟩ | ⟨rfl, short⟩ := first
  · exact rest s holds
  · exact .inr ⟨rfl, short⟩

theorem Ends.map {f : σ → τ} {R : τ → Prop} (h : Ends enough r Q) (holds : ∀ s, Q s → R (f s)) :
    Ends enough (r.map f) R := by
  obtain ⟨s, rfl, q⟩ | ⟨rfl, short⟩ := h
  · exact .inl ⟨f s, rfl, holds s q⟩
  · exact .inr ⟨rfl, short⟩

/-- Code that ends, and what comes behind it. -/
theorem Ends.bind_eq {f : σ → Except Stop τ} {r' : Except Stop τ} (first : Ends True r P)
    (rest : ∀ s, P s → f s = r') : (r >>= f) = r' := by
  obtain ⟨s, rfl, holds⟩ | ⟨-, short⟩ := first
  · exact rest s holds
  · exact absurd trivial short

/-- What a finished outcome satisfies. -/
theorem Ends.of_ok (h : Ends enough (.ok s) Q) : Q s := by
  obtain ⟨t, same, holds⟩ | ⟨unfinished, -⟩ := h
  · cases same
    exact holds
  · cases unfinished

/-- Code with a specification does not fault. -/
theorem Ends.ne_fault (h : Ends enough r Q) : r ≠ .error .fault := by
  rintro rfl
  obtain ⟨s, faults, -⟩ | ⟨unfinished, -⟩ := h
  · cases faults
  · cases unfinished

/-- With enough of everything there is an outcome. -/
theorem Ends.finished (h : Ends enough r Q) (holds : enough) : ∃ s, r = .ok s ∧ Q s :=
  h.resolve_right fun unfinished => unfinished.2 holds

/-- The rule for loops. -/
theorem whileLoop_ends {test : σ → Except Stop Bool} {body : σ → Except Stop σ}
    (more : σ → Bool) (I : γ → σ → Prop) (left : γ → ℕ)
    (tests : ∀ g s, I g s → test s = .ok (more s))
    (turn : ∀ g s, I g s → more s = true →
      Ends enough (body s) fun t => ∃ g', I g' t ∧ (enough → left g' < left g))
    {g : γ} {fuel : ℕ} (start : I g s) (fits : enough → left g < fuel) :
    Ends enough (whileLoop test body fuel s) fun t => ∃ g', I g' t ∧ more t = false := by
  induction fuel generalizing g s with
  | zero => exact .inr ⟨rfl, fun holds => Nat.not_lt_zero _ (fits holds)⟩
  | succ fuel ih =>
      rw [whileLoop, tests g s start]
      show Ends enough (if more s = true then _ else _) _
      by_cases goes : more s = true
      · rw [if_pos goes]
        refine (turn g s start goes).bind fun t ⟨g', inv, less⟩ => ih inv fun holds => ?_
        exact Nat.lt_of_lt_of_le (less holds) (Nat.le_of_lt_succ (fits holds))
      · rw [if_neg goes]
        exact .ok ⟨g, start, Bool.eq_false_iff.mpr goes⟩

end Rules

/-! ## Walking along a list -/

section Walk

variable {α : Type}

/-- `for (el = head; el; el = el->next) body`.  Where an element leads is read after the body has
run. -/
def walk (next : σ → Option α → Except Stop (Option α)) (body : Option α → σ → Except Stop σ)
    (fuel : ℕ) (head : Option α) (s : σ) : Except Stop σ := do
  let r ← whileLoop (fun r => .ok r.1.isSome)
    (fun r => do
      let s ← body r.1 r.2
      let el ← next s r.1
      return (el, s))
    fuel (head, s)
  return r.2

/-- The rule for walks: the body may change the list as it likes, if only the element that it is
called for still leads to the rest afterwards. -/
theorem walk_ends {next : σ → Option α → Except Stop (Option α)}
    {body : Option α → σ → Except Stop σ} {enough : Prop} {fuel : ℕ} {head : Option α} {s : σ}
    {xs : List α} (I : List α → List α → σ → Prop) (first : head = xs.head?)
    (turn : ∀ front x rest s, xs = front ++ x :: rest → I front (x :: rest) s →
      Ends enough (body (some x) s) fun t =>
        next t (some x) = .ok rest.head? ∧ I (front ++ [x]) rest t)
    (start : I [] xs s) (fits : enough → xs.length < fuel) :
    Ends enough (walk next body fuel head s) (I xs []) := by
  refine (whileLoop_ends (fun r => r.1.isSome)
    (fun (g : List α × List α) (r : Option α × σ) =>
      xs = g.1 ++ g.2 ∧ r.1 = g.2.head? ∧ I g.1 g.2 r.2)
    (fun g => g.2.length) (fun g r _ => rfl) ?_ (g := ([], xs)) (s := (head, s))
    ⟨rfl, first, start⟩ fits).bind ?_
  · rintro ⟨front, rest⟩ ⟨-, s⟩ ⟨split, rfl, inv⟩ more
    cases rest with
    | nil => cases more
    | cons x rest =>
        refine (turn front x rest s split inv).bind fun t ⟨leads, inv'⟩ => ?_
        show Ends enough (next t (some x) >>= _) _
        rw [leads]
        exact .ok ⟨(front ++ [x], rest), ⟨by simp [split], rfl, inv'⟩,
          fun _ => Nat.lt_succ_self _⟩
  · rintro ⟨-, s⟩ ⟨⟨front, rest⟩, ⟨split, rfl, inv⟩, done⟩
    cases rest with
    | nil =>
        rw [List.append_nil] at split
        exact .ok (split ▸ inv)
    | cons x rest => cases done

end Walk

end Cjunk.WhileLoop
