import Cjunk.Configuration.Buffers
import Cjunk.Lib.Run

/-!
# Saving loses what was loaded

`save_configuration` stores the number that it saves, plus one, as the count of
configurations.  Its comment says that the count is incremented; it goes down when a smaller
number is saved, and the loop of `read_configuration_file` then stops short of groups that it
used to load.

When the count does not go down, the loop reaches the group that was saved.  It has registers,
and the path of `integration_time` is too long for the array that the reader builds it in, so
nothing is loaded after a save (`Saved.not_fileFits`).

`keepsAll_iff`: over a sequence of calls, every successful one keeps what was loaded and never
lowers the count, exactly if it saves a number that is not below the last one counted, in a file
from which nothing is loaded.
-/

namespace Cjunk.Settings

open LabelledTree Run

/-- `max_no_of_configs`, as the `int` that it is. -/
def maxOf (t : Setting) : ℤ := (Setting.toInt (t.get maxPlace)).toInt

/-- `read_configuration_file` loads the configuration `k`, from a group of the file. -/
def Loads (lib : Libconfig) (t : Setting) (k : ℕ) (c : Configuration) : Prop :=
  k < countOf t ∧ HasGroup t k ∧
    ∃ after, readFileInBuffers lib (.parsed t) .cleared = .ok (.cmdSucessfull, after) ∧
      after.configurations k = c

/-- Going from `t` to `u`, the count does not decrease, and what was loaded is loaded. -/
def NothingLost (lib : Libconfig) (t u : Setting) : Prop :=
  maxOf t ≤ maxOf u ∧ ∀ k c, Loads lib t k c → Loads lib u k c

/-- Something is loaded from the file. -/
def AnyLoaded (t : Setting) : Prop := FileFits t ∧ ∃ k < countOf t, HasGroup t k

instance (t : Setting) : Decidable (AnyLoaded t) := inferInstanceAs (Decidable (_ ∧ _))

/-- The number `n` is not below the last one counted, and nothing is loaded. -/
def CountCovers (t : Setting) (n : ℤ) : Prop := maxOf t ≤ n + 1 ∧ ¬ AnyLoaded t

instance (t : Setting) (n : ℤ) : Decidable (CountCovers t n) :=
  inferInstanceAs (Decidable (_ ∧ _))

theorem NothingLost.refl (lib : Libconfig) (t : Setting) : NothingLost lib t t :=
  ⟨Int.le_refl _, fun _ _ loaded => loaded⟩

theorem NothingLost.trans {lib : Libconfig} {t u v : Setting} (h : NothingLost lib t u)
    (h' : NothingLost lib u v) : NothingLost lib t v :=
  ⟨Int.le_trans h.1 h'.1, fun k c loaded => h'.2 k c (h.2 k c loaded)⟩

/-! ## One call -/

section Saved

variable {lib : Libconfig} (doc : lib.Documented) {t u : Setting} {c : Configuration} {n : U32}

include doc

/-- Something is loaded from a file exactly if some configuration is. -/
theorem anyLoaded_iff : AnyLoaded t ↔ ∃ k d, Loads lib t k d := by
  constructor
  · rintro ⟨fits, k, counted, there⟩
    obtain ⟨after, read⟩ := (readFileInBuffers_ok_iff doc .cleared).mpr fits
    exact ⟨k, after.configurations k, counted, there, after, read, rfl⟩
  · rintro ⟨k, d, counted, there, after, read, -⟩
    exact ⟨(readFileInBuffers_ok_iff doc .cleared).mp ⟨after, read⟩, k, counted, there⟩

omit doc in
theorem Saved.maxOf_eq (saved : Saved t c n u) : maxOf u = n.toInt + 1 := by
  unfold maxOf
  rw [saved.max]
  exact toInt_add_one saved.range

omit doc in
/-- A group that was saved has registers, and does not fit the arrays of the reader. -/
theorem Saved.not_fileFits (saved : Saved t c n u) (low : 0 ≤ n.toInt) : ¬ FileFits u := by
  have counted : n.toInt < countOf u := by
    rw [saved.countOf_eq]
    omega
  have cmd := saved.filled.regs ("cmd", c.cmd) List.mem_cons_self
  exact not_fileFits_of_member (by decide) low counted (Option.isSome_of_eq_some cmd)

/-- A successful call loses nothing exactly if its number covers the count. -/
theorem Saved.nothingLost_iff (saved : Saved t c n u) :
    NothingLost lib t u ↔ CountCovers t n.toInt := by
  unfold NothingLost CountCovers
  rw [saved.maxOf_eq, anyLoaded_iff doc]
  refine and_congr_right fun _ => ?_
  constructor
  · rintro keeps ⟨k, d, loaded⟩
    have after := keeps k d loaded
    have low : 0 ≤ n.toInt := by
      have counted := after.1
      rw [saved.countOf_eq] at counted
      omega
    have fits : FileFits u := ((anyLoaded_iff doc).mpr ⟨k, d, after⟩).1
    exact saved.not_fileFits low fits
  · intro nothing k d loaded
    exact absurd ⟨k, d, loaded⟩ nothing

end Saved

/-! ## Sequences of calls -/

/-- A call of `save_configuration`. -/
structure SaveCall where
  c : Configuration
  configNo : U32
  writes : Bool := true

section Calls

variable (lib : Libconfig)

/-- The file after a call; a call that fails leaves it as it was. -/
def saveStep (file : File) (call : SaveCall) : Option File :=
  match saveConfiguration lib call.writes file call.c call.configNo with
  | .ok file => some file
  | .error _ => some file

/-- A successful call loses nothing. -/
def KeepsAll (file : File) (call : SaveCall) : Prop :=
  ∀ t u, file = .parsed t →
    saveConfiguration lib call.writes file call.c call.configNo = .ok (.parsed u) →
    NothingLost lib t u

/-- A call that succeeds has a number that covers the count. -/
def Covers (file : File) (call : SaveCall) : Prop :=
  match file with
  | .parsed t =>
    (saveConfiguration lib call.writes file call.c call.configNo).toBool = true →
      CountCovers t call.configNo.toInt
  | _ => True

instance (file : File) (call : SaveCall) : Decidable (Covers lib file call) :=
  match file with
  | .parsed _ => inferInstanceAs (Decidable (_ = true → _))
  | .missing => instDecidableTrue
  | .unparsable => instDecidableTrue

variable {lib}

theorem keepsAll_call (doc : lib.Documented) (file : File) (call : SaveCall) :
    KeepsAll lib file call ↔ Covers lib file call := by
  cases file with
  | missing => exact iff_of_true (fun t u h => by cases h) trivial
  | unparsable => exact iff_of_true (fun t u h => by cases h) trivial
  | parsed t =>
      constructor
      · intro keeps succeeds
        obtain ⟨file, ok⟩ := exists_of_toBool succeeds
        obtain ⟨u, rfl, saved⟩ := saveConfiguration_ok doc ok
        exact (saved.nothingLost_iff doc).mp (keeps t u rfl ok)
      · rintro covers t u ⟨⟩ ok
        obtain ⟨v, same, saved⟩ := saveConfiguration_ok doc ok
        cases same
        exact (saved.nothingLost_iff doc).mpr (covers (by rw [ok]; rfl))

/-- **Nothing is lost by saving.**  In every sequence of calls, every successful call keeps
what was loaded and does not lower the count, exactly if its number covers the count. -/
theorem keepsAll_iff (doc : lib.Documented) (file : File) (calls : List SaveCall) :
    Meets (saveStep lib) (KeepsAll lib) file calls ↔
      Meets (saveStep lib) (Covers lib) file calls :=
  meets_congr (I := fun _ => True) (fun _ _ _ _ _ _ => trivial)
    (fun file call _ _ _ => keepsAll_call doc file call) trivial

/-- In a sequence of such calls the count never goes down, and what is loaded at the start is
loaded to the end. -/
theorem nothingLost_throughout (doc : lib.Documented) {t : Setting} {calls : List SaveCall}
    (covers : Meets (saveStep lib) (Covers lib) (.parsed t) calls) :
    Throughout (saveStep lib) (fun file => ∃ u, file = .parsed u ∧ NothingLost lib t u)
      (.parsed t) calls := by
  refine covers.throughout ?_ (fun _ kept => kept) ⟨t, rfl, .refl lib t⟩
  rintro _ call file ⟨u, rfl, kept⟩ allowed taken
  unfold saveStep at taken
  split at taken
  · rename_i saved ok
    cases taken
    obtain ⟨v, rfl, -⟩ := saveConfiguration_ok doc ok
    exact ⟨v, rfl, kept.trans ((keepsAll_call doc _ call).mpr allowed u v rfl ok)⟩
  · -- a call that fails
    cases taken
    exact ⟨u, rfl, kept⟩

end Calls

/-- Numbers 1 and 4 are saved in a file without configurations; number 1 a second time fails. -/
theorem keepsAll_sample :
    Meets (saveStep .manual) (KeepsAll .manual) (.parsed (sampleFile 0 []))
      [⟨sampleConfiguration, 1, true⟩, ⟨sampleConfiguration, 4, true⟩,
       ⟨sampleConfiguration, 1, true⟩] :=
  (keepsAll_iff Libconfig.manual_documented _ _).mpr (by decide +kernel)

/-- Number 1 is loaded; saving number 0 sets the count to one, and it is gone. -/
theorem saving_lowers_count :
    let t := sampleFile 2 [("config1", sampleGroup)]
    (∃ d, Loads .manual t 1 d) ∧
      ¬ Meets (saveStep .manual) (KeepsAll .manual) (.parsed t)
        [⟨sampleConfiguration, 0, true⟩] := by
  intro t
  obtain ⟨after, read⟩ := (readFileInBuffers_ok_iff Libconfig.manual_documented .cleared).mpr
    (by decide +kernel : FileFits t)
  refine ⟨⟨_, by decide +kernel, by decide +kernel, after, read, rfl⟩, fun keeps => ?_⟩
  have call := (keeps _ rfl).1
  rw [keepsAll_call Libconfig.manual_documented] at call
  exact absurd call (by decide +kernel)

end Cjunk.Settings
