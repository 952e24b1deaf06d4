import Cjunk.Adapt.Convert

/-!
# Failure traps

`main` of `convert_xml.pl` over many runs of the program.  A run that fails to log in,
finds no file, or has invalid or empty documents, counts its failure in a database that the
next runs find (`limit_exceeded`, `clear_counter`), and sends a trap for more than `MAX`
failures in a row.

`traps_accounted_iff` is the result: the traps are sent when they should be exactly if never
more than `MAXEMPTYFILE` runs in a row have an empty document.  `convert_xml_file` returns
`OK` for it, so that kind of failure is never counted; the other three are counted and
cleared in the right places.

The database can be opened.  A run that dies before it knows about the login is like one
that finds the program still running.  The log and the removal of files are left out.
-/

namespace Cjunk.Adapt.FailureTraps

/-! ## The counters -/

/-- The kinds of failure, by the names of their counters. -/
inductive Kind where
  | loginfail
  | filefail
  | validfail
  | emptyfile
  deriving DecidableEq

def maxLogin : ℕ := 12

def maxInvalid : ℕ := 12

def maxFileFail : ℕ := 12

def maxEmptyFile : ℕ := 12

/-- The constant that a counter is compared with. -/
def Kind.max : Kind → ℕ
  | .loginfail => maxLogin
  | .filefail => maxFileFail
  | .validfail => maxInvalid
  | .emptyfile => maxEmptyFile

/-- `%Remember_This`: a counter of each kind, and the one for the daily report, whose name
begins with an `r`. -/
structure Remember where
  counter : Kind → ℕ := fun _ => 0
  reported : Kind → ℕ := fun _ => 0

/-- `limit_exceeded`. -/
def limitExceeded (k : Kind) (r : Remember) : Bool × Remember :=
  let r : Remember :=
    { counter := Function.update r.counter k (r.counter k + 1)
      reported := Function.update r.reported k (r.reported k + 1) }
  -- "Start it all over again ..."
  if k.max < r.counter k then (true, { r with counter := Function.update r.counter k 0 })
  else (false, r)

/-- `clear_counter`. -/
def clearCounter (k : Kind) (r : Remember) : Remember :=
  { r with counter := Function.update r.counter k 0 }

/-! ## A run of the program -/

/-- The traps that `main` sends. -/
inductive Trap where
  | faultyEnvironment
  | exceeded (k : Kind)
  deriving DecidableEq

/-- What `send_trap` is called with. -/
def Trap.message : Trap → String × String
  | .faultyEnvironment => ("Faulty environment", "Please check")
  | .exceeded .loginfail => ("FailedLogin", "Number login attempt exceeded")
  | .exceeded .filefail => ("FailedLogin", "No XML files fetched")
  | .exceeded .validfail => ("FailedValidate", "Invalid XML files from KPI...")
  | .exceeded .emptyfile => ("FailedEmptyFiles", "Empty XML files from KPI...")

/-- The messages tell the traps apart, though two have one subject. -/
theorem message_injective : Function.Injective Trap.message := by
  intro t u same
  rcases t with _ | k <;> rcases u with _ | l
  · rfl
  · cases l <;> simp [Trap.message] at same
  · cases k <;> simp [Trap.message] at same
  · cases k <;> cases l <;> simp [Trap.message] at same ⊢

/-- A document, and whether the program dies when it converts it. -/
structure Document where
  kpis : List Kpi
  dies : Bool := false

/-- What a run finds. -/
structure Fetch where
  /-- `still_running` -/
  stillRunning : Bool := false
  /-- `check_environment` -/
  faulty : Bool := false
  /-- `connect_2_kpi` -/
  loginFails : Bool := false
  /-- `check_files` -/
  noFiles : Bool := false
  /-- `validate_xml_files`: none if one of the files is invalid. -/
  documents : List Document := []

def ok : ℕ := 0

/-- What `convert_xml_file` returns, at its end and for an empty document. -/
def convertXmlFileReturns (doc : List Kpi) : ℕ := if NonEmpty doc then ok else ok

/-- A failure of a kind, and its trap. -/
def fails (k : Kind) (r : Remember) : List Trap × Remember :=
  if (limitExceeded k r).1 then ([.exceeded k], (limitExceeded k r).2)
  else ([], (limitExceeded k r).2)

/-- The loop over the files. -/
def convertFiles : List Document → Remember → List Trap × Remember
  | [], r => ([], r)
  | d :: ds, r =>
      if d.dies then ([], r)
      else if convertXmlFileReturns d.kpis ≠ 0 then fails .emptyfile r
      else convertFiles ds (clearCounter .emptyfile r)

/-- `main`. -/
def main (f : Fetch) (r : Remember) : List Trap × Remember :=
  if f.stillRunning then ([], r)
  else if f.faulty then ([.faultyEnvironment], r)
  else if f.loginFails then fails .loginfail r
  else
    let r := clearCounter .loginfail r
    if f.noFiles then fails .filefail r
    else
      let r := clearCounter .filefail r
      if f.documents.length < 1 then fails .validfail r
      else convertFiles f.documents (clearCounter .validfail r)

/-! ## Many runs -/

/-- A run, and the traps that it has sent. -/
structure Entry where
  fetch : Fetch
  traps : List Trap

/-- Runs one after the other, from what the first of them finds in the database. -/
def history : Remember → List Fetch → List Entry
  | _, [] => []
  | r, f :: fs => ⟨f, (main f r).1⟩ :: history (main f r).2 fs

/-- How a run ends for a kind of failure. -/
inductive Verdict where
  | failed
  | passed
  | unreached
  deriving DecidableEq

/-- Converting documents fails at the first that is empty. -/
def emptyVerdict : List Document → Verdict
  | [] => .passed
  | d :: ds =>
      if ¬ NonEmpty d.kpis then .failed else if d.dies then .unreached else emptyVerdict ds

/-- The kinds are checked one after the other, and a run that fails in one ends there. -/
def Fetch.verdict (f : Fetch) (k : Kind) : Verdict :=
  if f.stillRunning ∨ f.faulty then .unreached
  else if f.loginFails then if k = .loginfail then .failed else .unreached
  else if k = .loginfail then .passed
  else if f.noFiles then if k = .filefail then .failed else .unreached
  else if k = .filefail then .passed
  else if f.documents = [] then if k = .validfail then .failed else .unreached
  else if k = .validfail then .passed
  else emptyVerdict f.documents

/-- How many runs in a row have failed, after one more. -/
def Verdict.count (n : ℕ) : Verdict → ℕ
  | .failed => n + 1
  | .passed => 0
  | .unreached => n

/-- The same, if a trap begins the count anew. -/
def Entry.count (k : Kind) (n : ℕ) (x : Entry) : ℕ :=
  if .exceeded k ∈ x.traps then 0 else (x.fetch.verdict k).count n

/-- The runs in a row that have failed since the last that passed or sent a trap. -/
def streak (k : Kind) (h : List Entry) : ℕ := h.foldl (Entry.count k) 0

/-- A trap is sent in a run exactly if the run fails, and with it more than `MAX` in a row
have failed. -/
def Accounted (h : List Entry) : Prop :=
  ∀ k before x after, h = before ++ x :: after →
    (.exceeded k ∈ x.traps ↔ x.fetch.verdict k = .failed ∧ k.max < streak k before + 1)

/-- The runs in a row that have failed since the last that passed. -/
def failuresSince (k : Kind) (fs : List Fetch) : ℕ :=
  fs.foldl (fun n f => (f.verdict k).count n) 0

/-! ## One run -/

section

variable {f : Fetch} {r : Remember} {k : Kind}

/-- The counter of a kind after a failure of it. -/
theorem fails_self (k : Kind) (r : Remember) :
    (.exceeded k ∈ (fails k r).1 ↔ k.max < r.counter k + 1) ∧
      (fails k r).2.counter k = if k.max < r.counter k + 1 then 0 else r.counter k + 1 := by
  unfold fails limitExceeded
  by_cases exceeded : k.max < r.counter k + 1 <;> simp [exceeded]

@[simp] theorem clearCounter_self (k : Kind) (r : Remember) : (clearCounter k r).counter k = 0 :=
  Function.update_self ..

theorem clearCounter_other {l : Kind} (ne : k ≠ l) (r : Remember) :
    (clearCounter l r).counter k = r.counter k :=
  Function.update_of_ne ne ..

/-- A part of a run has nothing to do with a kind of failure. -/
def Quiet (k : Kind) (r : Remember) (out : List Trap × Remember) : Prop :=
  .exceeded k ∉ out.1 ∧ out.2.counter k = r.counter k

theorem quiet_fails {l : Kind} (ne : k ≠ l) (r : Remember) : Quiet k r (fails l r) := by
  unfold Quiet fails limitExceeded
  by_cases exceeded : l.max < r.counter l + 1 <;> simp [exceeded, ne]

theorem quiet_clear {l : Kind} {out : List Trap × Remember} (ne : k ≠ l)
    (quiet : Quiet k (clearCounter l r) out) : Quiet k r out :=
  ⟨quiet.1, quiet.2.trans (clearCounter_other ne r)⟩

/-- So has the check for another kind, if the rest of the run has. -/
theorem quiet_check {l : Kind} {failed : Prop} [Decidable failed] {rest : List Trap × Remember}
    (ne : k ≠ l) (quiet : Quiet k (clearCounter l r) rest) :
    Quiet k r (if failed then fails l r else rest) := by
  split
  · exact quiet_fails ne r
  · exact quiet_clear ne quiet

/-- The loop over the files sends no trap, and has nothing to do with the other kinds. -/
theorem convertFiles_run (ds : List Document) (r : Remember) : (convertFiles ds r).1 = [] ∧
    ∀ k ≠ .emptyfile, Quiet k r (convertFiles ds r) := by
  induction ds generalizing r with
  | nil => exact ⟨rfl, fun _ _ => ⟨by simp [convertFiles], rfl⟩⟩
  | cons d ds ih =>
      have returns : ¬ convertXmlFileReturns d.kpis ≠ 0 := by
        unfold convertXmlFileReturns ok
        simp
      unfold convertFiles
      rw [if_neg returns]
      split
      · exact ⟨rfl, fun _ _ => ⟨by simp, rfl⟩⟩
      · obtain ⟨sends, quiet⟩ := ih (clearCounter .emptyfile r)
        exact ⟨sends, fun k ne => quiet_clear ne (quiet k ne)⟩

/-- A run with this verdict has counted and sent what it should. -/
structure Counts (k : Kind) (v : Verdict) (r : Remember) (out : List Trap × Remember) : Prop where
  sent : .exceeded k ∈ out.1 ↔ v = .failed ∧ k.max < r.counter k + 1
  counter : out.2.counter k = if .exceeded k ∈ out.1 then 0 else v.count (r.counter k)

theorem counts_failed (k : Kind) (r : Remember) : Counts k .failed r (fails k r) := by
  obtain ⟨sent, counter⟩ := fails_self k r
  refine ⟨by simp [sent], ?_⟩
  simp [counter, sent, Verdict.count]

theorem counts_unreached {out : List Trap × Remember} (quiet : Quiet k r out) :
    Counts k .unreached r out :=
  ⟨by simp [quiet.1], by simp [quiet.1, quiet.2, Verdict.count]⟩

theorem counts_passed {out : List Trap × Remember} (quiet : Quiet k (clearCounter k r) out) :
    Counts k .passed r out :=
  ⟨by simp [quiet.1], by simp [quiet.1, quiet.2, Verdict.count]⟩

/-- A check for a kind of failure, before the rest of the run. -/
theorem counts_check {l : Kind} {failed : Prop} [Decidable failed] {v : Verdict}
    {rest : List Trap × Remember} (own : k = l → Quiet k (clearCounter l r) rest)
    (other : k ≠ l → Counts k v (clearCounter l r) rest) :
    Counts k (if failed then if k = l then .failed else .unreached
      else if k = l then .passed else v) r
      (if failed then fails l r else rest) := by
  by_cases same : k = l
  · subst same
    rw [if_pos rfl, if_pos rfl]
    split
    · exact counts_failed k r
    · exact counts_passed (own rfl)
  · rw [if_neg same, if_neg same]
    split
    · exact counts_unreached (quiet_fails same r)
    · obtain ⟨sent, counter⟩ := other same
      rw [clearCounter_other same] at sent counter
      exact ⟨sent, counter⟩

/-- A run counts the failures of a kind, and sends its traps. -/
theorem main_counts (counted : k ≠ .emptyfile) (f : Fetch) (r : Remember) :
    Counts k (f.verdict k) r (main f r) := by
  have files := fun r => (convertFiles_run f.documents r).2 k counted
  have none : f.documents = [] ↔ f.documents.length < 1 := by
    rw [Nat.lt_one_iff, List.length_eq_zero_iff]
  unfold main Fetch.verdict
  by_cases still : f.stillRunning
  · rw [if_pos still, if_pos (Or.inl still)]
    exact counts_unreached ⟨List.not_mem_nil, rfl⟩
  by_cases faulty : f.faulty
  · rw [if_neg still, if_pos faulty, if_pos (Or.inr faulty)]
    have apart : .exceeded k ∉ [Trap.faultyEnvironment] := by simp
    exact counts_unreached ⟨apart, rfl⟩
  rw [if_neg still, if_neg faulty, if_neg (not_or.mpr ⟨still, faulty⟩)]
  simp only [none]
  apply counts_check
  · rintro rfl
    apply quiet_check (by decide)
    apply quiet_check (by decide)
    exact files _
  intro notLogin
  apply counts_check
  · rintro rfl
    apply quiet_check (by decide)
    exact files _
  intro notFile
  apply counts_check
  · rintro rfl
    exact files _
  intro notValid
  cases k <;> contradiction

/-- No run sends a trap for empty documents. -/
theorem main_never (f : Fetch) (r : Remember) : .exceeded .emptyfile ∉ (main f r).1 := by
  unfold main
  dsimp only
  split_ifs
  · exact List.not_mem_nil
  · simp
  · exact (quiet_fails (by decide) _).1
  · exact (quiet_fails (by decide) _).1
  · exact (quiet_fails (by decide) _).1
  · rw [(convertFiles_run _ _).1]
    exact List.not_mem_nil

end

/-! ## Many runs -/

section

variable {r : Remember} {fs : List Fetch} {k : Kind}

/-- What the runs leave in the database. -/
def left (r : Remember) (fs : List Fetch) : Remember := fs.foldl (fun r f => (main f r).2) r

theorem history_append (r : Remember) (fs gs : List Fetch) :
    history r (fs ++ gs) = history r fs ++ history (left r fs) gs := by
  induction fs generalizing r with
  | nil => rfl
  | cons f fs ih => exact congrArg (List.cons _) (ih (main f r).2)

/-- A run among others. -/
theorem history_split {before after : List Entry} {x : Entry}
    (split : history r fs = before ++ x :: after) : ∃ gs f hs, fs = gs ++ f :: hs ∧
      before = history r gs ∧ x = ⟨f, (main f (left r gs)).1⟩ := by
  induction fs generalizing r before with
  | nil => simp [history] at split
  | cons f fs ih =>
      cases before with
      | nil =>
          obtain ⟨rfl, -⟩ := List.cons.inj split
          exact ⟨[], f, fs, rfl, rfl, rfl⟩
      | cons y before =>
          obtain ⟨rfl, rest⟩ := List.cons.inj split
          obtain ⟨gs, g, hs, rfl, rfl, rfl⟩ := ih rest
          exact ⟨f :: gs, g, hs, rfl, rfl, rfl⟩

theorem streak_concat (k : Kind) (h : List Entry) (x : Entry) :
    streak k (h ++ [x]) = x.count k (streak k h) :=
  List.foldl_append

theorem failuresSince_concat (k : Kind) (fs : List Fetch) (f : Fetch) :
    failuresSince k (fs ++ [f]) = (f.verdict k).count (failuresSince k fs) :=
  List.foldl_append

/-- A kind that is counted has its streak in the database. -/
theorem counter_left (counted : k ≠ .emptyfile) (fs : List Fetch) :
    (left {} fs).counter k = streak k (history {} fs) := by
  induction fs using List.reverseRecOn with
  | nil => rfl
  | append_singleton fs f ih =>
      have next : left {} (fs ++ [f]) = (main f (left {} fs)).2 := List.foldl_append
      rw [next, (main_counts counted f (left {} fs)).counter, ih, history_append]
      exact (streak_concat k (history {} fs) ⟨f, (main f (left {} fs)).1⟩).symm

/-- Runs in a row with an empty document are never interrupted by a trap. -/
theorem streak_emptyfile (r : Remember) (fs : List Fetch) :
    streak .emptyfile (history r fs) = failuresSince .emptyfile fs := by
  induction fs using List.reverseRecOn with
  | nil => rfl
  | append_singleton fs f ih =>
      rw [history_append, failuresSince_concat, ← ih]
      refine (streak_concat _ _ _).trans ?_
      exact if_neg (main_never f _)

/-- A kind that is counted is accounted for in every run. -/
theorem sent_iff_of_counted (counted : k ≠ .emptyfile) (fs : List Fetch) (f : Fetch) :
    .exceeded k ∈ (main f (left {} fs)).1 ↔
      f.verdict k = .failed ∧ k.max < streak k (history {} fs) + 1 := by
  rw [← counter_left counted]
  exact (main_counts counted f (left {} fs)).sent

/-- If all runs are accounted for, no trap for empty documents was ever due. -/
theorem failuresSince_le (accounted : Accounted (history {} fs)) (gs : List Fetch)
    (isPrefix : gs <+: fs) : failuresSince .emptyfile gs ≤ maxEmptyFile := by
  induction gs using List.reverseRecOn with
  | nil => exact Nat.zero_le _
  | append_singleton gs f ih =>
      have before := ih ((List.prefix_append gs [f]).trans isPrefix)
      obtain ⟨hs, rfl⟩ := isPrefix
      rw [failuresSince_concat]
      cases verdict : f.verdict .emptyfile with
      | passed => exact Nat.zero_le _
      | unreached => exact before
      | failed =>
          by_contra long
          have split : history {} (gs ++ [f] ++ hs) = history {} gs ++
              ⟨f, (main f (left {} gs)).1⟩ :: history (left {} (gs ++ [f])) hs := by
            rw [history_append, history_append, List.append_assoc]
            rfl
          rw [Verdict.count, not_le, ← streak_emptyfile {} gs] at long
          exact main_never f _ ((accounted .emptyfile _ _ _ split).mpr ⟨verdict, long⟩)

end

/-- **Failure traps.**  The traps of a sequence of runs are accounted for exactly if never
more than `MAXEMPTYFILE` runs in a row have an empty document. -/
theorem traps_accounted_iff (fs : List Fetch) : Accounted (history {} fs) ↔
    ∀ gs, gs <+: fs → failuresSince .emptyfile gs ≤ maxEmptyFile := by
  refine ⟨failuresSince_le, fun short k before x after split => ?_⟩
  obtain ⟨gs, f, hs, rfl, rfl, rfl⟩ := history_split split
  by_cases counted : k = .emptyfile
  · subst counted
    refine iff_of_false (main_never f (left {} gs)) ?_
    rintro ⟨failed, long⟩
    have run := short (gs ++ [f]) ⟨hs, by simp⟩
    rw [failuresSince_concat, failed] at run
    rw [streak_emptyfile] at long
    exact absurd long (not_lt.mpr run)
  · exact sent_iff_of_counted counted gs f

/-- A run that fetches one document without an element. -/
def emptyFeed : Fetch where
  documents := [⟨[], false⟩]

/-- The thirteenth run in a row that fetches an empty document sends no trap. -/
theorem empty_feed_not_accounted : ¬ Accounted (history {} (List.replicate 13 emptyFeed)) := by
  intro accounted
  have due := (accounted .emptyfile (history {} (List.replicate 12 emptyFeed)) ⟨emptyFeed, []⟩ []
    rfl).mpr (by decide)
  cases due

end Cjunk.Adapt.FailureTraps
