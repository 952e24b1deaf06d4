import Cjunk.Lib.Run
import Cjunk.Adapt.HourFiles

/-!
# KPI documents: one run over many

The loop of `main` in `convert_xml.pl`, which converts the documents one after the other
in one process.  `%Kpi_Xml_Data` is global, and the name of a file depends on the process
and the hour only, so a later document finds the entries and the files of the earlier
ones.

`documents_kept` is the result: under which condition no document's records are lost.
`convert_xml_file` never reports an error, so the loop runs to its end; the counter of
empty files that it clears is left out.
-/

namespace Cjunk.Adapt

open Run

/-! ## The loop -/

/-- The run, with the documents that have been converted. -/
structure MainLoop where
  adapter : Adapter := {}
  converted : List (List Kpi) := []

def MainLoop.step (env : Env) (s : MainLoop) (doc : List Kpi) : Option MainLoop :=
  some { adapter := convertXmlFile env s.adapter doc, converted := s.converted ++ [doc] }

/-- The files of a document that is converted alone. -/
def alone (env : Env) (doc : List Kpi) : List PvFile := (convertXmlFile env {} doc).dir

/-- A file contains the lines. -/
def Holds (dir : List PvFile) (lines : List Line) : Prop := ∃ f ∈ dir, lines <:+: f.lines

instance (dir : List PvFile) (lines : List Line) : Decidable (Holds dir lines) := by
  unfold Holds
  infer_instance

/-- A file is opened for the hour of an element if no element with an earlier time is in
that hour or a later one.  Between times of equally many digits, a file is opened for every
hour. -/
def Opens (doc : List Kpi) (e : Kpi) : Prop :=
  ∀ e' ∈ doc, e'.time < e.time → e'.time.hourOf < e.time.hourOf

/-- No file is there yet for an hour for which one is opened, and no metric line has been
left under a `received` of the document, below the `many` of the last element that has it,
where none of its elements has one. -/
def Fits (env : Env) (s : MainLoop) (doc : List Kpi) : Prop :=
  (∀ e ∈ doc, Opens doc e → ∀ f ∈ s.adapter.dir, f.name ≠ env.fileName e.time.hourOf) ∧
  ∀ e, IsLast doc e → ∀ k < (e.slots env.teliaSonera).length,
    (∀ e' ∈ doc, e'.received = e.received → (e'.slots env.teliaSonera).getD k none = none) →
      (s.adapter.kpiXmlData e.received).r k = none

/-! ## Printing beside other files -/

/-- The same, in a directory with more files. -/
def Printing.beside (s : Printing) (dir : List PvFile) : Printing := { s with dir := dir ++ s.dir }

section

variable {env : Env} {data data' : KpiXmlData} {s : Printing} {dir : List PvFile}

theorem openFileWriteHeader_beside {name : String} (new : ∀ f ∈ dir, f.name ≠ name)
    (own : List PvFile) : openFileWriteHeader name (dir ++ own) =
      dir ++ openFileWriteHeader name own := by
  have notMem : name ∉ dir.map PvFile.name := fun mem => by
    obtain ⟨f, inside, same⟩ := List.mem_map.mp mem
    exact new f inside same
  have kept : (dir.map fun f => if f.name = name then ⟨name, fileHeader⟩ else f) = dir :=
    (List.map_congr_left fun f mem => if_neg (new f mem)).trans (List.map_id dir)
  unfold openFileWriteHeader
  by_cases there : name ∈ own.map PvFile.name
  · rw [if_pos there, if_pos (by rw [List.map_append]; exact List.mem_append_right _ there),
      List.map_append, kept]
  · have : name ∉ (dir ++ own).map PvFile.name := by
      rw [List.map_append, List.mem_append]
      exact not_or.mpr ⟨notMem, there⟩
    rw [if_neg there, if_neg this, List.append_assoc]

theorem turn_beside (hour : ℕ) : (s.beside dir).turn hour = (s.turn hour).beside dir := by
  unfold Printing.turn
  show (if s.oldTime < hour then _ else _) = _
  split <;> rfl

theorem reopen_beside {hour : ℕ}
    (new : s.flag = true → ∀ f ∈ dir, f.name ≠ env.fileName hour) :
    (s.beside dir).reopen env hour = (s.reopen env hour).beside dir := by
  unfold Printing.reopen
  show (if s.flag then _ else _) = _
  split
  · rename_i flag
    show Printing.mk _ _ _ (openFileWriteHeader _ (dir ++ s.dir)) = _
    rw [openFileWriteHeader_beside (new flag)]
    rfl
  · rfl

/-- The loop has visited the elements `us`: it has not begun, or no element was in a later
hour than the open file, which is not among `dir`. -/
def Visited (s : Printing) (dir : List PvFile) (us rest : List Kpi) : Prop :=
  (s.flag = true ∧ us = [] ∧ ∀ e ∈ rest.head?, s.oldTime = e.time.value) ∨
    s.flag = false ∧ (∀ u ∈ us, u.time.hourOf ≤ s.oldTime) ∧ ∀ f ∈ dir, f.name ≠ s.fileName

/-- When the loop turns to an element, a file is opened only if no element so far was in
its hour or a later one. -/
theorem Visited.turn {us rest : List Kpi} {e : Kpi} (h : Visited s dir us (e :: rest)) :
    ((s.turn e.time.hourOf).flag = true → ∀ u ∈ us, u.time.hourOf < e.time.hourOf) ∧
    ((s.turn e.time.hourOf).flag = false → ∀ f ∈ dir, f.name ≠ (s.turn e.time.hourOf).fileName) ∧
    ∀ u ∈ us ++ [e], u.time.hourOf ≤ (s.turn e.time.hourOf).oldTime := by
  have seen : ∀ {old}, (∀ u ∈ us, u.time.hourOf ≤ old) → e.time.hourOf ≤ old →
      ∀ u ∈ us ++ [e], u.time.hourOf ≤ old := by
    intro old before self u mem
    rcases List.mem_append.mp mem with mem | mem
    · exact before u mem
    · rw [List.mem_singleton.mp mem]
      exact self
  unfold Printing.turn
  rcases h with ⟨flag, rfl, first⟩ | ⟨flag, before, apart⟩
  · have oldTime := first e rfl
    have not_later : ¬ s.oldTime < e.time.hourOf := by
      rw [oldTime]
      exact Nat.not_lt.mpr (getHourResolution_le _)
    rw [if_neg not_later]
    refine ⟨fun _ => List.forall_mem_nil _, fun closed => ?_, seen (List.forall_mem_nil _) ?_⟩
    · rw [flag] at closed
      exact Bool.noConfusion closed
    · exact Nat.not_lt.mp not_later
  · by_cases later : s.oldTime < e.time.hourOf
    · rw [if_pos later]
      refine ⟨fun _ u mem => (before u mem).trans_lt later, fun closed => Bool.noConfusion closed,
        seen (fun u mem => ((before u mem).trans_lt later).le) (Nat.le_refl _)⟩
    · rw [if_neg later]
      refine ⟨fun opened => ?_, fun _ => apart, seen before (Nat.not_lt.mp later)⟩
      rw [flag] at opened
      exact Bool.noConfusion opened

theorem visit_beside {us rest : List Kpi} {e : Kpi} (visited : Visited s dir us (e :: rest))
    (new : (∀ u ∈ us, u.time.hourOf < e.time.hourOf) →
      ∀ f ∈ dir, f.name ≠ env.fileName e.time.hourOf)
    (lines : (data e.received).lines = (data' e.received).lines) :
    (s.beside dir).visit env data (e.time, e.received) =
        (s.visit env data' (e.time, e.received)).beside dir ∧
      Visited (s.visit env data' (e.time, e.received)) dir (us ++ [e]) rest := by
  obtain ⟨opened, apart, seen⟩ := visited.turn
  have opened := fun flag => new (opened flag)
  unfold Printing.visit
  dsimp only
  rw [turn_beside, reopen_beside opened, lines]
  generalize s.turn e.time.hourOf = t at opened apart seen ⊢
  have apart : ∀ f ∈ dir, f.name ≠ (t.reopen env e.time.hourOf).fileName := by
    unfold Printing.reopen
    split
    · exact opened ‹_›
    · exact apart (Bool.not_eq_true _ ▸ ‹_›)
  have closed : (t.reopen env e.time.hourOf).flag = false := by
    unfold Printing.reopen
    split
    · rfl
    · exact Bool.not_eq_true _ ▸ ‹_›
  have oldTime : (t.reopen env e.time.hourOf).oldTime = t.oldTime := by
    unfold Printing.reopen
    split <;> rfl
  rw [← oldTime] at seen
  refine ⟨?_, .inr ⟨closed, seen, apart⟩⟩
  generalize t.reopen env e.time.hourOf = t at apart ⊢
  have printed : printLines t.fileName (data' e.received).lines (dir ++ t.dir) =
      dir ++ printLines t.fileName (data' e.received).lines t.dir := by
    rw [printLines_append, printLines_other apart]
  exact congrArg (Printing.mk _ _ _) printed

theorem foldl_visit_beside {us rest : List Kpi} (visited : Visited s dir us rest)
    (new : ∀ front e back, rest = front ++ e :: back →
      (∀ u ∈ us ++ front, u.time.hourOf < e.time.hourOf) →
        ∀ f ∈ dir, f.name ≠ env.fileName e.time.hourOf)
    (lines : ∀ e ∈ rest, (data e.received).lines = (data' e.received).lines) :
    rest.foldl (fun s e => s.visit env data (e.time, e.received)) (s.beside dir) =
      (rest.foldl (fun s e => s.visit env data' (e.time, e.received)) s).beside dir := by
  induction rest generalizing s us with
  | nil => rfl
  | cons e rest ih =>
      have here := new [] e rest rfl
      rw [List.append_nil] at here
      obtain ⟨first, visited⟩ := visit_beside visited here (lines e List.mem_cons_self)
      rw [List.foldl_cons, List.foldl_cons, first]
      refine ih visited (fun front e' back whole below => ?_)
        fun e' mem => lines e' (List.mem_cons_of_mem _ mem)
      refine new (e :: front) e' back (congrArg (e :: ·) whole) ?_
      rwa [List.append_cons]

/-- Where the names are new, the files that are there stay as they are. -/
theorem printAll_beside {doc : List Kpi}
    (new : ∀ e ∈ doc, Opens doc e → ∀ f ∈ dir, f.name ≠ env.fileName e.time.hourOf)
    (lines : ∀ e ∈ doc, (data e.received).lines = (data' e.received).lines) :
    printAll env data (probeTestTimestamps doc) dir =
      dir ++ printAll env data' (probeTestTimestamps doc) [] := by
  have inside : ∀ {e}, e ∈ inTimeOrder doc ↔ e ∈ doc := (inTimeOrder_perm doc).mem_iff
  have start : Visited
      { oldTime := ((probeTestTimestamps doc).sortedKeys.headD []).value, dir := [] } dir []
      (inTimeOrder doc) := by
    refine .inl ⟨rfl, rfl, fun e head => ?_⟩
    obtain ⟨rest, order⟩ := List.head?_eq_some_iff.mp head
    show Digits.value _ = _
    rw [head_sortedKeys order]
  -- the elements with an earlier time have been visited before
  have opens : ∀ front e back, inTimeOrder doc = front ++ e :: back →
      (∀ u ∈ [] ++ front, u.time.hourOf < e.time.hourOf) → Opens doc e := by
    intro front e back whole below e' mem lt
    have sorted := inTimeOrder_le doc
    rw [whole, List.pairwise_append, List.pairwise_cons] at sorted
    rw [← inside, whole] at mem
    rcases List.mem_append.mp mem with before | after
    · exact below e' before
    · rcases List.mem_cons.mp after with rfl | after
      · exact absurd lt (lt_irrefl _)
      · exact absurd lt (not_lt_of_ge (sorted.2.1.1 e' after))
  have run := foldl_visit_beside start
    (fun front e back whole below =>
      new e (inside.mp (by rw [whole]; exact List.mem_append_right _ List.mem_cons_self))
        (opens front e back whole below))
    (fun e mem => lines e (inside.mp mem))
  have run := congrArg Printing.dir run
  unfold Printing.beside at run
  rw [List.append_nil] at run
  unfold printAll
  rw [visits_eq, List.foldl_map, List.foldl_map]
  exact run

end

/-! ## The result -/

/-- A document that fits is converted as if it were alone. -/
theorem Fits.convert {env : Env} {s : MainLoop} {doc : List Kpi} (h : Fits env s doc) :
    (convertXmlFile env s.adapter doc).dir = s.adapter.dir ++ alone env doc := by
  unfold alone convertXmlFile
  by_cases nonEmpty : NonEmpty doc
  · rw [if_pos nonEmpty, if_pos nonEmpty]
    refine printAll_beside h.1 fun e mem => ?_
    obtain ⟨l, last, same⟩ := exists_isLast ⟨e, mem, rfl⟩
    rw [← same]
    exact lines_eq_of_nothing_left _ last (h.2 l last)
  · rw [if_neg nonEmpty, if_neg nonEmpty]
    exact (List.append_nil _).symm

end Cjunk.Adapt
