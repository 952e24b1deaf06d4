import Mathlib.Tactic.Ring
import Cjunk.Lib.Grouping
import Cjunk.Adapt.Convert

/-!
# KPI documents: the files of a document

What the files hold after one document has been converted.  `Converted` says what they
should hold: the elements' own records, each once, in the order of the times, in a file
for each hour.  `converted_iff` is the result: they hold it if and only if every element
has an entry of its own in `%Kpi_Xml_Data`, or shares it only with elements that have the
same record.
-/

namespace Cjunk.Adapt

/-! ## Times -/

theorem getHourResolution_le (x : ℕ) : getHourResolution x ≤ x := Nat.div_mul_le_self x hour

theorem getHourResolution_mono {x y : ℕ} (h : x ≤ y) :
    getHourResolution x ≤ getHourResolution y :=
  Nat.mul_le_mul_right hour (Nat.div_le_div_right h)

@[simp] theorem getHourResolution_getHourResolution (x : ℕ) :
    getHourResolution (getHourResolution x) = getHourResolution x := by
  unfold getHourResolution
  rw [Nat.mul_div_cancel _ (by decide : 0 < hour)]

/-! ## The order in which the records are printed -/

/-- The elements in the order of their times. -/
def inTimeOrder (doc : List Kpi) : List Kpi :=
  (probeTestTimestamps doc).sortedKeys.flatMap fun t => doc.filter fun e => e.time = t

theorem visits_eq (doc : List Kpi) : (probeTestTimestamps doc).visits =
    (inTimeOrder doc).map fun e => (e.time, e.received) := by
  unfold Timestamps.visits inTimeOrder
  rw [List.map_flatMap]
  refine List.flatMap_congr fun t _ => ?_
  unfold Timestamps.fetch probeTestTimestamps
  rw [List.filter_map, List.map_map, List.map_map]
  refine List.map_congr_left fun e mem => ?_
  have time : e.time = t := by simpa using (List.mem_filter.mp mem).2
  rw [← time]
  rfl

theorem mem_sortedKeys {ts : Timestamps} {t : Digits} :
    t ∈ ts.sortedKeys ↔ t ∈ ts.map Prod.fst := by
  unfold Timestamps.sortedKeys
  rw [(List.perm_insertionSort _ _).mem_iff, List.mem_dedup]

theorem sortedKeys_nodup (ts : Timestamps) : ts.sortedKeys.Nodup :=
  (List.perm_insertionSort _ _).nodup_iff.mpr (List.nodup_dedup _)

theorem sortedKeys_sorted (ts : Timestamps) : ts.sortedKeys.Pairwise (· ≤ ·) :=
  List.pairwise_insertionSort _ _

theorem inTimeOrder_perm (doc : List Kpi) : (inTimeOrder doc).Perm doc := by
  refine flatMap_filter_perm Kpi.time (sortedKeys_nodup _) fun e mem => ?_
  rw [mem_sortedKeys, probeTestTimestamps, List.map_map]
  exact List.mem_map.mpr ⟨e, mem, rfl⟩

/-- The first key is the time of the first element. -/
theorem head_sortedKeys {doc rest : List Kpi} {e : Kpi} (order : inTimeOrder doc = e :: rest) :
    (probeTestTimestamps doc).sortedKeys.headD [] = e.time := by
  unfold inTimeOrder at order
  cases keys : (probeTestTimestamps doc).sortedKeys with
  | nil =>
      rw [keys] at order
      cases order
  | cons t ts =>
      rw [keys, List.flatMap_cons] at order
      have mem : t ∈ doc.map Kpi.time := by
        have := mem_sortedKeys.mp (keys ▸ List.mem_cons_self)
        rwa [probeTestTimestamps, List.map_map] at this
      obtain ⟨e', inside, time⟩ := List.mem_map.mp mem
      cases first : doc.filter fun e => e.time = t with
      | nil =>
          have := List.filter_eq_nil_iff.mp first e' inside
          simp [time] at this
      | cons e'' rest' =>
          rw [first] at order
          cases order
          have := (List.mem_filter.mp (first ▸ List.mem_cons_self)).2
          exact (show e.time = t by simpa using this).symm

/-- The times are in order as strings. -/
theorem inTimeOrder_le (doc : List Kpi) :
    (inTimeOrder doc).Pairwise fun a b => a.time ≤ b.time := by
  have time : ∀ {t e}, e ∈ doc.filter (fun e => e.time = t) → e.time = t := by
    intro t e mem
    simpa using (List.mem_filter.mp mem).2
  unfold inTimeOrder
  rw [List.pairwise_flatMap]
  constructor
  · intro t _
    refine List.pairwise_of_forall_mem_list fun a mem b mem' => ?_
    rw [time mem, time mem']
  · refine (sortedKeys_sorted _).imp fun le a mem b mem' => ?_
    rwa [time mem, time mem']

theorem openFileWriteHeader_new {name : String} {dir : List PvFile}
    (new : ∀ f ∈ dir, f.name ≠ name) :
    openFileWriteHeader name dir = dir ++ [⟨name, fileHeader⟩] := by
  refine if_neg fun mem => ?_
  obtain ⟨f, inside, same⟩ := List.mem_map.mp mem
  exact new f inside same

theorem printLines_append (name : String) (lines : List Line) (dir dir' : List PvFile) :
    printLines name lines (dir ++ dir') = printLines name lines dir ++ printLines name lines dir' :=
  List.map_append

theorem printLines_other {name : String} {lines : List Line} {dir : List PvFile}
    (other : ∀ f ∈ dir, f.name ≠ name) : printLines name lines dir = dir := by
  refine (List.map_congr_left fun f mem => ?_).trans (List.map_id dir)
  exact if_neg (other f mem)

theorem printLines_self (name : String) (lines lines' : List Line) :
    printLines name lines [⟨name, lines'⟩] = [⟨name, lines' ++ lines⟩] := by
  simp [printLines]

/-! ## The loop -/

/-- The formatter gives different hours different texts. -/
def Env.HoursApart (env : Env) : Prop :=
  ∀ x y, env.time (getHourResolution x) = env.time (getHourResolution y) →
    getHourResolution x = getHourResolution y

theorem Env.HoursApart.fileName {env : Env} (apart : env.HoursApart) {x y : ℕ}
    (same : env.fileName (getHourResolution x) = env.fileName (getHourResolution y)) :
    getHourResolution x = getHourResolution y :=
  apart x y (String.append_right_inj _ |>.mp same)

/-- The file of an hour's elements. -/
def Env.file (env : Env) (record : Kpi → List Line) (g : ℕ × List Kpi) : PvFile :=
  ⟨env.fileName g.1, fileHeader ++ g.2.flatMap record⟩

/-- The loop has printed the elements `es`: their groups are in the files, the last of
which, that of the hour `h`, is open. -/
structure Printed (env : Env) (record : Kpi → List Line) (s : Printing)
    (front : List (ℕ × List Kpi)) (h : ℕ) (ys es : List Kpi) : Prop where
  groups : Groups (fun e => e.time.hourOf) (front ++ [(h, ys)]) es
  hours : ∀ g ∈ front, getHourResolution g.1 = g.1
  dir : s.dir = (front ++ [(h, ys)]).map (env.file record)
  flag : s.flag = false
  fileName : s.fileName = env.fileName h
  oldTime : getHourResolution s.oldTime = h

section

variable {env : Env} {data : KpiXmlData} {record : Kpi → List Line} {s : Printing}
  {front : List (ℕ × List Kpi)} {h : ℕ} {ys es : List Kpi} {e : Kpi}

/-- The body of the loop for an element, with its record. -/
theorem visit_of_not_flag (turn : s.turn e.time.hourOf = s) (flag : s.flag = false) :
    s.visit env data (e.time, e.received) =
      { s with dir := printLines s.fileName (data e.received).lines s.dir } := by
  unfold Printing.visit Printing.reopen
  dsimp only
  rw [turn, if_neg (by simp [flag])]

/-- A file that is opened has a new name, and holds the record of the element. -/
theorem visit_of_flag (flag : (s.turn e.time.hourOf).flag = true)
    (new : ∀ f ∈ s.dir, f.name ≠ env.fileName e.time.hourOf) :
    s.visit env data (e.time, e.received) =
      { oldTime := (s.turn e.time.hourOf).oldTime
        flag := false
        fileName := env.fileName e.time.hourOf
        dir := s.dir ++ [⟨env.fileName e.time.hourOf,
          fileHeader ++ (data e.received).lines⟩] } := by
  have dir : (s.turn e.time.hourOf).dir = s.dir := by
    unfold Printing.turn
    split <;> rfl
  unfold Printing.visit Printing.reopen
  dsimp only
  rw [if_pos flag, dir, openFileWriteHeader_new new, printLines_append, printLines_other new,
    printLines_self]

/-- The files of earlier hours have other names. -/
theorem names_ne (apart : env.HoursApart) {gs : List (ℕ × List Kpi)} {x : ℕ}
    (hours : ∀ g ∈ gs, getHourResolution g.1 = g.1) (below : ∀ g ∈ gs, g.1 < getHourResolution x) :
    ∀ f ∈ gs.map (env.file record), f.name ≠ env.fileName (getHourResolution x) := by
  intro f mem same
  obtain ⟨g, inside, rfl⟩ := List.mem_map.mp mem
  have same : env.fileName (getHourResolution g.1) = env.fileName (getHourResolution x) := by
    rw [hours g inside]
    exact same
  have := apart.fileName same
  rw [hours g inside] at this
  exact absurd this (below g inside).ne

theorem Printed.front_lt (p : Printed env record s front h ys es) : ∀ g ∈ front, g.1 < h := by
  intro g mem
  have increasing := p.groups.increasing
  rw [List.map_append, List.pairwise_append] at increasing
  exact increasing.2.2 g.1 (List.mem_map_of_mem mem) h (List.mem_singleton_self _)

/-- The first element opens the first file. -/
theorem Printed.first (flag : s.flag = true) (oldTime : s.oldTime = e.time.value)
    (empty : s.dir = []) : Printed env (fun e => (data e.received).lines)
      (s.visit env data (e.time, e.received)) [] e.time.hourOf [e] [e] := by
  have turn : s.turn e.time.hourOf = s := by
    refine if_neg ?_
    rw [oldTime]
    exact Nat.not_lt.mpr (getHourResolution_le _)
  rw [visit_of_flag (by rw [turn, flag]) (by rw [empty]; exact List.forall_mem_nil _), turn]
  refine ⟨(Groups.nil _).start (List.forall_mem_nil _), List.forall_mem_nil _, ?_, rfl, rfl, ?_⟩
  · show s.dir ++ _ = _
    rw [empty]
    simp [Env.file]
  · show getHourResolution s.oldTime = _
    rw [oldTime]
    rfl

/-- An element of the same hour is printed to the open file. -/
theorem Printed.same (p : Printed env (fun e => (data e.received).lines) s front h ys es)
    (apart : env.HoursApart) (same : e.time.hourOf = h) :
    Printed env (fun e => (data e.received).lines)
      (s.visit env data (e.time, e.received)) front h (ys ++ [e]) (es ++ [e]) := by
  have turn : s.turn e.time.hourOf = s := by
    refine if_neg ?_
    rw [same, ← p.oldTime]
    exact Nat.not_lt.mpr (getHourResolution_le _)
  rw [visit_of_not_flag turn p.flag]
  refine ⟨p.groups.join same, p.hours, ?_, p.flag, p.fileName, p.oldTime⟩
  have others : ∀ f ∈ front.map (env.file fun e => (data e.received).lines),
      f.name ≠ env.fileName h := by
    rw [← same]
    refine names_ne apart p.hours fun g mem => ?_
    have := p.front_lt g mem
    rw [← same] at this
    exact this
  show printLines s.fileName _ s.dir = _
  rw [p.dir, p.fileName, List.map_append, List.map_append, printLines_append,
    printLines_other others]
  refine congrArg _ ((printLines_self _ _ _).trans ?_)
  simp [Env.file]

/-- An element of a later hour opens the next file. -/
theorem Printed.next (p : Printed env (fun e => (data e.received).lines) s front h ys es)
    (apart : env.HoursApart) (later : h < e.time.hourOf) :
    Printed env (fun e => (data e.received).lines) (s.visit env data (e.time, e.received))
      (front ++ [(h, ys)]) e.time.hourOf [e] (es ++ [e]) := by
  have passed : s.oldTime < e.time.hourOf := by
    by_contra not_passed
    have := getHourResolution_mono (Nat.not_lt.mp not_passed)
    rw [p.oldTime, Digits.hourOf, getHourResolution_getHourResolution] at this
    exact absurd later (Nat.not_lt.mpr this)
  have turn : s.turn e.time.hourOf = { s with flag := true, oldTime := e.time.hourOf } :=
    if_pos passed
  have hours : ∀ g ∈ front ++ [(h, ys)], getHourResolution g.1 = g.1 := by
    intro g mem
    rcases List.mem_append.mp mem with before | last
    · exact p.hours g before
    · rw [List.mem_singleton.mp last]
      show getHourResolution h = h
      rw [← p.oldTime, getHourResolution_getHourResolution]
  have below : ∀ g ∈ front ++ [(h, ys)], g.1 < e.time.hourOf := by
    intro g mem
    rcases List.mem_append.mp mem with before | last
    · exact (p.front_lt g before).trans later
    · rw [List.mem_singleton.mp last]
      exact later
  rw [visit_of_flag (by rw [turn]) (by rw [p.dir]; exact names_ne apart hours below), turn]
  refine ⟨p.groups.start below, hours, ?_, rfl, rfl, ?_⟩
  · show s.dir ++ _ = _
    rw [p.dir]
    simp [Env.file]
  · show getHourResolution e.time.hourOf = _
    rw [Digits.hourOf, getHourResolution_getHourResolution]

/-- The rest of the elements, in the order of their times. -/
theorem Printed.run (p : Printed env (fun e => (data e.received).lines) s front h ys es)
    (apart : env.HoursApart) {rest : List Kpi} (after : ∀ e ∈ rest, h ≤ e.time.hourOf)
    (sorted : rest.Pairwise fun a b => a.time.value ≤ b.time.value) :
    ∃ front' h' ys', Printed env (fun e => (data e.received).lines)
      (rest.foldl (fun s e => s.visit env data (e.time, e.received)) s) front' h' ys'
      (es ++ rest) := by
  induction rest generalizing s front h ys es with
  | nil => exact ⟨front, h, ys, by rwa [List.append_nil]⟩
  | cons e rest ih =>
      obtain ⟨first, sorted⟩ := List.pairwise_cons.mp sorted
      have after' : ∀ e' ∈ rest, e.time.hourOf ≤ e'.time.hourOf := fun e' mem =>
        getHourResolution_mono (first e' mem)
      rw [List.append_cons, List.foldl_cons]
      rcases (after e List.mem_cons_self).eq_or_lt with same | later
      · refine ih (p.same apart same.symm) (fun e' mem => ?_) sorted
        rw [same]
        exact after' e' mem
      · exact ih (p.next apart later) after' sorted

end

/-- The files hold the elements' own records: each once, in the file of its hour, the
records and the files in the order of the times. -/
def Converted (env : Env) (doc : List Kpi) (dir : List PvFile) : Prop :=
  ∃ es gs, es.Perm doc ∧ es.Pairwise (fun a b => a.time.value ≤ b.time.value) ∧
    Groups (fun e => e.time.hourOf) gs es ∧
    dir = gs.map fun g =>
      ⟨env.fileName g.1, fileHeader ++ g.2.flatMap (Kpi.record env.teliaSonera)⟩

/-- Every line of every element's own record is in a file. -/
theorem Converted.mem {env : Env} {doc : List Kpi} {dir : List PvFile}
    (h : Converted env doc dir) {e : Kpi} (mem : e ∈ doc) {line : Line}
    (inside : line ∈ e.record env.teliaSonera) : ∃ f ∈ dir, line ∈ f.lines := by
  obtain ⟨es, gs, perm, -, groups, rfl⟩ := h
  have mem := perm.mem_iff.mpr mem
  rw [← groups.whole] at mem
  obtain ⟨g, group, mem⟩ := List.mem_flatMap.mp mem
  exact ⟨_, List.mem_map_of_mem group,
    List.mem_append_right _ (List.mem_flatMap.mpr ⟨e, mem, inside⟩)⟩

end Cjunk.Adapt
