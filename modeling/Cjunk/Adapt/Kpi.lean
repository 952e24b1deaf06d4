import Mathlib.Data.List.Basic
import Mathlib.Data.List.Infix
import Mathlib.Data.List.ReduceOption
import Mathlib.Logic.Function.Basic

/-!
# KPI documents: elements and records

What `convert_xml_file` of `convert_xml.pl` makes of one `kpi` element of a document: the
entry of `%Kpi_Xml_Data` under the element's `received`, and the record that is printed
from it, six header lines and the metric lines.

A printed line is kept with the data in it; the fixed text around them, and the
formatting of the times in it, are left out.  `$XML->{kpi}[$i]` is an XML::Smart node: a
missing text is the empty string.  The table `%TeliaSonera` is a parameter.
-/

namespace Cjunk.Adapt

/-- A time in seconds as the document has it, in decimal digits. -/
abbrev Digits := List (Fin 10)

/-- The number a time stands for. -/
def Digits.value (t : Digits) : ℕ := t.foldl (fun n (d : Fin 10) => 10 * n + d.val) 0

/-- `r`: a metric, its attribute `n` and its text. -/
structure Metric where
  n : String
  text : String
  deriving DecidableEq

/-- `kpi`, with the members of its `kpi-descr`. -/
structure Kpi where
  received : String
  sn : String := ""
  ss : String := ""
  contentTag : String := ""
  module : String := ""
  time : Digits
  source : String := ""
  destination : String := ""
  r : List Metric := []
  deriving DecidableEq

/-- A line of a PVline file. -/
inductive Line where
  /-- A line of the file's header. -/
  | fixed (text : String)
  /-- `# received :` -/
  | rcvd (received : String)
  /-- `OPTION:Element=` -/
  | src (sn : String)
  /-- `| Family | alias |` -/
  | connector (time : Digits) (targetName : String)
  /-- `| ss | alias |` -/
  | ss (time : Digits) (targetName ss : String)
  /-- `| content-tag | alias |` -/
  | contentTag (time : Digits) (targetName contentTag : String)
  /-- `| module | alias |` -/
  | module (time : Digits) (targetName module : String)
  /-- `| path | alias |` with the metric's type and value. -/
  | metric (time : Digits) (absFormulaPath targetName metricType value : String)
  deriving DecidableEq

/-! ## The text functions -/

/-- `ws_2_ul`. -/
def ws2Ul (x : String) : String := .ofList (x.toList.map fun c => if c = ' ' then '_' else c)

/-- `get_metric_type`: `/(\-)*(\d|\.)+/` and `/(\w)+/` ask for one such character. -/
def getMetricType (test : String) : Option String :=
  if test.toList.any fun c => c.isDigit || c = '.' then some "float"
  else if test.toList.any fun c => c.isAlphanum || c = '_' then some "string"
  else none

/-- `$test =~ /[dD]+elay/` and its like: the word occurs, with a small or a capital letter. -/
def hasWord (small capital : Char) (rest test : String) : Bool :=
  (small :: rest.toList) <:+: test.toList ∨ (capital :: rest.toList) <:+: test.toList

/-- `get_directory`. -/
def getDirectory (test : String) : String :=
  if hasWord 'd' 'D' "elay" test then "Delay~"
  else if hasWord 'l' 'L' "atency" test then "Delay~"
  else if hasWord 'j' 'J' "itter" test then "Jitter~"
  else if hasWord 'l' 'L' "ost" test then "Loss~"
  else "Misc~"

def formulaPath : String := "PS~Bulk~Brix~"

section

-- `%TeliaSonera`: the names of the probes that have one
variable (teliaSonera : String → Option String)

/-- `translate_probe`. -/
def translateProbe (x : String) : String := (teliaSonera x).getD x

/-- The pair of cities; Nordic net has an extra underline between them. -/
def Kpi.targetName (e : Kpi) : String :=
  let between := if "Nordic".toList <:+: e.sn.toList then "__" else "_"
  translateProbe teliaSonera e.source ++ between ++ translateProbe teliaSonera e.destination

/-- The line of a metric, if it has a type. -/
def Kpi.metricLine (e : Kpi) (m : Metric) : Option Line :=
  (getMetricType m.text).map fun metricType =>
    .metric e.time (formulaPath ++ getDirectory m.n ++ m.n) (e.targetName teliaSonera)
      metricType m.text

/-- The result code: the text of the first `r` with `n` equal to `result`. -/
def Kpi.result (e : Kpi) : String := ((e.r.find? fun m => m.n = "result").map Metric.text).getD ""

/-- The metrics that are converted: all of them if the result is 0, else the last one. -/
def Kpi.converted (e : Kpi) : List Metric :=
  if e.result = "0" then e.r else [e.r.getLastD ⟨"", ""⟩]

/-- The lines `$Kpi_Xml_Data{received}->{r}->{$k}` that an element has, by `$k`. -/
def Kpi.slots (e : Kpi) : List (Option Line) := e.converted.map (e.metricLine teliaSonera)

/-- The header lines of a record, in the order in which they are printed. -/
def Kpi.header (e : Kpi) : List Line :=
  let targetName := e.targetName teliaSonera
  [.rcvd e.received, .src (ws2Ul e.sn), .connector e.time targetName,
    .ss e.time targetName (ws2Ul e.ss), .contentTag e.time targetName (ws2Ul e.contentTag),
    .module e.time targetName e.module]

/-- An element's own record. -/
def Kpi.record (e : Kpi) : List Line := e.header teliaSonera ++ (e.slots teliaSonera).reduceOption

end

/-! ## `%Kpi_Xml_Data` -/

/-- An entry: the header lines, `many`, and the lines `r` by number. -/
structure Entry where
  header : List Line := []
  many : ℕ := 0
  r : ℕ → Option Line := fun _ => none

/-- What is printed of an entry. -/
def Entry.lines (entry : Entry) : List Line :=
  entry.header ++ (List.range entry.many).filterMap entry.r

/-- `%Kpi_Xml_Data`, by `received`. -/
abbrev KpiXmlData := String → Entry

section

variable (teliaSonera : String → Option String)

/-- An element writes its header lines, `many`, and those of its metric lines that it has,
over whatever the entry holds. -/
def Kpi.over (e : Kpi) (old : Entry) : Entry where
  header := e.header teliaSonera
  many := e.converted.length
  r := fun k => ((e.slots teliaSonera).getD k none).or (old.r k)

/-- An element is stored under its `received`. -/
def store (data : KpiXmlData) (e : Kpi) : KpiXmlData :=
  Function.update data e.received (e.over teliaSonera (data e.received))

/-- A document is stored element by element. -/
def storeAll (data : KpiXmlData) (doc : List Kpi) : KpiXmlData :=
  doc.foldl (store teliaSonera) data

end

/-- The element is the last of the document that has its `received`. -/
def IsLast (doc : List Kpi) (e : Kpi) : Prop :=
  ∃ pre post, doc = pre ++ e :: post ∧ ∀ e' ∈ post, e'.received ≠ e.received

theorem IsLast.mem {doc : List Kpi} {e : Kpi} (h : IsLast doc e) : e ∈ doc := by
  obtain ⟨pre, post, rfl, -⟩ := h
  exact List.mem_append_right _ List.mem_cons_self

/-! ## What an entry holds -/

section

variable {teliaSonera : String → Option String} (data : KpiXmlData) {doc : List Kpi}

theorem storeAll_append (doc' : List Kpi) : storeAll teliaSonera data (doc ++ doc') =
    storeAll teliaSonera (storeAll teliaSonera data doc) doc' :=
  List.foldl_append

theorem storeAll_of_notMem {received : String} (none : ∀ e ∈ doc, e.received ≠ received) :
    storeAll teliaSonera data doc received = data received := by
  induction doc generalizing data with
  | nil => rfl
  | cons e doc ih =>
      refine (ih _ fun e' mem => none e' (List.mem_cons_of_mem _ mem)).trans ?_
      exact Function.update_of_ne (none e List.mem_cons_self).symm _ _

/-- The last element with a `received` is stored over what the earlier ones have left. -/
theorem storeAll_last {e : Kpi} (last : IsLast doc e) :
    ∃ old, storeAll teliaSonera data doc e.received = e.over teliaSonera old := by
  obtain ⟨pre, post, rfl, later⟩ := last
  refine ⟨storeAll teliaSonera data pre e.received, ?_⟩
  rw [storeAll_append]
  refine (storeAll_of_notMem _ later).trans ?_
  exact Function.update_self _ _ _

/-- A metric line is there if the entry had it before or an element has written it. -/
theorem storeAll_r_eq_none {received : String} {k : ℕ} :
    (storeAll teliaSonera data doc received).r k = none ↔ (data received).r k = none ∧
      ∀ e ∈ doc, e.received = received → (e.slots teliaSonera).getD k none = none := by
  induction doc generalizing data with
  | nil => simp [storeAll]
  | cons e doc ih =>
      have stored : ((store teliaSonera data e) received).r k = none ↔
          (data received).r k = none ∧
            (e.received = received → (e.slots teliaSonera).getD k none = none) := by
        unfold store
        by_cases here : received = e.received
        · subst here
          rw [Function.update_self]
          simp [Kpi.over, Option.or_eq_none_iff, and_comm]
        · rw [Function.update_of_ne here]
          simp [Ne.symm here]
      rw [List.forall_mem_cons]
      refine (ih _).trans ?_
      rw [stored, and_assoc]

/-! ## Records as blocks -/

/-- The line that a record begins with. -/
def Line.Starts (line : Line) : Prop := ∃ received, line = .rcvd received

/-- The entry has metric lines only. -/
def Entry.Plain (entry : Entry) : Prop := ∀ k line, entry.r k = some line → ¬ line.Starts

theorem Kpi.not_starts_of_slots {e : Kpi} {k : ℕ} {line : Line}
    (slot : (e.slots teliaSonera).getD k none = some line) : ¬ line.Starts := by
  have mem : some line ∈ e.slots teliaSonera := by
    rw [List.getD_eq_getElem?_getD] at slot
    cases h : (e.slots teliaSonera)[k]? with
    | none =>
        rw [h] at slot
        cases slot
    | some x =>
        rw [h] at slot
        cases slot
        exact List.mem_of_getElem? h
  obtain ⟨m, -, eq⟩ := List.mem_map.mp mem
  obtain ⟨metricType, -, rfl⟩ := Option.map_eq_some_iff.mp eq
  rintro ⟨received, starts⟩
  cases starts

theorem Entry.Plain.over {entry : Entry} (h : entry.Plain) (e : Kpi) :
    (e.over teliaSonera entry).Plain := by
  intro k line slot
  rcases Option.or_eq_some_iff.mp slot with new | ⟨-, old⟩
  · exact Kpi.not_starts_of_slots new
  · exact h k line old

theorem Entry.Plain.storeAll {data : KpiXmlData} (h : ∀ received, (data received).Plain) :
    ∀ received, (storeAll teliaSonera data doc received).Plain := by
  induction doc generalizing data with
  | nil => exact h
  | cons e doc ih =>
      refine ih fun received => ?_
      unfold store
      by_cases here : received = e.received
      · subst here
        rw [Function.update_self]
        exact (h e.received).over e
      · rw [Function.update_of_ne here]
        exact h received

/-- The metric lines of a document are stored over those that were there. -/
theorem storeAll_r (received : String) (k : ℕ) : (storeAll teliaSonera data doc received).r k =
    ((storeAll teliaSonera (fun _ => {}) doc received).r k).or ((data received).r k) := by
  induction doc generalizing data with
  | nil => rfl
  | cons e doc ih =>
      have stored : ((store teliaSonera data e) received).r k =
          ((store teliaSonera (fun _ => {}) e received).r k).or ((data received).r k) := by
        unfold store
        by_cases here : received = e.received
        · subst here
          rw [Function.update_self, Function.update_self]
          show Option.or _ _ = Option.or (Option.or _ none) _
          rw [Option.or_none]
        · rw [Function.update_of_ne here, Function.update_of_ne here]
          rfl
      refine (ih (store teliaSonera data e)).trans ?_
      rw [stored, ← Option.or_assoc]
      exact congrArg (Option.or · _) (ih (store teliaSonera (fun _ => {}) e)).symm

/-- If any element has a `received`, one is the last that has it. -/
theorem exists_isLast {received : String} (some : ∃ e ∈ doc, e.received = received) :
    ∃ l, IsLast doc l ∧ l.received = received := by
  induction doc with
  | nil =>
      obtain ⟨e, mem, -⟩ := some
      exact absurd mem List.not_mem_nil
  | cons d doc ih =>
      by_cases later : ∃ e ∈ doc, e.received = received
      · obtain ⟨l, ⟨pre, post, whole, last⟩, same⟩ := ih later
        exact ⟨l, ⟨d :: pre, post, congrArg (d :: ·) whole, last⟩, same⟩
      · obtain ⟨e, mem, same⟩ := some
        have here : e = d := (List.mem_cons.mp mem).resolve_right fun after =>
          later ⟨e, after, same⟩
        subst here
        exact ⟨e, ⟨[], doc, rfl, fun e' mem' same' => later ⟨e', mem', same'.trans same⟩⟩, same⟩

/-! ## When a record is the element's own -/

variable (slots : List (Option Line)) (old : ℕ → Option Line)

/-- The lines of the metrics, with the lines of old where there are none. -/
def mergedLines : List Line :=
  (List.range slots.length).filterMap fun k => (slots.getD k none).or (old k)

omit slots old

/-- What is printed of an entry: the header of the last element, and its metric lines, with
the lines of the entry where it has none. -/
theorem lines_of_isLast {e : Kpi} (last : IsLast doc e) :
    (storeAll teliaSonera data doc e.received).lines = e.header teliaSonera ++
      mergedLines (e.slots teliaSonera) (storeAll teliaSonera data doc e.received).r := by
  obtain ⟨old, eq⟩ := storeAll_last data last
  rw [eq]
  have length : (e.slots teliaSonera).length = e.converted.length := List.length_map _
  unfold mergedLines Entry.lines
  rw [length]
  refine congrArg _ (List.filterMap_congr fun k _ => ?_)
  show ((e.slots teliaSonera).getD k none).or (old.r k) =
    ((e.slots teliaSonera).getD k none).or (((e.slots teliaSonera).getD k none).or (old.r k))
  cases (e.slots teliaSonera).getD k none <;> rfl

/-- What is printed of an entry does not depend on what was there, if nothing that was
there shows through. -/
theorem lines_eq_of_nothing_left {e : Kpi} (last : IsLast doc e)
    (left : ∀ k < (e.slots teliaSonera).length,
      (∀ e' ∈ doc, e'.received = e.received → (e'.slots teliaSonera).getD k none = none) →
        (data e.received).r k = none) :
    (storeAll teliaSonera data doc e.received).lines =
      (storeAll teliaSonera (fun _ => {}) doc e.received).lines := by
  rw [lines_of_isLast _ last, lines_of_isLast _ last]
  refine congrArg _ (List.filterMap_congr fun k mem => congrArg _ ?_)
  rw [storeAll_r data]
  cases own : (storeAll teliaSonera (fun _ => {}) doc e.received).r k with
  | some line => rfl
  | none => exact left k (List.mem_range.mp mem) ((storeAll_r_eq_none _).mp own).2

end

end Cjunk.Adapt
