import Mathlib.Data.Rat.Cast.Order
import Cjunk.Lib.Grouping
import Cjunk.Lib.Run
import Cjunk.Adapt.Convert

/-!
# Bad probes: from the documents to the reports

`convert_xml_file` of `convert_xml.pl` counts the failed tests of a document in the file
`badprobes`: an array of counts for each path, with the result codes as its indices.
`get_probes_result` of `report_bad_probes.pl`, another program, prints what the file has and
clears it.

`badProbes_accounted_iff` is the result, over documents and reports in any order: every
report has exactly the tests that were counted since the one before, each under its path
and its code, if and only if each of these codes is one of 1 to 9 and no name of a probe
has a space in it.

A DBM::Deep hash has its keys here in the order in which they were created.  Numbers are
exact: the script's floating point numbers agree with them for up to fifteen digits.  The
texts that Perl reads as infinity or as no number are left out.
-/

namespace Cjunk.Adapt

open Run

/-! ## The number of a text -/

/-- The white space that may precede a number. -/
def perlSpace : List Char := [' ', '\t', '\n', '\r', '\x0b', '\x0c']

/-- A sign, and what follows it. -/
def signOf (text : List Char) : ℤ × List Char :=
  if text.head? = some '-' then (-1, text.tail)
  else if text.head? = some '+' then (1, text.tail)
  else (1, text)

/-- The digits that a text begins with. -/
def digitsOf (text : List Char) : List Char := text.takeWhile Char.isDigit

def natOf (digits : List Char) : ℕ := digits.foldl (fun n c => 10 * n + (c.toNat - '0'.toNat)) 0

/-- The digits after a point, and what follows them. -/
def fractionOf (text : List Char) : List Char × List Char :=
  if text.head? = some '.' then (digitsOf text.tail, text.tail.dropWhile Char.isDigit)
  else ([], text)

def exponentOf (text : List Char) : ℤ :=
  if text.head? = some 'e' ∨ text.head? = some 'E' then
    (signOf text.tail).1 * natOf (digitsOf (signOf text.tail).2)
  else 0

/-- The number that a text begins with: 0 if there is none. -/
def perlNumber (text : String) : ℚ :=
  let (sign, text) := signOf (text.toList.dropWhile fun c => c ∈ perlSpace)
  let whole := digitsOf text
  let (fraction, text) := fractionOf (text.drop whole.length)
  let scale := exponentOf text - fraction.length
  mkRat (sign * natOf (whole ++ fraction) * 10 ^ scale.toNat) (10 ^ (-scale).toNat)

/-- The array index that a number stands for: its fraction is dropped. -/
def arrayIndex (x : ℚ) : ℤ := x.num.tdiv x.den

/-! ## The file of bad probes -/

/-- An array of counts: its size, and the elements that are defined. -/
structure PerlArray where
  size : ℕ := 0
  slot : ℕ → Option ℕ := fun _ => none

/-- `$array->[index]++`: a negative index counts from the end, and is fatal if that is
before the start. -/
def PerlArray.increment (a : PerlArray) (index : ℤ) : Option PerlArray :=
  let i := if index < 0 then index + a.size else index
  if i < 0 then none
  else some
    { size := max a.size (i.toNat + 1)
      slot := Function.update a.slot i.toNat (some ((a.slot i.toNat).getD 0 + 1)) }

/-- `badprobes`: an array for each key. -/
structure Db where
  keys : List String := []
  array : String → PerlArray := fun _ => {}
  nodup : keys.Nodup := by exact List.nodup_nil

/-- A key that is used for the first time is created. -/
def Db.vivify (db : Db) (key : String) : Db where
  keys := if key ∈ db.keys then db.keys else db.keys ++ [key]
  array := db.array
  nodup := by
    split
    · exact db.nodup
    · next new => exact List.nodup_append.mpr ⟨db.nodup, List.nodup_singleton key,
        fun k known k' last same => new (List.mem_singleton.mp last ▸ same ▸ known)⟩

/-- A failed test, as its element has it. -/
structure Failed where
  source : String
  destination : String
  result : String
  deriving DecidableEq

namespace Failed

/-- The path of the test. -/
def path (f : Failed) : String × String := (f.source, f.destination)

/-- `"$source $destination"` -/
def key (f : Failed) : String := f.source ++ " " ++ f.destination

/-- The result code. -/
def code (f : Failed) : ℚ := perlNumber f.result

end Failed

/-- The failed tests of a document. -/
def failedTests (doc : List Kpi) : List Failed :=
  (doc.filter fun e => e.result ≠ "0").map fun e => ⟨e.source, e.destination, e.result⟩

/-- They are those that the conversion counts. -/
theorem countBadProbes_eq (doc : List Kpi) :
    countBadProbes doc = (failedTests doc).map fun f => (f.key, f.result) := by
  unfold countBadProbes failedTests
  rw [List.map_map]
  rfl

/-- `$db->{"$source $destination"}->[ result ]++`, and whether the program survives it. -/
def Db.count (db : Db) (f : Failed) : Db × Bool :=
  match (db.array f.key).increment (arrayIndex f.code) with
  | some a =>
      ({ db.vivify f.key with array := Function.update db.array f.key a }, true)
  | none => (db.vivify f.key, false)

/-- The tests are counted one after the other; with the file, those that were. -/
def Db.countAll (db : Db) : List Failed → Db × List Failed
  | [] => (db, [])
  | f :: fs =>
      if (db.count f).2 then
        (((db.count f).1.countAll fs).1, f :: ((db.count f).1.countAll fs).2)
      else ((db.count f).1, [])

/-! ## The report -/

/-- `MAX_ERROR_CODE` -/
def maxErrorCode : ℕ := 10

/-- `@Num_2_String` -/
def num2String : List String :=
  ["test completed succesfully", "DNS name not resolved", "Responder unavailable",
    "Responder unreachable", "No test instance", "Connection refused", "Invalid test version",
    "No UDP port available", "Responder Verifier stopped the test",
    "Invalid SrcIPAddr parameter"]

/-- `( $source, $dest ) = split( /\ /, $key )`; what is missing prints as the empty string. -/
def splitKey (key : String) : String × String :=
  (.ofList ((key.toList.splitOn ' ').getD 0 []), .ofList ((key.toList.splitOn ' ').getD 1 []))

/-- What is printed of a key: its path, and the codes with their counts. -/
structure Section where
  path : String × String
  errors : List (ℕ × ℕ)
  deriving DecidableEq

/-- `for ( $i = 1 ; $i < MAX_ERROR_CODE ; $i++ )` -/
def PerlArray.errors (a : PerlArray) : List (ℕ × ℕ) :=
  (List.range' 1 (maxErrorCode - 1)).filterMap fun i => (a.slot i).map fun n => (i, n)

def Db.sections (db : Db) : List Section :=
  db.keys.map fun key => ⟨splitKey key, (db.array key).errors⟩

/-- The text of a section. -/
def Section.text (teliaSonera : String → Option String) (s : Section) : String :=
  "<br><b>Path:" ++ translateProbe teliaSonera s.path.1 ++ " " ++
    translateProbe teliaSonera s.path.2 ++ " " ++ "</b><br>" ++
    String.join (s.errors.map fun e =>
      num2String.getD e.1 "" ++ ": " ++ toString e.2 ++ "<br>")

/-- `get_probes_result`: the result string, undefined if there is no key, and the file, which
is cleared. -/
def getProbesResult (teliaSonera : String → Option String) (db : Db) : Option String × Db :=
  (if db.sections = [] then none
    else some (String.join (db.sections.map (Section.text teliaSonera))), {})

/-- How many tests a section has under a code. -/
def Section.count (s : Section) (code : ℚ) : ℕ :=
  ((s.errors.filter fun e => (e.1 : ℚ) = code).map Prod.snd).sum

/-- How many tests a report has under a path and a code. -/
def reported (report : List Section) (path : String × String) (code : ℚ) : ℕ :=
  ((report.filter fun s => s.path = path).map fun s => s.count code).sum

/-! ## The two programs -/

inductive Event where
  /-- A document is converted. -/
  | convert (doc : List Kpi)
  /-- A report is made. -/
  | report
  deriving DecidableEq

/-- The file, and the tests that were counted since the last report. -/
structure State where
  db : Db := {}
  pending : List Failed := []

def State.step (teliaSonera : String → Option String) (s : State) : Event → Option State
  | .convert doc =>
      some (if NonEmpty doc then
        { db := (s.db.countAll (failedTests doc)).1
          pending := s.pending ++ (s.db.countAll (failedTests doc)).2 }
      else s)
  | .report =>
      some
        { db := (getProbesResult teliaSonera s.db).2
          pending := [] }

/-- A report now would have every test that was counted since the last one, under its path
and its code, and nothing else. -/
def State.Accounted (s : State) : Prop :=
  ∀ path code, reported s.db.sections path code =
    s.pending.countP fun f => f.path = path ∧ f.code = code

/-- The code is one that is printed, and the path can be read back from the key. -/
def Failed.Reportable (f : Failed) : Prop :=
  (∃ c < maxErrorCode, 1 ≤ c ∧ f.code = c) ∧
    ' ' ∉ f.source.toList ∧ ' ' ∉ f.destination.toList

instance (f : Failed) : Decidable f.Reportable := by
  unfold Failed.Reportable
  infer_instance

/-! ## What a report has -/

section

theorem notMem_of_mem_splitOn {a : Char} {xs field : List Char} (mem : field ∈ xs.splitOn a) :
    a ∉ field := by
  induction xs generalizing field with
  | nil =>
      rw [List.splitOn_nil, List.mem_singleton] at mem
      rw [mem]
      exact List.not_mem_nil
  | cons x xs ih =>
      rw [List.splitOn_cons_eq_if_modifyHead] at mem
      by_cases here : x == a
      · rw [if_pos here] at mem
        rcases List.mem_cons.mp mem with rfl | later
        · exact List.not_mem_nil
        · exact ih later
      · rw [if_neg here] at mem
        cases split : xs.splitOn a with
        | nil => exact absurd split (List.splitOn_ne_nil a xs)
        | cons first rest =>
            rw [split, List.modifyHead_cons] at mem
            rcases List.mem_cons.mp mem with rfl | later
            · have other : a ≠ x := fun same => here (by simp [same])
              exact List.not_mem_cons_of_ne_of_not_mem other (ih (split ▸ List.mem_cons_self))
            · exact ih (split ▸ List.mem_cons_of_mem _ later)

theorem notMem_getD_splitOn (key : List Char) (k : ℕ) :
    ' ' ∉ (key.splitOn ' ').getD k [] := by
  rw [List.getD_eq_getElem?_getD]
  cases field : (key.splitOn ' ')[k]? with
  | none => exact List.not_mem_nil
  | some chars => exact notMem_of_mem_splitOn (List.mem_of_getElem? field)

/-- No path that is printed has a space in its names. -/
theorem splitKey_noSpace (key : String) :
    ' ' ∉ (splitKey key).1.toList ∧ ' ' ∉ (splitKey key).2.toList := by
  unfold splitKey
  rw [String.toList_ofList, String.toList_ofList]
  exact ⟨notMem_getD_splitOn _ 0, notMem_getD_splitOn _ 1⟩

/-- The path is read back from a key that has one space. -/
theorem Failed.Reportable.splitKey_key {f : Failed} (r : f.Reportable) :
    splitKey f.key = f.path := by
  have fields : f.key.toList.splitOn ' ' = [f.source.toList, f.destination.toList] := by
    have chars : f.key.toList = f.source.toList ++ ' ' :: f.destination.toList := by
      simp [Failed.key]
    rw [chars, List.splitOn_append_cons_self_of_not_mem r.2.1, List.splitOn_eq_singleton r.2.2]
  unfold splitKey
  rw [fields]
  simp [Failed.path]

/-- The counts of a section under a code. -/
theorem sum_filter_errors {slot : ℕ → Option ℕ} {is : List ℕ} (nodup : is.Nodup) (c : ℕ) :
    ((((is.filterMap fun i => (slot i).map fun n => (i, n))).filter
      fun e => (e.1 : ℚ) = c).map Prod.snd).sum = if c ∈ is then (slot c).getD 0 else 0 := by
  induction is with
  | nil => rfl
  | cons i is ih =>
      obtain ⟨fresh, nodup⟩ := List.nodup_cons.mp nodup
      have rest := ih nodup
      by_cases here : c = i
      · subst here
        rw [if_neg fresh] at rest
        cases defined : slot c with
        | none => simpa [defined] using rest
        | some n => simpa [defined] using rest
      · cases defined : slot i with
        | none => simpa [defined, here] using rest
        | some n => simpa [defined, here, Ne.symm here] using rest

theorem count_errors (path : String × String) (a : PerlArray) {c : ℕ} (low : 1 ≤ c)
    (high : c < maxErrorCode) : Section.count ⟨path, a.errors⟩ c = (a.slot c).getD 0 := by
  refine (sum_filter_errors List.nodup_range' c).trans (if_pos ?_)
  rw [List.mem_range'_1]
  exact ⟨low, by omega⟩

/-- Nothing is printed under any other code. -/
theorem count_errors_eq_zero (path : String × String) (a : PerlArray) {code : ℚ}
    (other : ∀ c < maxErrorCode, 1 ≤ c → code ≠ c) :
    Section.count ⟨path, a.errors⟩ code = 0 := by
  have none : (a.errors.filter fun e => (e.1 : ℚ) = code) = [] := by
    refine List.filter_eq_nil_iff.mpr fun e mem same => ?_
    obtain ⟨i, inside, printed⟩ := List.mem_filterMap.mp mem
    obtain ⟨n, -, rfl⟩ := Option.map_eq_some_iff.mp printed
    obtain ⟨low, high⟩ := List.mem_range'_1.mp inside
    unfold maxErrorCode at high
    exact other i (by unfold maxErrorCode; omega) low (of_decide_eq_true same).symm
  unfold Section.count
  rw [none]
  rfl

variable (db : Db)

theorem reported_sections (path : String × String) (code : ℚ) :
    reported db.sections path code = ((db.keys.filter fun key => splitKey key = path).map
      fun key => Section.count ⟨splitKey key, (db.array key).errors⟩ code).sum := by
  unfold reported Db.sections
  rw [List.filter_map, List.map_map]
  rfl

/-- A report has nothing under a code that is not printed, or a path that no key reads as. -/
theorem Failed.reportable_of_reported {f : Failed}
    (some : 0 < reported db.sections f.path f.code) : f.Reportable := by
  rw [reported_sections] at some
  obtain ⟨n, mem, positive⟩ := List.sum_pos_iff_exists_pos_nat.mp some
  obtain ⟨key, listed, rfl⟩ := List.mem_map.mp mem
  have same : splitKey key = f.path := of_decide_eq_true (List.mem_filter.mp listed).2
  refine ⟨?_, ?_⟩
  · by_contra other
    push Not at other
    exact positive.ne' (count_errors_eq_zero _ _ other)
  · have names := splitKey_noSpace key
    rw [same] at names
    exact names

end

/-! ## What the file has counted -/

/-- The file has the counts of the tests `fs`. -/
structure Tallied (db : Db) (fs : List Failed) : Prop where
  listed : ∀ f ∈ fs, f.key ∈ db.keys
  counts : ∀ key (c : ℕ), ((db.array key).slot c).getD 0 =
    fs.countP fun f => f.key = key ∧ f.code = (c : ℚ)

section

variable {db : Db} {fs : List Failed} {f : Failed}

theorem Tallied.empty : Tallied {} [] where
  listed := fun _ mem => absurd mem List.not_mem_nil
  counts := fun _ _ => rfl

theorem Db.mem_vivify {key key' : String} :
    key' ∈ (db.vivify key).keys ↔ key' = key ∨ key' ∈ db.keys := by
  show key' ∈ (if key ∈ db.keys then db.keys else db.keys ++ [key]) ↔ _
  split
  · next known => exact ⟨Or.inr, fun h => h.elim (fun same => same ▸ known) id⟩
  · rw [List.mem_append, List.mem_singleton]
    exact or_comm

theorem Tallied.vivify (h : Tallied db fs) (key : String) : Tallied (db.vivify key) fs where
  listed := fun f mem => Db.mem_vivify.mpr (Or.inr (h.listed f mem))
  counts := h.counts

theorem arrayIndex_natCast (c : ℕ) : arrayIndex c = c := by
  unfold arrayIndex
  rw [Rat.num_natCast, Rat.den_natCast]
  exact Int.tdiv_one _

theorem PerlArray.increment_natCast (a : PerlArray) (c : ℕ) :
    a.increment c = some
      { size := max a.size (c + 1)
        slot := Function.update a.slot c (some ((a.slot c).getD 0 + 1)) } := by
  have nonneg : ¬ (c : ℤ) < 0 := by omega
  simp only [PerlArray.increment, if_neg nonneg, Int.toNat_natCast]

/-- A test whose code is a natural number counts up the element with that index. -/
theorem Db.count_natCast (db : Db) {c : ℕ} (code : f.code = (c : ℚ)) :
    (db.count f).1.keys = (db.vivify f.key).keys ∧
      (db.count f).1.array = Function.update db.array f.key
        { size := max (db.array f.key).size (c + 1)
          slot := Function.update (db.array f.key).slot c
            (some (((db.array f.key).slot c).getD 0 + 1)) } := by
  have index := PerlArray.increment_natCast (db.array f.key) c
  rw [← arrayIndex_natCast, ← code] at index
  unfold Db.count
  rw [index]
  exact ⟨rfl, rfl⟩

/-- A test that can be reported is counted, under its path and its code. -/
theorem Tallied.count (h : Tallied db fs) (r : f.Reportable) :
    Tallied (db.count f).1 (fs ++ [f]) := by
  obtain ⟨⟨c, -, -, code⟩, -⟩ := r
  obtain ⟨keys, array⟩ := db.count_natCast code
  refine ⟨fun g mem => ?_, fun key d => ?_⟩
  · rw [keys, Db.mem_vivify]
    rcases List.mem_append.mp mem with old | new
    · exact Or.inr (h.listed g old)
    · exact Or.inl (congrArg Failed.key (List.mem_singleton.mp new))
  · rw [array, List.countP_append, ← h.counts key d, List.countP_singleton]
    by_cases here : key = f.key
    · subst here
      rw [Function.update_self]
      by_cases same : d = c
      · subst same
        simp [code]
      · have other : ¬ f.code = d := fun eq => same (Nat.cast_injective (eq.symm.trans code))
        simp [Function.update_of_ne same, other]
    · rw [Function.update_of_ne here]
      simp [Ne.symm here]

/-- So are all tests of a document, if those that were counted can be reported. -/
theorem Tallied.countAll {tests : List Failed} (h : Tallied db fs)
    (r : ∀ f ∈ (db.countAll tests).2, f.Reportable) :
    Tallied (db.countAll tests).1 (fs ++ (db.countAll tests).2) := by
  induction tests generalizing db fs with
  | nil =>
      rw [Db.countAll, List.append_nil]
      exact h
  | cons f tests ih =>
      rw [Db.countAll] at r ⊢
      split at r
      · next survived =>
        rw [if_pos survived]
        have counted := h.count (r f List.mem_cons_self)
        have rest := ih counted fun g mem => r g (List.mem_cons_of_mem _ mem)
        rwa [List.append_assoc] at rest
      · next died =>
        rw [if_neg died, List.append_nil]
        unfold Db.count at died ⊢
        split at died
        · exact absurd rfl died
        · exact h.vivify f.key

end

/-! ## Every report -/

section

variable {s : State}

/-- The file has the pending tests, if they can all be reported. -/
def State.Tallied (s : State) : Prop :=
  (∀ f ∈ s.pending, f.Reportable) → Adapt.Tallied s.db s.pending

theorem State.Tallied.step {teliaSonera : String → Option String} {t : State} {e : Event}
    (h : s.Tallied) (taken : s.step teliaSonera e = some t) : t.Tallied := by
  cases e with
  | convert doc =>
      cases taken
      split
      · intro r
        exact (h fun f mem => r f (List.mem_append_left _ mem)).countAll
          fun f mem => r f (List.mem_append_right _ mem)
      · exact h
  | report =>
      cases taken
      exact fun _ => Tallied.empty

/-- A report has exactly the pending tests if and only if they can all be reported. -/
theorem State.accounted_iff_reportable (h : s.Tallied) :
    s.Accounted ↔ ∀ f ∈ s.pending, f.Reportable := by
  constructor
  · intro accounted f mem
    refine Failed.reportable_of_reported s.db ?_
    rw [accounted]
    exact List.countP_pos_iff.mpr ⟨f, mem, by simp⟩
  · intro r path code
    have tallied := h r
    rw [reported_sections]
    by_cases printed : ∃ c < maxErrorCode, 1 ≤ c ∧ code = c
    · obtain ⟨c, high, low, rfl⟩ := printed
      -- the tests under the path and the code, counted by the path that their keys read as
      have covered : ∀ f ∈ s.pending, splitKey f.key = path ∧ f.code = (c : ℚ) →
          f.key ∈ s.db.keys.filter fun key => splitKey key = path := fun f mem q =>
        List.mem_filter.mpr ⟨tallied.listed f mem, decide_eq_true q.1⟩
      have once := sum_countP_key Failed.key _ (s.db.nodup.filter _) covered
      have own : (s.pending.countP fun f => splitKey f.key = path ∧ f.code = (c : ℚ)) =
          s.pending.countP fun f => f.path = path ∧ f.code = (c : ℚ) :=
        List.countP_congr fun f mem => by rw [(r f mem).splitKey_key]
      rw [← own, ← once]
      refine congrArg List.sum (List.map_congr_left fun key mem => ?_)
      have same : splitKey key = path := of_decide_eq_true (List.mem_filter.mp mem).2
      rw [count_errors _ _ low high, tallied.counts]
      refine List.countP_congr fun f _ => ?_
      have : f.key = key → splitKey f.key = path := fun here => here ▸ same
      simpa using fun here _ => this here
    · have other : ∀ c < maxErrorCode, 1 ≤ c → code ≠ c := fun c high low same =>
        printed ⟨c, high, low, same⟩
      have none : (s.pending.countP fun f => f.path = path ∧ f.code = code) = 0 := by
        refine List.countP_eq_zero.mpr fun f mem q => ?_
        obtain ⟨c, high, low, own⟩ := (r f mem).1
        exact other c high low ((of_decide_eq_true q).2.symm.trans own)
      rw [none, List.sum_eq_zero_iff_forall_eq_nat]
      intro n mem
      obtain ⟨key, -, rfl⟩ := List.mem_map.mp mem
      exact count_errors_eq_zero _ _ other

/-- **Bad probes are accounted for.**  In every run of the two programs, each report has
every test that was counted since the report before it, and so in exactly one report, under
its path and its code, and nothing else, if and only if all these tests can be reported. -/
theorem badProbes_accounted_iff (teliaSonera : String → Option String) (events : List Event) :
    Meets (State.step teliaSonera) (fun s e => e = .report → s.Accounted) {} events ↔
      Meets (State.step teliaSonera)
        (fun s e => e = .report → ∀ f ∈ s.pending, f.Reportable) {} events := by
  have start : State.Tallied {} := fun _ => Tallied.empty
  refine meets_congr (fun _ _ _ tallied _ taken => tallied.step taken) ?_ start
  intro s e t tallied _
  exact imp_congr_right fun _ => s.accounted_iff_reportable tallied

end

/-- A document with one test, from Lund to Karlstad. -/
def lundKarlstad (result : String) : List Kpi :=
  [{  received := "9999999999123"
      time := List.replicate 10 (Fin.last 9)
      source := "TSS-ld-c-mp2"
      destination := "TSS-ks-mp2"
      r := [⟨"result", result⟩] }]

/-- An internal network error is cleared, and was in no report. -/
theorem not_accounted_internalNetworkError :
    ¬ Meets (State.step fun _ => none) (fun s e => e = .report → s.Accounted) {}
      [.convert (lundKarlstad "7173"), .report] := by
  intro h
  have accounted := ((h _ rfl).2 _ rfl).1 rfl ("TSS-ld-c-mp2", "TSS-ks-mp2") 7173
  revert accounted
  decide +kernel

/-- Other errors are reported. -/
example : (getProbesResult (fun _ => none)
    (({} : Db).countAll (failedTests (lundKarlstad "3" ++ lundKarlstad "3"))).1).1 =
      some ("<br><b>Path:TSS-ld-c-mp2 TSS-ks-mp2 </b><br>" ++ "Responder unreachable: 2<br>") := by
  decide +kernel

end Cjunk.Adapt
