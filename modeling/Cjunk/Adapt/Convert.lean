import Mathlib.Data.List.Lex
import Mathlib.Data.List.Sort
import Cjunk.Adapt.Kpi

/-!
# KPI documents: conversion to PVline files

`convert_xml_file` of `convert_xml.pl`, with `get_hour_resolution` and
`open_file_write_header`.  The elements of a document are stored in `%Kpi_Xml_Data`,
under their `received`, and their times in a hash with several values for a key
(`Tie::Hash::MultiValue`); the records are then printed in the order of the times, into a
file for each hour.

The files are those of the working directory, in the order in which they were created.
The times are whole seconds: in the script's floating point numbers the hour of a time is
exact for up to fifteen digits.  The log and the benchmark are left out.
-/

namespace Cjunk.Adapt

def hour : ℕ := 60 * 60

/-- `get_hour_resolution`. -/
def getHourResolution (x : ℕ) : ℕ := x / hour * hour

/-- The hour that a time falls in. -/
def Digits.hourOf (t : Digits) : ℕ := getHourResolution t.value

/-- What the script takes from outside: its process id, the time formatter, and the names
of the probes. -/
structure Env where
  /-- `$$` -/
  pid : ℕ
  /-- `$time{'yymmdd-hh:mm', $hour}` -/
  time : ℕ → String
  teliaSonera : String → Option String := fun _ => none

/-- The name of the file for an hour. -/
def Env.fileName (env : Env) (hour : ℕ) : String :=
  toString env.pid ++ ".pvline." ++ env.time hour

/-! ## The working directory -/

structure PvFile where
  name : String
  lines : List Line
  deriving DecidableEq

/-- What `open_file_write_header` prints. -/
def fileHeader : List Line :=
  ["TYPE Both\n", "#\n", "#\n", "#Setting Options\n", "OPTION:Type=Line\n",
    "OPTION:PVMVersion=3.0\n",
    "# Collection Interval for the following resources = 5 minutes\n"].map Line.fixed

/-- `open_file_write_header`: a file that is there is emptied. -/
def openFileWriteHeader (name : String) (dir : List PvFile) : List PvFile :=
  if name ∈ dir.map PvFile.name then
    dir.map fun f => if f.name = name then ⟨name, fileHeader⟩ else f
  else dir ++ [⟨name, fileHeader⟩]

/-- Lines printed to the end of an open file. -/
def printLines (name : String) (lines : List Line) (dir : List PvFile) : List PvFile :=
  dir.map fun f => if f.name = name then { f with lines := f.lines ++ lines } else f

/-! ## Printing a document -/

/-- `%probe_test_timestamps`: each assignment adds a value to those of its key. -/
abbrev Timestamps := List (Digits × String)

/-- `@{$probe_test_timestamps{$timestamp}}` -/
def Timestamps.fetch (ts : Timestamps) (t : Digits) : List String :=
  (ts.filter fun entry => entry.1 = t).map Prod.snd

/-- `sort keys %probe_test_timestamps`: the keys are compared as strings. -/
def Timestamps.sortedKeys (ts : Timestamps) : List Digits :=
  (ts.map Prod.fst).dedup.insertionSort (· ≤ ·)

def probeTestTimestamps (doc : List Kpi) : Timestamps := doc.map fun e => (e.time, e.received)

/-- The timestamps in order, and for each its values. -/
def Timestamps.visits (ts : Timestamps) : List (Digits × String) :=
  ts.sortedKeys.flatMap fun t => (ts.fetch t).map fun ke => (t, ke)

/-- The variables of the loop that prints, and the directory. -/
structure Printing where
  oldTime : ℕ
  flag : Bool := true
  fileName : String := ""
  dir : List PvFile

/-- A new hour closes the file. -/
def Printing.turn (s : Printing) (hour : ℕ) : Printing :=
  if s.oldTime < hour then { s with flag := true, oldTime := hour } else s

/-- The first event of a new hour opens a file. -/
def Printing.reopen (env : Env) (s : Printing) (hour : ℕ) : Printing :=
  if s.flag then
    { s with
      fileName := env.fileName hour
      dir := openFileWriteHeader (env.fileName hour) s.dir
      flag := false }
  else s

/-- The body of the loop. -/
def Printing.visit (env : Env) (data : KpiXmlData) (s : Printing) (visit : Digits × String) :
    Printing :=
  let s := (s.turn visit.1.hourOf).reopen env visit.1.hourOf
  { s with dir := printLines s.fileName (data visit.2).lines s.dir }

/-- The directory after all records have been printed. -/
def printAll (env : Env) (data : KpiXmlData) (ts : Timestamps) (dir : List PvFile) :
    List PvFile :=
  (ts.visits.foldl (Printing.visit env data)
    { oldTime := (ts.sortedKeys.headD []).value, dir := dir }).dir

/-! ## The conversion -/

/-- What one run of the script keeps from document to document. -/
structure Adapter where
  kpiXmlData : KpiXmlData := fun _ => {}
  dir : List PvFile := []
  /-- The entries of the file of bad probes that were counted up: the source and the
  destination, and the result. -/
  badProbes : List (String × String) := []
  /-- `$Remember_This{"received"}` and `$Remember_This{"filecounter"}` -/
  received : String := ""
  filecounter : ℕ := 0

/-- The elements whose result is not 0 are counted. -/
def countBadProbes (doc : List Kpi) : List (String × String) :=
  (doc.filter fun e => e.result ≠ "0").map fun e => (e.source ++ " " ++ e.destination, e.result)

/-- A document is empty if it has no first element with a `received`. -/
def NonEmpty (doc : List Kpi) : Prop := (doc.map Kpi.received).headD "" ≠ ""

instance (doc : List Kpi) : Decidable (NonEmpty doc) := by
  unfold NonEmpty
  infer_instance

/-- `convert_xml_file`. -/
def convertXmlFile (env : Env) (s : Adapter) (doc : List Kpi) : Adapter :=
  if NonEmpty doc then
    let data := storeAll env.teliaSonera s.kpiXmlData doc
    { kpiXmlData := data
      dir := printAll env data (probeTestTimestamps doc) s.dir
      badProbes := s.badProbes ++ countBadProbes doc
      received := (doc.map Kpi.received).getLastD ""
      filecounter := s.filecounter + 1 }
  else s

end Cjunk.Adapt
