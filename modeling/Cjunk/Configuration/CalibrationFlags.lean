import Cjunk.Configuration.Buffers
import Cjunk.Lib.Run

/-!
# Calibration flags in memory and in the file

`set_calibration_flag` writes a flag to the file and to `i_config`.  The file gets the value
that it is asked for, `VALIDATE` or `INVALIDATE`; `i_config` gets the number of the flag.  The two
are the same only when `OFFSET_FLAG`, which is 1, is validated (`FlagWritten.returned_iff`).  The
other flags in memory stay as they are (`FlagWritten.othersKept`).

A fresh read does not find what was written.  If the configuration is counted, its group has
calibration flags, and the array that the reader builds their paths in is too short; if it is
not, the loop does not get to it, and its flags are zero, as if they had been invalidated
(`FlagWritten.invalidated_of_returned`).  So there is no successful call after which memory and file
agree on what was asked for: `setsFlags_never`.
-/

namespace Cjunk.Settings

open LabelledTree NamedTree Run

namespace CalibrationFlag

theorem get_set_self (f : CalibrationFlag) (c : Configuration) (value : U8) :
    f.get (f.set c value) = value := by
  cases f <;> rfl

theorem get_set_ne {f g : CalibrationFlag} (differ : g ≠ f) (c : Configuration) (value : U8) :
    g.get (f.set c value) = g.get c := by
  cases f <;> cases g <;> first | rfl | exact absurd rfl differ

/-- The number of a flag. -/
def code : CalibrationFlag → U32
  | offset => 1
  | gain => 2
  | badPixel => 3
  | simpleGain => 4

theorem ofInt_eq_some {flag : U32} {f : CalibrationFlag} : ofInt flag = some f ↔ flag = f.code := by
  constructor
  · intro h
    unfold ofInt at h
    split_ifs at h with gain offset badPixel simpleGain
    all_goals
      cases h
      assumption
  · rintro rfl
    cases f <;> rfl

theorem name_ne {f g : CalibrationFlag} (differ : g ≠ f) : g.name ≠ f.name := by
  cases f <;> cases g <;> first | decide | exact absurd rfl differ

end CalibrationFlag

/-- The tests are those for the group, for its flags, and for the number of the flag. -/
theorem findFlag_eq_ok {lib : Libconfig} {file : File} {n flag : U32} {t : Setting}
    {f : CalibrationFlag} :
    findFlag lib file n flag = .ok (t, f) ↔
      file = .parsed t ∧ (lib.lookup t (configPath n.toInt)).isSome ∧
        (lib.lookup t (subPath (configPath n.toInt) "calibration")).isSome ∧
        CalibrationFlag.ofInt flag = some f := by
  cases file with
  | missing => exact iff_of_false nofun nofun
  | unparsable => exact iff_of_false nofun nofun
  | parsed u =>
      constructor
      · intro h
        obtain ⟨_, group, h⟩ := bind_eq_ok.mp h
        obtain ⟨_, calib, h⟩ := bind_eq_ok.mp h
        obtain ⟨_, known, h⟩ := bind_eq_ok.mp h
        cases h
        exact ⟨rfl, Option.isSome_of_eq_some (orReturn_eq_ok.mp group),
          Option.isSome_of_eq_some (orReturn_eq_ok.mp calib), orReturn_eq_ok.mp known⟩
      · rintro ⟨same, group, calib, known⟩
        cases same
        obtain ⟨_, group⟩ := Option.isSome_iff_exists.mp group
        obtain ⟨_, calib⟩ := Option.isSome_iff_exists.mp calib
        unfold findFlag
        dsimp only
        rw [group, calib, known]
        rfl

theorem findFlag_coded (lib : Libconfig) (file : File) (n flag : U32) :
    Coded (findFlag lib file n flag) := by
  cases file with
  | missing => exact .error (by decide)
  | unparsable => exact .error (by decide)
  | parsed t =>
      refine (Coded.orReturn (by decide) _).bind fun _ => ?_
      refine (Coded.orReturn (by decide) _).bind fun _ => ?_
      exact (Coded.orReturn (by decide) _).bind fun f => .ok (t, f)

theorem writeFlag_coded (lib : Libconfig) (writes : Bool) (n c : U32) (t : Setting)
    (f : CalibrationFlag) : Coded (writeFlag lib writes n c t f) :=
  (Coded.orReturn (by decide) _).bind fun _ => (Coded.orReturn (by decide) _).bind fun t =>
    .ite (.ok (File.parsed t)) (.error (by decide))

/-! ## A flag of a group -/

section Group

variable {b b' : Place → Option Setting} {f : CalibrationFlag} {v : Bool}

/-- A group in which one flag is set reads as the configuration with that flag set. -/
theorem groupAt_set {c : Configuration} (read : groupAt b = .ok c)
    (new : b' [.member "calibration", .member f.name] = some (Setting.bool v))
    (frame : ∀ r, Apart [.member "calibration", .member f.name] r → b' r = b r) :
    groupAt b' = .ok (f.set c (if v then 1 else 0)) := by
  have ints : ∀ group name : String, "calibration" ≠ group →
      intAt b' group name = intAt b group name := by
    intro group name other
    unfold intAt
    have apart : Apart [.member "calibration", .member f.name]
        [Step.member group, .member name] :=
      Or.inl fun same => other (Step.member.inj same)
    rw [frame _ apart]
  have flags : ∀ g : CalibrationFlag, flagAt b' g.name =
      if g = f then (if v then 1 else 0) else flagAt b g.name := by
    intro g
    unfold flagAt
    by_cases same : g = f
    · subst same
      rw [if_pos rfl, new]
      rfl
    · have apart : Apart [.member "calibration", .member f.name]
          [Step.member "calibration", .member g.name] :=
        Or.inr (Or.inl fun equal => CalibrationFlag.name_ne same (Step.member.inj equal).symm)
      rw [if_neg same, frame _ apart]
  have description : b' [.member "description"] = b [.member "description"] :=
    frame _ (Or.inl (by decide))
  have channels : b' [.member "hvps", .member "channels"] =
      b [.member "hvps", .member "channels"] := frame _ (Or.inl (by decide))
  unfold groupAt at read ⊢
  rw [description, channels]
  obtain ⟨text, copied, read⟩ := bind_eq_ok.mp read
  obtain ⟨channel, fitting, read⟩ := bind_eq_ok.mp read
  rw [copied, fitting]
  cases read
  show Except.ok _ = Except.ok _
  simp (disch := decide) only [ints]
  rw [show flagAt b' "valid_gain_frame" = _ from flags .gain,
    show flagAt b' "valid_offset_frame" = _ from flags .offset,
    show flagAt b' "valid_bad_pixel_map" = _ from flags .badPixel,
    show flagAt b' "valid_simple_gain" = _ from flags .simpleGain]
  cases f <;> rfl

end Group

/-! ## A successful call -/

/-- The place of a flag. -/
def flagPlace (n : ℤ) (f : CalibrationFlag) : Place :=
  configPlace n ++ [.member "calibration", .member f.name]

/-- In `after`, the flag `f` of number `n` has the value, and the rest is as in `before`. -/
structure FlagUpdate (before after : Config) (n : ℤ) (f : CalibrationFlag) (value : U8) :
    Prop where
  number : InConfigurations n
  common : after.cConfig = before.cConfig
  configurations : after.configurations = Function.update before.configurations n.toNat
    (f.set (before.configurations n.toNat) value)

/-- What a successful `set_calibration_flag` does. -/
structure FlagWritten (s : Store) (n flag c : U32) (f : CalibrationFlag) (t u : Setting)
    (s' : Store) : Prop where
  known : flag = f.code
  before : s.file = .parsed t
  after : s'.file = .parsed u
  memory : FlagUpdate s.iConfig s'.iConfig n.toInt f (flag.setWidth 8)
  there : HasGroup t n.toInt
  new : u.get (flagPlace n.toInt f) = some (Setting.bool (decide (c ≠ 0)))
  frame : Frame (flagPlace n.toInt f) t u

section Documented

variable {lib : Libconfig} (doc : lib.Documented) {s s' : Store} {n flag c : U32}

include doc

theorem writeFlag_ok {writes : Bool} {t : Setting} {f : CalibrationFlag} {file : File}
    (h : writeFlag lib writes n c t f = .ok file) :
    ∃ u, file = .parsed u ∧ u.get (flagPlace n.toInt f) = some (Setting.bool (decide (c ≠ 0))) ∧
      Frame (flagPlace n.toInt f) t u := by
  have calib : components (subPath (configPath n.toInt) "calibration") = _ :=
    components_member (components_configPath n.toInt) (by decide)
  have flagName : '.' ∉ f.name.toList := by
    cases f <;> decide
  obtain ⟨place, found, h⟩ := bind_eq_ok.mp h
  have found := orReturn_eq_ok.mp found
  rw [doc.lookup, components_member calib flagName] at found
  obtain ⟨-, same⟩ := Option.ite_none_right_eq_some.mp found
  cases same
  obtain ⟨u, set, h⟩ := bind_eq_ok.mp h
  obtain ⟨-, new, frame⟩ := settingSetBool_ok doc (orReturn_eq_ok.mp set)
  split at h
  · cases h
    exact ⟨u, rfl, new, frame⟩
  · cases h

theorem setCalibrationFlag_ok {writes : Bool}
    (h : setCalibrationFlag lib writes s n flag c = .ok (.cmdSucessfull, s')) :
    ∃ f t u, FlagWritten s n flag c f t u s' := by
  unfold setCalibrationFlag at h
  split at h
  · rename_i rc failed
    cases h
    exact absurd failed (findFlag_coded lib s.file n flag)
  · rename_i t f found
    obtain ⟨file, group, -, known⟩ := findFlag_eq_ok.mp found
    have there : HasGroup t n.toInt := by
      rw [lookup_isSome doc, components_configPath] at group
      exact group
    split at h
    · rename_i number
      cases written : writeFlag lib writes n c t f with
      | error rc =>
          rw [written] at h
          cases h
          exact absurd written (writeFlag_coded lib writes n c t f)
      | ok file' =>
          rw [written] at h
          cases h
          obtain ⟨u, rfl, new, frame⟩ := writeFlag_ok doc written
          exact ⟨f, t, u, CalibrationFlag.ofInt_eq_some.mp known, file, rfl, ⟨number, rfl, rfl⟩,
            there, new, frame⟩
    · cases h

end Documented

/-! ## What the getter sees -/

section Getter

variable {before after : Config} {n : U32} {f : CalibrationFlag} {value : U8}

theorem getCalibrationFlag_code (iConfig : Config) (n : U32) (f : CalibrationFlag) :
    getCalibrationFlag iConfig n f.code =
      if iConfig.cConfig.maxNoOfConfigs.toInt < n.toInt then
        .ok (.error .errorConfigurationNotFound)
      else if InConfigurations n.toInt then
        .ok (.ok (f.get (iConfig.configurations n.toInt.toNat)))
      else .error .overrun := by
  unfold getCalibrationFlag
  rw [CalibrationFlag.ofInt_eq_some.mpr rfl]

theorem getCalibrationFlag_congr {m flag : U32} (common : after.cConfig = before.cConfig)
    (same : ∀ g, flag = CalibrationFlag.code g → InConfigurations m.toInt →
      g.get (after.configurations m.toInt.toNat) = g.get (before.configurations m.toInt.toNat)) :
    getCalibrationFlag after m flag = getCalibrationFlag before m flag := by
  cases known : CalibrationFlag.ofInt flag with
  | none =>
      unfold getCalibrationFlag
      rw [known, common]
  | some g =>
      obtain rfl := CalibrationFlag.ofInt_eq_some.mp known
      rw [getCalibrationFlag_code, getCalibrationFlag_code, common]
      by_cases inside : InConfigurations m.toInt
      · rw [same g rfl inside]
      · rw [if_neg inside, if_neg inside]

/-- The flag that was updated has its value, if its number is counted. -/
theorem FlagUpdate.get_self (h : FlagUpdate before after n.toInt f value) :
    getCalibrationFlag after n f.code =
      if before.cConfig.maxNoOfConfigs.toInt < n.toInt then
        .ok (.error .errorConfigurationNotFound)
      else .ok (.ok value) := by
  rw [getCalibrationFlag_code, h.common, if_pos h.number, h.configurations,
    Function.update_self, CalibrationFlag.get_set_self]

/-- No other flag is affected. -/
theorem FlagUpdate.get_other (h : FlagUpdate before after n.toInt f value) {m flag : U32}
    (other : ¬ (m = n ∧ flag = f.code)) :
    getCalibrationFlag after m flag = getCalibrationFlag before m flag := by
  refine getCalibrationFlag_congr h.common fun g code inside => ?_
  rw [h.configurations]
  by_cases number : m.toInt.toNat = n.toInt.toNat
  · have same : m = n := by
      obtain ⟨low, -⟩ := inside
      obtain ⟨low', -⟩ := h.number
      exact BitVec.eq_of_toInt_eq (by omega)
    have differ : g ≠ f := by
      rintro rfl
      exact other ⟨same, code⟩
    rw [number, Function.update_self, CalibrationFlag.get_set_ne differ]
  · rw [Function.update_of_ne number]

end Getter

/-! ## The group in the file -/

section Group

variable {s s' : Store} {n flag c : U32} {f : CalibrationFlag} {t u : Setting}
  (written : FlagWritten s n flag c f t u s')

include written

theorem FlagWritten.groupEdited : GroupEdited t u n.toInt where
  there := written.there
  still := isSome_get_of_append (q := [.member "calibration", .member f.name])
    (Option.isSome_of_eq_some written.new)
  frame := written.frame.of_append

theorem FlagWritten.groupAt_eq {configuration : Configuration}
    (read : groupAt (below t n.toInt) = .ok configuration) :
    groupAt (below u n.toInt) = .ok (f.set configuration (if c ≠ 0 then 1 else 0)) := by
  have set : groupAt (below u n.toInt) = _ := groupAt_set read written.new fun r apart =>
    written.frame _ ((apart_append_iff (configPlace n.toInt) _ r).mpr apart)
  rw [set]
  simp only [decide_eq_true_eq]

end Group

/-! ## Sequences of calls -/

/-- A call of `set_calibration_flag`, with `VALIDATE` or `INVALIDATE`. -/
structure FlagCall where
  configNo : U32
  flag : U32
  c : U32
  writes : Bool := true
  validity : c = 1 ∨ c = 0 := by decide

/-- A call with `VALIDATE`. -/
def FlagCall.validate (configNo flag : U32) : FlagCall :=
  { configNo := configNo, flag := flag, c := 1 }

section Calls

variable (lib : Libconfig)

/-- The store after a call that returns `CMD_SUCESSFULL`. -/
def flagStep (s : Store) (call : FlagCall) : Option Store :=
  match setCalibrationFlag lib call.writes s call.configNo call.flag call.c with
  | .ok (.cmdSucessfull, s') => some s'
  | _ => none

/-- `i_config` is what `read_configuration_file` gets from the file. -/
def Loaded (s : Store) : Prop :=
  readFileInBuffers lib s.file .cleared = .ok (.cmdSucessfull, s.iConfig)

/-- The getter returns the `c` of the call for its flag. -/
def FlagCall.Returned (call : FlagCall) (iConfig : Config) : Prop :=
  getCalibrationFlag iConfig call.configNo call.flag = .ok (.ok (call.c.setWidth 8))

/-- For every other flag the getter returns after the call what it did before. -/
def FlagCall.OthersKept (call : FlagCall) (before after : Config) : Prop :=
  ∀ m flag, ¬ (m = call.configNo ∧ flag = call.flag) →
    getCalibrationFlag after m flag = getCalibrationFlag before m flag

/-- A successful call sets the flag, and no other, in memory and in what a fresh read of the
file gets. -/
def SetsFlag (s : Store) (call : FlagCall) : Prop :=
  ∀ s', flagStep lib s call = some s' →
    (call.Returned s'.iConfig ∧ call.OthersKept s.iConfig s'.iConfig) ∧
      ∃ after, readFileInBuffers lib s'.file .cleared = .ok (.cmdSucessfull, after) ∧
        call.Returned after ∧
        ∀ before, readFileInBuffers lib s.file .cleared = .ok (.cmdSucessfull, before) →
          call.OthersKept before after

variable {lib}

theorem flagStep_eq_some {s s' : Store} {call : FlagCall} :
    flagStep lib s call = some s' ↔
      setCalibrationFlag lib call.writes s call.configNo call.flag call.c =
        .ok (.cmdSucessfull, s') := by
  unfold flagStep
  constructor
  · intro h
    split at h
    · rename_i returned
      cases h
      exact returned
    · cases h
  · intro h
    rw [h]

/-- The number of a flag is zero or one for the offset flag only. -/
theorem CalibrationFlag.code_eq {f : CalibrationFlag} {c : U32} (validity : c = 1 ∨ c = 0)
    (same : f.code.setWidth 8 = (c.setWidth 8 : U8)) : f = offset ∧ c = 1 := by
  rcases validity with rfl | rfl
  · cases f with
    | offset => exact ⟨rfl, rfl⟩
    | gain => exact absurd same (by decide)
    | badPixel => exact absurd same (by decide)
    | simpleGain => exact absurd same (by decide)
  · cases f <;> exact absurd same (by decide)

section Written

variable {s s' : Store} {call : FlagCall} {f : CalibrationFlag} {t u : Setting}
  (written : FlagWritten s call.configNo call.flag call.c f t u s')

include written

/-- No other flag changes in memory. -/
theorem FlagWritten.othersKept : call.OthersKept s.iConfig s'.iConfig :=
  fun _ _ other => written.memory.get_other (written.known ▸ other)

/-- Memory has the value of the call exactly if the offset flag is validated, of a number that
the getter lets pass. -/
theorem FlagWritten.returned_iff :
    call.Returned s'.iConfig ↔ f = .offset ∧ call.c = 1 ∧
      call.configNo.toInt ≤ s.iConfig.cConfig.maxNoOfConfigs.toInt := by
  unfold FlagCall.Returned
  rw [written.known, written.memory.get_self, written.known]
  split
  · rename_i beyond
    exact iff_of_false nofun fun ⟨_, _, counted⟩ => absurd beyond (Int.not_lt.mpr counted)
  · rename_i counted
    rw [Except.ok.injEq, Except.ok.injEq]
    constructor
    · intro same
      obtain ⟨offset, validate⟩ := CalibrationFlag.code_eq call.validity same
      exact ⟨offset, validate, Int.not_lt.mp counted⟩
    · rintro ⟨rfl, validate, -⟩
      rw [validate]
      rfl

/-- What is read has the value of the call only if the flag is invalidated: the number is not
counted. -/
theorem FlagWritten.invalidated_of_returned (doc : lib.Documented) {after : Config}
    (read : readFileInBuffers lib s'.file .cleared = .ok (.cmdSucessfull, after))
    (returned : call.Returned after) : call.c = 0 := by
  rw [written.after] at read
  have fits : FileFits u := (readFileInBuffers_ok_iff doc .cleared).mp ⟨after, read⟩
  obtain ⟨low, -⟩ := written.memory.number
  have beyond : ¬ call.configNo.toInt < countOf u := by
    intro counted
    have flag := Option.isSome_of_eq_some written.new
    exact not_fileFits_of_member (by decide) low counted flag fits
  -- the loop stops before the number, and leaves its flags zero
  have zero : after.configurations call.configNo.toInt.toNat = {} := by
    obtain ⟨read, -⟩ := (readFileInBuffers_eq_ok_iff doc).mp read
    obtain ⟨-, -, loop⟩ := (readConfigurationFile_eq_ok_iff doc).mp read
    have last := (readConfigurations_eq_ok_iff doc).mp loop call.configNo.toInt.toNat
    rw [if_neg fun below => beyond (by omega)] at last
    exact last
  unfold FlagCall.Returned at returned
  rw [written.known, getCalibrationFlag_code, zero, if_pos written.memory.number] at returned
  split at returned
  · cases returned
  · have same := Except.ok.inj (Except.ok.inj returned)
    rcases call.validity with validate | invalidate
    · rw [validate] at same
      cases f <;> exact absurd same (by decide)
    · exact invalidate

end Written

theorem not_setsFlag (doc : lib.Documented) {s s' : Store} {call : FlagCall}
    (step : flagStep lib s call = some s') : ¬ SetsFlag lib s call := by
  intro sets
  obtain ⟨f, t, u, written⟩ := setCalibrationFlag_ok doc (flagStep_eq_some.mp step)
  obtain ⟨⟨memory, -⟩, after, read, file, -⟩ := sets s' step
  obtain ⟨-, validate, -⟩ := written.returned_iff.mp memory
  rw [written.invalidated_of_returned doc read file] at validate
  exact absurd validate (by decide)

/-- **Memory and file.**  In no sequence that begins with a successful call does every call set
its flag in memory and in the file, and no other: whatever is in the file and in memory, it does
not do so the first time. -/
theorem setsFlags_never (doc : lib.Documented) {s s' : Store} {call : FlagCall}
    (step : flagStep lib s call = some s') (calls : List FlagCall) :
    ¬ Meets (flagStep lib) (SetsFlag lib) s (call :: calls) :=
  fun sets => not_setsFlag doc step (sets s' step).1

end Calls

/-! ## A file with flags -/

/-- A group without channels, with its four flags false. -/
def flaggedGroup : Setting :=
  .group [("description", Setting.string "sample"),
    ("calibration", .group (calibrationFlags.map fun name => (name, Setting.bool false)))]

/-- A file that was loaded. -/
def loadFile (file : File) : Store :=
  match readFileInBuffers .manual file .cleared with
  | .ok (_, iConfig) => { file := file, iConfig := iConfig }
  | .error _ => { file := file, iConfig := .cleared }

theorem loaded_loadFile {t : Setting} (fits : FileFits t) :
    Loaded .manual (loadFile (.parsed t)) := by
  obtain ⟨after, read⟩ :=
    (readFileInBuffers_ok_iff Libconfig.manual_documented .cleared).mpr fits
  unfold Loaded loadFile
  rw [read]
  exact read

/-- One configuration is counted, which has no flags; number 1, which has, is not. -/
def flaggedStore : Store :=
  loadFile (.parsed (sampleFile 1 [("config0", sampleGroup), ("config1", flaggedGroup)]))

theorem loaded_flaggedStore : Loaded .manual flaggedStore :=
  loaded_loadFile (by decide +kernel)

/-- The offset flag of number 1 is validated, and the gain flag after it. -/
theorem setsFlags_sample :
    ∃ s', flagStep .manual flaggedStore (.validate 1 1) = some s' ∧
      ¬ Meets (flagStep .manual) (SetsFlag .manual) flaggedStore
        [.validate 1 1, .validate 1 2] := by
  obtain ⟨s', step⟩ := Option.isSome_iff_exists.mp
    (by decide +kernel : (flagStep .manual flaggedStore (.validate 1 1)).isSome)
  exact ⟨s', step, setsFlags_never Libconfig.manual_documented step _⟩

/-- The gain flag of number 1 is validated, and the getter returns 2. -/
theorem gainFlag_differs :
    Loaded .manual flaggedStore ∧
      (∃ s', flagStep .manual flaggedStore (.validate 1 2) = some s' ∧
        getCalibrationFlag s'.iConfig 1 2 = .ok (.ok 2)) ∧
      ¬ Meets (flagStep .manual) (SetsFlag .manual) flaggedStore [.validate 1 2] := by
  have two : (flagStep .manual flaggedStore (.validate 1 2)).map
      (fun s' => getCalibrationFlag s'.iConfig 1 2) = some (.ok (.ok 2)) := by
    decide +kernel
  obtain ⟨s', step, two⟩ := Option.map_eq_some_iff.mp two
  refine ⟨loaded_flaggedStore, ⟨s', step, two⟩, fun sets => ?_⟩
  have one : getCalibrationFlag s'.iConfig 1 2 = .ok (.ok 1) := ((sets s' step).1 s' step).1.1
  rw [two] at one
  exact absurd one (by decide)

end Cjunk.Settings
