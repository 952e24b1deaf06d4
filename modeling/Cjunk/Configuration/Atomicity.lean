import Cjunk.Configuration.CalibrationFlags
import Cjunk.Configuration.Updating

/-!
# Calls that fail

A call that returns an error code should leave the file and `i_config` as they were.  The calls
that edit the file do so in memory, and write it as the last thing they do;
`read_configuration_file` clears `i_config` only when the file can be parsed and has its first
group, and does not fail after that.  `set_calibration_flag` puts the flag into `i_config`
before it looks for the setting, wherever in memory that is: its only test of the number is that
the file has the group.

`failsCleanly_iff`: a call leaves everything alone when it fails, unless it is a
`set_calibration_flag` that has changed the flag in memory, or has written outside the array, and
cannot write it to the file.
-/

namespace Cjunk.Settings

open LabelledTree NamedTree

/-- The calls that change the file or `i_config`. -/
inductive ConfigCall where
  | setCalibrationFlag (configNo flag c : U32)
  | updateConfiguration (c : Configuration) (configNo : U32)
  | saveConfiguration (c : Configuration) (configNo : U32)
  | saveDefaultConfigurationNumber (configNo : U32)
  | readConfigurationFile

section Calls

variable (lib : LibconfigElems) (writes : Bool) (s : Store)

/-- What a call returns, with the file and `i_config` after it; `writes` says whether
`config_write_file` can write. -/
def ConfigCall.run : ConfigCall → Except Fault (Rc × Store)
  | setCalibrationFlag configNo flag c =>
    Settings.setCalibrationFlag lib.toLibconfig writes s configNo flag c
  | updateConfiguration c configNo =>
    .ok (s.write (Settings.updateConfiguration lib writes s.file c configNo))
  | saveConfiguration c configNo =>
    .ok (s.write (Settings.saveConfiguration lib.toLibconfig writes s.file c configNo))
  | saveDefaultConfigurationNumber configNo =>
    .ok (s.write (Settings.saveDefaultConfigurationNumber lib writes s.file configNo))
  | readConfigurationFile =>
    (readFileInBuffers lib.toLibconfig s.file s.iConfig).map fun r =>
      (r.1, { s with iConfig := r.2 })

/-- The code that `set_calibration_flag` returns.  It depends on the file alone, and not on where
in memory the flag is put. -/
def setCalibrationFlagRc (lib : Libconfig) (configNo flag c : U32) : Rc :=
  match findFlag lib s.file configNo flag with
  | .error rc => rc
  | .ok (t, f) => (s.write (writeFlag lib writes configNo c t f)).1

/-- The call returns the code, be it after a write outside the array. -/
def ConfigCall.Returns (call : ConfigCall) (rc : Rc) : Prop :=
  match call with
  | setCalibrationFlag configNo flag c =>
    rc = setCalibrationFlagRc writes s lib.toLibconfig configNo flag c
  | updateConfiguration _ _ | saveConfiguration _ _ | saveDefaultConfigurationNumber _
  | readConfigurationFile => ∃ s', call.run lib writes s = .ok (rc, s')

/-- If the call returns an error code, file and `i_config` are as they were, and nothing was
written outside the array. -/
def ConfigCall.FailsCleanly (call : ConfigCall) : Prop :=
  ∀ rc, call.Returns lib writes s rc → rc ≠ .cmdSucessfull →
    call.run lib writes s = .ok (rc, s)

/-- The flag can be set in the tree, and the tree can be written. -/
def CanWriteFlag (lib : Libconfig) (t : Setting) (configNo : U32) (f : CalibrationFlag)
    (c : U32) : Prop :=
  ∃ calibration u,
    lib.lookup t (subPath (subPath (configPath configNo.toInt) "calibration") f.name) =
      some calibration ∧
    lib.settingSetBool t calibration (decide (c ≠ 0)) = some u ∧ writes = true

/-- The call changes a flag in memory, or writes outside the array, and cannot write the flag to
the file. -/
def ConfigCall.LeavesFlag : ConfigCall → Prop
  | setCalibrationFlag configNo flag c =>
    ∃ t f, s.file = .parsed t ∧ (lib.lookup t (configPath configNo.toInt)).isSome ∧
      (lib.lookup t (subPath (configPath configNo.toInt) "calibration")).isSome ∧
      CalibrationFlag.ofInt flag = some f ∧
      (InConfigurations configNo.toInt →
        f.get (s.iConfig.configurations configNo.toInt.toNat) ≠ flag.setWidth 8) ∧
      ¬ CanWriteFlag writes lib.toLibconfig t configNo f c
  | updateConfiguration _ _ | saveConfiguration _ _ | saveDefaultConfigurationNumber _
  | readConfigurationFile => False

end Calls

/-! ## Writing at the end, and clearing late -/

theorem Store.write_error {s s' : Store} {result : Except Rc File} {rc : Rc}
    (h : s.write result = (rc, s')) (failed : rc ≠ .cmdSucessfull) : s' = s := by
  cases result with
  | error e =>
      cases h
      rfl
  | ok file =>
      cases h
      exact absurd rfl failed

section Libconfig

variable {lib : Libconfig} {s s' : Store} {n flag c : U32} {rc : Rc}

/-- A read fails before it clears `i_config`, or not at all. -/
theorem readFileInBuffers_error {file : File} {before after : Config}
    (h : readFileInBuffers lib file before = .ok (rc, after))
    (failed : rc ≠ .cmdSucessfull) : after = before := by
  unfold readFileInBuffers at h
  cases file with
  | missing =>
      cases h
      rfl
  | unparsable =>
      cases h
      rfl
  | parsed t =>
      dsimp only at h
      split at h
      · cases h
        rfl
      · obtain ⟨common, -, h⟩ := bind_eq_ok.mp h
        obtain ⟨configurations, -, h⟩ := bind_eq_ok.mp h
        cases h
        exact absurd rfl failed

/-! ## The flag in memory -/

theorem CalibrationFlag.set_get (f : CalibrationFlag) (c : Configuration) :
    f.set c (f.get c) = c := by
  cases f <;> rfl

/-- Setting a flag changes nothing exactly if memory has the number of the flag already. -/
theorem Store.setFlag_eq_self_iff (s : Store) (n flag : U32) (f : CalibrationFlag) :
    s.setFlag n flag f = s ↔
      f.get (s.iConfig.configurations n.toInt.toNat) = flag.setWidth 8 := by
  constructor
  · intro same
    have here := congrArg (fun s : Store => f.get (s.iConfig.configurations n.toInt.toNat)) same
    dsimp only [Store.setFlag] at here
    rw [Function.update_self, CalibrationFlag.get_set_self] at here
    exact here.symm
  · intro same
    unfold Store.setFlag
    dsimp only
    rw [← same, CalibrationFlag.set_get, Function.update_eq_self]

section SetFlag

variable {writes : Bool} {t : Setting} {f : CalibrationFlag}

theorem writeFlag_ok_iff :
    (∃ file, writeFlag lib writes n c t f = .ok file) ↔ CanWriteFlag writes lib t n f c := by
  constructor
  · rintro ⟨file, h⟩
    obtain ⟨calibration, found, h⟩ := bind_eq_ok.mp h
    obtain ⟨u, set, h⟩ := bind_eq_ok.mp h
    split at h
    · rename_i write
      exact ⟨calibration, u, orReturn_eq_ok.mp found, orReturn_eq_ok.mp set, write⟩
    · cases h
  · rintro ⟨calibration, u, found, set, write⟩
    refine ⟨.parsed u, ?_⟩
    unfold writeFlag
    dsimp only
    rw [found, write]
    show orReturn .errorWrongConfigType (lib.settingSetBool t calibration _) >>= _ = _
    rw [set]
    rfl

/-- A call that fails in its tests does nothing. -/
theorem setCalibrationFlag_early {rc : Rc} (failed : findFlag lib s.file n flag = .error rc) :
    setCalibrationFlag lib writes s n flag c =
      .ok (setCalibrationFlagRc writes s lib n flag c, s) := by
  unfold setCalibrationFlag setCalibrationFlagRc
  rw [failed]

/-- Past its tests, a call that cannot write the flag to the file returns an error code, and has
set the flag in memory. -/
theorem setCalibrationFlag_late (found : findFlag lib s.file n flag = .ok (t, f))
    (cannot : ¬ CanWriteFlag writes lib t n f c) :
    setCalibrationFlagRc writes s lib n flag c ≠ .cmdSucessfull ∧
      setCalibrationFlag lib writes s n flag c =
        if InConfigurations n.toInt then
          .ok (setCalibrationFlagRc writes s lib n flag c, s.setFlag n flag f)
        else .error .overrun := by
  unfold setCalibrationFlag setCalibrationFlagRc
  rw [found]
  cases written : writeFlag lib writes n c t f with
  | ok file => exact absurd (writeFlag_ok_iff.mp ⟨file, written⟩) cannot
  | error rc =>
      have failed : rc ≠ .cmdSucessfull := fun same =>
        writeFlag_coded lib writes n c t f (written.trans (congrArg Except.error same))
      dsimp only
      rw [written]
      exact ⟨failed, rfl⟩

/-- Past its tests, a call that can write the flag returns `CMD_SUCESSFULL`. -/
theorem setCalibrationFlagRc_eq (found : findFlag lib s.file n flag = .ok (t, f))
    (can : CanWriteFlag writes lib t n f c) :
    setCalibrationFlagRc writes s lib n flag c = .cmdSucessfull := by
  obtain ⟨file, written⟩ := writeFlag_ok_iff.mpr can
  unfold setCalibrationFlagRc
  rw [found]
  dsimp only
  rw [written]
  rfl

theorem setCalibrationFlag_failsCleanly_iff {lib : LibconfigElems} :
    (ConfigCall.setCalibrationFlag n flag c).FailsCleanly lib writes s ↔
      ¬ (ConfigCall.setCalibrationFlag n flag c).LeavesFlag lib writes s := by
  constructor
  · rintro clean ⟨t, f, file, group, calib, known, differ, cannot⟩
    obtain ⟨failed, run⟩ :=
      setCalibrationFlag_late (findFlag_eq_ok.mpr ⟨file, group, calib, known⟩) cannot
    have same := run.symm.trans (clean _ rfl failed)
    by_cases inside : InConfigurations n.toInt
    · rw [if_pos inside] at same
      have same := (Prod.mk.inj (Except.ok.inj same)).2
      exact differ inside ((s.setFlag_eq_self_iff n flag f).mp same)
    · rw [if_neg inside] at same
      cases same
  · rintro kept rc rfl failed
    show setCalibrationFlag lib.toLibconfig writes s n flag c = _
    cases found : findFlag lib.toLibconfig s.file n flag with
    | error rc => exact setCalibrationFlag_early found
    | ok r =>
        obtain ⟨t, f⟩ := r
        obtain ⟨file, group, calib, known⟩ := findFlag_eq_ok.mp found
        by_cases can : CanWriteFlag writes lib.toLibconfig t n f c
        · exact absurd (setCalibrationFlagRc_eq found can) failed
        · -- what the call set in memory was there before
          obtain ⟨inside, same⟩ : InConfigurations n.toInt ∧
              f.get (s.iConfig.configurations n.toInt.toNat) = flag.setWidth 8 := by
            by_contra not
            exact kept ⟨t, f, file, group, calib, known, fun inside same => not ⟨inside, same⟩, can⟩
          rw [(setCalibrationFlag_late found can).2, if_pos inside,
            (s.setFlag_eq_self_iff n flag f).mpr same]

end SetFlag

end Libconfig

/-- A call that writes the file as its last step fails cleanly. -/
theorem Store.write_failsCleanly {s : Store} {result : Except Rc File} {rc : Rc} {s' : Store}
    (h : s.write result = (rc, s')) (failed : rc ≠ .cmdSucessfull) : s.write result = (rc, s) := by
  rw [h, Store.write_error h failed]

/-- **Calls that fail.**  A call that returns an error code leaves the file and `i_config` as they
were, and writes nothing outside the array, unless it has changed a flag in memory, or written
outside the array, and cannot write the flag to the file. -/
theorem failsCleanly_iff (lib : LibconfigElems) (writes : Bool) (s : Store) (call : ConfigCall) :
    call.FailsCleanly lib writes s ↔ ¬ call.LeavesFlag lib writes s := by
  cases call with
  | setCalibrationFlag n flag c => exact setCalibrationFlag_failsCleanly_iff
  | updateConfiguration c n =>
      refine iff_of_true ?_ not_false
      rintro rc ⟨s', run⟩ failed
      exact congrArg Except.ok (Store.write_failsCleanly (Except.ok.inj run) failed)
  | saveConfiguration c n =>
      refine iff_of_true ?_ not_false
      rintro rc ⟨s', run⟩ failed
      exact congrArg Except.ok (Store.write_failsCleanly (Except.ok.inj run) failed)
  | saveDefaultConfigurationNumber n =>
      refine iff_of_true ?_ not_false
      rintro rc ⟨s', run⟩ failed
      exact congrArg Except.ok (Store.write_failsCleanly (Except.ok.inj run) failed)
  | readConfigurationFile =>
      refine iff_of_true ?_ not_false
      rintro rc ⟨s', run⟩ failed
      dsimp only [ConfigCall.run] at run ⊢
      cases read : readFileInBuffers lib.toLibconfig s.file s.iConfig with
      | error fault =>
          rw [read] at run
          cases run
      | ok r =>
          rw [read] at run
          cases run
          have same : r.2 = s.iConfig := readFileInBuffers_error read failed
          show Except.ok (r.1, { s with iConfig := r.2 }) = _
          rw [same]

/-- One configuration is counted; number 1, which is not, has a group for its flags, and no flags
in it. -/
def flaglessStore : Store :=
  loadFile (.parsed (sampleFile 1 [("config0", sampleGroup), ("config1",
    .group [("description", Setting.string "sample"), ("calibration", .group [])])]))

/-- The gain flag is not in the file.  The call says so, and has set it in memory. -/
theorem missing_flag_is_set_in_memory :
    Loaded .manual flaglessStore ∧
      (∃ s', (ConfigCall.setCalibrationFlag 1 2 1).run .manual true flaglessStore =
          .ok (.errorSettingNotFound, s') ∧
        (flaglessStore.iConfig.configurations 1).validGainFrame = 0 ∧
        (s'.iConfig.configurations 1).validGainFrame = 2) ∧
      ¬ (ConfigCall.setCalibrationFlag 1 2 1).FailsCleanly .manual true flaglessStore := by
  have run : ((ConfigCall.setCalibrationFlag 1 2 1).run .manual true flaglessStore).toOption.map
      (fun r => (r.1, (r.2.iConfig.configurations 1).validGainFrame)) =
        some (.errorSettingNotFound, 2) := by
    decide +kernel
  have before : (flaglessStore.iConfig.configurations 1).validGainFrame = 0 := by decide +kernel
  obtain ⟨⟨rc, s'⟩, run, result⟩ := Option.map_eq_some_iff.mp run
  obtain ⟨rfl, flag⟩ := Prod.mk.inj result
  have run := eq_ok_of_toOption run
  refine ⟨loaded_loadFile (by decide +kernel), ⟨s', run, before, flag⟩, fun clean => ?_⟩
  have returned : Rc.errorSettingNotFound =
      setCalibrationFlagRc true flaglessStore .manual 1 2 1 := by
    decide +kernel
  have same := run.symm.trans (clean _ returned (by decide))
  rw [(Prod.mk.inj (Except.ok.inj same)).2, before] at flag
  exact absurd flag (by decide)

end Cjunk.Settings
