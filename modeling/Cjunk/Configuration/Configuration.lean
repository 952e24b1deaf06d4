import Mathlib.Data.Int.Notation
import Mathlib.Logic.Function.Basic
import Cjunk.Configuration.Libconfig

/-!
# The configuration file

`configuration.c` keeps a numbered list of configurations in a file, and a copy of it in
memory.  `read_configuration_file` loads the groups `config<i>` for `i` below the setting
`max_no_of_configs`; `save_configuration` adds a group; `set_calibration_flag` changes one
flag, in the file and in memory.

The file is missing, or cannot be parsed, or is the tree that `libconfig` reads from it and
writes to it.  The paths that are built in buffers are strings without a bound; the reader with
the arrays that it builds them in is `readFileInBuffers`.  Where the code passes `NULL` to
`strcpy`, or would write past the end of an array, a function ends in a `Fault`.
-/

namespace Cjunk.Settings

open LabelledTree

/-- The return codes; `error` is `ERROR`, -1. -/
inductive Rc where
  | cmdSucessfull
  | error
  | errorConfigurationFileOpenFailed
  | errorConfigurationFileParseError
  | errorConfigurationNotFound
  | errorWrongConfigType
  | errorSettingNotFound
  | errorNoRootNotFound
  | errorFailedCreateConfig
  | errorFailedCreateGroup
  | errorFailedParentNotGroup
  | errorOutsideConfigRange
  | errorFlagNotDefined
  | errorFailedCreateList
  | errorWrongConfigFormat
  | errorGroupNotFound
  deriving DecidableEq

/-- What C leaves undefined. -/
inductive Fault where
  | nullPointer
  | overrun
  deriving DecidableEq

/-- `MAX_NO_OF_CONFIGS`. -/
def maxNoOfConfigs : ℕ := 65535

/-- `MAX_NO_OF_CHANNELS`. -/
def maxNoOfChannels : ℕ := 27

/-- A string in an array of `size` characters. -/
structure CharArray (size : ℕ) where
  text : String
  fits : text.length < size
  deriving DecidableEq

/-- `strcpy` to an array of `size` characters. -/
def strcpy (size : ℕ) : Option String → Except Fault (CharArray size)
  | none => .error .nullPointer
  | some text =>
    if fits : text.length < size then .ok { text := text, fits := fits } else .error .overrun

/-- `configuration`. -/
structure Configuration where
  description : CharArray 40 := { text := "", fits := by decide }
  channel : Vector U16 maxNoOfChannels := .replicate maxNoOfChannels 0
  cmd : U32 := 0
  setup : U32 := 0
  frameCount : U32 := 0
  integrationTime : U32 := 0
  resetTime : U32 := 0
  triggerDelay : U32 := 0
  asicInitialValue : U32 := 0
  intercolumnDelay : U32 := 0
  frameRate : U8 := 0
  binning : U8 := 0
  fieldX0 : U8 := 0
  fieldY0 : U8 := 0
  fieldWidth : U16 := 0
  fieldHeight : U16 := 0
  validGainFrame : U8 := 0
  validSimpleGain : U8 := 0
  validOffsetFrame : U8 := 0
  validBadPixelMap : U8 := 0
  deriving DecidableEq

/-- `common_configuration`. -/
structure CommonConfiguration where
  debug : U32 := 0
  profiling : U32 := 0
  detectorVersion : U32 := 0
  maxNoOfConfigs : U32 := 0
  defaultConfigNo : U32 := 0
  snmpAgent : CharArray 20 := { text := "", fits := by decide }
  tempMax : U32 := 0
  tempMin : U32 := 0
  tempHysteres : U32 := 0
  deriving DecidableEq

/-- `config`, the type of `i_config`; of `configurations` the first `MAX_NO_OF_CONFIGS`
exist. -/
structure Config where
  cConfig : CommonConfiguration := {}
  configurations : ℕ → Configuration := fun _ => {}

/-- `i_config` before anything is read. -/
def Config.cleared : Config := {}

/-- What `fopen` and `config_read` find. -/
inductive File where
  | missing
  | unparsable
  | parsed (t : Setting)

/-- `application.config` and the number. -/
def configPath (configNo : ℤ) : String := "application.config" ++ configNo.repr

section Libconfig

variable (lib : Libconfig)

/-! ## Reading -/

/-- The channels of `hvps`: as many as the list has. -/
def readChannels (t : Setting) (hvps : String) :
    Except Fault (Vector U16 maxNoOfChannels) :=
  match lib.lookup t (subPath hvps "channels") with
  | none => .ok (.replicate maxNoOfChannels 0)
  | some list =>
    if lib.settingLength t list ≤ maxNoOfChannels then
      .ok (Vector.ofFn fun ch =>
        if ch.val < lib.settingLength t list then
          (lib.settingGetIntElem t list ch).setWidth 16
        else 0)
    else .error .overrun

/-- The channels of a group that is there. -/
def readHvps (t : Setting) (hvps : String) : Except Fault (Vector U16 maxNoOfChannels) :=
  if (lib.lookup t hvps).isSome then readChannels lib t hvps
  else .ok (.replicate maxNoOfChannels 0)

/-- The members of a group that is there, and zero for a group that is not. -/
def readMember (t : Setting) (group name : String) : U32 :=
  if (lib.lookup t group).isSome then lib.lookupInt t (subPath group name) else 0

/-- A calibration flag, as a `boolean`. -/
def readFlag (t : Setting) (calib name : String) : U8 :=
  if (lib.lookup t calib).isSome then
    if lib.lookupBool t (subPath calib name) then 1 else 0
  else 0

/-- The members of the group `config<i>`. -/
def readGroup (t : Setting) (i : ℕ) : Except Fault Configuration := do
  let string := configPath i
  let description ← strcpy 40 (lib.lookupString t (subPath string "description"))
  let channel ← readHvps lib t (subPath string "hvps")
  let regs := subPath string "regs"
  let misc := subPath string "misc"
  let calib := subPath string "calibration"
  return {
    description := description
    channel := channel
    cmd := readMember lib t regs "cmd"
    setup := readMember lib t regs "setup"
    frameCount := readMember lib t regs "frame_count"
    integrationTime := readMember lib t regs "integration_time"
    resetTime := readMember lib t regs "reset_time"
    triggerDelay := readMember lib t regs "trigger_delay"
    asicInitialValue := readMember lib t regs "asic_initial_value"
    intercolumnDelay := readMember lib t regs "intercolumn_delay"
    frameRate := (readMember lib t misc "frame_rate").setWidth 8
    binning := (readMember lib t misc "binning").setWidth 8
    fieldX0 := (readMember lib t misc "field_x0").setWidth 8
    fieldY0 := (readMember lib t misc "field_y0").setWidth 8
    fieldWidth := (readMember lib t misc "field_width").setWidth 16
    fieldHeight := (readMember lib t misc "field_height").setWidth 16
    validGainFrame := readFlag lib t calib "valid_gain_frame"
    validOffsetFrame := readFlag lib t calib "valid_offset_frame"
    validBadPixelMap := readFlag lib t calib "valid_bad_pixel_map"
    validSimpleGain := readFlag lib t calib "valid_simple_gain" }

/-- The configuration `i`, if there is a group for it. -/
def readConfiguration (t : Setting) (i : ℕ) : Except Fault (Option Configuration) :=
  if (lib.lookup t (configPath i)).isNone then .ok none
  else if maxNoOfConfigs ≤ i then .error .overrun
  else (readGroup lib t i).map some

/-- The loop over the first `max` configurations. -/
def readConfigurations (t : Setting) : ℕ → Except Fault (ℕ → Configuration)
  | 0 => .ok fun _ => {}
  | i + 1 => do
    let configurations ← readConfigurations t i
    match ← readConfiguration lib t i with
    | none => return configurations
    | some c => return Function.update configurations i c

/-- The name of the SNMP agent, if there is one. -/
def readSnmpAgent (t : Setting) : Except Fault (CharArray 20) :=
  match lib.lookupString t "application.software.snmp_agent" with
  | none => .ok { text := "", fits := by decide }
  | some text => strcpy 20 (some text)

/-- The settings that all configurations have in common. -/
def readCommon (t : Setting) : Except Fault CommonConfiguration := do
  let snmpAgent ← readSnmpAgent lib t
  return {
    debug := lib.lookupInt t "application.software.debug"
    profiling := lib.lookupInt t "application.software.profiling"
    detectorVersion := lib.lookupInt t "application.software.detector_version"
    maxNoOfConfigs := lib.lookupInt t "application.software.max_no_of_configs"
    defaultConfigNo := lib.lookupInt t "application.software.default_config_no"
    snmpAgent := snmpAgent
    tempMax := lib.lookupInt t "application.thresholds.temp_max"
    tempMin := lib.lookupInt t "application.thresholds.temp_min"
    tempHysteres := lib.lookupInt t "application.thresholds.temp_hysteres" }

/-- `read_configuration_file`, with paths of any length, and what it leaves in `i_config`. -/
def readConfigurationFile (file : File) (iConfig : Config) : Except Fault (Rc × Config) :=
  match file with
  | .missing => .ok (.error, iConfig)
  | .unparsable => .ok (.error, iConfig)
  | .parsed t =>
    if (lib.lookup t "application").isNone then .ok (.error, iConfig)
    else do
      let cConfig ← readCommon lib t
      let configurations ← readConfigurations lib t cConfig.maxNoOfConfigs.toInt.toNat
      return (.cmdSucessfull, { cConfig := cConfig, configurations := configurations })

/-- `get_configuration`. -/
def getConfiguration (iConfig : Config) (number : ℤ) : Option Configuration :=
  if 0 ≤ number ∧ number ≤ iConfig.cConfig.maxNoOfConfigs.toInt then
    some (iConfig.configurations number.toNat)
  else none

/-! ## Saving -/

/-- Go on with a result that is there, or return the code. -/
def orReturn {α : Type} (rc : Rc) : Option α → Except Rc α
  | none => .error rc
  | some a => .ok a

/-- `add_element`. -/
def addElement (group : Place) (t : Setting) (name : String) (value : U32) :
    Except Rc Setting := do
  let (t, reg) ← orReturn .errorFailedParentNotGroup (lib.settingAdd t group name .int)
  let t ← orReturn .errorWrongConfigType (lib.settingSetInt t reg value)
  if lib.settingSetFormat t reg then return t else throw .errorWrongConfigFormat

/-- One channel more. -/
def addChannel (hvps : Place) (t : Setting) (value : U16) : Except Rc Setting := do
  let (t, reg) ← orReturn .errorFailedParentNotGroup (lib.settingAdd t hvps none .int)
  orReturn .errorWrongConfigType (lib.settingSetInt t reg (value.setWidth 32))

/-- A calibration flag that is not set. -/
def addFlag (calibration : Place) (t : Setting) (name : String) : Except Rc Setting := do
  let (t, reg) ← orReturn .errorFailedParentNotGroup (lib.settingAdd t calibration name .bool)
  orReturn .errorWrongConfigType (lib.settingSetBool t reg false)

/-- The registers, in the order they are saved in. -/
def Configuration.regs (c : Configuration) : List (String × U32) :=
  [("cmd", c.cmd), ("setup", c.setup), ("frame_count", c.frameCount),
   ("integration_time", c.integrationTime), ("reset_time", c.resetTime),
   ("trigger_delay", c.triggerDelay), ("asic_initial_value", c.asicInitialValue),
   ("intercolumn_delay", c.intercolumnDelay)]

/-- The members of `misc`, in the order they are saved in. -/
def Configuration.misc (c : Configuration) : List (String × U32) :=
  [("frame_rate", c.frameRate.setWidth 32), ("binning", c.binning.setWidth 32),
   ("field_x0", c.fieldX0.setWidth 32), ("field_y0", c.fieldY0.setWidth 32),
   ("field_width", c.fieldWidth.setWidth 32), ("field_height", c.fieldHeight.setWidth 32)]

/-- The calibration flags, in the order they are saved in. -/
def calibrationFlags : List String :=
  ["valid_offset_frame", "valid_gain_frame", "valid_simple_gain", "valid_bad_pixel_map"]

/-- The members of a new group `config<configNo>`. -/
def fillConfiguration (newconfig : Place) (c : Configuration) (t : Setting) :
    Except Rc Setting := do
  let (t, desc) ← orReturn .errorFailedParentNotGroup
    (lib.settingAdd t newconfig "description" .string)
  let t ← orReturn .errorWrongConfigType (lib.settingSetString t desc c.description.text)
  let (t, hvps) ← orReturn .errorFailedCreateGroup (lib.settingAdd t newconfig "hvps" .group)
  let (t, hvps) ← orReturn .errorFailedCreateList (lib.settingAdd t hvps "channels" .list)
  let t ← c.channel.toList.foldlM (addChannel lib hvps) t
  let (t, registers) ← orReturn .errorFailedCreateGroup
    (lib.settingAdd t newconfig "regs" .group)
  let t ← c.regs.foldlM (fun t reg => addElement lib registers t reg.1 reg.2) t
  let (t, miscs) ← orReturn .errorFailedCreateGroup (lib.settingAdd t newconfig "misc" .group)
  let t ← c.misc.foldlM (fun t reg => addElement lib miscs t reg.1 reg.2) t
  let (t, calibration) ← orReturn .errorFailedCreateGroup
    (lib.settingAdd t newconfig "calibration" .group)
  calibrationFlags.foldlM (addFlag lib calibration) t

/-- `save_configuration`, with the file that it writes; `writes` says whether
`config_write_file` can. -/
def saveConfiguration (writes : Bool) (file : File) (c : Configuration) (configNo : U32) :
    Except Rc File :=
  match file with
  | .missing => .error .errorConfigurationFileOpenFailed
  | .unparsable => .error .errorConfigurationFileParseError
  | .parsed t =>
    if maxNoOfConfigs < configNo.toInt then .error .errorOutsideConfigRange
    else do
      let root ← orReturn .errorNoRootNotFound (lib.lookup t "application")
      let (t, newconfig) ← orReturn .errorFailedCreateConfig
        (lib.settingAdd t root ("config" ++ configNo.toInt.repr) .group)
      let t ← fillConfiguration lib newconfig c t
      -- "increment max_config_no"
      let maxConfig := configNo + 1
      let registers ← orReturn .errorSettingNotFound
        (lib.lookup t "application.software.max_no_of_configs")
      let t ← orReturn .errorWrongConfigType (lib.settingSetInt t registers maxConfig)
      if writes then .ok (.parsed t) else .error .errorConfigurationNotFound

/-! ## Calibration flags -/

/-- The flags of `set_calibration_flag`. -/
inductive CalibrationFlag where
  | offset
  | gain
  | badPixel
  | simpleGain
  deriving DecidableEq

namespace CalibrationFlag

/-- `OFFSET_FLAG`, `GAIN_FLAG`, `BAD_PIXEL_FLAG`, `SIMPLE_GAIN_FLAG`. -/
def ofInt (flag : U32) : Option CalibrationFlag :=
  if flag = 2 then some gain
  else if flag = 1 then some offset
  else if flag = 3 then some badPixel
  else if flag = 4 then some simpleGain
  else none

/-- The setting, below `calibration`. -/
def name : CalibrationFlag → String
  | gain => "valid_gain_frame"
  | offset => "valid_offset_frame"
  | badPixel => "valid_bad_pixel_map"
  | simpleGain => "valid_simple_gain"

def get (c : Configuration) : CalibrationFlag → U8
  | gain => c.validGainFrame
  | offset => c.validOffsetFrame
  | badPixel => c.validBadPixelMap
  | simpleGain => c.validSimpleGain

def set (c : Configuration) (value : U8) : CalibrationFlag → Configuration
  | gain => { c with validGainFrame := value }
  | offset => { c with validOffsetFrame := value }
  | badPixel => { c with validBadPixelMap := value }
  | simpleGain => { c with validSimpleGain := value }

end CalibrationFlag

/-- The configuration file and `i_config`. -/
structure Store where
  file : File
  iConfig : Config

/-- `i_config.configurations[n]` is in the array. -/
def InConfigurations (n : ℤ) : Prop := 0 ≤ n ∧ n < maxNoOfConfigs

instance (n : ℤ) : Decidable (InConfigurations n) := inferInstanceAs (Decidable (_ ∧ _))

/-- The store after a call that writes the file if it succeeds. -/
def Store.write (s : Store) : Except Rc File → Rc × Store
  | .error rc => (rc, s)
  | .ok file => (.cmdSucessfull, { s with file := file })

/-- The tests of `set_calibration_flag`: the tree, and the flag. -/
def findFlag (file : File) (configNo flag : U32) : Except Rc (Setting × CalibrationFlag) :=
  let string := configPath configNo.toInt
  match file with
  | .missing => .error .errorConfigurationFileOpenFailed
  | .unparsable => .error .errorConfigurationFileParseError
  | .parsed t => do
    let _ ← orReturn .errorConfigurationNotFound (lib.lookup t string)
    let _ ← orReturn .errorSettingNotFound (lib.lookup t (subPath string "calibration"))
    let f ← orReturn .errorFlagNotDefined (CalibrationFlag.ofInt flag)
    return (t, f)

/-- What it does to the file. -/
def writeFlag (writes : Bool) (configNo c : U32) (t : Setting) (f : CalibrationFlag) :
    Except Rc File := do
  let calib := subPath (configPath configNo.toInt) "calibration"
  let calibration ← orReturn .errorSettingNotFound (lib.lookup t (subPath calib f.name))
  let t ← orReturn .errorWrongConfigType
    (lib.settingSetBool t calibration (decide (c ≠ 0)))
  if writes then .ok (.parsed t) else .error .errorConfigurationNotFound

/-- The store with the flag in memory, where its number is assigned. -/
def Store.setFlag (s : Store) (configNo flag : U32) (f : CalibrationFlag) : Store :=
  let n := configNo.toInt.toNat
  { s with
    iConfig.configurations :=
      Function.update s.iConfig.configurations n
        (f.set (s.iConfig.configurations n) (flag.setWidth 8)) }

/-- `set_calibration_flag`.  The flag in memory is set before the file is known to have
it. -/
def setCalibrationFlag (writes : Bool) (s : Store) (configNo flag c : U32) :
    Except Fault (Rc × Store) :=
  match findFlag lib s.file configNo flag with
  | .error rc => .ok (rc, s)
  | .ok (t, f) =>
    if InConfigurations configNo.toInt then
      .ok ((s.setFlag configNo flag f).write (writeFlag lib writes configNo c t f))
    else .error .overrun

end Libconfig

/-- `get_calibration_flag`. -/
def getCalibrationFlag (iConfig : Config) (configNo flag : U32) :
    Except Fault (Except Rc U8) :=
  if iConfig.cConfig.maxNoOfConfigs.toInt < configNo.toInt then
    .ok (.error .errorConfigurationNotFound)
  else
    match CalibrationFlag.ofInt flag with
    | none => .ok (.error .errorFlagNotDefined)
    | some f =>
      if InConfigurations configNo.toInt then
        .ok (.ok (f.get (iConfig.configurations configNo.toInt.toNat)))
      else .error .overrun

end Cjunk.Settings
