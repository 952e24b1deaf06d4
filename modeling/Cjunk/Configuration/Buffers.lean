import Mathlib.Algebra.Ring.Nat
import Cjunk.Configuration.RoundTrip

/-!
# The buffers of the reader

`read_configuration_file` builds the path of each setting in a local array, by `strcpy` and
`strcat`.  Most of the arrays have 40 characters, and the paths grow with the digits of the
number of the configuration.  Here is the reader with these arrays, from an iteration of the loop
to the whole file; where they suffice it reads what the one without them does
(`readGroupInBuffers_eq`, `readFileInBuffers_eq_ok_iff`).

They do not suffice for a group that has registers or calibration flags, whatever its number:
`readsInside_iff`, `not_fileFits_of_member`.
-/

namespace Cjunk.Settings

open LabelledTree

/-- `strcat` to an array of `size` characters. -/
def strcat {size : ℕ} (dest : CharArray size) (src : String) : Except Fault (CharArray size) :=
  strcpy size (some (dest.text ++ src))

/-- `strcpy` of a path, and `strcat` of a name after a dot. -/
def join (size : ℕ) (path name : String) : Except Fault (CharArray size) := do
  let buffer ← strcpy size (some path)
  strcat buffer ("." ++ name)

section Libconfig

variable (lib : Libconfig) (t : Setting)

/-- The channels of a group that is there, with the array `channels`. -/
def readHvpsInBuffers (hvps : String) : Except Fault (Vector U16 maxNoOfChannels) :=
  if (lib.lookup t hvps).isSome then do
    let channels ← join 40 hvps "channels"
    match lib.lookup t channels.text with
    | none => return .replicate maxNoOfChannels 0
    | some list =>
      if lib.settingLength t list ≤ maxNoOfChannels then
        return Vector.ofFn fun ch =>
          if ch.val < lib.settingLength t list then
            (lib.settingGetIntElem t list ch).setWidth 16
          else 0
      else throw .overrun
  else return .replicate maxNoOfChannels 0

/-- What `read` finds at a member of a group that is there, with an array for its path. -/
def readInArray {α : Type} (size : ℕ) (group name : String) (read : String → α) (absent : α) :
    Except Fault α :=
  if (lib.lookup t group).isSome then do
    let path ← join size group name
    return read path.text
  else return absent

/-- A member, as a number. -/
def readMemberInBuffers (group name : String) : Except Fault U32 :=
  readInArray lib t 40 group name (lib.lookupInt t) 0

/-- A calibration flag, with the array `cal_flag`. -/
def readFlagInBuffers (calib name : String) : Except Fault U8 :=
  readInArray lib t 50 calib name (fun path => if lib.lookupBool t path then 1 else 0) 0

/-- `Read parameters regs`. -/
def readRegsInBuffers (string : String) (c : Configuration) : Except Fault Configuration := do
  let regs ← join 40 string "regs"
  let cmd ← readMemberInBuffers lib t regs.text "cmd"
  let setup ← readMemberInBuffers lib t regs.text "setup"
  let frameCount ← readMemberInBuffers lib t regs.text "frame_count"
  let integrationTime ← readMemberInBuffers lib t regs.text "integration_time"
  let resetTime ← readMemberInBuffers lib t regs.text "reset_time"
  let triggerDelay ← readMemberInBuffers lib t regs.text "trigger_delay"
  let asicInitialValue ← readMemberInBuffers lib t regs.text "asic_initial_value"
  let intercolumnDelay ← readMemberInBuffers lib t regs.text "intercolumn_delay"
  return { c with
    cmd := cmd
    setup := setup
    frameCount := frameCount
    integrationTime := integrationTime
    resetTime := resetTime
    triggerDelay := triggerDelay
    asicInitialValue := asicInitialValue
    intercolumnDelay := intercolumnDelay }

/-- `Read misc`. -/
def readMiscInBuffers (string : String) (c : Configuration) : Except Fault Configuration := do
  let misc ← join 40 string "misc"
  let rate ← readMemberInBuffers lib t misc.text "frame_rate"
  let binning ← readMemberInBuffers lib t misc.text "binning"
  let x0 ← readMemberInBuffers lib t misc.text "field_x0"
  let y0 ← readMemberInBuffers lib t misc.text "field_y0"
  let width ← readMemberInBuffers lib t misc.text "field_width"
  let height ← readMemberInBuffers lib t misc.text "field_height"
  return { c with
    frameRate := rate.setWidth 8
    binning := binning.setWidth 8
    fieldX0 := x0.setWidth 8
    fieldY0 := y0.setWidth 8
    fieldWidth := width.setWidth 16
    fieldHeight := height.setWidth 16 }

/-- `Read calibration flags`. -/
def readCalibrationInBuffers (string : String) (c : Configuration) :
    Except Fault Configuration := do
  let calib ← join 50 string "calibration"
  let gain ← readFlagInBuffers lib t calib.text "valid_gain_frame"
  let offset ← readFlagInBuffers lib t calib.text "valid_offset_frame"
  let badPixel ← readFlagInBuffers lib t calib.text "valid_bad_pixel_map"
  let simpleGain ← readFlagInBuffers lib t calib.text "valid_simple_gain"
  return { c with
    validGainFrame := gain
    validOffsetFrame := offset
    validBadPixelMap := badPixel
    validSimpleGain := simpleGain }

/-- The members of the group that `string` names. -/
def readGroupInBuffers (string : String) : Except Fault Configuration := do
  let path ← join 40 string "description"
  let description ← strcpy 40 (lib.lookupString t path.text)
  let hvps ← join 40 string "hvps"
  let channel ← readHvpsInBuffers lib t hvps.text
  let c ← readRegsInBuffers lib t string { description := description, channel := channel }
  let c ← readMiscInBuffers lib t string c
  readCalibrationInBuffers lib t string c

/-- An iteration of the loop, for the number `i`. -/
def readIteration (i : ℕ) : Except Fault (Option Configuration) := do
  let orig ← strcpy 40 (some "application.config")
  let number ← strcpy 20 (some i.repr)
  let string ← strcat orig number.text
  if (lib.lookup t string.text).isNone then return none
  else (readGroupInBuffers lib t string.text).map some

/-- The loop over the first `max` configurations, with these arrays. -/
def readIterations : ℕ → Except Fault (ℕ → Configuration)
  | 0 => .ok Config.cleared.configurations
  | i + 1 => do
    let configurations ← readIterations i
    match ← readIteration lib t i with
    | none => return configurations
    | some c =>
      if maxNoOfConfigs ≤ i then throw .overrun
      else return Function.update configurations i c

/-- `read_configuration_file`, with its local arrays, and what it leaves in `i_config`. -/
def readFileInBuffers (file : File) (iConfig : Config) : Except Fault (Rc × Config) :=
  match file with
  | .missing => .ok (.error, iConfig)
  | .unparsable => .ok (.error, iConfig)
  | .parsed t =>
    if (lib.lookup t "application").isNone then .ok (.error, iConfig)
    else do
      let cConfig ← readCommon lib t
      let configurations ← readIterations lib t cConfig.maxNoOfConfigs.toInt.toNat
      return (.cmdSucessfull, { cConfig := cConfig, configurations := configurations })

/-- The read of a parsed file stays inside its arrays: the name of the SNMP agent fits, and
every iteration of the loop gets to its end. -/
def ReadsInside : Prop :=
  (lib.lookup t "application").isSome → (∃ cConfig, readCommon lib t = .ok cConfig) ∧
    ∀ i < (lib.lookupInt t "application.software.max_no_of_configs").toInt.toNat,
      ∃ c, readIteration lib t i = .ok c

end Libconfig

/-! ## Paths in arrays -/

section Paths

variable {size : ℕ} {path name : String}

theorem strcat_eq_ok {dest a : CharArray size} {src : String} :
    strcat dest src = .ok a ↔ a.text = dest.text ++ src := by
  unfold strcat
  rw [strcpy_eq_ok, Option.some_inj, eq_comm]

theorem length_subPath (path name : String) :
    (subPath path name).length = path.length + (name.length + 1) := by
  unfold subPath
  rw [String.length_append, String.length_append, Nat.add_comm name.length]
  rfl

/-- A path that fits is built. -/
theorem join_of_lt (fits : (subPath path name).length < size) :
    join size path name = .ok { text := subPath path name, fits := fits } := by
  have length := length_subPath path name
  have copied : strcpy size (some path) = .ok { text := path, fits := by omega } :=
    strcpy_eq_ok.mpr rfl
  unfold join
  rw [copied]
  exact strcat_eq_ok.mpr rfl

/-- What was built is the path, and fits. -/
theorem join_eq_ok {a : CharArray size} (h : join size path name = .ok a) :
    a.text = subPath path name ∧ (subPath path name).length < size := by
  obtain ⟨buffer, copied, h⟩ := bind_eq_ok.mp h
  have copied := Option.some_inj.mp (strcpy_eq_ok.mp copied)
  have text := strcat_eq_ok.mp h
  rw [← copied] at text
  have fits := a.fits
  rw [text] at fits
  exact ⟨text, fits⟩

variable {lib : Libconfig} {t : Setting}

theorem readInArray_eq_ok {α : Type} {group : String} {read : String → α} {absent v : α} :
    readInArray lib t size group name read absent = .ok v ↔
      ((lib.lookup t group).isSome → (subPath group name).length < size) ∧
        v = if (lib.lookup t group).isSome then read (subPath group name) else absent := by
  unfold readInArray
  cases (lib.lookup t group).isSome with
  | false => simp [pure, Except.pure, eq_comm]
  | true =>
      rw [if_pos rfl, if_pos rfl, bind_eq_ok]
      constructor
      · rintro ⟨a, built, h⟩
        cases h
        obtain ⟨text, fits⟩ := join_eq_ok built
        exact ⟨fun _ => fits, congrArg read text⟩
      · rintro ⟨fits, rfl⟩
        exact ⟨_, join_of_lt (fits rfl), rfl⟩

theorem readHvpsInBuffers_of_lt {hvps : String}
    (fits : (lib.lookup t hvps).isSome → (subPath hvps "channels").length < 40) :
    readHvpsInBuffers lib t hvps = readHvps lib t hvps := by
  unfold readHvpsInBuffers readHvps readChannels
  cases there : (lib.lookup t hvps).isSome with
  | false => rfl
  | true =>
      rw [if_pos rfl, if_pos rfl, join_of_lt (fits there)]
      rfl

theorem readHvpsInBuffers_fits {hvps : String} {v : Vector U16 maxNoOfChannels}
    (h : readHvpsInBuffers lib t hvps = .ok v) :
    (lib.lookup t hvps).isSome → (subPath hvps "channels").length < 40 := by
  intro there
  rw [readHvpsInBuffers, if_pos there] at h
  obtain ⟨_, built, -⟩ := bind_eq_ok.mp h
  exact (join_eq_ok built).2

end Paths

/-! ## Groups -/

/-- The paths of a group fit.  Those of registers and of calibration flags never do. -/
structure PathsFit (lib : Libconfig) (t : Setting) (string : String) : Prop where
  description : string.length < 28
  hvps : (lib.lookup t (subPath string "hvps")).isSome → string.length < 26
  regs : lib.lookup t (subPath string "regs") = none
  misc : (lib.lookup t (subPath string "misc")).isSome → string.length < 22
  calibration : lib.lookup t (subPath string "calibration") = none

section Groups

variable {lib : Libconfig} {t : Setting} {string : String} {c c' : Configuration}

theorem PathsFit.subPath_lt (h : PathsFit lib t string) {name : String}
    (short : name.length < 12) : (subPath string name).length < 40 := by
  have path := h.description
  rw [length_subPath]
  omega

theorem readMemberInBuffers_of_lt {group name : String}
    (fits : (lib.lookup t group).isSome → (subPath group name).length < 40) :
    readMemberInBuffers lib t group name = .ok (readMember lib t group name) :=
  readInArray_eq_ok.mpr ⟨fits, rfl⟩

theorem readMemberInBuffers_of_none {group name : String} (absent : lib.lookup t group = none) :
    readMemberInBuffers lib t group name = .ok (readMember lib t group name) := by
  refine readMemberInBuffers_of_lt fun there => ?_
  rw [absent] at there
  cases there

theorem readFlagInBuffers_of_none {calib name : String} (absent : lib.lookup t calib = none) :
    readFlagInBuffers lib t calib name = .ok (readFlag lib t calib name) := by
  refine readInArray_eq_ok.mpr ⟨fun there => ?_, rfl⟩
  rw [absent] at there
  cases there

/-- There are no registers: `integration_time` is too long for its array. -/
theorem readRegsInBuffers_fits (long : 18 < string.length)
    (h : readRegsInBuffers lib t string c = .ok c') :
    lib.lookup t (subPath string "regs") = none := by
  obtain ⟨regs, built, h⟩ := bind_eq_ok.mp h
  obtain ⟨text, -⟩ := join_eq_ok built
  rw [text] at h
  obtain ⟨_, -, h⟩ := bind_eq_ok.mp h
  obtain ⟨_, -, h⟩ := bind_eq_ok.mp h
  obtain ⟨_, -, h⟩ := bind_eq_ok.mp h
  obtain ⟨_, read, -⟩ := bind_eq_ok.mp h
  have fits := (readInArray_eq_ok.mp read).1
  rw [length_subPath, length_subPath] at fits
  rw [← Option.not_isSome_iff_eq_none]
  intro there
  have short : string.length + (4 + 1) + (16 + 1) < 40 := fits there
  omega

/-- There is no calibration: `valid_offset_frame` is too long for its array. -/
theorem readCalibrationInBuffers_fits (long : 18 < string.length)
    (h : readCalibrationInBuffers lib t string c = .ok c') :
    lib.lookup t (subPath string "calibration") = none := by
  obtain ⟨calib, built, h⟩ := bind_eq_ok.mp h
  obtain ⟨text, -⟩ := join_eq_ok built
  rw [text] at h
  obtain ⟨_, -, h⟩ := bind_eq_ok.mp h
  obtain ⟨_, read, -⟩ := bind_eq_ok.mp h
  have fits := (readInArray_eq_ok.mp read).1
  rw [length_subPath, length_subPath] at fits
  rw [← Option.not_isSome_iff_eq_none]
  intro there
  have short : string.length + (11 + 1) + (18 + 1) < 50 := fits there
  omega

/-- The longest path of the miscellaneous settings is that of `field_height`. -/
theorem readMiscInBuffers_fits (h : readMiscInBuffers lib t string c = .ok c') :
    (lib.lookup t (subPath string "misc")).isSome → string.length < 22 := by
  obtain ⟨misc, built, h⟩ := bind_eq_ok.mp h
  obtain ⟨text, -⟩ := join_eq_ok built
  rw [text] at h
  obtain ⟨_, -, h⟩ := bind_eq_ok.mp h
  obtain ⟨_, -, h⟩ := bind_eq_ok.mp h
  obtain ⟨_, -, h⟩ := bind_eq_ok.mp h
  obtain ⟨_, -, h⟩ := bind_eq_ok.mp h
  obtain ⟨_, -, h⟩ := bind_eq_ok.mp h
  obtain ⟨_, read, -⟩ := bind_eq_ok.mp h
  have fits := (readInArray_eq_ok.mp read).1
  rw [length_subPath, length_subPath] at fits
  intro there
  have short : string.length + (4 + 1) + (12 + 1) < 40 := fits there
  omega

theorem readRegsInBuffers_eq (fits : PathsFit lib t string) :
    readRegsInBuffers lib t string c = .ok { c with
      cmd := readMember lib t (subPath string "regs") "cmd"
      setup := readMember lib t (subPath string "regs") "setup"
      frameCount := readMember lib t (subPath string "regs") "frame_count"
      integrationTime := readMember lib t (subPath string "regs") "integration_time"
      resetTime := readMember lib t (subPath string "regs") "reset_time"
      triggerDelay := readMember lib t (subPath string "regs") "trigger_delay"
      asicInitialValue := readMember lib t (subPath string "regs") "asic_initial_value"
      intercolumnDelay := readMember lib t (subPath string "regs") "intercolumn_delay" } := by
  have built := join_of_lt (fits.subPath_lt (by decide : "regs".length < 12))
  simp only [readRegsInBuffers, built, bind, Except.bind, readMemberInBuffers_of_none fits.regs]
  rfl

theorem readMiscInBuffers_eq (fits : PathsFit lib t string) :
    readMiscInBuffers lib t string c = .ok { c with
      frameRate := (readMember lib t (subPath string "misc") "frame_rate").setWidth 8
      binning := (readMember lib t (subPath string "misc") "binning").setWidth 8
      fieldX0 := (readMember lib t (subPath string "misc") "field_x0").setWidth 8
      fieldY0 := (readMember lib t (subPath string "misc") "field_y0").setWidth 8
      fieldWidth := (readMember lib t (subPath string "misc") "field_width").setWidth 16
      fieldHeight := (readMember lib t (subPath string "misc") "field_height").setWidth 16 } := by
  have built := join_of_lt (fits.subPath_lt (by decide : "misc".length < 12))
  have read (name : String) (short : name.length < 13) :
      readMemberInBuffers lib t (subPath string "misc") name =
        .ok (readMember lib t (subPath string "misc") name) := by
    refine readMemberInBuffers_of_lt fun there => ?_
    have path := fits.misc there
    rw [length_subPath, length_subPath]
    show string.length + (4 + 1) + (name.length + 1) < 40
    omega
  simp (disch := decide) only [readMiscInBuffers, built, bind, Except.bind, read]
  rfl

theorem readCalibrationInBuffers_eq (fits : PathsFit lib t string) :
    readCalibrationInBuffers lib t string c = .ok { c with
      validGainFrame := readFlag lib t (subPath string "calibration") "valid_gain_frame"
      validOffsetFrame := readFlag lib t (subPath string "calibration") "valid_offset_frame"
      validBadPixelMap := readFlag lib t (subPath string "calibration") "valid_bad_pixel_map"
      validSimpleGain := readFlag lib t (subPath string "calibration") "valid_simple_gain" } := by
  have short : (subPath string "calibration").length < 50 :=
    Nat.lt_trans (fits.subPath_lt (by decide : "calibration".length < 12)) (by decide)
  simp only [readCalibrationInBuffers, join_of_lt short, bind, Except.bind,
    readFlagInBuffers_of_none fits.calibration]
  rfl

/-- Where the paths fit, the arrays make no difference. -/
theorem readGroupInBuffers_eq {i : ℕ} (fits : PathsFit lib t (configPath i)) :
    readGroupInBuffers lib t (configPath i) = readGroup lib t i := by
  have description := join_of_lt (fits.subPath_lt (by decide : "description".length < 12))
  have hvps := join_of_lt (fits.subPath_lt (by decide : "hvps".length < 12))
  have channels : (lib.lookup t (subPath (configPath i) "hvps")).isSome →
      (subPath (subPath (configPath i) "hvps") "channels").length < 40 := by
    intro there
    have path := fits.hvps there
    rw [length_subPath, length_subPath]
    show (configPath i).length + (4 + 1) + (8 + 1) < 40
    omega
  unfold readGroupInBuffers readGroup
  simp only [description, hvps, bind, Except.bind, readHvpsInBuffers_of_lt channels,
    readRegsInBuffers_eq fits, readMiscInBuffers_eq fits, readCalibrationInBuffers_eq fits]
  rfl

theorem readGroupInBuffers_fits (long : 18 < string.length)
    (h : readGroupInBuffers lib t string = .ok c) : PathsFit lib t string := by
  obtain ⟨path, built, h⟩ := bind_eq_ok.mp h
  obtain ⟨-, description⟩ := join_eq_ok built
  obtain ⟨_, -, h⟩ := bind_eq_ok.mp h
  obtain ⟨hvps, built, h⟩ := bind_eq_ok.mp h
  obtain ⟨text, -⟩ := join_eq_ok built
  obtain ⟨_, channels, h⟩ := bind_eq_ok.mp h
  rw [text] at channels
  have channels := readHvpsInBuffers_fits channels
  obtain ⟨_, regs, h⟩ := bind_eq_ok.mp h
  obtain ⟨_, misc, calibration⟩ := bind_eq_ok.mp h
  rw [length_subPath] at description
  rw [length_subPath, length_subPath] at channels
  refine ⟨?_, fun there => ?_, readRegsInBuffers_fits long regs, readMiscInBuffers_fits misc,
    readCalibrationInBuffers_fits long calibration⟩
  · have short : string.length + (11 + 1) < 40 := description
    omega
  · have short : string.length + (4 + 1) + (8 + 1) < 40 := channels there
    omega

end Groups

/-! ## The loop -/

/-- A number has at most `k` digits if it is below the power of ten. -/
theorem length_repr_le_iff {i k : ℕ} (pos : 0 < k) : i.repr.length ≤ k ↔ i < 10 ^ k := by
  rw [← String.length_toList, Nat.toList_repr]
  exact Nat.length_toDigits_le_iff (by decide) pos

theorem length_configPath (i : ℕ) : (configPath i).length = 18 + i.repr.length := by
  unfold configPath
  rw [String.length_append]
  rfl

theorem length_configPath_lt_iff {i k : ℕ} (pos : 0 < k) :
    (configPath i).length < 19 + k ↔ i < 10 ^ k := by
  rw [length_configPath, ← length_repr_le_iff pos]
  omega

theorem lt_length_configPath (i : ℕ) : 18 < (configPath i).length := by
  have digits : 0 < i.repr.length := by
    rw [← String.length_toList, Nat.toList_repr]
    exact Nat.length_toDigits_pos
  rw [length_configPath]
  omega

/-- The group of the number can be read in the arrays of the reader. -/
structure GroupFits (t : Setting) (i : ℕ) : Prop where
  readable : Readable t i
  description : i < 10 ^ 9
  hvps : (below t i [.member "hvps"]).isSome → i < 10 ^ 7
  regs : below t i [.member "regs"] = none
  misc : (below t i [.member "misc"]).isSome → i < 10 ^ 3
  calibration : below t i [.member "calibration"] = none

theorem groupFits_iff {t : Setting} {i : ℕ} : GroupFits t i ↔
    Readable t i ∧ i < 10 ^ 9 ∧ ((below t i [.member "hvps"]).isSome → i < 10 ^ 7) ∧
      below t i [.member "regs"] = none ∧
      ((below t i [.member "misc"]).isSome → i < 10 ^ 3) ∧
      below t i [.member "calibration"] = none :=
  ⟨fun h => ⟨h.1, h.2, h.3, h.4, h.5, h.6⟩,
    fun ⟨readable, description, hvps, regs, misc, calibration⟩ =>
      ⟨readable, description, hvps, regs, misc, calibration⟩⟩

instance (t : Setting) (i : ℕ) : Decidable (GroupFits t i) :=
  decidable_of_iff _ groupFits_iff.symm

section Documented

variable {lib : Libconfig} (doc : lib.Documented) {t : Setting} {i : ℕ}

include doc

theorem lookup_member {name : String} (plain : '.' ∉ name.toList) :
    (lib.lookup t (subPath (configPath i) name)).isSome = (below t i [.member name]).isSome := by
  rw [lookup_isSome doc, components_member (components_configPath i) plain]
  rfl

theorem pathsFit_and_readable_iff :
    PathsFit lib t (configPath i) ∧ Readable t i ↔ GroupFits t i := by
  have absent {name : String} (plain : '.' ∉ name.toList) :
      lib.lookup t (subPath (configPath i) name) = none ↔ below t i [.member name] = none := by
    rw [← Option.not_isSome_iff_eq_none, lookup_member doc plain, Option.not_isSome_iff_eq_none]
  have digits : (configPath i).length < 28 ↔ i < 10 ^ 9 :=
    length_configPath_lt_iff (by decide : 0 < 9)
  have hvps : (configPath i).length < 26 ↔ i < 10 ^ 7 :=
    length_configPath_lt_iff (by decide : 0 < 7)
  have misc : (configPath i).length < 22 ↔ i < 10 ^ 3 :=
    length_configPath_lt_iff (by decide : 0 < 3)
  have hvpsThere := lookup_member doc (t := t) (i := i) (by decide : '.' ∉ "hvps".toList)
  have miscThere := lookup_member doc (t := t) (i := i) (by decide : '.' ∉ "misc".toList)
  constructor
  · rintro ⟨fits, readable⟩
    exact ⟨readable, digits.mp fits.description,
      fun there => hvps.mp (fits.hvps (hvpsThere ▸ there)),
      (absent (by decide)).mp fits.regs, fun there => misc.mp (fits.misc (miscThere ▸ there)),
      (absent (by decide)).mp fits.calibration⟩
  · intro fits
    exact ⟨⟨digits.mpr fits.description, fun there => hvps.mpr (fits.hvps (hvpsThere ▸ there)),
      (absent (by decide)).mpr fits.regs, fun there => misc.mpr (fits.misc (miscThere ▸ there)),
      (absent (by decide)).mpr fits.calibration⟩, fits.readable⟩

/-- In the arrays a group reads as it does without them, if it fits. -/
theorem readGroupInBuffers_eq_ok {c : Configuration} :
    readGroupInBuffers lib t (configPath i) = .ok c ↔
      GroupFits t i ∧ groupAt (below t i) = .ok c := by
  rw [← pathsFit_and_readable_iff doc]
  constructor
  · intro h
    have fits := readGroupInBuffers_fits (lt_length_configPath i) h
    rw [readGroupInBuffers_eq fits, readGroup_eq doc] at h
    exact ⟨⟨fits, (groupAt_ok_iff i).mp ⟨c, h⟩⟩, h⟩
  · rintro ⟨⟨fits, -⟩, h⟩
    rw [readGroupInBuffers_eq fits, readGroup_eq doc]
    exact h

/-- A group can be read in the arrays exactly if it fits. -/
theorem readGroupInBuffers_ok_iff :
    (∃ c, readGroupInBuffers lib t (configPath i) = .ok c) ↔ GroupFits t i := by
  constructor
  · rintro ⟨c, h⟩
    exact ((readGroupInBuffers_eq_ok doc).mp h).1
  · intro fits
    obtain ⟨c, group⟩ := (groupAt_ok_iff i).mpr fits.readable
    exact ⟨c, (readGroupInBuffers_eq_ok doc).mpr ⟨fits, group⟩⟩

omit doc in
/-- The number of an iteration has at most ten digits, and its path fits. -/
theorem readIteration_eq (few : i < 10 ^ 10) :
    readIteration lib t i = if (lib.lookup t (configPath i)).isNone then .ok none
      else (readGroupInBuffers lib t (configPath i)).map some := by
  have digits := (length_repr_le_iff (by decide : 0 < 10)).mpr few
  have number : strcpy 20 (some i.repr) = .ok { text := i.repr, fits := by omega } :=
    strcpy_eq_ok.mpr rfl
  have length := length_configPath i
  have string : strcat { text := "application.config", fits := by decide : CharArray 40 } i.repr =
      .ok { text := configPath i, fits := by omega } := strcat_eq_ok.mpr rfl
  have orig : strcpy 40 (some "application.config") =
      .ok { text := "application.config", fits := by decide } := strcpy_eq_ok.mpr rfl
  simp only [readIteration, orig, number, string, bind, Except.bind]
  rfl

theorem readIteration_absent (few : i < 10 ^ 10) (absent : ¬ HasGroup t i) :
    readIteration lib t i = .ok none := by
  have found := lookup_isSome doc (t := t) (configPath i)
  rw [components_configPath, Bool.eq_false_iff.mpr absent] at found
  rw [readIteration_eq few, ← Option.not_isSome, found]
  rfl

theorem readIteration_present (few : i < 10 ^ 10) (present : HasGroup t i) :
    readIteration lib t i = (readGroupInBuffers lib t (configPath i)).map some := by
  have found := lookup_isSome doc (t := t) (configPath i)
  rw [components_configPath, show (t.get (configPlace i)).isSome = true from present] at found
  rw [readIteration_eq few, ← Option.not_isSome, found]
  rfl

theorem readIteration_ok_iff (few : i < 10 ^ 10) :
    (∃ c, readIteration lib t i = .ok c) ↔ (HasGroup t i → GroupFits t i) := by
  rw [← readGroupInBuffers_ok_iff doc]
  by_cases present : HasGroup t i
  · rw [readIteration_present doc few present, forall_prop_of_true present]
    cases readGroupInBuffers lib t (configPath i) with
    | error fault => exact iff_of_false nofun nofun
    | ok c => exact iff_of_true ⟨some c, rfl⟩ ⟨c, rfl⟩
  · rw [readIteration_absent doc few present]
    exact iff_of_true ⟨none, rfl⟩ fun there => absurd there present

omit doc in
theorem countOf_lt (t : Setting) : countOf t < 10 ^ 10 := by
  have high := BitVec.toInt_lt (x := Setting.toInt (t.get maxPlace))
  unfold countOf
  omega

/-- **The arrays of the reader.**  A read stays inside its arrays exactly if the name of the SNMP
agent fits, and no group in the reach of the loop has registers, calibration flags, or one of
the other things that do not fit. -/
theorem readsInside_iff :
    ReadsInside lib t ↔ ((t.get [.member "application"]).isSome →
      SnmpFits t ∧ ∀ i < countOf t, HasGroup t i → GroupFits t i) := by
  unfold ReadsInside
  rw [lookup_isSome doc, components_application, readCommon_ok_iff doc, doc.lookupInt,
    components_max]
  refine forall_congr' fun _ => and_congr_right fun _ => forall_congr' fun i =>
    forall_congr' fun counted => ?_
  exact readIteration_ok_iff doc (Nat.lt_trans counted (countOf_lt t))

/-! ## The file -/

theorem readIterations_present {m : ℕ} (few : m < 10 ^ 10) (present : HasGroup t m)
    {f : ℕ → Configuration} :
    readIterations lib t (m + 1) = .ok f ↔
      GroupFits t m ∧ m < maxNoOfConfigs ∧ groupAt (below t m) = .ok (f m) ∧
        ∃ cs, readIterations lib t m = .ok cs ∧ f = Function.update cs m (f m) := by
  rw [readIterations, readIteration_present doc few present, bind_eq_ok]
  constructor
  · rintro ⟨cs, loop, h⟩
    obtain ⟨o, read, h⟩ := bind_eq_ok.mp h
    cases group : readGroupInBuffers lib t (configPath m) with
    | error fault =>
        rw [group] at read
        cases read
    | ok c =>
        rw [group] at read
        cases read
        obtain ⟨fits, group⟩ := (readGroupInBuffers_eq_ok doc).mp group
        dsimp only at h
        split at h
        · cases h
        · rename_i inside
          cases h
          have last : Function.update cs m c m = c := Function.update_self m c cs
          rw [last]
          exact ⟨fits, Nat.lt_of_not_le inside, group, cs, loop, rfl⟩
  · rintro ⟨fits, inside, group, cs, loop, same⟩
    refine ⟨cs, loop, ?_⟩
    rw [(readGroupInBuffers_eq_ok doc).mpr ⟨fits, group⟩]
    show (if maxNoOfConfigs ≤ m then _ else _) = _
    rw [if_neg (Nat.not_le.mpr inside), same, Function.update_self]
    rfl

/-- With the arrays the loop returns what it does without them, if every group on its way
fits. -/
theorem readIterations_eq_ok_iff {m : ℕ} (few : m ≤ 10 ^ 10) {f : ℕ → Configuration} :
    readIterations lib t m = .ok f ↔
      readConfigurations lib t m = .ok f ∧ ∀ i < m, HasGroup t i → GroupFits t i := by
  induction m generalizing f with
  | zero => exact ⟨fun h => ⟨h, fun i none => absurd none (Nat.not_lt_zero i)⟩, fun h => h.1⟩
  | succ m ih =>
      have ih (cs : ℕ → Configuration) := ih (Nat.le_of_succ_le few) (f := cs)
      rw [Nat.forall_lt_succ_right]
      by_cases present : HasGroup t m
      · rw [readConfigurations_present doc present, readIterations_present doc few present]
        constructor
        · rintro ⟨fits, inside, group, cs, loop, same⟩
          obtain ⟨loop, others⟩ := (ih cs).mp loop
          exact ⟨⟨inside, group, cs, loop, same⟩, others, fun _ => fits⟩
        · rintro ⟨⟨inside, group, cs, loop, same⟩, others, fits⟩
          exact ⟨fits present, inside, group, cs, (ih cs).mpr ⟨loop, others⟩, same⟩
      · rw [readConfigurations_absent doc present, readIterations, bind_eq_ok,
          readIteration_absent doc few present]
        constructor
        · rintro ⟨cs, loop, h⟩
          cases h
          obtain ⟨loop, others⟩ := (ih f).mp loop
          exact ⟨loop, others, fun there => absurd there present⟩
        · rintro ⟨loop, others, -⟩
          exact ⟨f, (ih f).mpr ⟨loop, others⟩, rfl⟩

/-- The file can be read, and every group that the loop reaches fits the arrays. -/
structure FileFits (t : Setting) : Prop where
  readable : FileReadable t
  groups : ∀ i < countOf t, HasGroup t i → GroupFits t i

instance : Decidable (FileFits t) :=
  decidable_of_iff (FileReadable t ∧ ∀ i < countOf t, HasGroup t i → GroupFits t i)
    ⟨fun h => ⟨h.1, h.2⟩, fun h => ⟨h.1, h.2⟩⟩

/-- With the arrays a read gets what it does without them, if every group that it reaches
fits. -/
theorem readFileInBuffers_eq_ok_iff {before after : Config} :
    readFileInBuffers lib (.parsed t) before = .ok (.cmdSucessfull, after) ↔
      readConfigurationFile lib (.parsed t) before = .ok (.cmdSucessfull, after) ∧
        ∀ i < countOf t, HasGroup t i → GroupFits t i := by
  rw [readConfigurationFile_eq_ok_iff doc]
  unfold readFileInBuffers
  have found := lookup_isSome doc (t := t) "application"
  rw [components_application] at found
  dsimp only
  rw [← Option.not_isSome, found]
  have loop := readIterations_eq_ok_iff doc (t := t) (Nat.le_of_lt (countOf_lt t))
    (f := after.configurations)
  cases (t.get [.member "application"]).isSome with
  | false => simp
  | true =>
      rw [if_neg (by decide), bind_eq_ok]
      constructor
      · rintro ⟨c, common, h⟩
        obtain ⟨f, read, h⟩ := bind_eq_ok.mp h
        cases h
        rw [readCommon_ok doc common] at read
        obtain ⟨read, fits⟩ := loop.mp read
        exact ⟨⟨rfl, common, read⟩, fits⟩
      · rintro ⟨⟨-, common, read⟩, fits⟩
        refine ⟨after.cConfig, common, ?_⟩
        rw [readCommon_ok doc common, loop.mpr ⟨read, fits⟩]
        rfl

theorem readFileInBuffers_ok_iff (before : Config) :
    (∃ after, readFileInBuffers lib (.parsed t) before = .ok (.cmdSucessfull, after)) ↔
      FileFits t := by
  constructor
  · rintro ⟨after, h⟩
    obtain ⟨read, fits⟩ := (readFileInBuffers_eq_ok_iff doc).mp h
    exact ⟨(readConfigurationFile_ok_iff doc before).mp ⟨after, read⟩, fits⟩
  · rintro ⟨readable, fits⟩
    obtain ⟨after, read⟩ := (readConfigurationFile_ok_iff doc before).mpr readable
    exact ⟨after, (readFileInBuffers_eq_ok_iff doc).mpr ⟨read, fits⟩⟩

/-- A read of a file that does not fit ends in a fault. -/
theorem readFileInBuffers_faults (application : (t.get [.member "application"]).isSome)
    (unfit : ¬ FileFits t) (before : Config) :
    ∃ fault, readFileInBuffers lib (.parsed t) before = .error fault := by
  cases read : readFileInBuffers lib (.parsed t) before with
  | error fault => exact ⟨fault, rfl⟩
  | ok r =>
      refine absurd ((readFileInBuffers_ok_iff doc before).mp ⟨r.2, ?_⟩) unfit
      have found := lookup_isSome doc (t := t) "application"
      rw [components_application, application] at found
      unfold readFileInBuffers at read ⊢
      dsimp only at read ⊢
      rw [← Option.not_isSome, found, if_neg (by decide)] at read ⊢
      obtain ⟨c, -, loop⟩ := bind_eq_ok.mp read
      obtain ⟨f, -, last⟩ := bind_eq_ok.mp loop
      cases last
      exact read

omit doc in
/-- A group that fits has no register and no calibration flag. -/
theorem GroupFits.member_eq_none (fits : GroupFits t i) {group name : String}
    (bare : group ∈ ["regs", "calibration"]) :
    t.get (configPlace i ++ [.member group, .member name]) = none := by
  have absent : below t i [.member group] = none := by
    rcases List.mem_pair.mp bare with rfl | rfl
    · exact fits.regs
    · exact fits.calibration
  rw [← Option.not_isSome_iff_eq_none]
  intro there
  have inside : (below t i [.member group]).isSome := by
    apply NamedTree.isSome_get_of_append (q := [.member name])
    rw [List.append_assoc]
    exact there
  rw [absent] at inside
  cases inside

omit doc in
/-- A register or a calibration flag of a counted number is in the way. -/
theorem not_fileFits_of_member {n : ℤ} {group name : String}
    (bare : group ∈ ["regs", "calibration"]) (low : 0 ≤ n) (counted : n < countOf t)
    (there : (t.get (configPlace n ++ [.member group, .member name])).isSome) : ¬ FileFits t := by
  intro fits
  have number : ((n.toNat : ℕ) : ℤ) = n := Int.toNat_of_nonneg low
  rw [← number] at there
  have present : HasGroup t n.toNat := NamedTree.isSome_get_of_append there
  rw [(fits.groups n.toNat (by omega) present).member_eq_none bare] at there
  cases there

end Documented

/-- A group with a description and channels fits. -/
theorem readsInside_sample : ReadsInside .manual (sampleFile 1 [("config0", sampleGroup)]) := by
  refine (readsInside_iff Libconfig.manual_documented).mpr fun _ =>
    ⟨by decide +kernel, fun i counted _ => ?_⟩
  have count : countOf (sampleFile 1 [("config0", sampleGroup)]) = 1 := by decide +kernel
  obtain rfl : i = 0 := by omega
  exact ⟨by decide +kernel, by decide, fun _ => by decide, rfl, nofun, rfl⟩

/-- A group with registers, as a save writes it, does not. -/
theorem registers_do_not_fit :
    let t := sampleFile 1 [("config0", .group [("description", Setting.string "sample"),
      ("regs", .group [("cmd", Setting.int 1)])])]
    faultOf (readIteration .manual t 0) = some .overrun ∧ ¬ ∀ t, ReadsInside .manual t := by
  intro t
  have fault : faultOf (readIteration .manual t 0) = some .overrun := by decide +kernel
  refine ⟨fault, fun all => ?_⟩
  obtain ⟨-, loop⟩ := all t (by decide +kernel)
  obtain ⟨c, read⟩ := loop 0 (by decide +kernel)
  rw [read] at fault
  cases fault

end Cjunk.Settings
