import Cjunk.Configuration.Reading

/-!
# Reading back what was saved

From a group that `saveConfiguration` has filled, `readConfigurationFile` reads the
configuration that was saved, without its calibration flags (`groupAt_filled`).

Whether it gets there depends on the other groups.  After `save_configuration` of number `n`
the loop runs up to `n`, and a group on its way may be one that it cannot read: without a
description, which makes `strcpy` copy from `NULL`, or with one that does not fit.  The reader
looks whether the other members are there.  `saveConfiguration_readBack_iff`: the configuration
is read back exactly if there is no such group below `n`, and the name of the SNMP agent fits.
-/

namespace Cjunk.Settings

open LabelledTree NamedTree

/-- The configuration with its four calibration flags false. -/
def Configuration.uncalibrated (c : Configuration) : Configuration :=
  { c with validGainFrame := 0, validSimpleGain := 0, validOffsetFrame := 0,
           validBadPixelMap := 0 }

section Filled

variable {t u : Setting} {c : Configuration} {n : ℤ}

/-- The channels are 16 bits wide, in settings of 32 bits. -/
theorem channelsOf_saved (channel : Vector U16 maxNoOfChannels) :
    channelsOf (channel.toList.map fun v => Setting.int (v.setWidth 32)) = .ok channel := by
  have length : (channel.toList.map fun v => Setting.int (v.setWidth 32)).length =
      maxNoOfChannels := by
    rw [List.length_map, Vector.length_toList]
  unfold channelsOf
  rw [if_pos (Nat.le_of_eq length)]
  apply congrArg Except.ok
  ext ch inside : 1
  rw [Vector.getElem_ofFn, List.getElem?_map, Vector.getElem?_toList,
    Vector.getElem?_eq_getElem inside]
  show BitVec.setWidth 16 (BitVec.setWidth 32 channel[ch]) = channel[ch]
  rw [BitVec.setWidth_setWidth_of_le _ (by decide), BitVec.setWidth_eq]

/-- A group with the channels, the registers and the miscellaneous settings of `c` reads as
`c`, with the description and the flags that it has. -/
theorem groupAt_of_members {b : Place → Option Setting} {description : CharArray 40}
    (copied : strcpy 40 (Setting.toString? (b [.member "description"])) = .ok description)
    (channels : channelsOf (Setting.elems (b [.member "hvps", .member "channels"])) =
      .ok c.channel)
    (regs : ∀ r ∈ c.regs, b [.member "regs", .member r.1] = some (Setting.int r.2))
    (misc : ∀ r ∈ c.misc, b [.member "misc", .member r.1] = some (Setting.int r.2)) :
    groupAt b = .ok { c with
      description := description
      validGainFrame := flagAt b "valid_gain_frame"
      validOffsetFrame := flagAt b "valid_offset_frame"
      validBadPixelMap := flagAt b "valid_bad_pixel_map"
      validSimpleGain := flagAt b "valid_simple_gain" } := by
  have regs : ∀ r ∈ c.regs, intAt b "regs" r.1 = r.2 := by
    intro r member
    rw [intAt, regs r member]
    rfl
  have misc : ∀ r ∈ c.misc, intAt b "misc" r.1 = r.2 := by
    intro r member
    rw [intAt, misc r member]
    rfl
  simp only [Configuration.regs, List.forall_mem_cons] at regs
  simp only [Configuration.misc, List.forall_mem_cons] at misc
  unfold groupAt
  rw [copied, channels]
  show Except.ok _ = Except.ok _
  obtain ⟨cmd, setup, frameCount, integrationTime, resetTime, triggerDelay, asicInitialValue,
    intercolumnDelay, -⟩ := regs
  obtain ⟨frameRate, binning, fieldX0, fieldY0, fieldWidth, fieldHeight, -⟩ := misc
  rw [cmd, setup, frameCount, integrationTime, resetTime, triggerDelay, asicInitialValue,
    intercolumnDelay, frameRate, binning, fieldX0, fieldY0, fieldWidth, fieldHeight]
  simp only [BitVec.setWidth_setWidth_of_le _ (by decide : 8 ≤ 32),
    BitVec.setWidth_setWidth_of_le _ (by decide : 16 ≤ 32), BitVec.setWidth_eq]

/-- A group that was filled reads as the configuration it was filled with. -/
theorem groupAt_filled (filled : Filled (configPlace n) c u) :
    groupAt (below u n) = .ok c.uncalibrated := by
  have description : strcpy 40 (Setting.toString? (below u n [.member "description"])) =
      .ok c.description := by
    rw [below, filled.description]
    exact strcpy_eq_ok.mpr rfl
  have channels : channelsOf (Setting.elems (below u n [.member "hvps", .member "channels"])) =
      .ok c.channel := by
    rw [below, filled.channels]
    exact channelsOf_saved c.channel
  have flags : ∀ flag ∈ calibrationFlags, flagAt (below u n) flag = 0 := by
    intro flag member
    rw [flagAt, below, filled.calibration flag member]
    rfl
  simp only [calibrationFlags, List.forall_mem_cons] at flags
  obtain ⟨offset, gain, simpleGain, badPixel, -⟩ := flags
  rw [groupAt_of_members description channels filled.regs filled.misc, offset, gain, simpleGain,
    badPixel]
  rfl

end Filled

/-! ## The other groups -/

section Saved

variable {lib : Libconfig} {t u : Setting} {c : Configuration} {n : U32} (saved : Saved t c n u)

include saved

theorem Saved.below_eq {k : ℤ} (other : k ≠ n.toInt) : below u k = below t k := by
  funext r
  exact saved.frame _ ((configPlace_apart other).symm.append_right r)
    ((configPlace_apart_max k).symm.append_right r)

theorem Saved.hasGroup_iff {k : ℤ} (other : k ≠ n.toInt) : HasGroup u k ↔ HasGroup t k :=
  hasGroup_congr (saved.below_eq other)

theorem Saved.hasGroup : HasGroup u n.toInt := by
  have there := saved.filled.description
  exact isSome_get_of_append (by rw [there]; rfl)

theorem Saved.readable_iff {k : ℤ} (other : k ≠ n.toInt) : Readable u k ↔ Readable t k := by
  unfold Readable
  rw [saved.below_eq other]

theorem Saved.readable : Readable u n.toInt :=
  (groupAt_ok_iff n.toInt).mp ⟨_, groupAt_filled saved.filled⟩

theorem Saved.snmpFits_iff : SnmpFits u ↔ SnmpFits t := by
  unfold SnmpFits
  rw [saved.frame snmpPlace (configPlace_apart_snmp n.toInt) (by decide)]

theorem Saved.application_there : (u.get [.member "application"]).isSome := by
  apply isSome_get_of_append (q := [.member "software", .member "max_no_of_configs"])
  show (u.get maxPlace).isSome
  rw [saved.max]
  rfl

omit saved in
theorem toInt_add_one (range : n.toInt ≤ maxNoOfConfigs) : (n + 1).toInt = n.toInt + 1 := by
  have low := BitVec.le_toInt n
  have one : (1 : U32).toInt = 1 := by decide
  unfold maxNoOfConfigs at range
  rw [BitVec.toInt_add, one]
  exact Int.bmod_eq_of_le (by omega) (by omega)

theorem Saved.countOf_eq : countOf u = (n.toInt + 1).toNat := by
  unfold countOf
  rw [saved.max]
  show (n + 1).toInt.toNat = _
  rw [toInt_add_one saved.range]

end Saved

/-! ## The round trip -/

section RoundTrip

variable {lib : Libconfig} {t u : Setting} {c : Configuration} {n : U32}

/-- After saving number `n`, the file can be read if the groups below `n` can, and `n` itself
is in the array. -/
theorem Saved.fileReadable_iff (saved : Saved t c n u) :
    FileReadable u ↔ SnmpFits t ∧ n.toInt < maxNoOfConfigs ∧
      ∀ k : ℕ, k < n.toInt → HasGroup t k → Readable t k := by
  have count := saved.countOf_eq
  have range := saved.range
  constructor
  · rintro ⟨-, snmp, groups⟩
    refine ⟨saved.snmpFits_iff.mp snmp, ?_, fun k before there => ?_⟩
    · -- number 65535 may be saved, but there is no room for it
      by_contra last
      have number : ((n.toInt.toNat : ℕ) : ℤ) = n.toInt := Int.toNat_of_nonneg (by omega)
      have inside := (groups n.toInt.toNat (by omega) (number ▸ saved.hasGroup)).1
      omega
    · have other : (k : ℤ) ≠ n.toInt := Int.ne_of_lt before
      have there := (saved.hasGroup_iff other).mpr there
      exact (saved.readable_iff other).mp (groups k (by omega) there).2
  · rintro ⟨snmp, inside, groups⟩
    refine ⟨saved.application_there, saved.snmpFits_iff.mpr snmp, fun k before there => ?_⟩
    refine ⟨by omega, ?_⟩
    by_cases same : (k : ℤ) = n.toInt
    · rw [same]
      exact saved.readable
    · have there := (saved.hasGroup_iff same).mp there
      exact (saved.readable_iff same).mpr (groups k (by omega) there)

/-- What a read after saving number `n` gets for it. -/
theorem Saved.getConfiguration_eq (doc : lib.Documented) (saved : Saved t c n u)
    (low : 0 ≤ n.toInt) {before after : Config}
    (read : readConfigurationFile lib (.parsed u) before = .ok (.cmdSucessfull, after)) :
    getConfiguration after n.toInt = some c.uncalibrated := by
  have counted : n.toInt < countOf u := by
    rw [saved.countOf_eq]
    omega
  have group := groupAt_of_read doc read low counted saved.hasGroup
  rw [groupAt_filled saved.filled] at group
  rw [getConfiguration_of_read doc read low counted]
  exact congrArg some (Except.ok.inj group).symm

/-- **The round trip.**  A configuration that was saved is read back, with its calibration
flags false, exactly if the groups below its number can be read and the name of the SNMP agent
fits. -/
theorem saveConfiguration_readBack_iff (doc : lib.Documented) {writes : Bool} {file : File}
    (low : 0 ≤ n.toInt) (high : n.toInt < maxNoOfConfigs)
    (ok : saveConfiguration lib writes (.parsed t) c n = .ok file) (before : Config) :
    (∃ after, readConfigurationFile lib file before = .ok (.cmdSucessfull, after) ∧
        getConfiguration after n.toInt = some c.uncalibrated) ↔
      SnmpFits t ∧ ∀ k : ℕ, k < n.toInt → HasGroup t k → Readable t k := by
  obtain ⟨u, rfl, saved⟩ := saveConfiguration_ok doc ok
  have readable := saved.fileReadable_iff
  rw [and_iff_right high, ← readConfigurationFile_ok_iff doc before] at readable
  rw [← readable]
  constructor
  · rintro ⟨after, read, -⟩
    exact ⟨after, read⟩
  · rintro ⟨after, read⟩
    exact ⟨after, read, saved.getConfiguration_eq doc low read⟩

end RoundTrip

/-! ## Two files -/

/-- A file with a count and some groups. -/
def sampleFile (count : U32) (groups : List (String × Setting)) : Setting :=
  .group [("application",
    .group (("software", .group [("max_no_of_configs", Setting.int count)]) :: groups))]

/-- A group with a description and one channel. -/
def sampleGroup : Setting :=
  .group [("description", Setting.string "sample"),
    ("hvps", .group [("channels", .list [Setting.int 7])])]

def sampleConfiguration : Configuration :=
  { description := { text := "night", fits := by decide }
    channel := .replicate maxNoOfChannels 500
    cmd := 0x80000001
    frameRate := 30
    fieldHeight := 0x1234
    validGainFrame := 1 }

theorem exists_of_toBool {ε α : Type} {x : Except ε α} (ok : x.toBool = true) :
    ∃ a, x = .ok a := by
  cases x with
  | error e => cases ok
  | ok a => exact ⟨a, rfl⟩

theorem eq_ok_of_toOption {ε α : Type} {x : Except ε α} {a : α} (ok : x.toOption = some a) :
    x = .ok a := by
  cases x with
  | error e => cases ok
  | ok b =>
      cases ok
      rfl

/-- Number 2 is saved next to number 0, which can be read; there is no number 1. -/
theorem readBack_sample :
    ∃ file, saveConfiguration .manual true
        (.parsed (sampleFile 1 [("config0", sampleGroup)])) sampleConfiguration 2 = .ok file ∧
      ∃ after, readConfigurationFile .manual file {} = .ok (.cmdSucessfull, after) ∧
        getConfiguration after 2 = some sampleConfiguration.uncalibrated := by
  obtain ⟨file, saved⟩ := exists_of_toBool (x := saveConfiguration .manual true
    (.parsed (sampleFile 1 [("config0", sampleGroup)])) sampleConfiguration 2)
    (by decide +kernel)
  refine ⟨file, saved, (saveConfiguration_readBack_iff Libconfig.manual_documented (n := 2)
    (by decide) (by decide) saved {}).mpr ⟨by decide +kernel, fun k below there => ?_⟩⟩
  have first : k = 0 ∨ k = 1 := by
    have two : (2 : U32).toInt = 2 := by decide
    omega
  rcases first with rfl | rfl
  · decide +kernel
  · exact absurd there (by decide +kernel)

/-- The fault that a computation ends in. -/
def faultOf {α : Type} : Except Fault α → Option Fault
  | .error fault => some fault
  | .ok _ => none

/-- Number 0 has no description; it is out of the reach of the loop as long as the count is
zero. -/
def uncountedFile : File := .parsed (sampleFile 0 [("config0", .group [])])

/-- Saving number 1 raises the count, and the next read copies from `NULL`. -/
theorem unreadable_group_is_reached :
    faultOf (readConfigurationFile .manual uncountedFile .cleared) = none ∧
      ∃ file, saveConfiguration .manual true uncountedFile sampleConfiguration 1 = .ok file ∧
        faultOf (readConfigurationFile .manual file .cleared) = some .nullPointer ∧
        ¬ ∃ after, readConfigurationFile .manual file .cleared = .ok (.cmdSucessfull, after) ∧
          getConfiguration after 1 = some sampleConfiguration.uncalibrated := by
  refine ⟨by decide +kernel, ?_⟩
  obtain ⟨file, saved⟩ := exists_of_toBool
    (x := saveConfiguration .manual true uncountedFile sampleConfiguration 1) (by decide +kernel)
  have fault : (saveConfiguration .manual true uncountedFile sampleConfiguration 1).toOption.map
      (fun file => faultOf (readConfigurationFile .manual file .cleared)) =
        some (some .nullPointer) := by
    decide +kernel
  rw [saved] at fault
  have fault : faultOf (readConfigurationFile .manual file .cleared) = some .nullPointer :=
    Option.some.inj fault
  refine ⟨file, saved, fault, ?_⟩
  rintro ⟨after, read, -⟩
  rw [read] at fault
  cases fault

end Cjunk.Settings
