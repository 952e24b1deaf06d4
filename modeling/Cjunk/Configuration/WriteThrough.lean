import Cjunk.Configuration.Buffers
import Cjunk.Configuration.Updating

/-!
# Reading back what was updated

After a successful `update_configuration` of number `n`, a read of the file should get the
configuration it was called with, and everything else as before.  The group in the file is that
configuration but for the description, which is the one that was there
(`Updated.groupAt_eq`).

The read does not get it.  A group that can be updated has registers, and the path of
`integration_time` is too long for the array of the reader; below zero, `get_configuration`
returns `NULL`.  So no update of a number that is counted is written through:
`updateConfiguration_writeThrough_never`.
-/

namespace Cjunk.Settings

open LabelledTree NamedTree

/-- The configuration with the calibration flags of another. -/
def Configuration.withFlags (c d : Configuration) : Configuration :=
  { c with validGainFrame := d.validGainFrame, validSimpleGain := d.validSimpleGain,
           validOffsetFrame := d.validOffsetFrame, validBadPixelMap := d.validBadPixelMap }

/-- From `before` to `after`, number `n` has become `c` with the calibration flags it had, and
everything else is the same. -/
structure WrittenThrough (before after : Config) (n : ℤ) (c : Configuration) : Prop where
  stored : ∃ d, getConfiguration before n = some d ∧
    getConfiguration after n = some (c.withFlags d)
  others : ∀ k, k ≠ n → getConfiguration after k = getConfiguration before k
  common : after.cConfig = before.cConfig

section Updated

variable {t u : Setting} {c d : Configuration} {n : ℤ} (updated : Updated (configPlace n) c t u)

include updated

theorem Updated.groupEdited (there : HasGroup t n) : GroupEdited t u n where
  there := there
  still := by
    have cmd := updated.regs ("cmd", c.cmd) List.mem_cons_self
    exact isSome_get_of_append (Option.isSome_of_eq_some cmd)
  frame := updated.frame

/-- If the list of channels is not too long, it is what a save would have written. -/
theorem Updated.channelsOf_eq
    (few : (Setting.elems (below t n [.member "hvps", .member "channels"])).length ≤
      maxNoOfChannels) :
    channelsOf (Setting.elems (below u n [.member "hvps", .member "channels"])) =
      .ok c.channel := by
  obtain ⟨elems, elems', before, after, length, set⟩ := updated.channels
  rw [below, before] at few
  have few : elems.length ≤ maxNoOfChannels := few
  rw [below, after]
  have saved : elems' = c.channel.toList.map fun v => Setting.int (v.setWidth 32) := by
    refine List.ext_getElem? fun i => ?_
    by_cases inside : i < maxNoOfChannels
    · rw [List.getElem?_map, Vector.getElem?_toList, Vector.getElem?_eq_getElem inside]
      exact set ⟨i, inside⟩
    · have beyond := Nat.le_of_not_lt inside
      rw [List.getElem?_eq_none (by omega), List.getElem?_eq_none]
      rw [List.length_map, Vector.length_toList]
      exact beyond
  rw [saved]
  exact channelsOf_saved c.channel

/-- An updated group reads as the configuration it was updated with, with the description
and the flags that it had. -/
theorem Updated.groupAt_eq (read : groupAt (below t n) = .ok d) :
    groupAt (below u n) = .ok ({ c with description := d.description }.withFlags d) := by
  have few := ((groupAt_ok_iff n).mp ⟨d, read⟩).2
  have flags (name : String) : flagAt (below u n) name = flagAt (below t n) name := by
    unfold flagAt below
    rw [updated.others "calibration" (by decide) (by decide) (by decide)]
  have description : below u n [.member "description"] = below t n [.member "description"] :=
    updated.others "description" (by decide) (by decide) (by decide) []
  unfold groupAt at read
  obtain ⟨text, copied, read⟩ := bind_eq_ok.mp read
  obtain ⟨channel, fitting, read⟩ := bind_eq_ok.mp read
  cases read
  rw [← description] at copied
  rw [groupAt_of_members copied (updated.channelsOf_eq few) updated.regs updated.misc]
  simp only [flags]
  rfl

end Updated

/-! ## The update -/

section WriteThrough

variable {lib : LibconfigElems} {t : Setting} {c : Configuration} {n : U32} {file : File}

/-- A group that was updated has registers, and does not fit the arrays of the reader. -/
theorem Updated.not_fileFits {u : Setting} {n : ℤ} (updated : Updated (configPlace n) c t u)
    (there : HasGroup t n) (low : 0 ≤ n) (counted : n < countOf t) : ¬ FileFits u := by
  have cmd := updated.regs ("cmd", c.cmd) List.mem_cons_self
  rw [← (updated.groupEdited there).countOf_eq] at counted
  exact not_fileFits_of_member (by decide) low counted (Option.isSome_of_eq_some cmd)

/-- **Write-through.**  A successful update of a number that is counted leaves the description in
the file as it was, and no read after it gets the configuration it was called with, and
everything else as before. -/
theorem updateConfiguration_writeThrough_never (doc : lib.Documented) {writes : Bool}
    (counted : n.toInt < (Setting.toInt (t.get maxPlace)).toInt)
    (ok : updateConfiguration lib writes (.parsed t) c n = .ok file) :
    (∃ u, file = .parsed u ∧
        below u n.toInt [.member "description"] = below t n.toInt [.member "description"]) ∧
      ∀ iConfig before, ¬ ∃ after,
        readFileInBuffers lib.toLibconfig file iConfig = .ok (.cmdSucessfull, after) ∧
        WrittenThrough before after n.toInt c := by
  obtain ⟨u, rfl, there, updated⟩ := updateConfiguration_ok doc ok
  refine ⟨⟨u, rfl, updated.others "description" (by decide) (by decide) (by decide) []⟩, ?_⟩
  rintro iConfig before ⟨after, read, ⟨d, -, stored⟩, -, -⟩
  have low : 0 ≤ n.toInt := by
    by_contra negative
    rw [getConfiguration, if_neg fun inside => negative inside.1] at stored
    cases stored
  refine updated.not_fileFits there low ?_
    ((readFileInBuffers_ok_iff doc.toDocumented iConfig).mp ⟨after, read⟩)
  unfold countOf
  omega

end WriteThrough

/-! ## A complete group -/

/-- A group with all the members that a save writes. -/
def completeGroup : Setting :=
  .group [("description", Setting.string "sample"),
    ("hvps", .group [("channels", .list (List.replicate maxNoOfChannels (Setting.int 7)))]),
    ("regs", .group (sampleConfiguration.regs.map fun r => (r.1, Setting.int 0))),
    ("misc", .group (sampleConfiguration.misc.map fun r => (r.1, Setting.int 0))),
    ("calibration", .group (calibrationFlags.map fun name => (name, Setting.bool true)))]

def completeFile : File := .parsed (sampleFile 1 [("config0", completeGroup)])

/-- Number 0 is updated. -/
theorem writeThrough_sample :
    ∃ file, updateConfiguration .manual true completeFile sampleConfiguration 0 = .ok file ∧
      (∃ u, file = .parsed u ∧ below u 0 [.member "description"] =
        below (sampleFile 1 [("config0", completeGroup)]) 0 [.member "description"]) ∧
      ∀ iConfig before, ¬ ∃ after,
        readFileInBuffers .manual file iConfig = .ok (.cmdSucessfull, after) ∧
        WrittenThrough before after 0 sampleConfiguration := by
  obtain ⟨file, ok⟩ := exists_of_toBool (x := updateConfiguration .manual true completeFile
    sampleConfiguration 0) (by decide +kernel)
  exact ⟨file, ok, updateConfiguration_writeThrough_never LibconfigElems.manual_documented
    (n := 0) (by decide +kernel) ok⟩

/-- Number 0 is called "sample" and updated with a configuration that is called "night".  In the
file it is called "sample" all the same, and a read runs over the end of an array. -/
theorem description_is_not_updated :
    ∃ u, updateConfiguration .manual true completeFile sampleConfiguration 0 = .ok (.parsed u) ∧
      Setting.toString? (below u 0 [.member "description"]) = some "sample" ∧
      sampleConfiguration.description.text = "night" ∧
      faultOf (readFileInBuffers .manual (.parsed u) .cleared) = some .overrun ∧
      ∀ before, ¬ ∃ after,
        readFileInBuffers .manual (.parsed u) .cleared = .ok (.cmdSucessfull, after) ∧
        WrittenThrough before after 0 sampleConfiguration := by
  have overrun : (updateConfiguration .manual true completeFile sampleConfiguration 0).toOption.map
      (fun file => faultOf (readFileInBuffers .manual file .cleared)) = some (some .overrun) := by
    decide +kernel
  obtain ⟨file, ok, fault⟩ := Option.map_eq_some_iff.mp overrun
  have ok := eq_ok_of_toOption ok
  obtain ⟨u, rfl, -, updated⟩ := updateConfiguration_ok LibconfigElems.manual_documented ok
  have kept : below u 0 [.member "description"] = some (Setting.string "sample") :=
    updated.others "description" (by decide) (by decide) (by decide) []
  refine ⟨u, ok, ?_, rfl, fault, ?_⟩
  · rw [kept]
    rfl
  · rintro before ⟨after, read, -⟩
    rw [read] at fault
    cases fault

end Cjunk.Settings
