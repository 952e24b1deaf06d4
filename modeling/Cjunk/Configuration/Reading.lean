import Cjunk.Configuration.Saving

/-!
# What reading depends on

`readConfigurationFile` builds paths and looks them up.  Here the same is said in terms of the
values at places: a configuration is what `groupAt` makes of the places below `config<i>`, and
the members of a group that is missing are missing too, so the tests for groups leave no trace.

`readConfigurations_eq_ok_iff` says what the loop returns, and `readConfigurationFile_ok_iff`
when there is no fault: every group on the way is `Readable`.
-/

namespace Cjunk.Settings

open LabelledTree NamedTree

/-- The place of the name of the SNMP agent. -/
def snmpPlace : Place :=
  [.member "application", .member "software", .member "snmp_agent"]

/-- What is below the group `config<n>`. -/
def below (t : Setting) (n : ℤ) (r : Place) : Option Setting := t.get (configPlace n ++ r)

/-- The channels of a list. -/
def channelsOf (elems : List Setting) : Except Fault (Vector U16 maxNoOfChannels) :=
  if elems.length ≤ maxNoOfChannels then
    .ok (Vector.ofFn fun ch => (Setting.toInt elems[ch.val]?).setWidth 16)
  else .error .overrun

/-- A member of a group, as a number. -/
def intAt (b : Place → Option Setting) (group name : String) : U32 :=
  Setting.toInt (b [.member group, .member name])

def flagAt (b : Place → Option Setting) (name : String) : U8 :=
  if Setting.toBool (b [.member "calibration", .member name]) then 1 else 0

/-- The configuration of a group, from the values at the places below it. -/
def groupAt (b : Place → Option Setting) : Except Fault Configuration := do
  let description ← strcpy 40 (Setting.toString? (b [.member "description"]))
  let channel ← channelsOf (Setting.elems (b [.member "hvps", .member "channels"]))
  return {
    description := description
    channel := channel
    cmd := intAt b "regs" "cmd"
    setup := intAt b "regs" "setup"
    frameCount := intAt b "regs" "frame_count"
    integrationTime := intAt b "regs" "integration_time"
    resetTime := intAt b "regs" "reset_time"
    triggerDelay := intAt b "regs" "trigger_delay"
    asicInitialValue := intAt b "regs" "asic_initial_value"
    intercolumnDelay := intAt b "regs" "intercolumn_delay"
    frameRate := (intAt b "misc" "frame_rate").setWidth 8
    binning := (intAt b "misc" "binning").setWidth 8
    fieldX0 := (intAt b "misc" "field_x0").setWidth 8
    fieldY0 := (intAt b "misc" "field_y0").setWidth 8
    fieldWidth := (intAt b "misc" "field_width").setWidth 16
    fieldHeight := (intAt b "misc" "field_height").setWidth 16
    validGainFrame := flagAt b "valid_gain_frame"
    validOffsetFrame := flagAt b "valid_offset_frame"
    validBadPixelMap := flagAt b "valid_bad_pixel_map"
    validSimpleGain := flagAt b "valid_simple_gain" }

/-- The description is there and fits, and so do the channels. -/
def Readable (t : Setting) (n : ℤ) : Prop :=
  (∃ text, Setting.toString? (below t n [.member "description"]) = some text ∧
    text.length < 40) ∧
  (Setting.elems (below t n [.member "hvps", .member "channels"])).length ≤ maxNoOfChannels

instance (t : Setting) (n : ℤ) : Decidable (Readable t n) :=
  have : Decidable (∃ text, Setting.toString? (below t n [.member "description"]) = some text ∧
      text.length < 40) :=
    decidable_of_iff
      ((Setting.toString? (below t n [.member "description"])).any fun text =>
        decide (text.length < 40))
      (by simp only [Option.any_eq_true, decide_eq_true_eq])
  inferInstanceAs (Decidable (_ ∧ _))

/-- There is a group `config<n>`. -/
def HasGroup (t : Setting) (n : ℤ) : Prop := (t.get (configPlace n)).isSome

instance (t : Setting) (n : ℤ) : Decidable (HasGroup t n) :=
  inferInstanceAs (Decidable (_ = true))

theorem hasGroup_congr {t u : Setting} {n : ℤ} (same : below u n = below t n) :
    HasGroup u n ↔ HasGroup t n := by
  have here := congrFun same []
  unfold below at here
  rw [List.append_nil] at here
  unfold HasGroup
  rw [here]

/-- The name of the SNMP agent fits, if there is one. -/
def SnmpFits (t : Setting) : Prop :=
  ∀ text, Setting.toString? (t.get snmpPlace) = some text → text.length < 20

instance (t : Setting) : Decidable (SnmpFits t) :=
  decidable_of_iff ((Setting.toString? (t.get snmpPlace)).all fun text =>
    decide (text.length < 20)) (by simp only [Option.all_eq_true, decide_eq_true_eq, SnmpFits])

/-- As many configurations as the loop looks for. -/
def countOf (t : Setting) : ℕ := (Setting.toInt (t.get maxPlace)).toInt.toNat

/-! ## Places of the paths -/

theorem components_configPath (n : ℤ) : components (configPath n) = configPlace n := by
  have number : '.' ∉ ("config" ++ n.repr).toList := by
    rw [String.toList_append]
    intro h
    rcases List.mem_append.mp h with config | digits
    · exact absurd config (by decide)
    · exact dot_notMem_repr n digits
  have path : configPath n = subPath "application" ("config" ++ n.repr) := by
    unfold configPath subPath
    rw [← String.append_assoc, ← String.append_assoc]
    rfl
  rw [path, components_subPath, components_application, components_name number]
  rfl

/-- The place of a member, given the place of the path. -/
theorem components_member {path name : String} {p : Place} (place : components path = p)
    (plain : '.' ∉ name.toList) : components (subPath path name) = p ++ [.member name] := by
  rw [components_subPath, place, components_name plain]

/-- The groups of two numbers are apart. -/
theorem configPlace_apart {m n : ℤ} (differ : m ≠ n) :
    Apart (configPlace m) (configPlace n) := by
  refine Or.inr (Or.inl fun same => differ ?_)
  exact Int.repr_injective ((String.append_right_inj _).mp (Step.member.inj same))

theorem configPlace_apart_snmp (n : ℤ) : Apart (configPlace n) snmpPlace :=
  configPlace_apart_member n (by decide) _

/-- `strcpy` copies a string that fits. -/
theorem strcpy_eq_ok {size : ℕ} {src : Option String} {a : CharArray size} :
    strcpy size src = .ok a ↔ src = some a.text := by
  unfold strcpy
  cases src with
  | none => simp
  | some text =>
      dsimp only
      split
      · rename_i fits
        rw [Except.ok.injEq, Option.some_inj]
        constructor
        · rintro rfl
          rfl
        · rintro rfl
          rfl
      · rename_i long
        rw [Option.some_inj]
        constructor
        · intro h
          cases h
        · rintro rfl
          exact absurd a.fits long

/-! ## One configuration -/

section Documented

variable {lib : Libconfig} (doc : lib.Documented) {t u : Setting}

include doc

theorem lookup_isSome (path : String) :
    (lib.lookup t path).isSome = (t.get (components path)).isSome := by
  rw [doc.lookup]
  cases t.get (components path) with
  | none => rfl
  | some x => rfl

theorem readMember_eq {group name : String} {p : Place} (place : components group = p)
    (plain : '.' ∉ name.toList) :
    readMember lib t group name = Setting.toInt (t.get (p ++ [.member name])) := by
  unfold readMember
  rw [lookup_isSome doc, doc.lookupInt, components_member place plain, place]
  cases there : t.get p with
  | none =>
      -- without the group there is no member, and its value is zero as well
      rw [get_append, there]
      rfl
  | some x => rfl

theorem readFlag_eq {calib name : String} {p : Place} (place : components calib = p)
    (plain : '.' ∉ name.toList) :
    readFlag lib t calib name =
      if Setting.toBool (t.get (p ++ [.member name])) then 1 else 0 := by
  unfold readFlag
  rw [lookup_isSome doc, doc.lookupBool, components_member place plain, place]
  cases there : t.get p with
  | none =>
      rw [get_append, there]
      rfl
  | some x => rfl

omit doc in
theorem channelsOf_nil : channelsOf [] = .ok (.replicate maxNoOfChannels 0) := by
  decide +kernel

theorem readHvps_eq {hvps : String} {p : Place} (place : components hvps = p) :
    readHvps lib t hvps = channelsOf (Setting.elems (t.get (p ++ [.member "channels"]))) := by
  have list : components (subPath hvps "channels") = _ :=
    components_member place (by decide)
  unfold readHvps
  rw [lookup_isSome doc, place]
  cases group : t.get p with
  | none =>
      rw [get_append, group]
      exact channelsOf_nil.symm
  | some x =>
      show readChannels lib t hvps = _
      unfold readChannels
      rw [doc.lookup, list]
      cases there : t.get (p ++ [.member "channels"]) with
      | none => exact channelsOf_nil.symm
      | some y =>
          show (if lib.settingLength t _ ≤ _ then _ else _) = _
          simp only [doc.settingLength, doc.settingGetIntElem, there]
          unfold channelsOf
          refine if_congr Iff.rfl ?_ rfl
          congr 2
          funext ch
          split
          · rfl
          · rename_i beyond
            rw [List.getElem?_eq_none (Nat.le_of_not_lt beyond)]
            rfl

theorem readGroup_eq (i : ℕ) : readGroup lib t i = groupAt (below t i) := by
  have config := components_configPath i
  have description : components (subPath (configPath i) "description") = _ :=
    components_member config (by decide)
  have hvps : components (subPath (configPath i) "hvps") = _ :=
    components_member config (by decide)
  have regs : components (subPath (configPath i) "regs") = _ :=
    components_member config (by decide)
  have misc : components (subPath (configPath i) "misc") = _ :=
    components_member config (by decide)
  have calib : components (subPath (configPath i) "calibration") = _ :=
    components_member config (by decide)
  unfold readGroup groupAt intAt flagAt below
  simp (disch := decide) only [doc.lookupString, description, readHvps_eq doc hvps,
    readMember_eq doc regs, readMember_eq doc misc, readFlag_eq doc calib, List.append_assoc,
    List.cons_append, List.nil_append]

theorem readConfiguration_eq (i : ℕ) :
    readConfiguration lib t i =
      if HasGroup t i then
        if maxNoOfConfigs ≤ i then .error .overrun else (groupAt (below t i)).map some
      else .ok none := by
  have found := lookup_isSome doc (t := t) (configPath i)
  rw [components_configPath] at found
  unfold readConfiguration
  rw [readGroup_eq doc]
  by_cases present : HasGroup t i
  · rw [if_pos present, ← Option.not_isSome, found, present]
    rfl
  · rw [if_neg present, ← Option.not_isSome, found, Bool.eq_false_iff.mpr present]
    rfl

omit doc in
/-- A group is read without a fault exactly if its description and its channels fit. -/
theorem groupAt_ok_iff (n : ℤ) : (∃ c, groupAt (below t n) = .ok c) ↔ Readable t n := by
  unfold groupAt Readable
  constructor
  · rintro ⟨c, read⟩
    obtain ⟨description, copied, read⟩ := bind_eq_ok.mp read
    obtain ⟨channel, fitting, -⟩ := bind_eq_ok.mp read
    constructor
    · exact ⟨description.text, strcpy_eq_ok.mp copied, description.fits⟩
    · unfold channelsOf at fitting
      split at fitting
      · assumption
      · cases fitting
  · rintro ⟨⟨text, there, fits⟩, few⟩
    have copied : strcpy 40 (Setting.toString? (below t n [.member "description"])) =
        .ok { text := text, fits := fits } := strcpy_eq_ok.mpr there
    rw [copied, channelsOf, if_pos few]
    exact ⟨_, rfl⟩

/-! ## The loop -/

theorem readConfigurations_absent {m : ℕ} (absent : ¬ HasGroup t m) :
    readConfigurations lib t (m + 1) = readConfigurations lib t m := by
  rw [readConfigurations, readConfiguration_eq doc, if_neg absent]
  cases readConfigurations lib t m with
  | error fault => rfl
  | ok configurations => rfl

theorem readConfigurations_present {m : ℕ} (present : HasGroup t m) {f : ℕ → Configuration} :
    readConfigurations lib t (m + 1) = .ok f ↔
      m < maxNoOfConfigs ∧ groupAt (below t m) = .ok (f m) ∧
        ∃ cs, readConfigurations lib t m = .ok cs ∧ f = Function.update cs m (f m) := by
  rw [readConfigurations, readConfiguration_eq doc, if_pos present, bind_eq_ok]
  by_cases outside : maxNoOfConfigs ≤ m
  · rw [if_pos outside]
    constructor
    · rintro ⟨cs, -, h⟩
      cases h
    · rintro ⟨inside, -⟩
      exact absurd inside (Nat.not_lt.mpr outside)
  · rw [if_neg outside]
    constructor
    · rintro ⟨cs, loop, h⟩
      obtain ⟨o, read, h⟩ := bind_eq_ok.mp h
      cases group : groupAt (below t m) with
      | error fault =>
          rw [group] at read
          cases read
      | ok c =>
          rw [group] at read
          cases read
          cases h
          have last : Function.update cs m c m = c := Function.update_self m c cs
          exact ⟨Nat.lt_of_not_le outside, congrArg Except.ok last.symm, cs, loop, by rw [last]⟩
    · rintro ⟨-, group, cs, loop, same⟩
      refine ⟨cs, loop, ?_⟩
      rw [group, same, Function.update_self]
      rfl

/-- The loop returns for each number the configuration of its group, and zeros where there is
none. -/
theorem readConfigurations_eq_ok_iff {m : ℕ} {f : ℕ → Configuration} :
    readConfigurations lib t m = .ok f ↔
      ∀ i : ℕ, if i < m ∧ HasGroup t i then
        i < maxNoOfConfigs ∧ groupAt (below t i) = .ok (f i) else f i = {} := by
  induction m generalizing f with
  | zero =>
      simp only [Nat.not_lt_zero, false_and, if_false]
      rw [readConfigurations, Except.ok.injEq, eq_comm]
      exact funext_iff
  | succ m ih =>
      by_cases present : HasGroup t m
      · rw [readConfigurations_present doc present]
        constructor
        · rintro ⟨inside, group, cs, loop, same⟩ i
          have rest := ih.mp loop i
          by_cases last : i = m
          · subst last
            rw [if_pos ⟨Nat.lt_succ_self i, present⟩]
            exact ⟨inside, group⟩
          · have other : f i = cs i := by
              rw [same]
              exact Function.update_of_ne last _ cs
            rw [other]
            have before : i < m + 1 ∧ HasGroup t i ↔ i < m ∧ HasGroup t i :=
              and_congr_left fun _ => by omega
            rw [if_congr before rfl rfl]
            exact rest
        · intro all
          have last := all m
          rw [if_pos ⟨Nat.lt_succ_self m, present⟩] at last
          refine ⟨last.1, last.2, Function.update f m {}, ih.mpr fun i => ?_, ?_⟩
          · -- before the last iteration its number was still empty
            by_cases same : i = m
            · subst same
              rw [if_neg fun below => Nat.lt_irrefl i below.1]
              exact Function.update_self i _ f
            · rw [Function.update_of_ne same]
              have before : i < m ∧ HasGroup t i ↔ i < m + 1 ∧ HasGroup t i :=
                and_congr_left fun _ => by omega
              rw [if_congr before rfl rfl]
              exact all i
          · rw [Function.update_idem, Function.update_eq_self]
      · rw [readConfigurations_absent doc present, ih]
        refine forall_congr' fun i => ?_
        have before : i < m ∧ HasGroup t i ↔ i < m + 1 ∧ HasGroup t i := by
          refine and_congr_left fun there => ⟨Nat.lt_succ_of_lt, fun below => ?_⟩
          rcases Nat.lt_succ_iff_lt_or_eq.mp below with less | rfl
          · exact less
          · exact absurd there present
        rw [if_congr before rfl rfl]

/-- The loop gets to its end exactly if it can read every group on its way. -/
theorem readConfigurations_ok_iff (m : ℕ) :
    (∃ f, readConfigurations lib t m = .ok f) ↔
      ∀ i : ℕ, i < m → HasGroup t i → i < maxNoOfConfigs ∧ Readable t i := by
  constructor
  · rintro ⟨f, loop⟩ i below there
    have read := (readConfigurations_eq_ok_iff doc).mp loop i
    rw [if_pos ⟨below, there⟩] at read
    exact ⟨read.1, (groupAt_ok_iff i).mp ⟨f i, read.2⟩⟩
  · intro all
    have read : ∀ i : ℕ, ∃ c, if i < m ∧ HasGroup t i then
        i < maxNoOfConfigs ∧ groupAt (below t i) = .ok c else c = {} := by
      intro i
      by_cases there : i < m ∧ HasGroup t i
      · obtain ⟨inside, readable⟩ := all i there.1 there.2
        obtain ⟨c, read⟩ := (groupAt_ok_iff i).mpr readable
        exact ⟨c, by rw [if_pos there]; exact ⟨inside, read⟩⟩
      · exact ⟨{}, by rw [if_neg there]⟩
    choose f read using read
    exact ⟨f, (readConfigurations_eq_ok_iff doc).mpr read⟩

/-! ## The file -/

theorem readCommon_ok {c : CommonConfiguration} (h : readCommon lib t = .ok c) :
    c.maxNoOfConfigs.toInt.toNat = countOf t := by
  obtain ⟨snmp, -, h⟩ := bind_eq_ok.mp h
  cases h
  show (lib.lookupInt t "application.software.max_no_of_configs").toInt.toNat = countOf t
  rw [doc.lookupInt, components_max]
  rfl

/-- The common settings are read from `software` and `thresholds`. -/
theorem readCommon_congr
    (software : ∀ r, u.get (.member "application" :: .member "software" :: r) =
      t.get (.member "application" :: .member "software" :: r))
    (thresholds : ∀ r, u.get (.member "application" :: .member "thresholds" :: r) =
      t.get (.member "application" :: .member "thresholds" :: r)) :
    readCommon lib u = readCommon lib t := by
  have path : ∀ group name : String, '.' ∉ group.toList → '.' ∉ name.toList →
      components (subPath (subPath "application" group) name) =
        [.member "application", .member group, .member name] := by
    intro group name plain plain'
    exact components_member (components_member components_application plain) plain'
  have setting : ∀ name : String, '.' ∉ name.toList →
      u.get (components (subPath (subPath "application" "software") name)) =
        t.get (components (subPath (subPath "application" "software") name)) := by
    intro name plain
    rw [path "software" name (by decide) plain]
    exact software _
  have threshold : ∀ name : String, '.' ∉ name.toList →
      u.get (components (subPath (subPath "application" "thresholds") name)) =
        t.get (components (subPath (subPath "application" "thresholds") name)) := by
    intro name plain
    rw [path "thresholds" name (by decide) plain]
    exact thresholds _
  unfold readCommon readSnmpAgent
  simp only [doc.lookupInt, doc.lookupString]
  rw [show u.get (components "application.software.snmp_agent") = _ from
      setting "snmp_agent" (by decide),
    show u.get (components "application.software.debug") = _ from setting "debug" (by decide),
    show u.get (components "application.software.profiling") = _ from
      setting "profiling" (by decide),
    show u.get (components "application.software.detector_version") = _ from
      setting "detector_version" (by decide),
    show u.get (components "application.software.max_no_of_configs") = _ from
      setting "max_no_of_configs" (by decide),
    show u.get (components "application.software.default_config_no") = _ from
      setting "default_config_no" (by decide),
    show u.get (components "application.thresholds.temp_max") = _ from
      threshold "temp_max" (by decide),
    show u.get (components "application.thresholds.temp_min") = _ from
      threshold "temp_min" (by decide),
    show u.get (components "application.thresholds.temp_hysteres") = _ from
      threshold "temp_hysteres" (by decide)]
  rfl

omit doc in
theorem components_snmp : components "application.software.snmp_agent" = snmpPlace := by
  decide +kernel

theorem readCommon_ok_iff : (∃ c, readCommon lib t = .ok c) ↔ SnmpFits t := by
  have agent : (∃ a, readSnmpAgent lib t = .ok a) ↔ SnmpFits t := by
    unfold readSnmpAgent SnmpFits
    rw [doc.lookupString, components_snmp]
    cases there : Setting.toString? (t.get snmpPlace) with
    | none => exact iff_of_true ⟨_, rfl⟩ fun text h => by cases h
    | some text =>
        constructor
        · rintro ⟨a, copied⟩ text' same
          cases same
          cases strcpy_eq_ok.mp copied
          exact a.fits
        · intro fits
          exact ⟨⟨text, fits text rfl⟩, strcpy_eq_ok.mpr rfl⟩
  rw [← agent]
  constructor
  · rintro ⟨c, h⟩
    obtain ⟨a, copied, -⟩ := bind_eq_ok.mp h
    exact ⟨a, copied⟩
  · rintro ⟨a, copied⟩
    unfold readCommon
    rw [copied]
    exact ⟨_, rfl⟩

/-- What `read_configuration_file` needs: the group `application`, and whatever it copies
fits. -/
structure FileReadable (t : Setting) : Prop where
  application : (t.get [.member "application"]).isSome
  snmp : SnmpFits t
  groups : ∀ i : ℕ, i < countOf t → HasGroup t i → i < maxNoOfConfigs ∧ Readable t i

omit doc in
theorem fileReadable_iff : FileReadable t ↔
    (t.get [.member "application"]).isSome ∧ SnmpFits t ∧
      ∀ i : ℕ, i < countOf t → HasGroup t i → i < maxNoOfConfigs ∧ Readable t i :=
  ⟨fun h => ⟨h.1, h.2, h.3⟩, fun h => ⟨h.1, h.2.1, h.2.2⟩⟩

instance : Decidable (FileReadable t) := decidable_of_iff _ fileReadable_iff.symm

/-- A successful read has read the common settings and run the loop to its end. -/
theorem readConfigurationFile_eq_ok_iff {before after : Config} :
    readConfigurationFile lib (.parsed t) before = .ok (.cmdSucessfull, after) ↔
      (t.get [.member "application"]).isSome ∧ readCommon lib t = .ok after.cConfig ∧
        readConfigurations lib t (countOf t) = .ok after.configurations := by
  unfold readConfigurationFile
  have found := lookup_isSome doc (t := t) "application"
  rw [components_application] at found
  dsimp only
  rw [← Option.not_isSome, found]
  cases (t.get [.member "application"]).isSome with
  | false => simp
  | true =>
      rw [if_neg (by decide), bind_eq_ok]
      constructor
      · rintro ⟨c, common, h⟩
        obtain ⟨f, loop, h⟩ := bind_eq_ok.mp h
        cases h
        rw [readCommon_ok doc common] at loop
        exact ⟨rfl, common, loop⟩
      · rintro ⟨-, common, loop⟩
        refine ⟨after.cConfig, common, ?_⟩
        rw [readCommon_ok doc common, loop]
        rfl

theorem readConfigurationFile_ok_iff (before : Config) :
    (∃ after, readConfigurationFile lib (.parsed t) before = .ok (.cmdSucessfull, after)) ↔
      FileReadable t := by
  constructor
  · rintro ⟨after, h⟩
    obtain ⟨application, common, loop⟩ := (readConfigurationFile_eq_ok_iff doc).mp h
    exact ⟨application, (readCommon_ok_iff doc).mp ⟨_, common⟩,
      (readConfigurations_ok_iff doc _).mp ⟨_, loop⟩⟩
  · rintro ⟨application, snmp, groups⟩
    obtain ⟨c, common⟩ := (readCommon_ok_iff doc).mpr snmp
    obtain ⟨f, loop⟩ := (readConfigurations_ok_iff doc _).mpr groups
    exact ⟨⟨c, f⟩, (readConfigurationFile_eq_ok_iff doc).mpr ⟨application, common, loop⟩⟩

section Read

variable {before after : Config} {n : ℤ}
variable (read : readConfigurationFile lib (.parsed t) before = .ok (.cmdSucessfull, after))

include read

/-- A counted number has a configuration after a read. -/
theorem getConfiguration_of_read (low : 0 ≤ n) (counted : n < countOf t) :
    getConfiguration after n = some (after.configurations n.toNat) := by
  obtain ⟨-, common, -⟩ := (readConfigurationFile_eq_ok_iff doc).mp read
  have count := readCommon_ok doc common
  exact if_pos ⟨low, by omega⟩

/-- The configuration of a counted number that has a group is what its group reads as. -/
theorem groupAt_of_read (low : 0 ≤ n) (counted : n < countOf t) (there : HasGroup t n) :
    groupAt (below t n) = .ok (after.configurations n.toNat) := by
  obtain ⟨-, -, loop⟩ := (readConfigurationFile_eq_ok_iff doc).mp read
  have here := (readConfigurations_eq_ok_iff doc).mp loop n.toNat
  have number : ((n.toNat : ℕ) : ℤ) = n := Int.toNat_of_nonneg low
  rw [number, if_pos ⟨by omega, there⟩] at here
  exact here.2

end Read

end Documented

/-! ## Editing one group -/

/-- The group of number `n` is there and was edited; every place apart from it is as it was. -/
structure GroupEdited (t u : Setting) (n : ℤ) : Prop where
  there : HasGroup t n
  still : HasGroup u n
  frame : Frame (configPlace n) t u

namespace GroupEdited

variable {lib : Libconfig} {t u : Setting} {n : ℤ} (edited : GroupEdited t u n)

include edited

theorem below_eq {k : ℤ} (other : k ≠ n) : below u k = below t k := by
  funext r
  exact edited.frame _ ((configPlace_apart (Ne.symm other)).append_right r)

theorem countOf_eq : countOf u = countOf t := by
  unfold countOf
  rw [edited.frame _ (configPlace_apart_max n)]

theorem application_there : (u.get [.member "application"]).isSome :=
  isSome_get_of_append (q := [.member ("config" ++ n.repr)]) edited.still

theorem readCommon_eq (doc : lib.Documented) : readCommon lib u = readCommon lib t :=
  readCommon_congr doc
    (fun r => edited.frame _ (configPlace_apart_member n (by decide) r))
    (fun r => edited.frame _ (configPlace_apart_member n (by decide) r))

end GroupEdited

end Cjunk.Settings
