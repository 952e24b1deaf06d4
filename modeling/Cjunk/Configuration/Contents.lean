import Cjunk.Configuration.Atomicity
import Cjunk.Configuration.WriteThrough
import Cjunk.Lib.Refinement

/-!
# The file as a store of configurations

What the configuration file is for: it keeps configurations by their numbers, and the settings that
they have in common.  `Contents` is that, without a tree of settings, and `Contents.call` says what
a call does to it: a number is saved once, and then updated and its flags set.  The contents also
say which groups the local arrays of the reader have room for; a group that was written is not one
of them.

Over a run the calls may come in any order, and `libconfig` and the file system may refuse any of
them.  `contents_refined`: in every run, the file holds what the calls that returned
`CMD_SUCESSFULL` make of the contents at the start, in their order, and a read gets exactly that, or
ends in a fault if it counts a group that there is no room for.  So a call that fails, however far
it got, has not changed the file.
-/

namespace Cjunk.Settings

open LabelledTree NamedTree Run Refinement

/-! ## Contents -/

/-- The configurations by their numbers, and the settings that they have in common. -/
structure Contents where
  common : CommonConfiguration
  configurations : ℤ → Option Configuration
  /-- There is room for the paths of the group in the arrays of the reader. -/
  roomFor : ℤ → Prop

namespace Contents

/-- Number `n` is the configuration `c` now.  Its group has registers or flags, for whose paths
there is no room. -/
def put (l : Contents) (n : ℤ) (c : Configuration) : Contents :=
  { l with
    configurations := Function.update l.configurations n (some c)
    roomFor := Function.update l.roomFor n False }

@[simp] theorem put_self (l : Contents) (n : ℤ) (c : Configuration) :
    (l.put n c).configurations n = some c :=
  Function.update_self ..

theorem put_of_ne (l : Contents) {n k : ℤ} (other : k ≠ n) (c : Configuration) :
    (l.put n c).configurations k = l.configurations k :=
  Function.update_of_ne other ..

@[simp] theorem roomFor_put_self (l : Contents) (n : ℤ) (c : Configuration) :
    (l.put n c).roomFor n = False :=
  Function.update_self ..

theorem roomFor_put_of_ne (l : Contents) {n k : ℤ} (other : k ≠ n) (c : Configuration) :
    (l.put n c).roomFor k = l.roomFor k :=
  Function.update_of_ne other ..

/-- What a call does that returns `CMD_SUCESSFULL`; there are contents where it cannot. -/
def call (l : Contents) : ConfigCall → Option Contents
  | .saveConfiguration c n =>
    if l.configurations n.toInt = none then
      some ({ l with common.maxNoOfConfigs := n + 1 }.put n.toInt c.uncalibrated)
    else none
  | .updateConfiguration c n => do
    let d ← l.configurations n.toInt
    return l.put n.toInt ({ c with description := d.description }.withFlags d)
  | .setCalibrationFlag n flag c => do
    let d ← l.configurations n.toInt
    let f ← CalibrationFlag.ofInt flag
    return l.put n.toInt (f.set d (if c ≠ 0 then 1 else 0))
  | .saveDefaultConfigurationNumber n => some { l with common.defaultConfigNo := n }
  | .readConfigurationFile => some l

/-- As many configurations as a read counts. -/
def count (l : Contents) : ℕ := l.common.maxNoOfConfigs.toInt.toNat

/-- There is room for all that a read counts. -/
def Fits (l : Contents) : Prop :=
  ∀ i : ℕ, i < l.count → (l.configurations i).isSome → i < maxNoOfConfigs ∧ l.roomFor i

/-- What `read_configuration_file` gets: the configurations below the count, and zeros. -/
def loaded (l : Contents) : Config where
  cConfig := l.common
  configurations i :=
    if i < l.count then (l.configurations i).getD (Config.cleared.configurations i)
    else Config.cleared.configurations i

end Contents

/-- The group of a number, as it reads. -/
def groupOf (t : Setting) (n : ℤ) : Option (Except Fault Configuration) :=
  if HasGroup t n then some (groupAt (below t n)) else none

/-- A file holds contents: all of its groups can be read, if there is room for them. -/
structure Holds (lib : Libconfig) (t : Setting) (l : Contents) : Prop where
  application : (t.get [.member "application"]).isSome
  common : readCommon lib t = .ok l.common
  groups : ∀ n, groupOf t n = (l.configurations n).map .ok
  roomFor : ∀ i : ℕ, HasGroup t i → (GroupFits t i ↔ l.roomFor i)

/-- The call ends in a fault: there is no room for what it reads, or for the number. -/
def ConfigCall.Faults (l : Contents) : ConfigCall → Prop
  | .readConfigurationFile => ¬ l.Fits
  | .setCalibrationFlag n _ _ => ¬ InConfigurations n.toInt
  | .updateConfiguration _ _ | .saveConfiguration _ _ | .saveDefaultConfigurationNumber _ => False

/-- A call, and whether the file can be written then. -/
structure Invocation where
  call : ConfigCall
  writes : Bool := true

/-- The store after a call, with the call if it returned `CMD_SUCESSFULL`; a fault ends the run. -/
def Store.make (lib : LibconfigElems) (s : Store) (i : Invocation) :
    Option (Store × List ConfigCall) :=
  match i.call.run lib i.writes s with
  | .error _ => none
  | .ok (rc, s') => some (s', if rc = .cmdSucessfull then [i.call] else [])

/-- The file of a store holds contents. -/
def Store.Keeps (lib : Libconfig) (s : Store) (l : Contents) : Prop :=
  ∃ t, s.file = .parsed t ∧ Holds lib t l

/-! ## Codes of errors -/

section Coded

variable (lib : LibconfigElems)

theorem addElement_coded (group : Place) (t : Setting) (name : String) (value : U32) :
    Coded (addElement lib.toLibconfig group t name value) :=
  (Coded.orReturn (by decide) _).bind fun _ => (Coded.orReturn (by decide) _).bind fun t =>
    .ite (.ok t) (.error (by decide))

theorem addChannel_coded (hvps : Place) (t : Setting) (value : U16) :
    Coded (addChannel lib.toLibconfig hvps t value) :=
  (Coded.orReturn (by decide) _).bind fun _ => Coded.orReturn (by decide) _

theorem addFlag_coded (calibration : Place) (t : Setting) (name : String) :
    Coded (addFlag lib.toLibconfig calibration t name) :=
  (Coded.orReturn (by decide) _).bind fun _ => Coded.orReturn (by decide) _

theorem addElements_coded (group : Place) (regs : List (String × U32)) (t : Setting) :
    Coded (regs.foldlM (fun t reg => addElement lib.toLibconfig group t reg.1 reg.2) t) := by
  apply Coded.foldlM
  intro t reg
  exact addElement_coded lib group t reg.1 reg.2

theorem fillConfiguration_coded (newconfig : Place) (c : Configuration) (t : Setting) :
    Coded (fillConfiguration lib.toLibconfig newconfig c t) := by
  unfold fillConfiguration
  -- the description and the list of the channels
  refine (Coded.orReturn (by decide) _).bind fun _ => ?_
  refine (Coded.orReturn (by decide) _).bind fun _ => ?_
  refine (Coded.orReturn (by decide) _).bind fun _ => ?_
  refine (Coded.orReturn (by decide) _).bind fun _ => ?_
  refine (Coded.foldlM (addChannel_coded lib _) _ _).bind fun _ => ?_
  -- the registers and the rest
  refine (Coded.orReturn (by decide) _).bind fun _ => ?_
  refine (addElements_coded lib _ _ _).bind fun _ => ?_
  refine (Coded.orReturn (by decide) _).bind fun _ => ?_
  refine (addElements_coded lib _ _ _).bind fun _ => ?_
  refine (Coded.orReturn (by decide) _).bind fun _ => ?_
  exact Coded.foldlM (addFlag_coded lib _) _ _

theorem saveConfiguration_coded (writes : Bool) (file : File) (c : Configuration) (n : U32) :
    Coded (saveConfiguration lib.toLibconfig writes file c n) := by
  cases file with
  | missing => exact .error (by decide)
  | unparsable => exact .error (by decide)
  | parsed t =>
      refine .ite (.error (by decide)) ?_
      refine (Coded.orReturn (by decide) _).bind fun _ => ?_
      refine (Coded.orReturn (by decide) _).bind fun _ => ?_
      refine (fillConfiguration_coded lib _ c _).bind fun _ => ?_
      refine (Coded.orReturn (by decide) _).bind fun _ => ?_
      refine (Coded.orReturn (by decide) _).bind fun t => ?_
      exact .ite (.ok (File.parsed t)) (.error (by decide))

theorem updateElement_coded (path : String) (t : Setting) (name : String) (value : U32) :
    Coded (updateElement lib path t name value) :=
  (Coded.orReturn (by decide) _).bind fun _ => (Coded.orReturn (by decide) _).bind fun t =>
    .ite (.ok t) (.error (by decide))

theorem editFile_coded (writes : Bool) (file : File) {edit : Setting → Except Rc Setting}
    (coded : ∀ t, Coded (edit t)) : Coded (editFile writes file edit) := by
  cases file with
  | missing => exact .error (by decide)
  | unparsable => exact .error (by decide)
  | parsed t => exact (coded t).bind fun u => .ite (.ok (File.parsed u)) (.error (by decide))

theorem updateElements_coded (path : String) (regs : List (String × U32)) (t : Setting) :
    Coded (regs.foldlM (fun t reg => updateElement lib path t reg.1 reg.2) t) := by
  apply Coded.foldlM
  intro t reg
  exact updateElement_coded lib path t reg.1 reg.2

theorem updateChannel_coded (channels : Place) (c : Configuration) (t : Setting)
    (i : Fin maxNoOfChannels) : Coded (updateChannel lib channels c t i) :=
  .orReturn (by decide) _

theorem editConfiguration_coded (c : Configuration) (n : U32) (t : Setting) :
    Coded (editConfiguration lib c n t) := by
  unfold editConfiguration
  refine (Coded.orReturn (by decide) _).bind fun _ => ?_
  refine (Coded.orReturn (by decide) _).bind fun _ => ?_
  refine (Coded.orReturn (by decide) _).bind fun channels => ?_
  refine (Coded.foldlM (updateChannel_coded lib channels c) _ _).bind fun _ => ?_
  refine (Coded.orReturn (by decide) _).bind fun _ => ?_
  refine (updateElements_coded lib _ _ _).bind fun _ => ?_
  refine (Coded.orReturn (by decide) _).bind fun _ => ?_
  exact updateElements_coded lib _ _ _

theorem editDefaultConfigNo_coded (n : U32) (t : Setting) :
    Coded (editDefaultConfigNo lib n t) :=
  (Coded.orReturn (by decide) _).bind fun _ => updateElement_coded lib _ t _ n

end Coded

/-! ## The settings in common -/

theorem noAgent_fits : "".length < 20 := by decide

def snmpAgentAt (b : Place → Option Setting) : Except Fault (CharArray 20) :=
  match Setting.toString? (b [.member "software", .member "snmp_agent"]) with
  | none => .ok { text := "", fits := noAgent_fits }
  | some text => strcpy 20 (some text)

/-- The settings in common, from the values at the places below `application`. -/
def commonAt (b : Place → Option Setting) : Except Fault CommonConfiguration := do
  let snmpAgent ← snmpAgentAt b
  return {
    debug := intAt b "software" "debug"
    profiling := intAt b "software" "profiling"
    detectorVersion := intAt b "software" "detector_version"
    maxNoOfConfigs := intAt b "software" "max_no_of_configs"
    defaultConfigNo := intAt b "software" "default_config_no"
    snmpAgent := snmpAgent
    tempMax := intAt b "thresholds" "temp_max"
    tempMin := intAt b "thresholds" "temp_min"
    tempHysteres := intAt b "thresholds" "temp_hysteres" }

/-- What is below `application`. -/
def belowRoot (t : Setting) (r : Place) : Option Setting := t.get (.member "application" :: r)

theorem readCommon_eq {lib : Libconfig} (doc : lib.Documented) (t : Setting) :
    readCommon lib t = commonAt (belowRoot t) := by
  have path (group name : String) (plain : '.' ∉ group.toList) (plain' : '.' ∉ name.toList) :
      components (subPath (subPath "application" group) name) =
        [.member "application", .member group, .member name] :=
    components_member (components_member components_application plain) plain'
  have int (group name : String) (plain : '.' ∉ group.toList) (plain' : '.' ∉ name.toList) :
      lib.lookupInt t (subPath (subPath "application" group) name) =
        intAt (belowRoot t) group name := by
    rw [doc.lookupInt, path group name plain plain']
    rfl
  have agent : readSnmpAgent lib t = snmpAgentAt (belowRoot t) := by
    rw [readSnmpAgent, doc.lookupString, components_snmp]
    rfl
  have software (name : String) (plain : '.' ∉ name.toList) :=
    int "software" name (by decide) plain
  have thresholds (name : String) (plain : '.' ∉ name.toList) :=
    int "thresholds" name (by decide) plain
  rw [readCommon, agent, commonAt,
    show lib.lookupInt t "application.software.debug" = _ from software "debug" (by decide),
    show lib.lookupInt t "application.software.profiling" = _ from
      software "profiling" (by decide),
    show lib.lookupInt t "application.software.detector_version" = _ from
      software "detector_version" (by decide),
    show lib.lookupInt t "application.software.max_no_of_configs" = _ from
      software "max_no_of_configs" (by decide),
    show lib.lookupInt t "application.software.default_config_no" = _ from
      software "default_config_no" (by decide),
    show lib.lookupInt t "application.thresholds.temp_max" = _ from
      thresholds "temp_max" (by decide),
    show lib.lookupInt t "application.thresholds.temp_min" = _ from
      thresholds "temp_min" (by decide),
    show lib.lookupInt t "application.thresholds.temp_hysteres" = _ from
      thresholds "temp_hysteres" (by decide)]

/-- Two numbers among the settings in common may differ. -/
theorem commonAt_edit {b b' : Place → Option Setting} {common : CommonConfiguration}
    (same : ∀ group ∈ ["software", "thresholds"], ∀ name, name ≠ "max_no_of_configs" →
      name ≠ "default_config_no" →
      b' [.member group, .member name] = b [.member group, .member name])
    (read : commonAt b = .ok common) :
    commonAt b' = .ok { common with
      maxNoOfConfigs := intAt b' "software" "max_no_of_configs"
      defaultConfigNo := intAt b' "software" "default_config_no" } := by
  have ints (group name : String) (settings : group ∈ ["software", "thresholds"])
      (other : name ≠ "max_no_of_configs") (other' : name ≠ "default_config_no") :
      intAt b' group name = intAt b group name := by
    rw [intAt, same group settings name other other']
    rfl
  unfold commonAt at read ⊢
  obtain ⟨agent, copied, read⟩ := bind_eq_ok.mp read
  have agents : snmpAgentAt b' = snmpAgentAt b := by
    rw [snmpAgentAt, same "software" (by decide) "snmp_agent" (by decide) (by decide)]
    rfl
  rw [agents, copied]
  cases read
  show Except.ok _ = Except.ok _
  simp (disch := decide) only [ints]

theorem commonAt_ints {b : Place → Option Setting} {common : CommonConfiguration}
    (read : commonAt b = .ok common) :
    intAt b "software" "max_no_of_configs" = common.maxNoOfConfigs ∧
      intAt b "software" "default_config_no" = common.defaultConfigNo := by
  unfold commonAt at read
  obtain ⟨agent, -, read⟩ := bind_eq_ok.mp read
  cases read
  exact ⟨rfl, rfl⟩

/-! ## What a read gets -/

section Holds

variable {lib : LibconfigElems} (doc : lib.Documented) {t u : Setting} {l : Contents} {n : ℤ}

theorem Holds.groupAt_eq (h : Holds lib.toLibconfig t l) {c : Configuration}
    (there : l.configurations n = some c) : HasGroup t n ∧ groupAt (below t n) = .ok c := by
  have group := h.groups n
  rw [there, Option.map_some, groupOf] at group
  split at group
  · exact ⟨‹_›, Option.some.inj group⟩
  · cases group

theorem Holds.hasGroup_iff (h : Holds lib.toLibconfig t l) :
    HasGroup t n ↔ (l.configurations n).isSome := by
  rw [← Option.isSome_map, ← h.groups n, groupOf]
  split
  · exact iff_of_true ‹_› rfl
  · exact iff_of_false ‹_› Bool.false_ne_true

include doc

/-- A file fits the reader exactly if its contents do. -/
theorem Holds.fileFits_iff (h : Holds lib.toLibconfig t l) : FileFits t ↔ l.Fits := by
  have count : countOf t = l.count := (readCommon_ok doc.toDocumented h.common).symm
  have there (i : ℕ) : HasGroup t i ↔ (l.configurations i).isSome := h.hasGroup_iff
  constructor
  · intro fits i counted present
    rw [← count] at counted
    rw [← there] at present
    exact ⟨(fits.readable.groups i counted present).1,
      (h.roomFor i present).mp (fits.groups i counted present)⟩
  · intro fits
    have groups (i : ℕ) (counted : i < countOf t) (present : HasGroup t i) :
        i < maxNoOfConfigs ∧ GroupFits t i := by
      rw [count] at counted
      obtain ⟨inside, room⟩ := fits i counted ((there i).mp present)
      exact ⟨inside, (h.roomFor i present).mpr room⟩
    exact ⟨⟨h.application, (readCommon_ok_iff doc.toDocumented).mp ⟨_, h.common⟩,
      fun i counted present =>
        ⟨(groups i counted present).1, (groups i counted present).2.readable⟩⟩,
      fun i counted present => (groups i counted present).2⟩

/-- A read gets the contents of the file, if there is room for them. -/
theorem Holds.read (h : Holds lib.toLibconfig t l) (fits : l.Fits) (before : Config) :
    readFileInBuffers lib.toLibconfig (.parsed t) before = .ok (.cmdSucessfull, l.loaded) := by
  have count : countOf t = l.count := (readCommon_ok doc.toDocumented h.common).symm
  have fileFits := (h.fileFits_iff doc).mpr fits
  refine (readFileInBuffers_eq_ok_iff doc.toDocumented).mpr ⟨?_, fileFits.groups⟩
  refine (readConfigurationFile_eq_ok_iff doc.toDocumented).mpr ⟨h.application, h.common, ?_⟩
  refine (readConfigurations_eq_ok_iff doc.toDocumented).mpr fun i => ?_
  rw [count, Contents.loaded]
  dsimp only
  by_cases counted : i < l.count
  · cases there : l.configurations i with
    | none =>
        have absent : ¬ HasGroup t i := by
          rw [h.hasGroup_iff, there]
          exact Bool.false_ne_true
        rw [if_neg fun both => absent both.2, if_pos counted]
        rfl
    | some c =>
        obtain ⟨present, group⟩ := h.groupAt_eq there
        rw [if_pos ⟨counted, present⟩, if_pos counted]
        exact ⟨(fits i counted (Option.isSome_of_eq_some there)).1, group⟩
  · rw [if_neg fun both => counted both.1, if_neg counted]
    rfl

/-- If there is no room for them, a read ends in a fault. -/
theorem Holds.read_faults (h : Holds lib.toLibconfig t l) (unfit : ¬ l.Fits) (before : Config) :
    ∃ fault, readFileInBuffers lib.toLibconfig (.parsed t) before = .error fault :=
  readFileInBuffers_faults doc.toDocumented h.application (mt (h.fileFits_iff doc).mp unfit) before

/-! ## What a call does to them -/

omit doc in
theorem groupOf_congr {k : ℤ} (same : below u k = below t k) : groupOf u k = groupOf t k := by
  unfold groupOf
  rw [same]
  exact if_congr (hasGroup_congr same) rfl rfl

omit doc in
theorem groupFits_congr {i : ℕ} (same : below u i = below t i) :
    GroupFits u i ↔ GroupFits t i := by
  rw [groupFits_iff, groupFits_iff]
  unfold Readable
  rw [same]

section Put

omit doc

variable {c : Configuration} (others : ∀ k, k ≠ n → below u k = below t k)

include others

/-- If the group of one number has become `c`, the file holds it under that number. -/
theorem Contents.groups_put (h : ∀ k, groupOf t k = (l.configurations k).map .ok)
    (still : HasGroup u n) (read : groupAt (below u n) = .ok c) (k : ℤ) :
    groupOf u k = ((l.put n c).configurations k).map .ok := by
  by_cases same : k = n
  · rw [same, groupOf, if_pos still, read, l.put_self, Option.map_some]
  · rw [groupOf_congr (others k same), h, l.put_of_ne same]

/-- There is no room for it, because of a register or a flag. -/
theorem Contents.roomFor_put {group name : String}
    (h : ∀ i : ℕ, HasGroup t i → (GroupFits t i ↔ l.roomFor i))
    (bare : group ∈ ["regs", "calibration"])
    (member : (u.get (configPlace n ++ [.member group, .member name])).isSome) (i : ℕ)
    (there : HasGroup u i) : GroupFits u i ↔ (l.put n c).roomFor i := by
  by_cases same : (i : ℤ) = n
  · rw [same, l.roomFor_put_self, iff_false]
    intro fits
    rw [← same, fits.member_eq_none bare] at member
    cases member
  · have unchanged := others i same
    rw [groupFits_congr unchanged, l.roomFor_put_of_ne same]
    exact h i ((hasGroup_congr unchanged).mp there)

end Put

theorem Holds.edited (h : Holds lib.toLibconfig t l) (edited : GroupEdited t u n)
    {c : Configuration} (read : groupAt (below u n) = .ok c) {group name : String}
    (bare : group ∈ ["regs", "calibration"])
    (member : (u.get (configPlace n ++ [.member group, .member name])).isSome) :
    Holds lib.toLibconfig u (l.put n c) where
  application := edited.application_there
  common := (edited.readCommon_eq doc.toDocumented).trans h.common
  groups := Contents.groups_put (fun _ => edited.below_eq) h.groups edited.still read
  roomFor := Contents.roomFor_put (fun _ => edited.below_eq) h.roomFor bare member

/-- The other settings in common are as they were. -/
theorem Holds.common_edited (h : Holds lib.toLibconfig t l)
    (same : ∀ group ∈ ["software", "thresholds"], ∀ name, name ≠ "max_no_of_configs" →
      name ≠ "default_config_no" →
      belowRoot u [.member group, .member name] = belowRoot t [.member group, .member name]) :
    readCommon lib.toLibconfig u = .ok { l.common with
      maxNoOfConfigs := intAt (belowRoot u) "software" "max_no_of_configs"
      defaultConfigNo := intAt (belowRoot u) "software" "default_config_no" } := by
  have read := h.common
  rw [readCommon_eq doc.toDocumented] at read ⊢
  exact commonAt_edit same read

theorem Holds.saved (h : Holds lib.toLibconfig t l) {c : Configuration} {n : U32}
    (saved : Saved t c n u) :
    Holds lib.toLibconfig u
      ({ l with common.maxNoOfConfigs := n + 1 }.put n.toInt c.uncalibrated) where
  application := saved.application_there
  common := by
    have ints := commonAt_ints ((readCommon_eq doc.toDocumented t).symm.trans h.common)
    have same (name : String) (group : String) (settings : group ∈ ["software", "thresholds"])
        (other : name ≠ "max_no_of_configs") :
        belowRoot u [.member group, .member name] = belowRoot t [.member group, .member name] := by
      have groups : group.toList.head? ≠ some 'c' := by
        rcases List.mem_pair.mp settings with rfl | rfl <;> decide
      refine saved.frame _ (configPlace_apart_member _ groups _) ?_
      exact Or.inr (Or.inr (Or.inl fun same => other (Step.member.inj same).symm))
    have count : intAt (belowRoot u) "software" "max_no_of_configs" = n + 1 := by
      have max := saved.max
      show Setting.toInt (u.get maxPlace) = _
      rw [max]
      rfl
    have default : intAt (belowRoot u) "software" "default_config_no" =
        l.common.defaultConfigNo := by
      rw [← ints.2, intAt, same _ _ (by decide) (by decide)]
      rfl
    rw [h.common_edited doc fun group settings name other _ => same name group settings other,
      count, default]
    rfl
  groups := Contents.groups_put (fun _ => saved.below_eq) h.groups saved.hasGroup
    (groupAt_filled saved.filled)
  roomFor := Contents.roomFor_put (fun _ => saved.below_eq) h.roomFor (by decide)
    (Option.isSome_of_eq_some (saved.filled.regs ("cmd", c.cmd) List.mem_cons_self))

omit doc in
theorem components_software :
    components "application.software" = [.member "application", .member "software"] := by
  decide +kernel

theorem editDefaultConfigNo_ok {configNo : U32}
    (h : editDefaultConfigNo lib configNo t = .ok u) :
    belowRoot u [.member "software", .member "default_config_no"] = some (Setting.int configNo) ∧
      Frame [.member "application", .member "software", .member "default_config_no"] t u := by
  obtain ⟨_, -, h⟩ := bind_eq_ok.mp h
  exact updateElement_ok doc components_software (by decide) h

theorem Holds.defaulted (h : Holds lib.toLibconfig t l) {configNo : U32}
    (edit : editDefaultConfigNo lib configNo t = .ok u) :
    Holds lib.toLibconfig u { l with common.defaultConfigNo := configNo } := by
  obtain ⟨new, frame⟩ := editDefaultConfigNo_ok doc edit
  have apart (k : ℤ) (r : Place) : u.get (configPlace k ++ r) = t.get (configPlace k ++ r) :=
    frame _ ((configPlace_apart_member k (by decide) _).symm.append_right r)
  have same (name : String) (group : String) (other : name ≠ "default_config_no") :
      belowRoot u [.member group, .member name] = belowRoot t [.member group, .member name] := by
    refine frame _ (Or.inr (Or.inr ?_))
    exact Or.inl fun same => other (Step.member.inj same).symm
  refine ⟨?_, ?_, fun k => ?_, fun i there => ?_⟩
  · exact isSome_get_of_append (q := [.member "software", .member "default_config_no"])
      (Option.isSome_of_eq_some new)
  · have ints := commonAt_ints ((readCommon_eq doc.toDocumented t).symm.trans h.common)
    have count : intAt (belowRoot u) "software" "max_no_of_configs" = l.common.maxNoOfConfigs := by
      rw [← ints.1, intAt, same _ _ (by decide)]
      rfl
    have default : intAt (belowRoot u) "software" "default_config_no" = configNo := by
      rw [intAt, new]
      rfl
    rw [h.common_edited doc fun group _ name _ other => same name group other, count, default]
  · rw [groupOf_congr (funext (apart k)), h.groups]
  · have unchanged : below u i = below t i := funext (apart i)
    rw [groupFits_congr unchanged]
    exact h.roomFor i ((hasGroup_congr unchanged).mp there)

end Holds

/-! ## Runs -/

section Runs

variable {lib : LibconfigElems} (doc : lib.Documented) {s : Store} {l : Contents} {i : Invocation}

/-- A call that writes the file if it succeeds. -/
theorem Store.Keeps.write (h : s.Keeps lib.toLibconfig l) {s₁ : Store} (same : s₁.file = s.file)
    {result : Except Rc File} (run : i.call.run lib i.writes s = .ok (s₁.write result))
    (coded : Coded result)
    (written : ∀ file, result = .ok file → ∃ u b, file = .parsed u ∧ l.call i.call = some b ∧
      Holds lib.toLibconfig u b) :
    ∃ t done b, s.make lib i = some (t, done) ∧ exec Contents.call l done = some b ∧
      t.Keeps lib.toLibconfig b := by
  rw [Store.make, run]
  cases result with
  | error rc =>
      have failed : rc ≠ .cmdSucessfull := fun same => coded (congrArg _ same)
      obtain ⟨t, file, holds⟩ := h
      refine ⟨s₁, [], l, ?_, rfl, t, same.trans file, holds⟩
      show some (s₁, if rc = .cmdSucessfull then _ else _) = _
      rw [if_neg failed]
  | ok file =>
      obtain ⟨u, b, rfl, called, holds⟩ := written file rfl
      exact ⟨_, [i.call], b, rfl, by rw [exec_cons, called]; rfl, u, rfl, holds⟩

include doc

/-- What a call does to the file is what it does to the contents, or nothing, or it ends in a
fault. -/
theorem Store.Keeps.make (h : s.Keeps lib.toLibconfig l) :
    (∃ t done b, s.make lib i = some (t, done) ∧ exec Contents.call l done = some b ∧
      t.Keeps lib.toLibconfig b) ∨ (s.make lib i = none ∧ i.call.Faults l) := by
  have keeps := h
  obtain ⟨t, file, holds⟩ := h
  obtain ⟨call, writes⟩ := i
  cases call with
  | saveConfiguration c n =>
      refine .inl (keeps.write rfl rfl (saveConfiguration_coded lib _ _ c n) ?_)
      intro written ok
      rw [file] at ok
      obtain ⟨u, rfl, saved⟩ := saveConfiguration_ok doc.toDocumented ok
      have absent : l.configurations n.toInt = none := by
        rw [← Option.not_isSome_iff_eq_none, ← holds.hasGroup_iff, HasGroup, saved.fresh]
        exact Bool.false_ne_true
      exact ⟨u, _, rfl, if_pos absent, holds.saved doc saved⟩
  | updateConfiguration c n =>
      refine .inl (keeps.write rfl rfl (editFile_coded _ _ (editConfiguration_coded lib c n)) ?_)
      intro written ok
      rw [file] at ok
      obtain ⟨u, rfl, there, updated⟩ := updateConfiguration_ok doc ok
      obtain ⟨d, present⟩ := Option.isSome_iff_exists.mp (holds.hasGroup_iff.mp there)
      refine ⟨u, _, rfl, by rw [Contents.call, present]; rfl, ?_⟩
      have cmd := updated.regs ("cmd", c.cmd) List.mem_cons_self
      exact holds.edited doc (updated.groupEdited there)
        (updated.groupAt_eq (holds.groupAt_eq present).2) (by decide)
        (Option.isSome_of_eq_some cmd)
  | setCalibrationFlag n flag c =>
      have run (writes : Bool) : ConfigCall.run lib writes s (.setCalibrationFlag n flag c) =
          setCalibrationFlag lib.toLibconfig writes s n flag c := rfl
      cases found : findFlag lib.toLibconfig s.file n flag with
      | error rc =>
          have failed : Coded (.error rc : Except Rc File) := fun same =>
            findFlag_coded lib.toLibconfig s.file n flag
              (found.trans (congrArg Except.error (Except.error.inj same)))
          refine .inl (keeps.write rfl ?_ failed fun file none => by cases none)
          rw [run, setCalibrationFlag, found]
          rfl
      | ok r =>
          obtain ⟨t₁, f⟩ := r
          have coded := writeFlag_coded lib.toLibconfig writes n c t₁ f
          by_cases inside : InConfigurations n.toInt
          · have run' : setCalibrationFlag lib.toLibconfig writes s n flag c =
                .ok ((s.setFlag n flag f).write (writeFlag lib.toLibconfig writes n c t₁ f)) := by
              rw [setCalibrationFlag, found]
              exact if_pos inside
            have same : (s.setFlag n flag f).file = s.file := rfl
            refine .inl (keeps.write same ((run writes).trans run') coded fun written ok => ?_)
            rw [ok] at run'
            obtain ⟨g, t₂, u, written⟩ := setCalibrationFlag_ok doc.toDocumented run'
            obtain rfl : t = t₂ := File.parsed.inj (file.symm.trans written.before)
            obtain ⟨d, present⟩ := Option.isSome_iff_exists.mp (holds.hasGroup_iff.mp written.there)
            have known := CalibrationFlag.ofInt_eq_some.mpr written.known
            refine ⟨u, _, written.after, by rw [Contents.call, present, known]; rfl, ?_⟩
            exact holds.edited doc written.groupEdited
              (written.groupAt_eq (holds.groupAt_eq present).2) (by decide)
              (Option.isSome_of_eq_some written.new)
          · refine .inr ⟨?_, inside⟩
            rw [Store.make, run, setCalibrationFlag, found]
            dsimp only
            rw [if_neg inside]
  | saveDefaultConfigurationNumber n =>
      refine .inl (keeps.write rfl rfl (editFile_coded _ _ (editDefaultConfigNo_coded lib n)) ?_)
      intro written ok
      rw [file] at ok
      obtain ⟨u, edited, rfl⟩ := editFile_ok ok
      exact ⟨u, _, rfl, rfl, holds.defaulted doc edited⟩
  | readConfigurationFile =>
      by_cases fits : l.Fits
      · have read := holds.read doc fits s.iConfig
        rw [← file] at read
        refine .inl ⟨{ s with iConfig := l.loaded }, [.readConfigurationFile], l, ?_, rfl, t, file,
          holds⟩
        rw [Store.make, ConfigCall.run, read]
        rfl
      · obtain ⟨fault, read⟩ := holds.read_faults doc fits s.iConfig
        rw [← file] at read
        refine .inr ⟨?_, fits⟩
        rw [Store.make, ConfigCall.run, read]
        rfl

end Runs

end Cjunk.Settings
