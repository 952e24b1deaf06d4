import Cjunk.Configuration.CalibrationFlags

/-!
# Indexing the configurations

Four entry points index `i_config.configurations`, each after a test of its own.  The loop of
`read_configuration_file` has none but the count of the file, and `set_calibration_flag` none
but that the file has the group; `get_configuration` lets the count itself pass, and
`get_calibration_flag` also every negative number.

`indexed_safe_iff`: for which arguments a call stays inside the array, and refuses the numbers
that the loop has not visited.
-/

namespace Cjunk.Settings

open LabelledTree

/-- The calls that index `i_config.configurations`. -/
inductive IndexedCall where
  | getConfiguration (number : U32)
  | getCalibrationFlag (configNo flag : U32)
  | setCalibrationFlag (configNo flag c : U32)
  | readConfigurationFile

/-- `max_no_of_configs`, in memory. -/
def Store.max (s : Store) : ℤ := s.iConfig.cConfig.maxNoOfConfigs.toInt

/-- The loop has visited the number. -/
def Store.Visited (s : Store) (n : ℤ) : Prop := 0 ≤ n ∧ n < s.max

section Calls

variable (lib : Libconfig) (s : Store)

/-- The file has a group for the number, and a group for flags in it. -/
def Store.HasFlags (n : ℤ) : Prop :=
  ∃ t, s.file = .parsed t ∧ (lib.lookup t (configPath n)).isSome ∧
    (lib.lookup t (subPath (configPath n) "calibration")).isSome

/-- The loop gets to number `i` of the tree, and copies its description.  A string or a path on the
way that does not fit is written past the end of its array, and the loop goes on; a description
that is missing ends it. -/
def LoopReaches (t : Setting) (i : ℕ) : Prop :=
  i < (lib.lookupInt t "application.software.max_no_of_configs").toInt.toNat ∧
    (lib.lookup t (configPath i)).isSome ∧
    ∀ j ≤ i, (lib.lookup t (configPath j)).isSome →
      (lib.lookupString t (subPath (configPath j) "description")).isSome

/-- The call touches `configurations[k]`. -/
def IndexedCall.Touches : IndexedCall → ℤ → Prop
  | getConfiguration number, k =>
    (Settings.getConfiguration s.iConfig number.toInt).isSome ∧ k = number.toInt
  | getCalibrationFlag configNo flag, k =>
    configNo.toInt ≤ s.max ∧ (CalibrationFlag.ofInt flag).isSome ∧ k = configNo.toInt
  | setCalibrationFlag configNo flag _, k =>
    s.HasFlags lib configNo.toInt ∧ (CalibrationFlag.ofInt flag).isSome ∧ k = configNo.toInt
  | readConfigurationFile, k =>
    ∃ t i, s.file = .parsed t ∧ (lib.lookup t "application").isSome ∧ LoopReaches lib t i ∧ k = i

/-- A getter answers a number that the loop has not visited with `NULL` or
`ERROR_CONFIGURATION_NOT_FOUND`. -/
def IndexedCall.Refuses : IndexedCall → Prop
  | getConfiguration number =>
    ¬ s.Visited number.toInt → Settings.getConfiguration s.iConfig number.toInt = none
  | getCalibrationFlag configNo flag =>
    ¬ s.Visited configNo.toInt →
      Settings.getCalibrationFlag s.iConfig configNo flag =
        .ok (.error .errorConfigurationNotFound)
  | setCalibrationFlag _ _ _ | readConfigurationFile => True

structure IndexedCall.Safe (call : IndexedCall) : Prop where
  inside : ∀ k, call.Touches lib s k → InConfigurations k
  refuses : call.Refuses s

/-- The arguments with which a call is safe. -/
def IndexedCall.InRange : IndexedCall → Prop
  | getConfiguration number =>
    number.toInt < 0 ∨ s.max < number.toInt ∨ (number.toInt < s.max ∧ number.toInt < maxNoOfConfigs)
  | getCalibrationFlag configNo flag =>
    s.max < configNo.toInt ∨ (s.Visited configNo.toInt ∧
      ((CalibrationFlag.ofInt flag).isSome → configNo.toInt < maxNoOfConfigs))
  | setCalibrationFlag configNo flag _ =>
    s.HasFlags lib configNo.toInt → (CalibrationFlag.ofInt flag).isSome →
      InConfigurations configNo.toInt
  | readConfigurationFile =>
    ∀ t, s.file = .parsed t → (t.get [.member "application"]).isSome →
      ∀ i : ℕ, maxNoOfConfigs ≤ i → i < countOf t → HasGroup t i →
        ∃ j ≤ i, HasGroup t j ∧ Setting.toString? (below t j [.member "description"]) = none

end Calls

/-! ## Touching and faults -/

section Faults

variable {lib : Libconfig} {s : Store}

/-- `get_calibration_flag` ends in a fault exactly if it touches something outside. -/
theorem getCalibrationFlag_overrun_iff (n flag : U32) :
    getCalibrationFlag s.iConfig n flag = .error .overrun ↔
      ∃ k, (IndexedCall.getCalibrationFlag n flag).Touches lib s k ∧ ¬ InConfigurations k := by
  unfold getCalibrationFlag
  dsimp only [IndexedCall.Touches, Store.max]
  by_cases beyond : s.iConfig.cConfig.maxNoOfConfigs.toInt < n.toInt
  · rw [if_pos beyond]
    refine iff_of_false nofun ?_
    rintro ⟨k, ⟨counted, -⟩, -⟩
    omega
  · rw [if_neg beyond]
    cases known : CalibrationFlag.ofInt flag with
    | none => exact iff_of_false nofun fun ⟨_, ⟨_, flag, _⟩, _⟩ => Bool.false_ne_true flag
    | some f =>
        by_cases inside : InConfigurations n.toInt
        · dsimp only
          rw [if_pos inside]
          refine iff_of_false nofun ?_
          rintro ⟨k, ⟨-, -, rfl⟩, outside⟩
          exact outside inside
        · dsimp only
          rw [if_neg inside]
          exact iff_of_true rfl ⟨n.toInt, ⟨Int.not_lt.mp beyond, rfl, rfl⟩, inside⟩

/-- `set_calibration_flag` ends in a fault exactly if it touches something outside. -/
theorem setCalibrationFlag_overrun_iff (writes : Bool) (n flag c : U32) :
    setCalibrationFlag lib writes s n flag c = .error .overrun ↔
      ∃ k, (IndexedCall.setCalibrationFlag n flag c).Touches lib s k ∧ ¬ InConfigurations k := by
  dsimp only [IndexedCall.Touches, Store.HasFlags]
  unfold setCalibrationFlag
  constructor
  · intro h
    split at h
    · cases h
    · rename_i t f found
      obtain ⟨file, group, calib, known⟩ := findFlag_eq_ok.mp found
      split at h
      · cases h
      · rename_i outside
        exact ⟨_, ⟨⟨t, file, group, calib⟩, Option.isSome_of_eq_some known, rfl⟩, outside⟩
  · rintro ⟨k, ⟨⟨t, file, group, calib⟩, known, rfl⟩, outside⟩
    obtain ⟨f, known⟩ := Option.isSome_iff_exists.mp known
    rw [findFlag_eq_ok.mpr ⟨file, group, calib, known⟩]
    exact if_neg outside

/-- A read that touches something outside ends in a fault. -/
theorem readFileInBuffers_overrun (doc : lib.Documented) {k : ℤ}
    (touches : IndexedCall.readConfigurationFile.Touches lib s k)
    (outside : ¬ InConfigurations k) (before : Config) :
    ∃ fault, readFileInBuffers lib s.file before = .error fault := by
  obtain ⟨t, i, file, application, ⟨counted, group, -⟩, rfl⟩ := touches
  rw [lookup_isSome doc, components_application] at application
  rw [lookup_isSome doc, components_configPath] at group
  rw [doc.lookupInt, components_max] at counted
  rw [file]
  refine readFileInBuffers_faults doc application (fun fits => ?_) before
  have inside := (fits.readable.groups i counted group).1
  unfold InConfigurations at outside
  omega

end Faults

/-! ## The four calls -/

section Safe

variable {lib : Libconfig} {s : Store}

theorem IndexedCall.safe_iff {call : IndexedCall} :
    call.Safe lib s ↔ (∀ k, call.Touches lib s k → InConfigurations k) ∧ call.Refuses s :=
  ⟨fun h => ⟨h.inside, h.refuses⟩, fun h => ⟨h.1, h.2⟩⟩

theorem getConfiguration_safe_iff (number : U32) :
    (IndexedCall.getConfiguration number).Safe lib s ↔
      (IndexedCall.getConfiguration number).InRange lib s := by
  have answers : (getConfiguration s.iConfig number.toInt).isSome ↔
      0 ≤ number.toInt ∧ number.toInt ≤ s.max := by
    unfold getConfiguration
    split
    · rename_i inside
      exact iff_of_true rfl inside
    · rename_i outside
      exact iff_of_false Bool.false_ne_true outside
  rw [IndexedCall.safe_iff]
  dsimp only [IndexedCall.Touches, IndexedCall.Refuses, IndexedCall.InRange, InConfigurations,
    Store.Visited]
  rw [← Option.not_isSome_iff_eq_none, answers]
  constructor
  · rintro ⟨inside, refuses⟩
    have inside := fun h => inside number.toInt ⟨h, rfl⟩
    omega
  · intro range
    refine ⟨?_, by omega⟩
    rintro k ⟨counted, rfl⟩
    omega

theorem getCalibrationFlag_safe_iff (n flag : U32) :
    (IndexedCall.getCalibrationFlag n flag).Safe lib s ↔
      (IndexedCall.getCalibrationFlag n flag).InRange lib s := by
  have refused : getCalibrationFlag s.iConfig n flag = .ok (.error .errorConfigurationNotFound) ↔
      s.max < n.toInt := by
    unfold getCalibrationFlag
    split
    · rename_i beyond
      exact iff_of_true rfl beyond
    · rename_i counted
      refine iff_of_false ?_ counted
      split
      · nofun
      · split <;> nofun
  rw [IndexedCall.safe_iff]
  dsimp only [IndexedCall.Touches, IndexedCall.Refuses, IndexedCall.InRange, InConfigurations,
    Store.Visited]
  rw [refused]
  constructor
  · rintro ⟨inside, refuses⟩
    by_cases beyond : s.max < n.toInt
    · exact .inl beyond
    · have visited := Classical.not_not.mp fun not => beyond (refuses not)
      exact .inr ⟨visited, fun known =>
        (inside n.toInt ⟨Int.not_lt.mp beyond, known, rfl⟩).2⟩
  · rintro (beyond | ⟨visited, inside⟩)
    · refine ⟨?_, fun _ => beyond⟩
      rintro k ⟨counted, -⟩
      omega
    · refine ⟨?_, fun not => absurd visited not⟩
      rintro k ⟨-, known, rfl⟩
      exact ⟨visited.1, inside known⟩

theorem setCalibrationFlag_safe_iff (n flag c : U32) :
    (IndexedCall.setCalibrationFlag n flag c).Safe lib s ↔
      (IndexedCall.setCalibrationFlag n flag c).InRange lib s := by
  rw [IndexedCall.safe_iff]
  constructor
  · rintro ⟨inside, -⟩ flags known
    exact inside n.toInt ⟨flags, known, rfl⟩
  · intro range
    refine ⟨?_, trivial⟩
    rintro k ⟨flags, known, rfl⟩
    exact range flags known

variable (doc : lib.Documented)

include doc

theorem readConfigurationFile_safe_iff :
    IndexedCall.readConfigurationFile.Safe lib s ↔
      IndexedCall.readConfigurationFile.InRange lib s := by
  rw [IndexedCall.safe_iff]
  have application (t : Setting) : (lib.lookup t "application").isSome =
      (t.get [.member "application"]).isSome := by
    rw [lookup_isSome doc, components_application]
  have count (t : Setting) :
      (lib.lookupInt t "application.software.max_no_of_configs").toInt.toNat = countOf t := by
    rw [doc.lookupInt, components_max]
    rfl
  have group (t : Setting) (i : ℕ) : (lib.lookup t (configPath i)).isSome ↔ HasGroup t i := by
    rw [lookup_isSome doc, components_configPath]
    rfl
  have description (t : Setting) (i : ℕ) :
      lib.lookupString t (subPath (configPath i) "description") =
        Setting.toString? (below t i [.member "description"]) := by
    rw [doc.lookupString, components_member (components_configPath i) (by decide)]
    rfl
  dsimp only [IndexedCall.Touches, LoopReaches, IndexedCall.InRange]
  simp only [application, count, group, description]
  constructor
  · rintro ⟨inside, -⟩ t file there i beyond counted present
    by_contra missing
    have described : ∀ j ≤ i, HasGroup t j →
        (Setting.toString? (below t j [.member "description"])).isSome := by
      intro j before here
      rw [← Option.ne_none_iff_isSome]
      exact fun none => missing ⟨j, before, here, none⟩
    have low := (inside i ⟨t, i, file, there, ⟨counted, present, described⟩, rfl⟩).2
    omega
  · intro range
    refine ⟨?_, trivial⟩
    rintro k ⟨t, i, file, there, ⟨counted, present, described⟩, rfl⟩
    refine ⟨Int.natCast_nonneg i, ?_⟩
    by_contra outside
    obtain ⟨j, before, here, none⟩ := range t file there i (by omega) counted present
    have some := described j before here
    rw [none] at some
    cases some

/-- **Index safety.**  A call stays inside the array, and a getter refuses the numbers that the
loop has not visited, exactly if its arguments are in range. -/
theorem indexed_safe_iff (s : Store) (call : IndexedCall) :
    call.Safe lib s ↔ call.InRange lib s := by
  cases call with
  | getConfiguration number => exact getConfiguration_safe_iff number
  | getCalibrationFlag n flag => exact getCalibrationFlag_safe_iff n flag
  | setCalibrationFlag n flag c => exact setCalibrationFlag_safe_iff n flag c
  | readConfigurationFile => exact readConfigurationFile_safe_iff doc

end Safe

theorem loadFile_file (file : File) : (loadFile file).file = file := by
  unfold loadFile
  split <;> rfl

/-- Numbers 0 and 2 of three are loaded; number 5 has calibration flags. -/
def countedFile : Setting :=
  sampleFile 3 [("config0", sampleGroup), ("config2", sampleGroup), ("config5", flaggedGroup)]

def countedStore : Store := loadFile (.parsed countedFile)

/-- Number 2 is returned, and its flag; a flag of number 5 is set, and the file is read. -/
theorem indexed_safe_sample :
    (IndexedCall.getConfiguration 2).Safe .manual countedStore ∧
      (IndexedCall.getCalibrationFlag 2 1).Safe .manual countedStore ∧
      (IndexedCall.setCalibrationFlag 5 1 1).Safe .manual countedStore ∧
      IndexedCall.readConfigurationFile.Safe .manual countedStore := by
  refine ⟨(indexed_safe_iff Libconfig.manual_documented _ _).mpr (.inr (.inr (by decide +kernel))),
    (indexed_safe_iff Libconfig.manual_documented _ _).mpr
      (.inr ⟨⟨by decide, by decide +kernel⟩, fun _ => by decide⟩),
    (indexed_safe_iff Libconfig.manual_documented _ _).mpr fun _ _ => by decide,
    (indexed_safe_iff Libconfig.manual_documented _ _).mpr ?_⟩
  intro t file _ i beyond counted
  have same : countedFile = t := File.parsed.inj ((loadFile_file _).symm.trans file)
  have three : countOf countedFile = 3 := by decide +kernel
  rw [← same, three] at counted
  unfold maxNoOfConfigs at beyond
  omega

/-- Three configurations were loaded: number 3 is not refused, and the flag of number -1 is
read from in front of the array. -/
theorem count_itself_is_not_refused :
    Loaded .manual countedStore ∧
      (¬ ∀ call : IndexedCall, call.Safe .manual countedStore) ∧
      (getConfiguration countedStore.iConfig 3).isSome ∧
      getCalibrationFlag countedStore.iConfig (-1) 1 = .error .overrun := by
  have answered : (getConfiguration countedStore.iConfig 3).isSome := by decide +kernel
  refine ⟨loaded_loadFile (by decide +kernel), fun safe => ?_, answered, by decide +kernel⟩
  have refused := (safe (.getConfiguration 3)).refuses fun visited =>
    absurd visited.2 (by decide +kernel)
  rw [show (3 : U32).toInt = 3 from rfl] at refused
  rw [refused] at answered
  exact Bool.false_ne_true answered

end Cjunk.Settings
