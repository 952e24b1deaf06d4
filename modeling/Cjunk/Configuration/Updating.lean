import Cjunk.Configuration.Reading

/-!
# What updating writes

`update_configuration` changes the settings of a group that is there, one by one, and writes
the file when all of them are changed.  `updateConfiguration_ok`: a successful call has set
the channels, the registers and the miscellaneous settings, and left every other place as it
was.  The description is among those: its path is built and not used.

`config_setting_set_int_elem`, which only this call uses, sets an element of a list that is
there.
-/

namespace Cjunk.Settings

open LabelledTree NamedTree

/-- The functions of `libconfig`, with `config_setting_set_int_elem`. -/
structure LibconfigElems extends Libconfig where
  settingSetIntElem : Setting → Place → ℕ → U32 → Option Setting

/-- What the manual says of them. -/
structure LibconfigElems.Documented (lib : LibconfigElems) : Prop
    extends Libconfig.Documented lib.toLibconfig where
  settingSetIntElem : ∀ t p i value u, lib.settingSetIntElem t p i value = some u →
    t.modify (Setting.setInt value) (p ++ [.elem i]) = some u

/-- The functions as the manual describes them. -/
def LibconfigElems.manual : LibconfigElems where
  toLibconfig := .manual
  settingSetIntElem t p i value := t.modify (Setting.setInt value) (p ++ [.elem i])

theorem LibconfigElems.manual_documented : LibconfigElems.manual.Documented where
  toDocumented := Libconfig.manual_documented
  settingSetIntElem _ _ _ _ _ h := h

/-! ## The calls -/

/-- What the calls that change the file have in common: the file is read, the tree is edited
in memory, and the file is written. -/
def editFile (writes : Bool) (file : File) (edit : Setting → Except Rc Setting) :
    Except Rc File :=
  match file with
  | .missing => .error .errorConfigurationFileOpenFailed
  | .unparsable => .error .errorConfigurationFileParseError
  | .parsed t => do
    let t ← edit t
    if writes then .ok (.parsed t) else .error .errorConfigurationNotFound

section Calls

variable (lib : LibconfigElems)

/-- `update_element`. -/
def updateElement (path : String) (t : Setting) (name : String) (value : U32) :
    Except Rc Setting := do
  let reg ← orReturn .errorSettingNotFound (lib.lookup t (subPath path name))
  let t ← orReturn .errorWrongConfigType (lib.settingSetInt t reg value)
  if lib.settingSetFormat t reg then return t else throw .errorWrongConfigFormat

/-- One channel. -/
def updateChannel (channels : Place) (c : Configuration) (t : Setting)
    (i : Fin maxNoOfChannels) : Except Rc Setting :=
  orReturn .errorWrongConfigType
    (lib.settingSetIntElem t channels i (c.channel[i].setWidth 32))

/-- What `update_configuration` does to the tree. -/
def editConfiguration (c : Configuration) (configNo : U32) (t : Setting) :
    Except Rc Setting := do
  let string := configPath configNo.toInt
  let hvps := subPath string "hvps"
  let regs := subPath string "regs"
  let misc := subPath string "misc"
  let _ ← orReturn .errorConfigurationNotFound (lib.lookup t string)
  let _ ← orReturn .errorSettingNotFound (lib.lookup t hvps)
  let channels ← orReturn .errorSettingNotFound (lib.lookup t (subPath hvps "channels"))
  let t ← (List.finRange maxNoOfChannels).foldlM (updateChannel lib channels c) t
  let _ ← orReturn .errorSettingNotFound (lib.lookup t regs)
  let t ← c.regs.foldlM (fun t reg => updateElement lib regs t reg.1 reg.2) t
  let _ ← orReturn .errorGroupNotFound (lib.lookup t misc)
  c.misc.foldlM (fun t reg => updateElement lib misc t reg.1 reg.2) t

/-- `update_configuration`, with the file that it writes. -/
def updateConfiguration (writes : Bool) (file : File) (c : Configuration) (configNo : U32) :
    Except Rc File :=
  editFile writes file (editConfiguration lib c configNo)

/-- What `save_default_configuration_number` does to the tree. -/
def editDefaultConfigNo (configNo : U32) (t : Setting) : Except Rc Setting := do
  let path := "application.software"
  let _ ← orReturn .errorSettingNotFound (lib.lookup t path)
  updateElement lib path t "default_config_no" configNo

/-- `save_default_configuration_number`, with the file that it writes. -/
def saveDefaultConfigurationNumber (writes : Bool) (file : File) (configNo : U32) :
    Except Rc File :=
  editFile writes file (editDefaultConfigNo lib configNo)

end Calls

theorem editFile_ok {writes : Bool} {t : Setting} {file : File}
    {edit : Setting → Except Rc Setting} (h : editFile writes (.parsed t) edit = .ok file) :
    ∃ u, edit t = .ok u ∧ file = .parsed u := by
  obtain ⟨u, edited, h⟩ := bind_eq_ok.mp h
  split at h
  · cases h
    exact ⟨u, edited, rfl⟩
  · cases h

/-! ## Single settings -/

section Documented

variable {lib : LibconfigElems} (doc : lib.Documented) {t u : Setting} {p q : Place}

include doc

theorem settingSetIntElem_ok {i : ℕ} {value : U32} {elems : List Setting}
    (parent : t.get p = some (.list elems)) (h : lib.settingSetIntElem t p i value = some u) :
    i < elems.length ∧ u.get p = some (.list (elems.set i (Setting.int value))) ∧
      Frame p t u := by
  have set := doc.settingSetIntElem t p i value u h
  rw [modify_append] at set
  obtain ⟨x, y, there, set, new, frame⟩ := of_modify set
  cases parent.symm.trans there
  obtain ⟨x, elem, set⟩ := Option.bind_eq_some_iff.mp set
  obtain ⟨z, changed, rfl⟩ := Option.map_eq_some_iff.mp set
  obtain ⟨inside, -⟩ := List.getElem?_eq_some_iff.mp elem
  have changed : Setting.setInt value x = some z := changed
  unfold Setting.setInt at changed
  split at changed
  · cases changed
    exact ⟨inside, new, frame⟩
  · cases changed

/-- Elements are set in a list only. -/
theorem settingSetIntElem_list {i : ℕ} {value : U32}
    (h : lib.settingSetIntElem t p i value = some u) :
    ∃ elems, t.get p = some (.list elems) := by
  have set := doc.settingSetIntElem t p i value u h
  obtain ⟨x, y, there, -⟩ := of_modify set
  rw [get_append] at there
  obtain ⟨parent, there, elem⟩ := Option.bind_eq_some_iff.mp there
  cases parent with
  | leaf value => cases elem
  | list elems => exact ⟨elems, there⟩
  | group members => cases elem

/-- The loop over the channels sets the elements that it visits. -/
theorem foldlM_updateChannel {c : Configuration} {is : List (Fin maxNoOfChannels)}
    {elems : List Setting} (parent : t.get p = some (.list elems))
    (h : is.foldlM (updateChannel lib p c) t = .ok u) :
    ∃ elems', u.get p = some (.list elems') ∧ elems'.length = elems.length ∧
      (∀ i ∈ is, elems'[i.val]? = some (Setting.int (c.channel[i].setWidth 32))) ∧
      (∀ i ∉ is, elems'[i.val]? = elems[i.val]?) ∧ Frame p t u := by
  induction is generalizing t elems with
  | nil =>
      cases h
      exact ⟨elems, parent, rfl, fun i none => absurd none List.not_mem_nil, fun _ _ => rfl,
        .refl p _⟩
  | cons j is ih =>
      rw [List.foldlM_cons] at h
      obtain ⟨t₁, set, h⟩ := bind_eq_ok.mp h
      obtain ⟨inside, longer, frame⟩ :=
        settingSetIntElem_ok doc parent (orReturn_eq_ok.mp set)
      obtain ⟨elems', all, length, visited, others, frame'⟩ := ih longer h
      refine ⟨elems', all, length.trans List.length_set, fun i member => ?_, fun i other => ?_,
        frame.trans frame'⟩
      · by_cases later : i ∈ is
        · exact visited i later
        · obtain rfl := (List.mem_cons.mp member).resolve_right later
          rw [others i later]
          exact List.getElem?_set_self inside
      · rw [List.mem_cons, not_or] at other
        rw [others i other.2]
        exact List.getElem?_set_ne fun same => other.1 (Fin.ext same).symm

theorem updateElement_ok {path name : String} {value : U32} (place : components path = p)
    (plain : '.' ∉ name.toList) (h : updateElement lib path t name value = .ok u) :
    u.get (p ++ [.member name]) = some (Setting.int value) ∧
      Frame (p ++ [.member name]) t u := by
  obtain ⟨reg, found, h⟩ := bind_eq_ok.mp h
  have found := orReturn_eq_ok.mp found
  rw [doc.lookup, components_member place plain] at found
  obtain ⟨-, same⟩ := Option.ite_none_right_eq_some.mp found
  cases same
  obtain ⟨v, set, h⟩ := bind_eq_ok.mp h
  obtain ⟨new, frame⟩ := settingSetInt_ok doc.toDocumented (orReturn_eq_ok.mp set)
  split at h
  · cases h
    exact ⟨new, frame⟩
  · cases h

/-- A loop over members of a group sets them all. -/
theorem foldlM_updateElement {path : String} {regs : List (String × U32)}
    (place : components path = p) (plain : ∀ r ∈ regs, '.' ∉ r.1.toList)
    (distinct : (regs.map Prod.fst).Nodup)
    (h : regs.foldlM (fun t reg => updateElement lib path t reg.1 reg.2) t = .ok u) :
    (∀ r ∈ regs, u.get (p ++ [.member r.1]) = some (Setting.int r.2)) ∧
      (∀ name, (∀ r ∈ regs, r.1 ≠ name) →
        u.get (p ++ [.member name]) = t.get (p ++ [.member name])) ∧ Frame p t u := by
  induction regs generalizing t with
  | nil =>
      cases h
      exact ⟨fun r none => absurd none List.not_mem_nil, fun _ _ => rfl, .refl p _⟩
  | cons r regs ih =>
      rw [List.foldlM_cons] at h
      obtain ⟨t₁, set, h⟩ := bind_eq_ok.mp h
      obtain ⟨new, frame⟩ := updateElement_ok doc place (plain r List.mem_cons_self) set
      rw [List.map_cons, List.nodup_cons] at distinct
      obtain ⟨all, others, frame'⟩ :=
        ih (fun r later => plain r (List.mem_cons_of_mem _ later)) distinct.2 h
      have later : ∀ s ∈ regs, s.1 ≠ r.1 := by
        intro s member same
        exact distinct.1 (same ▸ List.mem_map_of_mem member)
      refine ⟨List.forall_mem_cons.mpr ⟨?_, all⟩, fun name other => ?_,
        frame.of_append.trans frame'⟩
      · rw [others r.1 later]
        exact new
      · obtain ⟨differ, other⟩ := List.forall_mem_cons.mp other
        rw [others name other]
        exact get_of_frame frame differ []

/-! ## The group of a configuration -/

omit doc in
/-- The channels, the registers and the miscellaneous settings of `c` in the group `base`; the
list of channels has as many elements as before. -/
structure Updated (base : Place) (c : Configuration) (t u : Setting) : Prop where
  channels : ∃ elems elems' : List Setting,
    t.get (base ++ [.member "hvps", .member "channels"]) = some (.list elems) ∧
      u.get (base ++ [.member "hvps", .member "channels"]) = some (.list elems') ∧
      elems'.length = elems.length ∧
      ∀ i : Fin maxNoOfChannels, elems'[i.val]? = some (Setting.int (c.channel[i].setWidth 32))
  regs : ∀ r ∈ c.regs,
    u.get (base ++ [.member "regs", .member r.1]) = some (Setting.int r.2)
  misc : ∀ r ∈ c.misc,
    u.get (base ++ [.member "misc", .member r.1]) = some (Setting.int r.2)
  others : ∀ name, name ≠ "hvps" → name ≠ "regs" → name ≠ "misc" → ∀ r,
    u.get (base ++ (.member name :: r)) = t.get (base ++ (.member name :: r))
  frame : Frame base t u

theorem editConfiguration_ok {c : Configuration} {n : U32}
    (h : editConfiguration lib c n t = .ok u) :
    HasGroup t n.toInt ∧ Updated (configPlace n.toInt) c t u := by
  have config := components_configPath n.toInt
  have hvps : components (subPath (configPath n.toInt) "hvps") = _ :=
    components_member config (by decide)
  have list : components (subPath (subPath (configPath n.toInt) "hvps") "channels") = _ :=
    components_member hvps (by decide)
  have regs : components (subPath (configPath n.toInt) "regs") = _ :=
    components_member config (by decide)
  have misc : components (subPath (configPath n.toInt) "misc") = _ :=
    components_member config (by decide)
  unfold editConfiguration at h
  obtain ⟨_, found, h⟩ := bind_eq_ok.mp h
  have there : HasGroup t n.toInt := by
    unfold HasGroup
    rw [← config, ← lookup_isSome doc.toDocumented, orReturn_eq_ok.mp found]
    rfl
  obtain ⟨_, -, h⟩ := bind_eq_ok.mp h
  -- the channels
  obtain ⟨channels, found, h⟩ := bind_eq_ok.mp h
  have found := orReturn_eq_ok.mp found
  rw [doc.lookup, list] at found
  obtain ⟨-, same⟩ := Option.ite_none_right_eq_some.mp found
  cases same
  obtain ⟨t₁, loop, h⟩ := bind_eq_ok.mp h
  obtain ⟨elems, parent⟩ : ∃ elems, t.get (configPlace n.toInt ++ [.member "hvps"] ++
      [.member "channels"]) = some (.list elems) := by
    obtain ⟨t', first, -⟩ := bind_eq_ok.mp (show _ >>= _ = _ from loop)
    exact settingSetIntElem_list doc (orReturn_eq_ok.mp first)
  obtain ⟨elems', set, length, visited, -, frame⟩ := foldlM_updateChannel doc parent loop
  rw [List.append_assoc] at parent set
  have hvpsFrame := frame.of_append
  -- the registers
  obtain ⟨_, -, h⟩ := bind_eq_ok.mp h
  obtain ⟨t₂, loop, h⟩ := bind_eq_ok.mp h
  obtain ⟨regsSet, -, regsFrame⟩ := foldlM_updateElement doc regs
    (by simp [Configuration.regs]) (by simp [Configuration.regs]) loop
  -- the miscellaneous settings
  obtain ⟨_, -, loop⟩ := bind_eq_ok.mp h
  obtain ⟨miscSet, -, miscFrame⟩ := foldlM_updateElement doc misc
    (by simp [Configuration.misc]) (by simp [Configuration.misc]) loop
  refine ⟨there, ⟨elems, elems', parent, ?_, length, fun i => visited i (List.mem_finRange i)⟩,
    fun r member => ?_, fun r member => ?_, fun name hvps regs misc r => ?_,
    hvpsFrame.of_append.trans (regsFrame.of_append.trans miscFrame.of_append)⟩
  · rw [get_of_frame miscFrame (by decide), get_of_frame regsFrame (by decide)]
    exact set
  · rw [get_of_frame miscFrame (by decide)]
    have set := regsSet r member
    rw [List.append_assoc] at set
    exact set
  · have set := miscSet r member
    rw [List.append_assoc] at set
    exact set
  · rw [get_of_frame miscFrame misc.symm, get_of_frame regsFrame regs.symm,
      get_of_frame hvpsFrame hvps.symm]

/-- A successful `update_configuration` has edited a group that is there. -/
theorem updateConfiguration_ok {writes : Bool} {c : Configuration} {n : U32} {file : File}
    (h : updateConfiguration lib writes (.parsed t) c n = .ok file) :
    ∃ u, file = .parsed u ∧ HasGroup t n.toInt ∧ Updated (configPlace n.toInt) c t u := by
  obtain ⟨u, edited, rfl⟩ := editFile_ok h
  exact ⟨u, rfl, editConfiguration_ok doc edited⟩

end Documented

end Cjunk.Settings
