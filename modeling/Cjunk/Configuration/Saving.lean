import Cjunk.Configuration.Configuration

/-!
# What saving writes

`saveConfiguration_ok`: a successful `save_configuration` adds the group `config<n>` with the
members of the configuration, sets `max_no_of_configs` to `n + 1`, and leaves every place
apart from these two as it was.  The group and its members are added one by one, so each
lemma here says what one call of the file adds and that it adds nothing elsewhere; loops over
members are folds, and their lemmas go by induction over the members.
-/

namespace Cjunk.Settings

open LabelledTree NamedTree

/-- The place of the group `config<n>`. -/
def configPlace (n : ℤ) : Place := [.member "application", .member ("config" ++ n.repr)]

/-- The place of `max_no_of_configs`. -/
def maxPlace : Place :=
  [.member "application", .member "software", .member "max_no_of_configs"]

/-! ## Codes -/

section Except

variable {ε α β : Type} {rc : Rc}

theorem orReturn_eq_ok {o : Option α} {a : α} : orReturn rc o = .ok a ↔ o = some a := by
  cases o with
  | none => simp [orReturn]
  | some b => simp [orReturn]

theorem bind_eq_ok {x : Except ε α} {f : α → Except ε β} {b : β} :
    x >>= f = .ok b ↔ ∃ a, x = .ok a ∧ f a = .ok b := by
  cases x with
  | error e => simp [bind, Except.bind]
  | ok a => simp [bind, Except.bind]

end Except

/-- An error is not reported as `CMD_SUCESSFULL`. -/
def Coded {α : Type} (x : Except Rc α) : Prop := x ≠ .error .cmdSucessfull

section Coded

variable {α β : Type}

theorem Coded.ok (a : α) : Coded (.ok a) := nofun

theorem Coded.error {rc : Rc} (error : rc ≠ .cmdSucessfull) :
    Coded (.error rc : Except Rc α) :=
  fun same => error (Except.error.inj same)

theorem Coded.orReturn {rc : Rc} (error : rc ≠ .cmdSucessfull) (o : Option α) :
    Coded (orReturn rc o) := by
  cases o with
  | none => exact .error error
  | some a => exact .ok a

theorem Coded.bind {x : Except Rc α} {f : α → Except Rc β} (first : Coded x)
    (rest : ∀ a, Coded (f a)) : Coded (x >>= f) := by
  cases x with
  | error rc => exact .error fun same => first (congrArg _ same)
  | ok a => exact rest a

theorem Coded.ite {p : Prop} [Decidable p] {x y : Except Rc α} (hx : Coded x) (hy : Coded y) :
    Coded (if p then x else y) := by
  split
  · exact hx
  · exact hy

theorem Coded.foldlM {f : β → α → Except Rc β} (turn : ∀ b a, Coded (f b a)) (as : List α)
    (b : β) : Coded (as.foldlM f b) := by
  induction as generalizing b with
  | nil => exact .ok b
  | cons a as ih =>
      rw [List.foldlM_cons]
      exact (turn b a).bind ih

end Coded

/-! ## Single settings -/

variable {lib : Libconfig} (doc : lib.Documented) {t u : Setting} {p q : Place}

/-- Only a group has members. -/
theorem group_of_member {name : String} {x : Setting} (h : t.get (p ++ [.member name]) = some x) :
    ∃ members, t.get p = some (.group members) := by
  rw [get_append] at h
  obtain ⟨parent, there, h⟩ := Option.bind_eq_some_iff.mp h
  cases parent with
  | leaf value => exact absurd h (by simp [NamedTree.get, child])
  | list elems => exact absurd h (by simp [NamedTree.get, child])
  | group members => exact ⟨members, there⟩

include doc

theorem settingAdd_member {members : List (String × Setting)} {name : String}
    {type : SettingType} (parent : t.get p = some (.group members))
    (h : lib.settingAdd t p (some name) type = some (u, q)) :
    q = p ++ [.member name] ∧ t.get (p ++ [.member name]) = none ∧
      u.get (p ++ [.member name]) = some (Setting.new type) ∧
      Frame (p ++ [.member name]) t u := by
  have h := doc.settingAdd t p (some name) type (u, q) h
  unfold Setting.add at h
  rw [parent] at h
  obtain ⟨v, added, same⟩ := Option.map_eq_some_iff.mp h
  cases same
  obtain ⟨fresh, new, frame⟩ := of_appendMember added
  exact ⟨rfl, fresh, new, frame⟩

theorem settingAdd_elem {elems : List Setting} {name : Option String} {type : SettingType}
    (parent : t.get p = some (.list elems)) (h : lib.settingAdd t p name type = some (u, q)) :
    q = p ++ [.elem elems.length] ∧ u.get p = some (.list (elems ++ [Setting.new type])) ∧
      Frame p t u := by
  have h := doc.settingAdd t p name type (u, q) h
  unfold Setting.add at h
  rw [parent] at h
  obtain ⟨v, added, same⟩ := Option.map_eq_some_iff.mp h
  cases same
  obtain ⟨elems', same, new, frame⟩ := of_appendElem added
  cases parent.symm.trans same
  exact ⟨rfl, new, frame⟩

/-- Something is added to an aggregate only. -/
theorem settingAdd_parent {name : Option String} {type : SettingType}
    (h : lib.settingAdd t p name type = some (u, q)) :
    (∃ members, t.get p = some (.group members)) ∨ ∃ elems, t.get p = some (.list elems) := by
  have h := doc.settingAdd t p name type (u, q) h
  unfold Setting.add at h
  cases there : t.get p with
  | none =>
      rw [there] at h
      exact absurd h (by simp)
  | some x =>
      cases x with
      | leaf value =>
          rw [there] at h
          exact absurd h (by simp)
      | list elems => exact Or.inr ⟨elems, rfl⟩
      | group members => exact Or.inl ⟨members, rfl⟩

theorem settingSetInt_ok {value : U32} (h : lib.settingSetInt t p value = some u) :
    u.get p = some (Setting.int value) ∧ Frame p t u := by
  obtain ⟨x, y, -, set, new, frame⟩ := of_modify (doc.settingSetInt t p value u h)
  unfold Setting.setInt at set
  split at set
  · cases set
    exact ⟨new, frame⟩
  · exact absurd set (by simp)

theorem settingSetBool_ok {value : Bool} (h : lib.settingSetBool t p value = some u) :
    (∃ old, t.get p = some (Setting.bool old)) ∧ u.get p = some (Setting.bool value) ∧
      Frame p t u := by
  obtain ⟨x, y, there, set, new, frame⟩ := of_modify (doc.settingSetBool t p value u h)
  unfold Setting.setBool at set
  split at set
  · rename_i old
    cases set
    exact ⟨⟨old, there⟩, new, frame⟩
  · exact absurd set (by simp)

theorem settingSetString_ok {value : String} (h : lib.settingSetString t p value = some u) :
    u.get p = some (Setting.string value) ∧ Frame p t u := by
  obtain ⟨x, y, -, set, new, frame⟩ := of_modify (doc.settingSetString t p value u h)
  unfold Setting.setString at set
  split at set
  · cases set
    exact ⟨new, frame⟩
  · exact absurd set (by simp)

/-! ## Members and channels -/

/-- What adding a member to a group does: the member is new, and has the value. -/
structure Adds (t : Setting) (p : Place) (name : String) (x u : Setting) : Prop where
  fresh : t.get (p ++ [.member name]) = none
  new : u.get (p ++ [.member name]) = some x
  frame : Frame (p ++ [.member name]) t u

omit doc in
/-- The other members stay. -/
theorem Adds.keeps {name : String} {x : Setting} (h : Adds t p name x u) {other : String}
    {y : Setting} (there : t.get (p ++ [.member other]) = some y) :
    u.get (p ++ [.member other]) = some y := by
  have differ : name ≠ other := by
    rintro rfl
    cases h.fresh.symm.trans there
  have apart : Apart [Step.member name] [.member other] :=
    Or.inl fun same => differ (Step.member.inj same)
  rw [h.frame _ ((apart_append_iff p _ _).mpr apart)]
  exact there

theorem addElement_ok {members : List (String × Setting)} {name : String} {value : U32}
    (parent : t.get p = some (.group members)) (h : addElement lib p t name value = .ok u) :
    Adds t p name (Setting.int value) u := by
  obtain ⟨⟨t₁, reg⟩, added, h⟩ := bind_eq_ok.mp h
  obtain ⟨rfl, fresh, -, frame⟩ := settingAdd_member doc parent (orReturn_eq_ok.mp added)
  obtain ⟨t₂, set, h⟩ := bind_eq_ok.mp h
  obtain ⟨new, frame'⟩ := settingSetInt_ok doc (orReturn_eq_ok.mp set)
  split at h
  · cases h
    exact ⟨fresh, new, frame.trans frame'⟩
  · cases h

theorem addFlag_ok {members : List (String × Setting)} {name : String}
    (parent : t.get p = some (.group members)) (h : addFlag lib p t name = .ok u) :
    Adds t p name (Setting.bool false) u := by
  obtain ⟨⟨t₁, reg⟩, added, h⟩ := bind_eq_ok.mp h
  obtain ⟨rfl, fresh, -, frame⟩ := settingAdd_member doc parent (orReturn_eq_ok.mp added)
  obtain ⟨-, new, frame'⟩ := settingSetBool_ok doc (orReturn_eq_ok.mp h)
  exact ⟨fresh, new, frame.trans frame'⟩

omit doc in
/-- A loop that adds members adds them all, and the members that were there stay. -/
theorem foldlM_adds {ι : Type} {name : ι → String} {x : ι → Setting}
    {f : Setting → ι → Except Rc Setting}
    (adds : ∀ t u i members, t.get p = some (.group members) → f t i = .ok u →
      Adds t p (name i) (x i) u)
    {is : List ι} {t u : Setting} {members : List (String × Setting)}
    (parent : t.get p = some (.group members)) (h : is.foldlM f t = .ok u) :
    (∀ i ∈ is, u.get (p ++ [.member (name i)]) = some (x i)) ∧
      (∀ other y, t.get (p ++ [.member other]) = some y →
        u.get (p ++ [.member other]) = some y) ∧
      Frame p t u := by
  induction is generalizing t members with
  | nil =>
      cases h
      exact ⟨fun i none => absurd none List.not_mem_nil, fun _ _ there => there, .refl p _⟩
  | cons i is ih =>
      rw [List.foldlM_cons] at h
      obtain ⟨t₁, added, h⟩ := bind_eq_ok.mp h
      have first := adds t t₁ i members parent added
      obtain ⟨members', parent'⟩ := group_of_member first.new
      obtain ⟨all, keeps, frame⟩ := ih parent' h
      refine ⟨?_, ?_, first.frame.of_append.trans frame⟩
      · intro j member
        rcases List.mem_cons.mp member with rfl | later
        · exact keeps _ _ first.new
        · exact all j later
      · intro other y there
        exact keeps other y (first.keeps there)

theorem addChannel_ok {elems : List Setting} {value : U16}
    (parent : t.get p = some (.list elems)) (h : addChannel lib p t value = .ok u) :
    u.get p = some (.list (elems ++ [Setting.int (value.setWidth 32)])) ∧ Frame p t u := by
  obtain ⟨⟨t₁, reg⟩, added, h⟩ := bind_eq_ok.mp h
  obtain ⟨rfl, longer, frame⟩ := settingAdd_elem doc parent (orReturn_eq_ok.mp added)
  have set := doc.settingSetInt _ _ _ u (orReturn_eq_ok.mp h)
  rw [modify_append] at set
  obtain ⟨x, y, there, set, new, frame'⟩ := of_modify set
  cases longer.symm.trans there
  have last : child (.list (elems ++ [Setting.new .int])) (.elem elems.length) =
      some (Setting.new .int) := List.getElem?_concat_length
  have value_ : y = .list (elems ++ [Setting.int (value.setWidth 32)]) := by
    rw [NamedTree.modify, last] at set
    cases set
    show NamedTree.list ((elems ++ [_]).set elems.length _) = _
    rw [List.set_append_right _ _ (Nat.le_refl _), Nat.sub_self]
    rfl
  exact ⟨value_ ▸ new, frame.trans frame'⟩

theorem foldlM_addChannel {t u : Setting} {elems : List Setting} {values : List U16}
    (parent : t.get p = some (.list elems)) (h : values.foldlM (addChannel lib p) t = .ok u) :
    u.get p = some (.list (elems ++ values.map fun v => Setting.int (v.setWidth 32))) ∧
      Frame p t u := by
  induction values generalizing t elems with
  | nil =>
      cases h
      rw [List.map_nil, List.append_nil]
      exact ⟨parent, .refl p _⟩
  | cons v values ih =>
      rw [List.foldlM_cons] at h
      obtain ⟨t₁, added, h⟩ := bind_eq_ok.mp h
      obtain ⟨longer, frame⟩ := addChannel_ok doc parent added
      obtain ⟨all, frame'⟩ := ih longer h
      rw [List.append_assoc] at all
      exact ⟨all, frame.trans frame'⟩

/-! ## The group of a configuration -/

omit doc in
/-- What happens to one member of a group leaves the others alone. -/
theorem get_of_frame {base : Place} {a b : String} (frame : Frame (base ++ [.member a]) t u)
    (differ : a ≠ b) (r : Place) :
    u.get (base ++ (.member b :: r)) = t.get (base ++ (.member b :: r)) := by
  have apart : Apart [Step.member a] (.member b :: r) :=
    Or.inl fun same => differ (Step.member.inj same)
  exact frame _ ((apart_append_iff base _ _).mpr apart)

/-- A new group, and a loop that fills it. -/
theorem addGroup_ok {ι : Type} {base q : Place} {group : String} {name : ι → String}
    {x : ι → Setting} {f : Place → Setting → ι → Except Rc Setting} {t₁ : Setting}
    (adds : ∀ p t u i members, t.get p = some (.group members) → f p t i = .ok u →
      Adds t p (name i) (x i) u)
    {members : List (String × Setting)} (parent : t.get base = some (.group members))
    (added : lib.settingAdd t base (some group) .group = some (t₁, q)) {is : List ι}
    (h : is.foldlM (f q) t₁ = .ok u) :
    (∀ i ∈ is, u.get (base ++ [.member group, .member (name i)]) = some (x i)) ∧
      Frame (base ++ [.member group]) t u := by
  obtain ⟨rfl, -, new, frame⟩ := settingAdd_member doc parent added
  obtain ⟨all, -, frame'⟩ := foldlM_adds (adds _) new h
  refine ⟨fun i member => ?_, frame.trans frame'⟩
  rw [← all i member, List.append_assoc]
  rfl

/-- The members of a configuration that are saved, in the group `base`. -/
structure Filled (base : Place) (c : Configuration) (u : Setting) : Prop where
  description : u.get (base ++ [.member "description"]) =
    some (Setting.string c.description.text)
  channels : u.get (base ++ [.member "hvps", .member "channels"]) =
    some (.list (c.channel.toList.map fun v => Setting.int (v.setWidth 32)))
  regs : ∀ r ∈ c.regs,
    u.get (base ++ [.member "regs", .member r.1]) = some (Setting.int r.2)
  misc : ∀ r ∈ c.misc,
    u.get (base ++ [.member "misc", .member r.1]) = some (Setting.int r.2)
  calibration : ∀ flag ∈ calibrationFlags,
    u.get (base ++ [.member "calibration", .member flag]) = some (Setting.bool false)

theorem fillConfiguration_ok {base : Place} {c : Configuration}
    (empty : t.get base = some (.group [])) (h : fillConfiguration lib base c t = .ok u) :
    Filled base c u ∧ Frame base t u := by
  unfold fillConfiguration at h
  -- the description
  obtain ⟨⟨t₁, desc⟩, added, h⟩ := bind_eq_ok.mp h
  obtain ⟨rfl, -, -, frame⟩ := settingAdd_member doc empty (orReturn_eq_ok.mp added)
  obtain ⟨t₂, set, h⟩ := bind_eq_ok.mp h
  obtain ⟨description, frame'⟩ := settingSetString_ok doc (orReturn_eq_ok.mp set)
  have saved := frame.trans frame'
  -- the channels
  obtain ⟨_, parent⟩ := group_of_member description
  obtain ⟨⟨t₃, hvps⟩, added, h⟩ := bind_eq_ok.mp h
  obtain ⟨rfl, -, new, frame⟩ := settingAdd_member doc parent (orReturn_eq_ok.mp added)
  obtain ⟨⟨t₄, list⟩, added, h⟩ := bind_eq_ok.mp h
  obtain ⟨rfl, -, new, frame'⟩ := settingAdd_member doc new (orReturn_eq_ok.mp added)
  obtain ⟨t₅, loop, h⟩ := bind_eq_ok.mp h
  obtain ⟨channels, frame''⟩ := foldlM_addChannel doc new loop
  have hvpsFrame := frame.trans (frame'.of_append.trans frame''.of_append)
  rw [← get_of_frame hvpsFrame (by decide)] at description
  -- the registers
  obtain ⟨_, parent⟩ := group_of_member description
  obtain ⟨⟨t₆, registers⟩, added, h⟩ := bind_eq_ok.mp h
  obtain ⟨t₇, loop, h⟩ := bind_eq_ok.mp h
  obtain ⟨regs, regsFrame⟩ := addGroup_ok doc
    (f := fun p t (r : String × U32) => addElement lib p t r.1 r.2)
    (fun p t u r members parent h => addElement_ok doc parent h)
    parent (orReturn_eq_ok.mp added) loop
  rw [← get_of_frame regsFrame (by decide)] at description
  -- the miscellaneous settings
  obtain ⟨_, parent⟩ := group_of_member description
  obtain ⟨⟨t₈, miscs⟩, added, h⟩ := bind_eq_ok.mp h
  obtain ⟨t₉, loop, h⟩ := bind_eq_ok.mp h
  obtain ⟨misc, miscFrame⟩ := addGroup_ok doc
    (f := fun p t (r : String × U32) => addElement lib p t r.1 r.2)
    (fun p t u r members parent h => addElement_ok doc parent h)
    parent (orReturn_eq_ok.mp added) loop
  rw [← get_of_frame miscFrame (by decide)] at description
  -- the calibration flags
  obtain ⟨_, parent⟩ := group_of_member description
  obtain ⟨⟨t₁₀, calibration⟩, added, loop⟩ := bind_eq_ok.mp h
  obtain ⟨flags, flagsFrame⟩ := addGroup_ok doc (f := addFlag lib)
    (fun p t u name members parent h => addFlag_ok doc parent h)
    parent (orReturn_eq_ok.mp added) loop
  rw [← get_of_frame flagsFrame (by decide)] at description
  refine ⟨⟨description, ?_, ?_, ?_, flags⟩, ?_⟩
  · rw [get_of_frame flagsFrame (by decide), get_of_frame miscFrame (by decide),
      get_of_frame regsFrame (by decide)]
    rw [List.append_assoc, List.nil_append] at channels
    exact channels
  · intro r member
    rw [get_of_frame flagsFrame (by decide), get_of_frame miscFrame (by decide)]
    exact regs r member
  · intro r member
    rw [get_of_frame flagsFrame (by decide)]
    exact misc r member
  · exact saved.of_append.trans (hvpsFrame.of_append.trans
      (regsFrame.of_append.trans (miscFrame.of_append.trans flagsFrame.of_append)))

/-! ## Saving -/

omit doc in
theorem components_application : components "application" = [.member "application"] := by
  decide +kernel

omit doc in
theorem components_max : components "application.software.max_no_of_configs" = maxPlace := by
  decide +kernel

/-- What a successful `save_configuration` does to the tree of the file. -/
structure Saved (t : Setting) (c : Configuration) (n : U32) (u : Setting) : Prop where
  range : n.toInt ≤ maxNoOfConfigs
  application : (t.get [.member "application"]).isSome
  fresh : t.get (configPlace n.toInt) = none
  filled : Filled (configPlace n.toInt) c u
  max : u.get maxPlace = some (Setting.int (n + 1))
  frame : ∀ q, Apart (configPlace n.toInt) q → Apart maxPlace q → u.get q = t.get q

omit doc in
/-- The groups of the configurations are apart from everything of another name. -/
theorem configPlace_apart_member (n : ℤ) {name : String} (other : name.toList.head? ≠ some 'c')
    (r : Place) : Apart (configPlace n) (.member "application" :: .member name :: r) := by
  have differ : "config" ++ n.repr ≠ name := by
    rintro rfl
    rw [String.toList_append] at other
    exact other rfl
  exact Or.inr (Or.inl fun same => differ (Step.member.inj same))

omit doc in
theorem configPlace_apart_max (n : ℤ) : Apart (configPlace n) maxPlace :=
  configPlace_apart_member n (by decide) _

/-- The root is a group: in a list of settings there is no `max_no_of_configs`. -/
theorem root_group {c : Configuration} {name : Option String} {t₁ t₂ : Setting} {newconfig : Place}
    (added : lib.settingAdd t [.member "application"] name .group = some (t₁, newconfig))
    (fill : fillConfiguration lib newconfig c t₁ = .ok t₂) (counted : (t₂.get maxPlace).isSome) :
    ∃ members, t.get [.member "application"] = some (.group members) := by
  rcases settingAdd_parent doc added with group | ⟨elems, parent⟩
  · exact group
  · obtain ⟨rfl, longer, -⟩ := settingAdd_elem doc parent added
    have new : t₁.get ([.member "application"] ++ [.elem elems.length]) = some (.group []) := by
      rw [get_append, longer]
      show (((elems ++ [_])[elems.length]?).bind _) = _
      rw [List.getElem?_concat_length]
      rfl
    obtain ⟨-, frame⟩ := fillConfiguration_ok doc new fill
    have none_ : t₁.get maxPlace = none := by
      show t₁.get ([.member "application"] ++ [.member "software", .member _]) = none
      rw [get_append, longer]
      rfl
    have apart : Apart ([Step.member "application"] ++ [.elem elems.length]) maxPlace :=
      Or.inr (Or.inl (by simp))
    rw [frame _ apart, none_] at counted
    exact absurd counted (by simp)

theorem saveConfiguration_ok {writes : Bool} {c : Configuration} {n : U32} {file : File}
    (h : saveConfiguration lib writes (.parsed t) c n = .ok file) :
    ∃ u, file = .parsed u ∧ Saved t c n u := by
  unfold saveConfiguration at h
  dsimp only at h
  by_cases outside : (maxNoOfConfigs : ℤ) < n.toInt
  · rw [if_pos outside] at h
    cases h
  rw [if_neg outside] at h
  obtain ⟨root, found, h⟩ := bind_eq_ok.mp h
  have found := orReturn_eq_ok.mp found
  rw [doc.lookup, components_application] at found
  obtain ⟨application, same⟩ := Option.ite_none_right_eq_some.mp found
  cases same
  obtain ⟨⟨t₁, newconfig⟩, added, h⟩ := bind_eq_ok.mp h
  have added := orReturn_eq_ok.mp added
  obtain ⟨t₂, fill, h⟩ := bind_eq_ok.mp h
  obtain ⟨registers, found, h⟩ := bind_eq_ok.mp h
  have found := orReturn_eq_ok.mp found
  rw [doc.lookup, components_max] at found
  obtain ⟨counted, same⟩ := Option.ite_none_right_eq_some.mp found
  cases same
  obtain ⟨u, set, h⟩ := bind_eq_ok.mp h
  obtain ⟨max, maxFrame⟩ := settingSetInt_ok doc (orReturn_eq_ok.mp set)
  have file_ : file = .parsed u := by
    split at h
    · cases h
      rfl
    · cases h
  refine ⟨u, file_, ?_⟩
  obtain ⟨members, parent⟩ := root_group doc added fill counted
  obtain ⟨rfl, fresh, new, frame⟩ := settingAdd_member doc parent added
  obtain ⟨filled, fillFrame⟩ := fillConfiguration_ok doc new fill
  have apart := configPlace_apart_max n.toInt
  -- counting does not touch the new group
  have same : ∀ r, u.get (configPlace n.toInt ++ r) = t₂.get (configPlace n.toInt ++ r) :=
    fun r => maxFrame _ (apart.symm.append_right r)
  refine ⟨Int.not_lt.mp outside, application, fresh, ?_, max, ?_⟩
  · exact
      { description := (same _).trans filled.description
        channels := (same _).trans filled.channels
        regs := fun r member => (same _).trans (filled.regs r member)
        misc := fun r member => (same _).trans (filled.misc r member)
        calibration := fun flag member => (same _).trans (filled.calibration flag member) }
  · intro q apartConfig apartMax
    rw [maxFrame q apartMax, fillFrame q apartConfig, frame q apartConfig]

end Cjunk.Settings
