import Mathlib.Data.Int.Notation
import Mathlib.Data.List.Basic
import Std.Data.String.ToInt
import Cjunk.Lib.LabelledTree
import Cjunk.Lib.Words

/-!
# What the configuration files rely on

The configuration is kept in a file in the format of `libconfig`, a library that is not
part of the repository.  The model takes the functions that are called as a parameter
`Libconfig`, and what its manual says of them as `Libconfig.Documented`: a file is a tree of
settings, a path names a setting by the names on the way to it, separated by dots, and a
pointer to a setting is its place.  Functions that change a setting may fail; when they do not,
the tree has the change and no other.

`Libconfig.manual` does what the manual says.

A `long` that is stored in a setting of type `CONFIG_TYPE_INT` is its 32 bits.  The format of an
integer, decimal or hexadecimal, is a matter of how it is printed.  A character of a string is
one byte.
-/

namespace Cjunk.Settings

open LabelledTree

/-- The value of a setting that is not an aggregate.  `other` is one of another type, as it
stands in the file. -/
inductive Scalar where
  | int (value : U32)
  | bool (value : Bool)
  | string (value : String)
  | other (text : String)
  deriving DecidableEq

/-- A setting; arrays and lists are both lists. -/
abbrev Setting := NamedTree String Scalar

/-- A `config_setting_t *`. -/
abbrev Place := List (Step String)

/-- The types of `config_setting_add` that are used. -/
inductive SettingType where
  | int
  | bool
  | string
  | list
  | group

namespace Setting

def int (value : U32) : Setting := .leaf (.int value)

def bool (value : Bool) : Setting := .leaf (.bool value)

def string (value : String) : Setting := .leaf (.string value)

/-- A new setting of a type. -/
def new : SettingType → Setting
  | .int => int 0
  | .bool => bool false
  | .string => string ""
  | .list => .list []
  | .group => .group []

/-- The value of an integer, and zero for everything else. -/
def toInt : Option Setting → U32
  | some (.leaf (.int value)) => value
  | _ => 0

def toBool : Option Setting → Bool
  | some (.leaf (.bool value)) => value
  | _ => false

def toString? : Option Setting → Option String
  | some (.leaf (.string value)) => some value
  | _ => none

/-- The settings that an aggregate consists of, in their order. -/
def elems : Option Setting → List Setting
  | some (.list elems) => elems
  | some (.group members) => members.map Prod.snd
  | _ => []

/-- A scalar takes a value of its own type. -/
def setInt (value : U32) : Setting → Option Setting
  | .leaf (.int _) => some (int value)
  | _ => none

def setBool (value : Bool) : Setting → Option Setting
  | .leaf (.bool _) => some (bool value)
  | _ => none

def setString (value : String) : Setting → Option Setting
  | .leaf (.string _) => some (string value)
  | _ => none

/-- Add a member of the name to a group, or an element to a list. -/
def add (t : Setting) (parent : Place) (name : Option String) (type : SettingType) :
    Option (Setting × Place) :=
  match t.get parent, name with
  | some (.group _), some name =>
    (t.modify (NamedTree.appendMember name (new type)) parent).map fun t =>
      (t, parent ++ [.member name])
  | some (.list elems), _ =>
    (t.modify (NamedTree.appendElem (new type)) parent).map fun t =>
      (t, parent ++ [.elem elems.length])
  | _, _ => none

end Setting

/-- The place that a path names. -/
def components (path : String) : Place :=
  (path.toList.splitOn '.').map fun name => .member (String.ofList name)

/-- The functions of `libconfig`; `none` stands for `NULL` and for `CONFIG_FALSE`. -/
structure Libconfig where
  lookup : Setting → String → Option Place
  lookupInt : Setting → String → U32
  lookupBool : Setting → String → Bool
  lookupString : Setting → String → Option String
  settingLength : Setting → Place → ℕ
  settingGetIntElem : Setting → Place → ℕ → U32
  settingAdd : Setting → Place → Option String → SettingType → Option (Setting × Place)
  settingSetInt : Setting → Place → U32 → Option Setting
  settingSetBool : Setting → Place → Bool → Option Setting
  settingSetString : Setting → Place → String → Option Setting
  /-- `config_setting_set_format(…, CONFIG_FORMAT_HEX)`. -/
  settingSetFormat : Setting → Place → Bool

/-- What the manual says of them. -/
structure Libconfig.Documented (lib : Libconfig) : Prop where
  lookup : ∀ t path, lib.lookup t path =
    if (t.get (components path)).isSome then some (components path) else none
  lookupInt : ∀ t path, lib.lookupInt t path = Setting.toInt (t.get (components path))
  lookupBool : ∀ t path, lib.lookupBool t path = Setting.toBool (t.get (components path))
  lookupString : ∀ t path, lib.lookupString t path = Setting.toString? (t.get (components path))
  settingLength : ∀ t p, lib.settingLength t p = (Setting.elems (t.get p)).length
  settingGetIntElem : ∀ t p i,
    lib.settingGetIntElem t p i = Setting.toInt (Setting.elems (t.get p))[i]?
  settingAdd : ∀ t p name type r, lib.settingAdd t p name type = some r →
    Setting.add t p name type = some r
  settingSetInt : ∀ t p value u, lib.settingSetInt t p value = some u →
    t.modify (Setting.setInt value) p = some u
  settingSetBool : ∀ t p value u, lib.settingSetBool t p value = some u →
    t.modify (Setting.setBool value) p = some u
  settingSetString : ∀ t p value u, lib.settingSetString t p value = some u →
    t.modify (Setting.setString value) p = some u

/-- The functions as the manual describes them. -/
def Libconfig.manual : Libconfig where
  lookup t path := if (t.get (components path)).isSome then some (components path) else none
  lookupInt t path := Setting.toInt (t.get (components path))
  lookupBool t path := Setting.toBool (t.get (components path))
  lookupString t path := Setting.toString? (t.get (components path))
  settingLength t p := (Setting.elems (t.get p)).length
  settingGetIntElem t p i := Setting.toInt (Setting.elems (t.get p))[i]?
  settingAdd := Setting.add
  settingSetInt t p value := t.modify (Setting.setInt value) p
  settingSetBool t p value := t.modify (Setting.setBool value) p
  settingSetString t p value := t.modify (Setting.setString value) p
  settingSetFormat t p :=
    match t.get p with
    | some (.leaf (.int _)) => true
    | _ => false

theorem Libconfig.manual_documented : Libconfig.manual.Documented where
  lookup _ _ := rfl
  lookupInt _ _ := rfl
  lookupBool _ _ := rfl
  lookupString _ _ := rfl
  settingLength _ _ := rfl
  settingGetIntElem _ _ _ := rfl
  settingAdd _ _ _ _ _ h := h
  settingSetInt _ _ _ _ h := h
  settingSetBool _ _ _ _ h := h
  settingSetString _ _ _ _ h := h

/-! ## Paths -/

/-- The name of a member is appended to a path with `strcat`, after a dot. -/
def subPath (path name : String) : String := path ++ ("." ++ name)

theorem components_subPath (path name : String) :
    components (subPath path name) = components path ++ components name := by
  unfold subPath components
  rw [String.toList_append, String.toList_append, show ".".toList = ['.'] from rfl,
    List.singleton_append, List.splitOn_append_cons_self, List.map_append]

theorem components_name {name : String} (plain : '.' ∉ name.toList) :
    components name = [.member name] := by
  unfold components
  rw [List.splitOn_eq_singleton plain, List.map_singleton, String.ofList_toList]

/-- A decimal number has no dot in it. -/
theorem dot_notMem_repr (n : ℤ) : '.' ∉ n.repr.toList := by
  have digits : ∀ m : ℕ, '.' ∉ m.repr.toList := by
    intro m h
    rw [Nat.toList_repr] at h
    exact absurd (Nat.isDigit_of_mem_toDigits (by decide) (by decide) h) (by decide)
  cases n with
  | ofNat m => exact digits m
  | negSucc m =>
      rw [Int.repr, String.toList_append]
      intro h
      rcases List.mem_append.mp h with sign | number
      · exact absurd sign (by decide)
      · exact digits _ number

end Cjunk.Settings
