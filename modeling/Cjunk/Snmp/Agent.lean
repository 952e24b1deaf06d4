import Mathlib.Data.List.FinRange
import Mathlib.Logic.Function.Basic

/-!
# The SNMP agent of the crate

`my_snmp_handler` of `perl_module.pl`: a crate with a main switch and four slots of
channels, each with a switch, a set voltage and an actual voltage that is the set voltage
and a deviation.  A channel is switched on before its voltage can be set, and turning the
main switch off turns everything off.

The handler writes the same loop out for every slot and every kind of variable;
`forSlot` is that loop, and `forChannels` the four of them in a row.

### Net-SNMP

A value is what `getValue` returns, a Perl scalar; all the handler does with it is to
store it, to test it and to add the deviation (`Scalar`).  The agent library calls the
handler for each phase of a SET request; of these the handler acts on
`MODE_SET_ACTION` only.
-/

namespace Cjunk.Snmp

universe u

/-- What the handler does with Perl scalars. -/
class Scalar (V : Type u) where
  /-- `0` -/
  zero : V
  /-- The truth of `if ($value)`. -/
  truth : V → Bool
  /-- `$value + n` -/
  add : V → ℕ → V
  truth_zero : truth zero = false

open Scalar (truth truth_zero)

/-- The values of `ASN_INTEGER`. -/
instance : Scalar ℤ where
  zero := 0
  truth n := decide (n ≠ 0)
  add n d := n + d
  truth_zero := rfl

/-! ## Object identifiers -/

abbrev Oid := List ℕ

/-- `$regat`: `.1.3.6.1.4.1.19947`. -/
def regat : Oid := [1, 3, 6, 1, 4, 1, 19947]

def mainSwitch : Oid := regat ++ [1, 1, 1, 0]
def switches : Oid := regat ++ [1, 3, 2, 1, 9]
def setVoltages : Oid := regat ++ [1, 3, 2, 1, 10]
def actualVoltages : Oid := regat ++ [1, 3, 2, 1, 5]

/-- The channels of each slot: the lengths of `@power_slot1` to `@power_slot4`. -/
def slotSize (slot : Fin 4) : ℕ := if slot = 3 then 3 else 8

/-- A channel: an element of one of the slot arrays. -/
structure Channel where
  slot : Fin 4
  index : Fin (slotSize slot)
  deriving DecidableEq

/-- The number `$ch` of a channel in its object identifiers: 1–8, 101–108, 201–208 and
301–303. -/
def Channel.number (ch : Channel) : ℕ := 100 * ch.slot + ch.index + 1

/-- The channels of a slot, as the loops pass through them. -/
def slotChannels (slot : Fin 4) : List Channel := (List.finRange (slotSize slot)).map (⟨slot, ·⟩)

/-! ## The agent -/

structure Agent (V : Type u) where
  /-- `$m_power` -/
  mPower : V
  /-- `@power_slot1` to `@power_slot4` -/
  power : Channel → V
  /-- `@voltage_slot1` to `@voltage_slot4` -/
  voltage : Channel → V

/-- One variable of a request, with its value if the request is a SET. -/
structure Var (V : Type u) where
  oid : Oid
  value : V

/-- What the handler has made of a variable: `setValue`, `setError`, or neither. -/
inductive Reply (V : Type u) where
  | unset
  | value (v : V)
  | text (oid : Oid) (s : String)
  | error
  deriving DecidableEq

def Reply.isError {V : Type u} : Reply V → Bool
  | .error => true
  | .unset | .value _ | .text _ _ => false

/-- The phases in which the agent library calls the handler. -/
inductive Mode where
  | get
  | getNext
  | setReserve1
  | setReserve2
  | setAction
  | setCommit
  | setFree
  | setUndo

section

variable {V : Type u} {σ : Type u}

/-- `for ($ch = …) { if ($oid == "$base.$ch") { … } }`, for the channels of one slot. -/
def forSlot (oid base : Oid) (f : Channel → σ → σ) (s : σ) (slot : Fin 4) : σ :=
  (slotChannels slot).foldl (fun s ch => if oid = base ++ [ch.number] then f ch s else s) s

/-- Slots 1 to 4. -/
def forChannels (oid base : Oid) (f : Channel → σ → σ) (s : σ) : σ :=
  (List.finRange 4).foldl (forSlot oid base f) s

variable [Scalar V]

def initial : Agent V := { mPower := Scalar.zero, power _ := Scalar.zero, voltage _ := Scalar.zero }

/-- Set the main switch; turning it off turns everything off. -/
def setMain (s : Agent V) (value : V) : Agent V :=
  let s := if truth value then s
    else { s with power := fun _ => Scalar.zero, voltage := fun _ => Scalar.zero }
  { s with mPower := value }

/-- Set the switch of a channel. -/
def setSwitch (value : V) (ch : Channel) (s : Agent V) : Agent V :=
  let s := { s with power := Function.update s.power ch value }
  if truth value then s else { s with voltage := Function.update s.voltage ch Scalar.zero }

/-- Set the voltage of a channel, if it is on. -/
def setVoltage (value : V) (ch : Channel) (s : Agent V × Reply V) : Agent V × Reply V :=
  if truth (s.1.power ch) then
    ({ s.1 with voltage := Function.update s.1.voltage ch value }, s.2)
  else (s.1, .error)

/-- `MODE_SET_ACTION`. -/
def setAction (s : Agent V) (r : Var V) : Agent V × Reply V :=
  let s := if r.oid = mainSwitch then setMain s r.value else s
  let s := forChannels r.oid switches (setSwitch r.value) s
  forChannels r.oid setVoltages (setVoltage r.value) (s, .unset)

/-- `DEVIATION` -/
def deviation : ℕ := 1

/-- A voltage is only told of a channel that is on. -/
def tellVoltage (s : Agent V) (value : V) (ch : Channel) : Reply V :=
  if truth (s.power ch) then .value value else .error

/-- `MODE_GET`. -/
def get (s : Agent V) (oid : Oid) : Reply V :=
  let reply := if oid = mainSwitch then .value s.mPower else .unset
  let reply := forChannels oid switches (fun ch _ => .value (s.power ch)) reply
  let reply := forChannels oid setVoltages (fun ch _ => tellVoltage s (s.voltage ch) ch) reply
  forChannels oid actualVoltages
    (fun ch _ => tellVoltage s (Scalar.add (s.voltage ch) deviation) ch) reply

/-- `MODE_GETNEXT`: the one object it knows is a greeting. -/
def getNext (oid : Oid) : Reply V :=
  if oid < regat ++ [1, 2, 1] then .text (regat ++ [1, 2, 1]) "hello world2" else .unset

/-- `my_snmp_handler` on one variable. -/
def handleVar (mode : Mode) (s : Agent V) (r : Var V) : Agent V × Reply V :=
  match mode with
  | .get => (s, get s r.oid)
  | .setAction => setAction s r
  | .getNext => (s, getNext r.oid)
  | .setReserve1 | .setReserve2 | .setCommit | .setFree | .setUndo => (s, .unset)

/-- `my_snmp_handler`: the variables one after the other. -/
def mySnmpHandler (mode : Mode) : Agent V → List (Var V) → Agent V × List (Reply V)
  | s, [] => (s, [])
  | s, r :: requests =>
      let (s, reply) := handleVar mode s r
      let (s, replies) := mySnmpHandler mode s requests
      (s, reply :: replies)

/-- A SET request, in the phases of the agent library: an error in the action phase is
followed by the undo phase. -/
def setRequest (s : Agent V) (requests : List (Var V)) :
    Agent V × List (Reply V) :=
  let (s, _) := mySnmpHandler .setReserve1 s requests
  let (s, _) := mySnmpHandler .setReserve2 s requests
  let (s, replies) := mySnmpHandler .setAction s requests
  let last := if replies.any Reply.isError then Mode.setUndo else Mode.setCommit
  let (s, _) := mySnmpHandler last s requests
  (s, replies)

end

/-! ## The loops -/

/-- The number of a channel tells its slot and its index. -/
theorem Channel.number_inj {a b : Channel} : a.number = b.number ↔ a = b := by
  refine ⟨fun same => ?_, fun same => same ▸ rfl⟩
  obtain ⟨slot, index⟩ := a
  obtain ⟨slot', index'⟩ := b
  have small : ∀ slot, slotSize slot ≤ 8 := by decide
  have := index.isLt
  have := index'.isLt
  have := small slot
  have := small slot'
  unfold Channel.number at same
  dsimp only at same
  obtain rfl : slot = slot' := Fin.ext (by omega)
  obtain rfl : index = index' := Fin.ext (by omega)
  rfl

theorem append_number_inj {base : Oid} {a b : Channel} :
    base ++ [a.number] = base ++ [b.number] ↔ a = b := by
  rw [List.append_cancel_left_eq, List.cons.injEq, Channel.number_inj]
  exact and_iff_left rfl

theorem mem_slotChannels {slot : Fin 4} {ch : Channel} :
    ch ∈ slotChannels slot ↔ ch.slot = slot := by
  unfold slotChannels
  rw [List.mem_map]
  constructor
  · rintro ⟨index, -, rfl⟩
    rfl
  · rintro rfl
    exact ⟨ch.index, List.mem_finRange _, rfl⟩

theorem slotChannels_nodup (slot : Fin 4) : (slotChannels slot).Nodup := by
  refine (List.nodup_finRange _).map fun a b same => ?_
  cases same
  rfl

section Loops

variable {σ : Type u} {oid base : Oid} {f : Channel → σ → σ} {s : σ}

/-- A loop over distinct things that acts on the one it looks for. -/
theorem foldl_find {α : Type} [DecidableEq α] {l : List α} {g : α → σ → σ} {a : α} (s : σ)
    (distinct : l.Nodup) :
    l.foldl (fun s x => if a = x then g x s else s) s = if a ∈ l then g a s else s := by
  induction l generalizing s with
  | nil => rfl
  | cons x l ih =>
      obtain ⟨new, distinct⟩ := List.nodup_cons.mp distinct
      rw [List.foldl_cons, ih _ distinct]
      by_cases here : a = x
      · subst here
        rw [if_pos rfl, if_neg new, if_pos List.mem_cons_self]
      · rw [if_neg here]
        congr 1
        rw [List.mem_cons, eq_iff_iff]
        exact (or_iff_right here).symm

theorem forSlot_channel (ch : Channel) (slot : Fin 4) :
    forSlot (base ++ [ch.number]) base f s slot = if slot = ch.slot then f ch s else s := by
  have loop : forSlot (base ++ [ch.number]) base f s slot =
      (slotChannels slot).foldl (fun s x => if ch = x then f x s else s) s := by
    unfold forSlot
    congr 1
    funext s x
    exact if_congr append_number_inj rfl rfl
  rw [loop, foldl_find s (slotChannels_nodup slot)]
  exact if_congr (mem_slotChannels.trans eq_comm) rfl rfl

/-- The loops find the channel of an object identifier. -/
theorem forChannels_channel (ch : Channel) :
    forChannels (base ++ [ch.number]) base f s = f ch s := by
  have loops : forChannels (base ++ [ch.number]) base f s =
      (List.finRange 4).foldl (fun s slot => if ch.slot = slot then f ch s else s) s := by
    unfold forChannels
    congr 1
    funext s slot
    rw [forSlot_channel]
    exact if_congr eq_comm rfl rfl
  rw [loops, foldl_find (g := fun _ s => f ch s) s (List.nodup_finRange 4),
    if_pos (List.mem_finRange _)]

/-- The loops leave other object identifiers alone. -/
theorem forChannels_other (other : ∀ ch : Channel, oid ≠ base ++ [ch.number]) :
    forChannels oid base f s = s := by
  have slot : ∀ (s : σ) (slot : Fin 4), forSlot oid base f s slot = s := by
    intro s slot
    unfold forSlot
    generalize slotChannels slot = channels
    induction channels with
    | nil => rfl
    | cons ch channels ih =>
        rw [List.foldl_cons, if_neg (other ch)]
        exact ih
  unfold forChannels
  generalize List.finRange 4 = slots
  induction slots with
  | nil => rfl
  | cons a slots ih =>
      rw [List.foldl_cons, slot]
      exact ih

end Loops

/-! ## What a SET does -/

/-- Identifiers of different kinds differ. -/
theorem append_ne_append {base base' : Oid} (length : base.length = base'.length)
    (ne : base ≠ base') (a b : Channel) : base ++ [a.number] ≠ base' ++ [b.number] :=
  fun same => ne (List.append_inj_left same length)

theorem mainSwitch_ne {base : Oid} (length : base.length = 12) (ch : Channel) :
    mainSwitch ≠ base ++ [ch.number] := by
  intro same
  have lengths := congrArg List.length same
  rw [List.length_append, length, List.length_singleton] at lengths
  exact absurd lengths (by decide)

section SetAction

variable {V : Type u} [Scalar V] (s : Agent V) (value : V) (ch : Channel)

theorem setAction_main : setAction s ⟨mainSwitch, value⟩ = (setMain s value, .unset) := by
  unfold setAction
  dsimp only
  rw [if_pos rfl, forChannels_other (mainSwitch_ne (by decide)),
    forChannels_other (mainSwitch_ne (by decide))]

theorem setAction_switch :
    setAction s ⟨switches ++ [ch.number], value⟩ = (setSwitch value ch s, .unset) := by
  unfold setAction
  dsimp only
  rw [if_neg (mainSwitch_ne (by decide) ch).symm, forChannels_channel,
    forChannels_other (append_ne_append (by decide) (by decide) ch)]

theorem setAction_voltage : setAction s ⟨setVoltages ++ [ch.number], value⟩ =
    setVoltage value ch (s, .unset) := by
  have notSwitch : ∀ b : Channel, setVoltages ++ [ch.number] ≠ switches ++ [b.number] :=
    append_ne_append (by decide) (by decide) ch
  unfold setAction
  dsimp only
  rw [if_neg (mainSwitch_ne (by decide) ch).symm, forChannels_other notSwitch,
    forChannels_channel]

/-- What a variable of a SET does, by what it is. -/
theorem setAction_cases (r : Var V) :
    (r.oid = mainSwitch ∧ setAction s r = (setMain s r.value, .unset)) ∨
    (∃ ch : Channel, r.oid = switches ++ [ch.number] ∧
      setAction s r = (setSwitch r.value ch s, .unset)) ∨
    (∃ ch : Channel, r.oid = setVoltages ++ [ch.number] ∧
      setAction s r = setVoltage r.value ch (s, .unset)) ∨
    (r.oid ≠ mainSwitch ∧ (∀ ch : Channel, r.oid ≠ switches ++ [ch.number]) ∧
      (∀ ch : Channel, r.oid ≠ setVoltages ++ [ch.number]) ∧ setAction s r = (s, .unset)) := by
  obtain ⟨oid, value⟩ := r
  by_cases main : oid = mainSwitch
  · subst main
    exact Or.inl ⟨rfl, setAction_main s value⟩
  by_cases switch : ∃ ch : Channel, oid = switches ++ [ch.number]
  · obtain ⟨ch, rfl⟩ := switch
    exact Or.inr (Or.inl ⟨ch, rfl, setAction_switch s value ch⟩)
  by_cases voltage : ∃ ch : Channel, oid = setVoltages ++ [ch.number]
  · obtain ⟨ch, rfl⟩ := voltage
    exact Or.inr (Or.inr (Or.inl ⟨ch, rfl, setAction_voltage s value ch⟩))
  · have notSwitch := not_exists.mp switch
    have notVoltage := not_exists.mp voltage
    refine Or.inr (Or.inr (Or.inr ⟨main, notSwitch, notVoltage, ?_⟩))
    unfold setAction
    dsimp only
    rw [if_neg main, forChannels_other notSwitch, forChannels_other notVoltage]

/-- A variable that is answered with an error has changed nothing. -/
theorem setAction_error {r : Var V} (error : (setAction s r).2.isError = true) :
    (setAction s r).1 = s := by
  rcases setAction_cases s r with ⟨-, done⟩ | ⟨ch, -, done⟩ | ⟨ch, -, done⟩ | ⟨-, -, -, done⟩
  · rw [done] at error
    exact Bool.noConfusion error
  · rw [done] at error
    exact Bool.noConfusion error
  · rw [done] at error ⊢
    unfold setVoltage at error ⊢
    split
    · rename_i on
      rw [if_pos on] at error
      exact Bool.noConfusion error
    · rfl
  · rw [done]

section Others

variable {s value} {a b : Channel}

/-- A switch changes its own channel. -/
theorem setSwitch_power_other (other : b ≠ a) :
    (setSwitch value a s).power b = s.power b := by
  unfold setSwitch
  dsimp only
  split <;> exact Function.update_of_ne other _ _

theorem setSwitch_voltage_other (other : b ≠ a) :
    (setSwitch value a s).voltage b = s.voltage b := by
  unfold setSwitch
  dsimp only
  split
  · rfl
  · exact Function.update_of_ne other _ _

theorem setVoltage_other {reply : Reply V} (other : b ≠ a) :
    (setVoltage value a (s, reply)).1.power b = s.power b ∧
      (setVoltage value a (s, reply)).1.voltage b = s.voltage b := by
  unfold setVoltage
  split
  · exact ⟨rfl, Function.update_of_ne other _ _⟩
  · exact ⟨rfl, rfl⟩

end Others

/-- A GET of the set voltage of a channel. -/
theorem get_setVoltage :
    get s (setVoltages ++ [ch.number]) = tellVoltage s (s.voltage ch) ch := by
  have notActual : ∀ b : Channel, setVoltages ++ [ch.number] ≠ actualVoltages ++ [b.number] :=
    append_ne_append (by decide) (by decide) ch
  unfold get
  dsimp only
  rw [forChannels_other notActual, forChannels_channel]

end SetAction

end Cjunk.Snmp
