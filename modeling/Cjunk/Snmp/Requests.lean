import Cjunk.Lib.Run
import Cjunk.Snmp.Channels

/-!
# Requests with many variables, and the main switch

A SET request is handled variable by variable: each is applied before the next is looked
at, and the handler has nothing to do in the undo phase.  So a request is not all or
nothing.  What holds is `errors_change_nothing`: the variables answered with an error
might as well not have been in the request.

The main switch turns all channels off with it, but it does not keep them off: the switch
of a channel is set whether or not the crate is on.  `off_with_main_iff` says that this is
the only way for a channel to be on in a crate that is off.
-/

namespace Cjunk.Snmp

open Run
open Scalar (truth truth_zero)

universe u

variable {V : Type u} [Scalar V]

/-! ## All or nothing -/

/-- The variables of a SET request that are answered without an error. -/
def accepted (s : Agent V) (requests : List (Var V)) : List (Var V) :=
  ((requests.zip (setRequest s requests).2).filter fun answered => !answered.2.isError).map
    Prod.fst

theorem mySnmpHandler_cons (s : Agent V) (r : Var V) (requests : List (Var V)) :
    mySnmpHandler .setAction s (r :: requests) =
      ((mySnmpHandler .setAction (setAction s r).1 requests).1,
        (setAction s r).2 :: (mySnmpHandler .setAction (setAction s r).1 requests).2) := rfl

theorem accepted_cons (s : Agent V) (r : Var V) (requests : List (Var V)) :
    accepted s (r :: requests) =
      if (setAction s r).2.isError = true then accepted (setAction s r).1 requests
      else r :: accepted (setAction s r).1 requests := by
  unfold accepted
  rw [setRequest_eq, setRequest_eq, mySnmpHandler_cons, List.zip_cons_cons]
  cases error : (setAction s r).2.isError with
  | true =>
      rw [List.filter_cons_of_neg (by simp [error]), if_pos rfl]
  | false =>
      rw [List.filter_cons_of_pos (by rw [error]; rfl), if_neg Bool.false_ne_true, List.map_cons]

/-- **Errors change nothing.**  A SET request has the effect of its variables that are
answered without an error, in their order, and none of these fails; if all variables are
answered with an error, nothing has changed. -/
theorem errors_change_nothing (s : Agent V) (requests : List (Var V)) :
    (setRequest s (accepted s requests)).1 = (setRequest s requests).1 ∧
      (∀ reply ∈ (setRequest s (accepted s requests)).2, reply.isError = false) ∧
      ((∀ reply ∈ (setRequest s requests).2, reply.isError = true) →
        (setRequest s requests).1 = s) := by
  rw [setRequest_eq, setRequest_eq]
  induction requests generalizing s with
  | nil => exact ⟨rfl, fun _ none => absurd none List.not_mem_nil, fun _ => rfl⟩
  | cons r requests ih =>
      obtain ⟨effect, accept, refuse⟩ := ih (setAction s r).1
      rw [mySnmpHandler_cons, accepted_cons]
      cases error : (setAction s r).2.isError with
      | true =>
          have same := setAction_error s error
          rw [if_pos rfl]
          rw [same] at effect accept refuse ⊢
          refine ⟨effect, accept, fun all => refuse fun reply mem => ?_⟩
          exact all reply (List.mem_cons_of_mem _ mem)
      | false =>
          rw [if_neg Bool.false_ne_true, mySnmpHandler_cons]
          refine ⟨effect, ?_, fun all => ?_⟩
          · intro reply mem
            rcases List.mem_cons.mp mem with rfl | mem
            · exact error
            · exact accept reply mem
          · have first := all _ List.mem_cons_self
            rw [error] at first
            exact Bool.noConfusion first

/-- The voltage of a channel that is off. -/
theorem errors_change_nothing_off :
    (setRequest (initial : Agent ℤ) [⟨setVoltages ++ [channel102.number], 900⟩]).1 = initial :=
  (errors_change_nothing initial _).2.2 (by decide +kernel)

/-- The last variable is refused because channel 103 is off; by then channel 102 is on. -/
theorem refused_request_changes :
    ((setRequest (initial : Agent ℤ) [⟨switches ++ [channel102.number], 1⟩,
        ⟨setVoltages ++ [103], 900⟩]).2.any Reply.isError = true) ∧
      (setRequest (initial : Agent ℤ) [⟨switches ++ [channel102.number], 1⟩,
        ⟨setVoltages ++ [103], 900⟩]).1.power channel102 ≠ (initial : Agent ℤ).power channel102 :=
  ⟨by decide +kernel, by decide +kernel⟩

/-! ## The main switch -/

/-- While the main switch is off, so are all channels, and all set voltages are 0. -/
def OffWithMain (s : Agent V) : Prop :=
  truth s.mPower = false → ∀ ch, truth (s.power ch) = false ∧ s.voltage ch = Scalar.zero

/-- A variable that turns a channel on is handled while the main switch is on. -/
def OnUnderMain (s : Agent V) (r : Var V) : Prop :=
  ∀ ch : Channel, r.oid = switches ++ [ch.number] → truth r.value = true →
    truth s.mPower = true

/-- One variable of a SET request. -/
def varStep (s : Agent V) (r : Var V) : Option (Agent V) := some (setAction s r).1

/-- A whole SET request. -/
def requestStep (s : Agent V) (requests : List (Var V)) : Option (Agent V) :=
  some (setRequest s requests).1

theorem OffWithMain.step {s : Agent V} {r : Var V} (h : OffWithMain s) (ok : OnUnderMain s r) :
    OffWithMain (setAction s r).1 := by
  rcases setAction_cases s r with ⟨-, done⟩ | ⟨ch, switch, done⟩ | ⟨ch, -, done⟩ |
    ⟨-, -, -, done⟩
  · rw [done, setMain]
    intro off
    have off : truth r.value = false := off
    rw [if_neg (by simp [off])]
    exact fun _ => ⟨truth_zero, rfl⟩
  · rw [done]
    intro off
    have main : (setSwitch r.value ch s).mPower = s.mPower := by
      unfold setSwitch
      dsimp only
      split <;> rfl
    rw [main] at off
    have value : truth r.value = false := by
      rw [← Bool.not_eq_true]
      intro on
      rw [ok ch switch on] at off
      exact Bool.noConfusion off
    intro a
    by_cases here : a = ch
    · subst here
      rw [setSwitch, if_neg (by simp [value])]
      dsimp only
      rw [Function.update_self, Function.update_self]
      exact ⟨value, rfl⟩
    · rw [setSwitch_power_other here, setSwitch_voltage_other here]
      exact h off a
  · rw [done, setVoltage]
    split
    · rename_i on
      intro off
      rw [(h off ch).1] at on
      exact absurd on Bool.false_ne_true
    · exact h
  · rw [done]
    exact h

/-- Turning a channel on in a crate that is off leaves it on. -/
theorem OffWithMain.onUnderMain {s : Agent V} {r : Var V}
    (after : OffWithMain (setAction s r).1) : OnUnderMain s r := by
  intro ch switch on
  rw [← Bool.not_eq_false]
  intro off
  obtain ⟨oid, value⟩ := r
  subst switch
  rw [setAction_switch, setSwitch, if_pos on] at after
  have power := (after off ch).1
  dsimp only at power
  rw [Function.update_self, on] at power
  exact Bool.noConfusion power

/-- A request passes through its variables. -/
theorem OffWithMain.request {s : Agent V} {requests : List (Var V)} (h : OffWithMain s)
    (ok : Meets varStep OnUnderMain s requests) : OffWithMain (setRequest s requests).1 := by
  rw [setRequest_eq]
  induction requests generalizing s with
  | nil => exact h
  | cons r requests ih =>
      obtain ⟨first, rest⟩ := ok _ rfl
      exact ih (h.step first) rest

/-- **The main switch.**  From the initial state, no channel is on and no voltage is set
while the main switch is off, in any sequence of variables, if and only if each that turns
a channel on is handled while the main switch is on; and so it is after each request of any
sequence of requests with such variables. -/
theorem off_with_main_iff :
    (∀ vars : List (Var V), Throughout varStep OffWithMain initial vars ↔
      Meets varStep OnUnderMain initial vars) ∧
    ∀ requests : List (List (Var V)),
      Meets requestStep (fun s vars => Meets varStep OnUnderMain s vars) initial requests →
        Throughout requestStep OffWithMain initial requests := by
  have start : OffWithMain (initial : Agent V) := fun _ _ => ⟨truth_zero, rfl⟩
  constructor
  · intro vars
    refine throughout_iff_meets (fun _ h => h) ?_ ?_ start
    · rintro s r t h ok ⟨⟩
      exact h.step ok
    · rintro s r t - ⟨⟩ after
      exact after.onUnderMain
  · intro requests ok
    refine ok.throughout ?_ (fun _ h => h) start
    rintro s vars t h ok ⟨⟩
    exact h.request ok

/-- The crate is turned on first. -/
theorem off_with_main_iff_on :
    Throughout varStep OffWithMain (initial : Agent ℤ)
      [⟨mainSwitch, 1⟩, ⟨switches ++ [channel102.number], 1⟩] := by
  refine (off_with_main_iff.1 _).mpr ?_
  rintro s ⟨⟩
  refine ⟨fun ch same => absurd same (mainSwitch_ne (by decide) ch), ?_⟩
  rintro t ⟨⟩
  exact ⟨fun _ _ _ => by decide +kernel, trivial⟩

/-- The crate is off, and channel 102 is turned on. -/
theorem channel_on_without_main :
    ¬ Throughout requestStep OffWithMain (initial : Agent ℤ)
      [[⟨switches ++ [channel102.number], 1⟩]] := by
  intro all
  have on := (((all.2 _ rfl).head rfl) channel102).1
  exact absurd on (by decide +kernel)

end Cjunk.Snmp
