import Cjunk.Snmp.Agent

/-!
# The state of a channel

What a GET of a channel's set voltage answers is told by the history of the SET requests
alone: `lastAccepted` goes back through it to the last accepted voltage, unless the
channel or the whole crate was turned off since.  `channel_state` is the result, for
every channel and every history of single-variable requests.
-/

namespace Cjunk.Snmp

open Scalar (truth truth_zero)

universe u

variable {V : Type u} [Scalar V]

/-! ## Histories -/

/-- A variable that was set, and the reply. -/
structure Event (V : Type u) where
  var : Var V
  reply : Reply V

/-- The agent after some requests, which are kept latest first. -/
structure Session (V : Type u) where
  agent : Agent V
  history : List (Event V) := []

/-- A SET request with one variable. -/
def Session.set (s : Session V) (r : Var V) : Session V :=
  let (agent, replies) := setRequest s.agent [r]
  { agent := agent, history := replies.map (⟨r, ·⟩) ++ s.history }

/-- The SET requests from the initial state on. -/
def Session.ofSets (sets : List (Var V)) : Session V :=
  sets.foldl Session.set { agent := initial }

/-- The event turns the channel off, with its own switch or with the main switch. -/
def Event.turnsOff (e : Event V) (ch : Channel) : Bool :=
  decide (e.var.oid = mainSwitch ∨ e.var.oid = switches ++ [ch.number]) && !truth e.var.value

/-- The event sets the voltage of the channel, and was accepted. -/
def Event.accepted (e : Event V) (ch : Channel) : Bool :=
  decide (e.var.oid = setVoltages ++ [ch.number]) && !e.reply.isError

/-- The value of the last accepted voltage of a channel since it was last turned off, and
0 if there is none. -/
def lastAccepted (ch : Channel) : List (Event V) → V
  | [] => Scalar.zero
  | e :: older =>
      if e.turnsOff ch then Scalar.zero
      else if e.accepted ch then e.var.value
      else lastAccepted ch older

/-! ## One request -/

/-- The handler does nothing in the phases around the action. -/
theorem mySnmpHandler_idle {mode : Mode} (idle : ∀ (s : Agent V) r, (handleVar mode s r).1 = s)
    (s : Agent V) (requests : List (Var V)) : (mySnmpHandler mode s requests).1 = s := by
  induction requests with
  | nil => rfl
  | cons r requests ih =>
      show (mySnmpHandler mode (handleVar mode s r).1 requests).1 = s
      rw [idle, ih]

theorem setRequest_eq (s : Agent V) (requests : List (Var V)) :
    setRequest s requests = mySnmpHandler .setAction s requests := by
  have idle : ∀ s : Agent V, (mySnmpHandler .setReserve1 s requests).1 = s ∧
      (mySnmpHandler .setReserve2 s requests).1 = s ∧
      (mySnmpHandler .setUndo s requests).1 = s ∧ (mySnmpHandler .setCommit s requests).1 = s :=
    fun s => ⟨mySnmpHandler_idle (fun _ _ => rfl) s requests,
      mySnmpHandler_idle (fun _ _ => rfl) s requests,
      mySnmpHandler_idle (fun _ _ => rfl) s requests,
      mySnmpHandler_idle (fun _ _ => rfl) s requests⟩
  unfold setRequest
  dsimp only
  rw [(idle s).1, (idle s).2.1]
  refine Prod.ext ?_ rfl
  dsimp only
  split
  · exact (idle _).2.2.1
  · exact (idle _).2.2.2

theorem Session.set_agent (s : Session V) (r : Var V) :
    (s.set r).agent = (setAction s.agent r).1 := by
  unfold Session.set
  rw [setRequest_eq]
  rfl

theorem Session.set_history (s : Session V) (r : Var V) :
    (s.set r).history = ⟨r, (setAction s.agent r).2⟩ :: s.history := by
  unfold Session.set
  rw [setRequest_eq]
  rfl

/-- What holds of a new session and is kept by every request holds after all of them. -/
theorem Session.ofSets_induction {P : Session V → Prop} (start : P { agent := initial })
    (keep : ∀ s r, P s → P (s.set r)) (sets : List (Var V)) : P (ofSets sets) := by
  unfold ofSets
  generalize ({ agent := initial } : Session V) = s at start
  induction sets generalizing s with
  | nil => exact start
  | cons r sets ih => exact ih (s.set r) (keep s r start)

/-! ## The invariant -/

/-- The set voltage of a channel is the last accepted one, and it is 0 while the channel is
off. -/
def Session.Tracks (s : Session V) (ch : Channel) : Prop :=
  s.agent.voltage ch = lastAccepted ch s.history ∧
    (truth (s.agent.power ch) = false → s.agent.voltage ch = Scalar.zero)

section LastAccepted

variable {e : Event V} {older : List (Event V)} {ch : Channel}

theorem lastAccepted_off (off : e.turnsOff ch = true) :
    lastAccepted ch (e :: older) = Scalar.zero := by
  rw [lastAccepted, if_pos off]

theorem lastAccepted_accepted (on : e.turnsOff ch = false) (accepted : e.accepted ch = true) :
    lastAccepted ch (e :: older) = e.var.value := by
  rw [lastAccepted, on, if_neg Bool.false_ne_true, if_pos accepted]

theorem lastAccepted_other (on : e.turnsOff ch = false) (other : e.accepted ch = false) :
    lastAccepted ch (e :: older) = lastAccepted ch older := by
  rw [lastAccepted, on, other, if_neg Bool.false_ne_true, if_neg Bool.false_ne_true]

/-- What does not turn the channel off: another identifier, or a value that is true. -/
theorem not_turnsOff (on : truth e.var.value = true ∨
    e.var.oid ≠ mainSwitch ∧ e.var.oid ≠ switches ++ [ch.number]) : e.turnsOff ch = false := by
  unfold Event.turnsOff
  rcases on with on | ⟨main, switch⟩
  · rw [on, Bool.not_true, Bool.and_false]
  · rw [decide_eq_false (not_or.mpr ⟨main, switch⟩), Bool.false_and]

omit [Scalar V] in
theorem not_accepted (other : e.var.oid ≠ setVoltages ++ [ch.number] ∨ e.reply.isError = true) :
    e.accepted ch = false := by
  unfold Event.accepted
  rcases other with other | error
  · rw [decide_eq_false other, Bool.false_and]
  · rw [error, Bool.not_true, Bool.and_false]

end LastAccepted

section Tracks

variable {s : Session V} {ch : Channel} {r : Var V}

/-- What a request has to establish. -/
theorem Session.tracks_set : (s.set r).Tracks ch ↔
    (setAction s.agent r).1.voltage ch =
        lastAccepted ch (⟨r, (setAction s.agent r).2⟩ :: s.history) ∧
      (truth ((setAction s.agent r).1.power ch) = false →
        (setAction s.agent r).1.voltage ch = Scalar.zero) := by
  rw [Session.Tracks, Session.set_agent, Session.set_history]

/-- A request that turns the channel off and its voltage to 0. -/
theorem Session.tracks_of_off (off : truth r.value = false)
    (switch : r.oid = mainSwitch ∨ r.oid = switches ++ [ch.number])
    (zero : (setAction s.agent r).1.voltage ch = Scalar.zero) : (s.set r).Tracks ch := by
  have turnsOff : Event.turnsOff ⟨r, (setAction s.agent r).2⟩ ch = true := by
    simp [Event.turnsOff, switch, off]
  rw [Session.tracks_set, zero, lastAccepted_off turnsOff]
  exact ⟨rfl, fun _ => rfl⟩

/-- A request that leaves the channel alone. -/
theorem Session.Tracks.of_same (h : s.Tracks ch)
    (power : (setAction s.agent r).1.power ch = s.agent.power ch)
    (voltage : (setAction s.agent r).1.voltage ch = s.agent.voltage ch)
    (on : truth r.value = true ∨ r.oid ≠ mainSwitch ∧ r.oid ≠ switches ++ [ch.number])
    (other : r.oid ≠ setVoltages ++ [ch.number] ∨ (setAction s.agent r).2.isError = true) :
    (s.set r).Tracks ch := by
  rw [Session.tracks_set, power, voltage,
    lastAccepted_other (not_turnsOff on) (not_accepted other)]
  exact h

theorem Session.Tracks.setMain (h : s.Tracks ch) (main : r.oid = mainSwitch)
    (done : setAction s.agent r = (Snmp.setMain s.agent r.value, .unset)) :
    (s.set r).Tracks ch := by
  cases on : truth r.value with
  | true =>
      have kept : (setAction s.agent r).1 = { s.agent with mPower := r.value } := by
        rw [done, Snmp.setMain, if_pos on]
      have other : r.oid ≠ setVoltages ++ [ch.number] := by
        rw [main]
        exact mainSwitch_ne (by decide) ch
      refine h.of_same ?_ ?_ (Or.inl on) (Or.inl other)
      · rw [kept]
      · rw [kept]
  | false =>
      have zero : (setAction s.agent r).1.voltage ch = Scalar.zero := by
        rw [done, Snmp.setMain, if_neg (by simp [on])]
      exact Session.tracks_of_off on (Or.inl main) zero

theorem Session.Tracks.setSwitch (h : s.Tracks ch) {a : Channel}
    (switch : r.oid = switches ++ [a.number])
    (done : setAction s.agent r = (Snmp.setSwitch r.value a s.agent, .unset)) :
    (s.set r).Tracks ch := by
  have notMain : r.oid ≠ mainSwitch := by
    rw [switch]
    exact (mainSwitch_ne (by decide) a).symm
  have notVoltage : r.oid ≠ setVoltages ++ [ch.number] := by
    rw [switch]
    exact append_ne_append (by decide) (by decide) a ch
  by_cases here : a = ch
  · subst here
    cases on : truth r.value with
    | true =>
        have kept : (setAction s.agent r).1 =
            { s.agent with power := Function.update s.agent.power a r.value } := by
          rw [done, Snmp.setSwitch, if_pos on]
        rw [Session.tracks_set, kept,
          lastAccepted_other (not_turnsOff (Or.inl on)) (not_accepted (Or.inl notVoltage))]
        dsimp only
        rw [Function.update_self, on]
        exact ⟨h.1, fun off => Bool.noConfusion off⟩
    | false =>
        have zero : (setAction s.agent r).1.voltage a = Scalar.zero := by
          rw [done, Snmp.setSwitch, if_neg (by simp [on])]
          exact Function.update_self _ _ _
        exact Session.tracks_of_off on (Or.inr switch) zero
  · have notHere : r.oid ≠ switches ++ [ch.number] := by
      rw [switch]
      exact mt append_number_inj.mp here
    refine h.of_same ?_ ?_ (Or.inr ⟨notMain, notHere⟩) (Or.inl notVoltage)
    · rw [done]
      exact setSwitch_power_other (Ne.symm here)
    · rw [done]
      exact setSwitch_voltage_other (Ne.symm here)

theorem Session.Tracks.setVoltage (h : s.Tracks ch) {a : Channel}
    (voltage : r.oid = setVoltages ++ [a.number])
    (done : setAction s.agent r = Snmp.setVoltage r.value a (s.agent, .unset)) :
    (s.set r).Tracks ch := by
  have neither : r.oid ≠ mainSwitch ∧ r.oid ≠ switches ++ [ch.number] := by
    rw [voltage]
    exact ⟨(mainSwitch_ne (by decide) a).symm, append_ne_append (by decide) (by decide) a ch⟩
  cases on : truth (s.agent.power a) with
  | true =>
      have stored : setAction s.agent r =
          ({ s.agent with voltage := Function.update s.agent.voltage a r.value }, .unset) := by
        rw [done, Snmp.setVoltage, if_pos on]
      by_cases here : a = ch
      · subst here
        have accepted : Event.accepted ⟨r, (setAction s.agent r).2⟩ a = true := by
          rw [stored]
          simp [Event.accepted, voltage, Reply.isError]
        rw [Session.tracks_set, lastAccepted_accepted (not_turnsOff (Or.inr neither)) accepted,
          stored]
        dsimp only
        rw [Function.update_self, on]
        exact ⟨rfl, fun off => Bool.noConfusion off⟩
      · have notHere : r.oid ≠ setVoltages ++ [ch.number] := by
          rw [voltage]
          exact mt append_number_inj.mp here
        refine h.of_same ?_ ?_ (Or.inr neither) (Or.inl notHere)
        · rw [stored]
        · rw [stored]
          exact Function.update_of_ne (Ne.symm here) _ _
  | false =>
      have refused : setAction s.agent r = (s.agent, .error) := by
        rw [done, Snmp.setVoltage, if_neg (by simp [on])]
      refine h.of_same ?_ ?_ (Or.inr neither) (Or.inr ?_)
      · rw [refused]
      · rw [refused]
      · rw [refused]
        rfl

theorem Session.Tracks.set (h : s.Tracks ch) (r : Var V) : (s.set r).Tracks ch := by
  rcases setAction_cases s.agent r with ⟨main, done⟩ | ⟨a, switch, done⟩ | ⟨a, voltage, done⟩ |
    ⟨main, switch, voltage, done⟩
  · exact h.setMain main done
  · exact h.setSwitch switch done
  · exact h.setVoltage voltage done
  · refine h.of_same ?_ ?_ (Or.inr ⟨main, switch ch⟩) (Or.inl (voltage ch))
    · rw [done]
    · rw [done]

theorem Session.ofSets_tracks (sets : List (Var V)) (ch : Channel) :
    (Session.ofSets sets).Tracks ch :=
  Session.ofSets_induction (P := fun s => s.Tracks ch) ⟨rfl, fun _ => rfl⟩
    (fun _ r h => h.set r) sets

end Tracks

/-! ## The result -/

def channel102 : Channel := ⟨⟨1, by decide⟩, ⟨1, by decide⟩⟩

/-- The crate and channel 102 are turned on, and its voltage is set twice. -/
def setTwice : List (Var ℤ) :=
  [⟨mainSwitch, 1⟩, ⟨switches ++ [channel102.number], 1⟩, ⟨setVoltages ++ [channel102.number], 900⟩,
    ⟨setVoltages ++ [channel102.number], 950⟩]

/-- **The state of a channel.**  After any single-variable SET requests: a channel that is
off has the voltage 0; a GET of the set voltage answers with the last accepted one while
the channel is on, and with an error while it is off; setting the voltage of a channel that
is off is an error and changes nothing; and setting a switch or a voltage changes no other
channel. -/
theorem channel_state (sets : List (Var V)) (ch : Channel) :
    (truth ((Session.ofSets sets).agent.power ch) = false →
      (Session.ofSets sets).agent.voltage ch = Scalar.zero) ∧
    (∀ value, mySnmpHandler .get (Session.ofSets sets).agent
        [⟨setVoltages ++ [ch.number], value⟩] =
      ((Session.ofSets sets).agent,
        [if truth ((Session.ofSets sets).agent.power ch) then
          .value (lastAccepted ch (Session.ofSets sets).history) else .error])) ∧
    (∀ value, truth ((Session.ofSets sets).agent.power ch) = false →
      setRequest (Session.ofSets sets).agent [⟨setVoltages ++ [ch.number], value⟩] =
        ((Session.ofSets sets).agent, [.error])) ∧
    ∀ (value : V) (base : Oid) (a : Channel), base = switches ∨ base = setVoltages → a ≠ ch →
      (setRequest (Session.ofSets sets).agent [⟨base ++ [a.number], value⟩]).1.power ch =
          (Session.ofSets sets).agent.power ch ∧
        (setRequest (Session.ofSets sets).agent [⟨base ++ [a.number], value⟩]).1.voltage ch =
          (Session.ofSets sets).agent.voltage ch := by
  obtain ⟨voltage, zero⟩ := Session.ofSets_tracks sets ch
  generalize Session.ofSets sets = s at voltage zero ⊢
  refine ⟨zero, fun value => ?_, fun value off => ?_, fun value base a kind other => ?_⟩
  · show (s.agent, [get s.agent (setVoltages ++ [ch.number])]) = _
    rw [get_setVoltage, tellVoltage, voltage]
  · rw [setRequest_eq]
    show ((setAction s.agent _).1, [(setAction s.agent _).2]) = _
    rw [setAction_voltage, setVoltage, if_neg (by simp [off])]
  · rw [setRequest_eq]
    show (setAction s.agent _).1.power ch = _ ∧ (setAction s.agent _).1.voltage ch = _
    rcases kind with rfl | rfl
    · rw [setAction_switch]
      exact ⟨setSwitch_power_other (Ne.symm other), setSwitch_voltage_other (Ne.symm other)⟩
    · rw [setAction_voltage]
      exact setVoltage_other (Ne.symm other)

theorem channel_state_setTwice :
    mySnmpHandler .get (Session.ofSets setTwice).agent [⟨setVoltages ++ [channel102.number], 0⟩] =
      ((Session.ofSets setTwice).agent, [.value 950]) := by
  have told := (channel_state setTwice channel102).2.1 0
  have on : truth ((Session.ofSets setTwice).agent.power channel102) = true := by decide +kernel
  have last : lastAccepted channel102 (Session.ofSets setTwice).history = 950 := by decide +kernel
  rw [if_pos on, last] at told
  exact told

end Cjunk.Snmp
