import Cjunk.Lib.Run
import Mathlib.Data.Int.Notation

/-!
# The system state

`change_system_state` of `system_state.c` moves the system from state to state, and
`change_background_mode` begins and ends the collection of offset frames.  Both always return 0: a
condition for which the state has no case is logged as an error, and the state stays as it is.
`set_standby_system_state` forces a state without a word.

`operational_iff` tells from the calls alone when the system is operational: it was configured from
standby or anew, the hardware has become ready, and nothing has ended either since.  `stopped_iff`
tells when it has failed and when it is reduced.  What stopped the system first decides which of the
two it is, and only a forced standby ends either.
-/

namespace Cjunk.Fsm

open Run

/-! ## The functions -/

/-- `SYSTEM_STATE` -/
inductive SystemState where
  | init
  | standby
  | warmup
  | chill
  | operational
  | failed
  | reduced
  deriving DecidableEq

/-- `CONDITION` -/
inductive Condition where
  | csSoftwareInitialized
  | setConfiguration
  | setStandby
  | csSoftwareTimeout
  | hardwareReady
  | csSoftwareFailure
  | csHardwareFailure
  deriving DecidableEq

/-- `BACKGROUND_STATE` -/
inductive BackgroundState where
  | offsetCollecting
  | noCollecting
  deriving DecidableEq

/-- `COND` -/
inductive Cond where
  | commenceOffsetCollection
  | terminateOffsetCollection
  deriving DecidableEq

/-- `result_system_state` -/
def resultSystemState : SystemState → String
  | .init => "INIT"
  | .standby => "STANDBY"
  | .warmup => "WARMUP"
  | .operational => "OPERATIONAL"
  | .chill => "CHILL"
  | .failed => "FAILED"
  | .reduced => "REDUCED"

/-- `conditions` -/
def conditions : Condition → String
  | .csSoftwareInitialized => "CS_SOFTWARE_INITIALIZED"
  | .setConfiguration => "SET_CONFIGURATION"
  | .setStandby => "SET_STANDBY"
  | .csSoftwareTimeout => "CS_SOFTWARE_TIMEOUT"
  | .hardwareReady => "HARDWARE_READY"
  | .csSoftwareFailure => "CS_SOFTWARE_FAILURE"
  | .csHardwareFailure => "CS_HARDWARE_FAILURE"

/-- A line of the log, by its priority. -/
inductive Line where
  | notice (text : String)
  | error (text : String)
  deriving DecidableEq

/-- The static variables, the log, and what `print_state` was called with. -/
structure Memory where
  systemState : SystemState := .init
  backgroundState : BackgroundState := .noCollecting
  log : List Line := []
  printed : List SystemState := []
  deriving DecidableEq

/-- `LOG2FILE` -/
def Memory.log2File (m : Memory) (line : Line) : Memory := { m with log := m.log ++ [line] }

/-- The switches of `change_system_state`; there is nothing for a `default`. -/
def switchSystemState (c : Condition) : SystemState → Option SystemState
  | .init =>
      match c with
      | .csSoftwareInitialized => some .standby
      | .csSoftwareFailure => some .reduced
      | .csHardwareFailure => some .failed
      | _ => none
  | .standby =>
      match c with
      | .setConfiguration => some .warmup
      | .csSoftwareFailure => some .reduced
      | .csHardwareFailure => some .failed
      | _ => none
  | .warmup =>
      match c with
      | .setStandby => some .chill
      | .hardwareReady => some .operational
      | .csSoftwareFailure => some .reduced
      -- Only here does a timeout count.
      | .csSoftwareTimeout | .csHardwareFailure => some .failed
      | _ => none
  | .operational =>
      match c with
      | .setConfiguration => some .warmup
      | .setStandby => some .chill
      | .csSoftwareFailure => some .reduced
      | .csHardwareFailure => some .failed
      | _ => none
  | .chill =>
      match c with
      | .hardwareReady => some .standby
      | .csSoftwareFailure => some .reduced
      | .csHardwareFailure => some .failed
      | _ => none
  | .failed => none
  | .reduced => none

/-- `change_system_state`, with what it returns. -/
def changeSystemState (c : Condition) (m : Memory) : ℤ × Memory :=
  let m := m.log2File (.notice ("current:system state:" ++ resultSystemState m.systemState ++
    ", condition:" ++ conditions c))
  let m :=
    match switchSystemState c m.systemState with
    | some s => { m with systemState := s }
    | none => m.log2File (.error "wrong current state or wrong condition!")
  let m := m.log2File (.notice ("new state:system state:" ++ resultSystemState m.systemState))
  (0, { m with printed := m.printed ++ [m.systemState] })

/-- `set_standby_system_state` -/
def setStandbySystemState (m : Memory) : Memory := { m with systemState := .standby }

/-- `change_background_mode`, with what it returns. -/
def changeBackgroundMode (c : Cond) (m : Memory) : ℤ × Memory :=
  match m.backgroundState, c with
  | .offsetCollecting, .terminateOffsetCollection =>
      (0, { m with backgroundState := .noCollecting })
  | .noCollecting, .commenceOffsetCollection =>
      (0, { m with backgroundState := .offsetCollecting })
  | _, _ => (0, m.log2File (.error "wrong current state or wrong condition!"))

inductive Call where
  | changeSystemState (c : Condition)
  | setStandbySystemState
  | changeBackgroundMode (c : Cond)
  deriving DecidableEq

def Memory.call (m : Memory) : Call → Memory
  | .changeSystemState c => (changeSystemState c m).2
  | .setStandbySystemState => setStandbySystemState m
  | .changeBackgroundMode c => (changeBackgroundMode c m).2

/-- The memory after some calls. -/
def after (calls : List Call) : Memory := calls.foldl Memory.call {}

/-! ## What a call does -/

/-- The state that a call leads to. -/
def Call.next (s : SystemState) : Call → SystemState
  | .changeSystemState c => (switchSystemState c s).getD s
  | .setStandbySystemState => .standby
  | .changeBackgroundMode _ => s

/-- The background state that a call leads to. -/
def Call.nextBackground (s : BackgroundState) : Call → BackgroundState
  | .changeBackgroundMode .commenceOffsetCollection => .offsetCollecting
  | .changeBackgroundMode .terminateOffsetCollection => .noCollecting
  | _ => s

/-- A call does not change the state `s`. -/
def Call.Ignored (s : SystemState) (c : Call) : Prop := c.next s = s

/-- The system has neither failed nor is it reduced. -/
def SystemState.Working (s : SystemState) : Prop := s ≠ .failed ∧ s ≠ .reduced

theorem changeBackgroundMode_systemState (c : Cond) (m : Memory) :
    (changeBackgroundMode c m).2.systemState = m.systemState := by
  unfold changeBackgroundMode
  split <;> rfl

theorem changeSystemState_systemState (c : Condition) (m : Memory) :
    (changeSystemState c m).2.systemState =
      (switchSystemState c m.systemState).getD m.systemState := by
  unfold changeSystemState
  dsimp only [Memory.log2File]
  cases switchSystemState c m.systemState with
  | none => rfl
  | some s => rfl

theorem changeSystemState_backgroundState (c : Condition) (m : Memory) :
    (changeSystemState c m).2.backgroundState = m.backgroundState := by
  unfold changeSystemState
  dsimp only [Memory.log2File]
  cases switchSystemState c m.systemState with
  | none => rfl
  | some s => rfl

theorem changeBackgroundMode_backgroundState (c : Cond) (m : Memory) :
    (changeBackgroundMode c m).2.backgroundState =
      Call.nextBackground m.backgroundState (.changeBackgroundMode c) := by
  unfold changeBackgroundMode
  cases stored : m.backgroundState <;> cases c <;>
    simp [Memory.log2File, Call.nextBackground, stored]

/-- The system state depends on nothing else. -/
theorem call_systemState (m : Memory) (c : Call) :
    (m.call c).systemState = c.next m.systemState := by
  cases c with
  | changeSystemState c => exact changeSystemState_systemState c m
  | setStandbySystemState => rfl
  | changeBackgroundMode c => exact changeBackgroundMode_systemState c m

theorem call_backgroundState (m : Memory) (c : Call) :
    (m.call c).backgroundState = c.nextBackground m.backgroundState := by
  cases c with
  | changeSystemState c => exact changeSystemState_backgroundState c m
  | setStandbySystemState => rfl
  | changeBackgroundMode c => exact changeBackgroundMode_backgroundState c m

theorem after_systemState (calls : List Call) :
    (after calls).systemState = calls.foldl Call.next .init :=
  (List.foldl_hom Memory.systemState fun m c => (call_systemState m c).symm).symm

theorem after_backgroundState (calls : List Call) :
    (after calls).backgroundState = calls.foldl Call.nextBackground .noCollecting :=
  (List.foldl_hom Memory.backgroundState fun m c => (call_backgroundState m c).symm).symm

/-- The system becomes operational when the hardware is ready after warming up. -/
theorem next_eq_operational_iff {s : SystemState} {c : Call} (other : s ≠ .operational) :
    c.next s = .operational ↔ s = .warmup ∧ c = .changeSystemState .hardwareReady := by
  cases c with
  | changeSystemState c => cases s <;> cases c <;> simp_all [Call.next, switchSystemState]
  | setStandbySystemState => simp [Call.next]
  | changeBackgroundMode c => simp [Call.next, other]

/-- It warms up when it is configured. -/
theorem next_eq_warmup_iff {s : SystemState} {c : Call} (other : s ≠ .warmup) :
    c.next s = .warmup ↔
      (s = .standby ∨ s = .operational) ∧ c = .changeSystemState .setConfiguration := by
  cases c with
  | changeSystemState c => cases s <;> cases c <;> simp_all [Call.next, switchSystemState]
  | setStandbySystemState => simp [Call.next]
  | changeBackgroundMode c => simp [Call.next, other]

/-- It fails when the hardware does, or when warming up takes too long. -/
theorem next_eq_failed_iff {s : SystemState} {c : Call} (other : s ≠ .failed) :
    c.next s = .failed ↔ s.Working ∧ (c = .changeSystemState .csHardwareFailure ∨
      c = .changeSystemState .csSoftwareTimeout ∧ s = .warmup) := by
  unfold SystemState.Working
  cases c with
  | changeSystemState c => cases s <;> cases c <;> simp_all [Call.next, switchSystemState]
  | setStandbySystemState => simp [Call.next]
  | changeBackgroundMode c => simp [Call.next, other]

/-- It is reduced when the software fails. -/
theorem next_eq_reduced_iff {s : SystemState} {c : Call} (other : s ≠ .reduced) :
    c.next s = .reduced ↔ s.Working ∧ c = .changeSystemState .csSoftwareFailure := by
  unfold SystemState.Working
  cases c with
  | changeSystemState c => cases s <;> cases c <;> simp_all [Call.next, switchSystemState]
  | setStandbySystemState => simp [Call.next]
  | changeBackgroundMode c => simp [Call.next, other]

/-- Whatever is called, a stopped system stays so, unless standby is forced. -/
theorem ignored_iff_of_not_working {s : SystemState} {c : Call} (stopped : ¬ s.Working) :
    c.Ignored s ↔ c ≠ .setStandbySystemState := by
  obtain rfl | rfl : s = .failed ∨ s = .reduced := by
    unfold SystemState.Working at stopped
    tauto
  all_goals
    cases c <;> simp [Call.Ignored, Call.next, switchSystemState]

/-! ## What the calls have come to -/

/-- The system is operational exactly if it was configured, in standby or when it was operational,
and the hardware has become ready while it was warming up, and no call has changed that since. -/
theorem operational_iff (calls : List Call) :
    (after calls).systemState = .operational ↔
      ∃ before waiting since,
        calls = before ++ .changeSystemState .setConfiguration ::
          (waiting ++ .changeSystemState .hardwareReady :: since) ∧
        ((after before).systemState = .standby ∨ (after before).systemState = .operational) ∧
        (∀ c ∈ waiting, c.Ignored .warmup) ∧ ∀ c ∈ since, c.Ignored .operational := by
  simp only [after_systemState]
  constructor
  · intro operational
    obtain ⟨⟨⟩, -⟩ | ⟨warming, c, since, rfl, other, led, kept⟩ := foldl_eq_iff.mp operational
    obtain ⟨warm, rfl⟩ := (next_eq_operational_iff other).mp led
    -- It has come from warming up, and there from being configured.
    obtain ⟨⟨⟩, -⟩ | ⟨before, c, waiting, rfl, other', led', kept'⟩ := foldl_eq_iff.mp warm
    obtain ⟨settled, rfl⟩ := (next_eq_warmup_iff other').mp led'
    exact ⟨before, waiting, since, by rw [List.append_assoc, List.cons_append], settled, kept',
      kept⟩
  · rintro ⟨before, waiting, since, rfl, settled, kept', kept⟩
    have configured : Call.next (before.foldl Call.next .init)
        (.changeSystemState .setConfiguration) = .warmup := by
      rcases settled with standby | operational
      · rw [standby]
        rfl
      · rw [operational]
        rfl
    have ready : Call.next .warmup (.changeSystemState .hardwareReady) = .operational := rfl
    rw [List.foldl_append, List.foldl_cons, configured, List.foldl_append, foldl_eq_self kept',
      List.foldl_cons, ready, foldl_eq_self kept]

/-- A stopped system is in the state that it was stopped in, unless standby was forced since. -/
theorem after_eq_iff_of_not_working {s : SystemState} (stopped : ¬ s.Working)
    (calls : List Call) :
    (after calls).systemState = s ↔
      ∃ before c since, calls = before ++ c :: since ∧ (after before).systemState ≠ s ∧
        c.next (after before).systemState = s ∧ .setStandbySystemState ∉ since := by
  have working : SystemState.Working .init := ⟨by decide, by decide⟩
  simp only [after_systemState]
  have never : ¬ (.init = s ∧ ∀ c ∈ calls, Call.next s c = s) :=
    fun here => stopped (here.1 ▸ working)
  rw [foldl_eq_iff, or_iff_right never]
  refine exists₃_congr fun before c since => ?_
  have kept : (∀ b ∈ since, Call.next s b = s) ↔ .setStandbySystemState ∉ since := by
    constructor
    · exact fun kept mem => (ignored_iff_of_not_working stopped).mp (kept _ mem) rfl
    · exact fun unforced b mem =>
        (ignored_iff_of_not_working stopped).mpr (ne_of_mem_of_not_mem mem unforced)
  rw [kept]

/-- The system has failed, or is reduced, exactly if something has stopped it while it was working,
and standby was not forced since.  A timeout stops it while it warms up only. -/
theorem stopped_iff (calls : List Call) :
    ((after calls).systemState = .failed ↔
      ∃ before c since, calls = before ++ .changeSystemState c :: since ∧
        (after before).systemState.Working ∧ (c = .csHardwareFailure ∨
          c = .csSoftwareTimeout ∧ (after before).systemState = .warmup) ∧
        .setStandbySystemState ∉ since) ∧
    ((after calls).systemState = .reduced ↔
      ∃ before since, calls = before ++ .changeSystemState .csSoftwareFailure :: since ∧
        (after before).systemState.Working ∧ .setStandbySystemState ∉ since) := by
  constructor
  · rw [after_eq_iff_of_not_working fun working => working.1 rfl]
    constructor
    · rintro ⟨before, c, since, rfl, other, led, unforced⟩
      obtain ⟨working, rfl | ⟨rfl, warm⟩⟩ := (next_eq_failed_iff other).mp led
      · exact ⟨before, _, since, rfl, working, .inl rfl, unforced⟩
      · exact ⟨before, _, since, rfl, working, .inr ⟨rfl, warm⟩, unforced⟩
    · rintro ⟨before, c, since, rfl, working, cause, unforced⟩
      refine ⟨before, _, since, rfl, working.1, (next_eq_failed_iff working.1).mpr ?_, unforced⟩
      exact ⟨working, cause.imp (congrArg _) fun late => ⟨congrArg _ late.1, late.2⟩⟩
  · rw [after_eq_iff_of_not_working fun working => working.2 rfl]
    constructor
    · rintro ⟨before, c, since, rfl, other, led, unforced⟩
      obtain ⟨working, rfl⟩ := (next_eq_reduced_iff other).mp led
      exact ⟨before, since, rfl, working, unforced⟩
    · rintro ⟨before, since, rfl, working, unforced⟩
      exact ⟨before, _, since, rfl, working.2, (next_eq_reduced_iff working.2).mpr ⟨working, rfl⟩,
        unforced⟩

/-- A system that does not come to standby goes unnoticed: there is no timeout for that. -/
example : (after [.changeSystemState .csSoftwareInitialized, .changeSystemState .setConfiguration,
    .changeSystemState .setStandby, .changeSystemState .csSoftwareTimeout]).systemState =
      .chill := by
  decide

/-- Offset frames are collected exactly if that was commenced, and not terminated since. -/
theorem collecting_iff (calls : List Call) :
    (after calls).backgroundState = .offsetCollecting ↔
      ∃ before since, calls = before ++ .changeBackgroundMode .commenceOffsetCollection :: since ∧
        .changeBackgroundMode .terminateOffsetCollection ∉ since := by
  have kept (c : Call) : c.nextBackground .offsetCollecting = .offsetCollecting ↔
      c ≠ .changeBackgroundMode .terminateOffsetCollection := by
    cases c with
    | changeBackgroundMode c => cases c <;> simp [Call.nextBackground]
    | changeSystemState c => simp [Call.nextBackground]
    | setStandbySystemState => simp [Call.nextBackground]
  rw [after_backgroundState]
  constructor
  · intro collecting
    obtain ⟨⟨⟩, -⟩ | ⟨before, c, since, rfl, other, led, stays⟩ := foldl_eq_iff.mp collecting
    obtain rfl : c = .changeBackgroundMode .commenceOffsetCollection := by
      cases c with
      | changeBackgroundMode c => cases c <;> simp_all [Call.nextBackground]
      | changeSystemState c => exact absurd led other
      | setStandbySystemState => exact absurd led other
    exact ⟨before, since, rfl, fun mem => (kept _).mp (stays _ mem) rfl⟩
  · rintro ⟨before, since, rfl, unended⟩
    have commenced (s : BackgroundState) :
        Call.nextBackground s (.changeBackgroundMode .commenceOffsetCollection) =
          .offsetCollecting := rfl
    rw [List.foldl_append, List.foldl_cons, commenced]
    exact foldl_eq_self fun c mem => (kept c).mpr (ne_of_mem_of_not_mem mem unended)

end Cjunk.Fsm
