import Cjunk.Plx.Lifecycle

/-!
# Shutdown

After the last release the chip should not interrupt any more: its master interrupt
enable stays clear until the next open.  `plx_drv_release` clears it and frees the
handler, but it does not wait for a queued DPC, and a DPC always ends by enabling the
interrupts; nor does it clear the enable when the interrupt was never claimed, which is
how a failed open leaves it.

`quiet_of_flushed` is the result for the releases that have neither problem, and
`release_quiet_iff` says that there is no other way to stay quiet.
-/

namespace Cjunk.Plx

open Words Run

/-- After the last release the master interrupt enable is clear. -/
def QuietWhenReleased (s : Lifecycle) : Prop :=
  s.released = true → s.board.intCtrl 8 = false

instance (s : Lifecycle) : Decidable (QuietWhenReleased s) := by
  unfold QuietWhenReleased
  infer_instance

/-- A release that drops the last reference can shut the device up: no DPC is queued,
and either the interrupt is claimed or the enable is clear already. -/
def Flushed (s : Board) : Prop :=
  s.kern.workPending = false ∧ (s.dev.flagInterrupt = true ∨ s.intCtrl 8 = false)

instance (s : Board) : Decidable (Flushed s) := by
  unfold Flushed
  infer_instance

def ReleasesFlushed (s : Lifecycle) : Call → Prop
  | .drvRelease => s.board.dev.openCount = 1 → Flushed s.board
  | .onInterrupt _ _ _ | .dpcForIsr | .drvOpen _ => True

instance (s : Lifecycle) : (c : Call) → Decidable (ReleasesFlushed s c)
  | .drvRelease => inferInstanceAs (Decidable (_ → _))
  | .onInterrupt _ _ _ | .dpcForIsr | .drvOpen _ => .isTrue trivial

/-- The invariant: after the last release nothing is left that could enable the
interrupts. -/
def Quiet (s : Lifecycle) : Prop :=
  s.released = true → s.board.intCtrl 8 = false ∧ s.board.kern.workPending = false

/-- A release that is not the last one leaves the interrupts and the queue alone. -/
theorem plxDrvRelease_others {s : Board} (others : s.dev.openCount ≠ 1) :
    (plxDrvRelease s).kern = s.kern ∧ (plxDrvRelease s).intCtrl 8 = s.intCtrl 8 := by
  unfold plxDrvRelease
  split
  · exact ⟨rfl, rfl⟩
  dsimp only
  split
  · exact ⟨rfl, rfl⟩
  · rename_i opened last
    have zero : s.dev.openCount - 1 = 0 := BitVec.le_zero_iff.mp (BitVec.not_lt.mp last)
    exact absurd (by bv_omega) others

theorem plxUninstallInterruptHandler_intCtrl (s : Board) :
    (plxUninstallInterruptHandler s).kern.workPending = s.kern.workPending ∧
      (plxUninstallInterruptHandler s).intCtrl 8 =
        if s.dev.flagInterrupt = true then false else s.intCtrl 8 := by
  unfold plxUninstallInterruptHandler
  split
  · exact ⟨rfl, intCtrl_plxChipInterruptsDisable s⟩
  · exact ⟨rfl, rfl⟩

/-- The last release disables the interrupts if they are claimed, and leaves the work
queue as it is. -/
theorem plxDrvRelease_last {s : Board} (last : s.dev.openCount = 1) :
    (plxDrvRelease s).kern.workPending = s.kern.workPending ∧
      (plxDrvRelease s).intCtrl 8 =
        if s.dev.flagInterrupt = true then false else s.intCtrl 8 := by
  have opened : s.dev.openCount ≠ 0 := by
    rw [last]
    decide
  have closing : plxDrvRelease s = (plxDmaCloseChannel (plxUninstallInterruptHandler
      (s.setDev fun d => { d with openCount := d.openCount - 1 })) 0 false).2 := by
    unfold plxDrvRelease
    rw [if_neg opened]
    apply if_neg
    rw [Board.setDev_dev]
    dsimp only
    rw [last]
    decide
  rw [closing, plxDmaCloseChannel_workPending, plxDmaCloseChannel_intCtrl]
  exact plxUninstallInterruptHandler_intCtrl _

theorem Quiet.step {s t : Lifecycle} {c : Call} (h : Quiet s) (ok : ReleasesFlushed s c)
    (taken : s.step c = some t) : Quiet t := by
  cases c with
  | onInterrupt lowPower status card =>
      dsimp only [Lifecycle.step] at taken
      split at taken
      · cases taken
        intro released
        obtain ⟨disabled, idle⟩ := h released
        have disabled :=
          (raiseInterrupt_intCtrl s.board lowPower status card (by decide)).trans disabled
        refine ⟨plxOnInterrupt_intCtrl disabled, ?_⟩
        exact (congrArg Kernel.workPending (plxOnInterrupt_kern disabled)).trans idle
      · cases taken
  | dpcForIsr =>
      dsimp only [Lifecycle.step] at taken
      split at taken
      · rename_i queued
        cases taken
        intro released
        exact absurd queued (by simp [(h released).2])
      · cases taken
  | drvOpen env =>
      cases taken
      exact fun released => Bool.noConfusion released
  | drvRelease =>
      cases taken
      intro released
      by_cases last : s.board.dev.openCount = 1
      · obtain ⟨idle, claimed⟩ := ok last
        obtain ⟨queue, register⟩ := plxDrvRelease_last last
        refine ⟨register.trans ?_, queue.trans idle⟩
        rcases claimed with flag | clear
        · rw [flag, if_pos rfl]
        · rw [clear, ite_self]
      · obtain ⟨kern, register⟩ := plxDrvRelease_others last
        have before : (s.released || decide (s.board.dev.openCount = 1)) = true := released
        rw [decide_eq_false last, Bool.or_false] at before
        obtain ⟨disabled, idle⟩ := h before
        exact ⟨register.trans disabled, (congrArg Kernel.workPending kern).trans idle⟩

theorem Quiet.of_not_released {s : Lifecycle} (start : s.released = false) : Quiet s := by
  intro released
  rw [start] at released
  exact Bool.noConfusion released

/-- **Shutdown.**  If no DPC is queued at a last release and the interrupt is claimed
there or disabled already, then after each last release the interrupts stay disabled
until the next open, whatever else is called. -/
theorem quiet_of_flushed {s : Lifecycle} (start : s.released = false) {schedule : List Call}
    (ok : Meets Lifecycle.step ReleasesFlushed s schedule) :
    Throughout Lifecycle.step QuietWhenReleased s schedule :=
  ok.throughout (fun _ _ _ h allowed taken => h.step allowed taken)
    (fun _ h released => (h released).1) (Quiet.of_not_released start)

/-- Open, one frame, its DPC, and close. -/
theorem quiet_of_flushed_session :
    Throughout Lifecycle.step QuietWhenReleased { board := probed }
      [.drvOpen (answers 0), .onInterrupt false 0x8000 0x40000000, .dpcForIsr, .drvRelease,
        .onInterrupt false 0x8000 0x40000000] :=
  quiet_of_flushed rfl (by decide +kernel)

/-- The interrupt queues the DPC, the release frees the handler, and then the DPC runs:
the interrupts are enabled again with nobody to handle them. -/
theorem dpc_enables_after_release :
    ¬ Throughout Lifecycle.step QuietWhenReleased { board := probed }
        [.drvOpen (answers 0), .onInterrupt false 0x8000 0x40000000, .drvRelease, .dpcForIsr] ∧
      (exec Lifecycle.step { board := probed } [.drvOpen (answers 0),
        .onInterrupt false 0x8000 0x40000000, .drvRelease, .dpcForIsr]).any fun s =>
          s.released = true ∧ s.board.intCtrl 8 = true ∧ s.board.kern.handler = false :=
  ⟨by decide +kernel, by decide +kernel⟩

/-- What is closed stays closed until the next open. -/
theorem openCount_zero_step {s t : Lifecycle} {c : Call} (zero : s.board.dev.openCount = 0)
    (noOpen : ∀ env, c ≠ Call.drvOpen env) (taken : s.step c = some t) :
    t.board.dev.openCount = 0 := by
  cases c with
  | drvRelease =>
      cases taken
      show (plxDrvRelease s.board).dev.openCount = 0
      rw [plxDrvRelease_openCount, if_pos zero]
  | onInterrupt lowPower status card =>
      dsimp only [Lifecycle.step] at taken
      split at taken
      · cases taken
        exact (congrArg Setup.openCount (plxOnInterrupt_setup _)).trans zero
      · cases taken
  | dpcForIsr =>
      dsimp only [Lifecycle.step] at taken
      split at taken
      · cases taken
        exact (congrArg Setup.openCount (plxDpcForIsr_setup _)).trans zero
      · cases taken
  | drvOpen env => exact absurd rfl (noOpen env)

/-- Once closed and quiet, the device is quiet until the next open: the count stays zero, so
no later release is a last one. -/
theorem Quiet.throughout_closed {s : Lifecycle} (h : Quiet s)
    (zero : s.board.dev.openCount = 0) {rest : List Call}
    (noOpen : ∀ c ∈ rest, ∀ env, c ≠ Call.drvOpen env) :
    Throughout Lifecycle.step QuietWhenReleased s rest := by
  have noOpens : Meets Lifecycle.step (fun _ c => ∀ env, c ≠ Call.drvOpen env) s rest :=
    .of_forall_mem fun c called _ => noOpen c called
  refine noOpens.throughout (I := fun u => Quiet u ∧ u.board.dev.openCount = 0) ?_
    (fun _ h released => (h.1 released).1) ⟨h, zero⟩
  rintro u c v ⟨quiet, zero⟩ noOpen taken
  have vacuous : ReleasesFlushed u c := by
    cases c with
    | drvRelease =>
        intro one
        rw [zero] at one
        exact absurd one (by decide)
    | onInterrupt lowPower status card => trivial
    | dpcForIsr => trivial
    | drvOpen env => trivial
  exact ⟨quiet.step vacuous taken, openCount_zero_step zero noOpen taken⟩

/-- The condition is needed: a last release keeps the device quiet, whatever is called
after it short of an open, exactly if it was flushed. -/
theorem release_quiet_iff {s : Lifecycle} (start : s.released = false)
    (last : s.board.dev.openCount = 1) :
    (∀ rest, (∀ c ∈ rest, ∀ env, c ≠ Call.drvOpen env) →
      Throughout Lifecycle.step QuietWhenReleased s (.drvRelease :: rest)) ↔
    Flushed s.board := by
  obtain ⟨queue, register⟩ := plxDrvRelease_last last
  have released : (s.released || decide (s.board.dev.openCount = 1)) = true := by
    rw [decide_eq_true last, Bool.or_true]
  constructor
  · intro quiet
    -- the DPC tells whether one was queued
    have after := (quiet [.dpcForIsr] (by simp)).2 _ rfl
    have disabled : (plxDrvRelease s.board).intCtrl 8 = false := after.head released
    refine ⟨?_, ?_⟩
    · by_contra pending
      have queued : (plxDrvRelease s.board).kern.workPending = true :=
        queue.trans (Bool.not_eq_false _ ▸ pending)
      have enabled := (after.2 _ (if_pos queued)).head released
      rw [plxDpcForIsr_intCtrl] at enabled
      exact Bool.noConfusion enabled
    · rw [register] at disabled
      by_cases claimed : s.board.dev.flagInterrupt = true
      · exact Or.inl claimed
      · rw [if_neg claimed] at disabled
        exact Or.inr disabled
  · intro flushed rest noOpen
    refine ⟨fun h => (Quiet.of_not_released start h).1, ?_⟩
    rintro t ⟨⟩
    have quiet := (Quiet.of_not_released start).step (c := .drvRelease) (fun _ => flushed) rfl
    refine quiet.throughout_closed ?_ noOpen
    show (plxDrvRelease s.board).dev.openCount = 0
    rw [plxDrvRelease_openCount, last]
    decide

end Cjunk.Plx
