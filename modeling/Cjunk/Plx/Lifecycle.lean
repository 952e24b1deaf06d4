import Cjunk.Lib.Run
import Cjunk.Plx.Fops

/-!
# The PLX 8311 driver: opening and closing the device

The calls that come and go around sessions: opens and releases from user space,
runs of the interrupt handler while one is registered, and the DPC whenever it is
queued.  Each is one step, in any order.

The hardware is free in what an interrupt finds: the chip may be in its low power
state, and every bit of the interrupt register that the driver does not own may
have changed.

`Board.setup` is what the driver has claimed: the open count, the channel, the
buffers and the interrupt.  Interrupts and DPCs leave it alone; what an open and a
release do to it is the content of the lemmas below.
-/

namespace Cjunk.Plx

open Words Run

/-- What the driver holds while the device is open, and the interrupt it asks for. -/
structure Setup where
  irq : ℕ
  openCount : U8
  flagInterrupt : Bool
  dmaChannels : ℕ → Bool
  frames : ℕ → ℕ
  coherent : List ℕ
  handler : Bool

def Board.setup (s : Board) : Setup :=
  { irq := s.dev.irq, openCount := s.dev.openCount, flagInterrupt := s.dev.flagInterrupt,
    dmaChannels := s.dev.dmaChannels, frames := s.dev.frames, coherent := s.kern.coherent,
    handler := s.kern.handler }

/-! ## The machine -/

/-- The bits of `PCI8311_INT_CTRL_STAT` that only the driver writes: the master, local
and DMA channel interrupt enables. -/
def ownedBits : U32 := bit 8 ||| bit 11 ||| bit 18 ||| bit 19

/-- The hardware raises an interrupt. -/
def raiseInterrupt (s : Board) (lowPower : Bool) (status card : U32) : Board :=
  { s with chip := { s.chip with
      lowPower := lowPower
      regs := Function.update s.chip.regs pci8311IntCtrlStat
        ((s.chip.regs pci8311IntCtrlStat &&& ownedBits) ||| (status &&& ~~~ownedBits))
      link := Function.update s.chip.link pciMcCardStatus card } }

inductive Call where
  | onInterrupt (lowPower : Bool) (status card : U32)
  | dpcForIsr
  | drvOpen (env : OpenEnv)
  | drvRelease

structure Lifecycle where
  board : Board
  /-- A release has dropped the last reference, and there was no open since. -/
  released : Bool := false

namespace Lifecycle

def step (s : Lifecycle) : Call → Option Lifecycle
  | .onInterrupt lowPower status card =>
      if s.board.kern.handler then
        some { s with board := (plxOnInterrupt (raiseInterrupt s.board lowPower status card)).2 }
      else none
  | .dpcForIsr =>
      if s.board.kern.workPending then some { s with board := plxDpcForIsr s.board } else none
  | .drvOpen env => some { board := (plxDrvOpen s.board env).2, released := false }
  | .drvRelease =>
      some
        { board := plxDrvRelease s.board
          released := s.released || decide (s.board.dev.openCount = 1) }

end Lifecycle

/-- A device that has been probed, on interrupt 17. -/
def probed : Board where
  dev := { irq := 17 }

/-- The kernel grants all buffers and answers `rc` to `request_irq`. -/
def answers (rc : ℤ) : OpenEnv where
  alloc buffer := some (0x1000 * (buffer + 1), BitVec.ofNat 32 (buffer * dmaSize))
  requestIrq := rc

/-! ## Interrupts -/

theorem raiseInterrupt_setup (s : Board) (lowPower : Bool) (status card : U32) :
    (raiseInterrupt s lowPower status card).setup = s.setup := rfl

/-- The hardware does not touch the interrupt enables. -/
theorem raiseInterrupt_intCtrl (s : Board) (lowPower : Bool) (status card : U32) {i : ℕ}
    (owned : ownedBits.getLsbD i = true) :
    (raiseInterrupt s lowPower status card).intCtrl i = s.intCtrl i := by
  unfold raiseInterrupt Board.intCtrl
  dsimp only
  rw [Function.update_self, BitVec.getLsbD_or, BitVec.getLsbD_and, BitVec.getLsbD_and,
    BitVec.getLsbD_not, owned, Bool.and_true, Bool.not_true, Bool.and_false, Bool.and_false,
    Bool.or_false]

theorem scheduleDpc_setup (s : Board) (regPciInt interruptSource : U32) :
    (scheduleDpc s regPciInt interruptSource).2.setup = s.setup := by
  rcases scheduleDpc_cases s regPciInt interruptSource with unclaimed | ⟨source, queued⟩
  · rw [unclaimed]
    rfl
  · rw [queued]
    rfl

theorem onLocalInterrupt_setup (s : Board) (regDetectorInt : U32) :
    (onLocalInterrupt s regDetectorInt).setup = s.setup := by
  obtain ⟨_, _, _, _, _, _, dev, kern, -⟩ := onLocalInterrupt_state s regDetectorInt
  unfold Board.setup
  rw [dev, kern]

theorem plxOnInterrupt_setup (s : Board) : (plxOnInterrupt s).2.setup = s.setup := by
  unfold plxOnInterrupt
  dsimp only
  split
  · rfl
  split
  · rfl
  split
  · have started := onLocalInterrupt_setup s (commandLinkRegRead s pciMcCardStatus)
    split
    · exact started
    · rw [scheduleDpc_setup]
      exact started
  · exact scheduleDpc_setup s _ _

/-- With the interrupts disabled, the service routine queues nothing. -/
theorem plxOnInterrupt_kern {s : Board} (h : s.intCtrl 8 = false) :
    (plxOnInterrupt s).2.kern = s.kern := by
  unfold plxOnInterrupt
  dsimp only
  split
  · rfl
  rename_i awake
  have disabled : (s.chip.regs pci8311IntCtrlStat).getLsbD 8 = false := h
  rw [intCtrlStat_read_of_ne awake, if_pos disabled]
  rfl

theorem publishFrame_setup (s : Board) : (publishFrame s).setup = s.setup := by
  unfold publishFrame
  dsimp only
  split <;> rfl

theorem plxDpcForIsr_setup (s : Board) : (plxDpcForIsr s).setup = s.setup := by
  have enable : ∀ t : Board, (plxChipInterruptsEnable t).setup = t.setup := fun _ => rfl
  have clear : ∀ (t : Board) (shift : ℕ), (publishFrame (clearDmaInterrupt t shift)).setup =
      t.setup := fun t shift => publishFrame_setup (clearDmaInterrupt t shift)
  unfold plxDpcForIsr
  dsimp only
  rw [enable]
  split
  · rw [alertRead, if_pos (Or.inr rfl), clear]
    split
    · rw [dpcDmaChannel0, clear]
      split <;> rfl
    · split <;> rfl
  · split
    · rw [dpcDmaChannel0, clear]
      split <;> rfl
    · split <;> rfl

/-! ## Opens and releases -/

/-- `plx_dma_open_channel` gets the channel exactly if it is closed and every buffer
can be allocated. -/
theorem plxDmaOpenChannel_status (s : Board) (channel : ℕ) (alloc : ℕ → Option (ℕ × U32)) :
    (plxDmaOpenChannel s channel alloc).1 = .apiSuccess ↔
      s.dev.dmaChannels channel = false ∧ ∀ k < noOfBuffers, (alloc k).isSome := by
  unfold plxDmaOpenChannel
  cases opened : s.dev.dmaChannels channel with
  | true =>
      rw [if_pos rfl]
      exact ⟨fun h => PlxStatus.noConfusion h, fun h => Bool.noConfusion h.1⟩
  | false =>
      rw [if_neg Bool.false_ne_true]
      refine (allocFrames_status alloc noOfBuffers 0 _).trans ?_
      rw [Nat.zero_add]
      exact ⟨fun all => ⟨rfl, fun k => all k (Nat.zero_le k)⟩, fun h k _ => h.2 k⟩

theorem claimChannel_setup (s : Board) (channel : ℕ) : (claimChannel s channel).setup =
    { s.setup with dmaChannels := Function.update s.dev.dmaChannels channel true } := by
  unfold claimChannel Board.setup
  dsimp only [Board.setDev_dev, Board.setDev_kern]
  rw [setupChannel_dev, setupChannel_kern]
  rfl

/-- Whatever it returns, it changes neither the open count nor the interrupt. -/
theorem plxDmaOpenChannel_setup (s : Board) (channel : ℕ) (alloc : ℕ → Option (ℕ × U32)) :
    ∃ channels frames coherent, (plxDmaOpenChannel s channel alloc).2.setup =
      { s.setup with dmaChannels := channels, frames := frames, coherent := coherent } := by
  unfold plxDmaOpenChannel
  split
  · exact ⟨s.dev.dmaChannels, s.dev.frames, s.kern.coherent, rfl⟩
  · obtain ⟨frames, bus, held, same⟩ :=
      allocFrames_state alloc noOfBuffers 0 (claimChannel s channel)
    have claimed := claimChannel_setup s channel
    refine ⟨Function.update s.dev.dmaChannels channel true, frames, held, ?_⟩
    rw [same]
    show { (claimChannel s channel).setup with frames := frames, coherent := held } = _
    rw [claimed]

/-- An open channel holds every buffer. -/
theorem plxDmaOpenChannel_held {s : Board} {channel : ℕ} {alloc : ℕ → Option (ℕ × U32)}
    (success : (plxDmaOpenChannel s channel alloc).1 = .apiSuccess) :
    (plxDmaOpenChannel s channel alloc).2.dev.dmaChannels channel = true ∧
      ∀ k < noOfBuffers, (plxDmaOpenChannel s channel alloc).2.dev.frames k ∈
        (plxDmaOpenChannel s channel alloc).2.kern.coherent := by
  have closed := ((plxDmaOpenChannel_status s channel alloc).mp success).1
  unfold plxDmaOpenChannel at success ⊢
  rw [closed, if_neg Bool.false_ne_true] at success ⊢
  constructor
  · obtain ⟨frames, bus, held, same⟩ :=
      allocFrames_state alloc noOfBuffers 0 (claimChannel s channel)
    have claimed := congrArg Setup.dmaChannels (claimChannel_setup s channel)
    rw [same]
    refine (congrFun claimed channel).trans ?_
    exact Function.update_self _ _ _
  · intro k lt
    exact allocFrames_held alloc noOfBuffers 0 (claimChannel s channel) success k
      (Nat.zero_le k) (by omega)

theorem plxInstallInterruptHandler_status (s : Board) (rc : ℤ) :
    (plxInstallInterruptHandler s rc).1 = .apiSuccess ↔ s.dev.irq ≠ 0 ∧ rc = 0 := by
  unfold plxInstallInterruptHandler
  dsimp only
  split
  · rename_i installed
    exact ⟨fun _ => installed, fun _ => rfl⟩
  · rename_i missing
    exact ⟨fun h => PlxStatus.noConfusion h, fun installed => absurd installed missing⟩

theorem plxInstallInterruptHandler_setup (s : Board) (rc : ℤ) :
    (plxInstallInterruptHandler s rc).2.setup =
      if s.dev.irq ≠ 0 ∧ rc = 0 then { s.setup with flagInterrupt := true, handler := true }
      else s.setup := by
  unfold plxInstallInterruptHandler
  dsimp only
  split
  · rename_i installed
    rw [if_pos (show s.dev.irq ≠ 0 ∧ rc = 0 from installed)]
    rfl
  · rename_i missing
    rw [if_neg (show ¬ (s.dev.irq ≠ 0 ∧ rc = 0) from missing)]
    rfl

/-- A close does nothing, or it aborts a running transfer, marks the channel closed and
gives the buffers back. -/
theorem plxDmaCloseChannel_cases (s : Board) (channel : ℕ) (check : Bool) :
    (plxDmaCloseChannel s channel check).2 = s ∨
      ∃ t, (t = s ∨ t = (plxChipDmaControl s channel .dmaAbort).2) ∧
        (plxDmaCloseChannel s channel check).2 = freeFrames (t.setDev fun d =>
          { d with dmaChannels := Function.update d.dmaChannels channel false }) := by
  unfold plxDmaCloseChannel
  split
  · exact Or.inl rfl
  dsimp only
  generalize (if channel = 1 then _ else _ : U32) = regValue
  split
  · exact Or.inl rfl
  · refine Or.inr ⟨_, ?_, rfl⟩
    split
    · exact Or.inr rfl
    · exact Or.inl rfl

/-- What an abort leaves as it is, and so do the marking and the freeing, a close leaves. -/
theorem plxDmaCloseChannel_view {α : Type} (view : Board → α) (s : Board) (channel : ℕ)
    (check : Bool) (abort : view (plxChipDmaControl s channel .dmaAbort).2 = view s)
    (freed : ∀ t : Board, view (freeFrames (t.setDev fun d =>
      { d with dmaChannels := Function.update d.dmaChannels channel false })) = view t) :
    view (plxDmaCloseChannel s channel check).2 = view s := by
  rcases plxDmaCloseChannel_cases s channel check with same | ⟨t, from_s, closed⟩
  · rw [same]
  · rw [closed, freed]
    rcases from_s with rfl | rfl
    · rfl
    · exact abort

theorem plxChipDmaControl_setup (s : Board) (channel : ℕ) (command : PlxDmaCommand) :
    (plxChipDmaControl s channel command).2.setup = s.setup := by
  unfold plxChipDmaControl
  split
  · cases command <;> dsimp only <;> split <;> rfl
  · rfl

/-- Giving the channel back changes neither the open count nor the interrupt. -/
theorem plxDmaCloseChannel_setup (s : Board) (channel : ℕ) (check : Bool) :
    ∃ channels coherent, (plxDmaCloseChannel s channel check).2.setup =
      { s.setup with dmaChannels := channels, coherent := coherent } := by
  rcases plxDmaCloseChannel_cases s channel check with same | ⟨t, from_s, closed⟩
  · rw [same]
    exact ⟨s.dev.dmaChannels, s.kern.coherent, rfl⟩
  · have setup : t.setup = s.setup := by
      rcases from_s with rfl | rfl
      · rfl
      · exact plxChipDmaControl_setup s channel .dmaAbort
    rw [closed, ← setup]
    exact ⟨_, _, rfl⟩

/-- Closing the channel leaves the interrupt register alone. -/
theorem plxDmaCloseChannel_intCtrl (s : Board) (channel : ℕ) (check : Bool) (i : ℕ) :
    (plxDmaCloseChannel s channel check).2.intCtrl i = s.intCtrl i := by
  have command : ∀ (t : Board) (value : U32),
      (plx9000RegWrite t pci8311DmaCommandStat value).intCtrl i = t.intCtrl i :=
    fun t value => plx9000RegWrite_intCtrl t (by decide) value i
  have abort : (plxChipDmaControl s channel .dmaAbort).2.intCtrl i = s.intCtrl i := by
    unfold plxChipDmaControl
    split
    · dsimp only
      split
      · exact command _ _
      · rw [command, command]
    · rfl
  exact plxDmaCloseChannel_view (fun s => s.intCtrl i) s channel check abort fun _ => rfl

/-- The work queue is not touched by a close. -/
theorem plxDmaCloseChannel_workPending (s : Board) (channel : ℕ) (check : Bool) :
    (plxDmaCloseChannel s channel check).2.kern.workPending = s.kern.workPending := by
  have abort : (plxChipDmaControl s channel .dmaAbort).2.kern = s.kern := by
    unfold plxChipDmaControl
    split
    · dsimp only
      split <;> rfl
    · rfl
  exact plxDmaCloseChannel_view (fun s => s.kern.workPending) s channel check
    (congrArg Kernel.workPending abort) fun _ => rfl

theorem plxUninstallInterruptHandler_openCount (s : Board) :
    (plxUninstallInterruptHandler s).dev.openCount = s.dev.openCount := by
  unfold plxUninstallInterruptHandler
  split <;> rfl

/-- A release counts down, and stops at zero. -/
theorem plxDrvRelease_openCount (s : Board) : (plxDrvRelease s).dev.openCount =
    if s.dev.openCount = 0 then 0 else s.dev.openCount - 1 := by
  unfold plxDrvRelease
  split
  · assumption
  dsimp only
  split
  · rfl
  · obtain ⟨channels, coherent, closed⟩ := plxDmaCloseChannel_setup
      (plxUninstallInterruptHandler (s.setDev fun d => { d with openCount := d.openCount - 1 }))
      0 false
    refine (congrArg Setup.openCount closed).trans ?_
    exact plxUninstallInterruptHandler_openCount _

end Cjunk.Plx
