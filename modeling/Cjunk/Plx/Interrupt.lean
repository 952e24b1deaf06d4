import Cjunk.Plx.Dma
import Cjunk.Plx.Ring

/-!
# The PLX 8311 driver: the interrupt service routine and its DPC

`plx_on_interrupt` and `plx_dpc_for_isr` of `plx_interrupt.c`.  The service
routine handles a local interrupt on the spot (it marks the frame, starts the
transfer into the buffer of `ip` and advances `ip`), and leaves the rest to the
DPC: it notes the interrupt sources, disables the chip's interrupts and queues
the DPC, which advances `wp` for a completed transfer and enables the interrupts
again.

What the rest of the development uses of the two functions is at the end: what
they do to the ring of frames (`plxOnInterrupt_ring`, `dpcDmaChannel0_ring`) and
to the master interrupt enable (`plxOnInterrupt_intCtrl`, `plxDpcForIsr_intCtrl`).
-/

namespace Cjunk.Plx

open Words

/-! ## The service routine -/

/-- What an interrupt handler tells the kernel: `IRQ_NONE` or `IRQ_HANDLED`. -/
inductive IrqReturn where
  | irqNone
  | irqHandled
  deriving DecidableEq

def intrTypeNone : U32 := 0
def intrTypeLocal : U32 := bit 0
def intrTypeDma0 : U32 := bit 5
def intrTypeDma1 : U32 := bit 6

/-- The counters of a local interrupt, the check of the hardware buffer number
against its shadow, and the clearing of the interrupt on PCI_MC. -/
def countLocalInterrupt (s : Board) (regDetectorInt : U32) : Board :=
  let s := if regDetectorInt.getLsbD 31 then
      s.setDev fun d => { d with cntrLostHwInts := d.cntrLostHwInts + 1 } else s
  let s := s.setDev fun d => { d with cntrIrqCount := d.cntrIrqCount + 1 }
  let hwBuf := (regDetectorInt &&& 3).setWidth 8
  let s := if hwBuf ≠ s.dev.hwBuffCheck % 4 then
      s.setDev fun d => { d with hwBuffCheck := hwBuf, cntrLostInts := d.cntrLostInts + 1 }
    else s
  let s := s.setDev fun d => { d with hwBuffCheck := d.hwBuffCheck + 1 }
  commandLinkRegWrite s pciMcCardStatus (regDetectorInt ||| bit 30)

/-- The marks `plx_on_interrupt` writes into the frame of hardware buffer
`regDetectorInt & 3`: the sequence number, the buffer, the pointers, the lost
interrupts of hardware and driver, and an end marker. -/
def markFrame (s : Board) (regDetectorInt : U32) : Board :=
  let frame := dmaSize * (regDetectorInt &&& 3).toNat
  let seqCntr := s.dev.seqCntr
  let s := s.setDev fun d => { d with seqCntr := d.seqCntr + 1 }
  let s := plxWriteSram s (frame + 1048560 * 2) (seqCntr.setWidth 32)
  let s := plxWriteSram s (frame + 1048544 * 2) (regDetectorInt &&& 3)
  let s := plxWriteSram s (frame + 1048528 * 2) (s.dev.ip.setWidth 32)
  let s := plxWriteSram s (frame + 1048512 * 2) (s.dev.wp.setWidth 32)
  let s := plxWriteSram s (frame + 1048496 * 2) (s.dev.rp.setWidth 32)
  let s := plxWriteSram s (frame + 1048480 * 2) ((regDetectorInt >>> 31) &&& 1)
  let s := plxWriteSram s (frame + 1048464 * 2) s.dev.cntrLostInts
  plxWriteSram s (frame + 1048448 * 2) 0xebbe

/-- The transfer that a local interrupt starts.  A refused one is only counted. -/
def transferFrame (s : Board) (regDetectorInt : U32) : Board :=
  match plxDmaTransferBlock s ((regDetectorInt &&& 3).setWidth 8) 0 with
  | (.apiSuccess, s) => s
  | (_, s) => s.setDev fun d => { d with cntrFailedDma := d.cntrFailedDma + 1 }

/-- The local-interrupt branch up to the test of `ip` against `rp`. -/
def onLocalInterrupt (s : Board) (regDetectorInt : U32) : Board :=
  transferFrame (markFrame (countLocalInterrupt s regDetectorInt)
    (regDetectorInt ||| bit 30)) (regDetectorInt ||| bit 30)

/-- A DMA channel's interrupt is active, not masked and routed to PCI. -/
def dmaInterrupt (s : Board) (regPciInt : U32) (active masked offset : ℕ) : Bool :=
  regPciInt.getLsbD active && regPciInt.getLsbD masked && (plx9000RegRead s offset).getLsbD 17

/-- Disable the interrupts and schedule the DPC for the sources detected. -/
def queueDpc (s : Board) (interruptSource : U32) : Board :=
  let s := plxChipInterruptsDisable s
  let s := s.setDev fun d => { d with sourceInts := interruptSource }
  { s with kern := { s.kern with workPending := true } }

/-- The end of `plx_on_interrupt`: look for DMA interrupts, and schedule the DPC
if there is any source. -/
def scheduleDpc (s : Board) (regPciInt interruptSource : U32) : IrqReturn × Board :=
  let interruptSource := if dmaInterrupt s regPciInt 21 18 pci8311Dma0Mode then
    interruptSource ||| intrTypeDma0 else interruptSource
  let interruptSource := if dmaInterrupt s regPciInt 22 19 pci8311Dma1Mode then
    interruptSource ||| intrTypeDma1 else interruptSource
  if interruptSource = intrTypeNone then
    (.irqNone, s.setDev fun d => { d with cntrIrqNone := d.cntrIrqNone + 1 })
  else (.irqHandled, queueDpc s interruptSource)

/-- `plx_on_interrupt`. -/
def plxOnInterrupt (s : Board) : IrqReturn × Board :=
  let regPciInt := plx9000RegRead s pci8311IntCtrlStat
  if regPciInt = 0xFFFFFFFF then
    (.irqNone, s.setDev fun d => { d with cntrLowPowerState := d.cntrLowPowerState + 1 })
  else if regPciInt.getLsbD 8 = false then
    (.irqNone,
      s.setDev fun d => { d with cntrPciMasterDisabled := d.cntrPciMasterDisabled + 1 })
  else
    let regDetectorInt := commandLinkRegRead s pciMcCardStatus
    if regPciInt.getLsbD 15 && regPciInt.getLsbD 11 && regDetectorInt.getLsbD 30 then
      let s := onLocalInterrupt s regDetectorInt
      if ReachedRead s.dev.ip s.dev.rp then
        -- the frame is not taken care of: its buffer will be overwritten
        (.irqHandled, s.setDev fun d => { d with cntrCircFullIp := d.cntrCircFullIp + 1 })
      else
        let s := s.setDev fun d => { d with ip := advance d.ip }
        scheduleDpc s regPciInt intrTypeLocal
    else scheduleDpc s regPciInt intrTypeNone

/-! ## The deferred procedure -/

/-- Advance `wp` over a completed transfer, unless it has reached the read
pointer ("skip the increment of wp !"), and count the transfer. -/
def publishFrame (s : Board) : Board :=
  let s := if ReachedRead s.dev.wp s.dev.rp then
      s.setDev fun d => { d with cntrCircFullWp := d.cntrCircFullWp + 1 }
    else s.setDev fun d => { d with wp := advance d.wp }
  s.setDev fun d => { d with cntrIrqProcessed := d.cntrIrqProcessed + 1 }

/-- Clear a channel's DMA interrupt: bit 3 for channel 0, bit 11 for channel 1. -/
def clearDmaInterrupt (s : Board) (shift : ℕ) : Board :=
  plx9000RegWrite s pci8311DmaCommandStat
    (plx9000RegRead s pci8311DmaCommandStat ||| bit (3 + shift))

/-- `alert_read`. -/
def alertRead (s : Board) (channel : ℕ) : Board :=
  if channel = 0 ∨ channel = 1 then publishFrame (clearDmaInterrupt s (channel * 8)) else s

/-- The DMA-channel-0 part of `plx_dpc_for_isr`. -/
def dpcDmaChannel0 (s : Board) : Board := publishFrame (clearDmaInterrupt s 0)

/-- `plx_dpc_for_isr`, taken off the work queue. -/
def plxDpcForIsr (s : Board) : Board :=
  let s := { s with kern := { s.kern with workPending := false } }
  let sourceInts := s.dev.sourceInts
  let s := if sourceInts &&& intrTypeLocal ≠ 0 then
    plxSynchronizedRegisterModify s pci8311IntCtrlStat 0 (bit 11) else s
  let s := if sourceInts &&& intrTypeDma0 ≠ 0 then dpcDmaChannel0 s else s
  let s := if sourceInts &&& intrTypeDma1 ≠ 0 then alertRead s 1 else s
  plxChipInterruptsEnable s

/-! ## What a local interrupt changes -/

/-- What `countLocalInterrupt` changes: the counters and the shadow of the hardware buffer
number. -/
theorem countLocalInterrupt_state (s : Board) (regDetectorInt : U32) :
    ∃ hwBuffCheck cntrIrqCount cntrLostInts cntrLostHwInts,
      countLocalInterrupt s regDetectorInt = commandLinkRegWrite
        { s with dev := { s.dev with
            hwBuffCheck := hwBuffCheck
            cntrIrqCount := cntrIrqCount
            cntrLostInts := cntrLostInts
            cntrLostHwInts := cntrLostHwInts } }
        pciMcCardStatus (regDetectorInt ||| bit 30) := by
  unfold countLocalInterrupt
  dsimp only
  split
  · split
    · dsimp only [Board.setDev]
      exact ⟨_, _, _, _, rfl⟩
    · dsimp only [Board.setDev]
      exact ⟨_, _, _, _, rfl⟩
  · split
    · dsimp only [Board.setDev]
      exact ⟨_, _, _, _, rfl⟩
    · dsimp only [Board.setDev]
      exact ⟨_, _, _, _, rfl⟩

/-- A refused transfer is counted, and an accepted one is the DMA engine's. -/
theorem transferFrame_state (s : Board) (regDetectorInt : U32) :
    ∃ cntrFailedDma,
      (transferFrame s regDetectorInt).dev = { s.dev with cntrFailedDma := cntrFailedDma } ∧
      (transferFrame s regDetectorInt).kern = s.kern ∧
      ∀ i, (transferFrame s regDetectorInt).intCtrl i = s.intCtrl i := by
  have dev := plxDmaTransferBlock_dev s ((regDetectorInt &&& 3).setWidth 8) 0
  have kern := plxDmaTransferBlock_kern s ((regDetectorInt &&& 3).setWidth 8) 0
  have intCtrl := plxDmaTransferBlock_intCtrl s ((regDetectorInt &&& 3).setWidth 8)
  unfold transferFrame
  split
  · rename_i t h
    rw [h] at dev kern intCtrl
    exact ⟨_, dev, kern, intCtrl⟩
  · rename_i t _ h
    rw [h] at dev kern intCtrl
    have dev : t.dev = s.dev := dev
    rw [Board.setDev_dev, dev]
    exact ⟨_, rfl, kern, intCtrl⟩

/-- Of the driver's structure a local interrupt changes counters only, and of the interrupt
register and the kernel nothing. -/
theorem onLocalInterrupt_state (s : Board) (regDetectorInt : U32) :
    ∃ hwBuffCheck cntrIrqCount cntrLostInts cntrLostHwInts seqCntr cntrFailedDma,
      (onLocalInterrupt s regDetectorInt).dev = { s.dev with
        hwBuffCheck := hwBuffCheck
        cntrIrqCount := cntrIrqCount
        cntrLostInts := cntrLostInts
        cntrLostHwInts := cntrLostHwInts
        seqCntr := seqCntr
        cntrFailedDma := cntrFailedDma } ∧
      (onLocalInterrupt s regDetectorInt).kern = s.kern ∧
      ∀ i, (onLocalInterrupt s regDetectorInt).intCtrl i = s.intCtrl i := by
  obtain ⟨_, _, _, _, counted⟩ := countLocalInterrupt_state s regDetectorInt
  obtain ⟨_, dev, kern, intCtrl⟩ := transferFrame_state
    (markFrame (countLocalInterrupt s regDetectorInt) (regDetectorInt ||| bit 30))
    (regDetectorInt ||| bit 30)
  unfold onLocalInterrupt
  rw [dev, kern, counted]
  refine ⟨_, _, _, _, _, _, rfl, rfl, fun i => ?_⟩
  rw [← counted, intCtrl, counted]
  rfl

/-! ## What the two functions do to the ring -/

@[simp] theorem commandLinkRegWrite_ring (s : Board) (offset : ℕ) (value : U32) :
    (commandLinkRegWrite s offset value).ring = s.ring := rfl

@[simp] theorem plxWriteSram_ring (s : Board) (adr : ℕ) (data : U32) :
    (plxWriteSram s adr data).ring = s.ring := rfl

@[simp] theorem countLocalInterrupt_ring (s : Board) (regDetectorInt : U32) :
    (countLocalInterrupt s regDetectorInt).ring = s.ring := by
  obtain ⟨_, _, _, _, counted⟩ := countLocalInterrupt_state s regDetectorInt
  rw [counted]
  rfl

@[simp] theorem markFrame_ring (s : Board) (regDetectorInt : U32) :
    (markFrame s regDetectorInt).ring = s.ring := by
  simp only [markFrame, plxWriteSram_ring]
  rfl

theorem transferFrame_ring {s : Board} (awake : s.chip.lowPower = false)
    (regDetectorInt : U32) : (transferFrame s regDetectorInt).ring = s.ring.transfer := by
  unfold transferFrame RingView.transfer
  by_cases ready : DmaReady s
  · have accepted : s.ring.Ready := ready
    rw [plxDmaTransferBlock_accepted awake ready, if_pos accepted]
    simp only [Board.ring, startTransfer_dev, startTransfer_kern]
    rw [startTransfer_engine awake ready.1]
    rfl
  · have notReady : ¬ s.ring.Ready := ready
    obtain ⟨refused, same⟩ := plxDmaTransferBlock_refused awake ready
      ((regDetectorInt &&& 3).setWidth 8)
    rw [if_neg notReady]
    split
    · rename_i t h
      exact absurd (congrArg Prod.fst h) refused
    · rename_i t _ h
      obtain rfl : s = t := by rw [← same, h]
      rfl

/-- The two ways `plx_on_interrupt` ends once the local interrupt is served. -/
theorem scheduleDpc_cases (s : Board) (regPciInt interruptSource : U32) :
    (scheduleDpc s regPciInt interruptSource).2 =
        s.setDev (fun d => { d with cntrIrqNone := d.cntrIrqNone + 1 }) ∨
      ∃ source, (scheduleDpc s regPciInt interruptSource).2 = queueDpc s source := by
  unfold scheduleDpc
  dsimp only
  generalize (if dmaInterrupt s regPciInt 22 19 pci8311Dma1Mode then _ else _) = source
  by_cases none : source = intrTypeNone
  · exact Or.inl (by rw [if_pos none])
  · exact Or.inr ⟨source, by rw [if_neg none]⟩

@[simp] theorem scheduleDpc_ring (s : Board) (regPciInt interruptSource : U32) :
    (scheduleDpc s regPciInt interruptSource).2.ring = s.ring := by
  rcases scheduleDpc_cases s regPciInt interruptSource with unclaimed | ⟨source, queued⟩
  · rw [unclaimed]
    rfl
  · rw [queued]
    rfl

/-- The interrupt register announces a local interrupt, and the detector is its
origin. -/
def LocalInterrupt (s : Board) : Prop :=
  s.chip.lowPower = false ∧ s.chip.regs pci8311IntCtrlStat ≠ 0xFFFFFFFF ∧
    s.intCtrl 8 = true ∧ s.intCtrl 11 = true ∧ s.intCtrl 15 = true ∧
    (s.chip.link pciMcCardStatus).getLsbD 30 = true

instance (s : Board) : Decidable (LocalInterrupt s) := by
  unfold LocalInterrupt
  infer_instance

/-- The service routine at a local interrupt. -/
theorem plxOnInterrupt_local {s : Board} (h : LocalInterrupt s) : (plxOnInterrupt s).2 =
    let t := onLocalInterrupt s (s.chip.link pciMcCardStatus)
    if ReachedRead t.dev.ip t.dev.rp then
      t.setDev fun d => { d with cntrCircFullIp := d.cntrCircFullIp + 1 }
    else
      (scheduleDpc (t.setDev fun d => { d with ip := advance d.ip })
        (s.chip.regs pci8311IntCtrlStat) intrTypeLocal).2 := by
  obtain ⟨awake, notLow, enabled, unmasked, active, detector⟩ := h
  have taken : ((s.chip.regs pci8311IntCtrlStat).getLsbD 15 &&
      (s.chip.regs pci8311IntCtrlStat).getLsbD 11 &&
      (commandLinkRegRead s pciMcCardStatus).getLsbD 30) = true := by
    rw [Bool.and_eq_true, Bool.and_eq_true]
    exact ⟨⟨active, unmasked⟩, detector⟩
  have on : ¬ (s.chip.regs pci8311IntCtrlStat).getLsbD 8 = false := by
    rw [show (s.chip.regs pci8311IntCtrlStat).getLsbD 8 = true from enabled]
    exact Bool.noConfusion
  unfold plxOnInterrupt
  dsimp only
  rw [intCtrlStat_read awake, if_neg notLow, if_neg on, if_pos taken, commandLinkRegRead]
  split_ifs <;> rfl

theorem plxOnInterrupt_ring {s : Board} (h : LocalInterrupt s) :
    (plxOnInterrupt s).2.ring = s.ring.localInterrupt := by
  have awake : s.chip.lowPower = false := h.1
  have started : (onLocalInterrupt s (s.chip.link pciMcCardStatus)).ring =
      s.ring.transfer := by
    have same : (markFrame (countLocalInterrupt s (s.chip.link pciMcCardStatus))
        (s.chip.link pciMcCardStatus ||| bit 30)).ring = s.ring := by
      rw [markFrame_ring, countLocalInterrupt_ring]
    rw [onLocalInterrupt, transferFrame_ring, same]
    exact (congrArg RingView.lowPower same).trans awake
  have rp : (onLocalInterrupt s (s.chip.link pciMcCardStatus)).dev.rp = s.ring.rp :=
    (congrArg RingView.rp started).trans (RingView.transfer_rp _)
  have ip : (onLocalInterrupt s (s.chip.link pciMcCardStatus)).dev.ip = s.ring.ip :=
    (congrArg RingView.ip started).trans (RingView.transfer_ip _)
  rw [plxOnInterrupt_local h]
  unfold RingView.localInterrupt
  dsimp only
  rw [ip, rp]
  by_cases full : ReachedRead s.ring.ip s.ring.rp
  · rw [if_pos full, if_pos full]
    exact started
  · rw [if_neg full, if_neg full, scheduleDpc_ring, ← started, ← ip]
    rfl

/-- Writing the DMA status back as it was read, with an interrupt cleared, does
not move the engine. -/
theorem clearDmaInterrupt_ring {s : Board} (awake : s.chip.lowPower = false) (shift : ℕ) :
    (clearDmaInterrupt s shift).ring = s.ring := by
  have noAbort : (plx9000RegRead s pci8311DmaCommandStat).getLsbD 2 = false :=
    dmaStatus_command awake (by decide) (by decide)
  have noStart : (plx9000RegRead s pci8311DmaCommandStat).getLsbD 1 = false :=
    dmaStatus_command awake (by decide) (by decide)
  have engine : s.chip.dmaCommand
      (plx9000RegRead s pci8311DmaCommandStat ||| bit (3 + shift)) = s.chip.engine := by
    have two : ¬ 2 = 3 + shift := by omega
    have one : ¬ 1 = 3 + shift := by omega
    unfold Chip.dmaCommand
    rw [BitVec.getLsbD_or, BitVec.getLsbD_or, BitVec.getLsbD_or, noAbort, noStart]
    simp [two, one]
  unfold clearDmaInterrupt Board.ring
  rw [plx9000RegWrite_engine, engine]
  rfl

theorem publishFrame_ring (s : Board) : (publishFrame s).ring = s.ring.publish := by
  unfold publishFrame RingView.publish
  by_cases full : ReachedRead s.dev.wp s.dev.rp
  · rw [if_pos full, if_pos (show ReachedRead s.ring.wp s.ring.rp from full)]
    rfl
  · rw [if_neg full, if_neg (show ¬ ReachedRead s.ring.wp s.ring.rp from full)]
    rfl

theorem dpcDmaChannel0_ring {s : Board} (awake : s.chip.lowPower = false) :
    (dpcDmaChannel0 s).ring = s.ring.publish := by
  rw [dpcDmaChannel0, publishFrame_ring, clearDmaInterrupt_ring awake]

/-! ## What the two functions do to the interrupt register -/

theorem onLocalInterrupt_intCtrl (s : Board) (regDetectorInt : U32) (i : ℕ) :
    (onLocalInterrupt s regDetectorInt).intCtrl i = s.intCtrl i := by
  obtain ⟨-, -, -, -, -, -, -, -, intCtrl⟩ := onLocalInterrupt_state s regDetectorInt
  exact intCtrl i

theorem queueDpc_intCtrl (s : Board) (source : U32) : (queueDpc s source).intCtrl 8 = false :=
  intCtrl_plxChipInterruptsDisable s

theorem scheduleDpc_intCtrl {s : Board} (h : s.intCtrl 8 = false)
    (regPciInt interruptSource : U32) :
    (scheduleDpc s regPciInt interruptSource).2.intCtrl 8 = false := by
  rcases scheduleDpc_cases s regPciInt interruptSource with unclaimed | ⟨source, queued⟩
  · rw [unclaimed, Board.setDev_intCtrl, h]
  · rw [queued, queueDpc_intCtrl]

/-- The service routine never enables the interrupts. -/
theorem plxOnInterrupt_intCtrl {s : Board} (h : s.intCtrl 8 = false) :
    (plxOnInterrupt s).2.intCtrl 8 = false := by
  have started := (onLocalInterrupt_intCtrl s (commandLinkRegRead s pciMcCardStatus) 8).trans h
  unfold plxOnInterrupt
  dsimp only
  split
  · rw [Board.setDev_intCtrl, h]
  split
  · rw [Board.setDev_intCtrl, h]
  split
  · split
    · rw [Board.setDev_intCtrl, started]
    · apply scheduleDpc_intCtrl
      rw [Board.setDev_intCtrl, started]
  · exact scheduleDpc_intCtrl h _ _

/-- The DPC always ends with the interrupts enabled. -/
theorem plxDpcForIsr_intCtrl (s : Board) : (plxDpcForIsr s).intCtrl 8 = true :=
  intCtrl_plxChipInterruptsEnable _

end Cjunk.Plx
