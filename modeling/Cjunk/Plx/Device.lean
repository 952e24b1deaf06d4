import Mathlib.Logic.Function.Basic
import Cjunk.Lib.Words

/-!
# The PLX 8311 driver: device state and register access

The state the driver's functions read and write, in three parts:

* `Driver` — `driver_t` of `plx_driverdefs.h`: the cursors into `frames[]`, the
  open count, the flags and the event counters;
* `Chip` — what is behind the two PCI BARs: the local registers of the PLX chip,
  the command-link (FPGA) registers, the SRAM, and the DMA engine of channel 0;
* `Kernel` — what the driver has asked of the kernel: the interrupt handler it
  registered, the work it queued and the coherent buffers it holds.

The driver is the build of the `Makefile`: `STEP_IN_INT`, `STEP_IN_INT_DPC` and
`FASTER_CL`, without `DMA1` and `DMA_DEBUG`.  The tracing of `PDEBUG` is left
out (`debug = 0`).

### The hardware side

The chip is not part of the sources.  What the driver relies on is what its
comments say: bit 4 of `PCI8311_DMA_COMMAND_STAT` reads as "no transfer in
progress", writing bits 0 and 1 starts a transfer to the address in
`PCI8311_DMA0_PCI_ADDR`, writing bit 2 aborts it, and these command bits are
not read back; in a low power state every register reads as `0xFFFFFFFF`.
-/

namespace Cjunk.Plx

open Words

/-- `NO_OF_BUFFERS`: the number of frame buffers in the ring. -/
def noOfBuffers : ℕ := 8

/-- `DMA_SIZE`: the bytes of one frame. -/
def dmaSize : ℕ := 1024 * 1024 * 2

/-! ## Register offsets

The names are those of `plx_reg8311.h`; `pciMcCardStatus` is a command-link
register, at an offset from `FPGA_ADDR_BASE`. -/

def pci8311IntCtrlStat : ℕ := 0x068
def pci8311Dma0Mode : ℕ := 0x080
def pci8311Dma0PciAddr : ℕ := 0x084
def pci8311Dma1Mode : ℕ := 0x094
def pci8311DmaCommandStat : ℕ := 0x0a8
def pci8311DmaArbit : ℕ := 0x0ac
def pci8311Dma0PciDac : ℕ := 0x0b4
def pci8311Dma1PciDac : ℕ := 0x0b8
def pciMcCardStatus : ℕ := 0x0004
def localPciSramBase : ℕ := 0x50000000

/-! ## State -/

/-- The members of `driver_t` that the modelled functions use; the defaults are
the zeroes of `kzalloc`. -/
structure Driver where
  /-- `pPciDevice->irq`, `0` when the device has no interrupt. -/
  irq : ℕ := 0
  /-- `Flag_Interrupt`: the device has claimed its IRQ. -/
  flagInterrupt : Bool := false
  openCount : U8 := 0
  /-- `Source_Ints`: the interrupts the ISR detected, for the DPC. -/
  sourceInts : U32 := 0
  /-- `dma_channels[]`: which DMA channels are open. -/
  dmaChannels : ℕ → Bool := fun _ => false
  hwBuffCheck : U8 := 0
  /-- `frames[]`: the kernel addresses of the buffers, `0` for `NULL`. -/
  frames : ℕ → ℕ := fun _ => 0
  /-- `bus_addresses[]`: the addresses the DMA engine knows the buffers by. -/
  busAddresses : ℕ → U32 := fun _ => 0
  /-- The read, write and interrupt pointers into `frames[]`. -/
  rp : U8 := 0
  wp : U8 := 0
  ip : U8 := 0
  seqCntr : U16 := 0
  cntrIrqCount : U32 := 0
  cntrIrqProcessed : U32 := 0
  cntrIrqNone : U32 := 0
  cntrLowPowerState : U32 := 0
  cntrPciMasterDisabled : U32 := 0
  cntrFailedDma : U32 := 0
  cntrRead : U32 := 0
  cntrPoll : U32 := 0
  cntr2UserSpace : U32 := 0
  cntrLostInts : U32 := 0
  cntrCircFullWp : U32 := 0
  cntrLostHwInts : U32 := 0
  cntrCircFullIp : U32 := 0
  cntrCircEmptyRp : U32 := 0

/-- The board, as the driver sees it through its BARs. -/
structure Chip where
  /-- The local registers of the PLX chip, by offset. -/
  regs : ℕ → U32 := fun _ => 0
  /-- The bus address the running transfer of DMA channel 0 writes to. -/
  engine : Option U32 := none
  /-- The chip is in a low power state. -/
  lowPower : Bool := false
  /-- The command-link registers, by offset from `FPGA_ADDR_BASE`. -/
  link : ℕ → U32 := fun _ => 0
  /-- The frame memory of the board. -/
  sram : ℕ → U32 := fun _ => 0

/-- What the kernel holds for the driver. -/
structure Kernel where
  /-- `plx_on_interrupt` is registered for the device's interrupt. -/
  handler : Bool := false
  /-- `Task_plx_dpc_for_isr` is on the work queue. -/
  workPending : Bool := false
  /-- The buffers of `dma_alloc_coherent` not given back yet, by address. -/
  coherent : List ℕ := []
  /-- The count of the semaphore `read_semph` (`init_MUTEX` sets it to 1). -/
  readSemph : ℕ := 1

/-- The driver, its device and its kernel. -/
structure Board where
  dev : Driver := {}
  chip : Chip := {}
  kern : Kernel := {}

/-- Update the driver's structure. -/
def Board.setDev (s : Board) (f : Driver → Driver) : Board := { s with dev := f s.dev }

section

variable (s : Board) (f : Driver → Driver)

@[simp] theorem Board.setDev_dev : (s.setDev f).dev = f s.dev := rfl
@[simp] theorem Board.setDev_chip : (s.setDev f).chip = s.chip := rfl
@[simp] theorem Board.setDev_kern : (s.setDev f).kern = s.kern := rfl

end

/-! ## Register access -/

/-- The bits of `PCI8311_DMA_COMMAND_STAT` that are commands (start, abort and
clear interrupt, of both channels): they read as zero. -/
def dmaCommandBits : U32 := 0x0e0e

/-- `PLX_9000_REG_READ`. -/
def plx9000RegRead (s : Board) (offset : ℕ) : U32 :=
  if s.chip.lowPower then 0xFFFFFFFF
  else if offset = pci8311DmaCommandStat then
    let stored := s.chip.regs offset &&& ~~~dmaCommandBits
    if s.chip.engine.isNone then stored ||| bit 4 else stored &&& ~~~(bit 4)
  else s.chip.regs offset

/-- What the DMA engine of channel 0 makes of a write to
`PCI8311_DMA_COMMAND_STAT`. -/
def Chip.dmaCommand (chip : Chip) (value : U32) : Option U32 :=
  if value.getLsbD 2 then none
  else if value.getLsbD 0 && value.getLsbD 1 then
    chip.engine.or (some (chip.regs pci8311Dma0PciAddr))
  else chip.engine

/-- `PLX_9000_REG_WRITE`. -/
def plx9000RegWrite (s : Board) (offset : ℕ) (value : U32) : Board :=
  { s with chip := { s.chip with
      regs := Function.update s.chip.regs offset value
      engine := if offset = pci8311DmaCommandStat then s.chip.dmaCommand value
        else s.chip.engine } }

/-- `COMMAND_LINK_REG_READ`. -/
def commandLinkRegRead (s : Board) (offset : ℕ) : U32 := s.chip.link offset

/-- `COMMAND_LINK_REG_WRITE`. -/
def commandLinkRegWrite (s : Board) (offset : ℕ) (value : U32) : Board :=
  { s with chip := { s.chip with link := Function.update s.chip.link offset value } }

/-- `plx_write_sram`. -/
def plxWriteSram (s : Board) (adr : ℕ) (data : U32) : Board :=
  { s with chip := { s.chip with sram := Function.update s.chip.sram adr data } }

section Access

variable (s : Board) (offset : ℕ) (value : U32)

@[simp] theorem plx9000RegWrite_dev : (plx9000RegWrite s offset value).dev = s.dev := rfl
@[simp] theorem plx9000RegWrite_kern : (plx9000RegWrite s offset value).kern = s.kern := rfl
@[simp] theorem plx9000RegWrite_lowPower :
    (plx9000RegWrite s offset value).chip.lowPower = s.chip.lowPower := rfl
@[simp] theorem plx9000RegWrite_regs : (plx9000RegWrite s offset value).chip.regs =
    Function.update s.chip.regs offset value := rfl

/-- Only the DMA command register moves the DMA engine. -/
@[simp] theorem plx9000RegWrite_engine_of_ne (h : offset ≠ pci8311DmaCommandStat) :
    (plx9000RegWrite s offset value).chip.engine = s.chip.engine := by
  simp [plx9000RegWrite, h]

@[simp] theorem plx9000RegWrite_engine :
    (plx9000RegWrite s pci8311DmaCommandStat value).chip.engine =
      s.chip.dmaCommand value := by
  simp [plx9000RegWrite]

@[simp] theorem commandLinkRegWrite_dev :
    (commandLinkRegWrite s offset value).dev = s.dev := rfl
@[simp] theorem commandLinkRegWrite_kern :
    (commandLinkRegWrite s offset value).kern = s.kern := rfl
@[simp] theorem commandLinkRegWrite_regs :
    (commandLinkRegWrite s offset value).chip.regs = s.chip.regs := rfl
@[simp] theorem commandLinkRegWrite_engine :
    (commandLinkRegWrite s offset value).chip.engine = s.chip.engine := rfl
@[simp] theorem commandLinkRegWrite_lowPower :
    (commandLinkRegWrite s offset value).chip.lowPower = s.chip.lowPower := rfl

@[simp] theorem plxWriteSram_dev : (plxWriteSram s offset value).dev = s.dev := rfl
@[simp] theorem plxWriteSram_kern : (plxWriteSram s offset value).kern = s.kern := rfl
@[simp] theorem plxWriteSram_regs :
    (plxWriteSram s offset value).chip.regs = s.chip.regs := rfl
@[simp] theorem plxWriteSram_engine :
    (plxWriteSram s offset value).chip.engine = s.chip.engine := rfl
@[simp] theorem plxWriteSram_lowPower :
    (plxWriteSram s offset value).chip.lowPower = s.chip.lowPower := rfl

end Access

/-- While the engine is running, bit 4 of the DMA status is clear, and while it
is not, set. -/
theorem dmaStatus_done {s : Board} (awake : s.chip.lowPower = false) :
    (plx9000RegRead s pci8311DmaCommandStat)[4] = s.chip.engine.isNone := by
  cases engine : s.chip.engine <;> simp [plx9000RegRead, awake, engine]

/-- A command bit that is written back as it was read commands nothing. -/
theorem dmaStatus_command {s : Board} (awake : s.chip.lowPower = false) {i : ℕ}
    (command : dmaCommandBits.getLsbD i = true) (hi : i ≠ 4) :
    (plx9000RegRead s pci8311DmaCommandStat).getLsbD i = false := by
  cases engine : s.chip.engine <;> simp [plx9000RegRead, awake, engine, command, hi]

/-! ## The interrupt register -/

/-- The interrupt register reads as it is, unless the chip is in its low power state. -/
theorem intCtrlStat_read {s : Board} (awake : s.chip.lowPower = false) :
    plx9000RegRead s pci8311IntCtrlStat = s.chip.regs pci8311IntCtrlStat := by
  simp [plx9000RegRead, awake, pci8311IntCtrlStat, pci8311DmaCommandStat]

theorem intCtrlStat_read_of_ne {s : Board}
    (h : plx9000RegRead s pci8311IntCtrlStat ≠ 0xFFFFFFFF) :
    plx9000RegRead s pci8311IntCtrlStat = s.chip.regs pci8311IntCtrlStat := by
  apply intCtrlStat_read
  rw [← Bool.not_eq_true]
  intro low
  exact h (by simp [plx9000RegRead, low])

/-- `plx_synchronized_register_modify`, with the members of `PLX_REG_DATA`. -/
def plxSynchronizedRegisterModify (s : Board) (offset : ℕ)
    (bitsToSet bitsToClear : U32) : Board :=
  let regValue := plx9000RegRead s offset
  let regValue := regValue ||| bitsToSet
  let regValue := regValue &&& ~~~bitsToClear
  plx9000RegWrite s offset regValue

/-- `plx_chip_interrupts_enable`. -/
def plxChipInterruptsEnable (s : Board) : Board :=
  plxSynchronizedRegisterModify s pci8311IntCtrlStat (bit 8 ||| bit 11) 0

/-- `plx_chip_interrupts_disable`. -/
def plxChipInterruptsDisable (s : Board) : Board :=
  plxSynchronizedRegisterModify s pci8311IntCtrlStat 0 (bit 8)

/-- Bit `i` of the interrupt register as the chip holds it. -/
def Board.intCtrl (s : Board) (i : ℕ) : Bool := (s.chip.regs pci8311IntCtrlStat).getLsbD i

section InterruptRegister

variable (s : Board) (offset : ℕ) (bitsToSet bitsToClear : U32)

@[simp] theorem Board.setDev_intCtrl (f : Driver → Driver) (i : ℕ) :
    (s.setDev f).intCtrl i = s.intCtrl i := rfl
@[simp] theorem commandLinkRegWrite_intCtrl (value : U32) (i : ℕ) :
    (commandLinkRegWrite s offset value).intCtrl i = s.intCtrl i := rfl
@[simp] theorem plxWriteSram_intCtrl (value : U32) (i : ℕ) :
    (plxWriteSram s offset value).intCtrl i = s.intCtrl i := rfl

theorem plx9000RegWrite_intCtrl {offset : ℕ} (h : offset ≠ pci8311IntCtrlStat) (value : U32)
    (i : ℕ) : (plx9000RegWrite s offset value).intCtrl i = s.intCtrl i := by
  rw [Board.intCtrl, plx9000RegWrite_regs, Function.update_of_ne h.symm]
  rfl

@[simp] theorem plxSynchronizedRegisterModify_dev :
    (plxSynchronizedRegisterModify s offset bitsToSet bitsToClear).dev = s.dev := rfl
@[simp] theorem plxSynchronizedRegisterModify_kern :
    (plxSynchronizedRegisterModify s offset bitsToSet bitsToClear).kern = s.kern := rfl
@[simp] theorem plxSynchronizedRegisterModify_lowPower :
    (plxSynchronizedRegisterModify s offset bitsToSet bitsToClear).chip.lowPower =
      s.chip.lowPower := rfl

@[simp] theorem plxChipInterruptsEnable_dev : (plxChipInterruptsEnable s).dev = s.dev := rfl
@[simp] theorem plxChipInterruptsEnable_kern : (plxChipInterruptsEnable s).kern = s.kern := rfl
@[simp] theorem plxChipInterruptsDisable_dev : (plxChipInterruptsDisable s).dev = s.dev := rfl
@[simp] theorem plxChipInterruptsDisable_kern :
    (plxChipInterruptsDisable s).kern = s.kern := rfl

@[simp] theorem plxChipInterruptsEnable_engine :
    (plxChipInterruptsEnable s).chip.engine = s.chip.engine := rfl
@[simp] theorem plxChipInterruptsDisable_engine :
    (plxChipInterruptsDisable s).chip.engine = s.chip.engine := rfl

/-- Enabling sets the master interrupt enable, whatever state the chip is in. -/
theorem intCtrl_plxChipInterruptsEnable : (plxChipInterruptsEnable s).intCtrl 8 = true := by
  simp [Board.intCtrl, plxChipInterruptsEnable, plxSynchronizedRegisterModify]

/-- Disabling clears the master interrupt enable, whatever state the chip is in. -/
theorem intCtrl_plxChipInterruptsDisable :
    (plxChipInterruptsDisable s).intCtrl 8 = false := by
  simp [Board.intCtrl, plxChipInterruptsDisable, plxSynchronizedRegisterModify]

end InterruptRegister

end Cjunk.Plx
