import Cjunk.Plx.CommandLink

/-!
# The PLX 8311 driver: register access and board reset

The functions through which `plx_drv_ioctl` reaches the board: the FPGA, PLX and PCI
configuration registers, the SRAM, the command link in the `FASTER_CL` build, the board
timer of `plx_diff_since_read`, and `plx_board_reset`.  Their state is a `Device`, the
board together with the driver's variables.

What the chip does to its registers while it is held in reset, and what it loads from
its EEPROM, is the hardware's; it is an argument of `plxBoardReset`.
-/

namespace Cjunk.Plx

open Words Routine Link

/-! ## Registers -/

def cfgCommand : ℕ := 0x004
def cfgIntLine : ℕ := 0x03c
def pci8311PmCsr : ℕ := 0x044
def pci8311HsCapId : ℕ := 0x048
def pci8311EepromCtrlStat : ℕ := 0x06c
def pci8311FifoCtrlStat : ℕ := 0x0e8
def xxBoardTimer : ℕ := 0x4004

/-- The device and the variables of its driver. -/
structure Device where
  board : Board := {}
  link : Link := {}
  /-- The PCI configuration registers, by offset. -/
  config : ℕ → U32 := fun _ => 0
  /-- `before`: what the board timer showed when it was last read. -/
  before : U32 := 0
  debug : Bool := true

namespace Device

/-- Change the board. -/
def setBoard (f : Board → Board) (s : Device) : Device := { s with board := f s.board }

/-- Change what is on the chip and in its configuration registers. -/
def setHardware (f : Chip × (ℕ → U32) → Chip × (ℕ → U32)) (s : Device) : Device :=
  let hardware := f (s.board.chip, s.config)
  { s with board := { s.board with chip := hardware.1 }, config := hardware.2 }

/-- A routine of the command link. -/
def onLink {α : Type} (m : Routine Link α) : Routine Device α :=
  onPart Device.link (fun link s => { s with link := link }) m

end Device

open Device

/-- `GENERAL_IO_READ`.  `SPIM_STAT` and `SPIM_DATA` show what the command link does. -/
def generalIoRead (offset : ℕ) : Routine Device U32 :=
  if offset = spimData then onLink readData
  else if offset = spimStat then
    onLink fun s => some (.ok ((s.polls.map Poll.stat).headD 0), { s with polls := s.polls.tail })
  else asks fun s => commandLinkRegRead s.board offset

/-- `GENERAL_IO_WRITE`. -/
def generalIoWrite (offset : ℕ) (value : U32) : Routine Device Unit := do
  modify (setBoard fun s => commandLinkRegWrite s offset value)
  onLink (regWrite offset value)

/-- `PLX_PCI_REG_READ` into a variable that holds `old`: `pci_read_config_dword` leaves
it as it is if the offset is no multiple of four. -/
def plxPciRegRead (offset : U32) (old : U32) : Routine Device U32 :=
  asks fun s =>
    let offset := (offset.setWidth 16).toNat
    if offset % 4 = 0 then s.config offset else old

/-- `PLX_PCI_REG_WRITE`, for the offsets of `plx_board_reset`. -/
def plxPciRegWrite (offset : ℕ) (value : U32) : Routine Device Unit :=
  modify fun s => { s with config := Function.update s.config offset value }

/-- `plx_read_fpga_reg`. -/
def plxReadFpgaReg (adr : U32) : Routine Device U32 := generalIoRead adr.toNat

/-- `plx_write_fpga_reg`. -/
def plxWriteFpgaReg (adr data : U32) : Routine Device Unit := generalIoWrite adr.toNat data

/-- `plx_read_plx_reg`. -/
def plxReadPlxReg (adr : U32) : Routine Device U32 :=
  asks fun s => plx9000RegRead s.board adr.toNat

/-- `plx_write_plx_reg`. -/
def plxWritePlxReg (adr data : U32) : Routine Device Unit :=
  modify (setBoard fun s => plx9000RegWrite s adr.toNat data)

/-- `SRAM_READ`. -/
def sramRead (adr : U32) : Routine Device U32 := asks fun s => s.board.chip.sram adr.toNat

/-- `memset_io` on the SRAM, for a range of whole words. -/
def memsetIo (offset : ℕ) (byte : U8) (count : ℕ) : Routine Device Unit :=
  modify (setBoard fun s =>
    { s with chip := { s.chip with
        sram := fun adr =>
          if offset ≤ adr ∧ adr < offset + count then byte ++ byte ++ byte ++ byte
          else s.chip.sram adr } })

/-- `plx_diff_since_read`: the timer has 24 bits, and `curr < before` is a comparison of
signed numbers. -/
def plxDiffSinceRead : Routine Device U32 := do
  let curr ← plxReadFpgaReg (.ofNat 32 xxBoardTimer)
  let before ← asks Device.before
  modify fun s => { s with before := curr }
  return if curr.slt before then ((1 <<< 24) - 1 + before + curr) &&& 0xffffff else curr - before

/-! ## Board reset -/

/-- What the chip does on its own in a reset of the board. -/
structure ResetEnv where
  /-- To its registers, while it is held in reset. -/
  hold : Chip × (ℕ → U32) → Chip × (ℕ → U32) := id
  /-- To its registers, when it loads its EEPROM. -/
  reload : Chip × (ℕ → U32) → Chip × (ℕ → U32) := id

/-- `plx_board_reset`.  The power management register is masked but not written back. -/
def plxBoardReset (env : ResetEnv) : Routine Device Unit := do
  let command ← plxPciRegRead (.ofNat 32 cfgCommand) 0
  if command &&& (0xf8 <<< 24) ≠ 0 then
    plxPciRegWrite cfgCommand command -- clears the aborts
  let fifo ← asks fun s => plx9000RegRead s.board pci8311FifoCtrlStat
  let muEnabled := fifo.getLsbD 0
  let eeprom ← asks fun s => plx9000RegRead s.board pci8311EepromCtrlStat
  let regValue := eeprom &&& ~~~(bit 30 ||| bit 29)
  let eepromPresent := regValue.getLsbD 28
  let regInterrupt ← plxPciRegRead (.ofNat 32 cfgIntLine) 0
  let regHotSwap ←
    if eepromPresent then plxPciRegRead (.ofNat 32 pci8311HsCapId) 0 else pure 0
  let regPowerMgmnt ←
    if eepromPresent then plxPciRegRead (.ofNat 32 pci8311PmCsr) 0 else pure 0
  plxWritePlxReg (.ofNat 32 pci8311EepromCtrlStat) (regValue ||| bit 30)
  modify (setHardware env.hold)
  plxWritePlxReg (.ofNat 32 pci8311EepromCtrlStat) regValue
  plxWritePlxReg (.ofNat 32 pci8311EepromCtrlStat) (regValue ||| bit 29)
  modify (setHardware env.reload)
  plxWritePlxReg (.ofNat 32 pci8311EepromCtrlStat) regValue
  if muEnabled then
    let fifo ← asks fun s => plx9000RegRead s.board pci8311FifoCtrlStat
    plxWritePlxReg (.ofNat 32 pci8311FifoCtrlStat) (fifo ||| bit 0)
  plxPciRegWrite cfgIntLine regInterrupt
  if eepromPresent then
    plxPciRegWrite pci8311HsCapId (regHotSwap &&& ~~~(bit 23 ||| bit 22 ||| bit 17))
    let _ ← plxPciRegRead (.ofNat 32 pci8311PmCsr) (regPowerMgmnt &&& ~~~(bit 15))
  return ()

end Cjunk.Plx
