import Cjunk.Plx.BoardIo

/-!
# The PLX 8311 driver: what a board reset restores

`plx_board_reset` saves the interrupt line, the I2O decode enable bit and, if there is an
EEPROM, the hot-swap and the power management register; it resets the chip, has it load
its EEPROM, and writes back what it saved.  `resetDevice` is the device it leaves, in
closed form: `ResetEnv.left` is what the reset and the EEPROM leave, and the registers
the function writes afterwards are put on top of it.

The power management register is not among these: the last of the restoring accesses is
a read.  What is in it after the call is what the reset and the EEPROM left there.
-/

namespace Cjunk.Plx

open Words Routine Device

/-! ## The accesses of the reset -/

namespace Device

/-- Write a local register of the chip. -/
def writePlxReg (offset : ℕ) (value : U32) : Device → Device :=
  setBoard fun s => plx9000RegWrite s offset value

/-- Write a PCI configuration register. -/
def writeConfig (offset : ℕ) (value : U32) (s : Device) : Device :=
  { s with config := Function.update s.config offset value }

/-- Bit 28 of the EEPROM control register: the chip has an EEPROM. -/
def EepromPresent (s : Device) : Prop :=
  (s.board.chip.regs pci8311EepromCtrlStat).getLsbD 28 = true

/-- The EEPROM control register without its reset and reload bits. -/
def eepromStatus (s : Device) : U32 :=
  plx9000RegRead s.board pci8311EepromCtrlStat &&& ~~~(bit 30 ||| bit 29)

/-- Set the I2O decode enable bit, if it was set. -/
def restoreDecode (muEnabled : Bool) (s : Device) : Device :=
  if muEnabled then
    s.writePlxReg pci8311FifoCtrlStat (plx9000RegRead s.board pci8311FifoCtrlStat ||| bit 0)
  else s

section

variable (s : Device) (offset : ℕ) (value : U32) (muEnabled : Bool)

@[simp] theorem writePlxReg_config : (s.writePlxReg offset value).config = s.config := rfl
@[simp] theorem writePlxReg_regs : (s.writePlxReg offset value).board.chip.regs =
    Function.update s.board.chip.regs offset value := rfl
@[simp] theorem writeConfig_config :
    (s.writeConfig offset value).config = Function.update s.config offset value := rfl

@[simp] theorem restoreDecode_config : (restoreDecode muEnabled s).config = s.config := by
  cases muEnabled <;> rfl

/-- The decode enable bit is in a register of its own. -/
theorem restoreDecode_regs_of_ne {offset : ℕ} (h : offset ≠ pci8311FifoCtrlStat) :
    (restoreDecode muEnabled s).board.chip.regs offset = s.board.chip.regs offset := by
  cases muEnabled with
  | false => rfl
  | true => exact Function.update_of_ne h _ _

theorem restoreDecode_decode :
    ((restoreDecode true s).board.chip.regs pci8311FifoCtrlStat).getLsbD 0 = true := by
  simp [restoreDecode]

/-- A bit that is set in a register reads as set, in a low power state too. -/
theorem getLsbD_read {offset i : ℕ} (hoffset : offset ≠ pci8311DmaCommandStat) (hi : i < 32)
    (set : (s.board.chip.regs offset).getLsbD i = true) :
    (plx9000RegRead s.board offset).getLsbD i = true := by
  unfold plx9000RegRead
  rw [if_neg hoffset]
  split
  · show (BitVec.allOnes 32).getLsbD i = true
    rw [BitVec.getLsbD_allOnes]
    exact decide_eq_true hi
  · exact set

end

end Device

/-- What the soft reset and the reload of the EEPROM leave of the device `s`. -/
def ResetEnv.left (env : ResetEnv) (s : Device) : Device :=
  let regValue := s.eepromStatus
  let s := setHardware env.hold (s.writePlxReg pci8311EepromCtrlStat (regValue ||| bit 30))
  let s := s.writePlxReg pci8311EepromCtrlStat regValue
  setHardware env.reload (s.writePlxReg pci8311EepromCtrlStat (regValue ||| bit 29))

/-- The device `plx_board_reset` leaves. -/
def resetDevice (env : ResetEnv) (s : Device) : Device :=
  let t := (env.left s).writePlxReg pci8311EepromCtrlStat s.eepromStatus
  let t := restoreDecode ((plx9000RegRead s.board pci8311FifoCtrlStat).getLsbD 0) t
  let t := t.writeConfig cfgIntLine (s.config cfgIntLine)
  if s.eepromStatus.getLsbD 28 then
    t.writeConfig pci8311HsCapId
      (s.config pci8311HsCapId &&& ~~~(bit 23 ||| bit 22 ||| bit 17))
  else t

/-! ## The function is its closed form -/

section

variable {offset : ℕ} (old value : U32)

theorem plxPciRegRead_eq (h : offset < 65536 ∧ offset % 4 = 0) :
    plxPciRegRead (.ofNat 32 offset) old = asks fun s => s.config offset := by
  have exact_offset : ((BitVec.ofNat 32 offset).setWidth 16).toNat = offset := by
    simp only [BitVec.toNat_setWidth, BitVec.toNat_ofNat]
    omega
  funext s
  simp only [plxPciRegRead, asks, exact_offset, h.2, if_true]

theorem plxWritePlxReg_eq (h : offset < 65536) :
    plxWritePlxReg (.ofNat 32 offset) value = modify (writePlxReg offset value) := by
  have exact_offset : (BitVec.ofNat 32 offset).toNat = offset := by
    rw [BitVec.toNat_ofNat]
    omega
  rw [plxWritePlxReg, writePlxReg, exact_offset]

theorem plxPciRegWrite_eq :
    plxPciRegWrite offset value = modify (writeConfig offset value) := rfl

/-- Writing back what is there. -/
theorem writeConfig_self (s : Device) : s.writeConfig offset (s.config offset) = s := by
  rw [writeConfig, Function.update_eq_self]

end

theorem plxBoardReset_eq (env : ResetEnv) (s : Device) :
    plxBoardReset env s = some (.ok (), resetDevice env s) := by
  unfold plxBoardReset resetDevice restoreDecode ResetEnv.left Device.eepromStatus
  simp only [plxPciRegRead_eq _ (show cfgCommand < 65536 ∧ cfgCommand % 4 = 0 by decide),
    plxPciRegRead_eq _ (show cfgIntLine < 65536 ∧ cfgIntLine % 4 = 0 by decide),
    plxPciRegRead_eq _ (show pci8311HsCapId < 65536 ∧ pci8311HsCapId % 4 = 0 by decide),
    plxPciRegRead_eq _ (show pci8311PmCsr < 65536 ∧ pci8311PmCsr % 4 = 0 by decide),
    plxWritePlxReg_eq _ (show pci8311EepromCtrlStat < 65536 by decide),
    plxWritePlxReg_eq _ (show pci8311FifoCtrlStat < 65536 by decide),
    plxPciRegWrite_eq, asks_bind_run]
  -- the command register is written back as it was read: both branches go on from `s`
  rw [ite_run]
  simp only [modify_bind_run, asks_bind_run, writeConfig_self, ite_self]
  cases (plx9000RegRead s.board pci8311FifoCtrlStat).getLsbD 0 <;>
    cases (plx9000RegRead s.board pci8311EepromCtrlStat &&& ~~~(bit 30 ||| bit 29)).getLsbD 28 <;>
    simp only [Bool.false_eq_true, if_true, if_false, pure_bind_run, modify_bind_run,
      asks_bind_run, pure_run]

/-! ## What is restored -/

/-- The board after a reset (`t`) has what `plx_board_reset` saved of the board before
(`s`). -/
structure Restored (s t : Device) : Prop where
  intLine : t.config cfgIntLine = s.config cfgIntLine
  decode : (s.board.chip.regs pci8311FifoCtrlStat).getLsbD 0 = true →
    (t.board.chip.regs pci8311FifoCtrlStat).getLsbD 0 = true
  hotSwap : s.EepromPresent → t.config pci8311HsCapId =
    s.config pci8311HsCapId &&& ~~~(bit 23 ||| bit 22 ||| bit 17)
  powerMgmnt : s.EepromPresent →
    t.config pci8311PmCsr = s.config pci8311PmCsr &&& ~~~(bit 15)
  reset : (t.board.chip.regs pci8311EepromCtrlStat).getLsbD 30 = false
  reload : (t.board.chip.regs pci8311EepromCtrlStat).getLsbD 29 = false

section

variable (env : ResetEnv) (s : Device)

theorem resetDevice_intLine : (resetDevice env s).config cfgIntLine = s.config cfgIntLine := by
  unfold resetDevice
  split <;> simp [cfgIntLine, pci8311HsCapId]

theorem resetDevice_decode (enabled : (s.board.chip.regs pci8311FifoCtrlStat).getLsbD 0 = true) :
    ((resetDevice env s).board.chip.regs pci8311FifoCtrlStat).getLsbD 0 = true := by
  have read := s.getLsbD_read (by decide) (by decide) enabled
  unfold resetDevice
  rw [read]
  split <;> exact restoreDecode_decode _

/-- The code sees the EEPROM that is there. -/
theorem eepromStatus_of_present (present : s.EepromPresent) :
    s.eepromStatus.getLsbD 28 = true := by
  have read := s.getLsbD_read (by decide) (by decide) present
  simp [eepromStatus, read]

theorem resetDevice_hotSwap (present : s.EepromPresent) :
    (resetDevice env s).config pci8311HsCapId =
      s.config pci8311HsCapId &&& ~~~(bit 23 ||| bit 22 ||| bit 17) := by
  unfold resetDevice
  rw [if_pos (eepromStatus_of_present s present), writeConfig_config, Function.update_self]

/-- The power management register is as the reset and the EEPROM left it. -/
theorem resetDevice_powerMgmnt :
    (resetDevice env s).config pci8311PmCsr = (env.left s).config pci8311PmCsr := by
  unfold resetDevice
  split <;> simp [cfgIntLine, pci8311HsCapId, pci8311PmCsr]

theorem resetDevice_eeprom :
    (resetDevice env s).board.chip.regs pci8311EepromCtrlStat = s.eepromStatus := by
  have restored (muEnabled : Bool) (t : Device) :
      (restoreDecode muEnabled (t.writePlxReg pci8311EepromCtrlStat s.eepromStatus)).board.chip.regs
        pci8311EepromCtrlStat = s.eepromStatus := by
    rw [restoreDecode_regs_of_ne _ _ (by decide), writePlxReg_regs, Function.update_self]
  unfold resetDevice
  split <;> exact restored _ _

/-- A board reset restores what it saved if and only if there is no EEPROM, or the reset
and the EEPROM happen to leave the power management register as it is to be. -/
theorem plxBoardReset_restores_iff :
    (∃ t, plxBoardReset env s = some (.ok (), t) ∧ Restored s t) ↔
      (s.EepromPresent →
        (env.left s).config pci8311PmCsr = s.config pci8311PmCsr &&& ~~~(bit 15)) := by
  constructor
  · rintro ⟨t, run, restored⟩ present
    rw [plxBoardReset_eq] at run
    cases run
    rw [← resetDevice_powerMgmnt]
    exact restored.powerMgmnt present
  · intro left
    refine ⟨resetDevice env s, plxBoardReset_eq env s, ?_⟩
    exact {
      intLine := resetDevice_intLine env s
      decode := resetDevice_decode env s
      hotSwap := resetDevice_hotSwap env s
      powerMgmnt := fun present => (resetDevice_powerMgmnt env s).trans (left present)
      reset := by simp [resetDevice_eeprom, eepromStatus]
      reload := by simp [resetDevice_eeprom, eepromStatus] }

end

/-- A board with an EEPROM and the PME status bit (15) set, whose configuration registers
the reset does not change: the bit is still set after the call. -/
theorem plxBoardReset_powerMgmnt_lost :
    ¬ ∀ (env : ResetEnv) (s : Device),
      ∃ t, plxBoardReset env s = some (.ok (), t) ∧ Restored s t := by
  intro h
  let chip : Chip := { regs := fun offset => if offset = pci8311EepromCtrlStat then bit 28 else 0 }
  let s : Device :=
    { board := { chip := chip }
      config := fun offset => if offset = pci8311PmCsr then bit 15 else 0 }
  obtain ⟨t, run, restored⟩ := h {} s
  rw [plxBoardReset_eq] at run
  cases run
  have masked := restored.powerMgmnt (show (bit 28).getLsbD 28 = true by decide)
  rw [resetDevice_powerMgmnt] at masked
  exact absurd masked (by decide)

end Cjunk.Plx
