import Cjunk.Lib.Run
import Cjunk.Plx.BoardIo

/-!
# The PLX 8311 driver: `ioctl`

`plx_drv_ioctl` of `plx_ioctl.c`, with the command codes of `plx_drv.h`.  All calls share
one static buffer: the argument is copied in if the command's direction bits say so, the
command reads its operands from the buffer and leaves its results there, and the buffer
is copied out if the direction bits say so.

The build is that of a 32-bit kernel (`long` has four bytes), and `DMA_DEBUG` and `ZERO`
are not set.  What the kernel answers to `access_ok`, `copy_from_user` and `copy_to_user`
is part of a request.

`replies_agree_iff` is the result: which calls answer with what an earlier caller has
passed.
-/

namespace Cjunk.Plx.Ioctl

open Words Routine Device Run

def eIo : ℤ := 5
def eNotty : ℤ := 25
def eNoIoctlCmd : ℤ := 515

/-! ## Command codes -/

/-- `MAG_NUM`. -/
def magNum : ℕ := 0x6b

/-- `IOC_MAXNR`. -/
def iocMaxnr : ℕ := 52

/-- `IOC_BUFSIZE`. -/
def iocBufsize : ℕ := 128

/-- `_IOC`: the direction is 1 for `_IOC_WRITE` and 2 for `_IOC_READ`. -/
def ioc (dir nr size : ℕ) : U32 :=
  .ofNat 32 (dir <<< 30 ||| size <<< 16 ||| magNum <<< 8 ||| nr)

/-- `_IOC_DIR(cmd) & _IOC_READ`: the user reads. -/
def iocRead (cmd : U32) : Bool := cmd.getLsbD 31

/-- `_IOC_DIR(cmd) & _IOC_WRITE`: the user writes. -/
def iocWrite (cmd : U32) : Bool := cmd.getLsbD 30

/-- `_IOC_SIZE`. -/
def iocSize (cmd : U32) : ℕ := (cmd >>> 16 &&& 0x3fff).toNat

/-- `_IOC_TYPE`. -/
def iocType (cmd : U32) : ℕ := (cmd >>> 8 &&& 0xff).toNat

/-- `_IOC_NR`. -/
def iocNr (cmd : U32) : ℕ := (cmd &&& 0xff).toNat

/-- The commands of the switch. -/
inductive Command where
  | readConfigReg
  | driverVersion
  | writeFpgaReg
  | readFpgaReg
  | readCommandLinkReg
  | writeCommandLinkReg
  | immediateCommand
  | orderHw
  | writeSram
  | readPlxReg
  | writePlxReg
  | fillPciMem
  deriving DecidableEq

namespace Command

/-- The command codes; a `Register` has 8 bytes, a `Container` 72. -/
def code : Command → U32
  | readConfigReg => ioc 3 27 8
  | driverVersion => ioc 2 28 8
  | writeFpgaReg => ioc 1 29 8
  | readFpgaReg => ioc 3 30 8
  | readCommandLinkReg => ioc 3 31 8
  | writeCommandLinkReg => ioc 1 32 8
  | immediateCommand => ioc 1 33 4
  | orderHw => ioc 3 36 72
  | writeSram => ioc 1 37 8
  | readPlxReg => ioc 3 50 8
  | writePlxReg => ioc 1 51 8
  | fillPciMem => ioc 0 52 0

/-- The commands, in the order of the switch. -/
def all : List Command :=
  [readPlxReg, writePlxReg, fillPciMem, readFpgaReg, writeFpgaReg, writeSram,
    readCommandLinkReg, writeCommandLinkReg, immediateCommand, orderHw, driverVersion,
    readConfigReg]

/-- The case of the switch for `cmd`. -/
def ofCode (cmd : U32) : Option Command := all.find? fun c => c.code = cmd

theorem code_of_ofCode {cmd : U32} {c : Command} (h : ofCode cmd = some c) : c.code = cmd := by
  simpa using List.find?_some h

theorem ofCode_code (c : Command) : ofCode c.code = some c := by
  cases c <;> rfl

theorem code_injective : Function.Injective code := by
  intro c c' same
  have : some c = some c' := by rw [← ofCode_code c, ← ofCode_code c', same]
  exact Option.some.inj this

theorem iocSize_code (c : Command) : iocSize c.code ≤ iocBufsize := by
  cases c <;> decide

theorem number_code (c : Command) : ¬ (iocType c.code ≠ magNum ∨ iocMaxnr < iocNr c.code) := by
  cases c <;> decide

end Command

/-! ## State -/

/-- The device, its driver, and `localbuf`. -/
structure State where
  device : Device := {}
  localbuf : ℕ → U8 := fun _ => 0

/-- A call of `plx_drv_ioctl`, with what the kernel and the hardware answer to it. -/
structure Request where
  cmd : U32
  /-- `access_ok` holds for the argument. -/
  accessOk : Bool := true
  /-- The bytes the argument points to. -/
  user : ℕ → U8 := fun _ => 0
  /-- How many of them can be read, and how many can be written. -/
  readable : ℕ := iocBufsize
  writable : ℕ := iocBufsize
  reset : ResetEnv := {}

/-- What a call returns, and the bytes it has copied to the user. -/
structure Reply where
  retval : ℤ
  copied : List U8 := []
  deriving DecidableEq

/-- The word at byte `i` of the buffer, the low byte first. -/
def getWord (buf : ℕ → U8) (i : ℕ) : U32 := buf (i + 3) ++ buf (i + 2) ++ buf (i + 1) ++ buf i

/-- Store a word at byte `i`. -/
def putWord (i : ℕ) (value : U32) (buf : ℕ → U8) : ℕ → U8 := fun j =>
  if i ≤ j ∧ j < i + 4 then (value >>> (8 * (j - i))).setWidth 8 else buf j

/-- A word that has been stored is read back. -/
theorem getWord_putWord (i : ℕ) (value : U32) (buf : ℕ → U8) :
    getWord (putWord i value buf) i = value := by
  have byte : ∀ k < 4, putWord i value buf (i + k) = (value >>> (8 * k)).setWidth 8 := by
    intro k below
    unfold putWord
    rw [if_pos (by omega), Nat.add_sub_cancel_left]
  have first : putWord i value buf i = (value >>> (8 * 0)).setWidth 8 := byte 0 (by omega)
  unfold getWord
  rw [byte 3 (by omega), byte 2 (by omega), byte 1 (by omega), first]
  apply BitVec.eq_of_getLsbD_eq
  intro b hb
  rw [BitVec.getLsbD_append, BitVec.getLsbD_append, BitVec.getLsbD_append]
  interval_cases b <;> simp

/-- The bytes of a word that is read. -/
theorem byte_of_getWord (buf : ℕ → U8) (i : ℕ) {k : ℕ} (below : k < 4) :
    (getWord buf i >>> (8 * k)).setWidth 8 = buf (i + k) := by
  have bits : ∀ b < 8, (getWord buf i).getLsbD (8 * k + b) = (buf (i + k)).getLsbD b := by
    intro b within
    unfold getWord
    rw [BitVec.getLsbD_append, BitVec.getLsbD_append, BitVec.getLsbD_append]
    interval_cases k <;> interval_cases b <;> rfl
  apply BitVec.eq_of_getLsbD_eq
  intro b within
  rw [BitVec.getLsbD_setWidth, BitVec.getLsbD_ushiftRight, bits b within]
  simp [within]

/-- The bytes outside a word that is stored. -/
theorem putWord_of_outside {i j : ℕ} (outside : ¬ (i ≤ j ∧ j < i + 4)) (value : U32)
    (buf : ℕ → U8) : putWord i value buf j = buf j := if_neg outside

/-- A word that does not overlap the word that is stored. -/
theorem getWord_putWord_of_disjoint {i j : ℕ} (disjoint : i + 4 ≤ j ∨ j + 4 ≤ i) (value : U32)
    (buf : ℕ → U8) : getWord (putWord i value buf) j = getWord buf j := by
  unfold getWord
  rw [putWord_of_outside (by omega), putWord_of_outside (by omega),
    putWord_of_outside (by omega), putWord_of_outside (by omega)]

/-- What the driver does to the device. -/
def onDevice {α : Type} (m : Routine Device α) : Routine State α :=
  onPart State.device (fun d s => { s with device := d }) m

/-- The word at byte `i`: `reg->addr`, `*klong` and `container->order` are at 0,
`reg->data` and `container->start_addr` at 4. -/
def operand (i : ℕ) : Routine State U32 := asks fun s => getWord s.localbuf i

def store (i : ℕ) (value : U32) : Routine State Unit :=
  modify fun s => { s with localbuf := putWord i value s.localbuf }

/-- `reg->data = value;` -/
def setRegData (value : U32) : Routine State Unit := store 4 value

/-- `container->array[i] = value;` -/
def setArray (i : ℕ) (value : U32) : Routine State Unit := store (8 + 4 * i) value

/-! ## The commands -/

def deviceDriverVersion : U32 := 0x081216

/-- The counters in the order of `container->array`. -/
def counters (s : Device) : List U32 :=
  let dev := s.board.dev
  [dev.cntrCircEmptyRp, dev.cntrIrqCount, dev.cntrIrqProcessed, dev.cntrIrqNone,
    dev.cntrLowPowerState, dev.cntrPciMasterDisabled, dev.cntrLostInts, dev.cntrRead,
    dev.cntrPoll, dev.cntrFailedDma, dev.cntrCircFullWp, dev.cntrCircFullIp,
    dev.cntr2UserSpace, s.link.cntrTmoRdr, s.link.cntrTmoTbe, dev.cntrLostHwInts]

def clearCounters (s : Device) : Device :=
  { s with
    board := s.board.setDev fun d => { d with
      cntrCircEmptyRp := 0, cntrIrqCount := 0, cntrIrqProcessed := 0, cntrIrqNone := 0
      cntrLowPowerState := 0, cntrPciMasterDisabled := 0
      cntrRead := 0, cntrPoll := 0, cntrFailedDma := 0, cntr2UserSpace := 0
      cntrCircFullWp := 0, cntrLostInts := 0, cntrLostHwInts := 0, cntrCircFullIp := 0 }
    link := { s.link with cntrTmoRdr := 0, cntrTmoTbe := 0 } }

/-- The orders of `ORDER_HW`; the result is `retval`. -/
def order (env : ResetEnv) (number : U32) : Routine State ℤ :=
  match number.toNat with
  | 0x1 => do -- dump PCI memory
      (List.range 16).forM fun i => do
        let startAddr ← operand 4
        let tmp ← onDevice (sramRead (startAddr + .ofNat 32 (i * 4)))
        setArray i tmp
      return 0
  | 0x2 => do
      onDevice (plxBoardReset env)
      return 0
  | 0x3 => do -- read and clear the counters
      let values ← onDevice (asks counters)
      values.zipIdx.forM fun value => setArray value.2 value.1
      onDevice (modify clearCounters)
      return 0
  | 0x4 => return 0
  | 0x5 => return 0
  | 0x9 => do
      onDevice (modify (setBoard (Board.setDev · fun d => { d with wp := 0, rp := 0, ip := 0 })))
      return 0
  | 0xa => do
      onDevice (modify fun s => { s with debug := false })
      return 0
  | 0xb => do
      onDevice (modify fun s => { s with debug := true })
      return 0
  | 0xc => do -- reset the sequence counters
      onDevice (modify (setBoard (Board.setDev · fun d => { d with seqCntr := 0 })))
      onDevice (attempt (onLink (FasterCl.plxImmediateCmd xlInit)))
      return 0
  | 0xd => do -- generate a local interrupt
      let regDetectorInt ← onDevice (generalIoRead pciMcCardStatus)
      onDevice (generalIoWrite pciMcCardStatus (regDetectorInt ||| bit 29))
      return 0
  | _ => return -eFault

/-- The codes of `IMMEDIATE_COMMAND`; that of `XL_EXEC` has no `break`. -/
def immediate (klong : U32) : Routine State Unit :=
  let send := orFail (-eIo) (onDevice (onLink (FasterCl.plxImmediateCmd klong)))
  if klong = xlExec then do
    let _ ← onDevice plxDiffSinceRead
    send
  else if klong = xlNop ∨ klong = xlInit ∨ klong = xlStop then send
  else fail (-eFault)

/-- `return retval;`, if it is an error. -/
def failIfNegative (retval : ℤ) : Routine State Unit :=
  if retval < 0 then fail retval else pure ()

/-- `FILL_PCI_MEM`: the offsets count the four bytes of a `U32`. -/
def fillPciMem : Routine Device Unit := do
  memsetIo 0 0x11 (dmaSize / 4)
  memsetIo (4 * 0x2000) 0x22 (dmaSize / 4)
  memsetIo (4 * (0x2000 * 2)) 0x33 (dmaSize / 4)
  memsetIo (4 * (0x2000 * 3)) 0x44 (dmaSize / 4)

/-- The switch.  The case of `ORDER_HW` has no `break` and runs on into that of
`DRIVER_VERSION`. -/
def perform (env : ResetEnv) : Command → Routine State Unit
  | .readPlxReg => do
      let addr ← operand 0
      let data ← orFail (-eIo) (onDevice (plxReadPlxReg addr))
      setRegData data
  | .writePlxReg => do
      let addr ← operand 0
      let data ← operand 4
      orFail (-eIo) (onDevice (plxWritePlxReg addr data))
  | .fillPciMem => onDevice fillPciMem
  | .readFpgaReg => do
      let addr ← operand 0
      let data ← orFail (-eIo) (onDevice (plxReadFpgaReg addr))
      setRegData data
  | .writeFpgaReg => do
      let addr ← operand 0
      let data ← operand 4
      orFail (-eIo) (onDevice (plxWriteFpgaReg addr data))
  | .writeSram => do
      let addr ← operand 0
      let data ← operand 4
      orFail (-eIo) (onDevice (modify (setBoard fun s => plxWriteSram s addr.toNat data)))
  | .readCommandLinkReg => do
      let addr ← operand 0
      let data ← orFail (-eIo) (onDevice (onLink (FasterCl.plxReadReg addr)))
      setRegData data
  | .writeCommandLinkReg => do
      let addr ← operand 0
      let data ← operand 4
      orFail (-eIo) (onDevice (onLink (FasterCl.plxWriteReg addr data)))
  | .immediateCommand => do
      let klong ← operand 0
      immediate klong
  | .orderHw => do
      let number ← operand 0
      let retval ← order env number
      setRegData deviceDriverVersion
      failIfNegative retval
  | .driverVersion => setRegData deviceDriverVersion
  | .readConfigReg => do
      let addr ← operand 0
      let old ← operand 4
      let data ← onDevice (plxPciRegRead addr old)
      setRegData data

/-! ## The call -/

/-- The buffer after `copy_from_user`, which fills up with zeroes what it cannot read. -/
def copiedIn (req : Request) (buf : ℕ → U8) : ℕ → U8 := fun i =>
  if i < iocSize req.cmd then (if i < req.readable then req.user i else 0) else buf i

/-- The argument is copied in. -/
def retrieve (req : Request) : Routine State Unit :=
  if iocWrite req.cmd ∧ iocSize req.cmd ≤ iocBufsize then do
    modify fun s => { s with localbuf := copiedIn req s.localbuf }
    if req.readable < iocSize req.cmd then fail (-eFault)
  else pure ()

/-- The argument is copied in, and the command carried out. -/
def body (req : Request) : Routine State Unit := do
  retrieve req
  match Command.ofCode req.cmd with
  | some c => perform req.reset c
  | none => fail (-eNoIoctlCmd)

/-- The buffer is copied out. -/
def copyToUser (req : Request) (s : State) : Reply :=
  if iocRead req.cmd ∧ iocSize req.cmd ≤ iocBufsize then
    { retval := if req.writable < iocSize req.cmd then -eFault else 0
      copied := (List.range (min req.writable (iocSize req.cmd))).map s.localbuf }
  else { retval := 0 }

/-- The reply, once the switch has been left. -/
def answer (req : Request) : Except ℤ Unit × State → Reply × State
  | (.error e, t) => ({ retval := e }, t)
  | (.ok _, t) => (copyToUser req t, t)

/-- `plx_drv_ioctl`; `none` for a call that still waits for the command link. -/
def plxDrvIoctl (req : Request) (s : State) : Option (Reply × State) :=
  if iocType req.cmd ≠ magNum ∨ iocMaxnr < iocNr req.cmd then some ({ retval := -eNotty }, s)
  else if (iocRead req.cmd ∨ iocWrite req.cmd) ∧ ¬ req.accessOk then
    some ({ retval := -eFault }, s)
  else (body req s).map (answer req)

/-! ## Histories -/

/-- What happens to the driver: a call of `ioctl`, or anything else that the rest of the
driver and the hardware do to the device. -/
inductive Event where
  | ioctl (req : Request)
  | other (act : Device → Device)

def step (s : State) : Event → Option State
  | .ioctl req => (plxDrvIoctl req s).map Prod.snd
  | .other act => some { s with device := act s.device }

/-- The driver as it is loaded, on a device `d`. -/
def loaded (d : Device) : State := { device := d }

/-- The bytes a call copies back. -/
def copiedBack (req : Request) (s : State) : Option (List U8) :=
  (plxDrvIoctl req s).map fun result => result.1.copied

/-- After any two histories that leave the same device and driver state, a call copies
back the same bytes. -/
def RepliesAgree (d : Device) (req : Request) : Prop :=
  ∀ h₁ h₂ s₁ s₂, exec step (loaded d) h₁ = some s₁ → exec step (loaded d) h₂ = some s₂ →
    s₁.device = s₂.device → copiedBack req s₁ = copiedBack req s₂

/-! ## What a command depends on -/

/-- The same device, and the same first `n` bytes in the buffer. -/
def SameTo (n : ℕ) (s t : State) : Prop :=
  s.device = t.device ∧ ∀ i < n, s.localbuf i = t.localbuf i

section

variable {n : ℕ}

theorem onDevice_relates {α : Type} (m : Routine Device α) :
    Relates (SameTo n) (onDevice m) (SameTo n) :=
  .onPart (fun _ _ h => h.1) (fun _ _ _ h => ⟨rfl, h.2⟩) m

theorem operand_relates {i : ℕ} (below : i + 4 ≤ n) :
    Relates (SameTo n) (operand i) (SameTo n) := by
  apply Relates.asks
  rintro s t ⟨-, same⟩
  unfold getWord
  rw [same i (by omega), same (i + 1) (by omega), same (i + 2) (by omega),
    same (i + 3) (by omega)]

theorem store_relates (i : ℕ) (value : U32) :
    Relates (SameTo n) (store i value) (SameTo n) := by
  apply Relates.modify
  rintro s t ⟨device, same⟩
  refine ⟨device, fun j below => ?_⟩
  show putWord i value s.localbuf j = putWord i value t.localbuf j
  unfold putWord
  rw [same j below]

theorem order_relates (env : ResetEnv) (number : U32) (below : 8 ≤ n) :
    Relates (SameTo n) (order env number) (SameTo n) := by
  unfold order
  split
  · refine Relates.bind (.forM (fun i => ?_) _) fun _ => .pure _
    refine (operand_relates below).bind fun startAddr => ?_
    exact (onDevice_relates _).bind fun tmp => store_relates _ tmp
  · exact (onDevice_relates _).bind fun _ => .pure _
  · refine (onDevice_relates _).bind fun values => ?_
    refine Relates.bind (.forM (fun value => store_relates _ _) _) fun _ => ?_
    exact (onDevice_relates _).bind fun _ => .pure _
  · exact .pure _
  · exact .pure _
  · exact (onDevice_relates _).bind fun _ => .pure _
  · exact (onDevice_relates _).bind fun _ => .pure _
  · exact (onDevice_relates _).bind fun _ => .pure _
  · exact (onDevice_relates _).bind fun _ => (onDevice_relates _).bind fun _ => .pure _
  · exact (onDevice_relates _).bind fun _ => (onDevice_relates _).bind fun _ => .pure _
  · exact .pure _

theorem failIfNegative_relates (retval : ℤ) :
    Relates (SameTo n) (failIfNegative retval) (SameTo n) := by
  unfold failIfNegative
  split
  · exact .fail _
  · exact .pure _

theorem immediate_relates (klong : U32) :
    Relates (SameTo n) (immediate klong) (SameTo n) := by
  unfold immediate
  split_ifs
  · exact (onDevice_relates _).bind fun _ => (onDevice_relates _).orFail _
  · exact (onDevice_relates _).orFail _
  · exact .fail _

/-- A read of a register: the operand `addr` gives the result `data`. -/
theorem readReg_relates (read : U32 → Routine Device U32) (below : 8 ≤ n) :
    Relates (SameTo n)
      (do
        let addr ← operand 0
        let data ← orFail (-eIo) (onDevice (read addr))
        setRegData data) (SameTo n) := by
  refine (operand_relates (by omega)).bind fun addr => ?_
  exact ((onDevice_relates _).orFail _).bind fun data => store_relates _ data

/-- A write to a register: the operands are `addr` and `data`. -/
theorem writeReg_relates (write : U32 → U32 → Routine Device Unit) (below : 8 ≤ n) :
    Relates (SameTo n)
      (do
        let addr ← operand 0
        let data ← operand 4
        orFail (-eIo) (onDevice (write addr data))) (SameTo n) := by
  refine (operand_relates (by omega)).bind fun addr => ?_
  refine (operand_relates below).bind fun data => ?_
  exact (onDevice_relates _).orFail _

/-- A command depends on the device and on the operands it has been passed, and leaves
the rest of the buffer as it is. -/
theorem perform_relates (env : ResetEnv) (c : Command)
    (passed : c ≠ .driverVersion → iocSize c.code ≤ n) :
    Relates (SameTo n) (perform env c) (SameTo n) := by
  cases c with
  | readPlxReg => exact readReg_relates plxReadPlxReg (passed (by decide))
  | writePlxReg => exact writeReg_relates plxWritePlxReg (passed (by decide))
  | fillPciMem => exact onDevice_relates _
  | readFpgaReg => exact readReg_relates plxReadFpgaReg (passed (by decide))
  | writeFpgaReg => exact writeReg_relates plxWriteFpgaReg (passed (by decide))
  | writeSram => exact writeReg_relates _ (passed (by decide))
  | readCommandLinkReg => exact readReg_relates _ (passed (by decide))
  | writeCommandLinkReg => exact writeReg_relates _ (passed (by decide))
  | immediateCommand =>
      have below : 4 ≤ n := passed (by decide)
      refine (operand_relates (by omega)).bind fun klong => ?_
      exact immediate_relates klong
  | orderHw =>
      have below : 72 ≤ n := passed (by decide)
      refine (operand_relates (by omega)).bind fun number => ?_
      refine (order_relates env number (by omega)).bind fun retval => ?_
      exact (store_relates _ _).bind fun _ => failIfNegative_relates retval
  | driverVersion => exact store_relates _ _
  | readConfigReg =>
      have below : 8 ≤ n := passed (by decide)
      refine (operand_relates (by omega)).bind fun addr => ?_
      refine (operand_relates below).bind fun old => ?_
      exact (onDevice_relates _).bind fun data => store_relates _ data

/-- What is passed in does not depend on what was in the buffer. -/
theorem retrieve_relates (req : Request)
    (passed : n ≠ 0 → iocWrite req.cmd ∧ n ≤ iocSize req.cmd ∧ iocSize req.cmd ≤ iocBufsize) :
    Relates (SameTo 0) (retrieve req) (SameTo n) := by
  unfold retrieve
  split
  · refine Relates.bind (M := SameTo n) (.modify ?_) fun _ => ?_
    · rintro s t ⟨device, -⟩
      refine ⟨device, fun i below => ?_⟩
      have within : i < iocSize req.cmd := by
        have := (passed (by omega)).2.1
        omega
      show copiedIn req s.localbuf i = copiedIn req t.localbuf i
      rw [copiedIn, copiedIn, if_pos within, if_pos within]
    · split
      · exact .fail _
      · exact .pure _
  · rename_i not_passed
    have : n = 0 := by
      by_contra some_passed
      obtain ⟨write, -, fits⟩ := passed some_passed
      exact not_passed ⟨write, fits⟩
    rw [this]
    exact .pure _

end

/-- The bytes of the buffer that a command has been passed. -/
def passedIn (cmd : U32) : ℕ := if cmd = Command.driverVersion.code then 0 else iocSize cmd

theorem passedIn_of_ne {cmd : U32} (other : cmd ≠ Command.driverVersion.code) :
    passedIn cmd = iocSize cmd := if_neg other

/-- A command that reads operands has them passed in. -/
theorem iocWrite_of_passedIn (c : Command) (h : passedIn c.code ≠ 0) :
    iocWrite c.code = true ∧ passedIn c.code = iocSize c.code := by
  revert h
  cases c <;> decide

theorem body_relates (req : Request) :
    Relates (SameTo 0) (body req) (SameTo (passedIn req.cmd)) := by
  unfold body
  cases accepted : Command.ofCode req.cmd with
  | none => exact (retrieve_relates (n := 0) req fun h => absurd rfl h).bind fun _ => .fail _
  | some c =>
      have cmd : c.code = req.cmd := Command.code_of_ofCode accepted
      refine Relates.bind (retrieve_relates req fun passed => ?_) fun _ =>
        perform_relates req.reset c fun other => ?_
      · rw [← cmd] at passed ⊢
        obtain ⟨write, all⟩ := iocWrite_of_passedIn c passed
        exact ⟨write, all.le, c.iocSize_code⟩
      · rw [← cmd, passedIn_of_ne]
        exact fun same => other (Command.code_injective same)

theorem copyToUser_copied (req : Request) (s : State) : (copyToUser req s).copied =
    if iocRead req.cmd ∧ iocSize req.cmd ≤ iocBufsize then
      (List.range (min req.writable (iocSize req.cmd))).map s.localbuf
    else [] := by
  unfold copyToUser
  split_ifs <;> rfl

/-- What a call copies back is in the part of the buffer that it has been passed. -/
theorem copiedBack_congr {req : Request} {s t : State} (device : s.device = t.device)
    (ok : req.cmd = Command.driverVersion.code → req.accessOk = true → req.writable = 0) :
    copiedBack req s = copiedBack req t := by
  unfold copiedBack plxDrvIoctl
  split_ifs with number access
  · rfl
  · rfl
  have same := body_relates req s t ⟨device, fun i below => absurd below (Nat.not_lt_zero i)⟩
  obtain ⟨one, two⟩ | ⟨e, u, v, one, two⟩ | ⟨a, u, v, one, two, -, bytes⟩ := same
  · rw [one, two]
  · rw [one, two]
    rfl
  · rw [one, two]
    show some (copyToUser req u).copied = some (copyToUser req v).copied
    rw [copyToUser_copied, copyToUser_copied]
    split_ifs with read
    · refine congrArg some (List.map_congr_left fun i below => bytes i ?_)
      have below : i < req.writable ∧ i < iocSize req.cmd := by
        simpa using below
      by_cases version : req.cmd = Command.driverVersion.code
      · have := ok version (by simpa [read.1] using access)
        omega
      · rw [passedIn_of_ne version]
        exact below.2
    · rfl

/-! ## The argument -/

/-- What a command that is passed an argument finds in the buffer. -/
theorem retrieve_run {req : Request} (write : iocWrite req.cmd = true)
    (fits : iocSize req.cmd ≤ iocBufsize) (s : State) :
    retrieve req s = some
      (if req.readable < iocSize req.cmd then .error (-eFault) else .ok (),
        { s with localbuf := copiedIn req s.localbuf }) := by
  unfold retrieve
  rw [if_pos ⟨write, fits⟩, modify_bind_run, ite_run]
  split <;> rfl

/-- A byte of the argument. -/
theorem copiedIn_of_readable {req : Request} {i : ℕ} (readable : iocSize req.cmd ≤ req.readable)
    (within : i < iocSize req.cmd) (buf : ℕ → U8) : copiedIn req buf i = req.user i := by
  unfold copiedIn
  rw [if_pos within, if_pos (by omega)]

/-- A word of the argument. -/
theorem getWord_copiedIn {req : Request} {i : ℕ} (readable : iocSize req.cmd ≤ req.readable)
    (within : i + 4 ≤ iocSize req.cmd) (buf : ℕ → U8) :
    getWord (copiedIn req buf) i = getWord req.user i := by
  unfold getWord
  rw [copiedIn_of_readable readable (by omega), copiedIn_of_readable readable (by omega),
    copiedIn_of_readable readable (by omega), copiedIn_of_readable readable (by omega)]

/-! ## What an earlier caller leaves behind -/

theorem body_eq {req : Request} {c : Command} {s t : State} (cmd : req.cmd = c.code)
    (retrieved : retrieve req s = some (.ok (), t)) : body req s = perform req.reset c t := by
  unfold body
  rw [cmd, Command.ofCode_code]
  show Routine.bind (retrieve req) (fun _ => perform req.reset c) s = _
  unfold Routine.bind
  rw [retrieved]

/-- A command that is passed an argument, if it can be read. -/
theorem body_of_write {req : Request} {c : Command} (cmd : req.cmd = c.code)
    (write : iocWrite c.code = true) (s : State) : body req s =
      if req.readable < iocSize req.cmd then
        some (.error (-eFault), { s with localbuf := copiedIn req s.localbuf })
      else perform req.reset c { s with localbuf := copiedIn req s.localbuf } := by
  have retrieved := retrieve_run (cmd ▸ write) (cmd ▸ c.iocSize_code) s
  split_ifs with short
  · rw [if_pos short] at retrieved
    show Routine.bind (retrieve req) _ s = _
    unfold Routine.bind
    rw [retrieved]
  · rw [if_neg short] at retrieved
    exact body_eq cmd retrieved

theorem plxDrvIoctl_eq {req : Request} {c : Command} (cmd : req.cmd = c.code)
    (access : req.accessOk = true) (s : State) :
    plxDrvIoctl req s = (body req s).map (answer req) := by
  unfold plxDrvIoctl
  rw [cmd, if_neg c.number_code, if_neg fun h => h.2 access]

/-- A call whose argument can be read, and whose command succeeds. -/
theorem plxDrvIoctl_of_perform {req : Request} {c : Command} {s t : State}
    (cmd : req.cmd = c.code) (write : iocWrite c.code = true) (access : req.accessOk = true)
    (readable : iocSize req.cmd ≤ req.readable)
    (ran : perform req.reset c { s with localbuf := copiedIn req s.localbuf } = some (.ok (), t)) :
    plxDrvIoctl req s = some (copyToUser req t, t) := by
  have done : body req s = some (.ok (), t) := by
    rw [body_of_write cmd write, if_neg (not_lt.mpr readable)]
    exact ran
  rw [plxDrvIoctl_eq cmd access, done]
  rfl

/-- A call that is refused after its argument has been copied in: no immediate command
has the code whose bytes are all `b`. -/
def mark (b : U8) : Request := { cmd := Command.immediateCommand.code, user := fun _ => b }

theorem exec_mark (d : Device) {b : U8} (h : b = 1 ∨ b = 2) :
    exec step (loaded d) [.ioctl (mark b)] = some ⟨d, copiedIn (mark b) fun _ => 0⟩ := by
  have retrieved : retrieve (mark b) (loaded d) =
      some (.ok (), ⟨d, copiedIn (mark b) fun _ => 0⟩) := by
    rcases h with rfl | rfl <;> rfl
  have refused : perform {} .immediateCommand ⟨d, copiedIn (mark b) fun _ => 0⟩ =
      some (.error (-eFault), ⟨d, copiedIn (mark b) fun _ => 0⟩) := by
    show immediate (getWord (copiedIn (mark b) fun _ => 0) 0) _ = _
    rcases h with rfl | rfl
    · rw [show getWord (copiedIn (mark 1) fun _ => 0) 0 = 0x01010101 by decide]
      rfl
    · rw [show getWord (copiedIn (mark 2) fun _ => 0) 0 = 0x02020202 by decide]
      rfl
  have cmd : (mark b).cmd = Command.immediateCommand.code := rfl
  rw [exec_cons, step, plxDrvIoctl_eq cmd rfl, body_eq cmd retrieved]
  show Option.bind (((perform {} .immediateCommand _).map _).map _) _ = _
  rw [refused]
  rfl

/-- The version comes in the second word of the buffer; the first is as it was. -/
theorem copiedBack_version {req : Request} (cmd : req.cmd = Command.driverVersion.code)
    (access : req.accessOk = true) (s : State) :
    copiedBack req s = some ((List.range (min req.writable 8)).map
      (putWord 4 deviceDriverVersion s.localbuf)) := by
  have retrieved : retrieve req s = some (.ok (), s) := by
    unfold retrieve
    rw [cmd]
    rfl
  unfold copiedBack
  rw [plxDrvIoctl_eq cmd access, body_eq cmd retrieved]
  show some (copyToUser req _).copied = _
  rw [copyToUser_copied, cmd]
  rfl

/-- Two earlier callers have passed different first bytes, and `DRIVER_VERSION` hands
them on. -/
theorem copiedBack_marks_ne {req : Request} (cmd : req.cmd = Command.driverVersion.code)
    (access : req.accessOk = true) (some_copied : req.writable ≠ 0) (d : Device) :
    copiedBack req ⟨d, copiedIn (mark 1) fun _ => 0⟩ ≠
      copiedBack req ⟨d, copiedIn (mark 2) fun _ => 0⟩ := by
  rw [copiedBack_version cmd access, copiedBack_version cmd access]
  intro same
  obtain ⟨n, eq⟩ : ∃ n, min req.writable 8 = n + 1 := ⟨min req.writable 8 - 1, by omega⟩
  rw [eq, List.range_succ_eq_map, List.map_cons, List.map_cons] at same
  have first : putWord 4 deviceDriverVersion (copiedIn (mark 1) fun _ => 0) 0 =
      putWord 4 deviceDriverVersion (copiedIn (mark 2) fun _ => 0) 0 :=
    List.head_eq_of_cons_eq (Option.some.inj same)
  exact absurd first (by decide)

/-- A reply depends on the request and on the device and driver state alone, except that
of `DRIVER_VERSION` wherever any of it is copied back. -/
theorem replies_agree_iff (d : Device) (req : Request) :
    RepliesAgree d req ↔
      (req.cmd = Command.driverVersion.code → req.accessOk = true → req.writable = 0) := by
  constructor
  · intro agree cmd access
    by_contra some_copied
    exact copiedBack_marks_ne cmd access some_copied d
      (agree _ _ _ _ (exec_mark d (.inl rfl)) (exec_mark d (.inr rfl)) rfl)
  · intro ok h₁ h₂ s₁ s₂ _ _ device
    exact copiedBack_congr device ok

/-- `DRIVER_VERSION` passes nothing in, and returns the `addr` of an earlier caller. -/
theorem version_replies_differ : ¬ RepliesAgree {} { cmd := Command.driverVersion.code } := by
  intro agree
  refine copiedBack_marks_ne ?_ ?_ ?_ {} (agree [.ioctl (mark 1)] [.ioctl (mark 2)] _ _
    (exec_mark {} (.inl rfl)) (exec_mark {} (.inr rfl)) rfl)
  · rfl
  · rfl
  · decide

end Cjunk.Plx.Ioctl
