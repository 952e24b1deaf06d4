import Mathlib.Data.Int.Notation
import Cjunk.Plx.Interrupt

/-!
# The PLX 8311 driver: the system calls

`plx_drv_open`, `plx_drv_read`, `plx_drv_poll` and `plx_drv_release` of
`plx_fops.c`, with `plx_install_interrupt_handler` and
`plx_uninstall_interrupt_handler` of `plx_driver.c`.  What the kernel answers
(the allocations, `request_irq`, the interruptible waits, `copy_to_user`) is an
argument of each call.  The spin locks are left out: each call is one step.

A read that finds no frame sleeps.  While it does, the other contexts run, so a
wake-up brings the state they have left; `plx_drv_read` is a function of the
list of its wake-ups, with `none` for a call that is still asleep at their end.
-/

namespace Cjunk.Plx

open Words

def eAgain : ℤ := 11
def eFault : ℤ := 14
def eNoDev : ℤ := 19
def eRestartSys : ℤ := 512

/-! ## Open -/

/-- `plx_install_interrupt_handler`, where `request_irq` returns `rc`.  The
interrupts are enabled again whether or not there is a handler for them. -/
def plxInstallInterruptHandler (s : Board) (rc : ℤ) : PlxStatus × Board :=
  let s := plxChipInterruptsDisable s
  let s := plx9000RegWrite s pci8311DmaCommandStat
    (plx9000RegRead s pci8311DmaCommandStat ||| bit 11 ||| bit 3)
  let s := commandLinkRegWrite s pciMcCardStatus
    (commandLinkRegRead s pciMcCardStatus ||| bit 30)
  if s.dev.irq ≠ 0 ∧ rc = 0 then
    let s := { s with kern := { s.kern with handler := true } }
    let s := s.setDev fun d => { d with flagInterrupt := true }
    (.apiSuccess, plxChipInterruptsEnable s)
  else (.apiFailed, plxChipInterruptsEnable s)

/-- What the kernel answers to an open. -/
structure OpenEnv where
  /-- `dma_alloc_coherent` for each buffer: its addresses, or `NULL`. -/
  alloc : ℕ → Option (ℕ × U32)
  /-- What `request_irq` returns. -/
  requestIrq : ℤ

/-- `dev->OpenCount++`. -/
def countOpen (s : Board) : Board :=
  s.setDev fun d => { d with openCount := d.openCount + 1 }

/-- `plx_drv_open`. -/
def plxDrvOpen (s : Board) (env : OpenEnv) : ℤ × Board :=
  let s := countOpen s
  if 1 < s.dev.openCount then (0, s)
  else
    match plxDmaOpenChannel s 0 env.alloc with
    | (.apiSuccess, s) =>
        match plxInstallInterruptHandler s env.requestIrq with
        | (.apiSuccess, s) => (0, s)
        | (_, s) => (-eNoDev, s)
    | (_, s) => (-eNoDev, s)

/-! ## Read -/

/-- One return of `wait_event_interruptible`: a signal, or a wake-up that finds
the driver as the other contexts have left it; taking the semaphore again may be
interrupted. -/
inductive Wake where
  | signal
  | woken (s : Board) (interrupted : Bool)

/-- A call of `plx_drv_read`, with what the kernel answers to it. -/
structure ReadCall where
  len : ℕ
  /-- `O_NONBLOCK` is set. -/
  nonblock : Bool := false
  /-- The first `down_interruptible` is interrupted. -/
  interrupted : Bool := false
  wakes : List Wake := []
  /-- `copy_to_user` could not copy everything. -/
  copyFails : Bool := false

/-- `down` on `read_semph`. -/
def down (s : Board) : Board :=
  { s with kern := { s.kern with readSemph := s.kern.readSemph - 1 } }

/-- `up` on `read_semph`. -/
def up (s : Board) : Board :=
  { s with kern := { s.kern with readSemph := s.kern.readSemph + 1 } }

/-- How the waiting loop of `plx_drv_read` ends. -/
inductive Wait where
  /-- The call returns an error; the semaphore is not held. -/
  | giveUp (error : ℤ) (s : Board)
  /-- There is a frame; the semaphore is held. -/
  | frame (s : Board)

/-- The loop `while (dev->rp == dev->wp)` of `plx_drv_read`. -/
def waitForFrame (nonblock : Bool) : List Wake → Board → Option Wait
  | wakes, s =>
      if s.dev.rp = s.dev.wp then
        let s := up s
        if nonblock then some (.giveUp (-eAgain) s)
        else
          match wakes with
          | [] => none
          | .signal :: _ => some (.giveUp (-eRestartSys) s)
          | .woken t interrupted :: wakes =>
              if interrupted then some (.giveUp (-eRestartSys) t)
              else waitForFrame nonblock wakes (down t)
      else some (.frame s)

/-- The rest of `plx_drv_read`, with a frame to copy and the semaphore held. -/
def copyFrame (s : Board) (len : ℕ) (copyFails : Bool) : ℤ × Board :=
  if copyFails then (-eFault, up s)
  else
    let s := s.setDev fun d => { d with cntr2UserSpace := d.cntr2UserSpace + 1 }
    if s.dev.rp = s.dev.ip then
      -- "This should never occur!": it returns with the semaphore held
      (-eFault, s.setDev fun d => { d with cntrCircEmptyRp := d.cntrCircEmptyRp + 1 })
    else
      let s := s.setDev fun d => { d with rp := advance d.rp }
      (len, up s)

/-- `plx_drv_read`. -/
def plxDrvRead (s : Board) (call : ReadCall) : Option (ℤ × Board) :=
  if call.interrupted then some (-eRestartSys, s)
  else
    let s := down s
    let s := s.setDev fun d => { d with cntrRead := d.cntrRead + 1 }
    match waitForFrame call.nonblock call.wakes s with
    | none => none
    | some (.giveUp error s) => some (error, s)
    | some (.frame s) => some (copyFrame s call.len call.copyFails)

/-- `plx_drv_poll`: is there a frame to read (`POLLIN | POLLRDNORM`)? -/
def plxDrvPoll (s : Board) (interrupted : Bool) : ℤ × Board :=
  if interrupted then (-eRestartSys, s)
  else
    let s := down s
    if s.dev.rp ≠ s.dev.wp then
      (0x41, up (s.setDev fun d => { d with cntrPoll := d.cntrPoll + 1 }))
    else (0, up s)

/-! ## Release -/

/-- `plx_uninstall_interrupt_handler`. -/
def plxUninstallInterruptHandler (s : Board) : Board :=
  if s.dev.flagInterrupt = true then
    let s := plxChipInterruptsDisable s
    let s := { s with kern := { s.kern with handler := false } }
    s.setDev fun d => { d with flagInterrupt := false }
  else s

/-- `plx_drv_release`. -/
def plxDrvRelease (s : Board) : Board :=
  if s.dev.openCount = 0 then s
  else
    let s := s.setDev fun d => { d with openCount := d.openCount - 1 }
    if 0 < s.dev.openCount then s
    else
      let s := plxUninstallInterruptHandler s
      (plxDmaCloseChannel s 0 false).2

/-! ## What a read does to the ring -/

/-- A read that finds a frame goes straight on to copy it. -/
theorem plxDrvRead_frame {s : Board} {call : ReadCall} (going : call.interrupted = false)
    (frame : s.dev.rp ≠ s.dev.wp) :
    plxDrvRead s call = some (copyFrame
      ((down s).setDev fun d => { d with cntrRead := d.cntrRead + 1 })
      call.len call.copyFails) := by
  have found : waitForFrame call.nonblock call.wakes
      ((down s).setDev fun d => { d with cntrRead := d.cntrRead + 1 }) =
        some (.frame ((down s).setDev fun d => { d with cntrRead := d.cntrRead + 1 })) := by
    unfold waitForFrame
    exact if_neg frame
  unfold plxDrvRead
  rw [going, if_neg Bool.false_ne_true]
  dsimp only
  rw [found]

section CopyFrame

variable {s : Board} (len : ℕ)

theorem copyFrame_fault : copyFrame s len true = (-eFault, up s) := rfl

/-- The branch that "should never occur" fails without releasing the semaphore. -/
theorem copyFrame_met (met : s.dev.rp = s.dev.ip) :
    (copyFrame s len false).1 = -eFault ∧ (copyFrame s len false).2.ring = s.ring := by
  unfold copyFrame
  rw [if_neg Bool.false_ne_true]
  dsimp only
  split
  · exact ⟨rfl, rfl⟩
  · rename_i apart
    exact absurd met apart

/-- A completed read hands out the buffer of `rp` and advances `rp`. -/
theorem copyFrame_ok (apart : s.dev.rp ≠ s.dev.ip) :
    (copyFrame s len false).1 = len ∧
      (copyFrame s len false).2.ring =
        { s.ring.consume with readSemph := s.kern.readSemph + 1 } := by
  unfold copyFrame
  rw [if_neg Bool.false_ne_true]
  dsimp only
  split
  · rename_i met
    exact absurd met apart
  · exact ⟨rfl, rfl⟩

end CopyFrame

end Cjunk.Plx
