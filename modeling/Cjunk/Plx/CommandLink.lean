import Mathlib.Tactic.IntervalCases
import Cjunk.Lib.Routine
import Cjunk.Plx.Fops

/-!
# The PLX 8311 driver: the SPI command link

`plx_send_SPI`, `plx_immediate_cmd`, `plx_write_reg` and `plx_read_reg` of
`plx_driver.c`, each in its two builds.  Without `FASTER_CL` a command is sent byte by
byte, each through a write to `SPIM_DATA` once the link is ready for it (`Plain`); with
`FASTER_CL` it is sent by a single write to `SPIM_LW_DATA` and the FPGA does the rest
(`FasterCl`).

A wait polls `SPIM_STAT` until the bit it is for has come, or until the cycle counter
has passed the limit; what it finds at each turn, and what is shifted in at `SPIM_DATA`,
is the hardware's.  The board timer that `plx_immediate_cmd` reads for its trace is left
out with the trace.

`same_bytes` is the result: what the two builds put on the link is the same.
-/

namespace Cjunk.Plx

open Words Routine

/-! ## The registers of the link -/

def spimData : ℕ := 0x3000
def spimStat : ℕ := 0x3004
def spimLwData : ℕ := 0x3008

def spimStatRecvDataReady : U32 := 0x02
def spimStatTransmitDataEmpty : U32 := 0x01
def spimStatTbusy : U32 := 0x08
def spimStatRsd : U32 := 0x04

def xlNop : U32 := 0x00
def xlWc : U32 := 0x80
def xlRc : U32 := 0xc0
def xlExec : U32 := 0x09
def xlInit : U32 := 0x05
def xlStop : U32 := 0x0c

/-- One turn of a wait: the status it reads, and whether the limit has passed by then. -/
structure Poll where
  stat : U32
  late : Bool := false

structure Link where
  /-- What the turns of the waits find. -/
  polls : List Poll := []
  /-- What the reads of `SPIM_DATA` return. -/
  replies : List U32 := []
  cntrTmoRdr : U32 := 0
  cntrTmoTbe : U32 := 0
  /-- The command-link registers written, with their values, oldest first. -/
  written : List (ℕ × U32) := []

namespace Link

/-- `COMMAND_LINK_REG_WRITE`. -/
def regWrite (offset : ℕ) (value : U32) : Routine Link Unit :=
  modify fun s => { s with written := s.written ++ [(offset, value)] }

/-- `COMMAND_LINK_REG_READ` of `SPIM_DATA`. -/
def readData : Routine Link U32 :=
  fun s => some (.ok (s.replies.headD 0), { s with replies := s.replies.tail })

/-- `p->cntr_tmo_tbe++`. -/
def countTbe (s : Link) : Link := { s with cntrTmoTbe := s.cntrTmoTbe + 1 }

/-- `p->cntr_tmo_rdr++`. -/
def countRdr (s : Link) : Link := { s with cntrTmoRdr := s.cntrTmoRdr + 1 }

/-- The body of a wait loop; the limit is looked at before the status. -/
def pollLoop (done : U32 → Bool) : List Poll → Option (Bool × List Poll)
  | [] => none
  | poll :: polls =>
      if poll.late then some (false, polls)
      else if done poll.stat then some (true, polls)
      else pollLoop done polls

/-- A wait for `done`, which counts its timeouts with `expire`. -/
def waitFor (done : U32 → Bool) (expire : Link → Link) : Routine Link Unit := fun s =>
  match s.polls with
  | [] => none
  | poll :: polls =>
      if done poll.stat then some (.ok (), { s with polls := polls })
      else
        match pollLoop done polls with
        | none => none
        | some (true, polls) => some (.ok (), { s with polls := polls })
        | some (false, polls) => some (.error (-1), expire { s with polls := polls })

end Link

open Link

/-- `plx_chk_tbe`: transmit buffer empty. -/
def plxChkTbe : Routine Link Unit :=
  waitFor (fun stat => stat &&& spimStatTransmitDataEmpty ≠ 0) countTbe

/-- `plx_chk_tbusy`: the transmitter is idle. -/
def plxChkTbusy : Routine Link Unit := waitFor (fun stat => stat &&& spimStatTbusy = 0) countTbe

/-- `plx_chk_rsd`. -/
def plxChkRsd : Routine Link Unit := waitFor (fun stat => stat &&& spimStatRsd ≠ 0) countRdr

/-- `plx_chk_rdr_and_tbe`, which is content with one of the two. -/
def plxChkRdrAndTbe : Routine Link Unit :=
  waitFor (fun stat => stat &&& spimStatRecvDataReady ≠ 0 ∨ stat &&& spimStatTransmitDataEmpty ≠ 0)
    id

/-! ## Without `FASTER_CL` -/

namespace Plain

/-- `plx_chk_rdr`: receive data ready. -/
def plxChkRdr : Routine Link Unit := waitFor (fun stat => stat &&& spimStatRecvDataReady ≠ 0) id

/-- `plx_send_SPI`. -/
def plxSendSpi (data : U32) : Routine Link Unit := do
  waitFor (fun stat => stat &&& spimStatTransmitDataEmpty ≠ 0) id
  regWrite spimData data

/-- `plx_immediate_cmd`. -/
def plxImmediateCmd (data : U32) : Routine Link Unit := do
  orFail (-eNoDev) plxChkRdrAndTbe
  orFail (-eNoDev) (plxSendSpi data)

/-- `plx_write_reg`. -/
def plxWriteReg (adr data : U32) : Routine Link Unit := do
  orFail (-eNoDev) (plxSendSpi (xlWc ||| adr))
  orFail (-eNoDev) plxChkRdr
  orFail (-eNoDev) (plxSendSpi data)
  orFail (-eNoDev) plxChkRdr

/-- `plx_read_reg`. -/
def plxReadReg (adr : U32) : Routine Link U32 := do
  let _ ← readData -- pre (dummy) read to clear RDR
  orFail (-eNoDev) (plxSendSpi (xlRc ||| adr))
  orFail (-eNoDev) plxChkRdr
  let _ ← readData -- dummy read or shift in data
  orFail (-eNoDev) (plxSendSpi xlNop)
  orFail (-eNoDev) plxChkRdr
  let _ ← readData
  orFail (-eNoDev) (plxSendSpi xlNop)
  orFail (-eNoDev) plxChkRdr
  readData

end Plain

/-! ## With `FASTER_CL` -/

namespace FasterCl

/-- `plx_send_SPI`: number of bytes, 0, data and address or code.  A wrong code sends
nothing, and is no error. -/
def plxSendSpi (code adr data : U32) : Routine Link Unit :=
  if code = xlWc then
    regWrite spimLwData ((0x02#32 <<< 24) ||| ((0xff &&& data) <<< 8) ||| xlWc ||| (0xff &&& adr))
  else if code = xlRc then
    regWrite spimLwData ((0x03#32 <<< 24) ||| xlRc ||| (0xff &&& adr))
  else if code = xlExec ∨ code = xlStop ∨ code = xlInit ∨ code = xlNop then
    regWrite spimLwData ((0x01#32 <<< 24) ||| code)
  else pure ()

/-- `plx_immediate_cmd`. -/
def plxImmediateCmd (code : U32) : Routine Link Unit := do
  orFail (-eNoDev) plxChkTbe
  orFail (-eNoDev) (plxSendSpi code 0 0)

/-- `plx_write_reg`. -/
def plxWriteReg (adr data : U32) : Routine Link Unit := do
  orFail (-eNoDev) plxChkTbusy
  orFail (-eNoDev) (plxSendSpi xlWc adr data)

/-- `plx_read_reg`. -/
def plxReadReg (adr : U32) : Routine Link U32 := do
  orFail (-eNoDev) plxChkTbusy
  orFail (-eNoDev) (plxSendSpi xlRc adr 0)
  orFail (-eNoDev) plxChkRsd
  readData

end FasterCl

/-! ## What goes out on the link -/

/-- The bytes of a long word: as many as its top byte says, the low byte first. -/
def longWordBytes (word : U32) : List U8 :=
  (List.range (word >>> 24).toNat).map fun i => (word >>> (8 * i)).setWidth 8

/-- What a register write puts on the link: the low byte of the data register, or the
bytes of the long word. -/
def wireBytes (write : ℕ × U32) : List U8 :=
  if write.1 = spimData then [write.2.setWidth 8]
  else if write.1 = spimLwData then longWordBytes write.2
  else []

/-- The bytes put on the link so far. -/
def Link.bytes (s : Link) : List U8 := s.written.flatMap wireBytes

/-- The four immediate commands. -/
inductive Immediate where
  | nop
  | init
  | exec
  | stop
  deriving DecidableEq

def Immediate.code : Immediate → U32
  | .nop => xlNop
  | .init => xlInit
  | .exec => xlExec
  | .stop => xlStop

inductive LinkCommand where
  | writeReg (adr data : U32)
  | readReg (adr : U32)
  | immediate (cmd : Immediate)

namespace LinkCommand

/-- The bytes of a command. -/
def bytes : LinkCommand → List U8
  | .writeReg adr data => [(xlWc ||| adr).setWidth 8, data.setWidth 8]
  | .readReg adr => [(xlRc ||| adr).setWidth 8, xlNop.setWidth 8, xlNop.setWidth 8]
  | .immediate cmd => [cmd.code.setWidth 8]

/-- The command without `FASTER_CL`; a read returns what it reads. -/
def plain : LinkCommand → Routine Link (Option U32)
  | .writeReg adr data => do
      Plain.plxWriteReg adr data
      return none
  | .readReg adr => do
      return some (← Plain.plxReadReg adr)
  | .immediate cmd => do
      Plain.plxImmediateCmd cmd.code
      return none

/-- The command with `FASTER_CL`. -/
def fasterCl : LinkCommand → Routine Link (Option U32)
  | .writeReg adr data => do
      FasterCl.plxWriteReg adr data
      return none
  | .readReg adr => do
      return some (← FasterCl.plxReadReg adr)
  | .immediate cmd => do
      FasterCl.plxImmediateCmd cmd.code
      return none

end LinkCommand

/-! ## One specification for each routine -/

theorem regWrite_appends (offset : ℕ) (value : U32) :
    Appends Link.bytes (regWrite offset value) (wireBytes (offset, value)) := by
  rintro s t a ⟨⟩
  show (s.written ++ [(offset, value)]).flatMap wireBytes = _
  rw [List.flatMap_append, List.flatMap_singleton]
  rfl

theorem readData_appends : Appends Link.bytes readData [] := by
  rintro s t a ⟨⟩
  exact (List.append_nil _).symm

theorem waitFor_appends (done : U32 → Bool) (expire : Link → Link) :
    Appends Link.bytes (waitFor done expire) [] := by
  intro s t a h
  rw [List.append_nil]
  unfold waitFor at h
  split at h
  · cases h
  split at h
  · cases h
    rfl
  · split at h <;> cases h
    rfl

/-- A wait leaves nothing behind on the link. -/
theorem chk_appends {α : Type} {xs : List U8} {done : U32 → Bool} {expire : Link → Link}
    {f : Unit → Routine Link α} (rest : ∀ a, Appends Link.bytes (f a) xs) :
    Appends Link.bytes (orFail (-eNoDev) (waitFor done expire) >>= f) xs :=
  ((waitFor_appends done expire).orFail _).after rest

theorem Plain.plxSendSpi_appends (data : U32) :
    Appends Link.bytes (orFail (-eNoDev) (Plain.plxSendSpi data)) [data.setWidth 8] :=
  .orFail _ ((waitFor_appends _ _).after fun _ => regWrite_appends spimData data)

theorem Plain.plxImmediateCmd_appends (data : U32) :
    Appends Link.bytes (Plain.plxImmediateCmd data) [data.setWidth 8] :=
  chk_appends fun _ => Plain.plxSendSpi_appends data

theorem Plain.plxWriteReg_appends (adr data : U32) :
    Appends Link.bytes (Plain.plxWriteReg adr data)
      [(xlWc ||| adr).setWidth 8, data.setWidth 8] := by
  apply (Plain.plxSendSpi_appends _).bind
  intro _
  apply chk_appends
  intro _
  apply (Plain.plxSendSpi_appends data).bind
  intro _
  exact (waitFor_appends _ _).orFail _

theorem Plain.plxReadReg_appends (adr : U32) :
    Appends Link.bytes (Plain.plxReadReg adr)
      [(xlRc ||| adr).setWidth 8, xlNop.setWidth 8, xlNop.setWidth 8] := by
  apply readData_appends.after
  intro _
  apply (Plain.plxSendSpi_appends _).bind
  intro _
  apply chk_appends
  intro _
  apply readData_appends.after
  intro _
  apply (Plain.plxSendSpi_appends xlNop).bind
  intro _
  apply chk_appends
  intro _
  apply readData_appends.after
  intro _
  apply (Plain.plxSendSpi_appends xlNop).bind
  intro _
  apply chk_appends
  intro _
  exact readData_appends

/-! The long words of `FASTER_CL`, taken apart. -/

theorem longWordBytes_writeReg (adr data : U32) :
    longWordBytes ((0x02#32 <<< 24) ||| ((0xff &&& data) <<< 8) ||| xlWc ||| (0xff &&& adr)) =
      [(xlWc ||| adr).setWidth 8, data.setWidth 8] := by
  generalize word : ((0x02#32 <<< 24) ||| ((0xff &&& data) <<< 8) ||| xlWc ||| (0xff &&& adr)) = w
  have count : w >>> 24 = 2 := by
    rw [← word]
    ext i hi
    interval_cases i <;> simp [xlWc]
  have first : (w >>> (8 * 0)).setWidth 8 = (xlWc ||| adr).setWidth 8 := by
    rw [← word]
    ext i hi
    interval_cases i <;> simp [xlWc]
  have second : (w >>> (8 * 1)).setWidth 8 = data.setWidth 8 := by
    rw [← word]
    ext i hi
    interval_cases i <;> simp [xlWc]
  unfold longWordBytes
  rw [count]
  show [(w >>> (8 * 0)).setWidth 8, (w >>> (8 * 1)).setWidth 8] = _
  rw [first, second]

theorem longWordBytes_readReg (adr : U32) :
    longWordBytes ((0x03#32 <<< 24) ||| xlRc ||| (0xff &&& adr)) =
      [(xlRc ||| adr).setWidth 8, xlNop.setWidth 8, xlNop.setWidth 8] := by
  generalize word : ((0x03#32 <<< 24) ||| xlRc ||| (0xff &&& adr)) = w
  have count : w >>> 24 = 3 := by
    rw [← word]
    ext i hi
    interval_cases i <;> simp [xlRc]
  have first : (w >>> (8 * 0)).setWidth 8 = (xlRc ||| adr).setWidth 8 := by
    rw [← word]
    ext i hi
    interval_cases i <;> simp [xlRc]
  have zero : ∀ k, k = 1 ∨ k = 2 → (w >>> (8 * k)).setWidth 8 = xlNop.setWidth 8 := by
    rw [← word]
    rintro k (rfl | rfl) <;> ext i hi <;> interval_cases i <;> simp [xlRc, xlNop]
  unfold longWordBytes
  rw [count]
  show [(w >>> (8 * 0)).setWidth 8, (w >>> (8 * 1)).setWidth 8, (w >>> (8 * 2)).setWidth 8] = _
  rw [first, zero 1 (Or.inl rfl), zero 2 (Or.inr rfl)]

theorem FasterCl.plxImmediateCmd_appends (cmd : Immediate) :
    Appends Link.bytes (FasterCl.plxImmediateCmd cmd.code) [cmd.code.setWidth 8] := by
  apply chk_appends
  intro _
  apply Appends.orFail
  have sent : FasterCl.plxSendSpi cmd.code 0 0 =
      regWrite spimLwData ((0x01#32 <<< 24) ||| cmd.code) := by
    cases cmd <;> rfl
  have bytes : wireBytes (spimLwData, (0x01#32 <<< 24) ||| cmd.code) =
      [cmd.code.setWidth 8] := by
    cases cmd <;> rfl
  rw [sent, ← bytes]
  exact regWrite_appends _ _

theorem FasterCl.plxWriteReg_appends (adr data : U32) :
    Appends Link.bytes (FasterCl.plxWriteReg adr data)
      [(xlWc ||| adr).setWidth 8, data.setWidth 8] := by
  apply chk_appends
  intro _
  rw [← longWordBytes_writeReg adr data]
  exact (regWrite_appends spimLwData _).orFail _

theorem FasterCl.plxReadReg_appends (adr : U32) :
    Appends Link.bytes (FasterCl.plxReadReg adr)
      [(xlRc ||| adr).setWidth 8, xlNop.setWidth 8, xlNop.setWidth 8] := by
  apply chk_appends
  intro _
  have sent : Appends Link.bytes (orFail (-eNoDev) (FasterCl.plxSendSpi xlRc adr 0))
      [(xlRc ||| adr).setWidth 8, xlNop.setWidth 8, xlNop.setWidth 8] := by
    rw [← longWordBytes_readReg adr]
    exact (regWrite_appends spimLwData _).orFail _
  apply sent.bind
  intro _
  apply chk_appends
  intro _
  exact readData_appends

namespace LinkCommand

theorem plain_appends (c : LinkCommand) : Appends Link.bytes c.plain c.bytes := by
  cases c with
  | writeReg adr data =>
      exact (Plain.plxWriteReg_appends adr data).bind fun _ => Appends.pure none
  | readReg adr =>
      exact (Plain.plxReadReg_appends adr).bind fun read => Appends.pure (some read)
  | immediate cmd =>
      exact (Plain.plxImmediateCmd_appends cmd.code).bind fun _ => Appends.pure none

theorem fasterCl_appends (c : LinkCommand) : Appends Link.bytes c.fasterCl c.bytes := by
  cases c with
  | writeReg adr data =>
      exact (FasterCl.plxWriteReg_appends adr data).bind fun _ => Appends.pure none
  | readReg adr =>
      exact (FasterCl.plxReadReg_appends adr).bind fun read => Appends.pure (some read)
  | immediate cmd =>
      exact (FasterCl.plxImmediateCmd_appends cmd).bind fun _ => Appends.pure none

end LinkCommand

/-! ## When the waits succeed -/

/-- A turn that ends every wait. -/
def Poll.Ready (poll : Poll) : Prop :=
  poll.stat &&& spimStatTransmitDataEmpty ≠ 0 ∧ poll.stat &&& spimStatRecvDataReady ≠ 0 ∧
    poll.stat &&& spimStatRsd ≠ 0 ∧ poll.stat &&& spimStatTbusy = 0

/-- The link is ready whenever it is asked, at least `n` times. -/
def Link.ReadyFor (n : ℕ) (s : Link) : Prop := n ≤ s.polls.length ∧ ∀ poll ∈ s.polls, poll.Ready

theorem waitFor_succeeds {done : U32 → Bool} (expire : Link → Link)
    (ends : ∀ poll : Poll, poll.Ready → done poll.stat = true) :
    Succeeds Link.ReadyFor 1 (waitFor done expire) := by
  intro n s h
  obtain ⟨polls, ready⟩ := h
  cases turns : s.polls with
  | nil =>
      rw [turns] at polls
      exact absurd polls (by simp)
  | cons poll rest =>
      rw [turns] at polls ready
      refine ⟨(), { s with polls := rest }, ?_, ?_, fun p mem => ready p (.tail _ mem)⟩
      · unfold waitFor
        rw [turns]
        dsimp only
        rw [if_pos (ends poll (ready poll List.mem_cons_self))]
      · have fewer : n ≤ rest.length := by
          rw [List.length_cons] at polls
          omega
        exact fewer

section Succeeds

variable {α : Type} {done : U32 → Bool} {expire : Link → Link} {n : ℕ}

theorem chk_succeeds {f : Unit → Routine Link α}
    (ends : ∀ poll : Poll, poll.Ready → done poll.stat = true)
    (rest : ∀ a, Succeeds Link.ReadyFor n (f a)) :
    Succeeds Link.ReadyFor (1 + n) (orFail (-eNoDev) (waitFor done expire) >>= f) :=
  ((waitFor_succeeds expire ends).orFail _).bind rest

theorem regWrite_succeeds (offset : ℕ) (value : U32) :
    Succeeds Link.ReadyFor 0 (regWrite offset value) := by
  intro n s h
  rw [Nat.zero_add] at h
  exact ⟨(), _, rfl, h⟩

theorem readData_succeeds : Succeeds Link.ReadyFor 0 readData := by
  intro n s h
  rw [Nat.zero_add] at h
  exact ⟨_, _, rfl, h⟩

theorem ready_tbe (poll : Poll) (h : poll.Ready) :
    decide (poll.stat &&& spimStatTransmitDataEmpty ≠ 0) = true := decide_eq_true h.1

theorem ready_rdr (poll : Poll) (h : poll.Ready) :
    decide (poll.stat &&& spimStatRecvDataReady ≠ 0) = true := decide_eq_true h.2.1

theorem Plain.plxSendSpi_succeeds (data : U32) :
    Succeeds Link.ReadyFor 1 (orFail (-eNoDev) (Plain.plxSendSpi data)) :=
  .orFail _ ((waitFor_succeeds _ ready_tbe).bind fun _ => regWrite_succeeds _ _)

theorem FasterCl.plxSendSpi_succeeds (code adr data : U32) :
    Succeeds Link.ReadyFor 0 (orFail (-eNoDev) (FasterCl.plxSendSpi code adr data)) := by
  apply Succeeds.orFail
  unfold FasterCl.plxSendSpi
  split
  · exact regWrite_succeeds _ _
  split
  · exact regWrite_succeeds _ _
  split
  · exact regWrite_succeeds _ _
  · exact Succeeds.pure ()

end Succeeds

namespace LinkCommand

/-- The waits of a command, without and with `FASTER_CL`. -/
def waits : LinkCommand → ℕ × ℕ
  | .writeReg _ _ => (4, 1)
  | .readReg _ => (6, 2)
  | .immediate _ => (2, 1)

theorem plain_succeeds (c : LinkCommand) : Succeeds Link.ReadyFor c.waits.1 c.plain := by
  cases c with
  | writeReg adr data =>
      have routine : Succeeds Link.ReadyFor 4 (Plain.plxWriteReg adr data) := by
        apply (Plain.plxSendSpi_succeeds _).bind (n := 3)
        intro _
        apply chk_succeeds ready_rdr (n := 2)
        intro _
        apply (Plain.plxSendSpi_succeeds _).bind (n := 1)
        intro _
        exact (waitFor_succeeds _ ready_rdr).orFail _
      exact routine.bind fun _ => Succeeds.pure none
  | readReg adr =>
      have routine : Succeeds Link.ReadyFor 6 (Plain.plxReadReg adr) := by
        apply readData_succeeds.bind (n := 6)
        intro _
        apply (Plain.plxSendSpi_succeeds _).bind (n := 5)
        intro _
        apply chk_succeeds ready_rdr (n := 4)
        intro _
        apply readData_succeeds.bind (n := 4)
        intro _
        apply (Plain.plxSendSpi_succeeds _).bind (n := 3)
        intro _
        apply chk_succeeds ready_rdr (n := 2)
        intro _
        apply readData_succeeds.bind (n := 2)
        intro _
        apply (Plain.plxSendSpi_succeeds _).bind (n := 1)
        intro _
        apply chk_succeeds ready_rdr (n := 0)
        intro _
        exact readData_succeeds
      exact routine.bind fun read => Succeeds.pure (some read)
  | immediate cmd =>
      have both : ∀ poll : Poll, poll.Ready → decide (poll.stat &&& spimStatRecvDataReady ≠ 0 ∨
          poll.stat &&& spimStatTransmitDataEmpty ≠ 0) = true :=
        fun poll h => decide_eq_true (Or.inr h.1)
      have routine : Succeeds Link.ReadyFor 2 (Plain.plxImmediateCmd cmd.code) :=
        chk_succeeds both fun _ => Plain.plxSendSpi_succeeds _
      exact routine.bind fun _ => Succeeds.pure none

theorem fasterCl_succeeds (c : LinkCommand) : Succeeds Link.ReadyFor c.waits.2 c.fasterCl := by
  have tbusy : ∀ poll : Poll, poll.Ready → decide (poll.stat &&& spimStatTbusy = 0) = true :=
    fun poll h => decide_eq_true h.2.2.2
  have rsd : ∀ poll : Poll, poll.Ready → decide (poll.stat &&& spimStatRsd ≠ 0) = true :=
    fun poll h => decide_eq_true h.2.2.1
  cases c with
  | writeReg adr data =>
      have routine : Succeeds Link.ReadyFor 1 (FasterCl.plxWriteReg adr data) :=
        chk_succeeds tbusy fun _ => FasterCl.plxSendSpi_succeeds _ _ _
      exact routine.bind fun _ => Succeeds.pure none
  | readReg adr =>
      have routine : Succeeds Link.ReadyFor 2 (FasterCl.plxReadReg adr) := by
        apply chk_succeeds tbusy (n := 1)
        intro _
        apply (FasterCl.plxSendSpi_succeeds _ _ _).bind (n := 1)
        intro _
        apply chk_succeeds rsd (n := 0)
        intro _
        exact readData_succeeds
      exact routine.bind fun read => Succeeds.pure (some read)
  | immediate cmd =>
      have routine : Succeeds Link.ReadyFor 1 (FasterCl.plxImmediateCmd cmd.code) :=
        chk_succeeds ready_tbe fun _ => FasterCl.plxSendSpi_succeeds _ _ _
      exact routine.bind fun _ => Succeeds.pure none

/-- A command returns, without an error, when the link is ready for all its waits. -/
theorem returns_of_ready (c : LinkCommand) {s : Link} (ready : s.ReadyFor 6) :
    (∃ a t, c.plain s = some (.ok a, t)) ∧ ∃ a t, c.fasterCl s = some (.ok a, t) := by
  have most : c.waits.1 ≤ 6 ∧ c.waits.2 ≤ 6 := by
    cases c <;> simp [waits]
  constructor
  · rw [← Nat.add_sub_of_le most.1] at ready
    obtain ⟨a, t, returns, -⟩ := c.plain_succeeds _ s ready
    exact ⟨a, t, returns⟩
  · rw [← Nat.add_sub_of_le most.2] at ready
    obtain ⟨a, t, returns, -⟩ := c.fasterCl_succeeds _ s ready
    exact ⟨a, t, returns⟩

end LinkCommand

/-! ## The result -/

def idleLink : Link := { polls := List.replicate 6 { stat := 0x07 } }

/-- **One protocol.**  When a command succeeds in both builds, they have put its bytes on the
link, the same in both; and it succeeds in both when the link is ready for all its waits. -/
theorem same_bytes (c : LinkCommand) (s u : Link) :
    (∀ t v a b, c.plain s = some (.ok a, t) → c.fasterCl u = some (.ok b, v) →
      t.bytes = s.bytes ++ c.bytes ∧ v.bytes = u.bytes ++ c.bytes) ∧
    (s.ReadyFor 6 → u.ReadyFor 6 →
      (∃ a t, c.plain s = some (.ok a, t)) ∧ ∃ b v, c.fasterCl u = some (.ok b, v)) := by
  constructor
  · intro t v a b plain fasterCl
    exact ⟨c.plain_appends s t a plain, c.fasterCl_appends u v b fasterCl⟩
  · intro ready ready'
    exact ⟨(c.returns_of_ready ready).1, (c.returns_of_ready ready').2⟩

/-- A write with address and data bits above the byte. -/
theorem same_bytes_high : ∃ t v,
    (LinkCommand.writeReg 0x12345632 0xABCDEF41).plain idleLink = some (.ok none, t) ∧
    (LinkCommand.writeReg 0x12345632 0xABCDEF41).fasterCl idleLink = some (.ok none, v) ∧
    t.bytes = [0xb2, 0x41] ∧ v.bytes = [0xb2, 0x41] := by
  obtain ⟨plain, fasterCl⟩ :=
    (same_bytes (.writeReg 0x12345632 0xABCDEF41) idleLink idleLink).1 _ _ none none rfl rfl
  exact ⟨_, _, rfl, rfl, plain, fasterCl⟩

end Cjunk.Plx
