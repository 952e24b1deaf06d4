import Cjunk.Lib.Run
import Cjunk.Plx.Fops

/-!
# The PLX 8311 driver: sessions

A session is the driver at work with its channel open: local interrupts,
completed transfers, DPCs and reads, in any order.  Next to the board it records
what the driver cannot see and what the results are about: the contents of the
frame buffers, the transfer in flight, the completions no DPC has served yet, and
the frames completed, published and delivered so far.

The hardware runs one transfer at a time and raises one completion for each.  A
transfer remembers whether its interrupt reserved the buffer it is written to,
that is, whether `ip` was advanced past it.

`Effect` lists what a step can do; `step_effect` proves that list from the
driver's functions, and everything later is a case analysis on it.  The first
result, `cursorsInOrder_iff`, is about the order of the three pointers.
-/

namespace Cjunk.Plx

open Words Run RingBuffer

/-- What a frame buffer holds. -/
inductive Content where
  | unwritten
  /-- A transfer of this frame has been writing to it. -/
  | torn (frame : ℕ)
  | whole (frame : ℕ)
  deriving DecidableEq

/-- A transfer that was started, by the number of its frame. -/
structure Transfer where
  frame : ℕ
  /-- Its interrupt advanced `ip` past the buffer. -/
  reserved : Bool
  deriving DecidableEq

structure Session where
  board : Board
  /-- The buffers, by bus address. -/
  mem : U32 → Content := fun _ => .unwritten
  nextFrame : ℕ := 0
  inFlight : Option Transfer := none
  /-- Completed transfers whose DPC has not run yet. -/
  unserved : List Transfer := []
  /-- The frames whose transfer completed. -/
  completed : List ℕ := []
  /-- What the buffers held when `wp` was advanced over them. -/
  published : List Content := []
  /-- What successful reads handed out. -/
  delivered : List Content := []

inductive Action where
  /-- The interrupt handler runs and finds these register values. -/
  | localInterrupt (regPciInt regDetectorInt : U32)
  | dmaDone
  | dpc
  | read (call : ReadCall)

/-- The hardware announces an interrupt in its registers. -/
def announce (b : Board) (regPciInt regDetectorInt : U32) : Board :=
  { b with chip := { b.chip with
      regs := Function.update b.chip.regs pci8311IntCtrlStat regPciInt
      link := Function.update b.chip.link pciMcCardStatus regDetectorInt } }

namespace Session

/-- A run of the interrupt handler.  If it starts the engine, the hardware begins
to write the next frame. -/
def localInterrupt (s : Session) (regPciInt regDetectorInt : U32) : Session :=
  let b := (plxOnInterrupt (announce s.board regPciInt regDetectorInt)).2
  match s.board.chip.engine, b.chip.engine with
  | none, some target =>
      { s with
        board := b
        mem := Function.update s.mem target (.torn s.nextFrame)
        nextFrame := s.nextFrame + 1
        inFlight := some ⟨s.nextFrame, decide (b.dev.ip ≠ s.board.dev.ip)⟩ }
  | _, _ => { s with board := b }

/-- The engine finishes a transfer. -/
def dmaDone (s : Session) (transfer : Transfer) (target : U32) : Session :=
  { s with
    board := { s.board with chip := { s.board.chip with engine := none } }
    mem := Function.update s.mem target (.whole transfer.frame)
    inFlight := none
    unserved := s.unserved ++ [transfer]
    completed := s.completed ++ [transfer.frame] }

/-- The DPC serves a completion. -/
def dpc (s : Session) (rest : List Transfer) : Session :=
  let b := dpcDmaChannel0 s.board
  { s with
    board := b
    unserved := rest
    published := if b.dev.wp = s.board.dev.wp then s.published
      else s.published ++ [s.mem (s.board.dev.busAddresses s.board.dev.wp.toNat)] }

/-- A read returns; a successful one has handed out the buffer of `rp`. -/
def readReturns (s : Session) (result : ℤ) (b : Board) : Session :=
  { s with
    board := b
    delivered := if result < 0 then s.delivered
      else s.delivered ++ [s.mem (s.board.dev.busAddresses s.board.dev.rp.toNat)] }

/-- The transfers that were started and have not been served by a DPC, oldest
first. -/
def pending (s : Session) : List Transfer := s.unserved ++ s.inFlight.toList

/-- A session that has just been opened. -/
def Fresh (s : Session) : Prop :=
  (s.board.dev.rp = 0 ∧ s.board.dev.wp = 0 ∧ s.board.dev.ip = 0) ∧
    s.board.chip.lowPower = false ∧ s.board.chip.engine = none ∧ s.pending = []

end Session

/-- A step of a session.  A read that would sleep, on `rp = wp` or on the
semaphore, is not a step. -/
def step (s : Session) : Action → Option Session
  | .localInterrupt regPciInt regDetectorInt =>
      if LocalInterrupt (announce s.board regPciInt regDetectorInt) then
        some (s.localInterrupt regPciInt regDetectorInt)
      else none
  | .dmaDone =>
      match s.inFlight, s.board.chip.engine with
      | some transfer, some target => some (s.dmaDone transfer target)
      | _, _ => none
  | .dpc =>
      match s.unserved with
      | _ :: rest => some (s.dpc rest)
      | [] => none
  | .read call =>
      if s.board.dev.rp ≠ s.board.dev.wp ∧ 0 < s.board.kern.readSemph then
        (plxDrvRead s.board call).map fun (result, b) => s.readReturns result b
      else none

/-- A session on an open channel with eight buffers of `DMA_SIZE` bytes. -/
def newSession : Session where
  board :=
    { dev :=
        { dmaChannels := fun channel => channel = 0
          busAddresses := fun buffer => BitVec.ofNat 32 (buffer * dmaSize) } }

theorem newSession_fresh : newSession.Fresh := ⟨⟨rfl, rfl, rfl⟩, rfl, rfl, rfl⟩

/-- The detector has frame `n` ready: the interrupt register has bits 8, 11, 15 and
18 set, the card status bit 30 and the hardware buffer. -/
def frameReady (n : ℕ) : Action :=
  .localInterrupt 0x48900 (0x40000000 ||| BitVec.ofNat 32 (n % 4))

theorem Session.Fresh.at_zero {s : Session} (h : s.Fresh) : s.board.ring.At 0 0 0 := by
  obtain ⟨⟨rp, wp, ip⟩, -⟩ := h
  have high : 0 < 0 + noOfBuffers := by decide
  refine ⟨?_, ?_, ?_, le_rfl, high, le_rfl, high⟩
  · exact congrArg BitVec.toNat rp
  · exact congrArg BitVec.toNat wp
  · exact congrArg BitVec.toNat ip

/-! ## What a step can do -/

/-- The effect of each step, with the board known by its ring. -/
inductive Effect (s : Session) : Action → Session → Prop
  | started {regPciInt regDetectorInt : U32} {b : Board} (ready : s.board.ring.Ready)
      (ring : b.ring = s.board.ring.localInterrupt) :
      Effect s (.localInterrupt regPciInt regDetectorInt)
        { s with
          board := b
          mem := Function.update s.mem (s.board.ring.bus s.board.ring.ip.toNat)
            (.torn s.nextFrame)
          nextFrame := s.nextFrame + 1
          inFlight := some ⟨s.nextFrame, !decide (ReachedRead s.board.ring.ip s.board.ring.rp)⟩ }
  | refused {regPciInt regDetectorInt : U32} {b : Board} (busy : ¬ s.board.ring.Ready)
      (ring : b.ring = s.board.ring.localInterrupt) :
      Effect s (.localInterrupt regPciInt regDetectorInt) { s with board := b }
  | done {transfer : Transfer} {target : U32} (inFlight : s.inFlight = some transfer)
      (engine : s.board.ring.engine = some target) :
      Effect s .dmaDone (s.dmaDone transfer target)
  | served {transfer : Transfer} {rest : List Transfer} {b : Board}
      (unserved : s.unserved = transfer :: rest) (ring : b.ring = s.board.ring.publish) :
      Effect s .dpc
        { s with
          board := b
          unserved := rest
          published := if ReachedRead s.board.ring.wp s.board.ring.rp then s.published
            else s.published ++ [s.mem (s.board.ring.bus s.board.ring.wp.toNat)] }
  | readFailed {call : ReadCall} {b : Board} (ring : b.ring = s.board.ring) :
      Effect s (.read call) { s with board := b }
  | overrun {call : ReadCall} {b : Board} (frame : s.board.ring.rp ≠ s.board.ring.wp)
      (met : s.board.ring.rp = s.board.ring.ip)
      (ring : b.ring = { s.board.ring with readSemph := s.board.ring.readSemph - 1 }) :
      Effect s (.read call) { s with board := b }
  | readDone {call : ReadCall} {b : Board} (frame : s.board.ring.rp ≠ s.board.ring.wp)
      (apart : s.board.ring.rp ≠ s.board.ring.ip) (ring : b.ring = s.board.ring.consume) :
      Effect s (.read call)
        { s with
          board := b
          delivered := s.delivered ++ [s.mem (s.board.ring.bus s.board.ring.rp.toNat)] }

theorem localInterrupt_effect {s : Session} {regPciInt regDetectorInt : U32}
    (announced : LocalInterrupt (announce s.board regPciInt regDetectorInt)) :
    Effect s (.localInterrupt regPciInt regDetectorInt)
      (s.localInterrupt regPciInt regDetectorInt) := by
  have ring : (plxOnInterrupt (announce s.board regPciInt regDetectorInt)).2.ring =
      s.board.ring.localInterrupt := plxOnInterrupt_ring announced
  have engine := congrArg RingView.engine ring
  have moved : decide ((plxOnInterrupt (announce s.board regPciInt regDetectorInt)).2.dev.ip ≠
      s.board.dev.ip) = !decide (ReachedRead s.board.ring.ip s.board.ring.rp) := by
    rw [← decide_not, decide_eq_decide]
    rw [show (plxOnInterrupt (announce s.board regPciInt regDetectorInt)).2.dev.ip =
      s.board.ring.localInterrupt.ip from congrArg RingView.ip ring]
    exact s.board.ring.localInterrupt_ip_ne
  rw [RingView.localInterrupt_engine, RingView.transfer] at engine
  by_cases ready : s.board.ring.Ready
  · rw [if_pos ready] at engine
    have idle : s.board.chip.engine = none := ready.1
    have running : (plxOnInterrupt (announce s.board regPciInt regDetectorInt)).2.chip.engine =
      some (s.board.ring.bus s.board.ring.ip.toNat) := engine
    unfold Session.localInterrupt
    simp only [idle, running, moved]
    exact .started ready ring
  · rw [if_neg ready] at engine
    have same : s.localInterrupt regPciInt regDetectorInt =
        { s with board := (plxOnInterrupt (announce s.board regPciInt regDetectorInt)).2 } := by
      have unmoved : (plxOnInterrupt (announce s.board regPciInt regDetectorInt)).2.chip.engine =
        s.board.chip.engine := engine
      unfold Session.localInterrupt
      cases running : s.board.chip.engine with
      | none => simp only [unmoved, running]
      | some target => simp only
    rw [same]
    exact .refused ready ring

theorem dpc_effect {s : Session} {transfer : Transfer} {rest : List Transfer}
    (awake : s.board.ring.lowPower = false) (unserved : s.unserved = transfer :: rest) :
    Effect s .dpc (s.dpc rest) := by
  have ring : (dpcDmaChannel0 s.board).ring = s.board.ring.publish :=
    dpcDmaChannel0_ring awake
  have still : (dpcDmaChannel0 s.board).dev.wp = s.board.dev.wp ↔
      ReachedRead s.board.ring.wp s.board.ring.rp := by
    rw [show (dpcDmaChannel0 s.board).dev.wp = s.board.ring.publish.wp from
      congrArg RingView.wp ring]
    exact s.board.ring.publish_wp_eq
  unfold Session.dpc
  simp only [still]
  exact .served unserved ring

theorem read_effect {s : Session} {call : ReadCall} {result : ℤ} {b : Board}
    (frame : s.board.dev.rp ≠ s.board.dev.wp) (free : 0 < s.board.kern.readSemph)
    (returns : plxDrvRead s.board call = some (result, b)) :
    Effect s (.read call) (s.readReturns result b) := by
  have back : s.board.kern.readSemph - 1 + 1 = s.board.kern.readSemph :=
    Nat.sub_add_cancel free
  have failed : result < 0 → s.readReturns result b = { s with board := b } := by
    intro negative
    unfold Session.readReturns
    rw [if_pos negative]
  cases interrupted : call.interrupted with
  | true =>
      have same : some (-eRestartSys, s.board) = some (result, b) := by
        rw [← returns, plxDrvRead, interrupted, if_pos rfl]
      cases same
      rw [failed (by decide)]
      exact .readFailed rfl
  | false =>
      rw [plxDrvRead_frame interrupted frame, Option.some.injEq] at returns
      cases fails : call.copyFails with
      | true =>
          rw [fails, copyFrame_fault] at returns
          cases returns
          rw [failed (by decide)]
          -- only the semaphore was touched, and it is back
          apply Effect.readFailed
          unfold up down Board.setDev Board.ring
          rw [back]
      | false =>
          rw [fails] at returns
          by_cases met : s.board.dev.rp = s.board.dev.ip
          · obtain ⟨error, ring⟩ := copyFrame_met call.len
              (s := (down s.board).setDev fun d => { d with cntrRead := d.cntrRead + 1 }) met
            rw [returns] at error ring
            have error : result = -eFault := error
            rw [failed (by rw [error]; decide)]
            exact .overrun frame met ring
          · obtain ⟨length, ring⟩ := copyFrame_ok call.len
              (s := (down s.board).setDev fun d => { d with cntrRead := d.cntrRead + 1 }) met
            rw [returns] at length ring
            have length : result = call.len := length
            have success : ¬ result < 0 := by
              rw [length, Int.not_lt]
              exact Int.natCast_nonneg call.len
            have consumed : b.ring = s.board.ring.consume := by
              refine ring.trans ?_
              show { s.board.ring.consume with
                readSemph := s.board.kern.readSemph - 1 + 1 } = s.board.ring.consume
              rw [back]
              rfl
            unfold Session.readReturns
            rw [if_neg success]
            exact .readDone frame met consumed

/-- The effect of a step is one of the list. -/
theorem step_effect {s t : Session} {a : Action} (awake : s.board.ring.lowPower = false)
    (h : step s a = some t) : Effect s a t := by
  cases a with
  | localInterrupt regPciInt regDetectorInt =>
      dsimp only [step] at h
      split at h
      · rename_i announced
        cases h
        exact localInterrupt_effect announced
      · cases h
  | dmaDone =>
      dsimp only [step] at h
      split at h
      · rename_i transfer target inFlight engine
        cases h
        exact .done inFlight engine
      · cases h
  | dpc =>
      dsimp only [step] at h
      split at h
      · rename_i transfer rest unserved
        cases h
        exact dpc_effect awake unserved
      · cases h
  | read call =>
      dsimp only [step] at h
      split at h
      · rename_i enabled
        obtain ⟨⟨result, b⟩, returns, rfl⟩ := Option.map_eq_some_iff.mp h
        exact read_effect enabled.1 enabled.2 returns
      · cases h

/-- No step changes the buffers, the channels or the power state. -/
theorem Effect.sameDevice {s t : Session} {a : Action} (h : Effect s a t) :
    RingView.SameDevice s.board.ring t.board.ring := by
  cases h with
  | started ready ring => exact ring ▸ s.board.ring.localInterrupt_sameDevice
  | refused busy ring => exact ring ▸ s.board.ring.localInterrupt_sameDevice
  | done inFlight engine => exact ⟨rfl, rfl, rfl⟩
  | served unserved ring => exact ring ▸ s.board.ring.publish_sameDevice
  | readFailed ring => exact ring ▸ ⟨rfl, rfl, rfl⟩
  | overrun frame met ring => exact ring ▸ ⟨rfl, rfl, rfl⟩
  | readDone frame apart ring => exact ring ▸ ⟨rfl, rfl, rfl⟩

end Cjunk.Plx
