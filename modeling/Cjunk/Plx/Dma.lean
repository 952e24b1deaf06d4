import Cjunk.Plx.Device

/-!
# The PLX 8311 driver: the DMA channels

`plx_chip_dma_control`, `plx_dma_transfer_block`, `plx_dma_open_channel` and
`plx_dma_close_channel` of `plx_driver.c`.  A transfer is set up by register
writes and started by the last one; it is refused, with nothing written, when
the channel is busy or has not been opened.

The outcomes of `dma_alloc_coherent` are the kernel's: an opened channel takes
them as a function from the buffer number to the address it got, or `none`.
-/

namespace Cjunk.Plx

open Words

/-- The `PLX_STATUS` codes of the functions below. -/
inductive PlxStatus where
  | apiSuccess
  | apiFailed
  | apiDmaChannelUnavailable
  | apiDmaChannelInvalid
  | apiDmaDone
  | apiDmaPaused
  | apiDmaInProgress
  deriving DecidableEq

/-- `PLX_DMA_COMMAND`. -/
inductive PlxDmaCommand where
  | dmaPause
  | dmaResume
  | dmaAbort
  deriving DecidableEq

/-- `plx_chip_dma_control`. -/
def plxChipDmaControl (s : Board) (channel : ℕ) (command : PlxDmaCommand) :
    PlxStatus × Board :=
  if channel = 0 ∨ channel = 1 then
    let shift := channel * 8
    let regValue := plx9000RegRead s pci8311DmaCommandStat
    match command with
    | .dmaPause =>
        let s := plx9000RegWrite s pci8311DmaCommandStat (regValue &&& ~~~(bit (0 + shift)))
        let regValue := plx9000RegRead s pci8311DmaCommandStat
        if regValue.getLsbD (4 + shift) then (.apiDmaDone, s) else (.apiSuccess, s)
    | .dmaResume =>
        if regValue &&& (bit (4 + shift) ||| bit (0 + shift)) = 0 then
          (.apiSuccess, plx9000RegWrite s pci8311DmaCommandStat (regValue ||| bit (0 + shift)))
        else (.apiDmaInProgress, s)
    | .dmaAbort =>
        let s := plx9000RegWrite s pci8311DmaCommandStat
          (regValue &&& ~~~(bit (0 + shift)) &&& ~~~(bit (1 + shift)) &&&
            ~~~(bit (2 + shift)))
        let regValue := plx9000RegRead s pci8311DmaCommandStat
        if regValue.getLsbD (4 + shift) then (.apiDmaDone, s)
        else (.apiSuccess,
          plx9000RegWrite s pci8311DmaCommandStat (regValue ||| bit (2 + shift)))
  else (.apiDmaChannelInvalid, s)

/-! ## Transfers -/

/-- The register writes of `plx_dma_transfer_block` once its checks have passed:
mode, addresses, count and direction, then enable, then start.  The target is
the buffer of the interrupt pointer (`STEP_IN_INT`). -/
def startTransfer (s : Board) (currentHwBuf : U8) (offsetDmaMode shift : ℕ) : Board :=
  let regValue := plx9000RegRead s offsetDmaMode
  let regValue := regValue &&& ~~~(bit 9)
  let regValue := regValue ||| (bit 10 ||| bit 17)
  let s := plx9000RegWrite s offsetDmaMode regValue
  let s := plx9000RegWrite s (offsetDmaMode + 0x4) (s.dev.busAddresses s.dev.ip.toNat)
  let s := plx9000RegWrite s (offsetDmaMode + 0x8)
    (BitVec.ofNat 32 (localPciSramBase + currentHwBuf.toNat * dmaSize))
  let s := plx9000RegWrite s (offsetDmaMode + 0xc) (BitVec.ofNat 32 dmaSize)
  let s := plx9000RegWrite s (offsetDmaMode + 0x10) (bit 2 ||| bit 3)
  let regValue := plx9000RegRead s pci8311DmaCommandStat
  let s := plx9000RegWrite s pci8311DmaCommandStat (regValue ||| bit (0 + shift))
  plx9000RegWrite s pci8311DmaCommandStat (regValue ||| (bit (0 + shift) ||| bit (1 + shift)))

/-- `plx_dma_transfer_block`. -/
def plxDmaTransferBlock (s : Board) (currentHwBuf : U8) (channel : ℕ) :
    PlxStatus × Board :=
  if channel = 0 ∨ channel = 1 then
    let offsetDmaMode := if channel = 0 then pci8311Dma0Mode else pci8311Dma1Mode
    let shift := channel * 8
    let regValue := plx9000RegRead s pci8311DmaCommandStat
    if regValue.getLsbD (4 + shift) = false then (.apiDmaInProgress, s)
    else if s.dev.dmaChannels channel = false then (.apiDmaChannelUnavailable, s)
    else (.apiSuccess, startTransfer s currentHwBuf offsetDmaMode shift)
  else (.apiDmaChannelInvalid, s)

/-- A transfer on channel 0 will be accepted: no transfer is in progress and the
channel has been opened. -/
def DmaReady (s : Board) : Prop :=
  s.chip.engine = none ∧ s.dev.dmaChannels 0 = true

instance (s : Board) : Decidable (DmaReady s) :=
  inferInstanceAs (Decidable (s.chip.engine = none ∧ s.dev.dmaChannels 0 = true))

@[simp] theorem startTransfer_dev (s : Board) (buf : U8) (offset shift : ℕ) :
    (startTransfer s buf offset shift).dev = s.dev := rfl

@[simp] theorem startTransfer_kern (s : Board) (buf : U8) (offset shift : ℕ) :
    (startTransfer s buf offset shift).kern = s.kern := rfl

/-- Setting up a transfer leaves the interrupt register alone. -/
@[simp] theorem startTransfer_intCtrl (s : Board) (buf : U8) (i : ℕ) :
    (startTransfer s buf pci8311Dma0Mode 0).intCtrl i = s.intCtrl i := by
  simp [startTransfer, Board.intCtrl, pci8311IntCtrlStat, pci8311Dma0Mode,
    pci8311DmaCommandStat]

/-- A transfer started on an idle engine writes to the buffer of `ip`. -/
theorem startTransfer_engine {s : Board} (awake : s.chip.lowPower = false)
    (idle : s.chip.engine = none) (buf : U8) :
    (startTransfer s buf pci8311Dma0Mode 0).chip.engine =
      some (s.dev.busAddresses s.dev.ip.toNat) := by
  simp [startTransfer, Chip.dmaCommand, plx9000RegRead, awake, idle, plx9000RegWrite,
    pci8311Dma0Mode, pci8311DmaCommandStat, pci8311Dma0PciAddr, dmaCommandBits]

/-- A refused transfer changes nothing. -/
theorem plxDmaTransferBlock_refused {s : Board} (awake : s.chip.lowPower = false)
    (busy : ¬ DmaReady s) (buf : U8) :
    (plxDmaTransferBlock s buf 0).1 ≠ .apiSuccess ∧ (plxDmaTransferBlock s buf 0).2 = s := by
  have status := dmaStatus_done awake
  cases engine : s.chip.engine with
  | some target => simp [plxDmaTransferBlock, status, engine]
  | none =>
      have closed : s.dev.dmaChannels 0 = false := by
        simpa [DmaReady, engine] using busy
      simp [plxDmaTransferBlock, status, engine, closed]

/-- An accepted transfer has been started. -/
theorem plxDmaTransferBlock_accepted {s : Board} (awake : s.chip.lowPower = false)
    (ready : DmaReady s) (buf : U8) :
    plxDmaTransferBlock s buf 0 = (.apiSuccess, startTransfer s buf pci8311Dma0Mode 0) := by
  have status := dmaStatus_done awake
  simp [plxDmaTransferBlock, status, ready.1, ready.2]

/-- A transfer is refused, which changes nothing, or it has been started. -/
theorem plxDmaTransferBlock_cases (s : Board) (buf : U8) (channel : ℕ) :
    (plxDmaTransferBlock s buf channel).2 = s ∨
      ∃ offset shift, (plxDmaTransferBlock s buf channel).2 = startTransfer s buf offset shift := by
  unfold plxDmaTransferBlock
  dsimp only
  split
  · split
    · exact .inl rfl
    · split
      · exact .inl rfl
      · exact .inr ⟨_, _, rfl⟩
  · exact .inl rfl

@[simp] theorem plxDmaTransferBlock_dev (s : Board) (buf : U8) (channel : ℕ) :
    (plxDmaTransferBlock s buf channel).2.dev = s.dev := by
  rcases plxDmaTransferBlock_cases s buf channel with same | ⟨offset, shift, started⟩
  · rw [same]
  · rw [started, startTransfer_dev]

@[simp] theorem plxDmaTransferBlock_kern (s : Board) (buf : U8) (channel : ℕ) :
    (plxDmaTransferBlock s buf channel).2.kern = s.kern := by
  rcases plxDmaTransferBlock_cases s buf channel with same | ⟨offset, shift, started⟩
  · rw [same]
  · rw [started, startTransfer_kern]

/-- Starting or refusing a transfer leaves the interrupt register alone. -/
@[simp] theorem plxDmaTransferBlock_intCtrl (s : Board) (buf : U8) (i : ℕ) :
    (plxDmaTransferBlock s buf 0).2.intCtrl i = s.intCtrl i := by
  unfold plxDmaTransferBlock
  dsimp only
  rw [if_pos (Or.inl rfl)]
  split
  · rfl
  · split <;> simp

/-! ## Opening and closing a channel -/

/-- The allocation loop of `plx_dma_open_channel`, with `n` buffers to go from
buffer `r` on.  It stops at the first `dma_alloc_coherent` that returns `NULL`
and gives nothing back. -/
def allocFrames (alloc : ℕ → Option (ℕ × U32)) : ℕ → ℕ → Board → PlxStatus × Board
  | 0, _, s => (.apiSuccess, s)
  | n + 1, r, s =>
      match alloc r with
      | none =>
          (.apiFailed,
            { s with dev := { s.dev with frames := Function.update s.dev.frames r 0 } })
      | some (frame, bus) =>
          allocFrames alloc n (r + 1)
            { s with
              dev := { s.dev with
                frames := Function.update s.dev.frames r frame
                busAddresses := Function.update s.dev.busAddresses r bus }
              kern := { s.kern with coherent := s.kern.coherent ++ [frame] } }

section AllocFrames

variable (alloc : ℕ → Option (ℕ × U32)) (n r : ℕ) (s : Board)

/-- The allocation loop changes the buffers' addresses and what is allocated. -/
theorem allocFrames_state : ∃ frames bus held, (allocFrames alloc n r s).2 =
    { s with
      dev := { s.dev with frames := frames, busAddresses := bus }
      kern := { s.kern with coherent := held } } := by
  induction n generalizing r s with
  | zero => exact ⟨s.dev.frames, s.dev.busAddresses, s.kern.coherent, rfl⟩
  | succ n ih =>
      rw [allocFrames]
      cases alloc r with
      | none => exact ⟨_, s.dev.busAddresses, s.kern.coherent, rfl⟩
      | some buffer =>
          obtain ⟨frames, bus, held, same⟩ := ih (r + 1) _
          exact ⟨frames, bus, held, same⟩

theorem allocFrames_status : (allocFrames alloc n r s).1 = .apiSuccess ↔
    ∀ k, r ≤ k → k < r + n → (alloc k).isSome := by
  induction n generalizing r s with
  | zero =>
      refine ⟨fun _ k low high => ?_, fun _ => rfl⟩
      omega
  | succ n ih =>
      rw [allocFrames]
      cases first : alloc r with
      | none =>
          refine ⟨fun h => PlxStatus.noConfusion h, fun all => ?_⟩
          have := all r (Nat.le_refl r) (by omega)
          rw [first] at this
          exact Bool.noConfusion this
      | some buffer =>
          rw [ih]
          constructor
          · intro all k low high
            rcases Nat.eq_or_lt_of_le low with rfl | above
            · rw [first]
              rfl
            · exact all k above (by omega)
          · exact fun all k low high => all k (by omega) (by omega)

/-- The buffers the loop has passed stay as they are. -/
theorem allocFrames_keeps {k : ℕ} (passed : k < r) (held : s.dev.frames k ∈ s.kern.coherent) :
    (allocFrames alloc n r s).2.dev.frames k ∈ (allocFrames alloc n r s).2.kern.coherent := by
  induction n generalizing r s with
  | zero => exact held
  | succ n ih =>
      rw [allocFrames]
      cases alloc r with
      | none =>
          show Function.update s.dev.frames r 0 k ∈ s.kern.coherent
          rw [Function.update_of_ne (Nat.ne_of_lt passed)]
          exact held
      | some buffer =>
          apply ih (r + 1) _ (Nat.lt_succ_of_lt passed)
          show Function.update s.dev.frames r buffer.1 k ∈ s.kern.coherent ++ [buffer.1]
          rw [Function.update_of_ne (Nat.ne_of_lt passed)]
          exact List.mem_append_left _ held

/-- A loop that gets to its end has allocated every buffer. -/
theorem allocFrames_held (success : (allocFrames alloc n r s).1 = .apiSuccess) :
    ∀ k, r ≤ k → k < r + n →
      (allocFrames alloc n r s).2.dev.frames k ∈ (allocFrames alloc n r s).2.kern.coherent := by
  induction n generalizing r s with
  | zero =>
      intro k low high
      omega
  | succ n ih =>
      intro k low high
      rw [allocFrames] at success ⊢
      cases first : alloc r with
      | none =>
          rw [first] at success
          exact PlxStatus.noConfusion success
      | some buffer =>
          rw [first] at success
          rcases Nat.eq_or_lt_of_le low with rfl | above
          · apply allocFrames_keeps alloc n (r + 1) _ (Nat.lt_succ_self r)
            show Function.update s.dev.frames r buffer.1 r ∈ s.kern.coherent ++ [buffer.1]
            rw [Function.update_self]
            exact List.mem_append_right _ (List.mem_singleton_self _)
          · exact ih (r + 1) _ success k above (by omega)

end AllocFrames

/-- The registers `plx_dma_open_channel` sets up: the arbitration, an abort of
any ongoing transfer, the mode of the channel and its interrupt enable. -/
def setupChannel (s : Board) (channel : ℕ) : Board :=
  let shift := channel * 8
  let s := plx9000RegWrite s pci8311DmaArbit (plx9000RegRead s pci8311DmaArbit ||| bit 18)
  let regValue := plx9000RegRead s pci8311DmaCommandStat
  let s := plx9000RegWrite s pci8311DmaCommandStat (regValue &&& ~~~(bit (0 + shift)))
  let s := plx9000RegWrite s pci8311DmaCommandStat (regValue ||| bit (2 + shift))
  let s := plx9000RegWrite s pci8311DmaCommandStat (regValue ||| bit (0 + shift))
  let regValue := bit 10 ||| bit 17 ||| 3 ||| bit 6 ||| bit 7 ||| bit 8
  let s := if channel = 0 then
      plx9000RegWrite (plx9000RegWrite s pci8311Dma0Mode regValue) pci8311Dma0PciDac 0
    else
      plx9000RegWrite (plx9000RegWrite s pci8311Dma1Mode regValue) pci8311Dma1PciDac 0
  plxSynchronizedRegisterModify s pci8311IntCtrlStat
    (if channel = 0 then bit 18 else bit 19) 0

@[simp] theorem setupChannel_dev (s : Board) (channel : ℕ) :
    (setupChannel s channel).dev = s.dev := by
  unfold setupChannel
  dsimp only
  split <;> rfl

@[simp] theorem setupChannel_kern (s : Board) (channel : ℕ) :
    (setupChannel s channel).kern = s.kern := by
  unfold setupChannel
  dsimp only
  split <;> rfl

/-- What `plx_dma_open_channel` does before it allocates: it marks the channel open,
sets it up and resets the pointers. -/
def claimChannel (s : Board) (channel : ℕ) : Board :=
  let s := s.setDev fun d =>
    { d with dmaChannels := Function.update d.dmaChannels channel true }
  let s := setupChannel s channel
  s.setDev fun d => { d with hwBuffCheck := 0, rp := 0, wp := 0, ip := 0 }

/-- `plx_dma_open_channel`. -/
def plxDmaOpenChannel (s : Board) (channel : ℕ) (alloc : ℕ → Option (ℕ × U32)) :
    PlxStatus × Board :=
  if s.dev.dmaChannels channel = true then (.apiDmaChannelUnavailable, s)
  else allocFrames alloc noOfBuffers 0 (claimChannel s channel)

/-- The loop of `plx_dma_close_channel` that gives the buffers back. -/
def freeFrames (s : Board) : Board :=
  let free := fun (held : List ℕ) i => held.erase (s.dev.frames i)
  { s with kern := { s.kern with
      coherent := (List.range noOfBuffers).foldl free s.kern.coherent } }

/-- `plx_dma_close_channel`. -/
def plxDmaCloseChannel (s : Board) (channel : ℕ) (bCheckInProgress : Bool) :
    PlxStatus × Board :=
  if s.dev.dmaChannels channel = false then (.apiDmaChannelUnavailable, s)
  else
    let regValue := plx9000RegRead s pci8311DmaCommandStat
    let regValue := if channel = 1 then regValue >>> 8 else regValue
    let inProgress := regValue.getLsbD 4 = false
    if inProgress ∧ bCheckInProgress = true then
      (if regValue.getLsbD 0 then .apiDmaInProgress else .apiDmaPaused, s)
    else
      let s := if inProgress then (plxChipDmaControl s channel .dmaAbort).2 else s
      let s := s.setDev fun d =>
        { d with dmaChannels := Function.update d.dmaChannels channel false }
      (.apiSuccess, freeFrames s)

end Cjunk.Plx
