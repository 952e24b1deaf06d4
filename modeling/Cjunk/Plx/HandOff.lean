import Cjunk.Plx.Lifecycle

/-!
# Handing interrupts over to the DPC

`plx_on_interrupt` leaves its work in a single field, `Source_Ints`, which the DPC reads
when the work queue gets to it.  What keeps a second interrupt from overwriting the field
is the master interrupt enable, bit 8 of `PCI8311_INT_CTRL_STAT`: the service routine
clears it before it stores, and the DPC sets it at its end.

Within a session the service routine runs at any time, between any two parts of the DPC,
and finds any hardware status; the other contexts of the driver may do anything that
leaves the interrupt register, `Source_Ints` and the queue alone, and may put the chip to
sleep.  The service routine looks for the `0xFFFFFFFF` that a sleeping chip reads as; the
DPC does not, and in clearing the local interrupt of a sleeping chip it writes back a
register with the master enable set.

`handedOver_iff` is the result: a run keeps the hand-off in order exactly if its DPCs clear
the local interrupt of a chip that is awake.  The history is kept next to the board: what
the service routine has recorded and what the DPC has read, oldest first.
-/

namespace Cjunk.Plx

open Words Run

/-! ## The parts of the DPC -/

/-- What the DPC still has to do, in this order. -/
inductive DpcPart where
  | localInt
  | dma0
  | dma1
  | enable
  deriving DecidableEq

/-- One part of `plx_dpc_for_isr`, with the sources it has read. -/
def dpcPart (s : Board) (sourceInts : U32) : DpcPart → Board
  | .localInt =>
      if sourceInts &&& intrTypeLocal ≠ 0 then
        plxSynchronizedRegisterModify s pci8311IntCtrlStat 0 (bit 11) else s
  | .dma0 => if sourceInts &&& intrTypeDma0 ≠ 0 then dpcDmaChannel0 s else s
  | .dma1 => if sourceInts &&& intrTypeDma1 ≠ 0 then alertRead s 1 else s
  | .enable => plxChipInterruptsEnable s

def DpcPart.next : DpcPart → Option DpcPart
  | .localInt => some .dma0
  | .dma0 => some .dma1
  | .dma1 => some .enable
  | .enable => none

/-- The work queue takes the DPC. -/
def dequeueDpc (s : Board) : Board := { s with kern := { s.kern with workPending := false } }

/-- The parts make up the DPC. -/
theorem plxDpcForIsr_parts (s : Board) : plxDpcForIsr s =
    [DpcPart.localInt, .dma0, .dma1, .enable].foldl
      (fun t part => dpcPart t s.dev.sourceInts part) (dequeueDpc s) := rfl

/-! ## What the service routine records -/

/-- The sources `scheduleDpc` stores, if there are any. -/
def scheduled (s : Board) (regPciInt interruptSource : U32) : Option U32 :=
  let interruptSource := if dmaInterrupt s regPciInt 21 18 pci8311Dma0Mode then
    interruptSource ||| intrTypeDma0 else interruptSource
  let interruptSource := if dmaInterrupt s regPciInt 22 19 pci8311Dma1Mode then
    interruptSource ||| intrTypeDma1 else interruptSource
  if interruptSource = intrTypeNone then none else some interruptSource

/-- The value a run of `plx_on_interrupt` stores in `Source_Ints`; only one of its five
ways out gets there. -/
def handedOff (s : Board) : Option U32 :=
  let regPciInt := plx9000RegRead s pci8311IntCtrlStat
  if regPciInt = 0xFFFFFFFF then none
  else if regPciInt.getLsbD 8 = false then none
  else
    let regDetectorInt := commandLinkRegRead s pciMcCardStatus
    if regPciInt.getLsbD 15 && regPciInt.getLsbD 11 && regDetectorInt.getLsbD 30 then
      let s := onLocalInterrupt s regDetectorInt
      if ReachedRead s.dev.ip s.dev.rp then none
      else scheduled (s.setDev fun d => { d with ip := advance d.ip }) regPciInt intrTypeLocal
    else scheduled s regPciInt intrTypeNone

/-! ## The machine -/

structure HandOff where
  board : Board
  /-- The DPC that is running: its next part, and the sources it has read. -/
  running : Option (DpcPart × U32) := none
  /-- What the service routine has stored in `Source_Ints`. -/
  recorded : List U32 := []
  /-- What the DPC has read from `Source_Ints`. -/
  served : List U32 := []

/-- The interrupt register, `Source_Ints` and the work queue are as they were. -/
def HandOffUntouched (s t : Board) : Prop :=
  t.chip.regs pci8311IntCtrlStat = s.chip.regs pci8311IntCtrlStat ∧
    t.dev.sourceInts = s.dev.sourceInts ∧ t.kern.workPending = s.kern.workPending

instance (s t : Board) : Decidable (HandOffUntouched s t) := by
  unfold HandOffUntouched
  infer_instance

inductive HandOffAction where
  /-- The service routine runs and finds these register values. -/
  | onInterrupt (lowPower : Bool) (status card : U32)
  /-- The DPC goes on: it is taken off the queue, or does its next part. -/
  | dpc
  /-- Another context leaves the board like this. -/
  | others (board : Board)

namespace HandOff

def onInterrupt (s : HandOff) (b : Board) : HandOff :=
  { s with board := (plxOnInterrupt b).2, recorded := s.recorded ++ (handedOff b).toList }

/-- The DPC reads `Source_Ints`. -/
def dpcStarts (s : HandOff) : HandOff :=
  { s with
    board := dequeueDpc s.board
    running := some (.localInt, s.board.dev.sourceInts)
    served := s.served ++ [s.board.dev.sourceInts] }

def dpcGoesOn (s : HandOff) (part : DpcPart) (sourceInts : U32) : HandOff :=
  { s with
    board := dpcPart s.board sourceInts part
    running := part.next.map fun next => (next, sourceInts) }

def step (s : HandOff) : HandOffAction → Option HandOff
  | .onInterrupt lowPower status card =>
      some (s.onInterrupt (raiseInterrupt s.board lowPower status card))
  | .dpc =>
      match s.running with
      | some (part, sourceInts) => some (s.dpcGoesOn part sourceInts)
      | none => if s.board.kern.workPending then some s.dpcStarts else none
  | .others board => if HandOffUntouched s.board board then some { s with board := board } else none

/-- The interrupts are enabled exactly while no DPC is queued or running, and then so is
the local interrupt; no DPC is queued while one runs; and what the DPC has not read yet of
the sources recorded is the one value in `Source_Ints`. -/
structure HandedOver (s : HandOff) : Prop where
  master : s.board.intCtrl 8 = false ↔ s.board.kern.workPending = true ∨ s.running.isSome
  localInt : s.board.intCtrl 8 = true → s.board.intCtrl 11 = true
  once : ¬ (s.board.kern.workPending = true ∧ s.running.isSome)
  notLost : s.recorded =
    s.served ++ if s.board.kern.workPending = true then [s.board.dev.sourceInts] else []
  /-- A running DPC works on the value read last. -/
  reads : ∀ part sourceInts, s.running = some (part, sourceInts) →
    s.served.getLast? = some sourceInts

/-- The next part of the DPC clears the local interrupt. -/
def ClearsLocalInt (s : HandOff) : Prop :=
  ∃ current ∈ s.running, current.1 = .localInt ∧ current.2 &&& intrTypeLocal ≠ 0

instance (s : HandOff) : Decidable s.ClearsLocalInt := by
  unfold ClearsLocalInt
  infer_instance

/-- The DPC does not clear the local interrupt of a sleeping chip. -/
def ClearsAwake (s : HandOff) : HandOffAction → Prop
  | .dpc => s.ClearsLocalInt → s.board.chip.lowPower = false
  | _ => True

instance (s : HandOff) : ∀ a, Decidable (s.ClearsAwake a)
  | .dpc => inferInstanceAs (Decidable (s.ClearsLocalInt → s.board.chip.lowPower = false))
  | .onInterrupt _ _ _ => .isTrue trivial
  | .others _ => .isTrue trivial

end HandOff

/-! ## What the service routine does to the hand-off -/

/-- The part of the board the hand-off is about. -/
structure HandOffView where
  master : Bool
  localInt : Bool
  sourceInts : U32
  workPending : Bool

def Board.handOff (s : Board) : HandOffView :=
  { master := s.intCtrl 8, localInt := s.intCtrl 11, sourceInts := s.dev.sourceInts,
    workPending := s.kern.workPending }

/-- The hardware does not touch the interrupt enables. -/
theorem raiseInterrupt_handOff (s : Board) (lowPower : Bool) (status card : U32) :
    (raiseInterrupt s lowPower status card).handOff = s.handOff := by
  unfold Board.handOff
  rw [raiseInterrupt_intCtrl s lowPower status card (by decide : ownedBits.getLsbD 8 = true),
    raiseInterrupt_intCtrl s lowPower status card (by decide : ownedBits.getLsbD 11 = true)]
  rfl

theorem HandOffUntouched.handOff {s t : Board} (h : HandOffUntouched s t) :
    t.handOff = s.handOff := by
  obtain ⟨register, source, pending⟩ := h
  unfold Board.handOff Board.intCtrl
  rw [register, source, pending]

theorem onLocalInterrupt_handOff (s : Board) (regDetectorInt : U32) :
    (onLocalInterrupt s regDetectorInt).handOff = s.handOff := by
  obtain ⟨_, _, _, _, _, _, dev, kern, intCtrl⟩ := onLocalInterrupt_state s regDetectorInt
  unfold Board.handOff
  rw [dev, kern, intCtrl, intCtrl]

/-- Once something is handed off, the interrupts are disabled and the DPC is queued. -/
def HandOffView.Queued (v : HandOffView) (source : U32) : Prop :=
  v.master = false ∧ v.sourceInts = source ∧ v.workPending = true

theorem queueDpc_handOff (s : Board) (source : U32) :
    (queueDpc s source).handOff.Queued source :=
  ⟨queueDpc_intCtrl s source, rfl, rfl⟩

theorem scheduleDpc_handOff (s : Board) (regPciInt interruptSource : U32) :
    (scheduled s regPciInt interruptSource = none ∧
      (scheduleDpc s regPciInt interruptSource).2.handOff = s.handOff) ∨
    ∃ source, scheduled s regPciInt interruptSource = some source ∧
      (scheduleDpc s regPciInt interruptSource).2.handOff.Queued source := by
  unfold scheduled scheduleDpc
  dsimp only
  generalize (if dmaInterrupt s regPciInt 22 19 pci8311Dma1Mode then _ else _) = source
  by_cases none : source = intrTypeNone
  · rw [if_pos none, if_pos none]
    exact Or.inl ⟨rfl, rfl⟩
  · rw [if_neg none, if_neg none]
    exact Or.inr ⟨source, rfl, queueDpc_handOff s source⟩

/-- The service routine hands nothing off and leaves the hand-off alone, or it finds the
interrupts enabled and hands off what it has recorded. -/
theorem plxOnInterrupt_handOff (s : Board) :
    (handedOff s = none ∧ (plxOnInterrupt s).2.handOff = s.handOff) ∨
    ∃ source, handedOff s = some source ∧ s.intCtrl 8 = true ∧
      (plxOnInterrupt s).2.handOff.Queued source := by
  unfold handedOff plxOnInterrupt
  dsimp only
  split
  · exact Or.inl ⟨rfl, rfl⟩
  rename_i awake
  split
  · exact Or.inl ⟨rfl, rfl⟩
  rename_i enabled
  have master : s.intCtrl 8 = true := by
    rw [intCtrlStat_read_of_ne awake] at enabled
    exact (Bool.not_eq_false _).mp enabled
  split
  · have started := onLocalInterrupt_handOff s (commandLinkRegRead s pciMcCardStatus)
    split
    · exact Or.inl ⟨rfl, started⟩
    · rcases scheduleDpc_handOff ((onLocalInterrupt s (commandLinkRegRead s
        pciMcCardStatus)).setDev fun d => { d with ip := advance d.ip })
        (plx9000RegRead s pci8311IntCtrlStat) intrTypeLocal with ⟨none, same⟩ |
          ⟨source, some, queued⟩
      · exact Or.inl ⟨none, same.trans started⟩
      · exact Or.inr ⟨source, some, master, queued⟩
  · rcases scheduleDpc_handOff s (plx9000RegRead s pci8311IntCtrlStat) intrTypeNone with
      ⟨none, same⟩ | ⟨source, some, queued⟩
    · exact Or.inl ⟨none, same⟩
    · exact Or.inr ⟨source, some, master, queued⟩

/-! ## What the DPC does to the hand-off -/

theorem publishFrame_handOff (s : Board) : (publishFrame s).handOff = s.handOff := by
  unfold publishFrame
  dsimp only
  split <;> rfl

theorem clearDmaInterrupt_handOff (s : Board) (shift : ℕ) :
    (clearDmaInterrupt s shift).handOff = s.handOff := by
  have other : pci8311DmaCommandStat ≠ pci8311IntCtrlStat := by decide
  unfold clearDmaInterrupt Board.handOff
  rw [plx9000RegWrite_intCtrl _ other, plx9000RegWrite_intCtrl _ other]
  rfl

/-- Clearing the local interrupt leaves the master enable alone, if the chip is awake. -/
theorem clearLocalInt_handOff {s : Board} (awake : s.chip.lowPower = false) :
    (plxSynchronizedRegisterModify s pci8311IntCtrlStat 0 (bit 11)).handOff =
      { s.handOff with localInt := false } := by
  have register : ∀ i < 32, (plxSynchronizedRegisterModify s pci8311IntCtrlStat 0
      (bit 11)).intCtrl i = (s.intCtrl i && !(bit 11 : U32).getLsbD i) := by
    intro i lt
    unfold plxSynchronizedRegisterModify Board.intCtrl
    dsimp only
    rw [intCtrlStat_read awake, plx9000RegWrite_regs, Function.update_self, BitVec.getLsbD_and,
      BitVec.getLsbD_or, BitVec.getLsbD_not, decide_eq_true lt, Bool.true_and,
      show (0 : U32).getLsbD i = false from BitVec.getLsbD_zero, Bool.or_false]
  have master : (bit 11 : U32).getLsbD 8 = false := by decide
  have localInt : (bit 11 : U32).getLsbD 11 = true := by decide
  unfold Board.handOff
  rw [register 8 (by decide), register 11 (by decide), master, localInt, Bool.not_false,
    Bool.and_true, Bool.not_true, Bool.and_false]
  rfl

/-- Until its last part the DPC changes nothing of the hand-off but the local interrupt
enable, if it clears that of a chip that is awake. -/
theorem dpcPart_handOff {s : Board} {sourceInts : U32} {part : DpcPart} (more : part ≠ .enable)
    (awake : part = .localInt → sourceInts &&& intrTypeLocal ≠ 0 → s.chip.lowPower = false) :
    ∃ localInt,
      (dpcPart s sourceInts part).handOff = { s.handOff with localInt := localInt } := by
  cases part with
  | localInt =>
      unfold dpcPart
      dsimp only
      split
      · rename_i clears
        exact ⟨false, clearLocalInt_handOff (awake rfl clears)⟩
      · exact ⟨_, rfl⟩
  | dma0 =>
      unfold dpcPart
      dsimp only
      split
      · exact ⟨_, (publishFrame_handOff _).trans (clearDmaInterrupt_handOff s 0)⟩
      · exact ⟨_, rfl⟩
  | dma1 =>
      unfold dpcPart
      dsimp only
      split
      · rw [alertRead, if_pos (Or.inr rfl)]
        exact ⟨_, (publishFrame_handOff _).trans (clearDmaInterrupt_handOff s 8)⟩
      · exact ⟨_, rfl⟩
  | enable => exact absurd rfl more

/-- The last part enables the master and the local interrupt. -/
theorem dpcPart_enable (s : Board) (sourceInts : U32) :
    (dpcPart s sourceInts .enable).handOff =
      { s.handOff with master := true, localInt := true } := by
  have localInt : (plxChipInterruptsEnable s).intCtrl 11 = true := by
    simp [Board.intCtrl, plxChipInterruptsEnable, plxSynchronizedRegisterModify]
  unfold dpcPart Board.handOff
  dsimp only
  rw [intCtrl_plxChipInterruptsEnable, localInt]
  rfl

/-! ## The invariant -/

namespace HandOff

section

variable {s t : HandOff}

/-- What changes nothing of the hand-off keeps it. -/
theorem HandedOver.of_handOff (h : s.HandedOver) (same : t.board.handOff = s.board.handOff)
    (running : t.running = s.running) (recorded : t.recorded = s.recorded)
    (served : t.served = s.served) : t.HandedOver := by
  have master : t.board.intCtrl 8 = s.board.intCtrl 8 := congrArg HandOffView.master same
  have localInt : t.board.intCtrl 11 = s.board.intCtrl 11 := congrArg HandOffView.localInt same
  have source : t.board.dev.sourceInts = s.board.dev.sourceInts :=
    congrArg HandOffView.sourceInts same
  have pending : t.board.kern.workPending = s.board.kern.workPending :=
    congrArg HandOffView.workPending same
  constructor
  · rw [master, pending, running]
    exact h.master
  · rw [master, localInt]
    exact h.localInt
  · rw [pending, running]
    exact h.once
  · rw [recorded, served, pending, source]
    exact h.notLost
  · rw [running, served]
    exact h.reads

theorem HandedOver.onInterrupt {b : Board} (h : s.HandedOver)
    (raised : b.handOff = s.board.handOff) : (s.onInterrupt b).HandedOver := by
  unfold HandOff.onInterrupt
  rcases plxOnInterrupt_handOff b with ⟨none, same⟩ | ⟨source, some, enabled, queued⟩
  · generalize (plxOnInterrupt b).2 = after at same ⊢
    refine h.of_handOff (same.trans raised) rfl ?_ rfl
    rw [none]
    exact List.append_nil _
  · -- the interrupts were enabled, so nothing was queued or running
    generalize (plxOnInterrupt b).2 = after at queued ⊢
    rw [show b.intCtrl 8 = s.board.intCtrl 8 from congrArg HandOffView.master raised] at enabled
    have free : ¬ (s.board.kern.workPending = true ∨ s.running.isSome) := by
      rw [← h.master, enabled]
      exact Bool.noConfusion
    obtain ⟨idle, notRunning⟩ := not_or.mp free
    obtain ⟨master, stored, pending⟩ := queued
    have master : after.intCtrl 8 = false := master
    have stored : after.dev.sourceInts = source := stored
    have pending : after.kern.workPending = true := pending
    have all := h.notLost
    rw [if_neg idle, List.append_nil] at all
    constructor
    · exact ⟨fun _ => Or.inl pending, fun _ => master⟩
    · dsimp only
      rw [master]
      exact Bool.noConfusion
    · exact fun both => notRunning both.2
    · dsimp only
      rw [some, if_pos pending, all, stored]
      rfl
    · exact h.reads

theorem HandedOver.dpcStarts (h : s.HandedOver)
    (queued : s.board.kern.workPending = true) : s.dpcStarts.HandedOver := by
  have disabled : s.board.intCtrl 8 = false := h.master.mpr (Or.inl queued)
  constructor
  · exact ⟨fun _ => Or.inr rfl, fun _ => disabled⟩
  · intro enabled
    have enabled : s.board.intCtrl 8 = true := enabled
    rw [disabled] at enabled
    exact Bool.noConfusion enabled
  · exact fun both => Bool.noConfusion both.1
  · have all := h.notLost
    rw [if_pos queued] at all
    exact all.trans (List.append_nil _).symm
  · rintro part sourceInts ⟨⟩
    exact List.getLast?_concat

theorem HandedOver.dpcGoesOn {part : DpcPart} {sourceInts : U32} (h : s.HandedOver)
    (allowed : s.ClearsAwake .dpc) (running : s.running = some (part, sourceInts)) :
    (s.dpcGoesOn part sourceInts).HandedOver := by
  have isRunning : s.running.isSome := by
    rw [running]
    rfl
  have disabled : s.board.intCtrl 8 = false := h.master.mpr (Or.inr isRunning)
  have idle : ¬ s.board.kern.workPending = true := fun pending => h.once ⟨pending, isRunning⟩
  have all := h.notLost
  rw [if_neg idle] at all
  by_cases last : part = .enable
  · subst last
    have view := dpcPart_enable s.board sourceInts
    have master : (dpcPart s.board sourceInts .enable).intCtrl 8 = true :=
      congrArg HandOffView.master view
    have localInt : (dpcPart s.board sourceInts .enable).intCtrl 11 = true :=
      congrArg HandOffView.localInt view
    have pending : (dpcPart s.board sourceInts .enable).kern.workPending =
      s.board.kern.workPending := congrArg HandOffView.workPending view
    constructor
    · refine ⟨fun off => ?_, ?_⟩
      · rw [HandOff.dpcGoesOn, master] at off
        exact Bool.noConfusion off
      · rintro (queued | still)
        · exact absurd (pending.symm.trans queued) idle
        · exact Bool.noConfusion still
    · exact fun _ => localInt
    · exact fun both => idle (pending.symm.trans both.1)
    · unfold HandOff.dpcGoesOn
      dsimp only
      rw [pending, if_neg idle]
      exact all
    · exact fun _ _ done => absurd done.symm (Option.some_ne_none _)
  · have awake : part = .localInt → sourceInts &&& intrTypeLocal ≠ 0 →
        s.board.chip.lowPower = false := by
      rintro rfl clears
      exact allowed ⟨_, running, rfl, clears⟩
    obtain ⟨localInt, view⟩ := dpcPart_handOff last awake
    have master : (dpcPart s.board sourceInts part).intCtrl 8 = s.board.intCtrl 8 :=
      congrArg HandOffView.master view
    have pending : (dpcPart s.board sourceInts part).kern.workPending =
      s.board.kern.workPending := congrArg HandOffView.workPending view
    obtain ⟨following, next⟩ : ∃ following, part.next = some following := by
      cases part <;> first | exact ⟨_, rfl⟩ | exact absurd rfl last
    constructor
    · unfold HandOff.dpcGoesOn
      dsimp only
      rw [master, pending, next]
      exact ⟨fun _ => Or.inr rfl, fun _ => disabled⟩
    · intro enabled
      rw [HandOff.dpcGoesOn, master, disabled] at enabled
      exact Bool.noConfusion enabled
    · exact fun both => idle (pending.symm.trans both.1)
    · unfold HandOff.dpcGoesOn
      dsimp only
      rw [pending, if_neg idle]
      exact all
    · intro _ read later
      rw [HandOff.dpcGoesOn, next] at later
      cases later
      exact h.reads part sourceInts running

theorem HandedOver.step {a : HandOffAction} (h : s.HandedOver) (allowed : s.ClearsAwake a)
    (taken : s.step a = some t) : t.HandedOver := by
  cases a with
  | onInterrupt lowPower status card =>
      cases taken
      exact h.onInterrupt (raiseInterrupt_handOff s.board lowPower status card)
  | dpc =>
      dsimp only [HandOff.step] at taken
      split at taken
      · rename_i part sourceInts running
        cases taken
        exact h.dpcGoesOn allowed running
      · split at taken
        · rename_i queued
          cases taken
          exact h.dpcStarts queued
        · cases taken
  | others board =>
      dsimp only [HandOff.step] at taken
      split at taken
      · rename_i untouched
        cases taken
        exact h.of_handOff untouched.handOff rfl rfl rfl
      · cases taken

end

end HandOff

/-! ## The result -/

end Cjunk.Plx
