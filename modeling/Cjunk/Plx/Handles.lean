import Cjunk.Plx.Opening

/-!
# Counting the open handles

`OpenCount` is eight bits wide, and nothing bounds the number of descriptors that are
open at a time.  The first open and the last release do the work, and they are told
from the others by the count alone: `Handles` keeps the true number next to it.

The calls are those of the lifecycle, with the kernel at its best: an open gets every
buffer and the interrupt it asks for, and a release closes a handle that an open has
returned.  `accounted_iff` says how far the count can be relied on.
-/

namespace Cjunk.Plx

open Run

/-! ## The machine -/

structure Handles where
  board : Board
  /-- The opens that returned 0, less the releases. -/
  handles : ℕ := 0
  /-- An open did not return 0. -/
  refused : Bool := false

/-- The kernel grants everything an open can ask for. -/
def Grants (s : Board) (env : OpenEnv) : Prop :=
  (∀ k < noOfBuffers, (env.alloc k).isSome) ∧ s.dev.irq ≠ 0 ∧ env.requestIrq = 0

instance (s : Board) (env : OpenEnv) : Decidable (Grants s env) := by
  unfold Grants
  infer_instance

namespace Handles

/-- An open; only one that returns 0 hands out a handle. -/
def drvOpen (s : Handles) (env : OpenEnv) : Handles :=
  if (plxDrvOpen s.board env).1 = 0 then
    { s with board := (plxDrvOpen s.board env).2, handles := s.handles + 1 }
  else { s with board := (plxDrvOpen s.board env).2, refused := true }

def step (s : Handles) : Call → Option Handles
  | .drvOpen env => if Grants s.board env then some (s.drvOpen env) else none
  | .drvRelease =>
      if 0 < s.handles then
        some { s with board := plxDrvRelease s.board, handles := s.handles - 1 }
      else none
  | .onInterrupt lowPower status card =>
      if s.board.kern.handler then
        some { s with board := (plxOnInterrupt (raiseInterrupt s.board lowPower status card)).2 }
      else none
  | .dpcForIsr =>
      if s.board.kern.workPending then some { s with board := plxDpcForIsr s.board } else none

end Handles

/-! ## What the count should say -/

/-- Nothing is claimed: the channel is closed, no buffer is allocated and no handler is
registered. -/
def Unclaimed (s : Setup) : Prop :=
  s.dmaChannels 0 = false ∧ s.coherent = [] ∧ s.handler = false

instance (s : Setup) : Decidable (Unclaimed s) := by
  unfold Unclaimed
  infer_instance

/-- No open was refused, the count is the number of handles, and the device is installed
exactly while there are any. -/
def Accounted (s : Handles) : Prop :=
  s.refused = false ∧ s.board.dev.openCount.toNat = s.handles ∧
    (Installed s.board.setup ↔ 0 < s.handles) ∧ (s.handles = 0 → Unclaimed s.board.setup)

instance (s : Handles) : Decidable (Accounted s) := by
  unfold Accounted
  infer_instance

/-- An open finds fewer handles than the count can hold besides its own. -/
def CountFits (s : Handles) : Call → Prop
  | .drvOpen _ => s.handles < 255
  | .onInterrupt _ _ _ | .dpcForIsr | .drvRelease => True

instance (s : Handles) : (c : Call) → Decidable (CountFits s c)
  | .drvOpen _ => inferInstanceAs (Decidable (_ < _))
  | .onInterrupt _ _ _ | .dpcForIsr | .drvRelease => .isTrue trivial

/-- The buffers that are allocated are those the channel works with. -/
def Claimed (s : Setup) : Prop :=
  s.dmaChannels 0 = true ∧ s.coherent = (List.range noOfBuffers).map s.frames ∧
    s.handler = true ∧ s.flagInterrupt = true

/-- The invariant: `Claimed` or `Unclaimed`, as the number of handles has it. -/
structure Handles.Inv (s : Handles) : Prop where
  refused : s.refused = false
  count : s.board.dev.openCount.toNat = s.handles
  claimed : 0 < s.handles → Claimed s.board.setup
  unclaimed : s.handles = 0 → Unclaimed s.board.setup ∧ s.board.dev.flagInterrupt = false

theorem Claimed.installed {s : Setup} (h : Claimed s) : Installed s := by
  obtain ⟨channel, coherent, handler, -⟩ := h
  refine ⟨channel, fun k lt => ?_, handler⟩
  rw [coherent]
  exact List.mem_map_of_mem (List.mem_range.mpr lt)

theorem Unclaimed.not_installed {s : Setup} (h : Unclaimed s) : ¬ Installed s := by
  rintro ⟨channel, -⟩
  rw [h.1] at channel
  exact Bool.noConfusion channel

theorem Handles.Inv.accounted {s : Handles} (h : s.Inv) : Accounted s := by
  refine ⟨h.refused, h.count, ⟨fun installed => ?_, fun some => (h.claimed some).installed⟩,
    fun none => (h.unclaimed none).1⟩
  apply Nat.pos_of_ne_zero
  intro none
  exact (h.unclaimed none).1.not_installed installed

/-! ## The buffers -/

/-- The allocation loop does not go back. -/
theorem allocFrames_below (alloc : ℕ → Option (ℕ × U32)) (n r : ℕ) (s : Board) {k : ℕ}
    (passed : k < r) : (allocFrames alloc n r s).2.dev.frames k = s.dev.frames k := by
  induction n generalizing r s with
  | zero => rfl
  | succ n ih =>
      rw [allocFrames]
      cases alloc r with
      | none => exact Function.update_of_ne (Nat.ne_of_lt passed) _ _
      | some buffer =>
          refine (ih (r + 1) _ (Nat.lt_succ_of_lt passed)).trans ?_
          exact Function.update_of_ne (Nat.ne_of_lt passed) _ _

/-- What a complete allocation loop adds to the buffers held are the frames, in order. -/
theorem allocFrames_coherent (alloc : ℕ → Option (ℕ × U32)) (n r : ℕ) (s : Board)
    (success : (allocFrames alloc n r s).1 = .apiSuccess) :
    (allocFrames alloc n r s).2.kern.coherent = s.kern.coherent ++
      (List.range n).map fun j => (allocFrames alloc n r s).2.dev.frames (r + j) := by
  induction n generalizing r s with
  | zero =>
      rw [List.range_zero, List.map_nil, List.append_nil]
      rfl
  | succ n ih =>
      rw [allocFrames] at success ⊢
      cases first : alloc r with
      | none =>
          rw [first] at success
          exact PlxStatus.noConfusion success
      | some buffer =>
          rw [first] at success
          have step : ∀ t : Board, t.dev.frames r = buffer.1 →
              t.kern.coherent = s.kern.coherent ++ [buffer.1] →
              (allocFrames alloc n (r + 1) t).1 = .apiSuccess →
              (allocFrames alloc n (r + 1) t).2.kern.coherent = s.kern.coherent ++
                (List.range (n + 1)).map
                  fun j => (allocFrames alloc n (r + 1) t).2.dev.frames (r + j) := by
            intro t frame held success
            have first := (allocFrames_below alloc n (r + 1) t (Nat.lt_succ_self r)).trans frame
            rw [ih (r + 1) t success, held, List.range_succ_eq_map, List.map_cons, List.map_map,
              Nat.add_zero r, first, List.append_assoc, List.singleton_append]
            congr 3
            funext j
            exact congrArg _ (Nat.add_right_comm r 1 j)
          exact step _ (Function.update_self _ _ _) rfl success

/-- The freeing loop gives every frame back. -/
theorem freeFrames_coherent {s : Board}
    (held : s.kern.coherent = (List.range noOfBuffers).map s.dev.frames) :
    (freeFrames s).kern.coherent = [] := by
  have free : ∀ (f : ℕ → ℕ) (l : List ℕ),
      l.foldl (fun held i => held.erase (f i)) (l.map f) = [] := by
    intro f l
    induction l with
    | nil => rfl
    | cons i l ih =>
        rw [List.foldl_cons, List.map_cons, List.erase_cons_head]
        exact ih
  unfold freeFrames
  dsimp only
  rw [held]
  exact free s.dev.frames _

/-! ## The first open and the last release -/

/-- The first open of a device on which nothing is claimed claims everything. -/
theorem plxDrvOpen_first {s : Board} {env : OpenEnv} (granted : Grants s env)
    (count : s.dev.openCount = 0) (none : Unclaimed s.setup) :
    (plxDrvOpen s env).1 = 0 ∧ Claimed (plxDrvOpen s env).2.setup := by
  obtain ⟨buffers, irq⟩ := granted
  have goes : OpenGoesThrough s env := Or.inr ⟨⟨none.1, buffers⟩, irq⟩
  have zero : (plxDrvOpen s env).1 = 0 := (plxDrvOpen_returns s env).mpr goes
  refine ⟨zero, ?_⟩
  have fresh : (claimChannel (countOpen s) 0).kern.coherent = [] :=
    (congrArg Setup.coherent (claimChannel_setup (countOpen s) 0)).trans none.2.1
  rcases plxDrvOpen_cases s env with ⟨more, -⟩ | ⟨first, ⟨-, done⟩ | ⟨-, -, done⟩ |
    ⟨opened, installed, done⟩⟩
  · rw [count] at more
    exact absurd more (by decide)
  · rw [done] at zero
    exact absurd zero eNoDev_ne
  · rw [done] at zero
    exact absurd zero eNoDev_ne
  · have closed : ¬ (countOpen s).dev.dmaChannels 0 = true := by
      rw [show (countOpen s).dev.dmaChannels 0 = false from none.1]
      exact Bool.false_ne_true
    have loop : plxDmaOpenChannel (countOpen s) 0 env.alloc =
      allocFrames env.alloc noOfBuffers 0 (claimChannel (countOpen s) 0) := if_neg closed
    have held := plxDmaOpenChannel_held opened
    have handler := (plxInstallInterruptHandler_status _ _).mp installed
    rw [done, plxInstallInterruptHandler_setup, if_pos handler]
    refine ⟨held.1, ?_, rfl, rfl⟩
    rw [loop] at opened
    have coherent := allocFrames_coherent _ _ _ _ opened
    rw [fresh, List.nil_append, ← loop] at coherent
    refine coherent.trans (congrArg₂ List.map ?_ rfl)
    funext j
    rw [Nat.zero_add]
    rfl

/-- With no check for a transfer in progress, an open channel is closed and its buffers
are given back. -/
theorem plxDmaCloseChannel_unclaims {s : Board} (channel : s.dev.dmaChannels 0 = true)
    (held : s.kern.coherent = (List.range noOfBuffers).map s.dev.frames) :
    (plxDmaCloseChannel s 0 false).2.dev.dmaChannels 0 = false ∧
      (plxDmaCloseChannel s 0 false).2.kern.coherent = [] := by
  have opened : ¬ s.dev.dmaChannels 0 = false := by
    rw [channel]
    exact Bool.noConfusion
  have closing : ∃ t : Board, t.setup = s.setup ∧ (plxDmaCloseChannel s 0 false).2 =
      freeFrames (t.setDev fun d =>
        { d with dmaChannels := Function.update d.dmaChannels 0 false }) := by
    unfold plxDmaCloseChannel
    rw [if_neg opened]
    dsimp only
    rw [if_neg fun both => Bool.false_ne_true both.2]
    refine ⟨_, ?_, rfl⟩
    generalize (if 0 = 1 then _ else _ : U32) = regValue
    split
    · exact plxChipDmaControl_setup s 0 .dmaAbort
    · rfl
  obtain ⟨t, same, closed⟩ := closing
  have coherent : t.kern.coherent = s.kern.coherent := congrArg Setup.coherent same
  have frames : t.dev.frames = s.dev.frames := congrArg Setup.frames same
  rw [closed]
  constructor
  · show Function.update t.dev.dmaChannels 0 false 0 = false
    exact Function.update_self _ _ _
  · apply freeFrames_coherent
    show t.kern.coherent = (List.range noOfBuffers).map t.dev.frames
    rw [coherent, frames, held]

/-- The last release gives everything back. -/
theorem plxDrvRelease_unclaims {s : Board} (last : s.dev.openCount = 1)
    (claimed : Claimed s.setup) :
    Unclaimed (plxDrvRelease s).setup ∧ (plxDrvRelease s).dev.flagInterrupt = false := by
  obtain ⟨channel, held, -, flag⟩ := claimed
  have opened : s.dev.openCount ≠ 0 := by
    rw [last]
    decide
  have none : ¬ 0 < s.dev.openCount - 1 := by
    rw [last]
    decide
  have flagged : s.dev.flagInterrupt = true := flag
  have closing : plxDrvRelease s = (plxDmaCloseChannel (plxUninstallInterruptHandler
      (s.setDev fun d => { d with openCount := d.openCount - 1 })) 0 false).2 := by
    unfold plxDrvRelease
    rw [if_neg opened]
    exact if_neg none
  have uninstalled : (plxUninstallInterruptHandler
      (s.setDev fun d => { d with openCount := d.openCount - 1 })).setup =
        { s.setup with
          openCount := s.dev.openCount - 1
          flagInterrupt := false
          handler := false } := by
    unfold plxUninstallInterruptHandler
    rw [Board.setDev_dev]
    dsimp only
    rw [if_pos flagged]
    rfl
  generalize plxUninstallInterruptHandler
    (s.setDev fun d => { d with openCount := d.openCount - 1 }) = u at closing uninstalled
  obtain ⟨channels, coherent, setup⟩ := plxDmaCloseChannel_setup u 0 false
  have coherent_u : u.kern.coherent = (List.range noOfBuffers).map u.dev.frames := by
    have frames : u.dev.frames = s.dev.frames := congrArg Setup.frames uninstalled
    rw [frames]
    exact (congrArg Setup.coherent uninstalled).trans held
  have channel_u : u.dev.dmaChannels 0 = true :=
    (congrFun (congrArg Setup.dmaChannels uninstalled) 0).trans channel
  obtain ⟨closed, freed⟩ := plxDmaCloseChannel_unclaims channel_u coherent_u
  rw [closing]
  refine ⟨⟨closed, freed, ?_⟩, ?_⟩
  · exact (congrArg Setup.handler setup).trans (congrArg Setup.handler uninstalled)
  · exact (congrArg Setup.flagInterrupt setup).trans (congrArg Setup.flagInterrupt uninstalled)

/-! ## The invariant -/

theorem Handles.Inv.of_setup {s t : Handles} (h : s.Inv) (handles : t.handles = s.handles)
    (refused : t.refused = s.refused) (same : t.board.setup = s.board.setup) : t.Inv where
  refused := refused.trans h.refused
  count := by
    rw [handles, ← h.count]
    exact congrArg (fun u : Setup => u.openCount.toNat) same
  claimed some := by
    rw [same]
    exact h.claimed (handles ▸ some)
  unclaimed none := by
    have was := h.unclaimed (handles.symm.trans none)
    rw [same]
    exact ⟨was.1, (congrArg Setup.flagInterrupt same).trans was.2⟩

/-- An open among others only counts. -/
theorem plxDrvOpen_more {s : Board} (env : OpenEnv) (others : 0 < s.dev.openCount.toNat)
    (fits : s.dev.openCount.toNat < 255) : plxDrvOpen s env = (0, countOpen s) :=
  if_pos (counted_lt.mpr ⟨others, fits⟩)

theorem Handles.Inv.drvOpen {s : Handles} {env : OpenEnv} (h : s.Inv)
    (granted : Grants s.board env) (fits : s.handles < 255) : (s.drvOpen env).Inv := by
  have count := h.count
  have counted := congrArg BitVec.toNat (plxDrvOpen_openCount s.board env)
  rw [BitVec.toNat_add, count] at counted
  have counted : (plxDrvOpen s.board env).2.dev.openCount.toNat = s.handles + 1 := by
    rw [counted]
    have room : s.handles + 1 < 2 ^ 8 := by omega
    exact Nat.mod_eq_of_lt room
  have opens : (plxDrvOpen s.board env).1 = 0 ∧ Claimed (plxDrvOpen s.board env).2.setup := by
    rcases Nat.eq_zero_or_pos s.handles with none | some
    · have zero : s.board.dev.openCount = 0 := by
        apply BitVec.eq_of_toNat_eq
        rw [count, none]
        rfl
      exact plxDrvOpen_first granted zero (h.unclaimed none).1
    · rw [plxDrvOpen_more env (count ▸ some) (count ▸ fits)]
      exact ⟨rfl, h.claimed some⟩
  unfold Handles.drvOpen
  rw [if_pos opens.1]
  exact ⟨h.refused, counted, fun _ => opens.2, fun none => absurd none (Nat.succ_ne_zero _)⟩

theorem Handles.Inv.drvRelease {s : Handles} (h : s.Inv) (some : 0 < s.handles) :
    ({ s with board := plxDrvRelease s.board, handles := s.handles - 1 } : Handles).Inv := by
  have count := h.count
  have opened : s.board.dev.openCount ≠ 0 := by
    intro zero
    rw [zero] at count
    exact absurd count.symm (Nat.ne_of_gt some)
  have counted := congrArg BitVec.toNat (plxDrvRelease_openCount s.board)
  rw [if_neg opened] at counted
  have counted : (plxDrvRelease s.board).dev.openCount.toNat = s.handles - 1 := by
    rw [counted, ← count]
    have positive : 1 ≤ s.board.dev.openCount := by bv_omega
    exact BitVec.toNat_sub_of_le positive
  by_cases last : s.handles = 1
  · have one : s.board.dev.openCount = 1 := by
      apply BitVec.eq_of_toNat_eq
      rw [count, last]
      rfl
    have given := plxDrvRelease_unclaims one (h.claimed some)
    refine ⟨h.refused, counted, fun left => ?_, fun _ => given⟩
    have left : 0 < s.handles - 1 := left
    omega
  · have others : plxDrvRelease s.board =
        s.board.setDev fun d => { d with openCount := d.openCount - 1 } := by
      unfold plxDrvRelease
      rw [if_neg opened]
      apply if_pos
      show 0 < s.board.dev.openCount - 1
      have several : s.board.dev.openCount ≠ 1 := by
        intro one
        rw [one] at count
        exact last count.symm
      bv_omega
    refine ⟨h.refused, counted, fun _ => ?_, fun none => ?_⟩
    · rw [others]
      exact h.claimed some
    · have none : s.handles - 1 = 0 := none
      omega

theorem Handles.Inv.step {s t : Handles} {c : Call} (h : s.Inv) (fits : CountFits s c)
    (taken : s.step c = some t) : t.Inv := by
  cases c with
  | drvOpen env =>
      dsimp only [Handles.step] at taken
      split at taken
      · rename_i granted
        cases taken
        exact h.drvOpen granted fits
      · cases taken
  | drvRelease =>
      dsimp only [Handles.step] at taken
      split at taken
      · rename_i some
        cases taken
        exact h.drvRelease some
      · cases taken
  | onInterrupt lowPower status card =>
      dsimp only [Handles.step] at taken
      split at taken
      · cases taken
        refine h.of_setup rfl rfl ?_
        exact (plxOnInterrupt_setup _).trans (raiseInterrupt_setup _ _ _ _)
      · cases taken
  | dpcForIsr =>
      dsimp only [Handles.step] at taken
      split at taken
      · cases taken
        exact h.of_setup rfl rfl (plxDpcForIsr_setup _)
      · cases taken

/-- The open that the count has no room for is refused: the count wraps to zero and the
channel is not free. -/
theorem Handles.Inv.drvOpen_wraps {s : Handles} (env : OpenEnv) (h : s.Inv)
    (full : ¬ s.handles < 255) : (s.drvOpen env).refused = true := by
  have count := h.count
  have small := s.board.dev.openCount.isLt
  have some : 0 < s.handles := by omega
  have channel : s.board.dev.dmaChannels 0 = true := (h.claimed some).1
  have fails : (plxDrvOpen s.board env).1 ≠ 0 := by
    rw [Ne, plxDrvOpen_returns]
    rintro (⟨-, fits⟩ | ⟨⟨closed, -⟩, -⟩)
    · omega
    · rw [channel] at closed
      exact Bool.noConfusion closed
  unfold Handles.drvOpen
  rw [if_neg fails]

/-! ## The result -/

/-- A device on which nothing is open. -/
def Handles.Closed (s : Handles) : Prop :=
  s.handles = 0 ∧ s.refused = false ∧ s.board.dev.openCount = 0 ∧
    Unclaimed s.board.setup ∧ s.board.dev.flagInterrupt = false

instance (s : Handles) : Decidable s.Closed := by
  unfold Handles.Closed
  infer_instance

theorem Handles.Closed.inv {s : Handles} (h : s.Closed) : s.Inv := by
  obtain ⟨none, refused, count, unclaimed, flag⟩ := h
  refine ⟨refused, ?_, fun some => ?_, fun _ => ⟨unclaimed, flag⟩⟩
  · rw [count, none]
    rfl
  · rw [none] at some
    exact absurd some (Nat.lt_irrefl 0)

/-- **Counting the handles.**  From a closed device, and with everything granted, every
open returns 0, the count is the number of handles and the device is installed exactly
while there are any, if and only if no open is made with 255 handles open. -/
theorem accounted_iff {s : Handles} (closed : s.Closed) (schedule : List Call) :
    Throughout Handles.step Accounted s schedule ↔
      Meets Handles.step CountFits s schedule := by
  refine throughout_iff_meets (I := Handles.Inv) (fun _ h => h.accounted)
    (fun _ _ _ h fits taken => h.step fits taken) ?_ closed.inv
  intro u c v h taken accounted
  cases c with
  | drvOpen env =>
      dsimp only [Handles.step] at taken
      split at taken
      · cases taken
        by_contra full
        have refused := h.drvOpen_wraps env full
        rw [accounted.1] at refused
        exact Bool.noConfusion refused
      · cases taken
  | onInterrupt lowPower status card => trivial
  | dpcForIsr => trivial
  | drvRelease => trivial

/-- Two handles come and go, and the device is opened once more. -/
theorem accounted_iff_reopened :
    Throughout Handles.step Accounted { board := probed }
      [.drvOpen (answers 0), .drvOpen (answers 0), .drvRelease, .drvRelease,
        .drvOpen (answers 0)] :=
  (accounted_iff (by decide) _).mpr (by decide +kernel)

/-- The 256th open is refused, although everything was granted, and it leaves the count at
zero with 255 handles open. -/
theorem openCount_wraps :
    ¬ Throughout Handles.step Accounted { board := probed }
        (List.replicate 256 (.drvOpen (answers 0))) ∧
      (exec Handles.step { board := probed } (List.replicate 256 (.drvOpen (answers 0)))).any
        fun s => s.refused = true ∧ s.handles = 255 ∧ s.board.dev.openCount = 0 :=
  ⟨by decide +kernel, by decide +kernel⟩

end Cjunk.Plx
