import Cjunk.Plx.Session

/-!
# The PLX 8311 driver: lost interrupts

The board numbers its hardware buffers 0 to 3 in turn.  The driver keeps a shadow of the
number it expects next, `hw_buff_check`, which runs freely through its eight bits and is
compared modulo four; an interrupt with another number counts as a loss and sets the
shadow right.

`Check` is the shadow with its counter, and `noted` what one interrupt does to it.
`run_check` shows that a session does this for each of its interrupts and leaves it alone
otherwise; `lost_interrupts` is the account.
-/

namespace Cjunk.Plx

open Words Run

/-! ## The shadow by itself -/

/-- `hw_buff_check` and `cntr_lost_ints`. -/
structure Check where
  shadow : U8
  lost : U32

namespace Check

/-- An interrupt of hardware buffer `n`. -/
def noted (c : Check) (n : U8) : Check :=
  if n ≠ c.shadow % 4 then ⟨n + 1, c.lost + 1⟩ else ⟨c.shadow + 1, c.lost⟩

/-- `n` is not the number after `before`. -/
def OutOfTurn (before n : U8) : Prop := n.toNat ≠ (before.toNat + 1) % 4

instance (before n : U8) : Decidable (OutOfTurn before n) := inferInstanceAs (Decidable (_ ≠ _))

/-- How many numbers of a sequence do not follow the one before them; `before` is the one
before the first. -/
def outOfTurn (before : U8) (numbers : List U8) : ℕ :=
  ((before :: numbers).zip numbers).countP fun pair => OutOfTurn pair.1 pair.2

theorem outOfTurn_cons (before n : U8) (numbers : List U8) : outOfTurn before (n :: numbers) =
    outOfTurn n numbers + if OutOfTurn before n then 1 else 0 := by
  unfold outOfTurn
  rw [List.zip_cons_cons, List.countP_cons]
  simp

variable {c : Check} {before n : U8}

/-- The shadow is one ahead of the number `before`. -/
def After (before : U8) (c : Check) : Prop := c.shadow.toNat % 4 = (before.toNat + 1) % 4

/-- What the driver takes for a loss is a number out of turn. -/
theorem After.miss_iff (after : c.After before) : n ≠ c.shadow % 4 ↔ OutOfTurn before n := by
  have shadow : (c.shadow % 4).toNat = (before.toNat + 1) % 4 :=
    (BitVec.toNat_umod).trans after
  unfold OutOfTurn
  rw [ne_eq, ← BitVec.toNat_inj, shadow]

theorem After.noted (after : c.After before) : (c.noted n).After n := by
  have miss := after.miss_iff (n := n)
  unfold After Check.noted OutOfTurn at *
  split_ifs with lost
  · show (n + 1).toNat % 4 = (n.toNat + 1) % 4
    rw [BitVec.toNat_add]
    have : (1 : U8).toNat = 1 := rfl
    omega
  · show (c.shadow + 1).toNat % 4 = (n.toNat + 1) % 4
    have inTurn := not_not.mp (mt miss.mpr lost)
    rw [BitVec.toNat_add]
    have : (1 : U8).toNat = 1 := rfl
    omega

theorem After.noted_lost (after : c.After before) : (c.noted n).lost =
    c.lost + if OutOfTurn before n then 1 else 0 := by
  unfold Check.noted
  by_cases miss : OutOfTurn before n
  · rw [if_pos miss, if_pos (after.miss_iff.mpr miss)]
  · rw [if_neg miss, if_neg (mt after.miss_iff.mp miss)]
    exact (BitVec.add_zero _).symm

/-- **The account.**  After any sequence of numbers the shadow is one ahead of the last, and
the counter has grown by the number of those out of turn. -/
theorem After.foldl_noted (after : c.After before) (numbers : List U8) :
    (numbers.foldl Check.noted c).After (numbers.getLastD before) ∧
      (numbers.foldl Check.noted c).lost = c.lost + .ofNat 32 (outOfTurn before numbers) := by
  induction numbers generalizing c before with
  | nil => exact ⟨after, (BitVec.add_zero _).symm⟩
  | cons n numbers ih =>
      obtain ⟨shadow, lost⟩ := ih (after.noted (n := n))
      rw [List.getLastD_cons, List.foldl_cons, lost, outOfTurn_cons, after.noted_lost]
      refine ⟨shadow, ?_⟩
      split_ifs
      · rw [BitVec.ofNat_add, BitVec.add_assoc, BitVec.add_comm 1]
        rfl
      · simp

end Check

/-! ## What the driver does to it -/

/-- The shadow and its counter in the driver's structure. -/
def Board.check (s : Board) : Check := ⟨s.dev.hwBuffCheck, s.dev.cntrLostInts⟩

/-- The hardware buffer of an interrupt. -/
def hwBuffer (regDetectorInt : U32) : U8 := (regDetectorInt &&& 3).setWidth 8

theorem countLocalInterrupt_check (s : Board) (regDetectorInt : U32) :
    (countLocalInterrupt s regDetectorInt).check = s.check.noted (hwBuffer regDetectorInt) := by
  unfold countLocalInterrupt Check.noted hwBuffer
  dsimp only
  split_ifs <;> first | rfl | contradiction

theorem onLocalInterrupt_check (s : Board) (regDetectorInt : U32) :
    (onLocalInterrupt s regDetectorInt).check = s.check.noted (hwBuffer regDetectorInt) := by
  obtain ⟨_, dev, -⟩ := transferFrame_state
    (markFrame (countLocalInterrupt s regDetectorInt) (regDetectorInt ||| bit 30))
    (regDetectorInt ||| bit 30)
  rw [← countLocalInterrupt_check]
  unfold onLocalInterrupt Board.check
  rw [dev]
  rfl

theorem scheduleDpc_check (s : Board) (regPciInt interruptSource : U32) :
    (scheduleDpc s regPciInt interruptSource).2.check = s.check := by
  rcases scheduleDpc_cases s regPciInt interruptSource with unclaimed | ⟨source, queued⟩
  · rw [unclaimed]
    rfl
  · rw [queued]
    rfl

/-- A local interrupt that is handled notes its hardware buffer. -/
theorem plxOnInterrupt_check {s : Board} (h : LocalInterrupt s) : (plxOnInterrupt s).2.check =
    s.check.noted (hwBuffer (s.chip.link pciMcCardStatus)) := by
  rw [plxOnInterrupt_local h, ← onLocalInterrupt_check]
  dsimp only
  split_ifs
  · rfl
  · rw [scheduleDpc_check]
    rfl

theorem dpcDmaChannel0_check (s : Board) : (dpcDmaChannel0 s).check = s.check := by
  unfold dpcDmaChannel0 publishFrame
  dsimp only
  split_ifs <;> rfl

theorem plxDrvRead_check {s t : Board} {call : ReadCall} {result : ℤ}
    (frame : s.dev.rp ≠ s.dev.wp) (returns : plxDrvRead s call = some (result, t)) :
    t.check = s.check := by
  cases interrupted : call.interrupted with
  | true =>
      unfold plxDrvRead at returns
      rw [interrupted, if_pos rfl] at returns
      cases returns
      rfl
  | false =>
      rw [plxDrvRead_frame interrupted frame] at returns
      unfold copyFrame at returns
      dsimp only at returns
      split_ifs at returns <;> cases returns <;> rfl

theorem plxDmaOpenChannel_check {s t : Board} {channel : ℕ} {alloc : ℕ → Option (ℕ × U32)}
    (opened : plxDmaOpenChannel s channel alloc = (.apiSuccess, t)) : t.check.shadow = 0 := by
  unfold plxDmaOpenChannel at opened
  split_ifs at opened
  · cases opened
  · obtain ⟨frames, bus, held, state⟩ :=
      allocFrames_state alloc noOfBuffers 0 (claimChannel s channel)
    rw [opened] at state
    rw [show t = _ from state]
    rfl

/-! ## Sessions -/

/-- The hardware buffers of the local interrupts among the actions, in their order. -/
def hwBuffers (actions : List Action) : List U8 :=
  actions.filterMap fun
    | .localInterrupt _ regDetectorInt => some (hwBuffer regDetectorInt)
    | _ => none

theorem step_check {s t : Session} {a : Action} (taken : step s a = some t) :
    t.board.check = (hwBuffers [a]).foldl Check.noted s.board.check := by
  cases a with
  | localInterrupt regPciInt regDetectorInt =>
      dsimp only [step] at taken
      split_ifs at taken with announced
      cases taken
      have board : (s.localInterrupt regPciInt regDetectorInt).board =
          (plxOnInterrupt (announce s.board regPciInt regDetectorInt)).2 := by
        unfold Session.localInterrupt
        dsimp only
        split <;> rfl
      have found : (announce s.board regPciInt regDetectorInt).chip.link pciMcCardStatus =
          regDetectorInt := by
        show Function.update s.board.chip.link pciMcCardStatus regDetectorInt pciMcCardStatus = _
        rw [Function.update_self]
      rw [board, plxOnInterrupt_check announced, found]
      rfl
  | dmaDone =>
      dsimp only [step] at taken
      split at taken <;> cases taken
      rfl
  | dpc =>
      dsimp only [step] at taken
      split at taken <;> cases taken
      exact dpcDmaChannel0_check s.board
  | read call =>
      dsimp only [step] at taken
      split_ifs at taken with enabled
      obtain ⟨⟨result, b⟩, returns, rfl⟩ := Option.map_eq_some_iff.mp taken
      exact plxDrvRead_check enabled.1 returns

/-- A session does to the shadow what its interrupts do. -/
theorem run_check {s t : Session} {actions : List Action} (run : exec step s actions = some t) :
    t.board.check = (hwBuffers actions).foldl Check.noted s.board.check := by
  induction actions generalizing s with
  | nil =>
      cases run
      rfl
  | cons a actions ih =>
      obtain ⟨u, taken, rest⟩ := Option.bind_eq_some_iff.mp run
      have split : hwBuffers (a :: actions) = hwBuffers [a] ++ hwBuffers actions :=
        List.filterMap_append (l := [a])
      rw [split, List.foldl_append, ← step_check taken]
      exact ih rest

/-- **Lost interrupts.**  In a session on a channel that has just been opened, the shadow is
one ahead of the last hardware buffer, and the counter has grown by the interrupts whose
hardware buffer was out of turn; the one before the first counts as 3. -/
theorem lost_interrupts {b : Board} {channel : ℕ} {alloc : ℕ → Option (ℕ × U32)} {s t : Session}
    {actions : List Action}
    (opened : plxDmaOpenChannel b channel alloc = (.apiSuccess, s.board))
    (run : exec step s actions = some t) :
    (∀ n, (hwBuffers actions).getLast? = some n →
      t.board.dev.hwBuffCheck.toNat % 4 = (n.toNat + 1) % 4) ∧
    t.board.dev.cntrLostInts = s.board.dev.cntrLostInts +
      .ofNat 32 (Check.outOfTurn 3 (hwBuffers actions)) := by
  have start : s.board.check.After 3 := by
    unfold Check.After
    rw [plxDmaOpenChannel_check opened]
    rfl
  obtain ⟨shadow, lost⟩ := start.foldl_noted (hwBuffers actions)
  rw [← run_check run] at shadow lost
  refine ⟨fun n last => ?_, lost⟩
  rw [List.getLastD_eq_getLast?, last] at shadow
  exact shadow

/-- A session on a channel that has been opened on a board out of reset. -/
def channelSession : Session where
  board := (plxDmaOpenChannel {} 0 fun k => some (k + 1, .ofNat 32 (k * dmaSize))).2

/-- The first interrupt is of buffer 1, the second of buffer 2: one is lost. -/
theorem lost_interrupts_sample : ∃ t,
    exec step channelSession [frameReady 1, frameReady 2] = some t ∧
      t.board.dev.hwBuffCheck.toNat % 4 = 3 ∧ t.board.dev.cntrLostInts = 0 + .ofNat 32 1 := by
  have opened : plxDmaOpenChannel {} 0 (fun k => some (k + 1, .ofNat 32 (k * dmaSize))) =
      (.apiSuccess, channelSession.board) := rfl
  obtain ⟨t, run⟩ : ∃ t, exec step channelSession [frameReady 1, frameReady 2] = some t := ⟨_, rfl⟩
  obtain ⟨shadow, lost⟩ := lost_interrupts opened run
  exact ⟨t, run, shadow 2 (by decide), lost⟩

end Cjunk.Plx
