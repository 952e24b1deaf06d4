import Cjunk.Plx.Lifecycle

/-!
# Opening the device

`plx_drv_open` counts the open before it does anything, and gives nothing back when
one of its steps fails.  So a failed open always leaves a trace, and since the next
open only looks at the count, it returns 0 with whatever the failed one left.

`plxDrvOpen_atomic` says when an open is all or nothing: exactly when no step of it
fails.  As long as every open is like that, each open that returns 0 finds the
channel open, the buffers allocated and the handler registered.
-/

namespace Cjunk.Plx

open Run

/-- The part of the state that a failed open should leave as it was. -/
structure Resources where
  openCount : U8
  dmaChannels : ℕ → Bool
  /-- The frame buffers that are allocated. -/
  coherent : List ℕ
  flagInterrupt : Bool

def Board.resources (s : Board) : Resources :=
  { openCount := s.dev.openCount, dmaChannels := s.dev.dmaChannels,
    coherent := s.kern.coherent, flagInterrupt := s.dev.flagInterrupt }

/-- No step of the open fails: another descriptor is open already (and the count does
not wrap), or channel 0 is closed, every buffer can be allocated, the device has an
interrupt and `request_irq` grants it. -/
def OpenGoesThrough (s : Board) (env : OpenEnv) : Prop :=
  0 < s.dev.openCount.toNat ∧ s.dev.openCount.toNat < 255 ∨
    (s.dev.dmaChannels 0 = false ∧ ∀ k < noOfBuffers, (env.alloc k).isSome) ∧
      s.dev.irq ≠ 0 ∧ env.requestIrq = 0

instance (s : Board) (env : OpenEnv) : Decidable (OpenGoesThrough s env) := by
  unfold OpenGoesThrough
  infer_instance

/-- Everything an open session needs: the channel, all the buffers and the handler. -/
def Installed (s : Setup) : Prop :=
  s.dmaChannels 0 = true ∧ (∀ k < noOfBuffers, s.frames k ∈ s.coherent) ∧ s.handler = true

instance (s : Setup) : Decidable (Installed s) := by
  unfold Installed
  infer_instance

/-- The device is open only with everything installed. -/
def Consistent (s : Board) : Prop := s.dev.openCount ≠ 0 → Installed s.setup

theorem eNoDev_ne : -eNoDev ≠ 0 := by decide

theorem counted_lt {count : U8} :
    1 < count + 1 ↔ 0 < count.toNat ∧ count.toNat < 255 := by
  rw [BitVec.lt_def, BitVec.toNat_add]
  have := count.isLt
  show 1 < (count.toNat + 1) % 256 ↔ _
  omega

/-- What an open does: it counts; a second open is done with that, and a first one gets
the channel and then the handler. -/
theorem plxDrvOpen_cases (s : Board) (env : OpenEnv) :
    let opened := plxDmaOpenChannel (countOpen s) 0 env.alloc
    let installed := plxInstallInterruptHandler opened.2 env.requestIrq
    (1 < s.dev.openCount + 1 ∧ plxDrvOpen s env = (0, countOpen s)) ∨
    (¬ 1 < s.dev.openCount + 1 ∧
      ((opened.1 ≠ .apiSuccess ∧ plxDrvOpen s env = (-eNoDev, opened.2)) ∨
      (opened.1 = .apiSuccess ∧ installed.1 ≠ .apiSuccess ∧
        plxDrvOpen s env = (-eNoDev, installed.2)) ∨
      (opened.1 = .apiSuccess ∧ installed.1 = .apiSuccess ∧
        plxDrvOpen s env = (0, installed.2)))) := by
  intro opened installed
  by_cases more : 1 < s.dev.openCount + 1
  · exact Or.inl ⟨more, if_pos more⟩
  refine Or.inr ⟨more, ?_⟩
  have first : plxDrvOpen s env = _ := if_neg more
  rw [first, show plxDmaOpenChannel (countOpen s) 0 env.alloc = opened from rfl]
  clear_value opened
  obtain ⟨status, t⟩ := opened
  by_cases success : status = .apiSuccess
  · subst success
    have second : installed = plxInstallInterruptHandler t env.requestIrq := rfl
    apply Or.inr
    dsimp only
    rw [← second]
    clear_value installed
    obtain ⟨status, u⟩ := installed
    by_cases success : status = .apiSuccess
    · subst success
      exact Or.inr ⟨rfl, rfl, rfl⟩
    · refine Or.inl ⟨rfl, success, ?_⟩
      cases status <;> first | rfl | exact absurd rfl success
  · refine Or.inl ⟨success, ?_⟩
    cases status <;> first | rfl | exact absurd rfl success

theorem openedChannel_setup (s : Board) (env : OpenEnv) :
    (plxDmaOpenChannel (countOpen s) 0 env.alloc).2.dev.openCount = s.dev.openCount + 1 ∧
      (plxDmaOpenChannel (countOpen s) 0 env.alloc).2.dev.irq = s.dev.irq := by
  obtain ⟨channels, frames, coherent, opened⟩ :=
    plxDmaOpenChannel_setup (countOpen s) 0 env.alloc
  exact ⟨congrArg Setup.openCount opened, congrArg Setup.irq opened⟩

/-- Every open is counted, also a failing one. -/
theorem plxDrvOpen_openCount (s : Board) (env : OpenEnv) :
    (plxDrvOpen s env).2.dev.openCount = s.dev.openCount + 1 := by
  have count := (openedChannel_setup s env).1
  have installed := plxInstallInterruptHandler_setup
    (plxDmaOpenChannel (countOpen s) 0 env.alloc).2 env.requestIrq
  have kept : (plxInstallInterruptHandler (plxDmaOpenChannel (countOpen s) 0 env.alloc).2
      env.requestIrq).2.dev.openCount = s.dev.openCount + 1 := by
    refine (congrArg Setup.openCount installed).trans ?_
    split <;> exact count
  rcases plxDrvOpen_cases s env with ⟨-, done⟩ | ⟨-, ⟨-, done⟩ | ⟨-, -, done⟩ | ⟨-, -, done⟩⟩
  · rw [done]
    rfl
  · rw [done]
    exact count
  · rw [done]
    exact kept
  · rw [done]
    exact kept

/-- An open returns 0 exactly if no step of it fails. -/
theorem plxDrvOpen_returns (s : Board) (env : OpenEnv) :
    (plxDrvOpen s env).1 = 0 ↔ OpenGoesThrough s env := by
  have channel := plxDmaOpenChannel_status (countOpen s) 0 env.alloc
  have handler := plxInstallInterruptHandler_status
    (plxDmaOpenChannel (countOpen s) 0 env.alloc).2 env.requestIrq
  rw [(openedChannel_setup s env).2] at handler
  rcases plxDrvOpen_cases s env with ⟨more, done⟩ | ⟨first, others⟩
  · rw [done]
    exact ⟨fun _ => Or.inl (counted_lt.mp more), fun _ => rfl⟩
  have first := mt counted_lt.mpr first
  rcases others with ⟨closed, done⟩ | ⟨opened, refused, done⟩ | ⟨opened, installed, done⟩
  · rw [done]
    refine ⟨fun h => absurd h eNoDev_ne, fun h => ?_⟩
    exact absurd (channel.mpr (h.resolve_left first).1) closed
  · rw [done]
    refine ⟨fun h => absurd h eNoDev_ne, fun h => ?_⟩
    exact absurd (handler.mpr (h.resolve_left first).2) refused
  · rw [done]
    exact ⟨fun _ => Or.inr ⟨channel.mp opened, handler.mp installed⟩, fun _ => rfl⟩

/-- From a consistent state, an open that returns 0 has everything installed. -/
theorem plxDrvOpen_installed {s : Board} {env : OpenEnv} (consistent : Consistent s)
    (zero : (plxDrvOpen s env).1 = 0) : Installed (plxDrvOpen s env).2.setup := by
  rcases plxDrvOpen_cases s env with ⟨more, done⟩ | ⟨first, others⟩
  · have already : s.dev.openCount ≠ 0 := by
      have := (counted_lt.mp more).1
      rintro none
      rw [none] at this
      exact absurd this (by decide)
    rw [done]
    exact consistent already
  rcases others with ⟨-, done⟩ | ⟨-, -, done⟩ | ⟨opened, installed, done⟩
  · rw [done] at zero
    exact absurd zero eNoDev_ne
  · rw [done] at zero
    exact absurd zero eNoDev_ne
  · have held := plxDmaOpenChannel_held opened
    have granted := (plxInstallInterruptHandler_status _ _).mp installed
    rw [done, plxInstallInterruptHandler_setup, if_pos granted]
    exact ⟨held.1, held.2, rfl⟩

theorem Consistent.plxDrvOpen {s : Board} {env : OpenEnv} (consistent : Consistent s)
    (ok : OpenGoesThrough s env) : Consistent (plxDrvOpen s env).2 :=
  fun _ => plxDrvOpen_installed consistent ((plxDrvOpen_returns s env).mpr ok)

theorem Consistent.plxDrvRelease {s : Board} (consistent : Consistent s) :
    Consistent (plxDrvRelease s) := by
  intro count
  rw [plxDrvRelease_openCount] at count
  unfold Plx.plxDrvRelease
  split
  · rename_i closed
    rw [if_pos closed] at count
    exact absurd rfl count
  · rename_i opened
    rw [if_neg opened] at count
    dsimp only
    split
    · exact consistent opened
    · rename_i last
      exact absurd (BitVec.le_zero_iff.mp (BitVec.not_lt.mp last)) count

/-- Every open of a schedule goes through. -/
def OpensGoThrough (s : Lifecycle) : Call → Prop
  | .drvOpen env => OpenGoesThrough s.board env
  | .onInterrupt _ _ _ | .dpcForIsr | .drvRelease => True

instance (s : Lifecycle) : ∀ c, Decidable (OpensGoThrough s c)
  | .drvOpen env => inferInstanceAs (Decidable (OpenGoesThrough s.board env))
  | .onInterrupt _ _ _ => .isTrue trivial
  | .dpcForIsr => .isTrue trivial
  | .drvRelease => .isTrue trivial

theorem Consistent.step {s t : Lifecycle} {c : Call} (consistent : Consistent s.board)
    (ok : OpensGoThrough s c) (taken : s.step c = some t) : Consistent t.board := by
  have of_setup : ∀ u : Board, u.setup = s.board.setup → Consistent u := by
    intro u same opened
    rw [same]
    apply consistent
    rwa [show u.dev.openCount = s.board.dev.openCount from congrArg Setup.openCount same] at opened
  cases c with
  | onInterrupt lowPower status card =>
      dsimp only [Lifecycle.step] at taken
      split at taken
      · cases taken
        apply of_setup _
        rw [plxOnInterrupt_setup, raiseInterrupt_setup]
      · cases taken
  | dpcForIsr =>
      dsimp only [Lifecycle.step] at taken
      split at taken
      · cases taken
        exact of_setup _ (plxDpcForIsr_setup s.board)
      · cases taken
  | drvOpen env =>
      cases taken
      exact consistent.plxDrvOpen ok
  | drvRelease =>
      cases taken
      exact consistent.plxDrvRelease

/-- **Opening.**  A failing open leaves the state as it was exactly if it does not fail.
After calls whose opens all go through, an open that returns 0 has the channel, all the
buffers and the handler. -/
theorem plxDrvOpen_atomic (s : Board) :
    (∀ env, ((plxDrvOpen s env).1 ≠ 0 → (plxDrvOpen s env).2.resources = s.resources) ↔
      OpenGoesThrough s env) ∧
    ∀ schedule t env, Consistent s →
      Meets Lifecycle.step OpensGoThrough { board := s } schedule →
      exec Lifecycle.step { board := s } schedule = some t →
      (plxDrvOpen t.board env).1 = 0 → Installed (plxDrvOpen t.board env).2.setup := by
  constructor
  · intro env
    constructor
    · intro unchanged
      by_contra fails
      have same := unchanged (mt (plxDrvOpen_returns s env).mp fails)
      have count : s.dev.openCount + 1 = s.dev.openCount :=
        (plxDrvOpen_openCount s env).symm.trans (congrArg Resources.openCount same)
      bv_omega
    · intro ok failed
      exact absurd ((plxDrvOpen_returns s env).mpr ok) failed
  · intro schedule t env consistent ok run
    have all := ok.throughout (I := fun u => Consistent u.board) (P := fun u => Consistent u.board)
      (fun _ _ _ h allowed taken => h.step allowed taken) (fun _ h => h) consistent
    exact plxDrvOpen_installed (throughout_iff_forall_exec.mp all schedule [] (by simp) t run)

/-- A session in which a frame is transferred. -/
def oneSession : List Call :=
  [.drvOpen (answers 0), .onInterrupt false 0x8000 0x40000000, .dpcForIsr, .drvRelease]

/-- After the session the device is opened again. -/
theorem plxDrvOpen_atomic_probed :
    ∃ t, exec Lifecycle.step { board := probed } oneSession = some t ∧
      Installed (plxDrvOpen t.board (answers 0)).2.setup := by
  have reopened : (exec Lifecycle.step { board := probed } oneSession).any fun t =>
      (plxDrvOpen t.board (answers 0)).1 = 0 := by
    decide +kernel
  obtain ⟨t, run, zero⟩ := (Option.any_eq_true _ _).mp reopened
  exact ⟨t, run, (plxDrvOpen_atomic probed).2 oneSession t (answers 0)
    (fun opened => absurd rfl opened) (by decide +kernel) run (of_decide_eq_true zero)⟩

/-- `request_irq` refuses the shared line (`-EBUSY`) and the open fails.  The next open
returns 0 without asking for the interrupt again. -/
theorem failed_open_is_counted :
    ¬ ((plxDrvOpen probed (answers (-16))).1 ≠ 0 →
        (plxDrvOpen probed (answers (-16))).2.resources = probed.resources) ∧
      (plxDrvOpen (plxDrvOpen probed (answers (-16))).2 (answers 0)).1 = 0 ∧
      ¬ Installed (plxDrvOpen (plxDrvOpen probed (answers (-16))).2 (answers 0)).2.setup := by
  refine ⟨fun unchanged => ?_, by decide +kernel, by decide +kernel⟩
  have same := congrArg Resources.openCount (unchanged (by decide +kernel))
  exact absurd same (by decide +kernel)

end Cjunk.Plx
