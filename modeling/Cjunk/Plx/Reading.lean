import Mathlib.Data.Set.Basic
import Cjunk.Plx.Fops
import Cjunk.Plx.Ring

/-!
# The PLX 8311 driver: the read semaphore and the bytes of a frame

`plx_drv_read` takes `read_semph`, gives it back before it sleeps, and takes it again
when it is woken.  The count at its return is therefore compared with the count at its
entry up to `ReadCall.others`, what the other contexts did to the count while it slept;
and the read pointer is compared with the one it found when it last got to run,
`ReadCall.resumed`.

`down` stands for a `down_interruptible` that was granted.  The kernel grants the
semaphore only while its count is positive, which is `ReadCall.Granted`.
-/

namespace Cjunk.Plx

/-! ## The calls as they run -/

/-- The state in which a call that has been granted the semaphore enters its waiting
loop. -/
def started (s : Board) : Board :=
  (down s).setDev fun d => { d with cntrRead := d.cntrRead + 1 }

section Loop

variable (nonblock : Bool)

/-- The loop goes to sleep in the state `s`. -/
def Sleeps (s : Board) : Prop := s.dev.rp = s.dev.wp ∧ nonblock = false

instance (s : Board) : Decidable (Sleeps nonblock s) := inferInstanceAs (Decidable (_ ∧ _))

/-- The state in which the waiting loop last gets to run. -/
def lastRun : List Wake → Board → Board
  | [], s => s
  | .signal :: _, s => s
  | .woken t interrupted :: wakes, s =>
      if Sleeps nonblock s then if interrupted then t else lastRun wakes (down t) else s

/-- What the other contexts add to the count of the semaphore while the waiting loop
sleeps. -/
def addedByOthers : List Wake → Board → ℤ
  | [], _ => 0
  | .signal :: _, _ => 0
  | .woken t interrupted :: wakes, s =>
      if Sleeps nonblock s then
        (t.kern.readSemph - (up s).kern.readSemph) +
          if interrupted then 0 else addedByOthers wakes (down t)
      else 0

/-- The waiting loop finds a frame, in the state `t`, where it holds the semaphore. -/
inductive FindsFrame : List Wake → Board → Board → Prop
  | here {wakes : List Wake} {s : Board} (frame : s.dev.rp ≠ s.dev.wp) : FindsFrame wakes s s
  | woken {wakes : List Wake} {s t u : Board} (sleeps : Sleeps nonblock s)
      (later : FindsFrame wakes (down t) u) : FindsFrame (.woken t false :: wakes) s u

end Loop

namespace ReadCall

/-- The kernel grants the semaphore only while its count is positive. -/
structure Granted (s : Board) (call : ReadCall) : Prop where
  entry : call.interrupted = false → 0 < s.kern.readSemph
  woken : ∀ t, Wake.woken t false ∈ call.wakes → 0 < t.kern.readSemph

/-- The state in which the call last gets to run. -/
def resumed (call : ReadCall) (s : Board) : Board :=
  if call.interrupted then s else lastRun call.nonblock call.wakes (started s)

/-- What the other contexts add to the count of the semaphore while the call sleeps. -/
def others (call : ReadCall) (s : Board) : ℤ :=
  if call.interrupted then 0 else addedByOthers call.nonblock call.wakes (started s)

end ReadCall

/-- The addresses `copy_to_user (data, dev->frames[dev->rp], len)` reads. -/
def copiedBytes (s : Board) (len : ℕ) : Set ℕ :=
  {a | s.dev.frames s.dev.rp.toNat ≤ a ∧ a < s.dev.frames s.dev.rp.toNat + len}

/-- The `DMA_SIZE` bytes of `frames[i]`. -/
def frameBytes (s : Board) (i : ℕ) : Set ℕ :=
  {a | s.dev.frames i ≤ a ∧ a < s.dev.frames i + dmaSize}

theorem copiedBytes_subset_iff (s : Board) (len : ℕ) :
    copiedBytes s len ⊆ frameBytes s s.dev.rp.toNat ↔ len ≤ dmaSize := by
  constructor
  · intro inside
    by_contra h
    have past : s.dev.frames s.dev.rp.toNat + dmaSize ∈ copiedBytes s len := by
      refine ⟨Nat.le_add_right _ _, ?_⟩
      omega
    exact absurd (inside past).2 (Nat.lt_irrefl _)
  · rintro short a ⟨low, high⟩
    refine ⟨low, ?_⟩
    omega

/-- Every pointer that is advanced has gone on by one, modulo the number of buffers. -/
theorem advance_mod_noOfBuffers (p : U8) :
    (advance p).toNat % noOfBuffers = (p.toNat + 1) % noOfBuffers := by
  unfold advance noOfBuffers
  split
  · rename_i last
    have : p.toNat = 7 := by bv_omega
    rw [this]
    rfl
  · have : (p + 1).toNat = (p.toNat + 1) % 256 := by
      rw [BitVec.toNat_add]
      rfl
    omega

/-! ## The semaphore in the waiting loop -/

@[simp] theorem up_readSemph (s : Board) : (up s).kern.readSemph = s.kern.readSemph + 1 := rfl
@[simp] theorem up_dev (s : Board) : (up s).dev = s.dev := rfl

/-- A semaphore that was granted has one less. -/
theorem down_readSemph {s : Board} (granted : 0 < s.kern.readSemph) :
    ((down s).kern.readSemph : ℤ) = s.kern.readSemph - 1 := by
  show ((s.kern.readSemph - 1 : ℕ) : ℤ) = s.kern.readSemph - 1
  omega

section WaitForFrame

variable {nonblock : Bool} {wakes : List Wake} {s t : Board} {e : ℤ} {r : Wait}

theorem waitForFrame_of_frame (frame : s.dev.rp ≠ s.dev.wp) :
    waitForFrame nonblock wakes s = some (.frame s) := by
  rw [waitForFrame.eq_def]
  exact if_neg frame

theorem lastRun_of_awake (awake : ¬ Sleeps nonblock s) : lastRun nonblock wakes s = s := by
  match wakes with
  | [] => rfl
  | .signal :: _ => rfl
  | .woken _ _ :: _ => exact if_neg awake

theorem addedByOthers_of_awake (awake : ¬ Sleeps nonblock s) :
    addedByOthers nonblock wakes s = 0 := by
  match wakes with
  | [] => rfl
  | .signal :: _ => rfl
  | .woken _ _ :: _ => exact if_neg awake

theorem waitForFrame_woken (sleeps : Sleeps nonblock s) :
    waitForFrame nonblock (.woken t false :: wakes) s = waitForFrame nonblock wakes (down t) := by
  rw [waitForFrame, if_pos sleeps.1]
  dsimp only
  rw [if_neg (by rw [sleeps.2]; exact Bool.false_ne_true), if_neg Bool.false_ne_true]

theorem FindsFrame.waitForFrame (h : FindsFrame nonblock wakes s t) :
    waitForFrame nonblock wakes s = some (.frame t) := by
  induction h with
  | here frame => exact waitForFrame_of_frame frame
  | woken sleeps _ later => exact (waitForFrame_woken sleeps).trans later

/-- A waiting loop that was started with the semaphore held has ended: it has given back
the semaphore if it gives up, and holds it if it has found a frame. -/
def Ends (nonblock : Bool) (wakes : List Wake) (s : Board) : Wait → Prop
  | .giveUp e t => e < 0 ∧
      (t.kern.readSemph : ℤ) = s.kern.readSemph + 1 + addedByOthers nonblock wakes s ∧
      t.dev.rp = (lastRun nonblock wakes s).dev.rp
  | .frame t => FindsFrame nonblock wakes s t ∧
      (t.kern.readSemph : ℤ) = s.kern.readSemph + addedByOthers nonblock wakes s ∧
      t = lastRun nonblock wakes s

/-- The loop ends where it is, or goes on after a wake-up. -/
theorem waitForFrame_step (h : waitForFrame nonblock wakes s = some r) :
    Ends nonblock wakes s r ∨
    ∃ t rest, Sleeps nonblock s ∧ wakes = .woken t false :: rest ∧
      waitForFrame nonblock rest (down t) = some r := by
  by_cases frame : s.dev.rp = s.dev.wp
  · rw [waitForFrame.eq_def] at h
    dsimp only at h
    rw [if_pos frame] at h
    cases blocks : nonblock with
    | true =>
        rw [if_pos blocks] at h
        cases h
        have awake : ¬ Sleeps true s := fun sleeps => absurd sleeps.2 (by decide)
        refine .inl ⟨by decide, ?_, ?_⟩
        · rw [addedByOthers_of_awake awake, up_readSemph]
          omega
        · rw [lastRun_of_awake awake, up_dev]
    | false =>
        rw [if_neg (by rw [blocks]; exact Bool.false_ne_true)] at h
        have sleeps : Sleeps false s := ⟨frame, rfl⟩
        cases wakes with
        | nil => cases h
        | cons wake rest =>
          cases wake with
          | signal =>
              cases h
              exact .inl ⟨by decide, (Int.add_zero _).symm, rfl⟩
          | woken t interrupted =>
            cases interrupted with
            | true =>
                cases h
                refine .inl ⟨by decide, ?_, ?_⟩
                · rw [addedByOthers, if_pos sleeps, if_pos rfl, up_readSemph]
                  omega
                · rw [lastRun, if_pos sleeps, if_pos rfl]
            | false =>
                refine .inr ⟨t, rest, sleeps, rfl, ?_⟩
                rw [← blocks]
                exact h
  · rw [waitForFrame_of_frame frame] at h
    cases h
    have awake : ¬ Sleeps nonblock s := fun sleeps => frame sleeps.1
    refine .inl ⟨.here frame, ?_, (lastRun_of_awake awake).symm⟩
    rw [addedByOthers_of_awake awake, Int.add_zero]

/-- A wake-up only adds to what the others have done to the semaphore. -/
theorem Ends.woken (sleeps : Sleeps nonblock s) (granted : 0 < t.kern.readSemph)
    (later : Ends nonblock wakes (down t) r) :
    Ends nonblock (.woken t false :: wakes) s r := by
  have added : addedByOthers nonblock (.woken t false :: wakes) s =
      t.kern.readSemph - (up s).kern.readSemph + addedByOthers nonblock wakes (down t) :=
    if_pos sleeps
  have last : lastRun nonblock (.woken t false :: wakes) s =
      lastRun nonblock wakes (down t) := if_pos sleeps
  have held := down_readSemph granted
  rw [up_readSemph] at added
  cases r with
  | giveUp e u =>
      obtain ⟨error, count, rp⟩ := later
      refine ⟨error, ?_, last ▸ rp⟩
      rw [count, added, held]
      omega
  | frame u =>
      obtain ⟨found, count, rp⟩ := later
      refine ⟨.woken sleeps found, ?_, last ▸ rp⟩
      rw [count, added, held]
      omega

theorem waitForFrame_ends (h : waitForFrame nonblock wakes s = some r)
    (granted : ∀ t, Wake.woken t false ∈ wakes → 0 < t.kern.readSemph) :
    Ends nonblock wakes s r := by
  induction wakes generalizing s with
  | nil =>
      obtain ends | ⟨_, _, _, empty, _⟩ := waitForFrame_step h
      · exact ends
      · cases empty
  | cons wake wakes ih =>
      obtain ends | ⟨t, rest, sleeps, same, later⟩ := waitForFrame_step h
      · exact ends
      · cases same
        exact (ih later fun u mem => granted u (.tail _ mem)).woken sleeps
          (granted t (.head _))

end WaitForFrame

/-! ## A whole call -/

/-- What `plx_drv_read`, called in the state `s`, has done when it returns `result` and
leaves the state `t`. -/
structure ReadSound (call : ReadCall) (s : Board) (result : ℤ) (t : Board) : Prop where
  semaphore : (t.kern.readSemph : ℤ) = s.kern.readSemph + call.others s
  failed : result < 0 → t.dev.rp = (call.resumed s).dev.rp
  advanced : 0 ≤ result →
    t.dev.rp.toNat % noOfBuffers = ((call.resumed s).dev.rp.toNat + 1) % noOfBuffers
  copied : 0 ≤ result → copiedBytes (call.resumed s) call.len ⊆
    frameBytes (call.resumed s) (call.resumed s).dev.rp.toNat

/-- What `plx_drv_poll`, called in the state `s`, has done when it leaves the state
`t`. -/
structure PollSound (s t : Board) : Prop where
  semaphore : t.kern.readSemph = s.kern.readSemph
  unread : t.dev.rp = s.dev.rp

section

variable {s t : Board} {call : ReadCall} {result : ℤ}

theorem plxDrvRead_interrupted (interrupted : call.interrupted = true) :
    plxDrvRead s call = some (-eRestartSys, s) := if_pos interrupted

theorem plxDrvRead_going (going : call.interrupted = false) :
    plxDrvRead s call = (waitForFrame call.nonblock call.wakes (started s)).map fun
      | .giveUp error t => (error, t)
      | .frame t => copyFrame t call.len call.copyFails := by
  unfold plxDrvRead
  rw [going, if_neg Bool.false_ne_true]
  show _ = (waitForFrame call.nonblock call.wakes (started s)).map _
  dsimp only
  rw [show (down s).setDev _ = started s from rfl]
  rcases waitForFrame call.nonblock call.wakes (started s) with _ | ⟨⟨e, t⟩ | t⟩ <;> rfl

theorem others_going (going : call.interrupted = false) :
    call.others s = addedByOthers call.nonblock call.wakes (started s) := by
  rw [ReadCall.others, going, if_neg Bool.false_ne_true]

theorem resumed_going (going : call.interrupted = false) :
    call.resumed s = lastRun call.nonblock call.wakes (started s) := by
  rw [ReadCall.resumed, going, if_neg Bool.false_ne_true]

theorem started_readSemph (granted : call.Granted s) (going : call.interrupted = false) :
    ((started s).kern.readSemph : ℤ) = s.kern.readSemph - 1 :=
  down_readSemph (granted.entry going)

/-- A call that returns an error, with the semaphore given back and the pointer
unmoved. -/
theorem ReadSound.of_error (error : result < 0)
    (semaphore : (t.kern.readSemph : ℤ) = s.kern.readSemph + call.others s)
    (unmoved : t.dev.rp = (call.resumed s).dev.rp) : ReadSound call s result t where
  semaphore := semaphore
  failed := fun _ => unmoved
  advanced := fun success => absurd error (Int.not_lt.mpr success)
  copied := fun success => absurd error (Int.not_lt.mpr success)

/-- A call that has found a frame, and whose copy fails or hands it out. -/
theorem copyFrame_sound (granted : call.Granted s) (going : call.interrupted = false)
    (held : Ends call.nonblock call.wakes (started s) (.frame t))
    (fits : call.copyFails = false → t.dev.rp ≠ t.dev.ip ∧ call.len ≤ dmaSize) :
    ReadSound call s (copyFrame t call.len call.copyFails).1
      (copyFrame t call.len call.copyFails).2 := by
  obtain ⟨-, count, last⟩ := held
  rw [started_readSemph granted going, ← others_going going] at count
  rw [← resumed_going going] at last
  have back : ((t.kern.readSemph + 1 : ℕ) : ℤ) = s.kern.readSemph + call.others s := by
    omega
  cases fails : call.copyFails with
  | true =>
      rw [copyFrame_fault]
      exact .of_error (show -eFault < 0 by decide) back (congrArg (·.dev.rp) last)
  | false =>
      obtain ⟨apart, short⟩ := fits fails
      obtain ⟨length, ring⟩ := copyFrame_ok call.len apart
      have rp : (copyFrame t call.len false).2.dev.rp = advance t.dev.rp :=
        congrArg RingView.rp ring
      have semaphore : (copyFrame t call.len false).2.kern.readSemph = t.kern.readSemph + 1 :=
        congrArg RingView.readSemph ring
      rw [length]
      exact {
        semaphore := by rw [semaphore, back]
        failed := fun error => absurd error (Int.not_lt.mpr (Int.natCast_nonneg _))
        advanced := fun _ => by rw [rp, ← last, advance_mod_noOfBuffers]
        copied := fun _ => (copiedBytes_subset_iff _ _).mpr short }

/-- A call that completes its copy as it should has not met the interrupt pointer, and
was asked for a frame at most. -/
theorem ReadSound.fits (granted : call.Granted s) (going : call.interrupted = false)
    (held : Ends call.nonblock call.wakes (started s) (.frame t))
    (sound : ReadSound call s (copyFrame t call.len false).1 (copyFrame t call.len false).2) :
    t.dev.rp ≠ t.dev.ip ∧ call.len ≤ dmaSize := by
  obtain ⟨-, count, last⟩ := held
  rw [started_readSemph granted going, ← others_going going] at count
  rw [← resumed_going going] at last
  by_cases met : t.dev.rp = t.dev.ip
  · -- the semaphore is still held
    have kept : (copyFrame t call.len false).2.kern.readSemph = t.kern.readSemph :=
      congrArg RingView.readSemph (copyFrame_met call.len met).2
    have semaphore := sound.semaphore
    rw [kept] at semaphore
    omega
  · have length := (copyFrame_ok call.len met).1
    have inside := sound.copied (by rw [length]; exact Int.natCast_nonneg _)
    rw [← last, copiedBytes_subset_iff] at inside
    exact ⟨met, inside⟩

/-- `plx_drv_read` keeps to the semaphore and to the frame if and only if, where it
completes the copy of a frame, the interrupt pointer is not at the frame and the length
is at most that of a frame. -/
theorem plxDrvRead_sound_iff (granted : call.Granted s) :
    (∀ result t, plxDrvRead s call = some (result, t) → ReadSound call s result t) ↔
      (call.interrupted = false → call.copyFails = false →
        ∀ t, FindsFrame call.nonblock call.wakes (started s) t →
          t.dev.rp ≠ t.dev.ip ∧ call.len ≤ dmaSize) := by
  constructor
  · intro sound going copied t found
    have returns := plxDrvRead_going (s := s) going
    rw [found.waitForFrame, copied] at returns
    exact (sound _ _ returns).fits granted going
      (waitForFrame_ends found.waitForFrame granted.woken)
  · intro fits result t returns
    cases going : call.interrupted with
    | true =>
        rw [plxDrvRead_interrupted going] at returns
        cases returns
        refine .of_error (by decide) ?_ ?_
        · rw [ReadCall.others, if_pos going, Int.add_zero]
        · rw [ReadCall.resumed, if_pos going]
    | false =>
        rw [plxDrvRead_going going, Option.map_eq_some_iff] at returns
        obtain ⟨r, wait, same⟩ := returns
        have ends := waitForFrame_ends wait granted.woken
        cases r with
        | giveUp error u =>
            cases same
            obtain ⟨negative, count, rp⟩ := ends
            rw [started_readSemph granted going, ← others_going going] at count
            rw [← resumed_going going] at rp
            exact .of_error negative (by omega) rp
        | frame u =>
            have sound := copyFrame_sound granted going ends
              fun copied => fits going copied u ends.1
            rw [show copyFrame u call.len call.copyFails = (result, t) from same] at sound
            exact sound

/-- `plx_drv_poll` gives back the semaphore and reads nothing. -/
theorem plxDrvPoll_sound (interrupted : Bool)
    (granted : interrupted = false → 0 < s.kern.readSemph) :
    PollSound s (plxDrvPoll s interrupted).2 := by
  cases interrupted with
  | true => exact ⟨rfl, rfl⟩
  | false =>
      have back : s.kern.readSemph - 1 + 1 = s.kern.readSemph := Nat.sub_add_cancel (granted rfl)
      unfold plxDrvPoll
      rw [if_neg Bool.false_ne_true]
      dsimp only
      split
      · exact ⟨back, rfl⟩
      · exact ⟨back, rfl⟩

/-- `plx_drv_read` and `plx_drv_poll` keep to the semaphore and to the frame if and only
if, where the read completes the copy of a frame, the interrupt pointer is not at the
frame and the length is at most that of a frame. -/
theorem readers_sound_iff (granted : call.Granted s) (interrupted : Bool)
    (polls : interrupted = false → 0 < s.kern.readSemph) :
    ((∀ result t, plxDrvRead s call = some (result, t) → ReadSound call s result t) ∧
        PollSound s (plxDrvPoll s interrupted).2) ↔
      (call.interrupted = false → call.copyFails = false →
        ∀ t, FindsFrame call.nonblock call.wakes (started s) t →
          t.dev.rp ≠ t.dev.ip ∧ call.len ≤ dmaSize) := by
  rw [plxDrvRead_sound_iff granted]
  exact and_iff_left (plxDrvPoll_sound interrupted polls)

end

/-- A frame is published, and the next transfer goes to another buffer. -/
def oneFrame : Board := { dev := { wp := 1, ip := 2 } }

/-- A read of four bytes, woken once. -/
def shortRead : ReadCall := { len := 4, wakes := [.woken oneFrame false] }

theorem readers_sound_iff_oneFrame :
    ((∀ result t, plxDrvRead oneFrame shortRead = some (result, t) →
          ReadSound shortRead oneFrame result t) ∧
        PollSound oneFrame (plxDrvPoll oneFrame false).2) ↔
      (shortRead.interrupted = false → shortRead.copyFails = false →
        ∀ t, FindsFrame shortRead.nonblock shortRead.wakes (started oneFrame) t →
          t.dev.rp ≠ t.dev.ip ∧ shortRead.len ≤ dmaSize) := by
  have granted : shortRead.Granted oneFrame := by
    refine ⟨fun _ => by decide, ?_⟩
    intro t mem
    cases mem with
    | head => decide
    | tail _ later => cases later
  exact readers_sound_iff granted false fun _ => by decide

/-- A read of one byte more than a frame has copies the byte behind the frame. -/
theorem plxDrvRead_long :
    ¬ ∀ (s : Board) (call : ReadCall), call.Granted s →
      (∀ result t, plxDrvRead s call = some (result, t) → ReadSound call s result t) ∧
        PollSound s (plxDrvPoll s false).2 := by
  intro h
  have granted : ReadCall.Granted oneFrame { len := dmaSize + 1 } :=
    ⟨fun _ => by decide, fun _ mem => absurd mem List.not_mem_nil⟩
  have frame : (started oneFrame).dev.rp ≠ (started oneFrame).dev.wp := by decide
  have found : FindsFrame false [] (started oneFrame) (started oneFrame) := .here frame
  have fits := (plxDrvRead_sound_iff granted).mp (h _ _ granted).1 rfl rfl _ found
  exact absurd fits.2 (by decide)

end Cjunk.Plx
