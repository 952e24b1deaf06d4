import Mathlib.Data.List.Chain
import Cjunk.Plx.BoardIo

/-!
# The PLX 8311 driver: elapsed ticks

`plx_diff_since_read` over a run of calls, each of which finds the board with its timer at
some 24-bit reading.  The comments say that a call returns the ticks since the call
before it, around the wrap of the timer, and that the first call returns zero.

`elapsed_iff` is the result: the calls do so for readings that begin at zero and never
decrease.
-/

namespace Cjunk.Plx

open Routine Device

/-- The readings of the timer are taken modulo this. -/
def timerRange : ℕ := 2 ^ 24

/-- A board whose timer shows a number of 24 bits. -/
structure TimedBoard where
  board : Board
  inRange : (commandLinkRegRead board xxBoardTimer).toNat < timerRange

namespace TimedBoard

/-- What the timer shows. -/
def reading (b : TimedBoard) : U32 := commandLinkRegRead b.board xxBoardTimer

end TimedBoard

/-- A run of calls: the board that each of them finds, and what they return. -/
def diffsSinceRead : List TimedBoard → Routine Device (List U32)
  | [] => pure []
  | b :: bs => do
      modify fun s => { s with board := b.board }
      let result ← plxDiffSinceRead
      let results ← diffsSinceRead bs
      return result :: results

/-- What the calls of a run should return, for the readings that they find. -/
structure Elapsed (readings results : List U32) : Prop where
  /-- "First time used will return zero." -/
  first : ∀ d, results.head? = some d → d = 0
  /-- The ticks since the call before, modulo the range of the timer. -/
  later : ∀ (i : ℕ) r r' d, readings[i]? = some r → readings[i + 1]? = some r' →
    results[i + 1]? = some d → d.toNat = (r'.toNat + timerRange - r.toNat) % timerRange
  /-- All of them together. -/
  total : ∀ r r', readings.head? = some r → readings.getLast? = some r' →
    ((results.map BitVec.toNat).sum + r.toNat) % timerRange = r'.toNat % timerRange

/-- What a run of calls returns is what it should, from when the driver is loaded. -/
def ElapsedIn (bs : List TimedBoard) : Prop :=
  ∀ s t results, s.before = 0 → diffsSinceRead bs s = some (.ok results, t) →
    Elapsed (bs.map TimedBoard.reading) results

/-! ## One call -/

/-- The difference that is computed of two readings. -/
def difference (before curr : U32) : U32 :=
  if curr.slt before then ((1 <<< 24) - 1 + before + curr) &&& 0xffffff else curr - before

theorem plxDiffSinceRead_eq (s : Device) : plxDiffSinceRead s =
    some (.ok (difference s.before (commandLinkRegRead s.board xxBoardTimer)),
      { s with before := commandLinkRegRead s.board xxBoardTimer }) := rfl

section

variable {before curr : U32}

/-- Readings are compared as they should be. -/
theorem slt_iff (hb : before.toNat < timerRange) (hc : curr.toNat < timerRange) :
    curr.slt before = true ↔ curr.toNat < before.toNat := by
  unfold timerRange at hb hc
  rw [BitVec.slt_iff_toInt_lt, BitVec.toInt_eq_toNat_of_lt (by omega),
    BitVec.toInt_eq_toNat_of_lt (by omega)]
  omega

theorem difference_of_le (hb : before.toNat < timerRange) (hc : curr.toNat < timerRange)
    (le : before.toNat ≤ curr.toNat) :
    (difference before curr).toNat = curr.toNat - before.toNat := by
  have no_wrap : ¬ curr.slt before = true := fun h => absurd ((slt_iff hb hc).mp h) (not_lt.mpr le)
  unfold difference
  rw [if_neg no_wrap, BitVec.toNat_sub_of_le le]

/-- The branch of the wrap. -/
theorem difference_of_lt (hb : before.toNat < timerRange) (hc : curr.toNat < timerRange)
    (lt : curr.toNat < before.toNat) : (difference before curr).toNat =
      (timerRange - 1 + before.toNat + curr.toNat) % timerRange := by
  unfold difference
  rw [if_pos ((slt_iff hb hc).mpr lt), BitVec.toNat_and]
  have mask : (0xffffff : U32).toNat = 2 ^ 24 - 1 := by decide
  have base : ((1 <<< 24) - 1 : U32).toNat = 2 ^ 24 - 1 := by decide
  unfold timerRange at *
  rw [mask, Nat.and_two_pow_sub_one_eq_mod, BitVec.toNat_add, BitVec.toNat_add, base]
  omega

/-- A call is right about two readings exactly if the timer has not wrapped: a wrap is
computed with `before` for its negative. -/
theorem difference_right_iff (hb : before.toNat < timerRange) (hc : curr.toNat < timerRange) :
    (difference before curr).toNat = (curr.toNat + timerRange - before.toNat) % timerRange ↔
      before.toNat ≤ curr.toNat := by
  by_cases le : before.toNat ≤ curr.toNat
  · rw [difference_of_le hb hc le, iff_true_right le]
    unfold timerRange at *
    omega
  · rw [difference_of_lt hb hc (not_le.mp le), iff_false_right le]
    unfold timerRange at *
    omega

end

/-! ## A run of calls -/

/-- The differences of a run of readings. -/
def differences : U32 → List U32 → List U32
  | _, [] => []
  | before, curr :: rest => difference before curr :: differences curr rest

/-- A run of calls returns the differences of what it finds. -/
theorem diffsSinceRead_run (bs : List TimedBoard) (s : Device) : ∃ t, diffsSinceRead bs s =
    some (.ok (differences s.before (bs.map TimedBoard.reading)), t) := by
  induction bs generalizing s with
  | nil => exact ⟨s, rfl⟩
  | cons b bs ih =>
      obtain ⟨t, rest⟩ := ih { s with board := b.board, before := b.reading }
      have call := plxDiffSinceRead_eq { s with board := b.board }
      exact ⟨t, bind_ok.mpr ⟨_, _, rfl, bind_ok.mpr ⟨_, _, call, bind_ok.mpr ⟨_, t, rest, rfl⟩⟩⟩⟩

theorem differences_later {before r r' : U32} {readings : List U32} {i : ℕ}
    (now : readings[i]? = some r) (next : readings[i + 1]? = some r') :
    (differences before readings)[i + 1]? = some (difference r r') := by
  induction readings generalizing before i with
  | nil => cases now
  | cons curr rest ih =>
      cases i with
      | zero =>
          cases now
          cases rest with
          | nil => cases next
          | cons curr' rest =>
              cases next
              rfl
      | succ i => exact ih now next

/-- All differences of readings that never decrease add up to the last reading. -/
theorem sum_differences {before : U32} {readings : List U32}
    (hb : before.toNat < timerRange) (hr : ∀ r ∈ readings, r.toNat < timerRange)
    (increasing : (before :: readings).IsChain (· ≤ ·)) :
    ((differences before readings).map BitVec.toNat).sum + before.toNat =
      (readings.getLastD before).toNat := by
  induction readings generalizing before with
  | nil => simp [differences]
  | cons curr rest ih =>
      obtain ⟨le, later⟩ := List.isChain_cons_cons.mp increasing
      have hc := hr curr List.mem_cons_self
      have sum := ih hc (fun r mem => hr r (List.mem_cons_of_mem _ mem)) later
      rw [differences, List.map_cons, List.sum_cons, difference_of_le hb hc le,
        List.getLastD_cons, ← sum]
      have : before.toNat ≤ curr.toNat := le
      omega

/-! ## The result -/

theorem reading_lt {bs : List TimedBoard} {r : U32} (mem : r ∈ bs.map TimedBoard.reading) :
    r.toNat < timerRange := by
  obtain ⟨b, -, rfl⟩ := List.mem_map.mp mem
  exact b.inRange

/-- What a run returns is right about each two readings exactly if they do not decrease. -/
theorem later_iff {before : U32} {readings : List U32}
    (hr : ∀ r ∈ readings, r.toNat < timerRange) :
    (∀ (i : ℕ) r r' d, readings[i]? = some r → readings[i + 1]? = some r' →
      (differences before readings)[i + 1]? = some d →
        d.toNat = (r'.toNat + timerRange - r.toNat) % timerRange) ↔
      readings.IsChain (· ≤ ·) := by
  rw [List.isChain_iff_getElem]
  constructor
  · intro right i below
    have now : readings[i]? = some readings[i] := List.getElem?_eq_getElem (by omega)
    have next : readings[i + 1]? = some readings[i + 1] := List.getElem?_eq_getElem below
    have := right i _ _ _ now next (differences_later now next)
    exact (difference_right_iff (hr _ (List.getElem_mem _)) (hr _ (List.getElem_mem _))).mp this
  · intro increasing i r r' d now next result
    obtain ⟨below, rfl⟩ := List.getElem?_eq_some_iff.mp now
    obtain ⟨below', rfl⟩ := List.getElem?_eq_some_iff.mp next
    rw [differences_later now next] at result
    cases result
    exact (difference_right_iff (hr _ (List.getElem_mem _)) (hr _ (List.getElem_mem _))).mpr
      (increasing i below')

/-- The first call returns the first reading. -/
theorem difference_zero (b : TimedBoard) : (difference 0 b.reading).toNat = b.reading.toNat :=
  difference_of_le (by decide) b.inRange (Nat.zero_le _)

/-- The first call returns zero exactly if it finds the timer at zero. -/
theorem first_iff (bs : List TimedBoard) :
    (∀ d, (differences 0 (bs.map TimedBoard.reading)).head? = some d → d = 0) ↔
      ∀ b, bs.head? = some b → b.reading = 0 := by
  cases bs with
  | nil => simp [differences]
  | cons b bs =>
      have first : difference 0 b.reading = 0 ↔ b.reading = 0 := by
        rw [← BitVec.toNat_inj, difference_zero, ← BitVec.toNat_inj]
      simpa [differences] using first

/-- From a reading of zero on, all calls together return the last reading. -/
theorem total_of_increasing {readings : List U32} (small : ∀ r ∈ readings, r.toNat < timerRange)
    (zero : ∀ r, readings.head? = some r → r = 0) (increasing : readings.IsChain (· ≤ ·))
    {r r' : U32} (head : readings.head? = some r) (last : readings.getLast? = some r') :
    ((differences 0 readings).map BitVec.toNat).sum + r.toNat = r'.toNat := by
  have from_zero : (0 :: readings).IsChain (· ≤ ·) := by
    cases readings with
    | nil => exact .singleton 0
    | cons r rs => exact List.isChain_cons_cons.mpr ⟨Nat.zero_le _, increasing⟩
  have sum := sum_differences (by decide) small from_zero
  rw [List.getLastD_eq_getLast?, last] at sum
  rw [zero r head]
  exact sum

/-- **Elapsed ticks.**  The calls of a run return what they should exactly if the first
finds the timer at zero and its readings never decrease. -/
theorem elapsed_iff (bs : List TimedBoard) :
    ElapsedIn bs ↔ (∀ b, bs.head? = some b → b.reading = 0) ∧
      (bs.map TimedBoard.reading).IsChain (· ≤ ·) := by
  have small := fun r (mem : r ∈ bs.map TimedBoard.reading) => reading_lt mem
  constructor
  · intro elapsed
    obtain ⟨t, run⟩ := diffsSinceRead_run bs {}
    have right := elapsed _ t _ rfl run
    exact ⟨(first_iff bs).mp right.first, (later_iff small).mp right.later⟩
  · rintro ⟨zero, increasing⟩ s t results loaded run
    obtain ⟨t', ran⟩ := diffsSinceRead_run bs s
    rw [ran] at run
    cases run
    rw [loaded]
    refine ⟨(first_iff bs).mpr zero, (later_iff small).mpr increasing, fun r r' head last => ?_⟩
    have begins : ∀ r, (bs.map TimedBoard.reading).head? = some r → r = 0 := by
      intro r head
      rw [List.head?_map] at head
      obtain ⟨b, found, rfl⟩ := Option.map_eq_some_iff.mp head
      exact zero b found
    rw [total_of_increasing small begins increasing head last]

/-- A board whose timer shows `ticks`. -/
def timerAt (ticks : BitVec 24) : TimedBoard where
  board := { chip := { link := fun _ => ticks.setWidth 32 } }
  inRange := by
    show (ticks.setWidth 32).toNat < timerRange
    rw [BitVec.toNat_setWidth_of_le (by decide)]
    exact ticks.isLt

/-- A wrap from `0xfffff0` to `0x10` is reported as `0xffffff` ticks, and the first call
returns what the timer shows. -/
theorem wrap_not_elapsed :
    ¬ ElapsedIn [timerAt 0, timerAt 0xfffff0, timerAt 0x10] ∧ ¬ ElapsedIn [timerAt 5] := by
  constructor
  · intro elapsed
    have right := elapsed {} _ _ rfl rfl
    exact absurd (right.later 1 0xfffff0 0x10 0xffffff rfl rfl rfl) (by decide)
  · intro elapsed
    have right := elapsed {} _ _ rfl rfl
    exact absurd (right.first 5 rfl) (by decide)

end Cjunk.Plx
