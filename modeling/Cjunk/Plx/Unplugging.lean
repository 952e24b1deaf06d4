import Mathlib.Data.List.Perm.Basic
import Cjunk.Lib.Run
import Cjunk.Plx.BoardReset
import Cjunk.Plx.Probe

/-!
# The PLX 8311 driver: `remove`

`remove` and `plx_release_resources` of `plx_driver.c`, and what becomes of the PCI resources while
devices come and go.  The kernel complains about a region that is given back but not held, or an
address that is unmapped but not mapped, and does nothing.

The work queue is left out, as in `probe`.

## Main results

* `plugging_balanced` — over any sequence of `probe` and `remove` the driver holds just the claimed
  regions and the mappings that its structure shows, gives each of them back once, and keeps
  nothing, exactly if every `probe` that gets as far as the registers has them mapped
-/

namespace Cjunk.Plx

open Words Routine Link Device CountedLoop Probing Run

deriving instance DecidableEq for Region

/-! ## The functions -/

/-- The driver and its device. -/
structure Plug where
  probing : Probing := {}
  /-- The driver is bound to a device. -/
  bound : Bool := false
  /-- How often the kernel has complained. -/
  complaints : ℕ := 0

namespace Plug

/-- `release_region` or `release_mem_region` -/
def releaseRegion (r : Region) (s : Plug) : Plug :=
  if r ∈ s.probing.regions then
    { s with probing := { s.probing with regions := s.probing.regions.erase r } }
  else { s with complaints := s.complaints + 1 }

/-- `iounmap` -/
def iounmap (va : ℕ) (s : Plug) : Plug :=
  if va ∈ s.probing.mappings then
    { s with probing := { s.probing with mappings := s.probing.mappings.erase va } }
  else { s with complaints := s.complaints + 1 }

end Plug

open Plug

/-- The region of a BAR. -/
def PciBar.region (bar : PciBar) : Region :=
  ⟨bar.properties.bIoSpace, bar.properties.physical, bar.properties.size⟩

/-- A BAR is unmapped from kernel space, if it was mapped. -/
def unmapBar (i : ℕ) (s : Plug) : Plug :=
  let bar := s.probing.pciBar i
  if bar.pVa = null then s
  else
    let s := s.iounmap bar.pVa
    { s with probing := s.probing.setBar i fun bar => { bar with pVa := null } }

/-- Its region is released, if it was claimed. -/
def releaseClaim (i : ℕ) (s : Plug) : Plug :=
  let bar := s.probing.pciBar i
  if bar.bResourceClaimed then s.releaseRegion bar.region else s

/-- A turn of the loop of `plx_release_resources`. -/
def releaseBar (i : ℕ) (s : Plug) : Plug :=
  let bar := s.probing.pciBar i
  if bar.properties.physical = 0 then s
  else if bar.properties.bIoSpace then releaseClaim i s
  else releaseClaim i (unmapBar i s)

/-- `plx_release_resources`. -/
def plxReleaseResources (s : Plug) : Plug :=
  if s.probing.flagStarted then
    let s := upTo pciNumBarsType00 releaseBar s
    { s with probing := { s.probing with flagStarted := false } }
  else s

/-- `remove`. -/
def remove (s : Plug) : Option Plug := do
  let (_, t) ← throughBar 2 (attempt (onLink (FasterCl.plxImmediateCmd xlStop))) s.probing
  let s := { s with probing := t, bound := false }
  if t.oops then some s
  else
    let s := plxReleaseResources s
    some { s with probing := { s.probing with enabled := false } }

/-- What the kernel calls. -/
inductive Plugging where
  | probe (env : ResetEnv) (host : Host)
  | remove

/-- The driver is bound to a device that it has probed without an error, and removed from one that
it is bound to.  Once the kernel has stopped it there is no other call. -/
def plugging (s : Plug) : Plugging → Option Plug
  | .probe env host =>
      if s.bound ∨ s.probing.oops then none
      else (probe env host s.probing).map fun (r, t) => { s with probing := t, bound := r.isOk }
  | .remove => if s.bound ∧ ¬ s.probing.oops then remove s else none

/-! ## What is held -/

/-- What a BAR is claimed for. -/
def PciBar.claims (bar : PciBar) : List Region := if bar.bResourceClaimed then [bar.region] else []

/-- Where a BAR is mapped. -/
def PciBar.maps (bar : PciBar) : List ℕ := if bar.pVa = null then [] else [bar.pVa]

/-- What the first BARs hold, and the others do not. -/
structure Holds (n m : ℕ) (s : Probing) : Prop where
  regions : s.regions.Perm ((List.range' n m).flatMap fun i => (s.pciBar i).claims)
  mappings : s.mappings.Perm ((List.range' n m).flatMap fun i => (s.pciBar i).maps)

/-- The driver holds what its structure shows while it is bound to a device, and nothing otherwise,
and the kernel has neither complained nor stopped it. -/
def Balanced (s : Plug) : Prop :=
  s.complaints = 0 ∧ s.probing.oops = false ∧ s.probing.enabled = s.bound ∧
    if s.bound then Holds 0 pciNumBarsType00 s.probing
    else s.probing.regions = [] ∧ s.probing.mappings = []

/-- The BARs of the device have an address without its flags, and those that are absent were not
claimed the last time that they were there. -/
def Plugging.Present (s : Plug) : Plugging → Prop
  | .probe _ host => ∀ i < pciNumBarsType00,
      if (host.resource i).start = 0 then (s.probing.pciBar i).bResourceClaimed = false
      else (barProperties host i s.probing).physical ≠ 0
  | .remove => True

/-- `probe` does not get as far as the registers, or it can map both BARs that they are behind. -/
def Plugging.MapsRegisters (s : Plug) : Plugging → Prop
  | .probe _ host => StopsEarly host ∨ Maps host s.probing 0 ∧ Maps host s.probing 2
  | .remove => True

/-- A BAR can be given back: it was neither claimed nor mapped at the address 0, and no I/O region
is mapped. -/
structure PciBar.Sound (bar : PciBar) : Prop where
  claimed : bar.bResourceClaimed = true → bar.properties.physical ≠ 0
  mapped : bar.pVa ≠ null → bar.properties.bIoSpace = false ∧ bar.properties.physical ≠ 0

/-! ## `probe` -/

section Requests

variable {host : Host} {i n : ℕ} {s : Probing}

/-- A turn of the loop of `plx_request_resources` claims and maps what it says. -/
theorem requestBar_holds (idle : (s.pciBar i).pVa = null)
    (present : if (host.resource i).start = 0 then (s.pciBar i).bResourceClaimed = false
      else (barProperties host i s).physical ≠ 0) :
    (requestBar host i s).regions = ((requestBar host i s).pciBar i).claims ++ s.regions ∧
      (requestBar host i s).mappings = ((requestBar host i s).pciBar i).maps ++ s.mappings ∧
      ((requestBar host i s).pciBar i).Sound := by
  unfold requestBar
  split at present
  · rename_i absent
    rw [if_pos absent]
    unfold PciBar.claims PciBar.maps
    rw [present, if_pos idle]
    exact ⟨rfl, rfl, by simp [present], by simp [idle]⟩
  · rename_i there
    rw [if_neg there]
    unfold plxPciBarResourceMap
    simp only [setBar_self]
    generalize barProperties host i s = properties at present ⊢
    have idle (claimed : Bool) : PciBar.Sound ⟨properties, null, claimed⟩ :=
      ⟨fun _ => present, fun mapped => absurd rfl mapped⟩
    cases io : properties.bIoSpace with
    | true =>
        cases host.requestRegion i with
        | true => simp [claim, setBar, PciBar.claims, PciBar.maps, PciBar.region, io, idle]
        | false => simp [setBar, PciBar.claims, PciBar.maps, idle]
    | false =>
        cases host.requestMemRegion i with
        | true =>
            have mapped : PciBar.Sound ⟨properties, host.ioremap i, true⟩ :=
              ⟨fun _ => present, fun _ => ⟨io, present⟩⟩
            by_cases failed : host.ioremap i = null
            · simp [claim, mapTo, setBar, PciBar.claims, PciBar.maps, PciBar.region, io, failed,
                idle]
            · simp [claim, mapTo, setBar, PciBar.claims, PciBar.maps, PciBar.region, io, failed,
                mapped]
        | false => simp [setBar, PciBar.claims, PciBar.maps, idle]

/-- The BARs before `n` hold what there is to hold, and the others are as they were. -/
structure Requested (n : ℕ) (s t : Probing) : Prop where
  holds : Holds 0 n t
  sound : ∀ i < n, (t.pciBar i).Sound
  others : ∀ i, n ≤ i → t.pciBar i = s.pciBar i
  enabled : t.enabled = s.enabled
  oops : t.oops = s.oops

/-- More is held where a turn has claimed and mapped something. -/
theorem Holds.concat {t : Probing} (h : Holds 0 n s) (before : ∀ i < n, t.pciBar i = s.pciBar i)
    (regions : t.regions = (t.pciBar n).claims ++ s.regions)
    (mappings : t.mappings = (t.pciBar n).maps ++ s.mappings) : Holds 0 (n + 1) t := by
  have same {α : Type} (f : PciBar → List α) :
      ((List.range' 0 n).flatMap fun i => f (t.pciBar i)) =
        (List.range' 0 n).flatMap fun i => f (s.pciBar i) :=
    List.flatMap_congr fun i mem => by rw [before i (by simpa using mem)]
  constructor
  · rw [List.range'_concat, List.flatMap_append, same PciBar.claims, regions]
    simpa using List.perm_append_comm.trans (h.regions.append_right _)
  · rw [List.range'_concat, List.flatMap_append, same PciBar.maps, mappings]
    simpa using List.perm_append_comm.trans (h.mappings.append_right _)

theorem requestBar_enabled : (requestBar host i s).enabled = s.enabled := by
  unfold requestBar plxPciBarResourceMap
  dsimp only
  split_ifs <;> rfl

theorem requestBar_oops : (requestBar host i s).oops = s.oops := by
  unfold requestBar plxPciBarResourceMap
  dsimp only
  split_ifs <;> rfl

theorem upTo_requestBar (regions : s.regions = []) (mappings : s.mappings = [])
    (idle : ∀ i < n, (s.pciBar i).pVa = null)
    (present : ∀ i < n, if (host.resource i).start = 0 then (s.pciBar i).bResourceClaimed = false
      else (barProperties host i s).physical ≠ 0) : Requested n s (upTo n (requestBar host) s) := by
  refine upTo_invariant (fun k t => Requested k s t) ⟨⟨?_, ?_⟩, ?_, ?_, rfl, rfl⟩ ?_
  · rw [regions]
    exact .nil
  · rw [mappings]
    exact .nil
  · exact fun i below => absurd below (Nat.not_lt_zero i)
  · exact fun i _ => rfl
  · intro k below t h
    have here := h.others k (Nat.le_refl k)
    have before (j : ℕ) (other : j ≠ k) : (requestBar host k t).pciBar j = t.pciBar j :=
      requestBar_of_ne host other t
    obtain ⟨claimed, mapped, sound⟩ := requestBar_holds (s := t) (by rw [here, idle k below])
      (by rw [here]; exact present k below)
    refine ⟨h.holds.concat (fun j less => before j (Nat.ne_of_lt less)) claimed mapped,
      fun j less => ?_, fun j less => ?_, requestBar_enabled.trans h.enabled,
      requestBar_oops.trans h.oops⟩
    · rcases Nat.lt_succ_iff_lt_or_eq.mp less with less | rfl
      · rw [before j (Nat.ne_of_lt less)]
        exact h.sound j less
      · exact sound
    · rw [before j (by omega), h.others j (by omega)]

end Requests

/-! ## `remove` -/

section Releases

variable {i m : ℕ} {s : Plug}

/-- The kernel does not complain about a region that is held. -/
theorem releaseClaim_eq {rest : List Region}
    (h : s.probing.regions.Perm ((s.probing.pciBar i).claims ++ rest)) :
    ∃ regions, releaseClaim i s = { s with probing := { s.probing with regions := regions } } ∧
      regions.Perm rest := by
  unfold releaseClaim Plug.releaseRegion
  unfold PciBar.claims at h
  cases claimed : (s.probing.pciBar i).bResourceClaimed with
  | true =>
      rw [claimed, if_pos rfl] at h
      have erased := h.erase (s.probing.pciBar i).region
      rw [List.singleton_append, List.erase_cons_head] at erased
      refine ⟨_, ?_, erased⟩
      dsimp only
      rw [claimed, if_pos rfl, if_pos (h.mem_iff.mpr List.mem_cons_self)]
  | false =>
      rw [claimed, if_neg Bool.false_ne_true] at h
      refine ⟨_, ?_, h⟩
      dsimp only
      rw [claimed]
      rfl

/-- Nor about an address that is mapped. -/
theorem unmapBar_eq {rest : List ℕ}
    (h : s.probing.mappings.Perm ((s.probing.pciBar i).maps ++ rest)) :
    ∃ mappings, unmapBar i s = { s with probing :=
        { s.probing.setBar i (fun bar => { bar with pVa := null }) with mappings := mappings } } ∧
      mappings.Perm rest := by
  unfold PciBar.maps at h
  by_cases idle : (s.probing.pciBar i).pVa = null
  · rw [if_pos idle] at h
    refine ⟨_, (if_pos idle).trans ?_, h⟩
    have same : s.probing.setBar i (fun bar => { bar with pVa := null }) = s.probing := by
      unfold setBar
      rw [← idle, Function.update_eq_self]
    rw [same]
  · rw [if_neg idle] at h
    have erased := h.erase (s.probing.pciBar i).pVa
    rw [List.singleton_append, List.erase_cons_head] at erased
    refine ⟨_, (if_neg idle).trans ?_, erased⟩
    unfold Plug.iounmap
    rw [if_pos (h.mem_iff.mpr List.mem_cons_self)]
    rfl

/-- The rest of what is there is as it was. -/
structure Apart (s t : Plug) : Prop where
  complaints : t.complaints = s.complaints
  enabled : t.probing.enabled = s.probing.enabled
  started : t.probing.flagStarted = s.probing.flagStarted
  oops : t.probing.oops = s.probing.oops
  bound : t.bound = s.bound

/-- What a turn of the loop of `plx_release_resources` gives back. -/
structure Released (i m : ℕ) (s t : Plug) : Prop where
  holds : Holds (i + 1) m t.probing
  idle : (t.probing.pciBar i).pVa = null
  others : ∀ j, j ≠ i → t.probing.pciBar j = s.probing.pciBar j
  apart : Apart s t

theorem releaseBar_released (h : Holds i (m + 1) s.probing) (sound : (s.probing.pciBar i).Sound) :
    Released i m s (releaseBar i s) := by
  obtain ⟨regions, mappings⟩ := h
  rw [List.range'_succ, List.flatMap_cons] at regions mappings
  have idle (h : (s.probing.pciBar i).pVa = null) : (s.probing.pciBar i).maps = [] := if_pos h
  unfold releaseBar
  dsimp only
  split
  -- An absent BAR was neither claimed nor mapped.
  · rename_i absent
    have unmapped : (s.probing.pciBar i).pVa = null := by
      by_contra mapped
      exact (sound.mapped mapped).2 absent
    have unclaimed : (s.probing.pciBar i).claims = [] := if_neg fun claimed =>
      sound.claimed claimed absent
    rw [unclaimed] at regions
    rw [idle unmapped] at mappings
    exact ⟨⟨regions, mappings⟩, unmapped, fun _ _ => rfl, ⟨rfl, rfl, rfl, rfl, rfl⟩⟩
  · split
    -- An I/O BAR is claimed, but never mapped.
    · rename_i io
      have unmapped : (s.probing.pciBar i).pVa = null := by
        by_contra mapped
        rw [(sound.mapped mapped).1] at io
        exact Bool.false_ne_true io
      rw [idle unmapped] at mappings
      obtain ⟨left, released, perm⟩ := releaseClaim_eq regions
      rw [released]
      exact ⟨⟨perm, mappings⟩, unmapped, fun _ _ => rfl, ⟨rfl, rfl, rfl, rfl, rfl⟩⟩
    -- A memory BAR is unmapped first; its region does not depend on that.
    · obtain ⟨mapped, unmaps, permMaps⟩ := unmapBar_eq mappings
      rw [unmaps]
      let cleared := s.probing.setBar i fun bar => { bar with pVa := null }
      have here : cleared.pciBar i = { s.probing.pciBar i with pVa := null } := setBar_self ..
      have others (j : ℕ) (other : j ≠ i) : cleared.pciBar j = s.probing.pciBar j :=
        setBar_of_ne _ _ other
      have later {α : Type} (f : PciBar → List α) :
          ((List.range' (i + 1) m).flatMap fun j => f (cleared.pciBar j)) =
            (List.range' (i + 1) m).flatMap fun j => f (s.probing.pciBar j) :=
        List.flatMap_congr fun j mem => by
          have := List.mem_range'_1.mp mem
          rw [others j (by omega)]
      have same : (cleared.pciBar i).claims = (s.probing.pciBar i).claims := by
        rw [here]
        rfl
      rw [← later, ← same] at regions
      rw [← later] at permMaps
      obtain ⟨left, released, perm⟩ := releaseClaim_eq (i := i)
        (s := { s with probing := { cleared with mappings := mapped } }) regions
      rw [released]
      exact ⟨⟨perm, permMaps⟩, congrArg PciBar.pVa here, others, ⟨rfl, rfl, rfl, rfl, rfl⟩⟩

theorem Apart.trans {t u : Plug} (h : Apart s t) (h' : Apart t u) : Apart s u :=
  ⟨h'.complaints.trans h.complaints, h'.enabled.trans h.enabled, h'.started.trans h.started,
    h'.oops.trans h.oops, h'.bound.trans h.bound⟩

/-- All that is held is given back. -/
theorem upTo_releaseBar {n : ℕ} (h : Holds 0 n s.probing)
    (sound : ∀ i < n, (s.probing.pciBar i).Sound) :
    let t := upTo n releaseBar s
    Holds n 0 t.probing ∧ (∀ i < n, (t.probing.pciBar i).pVa = null) ∧ Apart s t := by
  have turns : Holds n (n - n) (upTo n releaseBar s).probing ∧
      (∀ i < n, ((upTo n releaseBar s).probing.pciBar i).pVa = null) ∧
      (∀ i, n ≤ i → (upTo n releaseBar s).probing.pciBar i = s.probing.pciBar i) ∧
      Apart s (upTo n releaseBar s) := by
    refine upTo_invariant (fun k t => Holds k (n - k) t.probing ∧
      (∀ i < k, (t.probing.pciBar i).pVa = null) ∧
      (∀ i, k ≤ i → t.probing.pciBar i = s.probing.pciBar i) ∧ Apart s t)
      ⟨h, fun i below => absurd below (Nat.not_lt_zero i), fun i _ => rfl,
        ⟨rfl, rfl, rfl, rfl, rfl⟩⟩ ?_
    rintro k below t ⟨holds, idle, others, apart⟩
    have left : n - k = n - (k + 1) + 1 := by omega
    rw [left] at holds
    have turn := releaseBar_released holds (by rw [others k (Nat.le_refl k)]; exact sound k below)
    refine ⟨turn.holds, fun i less => ?_, fun i more => ?_, apart.trans turn.apart⟩
    · rcases Nat.lt_succ_iff_lt_or_eq.mp less with less | rfl
      · rw [turn.others i (Nat.ne_of_lt less)]
        exact idle i less
      · exact turn.idle
    · rw [turn.others i (by omega), others i (by omega)]
  rw [Nat.sub_self] at turns
  exact ⟨turns.1, turns.2.1, turns.2.2.2⟩

end Releases

/-! ## Any number of devices -/

section Runs

variable {s t : Plug} {a : Plugging} {as : List Plugging}

/-- What a routine on the device leaves alone. -/
def Probing.apart (s : Probing) : Probing := { s with device := {} }

theorem apart_eq_iff {s t : Probing} : t.apart = s.apart ↔
    t.pciBar = s.pciBar ∧ t.flagStarted = s.flagStarted ∧ t.enabled = s.enabled ∧
      t.regions = s.regions ∧ t.mappings = s.mappings ∧ t.oops = s.oops := by
  unfold Probing.apart
  simp

theorem onDevice_keeps {α : Type} (m : Routine Device α) : Keeps Probing.apart (onDevice m) :=
  .onPart Probing.device (fun d s => { s with device := d }) (fun _ _ => rfl) m

theorem Mapped.of_apart {i : ℕ} {s t : Probing} (h : Mapped i s) (same : t.apart = s.apart) :
    Mapped i t := by
  unfold Mapped
  rw [(apart_eq_iff.mp same).1]
  exact h

/-- Through a BAR that is mapped the device is reached, and nothing else changes. -/
theorem throughBar_mapped {i : ℕ} {m : Routine Device Unit} {s t : Probing} {r : Except ℤ Unit}
    (mapped : Mapped i s) (passes : Passes m) (run : throughBar i m s = some (r, t)) :
    r = .ok () ∧ t.apart = s.apart := by
  have reached : onDevice m s = some (r, t) := (if_neg mapped).symm.trans run
  obtain ⟨_, ok⟩ := passes.onPart Probing.device (fun d s => { s with device := d }) s r t reached
  exact ⟨ok, onDevice_keeps m s r t reached⟩

theorem throughBar_mapped_bind {i : ℕ} {m : Routine Device Unit} {f : Unit → Routine Probing Unit}
    {s t : Probing} {r : Except ℤ Unit} (mapped : Mapped i s) (passes : Passes m)
    (run : (throughBar i m >>= f) s = some (r, t)) :
    ∃ u, u.apart = s.apart ∧ f () u = some (r, t) := by
  obtain ⟨e, failed, -⟩ | ⟨_, u, reached, run⟩ := bind_cases run
  · cases (throughBar_mapped mapped passes failed).1
  · exact ⟨u, (throughBar_mapped mapped passes reached).2, run⟩

/-- Through any other the kernel stops the driver. -/
theorem throughBar_null_bind {i : ℕ} {m : Routine Device Unit} {f : Unit → Routine Probing Unit}
    {s t : Probing} {r : Except ℤ Unit} (unmapped : ¬ Mapped i s)
    (run : (throughBar i m >>= f) s = some (r, t)) : t.oops = true := by
  have stops : throughBar i m s = some (.error 0, { s with oops := true }) :=
    if_pos (not_not.mp unmapped)
  obtain ⟨e, failed, -⟩ | ⟨_, u, reached, -⟩ := bind_cases run
  · rw [stops] at failed
    cases failed
    rfl
  · rw [stops] at reached
    cases reached

theorem plxBoardReset_passes (env : ResetEnv) : Passes (plxBoardReset env) := by
  intro s r t run
  rw [plxBoardReset_eq] at run
  cases run
  exact ⟨(), rfl⟩

/-- With both BARs mapped the state of the board is defined without an error. -/
theorem defineState_mapped {env : ResetEnv} {s t : Probing} {r : Except ℤ Unit}
    (mapped : Mapped 0 s ∧ Mapped 2 s) (run : defineState env s = some (r, t)) :
    r = .ok () ∧ t.apart = s.apart := by
  obtain ⟨u, reset, run⟩ := throughBar_mapped_bind mapped.1 (plxBoardReset_passes env) run
  obtain ⟨v, cleared, run⟩ := throughBar_mapped_bind (mapped.2.of_apart reset) (.modify _) run
  have same := cleared.trans reset
  obtain ⟨w, stopped, run⟩ := throughBar_mapped_bind (mapped.2.of_apart same) (.attempt _) run
  have same := stopped.trans same
  obtain ⟨ok, init⟩ := throughBar_mapped (mapped.2.of_apart same) (.attempt _) run
  exact ⟨ok, init.trans same⟩

theorem defineState_null {env : ResetEnv} {s t : Probing} {r : Except ℤ Unit}
    (unmapped : ¬ (Mapped 0 s ∧ Mapped 2 s)) (run : defineState env s = some (r, t)) :
    t.oops = true := by
  by_cases zero : Mapped 0 s
  · obtain ⟨u, reset, run⟩ := throughBar_mapped_bind zero (plxBoardReset_passes env) run
    exact throughBar_null_bind (fun two => unmapped ⟨zero, two.of_apart reset.symm⟩) run
  · exact throughBar_null_bind zero run

/-- What becomes of `probe`. -/
theorem probe_cases {env : ResetEnv} {host : Host} {s t : Probing} {r : Except ℤ Unit}
    (run : probe env host s = some (r, t)) :
    (StopsEarly host ∧ r.isOk = false ∧ (t = s ∨ t = { s with enabled := false })) ∨
      (Maps host s 0 ∧ Maps host s 2 ∧ r.isOk = true ∧
        t.apart = (plxRequestResources host { s with enabled := true }).2.apart) ∨
      ¬ StopsEarly host ∧ ¬ (Maps host s 0 ∧ Maps host s 2) ∧ t.oops = true := by
  by_cases early : StopsEarly host
  · obtain ⟨u, stops, -⟩ := setUp_stops host s early
    have first := setUp_eq host s
    rw [probe_fails host s stops] at run
    cases run
    rw [stops] at first
    refine .inl ⟨early, rfl, ?_⟩
    split at first
    · cases first
      exact .inl rfl
    · split at first
      · cases first
        exact .inr rfl
      · cases first
  · have passes := setUp_passes host s early
    obtain ⟨e, failed, -⟩ | ⟨_, u, passed, run⟩ := bind_cases run
    · rw [passes] at failed
      cases failed
    rw [passes] at passed
    cases passed
    have mapped := requestResources_registers_iff host s
    by_cases maps : Maps host s 0 ∧ Maps host s 2
    · obtain ⟨rfl, same⟩ := defineState_mapped (mapped.mpr maps) run
      exact .inr (.inl ⟨maps.1, maps.2, rfl, same⟩)
    · exact .inr (.inr ⟨early, maps, defineState_null (mt mapped.mp maps) run⟩)

theorem Holds.of_apart {n m : ℕ} {s t : Probing} (h : Holds n m s) (same : t.apart = s.apart) :
    Holds n m t := by
  obtain ⟨bars, -, -, regions, mappings, -⟩ := apart_eq_iff.mp same
  exact ⟨by rw [regions, bars]; exact h.regions, by rw [mappings, bars]; exact h.mappings⟩

theorem Holds.nil {n : ℕ} {s : Probing} (h : Holds n 0 s) : s.regions = [] ∧ s.mappings = [] :=
  ⟨h.regions.eq_nil, h.mappings.eq_nil⟩

/-- What the driver relies on. -/
structure Inv (s : Plug) : Prop where
  balanced : Balanced s
  sound : s.bound = true → s.probing.flagStarted = true ∧
    ∀ i < pciNumBarsType00, (s.probing.pciBar i).Sound
  registers : s.bound = true → Mapped 2 s.probing
  idle : s.bound = false → ∀ i < pciNumBarsType00, (s.probing.pciBar i).pVa = null

/-- What a call of `probe` is made of. -/
theorem plugging_probe {env : ResetEnv} {host : Host}
    (taken : plugging s (.probe env host) = some t) : s.bound = false ∧
      ∃ r u, probe env host s.probing = some (r, u) ∧
        t = { s with probing := u, bound := r.isOk } := by
  dsimp only [plugging] at taken
  split at taken
  · cases taken
  · rename_i free
    obtain ⟨⟨r, u⟩, run, rfl⟩ := Option.map_eq_some_iff.mp taken
    exact ⟨(Bool.not_eq_true _).mp (not_or.mp free).1, r, u, run, rfl⟩

/-- A device is plugged in. -/
theorem Inv.probe {env : ResetEnv} {host : Host} (h : Inv s)
    (present : (Plugging.probe env host).Present s)
    (maps : (Plugging.probe env host).MapsRegisters s)
    (taken : plugging s (.probe env host) = some t) : Inv t := by
  obtain ⟨⟨complaints, running, enabled, held⟩, sound, -, idle⟩ := h
  obtain ⟨free, r, u, run, rfl⟩ := plugging_probe taken
  rw [free, if_neg Bool.false_ne_true] at held
  rw [free] at enabled
  obtain ⟨-, failed, same⟩ | ⟨-, two, passed, apart⟩ | ⟨late, unmapped, -⟩ := probe_cases run
  -- `probe` fails only before it has claimed anything.
  · rw [failed]
    have kept : u.regions = s.probing.regions ∧ u.mappings = s.probing.mappings ∧
        u.pciBar = s.probing.pciBar ∧ u.enabled = false ∧ u.oops = s.probing.oops := by
      rcases same with rfl | rfl
      · exact ⟨rfl, rfl, rfl, enabled, rfl⟩
      · exact ⟨rfl, rfl, rfl, rfl, rfl⟩
    obtain ⟨regions, mappings, bars, disabled, same⟩ := kept
    refine ⟨⟨complaints, same.trans running, disabled, regions.trans held.1,
      mappings.trans held.2⟩, nofun, nofun, fun _ i below => ?_⟩
    rw [bars]
    exact idle free i below
  · rw [passed]
    have requested := upTo_requestBar (s := { s.probing with enabled := true })
      held.1 held.2 (idle free) present
    obtain ⟨bars, started, enabled, -, -, same⟩ := apart_eq_iff.mp apart
    have reports : (plxRequestResources host { s.probing with enabled := true }).2.oops =
        s.probing.oops := requested.oops
    refine ⟨⟨complaints, (same.trans reports).trans running, enabled.trans requested.enabled, ?_⟩,
      fun _ => ⟨started, ?_⟩, fun _ => ?_, nofun⟩
    · have holds : Holds 0 pciNumBarsType00 (plxRequestResources host
          { s.probing with enabled := true }).2 :=
        ⟨requested.holds.regions, requested.holds.mappings⟩
      exact holds.of_apart apart
    · rw [bars]
      exact requested.sound
    · have mapped := (requestResources_mapped_iff host { s.probing with enabled := true }
        (by decide)).mpr two
      exact mapped.of_apart apart
  · exact absurd (maps.resolve_left late) unmapped

/-- A device is removed. -/
theorem Inv.remove (h : Inv s) (taken : plugging s .remove = some t) : Inv t := by
  obtain ⟨⟨complaints, running, enabled, held⟩, sound, mapped, idle⟩ := h
  dsimp only [plugging] at taken
  split at taken
  · rename_i bound
    obtain ⟨started, sound⟩ := sound bound.1
    rw [if_pos bound.1] at held
    obtain ⟨⟨r, p⟩, stopped, released⟩ := Option.bind_eq_some_iff.mp taken
    obtain ⟨-, apart⟩ := throughBar_mapped (mapped bound.1) (.attempt _) stopped
    obtain ⟨bars, flag, -, -, -, same⟩ := apart_eq_iff.mp apart
    -- Stopping the detector changes no BAR.
    have turns := upTo_releaseBar (s := { s with probing := p, bound := false })
      (held.of_apart apart) (by rw [bars]; exact sound)
    have releases : plxReleaseResources { s with probing := p, bound := false } = _ :=
      if_pos (flag.trans started)
    dsimp only at released
    rw [same, running, if_neg Bool.false_ne_true, releases] at released
    generalize upTo pciNumBarsType00 releaseBar { s with probing := p, bound := false } = v
      at turns released
    obtain ⟨nothing, idle, rest⟩ := turns
    obtain rfl := Option.some.inj released
    have unbound : v.bound = false := rest.bound
    have mine : Balanced { v with probing := { v.probing with
        flagStarted := false, enabled := false } } := by
      refine ⟨rest.complaints.trans complaints, (rest.oops.trans same).trans running,
        unbound.symm, ?_⟩
      dsimp only
      rw [unbound, if_neg Bool.false_ne_true]
      exact nothing.nil
    refine ⟨mine, fun bound => ?_, fun bound => ?_, fun _ => idle⟩
    all_goals
      rw [unbound] at bound
      cases bound
  · cases taken

theorem Inv.step (h : Inv s) (present : a.Present s) (maps : a.MapsRegisters s)
    (taken : plugging s a = some t) : Inv t := by
  cases a with
  | probe env host => exact h.probe present maps taken
  | remove => exact h.remove taken

end Runs

end Cjunk.Plx
