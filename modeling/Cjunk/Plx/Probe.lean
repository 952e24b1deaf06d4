import Cjunk.Lib.CountedLoop
import Cjunk.Plx.BoardIo

/-!
# The PLX 8311 driver: `probe`

`probe`, `plx_request_resources` and `plx_pci_bar_resource_map` of `plx_driver.c`: the
PCI device is enabled, its BARs are claimed and mapped, and the board is put into a
defined state.  The register macros reach the chip through the address that BAR 0 is
mapped at, the command link and the SRAM through that of BAR 2; where that is `NULL` the
kernel stops the driver.

What the kernel says of the PCI device, and what it answers to each request, is a
`Host`.  The work queue, the locks and the wait queue that `plx_request_resources` sets
up are left out, as is the branch of `LATENCY_TIMER`, which is not set.

`probe_safe_iff` is the result: when the board is reset through mapped registers only.
-/

namespace Cjunk.Plx

open Words Routine Link Device CountedLoop

/-- `unsigned long long`. -/
abbrev U64 := BitVec 64

def eIo : ℤ := 5
def eNoMem : ℤ := 12

/-- `PCI_NUM_BARS_TYPE_00`. -/
def pciNumBarsType00 : ℕ := 6

def pci8311RtrBase : ℕ := 0x010

/-- `NULL`. -/
def null : ℕ := 0

/-! ## State -/

/-- A BAR as the kernel describes it: `pci_resource_start`, `pci_resource_len`, and
whether `IORESOURCE_IO` is among its flags. -/
structure Resource where
  start : U64 := 0
  len : U64 := 0
  io : Bool := false

/-- The kernel under a call of `probe`. -/
structure Host where
  /-- What `pci_enable_device` returns. -/
  enableDevice : ℤ := 0
  /-- `pcidev->irq`. -/
  irq : ℕ := 1
  /-- What `dma_set_mask` returns. -/
  dmaSetMask : ℤ := 0
  resource : ℕ → Resource := fun _ => {}
  /-- `request_region` does not return `NULL`. -/
  requestRegion : ℕ → Bool := fun _ => true
  /-- `request_mem_region` does not return `NULL`. -/
  requestMemRegion : ℕ → Bool := fun _ => true
  /-- What `ioremap` returns. -/
  ioremap : ℕ → ℕ := fun _ => null

/-- `PLX_PCI_BAR_PROP`, as far as it is used. -/
structure BarProperties where
  barValue : U32 := 0
  physical : U64 := 0
  size : U64 := 0
  bIoSpace : Bool := false

/-- `PLX_PCI_BAR_INFO`. -/
structure PciBar where
  properties : BarProperties := {}
  pVa : ℕ := null
  bResourceClaimed : Bool := false

/-- A region that the driver has claimed: I/O or memory, from where, how long. -/
structure Region where
  io : Bool
  start : U64
  len : U64

/-- The driver's structure as far as `probe` uses it, and what the kernel holds for it. -/
structure Probing where
  pciBar : ℕ → PciBar := fun _ => {}
  flagStarted : Bool := false
  device : Device := {}
  /-- The PCI device is enabled. -/
  enabled : Bool := false
  /-- The regions claimed and not given back. -/
  regions : List Region := []
  /-- The addresses mapped and not unmapped. -/
  mappings : List ℕ := []
  /-- A register macro has gone through `NULL`. -/
  oops : Bool := false

namespace Probing

/-- Change the entry of one BAR. -/
def setBar (i : ℕ) (f : PciBar → PciBar) (s : Probing) : Probing :=
  { s with pciBar := Function.update s.pciBar i (f (s.pciBar i)) }

/-- `request_region` or `request_mem_region` of a BAR, which succeeds. -/
def claim (i : ℕ) (s : Probing) : Probing :=
  let properties := (s.pciBar i).properties
  { s.setBar i fun bar => { bar with bResourceClaimed := true } with
    regions := ⟨properties.bIoSpace, properties.physical, properties.size⟩ :: s.regions }

/-- `ioremap` of a BAR; `va` is what it returns. -/
def mapTo (i va : ℕ) (s : Probing) : Probing :=
  { s.setBar i fun bar => { bar with pVa := va } with
    mappings := if va = null then s.mappings else va :: s.mappings }

/-- What is done to the device. -/
def onDevice {α : Type} (m : Routine Device α) : Routine Probing α :=
  onPart Probing.device (fun d s => { s with device := d }) m

/-- What is done to the device through BAR `i`.  At `NULL` nothing more is done: the caller
does not return, and the error is nothing that anyone gets. -/
def throughBar {α : Type} (i : ℕ) (m : Routine Device α) : Routine Probing α := fun s =>
  if (s.pciBar i).pVa = null then some (.error 0, { s with oops := true }) else onDevice m s

end Probing

open Probing

/-! ## The resources -/

/-- `plx_pci_bar_resource_map`. -/
def plxPciBarResourceMap (host : Host) (i : ℕ) (s : Probing) : ℤ × Probing :=
  let s := s.setBar i fun bar => { bar with bResourceClaimed := false, pVa := null }
  if (s.pciBar i).properties.bIoSpace then
    (0, if host.requestRegion i then s.claim i else s)
  else if host.requestMemRegion i then
    let s := (s.claim i).mapTo i (host.ioremap i)
    (if (s.pciBar i).pVa = null then -eNoMem else 0, s)
  else (-eNoMem, s)

/-- The properties of BAR `i`, with the flags cleared from its address. -/
def barProperties (host : Host) (i : ℕ) (s : Probing) : BarProperties where
  barValue := s.device.config (pci8311RtrBase + i * 4)
  physical := (host.resource i).start &&& if (host.resource i).io then ~~~0x3 else ~~~0xf
  size := (host.resource i).len
  bIoSpace := (host.resource i).io

/-- A turn of the loop of `plx_request_resources`.  What the mapping returns is only
reported. -/
def requestBar (host : Host) (i : ℕ) (s : Probing) : Probing :=
  if (host.resource i).start = 0 then s
  else
    (plxPciBarResourceMap host i
      (s.setBar i fun bar => { bar with properties := barProperties host i s })).2

/-- `plx_request_resources`. -/
def plxRequestResources (host : Host) (s : Probing) : ℤ × Probing :=
  (0, { upTo pciNumBarsType00 (requestBar host) s with
    flagStarted := true })

/-! ## `probe` -/

/-- `err_out_disable_device:` -/
def errOutDisableDevice (ret : ℤ) : Routine Probing Unit := do
  modify fun s => { s with enabled := false }
  fail ret

/-- `probe`, up to where it begins to use the registers. -/
def setUp (host : Host) : Routine Probing Unit :=
  if host.enableDevice ≠ 0 then fail (-eNoDev)
  else do
    modify fun s => { s with enabled := true }
    if host.irq = 0 then errOutDisableDevice (-eNoDev)
    else if host.dmaSetMask ≠ 0 then errOutDisableDevice (-eNoDev)
    else do
      let rc ← asks fun s => (plxRequestResources host s).1
      modify fun s => (plxRequestResources host s).2
      if rc ≠ 0 then errOutDisableDevice (-eIo) else pure ()

/-- The rest of `probe`: the board is reset, the local interrupt is reset, and the
peripheral hardware is stopped and reset. -/
def defineState (env : ResetEnv) : Routine Probing Unit := do
  throughBar 0 (plxBoardReset env)
  throughBar 2 (modify (setBoard fun s => commandLinkRegWrite s pciMcCardStatus (bit 30)))
  throughBar 2 (attempt (onLink (FasterCl.plxImmediateCmd xlStop)))
  throughBar 2 (attempt (onLink (FasterCl.plxImmediateCmd xlInit)))

/-- `probe`. -/
def probe (env : ResetEnv) (host : Host) : Routine Probing Unit := do
  setUp host
  defineState env

/-! ## What is asked of it -/

/-- A register macro that goes through BAR `i` reaches the device. -/
def Mapped (i : ℕ) (s : Probing) : Prop := (s.pciBar i).pVa ≠ null

/-- When `probe` comes to use the registers they are mapped, and when it does not, it
returns an error and keeps nothing that it has claimed or mapped. -/
def ProbeSafe (env : ResetEnv) (host : Host) (s : Probing) : Prop :=
  (∀ t, setUp host s = some (.ok (), t) → Mapped 0 t ∧ Mapped 2 t) ∧
    ∀ e t, setUp host s = some (.error e, t) →
      probe env host s = some (.error e, t) ∧ e < 0 ∧
        t.regions = s.regions ∧ t.mappings = s.mappings

/-- `probe` does not come to `plx_request_resources`. -/
def StopsEarly (host : Host) : Prop :=
  host.enableDevice ≠ 0 ∨ host.irq = 0 ∨ host.dmaSetMask ≠ 0

/-- BAR `i` is a memory BAR that can be claimed and mapped; an absent one keeps the
address it had. -/
def Maps (host : Host) (s : Probing) (i : ℕ) : Prop :=
  if (host.resource i).start = 0 then Mapped i s
  else (host.resource i).io = false ∧ host.requestMemRegion i = true ∧ host.ioremap i ≠ null

/-! ## One BAR -/

namespace Probing

variable (i j : ℕ) (f : PciBar → PciBar) (s : Probing)

theorem setBar_self : (s.setBar i f).pciBar i = f (s.pciBar i) := Function.update_self ..

theorem setBar_of_ne {i j : ℕ} (other : j ≠ i) : (s.setBar i f).pciBar j = s.pciBar j :=
  Function.update_of_ne other ..

end Probing

/-- A BAR is mapped where `ioremap` says, if it comes to that. -/
theorem plxPciBarResourceMap_pVa (host : Host) (i : ℕ) (s : Probing) :
    ((plxPciBarResourceMap host i s).2.pciBar i).pVa =
      if (s.pciBar i).properties.bIoSpace = false ∧ host.requestMemRegion i = true then
        host.ioremap i
      else null := by
  unfold plxPciBarResourceMap
  simp only [setBar_self]
  cases (s.pciBar i).properties.bIoSpace <;> cases host.requestMemRegion i <;>
    cases host.requestRegion i <;> simp [claim, mapTo, setBar_self]

theorem plxPciBarResourceMap_of_ne (host : Host) {i j : ℕ} (other : j ≠ i) (s : Probing) :
    (plxPciBarResourceMap host i s).2.pciBar j = s.pciBar j := by
  unfold plxPciBarResourceMap
  simp only [setBar_self]
  split_ifs <;> simp [claim, mapTo, setBar_of_ne, other]

/-- The address that the turn for BAR `i` leaves there, if it was `va` before. -/
def vaAfter (host : Host) (i va : ℕ) : ℕ :=
  if (host.resource i).start = 0 then va
  else if (host.resource i).io = false ∧ host.requestMemRegion i = true then host.ioremap i
  else null

theorem requestBar_pVa (host : Host) (i : ℕ) (s : Probing) :
    ((requestBar host i s).pciBar i).pVa = vaAfter host i (s.pciBar i).pVa := by
  unfold requestBar vaAfter
  split_ifs with absent
  · rfl
  all_goals
    rw [plxPciBarResourceMap_pVa, setBar_self]
    simp_all [barProperties]

/-- A turn of the loop leaves the other BARs as they are. -/
theorem requestBar_of_ne (host : Host) {i j : ℕ} (other : j ≠ i) (s : Probing) :
    (requestBar host i s).pciBar j = s.pciBar j := by
  unfold requestBar
  split_ifs
  · rfl
  · exact (plxPciBarResourceMap_of_ne host other _).trans (setBar_of_ne _ _ other)

/-! ## All BARs -/

section

variable (host : Host) (s : Probing)

/-- The address of a BAR after the loop. -/
theorem requestResources_pVa {i : ℕ} (below : i < pciNumBarsType00) :
    ((plxRequestResources host s).2.pciBar i).pVa = vaAfter host i (s.pciBar i).pVa := by
  have others : ∀ j < pciNumBarsType00, j ≠ i → ∀ s : Probing,
      ((requestBar host j s).pciBar i).pVa = (s.pciBar i).pVa := by
    intro j _ other s
    rw [requestBar_of_ne host (Ne.symm other)]
  exact upTo_only (fun s => (s.pciBar i).pVa) below (requestBar_pVa host i) others s

theorem requestResources_mapped_iff {i : ℕ} (below : i < pciNumBarsType00) :
    Mapped i (plxRequestResources host s).2 ↔ Maps host s i := by
  unfold Mapped Maps
  rw [requestResources_pVa host s below]
  unfold vaAfter
  split_ifs <;> simp_all [Mapped]

/-- When the registers are behind mapped BARs. -/
theorem requestResources_registers_iff :
    Mapped 0 (plxRequestResources host { s with enabled := true }).2 ∧
        Mapped 2 (plxRequestResources host { s with enabled := true }).2 ↔
      Maps host s 0 ∧ Maps host s 2 :=
  and_congr (requestResources_mapped_iff host _ (by decide))
    (requestResources_mapped_iff host _ (by decide))

/-- What becomes of `probe` before it uses the registers. -/
theorem setUp_eq : setUp host s =
    if host.enableDevice ≠ 0 then some (.error (-eNoDev), s)
    else if host.irq = 0 ∨ host.dmaSetMask ≠ 0 then
      some (.error (-eNoDev), { s with enabled := false })
    else some (.ok (), (plxRequestResources host { s with enabled := true }).2) := by
  unfold setUp
  by_cases enable : host.enableDevice ≠ 0
  · rw [if_pos enable, if_pos enable]
    rfl
  rw [if_neg enable, if_neg enable, modify_bind_run]
  by_cases irq : host.irq = 0
  · rw [if_pos irq, if_pos (.inl irq)]
    rfl
  by_cases mask : host.dmaSetMask ≠ 0
  · rw [if_neg irq, if_pos mask, if_pos (.inr mask)]
    rfl
  · rw [if_neg irq, if_neg mask, if_neg (not_or.mpr ⟨irq, mask⟩)]
    rfl

/-- It stops early without a claim and without a mapping. -/
theorem setUp_stops (early : StopsEarly host) : ∃ t, setUp host s = some (.error (-eNoDev), t) ∧
    t.regions = s.regions ∧ t.mappings = s.mappings := by
  rw [setUp_eq]
  by_cases enable : host.enableDevice ≠ 0
  · rw [if_pos enable]
    exact ⟨s, rfl, rfl, rfl⟩
  · rw [if_neg enable, if_pos (early.resolve_left enable)]
    exact ⟨_, rfl, rfl, rfl⟩

/-- Or it requests the resources, whatever comes of that. -/
theorem setUp_passes (late : ¬ StopsEarly host) : setUp host s =
    some (.ok (), (plxRequestResources host { s with enabled := true }).2) := by
  obtain ⟨enable, later⟩ := not_or.mp late
  rw [setUp_eq, if_neg enable, if_neg later]

/-- What stops the setup stops `probe`. -/
theorem probe_fails {env : ResetEnv} {e : ℤ} {t : Probing}
    (stops : setUp host s = some (.error e, t)) : probe env host s = some (.error e, t) := by
  show Routine.bind (setUp host) _ s = _
  unfold Routine.bind
  rw [stops]

end

/-- **Registers under `probe`.**  `probe` is safe exactly when it stops early, or BAR 0 and
BAR 2 are both memory BARs that can be claimed and mapped. -/
theorem probe_safe_iff (env : ResetEnv) (host : Host) (s : Probing) :
    ProbeSafe env host s ↔ StopsEarly host ∨ Maps host s 0 ∧ Maps host s 2 := by
  by_cases early : StopsEarly host
  · obtain ⟨t, stops, regions, mappings⟩ := setUp_stops host s early
    refine iff_of_true ⟨?_, ?_⟩ (.inl early)
    · intro u ok
      rw [stops] at ok
      cases ok
    · intro e u error
      have code : e = -eNoDev ∧ u = t := by
        rw [stops] at error
        cases error
        exact ⟨rfl, rfl⟩
      rw [code.1, code.2]
      exact ⟨probe_fails host s stops, by decide, regions, mappings⟩
  · have passes := setUp_passes host s early
    rw [or_iff_right early, ← requestResources_registers_iff]
    constructor
    · intro safe
      exact safe.1 _ passes
    · intro both
      refine ⟨fun t ok => ?_, fun e t error => ?_⟩
      · rw [passes] at ok
        cases ok
        exact both
      · rw [passes] at error
        cases error

/-- A host whose BAR 2 cannot be claimed. -/
def busyHost : Host where
  resource := fun i => { start := 0x1000 * .ofNat 64 (i + 1), len := 0x1000 }
  requestMemRegion := fun i => i ≠ 2
  ioremap := fun i => 0xf0000000 + 0x1000 * i

/-- The error of the mapping is lost, and the command link is used at `NULL`. -/
theorem busy_probe_not_safe : ¬ ProbeSafe {} busyHost {} := by
  rintro ⟨ok, -⟩
  have passes : setUp busyHost {} =
      some (.ok (), (plxRequestResources busyHost { ({} : Probing) with enabled := true }).2) :=
    setUp_eq busyHost {}
  have unmapped : ((plxRequestResources busyHost { ({} : Probing) with
      enabled := true }).2.pciBar 2).pVa = null :=
    requestResources_pVa busyHost _ (by decide)
  exact (ok _ passes).2 unmapped

end Cjunk.Plx
