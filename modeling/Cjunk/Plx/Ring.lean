import Cjunk.Lib.RingBuffer
import Cjunk.Plx.Device

/-!
# The PLX 8311 driver: the ring of frames

Three pointers run round the `NO_OF_BUFFERS` buffers of `frames[]`: `ip` picks
the buffer of the next transfer, `wp` counts completed transfers and `rp` picks
the buffer to read.  This file is the ring by itself: what a local interrupt, a
DPC and a read each do to a `RingView`.  That the driver's functions do just that
is proved where they are defined.

The pointers stand for counters that do not wrap: `v.At r w i` says that `v` is
the ring after `r` reads, with `w` transfers published and `i` buffers handed to
the DMA engine.  Its three step lemmas give the counters after a step.
-/

namespace Cjunk.Plx

open RingBuffer

theorem noOfBuffers_pos : 0 < noOfBuffers := by decide

/-! ## Pointers into `frames[]` -/

/-- Increment a pointer into `frames[]` and check if it needs to wrap. -/
def advance (p : U8) : U8 := if p + 1 = BitVec.ofNat 8 noOfBuffers then 0 else p + 1

/-- "Check if we have reached the read pointer". -/
def ReachedRead (p rp : U8) : Prop := RightBehind noOfBuffers p.toNat rp.toNat

instance (p rp : U8) : Decidable (ReachedRead p rp) :=
  inferInstanceAs (Decidable (RightBehind noOfBuffers p.toNat rp.toNat))

theorem advance_toNat {p : U8} (h : p.toNat < noOfBuffers) :
    (advance p).toNat = next noOfBuffers p.toNat := by
  unfold advance next noOfBuffers at *
  have wraps : p + 1 = BitVec.ofNat 8 8 ↔ p.toNat + 1 = 8 := by
    rw [← BitVec.toNat_inj]
    simp
    omega
  by_cases last : p.toNat + 1 = 8
  · rw [if_pos (wraps.mpr last), if_pos last]
    rfl
  · rw [if_neg (mt wraps.mp last), if_neg last]
    simp
    omega

/-- Advancing a pointer moves it. -/
theorem advance_ne (p : U8) : advance p ≠ p := by
  unfold advance
  split
  · rename_i last
    rintro rfl
    exact absurd last (by decide)
  · bv_omega

/-! ## The ring and its steps -/

/-- The part of the state that decides where frames go: the pointers, the
buffers, the DMA channel and the read semaphore. -/
structure RingView where
  rp : U8
  wp : U8
  ip : U8
  bus : ℕ → U32
  channels : ℕ → Bool
  engine : Option U32
  lowPower : Bool
  readSemph : ℕ

def Board.ring (s : Board) : RingView :=
  { rp := s.dev.rp, wp := s.dev.wp, ip := s.dev.ip, bus := s.dev.busAddresses,
    channels := s.dev.dmaChannels, engine := s.chip.engine, lowPower := s.chip.lowPower,
    readSemph := s.kern.readSemph }

namespace RingView

/-- A transfer will be accepted: the engine is idle and the channel open. -/
def Ready (r : RingView) : Prop := r.engine = none ∧ r.channels 0 = true

instance (r : RingView) : Decidable r.Ready :=
  inferInstanceAs (Decidable (r.engine = none ∧ r.channels 0 = true))

/-- A transfer into the buffer of `ip`, if the channel is ready for one. -/
def transfer (r : RingView) : RingView :=
  if r.Ready then { r with engine := some (r.bus r.ip.toNat) } else r

/-- A local interrupt: the transfer, and `ip` advances unless it has reached `rp`,
whether or not a transfer was started. -/
def localInterrupt (r : RingView) : RingView :=
  if ReachedRead r.ip r.rp then r.transfer else { r.transfer with ip := advance r.ip }

/-- A DPC for DMA channel 0: `wp` advances unless it has reached `rp`. -/
def publish (r : RingView) : RingView :=
  if ReachedRead r.wp r.rp then r else { r with wp := advance r.wp }

/-- A completed read: `rp` advances. -/
def consume (r : RingView) : RingView := { r with rp := advance r.rp }

@[simp] theorem transfer_rp (r : RingView) : r.transfer.rp = r.rp := by
  unfold transfer
  split <;> rfl

@[simp] theorem transfer_wp (r : RingView) : r.transfer.wp = r.wp := by
  unfold transfer
  split <;> rfl

@[simp] theorem transfer_ip (r : RingView) : r.transfer.ip = r.ip := by
  unfold transfer
  split <;> rfl

/-- The buffers, the open channels and the power state of the chip are the same. -/
def SameDevice (v v' : RingView) : Prop :=
  v'.bus = v.bus ∧ v'.channels = v.channels ∧ v'.lowPower = v.lowPower

theorem transfer_sameDevice (r : RingView) : SameDevice r r.transfer := by
  unfold transfer
  split <;> exact ⟨rfl, rfl, rfl⟩

theorem localInterrupt_sameDevice (r : RingView) : SameDevice r r.localInterrupt := by
  unfold localInterrupt
  split <;> exact r.transfer_sameDevice

theorem publish_sameDevice (r : RingView) : SameDevice r r.publish := by
  unfold publish
  split <;> exact ⟨rfl, rfl, rfl⟩

theorem localInterrupt_engine (r : RingView) :
    r.localInterrupt.engine = r.transfer.engine := by
  unfold localInterrupt
  split <;> rfl

theorem localInterrupt_ip (r : RingView) :
    r.localInterrupt.ip = if ReachedRead r.ip r.rp then r.ip else advance r.ip := by
  unfold localInterrupt
  split
  · exact r.transfer_ip
  · rfl

theorem localInterrupt_ip_ne (r : RingView) :
    r.localInterrupt.ip ≠ r.ip ↔ ¬ ReachedRead r.ip r.rp := by
  rw [localInterrupt_ip]
  by_cases full : ReachedRead r.ip r.rp
  · simp [full]
  · simp [full, advance_ne]

theorem publish_wp_eq (r : RingView) : r.publish.wp = r.wp ↔ ReachedRead r.wp r.rp := by
  unfold publish
  by_cases full : ReachedRead r.wp r.rp
  · simp [full]
  · simp [full, advance_ne]

/-! ### Counters -/

/-- The pointers of the ring are those of the counters `r`, `w` and `i`, where `w`
and `i` are less than one revolution ahead of `r`. -/
structure At (v : RingView) (r w i : ℕ) : Prop where
  rp : v.rp.toNat = r % noOfBuffers
  wp : v.wp.toNat = w % noOfBuffers
  ip : v.ip.toNat = i % noOfBuffers
  wp_low : r ≤ w
  wp_high : w < r + noOfBuffers
  ip_low : r ≤ i
  ip_high : i < r + noOfBuffers

namespace At

variable {v : RingView} {r w i : ℕ}

theorem rp_lt (h : v.At r w i) : v.rp.toNat < noOfBuffers := by
  rw [h.rp]
  exact Nat.mod_lt _ noOfBuffers_pos

theorem wp_lt (h : v.At r w i) : v.wp.toNat < noOfBuffers := by
  rw [h.wp]
  exact Nat.mod_lt _ noOfBuffers_pos

theorem ip_lt (h : v.At r w i) : v.ip.toNat < noOfBuffers := by
  rw [h.ip]
  exact Nat.mod_lt _ noOfBuffers_pos

theorem ahead_wp (h : v.At r w i) : ahead noOfBuffers v.rp.toNat v.wp.toNat = w - r := by
  rw [h.rp, h.wp, ahead_mod noOfBuffers_pos h.wp_low h.wp_high]

theorem ahead_ip (h : v.At r w i) : ahead noOfBuffers v.rp.toNat v.ip.toNat = i - r := by
  rw [h.rp, h.ip, ahead_mod noOfBuffers_pos h.ip_low h.ip_high]

theorem rp_eq_wp (h : v.At r w i) : v.rp = v.wp ↔ r = w := by
  rw [← BitVec.toNat_inj, h.rp, h.wp]
  constructor
  · intro same
    have := h.wp_low
    have := h.wp_high
    exact eq_of_mod_eq (r := r) le_rfl (by omega) (by omega) (by omega) same
  · rintro rfl
    rfl

theorem rp_eq_ip (h : v.At r w i) : v.rp = v.ip ↔ r = i := by
  rw [← BitVec.toNat_inj, h.rp, h.ip]
  constructor
  · intro same
    have := h.ip_low
    have := h.ip_high
    exact eq_of_mod_eq (r := r) le_rfl (by omega) (by omega) (by omega) same
  · rintro rfl
    rfl

theorem wp_eq_ip (h : v.At r w i) : v.wp = v.ip ↔ w = i := by
  rw [← BitVec.toNat_inj, h.wp, h.ip]
  constructor
  · exact eq_of_mod_eq h.wp_low h.wp_high h.ip_low h.ip_high
  · rintro rfl
    rfl

theorem wp_reached (h : v.At r w i) : ReachedRead v.wp v.rp ↔ w + 1 = r + noOfBuffers := by
  unfold ReachedRead
  rw [h.wp, h.rp, rightBehind_mod_iff noOfBuffers_pos h.wp_low h.wp_high]

theorem ip_reached (h : v.At r w i) : ReachedRead v.ip v.rp ↔ i + 1 = r + noOfBuffers := by
  unfold ReachedRead
  rw [h.ip, h.rp, rightBehind_mod_iff noOfBuffers_pos h.ip_low h.ip_high]

/-- Advancing a pointer increments its counter. -/
theorem advance_mod {p : U8} {x : ℕ} (h : p.toNat = x % noOfBuffers) :
    (advance p).toNat = (x + 1) % noOfBuffers := by
  have lt : p.toNat < noOfBuffers := by
    rw [h]
    exact Nat.mod_lt _ noOfBuffers_pos
  rw [advance_toNat lt, h, next_mod noOfBuffers_pos]

theorem localInterrupt (h : v.At r w i) :
    v.localInterrupt.At r w (if i + 1 = r + noOfBuffers then i else i + 1) := by
  unfold RingView.localInterrupt
  have high := h.ip_high
  have low := h.ip_low
  by_cases full : ReachedRead v.ip v.rp
  · rw [if_pos full, if_pos (h.ip_reached.mp full)]
    refine ⟨?_, ?_, ?_, h.wp_low, h.wp_high, h.ip_low, h.ip_high⟩
    · rw [transfer_rp, h.rp]
    · rw [transfer_wp, h.wp]
    · rw [transfer_ip, h.ip]
  · have room := mt h.ip_reached.mpr full
    rw [if_neg full, if_neg room]
    refine ⟨?_, ?_, advance_mod h.ip, h.wp_low, h.wp_high, by omega, by omega⟩
    · exact (congrArg BitVec.toNat (transfer_rp v)).trans h.rp
    · exact (congrArg BitVec.toNat (transfer_wp v)).trans h.wp

theorem publish (h : v.At r w i) :
    v.publish.At r (if w + 1 = r + noOfBuffers then w else w + 1) i := by
  unfold RingView.publish
  have high := h.wp_high
  have low := h.wp_low
  by_cases full : ReachedRead v.wp v.rp
  · rw [if_pos full, if_pos (h.wp_reached.mp full)]
    exact h
  · have room := mt h.wp_reached.mpr full
    rw [if_neg full, if_neg room]
    exact ⟨h.rp, advance_mod h.wp, h.ip, by omega, by omega, h.ip_low, h.ip_high⟩

theorem consume (h : v.At r w i) (frame : r < w) (apart : r < i) :
    v.consume.At (r + 1) w i := by
  have := h.wp_high
  have := h.ip_high
  exact ⟨advance_mod h.rp, h.wp, h.ip, frame, by omega, apart, by omega⟩

end At

end RingView

end Cjunk.Plx
