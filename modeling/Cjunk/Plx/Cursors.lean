import Cjunk.Plx.Session

/-!
# The order of the pointers

Does `wp` ever overtake `ip`?  A service routine that finds the ring full has
already started its transfer when it leaves `ip` where it is; if a read makes room
before the transfer completes, the DPC advances `wp` past a buffer that no
interrupt reserved.  `cursorsInOrder_iff` says that this is the only way: the
pointers stay in order exactly as long as every DPC finds `wp ≠ ip` or a full
ring.
-/

namespace Cjunk.Plx

open Run RingBuffer

/-- The three pointers are in range, `wp` is not ahead of `ip`, and so a read that
has a frame is never at `ip`. -/
def CursorsInOrder (s : Session) : Prop :=
  (s.board.dev.rp.toNat < noOfBuffers ∧ s.board.dev.wp.toNat < noOfBuffers ∧
      s.board.dev.ip.toNat < noOfBuffers) ∧
    ahead noOfBuffers s.board.dev.rp.toNat s.board.dev.wp.toNat ≤
      ahead noOfBuffers s.board.dev.rp.toNat s.board.dev.ip.toNat ∧
    (s.board.dev.rp ≠ s.board.dev.wp → s.board.dev.rp ≠ s.board.dev.ip)

instance (s : Session) : Decidable (CursorsInOrder s) := by
  unfold CursorsInOrder
  infer_instance

/-- A DPC runs only while `wp` is not at `ip`, or has reached the read pointer. -/
def DpcFindsBuffer (s : Session) : Action → Prop
  | .dpc => s.board.dev.wp ≠ s.board.dev.ip ∨ ReachedRead s.board.dev.wp s.board.dev.rp
  | _ => True

instance (s : Session) : (a : Action) → Decidable (DpcFindsBuffer s a)
  | .dpc => inferInstanceAs (Decidable (_ ∨ _))
  | .localInterrupt _ _ | .dmaDone | .read _ => .isTrue trivial

/-- The invariant: the pointers are those of counters with `w ≤ i`. -/
def Ordered (s : Session) : Prop :=
  s.board.ring.lowPower = false ∧ ∃ r w i, s.board.ring.At r w i ∧ w ≤ i

theorem cursorsInOrder_iff_le {s : Session} {r w i : ℕ} (h : s.board.ring.At r w i) :
    CursorsInOrder s ↔ w ≤ i := by
  have low := h.wp_low
  have order : ahead noOfBuffers s.board.dev.rp.toNat s.board.dev.wp.toNat ≤
      ahead noOfBuffers s.board.dev.rp.toNat s.board.dev.ip.toNat ↔ w - r ≤ i - r := by
    rw [show ahead noOfBuffers s.board.dev.rp.toNat s.board.dev.wp.toNat = w - r from h.ahead_wp,
      show ahead noOfBuffers s.board.dev.rp.toNat s.board.dev.ip.toNat = i - r from h.ahead_ip]
  have apart : (s.board.dev.rp ≠ s.board.dev.wp → s.board.dev.rp ≠ s.board.dev.ip) ↔
      (r ≠ w → r ≠ i) := by
    rw [show s.board.dev.rp ≠ s.board.dev.wp ↔ r ≠ w from not_congr h.rp_eq_wp,
      show s.board.dev.rp ≠ s.board.dev.ip ↔ r ≠ i from not_congr h.rp_eq_ip]
  have := h.ip_low
  unfold CursorsInOrder
  rw [order, apart]
  constructor
  · rintro ⟨-, le, -⟩
    omega
  · intro le
    exact ⟨⟨h.rp_lt, h.wp_lt, h.ip_lt⟩, by omega, by omega⟩

theorem Ordered.cursorsInOrder {s : Session} (h : Ordered s) : CursorsInOrder s := by
  obtain ⟨-, r, w, i, pointers, le⟩ := h
  exact (cursorsInOrder_iff_le pointers).mpr le

theorem Session.Fresh.ordered {s : Session} (h : s.Fresh) : Ordered s :=
  ⟨h.2.1, 0, 0, 0, h.at_zero, le_rfl⟩

/-- The counters after a DPC, whatever their order. -/
theorem at_of_dpc {s t : Session} {r w i : ℕ} (awake : s.board.ring.lowPower = false)
    (pointers : s.board.ring.At r w i) (h : step s .dpc = some t) :
    t.board.ring.At r (if w + 1 = r + noOfBuffers then w else w + 1) i := by
  cases step_effect awake h with
  | served unserved ring => exact ring ▸ pointers.publish

theorem Ordered.step {s t : Session} {a : Action} (h : Ordered s) (ok : DpcFindsBuffer s a)
    (taken : Plx.step s a = some t) : Ordered t := by
  obtain ⟨awake, r, w, i, pointers, le⟩ := h
  have effect := step_effect awake taken
  refine ⟨effect.sameDevice.2.2.trans awake, ?_⟩
  cases effect with
  | started ready ring =>
      refine ⟨r, w, _, ring ▸ pointers.localInterrupt, ?_⟩
      split <;> omega
  | refused busy ring =>
      refine ⟨r, w, _, ring ▸ pointers.localInterrupt, ?_⟩
      split <;> omega
  | done inFlight engine =>
      exact ⟨r, w, i, ⟨pointers.rp, pointers.wp, pointers.ip, pointers.wp_low,
        pointers.wp_high, pointers.ip_low, pointers.ip_high⟩, le⟩
  | served unserved ring =>
      refine ⟨r, _, i, ring ▸ pointers.publish, ?_⟩
      rcases ok with apart | full
      · have := mt pointers.wp_eq_ip.mpr apart
        split <;> omega
      · rw [if_pos (pointers.wp_reached.mp full)]
        exact le
  | readFailed ring => exact ⟨r, w, i, ring ▸ pointers, le⟩
  | overrun frame met ring =>
      have := mt pointers.rp_eq_wp.mpr frame
      have := pointers.rp_eq_ip.mp met
      have := pointers.wp_low
      omega
  | readDone frame apart ring =>
      have := mt pointers.rp_eq_wp.mpr frame
      have := pointers.wp_low
      exact ⟨r + 1, w, i, ring ▸ pointers.consume (by omega) (by omega), le⟩

/-- A DPC that keeps the order found `wp ≠ ip` or a full ring. -/
theorem Ordered.dpcFindsBuffer {s t : Session} {a : Action} (h : Ordered s)
    (taken : Plx.step s a = some t) (after : CursorsInOrder t) : DpcFindsBuffer s a := by
  obtain ⟨awake, r, w, i, pointers, le⟩ := h
  cases a with
  | dpc =>
      by_contra neither
      obtain ⟨met, room⟩ := not_or.mp neither
      have moved := at_of_dpc awake pointers taken
      rw [if_neg (mt pointers.wp_reached.mpr room)] at moved
      have := (cursorsInOrder_iff_le moved).mp after
      have := pointers.wp_eq_ip.mp (not_not.mp met)
      omega
  | localInterrupt regPciInt regDetectorInt => trivial
  | dmaDone => trivial
  | read call => trivial

/-- **The order of the pointers.**  From a fresh session, the pointers are in order
throughout a run exactly when each of its DPCs finds `wp ≠ ip` or a full ring. -/
theorem cursorsInOrder_iff {s : Session} (fresh : s.Fresh) (schedule : List Action) :
    Throughout step CursorsInOrder s schedule ↔ Meets step DpcFindsBuffer s schedule :=
  throughout_iff_meets (I := Ordered) (fun _ h => h.cursorsInOrder)
    (fun _ _ _ h ok taken => h.step ok taken)
    (fun _ _ _ h taken after => h.dpcFindsBuffer taken after) fresh.ordered

/-- A frame that is transferred, published and read keeps the pointers in order. -/
theorem cursorsInOrder_oneFrame :
    Throughout step CursorsInOrder newSession
      [frameReady 0, .dmaDone, .dpc, .read { len := 16 }] :=
  (cursorsInOrder_iff newSession_fresh _).mpr (by decide +kernel)

/-- Seven frames fill the ring, the eighth is started without a buffer, and one
read makes room before it completes.  Six more reads bring `rp` to `ip`. -/
def overrunSchedule : List Action :=
  (List.range 7).flatMap (fun n => [frameReady n, .dmaDone, .dpc]) ++
    [frameReady 7, .read { len := 16 }, .dmaDone, .dpc] ++
    List.replicate 6 (.read { len := 16 })

theorem wp_overtakes_ip :
    newSession.Fresh ∧ ¬ Throughout step CursorsInOrder newSession overrunSchedule ∧
      (exec step newSession overrunSchedule).any fun s =>
        s.board.dev.rp ≠ s.board.dev.wp ∧ s.board.dev.rp = s.board.dev.ip :=
  ⟨newSession_fresh, by decide +kernel, by decide +kernel⟩

end Cjunk.Plx
