import Cjunk.Plx.Cursors

/-!
# Frame delivery

What user space reads should be the frames whose transfer completed: in order,
each at most once, none stale and none half-written.  A session delivers that as
long as `ip` and `wp` count the same transfers:

* no local interrupt has its transfer refused while the ring has room (`ip` would
  be advanced past a buffer that nothing is written to), and
* no DPC advances `wp` for a transfer that was started on a full ring (its
  interrupt did not advance `ip`).

`TransfersReserved` is that condition and `deliveredInOrder_of_reserved` the
result.  The invariant behind it, `Delivery`, reads the ring as a queue: from `rp`
on it holds the frames that are published and not read, then the frames that are
completed and wait for their DPC.
-/

namespace Cjunk.Plx

open Run RingBuffer

/-- The frame of a buffer that holds a whole one. -/
def Content.frame? : Content → Option ℕ
  | .whole frame => some frame
  | .unwritten | .torn _ => none

/-- The frames that reads have handed out whole. -/
def Session.deliveredFrames (s : Session) : List ℕ := s.delivered.filterMap Content.frame?

/-- Everything handed out is a whole frame, as it was when `wp` published it; the
frames are among those completed, in the same order, each once. -/
def DeliveredInOrder (s : Session) : Prop :=
  s.delivered = s.deliveredFrames.map .whole ∧ s.delivered <+: s.published ∧
    s.deliveredFrames.Sublist s.completed ∧ s.deliveredFrames.Nodup

instance (s : Session) : Decidable (DeliveredInOrder s) := by
  unfold DeliveredInOrder
  infer_instance

/-- `ip` and `wp` count the same transfers. -/
def TransfersReserved (s : Session) : Action → Prop
  | .localInterrupt _ _ => s.board.ring.Ready ∨ ReachedRead s.board.dev.ip s.board.dev.rp
  | .dpc => (∀ transfer ∈ s.unserved.head?, transfer.reserved = true) ∨
      ReachedRead s.board.dev.wp s.board.dev.rp
  | .dmaDone | .read _ => True

instance (s : Session) : (a : Action) → Decidable (TransfersReserved s a)
  | .localInterrupt _ _ | .dpc => inferInstanceAs (Decidable (_ ∨ _))
  | .dmaDone | .read _ => .isTrue trivial

/-- A session that has been opened and has done nothing yet, on buffers that do not
overlap. -/
def Session.Opened (s : Session) : Prop :=
  s.Fresh ∧ (s.completed = [] ∧ s.published = [] ∧ s.delivered = []) ∧
    ∀ j < noOfBuffers, ∀ k < noOfBuffers,
      s.board.dev.busAddresses j = s.board.dev.busAddresses k → j = k

/-- The frames of the transfers that have a buffer of their own. -/
def reservedFrames (transfers : List Transfer) : List ℕ :=
  (transfers.filter (·.reserved)).map (·.frame)

@[simp] theorem reservedFrames_nil : reservedFrames [] = [] := rfl

theorem reservedFrames_append (l m : List Transfer) :
    reservedFrames (l ++ m) = reservedFrames l ++ reservedFrames m := by
  simp [reservedFrames]

/-! ## The invariant -/

/-- The session `s` has published `frames`; its counters are `r`, `w` and `i`. -/
structure Delivery (s : Session) (r w i : ℕ) (frames : List ℕ) : Prop where
  awake : s.board.ring.lowPower = false
  distinct : ∀ j < noOfBuffers, ∀ k < noOfBuffers,
    s.board.ring.bus j = s.board.ring.bus k → j = k
  pointers : s.board.ring.At r w i
  /-- Each buffer handed to the engine is published or pending. -/
  counts : w = frames.length ∧ i = w + (reservedFrames s.pending).length
  published : s.published = frames.map .whole
  delivered : s.delivered = s.published.take r
  queue : Holds noOfBuffers (fun j => s.mem (s.board.ring.bus j)) r
    ((frames.drop r ++ reservedFrames s.unserved).map .whole)
  /-- The engine writes to the buffer its interrupt reserved, or to that of `ip`. -/
  engine : s.board.ring.engine = s.inFlight.map fun transfer =>
    s.board.ring.bus ((if transfer.reserved then i - 1 else i) % noOfBuffers)
  order : (frames ++ reservedFrames s.unserved).Sublist s.completed
  increasing : (s.completed ++ s.inFlight.toList.map (·.frame)).Pairwise (· < ·)
  numbered : ∀ frame ∈ s.completed ++ s.inFlight.toList.map (·.frame), frame < s.nextFrame

variable {s t : Session} {r w i : ℕ} {frames : List ℕ}

theorem reservedFrames_cons (transfer : Transfer) (l : List Transfer) :
    reservedFrames (transfer :: l) =
      (if transfer.reserved then [transfer.frame] else []) ++ reservedFrames l := by
  cases h : transfer.reserved <;> simp [reservedFrames, h]

theorem filterMap_frame?_whole (frames : List ℕ) :
    (frames.map Content.whole).filterMap Content.frame? = frames := by
  rw [List.filterMap_map]
  exact List.filterMap_some

theorem Delivery.deliveredInOrder (h : Delivery s r w i frames) : DeliveredInOrder s := by
  have handed : s.delivered = (frames.take r).map .whole := by
    rw [h.delivered, h.published, List.map_take]
  have whole : s.deliveredFrames = frames.take r := by
    rw [Session.deliveredFrames, handed, filterMap_frame?_whole]
  have among : (frames.take r).Sublist s.completed :=
    ((List.take_sublist r frames).trans (List.sublist_append_left _ _)).trans h.order
  have sorted : s.completed.Pairwise (· < ·) := (List.pairwise_append.mp h.increasing).1
  unfold DeliveredInOrder
  rw [whole]
  refine ⟨handed, ?_, among, ?_⟩
  · rw [h.delivered]
    exact List.take_prefix r _
  · exact (sorted.sublist among).imp Nat.ne_of_lt

theorem Session.Opened.delivery (h : s.Opened) : Delivery s 0 0 0 [] := by
  obtain ⟨fresh, ⟨completed, published, delivered⟩, distinct⟩ := h
  have nothing := fresh.2.2.2
  unfold Session.pending at nothing
  obtain ⟨unserved, inFlight⟩ := List.append_eq_nil_iff.mp nothing
  have inFlight : s.inFlight = none := Option.toList_eq_nil_iff.mp inFlight
  have engine : s.board.ring.engine = none := fresh.2.2.1
  refine ⟨fresh.2.1, distinct, fresh.at_zero, ?_, published, ?_, ?_, ?_, ?_, ?_, ?_⟩
  · rw [Session.pending, unserved, inFlight]
    exact ⟨rfl, rfl⟩
  · rw [delivered, published]
    rfl
  · rw [unserved]
    exact holds_nil _ _
  · rw [engine, inFlight]
    rfl
  · rw [unserved, completed]
    exact List.Sublist.refl []
  · rw [completed, inFlight]
    exact List.Pairwise.nil
  · rw [completed, inFlight]
    exact fun frame h => absurd h List.not_mem_nil

/-! ## Its steps -/

namespace Delivery

theorem queue_length (h : Delivery s r w i frames) :
    r + ((frames.drop r ++ reservedFrames s.unserved).map Content.whole).length =
      w + (reservedFrames s.unserved).length := by
  have := h.counts.1
  have := h.pointers.wp_low
  rw [List.length_map, List.length_append, List.length_drop]
  omega

theorem pending_length (h : Delivery s r w i frames) :
    i = w + (reservedFrames s.unserved).length +
      (reservedFrames s.inFlight.toList).length := by
  rw [Nat.add_assoc, ← List.length_append, ← reservedFrames_append]
  exact h.counts.2

/-- Writing to one buffer leaves the others as they were. -/
theorem mem_other (h : Delivery s r w i frames) (q : ℕ) (c : Content) :
    ∀ p < noOfBuffers, p ≠ q % noOfBuffers →
      Function.update s.mem (s.board.ring.bus (q % noOfBuffers)) c (s.board.ring.bus p) =
        s.mem (s.board.ring.bus p) := by
  intro p lt ne
  refine Function.update_of_ne (fun same => ne ?_) _ _
  exact h.distinct p lt _ (Nat.mod_lt _ noOfBuffers_pos) same

theorem wp_le_ip (h : Delivery s r w i frames) : w ≤ i := by
  have := h.pending_length
  omega

/-- An accepted transfer: the buffer of `ip` is not in the queue. -/
theorem started {b : Board} (h : Delivery s r w i frames) (ready : s.board.ring.Ready)
    (ring : b.ring = s.board.ring.localInterrupt) :
    Delivery
      { s with
        board := b
        mem := Function.update s.mem (s.board.ring.bus s.board.ring.ip.toNat)
          (.torn s.nextFrame)
        nextFrame := s.nextFrame + 1
        inFlight := some ⟨s.nextFrame, !decide (ReachedRead s.board.ring.ip s.board.ring.rp)⟩ }
      r w (if i + 1 = r + noOfBuffers then i else i + 1) frames := by
  obtain ⟨bus, -, lowPower⟩ := s.board.ring.localInterrupt_sameDevice
  rw [← ring] at bus lowPower
  have inFlight : s.inFlight = none := by
    have engine := h.engine
    rw [ready.1] at engine
    exact Option.map_eq_none_iff.mp engine.symm
  have length := h.pending_length
  rw [inFlight] at length
  have full := h.pointers.ip_reached
  have target : s.board.ring.ip.toNat = i % noOfBuffers := h.pointers.ip
  refine ⟨lowPower.trans h.awake, bus ▸ h.distinct, ring ▸ h.pointers.localInterrupt,
    ⟨h.counts.1, ?_⟩, h.published, h.delivered, ?_, ?_, h.order, ?_, ?_⟩
  · -- the new transfer is counted exactly if `ip` advanced
    rw [Session.pending, reservedFrames_append, List.length_append]
    show _ = w + ((reservedFrames s.unserved).length + (reservedFrames [⟨s.nextFrame,
      !decide (ReachedRead s.board.ring.ip s.board.ring.rp)⟩]).length)
    rw [reservedFrames_cons]
    by_cases reached : i + 1 = r + noOfBuffers
    · simpa [reached, full.mpr reached] using length
    · simp only [Option.toList_none, reservedFrames_nil, List.length_nil] at length
      simp [reached, mt full.mp reached]
      omega
  · show Holds _ (fun j => Function.update s.mem (s.board.ring.bus s.board.ring.ip.toNat)
      (.torn s.nextFrame) (b.ring.bus j)) _ _
    rw [bus, target]
    refine h.queue.write_outside noOfBuffers_pos ?_ h.pointers.ip_high (h.mem_other i _)
    rw [h.queue_length, length]
    exact Nat.le_refl _
  · -- whether or not `ip` advanced, the target was its buffer before
    show b.ring.engine = some (b.ring.bus _)
    rw [bus, ring, RingView.localInterrupt_engine, RingView.transfer, if_pos ready, target]
    by_cases reached : i + 1 = r + noOfBuffers
    · simp [reached, full.mpr reached]
    · simp [reached, mt full.mp reached]
  · have below := h.numbered
    have increasing := h.increasing
    rw [inFlight, Option.toList_none, List.map_nil, List.append_nil] at below increasing
    refine List.pairwise_append.mpr ⟨increasing, List.pairwise_singleton _ _, ?_⟩
    intro frame completed new isNew
    rw [List.mem_singleton.mp isNew]
    exact below frame completed
  · have below := h.numbered
    rw [inFlight, Option.toList_none, List.map_nil, List.append_nil] at below
    intro frame known
    rcases List.mem_append.mp known with completed | new
    · exact Nat.lt_succ_of_lt (below frame completed)
    · rw [List.mem_singleton.mp new]
      exact Nat.lt_succ_self _

/-- The invariant sees the board through its ring. -/
theorem of_ring {b : Board} (h : Delivery s r w i frames) (same : b.ring = s.board.ring) :
    Delivery { s with board := b } r w i frames := by
  refine ⟨?_, ?_, ?_, h.counts, h.published, h.delivered, ?_, ?_, h.order, h.increasing,
    h.numbered⟩
  all_goals rw [same]
  · exact h.awake
  · exact h.distinct
  · exact h.pointers
  · exact h.queue
  · exact h.engine

/-- A refused transfer on a full ring changes nothing. -/
theorem refused {b : Board} (h : Delivery s r w i frames) (busy : ¬ s.board.ring.Ready)
    (full : ReachedRead s.board.ring.ip s.board.ring.rp)
    (ring : b.ring = s.board.ring.localInterrupt) :
    Delivery { s with board := b } r w i frames := by
  apply h.of_ring
  rw [ring, RingView.localInterrupt, if_pos full, RingView.transfer, if_neg busy]

/-- A completed transfer: its frame is queued if it has a buffer of its own, and
outside the queue otherwise. -/
theorem done {transfer : Transfer} {target : U32} (h : Delivery s r w i frames)
    (inFlight : s.inFlight = some transfer) (engine : s.board.ring.engine = some target) :
    Delivery (s.dmaDone transfer target) r w i frames := by
  have length := h.pending_length
  have queued := h.queue_length
  have high := h.pointers.ip_high
  have target_eq := h.engine
  rw [inFlight, engine, Option.map_some, Option.some.injEq] at target_eq
  rw [inFlight, Option.toList_some, reservedFrames_cons] at length
  refine ⟨h.awake, h.distinct, ⟨h.pointers.rp, h.pointers.wp, h.pointers.ip,
    h.pointers.wp_low, h.pointers.wp_high, h.pointers.ip_low, h.pointers.ip_high⟩,
    ⟨h.counts.1, ?_⟩, h.published, h.delivered, ?_, rfl, ?_, ?_, ?_⟩
  · have counted := h.counts.2
    rw [Session.pending, inFlight] at counted
    exact counted.trans (by rw [Session.pending]; simp [Session.dmaDone])
  · show Holds _ (fun j => Function.update s.mem target (.whole transfer.frame)
      (s.board.ring.bus j)) r
        ((frames.drop r ++ reservedFrames (s.unserved ++ [transfer])).map .whole)
    rw [reservedFrames_append, reservedFrames_cons, reservedFrames_nil, List.append_nil,
      ← List.append_assoc, List.map_append, target_eq]
    cases reserved : transfer.reserved with
    | true =>
        have last : i - 1 =
            r + ((frames.drop r ++ reservedFrames s.unserved).map Content.whole).length := by
          rw [queued, length, reserved]
          simp
        simp only [if_true, List.map_cons, List.map_nil]
        rw [last]
        refine h.queue.push noOfBuffers_pos (by omega) (h.mem_other _ _) ?_
        exact Function.update_self _ _ _
    | false =>
        simp only [Bool.false_eq_true, if_false, List.map_nil, List.append_nil]
        refine h.queue.write_outside noOfBuffers_pos ?_ high (h.mem_other i _)
        rw [queued, length, reserved]
        simp
  · show (frames ++ reservedFrames (s.unserved ++ [transfer])).Sublist
      (s.completed ++ [transfer.frame])
    rw [reservedFrames_append, ← List.append_assoc]
    apply h.order.append
    rw [reservedFrames_cons, reservedFrames_nil, List.append_nil]
    cases transfer.reserved with
    | true => exact List.Sublist.refl _
    | false => exact List.nil_sublist _
  · have increasing := h.increasing
    rw [inFlight] at increasing
    show ((s.completed ++ [transfer.frame]) ++ []).Pairwise (· < ·)
    rw [List.append_nil]
    exact increasing
  · have numbered := h.numbered
    rw [inFlight] at numbered
    show ∀ frame ∈ (s.completed ++ [transfer.frame]) ++ [], frame < s.nextFrame
    rw [List.append_nil]
    exact numbered

/-- A DPC publishes the oldest completed frame, if that has a buffer of its own;
otherwise the ring must be full. -/
theorem served {transfer : Transfer} {rest : List Transfer} {b : Board}
    (h : Delivery s r w i frames) (unserved : s.unserved = transfer :: rest)
    (ok : transfer.reserved = true ∨ ReachedRead s.board.ring.wp s.board.ring.rp)
    (ring : b.ring = s.board.ring.publish) :
    ∃ w' frames', Delivery
      { s with
        board := b
        unserved := rest
        published := if ReachedRead s.board.ring.wp s.board.ring.rp then s.published
          else s.published ++ [s.mem (s.board.ring.bus s.board.ring.wp.toNat)] }
      r w' i frames' := by
  obtain ⟨bus, -, lowPower⟩ := s.board.ring.publish_sameDevice
  rw [← ring] at bus lowPower
  have counted := h.counts.2
  have low := h.pointers.wp_low
  have high := h.pointers.ip_high
  have writes := h.counts.1
  have queue := h.queue
  have order := h.order
  have pointers := ring ▸ h.pointers.publish
  have engine : b.ring.engine = s.board.ring.engine := by
    rw [ring, RingView.publish]
    split <;> rfl
  rw [Session.pending, unserved, List.cons_append] at counted
  rw [unserved] at queue order
  rw [reservedFrames_cons] at counted queue order
  cases reserved : transfer.reserved with
  | true =>
      rw [reserved, if_pos rfl, List.singleton_append] at counted queue order
      rw [List.length_cons] at counted
      have room : ¬ w + 1 = r + noOfBuffers := by omega
      rw [if_neg room] at pointers
      -- the oldest completed frame is queued right behind the published ones
      have oldest : s.mem (s.board.ring.bus s.board.ring.wp.toNat) = .whole transfer.frame := by
        rw [List.map_append, List.map_cons] at queue
        have behind := queue.right.tail.1
        rwa [List.length_map, List.length_drop, ← writes, Nat.add_sub_cancel' low,
          ← h.pointers.wp] at behind
      refine ⟨w + 1, frames ++ [transfer.frame], lowPower.trans h.awake, bus ▸ h.distinct,
        pointers, ⟨?_, ?_⟩, ?_, ?_, ?_, ?_, ?_, h.increasing, h.numbered⟩
      · rw [List.length_append, writes, List.length_singleton]
      · show i = w + 1 + (reservedFrames (rest ++ s.inFlight.toList)).length
        omega
      · rw [if_neg (mt h.pointers.wp_reached.mp room), h.published, oldest, List.map_append]
        rfl
      · have fits : r ≤ s.published.length := by
          rw [h.published, List.length_map, ← writes]
          exact low
        rw [if_neg (mt h.pointers.wp_reached.mp room), List.take_append_of_le_length fits]
        exact h.delivered
      · rw [List.drop_append_of_le_length (by omega), List.append_assoc, bus]
        exact queue
      · rw [engine, bus]
        exact h.engine
      · rw [List.append_assoc]
        exact order
  | false =>
      rw [reserved, if_neg Bool.false_ne_true, List.nil_append] at counted queue order
      have full := ok.resolve_left (by simp [reserved])
      rw [if_pos (h.pointers.wp_reached.mp full)] at pointers
      refine ⟨w, frames, lowPower.trans h.awake, bus ▸ h.distinct, pointers,
        ⟨writes, counted⟩, ?_, ?_, ?_, ?_, order, h.increasing, h.numbered⟩
      · rw [if_pos full]
        exact h.published
      · rw [if_pos full]
        exact h.delivered
      · rw [bus]
        exact queue
      · rw [engine, bus]
        exact h.engine

/-- A completed read hands out the oldest published frame. -/
theorem readDone {b : Board} (h : Delivery s r w i frames)
    (frame : s.board.ring.rp ≠ s.board.ring.wp) (ring : b.ring = s.board.ring.consume) :
    Delivery
      { s with
        board := b
        delivered := s.delivered ++ [s.mem (s.board.ring.bus s.board.ring.rp.toNat)] }
      (r + 1) w i frames := by
  have low := h.pointers.wp_low
  have writes := h.counts.1
  have handed := h.pending_length
  have unread : r < frames.length := by
    have := mt h.pointers.rp_eq_wp.mpr frame
    omega
  have queue := h.queue
  rw [List.drop_eq_getElem_cons unread, List.cons_append, List.map_cons] at queue
  obtain ⟨oldest, rest⟩ := queue.tail
  rw [← h.pointers.rp] at oldest
  have same : b.ring.bus = s.board.ring.bus ∧ b.ring.engine = s.board.ring.engine := by
    rw [ring]
    exact ⟨rfl, rfl⟩
  refine ⟨by rw [ring]; exact h.awake, same.1 ▸ h.distinct,
    ring ▸ h.pointers.consume (by omega) (by omega), h.counts, h.published, ?_, ?_, ?_,
    h.order, h.increasing, h.numbered⟩
  · have fits : r < (frames.map Content.whole).length := by
      rw [List.length_map]
      exact unread
    rw [oldest, h.delivered, h.published, List.take_add_one, List.getElem?_eq_getElem fits,
      List.getElem_map]
    rfl
  · rw [same.1]
    exact rest
  · rw [same.2, same.1]
    exact h.engine

end Delivery

/-- The invariant, with its counters and frames left open. -/
def Delivers (s : Session) : Prop := ∃ r w i frames, Delivery s r w i frames

theorem Delivers.step {a : Action} (h : Delivers s) (ok : TransfersReserved s a)
    (taken : Plx.step s a = some t) : Delivers t := by
  obtain ⟨r, w, i, frames, h⟩ := h
  cases step_effect h.awake taken with
  | started ready ring => exact ⟨r, w, _, frames, h.started ready ring⟩
  | refused busy ring => exact ⟨r, w, i, frames, h.refused busy (ok.resolve_left busy) ring⟩
  | done inFlight engine => exact ⟨r, w, i, frames, h.done inFlight engine⟩
  | @served transfer rest b unserved ring =>
      have reserved : transfer.reserved = true ∨
          ReachedRead s.board.ring.wp s.board.ring.rp := by
        refine ok.imp_left fun head => head transfer ?_
        rw [unserved]
        rfl
      obtain ⟨w', frames', h⟩ := h.served unserved reserved ring
      exact ⟨r, w', i, frames', h⟩
  | readFailed ring => exact ⟨r, w, i, frames, h.of_ring ring⟩
  | overrun frame met ring =>
      -- a frame to read keeps `rp` away from `ip`
      have := mt h.pointers.rp_eq_wp.mpr frame
      have := h.pointers.rp_eq_ip.mp met
      have := h.pointers.wp_low
      have := h.wp_le_ip
      omega
  | readDone frame apart ring => exact ⟨r + 1, w, i, frames, h.readDone frame ring⟩

/-- **Delivery.**  While `ip` and `wp` count the same transfers, reads hand out whole
frames, in the order of their completion, each at most once. -/
theorem deliveredInOrder_of_reserved (opened : s.Opened) {schedule : List Action}
    (ok : Meets step TransfersReserved s schedule) :
    Throughout step DeliveredInOrder s schedule :=
  ok.throughout (I := Delivers) (fun _ _ _ h allowed taken => h.step allowed taken)
    (fun _ ⟨_, _, _, _, h⟩ => h.deliveredInOrder) ⟨0, 0, 0, [], opened.delivery⟩

/-- The same runs keep the pointers in order. -/
theorem cursorsInOrder_of_reserved (opened : s.Opened) {schedule : List Action}
    (ok : Meets step TransfersReserved s schedule) :
    Throughout step CursorsInOrder s schedule :=
  ok.throughout (I := Delivers) (fun _ _ _ h allowed taken => h.step allowed taken)
    (fun _ ⟨_, _, _, _, h⟩ => (cursorsInOrder_iff_le h.pointers).mpr h.wp_le_ip)
    ⟨0, 0, 0, [], opened.delivery⟩

theorem newSession_opened : newSession.Opened :=
  ⟨newSession_fresh, ⟨rfl, rfl, rfl⟩, by decide⟩

/-- Two frames, the second started before the first is read. -/
theorem deliveredInOrder_twoFrames :
    Throughout step DeliveredInOrder newSession
      [frameReady 0, .dmaDone, .dpc, frameReady 1, .read { len := 16 }, .dmaDone, .dpc,
        .read { len := 16 }] :=
  deliveredInOrder_of_reserved newSession_opened (by decide +kernel)

/-- The second interrupt comes while the first frame is being transferred: its
transfer is refused, and `ip` advances past a buffer nothing is written to.  The
DPC of the third frame publishes that buffer. -/
def refusedSchedule : List Action :=
  [frameReady 0, frameReady 1, .dmaDone, .dpc, frameReady 2, .dmaDone, .dpc,
    .read { len := 16 }, .read { len := 16 }]

theorem delivers_unwritten_buffer :
    newSession.Opened ∧ ¬ Throughout step DeliveredInOrder newSession refusedSchedule ∧
      (exec step newSession refusedSchedule).any fun s =>
        s.delivered = [.whole 0, .unwritten] ∧ s.completed = [0, 1] :=
  ⟨newSession_opened, by decide +kernel, by decide +kernel⟩

end Cjunk.Plx
