import Cjunk.Watchdog.Monitor

/-!
# A peer that breaks off

A call of `receive_cmd` should survive a peer that closes the connection, or loses it, at
any byte: return, keep inside `sm_inbuf`, and say `PEER_CLOSED` if no whole message has
arrived.  It does so while it looks for the marker.  After that it no longer looks at what
`recv` returned.  The loop for the body adds a 0 to its sum for ever, takes a -1 for a step
back, and stores at twice its count of bytes; the header is what there was of it, over that
of the call before.  The step back ends the loop only if nothing was received before it: the sum
is -1 then, which is compared as an unsigned number.

`receiveCmd_survives_iff` says which streams a call survives all the same.
-/

namespace Cjunk.Watchdog

open Segmented

/-! ## Surviving -/

/-- The loop for the body stores outside `sm_inbuf` within `fuel` rounds. -/
def bodyOutside (length : U32) : ℕ → U32 → Sock → Bool
  | 0, _, _ => false
  | fuel + 1, sum, s =>
    if sum < length then
      match s.recv (length - sum).toNat with
      | (none, s') => bodyOutside length fuel (sum - 1) s'
      | (some bytes, s') =>
        (!bytes.isEmpty && decide (sizeofInbuf < 2 * sum.toNat + bytes.length)) ||
          bodyOutside length fuel (sum + BitVec.ofNat 32 bytes.length) s'
    else false

/-- A call stores outside `sm_inbuf` within `fuel` rounds of its loops. -/
def storesOutside (fuel : ℕ) (s : Receiver) : Bool :=
  match getMarker fuel s.sock with
  | some (true, sock) =>
    let (len, sock) := sock.recv sizeofCmd
    bodyOutside (s.msg.overwrite (len.getD [])).length fuel 0 sock
  | _ => false

/-- A stream begins with a whole message, after bytes that are skipped. -/
def Arrived (stream : List U8) : Prop :=
  ∃ (junk body rest : List U8) (header : Cmd), csMarker ∉ junk ∧
    stream = junk ++ csMarker :: (header.bytes ++ (body ++ rest)) ∧
    body.length = header.length.toNat

/-- What a call should do, whatever there is to receive. -/
structure Survives (s : Receiver) : Prop where
  returns : ∃ s', Returns s s'
  inside : ∀ fuel, storesOutside fuel s = false
  reports : ¬ Arrived s.sock.segs.flatten → ∀ s', Returns s s' → s'.msg.cmd = peerClosed

/-! ## When a call survives -/

/-- The segments after the first marker. -/
def afterMarker : List (List U8) → Option (List (List U8))
  | [] => none
  | seg :: rest =>
    match seg.dropWhile (· ≠ csMarker) with
    | [] => afterMarker rest
    | [_] => some rest
    | _ :: byte :: more => some ((byte :: more) :: rest)

/-- Of a stream that is read up to `length`, after `sum` bytes: every piece fits into
`sm_inbuf` at twice the number of bytes before it. -/
def PiecesFit (length : ℕ) : ℕ → List (List U8) → Prop
  | _, [] => True
  | sum, seg :: rest => sum < length →
      2 * sum + min seg.length (length - sum) ≤ sizeofInbuf ∧
        PiecesFit length (sum + seg.length) rest

instance decidablePiecesFit (length : ℕ) :
    ∀ (sum : ℕ) (segs : List (List U8)), Decidable (PiecesFit length sum segs)
  | _, [] => .isTrue trivial
  | sum, seg :: rest =>
    have := decidablePiecesFit length (sum + seg.length) rest
    inferInstanceAs (Decidable (_ → _ ∧ _))

/-- The call gets away with the peer: no marker arrives, or the pieces of the body fit,
there are enough of them or there is an error in their place, and the message is whole or says
`PEER_CLOSED` by itself. -/
def Survivable (s : Receiver) : Prop :=
  match afterMarker s.sock.segs with
  | none => True
  | some segs =>
    let msg := s.msg.overwrite (read sizeofCmd segs).1
    let body := (read sizeofCmd segs).2
    PiecesFit msg.length.toNat 0 body ∧
      (msg.length.toNat ≤ body.flatten.length ∨
        (s.sock.fails = true ∧ segs ≠ [] ∧ body.flatten = [])) ∧
      (Arrived s.sock.segs.flatten ∨ msg.cmd = peerClosed)

/-! ## The loop for the body -/

/-- The loop for the body returns. -/
def BodyReturns (length sum : U32) (s : Sock) : Prop :=
  ∃ fuel s', getBody length fuel sum s = some s'

section Body

variable {length sum : U32} {s s' : Sock} {bytes : List U8}

theorem piecesFit_done {length sum : ℕ} (done : length ≤ sum) (segs : List (List U8)) :
    PiecesFit length sum segs := by
  cases segs with
  | nil => trivial
  | cons seg rest => exact fun more => absurd more (Nat.not_lt.mpr done)

theorem bodyReturns_done (done : ¬ sum < length) : BodyReturns length sum s :=
  ⟨1, s, if_neg done⟩

/-- A failed `recv` takes the loop a step back. -/
theorem bodyReturns_failed (more : sum < length)
    (failed : s.recv (length - sum).toNat = (none, s')) :
    BodyReturns length sum s ↔ BodyReturns length (sum - 1) s' := by
  constructor
  · rintro ⟨fuel, t, h⟩
    cases fuel with
    | zero => exact absurd h (by simp [getBody])
    | succ fuel =>
        rw [getBody, if_pos more, failed] at h
        exact ⟨fuel, t, h⟩
  · rintro ⟨fuel, t, h⟩
    refine ⟨fuel + 1, t, ?_⟩
    rw [getBody, if_pos more, failed]
    exact h

theorem bodyReturns_received (more : sum < length)
    (received : s.recv (length - sum).toNat = (some bytes, s')) :
    BodyReturns length sum s ↔ 2 * sum.toNat + bytes.length ≤ sizeofInbuf ∧
      BodyReturns length (sum + BitVec.ofNat 32 bytes.length) s' := by
  constructor
  · rintro ⟨fuel, t, h⟩
    cases fuel with
    | zero => exact absurd h (by simp [getBody])
    | succ fuel =>
        rw [getBody, if_pos more, received] at h
        dsimp only at h
        split at h
        · rename_i fits
          exact ⟨fits, fuel, t, h⟩
        · cases h
  · rintro ⟨fits, fuel, t, h⟩
    refine ⟨fuel + 1, t, ?_⟩
    rw [getBody, if_pos more, received]
    exact (if_pos fits).trans h

/-- On a closed connection the loop does not end. -/
theorem bodyReturns_closed :
    BodyReturns length sum { segs := [], fails := false } ↔ ¬ sum < length := by
  refine ⟨?_, bodyReturns_done⟩
  rintro ⟨fuel, t, h⟩ more
  induction fuel with
  | zero => cases h
  | succ fuel ih =>
      have received : ({ segs := [], fails := false } : Sock).recv (length - sum).toNat =
          (some [], { segs := [], fails := false }) := rfl
      rw [getBody, if_pos more, received] at h
      dsimp only at h
      split at h
      · exact ih (by simpa using h)
      · cases h

/-- At the end of the stream an error takes the loop a step back, which leads out of it from its
beginning only. -/
theorem bodyReturns_ended (fails : Bool) :
    BodyReturns length sum { segs := [], fails := fails } ↔
      length.toNat ≤ sum.toNat ∨ (fails = true ∧ sum.toNat = 0) := by
  by_cases more : sum < length
  · have less := BitVec.lt_def.mp more
    rw [or_iff_right (Nat.not_le.mpr less)]
    cases fails with
    | false =>
        rw [bodyReturns_closed]
        exact iff_of_false (fun done => done more) fun both => Bool.false_ne_true both.1
    | true =>
        have failed : ({ segs := [], fails := true } : Sock).recv (length - sum).toNat =
            (none, { segs := [], fails := false }) := rfl
        have bound := length.isLt
        have one : (1 : U32).toNat = 1 := rfl
        rw [bodyReturns_failed more failed, bodyReturns_closed, and_iff_right rfl, BitVec.lt_def,
          BitVec.toNat_sub]
        omega
  · have done := Nat.le_of_not_lt fun less => more (BitVec.lt_def.mpr less)
    exact iff_of_true (bodyReturns_done more) (.inl done)

/-- The loop returns exactly if the pieces it stores fit, and there are enough of them or there
is an error in their place. -/
theorem bodyReturns_iff {segs : List (List U8)} (proper : Proper segs) (h : s.segs = segs) :
    BodyReturns length sum s ↔ PiecesFit length.toNat sum.toNat segs ∧
      (length.toNat ≤ sum.toNat + segs.flatten.length ∨
        (s.fails = true ∧ sum.toNat + segs.flatten.length = 0)) := by
  induction segs generalizing sum s with
  | nil =>
      obtain ⟨segs, fails⟩ := s
      obtain rfl : segs = [] := h
      rw [bodyReturns_ended]
      simp [PiecesFit]
  | cons seg rest ih =>
      by_cases more : sum < length
      · have less := BitVec.lt_def.mp more
        have asks : (length - sum).toNat = length.toNat - sum.toNat :=
          BitVec.toNat_sub_of_le (BitVec.le_of_lt more)
        have received : s.recv (length - sum).toNat =
            (some (Segmented.read (length - sum).toNat s.segs).1,
              { s with segs := (Segmented.read (length - sum).toNat s.segs).2 }) := by
          simp [Sock.recv, h]
        rw [bodyReturns_received more received, h, asks]
        by_cases whole : seg.length ≤ length.toNat - sum.toNat
        · have piece : Segmented.read (length.toNat - sum.toNat) (seg :: rest) = (seg, rest) := by
            rw [Segmented.read, if_pos whole, List.take_of_length_le whole]
          have next : (sum + BitVec.ofNat 32 seg.length).toNat = sum.toNat + seg.length := by
            rw [BitVec.toNat_add, BitVec.toNat_ofNat]
            omega
          rw [piece, ih proper.tail rfl, next, PiecesFit, forall_prop_of_true less,
            Nat.min_eq_left whole, List.flatten_cons, List.length_append, ← Nat.add_assoc,
            and_assoc]
        · -- the rest of the segment is not asked for, and the loop is done
          have part := Nat.le_of_lt (Nat.lt_of_not_le whole)
          have size : (seg.take (length.toNat - sum.toNat)).length = length.toNat - sum.toNat :=
            List.length_take_of_le part
          have all : sum + BitVec.ofNat 32 (length.toNat - sum.toNat) = length := by
            apply BitVec.eq_of_toNat_eq
            rw [BitVec.toNat_add, BitVec.toNat_ofNat]
            omega
          have later : PiecesFit length.toNat (sum.toNat + seg.length) rest :=
            piecesFit_done (by omega) rest
          have enough : length.toNat ≤ sum.toNat + (seg :: rest).flatten.length := by
            rw [List.flatten_cons, List.length_append]
            omega
          rw [Segmented.read, size, all, PiecesFit, forall_prop_of_true less,
            Nat.min_eq_right part]
          exact ⟨fun fits => ⟨⟨fits.1, later⟩, .inl enough⟩,
            fun fits => ⟨fits.1.1, bodyReturns_done (BitVec.lt_irrefl length)⟩⟩
      · have done := Nat.le_of_not_lt fun less => more (BitVec.lt_def.mpr less)
        exact iff_of_true (bodyReturns_done more)
          ⟨piecesFit_done done _, .inl (Nat.le_add_right_of_le done)⟩

/-- A loop that returns has kept inside `sm_inbuf`. -/
theorem BodyReturns.inside (h : BodyReturns length sum s) (fuel : ℕ) :
    bodyOutside length fuel sum s = false := by
  induction fuel generalizing sum s with
  | zero => rfl
  | succ fuel ih =>
      rw [bodyOutside]
      by_cases more : sum < length
      · rw [if_pos more]
        rcases result : s.recv (length - sum).toNat with ⟨_ | bytes, s'⟩
        · exact ih ((bodyReturns_failed more result).mp h)
        · obtain ⟨fits, later⟩ := (bodyReturns_received more result).mp h
          simp [ih later, Nat.not_lt.mpr fits]
      · exact if_neg more

end Body

/-! ## The loop for the marker -/

theorem afterMarker_cons_marker (seg : List U8) (rest : List (List U8)) :
    afterMarker ((csMarker :: seg) :: rest) =
      some (Segmented.read 1 ((csMarker :: seg) :: rest)).2 := by
  cases seg <;> simp [afterMarker, Segmented.read]

/-- A byte that was read belongs to no marker that is still to come. -/
theorem afterMarker_read {a : U8} (other : a ≠ csMarker) (seg : List U8)
    (rest : List (List U8)) :
    afterMarker (Segmented.read 1 ((a :: seg) :: rest)).2 = afterMarker ((a :: seg) :: rest) := by
  cases seg <;> simp [afterMarker, Segmented.read, other]

theorem afterMarker_proper {segs segs' : List (List U8)} (proper : Proper segs)
    (marker : afterMarker segs = some segs') : Proper segs' := by
  induction segs with
  | nil => cases marker
  | cons seg rest ih =>
      rw [afterMarker] at marker
      split at marker
      · exact ih proper.tail marker
      · cases marker
        exact proper.tail
      · cases marker
        intro seg' mem
        rcases List.mem_cons.mp mem with rfl | old
        · exact List.cons_ne_nil _ _
        · exact proper.tail seg' old

/-- The loop for the marker ends after the first marker, or at the end of the stream. -/
theorem getMarker_eq {s : Sock} (proper : Proper s.segs) :
    ∃ n, getMarker n s = some ((afterMarker s.segs).isSome,
      { segs := (afterMarker s.segs).getD []
        fails := s.fails && (afterMarker s.segs).isSome }) := by
  generalize stream : s.segs.flatten = bytes
  induction bytes generalizing s with
  | nil =>
      have ended : s.segs = [] := proper.eq_nil stream
      obtain ⟨segs, fails⟩ := s
      obtain rfl : segs = [] := ended
      cases fails <;> exact ⟨1, rfl⟩
  | cons a bytes ih =>
      obtain ⟨seg, rest, segs⟩ := proper.eq_cons stream
      have byte := read_one proper stream
      have advances : Advances s.segs [a] (Segmented.read 1 s.segs).2 :=
        byte ▸ read_advances 1 s.segs
      have next := recv_of_more (s := s) (by rw [stream]; exact List.cons_ne_nil a bytes) 1
      rw [byte] at next
      by_cases found : a = csMarker
      · subst found
        refine ⟨1, ?_⟩
        rw [getMarker, next, segs, afterMarker_cons_marker, Option.isSome_some, Bool.and_true]
        exact if_pos rfl
      · obtain ⟨n, later⟩ := ih (s := { s with segs := (Segmented.read 1 s.segs).2 })
          (advances.proper proper) (advances.rest_eq stream)
        refine ⟨n + 1, ?_⟩
        rw [getMarker, next]
        dsimp only at later ⊢
        rw [if_neg found, later, segs, afterMarker_read found]

/-! ## One call -/

/-- What the header is read from, before the end of the stream or at it, where an error is used
up. -/
theorem recv_eq (s : Sock) (n : ℕ) :
    ∃ len : Option (List U8), len.getD [] = (Segmented.read n s.segs).1 ∧
      s.recv n = (len, { segs := (Segmented.read n s.segs).2
                         fails := s.fails && !s.segs.isEmpty }) := by
  obtain ⟨segs, fails⟩ := s
  cases segs with
  | nil => cases fails <;> exact ⟨_, rfl, rfl⟩
  | cons seg rest =>
      refine ⟨some (Segmented.read n (seg :: rest)).1, rfl, ?_⟩
      rw [List.isEmpty_cons, Bool.not_false, Bool.and_true]
      rfl

section Call

variable {s : Receiver}

/-- Without a marker, the connection was lost before the message. -/
theorem survives_of_noMarker (proper : Proper s.sock.segs)
    (noMarker : afterMarker s.sock.segs = none) : Survives s := by
  obtain ⟨n, lost⟩ := getMarker_eq proper
  rw [noMarker] at lost
  have returns : Returns s
      { sock := { segs := [], fails := s.sock.fails && false }
        msg := s.msg.setCmd peerClosed
        lost := true } := by
    refine ⟨n, ?_⟩
    rw [receiveCmd, lost]
    rfl
  refine ⟨⟨_, returns⟩, fun fuel => ?_, fun _ s' returns' => ?_⟩
  · unfold storesOutside
    split
    · rename_i found
      cases congrArg Prod.fst (getMarker_unique lost found)
    · rfl
  · rw [returns'.unique returns]
    exact Cmd.cmd_setCmd s.msg peerClosed

variable {n : ℕ} {sock sock' : Sock} {len : Option (List U8)}

/-- A call that returns after the marker has left the loop for the body. -/
theorem Returns.body {s' : Receiver} (returns : Returns s s')
    (found : getMarker n s.sock = some (true, sock))
    (header : sock.recv sizeofCmd = (len, sock')) :
    BodyReturns (s.msg.overwrite (len.getD [])).length 0 sock' := by
  obtain ⟨fuel, h⟩ := returns
  unfold receiveCmd at h
  split at h
  · cases h
  · rename_i lost
    cases congrArg Prod.fst (getMarker_unique lost found)
  · rename_i found'
    cases getMarker_unique found' found
    dsimp only at h
    rw [header] at h
    split at h
    · obtain ⟨sock'', body, -⟩ := Option.map_eq_some_iff.mp h
      exact ⟨fuel, sock'', body⟩
    · rename_i noBody
      exact bodyReturns_done noBody

theorem storesOutside_of_body (found : getMarker n s.sock = some (true, sock))
    (header : sock.recv sizeofCmd = (len, sock'))
    (body : BodyReturns (s.msg.overwrite (len.getD [])).length 0 sock') (fuel : ℕ) :
    storesOutside fuel s = false := by
  unfold storesOutside
  split
  · rename_i found'
    cases getMarker_unique found' found
    rw [header]
    exact body.inside fuel
  · rfl

theorem survives_iff_of_marker (proper : Proper s.sock.segs) {segs : List (List U8)}
    (marker : afterMarker s.sock.segs = some segs) :
    Survives s ↔
      PiecesFit (s.msg.overwrite (Segmented.read sizeofCmd segs).1).length.toNat 0
          (Segmented.read sizeofCmd segs).2 ∧
        ((s.msg.overwrite (Segmented.read sizeofCmd segs).1).length.toNat ≤
            (Segmented.read sizeofCmd segs).2.flatten.length ∨
          (s.sock.fails = true ∧ segs ≠ [] ∧
            (Segmented.read sizeofCmd segs).2.flatten = [])) ∧
        (Arrived s.sock.segs.flatten ∨
          (s.msg.overwrite (Segmented.read sizeofCmd segs).1).cmd = peerClosed) := by
  have proper' : Proper (Segmented.read sizeofCmd segs).2 :=
    (read_advances sizeofCmd segs).proper (afterMarker_proper proper marker)
  obtain ⟨n, found⟩ := getMarker_eq proper
  rw [marker] at found
  obtain ⟨len, got, header⟩ :=
    recv_eq { segs := segs, fails := s.sock.fails && (some segs).isSome } sizeofCmd
  have body : BodyReturns (s.msg.overwrite (len.getD [])).length 0
      { segs := (Segmented.read sizeofCmd segs).2
        fails := s.sock.fails && (some segs).isSome && !segs.isEmpty } ↔ _ :=
    bodyReturns_iff proper' rfl
  have error : (s.sock.fails && (some segs).isSome && !segs.isEmpty) = true ↔
      s.sock.fails = true ∧ segs ≠ [] := by
    simp
  rw [show (0 : U32).toNat = 0 from rfl, Nat.zero_add, error, List.length_eq_zero_iff,
    and_assoc] at body
  rw [← got, ← and_assoc, ← body]
  constructor
  · rintro ⟨⟨s', returns⟩, -, reports⟩
    refine ⟨returns.body found header, ?_⟩
    rw [or_iff_not_imp_left, ← returns.msg_eq found header]
    exact fun missing => reports missing s' returns
  · rintro ⟨⟨fuel, sock, loop⟩, whole⟩
    refine ⟨⟨_, returns_of_body found header loop⟩,
      storesOutside_of_body found header ⟨fuel, sock, loop⟩, fun missing s' returns => ?_⟩
    rw [returns.msg_eq found header]
    exact whole.resolve_left missing

end Call

/-- **A peer that breaks off.**  A call of `receive_cmd` returns, keeps inside `sm_inbuf`, and
says `PEER_CLOSED` if no whole message has arrived, exactly if no marker arrives, or the
pieces of the body fit, the loop for it can end, and the message is whole or says
`PEER_CLOSED` by itself. -/
theorem receiveCmd_survives_iff {s : Receiver} (proper : Proper s.sock.segs) :
    Survives s ↔ Survivable s := by
  unfold Survivable
  cases marker : afterMarker s.sock.segs with
  | none => exact iff_of_true (survives_of_noMarker proper marker) trivial
  | some segs => exact survives_iff_of_marker proper marker

/-- A message whose body arrives in two pieces before the connection is closed. -/
theorem receiveCmd_survives_sample :
    Survives
      { sock := { segs := [[0x0a, csMarker], (Cmd.sample 0x81 2 7).bytes, [5], [csMarker]] }
        msg := .sample 0 0 0 } := by
  refine (receiveCmd_survives_iff (by decide)).mpr ⟨by decide, .inl (by decide), .inl ?_⟩
  exact ⟨[0x0a], [5, csMarker], [], .sample 0x81 2 7, by decide, by decide, rfl⟩

/-- The peer closes the connection after the marker, after the header, resets it inside the body,
and sends a body of 600 bytes in two pieces.  In the first case the echo of before is taken for a
new one, in the second and the third the call does not return, and in the last it stores outside
`sm_inbuf`. -/
theorem broken_peer_unsurvived :
    let early : Receiver := { sock := { segs := [[csMarker]] }, msg := .sample 0x81 0 7 }
    let monitor : Monitor :=
      { gotit := false, waitCntr := 0, clientSocket := 3, msg := early.msg, echoed := true }
    let late : Receiver :=
      { sock := { segs := [csMarker :: (Cmd.sample 0x81 2 7).bytes] }, msg := .sample 0 0 0 }
    let reset : Receiver :=
      { sock := { segs := [csMarker :: (Cmd.sample 0x81 2 7).bytes, [5]], fails := true }
        msg := .sample 0 0 0 }
    let header : Cmd := (Cmd.sample 0x81 0 7).overwrite [3, 0x81, 0, 0, 0x37, 0, 0, 0, 0x58, 2]
    let long : Receiver :=
      { sock := { segs := [csMarker :: header.bytes, List.replicate 500 0, List.replicate 100 0] }
        msg := .sample 0 0 0 }
    (¬ ∀ s : Receiver, Proper s.sock.segs → Survives s) ∧
      (recvAnotherCommand 0x01 1 early.sock monitor).map Prod.fst = some 0 ∧
      (∀ s', ¬ Returns late s') ∧ (∀ s', ¬ Returns reset s') ∧ storesOutside 3 long = true := by
  intro early monitor late reset header long
  refine ⟨fun all => ?_, by decide +kernel, ?_, ?_, by decide +kernel⟩
  · have returns : Returns early { early with sock := { segs := [] } } :=
      ⟨1, by decide +kernel⟩
    have missing : ¬ Arrived early.sock.segs.flatten := by
      rintro ⟨junk, body, rest, header, -, stream, -⟩
      have size := congrArg List.length stream
      simp only [List.length_append, List.length_cons, header.size, sizeofCmd] at size
      have one : early.sock.segs.flatten.length = 1 := rfl
      omega
    have reported := (all early (by decide)).reports missing _ returns
    exact absurd reported (by decide)
  · intro s' returns
    have found : getMarker 1 late.sock =
        some (true, { segs := [(Cmd.sample 0x81 2 7).bytes] }) := by decide
    exact absurd ((bodyReturns_ended false).mp (returns.body found rfl)) (by decide)
  · intro s' returns
    have found : getMarker 1 reset.sock =
        some (true, { segs := [(Cmd.sample 0x81 2 7).bytes, [5]], fails := true }) := by decide
    exact absurd ((bodyReturns_iff (by decide) rfl).mp (returns.body found rfl)) (by decide)

end Cjunk.Watchdog
