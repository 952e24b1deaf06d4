import Cjunk.Lib.Segmented
import Cjunk.Lib.Words

/-!
# Receiving a command

`receive_cmd` of the system monitor reads one message off a TCP socket: it skips bytes
until the marker `'!'`, reads the header `Cmd`, and then the body that the header
announces.  How the stream is cut into the results of `recv` should not matter.  The loop
for the body sees to that; the header is read by a single `recv`, whose length is not
looked at.

`receiveCmd_framing_iff`: the calls of `receive_cmd` return the headers that were sent, each
consuming its own message, if and only if no header is cut.

`recv` returns at least one byte as long as there are any (`Proper`); at the end of the
stream it returns 0, on a socket that `fails` after a -1 that it returns once.  `Cmd` has
its layout on the 32 bit target; of its members `receive_cmd` looks at two.  The loops take
a fuel, and `Returns s s'` says that some fuel is enough.
-/

namespace Cjunk.Watchdog

open Segmented

/-- `CS_MARKER`, the character `'!'`. -/
def csMarker : U8 := 0x21

/-- `PEER_CLOSED`. -/
def peerClosed : U8 := 0xff

/-- `sizeof(Cmd)`. -/
def sizeofCmd : ℕ := 32

/-- The bytes of `sm_inbuf`, 512 of type `unsigned short`. -/
def sizeofInbuf : ℕ := 1024

/-- A `Cmd`, byte for byte. -/
structure Cmd where
  bytes : List U8
  size : bytes.length = sizeofCmd
  deriving DecidableEq

namespace Cmd

def cmd (c : Cmd) : U8 := c.bytes.getD 1 0

/-- The member `length`, little endian at offset 8. -/
def length (c : Cmd) : U32 :=
  c.bytes.getD 11 0 ++ c.bytes.getD 10 0 ++ c.bytes.getD 9 0 ++ c.bytes.getD 8 0

def setCmd (c : Cmd) (cmd : U8) : Cmd :=
  { bytes := c.bytes.set 1 cmd
    size := by rw [List.length_set, c.size] }

/-- `recv` into a `Cmd`: what was received is written over its beginning. -/
def overwrite (c : Cmd) (received : List U8) : Cmd :=
  { bytes := received.take sizeofCmd ++ c.bytes.drop received.length
    size := by
      rw [List.length_append, List.length_take, List.length_drop, c.size]
      omega }

end Cmd

/-- A connected socket: the segments still to come, and whether there is an error after them that
`recv` has not reported yet. -/
structure Sock where
  segs : List (List U8)
  fails : Bool := false
  deriving DecidableEq

/-- `recv` of at most `n` bytes; `none` is -1, and the empty list is 0.  An error is reported once;
after that the connection is closed. -/
def Sock.recv (s : Sock) (n : ℕ) : Option (List U8) × Sock :=
  match s.segs with
  | [] => (if s.fails then none else some [], { s with fails := false })
  | segs => (some (read n segs).1, { s with segs := (read n segs).2 })

/-- What a call of `receive_cmd` starts from and ends in: the socket, the static `msg`, and
whether it closed the connection. -/
structure Receiver where
  sock : Sock
  msg : Cmd
  lost : Bool := false
  deriving DecidableEq

/-- The loop `Get Marker`; `false` where the connection is lost. -/
def getMarker : ℕ → Sock → Option (Bool × Sock)
  | 0, _ => none
  | fuel + 1, s =>
    match s.recv 1 with
    | (none, s') => some (false, s')
    | (some [], s') => some (false, s')
    | (some (marker :: _), s') =>
      if marker = csMarker then some (true, s') else getMarker fuel s'

/-- The loop that receives the body.  `sum` counts bytes and indexes shorts, and a failed
`recv` adds its -1 to it; a `recv` of 0 adds nothing and is tried again.  The loop ends
only inside `sm_inbuf`. -/
def getBody (length : U32) : ℕ → U32 → Sock → Option Sock
  | 0, _, _ => none
  | fuel + 1, sum, s =>
    if sum < length then
      match s.recv (length - sum).toNat with
      | (none, s') => getBody length fuel (sum - 1) s'
      | (some bytes, s') =>
        if 2 * sum.toNat + bytes.length ≤ sizeofInbuf then
          getBody length fuel (sum + BitVec.ofNat 32 bytes.length) s'
        else none
    else some s

/-- `receive_cmd`. -/
def receiveCmd (fuel : ℕ) (s : Receiver) : Option Receiver :=
  match getMarker fuel s.sock with
  | none => none
  | some (false, sock) => some { sock := sock, msg := s.msg.setCmd peerClosed, lost := true }
  | some (true, sock) =>
    let (len, sock) := sock.recv sizeofCmd
    let msg := s.msg.overwrite (len.getD [])
    if 0 < msg.length then
      (getBody msg.length fuel 0 sock).map fun sock => { sock := sock, msg := msg }
    else some { sock := sock, msg := msg }

/-- `receive_cmd` returns. -/
def Returns (s s' : Receiver) : Prop := ∃ fuel, receiveCmd fuel s = some s'

/-! ## What is sent, and what should be received -/

/-- A well-formed message, and the bytes before it that the loop for the marker skips. -/
structure Message where
  junk : List U8
  noMarker : csMarker ∉ junk
  header : Cmd
  body : List U8
  sized : body.length = header.length.toNat
  small : header.length.toNat ≤ 512

def Message.wire (m : Message) : List U8 := m.junk ++ csMarker :: (m.header.bytes ++ m.body)

/-- The calls of `receive_cmd` return the headers of the messages, and each consumes the
bytes of its own. -/
def Framed : Receiver → List Message → Prop
  | _, [] => True
  | s, m :: ms => ∃ s', Returns s s' ∧ s'.msg = m.header ∧ s'.lost = false ∧
      s'.sock.segs.flatten = ms.flatMap Message.wire ∧ Framed s' ms

/-- No boundary of the segments is inside a header, of the messages that start at `pos`. -/
def HeadersUncut (segs : List (List U8)) : ℕ → List Message → Prop
  | _, [] => True
  | pos, m :: ms =>
    (∀ b < sizeofCmd, 0 < b → pos + m.junk.length + 1 + b ∉ boundaries segs) ∧
      HeadersUncut segs (pos + m.wire.length) ms

instance decidableHeadersUncut (segs : List (List U8)) :
    ∀ (pos : ℕ) (ms : List Message), Decidable (HeadersUncut segs pos ms)
  | _, [] => instDecidableTrue
  | pos, m :: ms =>
    have := decidableHeadersUncut segs (pos + m.wire.length) ms
    inferInstanceAs (Decidable (_ ∧ _))

/-! ## Fuel -/

theorem getMarker_succ {fuel : ℕ} {s : Sock} {r : Bool × Sock} (h : getMarker fuel s = some r) :
    getMarker (fuel + 1) s = some r := by
  induction fuel generalizing s with
  | zero => exact absurd h (by simp [getMarker])
  | succ fuel ih =>
      rw [getMarker] at h ⊢
      split at h
      · exact h
      · exact h
      · split at h
        · rename_i found
          rw [if_pos found]
          exact h
        · rename_i other
          rw [if_neg other]
          exact ih h

theorem getMarker_mono {fuel fuel' : ℕ} (le : fuel ≤ fuel') {s : Sock} {r : Bool × Sock}
    (h : getMarker fuel s = some r) : getMarker fuel' s = some r := by
  induction fuel', le using Nat.le_induction with
  | base => exact h
  | succ fuel' _ ih => exact getMarker_succ ih

theorem getMarker_unique {fuel fuel' : ℕ} {s : Sock} {r r' : Bool × Sock}
    (h : getMarker fuel s = some r) (h' : getMarker fuel' s = some r') : r = r' := by
  have h := getMarker_mono (Nat.le_max_left fuel fuel') h
  have h' := getMarker_mono (Nat.le_max_right fuel fuel') h'
  exact Option.some_inj.mp (h.symm.trans h')

theorem getBody_succ {length : U32} {fuel : ℕ} {sum : U32} {s s' : Sock}
    (h : getBody length fuel sum s = some s') : getBody length (fuel + 1) sum s = some s' := by
  induction fuel generalizing sum s with
  | zero => exact absurd h (by simp [getBody])
  | succ fuel ih =>
      rw [getBody] at h ⊢
      split at h
      · rename_i more
        rw [if_pos more]
        split at h
        · exact ih h
        · split at h
          · rename_i fits
            rw [if_pos fits]
            exact ih h
          · exact absurd h (by simp)
      · rename_i done
        rw [if_neg done]
        exact h

theorem getBody_mono {length : U32} {fuel fuel' : ℕ} (le : fuel ≤ fuel') {sum : U32}
    {s s' : Sock} (h : getBody length fuel sum s = some s') :
    getBody length fuel' sum s = some s' := by
  induction fuel', le using Nat.le_induction with
  | base => exact h
  | succ fuel' _ ih => exact getBody_succ ih

theorem receiveCmd_succ {fuel : ℕ} {s s' : Receiver} (h : receiveCmd fuel s = some s') :
    receiveCmd (fuel + 1) s = some s' := by
  unfold receiveCmd at h ⊢
  split at h
  · exact absurd h (by simp)
  · rename_i lost
    rw [getMarker_succ lost]
    exact h
  · rename_i found
    rw [getMarker_succ found]
    dsimp only at h ⊢
    split at h
    · rename_i body
      obtain ⟨sock, received, rfl⟩ := Option.map_eq_some_iff.mp h
      rw [if_pos body, getBody_succ received]
      rfl
    · rename_i noBody
      rw [if_neg noBody]
      exact h

theorem receiveCmd_mono {fuel fuel' : ℕ} (le : fuel ≤ fuel') {s s' : Receiver}
    (h : receiveCmd fuel s = some s') : receiveCmd fuel' s = some s' := by
  induction fuel', le using Nat.le_induction with
  | base => exact h
  | succ fuel' _ ih => exact receiveCmd_succ ih

theorem Returns.unique {s s₁ s₂ : Receiver} (h₁ : Returns s s₁) (h₂ : Returns s s₂) :
    s₁ = s₂ := by
  obtain ⟨fuel₁, h₁⟩ := h₁
  obtain ⟨fuel₂, h₂⟩ := h₂
  have h₁' := receiveCmd_mono (Nat.le_max_left fuel₁ fuel₂) h₁
  have h₂' := receiveCmd_mono (Nat.le_max_right fuel₁ fuel₂) h₂
  exact Option.some_inj.mp (h₁'.symm.trans h₂')

/-! ## What the loops read -/

theorem recv_of_more {s : Sock} (more : s.segs.flatten ≠ []) (n : ℕ) :
    s.recv n = (some (read n s.segs).1, { s with segs := (read n s.segs).2 }) := by
  unfold Sock.recv
  split
  · rename_i ended
    rw [ended] at more
    exact absurd rfl more
  · rfl

/-- One byte is received as it is sent. -/
theorem read_one {segs : List (List U8)} {a : U8} {rest : List U8} (proper : Proper segs)
    (stream : segs.flatten = a :: rest) : (read 1 segs).1 = [a] := by
  have more : segs.flatten ≠ [] := by
    rw [stream]
    exact List.cons_ne_nil a rest
  have one : (read 1 segs).1.length = 1 :=
    Nat.le_antisymm (length_read_le 1 segs) (length_read_pos proper more Nat.one_pos)
  rw [(read_advances 1 segs).out_eq_take, one, stream]
  rfl

/-- The loop for the marker reads up to the marker, however the stream is cut. -/
theorem getMarker_spec {junk : List U8} (noMarker : csMarker ∉ junk) {rest : List U8} {s : Sock}
    (proper : Proper s.segs) (stream : s.segs.flatten = junk ++ csMarker :: rest) :
    ∃ s', getMarker (junk.length + 1) s = some (true, s') ∧
      Advances s.segs (junk ++ [csMarker]) s'.segs := by
  induction junk generalizing s with
  | nil =>
      have byte := read_one proper stream
      refine ⟨{ s with segs := (read 1 s.segs).2 }, ?_, byte ▸ read_advances 1 s.segs⟩
      rw [getMarker, recv_of_more (by rw [stream]; exact List.cons_ne_nil _ _), byte]
      exact if_pos rfl
  | cons a junk ih =>
      have byte := read_one proper stream
      have advances : Advances s.segs [a] (read 1 s.segs).2 := byte ▸ read_advances 1 s.segs
      have other : a ≠ csMarker := fun same => noMarker (same ▸ List.mem_cons_self)
      obtain ⟨s', found, later⟩ :=
        ih (s := { s with segs := (read 1 s.segs).2 })
          (fun found => noMarker (List.mem_cons_of_mem a found))
          (advances.proper proper) (advances.rest_eq stream)
      refine ⟨s', ?_, advances.trans later⟩
      rw [List.length_cons, getMarker,
        recv_of_more (by rw [stream]; exact List.cons_ne_nil _ _), byte]
      exact (if_neg other).trans found

/-- The loop for the body reads the bytes that are still to come, however the stream is
cut. -/
theorem getBody_spec {length : U32} (small : length.toNat ≤ 512) {k : ℕ} {sum : U32}
    (left : sum.toNat + k = length.toNat) {s : Sock} (proper : Proper s.segs)
    (enough : k ≤ s.segs.flatten.length) :
    ∃ s', getBody length (k + 1) sum s = some s' ∧
      Advances s.segs (s.segs.flatten.take k) s'.segs := by
  induction k using Nat.strong_induction_on generalizing sum s with
  | _ k ih =>
    rw [getBody]
    by_cases done : k = 0
    · subst done
      have all : ¬ sum < length := by
        rw [BitVec.lt_def]
        omega
      exact ⟨s, if_neg all, Advances.refl s.segs⟩
    · have more : sum < length := by
        rw [BitVec.lt_def]
        omega
      have asks : (length - sum).toNat = k := by
        rw [BitVec.toNat_sub_of_le (BitVec.le_of_lt more)]
        omega
      have nonempty : s.segs.flatten ≠ [] := by
        intro ended
        rw [ended, List.length_nil] at enough
        omega
      have received := read_advances k s.segs
      have some_ := length_read_pos proper nonempty (Nat.pos_of_ne_zero done)
      have most := length_read_le k s.segs
      rw [if_pos more, asks, recv_of_more nonempty]
      generalize (read k s.segs).1 = bytes at received some_ most ⊢
      dsimp only
      have fits : 2 * sum.toNat + bytes.length ≤ sizeofInbuf := by
        unfold sizeofInbuf
        omega
      have next : (sum + BitVec.ofNat 32 bytes.length).toNat = sum.toNat + bytes.length := by
        rw [BitVec.toNat_add, BitVec.toNat_ofNat]
        omega
      have total : s.segs.flatten.length = bytes.length + (read k s.segs).2.flatten.length := by
        rw [received.flatten, List.length_append]
      have left' : (sum + BitVec.ofNat 32 bytes.length).toNat + (k - bytes.length) =
          length.toNat := by
        rw [next]
        omega
      obtain ⟨s', got, advances⟩ := ih (k - bytes.length) (by omega) left'
        (s := { s with segs := (read k s.segs).2 }) (received.proper proper)
        (by dsimp only; omega)
      refine ⟨s', ?_, ?_⟩
      · rw [if_pos fits]
        exact getBody_mono (by omega) got
      · have out : s.segs.flatten.take k =
            bytes ++ (read k s.segs).2.flatten.take (k - bytes.length) := by
          rw [received.flatten, List.take_append, List.take_of_length_le most]
        rw [out]
        exact received.trans advances

/-- The connection is lost exactly if the stream ends before a marker. -/
theorem getMarker_lost_iff {s : Sock} (proper : Proper s.segs) :
    (∃ n s', getMarker n s = some (false, s')) ↔ csMarker ∉ s.segs.flatten := by
  constructor
  · rintro ⟨n, s', lost⟩ marker
    obtain ⟨junk, rest, stream, noMarker⟩ := List.eq_append_cons_of_mem marker
    obtain ⟨s'', found, -⟩ := getMarker_spec noMarker proper stream
    exact Bool.false_ne_true (congrArg Prod.fst (getMarker_unique lost found))
  · intro noMarker
    generalize stream : s.segs.flatten = bytes at noMarker
    induction bytes generalizing s with
    | nil =>
        have ended : s.segs = [] := proper.eq_nil stream
        refine ⟨1, { s with fails := false }, ?_⟩
        rw [getMarker, Sock.recv, ended]
        cases s.fails <;> rfl
    | cons a bytes ih =>
        have byte := read_one proper stream
        have advances : Advances s.segs [a] (read 1 s.segs).2 := byte ▸ read_advances 1 s.segs
        have other : a ≠ csMarker := fun same => noMarker (same ▸ List.mem_cons_self)
        obtain ⟨n, s', lost⟩ :=
          ih (s := { s with segs := (read 1 s.segs).2 }) (advances.proper proper)
            (advances.rest_eq stream) fun found => noMarker (List.mem_cons_of_mem a found)
        refine ⟨n + 1, s', ?_⟩
        rw [getMarker, recv_of_more (by rw [stream]; exact List.cons_ne_nil a bytes), byte]
        exact (if_neg other).trans lost

/-! ## One call -/

theorem Cmd.cmd_setCmd (c : Cmd) (cmd : U8) : (c.setCmd cmd).cmd = cmd := by
  unfold Cmd.cmd Cmd.setCmd
  rw [List.getD_eq_getElem?_getD, List.getElem?_set_self (by rw [c.size]; decide)]
  rfl

/-- A call reports a lost connection as `PEER_CLOSED`. -/
theorem receiveCmd_lost {fuel : ℕ} {s s' : Receiver} (h : receiveCmd fuel s = some s') :
    s'.lost = (getMarker fuel s.sock).any (fun r => !r.1) ∧
      (s'.lost = true → s'.msg.cmd = peerClosed) := by
  unfold receiveCmd at h
  split at h
  · exact absurd h (by simp)
  · rename_i lost
    cases h
    rw [lost]
    exact ⟨rfl, fun _ => Cmd.cmd_setCmd s.msg peerClosed⟩
  · rename_i found
    rw [found]
    dsimp only at h
    split at h
    · obtain ⟨sock, -, rfl⟩ := Option.map_eq_some_iff.mp h
      exact ⟨rfl, fun lost => absurd lost Bool.false_ne_true⟩
    · cases h
      exact ⟨rfl, fun lost => absurd lost Bool.false_ne_true⟩

section Found

variable {s s' : Receiver} {n : ℕ} {sock sock' sock'' : Sock} {len : Option (List U8)}

/-- Once there is a marker, the returned header is what one `recv` got, over the header of
the previous call. -/
theorem Returns.msg_eq (returns : Returns s s') (found : getMarker n s.sock = some (true, sock))
    (header : sock.recv sizeofCmd = (len, sock')) : s'.msg = s.msg.overwrite (len.getD []) := by
  obtain ⟨fuel, h⟩ := returns
  have h := receiveCmd_mono (Nat.le_max_left fuel n) h
  unfold receiveCmd at h
  rw [getMarker_mono (Nat.le_max_right fuel n) found] at h
  dsimp only at h
  rw [header] at h
  split at h
  · obtain ⟨sock, -, rfl⟩ := Option.map_eq_some_iff.mp h
    rfl
  · cases h
    rfl

theorem returns_of_body (found : getMarker n s.sock = some (true, sock))
    (header : sock.recv sizeofCmd = (len, sock')) {m : ℕ}
    (body : getBody (s.msg.overwrite (len.getD [])).length m 0 sock' = some sock'') :
    Returns s { sock := sock'', msg := s.msg.overwrite (len.getD []) } := by
  refine ⟨max n m, ?_⟩
  unfold receiveCmd
  rw [getMarker_mono (Nat.le_max_left n m) found]
  dsimp only
  rw [header]
  show (if 0 < (s.msg.overwrite (len.getD [])).length then
    (getBody (s.msg.overwrite (len.getD [])).length (max n m) 0 sock').map _ else _) = _
  have body := getBody_mono (Nat.le_max_right n m) body
  split
  · rw [body]
    rfl
  · rename_i noBody
    -- the loop would not have been entered
    cases fuel : max n m with
    | zero =>
        rw [fuel] at body
        exact absurd body (by simp [getBody])
    | succ fuel' =>
        rw [fuel, getBody, if_neg noBody] at body
        cases body
        rfl

end Found

/-- What a call receives from a stream that begins with a marker: a header of which `recv`
got `hdr`, and the body that this header announces. -/
theorem receiveCmd_spec {s : Receiver} {junk tail : List U8} (noMarker : csMarker ∉ junk)
    (proper : Proper s.sock.segs) (stream : s.sock.segs.flatten = junk ++ csMarker :: tail)
    (whole : sizeofCmd ≤ tail.length) :
    ∃ hdr : List U8, hdr = tail.take hdr.length ∧ hdr.length ≤ sizeofCmd ∧
      (hdr.length = sizeofCmd ↔
        ∀ b < sizeofCmd, 0 < b → junk.length + 1 + b ∉ boundaries s.sock.segs) ∧
      (∀ s', Returns s s' → s'.msg = s.msg.overwrite hdr) ∧
      ∀ len, len = (s.msg.overwrite hdr).length.toNat → len ≤ 512 →
        hdr.length + len ≤ tail.length →
        ∃ s', Returns s s' ∧ s'.lost = false ∧
          Advances s.sock.segs (junk ++ csMarker :: tail.take (hdr.length + len))
            s'.sock.segs := by
  obtain ⟨sock, found, marker⟩ := getMarker_spec noMarker proper stream
  have proper := marker.proper proper
  have rest : sock.segs.flatten = tail := by
    apply marker.rest_eq
    rw [stream, List.append_assoc, List.singleton_append]
  have position : (junk ++ [csMarker]).length = junk.length + 1 := by
    rw [List.length_append, List.length_singleton]
  have nonempty : sock.segs.flatten ≠ [] := by
    rw [rest]
    exact List.ne_nil_of_length_pos (Nat.lt_of_lt_of_le (by decide) whole)
  have header := recv_of_more nonempty sizeofCmd
  have received := read_advances sizeofCmd sock.segs
  have full := read_full_iff proper (n := sizeofCmd) (by rw [rest]; exact whole) (by decide)
  have most := length_read_le sizeofCmd sock.segs
  have out := received.out_eq_take
  generalize (read sizeofCmd sock.segs).1 = hdr at header received full most out
  rw [rest] at out
  refine ⟨hdr, out, most, ?_, fun s' returns => returns.msg_eq found header, ?_⟩
  · rw [full]
    constructor
    · intro uncut b below pos
      rw [← position, ← marker.boundary b pos]
      exact uncut b pos below
    · intro uncut b pos below
      rw [marker.boundary b pos, position]
      exact uncut b below pos
  · rintro len rfl small enough
    have split : tail = hdr ++ tail.drop hdr.length :=
      (List.take_append_drop hdr.length tail).symm.trans (congrArg (· ++ _) out.symm)
    have left : (read sizeofCmd sock.segs).2.flatten = tail.drop hdr.length :=
      received.rest_eq (rest.trans split)
    have start : (0 : U32).toNat + (s.msg.overwrite hdr).length.toNat = _ := Nat.zero_add _
    obtain ⟨sock'', body, advances⟩ := getBody_spec small start
      (s := { sock with segs := (read sizeofCmd sock.segs).2 }) (received.proper proper)
      (by dsimp only; rw [left, List.length_drop]; omega)
    refine ⟨_, returns_of_body found header body, rfl, ?_⟩
    have all := (marker.trans received).trans advances
    dsimp only at all
    rw [left] at all
    rw [List.take_add, ← out]
    simpa using all

/-! ## One message -/

theorem Cmd.overwrite_bytes (c d : Cmd) : c.overwrite d.bytes = d := by
  have bytes : (c.overwrite d.bytes).bytes = d.bytes := by
    show d.bytes.take sizeofCmd ++ c.bytes.drop d.bytes.length = d.bytes
    rw [List.take_of_length_le (Nat.le_of_eq d.size),
      List.drop_of_length_le (Nat.le_of_eq (c.size.trans d.size.symm)), List.append_nil]
  cases d
  cases h : c.overwrite _
  simpa [h] using bytes

namespace Message

variable {s : Receiver} {m : Message} {rest : List U8}

theorem wire_append (m : Message) (rest : List U8) :
    m.wire ++ rest = m.junk ++ csMarker :: (m.header.bytes ++ (m.body ++ rest)) := by
  unfold wire
  rw [List.append_assoc, List.cons_append, List.append_assoc]

theorem length_tail (m : Message) (rest : List U8) :
    (m.header.bytes ++ (m.body ++ rest)).length =
      sizeofCmd + m.header.length.toNat + rest.length := by
  rw [List.length_append, List.length_append, m.header.size, m.sized, Nat.add_assoc]

/-- A message whose header is not cut is received, and its bytes are consumed. -/
theorem receives_of_uncut (proper : Proper s.sock.segs)
    (stream : s.sock.segs.flatten = m.wire ++ rest)
    (uncut : ∀ b < sizeofCmd, 0 < b → m.junk.length + 1 + b ∉ boundaries s.sock.segs) :
    ∃ s', Returns s s' ∧ s'.msg = m.header ∧ s'.lost = false ∧
      Advances s.sock.segs m.wire s'.sock.segs := by
  have tail := m.length_tail rest
  rw [m.wire_append rest] at stream
  obtain ⟨hdr, out, -, full, returned, body⟩ :=
    receiveCmd_spec m.noMarker proper stream (by rw [tail]; omega)
  have size := full.mpr uncut
  rw [size, ← m.header.size, List.take_left] at out
  subst out
  rw [Cmd.overwrite_bytes] at returned body
  obtain ⟨s', returns, lost, advances⟩ := body _ rfl m.small (by rw [tail, size]; omega)
  refine ⟨s', returns, returned s' returns, lost, ?_⟩
  rw [← m.sized, List.take_length_add_append, List.take_left] at advances
  exact advances

/-- A call that returns the header of the message and consumes its bytes has found the
header in one piece.  A shorter header would leave bytes of the message behind. -/
theorem uncut_of_receives (proper : Proper s.sock.segs)
    (stream : s.sock.segs.flatten = m.wire ++ rest) {s' : Receiver} (returns : Returns s s')
    (msg : s'.msg = m.header) (left : s'.sock.segs.flatten = rest) :
    ∀ b < sizeofCmd, 0 < b → m.junk.length + 1 + b ∉ boundaries s.sock.segs := by
  have tail := m.length_tail rest
  rw [m.wire_append rest] at stream
  obtain ⟨hdr, out, most, full, returned, body⟩ :=
    receiveCmd_spec m.noMarker proper stream (by rw [tail]; omega)
  rw [← returned s' returns, msg] at body
  obtain ⟨s'', returns', -, advances⟩ := body _ rfl m.small (by rw [tail]; omega)
  rw [returns'.unique returns] at advances
  refine full.mp (Nat.le_antisymm most ?_)
  have total := congrArg List.length advances.flatten
  rw [stream, left] at total
  simp only [List.length_append, List.length_cons, List.length_take] at total tail
  omega

end Message

/-! ## The whole stream -/

theorem headersUncut_shift {segs segs' : List (List U8)} {w : ℕ}
    (boundary : ∀ b, 0 < b → (b ∈ boundaries segs' ↔ w + b ∈ boundaries segs))
    (pos : ℕ) (ms : List Message) :
    HeadersUncut segs' pos ms ↔ HeadersUncut segs (w + pos) ms := by
  induction ms generalizing pos with
  | nil => exact Iff.rfl
  | cons m ms ih =>
      unfold HeadersUncut
      rw [ih, ← Nat.add_assoc w pos]
      refine and_congr_left fun _ => forall_congr' fun b => forall_congr' fun _ =>
        forall_congr' fun _ => not_congr ?_
      rw [boundary _ (by omega), show w + (pos + m.junk.length + 1 + b) =
        w + pos + m.junk.length + 1 + b by omega]

/-- **Framing.**  However a stream of messages is cut, the calls of `receive_cmd` return the
headers that were sent, each consuming its own message, exactly if no header is cut. -/
theorem receiveCmd_framing_iff {s : Receiver} {ms : List Message} (proper : Proper s.sock.segs)
    (stream : s.sock.segs.flatten = ms.flatMap Message.wire) :
    Framed s ms ↔ HeadersUncut s.sock.segs 0 ms := by
  induction ms generalizing s with
  | nil => exact Iff.rfl
  | cons m ms ih =>
      rw [List.flatMap_cons] at stream
      unfold HeadersUncut
      rw [Nat.zero_add, Nat.zero_add]
      constructor
      · rintro ⟨s', returns, msg, -, left, framed⟩
        have uncut := m.uncut_of_receives proper stream returns msg left
        obtain ⟨s'', returns', -, -, advances⟩ := m.receives_of_uncut proper stream uncut
        rw [returns'.unique returns] at advances
        have later := (ih (advances.proper proper) left).mp framed
        exact ⟨uncut, (headersUncut_shift advances.boundary 0 ms).mp later⟩
      · rintro ⟨uncut, later⟩
        obtain ⟨s', returns, msg, lost, advances⟩ := m.receives_of_uncut proper stream uncut
        have left := advances.rest_eq stream
        refine ⟨s', returns, msg, lost, left, (ih (advances.proper proper) left).mpr ?_⟩
        exact (headersUncut_shift advances.boundary 0 ms).mpr later

/-! ## Two streams -/

/-- A header with a body of `length` bytes, and `data` in the part that is specific to the
command. -/
def Cmd.sample (cmd length data : U8) : Cmd :=
  { bytes := [3, cmd, 0, 0, 0x37, 0, 0, 0, length, 0, 0, 0, data] ++ List.replicate 19 0
    size := rfl }

/-- Two messages: a line feed and a body that contains a marker, then no body. -/
def sampleMessages : List Message :=
  [{ junk := [0x0a]
     noMarker := by decide
     header := .sample 0x81 2 7
     body := [csMarker, 5]
     sized := rfl
     small := by decide },
   { junk := []
     noMarker := List.not_mem_nil
     header := .sample 0x81 0 7
     body := []
     sized := rfl
     small := by decide }]

/-- The stream is cut between marker and header, inside the body, and after it. -/
theorem receiveCmd_framing_sample :
    Framed
      { sock := { segs := [[0x0a, csMarker], (Cmd.sample 0x81 2 7).bytes ++ [csMarker], [5],
          [csMarker], (Cmd.sample 0x81 0 7).bytes] }
        msg := .sample 0 0 0 }
      sampleMessages :=
  (receiveCmd_framing_iff (by decide) (by decide)).mpr (by decide +kernel)

/-- One message without a body, in one segment and in two.  From the second stream
`receive_cmd` returns the first ten bytes of the header, followed by what was in `msg`
before, and leaves the other 22 bytes unread. -/
theorem short_header_is_returned :
    let m := sampleMessages[1]
    let whole : Receiver := { sock := { segs := [m.wire] }, msg := .sample 0 0 0 }
    let cut : Receiver :=
      { sock := { segs := [m.wire.take 11, m.wire.drop 11] }, msg := .sample 0 0 0 }
    Proper whole.sock.segs ∧ Proper cut.sock.segs ∧
      whole.sock.segs.flatten = cut.sock.segs.flatten ∧
      Framed whole [m] ∧ ¬ Framed cut [m] ∧
      (receiveCmd 2 cut).any fun s =>
        s.msg = .sample 0x81 0 0 ∧ s.sock.segs.flatten.length = 22 := by
  intro m whole cut
  have returns : Returns whole { sock := { segs := [] }, msg := m.header } :=
    ⟨2, by decide +kernel⟩
  have short : Returns cut
      { sock := { segs := [m.wire.drop 11] }, msg := .sample 0x81 0 0 } :=
    ⟨2, by decide +kernel⟩
  refine ⟨by decide, by decide, by decide, ?_, ?_, by decide +kernel⟩
  · exact ⟨_, returns, rfl, rfl, rfl, trivial⟩
  · rintro ⟨s', returns', msg, -⟩
    rw [returns'.unique short] at msg
    exact absurd msg (by decide)

end Cjunk.Watchdog
