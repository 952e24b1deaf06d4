import Mathlib.Data.Int.Notation
import Cjunk.Lib.Run
import Cjunk.Watchdog.ReceiveCmd

/-!
# The heartbeat of the system monitor

The system monitor sends `CMD_ECHO_CS` to the application and expects an echo back every
few seconds; when the application stays silent it closes the connection and makes a new
one.  Only a fresh start sends an echo on the connection it has made.  The reconnects in
the loop of `main` do not, and since the loop sends an echo only after a reply, such a
connection stays silent.

`heartbeatKept_iff`: at the start of every iteration of a run there is a reply, or an echo
was sent on the open connection, exactly if the first echo is sent and the run never
reconnects without a reply.

`CMD_ECHO_CS` has no definition in the headers and is a parameter.  An iteration is a step
that takes the answers of its system calls; a step that does not return has no successor.
-/

namespace Cjunk.Watchdog

open Run

/-- `MAX_CONN_ATTEMPTS`. -/
def maxConnAttempts : ℕ := 5

/-- `SENT_ECHOS`. -/
def sentEchos : ℤ := 3

/-- `REPLY_BIT`. -/
def replyBit : U8 := 0x80

/-- `conn_status.cmd_tag`, which does not change. -/
def cmdTag : U32 := 0x37

/-- What the three calls of `send` in `send_cmd` return. -/
structure Sends where
  marker : ℤ := 1
  header : ℤ := 32
  body : ℤ := 0

/-- `conn_status`, `clientSocket`, and the static `msg` of `receive_cmd`; `echoed` is not in
the code: an echo was sent since the connection was made. -/
structure Monitor where
  gotit : Bool
  waitCntr : ℤ
  clientSocket : ℤ
  msg : Cmd
  echoed : Bool

/-- The answers of the system calls in one iteration: `select` and `FD_ISSET`, what there is
to receive and for how long the loops of `receive_cmd` may run, `send`, and one
`createConnection` after the other. -/
structure Answers where
  select : ℤ
  isSet : Bool := true
  sock : Sock := { segs := [] }
  fuel : ℕ := 0
  sends : Sends := {}
  createConnection : List ℤ := []

/-- `send_cmd`. -/
def sendCmd (msg : Cmd) (ss : Sends) : ℤ :=
  if ss.marker ≤ 0 then -1
  else if ss.header ≤ 0 then -1
  else if 0 < msg.length then
    if ss.body ≤ 0 then -1 else 0
  else 0

/-- The command that `send_another_command` builds. -/
def echoCmd (cmdEchoCs : U8) (tag : U32) : Cmd where
  bytes := [3, cmdEchoCs, 0, 0, tag.extractLsb' 0 8, tag.extractLsb' 8 8, tag.extractLsb' 16 8,
    tag.extractLsb' 24 8] ++ List.replicate 24 0
  size := rfl

/-- `close_connection`. -/
def closeConnection (s : Monitor) : Monitor := { s with clientSocket := -1 }

/-- The loop of `connect_2_appl`, after `i` failed attempts.  When they are used up it waits
for a reboot. -/
def connectAttempts : ℕ → List ℤ → Option ℤ
  | _, [] => none
  | i, fd :: later =>
    if fd ≠ -1 then some fd
    else if maxConnAttempts < i then none
    else connectAttempts (i + 1) later

/-- `connect_2_appl`.  No echo has been sent on a new connection. -/
def connect2Appl (createConnection : List ℤ) (s : Monitor) : Option Monitor :=
  if s.clientSocket ≠ -1 then some s
  else
    (connectAttempts 0 createConnection).map fun fd =>
      { s with clientSocket := fd, echoed := false }

section Echo

variable (cmdEchoCs : U8)

/-- `send_another_command`. -/
def sendAnotherCommand (ss : Sends) (s : Monitor) : ℤ × Monitor :=
  let ret := sendCmd (echoCmd cmdEchoCs cmdTag) ss
  (ret, { s with echoed := s.echoed || decide (ret = 0) })

/-- `recv_another_command`.  `receive_cmd` closes a lost connection. -/
def recvAnotherCommand (fuel : ℕ) (sock : Sock) (s : Monitor) : Option (ℤ × Monitor) :=
  (receiveCmd fuel { sock := sock, msg := s.msg }).map fun r =>
    let s := { s with
      msg := r.msg
      clientSocket := if r.lost then -1 else s.clientSocket }
    (if r.msg.cmd = cmdEchoCs ||| replyBit then 0 else -1, s)

/-- `main`, up to its loop. -/
def start (createConnection : List ℤ) (ss : Sends) : Option Monitor :=
  (connect2Appl createConnection
    { gotit := false
      waitCntr := 0
      clientSocket := -1
      msg := { bytes := List.replicate sizeofCmd 0, size := List.length_replicate }
      echoed := false }).map fun s => (sendAnotherCommand cmdEchoCs ss s).2

/-- One iteration of the loop in `main`.  A `select` that failed is taken for one that
found something. -/
def iteration (s : Monitor) (e : Answers) : Option Monitor :=
  if e.select = 0 then
    if s.gotit then
      let (ret, s) := sendAnotherCommand cmdEchoCs e.sends { s with gotit := false, waitCntr := 0 }
      if ret = 0 then some s else connect2Appl e.createConnection (closeConnection s)
    else
      let waited := s.waitCntr
      let s := { s with waitCntr := waited + 1 }
      if sentEchos < waited then
        connect2Appl e.createConnection (closeConnection { s with waitCntr := 0 })
      else some s
  else if e.isSet then
    match recvAnotherCommand cmdEchoCs e.fuel e.sock s with
    | none => none
    | some (ret, s) =>
      if ret = 0 then some { s with gotit := true } else connect2Appl e.createConnection s
  else some s

end Echo

/-- The application has replied, or an echo was sent on the open connection. -/
def HeartbeatKept (s : Monitor) : Prop := s.gotit = true ∨ s.echoed = true

instance (s : Monitor) : Decidable (HeartbeatKept s) :=
  inferInstanceAs (Decidable (_ ∨ _))

/-- The calls of `send` for an echo, which has no body, succeed. -/
def Sends.Succeed (ss : Sends) : Prop := 0 < ss.marker ∧ 0 < ss.header

instance (ss : Sends) : Decidable ss.Succeed := inferInstanceAs (Decidable (_ ∧ _))

/-- `receive_cmd` loses the connection: the stream ends before a marker
(`getMarker_lost_iff`). -/
def Answers.loses (e : Answers) : Bool := (getMarker e.fuel e.sock).any fun r => !r.1

/-- The iteration does not reconnect without a reply: a timeout after a reply sends an echo,
one without a reply is not the last that is waited for, and the application closes the
connection only after a reply. -/
def ReconnectsReplied (s : Monitor) (e : Answers) : Prop :=
  if e.select = 0 then
    if s.gotit then e.sends.Succeed else s.waitCntr ≤ sentEchos
  else e.isSet = true → e.loses = true → s.gotit = true

instance (s : Monitor) (e : Answers) : Decidable (ReconnectsReplied s e) := by
  unfold ReconnectsReplied
  infer_instance

/-! ## The connection -/

theorem connectAttempts_ne {i : ℕ} {later : List ℤ} {fd : ℤ}
    (h : connectAttempts i later = some fd) : fd ≠ -1 := by
  induction later generalizing i with
  | nil => exact absurd h (by simp [connectAttempts])
  | cons a later ih =>
      rw [connectAttempts] at h
      split at h
      · rename_i made
        cases h
        exact made
      · split at h
        · exact absurd h (by simp)
        · exact ih h

/-- A connection that is made is open, and no echo was sent on it. -/
theorem connect2Appl_closed {createConnection : List ℤ} {s t : Monitor}
    (closed : s.clientSocket = -1) (h : connect2Appl createConnection s = some t) :
    t.clientSocket ≠ -1 ∧ t.gotit = s.gotit ∧ t.echoed = false := by
  unfold connect2Appl at h
  rw [if_neg (not_not.mpr closed)] at h
  obtain ⟨fd, made, rfl⟩ := Option.map_eq_some_iff.mp h
  exact ⟨connectAttempts_ne made, rfl, rfl⟩

theorem connect2Appl_open (createConnection : List ℤ) {s : Monitor}
    (connected : s.clientSocket ≠ -1) : connect2Appl createConnection s = some s :=
  if_pos connected

theorem sendCmd_echo (cmdEchoCs : U8) (tag : U32) (ss : Sends) :
    sendCmd (echoCmd cmdEchoCs tag) ss = 0 ↔ ss.Succeed := by
  have noBody : ¬ 0 < (echoCmd cmdEchoCs tag).length := by
    show ¬ (0 : U32) < (0 : U8) ++ (0 : U8) ++ (0 : U8) ++ (0 : U8)
    decide
  unfold sendCmd Sends.Succeed
  rw [if_neg noBody]
  split
  · simp; omega
  · split
    · simp; omega
    · simp; omega

/-! ## One iteration -/

section Iteration

variable {cmdEchoCs : U8} {s t : Monitor} {e : Answers}

/-- What an iteration does to an open connection that is kept: it leaves an open connection,
which is kept exactly if the iteration did not reconnect without a reply. -/
def Keeps (s : Monitor) (e : Answers) (t : Monitor) : Prop :=
  t.clientSocket ≠ -1 ∧ (HeartbeatKept s → (HeartbeatKept t ↔ ReconnectsReplied s e))

/-- A timeout after a reply sends an echo, or reconnects. -/
theorem iteration_replied (connected : s.clientSocket ≠ -1) (timeout : e.select = 0)
    (gotit : s.gotit = true) (h : iteration cmdEchoCs s e = some t) : Keeps s e t := by
  have condition : ReconnectsReplied s e ↔ e.sends.Succeed := by
    unfold ReconnectsReplied
    rw [if_pos timeout, if_pos gotit]
  unfold iteration at h
  rw [if_pos timeout, if_pos gotit] at h
  dsimp only [sendAnotherCommand] at h
  split at h
  · rename_i sent
    cases h
    refine ⟨connected, fun _ => iff_of_true (Or.inr ?_) ?_⟩
    · show (s.echoed || decide _) = true
      rw [decide_eq_true sent, Bool.or_true]
    · exact condition.mpr ((sendCmd_echo cmdEchoCs cmdTag e.sends).mp sent)
  · rename_i failed
    -- the new connection has neither a reply nor an echo
    obtain ⟨made, unanswered, silent⟩ := connect2Appl_closed rfl h
    refine ⟨made, fun _ => iff_of_false ?_ ?_⟩
    · rintro (replied | echoed)
      · rw [unanswered] at replied
        exact absurd replied Bool.false_ne_true
      · rw [silent] at echoed
        exact absurd echoed Bool.false_ne_true
    · intro replied
      exact failed ((sendCmd_echo cmdEchoCs cmdTag e.sends).mpr (condition.mp replied))

/-- A timeout without a reply counts, and reconnects after the last one. -/
theorem iteration_silent (connected : s.clientSocket ≠ -1) (timeout : e.select = 0)
    (waiting : s.gotit = false) (h : iteration cmdEchoCs s e = some t) : Keeps s e t := by
  have condition : ReconnectsReplied s e ↔ s.waitCntr ≤ sentEchos := by
    unfold ReconnectsReplied
    rw [if_pos timeout, waiting, if_neg Bool.false_ne_true]
  unfold iteration at h
  rw [if_pos timeout, if_neg (Bool.eq_false_iff.mp waiting)] at h
  dsimp only at h
  split at h
  · rename_i last
    obtain ⟨made, unanswered, silent⟩ := connect2Appl_closed rfl h
    refine ⟨made, fun _ => iff_of_false ?_ ?_⟩
    · rintro (replied | echoed)
      · rw [unanswered] at replied
        exact absurd (waiting.symm.trans replied) Bool.false_ne_true
      · rw [silent] at echoed
        exact absurd echoed Bool.false_ne_true
    · rw [condition]
      exact not_le.mpr last
  · rename_i more
    cases h
    exact ⟨connected, fun kept => iff_of_true kept (condition.mpr (not_lt.mp more))⟩

/-- What `recv_another_command` leaves: a lost connection is closed, and was not replied on. -/
theorem recvAnotherCommand_spec (distinct : cmdEchoCs ||| replyBit ≠ peerClosed) {ret : ℤ}
    {u : Monitor} (h : recvAnotherCommand cmdEchoCs e.fuel e.sock s = some (ret, u)) :
    (u.gotit = s.gotit ∧ u.echoed = s.echoed) ∧
      u.clientSocket = (if e.loses then -1 else s.clientSocket) ∧ (ret = 0 → e.loses = false) := by
  obtain ⟨r, received, same⟩ := Option.map_eq_some_iff.mp h
  obtain ⟨lost, closed⟩ := receiveCmd_lost received
  have lost : r.lost = e.loses := lost
  cases same
  rw [← lost]
  refine ⟨⟨rfl, rfl⟩, rfl, fun zero => ?_⟩
  by_cases reply : r.msg.cmd = cmdEchoCs ||| replyBit
  · rw [Bool.eq_false_iff]
    intro ended
    exact distinct (reply.symm.trans (closed ended))
  · rw [if_neg reply] at zero
    exact absurd zero (by decide)

/-- What was received is a reply, another command, or the end of the connection. -/
theorem iteration_readable (distinct : cmdEchoCs ||| replyBit ≠ peerClosed)
    (connected : s.clientSocket ≠ -1) (readable : e.select ≠ 0)
    (h : iteration cmdEchoCs s e = some t) : Keeps s e t := by
  have condition : ReconnectsReplied s e ↔
      (e.isSet = true → e.loses = true → s.gotit = true) := by
    unfold ReconnectsReplied
    rw [if_neg readable]
  unfold iteration at h
  rw [if_neg readable] at h
  split at h
  · rename_i isSet
    split at h
    · cases h
    rename_i ret u received
    obtain ⟨⟨gotit, echoed⟩, socket, replied⟩ := recvAnotherCommand_spec distinct received
    by_cases reply : ret = 0
    · rw [replied reply, if_neg Bool.false_ne_true] at socket
      rw [if_pos reply] at h
      cases h
      refine ⟨socket ▸ connected, fun _ => iff_of_true (Or.inl rfl) (condition.mpr ?_)⟩
      exact fun _ loses => absurd ((replied reply).symm.trans loses) Bool.false_ne_true
    · rw [if_neg reply] at h
      cases ended : e.loses with
      | true =>
          -- the new connection is silent, so an earlier reply has to do
          rw [ended, if_pos rfl] at socket
          obtain ⟨made, same, silent⟩ := connect2Appl_closed socket h
          refine ⟨made, fun _ => ?_⟩
          rw [condition]
          unfold HeartbeatKept
          rw [same, silent, gotit]
          constructor
          · rintro (replied | echoed)
            · exact fun _ _ => replied
            · exact absurd echoed Bool.false_ne_true
          · intro replied
            exact Or.inl (replied isSet ended)
      | false =>
          rw [ended, if_neg Bool.false_ne_true] at socket
          have connected : u.clientSocket ≠ -1 := socket ▸ connected
          cases (connect2Appl_open e.createConnection connected).symm.trans h
          refine ⟨connected, fun kept => iff_of_true ?_ (condition.mpr fun _ loses => ?_)⟩
          · unfold HeartbeatKept
            rw [gotit, echoed]
            exact kept
          · exact absurd (ended.symm.trans loses) Bool.false_ne_true
  · rename_i notSet
    cases h
    exact ⟨connected, fun kept => iff_of_true kept (condition.mpr fun set => absurd set notSet)⟩

theorem iteration_keeps (distinct : cmdEchoCs ||| replyBit ≠ peerClosed)
    (connected : s.clientSocket ≠ -1) (h : iteration cmdEchoCs s e = some t) :
    Keeps s e t := by
  by_cases timeout : e.select = 0
  · cases gotit : s.gotit with
    | true => exact iteration_replied connected timeout gotit h
    | false => exact iteration_silent connected timeout gotit h
  · exact iteration_readable distinct connected timeout h

end Iteration

/-! ## Whole runs -/

theorem heartbeatKept_run {cmdEchoCs : U8} (distinct : cmdEchoCs ||| replyBit ≠ peerClosed)
    {s : Monitor} (connected : s.clientSocket ≠ -1) (kept : HeartbeatKept s)
    (run : List Answers) :
    Throughout (iteration cmdEchoCs) HeartbeatKept s run ↔
      Meets (iteration cmdEchoCs) ReconnectsReplied s run := by
  refine throughout_iff_meets (I := fun s => s.clientSocket ≠ -1 ∧ HeartbeatKept s)
    (fun _ h => h.2) ?_ ?_ ⟨connected, kept⟩
  · rintro s e t ⟨connected, kept⟩ ok taken
    have keeps := iteration_keeps distinct connected taken
    exact ⟨keeps.1, (keeps.2 kept).mpr ok⟩
  · rintro s e t ⟨connected, kept⟩ taken after
    exact ((iteration_keeps distinct connected taken).2 kept).mp after

/-- **The heartbeat.**  From a start of the monitor on, every iteration begins with a reply
or with an echo sent on the open connection, exactly if the first echo is sent and no
iteration reconnects without a reply. -/
theorem heartbeatKept_iff {cmdEchoCs : U8} (distinct : cmdEchoCs ||| replyBit ≠ peerClosed)
    {createConnection : List ℤ} {ss : Sends} {s : Monitor}
    (started : start cmdEchoCs createConnection ss = some s) (run : List Answers) :
    Throughout (iteration cmdEchoCs) HeartbeatKept s run ↔
      ss.Succeed ∧ Meets (iteration cmdEchoCs) ReconnectsReplied s run := by
  obtain ⟨u, connects, rfl⟩ := Option.map_eq_some_iff.mp started
  obtain ⟨connected, waiting, silent⟩ := connect2Appl_closed rfl connects
  have first : HeartbeatKept (sendAnotherCommand cmdEchoCs ss u).2 ↔ ss.Succeed := by
    show u.gotit = true ∨ (u.echoed || decide (sendCmd (echoCmd cmdEchoCs cmdTag) ss = 0)) = true
      ↔ _
    rw [waiting, silent, Bool.false_or, decide_eq_true_iff, sendCmd_echo]
    exact or_iff_right Bool.false_ne_true
  have connected : (sendAnotherCommand cmdEchoCs ss u).2.clientSocket ≠ -1 := connected
  constructor
  · intro all
    have kept := all.head
    exact ⟨first.mp kept, (heartbeatKept_run distinct connected kept run).mp all⟩
  · rintro ⟨sent, meets⟩
    exact (heartbeatKept_run distinct connected (first.mpr sent) run).mpr meets

/-! ## Two runs -/

/-- What arrives when the application answers an echo. -/
def echoReply (cmdEchoCs : U8) : Sock :=
  { segs := [csMarker :: (echoCmd (cmdEchoCs ||| replyBit) cmdTag).bytes] }

/-- A reply, an echo, three timeouts, and a reply before the application closes the
connection; `CMD_ECHO_CS` is 0x0f here. -/
theorem heartbeatKept_sample :
    ∃ s, start 0x0f [-1, 7] {} = some s ∧
      Throughout (iteration 0x0f) HeartbeatKept s
        [{ select := 1, sock := echoReply 0x0f, fuel := 2 }, { select := 0 }, { select := 0 },
         { select := 0 }, { select := 0 }, { select := 1, sock := echoReply 0x0f, fuel := 2 },
         { select := 1, fuel := 1, createConnection := [-1, 8] }, { select := 0 }] :=
  have started : start 0x0f [-1, 7] {} = some _ := rfl
  ⟨_, started, (heartbeatKept_iff (by decide) started _).mpr (by decide +kernel)⟩

/-- The application closes the connection before it replies.  The monitor connects again,
sends nothing, and waits. -/
theorem reconnects_without_echo :
    (start 0x0f [7] {}).any fun s =>
      ¬ Throughout (iteration 0x0f) HeartbeatKept s
        [{ select := 1, fuel := 1, createConnection := [8] }] := by
  decide +kernel

end Cjunk.Watchdog
