import Cjunk.Plx.Ioctl

/-!
# The PLX 8311 driver: register commands on the link

`WRITE_COMMAND_LINK_REG` and `READ_COMMAND_LINK_REG` in the `FASTER_CL` build, from the
words a user passes to the word that is sent.  On the link the first byte of a command
has the kind in its two highest bits and the address below them; `plx_send_SPI` lets
eight bits of the address through.

`unmistakable_iff` is the result: which commands the receiver takes for what they are.
-/

namespace Cjunk.Plx.Ioctl

open Words Routine Link Device

/-- What a user asks for. -/
inductive RegCommand where
  | write (adr data : U32)
  | read (adr : U32)
  deriving DecidableEq

namespace RegCommand

/-- The command of the switch. -/
def command : RegCommand → Command
  | write _ _ => .writeCommandLinkReg
  | read _ => .readCommandLinkReg

/-- The operands of the command are in the buffer. -/
def OperandsIn (buf : ℕ → U8) : RegCommand → Prop
  | write adr data => getWord buf 0 = adr ∧ getWord buf 4 = data
  | read adr => getWord buf 0 = adr

/-- A call that passes the command in. -/
def PassedBy (req : Request) (c : RegCommand) : Prop :=
  req.cmd = c.command.code ∧ c.OperandsIn req.user

/-- The word that `plx_send_SPI` sends. -/
def word : RegCommand → U32
  | write adr data => (0x02#32 <<< 24) ||| ((0xff &&& data) <<< 8) ||| xlWc ||| (0xff &&& adr)
  | read adr => (0x03#32 <<< 24) ||| xlRc ||| (0xff &&& adr)

/-- The receiver's side: the first byte is the lowest, its two highest bits are 10 for a
write and 11 for a read, the others are the address; the second byte of a write is the
data. -/
def decode (word : U32) : Option RegCommand :=
  let first := word &&& 0xff
  if first >>> 6 = 2 then some (write (first &&& 0x3f) (word >>> 8 &&& 0xff))
  else if first >>> 6 = 3 then some (read (first &&& 0x3f))
  else none

/-- The address has six bits, and the data of a write eight. -/
def Fits : RegCommand → Prop
  | write adr data => adr < 64 ∧ data < 256
  | read adr => adr < 64

instance : DecidablePred Fits := fun c =>
  match c with
  | write adr data => inferInstanceAs (Decidable (adr < 64 ∧ data < 256))
  | read adr => inferInstanceAs (Decidable (adr < 64))

end RegCommand

open RegCommand

/-- The words sent over the link so far, with the registers they were written to. -/
def sent (s : State) : List (ℕ × U32) := s.device.link.written

/-- Whatever state the driver is in: a call that passes the command in returns an error and
sends nothing, or it sends one word and the receiver takes it for this command. -/
def Unmistakable (c : RegCommand) : Prop :=
  ∀ req s reply t, c.PassedBy req → plxDrvIoctl req s = some (reply, t) →
    (reply.retval < 0 ∧ sent t = sent s) ∨
      ∃ word, sent t = sent s ++ [(spimLwData, word)] ∧ decode word = some c

/-! ## The word -/

/-- The low bits of a word are a number below the next power of two. -/
theorem and_lt {word mask bound : U32} (h : mask < bound) : word &&& mask < bound := by
  have : (word &&& mask).toNat ≤ mask.toNat := by
    rw [BitVec.toNat_and]
    exact Nat.and_le_right
  exact lt_of_le_of_lt this h

/-- What the receiver finds is in range. -/
theorem fits_of_decode {word : U32} {c : RegCommand} (h : decode word = some c) : c.Fits := by
  unfold decode at h
  dsimp only at h
  split_ifs at h
  · cases h
    exact ⟨and_lt (by decide), and_lt (by decide)⟩
  · cases h
    exact and_lt (by decide)

/-- A number below a power of two has no higher bits. -/
theorem getElem_of_lt {n i : ℕ} {x : U32} (small : x.toNat < 2 ^ n) (within : i < 32)
    (high : n ≤ i) : x[i] = false := by
  rw [← BitVec.getLsbD_eq_getElem, BitVec.getLsbD]
  exact Nat.testBit_lt_two_pow (small.trans_le (Nat.pow_le_pow_right (by decide) high))

theorem decode_word {c : RegCommand} (fits : c.Fits) : decode c.word = some c := by
  cases c with
  | write adr data =>
      have adrBits : ∀ i (within : i < 32), 6 ≤ i → adr[i] = false :=
        fun i => getElem_of_lt fits.1
      have dataBits : ∀ i (within : i < 32), 8 ≤ i → data[i] = false :=
        fun i => getElem_of_lt fits.2
      have kind : ((write adr data).word &&& 0xff) >>> 6 = 2 := by
        ext i within
        interval_cases i <;> simp [word, xlWc, adrBits]
      have address : (write adr data).word &&& 0xff &&& 0x3f = adr := by
        ext i within
        interval_cases i <;> simp [word, xlWc, adrBits]
      have value : (write adr data).word >>> 8 &&& 0xff = data := by
        ext i within
        interval_cases i <;> simp [word, xlWc, dataBits]
      unfold decode
      dsimp only
      rw [if_pos kind, address, value]
  | read adr =>
      have adrBits : ∀ i (within : i < 32), 6 ≤ i → adr[i] = false :=
        fun i => getElem_of_lt fits
      have kind : ((read adr).word &&& 0xff) >>> 6 = 3 := by
        ext i within
        interval_cases i <;> simp [word, xlRc, adrBits]
      have address : (read adr).word &&& 0xff &&& 0x3f = adr := by
        ext i within
        interval_cases i <;> simp [word, xlRc, adrBits]
      unfold decode
      dsimp only
      rw [kind, address]
      rfl

theorem decode_word_iff (c : RegCommand) : decode c.word = some c ↔ c.Fits :=
  ⟨fits_of_decode, decode_word⟩

/-- Commands in range are told apart by their words. -/
theorem word_injOn : Set.InjOn word {c | c.Fits} := by
  intro c fits c' fits' same
  have : some c = some c' := by
    rw [← decode_word fits, ← decode_word fits', same]
  exact Option.some.inj this

/-! ## What is sent -/

/-- A wait sends nothing. -/
theorem waitFor_tries (done : U32 → Bool) {expire : Link → Link}
    (quiet : ∀ s, (expire s).written = s.written) :
    Tries Link.written (waitFor done expire) [] := by
  intro s r t run
  rw [List.append_nil]
  unfold waitFor at run
  split at run
  · cases run
  split at run
  · cases run
    exact ⟨by simp, .inl rfl⟩
  · split at run <;> cases run
    · exact ⟨by simp, .inl rfl⟩
    · exact ⟨by simp, .inl (quiet _)⟩

theorem regWrite_tries (offset : ℕ) (value : U32) :
    Tries Link.written (regWrite offset value) [(offset, value)] :=
  .modify fun _ => rfl

/-- A register write waits until the link is idle, and sends its word. -/
theorem plxWriteReg_tries (adr data : U32) : Tries Link.written (FasterCl.plxWriteReg adr data)
    [(spimLwData, (write adr data).word)] := by
  have idle : Tries Link.written plxChkTbusy [] := waitFor_tries _ fun _ => rfl
  refine (idle.orFail (by decide)).after fun _ => ?_
  exact (regWrite_tries _ _).orFail (by decide)

/-- A register read waits, sends its word, and waits for the answer. -/
theorem plxReadReg_tries (adr : U32) : Tries Link.written (FasterCl.plxReadReg adr)
    [(spimLwData, (read adr).word)] := by
  have idle : Tries Link.written plxChkTbusy [] := waitFor_tries _ fun _ => rfl
  have answered : Tries Link.written plxChkRsd [] := waitFor_tries _ fun _ => rfl
  have received : Tries Link.written readData [] := by
    rintro s r t ⟨⟩
    exact ⟨by simp, .inl (List.append_nil _).symm⟩
  refine (idle.orFail (by decide)).after fun _ => ?_
  refine ((regWrite_tries _ _).orFail (by decide)).before fun _ => ?_
  exact (answered.orFail (by decide)).after fun _ => received

theorem onLink_tries {α : Type} {m : Routine Link α} {xs : List (ℕ × U32)}
    (h : Tries Link.written m xs) : Tries sent (orFail (-eIo) (onDevice (onLink m))) xs := by
  have device : Tries (fun d : Device => d.link.written) (onLink m) xs :=
    .onPart (fun _ => rfl) (fun _ _ => rfl) h
  exact .orFail (by decide) (.onPart (fun _ => rfl) (fun _ _ => rfl) device)

/-- The switch, for a command with its operands in the buffer. -/
theorem perform_tries (env : ResetEnv) {c : RegCommand} {s t : State} {r : Except ℤ Unit}
    (operands : c.OperandsIn s.localbuf) (run : perform env c.command s = some (r, t)) :
    (∀ e, r = .error e → e < 0) ∧
      (sent t = sent s ++ [(spimLwData, c.word)] ∨ (∃ e, r = .error e) ∧ sent t = sent s) := by
  cases c with
  | write adr data =>
      obtain ⟨rfl, rfl⟩ := operands
      exact onLink_tries (plxWriteReg_tries _ _) s r t run
  | read adr =>
      cases operands
      have stored : ∀ data, Tries sent (setRegData data) [] :=
        fun _ => .modify fun _ => (List.append_nil _).symm
      exact (onLink_tries (plxReadReg_tries _)).before stored s r t run

namespace RegCommand

theorem iocSize_command (c : RegCommand) : iocSize c.command.code = 8 := by
  cases c <;> simp only [command] <;> decide

theorem iocWrite_command (c : RegCommand) : iocWrite c.command.code = true := by
  cases c <;> simp only [command] <;> decide

/-- The operands are copied in. -/
theorem OperandsIn.copiedIn {c : RegCommand} {req : Request}
    (operands : c.OperandsIn req.user) (cmd : req.cmd = c.command.code)
    (readable : iocSize req.cmd ≤ req.readable) (buf : ℕ → U8) :
    c.OperandsIn (copiedIn req buf) := by
  have size : iocSize req.cmd = 8 := by
    rw [cmd, c.iocSize_command]
  cases c with
  | write adr data =>
      exact ⟨(getWord_copiedIn readable (by omega) buf).trans operands.1,
        (getWord_copiedIn readable (by omega) buf).trans operands.2⟩
  | read adr => exact (getWord_copiedIn readable (by omega) buf).trans operands

end RegCommand

/-- The whole call. -/
theorem call_tries {c : RegCommand} {req : Request} {s t : State} {reply : Reply}
    (passed : c.PassedBy req) (run : plxDrvIoctl req s = some (reply, t)) :
    (reply.retval < 0 ∧ sent t = sent s) ∨ sent t = sent s ++ [(spimLwData, c.word)] := by
  obtain ⟨cmd, operands⟩ := passed
  unfold plxDrvIoctl at run
  split_ifs at run with number access
  · cases run
    exact .inl ⟨by decide, rfl⟩
  · cases run
    exact .inl ⟨by decide, rfl⟩
  obtain ⟨⟨r, u⟩, ran, answered⟩ := Option.map_eq_some_iff.mp run
  have outcome : (∀ e, r = .error e → e < 0) ∧
      (sent u = sent s ++ [(spimLwData, c.word)] ∨ (∃ e, r = .error e) ∧ sent u = sent s) := by
    rw [body_of_write cmd c.iocWrite_command] at ran
    split_ifs at ran with short
    · cases ran
      exact ⟨by rintro e ⟨⟩; decide, .inr ⟨⟨_, rfl⟩, rfl⟩⟩
    · have found : c.OperandsIn ({ s with localbuf := copiedIn req s.localbuf } : State).localbuf :=
        operands.copiedIn cmd (by omega) s.localbuf
      have outcome := perform_tries req.reset found ran
      exact outcome
  cases r with
  | error e =>
      cases answered
      obtain ⟨negative, appended | ⟨-, same⟩⟩ := outcome
      · exact .inr appended
      · exact .inl ⟨negative e rfl, same⟩
  | ok a =>
      cases answered
      obtain ⟨-, appended | ⟨⟨e, error⟩, -⟩⟩ := outcome
      · exact .inr appended
      · cases error

/-! ## The result -/

/-- A buffer with the operands. -/
def RegCommand.buffer : RegCommand → ℕ → U8
  | write adr data => putWord 4 data (putWord 0 adr fun _ => 0)
  | read adr => putWord 0 adr fun _ => 0

def RegCommand.request (c : RegCommand) : Request := { cmd := c.command.code, user := c.buffer }

theorem passedBy_request (c : RegCommand) : c.PassedBy c.request := by
  refine ⟨rfl, ?_⟩
  cases c with
  | write adr data =>
      refine ⟨?_, getWord_putWord 4 data _⟩
      show getWord (putWord 4 data (putWord 0 adr fun _ => 0)) 0 = adr
      rw [getWord_putWord_of_disjoint (by omega), getWord_putWord]
  | read adr => exact getWord_putWord 0 adr _

/-- On an idle link the call succeeds. -/
theorem request_succeeds (c : RegCommand) : ∃ reply t,
    plxDrvIoctl c.request (loaded { link := idleLink }) = some (reply, t) ∧ reply.retval = 0 := by
  have performs : ∀ buf, ∃ t,
      perform {} c.command ⟨{ link := idleLink }, buf⟩ = some (.ok (), t) := by
    intro buf
    cases c <;> exact ⟨_, rfl⟩
  have readable : iocSize c.request.cmd ≤ c.request.readable :=
    c.iocSize_command.le.trans (show 8 ≤ iocBufsize by decide)
  obtain ⟨t, performed⟩ := performs (copiedIn c.request fun _ => 0)
  refine ⟨copyToUser c.request t, t, ?_, ?_⟩
  · exact plxDrvIoctl_of_perform rfl c.iocWrite_command rfl readable performed
  · have writable : ¬ c.request.writable < iocSize c.request.cmd := not_lt.mpr readable
    unfold copyToUser
    split_ifs <;> rfl

/-- **Register commands on the wire.**  A command is taken for what it is exactly when its
address has six bits and the data of a write eight. -/
theorem unmistakable_iff (c : RegCommand) : Unmistakable c ↔ c.Fits := by
  constructor
  · intro h
    obtain ⟨reply, t, run, ok⟩ := request_succeeds c
    obtain ⟨error, -⟩ | ⟨word, one, decoded⟩ := h _ _ _ _ (passedBy_request c) run
    · omega
    · obtain ⟨error, -⟩ | two := call_tries (passedBy_request c) run
      · omega
      · have same : word = c.word := by
          rw [one] at two
          simpa using two
        exact fits_of_decode (same ▸ decoded)
  · intro fits req s reply t passed run
    exact (call_tries passed run).imp_right fun appended => ⟨c.word, appended, decode_word fits⟩

/-- A write to register 0x40 is sent as a read of register 0. -/
theorem write_sent_as_read :
    ¬ Unmistakable (.write 0x40 0) ∧ decode (RegCommand.write 0x40 0).word = some (.read 0) := by
  refine ⟨fun h => ?_, by decide⟩
  obtain ⟨reply, t, run, ok⟩ := request_succeeds (.write 0x40 0)
  obtain ⟨error, -⟩ | ⟨word, one, decoded⟩ := h _ _ _ _ (passedBy_request _) run
  · omega
  · obtain ⟨small, -⟩ := fits_of_decode decoded
    exact absurd small (by decide)

end Cjunk.Plx.Ioctl
