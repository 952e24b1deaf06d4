import Cjunk.Plx.BoardReset
import Cjunk.Plx.Ioctl

/-!
# The PLX 8311 driver: what `ioctl` copies back

A command that both passes a structure in and gets it back answers in a field of it:
`Register.data`, or `Container.array` for the orders that fill it.  What is outside the
field should come back as it was sent.

`echoed_iff` is the result: for `ORDER_HW`, which runs on into `DRIVER_VERSION`, it does
not.
-/

namespace Cjunk.Plx.Ioctl

open Words Routine Device

/-- A command whose argument is copied in and out. -/
def Command.ReadWrite (c : Command) : Prop := iocRead c.code = true ∧ iocWrite c.code = true

instance (c : Command) : Decidable c.ReadWrite :=
  inferInstanceAs (Decidable (iocRead c.code = true ∧ iocWrite c.code = true))

/-- The orders of the inner switch. -/
def ValidOrder (number : U32) : Prop := number.toNat ∈ [1, 2, 3, 4, 5, 9, 10, 11, 12, 13]

/-- The orders that fill `container->array`. -/
def FillsArray (number : U32) : Prop := number.toNat = 1 ∨ number.toNat = 3

/-- Byte `i` is in the field that the command answers in, for a request with these
contents. -/
def InResult (c : Command) (user : ℕ → U8) (i : ℕ) : Prop :=
  if c = .orderHw then FillsArray (getWord user 0) ∧ 8 ≤ i else 4 ≤ i ∧ i < 8

/-- Whatever state the driver is in and whatever the kernel answers: what is copied back for
a request with these contents is the request, except in the field of the result. -/
def Echoed (c : Command) (user : ℕ → U8) : Prop :=
  ∀ req s reply t, c.ReadWrite → req.cmd = c.code → req.user = user →
    plxDrvIoctl req s = some (reply, t) →
      ∀ i b, reply.copied[i]? = some b → ¬ InResult c user i → b = user i

/-! ## What a command leaves in the buffer -/

section

variable {i : ℕ}

/-- Byte `i` of the buffer. -/
def byteAt (i : ℕ) (s : State) : U8 := s.localbuf i

theorem onDevice_keeps {α : Type} (m : Routine Device α) : Keeps (byteAt i) (onDevice m) :=
  .onPart State.device (fun d s => { s with device := d }) (fun _ _ => rfl) m

theorem store_keeps {j : ℕ} (outside : ¬ (j ≤ i ∧ i < j + 4)) (value : U32) :
    Keeps (byteAt i) (store j value) :=
  .modify fun s => putWord_of_outside outside value s.localbuf

/-- An order writes to the array alone. -/
theorem order_keeps (env : ResetEnv) (number : U32) (outside : FillsArray number → i < 8) :
    Keeps (byteAt i) (order env number) := by
  unfold order
  split
  case h_1 one =>
    have below : i < 8 := outside (.inl one)
    refine Keeps.bind (.forM (fun k => ?_) _) fun _ => .pure _
    refine (Keeps.asks _).bind fun startAddr => ?_
    exact (onDevice_keeps _).bind fun tmp => store_keeps (by omega) tmp
  case h_3 three =>
    have below : i < 8 := outside (.inr three)
    refine (onDevice_keeps _).bind fun values => ?_
    refine Keeps.bind (.forM (fun value => store_keeps (by omega) _) _) fun _ => ?_
    exact (onDevice_keeps _).bind fun _ => .pure _
  case h_4 => exact .pure _
  case h_5 => exact .pure _
  case h_11 => exact .pure _
  case h_9 => exact (onDevice_keeps _).bind fun _ => (onDevice_keeps _).bind fun _ => .pure _
  case h_10 => exact (onDevice_keeps _).bind fun _ => (onDevice_keeps _).bind fun _ => .pure _
  all_goals exact (onDevice_keeps _).bind fun _ => .pure _

/-- A read of a register writes to `data` alone. -/
theorem perform_keeps (env : ResetEnv) {c : Command} (both : c.ReadWrite) (reg : c ≠ .orderHw)
    (outside : ¬ (4 ≤ i ∧ i < 8)) : Keeps (byteAt i) (perform env c) := by
  have readReg : ∀ read : U32 → Routine Device U32, Keeps (byteAt i) (do
      let addr ← operand 0
      let data ← orFail (-eIo) (onDevice (read addr))
      setRegData data) := fun read =>
    (Keeps.asks _).bind fun addr =>
      ((onDevice_keeps _).orFail _).bind fun data => store_keeps outside data
  cases c with
  | readPlxReg => exact readReg _
  | readFpgaReg => exact readReg _
  | readCommandLinkReg => exact readReg _
  | readConfigReg =>
      refine (Keeps.asks _).bind fun addr => (Keeps.asks _).bind fun old => ?_
      exact (onDevice_keeps _).bind fun data => store_keeps outside data
  | orderHw => exact absurd rfl reg
  | _ => exact absurd both (by decide)

end

/-! ## `ORDER_HW` -/

/-- What is left by `ORDER_HW`, when it succeeds. -/
theorem perform_orderHw {env : ResetEnv} {s t : State}
    (run : perform env .orderHw s = some (.ok (), t)) :
    ∃ retval u, order env (getWord s.localbuf 0) s = some (.ok retval, u) ∧ 0 ≤ retval ∧
      t.localbuf = putWord 4 deviceDriverVersion u.localbuf := by
  obtain ⟨number, u₀, first, rest⟩ := bind_ok.mp run
  cases first
  obtain ⟨retval, u, ordered, rest⟩ := bind_ok.mp rest
  obtain ⟨a, v, stored, rest⟩ := bind_ok.mp rest
  cases stored
  unfold failIfNegative at rest
  split_ifs at rest with negative
  · cases rest
  · cases rest
    exact ⟨retval, u, ordered, not_lt.mp negative, rfl⟩

theorem perform_orderHw_of_order {env : ResetEnv} {s u : State} {retval : ℤ} (ok : 0 ≤ retval)
    (ordered : order env (getWord s.localbuf 0) s = some (.ok retval, u)) :
    perform env .orderHw s =
      some (.ok (), { u with localbuf := putWord 4 deviceDriverVersion u.localbuf }) := by
  refine bind_ok.mpr ⟨_, s, rfl, bind_ok.mpr ⟨retval, u, ordered, bind_ok.mpr ⟨(), _, rfl, ?_⟩⟩⟩
  unfold failIfNegative
  rw [if_neg (not_lt.mpr ok)]
  rfl

/-- Every valid order but the reset of the sequence counters succeeds from any state. -/
theorem order_returns {env : ResetEnv} {number : U32} (valid : ValidOrder number)
    (other : number.toNat ≠ 12) : Returns 0 (order env number) := by
  have onDevice_returns : ∀ {m : Routine Device Unit}, Returns () m → Returns () (onDevice m) :=
    fun h => h.onPart _ _
  unfold order
  split
  · exact (Returns.forM (fun i s => ⟨_, rfl⟩) _).bind (.pure 0)
  · have reset : Returns () (plxBoardReset env) := fun s => ⟨_, plxBoardReset_eq env s⟩
    exact (onDevice_returns reset).bind (.pure 0)
  · refine Returns.after (fun s => ⟨_, _, rfl⟩) fun values => ?_
    refine (Returns.forM (fun value => .modify _) _).bind ?_
    exact (onDevice_returns (.modify _)).bind (.pure 0)
  · exact .pure 0
  · exact .pure 0
  · exact (onDevice_returns (.modify _)).bind (.pure 0)
  · exact (onDevice_returns (.modify _)).bind (.pure 0)
  · exact (onDevice_returns (.modify _)).bind (.pure 0)
  · contradiction
  · exact fun s => ⟨_, rfl⟩
  · simp_all [ValidOrder]

theorem order_of_not_valid {number : U32} (invalid : ¬ ValidOrder number) (env : ResetEnv) :
    order env number = Routine.pure (-eFault) := by
  simp only [ValidOrder, List.mem_cons, List.not_mem_nil, or_false, not_or] at invalid
  unfold order
  split
  case h_11 => rfl
  all_goals simp_all

/-- A valid order succeeds, on an idle link. -/
theorem order_succeeds {number : U32} (valid : ValidOrder number) (buf : ℕ → U8) :
    ∃ t, order {} number ⟨{ link := idleLink }, buf⟩ = some (.ok 0, t) := by
  by_cases reset : number.toNat = 12
  · unfold order
    rw [reset]
    exact ⟨_, rfl⟩
  · exact order_returns valid reset _

/-! ## The result -/

/-- Bytes are copied back by a call that succeeds, and they are those of the buffer. -/
theorem copied_of_run {req : Request} {c : Command} {s t : State} {reply : Reply} {i : ℕ} {b : U8}
    (cmd : req.cmd = c.code) (write : iocWrite c.code = true)
    (run : plxDrvIoctl req s = some (reply, t)) (copied : reply.copied[i]? = some b) :
    iocSize req.cmd ≤ req.readable ∧ i < iocSize req.cmd ∧ b = t.localbuf i ∧
      perform req.reset c { s with localbuf := copiedIn req s.localbuf } = some (.ok (), t) := by
  unfold plxDrvIoctl at run
  split_ifs at run with number access
  · cases run
    cases copied
  · cases run
    cases copied
  obtain ⟨⟨r, u⟩, ran, answered⟩ := Option.map_eq_some_iff.mp run
  cases r with
  | error e =>
      cases answered
      cases copied
  | ok a =>
      cases answered
      rw [body_of_write cmd write] at ran
      split_ifs at ran with short
      · cases ran
      rw [copyToUser_copied] at copied
      split_ifs at copied with fits
      · obtain ⟨j, found, same⟩ : ∃ j, (List.range (min req.writable (iocSize req.cmd)))[i]? =
            some j ∧ t.localbuf j = b := by simpa using copied
        obtain ⟨within, rfl⟩ := List.getElem?_eq_some_iff.mp found
        rw [List.length_range] at within
        rw [List.getElem_range] at same
        exact ⟨not_lt.mp short, by omega, same.symm, ran⟩
      · cases copied

/-- `ORDER_HW` comes back with the version for `start_addr`. -/
theorem startAddr_of_orderHw {env : ResetEnv} {s t : State} {k : ℕ} (below : k < 4)
    (run : perform env .orderHw s = some (.ok (), t)) :
    t.localbuf (4 + k) = (deviceDriverVersion >>> (8 * k)).setWidth 8 := by
  obtain ⟨retval, u, -, -, buffer⟩ := perform_orderHw run
  have word : getWord t.localbuf 4 = deviceDriverVersion := by
    rw [buffer, getWord_putWord]
  rw [← byte_of_getWord t.localbuf 4 below, word]

/-- A byte that `ORDER_HW` does not answer in, but for those of `start_addr`. -/
theorem orderHw_keeps {env : ResetEnv} {s t : State} {i : ℕ}
    (outside : FillsArray (getWord s.localbuf 0) → i < 8) (apart : ¬ (4 ≤ i ∧ i < 8))
    (run : perform env .orderHw s = some (.ok (), t)) : t.localbuf i = s.localbuf i := by
  obtain ⟨retval, u, ordered, -, buffer⟩ := perform_orderHw run
  rw [buffer, putWord_of_outside apart]
  exact order_keeps env _ outside _ _ _ ordered

/-- `ORDER_HW` with these contents. -/
def orderRequest (user : ℕ → U8) : Request := { cmd := Command.orderHw.code, user := user }

theorem iocSize_orderRequest (user : ℕ → U8) : iocSize (orderRequest user).cmd = 72 := by
  show iocSize Command.orderHw.code = 72
  decide

/-- A valid order that the driver carries out, and copies back. -/
theorem orderHw_copied {user : ℕ → U8} (valid : ValidOrder (getWord user 0)) : ∃ reply t,
    plxDrvIoctl (orderRequest user) (loaded { link := idleLink }) = some (reply, t) ∧
      getWord t.localbuf 4 = deviceDriverVersion ∧
        ∀ i < 72, reply.copied[i]? = some (t.localbuf i) := by
  have size := iocSize_orderRequest user
  have readable : iocSize (orderRequest user).cmd ≤ (orderRequest user).readable :=
    size.le.trans (show 72 ≤ iocBufsize by decide)
  have number : getWord (copiedIn (orderRequest user) fun _ => 0) 0 = getWord user 0 :=
    getWord_copiedIn readable (by omega) _
  obtain ⟨u, ordered⟩ := order_succeeds valid (copiedIn (orderRequest user) fun _ => 0)
  rw [← number] at ordered
  have write : iocWrite Command.orderHw.code = true := by decide
  have read : iocRead (orderRequest user).cmd = true := by
    show iocRead Command.orderHw.code = true
    decide
  have ran : perform {} .orderHw ⟨{ link := idleLink }, copiedIn (orderRequest user) fun _ => 0⟩ =
      some (.ok (), _) := perform_orderHw_of_order le_rfl ordered
  have run : plxDrvIoctl (orderRequest user) (loaded { link := idleLink }) =
      some (copyToUser (orderRequest user) _, _) :=
    plxDrvIoctl_of_perform rfl write rfl readable ran
  refine ⟨_, _, run, getWord_putWord 4 _ _, fun i below => ?_⟩
  have all : min (orderRequest user).writable (iocSize (orderRequest user).cmd) = 72 := by
    rw [size]
    rfl
  rw [copyToUser_copied, if_pos ⟨read, readable⟩, all, List.getElem?_map,
    List.getElem?_range below]
  rfl

/-- A valid order is echoed only with the version for `start_addr`. -/
theorem version_of_echoed {user : ℕ → U8} (valid : ValidOrder (getWord user 0))
    (echoed : Echoed .orderHw user) : getWord user 4 = deviceDriverVersion := by
  obtain ⟨reply, t, run, version, copied⟩ := orderHw_copied valid
  have byte : ∀ k < 4, user (4 + k) = t.localbuf (4 + k) := by
    intro k below
    have outside : ¬ InResult .orderHw user (4 + k) := by
      unfold InResult
      rw [if_pos rfl]
      omega
    exact (echoed _ _ _ _ (by decide) rfl rfl run _ _ (copied _ (by omega)) outside).symm
  have first : user 4 = t.localbuf 4 := byte 0 (by omega)
  have word : getWord user 4 = getWord t.localbuf 4 := by
    unfold getWord
    rw [byte 3 (by omega), byte 2 (by omega), byte 1 (by omega), first]
  exact word.trans version

/-- With that version every byte of an order comes back, outside the result. -/
theorem orderHw_echoes {env : ResetEnv} {s t : State} {user : ℕ → U8} {i : ℕ}
    (number : getWord s.localbuf 0 = getWord user 0) (found : s.localbuf i = user i)
    (ok : ¬ ValidOrder (getWord user 0) ∨ getWord user 4 = deviceDriverVersion)
    (outside : ¬ InResult .orderHw user i)
    (run : perform env .orderHw s = some (.ok (), t)) : t.localbuf i = user i := by
  obtain invalid | version := ok
  · obtain ⟨retval, u, ordered, positive, -⟩ := perform_orderHw run
    rw [← number] at invalid
    rw [order_of_not_valid invalid] at ordered
    cases ordered
    exact absurd positive (by decide)
  · by_cases field : 4 ≤ i ∧ i < 8
    · obtain ⟨k, rfl⟩ := Nat.exists_eq_add_of_le field.1
      have below : k < 4 := by omega
      rw [startAddr_of_orderHw below run, ← version, byte_of_getWord user 4 below]
    · have apart : FillsArray (getWord s.localbuf 0) → i < 8 := by
        intro fills
        unfold InResult at outside
        rw [if_pos rfl, ← number] at outside
        exact not_le.mp fun high => outside ⟨fills, high⟩
      exact (orderHw_keeps apart field run).trans found

/-- **What comes back.**  The request comes back as it was sent, outside the result, exactly
if it is no valid order, or the `start_addr` it passes is the driver's version. -/
theorem echoed_iff (c : Command) (user : ℕ → U8) :
    Echoed c user ↔ c ≠ .orderHw ∨ ¬ ValidOrder (getWord user 0) ∨
      getWord user 4 = deviceDriverVersion := by
  constructor
  · intro echoed
    by_contra fails
    obtain ⟨rfl, valid, differs⟩ : c = .orderHw ∧ ValidOrder (getWord user 0) ∧
        getWord user 4 ≠ deviceDriverVersion := by
      simpa only [not_or, not_not] using fails
    exact differs (version_of_echoed valid echoed)
  · intro ok req s reply t both cmd contents run i b copied outside
    obtain ⟨readable, within, same, ran⟩ := copied_of_run cmd both.2 run copied
    have found : copiedIn req s.localbuf i = user i := by
      rw [copiedIn_of_readable readable within, contents]
    rw [same]
    by_cases order : c = .orderHw
    · subst order
      have number : getWord (copiedIn req s.localbuf) 0 = getWord user 0 := by
        rw [getWord_copiedIn readable (by rw [cmd]; decide), contents]
      have valid := ok.resolve_left (not_not.mpr rfl)
      exact orderHw_echoes (s := ⟨s.device, copiedIn req s.localbuf⟩) number found valid outside ran
    · unfold InResult at outside
      rw [if_neg order] at outside
      exact (perform_keeps req.reset both order outside _ _ _ ran).trans found

/-- An order that the driver ignores comes back with another `start_addr`. -/
theorem order_not_echoed : ¬ Echoed .orderHw (putWord 0 4 fun _ => 0) := by
  intro echoed
  have number : getWord (putWord 0 4 fun _ => 0) 0 = 4 := getWord_putWord 0 4 _
  have valid : ValidOrder (getWord (putWord 0 4 fun _ => 0) 0) := by
    rw [number]
    simp [ValidOrder]
  obtain ⟨reply, t, run, version, copied⟩ := orderHw_copied valid
  have outside : ¬ InResult .orderHw (putWord 0 4 fun _ => 0) 4 := by
    unfold InResult
    rw [if_pos rfl]
    omega
  have sent_back : t.localbuf 4 = 0 :=
    echoed _ _ _ _ (by decide) rfl rfl run 4 _ (copied 4 (by decide)) outside
  have answered : (deviceDriverVersion >>> (8 * 0)).setWidth 8 = t.localbuf 4 := by
    rw [← version]
    exact byte_of_getWord t.localbuf 4 (by decide)
  rw [sent_back] at answered
  exact absurd answered (by decide)

end Cjunk.Plx.Ioctl
