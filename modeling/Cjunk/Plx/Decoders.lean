import Mathlib.Algebra.Ring.Nat
import Cjunk.Lib.Printing
import Cjunk.Lib.Words

/-!
# The PLX 8311 driver: the register decoders of the proc file

`interpret_cmd`, `interpret_setup` and `interpret_status` print what the bits of a register
mean behind the text that is in the buffer of the proc file already.

A text tells what is in a register if it names each flag exactly when its bit is set, and has
behind each label the number that is in the field, where a number that is zero is left out
with its label.  `decoders_right_iff` is the result: `interpret_cmd` always tells it,
`interpret_setup` where the GD mode is zero, since the mode is shifted one place too few,
and `interpret_status` where the bits 29 to 31 are clear, since the masks for them are shifted
the wrong way and are all zero.
-/

namespace Cjunk.Plx.Proc

open Printing

/-! ## The decoders -/

/-- `%x`. -/
def hex (data : U32) : List Char := Nat.toDigits 16 data.toNat

def interpretCmd (buf : ℕ → Char) (len : ℕ) (data : U32) : Output :=
  let s : Output := ⟨buf, len⟩
  let s := if data &&& 0x1 ≠ 0 then sprintf " Finite number of frames ".toList s
    else sprintf " Infinite number of frames ".toList s
  let s := sprintfIf (data &&& 0x2 ≠ 0) " Trigger each frame ".toList s
  let s := sprintfIf (data &&& 0x4 ≠ 0) " Armed ".toList s
  let s := sprintfIf (data &&& 0x8 ≠ 0) " Delayed Trigger ".toList s
  sprintf "\n".toList s

def interpretSetup (buf : ℕ → Char) (len : ℕ) (data : U32) : Output :=
  let s : Output := ⟨buf, len⟩
  let s := sprintfIf (data &&& 0x3 = 0x0) " 3,70mV/fC ".toList s
  let s := sprintfIf (data &&& 0x3 = 0x1) " 125uV/fC ".toList s
  let s := sprintfIf (data &&& 0x3 = 0x2) " 1,25mV/fC ".toList s
  let s := sprintfIf (data &&& 0x3 = 0x3) " 36uV/fC ".toList s
  let s := sprintfIf (data &&& 0x4 ≠ 0) " INON ".toList s
  let s := sprintfIf (data &&& 0x8 ≠ 0) " TESTON ".toList s
  let s := sprintfIf (data &&& 0x60 ≠ 0)
    (" GD-mode:0x".toList ++ hex ((data &&& 0x60).sshiftRight 4)) s
  let s := sprintfIf (data &&& 0x80 ≠ 0) " A_DRESET ".toList s
  sprintf "\n".toList s

/-- The numbers are signed, so `>>` is the arithmetic shift. -/
def interpretStatus (buf : ℕ → Char) (len : ℕ) (data : U32) : Output :=
  let s : Output := ⟨buf, len⟩
  let s := sprintfIf (data &&& 0xff ≠ 0) (" Buffer Number:".toList ++ hex (data &&& 0xff)) s
  let s := sprintfIf (data &&& (0xff <<< 16) ≠ 0)
    (" Error flags:".toList ++ hex ((data &&& (0xff <<< 16)).sshiftRight 16)) s
  let s := sprintfIf (data &&& (1 : U32).sshiftRight 29 ≠ 0) " Force Interrupt ".toList s
  let s := sprintfIf (data &&& (1 : U32).sshiftRight 30 ≠ 0) " Interrupt flag ".toList s
  let s := sprintfIf (data &&& (1 : U32).sshiftRight 31 ≠ 0) "Int overrun ".toList s
  sprintf "\n".toList s

/-! ## What a text tells -/

/-- The number behind a label; zero is not printed. -/
def Tells (label : String) (text : List Char) (n : ℕ) : Prop :=
  numberBehind label.toList text = if n = 0 then none else some n

structure CmdTold (text : List Char) (data : U32) : Prop where
  finite : " Finite number of frames ".toList <:+: text ↔ data.getLsbD 0 = true
  infinite : " Infinite number of frames ".toList <:+: text ↔ data.getLsbD 0 = false
  trigger : " Trigger each frame ".toList <:+: text ↔ data.getLsbD 1 = true
  armed : " Armed ".toList <:+: text ↔ data.getLsbD 2 = true
  delayed : " Delayed Trigger ".toList <:+: text ↔ data.getLsbD 3 = true

/-- The names of the gains. -/
def gainName : BitVec 2 → String
  | 0 => " 3,70mV/fC "
  | 1 => " 125uV/fC "
  | 2 => " 1,25mV/fC "
  | 3 => " 36uV/fC "

structure SetupTold (text : List Char) (data : U32) : Prop where
  gain : ∀ gain, (gainName gain).toList <:+: text ↔ data.extractLsb' 0 2 = gain
  inon : " INON ".toList <:+: text ↔ data.getLsbD 2 = true
  teston : " TESTON ".toList <:+: text ↔ data.getLsbD 3 = true
  gdMode : Tells " GD-mode:0x" text (data.extractLsb' 5 2).toNat
  dreset : " A_DRESET ".toList <:+: text ↔ data.getLsbD 7 = true

structure StatusTold (text : List Char) (data : U32) : Prop where
  bufferNumber : Tells " Buffer Number:" text (data.extractLsb' 0 8).toNat
  errorFlags : Tells " Error flags:" text (data.extractLsb' 16 8).toNat
  forceInterrupt : " Force Interrupt ".toList <:+: text ↔ data.getLsbD 29 = true
  interruptFlag : " Interrupt flag ".toList <:+: text ↔ data.getLsbD 30 = true
  intOverrun : "Int overrun ".toList <:+: text ↔ data.getLsbD 31 = true

/-- The three decoders. -/
inductive Decoder where
  | cmd
  | setup
  | status
  deriving DecidableEq

namespace Decoder

/-- The text that a decoder has printed. -/
def text (d : Decoder) (buf : ℕ → Char) (len : ℕ) (data : U32) : List Char :=
  match d with
  | .cmd => (interpretCmd buf len data).since len
  | .setup => (interpretSetup buf len data).since len
  | .status => (interpretStatus buf len data).since len

/-- The text tells what is in the register. -/
def Told : Decoder → List Char → U32 → Prop
  | .cmd => CmdTold
  | .setup => SetupTold
  | .status => StatusTold

/-- The decoded fields: their lowest bits and their widths. -/
def fields : Decoder → List (ℕ × ℕ)
  | .cmd => [(0, 1), (1, 1), (2, 1), (3, 1)]
  | .setup => [(0, 2), (2, 1), (3, 1), (5, 2), (7, 1)]
  | .status => [(0, 8), (16, 8), (29, 1), (30, 1), (31, 1)]

/-- Both texts tell what is in the registers, and where a field differs, so do the texts. -/
structure Right (d : Decoder) (buf : ℕ → Char) (len : ℕ) (data other : U32) : Prop where
  told : d.Told (d.text buf len data) data
  told_other : d.Told (d.text buf len other) other
  apart : ∀ field ∈ d.fields,
    data.extractLsb' field.1 field.2 ≠ other.extractLsb' field.1 field.2 →
      d.text buf len data ≠ d.text buf len other

/-- The fields that the decoder gets wrong are clear. -/
def Intact : Decoder → U32 → Prop
  | .cmd, _ => True
  | .setup, data => data.extractLsb' 5 2 = 0
  | .status, data => data.extractLsb' 29 3 = 0

instance : ∀ d data, Decidable (Intact d data)
  | .cmd, _ => .isTrue trivial
  | .setup, data => inferInstanceAs (Decidable (data.extractLsb' 5 2 = 0))
  | .status, data => inferInstanceAs (Decidable (data.extractLsb' 29 3 = 0))

end Decoder

/-! ## Masks -/

section Masks

/-- The mask of the `k` bits from bit `s` on. -/
def IsMask (mask : U32) (s k : ℕ) : Prop :=
  s + k ≤ 32 ∧ ∀ i < 32, mask.getLsbD i = (decide (s ≤ i) && decide (i < s + k))

instance (mask : U32) (s k : ℕ) : Decidable (IsMask mask s k) :=
  inferInstanceAs (Decidable (_ ∧ _))

variable {mask : U32} {s k r : ℕ} {data : U32}

/-- A field that is masked out and shifted `r` places. -/
theorem masked_toNat (isMask : IsMask mask s k) (le : r ≤ s) :
    ((data &&& mask) >>> r).toNat = 2 ^ (s - r) * (data.extractLsb' s k).toNat := by
  obtain ⟨below, isMask⟩ := isMask
  refine Nat.eq_of_testBit_eq fun i => ?_
  rw [Nat.mul_comm, Nat.testBit_mul_two_pow, BitVec.testBit_toNat, BitVec.testBit_toNat,
    BitVec.getLsbD_ushiftRight, BitVec.getLsbD_and, BitVec.getLsbD_extractLsb']
  by_cases inside : r + i < 32
  · rw [isMask _ inside]
    by_cases field : s ≤ r + i ∧ r + i < s + k
    · have place : s + (i - (s - r)) = r + i := by omega
      simp [field, place, show s - r ≤ i by omega, show i - (s - r) < k by omega]
    · by_cases low : s ≤ r + i
      · simp [show ¬ r + i < s + k by omega, show ¬ i - (s - r) < k by omega]
      · simp [low, show ¬ s - r ≤ i by omega]
  · simp [BitVec.getLsbD_of_ge _ _ (Nat.le_of_not_lt inside), show ¬ i - (s - r) < k by omega]

/-- How such a field is printed. -/
theorem hex_masked (isMask : IsMask mask s k) (le : r ≤ s) (positive : mask.msb = false) :
    hex ((data &&& mask).sshiftRight r) =
      Nat.toDigits 16 (2 ^ (s - r) * (data.extractLsb' s k).toNat) := by
  have positive : (data &&& mask).msb = false := by rw [BitVec.msb_and, positive, Bool.and_false]
  rw [hex, BitVec.sshiftRight_eq_of_msb_false positive, masked_toNat isMask le]

/-- A field in its place. -/
theorem and_mask_toNat (isMask : IsMask mask s k) :
    (data &&& mask).toNat = 2 ^ s * (data.extractLsb' s k).toNat := by
  have value : ((data &&& mask) >>> 0).toNat = 2 ^ (s - 0) * (data.extractLsb' s k).toNat :=
    masked_toNat isMask (Nat.zero_le s)
  rwa [BitVec.ushiftRight_zero, Nat.sub_zero] at value

theorem and_ne_zero_iff (isMask : IsMask mask s k) :
    data &&& mask ≠ 0 ↔ decide (data.extractLsb' s k ≠ 0) = true := by
  rw [decide_eq_true_iff, not_iff_not, ← BitVec.toNat_inj, ← BitVec.toNat_inj,
    and_mask_toNat isMask]
  exact Nat.mul_eq_zero.trans (or_iff_right (Nat.two_pow_pos s).ne')

theorem and_bit_ne_zero (n : ℕ) : data &&& BitVec.twoPow 32 n ≠ 0 ↔ data.getLsbD n = true := by
  rw [BitVec.and_twoPow]
  by_cases set : data.getLsbD n = true
  · have below : n < 32 := BitVec.lt_of_getLsbD set
    simp only [set, if_true, iff_true]
    intro zero
    have := congrArg (fun x => BitVec.getLsbD x n) zero
    simp [below] at this
  · simp [set]

/-- The bits of the gain, as they are compared. -/
theorem and_three_eq_iff (gain : BitVec 2) :
    data &&& 0x3 = gain.setWidth 32 ↔ decide (data.extractLsb' 0 2 = gain) = true := by
  rw [decide_eq_true_iff, ← BitVec.toNat_inj, ← BitVec.toNat_inj,
    and_mask_toNat (s := 0) (k := 2) (by decide), Nat.pow_zero, Nat.one_mul,
    BitVec.toNat_setWidth_of_le (by decide)]

end Masks

/-! ## The parts of the texts -/

section Parts

variable (buf : ℕ → Char) (len : ℕ) (data : U32)

def cmdParts : List (Bool × List Char) :=
  [(data.getLsbD 0, " Finite number of frames ".toList),
    (!data.getLsbD 0, " Infinite number of frames ".toList),
    (data.getLsbD 1, " Trigger each frame ".toList), (data.getLsbD 2, " Armed ".toList),
    (data.getLsbD 3, " Delayed Trigger ".toList), (true, "\n".toList)]

theorem interpretCmd_prints : Prints buf len (interpretCmd buf len data) (cmdParts data) :=
  (((((Prints.nothing buf len).either (and_bit_ne_zero 0) _ _).sprintfIf
    (and_bit_ne_zero 1) _).sprintfIf (and_bit_ne_zero 2) _).sprintfIf
    (and_bit_ne_zero 3) _).sprintf _

/-- The GD mode is printed twice as large as it is. -/
def setupParts (gain : BitVec 2) (inon teston : Bool) (mode : BitVec 2) (dreset : Bool) :
    List (Bool × List Char) :=
  [(gain = 0, (gainName 0).toList), (gain = 1, (gainName 1).toList),
    (gain = 2, (gainName 2).toList), (gain = 3, (gainName 3).toList),
    (inon, " INON ".toList), (teston, " TESTON ".toList),
    (mode ≠ 0, " GD-mode:0x".toList ++ Nat.toDigits 16 (2 * mode.toNat)),
    (dreset, " A_DRESET ".toList), (true, "\n".toList)]

theorem interpretSetup_prints : Prints buf len (interpretSetup buf len data)
    (setupParts (data.extractLsb' 0 2) (data.getLsbD 2) (data.getLsbD 3) (data.extractLsb' 5 2)
      (data.getLsbD 7)) := by
  have mode : hex ((data &&& 0x60).sshiftRight 4) =
      Nat.toDigits 16 (2 * (data.extractLsb' 5 2).toNat) :=
    hex_masked (s := 5) (by decide) (by decide) (by decide)
  unfold interpretSetup
  rw [mode]
  exact (((((((((Prints.nothing buf len).sprintfIf (and_three_eq_iff 0) _).sprintfIf
    (and_three_eq_iff 1) _).sprintfIf (and_three_eq_iff 2) _).sprintfIf
    (and_three_eq_iff 3) _).sprintfIf (and_bit_ne_zero 2) _).sprintfIf
    (and_bit_ne_zero 3) _).sprintfIf (and_ne_zero_iff (by decide)) _).sprintfIf
    (and_bit_ne_zero 7) _).sprintf _

/-- The masks for the flags are zero. -/
def statusParts (number errors : BitVec 8) : List (Bool × List Char) :=
  [(number ≠ 0, " Buffer Number:".toList ++ Nat.toDigits 16 number.toNat),
    (errors ≠ 0, " Error flags:".toList ++ Nat.toDigits 16 errors.toNat),
    (false, " Force Interrupt ".toList), (false, " Interrupt flag ".toList),
    (false, "Int overrun ".toList), (true, "\n".toList)]

/-- `1 >> n` is zero. -/
theorem and_shifted_ne_zero {n : ℕ} (zero : (1 : U32).sshiftRight n = 0) :
    data &&& (1 : U32).sshiftRight n ≠ 0 ↔ false = true := by
  rw [zero]
  simp

theorem interpretStatus_prints : Prints buf len (interpretStatus buf len data)
    (statusParts (data.extractLsb' 0 8) (data.extractLsb' 16 8)) := by
  have number : hex (data &&& 0xff) = Nat.toDigits 16 (data.extractLsb' 0 8).toNat := by
    rw [hex, and_mask_toNat (s := 0) (k := 8) (by decide), Nat.pow_zero, Nat.one_mul]
  have errors : hex ((data &&& (0xff <<< 16)).sshiftRight 16) =
      Nat.toDigits 16 (1 * (data.extractLsb' 16 8).toNat) :=
    hex_masked (s := 16) (by decide) le_rfl (by decide)
  rw [Nat.one_mul] at errors
  unfold interpretStatus
  rw [number, errors]
  have lost {n : ℕ} (zero : (1 : U32).sshiftRight n = 0) := and_shifted_ne_zero data zero
  exact ((((((Prints.nothing buf len).sprintfIf (and_ne_zero_iff (by decide)) _).sprintfIf
    (and_ne_zero_iff (by decide)) _).sprintfIf (lost (by decide)) _).sprintfIf
    (lost (by decide)) _).sprintfIf (lost (by decide)) _).sprintf _

end Parts

/-! ## What the texts tell -/

section Told

variable (buf : ℕ → Char) (len : ℕ) (data : U32)

theorem cmd_told : CmdTold ((interpretCmd buf len data).since len) data := by
  rw [(interpretCmd_prints buf len data).since_eq]
  constructor
  · exact named_iff 'F' [] (by simp) (by simp)
  · exact (named_iff 'I' [_] (by simp) (by simp)).trans (by simp)
  · exact named_iff 'c' [_, _] (by simp) (by simp)
  · exact named_iff 'A' [_, _, _] (by simp) (by simp)
  · exact named_iff 'D' [_, _, _, _] (by simp) (by simp)

end Told

section Setup

variable (gain : BitVec 2) (inon teston : Bool) (mode : BitVec 2) (dreset : Bool)

/-- A character that is no digit is not in the number of the mode. -/
theorem notMem_mode {c : Char} (noDigit : hexValue c = none) (mode : BitVec 2) :
    c ∉ Nat.toDigits 16 (2 * mode.toNat) := notMem_toDigits noDigit _

/-- The name of a gain, split at the mark. -/
theorem gainName_split : ∀ gain, (gainName gain).toList =
    (gainName gain).toList.takeWhile (· ≠ '/') ++ '/' :: "fC ".toList := by decide

/-- The name of the gain, and what is behind it. -/
theorem textOf_setupParts : textOf (setupParts gain inon teston mode dreset) =
    (gainName gain).toList ++ textOf ((setupParts gain inon teston mode dreset).drop 4) := by
  have name : ∀ gain : BitVec 2, textOf [(gain = 0, (gainName 0).toList),
      (gain = 1, (gainName 1).toList), (gain = 2, (gainName 2).toList),
      (gain = 3, (gainName 3).toList)] = (gainName gain).toList := by decide
  rw [← name, ← textOf_append]
  rfl

theorem gain_named_iff (other : BitVec 2) :
    (gainName other).toList <:+: textOf (setupParts gain inon teston mode dreset) ↔
      gain = other := by
  have unmarked : '/' ∉ textOf ((setupParts gain inon teston mode dreset).drop 4) :=
    notMem_textOf (by simp [setupParts, notMem_mode (c := '/') (by decide)])
  rw [textOf_setupParts]
  constructor
  · intro found
    rw [gainName_split other, gainName_split gain, List.append_assoc, List.cons_append] at found
    have first : ∀ gain, '/' ∉ (gainName gain).toList.takeWhile (· ≠ '/') := by decide
    obtain ⟨same, -⟩ := infix_at_mark _ _ _ found (first gain) (by simp [unmarked])
    clear found unmarked first
    revert gain other
    decide
  · rintro rfl
    exact (List.prefix_append _ _).isInfix

theorem teston_named_iff :
    " TESTON ".toList <:+: textOf (setupParts gain inon teston mode dreset) ↔ teston = true := by
  constructor
  · intro found
    by_contra hidden
    cases dreset with
    | false =>
        have missing : 'T' ∉ textOf (setupParts gain inon teston mode false) := notMem_textOf
          (by simp [setupParts, gainName, hidden, notMem_mode (c := 'T') (by decide)])
        exact missing (found.subset (by decide))
    | true =>
        -- The mark is in the name of the other flag, where what is behind it differs.
        have missing : 'T' ∉ textOf ((setupParts gain inon teston mode true).take 7) :=
          notMem_textOf
            (by simp [setupParts, gainName, hidden, notMem_mode (c := 'T') (by decide)])
        have split : textOf (setupParts gain inon teston mode true) =
            (textOf ((setupParts gain inon teston mode true).take 7) ++ " A_DRESE".toList) ++
              'T' :: " \n".toList := by
          rw [List.append_assoc, ← List.take_append_drop 7 (setupParts gain inon teston mode true),
            textOf_append]
          simp [setupParts, textOf]
        rw [split] at found
        obtain ⟨-, same⟩ := infix_at_mark 'T' [' '] "ESTON ".toList found
          (by simp [missing]) (by decide)
        revert same
        decide
  · rintro rfl
    have printed : " TESTON ".toList ∈ (setupParts gain inon true mode dreset).map
        fun part => if part.1 then part.2 else [] :=
      List.mem_map.mpr ⟨(true, " TESTON ".toList), by simp [setupParts], rfl⟩
    exact List.infix_of_mem_flatten printed

theorem inon_named_iff :
    " INON ".toList <:+: textOf (setupParts gain inon teston mode dreset) ↔ inon = true :=
  named_iff 'I' [_, _, _, _] (by simp)
    (by simp [gainName, notMem_mode (c := 'I') (by decide)])

theorem dreset_named_iff :
    " A_DRESET ".toList <:+: textOf (setupParts gain inon teston mode dreset) ↔ dreset = true :=
  named_iff 'A' [_, _, _, _, _, _, _] (by simp)
    (by simp [gainName, notMem_mode (c := 'A') (by decide)])

theorem mode_behind :
    numberBehind " GD-mode:0x".toList (textOf (setupParts gain inon teston mode dreset)) =
      if decide (mode ≠ 0) then some (2 * mode.toNat) else none :=
  numberBehind_textOf 'G' [' '] "D-mode:0x".toList
    [_, _, _, _, _, _] rfl (by decide) (by simp [gainName]) (by simp; decide)

/-- Only zero is told. -/
theorem mode_told_iff :
    Tells " GD-mode:0x" (textOf (setupParts gain inon teston mode dreset)) mode.toNat ↔
      mode = 0 := by
  rw [Tells, mode_behind]
  revert mode
  decide

end Setup

section Status

variable (number errors : BitVec 8)

/-- A number that is left out if it is zero is told. -/
theorem shown_eq (n : BitVec 8) :
    (if decide (n ≠ 0) then some n.toNat else none) =
      if n.toNat = 0 then none else some n.toNat := by
  by_cases zero : n = 0
  · rw [zero]
    rfl
  · have positive : n.toNat ≠ 0 := fun none => zero (BitVec.eq_of_toNat_eq none)
    rw [if_pos (decide_eq_true zero), if_neg positive]

theorem number_told :
    Tells " Buffer Number:" (textOf (statusParts number errors)) number.toNat := by
  rw [Tells, ← shown_eq]
  exact numberBehind_textOf 'B' [' '] "uffer Number:".toList
    [] rfl (by decide)
    (by simp [notMem_toDigits (c := 'B') (by decide) errors.toNat]) (by simp; decide)

theorem errors_told :
    Tells " Error flags:" (textOf (statusParts number errors)) errors.toNat := by
  rw [Tells, ← shown_eq]
  exact numberBehind_textOf 'E' [' '] "rror flags:".toList
    [_] rfl (by decide)
    (by simp [notMem_toDigits (c := 'E') (by decide) number.toNat]) (by simp; decide)

/-- No flag is ever named. -/
theorem flag_not_named (label : String) (mark : 'I' ∈ label.toList) :
    ¬ label.toList <:+: textOf (statusParts number errors) := by
  have missing : 'I' ∉ textOf (statusParts number errors) := notMem_textOf
    (by simp [statusParts, notMem_toDigits (c := 'I') (by decide)])
  exact fun named => missing (named.subset mark)

end Status

/-- A field of three flags is clear if they are. -/
theorem three_flags_iff (data : U32) : data.extractLsb' 29 3 = 0 ↔
    data.getLsbD 29 = false ∧ data.getLsbD 30 = false ∧ data.getLsbD 31 = false := by
  constructor
  · intro clear
    have bit (i : ℕ) (below : i < 3) : data.getLsbD (29 + i) = false := by
      have := congrArg (fun field => BitVec.getLsbD field i) clear
      simpa [below] using this
    exact ⟨bit 0 (by decide), bit 1 (by decide), bit 2 (by decide)⟩
  · rintro ⟨force, flag, overrun⟩
    refine BitVec.eq_of_getLsbD_eq fun i below => ?_
    rw [BitVec.getLsbD_extractLsb']
    obtain rfl | rfl | rfl : i = 0 ∨ i = 1 ∨ i = 2 := by omega
    · exact force
    · exact flag
    · exact overrun

/-! ## Registers that are told apart -/

section Apart

variable {label : String} {text : List Char} {data other : U32} {n m : ℕ}

/-- A text tells one number. -/
theorem Tells.unique (h : Tells label text n) (h' : Tells label text m) : n = m := by
  have same := h.symm.trans h'
  by_cases zero : n = 0 <;> by_cases zero' : m = 0
  · rw [zero, zero']
  · rw [if_pos zero, if_neg zero'] at same
    cases same
  · rw [if_neg zero, if_pos zero'] at same
    cases same
  · rw [if_neg zero, if_neg zero'] at same
    exact Option.some.inj same

/-- A flag that is named by the same text is set in both registers or in none. -/
theorem flag_unique {named : Prop} (h : named ↔ data.getLsbD n = true)
    (h' : named ↔ other.getLsbD n = true) :
    data.extractLsb' n 1 = other.extractLsb' n 1 := by
  have same : data.getLsbD n = other.getLsbD n := Bool.eq_iff_iff.mpr (h.symm.trans h')
  refine BitVec.eq_of_getLsbD_eq fun i below => ?_
  obtain rfl : i = 0 := by omega
  simpa using same

end Apart

namespace Decoder

variable (d : Decoder) (buf : ℕ → Char) (len : ℕ) (data other : U32)

theorem told_iff : d.Told (d.text buf len data) data ↔ d.Intact data := by
  cases d with
  | cmd => exact iff_of_true (cmd_told buf len data) trivial
  | setup =>
      have parts := (interpretSetup_prints buf len data).since_eq
      show SetupTold ((interpretSetup buf len data).since len) data ↔ data.extractLsb' 5 2 = 0
      rw [parts]
      constructor
      · intro told
        exact (mode_told_iff ..).mp told.gdMode
      · intro clear
        exact ⟨fun other => gain_named_iff .., inon_named_iff .., teston_named_iff ..,
          (mode_told_iff ..).mpr clear, dreset_named_iff ..⟩
  | status =>
      have parts := (interpretStatus_prints buf len data).since_eq
      show StatusTold ((interpretStatus buf len data).since len) data ↔ data.extractLsb' 29 3 = 0
      rw [parts, three_flags_iff]
      have force := flag_not_named (data.extractLsb' 0 8) (data.extractLsb' 16 8)
        " Force Interrupt " (by decide)
      have flag := flag_not_named (data.extractLsb' 0 8) (data.extractLsb' 16 8)
        " Interrupt flag " (by decide)
      have overrun := flag_not_named (data.extractLsb' 0 8) (data.extractLsb' 16 8)
        "Int overrun " (by decide)
      constructor
      · intro told
        refine ⟨?_, ?_, ?_⟩
        · simpa using mt told.forceInterrupt.mpr force
        · simpa using mt told.interruptFlag.mpr flag
        · simpa using mt told.intOverrun.mpr overrun
      · rintro ⟨force', flag', overrun'⟩
        refine ⟨number_told .., errors_told .., ?_, ?_, ?_⟩
        · exact iff_of_false force fun set => Bool.false_ne_true (force'.symm.trans set)
        · exact iff_of_false flag fun set => Bool.false_ne_true (flag'.symm.trans set)
        · exact iff_of_false overrun fun set => Bool.false_ne_true (overrun'.symm.trans set)

variable {d data other}

/-- Registers with the same text have the same fields. -/
theorem Told.fields_eq {text : List Char} (told : d.Told text data) (told' : d.Told text other) :
    ∀ field ∈ d.fields,
      data.extractLsb' field.1 field.2 = other.extractLsb' field.1 field.2 := by
  cases d with
  | cmd =>
      change CmdTold _ _ at told told'
      have finite := flag_unique told.finite told'.finite
      have trigger := flag_unique told.trigger told'.trigger
      have armed := flag_unique told.armed told'.armed
      have delayed := flag_unique told.delayed told'.delayed
      simp only [fields, List.forall_mem_cons]
      exact ⟨finite, trigger, armed, delayed, nofun⟩
  | setup =>
      change SetupTold _ _ at told told'
      have gain := ((told.gain _).symm.trans (told'.gain _)).mpr rfl
      have inon := flag_unique told.inon told'.inon
      have teston := flag_unique told.teston told'.teston
      have mode := BitVec.eq_of_toNat_eq (told.gdMode.unique told'.gdMode)
      have dreset := flag_unique told.dreset told'.dreset
      simp only [fields, List.forall_mem_cons]
      exact ⟨gain, inon, teston, mode, dreset, nofun⟩
  | status =>
      change StatusTold _ _ at told told'
      have number := BitVec.eq_of_toNat_eq (told.bufferNumber.unique told'.bufferNumber)
      have errors := BitVec.eq_of_toNat_eq (told.errorFlags.unique told'.errorFlags)
      have force := flag_unique told.forceInterrupt told'.forceInterrupt
      have flag := flag_unique told.interruptFlag told'.interruptFlag
      have overrun := flag_unique told.intOverrun told'.intOverrun
      simp only [fields, List.forall_mem_cons]
      exact ⟨number, errors, force, flag, overrun, nofun⟩

end Decoder

/-- **The register decoders.**  Wherever the text is put, it tells what is in the registers,
and tells registers apart that differ in a field, exactly if the fields that the decoder gets
wrong are clear: none for the command register, the GD mode for the setup register and the
bits 29 to 31 for the status register. -/
theorem decoders_right_iff (d : Decoder) (buf : ℕ → Char) (len : ℕ) (data other : U32) :
    d.Right buf len data other ↔ d.Intact data ∧ d.Intact other := by
  constructor
  · intro right
    exact ⟨(d.told_iff buf len data).mp right.told, (d.told_iff buf len other).mp right.told_other⟩
  · rintro ⟨intact, intact'⟩
    have told := (d.told_iff buf len data).mpr intact
    have told' := (d.told_iff buf len other).mpr intact'
    refine ⟨told, told', fun field mem differ same => differ ?_⟩
    exact (same ▸ told).fields_eq told' field mem

/-- A status of a forced interrupt has the text of a status of nothing. -/
theorem forced_interrupt_not_told :
    ¬ ∀ d buf len data other, Decoder.Right d buf len data other := by
  intro right
  have told : StatusTold _ _ := (right .status (fun _ => ' ') 0 0x20000000 0).told
  have text : Decoder.text .status (fun _ => ' ') 0 0x20000000 = ['\n'] := by decide +kernel
  have named := told.forceInterrupt.mpr rfl
  rw [text] at named
  revert named
  decide

end Cjunk.Plx.Proc
