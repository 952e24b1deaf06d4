import Mathlib.Data.List.Infix
import Mathlib.Data.Nat.Notation

/-!
# Printing into a buffer

Code that fills a buffer with `i += sprintf(buf + i, ...)`, some of it under conditions, and
what a reader of the text can tell from it: whether it names something (`List.IsInfix`), and
which number it has behind a label (`numberBehind`, for numbers printed with `%x`).

`Prints buf start s parts` is the specification of such code: since `start` it has printed
those of the parts whose conditions hold, and what was in the buffer before is still there.
`named_iff` and `numberBehind_textOf` are about parts with a *mark*, a character that is in no
other part: they are seen exactly if they are printed.
-/

namespace Cjunk.Printing

/-- A buffer, and the place where the next text goes. -/
structure Output where
  buf : ℕ → Char
  i : ℕ

/-- `i += sprintf(buf + i, text)`: the text is stored, with a NUL behind it. -/
def sprintf (text : List Char) (s : Output) : Output where
  buf k := if k < s.i then s.buf k else (text ++ ['\x00'])[k - s.i]?.getD (s.buf k)
  i := s.i + text.length

/-- `if (c) i += sprintf(buf + i, text);` -/
def sprintfIf (c : Prop) [Decidable c] (text : List Char) (s : Output) : Output :=
  if c then sprintf text s else s

/-- The characters between a place and the end of the text. -/
def Output.since (s : Output) (start : ℕ) : List Char :=
  (List.range' start (s.i - start)).map s.buf

/-- The text of parts that are printed under conditions. -/
def textOf (parts : List (Bool × List Char)) : List Char :=
  parts.flatMap fun part => if part.1 then part.2 else []

/-- The parts have been printed from `start` on. -/
structure Prints (buf : ℕ → Char) (start : ℕ) (s : Output) (parts : List (Bool × List Char)) :
    Prop where
  le : start ≤ s.i
  before : ∀ k < start, s.buf k = buf k
  since_eq : s.since start = textOf parts

section Prints

variable {buf : ℕ → Char} {start : ℕ} {s : Output} {parts : List (Bool × List Char)}

theorem textOf_append (parts more : List (Bool × List Char)) :
    textOf (parts ++ more) = textOf parts ++ textOf more := List.flatMap_append

/-- What is printed goes behind what was printed before. -/
theorem since_sprintf (le : start ≤ s.i) (text : List Char) :
    (sprintf text s).since start = s.since start ++ text := by
  have split : (sprintf text s).i - start = s.i - start + text.length := Nat.sub_add_comm le
  rw [Output.since, split, ← List.range'_append_1, List.map_append, Nat.add_sub_cancel' le]
  congr 1
  · refine List.map_congr_left fun k mem => ?_
    have old : k < s.i := by
      have := (List.mem_range'_1.mp mem).2
      rwa [Nat.add_sub_cancel' le] at this
    exact if_pos old
  · refine List.ext_getElem (by simp) fun k below _ => ?_
    rw [List.length_map, List.length_range'] at below
    rw [List.getElem_map, List.getElem_range', Nat.one_mul]
    show (if s.i + k < s.i then _ else _) = _
    rw [if_neg (by omega), Nat.add_sub_cancel_left, List.getElem?_append_left below,
      List.getElem?_eq_getElem below, Option.getD_some]

theorem Prints.nothing (buf : ℕ → Char) (start : ℕ) : Prints buf start ⟨buf, start⟩ [] where
  le := le_rfl
  before _ _ := rfl
  since_eq := by
    rw [Output.since, Nat.sub_self]
    rfl

theorem Prints.sprintf (h : Prints buf start s parts) (text : List Char) :
    Prints buf start (sprintf text s) (parts ++ [(true, text)]) where
  le := Nat.le_add_right_of_le h.le
  before k below := (if_pos (below.trans_le h.le)).trans (h.before k below)
  since_eq := by
    rw [since_sprintf h.le, h.since_eq, textOf_append]
    simp [textOf]

theorem Prints.sprintfIf {c : Prop} [Decidable c] {shown : Bool} (h : Prints buf start s parts)
    (same : c ↔ shown = true) (text : List Char) :
    Prints buf start (sprintfIf c text s) (parts ++ [(shown, text)]) := by
  unfold Printing.sprintfIf
  cases shown with
  | true =>
      rw [if_pos (same.mpr rfl)]
      exact h.sprintf text
  | false =>
      rw [if_neg fun holds => Bool.false_ne_true (same.mp holds)]
      refine ⟨h.le, h.before, ?_⟩
      rw [h.since_eq, textOf_append]
      simp [textOf]

/-- `if (c) i += sprintf(buf + i, text); else i += sprintf(buf + i, other);` -/
theorem Prints.either {c : Prop} [Decidable c] {shown : Bool} (h : Prints buf start s parts)
    (same : c ↔ shown = true) (text other : List Char) :
    Prints buf start (if c then Printing.sprintf text s else Printing.sprintf other s)
      (parts ++ [(shown, text), (!shown, other)]) := by
  cases shown with
  | true =>
      rw [if_pos (same.mpr rfl)]
      refine ⟨(h.sprintf text).le, (h.sprintf text).before, ?_⟩
      rw [since_sprintf h.le, h.since_eq, textOf_append]
      simp [textOf]
  | false =>
      rw [if_neg fun holds => Bool.false_ne_true (same.mp holds)]
      refine ⟨(h.sprintf other).le, (h.sprintf other).before, ?_⟩
      rw [since_sprintf h.le, h.since_eq, textOf_append]
      simp [textOf]

end Prints

/-! ## Names -/

section Names

variable {label text before after before' after' : List Char} {c : Char}
  {parts : List (Bool × List Char)} {shown : Bool}

theorem notMem_textOf (others : ∀ part ∈ parts, part.1 = true → c ∉ part.2) :
    c ∉ textOf parts := by
  intro mem
  obtain ⟨part, inside, here⟩ := List.mem_flatMap.mp mem
  split at here
  · rename_i printed
    exact others part inside printed here
  · cases here

/-- A part with a mark is named exactly if it is printed. -/
theorem named_iff (c : Char) (front : List (Bool × List Char)) {back : List (Bool × List Char)}
    (mark : c ∈ label) (others : ∀ part ∈ front ++ back, c ∉ part.2) :
    label <:+: textOf (front ++ (shown, label) :: back) ↔ shown = true := by
  rw [textOf_append]
  constructor
  · intro named
    by_contra hidden
    have missing : c ∉ textOf (front ++ back) := notMem_textOf fun part mem _ => others part mem
    have mem : c ∈ textOf front ++ textOf ((shown, label) :: back) := named.subset mark
    rw [textOf_append] at missing
    exact missing (by simpa [textOf, hidden] using mem)
  · rintro rfl
    exact List.infix_append' _ _ _

/-- Where a text has the mark once, that is where it stands in a label that is found. -/
theorem infix_at_mark (c : Char) (before after : List Char)
    (found : before ++ c :: after <:+: before' ++ c :: after') (first : c ∉ before')
    (last : c ∉ after') : before <:+ before' ∧ after <+: after' := by
  obtain ⟨front, back, same⟩ := found
  have split : (front ++ before) ++ c :: (after ++ back) = before' ++ c :: after' := by
    rw [← same]
    simp
  obtain ⟨mid, left, right⟩ | ⟨mid, left, right⟩ := List.append_eq_append_iff.mp split
  · cases mid with
    | nil =>
        obtain ⟨-, rest⟩ := List.cons.inj right
        exact ⟨⟨front, by simpa using left.symm⟩, ⟨back, rest⟩⟩
    | cons d mid =>
        obtain ⟨rfl, -⟩ := List.cons.inj right
        exact absurd (by simp [left]) first
  · cases mid with
    | nil =>
        obtain ⟨-, rest⟩ := List.cons.inj right
        exact ⟨⟨front, by simpa using left⟩, ⟨back, rest.symm⟩⟩
    | cons d mid =>
        obtain ⟨-, rest⟩ := List.cons.inj right
        exact absurd (by simp [rest]) last

end Names

/-! ## Numbers behind labels -/

/-- The text behind the first place where the label stands. -/
def behind (label : List Char) : List Char → Option (List Char)
  | [] => if label = [] then some [] else none
  | c :: text => if label <+: c :: text then some ((c :: text).drop label.length)
      else behind label text

/-- The value of a hexadecimal digit. -/
def hexValue (c : Char) : Option ℕ := (List.range 16).find? fun d => d.digitChar = c

/-- The number whose first digits are `n` and whose others start the text. -/
def readHex : ℕ → List Char → ℕ
  | n, [] => n
  | n, c :: text =>
      match hexValue c with
      | some d => readHex (16 * n + d) text
      | none => n

/-- The number behind a label. -/
def numberBehind (label text : List Char) : Option ℕ := (behind label text).map (readHex 0)

section Numbers

variable {label text before after rest : List Char} {c : Char} {n : ℕ}

theorem hexValue_digitChar : ∀ d < 16, hexValue d.digitChar = some d := by decide

/-- The number that `%x` prints is read back. -/
theorem readHex_toDigits (n : ℕ) (rest : List Char) :
    readHex 0 (Nat.toDigits 16 n ++ rest) = readHex n rest := by
  induction n using Nat.strongRecOn generalizing rest with
  | ind n ih =>
      by_cases short : n < 16
      · rw [Nat.toDigits_of_lt_base short, List.singleton_append, readHex,
          hexValue_digitChar n short]
        simp
      · rw [Nat.toDigits_of_base_le (by decide) (by omega), List.append_assoc,
          ih (n / 16) (by omega), List.singleton_append, readHex,
          hexValue_digitChar _ (Nat.mod_lt n (by decide))]
        simp only [Nat.div_add_mod]

/-- A text without a character of the label. -/
theorem behind_eq_none (mark : c ∈ label) (missing : c ∉ text) : behind label text = none := by
  induction text with
  | nil => exact if_neg (List.ne_nil_of_mem mark)
  | cons d text ih =>
      rw [behind, if_neg fun first => missing (first.subset mark)]
      exact ih fun mem => missing (List.mem_cons_of_mem d mem)

/-- The label is found where it stands, if its mark is not met earlier. -/
theorem behind_eq_some (split : label = before ++ c :: after) (first : c ∉ text ++ before) :
    behind label (text ++ (label ++ rest)) = some rest := by
  induction text with
  | nil =>
      obtain ⟨d, ds, cons⟩ : ∃ d ds, label = d :: ds := List.exists_cons_of_ne_nil (by simp [split])
      rw [List.nil_append, cons, List.cons_append, behind, ← List.cons_append, ← cons,
        if_pos (List.prefix_append label rest), List.drop_left]
  | cons d text ih =>
      have later : ¬ label <+: d :: (text ++ (label ++ rest)) := by
        intro found
        -- The character would be one of those before its first place.
        have start : before ++ [c] <+: label := ⟨after, by rw [split]; simp⟩
        have earlier : d :: text ++ before <+: d :: (text ++ (label ++ rest)) :=
          ⟨c :: after ++ rest, by rw [split]; simp⟩
        have inside := List.prefix_of_prefix_length_le (start.trans found) earlier (by simp)
        exact first (inside.subset (by simp))
      rw [List.cons_append, behind, if_neg later]
      exact ih fun mem => first (List.mem_cons_of_mem d mem)

/-- A number that no other digit follows. -/
theorem readHex_ends (ends : ∀ d ∈ text.head?, hexValue d = none) : readHex n text = n := by
  cases text with
  | nil => rfl
  | cons d text => rw [readHex, ends d rfl]

theorem hexValue_of_mem_toDigits (mem : c ∈ Nat.toDigits 16 n) : hexValue c ≠ none := by
  induction n using Nat.strongRecOn with
  | ind n ih =>
      by_cases short : n < 16
      · rw [Nat.toDigits_of_lt_base short, List.mem_singleton] at mem
        rw [mem, hexValue_digitChar n short]
        exact Option.some_ne_none n
      · rw [Nat.toDigits_of_base_le (by decide) (by omega), List.mem_append,
          List.mem_singleton] at mem
        rcases mem with mem | rfl
        · exact ih (n / 16) (by omega) mem
        · rw [hexValue_digitChar _ (Nat.mod_lt n (by decide))]
          exact Option.some_ne_none _

theorem notMem_toDigits (noDigit : hexValue c = none) (n : ℕ) : c ∉ Nat.toDigits 16 n :=
  fun mem => hexValue_of_mem_toDigits mem noDigit

/-- The text starts as one of its parts does. -/
theorem head?_textOf {parts : List (Bool × List Char)} (mem : c ∈ (textOf parts).head?) :
    ∃ part ∈ parts, c ∈ part.2.head? := by
  induction parts with
  | nil => cases mem
  | cons part parts ih =>
      have split : textOf (part :: parts) = textOf [part] ++ textOf parts :=
        textOf_append [part] parts
      rw [split, List.head?_append, Option.mem_def, Option.or_eq_some_iff] at mem
      rcases mem with mem | ⟨-, mem⟩
      · refine ⟨part, List.mem_cons_self, ?_⟩
        by_cases shown : part.1 = true
        · simpa [textOf, shown] using mem
        · simp [textOf, shown] at mem
      · obtain ⟨part', inside, here⟩ := ih mem
        exact ⟨part', List.mem_cons_of_mem part inside, here⟩

/-- A number that is printed behind a label with a mark is the one that is read. -/
theorem numberBehind_textOf (c : Char) (before after : List Char)
    (front : List (Bool × List Char)) {back : List (Bool × List Char)} {shown : Bool}
    (split : label = before ++ c :: after) (first : c ∉ before)
    (others : ∀ part ∈ front ++ back, c ∉ part.2)
    (ends : ∀ part ∈ back, ∀ d ∈ part.2.head?, hexValue d = none) :
    numberBehind label (textOf (front ++ (shown, label ++ Nat.toDigits 16 n) :: back)) =
      if shown then some n else none := by
  have mark : c ∈ label := by simp [split]
  have missing : c ∉ textOf (front ++ back) := notMem_textOf fun part mem _ => others part mem
  rw [textOf_append] at missing ⊢
  cases shown with
  | false => rw [numberBehind, behind_eq_none mark (by simpa [textOf] using missing)]; rfl
  | true =>
      have own : textOf ((true, label ++ Nat.toDigits 16 n) :: back) =
          label ++ (Nat.toDigits 16 n ++ textOf back) := by simp [textOf]
      have earlier : c ∉ textOf front ++ before := by
        rw [List.mem_append, not_or] at missing ⊢
        exact ⟨missing.1, first⟩
      have last : ∀ d ∈ (textOf back).head?, hexValue d = none := by
        intro d mem
        obtain ⟨part, inside, here⟩ := head?_textOf mem
        exact ends part inside d here
      rw [own, numberBehind, behind_eq_some split earlier, Option.map_some, readHex_toDigits,
        readHex_ends last]
      rfl

end Numbers

end Cjunk.Printing
