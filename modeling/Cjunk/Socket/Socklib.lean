import Cjunk.Lib.Refinement
import Mathlib.Data.Int.Notation

/-!
# Socket options

`next_token` of `socklib.c` takes a token off a string: what stands between two separators, without
the quotes, between which a separator does not count.  `set_socket_options` sets an option for each
token, `NAME` or `NAME=value`, of which it looks up the name in a table.  The table depends on the
system, and is a parameter.

`setSocketOptions_sets` says that requests are carried out in their order, however they are written
down.  A token of 200 characters is stored outside `tok`.
-/

namespace Cjunk.Socklib

open WhileLoop Refinement

/-! ## The functions -/

/-- `enum SOCK_OPT_TYPES` -/
inductive SockOptType where
  | bool
  | int
  | on
  deriving DecidableEq

/-- An entry of `socket_options`. -/
structure SocketOption where
  name : List Char
  level : Int32
  option : Int32
  value : Int32
  opttype : SockOptType
  deriving DecidableEq

/-- The calls of `setsockopt`, with the value that is passed, and what `DEBUG` prints. -/
inductive Event where
  | setsockopt (level option value : Int32)
  | debug (text : String)
  deriving DecidableEq

/-- What `setsockopt` returns, which may depend on all that has happened. -/
abbrev Kernel := List Event → SocketOption → Int32 → Int32

/-- The loop of `next_token` that copies a token, and the string that it leaves. -/
def copyToken (sep : List Char) : Bool → List Char → List Char × List Char
  | _, [] => ([], [])
  | quoted, c :: s =>
      if quoted || !sep.contains c then
        if c = '"' then copyToken sep (!quoted) s
        else
          let (tok, rest) := copyToken sep quoted s
          (c :: tok, rest)
      else ([], c :: s)

/-- `next_token`: the token, and the string behind it.  There is none if it returns `False`. -/
def nextToken (sep s : List Char) : Option (List Char × List Char) :=
  match s.dropWhile (sep.contains ·) with
  | [] => none
  | c :: s =>
      let (tok, rest) := copyToken sep false (c :: s)
      some (tok, rest.tail)

/-- `isspace` -/
def isspace (c : Char) : Bool := [' ', '\t', '\n', '\x0b', '\x0c', '\r'].contains c

/-- The number that a text begins with. -/
def digits (s : List Char) : ℤ := Nat.ofDigitChars 10 (s.takeWhile Char.isDigit) 0

/-- The number at the front of a text, behind its sign. -/
def number (s : List Char) : ℤ :=
  match s.dropWhile isspace with
  | '-' :: s => -digits s
  | '+' :: s => digits s
  | s => digits s

/-- `strtol` to the base 10, which stops at the bounds of a `long`. -/
def strtol (s : List Char) : ℤ :=
  if number s < -0x8000000000000000 then -0x8000000000000000
  else if 0x7fffffffffffffff < number s then 0x7fffffffffffffff
  else number s

/-- `atoi`: what `strtol` reads, as an `int`. -/
def atoi (s : List Char) : Int32 := Int32.ofInt (strtol s)

/-- `strcasecmp(a, b) == 0` -/
def sameName (a b : List Char) : Bool := a.map Char.toLower == b.map Char.toLower

/-- The size of `tok`. -/
def sizeofTok : ℕ := 200

/-- The separators of the options. -/
def separators : List Char := [' ', '\t', ',']

section Setting

variable (socketOptions : List SocketOption) (kernel : Kernel)

/-- A call of `setsockopt`, for the option with the name `tok`. -/
def callSetsockopt (tok : List Char) (o : SocketOption) (value : Int32) (seen : List Event) :
    List Event :=
  let ret := kernel seen o value
  let seen := seen ++ [.setsockopt o.level o.option value]
  if ret ≠ 0 then
    seen ++ [.debug ("Failed to set socket option " ++ String.ofList tok ++ "\n")]
  else seen

/-- The body of the loop of `set_socket_options`. -/
def setOption (tok : List Char) (seen : List Event) : List Event :=
  let name := tok.takeWhile (· ≠ '=')
  let behind := (tok.dropWhile (· ≠ '=')).tail?
  let value := (behind.map atoi).getD 1
  match socketOptions.find? fun o => sameName o.name name with
  | none => seen ++ [.debug ("Unknown socket option " ++ String.ofList name ++ "\n")]
  | some o =>
      match o.opttype with
      | .bool | .int => callSetsockopt kernel name o value seen
      | .on =>
          let seen :=
            if behind.isSome then
              seen ++ [.debug ("syntax error - " ++ String.ofList name ++
                " does not take a value\n")]
            else seen
          callSetsockopt kernel name o o.value seen

/-- `set_socket_options`.  A token that does not fit is stored outside `tok`. -/
def setSocketOptions : ℕ → List Char → List Event → Except Stop (List Event)
  | 0, _, _ => .error .unfinished
  | fuel + 1, options, seen =>
      match nextToken separators options with
      | none => .ok seen
      | some (tok, rest) =>
          if tok.length < sizeofTok then
            setSocketOptions fuel rest (setOption socketOptions kernel tok seen)
          else .error .fault

end Setting

/-! ## Tokens -/

section Tokens

variable {sep raw t rest gap : List Char}

/-- Between quotes all is copied. -/
theorem copyToken_quoted (plain : '"' ∉ t) :
    copyToken sep true (t ++ '"' :: rest) =
      (t ++ (copyToken sep false rest).1, (copyToken sep false rest).2) := by
  induction t with
  | nil => simp [copyToken]
  | cons c t ih =>
      obtain ⟨other, plain⟩ := not_or.mp (mt List.mem_cons.mpr plain)
      rw [List.cons_append, copyToken, Bool.true_or, if_pos rfl, if_neg (Ne.symm other), ih plain]
      rfl

/-- Without quotes, all is copied but separators. -/
theorem copyToken_plain (plain : '"' ∉ t) (inside : ∀ c ∈ t, c ∉ sep) :
    copyToken sep false (t ++ rest) =
      (t ++ (copyToken sep false rest).1, (copyToken sep false rest).2) := by
  induction t with
  | nil => rfl
  | cons c t ih =>
      obtain ⟨other, plain⟩ := not_or.mp (mt List.mem_cons.mpr plain)
      obtain ⟨here, inside⟩ := List.forall_mem_cons.mp inside
      rw [List.cons_append, copyToken, if_pos (by simpa using here), if_neg (Ne.symm other),
        ih plain inside]
      rfl

theorem copyToken_ends (ends : ∀ c ∈ rest.head?, c ∈ sep) :
    copyToken sep false rest = ([], rest) := by
  cases rest with
  | nil => rfl
  | cons c rest =>
      have here : c ∈ sep := ends c rfl
      rw [copyToken, if_neg (by simpa using here)]

/-- A text is written down in quotes, or without them if there is no separator in it. -/
def Spells (raw t : List Char) : Prop :=
  '"' ∉ t ∧ (raw = '"' :: (t ++ ['"']) ∨ raw = t ∧ t ≠ [] ∧ ∀ c ∈ t, c ∉ separators)

/-- A text that is written down is the next token. -/
theorem nextToken_spells (gapped : ∀ c ∈ gap, c ∈ separators) (spells : Spells raw t)
    (ends : ∀ c ∈ rest.head?, c ∈ separators) :
    nextToken separators (gap ++ (raw ++ rest)) = some (t, rest.tail) := by
  obtain ⟨plain, form⟩ := spells
  have copied : copyToken separators false (raw ++ rest) = (t, rest) := by
    rcases form with rfl | ⟨rfl, -, inside⟩
    · have opened : copyToken separators false ('"' :: (t ++ ['"']) ++ rest) =
          copyToken separators true (t ++ '"' :: rest) := by
        rw [List.cons_append, List.append_assoc, List.singleton_append]
        rfl
      rw [opened, copyToken_quoted plain, copyToken_ends ends, List.append_nil]
    · rw [copyToken_plain plain inside, copyToken_ends ends, List.append_nil]
  obtain ⟨c, s, rfl, start⟩ : ∃ c s, raw = c :: s ∧ c ∉ separators := by
    rcases form with rfl | ⟨rfl, nonempty, inside⟩
    · exact ⟨'"', _, rfl, by decide⟩
    · obtain ⟨c, s, rfl⟩ := List.exists_cons_of_ne_nil nonempty
      exact ⟨c, s, rfl, inside c List.mem_cons_self⟩
  have skipped : (gap ++ (c :: s ++ rest)).dropWhile (separators.contains ·) = c :: s ++ rest := by
    rw [List.dropWhile_append_of_pos (by simpa using gapped), List.cons_append,
      List.dropWhile_cons_of_neg (by simpa using start)]
  unfold nextToken
  rw [skipped]
  show some ((copyToken separators false (c :: s ++ rest)).1,
    (copyToken separators false (c :: s ++ rest)).2.tail) = _
  rw [copied]

/-- Behind the last text there is no token. -/
theorem nextToken_gap (gapped : ∀ c ∈ gap, c ∈ separators) : nextToken separators gap = none := by
  have skipped : gap.dropWhile (separators.contains ·) = [] := by
    rw [← List.append_nil gap, List.dropWhile_append_of_pos (by simpa using gapped)]
    rfl
  unfold nextToken
  rw [skipped]

end Tokens

/-! ## Requests -/

/-- The texts are written down in a string, one after the other, with separators between them and
perhaps some more before and behind them. -/
inductive Writes : List Char → List (List Char) → Prop where
  | nil {gap : List Char} (gapped : ∀ c ∈ gap, c ∈ separators) : Writes gap []
  | last {gap raw t : List Char} (gapped : ∀ c ∈ gap, c ∈ separators) (spells : Spells raw t) :
      Writes (gap ++ raw) [t]
  | more {gap raw t rest : List Char} {c : Char} {ts : List (List Char)}
      (gapped : ∀ c ∈ gap, c ∈ separators) (spells : Spells raw t) (ends : c ∈ separators)
      (later : Writes rest ts) : Writes (gap ++ (raw ++ c :: rest)) (t :: ts)

section Requests

variable {socketOptions : List SocketOption} {kernel : Kernel} {options : List Char}
  {ts : List (List Char)} {fuel : ℕ} {seen : List Event} {o : SocketOption}

/-- The texts of a string are taken off it, unless one of them does not fit. -/
theorem setSocketOptions_writes (written : Writes options ts) :
    Agrees (ts.length < fuel) (· = ·) (setSocketOptions socketOptions kernel fuel options seen)
      (if ∀ text ∈ ts, text.length < sizeofTok then
        some (ts.foldl (fun seen text => setOption socketOptions kernel text seen) seen)
      else none) := by
  induction fuel generalizing options ts seen with
  | zero => exact .unfinished _ _ (Nat.not_lt_zero _)
  | succ fuel ih =>
      have next {options rest t : List Char} {ts : List (List Char)}
          (taken : nextToken separators options = some (t, rest)) (later : Writes rest ts) :
          Agrees ((t :: ts).length < fuel + 1) (· = ·)
            (setSocketOptions socketOptions kernel (fuel + 1) options seen)
            (if ∀ text ∈ t :: ts, text.length < sizeofTok then
              some ((t :: ts).foldl
                (fun seen text => setOption socketOptions kernel text seen) seen)
            else none) := by
        rw [setSocketOptions, taken]
        simp only [List.forall_mem_cons, List.foldl_cons, List.length_cons]
        by_cases short : t.length < sizeofTok
        · rw [if_pos short]
          simp only [short, true_and]
          exact (ih later).of_imp Nat.lt_of_succ_lt_succ
        · rw [if_neg short, if_neg fun all => short all.1]
          exact .inl rfl
      cases written with
      | nil gapped =>
          rw [setSocketOptions, nextToken_gap gapped, if_pos (List.forall_mem_nil _)]
          exact .ok rfl
      | @last gap raw t gapped spells =>
          have taken : nextToken separators (gap ++ (raw ++ [])) = some (t, [].tail) :=
            nextToken_spells gapped spells (by simp)
          rw [List.append_nil] at taken
          exact next taken (.nil (List.forall_mem_nil _))
      | @more gap raw t rest c ts gapped spells ends later =>
          have taken : nextToken separators (gap ++ (raw ++ c :: rest)) =
              some (t, (c :: rest).tail) :=
            nextToken_spells gapped spells fun d first => Option.some.inj first ▸ ends
          exact next taken later

/-- A request to set an option, with a value if one is given. -/
structure Request where
  option : SocketOption
  value : Option Int32

/-- `NAME` or `NAME=value`. -/
def Request.text (r : Request) : List Char :=
  r.option.name ++
    match r.value with
    | none => []
    | some value => '=' :: value.toInt.repr.toList

/-- What a request asks for.  An option of type `OPT_ON` has a value of its own. -/
def Request.carryOut (kernel : Kernel) (seen : List Event) (r : Request) : List Event :=
  match r.option.opttype with
  | .bool | .int => callSetsockopt kernel r.option.name r.option (r.value.getD 1) seen
  | .on =>
      callSetsockopt kernel r.option.name r.option r.option.value
        (if r.value.isSome then
          seen ++ [.debug ("syntax error - " ++ String.ofList r.option.name ++
            " does not take a value\n")]
        else seen)

/-- The names of a table can be told apart, and from the values. -/
structure Proper (socketOptions : List SocketOption) : Prop where
  names : ∀ o ∈ socketOptions, '=' ∉ o.name
  apart : socketOptions.Pairwise fun o p => sameName o.name p.name = false

/-- An option is found by its name. -/
theorem Proper.find (proper : Proper socketOptions) (known : o ∈ socketOptions) :
    (socketOptions.find? fun p => sameName p.name o.name) = some o := by
  obtain ⟨before, behind, rfl⟩ := List.append_of_mem known
  refine List.find?_eq_some_iff_append.mpr ⟨by simp [sameName], before, behind, rfl, ?_⟩
  intro p mem
  have apart := (List.pairwise_append.mp proper.apart).2.2 p mem o List.mem_cons_self
  rw [apart]
  rfl

theorem isspace_of_isDigit {c : Char} (digit : c.isDigit) : isspace c = false := by
  unfold isspace
  by_contra space
  simp only [Bool.not_eq_false, List.contains_eq_mem, decide_eq_true_eq, List.mem_cons,
    List.not_mem_nil, or_false] at space
  rcases space with rfl | rfl | rfl | rfl | rfl | rfl <;> exact absurd digit (by decide)

/-- A number that is printed is read back. -/
theorem digits_toDigits (n : ℕ) : digits (Nat.toDigits 10 n) = n := by
  have all : ∀ c ∈ Nat.toDigits 10 n, c.isDigit :=
    fun c => Nat.isDigit_of_mem_toDigits (by decide) (by decide)
  rw [digits, ← List.append_nil (Nat.toDigits 10 n), List.takeWhile_append_of_pos all,
    List.takeWhile_nil, List.append_nil, Nat.ofDigitChars_ten_toDigits]

theorem number_toDigits (n : ℕ) : number (Nat.toDigits 10 n) = n := by
  have value := digits_toDigits n
  have all : ∀ c ∈ Nat.toDigits 10 n, c.isDigit :=
    fun c => Nat.isDigit_of_mem_toDigits (by decide) (by decide)
  generalize Nat.toDigits 10 n = ds at value all
  cases ds with
  | nil => exact value
  | cons c ds =>
      have digit := all c List.mem_cons_self
      unfold number
      rw [List.dropWhile_cons_of_neg (by simp [isspace_of_isDigit digit])]
      split
      · rename_i minus
        cases minus
        exact absurd digit (by decide)
      · rename_i plus
        cases plus
        exact absurd digit (by decide)
      · exact value

theorem number_repr (n : ℤ) : number n.repr.toList = n := by
  cases n with
  | ofNat n =>
      show number n.repr.toList = n
      rw [Nat.toList_repr, number_toDigits]
  | negSucc n =>
      have minus : (Int.negSucc n).repr.toList = '-' :: Nat.toDigits 10 (n + 1) := by
        rw [Int.repr, String.toList_append, Nat.toList_repr]
        rfl
      rw [minus]
      show -digits (Nat.toDigits 10 (n + 1)) = _
      rw [digits_toDigits]
      rfl

theorem atoi_repr (value : Int32) : atoi value.toInt.repr.toList = value := by
  have low := value.le_toInt
  have high := value.toInt_lt
  have inside : strtol value.toInt.repr.toList = value.toInt := by
    rw [strtol, number_repr, if_neg (by omega), if_neg (by omega)]
  rw [atoi, inside, Int32.ofInt_toInt]

/-- Other numbers are cut down. -/
example : atoi "4294967296".toList = 0 := by decide

/-- The body of the loop carries out the request that the token is the text of. -/
theorem setOption_text {r : Request} (proper : Proper socketOptions)
    (known : r.option ∈ socketOptions) :
    setOption socketOptions kernel r.text seen = r.carryOut kernel seen := by
  have inside : ∀ c ∈ r.option.name, decide (c ≠ '=') = true := fun c mem =>
    decide_eq_true (ne_of_mem_of_not_mem mem (proper.names _ known))
  have name : r.text.takeWhile (· ≠ '=') = r.option.name := by
    rw [Request.text, List.takeWhile_append_of_pos inside]
    cases r.value with
    | none => exact List.append_nil _
    | some value =>
        rw [List.takeWhile_cons_of_neg (by decide)]
        exact List.append_nil _
  have behind : ((r.text.dropWhile (· ≠ '=')).tail?.map atoi) = r.value := by
    rw [Request.text, List.dropWhile_append_of_pos inside]
    cases r.value with
    | none => rfl
    | some value =>
        rw [List.dropWhile_cons_of_neg (by decide)]
        exact congrArg some (atoi_repr value)
  have given : (r.text.dropWhile (· ≠ '=')).tail?.isSome = r.value.isSome := by
    rw [← behind, Option.isSome_map]
  unfold setOption Request.carryOut
  simp only [name, behind, given, proper.find known]

/-- **Requests are carried out.**  However requests for options of the table are written down, with
quotes or without and with any separators, `set_socket_options` makes the calls of `setsockopt` that
they ask for, in their order, and says which of them fail.  If the text of one has 200 characters it
is stored outside `tok`. -/
theorem setSocketOptions_sets {requests : List Request} (proper : Proper socketOptions)
    (known : ∀ r ∈ requests, r.option ∈ socketOptions)
    (written : Writes options (requests.map Request.text)) :
    Agrees (requests.length < fuel) (· = ·)
      (setSocketOptions socketOptions kernel fuel options seen)
      (if ∀ r ∈ requests, r.text.length < sizeofTok then
        some (requests.foldl (Request.carryOut kernel) seen)
      else none) := by
  have carried : ∀ seen, (requests.map Request.text).foldl
      (fun seen text => setOption socketOptions kernel text seen) seen =
        requests.foldl (Request.carryOut kernel) seen := by
    clear written
    induction requests with
    | nil => exact fun seen => rfl
    | cons r requests ih =>
        intro seen
        obtain ⟨here, later⟩ := List.forall_mem_cons.mp known
        rw [List.map_cons, List.foldl_cons, List.foldl_cons, setOption_text proper here]
        exact ih later _
  have all : Agrees ((requests.map Request.text).length < fuel) (· = ·)
      (setSocketOptions socketOptions kernel fuel options seen) _ := setSocketOptions_writes written
  simp only [List.forall_mem_map, carried, List.length_map] at all
  exact all

/-- The options that the test programs use, and one with a value. -/
def someOptions : List SocketOption :=
  [⟨"SO_SNDBUF".toList, 1, 7, 0, .int⟩, ⟨"TCP_NODELAY".toList, 6, 1, 0, .bool⟩,
    ⟨"IPTOS_THROUGHPUT".toList, 0, 1, 8, .on⟩]

def someRequests : List Request :=
  [⟨⟨"TCP_NODELAY".toList, 6, 1, 0, .bool⟩, none⟩,
    ⟨⟨"SO_SNDBUF".toList, 1, 7, 0, .int⟩, some 65536⟩,
    ⟨⟨"IPTOS_THROUGHPUT".toList, 0, 1, 8, .on⟩, none⟩]

theorem writes_someRequests :
    Writes "TCP_NODELAY, \"SO_SNDBUF=65536\" IPTOS_THROUGHPUT".toList
      (someRequests.map Request.text) := by
  have nodelay : Spells "TCP_NODELAY".toList "TCP_NODELAY".toList :=
    ⟨by simp, .inr ⟨rfl, by simp, by simp [separators]⟩⟩
  have sndbuf : Spells "\"SO_SNDBUF=65536\"".toList "SO_SNDBUF=65536".toList :=
    ⟨by simp, .inl rfl⟩
  have throughput : Spells "IPTOS_THROUGHPUT".toList "IPTOS_THROUGHPUT".toList :=
    ⟨by simp, .inr ⟨rfl, by simp, by simp [separators]⟩⟩
  have comma : ',' ∈ separators := by simp [separators]
  have blank : ' ' ∈ separators := by simp [separators]
  have nothing : ∀ c ∈ ([] : List Char), c ∈ separators := List.forall_mem_nil _
  have last : Writes ([] ++ "IPTOS_THROUGHPUT".toList) ["IPTOS_THROUGHPUT".toList] :=
    .last nothing throughput
  have quoted : Writes ([' '] ++ ("\"SO_SNDBUF=65536\"".toList ++ ' ' :: _))
      ["SO_SNDBUF=65536".toList, "IPTOS_THROUGHPUT".toList] :=
    .more (List.forall_mem_singleton.mpr blank) sndbuf blank last
  exact .more nothing nodelay comma quoted

theorem setSocketOptions_sets_someRequests :
    setSocketOptions someOptions (fun _ _ _ => 0) 4
        "TCP_NODELAY, \"SO_SNDBUF=65536\" IPTOS_THROUGHPUT".toList [] =
      .ok [.setsockopt 6 1 1, .setsockopt 1 7 65536, .setsockopt 0 1 8] := by
  have sets : Agrees _ _ (setSocketOptions someOptions (fun _ _ _ => 0) 4 _ []) _ :=
    setSocketOptions_sets ⟨by decide, by decide⟩ (by decide) writes_someRequests
  rw [if_pos (by decide)] at sets
  obtain ⟨seen, ran, rfl⟩ := Ends.finished sets (by decide)
  exact ran

end Requests

end Cjunk.Socklib
