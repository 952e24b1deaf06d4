import Mathlib.Algebra.Order.Ring.Int
import Mathlib.Tactic.Ring
import Cjunk.Lib.CountedLoop

/-!
# The unscramble map

`main` of `unscrambla.c` up to the writing of the file: four nested runs of assignments
fill a matrix of `COL` by `ROW` pixels with the numbers of the pixels in the order the
detector delivers them.  `CHANNELS` is a parameter `c`, and `COL` and `ROW` are `8 * c`.

Next to each cell the model counts how often it has been assigned.

`main_picture` is the result: the counters of the loops in closed form, so that the
matrix is filled `Place` by `Place`.
-/

namespace Cjunk.Unscramble

open CountedLoop

/-! ## The program -/

/-- The matrix, and how often each of its cells has been assigned. -/
structure Picture where
  value : ℤ → ℤ → ℤ
  times : ℤ → ℤ → ℕ

namespace Picture

/-- `matrix[row][col] = v;` -/
def assign (row col v : ℤ) (m : Picture) : Picture where
  value r k := if r = row ∧ k = col then v else m.value r k
  times r k := if r = row ∧ k = col then m.times r k + 1 else m.times r k

/-- `memset(&matrix, 0x11, sizeof(matrix));` -/
def blank : Picture where
  value _ _ := 0x11111111
  times _ _ := 0

end Picture

/-- The variables of `main`. -/
structure State where
  picture : Picture := .blank
  cntr : ℤ := 0
  s : ℤ := 0
  k : ℤ := 0
  left : ℤ
  right : ℤ

namespace State

/-- `matrix[row][col] = cntr++;` -/
def store (row col : ℤ) (t : State) : State :=
  { t with picture := t.picture.assign row col t.cntr, cntr := t.cntr + 1 }

/-- The end of an odd turn. -/
def nextBlock (i : ℕ) (t : State) : State :=
  let t := { t with s := t.s + 1 }
  if (i + 1) % 8 = 0 then { t with s := 0, k := t.k + 1 } else t

end State

open State

section

variable (c : ℕ)

/-- `COL`, which is also `ROW`. -/
def col : ℕ := 8 * c

/-- The first inner loop. -/
def firstLoop (i : ℕ) (t : State) : State :=
  let row : ℤ := col c
  if i % 2 = 0 then
    let t := store (c * (t.s + 1) - 1 - t.k) t.left t
    store (c * t.s + t.k) t.right t
  else
    let t := store (row / 2 + c * (t.s + 1) - 1 - t.k) t.left t
    let t := store (row / 2 + c * t.s + t.k) t.right t
    nextBlock i t

/-- The second inner loop, "going from 0 up to 127". -/
def secondLoop (i : ℕ) (t : State) : State :=
  let row : ℤ := col c
  if i % 2 = 0 then
    let t := store (c / 2 - 1 - t.k + c * t.s) t.left t
    store (c / 2 + t.k + c * t.s) t.right t
  else
    let t := store (row / 2 + c / 2 - 1 - t.k + c * t.s) t.left t
    let t := store (row / 2 + c / 2 + t.k + c * t.s) t.right t
    nextBlock i t

/-- The body of the loop over `p`. -/
def columns (t : State) : State :=
  let t := upTo (col c / 2) (firstLoop c) t
  let t := { t with k := 0, s := 0 }
  let t := upTo (col c / 2) (secondLoop c) t
  { t with left := t.left - 1, right := t.right + 1, k := 0 }

/-- `main`. -/
def main : State :=
  upTo (col c / 2) (fun _ => columns c) { left := col c / 2 - 1, right := col c / 2 }

end

/-! ## The places -/

/-- An assignment: the turn of the outer loop, the inner loop and its turn, and the side. -/
structure Place where
  p : ℕ
  second : Bool
  i : ℕ
  right : Bool
  deriving DecidableEq

namespace Place

variable (c : ℕ) (q : Place)

/-- Where in its block of `CHANNELS` rows the cell is. -/
def offset : ℤ :=
  match q.second, q.right with
  | false, false => c - 1 - (q.i / 8 : ℕ)
  | false, true => (q.i / 8 : ℕ)
  | true, false => c / 2 - 1 - (q.i / 8 : ℕ)
  | true, true => c / 2 + (q.i / 8 : ℕ)

/-- The block of `CHANNELS` rows: four in the upper half, four in the lower. -/
def block : ℕ := 4 * (q.i % 2) + q.i % 8 / 2

def row : ℤ := c * q.block + q.offset c

def column : ℤ := if q.right then 4 * c + q.p else 4 * c - 1 - q.p

/-- The number of the pixel. -/
def pixel : ℕ := 16 * c * q.p + (if q.second then 8 * c else 0) + 2 * q.i + q.right.toNat

end Place

/-- The assignment of a place. -/
def Picture.put (c : ℕ) (q : Place) (m : Picture) : Picture :=
  m.assign (q.row c) (q.column c) (q.pixel c)

section

variable (c p : ℕ)

/-- A turn of an inner loop. -/
def turn (second : Bool) (i : ℕ) (m : Picture) : Picture :=
  (m.put c ⟨p, second, i, false⟩).put c ⟨p, second, i, true⟩

/-- A turn of the outer loop. -/
def fillColumns (m : Picture) : Picture :=
  upTo (4 * c) (turn c p true) (upTo (4 * c) (turn c p false) m)

/-- All assignments. -/
def fill : Picture := upTo (4 * c) (fillColumns c) .blank

end

/-! ## The counters in closed form -/

/-- The state at turn `i` of an inner loop in turn `p` of the outer one. -/
structure At (c p : ℕ) (second : Bool) (i : ℕ) (t : State) : Prop where
  cntr : t.cntr = (Place.pixel c ⟨p, second, i, false⟩ : ℕ)
  s : t.s = (i % 8 / 2 : ℕ)
  k : t.k = (i / 8 : ℕ)
  left : t.left = 4 * c - 1 - p
  right : t.right = 4 * c + p

section

variable {c p i : ℕ} {second : Bool} {t : State}

/-- The two assignments of a turn, if they are to the right rows. -/
theorem At.stores (h : At c p second i t) {left right : ℤ}
    (atLeft : left = Place.row c ⟨p, second, i, false⟩)
    (atRight : right = Place.row c ⟨p, second, i, true⟩) :
    (store right t.right (store left t.left t)).picture = turn c p second i t.picture ∧
      (store right t.right (store left t.left t)).cntr =
        (Place.pixel c ⟨p, second, i + 1, false⟩ : ℕ) := by
  have next : t.cntr + 1 = (Place.pixel c ⟨p, second, i, true⟩ : ℕ) := by
    rw [h.cntr]
    simp [Place.pixel]
  have later : (Place.pixel c ⟨p, second, i + 1, false⟩ : ℤ) = t.cntr + 1 + 1 := by
    rw [h.cntr]
    simp only [Place.pixel]
    push_cast
    ring
  refine ⟨?_, later.symm⟩
  unfold turn Picture.put
  rw [← atLeft, ← atRight, ← next, ← h.cntr]
  unfold store Place.column
  rw [h.left, h.right]
  rfl

/-- The counters after an even turn. -/
theorem At.evenTurn (even : i % 2 = 0) (h : At c p second i t) {t' : State}
    (cntr : t'.cntr = (Place.pixel c ⟨p, second, i + 1, false⟩ : ℕ)) (s : t'.s = t.s)
    (k : t'.k = t.k) (left : t'.left = t.left) (right : t'.right = t.right) :
    At c p second (i + 1) t' := by
  refine ⟨cntr, ?_, ?_, left.trans h.left, right.trans h.right⟩
  · rw [s, h.s]
    omega
  · rw [k, h.k]
    omega

/-- The counters after an odd turn. -/
theorem At.oddTurn (odd : ¬ i % 2 = 0) (h : At c p second i t) {t' : State}
    (cntr : t'.cntr = (Place.pixel c ⟨p, second, i + 1, false⟩ : ℕ)) (s : t'.s = t.s)
    (k : t'.k = t.k) (left : t'.left = t.left) (right : t'.right = t.right) :
    At c p second (i + 1) (nextBlock i t') := by
  have hs := h.s
  have hk := h.k
  unfold nextBlock
  dsimp only
  split_ifs with last
  · refine ⟨cntr, ?_, ?_, left.trans h.left, right.trans h.right⟩
    · show (0 : ℤ) = _
      omega
    · show t'.k + 1 = _
      omega
  · refine ⟨cntr, ?_, ?_, left.trans h.left, right.trans h.right⟩
    · show t'.s + 1 = _
      omega
    · show t'.k = _
      omega

theorem nextBlock_picture (i : ℕ) (t : State) : (nextBlock i t).picture = t.picture := by
  unfold nextBlock
  dsimp only
  split_ifs <;> rfl

/-- `ROW / 2`. -/
theorem half_col (c : ℕ) : ((col c : ℕ) : ℤ) / 2 = 4 * c := by
  unfold col
  omega

theorem firstLoop_at (h : At c p false i t) : At c p false (i + 1) (firstLoop c i t) ∧
    (firstLoop c i t).picture = turn c p false i t.picture := by
  unfold firstLoop
  dsimp only
  split_ifs with even
  · have atLeft : (c : ℤ) * (t.s + 1) - 1 - t.k = Place.row c ⟨p, false, i, false⟩ := by
      rw [h.s, h.k]
      simp only [Place.row, Place.block, Place.offset, even]
      push_cast
      ring
    have atRight : (c : ℤ) * t.s + t.k = Place.row c ⟨p, false, i, true⟩ := by
      rw [h.s, h.k]
      simp only [Place.row, Place.block, Place.offset, even]
      push_cast
      ring
    obtain ⟨picture, cntr⟩ := h.stores atLeft atRight
    exact ⟨h.evenTurn even cntr rfl rfl rfl rfl, picture⟩
  · have odd : i % 2 = 1 := Nat.mod_two_ne_zero.mp even
    have atLeft : ((col c : ℕ) : ℤ) / 2 + c * (t.s + 1) - 1 - t.k =
        Place.row c ⟨p, false, i, false⟩ := by
      rw [h.s, h.k, half_col]
      simp only [Place.row, Place.block, Place.offset, odd]
      push_cast
      ring
    have atRight : ((col c : ℕ) : ℤ) / 2 + c * t.s + t.k = Place.row c ⟨p, false, i, true⟩ := by
      rw [h.s, h.k, half_col]
      simp only [Place.row, Place.block, Place.offset, odd]
      push_cast
      ring
    obtain ⟨picture, cntr⟩ := h.stores atLeft atRight
    exact ⟨h.oddTurn even cntr rfl rfl rfl rfl, (nextBlock_picture i _).trans picture⟩

theorem secondLoop_at (h : At c p true i t) : At c p true (i + 1) (secondLoop c i t) ∧
    (secondLoop c i t).picture = turn c p true i t.picture := by
  unfold secondLoop
  dsimp only
  split_ifs with even
  · have atLeft : (c : ℤ) / 2 - 1 - t.k + c * t.s = Place.row c ⟨p, true, i, false⟩ := by
      rw [h.s, h.k]
      simp only [Place.row, Place.block, Place.offset, even]
      push_cast
      ring
    have atRight : (c : ℤ) / 2 + t.k + c * t.s = Place.row c ⟨p, true, i, true⟩ := by
      rw [h.s, h.k]
      simp only [Place.row, Place.block, Place.offset, even]
      push_cast
      ring
    obtain ⟨picture, cntr⟩ := h.stores atLeft atRight
    exact ⟨h.evenTurn even cntr rfl rfl rfl rfl, picture⟩
  · have odd : i % 2 = 1 := Nat.mod_two_ne_zero.mp even
    have atLeft : ((col c : ℕ) : ℤ) / 2 + c / 2 - 1 - t.k + c * t.s =
        Place.row c ⟨p, true, i, false⟩ := by
      rw [h.s, h.k, half_col]
      simp only [Place.row, Place.block, Place.offset, odd]
      push_cast
      ring
    have atRight : ((col c : ℕ) : ℤ) / 2 + c / 2 + t.k + c * t.s =
        Place.row c ⟨p, true, i, true⟩ := by
      rw [h.s, h.k, half_col]
      simp only [Place.row, Place.block, Place.offset, odd]
      push_cast
      ring
    obtain ⟨picture, cntr⟩ := h.stores atLeft atRight
    exact ⟨h.oddTurn even cntr rfl rfl rfl rfl, (nextBlock_picture i _).trans picture⟩

end

/-- `COL / 2`. -/
theorem col_half (c : ℕ) : col c / 2 = 4 * c := by
  unfold col
  omega

/-- The body of the outer loop fills two columns, and leaves the counters for the next
turn. -/
theorem columns_at {c p : ℕ} {t : State} (even : Even c) (h : At c p false 0 t) :
    At c (p + 1) false 0 (columns c t) ∧ (columns c t).picture = fillColumns c p t.picture := by
  obtain ⟨d, rfl⟩ := even
  unfold columns fillColumns
  dsimp only
  rw [col_half]
  obtain ⟨first, firstPicture⟩ := upTo_simulates State.picture (At (d + d) p false) h
    fun i _ t h => firstLoop_at h
  set u := upTo (4 * (d + d)) (firstLoop (d + d)) t with hu
  have between : At (d + d) p true 0 { u with k := 0, s := 0 } := by
    refine ⟨?_, rfl, rfl, first.left, first.right⟩
    show u.cntr = _
    rw [first.cntr]
    simp only [Place.pixel, Bool.toNat_false]
    push_cast
    ring
  obtain ⟨second, secondPicture⟩ := upTo_simulates State.picture (At (d + d) p true) between
    fun i _ t h => secondLoop_at h
  set v := upTo (4 * (d + d)) (secondLoop (d + d)) { u with k := 0, s := 0 } with hv
  constructor
  · refine ⟨?_, ?_, rfl, ?_, ?_⟩
    · show v.cntr = _
      rw [second.cntr]
      simp only [Place.pixel, Bool.toNat_false]
      push_cast
      ring
    · show v.s = _
      rw [second.s]
      omega
    · show v.left - 1 = _
      rw [second.left]
      push_cast
      ring
    · show v.right + 1 = _
      rw [second.right]
      push_cast
      ring
  · show v.picture = _
    rw [secondPicture, ← firstPicture]

/-- **The counters in closed form.**  `main` fills the matrix place by place. -/
theorem main_picture {c : ℕ} (even : Even c) : (main c).picture = fill c := by
  have start : At c 0 false 0 { left := col c / 2 - 1, right := col c / 2 } := by
    refine ⟨?_, rfl, rfl, ?_, ?_⟩
    · simp [Place.pixel]
    · show ((col c : ℕ) : ℤ) / 2 - 1 = _
      rw [half_col]
      simp
    · show ((col c : ℕ) : ℤ) / 2 = _
      rw [half_col]
      simp
  unfold main fill
  rw [col_half]
  exact (upTo_simulates State.picture (fun p t => At c p false 0 t) start
    fun p _ t h => columns_at even h).2

end Cjunk.Unscramble
