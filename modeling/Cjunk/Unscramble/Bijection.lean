import Mathlib.Data.Set.Function
import Cjunk.Unscramble.Unscrambla

/-!
# The unscramble map is a bijection

The places of the assignments are the cells of the matrix, each once, and their pixels
are the numbers below `COL * ROW`, each once.  `Place.row` and `Place.column` take a place
to its cell and `Place.pixel` to its number; both are injective and onto, by division with
remainder.

`unscramble_bijective` is the result, for every even number of channels.
-/

namespace Cjunk.Unscramble

open CountedLoop

/-- A cell of the matrix. -/
def InMatrix (c : ℕ) (cell : ℤ × ℤ) : Prop :=
  (0 ≤ cell.1 ∧ cell.1 < col c) ∧ 0 ≤ cell.2 ∧ cell.2 < col c

/-- Each cell has been assigned once and nothing outside the matrix has, and the values of
the cells are a permutation of the numbers below `COL * ROW`. -/
structure Unscrambled (c : ℕ) (m : Picture) : Prop where
  once : ∀ r k, InMatrix c (r, k) → m.times r k = 1
  inside : ∀ r k, ¬ InMatrix c (r, k) → m.times r k = 0
  bijective : Set.BijOn (fun cell : ℤ × ℤ => m.value cell.1 cell.2) {cell | InMatrix c cell}
    {v | 0 ≤ v ∧ v < (col c * col c : ℕ)}

namespace Place

/-- A place that the loops come to. -/
def Valid (c : ℕ) (q : Place) : Prop := q.p < 4 * c ∧ q.i < 4 * c

/-- The cell of a place. -/
def cell (c : ℕ) (q : Place) : ℤ × ℤ := (q.row c, q.column c)

/-! ## Places and cells -/

/-- Division with remainder is unique. -/
theorem digits_unique {b q q' r r' : ℤ} (low : 0 ≤ r ∧ r < b) (low' : 0 ≤ r' ∧ r' < b)
    (same : b * q + r = b * q' + r') : q = q' ∧ r = r' := by
  have first := (Int.ediv_emod_unique (lt_of_le_of_lt low.1 low.2)).mpr
    ⟨add_comm r (b * q), low.1, low.2⟩
  have second := (Int.ediv_emod_unique (lt_of_le_of_lt low.1 low.2)).mpr
    ⟨add_comm r' (b * q'), low'.1, low'.2⟩
  rw [same] at first
  exact ⟨first.1.symm.trans second.1, first.2.symm.trans second.2⟩

variable {c : ℕ} {q q' : Place}

/-- The offset is one of the `CHANNELS` rows of a block. -/
theorem offset_mem (even : Even c) (valid : q.Valid c) : 0 ≤ q.offset c ∧ q.offset c < c := by
  obtain ⟨d, rfl⟩ := even
  have := valid.2
  unfold offset
  split <;> constructor <;> omega

/-- A cell belongs to one place. -/
theorem cell_injOn (even : Even c) : Set.InjOn (cell c) {q | q.Valid c} := by
  intro q valid q' valid' same
  have row : q.row c = q'.row c := congrArg Prod.fst same
  have column : q.column c = q'.column c := congrArg Prod.snd same
  obtain ⟨block, offset⟩ := digits_unique (offset_mem even valid) (offset_mem even valid') row
  obtain ⟨d, rfl⟩ := even
  obtain ⟨p, second, i, right⟩ := q
  obtain ⟨p', second', i', right'⟩ := q'
  obtain ⟨hp, hi⟩ : p < 4 * (d + d) ∧ i < 4 * (d + d) := valid
  obtain ⟨hp', hi'⟩ : p' < 4 * (d + d) ∧ i' < 4 * (d + d) := valid'
  -- The column tells the side and the turn of the outer loop.
  obtain ⟨rfl, rfl⟩ : right = right' ∧ p = p' := by
    unfold Place.column at column
    cases right <;> cases right' <;> simp at column ⊢ <;> omega
  -- The offset in the block tells the inner loop and `i / 8`, the block `i % 8`.
  obtain ⟨rfl, eighth⟩ : second = second' ∧ i / 8 = i' / 8 := by
    unfold Place.offset at offset
    cases second <;> cases second' <;> cases right <;> simp at offset ⊢ <;> omega
  unfold Place.block at block
  dsimp only at block
  have three : i % 8 / 2 ≤ 3 ∧ i' % 8 / 2 ≤ 3 := by omega
  have parity : i % 2 = i' % 2 := by omega
  have pair : i % 8 / 2 = i' % 8 / 2 := by omega
  have : i = i' := by omega
  rw [this]

/-- Every cell belongs to a place. -/
theorem exists_cell (even : Even c) {cell : ℤ × ℤ} (inMatrix : InMatrix c cell) :
    ∃ q : Place, q.Valid c ∧ q.cell c = cell := by
  obtain ⟨r, k⟩ := cell
  obtain ⟨d, rfl⟩ := even
  obtain ⟨⟨r0, r1⟩, k0, k1⟩ : (0 ≤ r ∧ r < col (d + d)) ∧ 0 ≤ k ∧ k < col (d + d) := inMatrix
  unfold col at r1 k1
  obtain ⟨right, p, hp, column⟩ : ∃ (right : Bool) (p : ℕ), p < 4 * (d + d) ∧
      k = if right then 4 * ((d + d : ℕ) : ℤ) + p else 4 * ((d + d : ℕ) : ℤ) - 1 - p := by
    by_cases half : k < 4 * ((d + d : ℕ) : ℤ)
    · exact ⟨false, (4 * ((d + d : ℕ) : ℤ) - 1 - k).toNat, by omega, by simp; omega⟩
    · exact ⟨true, (k - 4 * ((d + d : ℕ) : ℤ)).toNat, by omega, by simp; omega⟩
  have positive : (0 : ℤ) < ((d + d : ℕ) : ℤ) := by omega
  -- The block and the row in it.
  have split := Int.mul_ediv_add_emod r ((d + d : ℕ) : ℤ)
  have off0 := Int.emod_nonneg r positive.ne'
  have off1 := Int.emod_lt_of_pos r positive
  have block0 : 0 ≤ r / ((d + d : ℕ) : ℤ) := Int.ediv_nonneg r0 positive.le
  have block1 : r / ((d + d : ℕ) : ℤ) < 8 := Int.ediv_lt_of_lt_mul positive (by omega)
  revert split off0 off1 block0 block1
  generalize r / ((d + d : ℕ) : ℤ) = b
  generalize r % ((d + d : ℕ) : ℤ) = off
  intro split off0 off1 block0 block1
  obtain ⟨second, e, he, offset⟩ : ∃ (second : Bool) (e : ℕ), e < d ∧
      ∀ i, i / 8 = e → Place.offset (d + d) ⟨p, second, i, right⟩ = off := by
    unfold Place.offset
    cases right
    · by_cases half : off < d
      · exact ⟨true, (d - 1 - off).toNat, by omega, fun i hi => by simp; omega⟩
      · exact ⟨false, (2 * d - 1 - off).toNat, by omega, fun i hi => by simp; omega⟩
    · by_cases half : off < d
      · exact ⟨false, off.toNat, by omega, fun i hi => by simp; omega⟩
      · exact ⟨true, (off - d).toNat, by omega, fun i hi => by simp; omega⟩
  obtain ⟨n, rfl⟩ := Int.eq_ofNat_of_zero_le block0
  have block : Place.block ⟨p, second, 8 * e + 2 * (n % 4) + n / 4, right⟩ = n := by
    have parity : (8 * e + 2 * (n % 4) + n / 4) % 2 = n / 4 := by omega
    have eighth : (8 * e + 2 * (n % 4) + n / 4) % 8 = 2 * (n % 4) + n / 4 := by omega
    have pair : (2 * (n % 4) + n / 4) / 2 = n % 4 := by omega
    unfold Place.block
    dsimp only
    rw [parity, eighth, pair]
    omega
  refine ⟨⟨p, second, 8 * e + 2 * (n % 4) + n / 4, right⟩, ⟨hp, ?_⟩, Prod.ext ?_ column.symm⟩
  · show 8 * e + 2 * (n % 4) + n / 4 < 4 * (d + d)
    omega
  · show Place.row (d + d) _ = r
    unfold Place.row
    rw [block, offset _ (by omega)]
    exact split

/-- The cell of a place is in the matrix. -/
theorem cell_inMatrix (even : Even c) (valid : q.Valid c) : InMatrix c (q.cell c) := by
  obtain ⟨low, high⟩ := offset_mem even valid
  have block : (q.block : ℤ) ≤ 7 := by
    unfold block
    omega
  have inRows : 0 ≤ q.row c ∧ q.row c < col c := by
    unfold row col
    have below : (c : ℤ) * q.block ≤ c * 7 := mul_le_mul_of_nonneg_left block (by omega)
    have above : 0 ≤ (c : ℤ) * q.block := mul_nonneg (by omega) (by omega)
    constructor <;> omega
  have inColumns : 0 ≤ q.column c ∧ q.column c < col c := by
    have := valid.1
    unfold column col
    split <;> constructor <;> omega
  exact ⟨inRows, inColumns⟩

/-! ## Places and pixels -/

/-- A pixel belongs to one place. -/
theorem pixel_injOn : Set.InjOn (pixel c) {q | q.Valid c} := by
  intro q valid q' valid' same
  obtain ⟨p, second, i, right⟩ := q
  obtain ⟨p', second', i', right'⟩ := q'
  obtain ⟨-, hi⟩ : p < 4 * c ∧ i < 4 * c := valid
  obtain ⟨-, hi'⟩ : p' < 4 * c ∧ i' < 4 * c := valid'
  have same : ((16 * c : ℕ) : ℤ) * p + ((if second then 8 * c else 0) + 2 * i + right.toNat : ℕ) =
      ((16 * c : ℕ) : ℤ) * p' + ((if second' then 8 * c else 0) + 2 * i' + right'.toNat : ℕ) := by
    simp only [pixel, add_assoc] at same ⊢
    exact_mod_cast same
  have side := right.toNat_le
  have side' := right'.toNat_le
  have low : (if second then 8 * c else 0) + 2 * i + right.toNat < 16 * c := by
    split <;> omega
  have low' : (if second' then 8 * c else 0) + 2 * i' + right'.toNat < 16 * c := by
    split <;> omega
  obtain ⟨turn, rest⟩ := digits_unique ⟨by omega, Int.ofNat_lt.mpr low⟩
    ⟨by omega, Int.ofNat_lt.mpr low'⟩ same
  have loop : second = second' := by
    cases second <;> cases second' <;> simp at rest ⊢ <;> omega
  subst loop
  have : right = right' := by
    cases right <;> cases right' <;> simp at rest ⊢ <;> omega
  subst this
  obtain rfl : p = p' := by omega
  obtain rfl : i = i' := by omega
  rfl

/-- Every number below `COL * ROW` is the pixel of a place. -/
theorem exists_pixel {v : ℕ} (below : v < col c * col c) :
    ∃ q : Place, q.Valid c ∧ q.pixel c = v := by
  unfold col at below
  have positive : 0 < 16 * c := by
    by_contra none
    have : c = 0 := by omega
    simp [this] at below
  have split := Nat.div_add_mod v (16 * c)
  have low := Nat.mod_lt v positive
  have turn : v / (16 * c) < 4 * c := by
    rw [Nat.div_lt_iff_lt_mul positive]
    calc v < 8 * c * (8 * c) := below
      _ = 4 * c * (16 * c) := by ring
  generalize v / (16 * c) = p at *
  generalize v % (16 * c) = r at *
  obtain ⟨second, e, he, rest⟩ : ∃ (second : Bool) (e : ℕ), e < 8 * c ∧
      r = (if second then 8 * c else 0) + e := by
    by_cases half : r < 8 * c
    · exact ⟨false, r, half, by simp⟩
    · exact ⟨true, r - 8 * c, by omega, by simp; omega⟩
  refine ⟨⟨p, second, e / 2, decide (e % 2 = 1)⟩, ⟨turn, ?_⟩, ?_⟩
  · show e / 2 < 4 * c
    omega
  · have side : (decide (e % 2 = 1)).toNat = e % 2 := by
      by_cases odd : e % 2 = 1
      · simp [odd]
      · simp [odd]
        omega
    unfold pixel
    dsimp only
    rw [side]
    omega

/-- Pixels are numbered below `COL * ROW`. -/
theorem pixel_lt (valid : q.Valid c) : q.pixel c < col c * col c := by
  obtain ⟨hp, hi⟩ := valid
  have side := q.right.toNat_le
  have low : (if q.second then 8 * c else 0) + 2 * q.i + q.right.toNat < 16 * c := by
    split <;> omega
  have turns : 16 * c * (q.p + 1) ≤ 16 * c * (4 * c) := Nat.mul_le_mul_left _ hp
  have all : 16 * c * (4 * c) = col c * col c := by
    unfold col
    ring
  unfold pixel
  rw [← all]
  rw [mul_add, mul_one] at turns
  omega

end Place

/-! ## The matrix at one cell -/

/-- The value of a cell and how often it has been assigned. -/
def Picture.at (x : ℤ × ℤ) (m : Picture) : ℤ × ℕ := (m.value x.1 x.2, m.times x.1 x.2)

/-- What one assignment of `v` makes of a cell. -/
def stamp (v : ℤ) (old : ℤ × ℕ) : ℤ × ℕ := (v, old.2 + 1)

section

variable {c p i : ℕ} {second : Bool} {q : Place} {x : ℤ × ℤ}

theorem put_own (q : Place) (m : Picture) :
    (m.put c q).at (q.cell c) = stamp (q.pixel c) (m.at (q.cell c)) := by
  simp [Picture.at, Picture.put, Picture.assign, Place.cell, stamp]

theorem put_other (other : q.cell c ≠ x) (m : Picture) : (m.put c q).at x = m.at x := by
  have : ¬ (x.1 = q.row c ∧ x.2 = q.column c) := fun same =>
    other (Prod.ext same.1.symm same.2.symm)
  simp [Picture.at, Picture.put, Picture.assign, this]

theorem turn_other (other : ∀ right, Place.cell c ⟨p, second, i, right⟩ ≠ x) (m : Picture) :
    (turn c p second i m).at x = m.at x := by
  unfold turn
  rw [put_other (other true), put_other (other false)]

theorem fillColumns_other
    (other : ∀ second i right, i < 4 * c → Place.cell c ⟨p, second, i, right⟩ ≠ x) (m : Picture) :
    (fillColumns c p m).at x = m.at x := by
  unfold fillColumns
  rw [upTo_keeps (Picture.at x) fun i below => turn_other fun right => other true i right below,
    upTo_keeps (Picture.at x) fun i below => turn_other fun right => other false i right below]

/-- What is no cell of the matrix is never assigned. -/
theorem fill_other (other : ∀ q : Place, q.Valid c → q.cell c ≠ x) :
    (fill c).at x = Picture.blank.at x :=
  upTo_keeps (Picture.at x) (fun _ p_lt s => fillColumns_other
    (fun _ _ _ i_lt => other _ ⟨p_lt, i_lt⟩) s) .blank

/-- The turn of a place assigns its cell. -/
theorem turn_own (even : Even c) (valid : q.Valid c) (m : Picture) :
    (turn c q.p q.second q.i m).at (q.cell c) = stamp (q.pixel c) (m.at (q.cell c)) := by
  have apart : ∀ right, right ≠ q.right → Place.cell c ⟨q.p, q.second, q.i, right⟩ ≠ q.cell c :=
    fun right ne same => ne (congrArg Place.right (Place.cell_injOn even
      (show Place.Valid c ⟨q.p, q.second, q.i, right⟩ from valid) valid same))
  obtain ⟨p, second, i, right⟩ := q
  unfold turn
  cases right with
  | false => rw [put_other (apart true (by simp)), put_own]
  | true => rw [put_own, put_other (apart false (by simp))]

/-- No other turn assigns it. -/
theorem turn_apart (even : Even c) (valid : q.Valid c) (p_lt : p < 4 * c) (i_lt : i < 4 * c)
    (apart : ¬ (p = q.p ∧ second = q.second ∧ i = q.i)) (m : Picture) :
    (turn c p second i m).at (q.cell c) = m.at (q.cell c) := by
  apply turn_other
  intro right same
  have : (⟨p, second, i, right⟩ : Place) = q :=
    Place.cell_injOn even ⟨p_lt, i_lt⟩ valid same
  subst this
  exact apart ⟨rfl, rfl, rfl⟩

/-- The turn of the outer loop of a place assigns its cell once. -/
theorem fillColumns_own (even : Even c) (valid : q.Valid c) (m : Picture) :
    (fillColumns c q.p m).at (q.cell c) = stamp (q.pixel c) (m.at (q.cell c)) := by
  have own := fun s => turn_own even valid s
  have apart : ∀ second, second ≠ q.second → ∀ s,
      (upTo (4 * c) (turn c q.p second) s).at (q.cell c) = s.at (q.cell c) := fun second ne s =>
    upTo_keeps (Picture.at (q.cell c)) (fun i below s =>
      turn_apart even valid valid.1 below (fun same => ne same.2.1) s) s
  have only : ∀ s, (upTo (4 * c) (turn c q.p q.second) s).at (q.cell c) =
      stamp (q.pixel c) (s.at (q.cell c)) := fun s =>
    upTo_only (Picture.at (q.cell c)) valid.2 own (fun i below ne s =>
      turn_apart even valid valid.1 below (fun same => ne same.2.2) s) s
  unfold fillColumns
  cases side : q.second with
  | false =>
      rw [side] at only
      rw [apart true (by simp [side]), only]
  | true =>
      rw [side] at only
      rw [only, apart false (by simp [side])]

/-- **Every cell holds the number of its place**, and has been assigned once. -/
theorem fill_own (even : Even c) (valid : q.Valid c) :
    (fill c).value (q.cell c).1 (q.cell c).2 = q.pixel c ∧
      (fill c).times (q.cell c).1 (q.cell c).2 = 1 := by
  have only : (fill c).at (q.cell c) = stamp (q.pixel c) (Picture.blank.at (q.cell c)) := by
    refine upTo_only (Picture.at (q.cell c)) valid.1 (fillColumns_own even valid) ?_ .blank
    refine fun p p_lt ne s => fillColumns_other (fun second i right i_lt same => ?_) s
    exact ne (congrArg Place.p (Place.cell_injOn even
      (show Place.Valid c ⟨p, second, i, right⟩ from ⟨p_lt, i_lt⟩) valid same))
  exact ⟨congrArg Prod.fst only, congrArg Prod.snd only⟩

end

/-- **The unscramble map is a bijection.**  Whatever even number of channels, the loops
assign every cell of the matrix once and nothing else, and the cells hold the numbers below
`COL * ROW`, each once. -/
theorem unscramble_bijective {c : ℕ} (even : Even c) : Unscrambled c (main c).picture := by
  rw [main_picture even]
  refine ⟨?_, ?_, ?_, ?_, ?_⟩
  · intro r k inMatrix
    obtain ⟨q, valid, cell⟩ := Place.exists_cell even inMatrix
    have once := (fill_own even valid).2
    rwa [cell] at once
  · intro r k outside
    have : (fill c).at (r, k) = Picture.blank.at (r, k) := fill_other fun q valid same =>
      outside (same ▸ Place.cell_inMatrix even valid)
    exact congrArg Prod.snd this
  · intro x inMatrix
    obtain ⟨q, valid, rfl⟩ := Place.exists_cell even inMatrix
    show 0 ≤ (fill c).value _ _ ∧ (fill c).value _ _ < _
    rw [(fill_own even valid).1]
    have := Place.pixel_lt valid
    constructor
    · omega
    · exact_mod_cast this
  · intro x inMatrix y inMatrix' same
    obtain ⟨q, valid, rfl⟩ := Place.exists_cell even inMatrix
    obtain ⟨q', valid', rfl⟩ := Place.exists_cell even inMatrix'
    have pixels : (q.pixel c : ℤ) = q'.pixel c := by
      rw [← (fill_own even valid).1, ← (fill_own even valid').1]
      exact same
    rw [Place.pixel_injOn valid valid' (by exact_mod_cast pixels)]
  · rintro v ⟨low, high⟩
    obtain ⟨n, rfl⟩ := Int.eq_ofNat_of_zero_le low
    obtain ⟨q, valid, rfl⟩ := Place.exists_pixel (c := c) (by exact_mod_cast high)
    exact ⟨q.cell c, Place.cell_inMatrix even valid, (fill_own even valid).1⟩

/-- Two channels, the smallest detector. -/
theorem unscramble_bijective_two : Even 2 ∧ Unscrambled 2 (main 2).picture :=
  ⟨by decide, unscramble_bijective (by decide)⟩

end Cjunk.Unscramble
