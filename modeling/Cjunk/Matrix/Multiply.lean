import Cjunk.Lib.CountedLoop
import Cjunk.Lib.Words
import Mathlib.Algebra.BigOperators.Group.Finset.Basic
import Mathlib.Algebra.Group.Nat.Even
import Mathlib.Data.BitVec

/-!
# Matrix products

`testa_matrix.c`: `multiply` and its three variants with register tiles, blocks of rows
and blocks of the inner dimension.  `N`, `ib` and `kb` are parameters, and an `int` is a
word of 32 bits.  A matrix is a function of all indices, so that a store out of range would
show.

`blocked_products` is the result: all four leave the same in `C`, sums of products.  Each is
seen from a single cell, which one tile of the loops changes.
-/

namespace Cjunk.Multiply

open CountedLoop

/-- `matrix` -/
abbrev Matrix := ℕ → ℕ → U32

/-- `C[i][j] = v;` -/
def Matrix.set (C : Matrix) (i j : ℕ) (v : U32) : Matrix :=
  fun x y => if x = i ∧ y = j then v else C x y

/-- The four accumulators. -/
structure Tile where
  acc00 : U32
  acc01 : U32
  acc10 : U32
  acc11 : U32

namespace Tile

/-- `acc00 = acc01 = acc10 = acc11 = 0;` -/
def zero : Tile := ⟨0, 0, 0, 0⟩

/-- The accumulators as `C` has them. -/
def load (C : Matrix) (i j : ℕ) : Tile where
  acc00 := C (i + 0) (j + 0)
  acc01 := C (i + 0) (j + 1)
  acc10 := C (i + 1) (j + 0)
  acc11 := C (i + 1) (j + 1)

/-- The body of the loop over `k`. -/
def add (A B : Matrix) (i j k : ℕ) (t : Tile) : Tile where
  acc00 := t.acc00 + A k (j + 0) * B (i + 0) k
  acc01 := t.acc01 + A k (j + 1) * B (i + 0) k
  acc10 := t.acc10 + A k (j + 0) * B (i + 1) k
  acc11 := t.acc11 + A k (j + 1) * B (i + 1) k

/-- The accumulators back into `C`. -/
def store (C : Matrix) (i j : ℕ) (t : Tile) : Matrix :=
  (((C.set (i + 0) (j + 0) t.acc00).set (i + 0) (j + 1) t.acc01).set (i + 1) (j + 0) t.acc10).set
    (i + 1) (j + 1) t.acc11

end Tile

/-- What the variants do for a tile: the accumulators take the products from `lo` to `hi`. -/
def multiplyTile (A B : Matrix) (i j lo hi : ℕ) (start : Tile) (C : Matrix) : Matrix :=
  Tile.store C i j (forLoop lo hi 1 (Tile.add A B i j) start)

section

variable (n ib kb : ℕ) (C A B : Matrix)

/-- `multiply`, cell by cell. -/
def multiply : Matrix :=
  forLoop 0 n 1 (fun i => forLoop 0 n 1 fun j C =>
    forLoop 0 n 1 (fun k C => C.set i j (C i j + A k j * B i k)) (C.set i j 0)) C

/-- `multiply_1`, tile by tile. -/
def multiply1 : Matrix :=
  forLoop 0 n 2 (fun i => forLoop 0 n 2 fun j => multiplyTile A B i j 0 n .zero) C

/-- `multiply_2`: blocks of `ib` rows. -/
def multiply2 : Matrix :=
  forLoop 0 n ib (fun ii => forLoop 0 n 2 fun j => forLoop ii (ii + ib) 2 fun i =>
    multiplyTile A B i j 0 n .zero) C

/-- `multiply_3`: blocks of `ib` rows, and of `kb` products that go on from what `C` holds. -/
def multiply3 : Matrix :=
  forLoop 0 n ib (fun ii => forLoop 0 n kb fun kk => forLoop 0 n 2 fun j =>
    forLoop ii (ii + ib) 2 fun i C =>
      multiplyTile A B i j kk (kk + kb) (if kk = 0 then .zero else .load C i j) C) C

end

/-! ## One cell -/

section

/-- What a cell holds. -/
def cell (x y : ℕ) (C : Matrix) : U32 := C x y

/-- `acc` and the products for the cell from `lo` to `hi`. -/
def dot (A B : Matrix) (x y lo hi : ℕ) (acc : U32) : U32 :=
  forLoop lo hi 1 (fun k acc => acc + A k y * B x k) acc

/-- One of the accumulators. -/
def Tile.acc (a b : Bool) (t : Tile) : U32 :=
  match a, b with
  | false, false => t.acc00
  | false, true => t.acc01
  | true, false => t.acc10
  | true, true => t.acc11

variable {n x y i j lo hi : ℕ} {a b : Bool} {A B : Matrix}

@[simp] theorem cell_set_self (i j : ℕ) (v : U32) (C : Matrix) : cell i j (C.set i j v) = v := by
  simp [cell, Matrix.set]

theorem cell_set_other (other : ¬ (x = i ∧ y = j)) (v : U32) (C : Matrix) :
    cell x y (C.set i j v) = cell x y C := by
  simp [cell, Matrix.set, other]

/-- A tile leaves in its cells what its accumulators have taken. -/
theorem multiplyTile_own (a b : Bool) (start : Tile) (C : Matrix) :
    cell (i + a.toNat) (j + b.toNat) (multiplyTile A B i j lo hi start C) =
      dot A B (i + a.toNat) (j + b.toNat) lo hi (start.acc a b) := by
  have taken : (forLoop lo hi 1 (Tile.add A B i j) start).acc a b =
      dot A B (i + a.toNat) (j + b.toNat) lo hi (start.acc a b) :=
    forLoop_view (Tile.acc a b) (fun k t => by cases a <;> cases b <;> rfl) start
  rw [← taken]
  unfold multiplyTile Tile.store
  cases a <;> cases b <;> simp [cell, Matrix.set, Tile.acc]

/-- A tile changes only its cells. -/
theorem multiplyTile_other (other : ∀ a b : Bool, ¬ (x = i + a.toNat ∧ y = j + b.toNat))
    (start : Tile) (C : Matrix) :
    cell x y (multiplyTile A B i j lo hi start C) = cell x y C := by
  have other00 : ¬ (x = i + 0 ∧ y = j + 0) := other false false
  have other01 : ¬ (x = i + 0 ∧ y = j + 1) := other false true
  have other10 : ¬ (x = i + 1 ∧ y = j + 0) := other true false
  have other11 : ¬ (x = i + 1 ∧ y = j + 1) := other true true
  unfold multiplyTile Tile.store
  rw [cell_set_other other11, cell_set_other other10, cell_set_other other01,
    cell_set_other other00]

/-- What a product leaves in `C`. -/
def product (n : ℕ) (C A B : Matrix) : Matrix :=
  fun x y => if x < n ∧ y < n then dot A B x y 0 n 0 else C x y

/-- `M` is the product if it is so in each cell. -/
theorem eq_product {M C : Matrix} (inside : ∀ x y, x < n → y < n → cell x y M = dot A B x y 0 n 0)
    (outside : ∀ x y, ¬ (x < n ∧ y < n) → cell x y M = cell x y C) : M = product n C A B := by
  funext x y
  unfold product
  split_ifs with range
  · exact inside x y range.1 range.2
  · exact outside x y range

/-! ## The plain product -/

/-- The body of `multiply` for one cell, seen from it. -/
theorem entry_own (C : Matrix) :
    cell i j (forLoop 0 n 1 (fun k C => C.set i j (C i j + A k j * B i k)) (C.set i j 0)) =
      dot A B i j 0 n 0 := by
  have adds : cell i j (forLoop 0 n 1 (fun k C => C.set i j (C i j + A k j * B i k))
      (C.set i j 0)) =
      forLoop 0 n 1 (fun k acc => acc + A k j * B i k) (cell i j (C.set i j 0)) := by
    apply forLoop_view (cell i j)
    intro k C
    rw [cell_set_self]
    rfl
  rw [adds, cell_set_self]
  rfl

/-- And from the others. -/
theorem entry_other (other : ¬ (x = i ∧ y = j)) (C : Matrix) :
    cell x y (forLoop 0 n 1 (fun k C => C.set i j (C i j + A k j * B i k)) (C.set i j 0)) =
      cell x y C := by
  rw [forLoop_keeps (cell x y) fun k _ C => cell_set_other other _ C, cell_set_other other]

theorem multiply_eq (n : ℕ) (C A B : Matrix) : multiply n C A B = product n C A B := by
  apply eq_product
  · intro x y hx hy
    exact nested_only (cell x y) (f := fun _ => dot A B x y 0 n 0) one_pos one_pos
      ⟨x, by omega, hx⟩ ⟨y, by omega, hy⟩ entry_own
      (fun i j _ _ ne => entry_other fun same => ne ⟨same.1.symm, same.2.symm⟩) C
  · intro x y outside
    refine nested_keeps (cell x y) (fun i j rows columns => entry_other ?_) C
    rintro ⟨rfl, rfl⟩
    obtain ⟨-, -, hx⟩ := rows
    obtain ⟨-, -, hy⟩ := columns
    exact outside ⟨hx, hy⟩

/-! ## Tiles -/

/-- A row or column of an even range is in a tile. -/
theorem exists_turn (even : Even (hi - lo)) (low : lo ≤ x) (high : x < hi) :
    ∃ i, ∃ a : Bool, IsTurn lo hi 2 i ∧ x = i + a.toNat := by
  obtain ⟨d, hd⟩ := even
  refine ⟨lo + 2 * ((x - lo) / 2), decide ((x - lo) % 2 = 1), ⟨_, rfl, by omega⟩, ?_⟩
  by_cases odd : (x - lo) % 2 = 1 <;> simp [odd] <;> omega

/-- And in only one. -/
theorem turn_unique {i' : ℕ} {a' : Bool} (turn : IsTurn lo hi 2 i) (turn' : IsTurn lo hi 2 i')
    (same : i' + a'.toNat = i + a.toNat) : i' = i := by
  obtain ⟨t, rfl, -⟩ := turn
  obtain ⟨t', rfl, -⟩ := turn'
  have := a.toNat_le
  have := a'.toNat_le
  omega

/-- A tile is in its range. -/
theorem turn_inside (even : Even (hi - lo)) (turn : IsTurn lo hi 2 i) (a : Bool) :
    lo ≤ i + a.toNat ∧ i + a.toNat < hi := by
  obtain ⟨d, hd⟩ := even
  obtain ⟨t, rfl, below⟩ := turn
  have := a.toNat_le
  omega

/-- A tile of other rows or columns does not change a cell. -/
theorem multiplyTile_apart {lo' hi' k l klo khi : ℕ} (rows : IsTurn lo hi 2 i)
    (columns : IsTurn lo' hi' 2 j) (rows' : IsTurn lo hi 2 k) (columns' : IsTurn lo' hi' 2 l)
    (ne : ¬ (k = i ∧ l = j)) (start : Tile) (C : Matrix) :
    cell (i + a.toNat) (j + b.toNat) (multiplyTile A B k l klo khi start C) =
      cell (i + a.toNat) (j + b.toNat) C := by
  apply multiplyTile_other
  rintro a' b' ⟨row, column⟩
  exact ne ⟨turn_unique rows rows' row.symm, turn_unique columns columns' column.symm⟩

/-- A tile of a range does not change a cell outside. -/
theorem multiplyTile_outside {lo' hi' klo khi : ℕ} (even : Even (hi - lo))
    (even' : Even (hi' - lo')) (rows : IsTurn lo hi 2 i) (columns : IsTurn lo' hi' 2 j)
    (outside : ¬ ((lo ≤ x ∧ x < hi) ∧ lo' ≤ y ∧ y < hi')) (start : Tile) (C : Matrix) :
    cell x y (multiplyTile A B i j klo khi start C) = cell x y C := by
  apply multiplyTile_other
  rintro a b ⟨rfl, rfl⟩
  exact outside ⟨turn_inside even rows a, turn_inside even' columns b⟩

/-- The accumulators begin at zero. -/
@[simp] theorem acc_zero (a b : Bool) : Tile.zero.acc a b = 0 := by
  cases a <;> cases b <;> rfl

/-- Or with what the cells hold. -/
@[simp] theorem acc_load (a b : Bool) (C : Matrix) (i j : ℕ) :
    (Tile.load C i j).acc a b = cell (i + a.toNat) (j + b.toNat) C := by
  cases a <;> cases b <;> rfl

theorem multiply1_eq (even : Even (n - 0)) (C A B : Matrix) :
    multiply1 n C A B = product n C A B := by
  apply eq_product
  · intro x y hx hy
    obtain ⟨i, a, rows, rfl⟩ := exists_turn even (Nat.zero_le x) hx
    obtain ⟨j, b, columns, rfl⟩ := exists_turn even (Nat.zero_le y) hy
    refine nested_only (cell (i + a.toNat) (j + b.toNat))
      (f := fun _ => dot A B (i + a.toNat) (j + b.toNat) 0 n 0) Nat.two_pos Nat.two_pos
      rows columns ?_ ?_ C
    · intro C
      rw [multiplyTile_own, acc_zero]
    · exact fun k l rows' columns' ne =>
        multiplyTile_apart rows columns rows' columns' ne .zero
  · intro x y outside
    exact nested_keeps (cell x y) (fun i j rows columns =>
      multiplyTile_outside even even rows columns
        (fun inside => outside ⟨inside.1.2, inside.2.2⟩) .zero) C

/-! ## Blocks -/

/-- The tiles of a block of rows leave a cell of it with what its tile does with it. -/
theorem rows_own {klo khi ii ib : ℕ} {start : ℕ → ℕ → Matrix → Tile} {f : U32 → U32}
    (rows : IsTurn ii (ii + ib) 2 i) (columns : IsTurn 0 n 2 j)
    (starts : ∀ C, (start i j C).acc a b = f (cell (i + a.toNat) (j + b.toNat) C)) (C : Matrix) :
    cell (i + a.toNat) (j + b.toNat)
      (forLoop 0 n 2 (fun j => forLoop ii (ii + ib) 2 fun i C =>
        multiplyTile A B i j klo khi (start i j C) C) C) =
      dot A B (i + a.toNat) (j + b.toNat) klo khi (f (cell (i + a.toNat) (j + b.toNat) C)) := by
  refine nested_only (cell (i + a.toNat) (j + b.toNat))
    (f := fun v => dot A B (i + a.toNat) (j + b.toNat) klo khi (f v)) Nat.two_pos Nat.two_pos
    columns rows ?_ ?_ C
  · intro C
    rw [multiplyTile_own, starts]
  · exact fun l k columns' rows' ne C =>
      multiplyTile_apart rows columns rows' columns' (fun same => ne same.symm) _ C

/-- And change no other cell. -/
theorem rows_other {klo khi ii ib : ℕ} {start : ℕ → ℕ → Matrix → Tile} (even : Even (n - 0))
    (evenBlock : Even ib) (outside : ¬ ((ii ≤ x ∧ x < ii + ib) ∧ y < n)) (C : Matrix) :
    cell x y (forLoop 0 n 2 (fun j => forLoop ii (ii + ib) 2 fun i C =>
      multiplyTile A B i j klo khi (start i j C) C) C) = cell x y C := by
  have evenRows : Even (ii + ib - ii) := by
    rw [Nat.add_sub_cancel_left]
    exact evenBlock
  exact nested_keeps (cell x y) (fun j i columns rows C =>
    multiplyTile_outside evenRows even rows columns
      (fun inside => outside ⟨inside.1, inside.2.2⟩) _ C) C

/-- A row is in one block. -/
theorem block_unique {ii ii' ib : ℕ} (turn : IsTurn 0 n ib ii) (turn' : IsTurn 0 n ib ii')
    (inside : ii ≤ x ∧ x < ii + ib) (inside' : ii' ≤ x ∧ x < ii' + ib) : ii' = ii := by
  obtain ⟨t, rfl, -⟩ := turn
  obtain ⟨t', rfl, -⟩ := turn'
  have first : x / ib = t := Nat.div_eq_of_lt_le (by rw [mul_comm]; omega)
    (by rw [add_mul, mul_comm, one_mul]; omega)
  have second : x / ib = t' := Nat.div_eq_of_lt_le (by rw [mul_comm]; omega)
    (by rw [add_mul, mul_comm, one_mul]; omega)
  rw [← first, ← second]

/-- A block is in the matrix. -/
theorem block_le {ii ib : ℕ} (divides : ib ∣ n) (turn : IsTurn 0 n ib ii) : ii + ib ≤ n := by
  obtain ⟨m, rfl⟩ := divides
  obtain ⟨t, rfl, below⟩ := turn
  rw [zero_add] at below ⊢
  have : t + 1 ≤ m := Nat.lt_of_mul_lt_mul_left below
  calc ib * t + ib = ib * (t + 1) := (Nat.mul_succ ib t).symm
    _ ≤ ib * m := Nat.mul_le_mul_left ib this

/-- A loop over the blocks of rows is the product if for each block of rows the body leaves
the products in the cells of it and changes no other cell. -/
theorem blocks_eq {ib : ℕ} {body : ℕ → Matrix → Matrix} (divides : ib ∣ n)
    (own : ∀ ii x y, (ii ≤ x ∧ x < ii + ib) → y < n →
      ∀ C, cell x y (body ii C) = dot A B x y 0 n 0)
    (others : ∀ ii x y, ¬ ((ii ≤ x ∧ x < ii + ib) ∧ y < n) →
      ∀ C, cell x y (body ii C) = cell x y C) (C : Matrix) :
    forLoop 0 n ib body C = product n C A B := by
  apply eq_product
  · intro x y hx hy
    have positive : 0 < ib := Nat.pos_of_dvd_of_pos divides (by omega)
    have split := Nat.div_add_mod x ib
    have low := Nat.mod_lt x positive
    have turn : IsTurn 0 n ib (0 + ib * (x / ib)) := ⟨_, rfl, by omega⟩
    refine forLoop_only (cell x y) (f := fun _ => dot A B x y 0 n 0) positive turn
      (own _ x y (by omega) hy) (fun ii' turn' ne => others ii' x y ?_) C
    exact fun inside => ne (block_unique turn turn' (by omega) inside.1)
  · intro x y outside
    refine forLoop_keeps (cell x y) (fun ii turn => others ii x y ?_) C
    have := block_le divides turn
    omega

theorem multiply2_eq {ib : ℕ} (even : Even (n - 0)) (evenBlock : Even ib) (divides : ib ∣ n)
    (C A B : Matrix) : multiply2 n ib C A B = product n C A B := by
  apply blocks_eq divides
  · intro ii x y hx hy C
    have evenRows : Even (ii + ib - ii) := by rwa [Nat.add_sub_cancel_left]
    obtain ⟨i, a, rows, rfl⟩ := exists_turn evenRows hx.1 hx.2
    obtain ⟨j, b, columns, rfl⟩ := exists_turn even (Nat.zero_le y) hy
    exact rows_own (f := fun _ => 0) rows columns (fun C => acc_zero a b) C
  · exact fun ii x y outside => rows_other even evenBlock outside

/-- The products from 0 to `n` are those of all blocks of the inner dimension. -/
theorem dot_blocks {kb : ℕ} (positive : 0 < n) (divides : kb ∣ n) (acc : U32) :
    forLoop 0 n kb (fun kk acc => dot A B x y kk (kk + kb) (if kk = 0 then 0 else acc)) acc =
      dot A B x y 0 n 0 := by
  obtain ⟨m, rfl⟩ := divides
  have hkb : 0 < kb := Nat.pos_of_ne_zero fun zero => by simp [zero] at positive
  have hm : 0 < m := Nat.pos_of_ne_zero fun zero => by simp [zero] at positive
  rw [forLoop_blocks hkb]
  -- The first block begins at zero, whatever the cell holds; the others go on.
  let add : ℕ → U32 → U32 := fun k acc => acc + A k y * B x k
  have all : forLoop 0 (0 + kb * m) 1 add 0 = upTo (kb * m) (fun k => add (0 + k)) 0 :=
    forLoop_one (kb * m) 0
  simp only [zero_add] at all
  show _ = forLoop 0 (kb * m) 1 add 0
  rw [all]
  refine upTo_invariant (fun t v => 0 < t → v = upTo (kb * t) add 0) (by simp) ?_ hm
  intro t _ v before _
  have begins : (if kb * t = 0 then 0 else v) = upTo (kb * t) add 0 := by
    rcases Nat.eq_zero_or_pos t with rfl | later
    · rfl
    · rw [if_neg (Nat.mul_pos hkb later).ne', before later]
  have block : ∀ v, dot A B x y (kb * t) (kb * t + kb) v =
      upTo kb (fun i => add (kb * t + i)) v := forLoop_one kb
  rw [Nat.mul_succ, upTo_add, ← block, begins]

theorem multiply3_eq {ib kb : ℕ} (even : Even (n - 0)) (evenBlock : Even ib) (divides : ib ∣ n)
    (divides' : kb ∣ n) (C A B : Matrix) : multiply3 n ib kb C A B = product n C A B := by
  apply blocks_eq divides
  · intro ii x y hx hy C
    have evenRows : Even (ii + ib - ii) := by rwa [Nat.add_sub_cancel_left]
    obtain ⟨i, a, rows, rfl⟩ := exists_turn evenRows hx.1 hx.2
    obtain ⟨j, b, columns, rfl⟩ := exists_turn even (Nat.zero_le y) hy
    rw [forLoop_view (cell (i + a.toNat) (j + b.toNat))
      (f := fun kk acc => dot A B (i + a.toNat) (j + b.toNat) kk (kk + kb)
        (if kk = 0 then 0 else acc))]
    · exact dot_blocks (by omega) divides' _
    · intro kk C
      apply rows_own (f := fun v => if kk = 0 then 0 else v) rows columns
      intro C
      split_ifs with first
      · exact acc_zero a b
      · exact acc_load a b C i j
  · exact fun ii x y outside C => forLoop_keeps (cell x y) (fun kk _ =>
      rows_other even evenBlock outside) C

end

/-- The products for a cell are added up. -/
theorem dot_eq_sum (A B : Matrix) (x y n : ℕ) :
    dot A B x y 0 n 0 = ∑ k ∈ Finset.range n, A k y * B x k := by
  have all : dot A B x y 0 (0 + n) 0 =
      upTo n (fun k acc => acc + A (0 + k) y * B x (0 + k)) 0 := forLoop_one n 0
  simp only [zero_add] at all
  rw [all]
  refine upTo_invariant (fun m acc => acc = ∑ k ∈ Finset.range m, A k y * B x k)
    (Finset.sum_range_zero _).symm ?_
  rintro m - acc rfl
  exact (Finset.sum_range_succ _ m).symm

/-- **The blocked products.**  `multiply` leaves the sums of products in the cells of `C`, and
the other cells as they were.  For every even size, whatever even block of rows and block of
the inner dimension divide it, the three variants leave in `C` what `multiply` does. -/
theorem blocked_products {n ib kb : ℕ} (even : Even n) (evenBlock : Even ib) (rows : ib ∣ n)
    (inner : kb ∣ n) (C A B : Matrix) :
    (∀ x y, multiply n C A B x y =
      if x < n ∧ y < n then ∑ k ∈ Finset.range n, A k y * B x k else C x y) ∧
    multiply1 n C A B = multiply n C A B ∧ multiply2 n ib C A B = multiply n C A B ∧
      multiply3 n ib kb C A B = multiply n C A B := by
  rw [multiply_eq]
  refine ⟨fun x y => ?_, multiply1_eq even C A B, multiply2_eq even evenBlock rows C A B,
    multiply3_eq even evenBlock rows inner C A B⟩
  rw [← dot_eq_sum]
  rfl

/-- Four rows in two blocks, and the inner dimension in two. -/
def sample : Matrix := fun i j => .ofNat 32 (4 * i + j)

theorem blocked_products_sample : (Even 4 ∧ Even 2 ∧ 2 ∣ 4) ∧
    multiply1 4 sample sample sample = multiply 4 sample sample sample ∧
      multiply2 4 2 sample sample sample = multiply 4 sample sample sample ∧
        multiply3 4 2 2 sample sample sample = multiply 4 sample sample sample :=
  ⟨by decide,
    (blocked_products (by decide) (by decide) (by decide) (by decide) sample sample sample).2⟩

end Cjunk.Multiply
