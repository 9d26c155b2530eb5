import Mathlib.Data.Nat.Sqrt
import Mathlib.Data.Rat.Floor
import VideoDetector.Alg.Geometry
import VideoDetector.Lib.Grid
import VideoDetector.Lib.Layout
import VideoDetector.Lib.Words

/-!
# Sampled areas (`fvd-new/alg-mutilthread/m_arith.cpp`)

`ptGetDot` lays a grid over a quadrilateral and stores for each point of the grid the address of its pixel. Before that
it moves the lower corner of the longer side, so that the lower edge is parallel to the upper one. The floating-point
numbers are taken as exact; what a conversion to `Uint16` gives for a value that has none is left open.
-/

namespace VideoDetector.Alg
set_option autoImplicit false
open Lib

/-- `FULL_COLS`. -/
def fullCols : Nat := 640

/-- `FULL_ROWS`. -/
def fullRows : Nat := 480

/-- `MaxDotsInDetect` and `MAX_SPEEDDETECTOR_DOTS`. -/
def maxDotsInDetect : Nat := 768 * 576

/-- The four corners that `ptGetDot` is called with. -/
structure Quad where
  ptUpLeft : CPoint
  ptUpRight : CPoint
  ptDownRight : CPoint
  ptDownLeft : CPoint
  deriving DecidableEq, Repr, Inhabited

/-- What the conversions give that the language leaves undefined, for the corner that is moved and for the points of
the grid. -/
structure Conversions where
  corner : Option ℚ → UInt16
  sample : Option ℚ → UInt16

/-- A `float` as a `Uint16`; there is no value after a division by zero. -/
def toUint16 (undefined : Option ℚ → UInt16) : Option ℚ → UInt16
  | some v => if -1 < v ∧ v < 65536 then UInt16.ofNat ⌊v⌋₊ else undefined (some v)
  | none => undefined none

def CPoint.xVal (p : CPoint) : Int := p.x.toNat

def CPoint.yVal (p : CPoint) : Int := p.y.toNat

/-- The square of `GetLenOfTwoPoint`, which has no value if the products overflow. -/
def squaredLen (p q : CPoint) : Int :=
  int32 ((p.xVal - q.xVal) * (p.xVal - q.xVal)) + int32 ((p.yVal - q.yVal) * (p.yVal - q.yVal))

namespace Quad

/-- The square of the length that limits the columns: of the lower edge if the upper one is not shorter. -/
def squaredEdge (q : Quad) : Int :=
  let temp1 := squaredLen q.ptUpLeft q.ptUpRight
  let temp2 := squaredLen q.ptDownLeft q.ptDownRight
  if 0 ≤ temp1 ∧ 0 ≤ temp2 ∧ temp2 ≤ temp1 then temp2 else temp1

/-- `nColNum` as it is returned. -/
def cols (q : Quad) (nColNum : Nat) : Nat :=
  if 0 < q.squaredEdge ∧ q.squaredEdge < ((nColNum : Int) - 1) * (nColNum - 1) then q.squaredEdge.toNat.sqrt + 1 else nColNum

def leftHeight (q : Quad) : Nat := (q.ptUpLeft.yVal - q.ptDownLeft.yVal).natAbs

def rightHeight (q : Quad) : Nat := (q.ptUpRight.yVal - q.ptDownRight.yVal).natAbs

def height (q : Quad) : Nat := if q.rightHeight < q.leftHeight then q.rightHeight else q.leftHeight

/-- `uMaxLines`. -/
def maxLines (q : Quad) (nColNum : Nat) : Nat := maxDotsInDetect / q.cols nColNum % 65536

/-- `iRow_Num`. -/
def rows (q : Quad) (nColNum : Nat) : Nat := if q.maxLines nColNum < q.height then q.maxLines nColNum else q.height

/-- A quotient of two `float`. -/
def quotient (fBDivder fDivder : Int) : Option ℚ := if fDivder = 0 then none else some (fBDivder / fDivder)

/-- A lower corner is moved along its side, which ends in `up`, to the parallel of the upper edge through the other
lower corner. The new row is computed with the new column. -/
def moved (undefined : Option ℚ → UInt16) (q : Quad) (up down other : CPoint) : CPoint :=
  let dx := q.ptUpRight.xVal - q.ptUpLeft.xVal
  let dy := q.ptUpRight.yVal - q.ptUpLeft.yVal
  let x := toUint16 undefined (quotient
    ((up.yVal - other.yVal) * dx * (down.xVal - up.xVal) + dy * (down.xVal - up.xVal) * other.xVal -
      (down.yVal - up.yVal) * dx * up.xVal)
    (dy * (down.xVal - up.xVal) - (down.yVal - up.yVal) * dx))
  let down := { down with x := x }
  let y := toUint16 undefined (quotient
    ((up.xVal - other.xVal) * dy * (down.yVal - up.yVal) + dx * (down.yVal - up.yVal) * other.yVal -
      (down.xVal - up.xVal) * dy * up.yVal)
    (dx * (down.yVal - up.yVal) - (down.xVal - up.xVal) * dy))
  { down with y := y }

/-- The cases `0x80` and `0xc0`; the other two are not reached. -/
def aligned (q : Quad) (undefined : Option ℚ → UInt16) : Quad :=
  if q.rightHeight < q.leftHeight then { q with ptDownLeft := q.moved undefined q.ptUpLeft q.ptDownLeft q.ptDownRight }
  else { q with ptDownRight := q.moved undefined q.ptUpRight q.ptDownRight q.ptDownLeft }

/-- The column of a point of the grid. -/
def xAt (q : Quad) (iRowNum nColNum iRow iCol : Nat) : ℚ :=
  let temp1 : ℚ := q.ptUpRight.xVal + (q.ptDownRight.xVal - q.ptUpRight.xVal) * iRow / (iRowNum - 1)
  let temp2 : ℚ := q.ptUpLeft.xVal + (q.ptDownLeft.xVal - q.ptUpLeft.xVal) * iRow / (iRowNum - 1)
  temp2 + (temp1 - temp2) * iCol / (nColNum - 1) +
    (q.ptUpLeft.xVal + q.ptDownRight.xVal - q.ptUpRight.xVal - q.ptDownLeft.xVal) * iCol / ((iRowNum - 1) * (nColNum - 1))

/-- The row of a point of the grid. -/
def yAt (q : Quad) (iRowNum nColNum iRow iCol : Nat) : ℚ :=
  q.ptUpLeft.yVal + (q.ptDownLeft.yVal - q.ptUpLeft.yVal) * iRow / (iRowNum - 1) +
    (q.ptUpRight.yVal - q.ptUpLeft.yVal) * iCol / (nColNum - 1) +
    (q.ptUpLeft.yVal + q.ptDownRight.yVal - q.ptUpRight.yVal - q.ptDownLeft.yVal) * iCol / ((iRowNum - 1) * (nColNum - 1))

/-- `ptTemp`; with a single row all values are quotients by zero. -/
def ptTemp (q : Quad) (undefined : Option ℚ → UInt16) (iRowNum nColNum iRow iCol : Nat) : CPoint where
  x := toUint16 undefined (if iRowNum = 1 then none else some (q.xAt iRowNum nColNum iRow iCol))
  y := toUint16 undefined (if iRowNum = 1 then none else some (q.yAt iRowNum nColNum iRow iCol))

end Quad

/-- The test of a point, with both bounds included. -/
def CPoint.inRange (p : CPoint) : Bool := !(decide (fullCols < p.x.toNat) || decide (fullRows < p.y.toNat))

/-- `ImageAddr`. -/
def CPoint.imageAddr (p : CPoint) : Nat := p.y.toNat * fullCols + p.x.toNat

/-- What is stored for a row of the grid: a point outside the frame ends it. -/
def storeRow (ptTemp : Nat → Nat → CPoint) (nColNum iRow : Nat) : List (Nat × Nat) :=
  ((List.range nColNum).takeWhile fun iCol => (ptTemp iRow iCol).inRange).map fun iCol =>
    (iRow * nColNum + iCol, (ptTemp iRow iCol).imageAddr)

/-- What `ptGetDot` does: `ptRowAndCol`, the corners afterwards, and the entries of the table that it stores. -/
structure Dots where
  x : Nat
  y : Nat
  corners : Quad
  stores : List (Nat × Nat)
  deriving Inhabited

/-- `ptGetDot`. -/
def ptGetDot (u : Conversions) (q : Quad) (nColNum : Nat) : Dots :=
  let cols := q.cols nColNum
  let iRowNum := q.rows nColNum
  let q := q.aligned u.corner
  ⟨cols, iRowNum, q, (List.range iRowNum).flatMap (storeRow (q.ptTemp u.sample iRowNum cols) cols)⟩

/-! ## The size of the grid -/

namespace Quad

theorem two_le_cols (q : Quad) {nColNum : Nat} (wide : 2 ≤ nColNum) : 2 ≤ q.cols nColNum := by
  rw [cols]
  split
  · rename_i short
    have one : 1 ≤ q.squaredEdge.toNat.sqrt := Nat.le_sqrt.mpr (by omega)
    exact Nat.succ_le_succ one
  · exact wide

theorem rows_le (q : Quad) (nColNum : Nat) : q.rows nColNum ≤ q.maxLines nColNum := by
  rw [rows]
  split <;> omega

/-- There are at most as many columns as are asked for, and the number of rows is one of 16 bits. -/
theorem cols_le (q : Quad) {nColNum : Nat} (wide : 1 ≤ nColNum) : q.cols nColNum ≤ nColNum := by
  rw [cols]
  split
  · rename_i short
    obtain ⟨n, rfl⟩ := Nat.exists_eq_add_of_le' wide
    have below : q.squaredEdge.toNat < n * n := by
      have edge := short.2
      rw [Nat.cast_succ, Int.add_sub_cancel] at edge
      zify
      omega
    exact Nat.succ_le_succ (Nat.le_of_lt (Nat.sqrt_lt.mpr below))
  · exact le_refl _

theorem rows_lt (q : Quad) (nColNum : Nat) : q.rows nColNum < 65536 :=
  Nat.lt_of_le_of_lt (q.rows_le nColNum) (Nat.mod_lt _ (by decide))

/-- The grid never has more points than the size tests allow. -/
theorem dots_le (q : Quad) (nColNum : Nat) : q.cols nColNum * q.rows nColNum ≤ maxDotsInDetect := by
  have lines : q.rows nColNum ≤ maxDotsInDetect / q.cols nColNum := Nat.le_trans (q.rows_le nColNum) (Nat.mod_le _ _)
  exact Nat.le_trans (Nat.mul_le_mul_left _ lines) (Nat.mul_div_le _ _)

/-! ## The points of the grid -/

/-- The columns and the rows of the points are affine along the grid. -/
theorem xAt_biaffine (q : Quad) (m n : Nat) : Biaffine (q.xAt m n) := by
  constructor
  · intro r
    refine ⟨q.xAt m n r 0, q.xAt m n r 1 - q.xAt m n r 0, fun c => ?_⟩
    simp only [xAt, Nat.cast_zero, Nat.cast_one]
    ring
  · intro c
    refine ⟨q.xAt m n 0 c, q.xAt m n 1 c - q.xAt m n 0 c, fun r => ?_⟩
    simp only [xAt, Nat.cast_zero, Nat.cast_one]
    ring

theorem yAt_biaffine (q : Quad) (m n : Nat) : Biaffine (q.yAt m n) := by
  constructor
  · intro r
    refine ⟨q.yAt m n r 0, q.yAt m n r 1 - q.yAt m n r 0, fun c => ?_⟩
    simp only [yAt, Nat.cast_zero, Nat.cast_one]
    ring
  · intro c
    refine ⟨q.yAt m n 0 c, q.yAt m n 1 c - q.yAt m n 0 c, fun r => ?_⟩
    simp only [yAt, Nat.cast_zero, Nat.cast_one]
    ring

end Quad

theorem toUint16_some {undefined : Option ℚ → UInt16} {v : ℚ} (above : -1 < v) (below : v < 65536) :
    (toUint16 undefined (some v)).toNat = ⌊v⌋₊ := by
  have small : ⌊v⌋₊ < 65536 := (Nat.floor_lt' (by decide)).mpr (by exact_mod_cast below)
  rw [toUint16, if_pos ⟨above, below⟩]
  exact Nat.mod_eq_of_lt small

/-- A conversion that is not defined may give a value that no test lets pass. -/
theorem toUint16_defined {v : Option ℚ} (low : (toUint16 (fun _ => 65535) v).toNat < 65535) :
    ∃ w, v = some w ∧ -1 < w ∧ ⌊w⌋₊ = (toUint16 (fun _ => 65535) v).toNat := by
  cases v with
  | none => exact absurd low (by decide)
  | some w =>
    by_cases range : -1 < w ∧ w < 65536
    · exact ⟨w, rfl, range.1, (toUint16_some range.1 range.2).symm⟩
    · rw [toUint16, if_neg range] at low
      exact absurd low (by decide)

/-- A position whose pixel is in the frame. The test of a row lets the column behind the last one pass, which is the
first pixel of the next row, and in the last row is behind the frame. -/
structure InFrame (x y : ℚ) : Prop where
  left : -1 < x
  right : x < 641
  top : -1 < y
  bottom : y < 480
  last : ¬(640 ≤ x ∧ 479 ≤ y)

theorem imageAddr_lt {p : CPoint} (x : p.x.toNat ≤ 640) (y : p.y.toNat < 480) (last : ¬(p.x.toNat = 640 ∧ p.y.toNat = 479)) :
    p.imageAddr < fullCols * fullRows := by
  simp only [CPoint.imageAddr, fullCols, fullRows]
  omega

theorem inRange_iff (p : CPoint) : p.inRange = true ↔ p.x.toNat ≤ 640 ∧ p.y.toNat ≤ 480 := by
  simp only [CPoint.inRange, Bool.not_eq_true', Bool.or_eq_false_iff, decide_eq_false_iff_not, Nat.not_lt]
  rfl

theorem ptTemp_x {q : Quad} {m n r c : Nat} {undefined : Option ℚ → UInt16} (many : m ≠ 1) :
    (q.ptTemp undefined m n r c).x = toUint16 undefined (some (q.xAt m n r c)) := by
  simp only [Quad.ptTemp, if_neg many]

theorem ptTemp_y {q : Quad} {m n r c : Nat} {undefined : Option ℚ → UInt16} (many : m ≠ 1) :
    (q.ptTemp undefined m n r c).y = toUint16 undefined (some (q.yAt m n r c)) := by
  simp only [Quad.ptTemp, if_neg many]

/-- A point in the frame passes the test and its address is in the frame. -/
theorem ptTemp_inFrame {q : Quad} {m n r c : Nat} (undefined : Option ℚ → UInt16) (many : m ≠ 1)
    (inside : InFrame (q.xAt m n r c) (q.yAt m n r c)) :
    (q.ptTemp undefined m n r c).inRange = true ∧ (q.ptTemp undefined m n r c).imageAddr < fullCols * fullRows := by
  obtain ⟨left, right, top, bottom, last⟩ := inside
  have x : (q.ptTemp undefined m n r c).x.toNat = ⌊q.xAt m n r c⌋₊ := by
    rw [ptTemp_x many]
    exact toUint16_some left (by linarith)
  have y : (q.ptTemp undefined m n r c).y.toNat = ⌊q.yAt m n r c⌋₊ := by
    rw [ptTemp_y many]
    exact toUint16_some top (by linarith)
  have column : ⌊q.xAt m n r c⌋₊ < 641 := (Nat.floor_lt' (by decide)).mpr (by exact_mod_cast right)
  have row : ⌊q.yAt m n r c⌋₊ < 480 := (Nat.floor_lt' (by decide)).mpr (by exact_mod_cast bottom)
  rw [inRange_iff, x, y]
  refine ⟨by omega, imageAddr_lt (by omega) (by omega) ?_⟩
  rw [x, y]
  rintro ⟨behind, lowest⟩
  have x640 : ((640 : Nat) : ℚ) ≤ q.xAt m n r c := (Nat.le_floor_iff' (by decide)).mp (Nat.le_of_eq behind.symm)
  have y479 : ((479 : Nat) : ℚ) ≤ q.yAt m n r c := (Nat.le_floor_iff' (by decide)).mp (Nat.le_of_eq lowest.symm)
  exact last ⟨by exact_mod_cast x640, by exact_mod_cast y479⟩

/-- A point that passes the test whatever undefined conversions give, and whose address is in the frame. -/
theorem inFrame_of_stored {q : Quad} {m n r c : Nat} (passed : (q.ptTemp (fun _ => 65535) m n r c).inRange = true)
    (low : (q.ptTemp (fun _ => 65535) m n r c).imageAddr < fullCols * fullRows) :
    m ≠ 1 ∧ InFrame (q.xAt m n r c) (q.yAt m n r c) := by
  obtain ⟨x, y⟩ := (inRange_iff _).mp passed
  obtain ⟨v, valueX, left, floorX⟩ := toUint16_defined (Nat.lt_of_le_of_lt x (by decide))
  obtain ⟨w, valueY, top, floorY⟩ := toUint16_defined (Nat.lt_of_le_of_lt y (by decide))
  have many : m ≠ 1 := by
    rintro rfl
    cases valueX
  rw [if_neg many] at valueX valueY
  cases valueX
  cases valueY
  change _ = (q.ptTemp (fun _ => 65535) m n r c).x.toNat at floorX
  change _ = (q.ptTemp (fun _ => 65535) m n r c).y.toNat at floorY
  rw [CPoint.imageAddr, ← floorX, ← floorY] at low
  rw [← floorX] at x
  rw [← floorY] at y
  simp only [fullCols, fullRows] at low
  have right : q.xAt m n r c < (641 : Nat) := (Nat.floor_lt' (by decide)).mp (by omega)
  have bottom : q.yAt m n r c < (480 : Nat) := (Nat.floor_lt' (by decide)).mp (by omega)
  refine ⟨many, left, by exact_mod_cast right, top, by exact_mod_cast bottom, ?_⟩
  rintro ⟨behind, lowest⟩
  have column : 640 ≤ ⌊q.xAt m n r c⌋₊ := Nat.le_floor (by exact_mod_cast behind)
  have row : 479 ≤ ⌊q.yAt m n r c⌋₊ := Nat.le_floor (by exact_mod_cast lowest)
  omega

/-! ## The table -/

theorem mem_storeRow {ptTemp : Nat → Nat → CPoint} {n r e a : Nat} :
    (e, a) ∈ storeRow ptTemp n r ↔
      ∃ c, c < n ∧ (∀ j, j ≤ c → (ptTemp r j).inRange = true) ∧ e = r * n + c ∧ a = (ptTemp r c).imageAddr := by
  rw [storeRow, List.mem_map]
  constructor
  · rintro ⟨c, reached, same⟩
    obtain ⟨low, passed⟩ := mem_takeWhile_range.mp reached
    cases same
    exact ⟨c, low, passed, rfl, rfl⟩
  · rintro ⟨c, low, passed, rfl, rfl⟩
    exact ⟨c, mem_takeWhile_range.mpr ⟨low, passed⟩, rfl⟩

section
variable {u : Conversions} {q : Quad} {nColNum : Nat}

theorem mem_stores {e a : Nat} :
    (e, a) ∈ (ptGetDot u q nColNum).stores ↔
      ∃ r, r < q.rows nColNum ∧
        (e, a) ∈ storeRow ((q.aligned u.corner).ptTemp u.sample (q.rows nColNum) (q.cols nColNum)) (q.cols nColNum) r := by
  simp only [ptGetDot, List.mem_flatMap, List.mem_range]

/-- The entries stored are those of the table. -/
theorem stores_lt {s : Nat × Nat} (stored : s ∈ (ptGetDot u q nColNum).stores) :
    s.1 < q.cols nColNum * q.rows nColNum := by
  obtain ⟨r, row, there⟩ := mem_stores.mp stored
  obtain ⟨c, column, _, entry, _⟩ := mem_storeRow.mp there
  rw [entry, Nat.mul_comm (q.cols nColNum)]
  exact Layout.row_col_lt row column

/-- Each entry is stored once. -/
theorem stores_single {e a : Nat} (stored : (e, a) ∈ (ptGetDot u q nColNum).stores) :
    ∀ s ∈ (ptGetDot u q nColNum).stores, s.1 = e → s.2 = a := by
  rintro ⟨_, b⟩ again rfl
  obtain ⟨r, _, there⟩ := mem_stores.mp stored
  obtain ⟨c, column, _, entry, rfl⟩ := mem_storeRow.mp there
  obtain ⟨r', _, there'⟩ := mem_stores.mp again
  obtain ⟨c', column', _, entry', rfl⟩ := mem_storeRow.mp there'
  have sameRow : r = r' := by rw [← Layout.row_div (i := r) column, ← Layout.row_div (i := r') column', ← entry, entry']
  have sameColumn : c = c' := by rw [← Layout.col_mod (i := r) column, ← Layout.col_mod (i := r') column', ← entry, entry']
  rw [sameRow, sameColumn]

end

/-- All positions that are read are in the frame: the corners of the part of the grid that is read are, and none is at
the one pixel behind the frame that the test lets pass. -/
structure ReadInFrame (q : Quad) (rows cols count : Nat) : Prop where
  defined : count = 0 ∨ rows ≠ 1
  columns : ∀ p ∈ gridCorners cols count, q.xAt rows cols p.1 p.2 ∈ Set.Ioo (-1 : ℚ) 641
  lines : ∀ p ∈ gridCorners cols count, q.yAt rows cols p.1 p.2 ∈ Set.Ioo (-1 : ℚ) 480
  last : ∀ r c, c < cols → r * cols + c < count → ¬(640 ≤ q.xAt rows cols r c ∧ 479 ≤ q.yAt rows cols r c)

theorem readInFrame_iff {q : Quad} {rows cols count : Nat} (wide : 0 < cols) :
    ReadInFrame q rows cols count ↔ (count = 0 ∨ rows ≠ 1) ∧
      ∀ r c, c < cols → r * cols + c < count → InFrame (q.xAt rows cols r c) (q.yAt rows cols r c) := by
  have hullX := grid_hull count (s := Set.Ioo (-1 : ℚ) 641) Set.ordConnected_Ioo (q.xAt_biaffine rows cols) wide
  have hullY := grid_hull count (s := Set.Ioo (-1 : ℚ) 480) Set.ordConnected_Ioo (q.yAt_biaffine rows cols) wide
  constructor
  · rintro ⟨defined, columns, lines, last⟩
    refine ⟨defined, fun r c column entry => ?_⟩
    obtain ⟨left, right⟩ := hullX.mpr columns r c column entry
    obtain ⟨top, bottom⟩ := hullY.mpr lines r c column entry
    exact ⟨left, right, top, bottom, last r c column entry⟩
  · rintro ⟨defined, inside⟩
    refine ⟨defined, hullX.mp ?_, hullY.mp ?_, fun r c column entry => (inside r c column entry).last⟩
    · exact fun r c column entry => ⟨(inside r c column entry).left, (inside r c column entry).right⟩
    · exact fun r c column entry => ⟨(inside r c column entry).top, (inside r c column entry).bottom⟩

/-- An area that ends before column 640 is in the frame if its corners are. -/
theorem ReadInFrame.of_corners {q : Quad} {rows cols count : Nat} (wide : 0 < cols) (many : rows ≠ 1)
    (corners : ∀ p ∈ gridCorners cols count, (-1 < q.xAt rows cols p.1 p.2 ∧ q.xAt rows cols p.1 p.2 < 640) ∧
      -1 < q.yAt rows cols p.1 p.2 ∧ q.yAt rows cols p.1 p.2 < 480) : ReadInFrame q rows cols count where
  defined := .inr many
  columns := fun p corner => ⟨(corners p corner).1.1, (corners p corner).1.2.trans (by norm_num)⟩
  lines := fun p corner => (corners p corner).2
  last := by
    have hull := grid_hull count (s := Set.Iio (640 : ℚ)) Set.ordConnected_Iio (q.xAt_biaffine rows cols) wide
    intro r c column entry behind
    exact absurd behind.1 (not_le.mpr (hull.mpr (fun p corner => (corners p corner).1.2) r c column entry))

/-- **What is read of a table** was stored and is in the frame, whatever undefined conversions give, exactly if the
positions are. -/
theorem stored_iff (corner : Option ℚ → UInt16) (q : Quad) {nColNum count : Nat} (wide : 2 ≤ nColNum)
    (few : count ≤ q.cols nColNum * q.rows nColNum) :
    (∀ sample, ∀ e, e < count → ∃ a, (e, a) ∈ (ptGetDot ⟨corner, sample⟩ q nColNum).stores ∧ a < fullCols * fullRows) ↔
      ReadInFrame (q.aligned corner) (q.rows nColNum) (q.cols nColNum) count := by
  have positive : 0 < q.cols nColNum := Nat.lt_of_lt_of_le (by decide) (q.two_le_cols wide)
  rw [readInFrame_iff positive]
  constructor
  · intro all
    have point : ∀ r c, c < q.cols nColNum → r * q.cols nColNum + c < count → q.rows nColNum ≠ 1 ∧
        InFrame ((q.aligned corner).xAt (q.rows nColNum) (q.cols nColNum) r c)
          ((q.aligned corner).yAt (q.rows nColNum) (q.cols nColNum) r c) := by
      intro r c column entry
      obtain ⟨a, stored, low⟩ := all (fun _ => 65535) _ entry
      obtain ⟨r', _, there⟩ := mem_stores.mp stored
      obtain ⟨c', column', passed, same, rfl⟩ := mem_storeRow.mp there
      have sameRow : r' = r := by rw [← Layout.row_div (i := r') column', ← same, Layout.row_div column]
      have sameColumn : c' = c := by rw [← Layout.col_mod (i := r') column', ← same, Layout.col_mod column]
      subst sameRow sameColumn
      exact inFrame_of_stored (passed c' (Nat.le_refl _)) low
    refine ⟨?_, fun r c column entry => (point r c column entry).2⟩
    rcases Nat.eq_zero_or_pos count with none | first
    · exact .inl none
    · exact .inr (point 0 0 positive (by simpa using first)).1
  · rintro ⟨defined, inside⟩ sample e low
    have many : q.rows nColNum ≠ 1 := defined.resolve_left (by omega)
    obtain ⟨row, column⟩ := Layout.row_col (Nat.lt_of_lt_of_le low (Nat.mul_comm _ _ ▸ few))
    have parts : e / q.cols nColNum * q.cols nColNum + e % q.cols nColNum = e := Nat.div_add_mod' e _
    have point (j : Nat) (before : j ≤ e % q.cols nColNum) := ptTemp_inFrame (q := q.aligned corner) sample many
      (inside (e / q.cols nColNum) j (by omega) (by omega))
    refine ⟨_, mem_stores.mpr ⟨_, row, mem_storeRow.mpr ⟨_, column, fun j before => (point j before).1, parts.symm, rfl⟩⟩, ?_⟩
    exact (point _ (Nat.le_refl _)).2

end VideoDetector.Alg
