import Mathlib.Algebra.BigOperators.Intervals
import Mathlib.Analysis.Real.Sqrt
import VideoDetector.Alg.LaneTables
import VideoDetector.Lib.Affine
import VideoDetector.Lib.Loop
import VideoDetector.Lib.Registers

/-!
# The calibration of the camera (`camera_calibration` in `fvd-new/alg-mutilthread/m_arith.cpp`)

The two sides of the calibration points meet in the vanishing point, and with the base line they give the distance of every
row of the image; for every lane these are then accumulated from the row in which its middle crosses the upper side. The
arithmetic is exact, with the square root as a parameter. A division by zero is a fault, and so is a row outside the two
tables.
-/

namespace VideoDetector.Alg
set_option autoImplicit false
open Lib

inductive CalibrationFault where
  | divisionByZero
  | calibrationBaseLine (row : Int)
  | actualDistance (row : Int)
  deriving DecidableEq, Repr

/-- The two points of a base line. -/
local instance twoPoints : NeZero 2 := ⟨Nat.succ_ne_zero 1⟩

/-- The four calibration points. -/
local instance fourPoints : NeZero 4 := ⟨Nat.succ_ne_zero 3⟩

/-- Exchange two points. -/
def exchange (array : Fin 4 → CPoint) (i j : Fin 4) : Fin 4 → CPoint :=
  Function.update (Function.update array i (array j)) j (array i)

/-- One comparison of the rows in `sort_point`. -/
def orderRows (array : Fin 4 → CPoint) (i j : Fin 4) : Fin 4 → CPoint :=
  if (array i).y > (array j).y then exchange array i j else array

/-- One comparison of the columns in it. -/
def orderColumns (array : Fin 4 → CPoint) (i j : Fin 4) : Fin 4 → CPoint :=
  if (array i).x > (array j).x then exchange array i j else array

/-- `sort_point` of the four calibration points. -/
def sortPoint (array : Fin 4 → CPoint) : Fin 4 → CPoint :=
  let rows := [(0, 1), (0, 2), (0, 3), (1, 2), (1, 3), (2, 3)].foldl (fun a pair => orderRows a pair.1 pair.2) array
  orderColumns (orderColumns rows 0 1) 2 3

/-- A line `y = k * x + b`. -/
structure SideLine (K : Type) where
  k : K
  b : K

/-- The two tables of the function: the distance of a row and that to the next one. -/
structure Pixels (K : Type) where
  calibrationBaseLine : Nat → K
  disPixel : Nat → K

/-- What is computed: the tables, and `actual_distance` of every lane. -/
structure Calibration (K : Type) where
  pixels : Pixels K
  actualDistance : List (Nat → K)

/-- The middle of two points. -/
def middle (p q : CPoint) : CPoint :=
  ⟨UInt16.ofNat ((p.x.toNat + q.x.toNat) / 2), UInt16.ofNat ((p.y.toNat + q.y.toNat) / 2)⟩

namespace SpeedLane

/-- `pt1`, above. -/
def upperMiddle (lane : SpeedLane) : CPoint := middle (lane.ptCornerQ 0) (lane.ptCornerQ 1)

/-- `pt2`, below. -/
def lowerMiddle (lane : SpeedLane) : CPoint := middle (lane.ptFourCorner 2) (lane.ptFourCorner 3)

end SpeedLane

/-- `start_point`. -/
def startPoint (base : Fin 2 → CPoint) : Nat :=
  if (base 0).y > (base 1).y then (base 0).y.toNat else (base 1).y.toNat

/-- `end_point`. -/
def endPoint (base : Fin 2 → CPoint) : Nat :=
  if (base 0).y > (base 1).y then (base 1).y.toNat else (base 0).y.toNat

section
variable {K : Type} [Field K] [LinearOrder K]

/-- The line of two points; an upright one is only marked. -/
def lineThrough (p q : CPoint) : Except CalibrationFault (SideLine K) := do
  if p.x ≠ q.x then
    let k ← divide .divisionByZero ((p.yVal - q.yVal : Int) : K) ((p.xVal - q.xVal : Int) : K)
    return ⟨k, p.yVal - k * p.xVal⟩
  else return ⟨1000000, 0⟩

/-- Where two lines cross. -/
def crossing (l m : SideLine K) : Except CalibrationFault K := divide .divisionByZero (l.b - m.b) (m.k - l.k)

/-- The mark of an upright line. -/
def SideLine.upright (l : SideLine K) : Bool := 100000 < l.k

/-- The vanishing point `x0`, `y0` if not both sides are upright. -/
def vanishingPoint (p : Fin 4 → CPoint) (l20 l13 : SideLine K) : Except CalibrationFault (K × K) := do
  if l20.upright then
    return ((p 0).xVal, l13.k * (p 0).xVal + l13.b)
  else if l13.upright then
    return ((p 1).xVal, l20.k * (p 1).xVal + l20.b)
  else
    let x0 ← crossing l13 l20
    return (x0, l13.k * x0 + l13.b)

/-- The row `i` of the tables if both sides are upright. -/
def parallelRow (near dis : K) (s : Pixels K) (i : Nat) : Except CalibrationFault (Pixels K) :=
  .ok ⟨Function.update s.calibrationBaseLine i (near + dis), Function.update s.disPixel i dis⟩

/-- The row `i` of the tables. -/
def perspectiveRow (near dis y0 : K) (s : Pixels K) (i : Nat) : Except CalibrationFault (Pixels K) := do
  let far ← divide .divisionByZero (dis * ((fullRows : K) - 1 - i)) (i - y0)
  let calibrationBaseLine := Function.update s.calibrationBaseLine i (near + far)
  return ⟨calibrationBaseLine, Function.update s.disPixel i (calibrationBaseLine i - calibrationBaseLine (i + 1))⟩

/-- The tables with the last row set. -/
def Pixels.start (near : K) : Pixels K := ⟨Function.update (fun _ => 0) (fullRows - 1) near, fun _ => 0⟩

/-- The square of the length of the base line. -/
def baseSquare (base : Fin 2 → CPoint) : Int :=
  ((base 1).xVal - (base 0).xVal) * ((base 1).xVal - (base 0).xVal) +
    ((base 1).yVal - (base 0).yVal) * ((base 1).yVal - (base 0).yVal)

/-- The tables, and `pt_x`. -/
def pixelTables (root : K → K) (base : Fin 2 → CPoint) (baseLength near : K) (p : Fin 4 → CPoint) (l20 l13 : SideLine K) :
    Except CalibrationFault (Pixels K × K) := do
  let start : K := startPoint base
  let ending : K := endPoint base
  if l20.upright && l13.upright then
    let dis ← divide .divisionByZero baseLength (start - ending + 1)
    let s ← countDown (parallelRow near dis) (fullRows - 1) (.start near)
    return (s, 0)
  else
    let (x0, y0) ← vanishingPoint p l20 l13
    let temp1 ← divide .divisionByZero ((fullRows : K) - 1 - ending) (ending - y0)
    let temp2 ← divide .divisionByZero ((fullRows : K) - 1 - start) (start - y0)
    let scaled ← divide .divisionByZero (baseLength * (start - ending + 1)) (root (baseSquare base))
    let dis ← divide .divisionByZero scaled (temp1 - temp2)
    let s ← countDown (perspectiveRow near dis y0) (fullRows - 1) (.start near)
    return (s, x0)

/-- The column `pt3_x` in which the middle of a lane crosses the upper side. -/
def laneColumn (l01 : SideLine K) (lane : SpeedLane) : Except CalibrationFault K := do
  if lane.upperMiddle.x ≠ lane.lowerMiddle.x then
    let road ← lineThrough lane.upperMiddle lane.lowerMiddle
    crossing l01 road
  else return lane.upperMiddle.xVal

/-- A row of a table. -/
def tableRow [FloorRing K] (fault : Int → CalibrationFault) (y : K) : Except CalibrationFault Nat :=
  let temp := truncate (y + 1 / 2)
  if 0 ≤ temp ∧ temp < fullRows then .ok temp.toNat else .error (fault temp)

/-- The loop over the rows below the first one of a lane. -/
def rowsBelow (disPixel : Nat → K) (temp : Nat) (actual : Nat → K) : Nat → K :=
  (List.range' (temp + 1) (fullRows - 1 - temp)).foldl
    (fun a j => Function.update a j (a (j - 1) - disPixel (j - 1))) actual

/-- A row above it. -/
def rowAbove (disPixel actual : Nat → K) (j : Nat) : Except CalibrationFault (Nat → K) :=
  .ok (Function.update actual j (actual (j + 1) + disPixel j))

/-- `actual_distance` of a lane; `before` is what it was. -/
def laneDistance [FloorRing K] (pixels : Pixels K) (l01 : SideLine K) (ptY : K) (before : Nat → K) (lane : SpeedLane) :
    Except CalibrationFault (Nat → K) := do
  let pt3X ← laneColumn l01 lane
  let temp ← tableRow .actualDistance (l01.k * pt3X + l01.b)
  let row ← tableRow .calibrationBaseLine ptY
  let actual := Function.update before temp (pixels.calibrationBaseLine row)
  countDown (rowAbove pixels.disPixel) temp (rowsBelow pixels.disPixel temp actual)

/-- The loop over the lanes; `before i` is the table of the lane `i` before. -/
def laneDistances [FloorRing K] (pixels : Pixels K) (l01 : SideLine K) (ptY : K) (before : Nat → Nat → K)
    (done : List (Nat → K)) (lane : SpeedLane) : Except CalibrationFault (List (Nat → K)) := do
  let actual ← laneDistance pixels l01 ptY (before done.length) lane
  return done ++ [actual]

/-- `camera_calibration`. -/
def cameraCalibration [FloorRing K] (root : K → K) (base : Fin 2 → CPoint) (baseLength : K) (points : Fin 4 → CPoint)
    (near : K) (lanes : List SpeedLane) (before : Nat → Nat → K) : Except CalibrationFault (Calibration K) := do
  let p := sortPoint points
  let l01 ← lineThrough (p 0) (p 1)
  let l13 ← lineThrough (p 1) (p 3)
  let _ ← lineThrough (K := K) (p 3) (p 2)
  let l20 ← lineThrough (p 2) (p 0)
  let (pixels, ptX) ← pixelTables root base baseLength near p l20 l13
  let actualDistance ← lanes.foldlM (laneDistances pixels l01 (l01.k * ptX + l01.b) before) []
  return ⟨pixels, actualDistance⟩

/-! ## Lines -/

/-- A point on the line of two points. -/
def OnSide (p q : CPoint) (x y : K) : Prop :=
  if p.x = q.x then x = p.xVal else (y - p.yVal) * (q.xVal - p.xVal) = (x - p.xVal) * (q.yVal - p.yVal)

/-- A point on what stands for the upper side: if its ends are in one column, this is a steep line through the origin. -/
def OnUpperSide (p q : CPoint) (x y : K) : Prop := if p.x = q.x then y = 1000000 * x else OnSide p q x y

end

/-- Two lines of two points each that have the same slope. -/
def Parallel (p q r s : CPoint) : Prop :=
  p.x ≠ q.x ∧ r.x ≠ s.x ∧ (p.yVal - q.yVal) * (r.xVal - s.xVal) = (r.yVal - s.yVal) * (p.xVal - q.xVal)

theorem CPoint.xVal_sub {p q : CPoint} (apart : p.x ≠ q.x) : p.xVal - q.xVal ≠ 0 := by
  intro same
  refine apart (UInt16.toNat_inj.mp ?_)
  simp only [xVal] at same
  omega

section
variable {K : Type} [Field K] [LinearOrder K] [IsStrictOrderedRing K] {p q r s : CPoint} {x y : K}

/-- The outcome of `lineThrough`. -/
def sideLine (p q : CPoint) : SideLine K :=
  if p.x = q.x then ⟨1000000, 0⟩
  else ⟨(p.yVal - q.yVal : Int) / (p.xVal - q.xVal : Int),
    p.yVal - (p.yVal - q.yVal : Int) / (p.xVal - q.xVal : Int) * p.xVal⟩

omit [LinearOrder K] [IsStrictOrderedRing K] in
theorem sideLine_sloping (sloping : p.x ≠ q.x) : (sideLine p q : SideLine K) =
    ⟨(p.yVal - q.yVal : Int) / (p.xVal - q.xVal : Int),
      p.yVal - (p.yVal - q.yVal : Int) / (p.xVal - q.xVal : Int) * p.xVal⟩ := if_neg sloping

theorem lineThrough_eq (p q : CPoint) : lineThrough p q = .ok (sideLine p q : SideLine K) := by
  unfold lineThrough
  split
  case isTrue sloping =>
    rw [divide_ok (Int.cast_ne_zero.mpr (CPoint.xVal_sub sloping)), sideLine_sloping sloping]
    rfl
  case isFalse upright =>
    rw [sideLine, if_pos (not_ne_iff.mp upright)]
    rfl

/-- Only an upright line is as steep as its mark: the coordinates have 16 bits. -/
theorem sideLine_k_le (sloping : p.x ≠ q.x) : (sideLine p q : SideLine K).k ≤ 65535 := by
  rw [sideLine_sloping sloping]
  have far : 1 ≤ |p.xVal - q.xVal| := Int.one_le_abs (CPoint.xVal_sub sloping)
  have high : |p.yVal - q.yVal| ≤ 65535 := by
    have first := p.y.toNat_lt
    have second := q.y.toNat_lt
    simp only [CPoint.yVal, abs_le]
    omega
  calc ((p.yVal - q.yVal : Int) : K) / (p.xVal - q.xVal : Int)
      ≤ |((p.yVal - q.yVal : Int) : K) / (p.xVal - q.xVal : Int)| := le_abs_self _
    _ = ((|p.yVal - q.yVal| : Int) : K) / (|p.xVal - q.xVal| : Int) := by rw [abs_div, Int.cast_abs, Int.cast_abs]
    _ ≤ ((|p.yVal - q.yVal| : Int) : K) := div_le_self (by positivity) (by exact_mod_cast far)
    _ ≤ 65535 := by exact_mod_cast high

theorem sideLine_upright : (sideLine p q : SideLine K).upright = true ↔ p.x = q.x := by
  rw [SideLine.upright, decide_eq_true_eq]
  by_cases same : p.x = q.x
  · rw [sideLine, if_pos same]
    exact iff_of_true (by norm_num) same
  · refine iff_of_false (not_lt.mpr ?_) same
    exact (sideLine_k_le same).trans (by norm_num)

theorem onSide_iff (sloping : p.x ≠ q.x) :
    OnSide p q x y ↔ y = (sideLine p q : SideLine K).k * x + (sideLine p q : SideLine K).b := by
  have nonzero : (p.xVal : K) - q.xVal ≠ 0 := by exact_mod_cast CPoint.xVal_sub sloping
  rw [OnSide, if_neg sloping, sideLine_sloping sloping]
  simp only [Int.cast_sub]
  constructor
  · intro on
    field_simp
    linear_combination -on
  · intro row
    rw [row]
    field_simp
    ring

theorem onUpperSide_iff : OnUpperSide p q x y ↔ y = (sideLine p q : SideLine K).k * x + (sideLine p q : SideLine K).b := by
  unfold OnUpperSide
  split
  case isTrue upright => rw [sideLine, if_pos upright, add_zero]
  case isFalse sloping => exact onSide_iff sloping

/-- An upright line is parallel to none, and its mark is the slope of none. -/
theorem parallel_iff (sloping : r.x ≠ s.x) :
    Parallel p q r s ↔ (sideLine p q : SideLine K).k = (sideLine r s : SideLine K).k := by
  by_cases upright : p.x = q.x
  · refine iff_of_false (fun parallel => parallel.1 upright) (ne_of_gt ?_)
    have mark : (sideLine p q : SideLine K).k = 1000000 := by rw [sideLine, if_pos upright]
    rw [mark]
    exact (sideLine_k_le sloping).trans_lt (by norm_num)
  · have nonzero : ((p.xVal - q.xVal : Int) : K) ≠ 0 := Int.cast_ne_zero.mpr (CPoint.xVal_sub upright)
    have nonzero' : ((r.xVal - s.xVal : Int) : K) ≠ 0 := Int.cast_ne_zero.mpr (CPoint.xVal_sub sloping)
    rw [sideLine_sloping upright, sideLine_sloping sloping, div_eq_div_iff nonzero nonzero', Parallel, and_iff_right upright,
      and_iff_right sloping]
    exact_mod_cast Iff.rfl

/-- A line that is not upright crosses one to which it is not parallel in one point, which is computed. -/
theorem crossing_ok (sloping : r.x ≠ s.x) (apart : ¬ Parallel p q r s) :
    ∃ x0 : K, crossing (sideLine p q) (sideLine r s) = .ok x0 ∧ ∀ x y,
      (OnUpperSide p q x y ∧ OnSide r s x y) ↔
        x = x0 ∧ y = (sideLine p q : SideLine K).k * x0 + (sideLine p q : SideLine K).b := by
  rw [parallel_iff (K := K) sloping] at apart
  refine ⟨_, divide_ok (sub_ne_zero.mpr (Ne.symm apart)), fun x y => ?_⟩
  rw [onUpperSide_iff, onSide_iff sloping, crossing_iff (Ne.symm apart)]
  refine and_congr_right fun column => ?_
  rw [column]

theorem crossing_error (sloping : r.x ≠ s.x) (parallel : Parallel p q r s) :
    crossing (sideLine p q : SideLine K) (sideLine r s) = .error .divisionByZero := by
  rw [crossing, divide, if_pos (sub_eq_zero.mpr ((parallel_iff sloping).mp parallel).symm)]

end

/-! ## The vanishing point -/

/-- Both sides of the sorted points are upright. -/
def Upright (p : Fin 4 → CPoint) : Prop := (p 2).x = (p 0).x ∧ (p 1).x = (p 3).x

instance (p : Fin 4 → CPoint) : Decidable (Upright p) := inferInstanceAs (Decidable (_ ∧ _))

section
variable {K : Type} [Field K] [LinearOrder K] [IsStrictOrderedRing K] {p : Fin 4 → CPoint}

/-- A point in which the two sides meet. -/
def Meet (p : Fin 4 → CPoint) (x y : K) : Prop := OnSide (p 1) (p 3) x y ∧ OnSide (p 2) (p 0) x y

theorem vanishingPoint_ok (sloping : ¬ Upright p) (apart : ¬ Parallel (p 1) (p 3) (p 2) (p 0)) :
    ∃ x0 y0 : K, vanishingPoint p (sideLine (p 2) (p 0)) (sideLine (p 1) (p 3)) = .ok (x0, y0) ∧
      ∀ x y, Meet p x y ↔ x = x0 ∧ y = y0 := by
  unfold vanishingPoint Meet
  by_cases left : (p 2).x = (p 0).x
  · have right : (p 1).x ≠ (p 3).x := fun right => sloping ⟨left, right⟩
    rw [if_pos (sideLine_upright.mpr left)]
    refine ⟨_, _, rfl, fun x y => ?_⟩
    have column : ((p 2).xVal : K) = (p 0).xVal := by rw [CPoint.xVal, CPoint.xVal, left]
    rw [onSide_iff right, OnSide, if_pos left, column, and_comm]
    refine and_congr_right fun same => ?_
    rw [same]
  · rw [if_neg (mt sideLine_upright.mp left)]
    by_cases right : (p 1).x = (p 3).x
    · rw [if_pos (sideLine_upright.mpr right)]
      refine ⟨_, _, rfl, fun x y => ?_⟩
      rw [onSide_iff left, OnSide, if_pos right]
      refine and_congr_right fun same => ?_
      rw [same]
    · rw [if_neg (mt sideLine_upright.mp right)]
      obtain ⟨x0, column, meets⟩ := crossing_ok (K := K) left apart
      rw [column]
      simp only [OnUpperSide, if_neg right] at meets
      exact ⟨_, _, rfl, meets⟩

theorem vanishingPoint_error (parallel : Parallel (p 1) (p 3) (p 2) (p 0)) :
    vanishingPoint p (sideLine (p 2) (p 0) : SideLine K) (sideLine (p 1) (p 3)) = .error .divisionByZero := by
  rw [vanishingPoint, if_neg (mt sideLine_upright.mp parallel.2.1), if_neg (mt sideLine_upright.mp parallel.1),
    crossing_error parallel.2.1 parallel]
  rfl

end

/-! ## The tables of the rows -/

section
variable {K : Type} [Field K] [LinearOrder K] {near dis y0 : K}

/-- The tables below a row are those of the formula. -/
structure RowsFrom (near dis y0 : K) (r : Nat) (s : Pixels K) : Prop where
  line : ∀ i, r ≤ i → i ≤ fullRows - 1 → s.calibrationBaseLine i = near + dis * ((fullRows : K) - 1 - i) / (i - y0)
  pixel : ∀ i, r ≤ i → i < fullRows - 1 → s.disPixel i = s.calibrationBaseLine i - s.calibrationBaseLine (i + 1)

theorem perspectiveRow_step {i : Nat} {s : Pixels K} (low : i < fullRows - 1) (apart : (i : K) - y0 ≠ 0)
    (rows : RowsFrom near dis y0 (i + 1) s) :
    ∃ t, perspectiveRow near dis y0 s i = .ok t ∧ RowsFrom near dis y0 i t := by
  rw [perspectiveRow, divide_ok apart]
  refine ⟨_, rfl, ?_, ?_⟩
  · intro j first last
    by_cases same : j = i
    · subst same
      exact Function.update_self ..
    · simp only [Function.update_of_ne same]
      exact rows.line j (by omega) last
  · intro j first last
    by_cases same : j = i
    · subst same
      exact Function.update_self ..
    · have next : j + 1 ≠ i := by omega
      simp only [Function.update_of_ne same, Function.update_of_ne next]
      exact rows.pixel j (by omega) last

omit [LinearOrder K] in
theorem RowsFrom.start : RowsFrom near dis y0 (fullRows - 1) (.start near) where
  line := by
    intro i first last
    obtain rfl : i = fullRows - 1 := by omega
    have lastRow : ((fullRows - 1 : Nat) : K) = fullRows - 1 := by
      rw [Nat.cast_sub (by decide), Nat.cast_one]
    rw [lastRow, sub_self, mul_zero, zero_div, add_zero]
    simp only [Pixels.start, Function.update_self]
  pixel := fun i first last => absurd last (by omega)

/-- The loop over the rows ends exactly if the vanishing point is in none of them. -/
theorem perspectiveRows_iff : (∃ s, countDown (perspectiveRow near dis y0) (fullRows - 1) (.start near) = .ok s) ↔
    ∀ i : Nat, i < fullRows - 1 → (i : K) - y0 ≠ 0 := by
  constructor
  · rintro ⟨s, run⟩ i low zero
    have fails (t : Pixels K) : ∃ e, perspectiveRow near dis y0 t i = .error e :=
      ⟨.divisionByZero, by rw [perspectiveRow, divide, if_pos zero]; rfl⟩
    obtain ⟨e, fault⟩ := countDown_error fails low
    cases run.symm.trans fault
  · intro apart
    obtain ⟨s, run, _⟩ := countDown_ok (RowsFrom near dis y0)
      (fun i s low rows => perspectiveRow_step low (apart i low) rows) RowsFrom.start
    exact ⟨s, run⟩

theorem perspectiveRows_rows {s : Pixels K} (run : countDown (perspectiveRow near dis y0) (fullRows - 1) (.start near) = .ok s) :
    RowsFrom near dis y0 0 s := by
  have apart := perspectiveRows_iff.mp ⟨s, run⟩
  obtain ⟨s', run', rows⟩ := countDown_ok (RowsFrom near dis y0)
    (fun i s low rows => perspectiveRow_step low (apart i low) rows) RowsFrom.start
  cases run.symm.trans run'
  exact rows

/-- The tables if both sides are upright. -/
structure EvenRows (near dis : K) (r : Nat) (s : Pixels K) : Prop where
  last : s.calibrationBaseLine (fullRows - 1) = near
  line : ∀ i, r ≤ i → i < fullRows - 1 → s.calibrationBaseLine i = near + dis
  pixel : ∀ i, r ≤ i → i < fullRows - 1 → s.disPixel i = dis

omit [LinearOrder K] in
theorem parallelRow_step {i : Nat} {s : Pixels K} (low : i < fullRows - 1) (rows : EvenRows near dis (i + 1) s) :
    ∃ t, parallelRow near dis s i = .ok t ∧ EvenRows near dis i t := by
  refine ⟨_, rfl, ?_, ?_, ?_⟩
  · have other : fullRows - 1 ≠ i := by omega
    simp only [Function.update_of_ne other]
    exact rows.last
  · intro j first last
    by_cases same : j = i
    · subst same
      exact Function.update_self ..
    · simp only [Function.update_of_ne same]
      exact rows.line j (by omega) last
  · intro j first last
    by_cases same : j = i
    · subst same
      exact Function.update_self ..
    · simp only [Function.update_of_ne same]
      exact rows.pixel j (by omega) last

omit [LinearOrder K] in
variable (near dis) in
theorem parallelRows_ok : ∃ s : Pixels K, countDown (parallelRow near dis) (fullRows - 1) (.start near) = .ok s ∧
    EvenRows near dis 0 s := by
  refine countDown_ok (EvenRows near dis) (fun i s low rows => parallelRow_step low rows) ⟨?_, ?_, ?_⟩
  · simp only [Pixels.start, Function.update_self]
  · exact fun i first last => absurd last (by omega)
  · exact fun i first last => absurd last (by omega)

end

/-! ## The base line -/

section
variable {base : Fin 2 → CPoint}

theorem endPoint_le_startPoint : endPoint base ≤ startPoint base := by
  unfold endPoint startPoint
  split
  case isTrue above => exact Nat.le_of_lt (UInt16.lt_iff_toNat_lt.mp above)
  case isFalse below => exact UInt16.le_iff_toNat_le.mp (UInt16.not_lt.mp below)

theorem startPoint_eq_endPoint_iff : startPoint base = endPoint base ↔ (base 0).y = (base 1).y := by
  unfold endPoint startPoint
  rw [← UInt16.toNat_inj]
  split
  · rfl
  · exact eq_comm

theorem baseSquare_pos (apart : (base 0).y ≠ (base 1).y) : 0 < baseSquare base := by
  have nonzero : (base 1).yVal - (base 0).yVal ≠ 0 := by
    intro same
    refine apart (UInt16.toNat_inj.mp ?_)
    simp only [CPoint.yVal] at same
    omega
  exact add_pos_of_nonneg_of_pos (mul_self_nonneg _) (mul_self_pos.mpr nonzero)

end

section
variable {K : Type} [Field K] [LinearOrder K] [IsStrictOrderedRing K] {root : K → K} {base : Fin 2 → CPoint}
  {baseLength near x0 y0 : K} {p : Fin 4 → CPoint}

/-- The vanishing point is in neither row of the base line and in no row of the image. -/
structure RowsApart (base : Fin 2 → CPoint) (y0 : K) : Prop where
  start : y0 ≠ startPoint base
  ending : y0 ≠ endPoint base
  image : ∀ row : Nat, row < fullRows → y0 ≠ row

/-- `dis` in the computation of the tables. -/
def rowScale (root : K → K) (base : Fin 2 → CPoint) (baseLength y0 : K) : K :=
  baseLength * ((startPoint base : K) - endPoint base + 1) / root (baseSquare base) /
    (((fullRows : K) - 1 - endPoint base) / (endPoint base - y0) - ((fullRows : K) - 1 - startPoint base) / (startPoint base - y0))

theorem both_upright_iff : ((sideLine (p 2) (p 0) : SideLine K).upright && (sideLine (p 1) (p 3) : SideLine K).upright) = true ↔
    Upright p := by
  rw [Bool.and_eq_true, sideLine_upright, sideLine_upright, Upright]

variable (root base baseLength near) in
/-- The tables if both sides are upright. -/
theorem pixelTables_upright (upright : Upright p) :
    ∃ s, pixelTables root base baseLength near p (sideLine (p 2) (p 0)) (sideLine (p 1) (p 3)) = .ok (s, 0) ∧
      EvenRows near (baseLength / ((startPoint base : K) - endPoint base + 1)) 0 s := by
  have nonneg : (0 : K) ≤ (startPoint base : K) - endPoint base :=
    sub_nonneg.mpr (Nat.cast_le.mpr endPoint_le_startPoint)
  have nonzero : (startPoint base : K) - endPoint base + 1 ≠ 0 := by positivity
  obtain ⟨s, run, rows⟩ := parallelRows_ok near (baseLength / ((startPoint base : K) - endPoint base + 1))
  refine ⟨s, ?_, rows⟩
  simp only [pixelTables, if_pos (both_upright_iff.mpr upright), divide_ok nonzero, ok_bind, run]
  rfl

/-- The ratio of the base line is zero only if the vanishing point is in the last row or the base line is horizontal. -/
theorem ratio_ne_zero_iff (start : (startPoint base : K) - y0 ≠ 0) (ending : (endPoint base : K) - y0 ≠ 0) :
    ((fullRows : K) - 1 - endPoint base) / (endPoint base - y0) - ((fullRows : K) - 1 - startPoint base) / (startPoint base - y0) ≠
      0 ↔ y0 ≠ (fullRows - 1 : Nat) ∧ (base 0).y ≠ (base 1).y := by
  have lastRow : ((fullRows - 1 : Nat) : K) = fullRows - 1 := by rw [Nat.cast_sub (by decide), Nat.cast_one]
  have rows : (startPoint base : K) ≠ endPoint base ↔ (base 0).y ≠ (base 1).y :=
    Nat.cast_inj.not.trans startPoint_eq_endPoint_iff.not
  rw [perspective_sub ending start, div_ne_zero_iff, mul_ne_zero_iff, mul_ne_zero_iff, lastRow, sub_ne_zero, sub_ne_zero, rows,
    and_iff_left ⟨ending, start⟩]
  exact and_congr_left fun _ => ne_comm

variable (base baseLength near) in
/-- When the tables are computed if not both sides are upright. -/
theorem pixelTables_iff (positive : ∀ v : K, 0 < v → 0 < root v) (sloping : ¬ Upright p)
    (vanishing : vanishingPoint p (sideLine (p 2) (p 0)) (sideLine (p 1) (p 3)) = .ok (x0, y0)) :
    (∃ out, pixelTables root base baseLength near p (sideLine (p 2) (p 0)) (sideLine (p 1) (p 3)) = .ok out) ↔
      (base 0).y ≠ (base 1).y ∧ RowsApart base y0 := by
  simp only [pixelTables, if_neg (mt both_upright_iff.mp sloping), vanishing, ok_bind, divide_bind_iff]
  rw [bind_pure_iff, perspectiveRows_iff]
  constructor
  · rintro ⟨ending, start, _, ratio, rows⟩
    obtain ⟨last, slanted⟩ := (ratio_ne_zero_iff start ending).mp ratio
    refine ⟨slanted, (sub_ne_zero.mp start).symm, (sub_ne_zero.mp ending).symm, fun row low => ?_⟩
    by_cases same : row = fullRows - 1
    · rw [same]
      exact last
    · exact (sub_ne_zero.mp (rows row (by omega))).symm
  · rintro ⟨slanted, apart⟩
    have start : (startPoint base : K) - y0 ≠ 0 := sub_ne_zero.mpr apart.start.symm
    have ending : (endPoint base : K) - y0 ≠ 0 := sub_ne_zero.mpr apart.ending.symm
    have length : 0 < root (baseSquare base) := positive _ (Int.cast_pos.mpr (baseSquare_pos slanted))
    refine ⟨ending, start, length.ne', (ratio_ne_zero_iff start ending).mpr ⟨apart.image _ (by decide), slanted⟩, ?_⟩
    exact fun row low => sub_ne_zero.mpr (apart.image row (by omega)).symm

/-- What the tables are then. -/
theorem pixelTables_rows {s : Pixels K} {ptX : K} (sloping : ¬ Upright p)
    (vanishing : vanishingPoint p (sideLine (p 2) (p 0)) (sideLine (p 1) (p 3)) = .ok (x0, y0))
    (run : pixelTables root base baseLength near p (sideLine (p 2) (p 0)) (sideLine (p 1) (p 3)) = .ok (s, ptX)) :
    ptX = x0 ∧ RowsFrom near (rowScale root base baseLength y0) y0 0 s := by
  simp only [pixelTables, if_neg (mt both_upright_iff.mp sloping), vanishing, ok_bind] at run
  obtain ⟨temp1, first, run⟩ := bind_ok run
  obtain ⟨temp2, second, run⟩ := bind_ok run
  obtain ⟨scaled, third, run⟩ := bind_ok run
  obtain ⟨dis, fourth, run⟩ := bind_ok run
  obtain ⟨t, rows, run⟩ := bind_ok run
  cases run
  rw [divide_eq first, divide_eq second, divide_eq third] at fourth
  refine ⟨rfl, ?_⟩
  rw [rowScale, ← divide_eq fourth]
  exact perspectiveRows_rows rows

end

/-! ## The lanes -/

section
variable {K : Type} [Field K] [LinearOrder K] [IsStrictOrderedRing K] {p : Fin 4 → CPoint} {lane : SpeedLane}

/-- A row that is rounded to one of the image. -/
def InRows (y : K) : Prop := -1 < y + 1 / 2 ∧ y + 1 / 2 < fullRows

theorem tableRow_bind_iff [FloorRing K] {ω : Type} {fault : Int → CalibrationFault} {y : K} {f : Nat → Except CalibrationFault ω} :
    (∃ o, tableRow fault y >>= f = .ok o) ↔ InRows y ∧ ∃ o, f (truncate (y + 1 / 2)).toNat = .ok o := by
  have rows := truncate_iff (v := y + 1 / 2) (n := fullRows) (by decide)
  unfold tableRow
  by_cases inside : 0 ≤ truncate (y + 1 / 2) ∧ truncate (y + 1 / 2) < fullRows
  · simp only [if_pos inside]
    exact (and_iff_right (rows.mp inside)).symm
  · simp only [if_neg inside]
    refine iff_of_false ?_ fun both => inside (rows.mpr both.1)
    rintro ⟨o, done⟩
    cases done

/-- The middle of a lane crosses the upper side in a row of the image. -/
structure SpeedLane.Crosses (K : Type) [Field K] [LinearOrder K] (p : Fin 4 → CPoint) (lane : SpeedLane) : Prop where
  apart : ¬ Parallel (p 0) (p 1) lane.upperMiddle lane.lowerMiddle
  inside : ∀ x y : K, OnUpperSide (p 0) (p 1) x y → OnSide lane.upperMiddle lane.lowerMiddle x y → InRows y

theorem laneColumn_ok (apart : ¬ Parallel (p 0) (p 1) lane.upperMiddle lane.lowerMiddle) :
    ∃ x0 : K, laneColumn (sideLine (p 0) (p 1)) lane = .ok x0 ∧ ∀ x y,
      (OnUpperSide (p 0) (p 1) x y ∧ OnSide lane.upperMiddle lane.lowerMiddle x y) ↔
        x = x0 ∧ y = (sideLine (p 0) (p 1) : SideLine K).k * x0 + (sideLine (p 0) (p 1) : SideLine K).b := by
  unfold laneColumn
  split
  case isTrue sloping =>
    rw [lineThrough_eq]
    exact crossing_ok sloping apart
  case isFalse upright =>
    refine ⟨_, rfl, fun x y => ?_⟩
    rw [onUpperSide_iff, OnSide, if_pos (not_ne_iff.mp upright), and_comm]
    refine and_congr_right fun column => ?_
    rw [column]

theorem laneColumn_error (parallel : Parallel (p 0) (p 1) lane.upperMiddle lane.lowerMiddle) :
    laneColumn (sideLine (p 0) (p 1) : SideLine K) lane = .error .divisionByZero := by
  rw [laneColumn, if_pos parallel.2.1, lineThrough_eq]
  exact crossing_error parallel.2.1 parallel

/-- Every row from one on has the distance of the next one and that of the pixel. -/
def StepsFrom (disPixel : Nat → K) (r : Nat) (actual : Nat → K) : Prop :=
  ∀ i, r ≤ i → i < fullRows - 1 → actual i - actual (i + 1) = disPixel i

omit [LinearOrder K] [IsStrictOrderedRing K] in
theorem rowsBelow_steps (disPixel actual : Nat → K) (temp : Nat) : StepsFrom disPixel temp (rowsBelow disPixel temp actual) := by
  have all (n : Nat) : ∀ i, temp ≤ i → i < temp + n →
      (List.range' (temp + 1) n).foldl (fun a j => Function.update a j (a (j - 1) - disPixel (j - 1))) actual i -
        (List.range' (temp + 1) n).foldl (fun a j => Function.update a j (a (j - 1) - disPixel (j - 1))) actual (i + 1) =
          disPixel i := by
    induction n with
    | zero => exact fun i first last => absurd last (by omega)
    | succ n ih =>
      intro i first last
      rw [List.range'_1_concat, List.foldl_append, List.foldl_cons, List.foldl_nil]
      have row : temp + 1 + n - 1 = temp + n := by omega
      by_cases new : i = temp + n
      · have here : i + 1 = temp + 1 + n := by omega
        have other : i ≠ temp + 1 + n := by omega
        rw [here, Function.update_self, Function.update_of_ne other, row, new, sub_sub_cancel]
      · have other : i ≠ temp + 1 + n := by omega
        have other' : i + 1 ≠ temp + 1 + n := by omega
        rw [Function.update_of_ne other, Function.update_of_ne other']
        exact ih i first (by omega)
  intro i first last
  exact all (fullRows - 1 - temp) i first (by omega)

omit [LinearOrder K] [IsStrictOrderedRing K] in
theorem rowsAbove_steps {disPixel actual : Nat → K} {temp : Nat} (steps : StepsFrom disPixel temp actual) :
    ∃ t, countDown (rowAbove disPixel) temp actual = .ok t ∧ StepsFrom disPixel 0 t := by
  refine countDown_ok (StepsFrom disPixel) (fun i s low steps => ⟨_, rfl, fun j first last => ?_⟩) steps
  by_cases same : j = i
  · subst same
    rw [Function.update_self, Function.update_of_ne (by omega), add_sub_cancel_left]
  · rw [Function.update_of_ne same, Function.update_of_ne (by omega)]
    exact steps j (by omega) last

variable [FloorRing K] {pixels : Pixels K} {ptY : K} {before : Nat → K}

/-- When the table of a lane is computed. -/
theorem laneDistance_iff : (∃ actual, laneDistance pixels (sideLine (p 0) (p 1)) ptY before lane = .ok actual) ↔
    lane.Crosses K p ∧ InRows ptY := by
  unfold laneDistance
  by_cases parallel : Parallel (p 0) (p 1) lane.upperMiddle lane.lowerMiddle
  · rw [laneColumn_error parallel]
    refine iff_of_false ?_ fun both => both.1.apart parallel
    rintro ⟨actual, done⟩
    cases done
  · obtain ⟨x0, column, cross⟩ := laneColumn_ok (K := K) parallel
    rw [column, ok_bind, tableRow_bind_iff, tableRow_bind_iff]
    have rest (temp row : Nat) : ∃ actual, countDown (rowAbove pixels.disPixel) temp
        (rowsBelow pixels.disPixel temp (Function.update before temp (pixels.calibrationBaseLine row))) = .ok actual := by
      obtain ⟨actual, run, _⟩ := rowsAbove_steps (rowsBelow_steps pixels.disPixel _ temp)
      exact ⟨actual, run⟩
    rw [and_iff_left (rest _ _)]
    refine and_congr_left fun _ => ⟨fun inside => ⟨parallel, fun x y upper middle => ?_⟩, fun crosses => ?_⟩
    · rw [((cross x y).mp ⟨upper, middle⟩).2]
      exact inside
    · obtain ⟨upper, middle⟩ := (cross x0 _).mpr ⟨rfl, rfl⟩
      exact crosses.inside x0 _ upper middle

omit [IsStrictOrderedRing K] in
theorem laneDistance_steps {actual : Nat → K} (done : laneDistance pixels (sideLine (p 0) (p 1)) ptY before lane = .ok actual) :
    StepsFrom pixels.disPixel 0 actual := by
  unfold laneDistance at done
  obtain ⟨pt3X, _, done⟩ := bind_ok done
  obtain ⟨temp, _, done⟩ := bind_ok done
  obtain ⟨row, _, done⟩ := bind_ok done
  obtain ⟨t, run, steps⟩ := rowsAbove_steps (rowsBelow_steps pixels.disPixel
    (Function.update before temp (pixels.calibrationBaseLine row)) temp)
  cases done.symm.trans run
  exact steps

omit [IsStrictOrderedRing K] in
theorem laneDistances_steps {before : Nat → Nat → K} {lanes : List SpeedLane} {tables : List (Nat → K)}
    (run : lanes.foldlM (laneDistances pixels (sideLine (p 0) (p 1)) ptY before) [] = .ok tables) :
    ∀ actual ∈ tables, StepsFrom pixels.disPixel 0 actual := by
  refine foldlM_invariant (fun _ tables => ∀ actual ∈ tables, StepsFrom pixels.disPixel 0 actual) ?_
    (fun actual member => absurd member List.not_mem_nil) run
  intro _ lane tables tables' steps done
  obtain ⟨actual, made, rest⟩ := bind_ok done
  cases rest
  intro table member
  rcases List.mem_append.mp member with old | new
  · exact steps table old
  · rw [List.mem_singleton.mp new]
    exact laneDistance_steps made

/-- When the tables of all lanes are computed. -/
theorem laneDistances_iff {before : Nat → Nat → K} {lanes : List SpeedLane} :
    (∃ tables, lanes.foldlM (laneDistances pixels (sideLine (p 0) (p 1)) ptY before) [] = .ok tables) ↔
      ∀ lane ∈ lanes, lane.Crosses K p ∧ InRows ptY :=
  foldlM_each_iff fun _ _ => bind_pure_iff.trans laneDistance_iff

end

/-! ## The whole calibration -/

section
variable {K : Type} [Field K] [LinearOrder K]

/-- The column from which the distances are taken: that of the vanishing point, or the first if both sides are upright. -/
def StartColumn (p : Fin 4 → CPoint) (x : K) : Prop := if Upright p then x = 0 else ∃ y, Meet p x y

/-- The sides, the base line and the lanes for which the calibration is defined. -/
structure Calibratable (K : Type) [Field K] [LinearOrder K] (base : Fin 2 → CPoint) (p : Fin 4 → CPoint)
    (lanes : List SpeedLane) : Prop where
  sides : ¬ Upright p → ¬ Parallel (p 1) (p 3) (p 2) (p 0)
  slanted : ¬ Upright p → (base 0).y ≠ (base 1).y
  rows : ¬ Upright p → ∀ x y : K, Meet p x y → RowsApart base y
  start : lanes ≠ [] → ∀ x y : K, StartColumn p x → OnUpperSide (p 0) (p 1) x y → InRows y
  lanes : ∀ lane ∈ lanes, lane.Crosses K p

variable [IsStrictOrderedRing K] [FloorRing K] {root : K → K} {base : Fin 2 → CPoint} {baseLength near : K}
  {points : Fin 4 → CPoint} {lanes : List SpeedLane} {before : Nat → Nat → K}

/-- The lines of the sides are always computed. -/
theorem cameraCalibration_eq : cameraCalibration root base baseLength points near lanes before = (do
    let (pixels, ptX) ← pixelTables root base baseLength near (sortPoint points)
      (sideLine (sortPoint points 2) (sortPoint points 0)) (sideLine (sortPoint points 1) (sortPoint points 3))
    let actualDistance ← lanes.foldlM (laneDistances pixels (sideLine (sortPoint points 0) (sortPoint points 1))
      ((sideLine (sortPoint points 0) (sortPoint points 1) : SideLine K).k * ptX +
        (sideLine (sortPoint points 0) (sortPoint points 1) : SideLine K).b) before) []
    return ⟨pixels, actualDistance⟩) := by
  simp only [cameraCalibration, lineThrough_eq, ok_bind]

/-- After the tables of the rows only those of the lanes may fail. -/
theorem cameraCalibration_lanes {pixels : Pixels K} {ptX : K}
    (done : pixelTables root base baseLength near (sortPoint points) (sideLine (sortPoint points 2) (sortPoint points 0))
      (sideLine (sortPoint points 1) (sortPoint points 3)) = .ok (pixels, ptX))
    (column : ∀ x, StartColumn (sortPoint points) x ↔ x = ptX) :
    (∃ c, cameraCalibration root base baseLength points near lanes before = .ok c) ↔
      (lanes ≠ [] → ∀ x y : K, StartColumn (sortPoint points) x → OnUpperSide (sortPoint points 0) (sortPoint points 1) x y →
        InRows y) ∧ ∀ lane ∈ lanes, lane.Crosses K (sortPoint points) := by
  rw [cameraCalibration_eq, done, ok_bind, bind_pure_iff, laneDistances_iff]
  have row : (∀ x y : K, StartColumn (sortPoint points) x → OnUpperSide (sortPoint points 0) (sortPoint points 1) x y →
      InRows y) ↔ InRows ((sideLine (sortPoint points 0) (sortPoint points 1) : SideLine K).k * ptX +
        (sideLine (sortPoint points 0) (sortPoint points 1) : SideLine K).b) := by
    simp only [column, onUpperSide_iff]
    constructor
    · exact fun inside => inside _ _ rfl rfl
    · rintro inside x y rfl rfl
      exact inside
  rw [row]
  constructor
  · intro each
    refine ⟨fun some => ?_, fun lane member => (each lane member).1⟩
    obtain ⟨lane, member⟩ := List.exists_mem_of_ne_nil lanes some
    exact (each lane member).2
  · rintro ⟨start, crosses⟩ lane member
    exact ⟨crosses lane member, start (List.ne_nil_of_mem member)⟩

/-- When the calibration is defined. -/
theorem cameraCalibration_iff (positive : ∀ v : K, 0 < v → 0 < root v) :
    (∃ c, cameraCalibration root base baseLength points near lanes before = .ok c) ↔
      Calibratable K base (sortPoint points) lanes := by
  by_cases upright : Upright (sortPoint points)
  · obtain ⟨pixels, done, _⟩ := pixelTables_upright root base baseLength near upright
    rw [cameraCalibration_lanes done fun x => by rw [StartColumn, if_pos upright]]
    constructor
    · rintro ⟨start, crosses⟩
      exact ⟨absurd upright, absurd upright, absurd upright, start, crosses⟩
    · exact fun all => ⟨all.start, all.lanes⟩
  · by_cases parallel : Parallel (sortPoint points 1) (sortPoint points 3) (sortPoint points 2) (sortPoint points 0)
    · refine iff_of_false ?_ fun all => all.sides upright parallel
      rintro ⟨c, done⟩
      rw [cameraCalibration_eq, pixelTables, if_neg (mt both_upright_iff.mp upright), vanishingPoint_error parallel] at done
      cases done
    · obtain ⟨x0, y0, vanishing, meets⟩ := vanishingPoint_ok (K := K) upright parallel
      have tables := pixelTables_iff base baseLength near positive upright vanishing
      have column (x : K) : StartColumn (sortPoint points) x ↔ x = x0 := by
        simp only [StartColumn, if_neg upright, meets, exists_and_left, exists_eq, and_true]
      constructor
      · intro some
        obtain ⟨c, done⟩ := some
        rw [cameraCalibration_eq] at done
        obtain ⟨⟨pixels, ptX⟩, first, _⟩ := bind_ok done
        obtain ⟨slanted, apart⟩ := tables.mp ⟨_, first⟩
        rw [(pixelTables_rows upright vanishing first).1] at first
        obtain ⟨start, crosses⟩ := (cameraCalibration_lanes first column).mp ⟨c, by rw [cameraCalibration_eq]; exact done⟩
        refine ⟨fun _ => parallel, fun _ => slanted, fun _ x y meet => ?_, start, crosses⟩
        rw [((meets x y).mp meet).2]
        exact apart
      · intro all
        obtain ⟨⟨pixels, ptX⟩, first⟩ := tables.mpr ⟨all.slanted upright, all.rows upright x0 y0 ((meets x0 y0).mpr ⟨rfl, rfl⟩)⟩
        rw [(pixelTables_rows upright vanishing first).1] at first
        exact (cameraCalibration_lanes first column).mpr ⟨all.start, all.lanes⟩

end

/-- The lanes of `DownSpeedCfg` when the camera is calibrated. -/
def SpeedCfg.downSpeedLanes (u : Conversions) (cfg : SpeedCfg) : List SpeedLane :=
  cfg.lanes.map fun lane => lane.adjusted (lane.coil.aligned u.corner) (lane.queue.aligned u.corner)

theorem downSpeedCfg_eq {u : Conversions} {z : StructSizes} {cfg : SpeedCfg} {t : Parsed}
    (accepted : cfgStructParse u z cfg = .ok t) : t.downSpeedCfg = cfg.downSpeedLanes u := by
  obtain ⟨_, rfl⟩ := cfgStructParse_iff.mp accepted
  exact (placed_run u z cfg).corners

/-- **Where the calibration is safe.** For a configuration that is accepted and any calibration points and base line, the
calibration divides by no zero and reads and writes rows of the image only, exactly if the two sides are upright, or they meet
in a row that is none of the image nor of the base line, which is not horizontal; and the upper side is in the image in the
column of the vanishing point and where the middle of each lane crosses it. -/
theorem calibration_safe_iff (u : Conversions) (z : StructSizes) (cfg : SpeedCfg) (t : Parsed) (base : Fin 2 → CPoint)
    (baseLength near : ℝ) (points : Fin 4 → CPoint) (before : Nat → Nat → ℝ) (accepted : cfgStructParse u z cfg = .ok t) :
    (∃ c, cameraCalibration Real.sqrt base baseLength points near t.downSpeedCfg before = .ok c) ↔
      Calibratable ℝ base (sortPoint points) (cfg.downSpeedLanes u) := by
  rw [cameraCalibration_iff fun _ => Real.sqrt_pos.mpr, downSpeedCfg_eq accepted]

/-- Sides that meet above the image. -/
def trapezoid : Fin 4 → CPoint := ![⟨200, 100⟩, ⟨300, 100⟩, ⟨100, 400⟩, ⟨400, 400⟩]

def uprightBase : Fin 2 → CPoint := ![⟨250, 400⟩, ⟨250, 300⟩]

theorem trapezoid_sorted : sortPoint trapezoid = trapezoid := by decide

theorem trapezoid_meet {x y : ℝ} (meet : Meet trapezoid x y) : x = 250 ∧ y = -50 := by
  have right : (trapezoid 1).x ≠ (trapezoid 3).x := by decide
  have left : (trapezoid 2).x ≠ (trapezoid 0).x := by decide
  rw [Meet, OnSide, if_neg right, OnSide, if_neg left] at meet
  simp only [trapezoid, CPoint.xVal, CPoint.yVal, Matrix.cons_val, UInt16.reduceToNat] at meet
  norm_num at meet
  constructor <;> linarith

theorem level_upper {p q : CPoint} {x y : ℝ} (apart : p.x ≠ q.x) (level : p.y = q.y) (upper : OnUpperSide p q x y) :
    y = p.yVal := by
  have same : p.yVal = q.yVal := congrArg (fun y : UInt16 => (y.toNat : Int)) level
  have nonzero : (q.xVal : ℝ) - p.xVal ≠ 0 := by exact_mod_cast CPoint.xVal_sub apart.symm
  rw [OnUpperSide, if_neg apart, OnSide, if_neg apart, same, sub_self, mul_zero] at upper
  rw [same]
  exact sub_eq_zero.mp ((mul_eq_zero.mp upper).resolve_right nonzero)

theorem inRows_hundred : InRows ((100 : Int) : ℝ) := by norm_num [InRows, fullRows]

/-- The middle of this lane is upright. -/
theorem rectLane_crosses {p : Fin 4 → CPoint} (apart : (p 0).x ≠ (p 1).x) (level : (p 0).y = (p 1).y)
    (inside : InRows ((p 0).yVal : ℝ)) :
    ∀ lane ∈ (rectLane 100 400 100 110).downSpeedLanes ⟨fun _ => 0, fun _ => 0⟩, lane.Crosses ℝ p := by
  have middle : ∀ lane ∈ (rectLane 100 400 100 110).downSpeedLanes ⟨fun _ => 0, fun _ => 0⟩,
      lane.upperMiddle.x = lane.lowerMiddle.x := by decide +kernel
  intro lane member
  refine ⟨fun parallel => parallel.2.1 (middle lane member), fun x y upper _ => ?_⟩
  rw [level_upper apart level upper]
  exact inside

theorem trapezoid_calibratable : Calibratable ℝ uprightBase trapezoid
    ((rectLane 100 400 100 110).downSpeedLanes ⟨fun _ => 0, fun _ => 0⟩) where
  sides := fun _ parallel => absurd parallel.2.2 (by decide)
  slanted := fun _ => by decide
  rows := by
    intro _ x y meet
    rw [(trapezoid_meet meet).2]
    refine ⟨?_, ?_, fun row _ => ?_⟩
    · exact ne_of_lt (lt_of_lt_of_le (by norm_num) (Nat.cast_nonneg _))
    · exact ne_of_lt (lt_of_lt_of_le (by norm_num) (Nat.cast_nonneg _))
    · exact ne_of_lt (lt_of_lt_of_le (by norm_num) (Nat.cast_nonneg _))
  start := by
    intro _ x y _ upper
    rw [level_upper (by decide) (by decide) upper]
    exact inRows_hundred
  lanes := rectLane_crosses (by decide) (by decide) inRows_hundred

theorem trapezoid_calibrated : ∃ t, cfgStructParse ⟨fun _ => 0, fun _ => 0⟩ someSizes (rectLane 100 400 100 110) = .ok t ∧
    ∃ c, cameraCalibration Real.sqrt uprightBase 10 trapezoid 5 t.downSpeedCfg (fun _ _ => 0) = .ok c := by
  have accepted := cfgStructParse_ok ⟨fun _ => 0, fun _ => 0⟩ someSizes rectLane_near
  refine ⟨_, accepted, (calibration_safe_iff _ _ _ _ _ _ _ _ _ accepted).mpr ?_⟩
  rw [trapezoid_sorted]
  exact trapezoid_calibratable

/-- With a horizontal base line its length is divided by zero. -/
theorem horizontalBase_divides : ∃ t, cfgStructParse ⟨fun _ => 0, fun _ => 0⟩ someSizes (rectLane 100 400 100 110) = .ok t ∧
    ¬ ∃ c, cameraCalibration Real.sqrt ![⟨200, 300⟩, ⟨300, 300⟩] 10 trapezoid 5 t.downSpeedCfg (fun _ _ => 0) = .ok c := by
  refine ⟨_, cfgStructParse_ok ⟨fun _ => 0, fun _ => 0⟩ someSizes rectLane_near, ?_⟩
  rw [cameraCalibration_iff fun _ => Real.sqrt_pos.mpr, trapezoid_sorted]
  intro all
  exact all.slanted (by decide) rfl

/-! ## What the tables say -/

section
variable {K : Type} [Field K] [LinearOrder K] {root : K → K} {base : Fin 2 → CPoint} {baseLength near y0 : K}
  {points : Fin 4 → CPoint} {lanes : List SpeedLane} {before : Nat → Nat → K} {c : Calibration K}

/-- The tables agree: a row is farther than the next one by its pixel, the rows of the base line by its length as it is scaled
to the rows, and the distances of a lane add up the pixels. -/
structure Calibration.Consistent (c : Calibration K) (root : K → K) (base : Fin 2 → CPoint) (baseLength : K) : Prop where
  pixel : ∀ i, i < fullRows - 1 →
    c.pixels.calibrationBaseLine i - c.pixels.calibrationBaseLine (i + 1) = c.pixels.disPixel i
  positive : ∀ i, i < fullRows - 1 → 0 < c.pixels.disPixel i
  baseLine : startPoint base < fullRows →
    c.pixels.calibrationBaseLine (endPoint base) - c.pixels.calibrationBaseLine (startPoint base) =
      baseLength * ((startPoint base : K) - endPoint base + 1) / root (baseSquare base)
  lanes : ∀ actual ∈ c.actualDistance, ∀ r s, r < s → s < fullRows →
    actual r - actual s = ∑ i ∈ Finset.Ico r s, c.pixels.disPixel i ∧ actual s < actual r

omit [LinearOrder K] in
theorem StepsFrom.sum {disPixel actual : Nat → K} (steps : StepsFrom disPixel 0 actual) {r s : Nat} (le : r ≤ s)
    (low : s < fullRows) : actual r - actual s = ∑ i ∈ Finset.Ico r s, disPixel i := by
  induction s, le using Nat.le_induction with
  | base => rw [Finset.Ico_self, Finset.sum_empty, sub_self]
  | succ s le ih =>
    rw [Finset.sum_Ico_succ_top le, ← ih (by omega), ← steps s (Nat.zero_le s) (by omega), sub_add_sub_cancel]

variable [IsStrictOrderedRing K]

/-- With the vanishing point above the image the base line has a positive ratio. -/
theorem ratio_pos (above : y0 < 0) (slanted : (base 0).y ≠ (base 1).y) :
    0 < ((fullRows : K) - 1 - endPoint base) / (endPoint base - y0) -
      ((fullRows : K) - 1 - startPoint base) / (startPoint base - y0) := by
  have row (n : Nat) : 0 < (n : K) - y0 := sub_pos.mpr (above.trans_le n.cast_nonneg)
  have apart : endPoint base < startPoint base :=
    lt_of_le_of_ne endPoint_le_startPoint fun same => slanted (startPoint_eq_endPoint_iff.mp same.symm)
  have lower : (0 : K) < (startPoint base : K) - endPoint base := sub_pos.mpr (Nat.cast_lt.mpr apart)
  have last : (0 : K) < (fullRows : K) - 1 - y0 := by
    have bottom := row (fullRows - 1)
    rwa [Nat.cast_sub (by decide), Nat.cast_one] at bottom
  rw [perspective_sub (row _).ne' (row _).ne']
  exact div_pos (mul_pos last lower) (mul_pos (row _) (row _))

theorem rowScale_pos (positive : ∀ v : K, 0 < v → 0 < root v) (length : 0 < baseLength) (above : y0 < 0)
    (slanted : (base 0).y ≠ (base 1).y) : 0 < rowScale root base baseLength y0 := by
  have rows : (0 : K) ≤ (startPoint base : K) - endPoint base := sub_nonneg.mpr (Nat.cast_le.mpr endPoint_le_startPoint)
  have line : 0 < root (baseSquare base) := positive _ (Int.cast_pos.mpr (baseSquare_pos slanted))
  exact div_pos (div_pos (mul_pos length (by positivity)) line) (ratio_pos above slanted)

/-- The pixels of the perspective are positive. -/
theorem RowsFrom.pixel_pos {dis : K} {pixels : Pixels K} (rows : RowsFrom near dis y0 0 pixels) (scale : 0 < dis) (above : y0 < 0)
    {i : Nat} (low : i < fullRows - 1) : 0 < pixels.disPixel i := by
  have row (n : Nat) : 0 < (n : K) - y0 := sub_pos.mpr (above.trans_le n.cast_nonneg)
  have last : (0 : K) < (fullRows : K) - 1 - y0 := by
    have bottom := row (fullRows - 1)
    rwa [Nat.cast_sub (by decide), Nat.cast_one] at bottom
  have step : pixels.disPixel i = dis * (((fullRows : K) - 1 - y0) * (((i + 1 : Nat) : K) - i) /
      ((i - y0) * (((i + 1 : Nat) : K) - y0))) := by
    rw [rows.pixel i (Nat.zero_le i) low, rows.line i (Nat.zero_le i) (by omega), rows.line (i + 1) (Nat.zero_le _) (by omega),
      ← perspective_sub (row i).ne' (row (i + 1)).ne']
    ring
  rw [step]
  refine mul_pos scale (div_pos (mul_pos last ?_) (mul_pos (row i) (row (i + 1))))
  rw [Nat.cast_add, Nat.cast_one, add_sub_cancel_left]
  exact one_pos

/-- The rows of the base line are apart by its length. -/
theorem RowsFrom.baseLine {pixels : Pixels K} (rows : RowsFrom near (rowScale root base baseLength y0) y0 0 pixels) (above : y0 < 0)
    (slanted : (base 0).y ≠ (base 1).y) (low : startPoint base < fullRows) :
    pixels.calibrationBaseLine (endPoint base) - pixels.calibrationBaseLine (startPoint base) =
      baseLength * ((startPoint base : K) - endPoint base + 1) / root (baseSquare base) := by
  have ordered : endPoint base ≤ startPoint base := endPoint_le_startPoint
  have ratio := (ratio_pos above slanted).ne'
  rw [rows.line _ (Nat.zero_le _) (by omega), rows.line _ (Nat.zero_le _) (by omega), add_sub_add_left_eq_sub, mul_div_assoc,
    mul_div_assoc, ← mul_sub, rowScale, div_mul_cancel₀ _ ratio]

variable [FloorRing K]

/-- The parts of a calibration that succeeded. -/
theorem cameraCalibration_parts (run : cameraCalibration root base baseLength points near lanes before = .ok c) :
    ∃ ptX, pixelTables root base baseLength near (sortPoint points) (sideLine (sortPoint points 2) (sortPoint points 0))
        (sideLine (sortPoint points 1) (sortPoint points 3)) = .ok (c.pixels, ptX) ∧
      ∀ actual ∈ c.actualDistance, StepsFrom c.pixels.disPixel 0 actual := by
  rw [cameraCalibration_eq] at run
  obtain ⟨⟨pixels, ptX⟩, first, run⟩ := bind_ok run
  obtain ⟨tables, second, run⟩ := bind_ok run
  cases run
  exact ⟨ptX, first, laneDistances_steps second⟩

/-- With upright sides all rows but the last have one distance. -/
theorem upright_inconsistent (run : cameraCalibration root base baseLength points near lanes before = .ok c)
    (upright : Upright (sortPoint points)) : ¬ c.Consistent root base baseLength := by
  intro consistent
  obtain ⟨ptX, tables, _⟩ := cameraCalibration_parts run
  obtain ⟨pixels, tables', rows⟩ := pixelTables_upright root base baseLength near upright
  cases tables.symm.trans tables'
  have same := consistent.pixel 0 (by decide)
  rw [rows.line 0 (Nat.le_refl 0) (by decide), rows.line 1 (Nat.zero_le 1) (by decide), sub_self] at same
  exact (consistent.positive 0 (by decide)).ne same

theorem sloping_consistent (positive : ∀ v : K, 0 < v → 0 < root v)
    (run : cameraCalibration root base baseLength points near lanes before = .ok c) (length : 0 < baseLength)
    (sloping : ¬ Upright (sortPoint points)) (above : ∀ x y : K, Meet (sortPoint points) x y → y < 0) :
    c.Consistent root base baseLength := by
  have all := (cameraCalibration_iff positive).mp ⟨c, run⟩
  obtain ⟨ptX, tables, steps⟩ := cameraCalibration_parts run
  obtain ⟨x0, y0, vanishing, meets⟩ := vanishingPoint_ok (K := K) sloping (all.sides sloping)
  have high : y0 < 0 := above x0 y0 ((meets x0 y0).mpr ⟨rfl, rfl⟩)
  have rows := (pixelTables_rows sloping vanishing tables).2
  have slanted := all.slanted sloping
  have pixel {i : Nat} (low : i < fullRows - 1) : 0 < c.pixels.disPixel i :=
    rows.pixel_pos (rowScale_pos positive length high slanted) high low
  refine ⟨fun i low => (rows.pixel i (Nat.zero_le i) low).symm, fun i low => pixel low, rows.baseLine high slanted,
    fun actual member r s less low => ?_⟩
  have sum := (steps actual member).sum (Nat.le_of_lt less) low
  have some : 0 < ∑ i ∈ Finset.Ico r s, c.pixels.disPixel i := by
    refine Finset.sum_pos (fun i inside => pixel ?_) (Finset.nonempty_Ico.mpr less)
    have bound := (Finset.mem_Ico.mp inside).2
    omega
  exact ⟨sum, sub_pos.mp (sum ▸ some)⟩

end

/-- **Where the tables of the calibration are consistent.** If the calibration is defined, the base line has a length and the
sides meet above the image or are both upright, the tables agree exactly if not both sides are upright. -/
theorem calibration_consistent_iff (base : Fin 2 → CPoint) (baseLength near : ℝ) (points : Fin 4 → CPoint)
    (lanes : List SpeedLane) (before : Nat → Nat → ℝ) (c : Calibration ℝ)
    (run : cameraCalibration Real.sqrt base baseLength points near lanes before = .ok c) (length : 0 < baseLength)
    (above : Upright (sortPoint points) ∨ ∀ x y : ℝ, Meet (sortPoint points) x y → y < 0) :
    c.Consistent Real.sqrt base baseLength ↔ ¬ Upright (sortPoint points) := by
  constructor
  · intro consistent upright
    exact upright_inconsistent run upright consistent
  · intro sloping
    exact sloping_consistent (fun _ => Real.sqrt_pos.mpr) run length sloping (above.resolve_left sloping)

theorem trapezoid_consistent : ∃ c, cameraCalibration Real.sqrt uprightBase 10 trapezoid 5
      ((rectLane 100 400 100 110).downSpeedLanes ⟨fun _ => 0, fun _ => 0⟩) (fun _ _ => 0) = .ok c ∧
    c.Consistent Real.sqrt uprightBase 10 := by
  have calibratable := trapezoid_calibratable
  rw [← trapezoid_sorted] at calibratable
  obtain ⟨c, run⟩ := (cameraCalibration_iff fun _ => Real.sqrt_pos.mpr).mpr calibratable
  refine ⟨c, run, (calibration_consistent_iff _ _ _ _ _ _ c run (by norm_num) (.inr ?_)).mpr (by decide)⟩
  rw [trapezoid_sorted]
  intro x y meet
  rw [(trapezoid_meet meet).2]
  norm_num

/-- A rectangle, whose sides are upright. -/
def rectangle : Fin 4 → CPoint := ![⟨100, 100⟩, ⟨400, 100⟩, ⟨100, 400⟩, ⟨400, 400⟩]

theorem rectangle_sorted : sortPoint rectangle = rectangle := by decide

/-- The distances of a rectangle do not grow. -/
theorem rectangle_inconsistent : ∃ c, cameraCalibration Real.sqrt uprightBase 10 rectangle 5
      ((rectLane 100 400 100 110).downSpeedLanes ⟨fun _ => 0, fun _ => 0⟩) (fun _ _ => 0) = .ok c ∧
    Upright (sortPoint rectangle) ∧ ¬ c.Consistent Real.sqrt uprightBase 10 := by
  have upright : Upright (sortPoint rectangle) := by decide
  have calibratable : Calibratable ℝ uprightBase (sortPoint rectangle)
      ((rectLane 100 400 100 110).downSpeedLanes ⟨fun _ => 0, fun _ => 0⟩) := by
    rw [rectangle_sorted] at upright ⊢
    refine ⟨absurd upright, absurd upright, absurd upright, fun _ x y _ upper => ?_,
      rectLane_crosses (by decide) (by decide) inRows_hundred⟩
    rw [level_upper (by decide) (by decide) upper]
    exact inRows_hundred
  obtain ⟨c, run⟩ := (cameraCalibration_iff fun _ => Real.sqrt_pos.mpr).mpr calibratable
  exact ⟨c, run, upright, upright_inconsistent run upright⟩

end VideoDetector.Alg
