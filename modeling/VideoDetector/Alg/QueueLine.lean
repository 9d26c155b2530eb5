import VideoDetector.Alg.Sampling
import VideoDetector.Lib.Affine
import VideoDetector.Lib.Bounded

/-!
# The queue line (`ArithProc` in `fvd-new/alg-mutilthread/m_arith.cpp`)

The line across the lane at the end of the queue, `LineUp`, is interpolated between the lower and the upper ends of the two
borders. By night both ends are moved up row by row until the queue is 4.5 metres longer or the left end is at the upper
end of its border; the columns are then computed again, by the rows. The fractions are exact, and a step of a row above
the image is a fault.
-/

namespace VideoDetector.Alg
set_option autoImplicit false
open Lib

inductive LineFault where
  | belowZero
  | row (index : Nat)
  | unfinished
  deriving DecidableEq, Repr

/-- What is reported for a lane: the two points of `LineUp`, and `uVehicleQueueLength`. -/
structure QueueLine where
  left : CPoint
  right : CPoint
  uVehicleQueueLength : Int
  deriving DecidableEq

/-- An end of the line at a part of its border. -/
def borderPoint (undefined : Option ℚ → UInt16) (down up : CPoint) (percent : ℚ) : CPoint where
  x := if up.xVal - down.xVal ≠ 0 then toUint16 undefined (some (down.xVal + (up.xVal - down.xVal) * percent)) else down.x
  y := toUint16 undefined (some (down.yVal + (up.yVal - down.yVal) * percent))

/-- `actual_distance[i][(LineUp[0].y+LineUp[1].y)/2]`. -/
def actualDistance (distance : Nat → ℚ) (left right : UInt16) : Except LineFault ℚ :=
  let row := (left.toNat + right.toNat) / 2
  if row < fullRows then .ok (distance row) else .error (.row row)

/-- The rows of the two ends and `temp` while the line is moved. -/
structure Lift where
  left : UInt16
  right : UInt16
  temp : ℚ

def decrement (y : UInt16) : Except LineFault UInt16 := if y = 0 then .error .belowZero else .ok (y - 1)

/-- One pass of the loop. -/
def liftStep (q : Quad) (percent : ℚ) (distance : Nat → ℚ) (temp1 : ℚ) (s : Lift) : Except LineFault (Option Lift) := do
  if s.temp < temp1 ∧ q.ptUpLeft.y < s.left ∧ percent ≠ 0 then
    let left ← decrement s.left
    let right ← decrement s.right
    let temp ← actualDistance distance left right
    return some ⟨left, right, temp⟩
  else return none

/-- The column that is computed for a row of a border. -/
def columnOf (undefined : Option ℚ → UInt16) (down up : CPoint) (y : UInt16) : UInt16 :=
  toUint16 undefined (if up.yVal - down.yVal = 0 then none
    else some (down.xVal + ((up.yVal - y.toNat : Int) : ℚ) * (up.xVal - down.xVal : Int) / (up.yVal - down.yVal : Int)))

/-- The columns after the line was moved. For a right end that is at the end of its border the column of the left end is
set. -/
def columnsAgain (undefined : Option ℚ → UInt16) (q : Quad) (left right : CPoint) : CPoint × CPoint :=
  let left := { left with x := if left.y ≠ q.ptUpLeft.y then columnOf undefined q.ptDownLeft q.ptUpLeft left.y else q.ptUpLeft.x }
  if right.y ≠ q.ptUpRight.y then (left, { right with x := columnOf undefined q.ptDownRight q.ptUpRight right.y })
  else ({ left with x := q.ptUpRight.x }, right)

def queueLength (percent temp : ℚ) : Int := if percent < 1 / 1000000 then 0 else uint16 (truncate (temp + 1 / 2))

/-- The queue line in `ArithProc`, by the corners of the queue area, `percent`, the row of `actual_distance` for the lane,
and `bNight`. -/
def queueLine (undefined : Option ℚ → UInt16) (q : Quad) (percent : ℚ) (distance : Nat → ℚ) (bNight : Bool) :
    Except LineFault QueueLine := do
  let left := borderPoint undefined q.ptDownLeft q.ptUpLeft percent
  let right := borderPoint undefined q.ptDownRight q.ptUpRight percent
  let temp ← actualDistance distance left.y right.y
  if bNight then
    match ← iterateM (liftStep q percent distance (temp + 9 / 2)) 65536 ⟨left.y, right.y, temp⟩ with
    | none => throw .unfinished
    | some s =>
      let (left, right) := columnsAgain undefined q { left with y := s.left } { right with y := s.right }
      return ⟨left, right, queueLength percent s.temp⟩
  else return ⟨left, right, queueLength percent temp⟩

/-! ## The loop -/

namespace Quad

/-- A quadrilateral inside the frame. -/
def InFrame (q : Quad) : Prop :=
  ∀ p ∈ [q.ptUpLeft, q.ptUpRight, q.ptDownRight, q.ptDownLeft], p.x.toNat < fullCols ∧ p.y.toNat < fullRows

/-- The row of the left end at a part of its border. -/
def leftRow (q : Quad) (percent : ℚ) : Nat := ⌊(q.ptDownLeft.yVal : ℚ) + (q.ptUpLeft.yVal - q.ptDownLeft.yVal) * percent⌋₊

/-- The row of the right end. -/
def rightRow (q : Quad) (percent : ℚ) : Nat :=
  ⌊(q.ptDownRight.yVal : ℚ) + (q.ptUpRight.yVal - q.ptDownRight.yVal) * percent⌋₊

/-- The row of the middle, by which the distance is read. -/
def middleRow (q : Quad) (percent : ℚ) : Nat := (q.leftRow percent + q.rightRow percent) / 2

/-- By night the line is not moved more than `k` rows: the queue is long enough there, the left end has come to the upper
end of its border, or there is no queue. -/
def Stops (q : Quad) (percent : ℚ) (distance : Nat → ℚ) (k : Nat) : Prop :=
  distance (q.middleRow percent) + 9 / 2 ≤ distance (q.middleRow percent - k) ∨
    q.leftRow percent ≤ q.ptUpLeft.y.toNat + k ∨ percent = 0

end Quad

/-- A column or a row of an interpolated point. -/
theorem toUint16_between (undefined : Option ℚ → UInt16) {a b : UInt16} {n : Nat} {t : ℚ} (smallA : a.toNat < n)
    (smallB : b.toNat < n) (small : n ≤ 65536) (first : 0 ≤ t) (last : t ≤ 1) :
    (toUint16 undefined (some ((a.toNat : Int) + ((b.toNat : Int) - (a.toNat : Int)) * t))).toNat =
        ⌊((a.toNat : Int) : ℚ) + (((b.toNat : Int) : ℚ) - ((a.toNat : Int) : ℚ)) * t⌋₊ ∧
      0 ≤ ((a.toNat : Int) : ℚ) + (((b.toNat : Int) : ℚ) - ((a.toNat : Int) : ℚ)) * t ∧
      ⌊((a.toNat : Int) : ℚ) + (((b.toNat : Int) : ℚ) - ((a.toNat : Int) : ℚ)) * t⌋₊ < n := by
  have highA : ((a.toNat : Int) : ℚ) ≤ ((n - 1 : Nat) : ℚ) := by exact_mod_cast Nat.le_sub_one_of_lt smallA
  have highB : ((b.toNat : Int) : ℚ) ≤ ((n - 1 : Nat) : ℚ) := by exact_mod_cast Nat.le_sub_one_of_lt smallB
  have lowA : (0 : ℚ) ≤ ((a.toNat : Int) : ℚ) := by positivity
  have lowB : (0 : ℚ) ≤ ((b.toNat : Int) : ℚ) := by positivity
  obtain ⟨low, high⟩ := between lowA lowB highA highB first last
  have short : ⌊((a.toNat : Int) : ℚ) + (((b.toNat : Int) : ℚ) - ((a.toNat : Int) : ℚ)) * t⌋₊ ≤ n - 1 := Nat.floor_le_of_le high
  have below : ((n - 1 : Nat) : ℚ) < 65536 := by
    have less : n - 1 < 65536 := by omega
    exact_mod_cast less
  refine ⟨?_, low, by omega⟩
  exact toUint16_some (by linarith) (lt_of_le_of_lt high below)

section
variable {undefined : Option ℚ → UInt16} {q : Quad} {percent : ℚ} {distance : Nat → ℚ}

variable (undefined) in
/-- The rows of the line before it is moved are inside the frame. -/
theorem borderPoint_rows (frame : q.InFrame) (first : 0 ≤ percent) (last : percent ≤ 1) :
    (borderPoint undefined q.ptDownLeft q.ptUpLeft percent).y.toNat = q.leftRow percent ∧
      (borderPoint undefined q.ptDownRight q.ptUpRight percent).y.toNat = q.rightRow percent ∧
      q.leftRow percent < fullRows ∧ q.rightRow percent < fullRows := by
  have upLeft := (frame q.ptUpLeft (by simp)).2
  have upRight := (frame q.ptUpRight (by simp)).2
  have downRight := (frame q.ptDownRight (by simp)).2
  have downLeft := (frame q.ptDownLeft (by simp)).2
  obtain ⟨left, _, leftIn⟩ := toUint16_between undefined downLeft upLeft (by decide) first last
  obtain ⟨right, _, rightIn⟩ := toUint16_between undefined downRight upRight (by decide) first last
  exact ⟨left, right, leftIn, rightIn⟩

/-- The line is `k` rows above where it was. -/
structure LiftedBy (q : Quad) (percent : ℚ) (distance : Nat → ℚ) (k : Nat) (s : Lift) : Prop where
  left : s.left.toNat + k = q.leftRow percent
  right : s.right.toNat + k = q.rightRow percent
  temp : s.temp = distance (q.middleRow percent - k)

theorem LiftedBy.unique {k : Nat} {s t : Lift} (first : LiftedBy q percent distance k s) (second : LiftedBy q percent distance k t) :
    s = t := by
  obtain ⟨left, right, temp⟩ := first
  obtain ⟨left', right', temp'⟩ := second
  have lefts : s.left = t.left := UInt16.toNat_inj.mp (by omega)
  have rights : s.right = t.right := UInt16.toNat_inj.mp (by omega)
  cases s
  cases t
  simp only at *
  subst lefts rights
  rw [temp, temp']

/-- `distance[(left+right)/2]+4.5`. -/
def Quad.wanted (q : Quad) (percent : ℚ) (distance : Nat → ℚ) : ℚ := distance (q.middleRow percent) + 9 / 2

theorem LiftedBy.guard {k : Nat} {s : Lift} (lifted : LiftedBy q percent distance k s) :
    (s.temp < q.wanted percent distance ∧ q.ptUpLeft.y < s.left ∧ percent ≠ 0) ↔ ¬ q.Stops percent distance k := by
  have left := lifted.left
  have rows : q.ptUpLeft.y < s.left ↔ ¬ q.leftRow percent ≤ q.ptUpLeft.y.toNat + k := by
    rw [UInt16.lt_iff_toNat_lt]
    omega
  rw [Quad.Stops, lifted.temp, rows, Quad.wanted]
  simp only [not_or, not_le]

theorem liftStep_stops {k : Nat} {s : Lift} (lifted : LiftedBy q percent distance k s) (stops : q.Stops percent distance k) :
    liftStep q percent distance (q.wanted percent distance) s = .ok none := by
  rw [liftStep, if_neg fun guard => lifted.guard.mp guard stops]
  rfl

theorem decrement_ok {y : UInt16} (above : 0 < y.toNat) : decrement y = .ok (y - 1) ∧ (y - 1).toNat + 1 = y.toNat := by
  have nonzero : y ≠ 0 := by
    rintro rfl
    exact absurd above (by decide)
  have one : (1 : UInt16).toNat ≤ y.toNat := above
  refine ⟨if_neg nonzero, ?_⟩
  rw [UInt16.toNat_sub_of_le _ _ (UInt16.le_iff_toNat_le.mpr one)]
  exact Nat.sub_add_cancel one

/-- The line is moved by one more row, as long as the right end is not in the first one. -/
theorem liftStep_moves {k : Nat} {s : Lift} (lifted : LiftedBy q percent distance k s) (leftIn : q.leftRow percent < fullRows)
    (rightIn : q.rightRow percent < fullRows) (goesOn : ¬ q.Stops percent distance k) (below : k < q.rightRow percent) :
    ∃ t, liftStep q percent distance (q.wanted percent distance) s = .ok (some t) ∧ LiftedBy q percent distance (k + 1) t := by
  have guard := lifted.guard.mpr goesOn
  obtain ⟨left, right, _⟩ := lifted
  have leftAbove : 0 < s.left.toNat := Nat.zero_lt_of_lt (UInt16.lt_iff_toNat_lt.mp guard.2.1)
  have rightAbove : 0 < s.right.toNat := by omega
  obtain ⟨leftDone, leftRow⟩ := decrement_ok leftAbove
  obtain ⟨rightDone, rightRow⟩ := decrement_ok rightAbove
  have row : ((s.left - 1).toNat + (s.right - 1).toNat) / 2 = q.middleRow percent - (k + 1) := by
    rw [Quad.middleRow]
    omega
  have inside : q.middleRow percent - (k + 1) < fullRows := by
    rw [Quad.middleRow]
    omega
  have read : actualDistance distance (s.left - 1) (s.right - 1) = .ok (distance (q.middleRow percent - (k + 1))) := by
    simp only [actualDistance, row, if_pos inside]
  refine ⟨⟨s.left - 1, s.right - 1, distance (q.middleRow percent - (k + 1))⟩, ?_, ?_⟩
  · rw [liftStep, if_pos guard, leftDone, ok_bind, rightDone, ok_bind, read]
    rfl
  · have leftUp : (s.left - 1).toNat + (k + 1) = q.leftRow percent := by omega
    have rightUp : (s.right - 1).toNat + (k + 1) = q.rightRow percent := by omega
    exact ⟨leftUp, rightUp, rfl⟩

/-- A right end in the first row is not moved. -/
theorem liftStep_fault {s : Lift} (lifted : LiftedBy q percent distance (q.rightRow percent) s)
    (goesOn : ¬ q.Stops percent distance (q.rightRow percent)) :
    ∃ e, liftStep q percent distance (q.wanted percent distance) s = .error e := by
  have guard := lifted.guard.mpr goesOn
  obtain ⟨leftDone, _⟩ := decrement_ok (Nat.zero_lt_of_lt (UInt16.lt_iff_toNat_lt.mp guard.2.1))
  have zero : s.right = 0 := by
    have right := lifted.right
    exact UInt16.toNat_inj.mp (show s.right.toNat = 0 by omega)
  refine ⟨.belowZero, ?_⟩
  rw [liftStep, if_pos guard, leftDone, ok_bind, zero]
  rfl

/-- The loop ends where it is first to stop. -/
theorem lift_stops {k j budget : Nat} {s : Lift} (lifted : LiftedBy q percent distance k s)
    (leftIn : q.leftRow percent < fullRows) (rightIn : q.rightRow percent < fullRows) (above : k ≤ j)
    (before : ∀ i, k ≤ i → i < j → ¬ q.Stops percent distance i) (stops : q.Stops percent distance j)
    (inside : j ≤ q.rightRow percent) (enough : j - k < budget) :
    ∃ t, iterateM (liftStep q percent distance (q.wanted percent distance)) budget s = .ok (some t) ∧
      LiftedBy q percent distance j t := by
  induction budget generalizing k s with
  | zero => omega
  | succ budget ih =>
    rw [iterateM]
    rcases Nat.eq_or_lt_of_le above with rfl | more
    · rw [liftStep_stops lifted stops]
      exact ⟨s, rfl, lifted⟩
    · obtain ⟨t, step, lifted'⟩ := liftStep_moves lifted leftIn rightIn (before k (Nat.le_refl k) more) (by omega)
      rw [step]
      exact ih lifted' more (fun i low => before i (Nat.le_of_succ_le low)) (by omega)

/-- The loop fails if it is not to stop before the right end is in the first row. -/
theorem lift_fails {k budget : Nat} {s : Lift} (lifted : LiftedBy q percent distance k s)
    (leftIn : q.leftRow percent < fullRows) (rightIn : q.rightRow percent < fullRows) (above : k ≤ q.rightRow percent)
    (never : ∀ i, k ≤ i → i ≤ q.rightRow percent → ¬ q.Stops percent distance i) (enough : q.rightRow percent - k < budget) :
    ∃ e, iterateM (liftStep q percent distance (q.wanted percent distance)) budget s = .error e := by
  induction budget generalizing k s with
  | zero => omega
  | succ budget ih =>
    rw [iterateM]
    rcases Nat.eq_or_lt_of_le above with rfl | more
    · obtain ⟨e, fault⟩ := liftStep_fault lifted (never _ (Nat.le_refl _) (Nat.le_refl _))
      rw [fault]
      exact ⟨e, rfl⟩
    · obtain ⟨t, step, lifted'⟩ := liftStep_moves lifted leftIn rightIn (never k (Nat.le_refl k) above) more
      rw [step]
      exact ih lifted' more (fun i low => never i (Nat.le_of_succ_le low)) (by omega)

variable (undefined) in
/-- The line before it is moved. -/
theorem liftedBy_zero (frame : q.InFrame) (first : 0 ≤ percent) (last : percent ≤ 1) :
    LiftedBy q percent distance 0 ⟨(borderPoint undefined q.ptDownLeft q.ptUpLeft percent).y,
      (borderPoint undefined q.ptDownRight q.ptUpRight percent).y, distance (q.middleRow percent)⟩ := by
  obtain ⟨left, right, _, _⟩ := borderPoint_rows undefined frame first last
  exact ⟨left, right, rfl⟩

theorem actualDistance_first (frame : q.InFrame) (first : 0 ≤ percent) (last : percent ≤ 1) :
    actualDistance distance (borderPoint undefined q.ptDownLeft q.ptUpLeft percent).y
      (borderPoint undefined q.ptDownRight q.ptUpRight percent).y = .ok (distance (q.middleRow percent)) := by
  obtain ⟨left, right, leftIn, rightIn⟩ := borderPoint_rows undefined frame first last
  have inside : (q.leftRow percent + q.rightRow percent) / 2 < fullRows := by omega
  simp only [actualDistance, left, right, if_pos inside]
  rfl

/-- By day the line is the interpolated one. -/
theorem queueLine_day (frame : q.InFrame) (first : 0 ≤ percent) (last : percent ≤ 1) :
    queueLine undefined q percent distance false =
      .ok ⟨borderPoint undefined q.ptDownLeft q.ptUpLeft percent, borderPoint undefined q.ptDownRight q.ptUpRight percent,
        queueLength percent (distance (q.middleRow percent))⟩ := by
  rw [queueLine]
  simp only [actualDistance_first frame first last]
  rfl

variable (undefined) in
/-- By night it is moved to where the loop stops first. -/
theorem queueLine_night (frame : q.InFrame) (first : 0 ≤ percent) (last : percent ≤ 1) {j : Nat}
    (before : ∀ i < j, ¬ q.Stops percent distance i) (stops : q.Stops percent distance j)
    (inside : j ≤ q.rightRow percent) :
    ∃ s, LiftedBy q percent distance j s ∧ queueLine undefined q percent distance true =
      .ok ⟨(columnsAgain undefined q { borderPoint undefined q.ptDownLeft q.ptUpLeft percent with y := s.left }
          { borderPoint undefined q.ptDownRight q.ptUpRight percent with y := s.right }).1,
        (columnsAgain undefined q { borderPoint undefined q.ptDownLeft q.ptUpLeft percent with y := s.left }
          { borderPoint undefined q.ptDownRight q.ptUpRight percent with y := s.right }).2,
        queueLength percent s.temp⟩ := by
  obtain ⟨_, _, leftIn, rightIn⟩ := borderPoint_rows undefined frame first last
  have few : j - 0 < 65536 := by
    have rows : fullRows = 480 := rfl
    omega
  obtain ⟨s, run, lifted⟩ := lift_stops (liftedBy_zero undefined frame first last) leftIn rightIn (Nat.zero_le j)
    (fun i _ => before i) stops inside few
  refine ⟨s, lifted, ?_⟩
  rw [Quad.wanted] at run
  rw [queueLine]
  simp only [actualDistance_first frame first last, ok_bind, if_true, run]
  rfl

variable (undefined) in
/-- By night there is a fault if the loop does not stop before the right end is in the first row. -/
theorem queueLine_night_fault (frame : q.InFrame) (first : 0 ≤ percent) (last : percent ≤ 1)
    (never : ∀ i ≤ q.rightRow percent, ¬ q.Stops percent distance i) :
    ∃ e, queueLine undefined q percent distance true = .error e := by
  obtain ⟨_, _, leftIn, rightIn⟩ := borderPoint_rows undefined frame first last
  have few : q.rightRow percent - 0 < 65536 := by
    have rows : fullRows = 480 := rfl
    omega
  obtain ⟨e, fault⟩ := lift_fails (liftedBy_zero undefined frame first last) leftIn rightIn (Nat.zero_le _)
    (fun i _ => never i) few
  refine ⟨e, ?_⟩
  rw [Quad.wanted] at fault
  rw [queueLine]
  simp only [actualDistance_first frame first last, ok_bind, if_true, fault]
  rfl

/-- A place where the loop stops has a first one before it. -/
theorem exists_first_stop {n : Nat} (some : ∃ j ≤ n, q.Stops percent distance j) :
    ∃ j ≤ n, q.Stops percent distance j ∧ ∀ i < j, ¬ q.Stops percent distance i := by
  classical
  have found : ∃ j, q.Stops percent distance j := some.imp fun _ both => both.2
  obtain ⟨k, inside, stops⟩ := some
  exact ⟨Nat.find found, (Nat.find_min' found stops).trans inside, Nat.find_spec found, fun i less => Nat.find_min found less⟩

/-- **Where the queue line is safe.** For borders inside the frame, a fraction between 0 and 1 and any distances the
computation ends, moves no end above the first row and reads only distances of the frame, exactly if it is day, there is no
queue, the right end has as many rows above it as the left end has to the upper end of its border, or the queue becomes 4.5
metres longer within the rows above the right end. -/
theorem queueLine_ok_iff (undefined : Option ℚ → UInt16) (q : Quad) (percent : ℚ) (distance : Nat → ℚ) (bNight : Bool)
    (frame : q.InFrame) (first : 0 ≤ percent) (last : percent ≤ 1) :
    (∃ line, queueLine undefined q percent distance bNight = .ok line) ↔
      bNight = false ∨ percent = 0 ∨ q.leftRow percent ≤ q.ptUpLeft.y.toNat + q.rightRow percent ∨
        ∃ k ≤ q.rightRow percent, distance (q.middleRow percent) + 9 / 2 ≤ distance (q.middleRow percent - k) := by
  cases bNight with
  | false => exact iff_of_true ⟨_, queueLine_day frame first last⟩ (.inl rfl)
  | true =>
    have stop : (∃ j ≤ q.rightRow percent, q.Stops percent distance j) ↔
        percent = 0 ∨ q.leftRow percent ≤ q.ptUpLeft.y.toNat + q.rightRow percent ∨
          ∃ k ≤ q.rightRow percent, distance (q.middleRow percent) + 9 / 2 ≤ distance (q.middleRow percent - k) := by
      constructor
      · rintro ⟨j, inside, long | top | none⟩
        · exact .inr (.inr ⟨j, inside, long⟩)
        · exact .inr (.inl (by omega))
        · exact .inl none
      · rintro (none | top | ⟨k, inside, long⟩)
        · exact ⟨0, Nat.zero_le _, .inr (.inr none)⟩
        · exact ⟨_, Nat.le_refl _, .inr (.inl top)⟩
        · exact ⟨k, inside, .inl long⟩
    rw [or_iff_right (by decide : ¬ true = false), ← stop]
    constructor
    · rintro ⟨line, run⟩
      by_contra never
      obtain ⟨e, fault⟩ := queueLine_night_fault undefined frame first last
        fun i inside stops => never ⟨i, inside, stops⟩
      cases run.symm.trans fault
    · intro some
      obtain ⟨j, inside, stops, before⟩ := exists_first_stop some
      obtain ⟨s, _, run⟩ := queueLine_night undefined frame first last before stops inside
      exact ⟨_, run⟩

/-- A lane whose right border ends near the top of the image. -/
def slantedLane : Quad := ⟨⟨100, 100⟩, ⟨300, 5⟩, ⟨300, 10⟩, ⟨100, 400⟩⟩

theorem slantedLane_inFrame : slantedLane.InFrame := by
  unfold Quad.InFrame
  decide

theorem queueLine_ok_slantedLane :
    slantedLane.InFrame ∧ (0 : ℚ) ≤ 1 / 2 ∧ (1 / 2 : ℚ) ≤ 1 ∧
      ∃ line, queueLine (fun _ => 0) slantedLane (1 / 2) (fun row => 480 - 5 * row) true = .ok line := by
  refine ⟨slantedLane_inFrame, by norm_num, by norm_num, ?_⟩
  rw [queueLine_ok_iff _ _ _ _ _ slantedLane_inFrame (by norm_num) (by norm_num)]
  exact .inr (.inr (.inr ⟨1, by decide +kernel, by decide +kernel⟩))

/-- The right end of its queue line is moved above the first row. -/
theorem slantedLane_wraps :
    slantedLane.InFrame ∧ ¬ ∃ line, queueLine (fun _ => 0) slantedLane (1 / 2) (fun _ => 0) true = .ok line := by
  refine ⟨slantedLane_inFrame, ?_⟩
  rintro ⟨line, run⟩
  have never : ∀ i ≤ slantedLane.rightRow (1 / 2), ¬ slantedLane.Stops (1 / 2) (fun _ => 0) i := by
    have left : slantedLane.leftRow (1 / 2) = 250 := by decide +kernel
    have right : slantedLane.rightRow (1 / 2) = 7 := by decide +kernel
    have top : slantedLane.ptUpLeft.y.toNat = 100 := by decide
    rintro i inside (long | top' | none)
    · norm_num at long
    · omega
    · norm_num at none
  obtain ⟨e, fault⟩ := queueLine_night_fault (fun _ => 0) slantedLane_inFrame (by norm_num) (by norm_num) never
  cases run.symm.trans fault

end

/-! ## The borders -/

/-- There is a point of the line through `down` and `up` that is less than one column and less than one row away. -/
def CPoint.NearLine (p down up : CPoint) : Prop :=
  ∃ X Y : ℚ, (X - down.xVal) * (up.yVal - down.yVal) = (Y - down.yVal) * (up.xVal - down.xVal) ∧
    |X - p.xVal| < 1 ∧ |Y - p.yVal| < 1

/-- How many columns the line through two points moves in a row. -/
def slope (down up : CPoint) : ℚ := (up.xVal - down.xVal) / (up.yVal - down.yVal)

/-- The column of the line through two points in a row. -/
def columnAt (down up : CPoint) (row : ℚ) : ℚ := down.xVal + slope down up * (row - down.yVal)

section
variable {down up : CPoint}

theorem rows_ne (sloping : down.y ≠ up.y) : (up.yVal : ℚ) - down.yVal ≠ 0 := by
  intro same
  have rows : up.yVal = down.yVal := by exact_mod_cast sub_eq_zero.mp same
  exact sloping (UInt16.toNat_inj.mp (Int.ofNat_inj.mp rows.symm))

theorem onLine_iff (sloping : down.y ≠ up.y) (X Y : ℚ) :
    (X - down.xVal) * (up.yVal - down.yVal) = (Y - down.yVal) * (up.xVal - down.xVal) ↔ X = columnAt down up Y := by
  have nonzero := rows_ne sloping
  rw [columnAt, slope, div_mul_eq_mul_div, ← sub_eq_iff_eq_add', eq_div_iff nonzero, mul_comm ((up.xVal : ℚ) - down.xVal)]

theorem nearLine_iff (sloping : down.y ≠ up.y) (p : CPoint) :
    p.NearLine down up ↔ |columnAt down up p.yVal - p.xVal| < 1 + |slope down up| := by
  have line (Y : ℚ) : columnAt down up Y = (down.xVal - slope down up * down.yVal) + slope down up * Y := by
    rw [columnAt]
    ring
  rw [line, ← near_line_iff]
  constructor
  · rintro ⟨X, Y, on, column, row⟩
    rw [onLine_iff sloping] at on
    exact ⟨Y, row, by rwa [← line, ← on]⟩
  · rintro ⟨Y, row, column⟩
    exact ⟨columnAt down up Y, Y, (onLine_iff sloping _ _).mpr rfl, by rwa [line], row⟩

/-- The column that is computed for a row is the one of the mirrored row. -/
theorem columnOf_eq (undefined : Option ℚ → UInt16) (sloping : down.y ≠ up.y) (y : UInt16) :
    columnOf undefined down up y = toUint16 undefined (some (columnAt down up (up.yVal + down.yVal - y.toNat))) := by
  have nonzero := rows_ne sloping
  have rows : up.yVal - down.yVal ≠ 0 := by exact_mod_cast nonzero
  have mirrored : (down.xVal : ℚ) + ((up.yVal - y.toNat : Int) : ℚ) * (up.xVal - down.xVal : Int) / (up.yVal - down.yVal : Int) =
      columnAt down up (up.yVal + down.yVal - y.toNat) := by
    rw [columnAt, slope]
    push_cast
    ring
  rw [columnOf, if_neg rows, mirrored]

/-- The column of the mirrored row has a value as an integer, and is near to the line. -/
def MirrorsNear (down up : CPoint) (row : Nat) : Prop :=
  -1 < columnAt down up (up.yVal + down.yVal - row) ∧ columnAt down up (up.yVal + down.yVal - row) < 65536 ∧
    |columnAt down up row - ⌊columnAt down up (up.yVal + down.yVal - row)⌋₊| < 1 + |slope down up|

/-- A line in the frame moves less than 640 columns in a row. -/
theorem slope_lt (sloping : down.y ≠ up.y) (downIn : down.x.toNat < fullCols) (upIn : up.x.toNat < fullCols) :
    |slope down up| < 640 := by
  have nonzero := rows_ne sloping
  have rows : (1 : ℚ) ≤ |(up.yVal : ℚ) - down.yVal| := by
    have whole : (1 : Int) ≤ |up.yVal - down.yVal| := Int.one_le_abs (by exact_mod_cast nonzero)
    exact_mod_cast whole
  have columns : |(up.xVal : ℚ) - down.xVal| < 640 := by
    have whole : |up.xVal - down.xVal| < 640 := by
      simp only [CPoint.xVal, fullCols] at *
      rw [abs_lt]
      omega
    exact_mod_cast whole
  rw [slope, abs_div, div_lt_iff₀ (lt_of_lt_of_le one_pos rows)]
  calc |(up.xVal : ℚ) - down.xVal| < 640 * 1 := by rw [mul_one]; exact columns
    _ ≤ 640 * |(up.yVal : ℚ) - down.yVal| := mul_le_mul_of_nonneg_left rows (by norm_num)

theorem nearLine_mk_iff (sloping : down.y ≠ up.y) (x y : UInt16) :
    CPoint.NearLine ⟨x, y⟩ down up ↔ |columnAt down up y.toNat - x.toNat| < 1 + |slope down up| := by
  rw [nearLine_iff sloping]
  simp only [CPoint.xVal, CPoint.yVal, Int.cast_natCast]

/-- The computed point is near to the line, whatever an undefined conversion gives, exactly if the column of the mirrored row
is. -/
theorem columnOf_near_iff (sloping : down.y ≠ up.y) (downIn : down.x.toNat < fullCols) (upIn : up.x.toNat < fullCols)
    (y : UInt16) : (∀ undefined, CPoint.NearLine ⟨columnOf undefined down up y, y⟩ down up) ↔ MirrorsNear down up y.toNat := by
  have moves := slope_lt sloping downIn upIn
  have column {undefined : Option ℚ → UInt16} (low : -1 < columnAt down up (up.yVal + down.yVal - y.toNat))
      (high : columnAt down up (up.yVal + down.yVal - y.toNat) < 65536) :
      (columnOf undefined down up y).toNat = ⌊columnAt down up (up.yVal + down.yVal - y.toNat)⌋₊ := by
    rw [columnOf_eq _ sloping, toUint16_some low high]
  simp only [nearLine_mk_iff sloping]
  constructor
  · intro near
    have defined : -1 < columnAt down up (up.yVal + down.yVal - y.toNat) ∧
        columnAt down up (up.yVal + down.yVal - y.toNat) < 65536 := by
      by_contra outside
      have open' (x : UInt16) : columnOf (fun _ => x) down up y = x := by
        rw [columnOf_eq _ sloping, toUint16, if_neg outside]
      have low := near fun _ => 0
      have high := near fun _ => 65535
      rw [open', abs_lt] at low high
      have zero : ((0 : UInt16).toNat : ℚ) = 0 := by norm_num
      have last : ((65535 : UInt16).toNat : ℚ) = 65535 := by exact_mod_cast (rfl : (65535 : UInt16).toNat = 65535)
      rw [zero] at low
      rw [last] at high
      linarith [low.2, high.1]
    refine ⟨defined.1, defined.2, ?_⟩
    rw [← column defined.1 defined.2]
    exact near fun _ => 0
  · rintro ⟨low, high, close⟩ undefined
    rw [column low high]
    exact close

theorem abs_sub_floor_lt {v : ℚ} (nonneg : 0 ≤ v) : |v - ⌊v⌋₊| < 1 := by
  have low := Nat.floor_le nonneg
  have high := Nat.lt_floor_add_one v
  rw [abs_of_nonneg (by linarith)]
  linarith

/-- The interpolated column of a border. -/
def columnPart (down up : CPoint) (percent : ℚ) : ℚ := down.xVal + (up.xVal - down.xVal) * percent

theorem borderPoint_column (undefined : Option ℚ → UInt16) {percent : ℚ} (downIn : down.x.toNat < fullCols)
    (upIn : up.x.toNat < fullCols) (first : 0 ≤ percent) (last : percent ≤ 1) :
    (borderPoint undefined down up percent).x.toNat = ⌊columnPart down up percent⌋₊ ∧ 0 ≤ columnPart down up percent := by
  obtain ⟨column, nonneg, _⟩ := toUint16_between undefined downIn upIn (by decide) first last
  refine ⟨?_, nonneg⟩
  by_cases upright : up.xVal - down.xVal = 0
  · have same : columnPart down up percent = (down.x.toNat : ℚ) := by
      have columns : (up.xVal : ℚ) - down.xVal = 0 := by exact_mod_cast upright
      rw [columnPart, columns, zero_mul, add_zero, CPoint.xVal, Int.cast_natCast]
    rw [same, Nat.floor_natCast, borderPoint, if_neg (not_not.mpr upright)]
  · rw [borderPoint, if_pos upright]
    exact column

/-- By day the ends of the line are near to their borders. -/
theorem borderPoint_near (undefined : Option ℚ → UInt16) {percent : ℚ} (downIn : down.x.toNat < fullCols ∧ down.y.toNat < fullRows)
    (upIn : up.x.toNat < fullCols ∧ up.y.toNat < fullRows) (first : 0 ≤ percent) (last : percent ≤ 1) :
    (borderPoint undefined down up percent).NearLine down up := by
  obtain ⟨column, nonneg⟩ := borderPoint_column undefined downIn.1 upIn.1 first last
  obtain ⟨row, nonneg', _⟩ := toUint16_between undefined downIn.2 upIn.2 (by decide) first last
  refine ⟨columnPart down up percent, down.yVal + (up.yVal - down.yVal) * percent, ?_, ?_, ?_⟩
  · rw [columnPart]
    ring
  · rw [CPoint.xVal, column, Int.cast_natCast]
    exact abs_sub_floor_lt nonneg
  · have row' : (borderPoint undefined down up percent).yVal =
        (⌊(down.yVal : ℚ) + (up.yVal - down.yVal) * percent⌋₊ : Int) := congrArg Nat.cast row
    rw [row', Int.cast_natCast]
    exact abs_sub_floor_lt nonneg'

end

namespace Quad
variable (q : Quad) (percent : ℚ)

/-- The left end is near to its border: its column is that of the mirrored row, but that of the upper end in the row of it;
and that of the right border if the right end is at the end of this. -/
def LeftNear (leftRow rightRow : Nat) : Prop :=
  if rightRow = q.ptUpRight.y.toNat then
    |columnAt q.ptDownLeft q.ptUpLeft leftRow - q.ptUpRight.x.toNat| < 1 + |slope q.ptDownLeft q.ptUpLeft|
  else leftRow = q.ptUpLeft.y.toNat ∨ MirrorsNear q.ptDownLeft q.ptUpLeft leftRow

/-- The right end is near to its border: its column is that of the mirrored row, but the interpolated one at the end of the
border. -/
def RightNear (rightRow : Nat) : Prop :=
  if rightRow = q.ptUpRight.y.toNat then
    |columnAt q.ptDownRight q.ptUpRight rightRow - ⌊columnPart q.ptDownRight q.ptUpRight percent⌋₊| <
      1 + |slope q.ptDownRight q.ptUpRight|
  else MirrorsNear q.ptDownRight q.ptUpRight rightRow

variable {q percent}

theorem columnsAgain_left_iff (frame : q.InFrame) (sloping : q.ptDownLeft.y ≠ q.ptUpLeft.y) {s : Lift} :
    (∀ undefined, (columnsAgain undefined q { borderPoint undefined q.ptDownLeft q.ptUpLeft percent with y := s.left }
        { borderPoint undefined q.ptDownRight q.ptUpRight percent with y := s.right }).1.NearLine q.ptDownLeft q.ptUpLeft) ↔
      q.LeftNear s.left.toNat s.right.toNat := by
  have upLeft := frame q.ptUpLeft (by simp)
  have downLeft := frame q.ptDownLeft (by simp)
  unfold LeftNear
  by_cases atEnd : s.right = q.ptUpRight.y
  · rw [if_pos (congrArg UInt16.toNat atEnd)]
    simp only [columnsAgain, ne_eq, atEnd, not_true_eq_false, if_false, nearLine_mk_iff sloping, forall_const]
  · rw [if_neg fun same => atEnd (UInt16.toNat_inj.mp same)]
    simp only [columnsAgain, ne_eq, atEnd, not_false_eq_true, if_true]
    by_cases top : s.left = q.ptUpLeft.y
    · have row : s.left.toNat = q.ptUpLeft.y.toNat := congrArg UInt16.toNat top
      simp only [top, not_true_eq_false, if_false, true_or, iff_true, forall_const]
      refine ⟨q.ptUpLeft.xVal, q.ptUpLeft.yVal, mul_comm _ _, ?_, ?_⟩
      · simp [CPoint.xVal]
      · simp [CPoint.yVal]
    · have row : ¬ s.left.toNat = q.ptUpLeft.y.toNat := fun same => top (UInt16.toNat_inj.mp same)
      simp only [top, not_false_eq_true, if_true, row, false_or]
      exact columnOf_near_iff sloping downLeft.1 upLeft.1 s.left

theorem columnsAgain_right_iff (frame : q.InFrame) (first : 0 ≤ percent) (last : percent ≤ 1)
    (sloping : q.ptDownRight.y ≠ q.ptUpRight.y) {s : Lift} :
    (∀ undefined, (columnsAgain undefined q { borderPoint undefined q.ptDownLeft q.ptUpLeft percent with y := s.left }
        { borderPoint undefined q.ptDownRight q.ptUpRight percent with y := s.right }).2.NearLine q.ptDownRight q.ptUpRight) ↔
      q.RightNear percent s.right.toNat := by
  have upRight := frame q.ptUpRight (by simp)
  have downRight := frame q.ptDownRight (by simp)
  unfold RightNear
  by_cases atEnd : s.right = q.ptUpRight.y
  · rw [if_pos (congrArg UInt16.toNat atEnd)]
    have column (undefined : Option ℚ → UInt16) :=
      (borderPoint_column undefined downRight.1 upRight.1 first last).1
    simp only [columnsAgain, ne_eq, atEnd, not_true_eq_false, if_false, nearLine_mk_iff sloping, column, forall_const]
  · rw [if_neg fun same => atEnd (UInt16.toNat_inj.mp same)]
    simp only [columnsAgain, ne_eq, atEnd, not_false_eq_true, if_true]
    exact columnOf_near_iff sloping downRight.1 upRight.1 s.right

end Quad

/-- By night the ends are near to their borders exactly if the columns are at the row in which the line stops. -/
theorem queueLine_night_near_iff {q : Quad} {percent : ℚ} {distance : Nat → ℚ} (frame : q.InFrame) (first : 0 ≤ percent)
    (last : percent ≤ 1) (left : q.ptDownLeft.y ≠ q.ptUpLeft.y) (right : q.ptDownRight.y ≠ q.ptUpRight.y) {k : Nat}
    (before : ∀ i < k, ¬ q.Stops percent distance i) (stops : q.Stops percent distance k) (inside : k ≤ q.rightRow percent) :
    (∀ undefined, ∃ line, queueLine undefined q percent distance true = .ok line ∧
        line.left.NearLine q.ptDownLeft q.ptUpLeft ∧ line.right.NearLine q.ptDownRight q.ptUpRight) ↔
      q.LeftNear (q.leftRow percent - k) (q.rightRow percent - k) ∧ q.RightNear percent (q.rightRow percent - k) := by
  obtain ⟨s, lifted, _⟩ := queueLine_night (fun _ => 0) frame first last before stops inside
  have leftRow : s.left.toNat = q.leftRow percent - k := by
    have row := lifted.left
    omega
  have rightRow : s.right.toNat = q.rightRow percent - k := by
    have row := lifted.right
    omega
  rw [← leftRow, ← rightRow, ← Quad.columnsAgain_left_iff frame left, ← Quad.columnsAgain_right_iff frame first last right,
    ← forall_and]
  apply forall_congr'
  intro undefined
  obtain ⟨s', lifted', run⟩ := queueLine_night undefined frame first last before stops inside
  cases lifted.unique lifted'
  rw [ok_iff run]

/-- **Where the queue line lies on the lane.** For borders inside the frame that are not horizontal and a fraction between 0
and 1 the two ends are near to their borders, whatever undefined conversions give, exactly if it is day; or by night, if the
line is moved to where both columns, which are those of the mirrored rows, are near to the borders. -/
theorem queueLine_near_iff (q : Quad) (percent : ℚ) (distance : Nat → ℚ) (bNight : Bool) (frame : q.InFrame)
    (first : 0 ≤ percent) (last : percent ≤ 1) (left : q.ptDownLeft.y ≠ q.ptUpLeft.y) (right : q.ptDownRight.y ≠ q.ptUpRight.y) :
    (∀ undefined, ∃ line, queueLine undefined q percent distance bNight = .ok line ∧
        line.left.NearLine q.ptDownLeft q.ptUpLeft ∧ line.right.NearLine q.ptDownRight q.ptUpRight) ↔
      bNight = false ∨ ∃ k ≤ q.rightRow percent, q.Stops percent distance k ∧ (∀ i < k, ¬ q.Stops percent distance i) ∧
        q.LeftNear (q.leftRow percent - k) (q.rightRow percent - k) ∧ q.RightNear percent (q.rightRow percent - k) := by
  cases bNight with
  | false =>
    refine iff_of_true (fun undefined => ⟨_, queueLine_day frame first last, ?_, ?_⟩) (.inl rfl)
    · exact borderPoint_near undefined (frame _ (by simp)) (frame _ (by simp)) first last
    · exact borderPoint_near undefined (frame _ (by simp)) (frame _ (by simp)) first last
  | true =>
    rw [or_iff_right (by decide : ¬ true = false)]
    constructor
    · intro near
      have some : ∃ j ≤ q.rightRow percent, q.Stops percent distance j := by
        by_contra never
        obtain ⟨e, fault⟩ := queueLine_night_fault (fun _ => 0) frame first last
          fun i inside stops => never ⟨i, inside, stops⟩
        obtain ⟨line, run, _⟩ := near fun _ => 0
        cases run.symm.trans fault
      obtain ⟨k, inside, stops, before⟩ := exists_first_stop some
      exact ⟨k, inside, stops, before, (queueLine_night_near_iff frame first last left right before stops inside).mp near⟩
    · rintro ⟨k, inside, stops, before, near⟩
      exact (queueLine_night_near_iff frame first last left right before stops inside).mpr near

theorem queueLine_near_slantedLane :
    slantedLane.InFrame ∧ (0 : ℚ) ≤ 1 / 2 ∧ (1 / 2 : ℚ) ≤ 1 ∧ slantedLane.ptDownLeft.y ≠ slantedLane.ptUpLeft.y ∧
      slantedLane.ptDownRight.y ≠ slantedLane.ptUpRight.y ∧
      ∀ undefined, ∃ line, queueLine undefined slantedLane (1 / 2) (fun _ => 0) false = .ok line ∧
        line.left.NearLine slantedLane.ptDownLeft slantedLane.ptUpLeft ∧
        line.right.NearLine slantedLane.ptDownRight slantedLane.ptUpRight :=
  ⟨slantedLane_inFrame, by norm_num, by norm_num, by decide, by decide,
    (queueLine_near_iff slantedLane (1 / 2) _ false slantedLane_inFrame (by norm_num) (by norm_num) (by decide) (by decide)).mpr
      (.inl rfl)⟩

/-- A lane that leans to the right. -/
def leaningLane : Quad := ⟨⟨200, 0⟩, ⟨300, 0⟩, ⟨100, 200⟩, ⟨0, 200⟩⟩

/-- By night, without a queue, the lower end of the left border is reported with the column of the upper end. -/
theorem leaningLane_mirrored :
    queueLine (fun _ => 0) leaningLane 0 (fun _ => 0) true = .ok ⟨⟨200, 200⟩, ⟨300, 200⟩, 0⟩ ∧
      ¬ ∀ undefined, ∃ line, queueLine undefined leaningLane 0 (fun _ => 0) true = .ok line ∧
        line.left.NearLine leaningLane.ptDownLeft leaningLane.ptUpLeft ∧
        line.right.NearLine leaningLane.ptDownRight leaningLane.ptUpRight := by
  have run : queueLine (fun _ => 0) leaningLane 0 (fun _ => 0) true = .ok ⟨⟨200, 200⟩, ⟨300, 200⟩, 0⟩ := by decide +kernel
  refine ⟨run, fun near => ?_⟩
  obtain ⟨line, run', left, _⟩ := near fun _ => 0
  cases run.symm.trans run'
  rw [nearLine_mk_iff (by decide)] at left
  exact absurd left (by decide +kernel)

end VideoDetector.Alg
