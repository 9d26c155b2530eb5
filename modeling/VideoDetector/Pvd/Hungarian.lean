import Mathlib.Data.Fintype.Pi
import VideoDetector.Lib.Assignment
import VideoDetector.Lib.Loop

/-!
# The assignment solver (`Pvd/track/HungarianAlg.cpp`)

Munkres' algorithm as the code runs it: rows or columns are reduced, zeros are starred from the first one on, and the
steps call each other until as many columns are covered as there are pairs to make. A `Position` says which step is
called next, with what it was given; the loops of step 3 and step 4 are positions, too. Numbers are exact. Entry
`row + nOfRows * col` of an array is the one of `row` and `col` here.
-/

namespace VideoDetector.Pvd
set_option autoImplicit false
open Lib

section
variable {K : Type} {nOfRows nOfColumns : Nat}

/-- The arrays that the steps are called with. -/
structure Arrays (K : Type) (nOfRows nOfColumns : Nat) where
  distMatrix : Fin nOfRows → Fin nOfColumns → K
  starMatrix : Fin nOfRows → Fin nOfColumns → Bool
  primeMatrix : Fin nOfRows → Fin nOfColumns → Bool
  coveredColumns : Fin nOfColumns → Bool
  coveredRows : Fin nOfRows → Bool

/-- The next step. -/
inductive Position (nOfRows nOfColumns : Nat) where
  | step2b
  | step3
  /-- The search for the starred zero of column `starCol`. -/
  | step4 (newStarMatrix : Fin nOfRows → Fin nOfColumns → Bool) (starCol : Fin nOfColumns)
  | step5
  | finished
  /-- A write behind the end of `newStarMatrix`. -/
  | overrun

/-- A solver in the middle of its work. -/
structure Munkres (K : Type) (nOfRows nOfColumns : Nat) where
  arrays : Arrays K nOfRows nOfColumns
  position : Position nOfRows nOfColumns

def setEntry (matrix : Fin nOfRows → Fin nOfColumns → Bool) (row : Fin nOfRows) (col : Fin nOfColumns) (b : Bool) :
    Fin nOfRows → Fin nOfColumns → Bool :=
  fun r c => if r = row ∧ c = col then b else matrix r c

/-- The first column with an entry in a row. -/
def firstInRow (matrix : Fin nOfRows → Fin nOfColumns → Bool) (row : Fin nOfRows) : Option (Fin nOfColumns) :=
  (List.finRange nOfColumns).find? fun col => matrix row col

/-- The first row with an entry in a column. -/
def firstInColumn (matrix : Fin nOfRows → Fin nOfColumns → Bool) (col : Fin nOfColumns) : Option (Fin nOfRows) :=
  (List.finRange nOfRows).find? fun row => matrix row col

theorem setEntry_eq_true {matrix : Fin nOfRows → Fin nOfColumns → Bool} {row r : Fin nOfRows} {col c : Fin nOfColumns} :
    setEntry matrix row col true r c = true ↔ r = row ∧ c = col ∨ matrix r c = true := by
  unfold setEntry
  split
  · next here => simp [here]
  · next other => simp [other]

theorem firstInRow_some {matrix : Fin nOfRows → Fin nOfColumns → Bool} {row : Fin nOfRows} {col : Fin nOfColumns}
    (found : firstInRow matrix row = some col) : matrix row col = true := by
  simpa using List.find?_some found

theorem firstInRow_none {matrix : Fin nOfRows → Fin nOfColumns → Bool} {row : Fin nOfRows} :
    firstInRow matrix row = none ↔ ∀ col, matrix row col = false := by
  simp [firstInRow]

theorem firstInColumn_some {matrix : Fin nOfRows → Fin nOfColumns → Bool} {row : Fin nOfRows} {col : Fin nOfColumns}
    (found : firstInColumn matrix col = some row) : matrix row col = true := by
  simpa using List.find?_some found

theorem firstInColumn_none {matrix : Fin nOfRows → Fin nOfColumns → Bool} {col : Fin nOfColumns} :
    firstInColumn matrix col = none ↔ ∀ row, matrix row col = false := by
  simp [firstInColumn]

/-! ## The steps -/

/-- `buildassignmentvector`. A row without a star keeps its entry. -/
def buildassignmentvector (assignment : Fin nOfRows → Option (Fin nOfColumns))
    (starMatrix : Fin nOfRows → Fin nOfColumns → Bool) : Fin nOfRows → Option (Fin nOfColumns) :=
  fun row =>
    match firstInRow starMatrix row with
    | some col => some col
    | none => assignment row

/-- `step2a`, as far as the call of step 2b. -/
def step2a (A : Arrays K nOfRows nOfColumns) : Munkres K nOfRows nOfColumns where
  arrays := { A with coveredColumns := fun col => A.coveredColumns col || (firstInColumn A.starMatrix col).isSome }
  position := .step2b

/-- `step2b`. -/
def step2b (minDim : Nat) (A : Arrays K nOfRows nOfColumns) : Munkres K nOfRows nOfColumns where
  arrays := A
  position := if (List.finRange nOfColumns).countP A.coveredColumns = minDim then .finished else .step3

/-- `step4` from the place where it looks for the starred zero of a column. -/
def step4 (A : Arrays K nOfRows nOfColumns) (newStarMatrix : Fin nOfRows → Fin nOfColumns → Bool)
    (starCol : Fin nOfColumns) : Munkres K nOfRows nOfColumns :=
  match firstInColumn A.starMatrix starCol with
  | none => step2a { A with primeMatrix := fun _ _ => false, starMatrix := newStarMatrix, coveredRows := fun _ => false }
  | some starRow =>
    match firstInRow A.primeMatrix starRow with
    | none => ⟨A, .overrun⟩
    | some primeCol =>
      ⟨A, .step4 (setEntry (setEntry newStarMatrix starRow starCol false) starRow primeCol true) primeCol⟩

variable [AddCommGroup K] [LinearOrder K]

/-- The first zero of a column in a row that is not covered. -/
def uncoveredZero (A : Arrays K nOfRows nOfColumns) (col : Fin nOfColumns) : Option (Fin nOfRows) :=
  (List.finRange nOfRows).find? fun row => !A.coveredRows row && decide (A.distMatrix row col = 0)

/-- One pass of the loop of `step3` over the columns that are left. -/
def step3Columns (A : Arrays K nOfRows nOfColumns) (zerosFound : Bool) :
    List (Fin nOfColumns) → Munkres K nOfRows nOfColumns
  | [] => ⟨A, if zerosFound then .step3 else .step5⟩
  | col :: cols =>
    if A.coveredColumns col then
      step3Columns A zerosFound cols
    else
      match uncoveredZero A col with
      | none => step3Columns A zerosFound cols
      | some row =>
        let A := { A with primeMatrix := setEntry A.primeMatrix row col true }
        match firstInRow A.starMatrix row with
        | none => ⟨A, .step4 (setEntry A.starMatrix row col true) col⟩
        | some starCol =>
          step3Columns
            { A with
              coveredRows := Function.update A.coveredRows row true
              coveredColumns := Function.update A.coveredColumns starCol false }
            true cols

def step3 (A : Arrays K nOfRows nOfColumns) : Munkres K nOfRows nOfColumns :=
  step3Columns A false (List.finRange nOfColumns)

/-- `if (value < h) h = value;`. -/
def lesser (h value : K) : K := if value < h then value else h

/-- The smallest uncovered element; `maxValue` is `numeric_limits<track_t>::max()`. -/
def smallestUncovered (maxValue : K) (A : Arrays K nOfRows nOfColumns) : K :=
  (List.finRange nOfRows).foldl (fun h row =>
    if A.coveredRows row then h
    else
      (List.finRange nOfColumns).foldl (fun h col => if A.coveredColumns col then h else lesser h (A.distMatrix row col)) h)
    maxValue

/-- `step5`. -/
def step5 (maxValue : K) (A : Arrays K nOfRows nOfColumns) : Munkres K nOfRows nOfColumns :=
  let h := smallestUncovered maxValue A
  let added := fun row col => if A.coveredRows row then A.distMatrix row col + h else A.distMatrix row col
  ⟨{ A with distMatrix := fun row col => if A.coveredColumns col then added row col else added row col - h }, .step3⟩

/-- The call that a position stands for, or none at the end. -/
def Munkres.next (maxValue : K) (minDim : Nat) (s : Munkres K nOfRows nOfColumns) : Option (Munkres K nOfRows nOfColumns) :=
  match s.position with
  | .step2b => some (step2b minDim s.arrays)
  | .step3 => some (step3 s.arrays)
  | .step4 newStarMatrix starCol => some (step4 s.arrays newStarMatrix starCol)
  | .step5 => some (step5 maxValue s.arrays)
  | .finished => none
  | .overrun => none

/-! ## Preliminary steps -/

/-- The smallest element of a row or column. It is not looked for in an empty one. -/
def smallest : List K → K
  | [] => 0
  | first :: rest => rest.foldl lesser first

def reduceRows (distMatrix : Fin nOfRows → Fin nOfColumns → K) : Fin nOfRows → Fin nOfColumns → K :=
  fun row col => distMatrix row col - smallest ((List.finRange nOfColumns).map (distMatrix row))

def reduceColumns (distMatrix : Fin nOfRows → Fin nOfColumns → K) : Fin nOfRows → Fin nOfColumns → K :=
  fun row col => distMatrix row col - smallest ((List.finRange nOfRows).map fun row => distMatrix row col)

/-- Steps 1 and 2a for a row: star its first zero in a column that is not covered. -/
def starRow (A : Arrays K nOfRows nOfColumns) (row : Fin nOfRows) : Arrays K nOfRows nOfColumns :=
  match (List.finRange nOfColumns).find? fun col => decide (A.distMatrix row col = 0) && !A.coveredColumns col with
  | none => A
  | some col =>
    { A with
      starMatrix := setEntry A.starMatrix row col true
      coveredColumns := Function.update A.coveredColumns col true }

/-- Steps 1 and 2a for a column. -/
def starColumn (A : Arrays K nOfRows nOfColumns) (col : Fin nOfColumns) : Arrays K nOfRows nOfColumns :=
  match (List.finRange nOfRows).find? fun row => decide (A.distMatrix row col = 0) && !A.coveredRows row with
  | none => A
  | some row =>
    { A with
      starMatrix := setEntry A.starMatrix row col true
      coveredColumns := Function.update A.coveredColumns col true
      coveredRows := Function.update A.coveredRows row true }

/-- The arrays after `calloc`. -/
def cleared (distMatrix : Fin nOfRows → Fin nOfColumns → K) : Arrays K nOfRows nOfColumns where
  distMatrix := distMatrix
  starMatrix := fun _ _ => false
  primeMatrix := fun _ _ => false
  coveredColumns := fun _ => false
  coveredRows := fun _ => false

def preliminary (distMatrix : Fin nOfRows → Fin nOfColumns → K) : Arrays K nOfRows nOfColumns :=
  if nOfRows ≤ nOfColumns then
    (List.finRange nOfRows).foldl starRow (cleared (reduceRows distMatrix))
  else
    { (List.finRange nOfColumns).foldl starColumn (cleared (reduceColumns distMatrix)) with coveredRows := fun _ => false }

/-- The body of the loop of `computeassignmentcost`. -/
def addCost (assignment : Fin nOfRows → Option (Fin nOfColumns)) (distMatrixIn : Fin nOfRows → Fin nOfColumns → K) (cost : K)
    (row : Fin nOfRows) : K :=
  match assignment row with
  | some col => cost + distMatrixIn row col
  | none => cost

/-- `computeassignmentcost`. -/
def computeassignmentcost (cost : K) (assignment : Fin nOfRows → Option (Fin nOfColumns))
    (distMatrixIn : Fin nOfRows → Fin nOfColumns → K) : K :=
  (List.finRange nOfRows).foldl (addCost assignment distMatrixIn) cost

/-- How many calls and passes `assignmentoptimal` is given. -/
def callBudget (nOfRows minDim : Nat) : Nat := (minDim + 1) * (4 * nOfRows + 8)

/-- `assignmentoptimal` without its assertion, with the assignment as `resize` leaves it. It answers `none` if the steps
write behind an array or do not come to an end in time. -/
def assignmentoptimal (maxValue : K) (assignment : Fin nOfRows → Option (Fin nOfColumns))
    (distMatrixIn : Fin nOfRows → Fin nOfColumns → K) : Option ((Fin nOfRows → Option (Fin nOfColumns)) × K) :=
  let minDim := if nOfRows ≤ nOfColumns then nOfRows else nOfColumns
  match iterate (Munkres.next maxValue minDim) (callBudget nOfRows minDim) ⟨preliminary distMatrixIn, .step2b⟩ with
  | none => none
  | some last =>
    match last.position with
    | .finished =>
      let assignment := buildassignmentvector assignment last.arrays.starMatrix
      some (assignment, computeassignmentcost 0 assignment distMatrixIn)
    | _ => none

/-- `Solve` with the method `optimal` and an empty vector. -/
def solve (maxValue : K) (distMatrixIn : Fin nOfRows → Fin nOfColumns → K) :
    Option ((Fin nOfRows → Option (Fin nOfColumns)) × K) :=
  assignmentoptimal maxValue (fun _ => none) distMatrixIn

end
end VideoDetector.Pvd
