import VideoDetector.Pvd.Hungarian

/-!
# The greedy assignment solver (`assignmentsuboptimal2` in `Pvd/track/HungarianAlg.cpp`)

The smallest distance that is left makes a pair, and its row and column are overwritten with the greatest value, until
nothing below that is left. `assignmentsuboptimal2_stable` says what comes of it: no row and column are left that could be
paired, and none that would be nearer to each other than to what they are paired with.
-/

namespace VideoDetector.Pvd
set_option autoImplicit false
open Lib

/-! ## The search -/

section
variable {K : Type} [LinearOrder K] {nOfRows nOfColumns : Nat}

/-- `minValue`, `tmpRow` and `tmpCol`, if they were set. -/
abbrev Nearest (K : Type) (nOfRows nOfColumns : Nat) := K × Option (Fin nOfRows × Fin nOfColumns)

/-- The test of one element. -/
def nearer (maxValue : K) (distMatrix : Fin nOfRows → Fin nOfColumns → K) (row : Fin nOfRows) (best : Nearest K nOfRows nOfColumns)
    (col : Fin nOfColumns) : Nearest K nOfRows nOfColumns :=
  let value := distMatrix row col
  if value ≠ maxValue ∧ value < best.1 then (value, some (row, col)) else best

/-- The search for the smallest distance. -/
def nearest (maxValue : K) (distMatrix : Fin nOfRows → Fin nOfColumns → K) : Nearest K nOfRows nOfColumns :=
  (List.finRange nOfRows).foldl (fun best row => (List.finRange nOfColumns).foldl (nearer maxValue distMatrix row) best)
    (maxValue, none)

/-- What the search knows after some elements. -/
structure Searched (maxValue : K) (distMatrix : Fin nOfRows → Fin nOfColumns → K) (seen : Fin nOfRows → Fin nOfColumns → Prop)
    (best : Nearest K nOfRows nOfColumns) : Prop where
  low : best.1 ≤ maxValue
  least : ∀ row col, seen row col → distMatrix row col < maxValue → best.1 ≤ distMatrix row col
  none : best.2 = none → best.1 = maxValue
  found : ∀ row col, best.2 = some (row, col) → distMatrix row col = best.1 ∧ best.1 < maxValue

theorem Searched.nearer {maxValue : K} {distMatrix : Fin nOfRows → Fin nOfColumns → K} {seen : Fin nOfRows → Fin nOfColumns → Prop}
    {best : Nearest K nOfRows nOfColumns} (searched : Searched maxValue distMatrix seen best) (row : Fin nOfRows) (col : Fin nOfColumns) :
    Searched maxValue distMatrix (fun r c => seen r c ∨ r = row ∧ c = col) (nearer maxValue distMatrix row best col) := by
  unfold Pvd.nearer
  simp only
  split
  · next better =>
    have below := lt_of_lt_of_le better.2 searched.low
    constructor
    · exact le_of_lt below
    · rintro r c (before | ⟨rfl, rfl⟩) small
      · exact le_trans (le_of_lt better.2) (searched.least r c before small)
      · exact le_rfl
    · intro none
      cases none
    · intro r c same
      cases same
      exact ⟨rfl, below⟩
  · next worse =>
    refine ⟨searched.low, ?_, searched.none, searched.found⟩
    rintro r c (before | ⟨rfl, rfl⟩) small
    · exact searched.least r c before small
    · rw [not_and, not_lt] at worse
      exact worse (ne_of_lt small)

theorem Searched.row {maxValue : K} {distMatrix : Fin nOfRows → Fin nOfColumns → K} {seen : Fin nOfRows → Fin nOfColumns → Prop}
    {best : Nearest K nOfRows nOfColumns} (searched : Searched maxValue distMatrix seen best) (row : Fin nOfRows)
    (cols : List (Fin nOfColumns)) :
    Searched maxValue distMatrix (fun r c => seen r c ∨ r = row ∧ c ∈ cols) (cols.foldl (Pvd.nearer maxValue distMatrix row) best) := by
  induction cols generalizing seen best with
  | nil => exact ⟨searched.low, fun r c before => searched.least r c (by simpa using before), searched.none, searched.found⟩
  | cons col cols ih =>
    have later := ih (searched.nearer row col)
    refine ⟨later.low, fun r c before => later.least r c ?_, later.none, later.found⟩
    rw [List.mem_cons, and_or_left, ← or_assoc] at before
    exact before

theorem nearest_searched (maxValue : K) (distMatrix : Fin nOfRows → Fin nOfColumns → K) :
    Searched maxValue distMatrix (fun _ _ => True) (nearest maxValue distMatrix) := by
  have rows (rows : List (Fin nOfRows)) (seen : Fin nOfRows → Fin nOfColumns → Prop) (best : Nearest K nOfRows nOfColumns)
      (searched : Searched maxValue distMatrix seen best) :
      Searched maxValue distMatrix (fun r c => seen r c ∨ r ∈ rows)
        (rows.foldl (fun best row => (List.finRange nOfColumns).foldl (nearer maxValue distMatrix row) best) best) := by
    induction rows generalizing seen best with
    | nil => exact ⟨searched.low, fun r c before => searched.least r c (by simpa using before), searched.none, searched.found⟩
    | cons row rows ih =>
      have later := ih _ _ (searched.row row (List.finRange nOfColumns))
      refine ⟨later.low, fun r c before => later.least r c ?_, later.none, later.found⟩
      simpa [or_assoc] using before
  have first : Searched maxValue distMatrix (fun _ _ => False) ((maxValue, none) : Nearest K nOfRows nOfColumns) :=
    ⟨le_rfl, fun _ _ none => none.elim, fun _ => rfl, fun _ _ none => by cases none⟩
  have all := rows (List.finRange nOfRows) _ _ first
  exact ⟨all.low, fun r c _ => all.least r c (.inr (List.mem_finRange r)), all.none, all.found⟩

/-! ## The pairs -/

variable [AddCommGroup K]

/-- The solver in the middle of its work. -/
structure Greedy (K : Type) (nOfRows nOfColumns : Nat) where
  distMatrix : Fin nOfRows → Fin nOfColumns → K
  assignment : Fin nOfRows → Option (Fin nOfColumns)
  cost : K

/-- One pass of the loop, or none when it ends. -/
def Greedy.pass (maxValue : K) (s : Greedy K nOfRows nOfColumns) : Option (Greedy K nOfRows nOfColumns) :=
  match nearest maxValue s.distMatrix with
  | (_, none) => none
  | (minValue, some (row, col)) =>
    if minValue ≠ maxValue then
      some
        { distMatrix := fun r c => if r = row ∨ c = col then maxValue else s.distMatrix r c
          assignment := Function.update s.assignment row (some col)
          cost := s.cost + minValue }
    else none

/-- `assignmentsuboptimal2` with an empty assignment. -/
def assignmentsuboptimal2 (maxValue : K) (distMatrixIn : Fin nOfRows → Fin nOfColumns → K) : Option (Greedy K nOfRows nOfColumns) :=
  iterate (Greedy.pass maxValue) (nOfRows + 1) ⟨distMatrixIn, fun _ => none, 0⟩

/-- The rows and columns that are left have their distances; what is paired is nothing that was left out would be nearer to. -/
structure Paired (maxValue : K) (distMatrixIn : Fin nOfRows → Fin nOfColumns → K) (s : Greedy K nOfRows nOfColumns) : Prop where
  own : IsAssignment s.assignment
  below : ∀ row col, s.assignment row = some col → distMatrixIn row col < maxValue
  cost : s.cost = total distMatrixIn s.assignment
  left : ∀ row col, s.assignment row = none → (∀ r, s.assignment r ≠ some col) → s.distMatrix row col = distMatrixIn row col
  gone : ∀ row col, s.assignment row ≠ none ∨ (∃ r, s.assignment r = some col) → s.distMatrix row col = maxValue
  stable : ∀ row col, distMatrixIn row col < maxValue → s.assignment row ≠ none ∨ (∃ r, s.assignment r = some col) →
    (∃ c, s.assignment row = some c ∧ distMatrixIn row c ≤ distMatrixIn row col) ∨
      ∃ r, s.assignment r = some col ∧ distMatrixIn r col ≤ distMatrixIn row col

theorem Paired.pass {maxValue : K} {distMatrixIn : Fin nOfRows → Fin nOfColumns → K} {s s' : Greedy K nOfRows nOfColumns}
    (paired : Paired maxValue distMatrixIn s) (more : s.pass maxValue = some s') :
    Paired maxValue distMatrixIn s' ∧ size s'.assignment = size s.assignment + 1 := by
  have searched := nearest_searched maxValue s.distMatrix
  unfold Greedy.pass at more
  split at more
  · cases more
  next minValue row col best =>
  rw [best] at searched
  obtain ⟨value, small⟩ := searched.found row col rfl
  simp only at value small
  rw [if_pos (ne_of_lt small)] at more
  cases more
  -- What was paired before has the greatest value by now, so this row and column are free.
  have rowFree : s.assignment row = none := by
    by_contra taken
    rw [paired.gone row col (.inl taken)] at value
    exact absurd small (not_lt_of_ge (le_of_eq value))
  have colFree : ∀ r, s.assignment r ≠ some col := by
    intro r given
    rw [paired.gone row col (.inr ⟨r, given⟩)] at value
    exact absurd small (not_lt_of_ge (le_of_eq value))
  have exactly : distMatrixIn row col = minValue := by rw [← value, paired.left row col rowFree colFree]
  have kept {r : Fin nOfRows} {c : Fin nOfColumns} (given : s.assignment r = some c) :
      Function.update s.assignment row (some col) r = some c := by
    have other : r ≠ row := by
      rintro rfl
      rw [rowFree] at given
      cases given
    rw [Function.update_of_ne other, given]
  refine ⟨?_, size_add rowFree⟩
  constructor
  case own => exact paired.own.add colFree
  case below =>
    intro r c given
    by_cases same : r = row
    · simp only [same, Function.update_self] at given
      cases given
      rw [same, exactly]
      exact small
    · simp only [Function.update_of_ne same] at given
      exact paired.below r c given
  case cost =>
    rw [total_add distMatrixIn rowFree, paired.cost, exactly]
  case left =>
    intro r c none free
    have otherRow : r ≠ row := by
      rintro rfl
      simp at none
    have otherCol : c ≠ col := by
      rintro rfl
      exact free row (by simp)
    simp only [Function.update_of_ne otherRow] at none
    simp only [otherRow, otherCol, or_self, if_false]
    exact paired.left r c none fun r' given => free r' (kept given)
  case gone =>
    intro r c taken
    simp only
    split
    · rfl
    · next other =>
      rw [not_or] at other
      refine paired.gone r c ?_
      rcases taken with taken | ⟨r', given⟩
      · simp only [Function.update_of_ne other.1] at taken
        exact .inl taken
      · by_cases same : r' = row
        · simp only [same, Function.update_self] at given
          cases given
          exact absurd rfl other.2
        · simp only [Function.update_of_ne same] at given
          exact .inr ⟨r', given⟩
  case stable =>
    intro r c low taken
    by_cases before : s.assignment r ≠ none ∨ ∃ r', s.assignment r' = some c
    · rcases paired.stable r c low before with ⟨c', given, near⟩ | ⟨r', given, near⟩
      · exact .inl ⟨c', kept given, near⟩
      · exact .inr ⟨r', kept given, near⟩
    · rw [not_or, not_ne_iff, not_exists] at before
      -- Both were left until now, so the smallest distance is at most theirs.
      have least := searched.least r c trivial
      rw [paired.left r c before.1 before.2] at least
      have near := least low
      rcases taken with taken | ⟨r', given⟩
      · by_cases same : r = row
        · subst same
          exact .inl ⟨col, Function.update_self .., by rw [exactly]; exact near⟩
        · simp only [Function.update_of_ne same] at taken
          exact absurd before.1 taken
      · by_cases same : r' = row
        · subst same
          simp only [Function.update_self] at given
          cases given
          exact .inr ⟨r', Function.update_self .., by rw [exactly]; exact near⟩
        · simp only [Function.update_of_ne same] at given
          exact absurd given (before.2 r')

/-- **The greedy solver** comes to an end with an assignment that costs what it says. A row and a column that are not too far
from each other are not both left over, and one of them is paired at least as near. -/
theorem assignmentsuboptimal2_stable (maxValue : K) (distMatrixIn : Fin nOfRows → Fin nOfColumns → K) :
    ∃ s, assignmentsuboptimal2 maxValue distMatrixIn = some s ∧ IsAssignment s.assignment ∧
      (∀ row col, s.assignment row = some col → distMatrixIn row col < maxValue) ∧ s.cost = total distMatrixIn s.assignment ∧
      ∀ row col, distMatrixIn row col < maxValue →
        (∃ c, s.assignment row = some c ∧ distMatrixIn row c ≤ distMatrixIn row col) ∨
          ∃ r, s.assignment r = some col ∧ distMatrixIn r col ≤ distMatrixIn row col := by
  have initial : Paired maxValue distMatrixIn ⟨distMatrixIn, fun _ => none, 0⟩ := by
    constructor
    case own => exact fun _ _ _ given => by cases given
    case below => exact fun _ _ given => by cases given
    case cost => simp [total]
    case left => exact fun _ _ _ _ => rfl
    case gone => exact fun _ _ taken => absurd taken (by simp)
    case stable => exact fun _ _ _ taken => absurd taken (by simp)
  have keep (s s' : Greedy K nOfRows nOfColumns) (paired : Paired maxValue distMatrixIn s) (more : s.pass maxValue = some s') :
      Paired maxValue distMatrixIn s' ∧ nOfRows - size s'.assignment < nOfRows - size s.assignment := by
    obtain ⟨paired', grown⟩ := paired.pass more
    have rows := size_le_rows s'.assignment
    rw [Fintype.card_fin] at rows
    exact ⟨paired', by omega⟩
  obtain ⟨s, run, paired, stopped⟩ := iterate_total (Greedy.pass maxValue) _ (fun s => nOfRows - size s.assignment) keep (nOfRows + 1)
    initial (by omega)
  refine ⟨s, run, paired.own, paired.below, paired.cost, fun row col low => paired.stable row col low ?_⟩
  by_contra free
  rw [not_or, not_ne_iff, not_exists] at free
  have searched := nearest_searched maxValue s.distMatrix
  have least := searched.least row col trivial
  rw [paired.left row col free.1 free.2] at least
  have below := lt_of_le_of_lt (least low) low
  unfold Greedy.pass at stopped
  split at stopped
  · next minValue best =>
    rw [best] at searched below
    exact absurd (searched.none rfl) (ne_of_lt below)
  · next minValue r c best =>
    rw [best] at below
    rw [if_pos (ne_of_lt below)] at stopped
    cases stopped

end
end VideoDetector.Pvd
