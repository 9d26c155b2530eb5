import Mathlib.Algebra.BigOperators.Fin
import VideoDetector.Pvd.HungarianPhases

/-!
# What the assignment solver finds

Each call goes on to one that is nearer to the end (`Solving.next`): step 3 covers a row, step 4 goes back on its trail
or adds a star, and step 5 makes an uncovered zero, since the prices stay below what a full assignment costs.
`solve_optimal` follows: the call comes to an end, and of all assignments of as many pairs as there can be it finds one
that costs least.
-/

namespace VideoDetector.Pvd
set_option autoImplicit false
open Lib

/-! ## From call to call -/

section
variable {K : Type} [AddCommGroup K] [LinearOrder K] {nOfRows nOfColumns : Nat}
  {A : Arrays K nOfRows nOfColumns} {distMatrixIn : Fin nOfRows → Fin nOfColumns → K} {u : Fin nOfRows → K}
  {v : Fin nOfColumns → K} {rise maxValue : K} {t : Fin nOfRows → Nat} {newStarMatrix : Fin nOfRows → Fin nOfColumns → Bool}
  {root last : Fin nOfRows} {visited : Finset (Fin nOfRows)} {col : Fin nOfColumns} {rank : Nat}

/-- What the arrays of each call are like, and how many calls there are at most until the end. -/
inductive Progress (rank : Nat) : Munkres K nOfRows nOfColumns → Prop where
  | step2b (A : Arrays K nOfRows nOfColumns) (fresh : Fresh A) (enough : phaseRank A + (4 * nOfRows + 7) ≤ rank) :
      Progress rank ⟨A, .step2b⟩
  | step3 (A : Arrays K nOfRows nOfColumns) (t : Fin nOfRows → Nat) (phase : Covering A t)
      (enough : phaseRank A + 3 * (nOfRows - (coverSet A.coveredRows).card) + (nOfRows + 4) ≤ rank ∨
        (∃ row col, A.coveredRows row = false ∧ A.coveredColumns col = false ∧ A.distMatrix row col = 0) ∧
          phaseRank A + 3 * (nOfRows - (coverSet A.coveredRows).card) + (nOfRows + 2) ≤ rank) :
      Progress rank ⟨A, .step3⟩
  | step4 (A : Arrays K nOfRows nOfColumns) (t : Fin nOfRows → Nat) (newStarMatrix : Fin nOfRows → Fin nOfColumns → Bool)
      (root : Fin nOfRows) (visited : Finset (Fin nOfRows)) (last : Fin nOfRows) (col : Fin nOfColumns)
      (alternating : Alternating A t newStarMatrix root visited last col) (enough : phaseRank A + (t last + 1) ≤ rank) :
      Progress rank ⟨A, .step4 newStarMatrix col⟩
  | step5 (A : Arrays K nOfRows nOfColumns) (t : Fin nOfRows → Nat) (phase : Covering A t)
      (enough : phaseRank A + 3 * (nOfRows - (coverSet A.coveredRows).card) + (nOfRows + 3) ≤ rank) : Progress rank ⟨A, .step5⟩
  | finished (A : Arrays K nOfRows nOfColumns) (done : starCount A = min nOfRows nOfColumns) : Progress rank ⟨A, .finished⟩

def Solving (distMatrixIn : Fin nOfRows → Fin nOfColumns → K) (rank : Nat) (s : Munkres K nOfRows nOfColumns) : Prop :=
  ∃ u v rise, Priced distMatrixIn s.arrays u v rise ∧ Progress rank s

theorem step2b_progress (fresh : Fresh A) (priced : Priced distMatrixIn A u v rise)
    (enough : phaseRank A + (4 * nOfRows + 7) ≤ rank) :
    ∃ rank', rank' < rank ∧ Progress rank' (step2b (min nOfRows nOfColumns) A) := by
  rw [step2b, fresh.count priced.stars]
  split
  · next done => exact ⟨0, by omega, .finished A done⟩
  · next more =>
    have own := firstInRow_isAssignment priced.stars
    have rows := size_le_rows (firstInRow A.starMatrix)
    have columns := size_le_columns own
    rw [Fintype.card_fin] at rows columns
    have few : starCount A < min nOfRows nOfColumns := by
      unfold starCount at more ⊢
      omega
    have uncovered : (coverSet A.coveredRows).card = 0 := by
      rw [Finset.card_eq_zero, Finset.eq_empty_iff_forall_notMem]
      intro row
      rw [mem_coverSet, fresh.row]
      exact Bool.false_ne_true
    refine ⟨phaseRank A + 3 * (nOfRows - (coverSet A.coveredRows).card) + (nOfRows + 4), by omega, .step3 A (fun _ => 0) ?_ (.inl (Nat.le_refl _))⟩
    constructor
    case column =>
      intro col covered
      obtain ⟨row, star⟩ := (fresh.column col).mp covered
      exact ⟨row, star, fresh.row row⟩
    case row =>
      intro row covered
      rw [fresh.row] at covered
      cases covered
    case star => exact fun row col star => .inl ((fresh.column col).mpr ⟨row, star⟩)
    case zero => exact fun row col prime => absurd prime (fresh.prime row col)
    case place => exact fun row col prime => absurd prime (fresh.prime row col)
    case primed =>
      intro row covered
      rw [fresh.row] at covered
      cases covered
    case prime => exact fun row col _ prime => absurd prime (fresh.prime row col)
    case back => exact fun row _ col prime => absurd prime (fresh.prime row col)
    case time =>
      intro row covered
      rw [fresh.row] at covered
      cases covered
    case few => exact few

theorem step3_progress {A : Arrays K nOfRows nOfColumns} {t : Fin nOfRows → Nat} (phase : Covering A t) (priced : Priced distMatrixIn A u v rise)
    (enough : phaseRank A + 3 * (nOfRows - (coverSet A.coveredRows).card) + (nOfRows + 4) ≤ rank ∨
      (∃ row col, A.coveredRows row = false ∧ A.coveredColumns col = false ∧ A.distMatrix row col = 0) ∧
        phaseRank A + 3 * (nOfRows - (coverSet A.coveredRows).card) + (nOfRows + 2) ≤ rank) :
    ∃ rank', rank' < rank ∧ Priced distMatrixIn (step3 A).arrays u v rise ∧ Progress rank' (step3 A) := by
  have passed := step3Columns_passed A phase priced.stars false (List.finRange nOfColumns)
  rw [step3]
  generalize step3Columns A false (List.finRange nOfColumns) = s at passed
  cases passed with
  | augment B t' row col phase' stars distances rowFree colFree zero none =>
    have matching : IsMatching (Marked B.starMatrix) := stars ▸ priced.stars
    have alternating := phase'.alternating matching rowFree colFree zero none
    have few := coverSet_card_le B.coveredRows
    have same : phaseRank B = phaseRank A := phaseRank_congr stars
    refine ⟨phaseRank B + (Function.update t' row (coverSet B.coveredRows).card row + 1), ?_, priced.congr stars distances,
      .step4 _ _ _ row {row} row col alternating (Nat.le_refl _)⟩
    rw [Function.update_self]
    omega
  | again B t' phase' stars distances less more =>
    have more := more rfl
    have few := coverSet_card_le B.coveredRows
    have same : phaseRank B = phaseRank A := phaseRank_congr stars
    exact ⟨phaseRank B + 3 * (nOfRows - (coverSet B.coveredRows).card) + (nOfRows + 4), by omega, priced.congr stars distances,
      .step3 B t' phase' (.inl (Nat.le_refl _))⟩
  | stuck first none =>
    rcases enough with enough | ⟨⟨row, col, rowFree, colFree, zero⟩, _⟩
    · exact ⟨phaseRank A + 3 * (nOfRows - (coverSet A.coveredRows).card) + (nOfRows + 3), by omega, priced, .step5 A t phase (Nat.le_refl _)⟩
    · exact absurd zero (none col (List.mem_finRange col) colFree row rowFree)

theorem step4_progress (alternating : Alternating A t newStarMatrix root visited last col) (priced : Priced distMatrixIn A u v rise)
    (enough : phaseRank A + (t last + 1) ≤ rank) :
    ∃ rank', rank' < rank ∧ Priced distMatrixIn (step4 A newStarMatrix col).arrays u v rise ∧
      Progress rank' (step4 A newStarMatrix col) := by
  unfold step4
  split
  · next none =>
    have counted := alternating.starCount
    have few := alternating.few
    refine ⟨phaseRank (augmented A newStarMatrix) + (4 * nOfRows + 7), ?_, alternating.priced priced none,
      .step2b (augmented A newStarMatrix) alternating.fresh (Nat.le_refl _)⟩
    have fewer : min nOfRows nOfColumns - starCount A = min nOfRows nOfColumns - starCount (augmented A newStarMatrix) + 1 := by
      unfold starCount at few ⊢
      show _ = min nOfRows nOfColumns - size (firstInRow newStarMatrix) + 1
      omega
    unfold phaseRank at enough ⊢
    rw [fewer, Nat.succ_mul] at enough
    omega
  · next starRow found =>
    have star := firstInColumn_some found
    obtain ⟨primeCol, prime⟩ := alternating.trail.next last starRow col alternating.flipped.here star
    split
    · next none => exact absurd prime (not_marked_of_firstInRow none primeCol)
    · next primeCol' found' =>
      have back := alternating.trail.back last starRow col alternating.flipped.here star
      exact ⟨phaseRank A + (t starRow + 1), by omega, priced,
        .step4 A t _ root _ starRow primeCol' (alternating.advance star (firstInRow_some found')) (Nat.le_refl _)⟩

variable [IsOrderedAddMonoid K]

theorem step5_priced (phase : Covering A t) (priced : Priced distMatrixIn A u v rise) (enough : 0 ≤ maxValue) :
    Priced distMatrixIn (step5 maxValue A).arrays (raisedRow A u (smallestUncovered maxValue A))
      (raisedColumn A v (smallestUncovered maxValue A)) (rise + smallestUncovered maxValue A) :=
  priced.raise phase (smallestUncovered_nonneg enough priced.nonneg) fun _ _ => smallestUncovered_le maxValue

/-- The smallest uncovered element is less than the greatest value, so it is one of the matrix. -/
theorem step5_progress (phase : Covering A t) (priced : Priced distMatrixIn A u v rise)
    (bound : total distMatrixIn (diagonal nOfRows nOfColumns) < maxValue)
    (enough : phaseRank A + 3 * (nOfRows - (coverSet A.coveredRows).card) + (nOfRows + 3) ≤ rank) :
    ∃ rank', rank' < rank ∧ Progress rank' (step5 maxValue A) := by
  have positive : 0 ≤ maxValue := le_trans priced.rising (le_trans (priced.rise_le diagonal_isAssignment diagonal_size) (le_of_lt bound))
  have less : smallestUncovered maxValue A < maxValue := by
    have low := (step5_priced phase priced positive).rise_le diagonal_isAssignment diagonal_size
    exact lt_of_le_of_lt (le_trans (le_add_of_nonneg_left priced.rising) low) bound
  obtain ⟨row, col, rowFree, colFree, attained⟩ := smallestUncovered_attained less
  refine ⟨phaseRank A + 3 * (nOfRows - (coverSet A.coveredRows).card) + (nOfRows + 2), by omega, ?_⟩
  refine .step3 _ t (phase.raise _) (.inr ⟨⟨row, col, rowFree, colFree, ?_⟩, Nat.le_refl _⟩)
  simp [rowFree, colFree, attained]

/-- Each call keeps the prices right, and is nearer to the end if the greatest value is out of reach. -/
theorem Solving.next (positive : 0 ≤ maxValue) (s s' : Munkres K nOfRows nOfColumns) (solving : Solving distMatrixIn rank s)
    (more : s.next maxValue (min nOfRows nOfColumns) = some s') :
    ∃ rank', (total distMatrixIn (diagonal nOfRows nOfColumns) < maxValue → rank' < rank) ∧ Solving distMatrixIn rank' s' := by
  obtain ⟨u, v, rise, priced, progress⟩ := solving
  cases progress with
  | step2b A fresh enough =>
    cases more
    obtain ⟨rank', less, progress⟩ := step2b_progress fresh priced enough
    exact ⟨rank', fun _ => less, u, v, rise, priced, progress⟩
  | step3 A t phase enough =>
    cases more
    obtain ⟨rank', less, priced', progress⟩ := step3_progress phase priced enough
    exact ⟨rank', fun _ => less, u, v, rise, priced', progress⟩
  | step4 A t newStarMatrix root visited last col alternating enough =>
    cases more
    obtain ⟨rank', less, priced', progress⟩ := step4_progress alternating priced enough
    exact ⟨rank', fun _ => less, u, v, rise, priced', progress⟩
  | step5 A t phase enough =>
    cases more
    have priced' := step5_priced phase priced positive
    by_cases bound : total distMatrixIn (diagonal nOfRows nOfColumns) < maxValue
    · obtain ⟨rank', less, progress⟩ := step5_progress phase priced bound enough
      exact ⟨rank', fun _ => less, _, _, _, priced', progress⟩
    · exact ⟨_, fun bound' => absurd bound' bound, _, _, _, priced', .step3 _ t (phase.raise _) (.inl (Nat.le_refl _))⟩
  | finished A done => cases more

end

/-! ## The first call -/

section
variable {K : Type} [AddCommGroup K] [LinearOrder K] {nOfRows nOfColumns : Nat} {A : Arrays K nOfRows nOfColumns}

/-- Zeros were starred in different rows and columns, and the columns are covered. -/
structure Starred (A : Arrays K nOfRows nOfColumns) : Prop where
  stars : IsMatching (Marked A.starMatrix)
  tight : ∀ row col, Marked A.starMatrix row col → A.distMatrix row col = 0
  column : ∀ col, A.coveredColumns col = true ↔ ∃ row, Marked A.starMatrix row col
  prime : ∀ row col, ¬ Marked A.primeMatrix row col

omit [LinearOrder K] in
theorem Starred.add (starred : Starred A) {row : Fin nOfRows} {col : Fin nOfColumns} (coveredRows : Fin nOfRows → Bool)
    (zero : A.distMatrix row col = 0) (rowFree : ∀ c, ¬ Marked A.starMatrix row c) (colFree : ∀ r, ¬ Marked A.starMatrix r col) :
    Starred
      { A with
        starMatrix := setEntry A.starMatrix row col true
        coveredColumns := Function.update A.coveredColumns col true
        coveredRows := coveredRows } where
  stars :=
    { row := by
        intro r c c' star star'
        rcases setEntry_eq_true.mp star with ⟨rfl, rfl⟩ | old <;> rcases setEntry_eq_true.mp star' with ⟨same, rfl⟩ | old'
        · rfl
        · exact absurd old' (rowFree c')
        · exact absurd (same ▸ old) (rowFree c)
        · exact starred.stars.row r c c' old old'
      column := by
        intro r r' c star star'
        rcases setEntry_eq_true.mp star with ⟨rfl, rfl⟩ | old <;> rcases setEntry_eq_true.mp star' with ⟨rfl, same⟩ | old'
        · rfl
        · exact absurd old' (colFree r')
        · exact absurd (same ▸ old) (colFree r)
        · exact starred.stars.column r r' c old old' }
  tight r c star := by
    rcases setEntry_eq_true.mp star with ⟨rfl, rfl⟩ | old
    · exact zero
    · exact starred.tight r c old
  column c := by
    by_cases same : c = col
    · subst same
      simp only [Function.update_self, true_iff]
      exact ⟨row, setEntry_eq_true.mpr (.inl ⟨rfl, rfl⟩)⟩
    · simp only [Function.update_of_ne same, starred.column c, Marked, setEntry_eq_true, same, and_false, false_or]
  prime := starred.prime

theorem starRows_starred {rows : List (Fin nOfRows)} (distinct : rows.Nodup) (starred : Starred A)
    (free : ∀ row ∈ rows, ∀ col, ¬ Marked A.starMatrix row col) :
    Starred (rows.foldl starRow A) ∧ (rows.foldl starRow A).distMatrix = A.distMatrix ∧
      (rows.foldl starRow A).coveredRows = A.coveredRows := by
  induction rows generalizing A with
  | nil => exact ⟨starred, rfl, rfl⟩
  | cons row rows ih =>
    rw [List.nodup_cons] at distinct
    obtain ⟨first, later⟩ := List.forall_mem_cons.mp free
    rw [List.foldl_cons, starRow]
    split
    · exact ih distinct.2 starred later
    · next col found =>
      have test := List.find?_some found
      simp only [Bool.and_eq_true, decide_eq_true_eq, Bool.not_eq_true'] at test
      obtain ⟨zero, uncovered⟩ := test
      have colFree : ∀ r, ¬ Marked A.starMatrix r col := by
        intro r star
        rw [(starred.column col).mpr ⟨r, star⟩] at uncovered
        cases uncovered
      refine ih distinct.2 (starred.add A.coveredRows zero first colFree) fun r member c star => ?_
      rcases setEntry_eq_true.mp star with ⟨rfl, _⟩ | old
      · exact distinct.1 member
      · exact later r member c old

theorem starColumns_starred {cols : List (Fin nOfColumns)} (distinct : cols.Nodup) (starred : Starred A)
    (rows : ∀ row, A.coveredRows row = true ↔ ∃ col, Marked A.starMatrix row col)
    (free : ∀ col ∈ cols, ∀ row, ¬ Marked A.starMatrix row col) :
    Starred (cols.foldl starColumn A) ∧ (cols.foldl starColumn A).distMatrix = A.distMatrix := by
  induction cols generalizing A with
  | nil => exact ⟨starred, rfl⟩
  | cons col cols ih =>
    rw [List.nodup_cons] at distinct
    obtain ⟨first, later⟩ := List.forall_mem_cons.mp free
    rw [List.foldl_cons, starColumn]
    split
    · exact ih distinct.2 starred rows later
    · next row found =>
      have test := List.find?_some found
      simp only [Bool.and_eq_true, decide_eq_true_eq, Bool.not_eq_true'] at test
      obtain ⟨zero, uncovered⟩ := test
      have rowFree : ∀ c, ¬ Marked A.starMatrix row c := by
        intro c star
        rw [(rows row).mpr ⟨c, star⟩] at uncovered
        cases uncovered
      refine ih distinct.2 (starred.add _ zero rowFree first) (fun r => ?_) fun c member r star => ?_
      · by_cases same : r = row
        · subst same
          simp only [Function.update_self, true_iff]
          exact ⟨col, setEntry_eq_true.mpr (.inl ⟨rfl, rfl⟩)⟩
        · simp only [Function.update_of_ne same, rows r, Marked, setEntry_eq_true, same, false_and, false_or]
      · rcases setEntry_eq_true.mp star with ⟨_, rfl⟩ | old
        · exact distinct.1 member
        · exact later c member r old

omit [LinearOrder K] in
theorem cleared_starred (distMatrix : Fin nOfRows → Fin nOfColumns → K) : Starred (cleared distMatrix) where
  stars := ⟨fun _ _ _ star => (by cases star), fun _ _ _ star => (by cases star)⟩
  tight _ _ star := by cases star
  column col := ⟨fun covered => (by cases covered), fun ⟨_, star⟩ => (by cases star)⟩
  prime _ _ prime := by cases prime

variable [IsOrderedAddMonoid K] {distMatrixIn : Fin nOfRows → Fin nOfColumns → K}

/-- The preliminary steps price the shorter side by its smallest elements. -/
theorem preliminary_solving (nonneg : ∀ row col, 0 ≤ distMatrixIn row col) :
    Solving distMatrixIn (phaseRank (preliminary distMatrixIn) + (4 * nOfRows + 7)) ⟨preliminary distMatrixIn, .step2b⟩ := by
  unfold preliminary
  split
  · next wide =>
    obtain ⟨starred, distances, rows⟩ := starRows_starred (List.nodup_finRange nOfRows) (cleared_starred (reduceRows distMatrixIn))
      (fun _ _ _ star => by cases star)
    refine ⟨fun row => smallest ((List.finRange nOfColumns).map (distMatrixIn row)), fun _ => 0, 0, ?_, .step2b _ ?_ (Nat.le_refl _)⟩
    · constructor
      case split =>
        intro row col
        rw [distances]
        simp [cleared, reduceRows]
      case nonneg =>
        intro row col
        rw [distances]
        exact sub_nonneg_of_le (smallest_le (List.mem_map_of_mem (List.mem_finRange col)))
      case stars => exact starred.stars
      case tight => exact starred.tight
      case columns => exact fun _ _ => le_rfl
      case freeColumns => exact fun _ _ _ => rfl
      case rows => exact fun more => absurd wide (Nat.not_le_of_lt more)
      case freeRows => exact fun more => absurd wide (Nat.not_le_of_lt more)
      case rising => exact le_rfl
      case worth =>
        rw [nsmul_zero, Finset.sum_const_zero, add_zero]
        refine Finset.sum_nonneg fun row _ => smallest_nonneg fun x member => ?_
        obtain ⟨col, _, rfl⟩ := List.mem_map.mp member
        exact nonneg row col
    · exact ⟨starred.column, fun row => by rw [rows]; rfl, starred.prime⟩
  · next more =>
    rw [Nat.not_le] at more
    obtain ⟨starred, distances⟩ := starColumns_starred (List.nodup_finRange nOfColumns) (cleared_starred (reduceColumns distMatrixIn))
      (fun row => ⟨fun covered => (by cases covered), fun ⟨_, star⟩ => (by cases star)⟩) (fun _ _ _ star => by cases star)
    refine ⟨fun _ => 0, fun col => smallest ((List.finRange nOfRows).map fun row => distMatrixIn row col), 0, ?_, .step2b _ ?_ (Nat.le_refl _)⟩
    · constructor
      case split =>
        intro row col
        simp only [distances]
        simp [cleared, reduceColumns]
      case nonneg =>
        intro row col
        simp only [distances]
        exact sub_nonneg_of_le (smallest_le (List.mem_map_of_mem (f := fun row => distMatrixIn row col) (List.mem_finRange row)))
      case stars => exact starred.stars
      case tight => exact starred.tight
      case columns => exact fun wide => absurd more (Nat.not_lt_of_le wide)
      case freeColumns => exact fun wide => absurd more (Nat.not_lt_of_le wide)
      case rows => exact fun _ _ => le_rfl
      case freeRows => exact fun _ _ _ => rfl
      case rising => exact le_rfl
      case worth =>
        rw [nsmul_zero, Finset.sum_const_zero, zero_add]
        refine Finset.sum_nonneg fun col _ => smallest_nonneg fun x member => ?_
        obtain ⟨row, _, rfl⟩ := List.mem_map.mp member
        exact nonneg row col
    · exact ⟨starred.column, fun row => rfl, starred.prime⟩

/-! ## The answer -/

omit [LinearOrder K] [IsOrderedAddMonoid K] in
theorem computeassignmentcost_eq (assignment : Fin nOfRows → Option (Fin nOfColumns)) (distMatrixIn : Fin nOfRows → Fin nOfColumns → K) :
    computeassignmentcost 0 assignment distMatrixIn = total distMatrixIn assignment := by
  have each (rows : List (Fin nOfRows)) (cost : K) : rows.foldl (addCost assignment distMatrixIn) cost =
      cost + (rows.map fun row => (assignment row).elim 0 (distMatrixIn row)).sum := by
    induction rows generalizing cost with
    | nil => simp
    | cons row rows ih =>
      rw [List.foldl_cons, ih, List.map_cons, List.sum_cons, ← add_assoc, addCost]
      cases assignment row with
      | none => simp
      | some col => rfl
  rw [computeassignmentcost, each, zero_add, total, Fin.sum_univ_def]

theorem buildassignmentvector_none (starMatrix : Fin nOfRows → Fin nOfColumns → Bool) :
    buildassignmentvector (fun _ => none) starMatrix = firstInRow starMatrix := by
  funext row
  unfold buildassignmentvector
  split
  · next found => exact found.symm
  · next none => exact none.symm

/-- What the solver answers are the stars of a priced matrix, as many as there can be. -/
theorem solve_some {maxValue cost : K} {assignment : Fin nOfRows → Option (Fin nOfColumns)} (positive : 0 ≤ maxValue)
    (nonneg : ∀ row col, 0 ≤ distMatrixIn row col) (answer : solve maxValue distMatrixIn = some (assignment, cost)) :
    ∃ A u v rise, Priced distMatrixIn A u v rise ∧ starCount A = min nOfRows nOfColumns ∧ assignment = firstInRow A.starMatrix ∧
      cost = total distMatrixIn assignment := by
  unfold solve assignmentoptimal at answer
  simp only [← min_def] at answer
  split at answer
  · cases answer
  · next final run =>
    have keep (s s' : Munkres K nOfRows nOfColumns) (solving : ∃ rank, Solving distMatrixIn rank s)
        (more : s.next maxValue (min nOfRows nOfColumns) = some s') : ∃ rank, Solving distMatrixIn rank s' := by
      obtain ⟨rank, solving⟩ := solving
      obtain ⟨rank', _, solving'⟩ := solving.next positive s s' more
      exact ⟨rank', solving'⟩
    obtain ⟨rank, u, v, rise, priced, progress⟩ := iterate_keeps _ keep ⟨_, preliminary_solving nonneg⟩ run
    cases progress with
    | step2b A _ _ => cases answer
    | step3 A _ _ _ => cases answer
    | step4 A _ _ _ _ _ _ _ _ => cases answer
    | step5 A _ _ _ => cases answer
    | finished A done =>
      cases answer
      exact ⟨A, u, v, rise, priced, done, buildassignmentvector_none _, computeassignmentcost_eq _ _⟩

/-- The call comes to an end if the distances together stay below the greatest value. -/
theorem solve_isSome {maxValue : K} (nonneg : ∀ row col, 0 ≤ distMatrixIn row col)
    (bound : ∑ row, ∑ col, distMatrixIn row col < maxValue) : ∃ assignment cost, solve maxValue distMatrixIn = some (assignment, cost) := by
  have positive : 0 ≤ maxValue :=
    le_trans (Finset.sum_nonneg fun row _ => Finset.sum_nonneg fun col _ => nonneg row col) (le_of_lt bound)
  have diagonalBound : total distMatrixIn (diagonal nOfRows nOfColumns) < maxValue := by
    refine lt_of_le_of_lt (Finset.sum_le_sum fun row _ => ?_) bound
    cases diagonal nOfRows nOfColumns row with
    | none => exact Finset.sum_nonneg fun col _ => nonneg row col
    | some col => exact Finset.single_le_sum (fun c _ => nonneg row c) (Finset.mem_univ col)
  have enough : phaseRank (preliminary distMatrixIn) + (4 * nOfRows + 7) < callBudget nOfRows (min nOfRows nOfColumns) := by
    have all := Nat.mul_le_mul_right (4 * nOfRows + 8) (Nat.sub_le (min nOfRows nOfColumns) (starCount (preliminary distMatrixIn)))
    unfold phaseRank callBudget
    rw [Nat.succ_mul (min nOfRows nOfColumns)]
    omega
  have nearer (rank : Nat) (s s' : Munkres K nOfRows nOfColumns) (solving : Solving distMatrixIn rank s)
      (more : s.next maxValue (min nOfRows nOfColumns) = some s') : ∃ rank', rank' < rank ∧ Solving distMatrixIn rank' s' := by
    obtain ⟨rank', less, solving'⟩ := solving.next positive s s' more
    exact ⟨rank', less diagonalBound, solving'⟩
  obtain ⟨final, rank, run, ⟨u, v, rise, priced, progress⟩, stopped⟩ :=
    iterate_ranked (Solving distMatrixIn) nearer (preliminary_solving nonneg) enough
  cases progress with
  | step2b A _ _ => cases stopped
  | step3 A _ _ _ => cases stopped
  | step4 A _ _ _ _ _ _ _ _ => cases stopped
  | step5 A _ _ _ => cases stopped
  | finished A done =>
    unfold solve assignmentoptimal
    simp only [← min_def, run]
    exact ⟨_, _, rfl⟩

/-- **The solver**: with distances whose sum is below the greatest value, the call comes to an end, writes behind no array and
answers an assignment of as many pairs as there can be; none of as many costs less. -/
theorem solve_optimal (maxValue : K) (distMatrixIn : Fin nOfRows → Fin nOfColumns → K) (nonneg : ∀ row col, 0 ≤ distMatrixIn row col)
    (bound : ∑ row, ∑ col, distMatrixIn row col < maxValue) :
    ∃ assignment, solve maxValue distMatrixIn = some (assignment, total distMatrixIn assignment) ∧
      IsAssignment assignment ∧ size assignment = min nOfRows nOfColumns ∧
      ∀ other : Fin nOfRows → Option (Fin nOfColumns), IsAssignment other → size other = min nOfRows nOfColumns →
        total distMatrixIn assignment ≤ total distMatrixIn other := by
  have positive : 0 ≤ maxValue :=
    le_trans (Finset.sum_nonneg fun row _ => Finset.sum_nonneg fun col _ => nonneg row col) (le_of_lt bound)
  obtain ⟨assignment, cost, answer⟩ := solve_isSome nonneg bound
  obtain ⟨A, u, v, rise, priced, done, rfl, rfl⟩ := solve_some positive nonneg answer
  exact ⟨firstInRow A.starMatrix, answer, firstInRow_isAssignment priced.stars, done, fun other => priced.optimal done⟩

theorem solve_optimal_crossing :
    ∃ assignment, solve (50 : ℤ) (fun row col : Fin 2 => ![![1, 2], ![3, 9]] row col) =
        some (assignment, total (fun row col : Fin 2 => ![![1, 2], ![3, 9]] row col) assignment) ∧
      IsAssignment assignment ∧ size assignment = min 2 2 ∧
      ∀ other : Fin 2 → Option (Fin 2), IsAssignment other → size other = min 2 2 →
        total (fun row col : Fin 2 => (![![1, 2], ![3, 9]] row col : ℤ)) assignment ≤
          total (fun row col : Fin 2 => ![![1, 2], ![3, 9]] row col) other :=
  solve_optimal 50 _ (by decide) (by decide)

end
end VideoDetector.Pvd
