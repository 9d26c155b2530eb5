import Mathlib.Algebra.Order.Sub.Basic
import Mathlib.Data.List.Induction
import VideoDetector.Pvd.Hungarian

/-!
# Prices, covers and trails of the assignment solver

The steps keep a price for each row and column that leaves exactly the entries of `distMatrix` above it (`Priced`).
Within a phase the covers meet each starred zero once (`Covering`). A pass of step 3 covers more rows or ends the phase in
step 4 or step 5 (`Passed`), step 5 raises the prices (`Priced.raise`), and step 4 follows a trail of primes and stars
(`Alternating`).
-/

namespace VideoDetector.Pvd
set_option autoImplicit false
open Lib

section
variable {K : Type} {nOfRows nOfColumns : Nat} {A : Arrays K nOfRows nOfColumns}

/-! ## Smallest elements -/

/-- The uncovered elements in the order of the loops of step 5. -/
def uncovered (A : Arrays K nOfRows nOfColumns) : List K :=
  (List.finRange nOfRows).flatMap fun row =>
    if A.coveredRows row then []
    else (List.finRange nOfColumns).flatMap fun col => if A.coveredColumns col then [] else [A.distMatrix row col]

theorem mem_uncovered {x : K} :
    x ∈ uncovered A ↔ ∃ row col, A.coveredRows row = false ∧ A.coveredColumns col = false ∧ x = A.distMatrix row col := by
  simp only [uncovered, List.mem_flatMap, List.mem_finRange, true_and]
  constructor
  · rintro ⟨row, member⟩
    cases rowCovered : A.coveredRows row with
    | true => simp [rowCovered] at member
    | false =>
      simp only [rowCovered, Bool.false_eq_true, if_false, List.mem_flatMap, List.mem_finRange, true_and] at member
      obtain ⟨col, member⟩ := member
      cases colCovered : A.coveredColumns col with
      | true => simp [colCovered] at member
      | false =>
        refine ⟨row, col, rowCovered, colCovered, ?_⟩
        simpa [colCovered] using member
  · rintro ⟨row, col, rowCovered, colCovered, rfl⟩
    refine ⟨row, ?_⟩
    simp only [rowCovered, Bool.false_eq_true, if_false, List.mem_flatMap, List.mem_finRange, true_and]
    exact ⟨col, by simp [colCovered]⟩

variable [LinearOrder K]

theorem lesser_eq_min (h value : K) : lesser h value = min h value := by
  unfold lesser
  rw [min_comm]
  exact (min_def_lt value h).symm

theorem foldl_lesser_le {first : K} {rest : List K} : rest.foldl lesser first ≤ first ∧ ∀ x ∈ rest, rest.foldl lesser first ≤ x := by
  induction rest generalizing first with
  | nil => exact ⟨le_rfl, fun x none => absurd none List.not_mem_nil⟩
  | cons y rest ih =>
    obtain ⟨low, all⟩ := @ih (lesser first y)
    rw [lesser_eq_min] at low
    rw [List.foldl_cons, lesser_eq_min]
    rw [lesser_eq_min] at all
    refine ⟨le_trans low (min_le_left first y), fun x member => ?_⟩
    rcases List.mem_cons.mp member with rfl | later
    · exact le_trans low (min_le_right first x)
    · exact all x later

theorem foldl_lesser_mem {first : K} {rest : List K} : rest.foldl lesser first = first ∨ rest.foldl lesser first ∈ rest := by
  induction rest generalizing first with
  | nil => exact .inl rfl
  | cons y rest ih =>
    rw [List.foldl_cons]
    rcases @ih (lesser first y) with same | later
    · rw [same, lesser_eq_min]
      rcases min_choice first y with left | right
      · exact .inl left
      · exact .inr (by rw [right]; exact List.mem_cons_self)
    · exact .inr (List.mem_cons_of_mem y later)

theorem smallestUncovered_eq (maxValue : K) (A : Arrays K nOfRows nOfColumns) :
    smallestUncovered maxValue A = (uncovered A).foldl lesser maxValue := by
  unfold smallestUncovered uncovered
  rw [List.foldl_flatMap]
  congr 1
  funext h row
  split
  · rfl
  · rw [List.foldl_flatMap]
    congr 1
    funext h col
    split <;> rfl

theorem smallestUncovered_le (maxValue : K) {row : Fin nOfRows} {col : Fin nOfColumns} (rowFree : A.coveredRows row = false)
    (colFree : A.coveredColumns col = false) : smallestUncovered maxValue A ≤ A.distMatrix row col := by
  rw [smallestUncovered_eq]
  exact foldl_lesser_le.2 _ (mem_uncovered.mpr ⟨row, col, rowFree, colFree, rfl⟩)

theorem smallestUncovered_attained {maxValue : K} (less : smallestUncovered maxValue A < maxValue) :
    ∃ row col, A.coveredRows row = false ∧ A.coveredColumns col = false ∧
      smallestUncovered maxValue A = A.distMatrix row col := by
  rw [smallestUncovered_eq] at less ⊢
  rcases @foldl_lesser_mem K _ maxValue (uncovered A) with same | member
  · exact absurd same (ne_of_lt less)
  · exact mem_uncovered.mp member

variable [AddCommGroup K]

theorem smallest_le {values : List K} {x : K} (member : x ∈ values) : smallest values ≤ x := by
  cases values with
  | nil => cases member
  | cons first rest =>
    obtain ⟨low, all⟩ := @foldl_lesser_le K _ first rest
    rcases List.mem_cons.mp member with rfl | later
    · exact low
    · exact all x later

theorem smallest_nonneg {values : List K} (nonneg : ∀ x ∈ values, 0 ≤ x) : 0 ≤ smallest values := by
  cases values with
  | nil => exact le_rfl
  | cons first rest =>
    rcases @foldl_lesser_mem K _ first rest with same | later
    · show 0 ≤ rest.foldl lesser first
      rw [same]
      exact nonneg first List.mem_cons_self
    · exact nonneg _ (List.mem_cons_of_mem first later)

theorem smallestUncovered_nonneg {maxValue : K} (enough : 0 ≤ maxValue) (nonneg : ∀ row col, 0 ≤ A.distMatrix row col) :
    0 ≤ smallestUncovered maxValue A := by
  rw [smallestUncovered_eq]
  rcases @foldl_lesser_mem K _ maxValue (uncovered A) with same | member
  · rwa [same]
  · obtain ⟨row, col, _, _, same⟩ := mem_uncovered.mp member
    rw [same]
    exact nonneg row col

end

/-! ## Stars and prices -/

section
variable {nOfRows nOfColumns : Nat} {matrix : Fin nOfRows → Fin nOfColumns → Bool}

def Marked (matrix : Fin nOfRows → Fin nOfColumns → Bool) : Fin nOfRows → Fin nOfColumns → Prop :=
  fun row col => matrix row col = true

theorem not_marked_of_firstInRow {row : Fin nOfRows} (none : firstInRow matrix row = none) (col : Fin nOfColumns) :
    ¬ Marked matrix row col := by
  rw [firstInRow_none] at none
  exact ne_true_of_eq_false (none col)

theorem firstInRow_eq_some (matching : IsMatching (Marked matrix)) {row : Fin nOfRows} {col : Fin nOfColumns} :
    firstInRow matrix row = some col ↔ Marked matrix row col := by
  constructor
  · exact firstInRow_some
  · intro star
    cases found : firstInRow matrix row with
    | none => exact absurd star (not_marked_of_firstInRow found col)
    | some col' => rw [matching.row row col' col (firstInRow_some found) star]

theorem firstInRow_ne_none {row : Fin nOfRows} : firstInRow matrix row ≠ none ↔ ∃ col, Marked matrix row col := by
  rw [Ne, firstInRow_none, not_forall]
  exact exists_congr fun col => by rw [Bool.not_eq_false, Marked]

theorem firstInRow_isAssignment (matching : IsMatching (Marked matrix)) : IsAssignment (firstInRow matrix) :=
  fun row row' col given given' => matching.column row row' col (firstInRow_some given) (firstInRow_some given')

end

section
variable {K : Type} [AddCommGroup K] [LinearOrder K] [IsOrderedAddMonoid K] {nOfRows nOfColumns : Nat}
  {A : Arrays K nOfRows nOfColumns} {distMatrixIn : Fin nOfRows → Fin nOfColumns → K} {u : Fin nOfRows → K}
  {v : Fin nOfColumns → K} {rise maxValue : K}

/-- The prices of rows and columns leave what is in `distMatrix`. On the longer side they are at most `rise`, or none, and
exactly that where there is no star. -/
structure Priced (distMatrixIn : Fin nOfRows → Fin nOfColumns → K) (A : Arrays K nOfRows nOfColumns) (u : Fin nOfRows → K)
    (v : Fin nOfColumns → K) (rise : K) : Prop where
  split : ∀ row col, distMatrixIn row col = u row + v col + A.distMatrix row col
  nonneg : ∀ row col, 0 ≤ A.distMatrix row col
  stars : IsMatching (Marked A.starMatrix)
  tight : ∀ row col, Marked A.starMatrix row col → A.distMatrix row col = 0
  columns : nOfRows ≤ nOfColumns → ∀ col, v col ≤ rise
  freeColumns : nOfRows ≤ nOfColumns → ∀ col, (∀ row, ¬ Marked A.starMatrix row col) → v col = rise
  rows : nOfColumns < nOfRows → ∀ row, u row ≤ 0
  freeRows : nOfColumns < nOfRows → ∀ row, (∀ col, ¬ Marked A.starMatrix row col) → u row = 0
  rising : 0 ≤ rise
  worth : (1 + (nOfColumns - min nOfRows nOfColumns)) • rise ≤ ∑ row, u row + ∑ col, v col

omit [IsOrderedAddMonoid K] in
/-- The prices depend on the distances and the stars only. -/
theorem Priced.congr {B : Arrays K nOfRows nOfColumns} (priced : Priced distMatrixIn A u v rise)
    (stars : B.starMatrix = A.starMatrix) (distances : B.distMatrix = A.distMatrix) : Priced distMatrixIn B u v rise := by
  obtain ⟨split, nonneg, matching, tight, columns, freeColumns, rows, freeRows, rising, worth⟩ := priced
  rw [← distances] at split nonneg tight
  rw [← stars] at matching tight freeColumns freeRows
  exact ⟨split, nonneg, matching, tight, columns, freeColumns, rows, freeRows, rising, worth⟩

/-- The prices have not risen above what any full assignment costs. -/
theorem Priced.rise_le (priced : Priced distMatrixIn A u v rise) {b : Fin nOfRows → Option (Fin nOfColumns)}
    (assignment : IsAssignment b) (full : size b = min nOfRows nOfColumns) : rise ≤ total distMatrixIn b := by
  have rows : ∀ row, b row = none → u row ≤ 0 := by
    intro row out
    rcases Nat.lt_or_ge nOfColumns nOfRows with more | wide
    · exact priced.rows more row
    · exact absurd out (row_assigned (by rw [full, Nat.min_eq_left wide, Fintype.card_fin]) row)
  have columns : ∀ col, (∀ row, b row ≠ some col) → v col ≤ rise := by
    intro col out
    rcases Nat.lt_or_ge nOfColumns nOfRows with more | wide
    · obtain ⟨row, given⟩ := column_assigned assignment (by rw [full, Nat.min_eq_right (Nat.le_of_lt more), Fintype.card_fin]) col
      exact absurd given (out row)
    · exact priced.columns wide col
  have bound := le_trans priced.worth (prices_le_total assignment priced.split priced.nonneg rows columns)
  rw [add_nsmul, one_nsmul, nsmul_zero, zero_add, full, Fintype.card_fin] at bound
  exact le_of_add_le_add_right bound

/-- All stars of a full assignment: it costs least. -/
theorem Priced.optimal (priced : Priced distMatrixIn A u v rise) (done : size (firstInRow A.starMatrix) = min nOfRows nOfColumns)
    {b : Fin nOfRows → Option (Fin nOfColumns)} (assignment : IsAssignment b) (full : size b = min nOfRows nOfColumns) :
    total distMatrixIn (firstInRow A.starMatrix) ≤ total distMatrixIn b := by
  have own := firstInRow_isAssignment priced.stars
  have tight : ∀ row col, firstInRow A.starMatrix row = some col → A.distMatrix row col = 0 :=
    fun row col given => priced.tight row col (firstInRow_some given)
  rcases Nat.lt_or_ge nOfColumns nOfRows with more | wide
  · have all : ∀ {a : Fin nOfRows → Option (Fin nOfColumns)}, IsAssignment a → size a = min nOfRows nOfColumns →
        ∀ col, ¬ ∀ row, a row ≠ some col := by
      intro a assignment full col out
      obtain ⟨row, given⟩ := column_assigned assignment (by rw [full, Nat.min_eq_right (Nat.le_of_lt more), Fintype.card_fin]) col
      exact out row given
    exact total_le_of_prices 0 rise own assignment (full.trans done.symm) priced.split priced.nonneg
      tight (fun row _ => priced.rows more row)
      (fun row out => priced.freeRows more row fun col star => absurd out (firstInRow_ne_none.mpr ⟨col, star⟩))
      (fun col out => absurd out (all assignment full col)) (fun col out => absurd out (all own done col))
  · have all : ∀ {a : Fin nOfRows → Option (Fin nOfColumns)}, size a = min nOfRows nOfColumns → ∀ row, a row ≠ none :=
      fun full => row_assigned (by rw [full, Nat.min_eq_left wide, Fintype.card_fin])
    exact total_le_of_prices 0 rise own assignment (full.trans done.symm) priced.split priced.nonneg
      tight (fun row out => absurd out (all full row)) (fun row out => absurd out (all done row))
      (fun col _ => priced.columns wide col)
      (fun col out => priced.freeColumns wide col fun row star => out row ((firstInRow_eq_some priced.stars).mpr star))

end

/-! ## A phase: the steps from one call of step 2b to the next -/

section
variable {K : Type} {nOfRows nOfColumns : Nat} {A : Arrays K nOfRows nOfColumns}

def coverSet {n : Nat} (covered : Fin n → Bool) : Finset (Fin n) := Finset.univ.filter fun i => covered i = true

theorem mem_coverSet {n : Nat} {covered : Fin n → Bool} {i : Fin n} : i ∈ coverSet covered ↔ covered i = true := by
  simp [coverSet]

theorem card_coverSet_update {n : Nat} {covered : Fin n → Bool} {i : Fin n} (free : covered i = false) :
    (coverSet (Function.update covered i true)).card = (coverSet covered).card + 1 := by
  have inserted : coverSet (Function.update covered i true) = insert i (coverSet covered) := by
    ext j
    rw [Finset.mem_insert, mem_coverSet, mem_coverSet]
    by_cases same : j = i
    · simp [same]
    · simp [same]
  have out : i ∉ coverSet covered := by
    rw [mem_coverSet, free]
    exact Bool.false_ne_true
  rw [inserted, Finset.card_insert_of_notMem out]

/-- The number of starred zeros. -/
def starCount (A : Arrays K nOfRows nOfColumns) : Nat := size (firstInRow A.starMatrix)

/-- The arrays as step 2b is called with them. -/
structure Fresh (A : Arrays K nOfRows nOfColumns) : Prop where
  column : ∀ col, A.coveredColumns col = true ↔ ∃ row, Marked A.starMatrix row col
  row : ∀ row, A.coveredRows row = false
  prime : ∀ row col, ¬ Marked A.primeMatrix row col

theorem countP_finRange {n : Nat} (p : Fin n → Bool) : (List.finRange n).countP p = (coverSet p).card := by
  rw [List.countP_eq_length_filter, ← List.toFinset_card_of_nodup ((List.nodup_finRange n).filter p)]
  congr 1
  ext i
  simp [mem_coverSet]

/-- Where only columns with a star are covered, their number is the number of stars. -/
theorem Fresh.count (fresh : Fresh A) (matching : IsMatching (Marked A.starMatrix)) :
    (List.finRange nOfColumns).countP A.coveredColumns = starCount A := by
  rw [countP_finRange, starCount, ← card_assignedColumns (firstInRow_isAssignment matching)]
  congr 1
  ext col
  rw [mem_coverSet, mem_assignedColumns, fresh.column]
  exact exists_congr fun row => (firstInRow_eq_some matching).symm

theorem coverSet_card_le {n : Nat} (covered : Fin n → Bool) : (coverSet covered).card ≤ n := by
  simpa using Finset.card_le_univ (coverSet covered)

/-- How many calls there are at most for the stars that are missing. -/
def phaseRank (A : Arrays K nOfRows nOfColumns) : Nat := (min nOfRows nOfColumns - starCount A) * (4 * nOfRows + 8)

theorem phaseRank_congr {B : Arrays K nOfRows nOfColumns} (stars : B.starMatrix = A.starMatrix) : phaseRank B = phaseRank A := by
  rw [phaseRank, phaseRank, starCount, starCount, stars]

variable [AddCommGroup K]

/-- Each star is covered once, and only stars are covered. The covered rows are those with a prime, which was there before
the primes that lead to the star of the row. -/
structure Covering (A : Arrays K nOfRows nOfColumns) (t : Fin nOfRows → Nat) : Prop where
  column : ∀ col, A.coveredColumns col = true → ∃ row, Marked A.starMatrix row col ∧ A.coveredRows row = false
  row : ∀ row, A.coveredRows row = true → ∃ col, Marked A.starMatrix row col
  star : ∀ row col, Marked A.starMatrix row col → A.coveredColumns col = true ∨ A.coveredRows row = true
  zero : ∀ row col, Marked A.primeMatrix row col → A.distMatrix row col = 0
  place : ∀ row col, Marked A.primeMatrix row col → A.coveredRows row = true ∧ A.coveredColumns col = false
  primed : ∀ row, A.coveredRows row = true → ∃ col, Marked A.primeMatrix row col
  prime : ∀ row col col', Marked A.primeMatrix row col → Marked A.primeMatrix row col' → col = col'
  back : ∀ row row' col, Marked A.primeMatrix row col → Marked A.starMatrix row' col → t row' < t row
  time : ∀ row, A.coveredRows row = true → t row < (coverSet A.coveredRows).card
  few : starCount A < min nOfRows nOfColumns

theorem Covering.covers_le {t : Fin nOfRows → Nat} (phase : Covering A t) (matching : IsMatching (Marked A.starMatrix)) :
    (coverSet A.coveredColumns).card + (coverSet A.coveredRows).card ≤ starCount A := by
  apply card_cover_le
  · intro row member
    exact firstInRow_ne_none.mpr (phase.row row (mem_coverSet.mp member))
  · intro col member
    obtain ⟨row, star, free⟩ := phase.column col (Finset.mem_filter.mp member).2
    refine ⟨row, (firstInRow_eq_some matching).mpr star, fun covered => ?_⟩
    rw [mem_coverSet.mp covered] at free
    cases free

/-- A starred zero is not covered twice. -/
theorem Covering.once {t : Fin nOfRows → Nat} (phase : Covering A t) (matching : IsMatching (Marked A.starMatrix)) {row : Fin nOfRows}
    {col : Fin nOfColumns} (star : Marked A.starMatrix row col) (covered : A.coveredRows row = true) :
    A.coveredColumns col = false := by
  cases columnCovered : A.coveredColumns col with
  | false => rfl
  | true =>
    obtain ⟨row', star', free⟩ := phase.column col columnCovered
    rw [matching.column row' row col star' star, covered] at free
    cases free

/-! ## Step 5 -/

def raisedRow (A : Arrays K nOfRows nOfColumns) (u : Fin nOfRows → K) (h : K) : Fin nOfRows → K :=
  fun row => if A.coveredRows row = true then u row - h else u row

def raisedColumn (A : Arrays K nOfRows nOfColumns) (v : Fin nOfColumns → K) (h : K) : Fin nOfColumns → K :=
  fun col => if A.coveredColumns col = true then v col else v col + h

def raisedMatrix (A : Arrays K nOfRows nOfColumns) (h : K) : Fin nOfRows → Fin nOfColumns → K :=
  fun row col =>
    let added := if A.coveredRows row then A.distMatrix row col + h else A.distMatrix row col
    if A.coveredColumns col then added else added - h

theorem step5_eq [LinearOrder K] (maxValue : K) (A : Arrays K nOfRows nOfColumns) :
    step5 maxValue A = ⟨{ A with distMatrix := raisedMatrix A (smallestUncovered maxValue A) }, .step3⟩ := rfl

theorem sum_raisedRow (A : Arrays K nOfRows nOfColumns) (u : Fin nOfRows → K) (h : K) :
    ∑ row, raisedRow A u h row + (coverSet A.coveredRows).card • h = ∑ row, u row := by
  have each : ∀ row, raisedRow A u h row = u row - if A.coveredRows row = true then h else 0 := by
    intro row
    unfold raisedRow
    split
    · rfl
    · exact (sub_zero _).symm
  rw [Finset.sum_congr rfl fun row _ => each row, Finset.sum_sub_distrib, ← Finset.sum_filter, Finset.sum_const]
  exact sub_add_cancel _ _

theorem sum_raisedColumn (A : Arrays K nOfRows nOfColumns) (v : Fin nOfColumns → K) (h : K) :
    ∑ col, raisedColumn A v h col + (coverSet A.coveredColumns).card • h = ∑ col, v col + nOfColumns • h := by
  have each : ∀ col, raisedColumn A v h col + (if A.coveredColumns col = true then h else 0) = v col + h := by
    intro col
    unfold raisedColumn
    split
    · rfl
    · exact add_zero _
  rw [coverSet, ← Finset.sum_const, Finset.sum_filter, ← Finset.sum_add_distrib, Finset.sum_congr rfl fun col _ => each col,
    Finset.sum_add_distrib, Finset.sum_const, Finset.card_univ, Fintype.card_fin]

/-- Step 5 keeps the prices right: those of covered rows fall, those of uncovered columns rise. -/
theorem Priced.raise [LinearOrder K] [IsOrderedAddMonoid K] {distMatrixIn : Fin nOfRows → Fin nOfColumns → K} {u : Fin nOfRows → K}
    {v : Fin nOfColumns → K} {rise : K} {t : Fin nOfRows → Nat} (priced : Priced distMatrixIn A u v rise) (phase : Covering A t) {h : K} (positive : 0 ≤ h)
    (low : ∀ row col, A.coveredRows row = false → A.coveredColumns col = false → h ≤ A.distMatrix row col) :
    Priced distMatrixIn { A with distMatrix := raisedMatrix A h } (raisedRow A u h) (raisedColumn A v h) (rise + h) := by
  constructor
  case split =>
    intro row col
    rw [priced.split row col]
    unfold raisedRow raisedColumn raisedMatrix
    cases rowCovered : A.coveredRows row <;> cases columnCovered : A.coveredColumns col <;> simp [rowCovered, columnCovered] <;> abel
  case nonneg =>
    intro row col
    have before := priced.nonneg row col
    unfold raisedMatrix
    cases rowCovered : A.coveredRows row <;> cases columnCovered : A.coveredColumns col <;> simp [rowCovered, columnCovered]
    · exact low row col rowCovered columnCovered
    · exact before
    · exact before
    · exact add_nonneg before positive
  case stars => exact priced.stars
  case tight =>
    intro row col star
    have before := priced.tight row col star
    unfold raisedMatrix
    rcases phase.star row col star with columnCovered | rowCovered
    · cases rowCovered : A.coveredRows row with
      | true => rw [phase.once priced.stars star rowCovered] at columnCovered; cases columnCovered
      | false => simp [columnCovered, rowCovered, before]
    · simp [rowCovered, phase.once priced.stars star rowCovered, before]
  case columns =>
    intro wide col
    unfold raisedColumn
    split
    · exact le_add_of_le_of_nonneg (priced.columns wide col) positive
    · exact add_le_add (priced.columns wide col) le_rfl
  case freeColumns =>
    intro wide col free
    unfold raisedColumn
    rw [if_neg, priced.freeColumns wide col free]
    intro covered
    obtain ⟨row, star, _⟩ := phase.column col covered
    exact free row star
  case rows =>
    intro more row
    unfold raisedRow
    split
    · exact le_trans (sub_le_self _ positive) (priced.rows more row)
    · exact priced.rows more row
  case freeRows =>
    intro more row free
    unfold raisedRow
    rw [if_neg, priced.freeRows more row free]
    intro covered
    obtain ⟨col, star⟩ := phase.row row covered
    exact free col star
  case rising => exact add_nonneg priced.rising positive
  case worth =>
    have covers := phase.covers_le priced.stars
    have few := phase.few
    have counted : (1 + (nOfColumns - min nOfRows nOfColumns)) + (coverSet A.coveredRows).card + (coverSet A.coveredColumns).card ≤ nOfColumns := by omega
    have shared := nsmul_le_nsmul_left positive counted
    rw [add_nsmul, add_nsmul] at shared
    have rows := sum_raisedRow A u h
    have columns := sum_raisedColumn A v h
    refine le_of_add_le_add_right (a := (coverSet A.coveredRows).card • h + (coverSet A.coveredColumns).card • h) ?_
    calc (1 + (nOfColumns - min nOfRows nOfColumns)) • (rise + h) + ((coverSet A.coveredRows).card • h + (coverSet A.coveredColumns).card • h)
        = (1 + (nOfColumns - min nOfRows nOfColumns)) • rise +
            ((1 + (nOfColumns - min nOfRows nOfColumns)) • h + (coverSet A.coveredRows).card • h + (coverSet A.coveredColumns).card • h) := by
          rw [nsmul_add]
          abel
      _ ≤ (∑ row, u row + ∑ col, v col) + nOfColumns • h := add_le_add priced.worth shared
      _ = _ := by
          rw [← rows, add_assoc, ← columns]
          abel

/-- A prime is in a covered row and an uncovered column, so it stays a zero. -/
theorem Covering.raise {t : Fin nOfRows → Nat} (phase : Covering A t) (h : K) :
    Covering { A with distMatrix := raisedMatrix A h } t where
  column := phase.column
  row := phase.row
  star := phase.star
  zero row col prime := by
    obtain ⟨covered, free⟩ := phase.place row col prime
    simp [raisedMatrix, covered, free, phase.zero row col prime]
  place := phase.place
  primed := phase.primed
  prime := phase.prime
  back := phase.back
  time := phase.time
  few := phase.few

/-! ## Step 3 -/

section
variable {t : Fin nOfRows → Nat} {row : Fin nOfRows} {col : Fin nOfColumns}

theorem Covering.prime_cases (phase : Covering A t) (rowFree : A.coveredRows row = false) {r : Fin nOfRows} {c : Fin nOfColumns}
    (prime : Marked (setEntry A.primeMatrix row col true) r c) : r = row ∧ c = col ∨ r ≠ row ∧ Marked A.primeMatrix r c := by
  rcases setEntry_eq_true.mp prime with new | old
  · exact .inl new
  · refine .inr ⟨fun same => ?_, old⟩
    rw [same] at old
    rw [(phase.place row c old).1] at rowFree
    cases rowFree

theorem Covering.zero_new (phase : Covering A t) (rowFree : A.coveredRows row = false) (zero : A.distMatrix row col = 0) (r : Fin nOfRows)
    (c : Fin nOfColumns) (prime : Marked (setEntry A.primeMatrix row col true) r c) : A.distMatrix r c = 0 := by
  rcases phase.prime_cases rowFree prime with ⟨rfl, rfl⟩ | ⟨_, old⟩
  · exact zero
  · exact phase.zero r c old

theorem Covering.prime_new (phase : Covering A t) (rowFree : A.coveredRows row = false) (r : Fin nOfRows) (c c' : Fin nOfColumns)
    (prime : Marked (setEntry A.primeMatrix row col true) r c) (prime' : Marked (setEntry A.primeMatrix row col true) r c') : c = c' := by
  rcases phase.prime_cases rowFree prime with ⟨rfl, rfl⟩ | ⟨other, old⟩ <;>
    rcases phase.prime_cases rowFree prime' with ⟨same, rfl⟩ | ⟨other', old'⟩
  · rfl
  · exact absurd rfl other'
  · exact absurd same other
  · exact phase.prime r c c' old old'

/-- The star of a primed column is in a row that was covered before. -/
theorem Covering.star_covered (phase : Covering A t) (rowFree : A.coveredRows row = false) (colFree : A.coveredColumns col = false)
    {r r' : Fin nOfRows} {c : Fin nOfColumns} (prime : Marked (setEntry A.primeMatrix row col true) r c)
    (star : Marked A.starMatrix r' c) : A.coveredRows r' = true ∧ r' ≠ row := by
  have free : A.coveredColumns c = false := by
    rcases phase.prime_cases rowFree prime with ⟨_, rfl⟩ | ⟨_, old⟩
    · exact colFree
    · exact (phase.place r c old).2
  rcases phase.star r' c star with covered | covered
  · rw [covered] at free
    cases free
  · refine ⟨covered, fun same => ?_⟩
    rw [same, rowFree] at covered
    cases covered

theorem Covering.back_new (phase : Covering A t) (rowFree : A.coveredRows row = false) (colFree : A.coveredColumns col = false)
    (r r' : Fin nOfRows) (c : Fin nOfColumns) (prime : Marked (setEntry A.primeMatrix row col true) r c)
    (star : Marked A.starMatrix r' c) :
    Function.update t row (coverSet A.coveredRows).card r' < Function.update t row (coverSet A.coveredRows).card r := by
  obtain ⟨covered, apart⟩ := phase.star_covered rowFree colFree prime star
  rw [Function.update_of_ne apart]
  rcases phase.prime_cases rowFree prime with ⟨rfl, rfl⟩ | ⟨other, old⟩
  · rw [Function.update_self]
    exact phase.time r' covered
  · rw [Function.update_of_ne other]
    exact phase.back r r' c old star

/-- A row that is primed and has a star is covered in place of the column of the star. -/
theorem Covering.cover (phase : Covering A t) (matching : IsMatching (Marked A.starMatrix)) {starCol : Fin nOfColumns} (rowFree : A.coveredRows row = false) (colFree : A.coveredColumns col = false)
    (zero : A.distMatrix row col = 0) (star : Marked A.starMatrix row starCol) :
    Covering
      { A with
        primeMatrix := setEntry A.primeMatrix row col true
        coveredRows := Function.update A.coveredRows row true
        coveredColumns := Function.update A.coveredColumns starCol false }
      (Function.update t row (coverSet A.coveredRows).card) := by
  have columnUncovered {c : Fin nOfColumns} (free : A.coveredColumns c = false) :
      Function.update A.coveredColumns starCol false c = false := by
    by_cases same : c = starCol
    · simp [same]
    · simp [same, free]
  constructor
  case column =>
    intro c covered
    have other : c ≠ starCol := by
      rintro rfl
      simp at covered
    simp only [Function.update_of_ne other] at covered
    obtain ⟨r, star', free⟩ := phase.column c covered
    refine ⟨r, star', ?_⟩
    have apart : r ≠ row := by
      rintro rfl
      exact other (matching.row r c starCol star' star)
    simpa [apart] using free
  case row =>
    intro r covered
    by_cases same : r = row
    · exact ⟨starCol, same ▸ star⟩
    · simp only [Function.update_of_ne same] at covered
      exact phase.row r covered
  case star =>
    intro r c star'
    by_cases same : r = row
    · exact .inr (by simp [same])
    · have other : c ≠ starCol := by
        rintro rfl
        exact same (matching.column r row c star' star)
      simpa [same, other] using phase.star r c star'
  case zero => exact phase.zero_new rowFree zero
  case place =>
    intro r c prime
    rcases phase.prime_cases rowFree prime with ⟨rfl, rfl⟩ | ⟨other, old⟩
    · exact ⟨by simp, columnUncovered colFree⟩
    · obtain ⟨covered, free⟩ := phase.place r c old
      exact ⟨by simpa [other] using covered, columnUncovered free⟩
  case primed =>
    intro r covered
    by_cases same : r = row
    · exact ⟨col, setEntry_eq_true.mpr (.inl ⟨same, rfl⟩)⟩
    · simp only [Function.update_of_ne same] at covered
      obtain ⟨c, prime⟩ := phase.primed r covered
      exact ⟨c, setEntry_eq_true.mpr (.inr prime)⟩
  case prime => exact phase.prime_new rowFree
  case back => exact phase.back_new rowFree colFree
  case time =>
    intro r covered
    rw [card_coverSet_update rowFree]
    by_cases same : r = row
    · simp [same]
    · simp only [Function.update_of_ne same] at covered ⊢
      exact Nat.lt_succ_of_lt (phase.time r covered)
  case few => exact phase.few

end

/-- What one pass of step 3 over the columns comes to. -/
inductive Passed (A : Arrays K nOfRows nOfColumns) (zerosFound : Bool) (cols : List (Fin nOfColumns)) :
    Munkres K nOfRows nOfColumns → Prop where
  /-- A zero without a star in its row is primed. -/
  | augment (B : Arrays K nOfRows nOfColumns) (t : Fin nOfRows → Nat) (row : Fin nOfRows) (col : Fin nOfColumns)
      (phase : Covering B t) (stars : B.starMatrix = A.starMatrix) (distances : B.distMatrix = A.distMatrix)
      (rowFree : B.coveredRows row = false) (colFree : B.coveredColumns col = false) (zero : B.distMatrix row col = 0)
      (none : firstInRow B.starMatrix row = none) :
      Passed A zerosFound cols
        ⟨{ B with primeMatrix := setEntry B.primeMatrix row col true }, .step4 (setEntry B.starMatrix row col true) col⟩
  /-- Zeros were found, and more rows are covered. -/
  | again (B : Arrays K nOfRows nOfColumns) (t : Fin nOfRows → Nat) (phase : Covering B t) (stars : B.starMatrix = A.starMatrix)
      (distances : B.distMatrix = A.distMatrix) (less : (coverSet A.coveredRows).card ≤ (coverSet B.coveredRows).card)
      (more : zerosFound = false → (coverSet A.coveredRows).card < (coverSet B.coveredRows).card) : Passed A zerosFound cols ⟨B, .step3⟩
  /-- There is no uncovered zero. -/
  | stuck (first : zerosFound = false)
      (none : ∀ col ∈ cols, A.coveredColumns col = false → ∀ row, A.coveredRows row = false → A.distMatrix row col ≠ 0) :
      Passed A zerosFound cols ⟨A, .step5⟩

theorem Passed.skip {zerosFound : Bool} {col : Fin nOfColumns} {cols : List (Fin nOfColumns)} {s : Munkres K nOfRows nOfColumns}
    (passed : Passed A zerosFound cols s)
    (clear : A.coveredColumns col = false → ∀ row, A.coveredRows row = false → A.distMatrix row col ≠ 0) :
    Passed A zerosFound (col :: cols) s := by
  cases passed with
  | augment B t row col' phase stars distances rowFree colFree zero none =>
    exact .augment B t row col' phase stars distances rowFree colFree zero none
  | again B t phase stars distances less more => exact .again B t phase stars distances less more
  | stuck first none => exact .stuck first (List.forall_mem_cons.mpr ⟨clear, none⟩)

theorem Passed.later {B : Arrays K nOfRows nOfColumns} {zerosFound : Bool} {cols cols' : List (Fin nOfColumns)}
    {s : Munkres K nOfRows nOfColumns} (passed : Passed B true cols s) (stars : B.starMatrix = A.starMatrix)
    (distances : B.distMatrix = A.distMatrix) (more : (coverSet A.coveredRows).card < (coverSet B.coveredRows).card) : Passed A zerosFound cols' s := by
  cases passed with
  | augment C t row col phase stars' distances' rowFree colFree zero none =>
    exact .augment C t row col phase (stars'.trans stars) (distances'.trans distances) rowFree colFree zero none
  | again C t phase stars' distances' less _ =>
    exact .again C t phase (stars'.trans stars) (distances'.trans distances) (by omega) (fun _ => by omega)
  | stuck first _ => cases first

section
variable [LinearOrder K]

theorem uncoveredZero_some {row : Fin nOfRows} {col : Fin nOfColumns} (found : uncoveredZero A col = some row) :
    A.coveredRows row = false ∧ A.distMatrix row col = 0 := by
  simpa using List.find?_some found

theorem uncoveredZero_none {col : Fin nOfColumns} (none : uncoveredZero A col = none) :
    ∀ row, A.coveredRows row = false → A.distMatrix row col ≠ 0 := by
  simpa [uncoveredZero] using none

theorem step3Columns_passed (A : Arrays K nOfRows nOfColumns) {t : Fin nOfRows → Nat} (phase : Covering A t)
    (matching : IsMatching (Marked A.starMatrix)) (zerosFound : Bool) (cols : List (Fin nOfColumns)) :
    Passed A zerosFound cols (step3Columns A zerosFound cols) := by
  induction cols generalizing A t zerosFound with
  | nil =>
    cases zerosFound with
    | false => exact .stuck rfl fun col none => absurd none List.not_mem_nil
    | true => exact .again A t phase rfl rfl (Nat.le_refl _) fun first => by cases first
  | cons col cols ih =>
    rw [step3Columns]
    split
    · next covered => exact (ih A phase matching zerosFound).skip fun free => by rw [covered] at free; cases free
    · next free =>
      rw [Bool.not_eq_true] at free
      split
      · next none => exact (ih A phase matching zerosFound).skip fun _ => uncoveredZero_none none
      · next row found =>
        obtain ⟨rowFree, zero⟩ := uncoveredZero_some found
        simp only
        split
        · next none => exact .augment A t row col phase rfl rfl rowFree free zero none
        · next starCol starred =>
          have phase' := phase.cover matching rowFree free zero (firstInRow_some starred)
          refine (ih _ phase' matching true).later rfl rfl ?_
          rw [card_coverSet_update rowFree]
          exact Nat.lt_succ_self _

end

/-! ## Step 4 -/

/-- Step 4 on the trail of alternating primes and stars, which has got to the prime of row `last` and column `col`. -/
structure Alternating (A : Arrays K nOfRows nOfColumns) (t : Fin nOfRows → Nat) (newStarMatrix : Fin nOfRows → Fin nOfColumns → Bool)
    (root : Fin nOfRows) (visited : Finset (Fin nOfRows)) (last : Fin nOfRows) (col : Fin nOfColumns) : Prop where
  trail : Trail (Marked A.starMatrix) (Marked A.primeMatrix) t
  flipped : Flipped (Marked A.starMatrix) (Marked A.primeMatrix) t root visited (Marked newStarMatrix) last col
  free : ∀ col, ¬ Marked A.starMatrix root col
  zero : ∀ row col, Marked A.primeMatrix row col → A.distMatrix row col = 0
  column : ∀ col, A.coveredColumns col = true → ∃ row, Marked A.starMatrix row col
  few : starCount A < min nOfRows nOfColumns

theorem Covering.alternating {t : Fin nOfRows → Nat} (phase : Covering A t) (matching : IsMatching (Marked A.starMatrix))
    {row : Fin nOfRows} {col : Fin nOfColumns} (rowFree : A.coveredRows row = false) (colFree : A.coveredColumns col = false)
    (zero : A.distMatrix row col = 0) (none : firstInRow A.starMatrix row = none) :
    Alternating { A with primeMatrix := setEntry A.primeMatrix row col true }
      (Function.update t row (coverSet A.coveredRows).card) (setEntry A.starMatrix row col true) row {row} row col where
  trail :=
    { stars := matching
      prime := phase.prime_new rowFree
      back := phase.back_new rowFree colFree
      next := by
        intro r r' c prime star
        obtain ⟨c', old⟩ := phase.primed r' (phase.star_covered rowFree colFree prime star).1
        exact ⟨c', setEntry_eq_true.mpr (.inr old)⟩ }
  flipped := by
    have here : Marked (setEntry A.primeMatrix row col true) row col := setEntry_eq_true.mpr (.inl ⟨rfl, rfl⟩)
    refine Flipped.congr (Flipped.start here) fun r c => ?_
    rw [Marked, setEntry_eq_true]
    split
    · next same =>
      subst same
      constructor
      · rintro (⟨_, rfl⟩ | star)
        · exact setEntry_eq_true.mpr (.inl ⟨rfl, rfl⟩)
        · exact absurd star (not_marked_of_firstInRow none c)
      · intro prime
        rcases phase.prime_cases rowFree prime with here | ⟨other, _⟩
        · exact .inl here
        · exact absurd rfl other
    · next other => simp [other, Marked]
  free := not_marked_of_firstInRow none
  zero := phase.zero_new rowFree zero
  column col covered := by
    obtain ⟨r, star, _⟩ := phase.column col covered
    exact ⟨r, star⟩
  few := phase.few

section
variable {t : Fin nOfRows → Nat} {newStarMatrix : Fin nOfRows → Fin nOfColumns → Bool} {root last : Fin nOfRows}
  {visited : Finset (Fin nOfRows)} {col : Fin nOfColumns}

theorem Alternating.advance (alternating : Alternating A t newStarMatrix root visited last col) {row : Fin nOfRows}
    {primeCol : Fin nOfColumns} (star : Marked A.starMatrix row col) (prime : Marked A.primeMatrix row primeCol) :
    Alternating A t (setEntry (setEntry newStarMatrix row col false) row primeCol true) root (insert row visited) row primeCol := by
  have fresh := alternating.flipped.new_row alternating.trail star
  refine { alternating with flipped := (alternating.flipped.advance alternating.trail star prime).congr fun r c => ?_ }
  rw [Marked, setEntry_eq_true]
  by_cases same : r = row
  · subst same
    have old : Marked newStarMatrix r c ↔ Marked A.starMatrix r c := by rw [alternating.flipped.pairs r c, if_neg fresh]
    rw [if_pos rfl]
    constructor
    · rintro (⟨_, rfl⟩ | kept)
      · exact prime
      · unfold setEntry at kept
        split at kept
        · cases kept
        · next other =>
          exact absurd ⟨rfl, alternating.trail.stars.row r c col (old.mp kept) star⟩ other
    · intro prime'
      exact .inl ⟨rfl, alternating.trail.prime r c primeCol prime' prime⟩
  · rw [if_neg same]
    simp [setEntry, same, Marked]

/-- The number of stars grows by the root of the trail. -/
theorem Alternating.starCount (alternating : Alternating A t newStarMatrix root visited last col) :
    size (firstInRow newStarMatrix) = size (firstInRow A.starMatrix) + 1 := by
  have inserted : assignedRows (firstInRow newStarMatrix) = insert root (assignedRows (firstInRow A.starMatrix)) := by
    ext row
    rw [Finset.mem_insert, mem_assignedRows, mem_assignedRows, firstInRow_ne_none, firstInRow_ne_none,
      alternating.flipped.rows row, or_comm]
  have out : root ∉ assignedRows (firstInRow A.starMatrix) := by
    rw [mem_assignedRows, firstInRow_ne_none]
    rintro ⟨col, star⟩
    exact alternating.free col star
  rw [size, inserted, Finset.card_insert_of_notMem out, size]

/-- The arrays at the end of step 4. -/
def augmented (A : Arrays K nOfRows nOfColumns) (newStarMatrix : Fin nOfRows → Fin nOfColumns → Bool) : Arrays K nOfRows nOfColumns :=
  { A with
    primeMatrix := fun _ _ => false
    starMatrix := newStarMatrix
    coveredRows := fun _ => false
    coveredColumns := fun col => A.coveredColumns col || (firstInColumn newStarMatrix col).isSome }

theorem Alternating.fresh (alternating : Alternating A t newStarMatrix root visited last col) : Fresh (augmented A newStarMatrix) where
  column c := by
    have starred : (firstInColumn newStarMatrix c).isSome = true ↔ ∃ row, Marked newStarMatrix row c := by
      rw [Option.isSome_iff_ne_none, Ne, firstInColumn_none, not_forall]
      exact exists_congr fun row => by rw [Bool.not_eq_false, Marked]
    simp only [augmented, Bool.or_eq_true, starred]
    constructor
    · rintro (covered | new)
      · obtain ⟨row, star⟩ := alternating.column c covered
        exact alternating.flipped.columns alternating.trail alternating.free star
      · exact new
    · exact .inr
  row _ := rfl
  prime _ _ prime := by cases prime

/-- What was starred or primed is a zero, so the new stars are. -/
theorem Alternating.priced [LinearOrder K] {distMatrixIn : Fin nOfRows → Fin nOfColumns → K} {u : Fin nOfRows → K}
    {v : Fin nOfColumns → K} {rise : K} (alternating : Alternating A t newStarMatrix root visited last col)
    (priced : Priced distMatrixIn A u v rise) (none : firstInColumn A.starMatrix col = none) :
    Priced distMatrixIn (augmented A newStarMatrix) u v rise where
  split := priced.split
  nonneg := priced.nonneg
  stars := by
    rw [firstInColumn_none] at none
    exact alternating.flipped.matching alternating.trail fun row => ne_true_of_eq_false (none row)
  tight row c star := by
    have pair := (alternating.flipped.pairs row c).mp star
    split at pair
    · exact alternating.zero row c pair
    · exact priced.tight row c pair
  columns := priced.columns
  freeColumns wide c free := by
    refine priced.freeColumns wide c fun row star => ?_
    obtain ⟨row', star'⟩ := alternating.flipped.columns alternating.trail alternating.free star
    exact free row' star'
  rows := priced.rows
  freeRows more row free := by
    refine priced.freeRows more row fun c star => ?_
    obtain ⟨c', star'⟩ := (alternating.flipped.rows row).mpr (.inl ⟨c, star⟩)
    exact free c' star'
  rising := priced.rising
  worth := priced.worth

end
end

end VideoDetector.Pvd
