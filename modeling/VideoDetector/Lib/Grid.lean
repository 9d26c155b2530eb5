import Mathlib.Algebra.Order.Ring.Defs
import Mathlib.Data.List.TakeWhile
import Mathlib.Order.Interval.Set.OrdConnected
import Mathlib.Tactic.Linarith
import Mathlib.Tactic.Ring

/-!
# Values on a grid

A table is filled row by row with values that are affine along each row and along each column. Of its entries the first
few are read: some full rows and a part of the next one. `grid_hull` says that all of them are in an interval exactly if
the corners of these two parts are.
-/

namespace VideoDetector.Lib
set_option autoImplicit false

theorem mem_takeWhile_range' {test : Nat → Bool} {start n i : Nat} :
    i ∈ (List.range' start n).takeWhile test ↔ start ≤ i ∧ i < start + n ∧ ∀ j, start ≤ j → j ≤ i → test j = true := by
  induction n generalizing start with
  | zero =>
    constructor
    · intro member
      cases member
    · rintro ⟨low, high, _⟩
      omega
  | succ n ih =>
    rw [List.range'_succ, List.takeWhile_cons]
    by_cases first : test start = true
    · rw [if_pos first, List.mem_cons, ih]
      constructor
      · rintro (rfl | ⟨low, high, passed⟩)
        · exact ⟨Nat.le_refl _, by omega, fun j above below => by rwa [Nat.le_antisymm below above]⟩
        · refine ⟨by omega, by omega, fun j above below => ?_⟩
          rcases Nat.eq_or_lt_of_le above with rfl | behind
          · exact first
          · exact passed j behind below
      · rintro ⟨low, high, passed⟩
        rcases Nat.eq_or_lt_of_le low with rfl | behind
        · exact .inl rfl
        · exact .inr ⟨behind, by omega, fun j above below => passed j (by omega) below⟩
    · rw [if_neg first]
      constructor
      · intro member
        cases member
      · rintro ⟨low, _, passed⟩
        exact absurd (passed start (Nat.le_refl _) low) first

/-- What a loop over a range gets to before its test fails. -/
theorem mem_takeWhile_range {test : Nat → Bool} {n i : Nat} :
    i ∈ (List.range n).takeWhile test ↔ i < n ∧ ∀ j, j ≤ i → test j = true := by
  rw [List.range_eq_range', mem_takeWhile_range', Nat.zero_add]
  exact ⟨fun found => ⟨found.2.1, fun j => found.2.2 j (Nat.zero_le j)⟩, fun found => ⟨Nat.zero_le i, found.1, fun j _ => found.2 j⟩⟩

section
variable {K : Type} [Field K] [LinearOrder K] [IsStrictOrderedRing K]

/-- A sequence with a constant difference. -/
def Affine (g : Nat → K) : Prop := ∃ a b : K, ∀ i : Nat, g i = a + b * i

/-- Values that are affine along the rows and along the columns. -/
structure Biaffine (f : Nat → Nat → K) : Prop where
  row : ∀ r, Affine (f r)
  column : ∀ c, Affine fun r => f r c

variable {s : Set K}

/-- An affine sequence stays between its ends. -/
theorem affine_mem (convex : s.OrdConnected) {g : Nat → K} (affine : Affine g) {i n : Nat} (low : i ≤ n) (first : g 0 ∈ s)
    (last : g n ∈ s) : g i ∈ s := by
  obtain ⟨a, b, value⟩ := affine
  have start : g 0 = a := by rw [value, Nat.cast_zero, mul_zero, add_zero]
  have steps : (i : K) ≤ n := Nat.cast_le.mpr low
  have count : (0 : K) ≤ i := Nat.cast_nonneg i
  rcases le_total 0 b with rising | falling
  · have above : g 0 ≤ g i := by
      rw [start, value]
      exact le_add_of_nonneg_right (mul_nonneg rising count)
    have below : g i ≤ g n := by
      rw [value, value]
      exact add_le_add_right (mul_le_mul_of_nonneg_left steps rising) a
    exact convex.out first last ⟨above, below⟩
  · have below : g i ≤ g 0 := by
      rw [start, value]
      exact add_le_of_nonpos_right (mul_nonpos_of_nonpos_of_nonneg falling count)
    have above : g n ≤ g i := by
      rw [value, value]
      exact add_le_add_right (mul_le_mul_of_nonpos_left steps falling) a
    exact convex.out last first ⟨above, below⟩

/-- A rectangle of a grid is in an interval if its corners are. -/
theorem biaffine_mem (convex : s.OrdConnected) {f : Nat → Nat → K} (affine : Biaffine f) {r c m n : Nat} (row : r ≤ m)
    (column : c ≤ n) (first : f 0 0 ∈ s) (right : f 0 n ∈ s) (down : f m 0 ∈ s) (last : f m n ∈ s) : f r c ∈ s := by
  have left : f r 0 ∈ s := affine_mem convex (affine.column 0) row first down
  have other : f r n ∈ s := affine_mem convex (affine.column n) row right last
  exact affine_mem convex (affine.row r) column left other

/-- The corners of the full rows and of the part of a row that the first entries of a table take up. -/
def gridCorners (cols count : Nat) : List (Nat × Nat) :=
  (if count / cols = 0 then []
    else [(0, 0), (0, cols - 1), (count / cols - 1, 0), (count / cols - 1, cols - 1)]) ++
  if count % cols = 0 then [] else [(count / cols, 0), (count / cols, count % cols - 1)]

/-- A corner is the place of an entry that is read. -/
theorem gridCorners_entry {cols count : Nat} (wide : 0 < cols) {p : Nat × Nat} (corner : p ∈ gridCorners cols count) :
    p.2 < cols ∧ p.1 * cols + p.2 < count := by
  have parts : cols * (count / cols) + count % cols = count := Nat.div_add_mod count cols
  have rest : count % cols < cols := Nat.mod_lt _ wide
  rw [gridCorners, List.mem_append] at corner
  rcases corner with full | part
  · split at full
    · cases full
    · rename_i rows
      obtain ⟨q, more⟩ := Nat.exists_eq_succ_of_ne_zero rows
      rw [more, Nat.mul_succ, Nat.mul_comm] at parts
      rw [more] at full
      have high : q * cols + cols ≤ count := by omega
      have zero : 0 ≤ q * cols := Nat.zero_le _
      simp only [List.mem_cons, List.not_mem_nil, or_false] at full
      rcases full with rfl | rfl | rfl | rfl <;> simp only [Nat.succ_sub_one, Nat.zero_mul] <;> omega
  · split at part
    · cases part
    · have size : cols * (count / cols) = count / cols * cols := Nat.mul_comm _ _
      simp only [List.mem_cons, List.not_mem_nil, or_false] at part
      rcases part with rfl | rfl <;> simp only <;> omega

/-- **The entries that are read** are all in an interval exactly if the corners are. -/
theorem grid_hull (count : Nat) (convex : s.OrdConnected) {f : Nat → Nat → K} (affine : Biaffine f) {cols : Nat} (wide : 0 < cols) :
    (∀ r c, c < cols → r * cols + c < count → f r c ∈ s) ↔ ∀ p ∈ gridCorners cols count, f p.1 p.2 ∈ s := by
  constructor
  · intro all p corner
    obtain ⟨column, entry⟩ := gridCorners_entry wide corner
    exact all p.1 p.2 column entry
  · intro corners r c column entry
    have parts : count / cols * cols + count % cols = count := Nat.div_add_mod' count cols
    rw [gridCorners] at corners
    rcases Nat.lt_or_ge r (count / cols) with full | part
    · have rows : count / cols ≠ 0 := by omega
      rw [if_neg rows] at corners
      exact biaffine_mem convex affine (Nat.le_sub_one_of_lt full) (Nat.le_sub_one_of_lt column)
        (corners (0, 0) (by simp)) (corners (0, cols - 1) (by simp)) (corners (count / cols - 1, 0) (by simp))
        (corners (count / cols - 1, cols - 1) (by simp))
    · have bound : count / cols * cols ≤ r * cols := Nat.mul_le_mul_right cols part
      have same : r = count / cols := by
        by_contra other
        have above : (count / cols + 1) * cols ≤ r * cols := Nat.mul_le_mul_right cols (by omega)
        have rest : count % cols < cols := Nat.mod_lt _ wide
        rw [Nat.succ_mul] at above
        omega
      subst same
      have rest : count % cols ≠ 0 := by omega
      rw [if_neg rest] at corners
      exact affine_mem convex (affine.row _) (show c ≤ count % cols - 1 by omega) (corners (count / cols, 0) (by simp))
        (corners (count / cols, count % cols - 1) (by simp))

end

end VideoDetector.Lib
