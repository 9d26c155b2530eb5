import Mathlib.Algebra.Order.Field.Basic
import Mathlib.Algebra.Order.Floor.Ring
import Mathlib.Tactic.Linarith
import Mathlib.Tactic.LinearCombination
import Mathlib.Tactic.FieldSimp
import Mathlib.Tactic.Ring

/-!
# Rounded points on lines

`truncate` is the conversion of a number to an integer, and `divide` a division that may fail. `between` bounds what is
interpolated between two numbers, `near_line_iff` says when a point has a point of a line near to it, in both directions by
less than one, `crossing_iff` is where two lines cross, and `perspective_sub` the step of a scale seen in perspective.
-/

namespace VideoDetector.Lib
set_option autoImplicit false

section
variable {K : Type} [Field K]

/-- A division by zero is a fault. -/
def divide [DecidableEq K] {ε : Type} (fault : ε) (a b : K) : Except ε K := if b = 0 then .error fault else .ok (a / b)

section
variable [DecidableEq K] {ε ω : Type} {fault : ε} {a b : K}

theorem divide_ok (nonzero : b ≠ 0) : divide fault a b = .ok (a / b) := if_neg nonzero

theorem divide_eq {c : K} (done : divide fault a b = .ok c) : c = a / b := by
  unfold divide at done
  split at done
  · cases done
  · exact (Except.ok.inj done).symm

/-- A computation that starts with a division succeeds exactly if this is defined and the rest succeeds. -/
theorem divide_bind_iff {f : K → Except ε ω} : (∃ o, divide fault a b >>= f = .ok o) ↔ b ≠ 0 ∧ ∃ o, f (a / b) = .ok o := by
  by_cases zero : b = 0
  · have failed : divide fault a b = .error fault := if_pos zero
    rw [failed]
    refine iff_of_false ?_ fun both => both.1 zero
    rintro ⟨o, done⟩
    cases done
  · rw [divide_ok zero]
    exact (and_iff_right zero).symm

end

/-- Two lines that are not parallel cross in one point. -/
theorem crossing_iff {k b k' b' x y : K} (apart : k' ≠ k) :
    (y = k * x + b ∧ y = k' * x + b') ↔ x = (b - b') / (k' - k) ∧ y = k * x + b := by
  have nonzero : k' - k ≠ 0 := sub_ne_zero.mpr apart
  rw [eq_div_iff nonzero, and_comm]
  refine and_congr_left fun first => ?_
  rw [first]
  constructor
  · intro second
    linear_combination -second
  · intro column
    linear_combination -column

/-- On a scale that is seen in perspective, with the horizon in row `y` and its zero in row `n`, this is between two rows. -/
theorem perspective_sub {n y i j : K} (first : i - y ≠ 0) (second : j - y ≠ 0) :
    (n - i) / (i - y) - (n - j) / (j - y) = (n - y) * (j - i) / ((i - y) * (j - y)) := by
  rw [div_sub_div _ _ first second]
  congr 1
  ring

end

section
variable {K : Type} [Field K] [LinearOrder K] [IsStrictOrderedRing K]

/-- The integer part, towards zero. -/
def truncate [FloorRing K] (v : K) : Int := if 0 ≤ v then ⌊v⌋ else ⌈v⌉

omit [IsStrictOrderedRing K] in
theorem truncate_of_nonneg [FloorRing K] {v : K} (nonneg : 0 ≤ v) : truncate v = ⌊v⌋ := if_pos nonneg

/-- The integer part of a number is below a bound exactly if the number is, and it is not negative from -1 on. -/
theorem truncate_iff [FloorRing K] {v : K} {n : Nat} (some : 0 < n) : (0 ≤ truncate v ∧ truncate v < n) ↔ -1 < v ∧ v < n := by
  unfold truncate
  split
  case isTrue nonneg =>
    have low : -1 < v := lt_of_lt_of_le (by norm_num) nonneg
    rw [Int.floor_nonneg, Int.floor_lt, Int.cast_natCast]
    exact and_congr_left fun _ => iff_of_true nonneg low
  case isFalse negative =>
    have below : v < 0 := not_le.mp negative
    have top : ⌈v⌉ ≤ 0 := Int.ceil_le.mpr (by simpa using below.le)
    have high : v < n := below.trans_le n.cast_nonneg
    have first : 0 ≤ ⌈v⌉ ↔ -1 < v := by
      rw [← Int.sub_one_lt_iff, Int.lt_ceil]
      norm_num
    rw [first]
    exact and_congr_right fun _ => iff_of_true (by omega) high

/-- What is interpolated between two numbers lies between them. -/
theorem between {a b t low high : K} (lowA : low ≤ a) (lowB : low ≤ b) (highA : a ≤ high) (highB : b ≤ high) (first : 0 ≤ t)
    (last : t ≤ 1) : low ≤ a + (b - a) * t ∧ a + (b - a) * t ≤ high := by
  have weighted : a + (b - a) * t = a * (1 - t) + b * t := by ring
  have rest : 0 ≤ 1 - t := sub_nonneg.mpr last
  rw [weighted]
  constructor
  · calc low = low * (1 - t) + low * t := by ring
      _ ≤ a * (1 - t) + b * t := add_le_add (mul_le_mul_of_nonneg_right lowA rest) (mul_le_mul_of_nonneg_right lowB first)
  · calc a * (1 - t) + b * t ≤ high * (1 - t) + high * t :=
          add_le_add (mul_le_mul_of_nonneg_right highA rest) (mul_le_mul_of_nonneg_right highB first)
      _ = high := by ring

/-- A point has a point of the line `x = c + s * y` near to it exactly if its column is off the line by less than one and
what the line moves in one row. -/
theorem near_line_iff {c s x y : K} : (∃ Y, |Y - y| < 1 ∧ |c + s * Y - x| < 1) ↔ |c + s * y - x| < 1 + |s| := by
  constructor
  · rintro ⟨Y, row, column⟩
    have parts : c + s * y - x = c + s * Y - x + s * (y - Y) := by ring
    have moved : |s * (y - Y)| ≤ |s| := by
      rw [abs_mul, abs_sub_comm y Y]
      exact mul_le_of_le_one_right (abs_nonneg s) (le_of_lt row)
    calc |c + s * y - x| ≤ |c + s * Y - x| + |s * (y - Y)| := by
          rw [parts]
          exact abs_add_le _ _
      _ < 1 + |s| := add_lt_add_of_lt_of_le column moved
  · intro close
    obtain ⟨d, small, moved⟩ : ∃ d, |d| < 1 ∧ |c + s * y - x + s * d| < 1 := by
      by_cases upright : s = 0
      · subst upright
        rw [abs_zero, add_zero] at close
        exact ⟨0, by simp, by simpa using close⟩
      · -- a part of one row, against the side on which the point lies
        have wide : 0 < 1 + |s| := by positivity
        have part : |(c + s * y - x) / (1 + |s|)| < 1 := by
          rw [abs_div, abs_of_pos wide, div_lt_one wide]
          exact close
        refine ⟨-((c + s * y - x) / (1 + |s|)) * (s / |s|), ?_, ?_⟩
        · have unit : abs (s / |s|) = 1 := by rw [abs_div, abs_abs, div_self (abs_ne_zero.mpr upright)]
          rw [abs_mul, abs_neg, unit, mul_one]
          exact part
        · have back : s * (s / |s|) = |s| := by
            rw [← mul_div_assoc, ← abs_mul_abs_self s, mul_div_assoc, div_self (abs_ne_zero.mpr upright), mul_one]
          have rest : c + s * y - x + s * (-((c + s * y - x) / (1 + |s|)) * (s / |s|)) = (c + s * y - x) / (1 + |s|) := by
            calc c + s * y - x + s * (-((c + s * y - x) / (1 + |s|)) * (s / |s|))
                = c + s * y - x - (c + s * y - x) / (1 + |s|) * (s * (s / |s|)) := by ring
              _ = (c + s * y - x) / (1 + |s|) := by
                  rw [back]
                  field_simp
                  ring
          rw [rest]
          exact part
    refine ⟨y + d, by simpa using small, ?_⟩
    have parts : c + s * (y + d) - x = c + s * y - x + s * d := by ring
    rwa [parts]

end

end VideoDetector.Lib
