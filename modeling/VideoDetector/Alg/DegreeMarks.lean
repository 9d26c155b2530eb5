import Mathlib.Order.Fin.Basic
import VideoDetector.Alg.Calibration
import VideoDetector.Lib.Runs

/-!
# The distance marks (the end of `CfgStructParse` in `fvd-new/alg-mutilthread/m_arith.cpp`)

The rows of the image are gone through upwards, and the row that is nearest so far is stored for a multiple of ten as soon as
a row rounds to it. Only then the next multiple is looked for. `degree_marks_iff` says for which tables of distances the marks
are right; the arithmetic is exact.
-/

namespace VideoDetector.Alg
set_option autoImplicit false
open Lib

section
variable {K : Type} [Field K] [LinearOrder K]

/-- `actual_degree_length`, which decreases with the row, and `near_point_length`. -/
structure DegreeTable (K : Type) [Field K] [LinearOrder K] where
  actualDegreeLength : Fin fullRows → K
  nearPointLength : K
  decreasing : StrictAnti actualDegreeLength
  nonneg : 0 ≤ nearPointLength

/-- What the loop works on. -/
structure MarkLoop (K : Type) where
  degreepoint : Fin 20 → UInt16 × UInt16
  k : Nat
  j : Int
  idx : Nat
  minValue : K

/-- The comparison of a row with the nearest one so far. -/
def MarkLoop.nearer (s : MarkLoop K) (length : K) (i : Nat) : MarkLoop K :=
  if |length - s.j| < s.minValue then { s with minValue := |length - s.j|, idx := i } else s

section
variable (s : MarkLoop K) (length : K) (i : Nat)

@[simp] theorem MarkLoop.nearer_degreepoint : (s.nearer length i).degreepoint = s.degreepoint := by
  unfold nearer
  split <;> rfl

@[simp] theorem MarkLoop.nearer_k : (s.nearer length i).k = s.k := by
  unfold nearer
  split <;> rfl

@[simp] theorem MarkLoop.nearer_j : (s.nearer length i).j = s.j := by
  unfold nearer
  split <;> rfl

end

/-- The nearest row is stored, and the next multiple is looked for. -/
def MarkLoop.mark (s : MarkLoop K) : MarkLoop K :=
  { s with degreepoint := fun m => if m.1 = s.k then (UInt16.ofNat s.idx, UInt16.ofInt s.j) else s.degreepoint m,
           minValue := 1000, j := s.j + 10, k := s.k + 1 }

variable [FloorRing K]

/-- `((int)(near_point_length+9)/10+1)*10`. -/
def firstDegree (nearPointLength : K) : Int := ((truncate (nearPointLength + 9)).tdiv 10 + 1) * 10

/-- A pass of the loop, which is left with the twentieth mark. -/
def markStep (actualDegreeLength : Fin fullRows → K) (s : MarkLoop K) (i : Fin fullRows) : MarkLoop K :=
  if s.k = 20 then s
  else if truncate (actualDegreeLength i + 0.5) = s.j then (s.nearer (actualDegreeLength i) i).mark
  else s.nearer (actualDegreeLength i) i

/-- The loop, with any value of `idx` before it. -/
def markLoop (t : DegreeTable K) (idx : Nat) : MarkLoop K :=
  (List.finRange fullRows).reverse.foldl (markStep t.actualDegreeLength)
    ⟨fun _ => (0, 0), 0, firstDegree t.nearPointLength, idx, 1000⟩

/-! ## Right marks -/

namespace DegreeTable
variable (t : DegreeTable K)

/-- The multiples of ten that are looked for. -/
def multiple (m : Nat) : Int := 10 * (⌊(t.nearPointLength + 9) / 10⌋ + 1) + 10 * m

/-- A row whose distance is nearest to a number. -/
def Nearest (j : Int) (i : Fin fullRows) : Prop :=
  ∀ i', |t.actualDegreeLength i - j| ≤ |t.actualDegreeLength i' - j|

/-- A multiple that does not exceed the largest distance. -/
def Reached (j : Int) : Prop := ∃ i, (j : K) ≤ t.actualDegreeLength i

/-- The marks are those of the multiples up to the largest distance, but of 20 at most, each with a nearest row. -/
structure MarksRight (degreepoint : Fin 20 → UInt16 × UInt16) : Prop where
  marks : ∀ m : Fin 20, t.Reached (t.multiple m) →
    ∃ i : Fin fullRows, (degreepoint m).1.toNat = i ∧ ((degreepoint m).2.toNat : Int) = t.multiple m ∧ t.Nearest (t.multiple m) i
  rest : ∀ m : Fin 20, ¬t.Reached (t.multiple m) → degreepoint m = (0, 0)

/-- The first row that is not below a number by more than 1/2 is less than 1/2 above it. -/
structure FirstRow (j : Int) (i : Fin fullRows) : Prop where
  low : (j : K) - 1 / 2 ≤ t.actualDegreeLength i
  high : t.actualDegreeLength i < j + 1 / 2
  first : ∀ i', i < i' → t.actualDegreeLength i' < j - 1 / 2

/-- A multiple that is reached has 16 bits, and it has such a row, which is a nearest one. Another has no such row (or it is
row 0 and the multiple has 16 zero bits: then the mark is zero, too). -/
structure Markable (j : Int) : Prop where
  reached : t.Reached j → j < 65536 ∧ ∃ i, t.FirstRow j i ∧ t.Nearest j i
  unreached : ¬t.Reached j → ∀ i, t.FirstRow j i → i.1 = 0 ∧ j % 65536 = 0

end DegreeTable

variable {t : DegreeTable K} {j : Int} {s : MarkLoop K}

theorem DegreeTable.multiple_succ (t : DegreeTable K) (m : Nat) : t.multiple (m + 1) = t.multiple m + 10 := by
  unfold multiple
  push_cast
  ring

theorem DegreeTable.multiple_le (t : DegreeTable K) {m n : Nat} (le : m ≤ n) : t.multiple m ≤ t.multiple n := by
  unfold multiple
  omega

variable [IsStrictOrderedRing K]

namespace DegreeTable

theorem firstDegree_eq (t : DegreeTable K) : firstDegree t.nearPointLength = t.multiple 0 := by
  have nonneg : 0 ≤ t.nearPointLength + 9 := add_nonneg t.nonneg (by norm_num)
  have whole : 0 ≤ ⌊t.nearPointLength + 9⌋ := Int.floor_nonneg.mpr nonneg
  have tens := Int.floor_div_natCast (t.nearPointLength + 9) 10
  rw [Nat.cast_ofNat] at tens
  rw [firstDegree, truncate, if_pos nonneg, multiple, tens, Int.tdiv_eq_ediv_of_nonneg whole]
  push_cast
  ring

theorem multiple_pos (t : DegreeTable K) (m : Nat) : 0 < t.multiple m := by
  have nonneg : 0 ≤ ⌊(t.nearPointLength + 9) / 10⌋ :=
    Int.floor_nonneg.mpr (div_nonneg (add_nonneg t.nonneg (by norm_num)) (by norm_num))
  unfold multiple
  omega

end DegreeTable

/-- When a number rounds to a positive one. -/
theorem rounds_iff (positive : 0 < j) {v : K} : truncate (v + 1 / 2) = j ↔ (j : K) - 1 / 2 ≤ v ∧ v < j + 1 / 2 := by
  have one : (1 : K) ≤ j := by exact_mod_cast positive
  unfold truncate
  split
  next nonneg =>
    rw [Int.floor_eq_iff]
    constructor <;> rintro ⟨low, high⟩ <;> constructor <;> linarith
  next negative =>
    apply iff_of_false
    · intro same
      have low : ⌈v + 1 / 2⌉ ≤ 0 := Int.ceil_le.mpr (by push_cast; exact (not_le.mp negative).le)
      omega
    · rintro ⟨low, _⟩
      linarith

namespace DegreeTable

omit [FloorRing K] [IsStrictOrderedRing K] in
theorem FirstRow.unique {i i' : Fin fullRows} (row : t.FirstRow j i) (row' : t.FirstRow j i') : i = i' := by
  rcases lt_trichotomy i i' with less | same | more
  · exact absurd row'.low (not_le.mpr (row.first i' less))
  · exact same
  · exact absurd row.low (not_le.mpr (row'.first i more))

/-- What the loop knows after the rows of a list: the marks so far; and either all rows are below the multiple that is looked
for, or one has left it out. -/
structure Marked (t : DegreeTable K) (rows : List (Fin fullRows)) (s : MarkLoop K) : Prop where
  count : s.k ≤ 20
  next : s.j = t.multiple s.k
  marks : ∀ m : Fin 20, m.1 < s.k → ∃ i, t.FirstRow (t.multiple m) i ∧ s.degreepoint m = (UInt16.ofNat i, UInt16.ofInt (t.multiple m))
  rest : ∀ m : Fin 20, s.k ≤ m.1 → s.degreepoint m = (0, 0)
  ahead : s.k = 20 ∨ ((∀ i ∈ rows, t.actualDegreeLength i < s.j - 1 / 2) ∧ 1 / 2 < s.minValue) ∨
    ∃ i ∈ rows, s.j + 1 / 2 ≤ t.actualDegreeLength i ∧ ∀ i', i < i' → t.actualDegreeLength i' < s.j - 1 / 2

variable {rows : List (Fin fullRows)}

/-- A row that does not round to the multiple. -/
theorem Marked.pass (marked : t.Marked rows s) {i : Fin fullRows} (above : ∀ i', i' ∈ rows ↔ i < i')
    (fails : ¬((s.j : K) - 1 / 2 ≤ t.actualDegreeLength i ∧ t.actualDegreeLength i < s.j + 1 / 2)) :
    t.Marked (rows ++ [i]) (s.nearer (t.actualDegreeLength i) i) := by
  refine ⟨by simpa using marked.count, by simpa using marked.next, by simpa using marked.marks, by simpa using marked.rest, ?_⟩
  rw [MarkLoop.nearer_k, MarkLoop.nearer_j]
  apply marked.ahead.imp_right
  rintro (⟨below, far⟩ | ⟨r, member, high, first⟩)
  · by_cases low : t.actualDegreeLength i < s.j - 1 / 2
    · refine .inl ⟨?_, ?_⟩
      · intro i' member
        rcases List.mem_append.mp member with member | same
        · exact below i' member
        · rwa [List.mem_singleton.mp same]
      · have away : 1 / 2 < |t.actualDegreeLength i - s.j| := lt_abs.mpr (.inr (by linarith))
        unfold MarkLoop.nearer
        split <;> assumption
    · have high := not_lt.mp fun high => fails ⟨not_lt.mp low, high⟩
      exact .inr ⟨i, by simp, high, fun i' less => below i' ((above i').mpr less)⟩
  · exact .inr ⟨r, List.mem_append_left _ member, high, first⟩

/-- A row that rounds to it: the first one. -/
theorem Marked.mark (marked : t.Marked rows s) (more : s.k ≠ 20) {i : Fin fullRows} (above : ∀ i', i' ∈ rows ↔ i < i')
    (low : (s.j : K) - 1 / 2 ≤ t.actualDegreeLength i) (high : t.actualDegreeLength i < s.j + 1 / 2) :
    t.Marked (rows ++ [i]) (s.nearer (t.actualDegreeLength i) i).mark := by
  have below : (∀ i ∈ rows, t.actualDegreeLength i < s.j - 1 / 2) ∧ 1 / 2 < s.minValue := by
    rcases marked.ahead with last | below | ⟨r, member, high', _⟩
    · exact absurd last more
    · exact below
    · have less := t.decreasing ((above r).mp member)
      linarith
  have first : t.FirstRow s.j i := ⟨low, high, fun i' less => below.1 i' ((above i').mpr less)⟩
  have close : |t.actualDegreeLength i - s.j| ≤ 1 / 2 := abs_le.mpr ⟨by linarith, by linarith⟩
  have taken : s.nearer (t.actualDegreeLength i) i = { s with minValue := |t.actualDegreeLength i - s.j|, idx := i } :=
    if_pos (close.trans_lt below.2)
  have count := marked.count
  rw [taken]
  refine ⟨?_, ?_, ?_, ?_, .inr (.inl ⟨?_, ?_⟩)⟩ <;> simp only [MarkLoop.mark]
  · omega
  · rw [multiple_succ, marked.next]
  · intro m less
    split
    next here => exact ⟨i, by rw [here, ← marked.next]; exact first, by rw [here, marked.next]⟩
    next other => exact marked.marks m (by omega)
  · intro m more
    rw [if_neg (by omega)]
    exact marked.rest m (by omega)
  · intro i' member
    have least : t.actualDegreeLength i' ≤ t.actualDegreeLength i := by
      rcases List.mem_append.mp member with member | same
      · exact (t.decreasing ((above i').mp member)).le
      · rw [List.mem_singleton.mp same]
    push_cast
    linarith
  · norm_num

/-- What a pass keeps. -/
theorem Marked.step (marked : t.Marked rows s) {i : Fin fullRows} (above : ∀ i', i' ∈ rows ↔ i < i') :
    t.Marked (rows ++ [i]) (markStep t.actualDegreeLength s i) := by
  have half : (0.5 : K) = 1 / 2 := by norm_num
  have rounds := rounds_iff (v := t.actualDegreeLength i) (marked.next ▸ t.multiple_pos s.k : 0 < s.j)
  rw [markStep, half]
  split
  next last => exact { marked with ahead := .inl last }
  next more =>
    split
    next rounded => exact marked.mark more above (rounds.mp rounded).1 (rounds.mp rounded).2
    next other => exact marked.pass above fun window => other (rounds.mpr window)

/-- The rows before a row are those below it in the image. -/
theorem rows_above {n : Nat} {before after : List (Fin n)} {i : Fin n} (split : (List.finRange n).reverse = before ++ i :: after)
    (i' : Fin n) : i' ∈ before ↔ i < i' := by
  have sorted : (before ++ i :: after).Pairwise (· > ·) := by
    rw [← split, List.pairwise_reverse]
    exact List.pairwise_lt_finRange n
  obtain ⟨_, later, across⟩ := List.pairwise_append.mp sorted
  constructor
  · exact fun member => across i' member i List.mem_cons_self
  · intro less
    have member : i' ∈ before ++ i :: after := by
      rw [← split]
      simp
    rcases List.mem_append.mp member with member | member
    · exact member
    · rcases List.mem_cons.mp member with rfl | member
      · exact absurd less (lt_irrefl i')
      · exact absurd ((List.pairwise_cons.mp later).1 i' member) (lt_asymm less)

/-- **The loop**. -/
theorem markLoop_marked (t : DegreeTable K) (idx : Nat) : t.Marked (List.finRange fullRows).reverse (markLoop t idx) := by
  apply foldl_invariant t.Marked (fun before _ i => ∀ i', i' ∈ before ↔ i < i') (fun before s i marked above => marked.step above)
    ?_ (fun before i after split i' => rows_above split i') (List.append_nil _).symm
  refine ⟨Nat.zero_le 20, t.firstDegree_eq, fun m none => absurd none (Nat.not_lt_zero _), fun m _ => rfl, .inr (.inl ⟨?_, ?_⟩)⟩
  · exact fun i none => absurd none List.not_mem_nil
  · norm_num

/-- If there are marks left, no row is marked for the next multiple. -/
theorem Marked.last (marked : t.Marked (List.finRange fullRows).reverse s) (more : s.k < 20) (i : Fin fullRows) :
    ¬t.FirstRow (t.multiple s.k) i := by
  intro row
  rw [← marked.next] at row
  rcases marked.ahead with last | ⟨below, _⟩ | ⟨r, _, high, first⟩
  · omega
  · exact absurd row.low (not_le.mpr (below i (by simp)))
  · have same : r = i := by
      rcases lt_trichotomy r i with less | same | above
      · exact absurd row.low (not_le.mpr (first i less))
      · exact same
      · have low := row.first r above
        linarith
    rw [same] at high
    exact absurd row.high (not_lt.mpr high)

/-- A multiple that a row is marked for leaves the earlier ones reached. -/
theorem FirstRow.reached {m n : Nat} {i : Fin fullRows} (row : t.FirstRow (t.multiple n) i) (less : m < n) :
    t.Reached (t.multiple m) := by
  have le : ((t.multiple (m + 1) : Int) : K) ≤ t.multiple n := by exact_mod_cast t.multiple_le less
  rw [multiple_succ] at le
  push_cast at le
  exact ⟨i, by linarith [row.low]⟩

theorem uint16_ofInt (j : Int) : ((UInt16.ofInt j).toNat : Int) = j % 65536 := by
  rw [UInt16.ofInt, UInt16.toNat_ofNat']
  omega

theorem row_toNat (i : Fin fullRows) : (UInt16.ofNat i).toNat = i := by
  have := i.2
  rw [UInt16.toNat_ofNat']
  unfold fullRows at this
  omega

/-- What the mark of a row is if it is right, and when it is zero. -/
theorem mark_eq_zero_iff (i : Fin fullRows) (j : Int) :
    ((UInt16.ofNat i, UInt16.ofInt j) : UInt16 × UInt16) = (0, 0) ↔ i.1 = 0 ∧ j % 65536 = 0 := by
  rw [Prod.mk.injEq, ← UInt16.toNat_inj, ← UInt16.toNat_inj, row_toNat, ← uint16_ofInt]
  simp

/-- A mark that is right is not zero, so it was made. -/
theorem Marked.made (marked : t.Marked rows s) (right : t.MarksRight s.degreepoint) {m : Fin 20} (there : t.Reached (t.multiple m)) :
    m.1 < s.k := by
  obtain ⟨i, _, same, _⟩ := right.marks m there
  by_contra later
  rw [marked.rest m (not_lt.mp later)] at same
  have positive := t.multiple_pos m
  rw [← same] at positive
  exact absurd positive (by decide)

theorem Marked.markable (marked : t.Marked (List.finRange fullRows).reverse s) (right : t.MarksRight s.degreepoint) (m : Fin 20) :
    t.Markable (t.multiple m) := by
  constructor
  · intro there
    obtain ⟨i, row, same, nearest⟩ := right.marks m there
    obtain ⟨i', first, mark⟩ := marked.marks m (marked.made right there)
    rw [mark, row_toNat] at row
    rw [mark, uint16_ofInt] at same
    cases Fin.ext row
    exact ⟨by omega, i, first, nearest⟩
  · intro beyond i first
    have before : m.1 < s.k := by
      by_contra later
      rcases Nat.eq_or_lt_of_le (not_lt.mp later) with same | less
      · exact marked.last (by omega) i (same ▸ first)
      · have next : t.Reached (t.multiple (⟨s.k, by omega⟩ : Fin 20)) := first.reached less
        exact absurd (marked.made right next) (lt_irrefl _)
    obtain ⟨i', first', mark⟩ := marked.marks m before
    cases first.unique first'
    rw [right.rest m beyond] at mark
    exact (mark_eq_zero_iff i _).mp mark.symm

/-- A multiple that is reached is marked if all can be. -/
theorem Marked.before (marked : t.Marked (List.finRange fullRows).reverse s) (markable : ∀ m : Fin 20, t.Markable (t.multiple m))
    {m : Fin 20} (there : t.Reached (t.multiple m)) : m.1 < s.k := by
  by_contra later
  have le : ((t.multiple s.k : Int) : K) ≤ t.multiple m := by exact_mod_cast t.multiple_le (not_lt.mp later)
  obtain ⟨top, high⟩ := there
  obtain ⟨_, i, first, _⟩ := (markable ⟨s.k, by omega⟩).reached ⟨top, le.trans high⟩
  exact marked.last (by omega) i first

theorem Marked.right (marked : t.Marked (List.finRange fullRows).reverse s) (markable : ∀ m : Fin 20, t.Markable (t.multiple m)) :
    t.MarksRight s.degreepoint := by
  constructor
  · intro m there
    obtain ⟨short, i, first, nearest⟩ := (markable m).reached there
    obtain ⟨i', first', mark⟩ := marked.marks m (marked.before markable there)
    cases first.unique first'
    have positive := t.multiple_pos m
    refine ⟨i, ?_, ?_, nearest⟩ <;> rw [mark]
    · exact row_toNat i
    · rw [uint16_ofInt]
      omega
  · intro m beyond
    by_cases before : m.1 < s.k
    · obtain ⟨i, first, mark⟩ := marked.marks m before
      rw [mark, mark_eq_zero_iff]
      exact (markable m).unreached beyond i first
    · exact marked.rest m (not_lt.mp before)

/-- **The distance marks** are right exactly if each of the first 20 multiples can be marked. -/
theorem degree_marks_iff (t : DegreeTable K) (idx : Nat) :
    t.MarksRight (markLoop t idx).degreepoint ↔ ∀ m : Fin 20, t.Markable (t.multiple m) :=
  ⟨(markLoop_marked t idx).markable, (markLoop_marked t idx).right⟩

end DegreeTable

end

/-- Rows that are 1 apart in distance. -/
def evenTable : DegreeTable ℚ where
  actualDegreeLength i := 479 - i.1
  nearPointLength := 0
  decreasing := by
    intro i i' less
    have : (i.1 : ℚ) < i'.1 := by exact_mod_cast Fin.lt_def.mp less
    linarith
  nonneg := le_rfl

theorem evenTable_multiple (m : Fin 20) : evenTable.multiple m = 10 * m + 10 := by
  have first : ⌊(evenTable.nearPointLength + 9) / 10⌋ = 0 := by norm_num [evenTable]
  rw [DegreeTable.multiple, first]
  omega

/-- The row of each multiple is marked. -/
theorem evenTable_marked : evenTable.MarksRight (markLoop evenTable 0).degreepoint := by
  apply (evenTable.degree_marks_iff 0).mpr
  intro m
  have inside : 469 - 10 * m.1 < fullRows := by
    unfold fullRows
    omega
  have distance : evenTable.actualDegreeLength ⟨469 - 10 * m.1, inside⟩ = (evenTable.multiple m : Int) := by
    rw [evenTable_multiple]
    push_cast [evenTable, show 10 * m.1 ≤ 469 by omega]
    ring
  constructor
  · intro _
    refine ⟨by rw [evenTable_multiple]; omega, ⟨469 - 10 * m.1, inside⟩, ⟨?_, ?_, ?_⟩, ?_⟩
    · rw [distance]
      linarith
    · rw [distance]
      linarith
    · intro i' less
      have next : ((469 - 10 * m.1 : Nat) : ℚ) + 1 ≤ i'.1 := by exact_mod_cast Fin.lt_def.mp less
      have here : (479 : ℚ) - (469 - 10 * m.1 : Nat) = (evenTable.multiple m : Int) := distance
      rw [← here]
      show (479 : ℚ) - i'.1 < _
      linarith
    · intro i'
      rw [distance, sub_self, abs_zero]
      exact abs_nonneg _
  · intro beyond
    exact absurd ⟨⟨469 - 10 * m.1, inside⟩, distance.ge⟩ beyond

/-- Rows that are 4 apart in distance. -/
def sparseTable : DegreeTable ℚ where
  actualDegreeLength i := 4 * (479 - i.1)
  nearPointLength := 0
  decreasing := by
    intro i i' less
    have : (i.1 : ℚ) < i'.1 := by exact_mod_cast Fin.lt_def.mp less
    linarith
  nonneg := le_rfl

/-- No row rounds to 10, so there is no mark for 10, nor for any other multiple. -/
theorem sparseTable_unmarked : ¬sparseTable.MarksRight (markLoop sparseTable 0).degreepoint := by
  intro right
  have marked := sparseTable.markLoop_marked 0
  have first : sparseTable.multiple (0 : Fin 20) = 10 := by norm_num [DegreeTable.multiple, sparseTable]
  obtain ⟨i, _, same, _⟩ := right.marks 0 ⟨⟨0, by decide⟩, by rw [first]; norm_num [sparseTable]⟩
  by_cases some : 0 < (markLoop sparseTable 0).k
  · obtain ⟨i', row, _⟩ := marked.marks 0 some
    obtain ⟨low, high, _⟩ := row
    rw [first] at low high
    have below : ((9 : Int) : ℚ) < (4 * (479 - (i'.1 : Int)) : Int) := by
      push_cast [sparseTable] at low ⊢
      linarith
    have above : ((4 * (479 - (i'.1 : Int)) : Int) : ℚ) < (11 : Int) := by
      push_cast [sparseTable] at high ⊢
      linarith
    have low' := Int.cast_lt.mp below
    have high' := Int.cast_lt.mp above
    omega
  · rw [marked.rest 0 (not_lt.mp some), first] at same
    exact absurd same (by decide)

end VideoDetector.Alg
