import Mathlib.Algebra.BigOperators.Pi
import Mathlib.Algebra.Order.BigOperators.Group.Finset
import Mathlib.Combinatorics.Enumerative.DoubleCounting
import Mathlib.Data.Fintype.Card
import Mathlib.Data.Fintype.Fin
import Mathlib.Tactic.Abel

/-!
# Assignments of least cost

An assignment gives each row a column or none, and no column to two rows. Prices of the rows and columns that never
exceed a cost bound the total of every assignment from below (`prices_le_total`), and an assignment that only uses pairs
priced exactly and leaves out only the dearest rows and columns reaches the bound (`prices_eq_total`). A trail of
starred and primed pairs, in turn, makes from the starred ones an assignment with one more row (`Flipped`).
-/

namespace VideoDetector.Lib
set_option autoImplicit false

/-! ## Prices -/

section
variable {R C : Type}

/-- No column is given to two rows. -/
def IsAssignment (a : R → Option C) : Prop := ∀ r r' c, a r = some c → a r' = some c → r = r'

variable [Fintype R]

def assignedRows (a : R → Option C) : Finset R := Finset.univ.filter fun r => a r ≠ none

/-- How many pairs an assignment has. -/
def size (a : R → Option C) : Nat := (assignedRows a).card

theorem mem_assignedRows {a : R → Option C} {r : R} : r ∈ assignedRows a ↔ a r ≠ none := by
  simp [assignedRows]

theorem size_le_rows (a : R → Option C) : size a ≤ Fintype.card R := Finset.card_le_univ _

/-- With as many pairs as rows no row is left out. -/
theorem row_assigned {a : R → Option C} (full : size a = Fintype.card R) (r : R) : a r ≠ none := by
  have all := Finset.eq_univ_of_card _ full
  exact mem_assignedRows.mp (by rw [all]; exact Finset.mem_univ r)

section
variable {K : Type} [AddCommGroup K]

def total (cost : R → C → K) (a : R → Option C) : K := ∑ r, (a r).elim 0 (cost r)

theorem total_nonneg [LinearOrder K] [IsOrderedAddMonoid K] {d : R → C → K} (nonneg : ∀ r c, 0 ≤ d r c)
    (a : R → Option C) : 0 ≤ total d a := by
  refine Finset.sum_nonneg fun r _ => ?_
  cases a r with
  | none => exact le_rfl
  | some c => exact nonneg r c

theorem total_zero {d : R → C → K} {a : R → Option C} (tight : ∀ r c, a r = some c → d r c = 0) : total d a = 0 := by
  refine Finset.sum_eq_zero fun r _ => ?_
  cases given : a r with
  | none => rfl
  | some c => exact tight r c given

end

/-- Rows and columns that are used, and no pair by both, are no more than the pairs. -/
theorem card_cover_le [DecidableEq R] {a : R → Option C} {rows : Finset R} {columns : Finset C} (used : ∀ r ∈ rows, a r ≠ none)
    (once : ∀ c ∈ columns, ∃ r, a r = some c ∧ r ∉ rows) : columns.card + rows.card ≤ size a := by
  have inside : rows ⊆ assignedRows a := fun r member => mem_assignedRows.mpr (used r member)
  have fewer : columns.card ≤ (assignedRows a \ rows).card := by
    apply Finset.card_le_card_of_forall_subsingleton fun c r => a r = some c
    · intro c member
      obtain ⟨r, given, out⟩ := once c member
      have assigned : a r ≠ none := by simp [given]
      exact ⟨r, Finset.mem_sdiff.mpr ⟨mem_assignedRows.mpr assigned, out⟩, given⟩
    · intro r _ c given c' given'
      exact Option.some.inj (given.2.symm.trans given'.2)
  have within := Finset.card_le_card inside
  rw [Finset.card_sdiff_of_subset inside] at fewer
  unfold size
  omega

variable [Fintype C] [DecidableEq C]

def assignedColumns (a : R → Option C) : Finset C := Finset.univ.filter fun c => ∃ r, a r = some c

theorem mem_assignedColumns {a : R → Option C} {c : C} : c ∈ assignedColumns a ↔ ∃ r, a r = some c := by
  simp [assignedColumns]

variable {K : Type} [AddCommGroup K]

theorem sum_elim_eq_columns {a : R → Option C} (assignment : IsAssignment a) (v : C → K) :
    ∑ r, (a r).elim 0 v = ∑ c ∈ assignedColumns a, v c := by
  classical
  have each : ∀ r, (a r).elim 0 v = ∑ c, if a r = some c then v c else 0 := by
    intro r
    cases given : a r with
    | none => simp
    | some c => simp
  rw [Finset.sum_congr rfl fun r _ => each r, Finset.sum_comm, assignedColumns, Finset.sum_filter]
  refine Finset.sum_congr rfl fun c _ => ?_
  by_cases used : ∃ r, a r = some c
  · obtain ⟨r, given⟩ := used
    rw [if_pos ⟨r, given⟩, Finset.sum_eq_single r]
    · rw [if_pos given]
    · intro r' _ other
      exact if_neg fun given' => other (assignment r' r c given' given)
    · intro absent
      exact absurd (Finset.mem_univ r) absent
  · rw [if_neg used]
    exact Finset.sum_eq_zero fun r _ => if_neg fun given => used ⟨r, given⟩

/-- As many columns are assigned as rows. -/
theorem card_assignedColumns {a : R → Option C} (assignment : IsAssignment a) : (assignedColumns a).card = size a := by
  have counted := sum_elim_eq_columns assignment (fun _ => (1 : ℤ))
  have rows : ∀ r, (a r).elim (0 : ℤ) (fun _ => 1) = if a r ≠ none then 1 else 0 := by
    intro r
    cases given : a r <;> simp
  rw [Finset.sum_congr rfl fun r _ => rows r, ← Finset.sum_filter, Finset.sum_const, Finset.sum_const, nsmul_one,
    nsmul_one] at counted
  exact_mod_cast counted.symm

theorem size_le_columns {a : R → Option C} (assignment : IsAssignment a) : size a ≤ Fintype.card C := by
  rw [← card_assignedColumns assignment]
  exact Finset.card_le_univ _

/-- With as many pairs as columns no column is left out. -/
theorem column_assigned {a : R → Option C} (assignment : IsAssignment a) (full : size a = Fintype.card C) (c : C) :
    ∃ r, a r = some c := by
  have all := Finset.eq_univ_of_card _ ((card_assignedColumns assignment).trans full)
  exact mem_assignedColumns.mp (by rw [all]; exact Finset.mem_univ c)

/-- The total of an assignment, taken apart into prices and what is paid above them. -/
theorem total_eq_prices {cost d : R → C → K} {u : R → K} {v : C → K} {a : R → Option C} (assignment : IsAssignment a)
    (split : ∀ r c, cost r c = u r + v c + d r c) :
    total cost a = ∑ r ∈ assignedRows a, u r + ∑ c ∈ assignedColumns a, v c + total d a := by
  rw [← sum_elim_eq_columns assignment, assignedRows, Finset.sum_filter, total, total, ← Finset.sum_add_distrib,
    ← Finset.sum_add_distrib]
  refine Finset.sum_congr rfl fun r _ => ?_
  cases given : a r with
  | none => simp
  | some c => simpa using split r c

end

section
variable {ι K : Type} [Fintype ι] [DecidableEq ι] [AddCommGroup K] {f : ι → K} {top : K}

/-- What is left out costs at most the greatest price each. -/
theorem sum_le_sum_add_top [LinearOrder K] [IsOrderedAddMonoid K] (s : Finset ι) (high : ∀ i, i ∉ s → f i ≤ top) :
    ∑ i, f i ≤ ∑ i ∈ s, f i + (Fintype.card ι - s.card) • top := by
  rw [← Finset.sum_add_sum_compl s, ← Finset.card_compl]
  exact add_le_add le_rfl (Finset.sum_le_card_nsmul _ _ _ fun i out => high i (Finset.mem_compl.mp out))

theorem sum_eq_sum_add_top (s : Finset ι) (same : ∀ i, i ∉ s → f i = top) :
    ∑ i, f i = ∑ i ∈ s, f i + (Fintype.card ι - s.card) • top := by
  rw [← Finset.sum_add_sum_compl s, ← Finset.card_compl]
  exact congrArg _ (Finset.sum_eq_card_nsmul fun i out => same i (Finset.mem_compl.mp out))

end

section
variable {R C K : Type} [Fintype R] [Fintype C] [DecidableEq R] [DecidableEq C] [AddCommGroup K] {cost d : R → C → K} {u : R → K} {v : C → K} {rowTop columnTop : K} {a : R → Option C}

/-- What an assignment costs where pairs are priced exactly and only the dearest rows and columns are left out. -/
theorem prices_eq_total (assignment : IsAssignment a) (split : ∀ r c, cost r c = u r + v c + d r c)
    (tight : ∀ r c, a r = some c → d r c = 0) (rows : ∀ r, a r = none → u r = rowTop)
    (columns : ∀ c, (∀ r, a r ≠ some c) → v c = columnTop) :
    ∑ r, u r + ∑ c, v c =
      total cost a + ((Fintype.card R - size a) • rowTop + (Fintype.card C - size a) • columnTop) := by
  have rowsLeft := sum_eq_sum_add_top (assignedRows a) fun r out => rows r (not_ne_iff.mp fun given => out (mem_assignedRows.mpr given))
  have columnsLeft := sum_eq_sum_add_top (assignedColumns a) fun c out =>
    columns c fun r given => out (mem_assignedColumns.mpr ⟨r, given⟩)
  rw [card_assignedColumns assignment] at columnsLeft
  rw [total_eq_prices assignment split, rowsLeft, columnsLeft, total_zero tight, size]
  abel

section
variable [LinearOrder K] [IsOrderedAddMonoid K]

/-- **The bound**: prices that never exceed a cost, with the greatest ones for what is left out. -/
theorem prices_le_total (assignment : IsAssignment a) (split : ∀ r c, cost r c = u r + v c + d r c)
    (nonneg : ∀ r c, 0 ≤ d r c) (rows : ∀ r, a r = none → u r ≤ rowTop)
    (columns : ∀ c, (∀ r, a r ≠ some c) → v c ≤ columnTop) :
    ∑ r, u r + ∑ c, v c ≤
      total cost a + ((Fintype.card R - size a) • rowTop + (Fintype.card C - size a) • columnTop) := by
  have rowsLeft := sum_le_sum_add_top (assignedRows a) fun r out => rows r (not_ne_iff.mp fun given => out (mem_assignedRows.mpr given))
  have columnsLeft := sum_le_sum_add_top (assignedColumns a) fun c out =>
    columns c fun r given => out (mem_assignedColumns.mpr ⟨r, given⟩)
  rw [card_assignedColumns assignment] at columnsLeft
  rw [total_eq_prices assignment split]
  calc ∑ r, u r + ∑ c, v c
      ≤ (∑ r ∈ assignedRows a, u r + (Fintype.card R - size a) • rowTop) +
          (∑ c ∈ assignedColumns a, v c + (Fintype.card C - size a) • columnTop) := add_le_add rowsLeft columnsLeft
    _ = ∑ r ∈ assignedRows a, u r + ∑ c ∈ assignedColumns a, v c + 0 +
          ((Fintype.card R - size a) • rowTop + (Fintype.card C - size a) • columnTop) := by abel
    _ ≤ _ := by
      refine add_le_add (add_le_add le_rfl ?_) le_rfl
      exact total_nonneg nonneg a

variable (rowTop columnTop) in
/-- **Optimality**: no assignment of as many pairs costs less. -/
theorem total_le_of_prices {b : R → Option C} (assignment : IsAssignment a) (other : IsAssignment b) (same : size b = size a)
    (split : ∀ r c, cost r c = u r + v c + d r c) (nonneg : ∀ r c, 0 ≤ d r c) (tight : ∀ r c, a r = some c → d r c = 0)
    (rowsHigh : ∀ r, b r = none → u r ≤ rowTop) (rows : ∀ r, a r = none → u r = rowTop)
    (columnsHigh : ∀ c, (∀ r, b r ≠ some c) → v c ≤ columnTop) (columns : ∀ c, (∀ r, a r ≠ some c) → v c = columnTop) :
    total cost a ≤ total cost b := by
  have bound := prices_le_total other split nonneg rowsHigh columnsHigh
  rw [prices_eq_total assignment split tight rows columns, same] at bound
  exact le_of_add_le_add_right bound

end
end

/-! ## One more pair -/

section
variable {R C : Type} [DecidableEq R] {a : R → Option C} {row : R} {col : C}

theorem IsAssignment.add (assignment : IsAssignment a) (free : ∀ r, a r ≠ some col) :
    IsAssignment (Function.update a row (some col)) := by
  intro r r' c given given'
  by_cases same : r = row <;> by_cases same' : r' = row
  · rw [same, same']
  · rw [same, Function.update_self] at given
    rw [Function.update_of_ne same'] at given'
    cases given
    exact absurd given' (free r')
  · rw [same', Function.update_self] at given'
    rw [Function.update_of_ne same] at given
    cases given'
    exact absurd given (free r)
  · rw [Function.update_of_ne same] at given
    rw [Function.update_of_ne same'] at given'
    exact assignment r r' c given given'

variable [Fintype R]

theorem size_add (none : a row = none) : size (Function.update a row (some col)) = size a + 1 := by
  have inserted : assignedRows (Function.update a row (some col)) = insert row (assignedRows a) := by
    ext r
    rw [Finset.mem_insert, mem_assignedRows, mem_assignedRows]
    by_cases same : r = row
    · simp [same]
    · simp [same]
  have out : row ∉ assignedRows a := by rw [mem_assignedRows, not_not, none]
  rw [size, inserted, Finset.card_insert_of_notMem out, size]

theorem total_add {K : Type} [AddCommGroup K] (d : R → C → K) (none : a row = none) :
    total d (Function.update a row (some col)) = total d a + d row col := by
  have others : ∀ r ∈ Finset.univ.erase row, (Function.update a row (some col) r).elim 0 (d r) = (a r).elim 0 (d r) :=
    fun r member => by rw [Function.update_of_ne (Finset.ne_of_mem_erase member)]
  rw [total, total, ← Finset.add_sum_erase _ _ (Finset.mem_univ row),
    ← Finset.add_sum_erase _ (fun r => (a r).elim 0 (d r)) (Finset.mem_univ row), Finset.sum_congr rfl others, none,
    Function.update_self]
  simp [add_comm]

end

/-! ## Full assignments -/

section
variable {n m : Nat}

/-- The assignment along the diagonal. -/
def diagonal (n m : Nat) : Fin n → Option (Fin m) := fun r => if inside : r.1 < m then some ⟨r.1, inside⟩ else none

theorem diagonal_isAssignment : IsAssignment (diagonal n m) := by
  intro r r' c given given'
  unfold diagonal at given given'
  split at given
  · split at given'
    · cases given
      exact Fin.ext (congrArg Fin.val (Option.some.inj given')).symm
    · cases given'
  · cases given

theorem diagonal_size : size (diagonal n m) = min n m := by
  have same : assignedRows (diagonal n m) = Finset.univ.filter fun r : Fin n => r.1 < m := by
    ext r
    simp [mem_assignedRows, diagonal]
  rw [size, same, Fin.card_filter_val_lt]

end

/-! ## Trails -/

section
variable {R C : Type} {S P : R → C → Prop} {t : R → Nat}

/-- Neither a row nor a column has two pairs. -/
structure IsMatching (S : R → C → Prop) : Prop where
  row : ∀ r c c', S r c → S r c' → c = c'
  column : ∀ r r' c, S r c → S r' c → r = r'

/-- Stars and primes such that from a primed pair on, to the star of its column and the prime of that star's row, the
time gets less. -/
structure Trail (S P : R → C → Prop) (t : R → Nat) : Prop where
  stars : IsMatching S
  prime : ∀ r c c', P r c → P r c' → c = c'
  back : ∀ r r' c, P r c → S r' c → t r' < t r
  next : ∀ r r' c, P r c → S r' c → ∃ c', P r' c'

variable [DecidableEq R]

/-- The rows in `visited` have their primes in place of their stars; the trail from `root` has got to the primed pair of
row `last`. -/
structure Flipped (S P : R → C → Prop) (t : R → Nat) (root : R) (visited : Finset R) (N : R → C → Prop) (last : R) (col : C) :
    Prop where
  pairs : ∀ r c, N r c ↔ if r ∈ visited then P r c else S r c
  rooted : root ∈ visited
  ends : last ∈ visited
  here : P last col
  late : ∀ r ∈ visited, t last ≤ t r
  primed : ∀ r ∈ visited, ∃ c, P r c
  freed : ∀ r ∈ visited, r ≠ root → ∃ c, S r c ∧ ∃ r' ∈ visited, P r' c
  taken : ∀ r ∈ visited, r ≠ last → ∀ c, P r c → ∃ r' ∈ visited, S r' c
  apart : ∀ r ∈ visited, ∀ r' ∈ visited, ∀ c, P r c → P r' c → r = r'

variable {root last : R} {visited : Finset R} {N : R → C → Prop} {col : C}

theorem Flipped.start (primed : P root col) :
    Flipped S P t root {root} (fun r c => if r = root then P r c else S r c) root col where
  pairs r c := by simp only [Finset.mem_singleton]
  rooted := Finset.mem_singleton_self root
  ends := Finset.mem_singleton_self root
  here := primed
  late r member := by rw [Finset.mem_singleton.mp member]
  primed r member := by
    rw [Finset.mem_singleton.mp member]
    exact ⟨col, primed⟩
  freed r member other := absurd (Finset.mem_singleton.mp member) other
  taken r member other := absurd (Finset.mem_singleton.mp member) other
  apart r member r' member' _ _ _ := (Finset.mem_singleton.mp member).trans (Finset.mem_singleton.mp member').symm

theorem Flipped.congr {N' : R → C → Prop} (flipped : Flipped S P t root visited N last col) (same : ∀ r c, N' r c ↔ N r c) :
    Flipped S P t root visited N' last col :=
  { flipped with pairs := fun r c => (same r c).trans (flipped.pairs r c) }

/-- The star in the column that the trail has got to is in a new row. -/
theorem Flipped.new_row (flipped : Flipped S P t root visited N last col) (trail : Trail S P t) {r : R} (star : S r col) :
    r ∉ visited := fun member => absurd (trail.back last r col flipped.here star) (Nat.not_lt_of_le (flipped.late r member))

/-- The trail goes on: the star of the column makes place for the prime of its row. -/
theorem Flipped.advance (flipped : Flipped S P t root visited N last col) (trail : Trail S P t) {r : R} {c : C}
    (star : S r col) (prime : P r c) :
    Flipped S P t root (insert r visited) (fun r' c' => if r' = r then P r' c' else N r' c') r c := by
  have earlier := trail.back last r col flipped.here star
  have before : ∀ r' ∈ visited, t r < t r' := fun r' member => Nat.lt_of_lt_of_le earlier (flipped.late r' member)
  -- The column of a prime that was visited has its star in a visited row, so it is later than this one.
  have other : ∀ r' ∈ visited, ¬ P r' c := by
    intro r' member primed
    by_cases same : r' = last
    · subst same
      have column := trail.prime r' c col primed flipped.here
      subst column
      exact Nat.lt_irrefl _ (trail.back r r c prime star)
    · obtain ⟨r'', member'', star''⟩ := flipped.taken r' member same c primed
      exact Nat.lt_asymm (before r'' member'') (trail.back r r'' c prime star'')
  constructor
  case pairs =>
    intro r' c'
    by_cases same : r' = r
    · simp only [same, if_true, Finset.mem_insert_self]
    · simp only [same, if_false, Finset.mem_insert, false_or]
      exact flipped.pairs r' c'
  case rooted => exact Finset.mem_insert_of_mem flipped.rooted
  case ends => exact Finset.mem_insert_self r visited
  case here => exact prime
  case late =>
    intro r' member
    rcases Finset.mem_insert.mp member with rfl | old
    · exact Nat.le_refl _
    · exact Nat.le_of_lt (before r' old)
  case primed =>
    intro r' member
    rcases Finset.mem_insert.mp member with rfl | old
    · exact ⟨c, prime⟩
    · exact flipped.primed r' old
  case freed =>
    intro r' member notRoot
    rcases Finset.mem_insert.mp member with rfl | old
    · exact ⟨col, star, last, Finset.mem_insert_of_mem flipped.ends, flipped.here⟩
    · obtain ⟨c', star', r'', old'', primed⟩ := flipped.freed r' old notRoot
      exact ⟨c', star', r'', Finset.mem_insert_of_mem old'', primed⟩
  case taken =>
    intro r' member notLast c' primed
    have old := Finset.mem_of_mem_insert_of_ne member notLast
    by_cases same : r' = last
    · subst same
      rw [trail.prime r' c' col primed flipped.here]
      exact ⟨r, Finset.mem_insert_self r visited, star⟩
    · obtain ⟨r'', old'', star'⟩ := flipped.taken r' old same c' primed
      exact ⟨r'', Finset.mem_insert_of_mem old'', star'⟩
  case apart =>
    intro r₁ member₁ r₂ member₂ c' primed₁ primed₂
    rcases Finset.mem_insert.mp member₁ with rfl | old₁ <;> rcases Finset.mem_insert.mp member₂ with rfl | old₂
    · rfl
    · cases trail.prime r₁ c' c primed₁ prime
      exact absurd primed₂ (other r₂ old₂)
    · cases trail.prime r₂ c' c primed₂ prime
      exact absurd primed₁ (other r₁ old₁)
    · exact flipped.apart r₁ old₁ r₂ old₂ c' primed₁ primed₂

/-- When the trail ends every visited prime's column is free of other stars. -/
theorem Flipped.closed (flipped : Flipped S P t root visited N last col) (trail : Trail S P t) (free : ∀ r, ¬ S r col)
    {r r' : R} {c : C} (member : r ∈ visited) (primed : P r c) (star : S r' c) : r' ∈ visited := by
  by_cases same : r = last
  · subst same
    rw [trail.prime r c col primed flipped.here] at star
    exact absurd star (free r')
  · obtain ⟨r'', member'', star''⟩ := flipped.taken r member same c primed
    rwa [trail.stars.column r' r'' c star star'']

/-- **Flipping a trail**: the pairs are a matching again. -/
theorem Flipped.matching (flipped : Flipped S P t root visited N last col) (trail : Trail S P t) (free : ∀ r, ¬ S r col) :
    IsMatching N where
  row r c c' pair pair' := by
    rw [flipped.pairs] at pair pair'
    by_cases member : r ∈ visited
    · rw [if_pos member] at pair pair'
      exact trail.prime r c c' pair pair'
    · rw [if_neg member] at pair pair'
      exact trail.stars.row r c c' pair pair'
  column r r' c pair pair' := by
    rw [flipped.pairs] at pair pair'
    by_cases member : r ∈ visited <;> by_cases member' : r' ∈ visited <;>
      simp only [member, member', if_true, if_false] at pair pair'
    · exact flipped.apart r member r' member' c pair pair'
    · exact absurd (flipped.closed trail free member pair pair') member'
    · exact absurd (flipped.closed trail free member' pair' pair) member
    · exact trail.stars.column r r' c pair pair'

/-- The rows with a pair are those with a star and the root of the trail. -/
theorem Flipped.rows (flipped : Flipped S P t root visited N last col) (r : R) : (∃ c, N r c) ↔ (∃ c, S r c) ∨ r = root := by
  constructor
  · rintro ⟨c, pair⟩
    rw [flipped.pairs] at pair
    by_cases member : r ∈ visited
    · by_cases same : r = root
      · exact .inr same
      · obtain ⟨c', star, _⟩ := flipped.freed r member same
        exact .inl ⟨c', star⟩
    · rw [if_neg member] at pair
      exact .inl ⟨c, pair⟩
  · intro starred
    by_cases member : r ∈ visited
    · obtain ⟨c, primed⟩ := flipped.primed r member
      exact ⟨c, (flipped.pairs r c).mpr (by rwa [if_pos member])⟩
    · rcases starred with ⟨c, star⟩ | rfl
      · exact ⟨c, (flipped.pairs r c).mpr (by rwa [if_neg member])⟩
      · exact absurd flipped.rooted member

/-- A column with a star has a pair. -/
theorem Flipped.columns (flipped : Flipped S P t root visited N last col) (trail : Trail S P t) (free : ∀ c, ¬ S root c)
    {r : R} {c : C} (star : S r c) : ∃ r', N r' c := by
  by_cases member : r ∈ visited
  · obtain ⟨c', star', r', member', primed⟩ := flipped.freed r member fun same => free c (same ▸ star)
    rw [trail.stars.row r c c' star star']
    exact ⟨r', (flipped.pairs r' c').mpr (by rwa [if_pos member'])⟩
  · exact ⟨r, (flipped.pairs r c).mpr (by rwa [if_neg member])⟩

end
end VideoDetector.Lib
