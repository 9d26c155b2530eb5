import Mathlib.Data.List.Nodup
import Mathlib.Logic.Equiv.Basic
import Mathlib.Order.Lattice
import Mathlib.Order.Nat

/-!
# Ranks and partial selection

`IsRank` is the value with a rank among some values, which are counted from 0. The first passes of a selection sort put the
values of the first ranks into their cells (`selectPasses_rank`), so the passes up to the middle find the value in the middle.
-/

namespace VideoDetector.Lib
set_option autoImplicit false

section
variable {α : Type} [LinearOrder α] {xs ys : List α} {r : Nat} {v w : α}

/-- At most as many values as the rank are less, and more are not greater. -/
structure IsRank (xs : List α) (r : Nat) (v : α) : Prop where
  less : xs.countP (· < v) ≤ r
  least : r < xs.countP (· ≤ v)

instance (xs : List α) (r : Nat) (v : α) : Decidable (IsRank xs r v) :=
  decidable_of_iff (xs.countP (· < v) ≤ r ∧ r < xs.countP (· ≤ v)) ⟨fun h => ⟨h.1, h.2⟩, fun h => ⟨h.1, h.2⟩⟩

theorem IsRank.perm (rank : IsRank xs r v) (perm : xs.Perm ys) : IsRank ys r v :=
  ⟨perm.countP_eq (· < v) ▸ rank.less, perm.countP_eq (· ≤ v) ▸ rank.least⟩

theorem IsRank.not_less (rank : IsRank xs r v) (rank' : IsRank xs r w) : ¬v < w := by
  intro less
  have counted : xs.countP (· ≤ v) ≤ xs.countP (· < w) := by
    apply List.countP_mono_left
    intro x _ le
    exact decide_eq_true (lt_of_le_of_lt (of_decide_eq_true le) less)
  have low := rank.least
  have high := rank'.less
  omega

/-- There is one value with a rank. -/
theorem IsRank.unique (rank : IsRank xs r v) (rank' : IsRank xs r w) : v = w :=
  le_antisymm (not_lt.mp (rank'.not_less rank)) (not_lt.mp (rank.not_less rank'))

/-- When the middle value stays in the middle with one more value. -/
theorem IsRank.middle_snoc_iff {x : α} (rank : IsRank xs (xs.length / 2) v) :
    IsRank (xs ++ [x]) ((xs.length + 1) / 2) v ↔
      if xs.length % 2 = 0 then v ≤ x ∨ xs.countP (· < v) < xs.length / 2 else x ≤ v ∨ xs.length / 2 + 1 < xs.countP (· ≤ v) := by
  have less : (xs ++ [x]).countP (· < v) = xs.countP (· < v) + if x < v then 1 else 0 := by simp [List.countP_singleton]
  have least : (xs ++ [x]).countP (· ≤ v) = xs.countP (· ≤ v) + if x ≤ v then 1 else 0 := by simp [List.countP_singleton]
  have lo := rank.less
  have hi := rank.least
  have each : IsRank (xs ++ [x]) ((xs.length + 1) / 2) v ↔
      xs.countP (· < v) + (if x < v then 1 else 0) ≤ (xs.length + 1) / 2 ∧
        (xs.length + 1) / 2 < xs.countP (· ≤ v) + if x ≤ v then 1 else 0 := by
    rw [← less, ← least]
    exact ⟨fun rank' => ⟨rank'.less, rank'.least⟩, fun parts => ⟨parts.1, parts.2⟩⟩
  rw [each]
  split_ifs with even below most most' <;> grind

end

/-! ## Selection -/

section
variable {α : Type}

/-- The values of the first cells. -/
def valuesOf (n : Nat) (cells : Nat → α) : List α := (List.range n).map cells

theorem valuesOf_length {n : Nat} {cells : Nat → α} : (valuesOf n cells).length = n := by simp [valuesOf]

/-- Two values change places. -/
theorem update_perm {cells : Nat → α} {n i j : Nat} (first : i < n) (second : j < n) :
    (valuesOf n (Function.update (Function.update cells i (cells j)) j (cells i))).Perm (valuesOf n cells) := by
  rw [← Equiv.comp_swap_eq_update, Equiv.swap_comm, valuesOf, valuesOf, ← List.map_map]
  apply List.Perm.map
  rw [List.perm_ext_iff_of_nodup (List.nodup_range.map (Equiv.swap i j).injective) List.nodup_range]
  intro k
  have inside (k : Nat) : Equiv.swap i j k < n ↔ k < n := by
    rw [Equiv.swap_apply_def]
    split_ifs <;> omega
  rw [List.mem_map, List.mem_range]
  constructor
  · rintro ⟨k', member, rfl⟩
    exact (inside k').mpr (List.mem_range.mp member)
  · intro less
    exact ⟨Equiv.swap i j k, List.mem_range.mpr ((inside k).mpr less), Equiv.swap_apply_self i j k⟩

end

section
variable {α : Type} [LinearOrder α] {cells cells' : Nat → α} {n i j m : Nat}

/-- The smaller of two values goes to the first of two cells. -/
def compareExchange (cells : Nat → α) (i j : Nat) : Nat → α :=
  if cells i > cells j then Function.update (Function.update cells i (cells j)) j (cells i) else cells

/-- A cell is compared with all later ones. -/
def selectPass (n : Nat) (cells : Nat → α) (i : Nat) : Nat → α :=
  (List.range' (i + 1) (n - (i + 1))).foldl (fun cells j => compareExchange cells i j) cells

/-- The passes for the first cells. -/
def selectPasses (n m : Nat) (cells : Nat → α) : Nat → α := (List.range m).foldl (selectPass n) cells

/-- The same values, with the least ones in order in the first cells. -/
structure Selected (n m : Nat) (cells cells' : Nat → α) : Prop where
  perm : (valuesOf n cells').Perm (valuesOf n cells)
  least : ∀ a b, a < m → a ≤ b → b < n → cells' a ≤ cells' b

theorem Selected.initial (n : Nat) (cells : Nat → α) : Selected n 0 cells cells :=
  ⟨List.Perm.refl _, fun a _ none => absurd none (Nat.not_lt_zero a)⟩

theorem compareExchange_le (apart : i ≠ j) : compareExchange cells i j i ≤ compareExchange cells i j j ∧
    compareExchange cells i j i ≤ cells i := by
  unfold compareExchange
  split
  next more =>
    rw [Function.update_self, Function.update_of_ne apart, Function.update_self]
    exact ⟨le_of_lt more, le_of_lt more⟩
  next other => exact ⟨not_lt.mp other, le_refl _⟩

theorem compareExchange_other {k : Nat} (first : k ≠ i) (second : k ≠ j) : compareExchange cells i j k = cells k := by
  unfold compareExchange
  split
  next => rw [Function.update_of_ne second, Function.update_of_ne first]
  next => rfl

/-- What an exchange keeps. -/
theorem Selected.exchange (selected : Selected n i cells cells') (less : i < j) (inside : j < n) :
    Selected n i cells (compareExchange cells' i j) := by
  constructor
  · refine List.Perm.trans ?_ selected.perm
    unfold compareExchange
    split
    next => exact update_perm (less.trans inside) inside
    next => exact List.Perm.refl _
  · intro a b before le inside'
    have least := selected.least a
    rw [compareExchange_other (Nat.ne_of_lt before) (Nat.ne_of_lt (before.trans less))]
    unfold compareExchange
    split
    next =>
      by_cases second : b = j
      · rw [second, Function.update_self]
        exact least i before before.le (less.trans inside)
      · rw [Function.update_of_ne second]
        by_cases first : b = i
        · rw [first, Function.update_self]
          exact least j before (before.trans less).le inside
        · rw [Function.update_of_ne first]
          exact least b before le inside'
    next => exact least b before le inside'

/-- A pass puts the next value into its cell. -/
theorem Selected.pass (selected : Selected n i cells cells') (inside : i < n) :
    Selected n (i + 1) cells (selectPass n cells' i) := by
  have each (k : Nat) (short : i + 1 + k ≤ n) :
      Selected n i cells ((List.range' (i + 1) k).foldl (fun c j => compareExchange c i j) cells') ∧
        ∀ b, i ≤ b → b < i + 1 + k → (List.range' (i + 1) k).foldl (fun c j => compareExchange c i j) cells' i ≤
          (List.range' (i + 1) k).foldl (fun c j => compareExchange c i j) cells' b := by
    induction k with
    | zero =>
      refine ⟨selected, fun b le less => ?_⟩
      rw [show b = i by omega]
    | succ k ih =>
      obtain ⟨kept, below⟩ := ih (by omega)
      rw [List.range'_1_concat, List.foldl_append, List.foldl_cons, List.foldl_nil]
      generalize (List.range' (i + 1) k).foldl (fun c j => compareExchange c i j) cells' = c at kept below ⊢
      refine ⟨kept.exchange (by omega) (by omega), fun b le less => ?_⟩
      have apart : i ≠ i + 1 + k := by omega
      obtain ⟨ordered, lower⟩ : compareExchange c i (i + 1 + k) i ≤ compareExchange c i (i + 1 + k) (i + 1 + k) ∧ _ :=
        compareExchange_le apart
      by_cases first : b = i
      · rw [first]
      · by_cases last : b = i + 1 + k
        · rw [last]
          exact ordered
        · rw [compareExchange_other first last]
          exact lower.trans (below b le (by omega))
  obtain ⟨kept, below⟩ := each (n - (i + 1)) (by omega)
  refine ⟨kept.perm, fun a b before le inside' => ?_⟩
  rcases Nat.eq_or_lt_of_le (Nat.le_of_lt_succ before) with rfl | before
  · exact below b le (by omega)
  · exact kept.least a b before le inside'

theorem selectPasses_selected (cells : Nat → α) (inside : m ≤ n) : Selected n m cells (selectPasses n m cells) := by
  induction m with
  | zero => exact Selected.initial n cells
  | succ m ih =>
    rw [selectPasses, List.range_succ, List.foldl_append]
    exact (ih (by omega)).pass inside

/-- **Partial selection** finds the value with a rank. -/
theorem selectPasses_rank (cells : Nat → α) (inside : m < n) :
    IsRank (valuesOf n cells) m (selectPasses n (m + 1) cells m) := by
  have selected := selectPasses_selected cells (m := m + 1) inside
  refine IsRank.perm ?_ selected.perm
  generalize selectPasses n (m + 1) cells = cells' at selected
  have parts (k : Nat) (short : k ≤ n) : valuesOf n cells' = valuesOf k cells' ++ (List.range' k (n - k)).map cells' := by
    rw [valuesOf, valuesOf, ← List.map_append, List.range_eq_range', List.range_eq_range']
    have joined := List.range'_append_1 (s := 0) (m := k) (n := n - k)
    rw [Nat.zero_add, Nat.add_sub_cancel' short] at joined
    rw [joined]
  constructor
  · have none : ((List.range' m (n - m)).map cells').countP (· < cells' m) = 0 := by
      rw [List.countP_eq_zero]
      intro x member less
      obtain ⟨b, range, rfl⟩ := List.mem_map.mp member
      rw [List.mem_range'_1] at range
      exact absurd (of_decide_eq_true less) (not_lt.mpr (selected.least m b (by omega) range.1 (by omega)))
    rw [parts m (by omega), List.countP_append, none]
    exact List.countP_le_length.trans_eq valuesOf_length
  · have all : (valuesOf (m + 1) cells').countP (· ≤ cells' m) = m + 1 := by
      refine (List.countP_eq_length.mpr fun x member => ?_).trans valuesOf_length
      obtain ⟨a, range, rfl⟩ := List.mem_map.mp member
      rw [List.mem_range] at range
      exact decide_eq_true (selected.least a m range (by omega) inside)
    rw [parts (m + 1) inside, List.countP_append, all]
    omega

end

end VideoDetector.Lib
