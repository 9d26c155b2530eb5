import Mathlib.Algebra.BigOperators.Group.List.Basic
import Mathlib.Algebra.BigOperators.Intervals
import Mathlib.Data.List.Induction
import Mathlib.Data.List.Intervals
import Mathlib.Data.List.ProdSigma
import Mathlib.Order.Interval.Finset.Nat
import Mathlib.Tactic.Abel

/-!
# Tables that are updated in place

A loop replaces entries of a table one after the other. Where each entry is replaced once and only from entries the loop
has not got to, the loop may as well read the table it began with (`foldl_update_ahead`). Loops that count are
`foldl_count`, and sums over the counted things are sums over the counts (`sum_eq_sum_count`). A table of sums over all
entries above and to the left of a place (`area`) has the sum over any rectangle in four of its entries (`area_box`).
-/

namespace VideoDetector.Lib
set_option autoImplicit false

/-! ## Loops -/

section
variable {κ α : Type} [DecidableEq κ]

/-- **In place or not**: each entry is replaced once, from entries that the loop has not replaced. -/
theorem foldl_update_ahead {g : (κ → α) → κ → α} {cells : List κ} (distinct : cells.Nodup)
    (ahead : ∀ before k after, cells = before ++ k :: after → ∀ f f', (∀ q, q ∉ before → f q = f' q) → g f k = g f' k)
    (f : κ → α) (q : κ) : cells.foldl (fun f k => Function.update f k (g f k)) f q = if q ∈ cells then g f q else f q := by
  induction cells using List.reverseRecOn generalizing q with
  | nil => simp
  | append_singleton cells k ih =>
    obtain ⟨distinct', _, apart⟩ := List.nodup_append.mp distinct
    have out : k ∉ cells := fun member => apart k member k (List.mem_singleton_self k) rfl
    have earlier := ih distinct' fun before k' after split =>
      ahead before k' (after ++ [k]) (by rw [split, List.append_assoc, List.cons_append])
    rw [List.foldl_append, List.foldl_cons, List.foldl_nil]
    by_cases here : q = k
    · subst here
      rw [Function.update_self, if_pos (List.mem_append_right cells (List.mem_singleton_self q))]
      exact ahead cells q [] rfl _ _ fun p new => by rw [earlier p, if_neg new]
    · rw [Function.update_of_ne here, earlier q]
      simp [here]

/-- A loop that counts what it meets. -/
theorem foldl_count (keys : List κ) (h : κ → Nat) (q : κ) :
    keys.foldl (fun h k => Function.update h k (h k + 1)) h q = h q + keys.count q := by
  induction keys generalizing h with
  | nil => simp
  | cons k keys ih =>
    rw [List.foldl_cons, ih, List.count_cons]
    by_cases here : q = k
    · simp [here]
      omega
    · simp [here, Ne.symm here]

/-- A loop that marks: each round marks what it hits and unmarks nothing. -/
theorem foldl_marks_iff {α β : Type} {mark : (α → Bool) → β → α → Bool} (hits : β → α → Prop)
    (each : ∀ c x k, mark c x k = true ↔ c k = true ∨ hits x k) (xs : List β) (c : α → Bool) (k : α) :
    xs.foldl mark c k = true ↔ c k = true ∨ ∃ x ∈ xs, hits x k := by
  induction xs generalizing c with
  | nil => simp
  | cons x xs ih => simp [ih, each, or_assoc]

/-- A loop that moves an offset on by the same amount each time. -/
theorem foldl_offset {σ β : Type} (g : σ → Nat → β → σ) (width : Nat) (bs : List β) (s : σ) (first : Nat) :
    bs.foldl (fun (r : σ × Nat) b => (g r.1 r.2 b, r.2 + width)) (s, first * width) =
      ((bs.zipIdx first).foldl (fun s b => g s (b.2 * width) b.1) s, (first + bs.length) * width) := by
  induction bs generalizing s first with
  | nil => rfl
  | cons b bs ih =>
    have next : first * width + width = (first + 1) * width := by rw [Nat.add_mul, Nat.one_mul]
    rw [List.foldl_cons, next, ih, List.zipIdx_cons, List.foldl_cons, List.length_cons, Nat.add_assoc first 1, Nat.add_comm 1]

/-- A loop that collects. -/
theorem foldl_collect {β γ : Type} (c : β → Prop) [DecidablePred c] (f : β → γ) (xs : List β) (out : List γ) :
    xs.foldl (fun out x => if c x then out ++ [f x] else out) out = out ++ (xs.filter (c ·)).map f := by
  induction xs generalizing out with
  | nil => simp
  | cons x xs ih =>
    rw [List.foldl_cons, ih]
    by_cases taken : c x
    · simp [taken]
    · simp [taken]

end

/-- `for (i = start; i < bound; i += step)`. -/
def stepped (start bound step : Nat) : List Nat := List.range' start ((bound - start + step - 1) / step) step

theorem mem_stepped {start bound step i : Nat} (positive : 0 < step) :
    i ∈ stepped start bound step ↔ i < bound ∧ ∃ k, i = start + step * k := by
  have count (k : Nat) : k < (bound - start + step - 1) / step ↔ start + step * k < bound := by
    rw [Nat.lt_iff_add_one_le, Nat.le_div_iff_mul_le positive, Nat.add_mul, Nat.one_mul, Nat.mul_comm k]
    omega
  rw [stepped, List.mem_range']
  constructor
  · rintro ⟨k, less, rfl⟩
    exact ⟨(count k).mp less, k, rfl⟩
  · rintro ⟨less, k, rfl⟩
    exact ⟨k, (count k).mpr less, rfl⟩

/-- Before an entry come those of the rows above and those to its left. -/
theorem product_before {xs ys : List Nat} (rows : xs.Pairwise (· < ·)) (columns : ys.Pairwise (· < ·)) {k : Nat × Nat}
    {before after : List (Nat × Nat)} (split : xs ×ˢ ys = before ++ k :: after) {q : Nat × Nat} (member : q ∈ before) :
    q.1 < k.1 ∨ q.1 = k.1 ∧ q.2 < k.2 := by
  have sorted : (xs ×ˢ ys).Pairwise fun q k => q.1 < k.1 ∨ q.1 = k.1 ∧ q.2 < k.2 := by
    clear split
    induction rows with
    | nil => exact List.Pairwise.nil
    | @cons x xs less _ ih =>
      rw [List.product_cons, List.pairwise_append]
      refine ⟨?_, ih, ?_⟩
      · rw [List.pairwise_map]
        exact columns.imp fun less => .inr ⟨rfl, less⟩
      · intro q there k here
        obtain ⟨y, _, rfl⟩ := List.mem_map.mp there
        exact .inl (less _ (List.mem_product.mp here).1)
  rw [split, List.pairwise_append] at sorted
  exact sorted.2.2 q member k List.mem_cons_self

theorem stepped_lt {start bound step : Nat} (positive : 0 < step) : (stepped start bound step).Pairwise (· < ·) :=
  List.pairwise_lt_range' step positive

/-! ## Sums -/

/-- A sum over the entries of a list with their indices, with one index that counts. -/
theorem sum_zipIdx_le {β : Type} (bs : List β) (g : β × Nat → Nat) {bound first m : Nat} (le : ∀ b, g b ≤ bound)
    (zero : ∀ b, b.2 ≠ m → g b = 0) : ((bs.zipIdx first).map g).sum ≤ bound := by
  induction bs generalizing first with
  | nil => exact Nat.zero_le bound
  | cons b bs ih =>
    rw [List.zipIdx_cons, List.map_cons, List.sum_cons]
    by_cases here : first = m
    · have rest : ((bs.zipIdx (first + 1)).map g).sum = 0 := by
        refine List.sum_eq_zero fun x member => ?_
        obtain ⟨b, later, rfl⟩ := List.mem_map.mp member
        have := (List.mem_zipIdx later).1
        exact zero b (by omega)
      rw [rest]
      exact le (b, first)
    · rw [zero (b, first) here, Nat.zero_add]
      exact ih

section
variable {M : Type} [AddCommMonoid M]

/-- What is counted, weighed: a sum over the things is a sum over what they are. -/
theorem sum_eq_sum_count (w : Nat → M) {n : Nat} {keys : List Nat} (small : ∀ k ∈ keys, k < n) :
    (keys.map w).sum = ∑ k ∈ Finset.range n, keys.count k • w k := by
  rw [Finset.sum_list_map_count]
  apply Finset.sum_subset
  · intro k member
    exact Finset.mem_range.mpr (small k (List.mem_toFinset.mp member))
  · intro k _ out
    rw [List.count_eq_zero_of_not_mem fun member => out (List.mem_toFinset.mpr member), zero_nsmul]

theorem foldl_add_range (f : Nat → M) (s : M) (n : Nat) :
    (List.range n).foldl (fun s k => s + f k) s = s + ∑ k ∈ Finset.range n, f k := by
  induction n with
  | zero => simp
  | succ n ih => rw [List.range_succ, List.foldl_append, ih, List.foldl_cons, List.foldl_nil, Finset.sum_range_succ, add_assoc]

theorem sum_flatMap {β γ : Type} (bs : List β) (f : β → List γ) (w : γ → M) :
    ((bs.flatMap f).map w).sum = (bs.map fun b => ((f b).map w).sum).sum := by
  rw [List.flatMap_def, List.map_flatten, List.sum_flatten, List.map_map, List.map_map]
  rfl

theorem sum_Ico (f : Nat → M) (n m : Nat) : ((List.Ico n m).map f).sum = ∑ x ∈ Finset.Ico n m, f x := rfl

theorem sum_product (xs ys : List Nat) (f : Nat × Nat → M) :
    ((xs ×ˢ ys).map f).sum = (xs.map fun x => (ys.map fun y => f (x, y)).sum).sum := by
  refine (sum_flatMap xs _ f).trans (congrArg List.sum (List.map_congr_left fun x _ => ?_))
  rw [List.map_map]
  rfl

theorem sum_comm_map {β ι : Type} (bs : List β) (s : Finset ι) (f : ι → β → M) :
    ∑ x ∈ s, (bs.map (f x)).sum = (bs.map fun b => ∑ x ∈ s, f x b).sum := by
  induction bs with
  | nil => simp
  | cons b bs ih => simp only [List.map_cons, List.sum_cons, Finset.sum_add_distrib, ih]

/-- The sum of all entries above and to the left of a place, with the place. -/
def area (f : Nat × Nat → M) (i j : Nat) : M := ∑ x ∈ Finset.range (i + 1), ∑ y ∈ Finset.range (j + 1), f (x, y)

/-- The sum of a row up to a place. -/
def strip (f : Nat × Nat → M) (i n : Nat) : M := ∑ y ∈ Finset.range n, f (i, y)

theorem strip_succ (f : Nat × Nat → M) (i n : Nat) : strip f i (n + 1) = strip f i n + f (i, n) := Finset.sum_range_succ _ n

theorem area_zero (f : Nat × Nat → M) (j : Nat) : area f 0 j = strip f 0 (j + 1) := by
  rw [area, Finset.sum_range_one, strip]

theorem area_succ (f : Nat × Nat → M) (i j : Nat) : area f (i + 1) j = area f i j + strip f (i + 1) (j + 1) := by
  rw [area, Finset.sum_range_succ, area, strip]

end

section
variable {M : Type} [AddCommGroup M]

theorem sum_Ioc_eq_sub (g : Nat → M) (i h : Nat) :
    ∑ x ∈ Finset.Ico (i + 1) (i + 1 + h), g x = ∑ x ∈ Finset.range (i + h + 1), g x - ∑ x ∈ Finset.range (i + 1), g x := by
  rw [Finset.sum_Ico_eq_sub g (Nat.le_add_right (i + 1) h), Nat.add_right_comm]

/-- **Four corners**: the sum over the rectangle below and to the right of a place. -/
theorem area_box (f : Nat × Nat → M) (i j h w : Nat) :
    area f i j + (area f (i + h) (j + w) - area f (i + h) j - area f i (j + w)) =
      ∑ x ∈ Finset.Ico (i + 1) (i + 1 + h), ∑ y ∈ Finset.Ico (j + 1) (j + 1 + w), f (x, y) := by
  have rows := sum_Ioc_eq_sub (fun x => ∑ y ∈ Finset.Ico (j + 1) (j + 1 + w), f (x, y)) i h
  have each : ∀ x, ∑ y ∈ Finset.Ico (j + 1) (j + 1 + w), f (x, y) =
      ∑ y ∈ Finset.range (j + w + 1), f (x, y) - ∑ y ∈ Finset.range (j + 1), f (x, y) :=
    fun x => sum_Ioc_eq_sub (fun y => f (x, y)) j w
  rw [rows]
  simp only [each, Finset.sum_sub_distrib]
  unfold area
  abel

end
end VideoDetector.Lib
