import Mathlib.Logic.Function.Basic

/-!
# The most recent values

An array with a number of cells that are used keeps the last values that were written: a new value goes
to the first free cell, and when all are used the others move down by one.
-/

namespace VideoDetector.Lib
set_option autoImplicit false

variable {α : Type} {n count : Nat} {cells : Nat → α} {xs : List α}

/-- The used cells hold the last values, the oldest first. -/
structure Recent (n : Nat) (cells : Nat → α) (count : Nat) (xs : List α) : Prop where
  used : count = min xs.length n
  values : (List.range count).map cells = xs.drop (xs.length - n)

theorem Recent.nil (n : Nat) (cells : Nat → α) : Recent n cells 0 [] := ⟨(Nat.zero_min n).symm, List.drop_nil.symm⟩

theorem Recent.same {cells' : Nat → α} (recent : Recent n cells count xs) (same : ∀ i < n, cells' i = cells i) :
    Recent n cells' count xs := by
  refine ⟨recent.used, ?_⟩
  rw [← recent.values]
  apply List.map_congr_left
  intro i inside
  have below : i < count := List.mem_range.mp inside
  exact same i (Nat.lt_of_lt_of_le below (recent.used ▸ Nat.min_le_right _ _))

/-- A value for the first free cell. -/
theorem Recent.push (recent : Recent n cells count xs) (room : count < n) (x : α) :
    Recent n (Function.update cells count x) (count + 1) (xs ++ [x]) := by
  have all : count = xs.length := by
    have least := recent.used
    omega
  have before : (List.range count).map cells = xs := by
    rw [recent.values, show xs.length - n = 0 by omega, List.drop_zero]
  refine ⟨by rw [List.length_append, List.length_singleton]; omega, ?_⟩
  rw [List.length_append, List.length_singleton, show xs.length + 1 - n = 0 by omega, List.drop_zero, List.range_succ,
    List.map_append, List.map_singleton, Function.update_self]
  congr 1
  rw [← before]
  refine (List.map_congr_left fun i inside => ?_).trans rfl
  apply Function.update_of_ne
  exact Nat.ne_of_lt (List.mem_range.mp inside)

/-- A value for the last cell when all are used. -/
theorem Recent.shift (recent : Recent (n + 1) cells (n + 1) xs) (x : α) :
    Recent (n + 1) (fun i => if i < n then cells (i + 1) else x) (n + 1) (xs ++ [x]) := by
  have long : n + 1 ≤ xs.length := by
    have least := recent.used
    omega
  have before : (List.range n).map (fun i => cells (i + 1)) = xs.drop (xs.length - n) := by
    have tail := congrArg List.tail recent.values
    rw [List.range_succ_eq_map, List.map_cons, List.tail_cons, List.map_map, List.tail_drop] at tail
    rw [show xs.length - n = xs.length - (n + 1) + 1 by omega]
    exact tail
  refine ⟨by rw [List.length_append, List.length_singleton]; omega, ?_⟩
  rw [List.length_append, List.length_singleton, show xs.length + 1 - (n + 1) = xs.length - n by omega,
    List.drop_append_of_le_length (by omega), ← before, List.range_succ, List.map_append]
  congr 1
  · apply List.map_congr_left
    intro i inside
    exact if_pos (List.mem_range.mp inside)
  · simp

/-- The loop that moves cells down by one. -/
def moveDown (n : Nat) (cells : Nat → α) : Nat → α := (List.range n).foldl (fun c i => Function.update c i (c (i + 1))) cells

theorem moveDown_apply (n : Nat) (cells : Nat → α) (k : Nat) : moveDown n cells k = if k < n then cells (k + 1) else cells k := by
  induction n generalizing k with
  | zero => rfl
  | succ n ih =>
    rw [moveDown, List.range_succ, List.foldl_append]
    show Function.update (moveDown n cells) n (moveDown n cells (n + 1)) k = _
    by_cases last : k = n
    · rw [last, Function.update_self, ih, if_neg (by omega), if_pos (by omega)]
    · rw [Function.update_of_ne last, ih]
      have same : k < n + 1 ↔ k < n := by omega
      simp only [same]

end VideoDetector.Lib
