import Mathlib.Logic.Function.Basic
import VideoDetector.Lib.Runs

/-!
# Sweeps over a table

A table is an array of which a number of entries are in use. A sweep rewrites the entries one after the other and removes
some of them on its way: the entries behind move up by one and the index is stepped back, while the number of entries
shrinks under the loop. `sweep_all` says that what is left is what one pass over the list of entries leaves.
-/

namespace VideoDetector.Lib
set_option autoImplicit false

/-- An array with a number of entries in use. -/
structure Table (α : Type) where
  entries : Nat → α
  size : Nat

namespace Table
variable {α : Type}

/-- The entries in use. -/
def live (T : Table α) : List α := (List.range T.size).map T.entries

def set (T : Table α) (i : Nat) (a : α) : Table α := { T with entries := Function.update T.entries i a }

/-- The entries behind the last one in use stay as they are. -/
def push (T : Table α) (a : α) : Table α := ⟨Function.update T.entries T.size a, T.size + 1⟩

/-- An entry is copied to the place before it. -/
def moveUp (entries : Nat → α) (j : Nat) : Nat → α := Function.update entries (j - 1) (entries j)

/-- The entries behind an entry are moved up. -/
def remove (T : Table α) (i : Nat) : Table α where
  entries := if 1 < T.size then (List.range' (i + 1) (T.size - (i + 1))).foldl moveUp T.entries else T.entries
  size := T.size - 1

@[simp] theorem live_length (T : Table α) : T.live.length = T.size := by simp [live]

theorem live_getElem? (T : Table α) (k : Nat) : T.live[k]? = if k < T.size then some (T.entries k) else none := by
  rw [live, List.getElem?_map]
  by_cases inside : k < T.size
  · rw [if_pos inside, List.getElem?_range inside]
    rfl
  · rw [if_neg inside, List.getElem?_eq_none (by simpa using inside)]
    rfl

theorem live_set (T : Table α) {i : Nat} (a : α) : (T.set i a).live = T.live.set i a := by
  apply List.ext_getElem?
  intro k
  rw [live_getElem?, List.getElem?_set, live_getElem?, live_length]
  by_cases same : k = i
  · subst same
    simp [set]
  · rw [if_neg (Ne.symm same)]
    simp [set, same]

theorem live_push (T : Table α) (a : α) : (T.push a).live = T.live ++ [a] := by
  have before : (List.range T.size).map (Function.update T.entries T.size a) = (List.range T.size).map T.entries := by
    apply List.map_congr_left
    intro k member
    exact Function.update_of_ne (Nat.ne_of_lt (List.mem_range.mp member)) _ _
  simp only [live, push, List.range_succ, List.map_append, before, List.map_singleton, Function.update_self]

/-- After some moves the entries moved are one place before. -/
theorem moveUps_apply (entries : Nat → α) (i n k : Nat) :
    (List.range' (i + 1) n).foldl moveUp entries k = if i ≤ k ∧ k < i + n then entries (k + 1) else entries k := by
  induction n generalizing k with
  | zero => exact (if_neg (by omega)).symm
  | succ n ih =>
    rw [List.range'_1_concat, List.foldl_concat, moveUp]
    by_cases last : k = i + 1 + n - 1
    · subst last
      rw [Function.update_self, ih, if_neg (by omega), if_pos (by omega)]
      congr 1
      omega
    · rw [Function.update_of_ne last, ih]
      by_cases moved : i ≤ k ∧ k < i + n
      · rw [if_pos moved, if_pos (by omega)]
      · rw [if_neg moved, if_neg (by omega)]

theorem live_remove (T : Table α) {i : Nat} (inside : i < T.size) : (T.remove i).live = T.live.eraseIdx i := by
  apply List.ext_getElem?
  intro k
  rw [live_getElem?, List.getElem?_eraseIdx, live_getElem?, live_getElem?]
  have size : (T.remove i).size = T.size - 1 := rfl
  rw [size]
  by_cases many : 1 < T.size
  · have entries : (T.remove i).entries = (List.range' (i + 1) (T.size - (i + 1))).foldl moveUp T.entries := if_pos many
    rw [entries, moveUps_apply]
    by_cases before : k < i
    · rw [if_pos before, if_pos (by omega), if_neg (by omega), if_pos (by omega)]
    · rw [if_neg before]
      by_cases last : k < T.size - 1
      · rw [if_pos last, if_pos (by omega), if_pos (by omega)]
      · rw [if_neg last, if_neg (by omega)]
  · rw [if_neg (by omega), if_neg (by omega), if_neg (by omega)]

end Table

section
variable {σ α ε : Type} (act : σ → α → Except ε (σ × α × Bool))

/-- The loop: `act` rewrites an entry and says whether it stays. -/
def sweep (unfinished : ε) : Nat → σ → Table α → Nat → Except ε (σ × Table α)
  | 0, _, _, _ => .error unfinished
  | budget + 1, s, T, i =>
    if i < T.size then do
      let (s, a, stays) ← act s (T.entries i)
      if stays then sweep unfinished budget s (T.set i a) (i + 1)
      else sweep unfinished budget s ((T.set i a).remove i) i
    else .ok (s, T)

/-- The same for a list of entries, each of which is looked at once. -/
def passOver (s : σ × List α) (x : α) : Except ε (σ × List α) := do
  let (t, a, stays) ← act s.1 x
  return (t, if stays then s.2 ++ [a] else s.2)

variable {act}

/-- The rest of a sweep, with the entries that were left so far. -/
theorem sweep_spec {unfinished : ε} {budget : Nat} {s s' : σ} {T : Table α} {done todo kept : List α}
    (split : T.live = done ++ todo) (enough : todo.length < budget)
    (run : todo.foldlM (passOver act) (s, done) = .ok (s', kept)) :
    ∃ T', sweep act unfinished budget s T done.length = .ok (s', T') ∧ T'.live = kept := by
  induction todo generalizing budget s T done with
  | nil =>
    cases budget with
    | zero => cases enough
    | succ budget =>
      have size : T.size = done.length := by rw [← Table.live_length, split, List.append_nil]
      cases run
      refine ⟨T, ?_, by rw [split, List.append_nil]⟩
      rw [sweep, if_neg (by omega)]
  | cons x todo ih =>
    cases budget with
    | zero => cases enough
    | succ budget =>
      have size : T.size = done.length + (todo.length + 1) := by
        rw [← Table.live_length, split, List.length_append, List.length_cons]
      have inside : done.length < T.size := by omega
      have entry : T.entries done.length = x := by
        have there := T.live_getElem? done.length
        rw [if_pos inside, split, List.getElem?_append_right (Nat.le_refl _), Nat.sub_self, List.getElem?_cons_zero] at there
        exact (Option.some.inj there).symm
      rw [List.foldlM_cons] at run
      obtain ⟨next, step, rest⟩ := bind_ok run
      obtain ⟨⟨t, a, stays⟩, acted, same⟩ := bind_ok step
      have written : (T.set done.length a).live = done ++ a :: todo := by
        rw [Table.live_set, split, List.set_append_right _ _ (Nat.le_refl _), Nat.sub_self, List.set_cons_zero]
      have short : todo.length < budget := Nat.lt_of_succ_lt_succ enough
      rw [sweep, if_pos inside, entry, acted, ok_bind]
      cases stays with
      | true =>
        cases same
        have split' : (T.set done.length a).live = (done ++ [a]) ++ todo := by rw [written, List.append_cons]
        obtain ⟨T', last, left⟩ := ih split' short rest
        rw [List.length_append, List.length_singleton] at last
        exact ⟨T', last, left⟩
      | false =>
        cases same
        have split' : ((T.set done.length a).remove done.length).live = done ++ todo := by
          rw [Table.live_remove _ (show done.length < (T.set done.length a).size from inside), written,
            List.eraseIdx_append_of_length_le (Nat.le_refl _), Nat.sub_self, List.eraseIdx_cons_zero]
        exact ih split' short rest

/-- **A sweep** looks at each entry once, in their order, and leaves those that stay. -/
theorem sweep_all (unfinished : ε) {s s' : σ} {T : Table α} {kept : List α}
    (run : T.live.foldlM (passOver act) (s, []) = .ok (s', kept)) :
    ∃ T', sweep act unfinished (T.size + 1) s T 0 = .ok (s', T') ∧ T'.live = kept := by
  have enough : T.live.length < T.size + 1 := by rw [Table.live_length]; exact Nat.lt_succ_self _
  exact sweep_spec (List.nil_append T.live).symm enough run

end

end VideoDetector.Lib
