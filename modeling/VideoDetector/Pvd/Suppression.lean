import Mathlib.Algebra.Order.BigOperators.Group.List
import Mathlib.Data.List.NodupEquivFin
import VideoDetector.Pvd.Scanner

/-!
# Overlapping detections (`PostProcess` and `RemoveCoveredRectangles` in `Pvd/c4processor.h`)

`PostProcess` puts detections that overlap into groups and reports the mean of every large group, `RemoveCoveredRectangles`
drops what is covered by something else. `postProcess_groups` accounts for the detections, and
`removeCoveredRectangles_eq` says which rectangles stay.
-/

namespace VideoDetector.Pvd
set_option autoImplicit false
open Lib

section
variable {K : Type} [Field K] [LinearOrder K]

namespace CRect

def Empty (r : CRect K) : Prop := r.left ≥ r.right ∨ r.top ≥ r.bottom

instance (r : CRect K) : Decidable r.Empty := instDecidableOr

/-- `Clear`. -/
def clear : CRect K := ⟨0, 0, 0, 0⟩

def size (r : CRect K) : K := if r.Empty then 0 else (r.bottom - r.top) * (r.right - r.left)

/-- `Intersect`: the result with what it leaves in `result`. -/
def intersect (r rect2 : CRect K) : Bool × CRect K :=
  if r.Empty ∨ rect2.Empty ∨ r.left ≥ rect2.right ∨ rect2.left ≥ r.right ∨ r.top ≥ rect2.bottom ∨ rect2.top ≥ r.bottom then
    (false, clear)
  else (true, ⟨max r.left rect2.left, max r.top rect2.top, min r.right rect2.right, min r.bottom rect2.bottom⟩)

/-- `Union`: what it leaves in `result`. -/
def union (r rect2 : CRect K) : CRect K :=
  if r.Empty then if rect2.Empty then clear else rect2
  else if rect2.Empty then r
  else ⟨min r.left rect2.left, min r.top rect2.top, max r.right rect2.right, max r.bottom rect2.bottom⟩

/-- The additions to `res1_j`. -/
def add (r rect2 : CRect K) : CRect K :=
  ⟨r.left + rect2.left, r.top + rect2.top, r.right + rect2.right, r.bottom + rect2.bottom⟩

/-- The divisions of `res1_i`. -/
def scale (r : CRect K) (count : Nat) : CRect K := ⟨r.left / count, r.top / count, r.right / count, r.bottom / count⟩

end CRect

/-- The entries of `res1`, `resmax` and `res2` at one index. -/
structure DetectionGroup (K : Type) where
  res1 : CRect K
  resmax : CRect K
  res2 : Nat

/-- The condition under which `result_i` joins a group. -/
def Merges (result resmax : CRect K) : Prop :=
  (result.intersect resmax).1 = true ∧ (result.intersect resmax).2.size > 0.6 * result.size ∧
    (result.intersect resmax).2.size > 0.6 * resmax.size

instance (result resmax : CRect K) : Decidable (Merges result resmax) := instDecidableAnd

/-- The loop over `j`, with the case that there is no group to join. -/
def joinGroup (result : CRect K) : List (DetectionGroup K) → List (DetectionGroup K)
  | [] => [⟨result, result, 1⟩]
  | g :: gs =>
    if Merges result g.resmax then ⟨g.res1.add result, g.resmax.union result, g.res2 + 1⟩ :: gs else g :: joinGroup result gs

/-- `PostProcess`. -/
def postProcess (result : List (CRect K)) (combineMin : Int) : List (CRect K) :=
  let groups := result.foldl (fun gs r => joinGroup r gs) []
  (groups.filter fun g => g.res2 > combineMin).map fun g => g.res1.scale g.res2

/-- The body of the loops of `RemoveCoveredRectangles`. -/
def markCovered (result : List (CRect K)) (covered : Fin result.length → Bool) (i j : Fin result.length) : Fin result.length → Bool :=
  let isize := (result[i].intersect result[j]).2.size
  let covered := if isize > result[i].size * 0.65 then Function.update covered i true else covered
  if isize > result[j].size * 0.65 then Function.update covered j true else covered

/-- `RemoveCoveredRectangles`. -/
def removeCoveredRectangles (result : List (CRect K)) : List (CRect K) :=
  let covered := (List.finRange result.length).foldl (fun covered i =>
    ((List.finRange result.length).filter (i < ·)).foldl (fun covered j => markCovered result covered i j) covered) fun _ => false
  ((List.finRange result.length).filter fun i => covered i = false).map result.get

/-! ## Groups -/

/-- `resmax` of a group with these members. -/
def hull : List (CRect K) → CRect K
  | [] => CRect.clear
  | r :: rs => rs.foldl CRect.union r

/-- A group that grew by what overlapped it. -/
inductive Grown : List (CRect K) → Prop
  | one (r : CRect K) : Grown [r]
  | more {members : List (CRect K)} {r : CRect K} : Grown members → Merges r (hull members) → Grown (members ++ [r])

/-- The mean of a coordinate. -/
def average (f : CRect K → K) (members : List (CRect K)) : K := (members.map f).sum / members.length

/-- The rectangle of the means. -/
def meanRect (members : List (CRect K)) : CRect K :=
  ⟨average CRect.left members, average CRect.top members, average CRect.right members, average CRect.bottom members⟩

/-- An entry of the vectors stands for its members. -/
structure StandsFor (g : DetectionGroup K) (members : List (CRect K)) : Prop where
  grown : Grown members
  resmax : g.resmax = hull members
  res2 : g.res2 = members.length
  sum : g.res1 = ⟨(members.map CRect.left).sum, (members.map CRect.top).sum, (members.map CRect.right).sum, (members.map CRect.bottom).sum⟩

theorem Grown.ne_nil {members : List (CRect K)} (grown : Grown members) : members ≠ [] := by
  cases grown <;> simp

theorem hull_append {members : List (CRect K)} (some : members ≠ []) (r : CRect K) : hull (members ++ [r]) = (hull members).union r := by
  obtain ⟨first, rest, rfl⟩ := List.exists_cons_of_ne_nil some
  rw [hull, List.cons_append, hull, List.foldl_append]
  rfl

theorem joinGroup_standsFor (r : CRect K) {gs : List (DetectionGroup K)} {groups : List (List (CRect K))}
    (stands : List.Forall₂ StandsFor gs groups) :
    ∃ groups', List.Forall₂ StandsFor (joinGroup r gs) groups' ∧ groups'.flatten.Perm (r :: groups.flatten) := by
  induction stands with
  | nil =>
    refine ⟨[[r]], .cons ⟨.one r, rfl, rfl, ?_⟩ .nil, List.Perm.refl _⟩
    simp
  | @cons g members gs groups first rest ih =>
    rw [joinGroup]
    split
    · next merges =>
      obtain ⟨grown, resmax, res2, sum⟩ := first
      refine ⟨(members ++ [r]) :: groups, .cons ⟨grown.more (resmax ▸ merges), ?_, ?_, ?_⟩ rest, ?_⟩
      · rw [resmax, hull_append grown.ne_nil]
      · rw [res2, List.length_append, List.length_singleton]
      · simp [sum, CRect.add]
      · rw [List.flatten_cons, List.append_assoc]
        exact List.perm_middle
    · obtain ⟨groups', stands', same⟩ := ih
      refine ⟨members :: groups', .cons first stands', ?_⟩
      rw [List.flatten_cons, List.flatten_cons]
      exact (same.append_left members).trans List.perm_middle

theorem foldl_joinGroup (result : List (CRect K)) {gs : List (DetectionGroup K)} {groups : List (List (CRect K))}
    (stands : List.Forall₂ StandsFor gs groups) :
    ∃ groups', List.Forall₂ StandsFor (result.foldl (fun gs r => joinGroup r gs) gs) groups' ∧
      groups'.flatten.Perm (result ++ groups.flatten) := by
  induction result generalizing gs groups with
  | nil => exact ⟨groups, stands, List.Perm.refl _⟩
  | cons r result ih =>
    obtain ⟨groups', stands', same⟩ := joinGroup_standsFor r stands
    obtain ⟨groups'', stands'', same'⟩ := ih stands'
    exact ⟨groups'', stands'', same'.trans ((same.append_left result).trans List.perm_middle)⟩

theorem StandsFor.scale {g : DetectionGroup K} {members : List (CRect K)} (stands : StandsFor g members) :
    g.res1.scale g.res2 = meanRect members := by
  rw [stands.sum, stands.res2]
  rfl

/-- The groups: every detection is in one of them, a group has only what overlapped the ones before it, and the mean of
each group that is large enough is reported. -/
theorem postProcess_groups (result : List (CRect K)) (combineMin : Int) :
    ∃ groups : List (List (CRect K)), groups.flatten.Perm result ∧ (∀ members ∈ groups, Grown members) ∧
      postProcess result combineMin = (groups.filter fun members => (members.length : Int) > combineMin).map meanRect := by
  obtain ⟨groups, stands, same⟩ := foldl_joinGroup result .nil
  refine ⟨groups, by simpa using same, ?_, ?_⟩
  · clear same
    generalize result.foldl _ _ = gs at stands
    induction stands with
    | nil => simp
    | cons first _ ih => exact List.forall_mem_cons.mpr ⟨first.grown, ih⟩
  · clear same
    rw [postProcess]
    generalize result.foldl _ _ = gs at stands
    induction stands with
    | nil => rfl
    | @cons g members gs groups first _ ih =>
      rw [List.filter_cons, List.filter_cons, first.res2]
      split
      · rw [List.map_cons, List.map_cons, ih, first.scale]
      · exact ih

/-! ## Covered rectangles -/

theorem intersect_comm (r rect2 : CRect K) : (r.intersect rect2).2 = (rect2.intersect r).2 := by
  unfold CRect.intersect
  rw [max_comm r.left, max_comm r.top, min_comm r.right, min_comm r.bottom]
  split <;> split <;> first | rfl | (exfalso; tauto)

theorem markCovered_iff (result : List (CRect K)) (covered : Fin result.length → Bool) (i j k : Fin result.length) :
    markCovered result covered i j k = true ↔ covered k = true ∨
      (k = i ∧ (result[i].intersect result[j]).2.size > result[i].size * 0.65 ∨
        k = j ∧ (result[i].intersect result[j]).2.size > result[j].size * 0.65) := by
  have set (c : Prop) [Decidable c] (covered : Fin result.length → Bool) (i : Fin result.length) :
      (if c then Function.update covered i true else covered) k = true ↔ covered k = true ∨ k = i ∧ c := by
    by_cases here : k = i
    · subst here
      by_cases marked : c <;> simp [marked]
    · by_cases marked : c <;> simp [marked, here]
  simp only [markCovered, set, or_assoc]

theorem covered_iff (result : List (CRect K)) (k : Fin result.length) :
    (List.finRange result.length).foldl (fun covered i =>
      ((List.finRange result.length).filter (i < ·)).foldl (fun covered j => markCovered result covered i j) covered)
      (fun _ => false) k = true ↔ ∃ j, j ≠ k ∧ (result[k].intersect result[j]).2.size > result[k].size * 0.65 := by
  have row := fun covered i => foldl_marks_iff _ (markCovered_iff result · i) ((List.finRange result.length).filter (i < ·)) covered
  rw [foldl_marks_iff _ fun covered i k => row covered i k]
  simp only [Bool.false_eq_true, false_or, List.mem_finRange, true_and, List.mem_filter, decide_eq_true_eq]
  constructor
  · rintro ⟨i, j, later, ⟨rfl, more⟩ | ⟨rfl, more⟩⟩
    · exact ⟨j, later.ne', more⟩
    · exact ⟨i, later.ne, by rwa [intersect_comm]⟩
  · rintro ⟨j, other, more⟩
    rcases lt_or_gt_of_ne other with before | later
    · exact ⟨j, k, before, .inr ⟨rfl, by rwa [intersect_comm]⟩⟩
    · exact ⟨k, j, later, .inl ⟨rfl, more⟩⟩

/-- What stays: a rectangle of which no other one covers more than the limit. -/
theorem removeCoveredRectangles_eq (result : List (CRect K)) :
    removeCoveredRectangles result = ((List.finRange result.length).filter fun i =>
      ∀ j, j ≠ i → (result[i].intersect result[j]).2.size ≤ result[i].size * 0.65).map result.get := by
  rw [removeCoveredRectangles]
  refine congrArg (List.map _) (List.filter_congr fun i _ => ?_)
  rw [decide_eq_decide, ← Bool.not_eq_true, covered_iff]
  simp only [not_exists, not_and, not_lt]

end

section
variable {K : Type} [Field K] [LinearOrder K] [IsStrictOrderedRing K]

omit [IsStrictOrderedRing K] in
theorem intersect_self {r : CRect K} (some : ¬ r.Empty) : (r.intersect r).2 = r := by
  have proper := not_or.mp some
  have apart : ¬ (r.Empty ∨ r.Empty ∨ r.left ≥ r.right ∨ r.left ≥ r.right ∨ r.top ≥ r.bottom ∨ r.top ≥ r.bottom) := by
    rintro (empty | empty | flat | flat | flat | flat)
    exacts [some empty, some empty, proper.1 flat, proper.1 flat, proper.2 flat, proper.2 flat]
  rw [CRect.intersect, if_neg apart, max_self, max_self, min_self, min_self]

/-- **What is dropped**: of the rectangles that stay none is covered by another one, and each that goes is covered by one. If
there is a rectangle twice, no copy stays. -/
theorem removeCoveredRectangles_keeps (result : List (CRect K)) :
    (removeCoveredRectangles result).Sublist result ∧
      (removeCoveredRectangles result).Pairwise (fun r rect2 => (r.intersect rect2).2.size ≤ r.size * 0.65 ∧
        (r.intersect rect2).2.size ≤ rect2.size * 0.65) ∧
      (∀ r ∈ result, r ∉ removeCoveredRectangles result →
        ∃ i j, i ≠ j ∧ result.get i = r ∧ (r.intersect (result.get j)).2.size > r.size * 0.65) ∧
      ∀ r, 0 < r.size → 1 < result.count r → r ∉ removeCoveredRectangles result := by
  rw [removeCoveredRectangles_eq]
  refine ⟨?_, ?_, ?_, ?_⟩
  · conv_rhs => rw [← List.map_get_finRange result]
    exact List.filter_sublist.map _
  · rw [List.pairwise_map]
    refine ((List.nodup_finRange _).filter _).imp_of_mem fun {i j} here there apart => ?_
    have first := of_decide_eq_true (List.mem_filter.mp here).2
    have second := of_decide_eq_true (List.mem_filter.mp there).2
    refine ⟨first j apart.symm, ?_⟩
    rw [intersect_comm]
    exact second i apart
  · intro r member out
    obtain ⟨i, rfl⟩ := List.mem_iff_get.mp member
    by_contra free
    refine out (List.mem_map_of_mem (List.mem_filter.mpr ⟨List.mem_finRange i, decide_eq_true fun j other => ?_⟩))
    exact not_lt.mp fun more => free ⟨i, j, other.symm, rfl, more⟩
  · rintro r some twice member
    obtain ⟨i, stays, rfl⟩ := List.mem_map.mp member
    have apart := of_decide_eq_true (List.mem_filter.mp stays).2
    obtain ⟨n, m, less, first, second⟩ :=
      List.duplicate_iff_exists_distinct_get.mp (List.duplicate_iff_two_le_count.mpr twice)
    obtain ⟨j, other, same⟩ : ∃ j, j ≠ i ∧ result.get j = result.get i := by
      by_cases here : n = i
      · exact ⟨m, here ▸ less.ne', second.symm⟩
      · exact ⟨n, here, first.symm⟩
    have full : ¬ (result.get i).Empty := fun empty => some.ne' (if_pos empty)
    have covered := apart j other
    change ((result.get i).intersect (result.get j)).2.size ≤ (result.get i).size * 0.65 at covered
    rw [same, intersect_self full] at covered
    linarith

end

theorem twice_covered : (⟨0, 0, 2, 2⟩ : CRect ℚ) ∉ removeCoveredRectangles [⟨0, 0, 2, 2⟩, ⟨5, 5, 7, 9⟩, ⟨0, 0, 2, 2⟩] :=
  (removeCoveredRectangles_keeps _).2.2.2 _ (by norm_num [CRect.size, CRect.Empty]) (by decide)

/-! ## Means -/

section
variable {K : Type} [Field K] [LinearOrder K] [IsStrictOrderedRing K] {members : List (CRect K)} {f g : CRect K → K}

theorem average_le (le : ∀ r ∈ members, f r ≤ g r) : average f members ≤ average g members :=
  div_le_div_of_nonneg_right (List.sum_le_sum le) (Nat.cast_nonneg _)

theorem average_const (some : members ≠ []) (c : K) : average (fun _ => c) members = c := by
  have length : (members.length : K) ≠ 0 := Nat.cast_ne_zero.mpr (List.length_pos_iff.mpr some).ne'
  simp [average, length]

end

section
variable {K : Type} [Field K] [LinearOrder K]

/-- Each rectangle that is reported costs more detections than `combine_min`. -/
theorem postProcess_length (result : List (CRect K)) (combineMin : Nat) :
    (postProcess result combineMin).length * (combineMin + 1) ≤ result.length := by
  obtain ⟨groups, same, -, means⟩ := postProcess_groups result combineMin
  rw [means, List.length_map, ← same.length_eq, List.length_flatten]
  clear same means
  induction groups with
  | nil => exact Nat.zero_mul _ |>.le
  | cons members groups ih =>
    rw [List.filter_cons, List.map_cons, List.sum_cons]
    split
    · next large =>
      have large : combineMin < members.length := by simpa using large
      rw [List.length_cons, Nat.add_mul, Nat.one_mul]
      omega
    · omega

end

/-! ## What is reported -/

section
variable {K : Type} [Field K] [LinearOrder K]

theorem Merges.union {r resmax : CRect K} (merges : Merges r resmax) : resmax.union r =
    ⟨min resmax.left r.left, min resmax.top r.top, max resmax.right r.right, max resmax.bottom r.bottom⟩ := by
  have meet := merges.1
  unfold CRect.intersect at meet
  split at meet
  · cases meet
  · next apart =>
    obtain ⟨full, full', _⟩ := not_or.mp apart |>.imp_right not_or.mp
    rw [CRect.union, if_neg full', if_neg full]

/-- The members of a group lie in its hull. -/
theorem Grown.in_hull {members : List (CRect K)} (grown : Grown members) : ∀ r ∈ members, (hull members).left ≤ r.left ∧
    (hull members).top ≤ r.top ∧ r.right ≤ (hull members).right ∧ r.bottom ≤ (hull members).bottom := by
  induction grown with
  | one r =>
    intro r' member
    rw [List.mem_singleton.mp member]
    exact ⟨le_rfl, le_rfl, le_rfl, le_rfl⟩
  | @more members r grown merges ih =>
    rw [hull_append grown.ne_nil, merges.union]
    intro r' member
    rcases List.mem_append.mp member with earlier | last
    · obtain ⟨left, top, right, bottom⟩ := ih r' earlier
      exact ⟨min_le_of_left_le left, min_le_of_left_le top, le_max_of_le_left right, le_max_of_le_left bottom⟩
    · rw [List.mem_singleton.mp last]
      exact ⟨min_le_right _ _, min_le_right _ _, le_max_right _ _, le_max_right _ _⟩

/-- **What is reported**: every detection is in one group, a group has only what overlapped the ones before it, and the mean of
each group that is large enough is reported. It lies in the hull of the group. -/
theorem postProcess_reports [IsStrictOrderedRing K] (result : List (CRect K)) (combineMin : Nat) :
    (postProcess result combineMin).length * (combineMin + 1) ≤ result.length ∧
      ∃ groups : List (List (CRect K)), groups.flatten.Perm result ∧
        postProcess result combineMin = (groups.filter fun members => combineMin < members.length).map meanRect ∧
        ∀ members ∈ groups, Grown members ∧ (hull members).left ≤ (meanRect members).left ∧
          (hull members).top ≤ (meanRect members).top ∧ (meanRect members).right ≤ (hull members).right ∧
          (meanRect members).bottom ≤ (hull members).bottom := by
  obtain ⟨groups, same, grown, means⟩ := postProcess_groups result combineMin
  refine ⟨postProcess_length result combineMin, groups, same, by simpa using means, fun members group => ?_⟩
  have some := (grown members group).ne_nil
  have inside := (grown members group).in_hull
  refine ⟨grown members group, ?_, ?_, ?_, ?_⟩
  · exact (average_const some _).symm.trans_le (average_le fun r member => (inside r member).1)
  · exact (average_const some _).symm.trans_le (average_le fun r member => (inside r member).2.1)
  · exact (average_le fun r member => (inside r member).2.2.1).trans_eq (average_const some _)
  · exact (average_le fun r member => (inside r member).2.2.2).trans_eq (average_const some _)

end

theorem three_reported : ∃ groups : List (List (CRect ℚ)), groups.flatten.Perm [⟨0, 0, 9, 9⟩, ⟨1, 0, 10, 9⟩, ⟨2, 0, 11, 9⟩] ∧
    postProcess [⟨0, 0, 9, 9⟩, ⟨1, 0, 10, 9⟩, ⟨2, 0, 11, 9⟩] 2 = (groups.filter fun members => 2 < members.length).map meanRect := by
  obtain ⟨_, groups, same, means, _⟩ :=
    postProcess_reports ([⟨0, 0, 9, 9⟩, ⟨1, 0, 10, 9⟩, ⟨2, 0, 11, 9⟩] : List (CRect ℚ)) 2
  exact ⟨groups, same, means⟩

end VideoDetector.Pvd
