import Mathlib.Data.List.Rotate
import Mathlib.Tactic.Linarith
import VideoDetector.Alg.Targets
import VideoDetector.Lib.Words

/-!
# Overlapping boxes (`merge_overlapped_rect` in `fvd-new/alg-mutilthread/m_arith.cpp`)

A pass joins the first box with every later one that it overlaps enough and puts it behind the others. The number of
boxes is an argument that the function takes by value: its callers go on reading as many entries as before, and find
boxes behind the last one that are left over from earlier passes.
-/

namespace VideoDetector.Alg
set_option autoImplicit false
open Lib

namespace Rect

/-- The box reaches over the other one. -/
def Covers (r g : Rect) : Prop :=
  r.x ≤ g.x ∧ r.y ≤ g.y ∧ g.x + g.width ≤ r.x + r.width ∧ g.y + g.height ≤ r.y + r.height

/-- The smallest box that reaches over some boxes. -/
structure Bounds (r : Rect) (group : List Rect) : Prop where
  inside : ∀ g ∈ group, r.Covers g
  left : ∃ g ∈ group, g.x = r.x
  top : ∃ g ∈ group, g.y = r.y
  right : ∃ g ∈ group, g.x + g.width = r.x + r.width
  bottom : ∃ g ∈ group, g.y + g.height = r.y + r.height

/-- The box has pixels, all of them in an image of this size. -/
structure Within (width height : Int) (r : Rect) : Prop where
  left : 0 ≤ r.x
  top : 0 ≤ r.y
  wide : 0 < r.width
  tall : 0 < r.height
  right : r.x + r.width ≤ width
  bottom : r.y + r.height ≤ height

/-- A box with pixels, the sides of which fit into 16 bits. -/
abbrev InRange (r : Rect) : Prop := r.Within 65535 65535

/-- The boxes share more than so many percent of the smaller one. -/
def OverlapsBy (t : Nat) (r1 r2 : Rect) : Prop :=
  ∃ area, intersection r1 r2 = some area ∧ t * min (r1.width * r1.height) (r2.width * r2.height) < area * 100

end Rect

namespace Merge

/-- `overlapRatio1`, with the products of an `int`. -/
def overlapRatio1 (r1 r2 : Rect) : Int :=
  match intersection r1 r2 with
  | some area =>
    (int32 (area * 100)).tdiv (max 1 (min (int32 (r1.width * r1.height)) (int32 (r2.width * r2.height))))
  | none => 0

/-- The box that two boxes are joined to. -/
def join (r1 r2 : Rect) : Rect :=
  let x11 := uint16 (min r1.x r2.x)
  let y11 := uint16 (min r1.y r2.y)
  let x22 := uint16 (max (r1.x + r1.width) (r2.x + r2.width))
  let y22 := uint16 (max (r1.y + r1.height) (r2.y + r2.height))
  ⟨x11, y11, x22 - x11, y22 - y11⟩

/-- `candidate_roi[0]`, `rect_temp` and `rect_num` in a pass. -/
structure Pass where
  box : Rect
  rectTemp : List Rect
  rectNum : Nat

/-- The body of the inner loop. -/
def mergeRoi (t : Nat) (s : Pass) (r : Rect) : Pass :=
  if t < overlapRatio1 s.box r then { s with box := join s.box r, rectNum := s.rectNum - 1 }
  else { s with rectTemp := s.rectTemp ++ [r] }

/-- The first `candidate_num` entries of `candidate_roi`, the entries behind them, `rect_num` and `i`. -/
structure Merging where
  live : List Rect
  stale : List Rect
  rectNum : Nat
  i : Nat

/-- How the merging fails: `rect_temp` is full. -/
inductive MergeFault where
  | rectTemp
  | unfinished
  deriving DecidableEq, Repr

/-- The entries of `rect_temp`. -/
def rectTempMax : Nat := 100

/-- The body of the outer loop. -/
def mergePass (t : Nat) (s : Merging) : Except MergeFault Merging :=
  match s.live with
  | [] => .ok { s with i := s.i + 1 }
  | first :: rest =>
    let p := rest.foldl (mergeRoi t) ⟨first, [], s.rectNum⟩
    let live := p.rectTemp ++ [p.box]
    if live.length ≤ rectTempMax then .ok ⟨live, (first :: rest ++ s.stale).drop live.length, p.rectNum, s.i + 1⟩
    else .error .rectTemp

/-- The outer loop. -/
def mergeLoop (t : Nat) : Nat → Merging → Except MergeFault Merging
  | 0, _ => .error .unfinished
  | budget + 1, s => do
    if s.i < s.rectNum then
      let s ← mergePass t s
      if s.live.length = 1 then return s else mergeLoop t budget s
    else return s

/-- `merge_overlapped_rect`, with the entries that the caller reads afterwards. -/
def mergeOverlappedRect (t : Nat) (rois : List Rect) : Except MergeFault (List Rect) := do
  let s ← mergeLoop t (rois.length + 1) ⟨rois, [], rois.length, 0⟩
  return s.live ++ s.stale

/-! ## Boxes -/

end Merge

theorem intersection_comm (r1 r2 : Rect) : intersection r1 r2 = intersection r2 r1 := by
  simp only [intersection, max_comm r1.x, max_comm r1.y, min_comm (r1.x + r1.width), min_comm (r1.y + r1.height)]

/-- What two boxes share is part of both. -/
theorem intersection_le {r1 r2 : Rect} {area : Int} (shared : intersection r1 r2 = some area) :
    0 < area ∧ area ≤ r1.width * r1.height ∧ area ≤ r2.width * r2.height := by
  simp only [intersection] at shared
  split at shared
  · next meet =>
    rw [← Option.some.inj shared]
    exact ⟨Int.mul_pos (by omega) (by omega), Int.mul_le_mul (by omega) (by omega) (by omega) (by omega),
      Int.mul_le_mul (by omega) (by omega) (by omega) (by omega)⟩
  · cases shared

namespace Rect

theorem Covers.refl (r : Rect) : r.Covers r := ⟨le_rfl, le_rfl, le_rfl, le_rfl⟩

theorem Covers.trans {a b c : Rect} (first : a.Covers b) (second : b.Covers c) : a.Covers c :=
  ⟨first.1.trans second.1, first.2.1.trans second.2.1, second.2.2.1.trans first.2.2.1, second.2.2.2.trans first.2.2.2⟩

theorem OverlapsBy.symm {t : Nat} {r1 r2 : Rect} (overlap : OverlapsBy t r1 r2) : OverlapsBy t r2 r1 := by
  obtain ⟨area, shared, more⟩ := overlap
  exact ⟨area, by rw [intersection_comm, shared], by rwa [min_comm]⟩

/-- A box shares all of a box that it reaches over. -/
theorem Covers.overlapsBy {r g : Rect} (covers : r.Covers g) (width : 0 < g.width) (height : 0 < g.height) {t : Nat}
    (few : t < 100) : OverlapsBy t r g := by
  obtain ⟨left, top, right, bottom⟩ := covers
  refine ⟨g.width * g.height, ?_, ?_⟩
  · rw [intersection, max_eq_right left, max_eq_right top, min_eq_right right, min_eq_right bottom]
    rw [if_pos ⟨by omega, by omega⟩]
    congr 2 <;> omega
  · have area : 0 < g.width * g.height := Int.mul_pos width height
    have least : min (r.width * r.height) (g.width * g.height) ≤ g.width * g.height := min_le_right _ _
    calc (t : Int) * min (r.width * r.height) (g.width * g.height) ≤ t * (g.width * g.height) :=
          Int.mul_le_mul_of_nonneg_left least (Int.natCast_nonneg t)
      _ < 100 * (g.width * g.height) := Int.mul_lt_mul_of_pos_right (by omega) area
      _ = g.width * g.height * 100 := Int.mul_comm _ _

/-- No part of a box is more than a hundred percent of it. -/
theorem not_overlapsBy {t : Nat} (many : 100 ≤ t) (r1 r2 : Rect) : ¬ OverlapsBy t r1 r2 := by
  rintro ⟨area, shared, more⟩
  obtain ⟨positive, first, second⟩ := intersection_le shared
  have least := le_min first second
  have large : (100 : Int) ≤ t := by exact_mod_cast many
  nlinarith

theorem bounds_self (r : Rect) : r.Bounds [r] := by
  refine ⟨fun g member => ?_, ⟨r, by simp⟩, ⟨r, by simp⟩, ⟨r, by simp⟩, ⟨r, by simp⟩⟩
  rw [List.mem_singleton.mp member]
  exact .refl r

end Rect

namespace Merge

/-- For boxes of less than 21474837 pixels the products are exact. -/
theorem overlapRatio1_eq {r1 r2 : Rect} (small1 : r1.width * r1.height < 21474837)
    (small2 : r2.width * r2.height < 21474837) : overlapRatio1 r1 r2 = Alg.overlapRatio1 r1 r2 := by
  unfold overlapRatio1 Alg.overlapRatio1
  cases shared : intersection r1 r2 with
  | none => rfl
  | some area =>
    obtain ⟨positive, first, second⟩ := intersection_le shared
    have exact (n : Int) (low : 0 ≤ n) (high : n < 2147483648) : int32 n = n := Int.bmod_eq_of_le (by omega) (by omega)
    simp only
    rw [exact _ (by omega) (by omega), exact _ (by omega) (by omega), exact _ (by omega) (by omega)]

/-- The box is the smallest one around some of the given boxes. -/
def Composed (rois : List Rect) (r : Rect) : Prop := ∃ group, group ⊆ rois ∧ r.Bounds group

variable {rois : List Rect}

theorem composed_self {r : Rect} (member : r ∈ rois) : Composed rois r :=
  ⟨[r], List.cons_subset.mpr ⟨member, List.nil_subset rois⟩, r.bounds_self⟩

/-- Boxes in an image stay inside. -/
theorem Composed.within {width height : Int} (inside : ∀ r ∈ rois, r.Within width height) {r : Rect}
    (composed : Composed rois r) : r.Within width height := by
  obtain ⟨group, part, ⟨covering, ⟨a, aIn, aLeft⟩, ⟨b, bIn, bTop⟩, ⟨c, cIn, cRight⟩, ⟨d, dIn, dBottom⟩⟩⟩ := composed
  have first := inside a (part aIn)
  have covers := covering a aIn
  exact ⟨aLeft ▸ first.left, bTop ▸ (inside b (part bIn)).top, by have := first.wide; have := covers.2.2.1; omega,
    by have := first.tall; have := covers.2.2.2; have := covers.2.1; omega, cRight ▸ (inside c (part cIn)).right,
    dBottom ▸ (inside d (part dIn)).bottom⟩

theorem join_eq {r1 r2 : Rect} (range1 : r1.InRange) (range2 : r2.InRange) :
    join r1 r2 = ⟨min r1.x r2.x, min r1.y r2.y, max (r1.x + r1.width) (r2.x + r2.width) - min r1.x r2.x,
      max (r1.y + r1.height) (r2.y + r2.height) - min r1.y r2.y⟩ := by
  obtain ⟨left1, top1, width1, height1, right1, bottom1⟩ := range1
  obtain ⟨left2, top2, width2, height2, right2, bottom2⟩ := range2
  simp only [join]
  rw [uint16_of_lt (by omega) (by omega), uint16_of_lt (by omega) (by omega), uint16_of_lt (by omega) (by omega),
    uint16_of_lt (by omega) (by omega)]

theorem join_covers {r1 r2 : Rect} (range1 : r1.InRange) (range2 : r2.InRange) :
    (join r1 r2).Covers r1 ∧ (join r1 r2).Covers r2 := by
  rw [join_eq range1 range2]
  refine ⟨⟨?_, ?_, ?_, ?_⟩, ?_, ?_, ?_, ?_⟩
  all_goals
    simp only
    omega

theorem Composed.join (ranges : ∀ r ∈ rois, r.InRange) {r1 r2 : Rect} (composed1 : Composed rois r1)
    (composed2 : Composed rois r2) : Composed rois (join r1 r2) := by
  have range1 := composed1.within ranges
  have range2 := composed2.within ranges
  have both := join_covers range1 range2
  obtain ⟨group1, part1, bounds1⟩ := composed1
  obtain ⟨group2, part2, bounds2⟩ := composed2
  refine ⟨group1 ++ group2, List.append_subset.mpr ⟨part1, part2⟩, ?_, ?_, ?_, ?_, ?_⟩
  · intro g member
    rcases List.mem_append.mp member with first | second
    · exact both.1.trans (bounds1.inside g first)
    · exact both.2.trans (bounds2.inside g second)
  all_goals rw [join_eq range1 range2]
  · obtain ⟨a, aIn, aLeft⟩ := bounds1.left
    obtain ⟨b, bIn, bLeft⟩ := bounds2.left
    rcases le_total r1.x r2.x with less | less
    · exact ⟨a, List.mem_append_left _ aIn, by rw [aLeft, min_eq_left less]⟩
    · exact ⟨b, List.mem_append_right _ bIn, by rw [bLeft, min_eq_right less]⟩
  · obtain ⟨a, aIn, aTop⟩ := bounds1.top
    obtain ⟨b, bIn, bTop⟩ := bounds2.top
    rcases le_total r1.y r2.y with less | less
    · exact ⟨a, List.mem_append_left _ aIn, by rw [aTop, min_eq_left less]⟩
    · exact ⟨b, List.mem_append_right _ bIn, by rw [bTop, min_eq_right less]⟩
  · obtain ⟨a, aIn, aRight⟩ := bounds1.right
    obtain ⟨b, bIn, bRight⟩ := bounds2.right
    rcases le_total (r1.x + r1.width) (r2.x + r2.width) with less | less
    · exact ⟨b, List.mem_append_right _ bIn, by simp only; omega⟩
    · exact ⟨a, List.mem_append_left _ aIn, by simp only; omega⟩
  · obtain ⟨a, aIn, aBottom⟩ := bounds1.bottom
    obtain ⟨b, bIn, bBottom⟩ := bounds2.bottom
    rcases le_total (r1.y + r1.height) (r2.y + r2.height) with less | less
    · exact ⟨b, List.mem_append_right _ bIn, by simp only; omega⟩
    · exact ⟨a, List.mem_append_left _ aIn, by simp only; omega⟩

/-! ## A pass -/

/-- The first box is joined with no other one. -/
def Quiet (t : Nat) (box : Rect) (rest : List Rect) : Prop := ∀ r ∈ rest, ¬ (t : Int) < overlapRatio1 box r

theorem mergeRoi_joined {t : Nat} {s : Pass} {r : Rect} (joined : (t : Int) < overlapRatio1 s.box r) :
    mergeRoi t s r = ⟨join s.box r, s.rectTemp, s.rectNum - 1⟩ := if_pos joined

theorem mergeRoi_apart {t : Nat} {s : Pass} {r : Rect} (apart : ¬ (t : Int) < overlapRatio1 s.box r) :
    mergeRoi t s r = ⟨s.box, s.rectTemp ++ [r], s.rectNum⟩ := if_neg apart

theorem mergeRois_quiet {t : Nat} {rest : List Rect} {s : Pass} (quiet : Quiet t s.box rest) :
    rest.foldl (mergeRoi t) s = { s with rectTemp := s.rectTemp ++ rest } := by
  induction rest generalizing s with
  | nil => simp
  | cons r rest ih =>
    obtain ⟨first, later⟩ := List.forall_mem_cons.mp quiet
    rw [List.foldl_cons, mergeRoi_apart first, @ih ⟨s.box, s.rectTemp ++ [r], s.rectNum⟩ later, List.append_assoc,
      List.singleton_append]

theorem mergeRois_length_le (t : Nat) (rest : List Rect) (s : Pass) :
    (rest.foldl (mergeRoi t) s).rectTemp.length ≤ s.rectTemp.length + rest.length := by
  induction rest generalizing s with
  | nil => simp
  | cons r rest ih =>
    have later := ih (mergeRoi t s r)
    have one : (mergeRoi t s r).rectTemp.length ≤ s.rectTemp.length + 1 := by
      by_cases joined : (t : Int) < overlapRatio1 s.box r
      · rw [mergeRoi_joined joined]
        exact Nat.le_succ _
      · rw [mergeRoi_apart joined, List.length_append, List.length_singleton]
    rw [List.foldl_cons, List.length_cons]
    omega

theorem mergeRois_rectNum_le (t : Nat) (rest : List Rect) (s : Pass) : (rest.foldl (mergeRoi t) s).rectNum ≤ s.rectNum := by
  induction rest generalizing s with
  | nil => exact le_rfl
  | cons r rest ih =>
    refine (ih (mergeRoi t s r)).trans ?_
    by_cases joined : (t : Int) < overlapRatio1 s.box r
    · rw [mergeRoi_joined joined]
      exact Nat.sub_le _ _
    · rw [mergeRoi_apart joined]

/-- A box that is joined is missing afterwards. -/
theorem mergeRois_length_lt {t : Nat} {rest : List Rect} {s : Pass} (joined : ¬ Quiet t s.box rest) :
    (rest.foldl (mergeRoi t) s).rectTemp.length < s.rectTemp.length + rest.length := by
  induction rest generalizing s with
  | nil => exact absurd (fun r none => absurd none List.not_mem_nil) joined
  | cons r rest ih =>
    rw [List.foldl_cons, List.length_cons]
    by_cases first : (t : Int) < overlapRatio1 s.box r
    · have later := mergeRois_length_le t rest (mergeRoi t s r)
      rw [mergeRoi_joined first] at later ⊢
      exact Nat.lt_succ_of_le later
    · have more : ¬ Quiet t s.box rest := fun quiet => joined (List.forall_mem_cons.mpr ⟨first, quiet⟩)
      have later := @ih ⟨s.box, s.rectTemp ++ [r], s.rectNum⟩ more
      rw [List.length_append, List.length_singleton] at later
      rw [mergeRoi_apart first]
      omega

/-- What a pass makes of the boxes behind the first one. -/
structure Swallowed (rois : List Rect) (s : Pass) (rest : List Rect) (s' : Pass) : Prop where
  composed : Composed rois s'.box
  grown : s'.box.Covers s.box
  kept : ∀ r ∈ s.rectTemp, r ∈ s'.rectTemp
  placed : ∀ r ∈ rest, r ∈ s'.rectTemp ∨ s'.box.Covers r
  origin : ∀ r ∈ s'.rectTemp, r ∈ s.rectTemp ∨ r ∈ rest

/-- All boxes of a pass are covered after it. -/
theorem Swallowed.covered {s s' : Pass} {rest : List Rect} (swallowed : Swallowed rois s rest s') {l : Rect}
    (member : l ∈ s.box :: rest) : ∃ l' ∈ s'.rectTemp ++ [s'.box], l'.Covers l := by
  rcases List.mem_cons.mp member with rfl | later
  · exact ⟨s'.box, List.mem_append_right _ List.mem_cons_self, swallowed.grown⟩
  · rcases swallowed.placed l later with there | covering
    · exact ⟨l, List.mem_append_left _ there, .refl l⟩
    · exact ⟨s'.box, List.mem_append_right _ List.mem_cons_self, covering⟩

theorem mergeRois_spec (ranges : ∀ r ∈ rois, r.InRange) (t : Nat) {rest : List Rect} {s : Pass} (first : Composed rois s.box)
    (others : ∀ r ∈ rest, Composed rois r) : Swallowed rois s rest (rest.foldl (mergeRoi t) s) := by
  induction rest generalizing s with
  | nil => exact ⟨first, .refl _, fun r member => member, by simp, fun r member => .inl member⟩
  | cons r rest ih =>
    obtain ⟨second, others⟩ := List.forall_mem_cons.mp others
    rw [List.foldl_cons]
    by_cases joined : (t : Int) < overlapRatio1 s.box r
    · rw [mergeRoi_joined joined]
      have both := join_covers (first.within ranges) (second.within ranges)
      have later := @ih ⟨join s.box r, s.rectTemp, s.rectNum - 1⟩ (first.join ranges second) others
      refine ⟨later.composed, later.grown.trans both.1, later.kept, ?_, ?_⟩
      · intro g member
        rcases List.mem_cons.mp member with rfl | member
        · exact .inr (later.grown.trans both.2)
        · exact later.placed g member
      · intro g member
        exact (later.origin g member).imp_right (List.mem_cons_of_mem r)
    · rw [mergeRoi_apart joined]
      have later := @ih ⟨s.box, s.rectTemp ++ [r], s.rectNum⟩ first others
      have there : r ∈ s.rectTemp ++ [r] := List.mem_append_right _ List.mem_cons_self
      refine ⟨later.composed, later.grown, fun g member => later.kept g (List.mem_append_left _ member), ?_, ?_⟩
      · intro g member
        rcases List.mem_cons.mp member with rfl | member
        · exact .inl (later.kept g there)
        · exact later.placed g member
      · intro g member
        rcases later.origin g member with early | late
        · rcases List.mem_append.mp early with early | last
          · exact .inl early
          · exact .inr (List.mem_cons.mpr (.inl (List.mem_singleton.mp last)))
        · exact .inr (List.mem_cons_of_mem r late)

/-- The boxes in the course of the merging: the ones that are left over lie inside the others. -/
structure Kept (rois : List Rect) (s : Merging) : Prop where
  composed : ∀ r ∈ s.live ++ s.stale, Composed rois r
  covered : ∀ r ∈ rois, ∃ l ∈ s.live, l.Covers r
  stale : ∀ r ∈ s.stale, ∃ l ∈ s.live, l.Covers r
  length : (s.live ++ s.stale).length = rois.length
  some : s.live ≠ []

/-- A pass that joins nothing turns the boxes round by one. -/
theorem mergePass_quiet {t : Nat} {s : Merging} {first : Rect} {rest : List Rect} (live : s.live = first :: rest)
    (quiet : Quiet t first rest) (few : rest.length < rectTempMax) :
    mergePass t s = .ok ⟨rest ++ [first], s.stale, s.rectNum, s.i + 1⟩ := by
  have run := mergeRois_quiet (s := ⟨first, [], s.rectNum⟩) quiet
  rw [List.nil_append] at run
  have left : (first :: rest ++ s.stale).drop (rest.length + 1) = s.stale := List.drop_left' rfl
  simp only [mergePass, live, run, List.length_append, List.length_singleton, left]
  exact if_pos few

/-- A pass that joins boxes leaves some over. -/
theorem mergePass_joined {t : Nat} {s s' : Merging} {first : Rect} {rest : List Rect} (live : s.live = first :: rest)
    (joined : ¬ Quiet t first rest) (done : mergePass t s = .ok s') : s'.stale ≠ [] := by
  have less := mergeRois_length_lt (s := ⟨first, [], s.rectNum⟩) joined
  rw [List.length_nil, Nat.zero_add] at less
  simp only [mergePass, live] at done
  split at done
  · cases done
    simp only [ne_eq, List.drop_eq_nil_iff, List.length_append, List.length_cons, List.length_nil]
    omega
  · cases done

/-- **A pass** keeps all boxes covered and the ones left over inside the others. -/
theorem mergePass_spec (ranges : ∀ r ∈ rois, r.InRange) (few : rois.length ≤ rectTempMax) (t : Nat) {s : Merging}
    (kept : Kept rois s) :
    ∃ s', mergePass t s = .ok s' ∧ Kept rois s' ∧ s'.i = s.i + 1 ∧ s'.rectNum ≤ s.rectNum ∧ (s.stale ≠ [] → s'.stale ≠ []) := by
  obtain ⟨composed, covered, stale, length, some⟩ := kept
  obtain ⟨first, rest, live⟩ := List.exists_cons_of_ne_nil some
  rw [live] at composed length
  have others : ∀ r ∈ rest, Composed rois r := fun r member =>
    composed r (List.mem_append_left _ (List.mem_cons_of_mem first member))
  have spec := mergeRois_spec ranges t (s := ⟨first, [], s.rectNum⟩)
    (composed first (List.mem_append_left _ List.mem_cons_self)) others
  have short := mergeRois_length_le t rest ⟨first, [], s.rectNum⟩
  have fewer := mergeRois_rectNum_le t rest ⟨first, [], s.rectNum⟩
  generalize result : rest.foldl (mergeRoi t) ⟨first, [], s.rectNum⟩ = p at spec short fewer
  rw [List.length_nil, Nat.zero_add] at short
  rw [List.length_append, List.length_cons] at length
  have fits : (p.rectTemp ++ [p.box]).length ≤ rectTempMax := by
    rw [List.length_append, List.length_singleton]
    omega
  have moved : ∀ l ∈ s.live, ∃ l' ∈ p.rectTemp ++ [p.box], l'.Covers l := fun l member => spec.covered (live ▸ member)
  refine ⟨⟨p.rectTemp ++ [p.box], (first :: rest ++ s.stale).drop (p.rectTemp ++ [p.box]).length, p.rectNum, s.i + 1⟩,
    ?_, ⟨?_, ?_, ?_, ?_, ?_⟩, rfl, fewer, ?_⟩
  · simp only [mergePass, live, result]
    exact if_pos fits
  · intro r member
    rcases List.mem_append.mp member with now | old
    · rcases List.mem_append.mp now with early | last
      · rcases spec.origin r early with none | member
        · cases none
        · exact others r member
      · rw [List.mem_singleton.mp last]
        exact spec.composed
    · exact composed r (List.mem_of_mem_drop old)
  · intro r member
    obtain ⟨l, there, covering⟩ := covered r member
    obtain ⟨l', there', covering'⟩ := moved l there
    exact ⟨l', there', covering'.trans covering⟩
  · intro r member
    rcases List.mem_append.mp (List.mem_of_mem_drop member) with here | old
    · exact moved r (live ▸ here)
    · obtain ⟨l, there, covering⟩ := stale r old
      obtain ⟨l', there', covering'⟩ := moved l there
      exact ⟨l', there', covering'.trans covering⟩
  · simp only [List.length_append, List.length_drop, List.length_cons, List.length_nil] at *
    omega
  · simp
  · intro left
    have more := List.length_pos_iff.mpr left
    simp only [ne_eq, List.drop_eq_nil_iff, List.length_append, List.length_cons, List.length_nil]
    omega

/-! ## The passes -/

theorem mergeLoop_step {t budget : Nat} {s s₁ : Merging} (more : s.i < s.rectNum) (pass : mergePass t s = .ok s₁) :
    mergeLoop t (budget + 1) s = if s₁.live.length = 1 then .ok s₁ else mergeLoop t budget s₁ := by
  rw [mergeLoop, if_pos more, pass]
  rfl

theorem mergeLoop_end {t budget : Nat} {s : Merging} (last : ¬ s.i < s.rectNum) :
    mergeLoop t (budget + 1) s = .ok s := by
  rw [mergeLoop, if_neg last]
  rfl

/-- **The passes** end, and keep all boxes covered. -/
theorem mergeLoop_spec (ranges : ∀ r ∈ rois, r.InRange) (few : rois.length ≤ rectTempMax) (t : Nat) {budget : Nat}
    {s : Merging} (kept : Kept rois s) (enough : s.rectNum - s.i < budget) :
    ∃ s', mergeLoop t budget s = .ok s' ∧ Kept rois s' ∧ (s.stale ≠ [] → s'.stale ≠ []) := by
  induction budget generalizing s with
  | zero => omega
  | succ budget ih =>
    by_cases more : s.i < s.rectNum
    · obtain ⟨s₁, pass, kept₁, next, fewer, left⟩ := mergePass_spec ranges few t kept
      rw [mergeLoop_step more pass]
      by_cases single : s₁.live.length = 1
      · rw [if_pos single]
        exact ⟨s₁, rfl, kept₁, left⟩
      · rw [if_neg single]
        obtain ⟨s', run, kept', left'⟩ := ih kept₁ (by omega)
        exact ⟨s', run, kept', fun some => left' (left some)⟩
    · exact ⟨s, mergeLoop_end more, kept, fun some => some⟩

/-- The box at some place is joined with no other one. -/
def QuietAt (t : Nat) (live : List Rect) (k : Nat) : Prop :=
  ∀ first rest, live.rotate k = first :: rest → Quiet t first rest

/-- Where nothing is left over at the end, a pass before it left nothing over. -/
theorem mergeLoop_stale (ranges : ∀ r ∈ rois, r.InRange) (few : rois.length ≤ rectTempMax) {t budget : Nat}
    {s s' : Merging} (kept : Kept rois s) (enough : s.rectNum - s.i < budget)
    (done : (if s.live.length = 1 then .ok s else mergeLoop t budget s) = .ok s') (none : s'.stale = []) : s.stale = [] := by
  by_cases single : s.live.length = 1
  · rw [if_pos single] at done
    cases done
    exact none
  · rw [if_neg single] at done
    obtain ⟨s'', run, _, stays⟩ := mergeLoop_spec ranges few t kept enough
    cases done.symm.trans run
    by_contra some
    exact stays some none

/-- Where nothing is left over, all passes have turned the boxes round, and each was compared. -/
theorem mergeLoop_still (ranges : ∀ r ∈ rois, r.InRange) (few : rois.length ≤ rectTempMax) {t budget : Nat}
    {s s' : Merging} (kept : Kept rois s) (enough : s.rectNum - s.i < budget) (done : mergeLoop t budget s = .ok s')
    (none : s'.stale = []) : s'.live.Perm s.live ∧ ∀ k < s.rectNum - s.i, QuietAt t s.live k := by
  induction budget generalizing s with
  | zero => omega
  | succ budget ih =>
    by_cases more : s.i < s.rectNum
    · obtain ⟨s₁, pass, kept₁, next, fewer, _⟩ := mergePass_spec ranges few t kept
      obtain ⟨first, rest, live⟩ := List.exists_cons_of_ne_nil kept.some
      have short : rest.length < rectTempMax := by
        have length := kept.length
        rw [live, List.length_append, List.length_cons] at length
        omega
      rw [mergeLoop_step more pass] at done
      have left : s₁.stale = [] := mergeLoop_stale ranges few kept₁ (show s₁.rectNum - s₁.i < budget by omega) done none
      have quiet : Quiet t first rest := by
        by_contra joined
        exact mergePass_joined live joined pass left
      have turned := mergePass_quiet live quiet short
      cases pass.symm.trans turned
      have rotated : s.live.rotate 1 = rest ++ [first] := by
        rw [live, List.rotate_cons_succ, List.rotate_zero]
      have whole : (rest ++ [first]).Perm s.live := rotated ▸ List.rotate_perm s.live 1
      by_cases single : (rest ++ [first]).length = 1
      · rw [if_pos single] at done
        cases done
        refine ⟨whole, fun k _ f r place => ?_⟩
        have length := congrArg List.length place
        rw [List.length_rotate, ← whole.length_eq, single, List.length_cons] at length
        have empty : r = [] := List.eq_nil_of_length_eq_zero (by omega)
        rw [empty]
        exact fun r none => absurd none List.not_mem_nil
      · rw [if_neg single] at done
        obtain ⟨same, later⟩ := ih kept₁ (show s.rectNum - (s.i + 1) < budget by omega) done
        refine ⟨same.trans whole, fun k place => ?_⟩
        cases k with
        | zero =>
          intro f r there
          rw [List.rotate_zero, live] at there
          cases there
          exact quiet
        | succ k =>
          have earlier := later k (show k < s.rectNum - (s.i + 1) by omega)
          simp only [QuietAt, ← rotated, List.rotate_rotate, Nat.add_comm 1 k] at earlier
          exact earlier
    · rw [mergeLoop_end more] at done
      cases done
      exact ⟨.refl _, fun k place => absurd place (by omega)⟩

/-- No box is joined with another one, by what the source computes. -/
def Separate (t : Nat) (a b : Rect) : Prop := ¬ (t : Int) < overlapRatio1 a b

theorem Separate.symm {t : Nat} {a b : Rect} (apart : Separate t a b) : Separate t b a := by
  unfold Separate overlapRatio1 at *
  rwa [intersection_comm, min_comm]

/-- Boxes of which no two are joined are all left. -/
theorem mergeLoop_separate {t budget : Nat} {s s' : Merging} (separate : s.live.Pairwise (Separate t))
    (few : s.live.length ≤ rectTempMax) (some : s.live ≠ []) (none : s.stale = []) (done : mergeLoop t budget s = .ok s') :
    s'.stale = [] := by
  induction budget generalizing s with
  | zero => cases done
  | succ budget ih =>
    by_cases more : s.i < s.rectNum
    · obtain ⟨first, rest, live⟩ := List.exists_cons_of_ne_nil some
      rw [live] at separate few
      have turned := mergePass_quiet live (List.pairwise_cons.mp separate).1 few
      rw [mergeLoop_step more turned] at done
      have whole : (rest ++ [first]).Perm (first :: rest) := List.perm_append_singleton first rest
      by_cases single : (rest ++ [first]).length = 1
      · rw [if_pos single] at done
        cases done
        exact none
      · rw [if_neg single] at done
        have separate' : (rest ++ [first]).Pairwise (Separate t) := (whole.pairwise_iff Separate.symm).mpr separate
        exact @ih ⟨rest ++ [first], s.stale, s.rectNum, s.i + 1⟩ separate' (whole.length_eq.trans_le few) (by simp) none done
    · rw [mergeLoop_end more] at done
      cases done
      exact none

/-- Boxes each of which was compared with all others. -/
theorem separate_of_quietAt {t : Nat} {live : List Rect} (quiet : ∀ k < live.length, QuietAt t live k) :
    live.Pairwise (Separate t) := by
  rw [List.pairwise_iff_getElem]
  intro i j hi hj less
  have place : live.rotate i = live[i] :: (live.drop (i + 1) ++ live.take i) := by
    rw [List.rotate_eq_drop_append_take (Nat.le_of_lt hi), List.drop_eq_getElem_cons hi, List.cons_append]
  have later : live[j] ∈ live.drop (i + 1) := List.mem_drop_iff_getElem.mpr ⟨j - (i + 1), by omega, by congr 1; omega⟩
  exact quiet i hi _ _ place live[j] (List.mem_append_left _ later)

/-! ## What the callers see -/

/-- What a caller is to see: all boxes are covered, no two boxes overlap by more than the percentage, and each is the
smallest box around some of those given. -/
structure Merged (t : Nat) (rois seen : List Rect) : Prop where
  covered : ∀ r ∈ rois, ∃ l ∈ seen, l.Covers r
  apart : seen.Pairwise fun a b => ¬ Rect.OverlapsBy t a b
  composed : ∀ r ∈ seen, Composed rois r

theorem Kept.initial (some : rois ≠ []) : Kept rois ⟨rois, [], rois.length, 0⟩ where
  composed r member := composed_self (List.append_nil rois ▸ member)
  covered r member := ⟨r, member, .refl r⟩
  stale r member := absurd member List.not_mem_nil
  length := by rw [List.append_nil]
  some := some

/-- **The merging ends**, and each box that is read afterwards is the smallest one around some of those given. -/
theorem mergeOverlappedRect_ok (t : Nat) (few : rois.length ≤ rectTempMax) (ranges : ∀ r ∈ rois, r.InRange) :
    ∃ seen, mergeOverlappedRect t rois = .ok seen ∧ seen.length = rois.length ∧ ∀ r ∈ seen, Composed rois r := by
  by_cases empty : rois = []
  · subst empty
    exact ⟨[], rfl, rfl, by simp⟩
  · have enough : rois.length - 0 < rois.length + 1 := by omega
    obtain ⟨s, run, kept, _⟩ := mergeLoop_spec ranges few t (Kept.initial empty) enough
    refine ⟨s.live ++ s.stale, ?_, kept.length, kept.composed⟩
    rw [mergeOverlappedRect, run]
    rfl

/-- With a box left over there are two boxes of which one lies inside the other. -/
theorem Kept.overlap (ranges : ∀ r ∈ rois, r.InRange) {t : Nat} (few : t < 100) {s : Merging} (kept : Kept rois s)
    (left : s.stale ≠ []) : ¬ (s.live ++ s.stale).Pairwise fun a b => ¬ Rect.OverlapsBy t a b := by
  intro apart
  obtain ⟨r, member⟩ := List.exists_mem_of_ne_nil s.stale left
  obtain ⟨l, there, covering⟩ := kept.stale r member
  have range := (kept.composed r (List.mem_append_right _ member)).within ranges
  exact (List.pairwise_append.mp apart).2.2 l there r member (covering.overlapsBy range.wide range.tall few)

/-- **The merging**: the callers see what they are to see exactly if no two boxes overlap by more than the percentage,
neither in fact nor by what the source computes. -/
theorem merged_iff (t : Nat) (rois : List Rect) (few : rois.length ≤ 100) (ranges : ∀ r ∈ rois, r.InRange) :
    (∃ seen, mergeOverlappedRect t rois = .ok seen ∧ Merged t rois seen) ↔
      100 ≤ t ∨ rois.Pairwise fun a b => ¬ Rect.OverlapsBy t a b ∧ ¬ (t : Int) < overlapRatio1 a b := by
  by_cases empty : rois = []
  · subst empty
    exact iff_of_true ⟨[], rfl, by simp, .nil, by simp⟩ (.inr .nil)
  · have kept := Kept.initial empty
    have enough : rois.length - 0 < rois.length + 1 := by omega
    obtain ⟨s, run, kept', _⟩ := mergeLoop_spec ranges few t kept enough
    have result : mergeOverlappedRect t rois = .ok (s.live ++ s.stale) := by
      rw [mergeOverlappedRect, run]
      rfl
    have merged : Merged t rois (s.live ++ s.stale) ↔ (s.live ++ s.stale).Pairwise fun a b => ¬ Rect.OverlapsBy t a b := by
      refine ⟨Merged.apart, fun apart => ⟨fun r member => ?_, apart, kept'.composed⟩⟩
      obtain ⟨l, there, covering⟩ := kept'.covered r member
      exact ⟨l, List.mem_append_left _ there, covering⟩
    rw [ok_iff result, merged]
    by_cases many : 100 ≤ t
    · refine iff_of_true ?_ (.inl many)
      exact List.pairwise_of_forall (Rect.not_overlapsBy many)
    · rw [or_iff_right many, List.pairwise_and_iff]
      constructor
      · intro apart
        have none : s.stale = [] := by
          by_contra left
          exact kept'.overlap ranges (Nat.lt_of_not_le many) left apart
        obtain ⟨same, quiet⟩ := mergeLoop_still ranges few kept enough run none
        rw [none, List.append_nil] at apart
        refine ⟨(same.pairwise_iff ?_).mp apart, separate_of_quietAt quiet⟩
        exact fun apart overlap => apart overlap.symm
      · rintro ⟨apart, separate⟩
        have each : rois.Pairwise (Separate t) := separate
        have none := mergeLoop_separate (s := ⟨rois, [], rois.length, 0⟩) each few empty rfl run
        obtain ⟨same, _⟩ := mergeLoop_still ranges few kept enough run none
        rw [none, List.append_nil]
        exact (same.pairwise_iff fun apart overlap => apart overlap.symm).mpr apart

/-- Two detections at different places stay as they are. -/
theorem twoVehicles_merged :
    ∃ seen, mergeOverlappedRect 50 [⟨0, 0, 32, 40⟩, ⟨64, 0, 32, 40⟩] = .ok seen ∧
      Merged 50 [⟨0, 0, 32, 40⟩, ⟨64, 0, 32, 40⟩] seen := by
  refine (merged_iff 50 _ (by decide) ?_).mpr (.inr ?_)
  · intro r member
    rcases List.mem_pair.mp member with rfl | rfl
    · exact ⟨by decide, by decide, by decide, by decide, by decide, by decide⟩
    · exact ⟨by decide, by decide, by decide, by decide, by decide, by decide⟩
  · refine List.pairwise_pair.mpr ⟨?_, by decide⟩
    rintro ⟨area, shared, _⟩
    cases shared

/-- Two detections of one vehicle are both still seen. -/
theorem oneVehicle_seen_twice :
    mergeOverlappedRect 50 [⟨0, 0, 32, 40⟩, ⟨2, 2, 32, 40⟩] = .ok [⟨0, 0, 34, 42⟩, ⟨2, 2, 32, 40⟩] ∧
      ¬ ∃ seen, mergeOverlappedRect 50 [⟨0, 0, 32, 40⟩, ⟨2, 2, 32, 40⟩] = .ok seen ∧
        Merged 50 [⟨0, 0, 32, 40⟩, ⟨2, 2, 32, 40⟩] seen := by
  have run : mergeOverlappedRect 50 [⟨0, 0, 32, 40⟩, ⟨2, 2, 32, 40⟩] = .ok [⟨0, 0, 34, 42⟩, ⟨2, 2, 32, 40⟩] := rfl
  refine ⟨run, ?_⟩
  rw [ok_iff run]
  intro merged
  exact List.pairwise_pair.mp merged.apart ⟨32 * 40, rfl, by decide⟩

end Merge

end VideoDetector.Alg
