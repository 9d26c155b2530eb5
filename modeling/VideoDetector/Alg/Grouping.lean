import Mathlib.Algebra.BigOperators.Fin
import Mathlib.Algebra.Order.BigOperators.Group.Finset
import Mathlib.Algebra.Order.Floor.Ring
import Mathlib.Data.Rat.Floor
import VideoDetector.Alg.Partition
import VideoDetector.Alg.Targets
import VideoDetector.Lib.Classes

/-!
# Grouping detections (`groupRectangles` in `fvd-new/alg-mutilthread/cascadedetect.cpp`)

Detections that are similar, directly or through others, are one group, and a group with enough members is reported by the mean
of its members unless a larger group covers it. The `float`s and `double`s are numbers of an ordered field. `groupRectangles_reports`
says what is reported, in terms of the classes of similar detections, so the order of the detections is irrelevant
(`groupRectangles_perm`); `groupRectangles_reports_iff` says when anything is.
-/

namespace VideoDetector.Alg
set_option autoImplicit false
open Lib

section
variable {K : Type} [Field K] [LinearOrder K]

/-- `cvRound`: a half goes to the even neighbour. -/
def cvRound [FloorRing K] (value : K) : Int :=
  let twice := Int.fract value + Int.fract value
  if twice < 1 ∨ twice = 1 ∧ ⌊value⌋ % 2 = 0 then ⌊value⌋ else ⌊value⌋ + 1

/-- `SimilarRects`. -/
def similarRects (eps : K) (r1 r2 : Rect) : Bool :=
  let delta := eps * ((min r1.width r2.width + min r1.height r2.height : Int) : K) / ((2 : Nat) : K)
  ((|r1.x - r2.x| : Int) : K) ≤ delta ∧ ((|r1.y - r2.y| : Int) : K) ≤ delta ∧
    ((|r1.x + r1.width - r2.x - r2.width| : Int) : K) ≤ delta ∧ ((|r1.y + r1.height - r2.y - r2.height| : Int) : K) ≤ delta

/-- The entries of `rrects` and `rweights` at one index. -/
structure RectGroup where
  rect : Rect
  weight : Int
  deriving DecidableEq, Repr

inductive GroupFault where
  | partition (fault : PartitionFault)
  | outside

/-- The body of the loop over the labels. -/
def addMember (rectList : List Rect) (nclasses : Nat) (labels : Fin rectList.length → Int) (groups : Int → RectGroup)
    (i : Fin rectList.length) : Except GroupFault (Int → RectGroup) :=
  let cls := labels i
  if 0 ≤ cls ∧ cls < nclasses then
    let g := groups cls
    let r := rectList.get i
    .ok (Function.update groups cls
      ⟨⟨g.rect.x + r.x, g.rect.y + r.y, g.rect.width + r.width, g.rect.height + r.height⟩, g.weight + 1⟩)
  else .error .outside

variable [FloorRing K]

/-- The body of the loop that divides the sums. -/
def RectGroup.mean (K : Type) [Field K] [LinearOrder K] [FloorRing K] (g : RectGroup) : RectGroup :=
  let s := 1 / (g.weight : K)
  ⟨⟨cvRound (g.rect.x * s), cvRound (g.rect.y * s), cvRound (g.rect.width * s), cvRound (g.rect.height * s)⟩, g.weight⟩

/-- "filter out small face rectangles inside large rectangles" -/
def suppresses (eps : K) (g1 g2 : RectGroup) : Bool :=
  let r1 := g1.rect
  let r2 := g2.rect
  let dx := cvRound (r2.width * eps)
  let dy := cvRound (r2.height * eps)
  r1.x ≥ r2.x - dx ∧ r1.y ≥ r2.y - dy ∧ r1.x + r1.width ≤ r2.x + r2.width + dx ∧ r1.y + r1.height ≤ r2.y + r2.height + dy ∧
    (g2.weight > max 3 g1.weight ∨ g1.weight < 3)

/-- Whether the group with index `i` is reported: the loop over `j` comes to its end. -/
def reported (groups : Nat → RectGroup) (nclasses : Nat) (groupThreshold : Int) (eps : K) (i : Nat) : Bool :=
  ¬ (groups i).weight ≤ groupThreshold ∧
    ¬ (List.range nclasses).any fun j => ¬ (j = i ∨ (groups j).weight ≤ groupThreshold) ∧ suppresses eps (groups i) (groups j)

/-- `groupRectangles`: `rectList` and `weights`. -/
def groupRectangles (rectList : List Rect) (groupThreshold : Int) (eps : K) : Except GroupFault (List RectGroup) :=
  if groupThreshold ≤ 0 ∨ rectList = [] then .ok (rectList.map fun r => ⟨r, 1⟩)
  else do
    let classes ← (partition rectList (similarRects eps)).mapError .partition
    let sums ← (List.finRange rectList.length).foldlM (addMember rectList classes.1 classes.2) fun _ => ⟨⟨0, 0, 0, 0⟩, 0⟩
    let groups := fun j : Nat => (sums j).mean K
    return ((List.range classes.1).filter (reported groups classes.1 groupThreshold eps)).map groups

end

/-! ## What is reported -/

section
variable {K : Type} [Field K] [LinearOrder K]

/-- The detections with these indices are similar. -/
def Similar (rectList : List Rect) (eps : K) (i j : Fin rectList.length) : Prop :=
  similarRects eps (rectList.get i) (rectList.get j) = true

theorem alike_iff {rectList : List Rect} {eps : K} {i j : Fin rectList.length} :
    Alike (fun i j => similarRects eps (rectList.get i) (rectList.get j)) i j ↔ Relation.EqvGen (Similar rectList eps) i j := by
  constructor <;> intro related
  · exact related.mono fun _ _ both => both.2
  · induction related with
    | rel i j similar =>
      by_cases same : i = j
      · exact same ▸ .refl i
      · exact .rel i j ⟨same, similar⟩
    | refl i => exact .refl i
    | symm i j _ ih => exact ih.symm _ _
    | trans i j k _ _ first second => exact first.trans _ _ _ second

variable [FloorRing K]

/-- The mean of a coordinate. -/
def meanOf (K : Type) [Field K] [LinearOrder K] [FloorRing K] (f : Rect → Int) (rectList : List Rect)
    (C : Finset (Fin rectList.length)) : Int :=
  cvRound (((∑ i ∈ C, f (rectList.get i) : Int) : K) / ((C.card : Int) : K))

/-- What stands for a class. -/
def report (K : Type) [Field K] [LinearOrder K] [FloorRing K] (rectList : List Rect) (C : Finset (Fin rectList.length)) : RectGroup :=
  ⟨⟨meanOf K Rect.x rectList C, meanOf K Rect.y rectList C, meanOf K Rect.width rectList C, meanOf K Rect.height rectList C⟩, C.card⟩

/-- A class that is large enough and not covered by another one. -/
def KeptClass (rectList : List Rect) (groupThreshold : Int) (eps : K) (C : Finset (Fin rectList.length)) : Prop :=
  groupThreshold < C.card ∧ ∀ D ∈ classes (Similar rectList eps), D ≠ C → groupThreshold < D.card →
    suppresses eps (report K rectList C) (report K rectList D) = false

open Classical in
noncomputable def keptClasses (rectList : List Rect) (groupThreshold : Int) (eps : K) : Finset (Finset (Fin rectList.length)) :=
  (classes (Similar rectList eps)).filter (KeptClass rectList groupThreshold eps)

/-! ## The sums -/

/-- The sum over the elements with one label. -/
def labelSum {N : Nat} (labels : Fin N → Int) (f : Fin N → Int) (before : List (Fin N)) (cls : Int) : Int :=
  (before.map fun i => if labels i = cls then f i else 0).sum

theorem labelSum_snoc {N : Nat} (labels : Fin N → Int) (f : Fin N → Int) (before : List (Fin N)) (i : Fin N) (cls : Int) :
    labelSum labels f (before ++ [i]) cls = labelSum labels f before cls + if labels i = cls then f i else 0 := by
  simp [labelSum]

theorem labelSum_all {N : Nat} (labels : Fin N → Int) (f : Fin N → Int) (cls : Int) :
    labelSum labels f (List.finRange N) cls = ∑ i with labels i = cls, f i := by
  rw [labelSum, Finset.sum_filter, Fin.sum_univ_def]

variable {rectList : List Rect} {nclasses : Nat} {labels : Fin rectList.length → Int}

/-- The entry for a label after some elements. -/
def sumGroup (labels : Fin rectList.length → Int) (before : List (Fin rectList.length)) (cls : Int) : RectGroup :=
  ⟨⟨labelSum labels (fun i => (rectList.get i).x) before cls, labelSum labels (fun i => (rectList.get i).y) before cls,
    labelSum labels (fun i => (rectList.get i).width) before cls, labelSum labels (fun i => (rectList.get i).height) before cls⟩,
    labelSum labels (fun _ => 1) before cls⟩

theorem addMember_ok (within : ∀ i, 0 ≤ labels i ∧ labels i < nclasses) (before : List (Fin rectList.length)) (i : Fin rectList.length) :
    addMember rectList nclasses labels (sumGroup labels before) i = .ok (sumGroup labels (before ++ [i])) := by
  rw [addMember]
  simp only
  rw [if_pos (within i)]
  congr 1
  funext cls
  by_cases own : cls = labels i
  · subst own
    simp [sumGroup, labelSum_snoc]
  · rw [Function.update_of_ne own]
    simp [sumGroup, labelSum_snoc, Ne.symm own]

theorem addMembers_ok (within : ∀ i, 0 ≤ labels i ∧ labels i < nclasses) :
    (List.finRange rectList.length).foldlM (addMember rectList nclasses labels) (fun _ => ⟨⟨0, 0, 0, 0⟩, 0⟩) =
      .ok (sumGroup labels (List.finRange rectList.length)) := by
  obtain ⟨sums, run, same⟩ := @foldlM_prefix_ok _ _ _ (addMember rectList nclasses labels) (List.finRange rectList.length)
    (fun _ => ⟨⟨0, 0, 0, 0⟩, 0⟩) (fun before sums => sums = sumGroup labels before)
    (fun before i _ sums _ same => ⟨_, same ▸ addMember_ok within before i, rfl⟩) rfl
  rw [run, same]

theorem mean_sumGroup (cls : Int) :
    (sumGroup labels (List.finRange rectList.length) cls).mean K = report K rectList (Finset.univ.filter fun i => labels i = cls) := by
  have number : labelSum labels (fun _ => 1) (List.finRange rectList.length) cls = ((Finset.univ.filter fun i => labels i = cls).card : Int) := by
    rw [labelSum_all, Finset.sum_const, nsmul_one]
  simp only [RectGroup.mean, sumGroup, report, meanOf, number, labelSum_all, mul_one_div]

/-! ## The classes -/

/-- The labels in their order are those of the classes. -/
theorem Classes.names_ok {N nclasses : Nat} {predicate : Fin N → Fin N → Bool} {labels : Fin N → Int}
    (numbered : Classes predicate nclasses labels) (c : Int) : c ∈ (List.range nclasses).map Nat.cast ↔ ∃ i, labels i = c := by
  rw [List.mem_map]
  constructor
  · rintro ⟨n, member, rfl⟩
    obtain ⟨i, same, _⟩ := numbered.first n (List.mem_range.mp member)
    exact ⟨i, same⟩
  · rintro ⟨i, rfl⟩
    have low := numbered.nonneg i
    have high := numbered.below i
    exact ⟨(labels i).toNat, List.mem_range.mpr (by omega), Int.toNat_of_nonneg low⟩

/-- The elements with one label. -/
def labelled {N : Nat} (labels : Fin N → Int) (c : Nat) : Finset (Fin N) := Finset.univ.filter fun i => labels i = c

theorem labelled_injective {N nclasses : Nat} {predicate : Fin N → Fin N → Bool} {labels : Fin N → Int}
    (numbered : Classes predicate nclasses labels) {c d : Nat} (low : c < nclasses) (same : labelled labels c = labelled labels d) :
    c = d := by
  obtain ⟨i, own, _⟩ := numbered.first c low
  have member : i ∈ labelled labels c := by simp [labelled, own]
  rw [same, labelled, Finset.mem_filter] at member
  omega

variable {groupThreshold : Int} {eps : K}

omit [FloorRing K] in
theorem classes_val_eq (numbered : Classes (fun i j => similarRects eps (rectList.get i) (rectList.get j)) nclasses labels) :
    (classes (Similar rectList eps)).val = (List.range nclasses).map (labelled labels) := by
  have equal := classes_val_of_labels (fun i j => (numbered.same i j).trans alike_iff)
    (List.nodup_range.map Nat.cast_injective) numbered.names_ok
  rw [equal, List.map_map]
  rfl

/-- The loop over `j` looks at the other classes. -/
theorem reported_iff (numbered : Classes (fun i j => similarRects eps (rectList.get i) (rectList.get j)) nclasses labels)
    {c : Nat} :
    reported (fun j => report K rectList (labelled labels j)) nclasses groupThreshold eps c = true ↔
      KeptClass rectList groupThreshold eps (labelled labels c) := by
  have listed {D : Finset (Fin rectList.length)} : D ∈ classes (Similar rectList eps) ↔ ∃ d < nclasses, labelled labels d = D := by
    rw [← Finset.mem_val, classes_val_eq numbered]
    simp
  simp only [reported, decide_eq_true_eq, not_le, List.any_eq_true, List.mem_range, not_exists, not_and]
  refine and_congr Iff.rfl ⟨fun none D member other large => ?_, fun none d low' others covers => ?_⟩
  · obtain ⟨d, low', rfl⟩ := listed.mp member
    have apart : d ≠ c := fun same => other (same ▸ rfl)
    exact Bool.eq_false_iff.mpr (none d low' (not_or.mpr ⟨apart, not_le.mpr large⟩))
  · obtain ⟨apart, large⟩ := not_or.mp others
    have different : labelled labels d ≠ labelled labels c := fun same => apart (labelled_injective numbered low' same)
    rw [none _ (listed.mpr ⟨d, low', rfl⟩) different (not_le.mp large)] at covers
    cases covers

/-- The run with the labels of `partition`. -/
theorem groupRectangles_run (some : 0 < groupThreshold) (nonempty : rectList ≠ [])
    (run : partition rectList (similarRects eps) = .ok (nclasses, labels)) (within : ∀ i, 0 ≤ labels i ∧ labels i < nclasses) :
    groupRectangles rectList groupThreshold eps =
      .ok (((List.range nclasses).filter
        (reported (fun j => report K rectList (labelled labels j)) nclasses groupThreshold eps)).map fun j =>
          report K rectList (labelled labels j)) := by
  have groups : (fun j : Nat => (sumGroup labels (List.finRange rectList.length) j).mean K) =
      fun j => report K rectList (labelled labels j) := funext fun j => mean_sumGroup j
  rw [groupRectangles, if_neg (not_or.mpr ⟨not_le.mpr some, nonempty⟩), run]
  change ((List.finRange rectList.length).foldlM (addMember rectList nclasses labels) (fun _ => ⟨⟨0, 0, 0, 0⟩, 0⟩) >>= fun sums =>
    Except.ok (((List.range nclasses).filter (reported (fun j : Nat => (sums j).mean K) nclasses groupThreshold eps)).map
      fun j : Nat => (sums j).mean K)) = _
  rw [addMembers_ok within]
  exact groups ▸ rfl

/-- **What is reported**: the kept classes. -/
theorem groupRectangles_ok (rectList : List Rect) (eps : K) (some : 0 < groupThreshold) :
    ∃ out, groupRectangles rectList groupThreshold eps = .ok out ∧
      (out : Multiset RectGroup) = (keptClasses rectList groupThreshold eps).val.map (report K rectList) := by
  by_cases empty : rectList = []
  · subst empty
    refine ⟨[], by rw [groupRectangles, if_pos (.inr rfl)]; rfl, ?_⟩
    simp [keptClasses, classes]
  · obtain ⟨nclasses, labels, run, numbered⟩ := partition_ok rectList (similarRects eps)
    refine ⟨_, groupRectangles_run some empty run fun i => ⟨numbered.nonneg i, numbered.below i⟩, ?_⟩
    classical
    rw [keptClasses, Finset.filter_val, classes_val_eq numbered, Multiset.filter_coe, Multiset.map_coe, List.filter_map, List.map_map]
    congr 2
    refine List.filter_congr fun c _ => ?_
    exact Bool.eq_iff_iff.mpr ((reported_iff numbered).trans (by simp))

/-- A report is a detection or a mean of detections. -/
theorem groupRectangles_means (rectList : List Rect) (groupThreshold : Int) (eps : K) :
    ∃ out, groupRectangles rectList groupThreshold eps = .ok out ∧
      ∀ g ∈ out, g.rect ∈ rectList ∨ ∃ C : Finset (Fin rectList.length), 0 < C.card ∧ g = report K rectList C := by
  by_cases some : 0 < groupThreshold
  · obtain ⟨out, run, all⟩ := groupRectangles_ok rectList eps some
    refine ⟨out, run, fun g member => .inr ?_⟩
    rw [← Multiset.mem_coe, all, Multiset.mem_map] at member
    obtain ⟨C, kept, rfl⟩ := member
    classical
    exact ⟨C, classes_card_pos (Finset.mem_filter.mp (Finset.mem_val.mp kept)).1, rfl⟩
  · refine ⟨_, if_pos (.inl (not_lt.mp some)), fun g member => .inl ?_⟩
    obtain ⟨r, own, rfl⟩ := List.mem_map.mp member
    exact own

/-! ## The order of the detections -/

section
variable {rectList' : List Rect} {e : Fin rectList.length ≃ Fin rectList'.length}

theorem meanOf_map (same : ∀ i, rectList'.get (e i) = rectList.get i) (f : Rect → Int) (C : Finset (Fin rectList.length)) :
    meanOf K f rectList' (C.map e.toEmbedding) = meanOf K f rectList C := by
  rw [meanOf, meanOf, Finset.sum_map, Finset.card_map]
  simp only [Equiv.coe_toEmbedding, same]

theorem report_map (same : ∀ i, rectList'.get (e i) = rectList.get i) (C : Finset (Fin rectList.length)) :
    report K rectList' (C.map e.toEmbedding) = report K rectList C := by
  simp only [report, meanOf_map same, Finset.card_map]

omit [FloorRing K] in
theorem similar_map (same : ∀ i, rectList'.get (e i) = rectList.get i) (i j : Fin rectList.length) :
    Similar rectList' eps (e i) (e j) ↔ Similar rectList eps i j := by
  rw [Similar, Similar, same, same]

theorem kept_map (same : ∀ i, rectList'.get (e i) = rectList.get i) (C : Finset (Fin rectList.length)) :
    KeptClass rectList' groupThreshold eps (C.map e.toEmbedding) ↔ KeptClass rectList groupThreshold eps C := by
  have listed {D : Finset (Fin rectList'.length)} :
      D ∈ classes (Similar rectList' eps) ↔ ∃ D' ∈ classes (Similar rectList eps), D'.map e.toEmbedding = D := by
    rw [← Finset.mem_val, classes_val_map e (similar_map same), Multiset.mem_map]
    rfl
  rw [KeptClass, KeptClass, Finset.card_map, report_map same]
  refine and_congr Iff.rfl ⟨fun none D member other large => ?_, fun none D member other large => ?_⟩
  · rw [← report_map same D]
    refine none _ (listed.mpr ⟨D, member, rfl⟩) (fun equal => other (Finset.map_injective _ equal)) ?_
    rwa [Finset.card_map]
  · obtain ⟨D, own, rfl⟩ := listed.mp member
    rw [report_map same]
    rw [Finset.card_map] at large
    exact none D own (fun equal => other (equal ▸ rfl)) large

theorem keptClasses_map (same : ∀ i, rectList'.get (e i) = rectList.get i) :
    (keptClasses rectList' groupThreshold eps).val.map (report K rectList') =
      (keptClasses rectList groupThreshold eps).val.map (report K rectList) := by
  classical
  rw [keptClasses, keptClasses, Finset.filter_val, Finset.filter_val, classes_val_map e (similar_map same), Multiset.filter_map,
    Multiset.map_map]
  have kept : KeptClass rectList' groupThreshold eps ∘ Finset.map e.toEmbedding = KeptClass rectList groupThreshold eps :=
    funext fun C => propext (kept_map same C)
  have reports : report K rectList' ∘ Finset.map e.toEmbedding = report K rectList := funext (report_map same)
  rw [reports]
  congr 1
  exact Multiset.filter_congr fun C _ => iff_of_eq (congrFun kept C)

end

/-- **The order is irrelevant**: detections in another order, for example from other threads, give the same reports. -/
theorem groupRectangles_perm {rectList rectList' : List Rect} (same : rectList.Perm rectList') (groupThreshold : Int) (eps : K) :
    ∃ out out', groupRectangles rectList groupThreshold eps = .ok out ∧ groupRectangles rectList' groupThreshold eps = .ok out' ∧
      out.Perm out' := by
  by_cases some : 0 < groupThreshold
  · obtain ⟨out, run, all⟩ := groupRectangles_ok rectList eps some
    obtain ⟨out', run', all'⟩ := groupRectangles_ok rectList' eps some
    obtain ⟨e, images⟩ := exists_equiv_of_perm same
    refine ⟨out, out', run, run', Multiset.coe_eq_coe.mp ?_⟩
    rw [all, all', keptClasses_map images]
  · have none : groupThreshold ≤ 0 := not_lt.mp some
    exact ⟨_, _, if_pos (.inl none), if_pos (.inl none), same.map _⟩

theorem swapped_reports : ∃ out out', groupRectangles [⟨0, 0, 40, 50⟩, ⟨1, 0, 40, 50⟩, ⟨90, 9, 40, 50⟩] 1 (1 / 5 : ℚ) = .ok out ∧
    groupRectangles [⟨1, 0, 40, 50⟩, ⟨0, 0, 40, 50⟩, ⟨90, 9, 40, 50⟩] 1 (1 / 5 : ℚ) = .ok out' ∧ out.Perm out' :=
  groupRectangles_perm (List.Perm.swap _ _ _) 1 _

/-! ## Nothing is reported -/

theorem exists_kept (several : 2 ≤ groupThreshold) {C : Finset (Fin rectList.length)} (member : C ∈ classes (Similar rectList eps))
    (large : groupThreshold < C.card) : ∃ D, D ∈ keptClasses rectList groupThreshold eps := by
  classical
  obtain ⟨D, listed, greatest⟩ := Finset.exists_max_image (classes (Similar rectList eps)) Finset.card ⟨C, member⟩
  have atLeast : C.card ≤ D.card := greatest C member
  refine ⟨D, Finset.mem_filter.mpr ⟨listed, by omega, fun E other _ _ => ?_⟩⟩
  have atMost : E.card ≤ D.card := greatest E other
  have small : ¬ ((E.card : Int) > max 3 (D.card : Int) ∨ (D.card : Int) < 3) := by omega
  simp only [suppresses, report, small, and_false, decide_false]

/-- **Large groups count**: with a threshold of two or more something is reported as soon as there is a class with more members
than the threshold. -/
theorem groupRectangles_reports_iff (rectList : List Rect) (eps : K) {groupThreshold : Int} (several : 2 ≤ groupThreshold) :
    ∃ out, groupRectangles rectList groupThreshold eps = .ok out ∧
      (out ≠ [] ↔ ∃ C ∈ classes (Similar rectList eps), groupThreshold < C.card) := by
  classical
  obtain ⟨out, run, all⟩ := groupRectangles_ok rectList eps (by omega : 0 < groupThreshold)
  refine ⟨out, run, fun nonempty => ?_, fun ⟨C, member, large⟩ empty => ?_⟩
  · obtain ⟨g, first⟩ := List.exists_mem_of_ne_nil out nonempty
    rw [← Multiset.mem_coe, all, Multiset.mem_map] at first
    obtain ⟨C, kept, _⟩ := first
    obtain ⟨member, large, _⟩ := Finset.mem_filter.mp (Finset.mem_val.mp kept)
    exact ⟨C, member, large⟩
  · obtain ⟨D, kept⟩ := exists_kept several member large
    have own := Multiset.mem_map_of_mem (report K rectList) (Finset.mem_val.mpr kept)
    rw [← all, empty] at own
    cases own

theorem three_reported_iff : ∃ out, groupRectangles [⟨0, 0, 40, 50⟩, ⟨1, 0, 40, 50⟩, ⟨2, 0, 40, 50⟩] 2 (1 / 5 : ℚ) = .ok out ∧
    (out ≠ [] ↔ ∃ C ∈ classes (Similar [⟨0, 0, 40, 50⟩, ⟨1, 0, 40, 50⟩, ⟨2, 0, 40, 50⟩] (1 / 5 : ℚ)), (2 : Int) < C.card) :=
  groupRectangles_reports_iff _ _ le_rfl

end

/-! ## Where the reports are -/

section
variable {K : Type} [Field K] [LinearOrder K] [IsStrictOrderedRing K] [FloorRing K]

theorem cvRound_le {value : K} {n : Int} (le : value ≤ n) : cvRound value ≤ n := by
  have below : ⌊value⌋ ≤ n := by
    have : (⌊value⌋ : K) ≤ n := (Int.floor_le value).trans le
    exact_mod_cast this
  rcases below.lt_or_eq with less | equal
  · rw [cvRound]
    split <;> omega
  · have whole : Int.fract value = 0 := by
      apply le_antisymm _ (Int.fract_nonneg value)
      rw [Int.fract, equal, sub_nonpos]
      exact le
    rw [cvRound, whole]
    simp [equal]

omit [IsStrictOrderedRing K] in
theorem le_cvRound {value : K} {n : Int} (le : n ≤ value) : n ≤ cvRound value := by
  have above : n ≤ ⌊value⌋ := Int.le_floor.mpr le
  rw [cvRound]
  split <;> omega

/-- Rounding adds at most a half. -/
theorem cvRound_add_le (value : K) : (cvRound value : K) + cvRound value ≤ value + value + 1 := by
  have whole : (⌊value⌋ : K) + Int.fract value = value := Int.floor_add_fract value
  have low := Int.fract_nonneg value
  rw [cvRound]
  split
  · linarith
  · next up =>
    obtain ⟨notLess, _⟩ := not_or.mp up
    have half := not_lt.mp notLess
    push_cast
    linarith

variable {rectList : List Rect} {C : Finset (Fin rectList.length)}

theorem le_mean (some : 0 < C.card) {f : Rect → Int} {lo : Int} (all : ∀ i ∈ C, lo ≤ f (rectList.get i)) :
    (lo : K) ≤ ((∑ i ∈ C, f (rectList.get i) : Int) : K) / ((C.card : Int) : K) := by
  have number : (0 : K) < ((C.card : Int) : K) := by exact_mod_cast some
  rw [le_div_iff₀ number]
  have sum := Finset.card_nsmul_le_sum C (fun i => f (rectList.get i)) lo all
  rw [nsmul_eq_mul, mul_comm] at sum
  exact_mod_cast sum

theorem mean_le (some : 0 < C.card) {f : Rect → Int} {hi : Int} (all : ∀ i ∈ C, f (rectList.get i) ≤ hi) :
    ((∑ i ∈ C, f (rectList.get i) : Int) : K) / ((C.card : Int) : K) ≤ hi := by
  have number : (0 : K) < ((C.card : Int) : K) := by exact_mod_cast some
  rw [div_le_iff₀ number]
  have sum := Finset.sum_le_card_nsmul C (fun i => f (rectList.get i)) hi all
  rw [nsmul_eq_mul, mul_comm] at sum
  exact_mod_cast sum

theorem le_meanOf (some : 0 < C.card) {f : Rect → Int} {lo : Int} (all : ∀ i ∈ C, lo ≤ f (rectList.get i)) :
    lo ≤ meanOf K f rectList C := le_cvRound (le_mean some all)

theorem meanOf_le (some : 0 < C.card) {f : Rect → Int} {hi : Int} (all : ∀ i ∈ C, f (rectList.get i) ≤ hi) :
    meanOf K f rectList C ≤ hi := cvRound_le (mean_le some all)

/-- Two rounded means exceed a bound on the sums by at most one. -/
theorem meanOf_add_le (some : 0 < C.card) {f g : Rect → Int} {hi : Int} (all : ∀ i ∈ C, f (rectList.get i) + g (rectList.get i) ≤ hi) :
    meanOf K f rectList C + meanOf K g rectList C ≤ hi + 1 := by
  have total := mean_le (K := K) (f := fun r => f r + g r) some all
  rw [Finset.sum_add_distrib, Int.cast_add, add_div] at total
  have first := cvRound_add_le (((∑ i ∈ C, f (rectList.get i) : Int) : K) / ((C.card : Int) : K))
  have second := cvRound_add_le (((∑ i ∈ C, g (rectList.get i) : Int) : K) / ((C.card : Int) : K))
  have both : ((meanOf K f rectList C + meanOf K g rectList C : Int) : K) ≤ ((hi + 1 : Int) : K) := by
    push_cast
    rw [meanOf, meanOf]
    linarith
  exact_mod_cast both

end

end VideoDetector.Alg
