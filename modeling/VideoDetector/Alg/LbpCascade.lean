import Mathlib.Algebra.BigOperators.Ring.Finset
import Mathlib.Algebra.Order.Ring.Int
import Mathlib.Data.Fin.VecNotation
import Mathlib.Data.Fintype.Fin
import Mathlib.Logic.Function.Basic
import Mathlib.Tactic.FinCases
import Mathlib.Tactic.Linarith
import Mathlib.Tactic.Ring
import VideoDetector.Alg.Cascade
import VideoDetector.Lib.Runs
import VideoDetector.Lib.Search

/-!
# Classifying a window (`fvd-new/alg-mutilthread/cascadedetect.cpp`, `cascade_day_xml.h` and the other tables)

A feature compares eight blocks of pixels with the block between them, by way of the sums in `sum`, and the eight answers are
a code. Each node of a stage looks its code up in a table of bits and adds one of two leaves, and a window is rejected at the
first stage whose sum is below the threshold. `cvRunLBPClassifierCascade0_ok` says that within a margin of two pixels no table
is left, and `nodeCode_brightness` that the codes do not depend on the brightness of the image. `shipped_fits` is about the
tables in the source; thresholds, leaves and subsets are parameters.
-/

namespace VideoDetector.Alg
set_option autoImplicit false
open Lib

/-- `Feature`: the first of nine blocks. -/
structure Feature where
  x : Int
  y : Int
  width : Int
  height : Int
  deriving DecidableEq

/-- `CvLBPClassifierCascade`, the `stages` without their thresholds and of the `nodes` their `featureIdx`. -/
structure CvLBPClassifierCascade where
  data : CascadeData
  thresholds : List Int
  nodes : List Nat
  leaves : List Int
  subsets : List (BitVec 32)
  features : List Feature

/-- `sum`, of one row and one column more than the image. -/
structure SumImage where
  rows : Nat
  cols : Nat
  data : Nat → Int

/-- The arrays that an index may be outside of. -/
inductive VehicleFault where
  | sum
  | rectP
  | stages
  | nodes
  | leaves
  | subsets
  | features
  | mask
  | unfinished
  | group

/-- An entry of a table. -/
def fetch {ε α : Type} (fault : ε) (table : List α) (i : Nat) : Except ε α :=
  match table[i]? with
  | some a => .ok a
  | none => .error fault

def SumImage.at (sum : SumImage) (i : Int) : Except VehicleFault Int :=
  if 0 ≤ i ∧ i < sum.rows * sum.cols then .ok (sum.data i.toNat) else .error .sum

/-! ## Codes -/

/-- `CALC_SUM_`, for the block with its upper left corner at `p[k]`. -/
def calcSum (sum : SumImage) (p : Fin 16 → Int) (offset : Int) (k : Fin 16) : Except VehicleFault Int := do
  return (← sum.at (p k + offset)) - (← sum.at (p (k + 1) + offset)) - (← sum.at (p (k + 4) + offset)) +
    (← sum.at (p (k + 5) + offset))

/-- The blocks around the one with corner `p[5]`, with their bits. -/
def aroundBlocks : List (Fin 16 × Nat) := [(0, 128), (1, 64), (2, 32), (6, 16), (10, 8), (9, 4), (8, 2), (4, 1)]

/-- `calc`. -/
def calcCode (sum : SumImage) (p : Fin 16 → Int) (offset : Int) : Except VehicleFault Nat := do
  let cval ← calcSum sum p offset 5
  aroundBlocks.foldlM (fun code b => do
    let s ← calcSum sum p offset b.1
    return code ||| if s ≥ cval then b.2 else 0) 0

/-- `tr`. -/
def Feature.scaled (r : Feature) (scale32x : Int) : Feature :=
  ⟨(r.x * scale32x + 16) / 32, (r.y * scale32x + 16) / 32, (r.width * scale32x + 16) / 32, (r.height * scale32x + 16) / 32⟩

/-- The `k`-th row of `cvSetImagesForLBPClassifierCascade`: where the corners of the blocks are. -/
def rectCorners (step scale32x : Int) (r : Feature) : Fin 16 → Int :=
  let tr := r.scaled scale32x
  let x2 := tr.x + 2 * tr.width
  let y2 := tr.y + 2 * tr.height
  ![step * tr.y + tr.x, step * tr.y + tr.x + tr.width,
    step * tr.y + x2, step * tr.y + x2 + tr.width,
    step * (tr.y + tr.height) + tr.x, step * (tr.y + tr.height) + tr.x + tr.width,
    step * (tr.y + tr.height) + x2, step * (tr.y + tr.height) + x2 + tr.width,
    step * y2 + tr.x, step * y2 + tr.x + tr.width,
    step * y2 + x2, step * y2 + x2 + tr.width,
    step * (y2 + tr.height) + tr.x, step * (y2 + tr.height) + tr.x + tr.width,
    step * (y2 + tr.height) + x2, step * (y2 + tr.height) + x2 + tr.width]

/-- `cvSetImagesForLBPClassifierCascade`, into `g_ppsumRectP[300][16]`. -/
def cvSetImagesForLBPClassifierCascade (cascade : CvLBPClassifierCascade) (sum : SumImage) (scale32x : Int) :
    Except VehicleFault (List (Fin 16 → Int)) :=
  (List.range cascade.data.nodeCount).mapM fun i => do
    let k ← fetch .nodes cascade.nodes i
    let r ← fetch .features cascade.features k
    if i < 300 then return rectCorners sum.cols scale32x r else throw .rectP

/-! ## Stages -/

/-- The code of a node. -/
def nodeCode (sum : SumImage) (rectP : List (Fin 16 → Int)) (offset : Int) (nodeOfs : Nat) : Except VehicleFault Nat := do
  calcCode sum (← fetch .rectP rectP nodeOfs) offset

/-- The sum of a stage. -/
def stageSum (cascade : CvLBPClassifierCascade) (code : Nat → Except VehicleFault Nat) (stage : Stage) : Except VehicleFault Int :=
  (List.range stage.ntrees).foldlM (fun stage_sum j => do
    let nodeOfs := stage.first + j
    let leafOfs := stage.first * 2 + 2 * j
    let c ← code nodeOfs
    let subset ← fetch .subsets cascade.subsets (nodeOfs * 8 + c / 32)
    let leaf ← fetch .leaves cascade.leaves (if subset.getLsbD (c % 32) then leafOfs else leafOfs + 1)
    return stage_sum + leaf) 0

/-- `cvRunLBPClassifierCascade1`, with so many stages to go before `end_stage`. -/
def cvRunLBPClassifierCascade1 (cascade : CvLBPClassifierCascade) (code : Nat → Except VehicleFault Nat) (endStage : Nat) :
    Nat → Nat → Except VehicleFault Nat
  | 0, _ => .ok endStage
  | left + 1, i => do
    let stage ← fetch .stages cascade.data.stages i
    let threshold ← fetch .stages cascade.thresholds i
    let stage_sum ← stageSum cascade code stage
    if stage_sum < threshold then return i else cvRunLBPClassifierCascade1 cascade code endStage left (i + 1)

/-- `cvRunLBPClassifierCascade0`. -/
def cvRunLBPClassifierCascade0 (cascade : CvLBPClassifierCascade) (sum : SumImage) (rectP : List (Fin 16 → Int)) (x y : Int) :
    Except VehicleFault Nat := do
  let code := nodeCode sum rectP (y * sum.cols + x)
  let splitStage := 2
  let ret ← cvRunLBPClassifierCascade1 cascade code splitStage splitStage 0
  if ret < splitStage then return ret
  else cvRunLBPClassifierCascade1 cascade code cascade.data.stageCount (cascade.data.stageCount - splitStage) splitStage

/-! ## Reading -/

theorem fetch_ok {ε α : Type} (fault : ε) {table : List α} {i : Nat} {a : α} (some : table[i]? = some a) :
    fetch fault table i = .ok a := by
  rw [fetch, some]

theorem fetch_of_lt {ε α : Type} (fault : ε) {table : List α} {i : Nat} (low : i < table.length) : ∃ a, fetch fault table i = .ok a :=
  ⟨table[i], fetch_ok fault (List.getElem?_eq_getElem low)⟩

/-- All corners of the blocks of a feature are in the image. -/
def SumImage.Holds (sum : SumImage) (p : Fin 16 → Int) (offset : Int) : Prop :=
  ∀ k, 0 ≤ p k + offset ∧ p k + offset < sum.rows * sum.cols

/-- The sum of a block. -/
def SumImage.block (sum : SumImage) (p : Fin 16 → Int) (offset : Int) (k : Fin 16) : Int :=
  sum.data (p k + offset).toNat - sum.data (p (k + 1) + offset).toNat - sum.data (p (k + 4) + offset).toNat +
    sum.data (p (k + 5) + offset).toNat

/-- The code of nine sums. -/
def blocksCode (block : Fin 16 → Int) : Nat :=
  aroundBlocks.foldl (fun code b => code ||| if block b.1 ≥ block 5 then b.2 else 0) 0

variable {sum : SumImage} {p : Fin 16 → Int} {offset : Int}

theorem calcSum_ok (holds : sum.Holds p offset) (k : Fin 16) : calcSum sum p offset k = .ok (sum.block p offset k) := by
  have corner (k : Fin 16) : sum.at (p k + offset) = .ok (sum.data (p k + offset).toNat) := if_pos (holds k)
  rw [calcSum, corner, corner, corner, corner]
  rfl

theorem calcCode_ok (holds : sum.Holds p offset) : calcCode sum p offset = .ok (blocksCode (sum.block p offset)) := by
  rw [calcCode, calcSum_ok holds]
  have same (code : Nat) (b : Fin 16 × Nat) :
      (do let s ← calcSum sum p offset b.1; return code ||| if s ≥ sum.block p offset 5 then b.2 else 0 : Except VehicleFault Nat) =
        pure (code ||| if sum.block p offset b.1 ≥ sum.block p offset 5 then b.2 else 0) := by
    rw [calcSum_ok holds]
    rfl
  change aroundBlocks.foldlM (fun code b => do
    let s ← calcSum sum p offset b.1
    return code ||| if s ≥ sum.block p offset 5 then b.2 else 0) 0 = _
  simp only [same]
  exact List.foldlM_pure

theorem blocksCode_lt (block : Fin 16 → Int) : blocksCode block < 256 := by
  have small (b : Fin 16 × Nat) (member : b ∈ aroundBlocks) : (if block b.1 ≥ block 5 then b.2 else 0) < 2 ^ 8 := by
    have bit : ∀ b ∈ aroundBlocks, b.2 < 2 ^ 8 := by decide
    split
    · exact bit b member
    · decide
  exact List.foldlRecOn (motive := fun code => code < 2 ^ 8) aroundBlocks _ (by decide) fun code low b member =>
    Nat.or_lt_two_pow low (small b member)

/-- These are the upper left corners of the nine blocks. -/
def Corner (k : Fin 16) : Prop := k.val % 4 < 3 ∧ k.val < 11

instance (k : Fin 16) : Decidable (Corner k) := instDecidableAnd

theorem blocksCode_congr {block block' : Fin 16 → Int} (same : ∀ k, Corner k → (block k ≥ block 5 ↔ block' k ≥ block' 5)) :
    blocksCode block = blocksCode block' := by
  have corner : ∀ b ∈ aroundBlocks, Corner b.1 := by decide
  refine List.foldl_ext _ _ _ fun code b member => ?_
  simp only [same b.1 (corner b member)]

/-! ## The blocks of a feature -/

/-- The nine blocks are in the window of the tables, which is 32 pixels wide and 40 high. -/
structure Feature.Fits (r : Feature) : Prop where
  left : 0 ≤ r.x
  top : 0 ≤ r.y
  wide : 0 ≤ r.width
  high : 0 ≤ r.height
  right : r.x + 3 * r.width ≤ 32
  bottom : r.y + 3 * r.height ≤ 40

/-- Where the corners of a scaled feature are: four rows of four. -/
theorem rectCorners_eq (step scale32x : Int) (r : Feature) (k : Fin 16) :
    rectCorners step scale32x r k =
      step * ((r.scaled scale32x).y + (k.val / 4 : Nat) * (r.scaled scale32x).height) +
        ((r.scaled scale32x).x + (k.val % 4 : Nat) * (r.scaled scale32x).width) := by
  fin_cases k <;> simp [rectCorners, -mul_eq_mul_left_iff] <;> ring

/-- Rounding moves the far corners by less than three pixels. -/
theorem scaled_le {a d n s : Int} (nonneg : 0 ≤ s) (fits : a + 3 * d ≤ n) :
    (a * s + 16) / 32 + 3 * ((d * s + 16) / 32) ≤ (n * s) / 32 + 2 := by
  have product : a * s + 3 * (d * s) ≤ n * s := by
    have := mul_le_mul_of_nonneg_right fits nonneg
    linarith
  omega

/-- A window of a scale at a place with the margin that the scan keeps. -/
structure Margin (sum : SumImage) (scale32x x y : Int) : Prop where
  scale : 0 ≤ scale32x
  left : 0 ≤ x
  top : 0 ≤ y
  right : x + scale32x + 2 < sum.cols
  bottom : y + 40 * scale32x / 32 + 2 < sum.rows

/-- The row and the column of a corner. -/
theorem Margin.corner {scale32x x y : Int} (margin : Margin sum scale32x x y) {r : Feature} (fits : r.Fits) (k : Fin 16) :
    (0 ≤ y + ((r.scaled scale32x).y + (k.val / 4 : Nat) * (r.scaled scale32x).height) ∧
      y + ((r.scaled scale32x).y + (k.val / 4 : Nat) * (r.scaled scale32x).height) < sum.rows) ∧
    (0 ≤ x + ((r.scaled scale32x).x + (k.val % 4 : Nat) * (r.scaled scale32x).width) ∧
      x + ((r.scaled scale32x).x + (k.val % 4 : Nat) * (r.scaled scale32x).width) < sum.cols) := by
  obtain ⟨left, top, wide, high, right, bottom⟩ := fits
  have across := scaled_le margin.scale right
  have down := scaled_le margin.scale bottom
  have grow {v : Int} (nonneg : 0 ≤ v) : 0 ≤ (v * scale32x + 16) / 32 := by
    have := mul_nonneg nonneg margin.scale
    omega
  have part {v : Int} {n : Nat} (nonneg : 0 ≤ v) (few : n ≤ 3) : 0 ≤ (n : Int) * v ∧ (n : Int) * v ≤ 3 * v :=
    ⟨mul_nonneg (by omega) nonneg, mul_le_mul_of_nonneg_right (by omega) nonneg⟩
  obtain ⟨low, up⟩ := @part _ (k.val / 4) (grow high) (by omega)
  obtain ⟨low', up'⟩ := @part _ (k.val % 4) (grow wide) (by omega)
  have x0 := grow left
  have y0 := grow top
  have := margin.left
  have := margin.top
  have := margin.right
  have := margin.bottom
  simp only [Feature.scaled]
  omega

theorem Margin.holds {scale32x x y : Int} (margin : Margin sum scale32x x y) {r : Feature} (fits : r.Fits) :
    sum.Holds (rectCorners sum.cols scale32x r) (y * sum.cols + x) := by
  intro k
  obtain ⟨⟨low, up⟩, left, right⟩ := margin.corner fits k
  rw [rectCorners_eq]
  generalize (r.scaled scale32x).y + (k.val / 4 : Nat) * (r.scaled scale32x).height = dy at low up ⊢
  generalize (r.scaled scale32x).x + (k.val % 4 : Nat) * (r.scaled scale32x).width = dx at left right ⊢
  have same : (sum.cols : Int) * dy + dx + (y * sum.cols + x) = (y + dy) * sum.cols + (x + dx) := by ring
  have rows : (y + dy + 1) * (sum.cols : Int) ≤ sum.rows * sum.cols := mul_le_mul_of_nonneg_right (by omega) (by omega)
  have before : 0 ≤ (y + dy) * (sum.cols : Int) := mul_nonneg low (by omega)
  rw [same]
  constructor <;> linarith

/-- The features of the nodes are in the window, and there is room for their corners. -/
structure CvLBPClassifierCascade.NodesFit (cascade : CvLBPClassifierCascade) : Prop where
  nodeCount : cascade.data.nodeCount ≤ 300
  nodes : ∀ i < cascade.data.nodeCount, ∃ k r, cascade.nodes[i]? = some k ∧ cascade.features[k]? = some r ∧ r.Fits

theorem cvSetImagesForLBPClassifierCascade_ok {cascade : CvLBPClassifierCascade} (fits : cascade.NodesFit) (sum : SumImage)
    (scale32x : Int) :
    ∃ rectP, cvSetImagesForLBPClassifierCascade cascade sum scale32x = .ok rectP ∧ rectP.length = cascade.data.nodeCount ∧
      ∀ p ∈ rectP, ∃ r : Feature, r.Fits ∧ p = rectCorners sum.cols scale32x r := by
  obtain ⟨rectP, run, all⟩ := @mapM_ok _ _ _ (fun i => do
      let k ← fetch .nodes cascade.nodes i
      let r ← fetch VehicleFault.features cascade.features k
      if i < 300 then return rectCorners sum.cols scale32x r else throw .rectP)
    (fun _ p => ∃ r : Feature, r.Fits ∧ p = rectCorners sum.cols scale32x r) (List.range cascade.data.nodeCount)
    (by
      intro i member
      have low := List.mem_range.mp member
      obtain ⟨k, r, node, feature, inside⟩ := fits.nodes i low
      refine ⟨_, ?_, r, inside, rfl⟩
      rw [fetch_ok _ node]
      change (fetch VehicleFault.features cascade.features k >>= _) = _
      rw [fetch_ok _ feature]
      exact if_pos (low.trans_le fits.nodeCount))
  refine ⟨rectP, run, ?_, fun p member => ?_⟩
  · rw [← all.length_eq, List.length_range]
  · obtain ⟨_, _, corners⟩ := forall₂_mem_right all member
    exact corners

/-! ## Windows -/

/-- All tables have the entries that are used. -/
structure CvLBPClassifierCascade.Fits (cascade : CvLBPClassifierCascade) : Prop extends cascade.NodesFit where
  several : 2 ≤ cascade.data.stageCount
  stages : ∀ i < cascade.data.stageCount, ∃ stage, cascade.data.stages[i]? = some stage ∧
    stage.first + stage.ntrees ≤ cascade.data.nodeCount
  thresholds : cascade.data.stageCount ≤ cascade.thresholds.length
  leaves : 2 * cascade.data.nodeCount ≤ cascade.leaves.length
  subsets : 8 * cascade.data.nodeCount ≤ cascade.subsets.length

variable {cascade : CvLBPClassifierCascade} {code : Nat → Except VehicleFault Nat}

theorem stageSum_ok (fits : cascade.Fits) (codes : ∀ n < cascade.data.nodeCount, ∃ c, code n = .ok c ∧ c < 256) {stage : Stage}
    (within : stage.first + stage.ntrees ≤ cascade.data.nodeCount) : ∃ s, stageSum cascade code stage = .ok s := by
  rw [stageSum]
  refine (foldlM_total (fun _ => True) (fun stage_sum j member _ => ?_) trivial).imp fun _ both => both.1
  have low := List.mem_range.mp member
  obtain ⟨c, found, small⟩ := codes (stage.first + j) (by omega)
  have subsets := fits.subsets
  have leaves := fits.leaves
  obtain ⟨subset, bits⟩ := fetch_of_lt VehicleFault.subsets (show (stage.first + j) * 8 + c / 32 < cascade.subsets.length by omega)
  obtain ⟨leaf, added⟩ := fetch_of_lt VehicleFault.leaves
    (show (if subset.getLsbD (c % 32) then stage.first * 2 + 2 * j else stage.first * 2 + 2 * j + 1) < cascade.leaves.length by
      split <;> omega)
  refine ⟨stage_sum + leaf, ?_, trivial⟩
  simp only [bind, Except.bind, found, bits, added]
  rfl

/-- A run of some stages comes to one of them or to its end. -/
theorem cvRunLBPClassifierCascade1_ok (fits : cascade.Fits)
    (codes : ∀ n < cascade.data.nodeCount, ∃ c, code n = .ok c ∧ c < 256) {endStage left i : Nat} (last : i + left = endStage)
    (within : endStage ≤ cascade.data.stageCount) :
    ∃ ret, cvRunLBPClassifierCascade1 cascade code endStage left i = .ok ret ∧ ret ≤ endStage := by
  induction left generalizing i with
  | zero => exact ⟨endStage, rfl, le_rfl⟩
  | succ left ih =>
    obtain ⟨stage, found, nodes⟩ := fits.stages i (by omega)
    have thresholds := fits.thresholds
    obtain ⟨threshold, found'⟩ := fetch_of_lt VehicleFault.stages (show i < cascade.thresholds.length by omega)
    obtain ⟨s, sum⟩ := stageSum_ok fits codes nodes
    rw [cvRunLBPClassifierCascade1, fetch_ok _ found]
    simp only [bind, Except.bind, found', sum]
    split
    · exact ⟨i, rfl, by omega⟩
    · exact ih (by omega)

variable {rectP : List (Fin 16 → Int)} {scale32x x y : Int}

/-- The codes of all nodes can be computed. -/
theorem nodeCode_ok (margin : Margin sum scale32x x y)
    (corners : ∀ p ∈ rectP, ∃ r : Feature, r.Fits ∧ p = rectCorners sum.cols scale32x r) {n : Nat} (low : n < rectP.length) :
    ∃ c, nodeCode sum rectP (y * sum.cols + x) n = .ok c ∧ c < 256 := by
  obtain ⟨r, inside, same⟩ := corners rectP[n] (List.getElem_mem low)
  refine ⟨_, ?_, blocksCode_lt (sum.block rectP[n] (y * sum.cols + x))⟩
  rw [nodeCode, fetch_ok _ (List.getElem?_eq_getElem low)]
  exact calcCode_ok (same ▸ margin.holds inside)

/-- **No table is left** in a window with its margin. -/
theorem cvRunLBPClassifierCascade0_ok (fits : cascade.Fits) (margin : Margin sum scale32x x y)
    (count : rectP.length = cascade.data.nodeCount)
    (corners : ∀ p ∈ rectP, ∃ r : Feature, r.Fits ∧ p = rectCorners sum.cols scale32x r) :
    ∃ ret, cvRunLBPClassifierCascade0 cascade sum rectP x y = .ok ret ∧ ret ≤ cascade.data.stageCount := by
  have codes (n : Nat) (low : n < cascade.data.nodeCount) : ∃ c, nodeCode sum rectP (y * sum.cols + x) n = .ok c ∧ c < 256 :=
    nodeCode_ok margin corners (count ▸ low)
  have several := fits.several
  obtain ⟨ret, first, low⟩ := cvRunLBPClassifierCascade1_ok fits codes (Nat.zero_add 2) several
  rw [cvRunLBPClassifierCascade0, first]
  simp only [bind, Except.bind]
  split
  · exact ⟨ret, rfl, by omega⟩
  · exact cvRunLBPClassifierCascade1_ok fits codes (by omega) le_rfl

/-! ## Brightness -/

/-- The sums of the pixels above a row and left of a column. -/
def SumImage.Of (sum : SumImage) (pixel : Nat → Nat → Int) : Prop :=
  ∀ i < sum.rows, ∀ j < sum.cols, sum.data (i * sum.cols + j) = ∑ y ∈ Finset.range i, ∑ x ∈ Finset.range j, pixel y x

variable {sum' : SumImage} {pixel : Nat → Nat → Int} {a b : Int}

/-- A corner is above and left of so many pixels, which all get brighter. -/
theorem corner_brightness (sums : sum.Of pixel) (sums' : sum'.Of fun y x => a * pixel y x + b) (rows : sum'.rows = sum.rows)
    (cols : sum'.cols = sum.cols) {i j : Int} (top : 0 ≤ i) (bottom : i < sum.rows) (left : 0 ≤ j) (right : j < sum.cols) :
    sum'.data (i * sum.cols + j).toNat = a * sum.data (i * sum.cols + j).toNat + b * (i * j) := by
  lift i to Nat using top
  lift j to Nat using left
  have place : ((i : Int) * sum.cols + j).toNat = i * sum.cols + j := by
    rw [← Nat.cast_mul, ← Nat.cast_add, Int.toNat_natCast]
  have low : i < sum.rows := by omega
  have low' : j < sum.cols := by omega
  have brighter := sums' i (rows ▸ low) j (cols ▸ low')
  rw [place, ← cols, brighter, cols, sums i low j low']
  simp only [Finset.sum_add_distrib, Finset.mul_sum, Finset.sum_const, Finset.card_range, nsmul_eq_mul]
  ring

/-- What is next to a corner, below it and across. -/
theorem corner_steps (k : Fin 16) (corner : Corner k) :
    ((k + 1).val / 4 = k.val / 4 ∧ (k + 1).val % 4 = k.val % 4 + 1) ∧
      ((k + 4).val / 4 = k.val / 4 + 1 ∧ (k + 4).val % 4 = k.val % 4) ∧
      (k + 5).val / 4 = k.val / 4 + 1 ∧ (k + 5).val % 4 = k.val % 4 + 1 := by
  revert k
  decide

/-- Blocks of a feature have one size, so they all get brighter by the same amount. -/
theorem block_brightness (sums : sum.Of pixel) (sums' : sum'.Of fun y x => a * pixel y x + b) (rows : sum'.rows = sum.rows)
    (cols : sum'.cols = sum.cols) (margin : Margin sum scale32x x y) {r : Feature} (fits : r.Fits) {k : Fin 16} (corner : Corner k) :
    sum'.block (rectCorners sum.cols scale32x r) (y * sum.cols + x) k =
      a * sum.block (rectCorners sum.cols scale32x r) (y * sum.cols + x) k +
        b * ((r.scaled scale32x).height * (r.scaled scale32x).width) := by
  have brighter (k : Fin 16) := by
    obtain ⟨⟨top, bottom⟩, left, right⟩ := margin.corner fits k
    exact corner_brightness sums sums' rows cols top bottom left right
  have place (k : Fin 16) : rectCorners sum.cols scale32x r k + (y * sum.cols + x) =
      (y + ((r.scaled scale32x).y + (k.val / 4 : Nat) * (r.scaled scale32x).height)) * sum.cols +
        (x + ((r.scaled scale32x).x + (k.val % 4 : Nat) * (r.scaled scale32x).width)) := by
    rw [rectCorners_eq]
    ring
  obtain ⟨⟨row, column⟩, ⟨row', column'⟩, row'', column''⟩ := corner_steps k corner
  simp only [SumImage.block, place, brighter]
  rw [row, column, row', column', row'', column'']
  push_cast
  ring

/-- **Codes do not depend on the brightness.** -/
theorem nodeCode_brightness (positive : 0 < a) (sums : sum.Of pixel) (sums' : sum'.Of fun y x => a * pixel y x + b)
    (rows : sum'.rows = sum.rows) (cols : sum'.cols = sum.cols) (margin : Margin sum scale32x x y)
    (corners : ∀ p ∈ rectP, ∃ r : Feature, r.Fits ∧ p = rectCorners sum.cols scale32x r) :
    nodeCode sum' rectP (y * sum.cols + x) = nodeCode sum rectP (y * sum.cols + x) := by
  funext n
  cases node : rectP[n]? with
  | none =>
    rw [nodeCode, nodeCode, fetch, node]
    rfl
  | some p =>
    obtain ⟨r, fits, rfl⟩ := corners p (List.mem_of_getElem? node)
    have holds := margin.holds fits
    have holds' : sum'.Holds (rectCorners sum.cols scale32x r) (y * sum.cols + x) := by
      rw [SumImage.Holds, rows, cols]
      exact holds
    rw [nodeCode, nodeCode, fetch_ok _ node]
    refine (calcCode_ok holds').trans ((calcCode_ok holds).trans ?_).symm
    congr 1
    refine blocksCode_congr fun k corner => ?_
    rw [block_brightness sums sums' rows cols margin fits corner,
      block_brightness sums sums' rows cols margin fits (by decide : Corner 5)]
    constructor <;> intro more
    · linarith [mul_le_mul_of_nonneg_left more positive.le]
    · exact le_of_mul_le_mul_left (by linarith) positive

theorem cvRunLBPClassifierCascade0_brightness (positive : 0 < a) (sums : sum.Of pixel) (sums' : sum'.Of fun y x => a * pixel y x + b)
    (rows : sum'.rows = sum.rows) (cols : sum'.cols = sum.cols) (margin : Margin sum scale32x x y)
    (corners : ∀ p ∈ rectP, ∃ r : Feature, r.Fits ∧ p = rectCorners sum.cols scale32x r) :
    cvRunLBPClassifierCascade0 cascade sum' rectP x y = cvRunLBPClassifierCascade0 cascade sum rectP x y := by
  rw [cvRunLBPClassifierCascade0, cols, nodeCode_brightness positive sums sums' rows cols margin corners]
  rfl

/-! ## The tables in the source -/

/-- The `featureIdx` of `nodes`. -/
def nodeFeatures : Cascade → List Nat
  | .day => [
      68, 133, 111, 66, 33, 65, 64, 89, 88, 106, 21, 0, 46, 9, 25, 107, 127, 90, 30, 62, 87, 117, 57, 1, 112, 23, 77, 19,
      128, 100, 49, 43, 78, 70, 124, 76, 94, 38, 18, 103, 55, 133, 29, 109, 36, 85, 8, 86, 24, 126, 56, 99, 14, 130, 75,
      106, 111, 73, 20, 53, 35, 104, 12, 39, 26, 80, 125, 119, 72, 15, 92, 10, 28, 42, 3, 131, 105, 67, 31, 54, 108, 32, 50,
      116, 6, 81, 59, 25, 114, 96, 17, 94, 71, 13, 47, 34, 37, 123, 11, 69, 4, 95, 122, 102, 74, 118, 115, 7, 91, 21, 58,
      97, 41, 27, 60, 5, 129, 44, 101, 52, 82, 45, 83, 48, 110, 2, 16, 121, 61, 132, 93, 51, 22, 79, 98, 120, 40, 84, 113,
      63, 119]
  | .dusk => [
      51, 82, 160, 126, 153, 28, 83, 11, 86, 16, 17, 104, 113, 144, 4, 34, 65, 14, 92, 155, 73, 71, 89, 38, 21, 44, 115, 1,
      102, 56, 87, 66, 112, 156, 19, 47, 74, 137, 41, 141, 80, 158, 110, 25, 88, 132, 30, 43, 140, 3, 160, 118, 50, 12, 26,
      75, 58, 48, 147, 139, 148, 103, 90, 5, 81, 151, 36, 128, 15, 159, 107, 64, 2, 97, 150, 46, 52, 95, 29, 49, 143, 69,
      133, 72, 101, 33, 55, 79, 9, 63, 157, 111, 45, 77, 37, 91, 27, 149, 84, 61, 142, 130, 120, 76, 124, 6, 117, 31, 42,
      114, 138, 96, 108, 53, 134, 57, 85, 20, 122, 99, 62, 146, 129, 70, 13, 24, 7, 60, 59, 23, 39, 154, 121, 119, 131, 94,
      54, 68, 109, 8, 67, 135, 35, 106, 22, 100, 152, 105, 125, 18, 93, 10, 78, 145, 123, 116, 32, 0, 40, 98, 127, 136]
  | .night => [
      44, 88, 6, 35, 13, 87, 40, 113, 30, 44, 19, 119, 6, 105, 33, 65, 20, 102, 118, 95, 43, 3, 106, 126, 69, 21, 71, 39,
      78, 38, 89, 2, 27, 80, 7, 34, 112, 107, 11, 1, 79, 58, 90, 91, 48, 61, 116, 64, 28, 56, 45, 24, 54, 124, 10, 104, 68,
      84, 72, 17, 26, 5, 125, 57, 109, 92, 65, 16, 29, 99, 23, 97, 123, 50, 15, 31, 114, 127, 9, 76, 103, 49, 12, 70, 120,
      67, 94, 4, 25, 22, 74, 101, 32, 18, 121, 63, 59, 0, 36, 96, 81, 100, 46, 73, 83, 117, 77, 42, 66, 98, 53, 108, 62,
      118, 8, 85, 122, 47, 55, 75, 86, 52, 37, 115, 14, 41, 111, 51, 82, 93, 60, 110]

/-- `features`. -/
def featureTable : Cascade → List Feature
  | .day => [
      ⟨0, 0, 3, 8⟩, ⟨0, 0, 3, 10⟩, ⟨0, 0, 6, 2⟩, ⟨0, 0, 6, 7⟩, ⟨0, 1, 5, 2⟩, ⟨0, 1, 5, 12⟩, ⟨0, 5, 1, 1⟩, ⟨0, 10, 3, 4⟩,
      ⟨0, 14, 3, 3⟩, ⟨0, 14, 4, 3⟩, ⟨0, 15, 2, 3⟩, ⟨0, 15, 4, 1⟩, ⟨0, 15, 4, 2⟩, ⟨0, 19, 2, 3⟩, ⟨0, 19, 3, 6⟩,
      ⟨0, 22, 5, 6⟩, ⟨0, 25, 2, 2⟩, ⟨0, 28, 1, 2⟩, ⟨0, 28, 2, 4⟩, ⟨0, 28, 10, 4⟩, ⟨0, 31, 1, 3⟩, ⟨0, 31, 2, 3⟩,
      ⟨0, 34, 1, 2⟩, ⟨0, 34, 2, 2⟩, ⟨0, 37, 2, 1⟩, ⟨0, 37, 3, 1⟩, ⟨0, 37, 4, 1⟩, ⟨0, 37, 5, 1⟩, ⟨0, 37, 6, 1⟩, ⟨1, 0, 5, 2⟩,
      ⟨1, 1, 10, 7⟩, ⟨1, 3, 9, 2⟩, ⟨1, 21, 1, 1⟩, ⟨1, 22, 9, 6⟩, ⟨2, 0, 5, 8⟩, ⟨2, 10, 10, 8⟩, ⟨2, 16, 1, 1⟩,
      ⟨2, 21, 10, 4⟩, ⟨2, 23, 10, 3⟩, ⟨4, 4, 1, 2⟩, ⟨4, 5, 1, 1⟩, ⟨4, 6, 1, 2⟩, ⟨4, 8, 1, 2⟩, ⟨4, 25, 8, 5⟩, ⟨4, 26, 8, 3⟩,
      ⟨5, 5, 1, 1⟩, ⟨5, 31, 9, 3⟩, ⟨6, 8, 1, 1⟩, ⟨6, 34, 8, 2⟩, ⟨7, 14, 4, 2⟩, ⟨8, 10, 6, 4⟩, ⟨8, 15, 3, 1⟩, ⟨8, 16, 1, 1⟩,
      ⟨9, 0, 2, 2⟩, ⟨9, 15, 3, 1⟩, ⟨9, 37, 3, 1⟩, ⟨10, 1, 2, 1⟩, ⟨10, 2, 3, 1⟩, ⟨10, 14, 3, 1⟩, ⟨10, 37, 3, 1⟩,
      ⟨11, 1, 3, 1⟩, ⟨11, 2, 4, 1⟩, ⟨11, 37, 7, 1⟩, ⟨12, 0, 2, 1⟩, ⟨12, 1, 2, 1⟩, ⟨12, 37, 2, 1⟩, ⟨13, 1, 1, 1⟩,
      ⟨13, 27, 2, 1⟩, ⟨13, 37, 3, 1⟩, ⟨13, 37, 6, 1⟩, ⟨14, 0, 3, 2⟩, ⟨14, 0, 6, 4⟩, ⟨14, 3, 3, 1⟩, ⟨14, 37, 2, 1⟩,
      ⟨15, 2, 2, 1⟩, ⟨15, 12, 4, 3⟩, ⟨15, 14, 3, 2⟩, ⟨16, 2, 2, 1⟩, ⟨16, 37, 2, 1⟩, ⟨16, 37, 3, 1⟩, ⟨17, 0, 5, 2⟩,
      ⟨17, 2, 2, 1⟩, ⟨17, 8, 5, 6⟩, ⟨17, 14, 5, 1⟩, ⟨17, 16, 5, 7⟩, ⟨17, 19, 5, 7⟩, ⟨17, 37, 5, 1⟩, ⟨18, 10, 4, 4⟩,
      ⟨19, 10, 4, 10⟩, ⟨19, 15, 1, 1⟩, ⟨20, 0, 4, 4⟩, ⟨20, 11, 4, 3⟩, ⟨20, 13, 4, 2⟩, ⟨20, 14, 4, 3⟩, ⟨20, 37, 4, 1⟩,
      ⟨21, 14, 1, 1⟩, ⟨21, 15, 1, 1⟩, ⟨22, 0, 3, 3⟩, ⟨23, 0, 3, 10⟩, ⟨23, 2, 3, 9⟩, ⟨23, 2, 3, 12⟩, ⟨23, 3, 3, 3⟩,
      ⟨23, 5, 1, 1⟩, ⟨23, 11, 3, 4⟩, ⟨23, 19, 3, 6⟩, ⟨23, 22, 3, 6⟩, ⟨23, 37, 3, 1⟩, ⟨24, 5, 1, 1⟩, ⟨24, 6, 1, 2⟩,
      ⟨25, 4, 1, 1⟩, ⟨25, 4, 1, 2⟩, ⟨25, 5, 1, 1⟩, ⟨25, 6, 1, 2⟩, ⟨25, 8, 1, 2⟩, ⟨25, 8, 2, 4⟩, ⟨26, 25, 2, 2⟩,
      ⟨26, 31, 2, 3⟩, ⟨26, 34, 2, 2⟩, ⟨26, 36, 2, 1⟩, ⟨26, 37, 2, 1⟩, ⟨27, 0, 1, 1⟩, ⟨27, 5, 1, 1⟩, ⟨27, 16, 1, 1⟩,
      ⟨28, 0, 1, 1⟩, ⟨28, 16, 1, 1⟩, ⟨29, 5, 1, 1⟩, ⟨29, 21, 1, 1⟩, ⟨29, 24, 1, 1⟩, ⟨29, 29, 1, 3⟩, ⟨29, 30, 1, 3⟩,
      ⟨29, 31, 1, 3⟩, ⟨29, 32, 1, 2⟩, ⟨29, 34, 1, 2⟩, ⟨29, 37, 1, 1⟩]
  | .dusk => [
      ⟨0, 0, 1, 1⟩, ⟨0, 0, 5, 2⟩, ⟨0, 0, 5, 4⟩, ⟨0, 0, 10, 4⟩, ⟨0, 1, 3, 7⟩, ⟨0, 1, 4, 13⟩, ⟨0, 1, 5, 2⟩, ⟨0, 1, 6, 1⟩,
      ⟨0, 4, 1, 2⟩, ⟨0, 4, 2, 6⟩, ⟨0, 4, 2, 12⟩, ⟨0, 4, 10, 12⟩, ⟨0, 5, 1, 1⟩, ⟨0, 6, 2, 3⟩, ⟨0, 10, 2, 10⟩, ⟨0, 13, 3, 2⟩,
      ⟨0, 13, 4, 9⟩, ⟨0, 13, 5, 5⟩, ⟨0, 14, 3, 2⟩, ⟨0, 14, 4, 2⟩, ⟨0, 14, 6, 5⟩, ⟨0, 18, 3, 7⟩, ⟨0, 18, 4, 3⟩,
      ⟨0, 19, 5, 6⟩, ⟨0, 20, 3, 4⟩, ⟨0, 21, 4, 2⟩, ⟨0, 22, 3, 6⟩, ⟨0, 22, 4, 2⟩, ⟨0, 22, 10, 6⟩, ⟨0, 23, 2, 3⟩,
      ⟨0, 25, 1, 2⟩, ⟨0, 26, 3, 2⟩, ⟨0, 27, 10, 2⟩, ⟨0, 28, 1, 2⟩, ⟨0, 31, 2, 3⟩, ⟨0, 32, 1, 2⟩, ⟨0, 33, 2, 2⟩,
      ⟨0, 34, 1, 2⟩, ⟨0, 34, 2, 2⟩, ⟨0, 34, 4, 2⟩, ⟨0, 37, 1, 1⟩, ⟨0, 37, 2, 1⟩, ⟨0, 37, 3, 1⟩, ⟨0, 37, 6, 1⟩,
      ⟨1, 0, 10, 8⟩, ⟨1, 4, 1, 2⟩, ⟨1, 14, 4, 4⟩, ⟨1, 19, 10, 5⟩, ⟨1, 24, 10, 3⟩, ⟨2, 0, 1, 1⟩, ⟨2, 12, 10, 6⟩,
      ⟨2, 25, 9, 5⟩, ⟨2, 26, 9, 3⟩, ⟨2, 28, 9, 3⟩, ⟨3, 2, 8, 11⟩, ⟨3, 5, 1, 1⟩, ⟨3, 28, 9, 4⟩, ⟨4, 5, 1, 1⟩, ⟨4, 8, 1, 1⟩,
      ⟨5, 6, 1, 2⟩, ⟨5, 14, 5, 2⟩, ⟨6, 7, 1, 1⟩, ⟨7, 1, 5, 4⟩, ⟨7, 14, 4, 4⟩, ⟨7, 15, 3, 1⟩, ⟨7, 15, 4, 1⟩, ⟨7, 22, 2, 6⟩,
      ⟨8, 0, 3, 7⟩, ⟨8, 4, 1, 1⟩, ⟨8, 15, 1, 1⟩, ⟨8, 19, 1, 1⟩, ⟨8, 37, 8, 1⟩, ⟨9, 2, 2, 1⟩, ⟨9, 2, 5, 1⟩, ⟨10, 0, 3, 2⟩,
      ⟨10, 1, 2, 1⟩, ⟨11, 10, 4, 7⟩, ⟨11, 15, 2, 1⟩, ⟨11, 35, 4, 1⟩, ⟨12, 34, 3, 2⟩, ⟨12, 34, 5, 2⟩, ⟨12, 37, 2, 1⟩,
      ⟨13, 1, 1, 1⟩, ⟨13, 1, 2, 1⟩, ⟨13, 3, 3, 1⟩, ⟨13, 24, 3, 1⟩, ⟨13, 37, 3, 1⟩, ⟨14, 0, 3, 2⟩, ⟨14, 0, 6, 2⟩,
      ⟨14, 0, 6, 4⟩, ⟨14, 1, 6, 2⟩, ⟨14, 1, 6, 4⟩, ⟨14, 2, 6, 11⟩, ⟨14, 14, 3, 1⟩, ⟨14, 37, 4, 1⟩, ⟨14, 37, 6, 1⟩,
      ⟨15, 31, 1, 1⟩, ⟨16, 1, 2, 1⟩, ⟨16, 22, 1, 1⟩, ⟨17, 0, 5, 8⟩, ⟨17, 1, 1, 1⟩, ⟨17, 8, 5, 8⟩, ⟨17, 10, 3, 4⟩,
      ⟨17, 13, 3, 2⟩, ⟨17, 14, 5, 2⟩, ⟨17, 19, 5, 2⟩, ⟨17, 34, 5, 2⟩, ⟨19, 5, 4, 6⟩, ⟨20, 2, 1, 1⟩, ⟨20, 12, 1, 3⟩,
      ⟨20, 13, 4, 2⟩, ⟨20, 14, 4, 2⟩, ⟨20, 16, 4, 7⟩, ⟨20, 22, 4, 6⟩, ⟨20, 23, 4, 2⟩, ⟨20, 37, 4, 1⟩, ⟨21, 1, 1, 1⟩,
      ⟨21, 14, 1, 1⟩, ⟨21, 15, 1, 1⟩, ⟨21, 17, 1, 1⟩, ⟨21, 21, 1, 1⟩, ⟨23, 0, 3, 10⟩, ⟨23, 5, 1, 1⟩, ⟨23, 6, 1, 1⟩,
      ⟨23, 8, 1, 1⟩, ⟨23, 10, 1, 1⟩, ⟨23, 10, 3, 10⟩, ⟨23, 17, 3, 6⟩, ⟨23, 19, 3, 6⟩, ⟨23, 22, 3, 6⟩, ⟨23, 37, 3, 1⟩,
      ⟨24, 7, 1, 1⟩, ⟨24, 8, 1, 1⟩, ⟨25, 5, 1, 1⟩, ⟨25, 6, 1, 1⟩, ⟨26, 0, 1, 1⟩, ⟨26, 4, 2, 4⟩, ⟨26, 5, 1, 1⟩,
      ⟨26, 8, 2, 4⟩, ⟨26, 8, 2, 10⟩, ⟨26, 20, 2, 6⟩, ⟨26, 21, 2, 3⟩, ⟨26, 25, 2, 2⟩, ⟨26, 28, 2, 4⟩, ⟨26, 34, 2, 2⟩,
      ⟨26, 35, 2, 1⟩, ⟨26, 36, 2, 1⟩, ⟨26, 37, 2, 1⟩, ⟨27, 0, 1, 1⟩, ⟨27, 5, 1, 1⟩, ⟨28, 5, 1, 1⟩, ⟨29, 0, 1, 1⟩,
      ⟨29, 1, 1, 3⟩, ⟨29, 5, 1, 1⟩, ⟨29, 24, 1, 2⟩, ⟨29, 25, 1, 2⟩, ⟨29, 31, 1, 2⟩, ⟨29, 32, 1, 2⟩, ⟨29, 33, 1, 2⟩,
      ⟨29, 34, 1, 2⟩, ⟨29, 37, 1, 1⟩]
  | .night => [
      ⟨0, 0, 2, 4⟩, ⟨0, 0, 3, 13⟩, ⟨0, 0, 4, 2⟩, ⟨0, 0, 4, 4⟩, ⟨0, 0, 5, 3⟩, ⟨0, 0, 6, 4⟩, ⟨0, 0, 10, 4⟩, ⟨0, 1, 7, 1⟩,
      ⟨0, 4, 2, 10⟩, ⟨0, 4, 2, 12⟩, ⟨0, 4, 5, 5⟩, ⟨0, 7, 4, 4⟩, ⟨0, 13, 3, 2⟩, ⟨0, 13, 5, 9⟩, ⟨0, 16, 2, 2⟩, ⟨0, 19, 7, 7⟩,
      ⟨0, 20, 2, 5⟩, ⟨0, 20, 3, 2⟩, ⟨0, 20, 3, 3⟩, ⟨0, 21, 3, 6⟩, ⟨0, 23, 3, 2⟩, ⟨0, 25, 4, 5⟩, ⟨0, 25, 9, 3⟩,
      ⟨0, 25, 10, 3⟩, ⟨0, 26, 3, 2⟩, ⟨0, 32, 1, 2⟩, ⟨0, 32, 2, 1⟩, ⟨0, 34, 2, 2⟩, ⟨0, 37, 1, 1⟩, ⟨0, 37, 3, 1⟩,
      ⟨1, 0, 10, 7⟩, ⟨1, 5, 10, 3⟩, ⟨1, 12, 7, 2⟩, ⟨1, 16, 10, 8⟩, ⟨1, 24, 10, 2⟩, ⟨1, 25, 10, 5⟩, ⟨1, 35, 1, 1⟩,
      ⟨2, 4, 10, 3⟩, ⟨2, 10, 3, 10⟩, ⟨2, 19, 10, 7⟩, ⟨2, 24, 10, 5⟩, ⟨2, 25, 10, 4⟩, ⟨3, 4, 1, 2⟩, ⟨3, 4, 9, 12⟩,
      ⟨3, 7, 9, 11⟩, ⟨3, 21, 3, 3⟩, ⟨3, 22, 4, 2⟩, ⟨3, 25, 2, 2⟩, ⟨3, 25, 9, 5⟩, ⟨5, 19, 2, 3⟩, ⟨6, 13, 5, 1⟩, ⟨7, 0, 4, 1⟩,
      ⟨7, 14, 4, 1⟩, ⟨7, 14, 5, 1⟩, ⟨8, 0, 1, 1⟩, ⟨8, 2, 1, 1⟩, ⟨8, 13, 4, 2⟩, ⟨8, 14, 1, 1⟩, ⟨8, 14, 3, 1⟩, ⟨8, 19, 8, 7⟩,
      ⟨8, 21, 1, 1⟩, ⟨8, 22, 1, 1⟩, ⟨9, 22, 1, 1⟩, ⟨10, 1, 4, 1⟩, ⟨10, 1, 6, 2⟩, ⟨11, 0, 3, 1⟩, ⟨11, 3, 4, 3⟩,
      ⟨11, 14, 4, 3⟩, ⟨12, 12, 5, 3⟩, ⟨13, 0, 3, 1⟩, ⟨13, 22, 1, 1⟩, ⟨14, 0, 6, 7⟩, ⟨14, 19, 6, 7⟩, ⟨14, 23, 1, 1⟩,
      ⟨14, 37, 3, 1⟩, ⟨15, 23, 1, 1⟩, ⟨16, 0, 2, 1⟩, ⟨16, 35, 1, 1⟩, ⟨17, 0, 4, 3⟩, ⟨17, 0, 5, 3⟩, ⟨17, 11, 3, 3⟩,
      ⟨17, 11, 5, 2⟩, ⟨17, 18, 3, 2⟩, ⟨18, 0, 4, 4⟩, ⟨19, 0, 4, 2⟩, ⟨19, 11, 3, 3⟩, ⟨19, 20, 2, 2⟩, ⟨20, 3, 4, 5⟩,
      ⟨20, 13, 4, 9⟩, ⟨20, 17, 4, 3⟩, ⟨20, 20, 4, 2⟩, ⟨21, 4, 3, 5⟩, ⟨21, 17, 1, 3⟩, ⟨22, 8, 3, 4⟩, ⟨22, 19, 2, 3⟩,
      ⟨22, 22, 3, 2⟩, ⟨22, 23, 2, 2⟩, ⟨22, 24, 3, 2⟩, ⟨22, 26, 3, 2⟩, ⟨23, 0, 3, 7⟩, ⟨23, 0, 3, 13⟩, ⟨23, 3, 2, 3⟩,
      ⟨23, 3, 3, 6⟩, ⟨23, 6, 1, 1⟩, ⟨23, 15, 3, 6⟩, ⟨23, 18, 3, 7⟩, ⟨23, 23, 3, 2⟩, ⟨23, 37, 3, 1⟩, ⟨24, 0, 1, 1⟩,
      ⟨24, 5, 1, 1⟩, ⟨26, 0, 1, 1⟩, ⟨26, 1, 2, 4⟩, ⟨26, 7, 2, 11⟩, ⟨26, 10, 2, 10⟩, ⟨26, 19, 2, 4⟩, ⟨26, 19, 2, 7⟩,
      ⟨26, 26, 2, 2⟩, ⟨26, 33, 2, 1⟩, ⟨26, 34, 2, 2⟩, ⟨26, 37, 2, 1⟩, ⟨27, 0, 1, 1⟩, ⟨29, 0, 1, 1⟩, ⟨29, 15, 1, 1⟩,
      ⟨29, 22, 1, 5⟩, ⟨29, 31, 1, 2⟩, ⟨29, 34, 1, 1⟩, ⟨29, 36, 1, 1⟩, ⟨29, 37, 1, 1⟩]

instance (r : Feature) : Decidable r.Fits :=
  decidable_of_iff (0 ≤ r.x ∧ 0 ≤ r.y ∧ 0 ≤ r.width ∧ 0 ≤ r.height ∧ r.x + 3 * r.width ≤ 32 ∧ r.y + 3 * r.height ≤ 40)
    ⟨fun ⟨left, top, wide, high, right, bottom⟩ => ⟨left, top, wide, high, right, bottom⟩,
      fun ⟨left, top, wide, high, right, bottom⟩ => ⟨left, top, wide, high, right, bottom⟩⟩

/-- A cascade of the source after `InitHaarParam`. -/
def shipped (k : Cascade) (thresholds leaves : List Int) (subsets : List (BitVec 32)) : CvLBPClassifierCascade where
  data := limited k
  thresholds := thresholds
  nodes := nodeFeatures k
  leaves := leaves
  subsets := subsets
  features := featureTable k

theorem featureTable_fits (k : Cascade) : ∀ r ∈ featureTable k, r.Fits := by
  cases k <;> decide +kernel

theorem nodeFeatures_lt (k : Cascade) : ∀ n ∈ nodeFeatures k, n < (featureTable k).length := by
  cases k <;> decide +kernel

theorem limited_within (k : Cascade) : (limited k).nodeCount ≤ (nodeFeatures k).length ∧ (limited k).nodeCount ≤ 300 ∧
    (limited k).nodeCount ≤ (cascadeData k).nodeCount ∧ 2 ≤ (limited k).stageCount ∧ (limited k).stageCount ≤ (cascadeData k).stageCount := by
  cases k <;> decide +kernel

theorem limited_stages (k : Cascade) : ∀ i < (limited k).stageCount, ∃ stage, (limited k).stages[i]? = some stage ∧
    stage.first + stage.ntrees ≤ (limited k).nodeCount := by
  have all : ∀ i < (limited k).stageCount, ((limited k).stages[i]?.any fun stage => stage.first + stage.ntrees ≤ (limited k).nodeCount) := by
    cases k <;> decide +kernel
  intro i low
  obtain ⟨stage, found, within⟩ := (Option.any_eq_true _ _).mp (all i low)
  exact ⟨stage, found, of_decide_eq_true within⟩

/-- **The tables in the source** fit, with the stages that are used. -/
theorem shipped_fits (k : Cascade) {thresholds leaves : List Int} {subsets : List (BitVec 32)}
    (count : thresholds.length = (cascadeData k).stageCount) (leafCount : leaves.length = 2 * (cascadeData k).nodeCount)
    (subsetCount : subsets.length = 8 * (cascadeData k).nodeCount) : (shipped k thresholds leaves subsets).Fits where
  nodeCount := (limited_within k).2.1
  nodes i low := by
    have inside : i < (nodeFeatures k).length := low.trans_le (limited_within k).1
    have feature := nodeFeatures_lt k _ (List.getElem_mem inside)
    exact ⟨_, _, List.getElem?_eq_getElem inside, List.getElem?_eq_getElem feature, featureTable_fits k _ (List.getElem_mem feature)⟩
  several := (limited_within k).2.2.2.1
  stages := limited_stages k
  thresholds := count ▸ (limited_within k).2.2.2.2
  leaves := leafCount ▸ Nat.mul_le_mul_left 2 (limited_within k).2.2.1
  subsets := subsetCount ▸ Nat.mul_le_mul_left 8 (limited_within k).2.2.1

end VideoDetector.Alg
