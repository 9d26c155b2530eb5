import Mathlib.Algebra.Order.BigOperators.Group.List
import Mathlib.Data.Rat.Floor
import VideoDetector.Pvd.Scanner

/-!
# Four entries for a window

`calcIntegralImageInPlace_p` says what the image of sums has, `initIntegralImages_eq` that the entry of a corner is the
linear classifier on the descriptor of its window, and `fillHist_eq` that the histogram is this descriptor.
-/

namespace VideoDetector.Pvd
set_option autoImplicit false
open Lib

/-! ## The image of sums -/

section
variable {K : Type} [Field K] (p : Nat × Nat → K) (ncol : Nat)

namespace IntImage

theorem firstLine_eq (i j : Nat) : firstLine ncol p (i, j) = if i = 0 ∧ j < ncol then strip p 0 (j + 1) else p (i, j) := by
  cases ncol with
  | zero => simp [firstLine, List.Ico.eq_nil_of_le (Nat.zero_le 1)]
  | succ n =>
    unfold firstLine
    induction n generalizing i j with
    | zero => by_cases first : i = 0 ∧ j = 0 <;> simp_all [strip]
    | succ n ih =>
      rw [List.Ico.succ_top (Nat.succ_pos n), List.foldl_append, List.foldl_cons, List.foldl_nil]
      by_cases here : (i, j) = (0, n + 1)
      · obtain ⟨rfl, rfl⟩ := Prod.mk.inj here
        rw [Function.update_self, ih, ih, strip_succ p 0 (n + 1), add_comm (strip p 0 (n + 1))]
        simp
      · rw [Function.update_of_ne here, ih]
        have other : i = 0 → j ≠ n + 1 := fun row column => here (by rw [row, column])
        exact if_congr (by omega) rfl rfl

/-- The line after `n` rounds of its loop, and `partialsum`. -/
theorem integralLine_loop (i n : Nat) (below : 1 ≤ i) :
    let r := (List.range n).foldl (fun (r : (Nat × Nat → K) × K) j =>
      let partialsum := r.2 + r.1 (i, j)
      (Function.update r.1 (i, j) (r.1 (i - 1, j) + partialsum), partialsum)) (p, 0)
    r.2 = strip p i n ∧ ∀ i' j, r.1 (i', j) = if i' = i ∧ j < n then p (i - 1, j) + strip p i (j + 1) else p (i', j) := by
  induction n with
  | zero => simp [strip]
  | succ n ih =>
    obtain ⟨sum, cells⟩ := ih
    rw [List.range_succ, List.foldl_append]
    simp only [List.foldl_cons, List.foldl_nil, sum, cells, lt_irrefl, and_false, if_false, ← strip_succ]
    refine ⟨trivial, fun i' j => ?_⟩
    by_cases here : (i', j) = (i, n)
    · obtain ⟨rfl, rfl⟩ := Prod.mk.inj here
      simp
    · rw [Function.update_of_ne here, cells]
      have other : i' = i → j ≠ n := fun row column => here (by rw [row, column])
      exact if_congr (by omega) rfl rfl

theorem integralLine_eq {i : Nat} (below : 1 ≤ i) (i' j : Nat) :
    integralLine ncol p i (i', j) = if i' = i ∧ j < ncol then p (i - 1, j) + strip p i (j + 1) else p (i', j) :=
  (integralLine_loop p i ncol below).2 i' j

/-- **The image of sums** has, at each of its places, the sum of all pixels above and to the left. -/
theorem calcIntegralImageInPlace_p (image : IntImage K) (i j : Nat) (inside : image.Holds (i, j)) :
    image.calcIntegralImageInPlace.p (i, j) = area image.p i j := by
  have lines : ∀ n, 1 ≤ n → ∀ i j, (List.Ico 1 n).foldl (integralLine image.ncol) (firstLine image.ncol image.p) (i, j) =
      if i < n ∧ j < image.ncol then area image.p i j else image.p (i, j) := by
    intro n some
    induction n, some using Nat.le_induction with
    | base =>
      intro i j
      rw [List.Ico.self_empty, List.foldl_nil, firstLine_eq]
      by_cases first : i = 0
      · subst first
        simp [area_zero]
      · simp [first]
    | succ n some ih =>
      intro i j
      rw [List.Ico.succ_top some, List.foldl_append, List.foldl_cons, List.foldl_nil, integralLine_eq _ _ some, ih, ih]
      have row (j) : strip ((List.Ico 1 n).foldl (integralLine image.ncol) (firstLine image.ncol image.p)) n j = strip image.p n j :=
        Finset.sum_congr rfl fun y _ => by simp [ih]
      rcases Nat.lt_trichotomy i n with less | rfl | more
      · simp [less, less.ne, Nat.lt_succ_of_lt less]
      · obtain ⟨m, rfl⟩ := Nat.exists_eq_add_of_le' some
        rw [row, area_succ]
        by_cases column : j < image.ncol <;> simp [column]
      · simp [more.ne', Nat.not_lt.mpr more.le, show ¬ i < n + 1 by omega]
  obtain ⟨row, column⟩ := inside
  exact (lines image.nrow (by omega) i j).trans (if_pos ⟨row, column⟩)

end IntImage
end

/-! ## The features of a window -/

section
variable {K : Type} [Field K] [LinearOrder K]

theorem ite_le (c : Prop) [Decidable c] (n : Nat) : (if c then n else 0) ≤ n := by
  split
  · exact le_rfl
  · exact Nat.zero_le n

omit [Field K] in
theorem IntImage.census_lt (image : IntImage K) (q : Nat × Nat) : image.census q < 256 := by
  have bits := fun (c : Prop) [Decidable c] => ite_le c
  obtain ⟨i, j⟩ := q
  have h0 := bits (image.p (i, j) ≤ image.p (i - 1, j - 1)) 0x80
  have h1 := bits (image.p (i, j) ≤ image.p (i - 1, j)) 0x40
  have h2 := bits (image.p (i, j) ≤ image.p (i - 1, j + 1)) 0x20
  have h3 := bits (image.p (i, j) ≤ image.p (i, j - 1)) 0x10
  have h4 := bits (image.p (i, j) ≤ image.p (i, j + 1)) 0x08
  have h5 := bits (image.p (i, j) ≤ image.p (i + 1, j - 1)) 0x04
  have h6 := bits (image.p (i, j) ≤ image.p (i + 1, j)) 0x02
  have h7 := bits (image.p (i, j) ≤ image.p (i + 1, j + 1)) 1
  simp only [IntImage.census]
  omega

/-- A scanner after `LoadDetector`, with blocks of at least two rows and columns and a ratio that makes images smaller. -/
structure LoadedScanner (K : Type) [Field K] [LinearOrder K] extends DetectionScanner K where
  blockRows : 2 ≤ height / xdiv
  blockColumns : 2 ≤ width / ydiv
  features : baseflength = 256
  some : 0 < toDetectionScanner.featureLength
  histogramRows : histogram.nrow = toDetectionScanner.featureLength
  ratio_lt_one : ratio < 1
  rowsLeft : 1 ≤ height * ratio
  columnsLeft : 1 ≤ width * ratio

/-- The scanner that `PvdC4Processor` makes, with classifiers that accept everything. -/
def human : LoadedScanner ℚ where
  height := 108
  width := 36
  xdiv := 9
  ydiv := 4
  baseflength := 256
  ratio := 7 / 10
  linear := ⟨1, 6144, fun _ => 0, 1⟩
  histogram := ⟨6144, 353, fun _ => 0, 1⟩
  blockRows := by decide
  blockColumns := by decide
  features := rfl
  some := (by decide : 0 < (9 - 1) * (4 - 1) * 256)
  histogramRows := (by decide : 6144 = (9 - 1) * (4 - 1) * 256)
  ratio_lt_one := by norm_num
  rowsLeft := by norm_num
  columnsLeft := by norm_num

namespace DetectionScanner
variable (S : DetectionScanner K) (image : IntImage K) (corner : Nat × Nat)

/-- The features of the pixels in the blocks of a window. -/
def keys : List Nat :=
  S.blocks.zipIdx.flatMap fun b => (S.cells corner b.1).map fun q => b.2 * S.baseflength + image.sobel.census q

/-- How often each feature is in a window: the CENTRIST descriptor. -/
def descriptor (k : Nat) : Nat := (S.keys image corner).count k

/-- The linear classifier on the descriptor. -/
def linearScore : K := S.linear.thresh + ∑ k ∈ Finset.range S.featureLength, S.descriptor image corner k • S.linear.buf k

/-- The histogram classifier on the descriptor. -/
def intersectionScore : K :=
  S.histogram.thresh +
    ∑ k ∈ Finset.range S.featureLength, S.histogram.buf (k * S.histogram.ncol + S.descriptor image corner k : Nat)

end DetectionScanner

namespace LoadedScanner
variable (S : LoadedScanner K) (image : IntImage K) {corner : Nat × Nat}

/-- The corner is one of a window in the image, with its margin of two pixels. -/
structure Fits (nrow ncol : Nat) (corner : Nat × Nat) : Prop where
  top : 2 ≤ corner.1
  bottom : corner.1 + S.height < nrow - 2
  left : 2 ≤ corner.2
  right : corner.2 + S.width < ncol - 2

theorem fits_of_mem {nrow ncol stepsize : Nat} (moves : 0 < stepsize)
    (member : corner ∈ S.corners nrow ncol stepsize) : S.Fits nrow ncol corner := by
  obtain ⟨row, column⟩ := List.mem_product.mp member
  obtain ⟨low, k, place⟩ := (mem_stepped moves).mp row
  obtain ⟨low', k', place'⟩ := (mem_stepped moves).mp column
  exact ⟨by omega, by omega, by omega, by omega⟩

theorem block_le {b : Nat × Nat} {n : Nat} (member : (b, n) ∈ S.blocks.zipIdx) :
    (b.1 + 2) * (S.height / S.xdiv) ≤ S.height ∧ (b.2 + 2) * (S.width / S.ydiv) ≤ S.width := by
  obtain ⟨_, _, same⟩ := List.mem_zipIdx member
  obtain ⟨row, column⟩ := List.mem_product.mp (show b ∈ S.blocks by rw [same]; exact List.getElem_mem _)
  have row := List.mem_range.mp row
  have column := List.mem_range.mp column
  exact ⟨(Nat.mul_le_mul_right _ (by omega)).trans (Nat.mul_div_le S.height S.xdiv),
    (Nat.mul_le_mul_right _ (by omega)).trans (Nat.mul_div_le S.width S.ydiv)⟩

/-- `num_dim > 0` is asserted when a node is loaded. -/
theorem two_blocks : 2 * (S.height / S.xdiv) ≤ S.height ∧ 2 * (S.width / S.ydiv) ≤ S.width := by
  have blocks := Nat.pos_of_mul_pos_right S.some
  have row : 2 ≤ S.xdiv := by have := Nat.pos_of_mul_pos_right blocks; omega
  have column : 2 ≤ S.ydiv := by have := Nat.pos_of_mul_pos_left blocks; omega
  exact ⟨(Nat.mul_le_mul_right _ row).trans (Nat.mul_div_le S.height S.xdiv),
    (Nat.mul_le_mul_right _ column).trans (Nat.mul_div_le S.width S.ydiv)⟩

theorem length_blocks : S.blocks.length = (S.xdiv - 1) * (S.ydiv - 1) := by
  rw [DetectionScanner.blocks, List.length_product, List.length_range, List.length_range]

theorem keys_lt (corner : Nat × Nat) : ∀ k ∈ S.keys image corner, k < S.featureLength := by
  intro k member
  obtain ⟨⟨b, n⟩, block, there⟩ := List.mem_flatMap.mp member
  obtain ⟨q, _, rfl⟩ := List.mem_map.mp there
  obtain ⟨_, less, _⟩ := List.mem_zipIdx block
  rw [Nat.zero_add, S.length_blocks] at less
  have one := image.sobel.census_lt q
  have room := S.features
  calc n * S.baseflength + image.sobel.census q < n * S.baseflength + S.baseflength := by omega
    _ = (n + 1) * S.baseflength := by rw [Nat.add_mul n, Nat.one_mul]
    _ ≤ S.featureLength := Nat.mul_le_mul_right _ less

/-- The linear classifier, pixel by pixel. -/
theorem linearScore_eq : S.linearScore image corner = S.linear.thresh +
    (S.blocks.zipIdx.map fun b =>
      ((S.cells corner b.1).map fun q => S.linear.buf (b.2 * S.baseflength + image.sobel.census q : Nat)).sum).sum := by
  rw [DetectionScanner.linearScore]
  have counted := sum_eq_sum_count (fun k : Nat => S.linear.buf k) (S.keys_lt image corner)
  rw [DetectionScanner.keys, sum_flatMap] at counted
  simp only [List.map_map, Function.comp_def] at counted
  rw [counted]
  rfl

/-! ## The scores of the pixels -/

variable (ct : IntImage Int) (had : Nat × Nat → K)

omit [LinearOrder K] in
theorem addBlock_foldl (S : DetectionScanner K) (bs : List ((Nat × Nat) × Nat)) (scores : Nat × Nat → K) (x y : Nat) :
    bs.foldl (fun s b => S.addBlock ct s (b.2 * S.baseflength) b.1) scores (x, y) = scores (x, y) + (bs.map fun b =>
      if 2 ≤ x ∧ x < ct.nrow - 2 - S.height / S.xdiv * b.1.1 ∧ 2 ≤ y ∧ y < ct.ncol - 2 - S.width / S.ydiv * b.1.2 then
        S.linear.buf ((b.2 * S.baseflength : Nat) + ct.p (x + S.height / S.xdiv * b.1.1, y + S.width / S.ydiv * b.1.2))
      else 0).sum := by
  induction bs generalizing scores with
  | nil => simp
  | cons b bs ih =>
    rw [List.foldl_cons, ih, List.map_cons, List.sum_cons, ← add_assoc]
    congr 1
    simp only [DetectionScanner.addBlock]
    split
    · rfl
    · rw [add_zero]

omit [LinearOrder K] in
theorem pixelScores_p (S : DetectionScanner K) {x y : Nat} (inside : ct.Holds (x, y)) :
    (S.pixelScores ct had).p (x, y) =
      S.linear.thresh / (S.height / S.xdiv * 2 - 2 : Nat) / (S.width / S.ydiv * 2 - 2 : Nat) + (S.blocks.zipIdx.map fun b =>
        if 2 ≤ x ∧ x < ct.nrow - 2 - S.height / S.xdiv * b.1.1 ∧ 2 ≤ y ∧ y < ct.ncol - 2 - S.width / S.ydiv * b.1.2 then
          S.linear.buf ((b.2 * S.baseflength : Nat) + ct.p (x + S.height / S.xdiv * b.1.1, y + S.width / S.ydiv * b.1.2))
        else 0).sum := by
  have moved := fun scores => foldl_offset (S.addBlock ct) S.baseflength S.blocks scores 0
  simp only [Nat.zero_mul] at moved
  simp only [DetectionScanner.pixelScores, moved]
  rw [addBlock_foldl, if_pos inside]

/-- The pixels that make up the score of a window lie with all their blocks in the image. -/
theorem pixelScores_window (had' : Nat × Nat → Int) (fits : S.Fits image.nrow image.ncol corner) {x y : Nat}
    (row : x ∈ Finset.Ico (corner.1 + 1) (corner.1 + 1 + (S.height / S.xdiv * 2 - 2)))
    (column : y ∈ Finset.Ico (corner.2 + 1) (corner.2 + 1 + (S.width / S.ydiv * 2 - 2))) :
    (S.pixelScores (image.sobel.computeCT had') had).p (x, y) =
      S.linear.thresh / (S.height / S.xdiv * 2 - 2 : Nat) / (S.width / S.ydiv * 2 - 2 : Nat) + (S.blocks.zipIdx.map fun b =>
        S.linear.buf (b.2 * S.baseflength +
          image.sobel.census (x + S.height / S.xdiv * b.1.1, y + S.width / S.ydiv * b.1.2) : Nat)).sum := by
  obtain ⟨top, bottom, left, right⟩ := fits
  obtain ⟨lowRow, highRow⟩ := Finset.mem_Ico.mp row
  obtain ⟨lowColumn, highColumn⟩ := Finset.mem_Ico.mp column
  have rows := S.blockRows
  have columns := S.blockColumns
  have inside (b : (Nat × Nat) × Nat) (block : b ∈ S.blocks.zipIdx) :
      x + S.height / S.xdiv * b.1.1 < image.nrow - 2 ∧ y + S.width / S.ydiv * b.1.2 < image.ncol - 2 := by
    obtain ⟨height, width⟩ := S.block_le block
    rw [Nat.add_mul, Nat.mul_comm b.1.1] at height
    rw [Nat.add_mul, Nat.mul_comm b.1.2] at width
    omega
  obtain ⟨height, width⟩ := S.two_blocks
  have here : (image.sobel.computeCT had').Holds (x, y) := ⟨show x < image.nrow by omega, show y < image.ncol by omega⟩
  rw [pixelScores_p _ _ _ here]
  congr 2
  refine List.map_congr_left fun b block => ?_
  obtain ⟨low, low'⟩ := inside b block
  have ranges : 2 ≤ x ∧ x < (image.sobel.computeCT had').nrow - 2 - S.height / S.xdiv * b.1.1 ∧
      2 ≤ y ∧ y < (image.sobel.computeCT had').ncol - 2 - S.width / S.ydiv * b.1.2 :=
    ⟨by omega, show x < image.nrow - 2 - _ by omega, by omega, show y < image.ncol - 2 - _ by omega⟩
  rw [if_pos ranges]
  have written : (image.sobel.computeCT had').p (x + S.height / S.xdiv * b.1.1, y + S.width / S.ydiv * b.1.2) =
      image.sobel.census (x + S.height / S.xdiv * b.1.1, y + S.width / S.ydiv * b.1.2) :=
    if_pos ⟨by omega, low, by omega, low'⟩
  rw [written, Nat.cast_add]

/-- One block of a window: the pixels that `InitIntegralImages` shifts are those that the histogram loops go over. -/
theorem sum_cells {b : Nat × Nat} (w : Nat × Nat → K) :
    ((S.cells corner b).map w).sum =
      ∑ x ∈ Finset.Ico (corner.1 + 1) (corner.1 + 1 + (S.height / S.xdiv * 2 - 2)),
        ∑ y ∈ Finset.Ico (corner.2 + 1) (corner.2 + 1 + (S.width / S.ydiv * 2 - 2)),
          w (x + S.height / S.xdiv * b.1, y + S.width / S.ydiv * b.2) := by
  have rows := S.blockRows
  have columns := S.blockColumns
  have shifted (i d k : Nat) (two : 2 ≤ d) (f : Nat → K) :
      ∑ x ∈ Finset.Ico (i + k * d + 1) (i + (k + 2) * d - 1), f x =
        ∑ x ∈ Finset.Ico (i + 1) (i + 1 + (d * 2 - 2)), f (x + d * k) := by
    rw [Finset.sum_Ico_add', Nat.mul_comm d k]
    have ends : i + (k + 2) * d - 1 = i + 1 + (d * 2 - 2) + k * d := by
      rw [Nat.add_mul]
      omega
    rw [ends, Nat.add_right_comm]
  rw [DetectionScanner.cells, sum_product, sum_Ico, shifted _ _ _ rows]
  exact Finset.sum_congr rfl fun x _ => (sum_Ico _ _ _).trans (shifted _ _ _ columns _)

/-- The sum of the scores of pixels over a window is the linear classifier on the window. -/
theorem sum_pixelScores [IsStrictOrderedRing K] (had' : Nat × Nat → Int) (fits : S.Fits image.nrow image.ncol corner) :
    ∑ x ∈ Finset.Ico (corner.1 + 1) (corner.1 + 1 + (S.height / S.xdiv * 2 - 2)),
      ∑ y ∈ Finset.Ico (corner.2 + 1) (corner.2 + 1 + (S.width / S.ydiv * 2 - 2)),
        (S.pixelScores (image.sobel.computeCT had') had).p (x, y) = S.linearScore image corner := by
  have rows := S.blockRows
  have columns := S.blockColumns
  have height : ((S.height / S.xdiv * 2 - 2 : Nat) : K) ≠ 0 := Nat.cast_ne_zero.mpr (by omega)
  have width : ((S.width / S.ydiv * 2 - 2 : Nat) : K) ≠ 0 := Nat.cast_ne_zero.mpr (by omega)
  rw [linearScore_eq, Finset.sum_congr rfl fun x row => Finset.sum_congr rfl fun y column =>
    S.pixelScores_window image had had' fits row column]
  simp only [Finset.sum_add_distrib, Finset.sum_const, Nat.card_Ico, Nat.add_sub_cancel_left, nsmul_eq_mul, sum_comm_map, sum_cells]
  congr 1
  field_simp

/-- The correction may be done in place: the three other entries of a window are below or to the right of its corner. -/
theorem correction_eq {nrow ncol stepsize : Nat} (moves : 0 < stepsize) (member : corner ∈ S.corners nrow ncol stepsize)
    (p : Nat × Nat → K) (hd wd : Nat) :
    (S.corners nrow ncol stepsize).foldl (fun p (i, j) =>
      Function.update p (i, j) (p (i, j) + (p (i + hd, j + wd) - p (i + hd, j) - p (i, j + wd)))) p corner =
      p corner + (p (corner.1 + hd, corner.2 + wd) - p (corner.1 + hd, corner.2) - p (corner.1, corner.2 + wd)) := by
  have sorted (bound) : (stepped 2 bound stepsize).Pairwise (· < ·) := stepped_lt moves
  have distinct : (S.corners nrow ncol stepsize).Nodup :=
    List.Nodup.product ((sorted _).imp fun less => less.ne) ((sorted _).imp fun less => less.ne)
  refine (foldl_update_ahead (g := fun p k => p k + (p (k.1 + hd, k.2 + wd) - p (k.1 + hd, k.2) - p (k.1, k.2 + wd)))
    distinct ?_ p corner).trans (if_pos member)
  intro before k after split f f' agree
  have later (i j : Nat) (low : k.1 ≤ i) (low' : k.2 ≤ j) : f (i, j) = f' (i, j) := by
    refine agree (i, j) fun there => ?_
    rcases product_before (sorted _) (sorted _) split there with above | ⟨_, before⟩
    · exact absurd above (Nat.not_lt.mpr low)
    · exact absurd before (Nat.not_lt.mpr low')
  have down := Nat.le_add_right k.1 hd
  have along := Nat.le_add_right k.2 wd
  simp only [later k.1 k.2 le_rfl le_rfl, later _ _ down along, later _ _ down le_rfl, later _ _ le_rfl along]

/-- **The integral images**: at a corner that is looked at is the linear classifier on the window. -/
theorem initIntegralImages_eq [IsStrictOrderedRing K] (had' : Nat × Nat → Int) {stepsize : Nat} (moves : 0 < stepsize)
    (member : corner ∈ S.corners image.nrow image.ncol stepsize) :
    S.initIntegralImages (image.sobel.computeCT had') had stepsize corner = S.linearScore image corner := by
  have fits := S.fits_of_mem moves member
  have rows := S.blockRows
  have columns := S.blockColumns
  obtain ⟨height, width⟩ := S.two_blocks
  have bottom := fits.bottom
  have right := fits.right
  let scores := S.pixelScores (image.sobel.computeCT had') had
  have four (i j : Nat) (low : i ≤ corner.1 + (S.height / S.xdiv * 2 - 2)) (low' : j ≤ corner.2 + (S.width / S.ydiv * 2 - 2)) :
      scores.calcIntegralImageInPlace.p (i, j) = area scores.p i j :=
    scores.calcIntegralImageInPlace_p i j ⟨show i < image.nrow by omega, show j < image.ncol by omega⟩
  have down := Nat.le_add_right corner.1 (S.height / S.xdiv * 2 - 2)
  have along := Nat.le_add_right corner.2 (S.width / S.ydiv * 2 - 2)
  rw [← S.sum_pixelScores image had had' fits, ← area_box, ← four _ _ down along, ← four _ _ le_rfl le_rfl,
    ← four _ _ le_rfl along, ← four _ _ down le_rfl]
  exact S.correction_eq moves member _ _ _

/-! ## The histogram -/

/-- **The histogram** of a window is its descriptor. -/
theorem fillHist_eq (had' : Nat × Nat → Int) (fits : S.Fits image.nrow image.ncol corner) (k : Nat) :
    S.fillHist (image.sobel.computeCT had') corner k = S.descriptor image corner k := by
  obtain ⟨top, bottom, left, right⟩ := fits
  have written (b : (Nat × Nat) × Nat) (block : b ∈ S.blocks.zipIdx) (q : Nat × Nat) (member : q ∈ S.cells corner b.1) :
      (b.2 * S.baseflength : Nat) + (image.sobel.computeCT had').p q = (b.2 * S.baseflength + image.sobel.census q : Nat) := by
    obtain ⟨height, width⟩ := S.block_le block
    obtain ⟨row, column⟩ := List.mem_product.mp member
    have row := List.Ico.mem.mp row
    have column := List.Ico.mem.mp column
    rw [Nat.cast_add]
    congr 1
    exact if_pos ⟨by omega, show q.1 < image.nrow - 2 by omega, by omega, show q.2 < image.ncol - 2 by omega⟩
  have moved := fun hist => foldl_offset (fun (hist : Int → Nat) first b => (S.cells corner b).foldl (fun hist q =>
    Function.update hist ((first : Nat) + (image.sobel.computeCT had').p q)
      (hist (first + (image.sobel.computeCT had').p q) + 1)) hist) S.baseflength S.blocks hist 0
  simp only [Nat.zero_mul] at moved
  have keys : S.blocks.zipIdx.flatMap (fun b => (S.cells corner b.1).map fun q =>
      (b.2 * S.baseflength : Nat) + (image.sobel.computeCT had').p q) = (S.keys image corner).map Nat.cast := by
    rw [DetectionScanner.keys, List.map_flatMap]
    refine List.flatMap_congr fun b block => ?_
    rw [List.map_map]
    exact List.map_congr_left (written b block)
  have counted := foldl_count ((S.keys image corner).map (Nat.cast : Nat → Int)) (fun _ => 0) k
  rw [← keys, List.foldl_flatMap] at counted
  simp only [List.foldl_map] at counted
  rw [DetectionScanner.fillHist, moved]
  refine counted.trans ?_
  rw [keys, List.count_map_of_injective _ _ Nat.cast_injective, Nat.zero_add]
  rfl

theorem histScore_eq (had' : Nat × Nat → Int) (fits : S.Fits image.nrow image.ncol corner) :
    S.histScore (S.fillHist (image.sobel.computeCT had') corner) = S.intersectionScore image corner := by
  rw [DetectionScanner.histScore, foldl_add_range, S.histogramRows, DetectionScanner.intersectionScore]
  simp only [S.fillHist_eq image had' fits, Nat.cast_add]

/-! ## The rows of the histogram classifier -/

/-- The number of pixels of a block. -/
def blockSize : Nat := (S.height / S.xdiv * 2 - 2) * (S.width / S.ydiv * 2 - 2)

omit [Field K] [LinearOrder K] in
theorem length_cells (S : DetectionScanner K) (corner b : Nat × Nat) :
    (S.cells corner b).length = (S.height / S.xdiv * 2 - 2) * (S.width / S.ydiv * 2 - 2) := by
  rw [DetectionScanner.cells, List.length_product, List.Ico.length, List.Ico.length, Nat.add_mul, Nat.add_mul]
  congr 1 <;> omega

theorem descriptor_le (k : Nat) : S.descriptor image corner k ≤ S.blockSize := by
  rw [DetectionScanner.descriptor, DetectionScanner.keys, List.count_flatMap]
  refine sum_zipIdx_le (m := k / 256) _ _ (fun b => ?_) fun b other => ?_
  · refine List.count_le_length.trans ?_
    rw [List.length_map, length_cells]
    exact le_rfl
  · refine List.count_eq_zero_of_not_mem fun member => ?_
    obtain ⟨q, _, same⟩ := List.mem_map.mp member
    have one := image.sobel.census_lt q
    rw [S.features] at same
    omega

/-- In an image of one colour all pixels of the last block have the last feature. -/
theorem descriptor_flat (v : K) (nrow ncol : Nat) :
    S.descriptor ⟨nrow, ncol, fun _ => v⟩ corner (S.featureLength - 1) = S.blockSize := by
  refine (S.descriptor_le _ _).antisymm ?_
  have flat (q) : IntImage.census (IntImage.sobel ⟨nrow, ncol, fun _ => v⟩) q = 255 := by
    have zero (q) : (IntImage.sobel ⟨nrow, ncol, fun _ => v⟩).p q = 0 := by simp [IntImage.sobel]
    simp [IntImage.census, zero]
  have blocks := Nat.pos_of_mul_pos_right S.some
  rw [← S.length_blocks] at blocks
  have last : (S.blocks[S.blocks.length - 1], S.blocks.length - 1) ∈ S.blocks.zipIdx :=
    List.mem_zipIdx_iff_getElem?.mpr (List.getElem?_eq_getElem _)
  have key : (S.blocks.length - 1) * S.baseflength + 255 = S.featureLength - 1 := by
    rw [DetectionScanner.featureLength, ← S.length_blocks, S.features]
    omega
  rw [DetectionScanner.descriptor, DetectionScanner.keys, List.count_flatMap]
  refine le_trans ?_ (List.le_sum_of_mem (List.mem_map_of_mem last))
  simp only [Function.comp_apply, flat, key, List.map_const', List.count_replicate_self, length_cells]
  exact le_rfl

/-- **The upper bound**: the histograms of all windows of all images index the classifier inside of it exactly if a row has
more entries than a block has pixels. -/
theorem histogram_inside_iff :
    (∀ (image : IntImage K) (corner : Nat × Nat), S.Fits image.nrow image.ncol corner → ∀ k < S.featureLength,
      k * S.histogram.ncol + S.descriptor image corner k < S.histogram.nrow * S.histogram.ncol) ↔
    S.blockSize < S.histogram.ncol := by
  rw [S.histogramRows]
  have some := S.some
  constructor
  · intro inside
    have fits : S.Fits (S.height + 5) (S.width + 5) (2, 2) :=
      ⟨le_rfl, show 2 + S.height < _ by omega, le_rfl, show 2 + S.width < _ by omega⟩
    have last := inside ⟨S.height + 5, S.width + 5, fun _ => 0⟩ (2, 2) fits (S.featureLength - 1) (by omega)
    rw [S.descriptor_flat] at last
    have rows : S.featureLength * S.histogram.ncol = (S.featureLength - 1) * S.histogram.ncol + S.histogram.ncol := by
      rw [← Nat.succ_mul, Nat.succ_eq_add_one, Nat.sub_add_cancel some]
    omega
  · intro wide image corner _ k low
    calc k * S.histogram.ncol + S.descriptor image corner k < k * S.histogram.ncol + S.histogram.ncol :=
          Nat.add_lt_add_left ((S.descriptor_le image k).trans_lt wide) _
      _ = (k + 1) * S.histogram.ncol := (Nat.succ_mul k _).symm
      _ ≤ S.featureLength * S.histogram.ncol := Nat.mul_le_mul_right _ low

end LoadedScanner
end
end VideoDetector.Pvd
