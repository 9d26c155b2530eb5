import Mathlib.Data.List.Intervals
import VideoDetector.Lib.Affine
import VideoDetector.Lib.Tables

/-!
# The pedestrian scanner (`Pvd/c4common.h`, `Pvd/c4common.cpp`)

`FastScan` looks at an image and at smaller and smaller copies of it. The linear classifier is not computed window by
window: its score of every pixel goes into one image of sums, and four entries of that give the score of a window. Only the
windows it leaves over get a histogram. Images are indexed by row and column; what is outside of them, and the margin of
`ct` that `ComputeCT` does not write, is whatever is in `Leftover`.
-/

namespace VideoDetector.Pvd
set_option autoImplicit false
open Lib

/-- `IntImage<T>`. -/
structure IntImage (T : Type) where
  nrow : Nat
  ncol : Nat
  p : Nat × Nat → T

structure CRect (K : Type) where
  left : K
  top : K
  right : K
  bottom : K
  deriving DecidableEq

/-- A rectangle in an image that is not smaller than a window. -/
structure CRect.Within {K : Type} [Field K] [LE K] (height width nrow ncol : Nat) (r : CRect K) : Prop where
  left : 0 ≤ r.left
  wide : r.left + width ≤ r.right
  right : r.right ≤ ncol
  top : 0 ≤ r.top
  high : r.top + height ≤ r.bottom
  bottom : r.bottom ≤ nrow

/-- A `NodeDetector` with its classifier row after row. -/
structure NodeDetector (K : Type) where
  nrow : Nat
  ncol : Nat
  buf : Int → K
  thresh : K

/-- `DetectionScanner`, with a linear node and a histogram node. -/
structure DetectionScanner (K : Type) where
  height : Nat
  width : Nat
  xdiv : Nat
  ydiv : Nat
  baseflength : Nat
  ratio : K
  linear : NodeDetector K
  histogram : NodeDetector K

/-- What is in memory at the places that are not written. -/
structure Leftover (K : Type) where
  ct : Nat × Nat → Int
  scores : Nat × Nat → K

inductive ScanFault where
  | assertion
  | unfinished

/-! ## Images -/

section
variable {K : Type} [Field K]

namespace IntImage

/-- The place is one of the image. -/
def Holds {T : Type} (image : IntImage T) (q : Nat × Nat) : Prop := q.1 < image.nrow ∧ q.2 < image.ncol

instance {T : Type} (image : IntImage T) (q : Nat × Nat) : Decidable (image.Holds q) := instDecidableAnd

/-- `Sobel(result, false, false)`. -/
def sobel (image : IntImage K) : IntImage K where
  nrow := image.nrow
  ncol := image.ncol
  p := fun (i, j) =>
    if 1 ≤ i ∧ i + 1 < image.nrow ∧ 1 ≤ j ∧ j + 1 < image.ncol then
      let p1 := fun j => image.p (i - 1, j)
      let p2 := fun j => image.p (i, j)
      let p3 := fun j => image.p (i + 1, j)
      let gx := p1 (j - 1) - p1 (j + 1) + (2 : Nat) * (p2 (j - 1) - p2 (j + 1)) + p3 (j - 1) - p3 (j + 1)
      let gy := p1 (j - 1) - p3 (j - 1) + (2 : Nat) * (p1 j - p3 j) + p1 (j + 1) - p3 (j + 1)
      gx * gx + gy * gy
    else 0

/-- The loop over the first line. -/
def firstLine (ncol : Nat) (p : Nat × Nat → K) : Nat × Nat → K :=
  (List.Ico 1 ncol).foldl (fun p i => Function.update p (0, i) (p (0, i) + p (0, i - 1))) p

/-- The loop over the line `i`, with `partialsum`. -/
def integralLine (ncol : Nat) (p : Nat × Nat → K) (i : Nat) : Nat × Nat → K :=
  ((List.range ncol).foldl (fun (r : (Nat × Nat → K) × K) j =>
    let partialsum := r.2 + r.1 (i, j)
    (Function.update r.1 (i, j) (r.1 (i - 1, j) + partialsum), partialsum)) (p, 0)).1

/-- `CalcIntegralImageInPlace`. -/
def calcIntegralImageInPlace (image : IntImage K) : IntImage K :=
  { image with p := (List.Ico 1 image.nrow).foldl (integralLine image.ncol) (firstLine image.ncol image.p) }

variable [LinearOrder K]

/-- `ComputeCT`, for one pixel. -/
def census (original : IntImage K) (q : Nat × Nat) : Nat :=
  let (i, j) := q
  let p1 := fun j => original.p (i - 1, j)
  let p2 := fun j => original.p (i, j)
  let p3 := fun j => original.p (i + 1, j)
  (if p2 j ≤ p1 (j - 1) then 0x80 else 0) + (if p2 j ≤ p1 j then 0x40 else 0) + (if p2 j ≤ p1 (j + 1) then 0x20 else 0) +
    (if p2 j ≤ p2 (j - 1) then 0x10 else 0) + (if p2 j ≤ p2 (j + 1) then 0x08 else 0) +
    (if p2 j ≤ p3 (j - 1) then 0x04 else 0) + (if p2 j ≤ p3 j then 0x02 else 0) + (if p2 j ≤ p3 (j + 1) then 1 else 0)

/-- `ComputeCT`. Two rows and two columns on every side keep what they had. -/
def computeCT (original : IntImage K) (had : Nat × Nat → Int) : IntImage Int where
  nrow := original.nrow
  ncol := original.ncol
  p := fun q =>
    if 2 ≤ q.1 ∧ q.1 < original.nrow - 2 ∧ 2 ≤ q.2 ∧ q.2 < original.ncol - 2 then original.census q else had q

variable [FloorRing K]

/-- A coordinate `x0` and the rest `x`, in `n` pixels. The last pixel is reached from the one before it. -/
def resizeAt (n : Nat) (x : K) : Nat × K :=
  let x0 := (truncate x).toNat
  let x0 := if x0 + 1 = n then x0 - 1 else x0
  (x0, x - x0)

/-- `Resize` to a height and a width, after the assertion. -/
def stretch (image : IntImage K) (height width : Nat) : IntImage K where
  nrow := height
  ncol := width
  p := fun (i, j) =>
    let (x0, x) := resizeAt image.nrow (i * (image.nrow / height : K))
    let (y0, y) := resizeAt image.ncol (j * (image.ncol / width : K))
    let fx0 := image.p (x0, y0) + y * (image.p (x0, y0 + 1) - image.p (x0, y0))
    let fx1 := image.p (x0 + 1, y0) + y * (image.p (x0 + 1, y0 + 1) - image.p (x0 + 1, y0))
    fx0 + x * (fx1 - fx0)

/-- `Resize` by a ratio. -/
def resize (image : IntImage K) (ratio : K) : Except ScanFault (IntImage K) :=
  let height := truncate (image.nrow * ratio)
  let width := truncate (image.ncol * ratio)
  if 0 < height ∧ 0 < width then .ok (image.stretch height.toNat width.toNat) else .error .assertion

end IntImage

/-! ## The scan -/

namespace DetectionScanner
variable (S : DetectionScanner K)

/-- The blocks of a window, in the order of their features. -/
def blocks : List (Nat × Nat) := List.range (S.xdiv - 1) ×ˢ List.range (S.ydiv - 1)

def featureLength : Nat := (S.xdiv - 1) * (S.ydiv - 1) * S.baseflength

/-- The upper left corners of the windows that are looked at. -/
def corners (nrow ncol stepsize : Nat) : List (Nat × Nat) :=
  stepped 2 (nrow - 2 - S.height) stepsize ×ˢ stepped 2 (ncol - 2 - S.width) stepsize

/-- The loops over `x` and `y` of `InitIntegralImages`, with `linearweights` at the place `first`. -/
def addBlock (ct : IntImage Int) (scores : Nat × Nat → K) (first : Nat) (b : Nat × Nat) : Nat × Nat → K :=
  let xoffset := S.height / S.xdiv * b.1
  let yoffset := S.width / S.ydiv * b.2
  fun (x, y) =>
    if 2 ≤ x ∧ x < ct.nrow - 2 - xoffset ∧ 2 ≤ y ∧ y < ct.ncol - 2 - yoffset then
      scores (x, y) + S.linear.buf (first + ct.p (x + xoffset, y + yoffset))
    else scores (x, y)

/-- `InitIntegralImages` to the call of `CalcIntegralImageInPlace`. -/
def pixelScores (ct : IntImage Int) (had : Nat × Nat → K) : IntImage K :=
  let hd := S.height / S.xdiv * 2 - 2
  let wd := S.width / S.ydiv * 2 - 2
  let zero : Nat × Nat → K := fun q => if ct.Holds q then S.linear.thresh / hd / wd else had q
  ⟨ct.nrow, ct.ncol, (S.blocks.foldl (fun r b => (S.addBlock ct r.1 r.2 b, r.2 + S.baseflength)) (zero, 0)).1⟩

/-- `InitIntegralImages`. -/
def initIntegralImages (ct : IntImage Int) (had : Nat × Nat → K) (stepsize : Nat) : Nat × Nat → K :=
  let hd := S.height / S.xdiv * 2 - 2
  let wd := S.width / S.ydiv * 2 - 2
  let scores := (S.pixelScores ct had).calcIntegralImageInPlace
  (S.corners ct.nrow ct.ncol stepsize).foldl (fun p (i, j) =>
    Function.update p (i, j) (p (i, j) + (p (i + hd, j + wd) - p (i + hd, j) - p (i, j + wd)))) scores.p

/-- The pixels of a block of the window at a corner. -/
def cells (corner b : Nat × Nat) : List (Nat × Nat) :=
  let hd := S.height / S.xdiv
  let wd := S.width / S.ydiv
  List.Ico (corner.1 + b.1 * hd + 1) (corner.1 + (b.1 + 2) * hd - 1) ×ˢ
    List.Ico (corner.2 + b.2 * wd + 1) (corner.2 + (b.2 + 2) * wd - 1)

/-- The loops that fill `hist`. -/
def fillHist (ct : IntImage Int) (corner : Nat × Nat) : Int → Nat :=
  (S.blocks.foldl (fun (r : (Int → Nat) × Nat) b =>
    ((S.cells corner b).foldl (fun hist q => Function.update hist (r.2 + ct.p q) (hist (r.2 + ct.p q) + 1)) r.1,
      r.2 + S.baseflength)) (fun _ => 0, 0)).1

/-- The score of the histogram node. -/
def histScore (hist : Int → Nat) : K :=
  (List.range S.histogram.nrow).foldl (fun score k => score + S.histogram.buf ((k * S.histogram.ncol : Nat) + hist k))
    S.histogram.thresh

/-- `rect`, with divisions of numbers of the type `int`. -/
def place (original image : IntImage K) (corner : Nat × Nat) : CRect K where
  top := (corner.1 * original.nrow / image.nrow : Nat)
  bottom := ((corner.1 + S.height) * original.nrow / image.nrow : Nat)
  left := (corner.2 * original.ncol / image.ncol : Nat)
  right := ((corner.2 + S.width) * original.ncol / image.ncol : Nat)

variable [LinearOrder K]

/-- The loops over `i` and `j`, for one of the images. -/
def scanImage (original image : IntImage K) (left : Leftover K) (stepsize : Nat) (results : List (CRect K)) : List (CRect K) :=
  let ct := image.sobel.computeCT left.ct
  let scores := S.initIntegralImages ct left.scores stepsize
  (S.corners image.nrow image.ncol stepsize).foldl (fun results corner =>
    if scores corner ≤ 0 then results
    else if S.histScore (S.fillHist ct corner) > 0 then results ++ [S.place original image corner] else results) results

variable [FloorRing K]

/-- The loop over the images. -/
def scanFrom (original : IntImage K) (left : Nat → Leftover K) (stepsize : Nat) :
    Nat → IntImage K → List (CRect K) → Except ScanFault (List (CRect K))
  | 0, _, _ => .error .unfinished
  | fuel + 1, image, results =>
    if image.nrow ≥ S.height ∧ image.ncol ≥ S.width then do
      let results := S.scanImage original image (left fuel) stepsize results
      scanFrom original left stepsize fuel (← image.resize S.ratio) results
    else .ok results

/-- `FastScan`. -/
def fastScan (original : IntImage K) (left : Nat → Leftover K) (results : List (CRect K)) (stepsize fuel : Nat) :
    Except ScanFault (List (CRect K)) :=
  if original.nrow < S.height + 5 ∨ original.ncol < S.width + 5 then .ok results
  else S.scanFrom original left stepsize fuel original []

end DetectionScanner
end
end VideoDetector.Pvd
