import Mathlib.Data.Rat.Floor
import Mathlib.Tactic.Positivity
import VideoDetector.Alg.Grouping
import VideoDetector.Alg.LbpCascade
import VideoDetector.Lib.Loop

/-!
# The vehicle detector (`detectMultiScale` in `fvd-new/alg-mutilthread/cascadedetect.cpp`)

Windows of ten sizes are moved over an image, here by one thread, and what all stages accept is grouped. The image of sums
comes from OpenCV. `detectMultiScale_within` says that no array is left and that the vehicles are in the image,
`detectMultiScale_brightness` that the same vehicles are found in a brighter or darker image.
-/

namespace VideoDetector.Alg
set_option autoImplicit false
open Lib

structure GrayImage where
  rows : Nat
  cols : Nat
  pixel : Nat → Nat → Int

structure Size where
  width : Int
  height : Int

/-- The entries of `detect_win_size` and `factor_array` at one index. -/
structure WinScale where
  width : Int
  height : Int
  factor32x : Int

def winScales : List WinScale :=
  [⟨36, 45, 36⟩, ⟨40, 50, 40⟩, ⟨48, 60, 48⟩, ⟨56, 70, 56⟩, ⟨64, 80, 64⟩, ⟨76, 95, 76⟩, ⟨92, 115, 92⟩, ⟨108, 135, 108⟩,
    ⟨128, 160, 128⟩, ⟨152, 190, 152⟩]

/-- `((length << 5) + (ystep32x >> 1)) / ystep32x` -/
def stopAt (length ystep32x : Int) : Int := (length * 32 + ystep32x / 2).tdiv ystep32x

section
variable (cascade : CvLBPClassifierCascade) (img : GrayImage) (sum : SumImage) (maskImg : Option (List Nat))

/-- `result`. -/
def windowResult (rectP : List (Fin 16 → Int)) (win : WinScale) (ix iy : Int) : Except VehicleFault Int :=
  if ix < 0 ∨ iy < 0 ∨ ix + win.width ≥ sum.cols - 2 ∨ iy + win.height ≥ sum.rows - 2 then .ok (-1)
  else do return ((← cvRunLBPClassifierCascade0 cascade sum rectP ix iy : Nat) : Int)

/-- `*(maskImg+img.cols*iy+ix)==0` -/
def masked (ix iy : Int) : Except VehicleFault Bool :=
  match maskImg with
  | none => .ok false
  | some mask =>
    let i := img.cols * iy + ix
    if 0 ≤ i then do return (← fetch .mask mask i.toNat) = 0 else .error .mask

/-- The body of the loop over `_ix`. -/
def scanPlace (rectP : List (Fin 16 → Int)) (win : WinScale) (ystep32x iy : Int) (s : Int × List Rect) :
    Except VehicleFault (Int × List Rect) := do
  let _xstep := ystep32x / 32
  let ix := (s.1 * ystep32x + 16) / 32
  if ← masked img maskImg ix iy then return (s.1 + _xstep, s.2)
  else
    let result ← windowResult cascade sum rectP win ix iy
    if result = 0 then return (s.1 + 1 + _xstep, s.2)
    else if result ≥ cascade.data.stageCount then return (s.1 + _xstep, s.2 ++ [⟨ix, iy, win.width, win.height⟩])
    else return (s.1 + _xstep, s.2)

/-- The body of the loop over `_iy`. -/
def scanRow (rectP : List (Fin 16 → Int)) (win : WinScale) (ystep32x stopWidth : Int) (objects : List Rect) (_iy : Nat) :
    Except VehicleFault (List Rect) := do
  let iy := (_iy * ystep32x + 16) / 32
  let s ← repeatWhile (fun s => s.1 < stopWidth) (scanPlace cascade img sum maskImg rectP win ystep32x iy) .unfinished
    stopWidth.toNat (0, objects)
  return s.2

/-- The loops for one size. -/
def scanScale (win : WinScale) (objects : List Rect) : Except VehicleFault (List Rect) := do
  let ystep32x := if win.factor32x > 48 then 32 else 64
  let rectP ← cvSetImagesForLBPClassifierCascade cascade sum win.factor32x
  (List.range (stopAt (img.rows - win.height) ystep32x).toNat).foldlM
    (scanRow cascade img sum maskImg rectP win ystep32x (stopAt (img.cols - win.width) ystep32x)) objects

/-- The loop over the sizes. -/
def scanScales (min_size max_size : Size) : List WinScale → List Rect → Except VehicleFault (List Rect)
  | [], objects => .ok objects
  | win :: wins, objects =>
    if win.width < min_size.width ∨ win.height < min_size.height then scanScales min_size max_size wins objects
    else if win.width > max_size.width ∨ win.height > max_size.height then .ok objects
    else if win.width > img.cols - 10 ∨ win.height > img.rows - 10 then .ok objects
    else do scanScales min_size max_size wins (← scanScale cascade img sum maskImg win objects)

end

/-- `detectMultiScale`. -/
def detectMultiScale (K : Type) [Field K] [LinearOrder K] [FloorRing K] (integral : GrayImage → Nat → Int) (img : GrayImage)
    (maskImg : Option (List Nat)) (cascade : CvLBPClassifierCascade) (min_neighbors : Int) (min_size max_size : Size) :
    Except VehicleFault (List Rect) := do
  let sum : SumImage := ⟨img.rows + 1, img.cols + 1, integral img⟩
  let objects ← scanScales cascade img sum maskImg min_size max_size winScales []
  if min_neighbors ≠ 0 then
    let groups ← (groupRectangles objects min_neighbors (1 / ((5 : Nat) : K))).mapError fun _ => .group
    return groups.map RectGroup.rect
  else return objects

/-! ## Places -/

/-- The windows have the shape of the tables. -/
structure WinScale.Shape (win : WinScale) : Prop where
  width : win.width = win.factor32x
  height : win.height = 40 * win.factor32x / 32
  positive : 0 < win.factor32x

instance (win : WinScale) : Decidable win.Shape :=
  decidable_of_iff (win.width = win.factor32x ∧ win.height = 40 * win.factor32x / 32 ∧ 0 < win.factor32x)
    ⟨fun ⟨width, height, positive⟩ => ⟨width, height, positive⟩, fun ⟨width, height, positive⟩ => ⟨width, height, positive⟩⟩

theorem winScales_shape : ∀ win ∈ winScales, win.Shape := by
  decide

/-- A step of the scan is one or two pixels. -/
def Step (ystep32x : Int) : Prop := ystep32x = 32 ∨ ystep32x = 64

/-- The places of the scan are before the end. -/
theorem place_lt {n length ystep32x : Int} (step : Step ystep32x) (nonneg : 0 ≤ n) (room : 0 ≤ length)
    (low : n < stopAt length ystep32x) : 0 ≤ (n * ystep32x + 16) / 32 ∧ (n * ystep32x + 16) / 32 < length := by
  rcases step with rfl | rfl
  · rw [stopAt, Int.tdiv_eq_ediv_of_nonneg (by omega)] at low
    omega
  · rw [stopAt, Int.tdiv_eq_ediv_of_nonneg (by omega)] at low
    omega

variable {cascade : CvLBPClassifierCascade} {img : GrayImage} {sum : SumImage} {maskImg : Option (List Nat)}
  {rectP : List (Fin 16 → Int)} {win : WinScale}

/-- What the scan keeps free at the border is the margin of the classifier. -/
theorem Margin.of_guard (shape : win.Shape) {ix iy : Int}
    (guard : ¬ (ix < 0 ∨ iy < 0 ∨ ix + win.width ≥ sum.cols - 2 ∨ iy + win.height ≥ sum.rows - 2)) :
    Margin sum win.factor32x ix iy := by
  obtain ⟨width, height, positive⟩ := shape
  constructor <;> omega

/-- A window in the image with a margin of two pixels, of a size between two others. -/
structure InMargin (img : GrayImage) (min_size max_size : Size) (r : Rect) : Prop where
  left : 0 ≤ r.x
  top : 0 ≤ r.y
  right : r.x + r.width ≤ img.cols - 2
  bottom : r.y + r.height ≤ img.rows - 2
  wide : min_size.width ≤ r.width
  high : min_size.height ≤ r.height
  narrow : r.width ≤ max_size.width
  low : r.height ≤ max_size.height

/-! ## The scan -/

theorem windowResult_ok (fits : cascade.Fits) (shape : win.Shape) (count : rectP.length = cascade.data.nodeCount)
    (corners : ∀ p ∈ rectP, ∃ r : Feature, r.Fits ∧ p = rectCorners sum.cols win.factor32x r) (ix iy : Int) :
    ∃ result, windowResult cascade sum rectP win ix iy = .ok result ∧
      (0 ≤ result → 0 ≤ ix ∧ 0 ≤ iy ∧ ix + win.width < sum.cols - 2 ∧ iy + win.height < sum.rows - 2) := by
  unfold windowResult
  split
  · exact ⟨-1, rfl, by omega⟩
  · next guard =>
    obtain ⟨ret, run, _⟩ := cvRunLBPClassifierCascade0_ok fits (Margin.of_guard shape guard) count corners
    refine ⟨ret, by rw [run]; rfl, fun _ => by omega⟩

theorem masked_ok (mask : ∀ m ∈ maskImg, m.length = img.rows * img.cols) {ix iy : Int} (left : 0 ≤ ix) (right : ix < img.cols)
    (top : 0 ≤ iy) (bottom : iy < img.rows) : ∃ skip, masked img maskImg ix iy = .ok skip := by
  cases maskImg with
  | none => exact ⟨false, rfl⟩
  | some m =>
    lift ix to Nat using left
    lift iy to Nat using top
    have room : img.cols * iy + ix < m.length := by
      rw [mask m rfl]
      calc img.cols * iy + ix < img.cols * iy + img.cols := by omega
        _ = (iy + 1) * img.cols := by ring
        _ ≤ img.rows * img.cols := Nat.mul_le_mul_right _ (by omega)
    have place : ((img.cols : Int) * iy + ix).toNat = img.cols * iy + ix := by
      rw [← Nat.cast_mul, ← Nat.cast_add, Int.toNat_natCast]
    obtain ⟨v, found⟩ := fetch_of_lt VehicleFault.mask room
    refine ⟨decide (v = 0), ?_⟩
    rw [masked]
    simp only [place, found]
    exact if_pos (by positivity)

section
variable (fits : cascade.Fits) (shape : win.Shape) (count : rectP.length = cascade.data.nodeCount)
  (corners : ∀ p ∈ rectP, ∃ r : Feature, r.Fits ∧ p = rectCorners sum.cols win.factor32x r)
  (rows : sum.rows = img.rows + 1) (cols : sum.cols = img.cols + 1) (mask : ∀ m ∈ maskImg, m.length = img.rows * img.cols)
  {min_size max_size : Size} (large : min_size.width ≤ win.width ∧ min_size.height ≤ win.height)
  (small : win.width ≤ max_size.width ∧ win.height ≤ max_size.height)

include fits shape count corners rows cols mask large small

/-- What one place adds: nothing or the window there. -/
theorem scanPlace_ok {ystep32x iy : Int} (step : Step ystep32x) (top : 0 ≤ iy) (bottom : iy < img.rows) {s : Int × List Rect}
    (place : 0 ≤ (s.1 * ystep32x + 16) / 32 ∧ (s.1 * ystep32x + 16) / 32 < img.cols)
    (found : ∀ r ∈ s.2, InMargin img min_size max_size r) :
    ∃ t, scanPlace cascade img sum maskImg rectP win ystep32x iy s = .ok t ∧ s.1 < t.1 ∧ ∀ r ∈ t.2, InMargin img min_size max_size r := by
  have onward : 0 < ystep32x / 32 := by
    rcases step with rfl | rfl <;> decide
  obtain ⟨skip, look⟩ := masked_ok mask place.1 place.2 top bottom
  obtain ⟨result, run, inside⟩ := windowResult_ok fits shape count corners ((s.1 * ystep32x + 16) / 32) iy
  unfold scanPlace
  simp only [bind, Except.bind, look, run]
  split
  · exact ⟨_, rfl, by omega, found⟩
  · split
    · exact ⟨_, rfl, by omega, found⟩
    · split
      · next accepted =>
        obtain ⟨left, _, right, bottom'⟩ := inside (le_trans (by omega) accepted)
        refine ⟨_, rfl, by simp only; omega, fun r member => ?_⟩
        rcases List.mem_append.mp member with old | new
        · exact found r old
        · rw [List.mem_singleton.mp new]
          constructor <;> simp only <;> omega
      · exact ⟨_, rfl, by omega, found⟩

theorem scanRow_ok {ystep32x : Int} (step : Step ystep32x) (wide : win.width ≤ img.cols) (high : win.height ≤ img.rows)
    {_iy : Nat} (low : (_iy : Int) < stopAt (img.rows - win.height) ystep32x) {objects : List Rect}
    (found : ∀ r ∈ objects, InMargin img min_size max_size r) :
    ∃ objects', scanRow cascade img sum maskImg rectP win ystep32x (stopAt (img.cols - win.width) ystep32x) objects _iy = .ok objects' ∧
      ∀ r ∈ objects', InMargin img min_size max_size r := by
  obtain ⟨top, bottom⟩ := place_lt step (by omega) (by omega) low
  have positive := shape.positive
  have width := shape.width
  have height := shape.height
  obtain ⟨s, run, _, found'⟩ := @repeatWhile_total _ _ (fun s : Int × List Rect => s.1 < stopAt (img.cols - win.width) ystep32x) _
    (scanPlace cascade img sum maskImg rectP win ystep32x ((_iy * ystep32x + 16) / 32)) .unfinished
    (fun s => 0 ≤ s.1 ∧ ∀ r ∈ s.2, InMargin img min_size max_size r)
    (fun s => (stopAt (img.cols - win.width) ystep32x - s.1).toNat)
    (fun s inv again => by
      obtain ⟨left, right⟩ := place_lt step inv.1 (by omega) again
      obtain ⟨t, done, forth, kept⟩ := scanPlace_ok fits shape count corners rows cols mask large small step top
        (by omega) ⟨left, by omega⟩ inv.2
      exact ⟨t, done, ⟨by omega, kept⟩, by omega⟩)
    (stopAt (img.cols - win.width) ystep32x).toNat (0, objects) ⟨le_rfl, found⟩ (by simp)
  refine ⟨s.2, ?_, found'⟩
  rw [scanRow, run]
  rfl

end

section
variable (fits : cascade.Fits) (rows : sum.rows = img.rows + 1) (cols : sum.cols = img.cols + 1)
  (mask : ∀ m ∈ maskImg, m.length = img.rows * img.cols) {min_size max_size : Size}

include fits rows cols mask

theorem scanScale_ok (shape : win.Shape) (wide : win.width ≤ img.cols) (high : win.height ≤ img.rows)
    (large : min_size.width ≤ win.width ∧ min_size.height ≤ win.height)
    (small : win.width ≤ max_size.width ∧ win.height ≤ max_size.height) {objects : List Rect}
    (found : ∀ r ∈ objects, InMargin img min_size max_size r) :
    ∃ objects', scanScale cascade img sum maskImg win objects = .ok objects' ∧ ∀ r ∈ objects', InMargin img min_size max_size r := by
  obtain ⟨rectP, run, count, corners⟩ := cvSetImagesForLBPClassifierCascade_ok fits.toNodesFit sum win.factor32x
  have step : Step (if win.factor32x > 48 then 32 else 64) := by
    split
    · exact .inl rfl
    · exact .inr rfl
  rw [scanScale, run]
  refine foldlM_total _ (fun objects _iy member found => ?_) found
  have low := List.mem_range.mp member
  exact scanRow_ok fits shape count corners rows cols mask large small step wide high (by omega) found

theorem scanScales_ok {wins : List WinScale} (shapes : ∀ win ∈ wins, win.Shape) {objects : List Rect}
    (found : ∀ r ∈ objects, InMargin img min_size max_size r) :
    ∃ objects', scanScales cascade img sum maskImg min_size max_size wins objects = .ok objects' ∧
      ∀ r ∈ objects', InMargin img min_size max_size r := by
  induction wins generalizing objects with
  | nil => exact ⟨objects, rfl, found⟩
  | cons win wins ih =>
    have rest := fun win' member => shapes win' (List.mem_cons_of_mem win member)
    rw [scanScales]
    split
    · exact ih rest found
    · next large =>
      split
      · exact ⟨objects, rfl, found⟩
      · next small =>
        split
        · exact ⟨objects, rfl, found⟩
        · next room =>
          obtain ⟨objects', run, found'⟩ := scanScale_ok fits rows cols mask (shapes win List.mem_cons_self) (by omega) (by omega)
            (by omega) (by omega : win.width ≤ max_size.width ∧ win.height ≤ max_size.height) found
          rw [run]
          exact ih rest found'

end

/-! ## The vehicles -/

/-- A vehicle in the image, of a size between two others. -/
structure Vehicle (img : GrayImage) (min_size max_size : Size) (r : Rect) : Prop where
  left : 0 ≤ r.x
  top : 0 ≤ r.y
  right : r.x + r.width ≤ img.cols
  bottom : r.y + r.height ≤ img.rows
  wide : min_size.width ≤ r.width
  high : min_size.height ≤ r.height
  narrow : r.width ≤ max_size.width
  low : r.height ≤ max_size.height

section
variable {K : Type} [Field K] [LinearOrder K] [IsStrictOrderedRing K] [FloorRing K] {min_size max_size : Size}

/-- The margin makes up for the rounding of a mean. -/
theorem report_vehicle {objects : List Rect} (found : ∀ r ∈ objects, InMargin img min_size max_size r)
    {C : Finset (Fin objects.length)} (some : 0 < C.card) : Vehicle img min_size max_size (report K objects C).rect := by
  have each (i : Fin objects.length) : InMargin img min_size max_size (objects.get i) := found _ (List.get_mem objects i)
  have across := @meanOf_add_le K _ _ _ _ _ _ some Rect.x Rect.width (img.cols - 2) fun i _ => (each i).right
  have down := @meanOf_add_le K _ _ _ _ _ _ some Rect.y Rect.height (img.rows - 2) fun i _ => (each i).bottom
  exact
    { left := le_meanOf some fun i _ => (each i).left
      top := le_meanOf some fun i _ => (each i).top
      right := by simp only [report]; omega
      bottom := by simp only [report]; omega
      wide := le_meanOf some fun i _ => (each i).wide
      high := le_meanOf some fun i _ => (each i).high
      narrow := meanOf_le some fun i _ => (each i).narrow
      low := meanOf_le some fun i _ => (each i).low }

/-- **Vehicles are in the image**: with tables that fit, a mask of the size of the image and any sums, no array is left, the
detection comes to an end, and what it finds is in the image and of a size between the two that are given. -/
theorem detectMultiScale_within (K : Type) [Field K] [LinearOrder K] [IsStrictOrderedRing K] [FloorRing K]
    (integral : GrayImage → Nat → Int) (img : GrayImage) {maskImg : Option (List Nat)}
    (mask : ∀ m ∈ maskImg, m.length = img.rows * img.cols) {cascade : CvLBPClassifierCascade} (fits : cascade.Fits)
    (min_neighbors : Int) (min_size max_size : Size) :
    ∃ vehicles, detectMultiScale K integral img maskImg cascade min_neighbors min_size max_size = .ok vehicles ∧
      ∀ r ∈ vehicles, Vehicle img min_size max_size r := by
  obtain ⟨objects, run, found⟩ := @scanScales_ok cascade img ⟨img.rows + 1, img.cols + 1, integral img⟩ maskImg fits rfl rfl mask
    min_size max_size winScales winScales_shape [] (by simp)
  have vehicle {r : Rect} (member : r ∈ objects) : Vehicle img min_size max_size r := by
    obtain ⟨left, top, right, bottom, wide, high, narrow, low⟩ := found r member
    exact ⟨left, top, by omega, by omega, wide, high, narrow, low⟩
  simp only [detectMultiScale, bind, Except.bind, run]
  split
  · obtain ⟨groups, grouped, means⟩ := groupRectangles_means objects min_neighbors (1 / ((5 : Nat) : K))
    refine ⟨groups.map RectGroup.rect, by rw [grouped]; rfl, fun r member => ?_⟩
    obtain ⟨g, own, rfl⟩ := List.mem_map.mp member
    rcases means g own with member' | ⟨C, some, rfl⟩
    · exact vehicle member'
    · exact report_vehicle found some
  · exact ⟨objects, rfl, fun r => vehicle⟩

/-- The tables by day, a full mask and a small image. -/
theorem day_vehicles_within : ∃ vehicles, detectMultiScale ℚ (fun _ _ => 0) ⟨60, 80, fun _ _ => 0⟩ (some (List.replicate (60 * 80) 255))
    (shipped .day (List.replicate 18 (-1)) (List.replicate 282 0) (List.replicate 1128 0)) 2 ⟨32, 40⟩ ⟨120, 150⟩ = .ok vehicles ∧
      ∀ r ∈ vehicles, Vehicle ⟨60, 80, fun _ _ => 0⟩ ⟨32, 40⟩ ⟨120, 150⟩ r :=
  detectMultiScale_within ℚ _ _ (fun m same => by rw [← Option.some.inj same]; exact List.length_replicate)
    (shipped_fits .day List.length_replicate List.length_replicate List.length_replicate) 2 _ _

end

/-! ## Brightness -/

/-- An image with every pixel scaled and shifted. -/
def GrayImage.brighter (img : GrayImage) (a b : Int) : GrayImage := { img with pixel := fun y x => a * img.pixel y x + b }

section
variable {sum' : SumImage} {pixel : Nat → Nat → Int} {a b : Int} (fits : cascade.Fits) (positive : 0 < a) (sums : sum.Of pixel)
  (sums' : sum'.Of fun y x => a * pixel y x + b) (rows : sum'.rows = sum.rows) (cols : sum'.cols = sum.cols)

include positive sums sums' rows cols

theorem windowResult_brightness (shape : win.Shape)
    (corners : ∀ p ∈ rectP, ∃ r : Feature, r.Fits ∧ p = rectCorners sum.cols win.factor32x r) (ix iy : Int) :
    windowResult cascade sum' rectP win ix iy = windowResult cascade sum rectP win ix iy := by
  rw [windowResult, windowResult, rows, cols]
  refine ite_congr rfl (fun _ => rfl) fun guard => ?_
  rw [cvRunLBPClassifierCascade0_brightness positive sums sums' rows cols (Margin.of_guard shape guard) corners]

include fits

theorem scanScale_brightness (shape : win.Shape) (objects : List Rect) :
    scanScale cascade (img.brighter a b) sum' maskImg win objects = scanScale cascade img sum maskImg win objects := by
  obtain ⟨rectP, run, _, corners⟩ := cvSetImagesForLBPClassifierCascade_ok fits.toNodesFit sum win.factor32x
  have run' : cvSetImagesForLBPClassifierCascade cascade sum' win.factor32x = .ok rectP := by
    rw [← run, cvSetImagesForLBPClassifierCascade, cols]
    rfl
  have results : windowResult cascade sum' rectP win = windowResult cascade sum rectP win :=
    funext fun ix => funext fun iy => windowResult_brightness positive sums sums' rows cols shape corners ix iy
  have places : scanPlace cascade (img.brighter a b) sum' maskImg rectP win = scanPlace cascade img sum maskImg rectP win := by
    funext ystep32x iy s
    rw [scanPlace, scanPlace, results]
    rfl
  have scans : scanRow cascade (img.brighter a b) sum' maskImg rectP win = scanRow cascade img sum maskImg rectP win := by
    funext ystep32x stopWidth objects _iy
    rw [scanRow, scanRow, places]
  rw [scanScale, scanScale, run, run']
  exact congrArg (fun row => List.foldlM row _ _) (by rw [scans]; rfl)

theorem scanScales_brightness {wins : List WinScale} (shapes : ∀ win ∈ wins, win.Shape) (min_size max_size : Size)
    (objects : List Rect) :
    scanScales cascade (img.brighter a b) sum' maskImg min_size max_size wins objects =
      scanScales cascade img sum maskImg min_size max_size wins objects := by
  induction wins generalizing objects with
  | nil => rfl
  | cons win wins ih =>
    have rest := ih fun win' member => shapes win' (List.mem_cons_of_mem win member)
    rw [scanScales, scanScales, rest objects, scanScale_brightness fits positive sums sums' rows cols (shapes win List.mem_cons_self)]
    simp only [rest]
    rfl

end

/-- **The brightness is irrelevant**: when every pixel is scaled by a positive number and shifted, the same vehicles are found,
for sums that are those of the pixels. -/
theorem detectMultiScale_brightness (K : Type) [Field K] [LinearOrder K] [FloorRing K] {integral : GrayImage → Nat → Int}
    (sums : ∀ img : GrayImage, SumImage.Of ⟨img.rows + 1, img.cols + 1, integral img⟩ img.pixel) {a : Int} (positive : 0 < a) (b : Int)
    (img : GrayImage) (maskImg : Option (List Nat)) {cascade : CvLBPClassifierCascade} (fits : cascade.Fits) (min_neighbors : Int)
    (min_size max_size : Size) :
    detectMultiScale K integral (img.brighter a b) maskImg cascade min_neighbors min_size max_size =
      detectMultiScale K integral img maskImg cascade min_neighbors min_size max_size := by
  have scans := @scanScales_brightness cascade img ⟨img.rows + 1, img.cols + 1, integral img⟩ maskImg
    ⟨img.rows + 1, img.cols + 1, integral (img.brighter a b)⟩ img.pixel a b fits positive (sums img) (sums (img.brighter a b)) rfl rfl
    winScales winScales_shape min_size max_size []
  rw [detectMultiScale, detectMultiScale]
  simp only [GrayImage.brighter] at scans ⊢
  rw [scans]

/-- OpenCV's `integral`, entry by entry. -/
def pixelSums (img : GrayImage) (i : Nat) : Int :=
  ∑ y ∈ Finset.range (i / (img.cols + 1)), ∑ x ∈ Finset.range (i % (img.cols + 1)), img.pixel y x

theorem pixelSums_of (img : GrayImage) : SumImage.Of ⟨img.rows + 1, img.cols + 1, pixelSums img⟩ img.pixel := by
  intro i _ j low
  change j < img.cols + 1 at low
  change pixelSums img (i * (img.cols + 1) + j) = _
  rw [pixelSums, Nat.add_comm, Nat.add_mul_div_right _ _ (Nat.succ_pos _), Nat.add_mul_mod_self_right, Nat.div_eq_of_lt low,
    Nat.mod_eq_of_lt low, Nat.zero_add]

theorem night_brightness : detectMultiScale ℚ pixelSums ((⟨60, 80, fun y x => y + x⟩ : GrayImage).brighter 2 5) none
    (shipped .night (List.replicate 17 (-1)) (List.replicate 264 0) (List.replicate 1056 0)) 2 ⟨32, 40⟩ ⟨120, 150⟩ =
      detectMultiScale ℚ pixelSums ⟨60, 80, fun y x => y + x⟩ none
        (shipped .night (List.replicate 17 (-1)) (List.replicate 264 0) (List.replicate 1056 0)) 2 ⟨32, 40⟩ ⟨120, 150⟩ :=
  detectMultiScale_brightness ℚ pixelSums_of (by decide) 5 _ none
    (shipped_fits .night List.length_replicate List.length_replicate List.length_replicate) 2 _ _

end VideoDetector.Alg
