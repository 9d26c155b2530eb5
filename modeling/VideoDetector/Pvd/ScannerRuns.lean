import VideoDetector.Pvd.ScannerScores

/-!
# The scan of all images

`fastScan_eq` says which windows `FastScan` reports: on every image of the pyramid those that both classifiers accept when
they are applied to the window alone. `scan_within` places the reported rectangles in the first image, `pyramid_bounded`
bounds the pixels of the smaller images, and `fastScan_agree` is why nothing else in memory matters.
-/

namespace VideoDetector.Pvd
set_option autoImplicit false
open Lib

section
variable {K : Type} [Field K] [LinearOrder K]

namespace DetectionScanner
variable (S : DetectionScanner K)

/-- Both classifiers accept the window at a corner. -/
def Accepts (image : IntImage K) (corner : Nat × Nat) : Prop :=
  0 < S.linearScore image corner ∧ 0 < S.intersectionScore image corner

instance (image : IntImage K) : DecidablePred (S.Accepts image) := fun _ => instDecidableAnd

/-- The rectangles of the windows of an image that are accepted. -/
def detections (original : IntImage K) (stepsize : Nat) (image : IntImage K) : List (CRect K) :=
  ((S.corners image.nrow image.ncol stepsize).filter (S.Accepts image ·)).map (S.place original image)

variable [FloorRing K]

/-- The images that are scanned: each is the one before, resized, as long as a window goes into it. -/
inductive Pyramid : IntImage K → List (IntImage K) → Prop
  | done {image : IntImage K} : ¬ (image.nrow ≥ S.height ∧ image.ncol ≥ S.width) → Pyramid image []
  | level {image smaller : IntImage K} {levels : List (IntImage K)} : image.nrow ≥ S.height ∧ image.ncol ≥ S.width →
      image.resize S.ratio = .ok smaller → Pyramid smaller levels → Pyramid image (image :: levels)

end DetectionScanner

variable [IsStrictOrderedRing K] [FloorRing K]

namespace LoadedScanner
variable (S : LoadedScanner K) {original image : IntImage K} {left : Nat → Leftover K} {stepsize : Nat}

omit [FloorRing K] in
theorem scanImage_eq (moves : 0 < stepsize) (had : Leftover K) (results : List (CRect K)) :
    S.scanImage original image had stepsize results = results ++ S.detections original stepsize image := by
  rw [DetectionScanner.detections, ← foldl_collect]
  refine List.foldl_ext _ _ _ fun results corner member => ?_
  rw [S.initIntegralImages_eq image had.scores had.ct moves member, S.histScore_eq image had.ct (S.fits_of_mem moves member)]
  by_cases linear : 0 < S.linearScore image corner
  · simp [DetectionScanner.Accepts, linear, not_le.mpr linear]
  · simp [DetectionScanner.Accepts, linear, not_lt.mp linear]

end LoadedScanner

/-! ## Smaller images -/

/-- A number of pixels, shrunk. -/
theorem shrink {n low : Nat} {ratio : K} (some : 1 ≤ low * ratio) (less : ratio < 1) (enough : low ≤ n) :
    ∃ m : Nat, truncate (n * ratio) = m ∧ 0 < m ∧ m < n := by
  have positive : 0 < ratio := by
    by_contra negative
    have none := mul_nonpos_of_nonneg_of_nonpos (Nat.cast_nonneg (α := K) low) (not_lt.mp negative)
    linarith
  have one : 1 ≤ n * ratio := some.trans (mul_le_mul_of_nonneg_right (Nat.cast_le.mpr enough) positive.le)
  have nonneg : 0 ≤ n * ratio := zero_le_one.trans one
  have pixels : (0 : K) < n := by
    by_contra none
    have none := mul_nonpos_of_nonpos_of_nonneg (not_lt.mp none) positive.le
    linarith
  obtain ⟨m, floor⟩ := Int.eq_ofNat_of_zero_le (Int.floor_nonneg.mpr nonneg)
  refine ⟨m, (truncate_of_nonneg nonneg).trans floor, ?_, ?_⟩
  · have : (1 : Int) ≤ m := floor ▸ Int.le_floor.mpr (by simpa using one)
    omega
  · have below : (m : Int) < n := floor ▸ Int.floor_lt.mpr (by simpa using mul_lt_of_lt_one_right pixels less)
    omega

/-- A pixel of a smaller image lies between two pixels that are in the image. -/
theorem resizeAt_between {n m i : Nat} (less : m < n) (inside : i < m) :
    (IntImage.resizeAt n (i * (n / m : K))).1 + 1 < n ∧ 0 ≤ (IntImage.resizeAt n (i * (n / m : K))).2 ∧
      (IntImage.resizeAt n (i * (n / m : K))).2 ≤ 1 := by
  have some : (0 : K) < m := by exact_mod_cast Nat.zero_lt_of_lt inside
  have nonneg : (0 : K) ≤ i * (n / m : K) := by positivity
  have below : (i * (n / m : K)) < (n - 1 : Nat) := by
    have last : (i : K) + 1 ≤ m := by exact_mod_cast inside
    have step : (1 : K) < n / m := (one_lt_div some).mpr (by exact_mod_cast less)
    have all : (i + 1) * (n / m : K) ≤ n :=
      (mul_le_mul_of_nonneg_right last (by positivity)).trans_eq (mul_div_cancel₀ _ some.ne')
    rw [Nat.cast_sub (by omega), Nat.cast_one]
    linarith
  obtain ⟨x0, floor⟩ := Int.eq_ofNat_of_zero_le (Int.floor_nonneg.mpr nonneg)
  have low : x0 + 1 < n := by
    have : (x0 : Int) < (n - 1 : Nat) := floor ▸ Int.floor_lt.mpr (by exact_mod_cast below)
    omega
  have first : IntImage.resizeAt n (i * (n / m : K)) = (x0, i * (n / m : K) - x0) := by
    simp only [IntImage.resizeAt, truncate_of_nonneg nonneg, floor, Int.toNat_natCast, if_neg low.ne]
  have part := Int.floor_le (i * (n / m : K))
  have whole := Int.lt_floor_add_one (i * (n / m : K))
  rw [floor] at part whole
  rw [first]
  refine ⟨low, ?_, ?_⟩
  · simpa using part
  · have := whole.le
    push_cast at this
    linarith

namespace LoadedScanner
variable (S : LoadedScanner K) {original image : IntImage K} {left : Nat → Leftover K} {stepsize fuel : Nat}

/-- `Resize` makes every image of the same size smaller in the same way. -/
theorem resize_eq (fits : image.nrow ≥ S.height ∧ image.ncol ≥ S.width) : ∃ height width,
    height < image.nrow ∧ width < image.ncol ∧ ∀ image' : IntImage K, image'.nrow = image.nrow → image'.ncol = image.ncol →
      image'.resize S.ratio = .ok (image'.stretch height width) := by
  obtain ⟨height, rows, some, less⟩ := shrink S.rowsLeft S.ratio_lt_one fits.1
  obtain ⟨width, columns, some', less'⟩ := shrink S.columnsLeft S.ratio_lt_one fits.2
  refine ⟨height, width, less, less', fun image' sameRows sameColumns => ?_⟩
  simp [IntImage.resize, sameRows, sameColumns, rows, columns, some, some']

theorem scanFrom_eq (original : IntImage K) (left : Nat → Leftover K) (moves : 0 < stepsize) (enough : image.nrow < fuel) (results : List (CRect K)) : ∃ levels,
    S.Pyramid image levels ∧ S.scanFrom original left stepsize fuel image results =
      .ok (results ++ levels.flatMap (S.detections original stepsize)) := by
  induction fuel generalizing image results with
  | zero => exact absurd enough (Nat.not_lt_zero _)
  | succ fuel ih =>
    rw [DetectionScanner.scanFrom]
    by_cases fits : image.nrow ≥ S.height ∧ image.ncol ≥ S.width
    · obtain ⟨height, width, less, _, resized⟩ := S.resize_eq fits
      obtain ⟨levels, pyramid, run⟩ := @ih (image.stretch height width) (show height < fuel by omega)
        (results ++ S.detections original stepsize image)
      refine ⟨image :: levels, .level fits (resized image rfl rfl) pyramid, ?_⟩
      rw [if_pos fits, S.scanImage_eq moves, resized image rfl rfl]
      refine run.trans ?_
      rw [List.flatMap_cons, List.append_assoc]
    · exact ⟨[], .done fits, by rw [if_neg fits, List.flatMap_nil, List.append_nil]⟩

/-- **The scan**: from an image that is large enough, whatever is in memory besides, `FastScan` reports the windows of the
pyramid that both classifiers accept, and comes to an end. -/
theorem fastScan_eq (original : IntImage K) (left : Nat → Leftover K) (moves : 0 < stepsize) (large : S.height + 5 ≤ original.nrow ∧ S.width + 5 ≤ original.ncol)
    (enough : original.nrow < fuel) (results : List (CRect K)) : ∃ levels, S.Pyramid original levels ∧
      S.fastScan original left results stepsize fuel = .ok (levels.flatMap (S.detections original stepsize)) := by
  obtain ⟨levels, pyramid, run⟩ := S.scanFrom_eq original left moves enough []
  refine ⟨levels, pyramid, ?_⟩
  rw [DetectionScanner.fastScan, if_neg (by omega), run, List.nil_append]

omit [IsStrictOrderedRing K] in
/-- What holds of the first image and of each that is made of another by resizing holds of the whole pyramid. -/
theorem pyramid_keeps (Inv : IntImage K → Prop)
    (keep : ∀ image smaller, (image.nrow ≥ S.height ∧ image.ncol ≥ S.width) → Inv image →
      image.resize S.ratio = .ok smaller → Inv smaller) {levels : List (IntImage K)} (pyramid : S.Pyramid image levels)
    (inv : Inv image) : ∀ level ∈ levels, Inv level := by
  induction pyramid with
  | done => simp
  | level fits resized _ ih =>
    intro level member
    rcases List.mem_cons.mp member with rfl | later
    · exact inv
    · exact ih (keep _ _ fits inv resized) level later

/-- All pixels of an image are between two numbers. -/
def Bounded (lo hi : K) (image : IntImage K) : Prop := ∀ q, image.Holds q → lo ≤ image.p q ∧ image.p q ≤ hi

/-- **The pyramid** has no pixel darker or brighter than those of the first image, and no resizing reads outside of one. -/
theorem pyramid_bounded {levels : List (IntImage K)} (pyramid : S.Pyramid image levels) {lo hi : K}
    (bounded : Bounded lo hi image) : ∀ level ∈ levels, Bounded lo hi level := by
  refine S.pyramid_keeps (Bounded lo hi) ?_ pyramid bounded
  intro level smaller fits bounded resized
  obtain ⟨height, width, less, less', same⟩ := S.resize_eq fits
  rw [same level rfl rfl] at resized
  cases resized
  rintro ⟨i, j⟩ ⟨row, column⟩
  obtain ⟨below, first, last⟩ := resizeAt_between (K := K) less row
  obtain ⟨below', first', last'⟩ := resizeAt_between (K := K) less' column
  simp only [IntImage.stretch]
  generalize IntImage.resizeAt level.nrow (i * (level.nrow / height : K)) = x at *
  generalize IntImage.resizeAt level.ncol (j * (level.ncol / width : K)) = y at *
  have line (k : Nat) (inside : k < level.nrow) : lo ≤ level.p (k, y.1) + y.2 * (level.p (k, y.1 + 1) - level.p (k, y.1)) ∧
      level.p (k, y.1) + y.2 * (level.p (k, y.1 + 1) - level.p (k, y.1)) ≤ hi := by
    obtain ⟨low, high⟩ := bounded (k, y.1) ⟨inside, show y.1 < level.ncol by omega⟩
    obtain ⟨low', high'⟩ := bounded (k, y.1 + 1) ⟨inside, below'⟩
    rw [mul_comm]
    exact between low low' high high' first' last'
  obtain ⟨low, high⟩ := line x.1 (by omega)
  obtain ⟨low', high'⟩ := line (x.1 + 1) below
  rw [mul_comm x.2]
  exact between low low' high high' first last

/-! ## Memory outside of the images -/

/-- Two images that differ at most outside of their rows and columns. -/
structure Agree (a b : IntImage K) : Prop where
  rows : a.nrow = b.nrow
  columns : a.ncol = b.ncol
  pixels : ∀ q, a.Holds q → a.p q = b.p q

variable {a b original' : IntImage K} {left' : Nat → Leftover K}

omit [LinearOrder K] [IsStrictOrderedRing K] [FloorRing K] in
theorem sobel_agree (agree : Agree a b) : a.sobel = b.sobel := by
  obtain ⟨n, m, p⟩ := a
  obtain ⟨_, _, p'⟩ := b
  obtain ⟨rfl, rfl, pixels⟩ := agree
  simp only [IntImage.sobel, IntImage.mk.injEq, true_and]
  funext q
  obtain ⟨i, j⟩ := q
  refine if_ctx_congr Iff.rfl (fun inner => ?_) fun _ => rfl
  have inside (x y : Nat) (row : x ≤ i + 1) (column : y ≤ j + 1) : p (x, y) = p' (x, y) :=
    pixels (x, y) ⟨show x < n by omega, show y < m by omega⟩
  simp only [inside (i - 1) (j - 1) (by omega) (by omega), inside (i - 1) (j + 1) (by omega) le_rfl,
    inside i (j - 1) (by omega) (by omega), inside i (j + 1) (by omega) le_rfl, inside (i + 1) (j - 1) le_rfl (by omega),
    inside (i + 1) (j + 1) le_rfl le_rfl, inside (i - 1) j (by omega) (by omega), inside (i + 1) j le_rfl (by omega)]

theorem stretch_agree {height width : Nat} (less : height < a.nrow) (less' : width < a.ncol) (agree : Agree a b) :
    Agree (a.stretch height width) (b.stretch height width) := by
  obtain ⟨rows, columns, pixels⟩ := agree
  refine ⟨rfl, rfl, ?_⟩
  rintro ⟨i, j⟩ ⟨row, column⟩
  obtain ⟨below, _⟩ := resizeAt_between (K := K) less row
  obtain ⟨below', _⟩ := resizeAt_between (K := K) less' column
  simp only [IntImage.stretch, ← rows, ← columns]
  generalize IntImage.resizeAt a.nrow (i * (a.nrow / height : K)) = x at *
  generalize IntImage.resizeAt a.ncol (j * (a.ncol / width : K)) = y at *
  have inside (k l : Nat) (row : k ≤ x.1 + 1) (column : l ≤ y.1 + 1) : a.p (k, l) = b.p (k, l) :=
    pixels (k, l) ⟨show k < a.nrow by omega, show l < a.ncol by omega⟩
  simp only [inside x.1 y.1 (by omega) (by omega), inside x.1 (y.1 + 1) (by omega) le_rfl,
    inside (x.1 + 1) y.1 le_rfl (by omega), inside (x.1 + 1) (y.1 + 1) le_rfl le_rfl]

omit [IsStrictOrderedRing K] [FloorRing K] in
theorem detections_agree (same : Agree original original') (agree : Agree a b) :
    S.detections original stepsize a = S.detections original' stepsize b := by
  have accepts (corner) : S.Accepts a corner ↔ S.Accepts b corner := by
    simp only [DetectionScanner.Accepts, DetectionScanner.linearScore, DetectionScanner.intersectionScore,
      DetectionScanner.descriptor, DetectionScanner.keys, sobel_agree agree]
  have places : S.place original a = S.place original' b := by
    funext corner
    simp only [DetectionScanner.place, same.rows, same.columns, agree.rows, agree.columns]
  simp only [DetectionScanner.detections, accepts, places, agree.rows, agree.columns]

theorem scanFrom_agree (moves : 0 < stepsize) (same : Agree original original') (agree : Agree a b) (results : List (CRect K)) :
    S.scanFrom original left stepsize fuel a results = S.scanFrom original' left' stepsize fuel b results := by
  induction fuel generalizing a b results with
  | zero => rfl
  | succ fuel ih =>
    rw [DetectionScanner.scanFrom, DetectionScanner.scanFrom, ← agree.rows, ← agree.columns]
    by_cases fits : a.nrow ≥ S.height ∧ a.ncol ≥ S.width
    · obtain ⟨height, width, less, less', resized⟩ := S.resize_eq fits
      rw [if_pos fits, if_pos fits, S.scanImage_eq moves, S.scanImage_eq moves, resized a rfl rfl,
        resized b agree.rows.symm agree.columns.symm, S.detections_agree same agree]
      exact ih (stretch_agree less less' agree) _
    · rw [if_neg fits, if_neg fits]

/-- **Nothing else in memory matters**: neither what lies outside of the image nor what `ct` and `scores` had before. -/
theorem fastScan_agree (moves : 0 < stepsize) (same : Agree original original') (results : List (CRect K)) :
    S.fastScan original left results stepsize fuel = S.fastScan original' left' results stepsize fuel := by
  rw [DetectionScanner.fastScan, DetectionScanner.fastScan, S.scanFrom_agree moves same same, same.rows, same.columns]

end LoadedScanner
end

/-! ## A flat image -/

def flat : IntImage ℚ := ⟨131, 41, fun _ => 1⟩

def blank : Nat → Leftover ℚ := fun _ => ⟨fun _ => 0, fun _ => 0⟩

theorem fastScan_flat : ∃ levels, human.Pyramid flat levels ∧
    human.fastScan flat blank [] 9 132 = .ok (levels.flatMap (human.detections flat 9)) :=
  human.fastScan_eq flat blank (by decide) (by decide) (by decide) []

theorem flat_bounded : ∃ levels, human.Pyramid flat levels ∧ ∀ level ∈ levels, LoadedScanner.Bounded 0 1 level := by
  obtain ⟨levels, pyramid, _⟩ := human.scanFrom_eq flat blank (by decide : 0 < 9) (by decide : flat.nrow < 132) []
  exact ⟨levels, pyramid, human.pyramid_bounded pyramid fun _ _ => ⟨zero_le_one, le_rfl⟩⟩

/-- The same image between other things. -/
def flatInside : IntImage ℚ := ⟨131, 41, fun q => if q.1 < 131 ∧ q.2 < 41 then 1 else 7⟩

theorem flat_agree : human.fastScan flat blank [] 9 132 =
    human.fastScan flatInside (fun _ => ⟨fun _ => 5, fun _ => 5⟩) [] 9 132 :=
  @LoadedScanner.fastScan_agree ℚ _ _ _ _ human flat blank 9 132 flatInside _ (by decide)
    ⟨rfl, rfl, fun _ inside => (if_pos inside).symm⟩ []

end VideoDetector.Pvd
