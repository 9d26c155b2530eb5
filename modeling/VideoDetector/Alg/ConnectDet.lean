import Mathlib.Data.Finset.Prod
import Mathlib.Data.List.ProdSigma
import Mathlib.Tactic.Linarith
import Mathlib.Tactic.Positivity
import VideoDetector.Lib.Search
import VideoDetector.Lib.Words

/-!
# Light blobs (`connect_det` in `fvd-new/alg-mutilthread/m_arith.cpp`)

The blobs of a binary image are searched from the pixels with even row and even column. `m_pPointArray` is the work
list of a search, `MidImage` holds the marks. The first entry is not marked when it is put on the list, and it is its
own neighbour, so it is on the list twice and the fill ratio is taken of one pixel too many. The ratios, floats in the
source, are exact.
-/

namespace VideoDetector.Alg
set_option autoImplicit false
open Lib

/-- A column and a row. -/
abbrev Pixel := Int × Int

/-- `CRect`, of signed 16-bit numbers. -/
structure CRect where
  left : Int
  top : Int
  right : Int
  bottom : Int
  deriving DecidableEq, Repr, Inhabited

namespace CRect

/-- A single pixel. -/
def start (p : Pixel) : CRect := ⟨int16 p.1, int16 p.2, int16 p.1, int16 p.2⟩

/-- The box with one more pixel. -/
def note (r : CRect) (p : Pixel) : CRect where
  left := int16 (if r.left < p.1 then r.left else p.1)
  top := int16 (if r.top < p.2 then r.top else p.2)
  right := int16 (if r.right > p.1 then r.right else p.1)
  bottom := int16 (if r.bottom > p.2 then r.bottom else p.2)

/-- `RECT_Width`. -/
def width (r : CRect) : Int := |r.right - r.left + 1|

/-- `RECT_Height`. -/
def height (r : CRect) : Int := |r.bottom - r.top + 1|

/-- The smallest box around some pixels. -/
structure Bounds (r : CRect) (s : Set Pixel) : Prop where
  inside : ∀ p ∈ s, r.left ≤ p.1 ∧ p.1 ≤ r.right ∧ r.top ≤ p.2 ∧ p.2 ≤ r.bottom
  left : ∃ p ∈ s, p.1 = r.left
  top : ∃ p ∈ s, p.2 = r.top
  right : ∃ p ∈ s, p.1 = r.right
  bottom : ∃ p ∈ s, p.2 = r.bottom

end CRect

/-- The pixels at some distances from a pixel. -/
def shifted (distances : List Pixel) (p : Pixel) : List Pixel := distances.map fun d => (p.1 + d.1, p.2 + d.2)

/-- The distances `s` and `t` in `connect_det`, the pixel itself included. -/
def eightAndSelf : List Pixel := [(-1, -1), (0, -1), (1, -1), (-1, 0), (0, 0), (1, 0), (-1, 1), (0, 1), (1, 1)]

/-- How a search fails: an access outside an image or the point array. -/
inductive BlobFault where
  | image (address : Int)
  | pointArray
  | candidateRoi
  | unfinished
  deriving DecidableEq, Repr

/-- The entries of `m_pPointArray`. -/
def pointArrayMax : Nat := 800 * 800

/-- A binary image with less pixels than `m_pPointArray` has entries. -/
structure BinImage where
  width : Nat
  height : Nat
  bytes : Nat → UInt8
  small : width * height < pointArrayMax

/-- Where a pixel is, by `GetImagePointValue` and `SetImagePointValue`. -/
def pointAddress (columns : Nat) (p : Pixel) : Int := int16 p.2 * uint16 columns + int16 p.1

namespace BinImage
variable (img : BinImage)

/-- `GetImagePointValue` of an image of this size. -/
def getImagePointValue (image : Nat → UInt8) (p : Pixel) : Except BlobFault UInt8 :=
  let a := pointAddress img.width p
  if 0 ≤ a ∧ a < (img.width * img.height : Nat) then .ok (image a.toNat) else .error (.image a)

/-- `SetImagePointValue` of an image of this size. -/
def setImagePointValue (image : Nat → UInt8) (p : Pixel) (value : UInt8) : Except BlobFault (Nat → UInt8) :=
  let a := pointAddress img.width p
  if 0 ≤ a ∧ a < (img.width * img.height : Nat) then .ok (Function.update image a.toNat value) else .error (.image a)

def Inside (p : Pixel) : Prop := 0 ≤ p.2 ∧ p.2 < img.height ∧ 0 ≤ p.1 ∧ p.1 < img.width

instance (p : Pixel) : Decidable (img.Inside p) := inferInstanceAs (Decidable (_ ∧ _ ∧ _ ∧ _))

/-- The search of `connect_det`, with the marks in `MidImage`. -/
def searcher : Searcher (Nat → UInt8) Pixel BlobFault where
  free mid p := do
    if img.Inside p then
      if (← img.getImagePointValue img.bytes p) ≠ 0 then return (← img.getImagePointValue mid p) == 0 else return false
    else return false
  mark mid p := img.setImagePointValue mid p 1
  around := shifted eightAndSelf
  store p := (uint16 p.1, uint16 p.2)
  room := pointArrayMax
  overrun := .pointArray
  unfinished := .unfinished

/-- The pixels with even row and even column, row by row. -/
def seeds : List Pixel :=
  (List.range ((img.height + 1) / 2) ×ˢ List.range ((img.width + 1) / 2)).map fun p => ((2 * p.2 : Nat), (2 * p.1 : Nat))

end BinImage

/-- The other arguments of `connect_det`. -/
structure BlobParams where
  lthreold : Int
  rthreold : Int
  flag : Int

/-- What a call leaves: the blobs that were examined, each with its box and `dwArraySize`, `ForegroundArray`, and the
largest area. -/
structure Blobs where
  examined : List (CRect × Nat)
  foreground : List CRect
  maxconArea : Int

/-- `ArrayAdd`: a full array loses its last entry. -/
def arrayAdd (xs : List CRect) (r : CRect) : List CRect := if 199 < xs.length then xs.take 199 else xs ++ [r]

namespace BlobParams
variable (p : BlobParams) (height : Nat)

/-- The tests of a box before the fill ratio; with flag 1 there is no fill ratio. -/
def reachesFill (r : CRect) : Bool :=
  if p.flag = 0 then
    decide (p.lthreold < r.width * r.height) && decide (r.width * r.height < p.rthreold) &&
      decide (r.height < (height * 7 / 10 : Nat)) && decide (r.height / r.width ≤ 5) && decide (r.width / r.height < 3)
  else if p.flag = 1 then false
  else
    decide (p.lthreold < r.width * r.height) && decide (r.height / r.width ≤ 5) && decide (r.width / r.height < 3)

/-- Whether a blob is kept. -/
def accepts (r : CRect) (dwArraySize : Nat) : Bool :=
  if p.flag = 0 then p.reachesFill height r && decide (3 * (r.height * r.width) < 10 * dwArraySize)
  else if p.flag = 1 then decide (p.lthreold < r.width * r.height)
  else p.reachesFill height r && decide (3 * (r.height * r.width) ≤ 10 * dwArraySize)

/-- A blob is examined. -/
def examine (s : Blobs) (blob : CRect × Nat) : Blobs where
  examined := s.examined ++ [blob]
  foreground := if p.accepts height blob.1 blob.2 then arrayAdd s.foreground blob.1 else s.foreground
  maxconArea :=
    let area := blob.1.height * blob.1.width
    if p.accepts height blob.1 blob.2 then if s.maxconArea < area then area else s.maxconArea else s.maxconArea

end BlobParams

/-- `connect_det`, with `MidImage` zeroed. -/
def connectDet (img : BinImage) (p : BlobParams) (foreground : List CRect) : Except BlobFault Blobs := do
  let budget := img.width * img.height + 1
  let emit (s : Blobs) (blob : CRect × Nat) : Except BlobFault Blobs := .ok (p.examine img.height s blob)
  let s ← img.seeds.foldlM (scan img.searcher CRect.note budget CRect.start emit) (fun _ => 0, ⟨[], foreground, 0⟩)
  return s.2

/-! ## Boxes -/

/-- The numbers of the pixel fit into 16 bits. -/
def Pixel.Fits (p : Pixel) : Prop := (0 ≤ p.1 ∧ p.1 < 32768) ∧ 0 ≤ p.2 ∧ p.2 < 32768

/-- Such a pixel is in `m_pPointArray` what it is. -/
theorem Pixel.Fits.stored {p : Pixel} (fits : p.Fits) : (uint16 p.1, uint16 p.2) = p := by
  obtain ⟨⟨low, high⟩, low', high'⟩ := fits
  rw [uint16_of_lt low (by omega), uint16_of_lt low' (by omega)]

namespace CRect

theorem start_bounds {p : Pixel} (fits : p.Fits) : (start p).Bounds {p} := by
  obtain ⟨⟨low, high⟩, low', high'⟩ := fits
  simp only [start, int16_of_lt low high, int16_of_lt low' high']
  exact ⟨by simp, ⟨p, rfl, rfl⟩, ⟨p, rfl, rfl⟩, ⟨p, rfl, rfl⟩, ⟨p, rfl, rfl⟩⟩

theorem int16_least {a b : Int} (posA : 0 ≤ a) (posB : 0 ≤ b) (small : b < 32768) :
    int16 (if a < b then a else b) = min a b := by
  split
  · rw [int16_of_lt posA (by omega)]
    omega
  · rw [int16_of_lt posB small]
    omega

theorem int16_greatest {a b : Int} (posB : 0 ≤ b) (smallA : a < 32768) (smallB : b < 32768) :
    int16 (if a > b then a else b) = max a b := by
  split
  · rw [int16_of_lt (by omega) smallA]
    omega
  · rw [int16_of_lt posB smallB]
    omega

/-- In 16 bits the box with one more pixel is the box around it. -/
theorem Bounds.note {r : CRect} {s : Set Pixel} (bounds : r.Bounds s) (fit : ∀ q ∈ s, Pixel.Fits q) {p : Pixel}
    (fits : p.Fits) : (r.note p).Bounds (insert p s) := by
  obtain ⟨inside, ⟨a, aIn, aLeft⟩, ⟨b, bIn, bTop⟩, ⟨c, cIn, cRight⟩, ⟨d, dIn, dBottom⟩⟩ := bounds
  obtain ⟨⟨low, high⟩, low', high'⟩ := fits
  have box : r.note p = ⟨min r.left p.1, min r.top p.2, max r.right p.1, max r.bottom p.2⟩ := by
    rw [CRect.note, int16_least (aLeft ▸ (fit a aIn).1.1) low high, int16_least (bTop ▸ (fit b bIn).2.1) low' high',
      int16_greatest low (cRight ▸ (fit c cIn).1.2) high, int16_greatest low' (dBottom ▸ (fit d dIn).2.2) high']
  have new : p ∈ insert p s := Set.mem_insert p s
  have old {q : Pixel} (member : q ∈ s) : q ∈ insert p s := Set.mem_insert_of_mem p member
  rw [box]
  refine ⟨?_, ?_, ?_, ?_, ?_⟩
  · intro q member
    rcases Set.mem_insert_iff.mp member with rfl | member
    · simp
    · have around := inside q member
      simp only
      omega
  · rcases le_total r.left p.1 with less | less
    · exact ⟨a, old aIn, by rw [aLeft, min_eq_left less]⟩
    · exact ⟨p, new, (min_eq_right less).symm⟩
  · rcases le_total r.top p.2 with less | less
    · exact ⟨b, old bIn, by rw [bTop, min_eq_left less]⟩
    · exact ⟨p, new, (min_eq_right less).symm⟩
  · rcases le_total r.right p.1 with less | less
    · exact ⟨p, new, (max_eq_right less).symm⟩
    · exact ⟨c, old cIn, by rw [cRight, max_eq_left less]⟩
  · rcases le_total r.bottom p.2 with less | less
    · exact ⟨p, new, (max_eq_right less).symm⟩
    · exact ⟨d, old dIn, by rw [dBottom, max_eq_left less]⟩

theorem Bounds.notes {r : CRect} {s : Set Pixel} (bounds : r.Bounds s) (fit : ∀ q ∈ s, Pixel.Fits q) {ps : List Pixel}
    (fits : ∀ p ∈ ps, Pixel.Fits p) : (ps.foldl CRect.note r).Bounds (s ∪ {p | p ∈ ps}) := by
  induction ps generalizing r s with
  | nil => simpa using bounds
  | cons p ps ih =>
    obtain ⟨first, later⟩ := List.forall_mem_cons.mp fits
    have fit' : ∀ q ∈ insert p s, Pixel.Fits q := by
      intro q member
      rcases Set.mem_insert_iff.mp member with rfl | member
      · exact first
      · exact fit q member
    have whole := ih (bounds.note fit first) fit' later
    have same : insert p s ∪ {q | q ∈ ps} = s ∪ {q | q ∈ p :: ps} := by
      ext q
      simp only [Set.mem_union, Set.mem_insert_iff, Set.mem_ofPred_eq, List.mem_cons]
      tauto
    rw [List.foldl_cons, ← same]
    exact whole

/-- The box of a found component. -/
theorem found_bounds {fg : Pixel → Prop} {around : Pixel → List Pixel} {x : Pixel} {rest : List Pixel}
    (found : Found fg around x rest) (fit : ∀ q, fg q → Pixel.Fits q) :
    ((x :: rest).foldl CRect.note (start x)).Bounds (component fg around x) := by
  have fits : ∀ q ∈ x :: rest, Pixel.Fits q := fun q member => fit q ((found.members q).mp member).right
  have same : {x} ∪ {q | q ∈ x :: rest} = component fg around x := by
    ext q
    rw [Set.mem_union, Set.mem_singleton_iff, Set.mem_ofPred_eq, component, Set.mem_ofPred_eq, ← found.members]
    exact or_iff_right_of_imp fun same => same ▸ List.mem_cons_self
  rw [← same]
  apply (start_bounds (fits x List.mem_cons_self)).notes ?_ fits
  intro q same
  rw [Set.mem_singleton_iff.mp same]
  exact fits x List.mem_cons_self

/-- There is only one smallest box. -/
theorem Bounds.unique {r r' : CRect} {s : Set Pixel} (bounds : r.Bounds s) (bounds' : r'.Bounds s) : r = r' := by
  obtain ⟨inside, ⟨a, aIn, aLeft⟩, ⟨b, bIn, bTop⟩, ⟨c, cIn, cRight⟩, ⟨d, dIn, dBottom⟩⟩ := bounds
  obtain ⟨inside', ⟨a', aIn', aLeft'⟩, ⟨b', bIn', bTop'⟩, ⟨c', cIn', cRight'⟩, ⟨d', dIn', dBottom'⟩⟩ := bounds'
  have first := inside' a aIn
  have first' := inside a' aIn'
  have second := inside' b bIn
  have second' := inside b' bIn'
  have third := inside' c cIn
  have third' := inside c' cIn'
  have fourth := inside' d dIn
  have fourth' := inside d' dIn'
  obtain ⟨left, top, right, bottom⟩ := r
  obtain ⟨left', top', right', bottom'⟩ := r'
  simp only [CRect.mk.injEq] at *
  omega

end CRect

theorem shifted_back {distances : List Pixel} (turned : ∀ d ∈ distances, (-d.1, -d.2) ∈ distances) (p q : Pixel)
    (near : q ∈ shifted distances p) : p ∈ shifted distances q := by
  obtain ⟨d, member, rfl⟩ := List.mem_map.mp near
  exact List.mem_map.mpr ⟨_, turned d member, by simp⟩

theorem eightAndSelf_turned : ∀ d ∈ eightAndSelf, (-d.1, -d.2) ∈ eightAndSelf := by decide

/-! ## The components of an image -/

/-- A row and a column are determined by the address. -/
theorem row_column_unique {n row column row' column' : Int} (low : 0 ≤ column) (high : column < n) (low' : 0 ≤ column')
    (high' : column' < n) (same : row * n + column = row' * n + column') : row = row' ∧ column = column' := by
  have rows := congrArg (· / n) same
  simp only [Int.add_comm (_ * _), Int.add_mul_ediv_right _ _ (show n ≠ 0 by omega), Int.ediv_eq_zero_of_lt low high,
    Int.ediv_eq_zero_of_lt low' high'] at rows
  have equal : row = row' := by omega
  rw [equal] at same
  exact ⟨equal, by omega⟩

namespace BinImage
variable {img : BinImage}

/-- The numbers of all rows and columns fit into 16 bits. -/
def Narrow (img : BinImage) : Prop := img.width ≤ 32768 ∧ img.height ≤ 32768

variable (img) in
/-- Where a pixel is. -/
def address (p : Pixel) : Nat := (p.2 * img.width + p.1).toNat

variable (img) in
/-- The non-zero pixels. -/
def Lit (p : Pixel) : Prop := img.Inside p ∧ img.bytes (img.address p) ≠ 0

variable (img) in
def Marked (mid : Nat → UInt8) (p : Pixel) : Prop := img.Inside p ∧ mid (img.address p) ≠ 0

theorem Inside.fits (narrow : img.Narrow) {p : Pixel} (inside : img.Inside p) : p.Fits := by
  obtain ⟨low, high, low', high'⟩ := inside
  obtain ⟨width, height⟩ := narrow
  exact ⟨⟨low', by omega⟩, low, by omega⟩

theorem Inside.address_lt {p : Pixel} (inside : img.Inside p) : img.address p < img.width * img.height := by
  obtain ⟨low, high, low', high'⟩ := inside
  have row : p.2 * img.width + p.1 < img.width * img.height := by
    have last : p.2 + 1 ≤ img.height := high
    nlinarith
  have above : 0 ≤ p.2 * img.width + p.1 := by positivity
  unfold address
  omega

theorem pointAddress_of_fits (slim : img.width ≤ 32768) {p : Pixel} (inside : img.Inside p) (fits : p.Fits) :
    pointAddress img.width p = img.address p ∧ img.address p < img.width * img.height := by
  refine ⟨?_, inside.address_lt⟩
  obtain ⟨⟨low, high⟩, low', high'⟩ := fits
  have above : 0 ≤ p.2 * img.width + p.1 := by positivity
  rw [pointAddress, int16_of_lt low high, int16_of_lt low' high', uint16_of_lt (by omega) (by omega), address]
  omega

theorem address_injective {p q : Pixel} (insideP : img.Inside p) (insideQ : img.Inside q)
    (same : img.address p = img.address q) : p = q := by
  obtain ⟨low, _, low', high'⟩ := insideP
  obtain ⟨lowQ, _, lowQ', highQ'⟩ := insideQ
  have aboveP : 0 ≤ p.2 * img.width + p.1 := by positivity
  have aboveQ : 0 ≤ q.2 * img.width + q.1 := by positivity
  have equal : p.2 * img.width + p.1 = q.2 * img.width + q.1 := by
    unfold address at same
    omega
  obtain ⟨rows, columns⟩ := row_column_unique low' high' lowQ' highQ' equal
  exact Prod.ext columns rows

theorem getImagePointValue_of_fits (slim : img.width ≤ 32768) {p : Pixel} (inside : img.Inside p) (fits : p.Fits)
    (image : Nat → UInt8) : img.getImagePointValue image p = .ok (image (img.address p)) := by
  obtain ⟨same, low⟩ := pointAddress_of_fits slim inside fits
  rw [getImagePointValue, same]
  exact if_pos ⟨Int.natCast_nonneg _, Int.ofNat_lt.mpr low⟩

theorem setImagePointValue_of_fits (slim : img.width ≤ 32768) {p : Pixel} (inside : img.Inside p) (fits : p.Fits)
    (image : Nat → UInt8) (value : UInt8) :
    img.setImagePointValue image p value = .ok (Function.update image (img.address p) value) := by
  obtain ⟨same, low⟩ := pointAddress_of_fits slim inside fits
  rw [setImagePointValue, same]
  exact if_pos ⟨Int.natCast_nonneg _, Int.ofNat_lt.mpr low⟩

theorem setImagePointValue_ok (narrow : img.Narrow) {p : Pixel} (inside : img.Inside p) (image : Nat → UInt8) (value : UInt8) :
    img.setImagePointValue image p value = .ok (Function.update image (img.address p) value) :=
  setImagePointValue_of_fits narrow.1 inside (inside.fits narrow) image value

/-- A pixel more is marked. -/
theorem marked_update {mid : Nat → UInt8} {p : Pixel} (inside : img.Inside p) {value : UInt8} (set : value ≠ 0) (q : Pixel) :
    img.Marked (Function.update mid (img.address p) value) q ↔ img.Marked mid q ∨ q = p := by
  unfold Marked
  by_cases same : q = p
  · subst same
    simp [inside, set]
  · have other : img.Inside q → img.address q ≠ img.address p := fun insideQ equal =>
      same (address_injective insideQ inside equal)
    constructor
    · rintro ⟨insideQ, mark⟩
      rw [Function.update_of_ne (other insideQ)] at mark
      exact .inl ⟨insideQ, mark⟩
    · rintro (⟨insideQ, mark⟩ | equal)
      · refine ⟨insideQ, ?_⟩
        rw [Function.update_of_ne (other insideQ)]
        exact mark
      · exact absurd equal same

/-- The test of a search: the pixel is set in one image and not in the other. -/
theorem free_of_fits (slim : img.width ≤ 32768) {p : Pixel} (inside : img.Inside p) (fits : p.Fits) (image mid : Nat → UInt8) :
    ∃ b, (do
        if (← img.getImagePointValue image p) ≠ 0 then return (← img.getImagePointValue mid p) == 0 else return false) =
          (.ok b : Except BlobFault Bool) ∧ (b = true ↔ image (img.address p) ≠ 0 ∧ ¬ img.Marked mid p) := by
  simp only [getImagePointValue_of_fits slim inside fits, ok_bind]
  by_cases lit : image (img.address p) ≠ 0
  · rw [if_pos lit]
    refine ⟨_, rfl, ?_⟩
    simp [Marked, inside, lit]
  · rw [if_neg lit]
    exact ⟨_, rfl, iff_of_false Bool.false_ne_true fun both => lit both.1⟩

/-- Without marks all marked components are whole. -/
theorem whole_zero (fg : Pixel → Prop) (around : Pixel → List Pixel) : Whole fg around (img.Marked fun _ => 0) :=
  ⟨fun _ mark => absurd rfl mark.2, fun _ _ mark => absurd rfl mark.2⟩

theorem searcher_lawful (narrow : img.Narrow) : img.searcher.Lawful (fun _ => True) img.Lit img.Marked where
  free mid p _ := by
    by_cases inside : img.Inside p
    · obtain ⟨b, tested, free⟩ := free_of_fits narrow.1 inside (inside.fits narrow) img.bytes mid
      simp only [searcher, if_pos inside]
      refine ⟨b, tested, free.trans ?_⟩
      rw [Lit, and_iff_right inside]
    · simp only [searcher, if_neg inside]
      refine ⟨_, rfl, ?_⟩
      simp [Lit, inside]
  mark mid p _ lit := by
    refine ⟨_, setImagePointValue_ok narrow lit.1 mid 1, trivial, fun q => ?_⟩
    exact marked_update lit.1 (by decide) q
  store p lit := (lit.1.fits narrow).stored

variable (img) in
/-- All pixels of the image. -/
def pixels : Finset Pixel := (Finset.range img.width ×ˢ Finset.range img.height).image fun p => ((p.1 : Int), (p.2 : Int))

theorem mem_pixels {p : Pixel} (inside : img.Inside p) : p ∈ img.pixels := by
  obtain ⟨low, high, low', high'⟩ := inside
  rw [pixels, Finset.mem_image]
  refine ⟨(p.1.toNat, p.2.toNat), ?_, ?_⟩
  · rw [Finset.mem_product, Finset.mem_range, Finset.mem_range]
    constructor <;> omega
  · exact Prod.ext (by simpa using low') (by simpa using low)

theorem card_pixels_le : img.pixels.card ≤ img.width * img.height := by
  refine Finset.card_image_le.trans ?_
  rw [Finset.card_product, Finset.card_range, Finset.card_range]

variable (img) in
/-- The component of a pixel. -/
def blob (x : Pixel) : Set Pixel := component img.Lit (shifted eightAndSelf) x

/-- The marks before the first search. -/
theorem scanned_zero : Scanned img.searcher (fun _ => True) img.Lit img.Marked [] fun _ => 0 where
  good := trivial
  whole := whole_zero _ _
  origin _ mark := absurd rfl mark.2
  done _ none := absurd none List.not_mem_nil

end BinImage

/-- The scan of `connect_det`. -/
def scanBlobs (img : BinImage) (p : BlobParams) : (Nat → UInt8) × Blobs → Pixel → Except BlobFault ((Nat → UInt8) × Blobs) :=
  scan img.searcher CRect.note (img.width * img.height + 1) CRect.start fun s blob => .ok (p.examine img.height s blob)

theorem connectDet_eq (img : BinImage) (p : BlobParams) (foreground : List CRect) :
    connectDet img p foreground =
      img.seeds.foldlM (scanBlobs img p) (fun _ => 0, ⟨[], foreground, 0⟩) >>= fun s => .ok s.2 := rfl

/-- One pixel that is lit. -/
def oneLight : BinImage := ⟨1, 1, fun _ => 1, by decide⟩

/-- Each pixel above the area 0 is kept if its fill ratio is large enough. -/
def anyArea : BlobParams := ⟨0, 0, 2⟩

end VideoDetector.Alg
