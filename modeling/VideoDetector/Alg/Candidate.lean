import VideoDetector.Alg.ConnectDet
import VideoDetector.Alg.Merge

/-!
# Candidates (`get_candidate` in `fvd-new/alg-mutilthread/m_arith.cpp`)

Pixels of the region that differ between two frames, every other one in both directions, are marked together with two such
pixels above and below. The marked pixels are then joined to components, from places that are six pixels apart, and the
boxes of the large ones are extended and stored in `candidateROI`. As in `connect_det` the place where a search starts is
not marked.
-/

namespace VideoDetector.Alg
set_option autoImplicit false
open Lib

/-- The arguments of `get_candidate`: both frames and the threshold, with `detectROI` inside the frames. -/
structure MotionInput where
  cols : Nat
  rows : Nat
  currFrame : Nat → UInt8
  prevFrame : Nat → UInt8
  threshold : Int
  x : Nat
  y : Nat
  width : Nat
  height : Nat
  narrow : cols ≤ 16384 ∧ rows ≤ 16384
  small : cols * rows < pointArrayMax
  inside : x + width ≤ cols ∧ y + height ≤ rows

/-- The places in the region that are so many pixels apart, row by row. -/
def MotionInput.places (f : MotionInput) (apart : Nat) : List Pixel :=
  (List.range ((f.height + apart - 1) / apart) ×ˢ List.range ((f.width + apart - 1) / apart)).map fun p =>
    (((f.x + apart * p.2 : Nat) : Int), ((f.y + apart * p.1 : Nat) : Int))

namespace MotionInput
variable (f : MotionInput)

/-- The frames differ at a pixel. -/
def changed (p : Pixel) : Bool :=
  let a := (p.2 * f.cols + p.1).toNat
  let curr : Int := (f.currFrame a).toNat
  let prev : Int := (f.prevFrame a).toNat
  decide (curr - prev > f.threshold) || decide (prev - curr > f.threshold)

/-- The pixels that are set for a pixel, as distances in rows. -/
def spread : List Int := [-2, 2, -4, 4, 0]

/-- A pixel is marked in `tempFrame`; above and below the frame this is outside of it. -/
def dilate (temp : Int → UInt8) (p : Pixel) : Int → UInt8 :=
  if f.changed p then spread.foldl (fun temp d => Function.update temp (p.2 * f.cols + p.1 + d * f.cols) 255) temp else temp

/-- The mask that `prevFrame` is overwritten with. -/
def mask : BinImage where
  width := f.cols
  height := f.rows
  bytes a := (f.places 2).foldl f.dilate (fun _ => 0) a
  small := f.small

/-- `loopDirect`. -/
def loopDirect : List Pixel := [(-2, 2), (0, 2), (2, 2), (2, 0), (2, -2), (0, -2), (-2, -2), (-2, 0)]

/-- The search of `get_candidate`, with the marks in `tempFrame`. -/
def searcher : Searcher (Nat → UInt8) Pixel BlobFault where
  free temp p := .ok (decide (f.mask.Inside p) && f.mask.bytes (f.mask.address p) == 255 && temp (f.mask.address p) == 0)
  mark temp p := .ok (Function.update temp (f.mask.address p) 255)
  around := shifted loopDirect
  store p := (uint16 p.1, uint16 p.2)
  room := pointArrayMax
  overrun := .pointArray
  unfinished := .unfinished

end MotionInput

namespace CRect

/-- The size limits of `get_candidate`. -/
def exceeds (r : CRect) : Bool :=
  let width := r.right - r.left + 1
  let height := r.bottom - r.top + 1
  decide (100 < width * height) && decide (30 < width) && decide (40 < height)

/-- A box is extended and cut off at the border. -/
def extend (cols rows : Nat) (r : CRect) : Rect :=
  let widthExtend := (r.right - r.left + 1) * 205 / 1024
  let heightExtend := (r.bottom - r.top + 1) * 205 / 1024
  let left := int16 (r.left - widthExtend)
  let top := int16 (r.top - 5)
  let right := int16 (r.right + widthExtend)
  let bottom := int16 (r.bottom + heightExtend)
  let left := if left > 0 then left else 0
  let top := if top > 0 then top else 0
  let right := if right > cols - 1 then int16 (cols - 1) else right
  let bottom := if bottom > rows - 1 then int16 (rows - 1) else bottom
  ⟨left, top, right - left + 1, bottom - top + 1⟩

end CRect

/-- The components that were examined, each with its box and `dwArraySize`, and `candidateROI` before merging. -/
structure Motions where
  examined : List (CRect × Nat)
  candidateROI : List Rect

/-- The entries of `candidateROI`. -/
def candidateMax : Nat := 100

/-- A component is examined. -/
def MotionInput.examine (f : MotionInput) (s : Motions) (out : CRect × Nat) : Except BlobFault Motions :=
  if out.1.exceeds then
    if s.candidateROI.length < candidateMax then
      .ok ⟨s.examined ++ [out], s.candidateROI ++ [out.1.extend f.cols f.rows]⟩
    else .error .candidateRoi
  else .ok ⟨s.examined ++ [out], s.candidateROI⟩

/-- `get_candidate` up to the merging. -/
def growRegions (f : MotionInput) : Except BlobFault Motions := do
  let budget := f.cols * f.rows + 1
  let s ← (f.places 6).foldlM (scan f.searcher CRect.note budget CRect.start f.examine) (fun _ => 0, ⟨[], []⟩)
  return s.2

/-- `get_candidate`: the entries of `candidateROI` that are read afterwards. -/
def getCandidate (f : MotionInput) : Except BlobFault (List Rect) := do
  let s ← growRegions f
  match Merge.mergeOverlappedRect 50 s.candidateROI with
  | .ok seen => return seen
  | .error _ => throw .unfinished

/-! ## The mask -/

namespace MotionInput
variable {f : MotionInput}

theorem loopDirect_turned : ∀ d ∈ loopDirect, (-d.1, -d.2) ∈ loopDirect := by decide

theorem updates_apply {α : Type} (as : List Int) (image : Int → α) (value : α) (g : Int → Int) (a : Int) :
    as.foldl (fun image d => Function.update image (g d) value) image a = if ∃ d ∈ as, a = g d then value else image a := by
  induction as generalizing image with
  | nil => simp
  | cons d as ih =>
    rw [List.foldl_cons, ih]
    by_cases later : ∃ e ∈ as, a = g e
    · rw [if_pos later, if_pos (by obtain ⟨e, member, same⟩ := later; exact ⟨e, List.mem_cons_of_mem d member, same⟩)]
    · rw [if_neg later]
      by_cases here : a = g d
      · rw [here, Function.update_self, if_pos ⟨d, List.mem_cons_self, rfl⟩]
      · rw [Function.update_of_ne here, if_neg]
        rintro ⟨e, member, same⟩
        rcases List.mem_cons.mp member with rfl | member
        · exact here same
        · exact later ⟨e, member, same⟩

theorem dilate_apply (temp : Int → UInt8) (p : Pixel) (a : Int) :
    f.dilate temp p a =
      if f.changed p = true ∧ ∃ d ∈ spread, a = p.2 * f.cols + p.1 + d * f.cols then 255 else temp a := by
  unfold dilate
  by_cases differs : f.changed p = true
  · rw [if_pos differs, updates_apply]
    simp only [differs, true_and]
  · rw [if_neg differs, if_neg fun both => differs both.1]

theorem dilates_apply (ps : List Pixel) (temp : Int → UInt8) (a : Int) :
    ps.foldl f.dilate temp a =
      if ∃ p ∈ ps, f.changed p = true ∧ ∃ d ∈ spread, a = p.2 * f.cols + p.1 + d * f.cols then 255 else temp a := by
  induction ps generalizing temp with
  | nil => simp
  | cons p ps ih =>
    rw [List.foldl_cons, ih, dilate_apply]
    simp only [List.exists_mem_cons_iff]
    by_cases later : ∃ p ∈ ps, f.changed p = true ∧ ∃ d ∈ spread, a = p.2 * f.cols + p.1 + d * f.cols
    · rw [if_pos later, if_pos (.inr later)]
    · rw [if_neg later]
      simp only [later, or_false]

theorem mem_places {apart : Nat} (some : 0 < apart) {p : Pixel} :
    p ∈ f.places apart ↔ ∃ c r : Nat, p = (((f.x + apart * c : Nat) : Int), ((f.y + apart * r : Nat) : Int)) ∧
      apart * c < f.width ∧ apart * r < f.height := by
  have count (n k : Nat) : k < (n + apart - 1) / apart ↔ apart * k < n := by
    rw [Nat.lt_div_iff_mul_lt some, Nat.mul_comm]
    omega
  simp only [places, List.mem_map, List.mem_product, List.mem_range, Prod.exists, count]
  constructor
  · rintro ⟨r, c, ⟨row, column⟩, rfl⟩
    exact ⟨c, r, rfl, column, row⟩
  · rintro ⟨c, r, rfl, column, row⟩
    exact ⟨r, c, ⟨row, column⟩, rfl⟩

theorem places_inside {apart : Nat} (some : 0 < apart) {p : Pixel} (member : p ∈ f.places apart) : f.mask.Inside p := by
  obtain ⟨c, r, rfl, column, row⟩ := (mem_places some).mp member
  have inside := f.inside
  refine ⟨Int.natCast_nonneg _, ?_, Int.natCast_nonneg _, ?_⟩
  · show ((f.y + apart * r : Nat) : Int) < (f.rows : Int)
    omega
  · show ((f.x + apart * c : Nat) : Int) < (f.cols : Int)
    omega

/-- **The mask** is set where a pixel that differs is at most two pixels of its kind above or below. -/
theorem mask_lit {p : Pixel} (inside : f.mask.Inside p) :
    f.mask.Lit p ↔ ∃ d ∈ spread, (p.1, p.2 - d) ∈ f.places 2 ∧ f.changed (p.1, p.2 - d) = true := by
  obtain ⟨low, _, low', high'⟩ := id inside
  have bytes : f.mask.bytes (f.mask.address p) =
      if ∃ q ∈ f.places 2, f.changed q = true ∧ ∃ d ∈ spread, (f.mask.address p : Int) = q.2 * f.cols + q.1 + d * f.cols then 255
      else 0 := dilates_apply _ _ _
  have address : (f.mask.address p : Int) = p.2 * f.cols + p.1 := by
    have above : 0 ≤ p.2 * f.cols + p.1 := by positivity
    exact Int.toNat_of_nonneg above
  rw [BinImage.Lit, and_iff_right inside, bytes, address]
  constructor
  · intro lit
    have set := of_not_not fun none => lit (if_neg none)
    obtain ⟨q, member, differs, d, near, same⟩ := set
    obtain ⟨_, _, lowQ, highQ⟩ := places_inside Nat.two_pos member
    have split : q.2 * f.cols + q.1 + d * f.cols = (q.2 + d) * f.cols + q.1 := by ring
    obtain ⟨row, column⟩ := row_column_unique low' high' lowQ highQ (same.trans split)
    have equal : (p.1, p.2 - d) = q := Prod.ext column (by show p.2 - d = q.2; omega)
    exact ⟨d, near, by rwa [equal], by rwa [equal]⟩
  · rintro ⟨d, near, member, differs⟩
    rw [if_pos ⟨_, member, differs, d, near, by ring⟩]
    decide

/-- The mask is set to 255. -/
theorem mask_bytes (f : MotionInput) (a : Nat) : f.mask.bytes a = 255 ↔ f.mask.bytes a ≠ 0 := by
  have bytes : f.mask.bytes a = if _ then 255 else 0 := dilates_apply _ _ _
  rw [bytes]
  split
  · decide
  · decide

/-! ## The components -/

theorem mask_narrow (f : MotionInput) : f.mask.Narrow := by
  obtain ⟨cols, rows⟩ := f.narrow
  exact ⟨cols.trans (by decide), rows.trans (by decide)⟩

theorem searcher_lawful (f : MotionInput) : f.searcher.Lawful (fun _ => True) f.mask.Lit f.mask.Marked where
  free temp p _ := by
    refine ⟨_, rfl, ?_⟩
    simp only [Bool.and_eq_true, decide_eq_true_eq, beq_iff_eq, BinImage.Lit, BinImage.Marked, mask_bytes]
    tauto
  mark temp p _ lit := by
    refine ⟨_, rfl, trivial, fun q => ?_⟩
    exact BinImage.marked_update lit.1 (by decide) q
  store p lit := (lit.1.fits f.mask_narrow).stored

variable (f) in
/-- The component of a pixel. -/
def motion (x : Pixel) : Set Pixel := component f.mask.Lit (shifted loopDirect) x

variable (f) in
/-- The first place of each component that has one, in their order. -/
noncomputable def motions : List Pixel := leaders f.mask.Lit (shifted loopDirect) [] (f.places 6)

variable (f) in
/-- The box of the component is larger than the limits. -/
def Large (x : Pixel) : Prop := ∃ r : CRect, r.Bounds (f.motion x) ∧ r.exceeds = true

open Classical in
variable (f) in
/-- The large ones among the components. -/
noncomputable def largeMotions : List Pixel := f.motions.filter fun x => decide (f.Large x)

theorem places_nodup {apart : Nat} (some : 0 < apart) : (f.places apart).Nodup := by
  refine List.Nodup.map ?_ (List.Nodup.product List.nodup_range List.nodup_range)
  intro p q same
  simp only [Prod.mk.injEq, Nat.cast_inj, Nat.add_left_cancel_iff] at same
  exact Prod.ext (Nat.eq_of_mul_eq_mul_left some same.2) (Nat.eq_of_mul_eq_mul_left some same.1)

theorem scanned_zero (f : MotionInput) : Scanned f.searcher (fun _ => True) f.mask.Lit f.mask.Marked [] fun _ => 0 where
  good := trivial
  whole := BinImage.whole_zero _ _
  origin _ mark := absurd rfl mark.2
  done _ none := absurd none List.not_mem_nil

theorem lit_finite (f : MotionInput) : {p | f.mask.Lit p}.Finite :=
  f.mask.pixels.finite_toSet.subset fun _ lit => BinImage.mem_pixels lit.1

/-- All searches end, with the components. -/
theorem scan_components (f : MotionInput) :
    ∃ outs, List.Forall₂ (Reported CRect.note CRect.start f.mask.Lit (shifted loopDirect)) f.motions outs ∧
      growRegions f = outs.foldlM f.examine ⟨[], []⟩ := by
  have few := f.mask.card_pixels_le
  have room : f.mask.pixels.card < f.searcher.room := Nat.lt_of_le_of_lt few f.small
  have enough : f.mask.pixels.card < f.cols * f.rows + 1 := Nat.lt_succ_of_le few
  have distinct : ([] ++ f.places 6).Nodup := places_nodup (by decide)
  obtain ⟨outs, temp, reported, _, run⟩ :=
    scan_spec CRect.note CRect.start f.examine f.searcher_lawful (fun a lit => f.mask.mem_pixels lit.1) room
      (shifted_back loopDirect_turned) enough distinct f.scanned_zero
  refine ⟨outs, reported, ?_⟩
  rw [growRegions, run]
  cases outs.foldlM f.examine ⟨[], []⟩ with
  | ok s => rfl
  | error e => rfl

/-! ## The candidates -/

/-- The large ones among the components examined. -/
def exceeding (outs : List (CRect × Nat)) : List (CRect × Nat) := outs.filter fun out => out.1.exceeds

/-- **The components examined** are stored exactly if there is room for the large ones. -/
theorem examine_all (f : MotionInput) (outs : List (CRect × Nat)) {s : Motions} (fits : s.candidateROI.length ≤ candidateMax) :
    outs.foldlM f.examine s =
      if s.candidateROI.length + (exceeding outs).length ≤ candidateMax then
        .ok ⟨s.examined ++ outs, s.candidateROI ++ (exceeding outs).map fun out => out.1.extend f.cols f.rows⟩
      else .error .candidateRoi := by
  induction outs generalizing s with
  | nil =>
    rw [if_pos (show s.candidateROI.length + (exceeding []).length ≤ candidateMax from fits)]
    simp [exceeding]
    rfl
  | cons out outs ih =>
    rw [List.foldlM_cons, examine]
    by_cases large : out.1.exceeds = true
    · have more : exceeding (out :: outs) = out :: exceeding outs := List.filter_cons_of_pos large
      rw [if_pos large, more, List.length_cons, List.map_cons]
      by_cases room : s.candidateROI.length < candidateMax
      · rw [if_pos room, ok_bind, ih (by simpa using room), List.length_append, List.length_singleton,
          List.append_assoc, List.append_assoc, Nat.add_assoc, Nat.add_comm 1]
        rfl
      · rw [if_neg room, if_neg (by omega)]
        rfl
    · have same : exceeding (out :: outs) = exceeding outs := List.filter_cons_of_neg large
      rw [if_neg large, ok_bind, same, @ih ⟨s.examined ++ [out], s.candidateROI⟩ fits, List.append_assoc, List.singleton_append]

/-- The box of a component, and the entries of `m_pPointArray` that it took. -/
structure MotionRight (f : MotionInput) (x : Pixel) (out : CRect × Nat) : Prop where
  box : out.1.Bounds (f.motion x)
  entries : out.2 ≤ {p | f.mask.Lit p}.ncard + 1

theorem motionRight_of_reported {x : Pixel} {out : CRect × Nat}
    (reported : Reported CRect.note CRect.start f.mask.Lit (shifted loopDirect) x out) : MotionRight f x out := by
  obtain ⟨rest, found, rfl⟩ := reported
  refine ⟨CRect.found_bounds found fun q lit => lit.1.fits f.mask_narrow, ?_⟩
  exact Nat.succ_le_succ (found.length_le f.lit_finite)

open Classical in
theorem large_eq {x : Pixel} {out : CRect × Nat} (right : MotionRight f x out) : decide (f.Large x) = out.1.exceeds := by
  rw [Bool.eq_iff_iff, decide_eq_true_eq]
  constructor
  · rintro ⟨r, bounds, large⟩
    rwa [right.box.unique bounds]
  · intro large
    exact ⟨out.1, right.box, large⟩

/-- One direction of a box that is extended and cut off. -/
theorem cut_inside {n low high before behind : Int} (first : 0 ≤ low) (order : low ≤ high) (last : high < n)
    (before' : 0 ≤ before) (behind' : 0 ≤ behind) :
    0 ≤ (if low - before > 0 then low - before else 0) ∧
      0 < (if high + behind > n - 1 then n - 1 else high + behind) - (if low - before > 0 then low - before else 0) + 1 ∧
      (if low - before > 0 then low - before else 0) +
        ((if high + behind > n - 1 then n - 1 else high + behind) - (if low - before > 0 then low - before else 0) + 1) ≤ n := by
  split <;> split <;> omega

/-- An extended box stays inside the image. -/
theorem extend_contained {x : Pixel} (lit : f.mask.Lit x) {r : CRect} (bounds : r.Bounds (f.motion x)) :
    (r.extend f.cols f.rows).Within f.cols f.rows := by
  have member : ∀ p ∈ f.motion x, f.mask.Inside p := fun p linked => (Linked.right linked).1
  obtain ⟨inside, ⟨a, aIn, aLeft⟩, ⟨b, bIn, bTop⟩, ⟨c, cIn, cRight⟩, ⟨d, dIn, dBottom⟩⟩ := bounds
  obtain ⟨_, _, left, _⟩ := member a aIn
  obtain ⟨top, _, _, _⟩ := member b bIn
  obtain ⟨_, _, _, right⟩ := member c cIn
  obtain ⟨_, bottom, _, _⟩ := member d dIn
  have order := inside x (.refl lit)
  obtain ⟨cols, rows⟩ := f.narrow
  have right' : r.right < f.cols := cRight ▸ right
  have bottom' : r.bottom < f.rows := dBottom ▸ bottom
  have exact (n : Int) (low : -32768 ≤ n) (high : n < 32768) : int16 n = n := Int.bmod_eq_of_le (by omega) (by omega)
  simp only [CRect.extend]
  rw [exact _ (by omega) (by omega), exact _ (by omega) (by omega), exact _ (by omega) (by omega), exact _ (by omega) (by omega),
    exact _ (by omega) (by omega), exact _ (by omega) (by omega)]
  have wide := cut_inside (aLeft ▸ left) (order.1.trans order.2.1) right' (show 0 ≤ (r.right - r.left + 1) * 205 / 1024 by omega)
    (show 0 ≤ (r.right - r.left + 1) * 205 / 1024 by omega)
  have high := cut_inside (bTop ▸ top) (order.2.2.1.trans order.2.2.2) bottom' (show (0 : Int) ≤ 5 by omega)
    (show 0 ≤ (r.bottom - r.top + 1) * 205 / 1024 by omega)
  exact ⟨wide.1, high.1, wide.2.1, high.2.1, wide.2.2, high.2.2⟩

/-- What is to be found: the components of the mask that have a place of the grid, once, in the order of these, with
their boxes; and the boxes above the limits, extended inside the image. -/
structure CandidatesRight (f : MotionInput) (m : Motions) : Prop where
  examined : List.Forall₂ (MotionRight f) f.motions m.examined
  candidates : m.candidateROI = (exceeding m.examined).map fun out => out.1.extend f.cols f.rows
  contained : ∀ roi ∈ m.candidateROI, roi.Within f.cols f.rows
  room : m.candidateROI.length ≤ candidateMax

theorem growRegions_spec (f : MotionInput) :
    (f.largeMotions.length ≤ candidateMax → ∃ m, growRegions f = .ok m ∧ CandidatesRight f m) ∧
      (candidateMax < f.largeMotions.length → growRegions f = .error .candidateRoi) := by
  obtain ⟨outs, reported, run⟩ := f.scan_components
  have right : List.Forall₂ (MotionRight f) f.motions outs := reported.imp fun x out => motionRight_of_reported
  have count : f.largeMotions.length = (exceeding outs).length := by
    rw [largeMotions]
    exact forall₂_filter_length (fun x out there => large_eq there) right
  rw [examine_all f outs (Nat.zero_le _), List.length_nil, Nat.zero_add, List.nil_append, List.nil_append] at run
  rw [count]
  constructor
  · intro room
    rw [if_pos room] at run
    refine ⟨_, run, right, rfl, ?_, ?_⟩
    · intro roi member
      obtain ⟨out, large, rfl⟩ := List.mem_map.mp member
      obtain ⟨x, leads, box⟩ := forall₂_mem_right right (List.mem_of_mem_filter large)
      exact extend_contained (mem_leaders leads).2 box.box
    · rwa [List.length_map]
  · intro many
    rwa [if_neg (Nat.not_le_of_lt many)] at run

/-- **The motion components.** For all frames and regions the searches end, inside the point array, and examine the
components of the mask that have a place of the grid, once, in the order of these, with their boxes and at most one entry
for each pixel of the mask and one for the place; the boxes above the limits are extended inside the image and stored:
this is so exactly if at most a hundred of the components are that large. -/
theorem growRegions_iff (f : MotionInput) :
    (∃ m, growRegions f = .ok m ∧ CandidatesRight f m) ↔ f.largeMotions.length ≤ 100 := by
  obtain ⟨enough, many⟩ := f.growRegions_spec
  constructor
  · intro right
    by_contra large
    exact error_not (many (Nat.lt_of_not_le large)) right
  · exact enough

/-- The boxes that `get_candidate` hands on are in the image. -/
theorem getCandidate_within {f : MotionInput} {rois : List Rect} (done : getCandidate f = .ok rois) :
    rois.length ≤ candidateMax ∧ ∀ roi ∈ rois, roi.Within f.cols f.rows := by
  rw [getCandidate] at done
  obtain ⟨m, grown, merged⟩ := bind_ok done
  have right : CandidatesRight f m := by
    by_cases few : f.largeMotions.length ≤ candidateMax
    · obtain ⟨m', grown', right⟩ := f.growRegions_spec.1 few
      cases grown.symm.trans grown'
      exact right
    · rw [f.growRegions_spec.2 (Nat.lt_of_not_le few)] at grown
      cases grown
  have ranges : ∀ roi ∈ m.candidateROI, roi.InRange := by
    intro roi member
    obtain ⟨left, top, wide, tall, right, bottom⟩ := right.contained roi member
    have narrow := f.narrow
    exact ⟨left, top, wide, tall, by omega, by omega⟩
  obtain ⟨seen, run, length, composed⟩ := Merge.mergeOverlappedRect_ok 50 right.room ranges
  rw [run] at merged
  cases merged
  exact ⟨length.trans_le right.room, fun roi member => (composed roi member).within right.contained⟩

/-! ## A frame with too many of them -/

/-- Stripes that go down to the right, in bands of 17 columns of pixels. -/
def striped (x y : Nat) : Bool := decide (x / 2 % 18 < 17) && decide ((y / 2 + 19 - x / 2 % 18) % 7 = 0)

/-- A frame with stripes after an empty one, in a region that is the whole image. -/
def stripes : MotionInput where
  cols := 320
  rows := 240
  currFrame a := if striped (a % 320) (a / 320) then 255 else 0
  prevFrame _ := 0
  threshold := 10
  x := 0
  y := 0
  width := 320
  height := 240
  narrow := ⟨by decide, by decide⟩
  small := by decide
  inside := ⟨by decide, by decide⟩

/-- A pixel of a stripe, by the band and the number of the stripe in it. -/
def InStripe (b k : Int) (p : Pixel) : Prop :=
  ∃ c e : Int, p = (36 * b + 2 * c, 2 * c + 14 * k + 2 * e) ∧ (0 ≤ c ∧ c ≤ 16) ∧ 0 ≤ e ∧ e ≤ 4

/-- The band and the number of the stripe. -/
def stripeOf (p : Pixel) : Int × Int := (p.1 / 36, (p.2 - p.1 % 36) / 14)

theorem InStripe.stripeOf {b k : Int} {p : Pixel} (here : InStripe b k p) : stripeOf p = (b, k) := by
  obtain ⟨c, e, rfl, column, row⟩ := here
  exact Prod.ext (show (36 * b + 2 * c) / 36 = b by omega)
    (show (2 * c + 14 * k + 2 * e - (36 * b + 2 * c) % 36) / 14 = k by omega)

theorem stripes_changed (c r : Nat) (column : c < 160) :
    stripes.changed ((2 * c : Nat), (2 * r : Nat)) = striped (2 * c) (2 * r) := by
  have address : (((2 * r : Nat) : Int) * (stripes.cols : Int) + ((2 * c : Nat) : Int)).toNat = 2 * r * 320 + 2 * c := by
    show (((2 * r : Nat) : Int) * (320 : Int) + ((2 * c : Nat) : Int)).toNat = 2 * r * 320 + 2 * c
    omega
  have back : (2 * r * 320 + 2 * c) % 320 = 2 * c ∧ (2 * r * 320 + 2 * c) / 320 = 2 * r := by omega
  simp only [changed, address]
  show (decide (((if striped ((2 * r * 320 + 2 * c) % 320) ((2 * r * 320 + 2 * c) / 320) then 255 else 0 : UInt8).toNat : Int) - 0 > 10)
    || decide (0 - ((if striped ((2 * r * 320 + 2 * c) % 320) ((2 * r * 320 + 2 * c) / 320) then 255 else 0 : UInt8).toNat : Int) > 10)) = _
  rw [back.1, back.2]
  cases striped (2 * c) (2 * r) with
  | true => rfl
  | false => rfl

/-- The stripes are five pixels high. -/
theorem stripes_lit {p : Pixel} (lit : stripes.mask.Lit p) : ∃ b k, InStripe b k p := by
  obtain ⟨d, near, member, differs⟩ := (mask_lit lit.1).mp lit
  obtain ⟨c, r, place, column, row⟩ := (mem_places Nat.two_pos).mp member
  have column' : 2 * c < 320 := column
  simp only [stripes, Nat.zero_add] at place
  rw [place, stripes_changed c r (by omega)] at differs
  simp only [striped, Bool.and_eq_true, decide_eq_true_eq, show 2 * c / 2 = c by omega, show 2 * r / 2 = r by omega] at differs
  obtain ⟨left, above⟩ := Prod.ext_iff.mp place
  simp only at left above
  refine ⟨(c / 18 : Nat), ((r + 19 - c % 18) / 7 : Nat) - 3, (c % 18 : Nat), d / 2 + 2, ?_, ?_, ?_⟩
  · refine Prod.ext (show p.1 = _ by omega) (show p.2 = _ from ?_)
    simp only [spread, List.mem_cons, List.not_mem_nil, or_false] at near
    omega
  · omega
  · simp only [spread, List.mem_cons, List.not_mem_nil, or_false] at near
    omega

/-- Stripes are apart. -/
theorem InStripe.next {b k b' k' : Int} {p q : Pixel} (here : InStripe b k p) (there : InStripe b' k' q)
    (near : q ∈ shifted loopDirect p) : InStripe b k q := by
  obtain ⟨d, member, rfl⟩ := List.mem_map.mp near
  have short : ∀ d ∈ loopDirect, (-2 ≤ d.1 ∧ d.1 ≤ 2) ∧ -2 ≤ d.2 ∧ d.2 ≤ 2 := by decide
  have step := short d member
  obtain ⟨c, e, rfl, column, row⟩ := here
  obtain ⟨c', e', place, column', row'⟩ := there
  obtain ⟨left, above⟩ := Prod.ext_iff.mp place
  simp only at left above
  have band : b' = b := by omega
  subst band
  have number : k' = k := by omega
  subst number
  exact ⟨c', e', place, column', row'⟩

theorem InStripe.linked {b k : Int} {p q : Pixel} (here : InStripe b k p)
    (linked : Linked stripes.mask.Lit (shifted loopDirect) p q) : InStripe b k q := by
  obtain ⟨_, way⟩ := linked
  induction way with
  | refl => exact here
  | tail _ last ih =>
    obtain ⟨b', k', there⟩ := stripes_lit last.1
    exact ih.next there last.2

/-- A pixel of a stripe, from the upper left one. -/
def stripePixel (b k c e : Nat) : Pixel := ((36 * b + 2 * c : Nat), (2 * c + 14 * k + 2 * e : Nat))

theorem stripePixel_inStripe {b k c e : Nat} (column : c ≤ 16) (row : e ≤ 4) : InStripe b k (stripePixel b k c e) :=
  ⟨c, e, Prod.ext (by simp only [stripePixel]; omega) (by simp only [stripePixel]; omega), by omega, by omega⟩

theorem stripePixel_lit {b k c e : Nat} (band : b < 8) (number : k < 15) (column : c ≤ 16) (row : e ≤ 4) :
    stripes.mask.Lit (stripePixel b k c e) := by
  have inside : stripes.mask.Inside (stripePixel b k c e) := by
    refine ⟨Int.natCast_nonneg _, ?_, Int.natCast_nonneg _, ?_⟩
    · show ((2 * c + 14 * k + 2 * e : Nat) : Int) < 240
      omega
    · show ((36 * b + 2 * c : Nat) : Int) < 320
      omega
  have sample : ((stripePixel b k c e).1, (stripePixel b k c e).2 - (2 * e - 4 : Int)) =
      (((2 * (18 * b + c) : Nat) : Int), ((2 * (c + 7 * k + 2) : Nat) : Int)) := by
    simp only [stripePixel]
    exact Prod.ext (by simp only; omega) (by simp only; omega)
  refine (mask_lit inside).mpr ⟨2 * e - 4, ?_, ?_, ?_⟩
  · simp only [spread, List.mem_cons, List.not_mem_nil, or_false]
    omega
  · rw [sample]
    refine (mem_places Nat.two_pos).mpr ⟨18 * b + c, c + 7 * k + 2, ?_, ?_, ?_⟩
    · simp only [stripes, Nat.zero_add]
    · show 2 * (18 * b + c) < 320
      omega
    · show 2 * (c + 7 * k + 2) < 240
      omega
  · rw [sample, stripes_changed _ _ (by omega), striped, Bool.and_eq_true, decide_eq_true_eq, decide_eq_true_eq]
    omega

/-- A stripe is in one piece. -/
theorem stripePixel_linked {b k c e : Nat} (band : b < 8) (number : k < 15) (column : c ≤ 16) (row : e ≤ 4) :
    Linked stripes.mask.Lit (shifted loopDirect) (stripePixel b k 0 0) (stripePixel b k c e) := by
  induction c with
  | zero =>
    induction e with
    | zero => exact .refl (stripePixel_lit band number column row)
    | succ e ih =>
      refine (ih (by omega)).step (stripePixel_lit band number column row) (List.mem_map.mpr ⟨(0, 2), by decide, ?_⟩)
      exact Prod.ext (by simp only [stripePixel]; omega) (by simp only [stripePixel]; omega)
  | succ c ih =>
    refine (ih (by omega)).step (stripePixel_lit band number column row) (List.mem_map.mpr ⟨(2, 2), by decide, ?_⟩)
    exact Prod.ext (by simp only [stripePixel]; omega) (by simp only [stripePixel]; omega)

/-- Each stripe is a large component. -/
theorem stripe_large {b k : Nat} (band : b < 8) (number : k < 15) : ∃ x ∈ stripes.largeMotions, stripeOf x = ((b : Int), (k : Int)) := by
  classical
  have place : stripePixel b k 0 (2 * k % 3) ∈ stripes.places 6 := by
    refine (mem_places (by decide)).mpr ⟨6 * b, (7 * k + 2 * k % 3) / 3, ?_, ?_, ?_⟩
    · simp only [stripes, stripePixel, Nat.zero_add]
      exact Prod.ext (by simp only; omega) (by simp only; omega)
    · show 6 * (6 * b) < 320
      omega
    · show 6 * ((7 * k + 2 * k % 3) / 3) < 240
      omega
  have first : Linked stripes.mask.Lit (shifted loopDirect) (stripePixel b k 0 0) (stripePixel b k 0 (2 * k % 3)) :=
    stripePixel_linked band number (by omega) (by omega)
  have leader : (∃ q ∈ [], Linked stripes.mask.Lit (shifted loopDirect) q (stripePixel b k 0 (2 * k % 3))) ∨
      ∃ x ∈ stripes.motions, Linked stripes.mask.Lit (shifted loopDirect) x (stripePixel b k 0 (2 * k % 3)) :=
    exists_leader place first.right
  rcases leader with ⟨_, nowhere, _⟩ | ⟨x, leads, linked⟩
  · cases nowhere
  · have corner : Linked stripes.mask.Lit (shifted loopDirect) x (stripePixel b k 0 0) :=
      linked.trans (first.symm (shifted_back loopDirect_turned))
    have opposite : Linked stripes.mask.Lit (shifted loopDirect) x (stripePixel b k 16 4) :=
      corner.trans (stripePixel_linked band number (by omega) (by omega))
    have here : InStripe b k x :=
      (stripePixel_inStripe (by omega) (by omega)).linked (corner.symm (shifted_back loopDirect_turned))
    refine ⟨x, List.mem_filter.mpr ⟨leads, ?_⟩, here.stripeOf⟩
    obtain ⟨outs, reported, _⟩ := stripes.scan_components
    obtain ⟨out, _, there⟩ := forall₂_mem_left reported leads
    have right := motionRight_of_reported there
    rw [large_eq right]
    have low := right.box.inside _ corner
    have high := right.box.inside _ opposite
    simp only [stripePixel] at low high
    simp only [CRect.exceeds, Bool.and_eq_true, decide_eq_true_eq]
    have width : 30 < out.1.right - out.1.left + 1 := by omega
    have height : 40 < out.1.bottom - out.1.top + 1 := by omega
    exact ⟨⟨by nlinarith, width⟩, height⟩

theorem stripes_many : 100 < stripes.largeMotions.length := by
  have numbers : ((List.range 8 ×ˢ List.range 15).map fun q => ((q.1 : Int), (q.2 : Int))).Nodup := by
    refine List.Nodup.map ?_ (List.Nodup.product List.nodup_range List.nodup_range)
    intro q q' same
    simp only [Prod.mk.injEq, Nat.cast_inj] at same
    exact Prod.ext same.1 same.2
  have all : ((List.range 8 ×ˢ List.range 15).map fun q => ((q.1 : Int), (q.2 : Int))) ⊆ stripes.largeMotions.map stripeOf := by
    intro s member
    obtain ⟨⟨b, k⟩, inside, rfl⟩ := List.mem_map.mp member
    obtain ⟨band, number⟩ := List.mem_product.mp inside
    obtain ⟨x, large, same⟩ := stripe_large (List.mem_range.mp band) (List.mem_range.mp number)
    exact List.mem_map.mpr ⟨x, large, same⟩
  have fewer := (List.subperm_of_subset numbers all).length_le
  rw [List.length_map, List.length_map, List.length_product, List.length_range, List.length_range] at fewer
  omega

/-- The stripes are more than `candidateROI` has entries. -/
theorem stripes_overrun : growRegions stripes = .error .candidateRoi ∧ ¬ ∃ m, growRegions stripes = .ok m ∧ CandidatesRight stripes m := by
  have fault := stripes.growRegions_spec.2 stripes_many
  exact ⟨fault, error_not fault⟩

end MotionInput

end VideoDetector.Alg
