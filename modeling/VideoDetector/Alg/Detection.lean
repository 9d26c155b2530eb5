import VideoDetector.Alg.Candidate
import VideoDetector.Lib.Bounded

/-!
# Detection (`vehicle_detection` in `fvd-new/alg-mutilthread/m_arith.cpp`, `alg_opencv_processPC` in `Detector2.cpp`)

Each candidate is copied out of the image, with its width rounded up to a multiple of four, and given to the classifier;
what it accepts is written behind the vehicles found before. A dark image is given to the classifier as a whole. The
windows that the classifier accepts are inputs; they lie inside what it was given.
-/

namespace VideoDetector.Alg.Detection
set_option autoImplicit false
open Lib

/-- The size of an image, in numbers of 16 bits. -/
structure ImageSize where
  width : Nat
  height : Nat
  small : width < 65536 ∧ height < 65536

/-- `((roi.width + 3) >> 2) << 2`. -/
def roundedWidth (roi : Rect) : Int := (roi.width + 3) / 4 * 4

/-- An entry of `candidateROI`, and the windows that the classifier accepts in what it is given of it. -/
structure Candidate (size : ImageSize) where
  roi : Rect
  within : roi.Within size.width size.height
  faces : List Rect
  accepted : ∀ r ∈ faces, r.Within (roundedWidth roi) roi.height

/-- What a call works on: the brightness, the windows that are accepted in the whole image, and the candidates. -/
structure Scene (size : ImageSize) where
  guBackGrey : Nat
  faces : List Rect
  accepted : ∀ r ∈ faces, r.Within size.width size.height
  candidates : List (Candidate size)

/-- The image is classified as a whole. -/
def Scene.dark {size : ImageSize} (s : Scene size) : Bool := decide ((if s.guBackGrey = 0 then 50 else s.guBackGrey) ≤ 30)

/-- How a call fails: `vehicleROI` or `rect_temp` is full. -/
inductive DetectFault where
  | vehicleROI
  | rectTemp
  deriving DecidableEq, Repr

/-- The entries of `vehicleROI`. -/
def vehicleMax : Nat := 100

/-- `alg_opencv_processPC`, with what the classifier accepts. -/
def processPC (vehicleROI faces : List Rect) : Except DetectFault (List Rect) :=
  faces.foldlM (pushIn .vehicleROI vehicleMax) vehicleROI

/-- The addresses of the pixels that are copied for a row of a candidate. -/
def copiedRow (size : ImageSize) (roi : Rect) (j : Nat) : List Int :=
  (List.range (roundedWidth roi).toNat).map fun (i : Nat) => ((j : Int) + roi.y) * size.width + roi.x + (i : Int)

def copiedRows (size : ImageSize) (roi : Rect) : List (List Int) := (List.range roi.height.toNat).map (copiedRow size roi)

/-- What was copied for each candidate, and `vehicleROI`. -/
structure Detected where
  copied : List (Rect × List (List Int))
  vehicleROI : List Rect

/-- A detection in a candidate, in the image. -/
def moved (roi r : Rect) : Rect := { r with x := r.x + roi.x, y := r.y + roi.y }

/-- The body of the loop over the candidates. -/
def detectCandidate (size : ImageSize) (s : Detected) (c : Candidate size) : Except DetectFault Detected := do
  let rois ← processPC s.vehicleROI c.faces
  let detectNum := s.vehicleROI.length
  return ⟨s.copied ++ [(c.roi, copiedRows size c.roi)], rois.take detectNum ++ (rois.drop detectNum).map (moved c.roi)⟩

/-- `merge_overlapped_rect` for the vehicles. -/
def merge (d : Detected) : Except DetectFault Detected :=
  match Merge.mergeOverlappedRect 50 d.vehicleROI with
  | .ok seen => .ok { d with vehicleROI := seen }
  | .error _ => .error .rectTemp

/-- `vehicle_detection`. -/
def vehicleDetection {size : ImageSize} (s : Scene size) : Except DetectFault Detected := do
  let d ← if s.dark then Detected.mk [] <$> processPC [] s.faces else s.candidates.foldlM (detectCandidate size) ⟨[], []⟩
  merge d

/-! ## The detections -/

theorem processPC_eq {rois : List Rect} (fits : rois.length ≤ vehicleMax) (faces : List Rect) :
    processPC rois faces = if rois.length + faces.length ≤ vehicleMax then .ok (rois ++ faces) else .error .vehicleROI :=
  pushesIn_eq fits faces

variable {size : ImageSize}

/-- What the candidates bring. -/
def allFaces (cs : List (Candidate size)) : List Rect := cs.flatMap fun c => c.faces.map (moved c.roi)

/-- **The candidates** are all classified exactly if there is room for what is found. -/
theorem detectCandidates_eq (cs : List (Candidate size)) {s : Detected} (fits : s.vehicleROI.length ≤ vehicleMax) :
    cs.foldlM (detectCandidate size) s =
      if s.vehicleROI.length + (allFaces cs).length ≤ vehicleMax then
        .ok ⟨s.copied ++ cs.map fun c => (c.roi, copiedRows size c.roi), s.vehicleROI ++ allFaces cs⟩
      else .error .vehicleROI := by
  induction cs generalizing s with
  | nil =>
    rw [if_pos (show s.vehicleROI.length + (allFaces ([] : List (Candidate size))).length ≤ vehicleMax from fits)]
    simp only [allFaces, List.flatMap_nil, List.map_nil, List.append_nil]
    rfl
  | cons c cs ih =>
    have all : allFaces (c :: cs) = c.faces.map (moved c.roi) ++ allFaces cs := List.flatMap_cons
    rw [List.foldlM_cons, detectCandidate, processPC_eq fits, all, List.length_append, List.length_map]
    by_cases room : s.vehicleROI.length + c.faces.length ≤ vehicleMax
    · have step : s.vehicleROI ++ c.faces.map (moved c.roi) =
          (s.vehicleROI ++ c.faces).take s.vehicleROI.length ++
            ((s.vehicleROI ++ c.faces).drop s.vehicleROI.length).map (moved c.roi) := by
        rw [List.take_left' rfl, List.drop_left' rfl]
      have fits' : (s.vehicleROI ++ c.faces.map (moved c.roi)).length ≤ vehicleMax := by
        rwa [List.length_append, List.length_map]
      rw [if_pos room, ok_bind]
      show cs.foldlM (detectCandidate size) ⟨_, _⟩ = _
      rw [← step, ih fits', List.length_append, List.length_map, List.append_assoc, List.append_assoc, Nat.add_assoc]
      rfl
    · rw [if_neg room, if_neg (by omega)]
      rfl

/-- The pixels copied are of the candidate's own rows. -/
def OwnRows (size : ImageSize) (roi : Rect) (rows : List (List Int)) : Prop :=
  ∀ (j : Nat) (row : List Int), rows[j]? = some row →
    ∀ a ∈ row, (roi.y + j) * size.width ≤ a ∧ a < (roi.y + j + 1) * size.width

/-- Rows end at the border exactly if the rounded width fits. -/
theorem copiedRows_own_iff {roi : Rect} (within : roi.Within size.width size.height) :
    OwnRows size roi (copiedRows size roi) ↔ roi.x + roundedWidth roi ≤ size.width := by
  have wider : roi.width ≤ roundedWidth roi := by
    unfold roundedWidth
    omega
  have some := within.wide
  have tall := within.tall
  constructor
  · intro own
    have row : (copiedRows size roi)[0]? = .some (copiedRow size roi 0) := by
      rw [copiedRows, List.getElem?_map, List.getElem?_range (by omega)]
      rfl
    have last : (((0 : Nat) : Int) + roi.y) * size.width + roi.x + ((roundedWidth roi).toNat - 1 : Nat) ∈ copiedRow size roi 0 :=
      List.mem_map.mpr ⟨(roundedWidth roi).toNat - 1, List.mem_range.mpr (by omega), rfl⟩
    have bound := (own 0 _ row _ last).2
    have split : (roi.y + ((0 : Nat) : Int) + 1) * size.width = (((0 : Nat) : Int) + roi.y) * size.width + size.width := by ring
    rw [split] at bound
    omega
  · intro fits j row there a member
    rw [copiedRows, List.getElem?_map] at there
    obtain ⟨j', place, rfl⟩ := Option.map_eq_some_iff.mp there
    have same : j' = j := by
      obtain ⟨_, same⟩ := List.getElem?_eq_some_iff.mp place
      rw [← same, List.getElem_range]
    subst same
    obtain ⟨i, inside, rfl⟩ := List.mem_map.mp member
    have column := List.mem_range.mp inside
    have left := within.left
    have first : (roi.y + (j' : Int)) * size.width = ((j' : Int) + roi.y) * size.width := by ring
    have split : (roi.y + (j' : Int) + 1) * size.width = ((j' : Int) + roi.y) * size.width + size.width := by ring
    rw [first, split]
    omega

/-! ## The call -/

/-- What is to hold of a call: the pixels copied are of the candidates' own rows, and the vehicles are in the array and in
the image. -/
structure InBounds (size : ImageSize) (d : Detected) : Prop where
  copied : ∀ c ∈ d.copied, OwnRows size c.1 c.2
  room : d.vehicleROI.length ≤ vehicleMax
  within : ∀ r ∈ d.vehicleROI, r.Within size.width size.height

theorem vehicleDetection_dark {s : Scene size} (dark : s.dark = true) :
    vehicleDetection s = if s.faces.length ≤ vehicleMax then merge ⟨[], s.faces⟩ else .error .vehicleROI := by
  have empty : ([] : List Rect).length ≤ vehicleMax := Nat.zero_le _
  have run := processPC_eq empty s.faces
  rw [List.length_nil, Nat.zero_add, List.nil_append] at run
  rw [vehicleDetection, if_pos dark, run]
  by_cases room : s.faces.length ≤ vehicleMax
  · rw [if_pos room, if_pos room]
    rfl
  · rw [if_neg room, if_neg room]
    rfl

theorem vehicleDetection_candidates {s : Scene size} (dark : s.dark = false) :
    vehicleDetection s =
      if (allFaces s.candidates).length ≤ vehicleMax then
        merge ⟨s.candidates.map fun c => (c.roi, copiedRows size c.roi), allFaces s.candidates⟩
      else .error .vehicleROI := by
  have run := detectCandidates_eq s.candidates (s := ⟨[], []⟩) (Nat.zero_le _)
  rw [List.length_nil, Nat.zero_add, List.nil_append, List.nil_append] at run
  rw [vehicleDetection, if_neg (by simp [dark]), run]
  by_cases room : (allFaces s.candidates).length ≤ vehicleMax
  · rw [if_pos room, if_pos room]
    rfl
  · rw [if_neg room, if_neg room]
    rfl

/-- Merged vehicles stay in the image. -/
theorem merge_inBounds {d : Detected} (bounds : InBounds size d) : ∃ d', merge d = .ok d' ∧ InBounds size d' := by
  obtain ⟨copied, room, within⟩ := bounds
  have ranges : ∀ r ∈ d.vehicleROI, r.InRange := by
    intro r member
    obtain ⟨left, top, wide, tall, right, bottom⟩ := within r member
    have small := size.small
    exact ⟨left, top, wide, tall, by omega, by omega⟩
  obtain ⟨seen, run, length, composed⟩ := Merge.mergeOverlappedRect_ok 50 room ranges
  refine ⟨{ d with vehicleROI := seen }, ?_, copied, length.trans_le room, fun r member => (composed r member).within within⟩
  rw [merge, run]

theorem merge_copied {d d' : Detected} (done : merge d = .ok d') : d'.copied = d.copied := by
  unfold merge at done
  split at done
  · cases done
    rfl
  · cases done

/-- A vehicle found in a candidate is in the image if the rounded width fits. -/
theorem moved_within {c : Candidate size} (fits : c.roi.x + roundedWidth c.roi ≤ size.width) {r : Rect} (member : r ∈ c.faces) :
    (moved c.roi r).Within size.width size.height := by
  obtain ⟨left, top, wide, tall, right, bottom⟩ := c.accepted r member
  have outer := c.within
  exact ⟨Int.add_nonneg left outer.left, Int.add_nonneg top outer.top, wide, tall,
    by simp only [moved]; omega, by simp only [moved]; have := outer.bottom; omega⟩

theorem allFaces_length (cs : List (Candidate size)) : (allFaces cs).length = (cs.map fun c => c.faces.length).sum := by
  simp [allFaces, List.length_flatMap]

/-- **Detection stays in bounds**, for all candidates and all that the classifier accepts, exactly if in the dark at most
a hundred windows are accepted, and otherwise every candidate's rounded width ends inside the image and at most a hundred
windows are accepted in all candidates together. -/
theorem vehicleDetection_iff (size : ImageSize) (s : Scene size) :
    (∃ d, vehicleDetection s = .ok d ∧ InBounds size d) ↔
      (s.dark = true → s.faces.length ≤ 100) ∧
        (s.dark = false →
          (∀ c ∈ s.candidates, c.roi.x + roundedWidth c.roi ≤ size.width) ∧
            (s.candidates.map fun c => c.faces.length).sum ≤ 100) := by
  cases dark : s.dark with
  | true =>
    rw [vehicleDetection_dark dark]
    simp only [forall_const, Bool.true_eq_false, false_implies, and_true]
    by_cases room : s.faces.length ≤ vehicleMax
    · rw [if_pos room]
      have bounds : InBounds size ⟨[], s.faces⟩ := ⟨fun c none => absurd none List.not_mem_nil, room, s.accepted⟩
      exact iff_of_true (merge_inBounds bounds) room
    · rw [if_neg room]
      exact iff_of_false (error_not rfl) room
  | false =>
    rw [vehicleDetection_candidates dark, ← allFaces_length]
    simp only [forall_const, Bool.false_eq_true, false_implies, true_and]
    by_cases room : (allFaces s.candidates).length ≤ vehicleMax
    · rw [if_pos room]
      constructor
      · rintro ⟨d, done, bounds⟩
        refine ⟨fun c member => ?_, room⟩
        rw [← copiedRows_own_iff c.within]
        apply bounds.copied (c.roi, copiedRows size c.roi)
        rw [merge_copied done]
        exact List.mem_map.mpr ⟨c, member, rfl⟩
      · rintro ⟨fits, _⟩
        apply merge_inBounds
        refine ⟨?_, room, ?_⟩
        · intro c member
          obtain ⟨c, there, rfl⟩ := List.mem_map.mp member
          exact (copiedRows_own_iff c.within).mpr (fits c there)
        · intro r member
          obtain ⟨c, there, found⟩ := List.mem_flatMap.mp member
          obtain ⟨r, accepted, rfl⟩ := List.mem_map.mp found
          exact moved_within (fits c there) accepted
    · rw [if_neg room]
      exact iff_of_false (error_not rfl) fun cond => room cond.2

/-- The half-size image. -/
def halfSize : ImageSize := ⟨320, 240, by decide, by decide⟩

/-- A candidate at the right border with a width of 33 pixels. -/
def atBorder : Candidate halfSize where
  roi := ⟨287, 100, 33, 50⟩
  within := ⟨by decide, by decide, by decide, by decide, by decide, by decide⟩
  faces := []
  accepted _ none := absurd none List.not_mem_nil

/-- An image by day with that candidate. -/
def borderScene : Scene halfSize := ⟨100, [], fun _ none => absurd none List.not_mem_nil, [atBorder]⟩

/-- Three pixels of the next row are copied. -/
theorem borderScene_copies_next_row : ¬ ∃ d, vehicleDetection borderScene = .ok d ∧ InBounds halfSize d := by
  rintro ⟨d, done, bounds⟩
  rw [vehicleDetection_candidates (show borderScene.dark = false by decide), if_pos (by decide)] at done
  have own : OwnRows halfSize atBorder.roi (copiedRows halfSize atBorder.roi) := by
    apply bounds.copied (atBorder.roi, copiedRows halfSize atBorder.roi)
    rw [merge_copied done]
    exact List.mem_singleton.mpr rfl
  exact absurd ((copiedRows_own_iff atBorder.within).mp own) (by decide)

end VideoDetector.Alg.Detection
