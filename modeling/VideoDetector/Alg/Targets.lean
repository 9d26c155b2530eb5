import Mathlib.Data.Rat.Init
import Mathlib.Logic.Function.Iterate
import VideoDetector.Lib.Runs

/-!
# Tracked vehicles (`fvd-new/alg-mutilthread/m_arith.cpp`)

By day the vehicles are followed in two tables of a hundred entries: a detection that lies near no
entry becomes a candidate, and a candidate that was detected twice becomes a target and is given an
id. What the detector finds and where the tracker moves the boxes are inputs; the points that the
tracker follows are left out. The velocities, floats in the source, are rationals.

`target_tables_iff` says when the tables are large enough and `vehicle_ids_iff` when the ids are unique.
-/

namespace VideoDetector.Alg
set_option autoImplicit false
open Lib

/-! ## Boxes -/

structure Rect where
  x : Int
  y : Int
  width : Int
  height : Int
  deriving DecidableEq, Repr

/-- The part two boxes share, if they do. -/
def intersection (r1 r2 : Rect) : Option Int :=
  let x1 := max r1.x r2.x
  let y1 := max r1.y r2.y
  let x2 := min (r1.x + r1.width) (r2.x + r2.width)
  let y2 := min (r1.y + r1.height) (r2.y + r2.height)
  if x1 < x2 ∧ y1 < y2 then some ((x2 - x1) * (y2 - y1)) else none

def overlapRatio (r1 r2 : Rect) : Int :=
  match intersection r1 r2 with
  | some area => (area * 100).tdiv (r1.width * r1.height + r2.width * r2.height - area)
  | none => 0

def overlapRatio1 (r1 r2 : Rect) : Int :=
  match intersection r1 r2 with
  | some area => (area * 100).tdiv (max 1 (min (r1.width * r1.height) (r2.width * r2.height)))
  | none => 0

/-- `round(x + v)`: the fraction is cut off and compared with a half. -/
def roundSum (x : Int) (v : ℚ) : Int :=
  let num := x * v.den + v.num
  let whole := num.tdiv v.den
  if 2 * num < (2 * whole + 1) * v.den then whole else whole + 1

/-! ## Targets -/

/-- `CTarget`. -/
structure Target where
  vehicle : Rect
  vehicleNext : Rect
  tracked : Bool
  detected : Bool
  flowCount : Bool
  numDetected : Int
  vehicleId : Int
  vx : ℚ
  vy : ℚ
  continueNum : Int
  deriving DecidableEq

/-- `Initialize_target`. -/
def initializeTarget : Target :=
  { vehicle := ⟨0, 0, 0, 0⟩
    vehicleNext := ⟨0, 0, 0, 0⟩
    tracked := false
    detected := false
    flowCount := false
    numDetected := 0
    vehicleId := 0
    vx := 0
    vy := 0
    continueNum := 0 }

/-- What the tracker finds for an entry: it stands still, it moved, or it was lost. -/
inductive Track where
  | still
  | moved (next : Rect) (vx vy : ℚ)
  | lost

/-- `LKTracker`, for one entry. -/
def lkTrack (t : Target) : Track → Target
  | .still => { t with tracked := true, detected := false, vehicleNext := t.vehicle, vx := 0, vy := 0 }
  | .moved next vx vy => { t with tracked := true, detected := false, vehicleNext := next, vx := vx, vy := vy }
  | .lost => { t with tracked := false, detected := false }

/-- `LKTracker`. -/
def lkTracker (track : Nat → Track) (ts : List Target) : List Target := ts.mapIdx fun i t => lkTrack t (track i)

/-- The tables in `ALGCFGS`. -/
structure Tables where
  targets : List Target
  candidates : List Target
  targetId : Int

/-- The tables that `CfgStructParse` leaves. -/
def Tables.initial : Tables := ⟨[], [], 1⟩

/-- The entries of either array. -/
def tableMax : Nat := 100

/-- A table was written outside its bounds. -/
inductive TableFault where
  | targets
  | candidates
  deriving DecidableEq, Repr

/-- The place where vehicles are looked for. -/
structure Region where
  detectROI : Rect
  detectPosition : Int

/-! ## Association -/

/-- An entry of a table near a detection, with both ratios. -/
structure Near where
  index : Nat
  overlapRatio1 : Int
  overlapRatio2 : Int

/-- The larger ratio of a detection with the two boxes of an entry. -/
def largerRatio (ratio : Rect → Rect → Int) (roi : Rect) (t : Target) : Int :=
  max (ratio roi t.vehicleNext) (ratio roi t.vehicle)

/-- The loop of `find_nearest_rect` over a table: the first entry with the largest ratio. -/
def nearestIn (roi : Rect) (ts : List Target) : Nat × Int :=
  ts.zipIdx.foldl (fun best t =>
    if best.2 < largerRatio overlapRatio roi t.1 then (t.2, largerRatio overlapRatio roi t.1) else best) (0, 0)

/-- `find_nearest_rect` in one table. -/
def findNearestIn (roi : Rect) (ts : List Target) : Option Near :=
  let best := nearestIn roi ts
  match ts[best.1]? with
  | some t => if 10 < best.2 then some ⟨best.1, best.2, largerRatio overlapRatio1 roi t⟩ else none
  | none => none

/-- What an entry becomes that a detection is near to. -/
def associateTarget (roi : Rect) (near : Near) (t : Target) : Target :=
  if near.overlapRatio1 < 20 then
    if 90 < near.overlapRatio2 then
      { initializeTarget with
        vehicle := roi
        vehicleNext := roi
        vehicleId := t.vehicleId
        numDetected := t.numDetected + 1
        detected := true }
    else t
  else { t with
    detected := true
    numDetected := t.numDetected + 1
    vehicleNext :=
      if t.tracked then
        { x := (t.vehicleNext.x + roi.x).tdiv 2
          y := (t.vehicleNext.y + roi.y).tdiv 2
          width := (t.vehicleNext.width + roi.width).tdiv 2
          height := (t.vehicleNext.height + roi.height).tdiv 2 }
      else roi }

/-- A detection below the region is not looked at. -/
def below (region : Region) (roi : Rect) : Bool := region.detectROI.y + region.detectROI.height < roi.y + roi.height

/-- `find_nearest_rect` returns no entry for a detection that is looked at. -/
def isNew (region : Region) (s : Tables) (roi : Rect) : Bool :=
  !below region roi && (findNearestIn roi s.targets).isNone && (findNearestIn roi s.candidates).isNone

def newTarget (roi : Rect) : Target :=
  { initializeTarget with vehicle := roi, vehicleNext := roi, detected := true, numDetected := 1 }

/-- What a detection does to the tables. -/
def associated (region : Region) (s : Tables) (roi : Rect) : Tables :=
  if below region roi then s
  else
    match findNearestIn roi s.targets with
    | some near => { s with targets := s.targets.modify near.index (associateTarget roi near) }
    | none =>
      match findNearestIn roi s.candidates with
      | some near => { s with candidates := s.candidates.modify near.index (associateTarget roi near) }
      | none => { s with candidates := s.candidates ++ [newTarget roi] }

/-- The body of the loop over the detections; a new candidate is written behind the others. -/
def associate (region : Region) (s : Tables) (roi : Rect) : Except TableFault Tables :=
  if isNew region s roi ∧ tableMax ≤ s.candidates.length then .error .candidates else .ok (associated region s roi)

/-! ## Update -/

/-- The box reaches over the region. -/
def leaves (region : Region) (vehicle : Rect) : Bool :=
  region.detectROI.x + region.detectROI.width ≤ vehicle.x + vehicle.width ||
    region.detectROI.y + region.detectROI.height ≤ vehicle.y + vehicle.height ||
    vehicle.x < region.detectROI.x || vehicle.y < region.detectROI.y

/-- The box for the next frame. -/
def predict (t : Target) : Target :=
  { t with
    vehicleNext := ⟨roundSum t.vehicle.x t.vx, roundSum t.vehicle.y t.vy, t.vehicle.width, t.vehicle.height⟩
    continueNum := t.continueNum + 1 }

/-- A target that leaves the region or is too old is removed, and the later ones move up. -/
def updateTarget (region : Region) (t : Target) : Option Target :=
  if leaves region t.vehicleNext then none
  else if 5000 < t.continueNum then none
  else some (predict { t with vehicle := t.vehicleNext })

/-- A candidate has no age. -/
def updateCandidate (region : Region) (t : Target) : Option Target :=
  if leaves region t.vehicleNext then none else some (predict { t with vehicle := t.vehicleNext })

/-- A candidate becomes a target. -/
def promotes (region : Region) (t : Target) : Bool :=
  2 ≤ t.numDetected && t.vehicle.y + t.vehicle.height < region.detectPosition + 10

def nextId (id : Int) : Int := if 1000 < id + 1 then 0 else id + 1

/-- A candidate is written behind the targets with the next id. -/
def promote (s : Tables) (t : Target) : Except TableFault Tables :=
  if tableMax ≤ s.targets.length then .error .targets
  else .ok { s with targets := s.targets ++ [{ t with vehicleId := s.targetId }], targetId := nextId s.targetId }

/-- The loop over the candidates. -/
def updateCandidates (region : Region) : List Target → Tables → Except TableFault Tables
  | [], s => .ok s
  | c :: cs, s =>
    match updateCandidate region c with
    | none => updateCandidates region cs s
    | some c =>
      if promotes region c then do
        let s ← promote s c
        updateCandidates region cs s
      else updateCandidates region cs { s with candidates := s.candidates ++ [c] }

/-- What a frame brings: the tracker's results for both tables and at most a hundred detections. -/
structure Sighting where
  trackTargets : Nat → Track
  trackCandidates : Nat → Track
  vehicleROI : List Rect
  few : vehicleROI.length ≤ 100

/-- The tables after the tracker. -/
def track (s : Tables) (f : Sighting) : Tables :=
  { s with targets := lkTracker f.trackTargets s.targets, candidates := lkTracker f.trackCandidates s.candidates }

/-- `get_target`. -/
def getTarget (region : Region) (s : Tables) (f : Sighting) : Except TableFault Tables := do
  let s ← f.vehicleROI.foldlM (associate region) (track s f)
  updateCandidates region s.candidates { s with targets := s.targets.filterMap (updateTarget region), candidates := [] }

/-! ## What a frame does -/

/-- The tables after the detections, were there room for all. -/
def matched (region : Region) (s : Tables) (f : Sighting) : Tables := f.vehicleROI.foldl (associated region) (track s f)

/-- How many detections lie near no entry. -/
def unmatched (region : Region) : Tables → List Rect → Nat
  | _, [] => 0
  | s, roi :: rois => (if isNew region s roi then 1 else 0) + unmatched region (associated region s roi) rois

/-- The candidates that become targets. -/
def promoted (region : Region) (cs : List Target) : List Target :=
  (cs.filterMap (updateCandidate region)).filter (promotes region)

/-- The candidates that stay candidates. -/
def waiting (region : Region) (cs : List Target) : List Target :=
  (cs.filterMap (updateCandidate region)).filter fun c => !promotes region c

/-- The new targets with their ids. -/
def numbered : Int → List Target → List Target
  | _, [] => []
  | id, c :: cs => { c with vehicleId := id } :: numbered (nextId id) cs

/-- The tables after a frame, were there room for all. -/
def advanced (region : Region) (s : Tables) (f : Sighting) : Tables :=
  let m := matched region s f
  { targets := m.targets.filterMap (updateTarget region) ++ numbered m.targetId (promoted region m.candidates)
    candidates := waiting region m.candidates
    targetId := nextId^[(promoted region m.candidates).length] m.targetId }

/-- The frame finds room in both tables: for its detections near no entry, and for the candidates that
become targets beside the targets that stay. -/
structure Room (region : Region) (s : Tables) (f : Sighting) : Prop where
  candidates : s.candidates.length + unmatched region (track s f) f.vehicleROI ≤ tableMax
  targets : ((matched region s f).targets.filterMap (updateTarget region)).length +
    (promoted region (matched region s f).candidates).length ≤ tableMax

/-- The tables are within their arrays. -/
structure Fits (s : Tables) : Prop where
  targets : s.targets.length ≤ tableMax
  candidates : s.candidates.length ≤ tableMax

theorem isNew_eq_true {region : Region} {s : Tables} {roi : Rect} :
    isNew region s roi = true ↔
      below region roi = false ∧ findNearestIn roi s.targets = none ∧ findNearestIn roi s.candidates = none := by
  simp [isNew, and_assoc]

/-- A detection adds a candidate exactly if it is near no entry. -/
theorem associated_candidates_length (region : Region) (s : Tables) (roi : Rect) :
    (associated region s roi).candidates.length = s.candidates.length + if isNew region s roi then 1 else 0 := by
  by_cases new : isNew region s roi = true
  · obtain ⟨above, noTarget, noCandidate⟩ := isNew_eq_true.mp new
    simp [associated, above, noTarget, noCandidate, new]
  · rw [if_neg new]
    unfold associated
    split
    next => rfl
    next above =>
      split
      next => rfl
      next noTarget =>
        split
        next => simp
        next noCandidate => exact absurd (isNew_eq_true.mpr ⟨by simpa using above, noTarget, noCandidate⟩) new

theorem associateTarget_vehicleId (roi : Rect) (near : Near) (t : Target) :
    (associateTarget roi near t).vehicleId = t.vehicleId := by
  unfold associateTarget
  split
  next =>
    split
    next => rfl
    next => rfl
  next => rfl

theorem modify_vehicleId (roi : Rect) (near : Near) (ts : List Target) :
    (ts.modify near.index (associateTarget roi near)).map Target.vehicleId = ts.map Target.vehicleId := by
  apply List.ext_getElem?
  intro i
  rw [List.getElem?_map, List.getElem?_map, List.getElem?_modify]
  cases ts[i]? with
  | none => rfl
  | some t =>
    by_cases here : near.index = i
    · simp [here, associateTarget_vehicleId]
    · simp [here]

/-- A detection adds no target and changes no id. -/
theorem associated_targets (region : Region) (s : Tables) (roi : Rect) :
    (associated region s roi).targets.map Target.vehicleId = s.targets.map Target.vehicleId ∧
      (associated region s roi).targetId = s.targetId := by
  unfold associated
  split
  next => exact ⟨rfl, rfl⟩
  next =>
    split
    next near _ => exact ⟨modify_vehicleId roi near s.targets, rfl⟩
    next =>
      split
      next => exact ⟨rfl, rfl⟩
      next => exact ⟨rfl, rfl⟩

/-- **The detections of a frame** are all entered exactly if there is room for the new ones. -/
theorem associate_all (region : Region) {rois : List Rect} {s : Tables} (fits : s.candidates.length ≤ tableMax) :
    rois.foldlM (associate region) s =
      if s.candidates.length + unmatched region s rois ≤ tableMax then .ok (rois.foldl (associated region) s)
      else .error .candidates := by
  induction rois generalizing s with
  | nil => rw [unmatched, if_pos (by omega)]; rfl
  | cons roi rois ih =>
    have length := associated_candidates_length region s roi
    rw [List.foldlM_cons, unmatched]
    unfold associate
    by_cases full : isNew region s roi = true ∧ tableMax ≤ s.candidates.length
    · rw [if_pos full, if_neg (by rw [if_pos full.1]; omega)]
      rfl
    · rw [if_neg full]
      have room : (associated region s roi).candidates.length ≤ tableMax := by
        rw [length]
        split
        next new =>
          have below : ¬ tableMax ≤ s.candidates.length := fun large => full ⟨new, large⟩
          omega
        next => exact fits
      show rois.foldlM (associate region) (associated region s roi) = _
      rw [ih room, length, Nat.add_assoc]
      rfl

theorem track_targets (s : Tables) (f : Sighting) :
    (track s f).targets.map Target.vehicleId = s.targets.map Target.vehicleId := by
  apply List.ext_getElem?
  intro i
  simp only [track, lkTracker, List.getElem?_map, List.getElem?_mapIdx]
  cases s.targets[i]? with
  | none => rfl
  | some t =>
    show some (lkTrack t (f.trackTargets i)).vehicleId = some t.vehicleId
    cases f.trackTargets i with
    | still => rfl
    | moved next vx vy => rfl
    | lost => rfl

theorem track_candidates_length (s : Tables) (f : Sighting) : (track s f).candidates.length = s.candidates.length := by
  simp [track, lkTracker]

/-- **Tracking and detections keep the ids**, also of an entry that is replaced. -/
theorem matched_targets (region : Region) (s : Tables) (f : Sighting) :
    (matched region s f).targets.map Target.vehicleId = s.targets.map Target.vehicleId ∧
      (matched region s f).targetId = s.targetId := by
  have keep : ∀ (rois : List Rect) (u : Tables),
      (rois.foldl (associated region) u).targets.map Target.vehicleId = u.targets.map Target.vehicleId ∧
        (rois.foldl (associated region) u).targetId = u.targetId := by
    intro rois
    induction rois with
    | nil => exact fun u => ⟨rfl, rfl⟩
    | cons roi rois ih =>
      intro u
      obtain ⟨ids, next⟩ := ih (associated region u roi)
      obtain ⟨ids', next'⟩ := associated_targets region u roi
      exact ⟨ids.trans ids', next.trans next'⟩
  obtain ⟨ids, next⟩ := keep f.vehicleROI (track s f)
  exact ⟨ids.trans (track_targets s f), next⟩

theorem matched_targets_length (region : Region) (s : Tables) (f : Sighting) :
    (matched region s f).targets.length = s.targets.length := by
  have ids := congrArg List.length (matched_targets region s f).1
  simpa using ids

/-- **The loop over the candidates** succeeds exactly if there is room for the ones that become
targets. -/
theorem updateCandidates_eq (region : Region) {cs : List Target} {s : Tables} (fits : s.targets.length ≤ tableMax) :
    updateCandidates region cs s =
      if s.targets.length + (promoted region cs).length ≤ tableMax then
        .ok
          { targets := s.targets ++ numbered s.targetId (promoted region cs)
            candidates := s.candidates ++ waiting region cs
            targetId := nextId^[(promoted region cs).length] s.targetId }
      else .error .targets := by
  induction cs generalizing s with
  | nil =>
    have room : s.targets.length + (promoted region []).length ≤ tableMax := fits
    rw [if_pos room]
    simp [updateCandidates, promoted, waiting, numbered]
  | cons c cs ih =>
    rw [updateCandidates]
    cases here : updateCandidate region c with
    | none =>
      have first : promoted region (c :: cs) = promoted region cs := by simp [promoted, here]
      have rest : waiting region (c :: cs) = waiting region cs := by simp [waiting, here]
      rw [first, rest]
      exact ih fits
    | some c' =>
      by_cases more : promotes region c' = true
      · have first : promoted region (c :: cs) = c' :: promoted region cs := by simp [promoted, here, more]
        have rest : waiting region (c :: cs) = waiting region cs := by simp [waiting, here, more]
        simp only [more, if_true, first, rest, List.length_cons]
        unfold promote
        by_cases full : tableMax ≤ s.targets.length
        · rw [if_pos full, if_neg (by omega)]
          rfl
        · rw [if_neg full]
          have fits' : (s.targets ++ [{ c' with vehicleId := s.targetId }]).length ≤ tableMax := by
            rw [List.length_append]
            exact Nat.lt_of_not_le full
          refine (ih (s := { s with
            targets := s.targets ++ [{ c' with vehicleId := s.targetId }], targetId := nextId s.targetId }) fits').trans ?_
          simp [numbered, Nat.add_assoc, Nat.add_comm 1]
      · have first : promoted region (c :: cs) = promoted region cs := by simp [promoted, here, more]
        have rest : waiting region (c :: cs) = c' :: waiting region cs := by simp [waiting, here, more]
        simp only [more, first, rest]
        rw [if_neg (by simp)]
        refine (ih (s := { s with candidates := s.candidates ++ [c'] }) fits).trans ?_
        simp

/-- **What `get_target` does** to tables within their arrays. -/
theorem getTarget_eq (region : Region) {s : Tables} (fits : Fits s) (f : Sighting) :
    getTarget region s f =
      if s.candidates.length + unmatched region (track s f) f.vehicleROI ≤ tableMax then
        if ((matched region s f).targets.filterMap (updateTarget region)).length +
            (promoted region (matched region s f).candidates).length ≤ tableMax then
          .ok (advanced region s f)
        else .error .targets
      else .error .candidates := by
  have few : (track s f).candidates.length ≤ tableMax := by
    rw [track_candidates_length]
    exact fits.candidates
  have kept : ((matched region s f).targets.filterMap (updateTarget region)).length ≤ tableMax :=
    calc _ ≤ (matched region s f).targets.length := List.length_filterMap_le _ _
      _ = s.targets.length := matched_targets_length region s f
      _ ≤ tableMax := fits.targets
  unfold getTarget
  rw [associate_all region few, track_candidates_length]
  split
  next =>
    show updateCandidates region (matched region s f).candidates _ = _
    rw [updateCandidates_eq region kept]
    rfl
  next => rfl

end VideoDetector.Alg
