import Mathlib.Algebra.Order.Ring.Int
import VideoDetector.Lib.Runs
import VideoDetector.Pvd.DetectArea
import VideoDetector.Pvd.HungarianRuns

/-!
# The tracker (`Pvd/track/Ctracker.cpp`, `Pvd/track/Ctracker.h`)

`CTracker::Update` pairs the tracks with the detections of a frame, gives tracks up that had none for too long, and
begins a track for each detection that is left. The Kalman filter and the square root are parameters. `trackFrames_tracked`
says what every run keeps, `tracks_serve_frame` how the detections of its last frame are found again in the tracks,
`lost_after` when a track is given up, and `drained` that without detections all of them are.
-/

namespace VideoDetector.Pvd
set_option autoImplicit false
open Lib

structure Point (K : Type) where
  x : K
  y : K

/-- `TKalmanFilter`, made with the tracker's `dt` and `Accel_noise_mag`. -/
structure KalmanFilter (K F : Type) where
  start : Point K → F
  getPrediction : F → F × Point K
  update : F → Point K → Bool → F × Point K

structure CTrack (K F : Type) where
  trace : List (Point K)
  trackId : Nat
  skippedFrames : Nat
  prediction : Point K
  lastRect : Rect
  kf : F

structure CTracker (K F : Type) where
  tracks : List (CTrack K F)
  nextTrackId : Nat
  lostObjNum : Nat

inductive DistType where
  | centersDist
  | rectsDist
  deriving DecidableEq

inductive TrackerFault where
  | noAnswer

/-- What a tracker is made with, and what it computes with. -/
structure TrackerSettings (K F : Type) [CommRing K] [LinearOrder K] where
  kalman : KalmanFilter K F
  sqrtf : K → K
  sqrtf_nonneg : ∀ x, 0 ≤ x → 0 ≤ sqrtf x
  maxValue : K
  maxValue_pos : 0 < maxValue
  distThres : K
  maximumAllowedSkippedFrames : Nat
  maxTraceLength : Nat

section
variable {K F : Type} [CommRing K] [LinearOrder K] (S : TrackerSettings K F)

/-- The constructor of `CTrack`. -/
def CTrack.create (d : Point K × Rect) (trackId : Nat) : CTrack K F :=
  ⟨[], trackId, 0, d.1, d.2, S.kalman.start d.1⟩

/-- The two overloads of `CalcDist`. -/
def CTrack.calcDist (track : CTrack K F) (distType : DistType) (d : Point K × Rect) : K :=
  match distType with
  | .centersDist =>
    let x := track.prediction.x - d.1.x
    let y := track.prediction.y - d.1.y
    S.sqrtf (x * x + y * y)
  | .rectsDist =>
    let diff : List K :=
      [track.prediction.x - (track.lastRect.width.tdiv 2 : Int) - d.2.x,
        track.prediction.y - (track.lastRect.height.tdiv 2 : Int) - d.2.y,
        (track.lastRect.width - d.2.width : Int), (track.lastRect.height - d.2.height : Int)]
    S.sqrtf (diff.foldl (fun dist x => dist + x * x) 0)

/-- `CTrack::Update`. -/
def CTrack.update (track : CTrack K F) (p : Point K) (rect : Rect) (dataCorrect : Bool) : CTrack K F :=
  let kf := (S.kalman.getPrediction track.kf).1
  let (kf, prediction) := S.kalman.update kf p dataCorrect
  let trace :=
    if track.trace.length > S.maxTraceLength then track.trace.drop (track.trace.length - S.maxTraceLength) else track.trace
  { track with
    kf := kf
    prediction := prediction
    lastRect := if dataCorrect then rect else track.lastRect
    trace := trace ++ [prediction] }

/-- `tracks.push_back(new CTrack(.., NextTrackID++))`. -/
def CTracker.begin (T : CTracker K F) (d : Point K × Rect) : CTracker K F :=
  { T with tracks := T.tracks ++ [CTrack.create S d T.nextTrackId], nextTrackId := T.nextTrackId + 1 }

/-- The loop that clears pairs that are too far apart, for one track. -/
def cleanPair {m : Nat} (cost : Fin m → K) (track : CTrack K F) (assignment : Option (Fin m)) : CTrack K F × Option (Fin m) :=
  match assignment with
  | some j => if cost j > S.distThres then ({ track with skippedFrames := 1 }, none) else (track, some j)
  | none => ({ track with skippedFrames := track.skippedFrames + 1 }, none)

/-- The loop that erases tracks, with what it makes of `LostObjNum`. -/
def removeLost {α : Type} : List (CTrack K F × α) → Nat → List (CTrack K F × α) × Nat
  | [], lost => ([], lost)
  | p :: ps, lost =>
    if p.1.skippedFrames > S.maximumAllowedSkippedFrames then
      removeLost ps (lost + 1)
    else
      let (kept, lost) := removeLost ps lost
      (p :: kept, lost)

/-- The update of the filter of a track. -/
def followUp (detections : List (Point K × Rect)) (track : CTrack K F) (assignment : Option (Fin detections.length)) : CTrack K F :=
  match assignment with
  | some j => { track with skippedFrames := 0 }.update S (detections.get j).1 (detections.get j).2 true
  | none => track.update S ⟨0, 0⟩ ⟨0, 0, 0, 0⟩ false

/-- The loop over `assignment` that updates the filters. The tracks behind are new. -/
def updateFilters (detections : List (Point K × Rect)) : List (CTrack K F) → List (Option (Fin detections.length)) → List (CTrack K F)
  | track :: tracks, a :: assignment => followUp S detections track a :: updateFilters detections tracks assignment
  | tracks, _ => tracks

/-- `CTracker::Update` from the place where there are tracks. -/
def CTracker.pairUp (T : CTracker K F) (distType : DistType) (detections : List (Point K × Rect)) : Except TrackerFault (CTracker K F) :=
  let cost : Fin T.tracks.length → Fin detections.length → K := fun i j => (T.tracks.get i).calcDist S distType (detections.get j)
  match solve S.maxValue cost with
  | none => .error .noAnswer
  | some (assignment, _) =>
    let pairs := (List.finRange T.tracks.length).map fun i => cleanPair S (cost i) (T.tracks.get i) (assignment i)
    let (kept, lost) := removeLost S pairs T.lostObjNum
    let unassigned := (List.finRange detections.length).filter fun j => decide (some j ∉ kept.map Prod.snd)
    let T := (unassigned.map detections.get).foldl (CTracker.begin S) ⟨kept.map Prod.fst, T.nextTrackId, lost⟩
    .ok { T with tracks := updateFilters S detections T.tracks (kept.map Prod.snd) }

/-- `CTracker::Update`, with the rectangle of each detection beside it. -/
def CTracker.update (T : CTracker K F) (distType : DistType) (detections : List (Point K × Rect)) :
    Except TrackerFault (CTracker K F) :=
  let T := if T.tracks.isEmpty then detections.foldl (CTracker.begin S) T else T
  if T.tracks.isEmpty then .ok (detections.foldl (CTracker.begin S) T) else T.pairUp S distType detections

/-- A tracker as it is constructed. -/
def CTracker.fresh : CTracker K F := ⟨[], 0, 0⟩

/-- The calls of `Update` for the frames of a run. -/
def trackFrames (T : CTracker K F) (frames : List (DistType × List (Point K × Rect))) : Except TrackerFault (CTracker K F) :=
  frames.foldlM (fun T frame => T.update S frame.1 frame.2) T

/-! ## One call -/

/-- The tracks that begin with a number and detections. -/
def begun : Nat → List (Point K × Rect) → List (CTrack K F)
  | _, [] => []
  | trackId, d :: ds => CTrack.create S d trackId :: begun (trackId + 1) ds

theorem foldl_begin (T : CTracker K F) (ds : List (Point K × Rect)) :
    ds.foldl (CTracker.begin S) T = ⟨T.tracks ++ begun S T.nextTrackId ds, T.nextTrackId + ds.length, T.lostObjNum⟩ := by
  induction ds generalizing T with
  | nil => simp [begun]
  | cons d ds ih =>
    rw [List.foldl_cons, ih]
    simp [CTracker.begin, begun, Nat.add_assoc, Nat.add_comm 1]

theorem begun_ids (trackId : Nat) (ds : List (Point K × Rect)) :
    (begun S trackId ds).map CTrack.trackId = List.range' trackId ds.length := by
  induction ds generalizing trackId with
  | nil => rfl
  | cons d ds ih => simp [begun, CTrack.create, ih, List.range'_succ]

theorem begun_rects (trackId : Nat) (ds : List (Point K × Rect)) : (begun S trackId ds).map CTrack.lastRect = ds.map Prod.snd := by
  induction ds generalizing trackId with
  | nil => rfl
  | cons d ds ih => simp [begun, CTrack.create, ih]

theorem mem_begun {trackId : Nat} {ds : List (Point K × Rect)} {track : CTrack K F} (member : track ∈ begun S trackId ds) :
    track.skippedFrames = 0 ∧ track.trace = [] := by
  induction ds generalizing trackId with
  | nil => cases member
  | cons d ds ih =>
    rcases List.mem_cons.mp member with rfl | later
    · exact ⟨rfl, rfl⟩
    · exact ih later

theorem removeLost_eq {α : Type} (ps : List (CTrack K F × α)) (lost : Nat) :
    removeLost S ps lost = (ps.filter fun p => p.1.skippedFrames ≤ S.maximumAllowedSkippedFrames,
      lost + (ps.length - (ps.filter fun p => p.1.skippedFrames ≤ S.maximumAllowedSkippedFrames).length)) := by
  induction ps generalizing lost with
  | nil => rfl
  | cons p ps ih =>
    rw [removeLost]
    have few := List.length_filter_le (fun p : CTrack K F × α => decide (p.1.skippedFrames ≤ S.maximumAllowedSkippedFrames)) ps
    split
    · next many =>
      rw [ih, List.filter_cons_of_neg (by simpa using many), List.length_cons]
      congr 1
      omega
    · next some =>
      rw [ih, List.filter_cons_of_pos (by simpa using some), List.length_cons, List.length_cons, Nat.add_sub_add_right]

theorem updateFilters_eq (detections : List (Point K × Rect)) (kept : List (CTrack K F × Option (Fin detections.length)))
    (new : List (CTrack K F)) :
    updateFilters S detections (kept.map Prod.fst ++ new) (kept.map Prod.snd) =
      (kept.map fun p => followUp S detections p.1 p.2) ++ new := by
  induction kept with
  | nil =>
    cases new with
    | nil => rfl
    | cons track new => rfl
  | cons p kept ih => simp only [List.map_cons, List.cons_append, updateFilters, ih]

section
variable {m : Nat} {cost : Fin m → K} {track : CTrack K F} {a : Option (Fin m)}

theorem cleanPair_cases (cost : Fin m → K) (track : CTrack K F) (a : Option (Fin m)) :
    (∃ j, a = some j ∧ cleanPair S cost track a = (track, some j)) ∨
      ∃ skipped, cleanPair S cost track a = ({ track with skippedFrames := skipped }, none) ∧
        (skipped = 1 ∨ skipped = track.skippedFrames + 1) := by
  unfold cleanPair
  split
  · next j =>
    split
    · exact .inr ⟨1, rfl, .inl rfl⟩
    · exact .inl ⟨j, rfl, rfl⟩
  · exact .inr ⟨track.skippedFrames + 1, rfl, .inr rfl⟩

theorem cleanPair_trackId : (cleanPair S cost track a).1.trackId = track.trackId := by
  rcases cleanPair_cases S cost track a with ⟨j, _, same⟩ | ⟨skipped, same, _⟩ <;> rw [same]

theorem cleanPair_trace : (cleanPair S cost track a).1.trace = track.trace := by
  rcases cleanPair_cases S cost track a with ⟨j, _, same⟩ | ⟨skipped, same, _⟩ <;> rw [same]

theorem cleanPair_some {j : Fin m} (given : (cleanPair S cost track a).2 = some j) : a = some j := by
  rcases cleanPair_cases S cost track a with ⟨j', was, same⟩ | ⟨skipped, same, _⟩
  · rw [same] at given
    rw [was]
    exact given
  · rw [same] at given
    cases given

end

/-- The tracks with what is left of their pairs. -/
def CTracker.pairs (T : CTracker K F) (distType : DistType) (detections : List (Point K × Rect))
    (assignment : Fin T.tracks.length → Option (Fin detections.length)) : List (CTrack K F × Option (Fin detections.length)) :=
  (List.finRange T.tracks.length).map fun i =>
    cleanPair S (fun j => (T.tracks.get i).calcDist S distType (detections.get j)) (T.tracks.get i) (assignment i)

def CTracker.kept (T : CTracker K F) (distType : DistType) (detections : List (Point K × Rect))
    (assignment : Fin T.tracks.length → Option (Fin detections.length)) : List (CTrack K F × Option (Fin detections.length)) :=
  (T.pairs S distType detections assignment).filter fun p => p.1.skippedFrames ≤ S.maximumAllowedSkippedFrames

/-- The detections that no kept track has. -/
def leftOver {m : Nat} (kept : List (CTrack K F × Option (Fin m))) : List (Fin m) :=
  (List.finRange m).filter fun j => decide (some j ∉ kept.map Prod.snd)

/-- What `Update` makes of an assignment. -/
def CTracker.matched (T : CTracker K F) (distType : DistType) (detections : List (Point K × Rect))
    (assignment : Fin T.tracks.length → Option (Fin detections.length)) : CTracker K F :=
  let kept := T.kept S distType detections assignment
  let new := (leftOver kept).map detections.get
  ⟨(kept.map fun p => followUp S detections p.1 p.2) ++ begun S T.nextTrackId new, T.nextTrackId + new.length,
    T.lostObjNum + (T.tracks.length - kept.length)⟩

variable {S} in
theorem CTrack.calcDist_nonneg [IsStrictOrderedRing K] (track : CTrack K F) (distType : DistType) (d : Point K × Rect) :
    0 ≤ track.calcDist S distType d := by
  unfold CTrack.calcDist
  split
  · exact S.sqrtf_nonneg _ (add_nonneg (mul_self_nonneg _) (mul_self_nonneg _))
  · refine S.sqrtf_nonneg _ ?_
    simp only [List.foldl_cons, List.foldl_nil, zero_add]
    exact add_nonneg (add_nonneg (add_nonneg (mul_self_nonneg _) (mul_self_nonneg _)) (mul_self_nonneg _)) (mul_self_nonneg _)

theorem CTracker.pairUp_ok [IsStrictOrderedRing K] {T T' : CTracker K F} {distType : DistType} {detections : List (Point K × Rect)}
    (done : T.pairUp S distType detections = .ok T') :
    ∃ assignment, IsAssignment assignment ∧ size assignment = min T.tracks.length detections.length ∧
      T' = T.matched S distType detections assignment := by
  unfold CTracker.pairUp at done
  simp only at done
  split at done
  · cases done
  · next assignment cost answer =>
    obtain ⟨A, u, v, rise, priced, full, rfl, _⟩ :=
      solve_some (le_of_lt S.maxValue_pos) (fun i j => CTrack.calcDist_nonneg _ distType _) answer
    refine ⟨firstInRow A.starMatrix, firstInRow_isAssignment priced.stars, full, ?_⟩
    rw [removeLost_eq, foldl_begin, updateFilters_eq, List.length_map, List.length_finRange] at done
    cases done
    rfl

/-! ## What a call keeps -/

def CTracker.ids (T : CTracker K F) : List Nat := T.tracks.map CTrack.trackId

/-- Between two calls: the tracks have their numbers in order, every number is that of a track or was lost, and no track was
skipped or traced for too long. -/
structure Tracked (T : CTracker K F) : Prop where
  ids : T.ids.Pairwise (· < ·)
  below : ∀ i ∈ T.ids, i < T.nextTrackId
  count : T.nextTrackId = T.lostObjNum + T.tracks.length
  skipped : ∀ track ∈ T.tracks, track.skippedFrames ≤ S.maximumAllowedSkippedFrames
  traced : ∀ track ∈ T.tracks, track.trace.length ≤ S.maxTraceLength + 1

/-- The tracks that are not skipped have the rectangles of a frame, one each. -/
def Served (detections : List (Point K × Rect)) (T : CTracker K F) : Prop :=
  ((T.tracks.filter fun track => track.skippedFrames = 0).map CTrack.lastRect).Perm (detections.map Prod.snd)

theorem fresh_tracked : Tracked S (CTracker.fresh : CTracker K F) where
  ids := List.Pairwise.nil
  below _ none := absurd none List.not_mem_nil
  count := rfl
  skipped _ none := absurd none List.not_mem_nil
  traced _ none := absurd none List.not_mem_nil

section
variable {S} {T : CTracker K F} {distType : DistType} {detections : List (Point K × Rect)}
  {assignment : Fin T.tracks.length → Option (Fin detections.length)}

theorem Tracked.begin (tracked : Tracked S T) (ds : List (Point K × Rect)) : Tracked S (ds.foldl (CTracker.begin S) T) := by
  rw [foldl_begin]
  constructor
  case ids =>
    rw [CTracker.ids, List.map_append, begun_ids, List.pairwise_append]
    refine ⟨tracked.ids, List.pairwise_lt_range', fun i old j new => ?_⟩
    exact Nat.lt_of_lt_of_le (tracked.below i old) (List.mem_range'_1.mp new).1
  case below =>
    intro i member
    rw [CTracker.ids, List.map_append, begun_ids, List.mem_append] at member
    rcases member with old | new
    · exact Nat.lt_add_right _ (tracked.below i old)
    · exact (List.mem_range'_1.mp new).2
  case count =>
    have same := congrArg List.length (begun_ids S T.nextTrackId ds)
    have count := tracked.count
    simp only [List.length_map, List.length_range'] at same
    simp only [List.length_append, same]
    omega
  case skipped =>
    intro track member
    rcases List.mem_append.mp member with old | new
    · exact tracked.skipped track old
    · rw [(mem_begun S new).1]
      exact Nat.zero_le _
  case traced =>
    intro track member
    rcases List.mem_append.mp member with old | new
    · exact tracked.traced track old
    · rw [(mem_begun S new).2]
      exact Nat.zero_le _

theorem followUp_trackId (track : CTrack K F) (a : Option (Fin detections.length)) :
    (followUp S detections track a).trackId = track.trackId := by
  cases a <;> rfl

theorem followUp_skipped (track : CTrack K F) (a : Option (Fin detections.length)) :
    (followUp S detections track a).skippedFrames = if a.isSome then 0 else track.skippedFrames := by
  cases a <;> rfl

theorem followUp_rect (track : CTrack K F) (j : Fin detections.length) :
    (followUp S detections track (some j)).lastRect = (detections.get j).2 := rfl

theorem update_trace (track : CTrack K F) (p : Point K) (rect : Rect) (dataCorrect : Bool) :
    (track.update S p rect dataCorrect).trace.length ≤ S.maxTraceLength + 1 := by
  simp only [CTrack.update]
  split
  · rw [List.length_append, List.length_drop, List.length_singleton]
    omega
  · rw [List.length_append, List.length_singleton]
    omega

theorem followUp_trace (track : CTrack K F) (a : Option (Fin detections.length)) :
    (followUp S detections track a).trace.length ≤ S.maxTraceLength + 1 := by
  cases a with
  | none => exact update_trace track _ _ _
  | some j => exact update_trace { track with skippedFrames := 0 } _ _ _

theorem pairs_length : (T.pairs S distType detections assignment).length = T.tracks.length := by
  rw [CTracker.pairs, List.length_map, List.length_finRange]

theorem pairs_ids : (T.pairs S distType detections assignment).map (fun p => p.1.trackId) = T.ids := by
  rw [CTracker.pairs, List.map_map, CTracker.ids]
  conv_rhs => rw [← List.map_get_finRange T.tracks, List.map_map]
  exact List.map_congr_left fun i _ => cleanPair_trackId S

theorem kept_length : (T.kept S distType detections assignment).length ≤ T.tracks.length := by
  refine Nat.le_trans (List.length_filter_le _ _) ?_
  rw [pairs_length]

theorem kept_ids : ((T.kept S distType detections assignment).map fun p => p.1.trackId).Sublist T.ids := by
  rw [← @pairs_ids K F _ _ S T distType detections assignment]
  exact List.filter_sublist.map _

theorem matched_ids : (T.matched S distType detections assignment).ids =
    ((T.kept S distType detections assignment).map fun p => p.1.trackId) ++
      List.range' T.nextTrackId (leftOver (T.kept S distType detections assignment)).length := by
  rw [CTracker.ids, CTracker.matched, List.map_append, begun_ids, List.map_map, List.length_map]
  exact congrArg (· ++ _) (List.map_congr_left fun p _ => followUp_trackId p.1 p.2)

theorem Tracked.matched (tracked : Tracked S T) : Tracked S (T.matched S distType detections assignment) := by
  constructor
  case ids =>
    rw [matched_ids, List.pairwise_append]
    refine ⟨tracked.ids.sublist kept_ids, List.pairwise_lt_range', fun i old j new => ?_⟩
    exact Nat.lt_of_lt_of_le (tracked.below i (kept_ids.subset old)) (List.mem_range'_1.mp new).1
  case below =>
    intro i member
    rw [matched_ids, List.mem_append] at member
    simp only [CTracker.matched, List.length_map]
    rcases member with old | new
    · exact Nat.lt_add_right _ (tracked.below i (kept_ids.subset old))
    · exact (List.mem_range'_1.mp new).2
  case count =>
    have count := tracked.count
    have few := @kept_length K F _ _ S T distType detections assignment
    have new := congrArg List.length
      (begun_ids S T.nextTrackId ((leftOver (T.kept S distType detections assignment)).map detections.get))
    simp only [List.length_map, List.length_range'] at new
    simp only [CTracker.matched, List.length_append, List.length_map, new]
    omega
  case skipped =>
    intro track member
    rcases List.mem_append.mp member with old | new
    · obtain ⟨p, here, rfl⟩ := List.mem_map.mp old
      rw [followUp_skipped]
      split
      · exact Nat.zero_le _
      · simpa using (List.mem_filter.mp here).2
    · rw [(mem_begun S new).1]
      exact Nat.zero_le _
  case traced =>
    intro track member
    rcases List.mem_append.mp member with old | new
    · obtain ⟨p, _, rfl⟩ := List.mem_map.mp old
      exact followUp_trace p.1 p.2
    · rw [(mem_begun S new).2]
      exact Nat.zero_le _

/-- A kept track without a pair is skipped. -/
theorem mem_kept {p : CTrack K F × Option (Fin detections.length)} (member : p ∈ T.kept S distType detections assignment) :
    ∃ i, p = cleanPair S (fun j => (T.tracks.get i).calcDist S distType (detections.get j)) (T.tracks.get i) (assignment i) ∧
      p.1.skippedFrames ≤ S.maximumAllowedSkippedFrames := by
  obtain ⟨paired, few⟩ := List.mem_filter.mp member
  obtain ⟨i, _, rfl⟩ := List.mem_map.mp paired
  exact ⟨i, rfl, by simpa using few⟩

theorem kept_none {p : CTrack K F × Option (Fin detections.length)} (member : p ∈ T.kept S distType detections assignment)
    (none : p.2 = none) : p.1.skippedFrames ≠ 0 := by
  obtain ⟨i, rfl, _⟩ := mem_kept member
  rcases cleanPair_cases S (fun j => (T.tracks.get i).calcDist S distType (detections.get j)) (T.tracks.get i) (assignment i) with
    ⟨j, _, same⟩ | ⟨skipped, same, cases⟩
  · rw [same] at none
    cases none
  · rw [same]
    show skipped ≠ 0
    omega

/-- No detection is with two tracks. -/
theorem kept_given_nodup (own : IsAssignment assignment) : ((T.kept S distType detections assignment).filterMap Prod.snd).Nodup := by
  refine List.Nodup.sublist (List.filter_sublist.filterMap _) ?_
  rw [CTracker.pairs, List.filterMap_map]
  refine (List.nodup_finRange _).filterMap fun i i' j given given' => ?_
  exact own i i' j (cleanPair_some S given) (cleanPair_some S given')

omit [CommRing K] [LinearOrder K] in
/-- Each detection is with a kept track or left over. -/
theorem given_leftOver_perm {m : Nat} {kept : List (CTrack K F × Option (Fin m))} (once : (kept.filterMap Prod.snd).Nodup) :
    (kept.filterMap Prod.snd ++ leftOver kept).Perm (List.finRange m) := by
  have left {j : Fin m} : j ∈ leftOver kept ↔ j ∉ kept.filterMap Prod.snd := by
    simp [leftOver]
  refine (List.perm_ext_iff_of_nodup ?_ (List.nodup_finRange m)).mpr fun j => ?_
  · refine List.nodup_append.mpr ⟨once, (List.nodup_finRange m).filter _, fun j given j' out same => ?_⟩
    subst same
    exact left.mp out given
  · rw [List.mem_append, left]
    exact iff_of_true (Classical.em _) (List.mem_finRange j)

theorem kept_rects {kept : List (CTrack K F × Option (Fin detections.length))} (skips : ∀ p ∈ kept, p.2 = none → p.1.skippedFrames ≠ 0) :
    ((kept.map fun p => followUp S detections p.1 p.2).filter fun track => track.skippedFrames = 0).map CTrack.lastRect =
      (kept.filterMap Prod.snd).map fun j => (detections.get j).2 := by
  induction kept with
  | nil => rfl
  | cons p kept ih =>
    obtain ⟨first, later⟩ := List.forall_mem_cons.mp skips
    obtain ⟨track, a⟩ := p
    rw [List.map_cons]
    cases a with
    | none =>
      rw [List.filter_cons_of_neg (by simpa [followUp_skipped] using first rfl), ih later]
      rfl
    | some j =>
      rw [List.filter_cons_of_pos (by simp [followUp_skipped]), List.map_cons, ih later, followUp_rect]
      rfl

theorem matched_served (own : IsAssignment assignment) : Served detections (T.matched S distType detections assignment) := by
  have new : ∀ track ∈ begun S T.nextTrackId ((leftOver (T.kept S distType detections assignment)).map detections.get),
      decide (track.skippedFrames = 0) = true := fun track member => by simp [(mem_begun S member).1]
  rw [Served, CTracker.matched, List.filter_append, List.map_append, kept_rects fun p => kept_none, List.filter_eq_self.mpr new,
    begun_rects, List.map_map]
  have parts := (given_leftOver_perm (@kept_given_nodup K F _ _ S T distType detections assignment own)).map fun j => (detections.get j).2
  have all : (List.finRange detections.length).map (fun j => (detections.get j).2) = detections.map Prod.snd := by
    conv_rhs => rw [← List.map_get_finRange detections, List.map_map]
    rfl
  rw [List.map_append, all] at parts
  exact parts

end

/-! ## Runs -/

variable {S} [IsStrictOrderedRing K]

/-- What a call does: it begins tracks if there are none, and then goes by an assignment. -/
theorem CTracker.update_ok {T T' : CTracker K F} {distType : DistType} {detections : List (Point K × Rect)}
    (done : T.update S distType detections = .ok T') :
    (T.tracks = [] ∧ detections = [] ∧ T' = T) ∨
      ∃ (T₀ : CTracker K F) (assignment : Fin T₀.tracks.length → Option (Fin detections.length)),
        (T₀ = T ∨ T.tracks = [] ∧ T₀ = detections.foldl (CTracker.begin S) T) ∧ IsAssignment assignment ∧
          size assignment = min T₀.tracks.length detections.length ∧ T' = T₀.matched S distType detections assignment := by
  unfold CTracker.update at done
  simp only [List.isEmpty_iff] at done
  split at done
  · next none =>
    split at done
    · next empty =>
      rw [foldl_begin, none, List.nil_append] at empty
      have nothing : detections = [] := by
        cases detections with
        | nil => rfl
        | cons d ds => cases empty
      subst nothing
      cases done
      exact .inl ⟨none, rfl, rfl⟩
    · obtain ⟨assignment, own, full, same⟩ := CTracker.pairUp_ok S done
      exact .inr ⟨_, assignment, .inr ⟨none, rfl⟩, own, full, same⟩
  · obtain ⟨assignment, own, full, same⟩ := CTracker.pairUp_ok S done
    exact .inr ⟨_, assignment, .inl rfl, own, full, same⟩

theorem Tracked.update {T T' : CTracker K F} {distType : DistType} {detections : List (Point K × Rect)} (tracked : Tracked S T)
    (done : T.update S distType detections = .ok T') : Tracked S T' ∧ Served detections T' := by
  rcases CTracker.update_ok done with ⟨none, rfl, rfl⟩ | ⟨T₀, assignment, origin, own, _, rfl⟩
  · refine ⟨tracked, ?_⟩
    rw [Served, none]
    exact List.Perm.nil
  · have tracked₀ : Tracked S T₀ := by
      rcases origin with rfl | ⟨_, rfl⟩
      · exact tracked
      · exact tracked.begin detections
    exact ⟨tracked₀.matched, matched_served own⟩

theorem trackFrames_tracked {frames : List (DistType × List (Point K × Rect))} {T : CTracker K F}
    (run : trackFrames S .fresh frames = .ok T) : Tracked S T :=
  foldlM_invariant (fun _ => Tracked S) (fun _ _ _ _ tracked done => (tracked.update done).1) (fresh_tracked S) run

/-- **The tracker**: after the frames of any run the tracks are numbered in order and accounted for, none was skipped for too
long, and those that were not skipped have the rectangles of the last frame, one each. -/
theorem tracks_serve_frame {before : List (DistType × List (Point K × Rect))} {distType : DistType} {detections : List (Point K × Rect)}
    {T : CTracker K F} (run : trackFrames S .fresh (before ++ [(distType, detections)]) = .ok T) :
    Tracked S T ∧ Served detections T := by
  obtain ⟨T₀, first, last⟩ := foldlM_append_ok run
  rw [List.foldlM_cons] at last
  obtain ⟨T₁, done, same⟩ := bind_ok last
  cases same
  exact (trackFrames_tracked first).update done

/-! ## How long a track is kept -/

/-- A track that was skipped more than once was there before, skipped once less. -/
theorem update_skipped {T T' : CTracker K F} {distType : DistType} {detections : List (Point K × Rect)}
    (done : T.update S distType detections = .ok T') {track' : CTrack K F} (member : track' ∈ T'.tracks) (often : 1 < track'.skippedFrames) :
    ∃ track ∈ T.tracks, track.trackId = track'.trackId ∧ track'.skippedFrames = track.skippedFrames + 1 := by
  rcases CTracker.update_ok done with ⟨none, rfl, rfl⟩ | ⟨T₀, assignment, origin, own, _, rfl⟩
  · rw [none] at member
    cases member
  rcases List.mem_append.mp member with old | new
  · obtain ⟨p, here, rfl⟩ := List.mem_map.mp old
    rw [followUp_skipped] at often ⊢
    rw [followUp_trackId]
    split at often
    · omega
    · next unpaired =>
      rw [if_neg unpaired]
      obtain ⟨i, rfl, _⟩ := mem_kept here
      rcases cleanPair_cases S (fun j => (T₀.tracks.get i).calcDist S distType (detections.get j)) (T₀.tracks.get i) (assignment i) with
        ⟨j, _, same⟩ | ⟨skipped, same, cases⟩
      · rw [same] at unpaired
        exact absurd rfl unpaired
      · rw [same] at often ⊢
        simp only at often ⊢
        have more : skipped = (T₀.tracks.get i).skippedFrames + 1 := by omega
        have there : T₀.tracks.get i ∈ T₀.tracks := List.get_mem _ _
        rcases origin with rfl | ⟨none, rfl⟩
        · exact ⟨_, there, rfl, more⟩
        · -- A track that began with this frame was not skipped before.
          have first : (List.foldl (CTracker.begin S) T detections).tracks.get i ∈ begun S T.nextTrackId detections := by
            simp [foldl_begin, none]
          rw [(mem_begun S first).1] at more
          omega
  · rw [(mem_begun S new).1] at often
    cases often

/-- A track that a call gives up was skipped as often as is allowed. -/
theorem update_lost {T T' : CTracker K F} {distType : DistType} {detections : List (Point K × Rect)} (tracked : Tracked S T)
    (done : T.update S distType detections = .ok T') {track : CTrack K F} (member : track ∈ T.tracks) (gone : track.trackId ∉ T'.ids) :
    track.skippedFrames = S.maximumAllowedSkippedFrames := by
  have few := tracked.skipped track member
  rcases CTracker.update_ok done with ⟨none, rfl, rfl⟩ | ⟨T₀, assignment, origin, own, _, rfl⟩
  · exact absurd (List.mem_map_of_mem member) gone
  rcases origin with rfl | ⟨none, _⟩
  · obtain ⟨i, rfl⟩ := List.mem_iff_get.mp member
    have out : ¬ (cleanPair S (fun j => (T₀.tracks.get i).calcDist S distType (detections.get j)) (T₀.tracks.get i)
        (assignment i)).1.skippedFrames ≤ S.maximumAllowedSkippedFrames := by
      intro stays
      refine gone ?_
      rw [matched_ids]
      refine List.mem_append_left _ (List.mem_map.mpr ⟨_, List.mem_filter.mpr ⟨List.mem_map_of_mem (List.mem_finRange i), ?_⟩, ?_⟩)
      · simpa using stays
      · exact cleanPair_trackId S
    rcases cleanPair_cases S (fun j => (T₀.tracks.get i).calcDist S distType (detections.get j)) (T₀.tracks.get i) (assignment i) with
      ⟨j, _, same⟩ | ⟨skipped, same, cases⟩
    · rw [same] at out
      exact absurd few out
    · rw [same] at out
      simp only at out
      omega
  · rw [none] at member
    cases member

/-- **When a track is given up**: after as many frames as are allowed in each of which it was skipped, and not before. -/
theorem lost_after {before : List (DistType × List (Point K × Rect))} {distType : DistType} {detections : List (Point K × Rect)}
    {T T' : CTracker K F} (run : trackFrames S .fresh before = .ok T) (done : T.update S distType detections = .ok T') {trackId : Nat}
    (was : trackId ∈ T.ids) (gone : trackId ∉ T'.ids) (k : Nat) (inside : k < S.maximumAllowedSkippedFrames) :
    ∃ Tk, trackFrames S .fresh (before.take (before.length - k)) = .ok Tk ∧
      ∃ track ∈ Tk.tracks, track.trackId = trackId ∧ track.skippedFrames = S.maximumAllowedSkippedFrames - k := by
  induction k with
  | zero =>
    obtain ⟨track, member, rfl⟩ := List.mem_map.mp was
    rw [Nat.sub_zero, List.take_length]
    exact ⟨T, run, track, member, rfl, update_lost (trackFrames_tracked run) done member gone⟩
  | succ k ih =>
    obtain ⟨Tk, reached, track, member, same, count⟩ := ih (by omega)
    cases some : before.length - k with
    | zero =>
      rw [some, List.take_zero] at reached
      cases reached
      cases member
    | succ n =>
      have next : before.length - (k + 1) = n := by omega
      have here : n < before.length := by omega
      rw [some, List.take_succ_eq_append_getElem here] at reached
      obtain ⟨U, first, last⟩ := foldlM_append_ok reached
      rw [List.foldlM_cons] at last
      obtain ⟨U', step, same'⟩ := bind_ok last
      cases same'
      obtain ⟨earlier, member', same', count'⟩ := update_skipped step member (by omega)
      exact ⟨U, by rw [next]; exact first, earlier, member', same'.trans same, by omega⟩

omit [IsStrictOrderedRing K] in
theorem CTracker.update_of_tracks {T : CTracker K F} (some : T.tracks ≠ []) {distType : DistType} {detections : List (Point K × Rect)} :
    T.update S distType detections = T.pairUp S distType detections := by
  have there : T.tracks.isEmpty = false := by simpa using some
  simp only [CTracker.update, there, Bool.false_eq_true, if_false]

/-- A call comes to an end if the distances together stay below the greatest value. -/
theorem CTracker.pairUp_isOk (T : CTracker K F) (distType : DistType) (detections : List (Point K × Rect))
    (bound : ∑ i : Fin T.tracks.length, ∑ j : Fin detections.length, (T.tracks.get i).calcDist S distType (detections.get j) < S.maxValue) :
    ∃ T', T.pairUp S distType detections = .ok T' := by
  obtain ⟨assignment, cost, answer⟩ := solve_isSome (fun i j => CTrack.calcDist_nonneg _ distType _) bound
  unfold CTracker.pairUp
  simp only
  split
  · next none =>
    rw [answer] at none
    cases none
  · exact ⟨_, rfl⟩

/-- A frame without detections skips every track. -/
theorem update_nothing {T : CTracker K F} (tracked : Tracked S T) (distType : DistType) {n : Nat}
    (skipped : ∀ track ∈ T.tracks, n ≤ track.skippedFrames) :
    ∃ T', T.update S distType [] = .ok T' ∧ Tracked S T' ∧ T'.nextTrackId = T.nextTrackId ∧
      ∀ track ∈ T'.tracks, n + 1 ≤ track.skippedFrames := by
  by_cases empty : T.tracks = []
  · refine ⟨T, ?_, tracked, rfl, fun track member => ?_⟩
    · simp [CTracker.update, empty]
    · rw [empty] at member
      cases member
  · obtain ⟨T', done⟩ := CTracker.pairUp_isOk T distType ([] : List (Point K × Rect)) (by simpa using S.maxValue_pos)
    rw [← CTracker.update_of_tracks empty] at done
    obtain ⟨tracked', _⟩ := tracked.update done
    refine ⟨T', done, tracked', ?_⟩
    rcases CTracker.update_ok done with ⟨none, _, _⟩ | ⟨T₀, assignment, origin, own, _, rfl⟩
    · exact absurd none empty
    rcases origin with rfl | ⟨none, _⟩
    · have nothing : leftOver (T₀.kept S distType [] assignment) = [] := rfl
      rw [CTracker.matched, nothing]
      refine ⟨rfl, fun track member => ?_⟩
      rw [List.map_nil, begun, List.append_nil] at member
      obtain ⟨p, here, rfl⟩ := List.mem_map.mp member
      obtain ⟨i, rfl, _⟩ := mem_kept here
      have none : assignment i = none := by
        cases given : assignment i with
        | none => rfl
        | some j => exact j.elim0
      rw [none]
      exact Nat.succ_le_succ (skipped _ (List.get_mem _ _))
    · exact absurd none empty

/-- **Without detections** every track is given up, at the latest after one frame more than may be skipped. -/
theorem drained {frames : List (DistType × List (Point K × Rect))} {T : CTracker K F} (run : trackFrames S .fresh frames = .ok T)
    (blank : List DistType) (long : S.maximumAllowedSkippedFrames < blank.length) :
    ∃ T', trackFrames S T (blank.map fun distType => (distType, [])) = .ok T' ∧ T'.tracks = [] ∧
      T'.nextTrackId = T.nextTrackId ∧ T'.lostObjNum = T.nextTrackId := by
  have each (blank : List DistType) (n : Nat) (T : CTracker K F) (tracked : Tracked S T)
      (skipped : ∀ track ∈ T.tracks, n ≤ track.skippedFrames) :
      ∃ T', trackFrames S T (blank.map fun distType => (distType, [])) = .ok T' ∧ Tracked S T' ∧ T'.nextTrackId = T.nextTrackId ∧
        ∀ track ∈ T'.tracks, n + blank.length ≤ track.skippedFrames := by
    induction blank generalizing n T with
    | nil => exact ⟨T, rfl, tracked, rfl, skipped⟩
    | cons distType blank ih =>
      obtain ⟨U, done, tracked', same, skipped'⟩ := update_nothing tracked distType skipped
      obtain ⟨T', rest, tracked'', same', skipped''⟩ := ih (n + 1) U tracked' skipped'
      refine ⟨T', ?_, tracked'', same'.trans same, fun track member => ?_⟩
      · rw [List.map_cons, trackFrames, foldlM_cons_ok done]
        exact rest
      · have more := skipped'' track member
        rw [List.length_cons]
        omega
  obtain ⟨T', run', tracked', same, skipped⟩ := each blank 0 T (trackFrames_tracked run) fun _ _ => Nat.zero_le _
  have none : T'.tracks = [] := by
    refine List.eq_nil_iff_forall_not_mem.mpr fun track member => ?_
    have low := skipped track member
    have high := tracked'.skipped track member
    omega
  have count := tracked'.count
  rw [none, List.length_nil, Nat.add_zero, same] at count
  exact ⟨T', run', none, same, count.symm⟩

end

/-! ## A tracker at work -/

/-- A filter that answers what was measured last. -/
def lastMeasured {K : Type} : KalmanFilter K (Point K) where
  start p := p
  getPrediction f := (f, f)
  update f p dataCorrect := if dataCorrect then (p, p) else (f, f)

def steady : TrackerSettings ℤ (Point ℤ) where
  kalman := lastMeasured
  sqrtf x := (Nat.sqrt x.toNat : ℤ)
  sqrtf_nonneg _ _ := Int.natCast_nonneg _
  maxValue := 1000000
  maxValue_pos := by decide
  distThres := 60
  maximumAllowedSkippedFrames := 1
  maxTraceLength := 10

def walker : Point ℤ × Rect := (⟨3, 4⟩, ⟨1, 2, 4, 4⟩)

/-- The tracks after a frame with one detection and some without. -/
def walkerTrack (skipped : Nat) : CTrack ℤ (Point ℤ) :=
  ⟨List.replicate (skipped + 1) ⟨3, 4⟩, 0, skipped, ⟨3, 4⟩, ⟨1, 2, 4, 4⟩, ⟨3, 4⟩⟩

theorem tracks_serve_walker : Tracked steady ⟨[walkerTrack 0], 1, 0⟩ ∧ Served [walker] (⟨[walkerTrack 0], 1, 0⟩ : CTracker ℤ (Point ℤ)) :=
  @tracks_serve_frame ℤ (Point ℤ) _ _ steady _ [] .centersDist [walker] _ rfl

theorem walker_lost_after : ∃ Tk, trackFrames steady .fresh ([(.centersDist, [walker]), (.centersDist, [])].take (2 - 0)) = .ok Tk ∧
    ∃ track ∈ Tk.tracks, track.trackId = 0 ∧ track.skippedFrames = 1 - 0 :=
  @lost_after ℤ (Point ℤ) _ _ steady _ [(.centersDist, [walker]), (.centersDist, [])] .centersDist [] ⟨[walkerTrack 1], 1, 0⟩ ⟨[], 1, 1⟩
    rfl rfl 0 (by decide) (by decide) 0 (by decide)

theorem walker_drained : ∃ T', trackFrames steady ⟨[walkerTrack 0], 1, 0⟩ ([.centersDist, .centersDist].map fun distType => (distType, [])) = .ok T' ∧
    T'.tracks = [] ∧ T'.nextTrackId = 1 ∧ T'.lostObjNum = 1 :=
  @drained ℤ (Point ℤ) _ _ steady _ [(.centersDist, [walker])] ⟨[walkerTrack 0], 1, 0⟩ rfl [.centersDist, .centersDist] (by decide)

end VideoDetector.Pvd
