import VideoDetector.Alg.Sampling
import VideoDetector.Lib.Carve
import VideoDetector.Lib.Runs

/-!
# The memory of the lanes (`fvd-new/alg-mutilthread/m_arith.cpp`)

`alg_mem_malloc` allocates two blocks, and `CfgStructParse` hands them out lane by lane: a descriptor and three tables of
pixel addresses from the one, ten image planes from the other. How large they are is only known after `ptGetDot` has
filled the tables, and only a table at a time is compared with a limit.
-/

namespace VideoDetector.Alg
set_option autoImplicit false
open Lib

/-- The sizes of the structures in the first block. -/
structure StructSizes where
  camera : Nat
  lane : Nat
  speedDetect : Nat

/-- `DETECTRECT_WIDTH_MAX * DETECTRECT_HEIGHT_MAX`. -/
def detectRectMax : Nat := 704 * 576

namespace StructSizes

/-- The size of `CameraCfgEntry`. -/
def cameraCfgEntry (z : StructSizes) : Nat :=
  z.camera + z.lane * maxLane + maxLane * z.speedDetect + detectRectMax * 4

/-- Where the first lane begins in it, behind the camera and `LanesCfgEntry`. -/
def firstLane (z : StructSizes) : Nat := z.camera + maxLane * z.lane

/-- `LanesCfgEntry`. -/
def lanesCfgEntry (z : StructSizes) : List Extent := (List.range maxLane).map fun i => ⟨z.camera + i * z.lane, z.lane⟩

end StructSizes

/-- The size of `ImageStorageEntry`. -/
def imageStorageEntry : Nat := detectRectMax * 6

/-- What `CfgStructParse` reads: the environment and the lanes. -/
structure SpeedCfg where
  bAuto : Nat
  lanes : List SpeedLane
  few : lanes.length ≤ maxLane

namespace SpeedLane

/-- The corners of the coil. -/
def coil (lane : SpeedLane) : Quad :=
  ⟨lane.ptFourCorner 0, lane.ptFourCorner 1, lane.ptFourCorner 2, lane.ptFourCorner 3⟩

/-- The corners of the queue. -/
def queue (lane : SpeedLane) : Quad := ⟨lane.ptCornerLB 0, lane.ptCornerRB 0, lane.ptCornerRB 1, lane.ptCornerLB 1⟩

/-- The corners as they are copied back to `DownSpeedCfg`. -/
def adjusted (lane : SpeedLane) (coil queue : Quad) : SpeedLane :=
  { lane with
    ptFourCorner := ![coil.ptUpLeft, coil.ptUpRight, coil.ptDownRight, coil.ptDownLeft]
    ptCornerLB := ![queue.ptUpLeft, queue.ptDownLeft]
    ptCornerRB := ![queue.ptUpRight, queue.ptDownRight] }

/-- The one test of the configured points. -/
def tooFar (lane : SpeedLane) : Bool :=
  1000 < (lane.ptFourCorner 0).x || 1000 < (lane.ptFourCorner 1).x || 1000 < (lane.ptFourCorner 2).x ||
    1000 < (lane.ptFourCorner 3).x || 1000 < (lane.ptCornerRB 0).x || 1000 < (lane.ptCornerRB 1).x

/-- The rows of `actual_distance` that are read for a lane. Behind the two points of `ptCornerQ` are those of
`ptCornerQA`. -/
def actualRows (lane : SpeedLane) : List Nat :=
  [((lane.ptCornerQ 0).y.toNat + (lane.ptCornerQ 1).y.toNat) / 2,
    ((lane.ptCornerQA 0).y.toNat + (lane.ptCornerQA 1).y.toNat) / 2,
    ((lane.ptFourCorner 0).y.toNat + (lane.ptFourCorner 1).y.toNat) / 2,
    ((lane.ptFourCorner 2).y.toNat + (lane.ptFourCorner 3).y.toNat) / 2]

end SpeedLane

/-- The columns of the coil: by night there are more. -/
def coilCols (bAuto : Nat) : Nat := if bAuto = 2 then 200 else 20

/-- What is set of a `SPEED_DETECT_STRUCT`, with what the two calls of `ptGetDot` did. -/
structure SpeedDetect where
  coil : Dots
  queue : Dots
  extStorageAddr : Nat
  coordinatePointer : Nat
  coordinatePointerQ : Nat
  colightPointer : Nat
  detectDots : Nat
  detectLines : Nat
  detectColumns : Nat
  queDetectDots : Nat
  queDetectLines : Nat
  queDetectColumns : Nat
  currentImagePointer : Nat
  backImagePointer : Nat
  puTempImage : Nat
  sobelBackImagePointer : Nat
  backImagePlusPointer : Nat
  currQueueImage : Nat
  preQueueImage : Nat
  sobelQueueImage : Nat
  backQueueImage : Nat
  firstLaneImage : Nat

/-- The state of the loop over the lanes: the two pointers, the descriptors so far, the corners copied back, what the
call of `ptGetDot` for the light area did, the words of the tables, and what was written. -/
structure Parsed where
  pSpeedDetect : Nat
  pCurLaneImageEntry : Nat
  lanes : List SpeedDetect
  downSpeedCfg : List SpeedLane
  light : Dots
  mem : WordMem
  written : List Extent

/-- The descriptor of a lane. -/
def speedDetect (z : StructSizes) (pSpeedDetect pCurLaneImageEntry : Nat) (coil queue : Dots) : SpeedDetect :=
  let dots := coil.x * coil.y
  let team := queue.x * queue.y
  let coordinatePointer := pSpeedDetect + z.speedDetect
  let coordinatePointerQ := coordinatePointer + 4 * dots
  { coil, queue, coordinatePointer, coordinatePointerQ
    extStorageAddr := pSpeedDetect
    colightPointer := coordinatePointerQ + 4 * team
    detectDots := dots % 65536
    detectLines := coil.y
    detectColumns := coil.x
    queDetectDots := team % 65536
    queDetectLines := queue.y
    queDetectColumns := queue.x
    currentImagePointer := pCurLaneImageEntry
    backImagePointer := pCurLaneImageEntry + dots
    puTempImage := pCurLaneImageEntry + 2 * dots
    sobelBackImagePointer := pCurLaneImageEntry + 3 * dots
    backImagePlusPointer := pCurLaneImageEntry + 4 * dots
    currQueueImage := pCurLaneImageEntry + 5 * dots
    preQueueImage := pCurLaneImageEntry + 5 * dots + team
    sobelQueueImage := pCurLaneImageEntry + 5 * dots + 2 * team
    backQueueImage := pCurLaneImageEntry + 5 * dots + 3 * team
    firstLaneImage := pCurLaneImageEntry + 5 * dots + 4 * team }

/-- The words that `ptGetDot` writes. -/
def Dots.pieces (dots : Dots) (place : Nat) : List Extent := dots.stores.map fun s => ⟨place + 4 * s.1, 4⟩

/-- The stores of a lane into the first block. Only the first lane has a table of the light area that is filled. -/
def storeLane (z : StructSizes) (s : Parsed) (d : SpeedDetect) (light : Dots) : WordMem × List Extent :=
  let mem := wipe s.mem ⟨d.extStorageAddr, z.speedDetect⟩
  let mem := putWords mem d.coordinatePointer d.coil.stores
  let mem := putWords mem d.coordinatePointerQ d.queue.stores
  let written := s.written ++ [⟨d.extStorageAddr, z.speedDetect⟩] ++ d.coil.pieces d.coordinatePointer ++
    d.queue.pieces d.coordinatePointerQ
  if s.lanes.isEmpty then (putWords mem d.colightPointer light.stores, written ++ light.pieces d.colightPointer)
  else (mem, written)

/-- A lane in `CfgStructParse`. -/
def placeLane (u : Conversions) (z : StructSizes) (bAuto : Nat) (s : Parsed) (lane : SpeedLane) : Parsed :=
  let coil := ptGetDot u lane.coil (coilCols bAuto)
  let queue := ptGetDot u lane.queue 200
  let light := if s.lanes.isEmpty then ptGetDot u coil.corners 200 else s.light
  let d := speedDetect z s.pSpeedDetect s.pCurLaneImageEntry coil queue
  { pSpeedDetect := s.pSpeedDetect + z.speedDetect + coil.x * coil.y * 4 + queue.x * queue.y * 4 + light.x * light.y * 4
    pCurLaneImageEntry := s.pCurLaneImageEntry + (5 * (coil.x * coil.y) + 4 * (queue.x * queue.y) + light.x * light.y)
    lanes := s.lanes ++ [d]
    downSpeedCfg := s.downSpeedCfg ++ [lane.adjusted coil.corners queue.corners]
    light
    mem := (storeLane z s d light).1
    written := (storeLane z s d light).2 }

/-- Why `CfgStructParse` returns `FALSE`. -/
inductive Rejected where
  | coordinates
  | coil
  | queue
  | light
  deriving DecidableEq, Repr

def Dots.empty (dots : Dots) : Bool := dots.x == 0 && dots.y == 0

def Dots.tooMany (dots : Dots) : Bool := maxDotsInDetect < dots.x * dots.y

/-- A lane with the tests: of the points before `ptGetDot`, of the sizes after it. -/
def parseLane (u : Conversions) (z : StructSizes) (bAuto : Nat) (s : Parsed) (lane : SpeedLane) : Except Rejected Parsed :=
  if lane.tooFar then .error .coordinates
  else
    let coil := ptGetDot u lane.coil (coilCols bAuto)
    let queue := ptGetDot u lane.queue 200
    let t := placeLane u z bAuto s lane
    if coil.empty || coil.tooMany then .error .coil
    else if queue.empty || queue.tooMany then .error .queue
    else if (s.lanes.isEmpty && t.light.empty) || t.light.tooMany then .error .light
    else .ok t

/-- Before the first lane; `LanesCfgEntry` is cleared. -/
def Parsed.start (z : StructSizes) : Parsed where
  pSpeedDetect := z.firstLane
  pCurLaneImageEntry := 0
  lanes := []
  downSpeedCfg := []
  light := default
  mem := fun _ => none
  written := z.lanesCfgEntry

/-- `CfgStructParse`. -/
def cfgStructParse (u : Conversions) (z : StructSizes) (cfg : SpeedCfg) : Except Rejected Parsed :=
  cfg.lanes.foldlM (parseLane u z cfg.bAuto) (.start z)

/-! ## Which configurations are accepted -/

theorem two_le_coilCols (bAuto : Nat) : 2 ≤ coilCols bAuto := by
  rw [coilCols]
  split <;> decide

/-- The tests of the sizes let every table pass. -/
theorem ptGetDot_passes (u : Conversions) (q : Quad) {nColNum : Nat} (wide : 2 ≤ nColNum) :
    (ptGetDot u q nColNum).empty = false ∧ (ptGetDot u q nColNum).tooMany = false := by
  have cols : q.cols nColNum ≠ 0 := Nat.ne_of_gt (Nat.lt_of_lt_of_le (by decide) (q.two_le_cols wide))
  constructor
  · exact Bool.and_eq_false_imp.mpr fun zero => absurd (eq_of_beq zero) cols
  · exact decide_eq_false (Nat.not_lt.mpr (q.dots_le nColNum))

section
variable {u : Conversions} {z : StructSizes} {bAuto : Nat}

/-- Only the test of the points rejects a lane. -/
theorem parseLane_ok {s : Parsed} {lane : SpeedLane} (near : lane.tooFar = false) (light : s.light.tooMany = false) :
    parseLane u z bAuto s lane = .ok (placeLane u z bAuto s lane) ∧
      (placeLane u z bAuto s lane).light.tooMany = false := by
  obtain ⟨coilThere, coilFew⟩ := ptGetDot_passes u lane.coil (two_le_coilCols bAuto)
  obtain ⟨queueThere, queueFew⟩ := ptGetDot_passes u lane.queue (show 2 ≤ 200 by decide)
  have lightPasses : (s.lanes.isEmpty && (placeLane u z bAuto s lane).light.empty) = false ∧
      (placeLane u z bAuto s lane).light.tooMany = false := by
    cases first : s.lanes.isEmpty with
    | true =>
      simp only [placeLane, first, if_true, Bool.true_and]
      exact ptGetDot_passes u _ (by decide)
    | false =>
      simp only [placeLane, first, Bool.false_eq_true, if_false, Bool.false_and, true_and]
      exact light
  refine ⟨?_, lightPasses.2⟩
  simp only [parseLane, near, coilThere, coilFew, queueThere, queueFew, lightPasses.1, lightPasses.2, Bool.or_self,
    Bool.false_eq_true, if_false]

theorem parseLanes_ok {s : Parsed} {lanes : List SpeedLane} (near : ∀ lane ∈ lanes, lane.tooFar = false)
    (light : s.light.tooMany = false) :
    lanes.foldlM (parseLane u z bAuto) s = .ok (lanes.foldl (placeLane u z bAuto) s) := by
  induction lanes generalizing s with
  | nil => rfl
  | cons lane lanes ih =>
    obtain ⟨first, rest⟩ := List.forall_mem_cons.mp near
    obtain ⟨parsed, light'⟩ := parseLane_ok first light
    rw [foldlM_cons_ok parsed, List.foldl_cons]
    exact ih rest light'

theorem parseLanes_near {s t : Parsed} {lanes : List SpeedLane} (done : lanes.foldlM (parseLane u z bAuto) s = .ok t) :
    ∀ lane ∈ lanes, lane.tooFar = false := by
  refine (foldlM_invariant (fun before _ => ∀ lane ∈ before, lane.tooFar = false) ?_ ?_ done :)
  · intro before lane s t near step member there
    rcases List.mem_append.mp there with old | new
    · exact near member old
    · cases List.mem_singleton.mp new
      by_contra far
      rw [parseLane, if_pos (Bool.not_eq_false _ ▸ far)] at step
      cases step
  · intro lane none
    cases none

end

/-- No point that is tested is beyond column 1000. -/
def SpeedCfg.Near (cfg : SpeedCfg) : Prop := ∀ lane ∈ cfg.lanes, lane.tooFar = false

/-- **`CfgStructParse` returns `TRUE`** exactly if the test of the points does not reject a lane. -/
theorem cfgStructParse_iff {u : Conversions} {z : StructSizes} {cfg : SpeedCfg} {t : Parsed} :
    cfgStructParse u z cfg = .ok t ↔ cfg.Near ∧ t = cfg.lanes.foldl (placeLane u z cfg.bAuto) (.start z) := by
  constructor
  · intro done
    have near : cfg.Near := parseLanes_near done
    rw [cfgStructParse, parseLanes_ok near rfl] at done
    exact ⟨near, (Except.ok.inj done).symm⟩
  · rintro ⟨near, rfl⟩
    exact parseLanes_ok near rfl

theorem cfgStructParse_ok (u : Conversions) (z : StructSizes) {cfg : SpeedCfg} (near : cfg.Near) :
    cfgStructParse u z cfg = .ok (cfg.lanes.foldl (placeLane u z cfg.bAuto) (.start z)) :=
  cfgStructParse_iff.mpr ⟨near, rfl⟩

/-! ## The layout -/

/-- The dots of the coil. -/
def SpeedLane.coilDots (bAuto : Nat) (lane : SpeedLane) : Nat :=
  lane.coil.cols (coilCols bAuto) * lane.coil.rows (coilCols bAuto)

/-- The dots of the queue. -/
def SpeedLane.queueDots (lane : SpeedLane) : Nat := lane.queue.cols 200 * lane.queue.rows 200

/-- The light area of a lane: its coil with the corner moved, in 200 columns. -/
def SpeedLane.lightDots (corner : Option ℚ → UInt16) (lane : SpeedLane) : Nat :=
  (lane.coil.aligned corner).cols 200 * (lane.coil.aligned corner).rows 200

/-- The dots of the light area, which is that of the first lane. -/
def SpeedCfg.lightDots (cfg : SpeedCfg) (corner : Option ℚ → UInt16) : Nat :=
  match cfg.lanes with
  | [] => 0
  | lane :: _ => lane.lightDots corner

/-- The pieces of the first block that belong to a lane. -/
def SpeedDetect.tables (z : StructSizes) (light : Nat) (d : SpeedDetect) : List Extent :=
  [⟨d.extStorageAddr, z.speedDetect⟩, ⟨d.coordinatePointer, 4 * (d.coil.x * d.coil.y)⟩,
    ⟨d.coordinatePointerQ, 4 * (d.queue.x * d.queue.y)⟩, ⟨d.colightPointer, 4 * light⟩]

/-- The image planes of a lane. -/
def SpeedDetect.planes (light : Nat) (d : SpeedDetect) : List Extent :=
  let dots := d.coil.x * d.coil.y
  let team := d.queue.x * d.queue.y
  [⟨d.currentImagePointer, dots⟩, ⟨d.backImagePointer, dots⟩, ⟨d.puTempImage, dots⟩, ⟨d.sobelBackImagePointer, dots⟩,
    ⟨d.backImagePlusPointer, dots⟩, ⟨d.currQueueImage, team⟩, ⟨d.preQueueImage, team⟩, ⟨d.sobelQueueImage, team⟩,
    ⟨d.backQueueImage, team⟩, ⟨d.firstLaneImage, light⟩]

/-- What a lane takes of the first block. -/
def tableSizes (z : StructSizes) (bAuto light : Nat) (lane : SpeedLane) : List Nat :=
  [z.speedDetect, 4 * lane.coilDots bAuto, 4 * lane.queueDots, 4 * light]

/-- What a lane takes of the second block. -/
def planeSizes (bAuto light : Nat) (lane : SpeedLane) : List Nat :=
  List.replicate 5 (lane.coilDots bAuto) ++ List.replicate 4 lane.queueDots ++ [light]

theorem carve_tables (z : StructSizes) (p image light : Nat) (coil queue : Dots) :
    (speedDetect z p image coil queue).tables z light =
      carve p [z.speedDetect, 4 * (coil.x * coil.y), 4 * (queue.x * queue.y), 4 * light] := rfl

theorem speedDetect_tables (u : Conversions) (z : StructSizes) (p image bAuto light : Nat) (lane : SpeedLane) :
    (speedDetect z p image (ptGetDot u lane.coil (coilCols bAuto)) (ptGetDot u lane.queue 200)).tables z light =
      carve p (tableSizes z bAuto light lane) := by
  rw [carve_tables]
  simp only [ptGetDot, tableSizes, SpeedLane.coilDots, SpeedLane.queueDots]

/-- The planes begin at multiples of the dots. -/
theorem carve_planes (image dots team light : Nat) :
    carve image (List.replicate 5 dots ++ List.replicate 4 team ++ [light]) =
      [⟨image, dots⟩, ⟨image + dots, dots⟩, ⟨image + 2 * dots, dots⟩, ⟨image + 3 * dots, dots⟩, ⟨image + 4 * dots, dots⟩,
        ⟨image + 5 * dots, team⟩, ⟨image + 5 * dots + team, team⟩, ⟨image + 5 * dots + 2 * team, team⟩,
        ⟨image + 5 * dots + 3 * team, team⟩, ⟨image + 5 * dots + 4 * team, light⟩] := by
  simp only [List.replicate_succ, List.replicate_zero, List.cons_append, List.nil_append, carve, List.cons.injEq,
    Extent.mk.injEq, and_true, true_and]
  omega

theorem speedDetect_planes (u : Conversions) (z : StructSizes) (p image bAuto light : Nat) (lane : SpeedLane) :
    (speedDetect z p image (ptGetDot u lane.coil (coilCols bAuto)) (ptGetDot u lane.queue 200)).planes light =
      carve image (planeSizes bAuto light lane) :=
  (carve_planes image (lane.coilDots bAuto) lane.queueDots light).symm

/-- The lanes placed so far: their descriptors are behind each other in both blocks. -/
structure Placed (u : Conversions) (z : StructSizes) (bAuto : Nat) (light : Dots) (before : List SpeedLane) (s : Parsed) :
    Prop where
  coils : s.lanes.map (·.coil) = before.map fun lane => ptGetDot u lane.coil (coilCols bAuto)
  queues : s.lanes.map (·.queue) = before.map fun lane => ptGetDot u lane.queue 200
  corners : s.downSpeedCfg = before.map fun lane => lane.adjusted (lane.coil.aligned u.corner) (lane.queue.aligned u.corner)
  lit : before ≠ [] → s.light = light
  tables : s.lanes.flatMap (·.tables z (light.x * light.y)) =
    carve z.firstLane (before.flatMap (tableSizes z bAuto (light.x * light.y)))
  cursor : s.pSpeedDetect = z.firstLane + (before.flatMap (tableSizes z bAuto (light.x * light.y))).sum
  planes : s.lanes.flatMap (·.planes (light.x * light.y)) = carve 0 (before.flatMap (planeSizes bAuto (light.x * light.y)))
  image : s.pCurLaneImageEntry = (before.flatMap (planeSizes bAuto (light.x * light.y))).sum
  fields : ∀ d ∈ s.lanes, ∃ p image, d = speedDetect z p image d.coil d.queue

section
variable {u : Conversions} {z : StructSizes} {bAuto : Nat} {light : Dots} {before : List SpeedLane} {s : Parsed}

theorem Placed.start : Placed u z bAuto light [] (.start z) where
  coils := rfl
  queues := rfl
  corners := rfl
  lit := fun none => absurd rfl none
  tables := rfl
  cursor := rfl
  planes := rfl
  image := rfl
  fields := fun _ none => absurd none List.not_mem_nil

theorem Placed.isEmpty (placed : Placed u z bAuto light before s) : s.lanes.isEmpty = before.isEmpty := by
  have count : s.lanes.length = before.length := by simpa using congrArg List.length placed.coils
  cases before with
  | nil => exact congrArg List.isEmpty (List.length_eq_zero_iff.mp count)
  | cons lane before => exact List.isEmpty_eq_false_iff.mpr (List.ne_nil_of_length_eq_add_one count)

/-- What the calls for the coils did, lane by lane. -/
theorem Placed.forall_coil (placed : Placed u z bAuto light before s) (P : Dots → Prop) :
    (∀ d ∈ s.lanes, P d.coil) ↔ ∀ lane ∈ before, P (ptGetDot u lane.coil (coilCols bAuto)) := by
  rw [← List.forall_mem_map (f := SpeedDetect.coil), placed.coils, List.forall_mem_map]

/-- What the calls for the queues did, lane by lane. -/
theorem Placed.forall_queue (placed : Placed u z bAuto light before s) (P : Dots → Prop) :
    (∀ d ∈ s.lanes, P d.queue) ↔ ∀ lane ∈ before, P (ptGetDot u lane.queue 200) := by
  rw [← List.forall_mem_map (f := SpeedDetect.queue), placed.queues, List.forall_mem_map]

/-- The light area is that of the first lane. -/
theorem Placed.light_eq (placed : Placed u z bAuto light before s) {lane : SpeedLane}
    (first : before = [] → light = ptGetDot u (lane.coil.aligned u.corner) 200) :
    (placeLane u z bAuto s lane).light = light := by
  cases before with
  | nil =>
    have none : s.lanes.isEmpty = true := placed.isEmpty
    simp only [placeLane, none, if_true]
    exact (first rfl).symm
  | cons old before =>
    have some : s.lanes.isEmpty = false := placed.isEmpty
    simp only [placeLane, some, Bool.false_eq_true, if_false]
    exact placed.lit (List.cons_ne_nil _ _)

theorem Placed.step (placed : Placed u z bAuto light before s) {lane : SpeedLane}
    (first : before = [] → light = ptGetDot u (lane.coil.aligned u.corner) 200) :
    Placed u z bAuto light (before ++ [lane]) (placeLane u z bAuto s lane) := by
  have lit := placed.light_eq first
  have lanes : (placeLane u z bAuto s lane).lanes = s.lanes ++ [speedDetect z s.pSpeedDetect s.pCurLaneImageEntry
      (ptGetDot u lane.coil (coilCols bAuto)) (ptGetDot u lane.queue 200)] := rfl
  constructor
  · rw [lanes, List.map_append, placed.coils, List.map_append]
    rfl
  · rw [lanes, List.map_append, placed.queues, List.map_append]
    rfl
  · rw [List.map_append, ← placed.corners]
    rfl
  · exact fun _ => lit
  · rw [lanes, List.flatMap_append, List.flatMap_singleton, placed.tables, speedDetect_tables, List.flatMap_append,
      List.flatMap_singleton, carve_append, ← placed.cursor]
  · have next : (placeLane u z bAuto s lane).pSpeedDetect = s.pSpeedDetect + z.speedDetect + lane.coilDots bAuto * 4 +
        lane.queueDots * 4 + (placeLane u z bAuto s lane).light.x * (placeLane u z bAuto s lane).light.y * 4 := rfl
    rw [next, lit, List.flatMap_append, List.flatMap_singleton, List.sum_append, placed.cursor]
    simp only [tableSizes, List.sum_cons, List.sum_nil]
    omega
  · rw [lanes, List.flatMap_append, List.flatMap_singleton, placed.planes, speedDetect_planes, List.flatMap_append,
      List.flatMap_singleton, carve_append, Nat.zero_add, ← placed.image]
  · have next : (placeLane u z bAuto s lane).pCurLaneImageEntry = s.pCurLaneImageEntry + (5 * lane.coilDots bAuto +
        4 * lane.queueDots + (placeLane u z bAuto s lane).light.x * (placeLane u z bAuto s lane).light.y) := rfl
    rw [next, lit, List.flatMap_append, List.flatMap_singleton, List.sum_append, placed.image]
    simp only [planeSizes, List.replicate_succ, List.replicate_zero, List.sum_append, List.sum_cons, List.sum_nil]
    omega
  · rw [lanes]
    intro d member
    rcases List.mem_append.mp member with old | new
    · exact placed.fields d old
    · cases List.mem_singleton.mp new
      exact ⟨_, _, rfl⟩

end

/-! ## What a lane writes -/

/-- The stores are to different entries of the table. -/
structure Dots.Table (dots : Dots) : Prop where
  inside : ∀ store ∈ dots.stores, store.1 < dots.x * dots.y
  single : ∀ e a, (e, a) ∈ dots.stores → ∀ store ∈ dots.stores, store.1 = e → store.2 = a

theorem ptGetDot_table (u : Conversions) (q : Quad) (nColNum : Nat) : (ptGetDot u q nColNum).Table where
  inside := fun _ stored => stores_lt stored
  single := fun _ _ stored => stores_single stored

theorem Dots.Table.pieces {dots : Dots} (table : dots.Table) {place : Nat} {w : Extent} (member : w ∈ dots.pieces place) :
    w.stop ≤ place + 4 * (dots.x * dots.y) := by
  obtain ⟨store, stored, rfl⟩ := List.mem_map.mp member
  have low := table.inside store stored
  simp only [Extent.stop]
  omega

section
variable {z : StructSizes} {s : Parsed} {image : Nat} {coil queue light : Dots}

/-- A lane writes up to the end of its tables. -/
theorem storeLane_written (coilTable : coil.Table) (queueTable : queue.Table) (lightTable : light.Table)
    (below : ∀ w ∈ s.written, w.stop ≤ s.pSpeedDetect) :
    ∀ w ∈ (storeLane z s (speedDetect z s.pSpeedDetect image coil queue) light).2,
      w.stop ≤ s.pSpeedDetect + z.speedDetect + coil.x * coil.y * 4 + queue.x * queue.y * 4 + light.x * light.y * 4 := by
  intro w member
  have lane (old : w ∈ s.written ++ [⟨s.pSpeedDetect, z.speedDetect⟩] ++ coil.pieces (s.pSpeedDetect + z.speedDetect) ++
      queue.pieces (s.pSpeedDetect + z.speedDetect + 4 * (coil.x * coil.y))) :
      w.stop ≤ s.pSpeedDetect + z.speedDetect + coil.x * coil.y * 4 + queue.x * queue.y * 4 := by
    simp only [List.mem_append, List.mem_singleton] at old
    rcases old with ((before | rfl) | inCoil) | inQueue
    · have := below w before
      omega
    · simp only [Extent.stop]
      omega
    · have := coilTable.pieces inCoil
      omega
    · have := queueTable.pieces inQueue
      omega
  rw [storeLane] at member
  split at member
  · rcases List.mem_append.mp member with old | inLight
    · exact Nat.le_trans (lane old) (Nat.le_add_right _ _)
    · have := lightTable.pieces inLight
      simp only [speedDetect] at this
      omega
  · exact Nat.le_trans (lane member) (Nat.le_add_right _ _)

end

/-- What `ptGetDot` does for the light area. -/
def SpeedCfg.light (cfg : SpeedCfg) (u : Conversions) : Dots :=
  match cfg.lanes with
  | [] => default
  | lane :: _ => ptGetDot u (lane.coil.aligned u.corner) 200

theorem SpeedCfg.light_dots (cfg : SpeedCfg) (u : Conversions) :
    (cfg.light u).x * (cfg.light u).y = cfg.lightDots u.corner := by
  obtain ⟨bAuto, lanes, few⟩ := cfg
  cases lanes <;> rfl

/-- The lanes are placed one behind the other. -/
theorem placed_run (u : Conversions) (z : StructSizes) (cfg : SpeedCfg) :
    Placed u z cfg.bAuto (cfg.light u) cfg.lanes (cfg.lanes.foldl (placeLane u z cfg.bAuto) (.start z)) := by
  refine foldl_invariant (Placed u z cfg.bAuto (cfg.light u))
    (fun before _ lane => before = [] → cfg.light u = ptGetDot u (lane.coil.aligned u.corner) 200)
    (fun before s lane placed first => placed.step first) .start ?_ (List.append_nil cfg.lanes).symm
  rintro before lane after split rfl
  simp only [SpeedCfg.light, split, List.nil_append]

theorem light_table {u : Conversions} {s : Parsed} (old : s.light.Table) (z : StructSizes) (bAuto : Nat) (lane : SpeedLane) :
    (placeLane u z bAuto s lane).light.Table := by
  simp only [placeLane]
  split
  · exact ptGetDot_table _ _ _
  · exact old

/-- The stores so far are below the next lane. -/
structure Written (s : Parsed) : Prop where
  light : s.light.Table
  below : ∀ w ∈ s.written, w.stop ≤ s.pSpeedDetect

theorem Written.start (z : StructSizes) : Written (.start z) where
  light := ⟨fun _ none => absurd none List.not_mem_nil, fun _ _ none => absurd none List.not_mem_nil⟩
  below := by
    intro w member
    obtain ⟨i, low, rfl⟩ := List.mem_map.mp member
    have last : (i + 1) * z.lane ≤ maxLane * z.lane := Nat.mul_le_mul_right _ (List.mem_range.mp low)
    rw [Nat.succ_mul] at last
    simp only [Extent.stop, Parsed.start, StructSizes.firstLane]
    omega

theorem Written.step {s : Parsed} (written : Written s) (u : Conversions) (z : StructSizes) (bAuto : Nat) (lane : SpeedLane) :
    Written (placeLane u z bAuto s lane) where
  light := light_table written.light z bAuto lane
  below := storeLane_written (ptGetDot_table _ _ _) (ptGetDot_table _ _ _) (light_table written.light z bAuto lane) written.below

/-- The pieces of `CameraCfgEntry`. -/
def Parsed.cameraPieces (t : Parsed) (z : StructSizes) : List Extent :=
  z.lanesCfgEntry ++ t.lanes.flatMap (·.tables z (t.light.x * t.light.y))

/-- There is room for all lanes together, and the dots of each area fit 16 bits. -/
structure SpeedCfg.Fits (cfg : SpeedCfg) (corner : Option ℚ → UInt16) (z : StructSizes) : Prop where
  tables : (cfg.lanes.map fun lane =>
      z.speedDetect + 4 * (lane.coilDots cfg.bAuto + lane.queueDots + cfg.lightDots corner)).sum ≤
    maxLane * z.speedDetect + detectRectMax * 4
  planes : (cfg.lanes.map fun lane =>
      5 * lane.coilDots cfg.bAuto + 4 * lane.queueDots + cfg.lightDots corner).sum ≤ imageStorageEntry
  coil : ∀ lane ∈ cfg.lanes, lane.coilDots cfg.bAuto < 65536
  queue : ∀ lane ∈ cfg.lanes, lane.queueDots < 65536

theorem lanesCfgEntry_eq (z : StructSizes) : z.lanesCfgEntry = carve z.camera (List.replicate maxLane z.lane) := by
  simp only [StructSizes.lanesCfgEntry, maxLane, List.range_succ, List.range_zero, List.nil_append, List.cons_append,
    List.map_cons, List.map_nil, List.replicate_succ, List.replicate_zero, carve, List.cons.injEq, Extent.mk.injEq, and_true]
  omega

theorem tableSizes_sum (z : StructSizes) (bAuto light : Nat) (lanes : List SpeedLane) :
    (lanes.flatMap (tableSizes z bAuto light)).sum =
      (lanes.map fun lane => z.speedDetect + 4 * (lane.coilDots bAuto + lane.queueDots + light)).sum := by
  induction lanes with
  | nil => rfl
  | cons lane lanes ih =>
    rw [List.flatMap_cons, List.sum_append, ih, List.map_cons, List.sum_cons]
    simp only [tableSizes, List.sum_cons, List.sum_nil]
    omega

section
variable {u : Conversions} {z : StructSizes} {cfg : SpeedCfg} {t : Parsed}

/-- The light area of the result; without lanes nothing depends on it. -/
theorem Placed.flatMap_light {light : Dots} (placed : Placed u z cfg.bAuto light cfg.lanes t)
    (f : Nat → SpeedDetect → List Extent) :
    t.lanes.flatMap (f (t.light.x * t.light.y)) = t.lanes.flatMap (f (light.x * light.y)) := by
  by_cases none : cfg.lanes = []
  · have count : t.lanes.isEmpty = true := by rw [placed.isEmpty, none, List.isEmpty_nil]
    rw [List.isEmpty_iff.mp count, List.flatMap_nil, List.flatMap_nil]
  · rw [placed.lit none]

theorem Placed.cameraPieces_eq (placed : Placed u z cfg.bAuto (cfg.light u) cfg.lanes t) :
    t.cameraPieces z = carve z.camera (List.replicate maxLane z.lane ++
      cfg.lanes.flatMap (tableSizes z cfg.bAuto (cfg.lightDots u.corner))) := by
  rw [Parsed.cameraPieces, placed.flatMap_light (SpeedDetect.tables z), placed.tables, cfg.light_dots, carve_append,
    lanesCfgEntry_eq]
  simp [StructSizes.firstLane]

theorem Placed.tablesInside_iff (placed : Placed u z cfg.bAuto (cfg.light u) cfg.lanes t) :
    (∀ p ∈ t.cameraPieces z, p.Inside z.cameraCfgEntry) ↔ (cfg.lanes.map fun lane =>
        z.speedDetect + 4 * (lane.coilDots cfg.bAuto + lane.queueDots + cfg.lightDots u.corner)).sum ≤
      maxLane * z.speedDetect + detectRectMax * 4 := by
  have lanes : List.replicate maxLane z.lane ++ cfg.lanes.flatMap (tableSizes z cfg.bAuto (cfg.lightDots u.corner)) ≠ [] :=
    List.append_ne_nil_of_left_ne_nil (List.cons_ne_nil _ _) _
  have entries : (List.replicate maxLane z.lane).sum = maxLane * z.lane := by simp
  rw [placed.cameraPieces_eq, carve_inside_iff lanes, List.sum_append, entries, tableSizes_sum, StructSizes.cameraCfgEntry]
  simp only [maxLane]
  omega

/-- The writes are inside if the tables are. -/
theorem Placed.writes (placed : Placed u z cfg.bAuto (cfg.light u) cfg.lanes t) (written : Written t)
    (inside : ∀ p ∈ t.cameraPieces z, p.Inside z.cameraCfgEntry) : ∀ w ∈ t.written, w.Inside z.cameraCfgEntry := by
  have room := placed.tablesInside_iff.mp inside
  intro w member
  apply Nat.le_trans (written.below w member)
  rw [placed.cursor, cfg.light_dots, tableSizes_sum]
  simp only [StructSizes.firstLane, StructSizes.cameraCfgEntry, maxLane] at room ⊢
  omega

end

/-- The points of a lane. -/
def SpeedLane.points (lane : SpeedLane) : List CPoint :=
  [lane.ptFourCorner 0, lane.ptFourCorner 1, lane.ptFourCorner 2, lane.ptFourCorner 3, lane.ptCornerQ 0, lane.ptCornerQ 1,
    lane.ptCornerQA 0, lane.ptCornerQA 1, lane.ptCornerLB 0, lane.ptCornerLB 1, lane.ptCornerRB 0, lane.ptCornerRB 1]

/-- A lane by day whose coil and queue are between two columns and two rows. -/
def rectLane (left right top bottom : UInt16) : SpeedCfg where
  bAuto := 1
  lanes := [{
    ptFourCorner := ![⟨left, top⟩, ⟨right, top⟩, ⟨right, bottom⟩, ⟨left, bottom⟩]
    ptCornerQ := ![⟨left, top⟩, ⟨right, top⟩]
    ptCornerQA := ![⟨left, bottom⟩, ⟨right, bottom⟩]
    ptCornerLB := ![⟨left, top⟩, ⟨left, bottom⟩]
    ptCornerRB := ![⟨right, top⟩, ⟨right, bottom⟩] }]
  few := Nat.le_of_ble_eq_true rfl

def someSizes : StructSizes := ⟨1024, 512, 65536⟩

theorem rectLane_near : (rectLane 100 400 100 110).Near := by
  intro lane member
  cases List.mem_singleton.mp member
  decide

section
variable {z : StructSizes} {s : Parsed} {image : Nat} {coil queue light : Dots}

/-- A lane leaves the words of the lanes before it alone. -/
theorem storeLane_below {b : Nat} (below : b + 4 ≤ s.pSpeedDetect) :
    (storeLane z s (speedDetect z s.pSpeedDetect image coil queue) light).1 b = s.mem b := by
  have lane : putWords (putWords (wipe s.mem ⟨s.pSpeedDetect, z.speedDetect⟩) (s.pSpeedDetect + z.speedDetect) coil.stores)
      (s.pSpeedDetect + z.speedDetect + 4 * (coil.x * coil.y)) queue.stores b = s.mem b := by
    rw [putWords_below _ (by omega), putWords_below _ (by omega), wipe_below below]
  rw [storeLane]
  split
  · exact (putWords_below _ (by simp only [speedDetect]; omega)).trans lane
  · exact lane

theorem storeLane_coil (table : coil.Table) {e a : Nat} (stored : (e, a) ∈ coil.stores) :
    (storeLane z s (speedDetect z s.pSpeedDetect image coil queue) light).1 (s.pSpeedDetect + z.speedDetect + 4 * e) =
      some a := by
  have low : e < coil.x * coil.y := table.inside _ stored
  have lane : putWords (putWords (wipe s.mem ⟨s.pSpeedDetect, z.speedDetect⟩) (s.pSpeedDetect + z.speedDetect) coil.stores)
      (s.pSpeedDetect + z.speedDetect + 4 * (coil.x * coil.y)) queue.stores (s.pSpeedDetect + z.speedDetect + 4 * e) =
      some a := by
    rw [putWords_below _ (by omega), putWords_entry stored (table.single e a stored)]
  rw [storeLane]
  split
  · exact (putWords_below _ (by simp only [speedDetect]; omega)).trans lane
  · exact lane

theorem storeLane_queue (table : queue.Table) {e a : Nat} (stored : (e, a) ∈ queue.stores) :
    (storeLane z s (speedDetect z s.pSpeedDetect image coil queue) light).1
      (s.pSpeedDetect + z.speedDetect + 4 * (coil.x * coil.y) + 4 * e) = some a := by
  have low : e < queue.x * queue.y := table.inside _ stored
  have lane (m : WordMem) : putWords m (s.pSpeedDetect + z.speedDetect + 4 * (coil.x * coil.y)) queue.stores
      (s.pSpeedDetect + z.speedDetect + 4 * (coil.x * coil.y) + 4 * e) = some a :=
    putWords_entry stored (table.single e a stored)
  rw [storeLane]
  split
  · exact (putWords_below _ (by simp only [speedDetect]; omega)).trans (lane _)
  · exact lane _

theorem storeLane_light (table : light.Table) (first : s.lanes.isEmpty = true) {e a : Nat} (stored : (e, a) ∈ light.stores) :
    (storeLane z s (speedDetect z s.pSpeedDetect image coil queue) light).1
      (s.pSpeedDetect + z.speedDetect + 4 * (coil.x * coil.y) + 4 * (queue.x * queue.y) + 4 * e) = some a := by
  rw [storeLane, if_pos first]
  exact putWords_entry stored (table.single e a stored)

end

/-- A table holds what was stored in it, below the next lane. -/
def Parsed.Holds (s : Parsed) (place : Nat) (dots : Dots) : Prop :=
  ∀ e a, (e, a) ∈ dots.stores → place + 4 * e + 4 ≤ s.pSpeedDetect ∧ s.mem (place + 4 * e) = some a

/-- The tables of all lanes hold what was stored in them. -/
structure Kept (s : Parsed) : Prop where
  coil : ∀ d ∈ s.lanes, s.Holds d.coordinatePointer d.coil
  queue : ∀ d ∈ s.lanes, s.Holds d.coordinatePointerQ d.queue
  light : ∀ d ∈ s.lanes.head?, s.Holds d.colightPointer s.light

section
variable {u : Conversions} {z : StructSizes} {bAuto : Nat} {s : Parsed} {lane : SpeedLane}

theorem placeLane_holds {place : Nat} {dots : Dots} (held : s.Holds place dots) :
    (placeLane u z bAuto s lane).Holds place dots := by
  intro e a stored
  obtain ⟨below, value⟩ := held e a stored
  refine ⟨?_, (storeLane_below below).trans value⟩
  simp only [placeLane]
  omega

theorem placeLane_coil :
    (placeLane u z bAuto s lane).Holds (s.pSpeedDetect + z.speedDetect) (ptGetDot u lane.coil (coilCols bAuto)) := by
  intro e a stored
  have low := (ptGetDot_table u lane.coil (coilCols bAuto)).inside _ stored
  refine ⟨?_, storeLane_coil (ptGetDot_table _ _ _) stored⟩
  simp only [placeLane] at low ⊢
  omega

theorem placeLane_queue :
    (placeLane u z bAuto s lane).Holds (s.pSpeedDetect + z.speedDetect +
      4 * ((ptGetDot u lane.coil (coilCols bAuto)).x * (ptGetDot u lane.coil (coilCols bAuto)).y))
      (ptGetDot u lane.queue 200) := by
  intro e a stored
  have low := (ptGetDot_table u lane.queue 200).inside _ stored
  refine ⟨?_, storeLane_queue (ptGetDot_table _ _ _) stored⟩
  simp only [placeLane] at low ⊢
  omega

theorem placeLane_light (first : s.lanes.isEmpty = true) (old : s.light.Table) :
    (placeLane u z bAuto s lane).Holds (s.pSpeedDetect + z.speedDetect +
      4 * ((ptGetDot u lane.coil (coilCols bAuto)).x * (ptGetDot u lane.coil (coilCols bAuto)).y) +
      4 * ((ptGetDot u lane.queue 200).x * (ptGetDot u lane.queue 200).y)) (placeLane u z bAuto s lane).light := by
  intro e a stored
  have table := light_table (u := u) old z bAuto lane
  have low := table.inside _ stored
  refine ⟨?_, storeLane_light table first stored⟩
  simp only [placeLane] at low ⊢
  omega

theorem Kept.step (kept : Kept s) (old : s.light.Table) : Kept (placeLane u z bAuto s lane) := by
  constructor
  · intro d member
    rcases List.mem_append.mp member with before | new
    · exact placeLane_holds (kept.coil d before)
    · cases List.mem_singleton.mp new
      exact placeLane_coil
  · intro d member
    rcases List.mem_append.mp member with before | new
    · exact placeLane_holds (kept.queue d before)
    · cases List.mem_singleton.mp new
      exact placeLane_queue
  · intro d member
    cases first : s.lanes with
    | nil =>
      simp only [placeLane, first, List.nil_append, List.head?_cons, Option.mem_some_iff] at member
      subst member
      exact placeLane_light (List.isEmpty_iff.mpr first) old
    | cons d' lanes =>
      have same : (placeLane u z bAuto s lane).light = s.light := by
        simp only [placeLane, first, List.isEmpty_cons, Bool.false_eq_true, if_false]
      simp only [placeLane, first, List.cons_append, List.head?_cons, Option.mem_some_iff] at member
      rw [same]
      exact placeLane_holds (kept.light d (by rw [first, List.head?_cons, member]; rfl))

end

theorem kept_run (u : Conversions) (z : StructSizes) (cfg : SpeedCfg) :
    Kept (cfg.lanes.foldl (placeLane u z cfg.bAuto) (.start z)) := by
  have run : Kept (cfg.lanes.foldl (placeLane u z cfg.bAuto) (.start z)) ∧
      Written (cfg.lanes.foldl (placeLane u z cfg.bAuto) (.start z)) := by
    refine foldl_invariant (fun _ s => Kept s ∧ Written s) (fun _ _ _ => True)
      (fun _ _ lane inv _ => ⟨inv.1.step inv.2.light, inv.2.step u z cfg.bAuto lane⟩) ⟨⟨?_, ?_, ?_⟩, .start z⟩
      (fun _ _ _ _ => trivial) (List.append_nil cfg.lanes).symm
    · exact fun _ none => absurd none List.not_mem_nil
    · exact fun _ none => absurd none List.not_mem_nil
    · exact fun _ none => nomatch none
  exact run.1

/-- The first entries of a table were stored, with addresses in the frame. -/
def Dots.Stored (dots : Dots) (count : Nat) : Prop :=
  ∀ e, e < count → ∃ a, (e, a) ∈ dots.stores ∧ a < fullCols * fullRows

/-- `StoreCurImage` reads the first entries of a table: each of them is what `ptGetDot` stored there, and an address in
the frame. -/
def Parsed.Reads (t : Parsed) (place : Nat) (dots : Dots) (count : Nat) : Prop :=
  ∀ e, e < count → ∃ a, (e, a) ∈ dots.stores ∧ t.mem (place + 4 * e) = some a ∧ a < fullCols * fullRows

theorem Parsed.Holds.reads_iff {t : Parsed} {place count : Nat} {dots : Dots} (held : t.Holds place dots) :
    t.Reads place dots count ↔ dots.Stored count := by
  constructor
  · intro reads e low
    obtain ⟨a, stored, _, inside⟩ := reads e low
    exact ⟨a, stored, inside⟩
  · intro stored e low
    obtain ⟨a, there, inside⟩ := stored e low
    exact ⟨a, there, (held e a there).2, inside⟩

/-- All that `StoreCurImage` reads from the tables of the lanes, and the rows of `actual_distance` that are read. -/
structure Parsed.AddressesInside (t : Parsed) : Prop where
  coil : ∀ d ∈ t.lanes, t.Reads d.coordinatePointer d.coil d.detectDots
  queue : ∀ d ∈ t.lanes, t.Reads d.coordinatePointerQ d.queue d.queDetectDots
  light : ∀ d ∈ t.lanes.head?, t.Reads d.colightPointer t.light (t.light.x * t.light.y)
  rows : ∀ lane ∈ t.downSpeedCfg, ∀ y ∈ lane.actualRows, y < fullRows

section
variable {u : Conversions} {z : StructSizes} {cfg : SpeedCfg} {t : Parsed}

theorem Placed.coil_iff (placed : Placed u z cfg.bAuto (cfg.light u) cfg.lanes t) (kept : Kept t) :
    (∀ d ∈ t.lanes, t.Reads d.coordinatePointer d.coil d.detectDots) ↔
      ∀ lane ∈ cfg.lanes, (ptGetDot u lane.coil (coilCols cfg.bAuto)).Stored (lane.coilDots cfg.bAuto % 65536) := by
  have single : ∀ d ∈ t.lanes, (t.Reads d.coordinatePointer d.coil d.detectDots ↔
      d.coil.Stored (d.coil.x * d.coil.y % 65536)) := by
    intro d member
    rw [(kept.coil d member).reads_iff]
    obtain ⟨p, image, same⟩ := placed.fields d member
    rw [same]
    rfl
  rw [forall₂_congr single]
  apply placed.forall_coil fun coil => coil.Stored (coil.x * coil.y % 65536)

theorem Placed.queue_iff (placed : Placed u z cfg.bAuto (cfg.light u) cfg.lanes t) (kept : Kept t) :
    (∀ d ∈ t.lanes, t.Reads d.coordinatePointerQ d.queue d.queDetectDots) ↔
      ∀ lane ∈ cfg.lanes, (ptGetDot u lane.queue 200).Stored (lane.queueDots % 65536) := by
  have single : ∀ d ∈ t.lanes, (t.Reads d.coordinatePointerQ d.queue d.queDetectDots ↔
      d.queue.Stored (d.queue.x * d.queue.y % 65536)) := by
    intro d member
    rw [(kept.queue d member).reads_iff]
    obtain ⟨p, image, same⟩ := placed.fields d member
    rw [same]
    rfl
  rw [forall₂_congr single]
  apply placed.forall_queue fun queue => queue.Stored (queue.x * queue.y % 65536)

theorem Placed.light_iff (placed : Placed u z cfg.bAuto (cfg.light u) cfg.lanes t) (kept : Kept t) :
    (∀ d ∈ t.lanes.head?, t.Reads d.colightPointer t.light (t.light.x * t.light.y)) ↔
      ∀ lane ∈ cfg.lanes.head?, (ptGetDot u (lane.coil.aligned u.corner) 200).Stored (lane.lightDots u.corner) := by
  have empty := placed.isEmpty
  cases there : cfg.lanes with
  | nil =>
    rw [there] at empty
    rw [List.isEmpty_iff.mp empty]
    exact ⟨fun _ _ none => (nomatch none), fun _ _ none => (nomatch none)⟩
  | cons lane lanes =>
    rw [there] at empty
    obtain ⟨d, rest, some⟩ := List.exists_cons_of_ne_nil (List.isEmpty_eq_false_iff.mp empty)
    have lit : t.light = ptGetDot u (lane.coil.aligned u.corner) 200 := by
      rw [placed.lit (by rw [there]; exact List.cons_ne_nil _ _)]
      simp only [SpeedCfg.light, there]
    have first : d ∈ t.lanes.head? := by rw [some]; rfl
    have reads : t.Reads d.colightPointer t.light (t.light.x * t.light.y) ↔ t.light.Stored (t.light.x * t.light.y) :=
      (kept.light d first).reads_iff
    simp only [some, List.head?_cons, Option.mem_some_iff, forall_eq']
    rw [reads, lit]
    rfl

end

/-- The positions that are read for a lane are in the frame, and so are the rows between its points. -/
structure SpeedLane.Inside (lane : SpeedLane) (corner : Option ℚ → UInt16) (bAuto : Nat) : Prop where
  coil : ReadInFrame (lane.coil.aligned corner) (lane.coil.rows (coilCols bAuto)) (lane.coil.cols (coilCols bAuto))
    (lane.coilDots bAuto % 65536)
  queue : ReadInFrame (lane.queue.aligned corner) (lane.queue.rows 200) (lane.queue.cols 200) (lane.queueDots % 65536)
  rows : ∀ y ∈ (lane.adjusted (lane.coil.aligned corner) (lane.queue.aligned corner)).actualRows, y < fullRows

/-- The same for all lanes and for the light area of the first one. -/
structure SpeedCfg.Inside (cfg : SpeedCfg) (corner : Option ℚ → UInt16) : Prop where
  lanes : ∀ lane ∈ cfg.lanes, lane.Inside corner cfg.bAuto
  light : ∀ lane ∈ cfg.lanes.head?, ReadInFrame ((lane.coil.aligned corner).aligned corner)
    ((lane.coil.aligned corner).rows 200) ((lane.coil.aligned corner).cols 200) (lane.lightDots corner)

/-- What is read for one way the undefined conversions go. -/
theorem Placed.addresses_iff {u : Conversions} {z : StructSizes} {cfg : SpeedCfg} {t : Parsed}
    (placed : Placed u z cfg.bAuto (cfg.light u) cfg.lanes t) (kept : Kept t) :
    t.AddressesInside ↔
      (∀ lane ∈ cfg.lanes, (ptGetDot u lane.coil (coilCols cfg.bAuto)).Stored (lane.coilDots cfg.bAuto % 65536)) ∧
      (∀ lane ∈ cfg.lanes, (ptGetDot u lane.queue 200).Stored (lane.queueDots % 65536)) ∧
      (∀ lane ∈ cfg.lanes.head?, (ptGetDot u (lane.coil.aligned u.corner) 200).Stored (lane.lightDots u.corner)) ∧
      ∀ lane ∈ cfg.lanes, ∀ y ∈ (lane.adjusted (lane.coil.aligned u.corner) (lane.queue.aligned u.corner)).actualRows,
        y < fullRows := by
  have rows : (∀ lane ∈ t.downSpeedCfg, ∀ y ∈ lane.actualRows, y < fullRows) ↔ ∀ lane ∈ cfg.lanes,
      ∀ y ∈ (lane.adjusted (lane.coil.aligned u.corner) (lane.queue.aligned u.corner)).actualRows, y < fullRows := by
    rw [placed.corners, List.forall_mem_map]
  constructor
  · intro inside
    exact ⟨(placed.coil_iff kept).mp inside.coil, (placed.queue_iff kept).mp inside.queue,
      (placed.light_iff kept).mp inside.light, rows.mp inside.rows⟩
  · rintro ⟨coil, queue, light, low⟩
    exact ⟨(placed.coil_iff kept).mpr coil, (placed.queue_iff kept).mpr queue, (placed.light_iff kept).mpr light,
      rows.mpr low⟩

/-- **All addresses that are read are in the frame**, whatever the undefined conversions of the points give, exactly if
the positions are. -/
theorem addresses_inside_iff (corner : Option ℚ → UInt16) (z : StructSizes) {cfg : SpeedCfg} (near : cfg.Near) :
    (∀ sample t, cfgStructParse ⟨corner, sample⟩ z cfg = .ok t → t.AddressesInside) ↔ cfg.Inside corner := by
  have each (sample : Option ℚ → UInt16) := (placed_run ⟨corner, sample⟩ z cfg).addresses_iff (kept_run _ z cfg)
  have coil (lane : SpeedLane) := stored_iff corner lane.coil (two_le_coilCols cfg.bAuto)
    (Nat.mod_le (lane.coilDots cfg.bAuto) 65536)
  have queue (lane : SpeedLane) := stored_iff corner lane.queue (show 2 ≤ 200 by decide) (Nat.mod_le lane.queueDots 65536)
  have light (lane : SpeedLane) := stored_iff corner (lane.coil.aligned corner) (show 2 ≤ 200 by decide)
    (Nat.le_refl (lane.lightDots corner))
  constructor
  · intro all
    have inside (sample : Option ℚ → UInt16) := (each sample).mp (all sample _ (cfgStructParse_ok _ z near))
    refine ⟨fun lane member => ⟨?_, ?_, (inside fun _ => 0).2.2.2 lane member⟩, fun lane member => ?_⟩
    · exact (coil lane).mp fun sample => (inside sample).1 lane member
    · exact (queue lane).mp fun sample => (inside sample).2.1 lane member
    · exact (light lane).mp fun sample => (inside sample).2.2.1 lane member
  · intro inside sample t accepted
    obtain ⟨_, rfl⟩ := cfgStructParse_iff.mp accepted
    refine (each sample).mpr ⟨fun lane member => ?_, fun lane member => ?_, fun lane member => ?_, fun lane member => ?_⟩
    · exact (coil lane).mpr (inside.lanes lane member).coil sample
    · exact (queue lane).mpr (inside.lanes lane member).queue sample
    · exact (light lane).mpr (inside.light lane member) sample
    · exact (inside.lanes lane member).rows

theorem rectLane_inside : (rectLane 100 400 100 110).Inside fun _ => 0 := by
  constructor
  · intro lane member
    cases List.mem_singleton.mp member
    exact ⟨.of_corners (by decide +kernel) (by decide +kernel) (by decide +kernel),
      .of_corners (by decide +kernel) (by decide +kernel) (by decide +kernel), by decide +kernel⟩
  · rintro lane ⟨⟩
    exact .of_corners (by decide +kernel) (by decide +kernel) (by decide +kernel)

theorem rectLane_read_inside : (rectLane 100 400 100 110).Near ∧
    ∀ sample t, cfgStructParse ⟨fun _ => 0, sample⟩ someSizes (rectLane 100 400 100 110) = .ok t → t.AddressesInside :=
  ⟨rectLane_near, (addresses_inside_iff _ someSizes rectLane_near).mpr rectLane_inside⟩

/-- The last column of this coil is at 700, which is accepted and for which nothing is stored. -/
theorem farLane_read_outside : (rectLane 100 700 100 110).Near ∧
    ¬∀ sample t, cfgStructParse ⟨fun _ => 0, sample⟩ someSizes (rectLane 100 700 100 110) = .ok t → t.AddressesInside := by
  have near : (rectLane 100 700 100 110).Near := by
    intro lane member
    cases List.mem_singleton.mp member
    decide
  refine ⟨near, fun all => ?_⟩
  have stored (sample : Option ℚ → UInt16) := ((placed_run ⟨fun _ => 0, sample⟩ someSizes _).addresses_iff
    (kept_run _ _ _)).mp (all sample _ (cfgStructParse_ok _ _ near))
  have inside := (stored_iff _ _ (two_le_coilCols _) (Nat.mod_le _ _)).mp fun sample =>
    (stored sample).1 _ List.mem_cons_self
  have corner := inside.columns (0, 19) (by decide +kernel)
  exact absurd corner.2 (by decide +kernel)

end VideoDetector.Alg
