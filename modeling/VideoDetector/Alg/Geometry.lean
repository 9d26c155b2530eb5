import Mathlib.Data.Fin.VecNotation
import Mathlib.Data.Fintype.Basic
import Mathlib.Tactic.FinCases
import VideoDetector.Alg.DayNight
import VideoDetector.Lib.Runs

/-!
# The lanes that are handed over (`fvd-new/cam_alg.c`, `fvd-new/alg-mutilthread/VC_DSP_TRANSFORM.cpp`)

`init_alg_dsp` writes twelve points for each lane into the flat array `m_ptEnd`, and `transform_init_DSP_VC` reads
them back into the lanes of the algorithm. The arrays of the configuration have room for four lanes, the lane count
is a byte that nothing checks.
-/

namespace VideoDetector.Alg
set_option autoImplicit false
open Lib
open Config (Object wordAt zeroObj detectLaneNumMax laneLineMax)

/-- `CPoint`. -/
structure CPoint where
  x : UInt16
  y : UInt16
  deriving DecidableEq, Repr, Inhabited

/-- What `transform_init_DSP_VC` sets of a `SPEEDLANE`. -/
structure SpeedLane where
  ptFourCorner : Fin 4 → CPoint
  ptCornerQ : Fin 2 → CPoint
  ptCornerQA : Fin 2 → CPoint
  ptCornerLB : Fin 2 → CPoint
  ptCornerRB : Fin 2 → CPoint
  deriving Inhabited

/-- The array that was accessed outside its bounds. -/
inductive GeometryFault where
  | virtuallane (index : Nat)
  | laneline (index : Nat)
  | ptEnd (index : Nat)
  | speedEachLane (index : Nat)
  deriving DecidableEq, Repr

/-! ## The configured points -/

/-- Two `unsigned short` of the detection parameters. -/
def pointAt (det : Object .mCamDetectParam) (off : Nat) : CPoint :=
  ⟨UInt16.ofNat (wordAt det.1 off 2), UInt16.ofNat (wordAt det.1 (off + 2) 2)⟩

/-- Where `virtuallane[i]` is. -/
def virtuallane (i : Nat) : Nat :=
  Config.mCamDetectParam.detectlane + Config.mCamDetectLane.virtuallane + i * Config.mChannelCoil.layout.size

/-- `virtuallane[i].RearCoil[k]`. -/
def rearCoil (det : Object .mCamDetectParam) (i k : Nat) : CPoint :=
  pointAt det (virtuallane i + Config.mChannelCoil.RearCoil + k * Config.mPoint.layout.size)

/-- `virtuallane[i].FrontCoil[k]`. -/
def frontCoil (det : Object .mCamDetectParam) (i k : Nat) : CPoint :=
  pointAt det (virtuallane i + Config.mChannelCoil.FrontCoil + k * Config.mPoint.layout.size)

/-- Where `laneline[j]` is. -/
def laneline (j : Nat) : Nat :=
  Config.mCamDetectParam.laneline + Config.mVirtualLaneLine.laneline + j * Config.mLine.layout.size

/-- `startx` and `starty` of `laneline[j]`. -/
def lineStart (det : Object .mCamDetectParam) (j : Nat) : CPoint := pointAt det (laneline j + Config.mLine.startx)

/-- `endx` and `endy` of `laneline[j]`. -/
def lineEnd (det : Object .mCamDetectParam) (j : Nat) : CPoint := pointAt det (laneline j + Config.mLine.endx)

/-! ## The flat array -/

/-- `m_ptEnd` has 48 points. -/
def ptEndMax : Nat := 48

/-- `MAX_LANE`. -/
def maxLane : Nat := 8

/-- An entry of an array that holds so many. -/
def entry {α : Type} (fault : Nat → GeometryFault) (room : Nat) (array : Nat → α) (k : Nat) : Except GeometryFault α :=
  if k < room then .ok (array k) else .error (fault k)

/-- An entry of an array is written. -/
def putEntry {α : Type} (fault : Nat → GeometryFault) (room : Nat) (array : Nat → α) (k : Nat) (a : α) :
    Except GeometryFault (Nat → α) :=
  if k < room then .ok (Function.update array k a) else .error (fault k)

/-- The points of lane `i` in `lane_pos_init`. -/
def lanePos (det : Object .mCamDetectParam) (m : Nat → CPoint) (i : Nat) : Except GeometryFault (Nat → CPoint) := do
  let tmplineStart := entry .laneline laneLineMax (lineStart det)
  let tmplineEnd := entry .laneline laneLineMax (lineEnd det)
  let front ← entry .virtuallane detectLaneNumMax (frontCoil det) i
  let rear ← entry .virtuallane detectLaneNumMax (rearCoil det) i
  let m ← putEntry .ptEnd ptEndMax m (0 + i * 12) (← tmplineStart (i * 2))
  let m ← putEntry .ptEnd ptEndMax m (2 + i * 12) (← tmplineStart (i * 2 + 1))
  let m ← putEntry .ptEnd ptEndMax m (4 + i * 12) (front 1)
  let m ← putEntry .ptEnd ptEndMax m (5 + i * 12) (front 2)
  let m ← putEntry .ptEnd ptEndMax m (6 + i * 12) (front 0)
  let m ← putEntry .ptEnd ptEndMax m (7 + i * 12) (front 3)
  let m ← putEntry .ptEnd ptEndMax m (8 + i * 12) (rear 1)
  let m ← putEntry .ptEnd ptEndMax m (9 + i * 12) (rear 2)
  let m ← putEntry .ptEnd ptEndMax m (10 + i * 12) (rear 0)
  let m ← putEntry .ptEnd ptEndMax m (11 + i * 12) (rear 3)
  let m ← putEntry .ptEnd ptEndMax m (1 + i * 12) (← tmplineEnd (i * 2))
  putEntry .ptEnd ptEndMax m (3 + i * 12) (← tmplineEnd (i * 2 + 1))

/-- `lane_pos_init`. -/
def lanePosInit (det : Object .mCamDetectParam) (m : Nat → CPoint) (lanenum : Nat) : Except GeometryFault (Nat → CPoint) :=
  (List.range lanenum).foldlM (lanePos det) m

/-- Lane `i` in `transform_init_DSP_VC`. -/
def transformLane (m : Nat → CPoint) (speedEachLane : Nat → SpeedLane) (i : Nat) : Except GeometryFault (Nat → SpeedLane) := do
  let ptEnd := entry .ptEnd ptEndMax m
  let corners ← pure ![← ptEnd (8 + i * 12), ← ptEnd (9 + i * 12), ← ptEnd (11 + i * 12), ← ptEnd (10 + i * 12)]
  let q ← pure ![← ptEnd (4 + i * 12), ← ptEnd (5 + i * 12)]
  let qa ← pure ![← ptEnd (6 + i * 12), ← ptEnd (7 + i * 12)]
  let lb ← pure ![← ptEnd (0 + i * 12), ← ptEnd (1 + i * 12)]
  let rb ← pure ![← ptEnd (2 + i * 12), ← ptEnd (3 + i * 12)]
  putEntry .speedEachLane maxLane speedEachLane i ⟨corners, q, qa, lb, rb⟩

/-- The lanes that `init_alg_dsp` hands to the algorithm. -/
def initLanes (det : Object .mCamDetectParam) : Except GeometryFault (Nat → SpeedLane) := do
  let m ← lanePosInit det (fun _ => ⟨0, 0⟩) (lanenum det)
  (List.range (lanenum det)).foldlM (transformLane m) fun _ => default

/-! ## What is handed over -/

/-- The points of a lane in `m_ptEnd`. -/
def lanePoint (det : Object .mCamDetectParam) (i : Nat) : Fin 12 → CPoint :=
  ![lineStart det (i * 2), lineEnd det (i * 2), lineStart det (i * 2 + 1), lineEnd det (i * 2 + 1), frontCoil det i 1,
    frontCoil det i 2, frontCoil det i 0, frontCoil det i 3, rearCoil det i 1, rearCoil det i 2, rearCoil det i 0,
    rearCoil det i 3]

/-- The configured lane: the coils from the second point on, and the two lines. -/
def configuredLane (det : Object .mCamDetectParam) (i : Nat) : SpeedLane where
  ptFourCorner := ![rearCoil det i 1, rearCoil det i 2, rearCoil det i 3, rearCoil det i 0]
  ptCornerQ := ![frontCoil det i 1, frontCoil det i 2]
  ptCornerQA := ![frontCoil det i 0, frontCoil det i 3]
  ptCornerLB := ![lineStart det (i * 2), lineEnd det (i * 2)]
  ptCornerRB := ![lineStart det (i * 2 + 1), lineEnd det (i * 2 + 1)]

theorem entry_ok {α : Type} {fault : Nat → GeometryFault} {room k : Nat} {array : Nat → α} (inside : k < room) :
    entry fault room array k = .ok (array k) := if_pos inside

theorem putEntry_ok {α : Type} {fault : Nat → GeometryFault} {room k : Nat} {array : Nat → α} {a : α} (inside : k < room) :
    putEntry fault room array k a = .ok (Function.update array k a) := if_pos inside

/-- What a lane writes, in the order of `lane_pos_init`. -/
def laneStores (det : Object .mCamDetectParam) (i : Nat) : List (Nat × CPoint) :=
  [(0, lineStart det (i * 2)), (2, lineStart det (i * 2 + 1)), (4, frontCoil det i 1), (5, frontCoil det i 2),
    (6, frontCoil det i 0), (7, frontCoil det i 3), (8, rearCoil det i 1), (9, rearCoil det i 2), (10, rearCoil det i 0),
    (11, rearCoil det i 3), (1, lineEnd det (i * 2)), (3, lineEnd det (i * 2 + 1))]

theorem lanePos_eq {det : Object .mCamDetectParam} {i : Nat} (low : i < 4) (m : Nat → CPoint) :
    lanePos det m i = .ok ((laneStores det i).foldl (fun m s => Function.update m (s.1 + i * 12) s.2) m) := by
  have lane : i < detectLaneNumMax := low
  have left : i * 2 < laneLineMax := by simp only [laneLineMax]; omega
  have right : i * 2 + 1 < laneLineMax := by simp only [laneLineMax]; omega
  have room (k : Nat) (small : k < 12) : k + i * 12 < ptEndMax := by simp only [ptEndMax]; omega
  have first : i * 12 < ptEndMax := by simpa using room 0
  simp [lanePos, laneStores, entry_ok lane, entry_ok left, entry_ok right, putEntry_ok, room, first]

/-- A lane writes its own twelve points. -/
theorem laneStores_spec (det : Object .mCamDetectParam) (i : Nat) (m : Nat → CPoint) :
    (∀ k : Fin 12, (laneStores det i).foldl (fun m s => Function.update m (s.1 + i * 12) s.2) m (k + i * 12) =
        lanePoint det i k) ∧
      ∀ a, a < i * 12 → (laneStores det i).foldl (fun m s => Function.update m (s.1 + i * 12) s.2) m a = m a := by
  constructor
  · intro k
    fin_cases k <;> simp [laneStores, lanePoint]
  · intro a low
    have other (k : Nat) : a ≠ k + i * 12 := by omega
    simp only [laneStores, List.foldl_cons, List.foldl_nil, Function.update_of_ne (other _)]

/-- `m_ptEnd` holds the points of the first lanes. -/
def LanesStored (det : Object .mCamDetectParam) (n : Nat) (m : Nat → CPoint) : Prop :=
  ∀ j, j < n → ∀ k : Fin 12, m (k + j * 12) = lanePoint det j k

theorem lanePosInit_ok {det : Object .mCamDetectParam} {n : Nat} (few : n ≤ 4) (m : Nat → CPoint) :
    ∃ m', lanePosInit det m n = .ok m' ∧ LanesStored det n m' := by
  apply foldlM_range_ok (LanesStored det) ?_ fun j none => absurd none (Nat.not_lt_zero j)
  intro i m low stored
  obtain ⟨own, others⟩ := laneStores_spec det i m
  refine ⟨_, lanePos_eq (by omega) m, fun j up k => ?_⟩
  rcases Nat.lt_succ_iff_lt_or_eq.mp up with before | rfl
  · rw [others _ (by omega)]
    exact stored j before k
  · exact own k

theorem transformLane_ok {det : Object .mCamDetectParam} {n i : Nat} (few : n ≤ 4) (low : i < n) {m : Nat → CPoint}
    (stored : LanesStored det n m) (lanes : Nat → SpeedLane) :
    transformLane m lanes i = .ok (Function.update lanes i (configuredLane det i)) := by
  have room (k : Nat) (small : k < 12) : k + i * 12 < ptEndMax := by simp only [ptEndMax]; omega
  have lane : i < maxLane := by simp only [maxLane]; omega
  have point (k : Nat) (small : k < 12) : entry .ptEnd ptEndMax m (k + i * 12) = .ok (lanePoint det i ⟨k, small⟩) := by
    rw [entry_ok (room k small)]
    exact congrArg Except.ok (stored i low ⟨k, small⟩)
  rw [transformLane]
  simp only [point, Nat.reduceLT, ok_bind, putEntry_ok lane]
  rfl

theorem initLanes_ok {det : Object .mCamDetectParam} (few : lanenum det ≤ 4) :
    ∃ lanes, initLanes det = .ok lanes ∧ ∀ i, i < lanenum det → lanes i = configuredLane det i := by
  obtain ⟨m, stored, points⟩ := lanePosInit_ok few fun _ => ⟨0, 0⟩
  rw [initLanes, stored, ok_bind]
  apply foldlM_range_ok (fun n (lanes : Nat → SpeedLane) => ∀ i, i < n → lanes i = configuredLane det i) ?_
    fun j none => absurd none (Nat.not_lt_zero j)
  intro i lanes low before
  refine ⟨_, transformLane_ok few low points lanes, fun j up => ?_⟩
  rcases Nat.lt_succ_iff_lt_or_eq.mp up with earlier | rfl
  · rw [Function.update_of_ne (by omega)]
    exact before j earlier
  · exact Function.update_self _ _ _

/-- The fifth lane is read behind the configured coils. -/
theorem initLanes_error {det : Object .mCamDetectParam} (many : 4 < lanenum det) :
    initLanes det = .error (.virtuallane 4) := by
  obtain ⟨m, stored, _⟩ := @lanePosInit_ok det 4 (Nat.le_refl 4) fun _ => ⟨0, 0⟩
  have fault : lanePos det m 4 = .error (.virtuallane 4) := rfl
  rw [initLanes, lanePosInit, foldlM_range_error stored fault many]
  rfl

/-- **The lanes are handed over as they are configured** exactly if there are at most four of them. -/
theorem lanes_handed_over_iff (det : Object .mCamDetectParam) :
    (∃ lanes, initLanes det = .ok lanes ∧ ∀ i, i < lanenum det → lanes i = configuredLane det i) ↔ lanenum det ≤ 4 := by
  constructor
  · rintro ⟨lanes, done, _⟩
    by_contra many
    rw [initLanes_error (Nat.lt_of_not_le many)] at done
    cases done
  · exact initLanes_ok

/-- Detection parameters with five lanes. -/
def fiveLanes : Object .mCamDetectParam :=
  ⟨(zeroObj .mCamDetectParam).1.set (Config.mCamDetectParam.detectlane + Config.mCamDetectLane.lanenum) 5, by
    rw [List.length_set, (zeroObj .mCamDetectParam).2]⟩

theorem fiveLanes_overrun :
    ¬ ∃ lanes, initLanes fiveLanes = .ok lanes ∧ ∀ i, i < lanenum fiveLanes → lanes i = configuredLane fiveLanes i := by
  rintro ⟨lanes, done, _⟩
  rw [initLanes_error (show 4 < lanenum fiveLanes by decide)] at done
  cases done

end VideoDetector.Alg
