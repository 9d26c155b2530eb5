import Mathlib.Logic.Function.Basic
import VideoDetector.Lib.Runs

/-!
# The statistics of a minute (`calculate_60s` in `fvd-new/sig_service.c`)

The loop over the lanes of a camera has `NANJING_LANE_MAX` passes, but `lane_data` has four entries; and each flow is divided
by before it is stored. `statistics_iff` says that no camera with data gets its statistics.
-/

namespace VideoDetector.Signal
set_option autoImplicit false
open Lib

abbrev nanjingCamNum : Nat := 4

abbrev nanjingLaneMax : Nat := 8

/-- `l_d_t`, what is read of it. -/
structure LaneData where
  existDuration : Int
  passNumber : Int
  speedSum : Int

/-- `data_60s_t`. -/
structure Data60s where
  dataValid : Int
  laneData : Fin 4 → LaneData

/-- `flow_info_t`, what is written of it. -/
structure FlowInfo where
  flow : Fin nanjingLaneMax → UInt8
  averageSpeed : Fin nanjingLaneMax → UInt8
  ocuppyPercent : Fin nanjingLaneMax → UInt8

inductive StatisticsFault where
  | laneOutside (j : Nat)
  | dividesByZero
  deriving DecidableEq

/-- `(unsigned char)d60[i].lane_data[j].exist_duration*100/60`, as it is stored. -/
def ocuppyValue (l : LaneData) : UInt8 := UInt8.ofNat ((UInt8.ofInt l.existDuration).toNat * 100 / 60)

/-- `(unsigned char)d60[i].lane_data[j].speed_sum/flow_data[i].flow[j]`. -/
def speedQuotient (l : LaneData) (flow : UInt8) : Except StatisticsFault UInt8 :=
  if flow = 0 then .error .dividesByZero else .ok (UInt8.ofInt l.speedSum / flow)

/-- A pass of the inner loop. -/
def laneStatistics (d : Data60s) (f : FlowInfo) (j : Fin nanjingLaneMax) : Except StatisticsFault FlowInfo :=
  if inside : j.1 < 4 then do
    let l := d.laneData ⟨j, inside⟩
    let averageSpeed ← speedQuotient l (f.flow j)
    let flow ← speedQuotient l (f.flow j)
    return ⟨Function.update f.flow j flow, Function.update f.averageSpeed j averageSpeed,
      Function.update f.ocuppyPercent j (ocuppyValue l)⟩
  else .error (.laneOutside j)

section
variable (d60 : Fin nanjingCamNum → Data60s)

/-- A pass of the outer loop. -/
def cameraStatistics (flowData : Fin nanjingCamNum → FlowInfo) (i : Fin nanjingCamNum) :
    Except StatisticsFault (Fin nanjingCamNum → FlowInfo) :=
  if (d60 i).dataValid ≠ 0 then do
    return Function.update flowData i (← (List.finRange nanjingLaneMax).foldlM (laneStatistics (d60 i)) (flowData i))
  else .ok flowData

/-- `calculate_60s`. -/
def calculate60s (flowData : Fin nanjingCamNum → FlowInfo) : Except StatisticsFault (Fin nanjingCamNum → FlowInfo) :=
  (List.finRange nanjingCamNum).foldlM (cameraStatistics d60) flowData

end

/-- The statistics of a lane, with the number of vehicles as the divisor. -/
structure LaneRight (l : LaneData) (f : FlowInfo) (j : Fin nanjingLaneMax) : Prop where
  ocuppyPercent : ((f.ocuppyPercent j).toNat : Int) = 100 * l.existDuration / 60 ∧ (f.ocuppyPercent j).toNat ≤ 100
  averageSpeed : ((f.averageSpeed j).toNat : Int) = if l.passNumber = 0 then 0 else l.speedSum / l.passNumber
  flow : ((f.flow j).toNat : Int) = l.passNumber

/-- The call ends, and every lane of a camera with data has its statistics. -/
def StatisticsRight (d60 : Fin nanjingCamNum → Data60s) (flowData : Fin nanjingCamNum → FlowInfo) : Prop :=
  ∃ after, calculate60s d60 flowData = .ok after ∧
    ∀ i, (d60 i).dataValid ≠ 0 → ∀ j : Fin 4, LaneRight ((d60 i).laneData j) (after i) (j.castLE (by decide))

/-! ## One lane -/

theorem ocuppyValue_eq {l : LaneData} (present : 0 ≤ l.existDuration) (short : l.existDuration ≤ 60) :
    ((ocuppyValue l).toNat : Int) = 100 * l.existDuration / 60 ∧ (ocuppyValue l).toNat ≤ 100 := by
  obtain ⟨seconds, same⟩ := Int.eq_ofNat_of_zero_le present
  have byte : (UInt8.ofInt l.existDuration).toNat = seconds := by
    rw [UInt8.ofInt, UInt8.toNat_ofNat']
    omega
  have small : (ocuppyValue l).toNat = seconds * 100 / 60 := by
    rw [ocuppyValue, UInt8.toNat_ofNat', byte]
    omega
  rw [small, same]
  omega

/-- A pass for a lane that there is. -/
theorem laneStatistics_inside (d : Data60s) (f : FlowInfo) (j : Fin 4) :
    laneStatistics d f (j.castLE (by decide)) = do
      let averageSpeed ← speedQuotient (d.laneData j) (f.flow (j.castLE (by decide)))
      let flow ← speedQuotient (d.laneData j) (f.flow (j.castLE (by decide)))
      return ⟨Function.update f.flow (j.castLE (by decide)) flow, Function.update f.averageSpeed (j.castLE (by decide)) averageSpeed,
        Function.update f.ocuppyPercent (j.castLE (by decide)) (ocuppyValue (d.laneData j))⟩ := dif_pos j.2

/-- **A lane** with something present for at most a minute gets its statistics exactly if its old flow, which is the divisor,
is not zero, and the quotient is both the average speed and the number of vehicles. -/
theorem laneStatistics_iff (d : Data60s) (f : FlowInfo) (j : Fin 4) (present : 0 ≤ (d.laneData j).existDuration)
    (short : (d.laneData j).existDuration ≤ 60) :
    (∃ f', laneStatistics d f (j.castLE (by decide)) = .ok f' ∧ LaneRight (d.laneData j) f' (j.castLE (by decide))) ↔
      ∃ q, speedQuotient (d.laneData j) (f.flow (j.castLE (by decide))) = .ok q ∧ (q.toNat : Int) = (d.laneData j).passNumber ∧
        (q.toNat : Int) = if (d.laneData j).passNumber = 0 then 0 else (d.laneData j).speedSum / (d.laneData j).passNumber := by
  rw [laneStatistics_inside]
  constructor
  · rintro ⟨f', done, right⟩
    obtain ⟨q, first, done⟩ := bind_ok done
    obtain ⟨q', second, done⟩ := bind_ok done
    cases first.symm.trans second
    cases done
    have speed := right.averageSpeed
    have flow := right.flow
    simp only [Function.update_self] at speed flow
    exact ⟨q, first, flow, speed⟩
  · rintro ⟨q, quotient, flow, speed⟩
    rw [quotient]
    refine ⟨_, rfl, ?_, ?_, ?_⟩ <;> simp only [Function.update_self]
    · exact ocuppyValue_eq present short
    · exact speed
    · exact flow

/-! ## All lanes -/

/-- The fifth pass is outside `lane_data`, if no earlier one divides by zero. -/
theorem lanes_fault (d : Data60s) (f f' : FlowInfo) : (List.finRange nanjingLaneMax).foldlM (laneStatistics d) f ≠ .ok f' := by
  intro run
  have lanes : List.finRange nanjingLaneMax = [0, 1, 2, 3] ++ 4 :: [5, 6, 7] := by decide
  rw [lanes] at run
  obtain ⟨g, _, later⟩ := foldlM_append_ok run
  rw [List.foldlM_cons] at later
  obtain ⟨g', fifth, _⟩ := bind_ok later
  cases fifth

theorem cameraStatistics_iff (d60 : Fin nanjingCamNum → Data60s) (flowData : Fin nanjingCamNum → FlowInfo) (i : Fin nanjingCamNum) :
    (∃ after, cameraStatistics d60 flowData i = .ok after) ↔ (d60 i).dataValid = 0 := by
  constructor
  · rintro ⟨after, done⟩
    by_contra valid
    rw [cameraStatistics, if_pos valid] at done
    obtain ⟨f, run, _⟩ := bind_ok done
    exact lanes_fault _ _ _ run
  · intro invalid
    exact ⟨flowData, if_neg (not_not_intro invalid)⟩

/-- **The statistics of a minute** are right exactly if no camera has data. -/
theorem statistics_iff (d60 : Fin nanjingCamNum → Data60s) (flowData : Fin nanjingCamNum → FlowInfo) :
    StatisticsRight d60 flowData ↔ ∀ i, (d60 i).dataValid = 0 := by
  have ends : (∃ after, calculate60s d60 flowData = .ok after) ↔ ∀ i, (d60 i).dataValid = 0 := by
    apply (foldlM_each_iff (cameraStatistics_iff d60)).trans
    exact ⟨fun all i => all i (List.mem_finRange i), fun all i _ => all i⟩
  constructor
  · rintro ⟨after, done, _⟩
    exact ends.mp ⟨after, done⟩
  · intro invalid
    obtain ⟨after, done⟩ := ends.mpr invalid
    exact ⟨after, done, fun i valid => absurd (invalid i) valid⟩

/-- A vehicle with speed 50 in the first lane, all flows 1: the fifth lane is read. -/
theorem oneVehicle_outside :
    calculate60s (fun _ => ⟨1, fun _ => ⟨3, 1, 50⟩⟩) (fun _ => ⟨fun _ => 1, fun _ => 0, fun _ => 0⟩) = .error (.laneOutside 4) ∧
      calculate60s (fun _ => ⟨1, fun _ => ⟨0, 0, 0⟩⟩) (fun _ => ⟨fun _ => 0, fun _ => 0, fun _ => 0⟩) = .error .dividesByZero ∧
      ¬StatisticsRight (fun _ => ⟨1, fun _ => ⟨3, 1, 50⟩⟩) (fun _ => ⟨fun _ => 1, fun _ => 0, fun _ => 0⟩) := by
  have outside : calculate60s (fun _ => ⟨1, fun _ => ⟨3, 1, 50⟩⟩) (fun _ => ⟨fun _ => 1, fun _ => 0, fun _ => 0⟩) =
    .error (.laneOutside 4) := rfl
  refine ⟨outside, rfl, ?_⟩
  rintro ⟨after, done, _⟩
  cases outside.symm.trans done

end VideoDetector.Signal
