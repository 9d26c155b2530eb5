import VideoDetector.Signal.Status

/-!
# The data for the signal machine (`pack_sig_data` in `fvd-new/cam_alg.c`)

After each frame the outputs of the algorithm are packed into `holder[index].traffic_rst`. Every twelfth
frame the lane data and the status of the camera are renewed, and `camera_state_change` is raised where
the status is found changed. The divisions by 12 and the factor 0.4 are exact.
-/

namespace VideoDetector.Signal
set_option autoImplicit false
open Lib
open Config (Object wordAt activeCamNum)

/-- `CHANNELMAXNUM`. -/
def channelMaxNum : Nat := 4

/-- The entries of `car_info` for a lane. -/
structure CarInfo where
  gFlow : Int
  g50frame1 : Int
  g50frame2 : Int
  g50frametail1 : Int
  g50frametail2 : Int
  gOccupancyframe : Int
  gOccupancyframetail : Int
  deriving Inhabited

/-- `mDetectDataOfHeaderVirtualCoil`. -/
structure HeaderCoil where
  bOccupyStatus0 : BitVec 1
  bOccupyStatus1 : BitVec 1
  bFix0 : BitVec 2
  flow : BitVec 2
  bVehicleType : BitVec 2
  deriving Inhabited

/-- `mDetectDataOfTailVirtualCoil`. -/
structure TailCoil where
  bOccupyStatus0 : BitVec 1
  bOccupyStatus1 : BitVec 1
  bFix0 : BitVec 6
  deriving Inhabited

structure EachChannelPack where
  mDetectChannelIndex : UInt8
  mQueueLength : UInt8
  mRealTimeSingleSpeed : UInt8
  mDetectDataOfHeaderVirtualCoil : HeaderCoil
  mHeadwayTimeOfHeaderVirtualCoil : UInt8
  mOccupancyOfHeaderVirtualCoil : UInt8
  mDetectDataOfTailVirtualCoil : TailCoil
  mHeadwayTimeOfTailVirtualCoil : UInt8
  mOccupancyOfTailVirtualCoil : UInt8
  bDataIsValid : BitVec 1
  deriving Inhabited

/-- `m_sig_data`. -/
structure StaticChannel extends SigData where
  eachchannel : Fin channelMaxNum → EachChannelPack
  cameraStateChange : Bool
  laneNum : Nat
  carInfo : Fin channelMaxNum → CarInfo
  deriving Inhabited

/-- The outputs of the algorithm for a lane. -/
structure LaneOut where
  calarflag : UInt32
  isCarInTail : Bool
  uVehicleQueueLength : UInt16
  uVehicleSpeed : UInt16
  uVehicleLength : UInt16
  detectOutSum : Int
  getQuebackFlag : Bool
  deriving Inhabited

/-- What is read of `algparam[index]` after a frame. The arrays have room for `CHANNELMAXNUM` lanes. -/
structure AlgOutput where
  framecount : Int
  algIndex : Int
  uEnvironmentStatus : Int
  algNum : Nat
  fits : algNum ≤ channelMaxNum
  lane : Fin channelMaxNum → LaneOut
  fuzzyflag : Bool
  visibility : Bool

def AlgOutput.lanes (out : AlgOutput) : List (Fin channelMaxNum) := (List.finRange out.algNum).map (Fin.castLE out.fits)

/-- `channelcoil[i].number`. -/
def channelNumber (p : Object .mCamParam) (i : Fin channelMaxNum) : Nat :=
  wordAt p.1 (Config.mCamParam.channelcoil + i * Config.mChannelVirtualcoil.layout.size + Config.mChannelVirtualcoil.number) 2

/-! ## Counting -/

/-- The first loop of `pack_sig_data`. The head coil decides also for the tail. -/
def countLane (framecount : Int) (out : LaneOut) (info : CarInfo) : CarInfo :=
  let info :=
    if out.calarflag = 0x2 then
      if info.g50frame1 = 0 then { info with g50frame1 := framecount }
      else { info with g50frame2 := info.g50frame1, g50frame1 := framecount }
    else if out.calarflag = 0x1 then { info with gOccupancyframe := info.gOccupancyframe + 1 }
    else info
  if out.isCarInTail then
    let info :=
      if info.g50frame1 = 0 then { info with g50frametail1 := framecount }
      else { info with g50frametail2 := info.g50frametail1, g50frametail1 := framecount }
    { info with gOccupancyframetail := info.gOccupancyframetail + 1 }
  else info

/-! ## Lanes -/

/-- The headway between two frames, stored in a byte. -/
def headway (frame1 frame2 : Int) : UInt8 :=
  if frame1 ≠ 0 ∧ frame2 ≠ 0 then
    let time := UInt8.ofInt ((frame1 - frame2) * 4 / 10)
    if 254 < time then 255 else time
  else 0

/-- The occupancy of a lane in percent, stored in a byte. -/
def occupancy (frames : Int) : UInt8 := if frames ≠ 0 then UInt8.ofInt (frames * 100 / 12) else 0

def vehicleType (out : LaneOut) : BitVec 2 :=
  if out.calarflag ≠ 0 then
    if 7 < out.uVehicleLength then 0x3 else if 5 < out.uVehicleLength then 0x2 else 0x1
  else 0x0

/-- The data of a lane at a reporting frame. The flow has two bits only. -/
def reportLane (number : Nat) (out : AlgOutput) (lane : LaneOut) (info : CarInfo) (channel : EachChannelPack) :
    EachChannelPack :=
  let index := UInt8.ofNat number
  { mDetectChannelIndex := if index < 41 ∧ 96 < index then 255 else index
    mQueueLength := lane.uVehicleQueueLength.toUInt8
    mRealTimeSingleSpeed := lane.uVehicleSpeed.toUInt8
    mDetectDataOfHeaderVirtualCoil :=
      { channel.mDetectDataOfHeaderVirtualCoil with
        bOccupyStatus1 := if lane.calarflag = 0x1 then 1 else 0
        bFix0 := 0
        flow :=
          if info.gFlow = 0 then channel.mDetectDataOfHeaderVirtualCoil.flow
          else
            let flow := BitVec.ofInt 2 (lane.detectOutSum - info.gFlow)
            if 3 < flow then 3 else flow
        bVehicleType := vehicleType lane }
    mHeadwayTimeOfHeaderVirtualCoil := headway info.g50frame1 info.g50frame2
    mOccupancyOfHeaderVirtualCoil := occupancy info.gOccupancyframe
    mDetectDataOfTailVirtualCoil :=
      { channel.mDetectDataOfTailVirtualCoil with
        bOccupyStatus1 := BitVec.ofBool lane.isCarInTail
        bFix0 := 0 }
    mHeadwayTimeOfTailVirtualCoil := headway info.g50frametail1 info.g50frametail2
    mOccupancyOfTailVirtualCoil := occupancy info.gOccupancyframetail
    bDataIsValid := if out.visibility ∨ out.fuzzyflag then 1 else 0 }

/-- What a reporting frame leaves of the counts of a lane. -/
def restartLane (lane : LaneOut) (info : CarInfo) : CarInfo :=
  { info with
    gFlow := lane.detectOutSum
    gOccupancyframe := 0
    gOccupancyframetail := 0 }

/-- The data of a lane at any other frame. -/
def occupyLane (lane : LaneOut) (channel : EachChannelPack) : EachChannelPack :=
  { channel with
    mDetectDataOfHeaderVirtualCoil :=
      { channel.mDetectDataOfHeaderVirtualCoil with
        bOccupyStatus0 := if lane.calarflag = 0x1 then 1 else 0 }
    mDetectDataOfTailVirtualCoil :=
      { channel.mDetectDataOfTailVirtualCoil with
        bOccupyStatus0 := BitVec.ofBool lane.isCarInTail } }

/-! ## Status -/

/-- `bWorkMode` by day, by night and in between; it stays where there is no algorithm. -/
def AlgOutput.workMode (out : AlgOutput) (bWorkMode : BitVec 2) : BitVec 2 :=
  let bWorkMode := if out.algIndex = 0x1 then 0x0 else if out.algIndex = 0x2 then 0x2 else bWorkMode
  if out.uEnvironmentStatus = 0x1 ∧ out.algIndex = 0x1 ∨ out.uEnvironmentStatus = 0x3 ∧ out.algIndex = 0x2 then 0x1
  else bWorkMode

/-- The status of the camera and `camera_state_change` in the loop over the lanes, with
`bBackgroundRefreshed` so far. -/
structure StatusLoop where
  bBackgroundRefreshed : Bool
  status : CameralStatus
  change : Bool

/-- What the loop does to the status for a lane. `bH264DecodeStatus` is set without a comparison. -/
def statusLane (out : AlgOutput) (s : StatusLoop) (i : Fin channelMaxNum) : StatusLoop :=
  let refreshed := s.bBackgroundRefreshed && (out.lane i).getQuebackFlag
  let change := s.change || s.status.bBackgroundRefreshed != BitVec.ofBool refreshed
  let status := { s.status with bBackgroundRefreshed := BitVec.ofBool refreshed }
  let ori := status.bWorkMode
  let status := { status with bWorkMode := out.workMode status.bWorkMode }
  let change := change || ori != status.bWorkMode
  let status := { status with bH264DecodeStatus := 1, bCameralOnLine := 1 }
  let change := change || status.bPictureStable == if out.fuzzyflag then 1 else 0
  { bBackgroundRefreshed := refreshed
    status := { status with bPictureStable := if out.fuzzyflag then 0 else 1 }
    change := change }

/-- The second loop of `pack_sig_data`. -/
def packLane (p : Object .mCamParam) (out : AlgOutput) (s : Bool × StaticChannel) (i : Fin channelMaxNum) :
    Bool × StaticChannel :=
  let (refreshed, c) := s
  if out.framecount % 12 = 0 then
    let loop := statusLane out ⟨refreshed, c.mCameralStatus, c.cameraStateChange⟩ i
    (loop.bBackgroundRefreshed,
      { eachchannel :=
          Function.update c.eachchannel i
            (reportLane (channelNumber p i) out (out.lane i) (c.carInfo i) (c.eachchannel i))
        carInfo := Function.update c.carInfo i (restartLane (out.lane i) (c.carInfo i))
        mCameralStatus := loop.status
        cameraStateChange := loop.change
        laneNum := out.algNum
        status := 0x1 })
  else (refreshed, { c with eachchannel := Function.update c.eachchannel i (occupyLane (out.lane i) (c.eachchannel i)) })

def countLanes (out : AlgOutput) (carInfo : Fin channelMaxNum → CarInfo) : Fin channelMaxNum → CarInfo :=
  out.lanes.foldl (fun info i => Function.update info i (countLane out.framecount (out.lane i) (info i))) carInfo

/-- `pack_sig_data`. -/
def packSigData (p : Object .mCamParam) (out : AlgOutput) (c : StaticChannel) : StaticChannel :=
  (out.lanes.foldl (packLane p out) (true, { c with carInfo := countLanes out c.carInfo })).2

/-! ## What is renewed -/

/-- A frame with which the status is renewed. -/
def AlgOutput.Reports (out : AlgOutput) : Prop := out.framecount % 12 = 0 ∧ out.algNum ≠ 0

/-- The first lane has its background. -/
def AlgOutput.firstRefreshed (out : AlgOutput) : Bool := (out.lane ⟨0, by decide⟩).getQuebackFlag

/-- All lanes have their background. -/
def AlgOutput.refreshed (out : AlgOutput) : Bool := out.lanes.all fun i => (out.lane i).getQuebackFlag

def AlgOutput.stable (out : AlgOutput) : BitVec 1 := if out.fuzzyflag then 0 else 1

/-- The status of the camera after a lane. -/
def AlgOutput.settle (out : AlgOutput) (refreshed : Bool) (s : CameralStatus) : CameralStatus :=
  { s with
    bWorkMode := out.workMode s.bWorkMode
    bBackgroundRefreshed := BitVec.ofBool refreshed
    bH264DecodeStatus := 1
    bCameralOnLine := 1
    bPictureStable := out.stable }

/-- The status is found changed: by the first lane, or by a later one that has no background yet. -/
def AlgOutput.Raises (out : AlgOutput) (s : CameralStatus) : Prop :=
  s.bBackgroundRefreshed ≠ BitVec.ofBool out.firstRefreshed ∨ out.firstRefreshed ≠ out.refreshed ∨
    s.bWorkMode ≠ out.workMode s.bWorkMode ∨ s.bPictureStable ≠ out.stable

@[simp] theorem AlgOutput.workMode_workMode (out : AlgOutput) (mode : BitVec 2) :
    out.workMode (out.workMode mode) = out.workMode mode := by
  unfold workMode
  grind

@[simp] theorem AlgOutput.settle_settle (out : AlgOutput) (r r' : Bool) (s : CameralStatus) :
    out.settle r (out.settle r' s) = out.settle r s := by
  simp [settle]

theorem AlgOutput.stable_ne (out : AlgOutput) (bit : BitVec 1) :
    (bit == if out.fuzzyflag then 1 else 0) = (bit != out.stable) := by
  unfold stable
  cases out.fuzzyflag <;> revert bit <;> decide

/-- What a lane does. -/
theorem statusLane_eq (out : AlgOutput) (s : StatusLoop) (i : Fin channelMaxNum) :
    statusLane out s i =
      let refreshed := s.bBackgroundRefreshed && (out.lane i).getQuebackFlag
      ⟨refreshed, out.settle refreshed s.status,
        s.change || s.status.bBackgroundRefreshed != BitVec.ofBool refreshed ||
          s.status.bWorkMode != out.workMode s.status.bWorkMode || s.status.bPictureStable != out.stable⟩ := by
  simp only [statusLane, AlgOutput.stable_ne]
  rfl

/-- The lanes after the first can only take the background away again. -/
theorem statusLanes_settled (out : AlgOutput) (refreshed change : Bool) (s : CameralStatus) (lanes : List (Fin channelMaxNum)) :
    lanes.foldl (statusLane out) ⟨refreshed, out.settle refreshed s, change⟩ =
      let all := refreshed && lanes.all fun i => (out.lane i).getQuebackFlag
      ⟨all, out.settle all s, change || refreshed != all⟩ := by
  induction lanes generalizing refreshed change with
  | nil => simp
  | cons i lanes ih =>
    rw [List.foldl_cons, statusLane_eq]
    simp only [AlgOutput.settle_settle, ih, List.all_cons]
    cases refreshed <;> cases (out.lane i).getQuebackFlag <;>
      cases lanes.all fun i => (out.lane i).getQuebackFlag <;> simp [AlgOutput.settle]

theorem AlgOutput.lanes_cons {out : AlgOutput} (some : out.algNum ≠ 0) : ∃ rest, out.lanes = ⟨0, by decide⟩ :: rest := by
  obtain ⟨n, more⟩ := Nat.exists_eq_succ_of_ne_zero some
  unfold lanes
  obtain ⟨_, _, _, algNum, fits, _, _, _⟩ := out
  cases more
  rw [List.finRange_succ]
  exact ⟨_, rfl⟩

/-- The part of a channel that the status loop works on. -/
def statusView (s : Bool × StaticChannel) : StatusLoop := ⟨s.1, s.2.mCameralStatus, s.2.cameraStateChange⟩

theorem statusView_packLane (p : Object .mCamParam) (out : AlgOutput) (s : Bool × StaticChannel) (i : Fin channelMaxNum) :
    statusView (packLane p out s i) =
      if out.framecount % 12 = 0 then statusLane out (statusView s) i else statusView s := by
  by_cases renews : out.framecount % 12 = 0 <;> simp [packLane, statusView, renews]

/-- The status after the loop over the lanes. -/
theorem statusView_packLanes (p : Object .mCamParam) (out : AlgOutput) (lanes : List (Fin channelMaxNum))
    (s : Bool × StaticChannel) :
    statusView (lanes.foldl (packLane p out) s) =
      if out.framecount % 12 = 0 then lanes.foldl (statusLane out) (statusView s) else statusView s := by
  induction lanes generalizing s with
  | nil => simp
  | cons i lanes ih =>
    rw [List.foldl_cons, ih, statusView_packLane]
    split <;> rfl

/-- The status after all lanes. -/
theorem statusLanes_all {out : AlgOutput} (some : out.algNum ≠ 0) (s : CameralStatus) (change : Bool) :
    out.lanes.foldl (statusLane out) ⟨true, s, change⟩ =
      ⟨out.refreshed, out.settle out.refreshed s,
        change || s.bBackgroundRefreshed != BitVec.ofBool out.firstRefreshed || s.bWorkMode != out.workMode s.bWorkMode ||
          s.bPictureStable != out.stable || out.firstRefreshed != out.refreshed⟩ := by
  obtain ⟨rest, lanes⟩ := AlgOutput.lanes_cons some
  have refreshed : out.refreshed = (out.firstRefreshed && rest.all fun i => (out.lane i).getQuebackFlag) := by
    rw [AlgOutput.refreshed, lanes]
    rfl
  rw [refreshed, lanes, List.foldl_cons, statusLane_eq]
  simp only [Bool.true_and]
  exact statusLanes_settled out _ _ s rest

/-- **A reporting frame** renews the status, and raises `camera_state_change` if it is found changed. -/
theorem packSigData_reports (p : Object .mCamParam) {out : AlgOutput} (reports : out.Reports) (c : StaticChannel) :
    (packSigData p out c).mCameralStatus = out.settle out.refreshed c.mCameralStatus ∧
      ((packSigData p out c).cameraStateChange = true ↔ c.cameraStateChange = true ∨ out.Raises c.mCameralStatus) := by
  have view := statusView_packLanes p out out.lanes (true, { c with carInfo := countLanes out c.carInfo })
  rw [if_pos reports.1] at view
  have loop := view.trans (statusLanes_all reports.2 c.mCameralStatus c.cameraStateChange)
  obtain ⟨_, status, change⟩ := StatusLoop.mk.inj loop
  refine ⟨status, ?_⟩
  rw [packSigData, change]
  simp only [Bool.or_eq_true, bne_iff_ne, AlgOutput.Raises]
  tauto

/-- Any other frame leaves both alone. -/
theorem packSigData_quiet (p : Object .mCamParam) {out : AlgOutput} (quiet : ¬ out.Reports) (c : StaticChannel) :
    (packSigData p out c).mCameralStatus = c.mCameralStatus ∧
      (packSigData p out c).cameraStateChange = c.cameraStateChange := by
  have view := statusView_packLanes p out out.lanes (true, { c with carInfo := countLanes out c.carInfo })
  have same : statusView (out.lanes.foldl (packLane p out) (true, { c with carInfo := countLanes out c.carInfo })) =
      ⟨true, c.mCameralStatus, c.cameraStateChange⟩ := by
    by_cases renews : out.framecount % 12 = 0
    · have none : out.lanes = [] := by
        have zero : out.algNum = 0 := by_contra fun some => quiet ⟨renews, some⟩
        apply List.eq_nil_of_length_eq_zero
        simp [AlgOutput.lanes, zero]
      rw [none]
      rfl
    · rw [if_neg renews] at view
      exact view
  exact ⟨(StatusLoop.mk.inj same).2.1, (StatusLoop.mk.inj same).2.2⟩

/-! ## Detected changes -/

/-- The status that `ReportedCammerStatus` encodes for a camera. -/
def reportedStatus (cfg : Config.State) (holder : Fin activeCamNum → StaticChannel) (index : Fin activeCamNum) : CameralStatus :=
  (Reporter.mk cfg fun i => (holder i).toSigData).cstatus index

/-- `pack_sig_data(index)`. -/
def packCamera (p : Object .mCamParam) (out : AlgOutput) (index : Fin activeCamNum)
    (holder : Fin activeCamNum → StaticChannel) : Fin activeCamNum → StaticChannel :=
  Function.update holder index (packSigData p out (holder index))

/-- The data of the camera have been sent or are ready. -/
def StaticChannel.Online (c : StaticChannel) : Prop := c.status = 1 ∨ c.status = 2

instance (c : StaticChannel) : Decidable c.Online := inferInstanceAs (Decidable (_ ∨ _))

theorem packSigData_status (p : Object .mCamParam) {out : AlgOutput} (reports : out.Reports) (c : StaticChannel) :
    (packSigData p out c).status = 0x1 := by
  obtain ⟨rest, lanes⟩ := AlgOutput.lanes_cons reports.2
  obtain ⟨front, last, split⟩ := List.eq_nil_or_concat (⟨0, by decide⟩ :: rest) |>.resolve_left (List.cons_ne_nil _ _)
  rw [packSigData, lanes, split, List.concat_eq_append, List.foldl_append, List.foldl_cons, List.foldl_nil, packLane]
  simp [reports.1]

/-- What a report of the camera has after a reporting frame. -/
theorem reportedStatus_packCamera (cfg : Config.State) (p : Object .mCamParam) {out : AlgOutput} (reports : out.Reports)
    (index : Fin activeCamNum) (holder : Fin activeCamNum → StaticChannel) :
    reportedStatus cfg (packCamera p out index holder) index =
      out.settle out.refreshed (holder index).mCameralStatus := by
  have status := packSigData_status p reports (holder index)
  have settled := (packSigData_reports p reports (holder index)).1
  simp only [reportedStatus, packCamera, Reporter.cstatus, Function.update_self, status, settled]
  rfl

/-- The reported status becomes another one. -/
theorem reportedStatus_changes (cfg : Config.State) (p : Object .mCamParam) {out : AlgOutput} (reports : out.Reports)
    (index : Fin activeCamNum) (holder : Fin activeCamNum → StaticChannel) :
    reportedStatus cfg (packCamera p out index holder) index ≠ reportedStatus cfg holder index ↔
      (holder index).mCameralStatus.bWorkMode ≠ out.workMode (holder index).mCameralStatus.bWorkMode ∨
        (holder index).mCameralStatus.bPictureStable ≠ out.stable ∨
        (holder index).mCameralStatus.bBackgroundRefreshed ≠ BitVec.ofBool out.refreshed ∨
        (holder index).mCameralStatus.bH264DecodeStatus ≠ 1 ∨ ¬ (holder index).Online := by
  have before : reportedStatus cfg holder index =
      { (holder index).mCameralStatus with bCameralOnLine := if (holder index).Online then 1 else 0 } := rfl
  rw [reportedStatus_packCamera cfg p reports, before]
  by_cases online : (holder index).Online
  · simp only [online, if_true, AlgOutput.settle, ne_eq, CameralStatus.mk.injEq, and_true, true_and, not_true_eq_false, or_false]
    grind
  · simp [online, AlgOutput.settle]

/-- **Detected changes.** At a reporting frame `camera_state_change` is raised exactly for a change of the reported
status if the work mode, the stability or the background changes; else exactly if the first lane agrees with all lanes
about the background just when the camera was reported as decoding and on line before. -/
theorem change_detected_iff (cfg : Config.State) (p : Object .mCamParam) (out : AlgOutput) (reports : out.Reports)
    (index : Fin activeCamNum) (holder : Fin activeCamNum → StaticChannel)
    (lowered : (holder index).cameraStateChange = false) :
    ((packCamera p out index holder index).cameraStateChange = true ↔
        reportedStatus cfg (packCamera p out index holder) index ≠ reportedStatus cfg holder index) ↔
      (holder index).mCameralStatus.bWorkMode ≠ out.workMode (holder index).mCameralStatus.bWorkMode ∨
        (holder index).mCameralStatus.bPictureStable ≠ out.stable ∨
        (holder index).mCameralStatus.bBackgroundRefreshed ≠ BitVec.ofBool out.refreshed ∨
        (out.firstRefreshed = out.refreshed ↔
          (holder index).mCameralStatus.bH264DecodeStatus = 1 ∧ (holder index).Online) := by
  have raised := (packSigData_reports p reports (holder index)).2
  rw [lowered] at raised
  rw [reportedStatus_changes cfg p reports, packCamera, Function.update_self, raised, AlgOutput.Raises]
  by_cases background : (holder index).mCameralStatus.bBackgroundRefreshed = BitVec.ofBool out.refreshed
  · have first : (holder index).mCameralStatus.bBackgroundRefreshed = BitVec.ofBool out.firstRefreshed ↔
        out.firstRefreshed = out.refreshed := by
      rw [background]
      cases out.firstRefreshed <;> cases out.refreshed <;> decide
    clear raised
    simp only [Bool.false_eq_true, false_or, ne_eq, first]
    grind
  · have found : (holder index).mCameralStatus.bBackgroundRefreshed ≠ BitVec.ofBool out.firstRefreshed ∨
        out.firstRefreshed ≠ out.refreshed := by
      by_contra none
      rw [not_or, not_not, not_not] at none
      exact background (none.1.trans (congrArg BitVec.ofBool none.2))
    clear raised
    grind

/-- The outputs of an algorithm with two lanes by day, the first with its background. -/
def twoLanes (second fuzzyflag : Bool) : AlgOutput where
  framecount := 12
  algIndex := 1
  uEnvironmentStatus := 4
  algNum := 2
  fits := Nat.le_of_ble_eq_true rfl
  lane := fun i => { (default : LaneOut) with getQuebackFlag := i = ⟨0, by decide⟩ || second }
  fuzzyflag := fuzzyflag
  visibility := false

theorem single_lane_fits : 1 ≤ channelMaxNum := by decide

/-- The outputs of an algorithm with a lane without background, the picture not stable. -/
def oneLaneFuzzy : AlgOutput where
  framecount := 12
  algIndex := 1
  uEnvironmentStatus := 4
  algNum := 1
  fits := single_lane_fits
  lane := fun _ => default
  fuzzyflag := true
  visibility := false

/-- The data of a camera that has sent the same status before. -/
def settledChannel : StaticChannel :=
  { (default : StaticChannel) with mCameralStatus := ⟨0, 0, 1, 1, 0, 0⟩, status := 1 }

/-- The background of both lanes is found. -/
theorem change_detected_iff_background :
    (packCamera (Config.zeroObj _) (twoLanes true true) ⟨0, by decide⟩ (fun _ => settledChannel) ⟨0, by decide⟩).cameraStateChange
        = true ↔
      reportedStatus (default : Reporter).cfg
          (packCamera (Config.zeroObj _) (twoLanes true true) ⟨0, by decide⟩ fun _ => settledChannel) ⟨0, by decide⟩ ≠
        reportedStatus (default : Reporter).cfg (fun _ => settledChannel) ⟨0, by decide⟩ :=
  (change_detected_iff _ _ (twoLanes true true) ⟨rfl, by decide⟩ _ _ rfl).mpr (by decide)

/-- The first report of a camera is not noticed, and the background of the first lane alone is taken for a change. -/
theorem change_missed_and_invented :
    ((packCamera (Config.zeroObj _) (twoLanes false true) ⟨0, by decide⟩ (fun _ => settledChannel) ⟨0, by decide⟩).cameraStateChange
          = true ∧
        reportedStatus (default : Reporter).cfg
            (packCamera (Config.zeroObj _) (twoLanes false true) ⟨0, by decide⟩ fun _ => settledChannel) ⟨0, by decide⟩ =
          reportedStatus (default : Reporter).cfg (fun _ => settledChannel) ⟨0, by decide⟩) ∧
      (packCamera (Config.zeroObj _) (oneLaneFuzzy) ⟨0, by decide⟩ (fun _ => default) ⟨0, by decide⟩).cameraStateChange = false ∧
      reportedStatus (default : Reporter).cfg
          (packCamera (Config.zeroObj _) (oneLaneFuzzy) ⟨0, by decide⟩ fun _ => default) ⟨0, by decide⟩ ≠
        reportedStatus (default : Reporter).cfg (fun _ => default) ⟨0, by decide⟩ := by
  refine ⟨⟨rfl, rfl⟩, rfl, ?_⟩
  intro same
  exact absurd (congrArg CameralStatus.bCameralOnLine same) (by decide)

end VideoDetector.Signal
