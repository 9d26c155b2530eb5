import VideoDetector.Config.Objects

/-!
# The configuration codec (`net_decode_obj` in `fvd-new/client_obj.c`)

`netDecodeObj` walks an object in the receive buffer and converts its shorts and ints in place.
On a little-endian host all four of `htons`, `ntohs`, `htonl` and `ntohl` reverse the bytes, so
both directions are the conversion of the object's layout (`netDecodeObj_convert`).
-/

namespace VideoDetector.Config
set_option autoImplicit false
open Lib

def htons (v : Nat) : Nat := swapBytes 2 v
def ntohs (v : Nat) : Nat := swapBytes 2 v
def htonl (v : Nat) : Nat := swapBytes 4 v
def ntohl (v : Nat) : Nat := swapBytes 4 v

/-- `get_obj_len`. -/
def getObjLen : ClassType → Nat
  | .null => 0
  | .char => 0
  | .short => 2
  | .int => 4
  | .mCommand => mCommand.layout.size
  | .mDetectDeviceConfig => mDetectDeviceConfig.layout.size
  | .mCamParam => mCamParam.layout.size
  | .mCamAttributes => mCamAttributes.layout.size
  | .mCamDemarcateParam => mCamDemarcateParam.layout.size
  | .mChannelVirtualcoil => mChannelVirtualcoil.layout.size
  | .mCamDetectParam => mCamDetectParam.layout.size
  | .mCamDetectLane => mCamDetectLane.layout.size
  | .mChannelCoil => mChannelCoil.layout.size
  | .mPoint => mPoint.layout.size
  | .mLine => mLine.layout.size
  | .mVirtualLaneLine => mVirtualLaneLine.layout.size
  | .mStandardPoint => mStandardPoint.layout.size
  | .mDemDetectArea => mDemDetectArea.layout.size
  | .mDetectParam => mDetectParam.layout.size

/-- How deep the structures of a class are nested. -/
def ClassType.depth : ClassType → Nat
  | null | char | short | int => 0
  | mCommand | mDetectDeviceConfig | mChannelVirtualcoil | mCamAttributes | mCamDemarcateParam => 1
  | mPoint | mLine | mDetectParam => 1
  | mCamParam | mChannelCoil | mVirtualLaneLine | mStandardPoint | mDemDetectArea => 2
  | mCamDetectLane => 3
  | mCamDetectParam => 4

mutual

/-- `net_decode_obj`. -/
def netDecodeObj (m : Mem) (bf : Nat) (type : ClassType) (encode : Bool) : Mem :=
  match type with
  | .null => m
  | .char => m
  | .short =>
    if !encode then storeWord m bf 2 (ntohs (loadWord m bf 2))
    else storeWord m bf 2 (htons (loadWord m bf 2))
  | .int =>
    if !encode then storeWord m bf 4 (ntohl (loadWord m bf 4))
    else storeWord m bf 4 (htonl (loadWord m bf 4))
  | .mCommand =>
    let m := netDecodeObj m (bf + mCommand.version) .char encode
    let m := netDecodeObj m (bf + mCommand.prottype) .char encode
    let m := netDecodeObj m (bf + mCommand.objnumber) .short encode
    let m := netDecodeObj m (bf + mCommand.objtype) .short encode
    netDecodeObj m (bf + mCommand.objlen) .int encode
  | .mDetectDeviceConfig =>
    let m := netDecodeObj m (bf + mDetectDeviceConfig.deviceID) .int encode
    netDecodeObj m (bf + mDetectDeviceConfig.detectport) .int encode
  | .mCamParam =>
    let m := netDecodeObj m (bf + mCamParam.camattr) .mCamAttributes encode
    let m := netDecodeObj m (bf + mCamParam.camdem) .mCamDemarcateParam encode
    netDecodeObjN m (bf + mCamParam.channelcoil) .mChannelVirtualcoil encode 4 mChannelVirtualcoil.layout.size
  | .mCamAttributes =>
    let m := netDecodeObj m (bf + mCamAttributes.camID) .int encode
    let m := netDecodeObj m (bf + mCamAttributes.cammerport) .int encode
    let m := netDecodeObj m (bf + mCamAttributes.adjustport) .int encode
    netDecodeObj m (bf + mCamAttributes.signalport) .int encode
  | .mCamDemarcateParam =>
    let m := netDecodeObj m (bf + mCamDemarcateParam.cam2stop) .short encode
    let m := netDecodeObj m (bf + mCamDemarcateParam.camheight) .short encode
    let m := netDecodeObj m (bf + mCamDemarcateParam.lannum) .short encode
    let m := netDecodeObj m (bf + mCamDemarcateParam.number) .short encode
    let m := netDecodeObj m (bf + mCamDemarcateParam.baselinelen) .short encode
    let m := netDecodeObj m (bf + mCamDemarcateParam.farth2stop) .short encode
    netDecodeObj m (bf + mCamDemarcateParam.recent2stop) .short encode
  | .mChannelVirtualcoil =>
    let m := netDecodeObj m (bf + mChannelVirtualcoil.farthCoillen) .short encode
    let m := netDecodeObj m (bf + mChannelVirtualcoil.recentCoillen) .short encode
    netDecodeObj m (bf + mChannelVirtualcoil.number) .short encode
  | .mCamDetectParam =>
    let m := netDecodeObjN m (bf + mCamDetectParam.timep) .int encode 4 uint.size
    let m := netDecodeObj m (bf + mCamDetectParam.detectlane) .mCamDetectLane encode
    let m := netDecodeObj m (bf + mCamDetectParam.laneline) .mVirtualLaneLine encode
    let m := netDecodeObjN m (bf + mCamDetectParam.standpoint) .mStandardPoint encode 4 mStandardPoint.layout.size
    let m := netDecodeObj m (bf + mCamDetectParam.area) .mDemDetectArea encode
    netDecodeObjN m (bf + mCamDetectParam.detectparam) .mDetectParam encode 2 mDetectParam.layout.size
  | .mCamDetectLane =>
    let m := netDecodeObj m (bf + mCamDetectLane.lanenum) .char encode
    netDecodeObjN m (bf + mCamDetectLane.virtuallane) .mChannelCoil encode detectLaneNumMax mChannelCoil.layout.size
  | .mChannelCoil =>
    let m := netDecodeObjN m (bf + mChannelCoil.RearCoil) .mPoint encode coilPointMax mPoint.layout.size
    netDecodeObjN m (bf + mChannelCoil.FrontCoil) .mPoint encode coilPointMax mPoint.layout.size
  | .mPoint =>
    let m := netDecodeObj m (bf + mPoint.x) .short encode
    netDecodeObj m (bf + mPoint.y) .short encode
  | .mLine =>
    let m := netDecodeObj m (bf + mLine.startx) .short encode
    let m := netDecodeObj m (bf + mLine.starty) .short encode
    let m := netDecodeObj m (bf + mLine.endx) .short encode
    netDecodeObj m (bf + mLine.endy) .short encode
  | .mVirtualLaneLine =>
    let m := netDecodeObj m (bf + mVirtualLaneLine.lanelinenum) .char encode
    netDecodeObjN m (bf + mVirtualLaneLine.laneline) .mLine encode laneLineMax mLine.layout.size
  | .mStandardPoint =>
    let m := netDecodeObj m (bf + mStandardPoint.coordinate) .mPoint encode
    netDecodeObj m (bf + mStandardPoint.value) .short encode
  | .mDemDetectArea =>
    let m := netDecodeObjN m (bf + mDemDetectArea.vircoordinate) .mPoint encode standPoint mPoint.layout.size
    netDecodeObjN m (bf + mDemDetectArea.realcoordinate) .mPoint encode standPoint mPoint.layout.size
  | .mDetectParam =>
    let m := netDecodeObj m (bf + mDetectParam.uTransFactor) .short encode
    let m := netDecodeObj m (bf + mDetectParam.uGraySubThreshold) .int encode
    let m := netDecodeObj m (bf + mDetectParam.uSpeedCounterChangedThreshold) .int encode
    let m := netDecodeObj m (bf + mDetectParam.uSpeedCounterChangedThreshold1) .int encode
    let m := netDecodeObj m (bf + mDetectParam.uSpeedCounterChangedThreshold2) .int encode
    let m := netDecodeObj m (bf + mDetectParam.uDayNightJudgeMinContiuFrame) .short encode
    let m := netDecodeObj m (bf + mDetectParam.uComprehensiveSens) .short encode
    let m := netDecodeObj m (bf + mDetectParam.uDetectSens1) .short encode
    let m := netDecodeObj m (bf + mDetectParam.uDetectSens2) .short encode
    let m := netDecodeObj m (bf + mDetectParam.uStatisticsSens1) .short encode
    let m := netDecodeObj m (bf + mDetectParam.uStatisticsSens2) .short encode
    let m := netDecodeObj m (bf + mDetectParam.uSobelThreshold) .short encode
    let m := netDecodeObj m (bf + mDetectParam.shutterMax) .short encode
    netDecodeObj m (bf + mDetectParam.shutterMin) .short encode
termination_by (type.depth, 0)
decreasing_by all_goals simp [Prod.lex_def, ClassType.depth]

/-- `net_decode_obj_n`. -/
def netDecodeObjN (m : Mem) (addr : Nat) (type : ClassType) (encode : Bool) (num size : Nat) : Mem :=
  (List.range num).foldl (fun m i => netDecodeObj m (addr + i * size) type encode) m
termination_by (type.depth, 1)
decreasing_by all_goals simp [Prod.lex_def]

end

/-! ## Every class is converted as its layout says -/

@[simp] theorem size_uchar : uchar.size = 1 := rfl
@[simp] theorem size_ushort : ushort.size = 2 := rfl
@[simp] theorem size_uint : uint.size = 4 := rfl
@[simp] theorem size_uchars (n : Nat) : (uchars n).size = n := Nat.mul_one n

@[simp] theorem convert_uchar (m : Mem) (a : Nat) : uchar.convert m a = m := Layout.convert_byte m a

@[simp] theorem convert_uchars (n : Nat) (m : Mem) (a : Nat) : (uchars n).convert m a = m :=
  Layout.convert_array_id convert_uchar n m a

theorem convert_mCaminfo (m : Mem) (a : Nat) : mCaminfo.layout.convert m a = m := by
  simp [mCaminfo.layout, mCaminfo.members]

@[simp] theorem netDecodeObj_char (m : Mem) (bf : Nat) (encode : Bool) : netDecodeObj m bf .char encode = m := by
  rw [netDecodeObj]

@[simp] theorem netDecodeObj_short (m : Mem) (bf : Nat) (encode : Bool) :
    netDecodeObj m bf .short encode = ushort.convert m bf := by
  rw [netDecodeObj]
  cases encode <;> exact store_swap_load m bf 2

@[simp] theorem netDecodeObj_int (m : Mem) (bf : Nat) (encode : Bool) :
    netDecodeObj m bf .int encode = uint.convert m bf := by
  rw [netDecodeObj]
  cases encode <;> exact store_swap_load m bf 4

/-- `net_decode_obj_n` with the size of the class converts an array of it. -/
theorem netDecodeObjN_convert (type : ClassType) {encode : Bool}
    (each : ∀ m bf, netDecodeObj m bf type encode = type.layout.convert m bf) (m : Mem) (addr num : Nat) :
    netDecodeObjN m addr type encode num type.layout.size = (Layout.array num type.layout).convert m addr := by
  rw [netDecodeObjN]
  simp only [each]
  rfl

theorem netDecodeObj_mCommand (m : Mem) (bf : Nat) (encode : Bool) :
    netDecodeObj m bf .mCommand encode = mCommand.layout.convert m bf := by
  rw [netDecodeObj]
  simp [mCommand.layout, mCommand.members, mCommand.objnumber, mCommand.objtype, mCommand.objlen, Nat.add_assoc]

theorem netDecodeObj_mDetectDeviceConfig (m : Mem) (bf : Nat) (encode : Bool) :
    netDecodeObj m bf .mDetectDeviceConfig encode = mDetectDeviceConfig.layout.convert m bf := by
  rw [netDecodeObj]
  simp [mDetectDeviceConfig.layout, mDetectDeviceConfig.members, mDetectDeviceConfig.deviceID,
    mDetectDeviceConfig.detectport, Layout.convert_array_id convert_mCaminfo]

theorem netDecodeObj_mCamAttributes (m : Mem) (bf : Nat) (encode : Bool) :
    netDecodeObj m bf .mCamAttributes encode = mCamAttributes.layout.convert m bf := by
  rw [netDecodeObj]
  simp [mCamAttributes.layout, mCamAttributes.members, mCamAttributes.camID, mCamAttributes.cammerport,
    mCamAttributes.adjustport, mCamAttributes.signalport, Nat.add_assoc]

theorem netDecodeObj_mCamDemarcateParam (m : Mem) (bf : Nat) (encode : Bool) :
    netDecodeObj m bf .mCamDemarcateParam encode = mCamDemarcateParam.layout.convert m bf := by
  rw [netDecodeObj]
  simp [mCamDemarcateParam.layout, mCamDemarcateParam.members, mCamDemarcateParam.cam2stop,
    mCamDemarcateParam.camheight, mCamDemarcateParam.lannum, mCamDemarcateParam.number,
    mCamDemarcateParam.baselinelen, mCamDemarcateParam.farth2stop, mCamDemarcateParam.recent2stop, Nat.add_assoc]

/-- The one class whose fields are visited out of order. -/
theorem netDecodeObj_mChannelVirtualcoil (m : Mem) (bf : Nat) (encode : Bool) :
    netDecodeObj m bf .mChannelVirtualcoil encode = mChannelVirtualcoil.layout.convert m bf := by
  rw [netDecodeObj]
  simp only [netDecodeObj_short]
  have last : ushort.convert (ushort.convert (ushort.convert m (bf + 2)) (bf + 4)) bf =
      ushort.convert (ushort.convert (ushort.convert m bf) (bf + 2)) (bf + 4) := by
    rw [Layout.convert_comm _ (show bf + 4 + ushort.size ≤ bf ∨ bf + ushort.size ≤ bf + 4 by simp),
      Layout.convert_comm m (show bf + 2 + ushort.size ≤ bf ∨ bf + ushort.size ≤ bf + 2 by simp)]
  simpa [mChannelVirtualcoil.layout, mChannelVirtualcoil.members, mChannelVirtualcoil.number,
    mChannelVirtualcoil.farthCoillen, mChannelVirtualcoil.recentCoillen, Nat.add_assoc] using last

theorem netDecodeObj_mCamParam (m : Mem) (bf : Nat) (encode : Bool) :
    netDecodeObj m bf .mCamParam encode = mCamParam.layout.convert m bf := by
  have coils := netDecodeObjN_convert .mChannelVirtualcoil fun m bf => netDecodeObj_mChannelVirtualcoil m bf encode
  simp only [ClassType.layout] at coils
  rw [netDecodeObj]
  simp [netDecodeObj_mCamAttributes, netDecodeObj_mCamDemarcateParam, coils, mCamParam.layout,
    mCamParam.members, mCamParam.camattr, mCamParam.camdem, mCamParam.channelcoil, detectLaneNumMax, Nat.add_assoc]

theorem netDecodeObj_mPoint (m : Mem) (bf : Nat) (encode : Bool) :
    netDecodeObj m bf .mPoint encode = mPoint.layout.convert m bf := by
  rw [netDecodeObj]
  simp [mPoint.layout, mPoint.members, mPoint.x, mPoint.y]

theorem netDecodeObjN_mPoint (m : Mem) (addr num : Nat) (encode : Bool) :
    netDecodeObjN m addr .mPoint encode num mPoint.layout.size = (Layout.array num mPoint.layout).convert m addr :=
  netDecodeObjN_convert .mPoint (fun m bf => netDecodeObj_mPoint m bf encode) m addr num

theorem netDecodeObj_mLine (m : Mem) (bf : Nat) (encode : Bool) :
    netDecodeObj m bf .mLine encode = mLine.layout.convert m bf := by
  rw [netDecodeObj]
  simp [mLine.layout, mLine.members, mLine.startx, mLine.starty, mLine.endx, mLine.endy, Nat.add_assoc]

theorem netDecodeObj_mChannelCoil (m : Mem) (bf : Nat) (encode : Bool) :
    netDecodeObj m bf .mChannelCoil encode = mChannelCoil.layout.convert m bf := by
  rw [netDecodeObj]
  simp [netDecodeObjN_mPoint, mChannelCoil.layout, mChannelCoil.members, mChannelCoil.RearCoil, mChannelCoil.FrontCoil]

theorem netDecodeObj_mCamDetectLane (m : Mem) (bf : Nat) (encode : Bool) :
    netDecodeObj m bf .mCamDetectLane encode = mCamDetectLane.layout.convert m bf := by
  have lanes := netDecodeObjN_convert .mChannelCoil fun m bf => netDecodeObj_mChannelCoil m bf encode
  simp only [ClassType.layout] at lanes
  rw [netDecodeObj]
  simp [lanes, mCamDetectLane.layout, mCamDetectLane.members, mCamDetectLane.virtuallane]

theorem netDecodeObj_mVirtualLaneLine (m : Mem) (bf : Nat) (encode : Bool) :
    netDecodeObj m bf .mVirtualLaneLine encode = mVirtualLaneLine.layout.convert m bf := by
  have lines := netDecodeObjN_convert .mLine fun m bf => netDecodeObj_mLine m bf encode
  simp only [ClassType.layout] at lines
  rw [netDecodeObj]
  simp [lines, mVirtualLaneLine.layout, mVirtualLaneLine.members, mVirtualLaneLine.laneline]

theorem netDecodeObj_mStandardPoint (m : Mem) (bf : Nat) (encode : Bool) :
    netDecodeObj m bf .mStandardPoint encode = mStandardPoint.layout.convert m bf := by
  rw [netDecodeObj]
  simp [netDecodeObj_mPoint, mStandardPoint.layout, mStandardPoint.members, mStandardPoint.coordinate,
    mStandardPoint.value]

theorem netDecodeObj_mDemDetectArea (m : Mem) (bf : Nat) (encode : Bool) :
    netDecodeObj m bf .mDemDetectArea encode = mDemDetectArea.layout.convert m bf := by
  rw [netDecodeObj]
  simp [netDecodeObjN_mPoint, mDemDetectArea.layout, mDemDetectArea.members, mDemDetectArea.vircoordinate,
    mDemDetectArea.realcoordinate]

theorem netDecodeObj_mDetectParam (m : Mem) (bf : Nat) (encode : Bool) :
    netDecodeObj m bf .mDetectParam encode = mDetectParam.layout.convert m bf := by
  rw [netDecodeObj]
  simp [mDetectParam.layout, mDetectParam.members, mDetectParam.uTransFactor, mDetectParam.uGraySubThreshold,
    mDetectParam.uSpeedCounterChangedThreshold, mDetectParam.uSpeedCounterChangedThreshold1,
    mDetectParam.uSpeedCounterChangedThreshold2, mDetectParam.uDayNightJudgeMinContiuFrame,
    mDetectParam.uComprehensiveSens, mDetectParam.uDetectSens1, mDetectParam.uDetectSens2,
    mDetectParam.uStatisticsSens1, mDetectParam.uStatisticsSens2, mDetectParam.uSobelThreshold,
    mDetectParam.shutterMax, mDetectParam.shutterMin, Nat.add_assoc]

theorem netDecodeObj_mCamDetectParam (m : Mem) (bf : Nat) (encode : Bool) :
    netDecodeObj m bf .mCamDetectParam encode = mCamDetectParam.layout.convert m bf := by
  have times := netDecodeObjN_convert .int fun m bf => netDecodeObj_int m bf encode
  have points := netDecodeObjN_convert .mStandardPoint fun m bf => netDecodeObj_mStandardPoint m bf encode
  have params := netDecodeObjN_convert .mDetectParam fun m bf => netDecodeObj_mDetectParam m bf encode
  simp only [ClassType.layout] at times points params
  rw [netDecodeObj]
  simp only [times, points, params, netDecodeObj_mCamDetectLane, netDecodeObj_mVirtualLaneLine,
    netDecodeObj_mDemDetectArea]
  simp [mCamDetectParam.layout, mCamDetectParam.members, mCamDetectParam.timep, mCamDetectParam.detectlane,
    mCamDetectParam.laneline, mCamDetectParam.standpoint, mCamDetectParam.area, mCamDetectParam.detectparam,
    standardVauleMax, algMax, Nat.add_assoc]

/-- **Both directions of `net_decode_obj` are the conversion of the object's layout.** -/
theorem netDecodeObj_convert (m : Mem) (bf : Nat) (type : ClassType) (encode : Bool) :
    netDecodeObj m bf type encode = type.layout.convert m bf := by
  cases type with
  | null => rw [netDecodeObj]; rfl
  | char => exact netDecodeObj_char m bf encode
  | short => exact netDecodeObj_short m bf encode
  | int => exact netDecodeObj_int m bf encode
  | mCommand => exact netDecodeObj_mCommand m bf encode
  | mDetectDeviceConfig => exact netDecodeObj_mDetectDeviceConfig m bf encode
  | mCamParam => exact netDecodeObj_mCamParam m bf encode
  | mCamDetectParam => exact netDecodeObj_mCamDetectParam m bf encode
  | mChannelVirtualcoil => exact netDecodeObj_mChannelVirtualcoil m bf encode
  | mCamAttributes => exact netDecodeObj_mCamAttributes m bf encode
  | mCamDemarcateParam => exact netDecodeObj_mCamDemarcateParam m bf encode
  | mCamDetectLane => exact netDecodeObj_mCamDetectLane m bf encode
  | mChannelCoil => exact netDecodeObj_mChannelCoil m bf encode
  | mPoint => exact netDecodeObj_mPoint m bf encode
  | mLine => exact netDecodeObj_mLine m bf encode
  | mVirtualLaneLine => exact netDecodeObj_mVirtualLaneLine m bf encode
  | mStandardPoint => exact netDecodeObj_mStandardPoint m bf encode
  | mDemDetectArea => exact netDecodeObj_mDemDetectArea m bf encode
  | mDetectParam => exact netDecodeObj_mDetectParam m bf encode

theorem getObjLen_size (type : ClassType) : getObjLen type = type.layout.size := by
  cases type <;> rfl

example : [ClassType.mCommand, .mDetectDeviceConfig, .mCamParam, .mCamDetectParam].map getObjLen =
    [10, 219, 164, 370] := by decide

/-- **The wire codec.** Encoding any class of object reverses every scalar of it once, so that
shorts and ints become big-endian and single bytes stay; every byte of the object belongs to a
scalar and no byte off the object changes. The two directions undo each other. -/
theorem wire_codec (m : Mem) (bf : Nat) (type : ClassType) :
    (∀ f ∈ type.layout.scalars bf,
      bytesAt (netDecodeObj m bf type true) f.1 f.2 = (bytesAt m f.1 f.2).reverse) ∧
    (∀ a, (a, 1) ∈ type.layout.scalars bf → netDecodeObj m bf type true a = m a) ∧
    (∀ a, bf ≤ a → a < bf + getObjLen type → ∃ f ∈ type.layout.scalars bf, f.1 ≤ a ∧ a < f.1 + f.2) ∧
    (∀ a, a < bf ∨ bf + getObjLen type ≤ a → netDecodeObj m bf type true a = m a) ∧
    netDecodeObj (netDecodeObj m bf type true) bf type false = m ∧
    netDecodeObj (netDecodeObj m bf type false) bf type true = m := by
  simp only [netDecodeObj_convert, getObjLen_size]
  refine ⟨fun f member => Layout.convert_scalar m member, ?_, fun a low high => Layout.scalars_cover _ low high,
    fun a outside => Layout.convert_outside outside, Layout.convert_convert _ m bf, Layout.convert_convert _ m bf⟩
  intro a member
  have byte := Layout.convert_scalar m member
  simpa [bytesAt_succ] using byte

end VideoDetector.Config
