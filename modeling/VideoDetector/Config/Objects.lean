import VideoDetector.Lib.Layout

/-!
# Configuration objects (`fvd-new/client_obj.h`, `g_define.h`)

The packed structures of the configuration protocol, each with its members in the order of the
header file. A field is named by its offset, computed from the members before it.
-/

namespace VideoDetector.Config
set_option autoImplicit false
open Lib

def activeCamNum : Nat := 6
def camNum1 : Nat := 8
def ipAddrMax : Nat := 16
def userNameMax : Nat := 20
def devNameMax : Nat := 50
def coilPointMax : Nat := 4
def detectLaneNumMax : Nat := 4
def laneLineMax : Nat := 8
def standPoint : Nat := 8
def standardVauleMax : Nat := 4
def algMax : Nat := 2

instance : NeZero activeCamNum := ⟨by decide⟩

def uchar : Layout := .scalar 1
def ushort : Layout := .scalar 2
def uint : Layout := .scalar 4
def uchars (n : Nat) : Layout := .array n uchar

namespace mCommand
def members : List Layout := [uchar, uchar, ushort, ushort, uint]
def layout : Layout := .struct members
def version : Nat := Layout.offset members 0
def prottype : Nat := Layout.offset members 1
def objnumber : Nat := Layout.offset members 2
def objtype : Nat := Layout.offset members 3
def objlen : Nat := Layout.offset members 4
end mCommand

namespace mCaminfo
def members : List Layout := [uchar, uchar, uchars ipAddrMax]
def layout : Layout := .struct members
def camstatus : Nat := Layout.offset members 0
def camdirect : Nat := Layout.offset members 1
def cammerIp : Nat := Layout.offset members 2
end mCaminfo

namespace mDetectDeviceConfig
def members : List Layout :=
  [uint, uint, uchar, uchars ipAddrMax, uchars devNameMax, .array camNum1 mCaminfo.layout]
def layout : Layout := .struct members
def deviceID : Nat := Layout.offset members 0
def detectport : Nat := Layout.offset members 1
def camInfo (i : Nat) : Nat := Layout.offset members 5 + i * mCaminfo.layout.size
end mDetectDeviceConfig

namespace mCamAttributes
def members : List Layout :=
  [uchar, uint, uint, uint, uint, uchars userNameMax, uchars userNameMax, uchars userNameMax,
    uchars ipAddrMax, uchars ipAddrMax, uchars ipAddrMax]
def layout : Layout := .struct members
def camID : Nat := Layout.offset members 1
def cammerport : Nat := Layout.offset members 2
def adjustport : Nat := Layout.offset members 3
def signalport : Nat := Layout.offset members 4
def username : Nat := Layout.offset members 6
def passwd : Nat := Layout.offset members 7
def signalIp : Nat := Layout.offset members 10
end mCamAttributes

namespace mCamDemarcateParam
def members : List Layout := [ushort, ushort, ushort, ushort, ushort, ushort, ushort]
def layout : Layout := .struct members
def cam2stop : Nat := Layout.offset members 0
def camheight : Nat := Layout.offset members 1
def lannum : Nat := Layout.offset members 2
def number : Nat := Layout.offset members 3
def baselinelen : Nat := Layout.offset members 4
def farth2stop : Nat := Layout.offset members 5
def recent2stop : Nat := Layout.offset members 6
end mCamDemarcateParam

namespace mChannelVirtualcoil
def members : List Layout := [ushort, ushort, ushort]
def layout : Layout := .struct members
def number : Nat := Layout.offset members 0
def farthCoillen : Nat := Layout.offset members 1
def recentCoillen : Nat := Layout.offset members 2
end mChannelVirtualcoil

namespace mCamParam
def members : List Layout :=
  [uchar, mCamAttributes.layout, mCamDemarcateParam.layout, .array detectLaneNumMax mChannelVirtualcoil.layout]
def layout : Layout := .struct members
def camattr : Nat := Layout.offset members 1
def camdem : Nat := Layout.offset members 2
def channelcoil : Nat := Layout.offset members 3
end mCamParam

namespace mPoint
def members : List Layout := [ushort, ushort]
def layout : Layout := .struct members
def x : Nat := Layout.offset members 0
def y : Nat := Layout.offset members 1
end mPoint

namespace mLine
def members : List Layout := [ushort, ushort, ushort, ushort]
def layout : Layout := .struct members
def startx : Nat := Layout.offset members 0
def starty : Nat := Layout.offset members 1
def endx : Nat := Layout.offset members 2
def endy : Nat := Layout.offset members 3
end mLine

namespace mChannelCoil
def members : List Layout := [.array coilPointMax mPoint.layout, .array coilPointMax mPoint.layout]
def layout : Layout := .struct members
def RearCoil : Nat := Layout.offset members 0
def FrontCoil : Nat := Layout.offset members 1
end mChannelCoil

namespace mCamDetectLane
def members : List Layout := [uchar, .array detectLaneNumMax mChannelCoil.layout]
def layout : Layout := .struct members
def lanenum : Nat := Layout.offset members 0
def virtuallane : Nat := Layout.offset members 1
end mCamDetectLane

namespace mVirtualLaneLine
def members : List Layout := [uchar, .array laneLineMax mLine.layout]
def layout : Layout := .struct members
def lanelinenum : Nat := Layout.offset members 0
def laneline : Nat := Layout.offset members 1
end mVirtualLaneLine

namespace mStandardPoint
def members : List Layout := [mPoint.layout, ushort]
def layout : Layout := .struct members
def coordinate : Nat := Layout.offset members 0
def value : Nat := Layout.offset members 1
end mStandardPoint

namespace mDemDetectArea
def members : List Layout := [.array standPoint mPoint.layout, .array standPoint mPoint.layout]
def layout : Layout := .struct members
def vircoordinate : Nat := Layout.offset members 0
def realcoordinate : Nat := Layout.offset members 1
end mDemDetectArea

namespace mDetectParam
def members : List Layout :=
  [ushort, uint, uint, uint, uint, ushort, ushort, ushort, ushort, ushort, ushort, ushort, ushort, ushort]
def layout : Layout := .struct members
def uTransFactor : Nat := Layout.offset members 0
def uGraySubThreshold : Nat := Layout.offset members 1
def uSpeedCounterChangedThreshold : Nat := Layout.offset members 2
def uSpeedCounterChangedThreshold1 : Nat := Layout.offset members 3
def uSpeedCounterChangedThreshold2 : Nat := Layout.offset members 4
def uDayNightJudgeMinContiuFrame : Nat := Layout.offset members 5
def uComprehensiveSens : Nat := Layout.offset members 6
def uDetectSens1 : Nat := Layout.offset members 7
def uDetectSens2 : Nat := Layout.offset members 8
def uStatisticsSens1 : Nat := Layout.offset members 9
def uStatisticsSens2 : Nat := Layout.offset members 10
def uSobelThreshold : Nat := Layout.offset members 11
def shutterMax : Nat := Layout.offset members 12
def shutterMin : Nat := Layout.offset members 13
end mDetectParam

namespace mCamDetectParam
def members : List Layout :=
  [.array 4 uint, mCamDetectLane.layout, mVirtualLaneLine.layout,
    .array standardVauleMax mStandardPoint.layout, mDemDetectArea.layout, .array algMax mDetectParam.layout]
def layout : Layout := .struct members
def timep : Nat := Layout.offset members 0
def detectlane : Nat := Layout.offset members 1
def laneline : Nat := Layout.offset members 2
def standpoint : Nat := Layout.offset members 3
def area : Nat := Layout.offset members 4
def detectparam : Nat := Layout.offset members 5
end mCamDetectParam

/-- The class types of the codec. -/
inductive ClassType where
  | null | char | short | int
  | mCommand | mDetectDeviceConfig | mCamParam | mCamDetectParam
  | mChannelVirtualcoil | mCamAttributes | mCamDemarcateParam
  | mCamDetectLane | mChannelCoil | mPoint | mLine | mVirtualLaneLine
  | mStandardPoint | mDemDetectArea | mDetectParam
  deriving DecidableEq, Repr

/-- The object a class type stands for. The two classes without a length stand for none. -/
def ClassType.layout : ClassType → Layout
  | null => .empty
  | char => .empty
  | short => ushort
  | int => uint
  | mCommand => Config.mCommand.layout
  | mDetectDeviceConfig => Config.mDetectDeviceConfig.layout
  | mCamParam => Config.mCamParam.layout
  | mCamDetectParam => Config.mCamDetectParam.layout
  | mChannelVirtualcoil => Config.mChannelVirtualcoil.layout
  | mCamAttributes => Config.mCamAttributes.layout
  | mCamDemarcateParam => Config.mCamDemarcateParam.layout
  | mCamDetectLane => Config.mCamDetectLane.layout
  | mChannelCoil => Config.mChannelCoil.layout
  | mPoint => Config.mPoint.layout
  | mLine => Config.mLine.layout
  | mVirtualLaneLine => Config.mVirtualLaneLine.layout
  | mStandardPoint => Config.mStandardPoint.layout
  | mDemDetectArea => Config.mDemDetectArea.layout
  | mDetectParam => Config.mDetectParam.layout

end VideoDetector.Config
