import VideoDetector.Signal.RoundTrip
import VideoDetector.Config.Server

/-!
# The status reply (`ReportedCammerStatus` in `fvd-new/sig_service.c`)

The reply is laid out in a zeroed buffer of 100 bytes: a frame header, three bytes about the device
and three bytes for each enabled camera. Bit fields fill a byte from its low end.
-/

namespace VideoDetector.Signal
set_option autoImplicit false
open Lib
open Config (activeCamNum getCamStatus getCamId getCamDirection getDevId)

namespace FrameHeader
def mSenderLinkId : Nat := 1
def mRecieverLinkId : Nat := 2
def mProtocolType : Nat := 3
def mProtocolVersion : Nat := 4
def mSessionID : Nat := 7
def mDataType : Nat := 8
def size : Nat := 9
end FrameHeader

/-- `LINKID_UART_BETWEEN_COMBOARD_AND_MAINCONTLBOARD`. -/
def linkIdBetweenBoards : UInt8 := 9
def linkIdBroardcast : UInt8 := 0xFF
def protocolTypeVideoDetector : UInt8 := 1
def protocolVersion : UInt8 := 0x12
def deviceClassIpCameral : BitVec 4 := 2

/-- A device id: `mDeviceIndex:4`, `mDeviceClass:4`. -/
def deviceId (mDeviceIndex mDeviceClass : BitVec 4) : UInt8 := ⟨mDeviceClass ++ mDeviceIndex⟩

/-- `mCameralStatus` of an `EachCameralStatus`. -/
structure CameralStatus where
  bWorkMode : BitVec 2
  bBackgroundRefreshed : BitVec 1
  bH264DecodeStatus : BitVec 1
  bCameralOnLine : BitVec 1
  bPictureStable : BitVec 1
  bFix0 : BitVec 2
  deriving Inhabited

def CameralStatus.byte (s : CameralStatus) : UInt8 :=
  ⟨s.bFix0 ++ s.bPictureStable ++ s.bCameralOnLine ++ s.bH264DecodeStatus ++ s.bBackgroundRefreshed ++ s.bWorkMode⟩

/-- The bit of `mCameralPosition` for a camera direction. -/
def positionBit (direction : UInt8) : UInt8 :=
  match direction with
  | 0x1 => 0x01
  | 0x2 => 0x02
  | 0x3 => 0x04
  | 0x4 => 0x08
  | 0x5 => 0x10
  | 0x6 => 0x20
  | 0x7 => 0x40
  | 0x8 => 0x80
  | _ => 0x01

/-- What the report reads of `holder[i].traffic_rst`. -/
structure SigData where
  status : UInt8
  mCameralStatus : CameralStatus
  deriving Inhabited

/-- The data behind a status report: the stored configuration and `holder`. -/
structure Reporter where
  cfg : Config.State
  holder : Fin activeCamNum → SigData

instance : Inhabited Reporter := ⟨⟨Config.freshState fun _ => none, default⟩⟩

/-- The status bits of camera `i`, with `bCameralOnLine` from the state of its data. -/
def Reporter.cstatus (r : Reporter) (i : Fin activeCamNum) : CameralStatus :=
  { (r.holder i).mCameralStatus with
    bCameralOnLine := if (r.holder i).status = 1 ∨ (r.holder i).status = 2 then 1 else 0 }

/-- Where `mCameralCount` of the response is. -/
def mCameralCount : Nat := FrameHeader.size + 2

/-- The frame header and the fixed part of the response, in the zeroed buffer. -/
def reportHeader (r : Reporter) (session : UInt8) : Mem :=
  let m := storeBytes (fun _ => 0) FrameHeader.mSenderLinkId
    [0x0, linkIdBetweenBoards, protocolTypeVideoDetector, protocolVersion, deviceId 1 1, deviceId 0 4, session, 0x04]
  storeBytes m FrameHeader.size [deviceId (BitVec.ofNat 4 (getDevId r.cfg)) 1, 0x03, 0x0]

/-- One iteration of the camera loop on the buffer and `size`. -/
def reportCamera (r : Reporter) (s : Mem × Nat) (i : Fin activeCamNum) : Mem × Nat :=
  if getCamStatus r.cfg i ≠ 0 then
    let m := s.1
    let cstatus := FrameHeader.size + 3 + (m mCameralCount).toNat * 3
    let m := setByte m cstatus (deviceId (BitVec.ofNat 4 (getCamId r.cfg i)) deviceClassIpCameral)
    let m := setByte m (cstatus + 1) (m (cstatus + 1) ||| positionBit (getCamDirection r.cfg i))
    let m := setByte m (cstatus + 2) (r.cstatus i).byte
    (setByte m mCameralCount (m mCameralCount + 1), s.2 + 3)
  else s

/-- The report before it is framed. -/
def reportBuffer (r : Reporter) (session : UInt8) : Mem × Nat :=
  (List.finRange activeCamNum).foldl (reportCamera r) (reportHeader r session, FrameHeader.size - 1 + 3)

/-- `ReportedCammerStatus`: the bytes handed to `SendDataByTcp`. -/
def reportedCammerStatus (r : Reporter) (session : UInt8) : Option (List UInt8) := do
  let (m, size) ← buildFrame (reportBuffer r session).1 0 (reportBuffer r session).2
  return bytesAt m 0 size

/-! ## The session id survives -/

theorem reportCamera_keeps (r : Reporter) (s : Mem × Nat) (i : Fin activeCamNum) :
    (∀ a, a < mCameralCount → (reportCamera r s i).1 a = s.1 a) ∧
      s.2 ≤ (reportCamera r s i).2 ∧ (reportCamera r s i).2 ≤ s.2 + 3 := by
  unfold reportCamera
  split
  · refine ⟨fun a low => ?_, Nat.le_add_right _ _, Nat.le_refl _⟩
    simp only [mCameralCount, FrameHeader.size] at low ⊢
    rw [setByte_other (by omega), setByte_other (by omega), setByte_other (by omega), setByte_other (by omega)]
  · exact ⟨fun _ _ => rfl, Nat.le_refl _, Nat.le_add_right _ _⟩

theorem reportCameras_keep (r : Reporter) (cameras : List (Fin activeCamNum)) (s : Mem × Nat) :
    (∀ a, a < mCameralCount → (cameras.foldl (reportCamera r) s).1 a = s.1 a) ∧
      s.2 ≤ (cameras.foldl (reportCamera r) s).2 ∧
      (cameras.foldl (reportCamera r) s).2 ≤ s.2 + 3 * cameras.length := by
  induction cameras generalizing s with
  | nil => exact ⟨fun _ _ => rfl, Nat.le_refl _, Nat.le_refl _⟩
  | cons i cameras ih =>
    obtain ⟨same, grows, bounded⟩ := reportCamera_keeps r s i
    obtain ⟨rest, more, most⟩ := ih (reportCamera r s i)
    rw [List.foldl_cons, List.length_cons]
    exact ⟨fun a low => (rest a low).trans (same a low), by omega, by omega⟩

/-- The body of a status reply. -/
def reportBody (r : Reporter) (session : UInt8) : List UInt8 :=
  bytesAt (reportBuffer r session).1 1 (reportBuffer r session).2

/-- **The reply is the frame of the report.** -/
theorem reportedCammerStatus_frame (r : Reporter) (session : UInt8) :
    reportedCammerStatus r session = some (wireFrame (reportBody r session)) := by
  obtain ⟨m, len, built, _, window⟩ := buildFrame_spec (reportBuffer r session).1 0 (reportBuffer r session).2
  simp only [reportedCammerStatus, built]
  exact congrArg some window

/-- The report starts with the reply header, which carries the session id. -/
theorem reportBody_header (r : Reporter) (session : UInt8) :
    (reportBody r session).take 8 =
      [0x0, linkIdBetweenBoards, protocolTypeVideoDetector, protocolVersion, deviceId 1 1, deviceId 0 4, session, 4] := by
  obtain ⟨same, size, _⟩ :=
    reportCameras_keep r (List.finRange activeCamNum) (reportHeader r session, FrameHeader.size - 1 + 3)
  have header : bytesAt (reportBuffer r session).1 1 8 = bytesAt (reportHeader r session) 1 8 :=
    bytesAt_congr fun k bound => same (1 + k) (by simp only [mCameralCount, FrameHeader.size]; omega)
  have long : 8 ≤ (reportBuffer r session).2 := Nat.le_trans (by simp [FrameHeader.size]) size
  unfold reportBody
  rw [show (reportBuffer r session).2 = 8 + ((reportBuffer r session).2 - 8) by omega, bytesAt_add,
    List.take_left' (bytesAt_length _ _ _), header]
  rfl

/-- The framed report fits the buffer it is built in. -/
theorem wireFrame_reportBody_length (r : Reporter) (session : UInt8) :
    (wireFrame (reportBody r session)).length ≤ 100 := by
  obtain ⟨_, _, most⟩ :=
    reportCameras_keep r (List.finRange activeCamNum) (reportHeader r session, FrameHeader.size - 1 + 3)
  have length : (reportBody r session).length ≤ 29 := by
    rw [reportBody, bytesAt_length]
    exact Nat.le_trans most (by simp [FrameHeader.size, activeCamNum])
  have short := wireFrame_length_le (reportBody r session)
  omega

/-! ## The status of a camera in the report -/

/-- The status bits in a byte. -/
def CameralStatus.ofByte (b : UInt8) : CameralStatus :=
  { bWorkMode := b.toBitVec.extractLsb' 0 2
    bBackgroundRefreshed := b.toBitVec.extractLsb' 2 1
    bH264DecodeStatus := b.toBitVec.extractLsb' 3 1
    bCameralOnLine := b.toBitVec.extractLsb' 4 1
    bPictureStable := b.toBitVec.extractLsb' 5 1
    bFix0 := b.toBitVec.extractLsb' 6 2 }

theorem CameralStatus.ofByte_byte (s : CameralStatus) : ofByte s.byte = s := by
  obtain ⟨mode, refreshed, decode, onLine, stable, fix⟩ := s
  simp only [byte, ofByte, CameralStatus.mk.injEq]
  refine ⟨?_, ?_, ?_, ?_, ?_, ?_⟩
  all_goals
    apply BitVec.eq_of_getElem_eq
    intro k bound
    rw [BitVec.getElem_extractLsb']
    simp only [BitVec.getLsbD_append]
    grind

def camEnabled (cfg : Config.State) (i : Fin activeCamNum) : Bool := getCamStatus cfg i != 0

/-- The enabled cameras before camera `i`. -/
def camRank (cfg : Config.State) (i : Fin activeCamNum) : Nat :=
  ((List.finRange activeCamNum).take i).countP (camEnabled cfg)

/-- Where the entries of the cameras start. -/
def mEachCameralStatus : Nat := FrameHeader.size + 3

/-- The status of camera `i` in the body of a report. -/
def frameStatus (cfg : Config.State) (frame : List UInt8) (i : Fin activeCamNum) : Option CameralStatus :=
  if camEnabled cfg i then (frame[mEachCameralStatus + camRank cfg i * 3 + 1]?).map CameralStatus.ofByte else none

theorem reportCamera_disabled {r : Reporter} {i : Fin activeCamNum} (disabled : camEnabled r.cfg i = false) (s : Mem × Nat) :
    reportCamera r s i = s := by
  have zero : getCamStatus r.cfg i = 0 := by simpa [camEnabled] using disabled
  simp [reportCamera, zero]

/-- The entry of an enabled camera. -/
theorem reportCamera_enabled {r : Reporter} {i : Fin activeCamNum} (enabled : camEnabled r.cfg i = true) (s : Mem × Nat) :
    (reportCamera r s i).1 mCameralCount = s.1 mCameralCount + 1 ∧
      (reportCamera r s i).1 (mEachCameralStatus + (s.1 mCameralCount).toNat * 3 + 2) = (r.cstatus i).byte ∧
      (∀ a, a ≠ mCameralCount → a < mEachCameralStatus + (s.1 mCameralCount).toNat * 3 → (reportCamera r s i).1 a = s.1 a) ∧
      (reportCamera r s i).2 = s.2 + 3 := by
  have status : getCamStatus r.cfg i ≠ 0 := by simpa [camEnabled] using enabled
  simp only [reportCamera, if_pos status, mEachCameralStatus, mCameralCount]
  refine ⟨?_, ?_, ?_, trivial⟩
  · rw [setByte_same, setByte_other (by omega), setByte_other (by omega), setByte_other (by omega)]
  · rw [setByte_other (by omega), setByte_same]
  · intro a other low
    rw [setByte_other other, setByte_other (by omega), setByte_other (by omega), setByte_other (by omega)]

/-- The entries are written one after the other. -/
theorem reportCameras_count (r : Reporter) (cameras : List (Fin activeCamNum)) (s : Mem × Nat)
    (small : (s.1 mCameralCount).toNat + cameras.length < 256) :
    ((cameras.foldl (reportCamera r) s).1 mCameralCount).toNat =
        (s.1 mCameralCount).toNat + cameras.countP (camEnabled r.cfg) ∧
      (∀ a, a ≠ mCameralCount → a < mEachCameralStatus + (s.1 mCameralCount).toNat * 3 →
        (cameras.foldl (reportCamera r) s).1 a = s.1 a) ∧
      (cameras.foldl (reportCamera r) s).2 = s.2 + cameras.countP (camEnabled r.cfg) * 3 := by
  induction cameras generalizing s with
  | nil => simp
  | cons i cameras ih =>
    rw [List.length_cons] at small
    rw [List.foldl_cons]
    cases enabled : camEnabled r.cfg i with
    | false =>
      rw [reportCamera_disabled enabled, List.countP_cons_of_neg (by simp [enabled])]
      exact ih s (by omega)
    | true =>
      obtain ⟨count, _, same, size⟩ := reportCamera_enabled enabled s
      have next : ((reportCamera r s i).1 mCameralCount).toNat = (s.1 mCameralCount).toNat + 1 := by
        rw [count, UInt8.toNat_add]
        exact Nat.mod_eq_of_lt (by simp; omega)
      obtain ⟨count', same', size'⟩ := ih (reportCamera r s i) (by omega)
      rw [List.countP_cons_of_pos (by simp [enabled])]
      refine ⟨by omega, fun a other low => ?_, by omega⟩
      rw [same' a other (by omega), same a other low]

/-- No later entry is written over the one of camera `i`. -/
theorem reportCameras_status {r : Reporter} {i : Fin activeCamNum} (enabled : camEnabled r.cfg i = true)
    (before after : List (Fin activeCamNum)) (s : Mem × Nat)
    (small : (s.1 mCameralCount).toNat + (before ++ i :: after).length < 256) :
    ((before ++ i :: after).foldl (reportCamera r) s).1
        (mEachCameralStatus + ((s.1 mCameralCount).toNat + before.countP (camEnabled r.cfg)) * 3 + 2) =
      (r.cstatus i).byte := by
  rw [List.length_append, List.length_cons] at small
  obtain ⟨count, _, _⟩ := reportCameras_count r before s (by omega)
  obtain ⟨count', status, _, _⟩ := reportCamera_enabled enabled (before.foldl (reportCamera r) s)
  have most : before.countP (camEnabled r.cfg) ≤ before.length := List.countP_le_length
  have next : ((reportCamera r (before.foldl (reportCamera r) s) i).1 mCameralCount).toNat =
      (s.1 mCameralCount).toNat + before.countP (camEnabled r.cfg) + 1 := by
    rw [count', UInt8.toNat_add, count]
    exact Nat.mod_eq_of_lt (by simp; omega)
  obtain ⟨_, same, _⟩ := reportCameras_count r after (reportCamera r (before.foldl (reportCamera r) s) i) (by omega)
  rw [count] at status
  rw [List.foldl_append, List.foldl_cons, same _ (by simp [mEachCameralStatus, mCameralCount]; omega) (by omega), status]

theorem finRange_split (i : Fin activeCamNum) :
    List.finRange activeCamNum = (List.finRange activeCamNum).take i ++ i :: (List.finRange activeCamNum).drop (i + 1) := by
  have there : i.val < (List.finRange activeCamNum).length := by simp
  conv_lhs => rw [← List.take_append_drop i (List.finRange activeCamNum), List.drop_eq_getElem_cons there]
  congr 2
  exact List.getElem_finRange ..

/-- **The report carries the status** of every enabled camera. -/
theorem frameStatus_reportBody {r : Reporter} (session : UInt8) {i : Fin activeCamNum} (enabled : camEnabled r.cfg i = true) :
    frameStatus r.cfg (reportBody r session) i = some (r.cstatus i) := by
  have zero : ((reportHeader r session, FrameHeader.size - 1 + 3).1 mCameralCount).toNat = 0 := rfl
  have small : ((reportHeader r session, FrameHeader.size - 1 + 3).1 mCameralCount).toNat +
      (List.finRange activeCamNum).length < 256 := by
    rw [zero, List.length_finRange]
    decide
  obtain ⟨_, _, size⟩ := reportCameras_count r (List.finRange activeCamNum) (reportHeader r session, FrameHeader.size - 1 + 3) small
  have count : camRank r.cfg i + 1 ≤ (List.finRange activeCamNum).countP (camEnabled r.cfg) := by
    rw [finRange_split i, List.countP_append, List.countP_cons_of_pos enabled, ← camRank]
    omega
  have inside : mEachCameralStatus + camRank r.cfg i * 3 + 1 < (reportBuffer r session).2 := by
    rw [reportBuffer, size]
    simp only [mEachCameralStatus, FrameHeader.size]
    omega
  rw [finRange_split i] at small
  have status := reportCameras_status enabled _ _ _ small
  rw [← finRange_split i, zero, Nat.zero_add, ← camRank] at status
  rw [frameStatus, if_pos enabled, reportBody, bytesAt_getElem? _ _ inside, Option.map_some,
    show 1 + (mEachCameralStatus + camRank r.cfg i * 3 + 1) = mEachCameralStatus + camRank r.cfg i * 3 + 2 by omega,
    reportBuffer, status, CameralStatus.ofByte_byte]

end VideoDetector.Signal
