import VideoDetector.Config.Cameras
import VideoDetector.Config.Effects
import VideoDetector.Signal.Traffic

/-!
# Reports that fit (`fvd-new/sig_service.c`)

The three reports are built in a buffer of 100 bytes on the stack. The status report and the event report always fit;
the traffic report fits as long as no enabled camera has more lanes than `Eachchannel`. The lane count is a byte of the
detection parameters that a request sets, and nothing checks it.
-/

namespace VideoDetector.Signal
set_option autoImplicit false
open Lib
open Config (activeCamNum getCamStatus getCamId getCamDirection getDevId)

/-! ## The status report -/

/-- One iteration of the camera loop of `ReportedCammerStatus`. -/
def reportCameraIn (r : Reporter) (s : Mem × Nat) (i : Fin activeCamNum) : Except ReportFault (Mem × Nat) :=
  if getCamStatus r.cfg i ≠ 0 then do
    let m := s.1
    let cstatus := FrameHeader.size + 3 + (m mCameralCount).toNat * 3
    let m ← putByte .write bufferRoom m cstatus (deviceId (BitVec.ofNat 4 (getCamId r.cfg i)) deviceClassIpCameral)
    let m ← putByte .write bufferRoom m (cstatus + 1) (m (cstatus + 1) ||| positionBit (getCamDirection r.cfg i))
    let m ← putByte .write bufferRoom m (cstatus + 2) (r.cstatus i).byte
    let m ← putByte .write bufferRoom m mCameralCount (m mCameralCount + 1)
    return (m, s.2 + 3)
  else return s

/-- `ReportedCammerStatus` with every write checked. -/
def reportedCammerStatusIn (r : Reporter) (session : UInt8) : Except ReportFault (Option (List UInt8)) := do
  let m ← putBytes .write bufferRoom (fun _ => 0) FrameHeader.mSenderLinkId
    [0x0, linkIdBetweenBoards, protocolTypeVideoDetector, protocolVersion, deviceId 1 1, deviceId 0 4, session, 0x04]
  let m ← putBytes .write bufferRoom m FrameHeader.size [deviceId (BitVec.ofNat 4 (getDevId r.cfg)) 1, 0x03, 0x0]
  let s ← (List.finRange activeCamNum).foldlM (reportCameraIn r) (m, FrameHeader.size - 1 + 3)
  let built ← buildFrameIn bufferRoom s.1 0 s.2
  return built.map fun (m, size) => bytesAt m 0 size

theorem reportCameraIn_ok {r : Reporter} {s : Mem × Nat} (i : Fin activeCamNum) (few : (s.1 mCameralCount).toNat < 16) :
    reportCameraIn r s i = .ok (reportCamera r s i) := by
  have room : FrameHeader.size + 3 + (s.1 mCameralCount).toNat * 3 + 2 < bufferRoom := by
    simp only [FrameHeader.size, bufferRoom]
    omega
  unfold reportCameraIn reportCamera
  by_cases enabled : getCamStatus r.cfg i ≠ 0
  · rw [if_pos enabled, if_pos enabled]
    dsimp only
    rw [putByte_ok _ (by omega), ok_bind, putByte_ok _ (by omega), ok_bind, putByte_ok _ room, ok_bind,
      putByte_ok _ (by decide)]
    rfl
  · rw [if_neg enabled, if_neg enabled]
    rfl

/-- The count stays small enough for the entries. -/
theorem reportCamerasIn_ok (r : Reporter) (cameras : List (Fin activeCamNum)) (s : Mem × Nat)
    (few : (s.1 mCameralCount).toNat + cameras.length ≤ 16) :
    cameras.foldlM (reportCameraIn r) s = .ok (cameras.foldl (reportCamera r) s) := by
  induction cameras generalizing s with
  | nil => rfl
  | cons i cameras ih =>
    rw [List.length_cons] at few
    obtain ⟨count, _⟩ := reportCameras_count r [i] s (by rw [List.length_singleton]; omega)
    have most : [i].countP (camEnabled r.cfg) ≤ 1 := List.countP_le_length
    rw [foldlM_cons_ok (reportCameraIn_ok i (by omega)), List.foldl_cons]
    refine ih _ ?_
    rw [List.foldl_cons, List.foldl_nil] at count
    omega

/-- **The status report fits** for every configuration. -/
theorem reportedCammerStatusIn_ok (r : Reporter) (session : UInt8) :
    reportedCammerStatusIn r session = .ok (reportedCammerStatus r session) := by
  have fits : (wireFrame (bytesAt (reportBuffer r session).1 1 (reportBuffer r session).2)).length ≤ bufferRoom :=
    wireFrame_reportBody_length r session
  obtain ⟨m, size, built, _⟩ := buildFrame_spec (reportBuffer r session).1 0 (reportBuffer r session).2
  have zero : (reportHeader r session mCameralCount).toNat = 0 := rfl
  have entries : (List.finRange activeCamNum).foldlM (reportCameraIn r) (reportHeader r session, FrameHeader.size - 1 + 3) =
      .ok (reportBuffer r session) := by
    apply reportCamerasIn_ok
    rw [zero, List.length_finRange]
    decide
  rw [reportHeader] at entries
  rw [reportedCammerStatusIn, putBytes_ok _ (by simp [FrameHeader.mSenderLinkId, bufferRoom]), ok_bind,
    putBytes_ok _ (by simp [FrameHeader.size, bufferRoom]), ok_bind, entries, ok_bind, buildFrameIn_ok fits, ok_bind,
    reportedCammerStatus, built]
  rfl

/-! ## The event report -/

namespace DeviceEventsAutoReporte
def mEventTime : Nat := 4
def size : Nat := 8
end DeviceEventsAutoReporte

/-- `ReportedEvent`, at a time. The device index of the sender and the reserved byte stay 0. -/
def reportedEvent (cfg : Config.State) (event : UInt8) (time : Nat) : Except ReportFault (Option (List UInt8)) := do
  let m ← putBytes .write bufferRoom (fun _ => 0) FrameHeader.mSenderLinkId
    [0x00, linkIdBetweenBoards, protocolTypeVideoDetector, protocolVersion, deviceId 0 1, deviceId 0 4, 0xFF, 0x10]
  let m ← putBytes .write bufferRoom m FrameHeader.size [deviceId (BitVec.ofNat 4 (getDevId cfg)) 1, 0x00, event]
  let m ← putBytes .write bufferRoom m (FrameHeader.size + DeviceEventsAutoReporte.mEventTime) (leBytes 4 time)
  let built ← buildFrameIn bufferRoom m 0 (FrameHeader.size - 1 + DeviceEventsAutoReporte.size)
  return built.map fun (m, size) => bytesAt m 0 size

/-- **The event report fits**: it has at most 36 bytes. -/
theorem reportedEvent_ok (cfg : Config.State) (event : UInt8) (time : Nat) :
    ∃ frame, reportedEvent cfg event time = .ok (some frame) ∧ frame.length ≤ 36 := by
  have short (m : Mem) :
      (wireFrame (bytesAt m 1 (FrameHeader.size - 1 + DeviceEventsAutoReporte.size))).length ≤ 36 := by
    apply (wireFrame_length_le _).trans
    rw [bytesAt_length]
    decide
  rw [reportedEvent, putBytes_ok _ (by simp [FrameHeader.mSenderLinkId, bufferRoom]), ok_bind,
    putBytes_ok _ (by simp [FrameHeader.size, bufferRoom]), ok_bind, putBytes_ok _ (by rw [leBytes_length]; decide), ok_bind]
  obtain ⟨m, len, built, length, _⟩ := buildFrameIn_spec ((short _).trans (show 36 ≤ bufferRoom by decide))
  rw [built, ok_bind]
  refine ⟨_, rfl, ?_⟩
  rw [bytesAt_length, length]
  exact short _

/-! ## Reports and requests -/

/-- The three reports write inside their buffer and read lanes that exist, whatever there is to report. -/
structure FramesFit (s : Config.State) : Prop where
  traffic : ∀ send holder, ∃ t, reportedRealStatic s send holder = .ok t
  status : ∀ holder session, ∃ frame, reportedCammerStatusIn ⟨s, holder⟩ session = .ok frame
  event : ∀ event time, ∃ frame, reportedEvent s event time = .ok frame

theorem framesFit_iff (s : Config.State) : FramesFit s ↔ ∀ i, getCamStatus s i ≠ 0 → LanesFit s i := by
  constructor
  · intro fits i enabled
    have all := (reportedRealStatic_ok_iff default).mp (fits.traffic (fun _ => 1) default)
    exact all i ⟨enabled, fun _ _ _ => Int.one_pos⟩
  · intro few
    refine ⟨fun send holder => ?_, fun holder session => ?_, fun event time => ?_⟩
    · exact (reportedRealStatic_ok_iff holder).mpr fun i reached => few i reached.1
    · exact ⟨_, reportedCammerStatusIn_ok ⟨s, holder⟩ session⟩
    · obtain ⟨frame, done, _⟩ := reportedEvent_ok s event time
      exact ⟨_, done⟩

/-- The lane count of the parameters that a request sets for a camera. -/
def FewLanes (r : Config.Request) : Prop :=
  ∀ i, Config.setKey r.buf = some (.detParam i) → (lanesOf (Config.carried r.buf .mCamDetectParam)).toNat ≤ channelMaxNum

/-- A request that sets few lanes keeps the lanes few. -/
theorem lanesFit_step {r : Config.Request} {s : Config.State} {o : Config.Outcome} (few : FewLanes r)
    (fit : ∀ i, LanesFit s i) (done : r.handle s = .ok o) : ∀ i, LanesFit o.state i := by
  intro i
  have stepped := Config.Request.stepped (Config.valid_of_ok done) done
  have store := stepped.store (.detParam i)
  by_cases sets : Config.setKey r.buf = some (.detParam i)
  · rw [if_pos sets] at store
    have carried := Config.carried_bytes r.buf .mCamDetectParam
    have same : (o.state.gCamCfg i).detParam = Config.carried r.buf .mCamDetectParam := Subtype.ext (store.trans carried.symm)
    show (lanesOf (o.state.gCamCfg i).detParam).toNat ≤ channelMaxNum
    rw [same]
    exact few i sets
  · rw [if_neg sets] at store
    have same : (o.state.gCamCfg i).detParam = (s.gCamCfg i).detParam := Subtype.ext store
    show (lanesOf (o.state.gCamCfg i).detParam).toNat ≤ channelMaxNum
    rw [same]
    exact fit i

/-- **When the reports fit** in a state that requests lead to: exactly if no enabled camera has more than four lanes.
They do if neither the loaded parameters nor those of a request have more. -/
theorem frames_fit_iff (env : Config.Env) (files : Config.StoredClass → Option (List UInt8)) (reqs : List Config.Request)
    (final : Config.State) (outcomes : List Config.Outcome)
    (run : Config.handleAll (Config.initConfig env files) reqs = .ok (final, outcomes)) :
    (FramesFit final ↔ ∀ i, getCamStatus final i ≠ 0 → (getLaneNum final i).toNat ≤ channelMaxNum) ∧
      ((∀ i, (getLaneNum (Config.initConfig env files) i).toNat ≤ channelMaxNum) → (∀ r ∈ reqs, FewLanes r) →
        FramesFit final) := by
  refine ⟨framesFit_iff final, fun loaded few => ?_⟩
  have keep : ∀ r s o, FewLanes r → (∀ i, LanesFit s i) → r.handle s = .ok o → ∀ i, LanesFit o.state i :=
    fun r s o few fit done => lanesFit_step few fit done
  have start : ∀ i, LanesFit (Config.initConfig env files) i := loaded
  have fit : ∀ i, LanesFit final i := serveAll_keeps keep few start run
  exact (framesFit_iff final).mpr fun i _ => fit i

/-- A set of the detection parameters of camera 0 with a number of lanes. -/
def setLanes (lanes : UInt8) : Config.Request :=
  { env := default
    buf := storeBytes (storeBytes (fun _ => 0) 0 [0x01, 0x02, 0x00, 0x00, 0x00, 0x07])
      (Config.cmdLen + Config.mCamDetectParam.detectlane + Config.mCamDetectLane.lanenum) [lanes]
    len := 380
    ip := Config.zeroIp }

theorem setKey_setLanes (lanes : UInt8) : Config.setKey (setLanes lanes).buf = some (.detParam 0) := by
  have command : Config.commandOf (setLanes lanes).buf = .setChechParam := by
    rw [Config.commandOf_bytes]
    rfl
  have index : Config.indexOf (setLanes lanes).buf = 0 := by
    rw [Config.indexOf_bytes]
    rfl
  rw [Config.setKey, command, index]
  rfl

theorem lanesOf_setLanes : ∀ lanes ∈ [2, 5], lanesOf (Config.carried (setLanes lanes).buf .mCamDetectParam) = lanes := by
  simp only [lanesOf, Config.carried_bytes]
  decide +kernel

theorem setKey_openCamera0 : Config.setKey Config.openCamera0.buf = some .devConfig := by
  have command : Config.commandOf Config.openCamera0.buf = .setDetectDevice := by
    rw [Config.commandOf_bytes]
    decide
  rw [Config.setKey, command]
  rfl

/-- Camera 0 is opened and gets a number of lanes. -/
theorem open_and_setLanes (lanes : UInt8) :
    ∃ final outcomes,
      Config.handleAll (Config.initConfig default fun _ => none) [Config.openCamera0, setLanes lanes] = .ok (final, outcomes) ∧
        getCamStatus final 0 ≠ 0 ∧ getLaneNum final 0 = lanesOf (Config.carried (setLanes lanes).buf .mCamDetectParam) := by
  have indexes : Config.Valid Config.openCamera0.buf ∧ Config.Valid (setLanes lanes).buf := by
    unfold Config.Valid
    rw [Config.indexOf_bytes, Config.indexOf_bytes]
    exact ⟨fun _ => by decide, fun _ => (show 0 < activeCamNum by decide)⟩
  obtain ⟨o, done, stepped⟩ := Config.handleBuffer_step default (Config.initConfig default fun _ => none)
    Config.openCamera0.buf Config.openCamera0.len Config.openCamera0.ip indexes.1
  obtain ⟨o', done', stepped'⟩ := Config.handleBuffer_step default o.state (setLanes lanes).buf (setLanes lanes).len
    (setLanes lanes).ip indexes.2
  refine ⟨o'.state, [o, o'], serveAll_cons done (serveAll_cons done' rfl), ?_, ?_⟩
  · have store := stepped'.store .devConfig
    rw [setKey_setLanes, if_neg (by simp), stepped.store, setKey_openCamera0, if_pos rfl] at store
    show (o'.state.bytes .devConfig).getD _ 0 ≠ 0
    rw [store]
    decide +kernel
  · have store := stepped'.store (.detParam 0)
    rw [setKey_setLanes, if_pos rfl] at store
    have carried := Config.carried_bytes (setLanes lanes).buf .mCamDetectParam
    exact congrArg lanesOf (Subtype.ext (store.trans carried.symm))

theorem frames_fit_twoLanes :
    (∀ i, (getLaneNum (Config.initConfig default fun _ => none) i).toNat ≤ channelMaxNum) ∧
      (∀ r ∈ [Config.openCamera0, setLanes 2], FewLanes r) ∧
      ∃ final outcomes,
        Config.handleAll (Config.initConfig default fun _ => none) [Config.openCamera0, setLanes 2] = .ok (final, outcomes) ∧
          FramesFit final := by
  have loaded : ∀ i, (getLaneNum (Config.initConfig default fun _ => none) i).toNat ≤ channelMaxNum := by decide +kernel
  have few : ∀ r ∈ [Config.openCamera0, setLanes 2], FewLanes r := by
    intro r there i sets
    rcases List.mem_pair.mp there with rfl | rfl
    · rw [setKey_openCamera0] at sets
      cases sets
    · rw [lanesOf_setLanes 2 (by decide)]
      decide
  obtain ⟨final, outcomes, run, _⟩ := open_and_setLanes 2
  exact ⟨loaded, few, final, outcomes, run, (frames_fit_iff default _ _ final outcomes run).2 loaded few⟩

/-- **The reports do not always fit**: two requests lead to a camera with five lanes, and its report reads a fifth entry
of `Eachchannel`. -/
theorem frames_overrun :
    ∃ final outcomes,
      Config.handleAll (Config.initConfig default fun _ => none) [Config.openCamera0, setLanes 5] = .ok (final, outcomes) ∧
        reportedRealStatic final (fun _ => 1) default = .error (.channel channelMaxNum) ∧ ¬ FramesFit final := by
  obtain ⟨final, outcomes, run, enabled, count⟩ := open_and_setLanes 5
  rw [lanesOf_setLanes 5 (by decide)] at count
  have many : ¬ LanesFit final 0 := by
    rw [LanesFit, count]
    decide
  have reached : Reached final (fun _ => 1) 0 := ⟨enabled, fun _ _ _ => Int.one_pos⟩
  exact ⟨final, outcomes, run, reportedRealStatic_fault default reached many,
    fun fits => many ((framesFit_iff final).mp fits 0 enabled)⟩

end VideoDetector.Signal
