import Mathlib.Data.List.Sort
import VideoDetector.Lib.Runs
import VideoDetector.Signal.Bounds
import VideoDetector.Signal.Pack

/-!
# Traffic reports (`ReportedRealStatic` in `fvd-new/sig_service.c`)

For each enabled camera a frame is built in the same buffer, which is zeroed and gets its header once, and sent. The
building calls shift what is behind the header, and the next camera writes over what they leave. `frames_alone` says that
no frame depends on the ones before it.
-/

namespace VideoDetector.Signal
set_option autoImplicit false
open Lib
open Config (activeCamNum getCamStatus getDevId)

/-- The size of `mysbuf`. -/
def bufferRoom : Nat := 100

/-- `sizeof(EachChannelPackm)`. -/
def channelSize : Nat := 10

/-- `detectlane.lanenum` of detection parameters. -/
def lanesOf (o : Config.Object .mCamDetectParam) : UInt8 :=
  o.1.getD (Config.mCamDetectParam.detectlane + Config.mCamDetectLane.lanenum) 0

/-- `get_lane_num`. -/
def getLaneNum (s : Config.State) (i : Fin activeCamNum) : UInt8 := lanesOf (s.gCamCfg i).detParam

/-- `get_cam_running_state` in one bit: a camera that runs has 0. -/
def getCamRunningState (s : Config.State) (i : Fin activeCamNum) : BitVec 1 :=
  match (s.camInfo i).camRunningState with
  | .camRunning => 0
  | .camStoped => 1

def HeaderCoil.byte (c : HeaderCoil) : UInt8 :=
  ⟨c.bVehicleType ++ c.flow ++ c.bFix0 ++ c.bOccupyStatus1 ++ c.bOccupyStatus0⟩

def TailCoil.byte (c : TailCoil) : UInt8 := ⟨c.bFix0 ++ c.bOccupyStatus1 ++ c.bOccupyStatus0⟩

/-- The bytes of an `EachChannelPackm`. The seven bits before `bDataIsValid` are never set. -/
def EachChannelPack.bytes (c : EachChannelPack) : List UInt8 :=
  [c.mDetectChannelIndex, c.mQueueLength, c.mRealTimeSingleSpeed, c.mDetectDataOfHeaderVirtualCoil.byte,
    c.mHeadwayTimeOfHeaderVirtualCoil, c.mOccupancyOfHeaderVirtualCoil, c.mDetectDataOfTailVirtualCoil.byte,
    c.mHeadwayTimeOfTailVirtualCoil, c.mOccupancyOfTailVirtualCoil, ⟨c.bDataIsValid ++ (0 : BitVec 7)⟩]

/-- The lane with the state of its camera. -/
def EachChannelPack.setDataIsValid (running : BitVec 1) (c : EachChannelPack) : EachChannelPack :=
  { c with bDataIsValid := running }

/-- The header behind its first byte. -/
def trafficHeaderBytes (cfg : Config.State) : List UInt8 :=
  [0x00, linkIdBetweenBoards, protocolTypeVideoDetector, protocolVersion, deviceId (BitVec.ofNat 4 (getDevId cfg)) 1,
    deviceId 0 4, 0xFF, 0x01]

/-- The zeroed buffer with the header. -/
def trafficHeader (cfg : Config.State) : Mem := storeBytes (fun _ => 0) FrameHeader.mSenderLinkId (trafficHeaderBytes cfg)

/-- One iteration of the loop over the lanes, on the buffer, `size` and the data of the camera. -/
def reportChannel (running : BitVec 1) (s : Mem × Nat × StaticChannel) (j : Nat) :
    Except ReportFault (Mem × Nat × StaticChannel) :=
  if inside : j < channelMaxNum then do
    let channel := (s.2.2.eachchannel ⟨j, inside⟩).setDataIsValid running
    let m ← putBytes .write bufferRoom s.1 (FrameHeader.size + 1 + j * channelSize) channel.bytes
    return (m, s.2.1 + channelSize, { s.2.2 with eachchannel := Function.update s.2.2.eachchannel ⟨j, inside⟩ channel })
  else .error (.channel j)

/-- The body of the loop over the cameras up to the sending. The lanes are written behind their count, so the bound of
their loop does not change. -/
def reportTraffic (cfg : Config.State) (m : Mem) (c : StaticChannel) (i : Fin activeCamNum) :
    Except ReportFault (Option (Mem × Nat) × StaticChannel) := do
  let c := { c with laneNum := (getLaneNum cfg i).toNat }
  let m ← putByte .write bufferRoom m FrameHeader.size (UInt8.ofNat c.laneNum)
  let (m, size, c) ← (List.range (m FrameHeader.size).toNat).foldlM (reportChannel (getCamRunningState cfg i))
    (m, FrameHeader.size - 1 + 1, c)
  return (← buildFrameIn bufferRoom m 0 size, c)

/-- `SendDataByTcp` with the result of its `send`. -/
def sendDataByTcp (ret : Int) : Int := if ret ≤ 0 then -1 else ret

/-- The loop over the cameras: the buffer, `holder`, `len`, and the frames handed to `SendDataByTcp`. -/
structure TrafficLoop where
  mem : Mem
  holder : Fin activeCamNum → StaticChannel
  len : Int
  sent : List (Fin activeCamNum × List UInt8)

/-- The loop over the cameras, with the result of the `send` for each. -/
def reportTraffics (cfg : Config.State) (send : Fin activeCamNum → Int) :
    List (Fin activeCamNum) → TrafficLoop → Except ReportFault TrafficLoop
  | [], s => .ok s
  | i :: rest, s =>
    if getCamStatus cfg i ≠ 0 then do
      let (built, c) ← reportTraffic cfg s.mem (s.holder i) i
      match built with
      | some (m, size) =>
        let len := sendDataByTcp (send i)
        let s :=
          { mem := m, holder := Function.update s.holder i c, len := len, sent := s.sent ++ [(i, bytesAt m 0 size)] }
        if len ≤ 0 then return s else reportTraffics cfg send rest s
      | none => return s
    else reportTraffics cfg send rest s

/-- `ReportedRealStatic`; its result is `len` at the end. -/
def reportedRealStatic (cfg : Config.State) (send : Fin activeCamNum → Int) (holder : Fin activeCamNum → StaticChannel) :
    Except ReportFault TrafficLoop := do
  let m ← putBytes .write bufferRoom (fun _ => 0) FrameHeader.mSenderLinkId (trafficHeaderBytes cfg)
  reportTraffics cfg send (List.finRange activeCamNum) { mem := m, holder := holder, len := -1, sent := [] }

/-! ## The lanes -/

@[simp] theorem EachChannelPack.bytes_length (c : EachChannelPack) : c.bytes.length = channelSize := rfl

/-- The data of the first lanes with the state of the camera in them. -/
def markFirst (running : BitVec 1) (c : StaticChannel) (n : Nat) : StaticChannel :=
  { c with
    eachchannel := fun k => if k.val < n then (c.eachchannel k).setDataIsValid running else c.eachchannel k }

/-- One more lane gets the state of the camera. -/
theorem markFirst_succ (running : BitVec 1) (c : StaticChannel) {n : Nat} (inside : n < channelMaxNum) :
    { markFirst running c n with
      eachchannel := Function.update (markFirst running c n).eachchannel ⟨n, inside⟩
        ((c.eachchannel ⟨n, inside⟩).setDataIsValid running) } = markFirst running c (n + 1) := by
  have lanes : Function.update (markFirst running c n).eachchannel ⟨n, inside⟩
      ((c.eachchannel ⟨n, inside⟩).setDataIsValid running) = (markFirst running c (n + 1)).eachchannel := by
    funext k
    by_cases here : k = ⟨n, inside⟩
    · subst here
      rw [Function.update_self]
      exact (if_pos (Nat.lt_succ_self n)).symm
    · have other : k.val ≠ n := fun same => here (Fin.ext same)
      have below : k.val < n + 1 ↔ k.val < n := by omega
      rw [Function.update_of_ne here]
      simp only [markFirst, below]
  exact congrArg (fun lanes => { c with eachchannel := lanes }) lanes

/-- The bytes of the first lanes. -/
def laneBytes (running : BitVec 1) (lanes : Fin channelMaxNum → EachChannelPack) : Nat → List UInt8
  | 0 => []
  | n + 1 =>
    laneBytes running lanes n ++
      if inside : n < channelMaxNum then ((lanes ⟨n, inside⟩).setDataIsValid running).bytes else []

theorem laneBytes_length (running : BitVec 1) (lanes : Fin channelMaxNum → EachChannelPack) {n : Nat}
    (few : n ≤ channelMaxNum) : (laneBytes running lanes n).length = n * channelSize := by
  induction n with
  | zero => rw [laneBytes, Nat.zero_mul]; rfl
  | succ n ih =>
    rw [laneBytes, List.length_append, ih (by omega), dif_pos (by omega), EachChannelPack.bytes_length, Nat.succ_mul]

/-- The loop over the lanes writes their bytes one behind the other. -/
theorem reportChannels_ok (running : BitVec 1) (m : Mem) (size : Nat) (c : StaticChannel) {n : Nat} (few : n ≤ channelMaxNum) :
    (List.range n).foldlM (reportChannel running) (m, size, c) =
      .ok (storeBytes m (FrameHeader.size + 1) (laneBytes running c.eachchannel n), size + n * channelSize,
        markFirst running c n) := by
  induction n with
  | zero =>
    have unmarked : markFirst running c 0 = c := by simp [markFirst]
    rw [laneBytes, storeBytes_nil, unmarked, Nat.zero_mul]
    rfl
  | succ n ih =>
    have inside : n < channelMaxNum := few
    have same : (markFirst running c n).eachchannel ⟨n, inside⟩ = c.eachchannel ⟨n, inside⟩ := by simp [markFirst]
    have room : FrameHeader.size + 1 + n * channelSize + channelSize ≤ bufferRoom := by
      unfold channelMaxNum at inside
      simp only [FrameHeader.size, channelSize, bufferRoom]
      omega
    have done : reportChannel running
        (storeBytes m (FrameHeader.size + 1) (laneBytes running c.eachchannel n), size + n * channelSize,
          markFirst running c n) n =
        .ok (storeBytes m (FrameHeader.size + 1) (laneBytes running c.eachchannel (n + 1)), size + (n + 1) * channelSize,
          markFirst running c (n + 1)) := by
      rw [reportChannel, dif_pos inside, ← markFirst_succ running c inside, Nat.succ_mul, ← Nat.add_assoc, laneBytes,
        dif_pos inside, ← storeBytes_append, laneBytes_length running _ (Nat.le_of_lt inside)]
      simp only [same]
      rw [putBytes_ok _ (by rw [EachChannelPack.bytes_length]; exact room)]
      rfl
    rw [List.range_succ]
    exact foldlM_snoc_ok (ih (by omega)) done

/-- A fifth lane is behind the end of `Eachchannel`. -/
theorem reportChannels_fault (running : BitVec 1) (m : Mem) (size : Nat) (c : StaticChannel) {n : Nat}
    (many : channelMaxNum < n) :
    (List.range n).foldlM (reportChannel running) (m, size, c) = .error (.channel channelMaxNum) := by
  obtain ⟨k, rfl⟩ : ∃ k, n = channelMaxNum + (k + 1) := ⟨n - channelMaxNum - 1, by omega⟩
  rw [List.range_add, foldlM_append_of_ok (reportChannels_ok running m size c (Nat.le_refl _)), List.range_succ_eq_map,
    List.map_cons, List.foldlM_cons, reportChannel, dif_neg (by omega)]
  rfl

/-! ## The frame of a camera -/

section
variable (cfg : Config.State) (i : Fin activeCamNum)

/-- What the frame of a camera carries. -/
def trafficBody (lanes : Fin channelMaxNum → EachChannelPack) : List UInt8 :=
  trafficHeaderBytes cfg ++ getLaneNum cfg i :: laneBytes (getCamRunningState cfg i) lanes (getLaneNum cfg i).toNat

/-- The data of a camera after its report. -/
def reported (c : StaticChannel) : StaticChannel :=
  markFirst (getCamRunningState cfg i) { c with laneNum := (getLaneNum cfg i).toNat } (getLaneNum cfg i).toNat

/-- The camera has no more lanes than there is data for. -/
def LanesFit : Prop := (getLaneNum cfg i).toNat ≤ channelMaxNum

instance : Decidable (LanesFit cfg i) := inferInstanceAs (Decidable (_ ≤ _))

theorem deviceId_plain (index : BitVec 4) : slip.special (deviceId index 1) = false := by
  decide +revert

/-- No byte of the header needs a code, for any device id. -/
theorem trafficHeaderBytes_plain : ∀ b ∈ trafficHeaderBytes cfg, slip.special b = false := by
  intro b there
  simp only [trafficHeaderBytes, List.mem_cons, List.not_mem_nil, or_false] at there
  rcases there with rfl | rfl | rfl | rfl | rfl | rfl | rfl | rfl
  · rfl
  · rfl
  · rfl
  · rfl
  · exact deviceId_plain _
  · rfl
  · rfl
  · rfl

theorem trafficHeaderBytes_length : (trafficHeaderBytes cfg).length = FrameHeader.size - 1 := rfl

variable {cfg i}

theorem LanesFit.count_plain (fit : LanesFit cfg i) : slip.special (getLaneNum cfg i) = false := by
  unfold LanesFit at fit
  by_contra special
  rw [Bool.not_eq_false, Stuffing.special, Bool.or_eq_true, decide_eq_true_eq, decide_eq_true_eq] at special
  rcases special with delim | esc
  · rw [delim] at fit
    exact absurd fit (by decide)
  · rw [esc] at fit
    exact absurd fit (by decide)

/-- The header and the count go through the encoding as they are. -/
theorem LanesFit.escape_body (fit : LanesFit cfg i) (lanes : Fin channelMaxNum → EachChannelPack) :
    ∃ rest, slip.escape (withCrc (trafficBody cfg i lanes)) = trafficHeaderBytes cfg ++ getLaneNum cfg i :: rest ∧
      rest.length ≤ 2 * ((getLaneNum cfg i).toNat * channelSize + 1) := by
  have plain : ∀ b ∈ trafficHeaderBytes cfg ++ [getLaneNum cfg i], slip.special b = false := by
    intro b there
    rcases List.mem_append.mp there with inHeader | isCount
    · exact trafficHeaderBytes_plain cfg b inHeader
    · rw [List.mem_singleton.mp isCount]
      exact fit.count_plain
  have split : withCrc (trafficBody cfg i lanes) =
      (trafficHeaderBytes cfg ++ [getLaneNum cfg i]) ++
        (laneBytes (getCamRunningState cfg i) lanes (getLaneNum cfg i).toNat ++ [xorBytes (trafficBody cfg i lanes)]) := by
    simp [withCrc, trafficBody]
  refine ⟨slip.escape (laneBytes (getCamRunningState cfg i) lanes (getLaneNum cfg i).toNat ++
    [xorBytes (trafficBody cfg i lanes)]), ?_, ?_⟩
  · rw [split, slip.escape_append, slip.escape_of_plain plain, List.append_assoc]
    rfl
  · apply (slip.escape_length_le _).trans
    rw [List.length_append, laneBytes_length _ _ fit, List.length_singleton]

/-- The frame fits the buffer even if every byte behind the count has to be escaped. -/
theorem LanesFit.frame_length (fit : LanesFit cfg i) (lanes : Fin channelMaxNum → EachChannelPack) :
    (wireFrame (trafficBody cfg i lanes)).length ≤ bufferRoom := by
  obtain ⟨rest, escaped, short⟩ := fit.escape_body lanes
  rw [wireFrame_length, escaped, List.length_append, List.length_cons, trafficHeaderBytes_length]
  unfold LanesFit channelMaxNum at fit
  simp only [FrameHeader.size, channelSize, bufferRoom] at short ⊢
  omega

theorem reportTraffic_eq (m : Mem) (c : StaticChannel) :
    reportTraffic cfg m c i = (do
      let (m, size, c) ← (List.range (getLaneNum cfg i).toNat).foldlM (reportChannel (getCamRunningState cfg i))
        (setByte m FrameHeader.size (getLaneNum cfg i), FrameHeader.size, { c with laneNum := (getLaneNum cfg i).toNat })
      return (← buildFrameIn bufferRoom m 0 size, c)) := by
  unfold reportTraffic
  simp only [UInt8.ofNat_toNat]
  rw [putByte_ok _ (by decide)]
  simp only [bind, Except.bind, setByte_same]
  rfl

/-- The buffer in front of the building calls. -/
theorem LanesFit.body_window (fit : LanesFit cfg i) {m : Mem}
    (header : bytesAt m 1 (FrameHeader.size - 1) = trafficHeaderBytes cfg) (lanes : Fin channelMaxNum → EachChannelPack) :
    bytesAt (storeBytes (setByte m FrameHeader.size (getLaneNum cfg i)) (FrameHeader.size + 1)
      (laneBytes (getCamRunningState cfg i) lanes (getLaneNum cfg i).toNat)) 1
        (FrameHeader.size + (getLaneNum cfg i).toNat * channelSize) = trafficBody cfg i lanes := by
  have behind := bytesAt_storeBytes_behind m 1 (FrameHeader.size - 1)
    (getLaneNum cfg i :: laneBytes (getCamRunningState cfg i) lanes (getLaneNum cfg i).toNat)
  rw [List.length_cons, laneBytes_length _ _ fit, header] at behind
  rw [storeBytes_cons]
  exact (congrArg (bytesAt _ 1) (by simp only [FrameHeader.size]; omega)).trans behind

/-- **The frame of a camera** is that of its body whatever the buffer held behind the header, and the header stays. -/
theorem reportTraffic_ok (fit : LanesFit cfg i) {m : Mem} (header : bytesAt m 1 (FrameHeader.size - 1) = trafficHeaderBytes cfg)
    (c : StaticChannel) :
    ∃ m' size, reportTraffic cfg m c i = .ok (some (m', size), reported cfg i c) ∧
      bytesAt m' 0 size = wireFrame (trafficBody cfg i c.eachchannel) ∧
      bytesAt m' 1 (FrameHeader.size - 1) = trafficHeaderBytes cfg := by
  have body := fit.body_window header c.eachchannel
  have fits := fit.frame_length c.eachchannel
  rw [← body] at fits
  obtain ⟨m', size, built, length, window⟩ := buildFrameIn_spec fits
  rw [body] at length window
  refine ⟨m', size, ?_, window, ?_⟩
  · rw [reportTraffic_eq, reportChannels_ok _ _ _ _ fit, ok_bind]
    dsimp only
    rw [built, ok_bind]
    rfl
  · obtain ⟨_, inner, _⟩ := wireFrame_window length window
    obtain ⟨rest, escaped, _⟩ := fit.escape_body c.eachchannel
    rw [escaped] at inner
    exact bytesAt_left inner

/-- A camera with too many lanes. -/
theorem reportTraffic_fault (many : ¬ LanesFit cfg i) (m : Mem) (c : StaticChannel) :
    reportTraffic cfg m c i = .error (.channel channelMaxNum) := by
  rw [reportTraffic_eq, reportChannels_fault _ _ _ _ (Nat.lt_of_not_le many)]
  rfl

end

/-! ## The loop over the cameras -/

/-- The enabled cameras up to the first whose `send` fails. -/
def reachedCameras (cfg : Config.State) (send : Fin activeCamNum → Int) : List (Fin activeCamNum) → List (Fin activeCamNum)
  | [] => []
  | i :: rest =>
    if getCamStatus cfg i ≠ 0 then if send i ≤ 0 then [i] else i :: reachedCameras cfg send rest
    else reachedCameras cfg send rest

/-- What a loop assigned last, with one more element in front. -/
theorem lastResult_cons {α β : Type} (f : α → β) (a : α) (rest : List α) (d : β) :
    ((a :: rest).getLast?.map f).getD d = (rest.getLast?.map f).getD (f a) := by
  rw [List.getLast?_cons]
  cases rest.getLast? with
  | none => rfl
  | some b => rfl

theorem sendDataByTcp_le_zero (ret : Int) : sendDataByTcp ret ≤ 0 ↔ ret ≤ 0 := by
  unfold sendDataByTcp
  split <;> omega

section
variable {cfg : Config.State} {send : Fin activeCamNum → Int}

theorem mem_of_reached {cameras : List (Fin activeCamNum)} {i : Fin activeCamNum}
    (reached : i ∈ reachedCameras cfg send cameras) : i ∈ cameras := by
  induction cameras with
  | nil => exact reached
  | cons j rest ih =>
    rw [reachedCameras] at reached
    split at reached
    · split at reached
      · rw [List.mem_singleton.mp reached]
        exact List.mem_cons_self
      · rcases List.mem_cons.mp reached with here | there
        · rw [here]
          exact List.mem_cons_self
        · exact List.mem_cons_of_mem _ (ih there)
    · exact List.mem_cons_of_mem _ (ih reached)

variable (cfg send) in
/-- The loop behind the `SendDataByTcp` of a camera. -/
def TrafficLoop.after (s : TrafficLoop) (i : Fin activeCamNum) (m : Mem) : TrafficLoop :=
  { mem := m
    holder := Function.update s.holder i (reported cfg i (s.holder i))
    len := sendDataByTcp (send i)
    sent := s.sent ++ [(i, wireFrame (trafficBody cfg i (s.holder i).eachchannel))] }

/-- The iteration for an enabled camera whose lanes fit. -/
theorem reportTraffics_enabled {i : Fin activeCamNum} (enabled : getCamStatus cfg i ≠ 0) (fit : LanesFit cfg i)
    (rest : List (Fin activeCamNum)) (s : TrafficLoop)
    (header : bytesAt s.mem 1 (FrameHeader.size - 1) = trafficHeaderBytes cfg) :
    ∃ m, bytesAt m 1 (FrameHeader.size - 1) = trafficHeaderBytes cfg ∧
      reportTraffics cfg send (i :: rest) s =
        if send i ≤ 0 then .ok (s.after cfg send i m) else reportTraffics cfg send rest (s.after cfg send i m) := by
  obtain ⟨m, size, done, window, header'⟩ := reportTraffic_ok fit header (s.holder i)
  refine ⟨m, header', ?_⟩
  rw [reportTraffics, if_pos enabled, done, TrafficLoop.after, ← window]
  simp only [← sendDataByTcp_le_zero (send i)]
  rfl

/-- **The loop** sends the frame of each camera it reaches, and ends with the result of the last `send`. -/
theorem reportTraffics_ok {cameras : List (Fin activeCamNum)} (distinct : cameras.Nodup)
    (fit : ∀ i ∈ reachedCameras cfg send cameras, LanesFit cfg i) (s : TrafficLoop)
    (header : bytesAt s.mem 1 (FrameHeader.size - 1) = trafficHeaderBytes cfg) :
    ∃ t, reportTraffics cfg send cameras s = .ok t ∧
      t.sent = s.sent ++ (reachedCameras cfg send cameras).map
        (fun i => (i, wireFrame (trafficBody cfg i (s.holder i).eachchannel))) ∧
      t.len = ((reachedCameras cfg send cameras).getLast?.map fun i => sendDataByTcp (send i)).getD s.len := by
  induction cameras generalizing s with
  | nil => exact ⟨s, rfl, (List.append_nil _).symm, rfl⟩
  | cons i rest ih =>
    rw [List.nodup_cons] at distinct
    by_cases enabled : getCamStatus cfg i ≠ 0
    · have reached : reachedCameras cfg send (i :: rest) = if send i ≤ 0 then [i] else i :: reachedCameras cfg send rest := by
        rw [reachedCameras, if_pos enabled]
      rw [reached] at fit ⊢
      have first : LanesFit cfg i := by
        apply fit
        split <;> exact List.mem_cons_self
      obtain ⟨m, header', done⟩ := reportTraffics_enabled enabled first rest s header
      rw [done]
      by_cases failed : send i ≤ 0
      · simp only [if_pos failed] at fit ⊢
        exact ⟨_, rfl, rfl, rfl⟩
      · simp only [if_neg failed] at fit ⊢
        obtain ⟨t, run, sent, len⟩ :=
          ih distinct.2 (fun j there => fit j (List.mem_cons_of_mem _ there)) (s.after cfg send i m) header'
        have same : ∀ j ∈ reachedCameras cfg send rest, (s.after cfg send i m).holder j = s.holder j := by
          intro j there
          have other : j ≠ i := fun same => distinct.1 (same ▸ mem_of_reached there)
          exact Function.update_of_ne other _ _
        refine ⟨t, run, ?_, ?_⟩
        · rw [sent, List.map_congr_left fun j there => by rw [same j there], List.map_cons, TrafficLoop.after,
            List.append_assoc]
          rfl
        · rw [len, lastResult_cons]
          rfl
    · rw [reachedCameras, if_neg enabled] at fit ⊢
      rw [reportTraffics, if_neg enabled]
      exact ih distinct.2 fit s header

/-- A camera with too many lanes that is reached ends the loop. -/
theorem reportTraffics_fault {cameras : List (Fin activeCamNum)} {i : Fin activeCamNum}
    (reached : i ∈ reachedCameras cfg send cameras) (many : ¬ LanesFit cfg i) (s : TrafficLoop)
    (header : bytesAt s.mem 1 (FrameHeader.size - 1) = trafficHeaderBytes cfg) :
    reportTraffics cfg send cameras s = .error (.channel channelMaxNum) := by
  induction cameras generalizing s with
  | nil => cases reached
  | cons j rest ih =>
    rw [reachedCameras] at reached
    by_cases enabled : getCamStatus cfg j ≠ 0
    · rw [if_pos enabled] at reached
      by_cases fit : LanesFit cfg j
      · have other : i ≠ j := fun same => many (same ▸ fit)
        obtain ⟨m, header', done⟩ := reportTraffics_enabled enabled fit rest s header
        by_cases failed : send j ≤ 0
        · rw [if_pos failed] at reached
          exact absurd (List.mem_singleton.mp reached) other
        · rw [if_neg failed] at reached
          rw [done, if_neg failed]
          exact ih ((List.mem_cons.mp reached).resolve_left other) (s.after cfg send j m) header'
      · rw [reportTraffics, if_pos enabled, reportTraffic_fault fit]
        rfl
    · rw [if_neg enabled] at reached
      rw [reportTraffics, if_neg enabled]
      exact ih reached s header

/-- In a list in order the cameras reached are the enabled ones with no failure before them. -/
theorem mem_reachedCameras {cameras : List (Fin activeCamNum)} (sorted : cameras.Pairwise (· < ·)) (i : Fin activeCamNum) :
    i ∈ reachedCameras cfg send cameras ↔
      i ∈ cameras ∧ getCamStatus cfg i ≠ 0 ∧ ∀ j ∈ cameras, j < i → getCamStatus cfg j ≠ 0 → 0 < send j := by
  induction cameras with
  | nil => simp [reachedCameras]
  | cons k rest ih =>
    rw [List.pairwise_cons] at sorted
    obtain ⟨before, sorted⟩ := sorted
    rw [reachedCameras]
    split
    · split
      · grind
      · grind
    · grind

end

/-- The camera is enabled and no `send` fails before its turn. -/
def Reached (cfg : Config.State) (send : Fin activeCamNum → Int) (i : Fin activeCamNum) : Prop :=
  getCamStatus cfg i ≠ 0 ∧ ∀ j < i, getCamStatus cfg j ≠ 0 → 0 < send j

theorem reached_iff {cfg : Config.State} {send : Fin activeCamNum → Int} {i : Fin activeCamNum} :
    i ∈ reachedCameras cfg send (List.finRange activeCamNum) ↔ Reached cfg send i := by
  rw [mem_reachedCameras (List.sortedLT_finRange activeCamNum).pairwise]
  simp [Reached]

section
variable (cfg : Config.State) (send : Fin activeCamNum → Int) (holder : Fin activeCamNum → StaticChannel)

theorem trafficHeader_window : bytesAt (trafficHeader cfg) 1 (FrameHeader.size - 1) = trafficHeaderBytes cfg :=
  bytesAt_storeBytes _ _ _

theorem reportedRealStatic_eq :
    reportedRealStatic cfg send holder =
      reportTraffics cfg send (List.finRange activeCamNum)
        { mem := trafficHeader cfg, holder := holder, len := -1, sent := [] } := by
  rw [reportedRealStatic, putBytes_ok _ (by rw [trafficHeaderBytes_length]; decide)]
  rfl

variable {cfg send}

theorem reportedRealStatic_ok (fit : ∀ i, Reached cfg send i → LanesFit cfg i) :
    ∃ t, reportedRealStatic cfg send holder = .ok t ∧
      t.sent = (reachedCameras cfg send (List.finRange activeCamNum)).map
        (fun i => (i, wireFrame (trafficBody cfg i (holder i).eachchannel))) ∧
      t.len = ((reachedCameras cfg send (List.finRange activeCamNum)).getLast?.map fun i => sendDataByTcp (send i)).getD (-1) := by
  rw [reportedRealStatic_eq]
  exact reportTraffics_ok (List.nodup_finRange activeCamNum) (fun i reached => fit i (reached_iff.mp reached)) _
    (trafficHeader_window cfg)

theorem reportedRealStatic_fault {i : Fin activeCamNum} (reached : Reached cfg send i) (many : ¬ LanesFit cfg i) :
    reportedRealStatic cfg send holder = .error (.channel channelMaxNum) := by
  rw [reportedRealStatic_eq]
  exact reportTraffics_fault (reached_iff.mpr reached) many _ (trafficHeader_window cfg)

/-- **No write outside and no lane that is not there**: exactly if the lanes of every camera reached fit. -/
theorem reportedRealStatic_ok_iff :
    (∃ t, reportedRealStatic cfg send holder = .ok t) ↔ ∀ i, Reached cfg send i → LanesFit cfg i := by
  constructor
  · rintro ⟨t, run⟩ i reached
    by_contra many
    rw [reportedRealStatic_fault holder reached many] at run
    cases run
  · intro fit
    obtain ⟨t, run, _⟩ := reportedRealStatic_ok holder fit
    exact ⟨t, run⟩

end

/-- The frame for one camera in the zeroed buffer with the header. -/
def frameAlone (cfg : Config.State) (c : StaticChannel) (i : Fin activeCamNum) : Except ReportFault (Option (List UInt8)) := do
  let (built, _) ← reportTraffic cfg (trafficHeader cfg) c i
  return built.map fun (m, size) => bytesAt m 0 size

theorem frameAlone_ok {cfg : Config.State} {i : Fin activeCamNum} (fit : LanesFit cfg i) (c : StaticChannel) :
    frameAlone cfg c i = .ok (some (wireFrame (trafficBody cfg i c.eachchannel))) := by
  obtain ⟨m, size, done, window, _⟩ := reportTraffic_ok fit (trafficHeader_window cfg) c
  rw [frameAlone, done, ← window]
  rfl

/-- **Traffic frames do not depend on each other**: with at most four lanes for each enabled camera a call sends, for
every camera it reaches, the frame that is built for this camera alone. -/
theorem frames_alone (cfg : Config.State) (send : Fin activeCamNum → Int) (holder : Fin activeCamNum → StaticChannel)
    (few : ∀ i, getCamStatus cfg i ≠ 0 → (getLaneNum cfg i).toNat ≤ 4) :
    ∃ t, reportedRealStatic cfg send holder = .ok t ∧
      (∀ i, (∃ frame, (i, frame) ∈ t.sent) ↔ Reached cfg send i) ∧
      ∀ i frame, (i, frame) ∈ t.sent → frameAlone cfg (holder i) i = .ok (some frame) := by
  have fit : ∀ i, Reached cfg send i → LanesFit cfg i := fun i reached => few i reached.1
  obtain ⟨t, run, sent, _⟩ := reportedRealStatic_ok holder fit
  refine ⟨t, run, fun i => ?_, fun i frame there => ?_⟩
  · rw [sent]
    constructor
    · rintro ⟨frame, there⟩
      obtain ⟨j, reached, same⟩ := List.mem_map.mp there
      cases same
      exact reached_iff.mp reached
    · intro reached
      exact ⟨_, List.mem_map.mpr ⟨i, reached_iff.mpr reached, rfl⟩⟩
  · rw [sent] at there
    obtain ⟨j, reached, same⟩ := List.mem_map.mp there
    cases same
    exact frameAlone_ok (few i (reached_iff.mp reached).1) (holder i)

/-- Detection parameters with a number of lanes. -/
def withLanes (lanes : UInt8) : Config.Object .mCamDetectParam :=
  ⟨(Config.zeroObj .mCamDetectParam).1.set (Config.mCamDetectParam.detectlane + Config.mCamDetectLane.lanenum) lanes, by
    rw [List.length_set, (Config.zeroObj .mCamDetectParam).2]⟩

/-- The first two cameras are enabled, with two lanes. -/
def twoCameras : Config.State :=
  { Config.freshState fun _ => none with
    gDevCfg := Config.setCamstatus (Config.setCamstatus (Config.zeroObj _) 0 1) 1 1
    gCamCfg := fun _ => ⟨Config.zeroObj _, withLanes 2⟩ }

theorem frames_alone_twoCameras :
    (∀ i, getCamStatus twoCameras i ≠ 0 → (getLaneNum twoCameras i).toNat ≤ 4) ∧
      ∃ t, reportedRealStatic twoCameras (fun _ => 33) (fun _ => default) = .ok t ∧
        (∀ i, (∃ frame, (i, frame) ∈ t.sent) ↔ Reached twoCameras (fun _ => 33) i) ∧
        ∀ i frame, (i, frame) ∈ t.sent → frameAlone twoCameras default i = .ok (some frame) := by
  have few : ∀ i, getCamStatus twoCameras i ≠ 0 → (getLaneNum twoCameras i).toNat ≤ 4 := by decide
  exact ⟨few, frames_alone twoCameras (fun _ => 33) (fun _ => default) few⟩

end VideoDetector.Signal
