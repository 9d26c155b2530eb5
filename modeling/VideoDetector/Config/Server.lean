import Mathlib.Logic.Function.Basic
import VideoDetector.Config.Codec
import VideoDetector.Lib.Blocks

/-!
# The configuration server (`fvd-new/client_net.c`, `client_file.c`, `file_op.c`)

One request at a time is taken from a client, decoded in its buffer and carried out on the stored
configuration, the three configuration files, the client list, the cameras and the link to the
signal machine. An access behind the end of an array is a `Fault`; everything a request does and
returns otherwise is its `Outcome`. A C string ends at the end of the object it is in.
-/

namespace VideoDetector.Config
set_option autoImplicit false
open Lib

/-! ## State -/

/-- The classes of object the server stores. -/
inductive StoredClass where
  | mCamParam | mDetectDeviceConfig | mCamDetectParam
  deriving DecidableEq, Repr

def StoredClass.type : StoredClass → ClassType
  | mCamParam => .mCamParam
  | mDetectDeviceConfig => .mDetectDeviceConfig
  | mCamDetectParam => .mCamDetectParam

/-- The bytes of a stored object. -/
abbrev Object (c : StoredClass) := { bytes : List UInt8 // bytes.length = getObjLen c.type }

/-- An address as `recv_buf` hands it over. -/
abbrev Ip := { bytes : List UInt8 // bytes.length = ipAddrMax }

/-- `m_cam_cfg`. -/
structure CamCfg where
  camParam : Object .mCamParam
  detParam : Object .mCamDetectParam

/-- `m_client_ip_data`. -/
structure ClientIpData where
  ip : Ip
  cameraIndex : Nat
  time : Nat
  fd : Nat
  times : Nat
  deriving DecidableEq

inductive RunningState where
  | camRunning | camStoped
  deriving DecidableEq, Repr

inductive CameraControl where
  | null | open | close | reset | setNtp | resetAlg
  deriving DecidableEq, Repr

/-- What a request can change of `m_camera_info`. -/
structure CameraInfo where
  openFlg : Bool
  camRunningState : RunningState
  cmd : CameraControl
  ip : List UInt8
  name : List UInt8
  passwd : List UInt8
  port : Nat
  deriving DecidableEq

inductive SigState where
  | preConnect | connected | null
  deriving DecidableEq, Repr

/-- The link to the signal machine. -/
structure SigLink where
  sigState : SigState
  sigFd : Int
  sigIp : List UInt8
  sigPort : Nat
  deriving DecidableEq

/-- The globals of the server and the configuration files; a file is `none` if it cannot be
opened. -/
structure State where
  gCamCfg : Fin activeCamNum → CamCfg
  gDevCfg : Object .mDetectDeviceConfig
  files : StoredClass → Option (List UInt8)
  ipList : List ClientIpData
  camInfo : Fin activeCamNum → CameraInfo
  sig : SigLink

/-- What the system answers during one request: the socket `add_client` gets in the end, the result
of opening a camera and of reporting an event. -/
structure Env where
  udpFd : Nat
  netOpenCamera : Fin activeCamNum → Int
  reportedEvent : UInt8 → Int
  deriving Inhabited

inductive ArrayName where
  | gCamCfg | camInfo
  deriving DecidableEq, Repr

/-- An access to an element an array does not have. -/
structure Fault where
  array : ArrayName
  index : Nat
  deriving DecidableEq, Repr

/-! ## Cameras (`camera_service.c`) -/

def setCamInfo (s : State) (i : Fin activeCamNum) (info : CameraInfo) : State :=
  { s with camInfo := Function.update s.camInfo i info }

/-- `camera_ctrl`. -/
def cameraCtrl (s : State) (cmd : CameraControl) (index : Nat) : Except Fault State :=
  if h : index < activeCamNum then .ok (setCamInfo s ⟨index, h⟩ { s.camInfo ⟨index, h⟩ with cmd := cmd })
  else .error ⟨.camInfo, index⟩

/-- `camera_open`. A camera that is open is only reset. -/
def cameraOpen (env : Env) (s : State) (i : Fin activeCamNum) (ip : List UInt8) (port : Nat)
    (username passwd : List UInt8) : State :=
  if (s.camInfo i).openFlg then setCamInfo s i { s.camInfo i with cmd := .reset }
  else
    setCamInfo s i
      { s.camInfo i with
        ip := ip
        name := username
        passwd := passwd
        port := port
        camRunningState := if env.netOpenCamera i = 0 then .camRunning else .camStoped
        openFlg := true }

/-- `camera_close`. -/
def cameraClose (s : State) (i : Fin activeCamNum) : State :=
  setCamInfo s i { s.camInfo i with openFlg := false, camRunningState := .camStoped }

/-! ## Fields of stored objects -/

/-- The C string at an offset of an object. -/
def cstr (bytes : List UInt8) (off : Nat) : List UInt8 := (bytes.drop off).takeWhile (· ≠ 0)

/-- The unsigned integer at an offset of an object. -/
def wordAt (bytes : List UInt8) (off w : Nat) : Nat := leVal ((bytes.drop off).take w)

def camClosedStatus : UInt8 := 0
def camOpenedStatus : UInt8 := 1

/-- `cam_info[i].camstatus`. -/
def camstatus (o : Object .mDetectDeviceConfig) (i : Fin activeCamNum) : UInt8 :=
  o.1.getD (mDetectDeviceConfig.camInfo i + mCaminfo.camstatus) 0

/-- `cam_info[i].cammerIp`. -/
def cammerIp (o : Object .mDetectDeviceConfig) (i : Fin activeCamNum) : List UInt8 :=
  cstr o.1 (mDetectDeviceConfig.camInfo i + mCaminfo.cammerIp)

def setCamstatus (o : Object .mDetectDeviceConfig) (i : Fin activeCamNum) (b : UInt8) : Object .mDetectDeviceConfig :=
  ⟨o.1.set (mDetectDeviceConfig.camInfo i + mCaminfo.camstatus) b, by rw [List.length_set, o.2]⟩

def signalIp (o : Object .mCamParam) : List UInt8 := cstr o.1 (mCamParam.camattr + mCamAttributes.signalIp)
def signalport (o : Object .mCamParam) : Nat := wordAt o.1 (mCamParam.camattr + mCamAttributes.signalport) 4
def cammerport (o : Object .mCamParam) : Nat := wordAt o.1 (mCamParam.camattr + mCamAttributes.cammerport) 4
def username (o : Object .mCamParam) : List UInt8 := cstr o.1 (mCamParam.camattr + mCamAttributes.username)
def passwd (o : Object .mCamParam) : List UInt8 := cstr o.1 (mCamParam.camattr + mCamAttributes.passwd)

/-- `get_cam_status`. -/
def getCamStatus (s : State) (i : Fin activeCamNum) : UInt8 := camstatus s.gDevCfg i

/-- `get_cam_id`. -/
def getCamId (s : State) (i : Fin activeCamNum) : Nat :=
  wordAt (s.gCamCfg i).camParam.1 (mCamParam.camattr + mCamAttributes.camID) 4

/-- `get_cam_direction`. -/
def getCamDirection (s : State) (i : Fin activeCamNum) : UInt8 :=
  s.gDevCfg.1.getD (mDetectDeviceConfig.camInfo i + mCaminfo.camdirect) 0

/-- `get_dev_id`. -/
def getDevId (s : State) : Nat := wordAt s.gDevCfg.1 mDetectDeviceConfig.deviceID 4

/-! ## Files (`client_file.c`, `file_op.c`) -/

/-- `save_buf`. -/
def saveBuf (f : Option (List UInt8)) (bf : List UInt8) (pos : Nat) : Option (List UInt8) :=
  f.map fun f => overlay f pos bf

/-- `load_buf`: a short read leaves the rest of the object as it was. -/
def loadBuf {c : StoredClass} (f : Option (List UInt8)) (bf : Object c) (pos : Nat) : Object c :=
  match f with
  | none => bf
  | some f =>
    ⟨readAt f pos (getObjLen c.type) ++ bf.1.drop (readAt f pos (getObjLen c.type)).length, by
      rw [List.length_append, List.length_drop, bf.2, readAt, List.length_take]
      omega⟩

/-- The record position in `save_obj`, `sync_obj` and `init_config`. -/
def recordPos (c : StoredClass) (index : Nat) : Nat :=
  if c = .mDetectDeviceConfig then 0 else index * getObjLen c.type

/-- `save_obj`. -/
def saveObj (s : State) {c : StoredClass} (obj : Object c) (index : Nat) : State :=
  { s with files := Function.update s.files c (saveBuf (s.files c) obj.1 (recordPos c index)) }

/-! ## The client list -/

/-- `list_node_seek` for an address: the position of the first entry with it. -/
def seekClient (l : List ClientIpData) (ip : Ip) : Option Nat := l.findIdx? fun p => p.ip = ip

/-- `add_client`. -/
def addClient (env : Env) (l : List ClientIpData) (ip : Ip) (index : Nat) : List ClientIpData :=
  l ++ [{ ip := ip, cameraIndex := index, time := 0, fd := env.udpFd, times := 0 }]

/-- The registry part of `handle_buffer`: the list and its `cur` afterwards. -/
def registerClient (env : Env) (l : List ClientIpData) (ip : Ip) (index : Nat) : List ClientIpData × Option Nat :=
  match seekClient l ip with
  | some cur => (l.modify cur fun p => if p.cameraIndex ≠ index then { p with cameraIndex := index } else p, some cur)
  | none => (addClient env l ip index, none)

/-- `del_client`: `list_node_del_cur`, which does nothing without a current node. -/
def delClient (l : List ClientIpData) (cur : Option Nat) : List ClientIpData :=
  match cur with
  | some cur => l.eraseIdx cur
  | none => l

/-- `client_send_udp` on one entry: the entry afterwards and the element of `static_info` sent. -/
def clientSendUdp (p : ClientIpData) (index : Nat) : ClientIpData × Option Nat :=
  if p.cameraIndex = index then
    ({ p with times := if p.times = 15 * 60 then 0 else p.times + 1 }, some index)
  else (p, none)

/-- `client_output`: the list afterwards and the elements of `static_info` sent. -/
def clientOutput (l : List ClientIpData) (index : Nat) : List ClientIpData × List Nat :=
  (l.map fun p => (clientSendUdp p index).1, l.filterMap fun p => (clientSendUdp p index).2)

/-! ## Requests -/

/-- The command types of the protocol. -/
inductive CommandType where
  | setCamParam | getCamParam | repCamParam
  | setDetectDevice | getDetectDevice | repDetectDevice
  | setChechParam | getChechParam | repChechParam
  | heart | shutdown | repHeart | rebootZen | forkExit | other
  deriving DecidableEq, Repr

def CommandType.ofCode (v : Nat) : CommandType :=
  match v with
  | 0x0001 => setCamParam
  | 0x0002 => getCamParam
  | 0x0003 => repCamParam
  | 0x0004 => setDetectDevice
  | 0x0005 => getDetectDevice
  | 0x0006 => repDetectDevice
  | 0x0007 => setChechParam
  | 0x0008 => getChechParam
  | 0x0009 => repChechParam
  | 0x1000 => heart
  | 0x1001 => shutdown
  | 0x1002 => repHeart
  | 0x2001 => rebootZen
  | 0x3001 => forkExit
  | _ => other

/-- What a request leaves: the state, the buffer, the result and whether the device reboots. -/
structure Outcome where
  state : State
  buf : Mem
  ret : Int
  reboot : Bool

/-- `sizeof(mCommand)`. -/
def cmdLen : Nat := mCommand.layout.size

/-- The object of class `c` at an address. -/
def objectAt (m : Mem) (a : Nat) (c : StoredClass) : Object c := ⟨bytesAt m a (getObjLen c.type), bytesAt_length _ _ _⟩

/-- `prepare_pkt` and the encoding of the header: the reply in the buffer of the request. -/
def preparePkt (buf : Mem) (replyType : Nat) {c : StoredClass} (obj : Object c) : Mem × Nat :=
  let buf := storeWord buf mCommand.objtype 2 replyType
  let buf := storeBytes buf cmdLen obj.1
  let buf := netDecodeObj buf cmdLen c.type true
  (netDecodeObj buf 0 .mCommand true, cmdLen + getObjLen c.type)

/-- The stored object a request of class `c` and an index is about. -/
def storedObj (s : State) (c : StoredClass) (index : Nat) : Except Fault (Object c) :=
  match c with
  | .mDetectDeviceConfig => .ok s.gDevCfg
  | .mCamParam =>
    if h : index < activeCamNum then .ok (s.gCamCfg ⟨index, h⟩).camParam else .error ⟨.gCamCfg, index⟩
  | .mCamDetectParam =>
    if h : index < activeCamNum then .ok (s.gCamCfg ⟨index, h⟩).detParam else .error ⟨.gCamCfg, index⟩

/-- `sync_obj`. -/
def syncObj (s : State) {c : StoredClass} (obj : Object c) (index : Nat) : Except Fault State :=
  match c with
  | .mDetectDeviceConfig => .ok { s with gDevCfg := obj }
  | .mCamParam =>
    if h : index < activeCamNum then
      .ok { s with gCamCfg := Function.update s.gCamCfg ⟨index, h⟩ { s.gCamCfg ⟨index, h⟩ with camParam := obj } }
    else .error ⟨.gCamCfg, index⟩
  | .mCamDetectParam =>
    if h : index < activeCamNum then
      .ok { s with gCamCfg := Function.update s.gCamCfg ⟨index, h⟩ { s.gCamCfg ⟨index, h⟩ with detParam := obj } }
    else .error ⟨.gCamCfg, index⟩

inductive ChangeFlag where
  | nothing | alg | sigIp
  deriving DecidableEq, Repr

/-- One iteration of the camera loop of `handle_change`. -/
def changeCamera (env : Env) (obj : Object .mDetectDeviceConfig) (s : State) (i : Fin activeCamNum) : State :=
  let s :=
    if cammerIp s.gDevCfg i ≠ cammerIp obj i then
      let s := cameraClose s i
      { s with gDevCfg := setCamstatus s.gDevCfg i camClosedStatus }
    else s
  let s :=
    if camstatus s.gDevCfg i = camClosedStatus ∧ camstatus obj i = camOpenedStatus then
      cameraOpen env s i (cammerIp obj i) (cammerport (s.gCamCfg i).camParam) (username (s.gCamCfg i).camParam)
        (passwd (s.gCamCfg i).camParam)
    else s
  if camstatus s.gDevCfg i = camOpenedStatus ∧ camstatus obj i = camClosedStatus then cameraClose s i else s

/-- `handle_change`: the state and `client_cmd_flag`. -/
def handleChange (env : Env) (s : State) {c : StoredClass} (obj : Object c) (index : Nat) : State × ChangeFlag :=
  match c with
  | .mCamParam =>
    if index = 0 ∧ (signalIp (s.gCamCfg 0).camParam ≠ signalIp obj ∨
        signalport (s.gCamCfg 0).camParam ≠ signalport obj) then (s, .sigIp)
    else (s, .nothing)
  | .mDetectDeviceConfig => ((List.finRange activeCamNum).foldl (changeCamera env obj) s, .nothing)
  | .mCamDetectParam => (s, .alg)

/-- `reset_sig_machine`. -/
def resetSigMachine (s : State) : State :=
  { s with
    sig :=
      { sigState := .preConnect
        sigFd := -1
        sigIp := signalIp (s.gCamCfg 0).camParam
        sigPort := signalport (s.gCamCfg 0).camParam } }

/-- `reboot_cmd` before it reboots the device. -/
def rebootCmd (env : Env) (s : State) : State :=
  if env.reportedEvent 0x1 < 0 ∨ env.reportedEvent 0x4 < 0 then { s with sig := { s.sig with sigFd := -1 } } else s

/-- The `switch` on `client_cmd_flag` in `handle_buffer`. -/
def applyChange (s : State) (flag : ChangeFlag) (index : Nat) : Except Fault State :=
  match flag with
  | .nothing => .ok s
  | .sigIp => .ok (resetSigMachine s)
  | .alg => cameraCtrl s .resetAlg index

/-- The `SET_FLAG` branch of `handle_buffer`. -/
def setFlag (env : Env) (s : State) (buf : Mem) (c : StoredClass) (index : Nat) : Except Fault Outcome := do
  let buf := netDecodeObj buf cmdLen c.type false
  let obj := objectAt buf cmdLen c
  let (s, flag) := handleChange env s obj index
  let s ← syncObj s obj index
  let s ← applyChange (saveObj s obj index) flag index
  return { state := s, buf := buf, ret := -1, reboot := false }

/-- The `GET_FLAG` branch of `handle_buffer`. -/
def getFlag (s : State) (buf : Mem) (c : StoredClass) (index replyType : Nat) : Except Fault Outcome := do
  let obj ← storedObj s c index
  let (buf, ret) := preparePkt buf replyType obj
  return { state := s, buf := buf, ret := ret, reboot := false }

/-- `handle_buffer` behind the decoding of the header: the client list for the commands that use
it, then the command. -/
def handleCommand (env : Env) (s : State) (buf : Mem) (type : CommandType) (index : Nat) (ip : Ip) :
    Except Fault Outcome :=
  let (s, cur) :=
    if type = .getCamParam ∨ type = .heart ∨ type = .shutdown then
      let (ipList, cur) := registerClient env s.ipList ip index
      ({ s with ipList := ipList }, cur)
    else (s, none)
  match type with
  | .setCamParam => setFlag env s buf .mCamParam index
  | .setDetectDevice => setFlag env s buf .mDetectDeviceConfig index
  | .setChechParam => setFlag env s buf .mCamDetectParam index
  | .getCamParam => getFlag s buf .mCamParam index 0x0003
  | .getDetectDevice => getFlag s buf .mDetectDeviceConfig index 0x0006
  | .getChechParam => getFlag s buf .mCamDetectParam index 0x0009
  | .shutdown => .ok { state := { s with ipList := delClient s.ipList cur }, buf := buf, ret := -1, reboot := false }
  | .rebootZen => .ok { state := rebootCmd env s, buf := buf, ret := -1, reboot := true }
  | _ => .ok { state := s, buf := buf, ret := -1, reboot := false }

/-- `handle_buffer` on the buffer at address 0. The parameter `len` is only printed. -/
def handleBuffer (env : Env) (s : State) (buf : Mem) (_len : Int) (ip : Ip) : Except Fault Outcome :=
  let buf := netDecodeObj buf 0 .mCommand false
  let type := CommandType.ofCode (loadWord buf mCommand.objtype 2)
  let index := loadWord buf mCommand.objnumber 2
  handleCommand env s buf type index ip

/-! ## Receiving and starting -/

def bufferMax : Nat := 1000

/-- One `recv` of `recv_buf`: nothing on an error, else at most `bufferMax` bytes. -/
abbrev Received := Option { bytes : List UInt8 // bytes.length ≤ bufferMax }

/-- The buffer of `recv_buf` after the `recv`, zero-filled behind the bytes received. -/
def Received.buf : Received → Mem
  | none => fun _ => 0
  | some bytes => storeBytes (fun _ => 0) 0 bytes.1

/-- The result of the `recv`. -/
def Received.len : Received → Int
  | none => -1
  | some bytes => bytes.1.length

/-- `recv_buf` from the `recv` on; a positive result is the number of bytes sent back. -/
def recvBuf (env : Env) (s : State) (received : Received) (ip : Ip) : Except Fault Outcome :=
  handleBuffer env s received.buf received.len ip

/-- An object of zeros. -/
def zeroObj (c : StoredClass) : Object c := ⟨List.replicate (getObjLen c.type) 0, List.length_replicate⟩

/-- A camera after `camera_service_init`. -/
def idleCamera : CameraInfo :=
  { openFlg := false, camRunningState := .camStoped, cmd := .null, ip := [], name := [], passwd := [], port := 0 }

/-- The globals of a fresh process. -/
def freshState (files : StoredClass → Option (List UInt8)) : State :=
  { gCamCfg := fun _ => ⟨zeroObj _, zeroObj _⟩
    gDevCfg := zeroObj _
    files := files
    ipList := []
    camInfo := fun _ => idleCamera
    sig := { sigState := .preConnect, sigFd := 0, sigIp := [], sigPort := 0 } }

/-- One iteration of the loop of `init_config`. -/
def initCamera (env : Env) (s : State) (i : Fin activeCamNum) : State :=
  let camParam := loadBuf (s.files .mCamParam) (s.gCamCfg i).camParam (recordPos .mCamParam i)
  let detParam := loadBuf (s.files .mCamDetectParam) (s.gCamCfg i).detParam (recordPos .mCamDetectParam i)
  let s := { s with gCamCfg := Function.update s.gCamCfg i ⟨camParam, detParam⟩ }
  if camstatus s.gDevCfg i = camOpenedStatus then
    cameraOpen env s i (cammerIp s.gDevCfg i) (cammerport camParam) (username camParam) (passwd camParam)
  else s

/-- `init_config` in a fresh process. -/
def initConfig (env : Env) (files : StoredClass → Option (List UInt8)) : State :=
  let s := freshState files
  let s := { s with gDevCfg := loadBuf (s.files .mDetectDeviceConfig) s.gDevCfg (recordPos .mDetectDeviceConfig 0) }
  (List.finRange activeCamNum).foldl (initCamera env) s

end VideoDetector.Config
