import VideoDetector.Config.Cameras
import VideoDetector.Lib.Bounded
import VideoDetector.Lib.CString

/-!
# The strings that are copied out of the configuration (`camera_open` in `fvd-new/camera_service.c`, `get_sig_ip` in
`fvd-new/client_net.c`)

Addresses have fields of 16 bytes in the configuration, user names and passwords fields of 20 bytes, and a client may fill
them without a zero. The arrays that they are copied to have 16 bytes each, and the copies go on to the first zero.
`copies_safe_iff` says for which configurations all copies stay inside their arrays.
-/

namespace VideoDetector.Config
set_option autoImplicit false
open Lib

/-- The room of `cam_info[i].ip`, `cam_info[i].name`, `cam_info[i].passwd` and `sig_ip`. -/
def stringRoom : Nat := 16

/-- The bytes from the begin of a string field to the end of its object. -/
structure StringField where
  bytes : List UInt8
  long : stringRoom ≤ bytes.length

/-- The string in the field, or in the field and what follows it. -/
def StringField.text (f : StringField) : List UInt8 := cString f.bytes

theorem cammerIp_long (o : Object .mDetectDeviceConfig) (i : Fin activeCamNum) :
    stringRoom ≤ (o.1.drop (mDetectDeviceConfig.camInfo i + mCaminfo.cammerIp)).length := by
  rw [List.length_drop, o.2]
  revert i
  decide

theorem camParam_long (o : Object .mCamParam) {off : Nat}
    (inside : off + stringRoom ≤ getObjLen StoredClass.mCamParam.type) : stringRoom ≤ (o.1.drop off).length := by
  rw [List.length_drop, o.2]
  omega

theorem username_inside :
    mCamParam.camattr + mCamAttributes.username + stringRoom ≤ getObjLen StoredClass.mCamParam.type := by decide

theorem passwd_inside :
    mCamParam.camattr + mCamAttributes.passwd + stringRoom ≤ getObjLen StoredClass.mCamParam.type := by decide

theorem signalIp_inside :
    mCamParam.camattr + mCamAttributes.signalIp + stringRoom ≤ getObjLen StoredClass.mCamParam.type := by decide

def cammerIpField (o : Object .mDetectDeviceConfig) (i : Fin activeCamNum) : StringField :=
  ⟨o.1.drop (mDetectDeviceConfig.camInfo i + mCaminfo.cammerIp), cammerIp_long o i⟩

def usernameField (o : Object .mCamParam) : StringField :=
  ⟨o.1.drop (mCamParam.camattr + mCamAttributes.username), camParam_long o username_inside⟩

def passwdField (o : Object .mCamParam) : StringField :=
  ⟨o.1.drop (mCamParam.camattr + mCamAttributes.passwd), camParam_long o passwd_inside⟩

def signalIpField (o : Object .mCamParam) : StringField :=
  ⟨o.1.drop (mCamParam.camattr + mCamAttributes.signalIp), camParam_long o signalIp_inside⟩

theorem cString_drop (bytes : List UInt8) (off : Nat) : cString (bytes.drop off) = cstr bytes off := by
  unfold cString cstr
  congr 1
  funext b
  simp [bne, BEq.beq]

/-- The strings of the fields are the ones that the server works with. -/
theorem fields_text (dev : Object .mDetectDeviceConfig) (o : Object .mCamParam) (i : Fin activeCamNum) :
    (cammerIpField dev i).text = cammerIp dev i ∧ (usernameField o).text = username o ∧
      (passwdField o).text = passwd o ∧ (signalIpField o).text = signalIp o :=
  ⟨cString_drop _ _, cString_drop _ _, cString_drop _ _, cString_drop _ _⟩

/-! ## Copies -/

inductive CopyTarget where
  | ip (i : Fin activeCamNum)
  | name (i : Fin activeCamNum)
  | passwd (i : Fin activeCamNum)
  | sigIp
  deriving DecidableEq

structure StringCopy where
  target : CopyTarget
  source : StringField

/-- `memset(dst,0,16); memcpy(dst,src,strlen(src));` on an array of 16 bytes; a write behind it is a fault. -/
def clearAndCopy (dst : Mem) (text : List UInt8) : Except Nat Mem := do
  let dst ← putBytes id stringRoom dst 0 (List.replicate stringRoom 0)
  putBytes id stringRoom dst 0 text

/-- `strcpy(dst,src);` -/
def strcpy (dst : Mem) (text : List UInt8) : Except Nat Mem := putBytes id stringRoom dst 0 (text ++ [0])

def StringCopy.run (c : StringCopy) (dst : Mem) : Except Nat Mem :=
  match c.target with
  | .ip _ | .name _ | .passwd _ => clearAndCopy dst c.source.text
  | .sigIp => strcpy dst c.source.text

/-- The copy writes only inside its array and leaves it with a zero. -/
def StringCopy.Safe (c : StringCopy) : Prop := ∀ dst, ∃ dst', c.run dst = .ok dst' ∧ ∃ k < stringRoom, dst' k = 0

theorem clearAndCopy_safe {text : List UInt8} (nonzero : (0 : UInt8) ∉ text) (dst : Mem) :
    (∃ dst', clearAndCopy dst text = .ok dst' ∧ ∃ k < stringRoom, dst' k = 0) ↔ text.length < stringRoom := by
  have cleared : putBytes id stringRoom dst 0 (List.replicate stringRoom 0) =
      .ok (storeBytes dst 0 (List.replicate stringRoom 0)) := putBytes_ok id (by simp)
  rw [clearAndCopy, cleared, ok_bind]
  constructor
  · rintro ⟨dst', done, k, inside, zero⟩
    have fits := (putBytes_ok_iff id (Nat.zero_le _)).mp ⟨dst', done⟩
    rw [putBytes_ok id fits] at done
    cases done
    by_contra long
    have within : k < text.length := by omega
    have stored := storeBytes_inside (m := storeBytes dst 0 (List.replicate stringRoom 0)) (a := 0) within
    rw [Nat.zero_add, zero] at stored
    exact nonzero (stored ▸ List.getElem_mem within)
  · intro short
    refine ⟨_, putBytes_ok id (by omega), text.length, short, ?_⟩
    rw [storeBytes_outside (.inr (by omega))]
    have zeros : text.length < (List.replicate stringRoom (0 : UInt8)).length := by simpa using short
    have inside := storeBytes_inside (m := dst) (a := 0) zeros
    rw [Nat.zero_add] at inside
    simp [inside]

theorem strcpy_safe (text : List UInt8) (dst : Mem) :
    (∃ dst', strcpy dst text = .ok dst' ∧ ∃ k < stringRoom, dst' k = 0) ↔ text.length < stringRoom := by
  unfold strcpy
  constructor
  · rintro ⟨dst', done, _⟩
    have fits := (putBytes_ok_iff id (Nat.zero_le _)).mp ⟨dst', done⟩
    rw [List.length_append, List.length_singleton] at fits
    omega
  · intro short
    refine ⟨_, putBytes_ok id (by simp; omega), text.length, short, ?_⟩
    have last : text.length < (text ++ [0]).length := by simp
    have inside := storeBytes_inside (m := dst) (a := 0) last
    rw [Nat.zero_add] at inside
    simp [inside]

/-- A copy is safe exactly if there is a zero in the first 16 bytes of its field. -/
theorem StringCopy.safe_iff (c : StringCopy) : c.Safe ↔ (0 : UInt8) ∈ c.source.bytes.take stringRoom := by
  rw [← cString_length_lt c.source.long]
  have nonzero : (0 : UInt8) ∉ c.source.text := cString_nonzero _
  obtain ⟨target, source⟩ := c
  have each : ∀ dst, (∃ dst', (StringCopy.mk target source).run dst = .ok dst' ∧ ∃ k < stringRoom, dst' k = 0) ↔
      source.text.length < stringRoom := by
    intro dst
    cases target with
    | ip | name | passwd => exact clearAndCopy_safe nonzero dst
    | sigIp => exact strcpy_safe source.text dst
  exact ⟨fun safe => (each fun _ => 0).mp (safe _), fun short dst => (each dst).mpr short⟩

/-! ## Requests -/

/-- The copies of `camera_open`, which an open camera does not make. -/
def openCopies (s : State) (i : Fin activeCamNum) (ip username passwd : StringField) : List StringCopy :=
  if (s.camInfo i).openFlg then [] else [⟨.ip i, ip⟩, ⟨.name i, username⟩, ⟨.passwd i, passwd⟩]

/-- The copies of one iteration of the camera loop of `handle_change`. -/
def changeCopies (obj : Object .mDetectDeviceConfig) (s : State) (i : Fin activeCamNum) : List StringCopy :=
  if OpenCalled obj s i then
    openCopies (closeMoved obj s i) i (cammerIpField obj i) (usernameField ((closeMoved obj s i).gCamCfg i).camParam)
      (passwdField ((closeMoved obj s i).gCamCfg i).camParam)
  else []

/-- The copies of a loop over the cameras. -/
def loopCopies (step : State → Fin activeCamNum → State) (copies : State → Fin activeCamNum → List StringCopy) (s : State) :
    List StringCopy :=
  ((List.finRange activeCamNum).foldl (fun t i => (step t.1 i, t.2 ++ copies t.1 i)) (s, [])).2

/-- The copies that a request makes. -/
def requestCopies (s : State) (r : Request) : List StringCopy :=
  match commandOf r.buf with
  | .setDetectDevice =>
    loopCopies (changeCamera r.env (carried r.buf .mDetectDeviceConfig)) (changeCopies (carried r.buf .mDetectDeviceConfig)) s
  | .setCamParam =>
    if sigChanged s (carried r.buf .mCamParam) (indexOf r.buf) then [⟨.sigIp, signalIpField (carried r.buf .mCamParam)⟩]
    else []
  | _ => []

/-- The copies of one iteration of the loop of `init_config`. -/
def initCopies (s : State) (i : Fin activeCamNum) : List StringCopy :=
  let camParam := loadBuf (s.files .mCamParam) (s.gCamCfg i).camParam (recordPos .mCamParam i)
  if camstatus s.gDevCfg i = camOpenedStatus then
    openCopies s i (cammerIpField s.gDevCfg i) (usernameField camParam) (passwdField camParam)
  else []

/-- The copies of a start: those of `init_config`, and the address of the signal machine in `init_data`. -/
def startCopies (env : Env) (files : StoredClass → Option (List UInt8)) : List StringCopy :=
  loopCopies (initCamera env) initCopies (loadedState files) ++
    [⟨.sigIp, signalIpField ((initConfig env files).gCamCfg 0).camParam⟩]

/-- A copy that `camera_open` makes is of the string that the server keeps for the camera. -/
theorem openCopies_kept {env : Env} {s : State} {i : Fin activeCamNum} {dev : Object .mDetectDeviceConfig}
    {o : Object .mCamParam} {port : Nat} (closed : (s.camInfo i).openFlg = false) :
    let info := (cameraOpen env s i (cammerIp dev i) port (username o) (passwd o)).camInfo i
    (openCopies s i (cammerIpField dev i) (usernameField o) (passwdField o)).map (fun c => (c.target, c.source.text)) =
      [(.ip i, info.ip), (.name i, info.name), (.passwd i, info.passwd)] := by
  obtain ⟨ip, name, pass, _⟩ := fields_text dev o i
  simp [openCopies, cameraOpen, closed, setCamInfo, ip, name, pass]

/-- All copies of a run: of the start, and of each request in the state that the requests before it lead to. -/
def RunCopies (env : Env) (files : StoredClass → Option (List UInt8)) (reqs : List Request) (P : StringCopy → Prop) : Prop :=
  (∀ c ∈ startCopies env files, P c) ∧
    ∀ before r after s outs, reqs = before ++ r :: after → handleAll (initConfig env files) before = .ok (s, outs) →
      ∀ c ∈ requestCopies s r, P c

/-- **The copied strings.** From any configuration files and through any requests all copies write only inside their arrays
and leave a zero, exactly if each field that is copied has a zero in its first 16 bytes. -/
theorem copies_safe_iff (env : Env) (files : StoredClass → Option (List UInt8)) (reqs : List Request) :
    RunCopies env files reqs StringCopy.Safe ↔
      RunCopies env files reqs fun c => (0 : UInt8) ∈ c.source.bytes.take stringRoom := by
  unfold RunCopies
  simp only [StringCopy.safe_iff]

/-- A set of the device configuration that opens camera 0 at an address of 16 characters. -/
def openLongAddress : Request :=
  { env := default
    buf := storeBytes (storeBytes (fun _ => 0) 0 [0x01, 0x02, 0x00, 0x00, 0x00, 0x04])
      (cmdLen + mDetectDeviceConfig.camInfo 0) (0x01 :: 0x00 :: List.replicate 16 0x31)
    len := 229
    ip := zeroIp }

theorem foldl_copies_prefix {ι : Type} (step : State → ι → State) (copies : State → ι → List StringCopy) (is : List ι)
    (t : State × List StringCopy) : t.2 <+: (is.foldl (fun t i => (step t.1 i, t.2 ++ copies t.1 i)) t).2 := by
  induction is generalizing t with
  | nil => exact List.prefix_refl _
  | cons i is ih => exact List.IsPrefix.trans (List.prefix_append t.2 _) (ih (step t.1 i, t.2 ++ copies t.1 i))

/-- The loop begins with the copies for camera 0. -/
theorem loopCopies_first (step : State → Fin activeCamNum → State) (copies : State → Fin activeCamNum → List StringCopy)
    (s : State) : copies s 0 <+: loopCopies step copies s := by
  have first : List.finRange activeCamNum = 0 :: (List.finRange activeCamNum).tail := by decide
  rw [loopCopies, first]
  exact foldl_copies_prefix step copies _ (step s 0, copies s 0)

/-- A camera that is closed in the globals of a fresh process is opened by a message that wants it open. -/
theorem requestCopies_first {r : Request} (set : commandOf r.buf = .setDetectDevice)
    (wanted : camstatus (carried r.buf .mDetectDeviceConfig) 0 = camOpenedStatus) :
    ⟨.ip 0, cammerIpField (carried r.buf .mDetectDeviceConfig) 0⟩ ∈ requestCopies (initConfig default fun _ => none) r := by
  have config : (initConfig default fun _ => none).gDevCfg = zeroObj _ := by
    rw [initConfig_eq, initCameras_config]
    rfl
  have startable : ∀ i, Startable (initConfig default fun _ => none).gDevCfg i := by
    intro i
    rw [config]
    apply Or.inl
    revert i
    decide
  have agrees := initConfig_agrees default (fun _ => none) startable 0
  have status : camstatus (initConfig default fun _ => none).gDevCfg 0 = camClosedStatus := by
    rw [config]
    decide
  have called : OpenCalled (carried r.buf .mDetectDeviceConfig) (initConfig default fun _ => none) 0 := by
    refine ⟨?_, wanted⟩
    unfold closeMoved
    split
    · simp only [camstatus_setCamstatus, if_true]
    · exact status
  have closed : ((closeMoved (carried r.buf .mDetectDeviceConfig) (initConfig default fun _ => none) 0).camInfo 0).openFlg =
      false := by
    rcases @closeMoved_agrees (carried r.buf .mDetectDeviceConfig) _ _ agrees with ⟨closed, _⟩ | ⟨_, opened, _⟩
    · exact closed
    · cases called.1.symm.trans opened
  have made : ⟨.ip 0, cammerIpField (carried r.buf .mDetectDeviceConfig) 0⟩ ∈
      changeCopies (carried r.buf .mDetectDeviceConfig) (initConfig default fun _ => none) 0 := by
    rw [changeCopies, if_pos called, openCopies, closed]
    exact List.mem_cons_self
  have kept := loopCopies_first (changeCamera r.env (carried r.buf .mDetectDeviceConfig))
    (changeCopies (carried r.buf .mDetectDeviceConfig)) (initConfig default fun _ => none)
  rw [requestCopies, set]
  exact kept.subset made

/-- The address is left without a zero. -/
theorem longAddress_unterminated :
    ⟨.ip 0, cammerIpField (carried openLongAddress.buf .mDetectDeviceConfig) 0⟩ ∈
        requestCopies (initConfig default fun _ => none) openLongAddress ∧
      ¬ RunCopies default (fun _ => none) [openLongAddress] StringCopy.Safe := by
  have command : commandOf openLongAddress.buf = .setDetectDevice := by
    rw [commandOf_bytes]
    decide
  have wanted : camstatus (carried openLongAddress.buf .mDetectDeviceConfig) 0 = camOpenedStatus := by
    unfold camstatus
    rw [carried_bytes]
    decide +kernel
  have made := requestCopies_first command wanted
  refine ⟨made, fun safe => ?_⟩
  have zero := (StringCopy.safe_iff _).mp (safe.2 [] openLongAddress [] _ [] rfl rfl _ made)
  simp only [cammerIpField] at zero
  rw [carried_bytes] at zero
  revert zero
  decide +kernel

end VideoDetector.Config
