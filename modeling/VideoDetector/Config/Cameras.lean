import VideoDetector.Config.Persistence

/-!
# The stored device configuration and the cameras agree

A set of the device configuration opens and closes cameras one after the other while it changes the
stored statuses itself. `changeCamera` is taken apart into its three decisions, each iteration is shown
to settle its own camera and to leave the others alone, and from that the agreement of all cameras
follows for whole runs.
-/

namespace VideoDetector.Config
set_option autoImplicit false
open Lib

/-! ## Fields of the device configuration -/

theorem takeWhile_set {α : Type} {p : α → Bool} {l : List α} {k : Nat} (b : α)
    (behind : (l.takeWhile p).length < k) : (l.set k b).takeWhile p = l.takeWhile p := by
  induction l generalizing k with
  | nil => rfl
  | cons x l ih =>
    cases k with
    | zero => exact absurd behind (Nat.not_lt_zero _)
    | succ k =>
      rw [List.set_cons_succ, List.takeWhile_cons, List.takeWhile_cons]
      rw [List.takeWhile_cons] at behind
      split
      · next holds =>
        rw [if_pos holds, List.length_cons] at behind
        rw [ih (Nat.lt_of_succ_lt_succ behind)]
      · rfl

/-- A string is not affected by a write before it or behind its end. -/
theorem cstr_set {bytes : List UInt8} {off k : Nat} (b : UInt8)
    (apart : k < off ∨ off + (cstr bytes off).length < k) : cstr (bytes.set k b) off = cstr bytes off := by
  unfold cstr at *
  rcases apart with before | behind
  · rw [List.drop_set_of_lt before]
  · rw [List.drop_set, if_neg (by omega)]
    exact takeWhile_set b (by omega)

/-- Where the fields of a camera lie. -/
theorem camInfo_offset (i : Nat) : mDetectDeviceConfig.camInfo i = mDetectDeviceConfig.camInfo 0 + i * 18 := by
  unfold mDetectDeviceConfig.camInfo
  rw [Nat.zero_mul, Nat.add_zero]
  rfl

theorem camstatus_inside (o : Object .mDetectDeviceConfig) (i : Fin activeCamNum) :
    mDetectDeviceConfig.camInfo i + mCaminfo.camstatus < o.1.length := by
  rw [o.2]
  revert i
  decide

theorem camstatus_setCamstatus (o : Object .mDetectDeviceConfig) (i j : Fin activeCamNum) (b : UInt8) :
    camstatus (setCamstatus o i b) j = if j = i then b else camstatus o j := by
  unfold camstatus setCamstatus
  simp only [List.getD_eq_getElem?_getD]
  by_cases same : j = i
  · subst same
    rw [if_pos rfl, List.getElem?_set_self (camstatus_inside o j)]
    rfl
  · have different : (i : Nat) ≠ j := fun equal => same (Fin.ext equal.symm)
    have apart : mDetectDeviceConfig.camInfo i + mCaminfo.camstatus ≠
        mDetectDeviceConfig.camInfo j + mCaminfo.camstatus := by
      rw [camInfo_offset i, camInfo_offset j]
      omega
    rw [if_neg same, List.getElem?_set_ne apart]

/-- A terminated address is not affected by a status. -/
theorem cammerIp_setCamstatus {o : Object .mDetectDeviceConfig} {j : Fin activeCamNum}
    (terminated : (cammerIp o j).length < ipAddrMax) (i : Fin activeCamNum) (b : UInt8) :
    cammerIp (setCamstatus o i b) j = cammerIp o j := by
  apply cstr_set
  have status : mCaminfo.camstatus = 0 := rfl
  have address : mCaminfo.cammerIp = 2 := rfl
  have short : (cstr o.1 (mDetectDeviceConfig.camInfo j + mCaminfo.cammerIp)).length < 16 := terminated
  rw [camInfo_offset j] at short ⊢
  rw [camInfo_offset i]
  omega

/-! ## One camera -/

/-- A camera and the configuration agree: it is closed and stored as closed, or it is open, stored as
open, and holds the stored address. -/
def CameraAgrees (info : CameraInfo) (o : Object .mDetectDeviceConfig) (i : Fin activeCamNum) : Prop :=
  (info.openFlg = false ∧ camstatus o i = camClosedStatus) ∨
    (info.openFlg = true ∧ camstatus o i = camOpenedStatus ∧ info.ip = cammerIp o i ∧
      (cammerIp o i).length < ipAddrMax)

/-- The first decision of an iteration of `handle_change`: a camera whose address changes is closed. -/
def closeMoved (obj : Object .mDetectDeviceConfig) (s : State) (i : Fin activeCamNum) : State :=
  if cammerIp s.gDevCfg i ≠ cammerIp obj i then
    let s := cameraClose s i
    { s with gDevCfg := setCamstatus s.gDevCfg i camClosedStatus }
  else s

/-- The second decision: `camera_open` is called. -/
def OpenCalled (obj : Object .mDetectDeviceConfig) (s : State) (i : Fin activeCamNum) : Prop :=
  camstatus (closeMoved obj s i).gDevCfg i = camClosedStatus ∧ camstatus obj i = camOpenedStatus

instance (obj : Object .mDetectDeviceConfig) (s : State) (i : Fin activeCamNum) : Decidable (OpenCalled obj s i) :=
  inferInstanceAs (Decidable (_ ∧ _))

section
variable {env : Env} {obj : Object .mDetectDeviceConfig} {s : State} {i : Fin activeCamNum}

theorem cameraOpen_closed (env : Env) (ip : List UInt8) (port : Nat) (name pass : List UInt8)
    (closed : (s.camInfo i).openFlg = false) :
    ((cameraOpen env s i ip port name pass).camInfo i).openFlg = true ∧
      ((cameraOpen env s i ip port name pass).camInfo i).ip = ip := by
  rw [cameraOpen, closed]
  simp [setCamInfo]

/-- The calls for a camera change nothing of another one. -/
theorem cameraOpen_other (ip : List UInt8) (port : Nat) (name pass : List UInt8) {j : Fin activeCamNum} (other : j ≠ i) :
    (cameraOpen env s i ip port name pass).camInfo j = s.camInfo j ∧
      (cameraOpen env s i ip port name pass).gDevCfg = s.gDevCfg := by
  unfold cameraOpen
  split <;> exact ⟨Function.update_of_ne other _ _, rfl⟩

theorem cameraClose_openFlg : ((cameraClose s i).camInfo i).openFlg = false := by
  simp [cameraClose, setCamInfo]

/-- After the first decision the camera agrees with the stored configuration again, and if it is open
it has the address of the message. -/
theorem closeMoved_agrees (agrees : CameraAgrees (s.camInfo i) s.gDevCfg i) :
    (((closeMoved obj s i).camInfo i).openFlg = false ∧
        camstatus (closeMoved obj s i).gDevCfg i = camClosedStatus) ∨
      (((closeMoved obj s i).camInfo i).openFlg = true ∧
        camstatus (closeMoved obj s i).gDevCfg i = camOpenedStatus ∧
        ((closeMoved obj s i).camInfo i).ip = cammerIp obj i) := by
  unfold closeMoved
  split
  · refine .inl ⟨cameraClose_openFlg, ?_⟩
    simp only [camstatus_setCamstatus, if_true]
  · next same =>
    rcases agrees with closed | ⟨opened, status, ip, _⟩
    · exact .inl closed
    · exact .inr ⟨opened, status, ip.trans (not_not.mp same)⟩

/-- A status written for one camera leaves the agreement of another one. -/
theorem CameraAgrees.setCamstatus {info : CameraInfo} {o : Object .mDetectDeviceConfig} {j : Fin activeCamNum}
    (agrees : CameraAgrees info o j) (other : j ≠ i) (b : UInt8) : CameraAgrees info (setCamstatus o i b) j := by
  have status : camstatus (Config.setCamstatus o i b) j = camstatus o j := by
    rw [camstatus_setCamstatus, if_neg other]
  rcases agrees with ⟨closed, stored⟩ | ⟨opened, stored, ip, terminated⟩
  · exact .inl ⟨closed, status.trans stored⟩
  · have address := cammerIp_setCamstatus terminated i b
    exact .inr ⟨opened, status.trans stored, ip.trans address.symm, by rwa [address]⟩

end

/-! ## All cameras -/

/-- All cameras agree with the stored configuration. -/
def CamerasAgree (s : State) : Prop := ∀ i, CameraAgrees (s.camInfo i) s.gDevCfg i

/-- The stored configuration is closed for a camera, or open with a terminated address. -/
def Startable (o : Object .mDetectDeviceConfig) (i : Fin activeCamNum) : Prop :=
  camstatus o i = camClosedStatus ∨ camstatus o i = camOpenedStatus ∧ (cammerIp o i).length < ipAddrMax

/-- A camera that is still idle is opened if it is stored as open. -/
theorem initCamera_self {env : Env} {s : State} {i : Fin activeCamNum} (closed : (s.camInfo i).openFlg = false)
    (stored : Startable s.gDevCfg i) :
    CameraAgrees ((initCamera env s i).camInfo i) s.gDevCfg i := by
  unfold initCamera
  extract_lets camParam detParam loaded
  rcases stored with close | ⟨wanted, terminated⟩
  · have notOpened : camstatus loaded.gDevCfg i ≠ camOpenedStatus := by
      intro opened
      cases close.symm.trans opened
    rw [if_neg notOpened]
    exact .inl ⟨closed, close⟩
  · have closed' : (loaded.camInfo i).openFlg = false := closed
    obtain ⟨flag, address⟩ := cameraOpen_closed env (cammerIp s.gDevCfg i) (cammerport camParam) (username camParam)
      (passwd camParam) closed'
    have opened : camstatus loaded.gDevCfg i = camOpenedStatus := wanted
    rw [if_pos opened]
    exact .inr ⟨flag, wanted, address, terminated⟩

theorem initCamera_other (env : Env) (s : State) {i j : Fin activeCamNum} (other : j ≠ i) :
    (initCamera env s i).camInfo j = s.camInfo j := by
  unfold initCamera
  extract_lets camParam detParam loaded
  split
  · exact (cameraOpen_other _ _ _ _ other).1
  · rfl

theorem initCameras_config (env : Env) (cameras : List (Fin activeCamNum)) (s : State) :
    (cameras.foldl (initCamera env) s).gDevCfg = s.gDevCfg := by
  induction cameras generalizing s with
  | nil => rfl
  | cons i cameras ih => exact (ih _).trans (initCamera_loads env s i).2.1

theorem initCameras_agree (env : Env) {cameras : List (Fin activeCamNum)} (distinct : cameras.Nodup) {s : State}
    (closed : ∀ i ∈ cameras, (s.camInfo i).openFlg = false) (startable : ∀ i, Startable s.gDevCfg i) :
    (∀ i ∈ cameras, CameraAgrees ((cameras.foldl (initCamera env) s).camInfo i) s.gDevCfg i) ∧
      ∀ i ∉ cameras, (cameras.foldl (initCamera env) s).camInfo i = s.camInfo i := by
  induction cameras generalizing s with
  | nil => exact ⟨by simp, fun _ _ => rfl⟩
  | cons i cameras ih =>
    obtain ⟨outside, distinct⟩ := List.nodup_cons.mp distinct
    have config := (initCamera_loads env s i).2.1
    have later : ∀ j ∈ cameras, ((initCamera env s i).camInfo j).openFlg = false := by
      intro j member
      have other : j ≠ i := fun same => outside (same ▸ member)
      rw [initCamera_other env s other]
      exact closed j (List.mem_cons_of_mem i member)
    obtain ⟨settled, untouched⟩ := ih distinct later (by rwa [config])
    rw [config] at settled
    refine ⟨fun j member => ?_, fun j member => ?_⟩
    · rcases List.mem_cons.mp member with rfl | member
      · rw [List.foldl_cons, untouched j outside]
        exact initCamera_self (closed j List.mem_cons_self) (startable j)
      · exact settled j member
    · rw [List.mem_cons, not_or] at member
      rw [List.foldl_cons, untouched j member.2]
      exact initCamera_other env s member.1

/-- The globals before the loop of `init_config`. -/
def loadedState (files : StoredClass → Option (List UInt8)) : State :=
  { freshState files with
    gDevCfg := loadBuf (files .mDetectDeviceConfig) (zeroObj _) (recordPos .mDetectDeviceConfig 0) }

theorem initConfig_eq (env : Env) (files : StoredClass → Option (List UInt8)) :
    initConfig env files = (List.finRange activeCamNum).foldl (initCamera env) (loadedState files) := rfl

/-- `init_config` opens the cameras that are stored as open. -/
theorem initConfig_agrees (env : Env) (files : StoredClass → Option (List UInt8))
    (startable : ∀ i, Startable (initConfig env files).gDevCfg i) : CamerasAgree (initConfig env files) := by
  have config := initCameras_config env (List.finRange activeCamNum) (loadedState files)
  rw [initConfig_eq, config] at startable
  have closed : ∀ i ∈ List.finRange activeCamNum, ((loadedState files).camInfo i).openFlg = false := fun _ _ => rfl
  have settled := initCameras_agree env (List.nodup_finRange activeCamNum) closed startable
  intro i
  rw [initConfig_eq, config]
  exact settled.1 i (List.mem_finRange i)

/-- A set of the device configuration that opens camera 0 at an address of one character. -/
def openCamera0 : Request :=
  { env := default
    buf := storeBytes (storeBytes (fun _ => 0) 0 [0x01, 0x02, 0x00, 0x00, 0x00, 0x04])
      (cmdLen + mDetectDeviceConfig.camInfo 0) [0x01, 0x00, 0x31]
    len := 229
    ip := zeroIp }

end VideoDetector.Config
