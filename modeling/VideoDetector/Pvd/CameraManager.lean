import Mathlib.Data.List.Forall2
import VideoDetector.Lib.Runs
import VideoDetector.Pvd.DataPacket

/-!
# The camera manager (`Pvd/cameramanager.cpp`, `Pvd/cameramanager.h`, `Pvd/camera.h`)

A `CameraManager` holds the cameras and, in a second vector, their configurations. The iterators with which a camera
is inserted or deleted are declared and never assigned, so they belong to no vector. `calls_iff` says which sequences of
calls are served as they should be.
-/

namespace VideoDetector.Pvd
set_option autoImplicit false
open Lib

/-! ## Cameras -/

/-- `Camera_config`. -/
structure Camera (R : Type) where
  url : String
  direction : CInt
  cameraId : CInt
  userName : String
  password : String
  cameraIp : String
  cameraPort : CInt
  chs : Value R

section
variable {R : Type} (doubles : Doubles R)

def getString (pkt : Value R) (name : String) : Except Fault String := do
  (← pkt.getValue name).asString doubles

def getInt (pkt : Value R) (name : String) : Except Fault CInt := do
  (← pkt.getValue name).asInt doubles

/-- The constructor of `Camera` and its `decode`. -/
def Camera.decode (pkt : Value R) : Except Fault (Camera R) := do
  let url ← getString doubles pkt "url"
  let direction ← getInt doubles pkt "direction"
  let cameraId ← getInt doubles pkt "camera_id"
  let userName ← getString doubles pkt "user_name"
  let password ← getString doubles pkt "password"
  let cameraIp ← getString doubles pkt "camera_ip"
  let cameraPort ← getInt doubles pkt "camera_port"
  let chs ← pkt.getValue "channel"
  return { url, direction, cameraId, userName, password, cameraIp, cameraPort, chs }

/-- `Camera::config`. -/
def Camera.encode (c : Camera R) : Value R :=
  .object <|
    setMember "channel" c.chs <| setMember "camera_port" (.int c.cameraPort) <|
    setMember "camera_ip" (.string c.cameraIp) <| setMember "password" (.string c.password) <|
    setMember "user_name" (.string c.userName) <| setMember "camera_id" (.int c.cameraId) <|
    setMember "direction" (.int c.direction) <| setMember "url" (.string c.url) []

theorem asInt_int (n : CInt) : (Value.int n.1 : Value R).asInt doubles = .ok n := dif_pos n.2

/-- The configuration of a camera describes it. -/
theorem decode_encode (c : Camera R) : Camera.decode doubles c.encode = .ok c := by
  simp [Camera.decode, Camera.encode, getString, getInt, Value.getValue, memberOf_setMember_other, asInt_int, Value.asString,
    bind, Except.bind, pure, Except.pure]

/-! ## Vectors -/

/-- An iterator: of a vector, or declared and not assigned. -/
inductive Iterator where
  | singular
  | at (position : Nat)
  deriving DecidableEq

def Iterator.advance (it : Iterator) (n : Nat) : Iterator :=
  match it with
  | singular => singular
  | .at position => .at (position + n)

/-- `vector::insert`. -/
def vectorInsert {α : Type} (xs : List α) (it : Iterator) (x : α) : Except Fault (List α) :=
  match it with
  | .singular => .error .singularIterator
  | .at position => .ok (xs.insertIdx position x)

/-- `vector::erase`. -/
def vectorErase {α : Type} (xs : List α) (it : Iterator) : Except Fault (List α) :=
  match it with
  | .singular => .error .singularIterator
  | .at position => .ok (xs.eraseIdx position)

/-! ## The manager -/

structure CameraManager (R : Type) where
  cameras : List (Camera R)
  camCfgs : List (Value R)

/-- `index_valid`: indices start at 1. -/
def CameraManager.indexValid (m : CameraManager R) (index : Int) : Bool := 1 ≤ index && index ≤ m.cameras.length

/-- `config`. -/
def CameraManager.config (m : CameraManager R) : Value R := dataPacket m.camCfgs

/-- The constructor of `CameraManager`. -/
def constructManager (cfg : Value R) : Except Fault (CameraManager R) := do
  let camCfgs ← cfg.arrayPacket
  let cameras ← camCfgs.mapM (Camera.decode doubles)
  return { cameras, camCfgs }

/-- `restart_cameras`: all cameras are stopped and new ones started. -/
def restartCameras (_m : CameraManager R) (cfg : Value R) : Except Fault (CameraManager R) := constructManager doubles cfg

/-- `insert_camera`. -/
def insertCamera (m : CameraManager R) (wantedIndex : Int) (data : Value R) : Except Fault (CameraManager R × Bool) := do
  if m.indexValid wantedIndex then
    let c ← Camera.decode doubles data
    let itCams := Iterator.singular
    let cameras ← vectorInsert m.cameras (itCams.advance (wantedIndex - 1).toNat) c
    let itCfg := Iterator.singular
    let camCfgs ← vectorInsert m.camCfgs (itCfg.advance (wantedIndex - 1).toNat) c.encode
    return ({ cameras, camCfgs }, true)
  else return (m, false)

/-- `delete_camera`. -/
def deleteCamera (m : CameraManager R) (index : Int) : Except Fault (CameraManager R × Bool) := do
  if m.indexValid index then
    let it := Iterator.singular
    let cameras ← vectorErase m.cameras (it.advance (index - 1).toNat)
    let itCfg := Iterator.singular
    let camCfgs ← vectorErase m.camCfgs (itCfg.advance (index - 1).toNat)
    return ({ cameras, camCfgs }, true)
  else return (m, false)

/-- `Camera::modify`, which has no body. -/
def Camera.modify (c : Camera R) (_data : Value R) : Camera R := c

/-- `modify_camera`. -/
def modifyCamera (m : CameraManager R) (index : Int) (data : Value R) (_modType : Int) : CameraManager R × Bool :=
  if m.indexValid index then
    match m.cameras[(index - 1).toNat]? with
    | some c =>
      let c := c.modify data
      ({ cameras := m.cameras.set (index - 1).toNat c, camCfgs := m.camCfgs.set (index - 1).toNat c.encode }, false)
    | none => (m, false)
  else (m, false)

/-! ## Calls -/

/-- An object that a camera can be made from. -/
structure CameraObject where
  members : List (String × Value R)
  camera : Camera R
  decodes : Camera.decode doubles (.object members) = .ok camera

def CameraObject.value (d : CameraObject doubles) : Value R := .object d.members

/-- The array of camera objects. -/
def cameraArray (cfg : List (CameraObject doubles)) : Value R := .array (cfg.map (CameraObject.value doubles))

inductive Call where
  | restart (cfg : List (CameraObject doubles))
  | insert (wantedIndex : Int) (data : CameraObject doubles)
  | delete (index : Int)
  | modify (index : Int) (data : Value R) (modType : Int)

/-- The manager behind a call and what it returns. -/
def perform (m : CameraManager R) : Call doubles → Except Fault (CameraManager R × Option Bool)
  | .restart cfg => do return (← restartCameras doubles m (cameraArray doubles cfg), none)
  | .insert wantedIndex data => do
    let (m, ret) ← insertCamera doubles m wantedIndex data.value
    return (m, some ret)
  | .delete index => do
    let (m, ret) ← deleteCamera m index
    return (m, some ret)
  | .modify index data modType =>
    let (m, ret) := modifyCamera m index data modType
    .ok (m, some ret)

/-- The manager behind a call; nothing is known of it behind a fault. -/
def performed (m : CameraManager R) (call : Call doubles) : CameraManager R :=
  match perform doubles m call with
  | .ok (m, _) => m
  | .error _ => m

/-- As many cameras as configurations, each described by its own. -/
def Aligned (m : CameraManager R) : Prop := List.Forall₂ (fun v c => Camera.decode doubles v = .ok c) m.camCfgs m.cameras

/-- What a call that returns is to leave. -/
def Serves (m m' : CameraManager R) (ret : Option Bool) : Call doubles → Prop
  | .restart cfg => m'.config = cameraArray doubles cfg
  | .insert i data =>
    if m.indexValid i then
      ret = some true ∧ m'.cameras = m.cameras.insertIdx (i - 1).toNat data.camera ∧
        ∃ v, m'.camCfgs = m.camCfgs.insertIdx (i - 1).toNat v
    else ret = some false ∧ m' = m
  | .delete i =>
    if m.indexValid i then
      ret = some true ∧ m'.cameras = m.cameras.eraseIdx (i - 1).toNat ∧ m'.camCfgs = m.camCfgs.eraseIdx (i - 1).toNat
    else ret = some false ∧ m' = m
  | .modify i _ _ =>
    if m.indexValid i then
      ret = some true ∧ (∃ c, m'.cameras = m.cameras.set (i - 1).toNat c) ∧ ∃ v, m'.camCfgs = m.camCfgs.set (i - 1).toNat v
    else ret = some false ∧ m' = m

/-- A call returns, leaves the two vectors aligned and does what it is to do. -/
def CallRight (m : CameraManager R) (call : Call doubles) : Prop :=
  ∃ m' ret, perform doubles m call = .ok (m', ret) ∧ Aligned doubles m' ∧ Serves doubles m m' ret call

/-- A call that changes no single camera and does not leave the manager without cameras. -/
def Harmless (m : CameraManager R) : Call doubles → Prop
  | .restart cfg => cfg ≠ []
  | .insert i _ | .delete i | .modify i _ _ => m.indexValid i = false

/-! ## What a call does -/

theorem mapM_decode (cfg : List (CameraObject doubles)) :
    (cfg.map (CameraObject.value doubles)).mapM (Camera.decode doubles) = .ok (cfg.map CameraObject.camera) := by
  induction cfg with
  | nil => rfl
  | cons d cfg ih =>
    rw [List.map_cons, List.mapM_cons, CameraObject.value, d.decodes, ih]
    rfl

/-- The manager made from an array of camera objects. -/
def managerOf (cfg : List (CameraObject doubles)) : CameraManager R :=
  { cameras := cfg.map CameraObject.camera, camCfgs := cfg.map (CameraObject.value doubles) }

theorem constructManager_array (cfg : List (CameraObject doubles)) :
    constructManager doubles (cameraArray doubles cfg) = .ok (managerOf doubles cfg) := by
  rw [constructManager, cameraArray, Value.arrayPacket]
  show (do let cameras ← (cfg.map (CameraObject.value doubles)).mapM (Camera.decode doubles); _) = _
  rw [mapM_decode]
  rfl

theorem aligned_managerOf (cfg : List (CameraObject doubles)) : Aligned doubles (managerOf doubles cfg) := by
  unfold Aligned managerOf
  induction cfg with
  | nil => exact .nil
  | cons d cfg ih => exact .cons d.decodes ih

/-- The configuration of a manager without cameras is `null`. -/
theorem config_managerOf (cfg : List (CameraObject doubles)) :
    (managerOf doubles cfg).config = cameraArray doubles cfg ↔ cfg ≠ [] := by
  rw [CameraManager.config, dataPacket_eq]
  cases cfg with
  | nil => simp [managerOf, cameraArray]
  | cons d cfg => simp [managerOf, cameraArray]

theorem perform_restart (m : CameraManager R) (cfg : List (CameraObject doubles)) :
    perform doubles m (.restart cfg) = .ok (managerOf doubles cfg, none) := by
  rw [perform, restartCameras, constructManager_array]
  rfl

theorem restart_iff (m : CameraManager R) (cfg : List (CameraObject doubles)) :
    CallRight doubles m (.restart cfg) ↔ cfg ≠ [] := by
  unfold CallRight
  rw [perform_restart, ← config_managerOf doubles cfg]
  constructor
  · rintro ⟨m', ret, done, _, serves⟩
    cases done
    exact serves
  · intro same
    exact ⟨_, _, rfl, aligned_managerOf doubles cfg, same⟩

/-- A camera is inserted through an iterator that belongs to no vector. -/
theorem insert_iff {m : CameraManager R} (aligned : Aligned doubles m) (i : Int) (data : CameraObject doubles) :
    CallRight doubles m (.insert i data) ↔ m.indexValid i = false := by
  unfold CallRight
  cases valid : m.indexValid i with
  | true =>
    have fault : perform doubles m (.insert i data) = .error .singularIterator := by
      simp only [perform, insertCamera, valid, CameraObject.value, data.decodes]
      rfl
    simp [fault]
  | false =>
    have same : perform doubles m (.insert i data) = .ok (m, some false) := by
      simp only [perform, insertCamera, valid]
      rfl
    simp [same, Serves, valid, aligned]

theorem delete_iff {m : CameraManager R} (aligned : Aligned doubles m) (i : Int) :
    CallRight doubles m (.delete i) ↔ m.indexValid i = false := by
  unfold CallRight
  cases valid : m.indexValid i with
  | true =>
    have fault : perform doubles m (.delete i) = .error .singularIterator := by
      simp only [perform, deleteCamera, valid]
      rfl
    simp [fault]
  | false =>
    have same : perform doubles m (.delete i) = .ok (m, some false) := by
      simp only [perform, deleteCamera, valid]
      rfl
    simp [same, Serves, valid, aligned]

/-- A modification reports failure and leaves the camera as it was. -/
theorem modifyCamera_valid {m : CameraManager R} {i : Int} (valid : m.indexValid i = true) (data : Value R) (modType : Int) :
    ∃ c, m.cameras[(i - 1).toNat]? = some c ∧
      modifyCamera m i data modType = ({ m with camCfgs := m.camCfgs.set (i - 1).toNat c.encode }, false) := by
  simp only [CameraManager.indexValid, Bool.and_eq_true, decide_eq_true_eq] at valid
  have inside : (i - 1).toNat < m.cameras.length := by omega
  refine ⟨m.cameras[(i - 1).toNat], List.getElem?_eq_getElem inside, ?_⟩
  have valid' : m.indexValid i = true := by
    simp only [CameraManager.indexValid, Bool.and_eq_true, decide_eq_true_eq]
    exact valid
  rw [modifyCamera, if_pos valid', List.getElem?_eq_getElem inside]
  simp [Camera.modify]

/-- The configuration that a modification writes describes the camera. -/
theorem modify_aligned {m : CameraManager R} (aligned : Aligned doubles m) (i : Int) (data : Value R) (modType : Int) :
    Aligned doubles (modifyCamera m i data modType).1 := by
  cases valid : m.indexValid i with
  | false =>
    rw [modifyCamera, if_neg (by rw [valid]; decide)]
    exact aligned
  | true =>
    obtain ⟨c, here, done⟩ := modifyCamera_valid valid data modType
    rw [done]
    unfold Aligned at aligned ⊢
    rw [List.forall₂_iff_get] at aligned ⊢
    obtain ⟨length, each⟩ := aligned
    refine ⟨by rw [List.length_set, length], fun k bound bound' => ?_⟩
    simp only [List.get_eq_getElem, List.getElem_set] at each ⊢
    split
    · next same =>
      subst same
      rw [decode_encode]
      rw [List.getElem?_eq_getElem bound'] at here
      rw [Option.some.inj here]
    · exact each k (by rwa [List.length_set] at bound) bound'

theorem modify_iff {m : CameraManager R} (aligned : Aligned doubles m) (i : Int) (data : Value R) (modType : Int) :
    CallRight doubles m (.modify i data modType) ↔ m.indexValid i = false := by
  unfold CallRight
  cases valid : m.indexValid i with
  | true =>
    obtain ⟨c, _, done⟩ := modifyCamera_valid valid data modType
    simp only [perform, done, Serves, valid, Bool.true_eq_false, iff_false]
    rintro ⟨m', ret, same, _, serves⟩
    cases same
    exact absurd serves.1 (by decide)
  | false =>
    have same : perform doubles m (.modify i data modType) = .ok (m, some false) := by
      simp only [perform, modifyCamera, valid]
      rfl
    simp [same, Serves, valid, aligned]

theorem callRight_iff {m : CameraManager R} (aligned : Aligned doubles m) (call : Call doubles) :
    CallRight doubles m call ↔ Harmless doubles m call := by
  cases call with
  | restart cfg => exact restart_iff doubles m cfg
  | insert i data => exact insert_iff doubles aligned i data
  | delete i => exact delete_iff doubles aligned i
  | modify i data modType => exact modify_iff doubles aligned i data modType

/-- **When the manager serves its calls.** From any array of camera objects, all calls of a sequence return, keep the two
vectors aligned and do what they are to do exactly if each of them is a restart with at least one camera or has an index
that is out of range. -/
theorem calls_iff (cfg : List (CameraObject doubles)) (calls : List (Call doubles)) :
    ∃ m, constructManager doubles (cameraArray doubles cfg) = .ok m ∧ Aligned doubles m ∧
      ((∀ before call after, calls = before ++ call :: after →
          CallRight doubles (before.foldl (performed doubles) m) call) ↔
        ∀ before call after, calls = before ++ call :: after →
          Harmless doubles (before.foldl (performed doubles) m) call) := by
  refine ⟨_, constructManager_array doubles cfg, aligned_managerOf doubles cfg, ?_⟩
  apply foldl_iff (fun _ => Aligned doubles) (fun _ => CallRight doubles) (fun _ => Harmless doubles) ?_
    (fun _ m call aligned => callRight_iff doubles aligned call) (aligned_managerOf doubles cfg)
  intro _ m call aligned harmless
  obtain ⟨m', ret, done, aligned', _⟩ := (callRight_iff doubles aligned call).mpr harmless
  rw [performed, done]
  exact aligned'

end

/-- A double that is never used. -/
def noDoubles : Doubles Unit where
  toInt := fun _ => none
  toText := fun _ => ""

/-- A camera object with nothing but an address. -/
def plainCamera : CameraObject noDoubles where
  members := [("url", .string "rtsp://192.168.1.97:554/av0_1")]
  camera :=
    { url := "rtsp://192.168.1.97:554/av0_1", direction := CInt.zero, cameraId := CInt.zero, userName := "",
      password := "", cameraIp := "", cameraPort := CInt.zero, chs := .null }
  decodes := rfl

/-- With one camera every kind of call goes wrong: the iterators belong to no vector, a modification reports failure, and
after a restart without cameras the configuration is `null`. -/
theorem calls_wrong :
    ¬ CallRight noDoubles (managerOf noDoubles [plainCamera]) (.insert 1 plainCamera) ∧
      ¬ CallRight noDoubles (managerOf noDoubles [plainCamera]) (.delete 1) ∧
      ¬ CallRight noDoubles (managerOf noDoubles [plainCamera]) (.modify 1 .null 0) ∧
      ¬ CallRight noDoubles (managerOf noDoubles [plainCamera]) (.restart []) := by
  have aligned := aligned_managerOf noDoubles [plainCamera]
  have valid : (managerOf noDoubles [plainCamera]).indexValid 1 = true := rfl
  rw [insert_iff noDoubles aligned, delete_iff noDoubles aligned, modify_iff noDoubles aligned, restart_iff, valid]
  simp

end VideoDetector.Pvd
