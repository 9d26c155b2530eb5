import VideoDetector.Config.Server

/-!
# What one request does

A stored object has a `Key`; `State.bytes` is the store as a function of the keys. A request names
a command and an index in its header. The lemmas below say once what each kind of request does to
the store, to the files and to the client list, and what it answers; nothing after this module
unfolds `handleBuffer`.
-/

namespace VideoDetector.Config
set_option autoImplicit false
open Lib

/-- The stored objects. -/
inductive Key where
  | devConfig
  | camParam (i : Fin activeCamNum)
  | detParam (i : Fin activeCamNum)
  deriving DecidableEq

def Key.cls : Key → StoredClass
  | devConfig => .mDetectDeviceConfig
  | camParam _ => .mCamParam
  | detParam _ => .mCamDetectParam

def Key.index : Key → Nat
  | devConfig => 0
  | camParam i => i
  | detParam i => i

/-- The layout of a stored object. -/
def Key.layout (k : Key) : Layout := k.cls.type.layout

/-- The bytes of the object with a key. -/
def State.bytes (s : State) : Key → List UInt8
  | .devConfig => s.gDevCfg.1
  | .camParam i => (s.gCamCfg i).camParam.1
  | .detParam i => (s.gCamCfg i).detParam.1

/-- The key that a class and an index name, if the index is in range. -/
def keyOf (c : StoredClass) (index : Nat) : Option Key :=
  match c with
  | .mDetectDeviceConfig => some .devConfig
  | .mCamParam => if h : index < activeCamNum then some (.camParam ⟨index, h⟩) else none
  | .mCamDetectParam => if h : index < activeCamNum then some (.detParam ⟨index, h⟩) else none

theorem State.ext_bytes {s s' : State} (same : ∀ k, s'.bytes k = s.bytes k) :
    s'.gDevCfg = s.gDevCfg ∧ s'.gCamCfg = s.gCamCfg := by
  refine ⟨Subtype.ext (same .devConfig), funext fun i => ?_⟩
  have cam := Subtype.ext (same (.camParam i))
  have det := Subtype.ext (same (.detParam i))
  cases left : s'.gCamCfg i
  cases right : s.gCamCfg i
  simp only [left, right] at cam det
  rw [cam, det]

theorem keyOf_cls {c : StoredClass} {index : Nat} {k : Key} (named : keyOf c index = some k) : k.cls = c := by
  cases c with
  | mDetectDeviceConfig => cases named; rfl
  | mCamParam | mCamDetectParam =>
    simp only [keyOf] at named
    split at named
    · cases named; rfl
    · cases named

/-! ## The header -/

/-- The buffer with its header decoded. -/
def headerDecoded (buf : Mem) : Mem := netDecodeObj buf 0 .mCommand false

/-- The command of a request. -/
def commandOf (buf : Mem) : CommandType := CommandType.ofCode (loadWord (headerDecoded buf) mCommand.objtype 2)

/-- The index of a request. -/
def indexOf (buf : Mem) : Nat := loadWord (headerDecoded buf) mCommand.objnumber 2

/-- The header is big-endian on the wire. -/
theorem headerDecoded_word (buf : Mem) {off : Nat} (member : (off, 2) ∈ mCommand.layout.scalars 0) :
    loadWord (headerDecoded buf) off 2 = (buf (off + 1)).toNat + 256 * (buf off).toNat := by
  have word : bytesAt (headerDecoded buf) off 2 = (bytesAt buf off 2).reverse := by
    rw [headerDecoded, netDecodeObj_convert]
    exact Layout.convert_scalar buf member
  rw [loadWord, word]
  simp [bytesAt, leVal]

theorem commandOf_bytes (buf : Mem) :
    commandOf buf = CommandType.ofCode ((buf 5).toNat + 256 * (buf 4).toNat) := by
  rw [commandOf, headerDecoded_word buf (show (mCommand.objtype, 2) ∈ _ by decide)]
  rfl

theorem indexOf_bytes (buf : Mem) : indexOf buf = (buf 3).toNat + 256 * (buf 2).toNat := by
  rw [indexOf, headerDecoded_word buf (show (mCommand.objnumber, 2) ∈ _ by decide)]
  rfl

/-- The object bytes of a message of class `c`, as they are on the wire. -/
def payload (buf : Mem) (c : StoredClass) : List UInt8 := bytesAt buf cmdLen (getObjLen c.type)

/-- The class of object a command sets. -/
def CommandType.setClass : CommandType → Option StoredClass
  | setCamParam => some .mCamParam
  | setDetectDevice => some .mDetectDeviceConfig
  | setChechParam => some .mCamDetectParam
  | _ => none

/-- The class of object a command asks for. -/
def CommandType.getClass : CommandType → Option StoredClass
  | getCamParam => some .mCamParam
  | getDetectDevice => some .mDetectDeviceConfig
  | getChechParam => some .mCamDetectParam
  | _ => none

/-- Decoding or encoding the header leaves the object behind it alone. -/
theorem payload_header (buf : Mem) (c : StoredClass) (encode : Bool) :
    payload (netDecodeObj buf 0 .mCommand encode) c = payload buf c := by
  unfold payload
  rw [netDecodeObj_convert]
  apply bytesAt_congr
  intro k bound
  apply Layout.convert_outside
  right
  rw [Nat.zero_add]
  exact Nat.le_add_right _ _

theorem payload_convert (buf : Mem) (c : StoredClass) (encode : Bool) :
    payload (netDecodeObj buf cmdLen c.type encode) c = c.type.layout.convertBytes (payload buf c) := by
  unfold payload
  rw [netDecodeObj_convert, getObjLen_size, Layout.bytesAt_convert]

/-- The object a request carries, decoded. -/
def carried (buf : Mem) (c : StoredClass) : Object c :=
  objectAt (netDecodeObj (headerDecoded buf) cmdLen c.type false) cmdLen c

theorem carried_bytes (buf : Mem) (c : StoredClass) :
    (carried buf c).1 = c.type.layout.convertBytes (payload buf c) := by
  change payload (netDecodeObj (headerDecoded buf) cmdLen c.type false) c = _
  rw [payload_convert, headerDecoded, payload_header]

/-- The object in a reply is the network encoding of the stored one. -/
theorem payload_preparePkt (buf : Mem) (replyType : Nat) {c : StoredClass} (obj : Object c) :
    payload (preparePkt buf replyType obj).1 c = c.type.layout.convertBytes obj.1 := by
  have placed (m : Mem) : payload (storeBytes m cmdLen obj.1) c = obj.1 := by
    have back := bytesAt_storeBytes m cmdLen obj.1
    rwa [obj.2] at back
  change payload (netDecodeObj (netDecodeObj (storeBytes _ cmdLen obj.1) cmdLen c.type true) 0 .mCommand true) c = _
  rw [payload_header, payload_convert, placed]

/-! ## Sets -/

/-- Nothing but the device configuration and the cameras differs. -/
structure SameStore (s s' : State) : Prop where
  gCamCfg : s'.gCamCfg = s.gCamCfg
  files : s'.files = s.files
  ipList : s'.ipList = s.ipList
  sig : s'.sig = s.sig

theorem SameStore.refl (s : State) : SameStore s s := ⟨rfl, rfl, rfl, rfl⟩

theorem SameStore.trans {s t u : State} (first : SameStore s t) (second : SameStore t u) : SameStore s u :=
  ⟨second.gCamCfg.trans first.gCamCfg, second.files.trans first.files, second.ipList.trans first.ipList,
    second.sig.trans first.sig⟩

theorem setCamInfo_sameStore (s : State) (i : Fin activeCamNum) (info : CameraInfo) :
    SameStore s (setCamInfo s i info) := ⟨rfl, rfl, rfl, rfl⟩

theorem cameraOpen_sameStore (env : Env) (s : State) (i : Fin activeCamNum) (ip : List UInt8) (port : Nat)
    (name pass : List UInt8) : SameStore s (cameraOpen env s i ip port name pass) := by
  unfold cameraOpen
  split
  · exact setCamInfo_sameStore s i _
  · exact setCamInfo_sameStore s i _

theorem changeCamera_sameStore (env : Env) (obj : Object .mDetectDeviceConfig) (s : State) (i : Fin activeCamNum) :
    SameStore s (changeCamera env obj s i) := by
  unfold changeCamera
  extract_lets closed changed opened
  have first : SameStore s changed := by
    unfold changed
    split
    · exact ⟨rfl, rfl, rfl, rfl⟩
    · exact SameStore.refl s
  have second : SameStore changed opened := by
    unfold opened
    split
    · exact cameraOpen_sameStore env changed i _ _ _ _
    · exact SameStore.refl changed
  split
  · exact (first.trans second).trans (setCamInfo_sameStore opened i _)
  · exact first.trans second

theorem changeCameras_sameStore (env : Env) (obj : Object .mDetectDeviceConfig) (cameras : List (Fin activeCamNum))
    (s : State) : SameStore s (cameras.foldl (changeCamera env obj) s) := by
  induction cameras generalizing s with
  | nil => exact SameStore.refl s
  | cons i cameras ih =>
    rw [List.foldl_cons]
    exact (changeCamera_sameStore env obj s i).trans (ih (changeCamera env obj s i))

/-- The signal machine's address or port differs in a set of camera 0. -/
def sigChanged (s : State) (obj : Object .mCamParam) (index : Nat) : Prop :=
  index = 0 ∧ (signalIp (s.gCamCfg 0).camParam ≠ signalIp obj ∨ signalport (s.gCamCfg 0).camParam ≠ signalport obj)

instance (s : State) (obj : Object .mCamParam) (index : Nat) : Decidable (sigChanged s obj index) :=
  inferInstanceAs (Decidable (_ ∧ _))

theorem handleChange_camParam (env : Env) (s : State) (obj : Object .mCamParam) (index : Nat) :
    handleChange env s obj index = (s, if sigChanged s obj index then .sigIp else .nothing) := by
  rw [apply_ite (Prod.mk s)]
  rfl

/-- The store after a set of a camera's parameters. -/
def putCamParam (s : State) (i : Fin activeCamNum) (obj : Object .mCamParam) : State :=
  saveObj { s with gCamCfg := Function.update s.gCamCfg i { s.gCamCfg i with camParam := obj } } obj i

/-- The store after a set of a camera's detection parameters. -/
def putDetParam (s : State) (i : Fin activeCamNum) (obj : Object .mCamDetectParam) : State :=
  saveObj { s with gCamCfg := Function.update s.gCamCfg i { s.gCamCfg i with detParam := obj } } obj i

/-- The state after a set of the device configuration. -/
def putDevConfig (env : Env) (s : State) (index : Nat) (obj : Object .mDetectDeviceConfig) : State :=
  saveObj { (List.finRange activeCamNum).foldl (changeCamera env obj) s with gDevCfg := obj } obj index

section
variable (env : Env) (s : State) (buf : Mem) (index : Nat)

theorem setFlag_devConfig :
    setFlag env s buf .mDetectDeviceConfig index =
      .ok { state := putDevConfig env s index (objectAt (netDecodeObj buf cmdLen .mDetectDeviceConfig false) cmdLen _)
            buf := netDecodeObj buf cmdLen .mDetectDeviceConfig false, ret := -1, reboot := false } := rfl

theorem setFlag_camParam (bound : index < activeCamNum) :
    setFlag env s buf .mCamParam index =
      let obj := objectAt (netDecodeObj buf cmdLen .mCamParam false) cmdLen .mCamParam
      .ok { state := if sigChanged s obj index then resetSigMachine (putCamParam s ⟨index, bound⟩ obj)
              else putCamParam s ⟨index, bound⟩ obj
            buf := netDecodeObj buf cmdLen .mCamParam false, ret := -1, reboot := false } := by
  simp only [setFlag, StoredClass.type, handleChange_camParam, syncObj, dif_pos bound]
  split
  · rfl
  · rfl

theorem setFlag_detParam (bound : index < activeCamNum) :
    setFlag env s buf .mCamDetectParam index =
      let obj := objectAt (netDecodeObj buf cmdLen .mCamDetectParam false) cmdLen .mCamDetectParam
      .ok { state := setCamInfo (putDetParam s ⟨index, bound⟩ obj) ⟨index, bound⟩
              { s.camInfo ⟨index, bound⟩ with cmd := .resetAlg }
            buf := netDecodeObj buf cmdLen .mCamDetectParam false, ret := -1, reboot := false } := by
  simp only [setFlag, StoredClass.type, handleChange, syncObj, dif_pos bound, applyChange, cameraCtrl]
  rfl

/-- A set behind the end of `g_cam_cfg`. -/
theorem setFlag_fault {c : StoredClass} (unnamed : keyOf c index = none) :
    setFlag env s buf c index = .error ⟨.gCamCfg, index⟩ := by
  cases c with
  | mDetectDeviceConfig => cases unnamed
  | mCamParam =>
    have outside : ¬ index < activeCamNum := by
      intro bound
      simp [keyOf, bound] at unnamed
    simp only [setFlag, StoredClass.type, handleChange_camParam, syncObj, dif_neg outside]
    rfl
  | mCamDetectParam =>
    have outside : ¬ index < activeCamNum := by
      intro bound
      simp [keyOf, bound] at unnamed
    simp only [setFlag, StoredClass.type, handleChange, syncObj, dif_neg outside]
    rfl

end

theorem keyOf_bound {c : StoredClass} {index : Nat} {k : Key} (named : keyOf c index = some k)
    (camera : c ≠ .mDetectDeviceConfig) : index < activeCamNum := by
  by_contra outside
  cases c with
  | mDetectDeviceConfig => exact camera rfl
  | mCamParam | mCamDetectParam => simp [keyOf, outside] at named

theorem putCamParam_bytes (s : State) (i : Fin activeCamNum) (obj : Object .mCamParam) (k : Key) :
    (putCamParam s i obj).bytes k = if k = .camParam i then obj.1 else s.bytes k := by
  cases k with
  | devConfig => rfl
  | camParam j =>
    simp only [State.bytes, putCamParam, saveObj, Function.update_apply, Key.camParam.injEq]
    split <;> rfl
  | detParam j =>
    simp only [State.bytes, putCamParam, saveObj, Function.update_apply, reduceCtorEq, if_false]
    split
    · next same => rw [same]
    · rfl

theorem putDetParam_bytes (s : State) (i : Fin activeCamNum) (obj : Object .mCamDetectParam) (k : Key) :
    (putDetParam s i obj).bytes k = if k = .detParam i then obj.1 else s.bytes k := by
  cases k with
  | devConfig => rfl
  | camParam j =>
    simp only [State.bytes, putDetParam, saveObj, Function.update_apply, reduceCtorEq, if_false]
    split
    · next same => rw [same]
    · rfl
  | detParam j =>
    simp only [State.bytes, putDetParam, saveObj, Function.update_apply, Key.detParam.injEq]
    split <;> rfl

theorem putDevConfig_bytes (env : Env) (s : State) (index : Nat) (obj : Object .mDetectDeviceConfig) (k : Key) :
    (putDevConfig env s index obj).bytes k = if k = .devConfig then obj.1 else s.bytes k := by
  have same := changeCameras_sameStore env obj (List.finRange activeCamNum) s
  cases k with
  | devConfig => rfl
  | camParam i | detParam i =>
    simp only [State.bytes, putDevConfig, saveObj, same.gCamCfg, reduceCtorEq, if_false]

/-- What a set does: the object it carries replaces the one with its key, in the store and in the
file, and nothing else of them changes. -/
structure Stored (s : State) (c : StoredClass) (k : Key) (obj : Object c) (o : Outcome) : Prop where
  store : ∀ k', o.state.bytes k' = if k' = k then obj.1 else s.bytes k'
  files : o.state.files = Function.update s.files c (saveBuf (s.files c) obj.1 (recordPos k.cls k.index))
  ipList : o.state.ipList = s.ipList
  ret : o.ret = -1
  reboot : o.reboot = false

/-- The device configuration is the only record of its file. -/
theorem recordPos_devConfig (index : Nat) : recordPos .mDetectDeviceConfig index = 0 := if_pos rfl

theorem putDevConfig_stored (env : Env) (s : State) (index : Nat) (obj : Object .mDetectDeviceConfig) (buf : Mem) :
    Stored s .mDetectDeviceConfig .devConfig obj
      { state := putDevConfig env s index obj, buf := buf, ret := -1, reboot := false } := by
  have same := changeCameras_sameStore env obj (List.finRange activeCamNum) s
  refine ⟨putDevConfig_bytes env s index obj, ?_, ?_, rfl, rfl⟩
  · simp only [putDevConfig, saveObj, same.files, Key.cls, recordPos_devConfig]
  · simp only [putDevConfig, saveObj, same.ipList]

theorem putCamParam_stored (s : State) (i : Fin activeCamNum) (obj : Object .mCamParam) (buf : Mem) :
    Stored s .mCamParam (.camParam i) obj { state := putCamParam s i obj, buf := buf, ret := -1, reboot := false } :=
  ⟨putCamParam_bytes s i obj, rfl, rfl, rfl, rfl⟩

theorem putDetParam_stored (s : State) (i : Fin activeCamNum) (obj : Object .mCamDetectParam) (buf : Mem) :
    Stored s .mCamDetectParam (.detParam i) obj
      { state := putDetParam s i obj, buf := buf, ret := -1, reboot := false } :=
  ⟨putDetParam_bytes s i obj, rfl, rfl, rfl, rfl⟩

/-- A change of the link or of a camera keeps what was stored. -/
theorem Stored.keep {s : State} {c : StoredClass} {k : Key} {obj : Object c} {o : Outcome} (stored : Stored s c k obj o)
    {t : State} (dev : t.gDevCfg = o.state.gDevCfg) (cam : t.gCamCfg = o.state.gCamCfg)
    (files : t.files = o.state.files) (list : t.ipList = o.state.ipList) :
    Stored s c k obj { o with state := t } := by
  refine ⟨fun k' => ?_, files.trans stored.files, list.trans stored.ipList, stored.ret, stored.reboot⟩
  rw [← stored.store k']
  cases k' with
  | devConfig => simp only [State.bytes, dev]
  | camParam i | detParam i => simp only [State.bytes, cam]

theorem setFlag_spec (env : Env) (s : State) (buf : Mem) {c : StoredClass} {index : Nat} {k : Key}
    (named : keyOf c index = some k) :
    ∃ o, setFlag env s buf c index = .ok o ∧
      Stored s c k (objectAt (netDecodeObj buf cmdLen c.type false) cmdLen c) o := by
  cases c with
  | mDetectDeviceConfig =>
    cases named
    exact ⟨_, setFlag_devConfig env s buf index, putDevConfig_stored env s index _ _⟩
  | mCamParam =>
    have bound := keyOf_bound named (by decide)
    rw [keyOf, dif_pos bound] at named
    cases named
    refine ⟨_, setFlag_camParam env s buf index bound, ?_⟩
    have stored := putCamParam_stored s ⟨index, bound⟩
      (objectAt (netDecodeObj buf cmdLen .mCamParam false) cmdLen .mCamParam)
      (netDecodeObj buf cmdLen .mCamParam false)
    split
    · exact stored.keep rfl rfl rfl rfl
    · exact stored
  | mCamDetectParam =>
    have bound := keyOf_bound named (by decide)
    rw [keyOf, dif_pos bound] at named
    cases named
    have stored := putDetParam_stored s ⟨index, bound⟩
      (objectAt (netDecodeObj buf cmdLen .mCamDetectParam false) cmdLen .mCamDetectParam)
      (netDecodeObj buf cmdLen .mCamDetectParam false)
    exact ⟨_, setFlag_detParam env s buf index bound, stored.keep rfl rfl rfl rfl⟩

/-! ## Gets -/

theorem storedObj_named (s : State) {c : StoredClass} {index : Nat} {k : Key} (named : keyOf c index = some k) :
    ∃ obj : Object c, storedObj s c index = .ok obj ∧ obj.1 = s.bytes k := by
  cases c with
  | mDetectDeviceConfig => cases named; exact ⟨_, rfl, rfl⟩
  | mCamParam | mCamDetectParam =>
    have bound := keyOf_bound named (by decide)
    rw [keyOf, dif_pos bound] at named
    cases named
    exact ⟨_, dif_pos bound, rfl⟩

theorem getFlag_spec (s : State) (buf : Mem) {c : StoredClass} {index : Nat} {k : Key} (replyType : Nat)
    (named : keyOf c index = some k) :
    ∃ o, getFlag s buf c index replyType = .ok o ∧ o.state = s ∧ o.ret = cmdLen + getObjLen c.type ∧
      o.reboot = false ∧ payload o.buf c = c.type.layout.convertBytes (s.bytes k) := by
  obtain ⟨obj, found, bytes⟩ := storedObj_named s named
  refine ⟨_, by rw [getFlag, found]; rfl, rfl, ?_, rfl, ?_⟩
  · rfl
  · rw [← bytes, ← payload_preparePkt buf replyType obj]
    rfl

theorem getFlag_fault (s : State) (buf : Mem) {c : StoredClass} {index : Nat} (replyType : Nat)
    (unnamed : keyOf c index = none) : getFlag s buf c index replyType = .error ⟨.gCamCfg, index⟩ := by
  cases c with
  | mDetectDeviceConfig => cases unnamed
  | mCamParam | mCamDetectParam =>
    have outside : ¬ index < activeCamNum := by
      intro bound
      simp [keyOf, bound] at unnamed
    rw [getFlag, storedObj, dif_neg outside]
    rfl

/-! ## Requests -/

/-- The client list after the lookup of the client of a request. -/
def listed (env : Env) (s : State) (buf : Mem) (ip : Ip) : List ClientIpData × Option Nat :=
  registerClient env s.ipList ip (indexOf buf)

/-- The commands that do nothing. -/
def CommandType.idle : CommandType → Bool
  | repCamParam | repDetectDevice | repChechParam | repHeart | forkExit | other => true
  | _ => false

section
variable (env : Env) (s : State) {buf : Mem} (len : Int) (ip : Ip)

theorem handleBuffer_set {c : StoredClass} (sets : (commandOf buf).setClass = some c) :
    handleBuffer env s buf len ip = setFlag env s (headerDecoded buf) c (indexOf buf) := by
  change handleCommand env s (headerDecoded buf) (commandOf buf) (indexOf buf) ip = _
  generalize commandOf buf = type at *
  cases type <;> cases sets <;> rfl

/-- The reply code for a class. -/
def replyCode : StoredClass → Nat
  | .mCamParam => 0x0003
  | .mDetectDeviceConfig => 0x0006
  | .mCamDetectParam => 0x0009

theorem handleBuffer_get {c : StoredClass} (gets : (commandOf buf).getClass = some c) :
    handleBuffer env s buf len ip =
      getFlag (if commandOf buf = .getCamParam then { s with ipList := (listed env s buf ip).1 } else s)
        (headerDecoded buf) c (indexOf buf) (replyCode c) := by
  change handleCommand env s (headerDecoded buf) (commandOf buf) (indexOf buf) ip = _
  generalize commandOf buf = type at *
  cases type <;> cases gets <;> rfl

theorem handleBuffer_heart (heart : commandOf buf = .heart) :
    handleBuffer env s buf len ip =
      .ok { state := { s with ipList := (listed env s buf ip).1 }
            buf := headerDecoded buf, ret := -1, reboot := false } := by
  change handleCommand env s (headerDecoded buf) (commandOf buf) (indexOf buf) ip = _
  rw [heart]
  rfl

theorem handleBuffer_shutdown (shutdown : commandOf buf = .shutdown) :
    handleBuffer env s buf len ip =
      .ok { state := { s with ipList := delClient (listed env s buf ip).1 (listed env s buf ip).2 }
            buf := headerDecoded buf, ret := -1, reboot := false } := by
  change handleCommand env s (headerDecoded buf) (commandOf buf) (indexOf buf) ip = _
  rw [shutdown]
  rfl

theorem handleBuffer_reboot (reboot : commandOf buf = .rebootZen) :
    handleBuffer env s buf len ip =
      .ok { state := rebootCmd env s, buf := headerDecoded buf, ret := -1, reboot := true } := by
  change handleCommand env s (headerDecoded buf) (commandOf buf) (indexOf buf) ip = _
  rw [reboot]
  rfl

theorem handleBuffer_idle (idle : (commandOf buf).idle) :
    handleBuffer env s buf len ip = .ok { state := s, buf := headerDecoded buf, ret := -1, reboot := false } := by
  change handleCommand env s (headerDecoded buf) (commandOf buf) (indexOf buf) ip = _
  generalize commandOf buf = type at *
  cases type <;> cases idle <;> rfl

end

theorem rebootCmd_sameStore (env : Env) (s : State) :
    (rebootCmd env s).gCamCfg = s.gCamCfg ∧ (rebootCmd env s).gDevCfg = s.gDevCfg ∧
      (rebootCmd env s).files = s.files := by
  unfold rebootCmd
  split <;> exact ⟨rfl, rfl, rfl⟩

/-- Every command sets an object, asks for one, or is one of the rest. -/
theorem CommandType.kinds (type : CommandType) :
    (∃ c, type.setClass = some c) ∨ (∃ c, type.getClass = some c) ∨ type = heart ∨ type = shutdown ∨
      type = rebootZen ∨ type.idle := by
  cases type <;> simp [setClass, getClass, idle]

/-- The commands that carry a camera index. -/
def CommandType.cameraIndexed : CommandType → Prop
  | setCamParam | getCamParam | setChechParam | getChechParam => True
  | _ => False

/-- The index of a request is in range if its command uses it. -/
def Valid (buf : Mem) : Prop := (commandOf buf).cameraIndexed → indexOf buf < activeCamNum

/-- The object a request sets. -/
def setKey (buf : Mem) : Option Key := (commandOf buf).setClass.bind fun c => keyOf c (indexOf buf)

/-- The object a request asks for. -/
def getKey (buf : Mem) : Option Key := (commandOf buf).getClass.bind fun c => keyOf c (indexOf buf)

theorem Valid.named {buf : Mem} (valid : Valid buf) {c : StoredClass}
    (uses : (commandOf buf).setClass = some c ∨ (commandOf buf).getClass = some c) :
    ∃ k, keyOf c (indexOf buf) = some k := by
  unfold Valid at valid
  generalize commandOf buf = type at *
  cases c with
  | mDetectDeviceConfig => exact ⟨_, rfl⟩
  | mCamParam | mCamDetectParam =>
    have bound : indexOf buf < activeCamNum := by
      apply valid
      cases type <;> simp [CommandType.setClass, CommandType.getClass] at uses <;> trivial
    exact ⟨_, dif_pos bound⟩

/-- The effect of a request on the store and the files, and its reply. -/
structure Stepped (s : State) (buf : Mem) (o : Outcome) : Prop where
  store : ∀ k, o.state.bytes k = if setKey buf = some k then k.layout.convertBytes (payload buf k.cls) else s.bytes k
  files : o.state.files =
    match setKey buf with
    | some k => Function.update s.files k.cls
        (saveBuf (s.files k.cls) (k.layout.convertBytes (payload buf k.cls)) (recordPos k.cls k.index))
    | none => s.files
  reply : ∀ k, getKey buf = some k → payload o.buf k.cls = k.layout.convertBytes (s.bytes k)

/-- A request that sets nothing and asks for nothing keeps the store. -/
theorem Stepped.keep {s t : State} {buf buf' : Mem} {ret : Int} {reboot : Bool} (set : (commandOf buf).setClass = none)
    (get : (commandOf buf).getClass = none) (cam : t.gCamCfg = s.gCamCfg) (dev : t.gDevCfg = s.gDevCfg)
    (files : t.files = s.files) : Stepped s buf { state := t, buf := buf', ret := ret, reboot := reboot } := by
  have noSet : setKey buf = none := by simp [setKey, set]
  have noGet : getKey buf = none := by simp [getKey, get]
  refine ⟨fun k => ?_, by rw [noSet]; exact files, fun k named => by rw [noGet] at named; cases named⟩
  rw [noSet, if_neg (by simp)]
  cases k with
  | devConfig => simp only [State.bytes, dev]
  | camParam i | detParam i => simp only [State.bytes, cam]

/-- **One request**: a valid request is carried out, replaces the object it sets and answers with
the object it asks for. -/
theorem handleBuffer_step (env : Env) (s : State) (buf : Mem) (len : Int) (ip : Ip) (valid : Valid buf) :
    ∃ o, handleBuffer env s buf len ip = .ok o ∧ Stepped s buf o := by
  rcases (commandOf buf).kinds with ⟨c, sets⟩ | ⟨c, gets⟩ | heart | shutdown | reboot | idle
  · obtain ⟨k, named⟩ := valid.named (Or.inl sets)
    obtain ⟨o, done, stored⟩ := setFlag_spec env s (headerDecoded buf) named
    have key : setKey buf = some k := by simp [setKey, sets, named]
    have noGet : getKey buf = none := by
      unfold getKey
      generalize commandOf buf = type at *
      cases type <;> first | rfl | cases sets
    have bytes := carried_bytes buf c
    cases keyOf_cls named
    refine ⟨o, by rw [handleBuffer_set env s len ip sets, done], fun k' => ?_, ?_, fun k' asked => ?_⟩
    · rw [stored.store k', key]
      by_cases same : k' = k
      · subst same
        rw [if_pos rfl, if_pos rfl]
        exact bytes
      · rw [if_neg same, if_neg (fun equal => same (Option.some.inj equal).symm)]
    · rw [stored.files, key]
      exact congrArg (fun b => Function.update s.files k.cls (saveBuf (s.files k.cls) b (recordPos k.cls k.index))) bytes
    · rw [noGet] at asked
      cases asked
  · obtain ⟨k, named⟩ := valid.named (Or.inr gets)
    have key : getKey buf = some k := by simp [getKey, gets, named]
    have noSet : setKey buf = none := by
      unfold setKey
      generalize commandOf buf = type at *
      cases type <;> first | rfl | cases gets
    obtain ⟨o, done, state, _, _, reply⟩ := getFlag_spec
      (if commandOf buf = .getCamParam then { s with ipList := (listed env s buf ip).1 } else s) (headerDecoded buf)
      (replyCode c) named
    have store (k' : Key) :
        (if commandOf buf = .getCamParam then { s with ipList := (listed env s buf ip).1 } else s).bytes k' =
          s.bytes k' := by
      split
      · cases k' <;> rfl
      · rfl
    cases keyOf_cls named
    refine ⟨o, by rw [handleBuffer_get env s len ip gets, done], fun k' => ?_, ?_, fun k' asked => ?_⟩
    · rw [noSet, if_neg (by simp), state, store]
    · rw [noSet, state]
      split <;> rfl
    · rw [key] at asked
      cases asked
      rw [reply, store]
      rfl
  · exact ⟨_, handleBuffer_heart env s len ip heart, Stepped.keep (by rw [heart]; rfl) (by rw [heart]; rfl) rfl rfl rfl⟩
  · exact ⟨_, handleBuffer_shutdown env s len ip shutdown,
      Stepped.keep (by rw [shutdown]; rfl) (by rw [shutdown]; rfl) rfl rfl rfl⟩
  · obtain ⟨cam, dev, files⟩ := rebootCmd_sameStore env s
    exact ⟨_, handleBuffer_reboot env s len ip reboot,
      Stepped.keep (by rw [reboot]; rfl) (by rw [reboot]; rfl) cam dev files⟩
  · refine ⟨_, handleBuffer_idle env s len ip idle, Stepped.keep ?_ ?_ rfl rfl rfl⟩
    · generalize commandOf buf = type at *
      cases type <;> first | rfl | cases idle
    · generalize commandOf buf = type at *
      cases type <;> first | rfl | cases idle

end VideoDetector.Config
