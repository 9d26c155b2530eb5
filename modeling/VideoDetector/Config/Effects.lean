import VideoDetector.Config.Persistence

/-!
# Requests without an effect

When does a request leave everything as it was? The client list stays exactly if the client is
listed with the index of the request; a set stays without effect exactly if it carries what is
stored and recorded already. Out of these come the two results about requests that ought to be
refused: incomplete ones and ones with an index out of range.
-/

namespace VideoDetector.Config
set_option autoImplicit false
open Lib

/-! ## The client list -/

/-- The first entry with the address has the index. -/
def Registered (l : List ClientIpData) (ip : Ip) (index : Nat) : Prop :=
  ∃ cur p, seekClient l ip = some cur ∧ l[cur]? = some p ∧ p.cameraIndex = index

theorem seekClient_entry {l : List ClientIpData} {ip : Ip} {cur : Nat} (found : seekClient l ip = some cur) :
    ∃ p, l[cur]? = some p := by
  obtain ⟨bound, _⟩ := List.findIdx?_eq_some_iff_getElem.mp found
  exact ⟨_, List.getElem?_eq_getElem bound⟩

/-- The lookup keeps the list exactly if there is nothing to add or to change. -/
theorem registerClient_same_iff (env : Env) (l : List ClientIpData) (ip : Ip) (index : Nat) :
    (registerClient env l ip index).1 = l ↔ Registered l ip index := by
  unfold registerClient Registered
  cases found : seekClient l ip with
  | none =>
    constructor
    · intro same
      have length := congrArg List.length same
      simp [addClient] at length
    · rintro ⟨cur, p, seek, _⟩
      cases seek
  | some cur =>
    obtain ⟨p, entry⟩ := seekClient_entry found
    constructor
    · intro same
      refine ⟨cur, p, rfl, entry, ?_⟩
      have here := congrArg (fun l => l[cur]?) same
      simp only [List.getElem?_modify, entry, if_true] at here
      by_contra different
      have changed := Option.some.inj here
      simp only [ne_eq, different, not_false_eq_true, if_true] at changed
      exact different (congrArg ClientIpData.cameraIndex changed).symm
    · rintro ⟨cur', p', seek, entry', indexed⟩
      cases seek
      rw [entry] at entry'
      cases entry'
      apply List.ext_getElem?
      intro k
      rw [List.getElem?_modify]
      by_cases here : cur = k
      · subst here
        rw [entry]
        simp [indexed]
      · simp [here]

/-- A shutdown never keeps the list: it removes the entry, or it adds one and does not find it. -/
theorem delClient_differs (env : Env) (l : List ClientIpData) (ip : Ip) (index : Nat) :
    delClient (registerClient env l ip index).1 (registerClient env l ip index).2 ≠ l := by
  intro same
  have length := congrArg List.length same
  unfold registerClient delClient at length
  cases found : seekClient l ip with
  | none =>
    rw [found] at length
    simp [addClient] at length
  | some cur =>
    obtain ⟨bound, _⟩ := List.findIdx?_eq_some_iff_getElem.mp found
    rw [found] at length
    simp only [List.length_eraseIdx, List.length_modify, if_pos bound] at length
    omega

/-- `client_output` of a camera sends the element of that camera only. -/
theorem clientOutput_index {l : List ClientIpData} {i j : Nat} (sent : j ∈ (clientOutput l i).2) : j = i := by
  obtain ⟨p, _, output⟩ := List.mem_filterMap.mp sent
  unfold clientSendUdp at output
  split at output
  · exact (Option.some.inj output).symm
  · cases output

/-! ## Sets -/

/-- A request carries the object that is stored, and saving it does not change the file. -/
def AlreadyStored (s : State) (buf : Mem) (c : StoredClass) : Prop :=
  ∃ k, keyOf c (indexOf buf) = some k ∧ s.bytes k = (carried buf c).1 ∧
    saveBuf (s.files c) (carried buf c).1 k.pos = s.files c

/-- The camera loop of `handle_change` does nothing for the stored configuration. -/
theorem changeCamera_same (env : Env) (s : State) (i : Fin activeCamNum) : changeCamera env s.gDevCfg s i = s := by
  have unopened : ¬ (camstatus s.gDevCfg i = camClosedStatus ∧ camstatus s.gDevCfg i = camOpenedStatus) := by
    rintro ⟨closed, opened⟩
    rw [closed] at opened
    exact absurd opened (by decide)
  simp only [changeCamera, ne_eq, not_true_eq_false, if_false, unopened]
  exact if_neg fun both => unopened both.symm

theorem changeCameras_same (env : Env) (s : State) (cameras : List (Fin activeCamNum)) :
    cameras.foldl (changeCamera env s.gDevCfg) s = s := by
  induction cameras with
  | nil => rfl
  | cons i cameras ih => rw [List.foldl_cons, changeCamera_same, ih]

theorem putDevConfig_same {env : Env} {s : State} {index : Nat} {obj : Object .mDetectDeviceConfig}
    (stored : s.gDevCfg = obj) (file : saveBuf (s.files .mDetectDeviceConfig) obj.1 0 = s.files .mDetectDeviceConfig) :
    putDevConfig env s index obj = s := by
  subst stored
  unfold putDevConfig saveObj
  rw [changeCameras_same]
  change { s with files := Function.update s.files .mDetectDeviceConfig _ } = s
  rw [recordPos_devConfig, file, Function.update_eq_self]

/-- What a client can see of the server: the stored configuration, the files, the client list,
which cameras are open and the address of the signal machine. -/
structure Unchanged (s t : State) : Prop where
  gDevCfg : t.gDevCfg = s.gDevCfg
  gCamCfg : t.gCamCfg = s.gCamCfg
  files : t.files = s.files
  ipList : t.ipList = s.ipList
  openFlg : ∀ i, (t.camInfo i).openFlg = (s.camInfo i).openFlg
  sigIp : t.sig.sigIp = s.sig.sigIp
  sigPort : t.sig.sigPort = s.sig.sigPort

theorem Unchanged.refl (s : State) : Unchanged s s := ⟨rfl, rfl, rfl, rfl, fun _ => rfl, rfl, rfl⟩

theorem Unchanged.bytes {s t : State} (unchanged : Unchanged s t) (k : Key) : t.bytes k = s.bytes k := by
  cases k with
  | devConfig => simp only [State.bytes, unchanged.gDevCfg]
  | camParam i | detParam i => simp only [State.bytes, unchanged.gCamCfg]

/-- A set of what is stored opens and closes no camera and keeps the signal machine. -/
theorem setFlag_same (env : Env) {s : State} {buf : Mem} {c : StoredClass} {index : Nat} {k : Key}
    (named : keyOf c index = some k) (same : s.bytes k = (objectAt (netDecodeObj buf cmdLen c.type false) cmdLen c).1)
    {o : Outcome} (done : setFlag env s buf c index = .ok o) :
    (∀ i, (o.state.camInfo i).openFlg = (s.camInfo i).openFlg) ∧ o.state.sig = s.sig := by
  cases c with
  | mDetectDeviceConfig =>
    cases named
    rw [setFlag_devConfig] at done
    obtain rfl := Except.ok.inj done
    have stored : s.gDevCfg = objectAt (netDecodeObj buf cmdLen .mDetectDeviceConfig false) cmdLen .mDetectDeviceConfig :=
      Subtype.ext same
    simp only [putDevConfig, saveObj]
    rw [← stored, changeCameras_same]
    exact ⟨fun _ => rfl, rfl⟩
  | mCamParam =>
    have bound := keyOf_bound named (by decide)
    rw [setFlag_camParam env s buf index bound] at done
    rw [keyOf, dif_pos bound] at named
    cases named
    have stored : (s.gCamCfg ⟨index, bound⟩).camParam =
        objectAt (netDecodeObj buf cmdLen .mCamParam false) cmdLen .mCamParam := Subtype.ext same
    have kept : ¬ sigChanged s (objectAt (netDecodeObj buf cmdLen .mCamParam false) cmdLen .mCamParam) index := by
      rintro ⟨first, changed⟩
      subst first
      rw [← stored] at changed
      exact changed.elim (fun differ => differ rfl) fun differ => differ rfl
    obtain rfl := Except.ok.inj done
    rw [if_neg kept]
    exact ⟨fun _ => rfl, rfl⟩
  | mCamDetectParam =>
    have bound := keyOf_bound named (by decide)
    rw [setFlag_detParam env s buf index bound] at done
    obtain rfl := Except.ok.inj done
    refine ⟨fun i => ?_, rfl⟩
    simp only [setCamInfo, Function.update_apply]
    split
    · next here => rw [here]
    · rfl

/-- **A set is without effect exactly if it carries what is stored.** -/
theorem set_unchanged_iff (env : Env) (s : State) {buf : Mem} (len : Int) (ip : Ip) {c : StoredClass}
    (sets : (commandOf buf).setClass = some c) :
    (∃ o, handleBuffer env s buf len ip = .ok o ∧ Unchanged s o.state) ↔ AlreadyStored s buf c := by
  rw [handleBuffer_set env s len ip sets]
  cases named : keyOf c (indexOf buf) with
  | none =>
    apply iff_of_false
    · exact error_not (setFlag_fault env s _ _ named)
    · rintro ⟨k, key, _⟩
      rw [named] at key
      cases key
  | some k =>
    obtain ⟨o, done, stored⟩ := setFlag_spec env s (headerDecoded buf) named
    have cls := keyOf_cls named
    rw [ok_iff done]
    constructor
    · intro unchanged
      refine ⟨k, named, ?_, ?_⟩
      · rw [← unchanged.bytes k, stored.store k, if_pos rfl]
        rfl
      · have file := congrFun (stored.files.symm.trans unchanged.files) c
        rwa [Function.update_self] at file
    · rintro ⟨k', named', same, file⟩
      rw [named] at named'
      cases named'
      have kept (k' : Key) : o.state.bytes k' = s.bytes k' := by
        rw [stored.store k']
        split
        · next here => rw [here, same]; rfl
        · rfl
      obtain ⟨dev, cam⟩ := State.ext_bytes kept
      obtain ⟨flags, sig⟩ := setFlag_same env named same done
      refine ⟨dev, cam, ?_, stored.ipList, flags, by rw [sig], by rw [sig]⟩
      have saved : saveBuf (s.files c) (carried buf c).1 (recordPos k.cls k.index) = s.files c := file
      rw [stored.files]
      exact (congrArg (Function.update s.files c) saved).trans (Function.update_eq_self c s.files)

/-! ## Incomplete requests -/

/-- The length of a complete request: the header and the object its command carries. -/
def needed (buf : Mem) : Nat :=
  cmdLen + match (commandOf buf).setClass with
    | some c => getObjLen c.type
    | none => 0

/-- The request changes nothing, whatever its length: a set carries what is stored already, a
command that looks the client up finds it with the same index, and an index is in range. -/
def Quiet (s : State) (ip : Ip) (buf : Mem) : Prop :=
  match commandOf buf with
  | .setCamParam => AlreadyStored s buf .mCamParam
  | .setDetectDevice => AlreadyStored s buf .mDetectDeviceConfig
  | .setChechParam => AlreadyStored s buf .mCamDetectParam
  | .getCamParam => indexOf buf < activeCamNum ∧ Registered s.ipList ip (indexOf buf)
  | .getChechParam => indexOf buf < activeCamNum
  | .heart => Registered s.ipList ip (indexOf buf)
  | .shutdown => False
  | _ => True

theorem listed_unchanged_iff (env : Env) (s : State) (buf : Mem) (ip : Ip) :
    Unchanged s { s with ipList := (listed env s buf ip).1 } ↔ Registered s.ipList ip (indexOf buf) := by
  rw [← registerClient_same_iff env s.ipList ip (indexOf buf)]
  exact ⟨fun unchanged => unchanged.ipList, fun same => ⟨rfl, rfl, rfl, same, fun _ => rfl, rfl, rfl⟩⟩

/-- A get of an object that exists changes at most the client list. -/
theorem get_state (env : Env) (s : State) {buf : Mem} (len : Int) (ip : Ip) {c : StoredClass} {k : Key}
    (gets : (commandOf buf).getClass = some c) (named : keyOf c (indexOf buf) = some k) :
    ∃ o, handleBuffer env s buf len ip = .ok o ∧
      o.state = (if commandOf buf = .getCamParam then { s with ipList := (listed env s buf ip).1 } else s) ∧
      o.ret = cmdLen + getObjLen c.type := by
  obtain ⟨o, done, state, ret, _⟩ := getFlag_spec
    (if commandOf buf = .getCamParam then { s with ipList := (listed env s buf ip).1 } else s) (headerDecoded buf)
    (replyCode c) named
  exact ⟨o, by rw [handleBuffer_get env s len ip gets, done], state, ret⟩

theorem get_unchanged_iff (env : Env) (s : State) {buf : Mem} (len : Int) (ip : Ip) {c : StoredClass}
    (gets : (commandOf buf).getClass = some c) :
    (∃ o, handleBuffer env s buf len ip = .ok o ∧ Unchanged s o.state) ↔
      (∃ k, keyOf c (indexOf buf) = some k) ∧
        (commandOf buf = .getCamParam → Registered s.ipList ip (indexOf buf)) := by
  cases named : keyOf c (indexOf buf) with
  | none =>
    apply iff_of_false
    · apply error_not
      rw [handleBuffer_get env s len ip gets]
      exact getFlag_fault _ _ _ named
    · rintro ⟨⟨k, key⟩, _⟩
      cases key
  | some k =>
    obtain ⟨o, done, state, _⟩ := get_state env s len ip gets named
    rw [ok_iff done, state]
    by_cases lookup : commandOf buf = .getCamParam
    · rw [if_pos lookup, listed_unchanged_iff]
      exact ⟨fun listed => ⟨⟨k, rfl⟩, fun _ => listed⟩, fun both => both.2 lookup⟩
    · rw [if_neg lookup]
      apply iff_of_true (Unchanged.refl s)
      exact ⟨⟨k, rfl⟩, fun is => absurd is lookup⟩

theorem keyOf_camera_iff {c : StoredClass} (camera : c ≠ .mDetectDeviceConfig) (index : Nat) :
    (∃ k, keyOf c index = some k) ↔ index < activeCamNum := by
  constructor
  · rintro ⟨k, named⟩
    exact keyOf_bound named camera
  · intro bound
    cases c with
    | mDetectDeviceConfig => exact absurd rfl camera
    | mCamParam | mCamDetectParam => exact ⟨_, dif_pos bound⟩

/-- **Quiet requests are the ones that change nothing.** -/
theorem unchanged_iff_quiet (env : Env) (s : State) (buf : Mem) (len : Int) (ip : Ip) :
    (∃ o, handleBuffer env s buf len ip = .ok o ∧ Unchanged s o.state) ↔ Quiet s ip buf := by
  unfold Quiet
  split
  · next type => exact set_unchanged_iff env s len ip (by rw [type]; rfl)
  · next type => exact set_unchanged_iff env s len ip (by rw [type]; rfl)
  · next type => exact set_unchanged_iff env s len ip (by rw [type]; rfl)
  · next type =>
    rw [get_unchanged_iff env s len ip (by rw [type]; rfl), keyOf_camera_iff (by decide)]
    exact ⟨fun both => ⟨both.1, both.2 type⟩, fun both => ⟨both.1, fun _ => both.2⟩⟩
  · next type =>
    rw [get_unchanged_iff env s len ip (by rw [type]; rfl), keyOf_camera_iff (by decide), type]
    exact ⟨And.left, fun bound => ⟨bound, by rintro ⟨⟩⟩⟩
  · next type =>
    rw [ok_iff (handleBuffer_heart env s len ip type), listed_unchanged_iff]
  · next type =>
    rw [ok_iff (handleBuffer_shutdown env s len ip type)]
    refine ⟨fun unchanged => ?_, False.elim⟩
    exact delClient_differs env s.ipList ip (indexOf buf) unchanged.ipList
  · next notCam notDev notDet notGetCam notGetDet notHeart notShutdown =>
    apply iff_of_true _ trivial
    rcases (commandOf buf).kinds with ⟨c, sets⟩ | ⟨c, gets⟩ | heart | shutdown | reboot | idle
    · generalize commandOf buf = type at *
      cases type <;> contradiction
    · have device : commandOf buf = .getDetectDevice := by
        generalize commandOf buf = type at *
        cases type <;> first | contradiction | rfl
      rw [get_unchanged_iff env s len ip (by rw [device]; rfl), device]
      exact ⟨⟨_, rfl⟩, by rintro ⟨⟩⟩
    · exact absurd heart notHeart
    · exact absurd shutdown notShutdown
    · refine ⟨_, handleBuffer_reboot env s len ip reboot, ?_⟩
      unfold rebootCmd
      split
      · exact ⟨rfl, rfl, rfl, rfl, fun _ => rfl, rfl, rfl⟩
      · exact Unchanged.refl s
    · exact ⟨_, handleBuffer_idle env s len ip idle, Unchanged.refl s⟩

/-- **When an incomplete request changes nothing.** Whatever a client sends in one `recv`, an
incomplete request leaves everything as it was if and only if it is in fact complete or would change
nothing at full length either: `handle_buffer` does not look at the length. -/
theorem incomplete_unchanged_iff (env : Env) (s : State) (received : Received) (ip : Ip) :
    (received.len < needed received.buf → ∃ o, recvBuf env s received ip = .ok o ∧ Unchanged s o.state) ↔
      needed received.buf ≤ received.len ∨ Quiet s ip received.buf := by
  have quiet := unchanged_iff_quiet env s received.buf received.len ip
  unfold recvBuf
  rw [quiet]
  constructor
  · intro refused
    by_cases short : received.len < needed received.buf
    · exact Or.inr (refused short)
    · exact Or.inl (Int.not_lt.mp short)
  · rintro (complete | quiet) short
    · exact absurd short (Int.not_lt.mpr complete)
    · exact quiet

/-- The header of a set of the device configuration and nothing behind it. -/
def truncatedSet : Received := some ⟨[0x01, 0x02, 0x00, 0x00, 0x00, 0x04, 0x00, 0x00, 0x00, 0xDB], by decide⟩

/-- A server with a device configuration of ones. -/
def onesState : State :=
  { freshState (fun _ => none) with gDevCfg := ⟨List.replicate (getObjLen .mDetectDeviceConfig) 1, List.length_replicate⟩ }

/-- The truncated set replaces the stored configuration. -/
theorem truncatedSet_changes :
    truncatedSet.len < needed truncatedSet.buf ∧
      ¬ ∃ o, recvBuf default onesState truncatedSet zeroIp = .ok o ∧ Unchanged onesState o.state := by
  have command : commandOf truncatedSet.buf = .setDetectDevice := by
    rw [commandOf_bytes]
    decide
  constructor
  · rw [needed, command]
    decide
  · unfold recvBuf
    rw [set_unchanged_iff _ _ _ _ (by rw [command]; rfl)]
    rintro ⟨k, named, same, _⟩
    cases named
    rw [carried_bytes] at same
    exact absurd (congrArg List.head? same) (by decide +kernel)

/-! ## Indices out of range -/

theorem CommandType.setClass_camera {type : CommandType} {c : StoredClass} (sets : type.setClass = some c)
    (notDevice : type ≠ .setDetectDevice) : c ≠ .mDetectDeviceConfig := by
  rintro rfl
  cases type <;> first | exact notDevice rfl | cases sets

theorem CommandType.not_idle {type : CommandType} {c : StoredClass}
    (uses : type.setClass = some c ∨ type.getClass = some c) : ¬ type.idle = true := by
  cases type <;> first | exact Bool.false_ne_true | rcases uses with sets | gets <;> contradiction

/-- A request that is without any effect whatever its index. -/
def Harmless (s : State) (ip : Ip) (buf : Mem) : Prop :=
  match commandOf buf with
  | .setDetectDevice => AlreadyStored s buf .mDetectDeviceConfig
  | .heart => Registered s.ipList ip (indexOf buf)
  | type => type.idle

/-- What is asked of a request with respect to its index: it touches no element behind the end of an
array, neither itself nor in what `client_output` sends later on, and no record behind those of the
cameras; and if its index is out of range it changes nothing, sends no reply and does not reboot the
device. -/
def IndexSafe (env : Env) (s : State) (buf : Mem) (len : Int) (ip : Ip) : Prop :=
  ∃ o, handleBuffer env s buf len ip = .ok o ∧
    (activeCamNum ≤ indexOf buf → o.state = s ∧ o.ret ≤ 0 ∧ o.reboot = false) ∧
    FilesInside s o.state ∧
    ∀ i, i < activeCamNum → ∀ j ∈ (clientOutput o.state.ipList i).2, j < activeCamNum

theorem clientOutput_safe (l : List ClientIpData) :
    ∀ i, i < activeCamNum → ∀ j ∈ (clientOutput l i).2, j < activeCamNum := by
  intro i bound j sent
  rw [clientOutput_index sent]
  exact bound

/-- A request with an index in range touches only elements that exist. -/
theorem indexSafe_of_lt (env : Env) (s : State) {buf : Mem} (len : Int) (ip : Ip) (bound : indexOf buf < activeCamNum) :
    IndexSafe env s buf len ip := by
  obtain ⟨o, done, stepped⟩ := handleBuffer_step env s buf len ip fun _ => bound
  exact ⟨o, done, fun outside => absurd bound (Nat.not_lt.mpr outside), stepped.filesInside, clientOutput_safe _⟩

/-- No camera has an index out of range. -/
theorem keyOf_outside {c : StoredClass} {index : Nat} (outside : activeCamNum ≤ index) (camera : c ≠ .mDetectDeviceConfig) :
    keyOf c index = none := by
  cases named : keyOf c index with
  | none => rfl
  | some k => exact absurd (keyOf_bound named camera) (Nat.not_lt.mpr outside)

theorem indexed_class {type : CommandType} (indexed : type.cameraIndexed) :
    ∃ c, c ≠ .mDetectDeviceConfig ∧ (type.setClass = some c ∨ type.getClass = some c) := by
  cases type <;> first
    | exact ⟨_, by decide, .inl rfl⟩
    | exact ⟨_, by decide, .inr rfl⟩
    | cases indexed

/-- A request that is carried out has an index in range if its command uses it. -/
theorem valid_of_ok {r : Request} {s : State} {o : Outcome} (done : r.handle s = .ok o) :
    Valid r.buf := by
  intro indexed
  by_contra outside
  obtain ⟨c, camera, uses⟩ := indexed_class indexed
  have unnamed : keyOf c (indexOf r.buf) = none := keyOf_outside (Nat.not_lt.mp outside) camera
  rcases uses with sets | gets
  · rw [Request.handle, handleBuffer_set _ _ _ _ sets, setFlag_fault _ _ _ _ unnamed] at done
    cases done
  · rw [Request.handle, handleBuffer_get _ _ _ _ gets, getFlag_fault _ _ _ unnamed] at done
    cases done

/-- With an index out of range it is safe to refuse the request and nothing else. -/
theorem indexSafe_iff_refused {env : Env} {s : State} {buf : Mem} {len : Int} {ip : Ip}
    (outside : activeCamNum ≤ indexOf buf) {o : Outcome} (done : handleBuffer env s buf len ip = .ok o) :
    IndexSafe env s buf len ip ↔ o.state = s ∧ o.ret ≤ 0 ∧ o.reboot = false := by
  rw [IndexSafe, ok_iff done]
  constructor
  · rintro ⟨refused, _⟩
    exact refused outside
  · intro refused
    exact ⟨fun _ => refused, fun _ _ _ => by rw [refused.1], clientOutput_safe _⟩

theorem indexSafe_setDetectDevice_iff (env : Env) (s : State) {buf : Mem} (len : Int) (ip : Ip)
    (outside : activeCamNum ≤ indexOf buf) (type : commandOf buf = .setDetectDevice) :
    IndexSafe env s buf len ip ↔ AlreadyStored s buf .mDetectDeviceConfig := by
  have done : handleBuffer env s buf len ip = setFlag env s (headerDecoded buf) .mDetectDeviceConfig (indexOf buf) :=
    handleBuffer_set env s len ip (by rw [type]; rfl)
  rw [setFlag_devConfig] at done
  rw [indexSafe_iff_refused outside done, ← set_unchanged_iff env s len ip (by rw [type]; rfl)]
  constructor
  · rintro ⟨same, _, _⟩
    exact ⟨_, done, by rw [same]; exact Unchanged.refl s⟩
  · intro unchanged
    obtain ⟨k, named, same, file⟩ := (set_unchanged_iff env s len ip (by rw [type]; rfl)).mp unchanged
    cases named
    exact ⟨putDevConfig_same (Subtype.ext same) file, (show (-1 : Int) ≤ 0 by decide), rfl⟩

theorem indexSafe_heart_iff (env : Env) (s : State) {buf : Mem} (len : Int) (ip : Ip)
    (outside : activeCamNum ≤ indexOf buf) (type : commandOf buf = .heart) :
    IndexSafe env s buf len ip ↔ Registered s.ipList ip (indexOf buf) := by
  rw [indexSafe_iff_refused outside (handleBuffer_heart env s len ip type), ← registerClient_same_iff env]
  constructor
  · rintro ⟨same, _, _⟩
    exact congrArg State.ipList same
  · intro same
    exact ⟨by rw [listed, same], (show (-1 : Int) ≤ 0 by decide), rfl⟩

/-- A get faults, or it replies. -/
theorem get_not_indexSafe (env : Env) (s : State) {buf : Mem} (len : Int) (ip : Ip)
    (outside : activeCamNum ≤ indexOf buf) {c : StoredClass} (gets : (commandOf buf).getClass = some c) :
    ¬ IndexSafe env s buf len ip := by
  by_cases device : c = .mDetectDeviceConfig
  · subst device
    obtain ⟨o, done, _, ret⟩ := get_state env s len ip gets (k := .devConfig) rfl
    rw [indexSafe_iff_refused outside done, ret]
    rintro ⟨_, silent, _⟩
    exact absurd silent (by decide)
  · apply error_not
    rw [handleBuffer_get env s len ip gets]
    exact getFlag_fault _ _ _ (keyOf_outside outside device)

/-- Of the requests with an index out of range only the harmless ones are safe. -/
theorem indexSafe_iff_harmless (env : Env) (s : State) {buf : Mem} (len : Int) (ip : Ip)
    (outside : activeCamNum ≤ indexOf buf) : IndexSafe env s buf len ip ↔ Harmless s ip buf := by
  unfold Harmless
  split
  · next type => exact indexSafe_setDetectDevice_iff env s len ip outside type
  · next type => exact indexSafe_heart_iff env s len ip outside type
  · next notDev notHeart =>
    rcases (commandOf buf).kinds with ⟨c, sets⟩ | ⟨c, gets⟩ | heart | shutdown | reboot | idle
    · have fault := setFlag_fault env s (headerDecoded buf) (indexOf buf)
        (keyOf_outside outside (CommandType.setClass_camera sets notDev))
      rw [← handleBuffer_set env s len ip sets] at fault
      exact iff_of_false (error_not fault) (CommandType.not_idle (Or.inl sets))
    · exact iff_of_false (get_not_indexSafe env s len ip outside gets) (CommandType.not_idle (Or.inr gets))
    · exact absurd heart notHeart
    · apply iff_of_false _ (by rw [shutdown]; exact Bool.false_ne_true)
      rw [indexSafe_iff_refused outside (handleBuffer_shutdown env s len ip shutdown)]
      rintro ⟨same, _, _⟩
      exact delClient_differs env s.ipList ip (indexOf buf) (congrArg State.ipList same)
    · apply iff_of_false _ (by rw [reboot]; exact Bool.false_ne_true)
      rw [indexSafe_iff_refused outside (handleBuffer_reboot env s len ip reboot)]
      rintro ⟨_, _, off⟩
      cases off
    · apply iff_of_true _ idle
      rw [indexSafe_iff_refused outside (handleBuffer_idle env s len ip idle)]
      exact ⟨rfl, (show (-1 : Int) ≤ 0 by decide), rfl⟩

/-- **When a request is index-safe**: if and only if its index is in range or it is harmless. -/
theorem indexSafe_iff (env : Env) (s : State) (buf : Mem) (len : Int) (ip : Ip) :
    IndexSafe env s buf len ip ↔ indexOf buf < activeCamNum ∨ Harmless s ip buf := by
  by_cases bound : indexOf buf < activeCamNum
  · exact iff_of_true (indexSafe_of_lt env s len ip bound) (Or.inl bound)
  · rw [indexSafe_iff_harmless env s len ip (Nat.not_lt.mp bound)]
    exact ⟨Or.inr, fun either => either.resolve_left bound⟩

/-- A set of the parameters of camera 6, one behind the last. -/
def setCamParam6 : Mem := storeBytes (fun _ => 0) 0 [0x01, 0x02, 0x00, 0x06, 0x00, 0x01, 0x00, 0x00, 0x00, 0xA4]

theorem setCamParam6_faults :
    handleBuffer default (freshState fun _ => none) setCamParam6 174 zeroIp = .error ⟨.gCamCfg, 6⟩ ∧
      ¬ IndexSafe default (freshState fun _ => none) setCamParam6 174 zeroIp := by
  have command : commandOf setCamParam6 = .setCamParam := by
    rw [commandOf_bytes]
    decide
  have index : indexOf setCamParam6 = 6 := by
    rw [indexOf_bytes]
    decide
  have fault : handleBuffer default (freshState fun _ => none) setCamParam6 174 zeroIp = .error ⟨.gCamCfg, 6⟩ := by
    rw [handleBuffer_set _ _ _ _ (by rw [command]; rfl), index]
    exact setFlag_fault _ _ _ _ (by decide)
  exact ⟨fault, error_not fault⟩

end VideoDetector.Config
