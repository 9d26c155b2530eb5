import VideoDetector.Config.Registers

/-!
# The configuration files hold the stored objects

`save_obj` writes each object it is given as one record of the file of its class, and `init_config`
reads the records back. `Persisted` says that every object in memory is the record of its key. It
holds after `init_config` and is kept by every request, so a restart finds what was stored.
-/

namespace VideoDetector.Config
set_option autoImplicit false
open Lib

/-- The place of the record of a key in the file of its class. -/
def Key.pos (k : Key) : Nat := recordPos k.cls k.index

/-- `sizeof` the record of a key. -/
def Key.len (k : Key) : Nat := getObjLen k.cls.type

/-- All three files exist and have all their records. -/
def FullSize (files : StoredClass → Option (List UInt8)) : Prop :=
  ∀ k : Key, ∃ f, files k.cls = some f ∧ k.pos + k.len ≤ f.length

/-- The record of a key is in its file and is `bytes`. -/
def Recorded (files : StoredClass → Option (List UInt8)) (k : Key) (bytes : List UInt8) : Prop :=
  ∃ f, files k.cls = some f ∧ k.pos + k.len ≤ f.length ∧ readAt f k.pos k.len = bytes

/-- Every object in memory is recorded. -/
def Persisted (s : State) : Prop := ∀ k, Recorded s.files k (s.bytes k)

theorem Recorded.unique {files : StoredClass → Option (List UInt8)} {k : Key} {bytes bytes' : List UInt8}
    (first : Recorded files k bytes) (second : Recorded files k bytes') : bytes = bytes' := by
  obtain ⟨f, file, _, rfl⟩ := first
  obtain ⟨f', file', _, rfl⟩ := second
  rw [file] at file'
  cases file'
  rfl

theorem index_below {i j len : Nat} (less : i < j) : i * len + len ≤ j * len := by
  rw [← Nat.succ_mul]
  exact Nat.mul_le_mul_right len less

theorem index_apart {i j len : Nat} (different : i ≠ j) : i * len + len ≤ j * len ∨ j * len + len ≤ i * len := by
  rcases Nat.lt_or_gt_of_ne different with less | more
  · exact Or.inl (index_below less)
  · exact Or.inr (index_below more)

/-- **Records of one file do not overlap.** -/
theorem records_apart {k k' : Key} (sameFile : k.cls = k'.cls) (different : k ≠ k') :
    k.pos + k.len ≤ k'.pos ∨ k'.pos + k'.len ≤ k.pos := by
  cases k with
  | devConfig =>
    cases k' with
    | devConfig => exact absurd rfl different
    | camParam _ | detParam _ => cases sameFile
  | camParam i =>
    cases k' with
    | camParam j => exact index_apart fun same => different (congrArg Key.camParam (Fin.ext same))
    | devConfig | detParam _ => cases sameFile
  | detParam i =>
    cases k' with
    | detParam j => exact index_apart fun same => different (congrArg Key.detParam (Fin.ext same))
    | devConfig | camParam _ => cases sameFile

/-- A record lies inside the first `activeCamNum` records of its file. -/
theorem record_inside (k : Key) : k.pos + k.len ≤ activeCamNum * k.len := by
  cases k with
  | devConfig => decide
  | camParam i | detParam i => exact index_below i.isLt

/-- Saving an object replaces its own record and no other. -/
theorem Recorded.save {files : StoredClass → Option (List UInt8)} {k k' : Key} {bytes bytes' obj : List UInt8}
    (own : Recorded files k bytes) (recorded : Recorded files k' bytes') (length : obj.length = k.len) :
    Recorded (Function.update files k.cls (saveBuf (files k.cls) obj k.pos)) k' (if k' = k then obj else bytes') := by
  obtain ⟨f, file, fits, _⟩ := own
  obtain ⟨f', file', fits', held⟩ := recorded
  rw [← length] at fits
  by_cases sameFile : k'.cls = k.cls
  · rw [sameFile, file] at file'
    cases file'
    refine ⟨overlay f k.pos obj, by rw [sameFile, Function.update_self, file]; rfl, ?_, ?_⟩
    · rwa [overlay_length fits]
    · by_cases same : k' = k
      · subst same
        rw [if_pos rfl, ← length]
        exact readAt_overlay_same fits
      · have apart := records_apart sameFile same
        rw [← length] at apart
        rw [if_neg same, readAt_overlay_apart fits apart, held]
  · refine ⟨f', by rw [Function.update_of_ne sameFile]; exact file', fits', ?_⟩
    rw [if_neg fun same => sameFile (congrArg Key.cls same)]
    exact held

theorem stored_length (buf : Mem) (k : Key) : (k.layout.convertBytes (payload buf k.cls)).length = k.len := by
  rw [Layout.convertBytes_length, Key.len, getObjLen_size]
  rfl

/-- **Every valid request keeps memory and files together.** -/
theorem Persisted.step {s : State} {buf : Mem} {o : Outcome} (persisted : Persisted s) (stepped : Stepped s buf o) :
    Persisted o.state := by
  intro k'
  rw [stepped.store k', stepped.files]
  cases set : setKey buf with
  | none =>
    rw [if_neg (by simp)]
    exact persisted k'
  | some k =>
    have saved := (persisted k).save (persisted k') (stored_length buf k)
    by_cases same : k' = k
    · subst same
      rwa [if_pos rfl] at saved ⊢
    · rw [if_neg same] at saved
      rwa [if_neg fun equal => same (Option.some.inj equal).symm]

/-- No byte behind the records of the cameras differs. -/
def FilesInside (s t : State) : Prop :=
  ∀ c pos, activeCamNum * getObjLen c.type ≤ pos → (t.files c).bind (·[pos]?) = (s.files c).bind (·[pos]?)

/-- A valid request writes inside the records of the cameras only. -/
theorem Stepped.filesInside {s : State} {buf : Mem} {o : Outcome} (stepped : Stepped s buf o) :
    FilesInside s o.state := by
  intro c pos behind
  rw [stepped.files]
  cases set : setKey buf with
  | none => rfl
  | some k =>
    by_cases own : c = k.cls
    · subst own
      have inside : recordPos k.cls k.index + (k.layout.convertBytes (payload buf k.cls)).length ≤ pos := by
        rw [stored_length]
        exact Nat.le_trans (record_inside k) behind
      simp only [Function.update_self, saveBuf]
      cases s.files k.cls with
      | none => rfl
      | some f => exact overlay_behind f _ inside
    · simp only [Function.update_of_ne own]

/-! ## Starting -/

theorem loadBuf_full {c : StoredClass} {f : List UInt8} {pos : Nat} (fits : pos + getObjLen c.type ≤ f.length)
    (bf : Object c) : (loadBuf (some f) bf pos).1 = readAt f pos (getObjLen c.type) := by
  change readAt f pos (getObjLen c.type) ++ bf.1.drop (readAt f pos (getObjLen c.type)).length = _
  rw [readAt_length fits, List.drop_eq_nil_of_le (by rw [bf.2]), List.append_nil]

/-- Both parameter objects of a camera are recorded. -/
def CameraRecorded (s : State) (i : Fin activeCamNum) : Prop :=
  Recorded s.files (.camParam i) (s.gCamCfg i).camParam.1 ∧ Recorded s.files (.detParam i) (s.gCamCfg i).detParam.1

/-- The part of `initCamera` that loads the parameters of camera `i`. -/
theorem initCamera_loads (env : Env) (s : State) (i : Fin activeCamNum) :
    (initCamera env s i).files = s.files ∧ (initCamera env s i).gDevCfg = s.gDevCfg ∧
      (initCamera env s i).gCamCfg = Function.update s.gCamCfg i
        ⟨loadBuf (s.files .mCamParam) (s.gCamCfg i).camParam (recordPos .mCamParam i),
          loadBuf (s.files .mCamDetectParam) (s.gCamCfg i).detParam (recordPos .mCamDetectParam i)⟩ := by
  unfold initCamera
  extract_lets camParam detParam loaded
  split
  · unfold cameraOpen
    split <;> exact ⟨rfl, rfl, rfl⟩
  · exact ⟨rfl, rfl, rfl⟩

theorem loadBuf_recorded {files : StoredClass → Option (List UInt8)} (full : FullSize files) (k : Key)
    (bf : Object k.cls) : Recorded files k (loadBuf (files k.cls) bf k.pos).1 := by
  obtain ⟨f, file, fits⟩ := full k
  refine ⟨f, file, fits, ?_⟩
  rw [file, loadBuf_full fits]
  rfl

theorem initCamera_recorded {env : Env} {s : State} (full : FullSize s.files) (i j : Fin activeCamNum)
    (recorded : j = i ∨ CameraRecorded s j) : CameraRecorded (initCamera env s i) j := by
  obtain ⟨files, _, cam⟩ := initCamera_loads env s i
  unfold CameraRecorded
  rw [files, cam, Function.update_apply]
  by_cases same : j = i
  · subst same
    rw [if_pos rfl]
    exact ⟨loadBuf_recorded full (.camParam j) _, loadBuf_recorded full (.detParam j) _⟩
  · rw [if_neg same]
    exact recorded.resolve_left same

theorem initCameras_recorded (env : Env) (cameras : List (Fin activeCamNum)) {s : State} (full : FullSize s.files) :
    (cameras.foldl (initCamera env) s).files = s.files ∧ (cameras.foldl (initCamera env) s).gDevCfg = s.gDevCfg ∧
      ∀ j, j ∈ cameras ∨ CameraRecorded s j → CameraRecorded (cameras.foldl (initCamera env) s) j := by
  induction cameras generalizing s with
  | nil => exact ⟨rfl, rfl, fun j recorded => recorded.resolve_left (by simp)⟩
  | cons i cameras ih =>
    obtain ⟨files, dev, _⟩ := initCamera_loads env s i
    obtain ⟨sameFiles, sameDev, rest⟩ := ih (s := initCamera env s i) (by rwa [files])
    refine ⟨sameFiles.trans files, sameDev.trans dev, fun j recorded => rest j ?_⟩
    rcases recorded with member | before
    · rcases List.mem_cons.mp member with here | later
      · exact Or.inr (initCamera_recorded full i j (Or.inl here))
      · exact Or.inl later
    · exact Or.inr (initCamera_recorded full i j (Or.inr before))

/-- **`init_config` loads every record.** -/
theorem initConfig_persisted (env : Env) {files : StoredClass → Option (List UInt8)} (full : FullSize files) :
    (initConfig env files).files = files ∧ Persisted (initConfig env files) := by
  unfold initConfig
  extract_lets fresh loaded
  obtain ⟨same, dev, cameras⟩ := initCameras_recorded env (List.finRange activeCamNum) (s := loaded) full
  refine ⟨same, fun k => ?_⟩
  cases k with
  | devConfig =>
    rw [same]
    simp only [State.bytes, dev]
    exact loadBuf_recorded full .devConfig _
  | camParam i => exact (cameras i (Or.inl (List.mem_finRange i))).1
  | detParam i => exact (cameras i (Or.inl (List.mem_finRange i))).2

/-- A restart on the files of a persisted state finds its objects. -/
theorem Persisted.restart {s : State} (persisted : Persisted s) (env : Env) :
    (initConfig env s.files).gDevCfg = s.gDevCfg ∧ (initConfig env s.files).gCamCfg = s.gCamCfg := by
  have full : FullSize s.files := by
    intro k
    obtain ⟨f, file, fits, _⟩ := persisted k
    exact ⟨f, file, fits⟩
  obtain ⟨same, loaded⟩ := initConfig_persisted env full
  apply State.ext_bytes
  intro k
  have record := loaded k
  rw [same] at record
  exact record.unique (persisted k)

/-- **Persistence.** Start from complete files and carry out any valid requests, sets in any order
among them. A second `init_config` on the files they leave finds the stored objects; each set has
put the object of its own message into memory and into its record; and no two records of a file
overlap. -/
theorem restart_restores (env env' : Env) (files : StoredClass → Option (List UInt8)) (full : FullSize files)
    (reqs : List Request) (valid : ∀ r ∈ reqs, Valid r.buf) :
    ∃ final outcomes, handleAll (initConfig env files) reqs = .ok (final, outcomes) ∧
      (initConfig env' final.files).gDevCfg = final.gDevCfg ∧
      (initConfig env' final.files).gCamCfg = final.gCamCfg ∧
      (∀ (i : Nat) (r : Request) (o : Outcome), reqs[i]? = some r → outcomes[i]? = some o → ∀ k, setKey r.buf = some k →
        o.state.bytes k = (carried r.buf k.cls).1 ∧ Recorded o.state.files k (carried r.buf k.cls).1) ∧
      ∀ k k' : Key, k.cls = k'.cls → k ≠ k' → k.pos + k.len ≤ k'.pos ∨ k'.pos + k'.len ≤ k.pos := by
  have keep : ∀ (_ : List Request) (r : Request) (s : State), Valid r.buf → Persisted s →
      ∃ o, r.handle s = .ok o ∧ Persisted o.state := by
    intro _ r s ok persisted
    obtain ⟨o, done, stepped⟩ := handleBuffer_step r.env s r.buf r.len r.ip ok
    exact ⟨o, done, persisted.step stepped⟩
  obtain ⟨final, outcomes, run, _, last, met⟩ :=
    serveAll_total keep [] valid (initConfig_persisted env full).2
  obtain ⟨dev, cam⟩ := last.restart env'
  refine ⟨final, outcomes, run, dev, cam, fun i r o there here k set => ?_, fun k k' => records_apart⟩
  obtain ⟨before, _, _, persisted, done⟩ := met i r o there here
  have stepped := Request.stepped (valid r (List.mem_of_getElem? there)) done
  have bytes : o.state.bytes k = (carried r.buf k.cls).1 := by
    rw [stepped.store k, if_pos set, carried_bytes]
    rfl
  exact ⟨bytes, bytes ▸ persisted.step stepped k⟩

/-- A request that sets the device configuration to zeros. -/
def setDevConfig : Request :=
  { env := default
    buf := storeBytes (fun _ => 0) 0 [0x01, 0x02, 0x00, 0x00, 0x00, 0x04]
    len := 229
    ip := zeroIp }

/-- Files with room for six records of any class. -/
def roomyFiles : StoredClass → Option (List UInt8) := fun _ => some (List.replicate 2220 1)

theorem restart_restores_setDevConfig :
    FullSize roomyFiles ∧ (∀ r ∈ [setDevConfig], Valid r.buf) ∧
      ∃ final outcomes, handleAll (initConfig default roomyFiles) [setDevConfig] = .ok (final, outcomes) ∧
        (initConfig default final.files).gDevCfg = final.gDevCfg ∧
        (initConfig default final.files).gCamCfg = final.gCamCfg ∧
        (∀ (i : Nat) (r : Request) (o : Outcome), [setDevConfig][i]? = some r → outcomes[i]? = some o →
          ∀ k, setKey r.buf = some k →
            o.state.bytes k = (carried r.buf k.cls).1 ∧ Recorded o.state.files k (carried r.buf k.cls).1) ∧
        ∀ k k' : Key, k.cls = k'.cls → k ≠ k' → k.pos + k.len ≤ k'.pos ∨ k'.pos + k'.len ≤ k.pos := by
  have full : FullSize roomyFiles := by
    intro k
    refine ⟨_, rfl, ?_⟩
    rw [List.length_replicate]
    cases k with
    | devConfig => decide
    | camParam i | detParam i => revert i; decide
  have valid : ∀ r ∈ [setDevConfig], Valid r.buf := by
    intro r member
    cases List.mem_singleton.mp member
    unfold Valid
    rw [indexOf_bytes]
    intro _
    decide
  exact ⟨full, valid, restart_restores default default roomyFiles full [setDevConfig] valid⟩

end VideoDetector.Config
