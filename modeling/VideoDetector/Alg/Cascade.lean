import Mathlib.Logic.Function.Basic
import VideoDetector.Alg.Targets

/-!
# Cascades (`fvd-new/alg-mutilthread/Detector2.cpp`, `m_arith.cpp`)

Vehicles are found with one of three cascades of classifiers. `InitHaarParam` selects it for the
environment status of a camera and limits its stages. Every camera remembers that it has done so, but the
selected cascade is one pointer for the whole process. The classifier itself, the merging of overlapping
boxes and the pieces of an image that are looked at are parameters.

`own_cascade_iff` says when a frame of a camera is classified with the cascade of its own status.
-/

namespace VideoDetector.Alg
set_option autoImplicit false

/-! ## Classifiers -/

/-- The three tables of classifiers. -/
inductive Cascade where
  | day
  | dusk
  | night
  deriving DecidableEq, Repr

/-- A `Stage`, without its threshold. -/
structure Stage where
  first : Nat
  ntrees : Nat
  deriving DecidableEq, Repr

/-- What is changed of a `CvLBPClassifierCascade`, and the stages. -/
structure CascadeData where
  stageCount : Nat
  nodeCount : Nat
  stages : List Stage
  deriving DecidableEq, Repr

/-- `cascade_data` in `cascade_day_xml.h`, `cascade_dusk_xml.h` and `cascade_night_xml.h`. -/
def cascadeData : Cascade → CascadeData
  | .day => ⟨18, 141, [⟨0, 4⟩, ⟨4, 4⟩, ⟨8, 5⟩, ⟨13, 6⟩, ⟨19, 6⟩, ⟨25, 6⟩, ⟨31, 7⟩, ⟨38, 8⟩, ⟨46, 8⟩, ⟨54, 8⟩, ⟨62, 8⟩, ⟨70, 9⟩,
      ⟨79, 8⟩, ⟨87, 11⟩, ⟨98, 10⟩, ⟨108, 12⟩, ⟨120, 10⟩, ⟨130, 11⟩]⟩
  | .dusk => ⟨18, 162, [⟨0, 5⟩, ⟨5, 5⟩, ⟨10, 6⟩, ⟨16, 6⟩, ⟨22, 6⟩, ⟨28, 6⟩, ⟨34, 8⟩, ⟨42, 9⟩, ⟨51, 10⟩, ⟨61, 10⟩, ⟨71, 10⟩,
      ⟨81, 10⟩, ⟨91, 12⟩, ⟨103, 12⟩, ⟨115, 11⟩, ⟨126, 12⟩, ⟨138, 11⟩, ⟨149, 13⟩]⟩
  | .night => ⟨17, 132, [⟨0, 4⟩, ⟨4, 5⟩, ⟨9, 5⟩, ⟨14, 6⟩, ⟨20, 7⟩, ⟨27, 7⟩, ⟨34, 7⟩, ⟨41, 8⟩, ⟨49, 7⟩, ⟨56, 8⟩, ⟨64, 9⟩, ⟨73, 9⟩,
      ⟨82, 9⟩, ⟨91, 9⟩, ⟨100, 10⟩, ⟨110, 11⟩, ⟨121, 11⟩]⟩

/-- The globals of the detector: `cascade_LBP`, and the tables, which are changed in place. -/
structure Detector where
  cascadeLBP : Option Cascade
  data : Cascade → CascadeData

def Detector.initial : Detector := ⟨none, cascadeData⟩

/-- The cascade for an environment status. -/
def cascadeFor (flag : Nat) : Cascade := if flag = 4 then .day else if flag = 2 then .night else .dusk

def testStages : Cascade → Nat
  | .day => 17
  | .dusk => 16
  | .night => 15

def limitStages (n : Nat) (d : CascadeData) : CascadeData :=
  if n < d.stageCount then
    { d with stageCount := n, nodeCount := (d.stages[n - 1]?).elim d.nodeCount fun s => s.first + s.ntrees }
  else d

/-- `InitHaarParam`. -/
def initHaarParam (flag : Nat) (d : Detector) : Detector :=
  { cascadeLBP := some (cascadeFor flag)
    data := Function.update d.data (cascadeFor flag) (limitStages (testStages (cascadeFor flag)) (d.data (cascadeFor flag))) }

/-! ## Frames -/

/-- A cascade with its limits. -/
abbrev Classifier := Cascade × CascadeData

/-- `detectMultiScale` and `merge_overlapped_rect`. -/
structure Vision (Image : Type) where
  detectMultiScale : Classifier → Image → List Rect
  mergeOverlappedRect : List Rect → List Rect

/-- A piece of the image and its place. -/
structure Piece (Image : Type) where
  x : Int
  y : Int
  image : Image

/-- What a frame brings: the brightness, the image, and the candidates of `get_candidate` in it. -/
structure Shot (Image : Type) where
  guBackGrey : Nat
  currImg : Image
  candidates : List (Piece Image)

/-- The pieces that are classified: the candidates, or the whole image if it is dark. -/
def Shot.pieces {Image : Type} (s : Shot Image) : List (Piece Image) :=
  if 30 < (if s.guBackGrey = 0 then 50 else s.guBackGrey) then s.candidates else [⟨0, 0, s.currImg⟩]

/-- What `cascade_LBP` points to. -/
def Detector.classifier (d : Detector) : Option Classifier := d.cascadeLBP.map fun k => (k, d.data k)

section
variable {Image ι : Type} (v : Vision Image)

/-- The state of the loop over the pieces, with the classifiers that were used. -/
structure Seen where
  detector : Detector
  detectParamsOk : Bool
  vehicleROI : List Rect
  used : List (Option Classifier)

/-- The test at the beginning of `alg_opencv_processPC`. -/
def prepare (flag : Nat) (d : Detector) (detectParamsOk : Bool) : Detector := if detectParamsOk then d else initHaarParam flag d

/-- The boxes that a classifier finds in a piece. -/
def found (k : Option Classifier) (p : Piece Image) : List Rect :=
  match k with
  | none => []
  | some k => (v.detectMultiScale k p.image).map fun r => { r with x := r.x + p.x, y := r.y + p.y }

/-- `alg_opencv_processPC`. -/
def processPC (flag : Nat) (s : Seen) (p : Piece Image) : Seen :=
  let d := prepare flag s.detector s.detectParamsOk
  ⟨d, true, s.vehicleROI ++ found v d.classifier p, s.used ++ [d.classifier]⟩

/-- `vehicle_detection`. -/
def vehicleDetection (flag : Nat) (d : Detector) (detectParamsOk : Bool) (shot : Shot Image) : Seen :=
  let s := shot.pieces.foldl (processPC v flag) ⟨d, detectParamsOk, [], []⟩
  { s with vehicleROI := v.mergeOverlappedRect s.vehicleROI }

/-! ## Cameras -/

/-- What a camera keeps for the detector. -/
structure CameraCtx where
  uEnvironmentStatus : Nat
  detectParamsOk : Bool
  deriving DecidableEq, Repr

structure System (ι : Type) where
  detector : Detector
  cameras : ι → CameraCtx

def System.initial : System ι := ⟨Detector.initial, fun _ => ⟨0, false⟩⟩

/-- The steps of the cameras. -/
inductive CamAction (ι Image : Type) where
  | cfgStructParse (c : ι) (uEnvironmentStatus : Nat)
  | vehicleDetection (c : ι) (shot : Shot Image)

def CamAction.camera : CamAction ι Image → ι
  | .cfgStructParse c _ => c
  | .vehicleDetection c _ => c

/-- What a frame of a camera sees. -/
def System.sees (s : System ι) (c : ι) (shot : Shot Image) : Seen :=
  Alg.vehicleDetection v (s.cameras c).uEnvironmentStatus s.detector (s.cameras c).detectParamsOk shot

variable [DecidableEq ι]

def System.step (s : System ι) : CamAction ι Image → System ι
  | .cfgStructParse c uEnvironmentStatus => { s with cameras := Function.update s.cameras c ⟨uEnvironmentStatus, false⟩ }
  | .vehicleDetection c shot =>
    { detector := (s.sees v c shot).detector
      cameras := Function.update s.cameras c { s.cameras c with detectParamsOk := (s.sees v c shot).detectParamsOk } }

def System.run (acts : List (CamAction ι Image)) : System ι := acts.foldl (System.step v) System.initial

end

/-- The classifier that `InitHaarParam` selects for a status. -/
def ownClassifier (flag : Nat) : Classifier := (cascadeFor flag, limitStages (testStages (cascadeFor flag)) (cascadeData (cascadeFor flag)))

/-- A frame after a run is classified with the cascade of the camera's own status, and finds what it finds
when the steps of all other cameras are left out. -/
structure Own {Image ι : Type} [DecidableEq ι] (v : Vision Image) (acts : List (CamAction ι Image)) (c : ι) (shot : Shot Image) :
    Prop where
  cascade : ∀ k ∈ ((System.run v acts).sees v c shot).used, k = some (ownClassifier ((System.run v acts).cameras c).uEnvironmentStatus)
  alone : ((System.run v acts).sees v c shot).vehicleROI =
    ((System.run v (acts.filter fun a => a.camera = c)).sees v c shot).vehicleROI

/-! ## Turns -/

/-- Which cameras have classified a piece since they were initialised, and the status of the camera that
was the last to classify its first one. -/
structure Turns (ι : Type) where
  cameras : ι → CameraCtx
  last : Option Nat

section
variable {Image ι : Type} [DecidableEq ι]

def Turns.step (t : Turns ι) : CamAction ι Image → Turns ι
  | .cfgStructParse c uEnvironmentStatus => { t with cameras := Function.update t.cameras c ⟨uEnvironmentStatus, false⟩ }
  | .vehicleDetection c shot =>
    if shot.pieces = [] then t
    else
      { cameras := Function.update t.cameras c { t.cameras c with detectParamsOk := true }
        last := if (t.cameras c).detectParamsOk then t.last else some (t.cameras c).uEnvironmentStatus }

def Turns.run (acts : List (CamAction ι Image)) : Turns ι := acts.foldl Turns.step ⟨fun _ => ⟨0, false⟩, none⟩

/-- The frame classifies nothing, or it is the first of its camera to do so, or the camera that was the
last to classify its first piece has a status with the same cascade. -/
def SameCascade (t : Turns ι) (c : ι) (shot : Shot Image) : Prop :=
  shot.pieces ≠ [] → (t.cameras c).detectParamsOk = true → t.last.map cascadeFor = some (cascadeFor (t.cameras c).uEnvironmentStatus)

/-! ## What a frame sees -/

variable (v : Vision Image)

/-- A detector that was prepared is not prepared again. -/
theorem foldl_processPC (flag : Nat) (pieces : List (Piece Image)) (d : Detector) (rois : List Rect) (used : List (Option Classifier)) :
    pieces.foldl (processPC v flag) ⟨d, true, rois, used⟩ =
      ⟨d, true, rois ++ pieces.flatMap (found v d.classifier), used ++ List.replicate pieces.length d.classifier⟩ := by
  induction pieces generalizing rois used with
  | nil => simp
  | cons p pieces ih =>
    show pieces.foldl (processPC v flag) ⟨d, true, rois ++ found v d.classifier p, used ++ [d.classifier]⟩ = _
    rw [ih]
    simp [List.replicate_succ]

/-- **What `vehicle_detection` does**: it prepares the detector if it has a piece to classify, and
classifies all of them with the same cascade. -/
theorem vehicleDetection_eq (flag : Nat) (d : Detector) (ok : Bool) {shot : Shot Image} (some : shot.pieces ≠ []) :
    vehicleDetection v flag d ok shot =
      ⟨prepare flag d ok, true, v.mergeOverlappedRect (shot.pieces.flatMap (found v (prepare flag d ok).classifier)),
        List.replicate shot.pieces.length (prepare flag d ok).classifier⟩ := by
  have first : shot.pieces.foldl (processPC v flag) ⟨d, ok, [], []⟩ =
      shot.pieces.foldl (processPC v flag) ⟨prepare flag d ok, true, [], []⟩ := by
    cases pieces : shot.pieces with
    | nil => exact absurd pieces some
    | cons p ps => rfl
  unfold vehicleDetection
  rw [first, foldl_processPC]
  simp

theorem vehicleDetection_nil (flag : Nat) (d : Detector) (ok : Bool) {shot : Shot Image} (none : shot.pieces = []) :
    vehicleDetection v flag d ok shot = ⟨d, ok, v.mergeOverlappedRect [], []⟩ := by
  unfold vehicleDetection
  rw [none]
  rfl

/-! ## Runs -/

theorem limitStages_idem (n : Nat) (d : CascadeData) : limitStages n (limitStages n d) = limitStages n d := by
  unfold limitStages
  split
  next => simp
  next => rfl

/-- A table with its stages limited. -/
def limited (k : Cascade) : CascadeData := limitStages (testStages k) (cascadeData k)

/-- The detector after the turns: the pointer is that of the last first turn, and the tables of the
cameras that had one are limited. -/
structure Follows (s : System ι) (t : Turns ι) : Prop where
  cameras : s.cameras = t.cameras
  pointer : s.detector.cascadeLBP = t.last.map cascadeFor
  data : ∀ k, s.detector.data k = cascadeData k ∨ s.detector.data k = limited k
  ready : ∀ c, (t.cameras c).detectParamsOk = true →
    s.detector.data (cascadeFor (t.cameras c).uEnvironmentStatus) = limited (cascadeFor (t.cameras c).uEnvironmentStatus)

theorem initHaarParam_data {d : Detector} (data : ∀ k, d.data k = cascadeData k ∨ d.data k = limited k) (flag : Nat) (k : Cascade) :
    (initHaarParam flag d).data k = if k = cascadeFor flag then limited k else d.data k := by
  by_cases here : k = cascadeFor flag
  · subst here
    rw [if_pos rfl]
    show Function.update _ _ _ _ = _
    rw [Function.update_self]
    rcases data (cascadeFor flag) with fresh | again
    · rw [fresh]
      rfl
    · rw [again]
      exact limitStages_idem _ _
  · rw [if_neg here]
    exact Function.update_of_ne here _ _

/-- A camera is initialised. -/
theorem parse_follows {s : System ι} {t : Turns ι} (follows : Follows s t) (c : ι) (status : Nat) :
    Follows { s with cameras := Function.update s.cameras c ⟨status, false⟩ }
      { t with cameras := Function.update t.cameras c ⟨status, false⟩ } := by
  obtain ⟨cameras, pointer, data, ready⟩ := follows
  refine ⟨by rw [cameras], pointer, data, fun c' ok => ?_⟩
  simp only at ok ⊢
  by_cases here : c' = c
  · subst here
    rw [Function.update_self] at ok
    cases ok
  · rw [Function.update_of_ne here] at ok ⊢
    exact ready c' ok

/-- A camera classifies a piece. -/
theorem turn_follows {s : System ι} {t : Turns ι} (follows : Follows s t) (c : ι) :
    Follows ⟨prepare (t.cameras c).uEnvironmentStatus s.detector (t.cameras c).detectParamsOk,
        Function.update t.cameras c { t.cameras c with detectParamsOk := true }⟩
      ⟨Function.update t.cameras c { t.cameras c with detectParamsOk := true },
        if (t.cameras c).detectParamsOk then t.last else some (t.cameras c).uEnvironmentStatus⟩ := by
  obtain ⟨cameras, pointer, data, ready⟩ := follows
  have others : ∀ c', (Function.update t.cameras c { t.cameras c with detectParamsOk := true } c').uEnvironmentStatus =
      (t.cameras c').uEnvironmentStatus := by
    intro c'
    by_cases here : c' = c
    · subst here
      rw [Function.update_self]
    · rw [Function.update_of_ne here]
  cases ok : (t.cameras c).detectParamsOk with
  | true =>
    refine ⟨rfl, pointer, data, fun c' ok' => ?_⟩
    simp only [others] at ok' ⊢
    by_cases here : c' = c
    · subst here
      exact ready c' ok
    · rw [Function.update_of_ne here] at ok'
      exact ready c' ok'
  | false =>
    have tables := initHaarParam_data data (t.cameras c).uEnvironmentStatus
    refine ⟨rfl, rfl, fun k => ?_, fun c' ok' => ?_⟩
    · show (initHaarParam _ s.detector).data k = _ ∨ (initHaarParam _ s.detector).data k = _
      rw [tables]
      split
      next => exact .inr rfl
      next => exact data k
    · show (initHaarParam _ s.detector).data _ = _
      simp only [others] at ok' ⊢
      rw [tables]
      split
      next => rfl
      next other =>
        by_cases here : c' = c
        · subst here
          exact absurd rfl other
        · rw [Function.update_of_ne here] at ok'
          exact ready c' ok'

/-- **One step** of the system follows the turns. -/
theorem step_follows {s : System ι} {t : Turns ι} (follows : Follows s t) (act : CamAction ι Image) :
    Follows (s.step v act) (t.step act) := by
  cases act with
  | cfgStructParse c status => exact parse_follows follows c status
  | vehicleDetection c shot =>
    unfold Turns.step
    by_cases none : shot.pieces = []
    · have same : s.step v (.vehicleDetection c shot) = s := by
        show System.mk _ _ = s
        rw [System.sees, vehicleDetection_nil v _ _ _ none]
        simp
      rw [same]
      simp only [if_pos none]
      exact follows
    · have stepped : s.step v (.vehicleDetection c shot) =
          ⟨prepare (t.cameras c).uEnvironmentStatus s.detector (t.cameras c).detectParamsOk,
            Function.update t.cameras c { t.cameras c with detectParamsOk := true }⟩ := by
        show System.mk _ _ = _
        rw [System.sees, vehicleDetection_eq v _ _ _ none, follows.cameras]
      rw [stepped]
      simp only [if_neg none]
      exact turn_follows follows c

theorem run_follows (acts : List (CamAction ι Image)) : Follows (System.run v acts) (Turns.run acts) := by
  unfold System.run Turns.run
  have initial : Follows (ι := ι) System.initial ⟨fun _ => ⟨0, false⟩, none⟩ :=
    ⟨rfl, rfl, fun _ => .inl rfl, fun _ ok => (nomatch ok)⟩
  generalize (System.initial : System ι) = s at initial
  generalize (⟨fun _ => ⟨0, false⟩, none⟩ : Turns ι) = t at initial
  induction acts generalizing s t with
  | nil => exact initial
  | cons act acts ih => exact ih _ _ (step_follows v initial act)

/-- A camera among others and the same camera alone: it is in the same state, and alone the last first
turn was its own. -/
structure Alone (c : ι) (t u : Turns ι) : Prop where
  camera : t.cameras c = u.cameras c
  last : (u.cameras c).detectParamsOk = true → u.last = some (u.cameras c).uEnvironmentStatus

theorem alone_other {c : ι} {t u : Turns ι} (alone : Alone c t u) {act : CamAction ι Image} (other : act.camera ≠ c) :
    Alone c (t.step act) u := by
  refine ⟨?_, alone.last⟩
  rw [← alone.camera]
  cases act with
  | cfgStructParse c' status => exact Function.update_of_ne (Ne.symm other) _ _
  | vehicleDetection c' shot =>
    by_cases none : shot.pieces = []
    · simp only [Turns.step, if_pos none]
    · simp only [Turns.step, if_neg none]
      exact Function.update_of_ne (Ne.symm other) _ _

theorem alone_own {c : ι} {t u : Turns ι} (alone : Alone c t u) {act : CamAction ι Image} (own : act.camera = c) :
    Alone c (t.step act) (u.step act) := by
  obtain ⟨camera, last⟩ := alone
  cases act with
  | cfgStructParse c' status =>
    change c' = c at own
    subst own
    refine ⟨by simp only [Turns.step, Function.update_self], fun ok => ?_⟩
    simp only [Turns.step, Function.update_self] at ok
    cases ok
  | vehicleDetection c' shot =>
    change c' = c at own
    subst own
    by_cases none : shot.pieces = []
    · simp only [Turns.step, if_pos none]
      exact ⟨camera, last⟩
    · simp only [Turns.step, if_neg none]
      refine ⟨by simp only [Function.update_self, camera], fun _ => ?_⟩
      simp only [Function.update_self]
      split
      next ok => exact last ok
      next => rfl

theorem turns_snoc (acts : List (CamAction ι Image)) (act : CamAction ι Image) :
    Turns.run (acts ++ [act]) = (Turns.run acts).step act := List.foldl_append

theorem run_alone (c : ι) (acts : List (CamAction ι Image)) :
    Alone c (Turns.run acts) (Turns.run (acts.filter fun a => a.camera = c)) := by
  induction acts using List.reverseRecOn with
  | nil => exact ⟨rfl, fun ok => (nomatch ok)⟩
  | append_singleton acts act ih =>
    rw [turns_snoc, List.filter_append]
    by_cases own : act.camera = c
    · have kept : [act].filter (fun a => decide (a.camera = c)) = [act] := by simp [own]
      rw [kept, turns_snoc]
      exact alone_own ih own
    · have dropped : [act].filter (fun a => decide (a.camera = c)) = [] := by simp [own]
      rw [dropped, List.append_nil]
      exact alone_other ih own

omit [DecidableEq ι] in
/-- The classifier of a frame is the camera's own exactly if the turns say so. -/
theorem classifier_iff {s : System ι} {t : Turns ι} (follows : Follows s t) (c : ι) {shot : Shot Image} (some : shot.pieces ≠ []) :
    (prepare (t.cameras c).uEnvironmentStatus s.detector (t.cameras c).detectParamsOk).classifier =
        Option.some (ownClassifier (t.cameras c).uEnvironmentStatus) ↔
      SameCascade t c shot := by
  unfold SameCascade prepare
  cases ok : (t.cameras c).detectParamsOk with
  | false =>
    refine ⟨fun _ _ ok => (nomatch ok), fun _ => ?_⟩
    have table := initHaarParam_data follows.data (t.cameras c).uEnvironmentStatus (cascadeFor (t.cameras c).uEnvironmentStatus)
    rw [if_pos rfl] at table
    show Option.some (_, (initHaarParam _ s.detector).data _) = _
    rw [table]
    rfl
  | true =>
    rw [if_pos rfl, Detector.classifier, ← follows.pointer]
    constructor
    · intro own _ _
      cases pointer : s.detector.cascadeLBP with
      | none =>
        rw [pointer] at own
        cases own
      | some k =>
        rw [pointer] at own
        exact congrArg Option.some (Prod.mk.inj (Option.some.inj own)).1
    · intro same
      rw [same some rfl]
      show Option.some (_, s.detector.data _) = _
      rw [follows.ready c ok]
      rfl

/-- **Own cascade**: a frame after any run is classified with the cascade and the stages of the camera's own
status, and finds what it finds without the other cameras, exactly if it classifies nothing, is the first
of its camera to do so, or comes while the last first turn was that of a camera with the same cascade. -/
theorem own_cascade_iff (acts : List (CamAction ι Image)) (c : ι) (shot : Shot Image) :
    Own v acts c shot ↔ SameCascade (Turns.run acts) c shot := by
  have follows := run_follows v acts
  have follows' := run_follows v (acts.filter fun a => a.camera = c)
  have alone := run_alone c acts
  by_cases none : shot.pieces = []
  · refine ⟨fun _ some => absurd none some, fun _ => ⟨fun k used => ?_, ?_⟩⟩
    · rw [System.sees, vehicleDetection_nil v _ _ _ none] at used
      cases used
    · rw [System.sees, System.sees, vehicleDetection_nil v _ _ _ none, vehicleDetection_nil v _ _ _ none]
  · have iff := classifier_iff follows c none
    have sees := vehicleDetection_eq v (((Turns.run acts).cameras c).uEnvironmentStatus) (System.run v acts).detector
      ((Turns.run acts).cameras c).detectParamsOk none
    constructor
    · intro own
      have cascade := own.cascade
      rw [System.sees, follows.cameras, sees] at cascade
      exact iff.mp (cascade _ (List.mem_replicate.mpr ⟨mt List.length_eq_zero_iff.mp none, rfl⟩))
    · intro same
      have mine := iff.mpr same
      have same' : SameCascade (Turns.run (acts.filter fun a => a.camera = c)) c shot :=
        fun _ ok => congrArg (Option.map cascadeFor) (alone.last ok)
      have mine' := (classifier_iff follows' c none).mpr same'
      refine ⟨fun k used => ?_, ?_⟩
      · rw [System.sees, follows.cameras, sees] at used
        rw [List.eq_of_mem_replicate used, mine, follows.cameras]
      · rw [System.sees, System.sees, vehicleDetection_eq v _ _ _ none, vehicleDetection_eq v _ _ _ none, follows.cameras,
          follows'.cameras, mine, mine', alone.camera]

end

/-- A classifier that finds a box as large as the number of its stages. -/
def sampleVision : Vision Unit := ⟨fun k _ => [⟨0, 0, k.2.stageCount, k.2.stageCount⟩], id⟩

/-- A dark image, which is classified whole. -/
def darkShot : Shot Unit := ⟨20, (), []⟩

/-- A camera by day and one at night are initialised, and each classifies a frame. -/
def twoCameras : List (CamAction Nat Unit) :=
  [.cfgStructParse 0 4, .cfgStructParse 1 2, .vehicleDetection 0 darkShot, .vehicleDetection 1 darkShot]

/-- The next frame of the camera by day is classified with the cascade for the night, and other vehicles are
found than without the second camera. -/
theorem twoCameras_night :
    ((System.run sampleVision twoCameras).sees sampleVision 0 darkShot).used = [some (ownClassifier 2)] ∧
      ((System.run sampleVision twoCameras).sees sampleVision 0 darkShot).vehicleROI = [⟨0, 0, 15, 15⟩] ∧
      ((System.run sampleVision (twoCameras.filter fun a => a.camera = 0)).sees sampleVision 0 darkShot).vehicleROI =
        [⟨0, 0, 17, 17⟩] ∧ ¬ Own sampleVision twoCameras 0 darkShot := by
  refine ⟨by decide, by decide, by decide, fun own => ?_⟩
  exact absurd own.alone (by decide)

end VideoDetector.Alg
