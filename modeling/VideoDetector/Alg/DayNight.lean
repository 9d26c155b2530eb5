import VideoDetector.Config.Server
import VideoDetector.Lib.Registers

/-!
# Day and night (`fvd-new/cam_alg.c`)

The algorithm of a camera works with the parameters for the day or for the night (`alg_index`). The
section of the day is looked up every 250 frames: at dusk and in the morning the detector decides which
of the two it is, in the other sections it is forced. Its geometry and the packing of its results are
left out.

`day_night_switching` is what every run keeps.
-/

namespace VideoDetector.Alg
set_option autoImplicit false
open Lib
open Config (Object wordAt algMax zeroObj)

/-! ## Sections of the day and algorithms -/

def timeSectionNull : Int := 0
def dusk : Int := 1
def night : Int := 2
def morning : Int := 3
def daytime : Int := 4

def algNull : Int := 0
def algDaytime : Int := 1
def algNight : Int := 2

/-- `TICK_CHECK_POINT`. -/
def tickCheckPoint : Int := 250

/-! ## Configuration -/

/-- An `mDetectParam`. -/
structure DetectParam where
  uTransFactor : Nat
  uGraySubThreshold : Nat
  uSpeedCounterChangedThreshold : Nat
  uSpeedCounterChangedThreshold1 : Nat
  uSpeedCounterChangedThreshold2 : Nat
  uDayNightJudgeMinContiuFrame : Nat
  uComprehensiveSens : Nat
  uDetectSens1 : Nat
  uDetectSens2 : Nat
  uStatisticsSens1 : Nat
  uStatisticsSens2 : Nat
  uSobelThreshold : Nat
  shutterMax : Nat
  deriving Inhabited

/-- `timep[k]`. -/
def timep (det : Object .mCamDetectParam) (k : Nat) : Nat := wordAt det.1 (Config.mCamDetectParam.timep + k * 4) 4

/-- `detectlane.lanenum`. -/
def lanenum (det : Object .mCamDetectParam) : Nat :=
  wordAt det.1 (Config.mCamDetectParam.detectlane + Config.mCamDetectLane.lanenum) 1

/-- The array was read outside its bounds. -/
inductive Fault where
  | detectparam (index : Int)
  deriving DecidableEq, Repr

/-- `detectparam[index]`. -/
def detectparam (det : Object .mCamDetectParam) (index : Int) : Except Fault DetectParam :=
  if 0 ≤ index ∧ index < algMax then
    let base := Config.mCamDetectParam.detectparam + index.toNat * Config.mDetectParam.layout.size
    .ok
      { uTransFactor := wordAt det.1 (base + Config.mDetectParam.uTransFactor) 2
        uGraySubThreshold := wordAt det.1 (base + Config.mDetectParam.uGraySubThreshold) 4
        uSpeedCounterChangedThreshold := wordAt det.1 (base + Config.mDetectParam.uSpeedCounterChangedThreshold) 4
        uSpeedCounterChangedThreshold1 := wordAt det.1 (base + Config.mDetectParam.uSpeedCounterChangedThreshold1) 4
        uSpeedCounterChangedThreshold2 := wordAt det.1 (base + Config.mDetectParam.uSpeedCounterChangedThreshold2) 4
        uDayNightJudgeMinContiuFrame := wordAt det.1 (base + Config.mDetectParam.uDayNightJudgeMinContiuFrame) 2
        uComprehensiveSens := wordAt det.1 (base + Config.mDetectParam.uComprehensiveSens) 2
        uDetectSens1 := wordAt det.1 (base + Config.mDetectParam.uDetectSens1) 2
        uDetectSens2 := wordAt det.1 (base + Config.mDetectParam.uDetectSens2) 2
        uStatisticsSens1 := wordAt det.1 (base + Config.mDetectParam.uStatisticsSens1) 2
        uStatisticsSens2 := wordAt det.1 (base + Config.mDetectParam.uStatisticsSens2) 2
        uSobelThreshold := wordAt det.1 (base + Config.mDetectParam.uSobelThreshold) 2
        shutterMax := wordAt det.1 (base + Config.mDetectParam.shutterMax) 2 }
  else .error (.detectparam index)

/-! ## State -/

/-- `LANEINISTRUCT`; of the parameters all but `shutterMax` are in it. -/
structure LaneIn where
  param : DetectParam
  uEnvironment : Int
  uEnvironmentStatus : Int
  baseLength : Nat
  nearPointLength : Nat
  deriving Inhabited

/-- What the algorithm was set up with: `pDetectCfgSeg.uSegData[0]`. -/
structure SegData where
  uEnvironment : Int
  uEnvironmentStatus : Int
  uStatisticsSens1 : Nat
  deriving Inhabited

/-- What the algorithm works with: `pCfgs`. -/
structure AlgCfgs where
  bAuto : Int
  uEnvironmentStatus : Int
  uSquareThreshold : Nat
  deriving Inhabited

/-- `mAlgParam`. -/
structure AlgParam where
  laneIn : LaneIn
  algNum : Nat
  algIndex : Int
  timeSection : Int
  framecount : Int
  tick : Int
  segData : SegData
  cfgs : AlgCfgs
  deriving Inhabited

/-- `algparam[index]` when the program starts. -/
def AlgParam.initial : AlgParam :=
  { laneIn := ⟨⟨0, 0, 0, 0, 0, 0, 0, 0, 0, 0, 0, 0, 0⟩, 0, 0, 0, 0⟩
    algNum := 0
    algIndex := 0
    timeSection := 0
    framecount := 0
    tick := 0
    segData := ⟨0, 0, 0⟩
    cfgs := ⟨0, 0, 0⟩ }

/-! ## Operations -/

/-- The section of the day for a time in minutes. -/
def sectionAt (det : Object .mCamDetectParam) (value : Nat) : Int :=
  if timep det 0 ≤ value ∧ value < timep det 1 then morning
  else if timep det 1 ≤ value ∧ value < timep det 2 then daytime
  else if timep det 2 ≤ value ∧ value < timep det 3 then dusk
  else night

/-- `time_section_changed` at a time in minutes. -/
def timeSectionChanged (det : Object .mCamDetectParam) (value : Nat) (a : AlgParam) : AlgParam × Int :=
  let newstatus := sectionAt det value
  if newstatus ≠ a.timeSection then
    ({ a with timeSection := newstatus, laneIn := { a.laneIn with uEnvironmentStatus := newstatus } }, 1)
  else (a, 0)

/-- The threshold at dawn and dusk. -/
def squareThreshold (uEnvironmentStatus : Int) (threshold : Nat) : Nat :=
  if uEnvironmentStatus = 1 ∨ uEnvironmentStatus = 3 then if threshold < 20 then threshold else 20 else threshold

/-- `transform_arg_ctrl_DSP_VC`. -/
def transformArgCtrl (a : AlgParam) : AlgParam :=
  { a with
    cfgs :=
      { bAuto := a.segData.uEnvironment
        uEnvironmentStatus := a.segData.uEnvironmentStatus
        uSquareThreshold := squareThreshold a.segData.uEnvironmentStatus a.cfgs.uSquareThreshold } }

/-- `transform_init_DSP_VC`. -/
def transformInit (a : AlgParam) : AlgParam :=
  { a with
    segData :=
      { uEnvironment := a.laneIn.uEnvironment
        uEnvironmentStatus := a.laneIn.uEnvironmentStatus
        uStatisticsSens1 := a.laneIn.param.uStatisticsSens1 }
    cfgs :=
      { bAuto := a.laneIn.uEnvironment
        uEnvironmentStatus := a.laneIn.uEnvironmentStatus
        uSquareThreshold := squareThreshold a.laneIn.uEnvironmentStatus a.laneIn.param.uStatisticsSens1 } }

/-- `lane_param_init`. -/
def laneParamInit (curstatus : Int) (det : Object .mCamDetectParam) (cam : Object .mCamParam) (a : AlgParam) :
    Except Fault AlgParam := do
  let param ← detectparam det curstatus
  let camdem := Config.mCamParam.camdem
  return { a with
    laneIn :=
      { param := param
        uEnvironment := a.algIndex
        uEnvironmentStatus := a.timeSection
        baseLength := wordAt cam.1 (camdem + Config.mCamDemarcateParam.baselinelen) 2
        nearPointLength := wordAt cam.1 (camdem + Config.mCamDemarcateParam.recent2stop) 2 } }

/-- `init_alg_dsp`. -/
def initAlgDsp (det : Object .mCamDetectParam) (cam : Object .mCamParam) (a : AlgParam) : Except Fault AlgParam := do
  let a := { a with
    algIndex := if a.algIndex = algNull then algDaytime else a.algIndex
    timeSection := if a.timeSection = timeSectionNull then dusk else a.timeSection
    tick := 0 }
  let a ← laneParamInit (a.algIndex - 1) det cam a
  return transformInit { a with algNum := lanenum det }

/-- `open_alg`. -/
def openAlg (det : Object .mCamDetectParam) (cam : Object .mCamParam) (a : AlgParam) : Except Fault AlgParam :=
  initAlgDsp det cam a

/-- `reset_alg`; what `release_alg` frees is not in the model. -/
def resetAlg (det : Object .mCamDetectParam) (cam : Object .mCamParam) (a : AlgParam) : Except Fault AlgParam :=
  openAlg det cam a

/-- `init_alg`. -/
def initAlg (a : AlgParam) : AlgParam := { a with timeSection := timeSectionNull, algIndex := algNull }

/-- What the detector may tell: the day or the night. -/
structure Threshold where
  value : Int
  valid : value = algDaytime ∨ value = algNight

/-- `AlgProcessFrameData`; the detector tells its decision through `bAuto`. -/
def algProcessFrameData (threshold : Threshold) (a : AlgParam) : AlgParam :=
  { a with framecount := a.framecount + 1, cfgs := { a.cfgs with bAuto := threshold.value } }

/-- The look at the clock in `run_alg`. -/
def checkTick (det : Object .mCamDetectParam) (value : Nat) (a : AlgParam) : AlgParam :=
  if a.tick = tickCheckPoint then
    let (a, changed) := timeSectionChanged det value { a with tick := a.tick + 1 }
    let a := if 0 < changed then transformArgCtrl a else a
    { a with tick := 0 }
  else { a with tick := a.tick + 1 }

/-- The end of `run_alg`. -/
def switchAlg (threshold : Threshold) (a : AlgParam) : AlgParam × Int :=
  if (a.timeSection = dusk ∨ a.timeSection = morning) ∧ threshold.value ≠ a.algIndex then
    ({ a with algIndex := threshold.value }, threshold.value)
  else if a.timeSection = night ∧ a.algIndex = algDaytime then ({ a with algIndex := algNight }, algNight)
  else if a.timeSection = daytime ∧ a.algIndex = algNight then ({ a with algIndex := algDaytime }, algDaytime)
  else (a, 0)

/-- `run_alg`. -/
def runAlg (det : Object .mCamDetectParam) (value : Nat) (threshold : Threshold) (a : AlgParam) : AlgParam × Int :=
  switchAlg threshold (algProcessFrameData threshold (checkTick det value a))

/-- What `process_fun` does when `run_alg` returns: it sets the shutter after a switch. -/
def setShutter (det : Object .mCamDetectParam) (ret : Int) : Except Fault (Option Nat) :=
  if 0 < ret then do
    let param ← detectparam det (ret - 1)
    return some param.shutterMax
  else return none

/-! ## Runs -/

/-- A step, with the configuration, the time and the detector as they are then. -/
inductive Action where
  | initAlg
  | openAlg (det : Object .mCamDetectParam) (cam : Object .mCamParam)
  | resetAlg (det : Object .mCamDetectParam) (cam : Object .mCamParam)
  | runAlg (det : Object .mCamDetectParam) (value : Nat) (threshold : Threshold)

/-- What a step leaves and returns, and the shutter that `process_fun` sets after it. -/
structure Outcome where
  param : AlgParam
  ret : Int
  shutter : Option Nat

def algStep (a : AlgParam) : Action → Except Fault Outcome
  | .initAlg => .ok ⟨initAlg a, 0, none⟩
  | .openAlg det cam => do
    let a ← openAlg det cam a
    return ⟨a, 0, none⟩
  | .resetAlg det cam => do
    let a ← resetAlg det cam a
    return ⟨a, 0, none⟩
  | .runAlg det value threshold => do
    let shutter ← setShutter det (runAlg det value threshold a).2
    return ⟨(runAlg det value threshold a).1, (runAlg det value threshold a).2, shutter⟩

def algRun (a : AlgParam) (acts : List Action) : Except Fault (AlgParam × List Outcome) := serveAll algStep Outcome.param a acts

/-- The algorithm was opened or reset after it was last initialised. -/
def opened (acts : List Action) : Bool :=
  acts.foldl (fun before act =>
    match act with
    | .initAlg => false
    | .openAlg _ _ | .resetAlg _ _ => true
    | .runAlg _ _ _ => before) false

/-- `run_alg` returns the algorithm it changed to, and changes the section only at the check point. -/
structure RunsWell (before : AlgParam) (o : Outcome) : Prop where
  changed : o.ret ≠ 0 ↔ o.param.algIndex ≠ before.algIndex
  returned : o.ret ≠ 0 → o.ret = o.param.algIndex
  timed : o.param.timeSection ≠ before.timeSection → before.tick = tickCheckPoint

/-- At night and by day the algorithm is the one for the section. -/
structure Forced (a : AlgParam) : Prop where
  night : a.timeSection = night → a.algIndex = algNight
  daytime : a.timeSection = daytime → a.algIndex = algDaytime

/-- What a step does after the steps before it. -/
def Switches (acts : List Action) (before : AlgParam) (act : Action) (o : Outcome) : Prop :=
  match act with
  | .initAlg => o.param.timeSection = timeSectionNull
  | .openAlg _ _ | .resetAlg _ _ =>
    o.param.timeSection = if before.timeSection = timeSectionNull then dusk else before.timeSection
  | .runAlg _ _ _ =>
    RunsWell before o ∧ (before.algIndex ≠ algNull → Forced o.param) ∧ (opened acts = true → before.algIndex ≠ algNull)

/-- What a run keeps. -/
structure AlgInv (acts : List Action) (a : AlgParam) : Prop where
  known : a.algIndex = algNull ∨ a.algIndex = algDaytime ∨ a.algIndex = algNight
  opened : opened acts = true → a.algIndex ≠ algNull

theorem valid_ne_null {index : Int} (valid : index = algDaytime ∨ index = algNight) : index ≠ algNull := by
  rcases valid with rfl | rfl <;> decide

theorem detectparam_ok (det : Object .mCamDetectParam) {index : Int} (valid : index = algDaytime ∨ index = algNight) :
    ∃ param, detectparam det (index - 1) = .ok param := by
  unfold detectparam
  rw [if_pos]
  · exact ⟨_, rfl⟩
  · rcases valid with rfl | rfl <;> decide

theorem laneParamInit_ok (det : Object .mCamDetectParam) (cam : Object .mCamParam) {a : AlgParam}
    (valid : a.algIndex = algDaytime ∨ a.algIndex = algNight) :
    ∃ laneIn, laneParamInit (a.algIndex - 1) det cam a = .ok { a with laneIn := laneIn } := by
  obtain ⟨param, read⟩ := detectparam_ok det valid
  unfold laneParamInit
  rw [read]
  exact ⟨_, rfl⟩

/-- **`init_alg_dsp` reads inside the array**: it starts with the day and at dusk, and keeps what was
there. -/
theorem initAlgDsp_ok (det : Object .mCamDetectParam) (cam : Object .mCamParam) {a : AlgParam}
    (known : a.algIndex = algNull ∨ a.algIndex = algDaytime ∨ a.algIndex = algNight) :
    ∃ a', initAlgDsp det cam a = .ok a' ∧ (a'.algIndex = algDaytime ∨ a'.algIndex = algNight) ∧
      a'.timeSection = if a.timeSection = timeSectionNull then dusk else a.timeSection := by
  have valid : (if a.algIndex = algNull then algDaytime else a.algIndex) = algDaytime ∨
      (if a.algIndex = algNull then algDaytime else a.algIndex) = algNight := by
    split
    next => exact .inl rfl
    next other => exact known.resolve_left other
  obtain ⟨laneIn, done⟩ := laneParamInit_ok det cam
    (a := { a with
      algIndex := if a.algIndex = algNull then algDaytime else a.algIndex
      timeSection := if a.timeSection = timeSectionNull then dusk else a.timeSection
      tick := 0 }) valid
  simp only [initAlgDsp, done]
  exact ⟨_, rfl, valid, rfl⟩

/-! ## Steps -/

theorem checkTick_algIndex (det : Object .mCamDetectParam) (value : Nat) (a : AlgParam) :
    (checkTick det value a).algIndex = a.algIndex := by
  unfold checkTick timeSectionChanged
  split
  · simp only
    split
    · rfl
    · rfl
  · rfl

theorem checkTick_timeSection {det : Object .mCamDetectParam} {value : Nat} {a : AlgParam}
    (changed : (checkTick det value a).timeSection ≠ a.timeSection) : a.tick = tickCheckPoint := by
  unfold checkTick at changed
  split at changed
  next reached => exact reached
  next => exact absurd rfl changed

/-- What the end of `run_alg` does. -/
theorem switchAlg_spec (threshold : Threshold) (a : AlgParam) :
    (switchAlg threshold a).1.timeSection = a.timeSection ∧
      ((switchAlg threshold a).2 = 0 ∧ (switchAlg threshold a).1 = a ∨
        (switchAlg threshold a).1.algIndex ≠ a.algIndex ∧ (switchAlg threshold a).2 = (switchAlg threshold a).1.algIndex ∧
          ((switchAlg threshold a).2 = algDaytime ∨ (switchAlg threshold a).2 = algNight)) := by
  unfold switchAlg
  split
  next decided => exact ⟨rfl, .inr ⟨decided.2, rfl, threshold.valid⟩⟩
  next =>
    split
    next forced =>
      refine ⟨rfl, .inr ⟨?_, rfl, .inr rfl⟩⟩
      rw [forced.2]
      exact (by decide : algNight ≠ algDaytime)
    next =>
      split
      next forced =>
        refine ⟨rfl, .inr ⟨?_, rfl, .inl rfl⟩⟩
        rw [forced.2]
        exact (by decide : algDaytime ≠ algNight)
      next => exact ⟨rfl, .inl ⟨rfl, rfl⟩⟩

/-- With an algorithm there, the section forces it. -/
theorem switchAlg_forced (threshold : Threshold) {a : AlgParam} (valid : a.algIndex = algDaytime ∨ a.algIndex = algNight) :
    Forced (switchAlg threshold a).1 := by
  constructor
  · intro section_
    rw [(switchAlg_spec threshold a).1] at section_
    simp only [switchAlg, section_]
    rcases valid with day | dark
    · simp [day, night, dusk, morning]
    · simp [dark, night, dusk, morning, daytime, algNight, algDaytime]
  · intro section_
    rw [(switchAlg_spec threshold a).1] at section_
    simp only [switchAlg, section_]
    rcases valid with day | dark
    · simp [day, night, dusk, morning, daytime, algNight, algDaytime]
    · simp [dark, night, dusk, morning, daytime, algNight, algDaytime]

theorem opened_snoc (acts : List Action) (act : Action) :
    opened (acts ++ [act]) =
      match act with
      | .initAlg => false
      | .openAlg _ _ | .resetAlg _ _ => true
      | .runAlg _ _ _ => opened acts := by
  rw [opened, List.foldl_append]
  rfl

/-- An algorithm that is set up is there. -/
theorem initAlgDsp_inv {acts : List Action} {a : AlgParam} (inv : AlgInv acts a) (det : Object .mCamDetectParam)
    (cam : Object .mCamParam) (acts' : List Action) :
    ∃ a', initAlgDsp det cam a = .ok a' ∧ AlgInv acts' a' ∧
      a'.timeSection = if a.timeSection = timeSectionNull then dusk else a.timeSection := by
  obtain ⟨a', done, valid, sections⟩ := initAlgDsp_ok det cam inv.known
  exact ⟨a', done, ⟨.inr valid, fun _ => valid_ne_null valid⟩, sections⟩

/-- What `run_alg` does to the algorithm. -/
theorem runAlg_switch (det : Object .mCamDetectParam) (value : Nat) (threshold : Threshold) (a : AlgParam) :
    (runAlg det value threshold a).2 = 0 ∧ (runAlg det value threshold a).1.algIndex = a.algIndex ∨
      (runAlg det value threshold a).1.algIndex ≠ a.algIndex ∧
        (runAlg det value threshold a).2 = (runAlg det value threshold a).1.algIndex ∧
          ((runAlg det value threshold a).2 = algDaytime ∨ (runAlg det value threshold a).2 = algNight) := by
  have index : (algProcessFrameData threshold (checkTick det value a)).algIndex = a.algIndex := checkTick_algIndex det value a
  have switched := (switchAlg_spec threshold (algProcessFrameData threshold (checkTick det value a))).2
  rw [index] at switched
  refine switched.imp_left ?_
  rintro ⟨zero, same⟩
  refine ⟨zero, ?_⟩
  rw [runAlg, same, index]

theorem setShutter_ok (det : Object .mCamDetectParam) {ret : Int} (valid : ret = 0 ∨ ret = algDaytime ∨ ret = algNight) :
    ∃ shutter, setShutter det ret = .ok shutter := by
  rcases valid with rfl | valid
  · exact ⟨none, rfl⟩
  · obtain ⟨param, read⟩ := detectparam_ok det valid
    have positive : 0 < ret := by
      rcases valid with rfl | rfl <;> decide
    refine ⟨some param.shutterMax, ?_⟩
    rw [setShutter, if_pos positive, read]
    rfl

theorem runAlg_returns (det : Object .mCamDetectParam) (value : Nat) (threshold : Threshold) (a : AlgParam) (shutter : Option Nat) :
    RunsWell a ⟨(runAlg det value threshold a).1, (runAlg det value threshold a).2, shutter⟩ := by
  have timed : (runAlg det value threshold a).1.timeSection ≠ a.timeSection → a.tick = tickCheckPoint := by
    intro changed
    rw [runAlg, (switchAlg_spec _ _).1] at changed
    exact checkTick_timeSection changed
  rcases runAlg_switch det value threshold a with ⟨zero, kept⟩ | ⟨changed, returned, valid⟩
  · exact ⟨⟨fun some => absurd zero some, fun other => absurd kept other⟩, fun some => absurd zero some, timed⟩
  · exact ⟨⟨fun _ => changed, fun _ => valid_ne_null valid⟩, fun _ => returned, timed⟩

theorem runAlg_forced {a : AlgParam} (valid : a.algIndex = algDaytime ∨ a.algIndex = algNight)
    (det : Object .mCamDetectParam) (value : Nat) (threshold : Threshold) : Forced (runAlg det value threshold a).1 := by
  apply switchAlg_forced
  have index : (algProcessFrameData threshold (checkTick det value a)).algIndex = a.algIndex := checkTick_algIndex det value a
  rwa [index]

theorem runAlg_inv {acts : List Action} {a : AlgParam} (inv : AlgInv acts a) (det : Object .mCamDetectParam) (value : Nat)
    (threshold : Threshold) : AlgInv (acts ++ [.runAlg det value threshold]) (runAlg det value threshold a).1 := by
  have before : opened (acts ++ [.runAlg det value threshold]) = opened acts := opened_snoc acts _
  rcases runAlg_switch det value threshold a with ⟨_, kept⟩ | ⟨_, returned, valid⟩
  · refine ⟨by rw [kept]; exact inv.known, fun isOpen => ?_⟩
    rw [kept]
    exact inv.opened (before ▸ isOpen)
  · rw [returned] at valid
    exact ⟨.inr valid, fun _ => valid_ne_null valid⟩

/-- **One step** stays inside the array and keeps the invariant. -/
theorem algStep_spec {acts : List Action} {a : AlgParam} (inv : AlgInv acts a) (act : Action) :
    ∃ o, algStep a act = .ok o ∧ AlgInv (acts ++ [act]) o.param ∧ Switches acts a act o := by
  cases act with
  | initAlg =>
    refine ⟨_, rfl, ⟨.inl rfl, fun isOpen => ?_⟩, rfl⟩
    rw [opened_snoc] at isOpen
    cases isOpen
  | openAlg det cam =>
    obtain ⟨a', done, inv', sections⟩ := initAlgDsp_inv inv det cam (acts ++ [.openAlg det cam])
    refine ⟨⟨a', 0, none⟩, ?_, inv', sections⟩
    rw [algStep, openAlg, done]
    rfl
  | resetAlg det cam =>
    obtain ⟨a', done, inv', sections⟩ := initAlgDsp_inv inv det cam (acts ++ [.resetAlg det cam])
    refine ⟨⟨a', 0, none⟩, ?_, inv', sections⟩
    rw [algStep, resetAlg, openAlg, done]
    rfl
  | runAlg det value threshold =>
    have valid : (runAlg det value threshold a).2 = 0 ∨ (runAlg det value threshold a).2 = algDaytime ∨
        (runAlg det value threshold a).2 = algNight := by
      rcases runAlg_switch det value threshold a with ⟨zero, _⟩ | ⟨_, _, valid⟩
      · exact .inl zero
      · exact .inr valid
    obtain ⟨shutter, set⟩ := setShutter_ok det valid
    refine ⟨⟨(runAlg det value threshold a).1, (runAlg det value threshold a).2, shutter⟩, ?_, runAlg_inv inv det value threshold,
      runAlg_returns det value threshold a shutter,
      fun there => runAlg_forced (inv.known.resolve_left there) det value threshold, inv.opened⟩
    rw [algStep, set]
    rfl

theorem algInv_initial : AlgInv [] AlgParam.initial := ⟨.inl rfl, fun isOpen => nomatch isOpen⟩

/-- **Day and night**: no run reads the parameters outside their array. `run_alg` returns the algorithm
it changed to, or zero; it changes the section only at the check point; and if there was an algorithm, as
there is once it was opened, it leaves the one that the section forces. `open_alg` and `reset_alg` only
replace the section that `init_alg` cleared. -/
theorem day_night_switching (acts : List Action) :
    ∃ final outs, algRun AlgParam.initial acts = .ok (final, outs) ∧ outs.length = acts.length ∧
      ∀ i act o, acts[i]? = some act → outs[i]? = some o →
        ∃ before os, algRun AlgParam.initial (acts.take i) = .ok (before, os) ∧ algStep before act = .ok o ∧
          Switches (acts.take i) before act o := by
  have each : ∀ before act a, True → AlgInv before a → ∃ o, algStep a act = .ok o ∧ AlgInv (before ++ [act]) o.param := by
    intro before act a _ inv
    obtain ⟨o, done, inv', _⟩ := algStep_spec inv act
    exact ⟨o, done, inv'⟩
  obtain ⟨final, outs, run, length, _, met⟩ := serveAll_total each [] (fun act (_ : act ∈ acts) => trivial) algInv_initial
  refine ⟨final, outs, run, length, fun i act o there here => ?_⟩
  obtain ⟨before, os, reached, inv, done⟩ := met i act o there here
  obtain ⟨o', done', _, switches⟩ := algStep_spec inv act
  cases done.symm.trans done'
  exact ⟨before, os, reached, done, switches⟩

/-- An algorithm that is initialised again while it runs, at night. -/
def initWhileRunning : List Action :=
  .openAlg (zeroObj _) (zeroObj _) :: .initAlg :: List.replicate 251 (.runAlg (zeroObj _) 0 ⟨algDaytime, .inl rfl⟩)

/-- At night it is left without an algorithm, and `open_alg` had changed the section without a frame. -/
theorem initWhileRunning_night :
    ((algRun AlgParam.initial initWhileRunning).toOption.map fun r => (r.1.timeSection, r.1.algIndex)) = some (night, algNull) ∧
      ((algRun AlgParam.initial (initWhileRunning.take 1)).toOption.map fun r => (r.1.timeSection, r.1.tick)) =
        some (dusk, 0) ∧
      AlgParam.initial.timeSection = timeSectionNull := by
  refine ⟨by decide +kernel, by decide +kernel, rfl⟩

end VideoDetector.Alg
