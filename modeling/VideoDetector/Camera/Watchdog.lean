import VideoDetector.Camera.Service

/-!
# The watchdog (`watchdog_func` and `process_fun` in `fvd-new/camera_service.c`)

Each frame sets the watchdog to full, each tick of the watchdog sets it to hungry. A tick that finds an open camera hungry
reports it as stopped and asks for a reset; in every other case it reports the camera as running, also if it is closed.
The time since the camera was opened plays no part. `watchdog_verdict_iff` says at which ticks the report is right.
-/

namespace VideoDetector.Camera
set_option autoImplicit false
open Lib

/-- `process_fun`, by the result of `run_alg`: a positive one resets the algorithm. -/
def processFun (ret : Int) (c : CameraState) : CameraState :=
  { c with watchdogValue := .full, alg := if 0 < ret then resetAlg c.alg else c.alg }

/-- What happens to a camera: a frame comes in, or one of the other functions is called. -/
inductive Event where
  | frame (ret : Int)
  | act (a : Action)
  deriving DecidableEq

def Event.run (c : CameraState) : Event → CameraState
  | .frame ret => processFun ret c
  | .act a => step c a

/-- The state after some events. -/
def after (events : List Event) : CameraState := events.foldl Event.run CameraState.initial

/-- A tick of the watchdog. -/
def Event.IsTick (e : Event) : Prop := e = .act .watchdog

/-- A frame came since the tick before. -/
def FrameSince (before : List Event) : Prop := Since Event.IsTick (fun _ e => ∃ ret, e = .frame ret) before

/-- The camera was closed, and was opened since the tick before. -/
def OpenedSince (before : List Event) : Prop :=
  Since Event.IsTick (fun first e => (after first).info.openFlg = false ∧
    ∃ answer ip port username passwd, e = .act (.openCamera answer ip port username passwd)) before

/-- What a tick is to report: the camera is running if it is open and a frame came since the tick before, and it is reset if
it is open and none came, but not before it was open from one tick to the next. -/
structure Verdict (before : List Event) : Prop where
  running : (watchdogFunc (after before)).info.camRunningState = .camRunning ↔
    (after before).info.openFlg = true ∧ FrameSince before
  reset : posts (after before) .watchdog = some .reset ↔ (after before).info.openFlg = true ∧ ¬ FrameSince before
  inTime : OpenedSince before → posts (after before) .watchdog ≠ some .reset

theorem after_snoc (before : List Event) (e : Event) : after (before ++ [e]) = e.run (after before) := List.foldl_concat ..

/-- Only a frame and a tick change the watchdog. -/
theorem step_watchdogValue {c : CameraState} {a : Action} (other : a ≠ .watchdog) :
    (step c a).watchdogValue = c.watchdogValue := by
  cases a with
  | openCamera answer ip port username passwd =>
    simp only [step, cameraOpen]
    split <;> rfl
  | closeCamera | ctrl => rfl
  | watchdog => exact absurd rfl other
  | main answer =>
    rcases effects_cases c.info.cmd with pending | pending | nothing
    · rw [step, cameraMain_reset answer pending]
    · rw [step, cameraMain_resetAlg answer pending]
    · rw [step, cameraMain_idle answer nothing]
      rfl

/-- The watchdog is full exactly if a frame came since the tick before. -/
theorem watchdogValue_full (before : List Event) : (after before).watchdogValue = .full ↔ FrameSince before := by
  induction before using List.reverseRecOn with
  | nil => exact iff_of_false (by decide) (since_nil _ _)
  | append_singleton before e ih =>
    rw [after_snoc, FrameSince, since_snoc]
    cases e with
    | frame ret => exact iff_of_true rfl (.inl ⟨ret, rfl⟩)
    | act a =>
      by_cases tick : a = .watchdog
      · subst tick
        refine iff_of_false (fun full => ?_) ?_
        · cases full
        · rintro (⟨ret, frame⟩ | ⟨goesOn, _⟩)
          · cases frame
          · exact goesOn rfl
      · have goesOn : ¬ (Event.act a).IsTick := fun same => tick (Event.act.inj same)
        rw [Event.run, step_watchdogValue tick, ih, and_iff_right goesOn]
        refine (or_iff_right ?_).symm
        rintro ⟨ret, frame⟩
        cases frame

/-- A tick asks for a reset exactly if it finds the camera open and no frame came. -/
theorem posts_watchdog_iff (before : List Event) :
    posts (after before) .watchdog = some .reset ↔ (after before).info.openFlg = true ∧ ¬ FrameSince before := by
  rw [← watchdogValue_full, posts, CameraState.starved]
  cases (after before).watchdogValue <;> cases (after before).info.openFlg <;> simp

/-- A tick reports a camera as running unless it finds it open without a frame. -/
theorem watchdogFunc_running_iff (before : List Event) :
    (watchdogFunc (after before)).info.camRunningState = .camRunning ↔
      ((after before).info.openFlg = true → FrameSince before) := by
  rw [← watchdogValue_full, watchdogFunc, CameraState.starved]
  cases (after before).watchdogValue <;> cases (after before).info.openFlg <;> simp [cameraCtrl]

/-- **When the watchdog is right.** All ticks report what they are to report, exactly if each of them finds the camera open
and, when the camera was opened since the tick before, a frame came since then. -/
theorem watchdog_verdict_iff (events : List Event) :
    (∀ before later, events = before ++ .act .watchdog :: later → Verdict before) ↔
      ∀ before later, events = before ++ .act .watchdog :: later →
        (after before).info.openFlg = true ∧ (OpenedSince before → FrameSince before) := by
  refine forall_congr' fun before => forall_congr' fun later => imp_congr_right fun _ => ?_
  have running := watchdogFunc_running_iff before
  have reset := posts_watchdog_iff before
  constructor
  · rintro ⟨running', _, inTime⟩
    have opened : (after before).info.openFlg = true := by
      by_contra closed
      exact closed (running'.mp (running.mpr fun opened => absurd opened closed)).1
    refine ⟨opened, fun since => ?_⟩
    by_contra hungry
    exact inTime since (reset.mpr ⟨opened, hungry⟩)
  · rintro ⟨opened, fed⟩
    refine ⟨?_, reset, fun since asked => (reset.mp asked).2 (fed since)⟩
    rw [running, and_iff_right opened]
    exact ⟨fun frame => frame opened, fun frame _ => frame⟩

/-- A closed camera is reported as running at the first tick. -/
theorem closedCamera_reported_running :
    (after []).info.openFlg = false ∧ (watchdogFunc (after [])).info.camRunningState = .camRunning ∧
      ¬ ∀ before later, [Event.act .watchdog] = before ++ .act .watchdog :: later → Verdict before := by
  refine ⟨rfl, rfl, fun all => ?_⟩
  have opened := ((all [] [] rfl).running.mp rfl).1
  cases opened

end VideoDetector.Camera
