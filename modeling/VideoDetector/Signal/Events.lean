import VideoDetector.Signal.Pack
import VideoDetector.Lib.Runs

/-!
# Status changes (`check_event_callback_fun` in `fvd-new/sig_service.c`)

The thread of a camera raises `camera_state_change` when it packs its data. The timed callback goes over
the cameras and, where it finds the flag up, sends the status of all cameras and takes the flag down. The
callback takes no lock, so any camera may pack its data between two of its steps. The link is connected
and every send succeeds.

`status_reported` says when no change is missed.
-/

namespace VideoDetector.Signal
set_option autoImplicit false
open Lib
open Config (activeCamNum)

/-- Where `check_event_callback_fun` is. -/
inductive CheckPc where
  | idle
  | read (i : Fin activeCamNum)
  | send (i : Fin activeCamNum)
  | clear (i : Fin activeCamNum)
  deriving DecidableEq, Repr

/-- The configuration, `holder` and the body of the last status frame. -/
structure Events where
  cfg : Config.State
  holder : Fin activeCamNum → StaticChannel
  frame : List UInt8
  check : CheckPc

/-- What a status report reads. -/
def Events.reporter (e : Events) : Reporter := ⟨e.cfg, fun i => (e.holder i).toSigData⟩

/-- The next iteration of the loop over the cameras. -/
def nextCamera (i : Fin activeCamNum) : CheckPc := if more : i + 1 < activeCamNum then .read ⟨i + 1, more⟩ else .idle

/-- A step of `check_event_callback_fun`. -/
def checkStep (e : Events) : Events :=
  match e.check with
  | .idle => { e with check := .read 0 }
  | .read i => { e with check := if (e.holder i).cameraStateChange then .send i else nextCamera i }
  | .send i => { e with frame := reportBody e.reporter 0xFF, check := .clear i }
  | .clear i =>
    { e with
      holder := Function.update e.holder i { e.holder i with cameraStateChange := false }
      check := nextCamera i }

inductive EventAction where
  | pack (i : Fin activeCamNum) (out : AlgOutput)
  | check

def eventStep (e : Events) : EventAction → Events
  | .pack i out =>
    { e with holder := Function.update e.holder i (packSigData (e.cfg.gCamCfg i).camParam out (e.holder i)) }
  | .check => checkStep e

/-- The link is connected with a first status frame. -/
def Events.start (cfg : Config.State) (holder : Fin activeCamNum → StaticChannel) : Events :=
  { cfg := cfg
    holder := holder
    frame := reportBody ⟨cfg, fun i => (holder i).toSigData⟩ 0xFF
    check := .idle }

/-- Two statuses agree in the bits that the algorithm decides. -/
structure CameralStatus.Same (s t : CameralStatus) : Prop where
  bWorkMode : s.bWorkMode = t.bWorkMode
  bBackgroundRefreshed : s.bBackgroundRefreshed = t.bBackgroundRefreshed
  bH264DecodeStatus : s.bH264DecodeStatus = t.bH264DecodeStatus
  bPictureStable : s.bPictureStable = t.bPictureStable

/-- The last status frame has the current status of camera `i`. -/
def Events.UpToDate (e : Events) (i : Fin activeCamNum) : Prop :=
  ∃ s, frameStatus e.cfg e.frame i = some s ∧ s.Same (e.holder i).mCameralStatus

/-- Camera `i` has its current status reported or its flag up. -/
def Events.Reported (e : Events) (i : Fin activeCamNum) : Prop := (e.holder i).cameraStateChange = true ∨ e.UpToDate i

/-- The outputs of a reporting frame agree with the status. -/
structure AlgOutput.Agrees (out : AlgOutput) (s : CameralStatus) : Prop where
  bWorkMode : s.bWorkMode = out.workMode s.bWorkMode
  bBackgroundRefreshed : s.bBackgroundRefreshed = BitVec.ofBool out.refreshed
  bH264DecodeStatus : s.bH264DecodeStatus = 1
  bPictureStable : s.bPictureStable = out.stable

/-- A reporting frame of camera `i` finds its flag up, raises it, or finds the decoder status set before;
and between the send and the clearing of the flag it changes nothing. -/
def EventAction.Safe (i : Fin activeCamNum) (e : Events) : EventAction → Prop
  | .pack j out =>
    j = i → out.Reports →
      ((e.holder i).cameraStateChange = true ∨ out.Raises (e.holder i).mCameralStatus ∨
        (e.holder i).mCameralStatus.bH264DecodeStatus = 1) ∧
      (e.check = .clear i → out.Agrees (e.holder i).mCameralStatus)
  | .check => True

/-! ## Steps -/

theorem CameralStatus.Same.refl (s : CameralStatus) : s.Same s := ⟨rfl, rfl, rfl, rfl⟩

theorem CameralStatus.Same.trans {s t u : CameralStatus} (st : s.Same t) (tu : t.Same u) : s.Same u :=
  ⟨st.1.trans tu.1, st.2.trans tu.2, st.3.trans tu.3, st.4.trans tu.4⟩

/-- What agrees with the status stays. -/
theorem AlgOutput.Agrees.settle {out : AlgOutput} {s : CameralStatus} (agrees : out.Agrees s) :
    s.Same (out.settle out.refreshed s) :=
  ⟨agrees.1, agrees.2, agrees.3, agrees.4⟩

/-- What does not raise the flag agrees with the status but for the decoder. -/
theorem AlgOutput.agrees_of_not_raises {out : AlgOutput} {s : CameralStatus} (quiet : ¬ out.Raises s)
    (decodes : s.bH264DecodeStatus = 1) : out.Agrees s := by
  simp only [AlgOutput.Raises, not_or, not_not] at quiet
  obtain ⟨first, all, mode, stable⟩ := quiet
  rw [all] at first
  exact ⟨mode, first, decodes, stable⟩

/-- What a run keeps for camera `i`. -/
structure EventInv (i : Fin activeCamNum) (e : Events) : Prop where
  enabled : camEnabled e.cfg i = true
  reported : e.Reported i
  sent : e.check = .clear i → e.UpToDate i

theorem nextCamera_ne_clear (i j : Fin activeCamNum) : nextCamera i ≠ .clear j := by
  unfold nextCamera
  split <;> simp

/-- A report that is sent is up to date. -/
theorem upToDate_reportBody {e : Events} {i : Fin activeCamNum} (enabled : camEnabled e.cfg i = true) :
    ∃ s, frameStatus e.cfg (reportBody e.reporter 0xFF) i = some s ∧ s.Same (e.holder i).mCameralStatus :=
  ⟨e.reporter.cstatus i, frameStatus_reportBody (r := e.reporter) 0xFF enabled, rfl, rfl, rfl, rfl⟩

theorem pack_other {e : Events} {i j : Fin activeCamNum} (other : j ≠ i) (out : AlgOutput) :
    (eventStep e (.pack j out)).holder i = e.holder i :=
  Function.update_of_ne (Ne.symm other) ..

theorem pack_self (e : Events) (i : Fin activeCamNum) (out : AlgOutput) :
    (eventStep e (.pack i out)).holder i = packSigData (e.cfg.gCamCfg i).camParam out (e.holder i) :=
  Function.update_self ..

/-- A status that is kept stays up to date. -/
theorem upToDate_same {e : Events} {i : Fin activeCamNum} (upToDate : e.UpToDate i) {t : CameralStatus}
    (same : (e.holder i).mCameralStatus.Same t) : ∃ s, frameStatus e.cfg e.frame i = some s ∧ s.Same t := by
  obtain ⟨s, there, equal⟩ := upToDate
  exact ⟨s, there, equal.trans same⟩

/-- A safe frame of camera `i` leaves its flag up or its status as it was. -/
theorem packSigData_safe {e : Events} {i : Fin activeCamNum} {out : AlgOutput} (safe : EventAction.Safe i e (.pack i out)) :
    ((packSigData (e.cfg.gCamCfg i).camParam out (e.holder i)).cameraStateChange = true ∨
        (e.holder i).cameraStateChange = false ∧
          (e.holder i).mCameralStatus.Same (packSigData (e.cfg.gCamCfg i).camParam out (e.holder i)).mCameralStatus) ∧
      (e.check = .clear i →
        (e.holder i).mCameralStatus.Same (packSigData (e.cfg.gCamCfg i).camParam out (e.holder i)).mCameralStatus) := by
  by_cases reports : out.Reports
  · obtain ⟨status, change⟩ := packSigData_reports (e.cfg.gCamCfg i).camParam reports (e.holder i)
    obtain ⟨found, clearing⟩ := safe rfl reports
    rw [status, change]
    refine ⟨?_, fun sent => (clearing sent).settle⟩
    by_cases raises : (e.holder i).cameraStateChange = true ∨ out.Raises (e.holder i).mCameralStatus
    · exact .inl raises
    · obtain ⟨down, quiet⟩ := not_or.mp raises
      have decodes := (found.resolve_left down).resolve_left quiet
      exact .inr ⟨by simpa using down, (AlgOutput.agrees_of_not_raises quiet decodes).settle⟩
  · obtain ⟨status, change⟩ := packSigData_quiet (e.cfg.gCamCfg i).camParam reports (e.holder i)
    rw [status, change]
    refine ⟨?_, fun _ => .refl _⟩
    cases flag : (e.holder i).cameraStateChange with
    | true => exact .inl rfl
    | false => exact .inr ⟨rfl, .refl _⟩

theorem pack_inv {i : Fin activeCamNum} {e : Events} (inv : EventInv i e) (j : Fin activeCamNum) (out : AlgOutput)
    (safe : EventAction.Safe i e (.pack j out)) : EventInv i (eventStep e (.pack j out)) := by
  by_cases own : j = i
  · cases own
    obtain ⟨kept, clearing⟩ := packSigData_safe safe
    refine ⟨inv.enabled, ?_, ?_⟩
    · unfold Events.Reported Events.UpToDate
      rw [pack_self]
      refine kept.imp_right ?_
      rintro ⟨down, same⟩
      exact upToDate_same (inv.reported.resolve_left (by simp [down])) same
    · intro sent
      unfold Events.UpToDate
      rw [pack_self]
      exact upToDate_same (inv.sent sent) (clearing sent)
  · have same := pack_other (e := e) own out
    refine ⟨inv.enabled, ?_, ?_⟩
    · unfold Events.Reported Events.UpToDate
      rw [same]
      exact inv.reported
    · intro sent
      unfold Events.UpToDate
      rw [same]
      exact inv.sent sent

theorem checkStep_inv {i : Fin activeCamNum} {e : Events} (inv : EventInv i e) : EventInv i (checkStep e) := by
  cases pc : e.check with
  | idle =>
    simp only [checkStep, pc]
    exact ⟨inv.enabled, inv.reported, fun sent => nomatch sent⟩
  | read j =>
    simp only [checkStep, pc]
    refine ⟨inv.enabled, inv.reported, fun sent => ?_⟩
    simp only at sent
    split at sent
    · cases sent
    · exact absurd sent (nextCamera_ne_clear j i)
  | send j =>
    simp only [checkStep, pc]
    have upToDate := upToDate_reportBody inv.enabled
    exact ⟨inv.enabled, .inr upToDate, fun _ => upToDate⟩
  | clear j =>
    simp only [checkStep, pc]
    refine ⟨inv.enabled, ?_, fun sent => absurd sent (nextCamera_ne_clear j i)⟩
    by_cases own : j = i
    · cases own
      refine .inr ?_
      simp only [Events.UpToDate, Function.update_self]
      exact inv.sent pc
    · simp only [Events.Reported, Events.UpToDate, Function.update_of_ne (Ne.symm own)]
      exact inv.reported

theorem eventStep_inv {i : Fin activeCamNum} {e : Events} (inv : EventInv i e) {a : EventAction} (safe : a.Safe i e) :
    EventInv i (eventStep e a) := by
  cases a with
  | pack j out => exact pack_inv inv j out safe
  | check => exact checkStep_inv inv

theorem eventInv_start {cfg : Config.State} {i : Fin activeCamNum} (enabled : camEnabled cfg i = true)
    (holder : Fin activeCamNum → StaticChannel) : EventInv i (Events.start cfg holder) :=
  ⟨enabled, .inr (upToDate_reportBody (e := Events.start cfg holder) enabled), fun sent => nomatch sent⟩

/-! ## Runs -/

/-- **No status change goes unreported** in a run of safe steps: in every state reached an enabled camera
has its flag up, or its status is the one in the last status frame. -/
theorem status_reported (cfg : Config.State) (holder : Fin activeCamNum → StaticChannel) (i : Fin activeCamNum)
    (enabled : camEnabled cfg i = true) (run : List EventAction)
    (safe : ∀ before a after, run = before ++ a :: after →
      EventAction.Safe i (before.foldl eventStep (Events.start cfg holder)) a)
    (before after : List EventAction) (split : run = before ++ after) :
    (before.foldl eventStep (Events.start cfg holder)).Reported i :=
  (foldl_invariant (fun _ => EventInv i) (fun _ => EventAction.Safe i) (fun _ _ _ inv safe => eventStep_inv inv safe)
    (eventInv_start enabled holder) safe split).reported

/-- A device with camera 0 enabled. -/
def oneCamera : Config.State :=
  let s := Config.freshState fun _ => none
  { s with gDevCfg := Config.setCamstatus s.gDevCfg 0 Config.camOpenedStatus }

/-- A reporting frame with one lane by day. -/
def dayFrame (fuzzyflag : Bool) : AlgOutput :=
  { framecount := 12
    algIndex := 1
    uEnvironmentStatus := 4
    algNum := 1
    fits := by decide
    lane := fun _ => default
    fuzzyflag := fuzzyflag
    visibility := false }

/-- The picture becomes stable and the callback reports it. -/
def reportedChange : List EventAction := .pack 0 (dayFrame false) :: List.replicate 9 .check

theorem status_reported_change :
    (reportedChange.foldl eventStep (Events.start oneCamera default)).check = .idle ∧
      (reportedChange.foldl eventStep (Events.start oneCamera default)).Reported 0 := by
  refine ⟨by decide, status_reported oneCamera default 0 (by decide) reportedChange ?_ reportedChange []
    (List.append_nil _).symm⟩
  intro before a after split
  cases before with
  | nil =>
    cases split
    refine fun _ _ => ⟨.inr (.inl ?_), fun sent => (nomatch sent)⟩
    exact .inr (.inr (.inr (by decide)))
  | cons first before =>
    have there : a ∈ List.replicate 9 EventAction.check := by
      rw [(List.cons.inj split).2]
      simp
    rw [List.eq_of_mem_replicate there]
    trivial

/-- The picture becomes unstable again after the callback has sent its status. -/
def lostChange : List EventAction :=
  .pack 0 (dayFrame false) :: List.replicate 3 .check ++ .pack 0 (dayFrame true) :: List.replicate 6 .check

/-- The first frame of a camera, with an unstable picture. -/
def decoderChange : List EventAction := [.pack 0 (dayFrame true)]

/-- Neither the second change of the picture nor the first success of the decoder is reported. -/
theorem lostChange_unreported :
    ((lostChange.foldl eventStep (Events.start oneCamera default)).check = .idle ∧
        ¬ (lostChange.foldl eventStep (Events.start oneCamera default)).Reported 0) ∧
      (decoderChange.foldl eventStep (Events.start oneCamera default)).check = .idle ∧
        ¬ (decoderChange.foldl eventStep (Events.start oneCamera default)).Reported 0 := by
  have enabled : camEnabled oneCamera 0 = true := by decide
  refine ⟨⟨by decide, ?_⟩, by decide, ?_⟩
  · rintro (up | ⟨s, there, same⟩)
    · revert up
      decide
    · have sent := frameStatus_reportBody (r := ((lostChange.take 3).foldl eventStep (Events.start oneCamera default)).reporter)
        0xFF enabled
      cases sent.symm.trans there
      have stable := same.bPictureStable
      revert stable
      decide
  · rintro (up | ⟨s, there, same⟩)
    · revert up
      decide
    · have sent := frameStatus_reportBody (r := (Events.start oneCamera default).reporter) 0xFF enabled
      cases sent.symm.trans there
      have decodes := same.bH264DecodeStatus
      revert decodes
      decide

end VideoDetector.Signal
