import VideoDetector.Alg.DayNight

/-!
# The section of the day in the detector (`fvd-new/cam_alg.c`, `VC_DSP_TRANSFORM.cpp`)

The section is kept three times: in `time_section`, in what the algorithm was set up with and in what
it works with. `run_alg` changes the first; the refresh after a change copies the second to the third,
and only `transform_init_DSP_VC` writes the second.

`environment_status_iff` says when the detector sees the current section.
-/

namespace VideoDetector.Alg
set_option autoImplicit false
open Lib
open Config (Object zeroObj)

/-- The section that `run_alg` has after its look at the clock. -/
def sectionDuring (a : AlgParam) (det : Object .mCamDetectParam) (value : Nat) : Int :=
  if a.tick = tickCheckPoint then sectionAt det value else a.timeSection

/-- The detector works with the current section. -/
def SeesSection (a : AlgParam) : Prop := a.cfgs.uEnvironmentStatus = a.timeSection

/-- The algorithm works with what it was set up with. -/
def Refreshed (a : AlgParam) : Prop := a.cfgs.uEnvironmentStatus = a.segData.uEnvironmentStatus

/-! ## Steps -/

/-- The look at the clock leaves what the algorithm was set up with. -/
theorem checkTick_spec (det : Object .mCamDetectParam) (value : Nat) {a : AlgParam} (refreshed : Refreshed a) :
    (checkTick det value a).timeSection = sectionDuring a det value ∧
      (checkTick det value a).segData = a.segData ∧ Refreshed (checkTick det value a) := by
  unfold checkTick sectionDuring timeSectionChanged
  split
  next =>
    by_cases same : sectionAt det value = a.timeSection
    · rw [if_neg (not_not_intro same)]
      exact ⟨same.symm, rfl, refreshed⟩
    · rw [if_pos same]
      exact ⟨rfl, rfl, rfl⟩
  next => exact ⟨rfl, rfl, refreshed⟩

/-- The end of `run_alg` only changes the algorithm. -/
theorem switchAlg_cfgs (threshold : Threshold) (a : AlgParam) :
    (switchAlg threshold a).1.cfgs = a.cfgs ∧ (switchAlg threshold a).1.segData = a.segData := by
  unfold switchAlg
  split
  next => exact ⟨rfl, rfl⟩
  next =>
    split
    next => exact ⟨rfl, rfl⟩
    next =>
      split
      next => exact ⟨rfl, rfl⟩
      next => exact ⟨rfl, rfl⟩

theorem runAlg_spec (det : Object .mCamDetectParam) (value : Nat) (threshold : Threshold) {a : AlgParam}
    (refreshed : Refreshed a) :
    (runAlg det value threshold a).1.timeSection = sectionDuring a det value ∧
      (runAlg det value threshold a).1.segData = a.segData ∧ Refreshed (runAlg det value threshold a).1 := by
  obtain ⟨sections, segData, kept⟩ := checkTick_spec det value refreshed
  obtain ⟨cfgs, setUp⟩ := switchAlg_cfgs threshold (algProcessFrameData threshold (checkTick det value a))
  refine ⟨(switchAlg_spec _ _).1.trans sections, setUp.trans segData, ?_⟩
  unfold Refreshed runAlg
  rw [cfgs, setUp]
  exact kept

theorem initAlgDsp_refreshed {det : Object .mCamDetectParam} {cam : Object .mCamParam} {a a' : AlgParam}
    (done : initAlgDsp det cam a = .ok a') : Refreshed a' := by
  obtain ⟨b, read, same⟩ := bind_ok done
  cases same
  rfl

/-- **One step** keeps what the algorithm works with equal to what it was set up with. -/
theorem algStep_refreshed {a : AlgParam} (refreshed : Refreshed a) {act : Action} {o : Outcome} (done : algStep a act = .ok o) :
    Refreshed o.param := by
  cases act with
  | initAlg =>
    cases done
    exact refreshed
  | openAlg det cam =>
    obtain ⟨a', opening, same⟩ := bind_ok done
    cases same
    exact initAlgDsp_refreshed opening
  | resetAlg det cam =>
    obtain ⟨a', opening, same⟩ := bind_ok done
    cases same
    exact initAlgDsp_refreshed opening
  | runAlg det value threshold =>
    obtain ⟨shutter, set, same⟩ := bind_ok done
    cases same
    exact (runAlg_spec det value threshold refreshed).2.2

/-- After a frame the detector sees the current section exactly if it is the one that it was set up
with. -/
theorem runAlg_sees_iff {a : AlgParam} (refreshed : Refreshed a) {det : Object .mCamDetectParam} {value : Nat}
    {threshold : Threshold} {o : Outcome} (done : algStep a (.runAlg det value threshold) = .ok o) :
    SeesSection o.param ↔ sectionDuring a det value = a.segData.uEnvironmentStatus := by
  obtain ⟨shutter, set, same⟩ := bind_ok done
  cases same
  obtain ⟨sections, segData, kept⟩ := runAlg_spec det value threshold refreshed
  show (runAlg det value threshold a).1.cfgs.uEnvironmentStatus = (runAlg det value threshold a).1.timeSection ↔ _
  rw [sections, show (runAlg det value threshold a).1.cfgs.uEnvironmentStatus = _ from kept, segData]
  exact eq_comm

/-! ## Runs -/

/-- **The section in the detector**: in a run it works with the current section after every frame
exactly if in every frame the section, that of the clock at a check point, is the one that the algorithm
was last set up with. -/
theorem environment_status_iff (acts : List Action) :
    ∃ final outs, algRun AlgParam.initial acts = .ok (final, outs) ∧ outs.length = acts.length ∧
      ((∀ (i : Nat) det value threshold (o : Outcome), acts[i]? = some (Action.runAlg det value threshold) → outs[i]? = some o →
          SeesSection o.param) ↔
        ∀ (i : Nat) det value threshold before os, acts[i]? = some (Action.runAlg det value threshold) →
          algRun AlgParam.initial (acts.take i) = .ok (before, os) →
            sectionDuring before det value = before.segData.uEnvironmentStatus) := by
  have each : ∀ before act a, True → AlgInv before a ∧ Refreshed a →
      ∃ o, algStep a act = .ok o ∧ AlgInv (before ++ [act]) o.param ∧ Refreshed o.param := by
    intro before act a _ inv
    obtain ⟨o, done, inv', _⟩ := algStep_spec inv.1 act
    exact ⟨o, done, inv', algStep_refreshed inv.2 done⟩
  obtain ⟨final, outs, run, length, _, met⟩ :=
    serveAll_total each [] (fun act (_ : act ∈ acts) => trivial) ⟨algInv_initial, rfl⟩
  refine ⟨final, outs, run, length, fun sees i det value threshold before os there reached => ?_,
    fun kept i det value threshold o there here => ?_⟩
  · have inside : i < outs.length := length ▸ (List.getElem?_eq_some_iff.mp there).1
    have here : outs[i]? = some outs[i] := List.getElem?_eq_getElem inside
    obtain ⟨before', os', reached', good, done⟩ := met i _ _ there here
    cases reached.symm.trans reached'
    exact (runAlg_sees_iff good.2 done).mp (sees i det value threshold _ there here)
  · obtain ⟨before, os, reached, good, done⟩ := met i _ o there here
    exact (runAlg_sees_iff good.2 done).mpr (kept i det value threshold before os there reached)

theorem algDaytime_valid : algDaytime = algDaytime ∨ algDaytime = algNight := .inl rfl

/-- An algorithm that is opened and run up to the first check point, at night. -/
def openedAtNight : List Action :=
  .openAlg (zeroObj _) (zeroObj _) :: List.replicate 251 (.runAlg (zeroObj _) 0 ⟨algDaytime, algDaytime_valid⟩)

/-- It is opened as at dusk, and the check point finds the night: the detector still works as at dusk. -/
theorem openedAtNight_stale :
    openedAtNight[251]? = some (.runAlg (zeroObj _) 0 ⟨algDaytime, algDaytime_valid⟩) ∧
      (((algRun AlgParam.initial openedAtNight).toOption.bind fun r => r.2[251]?).map fun o =>
        (o.param.timeSection, o.param.cfgs.uEnvironmentStatus)) = some (night, dusk) ∧
      night ≠ dusk := by
  refine ⟨rfl, by decide +kernel, by decide⟩

end VideoDetector.Alg
