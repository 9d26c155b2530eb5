import VideoDetector.Alg.Targets
import VideoDetector.Lib.Sweep

/-!
# The loops over the tables (`get_target` in `fvd-new/alg-mutilthread/m_arith.cpp`)

After the detections `get_target` goes over both tables. An entry is removed by moving up the entries behind it and
stepping the index back, and a candidate that becomes a target is written behind the targets on the way. The loops on the
arrays do what `getTarget` does with lists.
-/

namespace VideoDetector.Alg
set_option autoImplicit false
open Lib

/-- How the loops fail: there is no room for another target. -/
inductive LoopFault where
  | targets
  | unfinished
  deriving DecidableEq, Repr

/-- The arrays `targets` and `candidate_targets` with their sizes, and `target_id`. -/
structure TableArrays where
  targets : Table Target
  candidates : Table Target
  targetId : Int

/-- The body of the loop over the targets. -/
def targetBody (region : Region) (_ : Unit) (t : Target) : Except LoopFault (Unit × Target × Bool) :=
  let t := { t with vehicle := t.vehicleNext }
  if leaves region t.vehicle then .ok ((), t, false)
  else if 5000 < t.continueNum then .ok ((), t, false)
  else .ok ((), predict t, true)

/-- The body of the loop over the candidates, with the targets and `target_id`. -/
def candidateBody (region : Region) (s : Table Target × Int) (c : Target) :
    Except LoopFault ((Table Target × Int) × Target × Bool) :=
  let c := { c with vehicle := c.vehicleNext }
  if leaves region c.vehicle then .ok (s, c, false)
  else
    let c := predict c
    if promotes region c then
      if s.1.size < tableMax then .ok ((s.1.push { c with vehicleId := s.2 }, nextId s.2), c, false) else .error .targets
    else .ok (s, c, true)

/-- The two loops at the end of `get_target`. -/
def updateTables (region : Region) (s : TableArrays) : Except LoopFault TableArrays := do
  let (_, targets) ← sweep (targetBody region) .unfinished (s.targets.size + 1) () s.targets 0
  let ((targets, targetId), candidates) ←
    sweep (candidateBody region) .unfinished (s.candidates.size + 1) (targets, s.targetId) s.candidates 0
  return ⟨targets, candidates, targetId⟩

/-! ## What is left -/

/-- The entry a frame later. -/
def advance (t : Target) : Target := predict { t with vehicle := t.vehicleNext }

/-- The new box of the target is inside the region, and the target is not too old. -/
def remains (region : Region) (t : Target) : Bool := !leaves region t.vehicleNext && decide (t.continueNum ≤ 5000)

/-- The candidate was detected twice and its new box is above the line. -/
def detectedAbove (region : Region) (c : Target) : Bool :=
  decide (2 ≤ c.numDetected) && decide (c.vehicleNext.y + c.vehicleNext.height < region.detectPosition + 10)

/-- The candidate becomes a target. -/
def rises (region : Region) (c : Target) : Bool := !leaves region c.vehicleNext && detectedAbove region c

/-- The candidate stays one. -/
def waits (region : Region) (c : Target) : Bool := !leaves region c.vehicleNext && !detectedAbove region c

theorem updateTarget_eq (region : Region) (t : Target) :
    updateTarget region t = if remains region t then some (advance t) else none := by
  unfold updateTarget remains
  by_cases gone : leaves region t.vehicleNext = true
  · simp [gone]
  · by_cases old : 5000 < t.continueNum
    · simp [gone, old]
    · simp [gone, old, advance, Int.not_lt.mp old]

theorem updateCandidate_eq (region : Region) (c : Target) :
    updateCandidate region c = if leaves region c.vehicleNext then none else some (advance c) := rfl

theorem filterMap_remains (region : Region) (ts : List Target) :
    ts.filterMap (updateTarget region) = (ts.filter (remains region)).map advance := by
  induction ts with
  | nil => rfl
  | cons t ts ih =>
    by_cases here : remains region t = true
    · have some : updateTarget region t = .some (advance t) := by rw [updateTarget_eq, if_pos here]
      rw [List.filterMap_cons_some some, List.filter_cons_of_pos here, List.map_cons, ih]
    · have none : updateTarget region t = .none := by rw [updateTarget_eq, if_neg here]
      rw [List.filterMap_cons_none none, List.filter_cons_of_neg here, ih]

/-- What is kept of the candidates by a test of their new state. -/
theorem filter_updateCandidate (region : Region) (test keep : Target → Bool)
    (same : ∀ c, keep c = (!leaves region c.vehicleNext && test (advance c))) (cs : List Target) :
    (cs.filterMap (updateCandidate region)).filter test = (cs.filter keep).map advance := by
  induction cs with
  | nil => rfl
  | cons c cs ih =>
    have kept := same c
    by_cases gone : leaves region c.vehicleNext = true
    · have none : updateCandidate region c = .none := by rw [updateCandidate_eq, if_pos gone]
      rw [List.filterMap_cons_none none, List.filter_cons_of_neg (by simp [kept, gone]), ih]
    · have some : updateCandidate region c = .some (advance c) := by rw [updateCandidate_eq, if_neg gone]
      rw [List.filterMap_cons_some some]
      by_cases passes : test (advance c) = true
      · rw [List.filter_cons_of_pos passes, List.filter_cons_of_pos (by simp [kept, gone, passes]), List.map_cons, ih]
      · rw [List.filter_cons_of_neg passes, List.filter_cons_of_neg (by simp [kept, passes]), ih]

theorem promoted_eq (region : Region) (cs : List Target) : promoted region cs = (cs.filter (rises region)).map advance :=
  filter_updateCandidate region _ _ (fun _ => rfl) cs

theorem waiting_eq (region : Region) (cs : List Target) : waiting region cs = (cs.filter (waits region)).map advance :=
  filter_updateCandidate region _ _ (fun _ => rfl) cs

/-! ## The loops -/

/-- The loop over the targets leaves those that remain. -/
theorem targets_passOver (region : Region) (ts kept : List Target) :
    ts.foldlM (passOver (targetBody region)) ((), kept) = .ok ((), kept ++ ts.filterMap (updateTarget region)) := by
  induction ts generalizing kept with
  | nil => rw [List.filterMap_nil, List.append_nil]; rfl
  | cons t ts ih =>
    by_cases gone : leaves region t.vehicleNext = true
    · have step : passOver (targetBody region) ((), kept) t = .ok ((), kept) := by
        simp only [passOver, targetBody, if_pos gone, ok_bind]
        rfl
      have none : updateTarget region t = .none := by rw [updateTarget, if_pos gone]
      rw [foldlM_cons_ok step, ih, List.filterMap_cons_none none]
    · by_cases old : 5000 < t.continueNum
      · have step : passOver (targetBody region) ((), kept) t = .ok ((), kept) := by
          simp only [passOver, targetBody, if_neg gone, if_pos old, ok_bind]
          rfl
        have none : updateTarget region t = .none := by rw [updateTarget, if_neg gone, if_pos old]
        rw [foldlM_cons_ok step, ih, List.filterMap_cons_none none]
      · have step : passOver (targetBody region) ((), kept) t = .ok ((), kept ++ [advance t]) := by
          simp only [passOver, targetBody, if_neg gone, if_neg old, ok_bind]
          rfl
        have some : updateTarget region t = .some (advance t) := by rw [updateTarget, if_neg gone, if_neg old]; rfl
        rw [foldlM_cons_ok step, ih, List.filterMap_cons_some some, List.append_assoc, List.singleton_append]

section
variable {region : Region} {c : Target} (T : Table Target) (id : Int) (kept : List Target)

/-- A candidate outside the region is removed. -/
theorem candidate_gone (gone : leaves region c.vehicleNext = true) :
    passOver (candidateBody region) ((T, id), kept) c = .ok ((T, id), kept) := by
  simp only [passOver, candidateBody, if_pos gone, ok_bind]
  rfl

/-- A candidate that was seen often enough above the line becomes a target. -/
theorem candidate_rises (stays : ¬leaves region c.vehicleNext = true) (above : detectedAbove region c = true)
    (inside : T.size < tableMax) :
    passOver (candidateBody region) ((T, id), kept) c =
      .ok ((T.push { advance c with vehicleId := id }, nextId id), kept) := by
  have promoted : promotes region (predict { c with vehicle := c.vehicleNext }) = true := above
  simp only [passOver, candidateBody, if_neg stays, if_pos promoted, if_pos inside, ok_bind]
  rfl

/-- Any other candidate stays. -/
theorem candidate_waits (stays : ¬leaves region c.vehicleNext = true) (below : ¬detectedAbove region c = true) :
    passOver (candidateBody region) ((T, id), kept) c = .ok ((T, id), kept ++ [advance c]) := by
  have promoted : ¬ promotes region (predict { c with vehicle := c.vehicleNext }) = true := below
  simp only [passOver, candidateBody, if_neg stays, if_neg promoted, ok_bind]
  rfl

end

/-- The loop over the candidates leaves those that wait, and writes the others behind the targets. -/
theorem candidates_passOver (region : Region) (cs kept : List Target) (T : Table Target) (id : Int)
    (room : T.size + (cs.filter (rises region)).length ≤ tableMax) :
    ∃ T', cs.foldlM (passOver (candidateBody region)) ((T, id), kept) =
        .ok ((T', nextId^[(cs.filter (rises region)).length] id), kept ++ (cs.filter (waits region)).map advance) ∧
      T'.live = T.live ++ numbered id ((cs.filter (rises region)).map advance) := by
  induction cs generalizing T id kept with
  | nil => exact ⟨T, by simp only [List.filter_nil, List.map_nil, List.append_nil]; rfl, by simp [numbered]⟩
  | cons c cs ih =>
    by_cases gone : leaves region c.vehicleNext = true
    · have low : rises region c = false := by simp [rises, gone]
      have out : waits region c = false := by simp [waits, gone]
      rw [List.filter_cons_of_neg (by simp [low])] at room ⊢
      rw [List.filter_cons_of_neg (by simp [out]), foldlM_cons_ok (candidate_gone T id kept gone)]
      exact ih kept T id room
    · by_cases above : detectedAbove region c = true
      · have high : rises region c = true := by simp [rises, gone, above]
        have out : waits region c = false := by simp [waits, above]
        rw [List.filter_cons_of_pos high] at room ⊢
        rw [List.length_cons] at room ⊢
        have inside : T.size < tableMax := by omega
        have room' : (T.push { advance c with vehicleId := id }).size + (cs.filter (rises region)).length ≤ tableMax := by
          show T.size + 1 + _ ≤ _
          omega
        obtain ⟨T', run, live⟩ := ih kept _ (nextId id) room'
        refine ⟨T', ?_, ?_⟩
        · rw [List.filter_cons_of_neg (by simp [out]), foldlM_cons_ok (candidate_rises T id kept gone above inside), run,
            Function.iterate_succ_apply]
        · rw [live, Table.live_push, List.append_assoc, List.singleton_append, List.map_cons, numbered]
      · have low : rises region c = false := by simp [rises, above]
        have stays : waits region c = true := by simp [waits, gone, above]
        rw [List.filter_cons_of_neg (by simp [low])] at room ⊢
        obtain ⟨T', run, live⟩ := ih (kept ++ [advance c]) T id room
        refine ⟨T', ?_, live⟩
        rw [List.filter_cons_of_pos stays, foldlM_cons_ok (candidate_waits T id kept gone above), run, List.map_cons,
          List.append_assoc, List.singleton_append]

/-- What the loops leave of the tables. -/
structure Updated (region : Region) (s s' : TableArrays) : Prop where
  targets : s'.targets.live = (s.targets.live.filter (remains region)).map advance ++
    numbered s.targetId ((s.candidates.live.filter (rises region)).map advance)
  candidates : s'.candidates.live = (s.candidates.live.filter (waits region)).map advance
  targetId : s'.targetId = nextId^[(s.candidates.live.filter (rises region)).length] s.targetId

/-- There is room for the candidates that become targets. -/
def PromotionRoom (region : Region) (s : TableArrays) : Prop :=
  (s.targets.live.filter (remains region)).length + (s.candidates.live.filter (rises region)).length ≤ tableMax

theorem updateTables_ok {region : Region} {s : TableArrays} (room : PromotionRoom region s) :
    ∃ s', updateTables region s = .ok s' ∧ Updated region s s' := by
  have first := targets_passOver region s.targets.live []
  rw [List.nil_append, filterMap_remains] at first
  obtain ⟨targets, run, live⟩ := sweep_all LoopFault.unfinished first
  have size : targets.size = (s.targets.live.filter (remains region)).length := by
    rw [← Table.live_length, live, List.length_map]
  have fits : targets.size + (s.candidates.live.filter (rises region)).length ≤ tableMax := size ▸ room
  obtain ⟨targets', second, live'⟩ := candidates_passOver region s.candidates.live [] targets s.targetId fits
  obtain ⟨candidates, run', left⟩ := sweep_all LoopFault.unfinished second
  refine ⟨⟨targets', candidates, _⟩, ?_, ?_, left, rfl⟩
  · rw [updateTables, run]
    simp only [ok_bind, run']
    rfl
  · rw [live', live]

/-- The loops on the arrays do what `getTarget` does with the lists of entries. -/
theorem updateTables_refines {region : Region} {s : TableArrays} (room : PromotionRoom region s) :
    ∃ s', updateTables region s = .ok s' ∧
      updateCandidates region s.candidates.live ⟨s.targets.live.filterMap (updateTarget region), [], s.targetId⟩ =
        .ok ⟨s'.targets.live, s'.candidates.live, s'.targetId⟩ := by
  obtain ⟨s', run, targets, candidates, targetId⟩ := updateTables_ok room
  refine ⟨s', run, ?_⟩
  unfold PromotionRoom at room
  rw [updateCandidates_eq, if_pos, targets, candidates, targetId, filterMap_remains, promoted_eq, waiting_eq]
  · rw [List.nil_append, List.length_map]
  · rw [filterMap_remains, promoted_eq, List.length_map, List.length_map]
    exact room
  · rw [filterMap_remains, List.length_map]
    omega

/-- **The tables are filtered and the candidates promoted.** The targets left are those that remain, in order, a frame
later, and behind them the candidates that rise, in order, with the ids that follow one another up to 1000 and go on
with 0; the candidates left are those that wait, in order. -/
theorem tables_filtered (region : Region) (s : TableArrays)
    (room : (s.targets.live.filter (remains region)).length + (s.candidates.live.filter (rises region)).length ≤ tableMax) :
    ∃ s', updateTables region s = .ok s' ∧
      s'.targets.live = (s.targets.live.filter (remains region)).map advance ++
        numbered s.targetId ((s.candidates.live.filter (rises region)).map advance) ∧
      s'.candidates.live = (s.candidates.live.filter (waits region)).map advance := by
  obtain ⟨s', run, updated⟩ := updateTables_ok room
  exact ⟨s', run, updated.targets, updated.candidates⟩

/-- A region with a line that all boxes inside are above. -/
def openRegion : Region := ⟨⟨0, 0, 320, 240⟩, 240⟩

/-- Two vehicles beside one another that were detected twice. -/
def twoSeen : TableArrays where
  targets := ⟨fun _ => initializeTarget, 0⟩
  candidates := ⟨fun k => { newTarget ⟨32 * k, 40, 32, 40⟩ with numDetected := 2 }, 2⟩
  targetId := 1000

theorem twoSeen_filtered :
    ∃ s', updateTables openRegion twoSeen = .ok s' ∧ s'.targets.live.map Target.vehicleId = [1000, 0] ∧
      s'.candidates.live = [] := by
  obtain ⟨s', run, targets, candidates⟩ := tables_filtered openRegion twoSeen (by decide)
  exact ⟨s', run, by rw [targets]; rfl, by rw [candidates]; rfl⟩

/-- The candidates with ids that follow one another. -/
def consecutive (id : Int) (cs : List Target) : List Target := cs.mapIdx fun k c => { c with vehicleId := id + k }

/-- The id after 1000 is 0. -/
theorem twoSeen_not_consecutive :
    (twoSeen.targets.live.filter (remains openRegion)).length + (twoSeen.candidates.live.filter (rises openRegion)).length ≤
        tableMax ∧
      ¬ ∃ s', updateTables openRegion twoSeen = .ok s' ∧
        s'.targets.live = (twoSeen.targets.live.filter (remains openRegion)).map advance ++
          consecutive twoSeen.targetId ((twoSeen.candidates.live.filter (rises openRegion)).map advance) := by
  refine ⟨by decide, ?_⟩
  obtain ⟨s, run, updated⟩ := updateTables_ok (show PromotionRoom openRegion twoSeen by unfold PromotionRoom; decide)
  rw [ok_iff run, updated.targets]
  intro same
  exact absurd (congrArg (List.map Target.vehicleId) same) (by decide)

end VideoDetector.Alg
