import VideoDetector.Lib.Recent
import VideoDetector.Lib.Runs
import VideoDetector.Lib.Words

/-!
# Twilight (`fvd-new/alg-mutilthread/m_arith.cpp`)

At dusk and dawn `ArithProc` decides itself when night begins or ends. It counts the vehicles of the first
lane and those with lights, and every 1500 frames records whether nearly all had lights; the last five
verdicts vote. What the lane and the test for lights say in a frame are inputs. The quotient of the two
counts, a float in the source, is compared with 0.9 exactly: no quotient of 16-bit numbers is so close to
0.9 that the rounding matters.
-/

namespace VideoDetector.Alg
set_option autoImplicit false
open Lib

/-- What `ArithProc` finds in a frame: a vehicle came to the first lane (`calctimes` is set), `Existlight`,
and the totals of the lane. -/
structure LaneView where
  started : Bool
  existlight : Bool
  uDetectInSum : Nat
  uDetectOutSum : Nat
  deriving DecidableEq, Repr

/-- The fields of `ALGCFGS` for twilight. The last cell of `exlight` is the number of cells in use. -/
structure Twilight where
  uEnvironmentStatus : Nat
  laneAmount : Nat
  gThisFrameTime : Nat
  calctimes : Nat
  carin : Nat
  carout : Nat
  carcount : Nat
  existtimes : Nat
  exlight : Nat → Nat
  bAuto : Nat
  bNight : Bool

namespace Twilight

/-- `ArithInit` with a configuration: `CfgStructParse` sets the mode for each lane. -/
def arithInit (s : Twilight) (uEnvironment uEnvironmentStatus laneAmount : Nat) : Twilight :=
  { s with
    uEnvironmentStatus := uEnvironmentStatus
    laneAmount := laneAmount
    gThisFrameTime := 0
    exlight := fun _ => 0
    bAuto := uEnvironment
    bNight := if laneAmount = 0 then s.bNight else uEnvironment == 2 }

/-- A vehicle with lights is seen. -/
def seeLight (s : Twilight) (v : LaneView) : Twilight :=
  if v.existlight && v.uDetectInSum != s.carin then
    { s with existtimes := (s.existtimes + 1) % 65536, carin := v.uDetectInSum % 65536 }
  else s

/-- A vehicle has left the lane. -/
def seeExit (s : Twilight) (v : LaneView) : Twilight :=
  if v.uDetectOutSum != s.carout then
    { s with
      carout := v.uDetectOutSum % 65536
      carcount := (s.carcount + 1) % 65536
      calctimes := 0
      carin := v.uDetectInSum % 65536 }
  else s

def countLights (s : Twilight) (v : LaneView) : Twilight := if s.calctimes ≠ 0 then seeExit (seeLight s v) v else s

/-- A window ends and is recorded: at dusk only if vehicles were counted. -/
def records (s : Twilight) : Bool :=
  s.gThisFrameTime % 1500 == 1 && (s.uEnvironmentStatus == 1 && s.carcount != 0 || s.uEnvironmentStatus == 3)

/-- More than nine of ten vehicles had lights. -/
def verdict (s : Twilight) : Nat := if s.carcount ≠ 0 ∧ 9 * s.carcount < 10 * s.existtimes then 1 else 0

/-- The verdict goes to the first free cell, or the others move down. -/
def keepVerdict (exlight : Nat → Nat) (flag : Nat) : Nat → Nat :=
  if exlight 5 = 5 then fun i => if i < 4 then exlight (i + 1) else if i = 4 then flag else exlight i
  else Function.update (Function.update exlight (exlight 5) flag) 5 ((exlight 5 + 1) % 65536)

def recordWindow (s : Twilight) : Twilight :=
  if s.records then { s with exlight := keepVerdict s.exlight s.verdict, carcount := 0, existtimes := 0 } else s

/-- How many of the five verdicts are set. -/
def votes (exlight : Nat → Nat) : Nat := (List.range 5).countP fun i => exlight i != 0

def vote (s : Twilight) : Twilight :=
  if s.gThisFrameTime % 1500 = 1 ∧ 3 ≤ s.exlight 5 then
    if 3 ≤ votes s.exlight ∧ s.bNight = false then { s with bAuto := 2, bNight := true }
    else if votes s.exlight < 3 ∧ s.bNight = true then { s with bAuto := 1, bNight := false }
    else s
  else s

/-- The mode is still to change: dusk by day or dawn by night. -/
def undecided (s : Twilight) : Bool :=
  (s.uEnvironmentStatus == 1 && s.bAuto == 1 || s.uEnvironmentStatus == 3 && s.bAuto == 2) && s.laneAmount != 0

/-- The state when the lanes are done. -/
def afterLanes (s : Twilight) (v : LaneView) : Twilight :=
  { s with gThisFrameTime := (s.gThisFrameTime + 1) % 4294967296, calctimes := if v.started then 1 else s.calctimes }

/-- `ArithProc`. -/
def arithProc (s : Twilight) (v : LaneView) : Twilight :=
  let s := s.afterLanes v
  if s.undecided then vote (recordWindow (countLights s v))
  else if s.uEnvironmentStatus = 2 then { s with bAuto := 2, bNight := true }
  else if s.uEnvironmentStatus = 4 then { s with bAuto := 1, bNight := false }
  else s

/-! ## Windows -/

/-- The verdict that a frame records, if it does. -/
def recorded (s : Twilight) (v : LaneView) : List Nat :=
  let s := s.afterLanes v
  if s.undecided && (countLights s v).records then [(countLights s v).verdict] else []

/-- A frame beside the list of all verdicts. -/
def watch (w : Twilight × List Nat) (v : LaneView) : Twilight × List Nat := (w.1.arithProc v, w.2 ++ w.1.recorded v)

/-- The last five of the verdicts. -/
def lastFive (windows : List Nat) : List Nat := windows.drop (windows.length - 5)

/-- The cells hold the last verdicts, and a cell that is not in use is zero. -/
structure Filed (exlight : Nat → Nat) (windows : List Nat) : Prop where
  recent : Recent 5 exlight (exlight 5) windows
  unused : ∀ i, exlight 5 ≤ i → i < 5 → exlight i = 0

theorem Filed.few {exlight : Nat → Nat} {windows : List Nat} (filed : Filed exlight windows) : exlight 5 ≤ 5 := by
  rw [filed.recent.used]
  exact Nat.min_le_right _ _

theorem filed_keepVerdict {exlight : Nat → Nat} {windows : List Nat} (filed : Filed exlight windows) (flag : Nat) :
    Filed (keepVerdict exlight flag) (windows ++ [flag]) := by
  obtain ⟨recent, unused⟩ := filed
  have few := Filed.few ⟨recent, unused⟩
  unfold keepVerdict
  by_cases full : exlight 5 = 5
  · rw [if_pos full]
    rw [full] at recent
    have same : ∀ i < 5, (if i < 4 then exlight (i + 1) else if i = 4 then flag else exlight i) =
        if i < 4 then exlight (i + 1) else flag := by
      intro i inside
      by_cases early : i < 4
      · rw [if_pos early, if_pos early]
      · rw [if_neg early, if_neg early, if_pos (by omega)]
    have cells := (recent.shift flag).same same
    refine ⟨?_, fun i above inside => ?_⟩
    · show Recent 5 _ (exlight 5) _
      rw [full]
      exact cells
    · have above' : exlight 5 ≤ i := above
      omega
  · rw [if_neg full]
    have count : (exlight 5 + 1) % 65536 = exlight 5 + 1 := Nat.mod_eq_of_lt (by omega)
    rw [count]
    refine ⟨?_, fun i above inside => ?_⟩
    · rw [Function.update_self]
      refine (recent.push (by omega) flag).same fun i inside => ?_
      exact Function.update_of_ne (by omega) _ _
    · rw [Function.update_self] at above
      rw [Function.update_of_ne (by omega), Function.update_of_ne (by omega)]
      exact unused i (by omega) inside

/-- The vote is over the last five verdicts. -/
theorem votes_eq {exlight : Nat → Nat} {windows : List Nat} (filed : Filed exlight windows) :
    votes exlight = (lastFive windows).countP (· != 0) := by
  have all : List.range 5 = List.range (exlight 5) ++ (List.range (5 - exlight 5)).map (exlight 5 + ·) := by
    rw [← List.range_add, Nat.add_sub_cancel' filed.few]
  have rest : ((List.range (5 - exlight 5)).map (exlight 5 + ·)).countP (fun i => exlight i != 0) = 0 := by
    rw [List.countP_eq_zero]
    intro i member
    obtain ⟨k, inside, rfl⟩ := List.mem_map.mp member
    rw [List.mem_range] at inside
    rw [filed.unused _ (by omega) (by omega)]
    decide
  unfold votes
  rw [all, List.countP_append, rest, Nat.add_zero, lastFive, ← filed.recent.values, List.countP_map]
  rfl

/-! ## One frame -/

theorem countLights_same (s : Twilight) (v : LaneView) :
    (countLights s v).uEnvironmentStatus = s.uEnvironmentStatus ∧ (countLights s v).exlight = s.exlight ∧
      (countLights s v).bAuto = s.bAuto ∧ (countLights s v).bNight = s.bNight := by
  unfold countLights
  split
  next =>
    unfold seeExit seeLight
    split <;> split <;> exact ⟨rfl, rfl, rfl, rfl⟩
  next => exact ⟨rfl, rfl, rfl, rfl⟩

/-- How a frame sets the mode: it stays, the vote changes it, or the status demands it. -/
inductive Sets (s t : Twilight) : Prop where
  | same (auto : t.bAuto = s.bAuto) (night : t.bNight = s.bNight)
  | toNight (undecided : s.undecided = true) (time : t.gThisFrameTime % 1500 = 1) (enough : 3 ≤ t.exlight 5)
      (votes : 3 ≤ votes t.exlight) (auto : t.bAuto = 2) (night : t.bNight = true)
  | toDay (undecided : s.undecided = true) (time : t.gThisFrameTime % 1500 = 1) (enough : 3 ≤ t.exlight 5)
      (votes : votes t.exlight < 3) (auto : t.bAuto = 1) (night : t.bNight = false)
  | atNight (status : s.uEnvironmentStatus = 2) (auto : t.bAuto = 2) (night : t.bNight = true)
  | byDay (status : s.uEnvironmentStatus = 4) (auto : t.bAuto = 1) (night : t.bNight = false)

/-- **What a frame does**: the status stays, at most one verdict is filed, and the mode is set. -/
structure Proceeds (s t : Twilight) (new : List Nat) : Prop where
  status : t.uEnvironmentStatus = s.uEnvironmentStatus
  filed : new = [] ∧ t.exlight = s.exlight ∨ ∃ flag, new = [flag] ∧ t.exlight = keepVerdict s.exlight flag
  sets : Sets s t

theorem vote_sets {s u : Twilight} (undecided : s.undecided = true) (auto : u.bAuto = s.bAuto) (night : u.bNight = s.bNight) :
    Sets s (vote u) := by
  unfold vote
  split
  next ends =>
    split
    next more => exact .toNight undecided ends.1 ends.2 more.1 rfl rfl
    next =>
      split
      next less => exact .toDay undecided ends.1 ends.2 less.1 rfl rfl
      next => exact .same auto night
  next => exact .same auto night

theorem vote_same (s : Twilight) :
    (vote s).uEnvironmentStatus = s.uEnvironmentStatus ∧ (vote s).exlight = s.exlight := by
  unfold vote
  split
  next =>
    split
    next => exact ⟨rfl, rfl⟩
    next =>
      split
      next => exact ⟨rfl, rfl⟩
      next => exact ⟨rfl, rfl⟩
  next => exact ⟨rfl, rfl⟩

/-- The block that records and votes. -/
theorem decide_proceeds {s : Twilight} {v : LaneView} (undecided : (s.afterLanes v).undecided = true) :
    Proceeds s (vote (recordWindow (countLights (s.afterLanes v) v))) (s.recorded v) := by
  obtain ⟨status, exlight, auto, night⟩ := countLights_same (s.afterLanes v) v
  obtain ⟨status', exlight'⟩ := vote_same (recordWindow (countLights (s.afterLanes v) v))
  by_cases now : (countLights (s.afterLanes v) v).records = true
  · have new : s.recorded v = [(countLights (s.afterLanes v) v).verdict] := by simp [recorded, undecided, now]
    rw [recordWindow, if_pos now] at status' exlight'
    rw [recordWindow, if_pos now, new]
    refine ⟨status'.trans status, .inr ⟨_, rfl, exlight'.trans ?_⟩, vote_sets undecided auto night⟩
    rw [exlight]
    rfl
  · have none : s.recorded v = [] := by simp [recorded, now]
    rw [recordWindow, if_neg now] at status' exlight'
    rw [recordWindow, if_neg now, none]
    exact ⟨status'.trans status, .inl ⟨rfl, exlight'.trans exlight⟩, vote_sets undecided auto night⟩

theorem arithProc_proceeds (s : Twilight) (v : LaneView) : Proceeds s (s.arithProc v) (s.recorded v) := by
  unfold arithProc
  by_cases undecided : (s.afterLanes v).undecided = true
  · simp only [if_pos undecided]
    exact decide_proceeds undecided
  · have none : s.recorded v = [] := by simp [recorded, undecided]
    simp only [if_neg undecided]
    rw [none]
    split
    next status => exact ⟨rfl, .inl ⟨rfl, rfl⟩, .atNight status rfl rfl⟩
    next =>
      split
      next status => exact ⟨rfl, .inl ⟨rfl, rfl⟩, .byDay status rfl rfl⟩
      next => exact ⟨rfl, .inl ⟨rfl, rfl⟩, .same rfl rfl⟩

/-- A frame in which the mode is undecided. -/
theorem undecided_cases {s : Twilight} (undecided : s.undecided = true) :
    s.uEnvironmentStatus = 1 ∧ s.bAuto = 1 ∨ s.uEnvironmentStatus = 3 ∧ s.bAuto = 2 := by
  unfold Twilight.undecided at undecided
  rw [Bool.and_eq_true] at undecided
  simpa using undecided.1

/-! ## Runs -/

/-- What holds of twilight in every state. -/
structure Kept (status : Nat) (w : Twilight × List Nat) : Prop where
  status : w.1.uEnvironmentStatus = status
  filed : Filed w.1.exlight w.2
  mode : w.1.bNight = true ↔ w.1.bAuto = 2

/-- What a frame does in twilight with a given status: the cells hold the last verdicts, day and night are
as `bAuto` says, the mode changes in one direction only and only by the vote. -/
structure OneWay (status : Nat) (w w' : Twilight × List Nat) : Prop where
  few : w'.1.exlight 5 ≤ 5
  verdicts : (List.range (w'.1.exlight 5)).map w'.1.exlight = lastFive w'.2
  mode : w'.1.bNight = true ↔ w'.1.bAuto = 2
  dusk : status = 1 → w.1.bAuto = 2 → w'.1.bAuto = 2
  dawn : status = 3 → w.1.bAuto = 1 → w'.1.bAuto = 1
  voted : status = 1 ∨ status = 3 → w'.1.bAuto ≠ w.1.bAuto → w'.1.gThisFrameTime % 1500 = 1 ∧ 3 ≤ w'.2.length ∧
    (status = 1 → 3 ≤ (lastFive w'.2).countP (· != 0)) ∧ (status = 3 → (lastFive w'.2).countP (· != 0) < 3)

theorem kept_init (s : Twilight) (uEnvironment status : Nat) {laneAmount : Nat} (lanes : 0 < laneAmount) :
    Kept status (s.arithInit uEnvironment status laneAmount, []) := by
  refine ⟨rfl, ⟨Recent.nil 5 _, fun _ _ _ => rfl⟩, ?_⟩
  show (if laneAmount = 0 then s.bNight else uEnvironment == 2) = true ↔ uEnvironment = 2
  rw [if_neg (by omega), beq_iff_eq]

/-- What holds in every state is kept. -/
theorem watch_kept {status : Nat} {w : Twilight × List Nat} (kept : Kept status w) (v : LaneView) : Kept status (watch w v) := by
  have proceeds := arithProc_proceeds w.1 v
  refine ⟨proceeds.status.trans kept.status, ?_, ?_⟩
  · show Filed (w.1.arithProc v).exlight (w.2 ++ w.1.recorded v)
    rcases proceeds.filed with ⟨none, same⟩ | ⟨flag, one, more⟩
    · rw [none, same, List.append_nil]
      exact kept.filed
    · rw [one, more]
      exact filed_keepVerdict kept.filed flag
  · show (w.1.arithProc v).bNight = true ↔ (w.1.arithProc v).bAuto = 2
    cases proceeds.sets with
    | same auto night => rw [auto, night, kept.mode]
    | toNight _ _ _ _ auto night => simp [auto, night]
    | toDay _ _ _ _ auto night => simp [auto, night]
    | atNight _ auto night => simp [auto, night]
    | byDay _ auto night => simp [auto, night]

/-- In twilight the mode is changed by the vote. -/
theorem watch_voted {status : Nat} {w : Twilight × List Nat} (kept : Kept status w) (v : LaneView) (twilight : status = 1 ∨ status = 3)
    (changes : (watch w v).1.bAuto ≠ w.1.bAuto) :
    (watch w v).1.gThisFrameTime % 1500 = 1 ∧ 3 ≤ (watch w v).2.length ∧
      (status = 1 → 3 ≤ (lastFive (watch w v).2).countP (· != 0)) ∧ (status = 3 → (lastFive (watch w v).2).countP (· != 0) < 3) := by
  change (w.1.arithProc v).bAuto ≠ w.1.bAuto at changes
  have filed := (watch_kept kept v).filed
  have counts := votes_eq filed
  have status := kept.status
  have windows : 3 ≤ (watch w v).1.exlight 5 → 3 ≤ (watch w v).2.length := by
    intro enough
    rw [filed.recent.used] at enough
    exact Nat.le_trans enough (Nat.min_le_left _ _)
  cases (arithProc_proceeds w.1 v).sets with
  | same auto _ => exact absurd auto changes
  | toNight undecided time enough votes auto _ =>
    have cases := undecided_cases undecided
    exact ⟨time, windows enough, fun _ => counts ▸ votes, fun dawn => by omega⟩
  | toDay undecided time enough votes auto _ =>
    have cases := undecided_cases undecided
    exact ⟨time, windows enough, fun dusk => by omega, fun _ => counts ▸ votes⟩
  | atNight demands _ _ => omega
  | byDay demands _ _ => omega

/-- **One frame** changes the mode in one direction. -/
theorem watch_oneWay {status : Nat} {w : Twilight × List Nat} (kept : Kept status w) (v : LaneView) :
    OneWay status w (watch w v) := by
  have after := watch_kept kept v
  have before := kept.status
  refine ⟨after.filed.few, after.filed.recent.values, after.mode, ?_, ?_, watch_voted kept v⟩
  · intro dusk night
    cases (arithProc_proceeds w.1 v).sets with
    | same auto _ => exact auto.trans night
    | toNight _ _ _ _ auto _ => exact auto
    | toDay undecided _ _ _ _ _ =>
      have cases := undecided_cases undecided
      omega
    | atNight _ auto _ => exact auto
    | byDay status _ _ => omega
  · intro dawn day
    cases (arithProc_proceeds w.1 v).sets with
    | same auto _ => exact auto.trans day
    | toNight undecided _ _ _ _ _ =>
      have cases := undecided_cases undecided
      omega
    | toDay _ _ _ _ auto _ => exact auto
    | atNight status _ _ => omega
    | byDay _ auto _ => exact auto

/-- How often the mode changes in a run. -/
def changes : Twilight → List LaneView → Nat
  | _, [] => 0
  | s, v :: vs => (if (s.arithProc v).bAuto ≠ s.bAuto then 1 else 0) + changes (s.arithProc v) vs

/-- The mode does not change any more. -/
structure Settled (s : Twilight) : Prop where
  dusk : s.uEnvironmentStatus = 1 → s.bAuto ≠ 1
  dawn : s.uEnvironmentStatus = 3 → s.bAuto ≠ 2
  night : s.uEnvironmentStatus = 2 → s.bAuto = 2
  day : s.uEnvironmentStatus = 4 → s.bAuto = 1

theorem settled_same {s : Twilight} (settled : Settled s) (v : LaneView) : (s.arithProc v).bAuto = s.bAuto := by
  obtain ⟨dusk, dawn, night, day⟩ := settled
  cases (arithProc_proceeds s v).sets with
  | same auto _ => exact auto
  | toNight undecided _ _ _ _ _ =>
    have := undecided_cases undecided
    omega
  | toDay undecided _ _ _ _ _ =>
    have := undecided_cases undecided
    omega
  | atNight status auto _ => exact auto.trans (night status).symm
  | byDay status auto _ => exact auto.trans (day status).symm

/-- A frame that changes the mode settles it. -/
theorem settled_of_change {s : Twilight} {v : LaneView} (change : (s.arithProc v).bAuto ≠ s.bAuto) : Settled (s.arithProc v) := by
  have proceeds := arithProc_proceeds s v
  have status := proceeds.status
  cases proceeds.sets with
  | same auto _ => exact absurd auto change
  | toNight undecided _ _ _ auto _ =>
    have := undecided_cases undecided
    constructor <;> omega
  | toDay undecided _ _ _ auto _ =>
    have := undecided_cases undecided
    constructor <;> omega
  | atNight demands auto _ => constructor <;> omega
  | byDay demands auto _ => constructor <;> omega

theorem settled_keeps {s : Twilight} (settled : Settled s) (v : LaneView) : Settled (s.arithProc v) := by
  obtain ⟨dusk, dawn, night, day⟩ := settled
  have status := (arithProc_proceeds s v).status
  have auto := settled_same ⟨dusk, dawn, night, day⟩ v
  constructor <;> rw [status, auto] <;> assumption

theorem changes_settled {s : Twilight} (settled : Settled s) (vs : List LaneView) : changes s vs = 0 := by
  induction vs generalizing s with
  | nil => rfl
  | cons v vs ih => rw [changes, if_neg (not_not_intro (settled_same settled v)), ih (settled_keeps settled v)]

theorem changes_le_one (s : Twilight) (vs : List LaneView) : changes s vs ≤ 1 := by
  induction vs generalizing s with
  | nil => exact Nat.zero_le 1
  | cons v vs ih =>
    rw [changes]
    by_cases change : (s.arithProc v).bAuto ≠ s.bAuto
    · rw [if_pos change, changes_settled (settled_of_change change)]
    · rw [if_neg change, Nat.zero_add]
      exact ih _

/-- **Twilight**: in every run with at least one lane the cells hold the last five verdicts, day and night
are as `bAuto` says, and the mode changes at most once, at dusk to night and at dawn to day, by the vote. -/
theorem twilight_oneWay (s : Twilight) (uEnvironment status laneAmount : Nat) (lanes : 0 < laneAmount) (views : List LaneView) :
    (∀ before v after, views = before ++ v :: after →
        OneWay status (before.foldl watch (s.arithInit uEnvironment status laneAmount, []))
          ((before ++ [v]).foldl watch (s.arithInit uEnvironment status laneAmount, []))) ∧
      changes (s.arithInit uEnvironment status laneAmount) views ≤ 1 := by
  refine ⟨fun before v after split => ?_, changes_le_one _ _⟩
  have kept : Kept status (before.foldl watch (s.arithInit uEnvironment status laneAmount, [])) :=
    foldl_invariant (fun _ w => Kept status w) (fun _ _ _ => True) (fun _ w v kept _ => watch_kept kept v)
      (kept_init s uEnvironment status lanes) (fun _ _ _ _ => trivial) split
  rw [List.foldl_append]
  exact watch_oneWay kept v

/-- The memory of a new camera. -/
def zero : Twilight := ⟨0, 0, 0, 0, 0, 0, 0, 0, fun _ => 0, 0, false⟩

/-- A frame without a vehicle. -/
def quiet : LaneView := ⟨false, false, 0, 0⟩

/-- The first frame of a dawn is recorded, and the night goes on. -/
theorem dawn_begins :
    OneWay 3 (zero.arithInit 2 3 1, []) ([quiet].foldl watch (zero.arithInit 2 3 1, [])) ∧
      ([quiet].foldl watch (zero.arithInit 2 3 1, [])).1.exlight 5 = 1 ∧
      ([quiet].foldl watch (zero.arithInit 2 3 1, [])).1.bAuto = 2 := by
  refine ⟨?_, by decide, by decide⟩
  exact (twilight_oneWay zero 2 3 1 (by decide) [quiet]).1 [] quiet [] rfl

end Twilight
end VideoDetector.Alg
