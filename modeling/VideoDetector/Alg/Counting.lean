import VideoDetector.Alg.Targets
import VideoDetector.Lib.Words

/-!
# Counting vehicles in a lane (`fvd-new/alg-mutilthread/m_arith.cpp`)

`SpeedCaculate` decides for each lane and frame whether a vehicle enters or leaves the coil: by day from
the tracked targets, at night from tests on the image. The tests and the geometry of the coil are inputs.
Of the speed and the length only the time that they are computed from is modelled; queues, backgrounds
and the packing of the results are left out.
-/

namespace VideoDetector.Alg
set_option autoImplicit false
open Lib

/-! ## State -/

/-- The `cSpeedDesc` of a lane, with the totals of the lane. `hasSpeed` says that `wVehicleSpeed` is
positive. -/
structure Lane where
  detectId : Int
  uCountIntervalFrame : Int
  bCanBeginCount : Bool
  bIsCounting : Bool
  lxtime : Int
  jgtime : Int
  headtime : Int
  firstline : Int
  speedflag : Int
  lengthflag : Int
  outflag : Int
  uBreakFrame : Int
  uCountFrameSum : Int
  uTrafficFlow : Int
  hasSpeed : Bool
  uDetectInSum : Int
  uDetectOutSum : Int
  deriving DecidableEq, Repr

/-- A lane after `alg_mem_malloc`, `CfgStructParse` and `ArithVariableInit`. -/
def Lane.initial : Lane := ⟨0, 0, false, false, 0, 0, 0, 0, 0, 0, 0, 0, 0, 0, false, 0, 0⟩

/-- `guMinCountIntervalFrame`. -/
def guMinCountIntervalFrame : Int := 5

/-- What the image tests say of a lane: `bIsSobleBlockUnChanged`, `bIsSpeedCounterChanged` before and after
a vehicle was let in, `bIsSpeedCounterChanged1` and `bIsSpeedCounterChanged2` (or `3`). -/
structure Images where
  unchanged : Bool
  changedFirst : Bool
  changed : Bool
  changed1 : Bool
  changed2 : Bool
  deriving DecidableEq, Repr

/-- What `SpeedCaculate` reads in a frame. -/
structure LaneFrame where
  nChannelNum : Nat
  targets : List Target
  coil : Rect → Bool
  images : Images

/-! ## Targets in the coil -/

/-- The target is counted now: it is in the coil, was not counted and the lane is free. -/
def marks (coil : Rect → Bool) (bCanBeginCount : Bool) (t : Target) : Bool :=
  coil t.vehicle && !t.flowCount && !bCanBeginCount

/-- What the loop over the targets finds. -/
structure Crossing where
  targets : List Target
  bCarIn : Bool
  bCarExist : Bool
  detectId : Int

/-- The body of the loop over the targets. -/
def crossTarget (coil : Rect → Bool) (bCanBeginCount : Bool) (c : Crossing) (t : Target) : Crossing :=
  if marks coil bCanBeginCount t then
    { targets := c.targets ++ [{ t with flowCount := true }]
      bCarIn := true
      bCarExist := c.bCarExist || t.vehicleId == uint16 t.vehicleId
      detectId := uint16 t.vehicleId }
  else { c with targets := c.targets ++ [t], bCarExist := c.bCarExist || t.vehicleId == c.detectId }

/-- The loop over the targets. -/
def crossTargets (coil : Rect → Bool) (l : Lane) (ts : List Target) : Crossing :=
  ts.foldl (crossTarget coil l.bCanBeginCount) ⟨[], false, false, l.detectId⟩

/-! ## Day -/

/-- `gThisFrameTime - jgtime`. -/
def sinceEntry (time : Int) (l : Lane) : Int := uint32 (time - l.jgtime)

/-- `gThisFrameTime - firstline`. -/
def sinceFirstline (time : Int) (l : Lane) : Int := uint32 (time - l.firstline)

/-- The times that are kept when a vehicle enters. -/
def startTimes (time : Int) (l : Lane) : Lane :=
  { l with
    headtime := int16 (sinceEntry time l / 15)
    jgtime := int16 time
    firstline := uint16 time
    speedflag := 1
    lengthflag := 1
    bCanBeginCount := true }

/-- The entry by day, and whether the frame ends here. -/
def dayEntry (time minGap : Int) (bCarIn : Bool) (l : Lane) : Lane × Bool :=
  let l := { l with lxtime := if bCarIn then int16 (l.lxtime + 1) else 0 }
  if 0 < l.lxtime then
    if sinceEntry time l < minGap then (l, true)
    else ({ startTimes time l with uDetectInSum := uint32 (l.uDetectInSum + 1), bIsCounting := true }, false)
  else (l, false)

/-- The exit by day, and the time that the speed and the length are computed from. -/
def dayExit (time : Int) (bCarExit : Bool) (l : Lane) : Lane × Option Int :=
  if l.bCanBeginCount && bCarExit then
    ({ l with
        bCanBeginCount := false
        uDetectOutSum := uint32 (l.uDetectOutSum + 1)
        uTrafficFlow := uint16 (l.uTrafficFlow + 1)
        hasSpeed := true },
      some (sinceFirstline time l))
  else (l, none)

/-- The end of a frame by day. -/
def dayOccupied (occupied : Bool) (l : Lane) : Lane :=
  if occupied && l.bIsCounting then { l with outflag := int16 (l.outflag + 1) }
  else { l with outflag := 0, bIsCounting := false }

def dayFrame (time minGap : Int) (c : Crossing) (images : Images) (l : Lane) : Lane × Option Int :=
  if l.uCountIntervalFrame < guMinCountIntervalFrame then
    ({ l with uCountIntervalFrame := uint16 (l.uCountIntervalFrame + 1) }, none)
  else
    let entered := if l.bCanBeginCount then (l, false) else dayEntry time minGap c.bCarIn l
    if entered.2 then (entered.1, none)
    else
      let left := dayExit time (!c.bCarExist) entered.1
      (dayOccupied (images.changed2 || c.bCarExist) left.1, left.2)

/-! ## Night -/

/-- A vehicle is let in at night, and whether the frame ends here. -/
def nightStart (time : Int) (images : Images) (l : Lane) : Lane × Bool :=
  if !images.unchanged && !images.changedFirst then
    let l := { l with lxtime := int16 (l.lxtime + 1) }
    if 0 < l.lxtime then
      if sinceEntry time l < 20 then (l, true)
      else ({ startTimes time l with outflag := 0, uCountFrameSum := uint16 (l.uCountFrameSum + 1) }, false)
    else (l, true)
  else ({ l with lxtime := 0 }, true)

/-- The totals are kept for the first two channels. -/
def counts (nChannelNum : Nat) : Bool := nChannelNum == 0 || nChannelNum == 1

/-- The entry at night. -/
def nightEntry (nChannelNum : Nat) (l : Lane) : Lane :=
  { l with
    outflag := 0
    bIsCounting := true
    uCountFrameSum := 1
    uBreakFrame := 0
    uDetectInSum := if counts nChannelNum then uint32 (l.uDetectInSum + 1) else l.uDetectInSum }

/-- The vehicle moves on at night, and the time that its speed is computed from. -/
def nightSpeed (time : Int) (l : Lane) : Lane × Option Int :=
  let moved := { l with outflag := 0, uBreakFrame := uint16 (l.uBreakFrame + 1) }
  if l.speedflag = 1 then
    ({ moved with
        speedflag := if 2 < sinceFirstline time l ∧ sinceFirstline time l < 20 then 0 else 1
        hasSpeed := true },
      some (sinceFirstline time l))
  else (moved, none)

/-- The vehicle leaves at night, and the time that its length is computed from. -/
def nightLeave (time : Int) (nChannelNum : Nat) (l : Lane) : Lane × Option Int :=
  ({ l with
      lengthflag := if l.lengthflag = 1 ∧ 5 < sinceFirstline time l ∧ l.hasSpeed = true then 0 else l.lengthflag
      bCanBeginCount := false
      bIsCounting := false
      uTrafficFlow := uint16 (l.uTrafficFlow + 1)
      outflag := 0
      uBreakFrame := 0
      uCountFrameSum := 0
      uCountIntervalFrame := 0
      uDetectOutSum := if counts nChannelNum then uint32 (l.uDetectOutSum + 1) else l.uDetectOutSum
      hasSpeed := true },
    if l.lengthflag = 1 then some (sinceFirstline time l) else none)

/-- The exit at night: the coil must have been empty for some frames. -/
def nightExit (time : Int) (nChannelNum : Nat) (l : Lane) : Lane × Option Int :=
  let l := { l with outflag := int16 (l.outflag + 1) }
  if l.uBreakFrame < 1 ∧ l.outflag < 20 ∨ 0 < l.uBreakFrame ∧ l.outflag < 3 then (l, none) else nightLeave time nChannelNum l

/-- The vehicle is still there. -/
def nightPresent (changed1 : Bool) (l : Lane) : Lane :=
  if changed1 then { l with uCountFrameSum := uint16 (l.uCountFrameSum + 1), outflag := 0, uBreakFrame := 0 } else l

def nightFrame (time : Int) (nChannelNum : Nat) (images : Images) (l : Lane) : Lane × Option Int :=
  let started := if l.bCanBeginCount then (l, false) else nightStart time images l
  if started.2 then (started.1, none)
  else
    let l := nightPresent images.changed1 started.1
    if l.bCanBeginCount && !l.bIsCounting then (nightEntry nChannelNum l, none)
    else if l.bIsCounting && images.changed && !images.changed1 then nightSpeed time l
    else if l.bIsCounting && !images.changed && !images.changed1 || decide (4000 < l.outflag) then nightExit time nChannelNum l
    else (l, none)

/-! ## Frames -/

/-- A lane with the clock and the mode of its camera. -/
structure Counter where
  bNight : Bool
  uGetBackMinContiuFrame : Int
  gThisFrameTime : Int
  lane : Lane
  deriving DecidableEq, Repr

/-- `ArithInit`; the smallest gap between vehicles is a configured 16-bit value. -/
def arithInit (bNight : Bool) (minGap : Fin 65536) : Counter := ⟨bNight, minGap.val, 0, Lane.initial⟩

/-- What a frame leaves: the lane, the targets, and the time that a speed or a length is computed from. -/
structure Counted where
  lane : Lane
  targets : List Target
  dwell : Option Int

/-- `SpeedCaculate` at the time of the frame. -/
def speedCaculate (bNight : Bool) (minGap time : Int) (l : Lane) (f : LaneFrame) : Counted :=
  if bNight then
    let r := nightFrame time f.nChannelNum f.images l
    ⟨r.1, f.targets, r.2⟩
  else
    let c := crossTargets f.coil l f.targets
    let r := dayFrame time minGap c f.images { l with detectId := c.detectId }
    ⟨r.1, c.targets, r.2⟩

/-- A frame of the lane in `ArithProc`, which advances the clock. -/
def counted (c : Counter) (f : LaneFrame) : Counted :=
  speedCaculate c.bNight c.uGetBackMinContiuFrame (uint32 (c.gThisFrameTime + 1)) c.lane f

def frameStep (c : Counter) (f : LaneFrame) : Counter :=
  { c with gThisFrameTime := uint32 (c.gThisFrameTime + 1), lane := (counted c f).lane }

/-- A step of a camera: the mode changes only when it is initialised again. -/
inductive CountAction where
  | arithInit (bNight : Bool) (minGap : Fin 65536)
  | frame (f : LaneFrame)

def countStep (c : Counter) : CountAction → Counter
  | .arithInit bNight minGap => arithInit bNight minGap
  | .frame f => frameStep c f

/-! ## What a frame does -/

/-- The loop over the targets, from where it stands. -/
theorem foldl_crossTarget (coil : Rect → Bool) (can : Bool) (ts : List Target) (c : Crossing) :
    (ts.foldl (crossTarget coil can) c).targets =
        c.targets ++ ts.map (fun t => if marks coil can t then { t with flowCount := true } else t) ∧
      (ts.foldl (crossTarget coil can) c).bCarIn = (c.bCarIn || ts.any (marks coil can)) := by
  induction ts generalizing c with
  | nil => simp
  | cons t ts ih =>
    rw [List.foldl_cons]
    obtain ⟨targets, carIn⟩ := ih (crossTarget coil can c t)
    rw [targets, carIn]
    by_cases now : marks coil can t = true
    · simp [crossTarget, now]
    · simp [crossTarget, now]

theorem crossTargets_targets (coil : Rect → Bool) (l : Lane) (ts : List Target) :
    (crossTargets coil l ts).targets =
      ts.map fun t => if marks coil l.bCanBeginCount t then { t with flowCount := true } else t :=
  (foldl_crossTarget coil l.bCanBeginCount ts _).1

theorem crossTargets_bCarIn (coil : Rect → Bool) (l : Lane) (ts : List Target) :
    (crossTargets coil l ts).bCarIn = ts.any (marks coil l.bCanBeginCount) :=
  (foldl_crossTarget coil l.bCanBeginCount ts _).2

/-- A vehicle is in the coil. -/
def inside (bNight : Bool) (l : Lane) : Bool := if bNight then l.bIsCounting else l.bCanBeginCount

/-- The smallest number of frames between two vehicles. -/
def smallestGap (bNight : Bool) (minGap : Int) : Int := if bNight then 20 else minGap

/-- A vehicle enters: the lane is free, the tests or a target in the coil show one, and the last one is
long enough ago. -/
def enters (bNight : Bool) (minGap time : Int) (l : Lane) (f : LaneFrame) : Bool :=
  !l.bCanBeginCount && decide (0 < int16 (l.lxtime + 1)) && decide (smallestGap bNight minGap ≤ sinceEntry time l) &&
    if bNight then !f.images.unchanged && !f.images.changedFirst
    else decide (guMinCountIntervalFrame ≤ l.uCountIntervalFrame) && f.targets.any (marks f.coil l.bCanBeginCount)

/-- **What a frame does to a lane**: at most one vehicle enters the free coil, at most one leaves it, and
the times are those of the vehicle that entered last. -/
structure Passes (bNight : Bool) (time : Int) (l after : Lane) (dwell : Option Int) (entering leaving : Bool) : Prop where
  inSum : after.uDetectInSum = if entering then uint32 (l.uDetectInSum + 1) else l.uDetectInSum
  outSum : after.uDetectOutSum = if leaving then uint32 (l.uDetectOutSum + 1) else l.uDetectOutSum
  inside : inside bNight after = ((inside bNight l || entering) && !leaving)
  free : entering = true → Alg.inside bNight l = false
  occupied : leaving = true → (Alg.inside bNight l || entering) = true
  jgtime : after.jgtime = if entering then int16 time else l.jgtime
  headtime : after.headtime = if entering then int16 (sinceEntry time l / 15) else l.headtime
  firstline : after.firstline = if entering then uint16 time else l.firstline
  dwell : ∀ d, dwell = some d → (Alg.inside bNight l || entering) = true ∧ d = uint32 (time - after.firstline)

/-- The exit by day, after the entry. -/
theorem dayExit_passes {time : Int} {l m : Lane} {entering : Bool} (occupied bCarExit : Bool)
    (entry : Passes false time l m none entering false) :
    ∃ leaving, Passes false time l (dayOccupied occupied (dayExit time bCarExit m).1) (dayExit time bCarExit m).2 entering leaving := by
  have same : ∀ u : Lane, (dayOccupied occupied u) = { u with
      outflag := (dayOccupied occupied u).outflag, bIsCounting := (dayOccupied occupied u).bIsCounting } := by
    intro u
    unfold dayOccupied
    split
    next => rfl
    next => rfl
  have there : m.bCanBeginCount = (l.bCanBeginCount || entering) := by simpa [inside] using entry.inside
  unfold dayExit
  split
  next gone =>
    rw [Bool.and_eq_true] at gone
    refine ⟨true, ?_⟩
    rw [same]
    refine ⟨entry.inSum, ?_, ?_, entry.free, fun _ => ?_, entry.jgtime, entry.headtime, entry.firstline, ?_⟩
    · show uint32 (m.uDetectOutSum + 1) = _
      rw [entry.outSum]
      rfl
    · simp [inside]
    · exact there.symm.trans gone.1
    · rintro d ⟨⟩
      exact ⟨there.symm.trans gone.1, rfl⟩
  next stays =>
    refine ⟨false, ?_⟩
    rw [same]
    exact ⟨entry.inSum, entry.outSum, entry.inside, entry.free, fun leaving => (nomatch leaving), entry.jgtime, entry.headtime,
      entry.firstline, fun d none => (nomatch none)⟩

/-- A frame in which nothing that `Passes` says changes. -/
theorem passes_same {bNight : Bool} {time : Int} {l after : Lane} (inSum : after.uDetectInSum = l.uDetectInSum)
    (outSum : after.uDetectOutSum = l.uDetectOutSum) (same : inside bNight after = inside bNight l)
    (jgtime : after.jgtime = l.jgtime) (headtime : after.headtime = l.headtime) (firstline : after.firstline = l.firstline) :
    Passes bNight time l after none false false := by
  refine ⟨inSum, outSum, ?_, fun entering => (nomatch entering), fun leaving => (nomatch leaving), jgtime, headtime, firstline,
    fun d none => (nomatch none)⟩
  rw [same, Bool.or_false, Bool.not_false, Bool.and_true]

/-- The entry by day. -/
theorem dayEntry_passes {l : Lane} (free : l.bCanBeginCount = false) (time minGap : Int) (bCarIn : Bool) :
    Passes false time l (dayEntry time minGap bCarIn l).1 none
        (bCarIn && decide (0 < int16 (l.lxtime + 1)) && decide (minGap ≤ sinceEntry time l)) false ∧
      ((dayEntry time minGap bCarIn l).2 = true → (bCarIn && decide (0 < int16 (l.lxtime + 1)) &&
        decide (minGap ≤ sinceEntry time l)) = false) := by
  cases bCarIn with
  | false => exact ⟨passes_same rfl rfl rfl rfl rfl rfl, fun _ => rfl⟩
  | true =>
    unfold dayEntry
    by_cases positive : 0 < int16 (l.lxtime + 1)
    · simp only [if_true, positive, decide_true, Bool.true_and]
      by_cases near : sinceEntry time l < minGap
      · have unready : decide (minGap ≤ sinceEntry time l) = false := decide_eq_false (Int.not_le.mpr near)
        have near' : sinceEntry time { l with lxtime := int16 (l.lxtime + 1) } < minGap := near
        rw [unready, if_pos near']
        exact ⟨passes_same rfl rfl rfl rfl rfl rfl, fun _ => rfl⟩
      · have ready : decide (minGap ≤ sinceEntry time l) = true := decide_eq_true (Int.not_lt.mp near)
        have near' : ¬ sinceEntry time { l with lxtime := int16 (l.lxtime + 1) } < minGap := near
        rw [ready, if_neg near']
        refine ⟨⟨rfl, rfl, ?_, fun _ => free, fun leaving => (nomatch leaving), rfl, rfl, rfl, fun d none => (nomatch none)⟩,
          fun ended => (nomatch ended)⟩
        show true = ((l.bCanBeginCount || true) && true)
        rw [Bool.or_true, Bool.and_true]
    · simp only [if_true, positive, decide_false, Bool.and_false, Bool.false_and, if_false]
      exact ⟨passes_same rfl rfl rfl rfl rfl rfl, fun _ => trivial⟩

/-- **A frame by day.** -/
theorem dayFrame_passes (time minGap : Int) (c : Crossing) (images : Images) (l : Lane) :
    ∃ leaving, Passes false time l (dayFrame time minGap c images l).1 (dayFrame time minGap c images l).2
      (!l.bCanBeginCount && decide (0 < int16 (l.lxtime + 1)) && decide (minGap ≤ sinceEntry time l) &&
        (decide (guMinCountIntervalFrame ≤ l.uCountIntervalFrame) && c.bCarIn)) leaving := by
  unfold dayFrame
  by_cases early : l.uCountIntervalFrame < guMinCountIntervalFrame
  · have unready : decide (guMinCountIntervalFrame ≤ l.uCountIntervalFrame) = false := decide_eq_false (Int.not_le.mpr early)
    rw [if_pos early, unready, Bool.false_and, Bool.and_false]
    exact ⟨false, passes_same rfl rfl rfl rfl rfl rfl⟩
  · have ready : decide (guMinCountIntervalFrame ≤ l.uCountIntervalFrame) = true := decide_eq_true (Int.not_lt.mp early)
    rw [if_neg early, ready, Bool.true_and]
    cases free : l.bCanBeginCount with
    | true =>
      have stays : Passes false time l l none false false := passes_same rfl rfl rfl rfl rfl rfl
      exact dayExit_passes _ _ stays
    | false =>
      obtain ⟨entry, ended⟩ := dayEntry_passes free time minGap c.bCarIn
      have order : (!false && decide (0 < int16 (l.lxtime + 1)) && decide (minGap ≤ sinceEntry time l) && c.bCarIn) =
          (c.bCarIn && decide (0 < int16 (l.lxtime + 1)) && decide (minGap ≤ sinceEntry time l)) := by
        cases c.bCarIn with
        | false => simp
        | true => simp
      rw [order]
      simp only [Bool.false_eq_true, if_false]
      cases stop : (dayEntry time minGap c.bCarIn l).2 with
      | true =>
        rw [ended stop] at entry ⊢
        exact ⟨false, entry⟩
      | false => exact dayExit_passes _ _ entry

theorem nightPresent_eq (changed1 : Bool) (l : Lane) :
    nightPresent changed1 l = { l with
      uCountFrameSum := (nightPresent changed1 l).uCountFrameSum
      outflag := (nightPresent changed1 l).outflag
      uBreakFrame := (nightPresent changed1 l).uBreakFrame } := by
  unfold nightPresent
  split
  next => rfl
  next => rfl

/-- The vehicle in the coil moves on. -/
theorem nightSpeed_passes {time : Int} {l m : Lane} (occupied : l.bIsCounting = true)
    (same : Passes true time l m none false false) (paired : m.bIsCounting = m.bCanBeginCount) :
    Passes true time l (nightSpeed time m).1 (nightSpeed time m).2 false false ∧
      (nightSpeed time m).1.bIsCounting = (nightSpeed time m).1.bCanBeginCount := by
  unfold nightSpeed
  split
  next =>
    refine ⟨⟨same.inSum, same.outSum, same.inside, same.free, same.occupied, same.jgtime, same.headtime, same.firstline, ?_⟩,
      paired⟩
    rintro d ⟨⟩
    exact ⟨(Bool.or_false _).trans occupied, rfl⟩
  next =>
    exact ⟨⟨same.inSum, same.outSum, same.inside, same.free, same.occupied, same.jgtime, same.headtime, same.firstline,
      same.dwell⟩, paired⟩

/-- The vehicle leaves the coil. -/
theorem nightLeave_passes {time : Int} {nChannelNum : Nat} (channel : counts nChannelNum = true) {l m : Lane}
    (occupied : l.bIsCounting = true) (same : Passes true time l m none false false) :
    Passes true time l (nightLeave time nChannelNum m).1 (nightLeave time nChannelNum m).2 false true := by
  have there : (l.bIsCounting || false) = true := (Bool.or_false _).trans occupied
  refine ⟨same.inSum, ?_, ?_, same.free, fun _ => there, same.jgtime, same.headtime, same.firstline, fun d some => ?_⟩
  · show (if counts nChannelNum then uint32 (m.uDetectOutSum + 1) else m.uDetectOutSum) = _
    rw [if_pos channel, same.outSum]
    rfl
  · show false = ((l.bIsCounting || false) && false)
    rw [Bool.and_false]
  · unfold nightLeave at some
    simp only at some
    split at some
    next =>
      cases some
      exact ⟨there, rfl⟩
    next => cases some

/-- The vehicle leaves, unless it is too early. -/
theorem nightExit_passes {time : Int} {nChannelNum : Nat} (channel : counts nChannelNum = true) {l m : Lane}
    (occupied : l.bIsCounting = true) (same : Passes true time l m none false false) (paired : m.bIsCounting = m.bCanBeginCount) :
    (∃ leaving, Passes true time l (nightExit time nChannelNum m).1 (nightExit time nChannelNum m).2 false leaving) ∧
      (nightExit time nChannelNum m).1.bIsCounting = (nightExit time nChannelNum m).1.bCanBeginCount := by
  have later : Passes true time l { m with outflag := int16 (m.outflag + 1) } none false false :=
    ⟨same.inSum, same.outSum, same.inside, same.free, same.occupied, same.jgtime, same.headtime, same.firstline, same.dwell⟩
  unfold nightExit
  simp only
  split
  next => exact ⟨⟨false, later⟩, paired⟩
  next => exact ⟨⟨true, nightLeave_passes channel occupied later⟩, rfl⟩

/-- The tests show a vehicle at night, long enough after the last one. -/
def shows (time : Int) (images : Images) (l : Lane) : Bool :=
  decide (0 < int16 (l.lxtime + 1)) && decide (20 ≤ sinceEntry time l) && (!images.unchanged && !images.changedFirst)

/-- The frame ends before a vehicle is let in. -/
theorem nightStart_ends {time : Int} {images : Images} {l : Lane} (empty : shows time images l = false) :
    ∃ lxtime, nightStart time images l = ({ l with lxtime := lxtime }, true) := by
  unfold nightStart
  split
  next seen =>
    simp only
    split
    next positive =>
      split
      next => exact ⟨_, rfl⟩
      next far =>
        have far' : 20 ≤ sinceEntry time l := Int.not_lt.mp far
        rw [shows, decide_eq_true positive, decide_eq_true far', seen] at empty
        cases empty
    next => exact ⟨_, rfl⟩
  next => exact ⟨_, rfl⟩

/-- A vehicle is let in. -/
theorem nightStart_starts {time : Int} {images : Images} {l : Lane} (there : shows time images l = true) :
    ∃ lxtime uCountFrameSum, nightStart time images l =
      ({ startTimes time { l with lxtime := lxtime } with outflag := 0, uCountFrameSum := uCountFrameSum }, false) := by
  rw [shows, Bool.and_eq_true, Bool.and_eq_true, decide_eq_true_iff, decide_eq_true_iff] at there
  obtain ⟨⟨positive, far⟩, seen⟩ := there
  have far' : ¬ sinceEntry time { l with lxtime := int16 (l.lxtime + 1) } < 20 := Int.not_lt.mpr far
  unfold nightStart
  rw [if_pos seen, if_pos positive, if_neg far']
  exact ⟨_, _, rfl⟩

/-- **A frame at night.** -/
theorem nightFrame_passes {l : Lane} (paired : l.bIsCounting = l.bCanBeginCount) (time : Int) {nChannelNum : Nat}
    (channel : counts nChannelNum = true) (images : Images) :
    (∃ leaving, Passes true time l (nightFrame time nChannelNum images l).1 (nightFrame time nChannelNum images l).2
        (!l.bCanBeginCount && shows time images l) leaving) ∧
      (nightFrame time nChannelNum images l).1.bIsCounting = (nightFrame time nChannelNum images l).1.bCanBeginCount := by
  unfold nightFrame
  cases free : l.bCanBeginCount with
  | false =>
    have quiet : l.bIsCounting = false := paired.trans free
    simp only [Bool.false_eq_true, if_false, Bool.not_false, Bool.true_and]
    cases there : shows time images l with
    | false =>
      obtain ⟨lxtime, ends⟩ := nightStart_ends there
      rw [ends]
      exact ⟨⟨false, passes_same rfl rfl rfl rfl rfl rfl⟩, paired⟩
    | true =>
      obtain ⟨lxtime, uCountFrameSum, starts⟩ := nightStart_starts there
      rw [starts, nightPresent_eq]
      simp only [startTimes, quiet, Bool.false_eq_true, if_false, Bool.not_false, Bool.and_true, if_true]
      refine ⟨⟨false, ?_, rfl, ?_, fun _ => quiet, fun leaving => (nomatch leaving), rfl, rfl, rfl, fun d none => ?_⟩, rfl⟩
      · show (if counts nChannelNum then uint32 (l.uDetectInSum + 1) else l.uDetectInSum) = _
        rw [if_pos channel]
        rfl
      · show true = ((l.bIsCounting || true) && true)
        rw [Bool.or_true, Bool.and_true]
      · cases none
  | true =>
    have busy : l.bIsCounting = true := paired.trans free
    have same : Passes true time l { l with
        uCountFrameSum := (nightPresent images.changed1 l).uCountFrameSum
        outflag := (nightPresent images.changed1 l).outflag
        uBreakFrame := (nightPresent images.changed1 l).uBreakFrame } none false false := passes_same rfl rfl rfl rfl rfl rfl
    simp only [if_true, Bool.false_eq_true, if_false, Bool.not_true, Bool.false_and]
    rw [nightPresent_eq]
    rw [if_neg (by simp [busy])]
    split
    next =>
      obtain ⟨passes, paired'⟩ := nightSpeed_passes busy same paired
      exact ⟨⟨false, passes⟩, paired'⟩
    next =>
      split
      next => exact nightExit_passes channel busy same paired
      next => exact ⟨⟨false, same⟩, paired⟩

/-- The two status bits agree at night. -/
def Paired (bNight : Bool) (l : Lane) : Prop := bNight = true → l.bIsCounting = l.bCanBeginCount

/-- **`SpeedCaculate`**, by day and at night. -/
theorem speedCaculate_passes {bNight : Bool} {l : Lane} (paired : Paired bNight l) (minGap time : Int) {f : LaneFrame}
    (channel : counts f.nChannelNum = true) :
    (∃ leaving, Passes bNight time l (speedCaculate bNight minGap time l f).lane (speedCaculate bNight minGap time l f).dwell
        (enters bNight minGap time l f) leaving) ∧ Paired bNight (speedCaculate bNight minGap time l f).lane := by
  cases bNight with
  | true =>
    obtain ⟨⟨leaving, passes⟩, paired'⟩ := nightFrame_passes (paired rfl) time channel f.images
    refine ⟨⟨leaving, ?_⟩, fun _ => paired'⟩
    have same : enters true minGap time l f = (!l.bCanBeginCount && shows time f.images l) := by
      simp [enters, shows, smallestGap, Bool.and_assoc]
    rw [same]
    exact passes
  | false =>
    obtain ⟨leaving, passes⟩ := dayFrame_passes time minGap (crossTargets f.coil l f.targets) f.images
      { l with detectId := (crossTargets f.coil l f.targets).detectId }
    refine ⟨⟨leaving, ?_⟩, fun night => (nomatch night)⟩
    have same : enters false minGap time l f =
        (!l.bCanBeginCount && decide (0 < int16 (l.lxtime + 1)) && decide (minGap ≤ sinceEntry time l) &&
          (decide (guMinCountIntervalFrame ≤ l.uCountIntervalFrame) && (crossTargets f.coil l f.targets).bCarIn)) := by
      rw [crossTargets_bCarIn]
      rfl
    rw [same]
    exact ⟨passes.inSum, passes.outSum, passes.inside, passes.free, passes.occupied, passes.jgtime, passes.headtime,
      passes.firstline, passes.dwell⟩

end VideoDetector.Alg
