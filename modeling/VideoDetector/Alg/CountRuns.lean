import VideoDetector.Alg.Counting

/-!
# Runs of the lane counters

A coil holds at most one vehicle: `vehicle_conservation` relates the totals of a lane to the status bits
in every run. `timing_of_early_entries` says when the times that are kept in 16 bits are the true ones.
-/

namespace VideoDetector.Alg
set_option autoImplicit false
open Lib

/-! ## Conservation -/

/-- A total after a frame: it grows by at most one, and goes on with zero after the largest value. -/
def Grows (before after : Int) : Prop := after = before ∨ after = before + 1 ∨ before = 4294967295 ∧ after = 0

/-- What a frame does to the totals of a lane. -/
structure Conserves (bNight : Bool) (l after : Lane) : Prop where
  balance : uint32 (after.uDetectInSum - after.uDetectOutSum) = if inside bNight after then 1 else 0
  inSum : Grows l.uDetectInSum after.uDetectInSum
  outSum : Grows l.uDetectOutSum after.uDetectOutSum
  preceded : after.uDetectOutSum ≠ l.uDetectOutSum → inside bNight l = true ∨ after.uDetectInSum ≠ l.uDetectInSum

/-- What the totals are in every state. -/
structure Balanced (c : Counter) : Prop where
  paired : Paired c.bNight c.lane
  inSum : 0 ≤ c.lane.uDetectInSum ∧ c.lane.uDetectInSum < 4294967296
  outSum : 0 ≤ c.lane.uDetectOutSum ∧ c.lane.uDetectOutSum < 4294967296
  balance : uint32 (c.lane.uDetectInSum - c.lane.uDetectOutSum) = if inside c.bNight c.lane then 1 else 0

theorem balanced_init (bNight : Bool) (minGap : Fin 65536) : Balanced (arithInit bNight minGap) := by
  refine ⟨fun _ => rfl, ⟨Int.le_refl 0, (by decide : (0 : Int) < 4294967296)⟩, ⟨Int.le_refl 0, (by decide : (0 : Int) < 4294967296)⟩, ?_⟩
  cases bNight with
  | false => rfl
  | true => rfl

theorem grows_of {before after : Int} {more : Bool} (range : 0 ≤ before ∧ before < 4294967296)
    (step : after = if more then uint32 (before + 1) else before) :
    Grows before after ∧ 0 ≤ after ∧ after < 4294967296 := by
  subst step
  unfold Grows uint32
  cases more with
  | false => exact ⟨.inl rfl, range⟩
  | true =>
    rw [if_pos rfl]
    omega

/-- The totals of a coil that at most one vehicle enters and leaves. -/
theorem balance_of {x y : Int} {there entering leaving : Bool} (balance : uint32 (x - y) = if there then 1 else 0)
    (free : entering = true → there = false) (occupied : leaving = true → (there || entering) = true) :
    uint32 ((if entering then uint32 (x + 1) else x) - if leaving then uint32 (y + 1) else y) =
      if (there || entering) && !leaving then 1 else 0 := by
  unfold uint32 at *
  cases there <;> cases entering <;> cases leaving <;> simp at free occupied balance ⊢ <;> omega

theorem counts_of {nChannelNum : Nat} (first : nChannelNum = 0 ∨ nChannelNum = 1) : counts nChannelNum = true := by
  rcases first with rfl | rfl
  · rfl
  · rfl

/-- **One frame** keeps the balance. -/
theorem frameStep_conserves {c : Counter} (inv : Balanced c) {f : LaneFrame} (channel : counts f.nChannelNum = true) :
    Balanced (frameStep c f) ∧ Conserves c.bNight c.lane (frameStep c f).lane := by
  obtain ⟨⟨leaving, passes⟩, paired⟩ :=
    speedCaculate_passes inv.paired c.uGetBackMinContiuFrame (uint32 (c.gThisFrameTime + 1)) channel
  obtain ⟨inGrows, inRange⟩ := grows_of inv.inSum passes.inSum
  obtain ⟨outGrows, outRange⟩ := grows_of inv.outSum passes.outSum
  have balance : uint32 ((frameStep c f).lane.uDetectInSum - (frameStep c f).lane.uDetectOutSum) =
      if inside c.bNight (frameStep c f).lane then 1 else 0 := by
    show uint32 ((counted c f).lane.uDetectInSum - (counted c f).lane.uDetectOutSum) = if inside c.bNight (counted c f).lane then 1 else 0
    rw [counted, passes.inSum, passes.outSum, passes.inside]
    exact balance_of inv.balance passes.free passes.occupied
  refine ⟨⟨paired, inRange, outRange, balance⟩, balance, inGrows, outGrows, fun left => ?_⟩
  have leaves : leaving = true := by
    by_contra stays
    apply left
    show (counted c f).lane.uDetectOutSum = _
    rw [counted, passes.outSum, if_neg stays]
  rcases (Bool.or_eq_true_iff.mp (passes.occupied leaves)) with there | entering
  · exact .inl there
  · right
    show (counted c f).lane.uDetectInSum ≠ _
    rw [counted, passes.inSum, if_pos entering]
    exact uint32_add_one_ne _

/-- **Conservation of vehicles**: in every run the entries of a lane are, in 32 bits, the exits or one
more, one more exactly while a vehicle is in the coil. Every frame adds at most one to either total, and
counts an exit only of a vehicle that was counted when it entered. -/
theorem vehicle_conservation (bNight : Bool) (minGap : Fin 65536) (acts : List CountAction)
    (channels : ∀ f, CountAction.frame f ∈ acts → f.nChannelNum = 0 ∨ f.nChannelNum = 1) :
    ∀ before f after, acts = before ++ CountAction.frame f :: after →
      Conserves (before.foldl countStep (arithInit bNight minGap)).bNight (before.foldl countStep (arithInit bNight minGap)).lane
        (frameStep (before.foldl countStep (arithInit bNight minGap)) f).lane := by
  have channel : ∀ f, CountAction.frame f ∈ acts → counts f.nChannelNum = true := fun f member => counts_of (channels f member)
  intro before f after split
  have inv : Balanced (before.foldl countStep (arithInit bNight minGap)) := by
    refine foldl_invariant (fun _ c => Balanced c) (fun _ _ act => ∀ f, act = CountAction.frame f → counts f.nChannelNum = true)
      (fun _ c act inv good => ?_) (balanced_init bNight minGap) (fun first act last cut f same => ?_) split
    · cases act with
      | arithInit bNight minGap => exact balanced_init bNight minGap
      | frame f => exact (frameStep_conserves inv (good f rfl)).1
    · apply channel
      rw [cut, ← same]
      exact List.mem_append_right _ List.mem_cons_self
  refine (frameStep_conserves inv (channel f ?_)).2
  rw [split]
  exact List.mem_append_right _ List.mem_cons_self

/-- A frame with no vehicle. -/
def emptyFrame : LaneFrame := ⟨0, [], fun _ => true, ⟨true, false, false, false, false⟩⟩

/-- A frame with a vehicle in the coil. -/
def vehicleFrame : LaneFrame :=
  ⟨0, [{ initializeTarget with vehicleId := 1 }], fun _ => true, ⟨true, false, false, false, false⟩⟩

/-- A vehicle comes after five frames. -/
def oneVehicle : List CountAction := List.replicate 5 (.frame emptyFrame) ++ [.frame vehicleFrame]

theorem oneVehicle_channels (f : LaneFrame) (member : CountAction.frame f ∈ oneVehicle ++ [.frame emptyFrame]) :
    f.nChannelNum = 0 ∨ f.nChannelNum = 1 := by
  simp only [oneVehicle, List.replicate, List.cons_append, List.nil_append, List.mem_cons, CountAction.frame.injEq,
    List.not_mem_nil, or_false] at member
  rcases member with rfl | rfl | rfl | rfl | rfl | rfl | rfl <;> exact .inl rfl

/-- It is counted when it comes and when it leaves. -/
theorem oneVehicle_counted :
    Conserves false (oneVehicle.foldl countStep (arithInit false 0)).lane
        (frameStep (oneVehicle.foldl countStep (arithInit false 0)) emptyFrame).lane ∧
      (oneVehicle.foldl countStep (arithInit false 0)).lane.uDetectInSum = 1 ∧
      (frameStep (oneVehicle.foldl countStep (arithInit false 0)) emptyFrame).lane.uDetectOutSum = 1 := by
  refine ⟨?_, by decide, by decide⟩
  exact vehicle_conservation false 0 (oneVehicle ++ [.frame emptyFrame]) oneVehicle_channels oneVehicle emptyFrame [] rfl

/-- So many vehicles one after the other, each followed by two frames without one. -/
def traffic (n : Nat) : List CountAction :=
  List.replicate 5 (.frame emptyFrame) ++
    (List.replicate n [CountAction.frame vehicleFrame, .frame emptyFrame, .frame emptyFrame]).flatten

/-- The lane is free and ready, and so many vehicles were counted. -/
structure Ready (n : Nat) (c : Counter) : Prop where
  day : c.bNight = false
  gap : c.uGetBackMinContiuFrame = 0
  free : c.lane.bCanBeginCount = false
  interval : c.lane.uCountIntervalFrame = 5
  lxtime : c.lane.lxtime = 0
  inSum : c.lane.uDetectInSum = uint32 n

theorem uint32_nonneg (n : Int) : ¬ uint32 n < 0 := by
  unfold uint32
  omega

/-- A vehicle enters a lane that is ready. -/
theorem frameStep_vehicle {n : Nat} {c : Counter} (ready : Ready n c) :
    (frameStep c vehicleFrame).bNight = false ∧ (frameStep c vehicleFrame).uGetBackMinContiuFrame = 0 ∧
      (frameStep c vehicleFrame).lane.bCanBeginCount = true ∧ (frameStep c vehicleFrame).lane.uCountIntervalFrame = 5 ∧
      (frameStep c vehicleFrame).lane.uDetectInSum = uint32 ((n + 1 : Nat) : Int) := by
  refine ⟨ready.day, ready.gap, ?_⟩
  have once : int16 1 = 1 := rfl
  have sum : uint32 (uint32 n + 1) = uint32 ((n + 1 : Nat) : Int) := Int.emod_add_emod n 4294967296 1
  simp [frameStep, counted, speedCaculate, crossTargets, vehicleFrame, crossTarget, marks, initializeTarget, dayFrame, dayEntry,
    guMinCountIntervalFrame, ready.day, ready.gap, ready.free, ready.interval, ready.lxtime, ready.inSum, once,
    (show uint16 1 = 1 from rfl), sinceEntry, uint32_nonneg, startTimes, dayExit, dayOccupied, sum]

/-- It leaves, and the lane is ready again. -/
theorem frameStep_empty {n : Nat} {c : Counter} (day : c.bNight = false) (gap : c.uGetBackMinContiuFrame = 0)
    (occupied : c.lane.bCanBeginCount = true) (interval : c.lane.uCountIntervalFrame = 5) (inSum : c.lane.uDetectInSum = uint32 n) :
    Ready n (frameStep (frameStep c emptyFrame) emptyFrame) := by
  refine ⟨day, gap, ?_, ?_, ?_, ?_⟩ <;>
    simp [frameStep, counted, speedCaculate, crossTargets, emptyFrame, dayFrame, dayEntry, guMinCountIntervalFrame, dayExit,
      dayOccupied, day, occupied, interval, inSum]

theorem traffic_ready (n : Nat) : Ready n ((traffic n).foldl countStep (arithInit false 0)) := by
  induction n with
  | zero => exact ⟨rfl, rfl, rfl, rfl, rfl, rfl⟩
  | succ n ih =>
    have more : traffic (n + 1) = traffic n ++ [.frame vehicleFrame, .frame emptyFrame, .frame emptyFrame] := by
      rw [traffic, List.replicate_succ' (n := n), List.flatten_append, List.flatten_singleton, ← List.append_assoc]
      rfl
    rw [more, List.foldl_append]
    obtain ⟨day, gap, occupied, interval, inSum⟩ := frameStep_vehicle ih
    exact frameStep_empty day gap occupied interval inSum

/-- After as many vehicles as 32 bits can hold the total of the lane goes back to zero. -/
theorem traffic_wraps :
    ((traffic 4294967295).foldl countStep (arithInit false 0)).lane.uDetectInSum = 4294967295 ∧
      (frameStep ((traffic 4294967295).foldl countStep (arithInit false 0)) vehicleFrame).lane.uDetectInSum = 0 := by
  have ready := traffic_ready 4294967295
  refine ⟨ready.inSum.trans rfl, ?_⟩
  exact (frameStep_vehicle ready).2.2.2.2.trans rfl

/-! ## Times -/

/-- What an observer of the total of entries writes down: the frames since the lane was initialised, and
the frames of the last two entries. -/
structure Log where
  frames : Nat
  entered : Option Nat
  previous : Option Nat

def Log.initial : Log := ⟨0, none, none⟩

def observe (c : Counter) (log : Log) (f : LaneFrame) : Log :=
  if (frameStep c f).lane.uDetectInSum ≠ c.lane.uDetectInSum then ⟨log.frames + 1, some (log.frames + 1), log.entered⟩
  else { log with frames := log.frames + 1 }

/-- A step of the lane with its observer. -/
def watchStep (w : Counter × Log) : CountAction → Counter × Log
  | .arithInit bNight minGap => (arithInit bNight minGap, Log.initial)
  | .frame f => (frameStep w.1 f, observe w.1 w.2 f)

/-- The times are the true ones: entries are far enough apart, `headtime` is that between the last two,
and the time that a speed or a length is computed from is that since the entry. -/
structure Timely (w : Counter × Log) (f : LaneFrame) : Prop where
  apart : (frameStep w.1 f).lane.uDetectInSum ≠ w.1.lane.uDetectInSum → ∀ e, w.2.entered = some e →
    smallestGap w.1.bNight w.1.uGetBackMinContiuFrame ≤ (w.2.frames + 1 : Int) - e
  headtime : ∀ e e' : Nat, (observe w.1 w.2 f).previous = some e → (observe w.1 w.2 f).entered = some e' →
    ((e' : Int) - e) / 15 ≤ 32767 → (frameStep w.1 f).lane.headtime = ((e' : Int) - e) / 15
  dwell : ∀ d, (counted w.1 f).dwell = some d →
    ∃ e : Nat, (observe w.1 w.2 f).entered = some e ∧ d = (w.2.frames + 1 : Int) - e

/-- The frame is one of the first 32767 if a vehicle enters in it, and the clock has not wrapped. -/
structure Early (w : Counter × Log) (f : LaneFrame) : Prop where
  enters : enters w.1.bNight w.1.uGetBackMinContiuFrame (uint32 (w.1.gThisFrameTime + 1)) w.1.lane f = true →
    w.2.frames + 1 ≤ 32767
  clock : w.2.frames + 1 < 4294967296

/-- The lane and its observer while all entries were early. -/
structure Watched (w : Counter × Log) : Prop where
  paired : Paired w.1.bNight w.1.lane
  clock : w.1.gThisFrameTime = uint32 w.2.frames
  free : w.2.entered = none → inside w.1.bNight w.1.lane = false ∧ w.2.previous = none
  entry : ∀ e, w.2.entered = some e → e ≤ 32767 ∧ e ≤ w.2.frames ∧ w.1.lane.jgtime = e ∧ w.1.lane.firstline = e
  headtime : ∀ e e' : Nat, w.2.previous = some e → w.2.entered = some e' → w.1.lane.headtime = ((e' : Int) - e) / 15

theorem watched_init (bNight : Bool) (minGap : Fin 65536) : Watched (arithInit bNight minGap, Log.initial) := by
  refine ⟨fun _ => rfl, rfl, fun _ => ⟨?_, rfl⟩, fun e none => (nomatch none), fun e e' none => (nomatch none)⟩
  cases bNight with
  | false => rfl
  | true => rfl

theorem observe_entered {c : Counter} {f : LaneFrame} (log : Log)
    (more : (frameStep c f).lane.uDetectInSum = uint32 (c.lane.uDetectInSum + 1)) :
    observe c log f = ⟨log.frames + 1, some (log.frames + 1), log.entered⟩ := by
  rw [observe, if_pos]
  rw [more]
  exact uint32_add_one_ne _

theorem observe_same {c : Counter} {f : LaneFrame} (log : Log) (same : (frameStep c f).lane.uDetectInSum = c.lane.uDetectInSum) :
    observe c log f = { log with frames := log.frames + 1 } := by
  rw [observe, if_neg (not_not_intro same)]

theorem observe_frames (c : Counter) (log : Log) (f : LaneFrame) : (observe c log f).frames = log.frames + 1 := by
  unfold observe
  split
  next => rfl
  next => rfl

/-- The time of the next frame. -/
theorem Watched.time {w : Counter × Log} (inv : Watched w) (clock : w.2.frames + 1 < 4294967296) :
    uint32 (w.1.gThisFrameTime + 1) = (w.2.frames + 1 : Nat) := by
  rw [inv.clock]
  unfold uint32
  omega

theorem Watched.clock_next {w : Counter × Log} (inv : Watched w) (f : LaneFrame) :
    (watchStep w (.frame f)).1.gThisFrameTime = uint32 (watchStep w (.frame f)).2.frames := by
  show uint32 (w.1.gThisFrameTime + 1) = uint32 (observe w.1 w.2 f).frames
  rw [observe_frames, inv.clock]
  exact Int.emod_add_emod _ 4294967296 1

/-- A vehicle enters early. -/
theorem timely_entering {w : Counter × Log} (inv : Watched w) {f : LaneFrame} {leaving : Bool}
    (passes : Passes w.1.bNight (uint32 (w.1.gThisFrameTime + 1)) w.1.lane (frameStep w.1 f).lane (counted w.1 f).dwell true leaving)
    (paired : Paired w.1.bNight (frameStep w.1 f).lane)
    (gap : smallestGap w.1.bNight w.1.uGetBackMinContiuFrame ≤ sinceEntry (uint32 (w.1.gThisFrameTime + 1)) w.1.lane)
    (early : w.2.frames + 1 ≤ 32767) : Timely w f ∧ Watched (watchStep w (.frame f)) := by
  have seen := observe_entered w.2 passes.inSum
  have time := inv.time (by omega)
  have since : ∀ e, w.2.entered = some e →
      sinceEntry (uint32 (w.1.gThisFrameTime + 1)) w.1.lane = ((w.2.frames + 1 : Nat) : Int) - e := by
    intro e last
    obtain ⟨_, before, jgtime, _⟩ := inv.entry e last
    rw [sinceEntry, time, jgtime]
    exact uint32_of_lt (by omega) (by omega)
  have headtime : ∀ e e' : Nat, (observe w.1 w.2 f).previous = some e → (observe w.1 w.2 f).entered = some e' →
      (frameStep w.1 f).lane.headtime = ((e' : Int) - e) / 15 := by
    intro e e' previous entered
    rw [seen] at previous entered
    cases entered
    rw [passes.headtime, if_pos rfl, since e previous]
    obtain ⟨_, before, _⟩ := inv.entry e previous
    exact int16_of_lt (by omega) (by omega)
  have firstline : (frameStep w.1 f).lane.firstline = (w.2.frames + 1 : Nat) := by
    rw [passes.firstline, if_pos rfl, time]
    exact uint16_of_lt (by omega) (by omega)
  refine ⟨⟨fun _ e last => ?_, fun e e' previous entered _ => headtime e e' previous entered, fun d used => ?_⟩,
    ⟨paired, inv.clock_next f, fun empty => ?_, fun e entered => ?_, headtime⟩⟩
  · rw [since e last] at gap
    exact gap
  · refine ⟨w.2.frames + 1, by rw [seen], ?_⟩
    rw [(passes.dwell d used).2, firstline, time, Int.sub_self]
    show (0 : Int) = _
    omega
  · have entered : (observe w.1 w.2 f).entered = none := empty
    rw [seen] at entered
    cases entered
  · have last : (observe w.1 w.2 f).entered = some e := entered
    rw [seen] at last
    cases last
    refine ⟨early, ?_, ?_, firstline⟩
    · show _ ≤ (observe w.1 w.2 f).frames
      rw [observe_frames]
    · show (frameStep w.1 f).lane.jgtime = _
      rw [passes.jgtime, if_pos rfl, time]
      exact int16_of_lt (by omega) (by omega)

/-- No vehicle enters. -/
theorem timely_staying {w : Counter × Log} (inv : Watched w) {f : LaneFrame} {leaving : Bool}
    (passes : Passes w.1.bNight (uint32 (w.1.gThisFrameTime + 1)) w.1.lane (frameStep w.1 f).lane (counted w.1 f).dwell false leaving)
    (paired : Paired w.1.bNight (frameStep w.1 f).lane) (clock : w.2.frames + 1 < 4294967296) :
    Timely w f ∧ Watched (watchStep w (.frame f)) := by
  have same : (frameStep w.1 f).lane.uDetectInSum = w.1.lane.uDetectInSum := passes.inSum
  have seen := observe_same w.2 same
  have time := inv.time clock
  have headtime : ∀ e e' : Nat, (observe w.1 w.2 f).previous = some e → (observe w.1 w.2 f).entered = some e' →
      (frameStep w.1 f).lane.headtime = ((e' : Int) - e) / 15 := by
    intro e e' previous entered
    rw [seen] at previous entered
    exact passes.headtime.trans (inv.headtime e e' previous entered)
  refine ⟨⟨fun more => absurd same more, fun e e' previous entered _ => headtime e e' previous entered, fun d used => ?_⟩,
    ⟨paired, inv.clock_next f, fun empty => ?_, fun e entered => ?_, headtime⟩⟩
  · obtain ⟨there, rfl⟩ := passes.dwell d used
    rw [Bool.or_false] at there
    cases last : w.2.entered with
    | none =>
      rw [(inv.free last).1] at there
      cases there
    | some e =>
      obtain ⟨_, before, _, firstline⟩ := inv.entry e last
      refine ⟨e, by rw [seen]; exact last, ?_⟩
      rw [passes.firstline, if_neg Bool.false_ne_true, firstline, time]
      exact uint32_of_lt (by omega) (by omega)
  · have last : (observe w.1 w.2 f).entered = none := empty
    have previous : (observe w.1 w.2 f).previous = w.2.previous := by rw [seen]
    rw [seen] at last
    obtain ⟨free, first⟩ := inv.free last
    refine ⟨?_, previous.trans first⟩
    show inside w.1.bNight (frameStep w.1 f).lane = false
    rw [passes.inside, free]
    rfl
  · have last : (observe w.1 w.2 f).entered = some e := entered
    rw [seen] at last
    obtain ⟨early, before, jgtime, firstline⟩ := inv.entry e last
    refine ⟨early, ?_, passes.jgtime.trans jgtime, passes.firstline.trans firstline⟩
    show e ≤ (observe w.1 w.2 f).frames
    rw [observe_frames]
    exact Nat.le_succ_of_le before

/-- **One frame** keeps the times true while the entries are early. -/
theorem frameStep_timely {w : Counter × Log} (inv : Watched w) {f : LaneFrame} (channel : counts f.nChannelNum = true)
    (early : Early w f) : Timely w f ∧ Watched (watchStep w (.frame f)) := by
  obtain ⟨⟨leaving, passes⟩, paired⟩ :=
    speedCaculate_passes inv.paired w.1.uGetBackMinContiuFrame (uint32 (w.1.gThisFrameTime + 1)) channel
  cases entering : enters w.1.bNight w.1.uGetBackMinContiuFrame (uint32 (w.1.gThisFrameTime + 1)) w.1.lane f with
  | true =>
    rw [entering] at passes
    have gap : smallestGap w.1.bNight w.1.uGetBackMinContiuFrame ≤ sinceEntry (uint32 (w.1.gThisFrameTime + 1)) w.1.lane := by
      simp only [enters, Bool.and_eq_true, decide_eq_true_iff] at entering
      exact entering.1.2
    exact timely_entering inv passes paired gap (early.enters entering)
  | false =>
    rw [entering] at passes
    exact timely_staying inv passes paired early.clock

/-- **The times of a lane**: in every run in which vehicles enter only in the first 32767 frames after an
initialisation, entries are at least the smallest gap apart, `headtime` is the time between the last two
and the speeds and lengths are computed from the time since the entry. -/
theorem timing_of_early_entries (bNight : Bool) (minGap : Fin 65536) (acts : List CountAction)
    (channels : ∀ f, CountAction.frame f ∈ acts → f.nChannelNum = 0 ∨ f.nChannelNum = 1)
    (early : ∀ before f after, acts = before ++ CountAction.frame f :: after →
      Early (before.foldl watchStep (arithInit bNight minGap, Log.initial)) f) :
    ∀ before f after, acts = before ++ CountAction.frame f :: after →
      Timely (before.foldl watchStep (arithInit bNight minGap, Log.initial)) f := by
  have channel : ∀ f, CountAction.frame f ∈ acts → counts f.nChannelNum = true := fun f member => counts_of (channels f member)
  intro before f after split
  have inv : Watched (before.foldl watchStep (arithInit bNight minGap, Log.initial)) := by
    refine foldl_invariant (fun _ w => Watched w)
      (fun _ w act => ∀ f, act = CountAction.frame f → counts f.nChannelNum = true ∧ Early w f)
      (fun _ w act inv good => ?_) (watched_init bNight minGap) (fun first act last cut f same => ?_) split
    · cases act with
      | arithInit bNight minGap => exact watched_init bNight minGap
      | frame f => exact (frameStep_timely inv (good f rfl).1 (good f rfl).2).2
    · subst same
      refine ⟨channel f ?_, early first f last cut⟩
      rw [cut]
      exact List.mem_append_right _ List.mem_cons_self
  refine (frameStep_timely inv (channel f ?_) (early before f after split)).1
  rw [split]
  exact List.mem_append_right _ List.mem_cons_self

theorem watch_frames_le (acts : List CountAction) (w : Counter × Log) :
    (acts.foldl watchStep w).2.frames ≤ w.2.frames + acts.length := by
  induction acts generalizing w with
  | nil => exact Nat.le_refl _
  | cons act acts ih =>
    refine Nat.le_trans (ih (watchStep w act)) ?_
    rw [List.length_cons]
    cases act with
    | arithInit bNight minGap =>
      show 0 + acts.length ≤ _
      omega
    | frame f =>
      show (observe w.1 w.2 f).frames + acts.length ≤ _
      rw [observe_frames]
      omega

/-- A vehicle in the first frames is in the coil for one frame. -/
theorem oneVehicle_timely :
    Timely (oneVehicle.foldl watchStep (arithInit false 0, Log.initial)) emptyFrame ∧
      (counted (oneVehicle.foldl watchStep (arithInit false 0, Log.initial)).1 emptyFrame).dwell = some 1 := by
  refine ⟨?_, by decide⟩
  refine timing_of_early_entries false 0 (oneVehicle ++ [.frame emptyFrame]) oneVehicle_channels
    (fun before f after split => ?_) oneVehicle emptyFrame [] rfl
  have few := watch_frames_le before (arithInit false 0, Log.initial)
  have length := congrArg List.length split
  simp only [List.length_append, List.length_cons, oneVehicle, List.length_replicate, List.length_nil] at length
  have frames : (before.foldl watchStep (arithInit false 0, Log.initial)).2.frames ≤ 6 := by
    refine Nat.le_trans few ?_
    show 0 + before.length ≤ 6
    omega
  exact ⟨fun _ => by omega, by omega⟩

/-- A lane that was empty for so many frames. -/
def idle (n : Nat) : Counter × Log := (⟨false, 60, n, { Lane.initial with uCountIntervalFrame := 5 }⟩, ⟨n, none, none⟩)

theorem watchStep_idle {n : Nat} (clock : n + 1 < 4294967296) : watchStep (idle n) (.frame emptyFrame) = idle (n + 1) := by
  have same : (frameStep (idle n).1 emptyFrame).lane.uDetectInSum = (idle n).1.lane.uDetectInSum := rfl
  have time : uint32 ((n : Int) + 1) = ((n + 1 : Nat) : Int) := uint32_of_lt (by omega) (by omega)
  show (frameStep (idle n).1 emptyFrame, observe (idle n).1 (idle n).2 emptyFrame) = _
  rw [observe_same _ same]
  show ((⟨false, 60, uint32 ((n : Int) + 1), { Lane.initial with uCountIntervalFrame := 5 }⟩, _) : Counter × Log) = _
  rw [time]
  rfl

theorem watch_idle {n : Nat} (clock : n + 5 < 4294967296) :
    (List.replicate (n + 5) (CountAction.frame emptyFrame)).foldl watchStep (arithInit false 60, Log.initial) = idle (n + 5) := by
  induction n with
  | zero => rfl
  | succ n ih =>
    rw [show n + 1 + 5 = n + 5 + 1 by omega, List.replicate_succ', List.foldl_append, ih (by omega)]
    exact watchStep_idle (by omega)

/-- A vehicle in frame 32768, and the next one two frames later. -/
def lateVehicle : List CountAction :=
  List.replicate 32767 (CountAction.frame emptyFrame) ++ [.frame vehicleFrame, .frame emptyFrame]

/-- Both are counted although the smallest gap is 60, and the time between them is taken for 4369
units. -/
theorem lateVehicle_untimely :
    ∃ w, lateVehicle.foldl watchStep (arithInit false 60, Log.initial) = w ∧ w.2.entered = some 32768 ∧ w.2.frames = 32769 ∧
      w.1.lane.uDetectInSum = 1 ∧ (frameStep w.1 vehicleFrame).lane.uDetectInSum = 2 ∧
      (frameStep w.1 vehicleFrame).lane.headtime = 4369 ∧ ¬ Timely w vehicleFrame := by
  refine ⟨[CountAction.frame vehicleFrame, .frame emptyFrame].foldl watchStep (idle 32767), ?_, by decide, by decide, by decide,
    by decide, by decide, fun timely => ?_⟩
  · rw [lateVehicle, List.foldl_append, watch_idle (n := 32762) (by omega)]
  · have apart := timely.apart (by decide) 32768 (by decide)
    revert apart
    decide

end VideoDetector.Alg
