import Mathlib.Data.List.Nodup
import VideoDetector.Alg.Counting
import VideoDetector.Alg.TargetRuns

/-!
# Marks and counts (`fvd-new/alg-mutilthread/m_arith.cpp`)

By day `ArithProc` calls `get_target` and then `SpeedCaculate` for each lane. A target in the coil of a
free lane is marked in `flow_count`, and the lane counts it later in the same call unless it is not ready.
Here the tables and the lanes run together, beside a ledger of the ids that were given and of the targets
that were marked. `marked_targets_counted` says when the marks and the counts agree.
-/

namespace VideoDetector.Alg
set_option autoImplicit false
open Lib

/-! ## A camera by day -/

/-- What stays the same: the region, the smallest gap, and the coil of each lane. -/
structure RoadCfg where
  region : Region
  uGetBackMinContiuFrame : Fin 65536
  coil : Nat → Rect → Bool

structure Road where
  tables : Tables
  gThisFrameTime : Int
  lanes : List Lane

/-- A camera after `ArithInit`. -/
def Road.initial (laneAmount : Nat) : Road := ⟨Tables.initial, 0, List.replicate laneAmount Lane.initial⟩

/-- The calls of a frame by day; `get_target` comes with the next time. -/
inductive RoadAction where
  | getTarget (f : Sighting)
  | speedCaculate (laneId : Nat) (images : Images)

/-- What `SpeedCaculate` reads for a lane. -/
def laneFrame (cfg : RoadCfg) (r : Road) (laneId : Nat) (images : Images) : LaneFrame :=
  ⟨0, r.tables.targets, cfg.coil laneId, images⟩

/-- `SpeedCaculate` for a lane by day. -/
def callLane (cfg : RoadCfg) (r : Road) (laneId : Nat) (images : Images) (l : Lane) : Counted :=
  speedCaculate false cfg.uGetBackMinContiuFrame.val r.gThisFrameTime l (laneFrame cfg r laneId images)

def roadStep (cfg : RoadCfg) (r : Road) : RoadAction → Except TableFault Road
  | .getTarget f => do
    let tables ← getTarget cfg.region r.tables f
    return { r with tables := tables, gThisFrameTime := uint32 (r.gThisFrameTime + 1) }
  | .speedCaculate laneId images =>
    match r.lanes[laneId]? with
    | none => .ok r
    | some l =>
      let called := callLane cfg r laneId images l
      .ok { r with tables := { r.tables with targets := called.targets }, lanes := r.lanes.set laneId called.lane }

/-! ## Ledger -/

/-- The ids that were given to targets, and the lanes and ids of the targets that were marked. -/
structure Ledger where
  given : List Int
  marked : List (Nat × Int)

def Ledger.initial : Ledger := ⟨[], []⟩

/-- The ids that a frame gives. -/
def newIds (region : Region) (s : Tables) (f : Sighting) : List Int :=
  (numbered s.targetId (promoted region (matched region s f).candidates)).map Target.vehicleId

/-- The targets that a lane marks. -/
def marking (cfg : RoadCfg) (r : Road) (laneId : Nat) (l : Lane) : List Target :=
  r.tables.targets.filter (marks (cfg.coil laneId) l.bCanBeginCount)

def record (cfg : RoadCfg) (r : Road) (ledger : Ledger) : RoadAction → Ledger
  | .getTarget f => { ledger with given := ledger.given ++ newIds cfg.region r.tables f }
  | .speedCaculate laneId _ =>
    match r.lanes[laneId]? with
    | none => ledger
    | some l => { ledger with marked := ledger.marked ++ (marking cfg r laneId l).map fun t => (laneId, t.vehicleId) }

/-- A step of the camera with its ledger. -/
def ledgerStep (cfg : RoadCfg) (s : Road × Ledger) (act : RoadAction) : Except TableFault (Road × Ledger) := do
  let r ← roadStep cfg s.1 act
  return (r, record cfg s.1 s.2 act)

/-- The marks and the counts agree: each lane counted as many vehicles as it marked targets, and marked
none twice. -/
structure Tallied (s : Road × Ledger) : Prop where
  sums : ∀ laneId l, s.1.lanes[laneId]? = some l → l.uDetectInSum = uint32 (s.2.marked.countP fun m => m.1 == laneId)
  once : s.2.marked.Nodup

/-! ## When they agree -/

/-- The detection replaces a target that is marked: `get_target` initialises the entry again. -/
def replaces (region : Region) (s : Tables) (roi : Rect) : Bool :=
  !below region roi &&
    match findNearestIn roi s.targets with
    | none => false
    | some near =>
      decide (near.overlapRatio1 < 20) && decide (90 < near.overlapRatio2) && (s.targets[near.index]?).any Target.flowCount

/-- No detection of the frame replaces a target that is marked. -/
def keepsMarks (region : Region) : Tables → List Rect → Bool
  | _, [] => true
  | s, roi :: rois => !replaces region s roi && keepsMarks region (associated region s roi) rois

/-- The lane counts a vehicle now if it sees one. -/
structure ReadyNow (cfg : RoadCfg) (r : Road) (l : Lane) : Prop where
  interval : guMinCountIntervalFrame ≤ l.uCountIntervalFrame
  lxtime : 0 < int16 (l.lxtime + 1)
  gap : (cfg.uGetBackMinContiuFrame.val : Int) ≤ sinceEntry r.gThisFrameTime l

/-- The step does not part marks and counts: a frame replaces no marked target, and a lane marks at most
one target and is then ready to count it. -/
def Together (cfg : RoadCfg) (r : Road) : RoadAction → Prop
  | .getTarget f => keepsMarks cfg.region (track r.tables f) f.vehicleROI = true
  | .speedCaculate laneId _ => ∀ l, r.lanes[laneId]? = some l →
    (marking cfg r laneId l).length ≤ 1 ∧ (marking cfg r laneId l ≠ [] → ReadyNow cfg r l)

/-! ## One step -/

/-- The id of a target with its mark. -/
def tag (t : Target) : Int × Bool := (t.vehicleId, t.flowCount)

theorem associateTarget_tag {roi : Rect} {near : Near} {t : Target}
    (kept : near.overlapRatio1 < 20 → 90 < near.overlapRatio2 → t.flowCount = false) : tag (associateTarget roi near t) = tag t := by
  unfold associateTarget
  split
  next small =>
    split
    next inside =>
      rw [tag, tag, kept small inside]
      rfl
    next => rfl
  next => rfl

/-- A detection that replaces no marked target keeps ids and marks. -/
theorem associated_tags {region : Region} {s : Tables} {roi : Rect} (kept : replaces region s roi = false) :
    (associated region s roi).targets.map tag = s.targets.map tag := by
  unfold associated
  split
  next => rfl
  next above =>
    split
    next near there =>
      apply List.ext_getElem?
      intro i
      rw [List.getElem?_map, List.getElem?_map, List.getElem?_modify]
      cases here : s.targets[i]? with
      | none => rfl
      | some t =>
        by_cases found : near.index = i
        · have unmarked : near.overlapRatio1 < 20 → 90 < near.overlapRatio2 → t.flowCount = false := by
            intro small inside
            simpa [replaces, above, there, small, inside, found, here] using kept
          simp [found, associateTarget_tag unmarked]
        · simp [found]
    next =>
      split
      next => rfl
      next => rfl

theorem track_tags (s : Tables) (f : Sighting) : (track s f).targets.map tag = s.targets.map tag := by
  apply List.ext_getElem?
  intro i
  simp only [track, lkTracker, List.getElem?_map, List.getElem?_mapIdx]
  cases s.targets[i]? with
  | none => rfl
  | some t =>
    show some (tag (lkTrack t (f.trackTargets i))) = some (tag t)
    cases f.trackTargets i with
    | still => rfl
    | moved next vx vy => rfl
    | lost => rfl

/-- **Tracking and detections keep ids and marks** if no marked target is replaced. -/
theorem matched_tags {region : Region} {s : Tables} {f : Sighting} (kept : keepsMarks region (track s f) f.vehicleROI = true) :
    (matched region s f).targets.map tag = s.targets.map tag := by
  have keep : ∀ (rois : List Rect) (u : Tables), keepsMarks region u rois = true →
      (rois.foldl (associated region) u).targets.map tag = u.targets.map tag := by
    intro rois
    induction rois with
    | nil => exact fun u _ => rfl
    | cons roi rois ih =>
      intro u kept
      rw [keepsMarks, Bool.and_eq_true, Bool.not_eq_true'] at kept
      exact (ih _ kept.2).trans (associated_tags kept.1)
  exact (keep f.vehicleROI (track s f) kept).trans (track_tags s f)

theorem updateTarget_tag {region : Region} {t u : Target} (stay : updateTarget region t = some u) : tag u = tag t := by
  unfold updateTarget at stay
  split at stay
  next => cases stay
  next =>
    split at stay
    next => cases stay
    next =>
      cases stay
      rfl

/-- A target after a frame was one before, or its id is new. -/
theorem advanced_mem {region : Region} {s : Tables} {f : Sighting} (kept : keepsMarks region (track s f) f.vehicleROI = true)
    {t : Target} (member : t ∈ (advanced region s f).targets) :
    tag t ∈ s.targets.map tag ∨ t.vehicleId ∈ newIds region s f := by
  rw [advanced, List.mem_append] at member
  rcases member with old | new
  · left
    obtain ⟨u, there, stay⟩ := List.mem_filterMap.mp old
    rw [← matched_tags kept, updateTarget_tag stay]
    exact List.mem_map_of_mem there
  · right
    rw [(matched_targets region s f).2] at new
    exact List.mem_map_of_mem new

/-- The ledger of a camera whose marks and counts agree: live targets and marked ones have ids that were
given, and a target without a mark is not in the ledger. -/
structure Audited (s : Road × Ledger) : Prop where
  fits : Fits s.1.tables
  ids : (s.1.tables.targets.map Target.vehicleId).Nodup
  live : ∀ t ∈ s.1.tables.targets, t.vehicleId ∈ s.2.given
  known : ∀ m ∈ s.2.marked, m.2 ∈ s.2.given
  once : (s.2.marked.map Prod.snd).Nodup
  fresh : ∀ t ∈ s.1.tables.targets, t.flowCount = false → t.vehicleId ∉ s.2.marked.map Prod.snd
  sums : ∀ laneId l, s.1.lanes[laneId]? = some l → l.uDetectInSum = uint32 (s.2.marked.countP fun m => m.1 == laneId)

theorem audited_initial (laneAmount : Nat) : Audited (Road.initial laneAmount, Ledger.initial) := by
  refine ⟨fits_initial, List.nodup_nil, fun t member => (nomatch member), fun m member => (nomatch member), List.nodup_nil,
    fun t member => (nomatch member), fun laneId l there => ?_⟩
  rw [List.eq_of_mem_replicate (List.mem_of_getElem? there)]
  rfl

/-- **A frame** keeps the ledger if it replaces no marked target and gives new ids. -/
theorem getTarget_audited {cfg : RoadCfg} {r : Road} {ledger : Ledger} {f : Sighting} {tables : Tables}
    (inv : Audited (r, ledger)) (kept : keepsMarks cfg.region (track r.tables f) f.vehicleROI = true)
    (unique : (ledger.given ++ newIds cfg.region r.tables f).Nodup) (done : getTarget cfg.region r.tables f = .ok tables)
    (time : Int) :
    Audited ({ r with tables := tables, gThisFrameTime := time }, record cfg r ledger (.getTarget f)) := by
  obtain ⟨room, rfl⟩ := (getTarget_ok_iff inv.fits).mp done
  obtain ⟨_, newNodup, apart⟩ := List.nodup_append.mp unique
  have old := stays_ids cfg.region r.tables f
  have oldGiven : ∀ id ∈ r.tables.targets.map Target.vehicleId, id ∈ ledger.given := by
    intro id member
    obtain ⟨t, there, rfl⟩ := List.mem_map.mp member
    exact inv.live t there
  refine ⟨advanced_fits room, ?_, ?_, ?_, inv.once, ?_, inv.sums⟩
  · show ((advanced cfg.region r.tables f).targets.map Target.vehicleId).Nodup
    rw [(advanced_keepsIds cfg.region r.tables f).stay]
    refine List.nodup_append.mpr ⟨inv.ids.sublist old, newNodup, fun a inA b inB => ?_⟩
    exact apart a (oldGiven a (old.subset inA)) b inB
  · intro t member
    apply List.mem_append.mpr
    rcases advanced_mem kept member with there | new
    · left
      obtain ⟨u, there, same⟩ := List.mem_map.mp there
      have id : u.vehicleId = t.vehicleId := congrArg Prod.fst same
      rw [← id]
      exact inv.live u there
    · exact .inr new
  · exact fun m member => List.mem_append_left _ (inv.known m member)
  · intro t member unmarked
    rcases advanced_mem kept member with there | new
    · obtain ⟨u, there, same⟩ := List.mem_map.mp there
      have id : u.vehicleId = t.vehicleId := congrArg Prod.fst same
      have mark : u.flowCount = t.flowCount := congrArg Prod.snd same
      rw [← id]
      exact inv.fresh u there (mark.trans unmarked)
    · intro inLedger
      obtain ⟨m, there, same⟩ := List.mem_map.mp inLedger
      exact apart m.2 (inv.known m there) t.vehicleId new same

theorem callLane_targets (cfg : RoadCfg) (r : Road) (laneId : Nat) (images : Images) (l : Lane) :
    (callLane cfg r laneId images l).targets = r.tables.targets.map fun t =>
      if marks (cfg.coil laneId) l.bCanBeginCount t then { t with flowCount := true } else t :=
  crossTargets_targets (cfg.coil laneId) l r.tables.targets

/-- A lane that marks nothing counts nothing, and one that is ready counts what it marks. -/
theorem callLane_uDetectInSum {cfg : RoadCfg} {r : Road} {laneId : Nat} {l : Lane}
    (single : (marking cfg r laneId l).length ≤ 1 ∧ (marking cfg r laneId l ≠ [] → ReadyNow cfg r l)) (images : Images) :
    (callLane cfg r laneId images l).lane.uDetectInSum =
      if marking cfg r laneId l = [] then l.uDetectInSum else uint32 (l.uDetectInSum + 1) := by
  have paired : Paired false l := fun night => (nomatch night)
  obtain ⟨⟨leaving, passes⟩, _⟩ := speedCaculate_passes paired cfg.uGetBackMinContiuFrame.val r.gThisFrameTime
    (f := laneFrame cfg r laneId images) rfl
  rw [callLane, passes.inSum]
  by_cases none : marking cfg r laneId l = []
  · have quiet : r.tables.targets.any (marks (cfg.coil laneId) l.bCanBeginCount) = false := by
      rw [List.any_eq_false]
      exact List.filter_eq_nil_iff.mp none
    rw [if_pos none, if_neg]
    simp [enters, laneFrame, quiet]
  · obtain ⟨interval, lxtime, gap⟩ := single.2 none
    obtain ⟨t, marked⟩ := List.exists_mem_of_ne_nil _ none
    obtain ⟨there, marks⟩ := List.mem_filter.mp marked
    have free : l.bCanBeginCount = false := by
      rw [Alg.marks, Bool.and_eq_true, Bool.not_eq_true'] at marks
      exact marks.2
    have seen : r.tables.targets.any (Alg.marks (cfg.coil laneId) l.bCanBeginCount) = true := List.any_eq_true.mpr ⟨t, there, marks⟩
    rw [free] at seen
    rw [if_neg none, if_pos]
    simp [enters, laneFrame, smallestGap, free, seen, interval, lxtime, gap]

/-- What a lane leaves without a mark had none before, and is not what it marks. -/
theorem callLane_unmarked {cfg : RoadCfg} {r : Road} {laneId : Nat} {images : Images} {l : Lane} {t : Target}
    (member : t ∈ (callLane cfg r laneId images l).targets) (unmarked : t.flowCount = false) :
    t ∈ r.tables.targets ∧ t ∉ marking cfg r laneId l := by
  rw [callLane_targets, List.mem_map] at member
  obtain ⟨u, there, rfl⟩ := member
  by_cases now : marks (cfg.coil laneId) l.bCanBeginCount u = true
  · rw [if_pos now] at unmarked
    cases unmarked
  · rw [if_neg now] at unmarked ⊢
    exact ⟨there, fun marked => now (List.mem_filter.mp marked).2⟩

theorem callLane_vehicleId (cfg : RoadCfg) (r : Road) (laneId : Nat) (images : Images) (l : Lane) :
    (callLane cfg r laneId images l).targets.map Target.vehicleId = r.tables.targets.map Target.vehicleId := by
  rw [callLane_targets, List.map_map]
  apply List.map_congr_left
  intro t _
  show (if _ then _ else _ : Target).vehicleId = t.vehicleId
  split
  next => rfl
  next => rfl

/-- What a lane marks was not marked before. -/
theorem marking_unmarked {cfg : RoadCfg} {r : Road} {laneId : Nat} {l : Lane} {t : Target} (marked : t ∈ marking cfg r laneId l) :
    t ∈ r.tables.targets ∧ t.flowCount = false := by
  obtain ⟨there, marks⟩ := List.mem_filter.mp marked
  rw [Alg.marks, Bool.and_eq_true, Bool.and_eq_true, Bool.not_eq_true'] at marks
  exact ⟨there, marks.1.2⟩

/-- The totals of the lanes after a call are the numbers of marks. -/
theorem callLane_sums {cfg : RoadCfg} {r : Road} {ledger : Ledger} {laneId : Nat} {l : Lane} (inv : Audited (r, ledger))
    (there : r.lanes[laneId]? = some l)
    (single : (marking cfg r laneId l).length ≤ 1 ∧ (marking cfg r laneId l ≠ [] → ReadyNow cfg r l)) (images : Images) (i : Nat)
    (l' : Lane) (here : (r.lanes.set laneId (callLane cfg r laneId images l).lane)[i]? = some l') :
    l'.uDetectInSum =
      uint32 ((ledger.marked ++ (marking cfg r laneId l).map fun t => (laneId, t.vehicleId)).countP fun m => m.1 == i) := by
  rw [List.countP_append, List.countP_map]
  by_cases same : laneId = i
  · subst same
    have new : l' = (callLane cfg r laneId images l).lane := by
      have bound : laneId < r.lanes.length := (List.getElem?_eq_some_iff.mp there).1
      simpa [bound, eq_comm] using here
    have all : (marking cfg r laneId l).countP ((fun m : Nat × Int => m.1 == laneId) ∘ fun t => (laneId, t.vehicleId)) =
        (marking cfg r laneId l).length := List.countP_eq_length.mpr fun _ _ => by simp
    rw [new, callLane_uDetectInSum single, all, inv.sums laneId l there]
    split
    next none => rw [none, List.length_nil, Nat.add_zero]
    next some =>
      have one : (marking cfg r laneId l).length = 1 := by
        have positive := List.length_pos_iff.mpr some
        omega
      rw [one]
      exact Int.emod_add_emod _ 4294967296 1
  · have old : r.lanes[i]? = some l' := by simpa [same] using here
    have no : (marking cfg r laneId l).countP ((fun m : Nat × Int => m.1 == i) ∘ fun t => (laneId, t.vehicleId)) = 0 := by
      rw [List.countP_eq_zero]
      simp [same]
    rw [no, Nat.add_zero]
    exact inv.sums i l' old

/-- **A call for a lane** keeps the ledger if the lane marks at most one target and counts it. -/
theorem speedCaculate_audited {cfg : RoadCfg} {r : Road} {ledger : Ledger} {laneId : Nat} {l : Lane}
    (inv : Audited (r, ledger)) (there : r.lanes[laneId]? = some l)
    (single : (marking cfg r laneId l).length ≤ 1 ∧ (marking cfg r laneId l ≠ [] → ReadyNow cfg r l)) (images : Images) :
    Audited ({ r with
        tables := { r.tables with targets := (callLane cfg r laneId images l).targets }
        lanes := r.lanes.set laneId (callLane cfg r laneId images l).lane },
      { ledger with marked := ledger.marked ++ (marking cfg r laneId l).map fun t => (laneId, t.vehicleId) }) := by
  have ids := callLane_vehicleId cfg r laneId images l
  have markedIds : ((marking cfg r laneId l).map Target.vehicleId).Nodup := inv.ids.sublist (List.filter_sublist.map _)
  have snd : (ledger.marked ++ (marking cfg r laneId l).map fun t => (laneId, t.vehicleId)).map Prod.snd =
      ledger.marked.map Prod.snd ++ (marking cfg r laneId l).map Target.vehicleId := by
    rw [List.map_append, List.map_map]
    rfl
  refine ⟨⟨?_, inv.fits.candidates⟩, ?_, ?_, ?_, ?_, ?_, ?_⟩
  · have length := congrArg List.length ids
    rw [List.length_map, List.length_map] at length
    exact length.symm ▸ inv.fits.targets
  · exact ids.symm ▸ inv.ids
  · intro t member
    have old : t.vehicleId ∈ r.tables.targets.map Target.vehicleId := ids ▸ List.mem_map_of_mem member
    obtain ⟨u, there, same⟩ := List.mem_map.mp old
    rw [← same]
    exact inv.live u there
  · intro m member
    rcases List.mem_append.mp member with old | new
    · exact inv.known m old
    · obtain ⟨t, marked, rfl⟩ := List.mem_map.mp new
      exact inv.live t (marking_unmarked marked).1
  · show ((ledger.marked ++ _).map Prod.snd).Nodup
    rw [snd]
    refine List.nodup_append.mpr ⟨inv.once, markedIds, fun a inA b inB same => ?_⟩
    obtain ⟨t, marked, rfl⟩ := List.mem_map.mp inB
    obtain ⟨there, unmarked⟩ := marking_unmarked marked
    exact inv.fresh t there unmarked (same ▸ inA)
  · intro t member unmarked
    show t.vehicleId ∉ (ledger.marked ++ _).map Prod.snd
    rw [snd, List.mem_append]
    obtain ⟨before, spared⟩ := callLane_unmarked member unmarked
    rintro (old | new)
    · exact inv.fresh t before unmarked old
    · obtain ⟨u, marked, same⟩ := List.mem_map.mp new
      have one : u = t := List.inj_on_of_nodup_map inv.ids (marking_unmarked marked).1 before same
      exact spared (one ▸ marked)
  · exact callLane_sums inv there single images

/-! ## Runs -/

/-- What a step of the camera with its ledger does. -/
theorem ledgerStep_ok {cfg : RoadCfg} {s t : Road × Ledger} {act : RoadAction} (done : ledgerStep cfg s act = .ok t) :
    roadStep cfg s.1 act = .ok t.1 ∧ t.2 = record cfg s.1 s.2 act := by
  obtain ⟨r, road, same⟩ := bind_ok done
  cases same
  exact ⟨road, rfl⟩

/-- **One step** keeps the ledger if it does not part marks and counts and the ids are unique. -/
theorem ledgerStep_audited {cfg : RoadCfg} {s t : Road × Ledger} {act : RoadAction} (inv : Audited s)
    (together : Together cfg s.1 act) (done : ledgerStep cfg s act = .ok t) (unique : t.2.given.Nodup) : Audited t := by
  obtain ⟨r, ledger⟩ := s
  obtain ⟨r', ledger'⟩ := t
  obtain ⟨road, rfl⟩ := ledgerStep_ok done
  cases act with
  | getTarget f =>
    obtain ⟨tables', tables, same⟩ := bind_ok road
    cases same
    exact getTarget_audited inv together unique tables _
  | speedCaculate laneId images =>
    cases there : r.lanes[laneId]? with
    | none =>
      simp only [roadStep, there] at road
      cases road
      simp only [record, there]
      exact inv
    | some l =>
      simp only [roadStep, there] at road
      cases road
      simp only [record, there]
      exact speedCaculate_audited inv there (together l there) images

theorem ledgerStep_given {cfg : RoadCfg} {s t : Road × Ledger} {act : RoadAction} (done : ledgerStep cfg s act = .ok t) :
    List.Sublist s.2.given t.2.given := by
  obtain ⟨_, record⟩ := ledgerStep_ok done
  rw [record]
  cases act with
  | getTarget f => exact List.sublist_append_left _ _
  | speedCaculate laneId images =>
    cases there : s.1.lanes[laneId]? with
    | none => simp [Alg.record, there]
    | some l => simp [Alg.record, there]

theorem run_given {cfg : RoadCfg} {acts : List RoadAction} {s t : Road × Ledger} (run : acts.foldlM (ledgerStep cfg) s = .ok t) :
    List.Sublist s.2.given t.2.given :=
  foldlM_invariant (fun _ u => List.Sublist s.2.given u.2.given) (fun _ _ _ _ more done => more.trans (ledgerStep_given done))
    (List.Sublist.refl _) run

/-- **Marks and counts**: in a run by day with unique ids, if no step replaces a marked target, marks two
targets in a lane or marks one in a lane that is not ready, every lane has counted each target that it
marked once, in every state. -/
theorem marked_targets_counted (cfg : RoadCfg) (laneAmount : Nat) (acts : List RoadAction) (final : Road × Ledger)
    (run : acts.foldlM (ledgerStep cfg) (Road.initial laneAmount, Ledger.initial) = .ok final) (unique : final.2.given.Nodup)
    (together : ∀ before act after s, acts = before ++ act :: after →
      before.foldlM (ledgerStep cfg) (Road.initial laneAmount, Ledger.initial) = .ok s → Together cfg s.1 act) :
    ∀ before after s, acts = before ++ after →
      before.foldlM (ledgerStep cfg) (Road.initial laneAmount, Ledger.initial) = .ok s → Tallied s := by
  intro before after s split reached
  have given : s.2.given.Nodup := by
    rw [split, foldlM_append_of_ok reached] at run
    exact unique.sublist (run_given run)
  have audited : s.2.given.Nodup → Audited s := by
    refine foldlM_keeps (fun _ u => u.2.given.Nodup → Audited u) (fun _ u act => Together cfg u.1 act)
      (fun _ act u v inv good done nodup => ?_) (fun _ => audited_initial laneAmount) together split reached
    exact ledgerStep_audited (inv (nodup.sublist (ledgerStep_given done))) good done nodup
  have inv := audited given
  exact ⟨inv.sums, List.Nodup.of_map _ inv.once⟩

instance (cfg : RoadCfg) (r : Road) (l : Lane) : Decidable (ReadyNow cfg r l) :=
  decidable_of_iff (guMinCountIntervalFrame ≤ l.uCountIntervalFrame ∧ 0 < int16 (l.lxtime + 1) ∧
    (cfg.uGetBackMinContiuFrame.val : Int) ≤ sinceEntry r.gThisFrameTime l)
    ⟨fun ready => ⟨ready.1, ready.2.1, ready.2.2⟩, fun ready => ⟨ready.1, ready.2, ready.3⟩⟩

instance (cfg : RoadCfg) (r : Road) : (act : RoadAction) → Decidable (Together cfg r act)
  | .getTarget f => inferInstanceAs (Decidable (keepsMarks cfg.region (track r.tables f) f.vehicleROI = true))
  | .speedCaculate laneId _ =>
    decidable_of_iff (∀ l ∈ r.lanes[laneId]?, (marking cfg r laneId l).length ≤ 1 ∧ (marking cfg r laneId l ≠ [] → ReadyNow cfg r l))
      (by simp [Together])

/-- A camera with one lane whose coil lies between two lines of the image. -/
def sampleRoad : RoadCfg := ⟨sampleRegion, 0, fun _ vehicle => decide (120 < vehicle.y + vehicle.height ∧ vehicle.y + vehicle.height < 210)⟩

/-- A frame of a camera with one lane. -/
def roadFrame (vehicles : Sighting) : List RoadAction :=
  [.getTarget vehicles, .speedCaculate 0 ⟨true, false, false, false, false⟩]

/-- No vehicle is detected. -/
def emptyRoad : Sighting := { drift with trackCandidates := fun _ => .still }

/-- Two vehicles are detected, one behind the other. -/
def platoon : Sighting := ⟨fun _ => .still, fun _ => .still, [⟨100, 100, 32, 40⟩, ⟨100, 150, 32, 40⟩], by decide⟩

/-- What is detected in two frames, after the lane became ready. -/
def arrival (vehicles : Sighting) : List RoadAction :=
  (List.replicate 5 (roadFrame emptyRoad)).flatten ++ roadFrame vehicles ++ roadFrame vehicles

/-- A single vehicle is marked and counted. -/
theorem passing_tallied :
    ∃ final, (arrival passing).foldlM (ledgerStep sampleRoad) (Road.initial 1, Ledger.initial) = .ok final ∧
      final.2.marked = [(0, 1)] ∧ Tallied final := by
  have ledger : ((arrival passing).foldlM (ledgerStep sampleRoad) (Road.initial 1, Ledger.initial)).toOption.map
      (fun s => (s.2.marked, s.2.given)) = some ([(0, 1)], [1]) := by decide +kernel
  have all : Along (ledgerStep sampleRoad) (fun s act => Together sampleRoad s.1 act) (Road.initial 1, Ledger.initial)
      (arrival passing) := by decide +kernel
  cases run : (arrival passing).foldlM (ledgerStep sampleRoad) (Road.initial 1, Ledger.initial) with
  | error fault =>
    rw [run] at ledger
    cases ledger
  | ok final =>
    rw [run] at ledger
    obtain ⟨marked, given⟩ := Prod.mk.inj (Option.some.inj ledger)
    refine ⟨final, rfl, marked, ?_⟩
    exact marked_targets_counted sampleRoad 1 (arrival passing) final run (by rw [given]; decide)
      (fun _ _ _ _ split reached => along_split all split reached) (arrival passing) [] final (List.append_nil _).symm run

/-- Two vehicles in the coil are both marked in one frame, and one is counted. -/
theorem platoon_parted :
    ((arrival platoon).foldlM (ledgerStep sampleRoad) (Road.initial 1, Ledger.initial)).toOption.map
      (fun s => (s.1.lanes.map Lane.uDetectInSum, s.2.marked, s.2.given)) = some ([1], [(0, 1), (0, 2)], [1, 2]) := by
  decide +kernel

end VideoDetector.Alg
