import Mathlib.Data.List.Nodup
import VideoDetector.Alg.Targets

/-!
# Runs of the tracker

`get_target` is called for every frame. A table overflows when a frame brings more vehicles than it has
room for: candidates have no age and are only removed when they leave the region. The ids come from a
counter that starts with one and, after a thousand, goes on with zero.
-/

namespace VideoDetector.Alg
set_option autoImplicit false
open Lib

/-! ## Capacity -/

theorem numbered_length (id : Int) (cs : List Target) : (numbered id cs).length = cs.length := by
  induction cs generalizing id with
  | nil => rfl
  | cons c cs ih => rw [numbered, List.length_cons, ih, List.length_cons]

theorem matched_candidates_length (region : Region) (s : Tables) (f : Sighting) :
    (matched region s f).candidates.length = s.candidates.length + unmatched region (track s f) f.vehicleROI := by
  have all : ∀ (rois : List Rect) (u : Tables),
      (rois.foldl (associated region) u).candidates.length = u.candidates.length + unmatched region u rois := by
    intro rois
    induction rois with
    | nil => exact fun u => rfl
    | cons roi rois ih =>
      intro u
      rw [List.foldl_cons, ih, associated_candidates_length, unmatched, Nat.add_assoc]
  rw [matched, all, track_candidates_length]

/-- A frame that finds room leaves the tables within their arrays. -/
theorem advanced_fits {region : Region} {s : Tables} {f : Sighting} (room : Room region s f) : Fits (advanced region s f) := by
  refine ⟨?_, ?_⟩
  · show (_ ++ _ : List Target).length ≤ _
    rw [List.length_append, numbered_length]
    exact room.targets
  · calc (waiting region (matched region s f).candidates).length
        ≤ ((matched region s f).candidates.filterMap (updateCandidate region)).length := List.length_filter_le _ _
      _ ≤ (matched region s f).candidates.length := List.length_filterMap_le _ _
      _ = s.candidates.length + unmatched region (track s f) f.vehicleROI := matched_candidates_length region s f
      _ ≤ tableMax := room.candidates

/-- `get_target` writes within the arrays exactly if it finds room. -/
theorem getTarget_ok_iff {region : Region} {s t : Tables} (fits : Fits s) {f : Sighting} :
    getTarget region s f = .ok t ↔ Room region s f ∧ t = advanced region s f := by
  rw [getTarget_eq region fits]
  split
  next candidates =>
    split
    next targets =>
      constructor
      · intro done
        cases done
        exact ⟨⟨candidates, targets⟩, rfl⟩
      · rintro ⟨_, rfl⟩
        rfl
    next targets => exact ⟨fun done => (nomatch done), fun room => absurd room.1.targets targets⟩
  next candidates => exact ⟨fun done => (nomatch done), fun room => absurd room.1.candidates candidates⟩

theorem fits_initial : Fits Tables.initial := ⟨Nat.zero_le _, Nat.zero_le _⟩

/-- Every state that a run reaches is within the arrays. -/
theorem run_fits {region : Region} {frames : List Sighting} {s : Tables}
    (run : frames.foldlM (getTarget region) Tables.initial = .ok s) : Fits s := by
  refine foldlM_invariant (fun _ s => Fits s) (fun _ f s t fits done => ?_) fits_initial run
  obtain ⟨room, rfl⟩ := (getTarget_ok_iff fits).mp done
  exact advanced_fits room

/-- **The tables are large enough** for a run, and every write stays inside the arrays, exactly if every
frame finds room: for its detections near no entry, and for the candidates that become targets beside
the targets that stay. -/
theorem target_tables_iff (region : Region) (frames : List Sighting) :
    (∀ before after, frames = before ++ after →
        ∃ s, before.foldlM (getTarget region) Tables.initial = .ok s ∧
          s.targets.length ≤ tableMax ∧ s.candidates.length ≤ tableMax) ↔
      ∀ before f after s, frames = before ++ f :: after → before.foldlM (getTarget region) Tables.initial = .ok s →
        Room region s f := by
  constructor
  · intro enough before f after s split reached
    obtain ⟨t, run, _⟩ := enough (before ++ [f]) after (by rw [split, List.append_assoc]; rfl)
    obtain ⟨s', reached', last⟩ := foldlM_append_ok run
    cases reached.symm.trans reached'
    have done : getTarget region s f = .ok t := by
      rw [List.foldlM_cons] at last
      obtain ⟨u, step, same⟩ := bind_ok last
      cases same
      exact step
    exact ((getTarget_ok_iff (run_fits reached)).mp done).1
  · intro room before after split
    obtain ⟨s, run⟩ : ∃ s, before.foldlM (getTarget region) Tables.initial = .ok s := by
      rw [foldlM_ok_iff]
      rintro first f last t rfl reached
      refine ⟨advanced region t f, (getTarget_ok_iff (run_fits reached)).mpr ⟨?_, rfl⟩⟩
      exact room first f (last ++ after) t (by rw [split, List.append_assoc]; rfl) reached
    exact ⟨s, run, (run_fits run).targets, (run_fits run).candidates⟩

/-- The region of a camera whose lanes end at the line 440 of the image. -/
def sampleRegion : Region := ⟨⟨0, 70, 320, 170⟩, 220⟩

/-- Boxes beside one another, nine in a row. -/
def cell (k : Nat) : Rect := ⟨32 * (k % 9 : Nat), 71 + 40 * (k / 9 : Nat), 32, 40⟩

/-- Vehicles at all boxes from a given one on. -/
def crowded (first : Nat) : Sighting :=
  ⟨fun _ => .still, fun _ => .still, (List.range (36 - first)).map fun k => cell (k + first), by simp; omega⟩

/-- The tracker moves every candidate to the first box. -/
def drift : Sighting := ⟨fun _ => .still, fun _ => .moved (cell 0) 0 0, [], Nat.zero_le _⟩

/-- The third crowd finds no room: every vehicle of the first two is still a candidate. -/
theorem crowded_overflows :
    ([crowded 0, drift, crowded 1, drift, crowded 1].foldlM (getTarget sampleRegion) Tables.initial).toOption.isNone := by
  decide +kernel

/-! ## Ids -/

/-- The id that is given after so many were given. -/
def idAt (given : Nat) : Int := ((given + 1) % 1001 : Nat)

theorem nextId_idAt (given : Nat) : nextId (idAt given) = idAt (given + 1) := by
  unfold nextId idAt
  split <;> omega

theorem numbered_vehicleId (given : Nat) (cs : List Target) :
    (numbered (idAt given) cs).map Target.vehicleId = (List.range' given cs.length).map idAt := by
  induction cs generalizing given with
  | nil => rfl
  | cons c cs ih =>
    rw [numbered, nextId_idAt, List.map_cons, ih, List.length_cons, List.range'_succ, List.map_cons]

theorem nextId_iterate (given n : Nat) : nextId^[n] (idAt given) = idAt (given + n) := by
  induction n with
  | zero => rfl
  | succ n ih => rw [Function.iterate_succ_apply', ih, nextId_idAt, Nat.add_assoc]

/-- How many candidates become targets in a run. -/
def promotions (region : Region) : Tables → List Sighting → Nat
  | _, [] => 0
  | s, f :: fs => (promoted region (matched region s f).candidates).length + promotions region (advanced region s f) fs

theorem promotions_snoc (region : Region) (s : Tables) (fs : List Sighting) (f : Sighting) :
    promotions region s (fs ++ [f]) =
      promotions region s fs + (promoted region (matched region (fs.foldl (advanced region) s) f).candidates).length := by
  induction fs generalizing s with
  | nil => simp [promotions]
  | cons g gs ih => rw [List.cons_append, promotions, ih, promotions, List.foldl_cons, Nat.add_assoc]

theorem promotions_append (region : Region) (s : Tables) (fs gs : List Sighting) :
    promotions region s fs ≤ promotions region s (fs ++ gs) := by
  induction fs generalizing s with
  | nil => exact Nat.zero_le _
  | cons f fs ih => exact Nat.add_le_add_left (ih _) _

/-- The targets that stay after the detections. -/
def stays (region : Region) (t : Target) : Bool := (updateTarget region t).isSome

/-- The ids after a frame: the tracker and the detections leave the id at each place, the targets that
stay keep theirs, and the new ones are given the next. -/
structure KeepsIds (region : Region) (s : Tables) (f : Sighting) (t : Tables) : Prop where
  matched : (matched region s f).targets.map Target.vehicleId = s.targets.map Target.vehicleId
  stay : t.targets.map Target.vehicleId =
    ((Alg.matched region s f).targets.filter (stays region)).map Target.vehicleId ++
      (numbered s.targetId (promoted region (Alg.matched region s f).candidates)).map Target.vehicleId

/-- No two targets have the same id, and none has the id of a lane that saw no vehicle. -/
structure UniqueIds (s : Tables) : Prop where
  nodup : (s.targets.map Target.vehicleId).Nodup
  nonzero : (0 : Int) ∉ s.targets.map Target.vehicleId

theorem updateTarget_vehicleId {region : Region} {t u : Target} (stay : updateTarget region t = some u) :
    u.vehicleId = t.vehicleId := by
  unfold updateTarget at stay
  split at stay
  next => cases stay
  next =>
    split at stay
    next => cases stay
    next =>
      cases stay
      rfl

theorem filterMap_updateTarget (region : Region) (ts : List Target) :
    (ts.filterMap (updateTarget region)).map Target.vehicleId = (ts.filter (stays region)).map Target.vehicleId := by
  induction ts with
  | nil => rfl
  | cons t ts ih =>
    cases here : updateTarget region t with
    | none => simp [here, stays, ih]
    | some u => simp [here, stays, ih, updateTarget_vehicleId here]

theorem advanced_keepsIds (region : Region) (s : Tables) (f : Sighting) : KeepsIds region s f (advanced region s f) := by
  obtain ⟨ids, next⟩ := matched_targets region s f
  refine ⟨ids, ?_⟩
  show (_ ++ _ : List Target).map Target.vehicleId = _
  rw [List.map_append, filterMap_updateTarget, next]

/-- The ids after so many promotions: the counter, and ids that were given before it wrapped. -/
structure Given (given : Nat) (s : Tables) : Prop where
  next : s.targetId = idAt given
  unique : given ≤ 1000 → UniqueIds s ∧ ∀ id ∈ s.targets.map Target.vehicleId, id ≤ given

theorem idAt_of_le {given : Nat} (few : given < 1000) : idAt given = given + 1 := by
  unfold idAt
  omega

/-- The targets that stay have ids that were there. -/
theorem stays_ids (region : Region) (s : Tables) (f : Sighting) :
    List.Sublist (((matched region s f).targets.filter (stays region)).map Target.vehicleId) (s.targets.map Target.vehicleId) := by
  rw [← (matched_targets region s f).1]
  exact List.filter_sublist.map _

/-- The ids that are given one after another, up to a thousand. -/
theorem idAt_range' {given n : Nat} (few : given + n ≤ 1000) :
    ((List.range' given n).map idAt).Nodup ∧ ∀ id ∈ (List.range' given n).map idAt, (given : Int) < id ∧ id ≤ (given + n : Nat) := by
  constructor
  · refine List.Nodup.map_on (fun a inA b inB same => ?_) List.nodup_range'
    rw [List.mem_range'_1] at inA inB
    rw [idAt_of_le (by omega), idAt_of_le (by omega)] at same
    omega
  · intro id member
    obtain ⟨k, there, rfl⟩ := List.mem_map.mp member
    rw [List.mem_range'_1] at there
    rw [idAt_of_le (by omega)]
    omega

/-- **One frame** hands out the next ids of the counter. -/
theorem advanced_given {given : Nat} {region : Region} {s : Tables} (inv : Given given s) (f : Sighting) :
    Given (given + (promoted region (matched region s f).candidates).length) (advanced region s f) := by
  have kept := advanced_keepsIds region s f
  refine ⟨?_, fun few => ?_⟩
  · show nextId^[_] (matched region s f).targetId = _
    rw [(matched_targets region s f).2, inv.next, nextId_iterate]
  · obtain ⟨before, bound⟩ := inv.unique (by omega)
    have old := stays_ids region s f
    obtain ⟨distinct, new⟩ := idAt_range' few
    have ids : (advanced region s f).targets.map Target.vehicleId =
        ((matched region s f).targets.filter (stays region)).map Target.vehicleId ++
          (List.range' given (promoted region (matched region s f).candidates).length).map idAt := by
      rw [kept.stay, inv.next, numbered_vehicleId]
    refine ⟨⟨?_, ?_⟩, ?_⟩
    · rw [ids]
      refine List.nodup_append.mpr ⟨before.nodup.sublist old, distinct, fun a inA b inB same => ?_⟩
      have := bound a (old.subset inA)
      have := new b inB
      omega
    · rw [ids, List.mem_append]
      rintro (inOld | inNew)
      · exact before.nonzero (old.subset inOld)
      · have := new 0 inNew
        omega
    · intro id member
      rw [ids, List.mem_append] at member
      rcases member with inOld | inNew
      · have := bound id (old.subset inOld)
        omega
      · exact (new id inNew).2

/-- A frame that takes the counter past a thousand leaves a target with the id zero. -/
theorem advanced_wraps {given : Nat} {region : Region} {s : Tables} (inv : Given given s) {f : Sighting} (few : given ≤ 1000)
    (wraps : 1000 < given + (promoted region (matched region s f).candidates).length) : ¬ UniqueIds (advanced region s f) := by
  intro unique
  apply unique.nonzero
  rw [(advanced_keepsIds region s f).stay, inv.next, numbered_vehicleId, List.mem_append]
  right
  rw [List.mem_map]
  refine ⟨1000, ?_, rfl⟩
  rw [List.mem_range'_1]
  omega

/-- A run that stays within the arrays, frame by frame. -/
theorem run_advanced {region : Region} {frames : List Sighting} {s : Tables}
    (run : frames.foldlM (getTarget region) Tables.initial = .ok s) :
    s = frames.foldl (advanced region) Tables.initial ∧ Given (promotions region Tables.initial frames) s := by
  have start : Given (promotions region Tables.initial []) Tables.initial :=
    ⟨rfl, fun _ => ⟨⟨List.nodup_nil, List.not_mem_nil⟩, fun _ member => nomatch member⟩⟩
  refine (foldlM_invariant
    (fun before s => Fits s ∧ s = before.foldl (advanced region) Tables.initial ∧
      Given (promotions region Tables.initial before) s)
    (fun before f s t inv done => ?_) ⟨fits_initial, rfl, start⟩ run).2
  obtain ⟨fits, reached, given⟩ := inv
  obtain ⟨room, rfl⟩ := (getTarget_ok_iff fits).mp done
  refine ⟨advanced_fits room, ?_, ?_⟩
  · rw [List.foldl_append, ← reached]
    rfl
  · rw [promotions_snoc, ← reached]
    exact advanced_given given f

/-- **Vehicle ids**: in a run that stays within the arrays every target keeps its id, and in every
state the ids are different and not zero, exactly if at most a thousand candidates became targets. -/
theorem vehicle_ids_iff (region : Region) (frames : List Sighting) (final : Tables)
    (run : frames.foldlM (getTarget region) Tables.initial = .ok final) :
    (∀ before f after s t, frames = before ++ f :: after → before.foldlM (getTarget region) Tables.initial = .ok s →
        getTarget region s f = .ok t → KeepsIds region s f t ∧ UniqueIds t) ↔
      promotions region Tables.initial frames ≤ 1000 := by
  constructor
  · intro unique
    have few : ∀ before after, frames = before ++ after → promotions region Tables.initial before ≤ 1000 := by
      intro before
      induction before using List.reverseRecOn with
      | nil => exact fun _ _ => Nat.zero_le _
      | append_singleton before f ih =>
        intro after split
        rw [List.append_assoc] at split
        have before_few := ih _ split
        rw [split] at run
        obtain ⟨s, reached, rest⟩ := foldlM_append_ok run
        obtain ⟨t, done⟩ := foldlM_ok_iff.mp ⟨final, rest⟩ [] f after s rfl rfl
        obtain ⟨same, given⟩ := run_advanced reached
        obtain ⟨_, rfl⟩ := (getTarget_ok_iff (run_fits reached)).mp done
        rw [promotions_snoc, ← same]
        by_contra wraps
        exact advanced_wraps given before_few (Nat.lt_of_not_le wraps) (unique before f after s _ split reached done).2
    exact few frames [] (List.append_nil frames).symm
  · rintro few before f after s t rfl reached done
    obtain ⟨_, given⟩ := run_advanced (foldlM_snoc_ok reached done)
    have enough : promotions region Tables.initial (before ++ [f]) ≤ 1000 := by
      refine Nat.le_trans (promotions_append region Tables.initial _ after) ?_
      rwa [List.append_assoc]
    obtain ⟨_, rfl⟩ := (getTarget_ok_iff (run_fits reached)).mp done
    exact ⟨advanced_keepsIds region s f, (given.unique enough).1⟩

/-- A vehicle is detected. -/
def passing : Sighting := ⟨fun _ => .still, fun _ => .still, [⟨100, 100, 32, 40⟩], by decide⟩

/-- The tracker takes every target out of the region. -/
def gone : Sighting := ⟨fun _ => .moved ⟨-1000, 100, 32, 40⟩ 0 0, fun _ => .still, [], by decide⟩

/-- The vehicle as a candidate. -/
def seenOnce : Target := predict (newTarget ⟨100, 100, 32, 40⟩)

/-- The vehicle as a target, but for its id. -/
def seenTwice : Target := predict { seenOnce with tracked := true, detected := true, numDetected := 2 }

theorem passing_first (id : Int) : getTarget sampleRegion ⟨[], [], id⟩ passing = .ok ⟨[], [seenOnce], id⟩ := rfl

theorem passing_second (id : Int) :
    getTarget sampleRegion ⟨[], [seenOnce], id⟩ passing = .ok ⟨[{ seenTwice with vehicleId := id }], [], nextId id⟩ := rfl

/-- The second frame gives the vehicle its id. -/
theorem passing_unique :
    promotions sampleRegion Tables.initial [passing, passing] = 1 ∧
      KeepsIds sampleRegion ⟨[], [seenOnce], 1⟩ passing ⟨[{ seenTwice with vehicleId := 1 }], [], 2⟩ ∧
      UniqueIds ⟨[{ seenTwice with vehicleId := 1 }], [], 2⟩ := by
  refine ⟨by decide +kernel, ?_⟩
  exact (vehicle_ids_iff sampleRegion [passing, passing] _ rfl).mpr (by decide +kernel) [passing] passing [] _ _ rfl rfl (passing_second 1)

theorem gone_empties (id : Int) (t : Target) : getTarget sampleRegion ⟨[t], [], id⟩ gone = .ok ⟨[], [], id⟩ := rfl

/-- In three frames the vehicle comes, is given an id and goes. -/
theorem passing_cycle (id : Int) :
    [passing, passing, gone].foldlM (getTarget sampleRegion) ⟨[], [], id⟩ = .ok ⟨[], [], nextId id⟩ := by
  rw [foldlM_cons_ok (passing_first id), foldlM_cons_ok (passing_second id), foldlM_cons_ok (gone_empties _ _)]
  rfl

theorem passing_cycles (n : Nat) :
    (List.replicate n [passing, passing, gone]).flatten.foldlM (getTarget sampleRegion) Tables.initial = .ok ⟨[], [], idAt n⟩ := by
  induction n with
  | zero => rfl
  | succ n ih =>
    rw [List.replicate_succ', List.flatten_append, List.flatten_singleton, foldlM_append_of_ok ih, passing_cycle, nextId_idAt]

/-- After a thousand vehicles the next one is given the id zero. -/
theorem passing_zero :
    ∃ s, ((List.replicate 1000 [passing, passing, gone]).flatten ++ [passing, passing]).foldlM (getTarget sampleRegion)
      Tables.initial = .ok s ∧ s.targets.map Target.vehicleId = [0] := by
  refine ⟨⟨[{ seenTwice with vehicleId := idAt 1000 }], [], nextId (idAt 1000)⟩, ?_, rfl⟩
  rw [foldlM_append_of_ok (passing_cycles 1000), foldlM_cons_ok (passing_first _), foldlM_cons_ok (passing_second _)]
  rfl

end VideoDetector.Alg
