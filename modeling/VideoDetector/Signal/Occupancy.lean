import Mathlib.Data.List.DropRight
import VideoDetector.Signal.Accounts

/-!
# Occupancy (`pack_sig_data` in `fvd-new/cam_alg.c`)

`g_occupancyframe` and `g_occupancyframetail` count the flagged frames of a lane and are cleared when the lane is
reported. A reporting frame reports the lanes in use only, so a lane that a reset of the algorithm took out of use
keeps its counts, and they are in its next report.
-/

namespace VideoDetector.Signal
set_option autoImplicit false
open Lib

/-- The algorithm works on the lane. -/
def PackFrame.uses (i : Fin channelMaxNum) (f : PackFrame) : Bool := i.val < f.out.algNum

/-- A frame with which the data of the lane are renewed. -/
def PackFrame.reportsLane (i : Fin channelMaxNum) (f : PackFrame) : Bool := f.reports && f.uses i

/-- The head flag of the lane is 1. -/
def PackFrame.headOn (i : Fin channelMaxNum) (f : PackFrame) : Bool := f.uses i && (f.out.lane i).calarflag == 0x1

/-- The tail flag of the lane is set. -/
def PackFrame.tailOn (i : Fin channelMaxNum) (f : PackFrame) : Bool := f.uses i && (f.out.lane i).isCarInTail

/-- The frames are numbered from 1 on by an `int`, whatever becomes of the lanes. -/
def Numbered (frames : List PackFrame) : Prop :=
  ∀ (k : Nat) (f : PackFrame), frames[k]? = some f → f.out.framecount = ((k : Int) + 1).bmod (2 ^ 32)

/-- The frames since the last one that reported the lane. -/
def sinceReport (i : Fin channelMaxNum) (frames : List PackFrame) : List PackFrame :=
  frames.rtakeWhile fun f => !f.reportsLane i

/-! ## What the counters hold -/

theorem sinceReport_snoc (i : Fin channelMaxNum) (frames : List PackFrame) (f : PackFrame) :
    sinceReport i (frames ++ [f]) = if f.reportsLane i then [] else sinceReport i frames ++ [f] := by
  unfold sinceReport
  rw [List.rtakeWhile_concat]
  cases f.reportsLane i <;> rfl

theorem AlgOutput.not_mem_lanes {out : AlgOutput} {i : Fin channelMaxNum} (unused : ¬ i.val < out.algNum) : i ∉ out.lanes := by
  rw [lanes, List.mem_map]
  rintro ⟨j, _, rfl⟩
  exact unused j.isLt

/-- A frame without the lane leaves it alone. -/
theorem packStep_unused {f : PackFrame} {i : Fin channelMaxNum} (unused : ¬ i.val < f.out.algNum) (c : StaticChannel) :
    (packStep c f).lane i = c.lane i := by
  have absent := AlgOutput.not_mem_lanes unused
  have counts : countLanes f.out c.carInfo i = c.carInfo i := by
    apply foldl_elsewhere (fun info : Fin channelMaxNum → CarInfo => info i) ?_ absent
    intro info j other
    exact Function.update_of_ne (Ne.symm other) _ _
  have packed : (packStep c f).lane i = ({ c with carInfo := countLanes f.out c.carInfo } : StaticChannel).lane i := by
    apply foldl_elsewhere (fun s : Bool × StaticChannel => s.2.lane i) ?_ absent
    intro s j other
    by_cases reports : f.out.framecount % 12 = 0 <;>
      simp [packLane, reports, StaticChannel.lane, Function.update_of_ne (Ne.symm other)]
  exact packed.trans (congrArg (LaneView.mk · (c.eachchannel i)) counts)

/-- The counts of a lane at the head and the tail coil. -/
def CarInfo.occupied (info : CarInfo) : Int × Int := (info.gOccupancyframe, info.gOccupancyframetail)

theorem countLane_occupied (framecount : Int) (out : LaneOut) (info : CarInfo) :
    (countLane framecount out info).occupied =
      (info.occupied.1 + if out.calarflag = 0x1 then 1 else 0, info.occupied.2 + if out.isCarInTail then 1 else 0) := by
  unfold countLane CarInfo.occupied
  grind

/-- What a run leaves in the counters. -/
def OccupancyInv (i : Fin channelMaxNum) (frames : List PackFrame) (c : StaticChannel) : Prop :=
  (c.carInfo i).occupied =
    (((sinceReport i frames).countP (PackFrame.headOn i) : Int), ((sinceReport i frames).countP (PackFrame.tailOn i) : Int))

theorem OccupancyInv.count {i : Fin channelMaxNum} {frames : List PackFrame} {c : StaticChannel} {f : PackFrame}
    (inv : OccupancyInv i frames c) (used : f.uses i = true) :
    (countLane f.out.framecount (f.out.lane i) (c.carInfo i)).occupied =
      (((sinceReport i frames ++ [f]).countP (PackFrame.headOn i) : Int),
        ((sinceReport i frames ++ [f]).countP (PackFrame.tailOn i) : Int)) := by
  rw [countLane_occupied, inv]
  simp [List.countP_append, List.countP_singleton, PackFrame.headOn, PackFrame.tailOn, used]

theorem OccupancyInv.step {i : Fin channelMaxNum} {frames : List PackFrame} {c : StaticChannel} (inv : OccupancyInv i frames c)
    (f : PackFrame) : OccupancyInv i (frames ++ [f]) (packStep c f) := by
  unfold OccupancyInv
  rw [sinceReport_snoc]
  by_cases used : f.uses i = true
  · have lane := congrArg (fun v => v.info.occupied) (packStep_lane (of_decide_eq_true used) c)
    refine lane.trans ?_
    unfold PackFrame.pack PackFrame.reportsLane
    rw [used, Bool.and_true]
    cases f.reports with
    | true => rfl
    | false => exact inv.count used
  · have lane := congrArg (fun v => v.info.occupied) (packStep_unused (fun low => used (decide_eq_true low)) c)
    refine lane.trans ?_
    have off : f.reportsLane i = false ∧ f.headOn i = false ∧ f.tailOn i = false := by
      simp [PackFrame.reportsLane, PackFrame.headOn, PackFrame.tailOn, used]
    rw [off.1, if_neg Bool.false_ne_true, List.countP_append, List.countP_append, List.countP_singleton,
      List.countP_singleton, off.2.1, off.2.2]
    exact inv

theorem occupancyInv_run (i : Fin channelMaxNum) (frames : List PackFrame) : OccupancyInv i frames (packRun frames) := by
  have initial : OccupancyInv i [] default := rfl
  apply foldl_invariant (OccupancyInv i) (fun _ _ _ => True) ?_ initial (fun _ _ _ _ => trivial) (List.append_nil frames).symm
  intro before c f inv _
  exact inv.step f

/-! ## Counted frames and the last twelve -/

/-- Two reporting frames are at least twelve frames apart, also where the number starts again. -/
theorem reports_apart {p q : Nat} (less : p < q) (first : ((p : Int) + 1).bmod (2 ^ 32) % 12 = 0)
    (second : ((q : Int) + 1).bmod (2 ^ 32) % 12 = 0) : p + 12 ≤ q := by
  by_contra near
  have turns : ((q : Int) + 1) / 4294967296 = ((p : Int) + 1) / 4294967296 ∨
      ((q : Int) + 1) / 4294967296 = ((p : Int) + 1) / 4294967296 + 1 := by omega
  rw [Int.bmod_def] at first second
  norm_num at first second
  rcases turns with same | next <;> split at first <;> split at second <;> omega

/-- The flagged frames among the last twelve. -/
def window (flag : PackFrame → Bool) (frames : List PackFrame) : Nat := (frames.rtake 12).countP flag

/-- The flagged frames that are counted but are not among the last twelve. -/
def stale (flag : PackFrame → Bool) (i : Fin channelMaxNum) (before : List PackFrame) : Nat :=
  ((sinceReport i before).rdrop 11).countP flag

theorem rtake_append_of_le {α : Type} {n : Nat} {front back : List α} (long : n ≤ back.length) :
    (front ++ back).rtake n = back.rtake n := by
  unfold List.rtake
  rw [List.length_append, List.drop_append, List.drop_eq_nil_of_le (by omega), List.nil_append]
  congr 1
  omega

/-- The last report of a lane is not among the last twelve frames. -/
theorem rtake_sinceReport {i : Fin channelMaxNum} {before : List PackFrame} {f : PackFrame}
    (numbered : Numbered (before ++ [f])) (reports : f.reports = true) :
    before.rtake 11 = (sinceReport i before).rtake 11 := by
  have split : before = (before.rdropWhile fun f => !f.reportsLane i) ++ sinceReport i before :=
    List.rdropWhile_append_rtakeWhile.symm
  cases front : before.rdropWhile (fun f => !f.reportsLane i) using List.reverseRecOn with
  | nil => rw [front] at split; exact congrArg (List.rtake · 11) split
  | append_singleton pre g =>
    have own : g.reportsLane i = true := by
      have last := List.rdropWhile_last_not (fun f => !f.reportsLane i) before (by simp [front])
      simpa [front] using last
    rw [front] at split
    have position : before.length = pre.length + 1 + (sinceReport i before).length := by
      conv_lhs => rw [split, List.length_append, List.length_append, List.length_singleton]
    have early : (before ++ [f])[pre.length]? = some g := by
      rw [split]
      simp
    have late : (before ++ [f])[before.length]? = some f := by simp
    have renews : g.reports = true := (Bool.and_eq_true_iff.mp own).1
    have apart : pre.length + 12 ≤ before.length := by
      refine reports_apart (by omega) ?_ ?_
      · rw [← numbered _ _ early]
        exact of_decide_eq_true renews
      · rw [← numbered _ _ late]
        exact of_decide_eq_true reports
    conv_lhs => rw [split]
    exact rtake_append_of_le (by omega)

/-- What is counted for a report is the last twelve frames and the stale ones. -/
theorem counted_eq {i : Fin channelMaxNum} {before : List PackFrame} {f : PackFrame} (numbered : Numbered (before ++ [f]))
    (reports : f.reports = true) (flag : PackFrame → Bool) :
    (sinceReport i before ++ [f]).countP flag = stale flag i before + window flag (before ++ [f]) := by
  have parts : (sinceReport i before).rdrop 11 ++ (sinceReport i before).rtake 11 = sinceReport i before :=
    List.take_append_drop _ _
  unfold stale window
  rw [List.rtake_concat_succ, rtake_sinceReport (i := i) numbered reports, List.countP_append, List.countP_append]
  conv_lhs => rw [← parts, List.countP_append]
  omega

/-! ## The reported occupancy -/

/-- So many of twelve frames in percent, rounded down. -/
def percent (frames : Nat) : Int := ⌊(100 * frames / 12 : ℚ)⌋

theorem percent_eq (frames : Nat) : percent frames = (frames * 100 / 12 : Nat) := by
  have quotient : (100 * frames / 12 : ℚ) = ((frames * 100 : Nat) : ℚ) / ((12 : Nat) : ℚ) := by
    push_cast
    ring
  rw [percent, quotient, Rat.floor_natCast_div_natCast]
  rfl

theorem window_le (flag : PackFrame → Bool) (frames : List PackFrame) : window flag frames ≤ 12 := by
  refine List.countP_le_length.trans ?_
  unfold List.rtake
  rw [List.length_drop]
  omega

theorem percent_window_le (flag : PackFrame → Bool) (frames : List PackFrame) : percent (window flag frames) ≤ 100 := by
  have few := window_le flag frames
  rw [percent_eq]
  omega

theorem occupancy_toNat (frames : Nat) : (occupancy frames).toNat = frames * 100 / 12 % 256 := by
  have whole : (frames : Int) * 100 / 12 = ((frames * 100 / 12 : Nat) : Int) := rfl
  unfold occupancy
  split
  · rw [whole, UInt8.ofInt, UInt8.toNat_ofNat']
    omega
  · next none =>
    have zero : frames = 0 := by omega
    rw [zero]
    rfl

/-- A reporting frame reports the counts that it finds. -/
theorem packRun_occupancies {i : Fin channelMaxNum} (before : List PackFrame) {f : PackFrame}
    (reports : f.reports = true) (used : f.uses i = true) :
    ((packRun (before ++ [f])).eachchannel i).mOccupancyOfHeaderVirtualCoil =
        occupancy ((sinceReport i before ++ [f]).countP (PackFrame.headOn i) : Nat) ∧
      ((packRun (before ++ [f])).eachchannel i).mOccupancyOfTailVirtualCoil =
        occupancy ((sinceReport i before ++ [f]).countP (PackFrame.tailOn i) : Nat) := by
  have counts := (occupancyInv_run i before).count used
  have lane := congrArg LaneView.channel (packStep_lane (of_decide_eq_true used) (packRun before))
  rw [PackFrame.pack, if_pos reports] at lane
  have channel : (packStep (packRun before) f).eachchannel i = _ := lane
  rw [packRun_snoc, channel]
  exact ⟨congrArg occupancy (congrArg Prod.fst counts), congrArg occupancy (congrArg Prod.snd counts)⟩

/-- What is to be found for a lane after a frame that reports it. -/
structure OccupancyRight (i : Fin channelMaxNum) (frames : List PackFrame) (c : StaticChannel) : Prop where
  head : ((c.eachchannel i).mOccupancyOfHeaderVirtualCoil.toNat : Int) = percent (window (PackFrame.headOn i) frames)
  tail : ((c.eachchannel i).mOccupancyOfTailVirtualCoil.toNat : Int) = percent (window (PackFrame.tailOn i) frames)
  headBound : (c.eachchannel i).mOccupancyOfHeaderVirtualCoil.toNat ≤ 100
  tailBound : (c.eachchannel i).mOccupancyOfTailVirtualCoil.toNat ≤ 100

/-- The stale frames are not seen: there is none, or the byte has turned round to the same percentage. -/
def Unseen (stale window : Nat) : Prop := stale = 0 ∨ (stale + window) * 100 / 12 % 256 = window * 100 / 12

instance (stale window : Nat) : Decidable (Unseen stale window) := inferInstanceAs (Decidable (_ ∨ _))

theorem occupancy_eq_percent (stale : Nat) {window : Nat} (few : window ≤ 12) :
    (((occupancy (stale + window : Nat)).toNat : Int) = percent window) ↔ Unseen stale window := by
  rw [occupancy_toNat, percent_eq, Nat.cast_inj, Unseen]
  constructor
  · exact .inr
  · rintro (none | same)
    · rw [none, Nat.zero_add]
      exact Nat.mod_eq_of_lt (by omega)
    · exact same

/-- **The reported occupancy.** Whenever a run of frames reports a lane, the two values are the percentages of the
last twelve frames exactly if no frame from before these is still counted, or the byte has turned round to the same
percentage. -/
theorem occupancy_iff (i : Fin channelMaxNum) (before : List PackFrame) (f : PackFrame)
    (numbered : Numbered (before ++ [f])) (reports : f.reports = true) (used : f.uses i = true) :
    OccupancyRight i (before ++ [f]) (packRun (before ++ [f])) ↔
      Unseen (stale (PackFrame.headOn i) i before) (window (PackFrame.headOn i) (before ++ [f])) ∧
        Unseen (stale (PackFrame.tailOn i) i before) (window (PackFrame.tailOn i) (before ++ [f])) := by
  obtain ⟨head, tail⟩ := packRun_occupancies before reports used
  rw [counted_eq numbered reports] at head tail
  rw [← occupancy_eq_percent _ (window_le _ _), ← occupancy_eq_percent _ (window_le _ _), ← head, ← tail]
  constructor
  · intro right
    exact ⟨right.head, right.tail⟩
  · rintro ⟨rightHead, rightTail⟩
    have headBound := percent_window_le (PackFrame.headOn i) (before ++ [f])
    have tailBound := percent_window_le (PackFrame.tailOn i) (before ++ [f])
    exact ⟨rightHead, rightTail, by omega, by omega⟩

/-- A frame with so many lanes, all of them occupied at both coils. -/
def occupied (lanes : Fin 5) (framecount : Int) : PackFrame where
  param := Config.zeroObj _
  out :=
    { framecount := framecount
      algIndex := 1
      uEnvironmentStatus := 4
      algNum := lanes
      fits := Nat.le_of_lt_succ lanes.isLt
      lane := fun _ => { (default : LaneOut) with calarflag := 1, isCarInTail := true }
      fuzzyflag := false
      visibility := false }

/-- Frames with so many lanes each. -/
def occupiedRun (lanes : List (Fin 5)) : List PackFrame :=
  lanes.mapIdx fun k lanes => occupied lanes (((k : Int) + 1).bmod (2 ^ 32))

theorem occupiedRun_numbered (lanes : List (Fin 5)) : Numbered (occupiedRun lanes) := by
  intro k f there
  rw [occupiedRun, List.getElem?_mapIdx] at there
  obtain ⟨_, _, same⟩ := Option.map_eq_some_iff.mp there
  rw [← same, occupied]

theorem occupiedRun_snoc_numbered (lanes : List (Fin 5)) (last : Fin 5) {number : Int}
    (next : number = ((lanes.length : Int) + 1).bmod (2 ^ 32)) :
    Numbered (occupiedRun lanes ++ [occupied last number]) := by
  have whole := occupiedRun_numbered (lanes ++ [last])
  rw [occupiedRun, List.mapIdx_concat, ← next] at whole
  exact whole

/-- A lane that stays in use is reported with what the last twelve frames had. -/
theorem occupancy_iff_full :
    OccupancyRight 0 (occupiedRun (.replicate 11 1) ++ [occupied 1 12])
      (packRun (occupiedRun (.replicate 11 1) ++ [occupied 1 12])) := by
  apply (occupancy_iff 0 _ (occupied 1 12) ?_ (by decide) (by decide)).mpr
  · decide
  · exact occupiedRun_snoc_numbered _ _ (by decide)

/-- A lane that is out of use for its report is reported with 23 frames of twelve the next time. -/
theorem occupancy_above_hundred :
    Numbered (occupiedRun (.replicate 11 2 ++ 1 :: .replicate 11 2) ++ [occupied 2 24]) ∧
      (occupied 2 24).reports = true ∧ (occupied 2 24).uses 1 = true ∧
      ¬ OccupancyRight 1 (occupiedRun (.replicate 11 2 ++ 1 :: .replicate 11 2) ++ [occupied 2 24])
        (packRun (occupiedRun (.replicate 11 2 ++ 1 :: .replicate 11 2) ++ [occupied 2 24])) := by
  refine ⟨occupiedRun_snoc_numbered _ _ (by decide), by decide, by decide, ?_⟩
  intro right
  have bound := right.headBound
  rw [(packRun_occupancies _ (by decide) (by decide)).1] at bound
  exact absurd bound (by decide)

end VideoDetector.Signal
