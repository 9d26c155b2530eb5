import Mathlib.Data.Fin.SuccPred
import Mathlib.Data.List.Nodup
import Mathlib.Data.Rat.Floor
import VideoDetector.Lib.Runs
import VideoDetector.Signal.Pack

/-!
# Flow and headway (`pack_sig_data` in `fvd-new/cam_alg.c`)

The lanes are packed one after the other, but what is found for a lane after a frame depends on that lane
only. `flow_iff` and `headway_iff` compare what a run of frames reports for a lane with the totals and the
flags that the algorithm gave for it.
-/

namespace VideoDetector.Signal
set_option autoImplicit false
open Lib
open Config (Object)

instance : NeZero channelMaxNum := ⟨Nat.succ_ne_zero 3⟩

/-- A frame of a camera: the parameters of the camera and the outputs of the algorithm. -/
structure PackFrame where
  param : Object .mCamParam
  out : AlgOutput

/-- A frame with which the data of the lanes are renewed. -/
def PackFrame.reports (f : PackFrame) : Bool := f.out.framecount % 12 = 0

def packStep (c : StaticChannel) (f : PackFrame) : StaticChannel := packSigData f.param f.out c

/-- What a run of frames leaves in `traffic_rst`, which is zero at first. -/
def packRun (frames : List PackFrame) : StaticChannel := frames.foldl packStep default

theorem packRun_snoc (frames : List PackFrame) (f : PackFrame) : packRun (frames ++ [f]) = packStep (packRun frames) f := by
  simp [packRun]

/-! ## A single lane -/

/-- The counts and the data of a lane. -/
structure LaneView where
  info : CarInfo
  channel : EachChannelPack

def StaticChannel.lane (c : StaticChannel) (i : Fin channelMaxNum) : LaneView := ⟨c.carInfo i, c.eachchannel i⟩

/-- The second loop at a lane. -/
def PackFrame.pack (f : PackFrame) (i : Fin channelMaxNum) (v : LaneView) : LaneView :=
  if f.reports then
    ⟨restartLane (f.out.lane i) v.info, reportLane (channelNumber f.param i) f.out (f.out.lane i) v.info v.channel⟩
  else ⟨v.info, occupyLane (f.out.lane i) v.channel⟩

theorem AlgOutput.lanes_nodup (out : AlgOutput) : out.lanes.Nodup :=
  List.Nodup.map (Fin.castLE_injective out.fits) (List.nodup_finRange _)

theorem AlgOutput.mem_lanes {out : AlgOutput} {i : Fin channelMaxNum} (used : i.val < out.algNum) : i ∈ out.lanes := by
  rw [lanes, List.mem_map]
  exact ⟨⟨i, used⟩, List.mem_finRange _, rfl⟩

theorem countLanes_lane {out : AlgOutput} {i : Fin channelMaxNum} (used : i.val < out.algNum)
    (carInfo : Fin channelMaxNum → CarInfo) :
    countLanes out carInfo i = countLane out.framecount (out.lane i) (carInfo i) := by
  apply foldl_own (fun info : Fin channelMaxNum → CarInfo => info i) (countLane out.framecount (out.lane i)) ?_ ?_
    out.lanes_nodup (AlgOutput.mem_lanes used)
  · intro info j other
    exact Function.update_of_ne (Ne.symm other) _ _
  · intro info
    exact Function.update_self _ _ _

/-- **What a frame does to a lane.** -/
theorem packStep_lane {f : PackFrame} {i : Fin channelMaxNum} (used : i.val < f.out.algNum) (c : StaticChannel) :
    (packStep c f).lane i =
      f.pack i ⟨countLane f.out.framecount (f.out.lane i) (c.carInfo i), c.eachchannel i⟩ := by
  rw [← countLanes_lane used]
  apply foldl_own (fun s : Bool × StaticChannel => s.2.lane i) (f.pack i) ?_ ?_ f.out.lanes_nodup
    (AlgOutput.mem_lanes used)
  · intro s j other
    by_cases reports : f.out.framecount % 12 = 0 <;>
      simp [packLane, reports, StaticChannel.lane, Function.update_of_ne (Ne.symm other)]
  · intro s
    by_cases reports : f.out.framecount % 12 = 0 <;>
      simp [packLane, PackFrame.pack, PackFrame.reports, reports, StaticChannel.lane]

/-! ## Flow -/

/-- `DetectOutSum` of a lane. -/
def PackFrame.total (i : Fin channelMaxNum) (f : PackFrame) : Int := (f.out.lane i).detectOutSum

/-- The total at the last reporting frame, 0 before the first one. -/
def lastTotal (i : Fin channelMaxNum) (frames : List PackFrame) : Int :=
  ((frames.filter PackFrame.reports).getLast?.map (PackFrame.total i)).getD 0

/-- The flow of a lane. -/
def StaticChannel.flow (c : StaticChannel) (i : Fin channelMaxNum) : BitVec 2 :=
  (c.eachchannel i).mDetectDataOfHeaderVirtualCoil.flow

theorem lastTotal_reports {i : Fin channelMaxNum} {f : PackFrame} (reports : f.reports = true) (frames : List PackFrame) :
    lastTotal i (frames ++ [f]) = f.total i := by
  simp [lastTotal, reports]

theorem lastTotal_quiet {i : Fin channelMaxNum} {f : PackFrame} (quiet : ¬ f.reports = true) (frames : List PackFrame) :
    lastTotal i (frames ++ [f]) = lastTotal i frames := by
  simp [lastTotal, quiet]

theorem lastTotal_mem (i : Fin channelMaxNum) (frames : List PackFrame) :
    lastTotal i frames ∈ 0 :: frames.map (PackFrame.total i) := by
  unfold lastTotal
  cases last : (frames.filter PackFrame.reports).getLast? with
  | none => exact List.mem_cons_self
  | some f =>
    have there : f ∈ frames := (List.mem_filter.mp (List.mem_of_getLast? last)).1
    exact List.mem_cons_of_mem _ (List.mem_map_of_mem there)

/-- The totals of a lane never fall. -/
def TotalsGrow (i : Fin channelMaxNum) (frames : List PackFrame) : Prop :=
  (0 :: frames.map (PackFrame.total i)).Pairwise (· ≤ ·)

theorem TotalsGrow.last {i : Fin channelMaxNum} {before after : List PackFrame} {f : PackFrame}
    (grow : TotalsGrow i (before ++ f :: after)) : 0 ≤ lastTotal i before ∧ lastTotal i before ≤ f.total i := by
  unfold TotalsGrow at grow
  rw [List.map_append, ← List.cons_append, List.pairwise_append] at grow
  have there := lastTotal_mem i before
  refine ⟨?_, grow.2.2 _ there _ List.mem_cons_self⟩
  rcases List.mem_cons.mp there with zero | later
  · exact Int.le_of_eq zero.symm
  · exact (List.pairwise_cons.mp grow.1).1 _ later

@[simp] theorem countLane_gFlow (framecount : Int) (out : LaneOut) (info : CarInfo) :
    (countLane framecount out info).gFlow = info.gFlow := by
  unfold countLane
  grind

/-- `g_flow` is the total at the last reporting frame, and the flow is 0 as long as that is. -/
structure FlowInv (i : Fin channelMaxNum) (frames : List PackFrame) (c : StaticChannel) : Prop where
  base : (c.carInfo i).gFlow = lastTotal i frames
  idle : lastTotal i frames = 0 → c.flow i = 0

/-- What a reporting frame leaves in the two bits. -/
theorem packStep_flow {f : PackFrame} {i : Fin channelMaxNum} (used : i.val < f.out.algNum) (reports : f.reports = true)
    (c : StaticChannel) :
    (packStep c f).flow i =
      if (c.carInfo i).gFlow = 0 then c.flow i else BitVec.ofInt 2 (f.total i - (c.carInfo i).gFlow) := by
  have lane := congrArg LaneView.channel (packStep_lane used c)
  rw [PackFrame.pack, if_pos reports] at lane
  have flow := congrArg (fun channel => channel.mDetectDataOfHeaderVirtualCoil.flow) lane
  simp only [reportLane, countLane_gFlow] at flow
  refine flow.trans ?_
  split
  · rfl
  · exact if_neg (by bv_omega)

theorem packStep_gFlow {f : PackFrame} {i : Fin channelMaxNum} (used : i.val < f.out.algNum) (c : StaticChannel) :
    ((packStep c f).carInfo i).gFlow = if f.reports then f.total i else (c.carInfo i).gFlow := by
  have lane := congrArg (fun v => v.info.gFlow) (packStep_lane used c)
  refine lane.trans ?_
  unfold PackFrame.pack
  split
  · rfl
  · exact countLane_gFlow _ _ _

/-- Between the reporting frames the flow stays. -/
theorem packStep_flow_quiet {f : PackFrame} {i : Fin channelMaxNum} (used : i.val < f.out.algNum)
    (quiet : ¬ f.reports = true) (c : StaticChannel) : (packStep c f).flow i = c.flow i := by
  have lane := congrArg (fun v => v.channel.mDetectDataOfHeaderVirtualCoil.flow) (packStep_lane used c)
  refine lane.trans ?_
  rw [PackFrame.pack, if_neg quiet]
  rfl

theorem FlowInv.step {i : Fin channelMaxNum} {frames : List PackFrame} {c : StaticChannel} {f : PackFrame}
    (inv : FlowInv i frames c) (used : i.val < f.out.algNum)
    (grows : 0 ≤ lastTotal i frames ∧ lastTotal i frames ≤ f.total i) : FlowInv i (frames ++ [f]) (packStep c f) := by
  by_cases reports : f.reports = true
  · refine ⟨by rw [packStep_gFlow used, if_pos reports, lastTotal_reports reports], ?_⟩
    rw [lastTotal_reports reports]
    intro zero
    have still : lastTotal i frames = 0 := by omega
    rw [packStep_flow used reports, inv.base, if_pos still]
    exact inv.idle still
  · refine ⟨by rw [packStep_gFlow used, if_neg reports, lastTotal_quiet reports, inv.base], ?_⟩
    rw [lastTotal_quiet reports, packStep_flow_quiet used reports]
    exact inv.idle

theorem flowInv_run {i : Fin channelMaxNum} {frames : List PackFrame} (used : ∀ f ∈ frames, i.val < f.out.algNum)
    (grow : TotalsGrow i frames) {before after : List PackFrame} (split : frames = before ++ after) :
    FlowInv i before (packRun before) := by
  apply foldl_invariant (FlowInv i)
    (fun before _ f => i.val < f.out.algNum ∧ 0 ≤ lastTotal i before ∧ lastTotal i before ≤ f.total i) ?_ ⟨rfl, fun _ => rfl⟩
    ?_ split
  · intro before c f inv cond
    exact inv.step cond.1 cond.2
  · intro before f after split
    subst split
    exact ⟨used f (by simp), grow.last⟩

/-- The two bits hold a difference up to 3 and no other one unless it is 3 more than a multiple of 4. -/
theorem ofInt_two_eq_min {d : Int} (positive : 0 ≤ d) :
    (((BitVec.ofInt 2 d).toNat : Int) = min 3 d) ↔ d < 4 ∨ d % 4 = 3 := by
  rw [BitVec.toNat_ofInt]
  omega

/-- **The reported flow.** At a reporting frame of any run with totals that never fall, the flow of a lane is the
number of vehicles since the last reporting frame, cut off at 3, exactly if there was no vehicle at all yet or the last
reporting frame had seen one, and the number fits into two bits or ends in them as 3. -/
theorem flow_iff (i : Fin channelMaxNum) (frames : List PackFrame) (used : ∀ f ∈ frames, i.val < f.out.algNum)
    (grow : TotalsGrow i frames) (before after : List PackFrame) (f : PackFrame) (split : frames = before ++ f :: after)
    (reports : f.reports = true) :
    (((packRun (before ++ [f])).flow i).toNat : Int) = min 3 (f.total i - lastTotal i before) ↔
      f.total i = 0 ∨
        lastTotal i before ≠ 0 ∧ (f.total i - lastTotal i before < 4 ∨ (f.total i - lastTotal i before) % 4 = 3) := by
  have inv := flowInv_run used grow split
  subst split
  have least := grow.last
  rw [packRun_snoc, packStep_flow (used f (by simp)) reports, inv.base]
  by_cases fresh : lastTotal i before = 0
  · rw [if_pos fresh, inv.idle fresh, fresh, show (((0 : BitVec 2).toNat : Nat) : Int) = 0 from rfl]
    omega
  · rw [if_neg fresh, ofInt_two_eq_min (by omega)]
    have some : f.total i ≠ 0 := by omega
    tauto

/-- The outputs of an algorithm with a single lane. -/
def oneLane (framecount : Int) (lane : LaneOut) : PackFrame where
  param := Config.zeroObj _
  out :=
    { framecount := framecount
      algIndex := 1
      uEnvironmentStatus := 4
      algNum := 1
      fits := Nat.le_of_ble_eq_true rfl
      lane := fun _ => lane
      fuzzyflag := false
      visibility := false }

/-- A reporting frame at which so many vehicles have passed. -/
def passed (framecount total : Int) : PackFrame := oneLane framecount { (default : LaneOut) with detectOutSum := total }

/-- Two vehicles between two reports. -/
theorem flow_iff_two : (((packRun [passed 12 1, passed 24 3]).flow 0).toNat : Int) = min 3 (3 - 1) :=
  (flow_iff 0 [passed 12 1, passed 24 3] (by decide) (by unfold TotalsGrow; decide) [passed 12 1] [] (passed 24 3) rfl rfl).mpr
    (by decide)

/-- The first two vehicles are not reported, and four at once are reported as none. -/
theorem flow_lost :
    TotalsGrow 0 [passed 12 2] ∧ (passed 12 2).reports = true ∧
      (((packRun [passed 12 2]).flow 0).toNat : Int) ≠ min 3 (2 - 0) ∧
      TotalsGrow 0 [passed 12 1, passed 24 5] ∧ (passed 24 5).reports = true ∧
      (((packRun [passed 12 1, passed 24 5]).flow 0).toNat : Int) ≠ min 3 (5 - 1) := by
  unfold TotalsGrow
  decide

/-! ## Headway -/

/-- The last and the last but one of a list of frame numbers, 0 where there is none. -/
def lastTwo (ns : List Int) : Int × Int := (ns.getLast?.getD 0, ns.dropLast.getLast?.getD 0)

/-- The numbers of the frames with `calarflag` 2 in a lane. -/
def headFrames (i : Fin channelMaxNum) (frames : List PackFrame) : List Int :=
  (frames.filter fun f => (f.out.lane i).calarflag = 0x2).map fun f => f.out.framecount

/-- The numbers of the frames with `IsCarInTail` in a lane. -/
def tailFrames (i : Fin channelMaxNum) (frames : List PackFrame) : List Int :=
  (frames.filter fun f => (f.out.lane i).isCarInTail).map fun f => f.out.framecount

/-- The frames are numbered upwards from 1, some of them may be missing. -/
def FramesGrow (frames : List PackFrame) : Prop := (0 :: frames.map fun f => f.out.framecount).Pairwise (· < ·)

def CarInfo.head (info : CarInfo) : Int × Int := (info.g50frame1, info.g50frame2)

def CarInfo.tail (info : CarInfo) : Int × Int := (info.g50frametail1, info.g50frametail2)

@[simp] theorem lastTwo_snoc (ns : List Int) (n : Int) : lastTwo (ns ++ [n]) = (n, (lastTwo ns).1) := by
  simp [lastTwo]

theorem headFrames_snoc (i : Fin channelMaxNum) (frames : List PackFrame) (f : PackFrame) :
    headFrames i (frames ++ [f]) =
      if (f.out.lane i).calarflag = 0x2 then headFrames i frames ++ [f.out.framecount] else headFrames i frames := by
  unfold headFrames
  rw [List.filter_append, List.map_append]
  split <;> simp [*]

theorem tailFrames_snoc (i : Fin channelMaxNum) (frames : List PackFrame) (f : PackFrame) :
    tailFrames i (frames ++ [f]) =
      if (f.out.lane i).isCarInTail then tailFrames i frames ++ [f.out.framecount] else tailFrames i frames := by
  unfold tailFrames
  rw [List.filter_append, List.map_append]
  split <;> simp [*]

theorem FramesGrow.head {frames : List PackFrame} (grow : FramesGrow frames) (i : Fin channelMaxNum) :
    (0 :: headFrames i frames).Pairwise (· < ·) :=
  grow.sublist ((List.filter_sublist.map _).cons_cons 0)

theorem FramesGrow.tail {frames : List PackFrame} (grow : FramesGrow frames) (i : Fin channelMaxNum) :
    (0 :: tailFrames i frames).Pairwise (· < ·) :=
  grow.sublist ((List.filter_sublist.map _).cons_cons 0)

theorem FramesGrow.front {before after : List PackFrame} (grow : FramesGrow (before ++ after)) : FramesGrow before := by
  apply List.Pairwise.sublist ?_ grow
  rw [List.map_append, ← List.cons_append]
  exact List.sublist_append_left _ _

/-- The last of a growing list of numbers. -/
theorem lastTwo_fst_mem (ns : List Int) : (lastTwo ns).1 ∈ 0 :: ns := by
  induction ns using List.reverseRecOn with
  | nil => exact List.mem_cons_self
  | append_singleton ns n ih => simp

theorem lastTwo_fst_eq_zero {ns : List Int} (grow : (0 :: ns).Pairwise (· < ·)) : (lastTwo ns).1 = 0 ↔ ns = [] := by
  induction ns using List.reverseRecOn with
  | nil => simp [lastTwo]
  | append_singleton ns n ih =>
    have positive : 0 < n := (List.pairwise_cons.mp grow).1 n (by simp)
    simp only [lastTwo_snoc, List.append_eq_nil_iff, List.cons_ne_self, and_false, iff_false]
    omega

theorem snoc_grows {ns : List Int} {n : Int} (grow : (0 :: (ns ++ [n])).Pairwise (· < ·)) :
    (0 :: ns).Pairwise (· < ·) ∧ ∀ k ∈ 0 :: ns, k < n := by
  rw [← List.cons_append, List.pairwise_append] at grow
  exact ⟨grow.1, fun k there => grow.2.2 k there n (List.mem_singleton_self n)⟩

theorem lastTwo_snd_eq_zero {ns : List Int} (grow : (0 :: ns).Pairwise (· < ·)) :
    (lastTwo ns).2 = 0 ↔ ns.length < 2 := by
  cases ns using List.reverseRecOn with
  | nil => simp [lastTwo]
  | append_singleton ns n =>
    rw [lastTwo_snoc, lastTwo_fst_eq_zero (snoc_grows grow).1, List.length_append, List.length_singleton,
      ← List.length_eq_zero_iff]
    omega

theorem lastTwo_lt {ns : List Int} (grow : (0 :: ns).Pairwise (· < ·)) :
    0 ≤ (lastTwo ns).2 ∧ ((lastTwo ns).2 ≠ 0 → (lastTwo ns).2 < (lastTwo ns).1) := by
  cases ns using List.reverseRecOn with
  | nil => simp [lastTwo]
  | append_singleton ns n =>
    obtain ⟨grow, above⟩ := snoc_grows grow
    have there := lastTwo_fst_mem ns
    rw [lastTwo_snoc]
    refine ⟨?_, fun _ => above _ there⟩
    rcases List.mem_cons.mp there with zero | later
    · exact Int.le_of_eq zero.symm
    · exact Int.le_of_lt ((List.pairwise_cons.mp grow).1 _ later)

/-- The first loop for the head coil. -/
theorem countLane_head (framecount : Int) (out : LaneOut) (info : CarInfo) :
    (countLane framecount out info).head =
      if out.calarflag = 0x2 then (framecount, if info.head.1 = 0 then info.head.2 else info.head.1) else info.head := by
  unfold countLane CarInfo.head
  grind

/-- The first loop for the tail coil looks at the count of the head coil. -/
theorem countLane_tail (framecount : Int) (out : LaneOut) (info : CarInfo) :
    (countLane framecount out info).tail =
      if out.isCarInTail then
        (framecount, if (countLane framecount out info).head.1 = 0 then info.tail.2 else info.tail.1)
      else info.tail := by
  unfold countLane CarInfo.head CarInfo.tail
  grind

theorem packStep_pairs {f : PackFrame} {i : Fin channelMaxNum} (used : i.val < f.out.algNum) (c : StaticChannel) :
    ((packStep c f).carInfo i).head = (countLane f.out.framecount (f.out.lane i) (c.carInfo i)).head ∧
      ((packStep c f).carInfo i).tail = (countLane f.out.framecount (f.out.lane i) (c.carInfo i)).tail := by
  have lane := congrArg LaneView.info (packStep_lane used c)
  have info : (packStep c f).carInfo i = _ := lane
  rw [info]
  unfold PackFrame.pack
  split <;> exact ⟨rfl, rfl⟩

/-- The frames so far have smaller numbers than a new one. -/
theorem FramesGrow.below {frames : List PackFrame} {f : PackFrame} (grow : FramesGrow (frames ++ [f])) :
    ∀ k ∈ 0 :: frames.map (fun f => f.out.framecount), k < f.out.framecount := by
  unfold FramesGrow at grow
  rw [List.map_append] at grow
  exact (snoc_grows grow).2

theorem FramesGrow.head_below {frames : List PackFrame} {f : PackFrame} (grow : FramesGrow (frames ++ [f]))
    {i : Fin channelMaxNum} {h : Int} (there : h ∈ headFrames i frames) : h < f.out.framecount :=
  grow.below h (List.mem_cons_of_mem _ ((List.filter_sublist.map _).subset there))

theorem FramesGrow.tail_below {frames : List PackFrame} {f : PackFrame} (grow : FramesGrow (frames ++ [f]))
    (i : Fin channelMaxNum) : (lastTwo (tailFrames i frames)).1 < f.out.framecount :=
  grow.below _ (((List.filter_sublist.map _).cons_cons 0).subset (lastTwo_fst_mem (tailFrames i frames)))

theorem FramesGrow.head_le {frames : List PackFrame} {f : PackFrame} (grow : FramesGrow (frames ++ [f]))
    {i : Fin channelMaxNum} {h : Int} (there : h ∈ headFrames i (frames ++ [f])) : h ≤ f.out.framecount := by
  rw [headFrames_snoc] at there
  split at there
  · rcases List.mem_append.mp there with early | now
    · exact Int.le_of_lt (grow.head_below early)
    · exact Int.le_of_eq (List.mem_singleton.mp now)
  · exact Int.le_of_lt (grow.head_below there)

/-- A car at the head coil had come by the last car at the tail coil. -/
def Paired (i : Fin channelMaxNum) (frames : List PackFrame) : Prop :=
  ∃ h ∈ headFrames i frames, h ≤ (lastTwo (tailFrames i frames)).1

instance (i : Fin channelMaxNum) (frames : List PackFrame) : Decidable (Paired i frames) := List.decidableBEx _ _

/-- With a car at the tail coil the first car at the head coil decides. -/
theorem paired_car {i : Fin channelMaxNum} {frames : List PackFrame} {f : PackFrame} (grow : FramesGrow (frames ++ [f]))
    (car : (f.out.lane i).isCarInTail = true) : Paired i (frames ++ [f]) ↔ headFrames i (frames ++ [f]) ≠ [] := by
  unfold Paired
  rw [tailFrames_snoc, if_pos car, lastTwo_snoc]
  constructor
  · rintro ⟨h, there, _⟩ none
    rw [none] at there
    cases there
  · intro some
    obtain ⟨h, there⟩ := List.exists_mem_of_ne_nil _ some
    exact ⟨h, there, grow.head_le there⟩

theorem paired_no_car {i : Fin channelMaxNum} {frames : List PackFrame} {f : PackFrame} (grow : FramesGrow (frames ++ [f]))
    (noCar : ¬ (f.out.lane i).isCarInTail = true) : Paired i (frames ++ [f]) ↔ Paired i frames := by
  unfold Paired
  rw [tailFrames_snoc, if_neg noCar, headFrames_snoc]
  split
  · have late := grow.tail_below i
    simp only [List.mem_append, List.mem_singleton]
    constructor
    · rintro ⟨h, early | now, before⟩
      · exact ⟨h, early, before⟩
      · omega
    · rintro ⟨h, early, before⟩
      exact ⟨h, .inl early, before⟩
  · rfl

/-- What a run leaves in the counts: the pair of the head coil, the last frame of the tail coil, and the one before it
if a car had been at the head coil by then. -/
structure HeadwayInv (i : Fin channelMaxNum) (frames : List PackFrame) (c : StaticChannel) : Prop where
  head : (c.carInfo i).head = lastTwo (headFrames i frames)
  last : (c.carInfo i).tail.1 = (lastTwo (tailFrames i frames)).1
  older : (c.carInfo i).tail.2 = if Paired i frames then (lastTwo (tailFrames i frames)).2 else 0

theorem HeadwayInv.head_step {i : Fin channelMaxNum} {frames : List PackFrame} {c : StaticChannel} {f : PackFrame}
    (inv : HeadwayInv i frames c) (used : i.val < f.out.algNum) (grow : FramesGrow (frames ++ [f])) :
    ((packStep c f).carInfo i).head = lastTwo (headFrames i (frames ++ [f])) := by
  rw [(packStep_pairs used c).1, countLane_head, headFrames_snoc, inv.head]
  split
  · rw [lastTwo_snoc]
    split
    · next zero =>
      have none := (lastTwo_fst_eq_zero (grow.front.head i)).mp zero
      simp [none, lastTwo]
    · rfl
  · rfl

theorem HeadwayInv.step {i : Fin channelMaxNum} {frames : List PackFrame} {c : StaticChannel} {f : PackFrame}
    (inv : HeadwayInv i frames c) (used : i.val < f.out.algNum) (grow : FramesGrow (frames ++ [f])) :
    HeadwayInv i (frames ++ [f]) (packStep c f) := by
  have head := inv.head_step used grow
  obtain ⟨sameHead, sameTail⟩ := packStep_pairs used c
  have tail := sameTail.trans (countLane_tail _ _ _)
  rw [← sameHead, head] at tail
  by_cases car : (f.out.lane i).isCarInTail = true
  · rw [if_pos car] at tail
    have last : tailFrames i (frames ++ [f]) = tailFrames i frames ++ [f.out.framecount] := by
      rw [tailFrames_snoc, if_pos car]
    refine ⟨head, by rw [tail, last, lastTwo_snoc], ?_⟩
    rw [tail, last, lastTwo_snoc]
    by_cases none : headFrames i (frames ++ [f]) = []
    · have unpaired : ¬ Paired i frames := by
        rintro ⟨h, there, _⟩
        rw [headFrames, List.filter_append, List.map_append, List.append_eq_nil_iff] at none
        rw [headFrames, none.1] at there
        cases there
      rw [if_neg fun paired => (paired_car grow car).mp paired none,
        if_pos ((lastTwo_fst_eq_zero (grow.head i)).mpr none), inv.older, if_neg unpaired]
    · rw [if_pos ((paired_car grow car).mpr none), if_neg fun zero => none ((lastTwo_fst_eq_zero (grow.head i)).mp zero)]
      exact inv.last
  · rw [if_neg car] at tail
    have last : tailFrames i (frames ++ [f]) = tailFrames i frames := by
      rw [tailFrames_snoc, if_neg car]
    refine ⟨head, by rw [tail, last, inv.last], ?_⟩
    rw [tail, last, inv.older]
    exact if_congr (paired_no_car grow car).symm rfl rfl

theorem headwayInv_run {i : Fin channelMaxNum} {frames : List PackFrame} (used : ∀ f ∈ frames, i.val < f.out.algNum)
    (grow : FramesGrow frames) : HeadwayInv i frames (packRun frames) := by
  apply foldl_invariant (HeadwayInv i) (fun before _ f => i.val < f.out.algNum ∧ FramesGrow (before ++ [f])) ?_ ?_ ?_
    (List.append_nil frames).symm
  · intro before c f inv cond
    exact inv.step cond.1 cond.2
  · exact ⟨rfl, rfl, by simp [Paired, headFrames]; rfl⟩
  · intro before f after split
    subst split
    have whole : FramesGrow ((before ++ [f]) ++ after) := by
      rw [List.append_assoc]
      exact grow
    exact ⟨used f (by simp), whole.front⟩

/-! ## The reported headway -/

/-- 0.4 times the difference of two frame numbers, rounded down. -/
def headwayTime (pair : Int × Int) : Int := ⌊(4 / 10 : ℚ) * (pair.1 - pair.2 : Int)⌋

/-- The headway of two frames, 0 if the older one is missing, cut off at 255. -/
def trueHeadway (pair : Int × Int) : Int := if pair.2 = 0 then 0 else min 255 (headwayTime pair)

/-- The time is not changed for the worse when it is stored in a byte. -/
def FitsByte (pair : Int × Int) : Prop := pair.2 ≠ 0 → headwayTime pair < 256 ∨ headwayTime pair % 256 = 255

theorem headwayTime_eq (pair : Int × Int) : headwayTime pair = (pair.1 - pair.2) * 4 / 10 := by
  have quotient : (4 / 10 : ℚ) * (pair.1 - pair.2 : Int) = (((pair.1 - pair.2) * 4 : Int) : ℚ) / ((10 : Nat) : ℚ) := by
    push_cast
    ring
  rw [headwayTime, quotient, Rat.floor_intCast_div_natCast]
  rfl

/-- A byte that holds a number, with everything above 254 made 255. -/
theorem clamp_eq_min {v : Int} (positive : 0 ≤ v) :
    ((((if 254 < UInt8.ofInt v then 255 else UInt8.ofInt v) : UInt8).toNat : Int) = min 255 v) ↔
      v < 256 ∨ v % 256 = 255 := by
  have byte : ((UInt8.ofInt v).toNat : Int) = v % 256 := by
    rw [UInt8.ofInt, UInt8.toNat_ofNat']
    omega
  have above : 254 < UInt8.ofInt v ↔ 254 < v % 256 := by
    rw [UInt8.lt_iff_toNat_lt, ← byte]
    show 254 < _ ↔ _
    omega
  split
  · next high =>
    rw [above] at high
    show (255 : Int) = _ ↔ _
    omega
  · next low =>
    rw [above] at low
    rw [byte]
    omega

theorem headway_eq_iff {pair : Int × Int} (order : 0 ≤ pair.2 ∧ (pair.2 ≠ 0 → pair.2 < pair.1)) :
    (((headway pair.1 pair.2).toNat : Int) = trueHeadway pair) ↔ FitsByte pair := by
  unfold headway trueHeadway FitsByte
  by_cases older : pair.2 = 0
  · simp [older]
  · have later := order.2 older
    have both : pair.1 ≠ 0 ∧ pair.2 ≠ 0 := ⟨by omega, older⟩
    rw [if_pos both, if_neg older, headwayTime_eq]
    refine (clamp_eq_min (by omega)).trans ?_
    simp [older]

/-- The headways of a lane at the head and the tail coil. -/
def StaticChannel.headways (c : StaticChannel) (i : Fin channelMaxNum) : UInt8 × UInt8 :=
  ((c.eachchannel i).mHeadwayTimeOfHeaderVirtualCoil, (c.eachchannel i).mHeadwayTimeOfTailVirtualCoil)

/-- A reporting frame reports the headways of the pairs it leaves. -/
theorem packStep_headways {f : PackFrame} {i : Fin channelMaxNum} (used : i.val < f.out.algNum) (reports : f.reports = true)
    (c : StaticChannel) :
    (packStep c f).headways i =
      (headway ((packStep c f).carInfo i).head.1 ((packStep c f).carInfo i).head.2,
        headway ((packStep c f).carInfo i).tail.1 ((packStep c f).carInfo i).tail.2) := by
  obtain ⟨head, tail⟩ := packStep_pairs used c
  rw [head, tail]
  have lane := congrArg LaneView.channel (packStep_lane used c)
  rw [PackFrame.pack, if_pos reports] at lane
  have channel : (packStep c f).eachchannel i = _ := lane
  rw [StaticChannel.headways, channel]
  rfl

/-- What is to be found for a lane after the frames of a run: the last two frames with a car at either coil, and
after a reporting frame their headways. -/
structure HeadwayRight (i : Fin channelMaxNum) (frames : List PackFrame) (reports : Bool) (c : StaticChannel) : Prop where
  head : (c.carInfo i).head = lastTwo (headFrames i frames)
  tail : (c.carInfo i).tail = lastTwo (tailFrames i frames)
  headHeadway : reports = true → ((c.headways i).1.toNat : Int) = trueHeadway (lastTwo (headFrames i frames))
  tailHeadway : reports = true → ((c.headways i).2.toNat : Int) = trueHeadway (lastTwo (tailFrames i frames))

/-- The pair of the tail coil is right as long as it has at most one frame, or once a car at the head coil had come by
its last frame. -/
theorem HeadwayInv.tail_iff {i : Fin channelMaxNum} {frames : List PackFrame} {c : StaticChannel}
    (inv : HeadwayInv i frames c) (grow : FramesGrow frames) :
    (c.carInfo i).tail = lastTwo (tailFrames i frames) ↔ (tailFrames i frames).length < 2 ∨ Paired i frames := by
  rw [← lastTwo_snd_eq_zero (grow.tail i), Prod.ext_iff, inv.older]
  refine (and_iff_right inv.last).trans ?_
  split
  · next paired => simp [paired]
  · next unpaired => simp [unpaired, eq_comm]

/-- **The counted headways.** After each frame of any run the frame numbers and the reported headways of a lane are
right exactly if the tail coil has seen at most one frame, or a car was at the head coil by the time of its last one,
and at a reporting frame no time is lost in the byte. -/
theorem headway_iff (i : Fin channelMaxNum) (frames : List PackFrame) (used : ∀ f ∈ frames, i.val < f.out.algNum)
    (grow : FramesGrow frames) (before after : List PackFrame) (f : PackFrame) (split : frames = before ++ f :: after) :
    HeadwayRight i (before ++ [f]) f.reports (packRun (before ++ [f])) ↔
      ((tailFrames i (before ++ [f])).length < 2 ∨
          ∃ h ∈ headFrames i (before ++ [f]), h ≤ (lastTwo (tailFrames i (before ++ [f]))).1) ∧
        (f.reports = true →
          FitsByte (lastTwo (headFrames i (before ++ [f]))) ∧ FitsByte (lastTwo (tailFrames i (before ++ [f])))) := by
  rw [List.append_cons] at split
  subst split
  have grow' := grow.front
  have inv := headwayInv_run (fun f there => used f (List.mem_append_left _ there)) grow'
  have tail := inv.tail_iff grow'
  have now : i.val < f.out.algNum := used f (by simp)
  have bytes : f.reports = true → (packRun (before ++ [f])).headways i = _ := fun reports =>
    (congrArg (StaticChannel.headways · i) (packRun_snoc before f)).trans (packStep_headways now reports _)
  rw [← packRun_snoc, inv.head] at bytes
  constructor
  · intro right
    refine ⟨tail.mp right.tail, fun reports => ⟨?_, ?_⟩⟩
    · rw [← headway_eq_iff (lastTwo_lt (grow'.head i)), ← right.headHeadway reports, bytes reports]
    · rw [← headway_eq_iff (lastTwo_lt (grow'.tail i)), ← right.tailHeadway reports, bytes reports, right.tail]
  · rintro ⟨paired, fits⟩
    have same := tail.mpr paired
    refine ⟨inv.head, same, fun reports => ?_, fun reports => ?_⟩
    · rw [bytes reports]
      exact (headway_eq_iff (lastTwo_lt (grow'.head i))).mpr (fits reports).1
    · rw [bytes reports, same]
      exact (headway_eq_iff (lastTwo_lt (grow'.tail i))).mpr (fits reports).2

/-- A frame with the flags of the two coils. -/
def coils (framecount : Int) (calarflag : UInt32) (isCarInTail : Bool) : PackFrame :=
  oneLane framecount { (default : LaneOut) with calarflag := calarflag, isCarInTail := isCarInTail }

/-- Two cars over both coils. -/
theorem headway_iff_two_cars :
    HeadwayRight 0 [coils 2 2 false, coils 7 2 true, coils 12 0 true] true
      (packRun [coils 2 2 false, coils 7 2 true, coils 12 0 true]) := by
  apply (headway_iff 0 [coils 2 2 false, coils 7 2 true, coils 12 0 true] (by decide) (by unfold FramesGrow; decide)
    [coils 2 2 false, coils 7 2 true] [] (coils 12 0 true) rfl).mpr
  refine ⟨by decide, fun _ => ?_⟩
  unfold FitsByte
  simp only [headwayTime_eq]
  decide

/-- Before the first car at the head coil the older car at the tail coil is forgotten, and a headway of 256 is
reported as 0. -/
theorem headway_lost :
    FramesGrow [coils 1 0 true, coils 2 0 true] ∧ FramesGrow [coils 8 2 false, coils 648 2 false] ∧
      ¬ HeadwayRight 0 [coils 1 0 true, coils 2 0 true] false (packRun [coils 1 0 true, coils 2 0 true]) ∧
      ¬ HeadwayRight 0 [coils 8 2 false, coils 648 2 false] true (packRun [coils 8 2 false, coils 648 2 false]) := by
  refine ⟨by unfold FramesGrow; decide, by unfold FramesGrow; decide, ?_, ?_⟩
  · intro right
    exact absurd right.tail (by decide)
  · intro right
    have reported := right.headHeadway rfl
    rw [trueHeadway, headwayTime_eq] at reported
    exact absurd reported (by decide)

end VideoDetector.Signal
