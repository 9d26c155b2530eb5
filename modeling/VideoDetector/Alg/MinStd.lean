import Mathlib.Data.List.DropRight
import VideoDetector.Alg.BackGrey

/-!
# The least deviations (`updateMinStd` in `fvd-new/alg-mutilthread/m_arith.cpp`)

A period opens with a small deviation, takes the least one of the frames in which nothing passes, and is recorded when it
closes. The last 15 are kept, and `min_part_std` is set to the one in the middle. `min_std_iff` says in which runs this is
right: a deviation of 0 is taken for a fresh start by the next call, and a full window moves in a wrong way.
-/

namespace VideoDetector.Alg
set_option autoImplicit false
open Lib

/-- The fields of a lane for one part. -/
structure MinStd where
  statMinStd : Nat → Int
  statStdNum : Int
  minPartStd : Int
  lminPartStd : Nat
  curPartStd : Nat
  numCalGmin : Nat
  beginUpdateGminStd : Bool
  hasUpdateMinStd : Bool

/-- What a call does: the window is cleared, a period opens, a deviation contributes to it, its value is recorded, or
`min_part_std` is set to the result of `sort_aver`. -/
inductive StdEvent where
  | clear
  | opening
  | contribute (d : Nat)
  | record (v : Int)
  | set (v : Int)
  deriving DecidableEq

/-- The fields, and what was done so far. -/
structure StdRun where
  std : MinStd
  events : List StdEvent

/-- A call for part 4 or 9, with the result of `StandardDeviation`. -/
structure StdCall where
  gThisFrameTime : Nat
  deviation : Nat
  bSpeedCounterChanged : Bool
  bSpeedCounterChanged1 : Bool
  uTrafficFlow : Nat

/-- Nothing passes. -/
def StdCall.allowed (c : StdCall) : Bool := !c.bSpeedCounterChanged && !c.bSpeedCounterChanged1

/-- The loop that moves a full window. -/
def moveStd (cells : Nat → Int) (lmin : Int) : Nat → Int :=
  (List.range 14).foldl (fun c i => Function.update (Function.update c i (c (i + 1))) 14 lmin) cells

namespace StdRun

def start : StdRun := ⟨⟨fun _ => 0, 0, 0, 0, 0, 0, false, false⟩, []⟩

/-- What is done in the first frame. -/
def cleared (s : StdRun) (c : StdCall) : StdRun :=
  if c.gThisFrameTime = 0 then
    ⟨{ s.std with statMinStd := fun i => if i < 15 then 0 else s.std.statMinStd i, statStdNum := 0 }, s.events ++ [.clear]⟩
  else s

/-- The deviation, which also is the least one until a period was closed. -/
def measured (s : StdRun) (c : StdCall) : StdRun :=
  let minPartStd := if s.std.minPartStd = 0 then 100 else s.std.minPartStd
  let lminPartStd := if s.std.lminPartStd = 0 then 100 else s.std.lminPartStd
  let minPartStd :=
    if s.std.hasUpdateMinStd = false ∧ (c.deviation : Int) < minPartStd ∧ c.allowed then (c.deviation : Int) else minPartStd
  { s with std := { s.std with curPartStd := c.deviation, minPartStd := minPartStd, lminPartStd := lminPartStd } }

/-- A period is opened. -/
def opened (s : StdRun) (c : StdCall) : StdRun :=
  if s.std.curPartStd < 50 ∧ s.std.beginUpdateGminStd = false ∧ c.allowed then
    ⟨{ s.std with beginUpdateGminStd := true, numCalGmin := 0 }, s.events ++ [.opening]⟩
  else s

/-- The deviation contributes. -/
def accumulated (s : StdRun) (c : StdCall) : StdRun :=
  if s.std.beginUpdateGminStd = true ∧ c.uTrafficFlow ≠ 0 then
    let lminPartStd := if s.std.curPartStd < s.std.lminPartStd ∧ c.allowed then s.std.curPartStd else s.std.lminPartStd
    ⟨{ s.std with numCalGmin := s.std.numCalGmin + 1, lminPartStd := lminPartStd },
      if c.allowed then s.events ++ [.contribute s.std.curPartStd] else s.events⟩
  else s

/-- `min_part_std` is set to the result of `sort_aver`. -/
def setMin (s : StdRun) : StdRun :=
  let v := (sortAver s.std.statMinStd 15 s.std.statStdNum.toNat).1
  ⟨{ s.std with minPartStd := v }, s.events ++ [.set v]⟩

/-- A value for a full window. -/
def shift (s : StdRun) : StdRun :=
  ⟨{ s.std with statMinStd := moveStd s.std.statMinStd s.std.lminPartStd }, s.events ++ [.record s.std.lminPartStd]⟩

/-- A value for the first free cell. -/
def push (s : StdRun) : StdRun :=
  ⟨{ s.std with statMinStd := Function.update s.std.statMinStd s.std.statStdNum.toNat s.std.lminPartStd,
                statStdNum := s.std.statStdNum + 1 }, s.events ++ [.record s.std.lminPartStd]⟩

def record (s : StdRun) : StdRun :=
  if 1 < |(s.std.lminPartStd : Int) - 100| then
    if s.std.statStdNum = 15 then s.shift else s.push.setMin
  else s

/-- The period is closed. -/
def closed (s : StdRun) (cacPeriod : Nat) : StdRun :=
  if cacPeriod < s.std.numCalGmin then
    { s.record with std := { s.record.std with lminPartStd := 100, beginUpdateGminStd := false, hasUpdateMinStd := true } }
  else s

/-- What is done in every 3000th frame. -/
def renewed (s : StdRun) (c : StdCall) : StdRun :=
  if s.std.statStdNum = 15 ∧ c.gThisFrameTime % 3000 = 0 then s.setMin else s

/-- What comes before a deviation contributes. -/
def prepared (s : StdRun) (c : StdCall) : StdRun := ((s.cleared c).measured c).opened c

/-- `updateMinStd`. -/
def updateMinStd (cacPeriod : Nat) (s : StdRun) (c : StdCall) : StdRun := (((s.prepared c).accumulated c).closed cacPeriod).renewed c

end StdRun

/-! ## The window and the periods -/

/-- The values recorded since the window was cleared. -/
def recordedOf (events : List StdEvent) : List Int :=
  events.foldl (fun xs e => match e with
    | .clear => []
    | .record v => xs ++ [v]
    | _ => xs) []

/-- The deviations that contributed to the period, if one was opened and has not been recorded. -/
def periodOf (events : List StdEvent) : Option (List Nat) :=
  events.foldl (fun p e => match e with
    | .opening => some []
    | .contribute d => p.map (· ++ [d])
    | .record _ => none
    | _ => p) none

/-- The last 15 recorded values. -/
def lastRecorded (events : List StdEvent) : List Int := (recordedOf events).drop ((recordedOf events).length - 15)

/-- They are in the first cells, and `stat_std_num` is their number. -/
structure StdWindow (s : StdRun) : Prop where
  number : s.std.statStdNum = (min (recordedOf s.events).length 15 : Nat)
  recent : Recent 15 s.std.statMinStd (min (recordedOf s.events).length 15) (recordedOf s.events)

/-- A recorded value is the least deviation that contributed to its period, which is recorded once; and `min_part_std` was
set to the value in the middle. -/
def EventRight (before : List StdEvent) : StdEvent → Prop
  | .record v => ∃ xs, periodOf before = some xs ∧ ∃ d : Nat, v = d ∧ IsLeast { x | x ∈ xs } d
  | .set v => IsRank (lastRecorded before) ((lastRecorded before).length / 2) v
  | _ => True

def EventsRight (events : List StdEvent) : Prop := ∀ before e after, events = before ++ e :: after → EventRight before e

/-- The deviation of this call, if it contributes. -/
def StdCall.contribution (c : StdCall) : List Nat := if c.uTrafficFlow ≠ 0 ∧ c.allowed then [c.deviation] else []

/-- The least one of 100 and the deviations that contributed since the last 0 of an earlier call. -/
def leastSinceZero (xs now : List Nat) : Nat := now.foldl min ((xs.rtakeWhile (· ≠ 0)).foldl min 100)

/-- A call that closes a period and records it: if an earlier deviation of the period is 0, that of this call is 0, too; and
if the window is full, its last value is the same as the new one. -/
def Lasting (cacPeriod : Nat) (s : StdRun) (c : StdCall) : Prop :=
  (s.prepared c).std.beginUpdateGminStd = true → cacPeriod < ((s.prepared c).accumulated c).std.numCalGmin →
    ∀ xs, periodOf (s.prepared c).events = some xs → leastSinceZero xs c.contribution < 99 →
      (0 ∈ xs → 0 ∈ c.contribution) ∧
        ((s.prepared c).std.statStdNum = 15 → (s.prepared c).std.statMinStd 14 = leastSinceZero xs c.contribution)

/-! ## Least deviations -/

theorem foldl_min_le (xs : List Nat) (a : Nat) : xs.foldl min a ≤ a ∧ ∀ x ∈ xs, xs.foldl min a ≤ x := by
  induction xs generalizing a with
  | nil => exact ⟨le_refl a, fun x none => absurd none List.not_mem_nil⟩
  | cons y xs ih =>
    obtain ⟨first, rest⟩ := ih (min a y)
    rw [List.foldl_cons]
    refine ⟨first.trans (min_le_left a y), fun x member => ?_⟩
    rcases List.mem_cons.mp member with rfl | member
    · exact first.trans (min_le_right a x)
    · exact rest x member

theorem foldl_min_mem (xs : List Nat) (a : Nat) : xs.foldl min a = a ∨ xs.foldl min a ∈ xs := by
  induction xs generalizing a with
  | nil => exact .inl rfl
  | cons y xs ih =>
    rw [List.foldl_cons]
    rcases ih (min a y) with same | member
    · rcases min_choice a y with first | second
      · exact .inl (same.trans first)
      · exact .inr (by rw [same, second]; exact List.mem_cons_self)
    · exact .inr (List.mem_cons_of_mem y member)

theorem leastSinceZero_le (xs now : List Nat) : leastSinceZero xs now ≤ 100 :=
  (foldl_min_le now _).1.trans (foldl_min_le _ 100).1

theorem leastSinceZero_pos (xs : List Nat) : 0 < leastSinceZero xs [] := by
  rcases foldl_min_mem (xs.rtakeWhile (· ≠ 0)) 100 with same | member
  · rw [leastSinceZero, List.foldl_nil, same]
    decide
  · have := List.mem_rtakeWhile_imp member
    simp only [decide_eq_true_eq] at this
    exact Nat.pos_of_ne_zero this

/-- The next call starts again after a 0. -/
theorem leastSinceZero_next (xs : List Nat) (d : Nat) :
    leastSinceZero (xs ++ [d]) [] = if leastSinceZero xs [d] = 0 then 100 else leastSinceZero xs [d] := by
  have before := leastSinceZero_pos xs
  have last : leastSinceZero xs [d] = min (leastSinceZero xs []) d := rfl
  by_cases zero : d = 0
  · rw [last, zero, Nat.min_zero, if_pos rfl, leastSinceZero, List.rtakeWhile_concat_neg _ _ _ (by simp)]
    rfl
  · rw [if_neg (by omega), last, leastSinceZero, List.rtakeWhile_concat_pos _ _ _ (by simpa using zero), List.foldl_append]
    rfl

/-- What is recorded is the least deviation of the period exactly if no 0 of an earlier call was lost. -/
theorem leastSinceZero_isLeast_iff {xs now : List Nat} (small : leastSinceZero xs now < 99) :
    IsLeast { x | x ∈ xs ++ now } (leastSinceZero xs now) ↔ (0 ∈ xs → 0 ∈ now) := by
  constructor
  · rintro ⟨_, lower⟩ zero
    have none : leastSinceZero xs now = 0 := Nat.le_zero.mp (lower (List.mem_append_left now zero))
    rcases foldl_min_mem now (leastSinceZero xs []) with same | member
    · exact absurd (same.symm.trans none) (leastSinceZero_pos xs).ne'
    · rw [leastSinceZero] at none
      rwa [leastSinceZero, List.foldl_nil, none] at member
  · intro kept
    by_cases zero : 0 ∈ xs
    · have none : leastSinceZero xs now = 0 := Nat.le_zero.mp ((foldl_min_le now _).2 0 (kept zero))
      rw [none]
      exact ⟨List.mem_append_left now zero, fun x _ => Nat.zero_le x⟩
    · have whole : leastSinceZero xs now = (xs ++ now).foldl min 100 := by
        rw [leastSinceZero, List.rtakeWhile_eq_self_iff.mpr, List.foldl_append]
        intro x member
        exact decide_eq_true fun same => zero (same ▸ member)
      rw [whole] at small ⊢
      refine ⟨(foldl_min_mem _ 100).resolve_left (by omega), fun x member => (foldl_min_le _ 100).2 x member⟩

/-! ## A full window -/

/-- All passes but the last move a cell and store the new value behind. -/
theorem moveStd_passes (cells : Nat → Int) (lmin : Int) {n : Nat} (few : n < 14) (k : Nat) :
    (List.range n).foldl (fun c i => Function.update (Function.update c i (c (i + 1))) 14 lmin) cells k =
      if k < n then cells (k + 1) else if k = 14 ∧ 0 < n then lmin else cells k := by
  induction n generalizing k with
  | zero => rw [if_neg (Nat.not_lt_zero k), if_neg fun later => absurd later.2 (Nat.not_lt_zero 0)]; rfl
  | succ n ih =>
    have before := ih (by omega)
    rw [List.range_succ, List.foldl_append, List.foldl_cons, List.foldl_nil]
    by_cases last : k = 14
    · rw [last, Function.update_self, if_neg (by omega), if_pos ⟨rfl, Nat.succ_pos n⟩]
    · rw [Function.update_of_ne last]
      by_cases here : k = n
      · rw [here, Function.update_self, before, if_neg (by omega), if_neg (by omega), if_pos (Nat.lt_succ_self n)]
      · rw [Function.update_of_ne here, before]
        split_ifs <;> first | rfl | omega

/-- The new value is in the last two cells. -/
theorem moveStd_apply (cells : Nat → Int) (lmin : Int) (k : Nat) :
    moveStd cells lmin k = if k < 13 then cells (k + 1) else if k < 15 then lmin else cells k := by
  have before := moveStd_passes cells lmin (n := 13) (by decide)
  rw [moveStd, show List.range 14 = List.range 13 ++ [13] from rfl, List.foldl_append, List.foldl_cons, List.foldl_nil]
  by_cases last : k = 14
  · rw [last, Function.update_self]
    rfl
  · rw [Function.update_of_ne last]
    by_cases here : k = 13
    · rw [here, Function.update_self, before]
      rfl
    · rw [Function.update_of_ne here, before]
      split_ifs <;> first | rfl | omega

/-- A full window moves down as it should exactly if the new value is the last one again. -/
theorem recent_moveStd_iff {cells : Nat → Int} {xs : List Int} (recent : Recent 15 cells 15 xs) (v : Int) :
    Recent 15 (moveStd cells v) 15 (xs ++ [v]) ↔ cells 14 = v := by
  have right := Recent.shift (n := 14) recent v
  constructor
  · intro moved
    have same := List.map_inj_left.mp (moved.values.trans right.values.symm) 13 (by decide)
    rw [moveStd_apply, if_neg (by decide), if_pos (by decide)] at same
    exact same.symm
  · intro again
    refine right.same fun i inside => ?_
    rw [moveStd_apply]
    rcases lt_trichotomy i 13 with less | rfl | more
    · rw [if_pos less, if_pos (by omega)]
    · rw [if_neg (by decide), if_pos (by decide), if_pos (by decide), again]
    · rw [if_neg (by omega), if_pos inside, if_neg (by omega)]

/-! ## The events -/

theorem recordedOf_snoc (events : List StdEvent) (e : StdEvent) : recordedOf (events ++ [e]) =
    match e with
    | .clear => []
    | .record v => recordedOf events ++ [v]
    | _ => recordedOf events := by
  rw [recordedOf, List.foldl_append]
  rfl

theorem periodOf_snoc (events : List StdEvent) (e : StdEvent) : periodOf (events ++ [e]) =
    match e with
    | .opening => some []
    | .contribute d => (periodOf events).map (· ++ [d])
    | .record _ => none
    | _ => periodOf events := by
  rw [periodOf, List.foldl_append]
  rfl

theorem eventsRight_snoc_iff {events : List StdEvent} {e : StdEvent} :
    EventsRight (events ++ [e]) ↔ EventsRight events ∧ EventRight events e := forall_split_snoc_iff

/-- When a period is recorded right. -/
theorem eventsRight_record_iff {events : List StdEvent} {xs now : List Nat} (period : periodOf events = some (xs ++ now))
    (small : leastSinceZero xs now < 99) :
    EventsRight (events ++ [.record (leastSinceZero xs now)]) ↔ EventsRight events ∧ (0 ∈ xs → 0 ∈ now) := by
  refine eventsRight_snoc_iff.trans (and_congr_right fun _ => ?_)
  rw [← leastSinceZero_isLeast_iff small]
  constructor
  · rintro ⟨ys, same, d, value, right⟩
    cases period.symm.trans same
    rwa [Int.natCast_inj.mp value]
  · exact fun right => ⟨_, period, _, rfl, right⟩

section
variable {s t : StdRun} {c : StdCall}

/-- A state with the same window. -/
theorem StdWindow.same (window : StdWindow s) (cells : t.std.statMinStd = s.std.statMinStd) (number : t.std.statStdNum = s.std.statStdNum)
    (recorded : recordedOf t.events = recordedOf s.events) : StdWindow t := by
  constructor
  · rw [number, recorded]
    exact window.number
  · rw [cells, recorded]
    exact window.recent

theorem setMin_same (s : StdRun) : recordedOf s.setMin.events = recordedOf s.events ∧ periodOf s.setMin.events = periodOf s.events :=
  ⟨recordedOf_snoc _ _, periodOf_snoc _ _⟩

theorem StdWindow.setMin (window : StdWindow s) (some : s.std.statStdNum ≠ 0) :
    StdWindow s.setMin ∧ (EventsRight s.setMin.events ↔ EventsRight s.events) := by
  refine ⟨window.same rfl rfl (setMin_same s).1, eventsRight_snoc_iff.trans (and_iff_left ?_)⟩
  have number := window.number
  rw [number] at some
  rw [number]
  exact sortAver_recent window.recent (by omega) (by decide) (by decide)

/-- What is known before a call: the least deviation of an open period, which a 0 starts again. -/
structure Accumulates (s : StdRun) : Prop where
  opened : s.std.beginUpdateGminStd = true →
    ∃ xs, periodOf s.events = some xs ∧ (if s.std.lminPartStd = 0 then 100 else s.std.lminPartStd) = leastSinceZero xs []
  idle : s.std.beginUpdateGminStd = false → (if s.std.lminPartStd = 0 then 100 else s.std.lminPartStd) = 100

/-- What is known before a deviation contributes, and after it: `p` is the period before, `now` what contributed since. -/
structure Contributes (c : StdCall) (p : Option (List Nat)) (now : List Nat) (t : StdRun) : Prop where
  window : StdWindow t
  cur : t.std.curPartStd = c.deviation
  opened : t.std.beginUpdateGminStd = true →
    ∃ xs, p = some xs ∧ periodOf t.events = some (xs ++ now) ∧ t.std.lminPartStd = leastSinceZero xs now
  idle : t.std.beginUpdateGminStd = false → t.std.lminPartStd = 100

theorem cleared_window (window : StdWindow s) (c : StdCall) : StdWindow (s.cleared c) := by
  unfold StdRun.cleared
  split
  next =>
    constructor <;> dsimp only <;> rw [recordedOf_snoc]
    · rfl
    · exact Recent.nil 15 _
  next => exact window

theorem cleared_same (s : StdRun) (c : StdCall) : periodOf (s.cleared c).events = periodOf s.events ∧
    (EventsRight (s.cleared c).events ↔ EventsRight s.events) ∧ (s.cleared c).std.beginUpdateGminStd = s.std.beginUpdateGminStd ∧
      (s.cleared c).std.lminPartStd = s.std.lminPartStd := by
  unfold StdRun.cleared
  split
  next => exact ⟨periodOf_snoc _ _, eventsRight_snoc_iff.trans (and_iff_left trivial), rfl, rfl⟩
  next => exact ⟨rfl, Iff.rfl, rfl, rfl⟩

/-- A period that is opened has no deviations yet. -/
theorem Contributes.opening (before : Contributes c (periodOf t.events) [] t) :
    Contributes c (periodOf (t.opened c).events) [] (t.opened c) ∧ (EventsRight (t.opened c).events ↔ EventsRight t.events) := by
  unfold StdRun.opened
  split
  next small =>
    have fresh : periodOf (t.events ++ [.opening]) = some [] := periodOf_snoc _ _
    refine ⟨⟨before.window.same rfl rfl (recordedOf_snoc _ _), before.cur, fun _ => ⟨[], fresh, fresh, ?_⟩, fun none => ?_⟩,
      eventsRight_snoc_iff.trans (and_iff_left trivial)⟩
    · exact before.idle small.2.1
    · cases none
  next => exact ⟨before, Iff.rfl⟩

theorem Accumulates.prepared (period : Accumulates s) (window : StdWindow s) (c : StdCall) :
    Contributes c (periodOf (s.prepared c).events) [] (s.prepared c) ∧
      (EventsRight (s.prepared c).events ↔ EventsRight s.events) := by
  obtain ⟨same, events, flag, lmin⟩ := cleared_same s c
  have measured : Contributes c (periodOf ((s.cleared c).measured c).events) [] ((s.cleared c).measured c) := by
    refine ⟨(cleared_window window c).same rfl rfl rfl, rfl, fun opened => ?_, fun idle => ?_⟩
    · obtain ⟨xs, known, least⟩ := period.opened (flag.symm.trans opened)
      have known' : periodOf ((s.cleared c).measured c).events = some xs := same.trans known
      exact ⟨xs, known', by rw [List.append_nil, known'], by rw [← least, ← lmin]; rfl⟩
    · rw [← period.idle (flag.symm.trans idle), ← lmin]
      rfl
  obtain ⟨prepared, events'⟩ := measured.opening
  exact ⟨prepared, events'.trans events⟩

/-- The deviation of a call contributes. -/
theorem Contributes.accumulate {p : Option (List Nat)} (before : Contributes c p [] t) : Contributes c p c.contribution (t.accumulated c) ∧
    (EventsRight (t.accumulated c).events ↔ EventsRight t.events) := by
  unfold StdRun.accumulated StdCall.contribution
  by_cases running : t.std.beginUpdateGminStd = true ∧ c.uTrafficFlow ≠ 0
  · obtain ⟨xs, known, period, least⟩ := before.opened running.1
    rw [List.append_nil] at period
    rw [if_pos running]
    by_cases allowed : c.allowed = true
    · rw [if_pos allowed, if_pos ⟨running.2, allowed⟩]
      refine ⟨⟨before.window.same rfl rfl (recordedOf_snoc _ _), before.cur, fun _ => ⟨xs, known, ?_, ?_⟩, fun idle => ?_⟩,
        eventsRight_snoc_iff.trans (and_iff_left trivial)⟩
      · show periodOf (t.events ++ [.contribute t.std.curPartStd]) = _
        rw [periodOf_snoc, before.cur, period]
        rfl
      · show (if t.std.curPartStd < t.std.lminPartStd ∧ c.allowed = true then t.std.curPartStd else t.std.lminPartStd) =
          min (leastSinceZero xs []) c.deviation
        rw [before.cur, least]
        by_cases less : c.deviation < leastSinceZero xs []
        · rw [if_pos ⟨less, allowed⟩, Nat.min_eq_right less.le]
        · rw [if_neg fun both => less both.1, Nat.min_eq_left (not_lt.mp less)]
      · exact absurd (running.1.symm.trans idle) (by decide)
    · rw [if_neg allowed, if_neg fun contributes => allowed contributes.2]
      refine ⟨⟨before.window.same rfl rfl rfl, before.cur, fun _ => ⟨xs, known, ?_, ?_⟩, fun idle => ?_⟩, Iff.rfl⟩
      · rw [List.append_nil]
        exact period
      · exact (if_neg fun contributes => allowed contributes.2).trans least
      · exact absurd (running.1.symm.trans idle) (by decide)
  · rw [if_neg running]
    refine ⟨⟨before.window, before.cur, fun opened => ?_, before.idle⟩, Iff.rfl⟩
    rw [if_neg fun contributes => running ⟨opened, contributes.1⟩]
    exact before.opened opened

/-! ## The end of a period -/

theorem StdWindow.shift_iff (window : StdWindow s) (full : s.std.statStdNum = 15) :
    StdWindow s.shift ↔ s.std.statMinStd 14 = s.std.lminPartStd := by
  obtain ⟨number, recent⟩ := window
  have long : 15 ≤ (recordedOf s.events).length := by omega
  rw [Nat.min_eq_right long] at recent
  have more : recordedOf s.shift.events = recordedOf s.events ++ [(s.std.lminPartStd : Int)] := recordedOf_snoc _ _
  have next : min (recordedOf s.shift.events).length 15 = 15 := by
    rw [more, List.length_append, List.length_singleton]
    omega
  rw [← recent_moveStd_iff recent]
  constructor
  · intro window'
    have recent' := window'.recent
    rw [next, more] at recent'
    exact recent'
  · intro recent'
    constructor <;> rw [next]
    · exact full
    · rw [more]
      exact recent'

theorem StdWindow.push (window : StdWindow s) (room : s.std.statStdNum ≠ 15) : StdWindow s.push ∧ s.push.std.statStdNum ≠ 0 := by
  obtain ⟨number, recent⟩ := window
  have low : (recordedOf s.events).length < 15 := by omega
  rw [Nat.min_eq_left low.le] at number recent
  have more : recordedOf s.push.events = recordedOf s.events ++ [(s.std.lminPartStd : Int)] := recordedOf_snoc _ _
  have next : min (recordedOf s.push.events).length 15 = (recordedOf s.events).length + 1 := by
    rw [more, List.length_append, List.length_singleton]
    omega
  have counted : s.push.std.statStdNum = ((recordedOf s.events).length + 1 : Nat) := by
    show s.std.statStdNum + 1 = _
    rw [number, Int.natCast_succ]
  refine ⟨⟨by rw [next, counted], ?_⟩, by omega⟩
  rw [next, more]
  show Recent 15 (Function.update s.std.statMinStd s.std.statStdNum.toNat s.std.lminPartStd) _ _
  rw [number, Int.toNat_natCast]
  exact recent.push low _

/-- What is recorded is right exactly if no 0 was lost and a full window ends with the same value. -/
theorem Contributes.record_iff {p : Option (List Nat)} {now : List Nat} (after : Contributes c p now t) :
    (StdWindow t.record ∧ EventsRight t.record.events) ↔ EventsRight t.events ∧
      (t.std.beginUpdateGminStd = true → ∀ xs, p = some xs → leastSinceZero xs now < 99 →
        (0 ∈ xs → 0 ∈ now) ∧ (t.std.statStdNum = 15 → t.std.statMinStd 14 = leastSinceZero xs now)) := by
  have skip (large : 99 ≤ t.std.lminPartStd) (high : t.std.lminPartStd ≤ 100) : t.record = t :=
    if_neg (by rw [lt_abs]; omega)
  cases flag : t.std.beginUpdateGminStd with
  | false =>
    have idle := after.idle flag
    rw [skip (by omega) (by omega), and_iff_right after.window]
    exact (and_iff_left fun opened => absurd opened (by decide)).symm
  | true =>
    obtain ⟨xs, known, period, least⟩ := after.opened flag
    have only : (true = true → ∀ ys, p = some ys → leastSinceZero ys now < 99 →
        (0 ∈ ys → 0 ∈ now) ∧ (t.std.statStdNum = 15 → t.std.statMinStd 14 = leastSinceZero ys now)) ↔
        (leastSinceZero xs now < 99 → (0 ∈ xs → 0 ∈ now) ∧ (t.std.statStdNum = 15 → t.std.statMinStd 14 = leastSinceZero xs now)) := by
      refine ⟨fun all => all rfl xs known, fun own _ ys same => ?_⟩
      cases known.symm.trans same
      exact own
    rw [only]
    by_cases small : leastSinceZero xs now < 99
    · have recorded := eventsRight_record_iff period small
      have taken : t.record = if t.std.statStdNum = 15 then t.shift else t.push.setMin :=
        if_pos (by rw [lt_abs]; omega)
      rw [← least] at recorded
      rw [taken, imp_iff_right small, ← and_assoc, ← recorded, ← least]
      by_cases full : t.std.statStdNum = 15
      · rw [if_pos full, imp_iff_right full, ← after.window.shift_iff full]
        exact and_comm
      · obtain ⟨window, some⟩ := after.window.push full
        obtain ⟨window', events⟩ := window.setMin some
        rw [if_neg full, and_iff_right window', events]
        exact (and_iff_left fun full' => absurd full' full).symm
    · have high := leastSinceZero_le xs now
      rw [skip (by omega) (by omega), and_iff_right after.window]
      exact (and_iff_left fun small' => absurd small' small).symm

/-- The next call starts again after a 0. -/
theorem contribution_next (c : StdCall) (xs : List Nat) : leastSinceZero (xs ++ c.contribution) [] =
    if leastSinceZero xs c.contribution = 0 then 100 else leastSinceZero xs c.contribution := by
  unfold StdCall.contribution
  split
  · exact leastSinceZero_next xs c.deviation
  · rw [List.append_nil, if_neg (leastSinceZero_pos xs).ne']

theorem Contributes.close {p : Option (List Nat)} (after : Contributes c p c.contribution t) (cacPeriod : Nat) :
    Accumulates (t.closed cacPeriod) ∧ ((StdWindow (t.closed cacPeriod) ∧ EventsRight (t.closed cacPeriod).events) ↔
      EventsRight t.events ∧ (t.std.beginUpdateGminStd = true → cacPeriod < t.std.numCalGmin →
        ∀ xs, p = some xs → leastSinceZero xs c.contribution < 99 → (0 ∈ xs → 0 ∈ c.contribution) ∧
          (t.std.statStdNum = 15 → t.std.statMinStd 14 = leastSinceZero xs c.contribution))) := by
  unfold StdRun.closed
  by_cases ended : cacPeriod < t.std.numCalGmin
  · rw [if_pos ended]
    refine ⟨⟨fun opened => absurd opened (by simp), fun _ => rfl⟩, ?_⟩
    simp only [forall_true_left, ended]
    refine Iff.trans (and_congr_left fun _ => ?_) after.record_iff
    exact ⟨fun window => window.same rfl rfl rfl, fun window => window.same rfl rfl rfl⟩
  · rw [if_neg ended]
    refine ⟨⟨fun opened => ?_, fun idle => ?_⟩, ?_⟩
    · obtain ⟨xs, _, period, least⟩ := after.opened opened
      exact ⟨_, period, by rw [contribution_next, least]⟩
    · rw [after.idle idle, if_neg (by decide)]
    · rw [and_iff_right after.window]
      exact (and_iff_left fun _ ended' => absurd ended' ended).symm

theorem renewed_iff (s : StdRun) (c : StdCall) :
    (StdWindow (s.renewed c) ∧ EventsRight (s.renewed c).events) ↔ StdWindow s ∧ EventsRight s.events := by
  unfold StdRun.renewed
  split
  next full =>
    have some : s.std.statStdNum ≠ 0 := by omega
    constructor
    · rintro ⟨window, events⟩
      have window' : StdWindow s := window.same rfl rfl (setMin_same s).1.symm
      exact ⟨window', (window'.setMin some).2.mp events⟩
    · rintro ⟨window, events⟩
      exact ⟨(window.setMin some).1, (window.setMin some).2.mpr events⟩
  next => exact Iff.rfl

theorem Accumulates.renewed (period : Accumulates s) (c : StdCall) : Accumulates (s.renewed c) := by
  unfold StdRun.renewed
  split
  next =>
    refine ⟨fun opened => ?_, period.idle⟩
    rw [(setMin_same s).2]
    exact period.opened opened
  next => exact period

/-! ## Runs -/

/-- The window, what was done with it, and the open period are as they should be. -/
structure StdRight (s : StdRun) : Prop where
  window : StdWindow s
  events : EventsRight s.events
  period : Accumulates s

theorem accumulated_same (t : StdRun) (c : StdCall) : (t.accumulated c).std.beginUpdateGminStd = t.std.beginUpdateGminStd ∧
    (t.accumulated c).std.statStdNum = t.std.statStdNum ∧ (t.accumulated c).std.statMinStd = t.std.statMinStd := by
  unfold StdRun.accumulated
  split <;> exact ⟨rfl, rfl, rfl⟩

/-- **A call** keeps all this exactly if it meets the condition. -/
theorem StdRight.call_iff (right : StdRight s) (cacPeriod : Nat) (c : StdCall) : Accumulates (s.updateMinStd cacPeriod c) ∧
    ((StdWindow (s.updateMinStd cacPeriod c) ∧ EventsRight (s.updateMinStd cacPeriod c).events) ↔ Lasting cacPeriod s c) := by
  obtain ⟨before, events⟩ := right.period.prepared right.window c
  obtain ⟨after, events'⟩ := before.accumulate
  obtain ⟨period, closing⟩ := after.close cacPeriod
  obtain ⟨flag, number, cells⟩ := accumulated_same (s.prepared c) c
  refine ⟨period.renewed c, (renewed_iff _ c).trans (closing.trans ?_)⟩
  rw [events', events, and_iff_right right.events, flag, number, cells]
  exact Iff.rfl

end

theorem stdRight_start : StdRight .start :=
  ⟨⟨rfl, Recent.nil 15 _⟩, fun before e after split => by simp [StdRun.start] at split, ⟨fun opened => absurd opened (by decide), fun _ => rfl⟩⟩

/-- **The window of least deviations**: after every call of a run the window has the last values, each recorded once for its
period as the least deviation that contributed, and `min_part_std` was set to the ones in the middle, exactly if every call
meets the condition. -/
theorem min_std_iff (cacPeriod : Nat) (calls : List StdCall) :
    (∀ before c after, calls = before ++ c :: after →
      StdWindow ((before.foldl (StdRun.updateMinStd cacPeriod) .start).updateMinStd cacPeriod c) ∧
        EventsRight ((before.foldl (StdRun.updateMinStd cacPeriod) .start).updateMinStd cacPeriod c).events) ↔
      ∀ before c after, calls = before ++ c :: after →
        Lasting cacPeriod (before.foldl (StdRun.updateMinStd cacPeriod) .start) c := by
  refine foldl_iff (fun _ => StdRight)
    (fun _ s c => StdWindow (s.updateMinStd cacPeriod c) ∧ EventsRight (s.updateMinStd cacPeriod c).events)
    (fun _ => Lasting cacPeriod) ?_ ?_ stdRight_start
  · intro before s c right lasting
    obtain ⟨period, exact'⟩ := right.call_iff cacPeriod c
    obtain ⟨window, events⟩ := exact'.mpr lasting
    exact ⟨window, events, period⟩
  · exact fun before s c right => (right.call_iff cacPeriod c).2

/-- A call with traffic in which nothing passes. -/
def clearCall (deviation : Nat) : StdCall := ⟨1, deviation, false, false, 1⟩

/-- The state after a deviation of 0 and some of 40. -/
def afterZero (k : Nat) : StdRun :=
  ⟨⟨fun _ => 0, 0, 40, 40, 40, k + 1, true, false⟩, .opening :: .contribute 0 :: List.replicate k (.contribute 40)⟩

theorem afterZero_run {k : Nat} (short : k < 200) (some : 0 < k) :
    (List.replicate k (clearCall 40)).foldl (StdRun.updateMinStd 200) (StdRun.start.updateMinStd 200 (clearCall 0)) = afterZero k := by
  induction k with
  | zero => omega
  | succ k ih =>
    rcases Nat.eq_zero_or_pos k with rfl | some
    · rfl
    · rw [List.replicate_succ', List.foldl_append, ih (by omega) some]
      have running : ¬200 < k + 1 + 1 := by omega
      simp [afterZero, StdRun.updateMinStd, StdRun.prepared, StdRun.cleared, StdRun.measured, StdRun.opened, StdRun.accumulated,
        StdRun.closed, StdRun.renewed, clearCall, StdCall.allowed, running, List.replicate_succ']

theorem afterZero_period (k : Nat) : periodOf (afterZero k).events = some (0 :: List.replicate k 40) := by
  induction k with
  | zero => rfl
  | succ k ih =>
    have more : (afterZero (k + 1)).events = (afterZero k).events ++ [.contribute 40] := by
      simp [afterZero, List.replicate_succ']
    rw [more, periodOf_snoc, ih, List.replicate_succ']
    rfl

/-- A period of 201 calls whose first deviation is 0 is recorded with 40. -/
theorem zeroDeviation_lost :
    ¬EventsRight (((clearCall 0 :: List.replicate 200 (clearCall 40)).foldl (StdRun.updateMinStd 200) .start).events) := by
  rw [List.foldl_cons, List.replicate_succ', List.foldl_append, afterZero_run (by decide) (by decide)]
  have last : ([clearCall 40].foldl (StdRun.updateMinStd 200) (afterZero 199)).events =
      (afterZero 199).events ++ [.contribute 40] ++ [.record 40] ++ [.set 40] := rfl
  rw [last, eventsRight_snoc_iff, eventsRight_snoc_iff]
  rintro ⟨⟨_, xs, period, d, value, least⟩, _⟩
  have all : periodOf ((afterZero 199).events ++ [.contribute 40]) = some (0 :: List.replicate 199 40 ++ [40]) := by
    rw [periodOf_snoc, afterZero_period]
    rfl
  cases all.symm.trans period
  have zero : d ≤ 0 := least.2 List.mem_cons_self
  omega

end VideoDetector.Alg
