import Mathlib.Algebra.Order.Group.Unbundled.Int
import VideoDetector.Lib.Recent
import VideoDetector.Lib.Runs
import VideoDetector.Lib.Selection

/-!
# The grey value of the background (`sort_aver` and `get_averback` in `fvd-new/alg-mutilthread/m_arith.cpp`)

The last nine grey values are kept in `stat_aver_back`, whose last cell is their number, and `aver_back` is set to the one in
the middle. After a new value the number before it is passed to `sort_aver`; `back_grey_iff` says when this is noticed.
-/

namespace VideoDetector.Alg
set_option autoImplicit false
open Lib

/-- What `sort_aver` works on: the array and its copy. -/
structure SortCells where
  array : Nat → Int
  arrayTemp : Nat → Int

/-- `sort_aver`, with the array after it. -/
def sortAver (array : Nat → Int) (arraySize num : Nat) : Int × (Nat → Int) :=
  let copied := (List.range arraySize).foldl
    (fun (s : SortCells) i => { s with arrayTemp := Function.update s.arrayTemp i (s.array i) }) ⟨array, fun _ => 0⟩
  let sorted := (List.range (num / 2 + 1)).foldl
    (fun (s : SortCells) i => { s with arrayTemp := selectPass num s.arrayTemp i }) copied
  (sorted.arrayTemp (num / 2), sorted.array)

/-- The two fields of the lane. -/
structure BackGrey where
  statAverBack : Nat → Int
  averBack : Int

def BackGrey.cleared : BackGrey := ⟨fun _ => 0, 0⟩

/-- What a call does with the values: all are cleared, one is recorded, or `aver_back` is set to the result of `sort_aver`. -/
inductive GreyEvent where
  | clear
  | record (x : Int)
  | set (v : Int)
  deriving DecidableEq

/-- The fields, and what was done so far. -/
structure GreyRun where
  grey : BackGrey
  events : List GreyEvent

/-- A call of `get_averback`, with what it reads. -/
structure GreyCall where
  gThisFrameTime : Nat
  bGet1backflag : Bool
  hasUpdateMinStd4 : Bool
  outflag : Int
  uContiuCount : Nat
  bCanBeginCount : Bool
  bSpeedCounterChanged : Bool
  bSpeedCounterChanged1 : Bool
  updateParams : Bool
  aveGray : UInt8

namespace GreyCall
variable (c : GreyCall)

def active : Bool := c.bGet1backflag && c.hasUpdateMinStd4

/-- A vehicle stays too long. -/
def restarts : Bool := c.outflag % 3000 == 0 && decide (8 < c.uContiuCount)

/-- Nothing is in the way of a new value. -/
def records : Bool :=
  c.gThisFrameTime % 100 == 0 && (c.outflag == 0 || (decide (100 < c.outflag) && !c.bCanBeginCount)) &&
    !c.bSpeedCounterChanged && !c.bSpeedCounterChanged1 && !c.updateParams

end GreyCall

namespace GreyRun

def start : GreyRun := ⟨.cleared, []⟩

def clear (s : GreyRun) : GreyRun := ⟨.cleared, s.events ++ [.clear]⟩

/-- `aver_back` is set to a result of `sort_aver`. -/
def set (s : GreyRun) (v : Int) : GreyRun := ⟨{ s.grey with averBack := v }, s.events ++ [.set v]⟩

/-- The two clearings before a new value. -/
def restarted (s : GreyRun) (c : GreyCall) : GreyRun :=
  let s := if c.gThisFrameTime = 0 then s.clear else s
  if c.active && c.restarts then s.clear else s

/-- A new value for the first free cell. -/
def push (s : GreyRun) (x : Int) : GreyRun :=
  let cells := Function.update s.grey.statAverBack (s.grey.statAverBack 9).toNat x
  ⟨{ s.grey with statAverBack := Function.update cells 9 (cells 9 + 1) }, s.events ++ [.record x]⟩

/-- A new value when there are nine. -/
def shift (s : GreyRun) (x : Int) : GreyRun :=
  ⟨{ s.grey with statAverBack := Function.update (moveDown 9 s.grey.statAverBack) 8 x }, s.events ++ [.record x]⟩

/-- A new value. -/
def record (s : GreyRun) (x : Int) : GreyRun :=
  let averIdx := s.grey.statAverBack 9
  if averIdx < 9 then
    let s := s.push x
    if 4 < averIdx then s.set (sortAver s.grey.statAverBack 10 averIdx.toNat).1 else s
  else s.shift x

/-- What is done in every thousandth frame. -/
def smooth (s : GreyRun) : GreyRun :=
  let averIdx := s.grey.statAverBack 9
  let averBack := (sortAver s.grey.statAverBack 10 averIdx.toNat).1
  if 9 ≤ averIdx then
    if 1 < s.grey.averBack then
      if 30 < |s.grey.averBack - averBack| then s.clear
      else { s with grey := { s.grey with averBack := (s.grey.averBack * 922 + averBack * 102) / 1024 } }
    else s.set averBack
  else if 1 < s.grey.averBack ∧ averIdx ≠ 0 then s.set averBack
  else s

/-- `get_averback`. -/
def getAverback (s : GreyRun) (c : GreyCall) : GreyRun :=
  let s := s.restarted c
  if c.active then
    let s := if c.records then s.record c.aveGray.toNat else s
    if c.gThisFrameTime % 1000 = 0 then s.smooth else s
  else s

end GreyRun

/-! ## The window -/

/-- The values recorded since they were last cleared. -/
def samplesOf (events : List GreyEvent) : List Int :=
  events.foldl (fun xs e => match e with
    | .clear => []
    | .record x => xs ++ [x]
    | .set _ => xs) []

/-- The last nine of them. -/
def windowOf (events : List GreyEvent) : List Int := (samplesOf events).drop ((samplesOf events).length - 9)

/-- Their number is in the last cell, and they are in the cells before it. -/
structure Window (s : GreyRun) : Prop where
  number : s.grey.statAverBack 9 = (min (samplesOf s.events).length 9 : Nat)
  recent : Recent 9 s.grey.statAverBack (min (samplesOf s.events).length 9) (samplesOf s.events)

/-- What `aver_back` was set to is the value in the middle of the window. -/
def SetsRight (events : List GreyEvent) : Prop :=
  ∀ before e after, events = before ++ e :: after → ∀ v, e = .set v → IsRank (windowOf before) ((windowOf before).length / 2) v

/-- `sort_aver` finds the value in the middle of the first ones, and changes none of them. -/
def SortsRight : Prop :=
  ∀ (array : Nat → Int) (arraySize num : Nat), 1 ≤ num → num ≤ arraySize → arraySize ≤ 20 →
    IsRank (valuesOf num array) (num / 2) (sortAver array arraySize num).1 ∧ (sortAver array arraySize num).2 = array

/-- The value in the middle of some values is also the one in the middle with a new value: for an even number of them, the new
value is not below it or another of them is as large; for an odd number, it is not above it or another is as small. -/
def Steady (xs : List Int) (x : Int) : Prop :=
  ∀ v, IsRank xs (xs.length / 2) v →
    if xs.length % 2 = 0 then v ≤ x ∨ xs.countP (· < v) < xs.length / 2 else x ≤ v ∨ xs.length / 2 + 1 < xs.countP (· ≤ v)

/-- A call records no value while there are five to eight, or one with which the value in the middle stays. -/
def SteadyCall (s : GreyRun) (c : GreyCall) : Prop :=
  c.active = true → c.records = true → ∀ k : Nat, (s.restarted c).grey.statAverBack 9 = k → 4 < k → k < 9 →
    Steady (valuesOf k (s.restarted c).grey.statAverBack) c.aveGray.toNat

/-! ## The sort -/

theorem copied_eq (array : Nat → Int) (n : Nat) :
    (List.range n).foldl (fun (s : SortCells) i => { s with arrayTemp := Function.update s.arrayTemp i (s.array i) })
      ⟨array, fun _ => 0⟩ = ⟨array, fun k => if k < n then array k else 0⟩ := by
  induction n with
  | zero => rfl
  | succ n ih =>
    rw [List.range_succ, List.foldl_append, ih]
    refine congrArg (SortCells.mk array) (funext fun k => ?_)
    by_cases last : k = n
    · rw [last, Function.update_self, if_pos (by omega)]
    · have same : k < n + 1 ↔ k < n := by omega
      simp only [Function.update_of_ne last, same]

theorem sorted_eq (n : Nat) (is : List Nat) (s : SortCells) :
    is.foldl (fun (s : SortCells) i => { s with arrayTemp := selectPass n s.arrayTemp i }) s =
      ⟨s.array, is.foldl (selectPass n) s.arrayTemp⟩ := by
  induction is generalizing s with
  | nil => rfl
  | cons i is ih =>
    rw [List.foldl_cons, ih]
    rfl

/-- **`sort_aver`**. -/
theorem sortsRight : SortsRight := by
  intro array arraySize num some inside _
  rw [sortAver, copied_eq, sorted_eq]
  refine ⟨?_, rfl⟩
  have same : valuesOf num (fun k => if k < arraySize then array k else 0) = valuesOf num array := by
    apply List.map_congr_left
    intro k member
    exact if_pos (Nat.lt_of_lt_of_le (List.mem_range.mp member) inside)
  rw [← same]
  exact selectPasses_rank _ (by omega)

/-- The value in the middle of the most recent ones. -/
theorem sortAver_recent {n arraySize : Nat} {cells : Nat → Int} {xs : List Int} (recent : Recent n cells (min xs.length n) xs)
    (some : 0 < min xs.length n) (inside : n ≤ arraySize) (small : arraySize ≤ 20) :
    IsRank (xs.drop (xs.length - n)) ((xs.drop (xs.length - n)).length / 2) (sortAver cells arraySize (min xs.length n)).1 := by
  have rank := (sortsRight cells arraySize (min xs.length n) some (by omega) small).1
  have values : valuesOf (min xs.length n) cells = xs.drop (xs.length - n) := recent.values
  rw [values] at rank
  rwa [List.length_drop, show xs.length - (xs.length - n) = min xs.length n by omega]

/-! ## The events -/

@[simp] theorem samplesOf_clear (events : List GreyEvent) : samplesOf (events ++ [.clear]) = [] := by simp [samplesOf]

@[simp] theorem samplesOf_record (events : List GreyEvent) (x : Int) : samplesOf (events ++ [.record x]) = samplesOf events ++ [x] := by
  simp [samplesOf]

@[simp] theorem samplesOf_set (events : List GreyEvent) (v : Int) : samplesOf (events ++ [.set v]) = samplesOf events := by
  simp [samplesOf]

theorem setsRight_snoc_iff {events : List GreyEvent} {e : GreyEvent} : SetsRight (events ++ [e]) ↔
    SetsRight events ∧ ∀ v, e = .set v → IsRank (windowOf events) ((windowOf events).length / 2) v := forall_split_snoc_iff

section
variable {s : GreyRun}

theorem Window.start : Window .start := ⟨rfl, Recent.nil 9 _⟩

theorem Window.clear (s : GreyRun) : Window s.clear := by
  have none : samplesOf s.clear.events = [] := samplesOf_clear s.events
  constructor <;> rw [none]
  · rfl
  · exact Recent.nil 9 _

theorem setsRight_clear_iff (s : GreyRun) : SetsRight s.clear.events ↔ SetsRight s.events :=
  setsRight_snoc_iff.trans (and_iff_left fun v same => by cases same)

theorem Window.set (window : Window s) (v : Int) : Window (s.set v) := by
  have same : samplesOf (s.set v).events = samplesOf s.events := samplesOf_set s.events v
  constructor <;> rw [same]
  · exact window.number
  · exact window.recent

/-- The first cells are the window. -/
theorem Window.values (window : Window s) : valuesOf (min (samplesOf s.events).length 9) s.grey.statAverBack = windowOf s.events :=
  window.recent.values

/-- `aver_back` is set to the value in the middle of the window. -/
theorem Window.set_right (window : Window s) (some : s.grey.statAverBack 9 ≠ 0) :
    SetsRight (s.set (sortAver s.grey.statAverBack 10 (s.grey.statAverBack 9).toNat).1).events ↔ SetsRight s.events := by
  refine setsRight_snoc_iff.trans (and_iff_left fun v same => ?_)
  cases same
  have number := window.number
  rw [number] at some ⊢
  exact sortAver_recent window.recent (by omega) (by decide) (by decide)

theorem Window.restarted (window : Window s) (c : GreyCall) : Window (s.restarted c) := by
  unfold GreyRun.restarted
  split_ifs <;> first | exact Window.clear _ | exact window

theorem setsRight_restarted_iff (s : GreyRun) (c : GreyCall) : SetsRight (s.restarted c).events ↔ SetsRight s.events := by
  unfold GreyRun.restarted
  split_ifs <;> simp only [setsRight_clear_iff]

theorem Window.smooth (window : Window s) : Window s.smooth ∧ (SetsRight s.smooth.events ↔ SetsRight s.events) := by
  unfold GreyRun.smooth
  dsimp only
  split_ifs with full set apart low
  · exact ⟨Window.clear s, setsRight_clear_iff s⟩
  · exact ⟨⟨window.number, window.recent⟩, Iff.rfl⟩
  · exact ⟨window.set _, window.set_right (by omega)⟩
  · exact ⟨window.set _, window.set_right low.2⟩
  · exact ⟨window, Iff.rfl⟩

theorem push_cells (s : GreyRun) (x : Int) : (s.push x).grey.statAverBack =
    Function.update (Function.update s.grey.statAverBack (s.grey.statAverBack 9).toNat x) 9
      (Function.update s.grey.statAverBack (s.grey.statAverBack 9).toNat x 9 + 1) := rfl

theorem shift_cells (s : GreyRun) (x : Int) :
    (s.shift x).grey.statAverBack = Function.update (moveDown 9 s.grey.statAverBack) 8 x := rfl

theorem samplesOf_push (s : GreyRun) (x : Int) : samplesOf (s.push x).events = samplesOf s.events ++ [x] := samplesOf_record s.events x

theorem Window.push (window : Window s) (room : (samplesOf s.events).length < 9) (x : Int) : Window (s.push x) := by
  obtain ⟨number, recent⟩ := window
  rw [Nat.min_eq_left (by omega)] at number recent
  have next : min (samplesOf s.events ++ [x]).length 9 = (samplesOf s.events).length + 1 := by
    rw [List.length_append, List.length_singleton]
    omega
  constructor <;> rw [samplesOf_push, next]
  · rw [push_cells, Function.update_self, number, Int.toNat_natCast, Function.update_of_ne (by omega), number, Int.natCast_succ]
  · refine (recent.push room x).same fun i inside => ?_
    rw [push_cells, Function.update_of_ne (by omega), number, Int.toNat_natCast]

theorem Window.shift (window : Window s) (full : 9 ≤ (samplesOf s.events).length) (x : Int) : Window (s.shift x) := by
  obtain ⟨number, recent⟩ := window
  rw [Nat.min_eq_right full] at number recent
  have more : samplesOf (s.shift x).events = samplesOf s.events ++ [x] := samplesOf_record s.events x
  have next : min (samplesOf s.events ++ [x]).length 9 = 9 := by
    rw [List.length_append, List.length_singleton]
    omega
  constructor <;> rw [more, next]
  · rw [shift_cells, Function.update_of_ne (by decide), moveDown_apply, if_neg (by decide), number]
  · refine (recent.shift x).same fun i inside => ?_
    rw [shift_cells]
    by_cases last : i = 8
    · rw [last, Function.update_self, if_neg (by decide)]
    · rw [Function.update_of_ne last, moveDown_apply, if_pos inside, if_pos (by omega)]

/-- The value in the middle before a new value is right exactly if it stays in the middle. -/
theorem steady_iff {xs : List Int} {x v : Int} (rank : IsRank xs (xs.length / 2) v) :
    IsRank (xs ++ [x]) ((xs ++ [x]).length / 2) v ↔ Steady xs x := by
  rw [List.length_append, List.length_singleton, rank.middle_snoc_iff]
  constructor
  · intro stays v' rank'
    rw [rank'.unique rank]
    exact stays
  · exact fun steady => steady v rank

/-- The value that `aver_back` is set to after a new value. -/
theorem Window.push_right (window : Window s) (room : (samplesOf s.events).length < 9) (some : 0 < (samplesOf s.events).length) (x : Int) :
    SetsRight ((s.push x).set (sortAver (s.push x).grey.statAverBack 10 (s.grey.statAverBack 9).toNat).1).events ↔
      SetsRight s.events ∧ Steady (valuesOf (samplesOf s.events).length s.grey.statAverBack) x := by
  have number := window.number
  have values := window.values
  rw [Nat.min_eq_left (by omega)] at number values
  have kept : valuesOf (samplesOf s.events).length (s.push x).grey.statAverBack = valuesOf (samplesOf s.events).length s.grey.statAverBack := by
    apply List.map_congr_left
    intro i member
    have inside := List.mem_range.mp member
    rw [push_cells, Function.update_of_ne (by omega), number, Int.toNat_natCast, Function.update_of_ne (by omega)]
  have rank := (sortsRight (s.push x).grey.statAverBack 10 (samplesOf s.events).length some (by omega) (by omega)).1
  have all : windowOf (s.push x).events = valuesOf (samplesOf s.events).length s.grey.statAverBack ++ [x] := by
    rw [values, windowOf, windowOf, samplesOf_push, List.length_append, List.length_singleton, Nat.sub_eq_zero_of_le (by omega),
      Nat.sub_eq_zero_of_le (by omega), List.drop_zero, List.drop_zero]
  rw [kept] at rank
  rw [number, Int.toNat_natCast]
  generalize (sortAver (s.push x).grey.statAverBack 10 (samplesOf s.events).length).1 = v at rank
  have length : (valuesOf (samplesOf s.events).length s.grey.statAverBack).length = (samplesOf s.events).length := valuesOf_length
  generalize valuesOf (samplesOf s.events).length s.grey.statAverBack = xs at rank all length
  rw [← length] at rank
  have steady := steady_iff (x := x) rank
  refine setsRight_snoc_iff.trans (and_congr ?_ ?_)
  · exact setsRight_snoc_iff.trans (and_iff_left fun v same => by cases same)
  · rw [all, ← steady]
    exact ⟨fun right => right v rfl, fun right v' same => by cases same; exact right⟩

theorem Window.record (window : Window s) (x : Int) : Window (s.record x) ∧ (SetsRight (s.record x).events ↔
    SetsRight s.events ∧ ∀ k : Nat, s.grey.statAverBack 9 = k → 4 < k → k < 9 → Steady (valuesOf k s.grey.statAverBack) x) := by
  have number := window.number
  have recorded (e : Int) : SetsRight (s.events ++ [.record e]) ↔ SetsRight s.events :=
    setsRight_snoc_iff.trans (and_iff_left fun v same => by cases same)
  unfold GreyRun.record
  dsimp only
  split_ifs with room many
  · have low : (samplesOf s.events).length < 9 := by omega
    rw [Nat.min_eq_left low.le] at number
    refine ⟨(window.push low x).set _, (window.push_right low (by omega) x).trans (and_congr_right fun _ => ?_)⟩
    constructor
    · intro steady k same _ _
      rw [show k = (samplesOf s.events).length by omega]
      exact steady
    · exact fun steady => steady _ number (by omega) low
  · refine ⟨window.push (by omega) x, (recorded x).trans (and_iff_left fun k same more => ?_).symm⟩
    omega
  · refine ⟨window.shift (by omega) x, (recorded x).trans (and_iff_left fun k same _ less => ?_).symm⟩
    omega

end

/-! ## Runs -/

/-- **A call** keeps the window, and what it sets `aver_back` to is right exactly if it meets the condition. -/
theorem getAverback_iff {s : GreyRun} (window : Window s) (c : GreyCall) : Window (s.getAverback c) ∧
    (SetsRight (s.getAverback c).events ↔ SetsRight s.events ∧ SteadyCall s c) := by
  have window' := window.restarted c
  have same := setsRight_restarted_iff s c
  unfold GreyRun.getAverback
  dsimp only
  by_cases active : c.active = true
  · have recorded : Window (if c.records = true then (s.restarted c).record c.aveGray.toNat else s.restarted c) ∧
        (SetsRight (if c.records = true then (s.restarted c).record c.aveGray.toNat else s.restarted c).events ↔
          SetsRight s.events ∧ SteadyCall s c) := by
      by_cases records : c.records = true
      · rw [if_pos records]
        obtain ⟨window'', sets⟩ := window'.record c.aveGray.toNat
        refine ⟨window'', sets.trans (and_congr same ?_)⟩
        exact ⟨fun steady _ _ => steady, fun steady => steady active records⟩
      · rw [if_neg records]
        exact ⟨window', same.trans (and_iff_left fun _ records' => absurd records' records).symm⟩
    rw [if_pos active]
    by_cases thousandth : c.gThisFrameTime % 1000 = 0
    · rw [if_pos thousandth]
      obtain ⟨window'', sets⟩ := recorded.1.smooth
      exact ⟨window'', sets.trans recorded.2⟩
    · rw [if_neg thousandth]
      exact recorded
  · rw [if_neg active]
    exact ⟨window', same.trans (and_iff_left fun active' => absurd active' active).symm⟩

/-- **The grey value of the background**: `sort_aver` finds the value in the middle, and after every call of a run the window
has the last values and `aver_back` was set to the ones in the middle, exactly if every call meets the condition. -/
theorem back_grey_iff (calls : List GreyCall) :
    (SortsRight ∧ ∀ before c after, calls = before ++ c :: after →
      Window ((before.foldl GreyRun.getAverback .start).getAverback c) ∧
        SetsRight ((before.foldl GreyRun.getAverback .start).getAverback c).events) ↔
      ∀ before c after, calls = before ++ c :: after → SteadyCall (before.foldl GreyRun.getAverback .start) c := by
  rw [and_iff_right sortsRight]
  refine foldl_iff (fun _ s => Window s ∧ SetsRight s.events)
    (fun _ s c => Window (s.getAverback c) ∧ SetsRight (s.getAverback c).events) (fun _ => SteadyCall) ?_ ?_ ?_
  · intro before s c right steady
    obtain ⟨window, sets⟩ := getAverback_iff right.1 c
    exact ⟨window, sets.mpr ⟨right.2, steady⟩⟩
  · intro before s c right
    obtain ⟨window, sets⟩ := getAverback_iff right.1 c
    rw [sets, and_iff_right window, and_iff_right right.2]
  · exact ⟨Window.start, fun before e after split => by simp [GreyRun.start] at split⟩

/-- A call in a frame, with nothing in the way of a new value. -/
def quietCall (gThisFrameTime : Nat) (aveGray : UInt8) : GreyCall :=
  ⟨gThisFrameTime, true, true, 0, 0, false, false, false, false, aveGray⟩

/-- With the sixth value `aver_back` becomes the third smallest, not the fourth. -/
theorem sixthValue_missed :
    let calls := [quietCall 100 10, quietCall 200 20, quietCall 300 30, quietCall 400 40, quietCall 500 50, quietCall 600 60]
    let s := calls.foldl GreyRun.getAverback .start
    s.grey.averBack = 30 ∧ windowOf s.events = [10, 20, 30, 40, 50, 60] ∧ IsRank (windowOf s.events) 3 40 ∧ ¬SetsRight s.events := by
  intro calls s
  have events : s.events = [.record 10, .record 20, .record 30, .record 40, .record 50, .record 60] ++ [.set 30] := by decide +kernel
  have window : windowOf s.events = [10, 20, 30, 40, 50, 60] := by
    rw [events]
    decide
  refine ⟨by decide +kernel, window, ?_, fun right => ?_⟩
  · rw [window]
    decide
  · rw [events, setsRight_snoc_iff] at right
    exact absurd (right.2 30 rfl) (by decide)

end VideoDetector.Alg
