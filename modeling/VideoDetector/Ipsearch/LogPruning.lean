import VideoDetector.Lib.CString
import VideoDetector.Lib.Runs

/-!
# Pruning the log (`logtofile` in `ipsearch/zenlog.c`)

When a new log file was created, the oldest files are removed until the log directory is within its limit. The loop itself
logs what it does, in the same directory, where its message may create a file and so begin another such loop, which ends
first. `pruning_iff` says in which runs the right files are removed.
-/

namespace VideoDetector.Ipsearch
set_option autoImplicit false
open Lib

/-- A file of the log directory. -/
structure LogFile where
  name : List UInt8
  size : Nat
  mtime : Int
  deriving DecidableEq

/-- `.log`. -/
def dotLog : List UInt8 := [0x2E, 0x6C, 0x6F, 0x67]

/-- `sLog.uSizeMax_K`, the length of `sLog.logPath`, and the number of values of an `unsigned long`. -/
structure LogSet where
  uSizeMax_K : UInt32
  pathLen : Nat
  word : Nat

/-- The path of a file, `%s/%s`, stays within `pathBuff`. -/
def LogSet.fits (set : LogSet) (f : LogFile) : Bool := decide (set.pathLen + f.name.length + 2 ≤ 256)

/-- `getDirectorySize`: the size, and the number of files. -/
def getDirectorySize (word : Nat) (ext : List UInt8) (dir : List LogFile) : Nat × Nat :=
  dir.foldl (fun s f => if ext = [0x2A] ∨ strstr f.name ext then ((s.1 + f.size) % word, s.2 + 1) else s) (0, 0)

/-- The locals of `findFileByModTime`. -/
structure ModTimeSearch where
  findFlag : Int
  ct_min : Int
  filename : List UInt8

/-- A file that `findFileByModTime` looks at. -/
def LogFile.candidate (ext : List UInt8) (f : LogFile) : Bool :=
  f.name.head? != some 0x2E && (ext.isEmpty || strstr f.name ext)

/-- The body of the loop, for a file that is looked at. -/
def ModTimeSearch.look (s : ModTimeSearch) (f : LogFile) : ModTimeSearch :=
  if f.mtime < s.ct_min then ⟨0, f.mtime, f.name⟩ else { s with findFlag := 0 }

/-- `findFileByModTime`: what it returns, and `filename` after it. -/
def findFileByModTime (ext filename : List UInt8) (dir : List LogFile) : Int × List UInt8 :=
  let s := (dir.filter (·.candidate ext)).foldl ModTimeSearch.look ⟨-1, 0x7FFFFFFF, filename⟩
  (s.findFlag, s.filename)

/-- What one round of the loop does after its first message. A path that does not fit is an overrun. -/
inductive Turn where
  | overrun
  | stops
  | fails
  | removes (name : List UInt8)
  deriving DecidableEq

/-- The files that were measured, those that there are now, and `szDelFile`. -/
def turn (set : LogSet) (measured dir : List LogFile) (szDelFile : List UInt8) : Turn :=
  if 0 < set.uSizeMax_K ∧ (set.uSizeMax_K * 1000).toNat < (getDirectorySize set.word dotLog measured).1 then
    if (dir.filter (·.candidate dotLog)).all set.fits then
      let found := findFileByModTime dotLog szDelFile dir
      if found.1 = 0 then
        if dir.any (·.name == found.2) then .removes found.2 else .fails
      else .stops
    else .overrun
  else .stops

/-! ## The machine -/

inductive Point where
  | measure
  | check (measured : List LogFile)
  deriving DecidableEq

/-- Where a loop is, and its `szDelFile`. -/
structure PruneLoop where
  point : Point
  szDelFile : List UInt8
  deriving DecidableEq

/-- The log directory, and the loops that run, the innermost one first. -/
structure Pruning where
  dir : List LogFile
  loops : List PruneLoop
  deriving DecidableEq

/-- A line for a log file. -/
structure LogNote where
  name : List UInt8
  size : Nat
  time : Int
  deriving DecidableEq

namespace Pruning

/-- The file of a line is there. -/
def has (s : Pruning) (name : List UInt8) : Bool := s.dir.any (·.name == name)

/-- `logtofile`, up to the loop. -/
def logtofile (s : Pruning) (note : LogNote) : Pruning :=
  if s.has note.name then
    { s with dir := s.dir.map fun f => if f.name = note.name then { f with size := f.size + note.size, mtime := note.time } else f }
  else ⟨s.dir ++ [⟨note.name, note.size, note.time⟩], ⟨.measure, []⟩ :: s.loops⟩

/-- The innermost loop goes on, up to its next message if there is one. An overrun is not modelled: the machine stays
where it is. -/
def advance (set : LogSet) (s : Pruning) : Pruning × Bool :=
  match s.loops with
  | [] => (s, false)
  | ⟨.measure, szDelFile⟩ :: outer =>
    if s.dir.all set.fits then (⟨s.dir, ⟨.check s.dir, szDelFile⟩ :: outer⟩, true) else (s, false)
  | ⟨.check measured, szDelFile⟩ :: outer =>
    match turn set measured s.dir szDelFile with
    | .overrun => (s, false)
    | .stops => (⟨s.dir, outer⟩, false)
    | .fails => (⟨s.dir, outer⟩, true)
    | .removes name => (⟨s.dir.filter (·.name != name), ⟨.measure, name⟩ :: outer⟩, true)

/-- A step, with the line that its message is written as, if it is. -/
def step (set : LogSet) (s : Pruning) (note : Option LogNote) : Pruning :=
  match s.advance set, note with
  | (t, true), some note => t.logtofile note
  | (t, _), _ => t

/-- The message of a step begins a new log file. -/
def Creates (set : LogSet) (s : Pruning) (note : Option LogNote) : Prop :=
  (s.advance set).2 = true ∧ ∃ n, note = some n ∧ (s.advance set).1.has n.name = false

end Pruning

/-- A line for the log, and the lines that the messages of the steps after it are written as. -/
structure LogRun where
  set : LogSet
  positive : 0 < set.uSizeMax_K
  dir : List LogFile
  note : LogNote
  notes : Nat → Option LogNote

def LogRun.state (r : LogRun) : Nat → Pruning
  | 0 => Pruning.logtofile ⟨r.dir, []⟩ r.note
  | n + 1 => (r.state n).step r.set (r.notes n)

/-! ## What should be removed -/

/-- The size of all `.log` files. -/
def totalOf (dir : List LogFile) : Nat := ((dir.filter fun f => strstr f.name dotLog).map LogFile.size).sum

/-- The limit in bytes. -/
def LogSet.limit (set : LogSet) : Nat := 1000 * set.uSizeMax_K.toNat

/-- A file that could be removed and is at least as old as all of these. -/
structure Oldest (dir : List LogFile) (f : LogFile) : Prop where
  there : f ∈ dir
  candidate : f.candidate dotLog = true
  least : ∀ g ∈ dir, g.candidate dotLog = true → f.mtime ≤ g.mtime

/-- Nothing is removed within the limit; above it an oldest file is, if the files are still above it. -/
def TurnRight (set : LogSet) (measured dir : List LogFile) (t : Turn) : Prop :=
  if totalOf measured ≤ set.limit then t = .stops ∨ t = .fails
  else set.limit < totalOf dir ∧ ∃ f, Oldest dir f ∧ t = .removes f.name

/-- What the innermost loop does next is right, and no path is too long. -/
def StepRight (set : LogSet) (s : Pruning) : Prop :=
  match s.loops with
  | [] => True
  | ⟨.measure, _⟩ :: _ => ∀ f ∈ s.dir, set.fits f = true
  | ⟨.check measured, szDelFile⟩ :: _ => TurnRight set measured s.dir (turn set measured s.dir szDelFile)

/-- The loops end, and all that is done in them is right. -/
structure LogRun.Right (r : LogRun) : Prop where
  ends : ∃ n, (r.state n).loops = []
  steps : ∀ n, StepRight r.set (r.state n)

/-- Within the limit the `unsigned long` sum is not above the `unsigned int` product, or all files that could be removed have a
late time and there is none with the last name. Above it the sum is above the product, too, and there is an oldest file that is
not late or has that name. -/
structure TurnCond (set : LogSet) (measured dir : List LogFile) (szDelFile : List UInt8) : Prop where
  within : totalOf measured ≤ set.limit → totalOf measured % set.word ≤ (set.uSizeMax_K * 1000).toNat ∨
    ∀ f ∈ dir, f.candidate dotLog = true → set.fits f = true ∧ 0x7FFFFFFF ≤ f.mtime ∧ ∀ g ∈ dir, g.name ≠ szDelFile
  above : set.limit < totalOf measured → (set.uSizeMax_K * 1000).toNat < totalOf measured % set.word ∧ set.limit < totalOf dir ∧
    (∀ f ∈ dir, f.candidate dotLog = true → set.fits f = true) ∧ ∃ f, Oldest dir f ∧ (f.mtime < 0x7FFFFFFF ∨ f.name = szDelFile)

def StepCond (set : LogSet) (s : Pruning) : Prop :=
  match s.loops with
  | [] => True
  | ⟨.measure, _⟩ :: _ => ∀ f ∈ s.dir, set.fits f = true
  | ⟨.check measured, szDelFile⟩ :: _ => TurnCond set measured s.dir szDelFile

/-! ## The two searches of the directory -/

theorem totalOf_cons (f : LogFile) (dir : List LogFile) :
    totalOf (f :: dir) = (if strstr f.name dotLog then f.size else 0) + totalOf dir := by
  unfold totalOf
  rw [List.filter_cons]
  split
  · rw [List.map_cons, List.sum_cons]
  · rw [Nat.zero_add]

/-- The sum is the total in an `unsigned long`. -/
theorem getDirectorySize_dotLog (word : Nat) (dir : List LogFile) : (getDirectorySize word dotLog dir).1 = totalOf dir % word := by
  have adds : ∀ s : Nat × Nat, s.1 % word = s.1 →
      (dir.foldl (fun s f => if dotLog = [0x2A] ∨ strstr f.name dotLog then ((s.1 + f.size) % word, s.2 + 1) else s) s).1 =
        (s.1 + totalOf dir) % word := by
    induction dir with
    | nil => exact fun s reduced => reduced.symm
    | cons f dir ih =>
      intro s reduced
      rw [List.foldl_cons, totalOf_cons]
      by_cases counted : strstr f.name dotLog = true
      · rw [if_pos (.inr counted), if_pos counted, ih _ (Nat.mod_mod _ _), Nat.mod_add_mod, Nat.add_assoc]
      · rw [if_neg (not_or.mpr ⟨by decide, counted⟩), if_neg counted, ih _ reduced, Nat.zero_add]
  rw [getDirectorySize, adds (0, 0) (Nat.zero_mod word), Nat.zero_add]

/-- What `findFileByModTime` knows after some files. -/
structure Searched (filename : List UInt8) (seen : List LogFile) (s : ModTimeSearch) : Prop where
  flag : s.findFlag = 0 ↔ seen ≠ []
  least : ∀ f ∈ seen, s.ct_min ≤ f.mtime
  name : s.ct_min = 0x7FFFFFFF ∧ s.filename = filename ∨ ∃ f ∈ seen, f.name = s.filename ∧ f.mtime = s.ct_min ∧ f.mtime < 0x7FFFFFFF

theorem Searched.look {filename : List UInt8} {seen : List LogFile} {s : ModTimeSearch} (searched : Searched filename seen s)
    (f : LogFile) : Searched filename (seen ++ [f]) (s.look f) := by
  have low : s.ct_min ≤ 0x7FFFFFFF := by
    rcases searched.name with ⟨late, _⟩ | ⟨g, _, _, same, early⟩
    · exact le_of_eq late
    · exact same ▸ le_of_lt early
  unfold ModTimeSearch.look
  split
  next older =>
    refine ⟨by simp, ?_, .inr ⟨f, by simp, rfl, rfl, lt_of_lt_of_le older low⟩⟩
    intro g member
    rcases List.mem_append.mp member with old | new
    · exact le_trans (le_of_lt older) (searched.least g old)
    · rw [List.mem_singleton.mp new]
  next newer =>
    refine ⟨by simp, ?_, ?_⟩
    · intro g member
      rcases List.mem_append.mp member with old | new
      · exact searched.least g old
      · rw [List.mem_singleton.mp new]
        exact not_lt.mp newer
    · apply searched.name.imp_right
      rintro ⟨g, member, found⟩
      exact ⟨g, List.mem_append_left _ member, found⟩

theorem searched_foldl (filename : List UInt8) (files : List LogFile) :
    Searched filename files (files.foldl ModTimeSearch.look ⟨-1, 0x7FFFFFFF, filename⟩) := by
  induction files using List.reverseRecOn with
  | nil => exact ⟨by simp, by simp, .inl ⟨rfl, rfl⟩⟩
  | append_singleton files f ih =>
    rw [List.foldl_append]
    exact ih.look f

/-- What `findFileByModTime` finds: nothing, an oldest file, or that all files have a late time. -/
theorem findFileByModTime_spec (filename : List UInt8) (dir : List LogFile) :
    ((findFileByModTime dotLog filename dir).1 ≠ 0 ∧ ∀ f ∈ dir, f.candidate dotLog = false) ∨
    ((findFileByModTime dotLog filename dir).1 = 0 ∧ ∃ f, Oldest dir f ∧ f.mtime < 0x7FFFFFFF ∧
      (findFileByModTime dotLog filename dir).2 = f.name) ∨
    ((findFileByModTime dotLog filename dir).1 = 0 ∧ (∃ f, f ∈ dir ∧ f.candidate dotLog = true) ∧
      (∀ f ∈ dir, f.candidate dotLog = true → 0x7FFFFFFF ≤ f.mtime) ∧ (findFileByModTime dotLog filename dir).2 = filename) := by
  have searched := searched_foldl filename (dir.filter (·.candidate dotLog))
  have listed (f : LogFile) : f ∈ dir.filter (·.candidate dotLog) ↔ f ∈ dir ∧ f.candidate dotLog = true := List.mem_filter
  rcases searched.name with ⟨late, same⟩ | ⟨f, member, same, least, early⟩
  · by_cases none : dir.filter (·.candidate dotLog) = []
    · refine .inl ⟨fun zero => searched.flag.mp zero none, fun f member => ?_⟩
      rw [List.filter_eq_nil_iff] at none
      exact Bool.eq_false_iff.mpr (none f member)
    · obtain ⟨f, member⟩ := List.exists_mem_of_ne_nil _ none
      refine .inr (.inr ⟨searched.flag.mpr none, ⟨f, (listed f).mp member⟩, ?_, same⟩)
      intro g member candidate
      exact late ▸ searched.least g ((listed g).mpr ⟨member, candidate⟩)
  · have oldest : Oldest dir f := by
      refine ⟨((listed f).mp member).1, ((listed f).mp member).2, ?_⟩
      intro g member' candidate
      rw [least]
      exact searched.least g ((listed g).mpr ⟨member', candidate⟩)
    exact .inr (.inl ⟨searched.flag.mpr (List.ne_nil_of_mem member), f, oldest, early, same.symm⟩)

/-! ## One round -/

section
variable {set : LogSet} {measured dir : List LogFile} {szDelFile : List UInt8}

theorem turn_below (low : totalOf measured % set.word ≤ (set.uSizeMax_K * 1000).toNat) : turn set measured dir szDelFile = .stops := by
  rw [turn, getDirectorySize_dotLog, if_neg fun above => Nat.not_lt.mpr low above.2]

/-- What a round does when the sum is above the product. -/
inductive Pruned (set : LogSet) (dir : List LogFile) (szDelFile : List UInt8) : Turn → Prop where
  | long (f : LogFile) (there : f ∈ dir) (candidate : f.candidate dotLog = true) (unfit : ¬set.fits f = true) :
      Pruned set dir szDelFile .overrun
  | none (fit : ∀ f ∈ dir, f.candidate dotLog = true → set.fits f = true) (none : ∀ f ∈ dir, f.candidate dotLog = false) :
      Pruned set dir szDelFile .stops
  | oldest (fit : ∀ f ∈ dir, f.candidate dotLog = true → set.fits f = true) (f : LogFile) (oldest : Oldest dir f)
      (early : f.mtime < 0x7FFFFFFF) : Pruned set dir szDelFile (.removes f.name)
  | stale (fit : ∀ f ∈ dir, f.candidate dotLog = true → set.fits f = true) (some : ∃ f ∈ dir, f.candidate dotLog = true)
      (late : ∀ f ∈ dir, f.candidate dotLog = true → 0x7FFFFFFF ≤ f.mtime) (there : ∃ g ∈ dir, g.name = szDelFile) :
      Pruned set dir szDelFile (.removes szDelFile)
  | missing (fit : ∀ f ∈ dir, f.candidate dotLog = true → set.fits f = true)
      (late : ∀ f ∈ dir, f.candidate dotLog = true → 0x7FFFFFFF ≤ f.mtime) (missing : ∀ g ∈ dir, g.name ≠ szDelFile) :
      Pruned set dir szDelFile .fails

theorem turn_above (positive : 0 < set.uSizeMax_K) (high : (set.uSizeMax_K * 1000).toNat < totalOf measured % set.word) :
    Pruned set dir szDelFile (turn set measured dir szDelFile) := by
  rw [turn, getDirectorySize_dotLog, if_pos ⟨positive, high⟩]
  simp only [List.all_eq_true, List.any_eq_true, List.mem_filter, and_imp, beq_iff_eq]
  split
  next fit =>
    rcases findFileByModTime_spec szDelFile dir with ⟨flag, none⟩ | ⟨flag, f, oldest, early, name⟩ | ⟨flag, some, late, name⟩
    · rw [if_neg flag]
      exact .none fit none
    · rw [if_pos flag, if_pos ⟨f, oldest.there, name.symm⟩, name]
      exact .oldest fit f oldest early
    · rw [if_pos flag, name]
      split
      next there => exact .stale fit some late there
      next missing => exact .missing fit late fun g member same => missing ⟨g, member, same⟩
  next unfit =>
    push Not at unfit
    obtain ⟨f, there, candidate, long⟩ := unfit
    exact .long f there candidate long

theorem turnRight_above (high : set.limit < totalOf measured) (t : Turn) :
    TurnRight set measured dir t ↔ set.limit < totalOf dir ∧ ∃ f, Oldest dir f ∧ t = .removes f.name := by
  rw [TurnRight, if_neg (Nat.not_le.mpr high)]

theorem turnRight_within (low : totalOf measured ≤ set.limit) (t : Turn) : TurnRight set measured dir t ↔ t = .stops ∨ t = .fails := by
  rw [TurnRight, if_pos low]

theorem turnCond_above (high : set.limit < totalOf measured) :
    TurnCond set measured dir szDelFile ↔ (set.uSizeMax_K * 1000).toNat < totalOf measured % set.word ∧ set.limit < totalOf dir ∧
      (∀ f ∈ dir, f.candidate dotLog = true → set.fits f = true) ∧
        ∃ f, Oldest dir f ∧ (f.mtime < 0x7FFFFFFF ∨ f.name = szDelFile) :=
  ⟨fun cond => cond.above high, fun above => ⟨fun low => absurd low (Nat.not_le.mpr high), fun _ => above⟩⟩

theorem turnCond_within (low : totalOf measured ≤ set.limit) :
    TurnCond set measured dir szDelFile ↔ totalOf measured % set.word ≤ (set.uSizeMax_K * 1000).toNat ∨
      ∀ f ∈ dir, f.candidate dotLog = true → set.fits f = true ∧ 0x7FFFFFFF ≤ f.mtime ∧ ∀ g ∈ dir, g.name ≠ szDelFile :=
  ⟨fun cond => cond.within low, fun within => ⟨fun _ => within, fun high => absurd low (Nat.not_le.mpr high)⟩⟩

/-- What a round does within the limit, though the sum is above the product. -/
theorem Pruned.within_iff {t : Turn} (pruned : Pruned set dir szDelFile t) :
    (t = .stops ∨ t = .fails) ↔
      ∀ f ∈ dir, f.candidate dotLog = true → set.fits f = true ∧ 0x7FFFFFFF ≤ f.mtime ∧ ∀ g ∈ dir, g.name ≠ szDelFile := by
  cases pruned with
  | long f there candidate unfit =>
    exact iff_of_false (by simp) fun all => unfit (all f there candidate).1
  | none fit none =>
    refine iff_of_true (.inl rfl) fun f there candidate => ?_
    rw [none f there] at candidate
    cases candidate
  | oldest fit f oldest early =>
    refine iff_of_false (by simp) fun all => ?_
    exact absurd (all f oldest.there oldest.candidate).2.1 (not_le.mpr early)
  | stale fit some late there =>
    obtain ⟨f, member, candidate⟩ := some
    obtain ⟨g, member', same⟩ := there
    exact iff_of_false (by simp) fun all => (all f member candidate).2.2 g member' same
  | missing fit late missing =>
    exact iff_of_true (.inr rfl) fun f there candidate => ⟨fit f there candidate, late f there candidate, missing⟩

/-- When a round removes an oldest file. -/
theorem Pruned.removes_iff {t : Turn} (pruned : Pruned set dir szDelFile t) :
    (∃ f, Oldest dir f ∧ t = .removes f.name) ↔
      (∀ f ∈ dir, f.candidate dotLog = true → set.fits f = true) ∧
        ∃ f, Oldest dir f ∧ (f.mtime < 0x7FFFFFFF ∨ f.name = szDelFile) := by
  cases pruned with
  | long f there candidate unfit => exact iff_of_false (by simp) fun parts => unfit (parts.1 f there candidate)
  | none fit none =>
    refine iff_of_false (by simp) ?_
    rintro ⟨_, f, oldest, _⟩
    have candidate := oldest.candidate
    rw [none f oldest.there] at candidate
    cases candidate
  | oldest fit f oldest early => exact iff_of_true ⟨f, oldest, rfl⟩ ⟨fit, f, oldest, .inl early⟩
  | stale fit some late there =>
    rw [and_iff_right fit]
    refine exists_congr fun f => and_congr_right fun oldest => ?_
    rw [or_iff_right (not_lt.mpr (late f oldest.there oldest.candidate)), Turn.removes.injEq]
    exact eq_comm
  | missing fit late missing =>
    refine iff_of_false (by simp) ?_
    rintro ⟨_, f, oldest, early | same⟩
    · exact absurd early (not_lt.mpr (late f oldest.there oldest.candidate))
    · exact missing f oldest.there same

/-- **One round** is right exactly under the condition. -/
theorem turn_iff (positive : 0 < set.uSizeMax_K) :
    TurnRight set measured dir (turn set measured dir szDelFile) ↔ TurnCond set measured dir szDelFile := by
  rcases Nat.lt_or_ge (set.uSizeMax_K * 1000).toNat (totalOf measured % set.word) with high | low
  · rcases Nat.lt_or_ge set.limit (totalOf measured) with above | within
    · rw [turnRight_above above, turnCond_above above, (turn_above positive high).removes_iff]
      exact (and_iff_right high).symm
    · rw [turnRight_within within, turnCond_within within, (turn_above positive high).within_iff]
      exact (or_iff_right (Nat.not_le.mpr high)).symm
  · rw [turn_below low]
    rcases Nat.lt_or_ge set.limit (totalOf measured) with above | within
    · rw [turnRight_above above, turnCond_above above]
      refine iff_of_false ?_ fun cond => Nat.not_lt.mpr low cond.1
      rintro ⟨_, f, _, removes⟩
      cases removes
    · rw [turnRight_within within, turnCond_within within]
      exact iff_of_true (.inl rfl) (.inl low)

end

theorem stepRight_iff {set : LogSet} (positive : 0 < set.uSizeMax_K) (s : Pruning) : StepRight set s ↔ StepCond set s := by
  unfold StepRight StepCond
  split
  next => exact Iff.rfl
  next => exact Iff.rfl
  next => exact turn_iff positive

/-! ## Termination -/

namespace Pruning
variable {set : LogSet} {s : Pruning} {note : Option LogNote}

/-- A loop that has still to measure comes before one that has not. -/
def pending (s : Pruning) : Nat :=
  match s.loops with
  | ⟨.measure, _⟩ :: _ => 1
  | _ => 0

/-- What gets less with every step that begins no file. -/
def weight (s : Pruning) : Nat := 2 * s.dir.length + 2 * s.loops.length + s.pending

theorem pending_le (s : Pruning) : s.pending ≤ 1 := by
  unfold pending
  split
  · exact Nat.le_refl 1
  · exact Nat.zero_le 1

/-- A round that is right ends the loop or removes a file. -/
theorem TurnRight.cases {measured dir : List LogFile} {t : Turn} (right : TurnRight set measured dir t) :
    t = .stops ∨ t = .fails ∨ ∃ f ∈ dir, t = .removes f.name := by
  unfold TurnRight at right
  split at right
  · exact right.imp_right .inl
  · obtain ⟨_, f, oldest, removes⟩ := right
    exact .inr (.inr ⟨f, oldest.there, removes⟩)

theorem advance_weight (running : s.loops ≠ []) (right : StepRight set s) : (s.advance set).1.weight < s.weight := by
  obtain ⟨dir, loops⟩ := s
  cases loops with
  | nil => exact absurd rfl running
  | cons loop outer =>
    have ends := pending_le ⟨dir, outer⟩
    obtain ⟨point, szDelFile⟩ := loop
    cases point with
    | measure =>
      have fits : dir.all set.fits = true := List.all_eq_true.mpr right
      simp only [advance, fits, if_true, weight, pending, List.length_cons]
      omega
    | check measured =>
      rcases TurnRight.cases right with stops | fails | ⟨f, there, removes⟩
      · simp only [advance, stops, weight, List.length_cons]
        omega
      · simp only [advance, fails, weight, List.length_cons]
        omega
      · have less : (dir.filter (·.name != f.name)).length < dir.length := by
          rw [List.length_filter_lt_length_iff_exists]
          exact ⟨f, there, by simp⟩
        simp only [advance, removes, weight, pending, List.length_cons]
        omega

/-- A line in a file that is there. -/
theorem logtofile_weight {note : LogNote} (there : s.has note.name = true) : (s.logtofile note).weight = s.weight := by
  rw [logtofile, if_pos there]
  simp only [weight, pending, List.length_map]

theorem step_weight (running : s.loops ≠ []) (right : StepRight set s) (none : ¬s.Creates set note) :
    (s.step set note).weight < s.weight := by
  have less := advance_weight running right
  unfold step
  split
  next t line moved =>
    have there : t.has line.name = true := by
      by_contra missing
      exact none ⟨by rw [moved], line, rfl, by rw [moved]; exact Bool.eq_false_iff.mpr missing⟩
    rw [logtofile_weight there]
    rwa [moved] at less
  next t _ _ moved _ =>
    rwa [moved] at less

/-- No loop runs any more. -/
theorem step_ended (ended : s.loops = []) : s.step set note = s := by
  simp only [step, advance, ended]

theorem creates_ended (ended : s.loops = []) : ¬s.Creates set note := by
  rintro ⟨moved, _⟩
  simp only [advance, ended] at moved
  cases moved

end Pruning

namespace LogRun
variable {r : LogRun}

theorem ended_later {n m : Nat} (ended : (r.state n).loops = []) (later : n ≤ m) : (r.state m).loops = [] := by
  induction later with
  | refl => exact ended
  | step _ ih =>
    rw [state, Pruning.step_ended ih]
    exact ih

/-- Loops whose steps are right end exactly if their messages begin finitely many files. -/
theorem ends_iff (steps : ∀ n, StepRight r.set (r.state n)) :
    (∃ n, (r.state n).loops = []) ↔ ∃ n, ∀ m, n ≤ m → ¬(r.state m).Creates r.set (r.notes m) := by
  constructor
  · rintro ⟨n, ended⟩
    exact ⟨n, fun m later => Pruning.creates_ended (ended_later ended later)⟩
  · rintro ⟨n, none⟩
    apply @eventually_of_lt fun m => (r.state m).weight
    exact fun m later running => Pruning.step_weight running (steps m) (none m later)

end LogRun

/-- **Pruning the log**: the loops end and remove the right files exactly if each round meets the condition and the messages
begin finitely many log files. -/
theorem pruning_iff (r : LogRun) :
    r.Right ↔ (∀ n, StepCond r.set (r.state n)) ∧ ∃ n, ∀ m, n ≤ m → ¬(r.state m).Creates r.set (r.notes m) := by
  have same : (∀ n, StepRight r.set (r.state n)) ↔ ∀ n, StepCond r.set (r.state n) :=
    forall_congr' fun n => stepRight_iff r.positive (r.state n)
  constructor
  · intro right
    exact ⟨same.mp right.steps, (LogRun.ends_iff right.steps).mp right.ends⟩
  · rintro ⟨cond, none⟩
    have steps := same.mpr cond
    exact ⟨(LogRun.ends_iff steps).mpr none, steps⟩

/-- `2024010d.log`, for a digit `d`. -/
def dayLog (d : UInt8) : List UInt8 := [0x32, 0x30, 0x32, 0x34, 0x30, 0x31, 0x30, d] ++ dotLog

/-- A limit of 4294968 K, whose product is 704: the log of the day before is removed, though there are 800 bytes. -/
def wrappedLimit : LogRun where
  set := ⟨4294968, 10, 4294967296⟩
  positive := by decide
  dir := [⟨dayLog 0x31, 500, 0⟩]
  note := ⟨dayLog 0x32, 300, 1⟩
  notes := fun _ => none

theorem wrappedLimit_removes : ¬wrappedLimit.Right := by
  intro right
  have turned : TurnRight wrappedLimit.set (wrappedLimit.state 1).dir (wrappedLimit.state 1).dir
    (turn wrappedLimit.set (wrappedLimit.state 1).dir (wrappedLimit.state 1).dir []) := right.steps 1
  rw [turnRight_within (by decide)] at turned
  revert turned
  decide

/-- A hidden file of 2000 bytes, `.a.log`, with a limit of 1 K: the message behind a removal begins the removed file again. -/
def hiddenLog : LogRun where
  set := ⟨1, 10, 4294967296⟩
  positive := by decide
  dir := [⟨[0x2E, 0x61, 0x2E, 0x6C, 0x6F, 0x67], 2000, 0⟩]
  note := ⟨dayLog 0x32, 100, 1⟩
  notes := fun _ => some ⟨dayLog 0x32, 100, 1⟩

theorem hiddenLog_round (outer : List PruneLoop) :
    (Pruning.step hiddenLog.set ⟨(hiddenLog.state 0).dir, ⟨.measure, []⟩ :: outer⟩ (hiddenLog.notes 0)).step hiddenLog.set (hiddenLog.notes 0) =
      ⟨(hiddenLog.state 0).dir, ⟨.measure, []⟩ :: ⟨.measure, hiddenLog.note.name⟩ :: outer⟩ := by
  have measured : Pruning.step hiddenLog.set ⟨(hiddenLog.state 0).dir, ⟨.measure, []⟩ :: outer⟩ (hiddenLog.notes 0) =
      ⟨(hiddenLog.state 1).dir, ⟨.check (hiddenLog.state 0).dir, []⟩ :: outer⟩ := rfl
  have turned : turn hiddenLog.set (hiddenLog.state 0).dir (hiddenLog.state 1).dir [] = .removes hiddenLog.note.name := by decide
  rw [measured]
  simp only [Pruning.step, Pruning.advance, turned]
  rfl

/-- Each round leaves one more loop behind. -/
theorem hiddenLog_state (n : Nat) : hiddenLog.state (2 * n) =
    ⟨(hiddenLog.state 0).dir, ⟨.measure, []⟩ :: List.replicate n ⟨.measure, hiddenLog.note.name⟩⟩ := by
  induction n with
  | zero => rfl
  | succ n ih =>
    show ((hiddenLog.state (2 * n)).step hiddenLog.set (hiddenLog.notes 0)).step hiddenLog.set (hiddenLog.notes 0) = _
    rw [ih, List.replicate_succ]
    exact hiddenLog_round _

theorem hiddenLog_endless (n : Nat) : (hiddenLog.state n).loops ≠ [] := by
  intro ended
  have later := LogRun.ended_later ended (Nat.le_mul_of_pos_left n (by decide : 0 < 2))
  rw [hiddenLog_state] at later
  cases later

end VideoDetector.Ipsearch
