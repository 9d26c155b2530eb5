import Mathlib.Algebra.Order.Ring.Rat
import VideoDetector.Alg.ConnectDet
import VideoDetector.Lib.Bounded
import VideoDetector.Lib.Pairs

/-!
# Pairs of headlights (`TeamLength1` in `fvd-new/alg-mutilthread/m_arith.cpp`)

Two loops look for blobs that may be the headlights of a car. A pair is recorded in `position`, which has 30 entries; if it
is not in the tail of the queue both blobs are removed from the list, and the loops go on with the next index: the blob that
comes to the first index is not compared with those that come to the places up to the second. The fractions are exact.
-/

namespace VideoDetector.Alg
set_option autoImplicit false
open Lib

namespace CRect

/-- `Arearate` of two boxes. -/
def arearate (a b : CRect) : ℚ :=
  let areaA := a.width * a.height
  let areaB := b.width * b.height
  (min areaA areaB : ℚ) / (max areaB areaA : ℚ)

/-- `recover`, how much of their rows two boxes share. -/
def recover (a b : CRect) : ℚ :=
  let vertical := min a.bottom b.bottom - max a.top b.top
  if min a.height b.height ≠ 0 then (vertical : ℚ) / (min a.height b.height : ℚ) else 0

/-- `dx`. -/
def dx (a b : CRect) : Int := max a.right b.right - min a.left b.left

/-- `dy`. -/
def dy (a b : CRect) : Int := max a.bottom b.bottom - min a.top b.top

end CRect

/-- The size of the queue area and the rows of its tail. -/
structure TeamArea where
  teamWidth : Nat
  teamHeight : Nat
  tailtop : Int
  tailbottom : Int

namespace TeamArea

/-- The test of two blobs. -/
def pair (c : TeamArea) (a b : CRect) : Bool :=
  1 / 5 ≤ a.arearate b && 1 / 5 ≤ a.recover b && (c.teamWidth * 3 / 10 : Nat) ≤ a.dx b

/-- A blob is in the tail. -/
def inTail (c : TeamArea) (a : CRect) : Bool := 0 < min c.tailbottom a.bottom - max c.tailtop a.top

end TeamArea

inductive PairingFault where
  | index (i : Nat)
  | position
  | unfinished
  deriving DecidableEq, Repr

/-- `position` has so many entries. -/
def positionMax : Nat := 30

/-- The variables of the loops, with the pairs recorded so far. -/
structure Pairing where
  i : Nat
  j : Nat
  array : List CRect
  dwForegroundCount : Int
  position : List Int
  isCarInTail : Bool
  stopCal : Bool
  pairs : List (CRect × CRect)
  deriving DecidableEq

/-- An element of the list. -/
def boxAt (array : List CRect) (i : Nat) : Except PairingFault CRect :=
  match array[i]? with
  | some a => .ok a
  | none => .error (.index i)

namespace Pairing

/-- The two blobs at the indices. -/
def compare (c : TeamArea) (s : Pairing) : Except PairingFault Pairing := do
  let a ← boxAt s.array s.i
  let b ← boxAt s.array s.j
  if c.pair a b then
    let position ← pushIn .position positionMax s.position ((a.bottom + a.top).tdiv 2)
    let pairs := s.pairs ++ [(a, b)]
    if c.inTail a then return { s with position, pairs, isCarInTail := true, stopCal := true }
    else
      return { s with
        position, pairs
        isCarInTail := false
        array := (s.array.eraseIdx s.j).eraseIdx s.i
        dwForegroundCount := s.dwForegroundCount - 2
        j := s.j + 1 }
  else return { s with j := s.j + 1 }

/-- One pass of the inner loop, or of the outer one behind it. -/
def step (c : TeamArea) (s : Pairing) : Except PairingFault (Option Pairing) := do
  if s.stopCal then return none
  else if (s.i : Int) < s.dwForegroundCount - 1 then
    if (s.j : Int) < s.dwForegroundCount then
      let t ← s.compare c
      return some t
    else return some { s with i := s.i + 1, j := s.i + 1 + 1 }
  else return none

/-- Before the loops. -/
def start (boxes : List CRect) (isCarInTail : Bool) : Pairing :=
  ⟨0, 1, boxes, boxes.length, [], isCarInTail, false, []⟩

/-- More passes than there are. -/
def budget (boxes : List CRect) : Nat := (boxes.length + 1) * (boxes.length + 2)

end Pairing

/-- What `TeamLength1` leaves behind: the variables of the loops and what it sets from them. -/
structure TeamLength where
  loops : Pairing
  percent : ℚ
  lastCarposition : Int
  isCarInTail : Bool
  deriving DecidableEq

/-- `TeamLength1` for the boxes of the blobs. -/
def teamLength1 (c : TeamArea) (boxes : List CRect) (isCarInTail : Bool) : Except PairingFault TeamLength := do
  match ← iterateM (Pairing.step c) (Pairing.budget boxes) (.start boxes isCarInTail) with
  | none => throw .unfinished
  | some s =>
    match s.position with
    | first :: _ => return ⟨s, min (1 - first / c.teamHeight) 1, first, s.isCarInTail⟩
    | [] => return ⟨s, 0, c.teamHeight, false⟩

/-! ## One pass -/

namespace Pairing

/-- What a pass does. -/
inductive Pass (c : TeamArea) (s : Pairing) : Pairing → Prop where
  | row (goesOn : s.stopCal = false) (more : (s.i : Int) < s.dwForegroundCount - 1) (last : s.dwForegroundCount ≤ s.j) :
      Pass c s { s with i := s.i + 1, j := s.i + 1 + 1 }
  | apart {a b : CRect} (goesOn : s.stopCal = false) (first : s.array[s.i]? = some a) (second : s.array[s.j]? = some b)
      (other : c.pair a b = false) : Pass c s { s with j := s.j + 1 }
  | tail {a b : CRect} (goesOn : s.stopCal = false) (first : s.array[s.i]? = some a) (second : s.array[s.j]? = some b)
      (found : c.pair a b = true) (inTail : c.inTail a = true) :
      Pass c s { s with
        position := s.position ++ [(a.bottom + a.top).tdiv 2], pairs := s.pairs ++ [(a, b)], isCarInTail := true
        stopCal := true }
  | removed {a b : CRect} (goesOn : s.stopCal = false) (first : s.array[s.i]? = some a) (second : s.array[s.j]? = some b)
      (found : c.pair a b = true) (notTail : c.inTail a = false) :
      Pass c s { s with
        position := s.position ++ [(a.bottom + a.top).tdiv 2], pairs := s.pairs ++ [(a, b)], isCarInTail := false
        array := (s.array.eraseIdx s.j).eraseIdx s.i, dwForegroundCount := s.dwForegroundCount - 2, j := s.j + 1 }

/-- A pair is recorded in this pass. -/
def Records (c : TeamArea) (s : Pairing) : Prop :=
  s.stopCal = false ∧ ∃ a b, s.array[s.i]? = some a ∧ s.array[s.j]? = some b ∧ c.pair a b = true

section
variable {c : TeamArea} {s t u : Pairing}

theorem boxAt_ok {array : List CRect} {i : Nat} {a : CRect} (done : boxAt array i = .ok a) : array[i]? = some a := by
  unfold boxAt at done
  split at done
  case h_1 entry => rw [entry, Except.ok.inj done]
  case h_2 => cases done

theorem boxAt_of_some {array : List CRect} {i : Nat} {a : CRect} (entry : array[i]? = some a) : boxAt array i = .ok a := by
  rw [boxAt, entry]

theorem pass_of_step (done : s.step c = .ok (some t)) : Pass c s t := by
  unfold step at done
  split at done
  case isTrue => cases done
  case isFalse running =>
    rw [Bool.not_eq_true] at running
    split at done
    case isFalse => cases done
    case isTrue more =>
      split at done
      case isFalse last =>
        cases done
        exact .row running more (not_lt.mp last)
      case isTrue inside =>
        obtain ⟨t', compared, rest⟩ := bind_ok done
        cases rest
        unfold compare at compared
        obtain ⟨a, first, compared⟩ := bind_ok compared
        obtain ⟨b, second, compared⟩ := bind_ok compared
        replace first := boxAt_ok first
        replace second := boxAt_ok second
        split at compared
        case isFalse other =>
          cases compared
          exact .apart running first second (Bool.not_eq_true _ ▸ other)
        case isTrue found =>
          obtain ⟨position, pushed, compared⟩ := bind_ok compared
          unfold pushIn at pushed
          split at pushed
          case isFalse => cases pushed
          case isTrue =>
            cases pushed
            split at compared
            case isTrue inTail =>
              cases compared
              exact .tail running first second found inTail
            case isFalse notTail =>
              cases compared
              exact .removed running first second found (Bool.not_eq_true _ ▸ notTail)

/-- The indices are inside the list. -/
structure Indexed (s : Pairing) : Prop where
  count : s.dwForegroundCount = s.array.length
  less : s.i < s.j

theorem Indexed.pass (indexed : s.Indexed) (pass : Pass c s t) : t.Indexed := by
  obtain ⟨count, less⟩ := indexed
  cases pass with
  | row => exact ⟨count, Nat.lt_succ_self _⟩
  | apart => exact ⟨count, Nat.lt_succ_of_lt less⟩
  | tail => exact ⟨count, less⟩
  | removed _ _ second =>
    have shorter := length_erase_two less (List.getElem?_eq_some_iff.mp second).1
    refine ⟨?_, Nat.lt_succ_of_lt less⟩
    simp only [count]
    omega

/-- A pass that compares two blobs fails only for the lack of an entry in `position`. -/
theorem compare_ok_iff {a b : CRect} (first : s.array[s.i]? = some a) (second : s.array[s.j]? = some b) :
    (∃ t, s.compare c = .ok t) ↔ (c.pair a b = true → s.position.length < positionMax) := by
  rw [compare, boxAt_of_some first, ok_bind, boxAt_of_some second, ok_bind]
  by_cases found : c.pair a b = true
  · rw [if_pos found]
    unfold pushIn
    by_cases room : s.position.length < positionMax
    · rw [if_pos room, ok_bind]
      refine iff_of_true ?_ fun _ => room
      by_cases inTail : c.inTail a = true
      · exact ⟨_, if_pos inTail⟩
      · exact ⟨_, if_neg inTail⟩
    · rw [if_neg room]
      refine iff_of_false ?_ fun enough => room (enough found)
      rintro ⟨t, done⟩
      cases done
  · rw [if_neg found]
    exact iff_of_true ⟨_, rfl⟩ fun found' => absurd found' found

/-- When a pass does not fail. -/
theorem step_ok_iff (indexed : s.Indexed) : (∃ o, s.step c = .ok o) ↔ (s.Records c → s.position.length < positionMax) := by
  obtain ⟨count, less⟩ := indexed
  unfold step
  by_cases stopped : s.stopCal = true
  · rw [if_pos stopped]
    refine iff_of_true ⟨_, rfl⟩ fun records => ?_
    rw [records.1] at stopped
    cases stopped
  · rw [if_neg stopped]
    by_cases inside : s.j < s.array.length
    · have more : (s.i : Int) < s.dwForegroundCount - 1 := by omega
      have next : (s.j : Int) < s.dwForegroundCount := by omega
      have first : s.array[s.i]? = some s.array[s.i] := List.getElem?_eq_getElem (by omega)
      have second : s.array[s.j]? = some s.array[s.j] := List.getElem?_eq_getElem inside
      rw [if_pos more, if_pos next, bind_pure_iff, compare_ok_iff first second]
      refine imp_congr_left ⟨fun found => ⟨Bool.not_eq_true _ ▸ stopped, _, _, first, second, found⟩, ?_⟩
      rintro ⟨_, a, b, first', second', found⟩
      cases first.symm.trans first'
      cases second.symm.trans second'
      exact found
    · have last : ¬ (s.j : Int) < s.dwForegroundCount := by omega
      refine iff_of_true ?_ ?_
      · rw [if_neg last]
        split
        · exact ⟨_, rfl⟩
        · exact ⟨_, rfl⟩
      · rintro ⟨_, a, b, _, second, _⟩
        exact absurd (List.getElem?_eq_some_iff.mp second).1 inside

/-! ## All passes -/

/-- The passes that are left. -/
def rest (n : Nat) (s : Pairing) : Nat :=
  if s.stopCal then 0 else (s.array.length - s.i) * (n + 2) + (s.array.length + 1 - s.j)

theorem rest_less {n : Nat} (indexed : s.Indexed) (short : s.array.length ≤ n) (pass : Pass c s t) : t.rest n < s.rest n := by
  obtain ⟨count, less⟩ := indexed
  cases pass with
  | row goesOn more last =>
    have parts : s.array.length - s.i = s.array.length - (s.i + 1) + 1 := by omega
    simp only [rest, goesOn, Bool.false_eq_true, if_false]
    rw [parts, Nat.add_mul]
    omega
  | apart goesOn _ second =>
    have inside := (List.getElem?_eq_some_iff.mp second).1
    simp only [rest, goesOn, Bool.false_eq_true, if_false]
    omega
  | tail goesOn _ second =>
    have inside := (List.getElem?_eq_some_iff.mp second).1
    simp only [rest, goesOn, Bool.false_eq_true, if_false, if_true]
    omega
  | removed goesOn _ second =>
    have inside := (List.getElem?_eq_some_iff.mp second).1
    have shorter : ((s.array.eraseIdx s.j).eraseIdx s.i).length ≤ s.array.length := 
      ((List.eraseIdx_sublist _ _).trans (List.eraseIdx_sublist _ _)).length_le
    have passes := Nat.mul_le_mul_right (n + 2) (Nat.sub_le_sub_right shorter s.i)
    simp only [rest, goesOn, Bool.false_eq_true, if_false]
    omega

/-- The list only becomes shorter. -/
theorem Pass.sublist (pass : Pass c s t) : t.array.Sublist s.array := by
  cases pass with
  | row => exact .refl _
  | apart => exact .refl _
  | tail => exact .refl _
  | removed => exact (List.eraseIdx_sublist _ _).trans (List.eraseIdx_sublist _ _)

theorem sublist_of_comesTo (reached : ComesTo (step c) s t) : t.array.Sublist s.array :=
  reached.keeps (.refl _) fun _ _ _ shorter done => (pass_of_step done).sublist.trans shorter

theorem indexed_of_comesTo (reached : ComesTo (step c) s t) (indexed : s.Indexed) : t.Indexed :=
  reached.keeps indexed fun _ _ _ indexed done => indexed.pass (pass_of_step done)

theorem start_indexed (boxes : List CRect) (isCarInTail : Bool) : (start boxes isCarInTail).Indexed := ⟨rfl, Nat.zero_lt_one⟩

/-- The loops end exactly if there is room for every pair. -/
theorem loops_ok_iff {boxes : List CRect} {isCarInTail : Bool} :
    (∃ final, iterateM (step c) (budget boxes) (start boxes isCarInTail) = .ok (some final)) ↔
      ∀ s, ComesTo (step c) (start boxes isCarInTail) s → s.Records c → s.position.length < positionMax := by
  have indexed {s : Pairing} (reached : ComesTo (step c) (start boxes isCarInTail) s) : s.Indexed :=
    indexed_of_comesTo reached (start_indexed boxes isCarInTail)
  constructor
  · rintro ⟨final, run⟩ s reached
    exact (step_ok_iff (indexed reached)).mp (iterateM_safe run reached)
  · intro room
    have enough : (start boxes isCarInTail).rest boxes.length < budget boxes := by
      simp only [rest, start, budget, Bool.false_eq_true, if_false, Nat.sub_zero]
      rw [Nat.add_mul]
      omega
    obtain ⟨final, run, _⟩ := iterateM_total (rest boxes.length)
      (fun t u reached done => rest_less (indexed reached) (sublist_of_comesTo reached).length_le (pass_of_step done))
      (fun t reached => (step_ok_iff (indexed reached)).mpr (room t reached)) enough
    exact ⟨final, run⟩

/-- The blobs of the pairs that were recorded. -/
def used (s : Pairing) : List CRect := s.pairs.flatMap fun p => [p.1, p.2]

/-- What is recorded: no blob is in two pairs, and `IsCarInTail` is about the last pair, the only one that may be in the tail. -/
structure Recorded (c : TeamArea) (boxes : List CRect) (isCarInTail : Bool) (s : Pairing) : Prop where
  once : ∃ rest, (s.used ++ rest).Perm boxes ∧ (s.stopCal = false → rest = s.array)
  length : s.position.length = s.pairs.length
  flag : s.isCarInTail = match s.pairs.getLast? with
    | some p => c.inTail p.1
    | none => isCarInTail
  going : s.stopCal = false → ∀ p ∈ s.pairs, c.inTail p.1 = false
  stopped : s.stopCal = true → ∃ p ∈ s.pairs, c.inTail p.1 = true

section
variable {boxes : List CRect} {isCarInTail : Bool}

theorem start_recorded : (start boxes isCarInTail).Recorded c boxes isCarInTail where
  once := ⟨boxes, .refl _, fun _ => rfl⟩
  length := rfl
  flag := rfl
  going := fun _ p member => absurd member List.not_mem_nil
  stopped := fun stop => by cases stop

theorem used_snoc {a b : CRect} {l : List CRect} (recorded : (s.used ++ s.array).Perm boxes)
    (taken : (a :: b :: l).Perm s.array) : ((s.pairs ++ [(a, b)]).flatMap (fun p => [p.1, p.2]) ++ l).Perm boxes := by
  rw [List.flatMap_append, List.append_assoc]
  exact (List.Perm.append_left s.used taken).trans recorded

theorem Recorded.pass (recorded : s.Recorded c boxes isCarInTail) (indexed : s.Indexed) (pass : Pass c s t) :
    t.Recorded c boxes isCarInTail := by
  obtain ⟨⟨rest, once, same⟩, length, flag, going, _⟩ := recorded
  cases pass with
  | row goesOn => exact ⟨⟨rest, once, same⟩, length, flag, going, fun stop => by rw [goesOn] at stop; cases stop⟩
  | apart goesOn => exact ⟨⟨rest, once, same⟩, length, flag, going, fun stop => by rw [goesOn] at stop; cases stop⟩
  | tail goesOn first second _ inTail =>
    rw [same goesOn] at once
    refine ⟨⟨_, used_snoc once (erase_two_perm indexed.less first second), fun stop => by cases stop⟩, ?_, ?_, ?_, ?_⟩
    · simp only [List.length_append, length, List.length_singleton]
    · simp only [List.getLast?_concat, inTail]
    · intro stop
      cases stop
    · exact fun _ => ⟨_, List.mem_append_right _ List.mem_cons_self, inTail⟩
  | removed goesOn first second _ notTail =>
    rw [same goesOn] at once
    refine ⟨⟨_, used_snoc once (erase_two_perm indexed.less first second), fun _ => rfl⟩, ?_, ?_, ?_, ?_⟩
    · simp only [List.length_append, length, List.length_singleton]
    · simp only [List.getLast?_concat, notTail]
    · intro _ p member
      rcases List.mem_append.mp member with old | new
      · exact going goesOn p old
      · rw [List.mem_singleton.mp new]
        exact notTail
    · intro stop
      rw [goesOn] at stop
      cases stop

theorem recorded_of_comesTo (reached : ComesTo (step c) (start boxes isCarInTail) s) : s.Recorded c boxes isCarInTail :=
  reached.keeps start_recorded fun _ _ before recorded done =>
    recorded.pass (indexed_of_comesTo before (start_indexed boxes isCarInTail)) (pass_of_step done)

/-- A pass removes a pair and goes on behind the comparison of the blob that came to the first index with another one. -/
def Skips (s t : Pairing) (a b : CRect) : Prop :=
  t.array.length < s.array.length ∧ ∃ k, s.i < k ∧ k ≤ s.j ∧ t.array[s.i]? = some a ∧ t.array[k]? = some b

theorem compared_of_comesTo (reached : ComesTo (step c) (start boxes isCarInTail) s) :
    Compared (fun a b => c.pair a b = true ∧ ¬ Skipped (step c) Skips (start boxes isCarInTail) s a b) s.i s.j s.array := by
  refine compared_but_skipped (fun u v S before done pairs compared => ?_) (fun S => compared_start S boxes) reached
  have less := (indexed_of_comesTo before (start_indexed boxes isCarInTail)).less
  have count := (indexed_of_comesTo before (start_indexed boxes isCarInTail)).count
  cases pass_of_step done with
  | row _ _ last => exact compared.row (by omega)
  | apart _ first second other =>
    refine compared.next fun a b first' second' related => ?_
    cases first.symm.trans first'
    cases second.symm.trans second'
    have found := (pairs _ _ related).1
    rw [other] at found
    cases found
  | tail => exact compared
  | removed _ _ second =>
    refine compared.erase less fun k a b above below here there related => (pairs a b related).2 ⟨?_, k, above, below, here, there⟩
    rw [← length_erase_two less (List.getElem?_eq_some_iff.mp second).1]
    exact Nat.lt_add_of_pos_right (by decide)

/-- At the end the first index is at the last blob, if no pair is in the tail. -/
theorem last_index (reached : ComesTo (step c) (start boxes isCarInTail) s) (done : s.step c = .ok none)
    (going : s.stopCal = false) : s.array.length ≤ s.i + 1 := by
  obtain ⟨count, less⟩ := indexed_of_comesTo reached (start_indexed boxes isCarInTail)
  by_contra long
  have more : (s.i : Int) < s.dwForegroundCount - 1 := by omega
  rw [Pairing.step, going, if_neg (by decide), if_pos more] at done
  split at done
  · obtain ⟨_, _, wrong⟩ := bind_ok done
    cases wrong
  · cases done

/-- No pair of blobs that passes the test is left exactly if of every such pair whose comparison was skipped one is removed
later, or the loops end in the tail. -/
theorem left_apart_iff (reached : ComesTo (step c) (start boxes isCarInTail) s) (done : s.step c = .ok none) :
    (s.stopCal = false → s.array.Pairwise fun a b => c.pair a b = false) ↔
      ∀ u v a b, ComesTo (step c) (start boxes isCarInTail) u → u.step c = .ok (some v) → Skips u v a b → c.pair a b = true →
        ∃ t, ComesTo (step c) v t ∧ (t.stopCal = true ∨ ¬ [a, b].Sublist t.array) := by
  have left (going : s.stopCal = false) : s.array.Pairwise (fun a b => c.pair a b = false) ↔
      ∀ a b, Skipped (step c) Skips (start boxes isCarInTail) s a b → c.pair a b = true → ¬ [a, b].Sublist s.array := by
    simp only [← Bool.not_eq_true]
    exact apart_iff_skipped (compared_of_comesTo reached) (last_index reached done going)
  constructor
  · intro apart u v a b before pass skips found
    have later : ComesTo (step c) v s := (before.next pass).last reached done
    refine ⟨s, later, ?_⟩
    by_cases going : s.stopCal = false
    · exact .inr ((left going).mp (apart going) a b ⟨u, v, before, pass, skips, later⟩ found)
    · exact .inl (Bool.not_eq_false _ ▸ going)
  · intro broken going
    refine (left going).mpr fun a b ⟨u, v, before, pass, skips, _⟩ found both => ?_
    obtain ⟨t, later, ends⟩ := broken u v a b before pass skips found
    have between : ComesTo (step c) (start boxes isCarInTail) t := (before.next pass).trans later
    rcases ends with stopped | gone
    · -- a loop that has stopped is at its end
      rcases Relation.ReflTransGen.cases_head (between.last reached done) with rfl | ⟨w, next, _⟩
      · rw [going] at stopped
        cases stopped
      · rw [Pairing.step, if_pos stopped] at next
        cases next
    · exact gone (both.trans (sublist_of_comesTo (between.last reached done)))

end

end

end Pairing

/-- What the pairs are for: no blob is in two of them, no two blobs that would be one are left unless the loops ended in the
tail, and `IsCarInTail` says whether the last one is there. -/
structure TeamLength.Correct (c : TeamArea) (boxes : List CRect) (out : TeamLength) : Prop where
  once : out.loops.used.Subperm boxes
  complete : (∀ p ∈ out.loops.pairs, c.inTail p.1 = false) → out.loops.array.Pairwise fun a b => c.pair a b = false
  tail : out.isCarInTail = true ↔ ∃ p, out.loops.pairs.getLast? = some p ∧ c.inTail p.1 = true

section
variable {c : TeamArea} {boxes : List CRect} {isCarInTail : Bool}

open Pairing in
/-- The outcome for the last state of the loops. -/
theorem teamLength1_of_loops {s : Pairing}
    (run : iterateM (step c) (budget boxes) (start boxes isCarInTail) = .ok (some s)) :
    ∃ out, teamLength1 c boxes isCarInTail = .ok out ∧ out.loops = s ∧
      out.isCarInTail = if s.position = [] then false else s.isCarInTail := by
  rw [teamLength1, run, ok_bind]
  cases positions : s.position with
  | nil => exact ⟨_, by simp only [positions]; rfl, rfl, rfl⟩
  | cons first rest => exact ⟨_, by simp only [positions]; rfl, rfl, rfl⟩

open Pairing in
/-- What is recorded at the end of the loops is what is meant but for the blobs that are left. -/
theorem correct_iff {s : Pairing} {out : TeamLength} (recorded : s.Recorded c boxes isCarInTail) (same : out.loops = s)
    (flag : out.isCarInTail = if s.position = [] then false else s.isCarInTail) :
    out.Correct c boxes ↔ (s.stopCal = false → s.array.Pairwise fun a b => c.pair a b = false) := by
  subst same
  have tailless : (∀ p ∈ out.loops.pairs, c.inTail p.1 = false) ↔ out.loops.stopCal = false := by
    constructor
    · intro none
      by_contra stop
      obtain ⟨p, member, inTail⟩ := recorded.stopped (Bool.not_eq_false _ ▸ stop)
      rw [none p member] at inTail
      cases inTail
    · exact recorded.going
  constructor
  · intro correct going
    exact correct.complete (tailless.mpr going)
  · intro apart
    refine ⟨?_, fun none => apart (tailless.mp none), ?_⟩
    · obtain ⟨rest, once, _⟩ := recorded.once
      exact (List.sublist_append_left _ rest).subperm.trans once.subperm
    · have length := recorded.length
      have last := recorded.flag
      rw [flag]
      cases pairs : out.loops.pairs.getLast? with
      | none =>
        rw [List.getLast?_eq_none_iff] at pairs
        rw [pairs, List.length_nil, List.length_eq_zero_iff] at length
        simp [length]
      | some p =>
        have some : out.loops.position ≠ [] := by
          intro none
          rw [none, List.length_nil, eq_comm, List.length_eq_zero_iff] at length
          rw [length] at pairs
          cases pairs
        rw [pairs] at last
        simp [some, last]

open Pairing in
/-- **When the pairs are right.** For every list of boxes the loops end, within the list and the 30 entries of `position`, with
each blob in one pair at most, no two blobs that pass the test left if no pair is in the tail, and `IsCarInTail` for the last
pair, exactly if no pair is found when 30 are recorded, and of every two blobs that pass the test and whose comparison a
removal skips one is removed by a later pair, or a later pair is in the tail. -/
theorem pairing_correct_iff (c : TeamArea) (boxes : List CRect) (isCarInTail : Bool) :
    (∃ out, teamLength1 c boxes isCarInTail = .ok out ∧ out.Correct c boxes) ↔
      (∀ s, ComesTo (step c) (start boxes isCarInTail) s → s.Records c → s.position.length < positionMax) ∧
      ∀ u v a b, ComesTo (step c) (start boxes isCarInTail) u → u.step c = .ok (some v) → Skips u v a b →
        c.pair a b = true → ∃ t, ComesTo (step c) v t ∧ (t.stopCal = true ∨ ¬ [a, b].Sublist t.array) := by
  rw [← loops_ok_iff]
  constructor
  · rintro ⟨out, done, correct⟩
    unfold teamLength1 at done
    obtain ⟨o, run, _⟩ := bind_ok done
    cases o with
    | none =>
      rw [run] at done
      cases done
    | some s =>
      obtain ⟨reached, last⟩ := iterateM_comesTo run
      obtain ⟨out', done', same, flag⟩ := teamLength1_of_loops run
      cases done.symm.trans done'
      exact ⟨⟨s, run⟩, (left_apart_iff reached last).mp ((correct_iff (recorded_of_comesTo reached) same flag).mp correct)⟩
  · rintro ⟨⟨s, run⟩, broken⟩
    obtain ⟨reached, last⟩ := iterateM_comesTo run
    obtain ⟨out, done, same, flag⟩ := teamLength1_of_loops run
    exact ⟨out, done, (correct_iff (recorded_of_comesTo reached) same flag).mpr ((left_apart_iff reached last).mpr broken)⟩

end

/-- A wide light, above the tail of the area. -/
def light : CRect := ⟨0, 10, 60, 20⟩

def queueArea : TeamArea := ⟨100, 200, 150, 200⟩

/-- Of four equal lights two are left that pass the test, and a hundred have more than 30 pairs. -/
theorem equalLights_left : ¬ (∃ out, teamLength1 queueArea (List.replicate 4 light) false = .ok out ∧
      out.Correct queueArea (List.replicate 4 light)) ∧
    teamLength1 queueArea (List.replicate 100 light) false = .error .position := by
  refine ⟨?_, by decide +kernel⟩
  rintro ⟨out, done, correct⟩
  have run : teamLength1 queueArea (List.replicate 4 light) false =
      .ok ⟨⟨1, 2, [light, light], 2, [15], false, false, [(light, light)]⟩, 37 / 40, 15, false⟩ := by decide +kernel
  cases done.symm.trans run
  have apart := correct.complete (by decide +kernel)
  exact absurd (List.rel_of_pairwise_cons apart List.mem_cons_self) (by decide +kernel)

end VideoDetector.Alg
