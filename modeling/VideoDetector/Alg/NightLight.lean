import VideoDetector.Alg.Pairing

/-!
# Merged headlights (`NightLightDetect` in `fvd-new/alg-mutilthread/m_arith.cpp`)

By night two loops merge the boxes of blobs in the coil that may be the headlights of a car: the first box becomes the one
around both, the second is removed, and the loops go on with the next index. The grown box is compared neither with those
before it nor with the one that comes to the place of the removed one. The rows inside one of the merged boxes are marked in
column 0 of the result. The fractions are exact.
-/

namespace VideoDetector.Alg
set_option autoImplicit false
open Lib

namespace CRect

/-- The box that the first one becomes when two are merged. -/
def merged (a b : CRect) : CRect where
  left := min a.left b.left
  top := min a.top b.top
  right := max a.right b.right
  bottom := max a.bottom b.bottom

/-- A box covers another one. -/
def Covers (b a : CRect) : Prop := b.left ≤ a.left ∧ b.top ≤ a.top ∧ a.right ≤ b.right ∧ a.bottom ≤ b.bottom

/-- The smallest box around some boxes. -/
structure Around (b : CRect) (group : List CRect) : Prop where
  covers : ∀ a ∈ group, b.Covers a
  left : ∃ a ∈ group, a.left = b.left
  top : ∃ a ∈ group, a.top = b.top
  right : ∃ a ∈ group, a.right = b.right
  bottom : ∃ a ∈ group, a.bottom = b.bottom

end CRect

/-- The size of the coil. -/
structure CoilArea where
  mIWidth : Nat
  mIHeight : Nat

/-- The test of two boxes. -/
def CoilArea.fit (c : CoilArea) (a b : CRect) : Bool :=
  3 / 10 ≤ a.arearate b && 1 / 5 ≤ a.recover b && (c.mIWidth * 3 / 10 : Nat) ≤ a.dx b &&
    a.dy b ≤ (c.mIHeight * 3 / 4 : Nat) && a.dy b < 8 * min a.height b.height

/-- The variables of the loops, with the boxes from which each box of the list was merged. -/
structure Merging where
  i : Nat
  j : Nat
  array : List CRect
  dwForegroundCount : Int
  fitflag : Bool
  position : Nat
  position1 : Nat
  groups : List (List CRect)
  deriving DecidableEq

namespace Merging

/-- The two boxes at the indices. -/
def compare (c : CoilArea) (s : Merging) : Except PairingFault Merging := do
  let a ← boxAt s.array s.i
  let b ← boxAt s.array s.j
  if c.fit a b then
    let t := { s with
      array := (s.array.set s.i (a.merged b)).eraseIdx s.j
      groups := (s.groups.set s.i (s.groups[s.i]?.getD [] ++ s.groups[s.j]?.getD [])).eraseIdx s.j
      dwForegroundCount := s.dwForegroundCount - 1
      j := s.j + 1 }
    if s.fitflag = false then return { t with position := s.i, fitflag := true }
    else return { t with position1 := s.i }
  else return { s with j := s.j + 1 }

/-- One pass of the inner loop, or of the outer one behind it. -/
def step (c : CoilArea) (s : Merging) : Except PairingFault (Option Merging) := do
  if (s.i : Int) < s.dwForegroundCount - 1 then
    if (s.j : Int) < s.dwForegroundCount then
      let t ← s.compare c
      return some t
    else return some { s with i := s.i + 1, j := s.i + 1 + 1 }
  else return none

/-- Before the loops. -/
def start (boxes : List CRect) : Merging := ⟨0, 1, boxes, boxes.length, false, 0, 0, boxes.map ([·])⟩

/-- The position whose box is marked. -/
def marked (s : Merging) : Except PairingFault Nat := do
  if s.position1 ≠ 0 ∧ s.position1 < s.array.length ∧ s.position < s.array.length then
    let b1 ← boxAt s.array s.position1
    let b ← boxAt s.array s.position
    if b1.top < b.top then return s.position1 else return s.position
  else return s.position

end Merging

/-- `SetImagePointValue`; an image is given by column and row. -/
def setPoint (image : Nat → Nat → UInt8) (col row : Nat) (value : UInt8) : Nat → Nat → UInt8 :=
  Function.update image col (Function.update (image col) row value)

/-- The loop over the rows. -/
def markRows (height : Nat) (b : CRect) (image : Nat → Nat → UInt8) : Nat → Nat → UInt8 :=
  (List.range height).foldl
    (fun image row => setPoint image 0 row (if b.top < (row : Int) ∧ (row : Int) < b.bottom then 255 else 0)) image

/-- What `NightLightDetect` leaves behind: the variables of the loops and the result image. -/
structure NightLight where
  loops : Merging
  puTempImage : Nat → Nat → UInt8

/-- `NightLightDetect` for the boxes of the blobs. -/
def nightLightDetect (c : CoilArea) (boxes : List CRect) (puTempImage : Nat → Nat → UInt8) : Except PairingFault NightLight := do
  if boxes = [] then return ⟨.start [], fun _ _ => 0⟩
  else
    match ← iterateM (Merging.step c) (Pairing.budget boxes) (.start boxes) with
    | none => throw .unfinished
    | some s =>
      if s.fitflag then
        let position ← s.marked
        let b ← boxAt s.array position
        return ⟨s, markRows c.mIHeight b puTempImage⟩
      else return ⟨s, fun _ _ => 0⟩

/-! ## One pass -/

namespace CRect
variable {a b : CRect} {g h : List CRect}

theorem around_self (a : CRect) : a.Around [a] :=
  ⟨fun x member => by
      rw [List.mem_singleton.mp member]
      exact ⟨le_refl _, le_refl _, le_refl _, le_refl _⟩,
    ⟨a, List.mem_cons_self, rfl⟩, ⟨a, List.mem_cons_self, rfl⟩, ⟨a, List.mem_cons_self, rfl⟩, ⟨a, List.mem_cons_self, rfl⟩⟩

/-- One of two is the least one. -/
theorem exists_append_min {f : CRect → Int} {x y : Int} (first : ∃ r ∈ g, f r = x) (second : ∃ r ∈ h, f r = y) :
    ∃ r ∈ g ++ h, f r = min x y := by
  obtain ⟨r, member, here⟩ := first
  obtain ⟨r', member', there⟩ := second
  rcases min_choice x y with least | least
  · exact ⟨r, List.mem_append_left _ member, here.trans least.symm⟩
  · exact ⟨r', List.mem_append_right _ member', there.trans least.symm⟩

theorem exists_append_max {f : CRect → Int} {x y : Int} (first : ∃ r ∈ g, f r = x) (second : ∃ r ∈ h, f r = y) :
    ∃ r ∈ g ++ h, f r = max x y := by
  obtain ⟨r, member, here⟩ := first
  obtain ⟨r', member', there⟩ := second
  rcases max_choice x y with greatest | greatest
  · exact ⟨r, List.mem_append_left _ member, here.trans greatest.symm⟩
  · exact ⟨r', List.mem_append_right _ member', there.trans greatest.symm⟩

/-- The box of two groups. -/
theorem Around.merged (first : a.Around g) (second : b.Around h) : (a.merged b).Around (g ++ h) where
  covers := by
    intro r member
    rcases List.mem_append.mp member with old | new
    · obtain ⟨left, top, right, bottom⟩ := first.covers r old
      exact ⟨min_le_of_left_le left, min_le_of_left_le top, le_max_of_le_left right, le_max_of_le_left bottom⟩
    · obtain ⟨left, top, right, bottom⟩ := second.covers r new
      exact ⟨min_le_of_right_le left, min_le_of_right_le top, le_max_of_le_right right, le_max_of_le_right bottom⟩
  left := exists_append_min first.left second.left
  top := exists_append_min first.top second.top
  right := exists_append_max first.right second.right
  bottom := exists_append_max first.bottom second.bottom

theorem Around.nonempty (around : a.Around g) : 0 < g.length := by
  obtain ⟨r, member, _⟩ := around.left
  exact List.length_pos_of_mem member

end CRect

namespace Merging

/-- What a pass does. -/
inductive Pass (c : CoilArea) (s : Merging) : Merging → Prop where
  | row (more : (s.i : Int) < s.dwForegroundCount - 1) (last : s.dwForegroundCount ≤ s.j) :
      Pass c s { s with i := s.i + 1, j := s.i + 1 + 1 }
  | apart {a b : CRect} (first : s.array[s.i]? = some a) (second : s.array[s.j]? = some b) (other : c.fit a b = false) :
      Pass c s { s with j := s.j + 1 }
  | merge {a b : CRect} (first : s.array[s.i]? = some a) (second : s.array[s.j]? = some b) (fits : c.fit a b = true) :
      Pass c s { s with
        array := (s.array.set s.i (a.merged b)).eraseIdx s.j
        groups := (s.groups.set s.i (s.groups[s.i]?.getD [] ++ s.groups[s.j]?.getD [])).eraseIdx s.j
        dwForegroundCount := s.dwForegroundCount - 1, j := s.j + 1, fitflag := true
        position := if s.fitflag then s.position else s.i
        position1 := if s.fitflag then s.i else s.position1 }

section
variable {c : CoilArea} {s t u : Merging}

theorem pass_of_step (done : s.step c = .ok (some t)) : Pass c s t := by
  unfold step at done
  split at done
  case isFalse => cases done
  case isTrue more =>
    split at done
    case isFalse last =>
      cases done
      exact .row more (not_lt.mp last)
    case isTrue inside =>
      obtain ⟨t', compared, rest⟩ := bind_ok done
      cases rest
      unfold compare at compared
      obtain ⟨a, first, compared⟩ := bind_ok compared
      obtain ⟨b, second, compared⟩ := bind_ok compared
      replace first := Pairing.boxAt_ok first
      replace second := Pairing.boxAt_ok second
      split at compared
      case isFalse other =>
        cases compared
        exact .apart first second (Bool.not_eq_true _ ▸ other)
      case isTrue fits =>
        have pass := Pass.merge first second fits
        cases flag : s.fitflag with
        | false =>
          simp only [flag, if_true] at compared
          simp only [flag, Bool.false_eq_true, if_false] at pass
          cases compared
          exact pass
        | true =>
          simp only [flag, Bool.true_eq_false, if_false] at compared
          simp only [flag, if_true] at pass
          cases compared
          exact pass

/-- The indices are inside the list. -/
structure Indexed (s : Merging) : Prop where
  count : s.dwForegroundCount = s.array.length
  less : s.i < s.j
  groups : s.groups.length = s.array.length

theorem Indexed.pass (indexed : s.Indexed) (pass : Pass c s t) : t.Indexed := by
  obtain ⟨count, less, groups⟩ := indexed
  cases pass with
  | row => exact ⟨count, Nat.lt_succ_self _, groups⟩
  | apart => exact ⟨count, Nat.lt_succ_of_lt less, groups⟩
  | merge _ second =>
    have inside := (List.getElem?_eq_some_iff.mp second).1
    refine ⟨?_, Nat.lt_succ_of_lt less, ?_⟩
    · simp only [List.length_eraseIdx_of_lt (List.length_set ▸ inside), List.length_set, count]
      omega
    · rw [List.length_eraseIdx_of_lt (by rw [List.length_set]; omega), List.length_eraseIdx_of_lt (by rwa [List.length_set]),
        List.length_set, List.length_set, groups]

/-- A pass does not fail. -/
theorem step_ok (indexed : s.Indexed) : ∃ o, s.step c = .ok o := by
  obtain ⟨count, less, _⟩ := indexed
  unfold step
  split
  case isFalse => exact ⟨_, rfl⟩
  case isTrue =>
    split
    case isFalse => exact ⟨_, rfl⟩
    case isTrue inside =>
      have first : s.array[s.i]? = some s.array[s.i] := List.getElem?_eq_getElem (by omega)
      have second : s.array[s.j]? = some s.array[s.j] := List.getElem?_eq_getElem (by omega)
      rw [bind_pure_iff, compare, Pairing.boxAt_of_some first, ok_bind, Pairing.boxAt_of_some second, ok_bind]
      split
      · split
        · exact ⟨_, rfl⟩
        · exact ⟨_, rfl⟩
      · exact ⟨_, rfl⟩

/-! ## All passes -/

/-- The passes that are left. -/
def rest (n : Nat) (s : Merging) : Nat := (s.array.length - s.i) * (n + 2) + (s.array.length + 1 - s.j)

theorem Pass.length_le (pass : Pass c s t) : t.array.length ≤ s.array.length := by
  cases pass with
  | row => exact Nat.le_refl _
  | apart => exact Nat.le_refl _
  | merge => exact (List.length_eraseIdx_le _ _).trans (Nat.le_of_eq List.length_set)

theorem rest_less {n : Nat} (indexed : s.Indexed) (short : s.array.length ≤ n) (pass : Pass c s t) : t.rest n < s.rest n := by
  obtain ⟨count, less, _⟩ := indexed
  have shorter := pass.length_le
  cases pass with
  | row more last =>
    have parts : s.array.length - s.i = s.array.length - (s.i + 1) + 1 := by omega
    simp only [rest]
    rw [parts, Nat.add_mul]
    omega
  | apart _ second =>
    have inside := (List.getElem?_eq_some_iff.mp second).1
    simp only [rest]
    omega
  | merge _ second =>
    have inside := (List.getElem?_eq_some_iff.mp second).1
    have passes := Nat.mul_le_mul_right (n + 2) (Nat.sub_le_sub_right shorter s.i)
    simp only [rest] at *
    omega

variable {boxes : List CRect}

theorem indexed_of_comesTo (reached : ComesTo (step c) (start boxes) s) : s.Indexed :=
  reached.keeps ⟨rfl, Nat.zero_lt_one, List.length_map _⟩ fun _ _ _ indexed done => indexed.pass (pass_of_step done)

/-- The loops end. -/
theorem loops_ok (c : CoilArea) (boxes : List CRect) :
    ∃ final, iterateM (step c) (Pairing.budget boxes) (start boxes) = .ok (some final) ∧
      ComesTo (step c) (start boxes) final ∧ final.step c = .ok none := by
  have length {s : Merging} (reached : ComesTo (step c) (start boxes) s) : s.array.length ≤ boxes.length :=
    reached.keeps (P := fun s => s.array.length ≤ boxes.length) (Nat.le_refl _)
      fun _ _ _ short done => (pass_of_step done).length_le.trans short
  have enough : (start boxes).rest boxes.length < Pairing.budget boxes := by
    simp only [rest, start, Pairing.budget, Nat.sub_zero]
    rw [Nat.add_mul]
    omega
  exact iterateM_total (rest boxes.length)
    (fun t u reached done => rest_less (indexed_of_comesTo reached) (length reached) (pass_of_step done))
    (fun t reached => step_ok (indexed_of_comesTo reached)) enough

/-! ## The groups -/

/-- A box that was merged from at least two, at a place the loops do not leave. -/
def Big (s : Merging) (p : Nat) : Prop := p ≤ s.i ∧ ∃ g, s.groups[p]? = some g ∧ 2 ≤ g.length

/-- Every box of the list is the one around its group, the groups are the boxes there were, and the remembered positions are
those of merged boxes. -/
structure Grouped (boxes : List CRect) (s : Merging) : Prop where
  once : s.groups.flatten.Perm boxes
  around : ∀ (p : Nat) (g : List CRect) (b : CRect), s.groups[p]? = some g → s.array[p]? = some b → b.Around g
  plain : s.fitflag = false → ∀ g ∈ s.groups, g.length ≤ 1
  position : s.fitflag = true → s.Big s.position
  position1 : s.position1 ≠ 0 → s.Big s.position1

theorem start_grouped (boxes : List CRect) : (start boxes).Grouped boxes where
  once := by
    have flat : (boxes.map ([·])).flatten = boxes := by rw [← List.flatMap_def, List.flatMap_singleton']
    exact .of_eq flat
  around := by
    intro p g b group box
    have single : boxes[p]?.map ([·]) = some g := by rw [← List.getElem?_map, ← group, start]
    have entry : boxes[p]? = some b := box
    rw [entry] at single
    cases single
    exact CRect.around_self b
  plain := by
    intro _ g member
    obtain ⟨b, _, rfl⟩ := List.mem_map.mp member
    exact Nat.le_refl 1
  position := fun flag => by cases flag
  position1 := fun other => absurd rfl other

theorem Big.row {p : Nat} (big : s.Big p) : ({ s with i := s.i + 1, j := s.i + 1 + 1 } : Merging).Big p :=
  ⟨Nat.le_succ_of_le big.1, big.2⟩

/-- The groups behind a merge. -/
theorem merge_big {g h : List CRect} {p : Nat} (less : s.i < s.j) (first : s.groups[s.i]? = some g)
    (some : 0 < g.length) (big : s.Big p ∨ p = s.i) (other : 0 < h.length) :
    p ≤ s.i ∧ ∃ k, ((s.groups.set s.i (g ++ h)).eraseIdx s.j)[p]? = Option.some k ∧ 2 ≤ k.length := by
  have inside := (List.getElem?_eq_some_iff.mp first).1
  have low : p ≤ s.i := by
    rcases big with big | rfl
    · exact big.1
    · exact Nat.le_refl _
  refine ⟨low, ?_⟩
  rw [List.getElem?_eraseIdx_of_lt (by omega)]
  by_cases here : p = s.i
  · subst here
    refine ⟨g ++ h, List.getElem?_set_self inside, ?_⟩
    rw [List.length_append]
    omega
  · rw [List.getElem?_set_ne (Ne.symm here)]
    exact (big.resolve_right here).2

theorem Grouped.pass (grouped : s.Grouped boxes) (indexed : s.Indexed) (pass : Pass c s t) : t.Grouped boxes := by
  obtain ⟨once, around, plain, position, position1⟩ := grouped
  obtain ⟨count, less, groups⟩ := indexed
  cases pass with
  | row =>
    exact ⟨once, around, plain, fun flag => (position flag).row, fun other => (position1 other).row⟩
  | apart => exact ⟨once, around, plain, position, position1⟩
  | @merge a b first second =>
    have inside := (List.getElem?_eq_some_iff.mp second).1
    have group : s.groups[s.i]? = some s.groups[s.i] := List.getElem?_eq_getElem (by omega)
    have group' : s.groups[s.j]? = some s.groups[s.j] := List.getElem?_eq_getElem (by omega)
    have box := around _ _ _ group first
    have box' := around _ _ _ group' second
    simp only [group, group', Option.getD_some]
    refine ⟨?_, ?_, fun flag => (by cases flag), fun _ => ?_, fun other => ?_⟩
    · refine List.Perm.trans ?_ once
      have together := (set_erase_perm (c := s.groups[s.i] ++ s.groups[s.j]) less (by omega : s.j < s.groups.length)).flatten
      refine together.trans ?_
      rw [List.flatten_cons, List.append_assoc]
      exact (erase_two_perm less group group').flatten
    · intro p g r entry box''
      by_cases here : p = s.i
      · subst here
        rw [getElem?_set_erase_self less entry, getElem?_set_erase_self less box'']
        exact box.merged box'
      · rw [getElem?_set_erase_ne less here] at entry box''
        exact around _ g r entry box''
    · refine merge_big less group box.nonempty ?_ box'.nonempty
      cases flag : s.fitflag with
      | false => exact .inr rfl
      | true => exact .inl (position flag)
    · refine merge_big less group box.nonempty ?_ box'.nonempty
      cases flag : s.fitflag with
      | false =>
        simp only [flag, Bool.false_eq_true, if_false] at other
        exact .inl (position1 other)
      | true => exact .inr rfl

theorem grouped_of_comesTo (reached : ComesTo (step c) (start boxes) s) : s.Grouped boxes :=
  reached.keeps (start_grouped boxes) fun _ _ before grouped done =>
    grouped.pass (indexed_of_comesTo before) (pass_of_step done)

/-! ## What is not compared -/

/-- A pass merges two boxes and goes on behind a comparison of the grown box, with one before it or with one up to the second
index. -/
def Skips (s t : Merging) (a b : CRect) : Prop :=
  t.array.length < s.array.length ∧
    ((∃ p, p < s.i ∧ t.array[p]? = some a ∧ t.array[s.i]? = some b) ∨
      ∃ k, s.i < k ∧ k ≤ s.j ∧ t.array[s.i]? = some a ∧ t.array[k]? = some b)

theorem compared_of_comesTo (reached : ComesTo (step c) (start boxes) s) :
    Compared (fun a b => c.fit a b = true ∧ ¬ Skipped (step c) Skips (start boxes) s a b) s.i s.j s.array := by
  refine compared_but_skipped (fun u v S before done pairs compared => ?_) (fun S => compared_start S boxes) reached
  obtain ⟨count, less, _⟩ := indexed_of_comesTo before
  cases pass_of_step done with
  | row _ last => exact compared.row (by omega)
  | apart first second other =>
    refine compared.next fun a b first' second' related => ?_
    cases first.symm.trans first'
    cases second.symm.trans second'
    have fits := (pairs _ _ related).1
    rw [other] at fits
    cases fits
  | @merge a b first second =>
    have inside := (List.getElem?_eq_some_iff.mp second).1
    have shorter : ((u.array.set u.i (a.merged b)).eraseIdx u.j).length < u.array.length := by
      rw [List.length_eraseIdx_of_lt (by rwa [List.length_set]), List.length_set]
      omega
    have grown : ((u.array.set u.i (a.merged b)).eraseIdx u.j)[u.i]? = some (a.merged b) := by
      rw [List.getElem?_eraseIdx_of_lt less, List.getElem?_set_self (by omega)]
    refine compared.merge less (fun p x low entry related => ?_) (fun k x above below entry related => ?_)
    · refine (pairs _ _ related).2 ⟨shorter, .inl ⟨p, low, ?_, grown⟩⟩
      simp only [getElem?_set_erase_ne less (Nat.ne_of_lt low), if_pos (Nat.lt_trans low less), entry]
    · exact (pairs _ _ related).2 ⟨shorter, .inr ⟨k, above, below, grown, entry⟩⟩

/-- No two boxes that pass the test are left exactly if of every two that do and whose comparison was skipped one is merged or
grows later for good. -/
theorem left_apart_iff (reached : ComesTo (step c) (start boxes) s) (done : s.step c = .ok none) :
    s.array.Pairwise (fun a b => c.fit a b = false) ↔
      ∀ u v a b, ComesTo (step c) (start boxes) u → u.step c = .ok (some v) → Skips u v a b → c.fit a b = true →
        ∃ t, ComesTo (step c) v t ∧ ∀ w, ComesTo (step c) t w → ¬ [a, b].Sublist w.array := by
  have last : s.array.length ≤ s.i + 1 := by
    obtain ⟨count, less, _⟩ := indexed_of_comesTo reached
    by_contra long
    have more : (s.i : Int) < s.dwForegroundCount - 1 := by omega
    rw [Merging.step, if_pos more] at done
    split at done
    · obtain ⟨_, _, wrong⟩ := bind_ok done
      cases wrong
    · cases done
  have left : s.array.Pairwise (fun a b => c.fit a b = false) ↔
      ∀ a b, Skipped (step c) Skips (start boxes) s a b → c.fit a b = true → ¬ [a, b].Sublist s.array := by
    simp only [← Bool.not_eq_true]
    exact apart_iff_skipped (compared_of_comesTo reached) last
  rw [left]
  constructor
  · intro broken u v a b before pass skips fits
    have later : ComesTo (step c) v s := (before.next pass).last reached done
    refine ⟨s, later, fun w after => ?_⟩
    -- the loops are at their end
    rcases Relation.ReflTransGen.cases_head after with rfl | ⟨x, next, _⟩
    · exact broken a b ⟨u, v, before, pass, skips, later⟩ fits
    · cases done.symm.trans next
  · intro broken a b ⟨u, v, before, pass, skips, _⟩ fits
    obtain ⟨t, later, gone⟩ := broken u v a b before pass skips fits
    have between : ComesTo (step c) (start boxes) t := (before.next pass).trans later
    exact gone s (between.last reached done)

/-- The box that is marked is a merged one. -/
theorem marked_ok (grouped : s.Grouped boxes) (flag : s.fitflag = true) :
    ∃ p, s.marked = .ok p ∧ s.Big p := by
  have inside {p : Nat} (low : p < s.array.length) : boxAt s.array p = .ok s.array[p] :=
    Pairing.boxAt_of_some (List.getElem?_eq_getElem low)
  unfold marked
  split
  case isTrue both =>
    obtain ⟨other, low1, low⟩ := both
    rw [inside low1, ok_bind, inside low, ok_bind]
    split
    · exact ⟨_, rfl, grouped.position1 other⟩
    · exact ⟨_, rfl, grouped.position flag⟩
  case isFalse => exact ⟨_, rfl, grouped.position flag⟩

end

end Merging

/-- The rows that are marked in the first column. -/
theorem markRows_column {height row : Nat} (low : row < height) (b : CRect) (image : Nat → Nat → UInt8) :
    markRows height b image 0 row = if b.top < (row : Int) ∧ (row : Int) < b.bottom then 255 else 0 := by
  refine foldl_own (fun image : Nat → Nat → UInt8 => image 0 row)
    (fun _ => if b.top < (row : Int) ∧ (row : Int) < b.bottom then 255 else 0) ?_ ?_ List.nodup_range (List.mem_range.mpr low)
  · intro image j other
    simp only [setPoint, Function.update_self, Function.update_of_ne (Ne.symm other)]
  · intro image
    simp only [setPoint, Function.update_self]

/-- What the merging is for: the boxes that are left cover those there were, each is the one around its group and every box is
in one group, no two of them would be merged, and the rows inside a merged one are marked if there is one. -/
structure NightLight.Correct (c : CoilArea) (boxes : List CRect) (out : NightLight) : Prop where
  covered : ∀ a ∈ boxes, ∃ b ∈ out.loops.array, b.Covers a
  once : out.loops.groups.flatten.Perm boxes
  groups : out.loops.groups.length = out.loops.array.length
  around : ∀ (p : Nat) (g : List CRect) (b : CRect), out.loops.groups[p]? = some g → out.loops.array[p]? = some b → b.Around g
  apart : out.loops.array.Pairwise fun a b => c.fit a b = false
  rows : (∃ g ∈ out.loops.groups, 2 ≤ g.length) → ∃ (p : Nat) (g : List CRect) (b : CRect),
    out.loops.groups[p]? = some g ∧ 2 ≤ g.length ∧ out.loops.array[p]? = some b ∧
      ∀ row < c.mIHeight, out.puTempImage 0 row = if b.top < (row : Int) ∧ (row : Int) < b.bottom then 255 else 0

section
variable {c : CoilArea} {boxes : List CRect} {image : Nat → Nat → UInt8} {s : Merging}

open Merging in
/-- The outcome for the last state of the loops. -/
theorem nightLightDetect_of_loops (run : iterateM (step c) (Pairing.budget boxes) (start boxes) = .ok (some s)) :
    ∃ out, nightLightDetect c boxes image = .ok out ∧ out.loops = s ∧ (s.fitflag = true → ∃ p b, s.Big p ∧
      s.array[p]? = some b ∧ out.puTempImage = markRows c.mIHeight b image) := by
  obtain ⟨reached, _⟩ := iterateM_comesTo run
  unfold nightLightDetect
  split
  case isTrue none =>
    subst none
    have same : s = start [] := by
      have only : iterateM (step c) (Pairing.budget []) (start []) = .ok (some (start [])) := rfl
      cases run.symm.trans only
      rfl
    subst same
    exact ⟨_, rfl, rfl, fun flag => by cases flag⟩
  case isFalse =>
    rw [run, ok_bind]
    simp only
    split
    case isTrue flag =>
      obtain ⟨p, marked, big⟩ := marked_ok (grouped_of_comesTo reached) flag
      obtain ⟨g, group, _⟩ := big.2
      have inside : p < s.array.length := by
        rw [← (indexed_of_comesTo reached).groups]
        exact (List.getElem?_eq_some_iff.mp group).1
      have box : s.array[p]? = some s.array[p] := List.getElem?_eq_getElem inside
      rw [marked, ok_bind, Pairing.boxAt_of_some box, ok_bind]
      exact ⟨_, rfl, rfl, fun _ => ⟨p, _, big, box, rfl⟩⟩
    case isFalse flag => exact ⟨_, rfl, rfl, fun flag' => absurd flag' flag⟩

open Merging in
/-- At the end everything is as it is meant but for the boxes that are left. -/
theorem nightLight_correct_iff {out : NightLight} (reached : ComesTo (step c) (start boxes) s) (same : out.loops = s)
    (marked : s.fitflag = true → ∃ p b, s.Big p ∧ s.array[p]? = some b ∧ out.puTempImage = markRows c.mIHeight b image) :
    out.Correct c boxes ↔ s.array.Pairwise fun a b => c.fit a b = false := by
  subst same
  have grouped := grouped_of_comesTo reached
  have groups := (indexed_of_comesTo reached).groups
  constructor
  · exact fun correct => correct.apart
  · intro apart
    refine ⟨fun a member => ?_, grouped.once, groups, grouped.around, apart, ?_⟩
    · obtain ⟨g, group, inside⟩ := List.mem_flatten.mp (grouped.once.mem_iff.mpr member)
      obtain ⟨p, low, rfl⟩ := List.getElem_of_mem group
      have low' : p < out.loops.array.length := groups ▸ low
      exact ⟨_, List.getElem_mem low',
        (grouped.around p _ _ (List.getElem?_eq_getElem low) (List.getElem?_eq_getElem low')).covers a inside⟩
    · rintro ⟨g, member, two⟩
      have flag : out.loops.fitflag = true := by
        by_contra unset
        have one := grouped.plain (Bool.not_eq_true _ ▸ unset) g member
        omega
      obtain ⟨p, b, ⟨_, g', group, big⟩, box, shown⟩ := marked flag
      exact ⟨p, g', b, group, big, box, fun row low => by rw [shown, markRows_column low]⟩

open Merging in
/-- **When the merging is complete.** For every list of boxes the loops end within the list, and what is left is as it is meant
exactly if of every two boxes that pass the test and whose comparison a merge skips, the list holds the two no longer from a
later pass on. -/
theorem merging_correct_iff (c : CoilArea) (boxes : List CRect) (image : Nat → Nat → UInt8) :
    (∃ out, nightLightDetect c boxes image = .ok out ∧ out.Correct c boxes) ↔
      ∀ u v a b, ComesTo (step c) (start boxes) u → u.step c = .ok (some v) → Skips u v a b → c.fit a b = true →
        ∃ t, ComesTo (step c) v t ∧ ∀ w, ComesTo (step c) t w → ¬ [a, b].Sublist w.array := by
  obtain ⟨s, run, reached, last⟩ := loops_ok c boxes
  obtain ⟨out, done, same, marked⟩ := @nightLightDetect_of_loops c boxes image s run
  rw [ok_iff done, nightLight_correct_iff reached same marked]
  exact left_apart_iff reached last

end

/-- Of three equal lights two are left that would be merged. -/
theorem threeLights_left :
    ¬ ∃ out, nightLightDetect ⟨100, 200⟩ [light, light, light] (fun _ _ => 0) = .ok out ∧
      out.Correct ⟨100, 200⟩ [light, light, light] := by
  rintro ⟨out, done, correct⟩
  have run : (nightLightDetect ⟨100, 200⟩ [light, light, light] fun _ _ => 0).map (·.loops) =
      .ok ⟨1, 2, [light, light], 2, true, 0, 0, [[light, light], [light]]⟩ := by decide +kernel
  rw [done] at run
  have loops : out.loops = _ := Except.ok.inj run
  have apart := correct.apart
  rw [loops] at apart
  exact absurd (List.rel_of_pairwise_cons apart List.mem_cons_self) (by decide +kernel)

end VideoDetector.Alg
