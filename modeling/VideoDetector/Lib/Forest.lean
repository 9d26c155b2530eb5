import Mathlib.Data.Fintype.Card
import Mathlib.Logic.Function.Basic
import VideoDetector.Lib.Loop

/-!
# Forests of parent pointers

Each node has a parent or is a root (`RootOf`). Ranks that grow towards the root (`Rising`) make every climb end within as
many steps as there are nodes. A root may be hung below another root (`RootOf.link`), and a node may be hung directly below
its root (`RootOf.shortcut`), which is all that compressing a path does (`Rising.compress`): neither takes nodes of one tree apart.
-/

namespace VideoDetector.Lib
set_option autoImplicit false

section
variable {α : Type}

/-- The root of the tree of a node. -/
inductive RootOf (parent : α → Option α) : α → α → Prop
  | root {r : α} : parent r = none → RootOf parent r r
  | up {i j r : α} : parent i = some j → RootOf parent j r → RootOf parent i r

/-- Ranks grow from a node to its parent. -/
def Rising (parent : α → Option α) (rank : α → Int) : Prop := ∀ i j, parent i = some j → rank i < rank j

/-- Two nodes of one tree. -/
def SameTree (parent : α → Option α) (i j : α) : Prop := ∃ r, RootOf parent i r ∧ RootOf parent j r

variable {parent : α → Option α} {rank : α → Int} {i j k r s t : α}

theorem RootOf.no_parent (root : RootOf parent i r) : parent r = none := by
  induction root with
  | root none => exact none
  | up _ _ ih => exact ih

theorem RootOf.unique (first : RootOf parent i r) (second : RootOf parent i s) : r = s := by
  induction first with
  | root none =>
    cases second with
    | root => rfl
    | up some => rw [none] at some; cases some
  | up some _ ih =>
    cases second with
    | root none => rw [some] at none; cases none
    | up some' rest =>
      rw [some] at some'
      cases some'
      exact ih rest

/-- The parent has the root of its child. -/
theorem RootOf.of_parent (root : RootOf parent i r) (some : parent i = some j) : RootOf parent j r := by
  cases root with
  | root none => rw [some] at none; cases none
  | up some' rest =>
    rw [some] at some'
    cases some'
    exact rest

theorem SameTree.symm (same : SameTree parent i j) : SameTree parent j i :=
  let ⟨r, first, second⟩ := same
  ⟨r, second, first⟩

theorem SameTree.trans (first : SameTree parent i j) (second : SameTree parent j k) : SameTree parent i k := by
  obtain ⟨r, here, there⟩ := first
  obtain ⟨s, there', beyond⟩ := second
  rw [there'.unique there] at beyond
  exact ⟨r, here, beyond⟩

/-! ## Ranks -/

theorem Rising.lt_root (rising : Rising parent rank) (root : RootOf parent i r) (below : i ≠ r) : rank i < rank r := by
  induction root with
  | root => exact absurd rfl below
  | @up i j r some rest ih =>
    by_cases last : j = r
    · exact last ▸ rising i j some
    · exact (rising i j some).trans (ih last)

section
variable [Fintype α]

/-- The number of nodes that a climb can still come to. -/
def above (rank : α → Int) (i : α) : Nat := (Finset.univ.filter fun x => rank i < rank x).card

theorem above_lt_card (rank : α → Int) (i : α) : above rank i < Fintype.card α := by
  refine Finset.card_lt_univ_of_notMem (x := i) fun member => ?_
  exact lt_irrefl _ (Finset.mem_filter.mp member).2

theorem above_lt (less : rank i < rank j) : above rank j < above rank i := by
  refine Finset.card_lt_card ⟨fun x member => ?_, fun all => ?_⟩
  · exact Finset.mem_filter.mpr ⟨Finset.mem_univ x, less.trans (Finset.mem_filter.mp member).2⟩
  · exact lt_irrefl _ (Finset.mem_filter.mp (all (Finset.mem_filter.mpr ⟨Finset.mem_univ j, less⟩))).2

/-- **Climbing** to the root ends within as many tests as there are nodes. -/
theorem Rising.find (rising : Rising parent rank) (i : α) :
    ∃ r, iterate parent (Fintype.card α) i = some r ∧ RootOf parent i r := by
  obtain ⟨r, run, lower, last⟩ := iterate_total parent (fun k => ∀ r, RootOf parent k r → RootOf parent i r) (above rank)
    (fun k next lower more => ⟨fun r root => lower r (.up more root), above_lt (rising k next more)⟩)
    (Fintype.card α) (fun _ root => root) (above_lt_card rank i)
  exact ⟨r, run, lower r (.root last)⟩

theorem Rising.sameTree_refl (rising : Rising parent rank) (i : α) : SameTree parent i i :=
  let ⟨r, _, root⟩ := rising.find i
  ⟨r, root, root⟩

end

/-! ## Changes -/

variable [DecidableEq α]

/-- A root becomes a child of another root. -/
theorem RootOf.link (apart : r ≠ s) (own : parent r = none) (other : parent s = none) (root : RootOf parent i t) :
    RootOf (Function.update parent r (some s)) i (if t = r then s else t) := by
  have top : RootOf (Function.update parent r (some s)) s s := .root (by rw [Function.update_of_ne apart.symm, other])
  induction root with
  | @root t none =>
    split
    · next same => exact .up (by rw [same, Function.update_self]) top
    · next different => exact .root (by rw [Function.update_of_ne different, none])
  | @up i j t some rest ih =>
    by_cases here : i = r
    · rw [← here, some] at own
      cases own
    · exact .up (by rw [Function.update_of_ne here, some]) ih

/-- A node becomes a child of its root. -/
theorem RootOf.shortcut (below : k ≠ r) (climb : RootOf parent k r) (root : RootOf parent i t) :
    RootOf (Function.update parent k (some r)) i t := by
  have top : RootOf (Function.update parent k (some r)) r r :=
    .root (by rw [Function.update_of_ne below.symm, climb.no_parent])
  induction root with
  | @root t none =>
    have other : t ≠ k := by
      rintro rfl
      exact below ((RootOf.root none).unique climb)
    exact .root (by rw [Function.update_of_ne other, none])
  | @up i j t some rest ih =>
    by_cases here : i = k
    · subst here
      rw [climb.unique (.up some rest)] at top ⊢
      exact .up (Function.update_self ..) top
    · exact .up (by rw [Function.update_of_ne here, some]) ih

/-- The root below which another one is hung may get a greater rank. -/
theorem Rising.link (rising : Rising parent rank) (apart : r ≠ s) (other : parent s = none) {rank' : α → Int}
    (less : rank r < rank' s) (grown : rank s ≤ rank' s) (rest : ∀ i, i ≠ s → rank' i = rank i) :
    Rising (Function.update parent r (some s)) rank' := by
  have growing (i : α) : rank i ≤ rank' i := by
    by_cases here : i = s
    · exact here ▸ grown
    · exact (rest i here).ge
  intro i j pointer
  by_cases here : i = r
  · subst here
    rw [Function.update_self] at pointer
    cases pointer
    rw [rest i apart]
    exact less
  · rw [Function.update_of_ne here] at pointer
    have below : i ≠ s := by
      rintro rfl
      rw [other] at pointer
      cases pointer
    rw [rest i below]
    exact (rising i j pointer).trans_le (growing j)

theorem Rising.shortcut (rising : Rising parent rank) (below : k ≠ r) (climb : RootOf parent k r) :
    Rising (Function.update parent k (some r)) rank := by
  intro i j pointer
  by_cases here : i = k
  · subst here
    rw [Function.update_self] at pointer
    cases pointer
    exact rising.lt_root climb below
  · rw [Function.update_of_ne here] at pointer
    exact rising i j pointer

/-- One step of compressing a path: the node is hung below the root, and its parent is the next. -/
def compressStep (root : α) (s : (α → Option α) × α) : Option ((α → Option α) × α) :=
  (s.1 s.2).map fun parent => (Function.update s.1 s.2 (some root), parent)

/-- While a path is compressed: the trees are those of before. -/
structure Compressing (before : α → Option α) (rank : α → Int) (root : α) (s : (α → Option α) × α) : Prop where
  rising : Rising s.1 rank
  climb : RootOf s.1 s.2 root
  keep : ∀ i t, RootOf before i t → RootOf s.1 i t

theorem Compressing.step {s next : (α → Option α) × α} (state : Compressing parent rank r s)
    (more : compressStep r s = some next) : Compressing parent rank r next ∧ rank s.2 < rank next.2 := by
  obtain ⟨rising, climb, keep⟩ := state
  obtain ⟨j, pointer, rfl⟩ := Option.map_eq_some_iff.mp more
  have below : s.2 ≠ r := by
    intro here
    have none := climb.no_parent
    rw [← here, pointer] at none
    cases none
  refine ⟨⟨rising.shortcut below climb, ?_, ?_⟩, rising s.2 j pointer⟩
  · exact RootOf.shortcut below climb (climb.of_parent pointer)
  · intro i t root
    exact RootOf.shortcut below climb (keep i t root)

/-- **Compressing a path** comes to an end and leaves every node in its tree. -/
theorem Rising.compress [Fintype α] (rising : Rising parent rank) (climb : RootOf parent k r) :
    ∃ s, iterate (compressStep r) (Fintype.card α) (parent, k) = some s ∧ Rising s.1 rank ∧
      ∀ i t, RootOf parent i t → RootOf s.1 i t := by
  have initial : Compressing parent rank r (parent, k) := ⟨rising, climb, fun _ _ root => root⟩
  obtain ⟨s, run, state, _⟩ := iterate_total (compressStep r) (Compressing parent rank r) (fun s => above rank s.2)
    (fun s next state more => ⟨(state.step more).1, above_lt (state.step more).2⟩) (Fintype.card α) initial (above_lt_card rank k)
  exact ⟨s, run, state.rising, state.keep⟩

end
end VideoDetector.Lib
