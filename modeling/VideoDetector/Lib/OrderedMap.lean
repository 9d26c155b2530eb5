import Mathlib.Order.Defs.Unbundled
import Mathlib.Tactic.Common

/-!
# Maps as ordered lists

A map is the list of its entries in the order of the keys. `mapSet` replaces the value of a key or inserts the entry in its place.
-/

namespace VideoDetector.Lib
set_option autoImplicit false

section
variable {κ ν : Type} [LT κ] [DecidableLT κ] [DecidableEq κ]

/-- Set the value of a key. -/
def mapSet (k : κ) (v : ν) : List (κ × ν) → List (κ × ν)
  | [] => [(k, v)]
  | e :: es => if e.1 < k then e :: mapSet k v es else if e.1 = k then (k, v) :: es else (k, v) :: e :: es

theorem mem_mapSet {k : κ} {v : ν} {es : List (κ × ν)} {e : κ × ν} (member : e ∈ mapSet k v es) : e = (k, v) ∨ e ∈ es := by
  induction es with
  | nil => exact .inl (List.mem_singleton.mp member)
  | cons first es ih =>
    rw [mapSet] at member
    split at member
    · rcases List.mem_cons.mp member with rfl | later
      · exact .inr List.mem_cons_self
      · exact (ih later).imp_right (List.mem_cons_of_mem _)
    · split at member
      · exact (List.mem_cons.mp member).imp_right (List.mem_cons_of_mem _)
      · exact List.mem_cons.mp member

/-- A key behind all others is appended. -/
theorem mapSet_behind {k : κ} {v : ν} {es : List (κ × ν)} (behind : ∀ e ∈ es, e.1 < k) : mapSet k v es = es ++ [(k, v)] := by
  induction es with
  | nil => rfl
  | cons first es ih =>
    obtain ⟨here, later⟩ := List.forall_mem_cons.mp behind
    rw [mapSet, if_pos here, ih later, List.cons_append]

/-- The keys remain in order. -/
theorem mapSet_sorted [IsTrans κ (· < ·)] [Std.Trichotomous (· < · : κ → κ → Prop)] {k : κ} {v : ν} {es : List (κ × ν)}
    (sorted : es.Pairwise (·.1 < ·.1)) : (mapSet k v es).Pairwise (·.1 < ·.1) := by
  induction es with
  | nil => exact List.pairwise_singleton _ _
  | cons first es ih =>
    obtain ⟨least, others⟩ := List.pairwise_cons.mp sorted
    rw [mapSet]
    split
    · next before =>
      apply List.pairwise_cons.mpr ⟨_, ih others⟩
      intro e member
      rcases mem_mapSet member with rfl | old
      · exact before
      · exact least e old
    · next notBefore =>
      split
      · next same =>
        apply List.pairwise_cons.mpr ⟨_, others⟩
        intro e member
        exact same ▸ least e member
      · next other =>
        have behind : k < first.1 := by
          by_contra notBehind
          exact other (Std.Trichotomous.trichotomous _ _ notBefore notBehind)
        apply List.pairwise_cons.mpr ⟨_, sorted⟩
        intro e member
        rcases List.mem_cons.mp member with rfl | later
        · exact behind
        · exact Trans.trans behind (least e later)

end

end VideoDetector.Lib
