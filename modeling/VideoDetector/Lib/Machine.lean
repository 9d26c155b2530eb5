import Mathlib.Data.List.Basic
import Mathlib.Tactic.Common

/-!
# Machines that consume a stream

A machine takes an input, moves to a next state and emits outputs. `feed` runs it over a list of
inputs. `shared` is one machine fed by several sessions, each output going to the session whose
input caused it; `shared_isolated` says when the sessions cannot tell that they share it.
-/

namespace VideoDetector.Lib
set_option autoImplicit false

section
variable {σ α β ι : Type}

/-- Run a machine over inputs: the last state and all outputs. -/
def feed (step : σ → α → σ × List β) (s : σ) : List α → σ × List β
  | [] => (s, [])
  | x :: xs => ((feed step (step s x).1 xs).1, (step s x).2 ++ (feed step (step s x).1 xs).2)

@[simp] theorem feed_nil (step : σ → α → σ × List β) (s : σ) : feed step s [] = (s, []) := rfl

theorem feed_cons (step : σ → α → σ × List β) (s : σ) (x : α) (xs : List α) :
    feed step s (x :: xs) =
      ((feed step (step s x).1 xs).1, (step s x).2 ++ (feed step (step s x).1 xs).2) := rfl

/-- One machine for several sessions. -/
def shared (step : σ → α → σ × List β) (s : σ) (input : ι × α) : σ × List (ι × β) :=
  ((step s input.2).1, (step s input.2).2.map fun out => (input.1, out))

/-- Every input finds the machine idle or comes from the session that fed it last. -/
def Exclusive (step : σ → α → σ × List β) (idle : σ) : Option ι → σ → List (ι × α) → Prop
  | _, _, [] => True
  | owner, s, (k, x) :: run => (s = idle ∨ owner = some k) ∧ Exclusive step idle (some k) (step s x).1 run

theorem Exclusive.initial {step : σ → α → σ × List β} {idle : σ} {before after : List (ι × α)} {owner : Option ι}
    {s : σ} (exclusive : Exclusive step idle owner s (before ++ after)) : Exclusive step idle owner s before := by
  induction before generalizing owner s with
  | nil => trivial
  | cons input before ih => exact ⟨exclusive.1, ih exclusive.2⟩

variable [DecidableEq ι]

/-- What belongs to session `k`. -/
def ofSession {γ : Type} (k : ι) (tagged : List (ι × γ)) : List γ :=
  tagged.filterMap fun t => if t.1 = k then some t.2 else none

theorem ofSession_append {γ : Type} (k : ι) (xs ys : List (ι × γ)) :
    ofSession k (xs ++ ys) = ofSession k xs ++ ofSession k ys := List.filterMap_append

theorem ofSession_same {γ : Type} (k : ι) (outs : List γ) : ofSession k (outs.map fun out => (k, out)) = outs := by
  simp [ofSession, List.filterMap_map]

theorem ofSession_other {γ : Type} {k j : ι} (other : j ≠ k) (outs : List γ) :
    ofSession k (outs.map fun out => (j, out)) = [] := by
  simp [ofSession, List.filterMap_map, other]

theorem ofSession_cons_same {γ : Type} (k : ι) (x : γ) (xs : List (ι × γ)) :
    ofSession k ((k, x) :: xs) = x :: ofSession k xs := by
  simp [ofSession]

theorem ofSession_cons_other {γ : Type} {k j : ι} (other : j ≠ k) (x : γ) (xs : List (ι × γ)) :
    ofSession k ((j, x) :: xs) = ofSession k xs := by
  simp [ofSession, other]

/-- **Isolation.** In an exclusive run each session sees what it would see alone: the machine it
left, if it was the last one to feed it, and an idle machine otherwise. -/
theorem shared_isolated {step : σ → α → σ × List β} {idle : σ} {owner : Option ι} {s : σ} {run : List (ι × α)}
    (exclusive : Exclusive step idle owner s run) (k : ι) :
    ofSession k (feed (shared step) s run).2 =
      (feed step (if owner = some k then s else idle) (ofSession k run)).2 := by
  induction run generalizing owner s with
  | nil => rfl
  | cons input run ih =>
    obtain ⟨j, x⟩ := input
    obtain ⟨free, rest⟩ := exclusive
    have later := ih rest
    rw [feed_cons, ofSession_append]
    by_cases mine : j = k
    · subst mine
      have same : (if owner = some j then s else idle) = s := by
        split
        · rfl
        · next other => exact (free.resolve_right other).symm
      rw [if_pos rfl] at later
      rw [same, ofSession_cons_same, feed_cons]
      exact congrArg₂ (· ++ ·) (ofSession_same j _) later
    · have same : (if owner = some k then s else idle) = idle := by
        split
        · next last => exact free.resolve_right fun own => mine (Option.some.inj (own.symm.trans last))
        · rfl
      rw [if_neg fun own => mine (Option.some.inj own)] at later
      rw [same, ofSession_cons_other mine, ← later]
      exact congrArg₂ (· ++ ·) (ofSession_other mine _) rfl

end

end VideoDetector.Lib
