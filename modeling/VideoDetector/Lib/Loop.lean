import Mathlib.Tactic.Common

/-!
# Loops with an iteration budget

A C loop is a step function that returns the next loop state, or `none` when the loop condition
fails. `iterate` runs it within a budget; it answers `none` only when the budget runs out, so a
result is always the result of the loop itself. `iterate_total` is the invariant rule for total
correctness: an invariant and a measure bound the budget a loop needs; in `iterate_ranked` the measure comes with the
invariant. `countDown` is a loop over
the numbers below a bound from the last one, with passes that may fail; `repeatWhile` is any loop with such passes.
-/

namespace VideoDetector.Lib
set_option autoImplicit false

/-- Run a loop for at most `budget` tests of its condition. -/
def iterate {σ : Type} (step : σ → Option σ) : Nat → σ → Option σ
  | 0, _ => none
  | budget + 1, s =>
    match step s with
    | none => some s
    | some next => iterate step budget next

section
variable {σ : Type} {step : σ → Option σ}

theorem iterate_exit {s : σ} {budget : Nat} (done : step s = none) : iterate step (budget + 1) s = some s := by
  simp [iterate, done]

theorem iterate_next {s next : σ} {budget : Nat} (more : step s = some next) :
    iterate step (budget + 1) s = iterate step budget next := by
  simp [iterate, more]

/-- **The loop rule**: an invariant kept by every iteration and a measure that every iteration
decreases give a result within any larger budget. -/
theorem iterate_total (step : σ → Option σ) (Inv : σ → Prop) (μ : σ → Nat)
    (keep : ∀ s next, Inv s → step s = some next → Inv next ∧ μ next < μ s) :
    ∀ (budget : Nat) {s : σ}, Inv s → μ s < budget →
      ∃ final, iterate step budget s = some final ∧ Inv final ∧ step final = none := by
  intro budget
  induction budget with
  | zero => intro s _ bound; omega
  | succ budget ih =>
    intro s inv bound
    cases more : step s with
    | none => exact ⟨s, iterate_exit more, inv, more⟩
    | some next =>
      obtain ⟨kept, less⟩ := keep s next inv more
      obtain ⟨final, run, inv', done⟩ := ih kept (by omega)
      exact ⟨final, by rw [iterate_next more, run], inv', done⟩

/-- What every iteration keeps holds of the result. -/
theorem iterate_keeps (Inv : σ → Prop) (keep : ∀ s next, Inv s → step s = some next → Inv next) {budget : Nat} {s final : σ}
    (inv : Inv s) (run : iterate step budget s = some final) : Inv final := by
  induction budget generalizing s with
  | zero => cases run
  | succ budget ih =>
    cases more : step s with
    | none =>
      rw [iterate_exit more] at run
      cases run
      exact inv
    | some next =>
      rw [iterate_next more] at run
      exact ih (keep s next inv more) run

/-- The loop rule for an invariant that holds with a rank, which need not be a function of the state. -/
theorem iterate_ranked (Inv : Nat → σ → Prop)
    (keep : ∀ rank s next, Inv rank s → step s = some next → ∃ rank', rank' < rank ∧ Inv rank' next)
    {budget rank : Nat} {s : σ} (inv : Inv rank s) (bound : rank < budget) :
    ∃ final rank', iterate step budget s = some final ∧ Inv rank' final ∧ step final = none := by
  induction budget generalizing rank s with
  | zero => exact absurd bound (Nat.not_lt_zero rank)
  | succ budget ih =>
    cases more : step s with
    | none => exact ⟨s, rank, iterate_exit more, inv, more⟩
    | some next =>
      obtain ⟨rank', less, inv'⟩ := keep rank s next inv more
      rw [iterate_next more]
      exact ih inv' (by omega)

end

/-- `for (i = n - 1; i >= 0; i--)`. -/
def countDown {σ ε : Type} (body : σ → Nat → Except ε σ) : Nat → σ → Except ε σ
  | 0, s => .ok s
  | n + 1, s => do countDown body n (← body s n)

section
variable {σ ε : Type} {body : σ → Nat → Except ε σ} {n : Nat} {s : σ}

/-- **The rule for counting down**: what every pass establishes for its number holds for all of them. -/
theorem countDown_ok (Inv : Nat → σ → Prop)
    (each : ∀ i s, i < n → Inv (i + 1) s → ∃ t, body s i = .ok t ∧ Inv i t) (initial : Inv n s) :
    ∃ t, countDown body n s = .ok t ∧ Inv 0 t := by
  induction n generalizing s with
  | zero => exact ⟨s, rfl, initial⟩
  | succ n ih =>
    obtain ⟨t, done, inv⟩ := each n s (Nat.lt_succ_self n) initial
    obtain ⟨u, run, last⟩ := ih (fun i s low => each i s (Nat.lt_succ_of_lt low)) inv
    refine ⟨u, ?_, last⟩
    rw [countDown, done]
    exact run

/-- A pass that fails in every state ends the loop. -/
theorem countDown_error {i : Nat} (fails : ∀ s, ∃ e, body s i = .error e) (low : i < n) :
    ∃ e, countDown body n s = .error e := by
  induction n generalizing s with
  | zero => omega
  | succ n ih =>
    cases done : body s n with
    | error e => exact ⟨e, by rw [countDown, done]; rfl⟩
    | ok t =>
      have other : i ≠ n := by
        rintro rfl
        obtain ⟨e, fault⟩ := fails s
        rw [fault] at done
        cases done
      obtain ⟨e, fault⟩ := @ih t (by omega)
      exact ⟨e, by rw [countDown, done]; exact fault⟩

end

/-- A loop whose passes may fail, within a budget. -/
def repeatWhile {σ ε : Type} (more : σ → Prop) [DecidablePred more] (body : σ → Except ε σ) (late : ε) : Nat → σ → Except ε σ
  | 0, s => if more s then .error late else .ok s
  | budget + 1, s => if more s then do repeatWhile more body late budget (← body s) else .ok s

/-- **The rule for passes that may fail**: in the invariant a pass succeeds, keeps it and decreases a measure. -/
theorem repeatWhile_total {σ ε : Type} {more : σ → Prop} [DecidablePred more] {body : σ → Except ε σ} {late : ε} (Inv : σ → Prop)
    (μ : σ → Nat) (each : ∀ s, Inv s → more s → ∃ t, body s = .ok t ∧ Inv t ∧ μ t < μ s) {budget : Nat} {s : σ}
    (inv : Inv s) (enough : μ s ≤ budget) : ∃ t, repeatWhile more body late budget s = .ok t ∧ Inv t := by
  induction budget generalizing s with
  | zero =>
    have done : ¬ more s := fun again => by
      obtain ⟨_, _, _, less⟩ := each s inv again
      omega
    exact ⟨s, if_neg done, inv⟩
  | succ budget ih =>
    by_cases again : more s
    · obtain ⟨t, pass, inv', less⟩ := each s inv again
      obtain ⟨u, run, last⟩ := ih inv' (by omega)
      refine ⟨u, ?_, last⟩
      rw [repeatWhile, if_pos again, pass]
      exact run
    · exact ⟨s, if_neg again, inv⟩

end VideoDetector.Lib
