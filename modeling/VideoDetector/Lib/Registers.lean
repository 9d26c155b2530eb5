import Mathlib.Data.List.Basic
import Mathlib.Tactic.Common

/-!
# Register files

A server takes requests one after the other and may fail. `serveAll` runs it over a list of
requests. A server whose state is seen as registers, each request writing at most one of them, is a
register file: `serveAll_registers` gives, before every request of a run, the last value written to
each register or the value it had at the start.
-/

namespace VideoDetector.Lib
set_option autoImplicit false

section
variable {σ ρ ω ε κ ν : Type}

@[simp] theorem ok_bind (a : σ) (f : σ → Except ε ω) : (Except.ok a >>= f) = f a := rfl

/-- Both parts of a computation that succeeded did. -/
theorem bind_ok {x : Except ε σ} {f : σ → Except ε ω} {o : ω} (done : x >>= f = .ok o) : ∃ a, x = .ok a ∧ f a = .ok o := by
  cases x with
  | error e => cases done
  | ok a => exact ⟨a, rfl, done⟩

theorem bind_ok_iff {x : Except ε σ} {f : σ → Except ε ω} {o : ω} : x >>= f = .ok o ↔ ∃ a, x = .ok a ∧ f a = .ok o := by
  refine ⟨bind_ok, ?_⟩
  rintro ⟨a, rfl, done⟩
  exact done

/-- A computation whose last part cannot fail succeeds exactly if the part before does. -/
theorem bind_pure_iff {x : Except ε σ} {f : σ → ω} : (∃ o, (x >>= fun a => pure (f a)) = .ok o) ↔ ∃ a, x = .ok a := by
  constructor
  · rintro ⟨o, done⟩
    obtain ⟨a, first, _⟩ := bind_ok done
    exact ⟨a, first⟩
  · rintro ⟨a, rfl⟩
    exact ⟨f a, rfl⟩

/-- What holds of some outcome of a step that succeeded holds of its outcome. -/
theorem ok_iff {x : Except ε ω} {o : ω} (done : x = .ok o) {P : ω → Prop} : (∃ o', x = .ok o' ∧ P o') ↔ P o := by
  subst done
  constructor
  · rintro ⟨o', same, holds⟩
    cases same
    exact holds
  · exact fun holds => ⟨o, rfl, holds⟩

/-- A step that failed has no outcome. -/
theorem error_not {x : Except ε ω} {e : ε} (fault : x = .error e) {P : ω → Prop} : ¬ ∃ o, x = .ok o ∧ P o := by
  rintro ⟨o, done, _⟩
  rw [fault] at done
  cases done

/-- Run a server over requests: the last state and the outcome of each request. -/
def serveAll (step : σ → ρ → Except ε ω) (after : ω → σ) : σ → List ρ → Except ε (σ × List ω)
  | s, [] => .ok (s, [])
  | s, r :: rs => do
    let o ← step s r
    let (t, os) ← serveAll step after (after o) rs
    return (t, o :: os)

theorem serveAll_cons {step : σ → ρ → Except ε ω} {after : ω → σ} {s t : σ} {r : ρ} {rs : List ρ} {o : ω}
    {os : List ω} (done : step s r = .ok o) (run : serveAll step after (after o) rs = .ok (t, os)) :
    serveAll step after s (r :: rs) = .ok (t, o :: os) := by
  simp only [serveAll, done, bind, Except.bind, run]
  rfl

/-- **The invariant rule for runs**: if every request that may occur succeeds from every good state
and leaves a good one, a run succeeds, and each of its requests met a good state, the one the
requests before it lead to. What is good may depend on the requests so far. -/
theorem serveAll_total {step : σ → ρ → Except ε ω} {after : ω → σ} {Occurs : ρ → Prop} {Good : List ρ → σ → Prop}
    (each : ∀ before r s, Occurs r → Good before s → ∃ o, step s r = .ok o ∧ Good (before ++ [r]) (after o))
    (before : List ρ) {rs : List ρ} (occur : ∀ r ∈ rs, Occurs r) {s : σ} (good : Good before s) :
    ∃ t os, serveAll step after s rs = .ok (t, os) ∧ os.length = rs.length ∧ Good (before ++ rs) t ∧
      ∀ i r o, rs[i]? = some r → os[i]? = some o → ∃ u os',
        serveAll step after s (rs.take i) = .ok (u, os') ∧ Good (before ++ rs.take i) u ∧ step u r = .ok o := by
  induction rs generalizing before s with
  | nil => exact ⟨s, [], rfl, rfl, by rwa [List.append_nil], fun i r o there => by simp at there⟩
  | cons r rs ih =>
    obtain ⟨o, done, next⟩ := each before r s (occur r List.mem_cons_self) good
    obtain ⟨t, os, run, length, last, met⟩ :=
      ih (before ++ [r]) (fun r' member => occur r' (List.mem_cons_of_mem r member)) next
    refine ⟨t, o :: os, serveAll_cons done run, by simp [length], by simpa using last, ?_⟩
    intro i r' o' there here
    cases i with
    | zero =>
      cases there
      cases here
      exact ⟨s, [], rfl, by simpa using good, done⟩
    | succ i =>
      obtain ⟨u, os', reached, good, step⟩ := met i r' o' there here
      exact ⟨u, o :: os', serveAll_cons done reached, by simpa using good, step⟩

/-- What every step that succeeds keeps, a run that succeeds keeps. -/
theorem serveAll_keeps {step : σ → ρ → Except ε ω} {after : ω → σ} {Occurs : ρ → Prop} {Inv : σ → Prop}
    (keep : ∀ r s o, Occurs r → Inv s → step s r = .ok o → Inv (after o)) {rs : List ρ} (occur : ∀ r ∈ rs, Occurs r)
    {s t : σ} {os : List ω} (inv : Inv s) (run : serveAll step after s rs = .ok (t, os)) : Inv t := by
  induction rs generalizing s os with
  | nil =>
    cases run
    exact inv
  | cons r rs ih =>
    rw [serveAll] at run
    obtain ⟨o, done, later⟩ := bind_ok run
    obtain ⟨last, rest, same⟩ := bind_ok later
    cases same
    have next := keep r s o (occur r List.mem_cons_self) inv done
    exact ih (fun r' member => occur r' (List.mem_cons_of_mem r member)) next rest

variable [DecidableEq κ]

/-- The last value written to a register. -/
def lastWrite (write : ρ → Option (κ × ν)) (k : κ) : List ρ → Option ν
  | [] => none
  | r :: rs =>
    (lastWrite write k rs).or <| (write r).bind fun w => if w.1 = k then some w.2 else none

theorem lastWrite_snoc (write : ρ → Option (κ × ν)) (k : κ) (rs : List ρ) (r : ρ) :
    lastWrite write k (rs ++ [r]) =
      ((write r).bind fun w => if w.1 = k then some w.2 else none).or (lastWrite write k rs) := by
  induction rs with
  | nil => simp [lastWrite]
  | cons r' rs ih => rw [List.cons_append, lastWrite, ih, lastWrite, Option.or_assoc]

/-- **A register file**: if each request writes at most one register and leaves the others, then
before each request of a run every register holds the last value written to it. -/
theorem serveAll_registers {step : σ → ρ → Except ε ω} {after : ω → σ} {Occurs : ρ → Prop} {view : σ → κ → ν}
    {write : ρ → Option (κ × ν)}
    (each : ∀ s r, Occurs r → ∃ o, step s r = .ok o ∧
      ∀ k, view (after o) k = ((write r).bind fun w => if w.1 = k then some w.2 else none).getD (view s k))
    {rs : List ρ} (occur : ∀ r ∈ rs, Occurs r) (s : σ) :
    ∃ t os, serveAll step after s rs = .ok (t, os) ∧ os.length = rs.length ∧
      ∀ i r o, rs[i]? = some r → os[i]? = some o →
        ∃ u os', serveAll step after s (rs.take i) = .ok (u, os') ∧ step u r = .ok o ∧
          ∀ k, view u k = (lastWrite write k (rs.take i)).getD (view s k) := by
  have step_registers : ∀ before r u, Occurs r → (∀ k, view u k = (lastWrite write k before).getD (view s k)) →
      ∃ o, step u r = .ok o ∧ ∀ k, view (after o) k = (lastWrite write k (before ++ [r])).getD (view s k) := by
    intro before r u occurs held
    obtain ⟨o, done, written⟩ := each u r occurs
    refine ⟨o, done, fun k => ?_⟩
    rw [written k, held k, lastWrite_snoc]
    cases (write r).bind fun w => if w.1 = k then some w.2 else none with
    | none => rfl
    | some v => rfl
  obtain ⟨t, os, run, length, _, met⟩ := serveAll_total step_registers [] occur fun k => rfl
  refine ⟨t, os, run, length, fun i r o there here => ?_⟩
  obtain ⟨u, os', reached, held, done⟩ := met i r o there here
  exact ⟨u, os', reached, done, held⟩

end

end VideoDetector.Lib
