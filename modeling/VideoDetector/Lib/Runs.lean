import Mathlib.Data.List.Induction
import VideoDetector.Lib.Registers

/-!
# Runs and their invariants

A run of a machine is a list of actions, and the state before an action is the one the actions before
it lead to. `foldl_invariant` is the invariant rule for machines whose steps keep the invariant only
under a condition; `foldl_iff` says that the condition is exact when it is exact for a single step.
`serveAll_simulates` is the simulation rule for a server that answers each request. Runs whose steps may
fail have `foldlM_keeps`, `foldlM_invariant` and `foldlM_ok_iff`.
-/

namespace VideoDetector.Lib
set_option autoImplicit false

/-- **The rule for termination**: what gets less as long as it is not done gets done. -/
theorem eventually_of_lt {weight : Nat → Nat} {Done : Nat → Prop} {n : Nat}
    (less : ∀ m, n ≤ m → ¬ Done m → weight (m + 1) < weight m) : ∃ m, Done m := by
  induction w : weight n using Nat.strongRecOn generalizing n with
  | ind w ih =>
    subst w
    by_cases done : Done n
    · exact ⟨n, done⟩
    · exact ih (weight (n + 1)) (less n (Nat.le_refl n) done) (fun m later => less m (Nat.le_of_succ_le later)) rfl

section
variable {σ ρ : Type} {step : σ → ρ → σ} (Inv : List ρ → σ → Prop)
  (Holds Cond : List ρ → σ → ρ → Prop) {rs : List ρ} {s : σ}

/-- What every action of a run has, with the actions before it, one more action has, too. -/
theorem forall_split_snoc_iff {P : List ρ → ρ → Prop} {r : ρ} :
    (∀ before q after, rs ++ [r] = before ++ q :: after → P before q) ↔
      (∀ before q after, rs = before ++ q :: after → P before q) ∧ P rs r := by
  constructor
  · intro all
    exact ⟨fun before q after split => all before q (after ++ [r]) (by rw [split, List.append_assoc, List.cons_append]), all rs r [] rfl⟩
  · rintro ⟨all, last⟩ before q after split
    rcases List.eq_nil_or_concat after with rfl | ⟨after, q', rfl⟩
    · obtain ⟨rfl, same⟩ := List.append_inj' split rfl
      cases same
      exact last
    · rw [List.concat_eq_append, ← List.cons_append, ← List.append_assoc] at split
      exact all before q after (List.append_inj' split rfl).1

/-- **The invariant rule**: if every action of a run meets the condition in the state before it, the
invariant holds in every state reached. Both may depend on the actions so far. -/
theorem foldl_invariant (keep : ∀ before s r, Inv before s → Cond before s r → Inv (before ++ [r]) (step s r))
    (initial : Inv [] s) (cond : ∀ before r after, rs = before ++ r :: after → Cond before (before.foldl step s) r)
    {before after : List ρ} (split : rs = before ++ after) : Inv before (before.foldl step s) := by
  induction before using List.reverseRecOn generalizing after with
  | nil => exact initial
  | append_singleton before r ih =>
    rw [List.append_assoc] at split
    rw [List.foldl_append]
    exact keep before _ r (ih split) (cond before r after split)

/-- **An exact condition**: what a single step has exactly under the condition, all steps of a run have
exactly when all of them meet it. -/
theorem foldl_iff (keep : ∀ before s r, Inv before s → Cond before s r → Inv (before ++ [r]) (step s r))
    (same : ∀ before s r, Inv before s → (Holds before s r ↔ Cond before s r)) (initial : Inv [] s) :
    (∀ before r after, rs = before ++ r :: after → Holds before (before.foldl step s) r) ↔
      ∀ before r after, rs = before ++ r :: after → Cond before (before.foldl step s) r := by
  constructor
  · intro holds before r after split
    have keep' : ∀ before s r, Inv before s → Holds before s r → Inv (before ++ [r]) (step s r) :=
      fun before s r inv held => keep before s r inv ((same before s r inv).mp held)
    exact (same _ _ _ (foldl_invariant Inv Holds keep' initial holds split)).mp (holds before r after split)
  · intro cond before r after split
    exact (same _ _ _ (foldl_invariant Inv Cond keep initial cond split)).mpr (cond before r after split)

end

section
variable {ρ : Type} (Ends : ρ → Prop) (P : List ρ → ρ → Prop)

/-- Behind the last action that ends a period there is one with a property, which may depend on the actions before it. -/
def Since (before : List ρ) : Prop :=
  ∃ first r later, before = first ++ r :: later ∧ P first r ∧ ∀ q ∈ later, ¬ Ends q

theorem since_nil : ¬ Since Ends P [] := by
  rintro ⟨first, r, later, split, _⟩
  simp at split

theorem since_snoc {before : List ρ} {r : ρ} : Since Ends P (before ++ [r]) ↔ P before r ∨ ¬ Ends r ∧ Since Ends P before := by
  constructor
  · rintro ⟨first, q, later, split, holds, none⟩
    rcases List.eq_nil_or_concat later with rfl | ⟨later, last, rfl⟩
    · obtain ⟨rfl, same⟩ := List.append_inj' split rfl
      cases same
      exact .inl holds
    · rw [List.concat_eq_append, ← List.cons_append, ← List.append_assoc] at split
      obtain ⟨rfl, same⟩ := List.append_inj' split rfl
      cases same
      exact .inr ⟨none r (by simp), first, q, later, rfl, holds, fun x member => none x (by simp [member])⟩
  · rintro (holds | ⟨goesOn, first, q, later, rfl, holds, none⟩)
    · exact ⟨before, r, [], rfl, holds, fun x member => absurd member List.not_mem_nil⟩
    · refine ⟨first, q, later ++ [r], by simp, holds, fun x member => ?_⟩
      rcases List.mem_append.mp member with old | new
      · exact none x old
      · rw [List.mem_singleton.mp new]
        exact goesOn

end

section
variable {σ τ ρ ω υ ε : Type} {step : σ → ρ → Except ε ω} {next : ω → σ} {out : ω → υ} {model : τ → ρ → τ × υ}
  {Occurs : List ρ → ρ → Prop} {Sim : List ρ → σ → τ → Prop}

/-- **The simulation rule**: if each request that may come at its place is served as the abstract
machine serves it, a whole run is. -/
theorem serveAll_simulates
    (each : ∀ before r s t, Occurs before r → Sim before s t →
      ∃ o, step s r = .ok o ∧ out o = (model t r).2 ∧ Sim (before ++ [r]) (next o) (model t r).1)
    (before : List ρ) {rs : List ρ} (occur : ∀ i r, rs[i]? = some r → Occurs (before ++ rs.take i) r) {s : σ} {t : τ}
    (sim : Sim before s t) :
    ∃ u os, serveAll step next s rs = .ok (u, os) ∧ os.length = rs.length ∧
      ∀ i r o, rs[i]? = some r → os[i]? = some o →
        out o = (model ((rs.take i).foldl (fun t r => (model t r).1) t) r).2 ∧
          Sim (before ++ rs.take (i + 1)) (next o) ((rs.take (i + 1)).foldl (fun t r => (model t r).1) t) := by
  induction rs generalizing before s t with
  | nil => exact ⟨s, [], rfl, rfl, fun i r o there => by simp at there⟩
  | cons r rs ih =>
    have first : Occurs before r := by simpa using occur 0 r rfl
    obtain ⟨o, done, same, sim'⟩ := each before r s t first sim
    have later : ∀ i r', rs[i]? = some r' → Occurs (before ++ [r] ++ rs.take i) r' := by
      intro i r' there
      simpa using occur (i + 1) r' there
    obtain ⟨u, os, run, length, all⟩ := ih (before ++ [r]) later sim'
    refine ⟨u, o :: os, serveAll_cons done run, by simp [length], ?_⟩
    intro i r' o' there here
    cases i with
    | zero =>
      cases there
      cases here
      exact ⟨same, by simpa using sim'⟩
    | succ i =>
      obtain ⟨same', sim''⟩ := all i r' o' there here
      exact ⟨same', by simpa using sim''⟩

end

section
variable {σ τ ι : Type} {step : σ → ι → σ} (view : σ → τ) {i : ι} {js : List ι} {s : σ}

/-- Steps at other places are not seen at a place. -/
theorem foldl_elsewhere (other : ∀ s j, j ≠ i → view (step s j) = view s) (absent : i ∉ js) :
    view (js.foldl step s) = view s := by
  induction js generalizing s with
  | nil => rfl
  | cons j js ih =>
    rw [List.mem_cons, not_or] at absent
    rw [List.foldl_cons, ih absent.2]
    exact other s j (Ne.symm absent.1)

/-- Of the steps at different places only its own is seen at a place. -/
theorem foldl_own (f : τ → τ) (other : ∀ s j, j ≠ i → view (step s j) = view s) (own : ∀ s, view (step s i) = f (view s))
    (distinct : js.Nodup) (there : i ∈ js) : view (js.foldl step s) = f (view s) := by
  induction js generalizing s with
  | nil => cases there
  | cons j js ih =>
    rw [List.nodup_cons] at distinct
    rw [List.foldl_cons]
    by_cases here : i = j
    · cases here
      rw [foldl_elsewhere view other distinct.1]
      exact own s
    · rw [ih distinct.2 ((List.mem_cons.mp there).resolve_left here), other s j (Ne.symm here)]

end

section
variable {σ ρ ε : Type} {step : σ → ρ → Except ε σ} {rs : List ρ} {s t : σ}

theorem foldlM_cons_ok {r : ρ} (done : step s r = .ok t) : (r :: rs).foldlM step s = rs.foldlM step t := by
  rw [List.foldlM_cons, done]
  rfl

theorem foldlM_append_ok {before after : List ρ} {u : σ} (done : (before ++ after).foldlM step s = .ok u) :
    ∃ t, before.foldlM step s = .ok t ∧ after.foldlM step t = .ok u := by
  rw [List.foldlM_append] at done
  exact bind_ok done

theorem foldlM_append_of_ok {after : List ρ} (first : rs.foldlM step s = .ok t) :
    (rs ++ after).foldlM step s = after.foldlM step t := by
  rw [List.foldlM_append, first]
  rfl

theorem foldlM_snoc_ok {r : ρ} {u : σ} (first : rs.foldlM step s = .ok t) (done : step t r = .ok u) :
    (rs ++ [r]).foldlM step s = .ok u := by
  rw [foldlM_append_of_ok first, foldlM_cons_ok done]
  rfl

/-- **The invariant rule for runs that may fail**: if every action meets the condition in the state
before it, the invariant holds in every state that a run reaches. -/
theorem foldlM_keeps (Inv : List ρ → σ → Prop) (Cond : List ρ → σ → ρ → Prop)
    (keep : ∀ before r s t, Inv before s → Cond before s r → step s r = .ok t → Inv (before ++ [r]) t) (initial : Inv [] s)
    (cond : ∀ before r after u, rs = before ++ r :: after → before.foldlM step s = .ok u → Cond before u r)
    {before after : List ρ} (split : rs = before ++ after) (reached : before.foldlM step s = .ok t) : Inv before t := by
  induction before using List.reverseRecOn generalizing after t with
  | nil =>
    cases reached
    exact initial
  | append_singleton before r ih =>
    rw [List.append_assoc] at split
    obtain ⟨u, first, last⟩ := foldlM_append_ok reached
    rw [List.foldlM_cons] at last
    obtain ⟨v, done, same⟩ := bind_ok last
    cases same
    exact keep before r u _ (ih split first) (cond before r after u split first) done

/-- What the first state has and every step that succeeds keeps, the last state of a run has. -/
theorem foldlM_invariant (Inv : List ρ → σ → Prop)
    (keep : ∀ before r s t, Inv before s → step s r = .ok t → Inv (before ++ [r]) t) (initial : Inv [] s)
    (run : rs.foldlM step s = .ok t) : Inv rs t :=
  foldlM_keeps Inv (fun _ _ _ => True) (fun before r s t inv _ done => keep before r s t inv done) initial
    (fun _ _ _ _ _ _ => trivial) (List.append_nil rs).symm run

/-- **When a run succeeds**: exactly if each of its steps does, from the state that the steps before it
lead to. -/
theorem foldlM_ok_iff : (∃ t, rs.foldlM step s = .ok t) ↔
    ∀ before r after u, rs = before ++ r :: after → before.foldlM step s = .ok u → ∃ t, step u r = .ok t := by
  constructor
  · rintro ⟨t, run⟩ before r after u rfl reached
    obtain ⟨u', reached', rest⟩ := foldlM_append_ok run
    cases reached.symm.trans reached'
    rw [List.foldlM_cons] at rest
    obtain ⟨v, done, _⟩ := bind_ok rest
    exact ⟨v, done⟩
  · intro each
    induction rs generalizing s with
    | nil => exact ⟨s, rfl⟩
    | cons r rs ih =>
      obtain ⟨u, done⟩ := each [] r rs s rfl rfl
      rw [foldlM_cons_ok done]
      refine ih fun before r' after v split reached => each (r :: before) r' after v (by rw [split]; rfl) ?_
      rw [foldlM_cons_ok done]
      exact reached

/-- If it does not depend on the state which steps succeed, a run succeeds exactly if each of them does. -/
theorem foldlM_each_iff {Good : ρ → Prop} (each : ∀ s r, (∃ t, step s r = .ok t) ↔ Good r) :
    (∃ t, rs.foldlM step s = .ok t) ↔ ∀ r ∈ rs, Good r := by
  induction rs generalizing s with
  | nil => exact iff_of_true ⟨s, rfl⟩ fun r member => absurd member List.not_mem_nil
  | cons r rs ih =>
    rw [List.forall_mem_cons, ← each s r]
    constructor
    · rintro ⟨t, run⟩
      rw [List.foldlM_cons] at run
      obtain ⟨u, done, rest⟩ := bind_ok run
      exact ⟨⟨u, done⟩, ih.mp ⟨t, rest⟩⟩
    · rintro ⟨⟨u, done⟩, rest⟩
      rw [foldlM_cons_ok done]
      exact ih.mpr rest

/-- Steps that do the same in a run make the same run. -/
theorem foldlM_same {step' : σ → ρ → Except ε σ} (same : ∀ s, ∀ r ∈ rs, step s r = step' s r) :
    rs.foldlM step s = rs.foldlM step' s := by
  induction rs generalizing s with
  | nil => rfl
  | cons r rs ih =>
    rw [List.foldlM_cons, List.foldlM_cons, same s r List.mem_cons_self]
    exact bind_congr fun t => ih fun s r' member => same s r' (List.mem_cons_of_mem r member)

/-- **The rule for runs that do not fail**: an invariant with which each action succeeds and which it keeps. -/
theorem foldlM_total (Inv : σ → Prop) (each : ∀ s, ∀ r ∈ rs, Inv s → ∃ t, step s r = .ok t ∧ Inv t) (initial : Inv s) :
    ∃ t, rs.foldlM step s = .ok t ∧ Inv t := by
  induction rs generalizing s with
  | nil => exact ⟨s, rfl, initial⟩
  | cons r rs ih =>
    obtain ⟨t, done, inv⟩ := each s r List.mem_cons_self initial
    rw [foldlM_cons_ok done]
    exact ih (fun s r' member => each s r' (List.mem_cons_of_mem r member)) inv

/-- Each element on its own. -/
theorem mapM_ok {ρ ω ε : Type} {f : ρ → Except ε ω} {P : ρ → ω → Prop} {rs : List ρ} (each : ∀ r ∈ rs, ∃ w, f r = .ok w ∧ P r w) :
    ∃ ws, rs.mapM f = .ok ws ∧ List.Forall₂ P rs ws := by
  induction rs with
  | nil => exact ⟨[], rfl, .nil⟩
  | cons r rs ih =>
    obtain ⟨w, first, holds⟩ := each r List.mem_cons_self
    obtain ⟨ws, rest, all⟩ := ih fun r' member => each r' (List.mem_cons_of_mem r member)
    refine ⟨w :: ws, ?_, .cons holds all⟩
    rw [List.mapM_cons, first]
    change (rs.mapM f >>= fun ws => pure (w :: ws)) = _
    rw [rest]
    rfl

/-- The rule for runs that do not fail, with an invariant about the actions so far. -/
theorem foldlM_prefix_ok (Inv : List ρ → σ → Prop)
    (each : ∀ before r after s, rs = before ++ r :: after → Inv before s → ∃ t, step s r = .ok t ∧ Inv (before ++ [r]) t)
    (initial : Inv [] s) : ∃ t, rs.foldlM step s = .ok t ∧ Inv rs t := by
  induction rs using List.reverseRecOn with
  | nil => exact ⟨s, rfl, initial⟩
  | append_singleton rs r ih =>
    obtain ⟨t, run, inv⟩ := ih fun before q after s split => each before q (after ++ [r]) s (by rw [split]; simp)
    obtain ⟨u, done, inv'⟩ := each rs r [] t rfl inv
    exact ⟨u, foldlM_snoc_ok run done, inv'⟩

/-- Steps that do what others do, but only for some actions, make a run that goes through exactly if it has only these. -/
theorem foldlM_only_iff {step' : σ → ρ → Except ε σ} {T : ρ → Prop}
    (each : ∀ s r t, step s r = .ok t ↔ step' s r = .ok t ∧ T r) :
    rs.foldlM step s = .ok t ↔ rs.foldlM step' s = .ok t ∧ ∀ r ∈ rs, T r := by
  induction rs generalizing s with
  | nil => exact (and_iff_left fun r none => absurd none List.not_mem_nil).symm
  | cons r rs ih =>
    rw [List.foldlM_cons, List.foldlM_cons, List.forall_mem_cons, bind_ok_iff, bind_ok_iff]
    constructor
    · rintro ⟨u, first, rest⟩
      obtain ⟨first', there⟩ := (each s r u).mp first
      obtain ⟨rest', all⟩ := ih.mp rest
      exact ⟨⟨u, first', rest'⟩, there, all⟩
    · rintro ⟨⟨u, first, rest⟩, there, all⟩
      exact ⟨u, (each s r u).mpr ⟨first, there⟩, ih.mpr ⟨rest, all⟩⟩

/-- **An exact condition for runs that may fail**: what a step can lose but not win, and keeps exactly under the
condition, holds at the end of a run that succeeds exactly if all steps meet it. -/
theorem foldlM_exact (Inv Holds : σ → Prop) (Cond : σ → ρ → Prop)
    (keep : ∀ s r t, Inv s → step s r = .ok t → Inv t ∧ (Holds t → Holds s))
    (each : ∀ s r, Inv s → Holds s → ((∃ t, step s r = .ok t ∧ Holds t) ↔ Cond s r)) (initial : Inv s) (first : Holds s) :
    (∃ t, rs.foldlM step s = .ok t ∧ Holds t) ↔
      ∀ before r after u, rs = before ++ r :: after → before.foldlM step s = .ok u → Cond u r := by
  induction rs using List.reverseRecOn with
  | nil => exact iff_of_true ⟨s, rfl, first⟩ fun before r after u split => by simp at split
  | append_singleton rs r ih =>
    have good {u : σ} (run : rs.foldlM step s = .ok u) : Inv u :=
      foldlM_invariant (fun _ => Inv) (fun _ r s t inv done => (keep s r t inv done).1) initial run
    have snoc := @forall_split_snoc_iff ρ rs (fun before q => ∀ u, before.foldlM step s = .ok u → Cond u q) r
    constructor
    · rintro ⟨t, run, holds⟩ before q after v split reached
      obtain ⟨u, run, last⟩ := foldlM_append_ok run
      rw [List.foldlM_cons] at last
      obtain ⟨t', done, same⟩ := bind_ok last
      cases same
      have holds' := (keep u r _ (good run) done).2 holds
      have cond := (each u r (good run) holds').mp ⟨_, done, holds⟩
      refine snoc.mpr ⟨fun before q after split v reached => ih.mp ⟨u, run, holds'⟩ before q after v split reached, ?_⟩ before q after split
        v reached
      intro v reached
      cases run.symm.trans reached
      exact cond
    · intro all
      obtain ⟨earlier, last⟩ := snoc.mp fun before q after split v reached => all before q after v split reached
      obtain ⟨u, run, holds⟩ := ih.mpr fun before q after v split reached => earlier before q after split v reached
      obtain ⟨t, done, holds'⟩ := (each u r (good run) holds).mpr (last u run)
      exact ⟨t, foldlM_snoc_ok run done, holds'⟩

/-- **The rule for counted loops**: an invariant that holds at first and that each pass, in its turn, succeeds
with and keeps holds at the end. -/
theorem foldlM_range_ok {step : σ → Nat → Except ε σ} (Inv : Nat → σ → Prop) {n : Nat}
    (each : ∀ i s, i < n → Inv i s → ∃ t, step s i = .ok t ∧ Inv (i + 1) t) (initial : Inv 0 s) :
    ∃ t, (List.range n).foldlM step s = .ok t ∧ Inv n t := by
  induction n with
  | zero => exact ⟨s, rfl, initial⟩
  | succ n ih =>
    obtain ⟨t, run, inv⟩ := ih fun i s low => each i s (Nat.lt_succ_of_lt low)
    obtain ⟨u, done, inv'⟩ := each n t (Nat.lt_succ_self n) inv
    rw [List.range_succ]
    exact ⟨u, foldlM_snoc_ok run done, inv'⟩

/-- A counted loop fails if a pass that it gets to does. -/
theorem foldlM_range_error {step : σ → Nat → Except ε σ} {i n : Nat} {e : ε} (reached : (List.range i).foldlM step s = .ok t)
    (fault : step t i = .error e) (more : i < n) : (List.range n).foldlM step s = .error e := by
  obtain ⟨k, split⟩ := Nat.exists_eq_add_of_lt more
  have parts : List.range n = List.range i ++ i :: (List.range k).map (i + 1 + ·) := by
    rw [split, show i + k + 1 = i + (k + 1) by omega, List.range_add, List.range_succ_eq_map, List.map_cons, List.map_map]
    refine congrArg (fun l => List.range i ++ i :: l) (List.map_congr_left fun j _ => ?_)
    simp only [Function.comp_apply]
    omega
  rw [parts, foldlM_append_of_ok reached, List.foldlM_cons, fault]
  rfl

/-- Every action of a run meets the condition in the state before it. -/
def Along (step : σ → ρ → Except ε σ) (Cond : σ → ρ → Prop) : σ → List ρ → Prop
  | _, [] => True
  | s, r :: rs =>
    Cond s r ∧
      match step s r with
      | .ok t => Along step Cond t rs
      | .error _ => True

instance (step : σ → ρ → Except ε σ) (Cond : σ → ρ → Prop) [∀ s r, Decidable (Cond s r)] :
    (s : σ) → (rs : List ρ) → Decidable (Along step Cond s rs)
  | _, [] => .isTrue trivial
  | s, r :: rs =>
    have : Decidable (match step s r with
        | .ok t => Along step Cond t rs
        | .error _ => True) :=
      match step s r with
      | .ok t => instDecidableAlong step Cond t rs
      | .error _ => .isTrue trivial
    inferInstanceAs (Decidable (_ ∧ _))

theorem along_split {Cond : σ → ρ → Prop} (all : Along step Cond s rs) {before after : List ρ} {r : ρ} {u : σ}
    (split : rs = before ++ r :: after) (reached : before.foldlM step s = .ok u) : Cond u r := by
  induction before generalizing rs s with
  | nil =>
    cases reached
    subst split
    exact all.1
  | cons r' before ih =>
    subst split
    obtain ⟨_, rest⟩ := all
    cases done : step s r' with
    | error e =>
      rw [List.foldlM_cons, done] at reached
      cases reached
    | ok t =>
      rw [done] at rest
      rw [foldlM_cons_ok done] at reached
      exact ih rest rfl reached

end
end VideoDetector.Lib
