import Mathlib.Logic.Relation
import VideoDetector.Lib.Memory
import VideoDetector.Lib.Loop
import VideoDetector.Lib.Registers

/-!
# Buffers with an end

A buffer at address 0 has room for `room` bytes, and a write behind it is a fault. Each operation of the byte memory has
a form with this check; as long as it stays inside, it does the same as the one without. `iterateM_ok` carries that
through a loop, and `iterateM_total` is the rule for a loop whose steps may fail. `pushesIn_eq` is about a list of entries
with room for so many.
-/

namespace VideoDetector.Lib
set_option autoImplicit false

section
variable {ε : Type} (fault : Nat → ε) (room : Nat)

/-- Write a byte. -/
def putByte (m : Mem) (a : Nat) (b : UInt8) : Except ε Mem := if a < room then .ok (setByte m a b) else .error (fault a)

/-- Write bytes, the first one first. -/
def putBytes (m : Mem) (a : Nat) : List UInt8 → Except ε Mem
  | [] => .ok m
  | b :: bs => do
    let m ← putByte fault room m a b
    putBytes m (a + 1) bs

/-- `for(j=lo+n;j>lo;j--) buff[j]=buff[j-1];` -/
def shiftUpIn (m : Mem) (lo : Nat) : Nat → Except ε Mem
  | 0 => .ok m
  | n + 1 => do
    let m ← putByte fault room m (lo + n + 1) (m (lo + n))
    shiftUpIn m lo n

variable {room}

theorem putByte_ok {m : Mem} {a : Nat} {b : UInt8} (inside : a < room) : putByte fault room m a b = .ok (setByte m a b) :=
  if_pos inside

theorem storeBytes_cons (m : Mem) (a : Nat) (b : UInt8) (bs : List UInt8) :
    storeBytes (setByte m a b) (a + 1) bs = storeBytes m a (b :: bs) := by
  funext k
  unfold storeBytes
  by_cases first : k = a
  · subst first
    rw [if_neg (by omega), setByte_same, if_pos (by simp), Nat.sub_self]
    rfl
  · rw [setByte_other first, List.length_cons]
    by_cases inside : a + 1 ≤ k ∧ k < a + 1 + bs.length
    · rw [if_pos inside, if_pos (by omega), show k - a = (k - (a + 1)) + 1 by omega, List.getD_cons_succ]
    · rw [if_neg inside, if_neg (by omega)]

theorem storeBytes_nil (m : Mem) (a : Nat) : storeBytes m a [] = m := by
  funext k
  exact if_neg (by simp)

theorem putBytes_ok {m : Mem} {a : Nat} {bs : List UInt8} (inside : a + bs.length ≤ room) :
    putBytes fault room m a bs = .ok (storeBytes m a bs) := by
  induction bs generalizing m a with
  | nil => rw [putBytes, storeBytes_nil]
  | cons b bs ih =>
    rw [List.length_cons] at inside
    rw [putBytes, putByte_ok fault (by omega), ok_bind, ih (by omega), storeBytes_cons]

/-- Bytes are written exactly if they end inside. -/
theorem putBytes_ok_iff {m : Mem} {a : Nat} {bs : List UInt8} (start : a ≤ room) :
    (∃ m', putBytes fault room m a bs = .ok m') ↔ a + bs.length ≤ room := by
  constructor
  · rintro ⟨m', done⟩
    induction bs generalizing m a with
    | nil => exact start
    | cons b bs ih =>
      rw [putBytes] at done
      obtain ⟨m₁, first, rest⟩ := bind_ok done
      unfold putByte at first
      split at first
      next inside =>
        have short := ih inside rest
        rw [List.length_cons]
        omega
      next => cases first
  · intro inside
    exact ⟨_, putBytes_ok fault inside⟩

theorem shiftUpIn_ok {m : Mem} {lo n : Nat} (inside : lo + n < room) :
    shiftUpIn fault room m lo n = .ok (shiftUp m lo n) := by
  induction n generalizing m with
  | zero => rfl
  | succ n ih =>
    rw [shiftUpIn, putByte_ok fault (by omega), ok_bind]
    exact ih (by omega)

end

/-! ## Loops -/

section
variable {σ ε : Type}

/-- `iterate` for a loop whose steps may fail. -/
def iterateM (step : σ → Except ε (Option σ)) : Nat → σ → Except ε (Option σ)
  | 0, _ => .ok none
  | budget + 1, s => do
    match ← step s with
    | none => return some s
    | some next => iterateM step budget next

/-- A loop whose steps do not fail where the invariant holds. -/
theorem iterateM_ok {checked : σ → Except ε (Option σ)} {step : σ → Option σ} (Inv : σ → Prop)
    (same : ∀ s, Inv s → checked s = .ok (step s)) (keep : ∀ s next, Inv s → step s = some next → Inv next)
    (budget : Nat) {s : σ} (inv : Inv s) : iterateM checked budget s = .ok (iterate step budget s) := by
  induction budget generalizing s with
  | zero => rfl
  | succ budget ih =>
    rw [iterateM, same s inv, ok_bind, iterate]
    cases more : step s with
    | none => rfl
    | some next => exact ih (keep s next inv more)

/-- The states that the loop comes to from a state. -/
def ComesTo (step : σ → Except ε (Option σ)) : σ → σ → Prop := Relation.ReflTransGen fun s t => step s = .ok (some t)

section
variable {step : σ → Except ε (Option σ)} {s t u : σ}

theorem ComesTo.next (reached : ComesTo step s t) (done : step t = .ok (some u)) : ComesTo step s u :=
  Relation.ReflTransGen.tail reached done

/-- A loop comes from each of its states to its end. -/
theorem ComesTo.last (reached : ComesTo step s t) (ends : ComesTo step s u) (done : step u = .ok none) : ComesTo step t u := by
  induction reached with
  | refl => exact ends
  | tail _ next ih =>
    rcases Relation.ReflTransGen.cases_head ih with rfl | ⟨v, first, rest⟩
    · cases next.symm.trans done
    · cases next.symm.trans first
      exact rest

/-- An invariant of the steps holds in every state that the loop comes to. -/
theorem ComesTo.keeps {P : σ → Prop} (reached : ComesTo step s t) (initial : P s)
    (keep : ∀ u v, ComesTo step s u → P u → step u = .ok (some v) → P v) : P t := by
  induction reached with
  | refl => exact initial
  | tail before next ih => exact keep _ _ before ih next

/-- **The loop rule for steps that may fail**: a loop whose steps decrease a measure and do not fail in the states it comes to
ends in one of them. -/
theorem iterateM_total (μ : σ → Nat) (less : ∀ t u, ComesTo step s t → step t = .ok (some u) → μ u < μ t)
    (safe : ∀ t, ComesTo step s t → ∃ o, step t = .ok o) {budget : Nat} (enough : μ s < budget) :
    ∃ final, iterateM step budget s = .ok (some final) ∧ ComesTo step s final ∧ step final = .ok none := by
  induction budget generalizing s with
  | zero => omega
  | succ budget ih =>
    obtain ⟨o, done⟩ := safe s .refl
    cases o with
    | none => exact ⟨s, by rw [iterateM, done]; rfl, .refl, done⟩
    | some next =>
      have first (t : σ) (reached : ComesTo step next t) : ComesTo step s t := .head done reached
      have smaller := less s next .refl done
      obtain ⟨final, run, reached, last⟩ := ih (fun t u reached => less t u (first t reached))
        (fun t reached => safe t (first t reached)) (by omega)
      exact ⟨final, by rw [iterateM, done]; exact run, first final reached, last⟩

/-- A loop that ends has come to its end without a fault. -/
theorem iterateM_comesTo {budget : Nat} {final : σ} (run : iterateM step budget s = .ok (some final)) :
    ComesTo step s final ∧ step final = .ok none := by
  induction budget generalizing s with
  | zero => cases run
  | succ budget ih =>
    rw [iterateM] at run
    obtain ⟨o, done, rest⟩ := bind_ok run
    cases o with
    | none =>
      cases rest
      exact ⟨.refl, done⟩
    | some next =>
      obtain ⟨reached, last⟩ := ih rest
      exact ⟨.head done reached, last⟩

theorem iterateM_safe {budget : Nat} {final : σ} (run : iterateM step budget s = .ok (some final)) (reached : ComesTo step s t) :
    ∃ o, step t = .ok o := by
  obtain ⟨ends, last⟩ := iterateM_comesTo run
  rcases Relation.ReflTransGen.cases_head (reached.last ends last) with rfl | ⟨v, first, _⟩
  · exact ⟨none, last⟩
  · exact ⟨some v, first⟩

end

end

section
variable {α ε : Type} {fault : ε} {room : Nat}

/-- Write an entry behind the others. -/
def pushIn (fault : ε) (room : Nat) (xs : List α) (x : α) : Except ε (List α) :=
  if xs.length < room then .ok (xs ++ [x]) else .error fault

/-- Entries are written exactly if there is room for all. -/
theorem pushesIn_eq {xs : List α} (fits : xs.length ≤ room) (ys : List α) :
    ys.foldlM (pushIn fault room) xs = if xs.length + ys.length ≤ room then .ok (xs ++ ys) else .error fault := by
  induction ys generalizing xs with
  | nil =>
    rw [List.length_nil, Nat.add_zero, if_pos fits, List.append_nil]
    rfl
  | cons y ys ih =>
    rw [List.foldlM_cons, pushIn, List.length_cons]
    by_cases more : xs.length < room
    · have fits' : (xs ++ [y]).length ≤ room := by
        rw [List.length_append, List.length_singleton]
        exact more
      rw [if_pos more, ok_bind, ih fits', List.length_append, List.length_singleton, List.append_assoc,
        List.singleton_append, Nat.add_assoc, Nat.add_comm 1]
    · rw [if_neg more, if_neg (by omega)]
      rfl

end

end VideoDetector.Lib
