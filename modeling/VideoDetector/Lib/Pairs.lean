import Mathlib.Data.List.Perm.Basic
import Mathlib.Tactic.Common
import VideoDetector.Lib.Bounded

/-!
# Comparing all pairs of a list that changes

Two loops compare an entry of a list with all behind it. `Compared` says which comparisons are behind the two indices. A
body that removes the two entries, or that changes the first one and removes the second, leaves other entries under the
indices: `Compared.erase` and `Compared.merge` say which comparisons are missing then, and `compared_but_skipped` carries
through the loops that no others are.
-/

namespace VideoDetector.Lib
set_option autoImplicit false

section
variable {α : Type} {R : α → α → Prop} {l : List α} {i j : Nat}

/-- Before the indices no two entries are related. -/
def Compared (R : α → α → Prop) (i j : Nat) (l : List α) : Prop :=
  ∀ p q a b, p < q → (p < i ∨ p = i ∧ q < j) → l[p]? = some a → l[q]? = some b → ¬ R a b

theorem compared_start (R : α → α → Prop) (l : List α) : Compared R 0 1 l := by
  intro p q a b less before
  omega

/-- The two entries at the indices are not related. -/
theorem Compared.next (compared : Compared R i j l) (apart : ∀ a b, l[i]? = some a → l[j]? = some b → ¬ R a b) :
    Compared R i (j + 1) l := by
  intro p q a b less before first second
  by_cases new : p = i ∧ q = j
  · obtain ⟨rfl, rfl⟩ := new
    exact apart a b first second
  · exact compared p q a b less (by omega) first second

/-- The second index is at the end. -/
theorem Compared.row (compared : Compared R i j l) (last : l.length ≤ j) : Compared R (i + 1) (i + 2) l := by
  intro p q a b less before first second
  have inside : q < l.length := (List.getElem?_eq_some_iff.mp second).1
  exact compared p q a b less (by omega) first second

/-- Both indices are at the end. -/
theorem Compared.pairwise (compared : Compared R i j l) (last : l.length ≤ i + 1) : l.Pairwise fun a b => ¬ R a b := by
  rw [List.pairwise_iff_getElem]
  intro p q first second less
  exact compared p q _ _ less (by omega) (List.getElem?_eq_getElem first) (List.getElem?_eq_getElem second)

/-- Related less, the same is compared. -/
theorem Compared.mono {S : α → α → Prop} (compared : Compared R i j l) (fewer : ∀ a b, S a b → R a b) : Compared S i j l :=
  fun p q a b less before first second related => compared p q a b less before first second (fewer a b related)

/-- An entry behind an index is behind it in the list without two of them too. -/
theorem getElem?_erase_two {l : List α} {i j q : Nat} {b : α} (less : i < j) (entry : ((l.eraseIdx j).eraseIdx i)[q]? = some b) :
    ∃ q', q ≤ q' ∧ (q < i → q' = q) ∧ l[q']? = some b := by
  rw [List.getElem?_eraseIdx] at entry
  split at entry
  case isTrue low =>
    rw [List.getElem?_eraseIdx_of_lt (by omega)] at entry
    exact ⟨q, Nat.le_refl q, fun _ => rfl, entry⟩
  case isFalse high =>
    rw [List.getElem?_eraseIdx] at entry
    split at entry
    · exact ⟨q + 1, by omega, fun low => absurd low high, entry⟩
    · exact ⟨q + 1 + 1, by omega, fun low => absurd low high, entry⟩

/-- **Without the two entries** those that come to the places up to the second index are not compared with the one that comes to
the first. -/
theorem Compared.erase (compared : Compared R i j l) (less : i < j)
    (apart : ∀ k a b, i < k → k ≤ j → ((l.eraseIdx j).eraseIdx i)[i]? = some a → ((l.eraseIdx j).eraseIdx i)[k]? = some b →
      ¬ R a b) : Compared R i (j + 1) ((l.eraseIdx j).eraseIdx i) := by
  intro p q a b lower before first second
  rcases before with low | ⟨rfl, near⟩
  · obtain ⟨p', _, same, first'⟩ := getElem?_erase_two less first
    obtain ⟨q', above, _, second'⟩ := getElem?_erase_two less second
    cases same low
    exact compared p q' a b (by omega) (.inl low) first' second'
  · exact apart q a b lower (by omega) first second

/-- With an entry changed and a later one removed the others are where they were, or one place further on. -/
theorem getElem?_set_erase_ne {c : α} {q : Nat} (less : i < j) (other : q ≠ i) :
    ((l.set i c).eraseIdx j)[q]? = l[if q < j then q else q + 1]? := by
  rw [List.getElem?_eraseIdx]
  split
  · rw [List.getElem?_set_ne (Ne.symm other)]
  · rw [List.getElem?_set_ne (by omega)]

theorem getElem?_set_erase_self {b c : α} (less : i < j) (entry : ((l.set i c).eraseIdx j)[i]? = some b) : b = c := by
  rw [List.getElem?_eraseIdx_of_lt less] at entry
  obtain ⟨inside, same⟩ := List.getElem?_eq_some_iff.mp entry
  rw [List.getElem_set_self] at same
  exact same.symm

/-- **With the first entry changed and the second removed** the changed one is compared neither with those before it nor with
those that come to the places up to the second index. -/
theorem Compared.merge {c : α} (compared : Compared R i j l) (less : i < j)
    (earlier : ∀ p a, p < i → l[p]? = some a → ¬ R a c)
    (apart : ∀ k b, i < k → k ≤ j → ((l.set i c).eraseIdx j)[k]? = some b → ¬ R c b) :
    Compared R i (j + 1) ((l.set i c).eraseIdx j) := by
  intro p q a b lower before first second
  rcases before with low | ⟨rfl, near⟩
  · rw [getElem?_set_erase_ne less (Nat.ne_of_lt low), if_pos (by omega)] at first
    by_cases here : q = i
    · subst here
      rw [getElem?_set_erase_self less second]
      exact earlier p a low first
    · rw [getElem?_set_erase_ne less here] at second
      refine compared p _ a b ?_ (.inl low) first second
      split
      · exact lower
      · omega
  · rw [getElem?_set_erase_self less first]
    exact apart q b lower (by omega) second

theorem length_erase_two (less : i < j) (inside : j < l.length) : ((l.eraseIdx j).eraseIdx i).length + 2 = l.length := by
  have first : (l.eraseIdx j).length = l.length - 1 := List.length_eraseIdx_of_lt inside
  rw [List.length_eraseIdx_of_lt (by omega), first]
  omega

/-- Two entries are taken out of a list. -/
theorem erase_two_perm {a b : α} (less : i < j) (first : l[i]? = some a) (second : l[j]? = some b) :
    (a :: b :: (l.eraseIdx j).eraseIdx i).Perm l := by
  obtain ⟨inside, rfl⟩ := List.getElem?_eq_some_iff.mp second
  have kept : (l.eraseIdx j)[i]? = some a := by rw [List.getElem?_eraseIdx_of_lt less, first]
  obtain ⟨inside', rfl⟩ := List.getElem?_eq_some_iff.mp kept
  refine (List.Perm.swap _ _ _).trans ?_
  refine (List.Perm.cons _ (List.getElem_cons_eraseIdx_perm inside')).trans ?_
  exact List.getElem_cons_eraseIdx_perm inside

/-- One of them is changed and the other one taken out. -/
theorem set_erase_perm {c : α} (less : i < j) (inside : j < l.length) :
    ((l.set i c).eraseIdx j).Perm (c :: (l.eraseIdx j).eraseIdx i) := by
  have long : i < ((l.set i c).eraseIdx j).length := by
    rw [List.length_eraseIdx_of_lt (by rwa [List.length_set]), List.length_set]
    omega
  have changed : ((l.set i c).eraseIdx j)[i] = c := by
    rw [List.getElem_eraseIdx_of_lt long less, List.getElem_set_self]
  have others : ((l.set i c).eraseIdx j).eraseIdx i = (l.eraseIdx j).eraseIdx i := by
    rw [List.eraseIdx_set_gt less, List.eraseIdx_set_eq]
  rw [← others]
  calc ((l.set i c).eraseIdx j).Perm (((l.set i c).eraseIdx j)[i] :: ((l.set i c).eraseIdx j).eraseIdx i) :=
        (List.getElem_cons_eraseIdx_perm long).symm
    _ = c :: ((l.set i c).eraseIdx j).eraseIdx i := by rw [changed]

end

section
variable {σ ε α : Type} {step : σ → Except ε (Option σ)} {Skips : σ → σ → α → α → Prop} {first s t : σ} {a b : α}

/-- A comparison that a pass before a state skipped. -/
def Skipped (step : σ → Except ε (Option σ)) (Skips : σ → σ → α → α → Prop) (first s : σ) (a b : α) : Prop :=
  ∃ u v, ComesTo step first u ∧ step u = .ok (some v) ∧ Skips u v a b ∧ ComesTo step v s

theorem Skipped.next (skipped : Skipped step Skips first s a b) (done : step s = .ok (some t)) :
    Skipped step Skips first t a b := by
  obtain ⟨u, v, before, pass, skips, after⟩ := skipped
  exact ⟨u, v, before, pass, skips, after.next done⟩

variable {R : α → α → Prop} {i j : σ → Nat} {l : σ → List α}

/-- **The rule for loops that skip comparisons**: if each pass has compared what it does not skip, all entries before the
indices were compared but for what was skipped. -/
theorem compared_but_skipped
    (each : ∀ s t (S : α → α → Prop), ComesTo step first s → step s = .ok (some t) →
      (∀ a b, S a b → R a b ∧ ¬ Skips s t a b) → Compared S (i s) (j s) (l s) → Compared S (i t) (j t) (l t))
    (initial : ∀ S : α → α → Prop, Compared S (i first) (j first) (l first)) (reached : ComesTo step first s) :
    Compared (fun a b => R a b ∧ ¬ Skipped step Skips first s a b) (i s) (j s) (l s) := by
  refine reached.keeps (P := fun s => Compared (fun a b => R a b ∧ ¬ Skipped step Skips first s a b) (i s) (j s) (l s))
    (initial _) fun u v before compared done => ?_
  refine each u v _ before done (fun a b both => ⟨both.1, fun skips => both.2 ?_⟩) (compared.mono fun a b both => ?_)
  · exact ⟨u, v, before, done, skips, .refl⟩
  · exact ⟨both.1, fun skipped => both.2 (skipped.next done)⟩

/-- At the end no two entries are related exactly if none are whose comparison was skipped. -/
theorem apart_iff_skipped (compared : Compared (fun a b => R a b ∧ ¬ Skipped step Skips first s a b) (i s) (j s) (l s))
    (last : (l s).length ≤ i s + 1) :
    (l s).Pairwise (fun a b => ¬ R a b) ↔ ∀ a b, Skipped step Skips first s a b → R a b → ¬ [a, b].Sublist (l s) := by
  rw [List.pairwise_iff_forall_sublist]
  constructor
  · exact fun apart a b _ related both => apart both related
  · intro broken a b both related
    by_cases skipped : Skipped step Skips first s a b
    · exact broken a b skipped related both
    · exact List.pairwise_iff_forall_sublist.mp (compared.pairwise last) both ⟨related, skipped⟩

end

end VideoDetector.Lib
