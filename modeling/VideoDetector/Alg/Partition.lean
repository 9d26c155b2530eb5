import Mathlib.Logic.Relation
import VideoDetector.Lib.Forest
import VideoDetector.Lib.Runs

/-!
# Equivalence classes (`partition` in `fvd-new/alg-mutilthread/opencv2/core/operations.hpp`)

Elements that a predicate holds of are put into one tree, by ranks and with compressed paths, and the trees are numbered.
`partition_ok` says that this comes to an end and that the labels are those of the equivalence classes that the predicate
generates, numbered in the order of their first elements.
-/

namespace VideoDetector.Alg
set_option autoImplicit false
open Lib

/-- `_nodes`: `PARENT`, where -1 is no parent, and `RANK`. -/
structure Nodes (N : Nat) where
  parent : Fin N → Option (Fin N)
  rank : Fin N → Int

inductive PartitionFault where
  | unfinished
  | assertion

section
variable {N : Nat}

namespace Nodes

/-- The first pass. -/
def single : Nodes N := ⟨fun _ => none, fun _ => 0⟩

/-- `while( nodes[root][PARENT] >= 0 )`. -/
def findRoot (nodes : Nodes N) (root : Fin N) : Except PartitionFault (Fin N) :=
  match iterate nodes.parent N root with
  | none => .error .unfinished
  | some root => .ok root

/-- "unite both trees" -/
def unite (nodes : Nodes N) (root root2 : Fin N) : Nodes N × Fin N :=
  let rank := nodes.rank root
  let rank2 := nodes.rank root2
  if rank > rank2 then
    (⟨Function.update nodes.parent root2 (some root), nodes.rank⟩, root)
  else
    (⟨Function.update nodes.parent root (some root2),
      Function.update nodes.rank root2 (rank2 + if rank = rank2 then 1 else 0)⟩, root2)

/-- "compress the path from node2 to root" -/
def compress (nodes : Nodes N) (root k : Fin N) : Except PartitionFault (Nodes N) :=
  match iterate (compressStep root) N (nodes.parent, k) with
  | none => .error .unfinished
  | some (parent, _) => .ok ⟨parent, nodes.rank⟩

end Nodes

/-- The trees of the elements `i` and `j`, with these roots, become one. -/
def joinTrees (nodes : Nodes N) (i j root root2 : Fin N) : Except PartitionFault (Nodes N × Fin N) := do
  let united := nodes.unite root root2
  if (united.1.parent united.2).isSome then throw .assertion
  let nodes ← united.1.compress united.2 j
  let nodes ← nodes.compress united.2 i
  return (nodes, united.2)

variable (predicate : Fin N → Fin N → Bool)

/-- The body of the loop over `j`, with `root`. -/
def mergeWith (i : Fin N) (s : Nodes N × Fin N) (j : Fin N) : Except PartitionFault (Nodes N × Fin N) :=
  if i = j ∨ !predicate i j then .ok s
  else do
    let root2 ← s.1.findRoot j
    if root2 ≠ s.2 then joinTrees s.1 i j s.2 root2 else return s

/-- The body of the main pass. -/
def mergeRow (nodes : Nodes N) (i : Fin N) : Except PartitionFault (Nodes N) := do
  let root ← nodes.findRoot i
  return (← (List.finRange N).foldlM (mergeWith predicate i) (nodes, root)).1

/-- `nclasses` and `labels`, with the ranks that become class labels. -/
structure Numbering (N : Nat) where
  rank : Fin N → Int
  nclasses : Nat
  labels : Fin N → Int

/-- "re-use the rank as the class label" -/
def Numbering.reuse (s : Numbering N) (root : Fin N) : Numbering N :=
  if s.rank root ≥ 0 then ⟨Function.update s.rank root (-(s.nclasses : Int) - 1), s.nclasses + 1, s.labels⟩ else s

/-- The body of the final pass. -/
def numberClass (nodes : Nodes N) (s : Numbering N) (i : Fin N) : Except PartitionFault (Numbering N) := do
  let root ← nodes.findRoot i
  let s := s.reuse root
  return { s with labels := Function.update s.labels i (-s.rank root - 1) }

end

/-- `partition`. -/
def partition {α : Type} (vec : List α) (predicate : α → α → Bool) : Except PartitionFault (Nat × (Fin vec.length → Int)) := do
  let nodes ← (List.finRange vec.length).foldlM (mergeRow fun i j => predicate (vec.get i) (vec.get j)) .single
  let numbering ← (List.finRange vec.length).foldlM (numberClass nodes) ⟨nodes.rank, 0, fun _ => 0⟩
  return (numbering.nclasses, numbering.labels)

/-! ## The main pass -/

section
variable {N : Nat} {predicate : Fin N → Fin N → Bool}

/-- The classes that are to be found. -/
def Alike (predicate : Fin N → Fin N → Bool) : Fin N → Fin N → Prop :=
  Relation.EqvGen fun i j => i ≠ j ∧ predicate i j = true

/-- During the main pass: trees with ranks, each in one class. -/
structure Uniting (predicate : Fin N → Fin N → Bool) (nodes : Nodes N) : Prop where
  rising : Rising nodes.parent nodes.rank
  nonneg : ∀ i, 0 ≤ nodes.rank i
  sound : ∀ i r, RootOf nodes.parent i r → Alike predicate i r

theorem Uniting.single : Uniting predicate (Nodes.single : Nodes N) where
  rising _ _ none := by cases none
  nonneg _ := le_rfl
  sound i r root := by
    cases root with
    | root => exact Relation.EqvGen.refl i
    | up none => cases none

theorem findRoot_ok {nodes : Nodes N} (rising : Rising nodes.parent nodes.rank) (i : Fin N) :
    ∃ r, nodes.findRoot i = .ok r ∧ RootOf nodes.parent i r := by
  obtain ⟨r, run, root⟩ := rising.find i
  rw [Fintype.card_fin] at run
  exact ⟨r, by rw [Nodes.findRoot, run], root⟩

theorem compress_ok {nodes : Nodes N} (merging : Uniting predicate nodes) {k r : Fin N} (climb : RootOf nodes.parent k r) :
    ∃ nodes', nodes.compress r k = .ok nodes' ∧ Uniting predicate nodes' ∧
      ∀ i t, RootOf nodes.parent i t → RootOf nodes'.parent i t := by
  obtain ⟨⟨parent, k'⟩, run, rising, keep⟩ := merging.rising.compress climb
  rw [Fintype.card_fin] at run
  refine ⟨⟨parent, nodes.rank⟩, by rw [Nodes.compress, run], ⟨rising, merging.nonneg, fun i t root => ?_⟩, keep⟩
  obtain ⟨s, _, root'⟩ := findRoot_ok merging.rising i
  exact (keep i s root').unique root ▸ merging.sound i s root'

theorem Uniting.linked {nodes : Nodes N} (merging : Uniting predicate nodes) {i j : Fin N}
    (same : SameTree nodes.parent i j) : Alike predicate i j := by
  obtain ⟨r, first, second⟩ := same
  exact (merging.sound i r first).trans _ _ _ ((merging.sound j r second).symm _ _)

/-- A root is hung below another one of its class. -/
theorem Uniting.link {nodes : Nodes N} (merging : Uniting predicate nodes) {r s : Fin N} (apart : r ≠ s)
    (own : nodes.parent r = none) (other : nodes.parent s = none) (linked : Alike predicate r s) {rank : Fin N → Int}
    (less : nodes.rank r < rank s) (grown : nodes.rank s ≤ rank s) (rest : ∀ i, i ≠ s → rank i = nodes.rank i) :
    Uniting predicate ⟨Function.update nodes.parent r (some s), rank⟩ where
  rising := merging.rising.link apart other less grown rest
  nonneg i := by
    by_cases here : i = s
    · rw [here]
      exact (merging.nonneg s).trans grown
    · exact (merging.nonneg i).trans_eq (rest i here).symm
  sound i t climb := by
    obtain ⟨u, _, old⟩ := findRoot_ok merging.rising i
    rw [climb.unique (old.link apart own other)]
    split
    · next same => exact (same ▸ merging.sound i u old).trans _ _ _ linked
    · exact merging.sound i u old

/-- Uniting two trees: nodes with one of the roots get the new root, the others keep theirs. -/
theorem unite_ok {nodes : Nodes N} (merging : Uniting predicate nodes) {root root2 : Fin N} (apart : root2 ≠ root)
    (own : nodes.parent root = none) (own2 : nodes.parent root2 = none) (linked : Alike predicate root root2) :
    ∃ nodes' root', nodes.unite root root2 = (nodes', root') ∧ Uniting predicate nodes' ∧ nodes'.parent root' = none ∧
      ∀ i t, RootOf nodes.parent i t → RootOf nodes'.parent i (if t = root ∨ t = root2 then root' else t) := by
  unfold Nodes.unite
  simp only
  split
  · next more =>
    refine ⟨_, _, rfl, merging.link apart own2 own (linked.symm _ _) more le_rfl fun _ _ => rfl, ?_, fun i t climb => ?_⟩
    · simp [Function.update_of_ne apart.symm, own]
    · have moved := climb.link apart own2 own
      by_cases last : t = root
      · simpa [last, apart.symm] using moved
      · simpa [last] using moved
  · next less =>
    have less := not_lt.mp less
    refine ⟨_, _, rfl, merging.link apart.symm own own2 linked ?_ ?_ fun i other => Function.update_of_ne other _ _, ?_,
      fun i t climb => ?_⟩
    · rw [Function.update_self]
      split <;> omega
    · rw [Function.update_self]
      split <;> omega
    · simp [Function.update_of_ne apart, own2]
    · have moved := climb.link apart.symm own own2
      by_cases last : t = root2
      · simpa [last, apart] using moved
      · simpa [last] using moved

/-- What one comparison does: it may join trees, and it joins those of two elements that belong together. -/
theorem mergeWith_ok {s : Nodes N × Fin N} {i : Fin N} (merging : Uniting predicate s.1) (climb : RootOf s.1.parent i s.2) (j : Fin N) :
    ∃ s', mergeWith predicate i s j = .ok s' ∧ Uniting predicate s'.1 ∧ RootOf s'.1.parent i s'.2 ∧
      (∀ a b, SameTree s.1.parent a b → SameTree s'.1.parent a b) ∧
      (i ≠ j → predicate i j = true → SameTree s'.1.parent i j) := by
  unfold mergeWith
  split
  · next skip =>
    refine ⟨s, rfl, merging, climb, fun _ _ same => same, fun other holds => ?_⟩
    rcases skip with same | fails
    · exact absurd same other
    · rw [holds] at fails
      cases fails
  · next belong =>
    obtain ⟨other, holds⟩ := not_or.mp belong
    obtain ⟨root2, found, climb2⟩ := findRoot_ok merging.rising j
    have linked : Alike predicate i j := .rel i j ⟨other, by simpa using holds⟩
    by_cases same : root2 = s.2
    · refine ⟨s, ?_, merging, climb, fun _ _ same => same, fun _ _ => ⟨s.2, climb, same ▸ climb2⟩⟩
      rw [found]
      exact if_neg (not_not.mpr same)
    · have roots : Alike predicate s.2 root2 :=
        ((merging.sound i s.2 climb).symm _ _).trans _ _ _ (linked.trans _ _ _ (merging.sound j root2 climb2))
      obtain ⟨nodes, root, united, merging₁, top, moved⟩ := unite_ok merging same climb.no_parent climb2.no_parent roots
      have low : RootOf nodes.parent i root := by simpa using moved i s.2 climb
      have low2 : RootOf nodes.parent j root := by simpa using moved j root2 climb2
      obtain ⟨nodes₁, first, merging₂, keep⟩ := compress_ok merging₁ low2
      obtain ⟨nodes₂, second, merging₃, keep'⟩ := compress_ok merging₂ (keep i root low)
      have all (a r : Fin N) (up : RootOf nodes.parent a r) : RootOf nodes₂.parent a r := keep' a r (keep a r up)
      refine ⟨(nodes₂, root), ?_, merging₃, all i root low, ?_, fun _ _ => ⟨root, all i root low, all j root low2⟩⟩
      · rw [found]
        refine (if_pos same).trans ?_
        rw [joinTrees, united]
        simp only [top, first]
        change (nodes₁.compress root i >>= fun nodes => pure (nodes, root)) = _
        rw [second]
        rfl
      · rintro a b ⟨r, up, up'⟩
        exact ⟨_, all a _ (moved a r up), all b _ (moved b r up')⟩

/-- What a pass over all elements does for one of them. -/
theorem mergeRow_ok {nodes : Nodes N} (merging : Uniting predicate nodes) (i : Fin N) :
    ∃ nodes', mergeRow predicate nodes i = .ok nodes' ∧ Uniting predicate nodes' ∧
      (∀ a b, SameTree nodes.parent a b → SameTree nodes'.parent a b) ∧
      ∀ j, i ≠ j → predicate i j = true → SameTree nodes'.parent i j := by
  obtain ⟨root, found, climb⟩ := findRoot_ok merging.rising i
  obtain ⟨s, run, merging', _, coarser, joined⟩ := @foldlM_prefix_ok _ _ _ (mergeWith predicate i)
    (List.finRange N) (nodes, root) (fun before s => Uniting predicate s.1 ∧ RootOf s.1.parent i s.2 ∧
      (∀ a b, SameTree nodes.parent a b → SameTree s.1.parent a b) ∧
      ∀ j ∈ before, i ≠ j → predicate i j = true → SameTree s.1.parent i j)
    (by
      rintro before j after s - ⟨merging, climb, coarser, joined⟩
      obtain ⟨s', done, merging', climb', coarser', own⟩ := mergeWith_ok merging climb j
      refine ⟨s', done, merging', climb', fun a b same => coarser' a b (coarser a b same), fun j' member other holds => ?_⟩
      rcases List.mem_append.mp member with earlier | last
      · exact coarser' i j' (joined j' earlier other holds)
      · rw [List.mem_singleton.mp last] at other holds ⊢
        exact own other holds)
    ⟨merging, climb, fun _ _ same => same, by simp⟩
  refine ⟨s.1, ?_, merging', coarser, fun j => joined j (List.mem_finRange j)⟩
  rw [mergeRow, found]
  change ((List.finRange N).foldlM (mergeWith predicate i) (nodes, root) >>= fun s => pure s.1) = _
  rw [run]
  rfl

/-- **The main pass** comes to an end with one tree for each class. -/
theorem mergeRows_ok (predicate : Fin N → Fin N → Bool) :
    ∃ nodes, (List.finRange N).foldlM (mergeRow predicate) .single = .ok nodes ∧ Uniting predicate nodes ∧
      ∀ i j, SameTree nodes.parent i j ↔ Alike predicate i j := by
  obtain ⟨nodes, run, merging, joined⟩ := @foldlM_prefix_ok _ _ _ (mergeRow predicate) (List.finRange N)
    Nodes.single (fun before nodes => Uniting predicate nodes ∧
      ∀ i ∈ before, ∀ j, i ≠ j → predicate i j = true → SameTree nodes.parent i j)
    (by
      rintro before i after nodes - ⟨merging, joined⟩
      obtain ⟨nodes', done, merging', coarser, own⟩ := mergeRow_ok merging i
      refine ⟨nodes', done, merging', fun i' member j other holds => ?_⟩
      rcases List.mem_append.mp member with earlier | last
      · exact coarser i' j (joined i' earlier j other holds)
      · rw [List.mem_singleton.mp last] at other holds ⊢
        exact own j other holds)
    ⟨Uniting.single, by simp⟩
  refine ⟨nodes, run, merging, fun i j => ⟨merging.linked, fun linked => ?_⟩⟩
  induction linked with
  | rel i j both => exact joined i (List.mem_finRange i) j both.1 both.2
  | refl i => exact merging.rising.sameTree_refl i
  | symm i j _ ih => exact ih.symm
  | trans i j k _ _ first second => exact first.trans second

/-! ## The labels -/

/-- After some elements: their roots have negative ranks, one for each class. -/
structure Numbered (nodes : Nodes N) (before : List (Fin N)) (s : Numbering N) : Prop where
  fresh : ∀ r, (∀ i ∈ before, ¬ RootOf nodes.parent i r) → 0 ≤ s.rank r
  label : ∀ i ∈ before, ∀ r, RootOf nodes.parent i r → s.rank r < 0 ∧ s.labels i = -s.rank r - 1
  below : ∀ r, s.rank r < 0 → -s.rank r - 1 < s.nclasses
  distinct : ∀ r r', s.rank r < 0 → s.rank r' = s.rank r → r' = r
  first : ∀ c : Nat, c < s.nclasses → ∃ i ∈ before, s.labels i = c ∧ ∀ j ∈ before, j < i → s.labels j < c

theorem Numbered.step {nodes : Nodes N} (rising : Rising nodes.parent nodes.rank) {before : List (Fin N)} {i : Fin N}
    (behind : ∀ j ∈ before, j < i) {s : Numbering N} (numbered : Numbered nodes before s) :
    ∃ s', numberClass nodes s i = .ok s' ∧ Numbered nodes (before ++ [i]) s' := by
  obtain ⟨root, found, climb⟩ := findRoot_ok rising i
  obtain ⟨fresh, label, below, distinct, first⟩ := numbered
  have mine {r : Fin N} (up : RootOf nodes.parent i r) : r = root := up.unique climb
  have old {j : Fin N} (member : j ∈ before) (labels : Fin N → Int) (v : Int) : Function.update labels i v j = labels j :=
    Function.update_of_ne (behind j member).ne _ _
  refine ⟨_, by rw [numberClass, found]; rfl, ?_⟩
  unfold Numbering.reuse
  split
  · next new =>
    have unseen {j r : Fin N} (member : j ∈ before) (up : RootOf nodes.parent j r) : r ≠ root := by
      rintro rfl
      exact absurd (label j member r up).1 (not_lt.mpr new)
    constructor <;> dsimp only
    case fresh =>
      intro r none
      have apart : r ≠ root := fun same => none i (List.mem_append_right before (List.mem_singleton_self i)) (same ▸ climb)
      rw [Function.update_of_ne apart]
      exact fresh r fun j member => none j (List.mem_append_left [i] member)
    case label =>
      intro j member r up
      rcases List.mem_append.mp member with earlier | last
      · rw [old earlier, Function.update_of_ne (unseen earlier up)]
        exact label j earlier r up
      · cases List.mem_singleton.mp last
        rw [mine up, Function.update_self, Function.update_self]
        exact ⟨by omega, rfl⟩
    case below =>
      intro r negative
      by_cases here : r = root
      · rw [here, Function.update_self]
        omega
      · rw [Function.update_of_ne here] at negative ⊢
        have := below r negative
        omega
    case distinct =>
      have apart {r : Fin N} (negative : s.rank r < 0) : s.rank r ≠ -(s.nclasses : Int) - 1 := fun same => by
        have := below r negative
        omega
      intro r r' negative same
      by_cases here : r = root
      · by_cases there : r' = root
        · rw [here, there]
        · rw [Function.update_of_ne there, here, Function.update_self] at same
          exact absurd same (apart (by omega))
      · rw [Function.update_of_ne here] at negative same
        by_cases there : r' = root
        · rw [there, Function.update_self] at same
          exact absurd same.symm (apart negative)
        · rw [Function.update_of_ne there] at same
          exact distinct r r' negative same
    case first =>
      intro c low
      rcases Nat.lt_succ_iff_lt_or_eq.mp low with earlier | rfl
      · obtain ⟨k, member, same, less⟩ := first c earlier
        refine ⟨k, List.mem_append_left [i] member, (old member _ _).trans same, fun j there before => ?_⟩
        rcases List.mem_append.mp there with there | last
        · exact (old there _ _).trans_lt (less j there before)
        · exact absurd (behind k member) (List.mem_singleton.mp last ▸ before).asymm
      · refine ⟨i, List.mem_append_right before (List.mem_singleton_self i), ?_, fun j there before => ?_⟩
        · rw [Function.update_self, Function.update_self]
          omega
        · rcases List.mem_append.mp there with there | last
          · obtain ⟨r, _, up⟩ := findRoot_ok rising j
            obtain ⟨negative, same⟩ := label j there r up
            rw [old there, same]
            exact below r negative
          · exact absurd before (List.mem_singleton.mp last ▸ lt_irrefl _)
  · next used =>
    have used := not_le.mp used
    constructor <;> dsimp only
    case fresh => exact fun r none => fresh r fun j member => none j (List.mem_append_left [i] member)
    case label =>
      intro j member r up
      rcases List.mem_append.mp member with earlier | last
      · rw [old earlier]
        exact label j earlier r up
      · cases List.mem_singleton.mp last
        rw [mine up, Function.update_self]
        exact ⟨used, rfl⟩
    case below => exact below
    case distinct => exact distinct
    case first =>
      intro c low
      obtain ⟨k, member, same, less⟩ := first c low
      refine ⟨k, List.mem_append_left [i] member, (old member _ _).trans same, fun j there before => ?_⟩
      rcases List.mem_append.mp there with there | last
      · exact (old there _ _).trans_lt (less j there before)
      · exact absurd (behind k member) (List.mem_singleton.mp last ▸ before).asymm

/-- The numbered classes. -/
structure Classes (predicate : Fin N → Fin N → Bool) (nclasses : Nat) (labels : Fin N → Int) : Prop where
  same : ∀ i j, labels i = labels j ↔ Alike predicate i j
  nonneg : ∀ i, 0 ≤ labels i
  below : ∀ i, labels i < nclasses
  first : ∀ c : Nat, c < nclasses → ∃ i, labels i = c ∧ ∀ j < i, labels j < c

end

/-- **The classes**: `partition` comes to an end, and its labels are those of the classes that the predicate generates, in the
order of their first elements. -/
theorem partition_ok {α : Type} (vec : List α) (predicate : α → α → Bool) :
    ∃ nclasses labels, partition vec predicate = .ok (nclasses, labels) ∧
      Classes (fun i j => predicate (vec.get i) (vec.get j)) nclasses labels := by
  obtain ⟨nodes, merged, merging, linked⟩ := mergeRows_ok fun i j => predicate (vec.get i) (vec.get j)
  have behind {before after : List (Fin vec.length)} {i : Fin vec.length}
      (split : List.finRange vec.length = before ++ i :: after) : ∀ j ∈ before, j < i := by
    have sorted := List.pairwise_lt_finRange vec.length
    rw [split, List.pairwise_append] at sorted
    exact fun j member => sorted.2.2 j member i List.mem_cons_self
  obtain ⟨s, run, numbered⟩ := @foldlM_prefix_ok _ _ _ (numberClass nodes) (List.finRange vec.length) ⟨nodes.rank, 0, fun _ => 0⟩
    (Numbered nodes) (fun before i after s split numbered => numbered.step merging.rising (behind split))
    ⟨fun r _ => merging.nonneg r, by simp, fun r negative => absurd negative (not_lt.mpr (merging.nonneg r)),
      fun r _ negative => absurd negative (not_lt.mpr (merging.nonneg r)), by simp⟩
  have all (i : Fin vec.length) : ∃ r, RootOf nodes.parent i r ∧ s.rank r < 0 ∧ s.labels i = -s.rank r - 1 := by
    obtain ⟨r, _, up⟩ := findRoot_ok merging.rising i
    exact ⟨r, up, numbered.label i (List.mem_finRange i) r up⟩
  refine ⟨s.nclasses, s.labels, ?_, ?_, ?_, ?_, ?_⟩
  · rw [partition, merged]
    change ((List.finRange vec.length).foldlM (numberClass nodes) ⟨nodes.rank, 0, fun _ => 0⟩ >>=
      fun s => pure (s.nclasses, s.labels)) = _
    rw [run]
    rfl
  · intro i j
    rw [← linked]
    obtain ⟨r, up, negative, label⟩ := all i
    obtain ⟨r', up', negative', label'⟩ := all j
    constructor
    · intro same
      cases numbered.distinct r r' negative (by omega)
      exact ⟨r, up, up'⟩
    · rintro ⟨t, here, there⟩
      rw [label, label', up.unique here, up'.unique there]
  · intro i
    obtain ⟨r, _, negative, label⟩ := all i
    omega
  · intro i
    obtain ⟨r, _, negative, label⟩ := all i
    rw [label]
    exact numbered.below r negative
  · intro c low
    obtain ⟨i, _, same, less⟩ := numbered.first c low
    exact ⟨i, same, fun j => less j (List.mem_finRange j)⟩

end VideoDetector.Alg
