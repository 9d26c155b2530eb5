import Mathlib.Data.Finmap
import Mathlib.Order.Lattice.Nat
import Mathlib.Tactic.Common

/-!
# Doubly linked chains in a heap

A heap maps the addresses in use to nodes. `Chain h pre xs next` says that the nodes `xs`, each with
its address, are linked one after the other in both directions, between the addresses `pre` and
`next`. A chain can be cut anywhere (`chain_append`), its two outer links can be replaced
(`chain_relink_next`, `chain_relink_pre`), and changes elsewhere in the heap leave it alone
(`chain_congr`); inserting and deleting nodes is built from these three.
-/

namespace VideoDetector.Lib
set_option autoImplicit false

abbrev Ptr := Nat

def null : Ptr := 0

structure Node (α : Type) where
  next : Ptr
  pre : Ptr
  data : α
  deriving DecidableEq, Repr

/-- The nodes in use. -/
abbrev Heap (α : Type) := Finmap fun _ : Ptr => Node α

/-- An allocator: each answer is an address that is not in use. The number of the call lets it answer
in any way at all, also with an address that was in use before. -/
structure Malloc (α : Type) where
  pick : Nat → Heap α → Ptr
  nonNull : ∀ n h, pick n h ≠ null
  fresh : ∀ n h, pick n h ∉ h

/-- The allocator that goes up. -/
def bumpMalloc (α : Type) : Malloc α where
  pick _ h := h.keys.sup id + 1
  nonNull _ _ := Nat.succ_ne_zero _
  fresh _ h used := by
    have below := Finset.le_sup (f := id) (Finmap.mem_keys.mpr used)
    exact absurd below (Nat.not_succ_le_self _)

section
variable {α : Type}

/-- The address of the first node, or what comes behind an empty chain. -/
def firstOf (xs : List (Ptr × α)) (next : Ptr) : Ptr :=
  match xs with
  | [] => next
  | x :: _ => x.1

/-- The address of the last node, or what comes before an empty chain. -/
def lastOf (pre : Ptr) : List (Ptr × α) → Ptr
  | [] => pre
  | x :: xs => lastOf x.1 xs

def Chain (h : Heap α) (pre : Ptr) (xs : List (Ptr × α)) (next : Ptr) : Prop :=
  match xs with
  | [] => True
  | x :: xs => h.lookup x.1 = some ⟨firstOf xs next, pre, x.2⟩ ∧ Chain h x.1 xs next

@[simp] theorem firstOf_nil (next : Ptr) : firstOf ([] : List (Ptr × α)) next = next := rfl

@[simp] theorem firstOf_cons (x : Ptr × α) (xs : List (Ptr × α)) (next : Ptr) : firstOf (x :: xs) next = x.1 := rfl

@[simp] theorem lastOf_nil (pre : Ptr) : lastOf pre ([] : List (Ptr × α)) = pre := rfl

@[simp] theorem lastOf_cons (pre : Ptr) (x : Ptr × α) (xs : List (Ptr × α)) :
    lastOf pre (x :: xs) = lastOf x.1 xs := rfl

theorem firstOf_append (xs ys : List (Ptr × α)) (next : Ptr) :
    firstOf (xs ++ ys) next = firstOf xs (firstOf ys next) := by
  cases xs <;> rfl

@[simp] theorem lastOf_append (pre : Ptr) (xs ys : List (Ptr × α)) :
    lastOf pre (xs ++ ys) = lastOf (lastOf pre xs) ys := by
  induction xs generalizing pre with
  | nil => rfl
  | cons x xs ih => exact ih x.1

theorem firstOf_mem {xs : List (Ptr × α)} (nonempty : xs ≠ []) (next : Ptr) : firstOf xs next ∈ xs.map Prod.fst := by
  cases xs with
  | nil => exact absurd rfl nonempty
  | cons x xs => exact List.mem_cons_self

theorem lastOf_mem (pre : Ptr) {xs : List (Ptr × α)} (nonempty : xs ≠ []) : lastOf pre xs ∈ xs.map Prod.fst := by
  induction xs generalizing pre with
  | nil => exact absurd rfl nonempty
  | cons x xs ih =>
    cases xs with
    | nil => exact List.mem_cons_self
    | cons y ys => exact List.mem_cons_of_mem _ (ih x.1 (List.cons_ne_nil y ys))

theorem firstOf_congr {xs ys : List (Ptr × α)} (same : xs.map Prod.fst = ys.map Prod.fst) (next : Ptr) :
    firstOf xs next = firstOf ys next := by
  cases xs <;> cases ys <;> simp_all

theorem lastOf_congr {xs ys : List (Ptr × α)} (same : xs.map Prod.fst = ys.map Prod.fst) (pre : Ptr) :
    lastOf pre xs = lastOf pre ys := by
  induction xs generalizing pre ys with
  | nil =>
    cases ys with
    | nil => rfl
    | cons y ys => cases same
  | cons x xs ih =>
    cases ys with
    | nil => cases same
    | cons y ys =>
      obtain ⟨first, rest⟩ := List.cons.inj same
      rw [lastOf_cons, lastOf_cons, first]
      exact ih rest y.1

/-! ## Cutting, moving and relinking -/

/-- **A chain is cut at any place.** -/
theorem chain_append {h : Heap α} {pre next : Ptr} {xs ys : List (Ptr × α)} :
    Chain h pre (xs ++ ys) next ↔ Chain h pre xs (firstOf ys next) ∧ Chain h (lastOf pre xs) ys next := by
  induction xs generalizing pre with
  | nil => simp [Chain]
  | cons x xs ih =>
    simp only [List.cons_append, Chain, lastOf_cons, firstOf_append]
    rw [ih]
    exact and_assoc.symm

/-- A chain is in every heap that has its nodes. -/
theorem chain_congr {h h' : Heap α} {pre next : Ptr} {xs : List (Ptr × α)} (chain : Chain h pre xs next)
    (same : ∀ x ∈ xs, h'.lookup x.1 = h.lookup x.1) : Chain h' pre xs next := by
  induction xs generalizing pre with
  | nil => trivial
  | cons x xs ih =>
    refine ⟨?_, ih chain.2 fun y member => same y (List.mem_cons_of_mem x member)⟩
    rw [same x List.mem_cons_self]
    exact chain.1

/-- A write to an address outside a chain. -/
theorem chain_insert {h : Heap α} {pre next p : Ptr} {xs : List (Ptr × α)} (node : Node α)
    (chain : Chain h pre xs next) (outside : p ∉ xs.map Prod.fst) : Chain (h.insert p node) pre xs next := by
  apply chain_congr chain
  intro x member
  apply Finmap.lookup_insert_of_ne
  rintro rfl
  exact outside (List.mem_map_of_mem member)

/-- Freeing an address outside a chain. -/
theorem chain_erase {h : Heap α} {pre next p : Ptr} {xs : List (Ptr × α)} (chain : Chain h pre xs next)
    (outside : p ∉ xs.map Prod.fst) : Chain (h.erase p) pre xs next := by
  apply chain_congr chain
  intro x member
  apply Finmap.lookup_erase_ne
  rintro rfl
  exact outside (List.mem_map_of_mem member)

theorem chain_first {h : Heap α} {pre next : Ptr} {x : Ptr × α} {xs : List (Ptr × α)}
    (chain : Chain h pre (x :: xs) next) : h.lookup x.1 = some ⟨firstOf xs next, pre, x.2⟩ := chain.1

theorem chain_last {h : Heap α} {pre next : Ptr} {x : Ptr × α} {xs : List (Ptr × α)}
    (chain : Chain h pre (xs ++ [x]) next) : h.lookup x.1 = some ⟨next, lastOf pre xs, x.2⟩ :=
  (chain_append.mp chain).2.1

/-- Replace the link behind the last node. -/
theorem chain_relink_next {h : Heap α} {pre next : Ptr} {x : Ptr × α} {xs : List (Ptr × α)}
    (chain : Chain h pre (xs ++ [x]) next) (outside : x.1 ∉ xs.map Prod.fst) (next' : Ptr) :
    Chain (h.insert x.1 ⟨next', lastOf pre xs, x.2⟩) pre (xs ++ [x]) next' := by
  obtain ⟨before, _⟩ := chain_append.mp chain
  rw [chain_append]
  exact ⟨chain_insert _ before outside, Finmap.lookup_insert h, trivial⟩

/-- Replace the link before the first node. -/
theorem chain_relink_pre {h : Heap α} {pre next : Ptr} {x : Ptr × α} {xs : List (Ptr × α)}
    (chain : Chain h pre (x :: xs) next) (outside : x.1 ∉ xs.map Prod.fst) (pre' : Ptr) :
    Chain (h.insert x.1 ⟨firstOf xs next, pre', x.2⟩) pre' (x :: xs) next :=
  ⟨Finmap.lookup_insert h, chain_insert _ chain.2 outside⟩

/-- Replace the data of a node. -/
theorem chain_data {h : Heap α} {pre next : Ptr} {xs ys : List (Ptr × α)} {p : Ptr} {d : α}
    (chain : Chain h pre (xs ++ (p, d) :: ys) next) (distinct : ((xs ++ (p, d) :: ys).map Prod.fst).Nodup) (d' : α) :
    Chain (h.insert p ⟨firstOf ys next, lastOf pre xs, d'⟩) pre (xs ++ (p, d') :: ys) next := by
  obtain ⟨before, _, behind⟩ := chain_append.mp chain
  rw [List.map_append, List.nodup_append] at distinct
  obtain ⟨_, distinctBehind, apart⟩ := distinct
  rw [chain_append]
  refine ⟨chain_insert _ before fun member => apart p member p List.mem_cons_self rfl, Finmap.lookup_insert h, ?_⟩
  exact chain_insert _ behind (List.nodup_cons.mp distinctBehind).1

/-! ## Following links -/

/-- Following a link from `p` on leads through the nodes `xs` and ends at `null`. -/
def Follows (link : Node α → Ptr) (h : Heap α) (p : Ptr) (xs : List (Ptr × α)) : Prop :=
  match xs with
  | [] => p = null
  | x :: xs => p = x.1 ∧ p ≠ null ∧ ∃ node, h.lookup p = some node ∧ node.data = x.2 ∧ Follows link h (link node) xs

theorem follows_unique {link : Node α → Ptr} {h : Heap α} {p : Ptr} {xs ys : List (Ptr × α)}
    (first : Follows link h p xs) (second : Follows link h p ys) : xs = ys := by
  induction xs generalizing p ys with
  | nil =>
    cases ys with
    | nil => rfl
    | cons y ys => exact absurd first second.2.1
  | cons x xs ih =>
    cases ys with
    | nil => exact absurd second first.2.1
    | cons y ys =>
      obtain ⟨here, _, node, found, data, rest⟩ := first
      obtain ⟨here', _, node', found', data', rest'⟩ := second
      cases found.symm.trans found'
      have same : x = y := Prod.ext (here.symm.trans here') (data.symm.trans data')
      rw [same, ih rest rest']

theorem chain_follows_next {h : Heap α} {pre : Ptr} {xs : List (Ptr × α)} (chain : Chain h pre xs null)
    (nonNull : ∀ x ∈ xs, x.1 ≠ null) : Follows Node.next h (firstOf xs null) xs := by
  induction xs generalizing pre with
  | nil => rfl
  | cons x xs ih =>
    refine ⟨rfl, nonNull x List.mem_cons_self, _, chain.1, rfl, ?_⟩
    exact ih chain.2 fun y member => nonNull y (List.mem_cons_of_mem x member)

theorem chain_follows_pre {h : Heap α} {next : Ptr} {xs : List (Ptr × α)} (chain : Chain h null xs next)
    (nonNull : ∀ x ∈ xs, x.1 ≠ null) : Follows Node.pre h (lastOf null xs) xs.reverse := by
  induction xs using List.reverseRecOn generalizing next with
  | nil => rfl
  | append_singleton xs x ih =>
    have last := chain_last chain
    rw [lastOf_append, List.reverse_append]
    refine ⟨rfl, nonNull x (by simp), _, last, rfl, ?_⟩
    exact ih (chain_append.mp chain).1 fun y member => nonNull y (List.mem_append_left _ member)

end

end VideoDetector.Lib
