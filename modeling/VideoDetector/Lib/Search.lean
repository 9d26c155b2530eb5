import Mathlib.Data.Finset.Card
import Mathlib.Data.Set.Card
import Mathlib.Logic.Relation
import VideoDetector.Lib.Runs

/-!
# Search with a work list

From a start node all nodes are collected that a relation leads to, in an array that is its own work list: the entries
are visited in their order, and a visited entry puts its free neighbours behind the last one and marks them. The start
node is the first entry and is not marked, so it comes again as soon as a neighbour of it is visited. `search_spec` says
that the search ends with the whole component of the start node; `scan_spec` that the searches from a list of places find
the components with such a place, each once, in the order of the places.
-/

namespace VideoDetector.Lib
set_option autoImplicit false

/-- What a search works with: a test whether a node is to be collected, the mark for one that was, the neighbours in
their order, the form in which an entry is stored, the room of the array, and the two ways to fail. -/
structure Searcher (σ α ε : Type) where
  free : σ → α → Except ε Bool
  mark : σ → α → Except ε σ
  around : α → List α
  store : α → α
  room : Nat
  overrun : ε
  unfinished : ε

/-- The marks, the array, and what is computed from the entries visited so far. -/
structure Wave (σ α τ : Type) where
  marks : σ
  array : List α
  box : τ

section
variable {σ α τ ε ρ : Type} (F : Searcher σ α ε) (note : τ → α → τ)

/-- A neighbour of the visited entry. -/
def tryNode (w : σ × List α) (a : α) : Except ε (σ × List α) := do
  if ← F.free w.1 a then
    let marks ← F.mark w.1 a
    if w.2.length < F.room then return (marks, w.2 ++ [F.store a]) else throw F.overrun
  else return w

/-- An entry is visited. -/
def visit (w : Wave σ α τ) (a : α) : Except ε (Wave σ α τ) := do
  let (marks, array) ← (F.around a).foldlM (tryNode F) (w.marks, w.array)
  return ⟨marks, array, note w.box a⟩

/-- The entries behind the first `processed` ones are visited, until there is none left at the end of a round. -/
def rounds : Nat → Wave σ α τ → Nat → Except ε (Wave σ α τ)
  | 0, _, _ => throw F.unfinished
  | budget + 1, w, processed => do
    let size := w.array.length
    let w ← (w.array.drop processed).foldlM (visit F note) w
    if size < w.array.length then rounds budget w size else return w

def search (budget : Nat) (start : α → τ) (marks : σ) (a : α) : Except ε (Wave σ α τ) :=
  rounds F note budget ⟨marks, [F.store a], start a⟩ 0

/-- Search from each place that is still free, and use what was found. -/
def scan (budget : Nat) (start : α → τ) (emit : ρ → τ × Nat → Except ε ρ) (s : σ × ρ) (a : α) : Except ε (σ × ρ) := do
  if ← F.free s.1 a then
    let w ← search F note budget start s.1 a
    let r ← emit s.2 (w.box, w.array.length)
    return (w.marks, r)
  else return s

end

/-! ## Components -/

section
variable {α : Type} (fg : α → Prop) (around : α → List α)

/-- From a node of the foreground to one next to it. -/
def Next (a b : α) : Prop := fg b ∧ b ∈ around a

/-- Two nodes of the foreground with a way from one to the other. -/
def Linked (a b : α) : Prop := fg a ∧ Relation.ReflTransGen (Next fg around) a b

variable {fg around}

variable (fg around) in
/-- The component of a node. -/
def component (x : α) : Set α := {a | Linked fg around x a}

theorem Linked.refl {a : α} (there : fg a) : Linked fg around a a := ⟨there, .refl⟩

theorem Linked.left {a b : α} (linked : Linked fg around a b) : fg a := linked.1

theorem Linked.right {a b : α} (linked : Linked fg around a b) : fg b := by
  obtain ⟨there, way⟩ := linked
  cases way with
  | refl => exact there
  | tail _ last => exact last.1

theorem Linked.trans {a b c : α} (first : Linked fg around a b) (second : Linked fg around b c) : Linked fg around a c :=
  ⟨first.1, first.2.trans second.2⟩

theorem Linked.step {a b c : α} (first : Linked fg around a b) (there : fg c) (near : c ∈ around b) : Linked fg around a c :=
  ⟨first.1, first.2.tail ⟨there, near⟩⟩

theorem Linked.symm (back : ∀ a b, b ∈ around a → a ∈ around b) {a b : α} (linked : Linked fg around a b) :
    Linked fg around b a := by
  obtain ⟨there, way⟩ := linked
  induction way with
  | refl => exact .refl there
  | tail before last ih =>
    have middle : fg _ := Linked.right ⟨there, before⟩
    exact ((Linked.refl last.1).step middle (back _ _ last.2)).trans ih

/-- Marks that are whole components. -/
structure Whole (fg : α → Prop) (around : α → List α) (marked : α → Prop) : Prop where
  inside : ∀ a, marked a → fg a
  closed : ∀ a b, marked a → fg b → b ∈ around a → marked b

theorem Whole.linked {marked : α → Prop} (whole : Whole fg around marked) {a b : α} (here : marked a)
    (linked : Linked fg around a b) : marked b := by
  obtain ⟨_, way⟩ := linked
  induction way with
  | refl => exact here
  | tail _ last ih => exact whole.closed _ _ ih last.1 last.2

end

/-! ## The search -/

section
variable {σ α τ ε ρ : Type}

/-- The marks are marks of nodes, as long as they are good ones, and the nodes of the foreground can be stored. -/
structure Searcher.Lawful (F : Searcher σ α ε) (Good : σ → Prop) (fg : α → Prop) (marked : σ → α → Prop) : Prop where
  free : ∀ s a, Good s → ∃ b, F.free s a = .ok b ∧ (b = true ↔ fg a ∧ ¬ marked s a)
  mark : ∀ s a, Good s → fg a → ∃ t, F.mark s a = .ok t ∧ Good t ∧ ∀ b, marked t b ↔ marked s b ∨ b = a
  store : ∀ a, fg a → F.store a = a

variable {F : Searcher σ α ε} {note : τ → α → τ} {Good : σ → Prop} {fg : α → Prop} {marked : σ → α → Prop}
  (lawful : F.Lawful Good fg marked)

/-- The marks and the array behind its first entry in a search from `x`. -/
structure Grown (F : Searcher σ α ε) (Good : σ → Prop) (fg : α → Prop) (marked : σ → α → Prop) (m₀ : σ) (x : α) (m : σ)
    (rest : List α) : Prop where
  good : Good m
  distinct : rest.Nodup
  marks : ∀ a, marked m a ↔ marked m₀ a ∨ a ∈ rest
  fresh : ∀ a ∈ rest, ¬ marked m₀ a
  linked : ∀ a ∈ rest, Linked fg F.around x a
  near : ∀ a ∈ rest, ∃ q, fg q ∧ a ∈ F.around q

/-- All neighbours of the nodes are marked. -/
def Surrounded (F : Searcher σ α ε) (fg : α → Prop) (marked : σ → α → Prop) (m : σ) (visited : List α) : Prop :=
  ∀ q ∈ visited, ∀ a ∈ F.around q, fg a → marked m a

variable {m₀ m m' : σ} {x : α} {rest rest' : List α}

theorem Grown.mono (before : Grown F Good fg marked m₀ x m rest) (after : Grown F Good fg marked m₀ x m' rest')
    (longer : rest <+: rest') {a : α} (there : marked m a) : marked m' a := by
  rw [after.marks]
  exact ((before.marks a).mp there).imp_right fun member => longer.subset member

theorem Surrounded.mono {visited : List α} (surrounded : Surrounded F fg marked m visited)
    (before : Grown F Good fg marked m₀ x m rest) (after : Grown F Good fg marked m₀ x m' rest') (longer : rest <+: rest') :
    Surrounded F fg marked m' visited := by
  intro q member a near there
  exact before.mono after longer (surrounded q member a near there)

variable {nodes : Finset α} (finite : ∀ a, fg a → a ∈ nodes) (room : nodes.card < F.room)

include finite in
/-- The array has at most one entry for each node behind the first one. -/
theorem Grown.length_le (grown : Grown F Good fg marked m₀ x m rest) : rest.length ≤ nodes.card := by
  classical
  rw [← List.toFinset_card_of_nodup grown.distinct]
  refine Finset.card_le_card fun a member => finite a ?_
  exact (grown.linked a (List.mem_toFinset.mp member)).right

include lawful finite room

theorem tryNode_spec (grown : Grown F Good fg marked m₀ x m rest) {q a : α} (way : Linked fg F.around x q)
    (near : a ∈ F.around q) :
    ∃ m' rest', tryNode F (m, x :: rest) a = .ok (m', x :: rest') ∧ Grown F Good fg marked m₀ x m' rest' ∧
      rest <+: rest' ∧ (fg a → marked m' a) := by
  obtain ⟨b, tested, free⟩ := lawful.free m a grown.good
  cases b with
  | false =>
    have taken : fg a → marked m a := by simpa using free
    refine ⟨m, rest, ?_, grown, List.prefix_rfl, taken⟩
    rw [tryNode, tested]
    rfl
  | true =>
    obtain ⟨there, unmarked⟩ := free.mp rfl
    obtain ⟨m', done, good, marks⟩ := lawful.mark m a grown.good there
    have absent : ¬ marked m₀ a ∧ a ∉ rest := by
      rw [grown.marks, not_or] at unmarked
      exact unmarked
    have after : Grown F Good fg marked m₀ x m' (rest ++ [a]) := by
      refine ⟨good, ?_, ?_, ?_, ?_, ?_⟩
      · rw [← List.concat_eq_append]
        exact grown.distinct.concat absent.2
      · intro b
        rw [marks, grown.marks, List.mem_append, List.mem_singleton, or_assoc]
      · intro b member
        rcases List.mem_append.mp member with early | last
        · exact grown.fresh b early
        · rw [List.mem_singleton.mp last]
          exact absent.1
      · intro b member
        rcases List.mem_append.mp member with early | last
        · exact grown.linked b early
        · rw [List.mem_singleton.mp last]
          exact way.step there near
      · intro b member
        rcases List.mem_append.mp member with early | last
        · exact grown.near b early
        · rw [List.mem_singleton.mp last]
          exact ⟨q, way.right, near⟩
    have fits : (x :: rest).length < F.room := by
      have bound := after.length_le finite
      rw [List.length_append, List.length_singleton] at bound
      rw [List.length_cons]
      omega
    refine ⟨m', rest ++ [a], ?_, after, List.prefix_append _ _, fun _ => (marks a).mpr (.inr rfl)⟩
    rw [tryNode, tested, ok_bind, if_pos rfl]
    simp only [done, ok_bind, if_pos fits, lawful.store a there]
    rfl

theorem tryNodes_spec (grown : Grown F Good fg marked m₀ x m rest) {q : α} (way : Linked fg F.around x q) {as : List α}
    (near : ∀ a ∈ as, a ∈ F.around q) :
    ∃ m' rest', as.foldlM (tryNode F) (m, x :: rest) = .ok (m', x :: rest') ∧ Grown F Good fg marked m₀ x m' rest' ∧
      rest <+: rest' ∧ ∀ a ∈ as, fg a → marked m' a := by
  induction as generalizing m rest with
  | nil => exact ⟨m, rest, rfl, grown, List.prefix_rfl, fun a none => absurd none List.not_mem_nil⟩
  | cons a as ih =>
    obtain ⟨m₁, rest₁, done, grown₁, longer₁, first⟩ := tryNode_spec lawful finite room grown way (near a List.mem_cons_self)
    obtain ⟨m₂, rest₂, run, grown₂, longer₂, others⟩ := ih grown₁ fun b member => near b (List.mem_cons_of_mem a member)
    refine ⟨m₂, rest₂, (foldlM_cons_ok done).trans run, grown₂, longer₁.trans longer₂, ?_⟩
    intro b member there
    rcases List.mem_cons.mp member with rfl | later
    · exact grown₁.mono grown₂ longer₂ (first there)
    · exact others b later there

variable (note) in
theorem visits_spec (grown : Grown F Good fg marked m₀ x m rest) {qs : List α} (ways : ∀ q ∈ qs, Linked fg F.around x q)
    (box : τ) :
    ∃ m' rest', qs.foldlM (visit F note) ⟨m, x :: rest, box⟩ = .ok ⟨m', x :: rest', qs.foldl note box⟩ ∧
      Grown F Good fg marked m₀ x m' rest' ∧ rest <+: rest' ∧ Surrounded F fg marked m' qs := by
  induction qs generalizing m rest box with
  | nil => exact ⟨m, rest, rfl, grown, List.prefix_rfl, fun q none => absurd none List.not_mem_nil⟩
  | cons q qs ih =>
    obtain ⟨m₁, rest₁, run₁, grown₁, longer₁, first⟩ :=
      tryNodes_spec lawful finite room grown (ways q List.mem_cons_self) fun a near => near
    obtain ⟨m₂, rest₂, run₂, grown₂, longer₂, others⟩ :=
      ih grown₁ (fun p member => ways p (List.mem_cons_of_mem q member)) (note box q)
    have done : visit F note ⟨m, x :: rest, box⟩ q = .ok ⟨m₁, x :: rest₁, note box q⟩ := by
      rw [visit]
      simp only [run₁, ok_bind]
      rfl
    refine ⟨m₂, rest₂, (foldlM_cons_ok done).trans run₂, grown₂, longer₁.trans longer₂, ?_⟩
    intro p member a near there
    rcases List.mem_cons.mp member with rfl | later
    · exact grown₁.mono grown₂ longer₂ (first a near there)
    · exact others p later a near there

variable (note) in
/-- The rounds end, with every entry visited. -/
theorem rounds_spec (there : fg x) (box : τ) {budget processed : Nat} (grown : Grown F Good fg marked m₀ x m rest)
    (visited : Surrounded F fg marked m ((x :: rest).take processed)) (enough : nodes.card - rest.length < budget) :
    ∃ m' rest', rounds F note budget ⟨m, x :: rest, ((x :: rest).take processed).foldl note box⟩ processed =
        .ok ⟨m', x :: rest', (x :: rest').foldl note box⟩ ∧
      Grown F Good fg marked m₀ x m' rest' ∧ Surrounded F fg marked m' (x :: rest') := by
  induction budget generalizing m rest processed with
  | zero => omega
  | succ budget ih =>
    have ways : ∀ q ∈ (x :: rest).drop processed, Linked fg F.around x q := by
      intro q member
      rcases List.mem_cons.mp (List.mem_of_mem_drop member) with rfl | later
      · exact .refl there
      · exact grown.linked q later
    obtain ⟨m₁, rest₁, run, grown₁, longer, fresh⟩ :=
      visits_spec note lawful finite room grown ways (((x :: rest).take processed).foldl note box)
    rw [← List.foldl_append, List.take_append_drop] at run
    have all : Surrounded F fg marked m₁ (x :: rest) := by
      intro q member
      rw [← List.take_append_drop processed (x :: rest)] at member
      rcases List.mem_append.mp member with early | late
      · exact visited.mono grown grown₁ longer q early
      · exact fresh q late
    obtain ⟨more, rfl⟩ := longer
    have front : (x :: (rest ++ more)).take (x :: rest).length = x :: rest := List.take_left' rfl
    rw [rounds]
    simp only [run, ok_bind]
    by_cases grows : (x :: rest).length < (x :: (rest ++ more)).length
    · rw [if_pos grows]
      have bound := grown₁.length_le finite
      rw [List.length_cons, List.length_cons] at grows
      have start := @ih m₁ (rest ++ more) (x :: rest).length grown₁ (by rwa [front]) (by omega)
      rwa [front] at start
    · rw [if_neg grows]
      have none : more = [] := by
        rw [List.length_cons, List.length_cons, List.length_append] at grows
        exact List.eq_nil_of_length_eq_zero (by omega)
      subst none
      rw [List.append_nil] at grown₁ ⊢
      exact ⟨m₁, rest, rfl, grown₁, all⟩

variable (back : ∀ a b, b ∈ F.around a → a ∈ F.around b)

/-- What a search from `x` finds: the component of `x`, behind `x` itself each node once, and `x` if it has a
neighbour. -/
structure Found (fg : α → Prop) (around : α → List α) (x : α) (rest : List α) : Prop where
  distinct : rest.Nodup
  members : ∀ a, a ∈ x :: rest ↔ Linked fg around x a
  again : x ∈ rest ↔ ∃ a ∈ around x, fg a

omit lawful finite room in
/-- A start node that does not come again is alone. -/
theorem Found.alone {around : α → List α} (found : Found fg around x rest) (once : x ∉ rest) : rest = [] := by
  apply List.eq_nil_iff_forall_not_mem.mpr
  intro a member
  obtain ⟨_, way⟩ := (found.members a).mp (List.mem_cons_of_mem x member)
  rcases way.cases_head with same | ⟨b, first, _⟩
  · exact once (same ▸ member)
  · exact once (found.again.mpr ⟨b, first.2, first.1⟩)

omit lawful finite room in
/-- Behind the start node that comes again there is the component. -/
theorem Found.ncard {around : α → List α} (found : Found fg around x rest) (twice : x ∈ rest) :
    (component fg around x).ncard = rest.length := by
  classical
  have same : component fg around x = (rest.toFinset : Set α) := by
    ext a
    rw [List.coe_toFinset, component, Set.mem_ofPred_eq, Set.mem_ofPred_eq, ← found.members, List.mem_cons]
    exact or_iff_right_of_imp fun same => same ▸ twice
  rw [same, Set.ncard_coe_finset, List.toFinset_card_of_nodup found.distinct]

omit lawful finite room in
/-- Behind the start node there is at most one entry for each node. -/
theorem Found.length_le {around : α → List α} (found : Found fg around x rest) (few : {a | fg a}.Finite) :
    rest.length ≤ {a | fg a}.ncard := by
  classical
  rw [← List.toFinset_card_of_nodup found.distinct, ← Set.ncard_coe_finset]
  refine Set.ncard_le_ncard (fun a member => ?_) few
  exact ((found.members a).mp (List.mem_cons_of_mem x (List.mem_toFinset.mp member))).right

omit lawful finite room in
include back in
/-- An array without neighbours left is the component. -/
theorem Grown.found (grown : Grown F Good fg marked m₀ x m rest) (whole : Whole fg F.around (marked m₀)) (there : fg x)
    (unmarked : ¬ marked m₀ x) (all : Surrounded F fg marked m (x :: rest)) : Found fg F.around x rest := by
  have outside : ∀ a, Linked fg F.around x a → ¬ marked m₀ a := by
    intro a linked here
    exact unmarked (whole.linked here (linked.symm back))
  have next : ∀ q ∈ x :: rest, ∀ a ∈ F.around q, fg a → a ∈ rest := by
    intro q member a near fgA
    have way : Linked fg F.around x q := by
      rcases List.mem_cons.mp member with rfl | later
      · exact .refl there
      · exact grown.linked q later
    exact ((grown.marks a).mp (all q member a near fgA)).resolve_left (outside a (way.step fgA near))
  refine ⟨grown.distinct, fun a => ⟨?_, ?_⟩, ?_, ?_⟩
  · intro member
    rcases List.mem_cons.mp member with rfl | later
    · exact .refl there
    · exact grown.linked a later
  · rintro ⟨_, way⟩
    induction way with
    | refl => exact List.mem_cons_self
    | tail _ last ih => exact List.mem_cons_of_mem x (next _ ih _ last.2 last.1)
  · intro member
    obtain ⟨q, fgQ, near⟩ := grown.near x member
    exact ⟨q, back _ _ near, fgQ⟩
  · rintro ⟨a, near, fgA⟩
    have member := next x List.mem_cons_self a near fgA
    exact next a (List.mem_cons_of_mem x member) x (back _ _ near) there

variable (note) in
include back in
/-- **A search** ends with the component of its start node, and the marks stay whole components. -/
theorem search_spec (good : Good m₀) (whole : Whole fg F.around (marked m₀)) (there : fg x) (unmarked : ¬ marked m₀ x)
    (start : α → τ) {budget : Nat} (enough : nodes.card < budget) :
    ∃ m rest, search F note budget start m₀ x = .ok ⟨m, x :: rest, (x :: rest).foldl note (start x)⟩ ∧ Good m ∧
      Whole fg F.around (marked m) ∧ (∀ a, marked m a ↔ marked m₀ a ∨ a ∈ rest) ∧ Found fg F.around x rest := by
  have initial : Grown F Good fg marked m₀ x m₀ [] := ⟨good, List.nodup_nil, by simp, by simp, by simp, by simp⟩
  have none : Surrounded F fg marked m₀ ((x :: []).take 0) := fun q member => absurd member List.not_mem_nil
  obtain ⟨m, rest, run, grown, all⟩ :=
    rounds_spec note lawful finite room there (start x) initial none (Nat.lt_of_le_of_lt (Nat.sub_le _ _) enough)
  refine ⟨m, rest, ?_, grown.good, ⟨?_, ?_⟩, grown.marks, grown.found back whole there unmarked all⟩
  · rw [search, lawful.store x there]
    exact run
  · intro a here
    rcases (grown.marks a).mp here with before | now
    · exact whole.inside a before
    · exact (grown.linked a now).right
  · intro a b here fgB near
    rcases (grown.marks a).mp here with before | now
    · exact (grown.marks b).mpr (.inl (whole.closed a b before fgB near))
    · exact all a (List.mem_cons_of_mem x now) b near fgB

end

/-! ## Invariants of a search -/

section
variable {σ α τ ε : Type} {F : Searcher σ α ε} {note : τ → α → τ} (Inv : σ → List α → Prop)
  (each : ∀ m array a t, Inv m array → F.free m a = .ok true → F.mark m a = .ok t → Inv t (array ++ [F.store a]))

include each

theorem tryNode_invariant {v w : σ × List α} {a : α} (inv : Inv v.1 v.2) (done : tryNode F v a = .ok w) : Inv w.1 w.2 := by
  obtain ⟨b, free, done⟩ := bind_ok done
  cases b with
  | false =>
    cases done
    exact inv
  | true =>
    obtain ⟨t, mark, done⟩ := bind_ok done
    split at done
    · cases done
      exact each v.1 v.2 a t inv free mark
    · cases done

theorem visit_invariant {v w : Wave σ α τ} {q : α} (inv : Inv v.marks v.array) (done : visit F note v q = .ok w) :
    Inv w.marks w.array := by
  obtain ⟨u, tried, done⟩ := bind_ok done
  cases done
  exact foldlM_invariant (fun _ u => Inv u.1 u.2) (fun _ _ _ _ => tryNode_invariant Inv each) inv tried

theorem visits_invariant {v w : Wave σ α τ} {qs : List α} (inv : Inv v.marks v.array)
    (run : qs.foldlM (visit F note) v = .ok w) : Inv w.marks w.array :=
  foldlM_invariant (fun _ u => Inv u.marks u.array) (fun _ _ _ _ => visit_invariant Inv each) inv run

theorem rounds_invariant {budget processed : Nat} {v w : Wave σ α τ} (inv : Inv v.marks v.array)
    (run : rounds F note budget v processed = .ok w) : Inv w.marks w.array := by
  induction budget generalizing v processed with
  | zero => cases run
  | succ budget ih =>
    obtain ⟨u, pass, rest⟩ := bind_ok run
    have inv' := visits_invariant Inv each inv pass
    split at rest
    · exact ih inv' rest
    · cases rest
      exact inv'

end

section
variable {σ α τ ε : Type} {F : Searcher σ α ε} {note : τ → α → τ}

/-- What the mark of a free node keeps, a search keeps. -/
theorem search_keeps (Keep : σ → Prop)
    (each : ∀ m a t, Keep m → F.free m a = .ok true → F.mark m a = .ok t → Keep t) {budget : Nat} {start : α → τ} {m : σ}
    {x : α} {w : Wave σ α τ} (first : Keep m) (run : search F note budget start m x = .ok w) : Keep w.marks :=
  rounds_invariant (fun m _ => Keep m) (fun m _ a t keeps free mark => each m a t keeps free mark) first run

/-- The array of a search only gets longer. -/
theorem longer_each (array₀ : List α) (m : σ) (array : List α) (a : α) (t : σ) (longer : array₀ <+: array)
    (_ : F.free m a = .ok true) (_ : F.mark m a = .ok t) : array₀ <+: array ++ [F.store a] :=
  longer.trans (List.prefix_append _ _)

theorem visits_longer {v w : Wave σ α τ} {qs : List α} (run : qs.foldlM (visit F note) v = .ok w) : v.array <+: w.array :=
  visits_invariant (fun _ array => v.array <+: array) (longer_each v.array) List.prefix_rfl run

theorem rounds_longer {budget processed : Nat} {v w : Wave σ α τ} (run : rounds F note budget v processed = .ok w) :
    v.array <+: w.array :=
  rounds_invariant (fun _ array => v.array <+: array) (longer_each v.array) List.prefix_rfl run

end

/-! ## Searches that may fail -/

section
variable {σ α τ ε : Type} {F : Searcher σ α ε} {note : τ → α → τ}

/-- The entries of a list from some place on, and those that a longer one has behind it. -/
theorem forall_mem_drop {P : α → Prop} {l l' : List α} (longer : l <+: l') {n : Nat} (low : n ≤ l.length) :
    (∀ a ∈ l'.drop n, P a) ↔ (∀ a ∈ l.drop n, P a) ∧ ∀ a ∈ l'.drop l.length, P a := by
  obtain ⟨more, rfl⟩ := longer
  rw [List.drop_append_of_le_length low, List.drop_left, List.forall_mem_append]

variable {free : σ → α → Except ε Bool} {T : α → Prop}
  (guard : ∀ s a b, F.free s a = .ok b ↔ free s a = .ok b ∧ T a)

include guard

theorem tryNode_guarded (v w : σ × List α) (a : α) :
    tryNode F v a = .ok w ↔ tryNode { F with free := free } v a = .ok w ∧ T a := by
  rw [tryNode, tryNode, bind_ok_iff, bind_ok_iff]
  constructor
  · rintro ⟨b, tested, rest⟩
    obtain ⟨tested', there⟩ := (guard v.1 a b).mp tested
    exact ⟨⟨b, tested', rest⟩, there⟩
  · rintro ⟨⟨b, tested, rest⟩, there⟩
    exact ⟨b, (guard v.1 a b).mpr ⟨tested, there⟩, rest⟩

theorem visit_guarded (v w : Wave σ α τ) (q : α) :
    visit F note v q = .ok w ↔ visit { F with free := free } note v q = .ok w ∧ ∀ a ∈ F.around q, T a := by
  rw [visit, visit, bind_ok_iff, bind_ok_iff]
  constructor
  · rintro ⟨u, tried, rest⟩
    obtain ⟨tried', all⟩ := (foldlM_only_iff fun v a w => tryNode_guarded guard v w a).mp tried
    exact ⟨⟨u, tried', rest⟩, all⟩
  · rintro ⟨⟨u, tried, rest⟩, all⟩
    exact ⟨u, (foldlM_only_iff fun v a w => tryNode_guarded guard v w a).mpr ⟨tried, all⟩, rest⟩

theorem visits_guarded {v w : Wave σ α τ} {qs : List α} :
    qs.foldlM (visit F note) v = .ok w ↔
      qs.foldlM (visit { F with free := free } note) v = .ok w ∧ ∀ q ∈ qs, ∀ a ∈ F.around q, T a :=
  foldlM_only_iff fun v q w => visit_guarded guard v w q

theorem rounds_guarded {budget processed : Nat} {v w : Wave σ α τ} (low : processed ≤ v.array.length) :
    rounds F note budget v processed = .ok w ↔
      rounds { F with free := free } note budget v processed = .ok w ∧ ∀ q ∈ w.array.drop processed, ∀ a ∈ F.around q, T a := by
  induction budget generalizing v processed with
  | zero => exact iff_of_false nofun fun both => nomatch both.1
  | succ budget ih =>
    rw [rounds, rounds, bind_ok_iff, bind_ok_iff, ← exists_and_right]
    apply exists_congr
    intro u
    rw [visits_guarded guard, and_assoc, and_assoc]
    apply and_congr_right
    intro pass
    have longer := visits_longer pass
    by_cases grows : v.array.length < u.array.length
    · rw [if_pos grows, if_pos grows, ih longer.length_le]
      constructor
      · rintro ⟨early, rest, late⟩
        exact ⟨rest, (forall_mem_drop (longer.trans (rounds_longer rest)) low).mpr ⟨early, late⟩⟩
      · rintro ⟨rest, all⟩
        obtain ⟨early, late⟩ := (forall_mem_drop (longer.trans (rounds_longer rest)) low).mp all
        exact ⟨early, rest, late⟩
    · have same := longer.eq_of_length_le (Nat.le_of_not_lt grows)
      rw [if_neg grows, if_neg grows]
      constructor
      · rintro ⟨all, done⟩
        cases done
        exact ⟨rfl, same ▸ all⟩
      · rintro ⟨done, all⟩
        cases done
        exact ⟨same ▸ all, rfl⟩

/-- **A guarded search**: where the test succeeds for some nodes only, a search succeeds exactly if it visits the
neighbourhoods of none but these. -/
theorem search_guarded {budget : Nat} {start : α → τ} {m : σ} {x : α} {w : Wave σ α τ} :
    search F note budget start m x = .ok w ↔
      search { F with free := free } note budget start m x = .ok w ∧ ∀ q ∈ w.array, ∀ a ∈ F.around q, T a :=
  rounds_guarded guard (Nat.zero_le _)

end

/-! ## The scan -/

section
variable {α : Type} (fg : α → Prop) (around : α → List α)

open Classical in
/-- The places of the foreground with which a new component begins, given the places before. -/
noncomputable def leaders (earlier : List α) : List α → List α
  | [] => []
  | x :: xs =>
    if fg x ∧ ∀ q ∈ earlier, ¬ Linked fg around q x then x :: leaders (earlier ++ [x]) xs
    else leaders (earlier ++ [x]) xs

variable {fg around}

theorem mem_leaders {earlier xs : List α} {x : α} (leads : x ∈ leaders fg around earlier xs) : x ∈ xs ∧ fg x := by
  induction xs generalizing earlier with
  | nil => cases leads
  | cons y xs ih =>
    rw [leaders] at leads
    split at leads
    · next first =>
      rcases List.mem_cons.mp leads with rfl | leads
      · exact ⟨List.mem_cons_self, first.1⟩
      · exact ⟨List.mem_cons_of_mem y (ih leads).1, (ih leads).2⟩
    · exact ⟨List.mem_cons_of_mem y (ih leads).1, (ih leads).2⟩

/-- Each place of the foreground has a leader: among the places before or in the list. -/
theorem exists_leader {earlier xs : List α} {a : α} (member : a ∈ xs) (there : fg a) :
    (∃ q ∈ earlier, Linked fg around q a) ∨ ∃ x ∈ leaders fg around earlier xs, Linked fg around x a := by
  induction xs generalizing earlier with
  | nil => cases member
  | cons x xs ih =>
    have self : fg x → (∃ q ∈ earlier, Linked fg around q x) ∨ ∃ y ∈ leaders fg around earlier (x :: xs), Linked fg around y x := by
      intro fgX
      by_cases new : ∀ q ∈ earlier, ¬ Linked fg around q x
      · refine .inr ⟨x, ?_, .refl fgX⟩
        rw [leaders, if_pos ⟨fgX, new⟩]
        exact List.mem_cons_self
      · simp only [not_forall, not_not, exists_prop] at new
        exact .inl new
    rcases List.mem_cons.mp member with rfl | later
    · exact self there
    · rcases @ih (earlier ++ [x]) later with ⟨q, before, linked⟩ | ⟨y, leads, linked⟩
      · rcases List.mem_append.mp before with early | last
        · exact .inl ⟨q, early, linked⟩
        · rw [List.mem_singleton.mp last] at linked
          rcases self linked.left with ⟨q', early, first⟩ | ⟨y, leads, first⟩
          · exact .inl ⟨q', early, first.trans linked⟩
          · exact .inr ⟨y, leads, first.trans linked⟩
      · refine .inr ⟨y, ?_, linked⟩
        rw [leaders]
        split
        · exact List.mem_cons_of_mem x leads
        · exact leads

end

section
variable {σ α τ ε ρ : Type} {F : Searcher σ α ε} {Good : σ → Prop} {fg : α → Prop} {marked : σ → α → Prop}

/-- The marks after the places before: they are of components of these, and such a place is marked unless it is alone. -/
structure Scanned (F : Searcher σ α ε) (Good : σ → Prop) (fg : α → Prop) (marked : σ → α → Prop) (earlier : List α) (m : σ) :
    Prop where
  good : Good m
  whole : Whole fg F.around (marked m)
  origin : ∀ a, marked m a → ∃ q ∈ earlier, Linked fg F.around q a
  done : ∀ q ∈ earlier, ∀ a, Linked fg F.around q a → marked m a ∨ a = q

/-- What is handed on for a component. -/
def Reported (note : τ → α → τ) (start : α → τ) (fg : α → Prop) (around : α → List α) (x : α) (out : τ × Nat) : Prop :=
  ∃ rest, Found fg around x rest ∧ out = ((x :: rest).foldl note (start x), rest.length + 1)

theorem forall₂_mem_left {β : Type} {R : α → β → Prop} {xs : List α} {ys : List β} (both : List.Forall₂ R xs ys) {x : α}
    (member : x ∈ xs) : ∃ y ∈ ys, R x y := by
  induction both with
  | nil => cases member
  | cons first _ ih =>
    rcases List.mem_cons.mp member with rfl | later
    · exact ⟨_, List.mem_cons_self, first⟩
    · obtain ⟨y, there, related⟩ := ih later
      exact ⟨y, List.mem_cons_of_mem _ there, related⟩

theorem forall₂_mem_right {β : Type} {R : α → β → Prop} {xs : List α} {ys : List β} (both : List.Forall₂ R xs ys) {y : β}
    (member : y ∈ ys) : ∃ x ∈ xs, R x y := forall₂_mem_left (List.Forall₂.flip both) member

theorem forall₂_filter_length {β : Type} {R : α → β → Prop} {p : α → Bool} {q : β → Bool}
    (exact : ∀ x y, R x y → p x = q y) {xs : List α} {ys : List β} (both : List.Forall₂ R xs ys) :
    (xs.filter p).length = (ys.filter q).length := by
  induction both with
  | nil => rfl
  | @cons x y _ _ first _ ih =>
    have same := exact x y first
    by_cases kept : q y = true
    · rw [List.filter_cons_of_pos kept, List.filter_cons_of_pos (same.trans kept), List.length_cons, List.length_cons, ih]
    · rw [List.filter_cons_of_neg kept, List.filter_cons_of_neg (same ▸ kept), ih]

/-- A place is free exactly if it is not in the component of an earlier one. -/
theorem Scanned.free_iff {earlier : List α} {m : σ} (scanned : Scanned F Good fg marked earlier m) {x : α} (new : x ∉ earlier) :
    (fg x ∧ ¬ marked m x) ↔ fg x ∧ ∀ q ∈ earlier, ¬ Linked fg F.around q x := by
  apply and_congr_right
  intro there
  constructor
  · intro unmarked q early linked
    rcases scanned.done q early x linked with here | rfl
    · exact unmarked here
    · exact new early
  · intro apart here
    obtain ⟨q, early, linked⟩ := scanned.origin x here
    exact apart q early linked

/-- A place that is not free is passed over. -/
theorem Scanned.skip {earlier : List α} {m : σ} (scanned : Scanned F Good fg marked earlier m) {x : α}
    (taken : fg x → marked m x) : Scanned F Good fg marked (earlier ++ [x]) m := by
  refine ⟨scanned.good, scanned.whole, ?_, ?_⟩
  · intro a here
    obtain ⟨q, early, linked⟩ := scanned.origin a here
    exact ⟨q, List.mem_append_left _ early, linked⟩
  · intro q member a linked
    rcases List.mem_append.mp member with early | last
    · exact scanned.done q early a linked
    · rw [List.mem_singleton.mp last] at linked ⊢
      exact .inl (scanned.whole.linked (taken linked.left) linked)

/-- A search from a place marks its component. -/
theorem Scanned.search {earlier : List α} {m m' : σ} (scanned : Scanned F Good fg marked earlier m) {x : α} {rest : List α}
    (good : Good m') (whole : Whole fg F.around (marked m')) (marks : ∀ a, marked m' a ↔ marked m a ∨ a ∈ rest)
    (found : Found fg F.around x rest) : Scanned F Good fg marked (earlier ++ [x]) m' := by
  refine ⟨good, whole, ?_, ?_⟩
  · intro a here
    rcases (marks a).mp here with before | now
    · obtain ⟨q, early, linked⟩ := scanned.origin a before
      exact ⟨q, List.mem_append_left _ early, linked⟩
    · exact ⟨x, List.mem_append_right _ List.mem_cons_self, (found.members a).mp (List.mem_cons_of_mem x now)⟩
  · intro q member a linked
    rcases List.mem_append.mp member with early | last
    · exact (scanned.done q early a linked).imp_left fun here => (marks a).mpr (.inl here)
    · rw [List.mem_singleton.mp last] at linked ⊢
      rcases List.mem_cons.mp ((found.members a).mpr linked) with same | now
      · exact .inr same
      · exact .inl ((marks a).mpr (.inr now))

/-- **The scan**: what is handed on is about the components with one of the places, each once, in their order. -/
theorem scan_spec (note : τ → α → τ) (start : α → τ) (emit : ρ → τ × Nat → Except ε ρ) (lawful : F.Lawful Good fg marked)
    {nodes : Finset α} (finite : ∀ a, fg a → a ∈ nodes) (room : nodes.card < F.room)
    (back : ∀ a b, b ∈ F.around a → a ∈ F.around b) {budget : Nat} (enough : nodes.card < budget) {earlier xs : List α}
    (distinct : (earlier ++ xs).Nodup) {m : σ} (scanned : Scanned F Good fg marked earlier m) :
    ∃ outs m', List.Forall₂ (Reported note start fg F.around) (leaders fg F.around earlier xs) outs ∧
      Scanned F Good fg marked (earlier ++ xs) m' ∧
      ∀ r, xs.foldlM (scan F note budget start emit) (m, r) = outs.foldlM emit r >>= fun r' => .ok (m', r') := by
  induction xs generalizing earlier m with
  | nil =>
    refine ⟨[], m, .nil, by rwa [List.append_nil], fun r => rfl⟩
  | cons x xs ih =>
    rw [List.append_cons] at distinct
    have new : x ∉ earlier := by
      intro early
      have parts := (List.nodup_append.mp (List.nodup_append.mp distinct).1).2.2
      exact parts x early x List.mem_cons_self rfl
    obtain ⟨b, tested, free⟩ := lawful.free m x scanned.good
    have leads := free.trans (scanned.free_iff new)
    cases b with
    | false =>
      have taken : fg x → marked m x := by
        intro there
        by_contra unmarked
        exact Bool.false_ne_true (free.mpr ⟨there, unmarked⟩)
      obtain ⟨outs, m', reported, scanned', run⟩ := ih distinct (scanned.skip taken)
      rw [List.append_cons]
      refine ⟨outs, m', ?_, scanned', fun r => ?_⟩
      · rw [leaders, if_neg fun new => Bool.false_ne_true (leads.mpr new)]
        exact reported
      · rw [← run r]
        apply foldlM_cons_ok
        rw [scan, tested]
        rfl
    | true =>
      obtain ⟨there, unmarked⟩ := free.mp rfl
      obtain ⟨m₁, rest, run₁, good, whole, marks, found⟩ :=
        search_spec note lawful finite room back scanned.good scanned.whole there unmarked start enough
      obtain ⟨outs, m', reported, scanned', run⟩ := ih distinct (scanned.search good whole marks found)
      rw [List.append_cons]
      refine ⟨((x :: rest).foldl note (start x), rest.length + 1) :: outs, m', ?_, scanned', fun r => ?_⟩
      · rw [leaders, if_pos (leads.mp rfl)]
        exact .cons ⟨rest, found, rfl⟩ reported
      · rw [List.foldlM_cons, List.foldlM_cons, scan, tested, ok_bind, if_pos rfl, run₁]
        simp only [ok_bind, bind_assoc, pure_bind, run, List.length_cons]

end

end VideoDetector.Lib
