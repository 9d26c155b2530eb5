import VideoDetector.Common.ListOps
import VideoDetector.Lib.Runs

/-!
# Runs of list operations

The list as an abstract sequence with a selected position, and what a run of the operations does to
it. Two results:

* `list_implements_sequence`: when every deletion comes right after a seek, the list is the sequence;
* `cursor_safe_iff`: in a run of calls in any order the cursor stays in the chain exactly when no
  deletion finds it at the first or the last node, because only the branch for a node in the middle
  resets it.
-/

namespace VideoDetector.Common
set_option autoImplicit false
open Lib

section
variable {α β γ : Type}

/-! ## The abstract sequence -/

inductive Op (α β γ : Type) where
  | allocTail
  | seek (data : β)
  | delCur
  | operateAll (func : α → γ → α × γ) (arg : γ)

inductive Out (γ : Type) where
  | done
  | ret (value : Int)
  | arg (value : γ)
  deriving DecidableEq

/-- A sequence and the position that is selected in it. -/
structure Sequence (α : Type) where
  elems : List α
  selected : Option Nat

def Sequence.empty : Sequence α := ⟨[], none⟩

/-- What each operation is for. -/
def Sequence.step (zero : α) (dataMatch : α → β → Int) (q : Sequence α) : Op α β γ → Sequence α × Out γ
  | .allocTail => ({ q with elems := q.elems ++ [zero] }, .done)
  | .seek data =>
    ({ q with selected := q.elems.findIdx? (Matches dataMatch data) },
      .ret (((q.elems.find? (Matches dataMatch data)).map fun d => dataMatch d data).getD (-1)))
  | .delCur =>
    match q.selected with
    | some k => ({ elems := q.elems.eraseIdx k, selected := none }, .ret 0)
    | none => (q, .ret 1)
  | .operateAll func arg =>
    ({ q with elems := (visitAll func q.elems arg).1 }, .arg (visitAll func q.elems arg).2)

/-- The sequence after operations. -/
def Sequence.after (zero : α) (dataMatch : α → β → Int) (ops : List (Op α β γ)) : Sequence α :=
  ops.foldl (fun q op => (q.step zero dataMatch op).1) .empty

/-- The operation of the code. -/
def listStep (malloc : Malloc α) (zero : α) (dataMatch : α → β → Int) (s : ListInfo α) :
    Op α β γ → Except Fault (ListInfo α × Out γ)
  | .allocTail => (listNodeAllocTail malloc zero s).map fun s => (s, .done)
  | .seek data => (listNodeSeek dataMatch s data).map fun (s, ret) => (s, .ret ret)
  | .delCur => (listNodeDelCur s).map fun (s, ret) => (s, .ret ret)
  | .operateAll func arg => (listOperateNodeAll func s arg).map fun (s, arg) => (s, .arg arg)

/-- The node chain is a sequence: the links of both directions lead through its elements, the outer
links are `NULL`, and the cursor is at the selected one. -/
def Represents (s : ListInfo α) (q : Sequence α) : Prop :=
  ∃ xs : List (Ptr × α), xs.map Prod.snd = q.elems ∧ (xs.map Prod.fst).Nodup ∧
    Follows Node.next s.heap s.head xs ∧ Follows Node.pre s.heap s.tail xs.reverse ∧
    (∀ node, s.heap.lookup s.head = some node → xs ≠ [] → node.pre = null) ∧
    (∀ node, s.heap.lookup s.tail = some node → xs ≠ [] → node.next = null) ∧
    s.number = xs.length ∧ ∀ k, q.selected = some k → ∃ x, xs[k]? = some x ∧ s.cur = x.1

/-! ## The simulation -/

/-- The list, the abstract sequence and the operations so far. -/
structure Sim (before : List (Op α β γ)) (s : ListInfo α) (q : Sequence α) (xs : List (Ptr × α)) : Prop where
  repr : Repr s xs
  elems : xs.map Prod.snd = q.elems
  selected : ∀ k, q.selected = some k → ∃ x, xs[k]? = some x ∧ s.cur = x.1
  nothing : (∃ data, before.getLast? = some (.seek data)) → q.selected = none → s.cur = null

theorem Sim.represents {before : List (Op α β γ)} {s : ListInfo α} {q : Sequence α} {xs : List (Ptr × α)}
    (sim : Sim before s q xs) : Represents s q := by
  obtain ⟨repr, elems, selected, _⟩ := sim
  refine ⟨xs, elems, repr.distinct, ?_, ?_, ?_, ?_, repr.number, selected⟩
  · rw [repr.head]
    exact chain_follows_next repr.chain repr.nonNull
  · rw [repr.tail]
    exact chain_follows_pre repr.chain repr.nonNull
  · intro node found nonempty
    obtain ⟨x, ys, rfl⟩ := List.exists_cons_of_ne_nil nonempty
    rw [repr.head, firstOf_cons, chain_first repr.chain] at found
    cases found
    rfl
  · intro node found nonempty
    obtain ⟨ys, y, rfl⟩ := (List.eq_nil_or_concat' xs).resolve_left nonempty
    rw [repr.tail, lastOf_append, lastOf_cons, lastOf_nil, chain_last repr.chain] at found
    cases found
    rfl

variable (malloc : Malloc α) (zero : α) (dataMatch : α → β → Int)

/-- The next operation is served as the sequence serves it. -/
def Served (before : List (Op α β γ)) (s : ListInfo α) (q : Sequence α) (op : Op α β γ) : Prop :=
  ∃ o, listStep malloc zero dataMatch s op = .ok o ∧ o.2 = (q.step zero dataMatch op).2 ∧
    ∃ ys, Sim (before ++ [op]) o.1 (q.step zero dataMatch op).1 ys

theorem served_allocTail {before : List (Op α β γ)} {s : ListInfo α} {q : Sequence α} {xs : List (Ptr × α)}
    (sim : Sim before s q xs) : Served malloc zero dataMatch before s q .allocTail := by
  obtain ⟨s', p, done, repr, cur⟩ := allocTail_spec malloc zero sim.repr
  refine ⟨(s', .done), ?_, rfl, xs ++ [(p, zero)], repr, ?_, ?_, ?_⟩
  · rw [listStep, done]
    rfl
  · rw [List.map_append, sim.elems]
    rfl
  · intro k selected
    obtain ⟨x, there, here⟩ := sim.selected k selected
    obtain ⟨inside, _⟩ := List.getElem?_eq_some_iff.mp there
    exact ⟨x, by rw [List.getElem?_append_left inside, there], cur.trans here⟩
  · rintro ⟨data, last⟩
    simp at last

theorem served_seek (data : β) {before : List (Op α β γ)} {s : ListInfo α} {q : Sequence α} {xs : List (Ptr × α)}
    (sim : Sim before s q xs) : Served malloc zero dataMatch before s q (.seek data) := by
  have spec := seek_spec dataMatch data sim.repr
  have value : q.elems.find? (Matches dataMatch data) =
      (xs.find? fun x => Matches dataMatch data x.2).map Prod.snd := by
    rw [← sim.elems, List.find?_map]
    rfl
  have position : q.elems.findIdx? (Matches dataMatch data) = xs.findIdx? fun x => Matches dataMatch data x.2 := by
    rw [← sim.elems, List.findIdx?_map]
    rfl
  have pair : (xs.find? fun x => Matches dataMatch data x.2) =
      (xs.findIdx? fun x => Matches dataMatch data x.2).bind fun k => xs[k]? := List.find?_eq_bind_findIdx?_getElem?
  simp only [Served, listStep, Sequence.step]
  rw [spec, value, position]
  cases there : xs.findIdx? fun x => Matches dataMatch data x.2 with
  | none =>
    rw [there] at pair
    rw [pair]
    exact ⟨_, rfl, rfl, xs, sim.repr.setCur null, sim.elems, fun k found => by simp at found, fun _ _ => rfl⟩
  | some k =>
    obtain ⟨inside, _⟩ := List.findIdx?_eq_some_iff_getElem.mp there
    rw [there, Option.bind_some, List.getElem?_eq_getElem inside] at pair
    rw [pair]
    refine ⟨_, rfl, rfl, xs, sim.repr.setCur xs[k].1, sim.elems, ?_, fun _ none => by simp at none⟩
    intro k' found
    cases found
    exact ⟨xs[k], List.getElem?_eq_getElem inside, rfl⟩

theorem served_delCur {before : List (Op α β γ)} {s : ListInfo α} {q : Sequence α} {xs : List (Ptr × α)}
    (sim : Sim before s q xs) (sought : ∃ data, before.getLast? = some (.seek data)) : Served malloc zero dataMatch before s q .delCur := by
  have notSeek : ¬ ∃ data, (before ++ [(.delCur : Op α β γ)]).getLast? = some (.seek data) := by simp
  simp only [Served, listStep, Sequence.step]
  cases selected : q.selected with
  | none =>
    have cur := sim.nothing sought selected
    rw [delCur_null cur]
    refine ⟨_, rfl, rfl, xs, sim.repr, sim.elems, sim.selected, fun last => absurd last notSeek⟩
  | some k =>
    obtain ⟨x, there, cur⟩ := sim.selected k selected
    obtain ⟨inside, same⟩ := List.getElem?_eq_some_iff.mp there
    have split : xs = xs.take k ++ (x.1, x.2) :: xs.drop (k + 1) := by
      have cut := List.take_append_drop k xs
      rw [List.drop_eq_getElem_cons inside, same] at cut
      exact cut.symm
    have repr := sim.repr
    rw [split] at repr
    obtain ⟨s', done, repr', _⟩ := delCur_spec repr cur
    rw [done]
    refine ⟨_, rfl, rfl, xs.take k ++ xs.drop (k + 1), repr', ?_, fun k found => by simp at found,
      fun last => absurd last notSeek⟩
    rw [← List.eraseIdx_eq_take_drop_succ, ← List.eraseIdx_map, sim.elems]

theorem served_operateAll (func : α → γ → α × γ) (arg : γ) {before : List (Op α β γ)} {s : ListInfo α} {q : Sequence α} {xs : List (Ptr × α)}
    (sim : Sim before s q xs) : Served malloc zero dataMatch before s q (.operateAll func arg) := by
  obtain ⟨s', ys, done, addresses, data, repr, cur⟩ := operateAll_spec func sim.repr arg
  rw [sim.elems] at done data
  refine ⟨(s', _), ?_, rfl, ys, repr, data, ?_, ?_⟩
  · rw [listStep, done]
    rfl
  · intro k selected
    obtain ⟨x, there, here⟩ := sim.selected k selected
    have address : (ys.map Prod.fst)[k]? = some x.1 := by rw [addresses, List.getElem?_map, there]; rfl
    rw [List.getElem?_map] at address
    obtain ⟨y, there', same⟩ := Option.map_eq_some_iff.mp address
    exact ⟨y, there', (cur.trans here).trans same.symm⟩
  · rintro ⟨data, last⟩
    simp at last

/-! ## Whole runs -/

/-- **The list implements a sequence.** If every deletion comes right after a seek, a run of operations
on a new list succeeds, answers as the sequence does, and the node chain represents the sequence after
every step; after a seek that found nothing, nothing is selected in the list either. -/
theorem list_implements_sequence (heap : Heap α) (mallocs : Nat) (ops : List (Op α β γ))
    (sought : ∀ before after, ops = before ++ .delCur :: after → ∃ data, before.getLast? = some (.seek data)) :
    Represents (newList heap mallocs) Sequence.empty ∧
      ∃ t outs, serveAll (listStep malloc zero dataMatch) Prod.fst (newList heap mallocs) ops = .ok (t, outs) ∧
        outs.length = ops.length ∧
        ∀ i op s out, ops[i]? = some op → outs[i]? = some (s, out) →
          out = ((Sequence.after zero dataMatch (ops.take i)).step zero dataMatch op).2 ∧
          Represents s (Sequence.after zero dataMatch (ops.take (i + 1))) ∧
          ((∃ data, op = .seek data) → (Sequence.after zero dataMatch (ops.take (i + 1))).selected = none →
            s.cur = null) := by
  have initial : Sim ([] : List (Op α β γ)) (newList heap mallocs) Sequence.empty [] :=
    ⟨newList_repr heap mallocs, rfl, fun k selected => by simp [Sequence.empty] at selected, fun _ _ => rfl⟩
  have each : ∀ (before : List (Op α β γ)) op s q, (op = .delCur → ∃ data, before.getLast? = some (.seek data)) →
      (∃ xs, Sim before s q xs) → Served malloc zero dataMatch before s q op := by
    rintro before op s q occurs ⟨xs, sim⟩
    cases op with
    | allocTail => exact served_allocTail malloc zero dataMatch sim
    | seek data => exact served_seek malloc zero dataMatch data sim
    | delCur => exact served_delCur malloc zero dataMatch sim (occurs rfl)
    | operateAll func arg => exact served_operateAll malloc zero dataMatch func arg sim
  have occur : ∀ i op, ops[i]? = some op → op = .delCur → ∃ data, ([] ++ ops.take i).getLast? = some (.seek data) := by
    rintro i op there rfl
    obtain ⟨inside, same⟩ := List.getElem?_eq_some_iff.mp there
    apply sought (ops.take i) (ops.drop (i + 1))
    rw [← same, ← List.drop_eq_getElem_cons inside, List.take_append_drop]
  obtain ⟨t, outs, run, length, all⟩ := serveAll_simulates each [] occur ⟨[], initial⟩
  refine ⟨initial.represents, t, outs, run, length, fun i op s out there here => ?_⟩
  obtain ⟨same, xs, sim⟩ := all i op (s, out) there here
  refine ⟨same, sim.represents, ?_⟩
  rintro ⟨data, rfl⟩ selected
  refine sim.nothing ⟨data, ?_⟩ selected
  rw [List.nil_append, List.take_add_one, there]
  simp

/-- A match function on numbers. -/
def equalMatch (d data : Nat) : Int := if d = data then 0 else -1

theorem list_implements_sequence_head :
    ∃ t outs, serveAll (listStep (bumpMalloc Nat) 0 equalMatch) Prod.fst (newList ∅ 0)
        ([.allocTail, .allocTail, .seek 0, .delCur] : List (Op Nat Nat Unit)) = .ok (t, outs) ∧
      ∀ s out, outs[3]? = some (s, out) → out = .ret 0 ∧ Represents s ⟨[0], none⟩ := by
  have sought : ∀ before after,
      ([.allocTail, .allocTail, .seek 0, .delCur] : List (Op Nat Nat Unit)) = before ++ .delCur :: after →
        ∃ data, before.getLast? = some (.seek data) := by
    intro before after split
    rcases before with _ | ⟨a, _ | ⟨b, _ | ⟨c, _ | ⟨d, before⟩⟩⟩⟩ <;> simp at split
    exact ⟨0, by simp [← split.2.2.1]⟩
  obtain ⟨_, t, outs, run, _, all⟩ := list_implements_sequence (bumpMalloc Nat) 0 equalMatch ∅ 0 _ sought
  refine ⟨t, outs, run, fun s out here => ?_⟩
  obtain ⟨same, represents, _⟩ := all 3 _ s out rfl here
  exact ⟨same, represents⟩

/-! ## Calls in any order -/

inductive Call (α β γ : Type) where
  | newList
  | op (op : Op α β γ)
  | getCurrentData

/-- One call of a program; after an access to a bad address there is no program left. -/
def call : Except Fault (ListInfo α) → Call α β γ → Except Fault (ListInfo α)
  | .error fault, _ => .error fault
  | .ok s, .newList => .ok (newList s.heap s.mallocs)
  | .ok s, .op op => (listStep malloc zero dataMatch s op).map Prod.fst
  | .ok s, .getCurrentData => (listGetCurrentData s).map fun _ => s

/-- The cursor is `NULL` or at a node of the chain, and `number` counts the chain. -/
def CursorSafe (s : ListInfo α) : Prop :=
  ∃ xs : List (Ptr × α), Follows Node.next s.heap s.head xs ∧ s.number = xs.length ∧
    (s.cur = null ∨ s.cur ∈ xs.map Prod.fst)

/-- A call leaves the cursor safe, and a deletion touches no freed node. -/
def SafeCall (x : Except Fault (ListInfo α)) (c : Call α β γ) : Prop :=
  ∀ s, x = .ok s → (c = .op .delCur → ∃ t, call malloc zero dataMatch (.ok s) c = .ok t) ∧
    ∀ t, call malloc zero dataMatch (.ok s) c = .ok t → CursorSafe t

/-- The call is no deletion at the first or the last node. -/
def DeletesInside (x : Except Fault (ListInfo α)) (c : Call α β γ) : Prop :=
  ∀ s, x = .ok s → c = .op .delCur → s.cur = null ∨ s.cur ≠ s.head ∧ s.cur ≠ s.tail

/-- The cursor is in the chain that the list represents. -/
def CursorIn (s : ListInfo α) : Prop :=
  ∃ xs, Repr s xs ∧ (s.cur = null ∨ s.cur ∈ xs.map Prod.fst)

theorem CursorIn.safe {s : ListInfo α} (inside : CursorIn s) : CursorSafe s := by
  obtain ⟨xs, repr, cur⟩ := inside
  refine ⟨xs, ?_, repr.number, cur⟩
  rw [repr.head]
  exact chain_follows_next repr.chain repr.nonNull

theorem CursorSafe.inside {s : ListInfo α} {xs : List (Ptr × α)} (repr : Repr s xs) (safe : CursorSafe s) :
    s.cur = null ∨ s.cur ∈ xs.map Prod.fst := by
  obtain ⟨ys, follows, _, cur⟩ := safe
  have follows' := chain_follows_next repr.chain repr.nonNull
  rw [← repr.head] at follows'
  rwa [follows_unique follows' follows]

/-- **A deletion never faults, and it leaves the cursor in the chain exactly when it found it neither
at the first nor at the last node.** -/
theorem delCur_cursor {s : ListInfo α} (inside : CursorIn s) :
    ∃ t ret, listNodeDelCur s = .ok (t, ret) ∧
      ((s.cur = null ∨ s.cur ≠ s.head ∧ s.cur ≠ s.tail) → CursorIn t) ∧
      (CursorSafe t → s.cur = null ∨ s.cur ≠ s.head ∧ s.cur ≠ s.tail) := by
  obtain ⟨xs, repr, cur | member⟩ := inside
  · exact ⟨s, 1, delCur_null cur, fun _ => ⟨xs, repr, .inl cur⟩, fun _ => .inl cur⟩
  · obtain ⟨⟨p, d⟩, listed, here⟩ := List.mem_map.mp member
    obtain ⟨before, behind, rfl⟩ := List.append_of_mem listed
    obtain ⟨t, done, repr', cur'⟩ := delCur_spec repr here.symm
    have nonNull : s.cur ≠ null := here ▸ repr.nonNull (p, d) listed
    obtain ⟨outsideX, outsideY, _⟩ := distinct_middle repr.distinct
    have exact : (s.cur = null ∨ s.cur ≠ s.head ∧ s.cur ≠ s.tail) ↔ ¬(before = [] ∨ behind = []) := by
      rw [← here, repr.eq_head_iff.ne, repr.eq_tail_iff.ne, not_or]
      exact or_iff_right (here ▸ nonNull)
    refine ⟨t, 0, done, fun middle => ⟨before ++ behind, repr', .inl ?_⟩, fun safe => exact.mpr fun atEnd => ?_⟩
    · rw [cur', cursorAfter, if_neg (exact.mp middle)]
    · rw [cursorAfter, if_pos atEnd] at cur'
      rcases CursorSafe.inside repr' safe with isNull | still
      · exact nonNull (here ▸ cur'.symm.trans isNull)
      · rw [cur', List.map_append, List.mem_append] at still
        exact still.elim outsideX outsideY

/-- Calls other than a deletion leave the cursor in the chain. -/
theorem call_cursor {s t : ListInfo α} {c : Call α β γ} (inside : CursorIn s) (other : c ≠ .op .delCur)
    (done : call malloc zero dataMatch (.ok s) c = .ok t) : CursorIn t := by
  obtain ⟨xs, repr, cur⟩ := inside
  cases c with
  | newList =>
    cases done
    exact ⟨[], newList_repr s.heap s.mallocs, .inl rfl⟩
  | getCurrentData =>
    obtain ⟨d, data, same⟩ := bind_ok done
    cases same
    exact ⟨xs, repr, cur⟩
  | op op =>
    cases op with
    | delCur => exact absurd rfl other
    | allocTail =>
      obtain ⟨s', p, allocated, repr', same⟩ := allocTail_spec malloc zero repr
      simp only [call, listStep, allocated] at done
      cases done
      refine ⟨_, repr', ?_⟩
      rw [same, List.map_append, List.mem_append]
      exact cur.imp id .inl
    | seek data =>
      simp only [call, listStep, seek_spec dataMatch data repr] at done
      cases found : xs.find? fun x => Matches dataMatch data x.2 with
      | none =>
        rw [found] at done
        cases done
        exact ⟨xs, repr.setCur null, .inl rfl⟩
      | some x =>
        rw [found] at done
        cases done
        exact ⟨xs, repr.setCur x.1, .inr (List.mem_map_of_mem (List.mem_of_find?_eq_some found))⟩
    | operateAll func arg =>
      obtain ⟨s', ys, visited, addresses, _, repr', same⟩ := operateAll_spec func repr arg
      simp only [call, listStep, visited] at done
      cases done
      refine ⟨ys, repr', ?_⟩
      rw [same, addresses]
      exact cur

/-- **When the cursor is safe.** After each call of a run the cursor is in the chain and no deletion
touches a freed node, exactly when no deletion finds the cursor at the first or the last node. -/
theorem cursor_safe_iff (heap : Heap α) (mallocs : Nat) (calls : List (Call α β γ)) :
    (∀ before c after, calls = before ++ c :: after →
      SafeCall malloc zero dataMatch (before.foldl (call malloc zero dataMatch) (.ok (newList heap mallocs))) c) ↔
      ∀ before c after, calls = before ++ c :: after →
        DeletesInside (before.foldl (call malloc zero dataMatch) (.ok (newList heap mallocs))) c := by
  apply foldl_iff (fun _ (x : Except Fault (ListInfo α)) => ∀ s, x = .ok s → CursorIn s)
    (fun _ => SafeCall malloc zero dataMatch) fun _ => DeletesInside
  · rintro before (fault | s) c inv cond t reached
    · cases reached
    · by_cases deletes : c = .op .delCur
      · subst deletes
        obtain ⟨t', ret, done, kept, _⟩ := delCur_cursor (inv s rfl)
        simp only [call, listStep, done] at reached
        cases reached
        exact kept (cond s rfl rfl)
      · exact call_cursor malloc zero dataMatch (inv s rfl) deletes reached
  · rintro before x c inv
    refine forall_congr' fun s => forall_congr' fun running => ?_
    by_cases deletes : c = .op .delCur
    · subst deletes
      obtain ⟨t, ret, done, kept, safe⟩ := delCur_cursor (inv s running)
      have result : call malloc zero dataMatch (.ok s) (.op .delCur : Call α β γ) = .ok t := by
        simp only [call, listStep, done]
        rfl
      constructor
      · exact fun ⟨_, all⟩ _ => safe (all t result)
      · refine fun cond => ⟨fun _ => ⟨t, result⟩, fun t' reached => ?_⟩
        cases result.symm.trans reached
        exact (kept (cond rfl)).safe
    · refine ⟨fun _ del => absurd del deletes, fun _ => ⟨fun del => absurd del deletes, fun t reached => ?_⟩⟩
      exact (call_cursor malloc zero dataMatch (inv s running) deletes reached).safe
  · rintro s initial
    cases initial
    exact ⟨[], newList_repr heap mallocs, .inl rfl⟩

/-- Two elements, and the first one deleted twice after one seek. -/
def deleteTwice : List (Call Nat Nat Unit) :=
  [.op .allocTail, .op .allocTail, .op (.seek 0), .op .delCur, .op .delCur]

/-- The second of two deletions in a row reads the node that the first one freed. -/
theorem delete_twice_faults :
    deleteTwice.foldl (call (bumpMalloc Nat) 0 equalMatch) (.ok (newList ∅ 0)) = .error (.badAddress 1) ∧
      ¬ ∀ before c after, deleteTwice = before ++ c :: after →
        SafeCall (bumpMalloc Nat) 0 equalMatch
          (before.foldl (call (bumpMalloc Nat) 0 equalMatch) (.ok (newList ∅ 0))) c := by
  refine ⟨rfl, fun safe => ?_⟩
  obtain ⟨touches, _⟩ := safe (deleteTwice.take 4) (.op .delCur) [] rfl _ rfl
  obtain ⟨t, done⟩ := touches rfl
  cases done

end

end VideoDetector.Common
