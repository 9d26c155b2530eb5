import VideoDetector.Common.LinkedList

/-!
# What the list operations do

One lemma for each operation of the linked list: it succeeds on a list that represents a sequence, and
its result represents the sequence the operation is meant to produce. The four branches of
`list_node_del_cur` are the four ways in which a node can lie between its neighbours.
-/

namespace VideoDetector.Common
set_option autoImplicit false
open Lib

section
variable {α β γ : Type}

theorem Repr.head_ne_null {s : ListInfo α} {xs : List (Ptr × α)} (repr : Repr s xs) (nonempty : xs ≠ []) :
    s.head ≠ null := by
  rw [repr.head]
  cases xs with
  | nil => exact absurd rfl nonempty
  | cons x xs => exact repr.nonNull x List.mem_cons_self

/-- A list may be looked at with another cursor. -/
theorem Repr.setCur {s : ListInfo α} {xs : List (Ptr × α)} (repr : Repr s xs) (cur : Ptr) :
    Repr { s with cur := cur } xs :=
  ⟨repr.chain, repr.distinct, repr.nonNull, repr.head, repr.tail, repr.number⟩

/-! ## Appending -/

/-- A new address makes the addresses of a longer list. -/
theorem distinct_snoc {xs : List (Ptr × α)} (distinct : (xs.map Prod.fst).Nodup) {p : Ptr}
    (outside : p ∉ xs.map Prod.fst) (d : α) : ((xs ++ [(p, d)]).map Prod.fst).Nodup := by
  rw [List.map_append, List.nodup_append]
  refine ⟨distinct, List.nodup_singleton p, ?_⟩
  rintro a member b single rfl
  rw [List.mem_singleton.mp single] at member
  exact outside member

theorem distinct_last {xs : List (Ptr × α)} {x : Ptr × α} (distinct : ((xs ++ [x]).map Prod.fst).Nodup) :
    x.1 ∉ xs.map Prod.fst := by
  rw [List.map_append, List.nodup_append] at distinct
  exact fun member => distinct.2.2 _ member _ List.mem_cons_self rfl

/-- The heap after a node was appended behind the last one. -/
theorem chain_snoc {h : Heap α} {ys : List (Ptr × α)} {y : Ptr × α} {p : Ptr} (chain : Chain h null (ys ++ [y]) null)
    (distinct : ((ys ++ [y]).map Prod.fst).Nodup) (outside : p ∉ (ys ++ [y]).map Prod.fst) (zero : α) :
    Chain ((h.insert p ⟨null, y.1, zero⟩).insert y.1 ⟨p, lastOf null ys, y.2⟩) null (ys ++ [y] ++ [(p, zero)]) null := by
  have apart : p ≠ y.1 := by
    rintro rfl
    exact outside (by simp)
  have linked := chain_relink_next (chain_insert ⟨null, y.1, zero⟩ chain outside) (distinct_last distinct) p
  rw [chain_append]
  refine ⟨linked, ?_, trivial⟩
  rw [Finmap.lookup_insert_of_ne _ apart, Finmap.lookup_insert, lastOf_append]
  rfl

/-- **`list_node_alloc_tail` appends a zeroed element.** -/
theorem allocTail_spec (malloc : Malloc α) (zero : α) {s : ListInfo α} {xs : List (Ptr × α)} (repr : Repr s xs) :
    ∃ s' p, listNodeAllocTail malloc zero s = .ok s' ∧ Repr s' (xs ++ [(p, zero)]) ∧ s'.cur = s.cur := by
  have fresh := malloc.fresh s.mallocs s.heap
  have nonNull := malloc.nonNull s.mallocs s.heap
  unfold listNodeAllocTail linkTail
  generalize malloc.pick s.mallocs s.heap = p at *
  have outside : p ∉ xs.map Prod.fst := fun member => fresh (repr.used member)
  have distinct := distinct_snoc repr.distinct outside zero
  have nonNulls : ∀ x ∈ xs ++ [(p, zero)], x.1 ≠ null := by
    intro x member
    rcases List.mem_append.mp member with old | new
    · exact repr.nonNull x old
    · rw [List.mem_singleton.mp new]
      exact nonNull
  have number : s.number + 1 = ((xs ++ [(p, zero)]).length : Int) := by
    rw [repr.number, List.length_append]
    rfl
  rcases List.eq_nil_or_concat' xs with rfl | ⟨ys, y, rfl⟩
  · have empty : s.head = null := repr.head
    rw [if_neg (not_not_intro empty)]
    refine ⟨_, p, rfl, ⟨?_, distinct, nonNulls, rfl, rfl, number⟩, rfl⟩
    exact ⟨Finmap.lookup_insert s.heap, trivial⟩
  · have last : s.tail = y.1 := by
      rw [repr.tail, lastOf_append]
      rfl
    have stored := chain_last (chain_insert ⟨null, y.1, zero⟩ repr.chain outside)
    rw [if_pos (repr.head_ne_null (by simp)), last, setNext_ok stored, ok_bind, load_ok (Finmap.lookup_insert _)]
    refine ⟨_, p, rfl, ⟨chain_snoc repr.chain repr.distinct outside zero, distinct, nonNulls, ?_, ?_, number⟩, rfl⟩
    · exact repr.head.trans (by cases ys <;> rfl)
    · simp

/-! ## Seeking -/

/-- What `list_node_seek` looks for. -/
def Matches (dataMatch : α → β → Int) (data : β) (d : α) : Bool := 0 ≤ dataMatch d data

theorem seekLoop_spec (dataMatch : α → β → Int) (data : β) {s : ListInfo α} {pre : Ptr} {ys : List (Ptr × α)}
    {budget : Nat} (chain : Chain s.heap pre ys null) (nonNull : ∀ y ∈ ys, y.1 ≠ null) (enough : ys.length < budget)
    (cur : s.cur = firstOf ys null) :
    seekLoop dataMatch data budget s =
      match ys.find? fun y => Matches dataMatch data y.2 with
      | some y => .ok ({ s with cur := y.1 }, dataMatch y.2 data)
      | none => .ok ({ s with cur := null }, -1) := by
  induction ys generalizing s pre budget with
  | nil =>
    obtain ⟨budget, rfl⟩ := Nat.exists_eq_succ_of_ne_zero (Nat.ne_of_gt enough)
    have ended : s.cur = null := cur
    rw [seekLoop, if_neg (not_not_intro ended)]
    cases s
    cases ended
    rfl
  | cons y ys ih =>
    obtain ⟨budget, rfl⟩ := Nat.exists_eq_succ_of_ne_zero (Nat.ne_of_gt (Nat.zero_lt_of_lt enough))
    have here : s.cur = y.1 := cur
    have inside : s.cur ≠ null := here ▸ nonNull y List.mem_cons_self
    rw [seekLoop, if_pos inside, here, load_ok (chain_first chain), ok_bind, List.find?_cons]
    by_cases found : 0 ≤ dataMatch y.2 data
    · rw [if_pos found]
      simp only [Matches, found, decide_true]
      cases s
      cases here
      rfl
    · rw [if_neg found]
      simp only [Matches, found, decide_false]
      exact ih chain.2 (fun z member => nonNull z (List.mem_cons_of_mem y member)) (Nat.lt_of_succ_lt_succ enough) rfl

/-- **`list_node_seek` selects the first element that matches.** -/
theorem seek_spec (dataMatch : α → β → Int) (data : β) {s : ListInfo α} {xs : List (Ptr × α)} (repr : Repr s xs) :
    listNodeSeek dataMatch s data =
      match xs.find? fun x => Matches dataMatch data x.2 with
      | some x => .ok ({ s with cur := x.1 }, dataMatch x.2 data)
      | none => .ok ({ s with cur := null }, -1) := by
  unfold listNodeSeek
  exact seekLoop_spec dataMatch data (s := { s with cur := s.head }) repr.chain repr.nonNull
    (Nat.lt_succ_of_le repr.length_le) repr.head

/-! ## Deleting -/

/-- The addresses around a node. -/
theorem distinct_middle {xs ys : List (Ptr × α)} {p : Ptr} {d : α}
    (distinct : ((xs ++ (p, d) :: ys).map Prod.fst).Nodup) :
    p ∉ xs.map Prod.fst ∧ p ∉ ys.map Prod.fst ∧ ((xs ++ ys).map Prod.fst).Nodup := by
  rw [List.map_append, List.map_cons, List.nodup_middle, ← List.map_append] at distinct
  obtain ⟨outside, rest⟩ := List.nodup_cons.mp distinct
  rw [List.map_append, List.mem_append, not_or] at outside
  exact ⟨outside.1, outside.2, rest⟩

/-- What is left to show when a node was taken out. -/
theorem Repr.remove {s s' : ListInfo α} {xs ys : List (Ptr × α)} {p : Ptr} {d : α}
    (repr : Repr s (xs ++ (p, d) :: ys)) (chain : Chain s'.heap null (xs ++ ys) null)
    (head : s'.head = firstOf (xs ++ ys) null) (tail : s'.tail = lastOf null (xs ++ ys))
    (number : s'.number = s.number - 1) : Repr s' (xs ++ ys) := by
  refine ⟨chain, (distinct_middle repr.distinct).2.2, fun x member => repr.nonNull x ?_, head, tail, ?_⟩
  · rcases List.mem_append.mp member with before | behind
    · exact List.mem_append_left _ before
    · exact List.mem_append_right _ (List.mem_cons_of_mem _ behind)
  · rw [number, repr.number]
    simp only [List.length_append, List.length_cons]
    omega

theorem delTail_spec {s : ListInfo α} {xs : List (Ptr × α)} {p : Ptr} {d : α} (repr : Repr s (xs ++ [(p, d)])) :
    ∃ s', delTail s = .ok s' ∧ Repr s' xs ∧ s'.cur = s.cur := by
  have last : s.tail = p := by
    rw [repr.tail, lastOf_append]
    rfl
  obtain ⟨outside, _, distinct⟩ := distinct_middle repr.distinct
  have found := chain_last repr.chain
  rw [← List.append_nil xs]
  unfold delTail unlinkTail
  rw [last, load_ok found, ok_bind]
  rcases List.eq_nil_or_concat' xs with rfl | ⟨ys, y, rfl⟩
  · rw [lastOf_nil, if_neg (not_not_intro rfl), ok_bind, freeNode_ok found]
    exact ⟨_, rfl, repr.remove trivial rfl rfl rfl, rfl⟩
  · rw [List.append_nil] at distinct
    have before := (chain_append.mp repr.chain).1
    have linked := chain_relink_next before (distinct_last distinct) null
    have apart : p ≠ y.1 := by
      rintro rfl
      exact outside (by simp)
    have inside : lastOf null (ys ++ [y]) ≠ null := by
      rw [lastOf_append]
      exact repr.nonNull y (by simp)
    rw [if_pos inside, lastOf_append]
    rw [lastOf_cons, lastOf_nil, setNext_ok (chain_last before), ok_bind, pure_bind]
    rw [freeNode_ok ((Finmap.lookup_insert_of_ne _ apart).trans found)]
    refine ⟨_, rfl, repr.remove ?_ ?_ ?_ rfl, rfl⟩
    · rw [List.append_nil]
      exact chain_erase linked outside
    · exact repr.head.trans (by cases ys <;> rfl)
    · simp

theorem delHead_spec {s : ListInfo α} {y : Ptr × α} {ys : List (Ptr × α)} {p : Ptr} {d : α}
    (repr : Repr s ((p, d) :: y :: ys)) : ∃ s', delHead s = .ok s' ∧ Repr s' (y :: ys) ∧ s'.cur = s.cur := by
  have first : s.head = p := repr.head
  obtain ⟨outside, distinct⟩ := List.nodup_cons.mp repr.distinct
  have found := chain_first repr.chain
  have linked := chain_relink_pre repr.chain.2 (List.nodup_cons.mp distinct).1 null
  have apart : p ≠ y.1 := by
    rintro rfl
    exact outside List.mem_cons_self
  have inside : firstOf (y :: ys) null ≠ null := repr.nonNull y (by simp)
  unfold delHead unlinkHead
  rw [first, load_ok found, ok_bind, if_pos inside, firstOf_cons, setPre_ok (chain_first repr.chain.2), ok_bind,
    pure_bind, freeNode_ok ((Finmap.lookup_insert_of_ne _ apart).trans found)]
  have repr' : Repr s ([] ++ (p, d) :: y :: ys) := repr
  refine ⟨_, rfl, repr'.remove ?_ rfl ?_ rfl, rfl⟩
  · exact chain_erase linked outside
  · exact repr.tail

theorem delMiddle_spec {s : ListInfo α} {xs ys : List (Ptr × α)} {x y : Ptr × α} {p : Ptr} {d : α}
    (repr : Repr s (xs ++ [x] ++ (p, d) :: y :: ys)) (cur : s.cur = p) :
    ∃ s', delMiddle s = .ok s' ∧ Repr s' (xs ++ [x] ++ y :: ys) ∧ s'.cur = null := by
  obtain ⟨outsideX, outsideY, distinct⟩ := distinct_middle repr.distinct
  obtain ⟨before, found, behind⟩ := chain_append.mp repr.chain
  have apartX : p ≠ x.1 := by
    rintro rfl
    exact outsideX (by simp)
  have apartY : p ≠ y.1 := by
    rintro rfl
    exact outsideY List.mem_cons_self
  rw [List.map_append, List.nodup_append] at distinct
  obtain ⟨distinctX, distinctY, apart⟩ := distinct
  have outsideXY : x.1 ∉ (y :: ys).map Prod.fst := fun member => apart _ (by simp) _ member rfl
  have outsideYX : y.1 ∉ (xs ++ [x]).map Prod.fst := fun member => apart _ member _ List.mem_cons_self rfl
  -- the links of the two neighbours, one after the other
  have linkedX := chain_relink_next before (distinct_last distinctX) y.1
  have linkedY := chain_relink_pre (chain_insert ⟨y.1, lastOf null xs, x.2⟩ behind outsideXY)
    (List.nodup_cons.mp distinctY).1 x.1
  have foundX := (Finmap.lookup_insert_of_ne (b := ⟨y.1, lastOf null xs, x.2⟩) s.heap apartX).trans found
  unfold delMiddle
  rw [cur, load_ok found, ok_bind]
  simp only [lastOf_append, lastOf_cons, lastOf_nil, firstOf_cons]
  rw [setNext_ok (chain_last before), ok_bind, load_ok foundX, ok_bind]
  simp only [lastOf_append, lastOf_cons, lastOf_nil, firstOf_cons]
  rw [setPre_ok (chain_first (chain_insert _ behind outsideXY)), ok_bind,
    freeNode_ok ((Finmap.lookup_insert_of_ne _ apartY).trans foundX)]
  refine ⟨_, rfl, repr.remove ?_ ?_ ?_ rfl, rfl⟩
  · rw [chain_append, lastOf_append]
    exact ⟨chain_erase (chain_insert _ linkedX outsideYX) outsideX, chain_erase linkedY outsideY⟩
  · exact repr.head.trans (by cases xs <;> rfl)
  · exact repr.tail.trans (by simp)

/-- Where `list_node_del_cur` leaves the cursor: at the freed node, unless it lay in the middle. -/
def cursorAfter (xs : List (Ptr × α)) (p : Ptr) (ys : List (Ptr × α)) : Ptr :=
  if xs = [] ∨ ys = [] then p else null

/-- A node is the last one exactly when nothing comes behind it. -/
theorem Repr.eq_tail_iff {s : ListInfo α} {xs ys : List (Ptr × α)} {p : Ptr} {d : α}
    (repr : Repr s (xs ++ (p, d) :: ys)) : p = s.tail ↔ ys = [] := by
  have tail : s.tail = lastOf p ys := by
    rw [repr.tail, lastOf_append]
    rfl
  obtain ⟨_, outside, _⟩ := distinct_middle repr.distinct
  rw [tail]
  constructor
  · intro same
    by_contra nonempty
    have member := lastOf_mem p nonempty
    rw [← same] at member
    exact outside member
  · rintro rfl
    rfl

/-- A node is the first one exactly when nothing comes before it. -/
theorem Repr.eq_head_iff {s : ListInfo α} {xs ys : List (Ptr × α)} {p : Ptr} {d : α}
    (repr : Repr s (xs ++ (p, d) :: ys)) : p = s.head ↔ xs = [] := by
  have head : s.head = firstOf xs p := by
    rw [repr.head, firstOf_append]
    rfl
  obtain ⟨outside, _⟩ := distinct_middle repr.distinct
  rw [head]
  constructor
  · intro same
    by_contra nonempty
    have member := firstOf_mem nonempty p
    rw [← same] at member
    exact outside member
  · rintro rfl
    rfl

/-- **`list_node_del_cur` takes the selected node out.** -/
theorem delCur_spec {s : ListInfo α} {xs ys : List (Ptr × α)} {p : Ptr} {d : α} (repr : Repr s (xs ++ (p, d) :: ys))
    (cur : s.cur = p) :
    ∃ s', listNodeDelCur s = .ok (s', 0) ∧ Repr s' (xs ++ ys) ∧ s'.cur = cursorAfter xs p ys := by
  have some : ¬(s.number ≤ 0 ∨ s.cur = null) := by
    rw [not_or, repr.number, cur]
    refine ⟨?_, repr.nonNull (p, d) (by simp)⟩
    simp only [List.length_append, List.length_cons]
    omega
  have tail := repr.eq_tail_iff
  have head := repr.eq_head_iff
  rw [← cur] at tail head
  unfold listNodeDelCur cursorAfter
  rw [if_neg some]
  cases ys with
  | nil =>
    obtain ⟨s', done, repr', cur'⟩ := delTail_spec repr
    rw [if_pos (tail.mpr rfl), done, if_pos (.inr rfl), List.append_nil]
    exact ⟨s', rfl, repr', cur'.trans cur⟩
  | cons y ys =>
    rw [if_neg (mt tail.mp (List.cons_ne_nil y ys))]
    rcases List.eq_nil_or_concat' xs with rfl | ⟨zs, z, rfl⟩
    · obtain ⟨s', done, repr', cur'⟩ := delHead_spec repr
      rw [if_pos (head.mpr rfl), done, if_pos (.inl rfl)]
      exact ⟨s', rfl, repr', cur'.trans cur⟩
    · obtain ⟨s', done, repr', cur'⟩ := delMiddle_spec repr cur
      rw [if_neg (mt head.mp (List.concat_ne_nil z zs)), done, if_neg (by simp)]
      exact ⟨s', rfl, repr', cur'⟩

theorem delCur_null {s : ListInfo α} (cur : s.cur = null) : listNodeDelCur s = .ok (s, 1) := by
  rw [listNodeDelCur, if_pos (.inr cur)]

/-! ## Writing data -/

/-- The data of a node is replaced through a pointer to it. -/
theorem setData_spec {s : ListInfo α} {xs ys : List (Ptr × α)} {p : Ptr} {d : α} (repr : Repr s (xs ++ (p, d) :: ys))
    (d' : α) : ∃ h, setData s.heap p d' = .ok h ∧ Repr { s with heap := h } (xs ++ (p, d') :: ys) := by
  have found := (chain_append.mp repr.chain).2.1
  have addresses : (xs ++ (p, d') :: ys).map Prod.fst = (xs ++ (p, d) :: ys).map Prod.fst := by simp
  refine ⟨_, setData_ok found d', chain_data repr.chain repr.distinct d', ?_, ?_, ?_, ?_, ?_⟩
  · rw [addresses]
    exact repr.distinct
  · intro x member
    have inside := List.mem_map_of_mem (f := Prod.fst) member
    rw [addresses] at inside
    obtain ⟨y, member', same⟩ := List.mem_map.mp inside
    exact same ▸ repr.nonNull y member'
  · exact repr.head.trans (firstOf_congr addresses.symm null)
  · exact repr.tail.trans (lastOf_congr addresses.symm null)
  · rw [repr.number]
    simp

theorem load_data {s : ListInfo α} {xs ys : List (Ptr × α)} {p : Ptr} {d : α} (repr : Repr s (xs ++ (p, d) :: ys)) :
    ∃ node, load s.heap p = .ok node ∧ node.data = d :=
  ⟨_, load_ok (chain_append.mp repr.chain).2.1, rfl⟩

/-! ## Visiting -/

/-- Every element once, in order. -/
def visitAll (func : α → γ → α × γ) : List α → γ → List α × γ
  | [], arg => ([], arg)
  | d :: ds, arg =>
    let (ds, arg') := visitAll func ds (func d arg).2
    ((func d arg).1 :: ds, arg')

theorem operateLoop_spec (func : α → γ → α × γ) {h : Heap α} {pre : Ptr} {xs : List (Ptr × α)} {budget : Nat}
    (chain : Chain h pre xs null) (distinct : (xs.map Prod.fst).Nodup) (nonNull : ∀ x ∈ xs, x.1 ≠ null)
    (enough : xs.length < budget) (arg : γ) :
    ∃ h' ys, operateLoop func budget h (firstOf xs null) arg = .ok (h', (visitAll func (xs.map Prod.snd) arg).2) ∧
      ys.map Prod.fst = xs.map Prod.fst ∧ ys.map Prod.snd = (visitAll func (xs.map Prod.snd) arg).1 ∧
      Chain h' pre ys null ∧ ∀ p ∉ xs.map Prod.fst, h'.lookup p = h.lookup p := by
  induction xs generalizing h pre budget arg with
  | nil =>
    obtain ⟨budget, rfl⟩ := Nat.exists_eq_succ_of_ne_zero (Nat.ne_of_gt enough)
    rw [firstOf_nil, operateLoop, if_neg (not_not_intro rfl)]
    exact ⟨h, [], rfl, rfl, rfl, trivial, fun _ _ => rfl⟩
  | cons x xs ih =>
    obtain ⟨budget, rfl⟩ := Nat.exists_eq_succ_of_ne_zero (Nat.ne_of_gt (Nat.zero_lt_of_lt enough))
    obtain ⟨outside, distinct⟩ := List.nodup_cons.mp distinct
    have written := chain_insert ⟨firstOf xs null, pre, (func x.2 arg).1⟩ chain.2 outside
    obtain ⟨h', ys, done, addresses, data, chain', same⟩ :=
      ih written distinct (fun y member => nonNull y (List.mem_cons_of_mem x member)) (Nat.lt_of_succ_lt_succ enough)
        (func x.2 arg).2
    refine ⟨h', (x.1, (func x.2 arg).1) :: ys, ?_, ?_, ?_, ⟨?_, chain'⟩, ?_⟩
    · rw [firstOf_cons, operateLoop, if_pos (nonNull x List.mem_cons_self), load_ok (chain_first chain), ok_bind,
        setData_ok (chain_first chain), ok_bind]
      exact done
    · rw [List.map_cons, List.map_cons, addresses]
    · rw [List.map_cons, data]
      rfl
    · rw [same x.1 outside, firstOf_congr addresses null]
      exact Finmap.lookup_insert h
    · intro p other
      rw [List.map_cons, List.mem_cons, not_or] at other
      rw [same p other.2]
      exact Finmap.lookup_insert_of_ne h other.1

/-- **`list_operate_node_all` visits every element once, in order.** -/
theorem operateAll_spec (func : α → γ → α × γ) {s : ListInfo α} {xs : List (Ptr × α)} (repr : Repr s xs) (arg : γ) :
    ∃ s' ys, listOperateNodeAll func s arg = .ok (s', (visitAll func (xs.map Prod.snd) arg).2) ∧
      ys.map Prod.fst = xs.map Prod.fst ∧ ys.map Prod.snd = (visitAll func (xs.map Prod.snd) arg).1 ∧
      Repr s' ys ∧ s'.cur = s.cur := by
  obtain ⟨h', ys, done, addresses, data, chain, _⟩ :=
    operateLoop_spec func repr.chain repr.distinct repr.nonNull (Nat.lt_succ_of_le repr.length_le) arg
  refine ⟨{ s with heap := h' }, ys, ?_, addresses, data, ⟨chain, ?_, ?_, ?_, ?_, ?_⟩, rfl⟩
  · rw [listOperateNodeAll, repr.head, done]
    rfl
  · rw [addresses]
    exact repr.distinct
  · intro y member
    have inside := List.mem_map_of_mem (f := Prod.fst) member
    rw [addresses] at inside
    obtain ⟨x, member', same⟩ := List.mem_map.mp inside
    rw [← same]
    exact repr.nonNull x member'
  · exact repr.head.trans (firstOf_congr addresses.symm null)
  · exact repr.tail.trans (lastOf_congr addresses.symm null)
  · rw [repr.number, ← List.length_map Prod.fst, ← addresses, List.length_map]

end

end VideoDetector.Common
