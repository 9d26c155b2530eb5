import VideoDetector.Lib.Chain
import VideoDetector.Lib.Registers

/-!
# The linked list (`fvd-new/common.c`)

`m_list_info` with the heap its nodes live in. An access through an address that is not in use, `NULL`
or freed, is a `Fault`, and so is a walk that never ends. The data of a node is of any type; the match
function and the functions applied to all nodes are parameters, as in the source.

`Repr s xs` is the representation invariant: the nodes `xs` are a chain from `head` to `tail`. It says
nothing about `cur`, which some operations leave at a freed node.
-/

namespace VideoDetector.Common
set_option autoImplicit false
open Lib

inductive Fault where
  | badAddress (p : Ptr)
  | endless
  deriving DecidableEq, Repr

/-- `m_list_info`, the heap and the number of `malloc` calls so far. -/
structure ListInfo (α : Type) where
  heap : Heap α
  head : Ptr
  tail : Ptr
  cur : Ptr
  number : Int
  mallocs : Nat

section
variable {α β γ : Type}

def load (h : Heap α) (p : Ptr) : Except Fault (Node α) :=
  match h.lookup p with
  | some node => .ok node
  | none => .error (.badAddress p)

def setNext (h : Heap α) (p next : Ptr) : Except Fault (Heap α) := do
  let node ← load h p
  return h.insert p { node with next := next }

def setPre (h : Heap α) (p pre : Ptr) : Except Fault (Heap α) := do
  let node ← load h p
  return h.insert p { node with pre := pre }

def setData (h : Heap α) (p : Ptr) (data : α) : Except Fault (Heap α) := do
  let node ← load h p
  return h.insert p { node with data := data }

/-- The two `free` calls for a node and its data. -/
def freeNode (h : Heap α) (p : Ptr) : Except Fault (Heap α) := do
  let _ ← load h p
  return h.erase p

/-- `new_list`. Nodes of another list stay in the heap. -/
def newList (h : Heap α) (mallocs : Nat) : ListInfo α :=
  { heap := h, head := null, tail := null, cur := null, number := 0, mallocs := mallocs }

/-- The links of a new node `tmp` in `list_node_alloc_tail`. -/
def linkTail (s : ListInfo α) (tmp : Ptr) (zero : α) : Except Fault (ListInfo α) :=
  if s.head ≠ null then do
    let heap ← setNext (s.heap.insert tmp ⟨null, s.tail, zero⟩) s.tail tmp
    let tail ← load heap s.tail
    return { s with heap := heap, tail := tail.next }
  else .ok { s with heap := s.heap.insert tmp ⟨null, null, zero⟩, head := tmp }

/-- `list_node_alloc_tail`; `zero` is the data of a node after the `memset`. -/
def listNodeAllocTail (malloc : Malloc α) (zero : α) (s : ListInfo α) : Except Fault (ListInfo α) := do
  let next ← linkTail s (malloc.pick s.mallocs s.heap) zero
  return { next with tail := malloc.pick s.mallocs s.heap, number := s.number + 1, mallocs := s.mallocs + 1 }

/-- The loop of `list_node_seek`. -/
def seekLoop (dataMatch : α → β → Int) (data : β) : Nat → ListInfo α → Except Fault (ListInfo α × Int)
  | 0, _ => .error .endless
  | budget + 1, s =>
    if s.cur ≠ null then do
      let node ← load s.heap s.cur
      let ret := dataMatch node.data data
      if 0 ≤ ret then return (s, ret)
      else seekLoop dataMatch data budget { s with cur := node.next }
    else .ok (s, -1)

/-- `list_node_seek`. A walk of more steps than there are nodes never ends. -/
def listNodeSeek (dataMatch : α → β → Int) (s : ListInfo α) (data : β) : Except Fault (ListInfo α × Int) :=
  seekLoop dataMatch data (s.heap.keys.card + 1) { s with cur := s.head }

/-- The links of the last node, `tmp`, in `list_node_del_cur`. -/
def unlinkTail (s : ListInfo α) (tmp : Node α) : Except Fault (ListInfo α) :=
  if tmp.pre ≠ null then do
    let heap ← setNext s.heap tmp.pre null
    return { s with heap := heap, tail := tmp.pre }
  else .ok { s with head := null, tail := null }

/-- The links of the first node, `tmp`, in `list_node_del_cur`. -/
def unlinkHead (s : ListInfo α) (tmp : Node α) : Except Fault (ListInfo α) :=
  if tmp.next ≠ null then do
    let heap ← setPre s.heap tmp.next null
    return { s with heap := heap, head := tmp.next }
  else .ok { s with head := null, tail := null }

/-- The branch of `list_node_del_cur` for the last node; `cur` stays where it is. -/
def delTail (s : ListInfo α) : Except Fault (ListInfo α) := do
  let tmp ← load s.heap s.tail
  let next ← unlinkTail s tmp
  let heap ← freeNode next.heap s.tail
  return { next with heap := heap, number := next.number - 1 }

/-- The branch of `list_node_del_cur` for the first node; `cur` stays where it is. -/
def delHead (s : ListInfo α) : Except Fault (ListInfo α) := do
  let tmp ← load s.heap s.head
  let next ← unlinkHead s tmp
  let heap ← freeNode next.heap s.head
  return { next with heap := heap, number := next.number - 1 }

/-- The branch of `list_node_del_cur` for a node in the middle. -/
def delMiddle (s : ListInfo α) : Except Fault (ListInfo α) := do
  let cur ← load s.heap s.cur
  let heap ← setNext s.heap cur.pre cur.next
  let cur ← load heap s.cur
  let heap ← setPre heap cur.next cur.pre
  let heap ← freeNode heap s.cur
  return { s with heap := heap, cur := null, number := s.number - 1 }

/-- `list_node_del_cur`. -/
def listNodeDelCur (s : ListInfo α) : Except Fault (ListInfo α × Int) :=
  if s.number ≤ 0 ∨ s.cur = null then .ok (s, 1)
  else if s.cur = s.tail then (delTail s).map fun s => (s, 0)
  else if s.cur = s.head then (delHead s).map fun s => (s, 0)
  else (delMiddle s).map fun s => (s, 0)

/-- `list_get_current_data`. -/
def listGetCurrentData (s : ListInfo α) : Except Fault α := do
  let cur ← load s.heap s.cur
  return cur.data

/-- `list_overwirte_current_data`. -/
def listOverwirteCurrentData (s : ListInfo α) (data : α) : Except Fault (ListInfo α) := do
  let heap ← setData s.heap s.cur data
  return { s with heap := heap }

/-- The loop of `list_operate_node_all`; `func` may change the data of the node and what `arg` points
to. -/
def operateLoop (func : α → γ → α × γ) : Nat → Heap α → Ptr → γ → Except Fault (Heap α × γ)
  | 0, _, _, _ => .error .endless
  | budget + 1, heap, tmp, arg =>
    if tmp ≠ null then do
      let node ← load heap tmp
      let heap ← setData heap tmp (func node.data arg).1
      operateLoop func budget heap node.next (func node.data arg).2
    else .ok (heap, arg)

/-- `list_operate_node_all`. -/
def listOperateNodeAll (func : α → γ → α × γ) (s : ListInfo α) (arg : γ) : Except Fault (ListInfo α × γ) := do
  let (heap, arg) ← operateLoop func (s.heap.keys.card + 1) s.heap s.head arg
  return ({ s with heap := heap }, arg)

/-! ## Representation -/

structure Repr (s : ListInfo α) (xs : List (Ptr × α)) : Prop where
  chain : Chain s.heap null xs null
  distinct : (xs.map Prod.fst).Nodup
  nonNull : ∀ x ∈ xs, x.1 ≠ null
  head : s.head = firstOf xs null
  tail : s.tail = lastOf null xs
  number : s.number = xs.length

theorem load_ok {h : Heap α} {p : Ptr} {node : Node α} (found : h.lookup p = some node) : load h p = .ok node := by
  rw [load, found]

theorem setNext_ok {h : Heap α} {p : Ptr} {node : Node α} (found : h.lookup p = some node) (next : Ptr) :
    setNext h p next = .ok (h.insert p { node with next := next }) := by
  rw [setNext, load_ok found]
  rfl

theorem setPre_ok {h : Heap α} {p : Ptr} {node : Node α} (found : h.lookup p = some node) (pre : Ptr) :
    setPre h p pre = .ok (h.insert p { node with pre := pre }) := by
  rw [setPre, load_ok found]
  rfl

theorem setData_ok {h : Heap α} {p : Ptr} {node : Node α} (found : h.lookup p = some node) (data : α) :
    setData h p data = .ok (h.insert p { node with data := data }) := by
  rw [setData, load_ok found]
  rfl

theorem freeNode_ok {h : Heap α} {p : Ptr} {node : Node α} (found : h.lookup p = some node) :
    freeNode h p = .ok (h.erase p) := by
  rw [freeNode, load_ok found]
  rfl

theorem newList_repr (h : Heap α) (mallocs : Nat) : Repr (newList h mallocs) [] :=
  ⟨trivial, List.nodup_nil, by simp, rfl, rfl, rfl⟩

/-- The nodes of a list are in use. -/
theorem Repr.used {s : ListInfo α} {xs : List (Ptr × α)} (repr : Repr s xs) {p : Ptr} (member : p ∈ xs.map Prod.fst) :
    p ∈ s.heap := by
  obtain ⟨x, inside, rfl⟩ := List.mem_map.mp member
  obtain ⟨before, behind, rfl⟩ := List.append_of_mem inside
  exact Finmap.mem_of_lookup_eq_some (chain_append.mp repr.chain).2.1

theorem Repr.length_le {s : ListInfo α} {xs : List (Ptr × α)} (repr : Repr s xs) :
    xs.length ≤ s.heap.keys.card := by
  have card := List.toFinset_card_of_nodup repr.distinct
  rw [List.length_map] at card
  rw [← card]
  apply Finset.card_le_card
  intro p member
  exact Finmap.mem_keys.mpr (repr.used (List.mem_toFinset.mp member))

end

end VideoDetector.Common
