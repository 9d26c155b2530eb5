import Mathlib.Data.List.Nodup
import VideoDetector.Lib.Runs

/-!
# The list of allocations (`ding_malloc` and `ding_free` in `ipsearch/zenlog.c`)

Each tracked allocation has a node behind `g_cmemMgr`, which holds the address of the block as an `int`. `ding_free` removes
the first node with that number, and `ding_malloc_end` frees all nodes but leaves their count. `tracker_iff` says in which
runs the list is right.
-/

namespace VideoDetector.Ipsearch
set_option autoImplicit false
open Lib

/-- A value as an `int`. -/
def narrow (v : Int) : Int := v.bmod 4294967296

/-- `SmemMgrNode`, with its own address. -/
structure MemNode where
  node : Nat
  addr : Int
  size : Int
  deriving DecidableEq

/-- `g_cmemMgr`: the nodes behind it, and its `size`. -/
structure MemMgr where
  nodes : List MemNode
  size : Int
  deriving DecidableEq

namespace MemMgr

def initial : MemMgr := ⟨[], 0⟩

/-- `ding_malloc`, where `malloc` returns the addresses of the block and of the node. -/
def dingMalloc (m : MemMgr) (size dest node : Nat) : MemMgr :=
  ⟨m.nodes ++ [⟨node, narrow dest, narrow size⟩], narrow (m.size + 1)⟩

/-- `ding_free`. -/
def dingFree (m : MemMgr) (dest : Nat) : MemMgr :=
  if m.nodes.any fun cur => cur.addr == narrow dest then
    ⟨m.nodes.eraseP fun cur => cur.addr == narrow dest, narrow (m.size - 1)⟩
  else m

/-- `ding_malloc_end`. -/
def dingMallocEnd (m : MemMgr) : MemMgr := { m with nodes := [] }

end MemMgr

/-- A call, with what `malloc` returns in it. -/
inductive MemCall where
  | malloc (size dest node : Nat)
  | free (dest : Nat)
  | ending
  deriving DecidableEq

def memStep (m : MemMgr) : MemCall → MemMgr
  | .malloc size dest node => m.dingMalloc size dest node
  | .free dest => m.dingFree dest
  | .ending => m.dingMallocEnd

/-! ## Live allocations -/

/-- A tracked allocation that has not been freed. -/
structure Allocation where
  dest : Nat
  size : Nat
  node : Nat
  deriving DecidableEq

/-- The node that it should have. -/
def Allocation.expected (a : Allocation) : MemNode := ⟨a.node, narrow a.dest, a.size⟩

def liveStep (live : List Allocation) : MemCall → List Allocation
  | .malloc size dest node => live ++ [⟨dest, size, node⟩]
  | .free dest => live.filter fun a => a.dest ≠ dest
  | .ending => []

/-- The live allocations after some calls, the oldest first. -/
def liveAfter (calls : List MemCall) : List Allocation := calls.foldl liveStep []

/-- `malloc` returns no address that is in use. -/
def Fresh (live : List Allocation) : MemCall → Prop
  | .malloc _ dest node => (∀ a ∈ live, a.dest ≠ dest) ∧ ∀ a ∈ live, a.node ≠ node
  | _ => True

/-- The list has exactly the nodes of the live allocations, and their number is kept. -/
structure Tracks (live : List Allocation) (m : MemMgr) : Prop where
  nodes : m.nodes = live.map Allocation.expected
  size : m.size = live.length

/-- An allocation of less than 2 GiB while there are fewer than 2^31 of them; an address that is itself the first one of the
live addresses that agree with it in 32 bits, if any does; and the end when nothing is allocated. -/
def Trackable (live : List Allocation) : MemCall → Prop
  | .malloc size _ _ => size < 2147483648 ∧ live.length + 1 < 2147483648
  | .free dest => ∀ a, live.find? (fun a => narrow a.dest == narrow dest) = some a → a.dest = dest
  | .ending => live = []

/-- A sequence of calls in which `malloc` returns fresh addresses. -/
structure MemRun where
  calls : List MemCall
  fresh : ∀ before call after, calls = before ++ call :: after → Fresh (liveAfter before) call

theorem liveAfter_snoc (calls : List MemCall) (call : MemCall) : liveAfter (calls ++ [call]) = liveStep (liveAfter calls) call := by
  rw [liveAfter, List.foldl_append]
  rfl

theorem narrow_natCast_iff {n : Nat} : narrow n = n ↔ n < 2147483648 := by
  unfold narrow
  rw [Int.bmod_def]
  omega

/-! ## One call -/

section
variable {live : List Allocation} {m : MemMgr}

theorem malloc_iff (tracks : Tracks live m) (size dest node : Nat) :
    Tracks (liveStep live (.malloc size dest node)) (memStep m (.malloc size dest node)) ↔ Trackable live (.malloc size dest node) := by
  have number : narrow (m.size + 1) = ((live ++ [(⟨dest, size, node⟩ : Allocation)]).length : Int) ↔ live.length + 1 < 2147483648 := by
    rw [tracks.size, List.length_append, List.length_singleton]
    exact narrow_natCast_iff (n := live.length + 1)
  have last : m.nodes ++ [⟨node, narrow dest, narrow size⟩] = (live ++ [(⟨dest, size, node⟩ : Allocation)]).map Allocation.expected ↔ size < 2147483648 := by
    rw [tracks.nodes, List.map_append, List.append_cancel_left_eq, List.map_singleton, ← narrow_natCast_iff]
    simp [Allocation.expected]
  exact ⟨fun tracks' => ⟨last.mp tracks'.nodes, number.mp tracks'.size⟩, fun trackable => ⟨last.mpr trackable.1, number.mpr trackable.2⟩⟩

/-- What is compared with an expected node. -/
theorem expected_addr (dest : Nat) :
    (fun cur : MemNode => cur.addr == narrow dest) ∘ Allocation.expected = fun a => narrow a.dest == narrow dest := by
  funext a
  rw [Function.comp_apply, Allocation.expected]

/-- A block whose number no node has. -/
theorem free_none (tracks : Tracks live m) {dest : Nat} (none : ∀ a ∈ live, narrow a.dest ≠ narrow dest) :
    Tracks (liveStep live (.free dest)) (memStep m (.free dest)) := by
  have same : live.filter (fun a => a.dest ≠ dest) = live := by
    rw [List.filter_eq_self]
    intro a member
    exact decide_eq_true fun same => none a member (by rw [same])
  have kept : memStep m (.free dest) = m := by
    refine if_neg ?_
    rw [tracks.nodes, List.any_map, expected_addr, List.any_eq_true]
    rintro ⟨a, member, same⟩
    exact none a member (beq_iff_eq.mp same)
  rw [kept, liveStep, same]
  exact tracks

/-- The first node with the number of the block is removed. -/
theorem free_first (tracks : Tracks live m) {dest : Nat} {as bs : List Allocation} {a : Allocation} (split : live = as ++ a :: bs)
    (here : narrow a.dest = narrow dest) (first : ∀ b ∈ as, narrow b.dest ≠ narrow dest) :
    memStep m (.free dest) = ⟨(as ++ bs).map Allocation.expected, narrow (live.length - 1)⟩ := by
  have found : (m.nodes.any fun cur => cur.addr == narrow dest) = true := by
    rw [tracks.nodes, List.any_map, expected_addr, List.any_eq_true]
    exact ⟨a, by simp [split], beq_iff_eq.mpr here⟩
  have erased : live.eraseP ((fun cur => cur.addr == narrow dest) ∘ Allocation.expected) = as ++ bs := by
    rw [expected_addr, split, List.eraseP_append_right _ fun b member => fun same => first b member (beq_iff_eq.mp same),
      List.eraseP_cons_of_pos (p := fun b : Allocation => narrow b.dest == narrow dest) (beq_iff_eq.mpr here)]
  rw [memStep, MemMgr.dingFree, if_pos found, tracks.nodes, tracks.size, List.eraseP_map, erased]

/-- The node of another block is removed: it is still expected. -/
theorem free_other (tracks : Tracks live m) (nodes : (live.map Allocation.node).Nodup) {dest : Nat} {as bs : List Allocation}
    {a : Allocation} (split : live = as ++ a :: bs) (here : narrow a.dest = narrow dest)
    (first : ∀ b ∈ as, narrow b.dest ≠ narrow dest) (other : a.dest ≠ dest) :
    ¬Tracks (liveStep live (.free dest)) (memStep m (.free dest)) := by
  intro tracks'
  rw [free_first tracks split here first] at tracks'
  subst split
  rw [List.map_append, List.map_cons, List.nodup_middle, ← List.map_append, List.nodup_cons] at nodes
  have kept : a ∈ (as ++ a :: bs).filter fun b => b.dest ≠ dest :=
    List.mem_filter.mpr ⟨by simp, decide_eq_true other⟩
  have listed := List.mem_map_of_mem (f := Allocation.expected) kept
  rw [← show _ = ((as ++ a :: bs).filter fun b => b.dest ≠ dest).map Allocation.expected from tracks'.nodes] at listed
  obtain ⟨b, member, same⟩ := List.mem_map.mp listed
  exact nodes.1 (List.mem_map.mpr ⟨b, member, congrArg MemNode.node same⟩)

/-- The node of the block itself is removed. -/
theorem free_own (tracks : Tracks live m) (dests : (live.map Allocation.dest).Nodup) (few : live.length < 2147483648)
    {as bs : List Allocation} {a : Allocation} (split : live = as ++ a :: bs) (first : ∀ b ∈ as, narrow b.dest ≠ narrow a.dest) :
    Tracks (liveStep live (.free a.dest)) (memStep m (.free a.dest)) := by
  rw [free_first tracks split rfl first]
  subst split
  rw [List.map_append, List.map_cons, List.nodup_middle, ← List.map_append, List.nodup_cons] at dests
  have left : (as ++ a :: bs).filter (fun b => b.dest ≠ a.dest) = as ++ bs := by
    rw [List.filter_append, List.filter_cons_of_neg (by simp), ← List.filter_append, List.filter_eq_self]
    intro b member
    exact decide_eq_true fun same => dests.1 (List.mem_map.mpr ⟨b, member, same⟩)
  rw [List.length_append, List.length_cons] at few
  constructor
  · rw [liveStep, left]
  · show narrow _ = _
    rw [liveStep, left, List.length_append, List.length_cons, List.length_append,
      show ((as.length + (bs.length + 1) : Nat) : Int) - 1 = ((as.length + bs.length : Nat) : Int) by omega]
    exact narrow_natCast_iff.mpr (by omega)

theorem free_iff (tracks : Tracks live m) (dests : (live.map Allocation.dest).Nodup) (nodes : (live.map Allocation.node).Nodup)
    (few : live.length < 2147483648) (dest : Nat) :
    Tracks (liveStep live (.free dest)) (memStep m (.free dest)) ↔ Trackable live (.free dest) := by
  cases found : live.find? fun a => narrow a.dest == narrow dest with
  | none =>
    refine iff_of_true (free_none tracks fun a member same => ?_) fun a some => ?_
    · exact List.find?_eq_none.mp found a member (beq_iff_eq.mpr same)
    · rw [found] at some
      cases some
  | some a =>
    obtain ⟨here, as, bs, split, first⟩ := List.find?_eq_some_iff_append.mp found
    have here : narrow a.dest = narrow dest := beq_iff_eq.mp here
    have first : ∀ b ∈ as, narrow b.dest ≠ narrow dest := by
      intro b member same
      have other := first b member
      rw [beq_iff_eq.mpr same] at other
      cases other
    constructor
    · intro tracks' b found'
      cases found.symm.trans found'
      by_contra other
      exact free_other tracks nodes split here first other tracks'
    · intro trackable
      cases trackable a found
      exact free_own tracks dests few split first

theorem ending_iff (tracks : Tracks live m) : Tracks (liveStep live .ending) (memStep m .ending) ↔ Trackable live .ending := by
  constructor
  · intro tracks'
    have count : m.size = 0 := tracks'.size
    rw [tracks.size] at count
    exact List.length_eq_zero_iff.mp (by omega)
  · intro none
    refine ⟨rfl, ?_⟩
    show m.size = 0
    rw [tracks.size, none]
    rfl

end

/-! ## Runs -/

/-- What a run that tracks its allocations knows: fewer than 2^31 are live, and their addresses and nodes are different. -/
structure Tracked (calls : List MemCall) (m : MemMgr) : Prop where
  tracks : Tracks (liveAfter calls) m
  dests : ((liveAfter calls).map Allocation.dest).Nodup
  nodes : ((liveAfter calls).map Allocation.node).Nodup
  few : (liveAfter calls).length < 2147483648

theorem Tracked.call_iff {calls : List MemCall} {m : MemMgr} (tracked : Tracked calls m) (call : MemCall) :
    Tracks (liveAfter (calls ++ [call])) (memStep m call) ↔ Trackable (liveAfter calls) call := by
  rw [liveAfter_snoc]
  cases call with
  | malloc size dest node => exact malloc_iff tracked.tracks size dest node
  | free dest => exact free_iff tracked.tracks tracked.dests tracked.nodes tracked.few dest
  | ending => exact ending_iff tracked.tracks

/-- A fresh address goes to the end. -/
theorem nodup_snoc {α : Type} {f : Allocation → α} {live : List Allocation} {a : Allocation} (distinct : (live.map f).Nodup)
    (fresh : ∀ b ∈ live, f b ≠ f a) : ((live ++ [a]).map f).Nodup := by
  rw [List.map_append, List.map_singleton, List.nodup_append]
  refine ⟨distinct, List.nodup_singleton _, fun x member y last => ?_⟩
  obtain ⟨b, member', rfl⟩ := List.mem_map.mp member
  rw [List.mem_singleton.mp last]
  exact fresh b member'

theorem Tracked.step {calls : List MemCall} {m : MemMgr} (tracked : Tracked calls m) {call : MemCall}
    (fresh : Fresh (liveAfter calls) call) (trackable : Trackable (liveAfter calls) call) : Tracked (calls ++ [call]) (memStep m call) := by
  have tracks := (tracked.call_iff call).mpr trackable
  refine ⟨tracks, ?_, ?_, ?_⟩ <;> rw [liveAfter_snoc]
  all_goals
    cases call with
    | malloc size dest node => ?_
    | free dest => ?_
    | ending => simp [liveStep]
  · exact nodup_snoc tracked.dests fresh.1
  · exact tracked.dests.sublist (List.filter_sublist.map _)
  · exact nodup_snoc tracked.nodes fresh.2
  · exact tracked.nodes.sublist (List.filter_sublist.map _)
  · rw [liveStep, List.length_append, List.length_singleton]
    exact trackable.2
  · exact Nat.lt_of_le_of_lt List.filter_sublist.length_le tracked.few

theorem tracked_initial : Tracked [] MemMgr.initial := ⟨⟨rfl, rfl⟩, List.nodup_nil, List.nodup_nil, by decide⟩

/-- **The tracker**: its list and its count are right after every call of a run exactly if each call meets the condition
when it is made. -/
theorem tracker_iff (run : MemRun) :
    (∀ before call after, run.calls = before ++ call :: after →
      Tracks (liveAfter (before ++ [call])) (memStep (before.foldl memStep .initial) call)) ↔
      ∀ before call after, run.calls = before ++ call :: after → Trackable (liveAfter before) call := by
  have exact' : (∀ before call after, run.calls = before ++ call :: after → Fresh (liveAfter before) call ∧
      Tracks (liveAfter (before ++ [call])) (memStep (before.foldl memStep .initial) call)) ↔
      ∀ before call after, run.calls = before ++ call :: after → Fresh (liveAfter before) call ∧ Trackable (liveAfter before) call :=
    foldl_iff Tracked (fun before m call => Fresh (liveAfter before) call ∧ Tracks (liveAfter (before ++ [call])) (memStep m call))
      (fun before _ call => Fresh (liveAfter before) call ∧ Trackable (liveAfter before) call)
      (fun before m call tracked cond => tracked.step cond.1 cond.2)
      (fun before m call tracked => and_congr_right fun _ => tracked.call_iff call) tracked_initial
  constructor
  · intro tracks before call after split
    exact (exact'.mp (fun before call after split => ⟨run.fresh before call after split, tracks before call after split⟩)
      before call after split).2
  · intro trackable before call after split
    exact (exact'.mpr (fun before call after split => ⟨run.fresh before call after split, trackable before call after split⟩)
      before call after split).2

/-- `ding_malloc_end` frees the node, but the count stays 1. -/
theorem ending_keepsCount :
    ¬Tracks (liveAfter [.malloc 16 4096 64, .ending]) ([MemCall.malloc 16 4096 64, .ending].foldl memStep .initial) := by
  intro tracks
  exact absurd tracks.size (by decide)

/-- Two blocks 4 GiB apart: the second one is freed, and the node of the first one goes. -/
theorem otherNode_removed :
    Fresh (liveAfter [.malloc 8 0x100001000 64]) (.malloc 8 0x200001000 128) ∧
      ([MemCall.malloc 8 0x100001000 64, .malloc 8 0x200001000 128, .free 0x200001000].foldl memStep .initial) = ⟨[⟨128, 4096, 8⟩], 1⟩ ∧
      liveAfter [.malloc 8 0x100001000 64, .malloc 8 0x200001000 128, .free 0x200001000] = [⟨0x100001000, 8, 64⟩] := by
  refine ⟨by simp [Fresh, liveAfter, liveStep], by decide, by decide⟩

end VideoDetector.Ipsearch
