import VideoDetector.Alg.ConnectDet
import VideoDetector.Lib.Sweep

/-!
# The list of foreground boxes (`ArrayInit`, `ArrayAdd`, `ArrayRemoveAt`, `ArrayRemoveAll` in
`fvd-new/alg-mutilthread/m_arith.cpp`)

`CForeground_Array` has room for 200 boxes. A box that is added to a full list is not stored, and the number of boxes is
set to 199: the last box is lost, and the next one takes its place. `foreground_sequence_iff` says for which calls the
list is the bounded sequence that it is used as.
-/

namespace VideoDetector.Alg
set_option autoImplicit false
open Lib

def foregroundArrayCapacity : Nat := 200

/-- `sizeof(CForeground_Array)`. -/
def sizeofForegroundArray : Nat := 3 * 4 + foregroundArrayCapacity * 8

/-- `CForeground_Array`; `sizeOfArray` is the number of entries in use. -/
structure ForegroundArray where
  sizeOfStruct : Nat
  capacity : Nat
  array : Table CRect

namespace ForegroundArray

/-- `ArrayInit`. -/
def arrayInit (A : ForegroundArray) (sizeOfStruct capacity : Nat) : ForegroundArray :=
  ⟨sizeOfStruct, capacity, { A.array with size := 0 }⟩

/-- `ArrayGetSize`. -/
def arrayGetSize (A : ForegroundArray) : Nat := A.array.size

/-- `ArrayAdd`. -/
def arrayAdd (A : ForegroundArray) (elem : CRect) : ForegroundArray :=
  if A.capacity < A.arrayGetSize + 1 then { A with array := { A.array with size := A.capacity - 1 } }
  else if A.sizeOfStruct = sizeofForegroundArray then { A with array := A.array.push elem }
  else A

/-- `ArrayRemoveAt`: `for( i = nIndex; i <= (nArray->sizeOfArray - 2); i++ )` an entry is copied to the place before it. -/
def arrayRemoveAt (A : ForegroundArray) (nIndex : Nat) : ForegroundArray :=
  if nIndex + 1 ≤ A.arrayGetSize then
    if A.sizeOfStruct = sizeofForegroundArray then
      { A with
        array :=
          { entries := (List.range' (nIndex + 1) (A.arrayGetSize - (nIndex + 1))).foldl Table.moveUp A.array.entries
            size := A.arrayGetSize - 1 } }
    else A
  else A

/-- `ArrayRemoveAll`. -/
def arrayRemoveAll (A : ForegroundArray) : ForegroundArray := { A with array := { A.array with size := 0 } }

/-- The boxes of the list. -/
def boxes (A : ForegroundArray) : List CRect := A.array.live

/-- A list of boxes as the algorithm sets it up, with at most as many boxes as there is room for. -/
structure Ready (A : ForegroundArray) : Prop where
  struct : A.sizeOfStruct = sizeofForegroundArray
  room : A.capacity = foregroundArrayCapacity
  few : A.arrayGetSize ≤ foregroundArrayCapacity

theorem boxes_length (A : ForegroundArray) : A.boxes.length = A.arrayGetSize := A.array.live_length

theorem arrayInit_ready (A : ForegroundArray) : (A.arrayInit sizeofForegroundArray foregroundArrayCapacity).Ready :=
  ⟨rfl, rfl, Nat.zero_le _⟩

theorem Ready.removeAll {A : ForegroundArray} (ready : A.Ready) : A.arrayRemoveAll.Ready :=
  ⟨ready.struct, ready.room, Nat.zero_le _⟩

/-- A list that is not full takes the box. -/
theorem Ready.add {A : ForegroundArray} (ready : A.Ready) (more : A.arrayGetSize < foregroundArrayCapacity) (elem : CRect) :
    (A.arrayAdd elem).Ready ∧ (A.arrayAdd elem).boxes = A.boxes ++ [elem] := by
  obtain ⟨struct, room, _⟩ := ready
  have open' : ¬ A.capacity < A.arrayGetSize + 1 := by
    rw [room]
    omega
  have stored : A.arrayAdd elem = { A with array := A.array.push elem } := by
    rw [arrayAdd, if_neg open', if_pos struct]
  rw [stored]
  exact ⟨⟨struct, room, more⟩, A.array.live_push elem⟩

/-- A full list loses its last box. -/
theorem Ready.add_full {A : ForegroundArray} (ready : A.Ready) (full : A.arrayGetSize = foregroundArrayCapacity)
    (elem : CRect) : (A.arrayAdd elem).Ready ∧ (A.arrayAdd elem).boxes = A.boxes.take (foregroundArrayCapacity - 1) := by
  obtain ⟨struct, room, _⟩ := ready
  have closed : A.capacity < A.arrayGetSize + 1 := by
    rw [room, full]
    exact Nat.lt_succ_self _
  have cut : A.arrayAdd elem = { A with array := { A.array with size := foregroundArrayCapacity - 1 } } := by
    rw [arrayAdd, if_pos closed, room]
  rw [cut]
  refine ⟨⟨struct, room, Nat.sub_le _ _⟩, ?_⟩
  have size : A.array.size = foregroundArrayCapacity := full
  simp only [boxes, Table.live, size, ← List.map_take, List.take_range]
  rfl

/-- An entry of the list is removed, and another index does nothing. -/
theorem Ready.removeAt {A : ForegroundArray} (ready : A.Ready) (nIndex : Nat) :
    (A.arrayRemoveAt nIndex).Ready ∧ (A.arrayRemoveAt nIndex).boxes = A.boxes.eraseIdx nIndex := by
  obtain ⟨struct, room, few⟩ := ready
  unfold arrayRemoveAt
  by_cases inside : nIndex + 1 ≤ A.arrayGetSize
  · rw [if_pos inside, if_pos struct]
    have entries : (List.range' (nIndex + 1) (A.arrayGetSize - (nIndex + 1))).foldl Table.moveUp A.array.entries =
        (A.array.remove nIndex).entries := by
      by_cases many : 1 < A.array.size
      · exact (if_pos many).symm
      · have only : A.arrayGetSize - (nIndex + 1) = 0 := by
          simp only [arrayGetSize] at *
          omega
        rw [only]
        exact (if_neg many).symm
    have removed := A.array.live_remove (Nat.lt_of_succ_le inside)
    rw [entries]
    exact ⟨⟨struct, room, (Nat.sub_le _ _).trans few⟩, removed⟩
  · rw [if_neg inside, List.eraseIdx_of_length_le (by rw [boxes_length]; omega)]
    exact ⟨⟨struct, room, few⟩, rfl⟩

/-- For a list of boxes it is the `ArrayAdd` of `connect_det`. -/
theorem Ready.arrayAdd_boxes {A : ForegroundArray} (ready : A.Ready) (elem : CRect) :
    (A.arrayAdd elem).Ready ∧ (A.arrayAdd elem).boxes = Alg.arrayAdd A.boxes elem := by
  unfold Alg.arrayAdd
  rw [boxes_length]
  by_cases full : A.arrayGetSize = foregroundArrayCapacity
  · rw [full]
    exact ready.add_full full elem
  · have more : A.arrayGetSize < foregroundArrayCapacity := Nat.lt_of_le_of_ne ready.few full
    have few : ¬ 199 < A.arrayGetSize := Nat.not_lt.mpr (Nat.le_of_lt_succ more)
    rw [if_neg few]
    exact ready.add more elem

end ForegroundArray

/-! ## Runs -/

inductive ArrayCall where
  | init
  | add (elem : CRect)
  | removeAt (nIndex : Nat)
  | removeAll
  deriving DecidableEq

namespace ArrayCall

/-- The call on the list. -/
def run (A : ForegroundArray) : ArrayCall → ForegroundArray
  | init => A.arrayInit sizeofForegroundArray foregroundArrayCapacity
  | add elem => A.arrayAdd elem
  | removeAt nIndex => A.arrayRemoveAt nIndex
  | removeAll => A.arrayRemoveAll

/-- The call on a sequence of at most 200 boxes. -/
def onSequence (xs : List CRect) : ArrayCall → List CRect
  | init | removeAll => []
  | add elem => if xs.length < foregroundArrayCapacity then xs ++ [elem] else xs
  | removeAt nIndex => xs.eraseIdx nIndex

/-- No box is added to a full sequence. -/
def Fits (xs : List CRect) : ArrayCall → Prop
  | add _ => xs.length < foregroundArrayCapacity
  | _ => True

end ArrayCall

/-- The sequence after some calls. -/
def sequenceAfter (calls : List ArrayCall) : List CRect := calls.foldl ArrayCall.onSequence []

theorem sequenceAfter_snoc (calls : List ArrayCall) (call : ArrayCall) :
    sequenceAfter (calls ++ [call]) = call.onSequence (sequenceAfter calls) := by
  rw [sequenceAfter, List.foldl_concat]
  rfl

/-- The list is ready and holds the sequence. -/
structure Holds (calls : List ArrayCall) (A : ForegroundArray) : Prop where
  ready : A.Ready
  same : A.boxes = sequenceAfter calls

theorem Holds.step {calls : List ArrayCall} {A : ForegroundArray} (holds : Holds calls A) {call : ArrayCall}
    (fits : call.Fits (sequenceAfter calls)) : Holds (calls ++ [call]) (call.run A) := by
  obtain ⟨ready, same⟩ := holds
  cases call with
  | init => exact ⟨A.arrayInit_ready, by rw [sequenceAfter_snoc]; rfl⟩
  | removeAll => exact ⟨ready.removeAll, by rw [sequenceAfter_snoc]; rfl⟩
  | add elem =>
    have short : (sequenceAfter calls).length < foregroundArrayCapacity := fits
    have more : A.arrayGetSize < foregroundArrayCapacity := by rwa [← A.boxes_length, same]
    obtain ⟨ready', added⟩ := ready.add more elem
    refine ⟨ready', ?_⟩
    rw [sequenceAfter_snoc, ArrayCall.onSequence, if_pos short, ← same]
    exact added
  | removeAt nIndex =>
    obtain ⟨ready', removed⟩ := ready.removeAt nIndex
    refine ⟨ready', ?_⟩
    rw [sequenceAfter_snoc, ArrayCall.onSequence, ← same]
    exact removed

/-- A box that is added to a full list takes one away. -/
theorem Holds.breaks {calls : List ArrayCall} {A : ForegroundArray} (holds : Holds calls A) {call : ArrayCall}
    (overfull : ¬ call.Fits (sequenceAfter calls)) : (call.run A).boxes ≠ sequenceAfter (calls ++ [call]) := by
  obtain ⟨ready, same⟩ := holds
  cases call with
  | init | removeAll | removeAt => exact absurd trivial overfull
  | add elem =>
    have long : ¬ (sequenceAfter calls).length < foregroundArrayCapacity := overfull
    have full : A.arrayGetSize = foregroundArrayCapacity := by
      refine Nat.le_antisymm ready.few (Nat.not_lt.mp ?_)
      rwa [← A.boxes_length, same]
    obtain ⟨_, cut⟩ := ready.add_full full elem
    intro equal
    have lengths := congrArg List.length (cut.symm.trans equal)
    rw [sequenceAfter_snoc, ArrayCall.onSequence, if_neg long, ← same, List.length_take, A.boxes_length, full] at lengths
    exact absurd lengths (by decide)

theorem lists_sequence_iff (A : ForegroundArray) (calls : List ArrayCall) :
    (∀ before call after, calls = before ++ call :: after →
        (call.run (before.foldl ArrayCall.run (A.arrayInit sizeofForegroundArray foregroundArrayCapacity))).boxes =
          sequenceAfter (before ++ [call])) ↔
      ∀ before call after, calls = before ++ call :: after → call.Fits (sequenceAfter before) :=
  foldl_iff Holds (fun before A call => (call.run A).boxes = sequenceAfter (before ++ [call]))
    (fun before _ call => call.Fits (sequenceAfter before)) (fun _ _ _ holds fits => holds.step fits)
    (fun _ _ _ holds => ⟨fun same => by_contra fun overfull => holds.breaks overfull same, fun fits => (holds.step fits).same⟩)
    ⟨A.arrayInit_ready, rfl⟩

/-! ## The boxes of `connect_det` -/

/-- The boxes that `connect_det` accepts, in the order in which they are examined. -/
def acceptedBoxes (img : BinImage) (p : BlobParams) (b : Blobs) : List CRect :=
  (b.examined.filter fun blob => p.accepts img.height blob.1 blob.2).map Prod.fst

/-- What a list holds to which boxes were added one after the other: from the 201st box on the last place is given up and
taken in turn. -/
def addedOneByOne (xs : List CRect) : List CRect :=
  if xs.length ≤ 200 then xs else xs.take 199 ++ if xs.length % 2 = 0 then xs.getLast?.toList else []

theorem arrayAdds_eq (xs : List CRect) : xs.foldl arrayAdd [] = addedOneByOne xs := by
  induction xs using List.reverseRecOn with
  | nil => rfl
  | append_singleton xs r ih =>
    rw [List.foldl_concat, ih]
    unfold addedOneByOne arrayAdd
    simp only [List.length_append, List.length_singleton]
    by_cases short : xs.length ≤ 200
    · rw [if_pos short]
      by_cases full : xs.length = 200
      · rw [if_pos (by omega), if_neg (by omega), if_neg (by omega), List.take_append_of_le_length (by omega),
          List.append_nil]
      · rw [if_neg (by omega), if_pos (by omega)]
    · have first : (xs ++ [r]).take 199 = xs.take 199 := List.take_append_of_le_length (by omega)
      have head : (xs.take 199).length = 199 := by
        rw [List.length_take]
        omega
      have nonempty : xs ≠ [] := by
        rintro rfl
        exact short (Nat.zero_le _)
      rw [if_neg short, if_neg (by omega : ¬ xs.length + 1 ≤ 200), first]
      by_cases even : xs.length % 2 = 0
      · have odd : ¬ (xs.length + 1) % 2 = 0 := by omega
        rw [if_pos even, if_neg odd, List.getLast?_eq_some_getLast nonempty, Option.toList_some, List.append_nil]
        rw [if_pos (by simp [head]), List.take_append_of_le_length (by rw [head]), List.take_take]
        rfl
      · have even' : (xs.length + 1) % 2 = 0 := by omega
        rw [if_neg even, if_pos even', List.append_nil, if_neg (by rw [head]; decide), List.getLast?_concat]
        rfl

/-- The boxes added one after the other are the first 200 exactly if there are no more, or the last one of an even number
is the same as the 200th. -/
theorem addedOneByOne_take {xs : List CRect} :
    addedOneByOne xs = xs.take 200 ↔ xs.length ≤ 200 ∨ xs.length % 2 = 0 ∧ xs.getLast? = xs[199]? := by
  unfold addedOneByOne
  by_cases short : xs.length ≤ 200
  · rw [if_pos short, List.take_of_length_le short]
    exact iff_of_true rfl (.inl short)
  · have inside : 199 < xs.length := by omega
    have first : xs.take 200 = xs.take 199 ++ [xs[199]] := by simp
    rw [if_neg short, or_iff_right short, first, List.append_cancel_left_eq, List.getElem?_eq_getElem inside]
    by_cases even : xs.length % 2 = 0
    · rw [if_pos even, and_iff_right even]
      cases xs.getLast? <;> simp
    · rw [if_neg even]
      exact iff_of_false (by simp) fun both => even both.1

/-- What `connect_det` leaves are the accepted boxes, added one after the other. -/
theorem connectDet_foreground {img : BinImage} {p : BlobParams} {b : Blobs} (done : connectDet img p [] = .ok b) :
    b.foreground = (acceptedBoxes img p b).foldl arrayAdd [] := by
  rw [connectDet_eq] at done
  obtain ⟨s, run, last⟩ := bind_ok done
  cases last
  refine foldlM_invariant (fun _ s => s.2.foreground = (acceptedBoxes img p s.2).foldl arrayAdd []) ?_ rfl run
  intro _ x s t before step
  rw [scanBlobs, scan] at step
  obtain ⟨free, _, step⟩ := bind_ok step
  cases free with
  | false =>
    cases step
    exact before
  | true =>
    obtain ⟨w, _, step⟩ := bind_ok step
    cases step
    simp only [BlobParams.examine, acceptedBoxes, List.filter_append, List.map_append, List.foldl_append] at before ⊢
    rw [before]
    by_cases kept : p.accepts img.height w.box w.array.length = true
    · simp [kept]
    · simp [kept]

/-- The array holds them after `ArrayInit`. -/
theorem adds_boxes {A : ForegroundArray} (ready : A.Ready) (xs : List CRect) :
    ((xs.map ArrayCall.add).foldl ArrayCall.run A).boxes = xs.foldl arrayAdd A.boxes := by
  induction xs generalizing A with
  | nil => rfl
  | cons r xs ih =>
    obtain ⟨ready', added⟩ := ready.arrayAdd_boxes r
    rw [List.map_cons, List.foldl_cons, List.foldl_cons, ← added]
    exact ih ready'

/-- **The foreground list**: through any calls after `ArrayInit` the list is the sequence of at most 200 boxes exactly if no
box is added while there are 200. `connect_det` leaves the first 200 accepted boxes exactly if there are no more, or an even
number of which the last is the same as the 200th. -/
theorem foreground_sequence_iff (A : ForegroundArray) (calls : List ArrayCall) :
    ((∀ before call after, calls = before ++ call :: after →
        (call.run (before.foldl ArrayCall.run (A.arrayInit sizeofForegroundArray foregroundArrayCapacity))).boxes =
          sequenceAfter (before ++ [call])) ↔
      ∀ before elem after, calls = before ++ .add elem :: after →
        (sequenceAfter before).length < foregroundArrayCapacity) ∧
    ∀ img p b, connectDet img p [] = .ok b →
      (((acceptedBoxes img p b).map ArrayCall.add).foldl ArrayCall.run
          (A.arrayInit sizeofForegroundArray foregroundArrayCapacity)).boxes = b.foreground ∧
      (b.foreground = (acceptedBoxes img p b).take foregroundArrayCapacity ↔
        (acceptedBoxes img p b).length ≤ foregroundArrayCapacity ∨
          (acceptedBoxes img p b).length % 2 = 0 ∧ (acceptedBoxes img p b).getLast? = (acceptedBoxes img p b)[199]?) := by
  constructor
  · rw [lists_sequence_iff]
    constructor
    · intro fits before elem after split
      exact fits before (.add elem) after split
    · intro fits before call after split
      cases call with
      | add elem => exact fits before elem after split
      | init | removeAt | removeAll => trivial
  · intro img p b done
    have foreground := connectDet_foreground done
    constructor
    · rw [adds_boxes A.arrayInit_ready, foreground]
      rfl
    · rw [foreground, arrayAdds_eq]
      exact addedOneByOne_take

/-- An array of which nothing is known. -/
def unsetArray : ForegroundArray := ⟨0, 0, ⟨fun _ => default, 0⟩⟩

theorem foreground_sequence_oneLight :
    connectDet oneLight anyArea [] = .ok ⟨[(⟨0, 0, 0, 0⟩, 2)], [⟨0, 0, 0, 0⟩], 1⟩ ∧
      ((([⟨0, 0, 0, 0⟩] : List CRect).map ArrayCall.add).foldl ArrayCall.run
        (unsetArray.arrayInit sizeofForegroundArray foregroundArrayCapacity)).boxes = [⟨0, 0, 0, 0⟩] := by
  have done : connectDet oneLight anyArea [] = .ok ⟨[(⟨0, 0, 0, 0⟩, 2)], [⟨0, 0, 0, 0⟩], 1⟩ := rfl
  exact ⟨done, ((foreground_sequence_iff unsetArray []).2 oneLight anyArea _ done).1⟩

/-- 201 times the same box. -/
def manyAdds : List ArrayCall := List.replicate 201 (.add ⟨0, 0, 1, 1⟩)

/-- The 201st box takes the 200th away. -/
theorem manyAdds_lose_one :
    (manyAdds.foldl ArrayCall.run (unsetArray.arrayInit sizeofForegroundArray foregroundArrayCapacity)).boxes.length = 199 ∧
      (sequenceAfter manyAdds).length = 200 ∧
      ¬ ∀ before call after, manyAdds = before ++ call :: after →
        (call.run (before.foldl ArrayCall.run (unsetArray.arrayInit sizeofForegroundArray foregroundArrayCapacity))).boxes =
          sequenceAfter (before ++ [call]) := by
  have boxes : (manyAdds.foldl ArrayCall.run
      (unsetArray.arrayInit sizeofForegroundArray foregroundArrayCapacity)).boxes.length = 199 := by
    have added := adds_boxes unsetArray.arrayInit_ready (List.replicate 201 ⟨0, 0, 1, 1⟩)
    rw [List.map_replicate] at added
    rw [manyAdds, added]
    decide +kernel
  have sequence : (sequenceAfter manyAdds).length = 200 := by decide +kernel
  refine ⟨boxes, sequence, fun all => ?_⟩
  have last := all (List.replicate 200 (.add ⟨0, 0, 1, 1⟩)) (.add ⟨0, 0, 1, 1⟩) [] (by decide +kernel)
  have whole : List.replicate 200 (ArrayCall.add ⟨0, 0, 1, 1⟩) ++ [.add ⟨0, 0, 1, 1⟩] = manyAdds := by decide +kernel
  have lengths := congrArg List.length last
  rw [whole, sequence] at lengths
  rw [← whole, List.foldl_concat, lengths] at boxes
  cases boxes

end VideoDetector.Alg
