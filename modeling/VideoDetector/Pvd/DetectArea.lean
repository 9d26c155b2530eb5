import Mathlib.Order.Bounds.Basic
import VideoDetector.Pvd.CameraManager

/-!
# The rectangle of a detection area (`area_2_rect` in `Pvd/c4processor.h`)

The two overloads take the points of an area from JSON values or from packets. The least and the greatest coordinates
start at 10000 and 0 instead of at the first point; `area_box_iff` says for which points this is noticed.
-/

namespace VideoDetector.Pvd
set_option autoImplicit false

/-- `Rect`. -/
structure Rect where
  x : Int
  y : Int
  width : Int
  height : Int
  deriving DecidableEq

/-- `x_min`, `y_min`, `x_max` and `y_max`. -/
structure Extent where
  xMin : Int
  yMin : Int
  xMax : Int
  yMax : Int

namespace Extent

def start : Extent := ⟨10000, 10000, 0, 0⟩

/-- The comparisons with a point. -/
def grow (e : Extent) (x y : Int) : Extent :=
  ⟨if x < e.xMin then x else e.xMin, if y < e.yMin then y else e.yMin, if x > e.xMax then x else e.xMax,
    if y > e.yMax then y else e.yMax⟩

/-- `Rect(x_min,y_min,x_max-x_min,y_max-y_min)`, with differences of the type `int`. -/
def rect (e : Extent) : Rect := ⟨e.xMin, e.yMin, (e.xMax - e.xMin).bmod 4294967296, (e.yMax - e.yMin).bmod 4294967296⟩

end Extent

section
variable {R : Type} (doubles : Doubles R)

/-- `DataPacket`. -/
structure Packet (R : Type) where
  val : Value R

/-- The body of the loop. -/
def areaStep (e : Extent) (pkt : Packet R) : Except Fault Extent := do
  let x ← getInt doubles pkt.val "x"
  let y ← getInt doubles pkt.val "y"
  return e.grow x.1 y.1

/-- `area_2_rect` with packets. -/
def areaToRect (area : List (Packet R)) : Except Fault Rect := do
  return (← area.foldlM (areaStep doubles) .start).rect

/-- `area_2_rect` with JSON values, of each of which a packet is made. -/
def jsonAreaToRect (area : List (Value R)) : Except Fault Rect := do
  return (← area.foldlM (fun e v => areaStep doubles e ⟨v⟩) .start).rect

/-- A packet with two coordinates of the type `int`. -/
structure AreaPoint where
  pkt : Packet R
  x : CInt
  y : CInt
  hasX : getInt doubles pkt.val "x" = .ok x
  hasY : getInt doubles pkt.val "y" = .ok y

variable {doubles}

/-- The result is the smallest rectangle with all points, of both overloads and in any order of the points. -/
structure SmallestRect (area : List (AreaPoint doubles)) : Prop where
  box : ∃ r, areaToRect doubles (area.map AreaPoint.pkt) = .ok r ∧ jsonAreaToRect doubles (area.map fun p => p.pkt.val) = .ok r ∧
    (IsLeast { x | ∃ p ∈ area, p.x.1 = x } r.x ∧ IsGreatest { x | ∃ p ∈ area, p.x.1 = x } (r.x + r.width) ∧ 0 ≤ r.width) ∧
    IsLeast { y | ∃ p ∈ area, p.y.1 = y } r.y ∧ IsGreatest { y | ∃ p ∈ area, p.y.1 = y } (r.y + r.height) ∧ 0 ≤ r.height
  order : ∀ area' : List (AreaPoint doubles), area'.Perm area →
    areaToRect doubles (area'.map AreaPoint.pkt) = areaToRect doubles (area.map AreaPoint.pkt) ∧
      jsonAreaToRect doubles (area'.map fun p => p.pkt.val) = jsonAreaToRect doubles (area.map fun p => p.pkt.val)

/-- Some number is at most 10000, some number is not negative, and no difference overflows. -/
structure Framed (s : Set Int) : Prop where
  low : ∃ v ∈ s, v ≤ 10000
  high : ∃ v ∈ s, 0 ≤ v
  near : ∀ v ∈ s, ∀ w ∈ s, w - v < 2147483648

end

/-! ## Least and greatest numbers -/

section
variable {α β : Type} [LinearOrder β] (f : α → β)

/-- The least of a first number and those of a list. -/
theorem foldl_isLeast (start : β) (ps : List α) :
    IsLeast (insert start { x | ∃ p ∈ ps, f p = x }) (ps.foldl (fun m p => if f p < m then f p else m) start) := by
  induction ps generalizing start with
  | nil => exact ⟨Set.mem_insert _ _, by simp [lowerBounds]⟩
  | cons p ps ih =>
    obtain ⟨there, below⟩ := ih (if f p < start then f p else start)
    rw [List.foldl_cons]
    have first := below (Set.mem_insert _ _)
    have next : (if f p < start then f p else start) ≤ start ∧ (if f p < start then f p else start) ≤ f p := by
      split
      next less => exact ⟨less.le, le_rfl⟩
      next more => exact ⟨le_rfl, not_lt.mp more⟩
    constructor
    · rcases there with same | ⟨q, member, same⟩
      · rw [same]
        split
        next => exact .inr ⟨p, List.mem_cons_self, rfl⟩
        next => exact .inl rfl
      · exact .inr ⟨q, List.mem_cons_of_mem p member, same⟩
    · rintro x (rfl | ⟨q, member, rfl⟩)
      · exact first.trans next.1
      · rcases List.mem_cons.mp member with rfl | member
        · exact first.trans next.2
        · exact below (.inr ⟨q, member, rfl⟩)

/-- The greatest of a first number and those of a list. -/
theorem foldl_isGreatest (start : β) (ps : List α) :
    IsGreatest (insert start { x | ∃ p ∈ ps, f p = x }) (ps.foldl (fun m p => if f p > m then f p else m) start) :=
  @foldl_isLeast α βᵒᵈ _ f start ps

/-- The first number does not matter for the least one exactly if some other is not greater. -/
theorem isLeast_insert_iff {s : Set β} {a m : β} (least : IsLeast (insert a s) m) : IsLeast s m ↔ ∃ v ∈ s, v ≤ a := by
  obtain ⟨there, below⟩ := least
  constructor
  · intro least'
    exact ⟨m, least'.1, below (Set.mem_insert a s)⟩
  · rintro ⟨v, member, le⟩
    refine ⟨?_, fun w member' => below (Set.mem_insert_of_mem a member')⟩
    rcases there with rfl | there
    · rwa [le_antisymm (below (Set.mem_insert_of_mem m member)) le]
    · exact there

theorem isGreatest_insert_iff {s : Set β} {a m : β} (greatest : IsGreatest (insert a s) m) : IsGreatest s m ↔ ∃ v ∈ s, a ≤ v :=
  @isLeast_insert_iff βᵒᵈ _ _ _ _ greatest

end

/-- One side of the rectangle, from the least and the greatest number that the loop finds. -/
theorem side_iff {s : Set Int} {lo hi : Int} (ints : ∀ v ∈ s, -2147483648 ≤ v ∧ v < 2147483648)
    (least : IsLeast (insert 10000 s) lo) (greatest : IsGreatest (insert 0 s) hi) :
    (IsLeast s lo ∧ IsGreatest s (lo + (hi - lo).bmod 4294967296) ∧ 0 ≤ (hi - lo).bmod 4294967296) ↔ Framed s := by
  have wraps := Int.bmod_def (hi - lo) 4294967296
  generalize (hi - lo).bmod 4294967296 = width at *
  constructor
  · rintro ⟨least', greatest', positive⟩
    have low := (isLeast_insert_iff least).mp least'
    have first := ints lo least'.1
    have last := ints _ greatest'.1
    have zero : 0 ≤ hi := greatest.2 (Set.mem_insert 0 s)
    have above : lo + width ≤ hi := greatest.2 (Set.mem_insert_of_mem 0 greatest'.1)
    have below : hi < 2147483648 := by
      rcases greatest.1 with same | member
      · omega
      · exact (ints hi member).2
    refine ⟨low, ⟨_, greatest'.1, by omega⟩, fun v member w member' => ?_⟩
    have less := least'.2 member
    have more := greatest'.2 member'
    omega
  · rintro ⟨low, high, near⟩
    have least' := (isLeast_insert_iff least).mpr low
    have greatest' := (isGreatest_insert_iff greatest).mpr high
    have difference := near lo least'.1 hi greatest'.1
    have ordered := least'.2 greatest'.1
    have exactly : lo + width = hi := by omega
    rw [exactly]
    exact ⟨least', greatest', by omega⟩

/-! ## The loop -/

section
variable {R : Type} {doubles : Doubles R} {area : List (AreaPoint doubles)}

/-- The extent of some points. -/
def extentOf (area : List (AreaPoint doubles)) : Extent := area.foldl (fun e p => e.grow p.x.1 p.y.1) .start

theorem extentOf_eq : extentOf area =
    ⟨area.foldl (fun m p => if p.x.1 < m then p.x.1 else m) 10000, area.foldl (fun m p => if p.y.1 < m then p.y.1 else m) 10000,
      area.foldl (fun m p => if p.x.1 > m then p.x.1 else m) 0, area.foldl (fun m p => if p.y.1 > m then p.y.1 else m) 0⟩ := by
  unfold extentOf
  induction area using List.reverseRecOn with
  | nil => rfl
  | append_singleton area p ih =>
    simp only [List.foldl_append, List.foldl_cons, List.foldl_nil]
    rw [ih]
    rfl

theorem areaStep_ok (e : Extent) (p : AreaPoint doubles) : areaStep doubles e p.pkt = .ok (e.grow p.x.1 p.y.1) := by
  rw [areaStep, p.hasX, p.hasY]
  rfl

theorem areaToRect_eq : areaToRect doubles (area.map AreaPoint.pkt) = .ok (extentOf area).rect := by
  have run : (area.map AreaPoint.pkt).foldlM (areaStep doubles) .start = .ok (extentOf area) := by
    rw [List.foldlM_map, extentOf]
    generalize Extent.start = e
    induction area generalizing e with
    | nil => rfl
    | cons p area ih =>
      rw [List.foldlM_cons, areaStep_ok]
      exact ih _
  rw [areaToRect, run]
  rfl

/-- The two overloads do the same. -/
theorem jsonAreaToRect_eq : jsonAreaToRect doubles (area.map fun p => p.pkt.val) = areaToRect doubles (area.map AreaPoint.pkt) := by
  rw [jsonAreaToRect, areaToRect, List.foldlM_map, List.foldlM_map]

/-- The order of the points does not matter. -/
theorem extentOf_perm {area' : List (AreaPoint doubles)} (perm : area'.Perm area) : extentOf area' = extentOf area := by
  have same (f : AreaPoint doubles → Int) : { v | ∃ p ∈ area', f p = v } = { v | ∃ p ∈ area, f p = v } := by
    simp only [perm.mem_iff]
  have least (f : AreaPoint doubles → Int) : area'.foldl (fun m p => if f p < m then f p else m) 10000 =
      area.foldl (fun m p => if f p < m then f p else m) 10000 :=
    (same f ▸ foldl_isLeast f 10000 area').unique (foldl_isLeast f 10000 area)
  have greatest (f : AreaPoint doubles → Int) : area'.foldl (fun m p => if f p > m then f p else m) 0 =
      area.foldl (fun m p => if f p > m then f p else m) 0 :=
    (same f ▸ foldl_isGreatest f 0 area').unique (foldl_isGreatest f 0 area)
  rw [extentOf_eq, extentOf_eq, least fun p => p.x.1, least fun p => p.y.1, greatest fun p => p.x.1, greatest fun p => p.y.1]

/-- **The rectangle of a detection area** is the smallest one around the points exactly if one of them is at most 10000 and
one not negative, in both coordinates, and no difference of two coordinates overflows. -/
theorem area_box_iff (area : List (AreaPoint doubles)) :
    SmallestRect area ↔ Framed { x | ∃ p ∈ area, p.x.1 = x } ∧ Framed { y | ∃ p ∈ area, p.y.1 = y } := by
  have ints (f : AreaPoint doubles → CInt) : ∀ v ∈ { v | ∃ p ∈ area, (f p).1 = v }, -2147483648 ≤ v ∧ v < 2147483648 := by
    rintro _ ⟨p, _, rfl⟩
    exact (f p).2
  have shape : (extentOf area).rect = ⟨(extentOf area).xMin, (extentOf area).yMin,
    ((extentOf area).xMax - (extentOf area).xMin).bmod 4294967296, ((extentOf area).yMax - (extentOf area).yMin).bmod 4294967296⟩ := rfl
  have columns := side_iff (ints AreaPoint.x) (foldl_isLeast (fun p => p.x.1) 10000 area) (foldl_isGreatest (fun p => p.x.1) 0 area)
  have rows := side_iff (ints AreaPoint.y) (foldl_isLeast (fun p => p.y.1) 10000 area) (foldl_isGreatest (fun p => p.y.1) 0 area)
  rw [← columns, ← rows]
  constructor
  · rintro ⟨⟨r, done, _, box⟩, _⟩
    rw [areaToRect_eq, extentOf_eq] at done
    cases done
    exact box
  · intro box
    refine ⟨⟨_, areaToRect_eq, jsonAreaToRect_eq.trans areaToRect_eq, ?_⟩, fun area' perm => ?_⟩
    · rw [extentOf_eq]
      exact box
    · rw [jsonAreaToRect_eq, jsonAreaToRect_eq, areaToRect_eq, areaToRect_eq, extentOf_perm perm]
      exact ⟨rfl, rfl⟩

end

/-- The point (20000, 20000). -/
def farPoint : AreaPoint noDoubles where
  pkt := ⟨.object [("x", .int 20000), ("y", .int 20000)]⟩
  x := ⟨20000, by decide⟩
  y := ⟨20000, by decide⟩
  hasX := rfl
  hasY := rfl

/-- The rectangle of a point far to the right and below begins at 10000. -/
theorem farPoint_misplaced :
    areaToRect noDoubles [farPoint.pkt] = .ok ⟨10000, 10000, 10000, 10000⟩ ∧ ¬ SmallestRect [farPoint] := by
  have result : areaToRect noDoubles [farPoint.pkt] = .ok ⟨10000, 10000, 10000, 10000⟩ := rfl
  refine ⟨result, fun smallest => ?_⟩
  obtain ⟨r, done, _, ⟨least, _⟩, _⟩ := smallest.box
  cases result.symm.trans done
  obtain ⟨p, member, same⟩ := least.1
  rw [List.mem_singleton.mp member] at same
  exact absurd same (by decide)

end VideoDetector.Pvd
