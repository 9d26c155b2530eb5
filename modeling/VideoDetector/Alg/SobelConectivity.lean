import VideoDetector.Alg.ConnectDet
import VideoDetector.Alg.Sampling

/-!
# Queues in the edge image (`SobelConectivity` and `Sobelfilt` in `fvd-new/alg-mutilthread/m_arith.cpp`)

The components of the edge image of a lane are searched from the odd columns of every second row, and each gets the label
`connectnum` in `out`. A large one is judged by `Sobelfilt` from the pixels with its label inside its box. The label is
advanced after a component, but not after one that was accepted, and it comes again after 255. The calls of `Sobelfilt`
and the accepted boxes are kept beside the variables of the source. Fractions are exact.
-/

namespace VideoDetector.Alg
set_option autoImplicit false
open Lib

/-- The pixel lies in the box. -/
def CRect.Holding (r : CRect) (p : Pixel) : Prop := r.left ≤ p.1 ∧ p.1 ≤ r.right ∧ r.top ≤ p.2 ∧ p.2 ≤ r.bottom

/-- `for (i = a; i <= b; i++)`. -/
def fromTo (a b : Int) : List Int := (List.range (b + 1 - a).toNat).map fun i : Nat => a + i

/-- What `SobelConectivity` reads of `cSpeedDesc`, and the band of the tail. `Headposition` is the height of the lane or
twice the row of a target. -/
structure SobelArgs where
  getQuebackFlag : Bool
  headposition : Nat
  tailtop : Int
  tailbottom : Int

namespace BinImage
variable (img : BinImage)

/-- The rows and columns that are searched. -/
def InLane (p : Pixel) : Prop := 5 ≤ p.2 ∧ p.2 < (img.height : Int) - 5 ∧ 1 ≤ p.1 ∧ p.1 < (img.width : Int) - 1

instance (p : Pixel) : Decidable (img.InLane p) := inferInstanceAs (Decidable (_ ∧ _ ∧ _ ∧ _))

/-- The search of `SobelConectivity`, with the label in `out`. -/
def sobelSearcher (connectnum : Nat) : Searcher (Nat → UInt8) Pixel BlobFault where
  free out p := do
    if img.InLane p then
      if (← img.getImagePointValue img.bytes p) ≠ 0 then return (← img.getImagePointValue out p) == 0 else return false
    else return false
  mark out p := img.setImagePointValue out p (UInt8.ofNat connectnum)
  around := shifted eightAndSelf
  store p := (uint16 p.1, uint16 p.2)
  room := pointArrayMax
  overrun := .pointArray
  unfinished := .unfinished

/-- The search from a place. -/
def sobelSearch (connectnum : Nat) (out : Nat → UInt8) (x : Pixel) : Except BlobFault (Wave (Nat → UInt8) Pixel CRect) :=
  search (img.sobelSearcher connectnum) CRect.note (img.width * img.height + 1) CRect.start out x

/-- The places from which is searched, all of them in the lane. -/
def sobelSeeds : List Pixel :=
  (List.range ((img.height - 9) / 2) ×ˢ List.range ((img.width - 1) / 2)).map fun p =>
    ((2 * p.2 + 1 : Nat), (2 * p.1 + 5 : Nat))

/-- `heightTH`. As a float 0.2 is greater than the double 0.2. -/
def heightTH (bottom : Int) : Int :=
  if (img.height : Int) ≤ 5 * bottom then (img.height / 10 : Nat)
  else if 10 * bottom < img.height then (img.height / 20 : Nat)
  else (7 * img.height / 100 : Nat)

/-- A box for which `Sobelfilt` is called. -/
def isLarge (r : CRect) : Bool := decide (((img.width / 2 : Nat) : Int) < r.width) && decide (img.heightTH r.bottom < r.height)

/-- The least and the greatest column of a row with the label. -/
def labelledColumns (image : Nat → UInt8) (connectnum : Nat) (r : CRect) (row : Int) : Except BlobFault (Int × Int) :=
  (fromTo r.left r.right).foldlM
    (fun (leftPos, rightPos) col => do
      if (← img.getImagePointValue image (col, row)).toNat = connectnum then
        return (if leftPos < col then leftPos else col, if rightPos > col then rightPos else col)
      else return (leftPos, rightPos))
    ((img.width : Int), (0 : Int))

/-- The variables of `Sobelfilt`. -/
structure Sobelfilt where
  carLine : Nat
  lastCarposition : Int
  getcarlastpos : Bool

/-- One row. -/
def filtRow (getQuebackFlag : Bool) (image : Nat → UInt8) (connectnum : Nat) (r : CRect) (getcar : Bool) (s : Sobelfilt)
    (row : Int) : Except BlobFault Sobelfilt := do
  let (leftPos, rightPos) ← img.labelledColumns image connectnum r row
  let sobelnum := rightPos - leftPos + 1
  if (img.width * 3 / 10 : Nat) ≤ sobelnum then
    if getQuebackFlag = false ∧ getcar = false ∧ s.getcarlastpos = false then return ⟨s.carLine + 1, row, true⟩
    else return { s with carLine := s.carLine + 1 }
  else return s

/-- Half of the rows are wide, or a tenth of the lane. -/
def accepts (r : CRect) (s : Sobelfilt) : Bool :=
  decide (r.bottom - r.top + 1 ≤ 2 * (s.carLine : Int)) || decide (img.height ≤ 10 * s.carLine)

/-- `Sobelfilt`, with `LastCarposition` before and after. -/
def sobelfilt (getQuebackFlag : Bool) (image : Nat → UInt8) (connectnum : Nat) (r : CRect) (getcar : Bool)
    (lastCarposition : Int) : Except BlobFault (Bool × Int) := do
  let s ← (fromTo r.top r.bottom).foldlM (img.filtRow getQuebackFlag image connectnum r getcar) ⟨0, lastCarposition, false⟩
  return (img.accepts r s, s.lastCarposition)

end BinImage

/-- A call of `Sobelfilt`: the place of the search, what is passed, and what comes back. -/
structure Judged where
  seed : Pixel
  out : Nat → UInt8
  connectnum : Nat
  rtConnect : CRect
  getCar : Bool
  lastCarposition : Int
  accepted : Bool
  position : Int

/-- The variables of `SobelConectivity`, the calls of `Sobelfilt`, and the accepted boxes as they are compared with the
tail. -/
structure SobelState where
  out : Nat → UInt8
  connectnum : Nat
  getCar : Bool
  stopCal : Bool
  lastCarposition : Int
  linenum : Int
  isCarInTail : Bool
  judged : List Judged
  accepted : List CRect

/-- The box overlaps the band of the tail. -/
def SobelArgs.Overlaps (c : SobelArgs) (r : CRect) : Prop := 0 < min c.tailbottom r.bottom - max c.tailtop r.top

instance (c : SobelArgs) (r : CRect) : Decidable (c.Overlaps r) := inferInstanceAs (Decidable (_ < _))

namespace SobelState
variable (img : BinImage) (c : SobelArgs) (s : SobelState)

/-- The next label. -/
def advance : SobelState := { s with connectnum := if 255 ≤ s.connectnum then 1 else s.connectnum + 1 }

/-- The first accepted component. -/
def firstCar (r : CRect) : SobelState × CRect :=
  let r := { r with top := int16 (min r.top c.headposition) }
  if c.getQuebackFlag = false then
    let r := { r with top := int16 s.lastCarposition }
    ({ s with getCar := true, linenum := r.bottom - r.top }, r)
  else ({ s with getCar := true, lastCarposition := r.top, linenum := r.bottom - r.top }, r)

/-- The accepted box and the tail. -/
def compareTail (r : CRect) : SobelState :=
  if c.Overlaps r then { s with isCarInTail := true, stopCal := true, accepted := s.accepted ++ [r] }
  else { s with isCarInTail := false, accepted := s.accepted ++ [r] }

/-- A component that `Sobelfilt` accepts; the label stays. -/
def accept (r : CRect) : SobelState :=
  if s.getCar then s.compareTail c r
  else
    let first := s.firstCar c r
    first.1.compareTail c first.2

/-- A large component. -/
def judge (x : Pixel) (r : CRect) : Except BlobFault SobelState := do
  let (accepted, position) ← img.sobelfilt c.getQuebackFlag s.out s.connectnum r s.getCar s.lastCarposition
  let call : Judged := ⟨x, s.out, s.connectnum, r, s.getCar, s.lastCarposition, accepted, position⟩
  let s := { s with lastCarposition := position, judged := s.judged ++ [call] }
  if accepted then return s.accept c r else return s.advance

/-- One place. -/
def step (x : Pixel) : Except BlobFault SobelState := do
  if s.stopCal then return s
  else if ← (img.sobelSearcher s.connectnum).free s.out x then
    let w ← img.sobelSearch s.connectnum s.out x
    let s := { s with out := w.marks }
    if img.isLarge w.box then s.judge img c x w.box else return s.advance
  else return s

/-- Before the loops. -/
def start (lastCarposition linenum : Int) (isCarInTail : Bool) : SobelState :=
  ⟨fun _ => 0, 1, false, false, lastCarposition, linenum, isCarInTail, [], []⟩

/-- Behind the loops. -/
def finish : SobelState :=
  if s.getCar then s else { s with lastCarposition := img.height, linenum := 0, isCarInTail := false }

end SobelState

/-- `SobelConectivity`: the last state and `percent`. -/
def sobelConectivity (img : BinImage) (c : SobelArgs) (lastCarposition linenum : Int) (isCarInTail : Bool) :
    Except BlobFault (SobelState × ℚ) := do
  let s ← img.sobelSeeds.foldlM (SobelState.step img c) (.start lastCarposition linenum isCarInTail)
  let s := s.finish img
  return (s, 1 - s.lastCarposition / img.height)

/-! ## The search of a component -/

namespace BinImage
variable {img : BinImage}

variable (img) in
/-- The set pixels of the lane. -/
def Edge (p : Pixel) : Prop := img.InLane p ∧ img.bytes (img.address p) ≠ 0

variable (img) in
/-- The component of a pixel in the lane. -/
def queue (x : Pixel) : Set Pixel := component img.Edge (shifted eightAndSelf) x

variable (img) in
def label (image : Nat → UInt8) (p : Pixel) : Nat := (image (img.address p)).toNat

/-- The sizes in which a pixel below row 32768 is read where it is. -/
structure Slim (img : BinImage) : Prop where
  columns : img.width ≤ 32768
  rows : img.height < 65536

/-- A lane of the size that `ptGetDot` gives, which is asked for 200 columns. -/
theorem slim_of_dots (u : Conversions) (q : Quad) (columns : img.width = (ptGetDot u q 200).x)
    (rows : img.height = (ptGetDot u q 200).y) : img.Slim := by
  constructor
  · rw [columns]
    exact (q.cols_le (by decide)).trans (by decide)
  · rw [rows]
    exact q.rows_lt 200

variable (img) in
/-- The rows that are looked at in a search of the component are below 32768. -/
def Addressed (x : Pixel) : Prop := ∀ p ∈ img.queue x, ∀ q ∈ shifted eightAndSelf p, img.InLane q → q.2 < 32768

instance (p : Pixel) : Decidable (img.Edge p) := inferInstanceAs (Decidable (_ ∧ _))

instance (image : Nat → UInt8) (p : Pixel) : Decidable (img.Marked image p) := inferInstanceAs (Decidable (_ ∧ _))

theorem InLane.inside {p : Pixel} (lane : img.InLane p) : img.Inside p := by
  obtain ⟨top, bottom, left, right⟩ := lane
  exact ⟨by omega, by omega, by omega, by omega⟩

theorem InLane.fits (slim : img.Slim) {p : Pixel} (lane : img.InLane p) (low : p.2 < 32768) : p.Fits := by
  obtain ⟨top, bottom, left, right⟩ := lane
  have columns := slim.columns
  exact ⟨⟨by omega, by omega⟩, by omega, low⟩

/-- A row from 32768 on is read outside the image. -/
theorem InLane.not_read (slim : img.Slim) {p : Pixel} (lane : img.InLane p) (high : ¬ p.2 < 32768) (image : Nat → UInt8)
    (v : UInt8) : img.getImagePointValue image p ≠ .ok v := by
  obtain ⟨top, bottom, left, right⟩ := lane
  obtain ⟨columns, rows⟩ := slim
  have outside : pointAddress img.width p < 0 := by
    rw [pointAddress, int16_of_high (by omega) (by omega), int16_of_lt (n := p.1) (by omega) (by omega),
      uint16_of_lt (by omega) (by omega)]
    nlinarith
  intro done
  rw [getImagePointValue, if_neg fun inside => absurd inside.1 (Int.not_le.mpr outside)] at done
  cases done

variable (img) in
/-- A pixel that is read where it is. -/
def Stored (p : Pixel) : Prop := img.Inside p ∧ p.Fits

theorem label_zero {image : Nat → UInt8} {p : Pixel} (inside : img.Inside p) (unmarked : ¬ img.Marked image p) :
    image (img.address p) = 0 := by
  by_contra set
  exact unmarked ⟨inside, set⟩

variable (img) in
/-- The set pixels of the rows below 32768. -/
def LowEdge (p : Pixel) : Prop := img.Edge p ∧ p.2 < 32768

variable (img) in
/-- The test of a search that passes over the rows from 32768 on. -/
def lowFree (n : Nat) (out : Nat → UInt8) (p : Pixel) : Except BlobFault Bool :=
  if p.2 < 32768 then (img.sobelSearcher n).free out p else .ok false

/-- The test of the search is this one, but in those rows it fails. -/
theorem sobelFree_guarded (slim : img.Slim) (n : Nat) (out : Nat → UInt8) (p : Pixel) (b : Bool) :
    (img.sobelSearcher n).free out p = .ok b ↔ img.lowFree n out p = .ok b ∧ (img.InLane p → p.2 < 32768) := by
  by_cases low : p.2 < 32768
  · rw [lowFree, if_pos low]
    exact (and_iff_left fun _ => low).symm
  · rw [lowFree, if_neg low]
    by_cases lane : img.InLane p
    · refine iff_of_false ?_ fun both => low (both.2 lane)
      intro done
      simp only [sobelSearcher, if_pos lane] at done
      obtain ⟨v, read, _⟩ := bind_ok done
      exact lane.not_read slim low _ _ read
    · simp only [sobelSearcher, if_neg lane]
      exact (and_iff_left fun lane' => absurd lane' lane).symm

theorem lowSearcher_lawful (slim : img.Slim) {n : Nat} (label : 0 < n ∧ n < 256) :
    Searcher.Lawful { img.sobelSearcher n with free := img.lowFree n } (fun _ => True) img.LowEdge img.Marked where
  free out p _ := by
    by_cases low : p.2 < 32768
    · by_cases lane : img.InLane p
      · obtain ⟨b, tested, free⟩ := free_of_fits slim.columns lane.inside (lane.fits slim low) img.bytes out
        simp only [lowFree, if_pos low, sobelSearcher, if_pos lane]
        refine ⟨b, tested, free.trans ?_⟩
        rw [LowEdge, Edge, and_iff_right lane, and_iff_left low]
      · simp only [lowFree, if_pos low, sobelSearcher, if_neg lane]
        refine ⟨_, rfl, ?_⟩
        simp [LowEdge, Edge, lane]
    · simp only [lowFree, if_neg low]
      refine ⟨_, rfl, ?_⟩
      simp [LowEdge, low]
  mark out p _ edge := by
    obtain ⟨⟨lane, _⟩, low⟩ := edge
    have set : UInt8.ofNat n ≠ 0 := by
      intro zero
      have same := congrArg UInt8.toNat zero
      rw [UInt8.toNat_ofNat_of_lt' label.2] at same
      exact absurd same (Nat.ne_of_gt label.1)
    refine ⟨_, setImagePointValue_of_fits slim.columns lane.inside (lane.fits slim low) out _, trivial, fun q => ?_⟩
    exact marked_update lane.inside set q
  store p edge := (edge.1.1.fits slim edge.2).stored

/-- A label, and the marks of whole components in the rows below 32768. -/
structure Labels (img : BinImage) (out : Nat → UInt8) (n : Nat) : Prop where
  label : 0 < n ∧ n < 256
  whole : Whole img.Edge (shifted eightAndSelf) (img.Marked out)
  low : ∀ p, img.Marked out p → p.2 < 32768

/-- What a search from a place does: it labels the component and nothing else. -/
structure Labelled (img : BinImage) (out : Nat → UInt8) (n : Nat) (x : Pixel) (w : Wave (Nat → UInt8) Pixel CRect) : Prop where
  bounds : w.box.Bounds (img.queue x)
  low : ∀ p ∈ img.queue x, p.2 < 32768
  marks : ∀ p, img.Marked w.marks p ↔ img.Marked out p ∨ p ∈ img.queue x
  label : ∀ p, img.Inside p → (img.label w.marks p = n ↔ p ∈ img.queue x ∨ img.label out p = n)
  fresh : ∀ p ∈ img.queue x, img.label out p = 0

/-- A pixel keeps its label, or it had none and gets the new one. -/
def KeepsLabels (img : BinImage) (n : Nat) (out m : Nat → UInt8) : Prop :=
  ∀ p, img.Inside p → m (img.address p) = out (img.address p) ∨ out (img.address p) = 0 ∧ m (img.address p) = UInt8.ofNat n

section
variable {n : Nat} {out : Nat → UInt8} {x : Pixel} {w : Wave (Nat → UInt8) Pixel CRect}

variable (img n out x) in
/-- The search that passes over the rows from 32768 on. -/
def lowSearch : Except BlobFault (Wave (Nat → UInt8) Pixel CRect) :=
  search { img.sobelSearcher n with free := img.lowFree n } CRect.note (img.width * img.height + 1) CRect.start out x

theorem sobelSearch_guarded (slim : img.Slim) : img.sobelSearch n out x = .ok w ↔
    img.lowSearch n out x = .ok w ∧ ∀ q ∈ w.array, ∀ a ∈ shifted eightAndSelf q, img.InLane a → a.2 < 32768 :=
  search_guarded fun s a b => sobelFree_guarded slim n s a b

theorem lowSearch_keeps (slim : img.Slim) (label : 0 < n ∧ n < 256) (run : img.lowSearch n out x = .ok w) :
    img.KeepsLabels n out w.marks := by
  refine search_keeps (img.KeepsLabels n out) ?_ (fun p _ => .inl rfl) run
  intro m a t keeps free mark
  obtain ⟨b, tested, exact'⟩ := (img.lowSearcher_lawful slim label).free m a trivial
  cases tested.symm.trans free
  obtain ⟨⟨⟨lane, _⟩, low⟩, unmarked⟩ := exact'.mp rfl
  cases (setImagePointValue_of_fits slim.columns lane.inside (lane.fits slim low) m _).symm.trans mark
  intro p inside
  by_cases same : p = a
  · subst same
    rw [Function.update_self]
    rcases keeps p inside with old | ⟨none, _⟩
    · exact .inr ⟨old.symm.trans (label_zero inside unmarked), rfl⟩
    · exact .inr ⟨none, rfl⟩
  · have other : img.address p ≠ img.address a := fun equal => same (address_injective inside lane.inside equal)
    rw [Function.update_of_ne other]
    exact keeps p inside

theorem lowSearch_ok (slim : img.Slim) (label : 0 < n ∧ n < 256)
    (whole : Whole img.LowEdge (shifted eightAndSelf) (img.Marked out)) (edge : img.LowEdge x) (unmarked : ¬ img.Marked out x) :
    ∃ m rest, img.lowSearch n out x = .ok ⟨m, x :: rest, (x :: rest).foldl CRect.note (CRect.start x)⟩ ∧
      Found img.LowEdge (shifted eightAndSelf) x rest ∧ x ∈ rest ∧ ∀ a, img.Marked m a ↔ img.Marked out a ∨ a ∈ rest := by
  have few := img.card_pixels_le
  have room : img.pixels.card < (img.sobelSearcher n).room := Nat.lt_of_le_of_lt few img.small
  obtain ⟨m, rest, run, _, _, marks, found⟩ :=
    search_spec CRect.note (img.lowSearcher_lawful slim label) (fun a edge => img.mem_pixels edge.1.1.inside) room
      (shifted_back eightAndSelf_turned) trivial whole edge unmarked CRect.start (Nat.lt_succ_of_le few)
  have self : x ∈ shifted eightAndSelf x := List.mem_map.mpr ⟨(0, 0), by decide, by simp⟩
  exact ⟨m, rest, run, found, found.again.mpr ⟨x, self, edge⟩, marks⟩

theorem lowEdge_linked {p : Pixel} (linked : Linked img.LowEdge (shifted eightAndSelf) x p) : p ∈ img.queue x :=
  ⟨linked.1.1, Relation.ReflTransGen.mono (fun _ _ last => ⟨last.1.1, last.2⟩) x p linked.2⟩

/-- A component whose search does not look at the other rows. -/
theorem lowEdge_component (edge : img.LowEdge x)
    (tested : ∀ p, Linked img.LowEdge (shifted eightAndSelf) x p → ∀ q ∈ shifted eightAndSelf p, img.InLane q → q.2 < 32768)
    {p : Pixel} : Linked img.LowEdge (shifted eightAndSelf) x p ↔ p ∈ img.queue x := by
  refine ⟨lowEdge_linked, ?_⟩
  rintro ⟨_, way⟩
  induction way with
  | refl => exact Linked.refl edge
  | tail _ last ih => exact ih.step ⟨last.1, tested _ ih _ last.2 last.1.1⟩ last.2

/-- A pixel gets the new label exactly if it is marked by the search. -/
theorem KeepsLabels.label_iff {m : Nat → UInt8} (keeps : img.KeepsLabels n out m) (label : 0 < n ∧ n < 256)
    (marks : ∀ p, img.Marked m p ↔ img.Marked out p ∨ p ∈ img.queue x) (fresh : ∀ p ∈ img.queue x, ¬ img.Marked out p)
    {p : Pixel} (inside : img.Inside p) : img.label m p = n ↔ p ∈ img.queue x ∨ img.label out p = n := by
  unfold BinImage.label
  by_cases here : p ∈ img.queue x
  · have marked : img.Marked m p := (marks p).mpr (.inr here)
    rcases keeps p inside with old | ⟨_, new⟩
    · exact absurd (old.trans (label_zero inside (fresh p here))) marked.2
    · rw [new, UInt8.toNat_ofNat_of_lt' label.2]
      exact iff_of_true rfl (.inl here)
  · have old : m (img.address p) = out (img.address p) := by
      rcases keeps p inside with old | ⟨none, _⟩
      · exact old
      · rw [none]
        apply label_zero inside
        intro marked
        rcases (marks p).mp marked with before | now
        · exact before.2 none
        · exact here now
    rw [old]
    exact (or_iff_right here).symm

/-- **The search** from a place without a label succeeds exactly if it looks at rows below 32768 only. -/
theorem sobelSearch_spec (slim : img.Slim) (labels : img.Labels out n) (edge : img.LowEdge x) (unmarked : ¬ img.Marked out x) :
    ((∃ w, img.sobelSearch n out x = .ok w) ↔ img.Addressed x) ∧
      ∀ w, img.sobelSearch n out x = .ok w → img.Labelled out n x w := by
  obtain ⟨label, whole, lowMarks⟩ := labels
  have whole' : Whole img.LowEdge (shifted eightAndSelf) (img.Marked out) :=
    ⟨fun a mark => ⟨whole.inside a mark, lowMarks a mark⟩, fun a b mark there near => whole.closed a b mark there.1 near⟩
  obtain ⟨m, rest, run, found, again, marks⟩ := lowSearch_ok slim label whole' edge unmarked
  constructor
  · constructor
    · rintro ⟨w, done⟩
      obtain ⟨done', tested⟩ := (sobelSearch_guarded slim).mp done
      cases run.symm.trans done'
      intro p member
      rw [← lowEdge_component edge fun p linked => tested p ((found.members p).mpr linked)] at member
      exact tested p ((found.members p).mpr member)
    · intro addressed
      refine ⟨_, (sobelSearch_guarded slim).mpr ⟨run, fun q member => ?_⟩⟩
      exact addressed q (lowEdge_linked ((found.members q).mp member))
  · intro w done
    obtain ⟨done', tested⟩ := (sobelSearch_guarded slim).mp done
    cases run.symm.trans done'
    have component {p : Pixel} := @lowEdge_component img x edge (fun p linked => tested p ((found.members p).mpr linked)) p
    have same : BinImage.queue img x = Lib.component img.LowEdge (shifted eightAndSelf) x := Set.ext fun p => component.symm
    have marks' : ∀ p, img.Marked m p ↔ img.Marked out p ∨ p ∈ img.queue x := by
      intro p
      rw [marks, ← component, ← found.members, List.mem_cons]
      exact or_congr_right (or_iff_right_of_imp fun equal => equal ▸ again).symm
    have fresh : ∀ p ∈ img.queue x, ¬ img.Marked out p := fun p member mark =>
      unmarked (whole.linked mark (Linked.symm (shifted_back eightAndSelf_turned) member))
    refine ⟨?_, ?_, marks', ?_, ?_⟩
    · rw [same]
      exact CRect.found_bounds found fun q edge => edge.1.1.fits slim edge.2
    · exact fun p member => (Linked.right (component.mpr member)).2
    · exact fun p inside => (lowSearch_keeps slim label run).label_iff label marks' fresh inside
    · intro p member
      rw [BinImage.label, label_zero (Linked.right member).1.inside (fresh p member)]
      rfl

end

/-- The marks behind a search. -/
theorem Labelled.labels {out : Nat → UInt8} {n : Nat} {x : Pixel} {w : Wave (Nat → UInt8) Pixel CRect}
    (labelled : img.Labelled out n x w) (labels : img.Labels out n) : img.Labels w.marks n := by
  obtain ⟨label, whole, low⟩ := labels
  refine ⟨label, ⟨?_, ?_⟩, ?_⟩
  · intro p mark
    rcases (labelled.marks p).mp mark with before | now
    · exact whole.inside p before
    · exact Linked.right now
  · intro p q mark edge near
    rcases (labelled.marks p).mp mark with before | now
    · exact (labelled.marks q).mpr (.inl (whole.closed p q before edge near))
    · exact (labelled.marks q).mpr (.inr (Linked.step now edge near))
  · intro p mark
    rcases (labelled.marks p).mp mark with before | now
    · exact low p before
    · exact labelled.low p now

/-- The box of a component lies in the lane. -/
theorem bounds_inLane {r : CRect} {x : Pixel} (bounds : r.Bounds (img.queue x)) {p : Pixel} (member : r.Holding p) :
    img.InLane p := by
  obtain ⟨_, ⟨a, aIn, left⟩, ⟨b, bIn, top⟩, ⟨c, cIn, right⟩, ⟨d, dIn, bottom⟩⟩ := bounds
  obtain ⟨_, _, low, _⟩ := (Linked.right aIn).1
  obtain ⟨low', _⟩ := (Linked.right bIn).1
  obtain ⟨_, _, _, high⟩ := (Linked.right cIn).1
  obtain ⟨_, high', _⟩ := (Linked.right dIn).1
  obtain ⟨fromLeft, toRight, fromTop, toBottom⟩ := member
  exact ⟨by omega, by omega, by omega, by omega⟩

theorem Labelled.stored (slim : img.Slim) {out : Nat → UInt8} {n : Nat} {x : Pixel} {w : Wave (Nat → UInt8) Pixel CRect}
    (labelled : img.Labelled out n x w) {p : Pixel} (member : w.box.Holding p) : img.Stored p := by
  have lane := bounds_inLane labelled.bounds member
  obtain ⟨b, bIn, bBottom⟩ := labelled.bounds.bottom
  have low := labelled.low b bIn
  exact ⟨lane.inside, lane.fits slim (Int.lt_of_le_of_lt member.2.2.2 (bBottom ▸ low))⟩

/-- The label in the box is on the component alone exactly if no pixel of the box had it before the search. -/
theorem Labelled.own_iff {out : Nat → UInt8} {n : Nat} {x : Pixel} {w : Wave (Nat → UInt8) Pixel CRect}
    (labelled : img.Labelled out n x w) (positive : 0 < n) :
    (∀ p, w.box.Holding p → (img.label w.marks p = n ↔ p ∈ img.queue x)) ↔ ∀ p, w.box.Holding p → img.label out p ≠ n := by
  constructor
  · intro own p member old
    have inside := (bounds_inLane labelled.bounds member).inside
    have here : p ∈ img.queue x := (own p member).mp ((labelled.label p inside).mpr (.inr old))
    rw [labelled.fresh p here] at old
    exact absurd old (Nat.ne_of_lt positive)
  · intro clear p member
    have inside := (bounds_inLane labelled.bounds member).inside
    rw [labelled.label p inside]
    exact or_iff_left (clear p member)

end BinImage

/-! ## `Sobelfilt` -/

theorem mem_fromTo {a b i : Int} (member : i ∈ fromTo a b) : a ≤ i ∧ i ≤ b := by
  obtain ⟨k, range, rfl⟩ := List.mem_map.mp member
  rw [List.mem_range] at range
  omega

namespace BinImage
variable {img : BinImage} {image image' : Nat → UInt8} {n n' : Nat} {r : CRect}

theorem labelledColumns_ok (slim : img.Slim) (image : Nat → UInt8) (n : Nat) {row : Int}
    (stored : ∀ col, r.left ≤ col → col ≤ r.right → img.Stored (col, row)) :
    ∃ columns, img.labelledColumns image n r row = .ok columns := by
  obtain ⟨columns, run, _⟩ : ∃ columns, img.labelledColumns image n r row = .ok columns ∧ True := by
    refine foldlM_total (fun _ => True) (fun s col member _ => ?_) trivial
    obtain ⟨fromLeft, toRight⟩ := mem_fromTo member
    obtain ⟨inside, fits⟩ := stored col fromLeft toRight
    simp only [getImagePointValue_of_fits slim.columns inside fits, ok_bind]
    split
    · exact ⟨_, rfl, trivial⟩
    · exact ⟨_, rfl, trivial⟩
  exact ⟨columns, run⟩

/-- Only which pixels of the row have the label counts. -/
theorem labelledColumns_same (slim : img.Slim) {row : Int}
    (stored : ∀ col, r.left ≤ col → col ≤ r.right → img.Stored (col, row))
    (same : ∀ col, r.left ≤ col → col ≤ r.right → (img.label image (col, row) = n ↔ img.label image' (col, row) = n')) :
    img.labelledColumns image n r row = img.labelledColumns image' n' r row := by
  apply foldlM_same
  intro s col member
  obtain ⟨fromLeft, toRight⟩ := mem_fromTo member
  obtain ⟨inside, fits⟩ := stored col fromLeft toRight
  simp only [getImagePointValue_of_fits slim.columns inside fits, ok_bind]
  exact if_congr (same col fromLeft toRight) rfl rfl

/-- The variables behind some rows of a box. -/
structure Sobelfilt.Behind (getQuebackFlag getcar : Bool) (r : CRect) (lastCarposition : Int) (s : Sobelfilt) : Prop where
  kept : s.getcarlastpos = false → s.lastCarposition = lastCarposition
  stored : s.getcarlastpos = true → r.top ≤ s.lastCarposition ∧ s.lastCarposition ≤ r.bottom
  first : getQuebackFlag = false → getcar = false → 0 < s.carLine → s.getcarlastpos = true
  only : s.getcarlastpos = true → getQuebackFlag = false ∧ getcar = false

variable {q getcar : Bool} {last : Int}

theorem filtRow_ok (slim : img.Slim) (stored : ∀ p, r.Holding p → img.Stored p) {s : Sobelfilt}
    (behind : s.Behind q getcar r last) {row : Int} (fromTop : r.top ≤ row) (toBottom : row ≤ r.bottom) :
    ∃ t, img.filtRow q image n r getcar s row = .ok t ∧ t.Behind q getcar r last := by
  have columns : ∀ col, r.left ≤ col → col ≤ r.right → img.Stored (col, row) := fun col fromLeft toRight =>
    stored (col, row) ⟨fromLeft, toRight, fromTop, toBottom⟩
  obtain ⟨⟨leftPos, rightPos⟩, found⟩ := labelledColumns_ok slim image n columns
  simp only [filtRow, found, ok_bind]
  split
  · split
    · next fresh =>
      exact ⟨_, rfl, fun none => absurd none.symm Bool.false_ne_true, fun _ => ⟨fromTop, toBottom⟩, fun _ _ _ => rfl,
        fun _ => ⟨fresh.1, fresh.2.1⟩⟩
    · next stale =>
      refine ⟨_, rfl, behind.kept, behind.stored, fun noBack noCar _ => ?_, behind.only⟩
      by_contra none
      exact stale ⟨noBack, noCar, Bool.eq_false_of_not_eq_true none⟩
  · exact ⟨s, rfl, behind⟩

/-- `Sobelfilt` ends, and when it accepts the first component without a background, `LastCarposition` is a row of the box. -/
theorem sobelfilt_ok (slim : img.Slim) (image : Nat → UInt8) (n : Nat) (q getcar : Bool) (last : Int)
    (stored : ∀ p, r.Holding p → img.Stored p) (rows : r.top ≤ r.bottom) (high : 0 < img.height) :
    ∃ accepted position, img.sobelfilt q image n r getcar last = .ok (accepted, position) ∧
      (getcar = true → position = last) ∧
      (q = false → getcar = false → accepted = true → r.top ≤ position ∧ position ≤ r.bottom) := by
  have initial : Sobelfilt.Behind q getcar r last ⟨0, last, false⟩ :=
    ⟨fun _ => rfl, fun some => absurd some Bool.false_ne_true, fun _ _ none => absurd none (Nat.lt_irrefl 0),
      fun some => absurd some Bool.false_ne_true⟩
  obtain ⟨s, run, behind⟩ : ∃ s, (fromTo r.top r.bottom).foldlM (img.filtRow q image n r getcar) ⟨0, last, false⟩ = .ok s ∧
      s.Behind q getcar r last := by
    refine foldlM_total (Sobelfilt.Behind q getcar r last) (fun s row member behind => ?_) initial
    obtain ⟨fromTop, toBottom⟩ := mem_fromTo member
    exact filtRow_ok slim stored behind fromTop toBottom
  refine ⟨img.accepts r s, s.lastCarposition, ?_, ?_, ?_⟩
  · rw [sobelfilt, run]
    rfl
  · intro car
    apply behind.kept
    by_contra some
    have noCar := (behind.only (Bool.eq_true_of_not_eq_false some)).2
    exact Bool.false_ne_true (noCar.symm.trans car)
  · intro noBack noCar accepted
    apply behind.stored
    apply behind.first noBack noCar
    rw [accepts, Bool.or_eq_true, decide_eq_true_iff, decide_eq_true_iff] at accepted
    omega

/-- The answer depends on the labels inside the box only. -/
theorem sobelfilt_same (slim : img.Slim) (stored : ∀ p, r.Holding p → img.Stored p)
    (same : ∀ p, r.Holding p → (img.label image p = n ↔ img.label image' p = n')) :
    img.sobelfilt q image n r getcar last = img.sobelfilt q image' n' r getcar last := by
  have run : (fromTo r.top r.bottom).foldlM (img.filtRow q image n r getcar) ⟨0, last, false⟩ =
      (fromTo r.top r.bottom).foldlM (img.filtRow q image' n' r getcar) ⟨0, last, false⟩ := by
    apply foldlM_same
    intro s row member
    obtain ⟨fromTop, toBottom⟩ := mem_fromTo member
    have columns : img.labelledColumns image n r row = img.labelledColumns image' n' r row := by
      apply labelledColumns_same slim
      · exact fun col fromLeft toRight => stored (col, row) ⟨fromLeft, toRight, fromTop, toBottom⟩
      · exact fun col fromLeft toRight => same (col, row) ⟨fromLeft, toRight, fromTop, toBottom⟩
    rw [filtRow, filtRow, columns]
  rw [sobelfilt, sobelfilt, run]

end BinImage

/-- A call of `Sobelfilt` about the pixels of the component alone: the box is the one of the component, the label in it is
on these pixels only, and the answer is the one for an image with nothing else. -/
structure Judged.Own (img : BinImage) (getQuebackFlag : Bool) (j : Judged) : Prop where
  box : j.rtConnect.Bounds (img.queue j.seed)
  pixels : ∀ p, j.rtConnect.Holding p → (img.label j.out p = j.connectnum ↔ p ∈ img.queue j.seed)
  alone : ∀ image n, (∀ p, img.Inside p → (img.label image p = n ↔ p ∈ img.queue j.seed)) →
    img.sobelfilt getQuebackFlag image n j.rtConnect j.getCar j.lastCarposition = .ok (j.accepted, j.position)

namespace SobelState
variable {img : BinImage} {c : SobelArgs} {s : SobelState}

/-- The labels are right, and the tail is occupied if an accepted box overlaps it. -/
structure Good (img : BinImage) (c : SobelArgs) (s : SobelState) : Prop where
  labels : img.Labels s.out s.connectnum
  position : s.getCar = true → 0 ≤ s.lastCarposition ∧ s.lastCarposition ≤ img.height
  none : s.getCar = false → s.accepted = []
  before : s.stopCal = false → ∀ r ∈ s.accepted, ¬ c.Overlaps r
  tail : s.getCar = true → (s.isCarInTail = true ↔ ∃ r ∈ s.accepted, c.Overlaps r)

/-- The rows that the next search looks at are below 32768. -/
def Visible (img : BinImage) (s : SobelState) (x : Pixel) : Prop :=
  s.stopCal = false → (img.InLane x → x.2 < 32768) ∧ (img.Edge x → ¬ img.Marked s.out x → img.Addressed x)

theorem visible_of_low (low : img.height ≤ 32768) (s : SobelState) (x : Pixel) : s.Visible img x := by
  have rows : ∀ p, img.InLane p → p.2 < 32768 := fun p lane => by
    have bottom := lane.2.1
    omega
  exact fun _ => ⟨rows x, fun _ _ _ _ q _ => rows q⟩

/-- No pixel in the box of the component that is searched next, if it is large, has the label already. -/
def Clear (img : BinImage) (s : SobelState) (x : Pixel) : Prop :=
  s.stopCal = false → img.Edge x → ¬ img.Marked s.out x → ∀ r : CRect, r.Bounds (img.queue x) → img.isLarge r = true →
    ∀ p, r.Holding p → img.label s.out p ≠ s.connectnum

/-- A place to search from, and the label is nowhere in the image. -/
def Fresh (img : BinImage) (s : SobelState) (x : Pixel) : Prop :=
  img.Edge x → ¬ img.Marked s.out x → ∀ a < img.width * img.height, (s.out a).toNat ≠ s.connectnum

instance (x : Pixel) : Decidable (s.Fresh img x) := inferInstanceAs (Decidable (_ → _ → _))

theorem Fresh.clear {x : Pixel} (fresh : s.Fresh img x) : s.Clear img x := by
  intro _ edge unmarked r bounds _ p member
  exact fresh edge unmarked _ (BinImage.bounds_inLane bounds member).inside.address_lt

/-- All calls of `Sobelfilt` were about the pixels of one component alone. -/
def Right (img : BinImage) (c : SobelArgs) (s : SobelState) : Prop := ∀ j ∈ s.judged, j.Own img c.getQuebackFlag

theorem start_good (img : BinImage) (c : SobelArgs) (lastCarposition linenum : Int) (isCarInTail : Bool) :
    (start lastCarposition linenum isCarInTail).Good img c where
  labels := ⟨⟨Nat.one_pos, Nat.one_lt_two.trans (by decide)⟩, BinImage.whole_zero _ _, fun _ mark => absurd rfl mark.2⟩
  position car := absurd car Bool.false_ne_true
  none _ := rfl
  before _ r member := absurd member List.not_mem_nil
  tail car := absurd car Bool.false_ne_true

theorem Good.advance (good : s.Good img c) : s.advance.Good img c := by
  refine { good with labels := ⟨?_, good.labels.whole, good.labels.low⟩ }
  obtain ⟨positive, small⟩ := good.labels.label
  change 0 < (if 255 ≤ s.connectnum then 1 else s.connectnum + 1) ∧ (if 255 ≤ s.connectnum then 1 else s.connectnum + 1) < 256
  split
  · omega
  · omega

section
variable {r : CRect}

@[simp] theorem firstCar_connectnum : (s.firstCar c r).1.connectnum = s.connectnum := by
  rw [firstCar]
  split <;> rfl

@[simp] theorem firstCar_out : (s.firstCar c r).1.out = s.out := by
  rw [firstCar]
  split <;> rfl

@[simp] theorem firstCar_accepted : (s.firstCar c r).1.accepted = s.accepted := by
  rw [firstCar]
  split <;> rfl

@[simp] theorem firstCar_judged : (s.firstCar c r).1.judged = s.judged := by
  rw [firstCar]
  split <;> rfl

@[simp] theorem firstCar_getCar : (s.firstCar c r).1.getCar = true := by
  rw [firstCar]
  split <;> rfl

theorem firstCar_lastCarposition : (s.firstCar c r).1.lastCarposition =
    if c.getQuebackFlag = false then s.lastCarposition else int16 (min r.top c.headposition) := by
  rw [firstCar]
  split <;> rfl

@[simp] theorem compareTail_judged : (s.compareTail c r).judged = s.judged := by
  rw [compareTail]
  split <;> rfl

@[simp] theorem accept_judged : (s.accept c r).judged = s.judged := by
  rw [SobelState.accept]
  split <;> simp

end

/-- The accepted box is compared with the tail; the boxes before do not overlap it. -/
theorem compareTail_good {r : CRect} (labels : img.Labels s.out s.connectnum) (car : s.getCar = true)
    (position : 0 ≤ s.lastCarposition ∧ s.lastCarposition ≤ img.height) (apart : ∀ a ∈ s.accepted, ¬ c.Overlaps a) :
    (s.compareTail c r).Good img c := by
  rw [compareTail]
  split
  · next overlaps =>
    refine ⟨labels, fun _ => position, fun none => ?_, fun going => ?_, fun _ => ?_⟩
    · exact absurd (none.symm.trans car) Bool.false_ne_true
    · exact absurd going.symm Bool.false_ne_true
    · exact iff_of_true rfl ⟨r, List.mem_append_right _ List.mem_cons_self, overlaps⟩
  · next outside =>
    have all : ∀ a ∈ s.accepted ++ [r], ¬ c.Overlaps a := by
      intro a member
      rcases List.mem_append.mp member with early | last
      · exact apart a early
      · rw [List.mem_singleton.mp last]
        exact outside
    refine ⟨labels, fun _ => position, fun none => ?_, fun _ => all, fun _ => ?_⟩
    · exact absurd (none.symm.trans car) Bool.false_ne_true
    · refine iff_of_false Bool.false_ne_true ?_
      rintro ⟨a, member, overlaps⟩
      exact all a member overlaps

/-- An accepted component. Without a background `LastCarposition` is a row of the box of the first one. -/
theorem Good.accept (good : s.Good img c) (going : s.stopCal = false) {r : CRect} (top : 0 ≤ r.top) (high : r.top < 32768)
    (rows : r.top ≤ r.bottom) (bottom : r.bottom ≤ img.height)
    (stored : s.getCar = false → c.getQuebackFlag = false → r.top ≤ s.lastCarposition ∧ s.lastCarposition ≤ r.bottom) :
    (s.accept c r).Good img c := by
  rw [SobelState.accept]
  by_cases car : s.getCar = true
  · rw [if_pos car]
    exact compareTail_good good.labels car (good.position car) (good.before going)
  · have noCar := Bool.eq_false_of_not_eq_true car
    rw [if_neg car]
    refine compareTail_good ?_ ?_ ?_ ?_
    · rw [firstCar_connectnum, firstCar_out]
      exact good.labels
    · exact firstCar_getCar
    · rw [firstCar_lastCarposition]
      split
      · next noBack =>
        have between := stored noCar noBack
        omega
      · rw [int16_of_lt (by omega) (by omega)]
        omega
    · rw [firstCar_accepted]
      exact good.before going

/-- `Sobelfilt` leaves `LastCarposition` as it is once there is a car. -/
theorem Good.called (good : s.Good img c) (calls : List Judged) {position : Int}
    (kept : s.getCar = true → position = s.lastCarposition) :
    Good img c { s with lastCarposition := position, judged := calls } := by
  refine { good with position := fun car => ?_ }
  rw [kept car]
  exact good.position car

/-- A call of `Sobelfilt` for the component with the label. -/
theorem judge_ok (slim : img.Slim) (good : s.Good img c) (going : s.stopCal = false) {out : Nat → UInt8} {x : Pixel}
    {w : Wave (Nat → UInt8) Pixel CRect} (labelled : img.Labelled out s.connectnum x w) (same : s.out = w.marks) :
    ∃ t j, s.judge img c x w.box = .ok t ∧ t.Good img c ∧ t.judged = s.judged ++ [j] ∧
      (j.Own img c.getQuebackFlag ↔ ∀ p, w.box.Holding p → img.label out p ≠ s.connectnum) := by
  have stored : ∀ p, w.box.Holding p → img.Stored p := fun p => labelled.stored slim
  obtain ⟨a, aIn, aTop⟩ := labelled.bounds.top
  obtain ⟨b, bIn, bBottom⟩ := labelled.bounds.bottom
  obtain ⟨_, _, fromTop, toBottom⟩ := labelled.bounds.inside a aIn
  obtain ⟨topLow, _, _, _⟩ := (Linked.right aIn).1
  obtain ⟨_, bottomHigh, _, _⟩ := (Linked.right bIn).1
  have topHigh := labelled.low a aIn
  obtain ⟨accepted, position, run, kept, row⟩ :=
    BinImage.sobelfilt_ok slim s.out s.connectnum c.getQuebackFlag s.getCar s.lastCarposition stored (by omega) (by omega)
  have exact' : Judged.Own img c.getQuebackFlag ⟨x, s.out, s.connectnum, w.box, s.getCar, s.lastCarposition, accepted, position⟩ ↔
      ∀ p, w.box.Holding p → img.label out p ≠ s.connectnum := by
    rw [← labelled.own_iff good.labels.label.1, ← same]
    constructor
    · exact fun own => own.pixels
    · intro own
      refine ⟨labelled.bounds, own, fun image n only => ?_⟩
      rw [← run]
      exact BinImage.sobelfilt_same slim stored fun p member => (only p (stored p member).1).trans (own p member).symm
  rw [SobelState.judge, run, ok_bind]
  have good' := fun js => good.called js kept
  cases accepted with
  | false => exact ⟨_, _, rfl, (good' _).advance, rfl, exact'⟩
  | true =>
    refine ⟨_, _, rfl, (good' _).accept going (by omega) (by omega) (by omega) (by omega) ?_, accept_judged, exact'⟩
    exact fun noCar noBack => row noBack noCar rfl

/-- A step that succeeds has not read outside the image. -/
theorem step_visible (slim : img.Slim) (good : s.Good img c) {t : SobelState} {x : Pixel} (done : s.step img c x = .ok t) :
    s.Visible img x := by
  intro going
  rw [SobelState.step, if_neg (ne_true_of_eq_false going)] at done
  obtain ⟨b, tested, done⟩ := bind_ok done
  obtain ⟨tested', low⟩ := (BinImage.sobelFree_guarded slim _ _ _ _).mp tested
  refine ⟨low, fun edge unmarked => ?_⟩
  obtain ⟨b', lowTested, free⟩ := (img.lowSearcher_lawful slim good.labels.label).free s.out x trivial
  cases tested'.symm.trans lowTested
  have lowEdge : img.LowEdge x := ⟨edge, low edge.1⟩
  rw [if_pos (free.mpr ⟨lowEdge, unmarked⟩)] at done
  obtain ⟨w, run, _⟩ := bind_ok done
  exact (BinImage.sobelSearch_spec slim good.labels lowEdge unmarked).1.mp ⟨w, run⟩

/-- The step from a place whose search succeeds. -/
theorem searched_exact (slim : img.Slim) (good : s.Good img c) (going : s.stopCal = false) {x : Pixel}
    (tested : (img.sobelSearcher s.connectnum).free s.out x = .ok true) (edge : img.Edge x) (unmarked : ¬ img.Marked s.out x)
    {w : Wave (Nat → UInt8) Pixel CRect} (run : img.sobelSearch s.connectnum s.out x = .ok w)
    (labelled : img.Labelled s.out s.connectnum x w) :
    ∃ t, s.step img c x = .ok t ∧ t.Good img c ∧ (t.Right img c ↔ s.Right img c ∧ s.Clear img x) := by
  have step : s.step img c x = if img.isLarge w.box then SobelState.judge img c { s with out := w.marks } x w.box
      else .ok (SobelState.advance { s with out := w.marks }) := by
    rw [SobelState.step, if_neg (ne_true_of_eq_false going), tested, ok_bind, if_pos rfl, run]
    rfl
  have good' : SobelState.Good img c { s with out := w.marks } := { good with labels := labelled.labels good.labels }
  by_cases large : img.isLarge w.box = true
  · obtain ⟨t, j, done, goodT, calls, own⟩ := judge_ok slim good' going labelled rfl
    refine ⟨t, by rw [step, if_pos large, done], goodT, ?_⟩
    have clear : s.Clear img x ↔ ∀ p, w.box.Holding p → img.label s.out p ≠ s.connectnum := by
      constructor
      · intro clear
        exact clear going edge unmarked w.box labelled.bounds large
      · intro clear _ _ _ r bounds _
        rw [bounds.unique labelled.bounds]
        exact clear
    rw [Right, calls, clear, ← own, List.forall_mem_append, List.forall_mem_singleton]
    rfl
  · refine ⟨_, by rw [step, if_neg large], good'.advance, (and_iff_left fun _ _ _ r bounds large' => ?_).symm⟩
    rw [bounds.unique labelled.bounds] at large'
    exact absurd large' large

/-- **A step** that looks at rows below 32768 only succeeds, and a call of `Sobelfilt` in it is about one component exactly
if no pixel of the box had the label. -/
theorem step_exact (slim : img.Slim) (good : s.Good img c) {x : Pixel} (visible : s.Visible img x) :
    ∃ t, s.step img c x = .ok t ∧ t.Good img c ∧ (t.Right img c ↔ s.Right img c ∧ s.Clear img x) := by
  by_cases stop : s.stopCal = true
  · refine ⟨s, ?_, good, (and_iff_left fun going => ?_).symm⟩
    · rw [SobelState.step, if_pos stop]
      rfl
    · exact absurd (going.symm.trans stop) Bool.false_ne_true
  have going := Bool.eq_false_of_not_eq_true stop
  obtain ⟨low, addressed⟩ := visible going
  obtain ⟨b, lowTested, free⟩ := (img.lowSearcher_lawful slim good.labels.label).free s.out x trivial
  have tested := (BinImage.sobelFree_guarded slim _ _ _ _).mpr ⟨lowTested, low⟩
  cases b with
  | false =>
    refine ⟨s, ?_, good, (and_iff_left fun _ edge unmarked => ?_).symm⟩
    · rw [SobelState.step, if_neg stop, tested]
      rfl
    · exact absurd (free.mpr ⟨⟨edge, low edge.1⟩, unmarked⟩) Bool.false_ne_true
  | true =>
    obtain ⟨lowEdge, unmarked⟩ := free.mp rfl
    obtain ⟨succeeds, result⟩ := BinImage.sobelSearch_spec slim good.labels lowEdge unmarked
    obtain ⟨w, run⟩ := succeeds.mpr (addressed lowEdge.1 unmarked)
    exact searched_exact slim good going tested lowEdge.1 unmarked run (result w run)

theorem step_keeps (slim : img.Slim) (good : s.Good img c) {t : SobelState} {x : Pixel} (done : s.step img c x = .ok t) :
    t.Good img c ∧ (t.Right img c → s.Right img c) := by
  obtain ⟨t', done', good', exact'⟩ := step_exact slim good (step_visible slim good done)
  cases done.symm.trans done'
  exact ⟨good', fun right => (exact'.mp right).1⟩

theorem step_right_iff (slim : img.Slim) (good : s.Good img c) (right : s.Right img c) (x : Pixel) :
    (∃ t, s.step img c x = .ok t ∧ t.Right img c) ↔ s.Visible img x ∧ s.Clear img x := by
  constructor
  · rintro ⟨t, done, right'⟩
    have visible := step_visible slim good done
    obtain ⟨t', done', _, exact'⟩ := step_exact slim good visible
    cases done.symm.trans done'
    exact ⟨visible, (exact'.mp right').2⟩
  · rintro ⟨visible, clear⟩
    obtain ⟨t, done, _, exact'⟩ := step_exact slim good visible
    exact ⟨t, done, exact'.mpr ⟨right, clear⟩⟩

end SobelState

/-- What the call leaves behind: the calls of `Sobelfilt` were about the pixels of one component alone, the position is
one in the lane, and the tail is occupied exactly if an accepted box overlaps it. -/
structure SobelRight (img : BinImage) (c : SobelArgs) (s : SobelState) : Prop where
  judged : s.Right img c
  position : 0 ≤ s.lastCarposition ∧ s.lastCarposition ≤ img.height
  tail : s.isCarInTail = true ↔ ∃ r ∈ s.accepted, c.Overlaps r

theorem SobelState.Good.finish {img : BinImage} {c : SobelArgs} {s : SobelState} (good : s.Good img c) :
    SobelRight img c (s.finish img) ↔ s.Right img c := by
  rw [SobelState.finish]
  constructor
  · intro right
    have judged := right.judged
    split at judged
    · exact judged
    · exact judged
  · intro judged
    split
    · next car => exact ⟨judged, good.position car, good.tail car⟩
    · next noCar =>
      refine ⟨judged, ⟨Int.natCast_nonneg _, le_refl _⟩, iff_of_false Bool.false_ne_true ?_⟩
      rintro ⟨r, member, _⟩
      rw [good.none (Bool.eq_false_of_not_eq_true noCar)] at member
      cases member

/-- **When queues are judged on their own pixels**: exactly if no row from 32768 on is looked at, and no pixel in the box
of a large component has, before its search, the label that it gets. -/
theorem sobelConectivity_iff {img : BinImage} (slim : img.Slim) (c : SobelArgs) (lastCarposition linenum : Int)
    (isCarInTail : Bool) :
    (∃ d, sobelConectivity img c lastCarposition linenum isCarInTail = .ok d ∧ SobelRight img c d.1) ↔
      ∀ before x after s, img.sobelSeeds = before ++ x :: after →
        before.foldlM (SobelState.step img c) (.start lastCarposition linenum isCarInTail) = .ok s →
        s.Visible img x ∧ s.Clear img x := by
  have initial := SobelState.start_good img c lastCarposition linenum isCarInTail
  have good {s : SobelState}
      (run : img.sobelSeeds.foldlM (SobelState.step img c) (.start lastCarposition linenum isCarInTail) = .ok s) :
      s.Good img c :=
    foldlM_invariant (fun _ s => s.Good img c) (fun _ _ _ _ good done => (SobelState.step_keeps slim good done).1) initial run
  rw [← foldlM_exact (SobelState.Good img c) (SobelState.Right img c) (fun s x => s.Visible img x ∧ s.Clear img x)
    (fun s x t good done => SobelState.step_keeps slim good done)
    (fun s x good right => SobelState.step_right_iff slim good right x) initial fun j member => absurd member List.not_mem_nil]
  constructor
  · rintro ⟨d, done, right⟩
    obtain ⟨s, run, same⟩ := bind_ok done
    cases same
    exact ⟨s, run, (good run).finish.mp right⟩
  · rintro ⟨s, run, right⟩
    refine ⟨(s.finish img, 1 - (s.finish img).lastCarposition / img.height), ?_, (good run).finish.mpr right⟩
    rw [sobelConectivity, run]
    rfl

/-! ## Two queues -/

/-- A small lane with some pixels. -/
def laneOf (pixels : List Pixel) : BinImage where
  width := 9
  height := 13
  bytes a := if (((a % 9 : Nat) : Int), ((a / 9 : Nat) : Int)) ∈ pixels then 255 else 0
  small := by decide

/-- A row and a pixel under its left end. -/
def upperQueue : List Pixel := [(1, 5), (2, 5), (3, 5), (4, 5), (5, 5), (1, 6)]

/-- A row and a column at its right end, around the upper row. -/
def lowerQueue : List Pixel := [(7, 5), (7, 6), (3, 7), (4, 7), (5, 7), (6, 7), (7, 7)]

/-- The upper component has its own label. -/
def apartLane : BinImage := laneOf ((1, 7) :: upperQueue ++ lowerQueue)

/-- The upper component is accepted. -/
def sharedLane : BinImage := laneOf (upperQueue ++ lowerQueue)

/-- No background, and the tail is at the lower row. -/
def lowerTail : SobelArgs := ⟨false, 13, 6, 8⟩

/-- With one pixel more the upper component is not accepted, and each one has its own label. -/
theorem apartLane_judged_apart : ∃ d, sobelConectivity apartLane lowerTail 13 0 false = .ok d ∧
    SobelRight apartLane lowerTail d.1 := by
  have slim : apartLane.Slim := ⟨by decide, by decide⟩
  refine (sobelConectivity_iff slim lowerTail 13 0 false).mpr fun before x after s split reached => ?_
  have all : Along (SobelState.step apartLane lowerTail) (SobelState.Fresh apartLane) (.start 13 0 false)
      apartLane.sobelSeeds := by decide +kernel
  exact ⟨SobelState.visible_of_low (by decide) s x, (along_split all split reached).clear⟩

/-- What is looked at of a call. -/
def Judged.shown (img : BinImage) (j : Judged) : Pixel × CRect × Nat × Nat :=
  (j.seed, j.rtConnect, j.connectnum, img.label j.out (3, 5))

/-- The lower queue in itself. -/
theorem lowerQueue_closed {p : Pixel} (member : p ∈ sharedLane.queue (7, 5)) : p ∈ lowerQueue := by
  obtain ⟨_, way⟩ := member
  induction way with
  | refl => decide
  | tail _ last ih =>
    have near : ∀ q ∈ lowerQueue, ∀ p ∈ shifted eightAndSelf q, sharedLane.Edge p → p ∈ lowerQueue := by
      decide +kernel
    exact near _ ih _ last.2 last.1

/-- The upper component is accepted and keeps its label, so the lower one is judged with the pixels of both. -/
theorem lowerQueue_judged_with_upper :
    (∃ d, sobelConectivity sharedLane lowerTail 13 0 false = .ok d ∧
      d.1.judged.map (Judged.shown sharedLane) =
        [((1, 5), ⟨1, 5, 5, 6⟩, 1, 1), ((7, 5), ⟨3, 5, 7, 7⟩, 1, 1)] ∧ d.1.isCarInTail = true) ∧
    ¬ ∃ d, sobelConectivity sharedLane lowerTail 13 0 false = .ok d ∧
      SobelRight sharedLane lowerTail d.1 := by
  have seen : (sobelConectivity sharedLane lowerTail 13 0 false).toOption.map (fun d =>
      d.1.judged.map (Judged.shown sharedLane)) =
      some [((1, 5), ⟨1, 5, 5, 6⟩, 1, 1), ((7, 5), ⟨3, 5, 7, 7⟩, 1, 1)] := by decide +kernel
  have occupied : (sobelConectivity sharedLane lowerTail 13 0 false).toOption.map (·.1.isCarInTail) =
      some true := by decide +kernel
  cases run : sobelConectivity sharedLane lowerTail 13 0 false with
  | error e =>
    rw [run] at seen
    cases seen
  | ok d =>
    rw [run] at seen occupied
    have calls : d.1.judged.map (Judged.shown sharedLane) = [((1, 5), ⟨1, 5, 5, 6⟩, 1, 1), ((7, 5), ⟨3, 5, 7, 7⟩, 1, 1)] :=
      Option.some.inj seen
    have tail := Option.some.inj occupied
    refine ⟨⟨d, rfl, calls, tail⟩, ?_⟩
    rintro ⟨d', same, right⟩
    cases same
    have second : ((7, 5), ⟨3, 5, 7, 7⟩, 1, 1) ∈ d.1.judged.map (Judged.shown sharedLane) := by
      rw [calls]
      exact List.mem_cons_of_mem _ List.mem_cons_self
    obtain ⟨j, member, shown⟩ := List.mem_map.mp second
    obtain ⟨seed, box, label, inside⟩ : j.seed = (7, 5) ∧ j.rtConnect = ⟨3, 5, 7, 7⟩ ∧ j.connectnum = 1 ∧
        sharedLane.label j.out (3, 5) = 1 := by
      simpa [Judged.shown] using shown
    have own := (right.judged j member).pixels (3, 5)
    rw [box, label, seed] at own
    have wrong := lowerQueue_closed ((own ⟨by decide, by decide, by decide, by decide⟩).mp inside)
    exact absurd wrong (by decide)

end VideoDetector.Alg
