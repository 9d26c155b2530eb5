import VideoDetector.Lib.Rows
import VideoDetector.Lib.Runs

/-!
# Rewriting the interface file (`modify_config_ini` in `ipsearch/catcharp.c`)

The file is read in blocks, each of which is appended as a C string. Its rows are gone through with `strtok`: the first one is
copied, and every other one that contains a name is replaced by the line of that name. `rewriting_iff` says for which files
this is right.
-/

namespace VideoDetector.Ipsearch
set_option autoImplicit false
open Lib

inductive IfcfgFault where
  | buf
  | page
  | noToken
  | tmp
  | linetmp
  deriving DecidableEq

/-- The three texts, which are C strings. -/
structure NetTexts where
  p2ip : { s : List UInt8 // (0 : UInt8) ∉ s }
  p2netmask : { s : List UInt8 // (0 : UInt8) ∉ s }
  p2gateway : { s : List UInt8 // (0 : UInt8) ∉ s }

/-- `IPADDR`. -/
def ipaddrName : List UInt8 := [0x49, 0x50, 0x41, 0x44, 0x44, 0x52]

/-- `NETMASK`. -/
def netmaskName : List UInt8 := [0x4E, 0x45, 0x54, 0x4D, 0x41, 0x53, 0x4B]

/-- `GATEWAY`. -/
def gatewayName : List UInt8 := [0x47, 0x41, 0x54, 0x45, 0x57, 0x41, 0x59]

/-- The names and their texts, in the order in which they are looked for. -/
def NetTexts.entries (t : NetTexts) : List (List UInt8 × List UInt8) :=
  [(ipaddrName, t.p2ip.1), (netmaskName, t.p2netmask.1), (gatewayName, t.p2gateway.1)]

/-- `NAME=%s`. -/
def entryLine (entry : List UInt8 × List UInt8) : List UInt8 := entry.1 ++ 61 :: entry.2

/-- The blocks that `read` returns, at most so many. -/
def blocksOf : Nat → List UInt8 → List (List UInt8)
  | 0, _ => []
  | n + 1, file => if file = [] then [] else file.take 128 :: blocksOf n (file.drop 128)

/-- `strcat` to an array of 1024 bytes. -/
def strcat (full : IfcfgFault) (dst src : List UInt8) : Except IfcfgFault (List UInt8) :=
  if (dst ++ src).length < 1024 then .ok (dst ++ src) else .error full

/-- `strcat(page, buf)`, where a full `buf` may have no zero. -/
def pageStep (page block : List UInt8) : Except IfcfgFault (List UInt8) :=
  if block.length = 128 ∧ (0 : UInt8) ∉ block then .error .buf else strcat .page page (cString block)

/-- The loop that reads the file. -/
def readPage (file : List UInt8) : Except IfcfgFault (List UInt8) := (blocksOf file.length file).foldlM pageStep []

section
variable (t : NetTexts)

/-- The first name that a row contains. -/
def nameOf (p : List UInt8) : Option (List UInt8 × List UInt8) := t.entries.find? fun entry => strstr p entry.1

/-- The body of the loop over the rows. -/
def rowStep (tmp p : List UInt8) : Except IfcfgFault (List UInt8) :=
  match nameOf t p with
  | some entry => if (entryLine entry ++ [10]).length < 128 then strcat .tmp tmp (entryLine entry ++ [10]) else .error .linetmp
  | none => do strcat .tmp (← strcat .tmp tmp (cString p)) [10]

/-- `modify_config_ini`, from the bytes of the file to those written to it. -/
def modifyConfigIni (file : List UInt8) : Except IfcfgFault (List UInt8) := do
  let page ← readPage file
  match strtoks 10 1024 (page ++ [0]) with
  | [] => .error .noToken
  | p :: ps => ps.foldlM (rowStep t) (← strcat .tmp (← strcat .tmp [] (cString p)) [10])

end

/-! ## What it should do -/

/-- The bytes before the first `=`. -/
def keyOf (row : List UInt8) : List UInt8 := row.takeWhile (· ≠ 61)

/-- The key of a row is none of the three names. -/
def unkeyed (row : List UInt8) : Bool := keyOf row ∉ [ipaddrName, netmaskName, gatewayName]

/-- The other rows are kept in their order, a row with one of the keys has the new text, and there is one for each of them. -/
structure Rewritten (t : NetTexts) (file out : List UInt8) : Prop where
  others : (rowsOf out).filter unkeyed = (rowsOf file).filter unkeyed
  values : ∀ entry ∈ t.entries, ∀ row ∈ rowsOf out, keyOf row = entry.1 → row = entryLine entry
  occurs : ∀ entry ∈ t.entries, entryLine entry ∈ rowsOf out

/-- The file is rewritten so, and a second time nothing changes. -/
def RewritesRight (t : NetTexts) (file : List UInt8) : Prop :=
  ∃ out, modifyConfigIni t file = .ok out ∧ Rewritten t file out ∧ modifyConfigIni t out = .ok out

/-- A row as it is written, unless it is the first one. -/
def rewrittenRow (t : NetTexts) (row : List UInt8) : List UInt8 :=
  match nameOf t row with
  | some entry => entryLine entry
  | none => row

/-- The text of the blocks before their zeros. -/
def pageText (file : List UInt8) : List UInt8 := ((blocksOf file.length file).map cString).flatten

/-- A file that is read with its unkeyed rows, `first` and `rest` being the rows that are read: none is empty; the first one is
unkeyed or new already; no unkeyed later one contains a name; each new line is the first row or replaces a later one, and has
its own name as the first that it contains; and what is written has less than 128 bytes. -/
structure Rewritable (t : NetTexts) (file first : List UInt8) (rest : List (List UInt8)) : Prop where
  blocks : ∀ block ∈ blocksOf file.length file, block.length = 128 → (0 : UInt8) ∈ block
  page : (pageText file).length < 1024
  rows : rowsOf (pageText file) = first :: rest
  same : (first :: rest).filter unkeyed = (rowsOf file).filter unkeyed
  nonempty : [] ∉ first :: rest
  head : ∀ entry ∈ t.entries, keyOf first = entry.1 → first = entryLine entry
  plain : ∀ row ∈ rest, unkeyed row → nameOf t row = none
  occurs : ∀ entry ∈ t.entries, (10 : UInt8) ∉ entry.2 ∧ (first = entryLine entry ∨ ∃ row ∈ rest, nameOf t row = some entry)
  stable : ∀ row ∈ rest, ∀ entry, nameOf t row = some entry → nameOf t (entryLine entry) = some entry
  short : (joinRows (first :: rest.map (rewrittenRow t))).length < 128

/-! ## Names -/

section
variable {t : NetTexts} {entry entry' : List UInt8 × List UInt8} {row : List UInt8}

theorem entry_name (member : entry ∈ t.entries) : entry.1 ∈ [ipaddrName, netmaskName, gatewayName] := by
  simp only [NetTexts.entries, List.mem_cons, List.not_mem_nil, or_false] at member
  rcases member with rfl | rfl | rfl <;> simp

/-- There is one entry for each name. -/
theorem entry_unique (member : entry ∈ t.entries) (member' : entry' ∈ t.entries) (same : entry.1 = entry'.1) : entry = entry' := by
  simp only [NetTexts.entries, List.mem_cons, List.not_mem_nil, or_false] at member member'
  rcases member with rfl | rfl | rfl <;> rcases member' with rfl | rfl | rfl <;>
    first | rfl | exact absurd same (by simp [ipaddrName, netmaskName, gatewayName])

/-- A name before a `=`. -/
theorem keyOf_name {name : List UInt8} (listed : name ∈ [ipaddrName, netmaskName, gatewayName]) (more : List UInt8) :
    keyOf (name ++ 61 :: more) = name := by
  have plain : ∀ name ∈ [ipaddrName, netmaskName, gatewayName], (61 : UInt8) ∉ name := by decide
  rw [keyOf, List.takeWhile_append_of_pos, List.takeWhile_cons_of_neg (by decide), List.append_nil]
  exact fun b inside => decide_eq_true (ne_of_mem_of_not_mem inside (plain name listed))

theorem keyOf_entryLine (member : entry ∈ t.entries) : keyOf (entryLine entry) = entry.1 :=
  keyOf_name (entry_name member) entry.2

theorem entryLine_inj (member : entry ∈ t.entries) (member' : entry' ∈ t.entries) (same : entryLine entry = entryLine entry') :
    entry = entry' :=
  entry_unique member member' (by rw [← keyOf_entryLine member, same, keyOf_entryLine member'])

theorem keyed_entryLine (member : entry ∈ t.entries) : unkeyed (entryLine entry) = false := by
  rw [unkeyed, keyOf_entryLine member]
  exact decide_eq_false (not_not_intro (entry_name member))

theorem entryLine_nonzero (member : entry ∈ t.entries) : (0 : UInt8) ∉ entryLine entry := by
  simp only [NetTexts.entries, List.mem_cons, List.not_mem_nil, or_false] at member
  rcases member with rfl | rfl | rfl <;>
    simp [entryLine, ipaddrName, netmaskName, gatewayName, t.p2ip.2, t.p2netmask.2, t.p2gateway.2]

theorem nameOf_mem (found : nameOf t row = some entry) : entry ∈ t.entries := List.mem_of_find?_eq_some found

theorem nameOf_cString (p : List UInt8) : nameOf t (cString p) = nameOf t p := by
  have same (needle : List UInt8) : strstr (cString p) needle = strstr p needle := by
    rw [strstr, strstr, cString_of_nonzero (cString_nonzero p)]
  simp only [nameOf, same]

/-- A row with a key contains its name. -/
theorem unkeyed_of_unnamed (nonzero : (0 : UInt8) ∉ row) (none : nameOf t row = Option.none) : unkeyed row = true := by
  refine decide_eq_true fun member => ?_
  have entry : ∃ entry ∈ t.entries, entry.1 = keyOf row := by
    simp only [List.mem_cons, List.not_mem_nil, or_false] at member
    rcases member with same | same | same <;> rw [same] <;> simp [NetTexts.entries]
  obtain ⟨entry, listed, same⟩ := entry
  refine List.find?_eq_none.mp none entry listed (strstr_iff.mpr ?_)
  rw [cString_of_nonzero nonzero, same]
  exact (List.takeWhile_prefix _).isInfix

/-- The unkeyed rows after rewriting are those that contain no name. -/
theorem filter_rewritten {rows : List (List UInt8)} (nonzero : ∀ row ∈ rows, (0 : UInt8) ∉ row) :
    (rows.map (rewrittenRow t)).filter unkeyed = rows.filter fun row => (nameOf t row).isNone := by
  induction rows with
  | nil => rfl
  | cons row rows ih =>
    have rest := ih fun row member => nonzero row (List.mem_cons_of_mem _ member)
    rw [List.map_cons, List.filter_cons, List.filter_cons, rest]
    cases found : nameOf t row with
    | none => simp [rewrittenRow, found, unkeyed_of_unnamed (nonzero row List.mem_cons_self) found]
    | some entry => simp [rewrittenRow, found, keyed_entryLine (nameOf_mem found)]

end

/-! ## Reading and writing -/

theorem pageSteps_iff {blocks : List (List UInt8)} {page page' : List UInt8} (fits : page.length < 1024) :
    blocks.foldlM pageStep page = .ok page' ↔ (∀ block ∈ blocks, block.length = 128 → (0 : UInt8) ∈ block) ∧
      (page ++ (blocks.map cString).flatten).length < 1024 ∧ page' = page ++ (blocks.map cString).flatten := by
  induction blocks generalizing page with
  | nil =>
    rw [List.foldlM_nil, List.map_nil, List.flatten_nil, List.append_nil]
    exact ⟨fun same => by cases same; exact ⟨fun block none => absurd none List.not_mem_nil, fits, rfl⟩, fun parts => congrArg Except.ok parts.2.2.symm⟩
  | cons block blocks ih =>
    rw [List.foldlM_cons, List.forall_mem_cons, List.map_cons, List.flatten_cons, ← List.append_assoc, bind_ok_iff]
    constructor
    · rintro ⟨next, first, rest⟩
      unfold pageStep strcat at first
      split at first
      next => cases first
      next fine =>
        split at first
        next room =>
          cases first
          obtain ⟨others, room', same⟩ := (ih room).mp rest
          exact ⟨⟨fun full => by_contra fun none => fine ⟨full, none⟩, others⟩, room', same⟩
        next => cases first
    · rintro ⟨⟨first, others⟩, room, same⟩
      have room' : (page ++ cString block).length < 1024 := by
        rw [List.length_append] at room
        omega
      refine ⟨page ++ cString block, ?_, (ih room').mpr ⟨others, room, same⟩⟩
      rw [pageStep, if_neg fun bad => bad.2 (first bad.1), strcat, if_pos room']

theorem readPage_iff {file page : List UInt8} : readPage file = .ok page ↔
    (∀ block ∈ blocksOf file.length file, block.length = 128 → (0 : UInt8) ∈ block) ∧ (pageText file).length < 1024 ∧
      page = pageText file := pageSteps_iff (by decide)

theorem pageText_nonzero (file : List UInt8) : (0 : UInt8) ∉ pageText file := by
  intro member
  obtain ⟨block, listed, inside⟩ := List.mem_flatten.mp member
  obtain ⟨whole, _, rfl⟩ := List.mem_map.mp listed
  exact cString_nonzero whole inside

section
variable {t : NetTexts} {tmp p out : List UInt8}

theorem strcat_ok {full : IfcfgFault} {dst src : List UInt8} (done : strcat full dst src = .ok out) : out = dst ++ src := by
  unfold strcat at done
  split at done <;> cases done
  rfl

theorem strcat_short {full : IfcfgFault} {dst src : List UInt8} (short : (dst ++ src).length < 128) :
    strcat full dst src = .ok (dst ++ src) := if_pos (by omega)

/-- What is appended for a row. -/
theorem rowStep_ok (done : rowStep t tmp p = .ok out) : out = tmp ++ (rewrittenRow t (cString p) ++ [10]) := by
  unfold rowStep at done
  unfold rewrittenRow
  rw [nameOf_cString]
  split at done
  next entry found =>
    split at done
    next => exact strcat_ok done
    next => cases done
  next none =>
    obtain ⟨tmp', first, second⟩ := bind_ok done
    rw [strcat_ok second, strcat_ok first, List.append_assoc]

theorem rowStep_short (short : (tmp ++ (rewrittenRow t (cString p) ++ [10])).length < 128) :
    rowStep t tmp p = .ok (tmp ++ (rewrittenRow t (cString p) ++ [10])) := by
  unfold rewrittenRow at short ⊢
  rw [nameOf_cString] at short ⊢
  unfold rowStep
  split
  next entry found =>
    rw [found] at short
    replace short : (tmp ++ (entryLine entry ++ [10])).length < 128 := short
    have shorter := short
    rw [List.length_append] at shorter
    rw [if_pos (by omega)]
    exact strcat_short short
  next none =>
    rw [none] at short
    simp only [← List.append_assoc] at short ⊢
    rw [strcat_short (by rw [List.length_append] at short; omega)]
    exact strcat_short short

/-- The loop over the rows. -/
theorem rowSteps_ok {ps : List (List UInt8)} (done : ps.foldlM (rowStep t) tmp = .ok out) :
    out = tmp ++ joinRows ((ps.map cString).map (rewrittenRow t)) := by
  induction ps generalizing tmp with
  | nil =>
    cases done
    exact (List.append_nil _).symm
  | cons p ps ih =>
    rw [List.foldlM_cons] at done
    obtain ⟨next, first, rest⟩ := bind_ok done
    rw [ih rest, rowStep_ok first, List.append_assoc]
    rfl

theorem rowSteps_short {ps : List (List UInt8)} (short : (tmp ++ joinRows ((ps.map cString).map (rewrittenRow t))).length < 128) :
    ps.foldlM (rowStep t) tmp = .ok (tmp ++ joinRows ((ps.map cString).map (rewrittenRow t))) := by
  induction ps generalizing tmp with
  | nil => exact congrArg Except.ok (List.append_nil tmp).symm
  | cons p ps ih =>
    rw [List.map_cons, List.map_cons, joinRows_cons, ← List.append_assoc] at short ⊢
    have first : (tmp ++ (rewrittenRow t (cString p) ++ [10])).length < 128 := by
      rw [List.length_append] at short
      omega
    rw [foldlM_cons_ok (rowStep_short first)]
    exact ih short

end

/-! ## What the zeros of the file cut out -/

/-- The bytes that are left when parts that begin with a zero are cut out. -/
inductive Cut : List UInt8 → List UInt8 → Prop where
  | nil : Cut [] []
  | keep {file page : List UInt8} (b : UInt8) (nonzero : b ≠ 0) (cut : Cut file page) : Cut (b :: file) (b :: page)
  | cut {file page : List UInt8} (part : List UInt8) (cut : Cut file page) : Cut (0 :: (part ++ file)) page

theorem Cut.block {file page : List UInt8} (cut : Cut file page) (block : List UInt8) : Cut (block ++ file) (cString block ++ page) := by
  induction block with
  | nil => exact cut
  | cons b block ih =>
    by_cases zero : b = 0
    · rw [zero]
      exact .cut block cut
    · have first : cString (b :: block) = b :: cString block := List.takeWhile_cons_of_pos (bne_iff_ne.mpr zero)
      rw [first]
      exact .keep b zero ih

theorem cut_pageText (file : List UInt8) : Cut file (pageText file) := by
  have each (n : Nat) (file : List UInt8) (enough : file.length ≤ n) : Cut file ((blocksOf n file).map cString).flatten := by
    induction n generalizing file with
    | zero =>
      rw [List.length_eq_zero_iff.mp (Nat.le_zero.mp enough)]
      exact .nil
    | succ n ih =>
      unfold blocksOf
      split
      next none =>
        rw [none]
        exact .nil
      next some =>
        have later := ih (file.drop 128) (by
          have := List.length_pos_iff.mpr some
          rw [List.length_drop]
          omega)
        have whole := later.block (file.take 128)
        rwa [List.take_append_drop] at whole
  exact each file.length file (Nat.le_refl _)

/-- A key and its `=`. -/
def KeyBegun (begun : List UInt8) : Prop := ∃ name ∈ [ipaddrName, netmaskName, gatewayName], ∃ more, begun = name ++ 61 :: more

theorem KeyBegun.append {begun : List UInt8} (key : KeyBegun begun) (bs : List UInt8) : KeyBegun (begun ++ bs) := by
  obtain ⟨name, listed, more, rfl⟩ := key
  exact ⟨name, listed, more ++ bs, by simp⟩

theorem KeyBegun.keyed {begun : List UInt8} (key : KeyBegun begun) : unkeyed begun = false := by
  obtain ⟨name, listed, more, rfl⟩ := key
  refine decide_eq_false (not_not_intro ?_)
  rwa [keyOf_name listed more]

/-- A row with a zero has a key only if this is before the zero. -/
theorem keyBegun_of_keyed {begun more : List UInt8} (keyed : unkeyed (begun ++ 0 :: more) = false) : KeyBegun begun := by
  have listed := not_not.mp (of_decide_eq_false keyed)
  have nonzero : ∀ name ∈ [ipaddrName, netmaskName, gatewayName], (0 : UInt8) ∉ name := by decide
  by_cases equals : (61 : UInt8) ∈ begun
  · obtain ⟨name, rest, rfl, first⟩ := List.eq_append_cons_of_mem equals
    refine ⟨name, ?_, rest, rfl⟩
    have before : ∀ b ∈ name, decide (b ≠ 61) = true := fun b inside => decide_eq_true (ne_of_mem_of_not_mem inside first)
    rwa [keyOf, List.append_assoc, List.takeWhile_append_of_pos before, List.cons_append, List.takeWhile_cons_of_neg (by decide), List.append_nil] at listed
  · refine absurd ?_ (nonzero _ listed)
    have before : ∀ b ∈ begun, decide (b ≠ 61) = true := fun b inside => decide_eq_true (ne_of_mem_of_not_mem inside equals)
    rw [keyOf, List.takeWhile_append_of_pos before]
    simp

/-- The rows after some bytes. -/
theorem rowsFrom_append (begun bs file : List UInt8) : ∃ rows begun', rowsFrom begun (bs ++ file) = rows ++ rowsFrom begun' file := by
  induction bs generalizing begun with
  | nil => exact ⟨[], begun, rfl⟩
  | cons b bs ih =>
    rw [List.cons_append, rowsFrom]
    split
    · obtain ⟨rows, begun', same⟩ := ih []
      exact ⟨begun :: rows, begun', by rw [same, List.cons_append]⟩
    · exact ih (begun ++ [b])

/-- The row that has begun. -/
theorem rowsFrom_begun {begun : List UInt8} (some : begun ≠ []) (file : List UInt8) :
    ∃ more rows, rowsFrom begun file = (begun ++ more) :: rows := by
  induction file generalizing begun with
  | nil => exact ⟨[], [], by rw [rowsFrom, if_neg some, List.append_nil]⟩
  | cons b file ih =>
    rw [rowsFrom]
    split
    · exact ⟨[], rowsFrom [] file, by rw [List.append_nil]⟩
    · obtain ⟨more, rows, same⟩ := @ih (begun ++ [b]) (by simp)
      exact ⟨b :: more, rows, by rw [same, List.append_assoc, List.singleton_append]⟩

/-- A row that has begun before a zero, if the rows with a zero are keyed. -/
theorem keyBegun_of_rows {begun file : List UInt8}
    (keyed : ∀ row ∈ rowsFrom begun (0 :: file), (0 : UInt8) ∈ row → unkeyed row = false) : KeyBegun begun := by
  have first : rowsFrom begun (0 :: file) = rowsFrom (begun ++ [0]) file := by
    rw [rowsFrom, if_neg (by decide)]
  obtain ⟨more, _, row⟩ := @rowsFrom_begun (begun ++ [0]) (by simp) file
  rw [List.append_assoc, List.singleton_append] at row
  have listed : begun ++ 0 :: more ∈ rowsFrom begun (0 :: file) := by
    rw [first, row]
    exact List.mem_cons_self
  exact keyBegun_of_keyed (keyed _ listed (by simp))

/-- If the rows with a zero are keyed, no unkeyed row is made of the parts that are left: either both rows have begun in the
same way, or the one that is left has a key. -/
theorem Cut.sublist {file page : List UInt8} (cut : Cut file page) {begun : List UInt8}
    (keyed : ∀ row ∈ rowsFrom begun file, (0 : UInt8) ∈ row → unkeyed row = false) :
    ((rowsFrom begun page).filter unkeyed).Sublist ((rowsFrom begun file).filter unkeyed) ∧
      ∀ begun', KeyBegun begun' → ((rowsFrom begun' page).filter unkeyed).Sublist ((rowsFrom begun file).filter unkeyed) := by
  induction cut generalizing begun with
  | nil =>
    refine ⟨List.Sublist.refl _, fun begun' key => ?_⟩
    have some : begun' ≠ [] := by
      obtain ⟨name, _, more, rfl⟩ := key
      simp
    rw [rowsFrom, if_neg some, List.filter_cons_of_neg (by rw [key.keyed]; decide)]
    exact List.nil_sublist _
  | @keep file page b nonzero cut ih =>
    rw [rowsFrom] at keyed
    rw [rowsFrom, rowsFrom]
    split at keyed
    next newline =>
      have later := (ih fun row member => keyed row (List.mem_cons_of_mem _ member)).1
      simp only [if_pos newline]
      refine ⟨?_, fun begun' key => ?_⟩
      · rw [List.filter_cons, List.filter_cons]
        split
        · exact later.cons_cons _
        · exact later
      · rw [rowsFrom, if_pos newline, List.filter_cons_of_neg (by rw [key.keyed]; decide), List.filter_cons]
        split
        · exact later.cons _
        · exact later
    next other =>
      simp only [if_neg other]
      obtain ⟨same, apart⟩ := ih keyed
      refine ⟨same, fun begun' key => ?_⟩
      rw [rowsFrom, if_neg other]
      exact apart _ (key.append [b])
  | @cut file page part cut ih =>
    obtain ⟨rows, begun₁, split⟩ := rowsFrom_append begun (0 :: part) file
    rw [List.cons_append] at split
    have later := (ih fun row member => keyed row (by rw [split]; exact List.mem_append_right rows member)).2
    have end' : ((rowsFrom begun₁ file).filter unkeyed).Sublist ((rowsFrom begun (0 :: (part ++ file))).filter unkeyed) := by
      rw [split, List.filter_append]
      exact List.sublist_append_right _ _
    have key := keyBegun_of_rows keyed
    exact ⟨(later begun key).trans end', fun begun' key' => (later begun' key').trans end'⟩

/-! ## The whole function -/

section
variable {t : NetTexts} {file out first : List UInt8} {rest : List (List UInt8)}

theorem tokens_page (file : List UInt8) (fits : (pageText file).length < 1024) :
    (strtoks 10 1024 (pageText file ++ [0])).map cString = (rowsOf (pageText file)).filter (· ≠ []) :=
  strtoks_rows (pageText_nonzero file) fits

/-- What is written when nothing fails. -/
theorem modify_ok (done : modifyConfigIni t file = .ok out) :
    (∀ block ∈ blocksOf file.length file, block.length = 128 → (0 : UInt8) ∈ block) ∧ (pageText file).length < 1024 ∧
      ∃ first rest, (rowsOf (pageText file)).filter (· ≠ []) = first :: rest ∧ out = joinRows (first :: rest.map (rewrittenRow t)) := by
  obtain ⟨page, read, done⟩ := bind_ok done
  obtain ⟨blocks, fits, rfl⟩ := readPage_iff.mp read
  refine ⟨blocks, fits, ?_⟩
  rw [← tokens_page file fits]
  split at done
  next => cases done
  next p ps tokens =>
    obtain ⟨line, head, done⟩ := bind_ok done
    obtain ⟨tmp, newline, done⟩ := bind_ok done
    rw [tokens]
    refine ⟨cString p, ps.map cString, rfl, ?_⟩
    rw [rowSteps_ok done, strcat_ok newline, strcat_ok head]
    rfl

theorem modify_short (blocks : ∀ block ∈ blocksOf file.length file, block.length = 128 → (0 : UInt8) ∈ block)
    (fits : (pageText file).length < 1024) (tokens : (rowsOf (pageText file)).filter (· ≠ []) = first :: rest)
    (short : (joinRows (first :: rest.map (rewrittenRow t))).length < 128) :
    modifyConfigIni t file = .ok (joinRows (first :: rest.map (rewrittenRow t))) := by
  rw [← tokens_page file fits] at tokens
  rw [modifyConfigIni, readPage_iff.mpr ⟨blocks, fits, rfl⟩, ok_bind]
  cases found : strtoks 10 1024 (pageText file ++ [0]) with
  | nil =>
    rw [found] at tokens
    cases tokens
  | cons p ps =>
    rw [found] at tokens
    cases tokens
    rw [joinRows_cons] at short ⊢
    have head : (cString p ++ [10]).length < 128 := by
      rw [List.length_append] at short
      omega
    have line : strcat .tmp [] (cString p) = .ok (cString p) := strcat_short (by rw [List.length_append] at head; simp; omega)
    show (do
      let line ← strcat .tmp [] (cString p)
      let tmp ← strcat .tmp line [10]
      ps.foldlM (rowStep t) tmp) = _
    rw [line, ok_bind, strcat_short head, ok_bind]
    exact rowSteps_short short

/-- A row that is written: not empty, and without newlines and zeros. -/
structure PlainRow (row : List UInt8) : Prop where
  nonempty : row ≠ []
  unbroken : (10 : UInt8) ∉ row
  nonzero : (0 : UInt8) ∉ row

theorem plain_tokens (tokens : (rowsOf (pageText file)).filter (· ≠ []) = first :: rest) : ∀ row ∈ first :: rest, PlainRow row := by
  intro row member
  rw [← tokens, List.mem_filter] at member
  obtain ⟨unbroken, inside⟩ := mem_rowsOf member.1
  exact ⟨of_decide_eq_true member.2, unbroken, fun zero => pageText_nonzero file (inside zero)⟩

theorem entryLine_plain {entry : List UInt8 × List UInt8} (member : entry ∈ t.entries) (unbroken : (10 : UInt8) ∉ entry.2) :
    PlainRow (entryLine entry) := by
  have name : ∀ name ∈ [ipaddrName, netmaskName, gatewayName], (10 : UInt8) ∉ name := by decide
  refine ⟨by simp [entryLine], ?_, entryLine_nonzero member⟩
  simp [entryLine, name entry.1 (entry_name member), unbroken]

theorem plain_written (texts : ∀ entry ∈ t.entries, (10 : UInt8) ∉ entry.2) {row : List UInt8} (plain : PlainRow row) :
    PlainRow (rewrittenRow t row) := by
  unfold rewrittenRow
  split
  next entry found => exact entryLine_plain (nameOf_mem found) (texts entry (nameOf_mem found))
  next => exact plain

theorem plain_rows (texts : ∀ entry ∈ t.entries, (10 : UInt8) ∉ entry.2) (plain : ∀ row ∈ first :: rest, PlainRow row) :
    ∀ row ∈ first :: rest.map (rewrittenRow t), PlainRow row := by
  intro row member
  rcases List.mem_cons.mp member with rfl | member
  · exact plain row List.mem_cons_self
  · obtain ⟨row, inside, rfl⟩ := List.mem_map.mp member
    exact plain_written texts (plain row (List.mem_cons_of_mem _ inside))

theorem rest_nonzero (plain : ∀ row ∈ first :: rest, PlainRow row) : ∀ row ∈ rest, (0 : UInt8) ∉ row :=
  fun row member => (plain row (List.mem_cons_of_mem _ member)).nonzero

/-- The rows that are written are read back. -/
theorem rowsOf_written (texts : ∀ entry ∈ t.entries, (10 : UInt8) ∉ entry.2) (plain : ∀ row ∈ first :: rest, PlainRow row) :
    rowsOf (joinRows (first :: rest.map (rewrittenRow t))) = first :: rest.map (rewrittenRow t) :=
  rowsOf_join fun row member => (plain_rows texts plain row member).unbroken

theorem joinRows_nonzero {rows : List (List UInt8)} (plain : ∀ row ∈ rows, PlainRow row) : (0 : UInt8) ∉ joinRows rows := by
  rw [mem_joinRows (by decide)]
  rintro ⟨row, member, zero⟩
  exact (plain row member).nonzero zero

/-- A short file is one block. -/
theorem pageText_short (short : file.length < 128) (nonzero : (0 : UInt8) ∉ file) : pageText file = file := by
  unfold pageText
  cases size : file.length with
  | zero =>
    rw [List.length_eq_zero_iff.mp size]
    rfl
  | succ n =>
    have some : file ≠ [] := List.length_pos_iff.mp (by omega)
    have last : blocksOf n [] = [] := by cases n <;> rfl
    rw [blocksOf, if_neg some, List.take_of_length_le short.le, List.drop_of_length_le short.le, last, List.map_singleton,
      List.flatten_singleton, cString_of_nonzero nonzero]

theorem blocksOf_length {n : Nat} {block : List UInt8} (member : block ∈ blocksOf n file) : block.length ≤ file.length := by
  induction n generalizing file with
  | zero => cases member
  | succ n ih =>
    unfold blocksOf at member
    split at member
    · cases member
    · rcases List.mem_cons.mp member with rfl | member
      · exact List.length_take_le' _ _
      · exact (ih member).trans (by rw [List.length_drop]; exact Nat.sub_le _ _)

theorem blocksOf_long (long : 128 ≤ file.length) : file.take 128 ∈ blocksOf file.length file := by
  cases size : file.length with
  | zero => omega
  | succ n =>
    rw [blocksOf, if_neg (List.length_pos_iff.mp (by omega))]
    exact List.mem_cons_self

/-- **A file that stays as it is**: it is short, and no row but the first is rewritten in another way. -/
theorem unchanged_iff (plain : ∀ row ∈ first :: rest, PlainRow row) (texts : ∀ entry ∈ t.entries, (10 : UInt8) ∉ entry.2) :
    modifyConfigIni t (joinRows (first :: rest)) = .ok (joinRows (first :: rest)) ↔
      (joinRows (first :: rest)).length < 128 ∧ ∀ row ∈ rest, rewrittenRow t row = row := by
  have nonzero := joinRows_nonzero plain
  have rows : rowsOf (joinRows (first :: rest)) = first :: rest := rowsOf_join fun row member => (plain row member).unbroken
  have tokens : (first :: rest).filter (· ≠ []) = first :: rest := by
    rw [List.filter_eq_self]
    exact fun row member => decide_eq_true (plain row member).nonempty
  constructor
  · intro done
    obtain ⟨blocks, _, first', rest', tokens', same⟩ := modify_ok done
    have short : (joinRows (first :: rest)).length < 128 := by
      by_contra long
      have zero := blocks _ (blocksOf_long (not_lt.mp long)) (by rw [List.length_take]; omega)
      exact nonzero (List.mem_of_mem_take zero)
    refine ⟨short, ?_⟩
    rw [pageText_short short nonzero, rows, tokens] at tokens'
    cases tokens'
    have both := congrArg rowsOf same
    rw [rows, rowsOf_written texts plain, List.cons.injEq, and_iff_right rfl] at both
    intro row member
    exact List.map_inj_left.mp (both.symm.trans (List.map_id' rest).symm) row member
  · rintro ⟨short, same⟩
    have kept : rest.map (rewrittenRow t) = rest := (List.map_congr_left same).trans (List.map_id' rest)
    have done := @modify_short t (joinRows (first :: rest)) first rest
    rw [pageText_short short nonzero, rows, kept] at done
    refine done (fun block member full => ?_) (by omega) tokens short
    have := blocksOf_length member
    omega

/-! ## When it is right -/

theorem rewrittenRow_some {entry : List UInt8 × List UInt8} {row : List UInt8} (found : nameOf t row = some entry) :
    rewrittenRow t row = entryLine entry := by
  rw [rewrittenRow, found]

theorem rewrittenRow_none {row : List UInt8} (none : nameOf t row = Option.none) : rewrittenRow t row = row := by
  rw [rewrittenRow, none]

/-- Where the line of a name comes from. -/
theorem entry_written_iff {entry : List UInt8 × List UInt8} (listed : entry ∈ t.entries) (plain : ∀ row ∈ rest, (0 : UInt8) ∉ row) :
    entryLine entry ∈ first :: rest.map (rewrittenRow t) ↔ first = entryLine entry ∨ ∃ row ∈ rest, nameOf t row = some entry := by
  rw [List.mem_cons, eq_comm, List.mem_map]
  apply or_congr_right
  constructor
  · rintro ⟨row, member, same⟩
    refine ⟨row, member, ?_⟩
    cases found : nameOf t row with
    | none =>
      rw [rewrittenRow_none found] at same
      have other := unkeyed_of_unnamed (plain row member) found
      rw [same, keyed_entryLine listed] at other
      cases other
    | some entry' =>
      rw [rewrittenRow_some found] at same
      rw [entryLine_inj (nameOf_mem found) listed same]
  · rintro ⟨row, member, found⟩
    exact ⟨row, member, rewrittenRow_some found⟩

/-- Which rows stay as they are when they are rewritten again. -/
theorem stable_iff : (∀ row ∈ rest.map (rewrittenRow t), rewrittenRow t row = row) ↔
    ∀ row ∈ rest, ∀ entry, nameOf t row = some entry → nameOf t (entryLine entry) = some entry := by
  rw [List.forall_mem_map]
  refine forall₂_congr fun row _ => ?_
  cases found : nameOf t row with
  | none =>
    rw [rewrittenRow_none found, rewrittenRow_none found]
    exact iff_of_true rfl fun entry some => by cases some
  | some entry =>
    have listed := nameOf_mem found
    rw [rewrittenRow_some found]
    constructor
    · intro same entry' some
      cases some
      cases again : nameOf t (entryLine entry) with
      | none =>
        have other := unkeyed_of_unnamed (entryLine_nonzero listed) again
        rw [keyed_entryLine listed] at other
        cases other
      | some entry' =>
        rw [rewrittenRow_some again] at same
        rw [entryLine_inj (nameOf_mem again) listed same]
    · exact fun stays => rewrittenRow_some (stays entry rfl)

/-- The unkeyed rows that are written. -/
theorem filter_written (plain : ∀ row ∈ rest, (0 : UInt8) ∉ row) : (first :: rest.map (rewrittenRow t)).filter unkeyed =
    [first].filter unkeyed ++ rest.filter fun row => (nameOf t row).isNone := by
  rw [← List.singleton_append, List.filter_append, filter_rewritten plain]

/-- The unkeyed rows of the page stay exactly if they contain no name. -/
theorem filter_named_iff (plain : ∀ row ∈ rest, (0 : UInt8) ∉ row) :
    (rest.filter fun row => (nameOf t row).isNone) = rest.filter unkeyed ↔ ∀ row ∈ rest, unkeyed row → nameOf t row = none := by
  constructor
  · intro same row member other
    have kept : row ∈ rest.filter fun row => (nameOf t row).isNone := by
      rw [same]
      exact List.mem_filter.mpr ⟨member, other⟩
    exact Option.isNone_iff_eq_none.mp (List.mem_filter.mp kept).2
  · intro unnamed
    apply List.filter_congr
    intro row member
    cases found : nameOf t row with
    | none => exact (unkeyed_of_unnamed (plain row member) found).symm
    | some entry =>
      cases other : unkeyed row with
      | false => rfl
      | true => exact absurd ((unnamed row member other).symm.trans found) (by simp)

theorem filter_named_sublist (plain : ∀ row ∈ rest, (0 : UInt8) ∉ row) :
    (rest.filter fun row => (nameOf t row).isNone).Sublist (rest.filter unkeyed) := by
  have again : (rest.filter fun row => (nameOf t row).isNone) = (rest.filter unkeyed).filter fun row => (nameOf t row).isNone := by
    rw [List.filter_filter]
    apply List.filter_congr
    intro row member
    cases found : nameOf t row with
    | none => rw [unkeyed_of_unnamed (plain row member) found]; rfl
    | some entry => rfl
  rw [again]
  exact List.filter_sublist

theorem filter_cons_split (first : List UInt8) (rest : List (List UInt8)) :
    (first :: rest).filter unkeyed = [first].filter unkeyed ++ rest.filter unkeyed := by
  rw [← List.singleton_append, List.filter_append]

/-- A later row that is written with the key of an entry has its text. -/
theorem rewrittenRow_value {entry : List UInt8 × List UInt8} {row : List UInt8} (listed : entry ∈ t.entries) (nonzero : (0 : UInt8) ∉ row)
    (key : keyOf (rewrittenRow t row) = entry.1) : rewrittenRow t row = entryLine entry := by
  cases found : nameOf t row with
  | none =>
    rw [rewrittenRow_none found] at key
    have other := unkeyed_of_unnamed nonzero found
    exact absurd (key ▸ entry_name listed) (of_decide_eq_true other)
  | some entry' =>
    have listed' := nameOf_mem found
    rw [rewrittenRow_some found, keyOf_entryLine listed'] at key
    rw [rewrittenRow_some found, entry_unique listed' listed key]

/-- When the unkeyed rows of the file are written, the page has no other ones: no such row has a zero, so none is made of the
parts that are left, and none is lost on the way. -/
theorem unkeyed_page (tokens : (rowsOf (pageText file)).filter (· ≠ []) = first :: rest)
    (written : ∀ row ∈ first :: rest.map (rewrittenRow t), PlainRow row)
    (others : (first :: rest.map (rewrittenRow t)).filter unkeyed = (rowsOf file).filter unkeyed) :
    (first :: rest).filter unkeyed = (rowsOf file).filter unkeyed ∧
      (rowsOf (pageText file)).filter unkeyed = (first :: rest).filter unkeyed := by
  have nonzero := rest_nonzero (plain_tokens tokens)
  have keyed : ∀ row ∈ rowsOf file, (0 : UInt8) ∈ row → unkeyed row = false := by
    intro row member zero
    by_contra other
    have kept : row ∈ (first :: rest.map (rewrittenRow t)).filter unkeyed := by
      rw [others]
      exact List.mem_filter.mpr ⟨member, Bool.not_eq_false _ ▸ other⟩
    exact (written row (List.mem_filter.mp kept).1).nonzero zero
  have cut := (@Cut.sublist _ _ (cut_pageText file) [] keyed).1
  have some : ((first :: rest).filter unkeyed).Sublist ((rowsOf (pageText file)).filter unkeyed) := by
    rw [← tokens]
    exact List.filter_sublist.filter _
  have kept : ((first :: rest.map (rewrittenRow t)).filter unkeyed).Sublist ((first :: rest).filter unkeyed) := by
    rw [filter_written nonzero, filter_cons_split first rest]
    exact (List.Sublist.refl _).append (filter_named_sublist nonzero)
  have same : (first :: rest).filter unkeyed = (rowsOf file).filter unkeyed := (some.trans cut).antisymm (others ▸ kept)
  exact ⟨same, (same ▸ cut).antisymm some⟩

/-- Then it has no empty row either. -/
theorem rows_of_tokens (tokens : (rowsOf (pageText file)).filter (· ≠ []) = first :: rest)
    (all : (rowsOf (pageText file)).filter unkeyed = (first :: rest).filter unkeyed) : rowsOf (pageText file) = first :: rest := by
  rw [← tokens, eq_comm, List.filter_eq_self]
  intro row member
  refine decide_eq_true fun empty => ?_
  have other : row ∈ (rowsOf (pageText file)).filter unkeyed := List.mem_filter.mpr ⟨member, by rw [empty]; decide⟩
  rw [all] at other
  exact (plain_tokens tokens row (List.mem_filter.mp other).1).nonempty empty

theorem RewritesRight.rewritable (rewrites : RewritesRight t file) : ∃ first rest, Rewritable t file first rest := by
  obtain ⟨out, done, right, again⟩ := rewrites
  obtain ⟨blocks, page, first, rest, tokens, rfl⟩ := modify_ok done
  have plain := plain_tokens tokens
  have nonzero := rest_nonzero plain
  have texts : ∀ entry ∈ t.entries, (10 : UInt8) ∉ entry.2 := by
    intro entry listed newline
    exact (mem_rowsOf (right.occurs entry listed)).1 (List.mem_append_right _ (List.mem_cons_of_mem _ newline))
  have written := plain_rows texts plain
  obtain ⟨short, stays⟩ := (unchanged_iff written texts).mp again
  obtain ⟨others, values, occurs⟩ := right
  rw [rowsOf_written texts plain] at others values occurs
  obtain ⟨same, all⟩ := unkeyed_page tokens written others
  refine ⟨first, rest, blocks, page, rows_of_tokens tokens all, same, ?_, ?_, ?_, ?_, stable_iff.mp stays, short⟩
  · exact fun empty => (plain [] empty).nonempty rfl
  · exact fun entry listed => values entry listed first List.mem_cons_self
  · apply (filter_named_iff nonzero).mp
    have whole := others.trans same.symm
    rw [filter_written nonzero, filter_cons_split first rest] at whole
    exact List.append_cancel_left whole
  · exact fun entry listed => ⟨texts entry listed, (entry_written_iff listed nonzero).mp (occurs entry listed)⟩

theorem Rewritable.right (file' : Rewritable t file first rest) : RewritesRight t file := by
  obtain ⟨blocks, page, rows, same, nonempty, head, unnamed, occurs, stable, short⟩ := file'
  have tokens : (rowsOf (pageText file)).filter (· ≠ []) = first :: rest := by
    rw [rows, List.filter_eq_self]
    exact fun row member => decide_eq_true fun empty => nonempty (empty ▸ member)
  have plain := plain_tokens tokens
  have nonzero := rest_nonzero plain
  have texts : ∀ entry ∈ t.entries, (10 : UInt8) ∉ entry.2 := fun entry listed => (occurs entry listed).1
  have again := (unchanged_iff (plain_rows texts plain) texts).mpr ⟨short, stable_iff.mpr stable⟩
  refine ⟨_, modify_short blocks page tokens short, ?_, again⟩
  constructor <;> rw [rowsOf_written texts plain]
  · rw [filter_written nonzero, (filter_named_iff nonzero).mpr unnamed, ← filter_cons_split, same]
  · intro entry listed row member key
    rcases List.mem_cons.mp member with rfl | member
    · exact head entry listed key
    · obtain ⟨row, inside, rfl⟩ := List.mem_map.mp member
      exact rewrittenRow_value listed (nonzero row inside) key
  · exact fun entry listed => (entry_written_iff listed nonzero).mpr (occurs entry listed).2

/-- **Rewriting the interface file** is right exactly if the file is rewritable. -/
theorem rewriting_iff (t : NetTexts) (file : List UInt8) : RewritesRight t file ↔ ∃ first rest, Rewritable t file first rest :=
  ⟨fun rewrites => rewrites.rewritable, fun ⟨_, _, file'⟩ => file'.right⟩

end

/-- `IPADDR=1`, `NETMASK=2` and `GATEWAY=3`, in this order. -/
def addressFirst : List UInt8 :=
  joinRows [entryLine (ipaddrName, [0x31]), entryLine (netmaskName, [0x32]), entryLine (gatewayName, [0x33])]

/-- The texts `9`, `2` and `3`. -/
def newAddress : NetTexts := ⟨⟨[0x39], by decide⟩, ⟨[0x32], by decide⟩, ⟨[0x33], by decide⟩⟩

/-- The address in the first row is kept. -/
theorem firstRow_kept : modifyConfigIni newAddress addressFirst = .ok addressFirst ∧ ¬RewritesRight newAddress addressFirst := by
  have result : modifyConfigIni newAddress addressFirst = .ok addressFirst := by rfl
  refine ⟨result, ?_⟩
  rintro ⟨out, done, right, _⟩
  cases result.symm.trans done
  have new := right.values (ipaddrName, [0x39]) List.mem_cons_self (entryLine (ipaddrName, [0x31])) (by decide) (by decide)
  exact absurd new (by decide)

end VideoDetector.Ipsearch
