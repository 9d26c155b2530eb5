import Mathlib.Data.List.DropRight
import VideoDetector.Lib.CString
import VideoDetector.Lib.Lines

/-!
# Configuration files (`ipsearch/zenlog.c`)

`readINIString` and `writeINIString` look for a section and a key line by line. The writer replaces the line
in place: it overwrites one of the same length, fills up a shorter one with spaces, and moves what follows
for a longer one through a buffer of ten kilobytes. A file is its bytes; that it can be opened, read and
written is assumed, and the names fit their buffers.

`ini_agreement` says when what was written is read back and nothing else has changed.
-/

namespace VideoDetector.Ipsearch
set_option autoImplicit false
open Lib

/-! ## Lines -/

/-- `strTxtLine`, of which `fgets` uses all but two bytes. -/
def lineMax : Nat := 1022

/-- `strncmp` with all of the second string. -/
def starts (line text : List UInt8) : Bool := text.isPrefixOf (cString line)

/-- `FiltSpace`. -/
def filtSpace (text : List UInt8) : List UInt8 := text.dropWhile (· == 32)

/-! ## Reading -/

/-- Where the reader is: it looks for the section or, in the section, for the key; it has found the text
behind the key, or has come to the next section. -/
inductive Reading where
  | looking (inSection : Bool)
  | found (text : List UInt8)
  | stopped
  deriving DecidableEq, Repr

/-- The text behind a key, if an equals sign comes next. -/
def valueText (text : List UInt8) : Option (List UInt8) :=
  match filtSpace text with
  | 61 :: value => some (filtSpace value)
  | _ => none

/-- The header that the reader looks for. -/
def readHeader (sec : List UInt8) : List UInt8 := 91 :: sec ++ [93]

/-- The body of the loop of `readINIString`. -/
def readLine (sec key : List UInt8) : Reading → List UInt8 → Reading
  | .looking false, line => .looking (starts line (readHeader sec))
  | .looking true, line =>
    if starts line key then
      match valueText ((cString line).drop key.length) with
      | some text => .found text
      | none => .looking true
    else if strstr line [91] then .stopped
    else .looking true
  | r, _ => r

/-- The end of a value: it is cut at the first carriage return or newline, with the spaces before it. -/
def cutEnd (text : List UInt8) : List UInt8 :=
  let head := text.takeWhile fun b => b != 13 && b != 10
  if head.length = text.length then text else head.rdropWhile (· == 32)

/-- The text that the reader has found, if any. -/
def Reading.text : Reading → List UInt8
  | .found text => text
  | _ => []

/-- `readINIString`. -/
def readINIString (sec key pDefStr : List UInt8) (nSize : Nat) (file : List UInt8) : List UInt8 :=
  let text := ((fgetsLines lineMax file).foldl (readLine sec key) (.looking false)).text
  cutEnd ((if text = [] then pDefStr else text).take (nSize - 1))

/-! ## Writing -/

/-- What the writer compares a header with: the closing bracket and the newline are left out. -/
def writeHeader (sec : List UInt8) : List UInt8 := 91 :: sec

/-- The loop of `writeINIString`: the line to replace and the position behind it. -/
def findLine (sec key : List UInt8) : Bool → Nat → List (List UInt8) → Option (Nat × List UInt8)
  | _, _, [] => none
  | false, pos, line :: lines => findLine sec key (starts line (writeHeader sec)) (pos + line.length) lines
  | true, pos, line :: lines =>
    if starts line key then some (pos + line.length, line)
    else if strstr line [91] then none
    else findLine sec key true (pos + line.length) lines

/-- Bytes are written at a position of a file. -/
def overwrite (file : List UInt8) (pos : Nat) (bs : List UInt8) : List UInt8 := file.take pos ++ bs ++ file.drop (pos + bs.length)

/-- `key=value`. -/
def keyText (key value : List UInt8) : List UInt8 := key ++ 61 :: value

/-- What is written for a line that ends at a position. -/
def replacement (file keyTxt line : List UInt8) (pos : Nat) : List UInt8 :=
  let offset := (cString line).length
  if offset = keyTxt.length + 1 then keyTxt
  else if keyTxt.length + 1 < offset then keyTxt ++ List.replicate (offset - keyTxt.length - 1) 32 ++ [10]
  else keyTxt ++ 10 :: (file.drop pos).take 10240

/-- `writeINIString`: whether it returns `ERET_OK`, and the file. -/
def writeINIString (sec key value file : List UInt8) : Bool × List UInt8 :=
  match findLine sec key false 0 (fgetsLines lineMax file) with
  | none => (false, file)
  | some (pos, line) =>
    (true, overwrite file (pos - (cString line).length) (replacement file (keyText key value) line pos))

/-! ## Agreement -/

/-- What is written is read back, no other value changes, and a write that fails changes nothing. -/
structure Agrees (sec key value file : List UInt8) : Prop where
  same : (writeINIString sec key value file).1 = true → ∀ pDefStr nSize, 1024 ≤ nSize →
    readINIString sec key pDefStr nSize (writeINIString sec key value file).2 = value
  others : (writeINIString sec key value file).1 = true → ∀ sec' key' pDefStr nSize, (sec', key') ≠ (sec, key) →
    readINIString sec' key' pDefStr nSize (writeINIString sec key value file).2 =
      readINIString sec' key' pDefStr nSize file
  failed : (writeINIString sec key value file).1 = false → (writeINIString sec key value file).2 = file

/-- The line that the writer replaces: the header is the first line that begins as the section does, and
the line is the first one behind it that begins with the key, before any bracket. -/
structure Hit (sec key : List UInt8) (before : List (List UInt8)) (header : List UInt8) (between : List (List UInt8))
    (line : List UInt8) : Prop where
  earlier : ∀ l ∈ before, starts l (writeHeader sec) = false
  begins : starts header (writeHeader sec) = true
  passed : ∀ l ∈ between, starts l key = false ∧ strstr l [91] = false
  taken : starts line key = true

/-- A value that can be written: a string on one line, not empty and without spaces around it. -/
structure Value (value : List UInt8) : Prop where
  nonempty : value ≠ []
  nonzero : (0 : UInt8) ∉ value
  unbroken : (10 : UInt8) ∉ value
  leading : value.head? ≠ some 32
  trailing : value.getLast? ≠ some 32

/-- A name that is no part of another name with an equals sign, and no header. -/
structure Name (key : List UInt8) : Prop where
  nonempty : key ≠ []
  equals : (61 : UInt8) ∉ key
  unbroken : (10 : UInt8) ∉ key
  trailing : key.getLast? ≠ some 32
  bracket : key.head? ≠ some 91

/-- A line that only a reader of the key can take for an entry. -/
structure Entry (key line : List UInt8) : Prop where
  shape : (61 : UInt8) ∈ line → ∃ text, line = keyText key text ∧ (61 : UInt8) ∉ text
  nonzero : (0 : UInt8) ∉ line

/-- Header and line are meant for the section and the key only, and there is room: the header is that of the
section and has no second closing bracket; the line is an entry of the key or none at all, and so is the new one;
an opening bracket in one of them cuts off no entry of the section; the end of the line is kept; and what follows it
fits the buffer when it moves. -/
structure Clear (sec key value header line : List UInt8) (after : List (List UInt8)) : Prop where
  own : readHeader sec <+: cString header
  single : (cString header).count 93 = 1
  name : Name key
  entry : Entry key line
  equals : (61 : UInt8) ∉ value
  returns : (13 : UInt8) ∉ value
  brackets : ((91 : UInt8) ∉ line ∧ (91 : UInt8) ∉ value) ∨
    ∀ key' ≠ key, (after.foldl (readLine sec key') (.looking true)).text = []
  ends : line.length = (keyText key value).length + 1 → line.getLast? = some 10 ∨ line.getLast? = some 13
  room : line.length < (keyText key value).length + 1 → after.flatten.length ≤ 10240 ∧ (keyText key value).length ≤ lineMax

/-! ## Entries -/

theorem starts_iff {line text : List UInt8} : starts line text = true ↔ text <+: cString line := by
  rw [starts, List.isPrefixOf_iff_prefix]

/-- A line that does not begin with a bracket is no header. -/
theorem starts_header {line : List UInt8} (bracket : (cString line).head? ≠ some 91) (sec : List UInt8) :
    starts line (readHeader sec) = false := by
  rw [Bool.eq_false_iff, Ne, starts_iff]
  rintro ⟨rest, whole⟩
  apply bracket
  rw [← whole]
  rfl

theorem valueText_none {text : List UInt8} (equals : (61 : UInt8) ∉ text) : valueText text = none := by
  have dropped : (61 : UInt8) ∉ filtSpace text := fun member => equals ((List.dropWhile_sublist _).subset member)
  unfold valueText
  split
  next value shape => exact absurd (shape ▸ List.mem_cons_self) dropped
  next => rfl

/-- A key that does not end with a space has a character that is neither a space nor an equals sign. -/
theorem valueText_key {key rest : List UInt8} (some : key ≠ []) (equals : (61 : UInt8) ∉ key) (space : key.getLast? ≠ Option.some 32) :
    valueText (key ++ rest) = none := by
  have letter : ∃ b ∈ key, (b == 32) = false := by
    refine ⟨key.getLast some, List.getLast_mem some, ?_⟩
    rw [beq_eq_false_iff_ne]
    intro last
    exact space (by rw [List.getLast?_eq_some_getLast some, last])
  have drops : filtSpace (key ++ rest) = key.dropWhile (· == 32) ++ rest := by
    unfold filtSpace
    rw [List.dropWhile_append, if_neg]
    obtain ⟨b, member, other⟩ := letter
    rw [List.isEmpty_iff, List.dropWhile_eq_nil_iff]
    intro all
    rw [all b member] at other
    cases other
  unfold valueText
  rw [drops]
  split
  next value shape =>
    exfalso
    cases head : key.dropWhile (· == 32) with
    | nil =>
      rw [List.dropWhile_eq_nil_iff] at head
      obtain ⟨b, member, other⟩ := letter
      rw [head b member] at other
      cases other
    | cons b tail =>
      rw [head, List.cons_append, List.cons.injEq] at shape
      apply equals
      rw [← shape.1]
      exact (List.dropWhile_sublist _).subset (head ▸ List.mem_cons_self)
  next => rfl

/-- A line that begins with another key is no entry of it. -/
theorem valueText_other {key line key' : List UInt8} (entry : Entry key line) (name : Name key) (other : key' ≠ key)
    (begins : key' <+: line) : valueText (line.drop key'.length) = none := by
  obtain ⟨rest, whole⟩ := begins
  rw [← whole, List.drop_left]
  by_cases equals : (61 : UInt8) ∈ line
  · obtain ⟨text, rfl, textEquals⟩ := entry.shape equals
    rcases List.append_eq_append_iff.mp whole with ⟨more, longer, tail⟩ | ⟨more, shorter, tail⟩
    · rw [tail]
      have nonempty : more ≠ [] := by
        rintro rfl
        exact other (by rw [longer, List.append_nil])
      apply valueText_key nonempty
      · exact fun member => name.equals (by rw [longer]; exact List.mem_append_right _ member)
      · intro last
        exact name.trailing (by rw [longer, List.getLast?_append_of_ne_nil _ nonempty, last])
    · cases more with
      | nil =>
        rw [List.append_nil] at shorter
        exact absurd shorter other
      | cons b more =>
        rw [List.cons_append, List.cons.injEq] at tail
        apply valueText_none
        exact fun member => textEquals (by rw [tail.2]; exact List.mem_append_right _ member)
  · apply valueText_none
    exact fun member => equals (by rw [← whole]; exact List.mem_append_right _ member)

/-- **Other keys** pass the line of a key, or stop at a bracket in it. -/
theorem readLine_other {key line key' : List UInt8} (entry : Entry key line) (name : Name key) (other : key' ≠ key) (sec' : List UInt8) :
    readLine sec' key' (.looking true) line = .looking true ∨
      readLine sec' key' (.looking true) line = .stopped ∧ (91 : UInt8) ∈ line := by
  simp only [readLine]
  split
  next begins =>
    rw [starts_iff, cString_of_nonzero entry.nonzero] at begins
    rw [cString_of_nonzero entry.nonzero, valueText_other entry name other begins]
    exact .inl rfl
  next =>
    split
    next bracket =>
      rw [strstr_singleton, cString_of_nonzero entry.nonzero] at bracket
      exact .inr ⟨rfl, bracket⟩
    next => exact .inl rfl

/-- A reader that does not look for a key passes a line that is no header. -/
theorem readLine_away {line : List UInt8} (bracket : (cString line).head? ≠ some 91) (sec' key' : List UInt8) {r : Reading}
    (away : r ≠ .looking true) : readLine sec' key' r line = r := by
  cases r with
  | found text => rfl
  | stopped => rfl
  | looking inSection =>
    cases inSection with
    | true => exact absurd rfl away
    | false =>
      show Reading.looking (starts line (readHeader sec')) = _
      rw [starts_header bracket]

/-! ## Sections -/

theorem foldl_readLine_same {sec key : List UInt8} {r : Reading} {lines : List (List UInt8)}
    (same : ∀ l ∈ lines, readLine sec key r l = r) : lines.foldl (readLine sec key) r = r := by
  induction lines with
  | nil => rfl
  | cons l lines ih =>
    rw [List.foldl_cons, same l List.mem_cons_self]
    exact ih fun l member => same l (List.mem_cons_of_mem _ member)

theorem foldl_readLine_found (sec key text : List UInt8) (lines : List (List UInt8)) :
    lines.foldl (readLine sec key) (.found text) = .found text :=
  foldl_readLine_same fun _ _ => rfl

/-- Inside a section its name is not looked at. -/
theorem foldl_readLine_inside (sec sec' key : List UInt8) (lines : List (List UInt8)) {r : Reading} (inside : r ≠ .looking false) :
    lines.foldl (readLine sec key) r = lines.foldl (readLine sec' key) r := by
  have goesOn : ∀ r line, r ≠ .looking false → readLine sec key r line = readLine sec' key r line ∧ readLine sec key r line ≠ .looking false := by
    intro r line inside
    cases r with
    | found text => exact ⟨rfl, inside⟩
    | stopped => exact ⟨rfl, inside⟩
    | looking inSection =>
      cases inSection with
      | false => exact absurd rfl inside
      | true =>
        refine ⟨rfl, ?_⟩
        simp only [readLine]
        split
        next =>
          split
          next => exact fun same => (nomatch same)
          next => decide
        next =>
          split
          next => decide
          next => decide
  induction lines generalizing r with
  | nil => rfl
  | cons line lines ih =>
    obtain ⟨same, still⟩ := goesOn r line inside
    rw [List.foldl_cons, List.foldl_cons, ← same]
    exact ih still

/-- A header with a single closing bracket is that of one section. -/
theorem header_unique {sec sec' header : List UInt8} (own : readHeader sec <+: header) (single : header.count 93 = 1)
    (own' : readHeader sec' <+: header) : sec' = sec := by
  obtain ⟨rest, whole⟩ := own
  obtain ⟨rest', whole'⟩ := own'
  have once : sec'.count 93 + rest'.count 93 = 0 := by
    rw [← whole', readHeader, List.count_append, List.count_append, List.count_cons_of_ne (by decide), List.count_singleton_self]
      at single
    omega
  have name : (93 : UInt8) ∉ sec' := List.count_eq_zero.mp (by omega)
  have behind : (93 : UInt8) ∉ rest' := List.count_eq_zero.mp (by omega)
  have both : sec' ++ 93 :: rest' = sec ++ 93 :: rest := by
    have same := whole'.trans whole.symm
    simpa [readHeader] using same
  exact ((List.append_cons_inj_of_notMem name behind).mp both).1

section
variable {sec key header line : List UInt8} {before between : List (List UInt8)}

/-- The reader comes to the line of the key in its section. -/
theorem reads_to (hit : Hit sec key before header between line) (own : readHeader sec <+: cString header) :
    (before ++ header :: between).foldl (readLine sec key) (.looking false) = .looking true := by
  rw [List.foldl_append, List.foldl_cons]
  have first : before.foldl (readLine sec key) (.looking false) = .looking false := by
    apply foldl_readLine_same
    intro l member
    show Reading.looking (starts l (readHeader sec)) = _
    have shorter := hit.earlier l member
    rw [Bool.eq_false_iff, Ne, starts_iff] at shorter
    congr 1
    rw [Bool.eq_false_iff, Ne, starts_iff]
    exact fun longer => shorter ((List.prefix_append _ _).trans longer)
  have second : readLine sec key (.looking false) header = .looking true := by
    show Reading.looking (starts header (readHeader sec)) = _
    rw [starts_iff.mpr own]
  rw [first, second]
  apply foldl_readLine_same
  intro l member
  obtain ⟨other, bracket⟩ := hit.passed l member
  simp [readLine, other, bracket]

/-- A header of another section ends the search for the key. -/
theorem readLine_header (own : readHeader sec <+: cString header) (single : (cString header).count 93 = 1) (name : Name key)
    {sec' : List UInt8} (other : sec' ≠ sec) (r : Reading) : readLine sec' key r header ≠ .looking true := by
  cases r with
  | found text => exact fun same => (nomatch same)
  | stopped => exact fun same => (nomatch same)
  | looking inSection =>
    cases inSection with
    | false =>
      have notHeader : starts header (readHeader sec') = false := by
        rw [Bool.eq_false_iff, Ne, starts_iff]
        exact fun own' => other (header_unique own single own')
      show Reading.looking (starts header (readHeader sec')) ≠ _
      rw [notHeader]
      decide
    | true =>
      have opening : (91 : UInt8) ∈ cString header := own.subset (by simp [readHeader])
      have notKey : starts header key = false := by
        rw [Bool.eq_false_iff, Ne, starts_iff]
        rintro ⟨rest', whole'⟩
        obtain ⟨rest, whole⟩ := own
        obtain ⟨b, tail, rfl⟩ := List.exists_cons_of_ne_nil name.nonempty
        have same := whole'.trans whole.symm
        rw [readHeader, List.cons_append, List.cons_append, List.cons_append, List.cons.injEq] at same
        exact name.bracket (by rw [same.1]; rfl)
      have stops : readLine sec' key (.looking true) header = .stopped := by
        simp [readLine, notKey, strstr_singleton.mpr opening]
      rw [stops]
      exact fun same => (nomatch same)

/-- The reader for another section does not look for the key at the line. -/
theorem reads_past (hit : Hit sec key before header between line) (own : readHeader sec <+: cString header)
    (single : (cString header).count 93 = 1) (name : Name key) {sec' : List UInt8} (other : sec' ≠ sec) :
    (before ++ header :: between).foldl (readLine sec' key) (.looking false) ≠ .looking true := by
  rw [List.foldl_append, List.foldl_cons]
  have away := readLine_header own single name other (before.foldl (readLine sec' key) (.looking false))
  rw [foldl_readLine_same]
  · exact away
  · intro l member
    apply readLine_away _ _ _ away
    intro first
    have noBracket := (hit.passed l member).2
    rw [Bool.eq_false_iff, Ne, strstr_singleton] at noBracket
    exact noBracket (List.mem_of_mem_head? first)

end

/-! ## Other readers -/

section
variable {key : List UInt8} {lines : List (List UInt8)} (name : Name key) (entries : ∀ l ∈ lines, Entry key l)
include entries

theorem foldl_readLine_away {sec' key' : List UInt8} {r : Reading} (away : r ≠ .looking true)
    (heads : ∀ l ∈ lines, l.head? ≠ some 91) : lines.foldl (readLine sec' key') r = r := by
  apply foldl_readLine_same
  intro l member
  apply readLine_away _ _ _ away
  rw [cString_of_nonzero (entries l member).nonzero]
  exact heads l member

include name

theorem foldl_readLine_other {sec' key' : List UInt8} (other : key' ≠ key) :
    lines.foldl (readLine sec' key') (.looking true) = .looking true ∨
      lines.foldl (readLine sec' key') (.looking true) = .stopped ∧ ∃ l ∈ lines, (91 : UInt8) ∈ l := by
  induction lines with
  | nil => exact .inl rfl
  | cons l lines ih =>
    rw [List.foldl_cons]
    rcases readLine_other (entries l List.mem_cons_self) name other sec' with passes | ⟨stops, bracket⟩
    · rw [passes]
      rcases ih fun l member => entries l (List.mem_cons_of_mem _ member) with goesOn | ⟨stops, l', member, bracket⟩
      · exact .inl goesOn
      · exact .inr ⟨stops, l', List.mem_cons_of_mem _ member, bracket⟩
    · rw [stops, foldl_readLine_same fun _ _ => rfl]
      exact .inr ⟨rfl, l, List.mem_cons_self, bracket⟩

end

/-- **Lines of the key are as good as others of the key** to another reader, unless a bracket in them cuts off what it
looks for. -/
theorem others_same {sec key sec' key' : List UInt8} (old new : List (List UInt8)) {after : List (List UInt8)} {r : Reading}
    (name : Name key) (entries : ∀ l ∈ old ++ new, Entry key l) (heads : ∀ l ∈ old ++ new, l.head? ≠ some 91)
    (brackets : (∀ l ∈ old ++ new, (91 : UInt8) ∉ l) ∨ ∀ key' ≠ key, (after.foldl (readLine sec key') (.looking true)).text = [])
    (other : r = .looking true → key' ≠ key) :
    ((old ++ after).foldl (readLine sec' key') r).text = ((new ++ after).foldl (readLine sec' key') r).text := by
  have oldEntries : ∀ l ∈ old, Entry key l := fun l member => entries l (List.mem_append_left _ member)
  have newEntries : ∀ l ∈ new, Entry key l := fun l member => entries l (List.mem_append_right _ member)
  rw [List.foldl_append, List.foldl_append]
  by_cases looking : r = .looking true
  · subst looking
    rcases brackets with none | last
    · have passes : ∀ ls : List (List UInt8), (∀ l ∈ ls, Entry key l) → (∀ l ∈ ls, (91 : UInt8) ∉ l) →
          ls.foldl (readLine sec' key') (.looking true) = .looking true := by
        intro ls entries none
        rcases foldl_readLine_other name entries (other rfl) with goesOn | ⟨_, l, member, bracket⟩
        · exact goesOn
        · exact absurd bracket (none l member)
      rw [passes old oldEntries fun l member => none l (List.mem_append_left _ member),
        passes new newEntries fun l member => none l (List.mem_append_right _ member)]
    · have nothing : ∀ ls : List (List UInt8), (∀ l ∈ ls, Entry key l) →
          (after.foldl (readLine sec' key') (ls.foldl (readLine sec' key') (.looking true))).text = [] := by
        intro ls entries
        rcases foldl_readLine_other name entries (other rfl) with goesOn | ⟨stops, _⟩
        · rw [goesOn, foldl_readLine_inside sec' sec _ _ (by decide)]
          exact last key' (other rfl)
        · rw [stops, foldl_readLine_same fun _ _ => rfl]
          rfl
      rw [nothing old oldEntries, nothing new newEntries]
  · rw [foldl_readLine_away oldEntries looking fun l member => heads l (List.mem_append_left _ member),
      foldl_readLine_away newEntries looking fun l member => heads l (List.mem_append_right _ member)]

/-! ## The replaced line -/

theorem findLine_inside {sec key line : List UInt8} {p pos : Nat} {lines : List (List UInt8)}
    (found : findLine sec key true p lines = some (pos, line)) :
    ∃ between after, lines = between ++ line :: after ∧ (∀ l ∈ between, starts l key = false ∧ strstr l [91] = false) ∧
      starts line key = true ∧ pos = p + (between ++ [line]).flatten.length := by
  induction lines generalizing p with
  | nil => cases found
  | cons l lines ih =>
    rw [findLine] at found
    split at found
    next taken =>
      cases found
      exact ⟨[], lines, rfl, fun _ member => (nomatch member), taken, by simp⟩
    next other =>
      split at found
      next => cases found
      next bracket =>
        obtain ⟨between, after, rfl, passed, taken, rfl⟩ := ih found
        refine ⟨l :: between, after, rfl, fun l' member => ?_, taken, by simp; omega⟩
        rcases List.mem_cons.mp member with rfl | member
        · exact ⟨by simpa using other, by simpa using bracket⟩
        · exact passed l' member

/-- **What the writer finds** is a hit. -/
theorem findLine_hit {sec key line : List UInt8} {p pos : Nat} {lines : List (List UInt8)}
    (found : findLine sec key false p lines = some (pos, line)) :
    ∃ before header between after, lines = before ++ header :: between ++ line :: after ∧
      Hit sec key before header between line ∧ pos = p + (before ++ header :: between ++ [line]).flatten.length := by
  induction lines generalizing p with
  | nil => cases found
  | cons l lines ih =>
    rw [findLine] at found
    cases begins : starts l (writeHeader sec) with
    | true =>
      rw [begins] at found
      obtain ⟨between, after, rfl, passed, taken, rfl⟩ := findLine_inside found
      refine ⟨[], l, between, after, rfl, ⟨fun _ member => (nomatch member), begins, passed, taken⟩, by simp; omega⟩
    | false =>
      rw [begins] at found
      obtain ⟨before, header, between, after, rfl, hit, rfl⟩ := ih found
      refine ⟨l :: before, header, between, after, rfl, ⟨fun l' member => ?_, hit.begins, hit.passed, hit.taken⟩, by simp; omega⟩
      rcases List.mem_cons.mp member with rfl | member
      · exact begins
      · exact hit.earlier l' member

/-- **What the writer leaves**: the line is replaced by the new one, filled up with spaces, and everything else is as
it was. -/
theorem replacement_eq (front : List UInt8) {keyTxt line after : List UInt8} (nonzero : (0 : UInt8) ∉ line)
    (ends : line.length = keyTxt.length + 1 → line.getLast? = some 10 ∨ line.getLast? = some 13 ∧ after = [])
    (room : line.length < keyTxt.length + 1 → after.length ≤ 10240) :
    ∃ n c, (c = 10 ∨ c = 13 ∧ after = []) ∧ (keyTxt.length + n + 1 = line.length ∨ line.length < keyTxt.length + 1 ∧ n = 0 ∧ c = 10) ∧
      overwrite (front ++ (line ++ after)) (front.length + line.length - (cString line).length)
        (replacement (front ++ (line ++ after)) keyTxt line (front.length + line.length)) =
      front ++ ((keyTxt ++ (List.replicate n 32 ++ [c])) ++ after) := by
  have start : front.length + line.length - line.length = front.length := by omega
  have behind : (front ++ (line ++ after)).drop (front.length + line.length) = after := by
    rw [List.drop_length_add_append, List.drop_left]
  unfold replacement overwrite
  rw [cString_of_nonzero nonzero, start, behind, List.take_left, List.drop_length_add_append, List.append_assoc]
  by_cases same : line.length = keyTxt.length + 1
  · obtain ⟨text, c, rfl⟩ : ∃ text c, line = text ++ [c] := by
      have nonempty : line ≠ [] := List.length_pos_iff.mp (by omega)
      exact ⟨_, _, (List.dropLast_concat_getLast nonempty).symm⟩
    refine ⟨0, c, ?_, .inl same.symm, ?_⟩
    · simpa using ends same
    · rw [if_pos same]
      rw [List.length_append, List.length_singleton] at same
      rw [show keyTxt.length = text.length by omega, List.append_assoc, List.drop_left]
      simp
  · by_cases shorter : keyTxt.length + 1 < line.length
    · refine ⟨line.length - keyTxt.length - 1, 10, .inl rfl, .inl (by omega), ?_⟩
      have whole : (keyTxt ++ List.replicate (line.length - keyTxt.length - 1) 32 ++ [10]).length = line.length := by
        simp only [List.length_append, List.length_replicate, List.length_singleton]
        omega
      rw [if_neg same, if_pos shorter, whole, List.drop_left, List.append_assoc keyTxt]
    · refine ⟨0, 10, .inl rfl, .inr ⟨by omega, rfl, rfl⟩, ?_⟩
      have moved : after.take 10240 = after := List.take_of_length_le (room (by omega))
      have gone : (line ++ after).length ≤ (keyTxt ++ 10 :: after).length := by
        simp only [List.length_append, List.length_cons]
        omega
      rw [if_neg same, if_neg shorter, moved, List.drop_eq_nil_of_le gone]
      simp

/-! ## The new line -/

/-- The end of a line: spaces, and a newline or a carriage return; or nothing, where `fgets` has cut it off. -/
def LineEnd (tail : List UInt8) : Prop := tail = [] ∨ ∃ n c, tail = List.replicate n 32 ++ [c] ∧ (c = 10 ∨ c = 13)

theorem LineEnd.bytes {tail : List UInt8} (ends : LineEnd tail) {b : UInt8} (member : b ∈ tail) : b = 32 ∨ b = 10 ∨ b = 13 := by
  rcases ends with rfl | ⟨n, c, rfl, end'⟩
  · cases member
  · rw [List.mem_append, List.mem_replicate, List.mem_singleton] at member
    rcases member with ⟨_, space⟩ | rfl
    · exact .inl space
    · exact .inr end'

theorem rdropWhile_spaces {value : List UInt8} (trailing : value.getLast? ≠ some 32) (n : Nat) :
    (value ++ List.replicate n 32).rdropWhile (· == 32) = value := by
  induction n with
  | zero =>
    rw [List.replicate_zero, List.append_nil, List.rdropWhile_eq_self_iff]
    intro some space
    exact trailing (by rw [List.getLast?_eq_some_getLast some, beq_iff_eq.mp space])
  | succ n ih =>
    rw [List.replicate_succ', ← List.append_assoc, List.rdropWhile_concat_pos _ _ _ (by decide), ih]

/-- The end of the line is cut off a value. -/
theorem cutEnd_value {value tail : List UInt8} (ok : Value value) (returns : (13 : UInt8) ∉ value) (ends : LineEnd tail) :
    cutEnd (value ++ tail) = value := by
  have inside : ∀ b ∈ value, (b != 13 && b != 10) = true := by
    intro b member
    have notReturn : b ≠ 13 := fun same => returns (same ▸ member)
    have notNewline : b ≠ 10 := fun same => ok.unbroken (same ▸ member)
    simp [notReturn, notNewline]
  unfold cutEnd
  rcases ends with rfl | ⟨n, c, rfl, end'⟩
  · rw [List.append_nil, List.takeWhile_eq_self_iff.mpr inside]
    exact if_pos rfl
  · have head : (value ++ (List.replicate n 32 ++ [c])).takeWhile (fun b => b != 13 && b != 10) = value ++ List.replicate n 32 := by
      rw [List.takeWhile_append_of_pos inside, List.takeWhile_append_of_pos]
      · rcases end' with rfl | rfl
        · simp
        · simp
      · intro b member
        rw [(List.mem_replicate.mp member).2]
        decide
    simp only [head]
    rw [if_neg (by simp), rdropWhile_spaces ok.trailing]

/-- **The new line is read**. -/
theorem readLine_new {key value tail : List UInt8} (ok : Value value) (nonzero : (0 : UInt8) ∉ keyText key value ++ tail)
    (sec : List UInt8) : readLine sec key (.looking true) (keyText key value ++ tail) = .found (value ++ tail) := by
  obtain ⟨b, text, rfl⟩ := List.exists_cons_of_ne_nil ok.nonempty
  have letter : (b == 32) = false := by
    rw [beq_eq_false_iff_ne]
    rintro rfl
    exact ok.leading rfl
  have begins : starts (keyText key (b :: text) ++ tail) key = true := by
    rw [starts_iff, cString_of_nonzero nonzero, keyText, List.append_assoc]
    exact List.prefix_append _ _
  have rest : (keyText key (b :: text) ++ tail).drop key.length = 61 :: (b :: text ++ tail) := by
    rw [keyText, List.append_assoc, List.drop_left]
    rfl
  have value' : valueText (61 :: (b :: text ++ tail)) = some (b :: text ++ tail) := by
    simp [valueText, filtSpace, letter]
  simp only [readLine, begins, if_true, cString_of_nonzero nonzero, rest, value']

/-- How the new line is read from the file. -/
theorem new_lines {front after : List (List UInt8)} {keyTxt : List UInt8} {n : Nat} {c : UInt8}
    (terminated : ∀ l ∈ front, Terminated l) (shortFront : ∀ l ∈ front, l.length ≤ lineMax) (lines : Lines after)
    (shortAfter : ∀ l ∈ after, l.length ≤ lineMax) (unbroken : (10 : UInt8) ∉ keyTxt)
    (last : c = 10 ∨ c = 13 ∧ after.flatten = []) (short : keyTxt.length + n + 1 ≤ lineMax ∨ keyTxt.length ≤ lineMax ∧ n = 0 ∧ c = 10) :
    ∃ tail rest, fgetsLines lineMax (front.flatten ++ ((keyTxt ++ (List.replicate n 32 ++ [c])) ++ after.flatten)) =
        front ++ ((keyTxt ++ tail) :: rest ++ after) ∧
      LineEnd tail ∧ (rest = [] ∨ rest = [[10]]) ∧ (keyTxt ++ tail).length ≤ lineMax := by
  have unbroken' : (10 : UInt8) ∉ keyTxt ++ List.replicate n 32 := by
    rw [List.mem_append, List.mem_replicate]
    rintro (member | ⟨_, same⟩)
    · exact unbroken member
    · exact absurd same (by decide)
  have rest := fgetsLines_flatten lines shortAfter
  rw [fgetsLines_prepend terminated shortFront]
  by_cases fits : keyTxt.length + n + 1 ≤ lineMax
  · have length : (keyTxt ++ (List.replicate n 32 ++ [c])).length ≤ lineMax := by
      simp only [List.length_append, List.length_replicate, List.length_singleton]
      omega
    refine ⟨List.replicate n 32 ++ [c], [], ?_, .inr ⟨n, c, rfl, last.imp_right And.left⟩, .inl rfl, length⟩
    rcases last with rfl | ⟨rfl, nothing⟩
    · rw [fgetsLines_terminated ⟨_, (List.append_assoc _ _ _).symm, unbroken'⟩ length, rest]
      rfl
    · rw [nothing] at rest
      rw [nothing, List.append_nil, fgetsLines_last (by simp) _ length, ← rest]
      · rfl
      · rw [← List.append_assoc, List.mem_append, not_or]
        exact ⟨unbroken', by decide⟩
  · obtain ⟨bound, rfl, rfl⟩ := short.resolve_left fits
    have full : keyTxt.length = lineMax := by omega
    have some : keyTxt ≠ [] := List.length_pos_iff.mp (by rw [full]; decide)
    refine ⟨[], [[10]], ?_, .inl rfl, .inr rfl, by rwa [List.append_nil]⟩
    have newline : fgetsLines lineMax ([10] ++ after.flatten) = [10] :: after := by
      have terminated : Terminated [10] := ⟨[], rfl, List.not_mem_nil⟩
      rw [fgetsLines_terminated terminated (by decide), rest]
    rw [List.replicate_zero, List.nil_append, List.append_assoc, fgetsLines_full some unbroken full, newline, List.append_nil]
    rfl

section
variable {sec key value file header line : List UInt8} {before between after : List (List UInt8)}

/-- What `writeINIString` does: nothing, or it replaces the line that it hits. -/
theorem writeINIString_cases (sec key value : List UInt8) (short : ∀ l ∈ linesOf file, l.length ≤ lineMax) :
    writeINIString sec key value file = (false, file) ∨
      ∃ before header between line after, linesOf file = before ++ header :: between ++ line :: after ∧
        Hit sec key before header between line ∧
        writeINIString sec key value file = (true, overwrite file
          ((before ++ header :: between).flatten.length + line.length - (cString line).length)
          (replacement file (keyText key value) line ((before ++ header :: between).flatten.length + line.length))) := by
  unfold writeINIString
  rw [fgetsLines_eq short]
  cases found : findLine sec key false 0 (linesOf file) with
  | none => exact .inl rfl
  | some hit =>
    obtain ⟨pos, line⟩ := hit
    obtain ⟨before, header, between, after, whole, hit, rfl⟩ := findLine_hit found
    refine .inr ⟨before, header, between, line, after, whole, hit, ?_⟩
    have behind : 0 + (before ++ header :: between ++ [line]).flatten.length =
        (before ++ header :: between).flatten.length + line.length := by
      rw [List.flatten_append, List.flatten_singleton, List.length_append, Nat.zero_add]
    rw [behind]

/-- The line begins with the key. -/
theorem Hit.begins_line (hit : Hit sec key before header between line) (entry : Entry key line) : key <+: line := by
  have taken := hit.taken
  rwa [starts_iff, cString_of_nonzero entry.nonzero] at taken

/-- The lines of the file after a write. -/
theorem lines_written (short : ∀ l ∈ linesOf file, l.length ≤ lineMax) (ok : Value value)
    (whole : linesOf file = before ++ header :: between ++ line :: after) (clear : Clear sec key value header line after) :
    ∃ tail rest, fgetsLines lineMax (overwrite file
          ((before ++ header :: between).flatten.length + line.length - (cString line).length)
          (replacement file (keyText key value) line ((before ++ header :: between).flatten.length + line.length))) =
        before ++ header :: between ++ ((keyText key value ++ tail) :: rest ++ after) ∧
      LineEnd tail ∧ (rest = [] ∨ rest = [[10]]) ∧ (keyText key value ++ tail).length ≤ lineMax := by
  generalize before ++ header :: between = front at whole ⊢
  have lines := lines_linesOf file
  have text := linesOf_flatten file
  rw [whole] at lines short text
  rw [List.flatten_append, List.flatten_cons] at text
  obtain ⟨terminated, here, later⟩ := lines.split
  have fits : line.length ≤ lineMax := short line (by simp)
  have unbroken : (10 : UInt8) ∉ keyText key value := by
    simp only [keyText, List.mem_append, List.mem_cons, not_or]
    exact ⟨clear.name.unbroken, by decide, ok.unbroken⟩
  have last : line.length = (keyText key value).length + 1 → line.getLast? = some 10 ∨ line.getLast? = some 13 ∧ after.flatten = [] := by
    intro same
    rcases clear.ends same with newline | carriage
    · exact .inl newline
    · by_cases more : after = []
      · exact .inr ⟨carriage, by rw [more]; rfl⟩
      · obtain ⟨text, rfl, _⟩ := here more
        exact .inl (by simp)
  obtain ⟨n, c, endByte, length, written⟩ := replacement_eq front.flatten clear.entry.nonzero last
    fun longer => (clear.room longer).1
  rw [text] at written
  rw [written]
  apply new_lines terminated (fun l member => short l (by simp [member])) later (fun l member => short l (by simp [member]))
    unbroken endByte
  rcases length with same | ⟨longer, spaces, newline⟩
  · exact .inl (by omega)
  · exact .inr ⟨(clear.room longer).2, spaces, newline⟩

theorem head_of_prefix {bs : List UInt8} (name : Name key) (begins : key <+: bs) : bs.head? ≠ some 91 := by
  obtain ⟨rest, rfl⟩ := begins
  obtain ⟨b, tail, rfl⟩ := List.exists_cons_of_ne_nil name.nonempty
  exact name.bracket

/-- The new line is an entry of the key. -/
theorem entry_new {tail : List UInt8} (ok : Value value) (equals : (61 : UInt8) ∉ value) (nonzero : (0 : UInt8) ∉ key) (ends : LineEnd tail) :
    Entry key (keyText key value ++ tail) := by
  have other : ∀ b : UInt8, b ≠ 32 → b ≠ 10 → b ≠ 13 → b ∉ tail := by
    intro b space newline carriage member
    rcases ends.bytes member with same | same | same
    · exact space same
    · exact newline same
    · exact carriage same
  refine ⟨fun _ => ⟨value ++ tail, ?_, ?_⟩, ?_⟩
  · rw [keyText, keyText, List.append_assoc, List.cons_append]
  · rw [List.mem_append, not_or]
    exact ⟨equals, other 61 (by decide) (by decide) (by decide)⟩
  · simp only [keyText, List.mem_append, List.mem_cons, not_or]
    exact ⟨⟨nonzero, by decide, ok.nonzero⟩, other 0 (by decide) (by decide) (by decide)⟩

end

/-! ## Agreement of reader and writer -/

/-- **What is written is read back**. -/
theorem reads_written {sec key value header line tail : List UInt8} {before between after : List (List UInt8)} (rest : List (List UInt8))
    (ok : Value value) (hit : Hit sec key before header between line) (clear : Clear sec key value header line after)
    (entry : Entry key (keyText key value ++ tail)) :
    ((before ++ header :: between ++ ((keyText key value ++ tail) :: rest ++ after)).foldl (readLine sec key) (.looking false)).text =
      value ++ tail := by
  rw [List.foldl_append, reads_to hit clear.own, List.cons_append, List.foldl_cons, readLine_new ok entry.nonzero,
    foldl_readLine_found]
  rfl

/-- **No other value changes**. -/
theorem reads_other {sec key value header line tail sec' key' : List UInt8} {before between rest after : List (List UInt8)}
    (hit : Hit sec key before header between line) (clear : Clear sec key value header line after)
    (entry : Entry key (keyText key value ++ tail)) (ends : LineEnd tail) (blank : rest = [] ∨ rest = [[10]])
    (other : (sec', key') ≠ (sec, key)) :
    ((before ++ header :: between ++ ((keyText key value ++ tail) :: rest ++ after)).foldl (readLine sec' key') (.looking false)).text =
      ((before ++ header :: between ++ line :: after).foldl (readLine sec' key') (.looking false)).text := by
  have begins := hit.begins_line clear.entry
  have newBegins : key <+: keyText key value ++ tail := (List.prefix_append _ _).trans (List.prefix_append _ _)
  have blanks : ∀ l ∈ rest, l = [10] := by
    intro l member
    rcases blank with rfl | rfl
    · cases member
    · exact List.mem_singleton.mp member
  have members : ∀ l ∈ ((keyText key value ++ tail) :: rest) ++ [line], l = keyText key value ++ tail ∨ l = [10] ∨ l = line := by
    intro l member
    rw [List.mem_append, List.mem_cons, List.mem_singleton] at member
    rcases member with (same | member) | same
    · exact .inl same
    · exact .inr (.inl (blanks l member))
    · exact .inr (.inr same)
  have front : ∀ ls, (before ++ header :: between ++ ls).foldl (readLine sec' key') (.looking false) =
      ls.foldl (readLine sec' key') ((before ++ header :: between).foldl (readLine sec' key') (.looking false)) :=
    fun ls => List.foldl_append
  rw [front, front]
  apply others_same ((keyText key value ++ tail) :: rest) [line] clear.name
  · intro l member
    rcases members l member with rfl | rfl | rfl
    · exact entry
    · exact ⟨fun equals => absurd equals (by decide), by decide⟩
    · exact clear.entry
  · intro l member
    rcases members l member with rfl | rfl | rfl
    · exact head_of_prefix clear.name newBegins
    · decide
    · exact head_of_prefix clear.name begins
  · refine clear.brackets.imp_left fun none l member => ?_
    rcases members l member with rfl | rfl | rfl
    · simp only [keyText, List.mem_append, List.mem_cons, not_or]
      refine ⟨⟨fun member => none.1 (begins.subset member), by decide, none.2⟩, fun member => ?_⟩
      rcases ends.bytes member with same | same | same
      all_goals exact absurd same (by decide)
    · decide
    · exact none.1
  · rintro looking rfl
    have elsewhere : sec' ≠ sec := fun same => other (by rw [same])
    exact reads_past hit clear.own clear.single clear.name elsewhere looking

/-- **Reader and writer agree** on a file whose lines fit the buffer when the line that the writer takes is meant for the
section and the key only. -/
theorem ini_agreement {sec key value file : List UInt8} (short : ∀ l ∈ linesOf file, l.length < 1023) (ok : Value value)
    (clear : ∀ before header between line after, linesOf file = before ++ header :: between ++ line :: after →
      Hit sec key before header between line → Clear sec key value header line after) :
    Agrees sec key value file := by
  have fits : ∀ l ∈ linesOf file, l.length ≤ lineMax := fun l member => Nat.le_of_lt_succ (short l member)
  rcases writeINIString_cases sec key value fits with
    nothing | ⟨before, header, between, line, after, whole, hit, written⟩
  · refine ⟨fun success => ?_, fun success => ?_, fun _ => ?_⟩
    · rw [nothing] at success
      cases success
    · rw [nothing] at success
      cases success
    · rw [nothing]
  · have clear := clear before header between line after whole hit
    obtain ⟨tail, rest, lines, ends, blank, bound⟩ := lines_written fits ok whole clear
    have nonzero : (0 : UInt8) ∉ key := fun member => clear.entry.nonzero ((hit.begins_line clear.entry).subset member)
    have entry := entry_new ok clear.equals nonzero ends
    refine ⟨fun _ pDefStr nSize size => ?_, fun _ sec' key' pDefStr nSize other => ?_, fun failure => ?_⟩
    · have text := reads_written rest ok hit clear entry
      have some : value ++ tail ≠ [] := fun none => ok.nonempty (List.append_eq_nil_iff.mp none).1
      have length : (value ++ tail).length ≤ nSize - 1 := by
        simp only [keyText, List.length_append, List.length_cons, lineMax] at bound ⊢
        omega
      simp only [readINIString, written, lines, text, if_neg some, List.take_of_length_le length]
      exact cutEnd_value ok clear.returns ends
    · simp only [readINIString, written, lines, fgetsLines_eq fits, whole, reads_other hit clear entry ends blank other]
    · rw [written] at failure
      cases failure

/-- `ip=77` for `ip=1` in the section `net`, before `port=2`. -/
theorem ini_agreement_longer :
    writeINIString [110, 101, 116] [105, 112] [55, 55]
        [91, 110, 101, 116, 93, 10, 105, 112, 61, 49, 10, 112, 111, 114, 116, 61, 50, 10] =
      (true, [91, 110, 101, 116, 93, 10, 105, 112, 61, 55, 55, 10, 112, 111, 114, 116, 61, 50, 10]) ∧
      Agrees [110, 101, 116] [105, 112] [55, 55] [91, 110, 101, 116, 93, 10, 105, 112, 61, 49, 10, 112, 111, 114, 116, 61, 50, 10] := by
  refine ⟨by decide, ini_agreement (by decide) ⟨by decide, by decide, by decide, by decide, by decide⟩ ?_⟩
  intro before header between line after whole hit
  have lines : linesOf [91, 110, 101, 116, 93, 10, 105, 112, 61, 49, 10, 112, 111, 114, 116, 61, 50, 10] =
      [[91, 110, 101, 116, 93, 10], [105, 112, 61, 49, 10], [112, 111, 114, 116, 61, 50, 10]] := by decide
  rw [lines] at whole
  have first : before = [] := by
    cases before with
    | nil => rfl
    | cons l before =>
      obtain ⟨rfl, _⟩ := List.cons.inj whole
      exact absurd (hit.earlier _ List.mem_cons_self) (by decide)
  subst first
  obtain ⟨rfl, behind⟩ := List.cons.inj whole
  have next : between = [] := by
    cases between with
    | nil => rfl
    | cons l between =>
      obtain ⟨rfl, _⟩ := List.cons.inj behind
      exact absurd (hit.passed _ List.mem_cons_self).1 (by decide)
  subst next
  obtain ⟨rfl, rfl⟩ := List.cons.inj behind
  refine ⟨by decide, by decide, ⟨by decide, by decide, by decide, by decide, by decide⟩, ⟨fun _ => ⟨[49, 10], by decide⟩, by decide⟩,
    by decide, by decide, .inl (by decide), by decide, by decide⟩

/-- `ip` of the section `net`, which follows a section `network`. -/
theorem ini_agreement_fails :
    ¬Agrees [110, 101, 116] [105, 112] [55]
      [91, 110, 101, 116, 119, 111, 114, 107, 93, 10, 105, 112, 61, 49, 10, 91, 110, 101, 116, 93, 10, 105, 112, 61, 50, 10] := by
  intro agrees
  have same := agrees.same (by decide) [] 1024 (by decide)
  revert same
  decide +kernel

end VideoDetector.Ipsearch
