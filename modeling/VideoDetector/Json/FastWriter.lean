import Mathlib.Tactic.IntervalCases
import VideoDetector.Json.Objects

/-!
# Values and their texts (`Pvd/cppjson/json_writer.cpp`, over `json_value.cpp` and `json_tool.h`)

`FastWriter` writes a value in one line. `write_jsonText` says that what it writes is a JSON text, `write_graphic` that no byte
of it is below the space. Comments and offsets of values are left out, and how a `double` is printed and read is a parameter.
-/

namespace VideoDetector.Json
set_option autoImplicit false

/-- `Json::Value`. The members of an object are in the order of the map. -/
inductive Value (R : Type) where
  | null
  | int (n : Int)
  | uint (n : Nat)
  | real (r : R)
  | string (s : Str)
  | bool (b : Bool)
  | array (elements : List (Value R))
  | object (members : List (Str × Value R))

/-- `"%.17g"`, and `istringstream >>`. -/
structure Doubles (R : Type) where
  print : R → Str
  read : Str → Option R

/-! ## Numbers and strings -/

def digitByte (d : Nat) : UInt8 := UInt8.ofNat (d + 48)

/-- `uintToString`. -/
def uintToString (value : Nat) : Str :=
  if value / 10 = 0 then [digitByte (value % 10)] else uintToString (value / 10) ++ [digitByte (value % 10)]
termination_by value
decreasing_by omega

def maxLargestInt : Nat := 2 ^ 63 - 1

def minLargestInt : Int := -(2 ^ 63)

/-- `valueToString`. -/
def valueToString (value : Int) : Str :=
  if value = minLargestInt then 0x2D :: uintToString (maxLargestInt + 1)
  else if value < 0 then 0x2D :: uintToString (-value).toNat
  else uintToString value.toNat

/-- `isControlCharacter`, where a `char` has a sign. -/
def isControlCharacter (c : UInt8) : Bool := 0 < c && c ≤ 0x1F

def hexByte (d : Nat) : UInt8 := if d < 10 then UInt8.ofNat (d + 48) else UInt8.ofNat (d + 55)

/-- What stands for a byte in a string. -/
def escapeByte (c : UInt8) : Str :=
  if c = quote then [backslash, quote]
  else if c = backslash then [backslash, backslash]
  else if c = 0x08 then [backslash, 0x62]
  else if c = 0x0C then [backslash, 0x66]
  else if c = 0x0A then [backslash, 0x6E]
  else if c = 0x0D then [backslash, 0x72]
  else if c = 0x09 then [backslash, 0x74]
  else if isControlCharacter c || c = 0 then [backslash, 0x75, 0x30, 0x30, hexByte (c.toNat / 16), hexByte (c.toNat % 16)]
  else [c]

/-- `strnpbrk` and `containsControlCharacter0`. -/
def needsEscape (c : UInt8) : Bool :=
  c ∈ [quote, backslash, 0x08, 0x0C, 0x0A, 0x0D, 0x09] || isControlCharacter c || c = 0

/-- `valueToQuotedStringN`. -/
def valueToQuotedStringN (value : Str) : Str :=
  if value.any needsEscape then quote :: value.flatMap escapeByte ++ [quote] else quote :: value ++ [quote]

/-! ## Values -/

section
variable {R : Type} (doubles : Doubles R)

mutual

/-- `FastWriter::writeValue`. -/
def Value.write : Value R → Str
  | .null => ascii "null"
  | .int n => valueToString n
  | .uint n => uintToString n
  | .real r => doubles.print r
  | .string s => valueToQuotedStringN s
  | .bool b => ascii (if b then "true" else "false")
  | .array elements => openBracket :: writeElements true elements ++ [closeBracket]
  | .object members => openBrace :: writeMembers true members ++ [closeBrace]

/-- The loop over the elements. -/
def writeElements (first : Bool) : List (Value R) → Str
  | [] => []
  | v :: vs => (if first then [] else [comma]) ++ v.write ++ writeElements false vs

/-- The loop over the members. -/
def writeMembers (first : Bool) : List (Str × Value R) → Str
  | [] => []
  | (name, v) :: ms => (if first then [] else [comma]) ++ valueToQuotedStringN name ++ colon :: v.write ++ writeMembers false ms

end

/-- `FastWriter::write`. -/
def fastWriter (root : Value R) : Str := root.write doubles ++ [newline]

/-- A value as the library holds it: integers of 64 bits, names in the order of the map, each once, and doubles that are printed
as numbers and read as they were. -/
inductive Value.Proper : Value R → Prop where
  | null : Proper .null
  | int {n : Int} (low : minLargestInt ≤ n) (high : n ≤ maxLargestInt) : Proper (.int n)
  | uint {n : Nat} (high : n < 2 ^ 64) : Proper (.uint n)
  | real {r : R} (number : NumberText (doubles.print r)) (exact : doubles.read (doubles.print r) = some r) : Proper (.real r)
  | string (s : Str) : Proper (.string s)
  | bool (b : Bool) : Proper (.bool b)
  | array {elements : List (Value R)} (each : ∀ v ∈ elements, Proper v) : Proper (.array elements)
  | object {members : List (Str × Value R)} (sorted : members.Pairwise (·.1 < ·.1)) (each : ∀ m ∈ members, Proper m.2) :
      Proper (.object members)

end

/-! ## Digits -/

theorem isDigit_digitByte {d : Nat} (low : d < 10) : isDigit (digitByte d) = true := by
  interval_cases d <;> decide

theorem uintToString_ne_nil (n : Nat) : uintToString n ≠ [] := by
  rw [uintToString]
  split <;> simp

theorem uintToString_isDigit (n : Nat) : ∀ b ∈ uintToString n, isDigit b = true := by
  induction n using uintToString.induct with
  | case1 n one =>
    rw [uintToString, if_pos one]
    intro b member
    rw [List.mem_singleton.mp member]
    apply isDigit_digitByte
    omega
  | case2 n more ih =>
    rw [uintToString, if_neg more]
    intro b member
    rcases List.mem_append.mp member with front | last
    · exact ih b front
    · rw [List.mem_singleton.mp last]
      apply isDigit_digitByte
      omega

/-- A number that is not zero does not begin with a zero. -/
theorem uintToString_head {n : Nat} (positive : 0 < n) : (uintToString n).head? ≠ some 0x30 := by
  induction n using uintToString.induct with
  | case1 n one =>
    rw [uintToString, if_pos one]
    have low : n < 10 := by omega
    interval_cases n <;> decide
  | case2 n more ih =>
    rw [uintToString, if_neg more, List.head?_append_of_ne_nil _ (uintToString_ne_nil _)]
    apply ih
    omega

theorem uintToString_zero : uintToString 0 = [0x30] := by
  rw [uintToString]
  rfl

theorem uintToString_leading {n : Nat} (zero : (uintToString n).head? = some 0x30) : uintToString n = [0x30] := by
  rcases Nat.eq_zero_or_pos n with rfl | positive
  · exact uintToString_zero
  · exact absurd zero (uintToString_head positive)

theorem digits_uintToString (n : Nat) : Digits (uintToString n) := ⟨uintToString_ne_nil n, uintToString_isDigit n⟩

theorem numberText_uint (n : Nat) : NumberText (uintToString n) :=
  ⟨[], uintToString n, [], [], by simp, .inl rfl, digits_uintToString n, uintToString_leading, .inl rfl, .inl rfl⟩

theorem numberText_negative (n : Nat) : NumberText (0x2D :: uintToString n) :=
  ⟨ascii "-", uintToString n, [], [], by simp [ascii], .inr rfl, digits_uintToString n, uintToString_leading, .inl rfl, .inl rfl⟩

/-- An integer is written as a sign and digits. -/
theorem valueToString_eq (n : Int) :
    valueToString n = if n < 0 then 0x2D :: uintToString n.natAbs else uintToString n.natAbs := by
  unfold valueToString minLargestInt
  by_cases least : n = -(2 ^ 63)
  · rw [if_pos least, least]
    rfl
  · rw [if_neg least]
    split
    · congr 2
      omega
    · congr 1
      omega

theorem numberText_valueToString (n : Int) : NumberText (valueToString n) := by
  rw [valueToString_eq]
  split
  · exact numberText_negative _
  · exact numberText_uint _

/-! ## Quoted strings -/

/-- The bytes for which there is a letter, with it. -/
def escapeLetters : List (UInt8 × UInt8) :=
  [(quote, quote), (backslash, backslash), (0x08, 0x62), (0x0C, 0x66), (0x0A, 0x6E), (0x0D, 0x72), (0x09, 0x74)]

theorem forall_escapeLetters {P : UInt8 × UInt8 → Prop} :
    (∀ p ∈ escapeLetters, P p) ↔
      P (quote, quote) ∧ P (backslash, backslash) ∧ P (0x08, 0x62) ∧ P (0x0C, 0x66) ∧ P (0x0A, 0x6E) ∧ P (0x0D, 0x72) ∧
        P (0x09, 0x74) := by
  simp [escapeLetters]

/-- What stands for a byte: a letter, its code, or the byte itself. -/
theorem escapeByte_cases (c : UInt8) :
    (∃ letter, (c, letter) ∈ escapeLetters ∧ escapeByte c = [backslash, letter]) ∨
    (c.toNat < 0x20 ∧
      escapeByte c = [backslash, 0x75, 0x30, 0x30, hexByte (c.toNat / 16), hexByte (c.toNat % 16)]) ∨
    (needsEscape c = false ∧ escapeByte c = [c]) := by
  by_cases letter : c ∈ escapeLetters.map Prod.fst
  · left
    obtain ⟨p, pair, rfl⟩ := List.mem_map.mp letter
    have each : ∀ p ∈ escapeLetters, escapeByte p.1 = [backslash, p.2] := forall_escapeLetters.mpr (by decide)
    exact ⟨p.2, pair, each p pair⟩
  · right
    have others : c ∉ [quote, backslash, 0x08, 0x0C, 0x0A, 0x0D, 0x09] := letter
    have branches : escapeByte c =
        if isControlCharacter c || c = 0 then
          [backslash, 0x75, 0x30, 0x30, hexByte (c.toNat / 16), hexByte (c.toNat % 16)]
        else [c] := by
      simp only [List.mem_cons, List.not_mem_nil, or_false, not_or] at others
      simp only [escapeByte, others, if_false]
    by_cases control : (isControlCharacter c || c = 0) = true
    · left
      rw [branches, if_pos control]
      refine ⟨?_, rfl⟩
      simp only [isControlCharacter, Bool.or_eq_true, Bool.and_eq_true, decide_eq_true_eq, UInt8.le_iff_toNat_le] at control
      rcases control with ⟨_, low⟩ | rfl
      · exact Nat.lt_succ_of_le low
      · decide
    · right
      rw [branches, if_neg control]
      refine ⟨?_, rfl⟩
      rw [needsEscape, Bool.or_assoc, Bool.or_eq_false_iff]
      exact ⟨decide_eq_false others, Bool.eq_false_of_not_eq_true control⟩

theorem escapeByte_plain {c : UInt8} (plain : needsEscape c = false) : escapeByte c = [c] := by
  rcases escapeByte_cases c with ⟨letter, listed, _⟩ | ⟨low, _⟩ | ⟨_, same⟩
  · have each : ∀ p ∈ escapeLetters, needsEscape p.1 = true := forall_escapeLetters.mpr (by decide)
    rw [each _ listed] at plain
    exact absurd plain (by decide)
  · have each : ∀ n < 0x20, needsEscape (UInt8.ofNat n) = true := by decide
    have escaped := each _ low
    rw [UInt8.ofNat_toNat, plain] at escaped
    exact absurd escaped (by decide)
  · exact same

/-- The short way makes no difference. -/
theorem valueToQuotedStringN_eq (s : Str) : valueToQuotedStringN s = quote :: s.flatMap escapeByte ++ [quote] := by
  unfold valueToQuotedStringN
  split
  · rfl
  · next plain =>
    have same : s.flatMap escapeByte = s := by
      have each : ∀ c ∈ s, escapeByte c = [c] := by
        intro c member
        apply escapeByte_plain
        exact Bool.eq_false_of_not_eq_true fun escaped => plain (List.any_eq_true.mpr ⟨c, member, escaped⟩)
      rw [List.flatMap_congr each, List.flatMap_singleton']
    rw [same]

theorem isHexDigit_hexByte {d : Nat} (low : d < 16) : isHexDigit (hexByte d) = true := by
  interval_cases d <;> decide

/-- The bytes of strings that stand for themselves are `char`s. -/
def Plainly (char : UInt8 → Prop) (s : Str) : Prop := ∀ b ∈ s, needsEscape b = false → char b

theorem escapeByte_jsonText {char : UInt8 → Prop} {c : UInt8} {w : Str} (plain : needsEscape c = false → char c)
    (chars : JsonText char .chars w) : JsonText char .chars (escapeByte c ++ w) := by
  rcases escapeByte_cases c with ⟨letter, listed, same⟩ | ⟨low, same⟩ | ⟨stands, same⟩
  · have each : ∀ p ∈ escapeLetters, p.2 ∈ escapes := forall_escapeLetters.mpr (by decide)
    rw [same]
    exact .escaped (each _ listed) chars
  · rw [same]
    have hex : ∀ b ∈ [0x30, 0x30, hexByte (c.toNat / 16), hexByte (c.toNat % 16)], isHexDigit b = true := by
      simp only [List.mem_cons, List.not_mem_nil, or_false, forall_eq_or_imp, forall_eq]
      refine ⟨by decide, by decide, ?_, ?_⟩
      · apply isHexDigit_hexByte
        omega
      · apply isHexDigit_hexByte
        omega
    exact .unicode rfl hex chars
  · rw [same]
    exact .char (plain stands) chars

theorem quoted_jsonText {char : UInt8 → Prop} {s : Str} (plain : Plainly char s) :
    JsonText char .string (valueToQuotedStringN s) := by
  rw [valueToQuotedStringN_eq]
  apply JsonText.string
  induction s with
  | nil => exact .noChars
  | cons c s ih =>
    rw [List.flatMap_cons]
    apply escapeByte_jsonText (plain c List.mem_cons_self)
    exact ih fun b member => plain b (List.mem_cons_of_mem _ member)

/-! ## What is written -/

section
variable {R : Type} {doubles : Doubles R}

/-- The bytes that stand for themselves in the strings of a value are `char`s. -/
inductive Value.Over (char : UInt8 → Prop) : Value R → Prop where
  | null : Over char .null
  | int (n : Int) : Over char (.int n)
  | uint (n : Nat) : Over char (.uint n)
  | real (r : R) : Over char (.real r)
  | string {s : Str} (plain : Plainly char s) : Over char (.string s)
  | bool (b : Bool) : Over char (.bool b)
  | array {elements : List (Value R)} (each : ∀ v ∈ elements, Over char v) : Over char (.array elements)
  | object {members : List (Str × Value R)} (names : ∀ m ∈ members, Plainly char m.1) (each : ∀ m ∈ members, Over char m.2) :
      Over char (.object members)

theorem writeElements_false {vs : List (Value R)} (some : vs ≠ []) :
    writeElements doubles false vs = comma :: writeElements doubles true vs := by
  cases vs with
  | nil => exact absurd rfl some
  | cons v vs => simp [writeElements]

theorem writeMembers_false {ms : List (Str × Value R)} (some : ms ≠ []) :
    writeMembers doubles false ms = comma :: writeMembers doubles true ms := by
  cases ms with
  | nil => exact absurd rfl some
  | cons m ms => simp [writeMembers]

theorem writeElements_jsonText {char : UInt8 → Prop} {vs : List (Value R)} (some : vs ≠ [])
    (each : ∀ v ∈ vs, JsonText char .value (v.write doubles)) : JsonText char .elements (writeElements doubles true vs) := by
  have space : Space [] := List.forall_mem_nil _
  induction vs with
  | nil => exact absurd rfl some
  | cons v vs ih =>
    obtain ⟨first, later⟩ := List.forall_mem_cons.mp each
    have element : JsonText char .element (v.write doubles) := by
      have here := JsonText.element space space first
      rwa [List.nil_append, List.append_nil] at here
    rcases eq_or_ne vs [] with rfl | more
    · have last := JsonText.lastElement element
      simpa [writeElements] using last
    · have both := JsonText.moreElements element (ih more later)
      rw [← writeElements_false more] at both
      simpa [writeElements] using both

theorem writeMembers_jsonText {char : UInt8 → Prop} {ms : List (Str × Value R)} (some : ms ≠ [])
    (names : ∀ m ∈ ms, Plainly char m.1) (each : ∀ m ∈ ms, JsonText char .value (m.2.write doubles)) :
    JsonText char .members (writeMembers doubles true ms) := by
  have space : Space [] := List.forall_mem_nil _
  induction ms with
  | nil => exact absurd rfl some
  | cons m ms ih =>
    obtain ⟨first, later⟩ := List.forall_mem_cons.mp each
    obtain ⟨name, laterNames⟩ := List.forall_mem_cons.mp names
    have member := JsonText.member space space space space (quoted_jsonText name) first
    rcases eq_or_ne ms [] with rfl | more
    · have last := JsonText.lastMember member
      simpa [writeMembers] using last
    · have both := JsonText.moreMembers member (ih more laterNames later)
      rw [← writeMembers_false more] at both
      simpa [writeMembers] using both

/-- What is written is a JSON text. -/
theorem write_jsonText {char : UInt8 → Prop} {v : Value R} (proper : v.Proper doubles) (within : v.Over char) :
    JsonText char .value (v.write doubles) := by
  induction proper with
  | null =>
    apply JsonText.literal
    simp [Value.write]
  | int low high => exact .number (numberText_valueToString _)
  | uint high => exact .number (numberText_uint _)
  | real number exact => exact .number number
  | string s =>
    cases within with
    | string plain => exact .stringValue (quoted_jsonText plain)
  | bool b =>
    apply JsonText.literal
    cases b <;> simp [Value.write]
  | @array elements each ih =>
    cases within with
    | array inner =>
      apply JsonText.arrayValue
      rw [Value.write]
      rcases eq_or_ne elements [] with rfl | some
      · exact .emptyArray (List.forall_mem_nil _)
      · exact .array (writeElements_jsonText some fun v member => ih v member (inner v member))
  | @object members sorted each ih =>
    cases within with
    | object names inner =>
      apply JsonText.objectValue
      rw [Value.write]
      rcases eq_or_ne members [] with rfl | some
      · exact .emptyObject (List.forall_mem_nil _)
      · exact .object (writeMembers_jsonText some names fun m member => ih m member (inner m member))

theorem plainly_stringByte (s : Str) : Plainly stringByte s := by
  intro b _ plain
  have each : ∀ n < 256, needsEscape (UInt8.ofNat n) = false → 0x20 ≤ UInt8.ofNat n ∧ UInt8.ofNat n ≠ quote ∧
      UInt8.ofNat n ≠ backslash := by decide +kernel
  have here := each b.toNat b.toNat_lt
  rw [UInt8.ofNat_toNat] at here
  exact here plain

theorem over_stringByte {v : Value R} (proper : v.Proper doubles) : v.Over stringByte := by
  induction proper with
  | null => exact .null
  | int low high => exact .int _
  | uint high => exact .uint _
  | real number exact => exact .real _
  | string s => exact .string (plainly_stringByte s)
  | bool b => exact .bool b
  | array each ih => exact .array ih
  | object sorted each ih => exact .object (fun m _ => plainly_stringByte m.1) ih

/-! ## One line -/

/-- No byte is below the space. -/
def Graphic (w : Str) : Prop := ∀ b ∈ w, 0x20 ≤ b

theorem graphic_nil : Graphic [] := List.forall_mem_nil _

theorem graphic_of_all {w : Str} (all : w.all (0x20 ≤ ·) = true) : Graphic w := by
  intro b member
  exact of_decide_eq_true (List.all_eq_true.mp all b member)

theorem graphic_cons {b : UInt8} {w : Str} (first : 0x20 ≤ b) (graphic : Graphic w) : Graphic (b :: w) :=
  List.forall_mem_cons.mpr ⟨first, graphic⟩

theorem graphic_append {v w : Str} (first : Graphic v) (second : Graphic w) : Graphic (v ++ w) :=
  List.forall_mem_append.mpr ⟨first, second⟩

theorem Digits.graphic {w : Str} (digits : Digits w) : Graphic w := by
  intro b member
  have digit := digits.2 b member
  simp only [isDigit, Bool.and_eq_true, decide_eq_true_eq] at digit
  exact UInt8.le_trans (show 0x20 ≤ 0x30 by decide) digit.1

theorem NumberText.graphic {w : Str} (number : NumberText w) : Graphic w := by
  obtain ⟨sign, int, frac, exp, rfl, signed, digits, _, fraction, exponent⟩ := number
  apply graphic_append (graphic_append (graphic_append _ digits.graphic) _)
  · rcases exponent with rfl | ⟨e, s, ds, letter, signed, more, rfl⟩
    · exact graphic_nil
    · apply graphic_cons
      · rcases letter with rfl | rfl <;> decide
      · apply graphic_append _ more.graphic
        rcases signed with rfl | rfl | rfl <;> exact graphic_of_all (by decide)
  · rcases signed with rfl | rfl <;> exact graphic_of_all (by decide)
  · rcases fraction with rfl | ⟨ds, more, rfl⟩
    · exact graphic_nil
    · exact graphic_cons (by decide) more.graphic

theorem hexByte_graphic {d : Nat} (low : d < 16) : 0x20 ≤ hexByte d := by
  interval_cases d <;> decide

theorem quoted_graphic (s : Str) : Graphic (valueToQuotedStringN s) := by
  rw [valueToQuotedStringN_eq]
  apply graphic_append (graphic_cons (by decide) _) (graphic_cons (by decide) graphic_nil)
  intro b member
  obtain ⟨c, there, inside⟩ := List.mem_flatMap.mp member
  rcases escapeByte_cases c with ⟨letter, listed, same⟩ | ⟨low, same⟩ | ⟨stands, same⟩
  · have each : ∀ p ∈ escapeLetters, 0x20 ≤ p.2 := forall_escapeLetters.mpr (by decide)
    rw [same] at inside
    exact graphic_cons (by decide) (graphic_cons (each _ listed) graphic_nil) b inside
  · rw [same] at inside
    have hex : Graphic [hexByte (c.toNat / 16), hexByte (c.toNat % 16)] := by
      apply graphic_cons (hexByte_graphic (by omega))
      exact graphic_cons (hexByte_graphic (by omega)) graphic_nil
    have front : Graphic [backslash, 0x75, 0x30, 0x30] := graphic_of_all (by decide)
    exact graphic_append front hex b inside
  · rw [same, List.mem_singleton] at inside
    rw [inside]
    exact (plainly_stringByte s c there stands).1

theorem writeElements_graphic {vs : List (Value R)} (each : ∀ v ∈ vs, Graphic (v.write doubles)) (first : Bool) :
    Graphic (writeElements doubles first vs) := by
  induction vs generalizing first with
  | nil => exact graphic_nil
  | cons v vs ih =>
    obtain ⟨here, later⟩ := List.forall_mem_cons.mp each
    rw [writeElements]
    apply graphic_append (graphic_append _ here) (ih later false)
    split
    · exact graphic_nil
    · exact graphic_cons (by decide) graphic_nil

theorem writeMembers_graphic {ms : List (Str × Value R)} (each : ∀ m ∈ ms, Graphic (m.2.write doubles)) (first : Bool) :
    Graphic (writeMembers doubles first ms) := by
  induction ms generalizing first with
  | nil => exact graphic_nil
  | cons m ms ih =>
    obtain ⟨here, later⟩ := List.forall_mem_cons.mp each
    rw [writeMembers]
    apply graphic_append (graphic_append (graphic_append _ (quoted_graphic m.1)) (graphic_cons (by decide) here)) (ih later false)
    split
    · exact graphic_nil
    · exact graphic_cons (by decide) graphic_nil

theorem write_graphic {v : Value R} (proper : v.Proper doubles) : Graphic (v.write doubles) := by
  induction proper with
  | null => exact graphic_of_all (show (ascii "null").all (0x20 ≤ ·) = true by decide)
  | int low high => exact (numberText_valueToString _).graphic
  | uint high => exact (numberText_uint _).graphic
  | real number exact => exact number.graphic
  | string s => exact quoted_graphic s
  | bool b =>
    apply graphic_of_all
    show (ascii (if b then "true" else "false")).all (0x20 ≤ ·) = true
    cases b <;> decide
  | array each ih =>
    rw [Value.write]
    exact graphic_append (graphic_cons (by decide) (writeElements_graphic ih true)) (graphic_cons (by decide) graphic_nil)
  | object sorted each ih =>
    rw [Value.write]
    exact graphic_append (graphic_cons (by decide) (writeMembers_graphic ih true)) (graphic_cons (by decide) graphic_nil)

end

end VideoDetector.Json
