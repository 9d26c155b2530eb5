import VideoDetector.Json.Stream

/-!
# Objects in the stream (`JsonStr` in `Pvd/tool.h` and `JsonTcpServer/app.h`)

`JsonText` is the grammar of JSON on bytes. A buffer holds object texts, each perhaps with a newline behind it, and the
beginning of a further one. `extracts_iff` says for which of these buffers `get_valid_buf` takes the first object.
-/

namespace VideoDetector.Json
set_option autoImplicit false
open Lib

/-! ## JSON texts -/

def quote : UInt8 := 0x22
def backslash : UInt8 := 0x5C
def comma : UInt8 := 0x2C
def colon : UInt8 := 0x3A
def openBracket : UInt8 := 0x5B
def closeBracket : UInt8 := 0x5D

def isSpace (b : UInt8) : Bool := b = 0x20 || b = 0x09 || b = 0x0A || b = 0x0D

def isDigit (b : UInt8) : Bool := 0x30 ≤ b && b ≤ 0x39

def isHexDigit (b : UInt8) : Bool := isDigit b || (0x41 ≤ b && b ≤ 0x46) || (0x61 ≤ b && b ≤ 0x66)

def Space (w : Str) : Prop := ∀ b ∈ w, isSpace b = true

def Digits (w : Str) : Prop := w ≠ [] ∧ ∀ b ∈ w, isDigit b = true

/-- The integer part of a number, the fraction and the exponent. -/
structure NumberText (w : Str) : Prop where
  parts : ∃ sign int frac exp, w = sign ++ int ++ frac ++ exp ∧
    (sign = [] ∨ sign = ascii "-") ∧
    Digits int ∧ (int.head? = some 0x30 → int = [0x30]) ∧
    (frac = [] ∨ ∃ ds, Digits ds ∧ frac = 0x2E :: ds) ∧
    (exp = [] ∨ ∃ e s ds, (e = 0x65 ∨ e = 0x45) ∧ (s = [] ∨ s = ascii "+" ∨ s = ascii "-") ∧ Digits ds ∧
      exp = e :: s ++ ds)

/-- A byte that may stand for itself in a string. -/
def stringByte (b : UInt8) : Prop := 0x20 ≤ b ∧ b ≠ quote ∧ b ≠ backslash

/-- The bytes that may follow a backslash. -/
def escapes : Str := ascii "\"\\/bfnrt"

/-- The nonterminals of the grammar. -/
inductive Sym where
  | value | string | chars | object | members | member | array | elements | element
  deriving DecidableEq

/-- The texts of a nonterminal; `char` are the bytes that stand for themselves in the strings. -/
inductive JsonText (char : UInt8 → Prop) : Sym → Str → Prop where
  | literal {w : Str} (named : w ∈ [ascii "null", ascii "true", ascii "false"]) : JsonText char .value w
  | number {w : Str} (number : NumberText w) : JsonText char .value w
  | stringValue {w : Str} (string : JsonText char .string w) : JsonText char .value w
  | objectValue {w : Str} (object : JsonText char .object w) : JsonText char .value w
  | arrayValue {w : Str} (array : JsonText char .array w) : JsonText char .value w
  | string {w : Str} (chars : JsonText char .chars w) : JsonText char .string (quote :: w ++ [quote])
  | noChars : JsonText char .chars []
  | char {b : UInt8} {w : Str} (plain : char b) (chars : JsonText char .chars w) : JsonText char .chars (b :: w)
  | escaped {b : UInt8} {w : Str} (escape : b ∈ escapes) (chars : JsonText char .chars w) :
      JsonText char .chars (backslash :: b :: w)
  | unicode {code w : Str} (four : code.length = 4) (hex : ∀ b ∈ code, isHexDigit b = true)
      (chars : JsonText char .chars w) : JsonText char .chars (backslash :: 0x75 :: code ++ w)
  | emptyObject {s : Str} (space : Space s) : JsonText char .object (openBrace :: s ++ [closeBrace])
  | object {w : Str} (members : JsonText char .members w) : JsonText char .object (openBrace :: w ++ [closeBrace])
  | lastMember {w : Str} (member : JsonText char .member w) : JsonText char .members w
  | moreMembers {v w : Str} (member : JsonText char .member v) (members : JsonText char .members w) :
      JsonText char .members (v ++ comma :: w)
  | member {s t u r k v : Str} (before : Space s) (behind : Space t) (between : Space u) (after : Space r)
      (key : JsonText char .string k) (value : JsonText char .value v) :
      JsonText char .member (s ++ k ++ t ++ colon :: u ++ v ++ r)
  | emptyArray {s : Str} (space : Space s) : JsonText char .array (openBracket :: s ++ [closeBracket])
  | array {w : Str} (elements : JsonText char .elements w) : JsonText char .array (openBracket :: w ++ [closeBracket])
  | lastElement {w : Str} (element : JsonText char .element w) : JsonText char .elements w
  | moreElements {v w : Str} (element : JsonText char .element v) (elements : JsonText char .elements w) :
      JsonText char .elements (v ++ comma :: w)
  | element {s t v : Str} (before : Space s) (after : Space t) (value : JsonText char .value v) :
      JsonText char .element (s ++ v ++ t)

/-- The text of a JSON object. -/
def ObjectText (w : Str) : Prop := JsonText stringByte .object w

theorem JsonText.object_braces {char : UInt8 → Prop} {w : Str} (object : JsonText char .object w) :
    ∃ inner, w = openBrace :: inner ++ [closeBrace] := by
  cases object with
  | emptyObject space => exact ⟨_, rfl⟩
  | object members => exact ⟨_, rfl⟩

/-! ## Buffers -/

/-- An object in the buffer, perhaps with a newline. -/
structure Item where
  text : Str
  object : ObjectText text
  newline : Bool

def Item.bytes (it : Item) : Str := it.text ++ if it.newline then [Json.newline] else []

/-- The beginning of an object that is not complete yet. -/
structure Rest where
  text : Str
  incomplete : ∃ more, more ≠ [] ∧ ObjectText (text ++ more)

/-- What is in the buffer: objects, and the beginning of the next one. -/
structure Buffer where
  items : List Item
  rest : Rest

def Buffer.bytes (b : Buffer) : Str := b.items.flatMap Item.bytes ++ b.rest.text

/-- What `get_valid_buf` is to do: take the first object and leave the remainder, or leave everything. -/
def ExtractsRight (b : Buffer) : Prop :=
  match b.items with
  | first :: later => getValidBuf b.bytes = (true, later.flatMap Item.bytes ++ b.rest.text, first.bytes)
  | [] => (getValidBuf b.bytes).1 = false ∧ (getValidBuf b.bytes).2.1 = b.bytes

theorem Item.bytes_ne_nil (it : Item) : it.bytes ≠ [] := by
  obtain ⟨inner, braces⟩ := it.object.object_braces
  rw [Item.bytes, braces]
  simp

/-! ## Braces -/

/-- Some beginning of the text has an opening brace and as many closing ones. -/
def Closes (text : Str) : Prop :=
  ∃ n ≤ text.length, 0 < (text.take n).count openBrace ∧ (text.take n).count openBrace = (text.take n).count closeBrace

/-- The scan stops behind a text. -/
def StopsBehind (stack : Int) (flg : Bool) (w : Str) : Prop :=
  stack + w.count openBrace - w.count closeBrace = 0 ∧ (flg = true ∨ 0 < w.count openBrace)

theorem stopsBehind_nil (stack : Int) (flg : Bool) : StopsBehind stack flg [] ↔ stack = 0 ∧ flg = true := by
  simp [StopsBehind]

theorem stopsBehind_cons (stack : Int) (flg : Bool) (b : UInt8) (w : Str) :
    StopsBehind stack flg (b :: w) ↔ StopsBehind (nextStack b stack) (nextFlg b flg) w := by
  unfold StopsBehind nextStack nextFlg
  by_cases isOpen : b = openBrace
  · have notClose : b ≠ closeBrace := by
      rw [isOpen]
      decide
    rw [if_pos isOpen, if_pos isOpen, if_neg notClose, isOpen, List.count_cons_self,
      List.count_cons_of_ne (by decide)]
    push_cast
    simp
    omega
  · by_cases isClose : b = closeBrace
    · rw [if_neg isOpen, if_neg isOpen, if_pos isClose, isClose, List.count_cons_self, List.count_cons_of_ne (by decide)]
      push_cast
      have regroup (x y : Int) : stack + x - (y + 1) = stack - 1 + x - y := by omega
      rw [regroup]
    · rw [if_neg isOpen, if_neg isOpen, if_neg isClose, List.count_cons_of_ne isOpen, List.count_cons_of_ne isClose]

/-- Where the scan stops. -/
theorem scanObj_lt_iff (text : Str) (stack : Int) (flg : Bool) :
    scanObj text stack flg < text.length ↔ ∃ n < text.length, StopsBehind stack flg (text.take (n + 1)) := by
  induction text generalizing stack flg with
  | nil => simp
  | cons b rest ih =>
    simp only [scanObj_cons, List.take_succ_cons, stopsBehind_cons, List.length_cons]
    by_cases stops : nextStack b stack = 0 ∧ nextFlg b flg = true
    · rw [if_pos stops]
      refine iff_of_true (Nat.succ_pos _) ⟨0, Nat.succ_pos _, ?_⟩
      rw [List.take_zero, stopsBehind_nil]
      exact stops
    · rw [if_neg stops, Nat.add_lt_add_iff_right, ih]
      constructor
      · rintro ⟨n, inside, here⟩
        exact ⟨n + 1, Nat.succ_lt_succ inside, here⟩
      · rintro ⟨n, inside, here⟩
        cases n with
        | zero =>
          rw [List.take_zero, stopsBehind_nil] at here
          exact absurd here stops
        | succ n => exact ⟨n, Nat.lt_of_succ_lt_succ inside, here⟩

/-- An object is found if the braces of some beginning of the text match. -/
theorem complete_iff_closes (text : Str) : Complete text ↔ Closes text := by
  unfold Complete Closes
  rw [scanObj_lt_iff]
  unfold StopsBehind
  constructor
  · rintro ⟨n, inside, level, begun⟩
    refine ⟨n + 1, inside, by simpa using begun, by omega⟩
  · rintro ⟨n, inside, begun, level⟩
    cases n with
    | zero => simp at begun
    | succ n => exact ⟨n, inside, by omega, .inr begun⟩

/-! ## What is taken -/

theorem items_eq_nil {items : List Item} (none : items.flatMap Item.bytes = []) : items = [] := by
  cases items with
  | nil => rfl
  | cons first later =>
    rw [List.flatMap_cons, List.append_eq_nil_iff] at none
    exact absurd none.1 first.bytes_ne_nil

/-- A text in which an object is found is taken as a whole. -/
theorem taken_iff {first : Item} {later : List Item} {rest : Rest} (complete : Complete (Buffer.bytes ⟨first :: later, rest⟩)) :
    getValidBuf (Buffer.bytes ⟨first :: later, rest⟩) = (true, later.flatMap Item.bytes ++ rest.text, first.bytes) ↔
      later = [] ∧ rest.text = [] := by
  rw [getValidBuf_complete complete]
  constructor
  · intro same
    have left := (Prod.mk.inj (Prod.mk.inj same).2).1.symm
    rw [List.append_eq_nil_iff] at left
    exact ⟨items_eq_nil left.1, left.2⟩
  · rintro ⟨rfl, none⟩
    simp [Buffer.bytes, none]

theorem extracts_iff_complete (b : Buffer) :
    ExtractsRight b ↔
      b.items = [] ∧ ¬ Complete b.bytes ∨ (∃ it, b.items = [it]) ∧ b.rest.text = [] ∧ Complete b.bytes := by
  obtain ⟨items, rest⟩ := b
  unfold ExtractsRight
  by_cases complete : Complete (Buffer.bytes ⟨items, rest⟩)
  · cases items with
    | nil => simp [getValidBuf_complete complete, complete]
    | cons first later =>
      refine (taken_iff complete).trans ?_
      simp [complete]
  · rw [getValidBuf_incomplete complete]
    cases items with
    | nil => simp [complete]
    | cons first later => simp [complete]

/-- **When the first object is taken.** `get_valid_buf` does what it is to do exactly if the buffer holds no object and
its braces never match, or it holds a single object and nothing more and its braces match somewhere. -/
theorem extracts_iff (b : Buffer) :
    ExtractsRight b ↔
      b.items = [] ∧ ¬ Closes b.bytes ∨ (∃ it, b.items = [it]) ∧ b.rest.text = [] ∧ Closes b.bytes := by
  rw [← complete_iff_closes]
  exact extracts_iff_complete b

/-- The empty object. -/
def emptyItem : Item where
  text := ascii "\x7b\x7d"
  object := .emptyObject (List.forall_mem_nil _)
  newline := false

/-- Nothing of a further object. -/
def noRest : Rest where
  text := []
  incomplete := ⟨emptyItem.text, List.cons_ne_nil _ _, emptyItem.object⟩

theorem braceString : ObjectText (ascii "\x7b\"\":\"\x7b\"\x7d") := by
  have key : JsonText stringByte .string (ascii "\"\"") := .string .noChars
  have value : JsonText stringByte .string (ascii "\"\x7b\"") := .string (.char (by unfold stringByte; decide) .noChars)
  have space : Space [] := List.forall_mem_nil _
  exact .object (.lastMember (.member space space space space key (.stringValue value)))

/-- An object with a brace in a string. -/
def braceItem : Item where
  text := ascii "\x7b\"\":\"\x7b\"\x7d"
  object := braceString
  newline := false

/-- Two objects are taken as one, and an object with a brace in a string is not taken. -/
theorem extracts_wrong :
    ¬ ExtractsRight ⟨[emptyItem, emptyItem], noRest⟩ ∧ ¬ ExtractsRight ⟨[braceItem], noRest⟩ := by
  unfold ExtractsRight
  decide

/-! ## Strings without braces -/

/-- A byte of a string that is no brace. -/
def plainByte (b : UInt8) : Prop := stringByte b ∧ b ≠ openBrace ∧ b ≠ closeBrace

/-- The scan passes over a text inside an object. -/
def Passes (w : Str) : Prop :=
  ∀ rest stack, 0 < stack → scanObj (w ++ rest) stack true = w.length + scanObj rest stack true

theorem passes_append {v w : Str} (first : Passes v) (second : Passes w) : Passes (v ++ w) := by
  intro rest stack inside
  rw [List.append_assoc, first _ stack inside, second rest stack inside, List.length_append]
  omega

theorem passes_cons {b : UInt8} {w : Str} (noBrace : b ≠ openBrace ∧ b ≠ closeBrace) (passes : Passes w) :
    Passes (b :: w) := by
  intro rest stack inside
  have same : nextStack b stack = stack := by simp [nextStack, noBrace]
  have pending : ¬ (nextStack b stack = 0 ∧ nextFlg b true = true) := by
    rw [same]
    omega
  rw [List.cons_append, scanObj_cons, if_neg pending, same, show nextFlg b true = true by simp [nextFlg],
    passes rest stack inside, List.length_cons]
  omega

theorem passes_nil : Passes [] := fun _ _ _ => (Nat.zero_add _).symm

theorem passes_plain {w : Str} (noBrace : ∀ b ∈ w, b ≠ openBrace ∧ b ≠ closeBrace) : Passes w := by
  induction w with
  | nil => exact passes_nil
  | cons b w ih =>
    exact passes_cons (noBrace b List.mem_cons_self) (ih fun c there => noBrace c (List.mem_cons_of_mem _ there))

/-- No byte is a brace. -/
def braceless (w : Str) : Bool := w.all fun b => b != openBrace && b != closeBrace

theorem noBrace_of_braceless {w : Str} (plain : braceless w = true) : ∀ b ∈ w, b ≠ openBrace ∧ b ≠ closeBrace := by
  intro b there
  have each := List.all_eq_true.mp plain b there
  rwa [Bool.and_eq_true, bne_iff_ne, bne_iff_ne] at each

theorem passes_braceless {w : Str} (plain : braceless w = true) : Passes w := passes_plain (noBrace_of_braceless plain)

/-- From inside an object the scan runs to its closing brace. -/
theorem scan_close {w : Str} (passes : Passes w) (rest : Str) {stack : Int} (outside : 0 ≤ stack) :
    scanObj (w ++ closeBrace :: rest) (stack + 1) true = w.length + if stack = 0 then 0 else scanObj rest stack true + 1 := by
  have closed : nextStack closeBrace (stack + 1) = stack := by
    simp [nextStack, openBrace, closeBrace]
  rw [passes _ _ (by omega), scanObj_cons, closed]
  simp [nextFlg]

theorem scan_open (w : Str) {stack : Int} (outside : 0 ≤ stack) (flg : Bool) :
    scanObj (openBrace :: w) stack flg = scanObj w (stack + 1) true + 1 := by
  have opened : nextStack openBrace stack = stack + 1 := by
    simp [nextStack, openBrace, closeBrace]
  rw [scanObj_cons, opened, if_neg (by omega)]
  rfl

theorem passes_braces {w : Str} (passes : Passes w) : Passes (openBrace :: w ++ [closeBrace]) := by
  intro rest stack inside
  rw [List.cons_append, List.cons_append, List.append_assoc, List.singleton_append, scan_open _ (by omega),
    scan_close passes rest (by omega), if_neg (by omega)]
  simp
  omega

theorem noBrace_of_isSpace {b : UInt8} (space : isSpace b = true) : b ≠ openBrace ∧ b ≠ closeBrace := by
  constructor <;> rintro rfl <;> exact absurd space (by decide)

theorem noBrace_of_isHexDigit {b : UInt8} (hex : isHexDigit b = true) : b ≠ openBrace ∧ b ≠ closeBrace := by
  constructor <;> rintro rfl <;> exact absurd hex (by decide)

theorem noBrace_of_isDigit {b : UInt8} (digit : isDigit b = true) : b ≠ openBrace ∧ b ≠ closeBrace := by
  constructor <;> rintro rfl <;> exact absurd digit (by decide)

theorem Space.passes {w : Str} (space : Space w) : Passes w := passes_plain fun b there => noBrace_of_isSpace (space b there)

theorem Digits.passes {w : Str} (digits : Digits w) : Passes w :=
  passes_plain fun b there => noBrace_of_isDigit (digits.2 b there)

theorem NumberText.passes {w : Str} (number : NumberText w) : Passes w := by
  obtain ⟨sign, int, frac, exp, rfl, signed, digits, _, fraction, exponent⟩ := number
  refine passes_append (passes_append (passes_append ?_ digits.passes) ?_) ?_
  · rcases signed with rfl | rfl <;> exact passes_braceless (by decide)
  · rcases fraction with rfl | ⟨ds, more, rfl⟩
    · exact passes_nil
    · exact passes_cons (by decide) more.passes
  · rcases exponent with rfl | ⟨e, s, ds, letter, signed, more, rfl⟩
    · exact passes_nil
    · refine passes_cons ?_ (passes_append ?_ more.passes)
      · rcases letter with rfl | rfl <;> decide
      · rcases signed with rfl | rfl | rfl <;> exact passes_braceless (by decide)

/-- **A text whose strings have no braces** is passed over as a whole. -/
theorem JsonText.passes {sym : Sym} {w : Str} (text : JsonText plainByte sym w) : Passes w := by
  induction text with
  | literal named =>
    simp only [List.mem_cons, List.not_mem_nil, or_false] at named
    rcases named with rfl | rfl | rfl <;> exact passes_braceless (by decide)
  | number number => exact number.passes
  | stringValue _ ih | objectValue _ ih | arrayValue _ ih | lastMember _ ih | lastElement _ ih => exact ih
  | string _ ih => exact passes_append (passes_cons (by decide) ih) (passes_braceless (by decide))
  | noChars => exact passes_nil
  | char plain _ ih => exact passes_cons plain.2 ih
  | escaped escape _ ih =>
    have plain : braceless escapes = true := by decide
    exact passes_cons (by decide) (passes_cons (noBrace_of_braceless plain _ escape) ih)
  | unicode _ hex _ ih =>
    exact passes_cons (by decide) (passes_cons (by decide)
      (passes_append (passes_plain fun b there => noBrace_of_isHexDigit (hex b there)) ih))
  | emptyObject space => exact passes_braces space.passes
  | object _ ih => exact passes_braces ih
  | moreMembers _ _ first second | moreElements _ _ first second => exact passes_append first (passes_cons (by decide) second)
  | member before behind between after _ _ key value =>
    exact passes_append (passes_append (passes_append (passes_append (passes_append before.passes key) behind.passes)
      (passes_cons (by decide) between.passes)) value) after.passes
  | emptyArray space => exact passes_append (passes_cons (by decide) space.passes) (passes_braceless (by decide))
  | array _ ih => exact passes_append (passes_cons (by decide) ih) (passes_braceless (by decide))
  | element before after _ ih => exact passes_append (passes_append before.passes ih) after.passes

/-- The scan of an object whose strings have no braces stops at its end. -/
theorem scanObj_plain {w : Str} (object : JsonText plainByte .object w) : scanObj w 0 false + 1 = w.length := by
  have braces {inner : Str} (passes : Passes inner) :
      scanObj (openBrace :: inner ++ [closeBrace]) 0 false + 1 = (openBrace :: inner ++ [closeBrace]).length := by
    rw [List.cons_append, scan_open _ (Int.le_refl 0), scan_close passes [] (Int.le_refl 0)]
    simp
  cases object with
  | emptyObject space => exact braces space.passes
  | object members => exact braces members.passes

theorem complete_plain {w : Str} (object : JsonText plainByte .object w) (more : Str) : Complete (w ++ more) := by
  have ends := scanObj_plain object
  have found : scanObj w 0 false < w.length := by omega
  unfold Complete
  rw [scanObj_append found, List.length_append]
  omega

/-- The beginning of an object whose strings have no braces is not taken for one. -/
theorem incomplete_plain {w more : Str} (object : JsonText plainByte .object (w ++ more)) (some : more ≠ []) :
    ¬ Complete w := by
  intro complete
  have ends := scanObj_plain object
  have positive := List.length_pos_iff.mpr some
  rw [scanObj_append complete, List.length_append] at ends
  unfold Complete at complete
  omega

/-- **Without braces in strings** the first object is taken exactly if there is none or it is alone in the buffer. -/
theorem plain_extracts_iff (b : Buffer) (plain : ∀ it ∈ b.items, JsonText plainByte .object it.text)
    (plainRest : ∃ more, more ≠ [] ∧ JsonText plainByte .object (b.rest.text ++ more)) :
    ExtractsRight b ↔ b.items = [] ∨ (∃ it, b.items = [it]) ∧ b.rest.text = [] := by
  rw [extracts_iff_complete]
  obtain ⟨more, some, object⟩ := plainRest
  have pending := incomplete_plain object some
  constructor
  · rintro (⟨none, _⟩ | ⟨single, alone, _⟩)
    · exact .inl none
    · exact .inr ⟨single, alone⟩
  · rintro (none | ⟨⟨it, single⟩, alone⟩)
    · refine .inl ⟨none, ?_⟩
      rwa [Buffer.bytes, none]
    · refine .inr ⟨⟨it, single⟩, alone, ?_⟩
      have complete := complete_plain (plain it (by rw [single]; exact List.mem_singleton_self it))
      simp only [Buffer.bytes, single, alone, List.flatMap_cons, List.flatMap_nil, List.append_nil, Item.bytes]
      exact complete _

end VideoDetector.Json
