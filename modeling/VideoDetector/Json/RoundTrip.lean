import VideoDetector.Json.Reader

/-!
# What is written is read again

`parse_fastWriter` says what `Reader` makes of a text of `FastWriter`. A value comes back, but a number comes back as the type that
its digits have. `reparse` says the same of the value of any document at all: it is written and read without an error, and from
then on it stays as it is.
-/

namespace VideoDetector.Json
set_option autoImplicit false
open Lib

/-! ## Tokens of what is written -/

/-- The byte behind a number does not belong to it. -/
structure Delimited (t : Str) : Prop where
  digit : isDigit (peek t) = false
  point : peek t ≠ 0x2E
  exponent : ¬ (peek t = 0x65 ∨ peek t = 0x45)

theorem delimited_of_mem {c : UInt8} (t : Str) (delimiter : c ∈ [comma, closeBracket, closeBrace, newline]) : Delimited (c :: t) := by
  have each : isDigit c = false ∧ c ≠ 0x2E ∧ ¬ (c = 0x65 ∨ c = 0x45) := by
    simp only [List.mem_cons, List.not_mem_nil, or_false] at delimiter
    rcases delimiter with rfl | rfl | rfl | rfl <;> decide
  exact ⟨each.1, each.2.1, each.2.2⟩

theorem dropWhile_digits {ds t : Str} (digits : ∀ b ∈ ds, isDigit b = true) (behind : isDigit (peek t) = false) :
    (ds ++ t).dropWhile isDigit = t := by
  rw [List.dropWhile_append_of_pos digits]
  cases t with
  | nil => rfl
  | cons c t => exact List.dropWhile_cons_of_neg (by simpa [peek] using behind)

/-- A number is read to its end, behind its sign or first digit. -/
theorem readNumber_parts {int frac exp t : Str} (digits : ∀ b ∈ int, isDigit b = true)
    (fraction : frac = [] ∨ ∃ ds, Digits ds ∧ frac = 0x2E :: ds)
    (exponent : exp = [] ∨ ∃ e s ds, (e = 0x65 ∨ e = 0x45) ∧ (s = [] ∨ s = ascii "+" ∨ s = ascii "-") ∧ Digits ds ∧
      exp = e :: s ++ ds) (delimited : Delimited t) : readNumber (int ++ (frac ++ (exp ++ t))) = t := by
  have third : readExponent (exp ++ t) = t := by
    rcases exponent with rfl | ⟨e, s, ds, letter, signed, more, rfl⟩
    · exact if_neg delimited.exponent
    · have begins : peek (e :: s ++ ds ++ t) = 0x65 ∨ peek (e :: s ++ ds ++ t) = 0x45 := letter
      rw [readExponent, if_pos begins]
      rcases signed with rfl | rfl | rfl
      · obtain ⟨d, rest, rfl⟩ := List.exists_cons_of_ne_nil more.1
        have digit := more.2 d List.mem_cons_self
        have noSign : ¬ (d = 0x2B ∨ d = 0x2D) := by
          rintro (rfl | rfl) <;> exact absurd digit (by decide)
        show (if d = 0x2B ∨ d = 0x2D then rest ++ t else d :: rest ++ t).dropWhile isDigit = t
        rw [if_neg noSign]
        exact dropWhile_digits more.2 delimited.digit
      · exact dropWhile_digits more.2 delimited.digit
      · exact dropWhile_digits more.2 delimited.digit
  have expDigit : isDigit (peek (exp ++ t)) = false ∧ peek (exp ++ t) ≠ 0x2E := by
    rcases exponent with rfl | ⟨e, s, ds, letter, signed, more, rfl⟩
    · exact ⟨delimited.digit, delimited.point⟩
    · show isDigit e = false ∧ e ≠ 0x2E
      rcases letter with rfl | rfl <;> decide
  have second : readFraction (frac ++ (exp ++ t)) = exp ++ t := by
    rcases fraction with rfl | ⟨ds, more, rfl⟩
    · exact if_neg expDigit.2
    · exact dropWhile_digits more.2 expDigit.1
  have fracDigit : isDigit (peek (frac ++ (exp ++ t))) = false := by
    rcases fraction with rfl | ⟨ds, more, rfl⟩
    · exact expDigit.1
    · show isDigit 0x2E = false
      decide
  rw [readNumber, dropWhile_digits digits fracDigit, second, third]

theorem readToken_cons {c : UInt8} (t : Str) (visible : isSpace c = false) :
    readToken (c :: t) = ⟨(scanToken c t).1, c :: t, (scanToken c t).2⟩ := by
  have here : skipSpaces (c :: t) = c :: t := List.dropWhile_cons_of_neg (by rw [visible]; decide)
  rw [readToken, here]
  rfl

theorem token_text {type : TokenType} {w t : Str} : (⟨type, w ++ t, t⟩ : Token).text = w := by
  simp [Token.text]

theorem scanToken_digit {c : UInt8} (t : Str) (digit : isDigit c = true) : scanToken c t = (.tokenNumber, readNumber t) := by
  have each : ∀ n < 10, scanToken (UInt8.ofNat (48 + n)) t = (.tokenNumber, readNumber t) := by
    intro n low
    interval_cases n <;> rfl
  simp only [isDigit, Bool.and_eq_true, decide_eq_true_eq, UInt8.le_iff_toNat_le] at digit
  have low : 48 ≤ c.toNat := digit.1
  have high : c.toNat ≤ 57 := digit.2
  have here := each (c.toNat - 48) (by omega)
  rwa [show 48 + (c.toNat - 48) = c.toNat by omega, UInt8.ofNat_toNat] at here

theorem isSpace_of_isDigit {c : UInt8} (digit : isDigit c = true) : isSpace c = false := by
  apply Bool.eq_false_of_not_eq_true
  intro space
  simp only [isSpace, Bool.or_eq_true, decide_eq_true_eq] at space
  rcases space with ((rfl | rfl) | rfl) | rfl <;> exact absurd digit (by decide)

theorem readToken_number {w t : Str} (number : NumberText w) (delimited : Delimited t) :
    readToken (w ++ t) = ⟨.tokenNumber, w ++ t, t⟩ := by
  obtain ⟨sign, int, frac, exp, rfl, signed, digits, _, fraction, exponent⟩ := number
  rcases signed with rfl | rfl
  · obtain ⟨d, rest, rfl⟩ := List.exists_cons_of_ne_nil digits.1
    have digit := digits.2 d List.mem_cons_self
    have later : ∀ b ∈ rest, isDigit b = true := fun b member => digits.2 b (List.mem_cons_of_mem _ member)
    have read := readNumber_parts later fraction exponent delimited
    have shape : [] ++ d :: rest ++ frac ++ exp ++ t = d :: (rest ++ (frac ++ (exp ++ t))) := by simp
    rw [shape, readToken_cons _ (isSpace_of_isDigit digit), scanToken_digit _ digit, read]
  · have read := readNumber_parts digits.2 fraction exponent delimited
    have shape : ascii "-" ++ int ++ frac ++ exp ++ t = 0x2D :: (int ++ (frac ++ (exp ++ t))) := by simp [ascii]
    have scanned (u : Str) : scanToken 0x2D u = (.tokenNumber, readNumber u) := rfl
    rw [shape, readToken_cons _ (by decide), scanned, read]

/-! ## Strings -/

theorem readString_plain {c : UInt8} (w : Str) (notBackslash : c ≠ backslash) (notQuote : c ≠ quote) :
    readString (c :: w) = readString w := by
  rw [readString, if_neg notBackslash, if_neg notQuote]

theorem readString_escaped (c : UInt8) (w : Str) : readString (backslash :: c :: w) = readString w := by
  rw [readString, if_pos rfl]
  rfl

theorem hexByte_plain {d : Nat} (low : d < 16) : hexByte d ≠ backslash ∧ hexByte d ≠ quote ∧ hexValue (hexByte d) = some d := by
  interval_cases d <;> decide

theorem readString_escapeByte (c : UInt8) (w : Str) : readString (escapeByte c ++ w) = readString w := by
  rcases escapeByte_cases c with ⟨letter, _, same⟩ | ⟨low, same⟩ | ⟨stands, same⟩
  · rw [same]
    exact readString_escaped letter w
  · have first := hexByte_plain (d := c.toNat / 16) (by omega)
    have second := hexByte_plain (d := c.toNat % 16) (by omega)
    rw [same]
    show readString (backslash :: 0x75 :: 0x30 :: 0x30 :: hexByte (c.toNat / 16) :: hexByte (c.toNat % 16) :: w) = readString w
    rw [readString_escaped, readString_plain _ (by decide) (by decide), readString_plain _ (by decide) (by decide),
      readString_plain _ first.1 first.2.1, readString_plain _ second.1 second.2.1]
  · obtain ⟨_, notQuote, notBackslash⟩ := plainly_stringByte [c] c List.mem_cons_self stands
    rw [same]
    exact readString_plain w notBackslash notQuote

theorem readString_escaped_chars (s t : Str) : readString (s.flatMap escapeByte ++ quote :: t) = (true, t) := by
  induction s with
  | nil =>
    rw [List.flatMap_nil, List.nil_append, readString, if_neg (by decide), if_pos rfl]
  | cons c s ih => rw [List.flatMap_cons, List.append_assoc, readString_escapeByte, ih]

theorem readToken_string (s t : Str) :
    readToken (valueToQuotedStringN s ++ t) = ⟨.tokenString, valueToQuotedStringN s ++ t, t⟩ := by
  have scanned (u : Str) : scanToken quote u = checked .tokenString (readString u) := rfl
  have shape : valueToQuotedStringN s ++ t = quote :: (s.flatMap escapeByte ++ quote :: t) := by
    rw [valueToQuotedStringN_eq]
    simp
  rw [shape, readToken_cons _ (by decide), scanned, readString_escaped_chars]
  rfl

theorem decodeChars_plain {c : UInt8} (w : Str) (notBackslash : c ≠ backslash) (notQuote : c ≠ quote) :
    decodeChars (c :: w) = (decodeChars w).map (c :: ·) := by
  rw [decodeChars.eq_def]
  dsimp only
  rw [if_neg notQuote, if_neg notBackslash]

theorem decodeChars_letter {letter c : UInt8} (w : Str) (listed : (c, letter) ∈ escapeLetters) :
    decodeChars (backslash :: letter :: w) = (decodeChars w).map (c :: ·) := by
  have each : ∀ p ∈ escapeLetters, p.2 ≠ 0x75 ∧ unescape p.2 = some p.1 := forall_escapeLetters.mpr (by decide)
  obtain ⟨notCode, stands⟩ := each _ listed
  dsimp only at notCode stands
  rw [decodeChars, if_neg (by decide), if_pos rfl, if_neg notCode, stands]

theorem decodeUnicodeCodePoint_low {c : UInt8} (w : Str) (low : c.toNat < 0x20) :
    decodeUnicodeCodePoint (0x30 :: 0x30 :: hexByte (c.toNat / 16) :: hexByte (c.toNat % 16) :: w) = .ok (c.toNat, w) := by
  have first := (hexByte_plain (d := c.toNat / 16) (by omega)).2.2
  have second := (hexByte_plain (d := c.toNat % 16) (by omega)).2.2
  have zero : hexValue 0x30 = some 0 := by decide
  have digits : hexDigits 4 0 (0x30 :: 0x30 :: hexByte (c.toNat / 16) :: hexByte (c.toNat % 16) :: w) = .ok (c.toNat, w) := by
    simp only [hexDigits, peek, List.head?_cons, Option.getD_some, List.drop_succ_cons, List.drop_zero, zero, first, second]
    congr 2
    omega
  have sequence : decodeUnicodeEscapeSequence (0x30 :: 0x30 :: hexByte (c.toNat / 16) :: hexByte (c.toNat % 16) :: w) =
      .ok (c.toNat, w) := by
    rw [decodeUnicodeEscapeSequence, if_neg (by simp), digits]
  rw [decodeUnicodeCodePoint, sequence]
  dsimp only
  rw [if_neg (by omega)]

theorem decodeChars_escapeByte (c : UInt8) (w : Str) : decodeChars (escapeByte c ++ w) = (decodeChars w).map (c :: ·) := by
  rcases escapeByte_cases c with ⟨letter, listed, same⟩ | ⟨low, same⟩ | ⟨stands, same⟩
  · rw [same]
    exact decodeChars_letter w listed
  · rw [same]
    show decodeChars (backslash :: 0x75 :: 0x30 :: 0x30 :: hexByte (c.toNat / 16) :: hexByte (c.toNat % 16) :: w) = _
    rw [decodeChars, if_neg (by decide), if_pos rfl, if_pos rfl]
    split
    · next code point =>
      rw [decodeUnicodeCodePoint_low w low] at point
      cases point
      rw [codePointToUTF8, if_pos (by omega), UInt8.ofNat_toNat]
      rfl
    · next e point =>
      rw [decodeUnicodeCodePoint_low w low] at point
      cases point
  · obtain ⟨_, notQuote, notBackslash⟩ := plainly_stringByte [c] c List.mem_cons_self stands
    rw [same]
    exact decodeChars_plain w notBackslash notQuote

/-- A quoted string is decoded to the string. -/
theorem decodeString_quoted (s t : Str) : decodeString ⟨.tokenString, valueToQuotedStringN s ++ t, t⟩ = .ok s := by
  have chars : decodeChars (s.flatMap escapeByte) = .ok s := by
    induction s with
    | nil =>
      rw [List.flatMap_nil, decodeChars]
    | cons c s ih =>
      rw [List.flatMap_cons, decodeChars_escapeByte, ih]
      rfl
  have inside : (valueToQuotedStringN s |>.drop 1).dropLast = s.flatMap escapeByte := by
    rw [valueToQuotedStringN_eq, List.cons_append, List.drop_succ_cons, List.drop_zero, List.dropLast_concat]
  rw [decodeString, token_text, inside, chars]

/-! ## Numbers -/

theorem digitsValue_uintToString (n : Nat) : digitsValue (uintToString n) 0 = n := by
  have digit {d : Nat} (low : d < 10) : (digitByte d).toNat - 48 = d := by
    interval_cases d <;> rfl
  induction n using uintToString.induct with
  | case1 n one =>
    rw [uintToString, if_pos one]
    show 0 * 10 + ((digitByte (n % 10)).toNat - 48) = n
    rw [digit (by omega)]
    omega
  | case2 n more ih =>
    rw [uintToString, if_neg more, digitsValue, List.foldl_append]
    show digitsValue (uintToString (n / 10)) 0 * 10 + ((digitByte (n % 10)).toNat - 48) = n
    rw [ih, digit (by omega)]
    omega

section
variable {R : Type} (doubles : Doubles R)

/-- What a number without a sign is read as. -/
def rereadNatural (n : Nat) : Value R := if n ≤ maxInt then .int n else .uint n

mutual

/-- The value that is read when a value was written. -/
def Value.reread : Value R → Value R
  | .int n => if n < 0 then .int n else rereadNatural n.toNat
  | .uint n => rereadNatural n
  | .real r => (decodeInteger (doubles.print r)).getD (.real r)
  | .array elements => .array (rereadElements elements)
  | .object members => .object (rereadMembers members)
  | .null => .null
  | .string s => .string s
  | .bool b => .bool b

def rereadElements : List (Value R) → List (Value R)
  | [] => []
  | v :: vs => v.reread :: rereadElements vs

def rereadMembers : List (Str × Value R) → List (Str × Value R)
  | [] => []
  | (name, v) :: ms => (name, v.reread) :: rereadMembers ms

end

end

section
variable {R : Type} {doubles : Doubles R}

theorem decodeInteger_natural {n : Nat} (small : n < 2 ^ 64) :
    decodeInteger (uintToString n) = some (rereadNatural n : Value R) := by
  obtain ⟨d, rest, shape⟩ := List.exists_cons_of_ne_nil (uintToString_ne_nil n)
  have digit := uintToString_isDigit n d (by rw [shape]; exact List.mem_cons_self)
  have noSign : ¬ peek (uintToString n) = 0x2D := by
    rw [shape]
    show ¬ d = 0x2D
    rintro rfl
    exact absurd digit (by decide)
  have value := digitsValue_uintToString n
  have bound : digitsValue (uintToString n) 0 ≤ maxLargestUInt := by
    rw [value, maxLargestUInt]
    omega
  have decoded := decodeDigits_of_le (uintToString_isDigit n) (by decide) bound
  rw [value] at decoded
  rw [decodeInteger, if_neg noSign, decoded]
  rfl

theorem decodeInteger_negative {n : Nat} (small : n ≤ 2 ^ 63) :
    decodeInteger (0x2D :: uintToString n) = some (.int (-n) : Value R) := by
  have value := digitsValue_uintToString n
  have bound : digitsValue (uintToString n) 0 ≤ maxLargestInt + 1 := by
    rw [value, maxLargestInt]
    omega
  have decoded := decodeDigits_of_le (uintToString_isDigit n) (by decide) bound
  rw [value] at decoded
  have sign : peek (0x2D :: uintToString n) = 0x2D := rfl
  rw [decodeInteger, if_pos sign, List.drop_succ_cons, List.drop_zero, decoded, Option.map_some]
  split
  · next least =>
    rw [least]
    rfl
  · rfl

theorem decodeNumber_int {n : Int} {t : Str} {type : TokenType} (low : minLargestInt ≤ n) (high : n ≤ maxLargestInt) :
    decodeNumber doubles ⟨type, valueToString n ++ t, t⟩ = .ok ((Value.int n).reread doubles) := by
  unfold minLargestInt at low
  unfold maxLargestInt at high
  rw [decodeNumber, token_text, valueToString_eq, Value.reread]
  by_cases negative : n < 0
  · rw [if_pos negative, if_pos negative, decodeInteger_negative (by omega)]
    dsimp only
    congr 2
    omega
  · rw [if_neg negative, if_neg negative, decodeInteger_natural (by omega), show n.natAbs = n.toNat by omega]

theorem decodeNumber_uint {n : Nat} {t : Str} {type : TokenType} (small : n < 2 ^ 64) :
    decodeNumber doubles ⟨type, uintToString n ++ t, t⟩ = .ok ((Value.uint n).reread doubles) := by
  rw [decodeNumber, token_text, decodeInteger_natural small, Value.reread]

theorem decodeNumber_real {r : R} {t : Str} {type : TokenType} (exact : doubles.read (doubles.print r) = some r) :
    decodeNumber doubles ⟨type, doubles.print r ++ t, t⟩ = .ok ((Value.real r).reread doubles) := by
  rw [decodeNumber, token_text, Value.reread]
  cases decodeInteger (doubles.print r) with
  | some v => rfl
  | none =>
    dsimp only
    rw [exact]
    rfl

/-! ## Values -/

/-- A text that begins with neither a space nor a closing bracket. -/
def Begins (w : Str) : Prop := ∃ c u, w = c :: u ∧ isSpace c = false ∧ c ≠ closeBracket

theorem begins_number {w : Str} (number : NumberText w) : Begins w := by
  obtain ⟨sign, int, frac, exp, rfl, signed, digits, _, _, _⟩ := number
  rcases signed with rfl | rfl
  · obtain ⟨d, rest, rfl⟩ := List.exists_cons_of_ne_nil digits.1
    have digit := digits.2 d List.mem_cons_self
    refine ⟨d, rest ++ frac ++ exp, by simp, isSpace_of_isDigit digit, ?_⟩
    rintro rfl
    exact absurd digit (by decide)
  · exact ⟨0x2D, int ++ frac ++ exp, by simp [ascii], by decide, by decide⟩

theorem begins_write {v : Value R} (proper : v.Proper doubles) : Begins (v.write doubles) := by
  cases proper with
  | null => exact ⟨0x6E, ascii "ull", rfl, by decide, by decide⟩
  | int low high => exact begins_number (numberText_valueToString _)
  | uint high => exact begins_number (numberText_uint _)
  | real number exact => exact begins_number number
  | string s =>
    refine ⟨quote, s.flatMap escapeByte ++ [quote], ?_, by decide, by decide⟩
    exact valueToQuotedStringN_eq s
  | bool b =>
    cases b with
    | true => exact ⟨0x74, ascii "rue", rfl, by decide, by decide⟩
    | false => exact ⟨0x66, ascii "alse", rfl, by decide, by decide⟩
  | @array elements each =>
    refine ⟨openBracket, writeElements doubles true elements ++ [closeBracket], ?_, by decide, by decide⟩
    rw [Value.write, List.cons_append]
  | @object members sorted each =>
    refine ⟨openBrace, writeMembers doubles true members ++ [closeBrace], ?_, by decide, by decide⟩
    rw [Value.write, List.cons_append]

theorem Begins.skipped {w : Str} (begins : Begins w) (t : Str) :
    skipSpaces (w ++ t) = w ++ t ∧ ¬ peek (w ++ t) = closeBracket := by
  obtain ⟨c, u, rfl, visible, notClose⟩ := begins
  refine ⟨?_, notClose⟩
  apply List.dropWhile_cons_of_neg
  rw [visible]
  decide

/-- A token that is a value by itself. -/
inductive LeafToken (doubles : Doubles R) (token : Token) : Value R → Prop where
  | null (type : token.type = .tokenNull) : LeafToken doubles token .null
  | true (type : token.type = .tokenTrue) : LeafToken doubles token (.bool Bool.true)
  | false (type : token.type = .tokenFalse) : LeafToken doubles token (.bool Bool.false)
  | number {v : Value R} (type : token.type = .tokenNumber) (decoded : decodeNumber doubles token = .ok v) :
      LeafToken doubles token v
  | string {s : Str} (type : token.type = .tokenString) (decoded : decodeString token = .ok s) :
      LeafToken doubles token (.string s)

theorem readValue_leaf {fuel stackDepth : Nat} {current v : Value R} {rest : Str} {token : Token} (some : 0 < fuel)
    (first : readToken rest = token) (leaf : LeafToken doubles token v) :
    readValue doubles fuel stackDepth current rest =
      if stackDepth + 1 ≤ stackLimit then .ok ⟨none, v, token.rest⟩ else .error .stackLimit := by
  obtain ⟨fuel, rfl⟩ := Nat.exists_eq_succ_of_ne_zero some.ne'
  have other : (readToken rest).type ≠ .tokenComment := by
    rw [first]
    cases leaf <;> simp [*]
  rw [readValue, skipCommentTokens_of_ne other, first]
  by_cases deep : stackLimit ≤ stackDepth
  · rw [if_pos deep, if_neg (by omega)]
  · rw [if_neg deep, if_pos (by omega)]
    dsimp only
    cases leaf with
    | null type => rw [type]; rfl
    | true type => rw [type]; rfl
    | false type => rw [type]; rfl
    | number type decoded => rw [type, decoded]; rfl
    | string type decoded => rw [type, decoded]; rfl

/-- `readValue` reads what was written of a value, up to the byte behind it. -/
def ReadsBack (doubles : Doubles R) (v : Value R) : Prop :=
  ∀ (fuel stackDepth : Nat) (current : Value R) (t : Str), Delimited t → 2 * (v.write doubles ++ t).length + 1 ≤ fuel →
    readValue doubles fuel stackDepth current (v.write doubles ++ t) =
      if stackDepth + v.depth ≤ stackLimit then .ok ⟨none, v.reread doubles, t⟩ else .error .stackLimit

theorem readToken_closeBracket (t : Str) : readToken (closeBracket :: t) = ⟨.tokenArrayEnd, closeBracket :: t, t⟩ :=
  readToken_cons t (by decide)

theorem readToken_closeBrace (t : Str) : readToken (closeBrace :: t) = ⟨.tokenObjectEnd, closeBrace :: t, t⟩ :=
  readToken_cons t (by decide)

theorem readToken_comma (t : Str) : readToken (comma :: t) = ⟨.tokenArraySeparator, comma :: t, t⟩ :=
  readToken_cons t (by decide)

theorem readToken_colon (t : Str) : readToken (colon :: t) = ⟨.tokenMemberSeparator, colon :: t, t⟩ :=
  readToken_cons t (by decide)

theorem skipCommentTokens_eq {w : Str} {token : Token} (first : readToken w = token) (other : token.type ≠ .tokenComment) :
    skipCommentTokens w = token := by
  rw [← first] at other ⊢
  exact skipCommentTokens_of_ne other

/-- What follows an element: a comma and more elements, or the end. -/
theorem writeElements_cons (v : Value R) (vs : List (Value R)) (t : Str) :
    writeElements doubles true (v :: vs) ++ closeBracket :: t =
      v.write doubles ++ (writeElements doubles false vs ++ closeBracket :: t) := by
  simp [writeElements]

theorem delimited_elements (vs : List (Value R)) (t : Str) :
    Delimited (writeElements doubles false vs ++ closeBracket :: t) := by
  rcases eq_or_ne vs [] with rfl | more
  · exact delimited_of_mem t (by decide)
  · rw [writeElements_false more]
    exact delimited_of_mem _ (by decide)

/-- The loop over the elements, behind an opening bracket or a comma. -/
theorem readArray_write {vs : List (Value R)} (some : vs ≠ []) (each : ∀ v ∈ vs, ReadsBack doubles v) (fuel stackDepth : Nat)
    (before : List (Value R)) (t : Str) (enough : 2 * (writeElements doubles true vs ++ closeBracket :: t).length + 2 ≤ fuel) :
    readArray doubles fuel stackDepth before (writeElements doubles true vs ++ closeBracket :: t) =
      if stackDepth + elementsDepth vs ≤ stackLimit then .ok ⟨none, .array (before ++ rereadElements doubles vs), t⟩
      else .error .stackLimit := by
  induction vs generalizing fuel before with
  | nil => exact absurd rfl some
  | cons v vs ih =>
    obtain ⟨here, later⟩ := List.forall_mem_cons.mp each
    obtain ⟨fuel, rfl⟩ := Nat.exists_eq_succ_of_ne_zero (show fuel ≠ 0 by omega)
    rw [writeElements_cons] at enough ⊢
    rw [readArray, here fuel stackDepth .null _ (delimited_elements vs t) (by omega), elementsDepth]
    by_cases fits : stackDepth + v.depth ≤ stackLimit
    · rw [if_pos fits]
      dsimp only
      rw [if_neg (by simp)]
      rcases eq_or_ne vs [] with rfl | more
      · rw [writeElements, List.nil_append, skipCommentTokens_eq (readToken_closeBracket t) (by simp), if_pos rfl,
          elementsDepth, Nat.max_zero, if_pos fits]
        simp [rereadElements]
      · rw [writeElements_false more, List.cons_append] at enough ⊢
        rw [skipCommentTokens_eq (readToken_comma _) (by simp), if_neg (by simp), if_pos rfl,
          ih more later fuel _ (by simp only [List.length_append, List.length_cons] at enough ⊢; omega)]
        have both : stackDepth + max v.depth (elementsDepth vs) ≤ stackLimit ↔ stackDepth + elementsDepth vs ≤ stackLimit := by
          omega
        simp only [both, rereadElements, List.append_assoc, List.singleton_append]
    · rw [if_neg fits, if_neg (by omega)]

/-- What follows a member: a comma and more members, or the end. -/
theorem writeMembers_cons (m : Str × Value R) (ms : List (Str × Value R)) (t : Str) :
    writeMembers doubles true (m :: ms) ++ closeBrace :: t =
      valueToQuotedStringN m.1 ++ colon :: (m.2.write doubles ++ (writeMembers doubles false ms ++ closeBrace :: t)) := by
  simp [writeMembers]

theorem delimited_members (ms : List (Str × Value R)) (t : Str) :
    Delimited (writeMembers doubles false ms ++ closeBrace :: t) := by
  rcases eq_or_ne ms [] with rfl | more
  · exact delimited_of_mem t (by decide)
  · rw [writeMembers_false more]
    exact delimited_of_mem _ (by decide)

/-- The loop over the members, behind an opening brace or a comma. -/
theorem readObject_write {ms : List (Str × Value R)} (some : ms ≠ []) (sorted : ms.Pairwise (·.1 < ·.1))
    (each : ∀ m ∈ ms, ReadsBack doubles m.2) (fuel stackDepth : Nat) (before : List (Str × Value R))
    (behind : ∀ e ∈ before, ∀ m ∈ ms, e.1 < m.1) (name t : Str)
    (enough : 2 * (writeMembers doubles true ms ++ closeBrace :: t).length + 2 ≤ fuel) :
    readObject doubles fuel stackDepth before name (writeMembers doubles true ms ++ closeBrace :: t) =
      if stackDepth + membersDepth ms ≤ stackLimit then .ok ⟨none, .object (before ++ rereadMembers doubles ms), t⟩
      else .error .stackLimit := by
  induction ms generalizing fuel before name with
  | nil => exact absurd rfl some
  | cons m ms ih =>
    obtain ⟨here, later⟩ := List.forall_mem_cons.mp each
    obtain ⟨least, ordered⟩ := List.pairwise_cons.mp sorted
    obtain ⟨fuel, rfl⟩ := Nat.exists_eq_succ_of_ne_zero (show fuel ≠ 0 by omega)
    rw [writeMembers_cons] at enough ⊢
    simp only [List.length_append, List.length_cons] at enough
    rw [readObject, skipCommentTokens_eq (readToken_string m.1 _) (by simp)]
    dsimp only
    rw [if_neg (by simp), if_pos rfl, decodeString_quoted]
    dsimp only
    rw [readToken_colon]
    dsimp only
    rw [if_pos rfl, here fuel stackDepth _ _ (delimited_members ms t)
      (by simp only [List.length_append, List.length_cons]; omega), membersDepth]
    by_cases fits : stackDepth + m.2.depth ≤ stackLimit
    · rw [if_pos fits]
      dsimp only
      rw [if_neg (by simp), mapSet_behind fun e member => behind e member m List.mem_cons_self]
      rcases eq_or_ne ms [] with rfl | more
      · rw [writeMembers, List.nil_append, skipCommentTokens_eq (readToken_closeBrace t) (by simp), readToken_closeBrace,
          if_pos (by simp), if_pos rfl, membersDepth, Nat.max_zero, if_pos fits]
        simp [rereadMembers]
      · rw [writeMembers_false more] at enough ⊢
        rw [List.cons_append, skipCommentTokens_eq (readToken_comma _) (by simp), readToken_comma, if_pos (by simp),
          if_neg (by simp)]
        dsimp only
        have further : ∀ e ∈ before ++ [(m.1, m.2.reread doubles)], ∀ n ∈ ms, e.1 < n.1 := by
          refine List.forall_mem_append.mpr ⟨?_, ?_⟩
          · exact fun e member n there => behind e member n (List.mem_cons_of_mem _ there)
          · exact List.forall_mem_singleton.mpr least
        rw [ih more ordered later fuel _ further _ (by simp only [List.length_append, List.length_cons] at enough ⊢; omega)]
        have both : stackDepth + max m.2.depth (membersDepth ms) ≤ stackLimit ↔ stackDepth + membersDepth ms ≤ stackLimit := by
          omega
        simp only [both, rereadMembers, List.append_assoc, List.singleton_append]
    · rw [if_neg fits, if_neg (by omega)]

/-- An array is read back if its elements are. -/
theorem readsBack_array {elements : List (Value R)} (proper : ∀ v ∈ elements, v.Proper doubles)
    (each : ∀ v ∈ elements, ReadsBack doubles v) : ReadsBack doubles (.array elements) := by
  intro fuel stackDepth current t delimited enough
  have shape : (Value.array elements).write doubles ++ t =
      openBracket :: (writeElements doubles true elements ++ closeBracket :: t) := by
    simp [Value.write]
  rw [shape] at enough ⊢
  obtain ⟨fuel, rfl⟩ := Nat.exists_eq_succ_of_ne_zero (show fuel ≠ 0 by omega)
  have bracket : readToken (openBracket :: (writeElements doubles true elements ++ closeBracket :: t)) =
      ⟨.tokenArrayBegin, _, writeElements doubles true elements ++ closeBracket :: t⟩ := readToken_cons _ (by decide)
  rw [readValue, skipCommentTokens_eq bracket (by simp), Value.depth, Value.reread]
  by_cases deep : stackLimit ≤ stackDepth
  · rw [if_pos deep, if_neg (by omega)]
  rw [if_neg deep]
  dsimp only
  rcases eq_or_ne elements [] with rfl | some
  · have here : skipSpaces (closeBracket :: t) = closeBracket :: t := rfl
    have empty : peek (closeBracket :: t) = closeBracket := rfl
    rw [writeElements, List.nil_append, here, if_pos empty, readToken_closeBracket, elementsDepth, if_pos (by omega)]
    rfl
  · obtain ⟨v, vs, rfl⟩ := List.exists_cons_of_ne_nil some
    have first := (begins_write (proper v List.mem_cons_self)).skipped (writeElements doubles false vs ++ closeBracket :: t)
    rw [← writeElements_cons] at first
    rw [first.1, if_neg first.2, readArray_write some each fuel (stackDepth + 1) [] t
      (by simp only [List.length_append, List.length_cons] at enough ⊢; omega)]
    have same : stackDepth + 1 + elementsDepth (v :: vs) ≤ stackLimit ↔ stackDepth + (elementsDepth (v :: vs) + 1) ≤ stackLimit := by
      omega
    simp only [same, List.nil_append]

/-- An object is read back if its members are. -/
theorem readsBack_object {members : List (Str × Value R)} (sorted : members.Pairwise (·.1 < ·.1))
    (each : ∀ m ∈ members, ReadsBack doubles m.2) : ReadsBack doubles (.object members) := by
  intro fuel stackDepth current t delimited enough
  have shape : (Value.object members).write doubles ++ t =
      openBrace :: (writeMembers doubles true members ++ closeBrace :: t) := by
    simp [Value.write]
  rw [shape] at enough ⊢
  obtain ⟨fuel, rfl⟩ := Nat.exists_eq_succ_of_ne_zero (show fuel ≠ 0 by omega)
  have brace : readToken (openBrace :: (writeMembers doubles true members ++ closeBrace :: t)) =
      ⟨.tokenObjectBegin, _, writeMembers doubles true members ++ closeBrace :: t⟩ := readToken_cons _ (by decide)
  rw [readValue, skipCommentTokens_eq brace (by simp), Value.depth, Value.reread]
  by_cases deep : stackLimit ≤ stackDepth
  · rw [if_pos deep, if_neg (by omega)]
  rw [if_neg deep]
  dsimp only
  rcases eq_or_ne members [] with rfl | some
  · obtain ⟨fuel, rfl⟩ := Nat.exists_eq_succ_of_ne_zero (show fuel ≠ 0 by
      simp only [List.length_append, List.length_cons] at enough
      omega)
    rw [writeMembers, List.nil_append, readObject, skipCommentTokens_eq (readToken_closeBrace t) (by simp), if_pos ⟨rfl, rfl⟩,
      membersDepth, if_pos (by omega)]
    rfl
  · rw [readObject_write some sorted each fuel (stackDepth + 1) [] (List.forall_mem_nil _) [] t
      (by simp only [List.length_append, List.length_cons] at enough ⊢; omega)]
    have same : stackDepth + 1 + membersDepth members ≤ stackLimit ↔ stackDepth + (membersDepth members + 1) ≤ stackLimit := by
      omega
    simp only [same, List.nil_append]

theorem readsBack {v : Value R} (proper : v.Proper doubles) : ReadsBack doubles v := by
  induction proper with
  | null =>
    intro fuel stackDepth current t delimited enough
    have first : readToken (ascii "null" ++ t) = ⟨.tokenNull, ascii "null" ++ t, t⟩ := readToken_cons _ (by decide)
    exact readValue_leaf (by omega) first (.null rfl)
  | int low high =>
    intro fuel stackDepth current t delimited enough
    exact readValue_leaf (by omega) (readToken_number (numberText_valueToString _) delimited)
      (.number rfl (decodeNumber_int low high))
  | uint high =>
    intro fuel stackDepth current t delimited enough
    exact readValue_leaf (by omega) (readToken_number (numberText_uint _) delimited) (.number rfl (decodeNumber_uint high))
  | real number exact =>
    intro fuel stackDepth current t delimited enough
    exact readValue_leaf (by omega) (readToken_number number delimited) (.number rfl (decodeNumber_real exact))
  | string s =>
    intro fuel stackDepth current t delimited enough
    exact readValue_leaf (by omega) (readToken_string s t) (.string rfl (decodeString_quoted s t))
  | bool b =>
    intro fuel stackDepth current t delimited enough
    cases b with
    | true =>
      have first : readToken (ascii "true" ++ t) = ⟨.tokenTrue, ascii "true" ++ t, t⟩ := readToken_cons _ (by decide)
      exact readValue_leaf (by omega) first (.true rfl)
    | false =>
      have first : readToken (ascii "false" ++ t) = ⟨.tokenFalse, ascii "false" ++ t, t⟩ := readToken_cons _ (by decide)
      exact readValue_leaf (by omega) first (.false rfl)
  | array each ih => exact readsBack_array each ih
  | object sorted each ih => exact readsBack_object sorted ih

/-- What `FastWriter` wrote is read, whatever is behind it in memory. -/
theorem parse_written {v : Value R} (proper : v.Proper doubles) (slack : Str) (root : Value R) :
    parse doubles (fastWriter doubles v) slack root =
      if v.depth ≤ stackLimit then .ok ⟨none, v.reread doubles, newline :: slack⟩ else .error .stackLimit := by
  have shape : fastWriter doubles v ++ slack = v.write doubles ++ newline :: slack := by simp [fastWriter]
  rw [parse, shape, readsBack proper _ 0 root _ (delimited_of_mem slack (by decide)) (Nat.le_refl _), Nat.zero_add]

/-- **A value that is written is one line of JSON and is read again.** It has its type back but for numbers, which have the type
of their digits; at more than `stackLimit` levels the reader gives up. -/
theorem parse_fastWriter {v : Value R} (proper : v.Proper doubles) (slack : Str) (root : Value R) :
    (∃ text, fastWriter doubles v = text ++ [newline] ∧ JsonText stringByte .value text ∧ ∀ b ∈ text, 0x20 ≤ b) ∧
      parse doubles (fastWriter doubles v) slack root =
        if v.depth ≤ stackLimit then .ok ⟨none, v.reread doubles, newline :: slack⟩ else .error .stackLimit := by
  refine ⟨⟨v.write doubles, rfl, ?_, write_graphic proper⟩, parse_written proper slack root⟩
  exact write_jsonText proper (over_stringByte proper)

/-! ## Reading again -/

theorem rereadNatural_reread (n : Nat) : (rereadNatural n : Value R).reread doubles = rereadNatural n := by
  by_cases small : n ≤ maxInt
  · have here : (rereadNatural n : Value R) = .int n := if_pos small
    rw [here, Value.reread, if_neg (by omega), Int.toNat_natCast, here]
  · have here : (rereadNatural n : Value R) = .uint n := if_neg small
    rw [here, Value.reread, here]

theorem decodeInteger_reread {text : Str} {v : Value R} (done : decodeInteger text = some v) : v.reread doubles = v := by
  unfold decodeInteger at done
  split at done
  · obtain ⟨n, _, rfl⟩ := Option.map_eq_some_iff.mp done
    split
    · rfl
    · rcases Nat.eq_zero_or_pos n with rfl | positive
      · rfl
      · rw [Value.reread, if_pos (by omega)]
  · obtain ⟨n, _, rfl⟩ := Option.map_eq_some_iff.mp done
    exact rereadNatural_reread n

theorem rereadElements_reread {elements : List (Value R)}
    (each : ∀ v ∈ elements, (v.reread doubles).reread doubles = v.reread doubles) :
    rereadElements doubles (rereadElements doubles elements) = rereadElements doubles elements := by
  induction elements with
  | nil => rfl
  | cons v vs ih =>
    obtain ⟨here, later⟩ := List.forall_mem_cons.mp each
    rw [rereadElements, rereadElements, here, ih later]

theorem rereadMembers_reread {members : List (Str × Value R)}
    (each : ∀ m ∈ members, (m.2.reread doubles).reread doubles = m.2.reread doubles) :
    rereadMembers doubles (rereadMembers doubles members) = rereadMembers doubles members := by
  induction members with
  | nil => rfl
  | cons m ms ih =>
    obtain ⟨here, later⟩ := List.forall_mem_cons.mp each
    rw [rereadMembers, rereadMembers, here, ih later]

/-- A value that was read once stays as it is. -/
theorem reread_reread {v : Value R} (proper : v.Proper doubles) : (v.reread doubles).reread doubles = v.reread doubles := by
  induction proper with
  | null => rfl
  | @int n low high =>
    by_cases negative : n < 0
    · have here : (Value.int n : Value R).reread doubles = .int n := by rw [Value.reread, if_pos negative]
      rw [here, here]
    · have here : (Value.int n : Value R).reread doubles = rereadNatural n.toNat := by rw [Value.reread, if_neg negative]
      rw [here, rereadNatural_reread]
  | @uint n high => exact rereadNatural_reread n
  | @real r number exact =>
    rw [Value.reread]
    cases decoded : (decodeInteger (doubles.print r) : Option (Value R)) with
    | some v => exact decodeInteger_reread decoded
    | none =>
      rw [Option.getD_none, Value.reread, decoded]
      rfl
  | string s => rfl
  | bool b => rfl
  | array each ih => rw [Value.reread, Value.reread, rereadElements_reread ih]
  | object sorted each ih => rw [Value.reread, Value.reread, rereadMembers_reread ih]

/-- The value of a document, also of one that is read with an error, is written and read without one. -/
theorem parse_fits (exact : doubles.Exact) (document slack : Str) :
    parse doubles document slack .null = .error .stackLimit ∨
      ∃ r, parse doubles document slack .null = .ok r ∧ r.value.Proper doubles ∧ r.value.depth ≤ stackLimit := by
  have shallow : 0 < stackLimit := by decide
  have ends := (reads_end exact (2 * (document ++ slack).length + 1)).1 0 .null (document ++ slack) (Nat.le_refl _)
    fun _ => ⟨.null, shallow⟩
  rcases ends with stopped | ⟨r, done, _, proper, depth⟩
  · exact .inl stopped
  · refine .inr ⟨r, done, proper, ?_⟩
    rwa [Nat.zero_add] at depth

/-- **Any document.** It is read to an end, unless it has more than `stackLimit` levels. Whatever value is left, also by an
error, is written and read again without one, and from then on it stays as it is. -/
theorem reparse (exact : doubles.Exact) (document slack : Str) :
    parse doubles document slack .null = .error .stackLimit ∨
      ∃ r, parse doubles document slack .null = .ok r ∧ ∀ behind,
        parse doubles (fastWriter doubles r.value) behind .null = .ok ⟨none, r.value.reread doubles, newline :: behind⟩ ∧
        parse doubles (fastWriter doubles (r.value.reread doubles)) behind .null =
          .ok ⟨none, r.value.reread doubles, newline :: behind⟩ := by
  rcases parse_fits exact document slack with stopped | ⟨r, done, proper, depth⟩
  · exact .inl stopped
  refine .inr ⟨r, done, fun behind => ?_⟩
  have first (behind : Str) := parse_written proper behind .null
  simp only [depth, if_true] at first
  refine ⟨first behind, ?_⟩
  rcases parse_fits exact (fastWriter doubles r.value) behind with stopped | ⟨again, read, proper', depth'⟩
  · rw [first behind] at stopped
    cases stopped
  · rw [first behind] at read
    cases read
    rw [parse_written proper' behind .null, if_pos depth', reread_reread proper]

end

/-- The only double is 0.5. -/
def halves : Doubles Unit where
  print _ := ascii "0.5"
  read text := if text = ascii "0.5" then some () else none

theorem number_half : NumberText (ascii "0.5") := by
  refine ⟨[], ascii "0", ascii ".5", [], by decide, .inl rfl, ⟨by decide, ?_⟩, fun _ => by decide,
    .inr ⟨ascii "5", ⟨by decide, ?_⟩, by decide⟩, .inl rfl⟩
  · exact fun b member => by rw [List.mem_singleton.mp member]; decide
  · exact fun b member => by rw [List.mem_singleton.mp member]; decide

theorem halves_exact : halves.Exact := fun _ _ _ => ⟨number_half, rfl⟩

/-- Two members, one of which is an array. -/
def packet : Value Unit :=
  .object [(ascii "ip", .string (ascii "a\n")), (ascii "points", .array [.int (-3), .uint 4, .real (), .null])]

theorem packet_proper : packet.Proper halves := by
  refine .object ?_ ?_
  · refine List.pairwise_cons.mpr ⟨fun m member => ?_, List.pairwise_singleton _ _⟩
    rw [List.mem_singleton.mp member]
    decide
  · simp only [List.forall_mem_cons]
    refine ⟨.string _, .array ?_, List.forall_mem_nil _⟩
    simp only [List.forall_mem_cons]
    exact ⟨.int (by decide) (by decide), .uint (by decide), .real number_half (by decide), .null, List.forall_mem_nil _⟩

theorem packet_parsed :
    (∃ text, fastWriter halves packet = text ++ [newline] ∧ JsonText stringByte .value text ∧ ∀ b ∈ text, 0x20 ≤ b) ∧
      parse halves (fastWriter halves packet) [0] .null = .ok ⟨none, packet.reread halves, [newline, 0]⟩ := by
  obtain ⟨line, parsed⟩ := parse_fastWriter packet_proper [0] .null
  rw [if_pos (by decide)] at parsed
  exact ⟨line, parsed⟩

/-- A document that is read with an error. -/
theorem broken_reparsed :
    parse halves (ascii "[-,0.5 /* */ 7") [0] .null = .error .stackLimit ∨
      ∃ r, parse halves (ascii "[-,0.5 /* */ 7") [0] .null = .ok r ∧ ∀ behind,
        parse halves (fastWriter halves r.value) behind .null = .ok ⟨none, r.value.reread halves, newline :: behind⟩ ∧
        parse halves (fastWriter halves (r.value.reread halves)) behind .null =
          .ok ⟨none, r.value.reread halves, newline :: behind⟩ :=
  reparse halves_exact (ascii "[-,0.5 /* */ 7") [0]

end VideoDetector.Json
