import VideoDetector.Json.FastWriter
import VideoDetector.Lib.OrderedMap

/-!
# Reading values (`Reader` in `Pvd/cppjson/json_reader.cpp`)

A position in the document is what is left of it. A failed reading leaves what was read so far, with the first error; that the
reader then skips to the end of the object or array only moves the position, which nothing reads any more. The depth at which
`readValue` gives up by an exception is part of the model. `reads_end` says that every document is read to an end.
-/

namespace VideoDetector.Json
set_option autoImplicit false
open Lib

/-! ## Tokens -/

def star : UInt8 := 0x2A
def slash : UInt8 := 0x2F
def carriageReturn : UInt8 := 0x0D

/-- `TokenType`. -/
inductive TokenType where
  | tokenEndOfStream | tokenObjectBegin | tokenObjectEnd | tokenArrayBegin | tokenArrayEnd | tokenString | tokenNumber
  | tokenTrue | tokenFalse | tokenNull | tokenArraySeparator | tokenMemberSeparator | tokenComment | tokenError
  deriving DecidableEq

/-- `Token`: the places where it begins and ends are what is left of the document there. -/
structure Token where
  type : TokenType
  start : Str
  rest : Str

/-- The bytes of a token. -/
def Token.text (t : Token) : Str := t.start.take (t.start.length - t.rest.length)

/-- `*current_`. Behind the document there is a zero. -/
def peek (current : Str) : UInt8 := current.head?.getD 0

/-- `skipSpaces`. -/
def skipSpaces (current : Str) : Str := current.dropWhile isSpace

/-- `match`: whether the pattern is there, and the place behind it. -/
def matchPattern (pattern current : Str) : Bool × Str :=
  if pattern.isPrefixOf current then (true, current.drop pattern.length) else (false, current)

/-- `readCStyleComment`. -/
def readCStyleComment : Str → Bool × Str
  | [] => (false, [])
  | c :: current => if c = star ∧ peek current = slash then (true, current.drop 1) else readCStyleComment current

/-- `readCppStyleComment`. -/
def readCppStyleComment : Str → Str
  | [] => []
  | c :: current =>
    if c = newline then current
    else if c = carriageReturn then (if peek current = newline then current.drop 1 else current)
    else readCppStyleComment current

/-- `readComment`. -/
def readComment (current : Str) : Bool × Str :=
  if peek current = star then readCStyleComment (current.drop 1)
  else if peek current = slash then (true, readCppStyleComment (current.drop 1))
  else (false, current.drop 1)

/-- The fractional part in `readNumber`. -/
def readFraction (current : Str) : Str :=
  if peek current = 0x2E then (current.drop 1).dropWhile isDigit else current

/-- The exponential part in `readNumber`. -/
def readExponent (current : Str) : Str :=
  if peek current = 0x65 ∨ peek current = 0x45 then
    let sign := current.drop 1
    (if peek sign = 0x2B ∨ peek sign = 0x2D then sign.drop 1 else sign).dropWhile isDigit
  else current

/-- `readNumber`, behind the first character. -/
def readNumber (current : Str) : Str := readExponent (readFraction (current.dropWhile isDigit))

/-- `readString`. -/
def readString : Str → Bool × Str
  | [] => (false, [])
  | c :: current =>
    if c = backslash then readString (current.drop 1) else if c = quote then (true, current) else readString current
termination_by current => current.length
decreasing_by
  · simp only [List.length_drop, List.length_cons]
    omega
  · simp

/-- A token that is read by a function which may fail. -/
def checked (type : TokenType) (r : Bool × Str) : TokenType × Str := (if r.1 then type else .tokenError, r.2)

/-- The switch of `readToken`, with the character `c` that was read. -/
def scanToken (c : UInt8) (current : Str) : TokenType × Str :=
  if c = openBrace then (.tokenObjectBegin, current)
  else if c = closeBrace then (.tokenObjectEnd, current)
  else if c = openBracket then (.tokenArrayBegin, current)
  else if c = closeBracket then (.tokenArrayEnd, current)
  else if c = quote then checked .tokenString (readString current)
  else if c = slash then checked .tokenComment (readComment current)
  else if isDigit c || c = 0x2D then (.tokenNumber, readNumber current)
  else if c = 0x74 then checked .tokenTrue (matchPattern (ascii "rue") current)
  else if c = 0x66 then checked .tokenFalse (matchPattern (ascii "alse") current)
  else if c = 0x6E then checked .tokenNull (matchPattern (ascii "ull") current)
  else if c = comma then (.tokenArraySeparator, current)
  else if c = colon then (.tokenMemberSeparator, current)
  else if c = 0 then (.tokenEndOfStream, current)
  else (.tokenError, current)

/-- `readToken`. -/
def readToken (current : Str) : Token where
  type := (scanToken (peek (skipSpaces current)) ((skipSpaces current).drop 1)).1
  start := skipSpaces current
  rest := (scanToken (peek (skipSpaces current)) ((skipSpaces current).drop 1)).2

theorem dropWhile_length_le (p : UInt8 → Bool) (w : Str) : (w.dropWhile p).length ≤ w.length :=
  (List.dropWhile_sublist p).length_le

theorem drop_length_le (w : Str) : (w.drop 1).length ≤ w.length := by simp

theorem readCStyleComment_le (w : Str) : (readCStyleComment w).2.length ≤ w.length := by
  induction w with
  | nil => exact Nat.le_refl 0
  | cons c w ih =>
    rw [readCStyleComment]
    split
    · exact Nat.le_succ_of_le (drop_length_le w)
    · exact Nat.le_succ_of_le ih

theorem readCppStyleComment_le (w : Str) : (readCppStyleComment w).length ≤ w.length := by
  induction w with
  | nil => exact Nat.le_refl 0
  | cons c w ih =>
    rw [readCppStyleComment]
    split_ifs
    · simp
    · exact Nat.le_succ_of_le (drop_length_le w)
    · simp
    · exact Nat.le_succ_of_le ih

theorem readComment_le (w : Str) : (readComment w).2.length ≤ w.length := by
  have less := drop_length_le w
  unfold readComment
  split_ifs
  · exact (readCStyleComment_le _).trans less
  · exact (readCppStyleComment_le _).trans less
  · exact less

theorem readNumber_le (w : Str) : (readNumber w).length ≤ w.length := by
  have frac (v : Str) : (readFraction v).length ≤ v.length := by
    unfold readFraction
    split
    · exact (dropWhile_length_le _ _).trans (drop_length_le v)
    · exact Nat.le_refl _
  have exp (v : Str) : (readExponent v).length ≤ v.length := by
    unfold readExponent
    split
    · apply (dropWhile_length_le _ _).trans
      split
      · exact (drop_length_le _).trans (drop_length_le v)
      · exact drop_length_le v
    · exact Nat.le_refl _
  exact (exp _).trans ((frac _).trans (dropWhile_length_le _ w))

theorem readString_le (w : Str) : (readString w).2.length ≤ w.length := by
  induction w using readString.induct with
  | case1 => simp [readString]
  | case2 w ih =>
    rw [readString, if_pos rfl]
    simp only [List.length_drop, List.length_cons] at ih ⊢
    omega
  | case3 w other =>
    rw [readString, if_neg other, if_pos rfl]
    simp
  | case4 c w notBackslash notQuote ih =>
    rw [readString, if_neg notBackslash, if_neg notQuote]
    exact Nat.le_succ_of_le ih

theorem matchPattern_le (pattern w : Str) : (matchPattern pattern w).2.length ≤ w.length := by
  unfold matchPattern
  split <;> simp

theorem snd_ite_le {p : Prop} [Decidable p] {a b : TokenType × Str} {n : Nat} (first : a.2.length ≤ n) (second : b.2.length ≤ n) :
    (if p then a else b).2.length ≤ n := by
  split
  · exact first
  · exact second

theorem scanToken_le (c : UInt8) (w : Str) : (scanToken c w).2.length ≤ w.length := by
  have same (type : TokenType) : (type, w).2.length ≤ w.length := Nat.le_refl _
  have word (type : TokenType) (pattern : Str) : (checked type (matchPattern pattern w)).2.length ≤ w.length :=
    matchPattern_le pattern w
  unfold scanToken
  apply snd_ite_le (same _)
  apply snd_ite_le (same _)
  apply snd_ite_le (same _)
  apply snd_ite_le (same _)
  apply snd_ite_le (readString_le w)
  apply snd_ite_le (readComment_le w)
  apply snd_ite_le (readNumber_le w)
  apply snd_ite_le (word _ _)
  apply snd_ite_le (word _ _)
  apply snd_ite_le (word _ _)
  apply snd_ite_le (same _)
  apply snd_ite_le (same _)
  exact snd_ite_le (same _) (same _)

/-- A token that is not the end takes at least a character. -/
theorem readToken_lt (w : Str) : (readToken w).rest.length ≤ w.length - 1 := by
  apply (scanToken_le _ _).trans
  have skipped := dropWhile_length_le isSpace w
  unfold skipSpaces
  simp only [List.length_drop]
  omega

theorem readToken_nil : (readToken []).type = .tokenEndOfStream := rfl

theorem pos_of_token {w : Str} (more : (readToken w).type ≠ .tokenEndOfStream) : 0 < w.length := by
  apply List.length_pos_iff.mpr
  rintro rfl
  exact more readToken_nil

/-- `skipCommentTokens`. -/
def skipCommentTokens (current : Str) : Token :=
  if (readToken current).type = .tokenComment then skipCommentTokens (readToken current).rest else readToken current
termination_by current.length
decreasing_by
  next comment =>
  have some : 0 < current.length := by
    apply pos_of_token
    rw [comment]
    decide
  have less := readToken_lt current
  omega

theorem skipCommentTokens_of_ne {w : Str} (other : (readToken w).type ≠ .tokenComment) : skipCommentTokens w = readToken w := by
  rw [skipCommentTokens, if_neg other]

theorem skipCommentTokens_lt (w : Str) : (skipCommentTokens w).rest.length ≤ w.length - 1 := by
  induction w using skipCommentTokens.induct with
  | case1 w comment ih =>
    rw [skipCommentTokens, if_pos comment]
    have less := readToken_lt w
    omega
  | case2 w other =>
    rw [skipCommentTokens_of_ne other]
    exact readToken_lt w

theorem pos_of_skipped {w : Str} (more : (skipCommentTokens w).type ≠ .tokenEndOfStream) : 0 < w.length := by
  apply List.length_pos_iff.mpr
  rintro rfl
  have last : skipCommentTokens [] = readToken [] := skipCommentTokens_of_ne (by rw [readToken_nil]; decide)
  rw [last] at more
  exact more readToken_nil

/-! ## Strings -/

/-- `ErrorInfo`. -/
structure ErrorInfo where
  token : Token
  message : Str
  extra : Option Str

/-- What `decodeString` complains of: the message and the place. -/
structure Complaint where
  message : Str
  place : Str

/-- A byte `b & mask` with the bits of `mark`. -/
def markedByte (mark mask b : Nat) : UInt8 := UInt8.ofNat (mark ||| (mask &&& b))

/-- `codePointToUTF8`. -/
def codePointToUTF8 (cp : Nat) : Str :=
  if cp ≤ 0x7F then [UInt8.ofNat cp]
  else if cp ≤ 0x7FF then [markedByte 0xC0 0x1F (cp >>> 6), markedByte 0x80 0x3F cp]
  else if cp ≤ 0xFFFF then
    [markedByte 0xE0 0xF (cp >>> 12), markedByte 0x80 0x3F (cp >>> 6), markedByte 0x80 0x3F cp]
  else if cp ≤ 0x10FFFF then
    [markedByte 0xF0 0x7 (cp >>> 18), markedByte 0x80 0x3F (cp >>> 12), markedByte 0x80 0x3F (cp >>> 6), markedByte 0x80 0x3F cp]
  else []

def hexValue (c : UInt8) : Option Nat :=
  if isDigit c then some (c.toNat - 48)
  else if 0x61 ≤ c ∧ c ≤ 0x66 then some (c.toNat - 97 + 10)
  else if 0x41 ≤ c ∧ c ≤ 0x46 then some (c.toNat - 65 + 10)
  else none

/-- The loop of `decodeUnicodeEscapeSequence` over `n` digits. -/
def hexDigits : Nat → Nat → Str → Except Complaint (Nat × Str)
  | 0, unicode, current => .ok (unicode, current)
  | n + 1, unicode, current =>
    match hexValue (peek current) with
    | some d => hexDigits n (unicode * 16 + d) (current.drop 1)
    | none => .error ⟨ascii "Bad unicode escape sequence in string: hexadecimal digit expected.", current.drop 1⟩

/-- `decodeUnicodeEscapeSequence`. -/
def decodeUnicodeEscapeSequence (current : Str) : Except Complaint (Nat × Str) :=
  if current.length < 4 then .error ⟨ascii "Bad unicode escape sequence in string: four digits expected.", current⟩
  else hexDigits 4 0 current

/-- The second half in `decodeUnicodeCodePoint`. -/
def decodeSurrogatePair (unicode : Nat) (current : Str) : Except Complaint (Nat × Str) :=
  if current.length < 6 then
    .error ⟨ascii "additional six characters expected to parse unicode surrogate pair.", current⟩
  else if peek current = backslash ∧ peek (current.drop 1) = 0x75 then
    match decodeUnicodeEscapeSequence (current.drop 2) with
    | .ok pair => .ok (0x10000 + ((unicode &&& 0x3FF) <<< 10) + (pair.1 &&& 0x3FF), pair.2)
    | .error e => .error e
  else
    .error ⟨ascii "expecting another \\u token to begin the second half of a unicode surrogate pair",
      current.drop (if peek current = backslash then 2 else 1)⟩

/-- `decodeUnicodeCodePoint`. -/
def decodeUnicodeCodePoint (current : Str) : Except Complaint (Nat × Str) :=
  match decodeUnicodeEscapeSequence current with
  | .ok code => if 0xD800 ≤ code.1 ∧ code.1 ≤ 0xDBFF then decodeSurrogatePair code.1 code.2 else .ok code
  | .error e => .error e

theorem hexDigits_le {n unicode : Nat} {w : Str} {r : Nat × Str} (done : hexDigits n unicode w = .ok r) :
    r.2.length ≤ w.length := by
  induction n generalizing unicode w with
  | zero =>
    cases done
    exact Nat.le_refl _
  | succ n ih =>
    rw [hexDigits] at done
    split at done
    · exact (ih done).trans (drop_length_le w)
    · cases done

theorem decodeUnicodeEscapeSequence_le {w : Str} {r : Nat × Str} (done : decodeUnicodeEscapeSequence w = .ok r) :
    r.2.length ≤ w.length := by
  unfold decodeUnicodeEscapeSequence at done
  split at done
  · cases done
  · exact hexDigits_le done

theorem decodeUnicodeCodePoint_le {w : Str} {r : Nat × Str} (done : decodeUnicodeCodePoint w = .ok r) :
    r.2.length ≤ w.length := by
  unfold decodeUnicodeCodePoint at done
  split at done
  · next code first =>
    have short := decodeUnicodeEscapeSequence_le first
    split at done
    · unfold decodeSurrogatePair at done
      split_ifs at done
      split at done
      · next pair second =>
        cases done
        have less := decodeUnicodeEscapeSequence_le second
        rw [List.length_drop] at less
        exact (less.trans (Nat.sub_le _ 2)).trans short
      · cases done
    · cases done
      exact short
  · cases done

/-- The bytes that the letters behind a backslash stand for. -/
def unescape (escape : UInt8) : Option UInt8 :=
  if escape = quote then some quote
  else if escape = slash then some slash
  else if escape = backslash then some backslash
  else if escape = 0x62 then some 0x08
  else if escape = 0x66 then some 0x0C
  else if escape = 0x6E then some 0x0A
  else if escape = 0x72 then some 0x0D
  else if escape = 0x74 then some 0x09
  else none

/-- The loop of `decodeString`, between the quotes. -/
def decodeChars : Str → Except Complaint Str
  | [] => .ok []
  | c :: current =>
    if c = quote then .ok []
    else if c = backslash then
      match current with
      | [] => .error ⟨ascii "Empty escape sequence in string", []⟩
      | escape :: current =>
        if escape = 0x75 then
          match _point : decodeUnicodeCodePoint current with
          | .ok code => (decodeChars code.2).map (codePointToUTF8 code.1 ++ ·)
          | .error e => .error e
        else
          match unescape escape with
          | some b => (decodeChars current).map (b :: ·)
          | none => .error ⟨ascii "Bad escape sequence in string", current⟩
    else (decodeChars current).map (c :: ·)
termination_by current => current.length
decreasing_by
  · have less := decodeUnicodeCodePoint_le _point
    simp only [List.length_cons]
    omega
  · simp only [List.length_cons]
    omega
  · simp

/-- `decodeString`. -/
def decodeString (token : Token) : Except ErrorInfo Str :=
  match decodeChars (token.text.drop 1).dropLast with
  | .ok decoded => .ok decoded
  | .error e => .error ⟨token, e.message, some e.place⟩

/-! ## Values -/

def maxLargestUInt : Nat := 2 ^ 64 - 1

def maxInt : Nat := 2 ^ 31 - 1

/-- The loop of `decodeNumber`. There is no value where it calls `decodeDouble`. -/
def decodeDigits (maxIntegerValue : Nat) : Str → Nat → Option Nat
  | [], value => some value
  | c :: current, value =>
    if isDigit c then
      if maxIntegerValue / 10 ≤ value ∧
          (maxIntegerValue / 10 < value ∨ current ≠ [] ∨ maxIntegerValue % 10 < c.toNat - 48) then none
      else decodeDigits maxIntegerValue current (value * 10 + (c.toNat - 48))
    else none

section
variable {R : Type} (doubles : Doubles R)

/-- `decodeNumber` as far as it calls `decodeDouble`. -/
def decodeInteger (text : Str) : Option (Value R) :=
  if peek text = 0x2D then
    (decodeDigits (maxLargestInt + 1) (text.drop 1) 0).map fun value =>
      if value = maxLargestInt + 1 then .int minLargestInt else .int (-value)
  else
    (decodeDigits maxLargestUInt text 0).map fun value => if value ≤ maxInt then .int value else .uint value

/-- `decodeNumber`. -/
def decodeNumber (token : Token) : Except ErrorInfo (Value R) :=
  match decodeInteger token.text with
  | some v => .ok v
  | none =>
    match doubles.read token.text with
    | some r => .ok (.real r)
    | none => .error ⟨token, ascii "'" ++ token.text ++ ascii "' is not a number.", none⟩

/-- How reading ends without a value: by the exception, or not within the fuel. -/
inductive ReadFault where
  | stackLimit | unfinished
  deriving DecidableEq

/-- What `readValue` leaves. -/
structure Reading (R : Type) where
  error : Option ErrorInfo
  value : Value R
  rest : Str

/-- A value that is read from a token alone; after an error the current value stays. -/
def readScalar (current : Value R) (token : Token) (v : Except ErrorInfo (Value R)) : Reading R :=
  match v with
  | .ok v => ⟨none, v, token.rest⟩
  | .error e => ⟨some e, current, token.rest⟩

/-- `addErrorAndRecover`, where a value has been read so far. -/
def failed (message : Str) (token : Token) (value : Value R) : Reading R := ⟨some ⟨token, message, none⟩, value, token.rest⟩

/-- `stackLimit_g`. -/
def stackLimit : Nat := 1000

/-- `operator[]` with a name. -/
def memberAt (name : Str) (members : List (Str × Value R)) : Value R := (members.lookup name).getD .null

mutual

/-- `readValue` with `stackDepth_g` and the value that `currentValue()` has. -/
def readValue : Nat → Nat → Value R → Str → Except ReadFault (Reading R)
  | 0, _, _, _ => .error .unfinished
  | fuel + 1, stackDepth, current, rest =>
    if stackLimit ≤ stackDepth then .error .stackLimit
    else
      let token := skipCommentTokens rest
      match token.type with
      | .tokenObjectBegin => readObject fuel (stackDepth + 1) [] [] token.rest
      | .tokenArrayBegin =>
        let inside := skipSpaces token.rest
        if peek inside = closeBracket then .ok ⟨none, .array [], (readToken inside).rest⟩
        else readArray fuel (stackDepth + 1) [] inside
      | .tokenNumber => .ok (readScalar current token (decodeNumber doubles token))
      | .tokenString => .ok (readScalar current token ((decodeString token).map .string))
      | .tokenTrue => .ok (readScalar current token (.ok (.bool true)))
      | .tokenFalse => .ok (readScalar current token (.ok (.bool false)))
      | .tokenNull => .ok (readScalar current token (.ok .null))
      | _ => .ok (failed (ascii "Syntax error: value, object or array expected.") token current)

/-- The loop of `readObject`, with the members so far and the last name. -/
def readObject : Nat → Nat → List (Str × Value R) → Str → Str → Except ReadFault (Reading R)
  | 0, _, _, _, _ => .error .unfinished
  | fuel + 1, stackDepth, members, name, rest =>
    let token := skipCommentTokens rest
    if token.type = .tokenObjectEnd ∧ name = [] then .ok ⟨none, .object members, token.rest⟩
    else if token.type = .tokenString then
      match decodeString token with
      | .error e => .ok ⟨some e, .object members, token.rest⟩
      | .ok name =>
        let colon := readToken token.rest
        if colon.type = .tokenMemberSeparator then
          match readValue fuel stackDepth (memberAt name members) colon.rest with
          | .error fault => .error fault
          | .ok r =>
            let members := mapSet name r.value members
            if r.error.isSome then .ok ⟨r.error, .object members, r.rest⟩
            else
              let comma := readToken r.rest
              if comma.type ∈ [.tokenObjectEnd, .tokenArraySeparator, .tokenComment] then
                -- behind a comment any token passes for the comma
                let next := skipCommentTokens r.rest
                if next.type = .tokenObjectEnd then .ok ⟨none, .object members, next.rest⟩
                else readObject fuel stackDepth members name next.rest
              else .ok (failed (ascii "Missing ',' or '\x7d' in object declaration") comma (.object members))
        else .ok (failed (ascii "Missing ':' after object member name") colon (.object members))
    else .ok (failed (ascii "Missing '\x7d' or object member name") token (.object members))

/-- The loop of `readArray`, with the elements so far. -/
def readArray : Nat → Nat → List (Value R) → Str → Except ReadFault (Reading R)
  | 0, _, _, _ => .error .unfinished
  | fuel + 1, stackDepth, elements, rest =>
    match readValue fuel stackDepth .null rest with
    | .error fault => .error fault
    | .ok r =>
      let elements := elements ++ [r.value]
      if r.error.isSome then .ok ⟨r.error, .array elements, r.rest⟩
      else
        let token := skipCommentTokens r.rest
        if token.type = .tokenArrayEnd then .ok ⟨none, .array elements, token.rest⟩
        else if token.type = .tokenArraySeparator then readArray fuel stackDepth elements token.rest
        else .ok (failed (ascii "Missing ',' or ']' in array declaration") token (.array elements))

end

/-- `Reader::parse` of a document into a value. The copy of the document has the bytes behind it up to its capacity. -/
def parse (document slack : Str) (root : Value R) : Except ReadFault (Reading R) :=
  readValue doubles (2 * (document ++ slack).length + 1) 0 root (document ++ slack)

end

/-! ## Digits -/

def digitsValue (w : Str) (value : Nat) : Nat := w.foldl (fun value c => value * 10 + (c.toNat - 48)) value

theorem le_digitsValue (w : Str) (value : Nat) : value ≤ digitsValue w value := by
  induction w generalizing value with
  | nil => exact Nat.le_refl _
  | cons c w ih =>
    have later := ih (value * 10 + (c.toNat - 48))
    rw [digitsValue, List.foldl_cons]
    unfold digitsValue at later
    omega

/-- A number that does not exceed the largest one is decoded. -/
theorem decodeDigits_of_le {w : Str} {m value : Nat} (digits : ∀ b ∈ w, isDigit b = true) (large : 10 ≤ m)
    (small : digitsValue w value ≤ m) : decodeDigits m w value = some (digitsValue w value) := by
  induction w generalizing value with
  | nil => rfl
  | cons c w ih =>
    obtain ⟨digit, later⟩ := List.forall_mem_cons.mp digits
    have next : digitsValue (c :: w) value = digitsValue w (value * 10 + (c.toNat - 48)) := rfl
    rw [next] at small ⊢
    have bound := le_digitsValue w (value * 10 + (c.toNat - 48))
    have notLarge : ¬ (m / 10 ≤ value ∧ (m / 10 < value ∨ w ≠ [] ∨ m % 10 < c.toNat - 48)) := by
      rintro ⟨reached, above | more | last⟩
      · omega
      · obtain ⟨d, rest, rfl⟩ := List.exists_cons_of_ne_nil more
        have further := le_digitsValue rest ((value * 10 + (c.toNat - 48)) * 10 + (d.toNat - 48))
        have same : digitsValue (d :: rest) (value * 10 + (c.toNat - 48)) =
            digitsValue rest ((value * 10 + (c.toNat - 48)) * 10 + (d.toNat - 48)) := rfl
        rw [same] at small
        omega
      · omega
    rw [decodeDigits, if_pos digit, if_neg notLarge]
    exact ih later small

/-- What is decoded does not exceed the largest number. -/
theorem decodeDigits_le {w : Str} {m value n : Nat} (start : value ≤ m) (done : decodeDigits m w value = some n) : n ≤ m := by
  induction w generalizing value with
  | nil =>
    cases done
    exact start
  | cons c w ih =>
    rw [decodeDigits] at done
    split at done
    · next digit =>
      split at done
      · cases done
      · next small =>
        apply ih _ done
        have nine : c.toNat - 48 ≤ 9 := by
          simp only [isDigit, Bool.and_eq_true, decide_eq_true_eq, UInt8.le_iff_toNat_le] at digit
          have high : c.toNat ≤ 57 := digit.2
          omega
        simp only [not_and_or, not_or, not_le, not_lt] at small
        rcases small with below | ⟨most, _, last⟩
        · omega
        · omega
    · cases done

section
variable {R : Type} (doubles : Doubles R)

/-- An integer is within its bounds. -/
theorem decodeInteger_proper {text : Str} {v : Value R} (done : decodeInteger text = some v) :
    v.Proper doubles ∧ ((∃ n, v = .int n) ∨ ∃ n, v = .uint n) := by
  unfold decodeInteger at done
  split at done
  · obtain ⟨n, decoded, rfl⟩ := Option.map_eq_some_iff.mp done
    have bound := decodeDigits_le (Nat.zero_le _) decoded
    split
    · exact ⟨.int (Int.le_refl _) (by decide), .inl ⟨_, rfl⟩⟩
    · refine ⟨.int ?_ ?_, .inl ⟨_, rfl⟩⟩
      · unfold minLargestInt maxLargestInt at *
        omega
      · unfold maxLargestInt
        omega
  · obtain ⟨n, decoded, rfl⟩ := Option.map_eq_some_iff.mp done
    have bound := decodeDigits_le (Nat.zero_le _) decoded
    split
    · next small =>
      refine ⟨.int ?_ ?_, .inl ⟨_, rfl⟩⟩
      · unfold minLargestInt
        omega
      · unfold maxLargestInt maxInt at *
        omega
    · refine ⟨.uint ?_, .inr ⟨_, rfl⟩⟩
      unfold maxLargestUInt at bound
      omega

end

/-! ## Depths -/

section
variable {R : Type}

mutual

/-- How deeply a value is nested. -/
def Value.depth : Value R → Nat
  | .array elements => elementsDepth elements + 1
  | .object members => membersDepth members + 1
  | _ => 1

def elementsDepth : List (Value R) → Nat
  | [] => 0
  | v :: vs => max v.depth (elementsDepth vs)

def membersDepth : List (Str × Value R) → Nat
  | [] => 0
  | (_, v) :: ms => max v.depth (membersDepth ms)

end

theorem elementsDepth_le_iff {vs : List (Value R)} {n : Nat} : elementsDepth vs ≤ n ↔ ∀ v ∈ vs, v.depth ≤ n := by
  induction vs with
  | nil => simp [elementsDepth]
  | cons v vs ih => rw [elementsDepth, Nat.max_le, ih, List.forall_mem_cons]

theorem membersDepth_le_iff {ms : List (Str × Value R)} {n : Nat} : membersDepth ms ≤ n ↔ ∀ m ∈ ms, m.2.depth ≤ n := by
  induction ms with
  | nil => simp [membersDepth]
  | cons m ms ih => rw [membersDepth, Nat.max_le, ih, List.forall_mem_cons]

end

/-! ## Every document is read to an end -/

section
variable {R : Type} {doubles : Doubles R}

/-- The doubles that are read are printed as numbers, and exactly. -/
def Doubles.Exact (doubles : Doubles R) : Prop :=
  ∀ text r, doubles.read text = some r → NumberText (doubles.print r) ∧ doubles.read (doubles.print r) = some r

/-- A value that may stand at a depth. -/
def Value.Fits (doubles : Doubles R) (stackDepth : Nat) (v : Value R) : Prop :=
  v.Proper doubles ∧ stackDepth + v.depth ≤ stackLimit

/-- Reading gives up at the limit, or leaves a value that fits and no more of the document than there was. -/
def Ends (doubles : Doubles R) (stackDepth : Nat) (rest : Str) (x : Except ReadFault (Reading R)) : Prop :=
  x = .error .stackLimit ∨ ∃ r, x = .ok r ∧ r.rest.length ≤ rest.length ∧ r.value.Fits doubles stackDepth

theorem fits_array {stackDepth : Nat} {elements : List (Value R)} (shallow : stackDepth < stackLimit)
    (each : ∀ v ∈ elements, v.Fits doubles (stackDepth + 1)) : (Value.array elements).Fits doubles stackDepth := by
  refine ⟨.array fun v member => (each v member).1, ?_⟩
  have inner : elementsDepth elements ≤ stackLimit - (stackDepth + 1) := by
    apply elementsDepth_le_iff.mpr
    intro v member
    have bound := (each v member).2
    omega
  rw [Value.depth]
  omega

theorem fits_object {stackDepth : Nat} {members : List (Str × Value R)} (shallow : stackDepth < stackLimit)
    (sorted : members.Pairwise (·.1 < ·.1)) (each : ∀ m ∈ members, m.2.Fits doubles (stackDepth + 1)) :
    (Value.object members).Fits doubles stackDepth := by
  refine ⟨.object sorted fun m member => (each m member).1, ?_⟩
  have inner : membersDepth members ≤ stackLimit - (stackDepth + 1) := by
    apply membersDepth_le_iff.mpr
    intro m member
    have bound := (each m member).2
    omega
  rw [Value.depth]
  omega

theorem fits_memberAt {stackDepth : Nat} {members : List (Str × Value R)} (name : Str)
    (each : ∀ m ∈ members, m.2.Fits doubles stackDepth) (shallow : stackDepth < stackLimit) :
    (memberAt name members).Fits doubles stackDepth := by
  unfold memberAt
  cases found : members.lookup name with
  | none => exact ⟨.null, shallow⟩
  | some v =>
    obtain ⟨before, behind, rfl, _⟩ := List.lookup_eq_some_iff.mp found
    exact each (name, v) (by simp)

theorem fits_mapSet {stackDepth : Nat} {members : List (Str × Value R)} {name : Str} {v : Value R}
    (each : ∀ m ∈ members, m.2.Fits doubles stackDepth) (fits : v.Fits doubles stackDepth) :
    ∀ m ∈ mapSet name v members, m.2.Fits doubles stackDepth := by
  intro m member
  rcases mem_mapSet member with rfl | old
  · exact fits
  · exact each m old

theorem decodeNumber_fits {stackDepth : Nat} {token : Token} {v : Value R} (exact : doubles.Exact)
    (shallow : stackDepth < stackLimit) (done : decodeNumber doubles token = .ok v) : v.Fits doubles stackDepth := by
  unfold decodeNumber at done
  split at done
  · next w decoded =>
    cases done
    obtain ⟨proper, ⟨n, rfl⟩ | ⟨n, rfl⟩⟩ := decodeInteger_proper doubles decoded
    · exact ⟨proper, shallow⟩
    · exact ⟨proper, shallow⟩
  · split at done
    · next r reads =>
      cases done
      obtain ⟨number, again⟩ := exact _ _ reads
      exact ⟨.real number again, shallow⟩
    · cases done

/-- A reading that ends where it is. -/
theorem ends_reading {stackDepth : Nat} {rest left : Str} {error : Option ErrorInfo} {v : Value R}
    (less : left.length ≤ rest.length) (fits : v.Fits doubles stackDepth) :
    Ends doubles stackDepth rest (.ok ⟨error, v, left⟩) :=
  .inr ⟨_, rfl, less, fits⟩

theorem ends_scalar {stackDepth : Nat} {rest : Str} {current : Value R} {token : Token} {v : Except ErrorInfo (Value R)}
    (less : token.rest.length ≤ rest.length) (old : current.Fits doubles stackDepth)
    (fits : ∀ w, v = .ok w → w.Fits doubles stackDepth) : Ends doubles stackDepth rest (.ok (readScalar current token v)) := by
  cases v with
  | ok w => exact ends_reading less (fits w rfl)
  | error e => exact ends_reading less old

/-- `readValue` with so much fuel. -/
def ValueEnds (doubles : Doubles R) (fuel : Nat) : Prop :=
  ∀ (stackDepth : Nat) (current : Value R) (rest : Str), 2 * rest.length + 1 ≤ fuel →
    (stackDepth < stackLimit → current.Fits doubles stackDepth) →
    Ends doubles stackDepth rest (readValue doubles fuel stackDepth current rest)

/-- The loop of `readObject` with so much fuel. -/
def ObjectEnds (doubles : Doubles R) (fuel : Nat) : Prop :=
  ∀ (stackDepth : Nat) (members : List (Str × Value R)) (name rest : Str), 2 * rest.length + 2 ≤ fuel →
    stackDepth < stackLimit → members.Pairwise (·.1 < ·.1) → (∀ m ∈ members, m.2.Fits doubles (stackDepth + 1)) →
    Ends doubles stackDepth rest (readObject doubles fuel (stackDepth + 1) members name rest)

/-- The loop of `readArray` with so much fuel. -/
def ArrayEnds (doubles : Doubles R) (fuel : Nat) : Prop :=
  ∀ (stackDepth : Nat) (elements : List (Value R)) (rest : Str), 2 * rest.length + 2 ≤ fuel →
    stackDepth < stackLimit → (∀ v ∈ elements, v.Fits doubles (stackDepth + 1)) →
    Ends doubles stackDepth rest (readArray doubles fuel (stackDepth + 1) elements rest)

theorem Ends.mono {stackDepth : Nat} {rest more : Str} {x : Except ReadFault (Reading R)} (ends : Ends doubles stackDepth rest x)
    (less : rest.length ≤ more.length) : Ends doubles stackDepth more x := by
  rcases ends with stopped | ⟨r, done, short, fits⟩
  · exact .inl stopped
  · exact .inr ⟨r, done, short.trans less, fits⟩

theorem valueEnds_succ {fuel : Nat} (exact : doubles.Exact) (objects : ObjectEnds doubles fuel) (arrays : ArrayEnds doubles fuel) :
    ValueEnds doubles (fuel + 1) := by
  intro stackDepth current rest enough fits
  rw [readValue]
  split
  · exact .inl rfl
  next shallow =>
  have shallow : stackDepth < stackLimit := Nat.lt_of_not_le shallow
  have old := fits shallow
  have one := skipCommentTokens_lt rest
  have less : (skipCommentTokens rest).rest.length ≤ rest.length := one.trans (Nat.sub_le _ 1)
  dsimp only
  split
  · next begins =>
    have some := pos_of_skipped (w := rest) (by rw [begins]; decide)
    have ends := objects stackDepth [] [] (skipCommentTokens rest).rest (by omega) shallow List.Pairwise.nil
      (List.forall_mem_nil _)
    exact ends.mono less
  · next begins =>
    have some := pos_of_skipped (w := rest) (by rw [begins]; decide)
    have inside : (skipSpaces (skipCommentTokens rest).rest).length ≤ (skipCommentTokens rest).rest.length :=
      dropWhile_length_le _ _
    split
    · have bracket := readToken_lt (skipSpaces (skipCommentTokens rest).rest)
      apply ends_reading _ (fits_array shallow (List.forall_mem_nil _))
      omega
    · have ends := arrays stackDepth [] (skipSpaces (skipCommentTokens rest).rest) (by omega) shallow (List.forall_mem_nil _)
      exact ends.mono (inside.trans less)
  · exact ends_scalar less old fun w done => decodeNumber_fits exact shallow done
  · apply ends_scalar less old
    intro w done
    cases decoded : decodeString (skipCommentTokens rest) with
    | ok s =>
      rw [decoded] at done
      cases done
      exact ⟨.string s, shallow⟩
    | error e =>
      rw [decoded] at done
      cases done
  · apply ends_scalar less old
    rintro w ⟨⟩
    exact ⟨.bool true, shallow⟩
  · apply ends_scalar less old
    rintro w ⟨⟩
    exact ⟨.bool false, shallow⟩
  · apply ends_scalar less old
    rintro w ⟨⟩
    exact ⟨.null, shallow⟩
  · exact ends_reading less old

theorem objectEnds_succ {fuel : Nat} (values : ValueEnds doubles fuel) (objects : ObjectEnds doubles fuel) :
    ObjectEnds doubles (fuel + 1) := by
  intro stackDepth members name rest enough shallow sorted each
  have one := skipCommentTokens_lt rest
  have less : (skipCommentTokens rest).rest.length ≤ rest.length := one.trans (Nat.sub_le _ 1)
  have old := fits_object shallow sorted each
  rw [readObject]
  dsimp only
  split
  · exact ends_reading less old
  split
  · next string =>
    have some := pos_of_skipped (w := rest) (by rw [string]; decide)
    have two := readToken_lt (skipCommentTokens rest).rest
    split
    · exact ends_reading less old
    next next_name decoded =>
    split
    · next separator =>
      have more := pos_of_token (w := (skipCommentTokens rest).rest) (by rw [separator]; decide)
      have ends := values (stackDepth + 1) (memberAt next_name members) (readToken (skipCommentTokens rest).rest).rest (by omega)
        (fits_memberAt next_name each)
      rcases ends with stopped | ⟨r, done, short, fits⟩
      · rw [stopped]
        exact .inl rfl
      rw [done]
      dsimp only
      have kept : ∀ m ∈ mapSet next_name r.value members, m.2.Fits doubles (stackDepth + 1) := fits_mapSet each fits
      have ordered := mapSet_sorted (k := next_name) (v := r.value) sorted
      have now := fits_object shallow ordered kept
      have three := readToken_lt r.rest
      split
      · apply ends_reading _ now
        omega
      split
      · have four := skipCommentTokens_lt r.rest
        split
        · apply ends_reading _ now
          omega
        · apply (objects stackDepth _ next_name _ (by omega) shallow ordered kept).mono
          omega
      · apply ends_reading _ now
        omega
    · apply ends_reading _ old
      omega
  · exact ends_reading less old

theorem arrayEnds_succ {fuel : Nat} (values : ValueEnds doubles fuel) (arrays : ArrayEnds doubles fuel) :
    ArrayEnds doubles (fuel + 1) := by
  intro stackDepth elements rest enough shallow each
  rw [readArray]
  rcases values (stackDepth + 1) .null rest (by omega) fun deeper => ⟨.null, deeper⟩ with stopped | ⟨r, done, short, fits⟩
  · rw [stopped]
    exact .inl rfl
  rw [done]
  dsimp only
  have kept : ∀ v ∈ elements ++ [r.value], v.Fits doubles (stackDepth + 1) := by
    apply List.forall_mem_append.mpr ⟨each, _⟩
    exact List.forall_mem_singleton.mpr fits
  have now := fits_array shallow kept
  have one := skipCommentTokens_lt r.rest
  split
  · exact ends_reading short now
  split
  · apply ends_reading _ now
    omega
  split
  · next separator =>
    have some := pos_of_skipped (w := r.rest) (by rw [separator]; decide)
    apply (arrays stackDepth _ _ (by omega) shallow kept).mono
    omega
  · apply ends_reading _ now
    omega

/-- Twice the length of the document is enough fuel, whatever the document is. -/
theorem reads_end (exact : doubles.Exact) (fuel : Nat) :
    ValueEnds doubles fuel ∧ ObjectEnds doubles fuel ∧ ArrayEnds doubles fuel := by
  induction fuel with
  | zero =>
    refine ⟨?_, ?_, ?_⟩
    · intro _ _ _ none
      exact absurd none (Nat.not_succ_le_zero _)
    · intro _ _ _ _ none
      exact absurd none (Nat.not_succ_le_zero _)
    · intro _ _ _ none
      exact absurd none (Nat.not_succ_le_zero _)
  | succ fuel ih =>
    obtain ⟨values, objects, arrays⟩ := ih
    exact ⟨valueEnds_succ exact objects arrays, objectEnds_succ values objects, arrayEnds_succ values arrays⟩

end

end VideoDetector.Json
