import VideoDetector.Ipsearch.CatchArp

/-!
# Addresses in the padding of a packet (`ipsearch/sendarp.c`, `ipsearch/catcharp.c`)

`Sendarp` prints address, netmask and gateway as eight hexadecimal digits each, and `ptr2ip` and `ptr2ipint`
read such digits. Both read any other character as well, as a number of its own.

`address_codec_iff` says that addresses come back, and for which characters the text of `ptr2ip` fits its field.
-/

namespace VideoDetector.Ipsearch
set_option autoImplicit false
open Lib

/-! ## Printing -/

/-- Four bytes in network order. -/
structure Address where
  first : UInt8
  second : UInt8
  third : UInt8
  fourth : UInt8
  deriving DecidableEq

namespace Address

def bytes (a : Address) : List UInt8 := [a.first, a.second, a.third, a.fourth]

/-- The dotted text. -/
def dotted (a : Address) : List UInt8 :=
  printed a.first.toNat ++ 46 :: printed a.second.toNat ++ 46 :: printed a.third.toNat ++ 46 :: printed a.fourth.toNat

end Address

/-- A digit of `%x`. -/
def hexDigit (n : Nat) : UInt8 := UInt8.ofNat (if n < 10 then 0x30 + n else 0x57 + n)

/-- `%.2x`. -/
def hexByte (b : UInt8) : List UInt8 := [hexDigit (b.toNat / 16), hexDigit (b.toNat % 16)]

/-- `%.2x%.2x%.2x%.2x`. -/
def hexAddress (a : Address) : List UInt8 := a.bytes.flatMap hexByte

/-- `zenres,3,`. -/
def zenres : List UInt8 := [0x7A, 0x65, 0x6E, 0x72, 0x65, 0x73]

/-- The text that `Sendarp` prints into the padding. -/
def resText (ipaddr netmask gateway : Address) : List UInt8 :=
  zenres ++ 44 :: [0x33] ++ 44 :: hexAddress ipaddr ++ 44 :: hexAddress netmask ++ 44 :: hexAddress gateway

/-! ## Reading -/

/-- The bytes that `ptr2ipint` stores for the eight characters it reads. -/
def ptr2ipint (inbuf : List UInt8) : List UInt8 :=
  [UInt8.ofNat (octet inbuf 0), UInt8.ofNat (octet inbuf 1), UInt8.ofNat (octet inbuf 2), UInt8.ofNat (octet inbuf 3)]

/-- A digit in upper case as one in lower case. -/
def toLower (c : UInt8) : UInt8 := if 0x41 ≤ c ∧ c ≤ 0x46 then c + 0x20 else c

/-- The padding has room for the text with its zero, and what the tokens behind the first two are read as, with the
digits in either case and whatever stands behind the zero, are the addresses. -/
structure ReadsBack (ipaddr netmask gateway : Address) : Prop where
  fits : (resText ipaddr netmask gateway).length + 1 ≤ 42
  tokens : ∀ text behind, text.map toLower = resText ipaddr netmask gateway →
    ∃ t₁ t₂ t₃, (strtoks 44 6 (text ++ 0 :: behind)).drop 2 = [t₁, t₂, t₃] ∧
      (∀ t ∈ [t₁, t₂, t₃], (cString t).length = 8) ∧
      [t₁, t₂, t₃].map ptr2ip = [ipaddr.dotted, netmask.dotted, gateway.dotted] ∧
      [t₁, t₂, t₃].map ptr2ipint = [ipaddr.bytes, netmask.bytes, gateway.bytes]

/-! ## Widths -/

/-- What a character counts for: a hexadecimal digit as the digit, any other as a signed character. -/
def charValue (c : UInt8) : Int := if isHex c then digitValue c else (c.toNat : Int).bmod 256

/-- The characters that `%d` takes for a number of at most four digits. -/
def width (v : Int) : Nat :=
  (if v < 0 then 1 else 0) + if v.natAbs < 10 then 1 else if v.natAbs < 100 then 2 else if v.natAbs < 1000 then 3 else 4

/-- What two characters of a token count for. -/
def pairValue (token : List UInt8) (i : Nat) : Int :=
  16 * charValue (token.getD (2 * i) 0) + charValue (token.getD (2 * i + 1) 0)

/-- The four numbers of a token take at most twelve characters. -/
def Narrow (token : List UInt8) : Prop :=
  width (pairValue token 0) + width (pairValue token 1) + width (pairValue token 2) + width (pairValue token 3) ≤ 12

instance (token : List UInt8) : Decidable (Narrow token) := inferInstanceAs (Decidable (_ ≤ _))

theorem charValue_spec (c : UInt8) : -128 ≤ charValue c ∧ charValue c < 128 ∧ (digitValue c : Int).bmod 4294967296 = charValue c := by
  have all : ∀ n : Fin 256, -128 ≤ charValue (UInt8.ofNat n) ∧ charValue (UInt8.ofNat n) < 128 ∧
      (digitValue (UInt8.ofNat n) : Int).bmod 4294967296 = charValue (UInt8.ofNat n) := by decide +kernel
  have value := all ⟨c.toNat, c.toNat_lt⟩
  rwa [UInt8.ofNat_toNat] at value

/-- The number that is printed for two characters. -/
theorem octet_bmod (token : List UInt8) (i : Nat) : (octet token i : Int).bmod 4294967296 = pairValue token i := by
  obtain ⟨low, high, same⟩ := charValue_spec (token.getD (2 * i) 0)
  obtain ⟨low', high', same'⟩ := charValue_spec (token.getD (2 * i + 1) 0)
  unfold octet pairValue
  push_cast
  rw [Int.bmod_def] at same same' ⊢
  omega

theorem pairValue_bounds (token : List UInt8) (i : Nat) : (pairValue token i).natAbs < 10000 := by
  obtain ⟨low, high, _⟩ := charValue_spec (token.getD (2 * i) 0)
  obtain ⟨low', high', _⟩ := charValue_spec (token.getD (2 * i + 1) 0)
  unfold pairValue
  omega

theorem toDigits_length {n : Nat} (small : n < 10000) :
    (Nat.toDigits 10 n).length = if n < 10 then 1 else if n < 100 then 2 else if n < 1000 then 3 else 4 := by
  have some : 0 < (Nat.toDigits 10 n).length := Nat.length_toDigits_pos
  have one := Nat.length_toDigits_le_iff (b := 10) (n := n) (k := 1) (by omega) (by omega)
  have two := Nat.length_toDigits_le_iff (b := 10) (n := n) (k := 2) (by omega) (by omega)
  have three := Nat.length_toDigits_le_iff (b := 10) (n := n) (k := 3) (by omega) (by omega)
  have four := Nat.length_toDigits_le_iff (b := 10) (n := n) (k := 4) (by omega) (by omega)
  grind

theorem printed_length {n : Nat} {v : Int} (value : (n : Int).bmod 4294967296 = v) :
    (printed n).length = (if v < 0 then 1 else 0) + (Nat.toDigits 10 v.natAbs).length := by
  have unfolded : printed n = ((if v < 0 then ['-'] else []) ++ Nat.toDigits 10 v.natAbs).map fun c => UInt8.ofNat c.toNat := by
    rw [← value]
    rfl
  rw [unfolded, List.length_map, List.length_append]
  by_cases negative : v < 0
  · rw [if_pos negative, if_pos negative, List.length_singleton]
  · rw [if_neg negative, if_neg negative, List.length_nil]

/-- The text of two characters is as wide as the number they count for. -/
theorem printed_octet_length (token : List UInt8) (i : Nat) : (printed (octet token i)).length = width (pairValue token i) := by
  rw [printed_length (octet_bmod token i), toDigits_length (pairValue_bounds token i), width]

theorem ptr2ip_length (token : List UInt8) : (ptr2ip token).length =
    width (pairValue token 0) + width (pairValue token 1) + width (pairValue token 2) + width (pairValue token 3) + 3 := by
  rw [ptr2ip, List.length_append, List.length_cons, List.length_append, List.length_cons, List.length_append, List.length_cons,
    printed_octet_length, printed_octet_length, printed_octet_length, printed_octet_length]
  generalize width (pairValue token 0) = a, width (pairValue token 1) = b, width (pairValue token 2) = c, width (pairValue token 3) = d
  omega

/-! ## Round trip -/

/-- A character that is a digit in either case is read as the digit. -/
theorem digitValue_hexDigit {c : UInt8} {n : Nat} (small : n < 16) (digit : toLower c = hexDigit n) :
    digitValue c = n ∧ c ≠ 0 ∧ c ≠ 44 := by
  have all : ∀ (n : Fin 16) (c : Fin 256), toLower (UInt8.ofNat c) = hexDigit n →
      digitValue (UInt8.ofNat c) = n ∧ UInt8.ofNat c ≠ 0 ∧ UInt8.ofNat c ≠ 44 := by decide +kernel
  have value := all ⟨n, small⟩ ⟨c.toNat, c.toNat_lt⟩
  rw [UInt8.ofNat_toNat] at value
  exact value digit

/-- A text has the zeros and commas of the same text in lower case. -/
theorem plain_of_lower {t s : List UInt8} (lower : t.map toLower = s) (plain : (0 : UInt8) ∉ s ∧ (44 : UInt8) ∉ s) :
    ∀ c ∈ t, c ≠ 0 ∧ c ≠ 44 := by
  intro c member
  have there := List.mem_map_of_mem (f := toLower) member
  rw [lower] at there
  constructor
  · rintro rfl
    exact plain.1 there
  · rintro rfl
    exact plain.2 there

theorem lower_comma {c : UInt8} (comma : toLower c = 44) : c = 44 := by
  have all : ∀ c : Fin 256, toLower (UInt8.ofNat c) = 44 → UInt8.ofNat c = 44 := by decide +kernel
  have value := all ⟨c.toNat, c.toNat_lt⟩
  rw [UInt8.ofNat_toNat] at value
  exact value comma

/-- What the eight digits of an address are read as. -/
structure Digits (t : List UInt8) (a : Address) : Prop where
  length : t.length = 8
  plain : ∀ c ∈ t, c ≠ 0 ∧ c ≠ 44
  octet0 : octet t 0 = a.first.toNat
  octet1 : octet t 1 = a.second.toNat
  octet2 : octet t 2 = a.third.toNat
  octet3 : octet t 3 = a.fourth.toNat

/-- Two digits are read as the byte. -/
theorem octet_hexByte {h l : UInt8} {b : UInt8} (high : toLower h = hexDigit (b.toNat / 16)) (low : toLower l = hexDigit (b.toNat % 16)) :
    (digitValue h * 16 + digitValue l) % 4294967296 = b.toNat := by
  have byte := b.toNat_lt
  rw [(digitValue_hexDigit (by omega) high).1, (digitValue_hexDigit (by omega) low).1]
  omega

theorem digits_of_lower {t : List UInt8} {a : Address} (lower : t.map toLower = hexAddress a) : Digits t a := by
  obtain ⟨b₁, b₂, b₃, b₄⟩ := a
  have small : ∀ b : UInt8, b.toNat / 16 < 16 ∧ b.toNat % 16 < 16 := fun b => by
    have byte := b.toNat_lt
    omega
  have eight : t.length = 8 := by
    rw [← List.length_map toLower, lower]
    rfl
  match t, eight with
  | [c₀, c₁, c₂, c₃, c₄, c₅, c₆, c₇], _ =>
    simp only [List.map_cons, List.map_nil, hexAddress, Address.bytes, hexByte, List.flatMap_cons, List.flatMap_nil,
      List.cons_append, List.nil_append, List.cons.injEq, and_true] at lower
    obtain ⟨d₀, d₁, d₂, d₃, d₄, d₅, d₆, d₇⟩ := lower
    refine ⟨rfl, ?_, octet_hexByte d₀ d₁, octet_hexByte d₂ d₃, octet_hexByte d₄ d₅, octet_hexByte d₆ d₇⟩
    simp only [List.forall_mem_cons]
    exact ⟨(digitValue_hexDigit (small _).1 d₀).2, (digitValue_hexDigit (small _).2 d₁).2, (digitValue_hexDigit (small _).1 d₂).2,
      (digitValue_hexDigit (small _).2 d₃).2, (digitValue_hexDigit (small _).1 d₄).2, (digitValue_hexDigit (small _).2 d₅).2,
      (digitValue_hexDigit (small _).1 d₆).2, (digitValue_hexDigit (small _).2 d₇).2, fun c member => absurd member List.not_mem_nil⟩

namespace Digits
variable {t : List UInt8} {a : Address}

/-- What stands behind the digits is not read. -/
theorem octet_append (digits : Digits t a) (more : List UInt8) {i : Nat} (inside : i < 4) : octet (t ++ more) i = octet t i := by
  have eight := digits.length
  unfold octet
  rw [List.getD_append _ _ _ _ (by omega), List.getD_append _ _ _ _ (by omega)]

theorem ptr2ip_eq (digits : Digits t a) (more : List UInt8) : ptr2ip (t ++ more) = a.dotted := by
  rw [ptr2ip, digits.octet_append more (by decide), digits.octet_append more (by decide), digits.octet_append more (by decide),
    digits.octet_append more (by decide), digits.octet0, digits.octet1, digits.octet2, digits.octet3]
  rfl

theorem ptr2ipint_eq (digits : Digits t a) (more : List UInt8) : ptr2ipint (t ++ more) = a.bytes := by
  rw [ptr2ipint, digits.octet_append more (by decide), digits.octet_append more (by decide), digits.octet_append more (by decide),
    digits.octet_append more (by decide), digits.octet0, digits.octet1, digits.octet2, digits.octet3]
  simp only [UInt8.ofNat_toNat]
  rfl

theorem nonempty (digits : Digits t a) : t ≠ [] := by
  rintro rfl
  cases digits.length

theorem cString_length (digits : Digits t a) (behind : List UInt8) : (cString (t ++ 0 :: behind)).length = 8 := by
  have whole : cString (t ++ 0 :: behind) = t := by
    rw [cString, List.takeWhile_append_of_pos fun c member => by simpa using (digits.plain c member).1]
    simp
  rw [whole, digits.length]

end Digits

theorem resText_length (ipaddr netmask gateway : Address) : (resText ipaddr netmask gateway).length = 35 := rfl

/-- **The addresses come back.** -/
theorem readsBack (ipaddr netmask gateway : Address) : ReadsBack ipaddr netmask gateway := by
  refine ⟨by rw [resText_length]; omega, fun text behind lower => ?_⟩
  obtain ⟨text, last, rfl, lower, lower₃⟩ := List.map_eq_append_iff.mp lower
  obtain ⟨text, middle, rfl, lower, lower₂⟩ := List.map_eq_append_iff.mp lower
  obtain ⟨text, early, rfl, lower, lower₁⟩ := List.map_eq_append_iff.mp lower
  obtain ⟨word, kind, rfl, wordLower, lower₀⟩ := List.map_eq_append_iff.mp lower
  obtain ⟨c₀, kind, rfl, comma₀, kindLower⟩ := List.map_eq_cons_iff.mp lower₀
  obtain ⟨c₁, t₁, rfl, comma₁, digits₁⟩ := List.map_eq_cons_iff.mp lower₁
  obtain ⟨c₂, t₂, rfl, comma₂, digits₂⟩ := List.map_eq_cons_iff.mp lower₂
  obtain ⟨c₃, t₃, rfl, comma₃, digits₃⟩ := List.map_eq_cons_iff.mp lower₃
  replace digits₁ := digits_of_lower digits₁
  replace digits₂ := digits_of_lower digits₂
  replace digits₃ := digits_of_lower digits₃
  have wordPlain := plain_of_lower wordLower (by decide)
  have kindPlain := plain_of_lower kindLower (by decide)
  have wordSome : word ≠ [] := by
    rintro rfl
    cases wordLower
  have kindSome : kind ≠ [] := by
    rintro rfl
    cases kindLower
  rw [lower_comma comma₀, lower_comma comma₁, lower_comma comma₂, lower_comma comma₃]
  have tokens : (strtoks 44 6 (word ++ 44 :: kind ++ 44 :: t₁ ++ 44 :: t₂ ++ 44 :: t₃ ++ 0 :: behind)).drop 2 =
      [t₁ ++ 0 :: (t₂ ++ 44 :: (t₃ ++ 0 :: behind)), t₂ ++ 0 :: (t₃ ++ 0 :: behind), t₃ ++ 0 :: behind] := by
    simp only [List.append_assoc, List.cons_append]
    rw [strtoks_cons (strtok_token wordSome wordPlain (.inr rfl) _), if_pos rfl,
      strtoks_cons (strtok_token kindSome kindPlain (.inr rfl) _), if_pos rfl,
      strtoks_cons (strtok_token digits₁.nonempty digits₁.plain (.inr rfl) _), if_pos rfl,
      strtoks_cons (strtok_token digits₂.nonempty digits₂.plain (.inr rfl) _), if_pos rfl,
      strtoks_cons (strtok_token digits₃.nonempty digits₃.plain (.inl rfl) _), if_neg (by decide),
      strtoks_none (strtok_zero (by decide) _)]
    rfl
  refine ⟨_, _, _, tokens, ?_, ?_, ?_⟩
  · simp only [List.forall_mem_cons]
    exact ⟨digits₁.cString_length _, digits₂.cString_length _, digits₃.cString_length _, fun t none => absurd none List.not_mem_nil⟩
  · rw [List.map_cons, List.map_cons, List.map_singleton, digits₁.ptr2ip_eq, digits₂.ptr2ip_eq, digits₃.ptr2ip_eq]
  · rw [List.map_cons, List.map_cons, List.map_singleton, digits₁.ptr2ipint_eq, digits₂.ptr2ipint_eq, digits₃.ptr2ipint_eq]

/-- **The address codec**: any three addresses come back, and the text of a token of any eight characters fits its field
exactly if its four numbers are narrow enough. -/
theorem address_codec_iff (ipaddr netmask gateway : Address) (token : Fin 8 → UInt8) :
    (ReadsBack ipaddr netmask gateway ∧ (ptr2ip (List.ofFn token)).length ≤ 15) ↔ Narrow (List.ofFn token) := by
  rw [and_iff_right (readsBack ipaddr netmask gateway), ptr2ip_length, Narrow]
  omega

/-- Eight letters `z` are printed as `2074.2074.2074.2074`, and eight characters 128 as `-2176.-2176.-2176.-2176`. -/
theorem letters_overrun :
    ((ptr2ip (List.ofFn fun _ : Fin 8 => 0x7A)).length = 19 ∧ (ptr2ip (List.ofFn fun _ : Fin 8 => 0x80)).length = 23) ∧
      ¬ (ReadsBack ⟨192, 168, 0, 1⟩ ⟨255, 255, 255, 0⟩ ⟨192, 168, 0, 254⟩ ∧ (ptr2ip (List.ofFn fun _ : Fin 8 => 0x7A)).length ≤ 15) := by
  have letters : (ptr2ip (List.ofFn fun _ : Fin 8 => 0x7A)).length = 19 := by decide +kernel
  refine ⟨⟨letters, by decide +kernel⟩, fun codec => ?_⟩
  rw [letters] at codec
  exact absurd codec.2 (by decide)

end VideoDetector.Ipsearch
