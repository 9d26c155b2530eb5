import Mathlib.Data.List.Infix
import Mathlib.Data.List.TakeWhile
import VideoDetector.Lib.Memory

/-!
# C strings

A C string is the part of some bytes before the first zero; what lies behind an array is read as part of
it when there is none. `strstr` looks for a string in another and `strtok` takes the next token, in bytes
that may go on behind the string; `strtoks` are the tokens of successive calls. `cStringAt` is the string at an address.
-/

namespace VideoDetector.Lib
set_option autoImplicit false

/-- The string that bytes begin with. -/
def cString (bs : List UInt8) : List UInt8 := bs.takeWhile (· != 0)

theorem cString_append (bs more : List UInt8) : cString bs <+: cString (bs ++ more) := by
  unfold cString
  rw [List.takeWhile_append]
  split
  next whole => exact (List.takeWhile_prefix _).trans (List.prefix_append _ _)
  next => exact List.prefix_refl _

theorem cString_of_nonzero {bs : List UInt8} (nonzero : (0 : UInt8) ∉ bs) : cString bs = bs := by
  unfold cString
  rw [List.takeWhile_eq_self_iff]
  intro b member
  rw [bne_iff_ne]
  exact fun zero => nonzero (zero ▸ member)

theorem cString_nonzero (bs : List UInt8) : (0 : UInt8) ∉ cString bs := by
  intro member
  have nonzero := List.mem_takeWhile_imp member
  exact absurd nonzero (by decide)

/-- A string is shorter than a number of bytes exactly if one of them is zero. -/
theorem cString_length_lt {bs : List UInt8} {n : Nat} (long : n ≤ bs.length) :
    (cString bs).length < n ↔ (0 : UInt8) ∈ bs.take n := by
  induction bs generalizing n with
  | nil =>
    rw [List.length_nil, Nat.le_zero] at long
    subst long
    simp
  | cons b bs ih =>
    cases n with
    | zero => simp
    | succ n =>
      rw [cString, List.takeWhile_cons, List.take_succ_cons, List.mem_cons]
      by_cases zero : b = 0
      · simp [zero]
      · have nonzero : (b != 0) = true := bne_iff_ne.mpr zero
        rw [if_pos nonzero, List.length_cons, Nat.succ_lt_succ_iff, or_iff_right fun same => zero same.symm]
        exact ih (Nat.le_of_succ_le_succ long)

/-- `strstr` finds the second string in the first. -/
def strstr (bs needle : List UInt8) : Bool := (cString bs).tails.any needle.isPrefixOf

theorem strstr_iff {bs needle : List UInt8} : strstr bs needle = true ↔ needle <:+: cString bs := by
  rw [strstr, List.any_eq_true, List.infix_iff_prefix_suffix]
  constructor
  · rintro ⟨tail, member, begins⟩
    exact ⟨tail, List.isPrefixOf_iff_prefix.mp begins, (List.mem_tails _ _).mp member⟩
  · rintro ⟨tail, begins, ends⟩
    exact ⟨tail, (List.mem_tails _ _).mpr ends, List.isPrefixOf_iff_prefix.mpr begins⟩

theorem strstr_singleton {bs : List UInt8} {b : UInt8} : strstr bs [b] = true ↔ b ∈ cString bs := by
  rw [strstr_iff, List.singleton_infix_iff]

theorem strstr_append {bs needle : List UInt8} (found : strstr bs needle = true) (more : List UInt8) :
    strstr (bs ++ more) needle = true :=
  strstr_iff.mpr ((strstr_iff.mp found).trans (cString_append bs more).isInfix)

/-! ## Tokens -/

/-- `strtok`: the bytes from the next token on, which now ends with a zero, and the bytes from which the next call
goes on. -/
def strtok (delim : UInt8) (bs : List UInt8) : Option (List UInt8 × List UInt8) :=
  let bs := bs.dropWhile (· == delim)
  let token := bs.takeWhile fun b => b != 0 && b != delim
  if token = [] then none
  else
    match bs.drop token.length with
    | [] => some (token, [])
    | b :: rest => some (token ++ 0 :: rest, if b = delim then rest else 0 :: rest)

/-- What a call of `strtok` that finds a token finds. -/
theorem strtok_some {delim : UInt8} {bs tmp rest : List UInt8} (found : strtok delim bs = some (tmp, rest)) :
    ∃ token, token ≠ [] ∧ (bs.dropWhile (· == delim)).takeWhile (fun b => b != 0 && b != delim) = token ∧
      ((bs.dropWhile (· == delim) = token ∧ tmp = token ∧ rest = []) ∨
        ∃ b tail, bs.dropWhile (· == delim) = token ++ b :: tail ∧ tmp = token ++ 0 :: tail ∧
          rest = if b = delim then tail else 0 :: tail) := by
  unfold strtok at found
  simp only at found
  split at found
  next => cases found
  next some =>
    have whole := List.prefix_iff_eq_append.mp (List.takeWhile_prefix (fun b => b != 0 && b != delim)
      (l := bs.dropWhile (· == delim)))
    refine ⟨_, some, rfl, ?_⟩
    split at found
    next none =>
      cases found
      rw [none, List.append_nil] at whole
      exact .inl ⟨whole.symm, rfl, rfl⟩
    next b tail more =>
      cases found
      rw [more] at whole
      exact .inr ⟨b, tail, whole.symm, rfl, rfl⟩

/-- A token that ends inside the bytes is the same whatever follows them. -/
theorem strtok_closed {delim b : UInt8} {bs token tail : List UInt8} (nonempty : token ≠ [])
    (whole : bs.dropWhile (· == delim) = token ++ b :: tail)
    (takes : (bs.dropWhile (· == delim)).takeWhile (fun b => b != 0 && b != delim) = token) (more : List UInt8) :
    strtok delim (bs ++ more) = some (token ++ 0 :: tail ++ more, (if b = delim then tail else 0 :: tail) ++ more) := by
  have drops : (bs ++ more).dropWhile (· == delim) = token ++ b :: (tail ++ more) := by
    rw [List.dropWhile_append, whole, if_neg (by simp), List.append_assoc, List.cons_append]
  rw [whole] at takes
  have short : ((token ++ b :: tail).takeWhile fun b => b != 0 && b != delim).length ≠ (token ++ b :: tail).length := by
    rw [takes]
    simp
  have takes' : (token ++ b :: (tail ++ more)).takeWhile (fun b => b != 0 && b != delim) = token := by
    rw [← List.cons_append, ← List.append_assoc, List.takeWhile_append, if_neg short, takes]
  unfold strtok
  simp only [drops, takes', if_neg nonempty, List.drop_left]
  by_cases comma : b = delim
  · simp [comma]
  · simp [comma]

theorem strtok_append {delim : UInt8} {bs tmp rest : List UInt8} (found : strtok delim bs = some (tmp, rest)) (some : rest ≠ [])
    (more : List UInt8) : strtok delim (bs ++ more) = Option.some (tmp ++ more, rest ++ more) := by
  obtain ⟨token, nonempty, takes, ⟨_, _, none⟩ | ⟨b, tail, whole, rfl, rfl⟩⟩ := strtok_some found
  · exact absurd none some
  · exact strtok_closed nonempty whole takes more

/-- A token that goes on to the end of the bytes may only become longer. -/
theorem strtok_append_prefix {delim : UInt8} {bs tmp rest : List UInt8} (found : strtok delim bs = some (tmp, rest))
    (more : List UInt8) : ∃ tmp' rest', strtok delim (bs ++ more) = some (tmp ++ tmp', rest') := by
  obtain ⟨token, nonempty, takes, ⟨whole, rfl, _⟩ | ⟨b, tail, whole, rfl, rfl⟩⟩ := strtok_some found
  · have drops : (bs ++ more).dropWhile (· == delim) = tmp ++ more := by
      rw [List.dropWhile_append, whole, if_neg (by simpa using nonempty)]
    rw [whole] at takes
    have takes' : (tmp ++ more).takeWhile (fun b => b != 0 && b != delim) =
        tmp ++ more.takeWhile fun b => b != 0 && b != delim := by
      rw [List.takeWhile_append, if_pos (by rw [takes])]
    unfold strtok
    simp only [drops, takes']
    rw [if_neg (by simp [nonempty])]
    split
    next => exact ⟨_, _, rfl⟩
    next b tail _ => exact ⟨_, _, by rw [List.append_assoc]⟩
  · exact ⟨_, _, strtok_closed nonempty whole takes more⟩

/-- A token before a zero or a delimiter. -/
theorem strtok_token {delim b : UInt8} {token : List UInt8} (nonempty : token ≠ []) (plain : ∀ c ∈ token, c ≠ 0 ∧ c ≠ delim)
    (stop : b = 0 ∨ b = delim) (rest : List UInt8) :
    strtok delim (token ++ b :: rest) = some (token ++ 0 :: rest, if b = delim then rest else 0 :: rest) := by
  have begins : (token ++ [b]).dropWhile (· == delim) = token ++ b :: [] := by
    obtain ⟨c, more, rfl⟩ := List.exists_cons_of_ne_nil nonempty
    exact List.dropWhile_cons_of_neg (by simpa using (plain c List.mem_cons_self).2)
  have ends : (token ++ b :: []).takeWhile (fun c => c != 0 && c != delim) = token := by
    rw [List.takeWhile_append_of_pos fun c member => by simpa using plain c member, List.takeWhile_cons_of_neg, List.append_nil]
    rcases stop with rfl | rfl
    · simp
    · simp
  have closed := strtok_closed nonempty begins (by rw [begins, ends]) rest
  rw [List.append_assoc, List.singleton_append, List.append_assoc] at closed
  rw [closed]
  split
  · rfl
  · rfl

/-- There is no token before a zero. -/
theorem strtok_zero {delim : UInt8} (some : delim ≠ 0) (rest : List UInt8) : strtok delim (0 :: rest) = none := by
  have begins : (0 :: rest).dropWhile (· == delim) = 0 :: rest := List.dropWhile_cons_of_neg (by simpa using some.symm)
  unfold strtok
  simp only [begins]
  rfl

/-- What successive calls of `strtok` point to, at most so many. -/
def strtoks (delim : UInt8) : Nat → List UInt8 → List (List UInt8)
  | 0, _ => []
  | n + 1, bs =>
    match strtok delim bs with
    | none => []
    | some (tmp, rest) => tmp :: strtoks delim n rest

theorem strtoks_cons {delim : UInt8} {bs tmp rest : List UInt8} (found : strtok delim bs = some (tmp, rest)) (n : Nat) :
    strtoks delim (n + 1) bs = tmp :: strtoks delim n rest := by
  rw [strtoks, found]

theorem strtoks_none {delim : UInt8} {bs : List UInt8} (none : strtok delim bs = Option.none) (n : Nat) : strtoks delim n bs = [] := by
  cases n with
  | zero => rfl
  | succ n => rw [strtoks, none]

/-! ## Strings in memory -/

/-- The string at an address, if it ends within so many bytes. -/
def cStringAt (m : Mem) (a n : Nat) : List UInt8 := cString (bytesAt m a n)

/-- There is a string at an address. -/
structure HasString (m : Mem) (a : Nat) (s : List UInt8) : Prop where
  bytes : bytesAt m a (s.length + 1) = s ++ [0]
  nonzero : (0 : UInt8) ∉ s

theorem HasString.cStringAt {m : Mem} {a : Nat} {s : List UInt8} (has : HasString m a s) {n : Nat} (short : s.length < n) :
    cStringAt m a n = s := by
  obtain ⟨k, rfl⟩ := Nat.exists_eq_add_of_lt short
  rw [Lib.cStringAt, show s.length + k + 1 = s.length + 1 + k by omega, bytesAt_add, has.bytes, cString, List.append_assoc,
    List.takeWhile_append_of_pos (List.takeWhile_eq_self_iff.mp (cString_of_nonzero has.nonzero))]
  simp

/-- A string that is stored with its zero. -/
theorem hasString_store (m : Mem) (a : Nat) {s : List UInt8} (nonzero : (0 : UInt8) ∉ s) : HasString (storeBytes m a (s ++ [0])) a s := by
  refine ⟨?_, nonzero⟩
  have stored := bytesAt_storeBytes m a (s ++ [0])
  rwa [List.length_append, List.length_singleton] at stored

/-- Bytes that are stored behind a string leave it. -/
theorem HasString.store {m : Mem} {a : Nat} {s : List UInt8} (has : HasString m a s) {b : Nat} (behind : a + s.length + 1 ≤ b)
    (bs : List UInt8) : HasString (storeBytes m b bs) a s := by
  refine ⟨?_, has.nonzero⟩
  rw [← has.bytes]
  exact bytesAt_congr fun k inside => storeBytes_outside (.inl (by omega))

end VideoDetector.Lib
