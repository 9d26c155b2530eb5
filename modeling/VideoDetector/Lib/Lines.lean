import Mathlib.Data.List.Basic

/-!
# Lines of a text

A text is a list of bytes, and its lines are those up to and including each newline; the last one may lack
it. `fgetsLines` is what successive calls of `fgets` read into a buffer of a given size. `Lines` says that a
list of byte strings is the lines of a text.
-/

namespace VideoDetector.Lib
set_option autoImplicit false

/-- The lines of a text, after the bytes of a line that has begun. -/
def linesFrom : List UInt8 → List UInt8 → List (List UInt8)
  | line, [] => if line = [] then [] else [line]
  | line, b :: bs => if b = 10 then (line ++ [b]) :: linesFrom [] bs else linesFrom (line ++ [b]) bs

def linesOf (text : List UInt8) : List (List UInt8) := linesFrom [] text

/-- What `fgets` reads, at most `n` bytes a call, after the bytes of a line that has begun. -/
def fgetsFrom (n : Nat) : List UInt8 → List UInt8 → List (List UInt8)
  | line, [] => if line = [] then [] else [line]
  | line, b :: bs => if b = 10 ∨ line.length + 1 = n then (line ++ [b]) :: fgetsFrom n [] bs else fgetsFrom n (line ++ [b]) bs

def fgetsLines (n : Nat) (text : List UInt8) : List (List UInt8) := fgetsFrom n [] text

/-- A line that ends with a newline. -/
def Terminated (line : List UInt8) : Prop := ∃ text, line = text ++ [10] ∧ (10 : UInt8) ∉ text

/-- The byte strings are the lines of a text. -/
inductive Lines : List (List UInt8) → Prop where
  | nil : Lines []
  | last (line : List UInt8) (some : line ≠ []) (unbroken : (10 : UInt8) ∉ line) : Lines [line]
  | cons (line : List UInt8) (rest : List (List UInt8)) (ends : Terminated line) (lines : Lines rest) : Lines (line :: rest)

theorem lines_linesFrom (line text : List UInt8) (unbroken : (10 : UInt8) ∉ line) : Lines (linesFrom line text) := by
  induction text generalizing line with
  | nil =>
    unfold linesFrom
    split
    next => exact .nil
    next some => exact .last line some unbroken
  | cons b text ih =>
    unfold linesFrom
    split
    next newline => exact .cons _ _ ⟨line, by rw [newline], unbroken⟩ (ih [] List.not_mem_nil)
    next other =>
      apply ih
      simp [unbroken, Ne.symm other]

theorem lines_linesOf (text : List UInt8) : Lines (linesOf text) := lines_linesFrom [] text List.not_mem_nil

theorem linesFrom_flatten (line text : List UInt8) : (linesFrom line text).flatten = line ++ text := by
  induction text generalizing line with
  | nil =>
    unfold linesFrom
    split
    next none => simp [none]
    next => simp
  | cons b text ih =>
    unfold linesFrom
    split
    next => simp [ih]
    next => simp [ih]

theorem linesOf_flatten (text : List UInt8) : (linesOf text).flatten = text := linesFrom_flatten [] text

/-- A line among others: those before it end with a newline, and so does it unless it is the last. -/
theorem Lines.split {before after : List (List UInt8)} {line : List UInt8} (lines : Lines (before ++ line :: after)) :
    (∀ l ∈ before, Terminated l) ∧ (after ≠ [] → Terminated line) ∧ Lines after := by
  induction before with
  | nil =>
    refine ⟨fun _ member => (nomatch member), ?_⟩
    cases lines with
    | last _ _ _ => exact ⟨fun some => absurd rfl some, .nil⟩
    | cons _ _ ends lines => exact ⟨fun _ => ends, lines⟩
  | cons first before ih =>
    rw [List.cons_append] at lines
    generalize rest : before ++ line :: after = ls at lines
    cases lines with
    | last _ _ _ => simp at rest
    | cons _ _ ends lines =>
      rw [← rest] at lines
      obtain ⟨earlier, here, later⟩ := ih lines
      refine ⟨fun l member => ?_, here, later⟩
      rcases List.mem_cons.mp member with rfl | member
      · exact ends
      · exact earlier l member

/-! ## Reading with a limit -/

theorem fgetsFrom_unbroken {n : Nat} {text : List UInt8} (unbroken : (10 : UInt8) ∉ text) (line rest : List UInt8)
    (short : line.length + text.length < n) : fgetsFrom n line (text ++ rest) = fgetsFrom n (line ++ text) rest := by
  induction text generalizing line with
  | nil => rw [List.nil_append, List.append_nil]
  | cons b text ih =>
    rw [List.mem_cons, not_or] at unbroken
    rw [List.length_cons] at short
    have goesOn : ¬(b = 10 ∨ line.length + 1 = n) := by
      rintro (newline | full)
      · exact unbroken.1 newline.symm
      · omega
    rw [List.cons_append, fgetsFrom, if_neg goesOn, ih unbroken.2, List.append_assoc]
    · rfl
    · rw [List.length_append, List.length_singleton]
      omega

/-- A line that fits is read whole. -/
theorem fgetsLines_terminated {n : Nat} {line : List UInt8} (ends : Terminated line) (short : line.length ≤ n) (rest : List UInt8) :
    fgetsLines n (line ++ rest) = line :: fgetsLines n rest := by
  obtain ⟨text, rfl, unbroken⟩ := ends
  rw [List.length_append, List.length_singleton] at short
  rw [fgetsLines, List.append_assoc, fgetsFrom_unbroken unbroken [] _ (by rw [List.length_nil]; omega), List.nil_append,
    List.singleton_append, fgetsFrom, if_pos (.inl rfl)]
  rfl

/-- A line that is too long is cut. -/
theorem fgetsLines_full {n : Nat} {text : List UInt8} (some : text ≠ []) (unbroken : (10 : UInt8) ∉ text) (full : text.length = n)
    (rest : List UInt8) : fgetsLines n (text ++ rest) = text :: fgetsLines n rest := by
  obtain ⟨front, b, rfl⟩ : ∃ front b, text = front ++ [b] := ⟨_, _, (List.dropLast_concat_getLast some).symm⟩
  rw [List.mem_append, not_or] at unbroken
  rw [List.length_append, List.length_singleton] at full
  rw [fgetsLines, List.append_assoc, fgetsFrom_unbroken unbroken.1 [] _ (by rw [List.length_nil]; omega), List.nil_append,
    List.singleton_append, fgetsFrom, if_pos (.inr full)]
  rfl

theorem fgetsLines_last {n : Nat} {line : List UInt8} (some : line ≠ []) (unbroken : (10 : UInt8) ∉ line) (short : line.length ≤ n) :
    fgetsLines n line = [line] := by
  rcases Nat.lt_or_eq_of_le short with less | full
  · have whole := fgetsFrom_unbroken unbroken [] [] (by rwa [List.length_nil, Nat.zero_add])
    rw [List.append_nil] at whole
    rw [fgetsLines, whole, List.nil_append, fgetsFrom, if_neg some]
  · have cut := fgetsLines_full some unbroken full []
    rwa [List.append_nil] at cut

theorem fgetsLines_prepend {n : Nat} {before : List (List UInt8)} (ends : ∀ l ∈ before, Terminated l) (short : ∀ l ∈ before, l.length ≤ n)
    (rest : List UInt8) : fgetsLines n (before.flatten ++ rest) = before ++ fgetsLines n rest := by
  induction before with
  | nil => rfl
  | cons line before ih =>
    rw [List.flatten_cons, List.append_assoc, fgetsLines_terminated (ends line List.mem_cons_self) (short line List.mem_cons_self),
      ih (fun l member => ends l (List.mem_cons_of_mem _ member)) (fun l member => short l (List.mem_cons_of_mem _ member))]
    rfl

/-- **Lines that fit** are read back. -/
theorem fgetsLines_flatten {n : Nat} {ls : List (List UInt8)} (lines : Lines ls) (short : ∀ l ∈ ls, l.length ≤ n) :
    fgetsLines n ls.flatten = ls := by
  induction lines with
  | nil => rfl
  | last line some unbroken =>
    rw [List.flatten_singleton, fgetsLines_last some unbroken (short line List.mem_cons_self)]
  | cons line rest ends lines ih =>
    rw [List.flatten_cons, fgetsLines_terminated ends (short line List.mem_cons_self),
      ih fun l member => short l (List.mem_cons_of_mem _ member)]

theorem fgetsLines_eq {n : Nat} {text : List UInt8} (short : ∀ l ∈ linesOf text, l.length ≤ n) : fgetsLines n text = linesOf text := by
  have whole := fgetsLines_flatten (lines_linesOf text) short
  rwa [linesOf_flatten] at whole

end VideoDetector.Lib
